import GoApi.Proofs.Ty.Readable
import GoApi.Proofs.Ty.Respell
import Mathlib.Data.List.Nodup
import Mathlib.Data.List.Zip

/-!
# Renaming type parameters

Two sides that spell their type parameters differently are compared after one of them is renamed.  It
does not matter which one, as long as no parameter has the name of a type that the other side
mentions:

    t.canonical = (t'.respell σ).canonical → t'.canonical = (t.respell τ).canonical

(`canonical_swap`), where `σ` takes the parameters of `t'` to those of `t` and `τ` takes them back.
The texts are read as trees (`readable`), the trees renamed (`Ty.Alike.write_eq`), and two renamings in
a row are one (`respell_respell`).
-/

namespace GoApi

open Text (quote)

section Compose

variable {param name : String → Prop} {s s' s'' : Scope}

/-- A nested signature binds nothing, so two scopes compose on each of its parts. -/
theorem NestedSignature.respell_respell {g : Signature Ty} (hg : Ty.NestedSignature param name g)
    (ih : ∀ t ∈ g.parts, t.Nested param name → (t.respell s).respell s' = t.respell s'') :
    (g.respell s).respell s' = g.respell s'' := by
  obtain ⟨hps, hqs, hv⟩ := hg
  rename_i ps qs v
  simp only [Signature.respell, Ty.respellSignature, Scope.bindAll, Scope.spellings, binderNames,
    List.map_nil, Ty.respellBinders, respellParams_eq_map, List.map_map, Signature.mk.injEq, true_and,
    and_true]
  constructor
  · refine List.map_congr_left fun p hp => ?_
    simp only [Function.comp_apply, Param.mk.injEq, true_and]
    exact ih p.type (by simpa [Signature.parts] using Or.inl ⟨p, hp, rfl⟩) (hps p hp)
  · refine List.map_congr_left fun q hq => ?_
    simp only [Function.comp_apply, Param.mk.injEq, true_and]
    exact ih q.type (by simpa [Signature.parts] using Or.inr ⟨q, hq, rfl⟩) (hqs q hq)

/-- Two renamings in a row are one. -/
theorem respell_respell (h : ∀ n, param n → s'.lookup (s.lookup n) = s''.lookup n) (t : Ty)
    (ht : t.ConstraintShaped param name) : (t.respell s).respell s' = t.respell s'' := by
  refine Ty.childInduction (motive := fun t => t.ConstraintShaped param name →
    (t.respell s).respell s' = t.respell s'') (fun t ih ht => ?_) t ht
  cases ht with
  | union hts hu =>
    simp only [Ty.respell, respellTerms_eq_map, List.map_map, Ty.union.injEq]
    refine List.map_congr_left fun u hu => ?_
    simp only [Function.comp_apply, Term.mk.injEq, true_and]
    exact ih u.type (List.mem_map_of_mem hu) (.type (hts u hu))
  | type ht =>
    cases ht with
    | basic hn hf => simp only [Ty.respell]
    | @localNamed n args hn hf hargs =>
      simp only [Ty.respell, respellList_eq_map, List.map_map, Ty.named.injEq, true_and]
      exact List.map_congr_left fun c hc => ih c hc (.type (hargs c hc))
    | @qualified p n args hn hargs =>
      simp only [Ty.respell, respellList_eq_map, List.map_map, Ty.named.injEq, true_and]
      exact List.map_congr_left fun c hc => ih c hc (.type (hargs c hc))
    | typeParam hp => simp only [Ty.respell, h _ hp]
    | pointer he => simp only [Ty.respell, ih _ (by simp [Ty.children]) (.type he)]
    | slice he => simp only [Ty.respell, ih _ (by simp [Ty.children]) (.type he)]
    | array hl he => simp only [Ty.respell, ih _ (by simp [Ty.children]) (.type he)]
    | map hk hv =>
      simp only [Ty.respell, ih _ (by simp [Ty.children]) (.type hk),
        ih _ (by simp [Ty.children]) (.type hv)]
    | chan he => simp only [Ty.respell, ih _ (by simp [Ty.children]) (.type he)]
    | @struct fs hfs hts =>
      simp only [Ty.respell, respellFields_eq_map, List.map_map, Ty.struct.injEq]
      refine List.map_congr_left fun f hf => ?_
      simp only [Function.comp_apply, Field.mk.injEq, true_and, and_true]
      exact ih f.type (List.mem_map_of_mem hf) (.type (hts f hf))
    | @interface ms es hms hnd hgs hes =>
      simp only [Ty.respell, respellMethods_eq_map, respellList_eq_map, List.map_map,
        Ty.interface.injEq, Interface.mk.injEq]
      constructor
      · refine List.map_congr_left fun m hm => ?_
        simp only [Function.comp_apply, Method.mk.injEq, true_and]
        refine NestedSignature.respell_respell (hgs m hm) fun c hc hn => ?_
        exact ih c (List.mem_append_left _ (List.mem_flatMap.2 ⟨m, hm, hc⟩)) (.type hn)
      · exact List.map_congr_left fun e he => ih e (List.mem_append_right _ he) (hes e he)
    | func hg =>
      simp only [Ty.respell, Ty.func.injEq]
      exact NestedSignature.respell_respell hg fun c hc hn => ih c hc (.type hn)

end Compose

/-! ## Alike descriptors have one text -/

section Write

variable {param name : String → Prop} (q : String → String)

/-- The text of a slice's element. -/
def Ty.elemText? : Ty → Option String
  | .slice e => some (e.write q)
  | _ => none

/-- The same text, also as the last parameter of a variadic list. -/
def SameText (t t' : Ty) : Prop := t.write q = t'.write q ∧ t.elemText? q = t'.elemText? q

theorem writeParams_cons (v : Bool) (p : Param Ty) (ps : List (Param Ty)) :
    Ty.writeParams q v (p :: ps) =
      (match ps, p.type.elemText? q with
        | [], some text => (if v then "..." else "[]") ++ text
        | _, _ => p.type.write q) :: Ty.writeParams q v ps := by
  obtain ⟨n, t⟩ := p
  cases ps with
  | nil => cases t <;> simp [Ty.writeParams, Ty.elemText?]
  | cons p' ps' => simp [Ty.writeParams]

variable {q} in
/-- Parameters of the same text are written alike, the variadic one included. -/
theorem writeParams_congr (v : Bool) {ps ps' : List (Param Ty)}
    (h : List.Forall₂ (fun p p' => SameText q p.type p'.type) ps ps') :
    Ty.writeParams q v ps = Ty.writeParams q v ps' := by
  induction h with
  | nil => rfl
  | @cons p p' ps ps' hp hps ih =>
    rw [writeParams_cons, writeParams_cons, ih, hp.1, hp.2]
    cases hps <;> rfl

theorem isReceiveOnly_respell (s : Scope) (t : Ty) :
    (t.respell s).isReceiveOnly = t.isReceiveOnly := by
  cases t with
  | chan d e => cases d <;> simp [Ty.respell, Ty.isReceiveOnly]
  | _ => simp [Ty.respell, Ty.isReceiveOnly]

/-- Whether brackets are needed can be told from the shape. -/
theorem Ty.Alike.isReceiveOnly {t t' : Ty} (h : t.Alike t') : t.isReceiveOnly = t'.isReceiveOnly := by
  cases t with
  | chan d e =>
    cases t' with
    | chan d' e' =>
      rw [Ty.Alike] at h
      rw [h.1]
      cases d' <;> rfl
    | _ => simp [Ty.Alike] at h
  | _ => cases t' <;> simp_all [Ty.Alike, Ty.isReceiveOnly]

/-- The line of a method, with its name as the key to sort by. -/
def methodLine (s : Scope) (m : Method Ty) : String × String :=
  (m.name, m.name ++ Ty.writeSignature q (m.sig.respell s))

/-- An interface is written from lines sorted by method name, then from its elements sorted by
their text. -/
theorem write_interface (s : Scope) (ms : List (Method Ty)) (es : List Ty) :
    ((Ty.interface ⟨ms, es⟩).respell s).write q = "interface\x7b" ++ Text.join "; "
      ((sortBy (·.1) (ms.map (methodLine q s))).map (·.2) ++
        sortBy id (es.map fun e => (e.respell s).write q)) ++ "\x7d" := by
  simp only [Ty.respell, Ty.write, respellMethods_eq_map, respellList_eq_map, writeMethods_eq_map,
    writeList_eq_map, List.map_map]
  rfl

/-- The lines of an interface are sorted, so only which ones there are counts. -/
theorem interface_write_eq {s : Scope} {ms ns ms' : List (Method Ty)} {es ds es' : List Ty}
    (hns : ns.Perm ms') (hnd : (ms'.map (·.name)).Nodup)
    (hms : ms.map (methodLine q s) = ns.map (methodLine q s)) (hds : ds.Perm es')
    (hes : es.map (fun e => (e.respell s).write q) = ds.map fun e => (e.respell s).write q) :
    ((Ty.interface ⟨ms, es⟩).respell s).write q = ((Ty.interface ⟨ms', es'⟩).respell s).write q := by
  have hmethods : sortBy (·.1) (ms.map (methodLine q s)) = sortBy (·.1) (ms'.map (methodLine q s)) := by
    rw [hms]
    refine sortBy_eq_of_perm _ _ _ (hns.map _) fun a ha b hb hab => ?_
    obtain ⟨m, hm, rfl⟩ := List.mem_map.1 ha
    obtain ⟨n, hn, rfl⟩ := List.mem_map.1 hb
    rw [List.inj_on_of_nodup_map hnd (hns.mem_iff.1 hm) (hns.mem_iff.1 hn) hab]
  have helements : sortBy id (es.map fun e => (e.respell s).write q) =
      sortBy id (es'.map fun e => (e.respell s).write q) := by
    rw [hes]
    exact sortBy_eq_of_perm _ _ _ (hds.map _) fun a _ b _ hab => hab
  rw [write_interface, write_interface, hmethods, helements]

theorem NestedSignature.write_eq {s : Scope} {g g' : Signature Ty}
    (hg : Ty.NestedSignature param name g) (hg' : Ty.NestedSignature param name g')
    (h : Ty.AlikeSignature g g')
    (ih : ∀ t ∈ g.parts, ∀ t', t.Nested param name → t'.Nested param name → t.Alike t' →
      SameText q (t.respell s) (t'.respell s)) :
    Ty.writeSignature q (g.respell s) = Ty.writeSignature q (g'.respell s) := by
  obtain ⟨hps, hqs, hv⟩ := hg
  obtain ⟨hps', hqs', hv'⟩ := hg'
  rename_i ps qs v ps' qs' v'
  simp only [Ty.AlikeSignature, alikeParams_iff] at h
  obtain ⟨_, hparams, hresults, rfl⟩ := h
  have hparams' : List.Forall₂ (fun p p' => SameText q p.type p'.type) (Ty.respellParams s ps)
      (Ty.respellParams s ps') := by
    rw [respellParams_eq_map, respellParams_eq_map, List.forall₂_map_left_iff,
      List.forall₂_map_right_iff]
    refine forall₂_imp_mem hparams fun p hp p' hp' halike => ?_
    exact ih p.type (by simpa [Signature.parts] using Or.inl ⟨p, hp, rfl⟩) _ (hps p hp) (hps' p' hp')
      halike
  have hresults' : List.Forall₂ (fun p p' => SameText q p.type p'.type) (Ty.respellParams s qs)
      (Ty.respellParams s qs') := by
    rw [respellParams_eq_map, respellParams_eq_map, List.forall₂_map_left_iff,
      List.forall₂_map_right_iff]
    refine forall₂_imp_mem hresults fun p hp p' hp' halike => ?_
    exact ih p.type (by simpa [Signature.parts] using Or.inr ⟨p, hp, rfl⟩) _ (hqs p hp) (hqs' p' hp')
      halike
  simp only [Signature.respell, Ty.respellSignature, Scope.bindAll, binderNames, List.map_nil,
    Ty.writeSignature, writeParams_congr _ hparams', writeParams_congr _ hresults']

/-- Alike descriptors are written alike, in every spelling of their parameters. -/
theorem Ty.Alike.sameText (s : Scope) (t : Ty) : ∀ t' : Ty, t.ConstraintShaped param name →
    t'.ConstraintShaped param name → t.Alike t' → SameText q (t.respell s) (t'.respell s) := by
  refine Ty.childInduction (motive := fun t => ∀ t' : Ty, t.ConstraintShaped param name →
    t'.ConstraintShaped param name → t.Alike t' → SameText q (t.respell s) (t'.respell s))
    (fun t ih t' ht ht' h => ?_) t
  have hchild : ∀ c ∈ t.children, ∀ c' : Ty, c.Nested param name → c'.Nested param name → c.Alike c' →
      SameText q (c.respell s) (c'.respell s) :=
    fun c hc c' hn hn' => ih c hc c' (.type hn) (.type hn')
  have hargs : ∀ args args' : List Ty, (∀ c ∈ args, c ∈ t.children) →
      (∀ c ∈ args, c.Nested param name) → (∀ c ∈ args', c.Nested param name) →
      Ty.AlikeList args args' →
      (Ty.respellList s args).map (·.write q) = (Ty.respellList s args').map (·.write q) := by
    intro args args' hsub hn hn' halike
    rw [alikeList_iff] at halike
    rw [respellList_eq_map, respellList_eq_map, List.map_map, List.map_map]
    exact map_eq_of_forall₂ halike fun c hc c' hc' hcc =>
      (hchild c (hsub c hc) c' (hn c hc) (hn' c' hc') hcc).1
  cases ht with
  | @union ts hts hu =>
    cases ht' with
    | @union ts' hts' hu' =>
      rw [Ty.Alike, alikeTerms_iff] at h
      refine ⟨?_, by simp [Ty.respell, Ty.elemText?]⟩
      simp only [Ty.respell, Ty.write, respellTerms_eq_map, writeTerms_eq_map, List.map_map]
      congr 1
      refine map_eq_of_forall₂ h fun u hu u' hu' hterms => ?_
      obtain ⟨htilde, halike⟩ := hterms
      simp only [Function.comp_apply, termText, htilde]
      rw [(hchild u.type (List.mem_map_of_mem hu) _ (hts u hu) (hts' u' hu') halike).1]
    | type ht' => cases ht' <;> simp [Ty.Alike] at h
  | type ht =>
    cases ht' with
    | union hts' hu' => cases ht <;> simp [Ty.Alike] at h
    | type ht' =>
      cases ht with
      | basic hn hf =>
        cases ht' with
        | basic hn' hf' =>
          rw [Ty.Alike] at h
          rw [h]
          exact ⟨rfl, rfl⟩
        | localNamed hn' hf' hargs' =>
          rw [Ty.Alike] at h
          obtain ⟨_, rfl, rfl⟩ := h
          simp [SameText, Ty.respell, Ty.write, Ty.elemText?, Ty.respellList, Ty.writeList, bracketed]
        | _ => simp [Ty.Alike] at h
      | @localNamed n args hn hf hnested =>
        cases ht' with
        | basic hn' hf' =>
          rw [Ty.Alike] at h
          obtain ⟨_, rfl, rfl⟩ := h
          simp [SameText, Ty.respell, Ty.write, Ty.elemText?, Ty.respellList, Ty.writeList, bracketed]
        | @localNamed n' args' hn' hf' hnested' =>
          rw [Ty.Alike] at h
          obtain ⟨_, rfl, halike⟩ := h
          simp only [SameText, Ty.respell, Ty.write, Ty.elemText?, writeList_eq_map, and_true,
            hargs args args' (fun c hc => hc) hnested hnested' halike]
        | _ => simp [Ty.Alike] at h
      | @qualified p n args hn hnested =>
        cases ht' with
        | @qualified p' n' args' hn' hnested' =>
          rw [Ty.Alike] at h
          obtain ⟨hp, rfl, halike⟩ := h
          obtain rfl := Option.some.inj hp
          simp only [SameText, Ty.respell, Ty.write, Ty.elemText?, writeList_eq_map, and_true,
            hargs args args' (fun c hc => hc) hnested hnested' halike]
        | _ => simp [Ty.Alike] at h
      | typeParam hp =>
        cases ht' with
        | typeParam hp' =>
          rw [Ty.Alike] at h
          rw [h]
          exact ⟨rfl, rfl⟩
        | _ => simp [Ty.Alike] at h
      | pointer he =>
        cases ht' with
        | pointer he' =>
          rw [Ty.Alike] at h
          simp only [SameText, Ty.respell, Ty.write, Ty.elemText?, and_true,
            (hchild _ (by simp [Ty.children]) _ he he' h).1]
        | _ => simp [Ty.Alike] at h
      | slice he =>
        cases ht' with
        | slice he' =>
          rw [Ty.Alike] at h
          simp only [SameText, Ty.respell, Ty.write, Ty.elemText?, and_true,
            (hchild _ (by simp [Ty.children]) _ he he' h).1]
        | _ => simp [Ty.Alike] at h
      | array hl he =>
        cases ht' with
        | array hl' he' =>
          rw [Ty.Alike] at h
          simp only [SameText, Ty.respell, Ty.write, Ty.elemText?, and_true, h.1,
            (hchild _ (by simp [Ty.children]) _ he he' h.2).1]
        | _ => simp [Ty.Alike] at h
      | map hk hv =>
        cases ht' with
        | map hk' hv' =>
          rw [Ty.Alike] at h
          simp only [SameText, Ty.respell, Ty.write, Ty.elemText?, and_true,
            (hchild _ (by simp [Ty.children]) _ hk hk' h.1).1,
            (hchild _ (by simp [Ty.children]) _ hv hv' h.2).1]
        | _ => simp [Ty.Alike] at h
      | chan he =>
        cases ht' with
        | chan he' =>
          rw [Ty.Alike] at h
          simp only [SameText, Ty.respell, Ty.write, Ty.elemText?, and_true, h.1,
            isReceiveOnly_respell, h.2.isReceiveOnly,
            (hchild _ (by simp [Ty.children]) _ he he' h.2).1]
        | _ => simp [Ty.Alike] at h
      | @struct fs hfs hts =>
        cases ht' with
        | @struct fs' hfs' hts' =>
          rw [Ty.Alike, alikeFields_iff] at h
          refine ⟨?_, by simp [Ty.respell, Ty.elemText?]⟩
          simp only [Ty.respell, Ty.write, respellFields_eq_map, writeFields_eq_map, List.map_map]
          congr 3
          refine map_eq_of_forall₂ h fun f hf f' hf' hfields => ?_
          obtain ⟨hname, halike, hembedded, _⟩ := hfields
          simp only [Function.comp_apply, fieldText, hname, hembedded,
            (hchild f.type (List.mem_map_of_mem hf) _ (hts f hf) (hts' f' hf') halike).1]
        | _ => simp [Ty.Alike] at h
      | @interface ms es hms hnd hgs hes =>
        cases ht' with
        | @interface ms' es' hms' hnd' hgs' hes' =>
          rw [Ty.Alike] at h
          obtain ⟨⟨ns, hns, hmethods⟩, ds, hds, helements⟩ := h
          rw [alikeMethods_iff] at hmethods
          rw [alikeList_iff] at helements
          refine ⟨interface_write_eq q hns hnd' ?_ hds ?_, by simp [Ty.respell, Ty.elemText?]⟩
          · refine map_eq_of_forall₂ hmethods fun m hm n hn hmethod => ?_
            obtain ⟨hname, halike⟩ := hmethod
            rw [methodLine, methodLine, hname, NestedSignature.write_eq q (hgs m hm)
              (hgs' n (hns.mem_iff.1 hn)) halike fun c hc => hchild c
                (List.mem_append_left _ (List.mem_flatMap.2 ⟨m, hm, hc⟩))]
          · refine map_eq_of_forall₂ helements fun e he d hd halike => ?_
            exact (ih e (List.mem_append_right _ he) d (hes e he) (hes' d (hds.mem_iff.1 hd)) halike).1
        | _ => simp [Ty.Alike] at h
      | @func g hg =>
        cases ht' with
        | func hg' =>
          rw [Ty.Alike] at h
          refine ⟨?_, by simp [Ty.respell, Ty.elemText?]⟩
          simp only [Ty.respell, Ty.write]
          rw [NestedSignature.write_eq q hg hg' h hchild]
        | _ => simp [Ty.Alike] at h

end Write

/-! ## Renaming the other side -/

/-- What is found after one side is renamed is found as well after the other one is, if the parameters
of the first are not taken for its types. -/
theorem canonical_swap {param param' name : String → Prop} {σ τ : Scope}
    (hparam : ∀ n, param n → IsWord n) (hsep : ∀ n, param n → isGoName n = true → ¬ name n)
    (hto : ∀ n, param' n → param (σ.lookup n)) (hback : ∀ n, param' n → τ.lookup (σ.lookup n) = n)
    {t t' : Ty} (ht : t.ConstraintShaped param name) (ht' : t'.ConstraintShaped param' name)
    (h : t.canonical = (t'.respell σ).canonical) : t'.canonical = (t.respell τ).canonical := by
  have hrenamed : (t'.respell σ).ConstraintShaped param name := ht'.respell hto
  have hopen : (t.respell .positional).ConstraintShaped param name := ht.respell fun n hn => hn
  have hσ : (t'.respell σ).respell .positional = t'.respell σ := respell_respell (fun _ _ => rfl) t' ht'
  have hτ : (t.respell τ).respell .positional = t.respell τ := respell_respell (fun _ _ => rfl) t ht
  have hpos : (t.respell .positional).respell τ = t.respell τ := respell_respell (fun _ _ => rfl) t ht
  have hround : (t'.respell σ).respell τ = t'.respell .positional := respell_respell hback t' ht'
  have htext : (t.respell .positional).text ++ [] = (t'.respell σ).text ++ [] := by
    unfold Ty.canonical at h
    rw [hσ] at h
    unfold Ty.text
    rw [h]
  obtain ⟨halike, _⟩ := (readable hparam hsep (t.respell .positional)).2 (t'.respell σ) [] [] hopen
    hrenamed .nil .nil htext
  have hwrite := (Ty.Alike.sameText quote τ _ _ hopen hrenamed halike).1
  rw [hpos, hround] at hwrite
  unfold Ty.canonical
  rw [hτ, hwrite]

theorem lookup_replacing {pairs : List (String × String)} (hnd : (pairs.map Prod.fst).Nodup)
    {a b : String} (h : (a, b) ∈ pairs) : (Scope.replacing pairs).lookup a = b := by
  have hmem : (a, b) ∈ pairs.reverse := List.mem_reverse.2 h
  have hsome : (pairs.reverse.lookup a).isSome := by
    rw [List.lookup_isSome_iff]
    exact ⟨(a, b), hmem, by simp⟩
  obtain ⟨c, hc⟩ := Option.isSome_iff_exists.1 hsome
  obtain ⟨xs, ys, hxy, _⟩ := List.lookup_eq_some_iff.1 hc
  have hac : (a, c) ∈ pairs := by
    rw [← List.mem_reverse, hxy]
    simp
  have hbc : (a, b) = (a, c) := List.inj_on_of_nodup_map hnd h hac rfl
  rw [Scope.lookup, Scope.replacing, hc, (Prod.mk.inj hbc).2]
  rfl

/-- Parameters that take each other's places. -/
theorem lookup_zip {os ns : List String} (hlen : os.length = ns.length) (hos : os.Nodup)
    (hns : ns.Nodup) {n : String} (hn : n ∈ ns) :
    (Scope.replacing (ns.zip os)).lookup n ∈ os ∧
      (Scope.replacing (os.zip ns)).lookup ((Scope.replacing (ns.zip os)).lookup n) = n := by
  have hfst : (ns.zip os).map Prod.fst = ns := List.map_fst_zip (by omega)
  have hfst' : (os.zip ns).map Prod.fst = os := List.map_fst_zip (by omega)
  obtain ⟨⟨n', m⟩, hmem, rfl⟩ : ∃ p ∈ ns.zip os, p.1 = n := by
    rw [← hfst] at hn
    exact List.mem_map.1 hn
  have hswap : (m, n') ∈ os.zip ns := by
    rw [← List.zip_swap]
    exact List.mem_map.2 ⟨(n', m), hmem, rfl⟩
  rw [lookup_replacing (by rwa [hfst]) hmem]
  exact ⟨(List.of_mem_zip hmem).2, lookup_replacing (by rwa [hfst']) hswap⟩

/-- Identity after renaming the new side is identity after renaming the old one. -/
theorem identical_swap {os ns : List String} (hlen : os.length = ns.length) (hos : os.Nodup)
    (hns : ns.Nodup) (hword : ∀ n ∈ os, isGoName n = true) {name : String → Prop}
    (hname : ∀ n ∈ os, ¬ name n) {t t' : Ty} (ht : t.ConstraintShaped (· ∈ os) name)
    (ht' : t'.ConstraintShaped (· ∈ ns) name) (h : t.identical (t'.renameFree (ns.zip os)) = true) :
    t'.identical (t.renameFree (os.zip ns)) = true := by
  unfold Ty.identical at h ⊢
  rw [beq_iff_eq] at h ⊢
  exact canonical_swap (fun n hn => isWord_of_isGoName (hword n hn)) (fun n hn _ => hname n hn)
    (fun n hn => (lookup_zip hlen hos hns hn).1) (fun n hn => (lookup_zip hlen hos hns hn).2) ht ht' h

/-! ## Renaming nothing -/

/-- Every parameter keeps its name. -/
structure Scope.Keeps (s : Scope) : Prop where
  numbered : s.numbered = false
  same : ∀ p ∈ s.bindings, p.1 = p.2

theorem Scope.Keeps.lookup {s : Scope} (hs : s.Keeps) (n : String) : s.lookup n = n := by
  unfold Scope.lookup
  cases h : s.bindings.lookup n with
  | none => rfl
  | some m =>
    obtain ⟨xs, ys, hxy, _⟩ := List.lookup_eq_some_iff.1 h
    exact (hs.same (n, m) (by simp [hxy])).symm

theorem Scope.Keeps.spellingOf {s : Scope} (hs : s.Keeps) (n : String) : s.spellingOf n = n := by
  simp [Scope.spellingOf, hs.numbered]

theorem Scope.Keeps.bind {s : Scope} (hs : s.Keeps) (n : String) : (s.bind n).Keeps := by
  refine ⟨hs.numbered, fun p hp => ?_⟩
  rcases List.mem_cons.1 hp with rfl | hp
  · exact (hs.spellingOf n).symm
  · exact hs.same p hp

theorem Scope.Keeps.bindAll {s : Scope} (hs : s.Keeps) (ns : List String) : (s.bindAll ns).Keeps := by
  induction ns generalizing s with
  | nil => exact hs
  | cons n ns ih => exact ih (hs.bind n)

theorem Scope.Keeps.spellings {s : Scope} (hs : s.Keeps) (ns : List String) : s.spellings ns = ns := by
  induction ns generalizing s with
  | nil => rfl
  | cons n ns ih => rw [Scope.spellings, hs.spellingOf, ih (hs.bind n)]

theorem respellBinders_eq_self {s : Scope} {bs : List (Binder Ty)}
    (h : ∀ b ∈ bs, b.constraint.respell s = b.constraint) :
    Ty.respellBinders s (binderNames bs) bs = bs := by
  induction bs with
  | nil => rfl
  | cons b bs ih =>
    have hb := h b (by simp)
    simp only [binderNames, List.map_cons, Ty.respellBinders, hb]
    rw [show Ty.respellBinders s (bs.map (·.name)) bs = bs from ih fun b' hb' => h b' (by simp [hb'])]

theorem respellParams_eq_self {s : Scope} {ps : List (Param Ty)}
    (h : ∀ p ∈ ps, p.type.respell s = p.type) : Ty.respellParams s ps = ps := by
  rw [respellParams_eq_map]
  exact map_eq_self fun p hp => by rw [h p hp]

theorem Scope.Keeps.respellSignature {s : Scope} (hs : s.Keeps) (g : Signature Ty)
    (ih : ∀ t ∈ g.parts, ∀ s' : Scope, s'.Keeps → t.respell s' = t) : g.respell s = g := by
  obtain ⟨bs, rs, ps, qs, v⟩ := g
  have houter := hs.bindAll rs
  have hinner := houter.bindAll (binderNames bs)
  rw [Signature.respell, Ty.respellSignature, hs.spellings, houter.spellings, respellBinders_eq_self, respellParams_eq_self,
    respellParams_eq_self]
  · exact fun q hq => ih q.type (by simpa [Signature.parts] using Or.inr (Or.inr ⟨q, hq, rfl⟩)) _ hinner
  · exact fun p hp => ih p.type (by simpa [Signature.parts] using Or.inr (Or.inl ⟨p, hp, rfl⟩)) _ hinner
  · exact fun b hb => ih b.constraint (by simpa [Signature.parts] using Or.inl ⟨b, hb, rfl⟩) _ hinner

/-- A scope that keeps every name changes no type.  By induction on the type, since binding a name
under such a scope keeps it as well. -/
theorem Scope.Keeps.respell {s : Scope} (hs : s.Keeps) (t : Ty) : t.respell s = t := by
  refine Ty.childInduction (motive := fun t => ∀ s : Scope, s.Keeps → t.respell s = t)
    (fun t ih s hs => ?_) t s hs
  cases t with
  | basic n => rw [Ty.respell]
  | named p n args =>
    have hargs : args.map (·.respell s) = args := map_eq_self fun c hc => ih c hc s hs
    rw [Ty.respell, respellList_eq_map, hargs]
  | typeParam n => rw [Ty.respell, hs.lookup]
  | pointer e => rw [Ty.respell, ih e (by simp [Ty.children]) s hs]
  | slice e => rw [Ty.respell, ih e (by simp [Ty.children]) s hs]
  | array l e => rw [Ty.respell, ih e (by simp [Ty.children]) s hs]
  | map k v =>
    rw [Ty.respell, ih k (by simp [Ty.children]) s hs, ih v (by simp [Ty.children]) s hs]
  | chan d e => rw [Ty.respell, ih e (by simp [Ty.children]) s hs]
  | struct fs =>
    rw [Ty.respell, respellFields_eq_map, map_eq_self fun f hf => ?_]
    rw [ih f.type (List.mem_map_of_mem hf) s hs]
  | interface body =>
    obtain ⟨ms, es⟩ := body
    rw [Ty.respell, respellMethods_eq_map, respellList_eq_map, map_eq_self fun m hm => ?_,
      map_eq_self fun e he => ih e (List.mem_append_right _ he) s hs]
    rw [hs.respellSignature m.sig fun c hc => ih c
      (List.mem_append_left _ (List.mem_flatMap.2 ⟨m, hm, hc⟩))]
  | func g =>
    have hg : Ty.respellSignature s g = g := hs.respellSignature g fun c hc => ih c hc
    rw [Ty.respell, hg]
  | union ts =>
    rw [Ty.respell, respellTerms_eq_map, map_eq_self fun t ht => ?_]
    rw [ih t.type (List.mem_map_of_mem ht) s hs]
  | defined n bs a u =>
    have hinner := hs.bindAll (binderNames bs)
    rw [Ty.respell, hs.spellings, ih u (by simp [Ty.children]) _ hinner, respellBinders_eq_self fun b hb =>
      ih b.constraint (List.mem_append_left _ (List.mem_map_of_mem hb)) _ hinner]

/-- Replacing each name by itself changes nothing. -/
theorem renameFree_self (ns : List String) (t : Ty) : t.renameFree (ns.zip ns) = t := by
  refine Scope.Keeps.respell ⟨rfl, fun p hp => ?_⟩ t
  rw [Scope.replacing, List.mem_reverse, List.zip, List.zipWith_self] at hp
  obtain ⟨n, _, rfl⟩ := List.mem_map.1 hp
  rfl

end GoApi
