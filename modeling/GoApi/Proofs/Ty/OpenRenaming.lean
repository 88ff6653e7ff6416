import GoApi.Proofs.Ty.Cosmetic
import GoApi.Proofs.Ty.Scoped

/-!
# Open descriptors under renamed binders

`Ty.Renamed pairs` relates descriptors that stand under binders of different names.  A descriptor without
free type parameters is related to itself under all binders (`renamed_self`).

While a type is resolved, open descriptors are compared by a text in which a type parameter looks like a
type of the package.  Where no type is named like a parameter, that text can be read, and the comparison
comes out alike under both names (`identical_eq_of_renamed`).
-/

namespace GoApi

open Text (quote)

/-! ## References -/

/-- A reference is bound on both sides, or means the same outside. -/
theorem sameReference_enter {pairs : Pairing} {ns ns' : List String} (hlen : ns.length = ns'.length)
    {m m' : String} (h : SameReference (pairs.enter ns ns') m m') :
    (m ∈ ns ∧ m' ∈ ns') ∨ (m ∉ ns ∧ m' ∉ ns' ∧ SameReference pairs m m') := by
  induction ns generalizing pairs ns' with
  | nil =>
    obtain rfl := List.length_eq_zero_iff.1 hlen.symm
    exact .inr ⟨by simp, by simp, h⟩
  | cons n ns ih =>
    cases ns' with
    | nil => cases hlen
    | cons n' ns' =>
      rcases ih (Nat.succ.inj hlen) h with ⟨hm, hm'⟩ | ⟨hm, hm', ⟨rfl, rfl⟩ | ⟨hne, hne', h⟩⟩
      · exact .inl ⟨.tail _ hm, .tail _ hm'⟩
      · exact .inl ⟨.head _, .head _⟩
      · exact .inr ⟨by simp [hne, hm], by simp [hne', hm'], h⟩

theorem sameReference_enter_self {pairs : Pairing} {ns : List String} {n : String}
    (h : n ∉ ns → SameReference pairs n n) : SameReference (pairs.enter ns ns) n n := by
  induction ns generalizing pairs with
  | nil => exact h (by simp)
  | cons a ns ih =>
    refine ih fun hn => ?_
    by_cases hna : n = a
    · exact .inl ⟨hna, hna⟩
    · exact .inr ⟨hna, hna, h (by simp [hna, hn])⟩

/-! ## Members of descriptors -/

section Members

variable {pairs : Pairing}

/-- Parameters of one name, with renamed types. -/
def ParamRenamed (pairs : Pairing) (q q' : Param Ty) : Prop :=
  q.name = q'.name ∧ q.type.Renamed pairs q'.type

def TermRenamed (pairs : Pairing) (t t' : Term Ty) : Prop :=
  t.tilde = t'.tilde ∧ t.type.Renamed pairs t'.type

def FieldRenamed (pairs : Pairing) (f f' : Field Ty) : Prop :=
  (f.name, f.embedded, f.exported) = (f'.name, f'.embedded, f'.exported) ∧ f.type.Renamed pairs f'.type

def MethodRenamed (pairs : Pairing) (m m' : Method Ty) : Prop :=
  m.name = m'.name ∧ (Ty.func m.sig).Renamed pairs (.func m'.sig)

theorem renamed_named {package : Option String} {name : String} {args args' : List Ty}
    (h : List.Forall₂ (Ty.Renamed pairs) args args') :
    (Ty.named package name args).Renamed pairs (.named package name args') :=
  .named h.length_eq fun _ hx => rel_of_mem_zip h hx

theorem renamed_union {ts ts' : List (Term Ty)} (h : List.Forall₂ (TermRenamed pairs) ts ts') :
    (Ty.union ts).Renamed pairs (.union ts') :=
  .union (map_eq_of_forall₂ h fun _ _ _ _ ht => ht.1) fun _ hx => (rel_of_mem_zip h hx).2

theorem renamed_struct {fs fs' : List (Field Ty)} (h : List.Forall₂ (FieldRenamed pairs) fs fs') :
    (Ty.struct fs).Renamed pairs (.struct fs') :=
  .struct (map_eq_of_forall₂ h fun _ _ _ _ hf => hf.1) fun _ hx => (rel_of_mem_zip h hx).2

theorem renamed_interface {body body' : Interface Ty}
    (hmethods : List.Forall₂ (MethodRenamed pairs) body.methods body'.methods)
    (hembedded : List.Forall₂ (Ty.Renamed pairs) body.embedded body'.embedded) :
    (Ty.interface body).Renamed pairs (.interface body') :=
  .interface (map_eq_of_forall₂ hmethods fun _ _ _ _ hm => hm.1) (fun _ hx => (rel_of_mem_zip hmethods hx).2)
    hembedded.length_eq fun _ hx => rel_of_mem_zip hembedded hx

theorem renamed_interface_iff {body body' : Interface Ty} :
    (Ty.interface body).Renamed pairs (.interface body') ↔
      List.Forall₂ (MethodRenamed pairs) body.methods body'.methods ∧
        List.Forall₂ (Ty.Renamed pairs) body.embedded body'.embedded := by
  constructor
  · intro h
    cases h with
    | interface hnames hsigs hlen hes =>
      refine ⟨List.forall₂_iff_zip.2 ⟨by simpa using congrArg List.length hnames, fun hx => ?_⟩,
        List.forall₂_iff_zip.2 ⟨hlen, fun hx => hes _ hx⟩⟩
      exact ⟨eq_of_zip hnames hx, hsigs _ hx⟩
  · rintro ⟨hmethods, hembedded⟩
    exact renamed_interface hmethods hembedded

/-- Signatures that bind type parameters in the same places. -/
theorem renamed_func {g g' : Signature Ty} (hreceiver : g.receiverBinders.length = g'.receiverBinders.length)
    (hbinders : List.Forall₂ (fun b b' => b.constraint.Renamed (pairs.enter g.bound g'.bound) b'.constraint)
      g.binders g'.binders)
    (hparams : List.Forall₂ (ParamRenamed (pairs.enter g.bound g'.bound)) g.params g'.params)
    (hresults : List.Forall₂ (ParamRenamed (pairs.enter g.bound g'.bound)) g.results g'.results)
    (hvariadic : g.variadic = g'.variadic) : (Ty.func g).Renamed pairs (.func g') :=
  .func hreceiver hbinders.length_eq (fun _ hx => rel_of_mem_zip hbinders hx)
    (map_eq_of_forall₂ hparams fun _ _ _ _ hq => hq.1) (fun _ hx => (rel_of_mem_zip hparams hx).2)
    (map_eq_of_forall₂ hresults fun _ _ _ _ hq => hq.1) (fun _ hx => (rel_of_mem_zip hresults hx).2) hvariadic

theorem renamed_func_self {g : Signature Ty}
    (h : ∀ t ∈ g.parts, t.Renamed (pairs.enter g.bound g.bound) t) : (Ty.func g).Renamed pairs (.func g) := by
  simp only [Signature.parts, List.forall_mem_append, List.forall_mem_map] at h
  obtain ⟨⟨hbinders, hparams⟩, hresults⟩ := h
  exact renamed_func rfl (List.forall₂_same.2 hbinders) (List.forall₂_same.2 fun q hq => ⟨rfl, hparams q hq⟩)
    (List.forall₂_same.2 fun q hq => ⟨rfl, hresults q hq⟩) rfl

/-- A descriptor is the same under binders that leave its free parameters alone. -/
theorem renamed_self (t : Ty) (h : ∀ n, t.Free n → SameReference pairs n n) : t.Renamed pairs t := by
  induction t using Ty.childInduction generalizing pairs with
  | step t ih =>
    -- under binders, a parameter that is free below is bound here or free outside
    have hunder : ∀ names c, (names, c) ∈ t.scopedChildren → c.Renamed (pairs.enter names names) c := by
      intro names c hc
      refine ih c (mem_children_iff.2 ⟨names, hc⟩) fun n hn => sameReference_enter_self fun hmem => ?_
      exact h n (.child hc hmem hn)
    cases t with
    | basic n => exact .basic n
    | named package name args =>
      refine renamed_named (List.forall₂_same.2 fun c hc => hunder [] c ?_)
      exact List.mem_map.2 ⟨c, hc, rfl⟩
    | typeParam n => exact .typeParam (h n .here)
    | pointer e => exact .pointer (hunder [] e (by simp [Ty.scopedChildren, Ty.children]))
    | slice e => exact .slice (hunder [] e (by simp [Ty.scopedChildren, Ty.children]))
    | array len e => exact .array (hunder [] e (by simp [Ty.scopedChildren, Ty.children]))
    | map k v =>
      exact .map (hunder [] k (by simp [Ty.scopedChildren, Ty.children]))
        (hunder [] v (by simp [Ty.scopedChildren, Ty.children]))
    | chan dir e => exact .chan (hunder [] e (by simp [Ty.scopedChildren, Ty.children]))
    | struct fs =>
      refine renamed_struct (List.forall₂_same.2 fun f hf => ⟨rfl, hunder [] f.type ?_⟩)
      exact List.mem_map.2 ⟨f.type, List.mem_map_of_mem hf, rfl⟩
    | interface body =>
      refine renamed_interface (List.forall₂_same.2 fun m hm => ⟨rfl, renamed_func_self fun c hc => ?_⟩)
        (List.forall₂_same.2 fun e he => hunder [] e ?_)
      · refine hunder _ c (List.mem_append_left _ (List.mem_flatMap.2 ⟨m, hm, ?_⟩))
        exact List.mem_map.2 ⟨c, hc, rfl⟩
      · exact List.mem_append_right _ (List.mem_map.2 ⟨e, he, rfl⟩)
    | func g => exact renamed_func_self fun c hc => hunder _ c (List.mem_map.2 ⟨c, hc, rfl⟩)
    | union ts =>
      refine renamed_union (List.forall₂_same.2 fun x hx => ⟨rfl, hunder [] x.type ?_⟩)
      exact List.mem_map.2 ⟨x.type, List.mem_map_of_mem hx, rfl⟩
    | defined name bs isAlias u =>
      refine .defined rfl (fun x hx => ?_) (hunder _ u (by simp [Ty.scopedChildren]))
      have hsame : List.Forall₂ (fun b b' => b.constraint.Renamed (pairs.enter (binderNames bs) (binderNames bs))
          b'.constraint) bs bs :=
        List.forall₂_same.2 fun b hb => hunder _ _ (List.mem_map.2 ⟨b.constraint, by simp [List.mem_map_of_mem hb], rfl⟩)
      exact rel_of_mem_zip hsame hx

end Members

/-! ## Comparing open descriptors -/

/-- Two scopes that spell parameters in the same places by the same words. -/
theorem InStep.spelled {pairs : Pairing} {bs bs' : List (String × String)} (h : InStep pairs ⟨bs, true⟩ ⟨bs', true⟩)
    {ns ns' words : List String} (hlen : ns.length = ns'.length) (hwords : ns.length = words.length) :
    InStep (pairs.enter ns ns') ⟨(ns.zip words).reverse ++ bs, true⟩ ⟨(ns'.zip words).reverse ++ bs', true⟩ := by
  induction ns generalizing pairs bs bs' ns' words with
  | nil =>
    obtain rfl := List.length_eq_zero_iff.1 hlen.symm
    exact h
  | cons n ns ih =>
    cases ns' with
    | nil => cases hlen
    | cons n' ns' =>
      cases words with
      | nil => cases hwords
      | cons word words =>
        rw [List.zip_cons_cons, List.zip_cons_cons, List.reverse_cons, List.reverse_cons, List.append_assoc,
          List.append_assoc]
        refine ih ⟨rfl, rfl, congrArg (· + 1) h.depth, fun m m' hm => ?_⟩ (Nat.succ.inj hlen)
          (Nat.succ.inj hwords)
        unfold Scope.lookup
        dsimp only [List.singleton_append]
        rw [List.lookup_cons, List.lookup_cons]
        rcases hm with ⟨rfl, rfl⟩ | ⟨hne, hne', hm⟩
        · simp
        · rw [beq_eq_false_iff_ne.2 hne, beq_eq_false_iff_ne.2 hne']
          exact h.lookup m m' hm

theorem lookup_spelled_self (ns : List String) (numbered : Bool) (n : String) :
    Scope.lookup ⟨(ns.zip ns).reverse, numbered⟩ n = n := by
  refine Scope.Keeps.lookup (s := ⟨(ns.zip ns).reverse, false⟩) ⟨rfl, fun q hq => ?_⟩ n
  rw [List.mem_reverse, List.zip, List.zipWith_self] at hq
  obtain ⟨a, _, rfl⟩ := List.mem_map.1 hq
  rfl

/-- Descriptors of one text are read alike, so they have one text in every other spelling. -/
theorem canonical_eq_of_spelled {param name param' name' : String → Prop} {s s' : Scope}
    (hparam : ∀ n, param n → IsWord n) (hsep : ∀ n, param n → isGoName n = true → ¬ name n)
    (hkeeps : ∀ n, s'.lookup n = n) {a b a' b' : Ty} (ha : a.ConstraintShaped param name)
    (hb : b.ConstraintShaped param name) (ha' : a'.ConstraintShaped param' name')
    (hb' : b'.ConstraintShaped param' name') (haa : a.respell s = a'.respell s')
    (hbb : b.respell s = b'.respell s') (h : a.canonical = b.canonical) : a'.canonical = b'.canonical := by
  have hopen : ∀ {t : Ty}, t.ConstraintShaped param name → (t.respell .positional).ConstraintShaped param name :=
    fun ht => ht.respell fun _ hn => hn
  have halike : (a.respell .positional).Alike (b.respell .positional) :=
    ((readable hparam hsep _).2 _ [] [] (hopen ha) (hopen hb) .nil .nil (by
      rw [Ty.text, Ty.text, show (a.respell .positional).write quote = _ from h]
      rfl)).1
  have htext := (Ty.Alike.sameText quote s _ _ (hopen ha) (hopen hb) halike).1
  rw [respell_respell (fun _ _ => rfl) a ha, respell_respell (fun _ _ => rfl) b hb, haa, hbb] at htext
  -- a scope that keeps all names spells as no scope at all
  have hnone : ∀ {t : Ty}, t.ConstraintShaped param' name' → t.respell s' = t.respell .positional := by
    intro t ht
    have hself : (Scope.replacing []).Keeps := ⟨rfl, by simp [Scope.replacing]⟩
    have htwice : (t.respell (.replacing [])).respell s' = t.respell .positional :=
      respell_respell (fun n _ => by rw [hself.lookup, hkeeps]; rfl) t ht
    rwa [hself.respell] at htwice
  rw [hnone ha', hnone hb'] at htext
  exact htext

/-- Descriptors that are renamed together are identical before if and only if they are after it. -/
theorem identical_eq_of_renamed {ns ns' : List String} (hlen : ns.length = ns'.length)
    (hword : ∀ n ∈ ns, isGoName n = true) (hword' : ∀ n ∈ ns', isGoName n = true) {a b a' b' : Ty}
    (ha : a.ConstraintShaped (· ∈ ns) (· ∉ ns)) (hb : b.ConstraintShaped (· ∈ ns) (· ∉ ns))
    (ha' : a'.ConstraintShaped (· ∈ ns') (· ∉ ns')) (hb' : b'.ConstraintShaped (· ∈ ns') (· ∉ ns'))
    (haa : a.Renamed (Pairing.enter [] ns ns') a') (hbb : b.Renamed (Pairing.enter [] ns ns') b') :
    a.identical b = a'.identical b' := by
  have hstep : ∀ words : List String, ns.length = words.length → InStep (Pairing.enter [] ns ns')
      ⟨(ns.zip words).reverse, true⟩ ⟨(ns'.zip words).reverse, true⟩ := by
    intro words hwords
    have h := (InStep.refl (s := .positional) rfl).spelled hlen hwords
    rwa [List.append_nil, List.append_nil] at h
  unfold Ty.identical
  rw [Bool.eq_iff_iff, beq_iff_eq, beq_iff_eq]
  constructor
  · exact canonical_eq_of_spelled (fun n hn => isWord_of_isGoName (hword n hn)) (fun n hn _ h => h hn)
      (lookup_spelled_self ns' true) ha hb ha' hb' (haa.respell_eq (hstep ns' hlen))
      (hbb.respell_eq (hstep ns' hlen))
  · exact canonical_eq_of_spelled (fun n hn => isWord_of_isGoName (hword' n hn)) (fun n hn _ h => h hn)
      (lookup_spelled_self ns true) ha' hb' ha hb (haa.respell_eq (hstep ns rfl)).symm
      (hbb.respell_eq (hstep ns rfl)).symm

end GoApi
