import GoApi.Proofs.Ty.Cosmetic
import GoApi.Proofs.Ty.Scoped

/-!
# Renaming free type parameters

`Ty.renameFree` replaces the type parameters that a descriptor leaves free and goes past the binders of their
names.  `Ty.occurrences` lists every place of a descriptor at which a parameter is named: at a binder, at a
reference that a binder binds, or free.  Only places of the last sort change:

    (t.renameFree pairs).occurrences [] = (t.occurrences []).map (·.rename (.replacing pairs))

if no new name is bound inside (`occurrences_respell`).  Two renamings in a row are one
(`respell_twice`), so that renaming names nothing free is no change, and renaming to new names is undone by
the inverse pairs.
-/

namespace GoApi

/-! ## Scopes whose binders keep their names -/

namespace Scope

variable {s : Scope}

theorem spellings_keeping (hs : s.numbered = false) (ns : List String) : s.spellings ns = ns := by
  induction ns generalizing s with
  | nil => rfl
  | cons n ns ih =>
    have hn : s.spellingOf n = n := by simp [spellingOf, hs]
    rw [spellings, hn, ih (s := s.bind n) hs]

/-- A bound name stands for itself, and every other one for what it stood for outside. -/
theorem lookup_bindAll (hs : s.numbered = false) (ns : List String) (m : String) :
    (s.bindAll ns).lookup m = if m ∈ ns then m else s.lookup m := by
  induction ns generalizing s with
  | nil => rfl
  | cons n ns ih =>
    have hn : s.spellingOf n = n := by simp [spellingOf, hs]
    rw [bindAll, ih (s := s.bind n) hs, lookup_bind, hn]
    by_cases hmem : m ∈ ns
    · simp [hmem]
    · by_cases hmn : m = n
      · simp [hmn]
      · simp [hmem, hmn]

theorem lookup_of_not_mem {pairs : List (String × String)} {n : String} (h : ∀ p ∈ pairs, p.1 ≠ n) :
    (replacing pairs).lookup n = n := by
  have hnone : pairs.reverse.lookup n = none := by
    rw [List.lookup_eq_none_iff]
    intro p hp
    exact bne_iff_ne.2 (h p (List.mem_reverse.1 hp)).symm
  rw [lookup, replacing, hnone]
  rfl

end Scope

theorem respellBinders_eq_map (s : Scope) (bs : List (Binder Ty)) :
    Ty.respellBinders s (binderNames bs) bs = bs.map fun b => ⟨b.name, b.constraint.respell s⟩ := by
  induction bs with
  | nil => rfl
  | cons b bs ih =>
    rw [List.map_cons, ← ih]
    rfl

section Keeping

variable {s : Scope} (hs : s.numbered = false)

include hs

/-- A signature whose binders keep their names changes in its parts alone. -/
theorem respellSignature_eq (g : Signature Ty) :
    g.respell s = ⟨g.binders.map fun b => ⟨b.name, b.constraint.respell (s.bindAll g.bound)⟩, g.receiverBinders,
      g.params.map fun p => ⟨p.name, p.type.respell (s.bindAll g.bound)⟩,
      g.results.map fun p => ⟨p.name, p.type.respell (s.bindAll g.bound)⟩, g.variadic⟩ := by
  obtain ⟨bs, rs, ps, qs, v⟩ := g
  have houter : (s.bindAll rs).numbered = false := by rw [numbered_bindAll, hs]
  rw [Signature.respell, Ty.respellSignature, Scope.spellings_keeping hs, Scope.spellings_keeping houter,
    respellBinders_eq_map, respellParams_eq_map, respellParams_eq_map, Signature.bound, bindAll_append]

theorem respell_defined (n : String) (bs : List (Binder Ty)) (a : Bool) (u : Ty) :
    (Ty.defined n bs a u).respell s =
      .defined n (bs.map fun b => ⟨b.name, b.constraint.respell (s.bindAll (binderNames bs))⟩) a
        (u.respell (s.bindAll (binderNames bs))) := by
  rw [Ty.respell, Scope.spellings_keeping hs, respellBinders_eq_map]

theorem bound_respell (g : Signature Ty) : (g.respell s).bound = g.bound := by
  rw [respellSignature_eq hs]
  simp [Signature.bound, binderNames]

theorem parts_respell (g : Signature Ty) :
    (g.respell s).parts = g.parts.map (·.respell (s.bindAll g.bound)) := by
  rw [respellSignature_eq hs]
  simp [Signature.parts, Function.comp_def]

/-- Below a renamed descriptor stands what stood there, renamed under the binders on the way. -/
theorem scopedChildren_respell (t : Ty) :
    (t.respell s).scopedChildren = t.scopedChildren.map fun p => (p.1, p.2.respell (s.bindAll p.1)) := by
  cases t with
  | interface body =>
    obtain ⟨ms, es⟩ := body
    simp [Ty.respell, Ty.scopedChildren, respellMethods_eq_map, respellList_eq_map, List.flatMap_map,
      List.map_flatMap, parts_respell hs, bound_respell hs, Scope.bindAll, Function.comp_def]
  | func g =>
    simp [Ty.respell, Ty.scopedChildren, parts_respell hs, bound_respell hs, Function.comp_def]
  | defined n bs a u =>
    simp [respell_defined hs, Ty.scopedChildren, binderNames, Function.comp_def]
  | _ =>
    simp [Ty.respell, Ty.scopedChildren, Ty.children, respellList_eq_map, respellFields_eq_map,
      respellTerms_eq_map, Scope.bindAll, Function.comp_def]

end Keeping

/-! ## Two renamings in a row -/

section Twice

variable {s s' s'' : Scope} (hs : s.numbered = false) (hs' : s'.numbered = false) (hs'' : s''.numbered = false)

include hs hs' hs''

theorem respellSignature_twice {g : Signature Ty}
    (h : ∀ c ∈ g.parts, (c.respell (s.bindAll g.bound)).respell (s'.bindAll g.bound) =
      c.respell (s''.bindAll g.bound)) : (g.respell s).respell s' = g.respell s'' := by
  have hbound := bound_respell hs g
  rw [respellSignature_eq hs', hbound, respellSignature_eq hs, respellSignature_eq hs'']
  simp only [Signature.mk.injEq, List.map_map, true_and, and_true]
  refine ⟨?_, ?_, ?_⟩
  · refine List.map_congr_left fun b hb => ?_
    simp only [Function.comp_apply, Binder.mk.injEq, true_and]
    exact h b.constraint (by simpa [Signature.parts] using Or.inl ⟨b, hb, rfl⟩)
  · refine List.map_congr_left fun p hp => ?_
    simp only [Function.comp_apply, Param.mk.injEq, true_and]
    exact h p.type (by simpa [Signature.parts] using Or.inr (Or.inl ⟨p, hp, rfl⟩))
  · refine List.map_congr_left fun p hp => ?_
    simp only [Function.comp_apply, Param.mk.injEq, true_and]
    exact h p.type (by simpa [Signature.parts] using Or.inr (Or.inr ⟨p, hp, rfl⟩))

/-- Two renamings in a row are one at a descriptor if they are one right below it. -/
theorem respell_twice_of_children {t : Ty} (hname : ∀ n, t = .typeParam n → s'.lookup (s.lookup n) = s''.lookup n)
    (h : ∀ names c, (names, c) ∈ t.scopedChildren →
      (c.respell (s.bindAll names)).respell (s'.bindAll names) = c.respell (s''.bindAll names)) :
    (t.respell s).respell s' = t.respell s'' := by
  cases t with
  | basic n => simp only [Ty.respell]
  | typeParam n => simp only [Ty.respell, hname n rfl]
  | named p n args =>
    simp only [Ty.respell, respellList_eq_map, List.map_map, Ty.named.injEq, true_and]
    exact List.map_congr_left fun c hc => h [] c (List.mem_map_of_mem hc)
  | pointer e => simp only [Ty.respell, Ty.pointer.injEq]; exact h [] e (by simp [Ty.scopedChildren, Ty.children])
  | slice e => simp only [Ty.respell, Ty.slice.injEq]; exact h [] e (by simp [Ty.scopedChildren, Ty.children])
  | array l e =>
    simp only [Ty.respell, Ty.array.injEq, true_and]
    exact h [] e (by simp [Ty.scopedChildren, Ty.children])
  | map k v =>
    simp only [Ty.respell, Ty.map.injEq]
    exact ⟨h [] k (by simp [Ty.scopedChildren, Ty.children]), h [] v (by simp [Ty.scopedChildren, Ty.children])⟩
  | chan d e =>
    simp only [Ty.respell, Ty.chan.injEq, true_and]
    exact h [] e (by simp [Ty.scopedChildren, Ty.children])
  | struct fs =>
    simp only [Ty.respell, respellFields_eq_map, List.map_map, Ty.struct.injEq]
    refine List.map_congr_left fun f hf => ?_
    simp only [Function.comp_apply, Field.mk.injEq, true_and, and_true]
    exact h [] f.type (List.mem_map_of_mem (List.mem_map_of_mem hf))
  | interface body =>
    obtain ⟨ms, es⟩ := body
    simp only [Ty.respell, respellMethods_eq_map, respellList_eq_map, List.map_map, Ty.interface.injEq,
      Interface.mk.injEq]
    constructor
    · refine List.map_congr_left fun m hm => ?_
      simp only [Function.comp_apply, Method.mk.injEq, true_and]
      refine respellSignature_twice hs hs' hs'' fun c hc => h m.sig.bound c ?_
      exact List.mem_append_left _ (List.mem_flatMap.2 ⟨m, hm, List.mem_map_of_mem hc⟩)
    · exact List.map_congr_left fun e he => h [] e (List.mem_append_right _ (List.mem_map_of_mem he))
  | func g =>
    simp only [Ty.respell, Ty.func.injEq]
    exact respellSignature_twice hs hs' hs'' fun c hc => h g.bound c (List.mem_map_of_mem hc)
  | union ts =>
    simp only [Ty.respell, respellTerms_eq_map, List.map_map, Ty.union.injEq]
    refine List.map_congr_left fun u hu => ?_
    simp only [Function.comp_apply, Term.mk.injEq, true_and]
    exact h [] u.type (List.mem_map_of_mem (List.mem_map_of_mem hu))
  | defined n bs a u =>
    have hbinders : binderNames (bs.map fun b => (⟨b.name, b.constraint.respell (s.bindAll (binderNames bs))⟩ :
        Binder Ty)) = binderNames bs := by simp [binderNames]
    rw [respell_defined hs, respell_defined hs', respell_defined hs'', hbinders]
    simp only [List.map_map, Ty.defined.injEq, true_and]
    constructor
    · refine List.map_congr_left fun b hb => ?_
      simp only [Function.comp_apply, Binder.mk.injEq, true_and]
      exact h _ _ (List.mem_map_of_mem (List.mem_append_left _ (List.mem_map_of_mem hb)))
    · exact h _ u (List.mem_map_of_mem (by simp))

end Twice

/-! ## Where a descriptor names its type parameters -/

/-- A place at which a type parameter is named. -/
inductive Occurrence where
  | binder (name : String)
  | bound (name : String)
  | free (name : String)
  deriving DecidableEq

namespace Occurrence

/-- The name that stands at the place. -/
def name : Occurrence → String
  | .binder n => n
  | .bound n => n
  | .free n => n

/-- The place after a renaming: free references follow it, and no other place does. -/
def rename (σ : String → String) : Occurrence → Occurrence
  | .free n => .free (σ n)
  | o => o

end Occurrence

/-- The places of a descriptor that are not below it, where the names `bound` are bound around it. -/
def Ty.ownOccurrences (bound : List String) : Ty → List Occurrence
  | .typeParam n => [if n ∈ bound then .bound n else .free n]
  | .interface body => body.methods.flatMap fun m => m.sig.bound.map .binder
  | .func g => g.bound.map .binder
  | .defined _ bs _ _ => (binderNames bs).map .binder
  | _ => []

/-- All places of a descriptor at which a type parameter is named, where the names `bound` are bound around
it. -/
def Ty.occurrences (bound : List String) (t : Ty) : List Occurrence :=
  t.ownOccurrences bound ++
    t.scopedChildren.attach.flatMap fun ⟨(names, c), hc⟩ =>
      have _hlt : sizeOf c < sizeOf t := sizeOf_child_lt t c (mem_children_iff.2 ⟨names, hc⟩)
      c.occurrences (names ++ bound)
termination_by sizeOf t

theorem occurrences_eq (bound : List String) (t : Ty) :
    t.occurrences bound =
      t.ownOccurrences bound ++ t.scopedChildren.flatMap fun p => p.2.occurrences (p.1 ++ bound) := by
  conv_rhs => rw [← List.attach_map_subtype_val t.scopedChildren, List.flatMap_map]
  rw [Ty.occurrences]

section Places

variable {bound : List String} {t : Ty} {name : String}

theorem free_mem_ownOccurrences_iff :
    .free name ∈ t.ownOccurrences bound ↔ t = .typeParam name ∧ name ∉ bound := by
  cases t with
  | typeParam n =>
    by_cases hn : n ∈ bound
    · simp only [Ty.ownOccurrences, if_pos hn, List.mem_singleton, reduceCtorEq, false_iff, Ty.typeParam.injEq]
      rintro ⟨rfl, hname⟩
      exact hname hn
    · simp only [Ty.ownOccurrences, if_neg hn, List.mem_singleton, Occurrence.free.injEq, Ty.typeParam.injEq]
      constructor
      · rintro rfl
        exact ⟨rfl, hn⟩
      · exact fun h => h.1.symm
  | _ => simp [Ty.ownOccurrences]

/-- The free places are those of the parameters that are free. -/
theorem free_mem_occurrences_iff : .free name ∈ t.occurrences bound ↔ t.Free name ∧ name ∉ bound := by
  induction t using Ty.childInduction generalizing bound with
  | step t ih =>
    rw [occurrences_eq, List.mem_append, free_mem_ownOccurrences_iff, List.mem_flatMap]
    constructor
    · rintro (⟨rfl, hname⟩ | ⟨⟨names, c⟩, hc, hfree⟩)
      · exact ⟨.here, hname⟩
      · obtain ⟨hfree, hname⟩ := (ih c (mem_children_iff.2 ⟨names, hc⟩)).1 hfree
        rw [List.mem_append, not_or] at hname
        exact ⟨.child hc hname.1 hfree, hname.2⟩
    · rintro ⟨hfree, hname⟩
      cases hfree with
      | here => exact .inl ⟨rfl, hname⟩
      | @child _ c names hc hnames hfree =>
        refine .inr ⟨(names, c), hc, (ih c (mem_children_iff.2 ⟨names, hc⟩)).2 ⟨hfree, ?_⟩⟩
        rw [List.mem_append, not_or]
        exact ⟨hnames, hname⟩

theorem binder_mem_ownOccurrences_iff (more : List String) :
    .binder name ∈ t.ownOccurrences bound ↔ .binder name ∈ t.ownOccurrences more := by
  cases t with
  | typeParam n => by_cases hn : n ∈ bound <;> by_cases hm : n ∈ more <;> simp [Ty.ownOccurrences, hn, hm]
  | _ => rfl

/-- What is bound around a descriptor does not matter to the binders inside. -/
theorem binder_mem_occurrences_iff {more : List String} :
    .binder name ∈ t.occurrences bound ↔ .binder name ∈ t.occurrences more := by
  induction t using Ty.childInduction generalizing bound more with
  | step t ih =>
    rw [occurrences_eq, occurrences_eq, List.mem_append, List.mem_append,
      binder_mem_ownOccurrences_iff more, List.mem_flatMap, List.mem_flatMap]
    refine or_congr_right (exists_congr fun p => and_congr_right fun hp => ?_)
    exact ih p.2 (mem_children_iff.2 ⟨p.1, hp⟩)

variable {names : List String} {c : Ty} (hc : (names, c) ∈ t.scopedChildren)

include hc

theorem binder_mem_of_child (h : .binder name ∈ c.occurrences []) : .binder name ∈ t.occurrences [] := by
  rw [occurrences_eq]
  exact List.mem_append_right _ (List.mem_flatMap.2 ⟨(names, c), hc, binder_mem_occurrences_iff.1 h⟩)

theorem binder_mem_of_scope (h : name ∈ names) : .binder name ∈ t.occurrences [] := by
  rw [occurrences_eq]
  refine List.mem_append_left _ ?_
  cases t with
  | interface body =>
    simp only [Ty.scopedChildren, List.mem_append, List.mem_flatMap, List.mem_map, Prod.mk.injEq] at hc
    rcases hc with ⟨m, hm, part, _, rfl, _⟩ | ⟨e, _, rfl, _⟩
    · exact List.mem_flatMap.2 ⟨m, hm, List.mem_map_of_mem h⟩
    · simp at h
  | func g =>
    obtain ⟨part, _, hpart⟩ := List.mem_map.1 hc
    cases hpart
    exact List.mem_map_of_mem h
  | defined n bs a u =>
    obtain ⟨part, _, hpart⟩ := List.mem_map.1 hc
    cases hpart
    exact List.mem_map_of_mem h
  | _ =>
    obtain ⟨part, _, hpart⟩ := List.mem_map.1 hc
    cases hpart
    simp at h

end Places

/-! ## Renamings that avoid the binders -/

/-- No free parameter gets a new name that is bound inside. -/
def Scope.Avoids (s : Scope) (t : Ty) : Prop :=
  ∀ n, t.Free n → .binder (s.lookup n) ∈ t.occurrences [] → s.lookup n = n

section Avoids

variable {s : Scope}

/-- The new name of a parameter that is free above a binder list is not in that list. -/
theorem Scope.Avoids.not_mem {t c : Ty} {names : List String} {n : String} (h : s.Avoids t)
    (hc : (names, c) ∈ t.scopedChildren) (hn : n ∉ names) (hfree : c.Free n) : s.lookup n ∉ names := by
  intro hmem
  have heq := h n (.child hc hn hfree) (binder_mem_of_scope hc hmem)
  rw [heq] at hmem
  exact hn hmem

variable (hs : s.numbered = false)

include hs

theorem Scope.Avoids.child {t c : Ty} {names : List String} (h : s.Avoids t) (hc : (names, c) ∈ t.scopedChildren) :
    (s.bindAll names).Avoids c := by
  intro n hfree hbinder
  rw [Scope.lookup_bindAll hs] at hbinder ⊢
  split at hbinder
  · rename_i hn
    rw [if_pos hn]
  · rename_i hn
    rw [if_neg hn]
    exact h n (.child hc hn hfree) (binder_mem_of_child hc hbinder)

/-- Two renamings in a row are one if the first keeps clear of the binders. -/
theorem respell_twice {s' s'' : Scope} (hs' : s'.numbered = false) (hs'' : s''.numbered = false) {t : Ty}
    (havoids : s.Avoids t) (h : ∀ n, t.Free n → s'.lookup (s.lookup n) = s''.lookup n) :
    (t.respell s).respell s' = t.respell s'' := by
  induction t using Ty.childInduction generalizing s s' s'' with
  | step t ih =>
    refine respell_twice_of_children hs hs' hs'' (fun n hn => h n (hn ▸ .here)) fun names c hc => ?_
    have hnumbered : ∀ r : Scope, r.numbered = false → (r.bindAll names).numbered = false := by
      intro r hr
      rw [numbered_bindAll, hr]
    refine ih c (mem_children_iff.2 ⟨names, hc⟩) (hnumbered s hs) (hnumbered s' hs') (hnumbered s'' hs'')
      (havoids.child hs hc) fun n hfree => ?_
    rw [Scope.lookup_bindAll hs, Scope.lookup_bindAll hs', Scope.lookup_bindAll hs'']
    by_cases hn : n ∈ names
    · simp only [if_pos hn]
    · rw [if_neg hn, if_neg hn, if_neg (havoids.not_mem hc hn hfree), h n (.child hc hn hfree)]

theorem ownOccurrences_respell {bound : List String} {t : Ty} (hbound : ∀ n ∈ bound, s.lookup n = n)
    (hfresh : ∀ n, t.Free n → n ∉ bound → s.lookup n ∉ bound) :
    (t.respell s).ownOccurrences bound = (t.ownOccurrences bound).map (·.rename s.lookup) := by
  cases t with
  | typeParam n =>
    by_cases hn : n ∈ bound
    · simp [Ty.respell, Ty.ownOccurrences, hbound n hn, hn, Occurrence.rename]
    · simp [Ty.respell, Ty.ownOccurrences, hfresh n .here hn, hn, Occurrence.rename]
  | interface body =>
    obtain ⟨ms, es⟩ := body
    simp [Ty.respell, Ty.ownOccurrences, respellMethods_eq_map, List.flatMap_map, List.map_flatMap,
      bound_respell hs, Occurrence.rename, Function.comp_def]
  | func g => simp [Ty.respell, Ty.ownOccurrences, bound_respell hs, Occurrence.rename]
  | defined n bs a u =>
    simp [respell_defined hs, Ty.ownOccurrences, binderNames, Occurrence.rename]
  | _ => simp [Ty.respell, Ty.ownOccurrences]

/-- Renaming changes the free places, and no other. -/
theorem occurrences_respell {bound : List String} {t : Ty} (havoids : s.Avoids t)
    (hbound : ∀ n ∈ bound, s.lookup n = n) (hfresh : ∀ n, t.Free n → n ∉ bound → s.lookup n ∉ bound) :
    (t.respell s).occurrences bound = (t.occurrences bound).map (·.rename s.lookup) := by
  induction t using Ty.childInduction generalizing s bound with
  | step t ih =>
    rw [occurrences_eq, occurrences_eq bound t, List.map_append, scopedChildren_respell hs, List.flatMap_map,
      List.map_flatMap, ownOccurrences_respell hs hbound hfresh]
    congr 1
    refine List.flatMap_congr fun ⟨names, c⟩ hc => ?_
    have hlookup := Scope.lookup_bindAll hs names
    have hinner : (s.bindAll names).numbered = false := by rw [numbered_bindAll, hs]
    have hchild : (c.respell (s.bindAll names)).occurrences (names ++ bound) =
        (c.occurrences (names ++ bound)).map (·.rename (s.bindAll names).lookup) := by
      refine ih c (mem_children_iff.2 ⟨names, hc⟩) hinner (havoids.child hs hc) ?_ ?_
      · intro n hn
        rw [hlookup]
        split
        · rfl
        · rename_i hnames
          exact hbound n ((List.mem_append.1 hn).resolve_left hnames)
      · intro n hfree hn
        rw [List.mem_append, not_or] at hn ⊢
        rw [hlookup, if_neg hn.1]
        exact ⟨havoids.not_mem hc hn.1 hfree, hfresh n (.child hc hn.1 hfree) hn.2⟩
    -- at a free place of the child the binders on the way to it are out of sight
    rw [hchild]
    refine List.map_congr_left fun o ho => ?_
    cases o with
    | free n =>
      have hn := (free_mem_occurrences_iff.1 ho).2
      rw [List.mem_append, not_or] at hn
      rw [Occurrence.rename, Occurrence.rename, hlookup, if_neg hn.1]
    | _ => rfl

end Avoids

/-! ## There and back -/

section Zip

variable {ps qs : List String} (hps : ps.Nodup) (hlen : ps.length = qs.length)

include hps hlen

theorem lookup_replacing_zip (n : String) :
    (Scope.replacing (ps.zip qs)).lookup n = ((ps.zip qs).lookup n).getD n := by
  have hfst : (ps.zip qs).map Prod.fst = ps := List.map_fst_zip (by omega)
  cases h : (ps.zip qs).lookup n with
  | none =>
    rw [List.lookup_eq_none_iff] at h
    rw [Scope.lookup_of_not_mem fun p hp => (bne_iff_ne.1 (h p hp)).symm]
    rfl
  | some m =>
    obtain ⟨xs, ys, hxy, _⟩ := List.lookup_eq_some_iff.1 h
    have hmem : (n, m) ∈ ps.zip qs := by simp [hxy]
    rw [lookup_replacing (by rwa [hfst]) hmem]
    rfl

/-- A renamed parameter gets one of the new names, and every other one keeps its own. -/
theorem lookup_zip_cases (n : String) :
    (n ∈ ps ∧ (Scope.replacing (ps.zip qs)).lookup n ∈ qs) ∨
      (n ∉ ps ∧ (Scope.replacing (ps.zip qs)).lookup n = n) := by
  by_cases hn : n ∈ ps
  · refine .inl ⟨hn, ?_⟩
    have hfst : (ps.zip qs).map Prod.fst = ps := List.map_fst_zip (by omega)
    obtain ⟨⟨n', m⟩, hmem, rfl⟩ : ∃ p ∈ ps.zip qs, p.1 = n := by
      rw [← hfst] at hn
      exact List.mem_map.1 hn
    rw [lookup_replacing (by rwa [hfst]) hmem]
    exact (List.of_mem_zip hmem).2
  · refine .inr ⟨hn, Scope.lookup_of_not_mem ?_⟩
    rintro ⟨p, q⟩ hmem rfl
    exact hn (List.of_mem_zip hmem).1

end Zip

section Fresh

variable {t : Ty} {ps qs : List String} (hps : ps.Nodup) (hqs : qs.Nodup) (hlen : ps.length = qs.length)
  (hfresh : ∀ q ∈ qs, q ∉ (t.occurrences []).map (·.name))

include hps hlen hfresh

theorem avoids_of_fresh : (Scope.replacing (ps.zip qs)).Avoids t := by
  intro n _ hbinder
  rcases lookup_zip_cases hps hlen n with ⟨_, hmem⟩ | ⟨_, heq⟩
  · exact absurd (List.mem_map_of_mem hbinder) (hfresh _ hmem)
  · exact heq

include hqs

theorem lookup_back {n : String} (hfree : t.Free n) :
    (Scope.replacing (qs.zip ps)).lookup ((Scope.replacing (ps.zip qs)).lookup n) = n := by
  by_cases hn : n ∈ ps
  · exact (lookup_zip hlen.symm hqs hps hn).2
  · have hforth := (lookup_zip_cases hps hlen n).resolve_left fun h => hn h.1
    have hplace : Occurrence.free n ∈ t.occurrences [] := free_mem_occurrences_iff.2 ⟨hfree, by simp⟩
    have hnew : n ∉ qs := fun hmem => hfresh n hmem (List.mem_map_of_mem hplace)
    rw [hforth.2]
    exact ((lookup_zip_cases hqs hlen.symm n).resolve_left fun h => hnew h.1).2

end Fresh

theorem respell_replacing_nil (t : Ty) : t.respell (.replacing []) = t :=
  Scope.Keeps.respell ⟨rfl, by simp [Scope.replacing]⟩ t

/-- Renaming by pairs whose sources are not free changes nothing.  Renaming to new names is undone by the
inverse pairs, and in between every binder and every bound reference stands as it did. -/
theorem renameFree_scoped (t : Ty) :
    (∀ pairs : List (String × String), (∀ p ∈ pairs, ¬ t.Free p.1) → t.renameFree pairs = t) ∧
      ∀ ps qs : List String, ps.Nodup → qs.Nodup → ps.length = qs.length →
        (∀ q ∈ qs, q ∉ (t.occurrences []).map (·.name)) →
        (t.renameFree (ps.zip qs)).renameFree (qs.zip ps) = t ∧
          (t.renameFree (ps.zip qs)).occurrences [] =
            (t.occurrences []).map (·.rename fun n => ((ps.zip qs).lookup n).getD n) := by
  refine ⟨fun pairs hpairs => ?_, fun ps qs hps hqs hlen hfresh => ?_⟩
  · have hkeeps : ∀ n, t.Free n → (Scope.replacing pairs).lookup n = n := by
      intro n hfree
      refine Scope.lookup_of_not_mem ?_
      rintro p hp rfl
      exact hpairs p hp hfree
    have htwice : (t.respell (.replacing pairs)).respell (.replacing []) = t.respell (.replacing []) :=
      respell_twice rfl rfl rfl (fun n hfree _ => hkeeps n hfree) fun n hfree => by rw [hkeeps n hfree]
    rwa [respell_replacing_nil, respell_replacing_nil] at htwice
  · have havoids := avoids_of_fresh hps hlen hfresh
    constructor
    · have htwice : (t.respell (.replacing (ps.zip qs))).respell (.replacing (qs.zip ps)) =
          t.respell (.replacing []) :=
        respell_twice rfl rfl rfl havoids fun n hfree => lookup_back hps hqs hlen hfresh hfree
      rwa [respell_replacing_nil] at htwice
    · rw [← funext (lookup_replacing_zip hps hlen)]
      exact occurrences_respell rfl havoids (by simp) (by simp)

/-- A method inside a constraint binds `P` once more, so that `P` is bound there and free outside. -/
def shadowingFunc : Ty :=
  .func
    { binders := [⟨"T", .interface
        { methods := [⟨"M",
            { receiverBinders := ["P"]
              params := [⟨"", .typeParam "P"⟩, ⟨"", .typeParam "T"⟩]
              results := [⟨"", .typeParam "Q"⟩] }⟩] }⟩]
      params := [⟨"", .typeParam "P"⟩]
      results := [⟨"", .slice (.typeParam "Q")⟩] }

theorem occurrences_shadowingFunc :
    shadowingFunc.occurrences [] = [.binder "T", .binder "P", .bound "P", .bound "T", .free "Q", .free "P", .free "Q"] := by
  simp [shadowingFunc, occurrences_eq _ (.func _), occurrences_eq _ (.interface _), occurrences_eq _ (.slice _),
    occurrences_eq _ (.typeParam _), Ty.ownOccurrences, Ty.scopedChildren, Ty.children, Signature.parts,
    Signature.bound, binderNames]

theorem renameFree_shadowingFunc :
    (¬ shadowingFunc.Free "T" ∧ shadowingFunc.renameFree [("T", "X")] = shadowingFunc) ∧
      (shadowingFunc.renameFree (["P", "Q"].zip ["X", "Y"])).renameFree (["X", "Y"].zip ["P", "Q"]) = shadowingFunc ∧
      (shadowingFunc.renameFree (["P", "Q"].zip ["X", "Y"])).occurrences [] =
        [.binder "T", .binder "P", .bound "P", .bound "T", .free "Y", .free "X", .free "Y"] := by
  have hbound : ¬ shadowingFunc.Free "T" := by
    intro hfree
    have hplace : Occurrence.free "T" ∈ shadowingFunc.occurrences [] :=
      free_mem_occurrences_iff.2 ⟨hfree, by simp⟩
    rw [occurrences_shadowingFunc] at hplace
    revert hplace
    decide
  have hfresh : ∀ q ∈ ["X", "Y"], q ∉ (shadowingFunc.occurrences []).map (·.name) := by
    rw [occurrences_shadowingFunc]
    decide
  obtain ⟨hsame, hback⟩ := renameFree_scoped shadowingFunc
  obtain ⟨hback, hplaces⟩ := hback ["P", "Q"] ["X", "Y"] (by decide) (by decide) rfl hfresh
  refine ⟨⟨hbound, hsame _ ?_⟩, hback, ?_⟩
  · intro p hp
    rw [List.mem_singleton.1 hp]
    exact hbound
  · rw [hplaces, occurrences_shadowingFunc]
    decide

end GoApi
