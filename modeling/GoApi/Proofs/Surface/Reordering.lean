import GoApi.Proofs.Surface.Rounds

/-!
# Packages in another order

A package whose files are given in another order has the same declarations.  If each name that counts
is declared once, it resolves types alike (`Package.DeclaredOnce.agrees`) and its values have the same
generations (`generation_lookup_of_perm`).  The rounds over the values see the declarations in another
order; they agree on all of generation `maxRounds + 1`, so only a value that is found in a later one
(`Package.Deep`) may be told in one order and not in the other (`slot_type?_perm`).
-/

namespace GoApi.Surface

open Source

/-! ## Declared names -/

/-- The names of the values of a declaration, with the commas between the names of constants. -/
def declValueNames : Decl → List String
  | .consts specs => specs.flatMap fun spec => spec.names.intersperse ","
  | .vars specs => specs.flatMap (·.names)
  | _ => []

/-- The names of all values. -/
def Package.valueNames (p : Package) : List String :=
  p.decls.flatMap fun x => declValueNames x.2

/-- The names of all types, functions and values. -/
def Package.declaredNames (p : Package) : List String :=
  p.types.map (·.decl.name) ++ p.funcs.map (·.name) ++ p.valueNames

/-- The names that interfaces embed. -/
def Package.embeds (p : Package) : List String :=
  p.decls.flatMap fun x => (declTypes x.2).flatMap embedded

/-- The values and functions that initializers mention. -/
def Package.mentions (p : Package) : List String :=
  p.decls.flatMap fun x => declNames x.2

/-- The names that count: exported ones, and those that the package itself refers to. -/
def Package.Counts (p : Package) (name : String) : Prop :=
  isExported name = true ∨ name ∈ p.embeds ∨ name ∈ p.mentions

/-- Each name that counts is declared once. -/
def Package.DeclaredOnce (p : Package) : Prop :=
  ∀ name, p.Counts name → p.declaredNames.count name ≤ 1

/-- Constants are declared in the order written, each comma between them standing as a name of its
own. -/
theorem constSlots_names (p : Package) (site : Site) (previous : Option TypeExpr × List Expr)
    (specs : List ValueSpec) :
    (constSlots p site previous specs).map (·.name) =
      specs.flatMap fun spec => spec.names.intersperse "," := by
  induction specs generalizing previous with
  | nil => rfl
  | cons spec rest ih =>
    rw [constSlots, List.map_append, ih, List.map_map, List.flatMap_cons]
    congr 1
    exact List.zipIdx_map_fst 0 _

theorem varSlots_names (p : Package) (site : Site) (spec : ValueSpec) :
    (varSlots p site spec).map (·.name) = spec.names := by
  have hname : ∀ x : String × Nat, (if ((sharedResults p site spec).getD []).isEmpty then
      (⟨x.1, spec.type?.bind (p.resolve site), spec.values[x.2]?⟩ : Slot)
      else ⟨x.1, (spec.type?.bind (p.resolve site)).or ((sharedResults p site spec).getD [])[x.2]?,
        none⟩).name = x.1 := by
    intro x
    split <;> rfl
  unfold varSlots
  rw [List.map_map]
  calc spec.names.zipIdx.map _ = spec.names.zipIdx.map Prod.fst := List.map_congr_left fun x _ => hname x
    _ = spec.names := List.zipIdx_map_fst 0 _

theorem declSlots_names (p : Package) (site : Site) (d : Decl) :
    (declSlots p site d).map (·.name) = declValueNames d := by
  cases d with
  | consts specs => exact constSlots_names p site (none, []) specs
  | vars specs =>
    rw [declSlots, declValueNames, List.map_flatMap]
    exact List.flatMap_congr fun spec _ => varSlots_names p site spec
  | _ => rfl

/-- The slots carry the names that the declarations list, in the same order. -/
theorem slots_names (p : Package) : p.slots.map (·.2.name) = p.valueNames := by
  unfold Package.slots Package.valueNames
  rw [List.map_flatMap]
  refine List.flatMap_congr fun x _ => ?_
  rw [List.map_map, ← declSlots_names p x.1 x.2]
  rfl

/-- A name that counts is declared at most once among types, functions and values taken together. -/
theorem Package.DeclaredOnce.parts {p : Package} (h : p.DeclaredOnce) {name : String}
    (hn : p.Counts name) :
    (p.types.map (·.decl.name)).count name + (p.funcs.map (·.name)).count name +
      (p.slots.map (·.2.name)).count name ≤ 1 := by
  have := h name hn
  unfold Package.declaredNames at this
  rw [List.count_append, List.count_append] at this
  rw [slots_names]
  exact this

/-- What a declaration embeds or mentions counts, by definition. -/
theorem within_counts (p : Package) : ∀ x ∈ p.decls, DeclReads p.Counts x.2 := by
  intro x hx
  refine ⟨fun t ht name hn => ?_, fun name hn => ?_⟩
  · exact Or.inr (Or.inl (List.mem_flatMap.2 ⟨x, hx, List.mem_flatMap.2 ⟨t, ht, hn⟩⟩))
  · exact Or.inr (Or.inr (List.mem_flatMap.2 ⟨x, hx, hn⟩))

theorem Package.DeclaredOnce.clear {p : Package} (h : p.DeclaredOnce) : p.Clear p.Counts where
  within := within_counts p
  once name hn := by
    have := h.parts hn
    omega
  apart name hn hf hs := by
    have hsum := h.parts hn
    obtain ⟨f, hf⟩ := Option.isSome_iff_exists.1 hf
    have hname : f.name = name := by simpa using List.find?_some hf
    have hfunc : 0 < (p.funcs.map (·.name)).count name :=
      List.count_pos_iff.2 (List.mem_map.2 ⟨f, List.mem_of_find?_eq_some hf, hname⟩)
    have hslot := List.count_pos_iff.2 hs
    omega

/-! ## Reordered packages -/

section Perm

variable {p p' : Package} (hperm : p.units.Perm p'.units)

include hperm

theorem decls_perm : p.decls.Perm p'.decls := hperm.flatMap_right _

theorem types_perm : p.types.Perm p'.types := hperm.flatMap_right _

theorem funcs_perm : p.funcs.Perm p'.funcs := hperm.flatMap_right _

/-- Reordering the files reorders the declared names and loses none. -/
theorem declaredNames_perm : p.declaredNames.Perm p'.declaredNames :=
  (((types_perm hperm).map _).append ((funcs_perm hperm).map _)).append
    ((decls_perm hperm).flatMap_right _)

/-- Which names count does not depend on the order of the files. -/
theorem counts_iff (name : String) : p.Counts name ↔ p'.Counts name := by
  have hembeds : p.embeds.Perm p'.embeds := (decls_perm hperm).flatMap_right _
  have hmentions : p.mentions.Perm p'.mentions := (decls_perm hperm).flatMap_right _
  unfold Package.Counts
  rw [hembeds.mem_iff, hmentions.mem_iff]

theorem Package.DeclaredOnce.perm (h : p.DeclaredOnce) : p'.DeclaredOnce := by
  intro name hn
  rw [← (declaredNames_perm hperm).count_eq]
  exact h name ((counts_iff hperm name).2 hn)

/-- Where nothing that counts is declared twice, looking a name up gives the same answer in either
order. -/
theorem Package.DeclaredOnce.agrees (h : p.DeclaredOnce) : p.Agrees p.Counts p' where
  types := {
    declared := fun name => by
      unfold Package.type?
      rw [Bool.eq_iff_iff, List.find?_isSome, List.find?_isSome]
      constructor
      · rintro ⟨t, ht, hname⟩
        exact ⟨t, (types_perm hperm).mem_iff.1 ht, hname⟩
      · rintro ⟨t, ht, hname⟩
        exact ⟨t, (types_perm hperm).mem_iff.2 ht, hname⟩
    same := fun name hn => by
      have honce : (p.types.map (·.decl.name)).count name ≤ 1 := by
        have := h.parts hn
        omega
      unfold Package.body? Package.type?
      rw [find?_eq_of_perm (types_perm hperm) honce] }
  count := (types_perm hperm).length_eq
  funcs name hn := by
    have honce : (p.funcs.map (·.name)).count name ≤ 1 := by
      have := h.parts hn
      omega
    unfold Package.func?
    rw [find?_eq_of_perm (funcs_perm hperm) honce]
  within := within_counts p

end Perm

/-! ## Slots and generations -/

namespace Package.Agrees

variable {reads : String → Prop} {p p' : Package} (h : p.Agrees reads p')

include h

theorem bind_resolve (site : Site) {type? : Option TypeExpr}
    (ht : ∀ t ∈ type?, ∀ name ∈ embedded t, reads name) :
    type?.bind (p.resolve site) = type?.bind (p'.resolve site) := by
  cases type? with
  | none => rfl
  | some t => exact h.resolve site (ht t rfl)

theorem constSlots (site : Site) {previous : Option TypeExpr × List Expr} {specs : List ValueSpec}
    (hprev : ∀ t ∈ previous.1, ∀ name ∈ embedded t, reads name)
    (hspecs : ∀ spec ∈ specs, ∀ t ∈ spec.type?, ∀ name ∈ embedded t, reads name) :
    constSlots p site previous specs = constSlots p' site previous specs := by
  induction specs generalizing previous with
  | nil => rfl
  | cons spec rest ih =>
    have hline : ∀ t ∈ (if spec.type?.isNone && spec.values.isEmpty then previous
        else (spec.type?, spec.values)).1, ∀ name ∈ embedded t, reads name := by
      split
      · exact hprev
      · exact hspecs spec (by simp)
    rw [Surface.constSlots, Surface.constSlots, h.bind_resolve site hline,
      ih hline fun s hs => hspecs s (by simp [hs])]

theorem sharedResults (site : Site) {spec : ValueSpec} (hspec : ∀ e ∈ spec.values, ExprReads reads e) :
    sharedResults p site spec = sharedResults p' site spec := by
  unfold Surface.sharedResults
  split
  · next e _ hvalues =>
    rw [h.callResults site (hspec e (by simp [hvalues]))]
  · rfl

/-- A declaration gives the same slots in both packages: it reads only names on which they agree. -/
theorem declSlots {x : Site × Decl} (hx : x ∈ p.decls) :
    declSlots p x.1 x.2 = declSlots p' x.1 x.2 := by
  obtain ⟨site, d⟩ := x
  have hd := h.within _ hx
  cases d with
  | consts specs =>
    exact h.constSlots site (by simp) fun spec hs t ht => hd.type hs ht
  | vars specs =>
    refine List.flatMap_congr fun spec hs => ?_
    unfold varSlots
    rw [h.sharedResults site fun e he => hd.expr hs he,
      h.bind_resolve site fun t ht => hd.type hs ht]
  | _ => rfl

/-- So the slots of the reordered package are those of the first, reordered with their files. -/
theorem slots_perm (hperm : p.units.Perm p'.units) : p.slots.Perm p'.slots := by
  have hslots : p.slots = p.decls.flatMap fun x => (Surface.declSlots p' x.1 x.2).map (x.1, ·) :=
    List.flatMap_congr fun x hx => by rw [h.declSlots hx]
  rw [hslots]
  exact (decls_perm hperm).flatMap_right _

theorem slot_type? {x : Site × Slot} (hx : x ∈ p.slots) {vs vs' : Values}
    (hv : ∀ name ∈ x.2.names, vs.lookup name = vs'.lookup name) :
    x.2.type? p x.1 vs = x.2.type? p' x.1 vs' := by
  obtain ⟨d, hd, hx⟩ := List.mem_flatMap.1 hx
  obtain ⟨s, hs, rfl⟩ := List.mem_map.1 hx
  unfold Slot.type?
  unfold Slot.names at hv
  dsimp only at hv ⊢
  cases he : s.init? with
  | none => rfl
  | some e =>
    obtain ⟨spec, hspec, hmem⟩ := declSlots_init hs he
    rw [he] at hv
    rw [Option.bind_some, Option.bind_some, h.infer d.1 ((h.within d hd).expr hspec hmem) hv]

end Package.Agrees

theorem Nests.mem_embeds {p : Package} {c c' : Call} (h : Nests p c c') : c'.1 ∈ p.embeds := by
  obtain ⟨t, es, ht, hes, _, hin⟩ := nests_iff.1 h
  obtain ⟨list, hlist, hdecl⟩ := mem_types (List.mem_of_find?_eq_some ht)
  have hbody : c'.1 ∈ embedded t.decl.body := by
    rw [(literal?_eq_some hes).2, embedded, List.mem_append]
    exact hin.imp And.left And.left
  refine List.mem_flatMap.2 ⟨_, hlist, List.mem_flatMap.2 ⟨t.decl.body, ?_, hbody⟩⟩
  exact List.mem_flatMap.2 ⟨t.decl, hdecl, by simp⟩

/-- A value whose type is found through initializers, but not through `maxRounds + 1` of them. -/
def Package.Deep (p : Package) (name : String) : Prop :=
  (p.generation (maxRounds + 1)).lookup name = none ∧ ∃ t, p.Finds name t

section Perm

variable {p p' : Package} (hperm : p.units.Perm p'.units) (honce : p.DeclaredOnce)

include hperm honce

/-- An interface that comes back to itself does so in every order. -/
theorem Package.Expands.perm (hp : p.Expands) : p'.Expands := by
  refine expands_of_acyclic fun name hcycle => ?_
  obtain ⟨c, _, hc⟩ := Relation.TransGen.tail'_iff.1 hcycle
  have hcounts : p.Counts name := (counts_iff hperm name).2 (Or.inr (Or.inl hc.mem_embeds))
  have hnone : p'.expand name 1 = none := (expand_eq_none_iff (name, 1)).2 ⟨_, .refl, hcycle⟩
  have hsome := hp (name, 1)
  rw [(honce.agrees hperm).expand name hcounts, hnone] at hsome
  cases hsome

/-- By induction on the generation: a type told after `k` rounds in one order is told after `k`
rounds in the other. -/
theorem generation_lookup_of_perm (k : Nat) {name : String} (hn : p.Counts name) {t : Ty}
    (h : (p.generation k).lookup name = some t) : (p'.generation k).lookup name = some t := by
  induction k generalizing p p' name t with
  | zero => simp [Package.generation] at h
  | succ k ih =>
    obtain ⟨x, hx, rfl, hty⟩ := exists_slot_of_lookup h
    have hagrees := honce.agrees hperm
    have honce' := honce.perm hperm
    refine lookup_generation honce'.clear ((hagrees.slots_perm hperm).mem_iff.1 hx)
      ((counts_iff hperm _).1 hn) ?_
    rw [← hty]
    refine (hagrees.slot_type? hx fun n hm => Option.ext fun u => ?_).symm
    have hcounts := honce.clear.names hx n hm
    constructor
    · exact ih hperm honce hcounts
    · exact ih hperm.symm honce' ((counts_iff hperm n).1 hcounts)

theorem finds_of_perm {name : String} (hn : p.Counts name) {t : Ty} (h : p'.Finds name t) :
    p.Finds name t := by
  obtain ⟨k, hk⟩ := h
  exact ⟨k, generation_lookup_of_perm hperm.symm (honce.perm hperm) k ((counts_iff hperm name).1 hn) hk⟩

/-- In every order a slot ends with the same type, if it is not deep. -/
theorem slot_type?_perm (hp : p.Expands) {values values' : Values} (hv : p.values = some values)
    (hv' : p'.values = some values') {x : Site × Slot} (hx : x ∈ p.slots) (hn : p.Counts x.2.name) :
    x.2.type? p x.1 values = x.2.type? p' x.1 values' ∨ p.Deep x.2.name := by
  have hx' := ((honce.agrees hperm).slots_perm hperm).mem_iff.1 hx
  obtain ⟨hknown, hfound⟩ := slot_type?_spec honce.clear hp hv hx hn
  obtain ⟨hknown', hfound'⟩ := slot_type?_spec (honce.perm hperm).clear (hp.perm hperm honce) hv' hx'
    ((counts_iff hperm _).1 hn)
  cases hgen : (p.generation (maxRounds + 1)).lookup x.2.name with
  | some t =>
    left
    rw [hknown t hgen, hknown' t (generation_lookup_of_perm hperm honce _ hn hgen)]
  | none =>
    cases ht : x.2.type? p x.1 values with
    | some t => exact Or.inr ⟨hgen, t, hfound t ht⟩
    | none =>
      cases ht' : x.2.type? p' x.1 values' with
      | some t => exact Or.inr ⟨hgen, t, finds_of_perm hperm honce hn (hfound' t ht')⟩
      | none => exact Or.inl rfl

end Perm

end GoApi.Surface
