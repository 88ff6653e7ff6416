import GoApi.Proofs.Ty.Shape

/-!
# Shapes under respelling

`Ty.respell` changes nothing but the names of type parameters, so it keeps the shape of a descriptor:

    (∀ n, param n → param' (s.lookup n)) → t.Nested param name → (t.respell s).Nested param' name

(`Ty.Nested.respell`).  The numbering scope spells every parameter it has bound `$k`
(`Scope.Numbers.lookup`).
-/

namespace GoApi

/-! ## Descriptors -/

theorem plainName?_respell (s : Scope) (t : Ty) : (t.respell s).plainName? = t.plainName? := by
  cases t with
  | interface body => simp [Ty.respell, Ty.plainName?]
  | _ => simp [Ty.respell, Ty.plainName?]

/-- Respelling keeps the name under which a type is embedded. -/
theorem embeddedAs?_respell (s : Scope) (t : Ty) : (t.respell s).embeddedAs? = t.embeddedAs? := by
  cases t with
  | pointer e =>
    simp only [Ty.respell, Ty.embeddedAs?]
    exact plainName?_respell s e
  | _ => simp [Ty.respell, Ty.embeddedAs?, Ty.plainName?]

/-- An embedded field is named after its type, and respelling leaves the names of types alone. -/
theorem FieldShaped.respell (s : Scope) {f : Field Ty} (hf : FieldShaped f) :
    FieldShaped { f with type := f.type.respell s } where
  name := hf.name
  exported := hf.exported
  embedded he := by
    show (f.type.respell s).embeddedAs? = some f.name
    rw [embeddedAs?_respell]
    exact hf.embedded he

theorem EndsInSlice.respell (s : Scope) {ps : List (Param Ty)} (h : EndsInSlice ps) :
    EndsInSlice (Ty.respellParams s ps) := by
  obtain ⟨p, hp, e, he⟩ := h
  rw [Option.mem_def] at hp
  refine ⟨⟨p.name, p.type.respell s⟩, ?_, e.respell s, by rw [he, Ty.respell]⟩
  rw [respellParams_eq_map, Option.mem_def, List.getLast?_map, hp]
  rfl

theorem IsProperUnion.respell (s : Scope) {ts : List (Term Ty)} (h : IsProperUnion ts) :
    IsProperUnion (Ty.respellTerms s ts) := by
  rw [respellTerms_eq_map]
  rcases h with h | ⟨t, rfl, ht⟩
  · exact Or.inl (by simpa using h)
  · exact Or.inr ⟨_, rfl, ht⟩

section Nested

variable {param param' name : String → Prop}

/-- A signature that binds nothing is respelled part by part. -/
theorem Ty.NestedSignature.respell {s : Scope} {g : Signature Ty}
    (hg : Ty.NestedSignature param name g)
    (ih : ∀ t ∈ g.parts, t.Nested param name → (t.respell s).Nested param' name) :
    Ty.NestedSignature param' name (g.respell s) := by
  obtain ⟨hps, hqs, hv⟩ := hg
  rename_i ps qs v
  have hparams : ∀ p ∈ Ty.respellParams s ps, p.type.Nested param' name := by
    rw [respellParams_eq_map]
    intro p hp
    obtain ⟨p₀, hp₀, rfl⟩ := List.mem_map.1 hp
    exact ih p₀.type (by simpa [Signature.parts] using Or.inl ⟨p₀, hp₀, rfl⟩) (hps p₀ hp₀)
  have hresults : ∀ q ∈ Ty.respellParams s qs, q.type.Nested param' name := by
    rw [respellParams_eq_map]
    intro q hq
    obtain ⟨q₀, hq₀, rfl⟩ := List.mem_map.1 hq
    exact ih q₀.type (by simpa [Signature.parts] using Or.inr ⟨q₀, hq₀, rfl⟩) (hqs q₀ hq₀)
  exact ⟨hparams, hresults, fun h => (hv h).respell s⟩

/-- Respelling keeps the shape of a descriptor, of elements and of constraints. -/
theorem respell_shaped (s : Scope) (hs : ∀ n, param n → param' (s.lookup n)) (t : Ty) :
    (t.Nested param name → (t.respell s).Nested param' name) ∧
      (t.ConstraintShaped param name → (t.respell s).ConstraintShaped param' name) := by
  refine Ty.childInduction (motive := fun t =>
    (t.Nested param name → (t.respell s).Nested param' name) ∧
      (t.ConstraintShaped param name → (t.respell s).ConstraintShaped param' name))
    (fun t ih => ?_) t
  have hnested : t.Nested param name → (t.respell s).Nested param' name := by
    intro ht
    cases ht with
    | basic hn hf =>
      rw [Ty.respell]
      exact .basic hn hf
    | localNamed hn hf hargs =>
      rw [Ty.respell, respellList_eq_map]
      refine .localNamed hn hf fun c hc => ?_
      obtain ⟨c₀, hc₀, rfl⟩ := List.mem_map.1 hc
      exact (ih c₀ hc₀).1 (hargs c₀ hc₀)
    | qualified hn hargs =>
      rw [Ty.respell, respellList_eq_map]
      refine .qualified hn fun c hc => ?_
      obtain ⟨c₀, hc₀, rfl⟩ := List.mem_map.1 hc
      exact (ih c₀ hc₀).1 (hargs c₀ hc₀)
    | typeParam hp =>
      rw [Ty.respell]
      exact .typeParam (hs _ hp)
    | pointer he =>
      rw [Ty.respell]
      exact .pointer ((ih _ (by simp [Ty.children])).1 he)
    | slice he =>
      rw [Ty.respell]
      exact .slice ((ih _ (by simp [Ty.children])).1 he)
    | array hl he =>
      rw [Ty.respell]
      exact .array hl ((ih _ (by simp [Ty.children])).1 he)
    | map hk hv =>
      rw [Ty.respell]
      exact .map ((ih _ (by simp [Ty.children])).1 hk) ((ih _ (by simp [Ty.children])).1 hv)
    | chan he =>
      rw [Ty.respell]
      exact .chan ((ih _ (by simp [Ty.children])).1 he)
    | struct hfs hts =>
      rw [Ty.respell, respellFields_eq_map]
      refine .struct (fun f hf => ?_) (fun f hf => ?_) <;> obtain ⟨f₀, hf₀, rfl⟩ := List.mem_map.1 hf
      · exact (hfs f₀ hf₀).respell s
      · exact (ih f₀.type (List.mem_map_of_mem hf₀)).1 (hts f₀ hf₀)
    | @interface ms es hms hnd hgs hes =>
      rw [Ty.respell, respellMethods_eq_map, respellList_eq_map]
      refine .interface (fun m hm => ?_) ?_ (fun m hm => ?_) (fun e he => ?_)
      · obtain ⟨m₀, hm₀, rfl⟩ := List.mem_map.1 hm
        exact hms m₀ hm₀
      · rw [List.map_map]
        exact hnd
      · obtain ⟨m₀, hm₀, rfl⟩ := List.mem_map.1 hm
        exact (hgs m₀ hm₀).respell fun c hc =>
          (ih c (List.mem_append_left _ (List.mem_flatMap.2 ⟨m₀, hm₀, hc⟩))).1
      · obtain ⟨e₀, he₀, rfl⟩ := List.mem_map.1 he
        exact (ih e₀ (List.mem_append_right _ he₀)).2 (hes e₀ he₀)
    | func hg =>
      rw [Ty.respell]
      exact .func (hg.respell fun c hc => (ih c hc).1)
  refine ⟨hnested, fun ht => ?_⟩
  cases ht with
  | type ht => exact .type (hnested ht)
  | union hts hu =>
    have hu' := hu.respell s
    rw [Ty.respell]
    rw [respellTerms_eq_map] at hu' ⊢
    refine .union (fun u hm => ?_) hu'
    obtain ⟨u₀, hu₀, rfl⟩ := List.mem_map.1 hm
    exact (ih u₀.type (List.mem_map_of_mem hu₀)).1 (hts u₀ hu₀)

/-- Respelling keeps the shape and moves the parameters to where the scope sends them. -/
theorem Ty.Nested.respell {s : Scope} (hs : ∀ n, param n → param' (s.lookup n)) {t : Ty}
    (ht : t.Nested param name) : (t.respell s).Nested param' name :=
  (respell_shaped s hs t).1 ht

theorem Ty.ConstraintShaped.respell {s : Scope} (hs : ∀ n, param n → param' (s.lookup n)) {t : Ty}
    (ht : t.ConstraintShaped param name) : (t.respell s).ConstraintShaped param' name :=
  (respell_shaped s hs t).2 ht

end Nested

/-! ## Binders -/

/-- A respelled binder takes one of the given names and a respelled constraint. -/
theorem mem_respellBinders {s : Scope} {ns : List String} {bs : List (Binder Ty)} {b : Binder Ty}
    (hb : b ∈ Ty.respellBinders s ns bs) :
    b.name ∈ ns ∧ ∃ b₀ ∈ bs, b.constraint = b₀.constraint.respell s := by
  induction ns generalizing bs with
  | nil => simp [Ty.respellBinders] at hb
  | cons n ns ih =>
    cases bs with
    | nil => simp [Ty.respellBinders] at hb
    | cons b₁ bs =>
      obtain ⟨m, c⟩ := b₁
      simp only [Ty.respellBinders, List.mem_cons] at hb
      rcases hb with rfl | hb
      · exact ⟨by simp, ⟨m, c⟩, by simp, rfl⟩
      · obtain ⟨hname, b₀, hb₀, hc⟩ := ih hb
        exact ⟨by simp [hname], b₀, by simp [hb₀], hc⟩

/-! ## Numbering -/

/-- Binders are numbered, and so is every parameter bound so far. -/
structure Scope.Numbers (s : Scope) : Prop where
  numbered : s.numbered = true
  bound : ∀ p ∈ s.bindings, IsNumbered p.2

theorem Scope.numbers_positional : Scope.positional.Numbers := ⟨rfl, by simp [Scope.positional]⟩

theorem Scope.Numbers.spellingOf {s : Scope} (hs : s.Numbers) (n : String) :
    IsNumbered (s.spellingOf n) := by
  refine ⟨s.bindings.length, ?_⟩
  rw [Scope.spellingOf, if_pos hs.numbered]

theorem Scope.Numbers.bind {s : Scope} (hs : s.Numbers) (n : String) : (s.bind n).Numbers := by
  refine ⟨hs.numbered, fun p hp => ?_⟩
  rcases List.mem_cons.1 hp with rfl | hp
  · exact hs.spellingOf n
  · exact hs.bound p hp

theorem Scope.Numbers.bindAll {s : Scope} (hs : s.Numbers) (ns : List String) :
    (s.bindAll ns).Numbers := by
  induction ns generalizing s with
  | nil => exact hs
  | cons n ns ih => exact ih (hs.bind n)

theorem Scope.Numbers.spellings {s : Scope} (hs : s.Numbers) {ns : List String} {m : String}
    (hm : m ∈ s.spellings ns) : IsNumbered m := by
  induction ns generalizing s with
  | nil => simp [Scope.spellings] at hm
  | cons n ns ih =>
    rcases List.mem_cons.1 hm with rfl | hm
    · exact hs.spellingOf n
    · exact ih (hs.bind n) hm

/-- The parameters that a scope has bound. -/
def Scope.bound (s : Scope) : List String := s.bindings.map (·.1)

theorem Scope.mem_bound_bindAll {s : Scope} {ns : List String} {m : String} :
    m ∈ (s.bindAll ns).bound ↔ m ∈ s.bound ∨ m ∈ ns := by
  induction ns generalizing s with
  | nil => simp [Scope.bindAll]
  | cons n ns ih =>
    rw [Scope.bindAll, ih, List.mem_cons]
    have hbind : m ∈ (s.bind n).bound ↔ m = n ∨ m ∈ s.bound := by simp [Scope.bound, Scope.bind]
    rw [hbind]
    tauto

/-- In a numbering scope whatever is bound is spelled as a number. -/
theorem Scope.Numbers.lookup {s : Scope} (hs : s.Numbers) {n : String} (hn : n ∈ s.bound) :
    IsNumbered (s.lookup n) := by
  have hsome : (s.bindings.lookup n).isSome := by
    rw [List.lookup_isSome_iff]
    obtain ⟨p, hp, rfl⟩ := List.mem_map.1 hn
    exact ⟨p, hp, by simp⟩
  obtain ⟨m, hm⟩ := Option.isSome_iff_exists.1 hsome
  obtain ⟨xs, ys, hxy, _⟩ := List.lookup_eq_some_iff.1 hm
  rw [Scope.lookup, hm]
  exact hs.bound (n, m) (by simp [hxy])

end GoApi
