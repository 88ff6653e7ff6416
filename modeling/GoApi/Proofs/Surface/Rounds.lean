import GoApi.Proofs.Surface.Generations

/-!
# Rounds and generations

A round takes the declarations one after the other and records each type as soon as it is told, so it
may run ahead of the generations, but never past what they find:

    Sound reads p vs → Covers reads p k vs → Covers reads p (k + 1) (round p vs)      (covers_round)

After `maxRounds` rounds, or the first one that adds no name, all of `generation maxRounds` is known, and
nothing that no generation holds (`values_spec`).
-/

namespace GoApi.Surface

open Source

/-! ## Recording types -/

/-- Record the types that are told. -/
def record (values : Values) (declared : List Declared) : Values :=
  declared.foldl (fun vs (name, type?) =>
    match type? with
    | some type => vs.insert name type
    | none => vs) values

/-- The names with a known type. -/
def Values.keys (values : Values) : List String := values.map (·.1)

theorem lookup_insert (values : Values) (name other : String) (t : Ty) :
    (values.insert name t).lookup other = if other = name then some t else values.lookup other := by
  induction values with
  | nil =>
    unfold Values.insert
    by_cases h : other = name
    · simp [h]
    · have : (other == name) = false := by simpa using h
      simp [List.lookup_cons, h, this]
  | cons entry rest ih =>
    obtain ⟨n, u⟩ := entry
    unfold Values.insert
    by_cases hn : n = name
    · rw [if_pos hn]
      by_cases h : other = name
      · simp [h, hn]
      · have : (other == n) = false := by simpa [hn] using h
        simp [List.lookup_cons, h, this]
    · rw [if_neg hn]
      by_cases h : other = n
      · have hne : other ≠ name := fun he => hn (h.symm.trans he)
        simp [h, hn]
      · have : (other == n) = false := by simpa using h
        simp only [List.lookup_cons, this]
        exact ih

theorem mem_keys_iff {values : Values} {name : String} :
    name ∈ values.keys ↔ ∃ t, values.lookup name = some t := by
  constructor
  · intro h
    obtain ⟨⟨n, t⟩, hmem, rfl⟩ := List.mem_map.1 h
    exact lookup_isSome_of_mem hmem
  · rintro ⟨t, ht⟩
    exact List.mem_map.2 ⟨_, mem_of_lookup ht, rfl⟩

theorem keys_insert (values : Values) (name : String) (t : Ty) :
    ∃ new, (values.insert name t).keys = values.keys ++ new := by
  induction values with
  | nil => exact ⟨[name], rfl⟩
  | cons entry rest ih =>
    obtain ⟨n, u⟩ := entry
    unfold Values.insert
    by_cases hn : n = name
    · rw [if_pos hn]
      exact ⟨[], by simp [Values.keys]⟩
    · rw [if_neg hn]
      obtain ⟨new, hnew⟩ := ih
      exact ⟨new, by simpa [Values.keys] using hnew⟩

theorem keys_record (values : Values) (declared : List Declared) :
    ∃ new, (record values declared).keys = values.keys ++ new := by
  induction declared generalizing values with
  | nil => exact ⟨[], by simp [record]⟩
  | cons d ds ih =>
    obtain ⟨name, type?⟩ := d
    cases type? with
    | none => exact ih values
    | some t =>
      obtain ⟨new₁, h₁⟩ := keys_insert values name t
      obtain ⟨new₂, h₂⟩ := ih (values.insert name t)
      refine ⟨new₁ ++ new₂, ?_⟩
      rw [← List.append_assoc, ← h₁]
      exact h₂

theorem mem_keys_record {values : Values} {declared : List Declared} {name : String} {t : Ty}
    (h : (name, some t) ∈ declared) : name ∈ (record values declared).keys := by
  induction declared generalizing values with
  | nil => cases h
  | cons d ds ih =>
    rcases List.mem_cons.1 h with rfl | h
    · obtain ⟨new, hnew⟩ := keys_record (values.insert name t) ds
      have hmem : name ∈ (values.insert name t).keys := by
        rw [mem_keys_iff, lookup_insert]
        exact ⟨t, if_pos rfl⟩
      show name ∈ (record (values.insert name t) ds).keys
      rw [hnew]
      exact List.mem_append_left _ hmem
    · exact ih h

theorem sound_record {reads : String → Prop} {p : Package} {values : Values}
    {declared : List Declared} (hv : Sound reads p values)
    (hd : ∀ name t, (name, some t) ∈ declared → reads name → p.Finds name t) :
    Sound reads p (record values declared) := by
  induction declared generalizing values with
  | nil => exact hv
  | cons d ds ih =>
    obtain ⟨name, type?⟩ := d
    have hds := fun n t hm => hd n t (List.mem_cons_of_mem _ hm)
    cases type? with
    | none => exact ih hv hds
    | some t =>
      refine ih (fun n u hr hn => ?_) hds
      rw [lookup_insert] at hn
      by_cases h : n = name
      · rw [if_pos h] at hn
        obtain rfl := Option.some.inj hn
        rw [h] at hr ⊢
        exact hd name t (by simp) hr
      · rw [if_neg h] at hn
        exact hv n u hr hn

/-! ## Rounds -/

/-- Record the types that a declaration gives with what is known before it. -/
def recordDecl (p : Package) (values : Values) (x : Site × Decl) : Values :=
  record values ((declSlots p x.1 x.2).map fun s => (s.name, s.type? p x.1 values))

/-- One round over declarations. -/
def round (p : Package) (decls : List (Site × Decl)) (values : Values) : Values :=
  decls.foldl (recordDecl p) values

theorem learnRound_eq {p : Package} (hp : p.Expands) (values : Values) :
    learnRound p values = some (round p p.decls values) := by
  have hdecl : ∀ site vs d, learnDecl p site vs d = some (recordDecl p vs (site, d)) := by
    intro site vs d
    unfold learnDecl
    rw [declValues_eq hp]
    rfl
  have hunit : ∀ (u : FileUnit) (vs : Values), u.decls.foldlM (learnDecl p u.site) vs =
      some (round p (u.decls.map (u.site, ·)) vs) := by
    intro u vs
    unfold round
    induction u.decls generalizing vs with
    | nil => rfl
    | cons d ds ih =>
      rw [List.foldlM_cons, hdecl]
      exact ih _
  unfold learnRound Package.decls
  induction p.units generalizing values with
  | nil => rfl
  | cons u us ih =>
    have happend : ∀ xs ys vs, round p (xs ++ ys) vs = round p ys (round p xs vs) :=
      fun _ _ _ => List.foldl_append
    rw [List.foldlM_cons, hunit, List.flatMap_cons, happend]
    exact ih _

/-- All names of a generation that count are known. -/
def Covers (reads : String → Prop) (p : Package) (k : Nat) (values : Values) : Prop :=
  ∀ name, reads name → (∃ t, (p.generation k).lookup name = some t) → name ∈ values.keys

section Round

variable {reads : String → Prop} {p : Package} (hc : p.Clear reads)

include hc

/-- What is covered by types that are found is known with its type. -/
theorem Covers.lookup {k : Nat} {values : Values} (hcov : Covers reads p k values)
    (hv : Sound reads p values) {name : String} (hr : reads name) {t : Ty}
    (h : (p.generation k).lookup name = some t) : values.lookup name = some t := by
  obtain ⟨t', ht'⟩ := mem_keys_iff.1 (hcov name hr ⟨t, h⟩)
  rw [ht', Package.Finds.unique hc hr (hv name t' hr ht') ⟨k, h⟩]

omit hc in
theorem Covers.append {k : Nat} {values values' : Values} (hcov : Covers reads p k values)
    (hkeys : ∃ new, values'.keys = values.keys ++ new) : Covers reads p k values' := by
  obtain ⟨new, hnew⟩ := hkeys
  intro name hr ht
  rw [hnew]
  exact List.mem_append_left _ (hcov name hr ht)

theorem sound_recordDecl {values : Values} (hv : Sound reads p values) {x : Site × Decl}
    (hx : x ∈ p.decls) : Sound reads p (recordDecl p values x) := by
  refine sound_record hv fun name t hm hr => ?_
  obtain ⟨s, hs, heq⟩ := List.mem_map.1 hm
  obtain ⟨rfl, ht⟩ := Prod.mk.inj heq
  exact hv.finds hc (List.mem_flatMap.2 ⟨x, hx, List.mem_map.2 ⟨s, hs, rfl⟩⟩) hr ht

theorem sound_round {values : Values} (hv : Sound reads p values) {decls : List (Site × Decl)}
    (hdecls : ∀ x ∈ decls, x ∈ p.decls) : Sound reads p (round p decls values) := by
  induction decls generalizing values with
  | nil => exact hv
  | cons x xs ih =>
    exact ih (sound_recordDecl hc hv (hdecls x (by simp))) fun y hy => hdecls y (by simp [hy])

omit hc in
theorem keys_round (values : Values) (decls : List (Site × Decl)) :
    ∃ new, (round p decls values).keys = values.keys ++ new := by
  induction decls generalizing values with
  | nil => exact ⟨[], by simp [round]⟩
  | cons x xs ih =>
    obtain ⟨new₁, h₁⟩ := keys_record values _
    obtain ⟨new₂, h₂⟩ := ih (recordDecl p values x)
    refine ⟨new₁ ++ new₂, ?_⟩
    rw [← List.append_assoc, ← h₁]
    exact h₂

/-- A round reaches every slot with at least what was known at its start. -/
theorem mem_keys_round {k : Nat} {values : Values} (hv : Sound reads p values)
    (hcov : Covers reads p k values) {decls : List (Site × Decl)} (hdecls : ∀ x ∈ decls, x ∈ p.decls)
    {x : Site × Decl} (hx : x ∈ decls) {s : Slot} (hs : s ∈ declSlots p x.1 x.2) {t : Ty}
    (ht : s.type? p x.1 (p.generation k) = some t) : s.name ∈ (round p decls values).keys := by
  induction decls generalizing values with
  | nil => cases hx
  | cons y ys ih =>
    have hy := hdecls y (by simp)
    rcases List.mem_cons.1 hx with rfl | hx
    · have hslot : (x.1, s) ∈ p.slots := List.mem_flatMap.2 ⟨x, hy, List.mem_map.2 ⟨s, hs, rfl⟩⟩
      have hnow : s.type? p x.1 values = some t :=
        slot_mono hc hslot hv (fun n hn t h => hcov.lookup hc hv (hc.names hslot n hn) h) ht
      have hmem : s.name ∈ (recordDecl p values x).keys :=
        mem_keys_record (List.mem_map.2 ⟨s, hs, by rw [hnow]⟩)
      obtain ⟨new, hnew⟩ := keys_round (recordDecl p values x) ys
      show s.name ∈ (round p ys (recordDecl p values x)).keys
      rw [hnew]
      exact List.mem_append_left _ hmem
    · exact ih (sound_recordDecl hc hv hy) (hcov.append (keys_record values _))
        (fun z hz => hdecls z (by simp [hz])) hx

/-- A round makes up for one generation at least. -/
theorem covers_round {k : Nat} {values : Values} (hv : Sound reads p values)
    (hcov : Covers reads p k values) : Covers reads p (k + 1) (round p p.decls values) := by
  rintro name hr ⟨t, ht⟩
  obtain ⟨x, hx, rfl, hty⟩ := exists_slot_of_lookup ht
  obtain ⟨d, hd, hx⟩ := List.mem_flatMap.1 hx
  obtain ⟨s, hs, rfl⟩ := List.mem_map.1 hx
  exact mem_keys_round hc hv hcov (fun _ h => h) hd hs hty

/-- A round that adds no name has all generations behind it. -/
theorem covers_of_length_eq {values : Values} (hv : Sound reads p values)
    (hlen : (round p p.decls values).length = values.length) (k : Nat) :
    Covers reads p k (round p p.decls values) := by
  have hkeys : (round p p.decls values).keys = values.keys := by
    obtain ⟨new, hnew⟩ := keys_round (p := p) values p.decls
    have hnil : new = [] := by
      have := congrArg List.length hnew
      simp only [Values.keys, List.length_map, List.length_append, hlen] at this
      exact List.length_eq_zero_iff.1 (by omega)
    rw [hnew, hnil, List.append_nil]
  induction k with
  | zero =>
    rintro name _ ⟨t, ht⟩
    simp [Package.generation] at ht
  | succ k ih =>
    refine covers_round hc hv fun name hr ht => ?_
    rw [← hkeys]
    exact ih name hr ht

/-- Rounds that start behind generation `j` end behind generation `j + rounds`. -/
theorem learnRounds_spec (hp : p.Expands) (rounds : Nat) {j : Nat} {values result : Values}
    (hv : Sound reads p values) (hcov : Covers reads p j values)
    (h : learnRounds p rounds values = some result) :
    Sound reads p result ∧ Covers reads p (j + rounds) result := by
  induction rounds generalizing j values with
  | zero =>
    obtain rfl : values = result := Option.some.inj h
    exact ⟨hv, hcov⟩
  | succ rounds ih =>
    have hround := sound_round hc hv fun _ h => h
    rw [learnRounds, learnRound_eq hp] at h
    simp only [Option.bind_eq_bind, Option.bind_some] at h
    split at h
    · next hlen =>
      obtain rfl := Option.some.inj h
      exact ⟨hround, covers_of_length_eq hc hv hlen _⟩
    · obtain ⟨hs, hcov'⟩ := ih hround (covers_round hc hv hcov) h
      refine ⟨hs, ?_⟩
      rwa [Nat.add_assoc, Nat.add_comm 1 rounds] at hcov'

/-- The values of a package lie between generation `maxRounds` and what any generation finds. -/
theorem values_spec (hp : p.Expands) {values : Values} (h : p.values = some values) :
    Sound reads p values ∧ Covers reads p maxRounds values := by
  have hempty : Sound reads p [] := by
    intro name t _ ht
    cases ht
  have hcov : Covers reads p 0 [] := by
    rintro name _ ⟨t, ht⟩
    cases ht
  simpa using learnRounds_spec hc hp maxRounds hempty hcov h

/-- The type of a slot at the end: all of generation `maxRounds + 1`, and nothing that no generation
holds. -/
theorem slot_type?_spec (hp : p.Expands) {values : Values} (h : p.values = some values)
    {x : Site × Slot} (hx : x ∈ p.slots) (hr : reads x.2.name) :
    (∀ t, (p.generation (maxRounds + 1)).lookup x.2.name = some t →
      x.2.type? p x.1 values = some t) ∧
    ∀ t, x.2.type? p x.1 values = some t → p.Finds x.2.name t := by
  obtain ⟨hs, hcov⟩ := values_spec hc hp h
  refine ⟨fun t ht => ?_, fun t ht => hs.finds hc hx hr ht⟩
  obtain ⟨y, hy, hname, hty⟩ := exists_slot_of_lookup ht
  obtain rfl : y = x := eq_of_count_le_one (hc.once _ hr) hy hx hname rfl
  exact slot_mono hc hx hs (fun n hn t h => hcov.lookup hc hs (hc.names hx n hn) h) hty

end Round

end GoApi.Surface
