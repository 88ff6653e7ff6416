import GoApi.Proofs.Surface.Reordering

/-!
# What a round records

A round that comes to an end takes every declaration as the list of its slots (`declValues_eq_some`), also in a
package of which some interface has no expansion.  Recording a list of types leaves for each name the last type
that is told, and otherwise what was there (`lookup_record`), so recording a list twice is recording it once
(`record_record`).
-/

namespace GoApi.Surface

open Source

/-! ## Evaluations that come to an end -/

section Evaluation

variable {p : Package} {site : Site} {values : Values}

theorem join_inferAt (exprs : List Expr) (i : Nat) :
    (inferAt p site values exprs i).join = exprs[i]?.bind fun e => (infer p site values e).join := by
  unfold inferAt
  cases exprs[i]? <;> rfl

/-- The declared type counts for every name, and an inferred one only where none is declared. -/
theorem typeNames_eq_some {type? : Option TypeExpr} {at? : Nat → Option (Option Ty)} {names : List String}
    {declared : List Declared} (h : typeNames p site type? at? names = some declared) :
    declared = names.zipIdx.map fun x => (x.1, (type?.bind (p.resolve site)).or (at? x.2).join) := by
  unfold typeNames at h
  obtain ⟨fixed, hfixed, h⟩ := Option.bind_eq_some_iff.1 h
  refine eq_map_of_mapM (fun x _ y hy => ?_) h
  cases type? with
  | none =>
    cases hfixed
    obtain ⟨t?, ht?, heq⟩ := Option.bind_eq_some_iff.1 hy
    cases heq
    simp [ht?]
  | some t =>
    obtain ⟨ty, hty, heq⟩ := Option.map_eq_some_iff.1 hfixed
    cases heq
    cases hy
    simp [hty]

/-- When the reading of constants ends, it has filled in the slots. -/
theorem constValues_eq_some {previous : Option TypeExpr × List Expr} {specs : List ValueSpec}
    {declared : List Declared} (h : constValues p site values previous specs = some declared) :
    declared = (constSlots p site previous specs).map fun s => (s.name, s.type? p site values) := by
  induction specs generalizing previous declared with
  | nil =>
    cases h
    rfl
  | cons spec rest ih =>
    rw [constValues] at h
    rw [constSlots]
    generalize (if spec.type?.isNone && spec.values.isEmpty then previous
      else (spec.type?, spec.values)) = line at h ⊢
    obtain ⟨here, hhere, h⟩ := Option.bind_eq_some_iff.1 h
    obtain ⟨below, hbelow, heq⟩ := Option.bind_eq_some_iff.1 h
    cases heq
    rw [typeNames_eq_some hhere, ih hbelow, List.map_append, List.map_map]
    simp only [Function.comp_def, Slot.type?, join_inferAt]

theorem varValues_eq_some {spec : ValueSpec} {declared : List Declared}
    (h : varValues p site values spec = some declared) :
    declared = (varSlots p site spec).map fun s => (s.name, s.type? p site values) := by
  unfold varValues at h
  unfold varSlots
  obtain ⟨results, hresults, h⟩ := Option.bind_eq_some_iff.1 h
  rw [typeNames_eq_some h, hresults]
  by_cases hempty : results.isEmpty = true
  · simp [Slot.type?, hempty, join_inferAt]
  · simp [Slot.type?, hempty]

/-- The values of a declaration, where they come to an end, are its slots with their types. -/
theorem declValues_eq_some {d : Decl} {kind : DeclKind} {declared : List Declared}
    (h : declValues p site values d = some (kind, declared)) :
    kind = declKind d ∧ declared = (declSlots p site d).map fun s => (s.name, s.type? p site values) := by
  cases d with
  | consts specs =>
    obtain ⟨found, hfound, heq⟩ := Option.bind_eq_some_iff.1 h
    cases heq
    exact ⟨rfl, constValues_eq_some hfound⟩
  | vars specs =>
    obtain ⟨found, hfound, heq⟩ := Option.bind_eq_some_iff.1 h
    cases heq
    refine ⟨rfl, ?_⟩
    rw [eq_map_of_mapM (fun spec _ y hy => varValues_eq_some hy) hfound, declSlots, List.map_flatMap]
    rfl
  | _ =>
    cases h
    exact ⟨rfl, rfl⟩

theorem learnDecl_eq_some {d : Decl} {result : Values} (h : learnDecl p site values d = some result) :
    result = recordDecl p values (site, d) := by
  obtain ⟨⟨kind, declared⟩, hdeclared, heq⟩ := Option.bind_eq_some_iff.1 h
  cases heq
  rw [(declValues_eq_some hdeclared).2]
  rfl

end Evaluation

/-- A round goes through the declarations of all files in order. -/
theorem learnRound_eq_foldlM (p : Package) (values : Values) :
    learnRound p values = p.decls.foldlM (fun vs x => learnDecl p x.1 vs x.2) values := by
  unfold learnRound Package.decls
  induction p.units generalizing values with
  | nil => rfl
  | cons u us ih =>
    rw [List.foldlM_cons, List.flatMap_cons, List.foldlM_append, List.foldlM_map]
    exact bind_congr fun vs => ih vs

theorem learnRound_eq_some {p : Package} {values result : Values} (h : learnRound p values = some result) :
    result = round p p.decls values := by
  rw [learnRound_eq_foldlM] at h
  unfold round
  generalize p.decls = decls at h ⊢
  induction decls generalizing values with
  | nil =>
    cases h
    rfl
  | cons x xs ih =>
    rw [List.foldlM_cons] at h
    obtain ⟨next, hnext, h⟩ := Option.bind_eq_some_iff.1 h
    rw [ih h, learnDecl_eq_some hnext, List.foldl_cons]

/-! ## What is recorded -/

/-- The last type that a list tells of a name. -/
def lastTold (declared : List Declared) (name : String) : Option Ty :=
  declared.reverse.findSome? fun d => if d.1 = name then d.2 else none

/-- The last declaration that tells a type wins over earlier ones and over what was known. -/
theorem lookup_record (values : Values) (declared : List Declared) (name : String) :
    (record values declared).lookup name = (lastTold declared name).or (values.lookup name) := by
  induction declared generalizing values with
  | nil => rfl
  | cons d ds ih =>
    obtain ⟨n, type?⟩ := d
    rw [lastTold, List.reverse_cons, List.findSome?_append, Option.or_assoc, ← lastTold]
    cases type? with
    | none =>
      show (record values ds).lookup name = _
      rw [ih]
      simp
    | some t =>
      show (record (values.insert n t) ds).lookup name = _
      rw [ih, lookup_insert]
      by_cases h : name = n
      · simp [h]
      · have hne : n ≠ name := fun he => h he.symm
        simp [h, hne]

theorem record_append (values : Values) (declared more : List Declared) :
    record values (declared ++ more) = record (record values declared) more :=
  List.foldl_append

theorem mem_of_lastTold {declared : List Declared} {name : String} {t : Ty}
    (h : lastTold declared name = some t) : (name, some t) ∈ declared := by
  obtain ⟨⟨n, type?⟩, hmem, heq⟩ := List.exists_of_findSome?_eq_some h
  split at heq
  · next hn =>
    dsimp only at hn heq
    rw [← hn, ← heq]
    exact List.mem_reverse.1 hmem
  · cases heq

theorem keys_insert_of_mem {values : Values} {name : String} (h : name ∈ values.keys) (t : Ty) :
    (values.insert name t).keys = values.keys := by
  induction values with
  | nil => cases h
  | cons entry rest ih =>
    obtain ⟨n, u⟩ := entry
    unfold Values.insert
    by_cases hn : n = name
    · rw [if_pos hn]
      rfl
    · rw [if_neg hn]
      have hrest : name ∈ Values.keys rest := (List.mem_cons.1 h).resolve_left fun he => hn he.symm
      exact congrArg (n :: ·) (ih hrest)

/-- Types of names that are known already leave the names as they are. -/
theorem keys_record_of_mem {values : Values} {declared : List Declared}
    (h : ∀ name t, (name, some t) ∈ declared → name ∈ values.keys) : (record values declared).keys = values.keys := by
  induction declared generalizing values with
  | nil => rfl
  | cons d ds ih =>
    obtain ⟨n, type?⟩ := d
    cases type? with
    | none => exact ih fun name t hm => h name t (by simp [hm])
    | some t =>
      have hkeys := keys_insert_of_mem (h n t (by simp)) t
      show (record (values.insert n t) ds).keys = _
      rw [ih, hkeys]
      intro name u hm
      rw [hkeys]
      exact h name u (by simp [hm])

theorem nodup_insert {values : Values} (h : values.keys.Nodup) (name : String) (t : Ty) :
    (values.insert name t).keys.Nodup := by
  by_cases hmem : name ∈ values.keys
  · rwa [keys_insert_of_mem hmem]
  · have hkeys : (values.insert name t).keys = values.keys ++ [name] := by
      clear h
      induction values with
      | nil => rfl
      | cons entry rest ih =>
        obtain ⟨n, u⟩ := entry
        have hne : n ≠ name := fun he => hmem (by simp [Values.keys, he])
        unfold Values.insert
        rw [if_neg hne]
        exact congrArg (n :: ·) (ih fun hm => hmem (List.mem_cons_of_mem n hm))
    rw [hkeys, List.nodup_append]
    refine ⟨h, by simp, ?_⟩
    rintro a ha b hb rfl
    rw [List.mem_singleton] at hb
    exact hmem (hb ▸ ha)

/-- Each name is recorded once. -/
theorem nodup_record {values : Values} (h : values.keys.Nodup) (declared : List Declared) :
    (record values declared).keys.Nodup := by
  induction declared generalizing values with
  | nil => exact h
  | cons d ds ih =>
    obtain ⟨n, type?⟩ := d
    cases type? with
    | none => exact ih h
    | some t => exact ih (nodup_insert h n t)

theorem lookup_eq_none {values : Values} {name : String} (h : name ∉ values.keys) : values.lookup name = none := by
  cases hlookup : values.lookup name with
  | none => rfl
  | some t => exact absurd (mem_keys_iff.2 ⟨t, hlookup⟩) h

/-- Recorded values are determined by their names, in order, and by looking each of them up. -/
theorem eq_of_keys {values values' : Values} (hnodup : values.keys.Nodup) (hkeys : values.keys = values'.keys)
    (hlookup : ∀ name, values.lookup name = values'.lookup name) : values = values' := by
  induction values generalizing values' with
  | nil => exact (List.map_eq_nil_iff.1 hkeys.symm).symm
  | cons entry rest ih =>
    obtain ⟨n, t⟩ := entry
    cases values' with
    | nil => cases hkeys
    | cons entry' rest' =>
      obtain ⟨n', t'⟩ := entry'
      obtain ⟨rfl, hrest⟩ : n = n' ∧ Values.keys rest = Values.keys rest' := List.cons.inj hkeys
      have ht : t = t' := by simpa [List.lookup_cons] using hlookup n
      obtain ⟨hn, hnodup⟩ := List.nodup_cons.1 (show (n :: Values.keys rest).Nodup from hnodup)
      have hn' : n ∉ Values.keys rest' := hrest ▸ hn
      rw [ht, ih hnodup hrest fun name => ?_]
      by_cases hname : name = n
      · rw [hname, lookup_eq_none hn, lookup_eq_none hn']
      · have hne : (name == n) = false := beq_false_of_ne hname
        simpa only [List.lookup_cons, hne] using hlookup name

/-- Recording the same types once more changes nothing. -/
theorem record_record {values : Values} (h : values.keys.Nodup) (declared : List Declared) :
    record (record values declared) declared = record values declared := by
  refine eq_of_keys (nodup_record (nodup_record h declared) declared) ?_ fun name => ?_
  · exact keys_record_of_mem fun name t hm => mem_keys_record hm
  · rw [lookup_record, lookup_record, ← Option.or_assoc, Option.or_self]

end GoApi.Surface
