import GoApi.Classify
import GoApi.Proofs.Delta
import GoApi.Proofs.SymbolTable
import Mathlib.Data.List.Nodup

/-!
# What a classification reports

The records of two tables are told name by name, each from what the two sides have of it:

    c ∈ classify policy old new ↔
      classifySymbol policy c.symbol (old.get? c.symbol) (new.get? c.symbol) = some c   (mem_classify)

A name that both sides have is left out exactly if the two declarations are `Unchanged`.  What has to be
recorded is said by `Recorded`, without reference to how it is found, and a classification is the one list
of these records in strictly ascending order of names (`classification_exact`).
-/

namespace GoApi

theorem SymbolTable.get?_eq_some_iff (t : SymbolTable) (name : String) (s : Symbol) :
    t.get? name = some s ↔ s ∈ t.symbols ∧ s.name = name := by
  unfold SymbolTable.get?
  constructor
  · intro h
    exact ⟨List.mem_of_find?_eq_some h, by simpa using List.find?_some h⟩
  · rintro ⟨hs, hname⟩
    have hsome : (t.symbols.find? (·.name == name)).isSome := by
      rw [List.find?_isSome]
      exact ⟨s, hs, by simp [hname]⟩
    obtain ⟨s', hs'⟩ := Option.isSome_iff_exists.1 hsome
    have hname' : s'.name = name := by simpa using List.find?_some hs'
    rw [hs', List.inj_on_of_nodup_map t.ascending.nodup (List.mem_of_find?_eq_some hs') hs
      (hname'.trans hname.symm)]

/-! ## Records -/

/-- Two declarations between which no change is found, under any policy. -/
def Unchanged (old new : Symbol) : Prop :=
  old.kind = new.kind ∧
    match old.kind with
    | .type | .func | .method => old.type.Unnoticed new.type
    | .const | .var => old.type.identical new.type = true

theorem changeOf_cases (policy : Policy) (name : String) (old new : Symbol) :
    (Unchanged old new ∧ changeOf policy name old new = none) ∨
    (¬ Unchanged old new ∧
      ∃ compatible reason, changeOf policy name old new = some (.changed name compatible reason)) := by
  unfold changeOf Unchanged
  by_cases hkind : old.kind = new.kind
  · rw [if_pos hkind]
    have hdelta := delta_eq_identical_iff policy old.type new.type
    have hvalue : valueDelta old.type new.type = .identical ↔ old.type.identical new.type = true := by
      unfold valueDelta
      split <;> simp_all
    simp only [hkind, true_and, ← hdelta, ← hvalue]
    cases new.kind
    case const | var => cases valueDelta old.type new.type <;> simp
    all_goals cases old.type.delta policy new.type <;> simp
  · rw [if_neg hkind]
    exact Or.inr ⟨fun h => hkind h.1, _, _, rfl⟩

theorem classifySymbol_symbol {policy : Policy} {name : String} {old? new? : Option Symbol} {c : Change}
    (h : classifySymbol policy name old? new? = some c) : c.symbol = name := by
  unfold classifySymbol at h
  split at h
  · cases h
  · cases h
    rfl
  · cases h
    rfl
  · next old new =>
    rcases changeOf_cases policy name old new with ⟨_, hnone⟩ | ⟨_, compatible, reason, hsome⟩
    · rw [hnone] at h
      cases h
    · rw [hsome] at h
      cases h
      rfl

theorem mem_classify {policy : Policy} {old new : SymbolTable} {c : Change} :
    c ∈ classify policy old new ↔
      classifySymbol policy c.symbol (old.get? c.symbol) (new.get? c.symbol) = some c := by
  unfold classify
  rw [List.mem_filterMap]
  constructor
  · rintro ⟨name, _, h⟩
    rwa [classifySymbol_symbol h]
  · intro h
    refine ⟨c.symbol, mem_ascending.2 (List.mem_append.2 ?_), h⟩
    cases hold : old.get? c.symbol with
    | some s =>
      obtain ⟨hs, hname⟩ := (old.get?_eq_some_iff _ _).1 hold
      exact Or.inl (List.mem_map.2 ⟨s, hs, hname⟩)
    | none =>
      cases hnew : new.get? c.symbol with
      | some s =>
        obtain ⟨hs, hname⟩ := (new.get?_eq_some_iff _ _).1 hnew
        exact Or.inr (List.mem_map.2 ⟨s, hs, hname⟩)
      | none =>
        rw [hold, hnew] at h
        cases h

theorem Ty.identical_self (t : Ty) : t.identical t = true := by
  unfold Ty.identical
  exact beq_self_eq_true _

/-- A declaration of the same type is no change. -/
theorem unchanged_of_type_eq {old new : Symbol} (hkind : old.kind = new.kind)
    (htype : old.type = new.type) : Unchanged old new := by
  refine ⟨hkind, ?_⟩
  have hid := new.type.identical_self
  rw [htype]
  cases old.kind
  case const | var => exact hid
  all_goals exact .identical hid

theorem classify_self (policy : Policy) (t : SymbolTable) : classify policy t t = [] := by
  rw [List.eq_nil_iff_forall_not_mem]
  intro c hc
  rw [mem_classify] at hc
  cases hs : t.get? c.symbol with
  | none =>
    rw [hs] at hc
    cases hc
  | some s =>
    rw [hs, classifySymbol] at hc
    rcases changeOf_cases policy c.symbol s s with ⟨_, hnone⟩ | ⟨hchanged, _⟩
    · rw [hnone] at hc
      cases hc
    · exact hchanged (unchanged_of_type_eq rfl rfl)

/-! ## What has to be recorded -/

/-- The names of the records are strictly ascending, so no name has two of them. -/
theorem pairwise_classify (policy : Policy) (old new : SymbolTable) :
    (classify policy old new).Pairwise (·.symbol < ·.symbol) := by
  unfold classify
  rw [List.pairwise_filterMap]
  refine (pairwise_ascending _).imp ?_
  intro name name' hlt c hc c' hc'
  rwa [classifySymbol_symbol hc, classifySymbol_symbol hc']

theorem SymbolTable.get?_eq_none_iff (t : SymbolTable) (name : String) :
    t.get? name = none ↔ name ∉ t.names := by
  simp [SymbolTable.get?, SymbolTable.names]

/-- A value has one type for all its uses, and any other type breaks some. -/
def DeclKind.IsValue (kind : DeclKind) : Prop := kind = .const ∨ kind = .var

/-- The record of a name that has changed from one table to another. -/
inductive Recorded (policy : Policy) (old new : SymbolTable) : Change → Prop
  /-- Only the old table has the name. -/
  | removed {s : Symbol} (hs : s ∈ old.symbols) (hgone : s.name ∉ new.names) :
    Recorded policy old new (.removed s.name)
  /-- Only the new table has the name. -/
  | added {t : Symbol} (ht : t ∈ new.symbols) (hfresh : t.name ∉ old.names) :
    Recorded policy old new (.added t.name)
  /-- The name is declared as something else. -/
  | otherKind {s t : Symbol} (hs : s ∈ old.symbols) (ht : t ∈ new.symbols) (hname : t.name = s.name)
    (hkind : t.kind ≠ s.kind) :
    Recorded policy old new (.changed s.name false (changedText s.kind.word t.kind.word))
  /-- A value has another type. -/
  | otherValue {s t : Symbol} (hs : s ∈ old.symbols) (ht : t ∈ new.symbols) (hname : t.name = s.name)
    (hkind : t.kind = s.kind) (hvalue : s.kind.IsValue) (htype : s.type.identical t.type = false) :
    Recorded policy old new (.changed s.name false (changedText s.type.display t.type.display))
  /-- A type, function or method is declared otherwise, and callers do not notice. -/
  | widened {s t : Symbol} {reason : String} (hs : s ∈ old.symbols) (ht : t ∈ new.symbols)
    (hname : t.name = s.name) (hkind : t.kind = s.kind) (hvalue : ¬ s.kind.IsValue)
    (hdelta : s.type.delta policy t.type = .compatible reason) :
    Recorded policy old new (.changed s.name true reason)
  /-- A type, function or method is declared otherwise, and callers break. -/
  | broken {s t : Symbol} {reason : String} (hs : s ∈ old.symbols) (ht : t ∈ new.symbols)
    (hname : t.name = s.name) (hkind : t.kind = s.kind) (hvalue : ¬ s.kind.IsValue)
    (hdelta : s.type.delta policy t.type = .incompatible reason) :
    Recorded policy old new (.changed s.name false reason)

theorem changeOf_otherKind (policy : Policy) (name : String) {s t : Symbol} (hkind : t.kind ≠ s.kind) :
    changeOf policy name s t = some (.changed name false (changedText s.kind.word t.kind.word)) := by
  unfold changeOf
  rw [if_neg (Ne.symm hkind)]

theorem changeOf_value (policy : Policy) (name : String) {s t : Symbol} (hkind : t.kind = s.kind)
    (hvalue : s.kind.IsValue) :
    changeOf policy name s t =
      if s.type.identical t.type then none
      else some (.changed name false (changedText s.type.display t.type.display)) := by
  unfold changeOf valueDelta
  rw [if_pos hkind.symm]
  rcases hvalue with hconst | hvar
  · rw [hconst]
    cases s.type.identical t.type <;> rfl
  · rw [hvar]
    cases s.type.identical t.type <;> rfl

theorem changeOf_declaration (policy : Policy) (name : String) {s t : Symbol} (hkind : t.kind = s.kind)
    (hvalue : ¬ s.kind.IsValue) :
    changeOf policy name s t =
      match s.type.delta policy t.type with
      | .identical => none
      | .compatible reason => some (.changed name true reason)
      | .incompatible reason => some (.changed name false reason) := by
  unfold changeOf
  rw [if_pos hkind.symm]
  cases hs : s.kind with
  | const => exact absurd (Or.inl hs) hvalue
  | var => exact absurd (Or.inr hs) hvalue
  | type | func | method => rfl

/-- A record about a name of both tables has one of four causes. -/
theorem recorded_of_changeOf {policy : Policy} {old new : SymbolTable} {s t : Symbol} {c : Change}
    (hs : s ∈ old.symbols) (ht : t ∈ new.symbols) (hname : t.name = s.name)
    (h : changeOf policy s.name s t = some c) : Recorded policy old new c := by
  by_cases hkind : t.kind = s.kind
  · by_cases hvalue : s.kind.IsValue
    · rw [changeOf_value policy _ hkind hvalue] at h
      cases htype : s.type.identical t.type with
      | true =>
        rw [htype] at h
        cases h
      | false =>
        rw [htype] at h
        cases h
        exact .otherValue hs ht hname hkind hvalue htype
    · rw [changeOf_declaration policy _ hkind hvalue] at h
      cases hdelta : s.type.delta policy t.type with
      | identical =>
        rw [hdelta] at h
        cases h
      | compatible reason =>
        rw [hdelta] at h
        cases h
        exact .widened hs ht hname hkind hvalue hdelta
      | incompatible reason =>
        rw [hdelta] at h
        cases h
        exact .broken hs ht hname hkind hvalue hdelta
  · rw [changeOf_otherKind policy _ hkind] at h
    cases h
    exact .otherKind hs ht hname hkind

/-- What is found is what has to be recorded. -/
theorem mem_classify_iff_recorded {policy : Policy} {old new : SymbolTable} {c : Change} :
    c ∈ classify policy old new ↔ Recorded policy old new c := by
  rw [mem_classify]
  constructor
  · intro h
    cases hold : old.get? c.symbol with
    | none =>
      cases hnew : new.get? c.symbol with
      | none =>
        rw [hold, hnew] at h
        cases h
      | some t =>
        obtain ⟨ht, hname⟩ := (new.get?_eq_some_iff _ _).1 hnew
        rw [hold, hnew, classifySymbol, ← hname, Option.some.injEq] at h
        rw [← h]
        exact .added ht (by rwa [hname, ← old.get?_eq_none_iff])
    | some s =>
      obtain ⟨hs, hname⟩ := (old.get?_eq_some_iff _ _).1 hold
      cases hnew : new.get? c.symbol with
      | none =>
        rw [hold, hnew, classifySymbol, ← hname, Option.some.injEq] at h
        rw [← h]
        exact .removed hs (by rwa [hname, ← new.get?_eq_none_iff])
      | some t =>
        obtain ⟨ht, hname'⟩ := (new.get?_eq_some_iff _ _).1 hnew
        rw [hold, hnew, classifySymbol, ← hname] at h
        exact recorded_of_changeOf hs ht (hname'.trans hname.symm) h
  · have hboth : ∀ {s t : Symbol}, s ∈ old.symbols → t ∈ new.symbols → t.name = s.name →
        classifySymbol policy s.name (old.get? s.name) (new.get? s.name) = changeOf policy s.name s t := by
      intro s t hs ht hname
      rw [(old.get?_eq_some_iff _ s).2 ⟨hs, rfl⟩, (new.get?_eq_some_iff _ t).2 ⟨ht, hname⟩]
      rfl
    intro h
    cases h with
    | @removed s hs hgone =>
      rw [Change.removed, (old.get?_eq_some_iff _ s).2 ⟨hs, rfl⟩, (new.get?_eq_none_iff _).2 hgone]
      rfl
    | @added t ht hfresh =>
      rw [Change.added, (old.get?_eq_none_iff _).2 hfresh, (new.get?_eq_some_iff _ t).2 ⟨ht, rfl⟩]
      rfl
    | otherKind hs ht hname hkind =>
      exact (hboth hs ht hname).trans (changeOf_otherKind policy _ hkind)
    | otherValue hs ht hname hkind hvalue htype =>
      refine (hboth hs ht hname).trans ?_
      rw [changeOf_value policy _ hkind hvalue, htype]
      rfl
    | widened hs ht hname hkind hvalue hdelta | broken hs ht hname hkind hvalue hdelta =>
      refine (hboth hs ht hname).trans ?_
      rw [changeOf_declaration policy _ hkind hvalue, hdelta]

/-- A classification is the list of what has to be recorded, in strictly ascending order of names.  So a
table has no change to itself, and where no record breaks callers every symbol is found again, declared
as the same kind of thing. -/
theorem classification_exact (policy : Policy) (old new : SymbolTable) :
    (classify policy old new).Pairwise (·.symbol < ·.symbol) ∧
    (∀ c, c ∈ classify policy old new ↔ Recorded policy old new c) ∧
    classify policy old old = [] ∧
    ((∀ c ∈ classify policy old new, c.isBreaking = false) →
      ∀ s ∈ old.symbols, ∃ t ∈ new.symbols, t.name = s.name ∧ t.kind = s.kind) := by
  refine ⟨pairwise_classify policy old new, fun c => mem_classify_iff_recorded, classify_self policy old, ?_⟩
  intro hnone s hs
  have hkept : s.name ∈ new.names := by
    by_contra hgone
    exact Bool.noConfusion (hnone _ (mem_classify_iff_recorded.2 (.removed hs hgone)))
  obtain ⟨t, ht, hname⟩ := List.mem_map.1 hkept
  refine ⟨t, ht, hname, ?_⟩
  by_contra hkind
  exact Bool.noConfusion (hnone _ (mem_classify_iff_recorded.2 (.otherKind hs ht hname hkind)))

/-- A struct type of integers. -/
def boxSymbol (fields : List String) : Symbol :=
  { name := "Box", kind := .type
    type := .defined "Box" [] false (.struct (fields.map (⟨·, .basic "int", false, true⟩))) }

/-- A table with one type. -/
def boxTable : SymbolTable :=
  { package := "./box", symbols := [boxSymbol ["X"]], ascending := by simp }

/-- The type has one more field, and there is a constant. -/
def widerBoxTable : SymbolTable :=
  { package := "./box"
    symbols := [boxSymbol ["X", "Y"], { name := "Size", kind := .const, type := .basic "int" }]
    ascending := by decide }

/-- Two records in order, none of which breaks callers. -/
theorem classification_exact_widened :
    classify {} boxTable widerBoxTable = [.changed "Box" true "field Y added", .added "Size"] ∧
    (∀ c ∈ classify {} boxTable widerBoxTable, c.isBreaking = false) ∧
    ∃ t ∈ widerBoxTable.symbols, t.name = "Box" ∧ t.kind = .type := by
  have hrecords : classify {} boxTable widerBoxTable =
      [.changed "Box" true "field Y added", .added "Size"] := by decide +kernel
  have hnone : ∀ c ∈ classify {} boxTable widerBoxTable, c.isBreaking = false := by
    rw [hrecords]
    decide
  obtain ⟨_, _, _, hkept⟩ := classification_exact {} boxTable widerBoxTable
  exact ⟨hrecords, hnone, hkept hnone (boxSymbol ["X"]) (List.mem_singleton_self _)⟩

end GoApi
