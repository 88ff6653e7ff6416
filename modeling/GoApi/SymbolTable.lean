import GoApi.Symbol

/-!
# Symbol tables

A `SymbolTable` is the exported surface of one package at one revision: its visible symbols, in
strictly ascending order of their names.  `SymbolTable.insert` keeps out what is not visible and
refuses a second symbol of one name.
-/

namespace GoApi

/-- Put a symbol before the first one whose name is greater; none has its name. -/
def insertByName (s : Symbol) : List Symbol → List Symbol
  | [] => [s]
  | t :: ts => if t.name < s.name then t :: insertByName s ts else s :: t :: ts

theorem mem_insertByName {s t : Symbol} {ts : List Symbol} :
    t ∈ insertByName s ts ↔ t = s ∨ t ∈ ts := by
  induction ts with
  | nil => simp [insertByName]
  | cons u us ih =>
    unfold insertByName
    split
    · simp only [List.mem_cons, ih]
      constructor
      · rintro (h | h | h) <;> simp [h]
      · rintro (h | h | h) <;> simp [h]
    · simp

/-- Names are strictly ascending. -/
abbrev Ascending (symbols : List Symbol) : Prop :=
  symbols.Pairwise (fun a b => a.name < b.name)

theorem Ascending.insertByName {s : Symbol} {ts : List Symbol} (h : Ascending ts)
    (fresh : ∀ t ∈ ts, t.name ≠ s.name) : Ascending (GoApi.insertByName s ts) := by
  induction ts with
  | nil => simp [GoApi.insertByName]
  | cons u us ih =>
    obtain ⟨hu, hus⟩ := List.pairwise_cons.1 h
    unfold GoApi.insertByName
    split
    · rename_i lt
      refine List.pairwise_cons.2 ⟨fun t ht => ?_, ih hus fun t ht => fresh t (by simp [ht])⟩
      rcases mem_insertByName.1 ht with rfl | ht
      · exact lt
      · exact hu t ht
    · rename_i le
      have lt : s.name < u.name := by
        have ne := fresh u (by simp)
        rcases Std.lt_trichotomy s.name u.name with h | h | h
        · exact h
        · exact absurd h.symm ne
        · exact absurd h le
      refine List.pairwise_cons.2 ⟨fun t ht => ?_, h⟩
      rcases List.mem_cons.1 ht with rfl | ht
      · exact lt
      · exact String.lt_trans lt (hu t ht)

/-- The exported symbols of one package. -/
structure SymbolTable where
  package : String
  symbols : List Symbol := []
  ascending : Ascending symbols := by exact List.Pairwise.nil

namespace SymbolTable

def get? (t : SymbolTable) (name : String) : Option Symbol :=
  t.symbols.find? (·.name == name)

def contains (t : SymbolTable) (name : String) : Bool :=
  t.symbols.any (·.name == name)

def names (t : SymbolTable) : List String :=
  t.symbols.map (·.name)

def size (t : SymbolTable) : Nat :=
  t.symbols.length

/-- What became of a symbol that was offered to a table. -/
inductive Insertion where
  /-- It is not visible and was left out. -/
  | hidden
  /-- A symbol of its name is there already. -/
  | duplicate
  /-- It is in the table now. -/
  | inserted
  deriving DecidableEq, Repr

/-- Offer a symbol to the table.  Only `inserted` changes it. -/
def insert (t : SymbolTable) (s : Symbol) : Insertion × SymbolTable :=
  if s.visible then
    if h : t.contains s.name then (.duplicate, t)
    else
      (.inserted,
        { t with
          symbols := insertByName s t.symbols
          ascending := t.ascending.insertByName fun u hu e =>
            h (List.any_eq_true.2 ⟨u, hu, by simp [e]⟩) })
  else (.hidden, t)

/-- The same exported key twice in one package. -/
structure Duplicate where
  package : String
  name : String
  deriving DecidableEq, Repr

def Duplicate.message (d : Duplicate) : String :=
  "Duplicate symbol " ++ d.name ++ " in package " ++ d.package

/-- Offer symbols one after the other; the first duplicate stops. -/
def insertAll (t : SymbolTable) : List Symbol → Except Duplicate SymbolTable
  | [] => .ok t
  | s :: ss =>
    match t.insert s with
    | (.duplicate, _) => .error ⟨t.package, s.name⟩
    | (_, t') => t'.insertAll ss

def ofSymbols (package : String) (symbols : List Symbol) : Except Duplicate SymbolTable :=
  insertAll { package } symbols

end SymbolTable

end GoApi
