/-!
# Compatibility policy

Two questions about callers that the types alone do not answer.
-/

namespace GoApi

/-- How callers write struct literals. -/
inductive FieldOrder where
  /-- By field name: reordering fields is compatible. -/
  | keyed
  /-- By position: reordering fields breaks. -/
  | positional
  deriving DecidableEq, Repr, Inhabited

/-- How callers relate to exported interfaces. -/
inductive InterfaceAdditions where
  /-- They only call methods: adding one is compatible. -/
  | consumed
  /-- They implement the interface: adding a method breaks them. -/
  | implemented
  deriving DecidableEq, Repr, Inhabited

/-- What counts as compatible. -/
structure Policy where
  fieldOrder : FieldOrder := .keyed
  interfaceAdditions : InterfaceAdditions := .consumed
  deriving DecidableEq, Repr, Inhabited

def FieldOrder.word : FieldOrder → String
  | .keyed => "keyed"
  | .positional => "positional"

def FieldOrder.ofWord? (word : String) : Option FieldOrder :=
  [FieldOrder.keyed, .positional].find? (·.word == word)

def InterfaceAdditions.word : InterfaceAdditions → String
  | .consumed => "consumed"
  | .implemented => "implemented"

def InterfaceAdditions.ofWord? (word : String) : Option InterfaceAdditions :=
  [InterfaceAdditions.consumed, .implemented].find? (·.word == word)

end GoApi
