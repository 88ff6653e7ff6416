/-!
# Reading off the front of a list

A `Reading` takes something off the front of a list of characters or tokens, or fails and leaves the
list as it was; `p <|> q` tries `q` on the same list.
-/

namespace GoApi.Text

/-- Reading off the front of a list of `τ`. -/
abbrev Reading (τ α : Type) := StateT (List τ) Option α

namespace Reading

variable {τ α : Type}

/-- The next element, which stays. -/
def peek : Reading τ (Option τ) := fun ts => some (ts.head?, ts)

/-- Take the next element if it passes a test. -/
def take (p : τ → Bool) : Reading τ τ := fun ts =>
  match ts with
  | t :: rest => if p t then some (t, rest) else none
  | [] => none

/-- Fail unless the next element passes a test; it stays. -/
def check (p : τ → Bool) : Reading τ Unit := fun ts =>
  match ts with
  | t :: rest => if p t then some ((), t :: rest) else none
  | [] => none

/-- Read something or nothing. -/
def maybe (p : Reading τ α) : Reading τ (Option α) := fun ts =>
  match p ts with
  | some (x, rest) => some (some x, rest)
  | none => some (none, ts)

/-- Whether something can be read; it is taken if so. -/
def took (p : Reading τ α) : Reading τ Bool := do
  return (← maybe p).isSome

/-- Read as often as possible, at most `fuel` times. -/
def manyUpTo (p : Reading τ α) : Nat → Reading τ (List α)
  | 0 => pure []
  | fuel + 1 => do
    match ← maybe p with
    | none => return []
    | some x => return x :: (← manyUpTo p fuel)

/-- Read as often as possible, at most once per element. -/
def many (p : Reading τ α) : Reading τ (List α) := fun ts => manyUpTo p ts.length ts

/-- One or more with a separator between them. -/
def separated (separator : Reading τ Unit) (p : Reading τ α) : Reading τ (List α) := do
  let first ← p
  let rest ← many (do separator; p)
  return first :: rest

/-- Fail unless everything is taken. -/
def finish : Reading τ Unit := fun ts => if ts.isEmpty then some ((), []) else none

/-- What a reading makes of a whole list. -/
def all? (p : Reading τ α) (ts : List τ) : Option α :=
  ((do let x ← p; finish; return x : Reading τ α).run ts).map (·.1)

end Reading

end GoApi.Text
