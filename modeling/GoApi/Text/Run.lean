/-!
# Runs of code points

A character property is stored as a list of runs: every `step`-th code point from `first` to
`last`.
-/

namespace GoApi.Text

/-- The code points `first`, `first + step`, …, `last`. -/
structure Run where
  first : Nat
  last : Nat
  step : Nat

def Run.has (r : Run) (n : Nat) : Bool :=
  decide (r.first ≤ n) && decide (n ≤ r.last) && (n - r.first) % r.step == 0

def Run.anyHas (rs : List Run) (n : Nat) : Bool :=
  rs.any (·.has n)

end GoApi.Text
