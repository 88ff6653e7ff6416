/-!
# Sorting by a text key

`sortBy key` is the stable sort by a string key: strings are ordered by code point, and entries of
equal key keep their order.  `ascending` is the set of a list of strings, as the strictly ascending
list of its members.
-/

namespace GoApi

/-- Insert before the first entry whose key is not smaller. -/
def insertBy {α : Type} (key : α → String) (x : α) : List α → List α
  | [] => [x]
  | y :: ys => if key y < key x then y :: insertBy key x ys else x :: y :: ys

/-- The stable sort by a key. -/
def sortBy {α : Type} (key : α → String) (xs : List α) : List α :=
  xs.foldr (insertBy key) []

/-- Insert into a strictly ascending list, unless the string is there. -/
def insertAscending (x : String) : List String → List String
  | [] => [x]
  | y :: ys =>
    if y < x then y :: insertAscending x ys else if y = x then y :: ys else x :: y :: ys

/-- The members of a list, strictly ascending. -/
def ascending (xs : List String) : List String :=
  xs.foldr insertAscending []

end GoApi
