import GoApi.Order
import Mathlib.Data.List.Perm.Basic
import Mathlib.Data.List.Sort
import Mathlib.Order.Basic

/-!
# Sorting by a key

`sortBy` permutes its list, commutes with a map that keeps the keys, and gives one list for all
orders of entries that their keys tell apart.  `ascending` has the members of its list, each once and
in ascending order, so it is a function of the set of its members.
-/

namespace GoApi

section SortBy

variable {α β : Type}

theorem insertBy_perm (key : α → String) (x : α) (ys : List α) :
    (insertBy key x ys).Perm (x :: ys) := by
  induction ys with
  | nil => exact List.Perm.refl _
  | cons y ys ih =>
    unfold insertBy
    split
    · exact (ih.cons y).trans (List.Perm.swap x y ys)
    · exact List.Perm.refl _

/-- Sorting loses nothing and adds nothing. -/
theorem sortBy_perm (key : α → String) (xs : List α) : (sortBy key xs).Perm xs := by
  induction xs with
  | nil => exact List.Perm.refl _
  | cons x xs ih => exact (insertBy_perm key x _).trans (ih.cons x)

theorem mem_sortBy {key : α → String} {x : α} {xs : List α} : x ∈ sortBy key xs ↔ x ∈ xs :=
  (sortBy_perm key xs).mem_iff

/-- Sorting by a key commutes with any map that keeps the key. -/
theorem insertBy_map (key : α → String) (key' : β → String) (f : α → β)
    (hf : ∀ x, key' (f x) = key x) (x : α) (ys : List α) :
    insertBy key' (f x) (ys.map f) = (insertBy key x ys).map f := by
  induction ys with
  | nil => rfl
  | cons y ys ih =>
    simp only [List.map_cons, insertBy, hf]
    split
    · rw [List.map_cons, ih]
    · rfl

/-- Sorting the images is mapping the sorted list, if the map keeps the keys. -/
theorem sortBy_map (key : α → String) (key' : β → String) (f : α → β)
    (hf : ∀ x, key' (f x) = key x) (xs : List α) :
    sortBy key' (xs.map f) = (sortBy key xs).map f := by
  induction xs with
  | nil => rfl
  | cons x xs ih =>
    show insertBy key' (f x) (sortBy key' (xs.map f)) = (insertBy key x (sortBy key xs)).map f
    rw [ih, insertBy_map key key' f hf]

/-- No entry has a greater key than a later one. -/
abbrev SortedBy (key : α → String) (xs : List α) : Prop :=
  xs.Pairwise fun a b => ¬ key b < key a

theorem SortedBy.insertBy {key : α → String} {ys : List α} (h : SortedBy key ys) (x : α) :
    SortedBy key (GoApi.insertBy key x ys) := by
  induction ys with
  | nil => simp [GoApi.insertBy]
  | cons y ys ih =>
    obtain ⟨hy, hys⟩ := List.pairwise_cons.1 h
    unfold GoApi.insertBy
    split
    · next hlt =>
      refine List.pairwise_cons.2 ⟨fun z hz => ?_, ih hys⟩
      rcases List.mem_cons.1 ((insertBy_perm key x ys).mem_iff.1 hz) with rfl | hz
      · exact fun hgt => String.lt_irrefl _ (String.lt_trans hlt hgt)
      · exact hy z hz
    · next hge =>
      refine List.pairwise_cons.2 ⟨fun z hz => ?_, h⟩
      rcases List.mem_cons.1 hz with rfl | hz
      · exact hge
      · intro hlt
        -- `key z < key x ≤ key y`, against the order of `y` and `z`
        rcases Std.lt_trichotomy (key x) (key y) with hxy | hxy | hxy
        · exact hy z hz (String.lt_trans hlt hxy)
        · exact hy z hz (hxy ▸ hlt)
        · exact hge hxy

theorem sortedBy_sortBy (key : α → String) (xs : List α) : SortedBy key (sortBy key xs) := by
  induction xs with
  | nil => exact List.Pairwise.nil
  | cons x xs ih => exact ih.insertBy x

/-- Sorting forgets the order of entries that differ in their keys. -/
theorem sortBy_eq_of_perm (key : α → String) (xs ys : List α) (h : xs.Perm ys)
    (hkey : ∀ a ∈ xs, ∀ b ∈ xs, key a = key b → a = b) : sortBy key xs = sortBy key ys := by
  apply List.Perm.eq_of_pairwise _ (sortedBy_sortBy key xs) (sortedBy_sortBy key ys)
  · exact (sortBy_perm key xs).trans (h.trans (sortBy_perm key ys).symm)
  · intro a b ha hb hab hba
    apply hkey a (mem_sortBy.1 ha) b (h.mem_iff.2 (mem_sortBy.1 hb))
    rcases Std.lt_trichotomy (key a) (key b) with hlt | heq | hlt
    · exact absurd hlt hba
    · exact heq
    · exact absurd hlt hab

end SortBy

theorem mem_insertAscending {x y : String} {ys : List String} :
    x ∈ insertAscending y ys ↔ x = y ∨ x ∈ ys := by
  induction ys with
  | nil => simp [insertAscending]
  | cons z zs ih =>
    unfold insertAscending
    split
    · simp only [List.mem_cons, ih]
      constructor
      · rintro (h | h | h) <;> simp [h]
      · rintro (h | h | h) <;> simp [h]
    · split
      · next heq =>
        subst heq
        simp
      · simp

theorem mem_ascending {x : String} {xs : List String} : x ∈ ascending xs ↔ x ∈ xs := by
  induction xs with
  | nil => simp [ascending]
  | cons y ys ih =>
    show x ∈ insertAscending y (ascending ys) ↔ x ∈ y :: ys
    rw [mem_insertAscending, ih, List.mem_cons]

theorem pairwise_insertAscending {x : String} {ys : List String} (h : ys.Pairwise (· < ·)) :
    (insertAscending x ys).Pairwise (· < ·) := by
  induction ys with
  | nil => simp [insertAscending]
  | cons y ys ih =>
    obtain ⟨hy, hys⟩ := List.pairwise_cons.1 h
    unfold insertAscending
    split
    · next hlt =>
      refine List.pairwise_cons.2 ⟨fun z hz => ?_, ih hys⟩
      rcases mem_insertAscending.1 hz with rfl | hz
      · exact hlt
      · exact hy z hz
    · split
      · exact h
      · next hge hne =>
        have hlt : x < y := by
          rcases Std.lt_trichotomy x y with hxy | hxy | hxy
          · exact hxy
          · exact absurd hxy.symm hne
          · exact absurd hxy hge
        refine List.pairwise_cons.2 ⟨fun z hz => ?_, h⟩
        rcases List.mem_cons.1 hz with rfl | hz
        · exact hlt
        · exact String.lt_trans hlt (hy z hz)

/-- The result is strictly ascending, so a repeated text is kept once. -/
theorem pairwise_ascending (xs : List String) : (ascending xs).Pairwise (· < ·) := by
  induction xs with
  | nil => exact .nil
  | cons x xs ih => exact pairwise_insertAscending ih

/-- Lists in strictly ascending order of their keys are told by their members. -/
theorem eq_of_pairwise_lt {α : Type} (key : α → String) {xs ys : List α}
    (hx : xs.Pairwise (key · < key ·)) (hy : ys.Pairwise (key · < key ·))
    (h : ∀ a, a ∈ xs ↔ a ∈ ys) : xs = ys := by
  have : Std.Irrefl fun a b : α => key a < key b := ⟨fun a => String.lt_irrefl (key a)⟩
  have : Std.Antisymm fun a b : α => key a < key b :=
    ⟨fun a b hab hba => absurd hba (String.lt_asymm hab)⟩
  exact List.Pairwise.eq_of_mem_iff hx hy h

/-- Members that contribute nothing may be left out. -/
theorem filterMap_ascending_eq {β : Type} {f : String → Option β} {xs ys : List String} (hsub : xs ⊆ ys)
    (hnone : ∀ y ∈ ys, y ∉ xs → f y = none) :
    (ascending xs).filterMap f = (ascending ys).filterMap f := by
  have hfilter : ascending xs = (ascending ys).filter (· ∈ xs) := by
    refine eq_of_pairwise_lt id (pairwise_ascending xs) ((pairwise_ascending ys).filter _) ?_
    intro x
    rw [List.mem_filter, mem_ascending, mem_ascending, decide_eq_true_eq]
    exact ⟨fun hx => ⟨hsub hx, hx⟩, fun hx => hx.2⟩
  rw [hfilter, List.filterMap_filter]
  refine List.filterMap_congr fun y hy => ?_
  split
  · rfl
  · next hx => exact (hnone y (mem_ascending.1 hy) (by simpa using hx)).symm

end GoApi
