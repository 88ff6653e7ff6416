import GoApi.Surface.Resolve
import Mathlib.Data.List.Nodup

/-!
# Merging interfaces

Merging keeps the first method of each name.  The methods that merging adds do not depend on whether those
that come in were merged before,

    addMethods ms (addMethods ns more) = addMethods (addMethods ms ns) more       (addMethods_addMethods)

so a tree of merges keeps of all methods in it, from left to right, the first of each name.
-/

namespace GoApi.Surface

section Added

variable {α : Type} {present : List α → α → Bool}

/-- What is there after adding was there before or was added. -/
theorem mem_of_mem_added {xs ys : List α} {x : α}
    (h : x ∈ ys.foldl (fun xs y => if present xs y then xs else xs ++ [y]) xs) : x ∈ xs ∨ x ∈ ys := by
  induction ys generalizing xs with
  | nil => exact .inl h
  | cons y ys ih =>
    rw [List.foldl_cons] at h
    rcases ih h with hx | hx
    · split at hx
      · exact .inl hx
      · rcases List.mem_append.1 hx with hx | hx
        · exact .inl hx
        · exact .inr (by simp [List.mem_singleton.1 hx])
    · exact .inr (List.mem_cons_of_mem y hx)

end Added

theorem mem_embedded_merge {into more : Interface Ty} {t : Ty} (h : t ∈ (mergeInterface into more).embedded) :
    t ∈ into.embedded ∨ t ∈ more.embedded :=
  mem_of_mem_added h

/-- Methods followed by those of a further list whose names are new. -/
def addMethods (ms more : List (Method Ty)) : List (Method Ty) :=
  more.foldl (fun ms m => if ms.any (·.name == m.name) then ms else ms ++ [m]) ms

theorem methods_merge (into more : Interface Ty) :
    (mergeInterface into more).methods = addMethods into.methods more.methods := rfl

/-- A method is added unless one of its name is there already. -/
theorem addMethods_cons (ms : List (Method Ty)) (m : Method Ty) (more : List (Method Ty)) :
    addMethods ms (m :: more) =
      if m.name ∈ ms.map (·.name) then addMethods ms more else addMethods (ms ++ [m]) more := by
  have hany : ms.any (·.name == m.name) = true ↔ m.name ∈ ms.map (·.name) := by simp
  simp only [addMethods, List.foldl_cons, hany]
  split <;> rfl

theorem addMethods_append (ms more rest : List (Method Ty)) :
    addMethods ms (more ++ rest) = addMethods (addMethods ms more) rest :=
  List.foldl_append

theorem mem_of_mem_addMethods {ms more : List (Method Ty)} {m : Method Ty} (h : m ∈ addMethods ms more) :
    m ∈ ms ∨ m ∈ more :=
  mem_of_mem_added h

/-- No name is lost, though a method may be: the one that is kept has its name. -/
theorem mem_names_addMethods (ms more : List (Method Ty)) (name : String) :
    name ∈ (addMethods ms more).map (·.name) ↔ name ∈ ms.map (·.name) ∨ name ∈ more.map (·.name) := by
  induction more generalizing ms with
  | nil => simp [addMethods]
  | cons m more ih =>
    rw [addMethods_cons]
    split
    · next hm =>
      rw [ih, List.map_cons, List.mem_cons]
      constructor
      · rintro (h | h)
        · exact .inl h
        · exact .inr (.inr h)
      · rintro (h | rfl | h)
        · exact .inl h
        · exact .inl hm
        · exact .inr h
    · rw [ih]
      simp [or_assoc]

/-- Names that are distinct stay distinct, whatever the new methods are called. -/
theorem nodup_addMethods {ms : List (Method Ty)} (h : (ms.map (·.name)).Nodup) (more : List (Method Ty)) :
    ((addMethods ms more).map (·.name)).Nodup := by
  induction more generalizing ms with
  | nil => exact h
  | cons m more ih =>
    rw [addMethods_cons]
    split
    · exact ih h
    · next hm =>
      refine ih ?_
      rw [List.map_append, List.map_singleton, ← List.concat_eq_append]
      exact h.concat hm

/-- Adding is associative: methods may be gathered first and added after that. -/
theorem addMethods_addMethods (ms ns more : List (Method Ty)) :
    addMethods ms (addMethods ns more) = addMethods (addMethods ms ns) more := by
  induction more generalizing ns with
  | nil => rfl
  | cons m more ih =>
    rw [addMethods_cons, addMethods_cons]
    by_cases hm : m.name ∈ ns.map (·.name)
    · rw [if_pos hm, if_pos ((mem_names_addMethods ms ns m.name).2 (.inr hm)), ih]
    · rw [if_neg hm, ih, addMethods_append, addMethods_cons]
      split <;> rfl

/-- The first method of each name. -/
def firstOfEach (ms : List (Method Ty)) : List (Method Ty) := ms.eraseDupsBy fun a b => a.name == b.name

/-- Adding in closed form: of the new methods the first of each name, if that name is new. -/
theorem addMethods_eq (ms more : List (Method Ty)) :
    addMethods ms more = ms ++ firstOfEach (more.filter (·.name ∉ ms.map (·.name))) := by
  induction more generalizing ms with
  | nil => simp [addMethods, firstOfEach, List.eraseDupsBy, List.eraseDupsBy.loop]
  | cons m more ih =>
    rw [addMethods_cons]
    by_cases hm : m.name ∈ ms.map (·.name)
    · rw [if_pos hm, ih, List.filter_cons_of_neg (by simpa using hm)]
    · have hfilter : more.filter (·.name ∉ (ms ++ [m]).map (·.name)) =
          (more.filter (·.name ∉ ms.map (·.name))).filter fun b => decide ((b.name == m.name) = false) := by
        rw [List.filter_filter]
        refine List.filter_congr fun b _ => ?_
        rw [Bool.eq_iff_iff, decide_eq_true_eq, List.map_append, List.mem_append, not_or, Bool.and_eq_true]
        simp [and_comm]
      rw [if_neg hm, ih, List.filter_cons_of_pos (by simpa using hm), firstOfEach, firstOfEach,
        List.eraseDupsBy_cons, ← hfilter, List.append_assoc]
      rfl

/-- Adding methods to none keeps the first of each name. -/
theorem addMethods_nil (more : List (Method Ty)) : addMethods [] more = firstOfEach more := by
  rw [addMethods_eq]
  simp

theorem addMethods_firstOfEach (ms more : List (Method Ty)) :
    addMethods ms (firstOfEach more) = addMethods ms more := by
  rw [← addMethods_nil, addMethods_addMethods]
  rfl

end GoApi.Surface
