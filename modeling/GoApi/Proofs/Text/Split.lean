import GoApi.Proofs.Text.Unique
import GoApi.Text.Split
import Mathlib.Data.List.Infix

/-!
# Texts cut at a separator

A separator cuts a text in two that are cut on their own,

    splitOn sep (x ++ sep :: y) = splitOn sep x ++ splitOn sep y      (splitOn_append_sep)

so cutting what was joined gives the pieces back.  What stands inside a text and has no separator stands
inside one of the pieces (`infix_iff_exists_piece`).
-/

namespace GoApi.Text

section Split

variable (sep : Char)

theorem splitOn_ne_nil (cs : List Char) : splitOn sep cs ≠ [] := by
  cases cs with
  | nil => simp [splitOn]
  | cons c cs =>
    unfold splitOn
    split
    · simp
    · split <;> simp

theorem splitOn_sep_cons (cs : List Char) : splitOn sep (sep :: cs) = [] :: splitOn sep cs := by
  rw [splitOn]
  split
  · next h => exact absurd h (splitOn_ne_nil sep cs)
  · next h => rw [if_pos rfl, h]

/-- A character that is no separator goes to the first piece. -/
theorem splitOn_cons_of_ne {c : Char} (hc : c ≠ sep) {cs piece : List Char} {rest : List (List Char)}
    (h : splitOn sep cs = piece :: rest) : splitOn sep (c :: cs) = (c :: piece) :: rest := by
  rw [splitOn, h]
  simp only [if_neg hc]

theorem splitOn_append_sep (x y : List Char) : splitOn sep (x ++ sep :: y) = splitOn sep x ++ splitOn sep y := by
  induction x with
  | nil => exact splitOn_sep_cons sep y
  | cons c x ih =>
    by_cases hc : c = sep
    · subst hc
      rw [List.cons_append, splitOn_sep_cons, splitOn_sep_cons, ih, List.cons_append]
    · obtain ⟨piece, rest, hx⟩ := List.exists_cons_of_ne_nil (splitOn_ne_nil sep x)
      rw [hx, List.cons_append] at ih
      rw [List.cons_append, splitOn_cons_of_ne sep hc ih, splitOn_cons_of_ne sep hc hx, List.cons_append]

theorem splitOn_of_notMem {piece : List Char} (h : sep ∉ piece) : splitOn sep piece = [piece] := by
  induction piece with
  | nil => rfl
  | cons c piece ih =>
    rw [List.mem_cons, not_or] at h
    exact splitOn_cons_of_ne sep (Ne.symm h.1) (ih h.2)

/-- The first piece ends at the first separator. -/
theorem splitOn_append {piece : List Char} (h : sep ∉ piece) (cs : List Char) :
    splitOn sep (piece ++ sep :: cs) = piece :: splitOn sep cs := by
  rw [splitOn_append_sep, splitOn_of_notMem sep h, List.singleton_append]

theorem splitOn_concat_sep (cs : List Char) : splitOn sep (cs ++ [sep]) = splitOn sep cs ++ [[]] :=
  splitOn_append_sep sep cs []

theorem joinText_cons_left (c : Char) (p : List Char) (ps : List (List Char)) :
    joinText [sep] ((c :: p) :: ps) = c :: joinText [sep] (p :: ps) := rfl

theorem splitOn_joinText {ps : List (List Char)} (hne : ps ≠ []) (h : ∀ p ∈ ps, sep ∉ p) :
    splitOn sep (joinText [sep] ps) = ps := by
  induction ps with
  | nil => exact absurd rfl hne
  | cons p ps ih =>
    obtain ⟨hp, hps⟩ := List.forall_mem_cons.1 h
    cases ps with
    | nil => simpa [joinText] using splitOn_of_notMem sep hp
    | cons q ps => rw [joinText_cons_cons, List.singleton_append, splitOn_append sep hp, ih (List.cons_ne_nil _ _) hps]

theorem joinText_splitOn (cs : List Char) : joinText [sep] (splitOn sep cs) = cs := by
  induction cs with
  | nil => rfl
  | cons c cs ih =>
    obtain ⟨piece, rest, hcs⟩ := List.exists_cons_of_ne_nil (splitOn_ne_nil sep cs)
    by_cases hc : c = sep
    · subst hc
      rw [splitOn_sep_cons, hcs, joinText_cons_cons, ← hcs, ih, List.nil_append, List.singleton_append]
    · rw [splitOn_cons_of_ne sep hc hcs, joinText_cons_left, ← hcs, ih]

/-- A text that is not cut once only starts with its first piece and a separator. -/
theorem exists_of_splitOn_cons {cs piece next : List Char} {rest : List (List Char)}
    (h : splitOn sep cs = piece :: next :: rest) :
    sep ∉ piece ∧ ∃ more, cs = piece ++ sep :: more ∧ splitOn sep more = next :: rest := by
  induction cs generalizing piece with
  | nil => simp [splitOn] at h
  | cons c cs ih =>
    by_cases hc : c = sep
    · subst hc
      rw [splitOn_sep_cons, List.cons.injEq] at h
      obtain ⟨rfl, hcs⟩ := h
      exact ⟨List.not_mem_nil, cs, rfl, hcs⟩
    · obtain ⟨first, tail, hcs⟩ := List.exists_cons_of_ne_nil (splitOn_ne_nil sep cs)
      rw [splitOn_cons_of_ne sep hc hcs, List.cons.injEq] at h
      obtain ⟨rfl, rfl⟩ := h
      obtain ⟨hfirst, more, rfl, hmore⟩ := ih hcs
      exact ⟨by simp [hfirst, Ne.symm hc], more, rfl, hmore⟩

/-- The text up to a piece that is not the last one is empty or ends with a separator. -/
theorem exists_of_splitOn_append {cs piece next : List Char} {before rest : List (List Char)}
    (h : splitOn sep cs = before ++ piece :: next :: rest) :
    ∃ pre more, cs = pre ++ (piece ++ sep :: more) ∧ (pre = [] ∨ ∃ q, pre = q ++ [sep]) ∧
      splitOn sep more = next :: rest := by
  induction before generalizing cs with
  | nil =>
    obtain ⟨-, more, hcs, hmore⟩ := exists_of_splitOn_cons sep h
    exact ⟨[], more, hcs, Or.inl rfl, hmore⟩
  | cons first before ih =>
    obtain ⟨second, tail, htail⟩ :=
      List.exists_cons_of_ne_nil (List.append_ne_nil_of_right_ne_nil before (List.cons_ne_nil piece _))
    rw [List.cons_append, htail] at h
    obtain ⟨-, more, rfl, hmore⟩ := exists_of_splitOn_cons sep h
    obtain ⟨pre, more', rfl, hpre, hmore'⟩ := ih (hmore.trans htail.symm)
    refine ⟨first ++ sep :: pre, more', by simp, Or.inr ?_, hmore'⟩
    rcases hpre with rfl | ⟨q, rfl⟩
    · exact ⟨first, rfl⟩
    · exact ⟨first ++ sep :: q, by simp⟩

/-- What is put behind a text without a separator of its own belongs to the last piece. -/
theorem exists_lastPiece (cs : List Char) :
    ∃ init last, last <:+ cs ∧ sep ∉ last ∧
      ∀ more, sep ∉ more → splitOn sep (cs ++ more) = init ++ [last ++ more] := by
  by_cases h : sep ∈ cs
  · obtain ⟨back, front, hcut, hback⟩ := List.eq_append_cons_of_mem (List.mem_reverse.2 h)
    have hcs : cs = front.reverse ++ sep :: back.reverse := by
      rw [← List.reverse_reverse cs, hcut]
      simp
    have hlast : sep ∉ back.reverse := by simpa using hback
    refine ⟨splitOn sep front.reverse, back.reverse, ⟨front.reverse ++ [sep], by simp [hcs]⟩, hlast, ?_⟩
    intro more hmore
    have hpiece : sep ∉ back.reverse ++ more := by simp [hmore, hback]
    rw [hcs, List.append_assoc, List.cons_append, splitOn_append_sep, splitOn_of_notMem sep hpiece]
  · refine ⟨[], cs, List.suffix_refl cs, h, ?_⟩
    intro more hmore
    exact splitOn_of_notMem sep (by simp [h, hmore])

theorem notMem_of_mem_splitOn {cs piece : List Char} (h : piece ∈ splitOn sep cs) : sep ∉ piece := by
  induction cs generalizing piece with
  | nil =>
    rw [splitOn, List.mem_singleton] at h
    simp [h]
  | cons c cs ih =>
    by_cases hc : c = sep
    · subst hc
      rw [splitOn_sep_cons] at h
      rcases List.mem_cons.1 h with rfl | h
      · exact List.not_mem_nil
      · exact ih h
    · obtain ⟨first, rest, hcs⟩ := List.exists_cons_of_ne_nil (splitOn_ne_nil sep cs)
      rw [hcs] at ih
      rw [splitOn_cons_of_ne sep hc hcs] at h
      rcases List.mem_cons.1 h with rfl | h
      · simp [Ne.symm hc, ih (List.mem_cons_self ..)]
      · exact ih (List.mem_cons_of_mem _ h)

/-! ## What stands inside a text -/

theorem holds_eq_true_iff (part text : List Char) : holds part text = true ↔ part <:+: text := by
  induction text with
  | nil => simp [holds]
  | cons c cs ih => rw [holds, Bool.or_eq_true, ih, List.isPrefixOf_iff_prefix, List.infix_cons_iff]

/-- A separator parts what has none. -/
theorem infix_append_sep_iff {part : List Char} (hpart : sep ∉ part) (x y : List Char) :
    part <:+: x ++ sep :: y ↔ part <:+: x ∨ part <:+: y := by
  constructor
  · rintro ⟨s, t, h⟩
    rcases List.append_eq_append_iff.1 h with ⟨a, rfl, -⟩ | ⟨c, hc, hy⟩
    · exact Or.inl ⟨s, a, rfl⟩
    cases c with
    | nil => exact Or.inl ⟨s, [], by simpa using hc⟩
    | cons d c =>
      rw [List.cons_append, List.cons.injEq] at hy
      obtain ⟨rfl, rfl⟩ := hy
      -- the separator ends after `part` starts only if it is in front of it
      rcases List.append_eq_append_iff.1 hc with ⟨a, -, hpart'⟩ | ⟨a, -, hpart'⟩
      · exact absurd (by simp [hpart']) hpart
      · cases a with
        | nil =>
          rw [List.nil_append] at hpart'
          exact absurd (hpart' ▸ List.mem_cons_self ..) hpart
        | cons d a =>
          rw [List.cons_append, List.cons.injEq] at hpart'
          exact Or.inr ⟨a, t, by rw [hpart'.2]⟩
  · rintro (h | h)
    · exact h.trans (List.prefix_append x _).isInfix
    · exact h.trans ((List.suffix_cons sep y).trans (List.suffix_append x _)).isInfix

/-- What has no separator stands inside a text exactly if it stands inside a piece of it. -/
theorem infix_iff_exists_piece {part : List Char} (hpart : sep ∉ part) (text : List Char) :
    part <:+: text ↔ ∃ piece ∈ splitOn sep text, part <:+: piece := by
  have hjoined : ∀ ps : List (List Char), ps ≠ [] →
      (part <:+: joinText [sep] ps ↔ ∃ piece ∈ ps, part <:+: piece) := by
    intro ps hne
    induction ps with
    | nil => exact absurd rfl hne
    | cons p ps ih =>
      cases ps with
      | nil => simp [joinText]
      | cons q ps =>
        rw [joinText_cons_cons, List.singleton_append, infix_append_sep_iff sep hpart, ih (List.cons_ne_nil q ps),
          List.exists_mem_cons_iff _ p]
  rw [← hjoined _ (splitOn_ne_nil sep text), joinText_splitOn]

end Split

/-- Cutting what was joined gives the parts back. -/
theorem pieces_join {ps : List String} (hne : ps ≠ []) (h : ∀ p ∈ ps, '/' ∉ p.toList) :
    pieces '/' (join "/" ps) = ps := by
  have hjoin : (join "/" ps).toList = joinText ['/'] (ps.map String.toList) := toList_join "/" ps
  have hcut : splitOn '/' (joinText ['/'] (ps.map String.toList)) = ps.map String.toList :=
    splitOn_joinText '/' (by simpa using hne) (by simpa using h)
  rw [pieces, hjoin, hcut, List.map_map]
  simp [Function.comp_def]

theorem mem_join {c : Char} {sep : String} {ps : List String} (h : c ∈ (join sep ps).toList) :
    c ∈ sep.toList ∨ ∃ p ∈ ps, c ∈ p.toList := by
  rw [toList_join] at h
  rcases mem_joinText h with h | ⟨t, ht, hc⟩
  · exact Or.inl h
  · obtain ⟨p, hp, rfl⟩ := List.mem_map.1 ht
    exact Or.inr ⟨p, hp, hc⟩

end GoApi.Text
