import GoApi.Proofs.Text.Unique
import GoApi.Text.Blank
import Mathlib.Data.List.Basic

/-!
# Blanks around texts and between words

`trim` takes blanks off both ends and nothing else (`exists_trim`), so it keeps a text that neither starts
nor ends with one; `words` takes off a word up to the next blank (`words_append`).
-/

namespace GoApi.Text

/-- The code points of the blanks. -/
def blankCodes : List Nat :=
  [9, 10, 11, 12, 13, 0x20, 0x85, 0xa0, 0x1680, 0x2000, 0x2001, 0x2002, 0x2003, 0x2004, 0x2005, 0x2006,
    0x2007, 0x2008, 0x2009, 0x200a, 0x2028, 0x2029, 0x202f, 0x205f, 0x3000]

theorem mem_blankCodes {c : Char} (h : isBlank c = true) : c.toNat ∈ blankCodes := by
  simp only [isBlank, Bool.or_eq_true, Bool.and_eq_true, decide_eq_true_eq, beq_iff_eq] at h
  simp only [blankCodes, List.mem_cons, List.not_mem_nil, or_false]
  omega

/-- A class of characters that has no blank code point has no blank. -/
theorem not_isBlank_of_class {p : Char → Bool} (hp : ∀ n ∈ blankCodes, p (Char.ofNat n) = false)
    {c : Char} (h : p c = true) : isBlank c = false := by
  rw [Bool.eq_false_iff]
  intro hblank
  have hfalse := hp c.toNat (mem_blankCodes hblank)
  rw [Char.ofNat_toNat, h] at hfalse
  cases hfalse

/-! ## Blanks at the ends -/

/-- A text that neither starts nor ends with a blank. -/
structure Tight (text : List Char) : Prop where
  start : EndsRun isBlank text
  finish : EndsRun isBlank text.reverse

theorem tight_of_notBlank {text : List Char} (h : ∀ c ∈ text, isBlank c = false) : Tight text :=
  ⟨fun c t ht => h c (by simp [ht]), fun c t ht => h c (by rw [← List.mem_reverse, ht]; simp)⟩

/-- Only the two ends matter: the middle may be blank. -/
theorem Tight.append {x y : List Char} (hx : Tight x) (hxne : x ≠ []) (hy : Tight y) (hyne : y ≠ [])
    (mid : List Char) : Tight (x ++ (mid ++ y)) := by
  refine ⟨endsRun_append_of_ne hx.start hxne _, ?_⟩
  rw [List.reverse_append, List.reverse_append, List.append_assoc]
  exact endsRun_append_of_ne hy.finish (by simpa using hyne) _

theorem tight_joinText (sep : List Char) {ps : List (List Char)} (hne : ps ≠ [])
    (h : ∀ p ∈ ps, p ≠ [] ∧ Tight p) : joinText sep ps ≠ [] ∧ Tight (joinText sep ps) := by
  induction ps with
  | nil => exact absurd rfl hne
  | cons p ps ih =>
    obtain ⟨⟨hpne, hp⟩, hps⟩ := List.forall_mem_cons.1 h
    cases ps with
    | nil => simpa [joinText] using ⟨hpne, hp⟩
    | cons q ps =>
      obtain ⟨hrestne, hrest⟩ := ih (List.cons_ne_nil q ps) hps
      rw [joinText_cons_cons]
      exact ⟨by simp [hpne], hp.append hpne hrest hrestne sep⟩

theorem trimLeft_append {blanks text : List Char} (hblanks : ∀ c ∈ blanks, isBlank c = true)
    (htext : EndsRun isBlank text) : trimLeft (blanks ++ text) = text :=
  dropWhile_run isBlank blanks text hblanks htext

theorem trimRight_cons {c : Char} (hc : isBlank c = false) (text : List Char) :
    trimRight (c :: text) = c :: trimRight text := by
  unfold trimRight
  rw [List.reverse_cons, List.dropWhile_append]
  split
  · next hempty =>
    rw [List.isEmpty_iff] at hempty
    simp [hempty, hc]
  · simp

theorem trimRight_of_finish {text : List Char} (h : EndsRun isBlank text.reverse) : trimRight text = text := by
  have hdrop : text.reverse.dropWhile isBlank = text.reverse := dropWhile_run isBlank [] text.reverse nofun h
  rw [trimRight, hdrop, List.reverse_reverse]

/-- The first character that is not blank is the first one left. -/
theorem trim_append_cons {blanks : List Char} (hblanks : ∀ c ∈ blanks, isBlank c = true) {c : Char}
    (hc : isBlank c = false) (text : List Char) : trim (blanks ++ c :: text) = c :: trimRight text := by
  rw [trim, trimLeft_append hblanks (endsRun_cons hc), trimRight_cons hc]

theorem Tight.trim_append {text : List Char} (h : Tight text) (blanks : List Char)
    (hblanks : ∀ c ∈ blanks, isBlank c = true) : trim (blanks ++ text) = text := by
  rw [trim, trimLeft_append hblanks h.start, trimRight_of_finish h.finish]

/-- Only blanks are taken off. -/
theorem exists_trim (text : List Char) :
    ∃ front back, text = front ++ (trim text ++ back) ∧ (∀ c ∈ front, isBlank c = true) ∧
      ∀ c ∈ back, isBlank c = true := by
  have hleft := List.takeWhile_append_dropWhile (p := isBlank) (l := text)
  have hright := List.takeWhile_append_dropWhile (p := isBlank) (l := (trimLeft text).reverse)
  refine ⟨text.takeWhile isBlank, ((trimLeft text).reverse.takeWhile isBlank).reverse, ?_,
    List.all_eq_true.1 List.all_takeWhile, ?_⟩
  · rw [trim, trimRight, ← List.reverse_append, hright, List.reverse_reverse]
    exact hleft.symm
  · intro c hc
    exact List.all_eq_true.1 List.all_takeWhile c (List.mem_reverse.1 hc)

/-! ## Words -/

theorem words_blank {c : Char} (hc : isBlank c = true) (text : List Char) : words (c :: text) = words text := by
  cases text <;> simp [words, hc]

/-- A word ends at the next blank. -/
theorem words_append {w rest : List Char} (hne : w ≠ []) (hw : ∀ c ∈ w, isBlank c = false)
    (hrest : ∀ c ∈ rest.head?, isBlank c = true) : words (w ++ rest) = w :: words rest := by
  induction w with
  | nil => exact absurd rfl hne
  | cons c w ih =>
    obtain ⟨hc, hw⟩ := List.forall_mem_cons.1 hw
    cases w with
    | nil =>
      cases rest with
      | nil => simp [words, hc]
      | cons d rest => simp [words, hc, hrest d rfl]
    | cons d w =>
      have hd : isBlank d = false := hw d (List.mem_cons_self ..)
      have htail := ih (List.cons_ne_nil d w) hw
      rw [List.cons_append] at htail
      simp [words, hc, hd, htail]

/-- Words joined by a blank are the words again. -/
theorem words_joinText {ps : List (List Char)} (h : ∀ p ∈ ps, p ≠ [] ∧ ∀ c ∈ p, isBlank c = false) :
    words (joinText [' '] ps) = ps := by
  induction ps with
  | nil => rfl
  | cons p ps ih =>
    obtain ⟨⟨hpne, hp⟩, hps⟩ := List.forall_mem_cons.1 h
    cases ps with
    | nil =>
      have hword : words (p ++ []) = p :: words [] := words_append hpne hp nofun
      simpa [joinText, words] using hword
    | cons q ps =>
      have hblank : ∀ c ∈ (' ' :: joinText [' '] (q :: ps)).head?, isBlank c = true := by
        rintro c ⟨⟩
        rfl
      rw [joinText_cons_cons, List.singleton_append, words_append hpne hp hblank, words_blank rfl, ih hps]

end GoApi.Text
