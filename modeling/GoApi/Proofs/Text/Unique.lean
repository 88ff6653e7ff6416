import GoApi.Text.Identifier
import GoApi.Text.Quoted
import GoApi.Text.Split
import Mathlib.Data.List.Basic

/-!
# Where a piece of text ends

A text that starts with a run of characters, a quoted string or a joined list can be cut in one way
only, if what follows the piece cannot be taken for more of it.  The statements have the form

    piece x ++ r = piece y ++ s → x and y agree ∧ r = s
-/

namespace GoApi.Text

/-! ## Runs of characters -/

/-- What follows does not continue a run of the class. -/
def EndsRun (p : Char → Bool) (r : List Char) : Prop := ∀ c t, r = c :: t → p c = false

theorem endsRun_nil (p : Char → Bool) : EndsRun p [] := by
  intro c t h
  cases h

theorem endsRun_cons {p : Char → Bool} {c : Char} {t : List Char} (h : p c = false) :
    EndsRun p (c :: t) := by
  intro d u he
  cases he
  exact h

theorem endsRun_append {p : Char → Bool} {r s : List Char} (hr : EndsRun p r) (hs : EndsRun p s) :
    EndsRun p (r ++ s) := by
  cases r with
  | nil => exact hs
  | cons c r => exact endsRun_cons (hr c r rfl)

theorem endsRun_of_append {p : Char → Bool} {r s : List Char} (h : EndsRun p (r ++ s)) : EndsRun p r := by
  rintro c t rfl
  exact h c (t ++ s) rfl

/-- Where `r` is not empty its first character decides, whatever follows. -/
theorem endsRun_append_of_ne {p : Char → Bool} {r : List Char} (hr : EndsRun p r) (hne : r ≠ [])
    (s : List Char) : EndsRun p (r ++ s) := by
  obtain ⟨c, r, rfl⟩ := List.exists_cons_of_ne_nil hne
  exact endsRun_cons (hr c r rfl)

/-- A run is cut off exactly where the text after it stops it. -/
theorem takeWhile_run (p : Char → Bool) (w r : List Char) (hw : ∀ c ∈ w, p c = true)
    (hr : EndsRun p r) : (w ++ r).takeWhile p = w := by
  induction w with
  | nil =>
    cases r with
    | nil => rfl
    | cons c t => simp [hr c t rfl]
  | cons c w ih =>
    have hc : p c = true := hw c (by simp)
    simp [hc, ih fun d hd => hw d (by simp [hd])]

theorem dropWhile_run (p : Char → Bool) (w r : List Char) (hw : ∀ c ∈ w, p c = true) (hr : EndsRun p r) :
    (w ++ r).dropWhile p = r := by
  have hcut := List.takeWhile_append_dropWhile (p := p) (l := w ++ r)
  rw [takeWhile_run p w r hw hr] at hcut
  exact List.append_cancel_left hcut

theorem endsRun_dropWhile (p : Char → Bool) (text : List Char) : EndsRun p (text.dropWhile p) := by
  intro c rest h
  have hhead := List.head?_dropWhile_not p text
  rw [h] at hhead
  simpa using hhead

/-- A run of characters followed by a text that ends it can be split in one way only. -/
theorem run_unique (p : Char → Bool) (w v r s : List Char) (hw : ∀ c ∈ w, p c = true)
    (hv : ∀ c ∈ v, p c = true) (hr : EndsRun p r) (hs : EndsRun p s) (h : w ++ r = v ++ s) :
    w = v ∧ r = s := by
  have hwv : w = v := by
    rw [← takeWhile_run p w r hw hr, ← takeWhile_run p v s hv hs, h]
  subst hwv
  exact ⟨rfl, List.append_cancel_left h⟩

/-- A text up to the first occurrence of a character. -/
theorem upTo_unique (c : Char) (w v r s : List Char) (hw : c ∉ w) (hv : c ∉ v)
    (h : w ++ c :: r = v ++ c :: s) : w = v ∧ r = s := by
  have hrun : ∀ u : List Char, c ∉ u → ∀ d ∈ u, (d != c) = true := by
    intro u hu d hd
    simp only [bne_iff_ne]
    rintro rfl
    exact hu hd
  obtain ⟨hwv, hrs⟩ := run_unique (· != c) w v (c :: r) (c :: s) (hrun w hw) (hrun v hv)
    (endsRun_cons (by simp)) (endsRun_cons (by simp)) h
  exact ⟨hwv, by simpa using hrs⟩

/-! ## Quoted strings -/

theorem digitChar_inj_all : ∀ m < 16, ∀ n < 16, Nat.digitChar m = Nat.digitChar n → m = n := by
  decide

theorem digitChar_ne_brace_all : ∀ n < 16, Nat.digitChar n ≠ '}' := by
  decide

/-- Hexadecimal digits tell numbers apart, by strong induction with the last digit split off. -/
theorem toDigits_inj (m : Nat) : ∀ n, Nat.toDigits 16 m = Nat.toDigits 16 n → m = n := by
  induction m using Nat.strongRecOn with
  | ind m ih =>
    intro n h
    rw [Nat.toDigits_eq_if (by omega), Nat.toDigits_eq_if (n := n) (by omega)] at h
    split at h
    · next hm =>
      split at h
      · next hn => exact digitChar_inj_all m hm n hn (by simpa using h)
      · -- one digit against at least two
        have hl := congrArg List.length h
        have hp := Nat.length_toDigits_pos (b := 16) (n := n / 16)
        simp only [List.length_singleton, List.length_append] at hl
        omega
    · next hm =>
      split at h
      · have hl := congrArg List.length h
        have hp := Nat.length_toDigits_pos (b := 16) (n := m / 16)
        simp only [List.length_singleton, List.length_append] at hl
        omega
      · next hn =>
        obtain ⟨hi, hd⟩ := List.append_inj' h (by simp)
        have hq : m / 16 = n / 16 := ih (m / 16) (by omega) (n / 16) hi
        have hr : m % 16 = n % 16 :=
          digitChar_inj_all _ (Nat.mod_lt _ (by omega)) _ (Nat.mod_lt _ (by omega)) (by simpa using hd)
        omega

theorem brace_notMem_toDigits (n : Nat) : '}' ∉ Nat.toDigits 16 n := by
  induction n using Nat.strongRecOn with
  | ind n ih =>
    rw [Nat.toDigits_eq_if (by omega)]
    split
    · next hn =>
      rw [List.mem_singleton]
      exact (digitChar_ne_brace_all n hn).symm
    · next hn =>
      rw [List.mem_append, List.mem_singleton]
      rintro (hc | hc)
      · exact ih (n / 16) (by omega) hc
      · exact digitChar_ne_brace_all _ (Nat.mod_lt _ (by omega)) hc.symm

/-- The character that a letter after a backslash stands for. -/
def unescape? (d : Char) : Option Char :=
  if d = '"' ∨ d = '\\' then some d
  else if d = 'n' then some '\n'
  else if d = 'r' then some '\r'
  else if d = 't' then some '\t'
  else if d = '0' then some (Char.ofNat 0)
  else none

/-- A character stands for itself, is written by a letter, or by its code. -/
theorem escape_cases (c : Char) :
    (escape '"' c = [c] ∧ c ≠ '\\' ∧ c ≠ '"') ∨
    (∃ d, escape '"' c = ['\\', d] ∧ unescape? d = some c) ∨
    escape '"' c = '\\' :: 'u' :: '{' :: (Nat.toDigits 16 c.toNat ++ ['}']) := by
  unfold escape
  split
  · next h => exact Or.inr (Or.inl ⟨c, rfl, by simp [unescape?, h]⟩)
  · next h =>
    split
    · next hc => exact Or.inr (Or.inl ⟨'n', rfl, by simp [unescape?, hc]⟩)
    · split
      · next hc => exact Or.inr (Or.inl ⟨'r', rfl, by simp [unescape?, hc]⟩)
      · split
        · next hc => exact Or.inr (Or.inl ⟨'t', rfl, by simp [unescape?, hc]⟩)
        · split
          · next hc =>
            have hc' : c = Char.ofNat 0 := by rw [← hc, Char.ofNat_toNat]
            exact Or.inr (Or.inl ⟨'0', rfl, by simp [unescape?, hc']⟩)
          · split
            · exact Or.inl ⟨rfl, fun hc => h (Or.inr hc), fun hc => h (Or.inl hc)⟩
            · exact Or.inr (Or.inr (by simp))

/-- An escaped character is read off the front of a text in one way only. -/
theorem escape_unique (c c' : Char) (r s : List Char)
    (h : escape '"' c ++ r = escape '"' c' ++ s) : c = c' ∧ r = s := by
  have hu : unescape? 'u' = none := by decide
  rcases escape_cases c with ⟨hc, hb, -⟩ | ⟨d, hc, hd⟩ | hc <;>
    rcases escape_cases c' with ⟨hc', hb', -⟩ | ⟨d', hc', hd'⟩ | hc' <;>
    rw [hc, hc'] at h <;>
    simp only [List.cons_append, List.nil_append, List.append_assoc, List.cons.injEq, true_and] at h
  · exact h
  · exact absurd h.1 hb
  · exact absurd h.1 hb
  · exact absurd h.1.symm hb'
  · obtain ⟨rfl, rfl⟩ := h
    exact ⟨by simpa [hd] using hd', rfl⟩
  · rw [h.1, hu] at hd
    cases hd
  · exact absurd h.1.symm hb'
  · rw [← h.1, hu] at hd'
    cases hd'
  · obtain ⟨hn, hrs⟩ := upTo_unique '}' _ _ r s (brace_notMem_toDigits _) (brace_notMem_toDigits _) h
    exact ⟨Char.toNat_inj.1 (toDigits_inj _ _ hn), hrs⟩

/-- No escape begins with the closing mark, so the end of a quoted text cannot be missed. -/
theorem escape_ne_mark (c : Char) (r s : List Char) : escape '"' c ++ r ≠ '"' :: s := by
  rcases escape_cases c with ⟨hc, -, hm⟩ | ⟨d, hc, -⟩ | hc <;> rw [hc] <;> simp
  exact fun h => absurd h hm

/-- By induction on the text: a quoted text ends at its first mark that is not escaped. -/
theorem escaped_unique (w v r s : List Char)
    (h : w.flatMap (escape '"') ++ '"' :: r = v.flatMap (escape '"') ++ '"' :: s) :
    w = v ∧ r = s := by
  induction w generalizing v with
  | nil =>
    cases v with
    | nil => exact ⟨rfl, by simpa using h⟩
    | cons d v =>
      simp only [List.flatMap_nil, List.nil_append, List.flatMap_cons, List.append_assoc] at h
      exact absurd h.symm (escape_ne_mark d _ r)
  | cons c w ih =>
    cases v with
    | nil =>
      simp only [List.flatMap_nil, List.nil_append, List.flatMap_cons, List.append_assoc] at h
      exact absurd h (escape_ne_mark c _ s)
    | cons d v =>
      simp only [List.flatMap_cons, List.append_assoc] at h
      obtain ⟨hcd, hrest⟩ := escape_unique c d _ _ h
      obtain ⟨hwv, hrs⟩ := ih v hrest
      exact ⟨by rw [hcd, hwv], hrs⟩

/-- A quoted text in front of others can be read off in one way only. -/
theorem quote_unique (p q : String) (r s : List Char)
    (h : (quote p).toList ++ r = (quote q).toList ++ s) : p = q ∧ r = s := by
  simp only [quote, String.toList_ofList, List.cons_append, List.append_assoc, List.nil_append,
    List.cons.injEq, true_and] at h
  obtain ⟨hpq, hrs⟩ := escaped_unique _ _ r s h
  exact ⟨String.toList_injective hpq, hrs⟩

/-! ## Joined lists -/

/-- Texts one after the other with a separator between them. -/
def joinText (sep : List Char) : List (List Char) → List Char
  | [] => []
  | t :: ts => t ++ ts.flatMap (sep ++ ·)

theorem joinText_cons_cons (sep t u : List Char) (ts : List (List Char)) :
    joinText sep (t :: u :: ts) = t ++ (sep ++ joinText sep (u :: ts)) := by
  simp [joinText]

/-- Every character of a joined text comes from the separator or from one of the parts. -/
theorem mem_joinText {c : Char} {sep : List Char} {ts : List (List Char)} (h : c ∈ joinText sep ts) :
    c ∈ sep ∨ ∃ t ∈ ts, c ∈ t := by
  cases ts with
  | nil => cases h
  | cons t ts =>
    rw [joinText, List.mem_append, List.mem_flatMap] at h
    rcases h with h | ⟨u, hu, h⟩
    · exact Or.inr ⟨t, List.mem_cons_self .., h⟩
    · exact (List.mem_append.1 h).imp_right fun h => ⟨u, List.mem_cons_of_mem t hu, h⟩

theorem notMem_joinText {α : Type} {c : Char} {sep : List Char} (hsep : c ∉ sep) {f : α → List Char} {xs : List α}
    (h : ∀ x ∈ xs, c ∉ f x) : c ∉ joinText sep (xs.map f) := by
  intro hmem
  rcases mem_joinText hmem with hmem | ⟨t, ht, hmem⟩
  · exact hsep hmem
  · obtain ⟨x, hx, rfl⟩ := List.mem_map.1 ht
    exact h x hx hmem

theorem toList_join (sep : String) (ts : List String) :
    (join sep ts).toList = joinText sep.toList (ts.map String.toList) := by
  induction ts with
  | nil => rfl
  | cons t ts ih =>
    cases ts with
    | nil => simp [join, joinText]
    | cons u us =>
      simp only [join, String.toList_append, ih]
      simp [joinText]

theorem toList_join_map {α : Type} (sep : String) (f : α → String) (xs : List α) :
    (join sep (xs.map f)).toList = joinText sep.toList (xs.map fun x => (f x).toList) := by
  rw [toList_join, List.map_map]
  rfl

section Joined

variable {α β : Type} (f : α → List Char) (g : β → List Char) (agree : α → β → Prop)
  (sep : List Char) (stops : List Char → Prop)

/-- Items cut off one by one, each with a separator before it. -/
theorem flatMap_unique (xs : List α) (ys : List β) (r s : List Char)
    (hitem : ∀ x ∈ xs, ∀ y ∈ ys, ∀ r s, stops r → stops s → f x ++ r = g y ++ s → agree x y ∧ r = s)
    (hsep : ∀ t, stops (sep ++ t)) (hr : stops r) (hs : stops s)
    (hr' : ∀ t, r ≠ sep ++ t) (hs' : ∀ t, s ≠ sep ++ t)
    (h : xs.flatMap (fun x => sep ++ f x) ++ r = ys.flatMap (fun y => sep ++ g y) ++ s) :
    List.Forall₂ agree xs ys ∧ r = s := by
  have hstop : ∀ {γ : Type} (k : γ → List Char) (zs : List γ) (t : List Char), stops t →
      stops (zs.flatMap (fun z => sep ++ k z) ++ t) := by
    intro γ k zs t ht
    cases zs with
    | nil => simpa using ht
    | cons z zs =>
      simp only [List.flatMap_cons, List.append_assoc]
      exact hsep _
  induction xs generalizing ys with
  | nil =>
    cases ys with
    | nil => exact ⟨List.Forall₂.nil, by simpa using h⟩
    | cons y ys =>
      simp only [List.flatMap_nil, List.nil_append, List.flatMap_cons, List.append_assoc] at h
      exact absurd h (hr' _)
  | cons x xs ih =>
    cases ys with
    | nil =>
      simp only [List.flatMap_nil, List.nil_append, List.flatMap_cons, List.append_assoc] at h
      exact absurd h.symm (hs' _)
    | cons y ys =>
      simp only [List.flatMap_cons, List.append_assoc] at h
      obtain ⟨hxy, h⟩ := hitem x (by simp) y (by simp) _ _ (hstop f xs r hr) (hstop g ys s hs)
        (List.append_cancel_left h)
      obtain ⟨hall, hrs⟩ := ih ys (fun x hx y hy => hitem x (by simp [hx]) y (by simp [hy])) h
      exact ⟨List.Forall₂.cons hxy hall, hrs⟩

/-- A joined list is cut in one way, if no item looks like what follows the list. -/
theorem joinText_unique (xs : List α) (ys : List β) (r s : List Char)
    (hitem : ∀ x ∈ xs, ∀ y ∈ ys, ∀ r s, stops r → stops s → f x ++ r = g y ++ s → agree x y ∧ r = s)
    (hsep : ∀ t, stops (sep ++ t)) (hr : stops r) (hs : stops s)
    (hr' : ∀ t, r ≠ sep ++ t) (hs' : ∀ t, s ≠ sep ++ t)
    (hx : ∀ x ∈ xs, ∀ t, f x ++ t ≠ s) (hy : ∀ y ∈ ys, ∀ t, g y ++ t ≠ r)
    (h : joinText sep (xs.map f) ++ r = joinText sep (ys.map g) ++ s) :
    List.Forall₂ agree xs ys ∧ r = s := by
  cases xs with
  | nil =>
    cases ys with
    | nil => exact ⟨List.Forall₂.nil, by simpa [joinText] using h⟩
    | cons y ys =>
      simp only [List.map_nil, List.map_cons, joinText, List.nil_append, List.append_assoc] at h
      exact absurd h.symm (hy y (by simp) _)
  | cons x xs =>
    cases ys with
    | nil =>
      simp only [List.map_nil, List.map_cons, joinText, List.nil_append, List.append_assoc] at h
      exact absurd h (hx x (by simp) _)
    | cons y ys =>
      have h' : (x :: xs).flatMap (fun x => sep ++ f x) ++ r =
          (y :: ys).flatMap (fun y => sep ++ g y) ++ s := by
        simp only [List.map_cons, joinText, List.append_assoc, List.flatMap_map] at h
        simp only [List.flatMap_cons, List.append_assoc, h]
      exact flatMap_unique f g agree sep stops _ _ r s hitem hsep hr hs hr' hs' h'

end Joined

end GoApi.Text
