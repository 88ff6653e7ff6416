import GoApi.Proofs.Text.Blank
import GoApi.Source.FileReader

/-!
# What tokens look like

Every token that the readers see (`Token.Sound`) starts with a character that is not blank, starts with
a closing square bracket only if it is that mark, and is an identifier or a keyword if it is a word.
-/

namespace GoApi.Source

open Text Reader

/-- An identifier or a keyword. -/
def isWordText (s : String) : Bool :=
  match s.toList with
  | [] => false
  | c :: cs => isIdentifierStart c && cs.all isIdentifierContinue

/-- The first character of a text is not blank and no closing square bracket. -/
def startsLength (text : List Char) : Bool := text.head?.any fun c => !isBlank c && c != ']'

/-- What the readers rely on in a token. -/
structure Token.Sound (t : Token) : Prop where
  word : t.kind = .word → isWordText t.text = true
  first : isMark "]" t = true ∨ startsLength t.text.toList = true

theorem startsLength_of_class {p : Char → Bool} (hp : ∀ n ∈ blankCodes, p (Char.ofNat n) = false)
    (hbracket : p ']' = false) {c : Char} (h : p c = true) : startsLength [c] = true := by
  have hblank := not_isBlank_of_class hp h
  have hne : c ≠ ']' := by
    rintro rfl
    rw [h] at hbracket
    cases hbracket
  simp [startsLength, hblank, hne]

theorem startsLength_of_start {c : Char} (h : isIdentifierStart c = true) : startsLength [c] = true :=
  startsLength_of_class (by decide +kernel) (by decide) h

theorem startsLength_of_isDigit {c : Char} (h : c.isDigit = true) : startsLength [c] = true :=
  startsLength_of_class (by decide +kernel) (by decide) h

theorem startsLength_of_head {text : List Char} {c : Char} (h : text.head? = some c)
    (hc : startsLength [c] = true) : startsLength text = true := by
  unfold startsLength at hc ⊢
  rw [h]
  exact hc

/-! ## Numbers -/

theorem head_decimal {c : Char} {rest : List Char}
    (h : c.isDigit = true ∨ c = '.' ∧ rest.head?.any Char.isDigit = true) (more : List Char) :
    ((run (fun c => c.isDigit || c == '_') (c :: rest)).1 ++
      (fraction Char.isDigit (run (fun c => c.isDigit || c == '_') (c :: rest)).2).1 ++ more).head? =
      some c := by
  rcases h with h | ⟨rfl, h⟩
  · simp [run, h]
  · cases rest with
    | nil => cases h
    | cons d rest =>
      have hd : d.isDigit = true := by simpa using h
      have hne : d ≠ '.' := by
        rintro rfl
        cases hd
      simp [run, fraction, hne]

/-- A number starts with the digit or the point that announces it. -/
theorem head_number {c : Char} {rest : List Char}
    (h : c.isDigit = true ∨ c = '.' ∧ rest.head?.any Char.isDigit = true) :
    (number (c :: rest)).2.1.head? = some c := by
  unfold number
  split
  next lead digit letters text hlead =>
  -- a base keeps its zero in front; without one the digits start with `c`
  have hcase : (∃ more, lead = c :: more) ∨ lead = [] ∧ digit = Char.isDigit ∧ text = c :: rest := by
    split at hlead
    · next x more hzero =>
      cases hzero
      split at hlead
      · cases hlead
        exact Or.inl ⟨_, rfl⟩
      · split at hlead <;> cases hlead
        · exact Or.inl ⟨_, rfl⟩
        · exact Or.inr ⟨rfl, rfl, rfl⟩
    · cases hlead
      exact Or.inr ⟨rfl, rfl, rfl⟩
  dsimp only
  rcases hcase with ⟨more, rfl⟩ | ⟨rfl, rfl, rfl⟩
  · split <;> rfl
  · have hhead := head_decimal h
    split
    · rw [List.nil_append, List.append_assoc _ _ ['i']]
      exact hhead _
    · rw [List.nil_append]
      exact hhead _

theorem number_ne_word (text : List Char) : (number text).1 ≠ .word := by
  unfold number
  split
  dsimp only
  split
  · simp
  · split <;> simp

/-! ## Marks -/

theorem marks_first_all : ∀ m ∈ marks, m = "]" ∨ startsLength m.toList = true := by
  decide +kernel

/-! ## Tokens of a text -/

/-- A token of this kind and text is sound wherever it stands. -/
def SoundAs (kind : Token.Kind) (text : List Char) : Prop :=
  ∀ lead afterBreak line, Token.Sound ⟨kind, String.ofList text, lead, afterBreak, line⟩

theorem soundAs_of_first {kind : Token.Kind} {text : List Char} (hword : kind ≠ .word)
    (hfirst : startsLength text = true) : SoundAs kind text := by
  intro lead afterBreak line
  refine ⟨fun hk => absurd hk hword, Or.inr ?_⟩
  rw [String.toList_ofList]
  exact hfirst

theorem soundAs_word {c : Char} (h : isIdentifierStart c = true) (rest : List Char) :
    SoundAs .word (c :: (run isIdentifierContinue rest).1) := by
  intro lead afterBreak line
  refine ⟨fun _ => ?_, Or.inr ?_⟩
  · simp [isWordText, h, run, List.all_takeWhile]
  · rw [String.toList_ofList]
    exact startsLength_of_start h

theorem soundAs_number {c : Char} {rest : List Char}
    (h : c.isDigit = true ∨ c = '.' ∧ rest.head?.any Char.isDigit = true) :
    SoundAs (number (c :: rest)).1 (number (c :: rest)).2.1 := by
  refine soundAs_of_first (number_ne_word _) (startsLength_of_head (head_number h) ?_)
  rcases h with hdigit | ⟨rfl, -⟩
  · exact startsLength_of_isDigit hdigit
  · rfl

theorem soundAs_mark {m : String} (hm : m ∈ marks) : SoundAs .mark m.toList := by
  rcases marks_first_all m hm with rfl | hfirst
  · intro lead afterBreak line
    exact ⟨nofun, Or.inl rfl⟩
  · exact soundAs_of_first (by decide) hfirst

/-- The token at the front of a text is sound, unless it is a stray character. -/
theorem front_sound (c : Char) (rest : List Char) :
    (front c rest).1 = .stray ∨ SoundAs (front c rest).1 (front c rest).2.1 := by
  unfold front
  dsimp only
  split
  · next hstart => exact Or.inr (soundAs_word hstart rest)
  split
  · next hdigit => exact Or.inr (soundAs_number (Or.inl hdigit))
  split
  · next hc =>
    split
    · exact Or.inr (soundAs_of_first nofun (hc ▸ rfl))
    · exact Or.inl rfl
  split
  · next hc =>
    split
    · exact Or.inr (soundAs_of_first nofun (hc ▸ rfl))
    · exact Or.inl rfl
  split
  · next hc =>
    split
    · exact Or.inr (soundAs_of_first nofun (hc ▸ rfl))
    · exact Or.inl rfl
  split
  · next hc =>
    simp only [Bool.and_eq_true, decide_eq_true_eq] at hc
    exact Or.inr (soundAs_number (Or.inr hc))
  split
  · next m after hfind =>
    obtain ⟨m', hm', hafter⟩ := List.exists_of_findSome?_eq_some hfind
    obtain ⟨_, -, hm⟩ := Option.map_eq_some_iff.1 hafter
    cases hm
    exact Or.inr (soundAs_mark hm')
  · exact Or.inl rfl

/-- The tokens of a text are sound, but for stray characters. -/
theorem scan_sound (fuel : Nat) (lead : List Char) (broken : Bool) (line : Nat) (text : List Char) :
    ∀ t ∈ scan fuel lead broken line text, t.kind = .stray ∨ t.Sound := by
  induction fuel generalizing lead broken line text with
  | zero => simp [scan]
  | succ fuel ih =>
    cases text with
    | nil => simp [scan]
    | cons c rest =>
      intro t ht
      simp only [scan] at ht
      split at ht
      · exact ih _ _ _ _ t ht
      · split at ht
        · exact ih _ _ _ _ t ht
        · rcases List.mem_cons.1 ht with rfl | ht
          · exact (front_sound c rest).imp_right fun hsound => hsound _ _ _
          · exact ih _ _ _ _ t ht

theorem withoutStrays_sound (broken : Bool) {ts : List Token}
    (h : ∀ t ∈ ts, t.kind = .stray ∨ t.Sound) : ∀ t ∈ withoutStrays broken ts, t.Sound := by
  induction ts generalizing broken with
  | nil => simp [withoutStrays]
  | cons u us ih =>
    have hus := fun t ht => h t (List.mem_cons_of_mem u ht)
    unfold withoutStrays
    split
    · exact ih _ hus
    · next hkind =>
      have hu : u.Sound := (h u (List.mem_cons_self ..)).resolve_left (by simpa using hkind)
      refine List.forall_mem_cons.2 ⟨⟨hu.word, hu.first⟩, ih false hus⟩

/-- The tokens of a source that the readers see are sound. -/
theorem kept_sound (source : String) : ∀ t ∈ withoutStrays false (tokens source), t.Sound :=
  withoutStrays_sound false (scan_sound _ _ _ _ _)

end GoApi.Source
