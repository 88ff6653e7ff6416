import GoApi.Build.Token
import GoApi.Proofs.Text.Unique

/-!
# Texts that spell a list of tokens

`Spells tokens text` says that a text is read as a list of tokens: white space may stand between any two
of them, and a tag ends where no more of its characters follow.  `tokenize` accepts exactly these texts,

    tokenize text = .ok tokens ↔ Spells tokens text      (tokenize_eq_ok_iff)

so a text has at most one list of tokens.
-/

namespace GoApi.Build

open Text

/-- The tokens that are no tags. -/
def marks : List Token := [.not, .and, .or, .opening, .closing]

/-- A text, read with ASCII white space as separator and tags as maximal runs of their characters. -/
inductive Spells : List Token → List Char → Prop where
  | done : Spells [] []
  | blank {c : Char} {tokens : List Token} {text : List Char} (hc : isAsciiBlank c = true)
      (h : Spells tokens text) : Spells tokens (c :: text)
  | mark {token : Token} {tokens : List Token} {text : List Char} (hmark : token ∈ marks)
      (h : Spells tokens text) : Spells (token :: tokens) (token.spelling ++ text)
  | tag {name : List Char} {tokens : List Token} {text : List Char} (hne : name ≠ [])
      (hname : ∀ c ∈ name, isTagChar c = true) (hend : EndsRun isTagChar text) (h : Spells tokens text) :
      Spells (.tag name :: tokens) (name ++ text)

/-! ## Reading a text -/

theorem cons_eq_ok_iff {x : Except Char (List Token)} {token : Token} {tokens : List Token} :
    (do return token :: (← x)) = Except.ok tokens ↔ ∃ rest, x = .ok rest ∧ token :: rest = tokens := by
  cases x <;> simp [bind, Except.bind, pure, Except.pure]

/-- Tokens are spelled by the text that they come from, blanks aside. -/
theorem spells_of_tokenize {text : List Char} {tokens : List Token} (h : tokenize text = .ok tokens) :
    Spells tokens text := by
  fun_induction tokenize text generalizing tokens with
  | case1 =>
    cases h
    exact .done
  | case2 c rest hblank ih => exact .blank hblank (ih h)
  | case3 rest _ ih | case4 rest _ _ ih | case5 rest _ _ _ ih | case7 rest _ _ _ _ _ ih
  | case8 rest _ _ _ _ _ ih =>
    obtain ⟨ts, hts, rfl⟩ := cons_eq_ok_iff.1 h
    exact .mark (by decide) (ih hts)
  | case6 c rest _ _ _ _ hc _ ih =>
    obtain ⟨ts, hts, rfl⟩ := cons_eq_ok_iff.1 h
    have hname : ∀ d ∈ c :: rest.takeWhile isTagChar, isTagChar d = true :=
      List.forall_mem_cons.2 ⟨hc, List.all_eq_true.1 List.all_takeWhile⟩
    have hspells := Spells.tag (List.cons_ne_nil _ _) hname (endsRun_dropWhile _ rest) (ih hts)
    rwa [List.cons_append, List.takeWhile_append_dropWhile] at hspells
  | case9 => cases h

theorem tokenize_blank {c : Char} (hc : isAsciiBlank c = true) (text : List Char) :
    tokenize (c :: text) = tokenize text := by
  rw [tokenize.eq_def]
  simp only [if_pos hc]

theorem tokenize_mark {token : Token} (hmark : token ∈ marks) (text : List Char) :
    tokenize (token.spelling ++ text) = (do return token :: (← tokenize text)) := by
  simp only [marks, List.mem_cons, List.not_mem_nil, or_false] at hmark
  rcases hmark with rfl | rfl | rfl | rfl | rfl <;> rw [tokenize.eq_def] <;> rfl

theorem ne_of_isTagChar {c d : Char} (hc : isTagChar c = true) (hd : isTagChar d = false) : c ≠ d := by
  rintro rfl
  rw [hc] at hd
  cases hd

theorem isAsciiBlank_of_isTagChar {c : Char} (hc : isTagChar c = true) : isAsciiBlank c = false := by
  simp only [isAsciiBlank, Bool.or_eq_false_iff, beq_eq_false_iff_ne]
  exact ⟨⟨⟨⟨ne_of_isTagChar hc rfl, ne_of_isTagChar hc rfl⟩, ne_of_isTagChar hc rfl⟩, ne_of_isTagChar hc rfl⟩,
    ne_of_isTagChar hc rfl⟩

/-- The characters of tags are neither white space nor marks. -/
theorem tokenize_tag {name text : List Char} (hne : name ≠ []) (hname : ∀ c ∈ name, isTagChar c = true)
    (hend : EndsRun isTagChar text) :
    tokenize (name ++ text) = (do return .tag name :: (← tokenize text)) := by
  obtain ⟨c, more, rfl⟩ := List.exists_cons_of_ne_nil hne
  obtain ⟨hc, hmore⟩ := List.forall_mem_cons.1 hname
  have hother : ∀ d, isTagChar d = false → c ≠ d := fun d hd => ne_of_isTagChar hc hd
  rw [List.cons_append, tokenize.eq_def]
  simp only [isAsciiBlank_of_isTagChar hc, hc, hother '!' rfl, hother '(' rfl, hother ')' rfl, Bool.false_eq_true,
    if_false, if_true]
  rw [takeWhile_run isTagChar more text hmore hend, dropWhile_run isTagChar more text hmore hend]

/-- A text is cut into the longest tags, which is what a spelling of tokens requires. -/
theorem tokenize_of_spells {text : List Char} {tokens : List Token} (h : Spells tokens text) :
    tokenize text = .ok tokens := by
  induction h with
  | done => rw [tokenize]
  | blank hc _ ih => rw [tokenize_blank hc, ih]
  | mark hmark _ ih => exact tokenize_mark hmark _ ▸ cons_eq_ok_iff.2 ⟨_, ih, rfl⟩
  | tag hne hname hend _ ih => exact tokenize_tag hne hname hend ▸ cons_eq_ok_iff.2 ⟨_, ih, rfl⟩

theorem tokenize_eq_ok_iff (text : List Char) (tokens : List Token) :
    tokenize text = .ok tokens ↔ Spells tokens text :=
  ⟨spells_of_tokenize, tokenize_of_spells⟩

/-- Texts can stand side by side if the second does not continue a tag. -/
theorem Spells.append {tokens tokens' : List Token} {text text' : List Char} (h : Spells tokens text)
    (h' : Spells tokens' text') (hend : EndsRun isTagChar text') : Spells (tokens ++ tokens') (text ++ text') := by
  induction h with
  | done => exact h'
  | blank hc _ ih => exact .blank hc ih
  | mark hmark _ ih =>
    rw [List.append_assoc]
    exact .mark hmark ih
  | tag hne hname hend' _ ih =>
    rw [List.append_assoc]
    exact .tag hne hname (endsRun_append hend' hend) ih

end GoApi.Build
