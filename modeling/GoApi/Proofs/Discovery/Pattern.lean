import GoApi.Discovery.Walk
import Mathlib.Data.List.Basic
import Mathlib.Data.List.Infix

/-!
# Lines with an exclamation mark in front

A walk takes each line of a selection with `!` in front, and a listing takes it as it is.  Both read the same
glob from it, and only the verdict differs, unless the line is *marked*: it starts with `!` or `#`, or is blank
(`ofLine?_exclaimed`).

Patterns that all leave out what they are for can be asked in any order (`decide_of_leaveOut`).
-/

namespace GoApi.Discovery

namespace Glob

/-- A backslash in front of an ordinary character changes nothing. -/
theorem assemble_escaped (outer : List Draft) (draft : Draft) (last : Option Char) (c : Char)
    (rest : List Lexeme) :
    assemble outer draft last (.escaped c :: rest) = assemble outer draft last (.plain c :: rest) := by
  rw [assemble, assemble]

theorem assemble_anyDepth (rest : List Lexeme) :
    assemble [] {} none (.star :: .star :: .plain '/' :: rest) =
      assemble [] (Draft.push {} .leading) (some '/') rest := by
  rw [assemble]
  rfl

theorem lexemes_anyDepth (text : List Char) :
    lexemes .outside ("**/".toList ++ text) =
      (lexemes .outside text).map fun pieces => .star :: .star :: .plain '/' :: pieces := by
  have hstar (rest : List Char) : lexemes .outside ('*' :: rest) = (lexemes .outside rest).map (.star :: ·) := rfl
  have hslash : lexemes .outside ('/' :: text) = (lexemes .outside text).map (.plain '/' :: ·) := rfl
  show lexemes .outside ('*' :: '*' :: '/' :: text) = _
  rw [hstar, hstar, hslash, Option.map_map, Option.map_map]
  rfl

/-- A character that has a meaning in front of a line only is one like any other in a glob. -/
theorem lexemes_mark {c : Char} (hc : c = '!' ∨ c = '#') (text : List Char) :
    lexemes .outside (c :: text) = (lexemes .outside text).map (.plain c :: ·) := by
  rcases hc with rfl | rfl <;> rfl

theorem lexemes_escaped (c : Char) (text : List Char) :
    lexemes .outside ('\\' :: c :: text) = (lexemes .outside text).map (.escaped c :: ·) := rfl

theorem ofText?_escaped {c : Char} (hc : c = '!' ∨ c = '#') (text : List Char) :
    ofText? ('\\' :: c :: text) = ofText? (c :: text) := by
  unfold ofText?
  rw [lexemes_mark hc, lexemes_escaped]
  cases lexemes .outside text with
  | none => rfl
  | some pieces =>
    simp only [Option.map_some, Option.bind_eq_bind, Option.bind_some, assemble_escaped]

theorem ofText?_anyDepth_escaped {c : Char} (hc : c = '!' ∨ c = '#') (text : List Char) :
    ofText? ("**/".toList ++ '\\' :: c :: text) = ofText? ("**/".toList ++ c :: text) := by
  unfold ofText?
  rw [lexemes_anyDepth, lexemes_anyDepth, lexemes_mark hc, lexemes_escaped]
  cases lexemes .outside text with
  | none => rfl
  | some pieces =>
    simp only [Option.map_some, Option.bind_eq_bind, Option.bind_some, assemble_anyDepth, assemble_escaped]

end Glob

namespace Pattern

/-- A line that has a meaning of its own besides its glob, or no glob: it starts with `!` or `#`, or is blank. -/
def IsMarked (line : List Char) : Prop :=
  line.head? = some '!' ∨ line.head? = some '#' ∨ trimLine line = []

instance (line : List Char) : Decidable (IsMarked line) :=
  inferInstanceAs (Decidable (_ ∨ _ ∨ _))

theorem trimLine_prefix (line : List Char) : trimLine line <+: line := by
  unfold trimLine
  split
  · exact List.prefix_rfl
  · obtain ⟨blanks, h⟩ := List.dropWhile_suffix (l := line.reverse) Text.isBlank
    refine ⟨blanks.reverse, ?_⟩
    rw [Text.trimRight, ← List.reverse_append, h, List.reverse_reverse]

/-- A text without a character ends a longer one behind that character, or not at all. -/
theorem isSuffixOf_append_cons {text : List Char} {c : Char} (h : c ∉ text) (lead rest : List Char) :
    text.isSuffixOf (lead ++ c :: rest) = text.isSuffixOf rest := by
  rw [Bool.eq_iff_iff, List.isSuffixOf_iff_suffix, List.isSuffixOf_iff_suffix]
  constructor
  · intro hsuffix
    rcases List.suffix_or_suffix_of_suffix hsuffix (List.suffix_append lead (c :: rest)) with hshort | hlong
    · rcases List.suffix_cons_iff.1 hshort with rfl | hrest
      · exact absurd List.mem_cons_self h
      · exact hrest
    · exact absurd (hlong.subset List.mem_cons_self) h
  · intro hsuffix
    exact hsuffix.trans ((List.suffix_cons c rest).trans (List.suffix_append lead (c :: rest)))

theorem trimLine_exclaimed (line : List Char) : trimLine ('!' :: line) = '!' :: trimLine line := by
  have hsuffix : "\\ ".toList.isSuffixOf ('!' :: line) = "\\ ".toList.isSuffixOf line :=
    isSuffixOf_append_cons (by decide) [] line
  have htrim : Text.trimRight ('!' :: line) = '!' :: Text.trimRight line := by
    have hbusy : Text.isBlank '!' = false := by decide
    simp only [Text.trimRight, List.reverse_cons, List.dropWhile_append, List.dropWhile_cons, hbusy]
    cases h : line.reverse.dropWhile Text.isBlank <;> simp
  unfold trimLine
  rw [hsuffix, htrim]
  split <;> rfl

/-- What the marks of a line and of the line with `!` in front leave of it differs at most by the backslash of an
escaped mark. -/
theorem splitMarks_exclaimed {text : List Char} (h : text.head? ≠ some '!') :
    ∃ anchored glob glob', splitMarks text = (.leaveOut, anchored, glob) ∧
      splitMarks ('!' :: text) = (.keep, anchored, glob') ∧
      (glob' = glob ∨ ∃ c rest, (c = '!' ∨ c = '#') ∧ anchored = false ∧ glob = c :: rest ∧
        glob' = '\\' :: c :: rest) := by
  unfold splitMarks
  split
  · exact ⟨false, _, _, rfl, rfl, Or.inr ⟨'!', _, Or.inl rfl, rfl, rfl, rfl⟩⟩
  · exact ⟨false, _, _, rfl, rfl, Or.inr ⟨'#', _, Or.inr rfl, rfl, rfl, rfl⟩⟩
  · exact absurd rfl h
  · exact absurd rfl h
  · exact ⟨true, _, _, rfl, rfl, Or.inl rfl⟩
  · next hslash =>
    refine ⟨false, text, text, rfl, ?_, Or.inl rfl⟩
    split
    · next heq => cases heq
    · next heq => cases heq
    · next rest heq =>
      cases heq
      exact absurd rfl (hslash rest)
    · next heq =>
      cases heq
      rfl
    · next heq => cases heq
    · next hmark _ => exact absurd rfl (hmark text)

/-- The mark of a glob for directories only is looked for at its end. -/
theorem splitDirMark_append {c : Char} (hslash : c ≠ '/') (hescape : c ≠ '\\') (rest : List Char) :
    ∃ dirsOnly rest', ∀ lead, splitDirMark (lead ++ c :: rest) = (dirsOnly, lead ++ c :: rest') := by
  have hrev (lead : List Char) : (lead ++ c :: rest).reverse = rest.reverse ++ c :: lead.reverse := by simp
  have hrest : rest = rest.reverse.reverse := rest.reverse_reverse.symm
  unfold splitDirMark
  simp only [hrev]
  rw [hrest]
  generalize rest.reverse = back
  cases back with
  | nil => exact ⟨false, [], fun lead => by simp [hslash]⟩
  | cons d before =>
    by_cases hd : d = '/'
    · subst hd
      cases before with
      | nil => exact ⟨true, [], fun lead => by simp [hescape]⟩
      | cons e before =>
        by_cases he : e = '\\'
        · subst he
          exact ⟨true, before.reverse, fun lead => by simp⟩
        · exact ⟨true, (e :: before).reverse, fun lead => by simp [he]⟩
    · exact ⟨false, (d :: before).reverse, fun lead => by simp [hd]⟩

theorem strictlyBelow_append {c : Char} (h : c ∉ "/**".toList) (lead rest : List Char) :
    strictlyBelow (lead ++ c :: rest) = lead ++ c :: strictlyBelow rest := by
  unfold strictlyBelow
  rw [isSuffixOf_append_cons h]
  split <;> simp

/-- An escaped mark in front of a glob is the mark itself. -/
theorem ofText?_atAnyDepth_escaped {c : Char} (hc : c = '!' ∨ c = '#') (rest : List Char) :
    Glob.ofText? (strictlyBelow (atAnyDepth false ('\\' :: c :: rest))) =
      Glob.ofText? (strictlyBelow (atAnyDepth false (c :: rest))) := by
  have hmark : c ∉ "/**".toList := by rcases hc with rfl | rfl <;> decide
  have hslash : c ≠ '/' := by rcases hc with rfl | rfl <;> decide
  have hstar : c ≠ '*' := by rcases hc with rfl | rfl <;> decide
  have hbelow (lead : List Char) := strictlyBelow_append hmark lead rest
  by_cases hrest : '/' ∈ rest
  · have hescaped : atAnyDepth false ('\\' :: c :: rest) = ['\\'] ++ c :: rest := by simp [atAnyDepth, hrest]
    have hplain : atAnyDepth false (c :: rest) = [] ++ c :: rest := by simp [atAnyDepth, hrest]
    rw [hescaped, hplain, hbelow, hbelow]
    exact Glob.ofText?_escaped hc _
  · have hescaped : atAnyDepth false ('\\' :: c :: rest) = ("**/".toList ++ ['\\']) ++ c :: rest := by
      simp [atAnyDepth, hrest, hslash.symm]
    have hplain : atAnyDepth false (c :: rest) = "**/".toList ++ c :: rest := by
      simp [atAnyDepth, hrest, hslash.symm, hstar]
    rw [hescaped, hplain, hbelow, hbelow, List.append_assoc]
    exact Glob.ofText?_anyDepth_escaped hc _

/-- The pattern with the same paths that keeps them. -/
def keeping (p : Pattern) : Pattern := { p with verdict := .keep }

@[simp] theorem keeping_covers (p : Pattern) : p.keeping.covers = p.covers := rfl

/-- What the marks of a line leave of it, read as a glob. -/
theorem ofLine?_eq {line text : List Char} {verdict : Verdict} {anchored : Bool} (hcomment : line.head? ≠ some '#')
    (hblank : trimLine line ≠ []) (hmarks : splitMarks (trimLine line) = (verdict, anchored, text)) :
    ofLine? line = (Glob.ofText? (strictlyBelow (atAnyDepth anchored (splitDirMark text).2))).map fun glob =>
      ⟨glob, verdict, (splitDirMark text).1⟩ := by
  unfold ofLine?
  simp [hcomment, hblank, hmarks]

/-- A line that is not marked leaves paths out, and with `!` in front it keeps the same paths. -/
theorem ofLine?_exclaimed {line : List Char} (h : ¬IsMarked line) :
    ofLine? ('!' :: line) = (ofLine? line).map keeping ∧ ∀ p, ofLine? line = some p → p.verdict = .leaveOut := by
  obtain ⟨hnegated, hcomment, hblank⟩ : line.head? ≠ some '!' ∧ line.head? ≠ some '#' ∧ trimLine line ≠ [] := by
    simpa [IsMarked] using h
  have hhead : (trimLine line).head? ≠ some '!' := by
    obtain ⟨blanks, hline⟩ := trimLine_prefix line
    cases htext : trimLine line with
    | nil => simp
    | cons c rest =>
      rw [← hline, htext] at hnegated
      exact hnegated
  obtain ⟨anchored, glob, glob', hmarks, hmarks', hglob⟩ := splitMarks_exclaimed hhead
  have hline := ofLine?_eq hcomment hblank hmarks
  have hline' : ofLine? ('!' :: line) = _ := ofLine?_eq (by simp) (by simp [trimLine_exclaimed])
    ((congrArg splitMarks (trimLine_exclaimed line)).trans hmarks')
  have hsame : (splitDirMark glob').1 = (splitDirMark glob).1 ∧
      Glob.ofText? (strictlyBelow (atAnyDepth anchored (splitDirMark glob').2)) =
        Glob.ofText? (strictlyBelow (atAnyDepth anchored (splitDirMark glob).2)) := by
    rcases hglob with rfl | ⟨c, rest, hc, rfl, rfl, rfl⟩
    · exact ⟨rfl, rfl⟩
    · obtain ⟨dirsOnly, rest', hsplit⟩ := splitDirMark_append (c := c) (by rcases hc with rfl | rfl <;> decide)
        (by rcases hc with rfl | rfl <;> decide) rest
      have hplain := hsplit []
      have hescaped := hsplit ['\\']
      rw [List.nil_append, List.nil_append] at hplain
      rw [List.singleton_append, List.singleton_append] at hescaped
      rw [hplain, hescaped]
      exact ⟨rfl, ofText?_atAnyDepth_escaped hc rest'⟩
  constructor
  · rw [hline', hline, hsame.1, hsame.2, Option.map_map]
    rfl
  · intro p hp
    rw [hline, Option.map_eq_some_iff] at hp
    obtain ⟨_, _, rfl⟩ := hp
    rfl

/-! ## Patterns that leave out -/

variable {patterns : List Pattern}

theorem decide_eq_leaveOut (h : ∀ p ∈ patterns, p.verdict = .leaveOut) (path : String) (isDir : Bool) :
    decide patterns path isDir =
      if patterns.any (·.covers path isDir) then some .leaveOut else none := by
  unfold decide
  cases hfind : patterns.reverse.find? (·.covers path isDir) with
  | none =>
    have hnone : patterns.any (·.covers path isDir) = false := by
      simpa [List.find?_eq_none] using hfind
    simp [hnone]
  | some p =>
    have hp : p ∈ patterns := List.mem_reverse.1 (List.mem_of_find?_eq_some hfind)
    have hany : patterns.any (·.covers path isDir) = true :=
      List.any_eq_true.2 ⟨p, hp, by simpa using List.find?_some hfind⟩
    simp [hany, h p hp]

/-- Patterns that all leave out leave out what one of them is for, at the file or above it. -/
theorem decideUpwards_eq_leaveOut (h : ∀ p ∈ patterns, p.verdict = .leaveOut) (path : String) :
    (decideUpwards patterns path == some .leaveOut) =
      (patterns.any (·.covers path false) || (Path.parents path).any fun dir => patterns.any (·.covers dir true)) := by
  have hup (dirs : List String) : dirs.findSome? (decide patterns · true) =
      if dirs.any fun dir => patterns.any (·.covers dir true) then some .leaveOut else none := by
    induction dirs with
    | nil => rfl
    | cons dir dirs ih =>
      rw [List.findSome?_cons, ih, decide_eq_leaveOut h, List.any_cons]
      cases patterns.any (·.covers dir true) <;> rfl
  rw [decideUpwards, decide_eq_leaveOut h, hup]
  cases patterns.any (·.covers path false) <;>
    cases (Path.parents path).any fun dir => patterns.any (·.covers dir true) <;> rfl

end Pattern

end GoApi.Discovery
