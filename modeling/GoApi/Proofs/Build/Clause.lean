import GoApi.Proofs.Build.Header

/-!
# The package clause ends the header

Before the package clause of a source stand white space and comments (`Comments`).  Where the clause starts
a line, the scan of the header ends there, whatever the comments are: a block comment that the scan sees
begin is closed before (`Comments.closes`).  Where a comment stands in front of the clause on its line, the
scan can go past the clause, and then a directive behind the clause decides if no expression stands in
front of it (`header_decides_iff`).
-/

namespace GoApi.Build

open Text

/-! ## Comments -/

/-- White space and complete comments: a line comment up to the end of its line, a block comment up to the
first `*/`. -/
inductive Comments : List Char → Prop where
  | done : Comments []
  | blank {c : Char} {text : List Char} (hc : isBlank c = true) (h : Comments text) : Comments (c :: text)
  | line {body text : List Char} (hbody : '\n' ∉ body) (h : Comments text) :
      Comments ('/' :: '/' :: (body ++ '\n' :: text))
  | block {body text : List Char} (hbody : ¬['*', '/'] <:+: body) (h : Comments text) :
      Comments ('/' :: '*' :: (body ++ '*' :: '/' :: text))

/-- What stands on the last line of a text is blank, so that what follows starts a line. -/
def StartsLine (text : List Char) : Prop :=
  ∀ tail, tail <:+ text → '\n' ∉ tail → ∀ c ∈ tail, isBlank c = true

theorem StartsLine.of_append {x y : List Char} (h : StartsLine (x ++ y)) : StartsLine y :=
  fun tail htail => h tail (htail.trans (List.suffix_append x y))

theorem StartsLine.tail {c : Char} {text : List Char} (h : StartsLine (c :: text)) : StartsLine text :=
  StartsLine.of_append (x := [c]) h

theorem StartsLine.isBlank_last {x : List Char} {c : Char} (h : StartsLine (x ++ [c])) : isBlank c = true := by
  by_cases hc : c = '\n'
  · rw [hc]
    rfl
  · exact h [c] (List.suffix_append x [c]) (by simpa using Ne.symm hc) c (List.mem_singleton_self c)

theorem startsLine_append {pre blanks : List Char} (hpre : pre = [] ∨ ∃ q, pre = q ++ ['\n'])
    (hblanks : ∀ c ∈ blanks, isBlank c = true) : StartsLine (pre ++ blanks) := by
  rintro tail ⟨front, hfront⟩ htail c hc
  rcases List.append_eq_append_iff.1 hfront with ⟨a, hpre', rfl⟩ | ⟨a, -, rfl⟩
  · -- the tail starts in front of the blanks, so it would hold the line break
    rcases hpre with rfl | ⟨q, rfl⟩
    · rw [(List.append_eq_nil_iff.1 hpre'.symm).2, List.nil_append] at hc
      exact hblanks c hc
    · rcases List.eq_nil_or_concat a with rfl | ⟨a, d, rfl⟩
      · exact hblanks c (by simpa using hc)
      · rw [List.concat_eq_append, ← List.append_assoc] at hpre'
        obtain ⟨-, hd⟩ := List.append_inj' hpre' rfl
        cases hd
        exact absurd (by simp) htail
  · exact hblanks c (List.mem_append_right a hc)

/-- A block comment that starts a line is closed behind its beginning. -/
theorem Comments.closes {text : List Char} (h : Comments text) {pre rest : List Char} (hpre : StartsLine pre)
    (htext : text = pre ++ '/' :: '*' :: rest) : ['*', '/'] <:+: '/' :: '*' :: rest := by
  induction h generalizing pre with
  | done => simp at htext
  | blank hc _ ih =>
    cases pre with
    | nil =>
      cases htext
      exact absurd hc (by decide)
    | cons d pre =>
      rw [List.cons_append, List.cons.injEq] at htext
      exact ih hpre.tail htext.2
  | @line body text hbody _ ih =>
    have hcut : ('/' :: '/' :: body) ++ '\n' :: text = pre ++ '/' :: '*' :: rest := htext
    rcases List.append_eq_append_iff.1 hcut with ⟨a, rfl, htail⟩ | ⟨a, hline, hsuffix⟩
    · cases a with
      | nil => simp at htail
      | cons d a =>
        rw [List.cons_append, List.cons.injEq] at htail
        exact ih hpre.of_append.tail htail.2
    · -- the line of the comment has no break, and it does not start with a blank
      cases pre with
      | nil =>
        rw [List.nil_append] at hline
        rw [← hline] at hsuffix
        simp at hsuffix
      | cons d pre =>
        have hnone : '\n' ∉ d :: pre := by
          intro hmem
          have hbreak : '\n' ∈ '/' :: '/' :: body := hline ▸ List.mem_append_left a hmem
          simp [hbody] at hbreak
        have hd := hpre _ (List.suffix_refl _) hnone d (List.mem_cons_self ..)
        rw [List.cons_append, List.cons.injEq] at hline
        rw [← hline.1] at hd
        exact absurd hd (by decide)
  | @block body text _ _ ih =>
    have hcut : (('/' :: '*' :: body) ++ ['*', '/']) ++ text = pre ++ '/' :: '*' :: rest := by
      rw [← htext]
      simp
    rcases List.append_eq_append_iff.1 hcut with ⟨a, rfl, htail⟩ | ⟨a, hblock, hsuffix⟩
    · exact ih hpre.of_append htail
    rcases List.append_eq_append_iff.1 hblock with ⟨b, rfl, hclose⟩ | ⟨b, -, rfl⟩
    · -- what starts a line does not end inside the mark that closes the comment
      rcases List.eq_nil_or_concat b with rfl | ⟨b, d, rfl⟩
      · rw [List.nil_append] at hclose
        rw [← hclose] at hsuffix
        cases hsuffix
      · rw [List.concat_eq_append, ← List.append_assoc] at hpre
        have hd : d ∈ ['*', '/'] := hclose ▸ by simp
        have hblank := hpre.isBlank_last
        simp only [List.mem_cons, List.not_mem_nil, or_false] at hd
        rcases hd with rfl | rfl <;> exact absurd hblank (by decide)
    · exact ⟨b, text, hsuffix.symm⟩

/-! ## The scan of comments -/

theorem not_closed_of_blank {blanks : List Char} (hblanks : ∀ c ∈ blanks, isBlank c = true) :
    ¬['*', '/'] <:+: blanks := by
  intro h
  exact absurd (hblanks '*' (h.subset (by decide))) (by decide)

theorem closed_of_append_blanks {text blanks : List Char} (hblanks : ∀ c ∈ blanks, isBlank c = true)
    (h : ['*', '/'] <:+: text ++ blanks) : ['*', '/'] <:+: text := by
  cases blanks with
  | nil => rwa [List.append_nil] at h
  | cons b blanks =>
    obtain ⟨hb, hblanks⟩ := List.forall_mem_cons.1 hblanks
    have hmark : b ∉ ['*', '/'] := by
      intro hmem
      simp only [List.mem_cons, List.not_mem_nil, or_false] at hmem
      rcases hmem with rfl | rfl <;> exact absurd hb (by decide)
    exact ((infix_append_sep_iff b hmark text blanks).1 h).resolve_right (not_closed_of_blank hblanks)

/-- A line after which a block comment is open leaves it open or begins it. -/
theorem scanLine_open {inBlock : Bool} {line : List Char} {d : Option Directive}
    (h : scanLine inBlock line = some (true, d)) :
    inBlock = true ∧ ¬['*', '/'] <:+: line ∨
      (∃ more, trim line = '/' :: '*' :: more) ∧ ¬['*', '/'] <:+: trim line := by
  have hmark : "*/".toList = ['*', '/'] := rfl
  cases inBlock with
  | true =>
    simp only [scanLine, if_true, hmark, Option.some.injEq, Prod.mk.injEq, Bool.not_eq_true'] at h
    exact Or.inl ⟨rfl, fun hclosed => by simp [(holds_eq_true_iff _ _).2 hclosed] at h⟩
  | false =>
    simp only [scanLine, Bool.false_eq_true, if_false, hmark] at h
    split at h
    · cases h
    · next more htrim =>
      simp only [Option.some.injEq, Prod.mk.injEq, Bool.not_eq_true'] at h
      rw [htrim]
      exact Or.inr ⟨⟨more, rfl⟩, fun hclosed => by simp [(holds_eq_true_iff _ _).2 hclosed] at h⟩
    · cases h
    · cases h

/-- A block comment is open after some lines only if it was before or one of them begins it, and no line
closes it. -/
theorem scanLines_open {inBlock : Bool} {lines : List (List Char)} (h : scanLines inBlock lines = some true) :
    (inBlock = true ∧ ∀ line ∈ lines, ¬['*', '/'] <:+: line) ∨
      ∃ before line after, lines = before ++ line :: after ∧ (∃ more, trim line = '/' :: '*' :: more) ∧
        ¬['*', '/'] <:+: trim line ∧ ∀ l ∈ after, ¬['*', '/'] <:+: l := by
  induction lines generalizing inBlock with
  | nil =>
    cases h
    exact Or.inl ⟨rfl, nofun⟩
  | cons line lines ih =>
    rw [scanLines] at h
    cases hline : scanLine inBlock line with
    | none => simp [hline] at h
    | some next =>
      obtain ⟨after, d⟩ := next
      simp only [hline] at h
      rcases ih h with ⟨rfl, hlines⟩ | ⟨before, first, after', rfl, hfirst⟩
      · rcases scanLine_open hline with ⟨hblock, hopen⟩ | ⟨hbegin, hopen⟩
        · exact Or.inl ⟨hblock, List.forall_mem_cons.2 ⟨hopen, hlines⟩⟩
        · exact Or.inr ⟨[], line, lines, rfl, hbegin, hopen, hlines⟩
      · exact Or.inr ⟨line :: before, first, after', rfl, hfirst⟩

/-- Complete comments leave no block comment open at the start of a line. -/
theorem Comments.not_open {text last : List Char} {init : List (List Char)} (h : Comments text)
    (hlines : splitOn '\n' text = init ++ [last]) (hlast : ∀ c ∈ last, isBlank c = true) :
    scanLines false init ≠ some true := by
  intro hscan
  rcases scanLines_open hscan with ⟨hfalse, -⟩ | ⟨before, line, after, rfl, ⟨more, htrim⟩, hopen, hafter⟩
  · cases hfalse
  obtain ⟨next, tail, htail⟩ :=
    List.exists_cons_of_ne_nil (List.append_ne_nil_of_right_ne_nil after (List.cons_ne_nil last []))
  rw [List.append_assoc, List.cons_append, htail] at hlines
  obtain ⟨pre, rest, rfl, hpre, hrest⟩ := exists_of_splitOn_append '\n' hlines
  obtain ⟨front, back, hline, hfront, hback⟩ := exists_trim line
  have htext : pre ++ (line ++ '\n' :: rest) =
      (pre ++ front) ++ '/' :: '*' :: (more ++ back ++ '\n' :: rest) := by
    conv_lhs => rw [hline, htrim]
    simp
  have hclosed : ['*', '/'] <:+: (trim line ++ back) ++ '\n' :: rest := by
    rw [htrim]
    simpa using h.closes (startsLine_append hpre hfront) htext
  rcases (infix_append_sep_iff '\n' (by decide) _ _).1 hclosed with hclosed | hclosed
  · exact hopen (closed_of_append_blanks hback hclosed)
  · obtain ⟨piece, hpiece, hinside⟩ := (infix_iff_exists_piece '\n' (by decide) rest).1 hclosed
    rw [hrest, ← htail] at hpiece
    rcases List.mem_append.1 hpiece with hmem | hmem
    · exact hafter piece hmem hinside
    · rw [List.mem_singleton.1 hmem] at hinside
      exact not_closed_of_blank hlast hinside

/-! ## The clause -/

/-- The scan of a text comes to a line of code. -/
def ReachesCode (text : String) : Prop := scanLines false (splitOn '\n' text.toList) = none

/-- The clause is code when it starts a line. -/
theorem Comments.reachesCode {h : String} (hh : Comments h.toList) (hstarts : StartsLine h.toList) :
    ReachesCode (h ++ "package p") := by
  obtain ⟨init, last, hsuffix, hbreak, hlines⟩ := exists_lastPiece '\n' h.toList
  have hlast := hstarts last hsuffix hbreak
  have hwhole : splitOn '\n' h.toList = init ++ [last] := by simpa using hlines [] nofun
  rw [ReachesCode, String.toList_append, hlines _ (by decide), scanLines_append]
  cases hscan : scanLines false init with
  | none => rfl
  | some inBlock =>
    cases inBlock with
    | true => exact absurd hscan (hh.not_open hwhole hlast)
    | false =>
      have hcode : scanLine false (last ++ "package p".toList) = none :=
        scanLine_code last hlast rfl (by decide) "ackage p".toList
      rw [Option.bind_some, scanLines, hcode, Option.bind_none]

theorem admitsDirectives_append_expression (t : Target) {ds : List Directive} (h : firstExpression? ds = none)
    {text : String} {e : Expr} (he : Expr.parse text = .ok e) :
    t.admitsDirectives (ds ++ [.expression text]) = e.eval t.satisfies := by
  have hfirst : firstExpression? (ds ++ [.expression text]) = some text := by
    rw [firstExpression?_append, h]
    rfl
  rw [Bool.eq_iff_iff, admitsDirectives_of_first t hfirst, he]
  simp

/-- A source whose header scan has gone past some text can still be decided either way. -/
theorem undecided_of_scanLines (t : Target) {text : String} {inBlock : Bool}
    (hscan : scanLines false (splitOn '\n' text.toList) = some inBlock)
    (hfirst : firstExpression? (directives text) = none) :
    t.admitsSource (text ++ "\n" ++ "/**/\n//go:build gc") = true ∧
      t.admitsSource (text ++ "\n" ++ "/**/\n//go:build !gc") = false := by
  have hgc : t.satisfies "gc" = true := by simp [Target.satisfies]
  -- the first line closes an open comment and is a comment otherwise
  have hyes : directivesOf inBlock (splitOn '\n' "/**/\n//go:build gc".toList) = [.expression "gc"] := by
    cases inBlock <;> decide +kernel
  have hno : directivesOf inBlock (splitOn '\n' "/**/\n//go:build !gc".toList) = [.expression "!gc"] := by
    cases inBlock <;> decide +kernel
  constructor
  · have he : Expr.parse "gc" = .ok (.tag "gc") := parse_tag (by decide) (List.all_eq_true.1 (by decide))
    rw [Target.admitsSource, directives_after, hscan, Option.elim_some, hyes,
      admitsDirectives_append_expression t hfirst he]
    exact hgc
  · have he : Expr.parse "!gc" = .ok (.not (.tag "gc")) :=
      (parse_eq_ok_iff _ _).2 ⟨.mk (.mk (.not (.tag "gc".toList)) .nil) .nil,
        spells_of_tokenize (by decide +kernel), by decide +kernel⟩
    rw [Target.admitsSource, directives_after, hscan, Option.elim_some, hno,
      admitsDirectives_append_expression t hfirst he]
    simp [Expr.eval, hgc]

/-- For white space and complete comments in front of a package clause that starts a line, nothing behind the
clause decides.  In general it is so exactly if the scan comes to a line of code up to the clause, or finds an
expression up to there. -/
theorem header_decides_iff (t : Target) (h : String) (hh : Comments h.toList) :
    (StartsLine h.toList → ∀ r₁ r₂ : String,
        t.admitsSource (h ++ "package p\n" ++ r₁) = t.admitsSource (h ++ "package p\n" ++ r₂)) ∧
      ((∀ r₁ r₂ : String,
          t.admitsSource (h ++ "package p\n" ++ r₁) = t.admitsSource (h ++ "package p\n" ++ r₂)) ↔
        ReachesCode (h ++ "package p") ∨ (firstExpression? (directives (h ++ "package p"))).isSome = true) := by
  have hsource : ∀ r : String, h ++ "package p\n" ++ r = h ++ "package p" ++ "\n" ++ r := by
    intro r
    rw [show "package p\n" = "package p" ++ "\n" from rfl, ← String.append_assoc]
  have hcode : ReachesCode (h ++ "package p") → ∀ r : String,
      t.admitsSource (h ++ "package p\n" ++ r) = t.admitsDirectives (directives (h ++ "package p")) := by
    intro hreaches r
    rw [hsource, Target.admitsSource, directives_after, hreaches, Option.elim_none, List.append_nil]
  refine ⟨fun hstarts r₁ r₂ => ?_, fun hall => ?_, fun hcase r₁ r₂ => ?_⟩
  · rw [hcode (hh.reachesCode hstarts), hcode (hh.reachesCode hstarts)]
  · cases hscan : scanLines false (splitOn '\n' (h ++ "package p").toList) with
    | none => exact Or.inl hscan
    | some inBlock =>
      cases hfirst : firstExpression? (directives (h ++ "package p")) with
      | some text => exact Or.inr rfl
      | none =>
        obtain ⟨hyes, hno⟩ := undecided_of_scanLines t hscan hfirst
        have hsame := hall "/**/\n//go:build gc" "/**/\n//go:build !gc"
        rw [hsource, hsource, hyes, hno] at hsame
        cases hsame
  · rcases hcase with hreaches | hsome
    · rw [hcode hreaches, hcode hreaches]
    · rw [hsource, hsource, Target.admitsSource, Target.admitsSource, directives_after, directives_after,
        admitsDirectives_append t hsome, admitsDirectives_append t hsome]

/-- A block comment of two lines, a line comment behind it and a blank in front of the clause. -/
theorem header_decides_indented :
    Comments "/* a\n * b **/ // c\n\t".toList ∧ StartsLine "/* a\n * b **/ // c\n\t".toList ∧
      ∀ r₁ r₂ : String, ({} : Target).admitsSource ("/* a\n * b **/ // c\n\t" ++ "package p\n" ++ r₁) =
        ({} : Target).admitsSource ("/* a\n * b **/ // c\n\t" ++ "package p\n" ++ r₂) := by
  have hcomments : Comments "/* a\n * b **/ // c\n\t".toList :=
    @Comments.block " a\n * b *".toList " // c\n\t".toList (by decide)
      (.blank rfl (@Comments.line " c".toList ['\t'] (by decide) (.blank rfl .done)))
  have hstarts : StartsLine "/* a\n * b **/ // c\n\t".toList :=
    startsLine_append (Or.inr ⟨"/* a\n * b **/ // c".toList, rfl⟩) (List.forall_mem_singleton.2 rfl)
  exact ⟨hcomments, hstarts, (header_decides_iff {} _ hcomments).1 hstarts⟩

/-- Behind a block comment on its line the clause is not seen, and a directive below it counts. -/
theorem comment_hides_clause :
    Comments "/* doc */ ".toList ∧
      ({} : Target).admitsSource ("/* doc */ " ++ "package p\n" ++ "") = true ∧
      ({} : Target).admitsSource ("/* doc */ " ++ "package p\n" ++ "//go:build ignore\n") = false := by
  refine ⟨@Comments.block " doc ".toList [' '] (by decide) (.blank rfl .done), by decide +kernel, ?_⟩
  have hdirectives : directives ("/* doc */ " ++ "package p\n" ++ "//go:build ignore\n") =
      [.expression "ignore"] := by decide +kernel
  have he : Expr.parse "ignore" = .ok (.tag "ignore") := parse_tag (by decide) (List.all_eq_true.1 (by decide))
  rw [Target.admitsSource, hdirectives]
  have hnone : firstExpression? [] = none := rfl
  exact (admitsDirectives_append_expression {} hnone he).trans (by decide)

end GoApi.Build
