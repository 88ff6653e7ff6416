import GoApi.Build.Target
import GoApi.Proofs.Build.Grammar
import GoApi.Proofs.Text.Blank
import GoApi.Proofs.Text.Split

/-!
# The header, line by line

The scan of a header knows whether a block comment is open.  A line changes that and may hold a directive,
or it is code and ends the header (`scanLine`); so what comes behind some lines is scanned from the state
that they leave (`directivesOf_append`).

The first expression of a header decides alone, and a header whose first expression is no constraint
allows every target.  Without the line of that expression the same targets are allowed only as far as the
other directives allow them (`unparsable_ignored_iff`).
-/

namespace GoApi.Build

open Text

/-! ## One line and many lines -/

/-- What a line does to the scan: whether a block comment is open after it, and its directive; nothing if it
is a line of code. -/
def scanLine (inBlock : Bool) (line : List Char) : Option (Bool × Option Directive) :=
  if inBlock then some (!holds "*/".toList line, none)
  else
    match trim line with
    | [] => some (false, none)
    | '/' :: '*' :: more => some (!holds "*/".toList ('/' :: '*' :: more), none)
    | '/' :: '/' :: comment => some (false, directive? comment)
    | _ => none

/-- Whether a block comment is open after some lines; nothing if one of them is code. -/
def scanLines (inBlock : Bool) : List (List Char) → Option Bool
  | [] => some inBlock
  | line :: rest => (scanLine inBlock line).bind fun next => scanLines next.1 rest

/-- A line that starts with something else than a comment is code. -/
theorem scanLine_code (blanks : List Char) (hblanks : ∀ c ∈ blanks, isBlank c = true) {c : Char}
    (hc : isBlank c = false) (hslash : c ≠ '/') (text : List Char) :
    scanLine false (blanks ++ c :: text) = none := by
  simp only [scanLine, Bool.false_eq_true, if_false, trim_append_cons hblanks hc]
  split
  · next h => cases h
  · next h => exact absurd (List.cons.inj h).1 hslash
  · next h => exact absurd (List.cons.inj h).1 hslash
  · rfl

theorem directivesOf_cons (inBlock : Bool) (line : List Char) (rest : List (List Char)) :
    directivesOf inBlock (line :: rest) =
      (scanLine inBlock line).elim [] fun next => next.2.toList ++ directivesOf next.1 rest := by
  cases inBlock with
  | true => simp [directivesOf, scanLine]
  | false =>
    simp only [directivesOf, scanLine, Bool.false_eq_true, if_false]
    generalize trim line = text
    split <;> simp

/-- The lines of a header are scanned from the state that the lines before them leave. -/
theorem directivesOf_append (inBlock : Bool) (lines rest : List (List Char)) :
    directivesOf inBlock (lines ++ rest) =
      directivesOf inBlock lines ++ (scanLines inBlock lines).elim [] fun after => directivesOf after rest := by
  induction lines generalizing inBlock with
  | nil => simp [scanLines, directivesOf]
  | cons line lines ih =>
    rw [List.cons_append, directivesOf_cons, directivesOf_cons, scanLines]
    cases scanLine inBlock line with
    | none => rfl
    | some next => simp only [Option.elim_some, Option.bind_some, ih, List.append_assoc]

theorem directives_after (text rest : String) :
    directives (text ++ "\n" ++ rest) =
      directives text ++
        (scanLines false (splitOn '\n' text.toList)).elim [] fun inBlock =>
          directivesOf inBlock (splitOn '\n' rest.toList) := by
  have htext : (text ++ "\n" ++ rest).toList = text.toList ++ '\n' :: rest.toList := by simp
  rw [directives, htext, splitOn_append_sep, directivesOf_append, directives]

theorem scanLines_append (inBlock : Bool) (lines rest : List (List Char)) :
    scanLines inBlock (lines ++ rest) = (scanLines inBlock lines).bind fun after => scanLines after rest := by
  induction lines generalizing inBlock with
  | nil => rfl
  | cons line lines ih =>
    rw [List.cons_append, scanLines, scanLines]
    cases scanLine inBlock line with
    | none => rfl
    | some next => exact ih next.1

/-- A blank line and the package clause add nothing to the directives in front of them. -/
theorem directives_clause {header : String} (h : scanLines false (splitOn '\n' header.toList) = some false)
    (body : String) : directives (header ++ "\n\npackage " ++ body) = directives header := by
  obtain ⟨piece, rest, hsplit⟩ := List.exists_cons_of_ne_nil (splitOn_ne_nil '\n' ("ackage ".toList ++ body.toList))
  have hlines : splitOn '\n' ("\npackage " ++ body).toList = [] :: ('p' :: piece) :: rest := by
    rw [String.toList_append]
    exact (splitOn_sep_cons '\n' _).trans (congrArg _ (splitOn_cons_of_ne '\n' (by decide) hsplit))
  have hsource : header ++ "\n\npackage " ++ body = header ++ "\n" ++ ("\npackage " ++ body) := by
    rw [show "\n\npackage " = "\n" ++ "\npackage " from rfl]
    simp only [String.append_assoc]
  have hblank : scanLine false [] = some (false, none) := rfl
  have hcode : scanLine false ('p' :: piece) = none := scanLine_code [] nofun rfl (by decide) piece
  rw [hsource, directives_after, h, Option.elim_some, hlines, directivesOf_cons, hblank, Option.elim_some,
    directivesOf_cons, hcode, Option.elim_none]
  simp

theorem scanLine_comment {comment : List Char} (h : Tight ('/' :: '/' :: comment)) :
    scanLine false ('/' :: '/' :: comment) = some (false, directive? comment) := by
  have htrim : trim ('/' :: '/' :: comment) = '/' :: '/' :: comment := h.trim_append [] nofun
  simp [scanLine, htrim]

theorem directive?_expression {text : List Char} (h : Tight text) :
    directive? ("go:build ".toList ++ text) = some (.expression (String.ofList text)) := by
  have htrim : trim (' ' :: text) = text := h.trim_append [' '] (List.forall_mem_singleton.2 rfl)
  show (argument? (' ' :: text)).map Directive.expression = _
  simp [argument?, htrim]

theorem directive?_options {text : List Char} (h : Tight text) :
    directive? (" +build ".toList ++ text) = some (.options (String.ofList text)) := by
  have htrim : trim (' ' :: text) = text := h.trim_append [' '] (List.forall_mem_singleton.2 rfl)
  show (argument? (' ' :: text)).map Directive.options = _
  simp [argument?, htrim]

/-! ## What directives allow -/

/-- The first expression among directives. -/
def firstExpression? (ds : List Directive) : Option String :=
  ds.findSome? fun d => match d with | .expression text => some text | .options _ => none

theorem firstExpression?_append (ds es : List Directive) :
    firstExpression? (ds ++ es) = (firstExpression? ds).or (firstExpression? es) :=
  List.findSome?_append ..

theorem admitsDirectives_eq (t : Target) (ds : List Directive) :
    t.admitsDirectives ds =
      match firstExpression? ds with
      | some text =>
        match Expr.parse text with
        | .ok e => e.eval t.satisfies
        | .error _ => true
      | none => ds.all fun d => match d with | .expression _ => true | .options text => t.satisfiesOptions text :=
  rfl

theorem admitsDirectives_of_first (t : Target) {ds : List Directive} {text : String}
    (h : firstExpression? ds = some text) :
    t.admitsDirectives ds = true ↔ ∀ e, Expr.parse text = .ok e → e.eval t.satisfies = true := by
  simp only [admitsDirectives_eq, h]
  cases Expr.parse text <;> simp

theorem admitsDirectives_of_none (t : Target) {ds : List Directive} (h : firstExpression? ds = none) :
    t.admitsDirectives ds = true ↔ ∀ text, .options text ∈ ds → t.satisfiesOptions text = true := by
  rw [admitsDirectives_eq, h, List.all_eq_true]
  constructor
  · intro hall text htext
    exact hall _ htext
  · intro hall d hd
    cases d with
    | expression => rfl
    | options text => exact hall text hd

/-- The first expression decides alone. -/
theorem admitsDirectives_append (t : Target) {ds : List Directive} (h : (firstExpression? ds).isSome = true)
    (es : List Directive) : t.admitsDirectives (ds ++ es) = t.admitsDirectives ds := by
  obtain ⟨text, htext⟩ := Option.isSome_iff_exists.1 h
  have happend : firstExpression? (ds ++ es) = some text := by rw [firstExpression?_append, htext, Option.some_or]
  rw [Bool.eq_iff_iff, admitsDirectives_of_first t htext, admitsDirectives_of_first t happend]

/-! ## A line that is no constraint -/

/-- The text with these lines. -/
def ofLines (lines : List (List Char)) : String := String.ofList (joinText ['\n'] lines)

theorem directives_ofLines {lines : List (List Char)} (h : ∀ line ∈ lines, '\n' ∉ line) :
    directives (ofLines lines) = directivesOf false lines := by
  rw [directives, ofLines, String.toList_ofList]
  cases lines with
  | nil => rfl
  | cons line lines => rw [splitOn_joinText '\n' (List.cons_ne_nil line lines) h]

/-- A line of the header, outside block comments, that states its first expression. -/
structure StatesFirst (before : List (List Char)) (line : List Char) (text : String) : Prop where
  reached : scanLines false before = some false
  first : firstExpression? (directivesOf false before) = none
  states : scanLine false line = some (false, some (.expression text))

theorem StatesFirst.directivesOf_eq {before : List (List Char)} {line : List Char} {text : String}
    (h : StatesFirst before line text) (after : List (List Char)) :
    directivesOf false (before ++ line :: after) =
        directivesOf false before ++ .expression text :: directivesOf false after ∧
      directivesOf false (before ++ after) = directivesOf false before ++ directivesOf false after := by
  rw [directivesOf_append, directivesOf_append, h.reached]
  refine ⟨?_, rfl⟩
  simp only [Option.elim_some, directivesOf_cons, h.states, Option.toList_some, List.singleton_append]

/-- A header whose first expression is no constraint allows every target.  To delete the line changes nothing
exactly if the directives that are left allow the target: the next expression, if there is one, or else all
options. -/
theorem unparsable_ignored_iff (t : Target) {source : String} {before after : List (List Char)}
    {line : List Char} {text : String} {cause : Expr.Cause}
    (hsource : splitOn '\n' source.toList = before ++ line :: after) (hfirst : StatesFirst before line text)
    (herror : Expr.parse text = .error cause) :
    t.admitsSource source = true ∧
      directives (ofLines (before ++ after)) = directivesOf false before ++ directivesOf false after ∧
      (t.admitsSource source = t.admitsSource (ofLines (before ++ after)) ↔
        (∀ later, firstExpression? (directivesOf false after) = some later →
            ∀ e, Expr.parse later = .ok e → e.eval t.satisfies = true) ∧
          (firstExpression? (directivesOf false after) = none →
            ∀ options, .options options ∈ directivesOf false before ++ directivesOf false after →
              t.satisfiesOptions options = true)) := by
  obtain ⟨hwith, hwithout⟩ := hfirst.directivesOf_eq after
  have hlines : ∀ l ∈ before ++ after, '\n' ∉ l := by
    intro l hl
    have hmem : l ∈ splitOn '\n' source.toList := by
      rw [hsource]
      exact ((List.Sublist.refl before).append (List.sublist_cons_self line after)).subset hl
    exact notMem_of_mem_splitOn '\n' hmem
  have hleft := (directives_ofLines hlines).trans hwithout
  have hadmits : t.admitsSource source = true := by
    rw [Target.admitsSource, directives, hsource, hwith]
    have hthis : firstExpression? (directivesOf false before ++ .expression text :: directivesOf false after) =
        some text := by
      rw [firstExpression?_append, hfirst.first]
      rfl
    rw [admitsDirectives_of_first t hthis, herror]
    nofun
  refine ⟨hadmits, hleft, ?_⟩
  have hnext : firstExpression? (directivesOf false before ++ directivesOf false after) =
      firstExpression? (directivesOf false after) := by
    rw [firstExpression?_append, hfirst.first, Option.none_or]
  rw [hadmits, eq_comm, Target.admitsSource, hleft]
  cases hlater : firstExpression? (directivesOf false after) with
  | none => simpa using admitsDirectives_of_none t (hnext.trans hlater)
  | some later => simpa using admitsDirectives_of_first t (hnext.trans hlater)

/-- A later expression that holds: the malformed line above it can be deleted, and options do not count. -/
theorem unparsable_ignored_superseded :
    StatesFirst ["// Package p.".toList, "// +build windows".toList] "//go:build linux &&".toList "linux &&" ∧
      Expr.parse "linux &&" = .error .endOfText ∧
      ({} : Target).admitsSource
          "// Package p.\n// +build windows\n//go:build linux &&\n//go:build unix\n\npackage p\n" =
        ({} : Target).admitsSource "// Package p.\n// +build windows\n//go:build unix\n\npackage p\n" := by
  have hfirst : StatesFirst ["// Package p.".toList, "// +build windows".toList] "//go:build linux &&".toList
      "linux &&" :=
    ⟨by decide +kernel, by decide +kernel, by decide +kernel⟩
  have herror : Expr.parse "linux &&" = .error .endOfText := parse_dangling "linux".toList (by decide +kernel)
  have hsource : splitOn '\n'
      "// Package p.\n// +build windows\n//go:build linux &&\n//go:build unix\n\npackage p\n".toList =
        ["// Package p.".toList, "// +build windows".toList] ++ "//go:build linux &&".toList ::
          ["//go:build unix".toList, [], "package p".toList, []] := by decide +kernel
  have hlater : firstExpression? (directivesOf false ["//go:build unix".toList, [], "package p".toList, []]) =
      some "unix" := by decide +kernel
  refine ⟨hfirst, herror, (unparsable_ignored_iff {} hsource hfirst herror).2.2.2 ⟨?_, ?_⟩⟩
  · intro later h e he
    rw [hlater] at h
    cases h
    have hunix : Expr.parse "unix" = .ok (.tag "unix") := parse_tag (by decide) (List.all_eq_true.1 (by decide))
    rw [hunix] at he
    cases he
    decide +kernel
  · rw [hlater]
    intro hnone
    cases hnone

/-- Options count when no expression does, but a malformed expression hides them. -/
theorem unparsable_hides_options :
    StatesFirst [] "//go:build linux &&".toList "linux &&" ∧ Expr.parse "linux &&" = .error .endOfText ∧
      ({} : Target).admitsSource "//go:build linux &&\n// +build windows\n\npackage p\n" = true ∧
      ({} : Target).admitsSource "// +build windows\n\npackage p\n" = false := by
  have herror : Expr.parse "linux &&" = .error .endOfText := parse_dangling "linux".toList (by decide +kernel)
  refine ⟨⟨by decide +kernel, by decide +kernel, by decide +kernel⟩, herror, ?_, by decide +kernel⟩
  have hfirst : firstExpression? (directives "//go:build linux &&\n// +build windows\n\npackage p\n") =
      some "linux &&" := by decide +kernel
  refine (admitsDirectives_of_first _ hfirst).2 fun e he => ?_
  rw [herror] at he
  cases he

end GoApi.Build
