import GoApi.Proofs.Build.Grammar
import GoApi.Proofs.Build.Header

/-!
# Option lines and the expression they stand for

Lines `// +build` state options separated by blanks, and an option is terms separated by commas.  The same
constraint is written as one expression: all lines hold, of each line some option holds, and of an option
all terms hold.  A source with the lines and a source with the expression take part in the same builds
(`options_agree_expression`), because both say

    lines.all fun line => line.any fun option => option.all fun term => …
-/

namespace GoApi.Build

open Text

/-! ## Constraints -/

/-- One item or more. -/
structure Items (α : Type) where
  first : α
  more : List α

namespace Items

variable {α β : Type}

def toList (xs : Items α) : List α := xs.first :: xs.more

def map (f : α → β) (xs : Items α) : Items β := ⟨f xs.first, xs.more.map f⟩

theorem toList_ne_nil (xs : Items α) : xs.toList ≠ [] := List.cons_ne_nil _ _

@[simp] theorem toList_map (f : α → β) (xs : Items α) : (xs.map f).toList = xs.toList.map f := rfl

end Items

/-- A tag that has to hold or, negated, not to hold. -/
structure Term where
  negated : Bool
  name : List Char
  nonempty : name ≠ []
  word : ∀ c ∈ name, isTagChar c = true

/-- Lines of options of terms. -/
abbrev Constraint := Items (Items (Items Term))

/-- A term as it is written in both forms. -/
def Term.text (term : Term) : String :=
  if term.negated then "!" ++ String.ofList term.name else String.ofList term.name

/-- The text of a line behind `// +build`. -/
def optionsText (line : Items (Items Term)) : String :=
  join " " (line.toList.map fun option => join "," (option.toList.map Term.text))

/-- The constraint in lines. -/
def Constraint.lines (c : Constraint) : String :=
  join "\n" (c.toList.map fun line => "// +build " ++ optionsText line)

/-- The constraint in one expression. -/
def Constraint.expression (c : Constraint) : String :=
  join " && " (c.toList.map fun line =>
    "(" ++ join " || " (line.toList.map fun option =>
      "(" ++ join " && " (option.toList.map Term.text) ++ ")") ++ ")")

/-- Whether a term holds when exactly the tags of `holds` do. -/
def Term.eval (holds : String → Bool) (term : Term) : Bool :=
  holds (String.ofList term.name) != term.negated

/-- Whether a constraint holds when exactly the tags of `holds` do. -/
def Constraint.eval (holds : String → Bool) (c : Constraint) : Bool :=
  c.toList.all fun line => line.toList.any fun option => option.toList.all (Term.eval holds)

/-! ## Terms -/

theorem isBlank_of_isTagChar {c : Char} (h : isTagChar c = true) : isBlank c = false :=
  not_isBlank_of_class (by decide +kernel) h

theorem Term.toList_text (term : Term) :
    term.text.toList = if term.negated then '!' :: term.name else term.name := by
  unfold Term.text
  cases term.negated <;> simp

theorem Term.text_ne_nil (term : Term) : term.text.toList ≠ [] := by
  rw [term.toList_text]
  split
  · exact List.cons_ne_nil _ _
  · exact term.nonempty

theorem Term.mem_text {term : Term} {c : Char} (h : c ∈ term.text.toList) : isBlank c = false ∧ c ≠ ',' := by
  have hname : ∀ d ∈ term.name, isBlank d = false ∧ d ≠ ',' := by
    intro d hd
    have hd' := term.word d hd
    refine ⟨isBlank_of_isTagChar hd', ?_⟩
    rintro rfl
    cases hd'
  rw [term.toList_text] at h
  split at h
  · rcases List.mem_cons.1 h with rfl | h
    · exact ⟨rfl, by decide⟩
    · exact hname c h
  · exact hname c h

/-- A leading `!` turns the answer for the name after it around. -/
theorem Term.satisfiesTerm (t : Target) (term : Term) :
    t.satisfiesTerm term.text.toList = term.eval t.satisfies := by
  rw [term.toList_text, Term.eval]
  cases term.negated with
  | true => simp [Target.satisfiesTerm]
  | false =>
    obtain ⟨c, rest, hname⟩ := List.exists_cons_of_ne_nil term.nonempty
    have hc : c ≠ '!' := by
      rintro rfl
      exact absurd (term.word '!' (by simp [hname])) (by decide)
    simp only [Bool.false_eq_true, if_false, hname, Target.satisfiesTerm]
    split
    · next h => exact absurd (List.cons.inj h).1 hc
    · simp

/-! ## The expression -/

def Operands.ofList : List Operand → Operands
  | [] => .nil
  | o :: os => .cons o (ofList os)

def Conjunctions.ofList : List Operand → Conjunctions
  | [] => .nil
  | o :: os => .cons (.mk o .nil) (ofList os)

/-- The tree of operands joined by `&&`. -/
def allOf (xs : Items Operand) : Disjunction := .mk (.mk xs.first (.ofList xs.more)) .nil

/-- The tree of operands joined by `||`. -/
def anyOf (xs : Items Operand) : Disjunction := .mk (.mk xs.first .nil) (.ofList xs.more)

def Term.operand (term : Term) : Operand :=
  if term.negated then .not (.tag term.name) else .tag term.name

/-- The tree of the expression. -/
def Constraint.tree (c : Constraint) : Disjunction :=
  allOf (c.map fun line => .group (anyOf (line.map fun option => .group (allOf (option.map Term.operand)))))

section Meaning

variable (holds : String → Bool)

/-- A chain of `&&` after `left` holds when `left` and every operand hold, however it associates. -/
theorem eval_exprAfter_operands (os : List Operand) (left : Expr) :
    ((Operands.ofList os).exprAfter left).eval holds = (left.eval holds && os.all fun o => o.expr.eval holds) := by
  induction os generalizing left with
  | nil => simp [Operands.ofList, Operands.exprAfter]
  | cons o os ih => rw [Operands.ofList, Operands.exprAfter, ih, Expr.eval, List.all_cons, Bool.and_assoc]

/-- A chain of `||` after `left` holds when `left` or one of the operands holds. -/
theorem eval_exprAfter_conjunctions (os : List Operand) (left : Expr) :
    ((Conjunctions.ofList os).exprAfter left).eval holds =
      (left.eval holds || os.any fun o => o.expr.eval holds) := by
  induction os generalizing left with
  | nil => simp [Conjunctions.ofList, Conjunctions.exprAfter]
  | cons o os ih =>
    rw [Conjunctions.ofList, Conjunctions.exprAfter, ih, Expr.eval, List.any_cons, Bool.or_assoc]
    rfl

theorem eval_allOf (xs : Items Operand) :
    (allOf xs).expr.eval holds = xs.toList.all fun o => o.expr.eval holds :=
  eval_exprAfter_operands holds xs.more xs.first.expr

theorem eval_anyOf (xs : Items Operand) :
    (anyOf xs).expr.eval holds = xs.toList.any fun o => o.expr.eval holds :=
  eval_exprAfter_conjunctions holds xs.more xs.first.expr

theorem Term.eval_operand (term : Term) : term.operand.expr.eval holds = term.eval holds := by
  unfold Term.operand Term.eval
  cases term.negated <;> simp [Operand.expr, Expr.eval]

/-- The syntax tree means what the lines mean: every line has an option all of whose terms hold. -/
theorem Constraint.eval_tree (c : Constraint) : c.tree.expr.eval holds = c.eval holds := by
  simp [Constraint.tree, Constraint.eval, eval_allOf, eval_anyOf, Operand.expr, Term.eval_operand, List.all_map,
    List.any_map, Function.comp_def]

end Meaning

/-! ## The expression as a text -/

theorem tokens_operands (os : List Operand) :
    (Operands.ofList os).tokens = os.flatMap fun o => .and :: o.tokens := by
  induction os with
  | nil => rfl
  | cons o os ih => rw [Operands.ofList, Operands.tokens, ih, List.flatMap_cons, List.cons_append]

theorem tokens_conjunctions (os : List Operand) :
    (Conjunctions.ofList os).tokens = os.flatMap fun o => .or :: o.tokens := by
  induction os with
  | nil => rfl
  | cons o os ih =>
    rw [Conjunctions.ofList, Conjunctions.tokens, ih, List.flatMap_cons, List.cons_append]
    simp [Conjunction.tokens, Operands.tokens]

section Spelling

variable {α : Type} {op : α → Operand} {text : α → List Char}

/-- Operands with an operator between them, set off by spaces. -/
theorem spells_chain {operator : Token} (hmark : operator ∈ marks) (xs : Items α)
    (h : ∀ x ∈ xs.toList, Spells (op x).tokens (text x)) :
    Spells ((op xs.first).tokens ++ xs.more.flatMap fun x => operator :: (op x).tokens)
      (joinText (' ' :: (operator.spelling ++ [' '])) (xs.toList.map text)) := by
  obtain ⟨first, more⟩ := xs
  obtain ⟨hfirst, hmore⟩ := List.forall_mem_cons.1 h
  rw [Items.toList, List.map_cons, joinText, List.flatMap_map]
  have hend : ∀ ys : List α, EndsRun isTagChar
      (ys.flatMap fun x => (' ' :: (operator.spelling ++ [' '])) ++ text x) := by
    intro ys
    cases ys with
    | nil => exact endsRun_nil _
    | cons y ys => exact endsRun_cons rfl
  refine hfirst.append ?_ (hend more)
  clear h hfirst
  induction more with
  | nil => exact .done
  | cons x more ih =>
    obtain ⟨hx, hmore⟩ := List.forall_mem_cons.1 hmore
    have htail : Spells ((op x).tokens ++ more.flatMap fun x => operator :: (op x).tokens)
        (text x ++ more.flatMap fun x => (' ' :: (operator.spelling ++ [' '])) ++ text x) :=
      hx.append (ih hmore) (hend more)
    simpa using Spells.blank (c := ' ') rfl (.mark hmark (.blank (c := ' ') rfl htail))

theorem spells_allOf (xs : Items α) (h : ∀ x ∈ xs.toList, Spells (op x).tokens (text x)) :
    Spells (allOf (xs.map op)).tokens (joinText " && ".toList (xs.toList.map text)) := by
  have hmark : Token.and ∈ marks := by decide
  simpa [allOf, Disjunction.tokens, Conjunction.tokens, Conjunctions.tokens, tokens_operands, Items.map,
    List.flatMap_map, Token.spelling] using spells_chain hmark xs h

theorem spells_anyOf (xs : Items α) (h : ∀ x ∈ xs.toList, Spells (op x).tokens (text x)) :
    Spells (anyOf (xs.map op)).tokens (joinText " || ".toList (xs.toList.map text)) := by
  have hmark : Token.or ∈ marks := by decide
  simpa [anyOf, Disjunction.tokens, Conjunction.tokens, Operands.tokens, tokens_conjunctions, Items.map,
    List.flatMap_map, Token.spelling] using spells_chain hmark xs h

/-- Brackets add their two tokens around what the text inside spells. -/
theorem spells_group {d : Disjunction} {inner : List Char} (h : Spells d.tokens inner) :
    Spells (Operand.group d).tokens ('(' :: (inner ++ [')'])) := by
  have hclosing : Spells [.closing] [')'] := @Spells.mark .closing [] [] (by decide) .done
  exact @Spells.mark .opening _ _ (by decide) (h.append hclosing (endsRun_cons rfl))

theorem Term.spells (term : Term) : Spells term.operand.tokens term.text.toList := by
  have htag : Spells [.tag term.name] (term.name ++ []) :=
    .tag term.nonempty term.word (endsRun_nil _) .done
  rw [List.append_nil] at htag
  unfold Term.operand Term.text
  cases term.negated with
  | false => simpa [Operand.tokens] using htag
  | true => simpa [Operand.tokens, Token.spelling] using @Spells.mark .not _ _ (by decide) htag

end Spelling

theorem Constraint.toList_expression (c : Constraint) :
    c.expression.toList = joinText " && ".toList (c.toList.map fun line =>
      '(' :: (joinText " || ".toList (line.toList.map fun option =>
        '(' :: (joinText " && ".toList (option.toList.map fun term => term.text.toList) ++ [')'])) ++ [')'])) := by
  simp only [Constraint.expression, toList_join_map, String.toList_append]
  rfl

/-- The written expression consists of the tokens of the tree, bracket for bracket. -/
theorem Constraint.spells_expression (c : Constraint) : Spells c.tree.tokens c.expression.toList := by
  rw [c.toList_expression]
  exact spells_allOf c fun line _ => spells_group (spells_anyOf line fun option _ =>
    spells_group (spells_allOf option fun term _ => term.spells))

theorem Constraint.tight_expression (c : Constraint) :
    c.expression.toList ≠ [] ∧ Tight c.expression.toList := by
  have hopening : Tight ['('] := tight_of_notBlank (List.forall_mem_singleton.2 rfl)
  have hclosing : Tight [')'] := tight_of_notBlank (List.forall_mem_singleton.2 rfl)
  have hgroup : ∀ inner : List Char, Tight ('(' :: (inner ++ [')'])) :=
    hopening.append (List.cons_ne_nil _ _) hclosing (List.cons_ne_nil _ _)
  rw [c.toList_expression]
  refine tight_joinText _ (by simp [c.toList_ne_nil]) fun p hp => ?_
  obtain ⟨line, -, rfl⟩ := List.mem_map.1 hp
  exact ⟨List.cons_ne_nil _ _, hgroup _⟩

theorem Constraint.break_notMem_expression (c : Constraint) : '\n' ∉ c.expression.toList := by
  have hgroup : ∀ inner : List Char, '\n' ∉ inner → '\n' ∉ '(' :: (inner ++ [')']) := by simp
  rw [c.toList_expression]
  refine notMem_joinText (by decide) fun line _ => hgroup _ ?_
  refine notMem_joinText (by decide) fun option _ => hgroup _ ?_
  refine notMem_joinText (by decide) fun term _ hmem => ?_
  exact absurd (Term.mem_text hmem).1 (by decide)

/-- The written expression is read back as the tree: its text has only one reading. -/
theorem Constraint.parse_expression (c : Constraint) : Expr.parse c.expression = .ok c.tree.expr :=
  (parse_eq_ok_iff _ _).2 ⟨c.tree, c.spells_expression, rfl⟩

/-! ## The option lines -/

/-- The characters of an option. -/
def optionChars (option : Items Term) : List Char :=
  joinText [','] (option.toList.map fun term => term.text.toList)

theorem toList_optionsText (line : Items (Items Term)) :
    (optionsText line).toList = joinText [' '] (line.toList.map optionChars) := by
  simp only [optionsText, toList_join_map]
  rfl

theorem optionChars_ne_nil (option : Items Term) : optionChars option ≠ [] := by
  simp [optionChars, Items.toList, joinText, option.first.text_ne_nil]

theorem isBlank_of_mem_optionChars {option : Items Term} {c : Char} (h : c ∈ optionChars option) :
    isBlank c = false := by
  rcases mem_joinText h with h | ⟨p, hp, hc⟩
  · rw [List.mem_singleton.1 h]
    rfl
  · obtain ⟨term, -, rfl⟩ := List.mem_map.1 hp
    exact (Term.mem_text hc).1

/-- A `+build` line holds when one of its options does, and an option when all its terms do. -/
theorem satisfiesOptions_optionsText (t : Target) (line : Items (Items Term)) :
    t.satisfiesOptions (optionsText line) =
      line.toList.any fun option => option.toList.all (Term.eval t.satisfies) := by
  have hwords : words (optionsText line).toList = line.toList.map optionChars := by
    rw [toList_optionsText]
    refine words_joinText fun p hp => ?_
    obtain ⟨option, -, rfl⟩ := List.mem_map.1 hp
    exact ⟨optionChars_ne_nil option, fun c hc => isBlank_of_mem_optionChars hc⟩
  have hterms : ∀ option : Items Term,
      splitOn ',' (optionChars option) = option.toList.map fun term => term.text.toList := by
    intro option
    refine splitOn_joinText ',' (by simp [option.toList_ne_nil]) fun p hp hmem => ?_
    obtain ⟨term, -, rfl⟩ := List.mem_map.1 hp
    exact (Term.mem_text hmem).2 rfl
  simp only [Target.satisfiesOptions, hwords, List.any_map, Function.comp_def, hterms, List.all_map,
    Term.satisfiesTerm]

theorem tight_optionsText (line : Items (Items Term)) :
    (optionsText line).toList ≠ [] ∧ Tight (optionsText line).toList := by
  rw [toList_optionsText]
  refine tight_joinText [' '] (by simp [line.toList_ne_nil]) fun p hp => ?_
  obtain ⟨option, -, rfl⟩ := List.mem_map.1 hp
  exact ⟨optionChars_ne_nil option, tight_of_notBlank fun c hc => isBlank_of_mem_optionChars hc⟩

theorem break_notMem_optionsText (line : Items (Items Term)) : '\n' ∉ (optionsText line).toList := by
  rw [toList_optionsText]
  refine notMem_joinText (by decide) fun option _ hmem => ?_
  exact absurd (isBlank_of_mem_optionChars hmem) (by decide)

/-! ## The two headers -/

section Headers

variable {α : Type} {line : α → List Char} {stated : α → Directive}

/-- Where every line states a directive outside of a block comment, the scan collects exactly
these, in order. -/
theorem scan_stated (xs : List α) (h : ∀ x ∈ xs, scanLine false (line x) = some (false, some (stated x))) :
    scanLines false (xs.map line) = some false ∧ directivesOf false (xs.map line) = xs.map stated := by
  induction xs with
  | nil => exact ⟨rfl, rfl⟩
  | cons x xs ih =>
    obtain ⟨hx, hxs⟩ := List.forall_mem_cons.1 h
    obtain ⟨hscan, hds⟩ := ih hxs
    rw [List.map_cons, List.map_cons, scanLines, directivesOf_cons, hx]
    exact ⟨hscan, congrArg _ hds⟩

/-- The directives of a header in which every line states one. -/
theorem directives_stated {header : String} {xs : List α} (hne : xs ≠ [])
    (hheader : header.toList = joinText ['\n'] (xs.map line)) (hbreak : ∀ x ∈ xs, '\n' ∉ line x)
    (h : ∀ x ∈ xs, scanLine false (line x) = some (false, some (stated x))) (body : String) :
    directives (header ++ "\n\npackage " ++ body) = xs.map stated := by
  have hlines : splitOn '\n' header.toList = xs.map line := by
    rw [hheader]
    exact splitOn_joinText '\n' (by simpa using hne) (by simpa using hbreak)
  obtain ⟨hscan, hds⟩ := scan_stated xs h
  rw [← hlines] at hscan hds
  exact (directives_clause hscan body).trans hds

end Headers

theorem tight_comment {text : List Char} (h : text ≠ [] ∧ Tight text) (start : List Char) :
    Tight ('/' :: '/' :: (start ++ text)) := by
  have hslashes : Tight ['/', '/'] :=
    tight_of_notBlank (List.forall_mem_cons.2 ⟨rfl, List.forall_mem_singleton.2 rfl⟩)
  exact hslashes.append (List.cons_ne_nil _ _) h.2 h.1 start

/-- The header of `+build` lines states one directive for each line and nothing else, whatever the
file goes on with. -/
theorem Constraint.directives_lines (c : Constraint) (body : String) :
    directives (c.lines ++ "\n\npackage " ++ body) = c.toList.map fun line => .options (optionsText line) := by
  refine directives_stated c.toList_ne_nil (toList_join_map "\n" _ c.toList) ?_ ?_ body
  · intro line _ hmem
    rw [String.toList_append, List.mem_append] at hmem
    exact hmem.elim (by decide) (break_notMem_optionsText line)
  · intro line _
    have hline : ("// +build " ++ optionsText line).toList =
        '/' :: '/' :: (" +build ".toList ++ (optionsText line).toList) := by simp
    have htight := tight_optionsText line
    rw [hline, scanLine_comment (tight_comment htight _), directive?_options htight.2, String.ofList_toList]

/-- The header with the expression states that expression alone, whatever the file goes on with. -/
theorem Constraint.directives_expression (c : Constraint) (body : String) :
    directives ("//go:build " ++ c.expression ++ "\n\npackage " ++ body) = [.expression c.expression] := by
  have hheader : ("//go:build " ++ c.expression).toList =
      '/' :: '/' :: ("go:build ".toList ++ c.expression.toList) := by simp
  have hscan : scanLine false ('/' :: '/' :: ("go:build ".toList ++ c.expression.toList)) =
      some (false, some (.expression c.expression)) := by
    rw [scanLine_comment (tight_comment c.tight_expression _), directive?_expression c.tight_expression.2,
      String.ofList_toList]
  have hbreak : '\n' ∉ '/' :: '/' :: ("go:build ".toList ++ c.expression.toList) := by
    simp [c.break_notMem_expression]
  refine directives_stated (List.cons_ne_nil c []) ?_ (fun _ _ => hbreak) (fun _ _ => hscan) body
  simp [hheader, joinText]

/-- A source with the option lines and one with the expression are for the same targets, those on which the
constraint holds. -/
theorem options_agree_expression (t : Target) (c : Constraint) (body : String) :
    t.admitsSource (c.lines ++ "\n\npackage " ++ body) =
        t.admitsSource ("//go:build " ++ c.expression ++ "\n\npackage " ++ body) ∧
      t.admitsSource (c.lines ++ "\n\npackage " ++ body) = c.eval t.satisfies := by
  have hlines : t.admitsSource (c.lines ++ "\n\npackage " ++ body) = c.eval t.satisfies := by
    have hnone : firstExpression? (c.toList.map fun line => .options (optionsText line)) = none := by
      simp [firstExpression?]
    rw [Target.admitsSource, c.directives_lines, admitsDirectives_eq, hnone, List.all_map]
    simp only [Function.comp_def, satisfiesOptions_optionsText]
    rfl
  have hexpression : t.admitsSource ("//go:build " ++ c.expression ++ "\n\npackage " ++ body) =
      c.eval t.satisfies := by
    have hfirst : firstExpression? [.expression c.expression] = some c.expression := rfl
    rw [Target.admitsSource, c.directives_expression, admitsDirectives_eq, hfirst]
    simp only [c.parse_expression, c.eval_tree]
  exact ⟨hlines.trans hexpression.symm, hlines⟩

example :
    let linux : Term := ⟨false, "linux".toList, by decide, List.all_eq_true.1 (by decide)⟩
    let cgo : Term := ⟨true, "cgo".toList, by decide, List.all_eq_true.1 (by decide)⟩
    let c : Constraint := ⟨⟨⟨linux, [cgo]⟩, [⟨cgo, []⟩]⟩, [⟨⟨linux, []⟩, []⟩]⟩
    c.lines = "// +build linux,!cgo !cgo\n// +build linux" ∧
      c.expression = "((linux && !cgo) || (!cgo)) && ((linux))" := by
  decide +kernel

end GoApi.Build
