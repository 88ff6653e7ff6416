import GoApi.Proofs.Source.Types

/-!
# Initializers as they are read

The types that an initializer mentions have roots (`Expr.Rooted`), and the name that it calls can name a
type.  An expression never starts with a closing square bracket.
-/

namespace GoApi.Source

open Text.Reading Reader

/-- What a primary expression can become has roots. -/
def Primary.Rooted : Primary → Prop
  | .name n => isTypeName n = true
  | .member .. => True
  | .done e => e.Rooted

theorem Primary.Rooted.expr {p : Primary} (h : p.Rooted) : p.expr.Rooted := by
  cases p with
  | done e => exact h
  | name n => trivial
  | member a b => trivial

theorem Primary.Rooted.type {p : Primary} (h : p.Rooted) {type : TypeExpr} (htype : p.type? = some type) :
    type.Rooted := by
  cases p with
  | done e => cases htype
  | name n =>
    cases htype
    exact h
  | member a b =>
    cases htype
    trivial

/-- A call keeps the name that is called and nothing of its arguments. -/
theorem Primary.Rooted.call {p : Primary} (h : p.Rooted) : p.call.Rooted := by
  cases p with
  | done e => trivial
  | name n => exact ⟨h, by simp⟩
  | member a b => trivial

theorem reads_parens {α : Type} {n : Nat} {good : α → Prop} {p : Reader α} (hp : Reads n good p) :
    Reads 1 good (readParen.parens p) := by
  refine (reads_mark "(").bind fun _ _ => ?_
  refine hp.loose.bind fun x hx => ?_
  exact (reads_mark ")").loose.bind fun _ _ => .pure hx

section

variable {inner : Inner} (hinner : inner.Sound)

include hinner

theorem reads_readArgument : Reads 1 (fun _ => True) (readArgument inner) := by
  refine (reads_mark "(").bind fun _ _ => ?_
  refine (hinner.expr .free).loose.bind fun _ _ => ?_
  refine (reads_mark ",").maybe.bind fun _ _ => ?_
  exact (reads_mark ")").loose

/-- After a type comes a conversion or a composite literal, and either has that type. -/
theorem reads_readUse {type : TypeExpr} (htype : type.Rooted) :
    Reads 1 Expr.Rooted (readUse inner type) :=
  (Gives.orElse (reads_readArgument hinner) reads_block).bind fun _ _ => .pure htype

/-- Where the first argument is a type it is kept as one, and otherwise by its text, which is
rooted as well. -/
theorem reads_readTypeFirst :
    Reads 1 (fun first? => ∀ type ∈ first?, type.Rooted) (readTypeFirst inner) := by
  have hmore : Reads 1 Expr.Rooted (do mark ","; inner.expr .free) :=
    (reads_mark ",").bind fun _ _ => (hinner.expr .free).loose
  have hrest : Reads 0 (fun _ => True) (readTypeFirst.rest inner) := by
    refine hmore.many.bind fun _ _ => ?_
    refine (reads_mark ",").maybe.bind fun _ _ => ?_
    exact (reads_mark ")").loose
  refine .orElse ?_ (.orElse ?_ ?_)
  · refine (reads_mark "(").bind fun _ _ => ?_
    exact (reads_mark ")").loose.bind fun _ _ => .pure (by simp)
  · refine (reads_mark "(").bind fun _ _ => ?_
    refine (hinner.type .free).loose.bind fun type htype => ?_
    exact hrest.bind fun _ _ => .pure (by simpa using htype)
  · refine (reads_mark "(").bind fun _ _ => ?_
    refine (reads_spanned (hinner.expr .free)).loose.bind fun spanned _ => ?_
    exact hrest.bind fun _ _ => .pure (by simp [TypeExpr.Rooted])

theorem reads_readSuffix (l : Layout) {p : Primary} (hp : p.Rooted) :
    Reads 1 Primary.Rooted (readSuffix inner l p) := by
  have hother : Reads 1 Primary.Rooted (do bracket "(" ")"; return .done p.call) :=
    (reads_bracket "(" ")").bind fun _ _ => .pure hp.call
  refine (reads_joined l).after fun _ _ => ?_
  refine .orElse ?_ (.orElse ?_ (.orElse ?_ (.orElse ?_ (.orElse ?_ ?_))))
  · -- a selector
    refine (reads_mark ".").bind fun _ _ => reads_word.loose.bind fun member _ => ?_
    cases p with
    | name n => exact .pure trivial
    | member a b => exact .pure trivial
    | done e => exact .pure trivial
  · -- a type assertion
    refine (reads_mark ".").bind fun _ _ => ?_
    exact (reads_bracket "(" ")").loose.bind fun _ _ => .pure trivial
  · -- type arguments
    unfold readSuffix.instantiated
    cases htype : p.type? with
    | none => exact .fail
    | some base =>
      have hbase : base.Rooted := hp.type htype
      refine (reads_readTypeArgs hinner).bind fun args _ => .orElse ?_ (.orElse ?_ ?_)
      · refine (reads_joined l).bind fun _ _ => ?_
        have happlied : (TypeExpr.generic base args).Rooted := hbase
        exact (reads_readUse hinner happlied).loose.bind fun e he => .pure he
      · exact (reads_joined l).bind fun _ _ => hother.loose
      · exact .pure trivial
  · -- an index
    exact (reads_bracket "[" "]").bind fun _ _ => .pure trivial
  · -- a call
    unfold readSuffix.call
    cases p with
    | name n =>
      dsimp only
      split
      · exact (reads_readTypeFirst hinner).bind fun first? hfirst => .pure ⟨hp, hfirst⟩
      · exact hother
    | member a b => exact hother
    | done e => exact hother
  · -- a composite literal
    unfold readSuffix.composite
    cases htype : p.type? with
    | none => exact .fail
    | some type => exact reads_block.bind fun _ _ => .pure (hp.type htype)

/-- By induction on the fuel: each suffix keeps the operand rooted, and stopping keeps it as it is.
-/
theorem reads_readSuffixes (l : Layout) (fuel : Nat) {p : Primary} (hp : p.Rooted) :
    Reads 0 Primary.Rooted (readSuffixes inner l fuel p) := by
  induction fuel generalizing p with
  | zero => exact .pure hp
  | succ fuel ih =>
    refine (reads_readSuffix hinner l hp).maybe.bind fun q? hq => ?_
    cases q? with
    | none => exact .pure hp
    | some q => exact ih (hq q rfl)

theorem reads_readParen (l : Layout) : Reads 1 Primary.Rooted (readParen inner l) := by
  refine .orElse ?_ ?_
  · refine (Gives.look id).after fun start _ => ?_
    refine (reads_parens (hinner.type .free)).bind fun type htype => ?_
    refine (reads_joined l).bind fun _ _ => ?_
    refine (reads_readArgument hinner).loose.bind fun _ _ => ?_
    split
    · exact .fail
    · exact .pure htype
  · exact (reads_parens (hinner.expr .free)).bind fun e he => .pure he

theorem reads_readTypeUse (l : Layout) : Reads 1 Expr.Rooted (readTypeUse inner l) :=
  (reads_readType hinner rooted_asRead hinner.type l).bind fun _ htype => (reads_readUse hinner htype).loose

/-- Every kind of operand starts from at least one token. -/
theorem reads_readBase (l : Layout) : Reads 1 Primary.Rooted (readBase inner l) := by
  have hliteral : ∀ kind, Reads 1 Primary.Rooted (readBase.literal kind) :=
    fun kind => (Gives.take _).bind fun _ _ => .pure trivial
  have htyped : Reads 1 Primary.Rooted (readBase.typed inner l) :=
    (reads_readTypeUse hinner l).bind fun e he => .pure he
  have hnil : Reads 1 Primary.Rooted (do keyword "nil"; return .done .other) :=
    (reads_keyword "nil").bind fun _ _ => .pure trivial
  have hfunction : Reads 1 Primary.Rooted (readBase.function inner l) := by
    refine (reads_keyword "func").bind fun _ _ => ?_
    refine (reads_readSignature hinner l).loose.bind fun sig _ => ?_
    exact reads_block.loose.bind fun _ _ => .pure trivial
  have hopenArray : Reads 1 Primary.Rooted (readBase.openArray inner l) := by
    refine (reads_mark "[").bind fun _ _ => ?_
    refine (reads_mark "...").loose.bind fun _ _ => ?_
    refine (reads_mark "]").loose.bind fun _ _ => ?_
    refine (hinner.type l).loose.bind fun elem _ => ?_
    have hdots : startsLength "...".toList = true := by decide
    exact reads_block.loose.bind fun _ _ => .pure hdots
  have hname : Reads 1 Primary.Rooted (do return Primary.name (← plainWord)) :=
    reads_plainWord.bind fun n hn => .pure hn
  refine .peeked .fail fun t => ?_
  dsimp only
  split
  · exact (hliteral .int).at t
  · exact (hliteral .float).at t
  · exact (hliteral .complex).at t
  · exact (hliteral .rune).at t
  · exact (hliteral .string).at t
  · exact (hliteral .int).at t
  · exact (hliteral .bool).at t
  · exact (hliteral .bool).at t
  · exact hnil.at t
  · exact (hfunction.orElse htyped).at t
  · next hkind _ _ _ _ _ =>
    split
    · exact htyped.at t
    · next htext =>
      -- the word is the next token, which starts no type
      have hplain : t.text ∉ typeWords := by simpa using htext
      refine (hname.at t).congr fun more => ?_
      simp [word, plainWord, Text.Reading.take, hkind, hplain, bind, StateT.bind, pure]
  · exact (hopenArray.orElse htyped).at t
  · exact (reads_readParen hinner l).at t
  · exact Gives.fail.at t

theorem reads_readOperand (l : Layout) : Reads 1 Expr.Rooted (readOperand inner l) := by
  refine .orElse ?_ (.orElse ?_ ?_)
  · exact (Gives.check _).after fun _ _ => reads_readTypeUse hinner l
  · refine (Gives.take _).bind fun t _ => ?_
    cases unaryOp? t.text with
    | none => exact .fail
    | some op => exact (hinner.operand l).loose.bind fun e he => .pure he
  · refine (reads_readBase hinner l).bind fun base hbase => ?_
    have hsuffixes : Reads 0 Primary.Rooted (fun ts => readSuffixes inner l ts.length base ts) :=
      .depending (fun fuel => reads_readSuffixes hinner l fuel hbase) List.length
    exact hsuffixes.bind fun p hp => .pure hp.expr

end

/-! ## Operands and operators -/

/-- Every operand after an operator has roots. -/
def RootedChain (rest : List (Nat × BinaryOp × Expr)) : Prop := ∀ x ∈ rest, x.2.2.Rooted

/-- Joining the operators of one level takes the operands together and leaves the rest of the chain
alone. -/
theorem joinLevel_rooted (level : Nat) {left : Expr} {rest : List (Nat × BinaryOp × Expr)}
    (hleft : left.Rooted) (hrest : RootedChain rest) :
    (joinLevel level left rest).1.Rooted ∧ RootedChain (joinLevel level left rest).2 := by
  induction rest generalizing left with
  | nil => exact ⟨hleft, hrest⟩
  | cons x rest ih =>
    obtain ⟨k, op, right⟩ := x
    have hright : right.Rooted := hrest _ (List.mem_cons_self ..)
    have hmore : RootedChain rest := fun x hx => hrest x (List.mem_cons_of_mem _ hx)
    unfold joinLevel
    split
    · exact ih ⟨hleft, hright⟩ hmore
    · obtain ⟨hhead, htail⟩ := ih hright hmore
      exact ⟨hleft, List.forall_mem_cons.2 ⟨hhead, htail⟩⟩

/-- So precedence only decides how the operands are joined, not which of them are kept. -/
theorem joinOperands_rooted {first : Expr} {rest : List (Nat × BinaryOp × Expr)} (hfirst : first.Rooted)
    (hrest : RootedChain rest) : (joinOperands first rest).Rooted := by
  have hfold : ∀ (levels : List Nat) (chain : Expr × List (Nat × BinaryOp × Expr)),
      chain.1.Rooted → RootedChain chain.2 →
      (levels.foldl (fun chain level => joinLevel level chain.1 chain.2) chain).1.Rooted := by
    intro levels
    induction levels with
    | nil => exact fun chain hhead _ => hhead
    | cons level levels ih =>
      intro chain hhead htail
      obtain ⟨hhead', htail'⟩ := joinLevel_rooted level hhead htail
      exact ih _ hhead' htail'
  exact hfold _ (first, rest) hfirst hrest

section

variable {inner : Inner} (hinner : inner.Sound)

include hinner

/-- An expression is a chain of operands, each of which is rooted. -/
theorem reads_readExpr (l : Layout) : Reads 1 Expr.Rooted (readExpr inner l) := by
  refine (reads_readOperand hinner l).bind fun first hfirst => ?_
  refine (Gives.many (n := 1) ?_).bind fun rest hrest => .pure (joinOperands_rooted hfirst hrest)
  refine (reads_joined l).after fun _ _ => (Gives.take _).bind fun t _ => ?_
  cases binaryOp? t.text with
  | none => exact .fail
  | some levelOp => exact (reads_readOperand hinner l).loose.bind fun e he => .pure he

end

/-- No operand starts with a closing square bracket. -/
theorem readExpr_closing (inner : Inner) (l : Layout) {t : Token} (h : isMark "]" t = true)
    (rest : List Token) : readExpr inner l (t :: rest) = none := by
  obtain ⟨kind, text, lead, afterBreak, line⟩ := t
  simp only [isMark, Bool.and_eq_true, beq_iff_eq] at h
  obtain ⟨rfl, rfl⟩ := h
  rfl

/-- Readers for a bounded depth of nesting give types and expressions with roots. -/
theorem innerReaders_sound (depth : Nat) : (innerReaders depth).Sound := by
  induction depth with
  | zero =>
    exact {
      type := fun l => .fail
      expr := fun l => .fail
      operand := fun l => .fail
      closing := fun l t rest _ => rfl }
  | succ depth ih =>
    exact {
      type := reads_readType ih rooted_asRead ih.type
      expr := reads_readExpr ih
      operand := reads_readOperand ih
      closing := fun l t rest h => readExpr_closing _ l h rest }

end GoApi.Source
