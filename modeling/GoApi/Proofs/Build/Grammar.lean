import GoApi.Build.Expr
import GoApi.Proofs.Build.Token

/-!
# The grammar of constraint expressions

The grammar is given by its derivation trees, one type for each nonterminal and one for what an operator
repeats:

    or  = and { "||" and }            Disjunction, Conjunctions
    and = not { "&&" not }            Conjunction, Operands
    not = "!" not | "(" or ")" | tag  Operand

A tree has tokens, and an expression in which both operators associate to the left.  The readers accept
exactly the tokens of trees and give their expressions (`ofTokens_eq_ok_iff`), and no list of tokens has
two trees (`Disjunction.tokens_inj`).
-/

namespace GoApi.Build

open GoApi.Build.Expr

/-! ## Derivation trees -/

mutual

/-- An operand of `&&`. -/
inductive Operand where
  | tag (name : List Char)
  | not (inner : Operand)
  | group (inner : Disjunction)

/-- Operands joined by `&&`. -/
inductive Conjunction where
  | mk (first : Operand) (more : Operands)

/-- The operands that follow, each after its `&&`. -/
inductive Operands where
  | nil
  | cons (next : Operand) (more : Operands)

/-- Conjunctions joined by `||`. -/
inductive Disjunction where
  | mk (first : Conjunction) (more : Conjunctions)

/-- The conjunctions that follow, each after its `||`. -/
inductive Conjunctions where
  | nil
  | cons (next : Conjunction) (more : Conjunctions)

end

mutual

/-- The tokens that a tree derives. -/
def Operand.tokens : Operand → List Token
  | .tag name => [.tag name]
  | .not inner => .not :: inner.tokens
  | .group inner => .opening :: (inner.tokens ++ [.closing])

@[inherit_doc Operand.tokens]
def Conjunction.tokens : Conjunction → List Token
  | .mk first more => first.tokens ++ more.tokens

@[inherit_doc Operand.tokens]
def Operands.tokens : Operands → List Token
  | .nil => []
  | .cons next more => .and :: (next.tokens ++ more.tokens)

@[inherit_doc Operand.tokens]
def Disjunction.tokens : Disjunction → List Token
  | .mk first more => first.tokens ++ more.tokens

@[inherit_doc Operand.tokens]
def Conjunctions.tokens : Conjunctions → List Token
  | .nil => []
  | .cons next more => .or :: (next.tokens ++ more.tokens)

end

mutual

/-- The expression of a tree. -/
def Operand.expr : Operand → Expr
  | .tag name => .tag (String.ofList name)
  | .not inner => .not inner.expr
  | .group inner => inner.expr

@[inherit_doc Operand.expr]
def Conjunction.expr : Conjunction → Expr
  | .mk first more => more.exprAfter first.expr

/-- The expression of what stands on the left and the operands that follow. -/
def Operands.exprAfter : Operands → Expr → Expr
  | .nil, left => left
  | .cons next more, left => more.exprAfter (.and left next.expr)

@[inherit_doc Operand.expr]
def Disjunction.expr : Disjunction → Expr
  | .mk first more => more.exprAfter first.expr

/-- The expression of what stands on the left and the conjunctions that follow. -/
def Conjunctions.exprAfter : Conjunctions → Expr → Expr
  | .nil, left => left
  | .cons next more, left => more.exprAfter (.or left next.expr)

end

/-! ## What is read has a tree -/

mutual

/-- What the reader accepts was written by the grammar: the reader is sound.  The five lemmas
follow its mutual recursion. -/
theorem exists_operand {tokens : List Token} {r : Read tokens} (h : readNot tokens = .ok r) :
    ∃ o : Operand, o.tokens ++ r.rest = tokens ∧ o.expr = r.expr := by
  match tokens with
  | [] => simp [readNot] at h
  | .tag name :: rest =>
    simp only [readNot, Except.ok.injEq] at h
    subst h
    exact ⟨.tag name, rfl, rfl⟩
  | .not :: rest =>
    simp only [readNot] at h
    split at h
    · cases h
    · next r' hr' =>
      cases h
      obtain ⟨o, htokens, hexpr⟩ := exists_operand hr'
      exact ⟨.not o, by simp [Operand.tokens, htokens], by simp [Operand.expr, hexpr]⟩
  | .opening :: rest =>
    simp only [readNot] at h
    split at h
    · cases h
    · next e after hlt hr' =>
      cases h
      obtain ⟨d, htokens, hexpr⟩ := exists_disjunction hr'
      exact ⟨.group d, by simp [Operand.tokens, ← htokens], hexpr⟩
    · cases h
  | .and :: rest | .or :: rest | .closing :: rest => simp [readNot] at h
termination_by (tokens.length, 0)

theorem exists_conjunction {tokens : List Token} {r : Read tokens} (h : readAnd tokens = .ok r) :
    ∃ c : Conjunction, c.tokens ++ r.rest = tokens ∧ c.expr = r.expr := by
  rw [readAnd] at h
  split at h
  · cases h
  · next first hfirst =>
    have hlt := first.shorter
    obtain ⟨o, htokens, hexpr⟩ := exists_operand hfirst
    obtain ⟨more, hmore, hall⟩ := exists_operands h
    exact ⟨.mk o more, by simp [Conjunction.tokens, hmore, htokens], by simp [Conjunction.expr, hexpr, hall]⟩
termination_by (tokens.length, 2)

theorem exists_operands {tokens : List Token} {left r : Read tokens} (h : moreAnd left = .ok r) :
    ∃ more : Operands, more.tokens ++ r.rest = left.rest ∧ more.exprAfter left.expr = r.expr := by
  rw [moreAnd.eq_def] at h
  split at h
  · next e rest hlt =>
    split at h
    · cases h
    · next right hright =>
      have hshort := right.shorter
      obtain ⟨o, htokens, hexpr⟩ := exists_operand hright
      obtain ⟨more, hmore, hall⟩ := exists_operands h
      exact ⟨.cons o more, by simp [Operands.tokens, hmore, htokens], by simp [Operands.exprAfter, hexpr, hall]⟩
  · cases h
    exact ⟨.nil, rfl, rfl⟩
termination_by (left.rest.length, 1)
decreasing_by all_goals grind

theorem exists_disjunction {tokens : List Token} {r : Read tokens} (h : readOr tokens = .ok r) :
    ∃ d : Disjunction, d.tokens ++ r.rest = tokens ∧ d.expr = r.expr := by
  rw [readOr] at h
  split at h
  · cases h
  · next first hfirst =>
    have hlt := first.shorter
    obtain ⟨c, htokens, hexpr⟩ := exists_conjunction hfirst
    obtain ⟨more, hmore, hall⟩ := exists_conjunctions h
    exact ⟨.mk c more, by simp [Disjunction.tokens, hmore, htokens], by simp [Disjunction.expr, hexpr, hall]⟩
termination_by (tokens.length, 4)

theorem exists_conjunctions {tokens : List Token} {left r : Read tokens} (h : moreOr left = .ok r) :
    ∃ more : Conjunctions, more.tokens ++ r.rest = left.rest ∧ more.exprAfter left.expr = r.expr := by
  rw [moreOr.eq_def] at h
  split at h
  · next e rest hlt =>
    split at h
    · cases h
    · next right hright =>
      have hshort := right.shorter
      obtain ⟨c, htokens, hexpr⟩ := exists_conjunction hright
      obtain ⟨more, hmore, hall⟩ := exists_conjunctions h
      exact ⟨.cons c more, by simp [Conjunctions.tokens, hmore, htokens],
        by simp [Conjunctions.exprAfter, hexpr, hall]⟩
  · cases h
    exact ⟨.nil, rfl, rfl⟩
termination_by (left.rest.length, 3)
decreasing_by all_goals grind

end

/-! ## What has a tree is read -/

/-- A reader succeeds with an expression and leaves a rest. -/
def Yields {tokens : List Token} (x : Except Cause (Read tokens)) (e : Expr) (rest : List Token) : Prop :=
  ∃ h, x = .ok ⟨e, rest, h⟩

/-- A rest does not go on with an operator. -/
def EndsBefore (operator : Token) (rest : List Token) : Prop := ∀ more, rest ≠ operator :: more

/-- A rest goes on with neither operator. -/
structure EndsExpr (rest : List Token) : Prop where
  and : EndsBefore .and rest
  or : EndsBefore .or rest

theorem endsExpr_nil : EndsExpr [] := ⟨nofun, nofun⟩

theorem endsExpr_closing (rest : List Token) : EndsExpr (.closing :: rest) := ⟨nofun, nofun⟩

/-- What follows a conjunction cannot go on with it. -/
theorem EndsExpr.before {rest : List Token} (h : EndsExpr rest) (more : Conjunctions) :
    EndsBefore .and (more.tokens ++ rest) := by
  cases more with
  | nil => exact h.and
  | cons => nofun

theorem moreAnd_done {tokens : List Token} {left : Read tokens} (h : EndsBefore .and left.rest) :
    moreAnd left = .ok left := by
  rw [moreAnd.eq_def]
  split
  · exact absurd rfl (h _)
  · rfl

theorem moreOr_done {tokens : List Token} {left : Read tokens} (h : EndsBefore .or left.rest) :
    moreOr left = .ok left := by
  rw [moreOr.eq_def]
  split
  · exact absurd rfl (h _)
  · rfl

mutual

/-- What the grammar writes is read back, and the rest is left: the reader is complete. -/
theorem readNot_tokens (o : Operand) (rest : List Token) : Yields (readNot (o.tokens ++ rest)) o.expr rest := by
  cases o with
  | tag name => exact ⟨by simp [Operand.tokens], by simp [Operand.tokens, Operand.expr, readNot]⟩
  | not inner =>
    obtain ⟨hlt, hread⟩ := readNot_tokens inner rest
    rw [show (Operand.not inner).tokens ++ rest = .not :: (inner.tokens ++ rest) from rfl]
    exact ⟨Nat.lt_succ_of_lt hlt, by simp only [readNot, hread, Operand.expr]⟩
  | group inner =>
    obtain ⟨hlt, hread⟩ := readOr_tokens inner (endsExpr_closing rest)
    rw [show (Operand.group inner).tokens ++ rest = .opening :: (inner.tokens ++ .closing :: rest) by
      simp [Operand.tokens]]
    exact ⟨by simp at hlt ⊢; omega, by simp only [readNot, hread, Operand.expr]⟩

theorem readAnd_tokens (c : Conjunction) {rest : List Token} (hand : EndsBefore .and rest) :
    Yields (readAnd (c.tokens ++ rest)) c.expr rest := by
  obtain ⟨first, more⟩ := c
  obtain ⟨hlt, hread⟩ := readNot_tokens first (more.tokens ++ rest)
  rw [Conjunction.tokens, Conjunction.expr, List.append_assoc, readAnd, hread]
  exact moreAnd_tokens more hand rfl

theorem moreAnd_tokens (more : Operands) {tokens rest : List Token} {left : Read tokens}
    (hand : EndsBefore .and rest) (hleft : left.rest = more.tokens ++ rest) :
    Yields (moreAnd left) (more.exprAfter left.expr) rest := by
  obtain ⟨e, leftRest, hlt⟩ := left
  cases more with
  | nil =>
    cases hleft
    exact ⟨hlt, moreAnd_done hand⟩
  | cons next more =>
    obtain ⟨hshort, hread⟩ := readNot_tokens next (more.tokens ++ rest)
    simp only [Operands.tokens, List.cons_append, List.append_assoc] at hleft
    subst hleft
    simp only [moreAnd, hread, Operands.exprAfter]
    exact moreAnd_tokens more hand rfl

theorem readOr_tokens (d : Disjunction) {rest : List Token} (hend : EndsExpr rest) :
    Yields (readOr (d.tokens ++ rest)) d.expr rest := by
  obtain ⟨first, more⟩ := d
  obtain ⟨hlt, hread⟩ := readAnd_tokens first (hend.before more)
  rw [Disjunction.tokens, Disjunction.expr, List.append_assoc, readOr, hread]
  exact moreOr_tokens more hend rfl

theorem moreOr_tokens (more : Conjunctions) {tokens rest : List Token} {left : Read tokens}
    (hend : EndsExpr rest) (hleft : left.rest = more.tokens ++ rest) :
    Yields (moreOr left) (more.exprAfter left.expr) rest := by
  obtain ⟨e, leftRest, hlt⟩ := left
  cases more with
  | nil =>
    cases hleft
    exact ⟨hlt, moreOr_done hend.or⟩
  | cons next more =>
    obtain ⟨hshort, hread⟩ := readAnd_tokens next (hend.before more)
    simp only [Conjunctions.tokens, List.cons_append, List.append_assoc] at hleft
    subst hleft
    simp only [moreOr, hread, Conjunctions.exprAfter]
    exact moreOr_tokens more hend rfl

end

/-- The readers accept exactly the tokens of trees. -/
theorem ofTokens_eq_ok_iff (tokens : List Token) (e : Expr) :
    ofTokens tokens = .ok e ↔ ∃ d : Disjunction, d.tokens = tokens ∧ d.expr = e := by
  constructor
  · intro h
    rw [ofTokens] at h
    split at h
    · cases h
    · next r hr =>
      split at h
      · next hempty =>
        cases h
        obtain ⟨d, htokens, hexpr⟩ := exists_disjunction hr
        rw [List.isEmpty_iff.1 hempty, List.append_nil] at htokens
        exact ⟨d, htokens, hexpr⟩
      · cases h
  · rintro ⟨d, rfl, rfl⟩
    have hyields := readOr_tokens d endsExpr_nil
    rw [List.append_nil] at hyields
    obtain ⟨hlt, hread⟩ := hyields
    simp [ofTokens, hread]

/-! ## A list of tokens has one tree -/

mutual

/-- An operand shows where it ends; a chain of operands ends where its operator does not follow. -/
theorem Operand.tokens_unique (o o' : Operand) {r r' : List Token} (h : o.tokens ++ r = o'.tokens ++ r') :
    o = o' ∧ r = r' := by
  cases o with
  | tag name =>
    cases o' <;> simp only [Operand.tokens, List.cons_append, List.nil_append, List.cons.injEq, reduceCtorEq,
      false_and, Token.tag.injEq] at h
    exact ⟨by rw [h.1], h.2⟩
  | not inner =>
    cases o' <;> simp only [Operand.tokens, List.cons_append, List.nil_append, List.cons.injEq, reduceCtorEq,
      false_and, true_and] at h
    next inner' =>
    obtain ⟨rfl, hrest⟩ := Operand.tokens_unique inner inner' h
    exact ⟨rfl, hrest⟩
  | group inner =>
    cases o' <;> simp only [Operand.tokens, List.cons_append, List.nil_append, List.cons.injEq, reduceCtorEq,
      false_and, true_and, List.append_assoc] at h
    next inner' =>
    obtain ⟨rfl, hrest⟩ := Disjunction.tokens_unique inner inner' (endsExpr_closing r) (endsExpr_closing r') h
    exact ⟨rfl, (List.cons.inj hrest).2⟩
termination_by structural o

/-- Where nothing after it continues it, a conjunction is determined by its tokens. -/
theorem Conjunction.tokens_unique (c c' : Conjunction) {r r' : List Token} (hr : EndsBefore .and r)
    (hr' : EndsBefore .and r') (h : c.tokens ++ r = c'.tokens ++ r') : c = c' ∧ r = r' := by
  obtain ⟨first, more⟩ := c
  obtain ⟨first', more'⟩ := c'
  simp only [Conjunction.tokens, List.append_assoc] at h
  obtain ⟨rfl, hmore⟩ := Operand.tokens_unique first first' h
  obtain ⟨rfl, hrest⟩ := Operands.tokens_unique more more' hr hr' hmore
  exact ⟨rfl, hrest⟩
termination_by structural c

theorem Operands.tokens_unique (m m' : Operands) {r r' : List Token} (hr : EndsBefore .and r)
    (hr' : EndsBefore .and r') (h : m.tokens ++ r = m'.tokens ++ r') : m = m' ∧ r = r' := by
  cases m with
  | nil =>
    cases m' with
    | nil => exact ⟨rfl, h⟩
    | cons => exact absurd h (hr _)
  | cons next more =>
    cases m' with
    | nil => exact absurd h.symm (hr' _)
    | cons next' more' =>
      simp only [Operands.tokens, List.cons_append, List.append_assoc, List.cons.injEq, true_and] at h
      obtain ⟨rfl, hmore⟩ := Operand.tokens_unique next next' h
      obtain ⟨rfl, hrest⟩ := Operands.tokens_unique more more' hr hr' hmore
      exact ⟨rfl, hrest⟩
termination_by structural m

theorem Disjunction.tokens_unique (d d' : Disjunction) {r r' : List Token} (hend : EndsExpr r) (hend' : EndsExpr r')
    (h : d.tokens ++ r = d'.tokens ++ r') : d = d' ∧ r = r' := by
  obtain ⟨first, more⟩ := d
  obtain ⟨first', more'⟩ := d'
  simp only [Disjunction.tokens, List.append_assoc] at h
  obtain ⟨rfl, hmore⟩ := Conjunction.tokens_unique first first' (hend.before more)
    (hend'.before more') h
  obtain ⟨rfl, hrest⟩ := Conjunctions.tokens_unique more more' hend hend' hmore
  exact ⟨rfl, hrest⟩
termination_by structural d

theorem Conjunctions.tokens_unique (m m' : Conjunctions) {r r' : List Token} (hend : EndsExpr r) (hend' : EndsExpr r')
    (h : m.tokens ++ r = m'.tokens ++ r') : m = m' ∧ r = r' := by
  cases m with
  | nil =>
    cases m' with
    | nil => exact ⟨rfl, h⟩
    | cons => exact absurd h (hend.or _)
  | cons next more =>
    cases m' with
    | nil => exact absurd h.symm (hend'.or _)
    | cons next' more' =>
      simp only [Conjunctions.tokens, List.cons_append, List.append_assoc, List.cons.injEq, true_and] at h
      obtain ⟨rfl, hmore⟩ := Conjunction.tokens_unique next next' (hend.before more)
        (hend'.before more') h
      obtain ⟨rfl, hrest⟩ := Conjunctions.tokens_unique more more' hend hend' hmore
      exact ⟨rfl, hrest⟩
termination_by structural m

end

/-- The grammar is unambiguous. -/
theorem Disjunction.tokens_inj {d d' : Disjunction} (h : d.tokens = d'.tokens) : d = d' := by
  have happend : d.tokens ++ [] = d'.tokens ++ [] := by rw [h]
  exact (Disjunction.tokens_unique d d' endsExpr_nil endsExpr_nil happend).1

/-! ## Texts -/

/-- What a text is parsed to is the expression of a tree whose tokens it spells. -/
theorem parse_eq_ok_iff (text : String) (e : Expr) :
    Expr.parse text = .ok e ↔ ∃ d : Disjunction, Spells d.tokens text.toList ∧ d.expr = e := by
  simp only [← tokenize_eq_ok_iff]
  cases htokens : tokenize text.toList with
  | error c => simp [Expr.parse, htokens]
  | ok tokens =>
    simp only [Expr.parse, htokens, ofTokens_eq_ok_iff, Except.ok.injEq]
    exact exists_congr fun d => and_congr_left fun _ => eq_comm

theorem parse_tag {tag : String} (hne : tag ≠ "") (hword : ∀ c ∈ tag.toList, isTagChar c = true) :
    Expr.parse tag = .ok (.tag tag) := by
  have hspells : Spells [.tag tag.toList] (tag.toList ++ []) :=
    .tag (by simpa using hne) hword (Text.endsRun_nil _) .done
  rw [List.append_nil] at hspells
  refine (parse_eq_ok_iff _ _).2 ⟨.mk (.mk (.tag tag.toList) .nil) .nil, hspells, ?_⟩
  simp [Disjunction.expr, Conjunctions.exprAfter, Conjunction.expr, Operands.exprAfter, Operand.expr]

/-- A text that ends behind `&&` has no second operand. -/
theorem parse_dangling (name : List Char) {text : String} (h : tokenize text.toList = .ok [.tag name, .and]) :
    Expr.parse text = .error .endOfText := by
  simp only [Expr.parse, h, ofTokens, readOr, readAnd, readNot, moreAnd]

/-- A text is parsed to an expression exactly if the grammar derives it from the text's tokens, all of them;
there is one derivation at most, and a text without one is an error. -/
theorem parse_accepts_grammar (text : String) :
    (∀ e, Expr.parse text = .ok e ↔ ∃ d : Disjunction, Spells d.tokens text.toList ∧ d.expr = e) ∧
      (∀ d d' : Disjunction, Spells d.tokens text.toList → Spells d'.tokens text.toList → d = d') ∧
      ((∃ cause, Expr.parse text = .error cause) ↔ ¬∃ d : Disjunction, Spells d.tokens text.toList) := by
  refine ⟨parse_eq_ok_iff text, fun d d' hd hd' => ?_, ?_⟩
  · rw [← tokenize_eq_ok_iff] at hd hd'
    exact Disjunction.tokens_inj (Except.ok.inj (hd.symm.trans hd'))
  · constructor
    · rintro ⟨cause, herror⟩ ⟨d, hd⟩
      have hok := (parse_eq_ok_iff text d.expr).2 ⟨d, hd, rfl⟩
      rw [herror] at hok
      cases hok
    · intro hnone
      cases hparse : Expr.parse text with
      | error cause => exact ⟨cause, rfl⟩
      | ok e =>
        obtain ⟨d, hd, -⟩ := (parse_eq_ok_iff text e).1 hparse
        exact absurd ⟨d, hd⟩ hnone

/-- The derivation of `a && b && c || !(d || e)`. -/
def nestedDerivation : Disjunction :=
  .mk (.mk (.tag ['a']) (.cons (.tag ['b']) (.cons (.tag ['c']) .nil)))
    (.cons (.mk (.not (.group (.mk (.mk (.tag ['d']) .nil) (.cons (.mk (.tag ['e']) .nil) .nil)))) .nil) .nil)

/-- Both operators associate to the left, `!` takes one operand; a lone `&` is an error. -/
theorem parse_accepts_nested :
    Expr.parse "a && b&&c||!( d || e )" =
        .ok (.or (.and (.and (.tag "a") (.tag "b")) (.tag "c")) (.not (.or (.tag "d") (.tag "e")))) ∧
      (∀ d : Disjunction, Spells d.tokens "a && b&&c||!( d || e )".toList → d = nestedDerivation) ∧
      ¬∃ d : Disjunction, Spells d.tokens "a & b".toList := by
  have hspells : Spells nestedDerivation.tokens "a && b&&c||!( d || e )".toList :=
    spells_of_tokenize (by decide +kernel)
  refine ⟨((parse_accepts_grammar _).1 _).2 ⟨nestedDerivation, hspells, by decide +kernel⟩,
    fun d hd => (parse_accepts_grammar _).2.1 d nestedDerivation hd hspells, ?_⟩
  exact (parse_accepts_grammar "a & b").2.2.1 ⟨.strayCharacter '&', by decide +kernel⟩

end GoApi.Build
