import GoApi.Source.ExprReader
import GoApi.Surface.Values
import Mathlib.Data.List.Basic

/-!
# Arithmetic does not depend on its grouping

Operands that are joined by operators other than comparisons and shifts can be grouped in many ways, with
parentheses or by the precedence of the operators.  The type of the whole is the same for all of them,

    Grouping es e → Grouping es e' → infer p site values e = infer p site values e'

because it can be read off the operands from left to right: the first one whose type is not told ends the
search, and of the types the first typed one prevails, or else the first of the greatest rank (`Prevails`).
-/

namespace GoApi.Surface

open Source

/-! ## Types of operands -/

/-- The type that prevails among the types of operands: the first that is typed, or if all are untyped the
first of the greatest rank. -/
inductive Prevails : List Ty → Ty → Prop
  | typed {before after : List Ty} {t : Ty} (hbefore : ∀ x ∈ before, untypedRank x ≠ none)
      (ht : untypedRank t = none) : Prevails (before ++ t :: after) t
  | untyped {before after : List Ty} {t : Ty} {rank : Nat} (ht : untypedRank t = some rank)
      (hbefore : ∀ x ∈ before, ∃ k, untypedRank x = some k ∧ k < rank)
      (hafter : ∀ x ∈ after, ∃ k, untypedRank x = some k ∧ k ≤ rank) : Prevails (before ++ t :: after) t

theorem Prevails.singleton (t : Ty) : Prevails [t] t := by
  cases ht : untypedRank t with
  | none => exact @Prevails.typed [] [] t (by simp) ht
  | some rank => exact @Prevails.untyped [] [] t rank ht (by simp) (by simp)

/-- Where an untyped type prevails, all are untyped and of no greater rank. -/
theorem Prevails.rank_le {types : List Ty} {t : Ty} {rank : Nat} (h : Prevails types t)
    (ht : untypedRank t = some rank) : ∀ x ∈ types, ∃ k, untypedRank x = some k ∧ k ≤ rank := by
  cases h with
  | typed _ hnone =>
    rw [ht] at hnone
    cases hnone
  | untyped hrank hbefore hafter =>
    obtain rfl : _ = rank := Option.some.inj (hrank.symm.trans ht)
    intro x hx
    rcases List.mem_append.1 hx with hx | hx
    · obtain ⟨k, hk, hlt⟩ := hbefore x hx
      exact ⟨k, hk, Nat.le_of_lt hlt⟩
    · rcases List.mem_cons.1 hx with rfl | hx
      · exact ⟨_, hrank, Nat.le_refl _⟩
      · exact hafter x hx

/-- Two stretches of operands side by side: what prevails in each is combined. -/
theorem Prevails.append {xs ys : List Ty} {l r : Ty} (hl : Prevails xs l) (hr : Prevails ys r) :
    Prevails (xs ++ ys) (combine l r) := by
  unfold combine
  cases hrank : untypedRank l with
  | none =>
    cases hl with
    | typed hbefore ht =>
      rw [List.append_assoc, List.cons_append]
      exact .typed hbefore ht
    | untyped ht => rw [hrank] at ht; cases ht
  | some k =>
    have hxs := hl.rank_le hrank
    cases hr with
    | @typed before after _ hbefore ht =>
      simp only [ht]
      rw [← List.append_assoc]
      refine .typed (fun x hx => ?_) ht
      rcases List.mem_append.1 hx with hx | hx
      · obtain ⟨_, hx, -⟩ := hxs x hx
        simp [hx]
      · exact hbefore x hx
    | @untyped before after _ rank ht hbefore hafter =>
      simp only [ht]
      split
      · next hlt =>
        rw [← List.append_assoc]
        refine .untyped ht (fun x hx => ?_) hafter
        rcases List.mem_append.1 hx with hx | hx
        · obtain ⟨k', hx, hle⟩ := hxs x hx
          exact ⟨k', hx, by omega⟩
        · exact hbefore x hx
      · next hle =>
        have hys := (Prevails.untyped ht hbefore hafter).rank_le ht
        cases hl with
        | typed _ hnone => rw [hrank] at hnone; cases hnone
        | @untyped before' after' _ _ ht' hbefore' hafter' =>
          obtain rfl : _ = k := Option.some.inj (ht'.symm.trans hrank)
          rw [List.append_assoc, List.cons_append]
          refine .untyped ht' hbefore' fun x hx => ?_
          rcases List.mem_append.1 hx with hx | hx
          · exact hafter' x hx
          · obtain ⟨k', hx, hk'⟩ := hys x hx
            exact ⟨k', hx, by omega⟩

/-- The type that prevails is the first of its rank. -/
theorem Prevails.find? {types : List Ty} {t : Ty} (h : Prevails types t) :
    types.find? (fun x => untypedRank x == untypedRank t) = some t := by
  rw [List.find?_eq_some_iff_append]
  refine ⟨by simp, ?_⟩
  cases h with
  | typed hbefore ht => exact ⟨_, _, rfl, fun x hx => by
      simpa [ht, Option.isSome_iff_ne_none] using hbefore x hx⟩
  | untyped ht hbefore _ =>
    refine ⟨_, _, rfl, fun x hx => ?_⟩
    obtain ⟨k, hk, hlt⟩ := hbefore x hx
    simp [ht, hk, Nat.ne_of_lt hlt]

theorem Prevails.mem {types : List Ty} {t : Ty} (h : Prevails types t) : t ∈ types :=
  List.mem_of_find?_eq_some h.find?

theorem Prevails.rank_eq {types : List Ty} {t t' : Ty} (h : Prevails types t) (h' : Prevails types t') :
    untypedRank t = untypedRank t' := by
  cases ht : untypedRank t with
  | some k =>
    obtain ⟨k', ht', hle⟩ := h.rank_le ht t' h'.mem
    obtain ⟨_, ht₂, hle'⟩ := h'.rank_le ht' t h.mem
    obtain rfl : k = _ := Option.some.inj (ht.symm.trans ht₂)
    rw [ht', Nat.le_antisymm hle hle']
  | none =>
    cases ht' : untypedRank t' with
    | none => rfl
    | some k' =>
      obtain ⟨_, hsome, -⟩ := h'.rank_le ht' t h.mem
      rw [ht] at hsome
      cases hsome

/-- At most one type prevails. -/
theorem Prevails.unique {types : List Ty} {t t' : Ty} (h : Prevails types t) (h' : Prevails types t') :
    t = t' := by
  have hfirst := h.find?
  rw [h.rank_eq h'] at hfirst
  exact Option.some.inj (hfirst.symm.trans h'.find?)

/-! ## Operands whose types may not be told -/

/-- The operands whose types are told. -/
def knownOperands (types : List Ty) : List (Option (Option Ty)) := types.map fun t => some (some t)

/-- What a sequence of operands gives, read from the left: the first operand whose type is not told ends it
in its own way, and if there is none a type prevails. -/
inductive Outcome : List (Option (Option Ty)) → Option (Option Ty) → Prop
  | prevails {types : List Ty} {t : Ty} (h : Prevails types t) : Outcome (knownOperands types) (some (some t))
  | stops {types : List Ty} {r : Option (Option Ty)} {rest : List (Option (Option Ty))} (hr : r.join = none) :
      Outcome (knownOperands types ++ r :: rest) r

/-- What an expression of two combined operands gives. -/
def combineInferred (l r : Option (Option Ty)) : Option (Option Ty) := do
  match ← l with
  | none => return none
  | some l => return (← r).map (combine l)

theorem infer_combine (p : Package) (site : Site) (values : Values) (l r : Expr) :
    infer p site values (.binary .combine l r) = combineInferred (infer p site values l) (infer p site values r) := by
  rw [infer]
  rfl

theorem combineInferred_of_join_eq_none {l : Option (Option Ty)} (h : l.join = none) (r : Option (Option Ty)) :
    combineInferred l r = l := by
  rcases l with _ | _ | l
  · rfl
  · rfl
  · cases h

theorem combineInferred_some_of_join_eq_none (l : Ty) {r : Option (Option Ty)} (h : r.join = none) :
    combineInferred (some (some l)) r = r := by
  rcases r with _ | _ | r
  · rfl
  · rfl
  · cases h

theorem Outcome.append {xs ys : List (Option (Option Ty))} {l r : Option (Option Ty)} (hl : Outcome xs l)
    (hr : Outcome ys r) : Outcome (xs ++ ys) (combineInferred l r) := by
  cases hl with
  | stops hstop =>
    rw [combineInferred_of_join_eq_none hstop, List.append_assoc, List.cons_append]
    exact .stops hstop
  | @prevails types t ht =>
    cases hr with
    | @prevails types' t' ht' =>
      rw [knownOperands, knownOperands, ← List.map_append]
      exact .prevails (ht.append ht')
    | @stops types' r rest hstop =>
      rw [combineInferred_some_of_join_eq_none t hstop, ← List.append_assoc, knownOperands, knownOperands,
        ← List.map_append]
      exact .stops hstop

theorem knownOperands_injective : Function.Injective knownOperands :=
  List.map_injective_iff.2 fun _ _ h => Option.some.inj (Option.some.inj h)

theorem find?_knownOperands (types : List Ty) : (knownOperands types).find? (fun r => r.join.isNone) = none := by
  simp [knownOperands]

theorem find?_knownOperands_append (types : List Ty) {r : Option (Option Ty)} (hr : r.join = none)
    (rest : List (Option (Option Ty))) : (knownOperands types ++ r :: rest).find? (fun r => r.join.isNone) = some r := by
  rw [List.find?_append, find?_knownOperands, Option.none_or, List.find?_cons_of_pos (by simp [hr])]

theorem Outcome.unique {xs : List (Option (Option Ty))} {r r' : Option (Option Ty)} (h : Outcome xs r)
    (h' : Outcome xs r') : r = r' := by
  generalize heq : xs = ys at h'
  cases h with
  | @prevails types t ht =>
    cases h' with
    | @prevails types' t' ht' =>
      obtain rfl := knownOperands_injective heq
      rw [ht.unique ht']
    | @stops types' _ rest hr' =>
      have hfind := find?_knownOperands types
      rw [heq, find?_knownOperands_append types' hr' rest] at hfind
      cases hfind
  | @stops types _ rest hr =>
    have hfind := find?_knownOperands_append types hr rest
    cases h' with
    | @prevails types' t' ht' =>
      rw [heq, find?_knownOperands] at hfind
      cases hfind
    | @stops types' _ rest' hr' =>
      rw [heq, find?_knownOperands_append types' hr' rest'] at hfind
      exact (Option.some.inj hfind).symm

/-! ## Groupings -/

/-- An expression is a grouping of operands: they stand in it in order, joined by operators that combine,
with parentheses anywhere. -/
inductive Grouping : List Expr → Expr → Prop
  | operand (e : Expr) : Grouping [e] e
  | paren {es : List Expr} {e : Expr} (h : Grouping es e) : Grouping es (.paren e)
  | join {es es' : List Expr} {l r : Expr} (hl : Grouping es l) (hr : Grouping es' r) :
      Grouping (es ++ es') (.binary .combine l r)

theorem outcome_operand (r : Option (Option Ty)) : Outcome [r] r := by
  rcases r with _ | _ | t
  · exact @Outcome.stops [] none [] rfl
  · exact @Outcome.stops [] (some none) [] rfl
  · exact .prevails (.singleton t)

/-- The type of a grouping is what its operands give in order. -/
theorem Grouping.outcome (p : Package) (site : Site) (values : Values) {es : List Expr} {e : Expr}
    (h : Grouping es e) : Outcome (es.map (infer p site values)) (infer p site values e) := by
  induction h with
  | operand e => exact outcome_operand _
  | paren _ ih =>
    rw [infer]
    exact ih
  | join _ _ ihl ihr =>
    rw [infer_combine, List.map_append]
    exact ihl.append ihr

/-! ## Chains without parentheses -/

/-- A chain that is partly joined: each of its members is a grouping of some of the operands. -/
inductive Chain : List Expr → Expr → List (Nat × BinaryOp × Expr) → Prop
  | last {es : List Expr} {e : Expr} (h : Grouping es e) : Chain es e []
  | more {es es' : List Expr} {e right : Expr} {level : Nat} {rest : List (Nat × BinaryOp × Expr)}
      (h : Grouping es e) (hrest : Chain es' right rest) : Chain (es ++ es') e ((level, .combine, right) :: rest)

theorem chain_operands (first : Expr) {rest : List (Nat × BinaryOp × Expr)}
    (h : ∀ x ∈ rest, x.2.1 = .combine) : Chain (first :: rest.map (·.2.2)) first rest := by
  induction rest generalizing first with
  | nil => exact .last (.operand first)
  | cons x rest ih =>
    obtain ⟨level, op, right⟩ := x
    obtain ⟨hop, hrest⟩ := List.forall_mem_cons.1 h
    obtain rfl : op = .combine := hop
    exact .more (.operand first) (ih right hrest)

theorem Chain.joinLeft {es es' : List Expr} {left right : Expr} {rest : List (Nat × BinaryOp × Expr)}
    (hleft : Grouping es left) (h : Chain es' right rest) :
    Chain (es ++ es') (.binary .combine left right) rest := by
  cases h with
  | last hright => exact .last (hleft.join hright)
  | more hright hrest =>
    rw [← List.append_assoc]
    exact .more (hleft.join hright) hrest

/-- Joining the operators of one level loses no operand. -/
theorem Chain.joinLevel (level : Nat) {es : List Expr} {left : Expr} {rest : List (Nat × BinaryOp × Expr)}
    (h : Chain es left rest) :
    Chain es (joinLevel level left rest).1 (joinLevel level left rest).2 := by
  induction rest generalizing es left with
  | nil => exact h
  | cons x rest ih =>
    cases h with
    | @more es es' _ right n _ hleft hrest =>
      unfold Source.joinLevel
      split
      · exact ih (hrest.joinLeft hleft)
      · exact .more hleft (ih hrest)

/-- Joining the operators of one level leaves those of the others. -/
theorem level_of_mem_joinLevel (level : Nat) {left : Expr} {rest : List (Nat × BinaryOp × Expr)} :
    ∀ x ∈ (joinLevel level left rest).2, x.1 ≠ level ∧ x.1 ∈ rest.map (·.1) := by
  induction rest generalizing left with
  | nil => simp [joinLevel]
  | cons y rest ih =>
    obtain ⟨n, op, right⟩ := y
    unfold joinLevel
    split
    · intro x hx
      obtain ⟨hne, hmem⟩ := ih x hx
      exact ⟨hne, List.mem_cons_of_mem n hmem⟩
    · next hn =>
      refine List.forall_mem_cons.2 ⟨⟨hn, List.mem_cons_self ..⟩, fun x hx => ?_⟩
      obtain ⟨hne, hmem⟩ := ih x hx
      exact ⟨hne, List.mem_cons_of_mem n hmem⟩

theorem chain_joinLevels (levels : List Nat) {es : List Expr} {left : Expr} {rest : List (Nat × BinaryOp × Expr)}
    (h : Chain es left rest) (hlevels : ∀ x ∈ rest, x.1 ∈ levels) :
    Grouping es (levels.foldl (fun x level => joinLevel level x.1 x.2) (left, rest)).1 := by
  induction levels generalizing left rest with
  | nil =>
    cases h with
    | last h => exact h
    | more => exact absurd (hlevels _ (List.mem_cons_self ..)) List.not_mem_nil
  | cons level levels ih =>
    refine ih (h.joinLevel level) fun x hx => ?_
    obtain ⟨hne, hmem⟩ := level_of_mem_joinLevel level x hx
    obtain ⟨y, hy, hyx⟩ := List.mem_map.1 hmem
    exact (List.mem_cons.1 (hyx ▸ hlevels y hy)).resolve_left hne

theorem binaryOp?_level {text : String} {level : Nat} {op : BinaryOp} (h : binaryOp? text = some (level, op)) :
    level ∈ [5, 4, 3, 2, 1] := by
  unfold binaryOp? at h
  split at h <;> cases h <;> decide

/-- A chain as it is read, with the precedence of its operators, is a grouping of its operands. -/
theorem grouping_joinOperands (first : Expr) {rest : List (Nat × BinaryOp × Expr)}
    (h : ∀ x ∈ rest, x.2.1 = .combine ∧ ∃ text, binaryOp? text = some (x.1, x.2.1)) :
    Grouping (first :: rest.map (·.2.2)) (joinOperands first rest) := by
  refine chain_joinLevels _ (chain_operands first fun x hx => (h x hx).1) fun x hx => ?_
  obtain ⟨-, text, htext⟩ := h x hx
  exact binaryOp?_level htext

/-! ## The type of a grouping -/

theorem Outcome.eq_iff_stops {xs : List (Option (Option Ty))} {r r' : Option (Option Ty)} (h : Outcome xs r)
    (hr' : r'.join = none) : r = r' ↔ ∃ types rest, xs = knownOperands types ++ r' :: rest := by
  constructor
  · rintro rfl
    cases h with
    | prevails => cases hr'
    | stops => exact ⟨_, _, rfl⟩
  · rintro ⟨types, rest, rfl⟩
    exact h.unique (.stops hr')

theorem Outcome.eq_iff_prevails {xs : List (Option (Option Ty))} {r : Option (Option Ty)} (h : Outcome xs r)
    (t : Ty) : r = some (some t) ↔ ∃ types, xs = knownOperands types ∧ Prevails types t := by
  constructor
  · rintro rfl
    cases h with
    | prevails ht => exact ⟨_, rfl, ht⟩
    | stops hr => cases hr
  · rintro ⟨types, rfl, ht⟩
    exact h.unique (.prevails ht)

/-- Where the search for a type comes to an end, there is none exactly if some operand has none. -/
theorem Outcome.eq_none_iff {xs : List (Option (Option Ty))} {type? : Option Ty} (h : Outcome xs (some type?)) :
    type? = none ↔ some none ∈ xs := by
  cases h with
  | prevails => simp [knownOperands]
  | stops hr =>
    obtain rfl : type? = none := hr
    simp

/-- All groupings of the same operands have the same type.  No end is found exactly if there is none for an
operand and the types of all before it are told.  Otherwise there is no type exactly if some operand has none,
and else it is the type of the first typed operand, or if all are untyped the first one of the greatest rank.
A chain without parentheses is read as a grouping of its operands, whatever the precedence of the operators. -/
theorem grouping_immaterial (p : Package) (site : Site) (values : Values) (es : List Expr) :
    (∀ e e', Grouping es e → Grouping es e' → infer p site values e = infer p site values e') ∧
    (∀ e, Grouping es e →
      (infer p site values e = none ↔
        ∃ types rest, es.map (infer p site values) = knownOperands types ++ none :: rest) ∧
      ∀ type?, infer p site values e = some type? →
        (type? = none ↔ ∃ x ∈ es, infer p site values x = some none) ∧
        ∀ t, type? = some t ↔ ∃ types, es.map (infer p site values) = knownOperands types ∧ Prevails types t) ∧
    ∀ first rest, es = first :: rest.map (·.2.2) →
      (∀ x ∈ rest, x.2.1 = .combine ∧ ∃ text, binaryOp? text = some (x.1, x.2.1)) →
      Grouping es (joinOperands first rest) := by
  refine ⟨fun e e' h h' => ?_, fun e h => ?_, ?_⟩
  · exact (h.outcome p site values).unique (h'.outcome p site values)
  · have houtcome := h.outcome p site values
    refine ⟨houtcome.eq_iff_stops rfl, fun type? htype => ?_⟩
    rw [htype] at houtcome
    refine ⟨?_, fun t => ?_⟩
    · rw [houtcome.eq_none_iff, List.mem_map]
    · rw [← houtcome.eq_iff_prevails, Option.some.injEq]
  · rintro first rest rfl hops
    exact grouping_joinOperands first hops

/-- `1 + limit * 2.5` and `(1 + limit) * 2.5` have the type of `limit`. -/
theorem grouping_immaterial_typed :
    let p := Package.ofFiles []
    let values : Values := [("limit", .basic "int64")]
    let one := Expr.literal .int
    let limit := Expr.name "limit"
    let half := Expr.literal .float
    let chain := joinOperands one [(4, .combine, limit), (5, .combine, half)]
    let grouped := Expr.binary .combine (.paren (.binary .combine one limit)) half
    infer p {} values chain = infer p {} values grouped ∧
      infer p {} values grouped = some (some (.basic "int64")) := by
  intro p values one limit half chain grouped
  obtain ⟨hsame, -, hread⟩ := grouping_immaterial p {} values [one, limit, half]
  have hchain : Grouping [one, limit, half] chain := by
    refine hread one _ rfl ?_
    simp only [List.forall_mem_cons, List.not_mem_nil, false_imp_iff, implies_true, and_true, true_and]
    exact ⟨⟨"+", rfl⟩, "*", rfl⟩
  have hgrouped : Grouping [one, limit, half] grouped :=
    .join (.paren (.join (.operand one) (.operand limit))) (.operand half)
  exact ⟨hsame chain grouped hchain hgrouped, rfl⟩

end GoApi.Surface
