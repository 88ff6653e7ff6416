import GoApi.Surface.Resolve
import Mathlib.Data.List.Duplicate
import Mathlib.Data.List.Perm.Subperm
import Mathlib.Logic.Relation

/-!
# Expansions inside one another

Resolving a type expression asks for the bodies of the declared interfaces that its literals embed, and
the expansion of such a body asks for further ones.  `embedded` lists the names of these interfaces
from the syntax alone, and resolving fails if and only if one of the expansions does:

    resolve p expand site t = none ↔ Fails expand (asks p site (embedded t))   (resolve_eq_none_iff)

An element of an interface body is expanded one level deeper than the body; inside an interface
literal the count starts anew.  A call that leads back to itself (`Endless`) is therefore possible, and
it is the only way in which an expansion fails (`expand_eq_none_iff`).
-/

namespace GoApi.Surface

open Source

/-! ## Embedded names -/

/-- An embedded element that is a plain name. -/
def loneName? : List TypeExpr → Option String
  | [.name name] => some name
  | _ => none

/-- The plain names among the elements of an interface body. -/
def loneNames : List (Element TypeExpr) → List String
  | [] => []
  | .method _ _ :: rest => loneNames rest
  | .terms alternatives :: rest => (loneName? alternatives).toList ++ loneNames rest

mutual

/-- The plain names that interface literals embed, anywhere in a type expression. -/
def embedded : TypeExpr → List String
  | .name _ => []
  | .qualified _ _ => []
  | .generic base args => embedded base ++ embeddedArgs args
  | .pointer elem => embedded elem
  | .slice elem => embedded elem
  | .array _ elem => embedded elem
  | .map key value => embedded key ++ embedded value
  | .chan _ elem => embedded elem
  | .func sig => embeddedSignature sig
  | .struct fields => embeddedFields fields
  | .interface elements => loneNames elements ++ embeddedElements elements
  | .paren inner => embedded inner
  | .tilde inner => embedded inner
  | .terms alternatives => embeddedTerms alternatives
  | .verbatim _ => []

def embeddedArgs : List (TypeArg TypeExpr) → List String
  | [] => []
  | ⟨_, terms⟩ :: rest => embeddedTerms terms ++ embeddedArgs rest

def embeddedTerms : List TypeExpr → List String
  | [] => []
  | term :: rest => embedded term ++ embeddedTerms rest

def embeddedParams : List (Param TypeExpr) → List String
  | [] => []
  | ⟨_, type⟩ :: rest => embedded type ++ embeddedParams rest

/-- The constraints of a signature are not among its parts: its declaration resolves them. -/
def embeddedSignature : Signature TypeExpr → List String
  | ⟨_, _, params, results, _⟩ => embeddedParams params ++ embeddedParams results

def embeddedFields : List (FieldDecl TypeExpr) → List String
  | [] => []
  | ⟨_, type⟩ :: rest => embedded type ++ embeddedFields rest

/-- What the elements of a body hold inside themselves. -/
def embeddedElements : List (Element TypeExpr) → List String
  | [] => []
  | .method _ sig :: rest => embeddedSignature sig ++ embeddedElements rest
  | .terms alternatives :: rest => embeddedTerms alternatives ++ embeddedElements rest

end

/-! ## Calls -/

/-- One expansion: a declared interface, and the depth at which it is embedded. -/
abbrev Call := String × Nat

/-- Whether a name stands for an interface that is replaced by its body. -/
def flattens (p : Package) (site : Site) (name : String) : Bool :=
  !site.params.contains name && (p.type? name).any fun t => (TypeDecl.literal? t.decl).isSome

/-- The expansions of names that literals embed. -/
def asks (p : Package) (site : Site) (names : List String) : List Call :=
  (names.filter (flattens p site)).map (·, 1)

/-- The expansions of the own names of a body that is embedded at a given depth. -/
def asksOwn (p : Package) (site : Site) (depth : Nat) (names : List String) : List Call :=
  (names.filter fun name => flattens p site name && depth < maxDepth).map (·, depth + 1)

@[simp] theorem asks_nil (p : Package) (site : Site) : asks p site [] = [] := rfl

@[simp] theorem asks_append (p : Package) (site : Site) (ns ms : List String) :
    asks p site (ns ++ ms) = asks p site ns ++ asks p site ms := by
  simp [asks]

theorem asksOwn_append (p : Package) (site : Site) (depth : Nat) (ns ms : List String) :
    asksOwn p site depth (ns ++ ms) = asksOwn p site depth ns ++ asksOwn p site depth ms := by
  simp [asksOwn]

theorem asksOwn_zero (p : Package) (site : Site) (ns : List String) :
    asksOwn p site 0 ns = asks p site ns := by
  simp [asksOwn, asks, maxDepth]

theorem asksOwn_singleton (p : Package) (site : Site) (depth : Nat) (name : String) :
    asksOwn p site depth [name] =
      if (flattens p site name && decide (depth < maxDepth)) = true then [(name, depth + 1)] else [] := by
  unfold asksOwn
  rw [List.filter_cons]
  split <;> rfl

/-- A name inside a type literal is expanded from the first level on. -/
theorem mem_asks {p : Package} {site : Site} {ns : List String} {c : Call} :
    c ∈ asks p site ns ↔ c.1 ∈ ns ∧ flattens p site c.1 = true ∧ c.2 = 1 := by
  obtain ⟨name, depth⟩ := c
  simp only [asks, List.mem_map, List.mem_filter, Prod.mk.injEq]
  constructor
  · rintro ⟨n, ⟨hn, hf⟩, rfl, rfl⟩
    exact ⟨hn, hf, rfl⟩
  · rintro ⟨hn, hf, rfl⟩
    exact ⟨name, ⟨hn, hf⟩, rfl, rfl⟩

/-- An element of the body itself is expanded one level deeper, up to the limit. -/
theorem mem_asksOwn {p : Package} {site : Site} {depth : Nat} {ns : List String} {c : Call} :
    c ∈ asksOwn p site depth ns ↔
      c.1 ∈ ns ∧ flattens p site c.1 = true ∧ depth < maxDepth ∧ c.2 = depth + 1 := by
  obtain ⟨name, d⟩ := c
  simp only [asksOwn, List.mem_map, List.mem_filter, Prod.mk.injEq, Bool.and_eq_true,
    decide_eq_true_eq]
  constructor
  · rintro ⟨n, ⟨hn, hf, hd⟩, rfl, rfl⟩
    exact ⟨hn, hf, hd, rfl⟩
  · rintro ⟨hn, hf, hd, rfl⟩
    exact ⟨name, ⟨hn, hf, hd⟩, rfl, rfl⟩

theorem literal?_eq_some {d : TypeDecl} {es : List (Element TypeExpr)}
    (h : TypeDecl.literal? d = some es) : d.binders = [] ∧ d.body = .interface es := by
  unfold TypeDecl.literal? at h
  split at h
  · next hb hd => exact ⟨hb, by simpa [hd] using h⟩
  · cases h

/-- A name that declares an interface by a literal. -/
def IsInterface (p : Package) (name : String) : Prop :=
  ∃ t es, p.type? name = some t ∧ TypeDecl.literal? t.decl = some es

theorem isInterface_of_flattens {p : Package} {site : Site} {name : String}
    (h : flattens p site name = true) : IsInterface p name := by
  unfold flattens at h
  rw [Bool.and_eq_true] at h
  cases ht : p.type? name with
  | none => simp [ht] at h
  | some t =>
    obtain ⟨es, hes⟩ := Option.isSome_iff_exists.1 (by simpa [ht] using h.2)
    exact ⟨t, es, ht, hes⟩

/-! ## Failure -/

/-- One of the calls has no end. -/
def Fails (expand : Expansion) (calls : List Call) : Prop :=
  ∃ c ∈ calls, expand c.1 c.2 = none

@[simp] theorem fails_nil (expand : Expansion) : ¬ Fails expand [] := by
  simp [Fails]

@[simp] theorem fails_append (expand : Expansion) (cs ds : List Call) :
    Fails expand (cs ++ ds) ↔ Fails expand cs ∨ Fails expand ds := by
  simp [Fails, or_and_right, exists_or]

@[simp] theorem fails_singleton (expand : Expansion) (c : Call) :
    Fails expand [c] ↔ expand c.1 c.2 = none := by
  simp [Fails]

/-- What an embedded element is replaced by: a plain name that flattens by its expansion, and
otherwise by something that asks for nothing, or not at all. -/
theorem flattened?_cases (p : Package) (expand : Expansion) (site : Site) (depth : Nat)
    (alternatives : List TypeExpr) :
    (∃ name, loneName? alternatives = some name ∧
      (flattens p site name && decide (depth < maxDepth)) = true ∧
      flattened? p expand site depth alternatives = some (expand name (depth + 1))) ∨
    (asksOwn p site depth (loneName? alternatives).toList = [] ∧
      ((embeddedTerms alternatives = [] ∧
        flattened? p expand site depth alternatives = some (some errorInterface)) ∨
      flattened? p expand site depth alternatives = none)) := by
  cases hlone : loneName? alternatives with
  | none =>
    refine Or.inr ⟨rfl, Or.inr ?_⟩
    unfold flattened?
    split
    · next name => simp [loneName?] at hlone
    · rfl
  | some name =>
    obtain rfl : alternatives = [.name name] := by
      unfold loneName? at hlone
      split at hlone
      · simpa using hlone
      · cases hlone
    rw [Option.toList_some, asksOwn_singleton]
    by_cases hflat : (flattens p site name && decide (depth < maxDepth)) = true
    · refine Or.inl ⟨name, rfl, hflat, ?_⟩
      simp only [flattens, Bool.and_eq_true, Bool.not_eq_true'] at hflat
      obtain ⟨⟨hparam, hany⟩, hdepth⟩ := hflat
      simp only [flattened?, hparam, Bool.false_eq_true, if_false]
      cases ht : p.type? name with
      | none => simp [ht] at hany
      | some t =>
        rw [ht, Option.any_some] at hany
        simp only [hany, hdepth, Bool.and_self, if_true]
    · refine Or.inr ⟨if_neg hflat, ?_⟩
      by_cases hparam : site.params.contains name = true
      · exact Or.inr (if_pos hparam)
      · simp only [flattened?, if_neg hparam]
        cases ht : p.type? name with
        | none => by_cases herror : name = "error" <;> simp [herror, embeddedTerms, embedded]
        | some t =>
          refine Or.inr (if_neg fun hlit => hflat ?_)
          rw [Bool.and_eq_true] at hlit
          rw [Bool.not_eq_true] at hparam
          rw [flattens, hparam, ht, Option.any_some, hlit.1, hlit.2]
          rfl

section

variable (p : Package) (expand : Expansion) (site : Site)

mutual

/-- Resolution fails exactly when one of the expansions that it asks for does.  One mutual
recursion over type expressions, as resolution itself. -/
theorem resolve_eq_none_iff (t : TypeExpr) :
    resolve p expand site t = none ↔ Fails expand (asks p site (embedded t)) := by
  cases t with
  | name name => simp [resolve, embedded]
  | qualified package name => simp [resolve, embedded]
  | generic base args =>
    rw [embedded, asks_append, fails_append, ← resolve_eq_none_iff base,
      ← resolveArgs_eq_none_iff args, resolve]
    cases resolve p expand site base <;> cases resolveArgs p expand site args <;> simp
  | pointer elem =>
    rw [embedded, ← resolve_eq_none_iff elem, resolve]
    cases resolve p expand site elem <;> simp
  | slice elem =>
    rw [embedded, ← resolve_eq_none_iff elem, resolve]
    cases resolve p expand site elem <;> simp
  | array len elem =>
    rw [embedded, ← resolve_eq_none_iff elem, resolve]
    cases resolve p expand site elem <;> simp
  | map key value =>
    rw [embedded, asks_append, fails_append, ← resolve_eq_none_iff key, ← resolve_eq_none_iff value,
      resolve]
    cases resolve p expand site key <;> cases resolve p expand site value <;> simp
  | chan dir elem =>
    rw [embedded, ← resolve_eq_none_iff elem, resolve]
    cases resolve p expand site elem <;> simp
  | func sig =>
    rw [embedded, ← resolveSignature_eq_none_iff sig, resolve]
    cases resolveSignature p expand site sig <;> simp
  | struct fields =>
    rw [embedded, ← resolveFields_eq_none_iff fields, resolve]
    cases resolveFields p expand site fields <;> simp
  | interface elements =>
    rw [embedded, asks_append, ← asksOwn_zero, ← resolveElements_eq_none_iff 0 {} elements, resolve]
    cases resolveElements p expand site 0 {} elements <;> simp
  | paren inner => rw [embedded, resolve, resolve_eq_none_iff inner]
  | tilde inner =>
    rw [embedded, ← resolve_eq_none_iff inner, resolve]
    cases resolve p expand site inner <;> simp
  | terms alternatives =>
    rw [embedded, ← resolveTerms_eq_none_iff alternatives, resolve]
    cases resolveTerms p expand site alternatives <;> simp
  | verbatim text => simp [resolve, embedded]

theorem resolveArgs_eq_none_iff (args : List (TypeArg TypeExpr)) :
    resolveArgs p expand site args = none ↔ Fails expand (asks p site (embeddedArgs args)) := by
  cases args with
  | nil => simp [resolveArgs, embeddedArgs]
  | cons arg rest =>
    obtain ⟨text, terms⟩ := arg
    rw [embeddedArgs, asks_append, fails_append, ← resolveTerms_eq_none_iff terms,
      ← resolveArgs_eq_none_iff rest, resolveArgs]
    cases resolveTerms p expand site terms <;> cases resolveArgs p expand site rest <;> simp

theorem resolveTerms_eq_none_iff (ts : List TypeExpr) :
    resolveTerms p expand site ts = none ↔ Fails expand (asks p site (embeddedTerms ts)) := by
  cases ts with
  | nil => simp [resolveTerms, embeddedTerms]
  | cons t rest =>
    rw [embeddedTerms, asks_append, fails_append, ← resolve_eq_none_iff t,
      ← resolveTerms_eq_none_iff rest, resolveTerms]
    cases resolve p expand site t <;> cases resolveTerms p expand site rest <;> simp

theorem resolveParams_eq_none_iff (ps : List (Param TypeExpr)) :
    resolveParams p expand site ps = none ↔ Fails expand (asks p site (embeddedParams ps)) := by
  cases ps with
  | nil => simp [resolveParams, embeddedParams]
  | cons q rest =>
    obtain ⟨name, type⟩ := q
    rw [embeddedParams, asks_append, fails_append, ← resolve_eq_none_iff type,
      ← resolveParams_eq_none_iff rest, resolveParams]
    cases resolve p expand site type <;> cases resolveParams p expand site rest <;> simp

theorem resolveSignature_eq_none_iff (sig : Signature TypeExpr) :
    resolveSignature p expand site sig = none ↔
      Fails expand (asks p site (embeddedSignature sig)) := by
  obtain ⟨binders, receiverBinders, params, results, variadic⟩ := sig
  rw [embeddedSignature, asks_append, fails_append, ← resolveParams_eq_none_iff params,
    ← resolveParams_eq_none_iff results, resolveSignature]
  cases resolveParams p expand site params <;> cases resolveParams p expand site results <;> simp

theorem resolveFields_eq_none_iff (fs : List (FieldDecl TypeExpr)) :
    resolveFields p expand site fs = none ↔ Fails expand (asks p site (embeddedFields fs)) := by
  cases fs with
  | nil => simp [resolveFields, embeddedFields]
  | cons f rest =>
    obtain ⟨name?, type⟩ := f
    rw [embeddedFields, asks_append, fails_append, ← resolve_eq_none_iff type,
      ← resolveFields_eq_none_iff rest, resolveFields]
    cases resolve p expand site type <;> cases resolveFields p expand site rest <;> simp

/-- Whatever stands before the elements, they fail for the same reason. -/
theorem resolveElements_eq_none_iff (depth : Nat) (before : Interface Ty)
    (es : List (Element TypeExpr)) :
    resolveElements p expand site depth before es = none ↔
      Fails expand (asksOwn p site depth (loneNames es) ++ asks p site (embeddedElements es)) := by
  cases es with
  | nil => simp [resolveElements, loneNames, embeddedElements, asksOwn]
  | cons e rest =>
    have hrest := fun before => resolveElements_eq_none_iff depth before rest
    cases e with
    | method name sig =>
      rw [loneNames, embeddedElements, asks_append, fails_append, fails_append,
        ← resolveSignature_eq_none_iff sig, resolveElements]
      cases resolveSignature p expand site sig with
      | none => simp
      | some g => simpa using hrest (mergeInterface before { methods := [⟨name, g⟩] })
    | terms alternatives =>
      have hterms := resolveTerms_eq_none_iff alternatives
      rw [loneNames, embeddedElements, asks_append, asksOwn_append, fails_append, fails_append,
        fails_append, resolveElements]
      rcases flattened?_cases p expand site depth alternatives with
        ⟨name, hname, hflat, hbody⟩ | ⟨hown, ⟨hnone, hbody⟩ | hbody⟩
      · -- the element asks for its own expansion, and its plain name for nothing else
        have hinner : embeddedTerms alternatives = [] := by
          unfold loneName? at hname
          split at hname
          · simp [embeddedTerms, embedded]
          · cases hname
        rw [hname, hbody, hinner, Option.toList_some, asksOwn_singleton, if_pos hflat]
        cases hexp : expand name (depth + 1) with
        | none => simp [hexp]
        | some body => simpa [hexp] using hrest (mergeInterface before body)
      · rw [hown, hbody, hnone]
        simpa using hrest (mergeInterface before errorInterface)
      · rw [hown, hbody, ← hterms]
        cases resolveTerms p expand site alternatives with
        | none => simp
        | some terms =>
          simp only [fails_nil, reduceCtorEq, false_or]
          show (match terms with
            | [⟨false, type⟩] => _
            | terms => _) = none ↔ _
          rw [← fails_append]
          split
          · exact hrest _
          · exact hrest _

end

end

/-! ## Chains of expansions -/

/-- The expansions that the body of a declared interface asks for. -/
def callees (p : Package) (c : Call) : List Call :=
  match p.type? c.1 with
  | none => []
  | some t =>
    match TypeDecl.literal? t.decl with
    | none => []
    | some elements =>
      asksOwn p t.site c.2 (loneNames elements) ++ asks p t.site (embeddedElements elements)

/-- One expansion calls another inside itself. -/
def Nests (p : Package) (c c' : Call) : Prop := c' ∈ callees p c

section

variable {p : Package}

/-- One unit of fuel carries an expansion to its callees. -/
theorem expandWithin_succ_eq_none_iff (fuel : Nat) (c : Call) :
    expandWithin p (fuel + 1) c.1 c.2 = none ↔ Fails (expandWithin p fuel) (callees p c) := by
  unfold callees
  rw [expandWithin]
  cases p.type? c.1 with
  | none => simp
  | some t =>
    cases hlit : TypeDecl.literal? t.decl with
    | none => simp [hlit]
    | some es => simpa [hlit] using resolveElements_eq_none_iff p _ t.site c.2 {} es

/-- Fuel runs out exactly along a chain of that many calls. -/
theorem expandWithin_eq_none_iff (fuel : Nat) (c : Call) :
    expandWithin p fuel c.1 c.2 = none ↔
      ∃ cs : List Call, cs.length = fuel ∧ (c :: cs).IsChain (Nests p) := by
  induction fuel generalizing c with
  | zero =>
    constructor
    · intro _
      exact ⟨[], rfl, .singleton c⟩
    · intro _
      rfl
  | succ fuel ih =>
    rw [expandWithin_succ_eq_none_iff]
    constructor
    · rintro ⟨c', hc', hnone⟩
      obtain ⟨cs, hlen, hchain⟩ := (ih c').1 hnone
      exact ⟨c' :: cs, by simp [hlen], List.isChain_cons_cons.2 ⟨hc', hchain⟩⟩
    · rintro ⟨cs, hlen, hchain⟩
      cases cs with
      | nil => simp at hlen
      | cons c' cs =>
        obtain ⟨hc', hchain⟩ := List.isChain_cons_cons.1 hchain
        exact ⟨c', hc', (ih c').2 ⟨cs, by simpa using hlen, hchain⟩⟩

/-- A body goes one level deeper at its own elements only, and not beyond the greatest depth. -/
theorem nests_iff {c c' : Call} :
    Nests p c c' ↔ ∃ t es, p.type? c.1 = some t ∧ TypeDecl.literal? t.decl = some es ∧
      flattens p t.site c'.1 = true ∧
      (c'.1 ∈ loneNames es ∧ c.2 < maxDepth ∧ c'.2 = c.2 + 1 ∨
        c'.1 ∈ embeddedElements es ∧ c'.2 = 1) := by
  unfold Nests callees
  cases ht : p.type? c.1 with
  | none => simp
  | some t =>
    cases hes : TypeDecl.literal? t.decl with
    | none => simp [hes]
    | some es =>
      simp only [hes, List.mem_append, mem_asks, mem_asksOwn, Option.some.injEq, exists_and_left,
        exists_eq_left']
      tauto

theorem Nests.isInterface {c c' : Call} (h : Nests p c c') : IsInterface p c'.1 := by
  obtain ⟨t, es, _, _, hflat, _⟩ := nests_iff.1 h
  exact isInterface_of_flattens hflat

theorem Nests.depth {c c' : Call} (h : Nests p c c') :
    c'.2 = 1 ∨ c'.2 = c.2 + 1 ∧ c.2 < maxDepth := by
  obtain ⟨t, es, _, _, _, ⟨_, hlt, hd⟩ | ⟨_, hd⟩⟩ := nests_iff.1 h
  · exact Or.inr ⟨hd, hlt⟩
  · exact Or.inl hd

/-- A body that is embedded less deep asks for the same interfaces, less deep. -/
theorem Nests.shallower {name : String} {d d' : Nat} {c : Call} (h : Nests p (name, d) c)
    (hd : d' ≤ d) : ∃ c', Nests p (name, d') c' ∧ c'.1 = c.1 ∧ c'.2 ≤ c.2 := by
  obtain ⟨t, es, ht, hes, hflat, ⟨hmem, hlt, hc⟩ | ⟨hmem, hc⟩⟩ := nests_iff.1 h
  · dsimp only at hlt hc
    refine ⟨(c.1, d' + 1), nests_iff.2 ⟨t, es, ht, hes, hflat, Or.inl ⟨hmem, ?_, rfl⟩⟩, rfl, ?_⟩
    · dsimp only
      omega
    · dsimp only
      omega
  · exact ⟨c, nests_iff.2 ⟨t, es, ht, hes, hflat, Or.inr ⟨hmem, hc⟩⟩, rfl, Nat.le_refl _⟩

/-- An expansion that is embedded less deep fails if a deeper one does. -/
theorem expandWithin_eq_none_mono (fuel : Nat) {name : String} {d d' : Nat} (hd : d' ≤ d)
    (h : expandWithin p fuel name d = none) : expandWithin p fuel name d' = none := by
  induction fuel generalizing name d d' with
  | zero => rfl
  | succ fuel ih =>
    obtain ⟨c, hc, hnone⟩ := (expandWithin_succ_eq_none_iff fuel (name, d)).1 h
    obtain ⟨c', hc', hname, hle⟩ := Nests.shallower hc hd
    refine (expandWithin_succ_eq_none_iff fuel (name, d')).2 ⟨c', hc', ?_⟩
    rw [hname]
    exact ih hle hnone

/-- All calls that another one can make: a declared type at one of the depths. -/
def possibleCalls (p : Package) : List Call :=
  p.types.flatMap fun t => (List.range maxDepth).map fun d => (t.decl.name, d + 1)

theorem length_possibleCalls : (possibleCalls p).length = maxDepth * p.types.length := by
  simp [possibleCalls, List.length_flatMap, Nat.mul_comm]

/-- There are finitely many calls: a local interface and a level at most. -/
theorem Nests.mem_possibleCalls {c c' : Call} (h : Nests p c c') : c' ∈ possibleCalls p := by
  obtain ⟨t, es, ht, hes⟩ := h.isInterface
  have hpos : 0 < maxDepth := by decide
  have hdepth : 1 ≤ c'.2 ∧ c'.2 ≤ maxDepth := by
    rcases h.depth with h1 | ⟨h1, hlt⟩ <;> omega
  have hmem : t ∈ p.types := List.mem_of_find?_eq_some ht
  have hname : t.decl.name = c'.1 := by simpa using List.find?_some ht
  refine List.mem_flatMap.2 ⟨t, hmem, List.mem_map.2 ⟨c'.2 - 1, List.mem_range.2 (by omega), ?_⟩⟩
  rw [hname, Nat.sub_add_cancel hdepth.1]

/-- A chain longer than the number of calls there are comes back to one of them. -/
theorem exists_cycle_of_chain {c : Call} {cs : List Call} (hchain : (c :: cs).IsChain (Nests p))
    (hlen : maxDepth * p.types.length < cs.length) :
    ∃ x, Relation.ReflTransGen (Nests p) c x ∧ Relation.TransGen (Nests p) x x := by
  have htrans : (c :: cs).IsChain (Relation.TransGen (Nests p)) :=
    hchain.imp fun _ _ h => Relation.TransGen.single h
  have hpairs : (c :: cs).Pairwise (Relation.TransGen (Nests p)) := htrans.pairwise
  have hsub : cs ⊆ possibleCalls p := by
    intro x hx
    obtain ⟨y, _, hy⟩ := Relation.TransGen.tail'_iff.1 ((List.pairwise_cons.1 hpairs).1 x hx)
    exact hy.mem_possibleCalls
  have hdup : ¬ cs.Nodup := by
    intro hnodup
    have hle := (List.subperm_of_subset hnodup hsub).length_le
    rw [length_possibleCalls] at hle
    omega
  obtain ⟨x, hx⟩ := List.exists_duplicate_iff_not_nodup.2 hdup
  have hpair := (List.pairwise_cons.1 hpairs).2.sublist (List.duplicate_iff_sublist.1 hx)
  exact ⟨x, ((List.pairwise_cons.1 hpairs).1 x hx.mem).to_reflTransGen,
    (List.pairwise_cons.1 hpair).1 x (by simp)⟩

/-! ## Endless expansions -/

/-- The expansion leads into one that calls itself. -/
def Endless (p : Package) (c : Call) : Prop :=
  ∃ x, Relation.ReflTransGen (Nests p) c x ∧ Relation.TransGen (Nests p) x x

theorem Endless.step {c : Call} (h : Endless p c) : ∃ c', Nests p c c' ∧ Endless p c' := by
  obtain ⟨x, hcx, hx⟩ := h
  rcases Relation.ReflTransGen.cases_head hcx with rfl | ⟨c', hc', hx'⟩
  · obtain ⟨c', hc', hback⟩ := Relation.TransGen.head'_iff.1 hx
    exact ⟨c', hc', c, hback, hx⟩
  · exact ⟨c', hc', x, hx', hx⟩

/-- No fuel is enough for an endless expansion. -/
theorem Endless.expandWithin {c : Call} (h : Endless p c) (fuel : Nat) :
    expandWithin p fuel c.1 c.2 = none := by
  induction fuel generalizing c with
  | zero => rfl
  | succ fuel ih =>
    obtain ⟨c', hc', h'⟩ := h.step
    exact (expandWithin_succ_eq_none_iff fuel c).2 ⟨c', hc', ih h'⟩

/-- An expansion fails exactly when it calls others without end. -/
theorem expand_eq_none_iff (c : Call) : p.expand c.1 c.2 = none ↔ Endless p c := by
  constructor
  · intro h
    obtain ⟨cs, hlen, hchain⟩ := (expandWithin_eq_none_iff _ c).1 h
    exact exists_cycle_of_chain hchain (by omega)
  · intro h
    exact h.expandWithin _

/-- Along a chain the depth grows, except where the count starts anew. -/
theorem transGen_depth {x y : Call} (h : Relation.TransGen (Nests p) x y) :
    x.2 < y.2 ∨ ∃ name, Relation.TransGen (Nests p) x (name, 1) ∧
      Relation.ReflTransGen (Nests p) (name, 1) y := by
  induction h with
  | single hxy =>
    next y =>
    rcases hxy.depth with h1 | ⟨h1, _⟩
    · exact Or.inr ⟨y.1, by rw [← h1]; exact .single hxy, by rw [← h1]⟩
    · exact Or.inl (by omega)
  | tail hxy hyz ih =>
    next y z =>
    rcases hyz.depth with h1 | ⟨h1, _⟩
    · exact Or.inr ⟨z.1, by rw [← h1]; exact hxy.tail hyz, by rw [← h1]⟩
    · rcases ih with hlt | ⟨name, hto, hfrom⟩
      · exact Or.inl (by omega)
      · exact Or.inr ⟨name, hto, hfrom.tail hyz⟩

/-- A cycle passes through a place where the count starts anew. -/
theorem exists_root_cycle {x : Call} (h : Relation.TransGen (Nests p) x x) :
    ∃ name, Relation.TransGen (Nests p) (name, 1) (name, 1) := by
  rcases transGen_depth h with hlt | ⟨name, hto, hfrom⟩
  · omega
  · exact ⟨name, Relation.TransGen.trans_right hfrom hto⟩

end

end GoApi.Surface
