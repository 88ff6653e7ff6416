import GoApi.Proofs.Lists
import GoApi.Proofs.Surface.Nesting
import GoApi.Surface.Load
import Mathlib.Data.List.TakeWhile
import Mathlib.Tactic.ByContra
import Mathlib.Tactic.TFAE

/-!
# When loading ends

Everything that a package's table needs is computed once its interfaces have an expansion, and they
have one unless an interface, embedded at depth 1, comes back to itself at depth 1:

    p.Resolves ↔ ∀ name, ¬ TransGen (Nests p) (name, 1) (name, 1)          (loading_ends_iff)

In that case no chain of nested expansions is longer than `maxDepth * p.types.length`.  The depth alone
does not bound them, since each interface literal starts counting anew.
-/

namespace GoApi.Surface

open Source

/-! ## What the expansions carry -/

/-- Every interface of the package has an expansion. -/
def Package.Expands (p : Package) : Prop := ∀ c : Call, (p.expand c.1 c.2).isSome

namespace Package.Expands

variable {p : Package} (hp : p.Expands)

include hp

/-- No call fails where every name expands. -/
theorem not_fails (cs : List Call) : ¬ Fails p.expand cs := by
  rintro ⟨c, _, hc⟩
  have := hp c
  simp [hc] at this

theorem resolve (site : Site) (t : TypeExpr) : (p.resolve site t).isSome := by
  rw [Option.isSome_iff_ne_none]
  intro hnone
  exact hp.not_fails _ ((resolve_eq_none_iff p p.expand site t).1 hnone)

theorem signature (site : Site) (sig : Signature TypeExpr) : (p.signature site sig).isSome := by
  rw [Option.isSome_iff_ne_none]
  intro hnone
  exact hp.not_fails _ ((resolveSignature_eq_none_iff p p.expand site sig).1 hnone)

theorem binders (site : Site) (bs : List (Binder TypeExpr)) : (p.binders site bs).isSome :=
  isSome_mapM fun b _ => isSome_bind (hp.resolve site b.constraint) fun _ => rfl

theorem funcType? (f : LocalFunc) : (funcType? p f).isSome := by
  unfold Surface.funcType?
  split
  · simpa using hp.signature f.site f.sig
  · rfl

theorem callResults (site : Site) (e : Expr) : (callResults p site e).isSome := by
  unfold Surface.callResults
  split
  · split
    · refine isSome_bind (hp.funcType? _) fun sig? => ?_
      cases sig? <;> rfl
    · split
      · rfl
      · split
        · rfl
        · split
          · rfl
          · split
            · exact isSome_bind (hp.resolve site _) fun _ => rfl
            · split
              · exact isSome_bind (hp.resolve site _) fun _ => rfl
              · rfl
  · split
    · split <;> rfl
    · rfl
  · rfl

theorem single (site : Site) (e : Expr) : (infer.single p site e).isSome := by
  unfold infer.single
  refine isSome_bind (hp.callResults site e) fun types => ?_
  split <;> rfl

theorem infer (site : Site) (values : Values) (e : Expr) : (infer p site values e).isSome := by
  induction e with
  | literal kind => rfl
  | name name =>
    rw [Surface.infer]
    split
    · rfl
    · split
      · exact isSome_bind (hp.funcType? _) fun _ => rfl
      · rfl
  | paren inner ih => exact ih
  | unary op operand ih =>
    cases op with
    | address => exact isSome_bind ih fun _ => rfl
    | fetch => rfl
    | same => exact ih
  | binary op left right ihl ihr =>
    cases op with
    | compare => rfl
    | shift => exact ihl
    | combine =>
      refine isSome_bind ihl fun l? => ?_
      cases l? with
      | none => rfl
      | some l => exact isSome_bind ihr fun _ => rfl
  | call function firstType? => exact hp.single site _
  | callMember operand member => exact hp.single site _
  | ofType type => exact isSome_bind (hp.resolve site type) fun _ => rfl
  | function sig => exact isSome_bind (hp.signature site sig) fun _ => rfl
  | other => rfl

theorem inferAt (site : Site) (values : Values) (exprs : List Expr) (i : Nat) :
    (inferAt p site values exprs i).isSome := by
  unfold Surface.inferAt
  split
  · exact hp.infer site values _
  · rfl

theorem typeNames (site : Site) (type? : Option TypeExpr) {at? : Nat → Option (Option Ty)}
    (hat : ∀ i, (at? i).isSome) (names : List String) :
    (typeNames p site type? at? names).isSome := by
  unfold Surface.typeNames
  have hdeclared : (type?.mapM (p.resolve site)).isSome := by
    cases type? with
    | none => rfl
    | some t => simpa using hp.resolve site t
  refine isSome_bind hdeclared fun declared => isSome_mapM fun x _ => ?_
  cases declared with
  | none => exact isSome_bind (hat x.2) fun _ => rfl
  | some type => rfl

theorem constValues (site : Site) (values : Values) (previous : Option TypeExpr × List Expr)
    (specs : List ValueSpec) : (constValues p site values previous specs).isSome := by
  induction specs generalizing previous with
  | nil => rfl
  | cons spec rest ih =>
    rw [Surface.constValues]
    exact isSome_bind (hp.typeNames site _ (hp.inferAt site values _) _) fun _ =>
      isSome_bind (ih _) fun _ => rfl

theorem sharedResults (site : Site) (spec : ValueSpec) : (sharedResults p site spec).isSome := by
  unfold Surface.sharedResults
  split
  · split
    · exact hp.callResults site _
    · rfl
  · rfl

theorem varValues (site : Site) (values : Values) (spec : ValueSpec) :
    (varValues p site values spec).isSome := by
  unfold Surface.varValues
  refine isSome_bind (hp.sharedResults site spec) fun results => hp.typeNames site _ (fun i => ?_) _
  split
  · exact hp.inferAt site values _ i
  · rfl

theorem declValues (site : Site) (values : Values) (d : Decl) :
    (declValues p site values d).isSome := by
  unfold Surface.declValues
  split
  · exact isSome_bind (hp.constValues site values _ _) fun _ => rfl
  · exact isSome_bind (isSome_mapM fun spec _ => hp.varValues site values spec) fun _ => rfl
  · rfl

theorem learnRound (values : Values) : (learnRound p values).isSome :=
  isSome_foldlM (fun vs u _ => isSome_foldlM (fun vs d _ =>
    isSome_bind (hp.declValues u.site vs d) fun _ => rfl) vs) values

/-- Every round ends, so any number of rounds does. -/
theorem learnRounds (rounds : Nat) (values : Values) : (learnRounds p rounds values).isSome := by
  induction rounds generalizing values with
  | zero => rfl
  | succ rounds ih =>
    rw [Surface.learnRounds]
    refine isSome_bind (hp.learnRound values) fun next => ?_
    split
    · rfl
    · exact ih next

theorem values : p.values.isSome := hp.learnRounds maxRounds []

theorem declSymbols (values : Values) (site : Site) (d : Decl) :
    ∀ s ∈ p.declSymbols values site d, s.isSome := by
  intro s hs
  unfold Package.declSymbols at hs
  split at hs
  · cases hs
  · rw [List.mem_singleton] at hs
    rw [hs]
    exact isSome_bind (hp.binders _ _) fun _ => isSome_bind (hp.signature _ _) fun _ => rfl
  · rw [List.mem_singleton] at hs
    rw [hs]
    exact isSome_bind (hp.signature _ _) fun _ => rfl
  · cases hs
  · obtain ⟨d, _, rfl⟩ := List.mem_map.1 hs
    exact isSome_bind (hp.binders _ _) fun _ => isSome_bind (hp.resolve _ _) fun _ => rfl
  · split at hs
    · next hnone =>
      have := hp.declValues site values d
      rw [hnone] at this
      cases this
    · obtain ⟨d, _, rfl⟩ := List.mem_map.1 hs
      rfl

end Package.Expands

/-! ## Loading -/

/-- Every symbol of the package is told. -/
def Package.Resolves (p : Package) : Prop :=
  ∃ values, p.values = some values ∧ ∀ s ∈ p.symbols values, s.isSome

theorem Package.Expands.resolves {p : Package} (hp : p.Expands) : p.Resolves := by
  obtain ⟨values, hvalues⟩ := Option.isSome_iff_exists.1 hp.values
  refine ⟨values, hvalues, fun s hs => ?_⟩
  obtain ⟨u, _, hu⟩ := List.mem_flatMap.1 hs
  obtain ⟨d, _, hd⟩ := List.mem_flatMap.1 hu
  exact hp.declSymbols values u.site d s hd

/-- A declared type has its symbol among those of the package. -/
theorem typeSymbol_mem {p : Package} {t : LocalType} (ht : t ∈ p.types) (values : Values) :
    p.typeSymbol t.site t.decl ∈ p.symbols values := by
  obtain ⟨u, hu, ht⟩ := List.mem_flatMap.1 ht
  obtain ⟨d, hd, ht⟩ := List.mem_flatMap.1 ht
  refine List.mem_flatMap.2 ⟨u, hu, List.mem_flatMap.2 ⟨d, hd, ?_⟩⟩
  cases d with
  | types list =>
    obtain ⟨decl, hdecl, rfl⟩ := List.mem_map.1 ht
    exact List.mem_map.2 ⟨decl, hdecl, rfl⟩
  | _ => cases ht

/-- The symbol of an interface that comes back to itself is not told: its own literal starts at depth 0,
where it asks for no less than at depth 1. -/
theorem typeSymbol_eq_none {p : Package} {name : String}
    (h : Relation.TransGen (Nests p) (name, 1) (name, 1)) :
    ∃ t ∈ p.types, p.typeSymbol t.site t.decl = none := by
  obtain ⟨c, hc, hback⟩ := Relation.TransGen.head'_iff.1 h
  have hnone : p.expand c.1 c.2 = none := (expand_eq_none_iff c).2 ⟨(name, 1), hback, h⟩
  obtain ⟨c', hc', hname, hle⟩ := Nests.shallower hc (Nat.zero_le 1)
  obtain ⟨t, es, ht, hlit, hflat, hin⟩ := nests_iff.1 hc'
  refine ⟨t, List.mem_of_find?_eq_some ht, ?_⟩
  have hbody : p.resolve t.site (.interface es) = none := by
    rw [Package.resolve, resolve_eq_none_iff]
    refine ⟨c', mem_asks.2 ⟨?_, hflat, ?_⟩, ?_⟩
    · rw [embedded, List.mem_append]
      exact hin.imp And.left And.left
    · rcases hin with ⟨_, _, hd⟩ | ⟨_, hd⟩ <;> exact hd
    · rw [hname]
      exact expandWithin_eq_none_mono _ hle hnone
  obtain ⟨hbinders, hdecl⟩ := literal?_eq_some hlit
  rw [Package.typeSymbol, hbinders, hdecl]
  simp [Package.binders, Site.within, hbody]

/-- A table comes from symbols that are all told. -/
theorem tableOf_eq_ok_iff (package : String) (files : List File) (table : SymbolTable) :
    tableOf package files = .ok table ↔
      ∃ values symbols, (Package.ofFiles files).values = some values ∧
        (Package.ofFiles files).symbols values = symbols.map some ∧
        SymbolTable.ofSymbols package symbols = .ok table := by
  unfold tableOf
  dsimp only
  cases hvalues : (Package.ofFiles files).values with
  | none => simp
  | some values =>
    simp only [Option.some.injEq, exists_and_left, exists_eq_left']
    generalize (Package.ofFiles files).symbols values = symbols at *
    by_cases hall : symbols.all (·.isSome) = true
    · obtain ⟨known, rfl⟩ : ∃ known : List Symbol, symbols = known.map some := by
        refine ⟨symbols.reduceOption, ?_⟩
        rw [List.all_eq_true] at hall
        exact (map_some_reduceOption hall).symm
      have htaken : (known.map some).takeWhile (·.isSome) = known.map some := by
        rw [List.takeWhile_eq_self_iff]
        simp
      rw [htaken, reduceOption_map_some]
      simp only [hall, if_true]
      constructor
      · intro h
        refine ⟨known, rfl, ?_⟩
        split at h
        · cases h
        · next hok =>
          obtain rfl := Except.ok.inj h
          exact hok
      · rintro ⟨known', hknown, hok⟩
        obtain rfl := (List.map_inj_right fun _ _ => Option.some.inj).1 hknown
        rw [hok]
    · simp only [hall, Bool.false_eq_true, if_false]
      constructor
      · intro h
        split at h <;> cases h
      · rintro ⟨known, rfl, _⟩
        simp at hall

/-- With all symbols told, the loader gives a table or names a duplicate. -/
theorem tableOf_ne_endless {files : List File} (h : (Package.ofFiles files).Resolves)
    (package : String) : tableOf package files ≠ .error (.load .endless) := by
  obtain ⟨values, hvalues, hall⟩ := h
  unfold tableOf
  dsimp only
  simp only [hvalues, List.all_eq_true.2 hall, if_true]
  intro hend
  split at hend <;> cases hend

/-! ## Cycles -/

/-- No chain of nested expansions has more than `bound` calls inside its first one. -/
def NestingBounded (p : Package) (bound : Nat) : Prop :=
  ∀ c cs, (c :: cs).IsChain (Nests p) → cs.length ≤ bound

/-- A cycle of embeddings is followed past any bound. -/
theorem not_nestingBounded {p : Package} {c : Call} (hcycle : Relation.TransGen (Nests p) c c)
    (bound : Nat) : ¬ NestingBounded p bound := by
  intro hbound
  have hnone := Endless.expandWithin ⟨c, .refl, hcycle⟩ (bound + 1)
  obtain ⟨cs, hlen, hchain⟩ := (expandWithin_eq_none_iff _ _).1 hnone
  have := hbound _ _ hchain
  omega

/-- An interface whose expansion fails leads to one that comes back to itself at depth 1. -/
theorem exists_cycle_of_expand {p : Package} {c : Call} (h : p.expand c.1 c.2 = none) :
    ∃ name, Relation.TransGen (Nests p) (name, 1) (name, 1) := by
  obtain ⟨x, _, hx⟩ := (expand_eq_none_iff c).1 h
  exact exists_root_cycle hx

theorem Package.Resolves.acyclic {p : Package} (h : p.Resolves) (name : String) :
    ¬ Relation.TransGen (Nests p) (name, 1) (name, 1) := by
  obtain ⟨values, _, hall⟩ := h
  intro hcycle
  obtain ⟨t, ht, hnone⟩ := typeSymbol_eq_none hcycle
  have := hall _ (typeSymbol_mem ht values)
  rw [hnone] at this
  cases this

/-- Without a cycle every name expands: an expansion that runs out of fuel has gone round one. -/
theorem expands_of_acyclic {p : Package}
    (h : ∀ name, ¬ Relation.TransGen (Nests p) (name, 1) (name, 1)) : p.Expands := by
  intro c
  rw [Option.isSome_iff_ne_none]
  intro hnone
  obtain ⟨name, hname⟩ := exists_cycle_of_expand hnone
  exact h name hname

/-- The symbols of a package that has a table are all told. -/
theorem resolves_of_tableOf {package : String} {files : List File} {t : SymbolTable}
    (h : tableOf package files = .ok t) : (Package.ofFiles files).Resolves := by
  obtain ⟨values, symbols, hvalues, hsymbols, _⟩ := (tableOf_eq_ok_iff package files t).1 h
  exact ⟨values, hvalues, by simp [hsymbols]⟩

/-- The nested expansions of a package are bounded, and its symbols told, exactly if no declared
interface that is embedded at depth 1 comes back to itself at depth 1.  Only then can the package have a
table, and then the loader does not fail for want of an end. -/
theorem loading_ends_iff (files : List File) :
    List.TFAE [
      (Package.ofFiles files).Resolves,
      ∃ bound, NestingBounded (Package.ofFiles files) bound,
      NestingBounded (Package.ofFiles files) (maxDepth * (Package.ofFiles files).types.length),
      ∀ name, ¬ Relation.TransGen (Nests (Package.ofFiles files)) (name, 1) (name, 1)] ∧
    ∀ package, ((Package.ofFiles files).Resolves → tableOf package files ≠ .error (.load .endless)) ∧
      ∀ t, tableOf package files = .ok t → (Package.ofFiles files).Resolves := by
  refine ⟨?_, fun package => ⟨fun h => tableOf_ne_endless h package, fun t => resolves_of_tableOf⟩⟩
  set p := Package.ofFiles files
  tfae_have 1 → 4 := fun hresolves => hresolves.acyclic
  tfae_have 4 → 3 := by
    intro hacyclic c cs hchain
    by_contra hlen
    obtain ⟨x, _, hx⟩ := exists_cycle_of_chain hchain (by omega)
    obtain ⟨name, hname⟩ := exists_root_cycle hx
    exact hacyclic name hname
  tfae_have 3 → 2 := fun hbound => ⟨_, hbound⟩
  tfae_have 2 → 4 := by
    rintro ⟨bound, hbound⟩ name hcycle
    exact not_nestingBounded hcycle bound hbound
  tfae_have 4 → 1 := fun hacyclic => (expands_of_acyclic hacyclic).resolves
  tfae_finish

instance decidableFailure {α : Type} (r : Except PackageError α) (e : PackageError) :
    Decidable (r = .error e) :=
  match r with
  | .ok _ => isFalse (by simp)
  | .error e' => decidable_of_iff (e' = e) (by simp)

/-- An interface with a method that takes a literal which embeds the interface. -/
def selfTaking : String := "package p\ntype I interface \x7b M(interface\x7b I \x7d) \x7d\n"

/-- The literal starts counting anew each time, so this package has no table and no bound. -/
theorem selfTaking_endless :
    load {} "./pkg" [⟨"p.go", selfTaking⟩] = .error (.load .endless) ∧
      ¬ ∃ bound, NestingBounded (Package.ofFiles [File.ofSource selfTaking]) bound := by
  refine ⟨by decide +kernel, ?_⟩
  have hcalls : ("I", 1) ∈ callees (Package.ofFiles [File.ofSource selfTaking]) ("I", 1) := by
    decide +kernel
  rintro ⟨bound, hbound⟩
  exact not_nestingBounded (.single hcalls) bound hbound

end GoApi.Surface
