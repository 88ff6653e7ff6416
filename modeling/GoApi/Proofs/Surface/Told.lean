import GoApi.Proofs.Surface.FileOrder

/-!
# What the types of symbols are told from

However many rounds it takes, the type of a constant or variable is a basic type, or it is resolved from a
type expression of a declaration at the place of that declaration, or it points to such a type (`Told`).
Together with the symbols of functions, methods and types, that is all that a table holds (`symbols_cases`).
-/

namespace GoApi.Surface

open Source

/-- The type expressions that the type of an initializer may be taken from. -/
def exprSources : Expr → List TypeExpr
  | .paren inner => exprSources inner
  | .unary _ operand => exprSources operand
  | .binary _ left right => exprSources left ++ exprSources right
  | .call function first? => .name function :: first?.toList
  | .ofType type => [type]
  | .function sig => [.func sig]
  | .literal _ | .name _ | .callMember _ _ | .other => []

/-- The type expressions of one line of a declaration of values. -/
def specSources (spec : ValueSpec) : List TypeExpr :=
  spec.type?.toList ++ spec.values.flatMap exprSources

/-- The type expressions of a declaration that the type of a value may be taken from. -/
def declSources : Decl → List TypeExpr
  | .func _ sig => .func sig :: sig.results.map (·.type)
  | d => (declSpecs d).flatMap specSources

/-- A type that may be told of a value. -/
inductive Told (p : Package) : Ty → Prop
  | basic (name : String) : Told p (.basic name)
  | resolved {site : Site} {d : Decl} (hd : (site, d) ∈ p.decls) {type : TypeExpr}
      (htype : type ∈ declSources d) {t : Ty} (ht : p.resolve site type = some t) : Told p t
  | pointer {t : Ty} (ht : Told p t) : Told p (.pointer t)

theorem exprSources_subset {spec : ValueSpec} {sources : List TypeExpr} (hspec : specSources spec ⊆ sources)
    {e : Expr} (he : e ∈ spec.values) : exprSources e ⊆ sources :=
  fun _ ht => hspec (List.mem_append_right _ (List.mem_flatMap.2 ⟨e, he, ht⟩))

theorem resolve_func {p : Package} {site : Site} {sig : Signature TypeExpr} {g : Signature Ty}
    (h : p.signature site sig = some g) : p.resolve site (.func sig) = some (.func g) := by
  rw [Package.resolve, resolve, ← Package.signature, h]
  rfl

/-- Each resolved parameter has the type of one that is written. -/
theorem exists_of_mem_resolveParams {p : Package} {site : Site} {params : List (Param TypeExpr)}
    {resolved : List (Param Ty)} (h : resolveParams p p.expand site params = some resolved) :
    ∀ r ∈ resolved, ∃ q ∈ params, p.resolve site q.type = some r.type := by
  induction params generalizing resolved with
  | nil =>
    rw [resolveParams] at h
    cases h
    simp
  | cons q params ih =>
    rw [resolveParams] at h
    obtain ⟨t, ht, h⟩ := Option.bind_eq_some_iff.1 h
    obtain ⟨more, hmore, h⟩ := Option.bind_eq_some_iff.1 h
    cases h
    refine List.forall_mem_cons.2 ⟨⟨q, List.mem_cons_self, ht⟩, fun r hr => ?_⟩
    obtain ⟨q', hq', hr'⟩ := ih hmore r hr
    exact ⟨q', List.mem_cons_of_mem q hq', hr'⟩

theorem exists_of_mem_results {p : Package} {site : Site} {sig : Signature TypeExpr} {g : Signature Ty}
    (h : p.signature site sig = some g) :
    ∀ r ∈ g.results, ∃ q ∈ sig.results, p.resolve site q.type = some r.type := by
  unfold Package.signature at h
  rw [resolveSignature] at h
  obtain ⟨params, -, h⟩ := Option.bind_eq_some_iff.1 h
  obtain ⟨results, hresults, h⟩ := Option.bind_eq_some_iff.1 h
  cases h
  exact exists_of_mem_resolveParams hresults

/-- An operation on two values has the type of one of them. -/
theorem combine_cases (l r : Ty) : combine l r = l ∨ combine l r = r := by
  unfold combine
  split
  · exact .inl rfl
  · exact .inr rfl
  · split
    · exact .inr rfl
    · exact .inl rfl

/-! ## Initializers -/

section Infer

variable {p : Package}

/-- A function's results are told by its own declaration. -/
theorem funcType?_told {name : String} {f : LocalFunc} {g : Signature Ty} (hf : p.func? name = some f)
    (h : funcType? p f = some (some g)) : Told p (.func g) ∧ ∀ r ∈ g.results, Told p r.type := by
  have hd := mem_funcs (List.mem_of_find?_eq_some hf)
  unfold funcType? at h
  split at h
  · obtain ⟨g', hg, heq⟩ := Option.map_eq_some_iff.1 h
    cases heq
    refine ⟨.resolved hd List.mem_cons_self (resolve_func hg), fun r hr => ?_⟩
    obtain ⟨q, hq, hr'⟩ := exists_of_mem_results hg r hr
    exact .resolved hd (List.mem_cons_of_mem _ (List.mem_map_of_mem hq)) hr'
  · cases h

variable {site : Site} {d : Decl} (hd : (site, d) ∈ p.decls)

include hd

/-- A call's types come from the function that it names or from a type written in it, or they are
predeclared. -/
theorem callResults_told {e : Expr} (he : exprSources e ⊆ declSources d) {types : List Ty}
    (h : callResults p site e = some types) : ∀ t ∈ types, Told p t := by
  unfold callResults at h
  split at h
  · next name first? =>
    obtain ⟨hname, hfirst⟩ := List.cons_subset.1 he
    split at h
    · next f hf =>
      obtain ⟨sig?, hsig, h⟩ := Option.bind_eq_some_iff.1 h
      cases sig? with
      | none =>
        cases h
        simp
      | some g =>
        cases h
        intro t ht
        obtain ⟨r, hr, rfl⟩ := List.mem_map.1 ht
        exact (funcType?_told hf hsig).2 r hr
    · split at h
      · cases h
        simpa using Told.resolved hd hname (by rw [Package.resolve, resolve])
      split at h
      · cases h
        simpa using Told.basic _
      split at h
      · cases h
        simp
      next first =>
      have hfirst := hfirst (show first ∈ (some first).toList by simp)
      split at h
      · obtain ⟨t, ht, h⟩ := Option.bind_eq_some_iff.1 h
        cases h
        simpa using Told.resolved hd hfirst ht
      split at h
      · obtain ⟨t, ht, h⟩ := Option.bind_eq_some_iff.1 h
        cases h
        simpa using (Told.resolved hd hfirst ht).pointer
      · cases h
        simp
  · split at h
    · split at h
      · cases h
        simpa using Told.basic _
      · cases h
        simp
    · cases h
      simp
  · cases h
    simp

theorem single_told {e : Expr} (he : exprSources e ⊆ declSources d) {t : Ty}
    (h : infer.single p site e = some (some t)) : Told p t := by
  unfold infer.single at h
  obtain ⟨types, htypes, h⟩ := Option.bind_eq_some_iff.1 h
  split at h
  · cases h
    exact callResults_told hd he htypes t (by simp)
  · cases h

/-- The type of an initializer is told, if the types of values known before are. -/
theorem infer_told {values : Values} (hvalues : ∀ x ∈ values, Told p x.2) {e : Expr}
    (he : exprSources e ⊆ declSources d) {t : Ty} (h : infer p site values e = some (some t)) : Told p t := by
  induction e generalizing t with
  | literal kind =>
    rw [infer] at h
    cases h
    exact .basic _
  | name name =>
    rw [infer] at h
    cases hlookup : values.lookup name with
    | some type =>
      rw [hlookup] at h
      cases h
      exact hvalues _ (mem_of_lookup hlookup)
    | none =>
      rw [hlookup] at h
      cases hf : p.func? name with
      | none => simp [hf] at h
      | some f =>
        simp only [hf] at h
        obtain ⟨sig?, hsig, h⟩ := Option.bind_eq_some_iff.1 h
        obtain ⟨g, rfl, rfl⟩ := Option.map_eq_some_iff.1 (Option.some.inj h)
        exact (funcType?_told hf hsig).1
  | paren inner ih =>
    rw [infer] at h
    exact ih he h
  | unary op operand ih =>
    cases op with
    | address =>
      rw [infer] at h
      obtain ⟨t?, ht, h⟩ := Option.bind_eq_some_iff.1 h
      obtain ⟨t', rfl, rfl⟩ := Option.map_eq_some_iff.1 (Option.some.inj h)
      exact (ih he ht).pointer
    | fetch => cases h
    | same =>
      rw [infer] at h
      exact ih he h
  | binary op left right ihl ihr =>
    obtain ⟨hleft, hright⟩ := List.append_subset.1 he
    cases op with
    | compare =>
      rw [infer] at h
      cases h
      exact .basic _
    | shift =>
      rw [infer] at h
      exact ihl hleft h
    | combine =>
      rw [infer] at h
      obtain ⟨l?, hl, h⟩ := Option.bind_eq_some_iff.1 h
      cases l? with
      | none => cases h
      | some l =>
        obtain ⟨r?, hr, h⟩ := Option.bind_eq_some_iff.1 h
        obtain ⟨r, rfl, rfl⟩ := Option.map_eq_some_iff.1 (Option.some.inj h)
        rcases combine_cases l r with heq | heq
        · rw [heq]
          exact ihl hleft hl
        · rw [heq]
          exact ihr hright hr
  | call _ _ | callMember _ _ =>
    rw [infer] at h
    exact single_told hd he h
  | ofType type =>
    rw [infer] at h
    obtain ⟨t', ht', h⟩ := Option.bind_eq_some_iff.1 h
    cases h
    exact .resolved hd (he List.mem_cons_self) ht'
  | function sig =>
    rw [infer] at h
    obtain ⟨g, hg, h⟩ := Option.bind_eq_some_iff.1 h
    cases h
    exact .resolved hd (he List.mem_cons_self) (resolve_func hg)
  | other => cases h

/-! ## Slots -/

/-- A slot whose known type is told, and whose initializer takes its type from the declaration. -/
structure SlotTold (p : Package) (d : Decl) (s : Slot) : Prop where
  fixed : ∀ t ∈ s.fixed, Told p t
  init : ∀ e ∈ s.init?, exprSources e ⊆ declSources d

theorem declared_told {type? : Option TypeExpr} (h : type?.toList ⊆ declSources d) :
    ∀ t ∈ type?.bind (p.resolve site), Told p t := by
  intro t ht
  obtain ⟨type, rfl, ht⟩ := Option.bind_eq_some_iff.1 ht
  exact .resolved hd (h (by simp)) ht

/-- Each line of a constant declaration may take over the type and the values of the line before. -/
theorem constSlots_told {previous : Option TypeExpr × List Expr} {specs : List ValueSpec}
    (htype : previous.1.toList ⊆ declSources d) (hvalues : ∀ e ∈ previous.2, exprSources e ⊆ declSources d)
    (hspecs : ∀ spec ∈ specs, specSources spec ⊆ declSources d) :
    ∀ s ∈ constSlots p site previous specs, SlotTold p d s := by
  induction specs generalizing previous with
  | nil => simp [constSlots]
  | cons spec rest ih =>
    obtain ⟨hspec, hrest⟩ := List.forall_mem_cons.1 hspecs
    have hline : ∀ line, line = (if spec.type?.isNone && spec.values.isEmpty then previous
        else (spec.type?, spec.values)) →
        line.1.toList ⊆ declSources d ∧ ∀ e ∈ line.2, exprSources e ⊆ declSources d := by
      rintro line rfl
      split
      · exact ⟨htype, hvalues⟩
      · exact ⟨(List.append_subset.1 hspec).1, fun e he => exprSources_subset hspec he⟩
    obtain ⟨htype', hvalues'⟩ := hline _ rfl
    intro s hs
    rw [constSlots, List.mem_append] at hs
    rcases hs with hs | hs
    · obtain ⟨x, -, rfl⟩ := List.mem_map.1 hs
      exact ⟨declared_told hd htype', fun e he => hvalues' e (List.mem_of_getElem? he)⟩
    · exact ih htype' hvalues' hrest s hs

theorem sharedResults_told {spec : ValueSpec} (hspec : specSources spec ⊆ declSources d) {results : List Ty}
    (h : sharedResults p site spec = some results) : ∀ t ∈ results, Told p t := by
  unfold sharedResults at h
  split at h
  · next e _ hvalues =>
    split at h
    · exact callResults_told hd (exprSources_subset hspec (by simp [hvalues])) h
    · cases h
      simp
  · cases h
    simp

theorem varSlots_told {spec : ValueSpec} (hspec : specSources spec ⊆ declSources d) :
    ∀ s ∈ varSlots p site spec, SlotTold p d s := by
  have hdeclared := declared_told hd (List.append_subset.1 hspec).1
  have hresults : ∀ t ∈ (sharedResults p site spec).getD [], Told p t := by
    cases hshared : sharedResults p site spec with
    | none => simp
    | some results => exact sharedResults_told hd hspec hshared
  intro s hs
  obtain ⟨x, -, rfl⟩ := List.mem_map.1 hs
  split
  · exact ⟨hdeclared, fun e he => exprSources_subset hspec (List.mem_of_getElem? he)⟩
  · refine ⟨fun t ht => ?_, by simp⟩
    rcases Option.or_eq_some_iff.1 ht with ht | ⟨-, ht⟩
    · exact hdeclared t ht
    · exact hresults t (List.mem_of_getElem? ht)

/-- Whatever kind of declaration it is, its slots refer to types written in it. -/
theorem declSlots_told : ∀ s ∈ declSlots p site d, SlotTold p d s := by
  cases d with
  | consts specs =>
    have hspecs : ∀ spec ∈ specs, specSources spec ⊆ declSources (.consts specs) :=
      fun spec hspec _ ht => List.mem_flatMap.2 ⟨spec, hspec, ht⟩
    exact constSlots_told hd (by simp) (by simp) hspecs
  | vars specs =>
    intro s hs
    obtain ⟨spec, hspec, hs⟩ := List.mem_flatMap.1 hs
    exact varSlots_told hd (fun _ ht => List.mem_flatMap.2 ⟨spec, hspec, ht⟩) s hs
  | _ => simp [declSlots]

/-- A slot's type is fixed by its declaration or inferred from values known before. -/
theorem slot_type?_told {values : Values} (hvalues : ∀ x ∈ values, Told p x.2) {s : Slot}
    (hs : s ∈ declSlots p site d) {t : Ty} (h : s.type? p site values = some t) : Told p t := by
  unfold Slot.type? at h
  rcases Option.or_eq_some_iff.1 h with h | ⟨-, h⟩
  · exact (declSlots_told hd s hs).fixed t h
  · obtain ⟨e, he, h⟩ := Option.bind_eq_some_iff.1 h
    exact infer_told hd hvalues ((declSlots_told hd s hs).init e he) (Option.join_eq_some_iff.1 h)

end Infer

/-! ## Rounds -/

section Rounds

variable {p : Package}

theorem insert_told {values : Values} (hvalues : ∀ x ∈ values, Told p x.2) (name : String) {t : Ty}
    (ht : Told p t) : ∀ x ∈ values.insert name t, Told p x.2 := by
  induction values with
  | nil => simpa [Values.insert] using ht
  | cons entry rest ih =>
    obtain ⟨hentry, hrest⟩ := List.forall_mem_cons.1 hvalues
    unfold Values.insert
    split
    · exact List.forall_mem_cons.2 ⟨ht, hrest⟩
    · exact List.forall_mem_cons.2 ⟨hentry, ih hrest⟩

theorem record_told {values : Values} {declared : List Declared} (hvalues : ∀ x ∈ values, Told p x.2)
    (hdeclared : ∀ x ∈ declared, ∀ t ∈ x.2, Told p t) : ∀ x ∈ record values declared, Told p x.2 := by
  induction declared generalizing values with
  | nil => exact hvalues
  | cons x rest ih =>
    obtain ⟨name, type?⟩ := x
    obtain ⟨hx, hrest⟩ := List.forall_mem_cons.1 hdeclared
    cases type? with
    | none => exact ih hvalues hrest
    | some t => exact ih (insert_told hvalues name (hx t rfl)) hrest

/-- One round adds only types that the package tells. -/
theorem round_told {decls : List (Site × Decl)} (hdecls : ∀ x ∈ decls, x ∈ p.decls) {values : Values}
    (hvalues : ∀ x ∈ values, Told p x.2) : ∀ x ∈ round p decls values, Told p x.2 := by
  induction decls generalizing values with
  | nil => exact hvalues
  | cons x rest ih =>
    obtain ⟨hx, hrest⟩ := List.forall_mem_cons.1 hdecls
    refine ih hrest (record_told hvalues fun y hy t ht => ?_)
    obtain ⟨s, hs, rfl⟩ := List.mem_map.1 hy
    exact slot_type?_told hx hvalues hs ht

variable (hexpands : p.Expands)

include hexpands

/-- By induction on the rounds, so do all of them. -/
theorem learnRounds_told {rounds : Nat} {values result : Values} (hvalues : ∀ x ∈ values, Told p x.2)
    (h : learnRounds p rounds values = some result) : ∀ x ∈ result, Told p x.2 := by
  induction rounds generalizing values with
  | zero =>
    cases h
    exact hvalues
  | succ rounds ih =>
    have hround := round_told (fun _ hx => hx) hvalues
    rw [learnRounds, learnRound_eq hexpands] at h
    simp only [Option.bind_eq_bind, Option.bind_some] at h
    split at h
    · cases h
      exact hround
    · exact ih hround h

/-- The types of all values are told. -/
theorem values_told {values : Values} (h : p.values = some values) : ∀ x ∈ values, Told p x.2 :=
  learnRounds_told hexpands (by simp) h

/-! ## Symbols -/

/-- Every symbol of a package is that of a function, a method or a type, or its type is told. -/
theorem symbols_cases {values : Values} (hvalues : p.values = some values) {s : Symbol}
    (hs : some s ∈ p.symbols values) :
    ∃ x ∈ p.decls,
      (∃ name sig, x.2 = .func name sig ∧ p.funcSymbol x.1 name sig = some s) ∨
      (∃ receiver name sig, x.2 = .method (some receiver) name sig ∧
        p.methodSymbol x.1 receiver name sig = some s) ∨
      (∃ list, x.2 = .types list ∧ ∃ d ∈ list, p.typeSymbol x.1 d = some s) ∨
      (s.kind = declKind x.2 ∧ Told p s.type) := by
  rw [symbols_eq] at hs
  obtain ⟨⟨site, d⟩, hx, hs⟩ := List.mem_flatMap.1 hs
  refine ⟨_, hx, ?_⟩
  have hvalue : some s ∈ (declSlots p site d).map (fun slot =>
      some { name := slot.name, kind := declKind d, type := (slot.type? p site values).getD unknown }) →
      s.kind = declKind d ∧ Told p s.type := by
    intro hs
    obtain ⟨slot, hslot, heq⟩ := List.mem_map.1 hs
    cases heq
    refine ⟨rfl, ?_⟩
    dsimp only
    cases htype : slot.type? p site values with
    | none => exact .basic _
    | some t => exact slot_type?_told hx (values_told hexpands hvalues) hslot htype
  cases d with
  | imports list => cases hs
  | func name sig => exact .inl ⟨name, sig, rfl, (List.mem_singleton.1 hs).symm⟩
  | method receiver? name sig =>
    cases receiver? with
    | none => cases hs
    | some receiver => exact .inr (.inl ⟨receiver, name, sig, rfl, (List.mem_singleton.1 hs).symm⟩)
  | types list =>
    obtain ⟨d, hd, ht⟩ := List.mem_map.1 hs
    exact .inr (.inr (.inl ⟨list, rfl, d, hd, ht⟩))
  | consts _ | vars _ =>
    refine .inr (.inr (.inr (hvalue ?_)))
    simpa [Package.declSymbols, declValues_eq hexpands] using hs

end Rounds

/-! ## Loading -/

/-- Every declaration stands outside of type parameters. -/
def Package.Outermost (p : Package) : Prop := ∀ x ∈ p.decls, x.1.params = []

theorem outermost_ofFiles (files : List File) : (Package.ofFiles files).Outermost := by
  intro x hx
  obtain ⟨unit, hunit, hx⟩ := List.mem_flatMap.1 hx
  obtain ⟨file, -, rfl⟩ := List.mem_map.1 hunit
  obtain ⟨d, -, rfl⟩ := List.mem_map.1 hx
  rfl

/-- A loaded table holds symbols of a package whose interfaces all have an expansion. -/
theorem symbols_of_load {target : Build.Target} {package : String} {sources : List SourceFile}
    {table : SymbolTable} (h : load target package sources = .ok (some table)) :
    (Package.ofFiles (filesOf target sources)).Expands ∧
      ∃ values, (Package.ofFiles (filesOf target sources)).values = some values ∧
        ∀ s ∈ table.symbols, some s ∈ (Package.ofFiles (filesOf target sources)).symbols values := by
  obtain ⟨-, ⟨-, hnone⟩ | ⟨-, t, ht, heq⟩⟩ := (load_eq_ok_iff target package sources _).1 h
  · cases hnone
  cases heq
  obtain ⟨values, symbols, hvalues, hsymbols, hok⟩ := (tableOf_eq_ok_iff _ _ _).1 ht
  refine ⟨expands_of_acyclic (resolves_of_tableOf ht).acyclic, values, hvalues, fun s hs => ?_⟩
  rw [hsymbols]
  refine List.mem_map_of_mem ?_
  exact List.mem_of_mem_filter (((SymbolTable.ofSymbols_eq_ok_iff _ _ _).1 hok).2.mem_iff.1 hs)

end GoApi.Surface
