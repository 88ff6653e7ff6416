import GoApi.Proofs.Surface.Nesting
import GoApi.Surface.Values

/-!
# What resolving and inferring read of a package

A type expression reads the bodies of the interfaces that its literals embed, and of every other name
only whether it is declared.  So two packages that agree on these names resolve it alike
(`Package.Agrees.resolve`), and packages that also agree on the functions an initializer mentions infer
the same type for it (`Package.Agrees.infer`).  Of a function with type parameters only its name counts.
-/

namespace GoApi.Surface

open Source

/-! ## Type expressions -/

/-- The elements that an embedded name is replaced by, with the place of its declaration. -/
def Package.body? (p : Package) (name : String) : Option (Site × List (Element TypeExpr)) :=
  (p.type? name).bind fun t => (TypeDecl.literal? t.decl).map (t.site, ·)

/-- One turn of the expansion: the body of `name` is resolved with one unit of fuel less. -/
theorem expandWithin_succ (p : Package) (fuel : Nat) (name : String) (depth : Nat) :
    expandWithin p (fuel + 1) name depth =
      match p.body? name with
      | none => some {}
      | some (site, elements) => resolveElements p (expandWithin p fuel) site depth {} elements := by
  rw [expandWithin, Package.body?]
  cases p.type? name with
  | none => rfl
  | some t =>
    dsimp only [Option.bind_some]
    cases TypeDecl.literal? t.decl <;> rfl

/-- Two packages declare the same type names, and those that satisfy `reads` have the same bodies. -/
structure TypesAgree (reads : String → Prop) (p p' : Package) : Prop where
  declared : ∀ name, (p.type? name).isSome = (p'.type? name).isSome
  same : ∀ name, reads name → p.body? name = p'.body? name

/-- The interfaces that satisfy `reads` are replaced alike. -/
def ExpansionsAgree (reads : String → Prop) (expand expand' : Expansion) : Prop :=
  ∀ name, reads name → ∀ depth, expand name depth = expand' name depth

section Resolve

variable {reads : String → Prop} {p p' : Package} {expand expand' : Expansion}

/-- Of a package a bare name asks only whether it is declared as a type. -/
theorem nameTy_congr (hp : TypesAgree reads p p') (site : Site) (name : String) :
    p.nameTy site name = p'.nameTy site name := by
  unfold Package.nameTy
  rw [hp.declared]

/-- A lone name is looked up before it is expanded, and both answers agree on names that are read.
-/
theorem flattened?_congr (hp : TypesAgree reads p p') (hexp : ExpansionsAgree reads expand expand') (site : Site)
    (depth : Nat) (ts : List TypeExpr) (hts : ∀ name ∈ loneName? ts, reads name) :
    flattened? p expand site depth ts = flattened? p' expand' site depth ts := by
  unfold flattened?
  split
  · next name =>
    have hname := hts name rfl
    have hbody := congrArg Option.isSome (hp.same name hname)
    have hdeclared := hp.declared name
    unfold Package.body? at hbody
    cases ht : p.type? name <;> cases ht' : p'.type? name <;> simp only [ht, ht', Option.isSome_none,
      Option.isSome_some, Bool.false_eq_true, reduceCtorEq] at hdeclared
    · rfl
    · rw [ht, ht', Option.bind_some, Option.bind_some, Option.isSome_map, Option.isSome_map] at hbody
      dsimp only
      rw [hbody, hexp name hname]
  · rfl

mutual

/-- Two packages that agree on what a type expression embeds resolve it alike.  Every other name in
it is kept as written, so nothing is asked about those. -/
theorem resolve_congr (hp : TypesAgree reads p p') (hexp : ExpansionsAgree reads expand expand')
    (site : Site) (t : TypeExpr) (ht : ∀ name ∈ embedded t, reads name) :
    resolve p expand site t = resolve p' expand' site t := by
  cases t with
  | name name => rw [resolve, resolve, nameTy_congr hp]
  | qualified package name => rw [resolve, resolve]
  | generic base args =>
    simp only [embedded, List.mem_append] at ht
    rw [resolve, resolve, resolve_congr hp hexp site base fun n hn => ht n (Or.inl hn),
      resolveArgs_congr hp hexp site args fun n hn => ht n (Or.inr hn)]
  | pointer elem =>
    rw [embedded] at ht
    rw [resolve, resolve, resolve_congr hp hexp site elem ht]
  | slice elem =>
    rw [embedded] at ht
    rw [resolve, resolve, resolve_congr hp hexp site elem ht]
  | array len elem =>
    rw [embedded] at ht
    rw [resolve, resolve, resolve_congr hp hexp site elem ht]
  | map key value =>
    simp only [embedded, List.mem_append] at ht
    rw [resolve, resolve, resolve_congr hp hexp site key fun n hn => ht n (Or.inl hn),
      resolve_congr hp hexp site value fun n hn => ht n (Or.inr hn)]
  | chan dir elem =>
    rw [embedded] at ht
    rw [resolve, resolve, resolve_congr hp hexp site elem ht]
  | func sig =>
    rw [embedded] at ht
    rw [resolve, resolve, resolveSignature_congr hp hexp site sig ht]
  | struct fields =>
    rw [embedded] at ht
    rw [resolve, resolve, resolveFields_congr hp hexp site fields ht]
  | interface elements =>
    rw [embedded] at ht
    rw [resolve, resolve, resolveElements_congr hp hexp site 0 {} elements ht]
  | paren inner =>
    rw [embedded] at ht
    rw [resolve, resolve, resolve_congr hp hexp site inner ht]
  | tilde inner =>
    rw [embedded] at ht
    rw [resolve, resolve, resolve_congr hp hexp site inner ht]
  | terms alternatives =>
    rw [embedded] at ht
    rw [resolve, resolve, resolveTerms_congr hp hexp site alternatives ht]
  | verbatim text => rw [resolve, resolve]

theorem resolveArgs_congr (hp : TypesAgree reads p p') (hexp : ExpansionsAgree reads expand expand')
    (site : Site) (args : List (TypeArg TypeExpr))
    (ht : ∀ name ∈ embeddedArgs args, reads name) :
    resolveArgs p expand site args = resolveArgs p' expand' site args := by
  cases args with
  | nil => rw [resolveArgs, resolveArgs]
  | cons arg rest =>
    obtain ⟨text, terms⟩ := arg
    simp only [embeddedArgs, List.mem_append] at ht
    rw [resolveArgs, resolveArgs, resolveTerms_congr hp hexp site terms fun n hn => ht n (Or.inl hn),
      resolveArgs_congr hp hexp site rest fun n hn => ht n (Or.inr hn)]

theorem resolveTerms_congr (hp : TypesAgree reads p p') (hexp : ExpansionsAgree reads expand expand')
    (site : Site) (ts : List TypeExpr)
    (ht : ∀ name ∈ embeddedTerms ts, reads name) :
    resolveTerms p expand site ts = resolveTerms p' expand' site ts := by
  cases ts with
  | nil => rw [resolveTerms, resolveTerms]
  | cons t rest =>
    simp only [embeddedTerms, List.mem_append] at ht
    rw [resolveTerms, resolveTerms, resolve_congr hp hexp site t fun n hn => ht n (Or.inl hn),
      resolveTerms_congr hp hexp site rest fun n hn => ht n (Or.inr hn)]

theorem resolveParams_congr (hp : TypesAgree reads p p') (hexp : ExpansionsAgree reads expand expand')
    (site : Site) (ps : List (Param TypeExpr))
    (ht : ∀ name ∈ embeddedParams ps, reads name) :
    resolveParams p expand site ps = resolveParams p' expand' site ps := by
  cases ps with
  | nil => rw [resolveParams, resolveParams]
  | cons q rest =>
    obtain ⟨name, type⟩ := q
    simp only [embeddedParams, List.mem_append] at ht
    rw [resolveParams, resolveParams, resolve_congr hp hexp site type fun n hn => ht n (Or.inl hn),
      resolveParams_congr hp hexp site rest fun n hn => ht n (Or.inr hn)]

theorem resolveSignature_congr (hp : TypesAgree reads p p') (hexp : ExpansionsAgree reads expand expand')
    (site : Site) (sig : Signature TypeExpr)
    (ht : ∀ name ∈ embeddedSignature sig, reads name) :
    resolveSignature p expand site sig = resolveSignature p' expand' site sig := by
  obtain ⟨binders, receiverBinders, params, results, variadic⟩ := sig
  simp only [embeddedSignature, List.mem_append] at ht
  rw [resolveSignature, resolveSignature,
    resolveParams_congr hp hexp site params fun n hn => ht n (Or.inl hn),
    resolveParams_congr hp hexp site results fun n hn => ht n (Or.inr hn)]

theorem resolveFields_congr (hp : TypesAgree reads p p') (hexp : ExpansionsAgree reads expand expand')
    (site : Site) (fs : List (FieldDecl TypeExpr))
    (ht : ∀ name ∈ embeddedFields fs, reads name) :
    resolveFields p expand site fs = resolveFields p' expand' site fs := by
  cases fs with
  | nil => rw [resolveFields, resolveFields]
  | cons f rest =>
    obtain ⟨name?, type⟩ := f
    simp only [embeddedFields, List.mem_append] at ht
    rw [resolveFields, resolveFields, resolve_congr hp hexp site type fun n hn => ht n (Or.inl hn),
      resolveFields_congr hp hexp site rest fun n hn => ht n (Or.inr hn)]

/-- The elements of an interface ask about the lone names among them as well as about what these
embed deeper down. -/
theorem resolveElements_congr (hp : TypesAgree reads p p') (hexp : ExpansionsAgree reads expand expand')
    (site : Site) (depth : Nat) (before : Interface Ty)
    (es : List (Element TypeExpr))
    (ht : ∀ name ∈ loneNames es ++ embeddedElements es, reads name) :
    resolveElements p expand site depth before es =
      resolveElements p' expand' site depth before es := by
  cases es with
  | nil => rw [resolveElements, resolveElements]
  | cons e rest =>
    have hrest := fun before => resolveElements_congr hp hexp site depth before rest
    cases e with
    | method name sig =>
      simp only [loneNames, embeddedElements, List.mem_append] at ht
      have hrest := fun before => hrest before fun n hn =>
        ht n ((List.mem_append.1 hn).imp id Or.inr)
      rw [resolveElements, resolveElements,
        resolveSignature_congr hp hexp site sig fun n hn => ht n (Or.inr (Or.inl hn))]
      simp only [hrest]
    | terms alternatives =>
      simp only [loneNames, embeddedElements, List.mem_append, Option.mem_toList] at ht
      have hrest := fun before => hrest before fun n hn =>
        ht n ((List.mem_append.1 hn).imp Or.inr Or.inr)
      rw [resolveElements, resolveElements,
        flattened?_congr hp hexp site depth alternatives fun n hn => ht n (Or.inl (Or.inl hn)),
        resolveTerms_congr hp hexp site alternatives fun n hn => ht n (Or.inr (Or.inl hn))]
      simp only [hrest]

end

end Resolve

/-! ## Packages -/

/-- The type expressions of an initializer. -/
def exprTypes : Expr → List TypeExpr
  | .paren inner => exprTypes inner
  | .unary _ operand => exprTypes operand
  | .binary _ left right => exprTypes left ++ exprTypes right
  | .call _ first? => first?.toList
  | .ofType type => [type]
  | .function sig => [.func sig]
  | .literal _ | .name _ | .callMember _ _ | .other => []

/-- The values and functions that an initializer mentions. -/
def exprNames : Expr → List String
  | .name name => [name]
  | .paren inner => exprNames inner
  | .unary _ operand => exprNames operand
  | .binary _ left right => exprNames left ++ exprNames right
  | .call function _ => [function]
  | .literal _ | .ofType _ | .function _ | .callMember _ _ | .other => []

/-- The lines of a declaration of constants or variables. -/
def declSpecs : Decl → List ValueSpec
  | .consts specs => specs
  | .vars specs => specs
  | _ => []

/-- The type expressions of a declaration, constraints included. -/
def declTypes : Decl → List TypeExpr
  | .func _ sig => .func sig :: sig.binders.map (·.constraint)
  | .method _ _ sig => [.func sig]
  | .types list => list.flatMap fun d => d.body :: d.binders.map (·.constraint)
  | d => (declSpecs d).flatMap fun spec => spec.type?.toList ++ spec.values.flatMap exprTypes

/-- The values and functions that the initializers of a declaration mention. -/
def declNames (d : Decl) : List String :=
  (declSpecs d).flatMap fun spec => spec.values.flatMap exprNames

/-- The declarations of a package with their places, in order. -/
def Package.decls (p : Package) : List (Site × Decl) :=
  p.units.flatMap fun u => u.decls.map (u.site, ·)

/-- Everything that a declaration reads of its package satisfies `reads`. -/
structure DeclReads (reads : String → Prop) (d : Decl) : Prop where
  embedded : ∀ t ∈ declTypes d, ∀ name ∈ embedded t, reads name
  mentioned : ∀ name ∈ declNames d, reads name

/-- Everything that an initializer reads of its package satisfies `reads`. -/
structure ExprReads (reads : String → Prop) (e : Expr) : Prop where
  embedded : ∀ t ∈ exprTypes e, ∀ name ∈ embedded t, reads name
  mentioned : ∀ name ∈ exprNames e, reads name

theorem DeclReads.expr {reads : String → Prop} {d : Decl} (h : DeclReads reads d) {spec : ValueSpec}
    (hs : spec ∈ declSpecs d) {e : Expr} (he : e ∈ spec.values) : ExprReads reads e where
  embedded t ht := by
    refine h.embedded t ?_
    have hmem : t ∈ (declSpecs d).flatMap fun spec =>
        spec.type?.toList ++ spec.values.flatMap exprTypes :=
      List.mem_flatMap.2 ⟨spec, hs, List.mem_append_right _ (List.mem_flatMap.2 ⟨e, he, ht⟩)⟩
    cases d with
    | consts specs => exact hmem
    | vars specs => exact hmem
    | _ => simp [declSpecs] at hs
  mentioned n hn :=
    h.mentioned n (List.mem_flatMap.2 ⟨spec, hs, List.mem_flatMap.2 ⟨e, he, hn⟩⟩)

theorem DeclReads.type {reads : String → Prop} {d : Decl} (h : DeclReads reads d) {spec : ValueSpec}
    (hs : spec ∈ declSpecs d) {t : TypeExpr} (ht : spec.type? = some t) :
    ∀ name ∈ Surface.embedded t, reads name := by
  refine h.embedded t ?_
  have hmem : t ∈ (declSpecs d).flatMap fun spec =>
      spec.type?.toList ++ spec.values.flatMap exprTypes :=
    List.mem_flatMap.2 ⟨spec, hs, List.mem_append_left _ (by simp [ht])⟩
  cases d with
  | consts specs => exact hmem
  | vars specs => exact hmem
  | _ => simp [declSpecs] at hs

/-- A function without type parameters: the type of such a function can be told. -/
def LocalFunc.plain? (f : LocalFunc) : Option LocalFunc := if f.sig.binders.isEmpty then some f else none

/-- A plain function binds no type parameter; only the results of such a function tell a type. -/
theorem LocalFunc.plain?_eq_some {f g : LocalFunc} (h : f.plain? = some g) :
    g = f ∧ f.sig.binders.isEmpty = true := by
  unfold LocalFunc.plain? at h
  split at h
  · next hempty => exact ⟨(Option.some.inj h).symm, hempty⟩
  · cases h

theorem funcType?_of_plain?_eq_none (p : Package) {f : LocalFunc} (h : f.plain? = none) :
    funcType? p f = some none := by
  unfold LocalFunc.plain? at h
  unfold funcType?
  split at h
  · cases h
  · next hempty => rw [if_neg hempty]

/-- Two packages agree on all names that satisfy `reads`, and the first one reads no others. -/
structure Package.Agrees (reads : String → Prop) (p p' : Package) : Prop where
  types : TypesAgree reads p p'
  count : p.types.length = p'.types.length
  funcs : ∀ name, reads name → (p.func? name).map (·.plain?) = (p'.func? name).map (·.plain?)
  within : ∀ x ∈ p.decls, DeclReads reads x.2

theorem mem_types {p : Package} {t : LocalType} (ht : t ∈ p.types) :
    ∃ list, (t.site, Decl.types list) ∈ p.decls ∧ t.decl ∈ list := by
  obtain ⟨u, hu, ht⟩ := List.mem_flatMap.1 ht
  obtain ⟨d, hd, ht⟩ := List.mem_flatMap.1 ht
  cases d with
  | types list =>
    obtain ⟨decl, hdecl, rfl⟩ := List.mem_map.1 ht
    exact ⟨list, List.mem_flatMap.2 ⟨u, hu, List.mem_map.2 ⟨_, hd, rfl⟩⟩, hdecl⟩
  | _ => cases ht

theorem mem_funcs {p : Package} {f : LocalFunc} (hf : f ∈ p.funcs) :
    (f.site, Decl.func f.name f.sig) ∈ p.decls := by
  obtain ⟨u, hu, hf⟩ := List.mem_flatMap.1 hf
  obtain ⟨d, hd, hf⟩ := List.mem_flatMap.1 hf
  cases d with
  | func name sig =>
    obtain rfl := List.mem_singleton.1 hf
    exact List.mem_flatMap.2 ⟨u, hu, List.mem_map.2 ⟨_, hd, rfl⟩⟩
  | _ => cases hf

namespace Package.Agrees

variable {reads : String → Prop} {p p' : Package} (h : p.Agrees reads p')

include h

theorem body {t : LocalType} (ht : t ∈ p.types) : ∀ name ∈ embedded t.decl.body, reads name := by
  obtain ⟨list, hlist, hdecl⟩ := mem_types ht
  exact (h.within _ hlist).embedded _ (List.mem_flatMap.2 ⟨t.decl, hdecl, by simp⟩)

/-- By induction on the fuel: a body that is read embeds only names that are read in turn. -/
theorem expandWithin (fuel : Nat) (name : String) (hname : reads name) (depth : Nat) :
    expandWithin p fuel name depth = expandWithin p' fuel name depth := by
  induction fuel generalizing name depth with
  | zero => rfl
  | succ fuel ih =>
    rw [expandWithin_succ, expandWithin_succ, ← h.types.same name hname]
    cases hbody : p.body? name with
    | none => rfl
    | some x =>
      obtain ⟨t, ht, hmap⟩ := Option.bind_eq_some_iff.1 hbody
      obtain ⟨es, hlit, rfl⟩ := Option.map_eq_some_iff.1 hmap
      have hreads := h.body (List.mem_of_find?_eq_some ht)
      rw [(literal?_eq_some hlit).2, embedded] at hreads
      exact resolveElements_congr h.types ih t.site depth {} es hreads

theorem expand (name : String) (hname : reads name) (depth : Nat) :
    p.expand name depth = p'.expand name depth := by
  unfold Package.expand
  rw [← h.count]
  exact h.expandWithin _ name hname depth

theorem resolve (site : Site) {t : TypeExpr} (ht : ∀ name ∈ embedded t, reads name) :
    p.resolve site t = p'.resolve site t :=
  resolve_congr h.types h.expand site t ht

theorem signature (site : Site) {sig : Signature TypeExpr}
    (hsig : ∀ name ∈ embedded (.func sig), reads name) :
    p.signature site sig = p'.signature site sig := by
  rw [embedded] at hsig
  exact resolveSignature_congr h.types h.expand site sig hsig

theorem binders (site : Site) {bs : List (Binder TypeExpr)}
    (hbs : ∀ b ∈ bs, ∀ name ∈ embedded b.constraint, reads name) :
    p.binders site bs = p'.binders site bs := by
  unfold Package.binders
  induction bs with
  | nil => rfl
  | cons b bs ih =>
    rw [List.mapM_cons, List.mapM_cons, h.resolve site (hbs b (by simp)),
      ih fun c hc => hbs c (by simp [hc])]

/-- What is told of a function is the same in both packages. -/
theorem funcType? {name : String} (hname : reads name) :
    (p.func? name).map (Surface.funcType? p) = (p'.func? name).map (Surface.funcType? p') := by
  have hfuncs := h.funcs name hname
  cases hf : p.func? name <;> cases hf' : p'.func? name <;>
    simp only [hf, hf', Option.map_none, Option.map_some, reduceCtorEq, Option.some.injEq] at hfuncs ⊢
  case some.some f f' =>
    cases hplain : f.plain? with
    | none =>
      rw [funcType?_of_plain?_eq_none p hplain, funcType?_of_plain?_eq_none p' (hfuncs ▸ hplain)]
    | some g =>
      obtain ⟨rfl, -⟩ := LocalFunc.plain?_eq_some hplain
      obtain ⟨rfl, -⟩ := LocalFunc.plain?_eq_some (hfuncs ▸ hplain)
      have hreads := (h.within _ (mem_funcs (List.mem_of_find?_eq_some hf))).embedded (.func g.sig)
        (by simp [declTypes])
      unfold Surface.funcType?
      rw [h.signature g.site hreads]

/-- A call asks about the function that it names and, where there is none, about the type that
comes first in it. -/
theorem callResults (site : Site) {e : Expr} (he : ExprReads reads e) :
    callResults p site e = callResults p' site e := by
  cases e with
  | call name first? =>
    unfold Surface.callResults
    dsimp only
    rw [h.types.declared, nameTy_congr h.types]
    have hfuncs := h.funcType? (he.mentioned name (by simp [exprNames]))
    cases hf : p.func? name <;> cases hf' : p'.func? name <;>
      simp only [hf, hf', Option.map_none, Option.map_some, reduceCtorEq, Option.some.injEq] at hfuncs ⊢
    · cases first? with
      | none => rfl
      | some t =>
        dsimp only
        rw [h.resolve site (he.embedded t (by simp [exprTypes]))]
    · rw [hfuncs]
  | _ => rfl

theorem single (site : Site) {e : Expr} (he : ExprReads reads e) :
    infer.single p site e = infer.single p' site e := by
  unfold infer.single
  rw [h.callResults site he]

/-- An initializer has one type in both packages, with the same types known for what it mentions. -/
theorem infer (site : Site) {values values' : Values} {e : Expr} (he : ExprReads reads e)
    (hv : ∀ name ∈ exprNames e, values.lookup name = values'.lookup name) :
    infer p site values e = infer p' site values' e := by
  induction e with
  | literal kind => rfl
  | name name =>
    have hname : name ∈ exprNames (.name name) := by simp [exprNames]
    have hfuncs := h.funcType? (he.mentioned name hname)
    rw [Surface.infer, Surface.infer, hv name hname]
    cases values'.lookup name with
    | some type => rfl
    | none =>
      cases hf : p.func? name <;> cases hf' : p'.func? name <;>
        simp only [hf, hf', Option.map_none, Option.map_some, reduceCtorEq, Option.some.injEq] at hfuncs ⊢
      rw [hfuncs]
  | paren inner ih => exact ih ⟨he.embedded, he.mentioned⟩ hv
  | unary op operand ih =>
    have := ih ⟨he.embedded, he.mentioned⟩ hv
    cases op with
    | address => rw [Surface.infer, Surface.infer, this]
    | fetch => rfl
    | same => rw [Surface.infer, Surface.infer, this]
  | binary op left right ihl ihr =>
    have hl := ihl ⟨fun t ht => he.embedded t (List.mem_append_left _ ht),
      fun n hn => he.mentioned n (List.mem_append_left _ hn)⟩
      fun n hn => hv n (List.mem_append_left _ hn)
    have hr := ihr ⟨fun t ht => he.embedded t (List.mem_append_right _ ht),
      fun n hn => he.mentioned n (List.mem_append_right _ hn)⟩
      fun n hn => hv n (List.mem_append_right _ hn)
    cases op with
    | compare => rfl
    | shift => rw [Surface.infer, Surface.infer, hl]
    | combine => rw [Surface.infer, Surface.infer, hl, hr]
  | call function first? => exact h.single site he
  | callMember operand member => exact h.single site he
  | ofType type =>
    rw [Surface.infer, Surface.infer, h.resolve site (he.embedded type (by simp [exprTypes]))]
  | function sig =>
    rw [Surface.infer, Surface.infer, h.signature site (he.embedded (.func sig) (by simp [exprTypes]))]
  | other => rfl

end Package.Agrees

end GoApi.Surface
