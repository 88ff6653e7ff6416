import GoApi.Proofs.Surface.FileOrder
import GoApi.Proofs.Surface.Recording
import GoApi.Proofs.Surface.RenamedResolve

/-!
# Packages with renamed type parameters

`RenamedDecl` relates two declarations that differ at most in the names of type parameters: those of a
generic function, of the receiver of a method, or of generic types.  Every reference means the same
parameter in both, or the same type outside, so a new name is none that another reference has.

Nothing that is read of a package tells these names (`agrees_renamed`): a type with parameters is never
replaced by its body, and of a function with parameters no type is told.  So all values are the same
(`values_renamed`), and the symbols have identical types (`symbols_renamed`), if no interface literal is
disturbed.
-/

namespace GoApi.Surface

open Source

/-! ## Renamed declarations -/

section Declarations

variable (kept : Site → Site → List (Element TypeExpr) → List (Element TypeExpr) → Prop) (site : Site)

/-- Type expressions that are the same up to the names of the type parameters which their declarations bind.
The interface literals among them are `kept`. -/
def RenamedUnder (names names' : List String) : TypeExpr → TypeExpr → Prop :=
  RenamedType (kept (site.within names) (site.within names')) ((site.within names).pairing (site.within names'))

/-- Type parameters with constraints that may mention all of them. -/
def RenamedBinders (bs bs' : List (Binder TypeExpr)) : Prop :=
  List.Forall₂ (fun b b' => RenamedUnder kept site (bs.map (·.name)) (bs'.map (·.name)) b.constraint b'.constraint)
    bs bs'

/-- A generic type whose parameters have other names. -/
structure RenamedTypeDecl (d d' : TypeDecl) : Prop where
  generic : d.binders ≠ []
  name : d.name = d'.name
  isAlias : d.isAlias = d'.isAlias
  binders : RenamedBinders kept site d.binders d'.binders
  body : RenamedUnder kept site (d.binders.map (·.name)) (d'.binders.map (·.name)) d.body d'.body

/-- The same declaration, or one in which type parameters have other names: those of a generic function, of
the receiver of a method, or of generic types. -/
inductive RenamedDecl : Decl → Decl → Prop
  | same (d : Decl) : RenamedDecl d d
  | func {name : String} {sig sig' : Signature TypeExpr} (hgeneric : sig.binders ≠ [])
      (hbinders : RenamedBinders kept site sig.binders sig'.binders)
      (hsig : RenamedUnder kept site (sig.binders.map (·.name)) (sig'.binders.map (·.name)) (.func sig) (.func sig')) :
      RenamedDecl (.func name sig) (.func name sig')
  | method {receiver receiver' : Receiver} {name : String} {sig sig' : Signature TypeExpr}
      (htype : receiver.type = receiver'.type) (hcount : receiver.binders.length = receiver'.binders.length)
      (hsig : RenamedUnder kept site receiver.binders receiver'.binders (.func sig) (.func sig')) :
      RenamedDecl (.method (some receiver) name sig) (.method (some receiver') name sig')
  | types {list list' : List TypeDecl}
      (h : List.Forall₂ (fun d d' => d = d' ∨ RenamedTypeDecl kept site d d') list list') :
      RenamedDecl (.types list) (.types list')

end Declarations

/-- Two files with the same declarations up to the names of type parameters. -/
def RenamedFile (kept : Site → Site → List (Element TypeExpr) → List (Element TypeExpr) → Prop)
    (file file' : File) : Prop :=
  List.Forall₂ (RenamedDecl kept (FileUnit.ofFile file).site) file.decls file'.decls

section Packages

variable {kept : Site → Site → List (Element TypeExpr) → List (Element TypeExpr) → Prop}

/-- Declarations at one place, the second one renamed. -/
def RenamedAt (kept : Site → Site → List (Element TypeExpr) → List (Element TypeExpr) → Prop)
    (x x' : Site × Decl) : Prop := x.1 = x'.1 ∧ RenamedDecl kept x.1 x.2 x'.2

/-- Renaming parameters touches no import, so both files see the same packages. -/
theorem importsOf_renamed {site : Site} {decls decls' : List Decl}
    (h : List.Forall₂ (RenamedDecl kept site) decls decls') : importsOf decls = importsOf decls' := by
  unfold importsOf
  refine congrArg List.reverse ?_
  induction h with
  | nil => rfl
  | cons hd _ ih =>
    rw [List.flatMap_cons, List.flatMap_cons, ih]
    cases hd <;> rfl

theorem decls_renamed {files files' : List File} (h : List.Forall₂ (RenamedFile kept) files files') :
    List.Forall₂ (RenamedAt kept) (Package.ofFiles files).decls (Package.ofFiles files').decls := by
  unfold Package.ofFiles Package.decls
  induction h with
  | nil => exact .nil
  | @cons file file' files files' hfile _ ih =>
    dsimp only at ih ⊢
    rw [List.map_cons, List.map_cons, List.flatMap_cons, List.flatMap_cons]
    refine List.rel_append ?_ ih
    have hsite : (FileUnit.ofFile file).site = (FileUnit.ofFile file').site := by
      unfold FileUnit.ofFile
      dsimp only
      rw [importsOf_renamed hfile]
    rw [List.forall₂_map_left_iff, List.forall₂_map_right_iff]
    exact List.Forall₂.imp (fun d d' hd => ⟨hsite, hd⟩) hfile

/-- The local types are a function of the declarations, which is what a relation on declarations
can be carried along. -/
theorem types_eq (p : Package) : p.types = p.decls.flatMap fun x =>
    match x.2 with
    | .types list => list.map (⟨x.1, ·⟩)
    | _ => [] := by
  unfold Package.types Package.decls
  rw [List.flatMap_assoc]
  refine List.flatMap_congr fun u _ => (List.flatMap_congr fun d _ => ?_).trans (List.flatMap_map _ _ _).symm
  cases d <;> rfl

theorem funcs_eq (p : Package) : p.funcs = p.decls.flatMap fun x =>
    match x.2 with
    | .func name sig => [⟨x.1, name, sig⟩]
    | _ => [] := by
  unfold Package.funcs Package.decls
  rw [List.flatMap_assoc]
  refine List.flatMap_congr fun u _ => (List.flatMap_congr fun d _ => ?_).trans (List.flatMap_map _ _ _).symm
  cases d <;> rfl

variable {p p' : Package} (h : List.Forall₂ (RenamedAt kept) p.decls p'.decls)

include h

theorem types_renamed : List.Forall₂ (fun t t' : LocalType => t.site = t'.site ∧
    (t.decl = t'.decl ∨ RenamedTypeDecl kept t.site t.decl t'.decl)) p.types p'.types := by
  rw [types_eq, types_eq]
  refine List.rel_flatMap h fun x x' hx => ?_
  obtain ⟨site, d⟩ := x
  obtain ⟨site', d'⟩ := x'
  obtain ⟨hsite, hd⟩ := hx
  obtain rfl : site = site' := hsite
  cases hd with
  | same d =>
    cases d with
    | types list =>
      dsimp only
      rw [List.forall₂_map_left_iff, List.forall₂_map_right_iff, List.forall₂_same]
      exact fun _ _ => ⟨rfl, .inl rfl⟩
    | _ => exact .nil
  | func _ _ _ => exact .nil
  | method _ _ _ => exact .nil
  | types hlist =>
    dsimp only
    rw [List.forall₂_map_left_iff, List.forall₂_map_right_iff]
    exact hlist.imp fun _ _ hd => ⟨rfl, hd⟩

theorem funcs_renamed : List.Forall₂ (fun f f' : LocalFunc => f.name = f'.name ∧ f.plain? = f'.plain?)
    p.funcs p'.funcs := by
  rw [funcs_eq, funcs_eq]
  refine List.rel_flatMap h fun x x' hx => ?_
  obtain ⟨site, d⟩ := x
  obtain ⟨site', d'⟩ := x'
  obtain ⟨hsite, hd⟩ := hx
  obtain rfl : site = site' := hsite
  cases hd with
  | same d =>
    cases d with
    | func name sig => exact .cons ⟨rfl, rfl⟩ .nil
    | _ => exact .nil
  | @func name sig sig' hgeneric hbinders _ =>
    have hgeneric' : sig'.binders ≠ [] := by
      intro hnil
      rw [RenamedBinders, hnil, List.forall₂_nil_right_iff] at hbinders
      exact hgeneric hbinders
    refine .cons ⟨rfl, ?_⟩ .nil
    unfold LocalFunc.plain?
    rw [if_neg (by simpa using hgeneric), if_neg (by simpa using hgeneric')]
  | method _ _ _ => exact .nil
  | types _ => exact .nil

/-- A type that binds parameters has no body to take in by name, and one that binds none is
unchanged; so looking up bodies cannot tell the packages apart. -/
theorem body?_renamed (name : String) :
    (p.type? name).isSome = (p'.type? name).isSome ∧ p.body? name = p'.body? name := by
  have hnames : ∀ t t' : LocalType, (t.site = t'.site ∧
      (t.decl = t'.decl ∨ RenamedTypeDecl kept t.site t.decl t'.decl)) →
      (t.decl.name == name) = (t'.decl.name == name) := by
    rintro t t' ⟨-, heq | hd⟩
    · rw [heq]
    · rw [hd.name]
  have htype : Option.Rel _ (p.type? name) (p'.type? name) := rel_find? (types_renamed h) hnames
  unfold Package.body?
  generalize p.type? name = t?, p'.type? name = t?' at htype ⊢
  cases htype with
  | none => exact ⟨rfl, rfl⟩
  | @some t t' ht =>
    refine ⟨rfl, ?_⟩
    obtain ⟨hsite, heq | hd⟩ := ht
    · rw [Option.bind_some, Option.bind_some, hsite, heq]
    · -- a type with parameters is never replaced by its body
      have hnone : ∀ d : TypeDecl, d.binders ≠ [] → TypeDecl.literal? d = none := by
        intro d hd
        cases hlit : TypeDecl.literal? d with
        | none => rfl
        | some es => exact absurd (literal?_eq_some hlit).1 hd
      have hgeneric' : t'.decl.binders ≠ [] := by
        intro hnil
        have hbinders := hd.binders
        rw [RenamedBinders, hnil, List.forall₂_nil_right_iff] at hbinders
        exact hd.generic hbinders
      rw [Option.bind_some, Option.bind_some, hnone _ hd.generic, hnone _ hgeneric']
      rfl

/-- Nothing that is read of a package tells the names of type parameters. -/
theorem agrees_renamed : p.Agrees (fun _ => True) p' where
  types := ⟨fun name => (body?_renamed h name).1, fun name _ => (body?_renamed h name).2⟩
  count := (types_renamed h).length_eq
  funcs name _ := by
    have hfunc : Option.Rel _ (p.func? name) (p'.func? name) :=
      rel_find? (funcs_renamed h) fun f f' hf => by rw [hf.1]
    generalize p.func? name = f?, p'.func? name = f?' at hfunc ⊢
    cases hfunc with
    | none => rfl
    | some hf => exact congrArg some hf.2
  within _ _ := ⟨fun _ _ _ _ => trivial, fun _ _ => trivial⟩

end Packages

/-! ## Values -/

namespace Package.Agrees

variable {p p' : Package} (h : p.Agrees (fun _ => True) p')

include h

/-- Hence resolution agrees everywhere, not only on names that are read. -/
theorem resolve_all (site : Site) : p.resolve site = p'.resolve site :=
  funext fun _ => h.resolve site fun _ _ => trivial

theorem binders_all (site : Site) (bs : List (Binder TypeExpr)) : p.binders site bs = p'.binders site bs :=
  h.binders site fun _ _ _ _ => trivial

theorem signature_all (site : Site) (sig : Signature TypeExpr) : p.signature site sig = p'.signature site sig :=
  h.signature site fun _ _ => trivial

theorem inferAt_all (site : Site) (values : Values) (exprs : List Expr) :
    inferAt p site values exprs = inferAt p' site values exprs := by
  funext i
  unfold inferAt
  cases exprs[i]? with
  | none => rfl
  | some e => exact h.infer site ⟨fun _ _ _ _ => trivial, fun _ _ => trivial⟩ fun _ _ => rfl

theorem typeNames_all (site : Site) (type? : Option TypeExpr) (at? : Nat → Option (Option Ty))
    (names : List String) : typeNames p site type? at? names = typeNames p' site type? at? names := by
  unfold typeNames
  rw [h.resolve_all]

theorem constValues_all (site : Site) (values : Values) (previous : Option TypeExpr × List Expr)
    (specs : List ValueSpec) : constValues p site values previous specs = constValues p' site values previous specs := by
  induction specs generalizing previous with
  | nil => rfl
  | cons spec rest ih =>
    rw [constValues, constValues]
    dsimp only
    rw [h.inferAt_all, h.typeNames_all, ih]

theorem varValues_all (site : Site) (values : Values) (spec : ValueSpec) :
    varValues p site values spec = varValues p' site values spec := by
  unfold varValues
  rw [h.sharedResults site fun _ _ => ⟨fun _ _ _ _ => trivial, fun _ _ => trivial⟩]
  dsimp only
  rw [h.inferAt_all]
  simp only [h.typeNames_all]

theorem declValues_all (site : Site) (values : Values) (d : Decl) :
    declValues p site values d = declValues p' site values d := by
  cases d with
  | consts specs => rw [declValues, declValues, h.constValues_all]
  | vars specs => rw [declValues, declValues, mapM_congr_left fun spec _ => h.varValues_all site values spec]
  | _ => rfl

end Package.Agrees

section Values

variable {kept : Site → Site → List (Element TypeExpr) → List (Element TypeExpr) → Prop} {p p' : Package}
  (h : List.Forall₂ (RenamedAt kept) p.decls p'.decls)

include h

/-- A renamed declaration declares no values, and the initializers of the others do not see it. -/
theorem learnDecl_renamed (values : Values) {x x' : Site × Decl} (hx : RenamedAt kept x x') :
    learnDecl p x.1 values x.2 = learnDecl p' x'.1 values x'.2 := by
  obtain ⟨site, d⟩ := x
  obtain ⟨site', d'⟩ := x'
  obtain ⟨hsite, hd⟩ := hx
  obtain rfl : site = site' := hsite
  cases hd with
  | same d =>
    unfold learnDecl
    rw [(agrees_renamed h).declValues_all]
  | _ => rfl

/-- The types of values are learned alike: declarations of values have no parameters to rename. -/
theorem values_renamed : p.values = p'.values := by
  have hround : ∀ values, learnRound p values = learnRound p' values := by
    intro values
    rw [learnRound_eq_foldlM, learnRound_eq_foldlM]
    exact foldlM_eq_of_forall₂ h (fun vs x x' hx => learnDecl_renamed h vs hx) values
  have hrounds : ∀ rounds values, learnRounds p rounds values = learnRounds p' rounds values := by
    intro rounds
    induction rounds with
    | zero => exact fun _ => rfl
    | succ rounds ih =>
      intro values
      rw [learnRounds, learnRounds, hround]
      simp only [ih]
  exact hrounds maxRounds []

end Values

/-! ## Symbols -/

/-- The same symbol with an identical type. -/
structure SymbolKept (s s' : Symbol) : Prop where
  name : s.name = s'.name
  kind : s.kind = s'.kind
  receiver : s.receiver = s'.receiver
  type : s.type.identical s'.type = true

theorem SymbolKept.refl (s : Symbol) : SymbolKept s s := ⟨rfl, rfl, rfl, beq_self_eq_true _⟩

/-- Two closed types that differ in the spelling of what they bind are identical. -/
theorem identical_of_renamed {t t' : Ty} (h : t.Renamed [] t') : t.identical t' = true :=
  (canonical_of_cosmetic t t' (.renamed h)).2

section Symbols

variable {p p' : Package} (hp : p.Outermost) (hagrees : p.Agrees (fun _ => True) p') {site : Site}
  (hsite : site.params = [])

include hp hagrees hsite

section Under

variable {ns ns' : List String} (hlen : ns.length = ns'.length)

include hlen

omit hp hagrees hlen in
/-- At an outermost site the parameters in scope are exactly the two lists that are bound there. -/
theorem pairing_within : (site.within ns).pairing (site.within ns') = Pairing.enter [] ns ns' := by
  rw [Site.pairing, Site.within, Site.within, hsite]
  rfl

theorem resolve_under {t t' : TypeExpr} (h : RenamedUnder (Undisturbed p) site ns ns' t t') :
    Option.Rel (Ty.Renamed (Pairing.enter [] ns ns')) (p.resolve (site.within ns) t)
      (p'.resolve (site.within ns') t') := by
  have hwithin : (site.within ns).Parallel (site.within ns') := ⟨by simp [Site.within, hlen], rfl⟩
  rw [← hagrees.resolve_all, ← pairing_within hsite]
  exact resolve_renamed hwithin (expandWithin_closed hp _) t t' h

theorem signature_under {sig sig' : Signature TypeExpr}
    (h : RenamedUnder (Undisturbed p) site ns ns' (.func sig) (.func sig')) :
    Option.Rel (SignatureRenamed (Pairing.enter [] ns ns')) (p.signature (site.within ns) sig)
      (p'.signature (site.within ns') sig') := by
  rw [RenamedUnder, RenamedType] at h
  have hwithin : (site.within ns).Parallel (site.within ns') := ⟨by simp [Site.within, hlen], rfl⟩
  rw [← hagrees.signature_all, ← pairing_within hsite]
  exact resolveSignature_renamed hwithin (expandWithin_closed hp _) sig sig' h

end Under

/-- Constraints of renamed type parameters. -/
theorem binders_under {bs bs' : List (Binder TypeExpr)} (h : RenamedBinders (Undisturbed p) site bs bs') :
    Option.Rel (fun cs cs' => binderNames cs = bs.map (·.name) ∧ binderNames cs' = bs'.map (·.name) ∧
        List.Forall₂ (fun c c' =>
          c.constraint.Renamed (Pairing.enter [] (bs.map (·.name)) (bs'.map (·.name))) c'.constraint) cs cs')
      (p.binders (site.within (bs.map (·.name))) bs) (p'.binders (site.within (bs'.map (·.name))) bs') := by
  have hlen : (bs.map (·.name)).length = (bs'.map (·.name)).length := by simpa using h.length_eq
  have hrel : Option.Rel (List.Forall₂ fun c c' : Binder Ty =>
      c.constraint.Renamed (Pairing.enter [] (bs.map (·.name)) (bs'.map (·.name))) c'.constraint)
      (p.binders (site.within (bs.map (·.name))) bs) (p'.binders (site.within (bs'.map (·.name))) bs') :=
    rel_mapM h fun b b' hb =>
      rel_bind (resolve_under hp hagrees hsite hlen hb) fun t t' ht => .some ht
  rw [← hagrees.binders_all] at hrel ⊢
  cases hcs : p.binders (site.within (bs.map (·.name))) bs <;>
    cases hcs' : p.binders (site.within (bs'.map (·.name))) bs' <;> rw [hcs, hcs'] at hrel <;> cases hrel
  · exact .none
  · next hall => exact .some ⟨(binders_formed hp hcs).1, (binders_formed hp hcs').1, hall⟩

/-- A function keeps its symbol when its parameters are renamed together with their uses. -/
theorem funcSymbol_renamed {name : String} {sig sig' : Signature TypeExpr}
    (hbinders : RenamedBinders (Undisturbed p) site sig.binders sig'.binders)
    (hsig : RenamedUnder (Undisturbed p) site (sig.binders.map (·.name)) (sig'.binders.map (·.name))
      (.func sig) (.func sig')) :
    Option.Rel SymbolKept (p.funcSymbol site name sig) (p'.funcSymbol site name sig') := by
  have hlen : (sig.binders.map (·.name)).length = (sig'.binders.map (·.name)).length := by
    simpa using hbinders.length_eq
  refine rel_bind (binders_under hp hagrees hsite hbinders) fun cs cs' hcs => ?_
  refine rel_bind (signature_under hp hagrees hsite hlen hsig) fun g g' hg => ?_
  obtain ⟨hnames, hnames', hconstraints⟩ := hcs
  rw [← hnames, ← hnames'] at hg hconstraints
  obtain ⟨bs, rs, ps, qs, v⟩ := g
  obtain ⟨bs', rs', ps', qs', v'⟩ := g'
  obtain ⟨rfl, rfl⟩ : rs = [] ∧ rs' = [] := hg.receiverBinders
  exact .some ⟨rfl, rfl, rfl, identical_of_renamed (renamed_func rfl hconstraints hg.params hg.results hg.variadic)⟩

theorem methodSymbol_renamed {receiver receiver' : Receiver} {name : String} {sig sig' : Signature TypeExpr}
    (htype : receiver.type = receiver'.type) (hcount : receiver.binders.length = receiver'.binders.length)
    (hsig : RenamedUnder (Undisturbed p) site receiver.binders receiver'.binders (.func sig) (.func sig')) :
    Option.Rel SymbolKept (p.methodSymbol site receiver name sig) (p'.methodSymbol site receiver' name sig') := by
  refine rel_bind (signature_under hp hagrees hsite hcount hsig) fun g g' hg => ?_
  rw [← List.append_nil receiver.binders, ← List.append_nil receiver'.binders] at hg
  obtain ⟨bs, rs, ps, qs, v⟩ := g
  obtain ⟨bs', rs', ps', qs', v'⟩ := g'
  obtain ⟨rfl, rfl⟩ : bs = [] ∧ bs' = [] := hg.binders
  refine .some ⟨?_, rfl, congrArg some htype, identical_of_renamed ?_⟩
  · rw [Symbol.method, Symbol.method, htype]
  · exact renamed_func hcount .nil hg.params hg.results hg.variadic

/-- A type declaration keeps its symbol: the names that it binds are respelled on both sides before
types are compared. -/
theorem typeSymbol_renamed {d d' : TypeDecl} (h : RenamedTypeDecl (Undisturbed p) site d d') :
    Option.Rel SymbolKept (p.typeSymbol site d) (p'.typeSymbol site d') := by
  have hlen : (d.binders.map (·.name)).length = (d'.binders.map (·.name)).length := by
    simpa using h.binders.length_eq
  refine rel_bind (binders_under hp hagrees hsite h.binders) fun cs cs' hcs => ?_
  refine rel_bind (resolve_under hp hagrees hsite hlen h.body) fun u u' hu => ?_
  obtain ⟨hnames, hnames', hconstraints⟩ := hcs
  rw [← hnames, ← hnames'] at hu hconstraints
  refine .some ⟨h.name, rfl, rfl, identical_of_renamed ?_⟩
  rw [h.name, h.isAlias]
  exact .defined hconstraints.length_eq (fun x hx => rel_of_mem_zip hconstraints hx) hu

omit hp hsite in
theorem typeSymbol_same (d : TypeDecl) : p.typeSymbol site d = p'.typeSymbol site d := by
  rw [Package.typeSymbol, Package.typeSymbol, hagrees.binders_all, hagrees.resolve_all]

omit hp hsite in
/-- A declaration that stays as it is has the same symbols in both packages. -/
theorem declSymbols_same (values : Values) (d : Decl) :
    p.declSymbols values site d = p'.declSymbols values site d := by
  cases d with
  | imports list => rfl
  | func name sig =>
    rw [Package.declSymbols, Package.declSymbols, Package.funcSymbol, Package.funcSymbol, hagrees.binders_all,
      hagrees.signature_all]
  | method receiver? name sig =>
    cases receiver? with
    | none => rfl
    | some receiver =>
      rw [Package.declSymbols, Package.declSymbols, Package.methodSymbol, Package.methodSymbol,
        hagrees.signature_all]
  | types list =>
    rw [Package.declSymbols, Package.declSymbols]
    exact List.map_congr_left fun d _ => typeSymbol_same hagrees d
  | consts specs | vars specs =>
    unfold Package.declSymbols
    dsimp only
    rw [hagrees.declValues_all]

/-- One declaration after the other, a renaming gives symbols that are kept. -/
theorem declSymbols_renamed (values : Values) {d d' : Decl} (h : RenamedDecl (Undisturbed p) site d d') :
    List.Forall₂ (Option.Rel SymbolKept) (p.declSymbols values site d) (p'.declSymbols values site d') := by
  have hself : ∀ o : Option Symbol, Option.Rel SymbolKept o o := by
    rintro (_ | s)
    · exact .none
    · exact .some (.refl s)
  cases h with
  | same d =>
    rw [declSymbols_same hagrees]
    exact List.forall₂_same.2 fun o _ => hself o
  | func _ hbinders hsig => exact .cons (funcSymbol_renamed hp hagrees hsite hbinders hsig) .nil
  | method htype hcount hsig => exact .cons (methodSymbol_renamed hp hagrees hsite htype hcount hsig) .nil
  | types hlist =>
    rw [Package.declSymbols, Package.declSymbols, List.forall₂_map_left_iff, List.forall₂_map_right_iff]
    refine hlist.imp fun d d' hd => ?_
    rcases hd with rfl | hd
    · rw [typeSymbol_same hagrees]
      exact hself _
    · exact typeSymbol_renamed hp hagrees hsite hd

end Symbols

/-- A renaming of parameters keeps every symbol of the package in its place. -/
theorem symbols_renamed {p p' : Package} (hp : p.Outermost)
    (h : List.Forall₂ (RenamedAt (Undisturbed p)) p.decls p'.decls) (values : Values) :
    List.Forall₂ (Option.Rel SymbolKept) (p.symbols values) (p'.symbols values) := by
  rw [symbols_eq, symbols_eq]
  have hmem : List.Forall₂ (fun x x' => x ∈ p.decls ∧ RenamedAt (Undisturbed p) x x') p.decls p'.decls :=
    forall₂_imp_mem h fun x hx x' _ hxx => ⟨hx, hxx⟩
  refine List.rel_flatMap hmem fun x x' hx => ?_
  obtain ⟨hx, hsite, hd⟩ := hx
  rw [← hsite]
  exact declSymbols_renamed hp (agrees_renamed h) (hp x hx) values hd

end GoApi.Surface
