import GoApi.Proofs.Source.Files
import GoApi.Proofs.Surface.Told

/-!
# The roots of loaded types

The type of a symbol starts in a way that the tokens of its source account for (`Ty.Rooted`): it is no
type parameter, a type of the package is named by a word that starts no type, a length starts with a
character that cannot close its bracket, and alternatives stand at the root only as `~T`.

Type expressions resolve to types with roots (`resolve_rooted`), so what is told of values has roots
(`Told.rooted`), and so have the symbols of every table (`load_rooted`).
-/

namespace GoApi

/-- The root of a descriptor as the loader gives it to a symbol. -/
def Ty.Rooted : Ty → Prop
  | .named none n _ => Source.isTypeName n = true
  | .typeParam _ => False
  | .array len _ => Source.startsLength len.toList = true
  | .union [⟨true, _⟩] => True
  | .union _ => False
  | _ => True

namespace Surface

open Source

/-! ## Type expressions -/

section Resolve

variable (p : Package) (expand : Expansion) {site : Site} (hsite : site.params = [])

theorem applyArgs_rooted (args : List Ty) {t : Ty} (h : t.Rooted) : (applyArgs args t).Rooted := by
  cases t with
  | named package name old =>
    cases package with
    | none => exact h
    | some path => trivial
  | _ => exact h

include hsite

theorem nameTy_rooted {name : String} (h : isTypeName name = true) : (p.nameTy site name).Rooted := by
  unfold Package.nameTy
  rw [hsite]
  split
  · next hparam => cases hparam
  split
  · exact h
  split
  · trivial
  split
  · trivial
  · exact h

/-- Outside of type parameters, a type with a root resolves to one with a root. -/
theorem resolve_rooted (type : TypeExpr) {t : Ty} (h : type.Rooted)
    (ht : resolve p expand site type = some t) : t.Rooted := by
  cases type with
  | name name =>
    rw [resolve] at ht
    cases ht
    exact nameTy_rooted p hsite h
  | generic base args =>
    rw [resolve] at ht
    obtain ⟨t₀, ht₀, ht⟩ := Option.bind_eq_some_iff.1 ht
    obtain ⟨args', -, ht⟩ := Option.bind_eq_some_iff.1 ht
    cases ht
    exact applyArgs_rooted args' (resolve_rooted base h ht₀)
  | paren inner =>
    rw [resolve] at ht
    exact resolve_rooted inner h ht
  | array len elem =>
    rw [resolve] at ht
    obtain ⟨t₀, -, ht⟩ := Option.bind_eq_some_iff.1 ht
    cases ht
    exact h
  | terms alternatives => exact h.elim
  | qualified _ _ | verbatim _ =>
    rw [resolve] at ht
    cases ht
    trivial
  | map key value =>
    rw [resolve] at ht
    obtain ⟨k, -, ht⟩ := Option.bind_eq_some_iff.1 ht
    obtain ⟨v, -, ht⟩ := Option.bind_eq_some_iff.1 ht
    cases ht
    trivial
  | _ =>
    rw [resolve] at ht
    obtain ⟨inside, -, ht⟩ := Option.bind_eq_some_iff.1 ht
    cases ht
    trivial

end Resolve

/-! ## Sources of types -/

/-- Every declaration stands outside of type parameters and has roots. -/
structure Package.Rooted (p : Package) : Prop where
  params : ∀ x ∈ p.decls, x.1.params = []
  decl : ∀ x ∈ p.decls, x.2.Rooted

theorem exprSources_rooted {e : Expr} (he : e.Rooted) : ∀ type ∈ exprSources e, type.Rooted := by
  induction e with
  | paren inner ih => exact ih he
  | unary op operand ih => exact ih he
  | binary op left right ihl ihr =>
    intro type htype
    rcases List.mem_append.1 htype with htype | htype
    · exact ihl he.1 type htype
    · exact ihr he.2 type htype
  | call function first? =>
    refine List.forall_mem_cons.2 ⟨he.1, fun type htype => ?_⟩
    exact he.2 type (Option.mem_toList.1 htype)
  | ofType type => exact List.forall_mem_singleton.2 he
  | function sig => exact List.forall_mem_singleton.2 trivial
  | _ => simp [exprSources]

theorem specSources_rooted {spec : ValueSpec} (hspec : spec.Rooted) :
    ∀ type ∈ specSources spec, type.Rooted := by
  intro type htype
  rcases List.mem_append.1 htype with htype | htype
  · exact hspec.type type (Option.mem_toList.1 htype)
  · obtain ⟨e, he, htype⟩ := List.mem_flatMap.1 htype
    exact exprSources_rooted (hspec.values e he) type htype

theorem declSources_rooted {d : Decl} (hd : d.Rooted) : ∀ type ∈ declSources d, type.Rooted := by
  intro type htype
  cases d with
  | func name sig =>
    rcases List.mem_cons.1 htype with rfl | htype
    · trivial
    · obtain ⟨r, hr, rfl⟩ := List.mem_map.1 htype
      exact hd r hr
  | consts specs | vars specs =>
    obtain ⟨spec, hspec, htype⟩ := List.mem_flatMap.1 htype
    exact specSources_rooted (hd spec hspec) type htype
  | _ => cases htype

/-! ## Symbols -/

section Symbols

variable {p : Package} (hp : p.Rooted)

include hp

/-- A type that is told of a value has a root. -/
theorem Told.rooted {t : Ty} (h : Told p t) : t.Rooted := by
  cases h with
  | basic name => trivial
  | resolved hd htype ht =>
    have htype := declSources_rooted (hp.decl _ hd) _ htype
    exact resolve_rooted p p.expand (hp.params _ hd) _ htype ht
  | pointer ht => trivial

/-- Every symbol of a package has a type with a root. -/
theorem symbols_rooted (hexpands : p.Expands) {values : Values} (hvalues : p.values = some values)
    {s : Symbol} (hs : some s ∈ p.symbols values) : s.type.Rooted := by
  obtain ⟨x, -, ⟨name, sig, -, h⟩ | ⟨receiver, name, sig, -, h⟩ | ⟨list, -, d, -, h⟩ | ⟨-, h⟩⟩ :=
    symbols_cases hexpands hvalues hs
  · obtain ⟨binders, -, h⟩ := Option.bind_eq_some_iff.1 h
    obtain ⟨resolved, -, h⟩ := Option.bind_eq_some_iff.1 h
    cases h
    trivial
  · obtain ⟨resolved, -, h⟩ := Option.bind_eq_some_iff.1 h
    cases h
    trivial
  · obtain ⟨binders, -, h⟩ := Option.bind_eq_some_iff.1 h
    obtain ⟨underlying, -, h⟩ := Option.bind_eq_some_iff.1 h
    cases h
    trivial
  · exact h.rooted hp

end Symbols

theorem mem_decls_ofFiles {files : List File} {x : Site × Decl} (hx : x ∈ (Package.ofFiles files).decls) :
    ∃ file ∈ files, x.2 ∈ file.decls := by
  obtain ⟨unit, hunit, hx⟩ := List.mem_flatMap.1 hx
  obtain ⟨file, hfile, rfl⟩ := List.mem_map.1 hunit
  obtain ⟨d, hd, rfl⟩ := List.mem_map.1 hx
  exact ⟨file, hfile, hd⟩

theorem fileOf_eq {target : Build.Target} {source : SourceFile} {file : File}
    (h : (fileOf target source).toOption.join = some file) : file = File.ofSource source.source := by
  unfold fileOf at h
  split at h
  · cases h
  dsimp only at h
  split at h
  · cases h
  split at h
  · cases h
  split at h
  · cases h
  · cases h
    rfl

/-- The declarations of a package stand in its sources. -/
theorem mem_decls_filesOf {target : Build.Target} {sources : List SourceFile} {x : Site × Decl}
    (hx : x ∈ (Package.ofFiles (filesOf target sources)).decls) :
    ∃ source ∈ sources, x.2 ∈ (File.ofSource source.source).decls := by
  obtain ⟨file, hfile, hd⟩ := mem_decls_ofFiles hx
  obtain ⟨source, hsource, heq⟩ := List.mem_filterMap.1 hfile
  exact ⟨source, hsource, fileOf_eq heq ▸ hd⟩

/-- The declarations of the files that take part have roots. -/
theorem filesOf_rooted (target : Build.Target) (sources : List SourceFile) :
    (Package.ofFiles (filesOf target sources)).Rooted := by
  refine ⟨outermost_ofFiles _, fun x hx => ?_⟩
  obtain ⟨source, -, hd⟩ := mem_decls_filesOf hx
  exact ofSource_rooted source.source x.2 hd

/-- Every symbol of a loaded package has a type with a root. -/
theorem load_rooted {target : Build.Target} {package : String} {sources : List SourceFile}
    {table : SymbolTable} (h : load target package sources = .ok (some table)) :
    ∀ s ∈ table.symbols, s.type.Rooted := by
  intro s hs
  obtain ⟨hexpands, values, hvalues, hsymbols⟩ := symbols_of_load h
  exact symbols_rooted (filesOf_rooted target sources) hexpands hvalues (hsymbols s hs)

end Surface

end GoApi
