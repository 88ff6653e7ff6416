import GoApi.Proofs.Source.Names
import GoApi.Proofs.Surface.Recording
import GoApi.Proofs.Surface.Roots
import Mathlib.Data.List.Duplicate
import Mathlib.Data.List.Flatten

/-!
# What a package declares

A package declares the entities that its files name, in order (`Package.entities`).  What is offered to its
table are these and, between the names of constants, commas; those are not exported.  So the table of a
package holds one symbol for each exported entity, and it is refused for a duplicate only if an exported
entity is declared twice (`entities_apart`).
-/

namespace GoApi.Surface

open Source

/-! ## Entities of a package -/

/-- The entities that a declaration introduces. -/
def declEntities : Decl → List Entity
  | .imports _ => []
  | .func name _ => [.plain name]
  | .method receiver? name _ => receiver?.toList.map fun receiver => .method receiver.type name
  | .types list => list.map fun d => .plain d.name
  | .consts specs => (specs.flatMap (·.names)).map .plain
  | .vars specs => (specs.flatMap (·.names)).map .plain

/-- The entities that a package declares, in order. -/
def Package.entities (p : Package) : List Entity := p.decls.flatMap fun x => declEntities x.2

/-- The entities that are offered for a declaration: its own, and the commas between constants. -/
def declOffers : Decl → List Entity
  | .consts specs => (declValueNames (.consts specs)).map .plain
  | d => declEntities d

/-- The entities that are offered for a package, in order. -/
def Package.offers (p : Package) : List Entity := p.decls.flatMap fun x => declOffers x.2

theorem filter_declOffers (d : Decl) :
    (declOffers d).filter (·.exported) = (declEntities d).filter (·.exported) := by
  have hcomma : isExported "," = false := by decide
  cases d with
  | consts specs =>
    rw [declOffers, declValueNames, declEntities, List.filter_map, List.filter_map, List.filter_flatMap,
      List.filter_flatMap]
    exact congrArg _ (List.flatMap_congr fun spec _ => filter_intersperse hcomma spec.names)
  | _ => rfl

/-- Commas are not exported, so they do not matter. -/
theorem filter_offers (p : Package) : p.offers.filter (·.exported) = p.entities.filter (·.exported) := by
  rw [Package.offers, Package.entities, List.filter_flatMap, List.filter_flatMap]
  exact List.flatMap_congr fun x _ => filter_declOffers x.2

/-! ## Symbols of a declaration -/

/-- What is told, if it is, is a symbol of the entity. -/
def IsSymbolOf (s? : Option Symbol) (e : Entity) : Prop := ∀ s ∈ s?, s.Built ∧ s.entity = e

theorem isSymbolOf_plain {name : String} (hname : '.' ∉ name.toList) {kind : DeclKind} (hkind : kind ≠ .method)
    (type : Ty) : IsSymbolOf (some { name, kind, type }) (.plain name) := by
  intro s hs
  cases hs
  exact ⟨.plain name kind type hname hkind, rfl⟩

section

variable (p : Package) (values : Values) (site : Site)

theorem isSymbolOf_funcSymbol {name : String} (hname : isWordText name = true) (sig : Signature TypeExpr) :
    IsSymbolOf (p.funcSymbol site name sig) (.plain name) := by
  intro s hs
  obtain ⟨binders, -, hs⟩ := Option.bind_eq_some_iff.1 hs
  obtain ⟨resolved, -, hs⟩ := Option.bind_eq_some_iff.1 hs
  exact isSymbolOf_plain (isName_of_isWordText hname).dotless (by decide) _ s hs

theorem isSymbolOf_typeSymbol {d : TypeDecl} (hname : isWordText d.name = true) :
    IsSymbolOf (p.typeSymbol site d) (.plain d.name) := by
  intro s hs
  obtain ⟨binders, -, hs⟩ := Option.bind_eq_some_iff.1 hs
  obtain ⟨underlying, -, hs⟩ := Option.bind_eq_some_iff.1 hs
  exact isSymbolOf_plain (isName_of_isWordText hname).dotless (by decide) _ s hs

theorem isSymbolOf_methodSymbol {receiver : Receiver} (hreceiver : IsReceiver receiver.type) {name : String}
    (hname : isWordText name = true) (sig : Signature TypeExpr) :
    IsSymbolOf (p.methodSymbol site receiver name sig) (.method receiver.type name) := by
  intro s hs
  obtain ⟨resolved, -, hs⟩ := Option.bind_eq_some_iff.1 hs
  cases hs
  have hdotless := (isName_of_isWordText hname).dotless
  exact ⟨.method _ _ _ ⟨hdotless, hreceiver.head_ne⟩, entity_method hdotless _⟩

theorem dotless_declValueNames {d : Decl} (hd : d.Named) : ∀ name ∈ declValueNames d, '.' ∉ name.toList := by
  intro name hname
  cases d with
  | consts specs =>
    obtain ⟨spec, hspec, hname⟩ := List.mem_flatMap.1 hname
    rcases mem_intersperse hname with rfl | hname
    · decide
    · exact (isName_of_isWordText (hd spec hspec name hname)).dotless
  | vars specs =>
    obtain ⟨spec, hspec, hname⟩ := List.mem_flatMap.1 hname
    exact (isName_of_isWordText (hd spec hspec name hname)).dotless
  | _ => cases hname

/-- The values of a declaration, where they come to an end, are symbols of its names. -/
theorem isSymbolOf_declValues {d : Decl} (hd : d.Named) {kind : DeclKind} {declared : List Declared}
    (h : declValues p site values d = some (kind, declared)) :
    List.Forall₂ IsSymbolOf (declared.map fun x => some { name := x.1, kind, type := x.2.getD unknown })
      ((declValueNames d).map .plain) := by
  obtain ⟨rfl, rfl⟩ := declValues_eq_some h
  have hkind : declKind d ≠ .method := by cases d <;> simp [declKind]
  rw [← declSlots_names p site d, List.map_map, List.map_map, List.forall₂_map_left_iff,
    List.forall₂_map_right_iff, List.forall₂_same]
  intro slot hslot
  refine isSymbolOf_plain (dotless_declValueNames hd slot.name ?_) hkind _
  rw [← declSlots_names p site d]
  exact List.mem_map_of_mem hslot

/-- Each symbol of a declaration is one of the entity offered in its place, unless the declaration has no
symbols for want of an end. -/
theorem isSymbolOf_declSymbols {d : Decl} (hd : d.Named) :
    p.declSymbols values site d = [none] ∨
      List.Forall₂ IsSymbolOf (p.declSymbols values site d) (declOffers d) := by
  cases d with
  | imports list => exact .inr .nil
  | func name sig => exact .inr (.cons (isSymbolOf_funcSymbol p site hd sig) .nil)
  | method receiver? name sig =>
    cases receiver? with
    | none => exact .inr .nil
    | some receiver => exact .inr (.cons (isSymbolOf_methodSymbol p site (hd.2 receiver rfl) hd.1 sig) .nil)
  | types list =>
    right
    change List.Forall₂ IsSymbolOf (list.map (p.typeSymbol site)) (list.map fun d => .plain d.name)
    rw [List.forall₂_map_left_iff, List.forall₂_map_right_iff, List.forall₂_same]
    exact fun d' hd' => isSymbolOf_typeSymbol p site (hd d' hd')
  | consts specs | vars specs =>
    unfold Package.declSymbols
    dsimp only
    cases hdecl : declValues p site values _ with
    | none => exact .inl rfl
    | some found =>
      obtain ⟨kind, declared⟩ := found
      exact .inr (isSymbolOf_declValues p values site hd hdecl)

end

/-! ## Symbols of a package -/

/-- The symbols that are told are symbols of offered entities, in their order. -/
theorem sublist_of_isSymbolOf {symbols : List (Option Symbol)} {es : List Entity}
    (h : List.Forall₂ IsSymbolOf symbols es) : (symbols.reduceOption.map Symbol.entity).Sublist es := by
  induction h with
  | nil => exact .slnil
  | @cons s? e _ _ hs _ ih =>
    cases s? with
    | none => exact ih.cons e
    | some s =>
      rw [List.reduceOption_cons_of_some, List.map_cons, (hs s rfl).2]
      exact ih.cons_cons e

/-- If all are told there is one for each offered entity. -/
theorem entities_of_isSymbolOf {symbols : List Symbol} {es : List Entity}
    (h : List.Forall₂ IsSymbolOf (symbols.map some) es) : symbols.map Symbol.entity = es := by
  rw [List.forall₂_map_left_iff] at h
  induction h with
  | nil => rfl
  | cons hs _ ih => rw [List.map_cons, (hs _ rfl).2, ih]

theorem built_of_isSymbolOf {symbols : List (Option Symbol)} {es : List Entity}
    (h : List.Forall₂ IsSymbolOf symbols es) {s : Symbol} (hs : some s ∈ symbols) : s.Built := by
  induction h with
  | nil => cases hs
  | cons hsymbols _ ih =>
    rcases List.mem_cons.1 hs with rfl | hs
    · exact (hsymbols s rfl).1
    · exact ih hs

section

variable {p : Package} (hp : ∀ x ∈ p.decls, x.2.Named) (values : Values)

include hp

theorem symbols_built {s : Symbol} (hs : some s ∈ p.symbols values) : s.Built := by
  rw [symbols_eq] at hs
  obtain ⟨x, hx, hs⟩ := List.mem_flatMap.1 hs
  rcases isSymbolOf_declSymbols p values x.1 (hp x hx) with hnone | hsymbols
  · rw [hnone] at hs
    cases List.mem_singleton.1 hs
  · exact built_of_isSymbolOf hsymbols hs

theorem symbols_sublist : ((p.symbols values).reduceOption.map Symbol.entity).Sublist p.offers := by
  rw [symbols_eq, List.reduceOption, List.filterMap_flatMap, List.map_flatMap]
  refine List.Sublist.flatMap_right _ fun x hx => ?_
  rcases isSymbolOf_declSymbols p values x.1 (hp x hx) with hnone | hsymbols
  · rw [hnone]
    exact List.nil_sublist _
  · exact sublist_of_isSymbolOf hsymbols

theorem symbols_entities {symbols : List Symbol} (h : p.symbols values = symbols.map some) :
    symbols.map Symbol.entity = p.offers := by
  have htold : ∀ x ∈ p.decls, ∀ s? ∈ p.declSymbols values x.1 x.2, s?.isSome := by
    intro x hx s? hs
    have hmem : s? ∈ p.symbols values := symbols_eq p values ▸ List.mem_flatMap.2 ⟨x, hx, hs⟩
    rw [h] at hmem
    obtain ⟨s, -, rfl⟩ := List.mem_map.1 hmem
    rfl
  have hall : symbols = (p.symbols values).reduceOption := by rw [h, reduceOption_map_some]
  rw [hall, symbols_eq, List.reduceOption, List.filterMap_flatMap, List.map_flatMap]
  refine List.flatMap_congr fun x hx => ?_
  have hsome := map_some_reduceOption (htold x hx)
  rcases isSymbolOf_declSymbols p values x.1 (hp x hx) with hnone | hsymbols
  · exact absurd (htold x hx none (by simp [hnone])) (by simp)
  · rw [← hsome] at hsymbols
    exact entities_of_isSymbolOf hsymbols

end

/-! ## Tables -/

theorem tableOf_eq_error {package : String} {files : List File} {d : SymbolTable.Duplicate}
    (h : tableOf package files = .error (.table d)) :
    ∃ values, SymbolTable.ofSymbols package
      (((Package.ofFiles files).symbols values).takeWhile (·.isSome)).reduceOption = .error d := by
  unfold tableOf at h
  dsimp only at h
  split at h
  · cases h
  · next values hvalues =>
    split at h
    · next duplicate hduplicate =>
      cases h
      exact ⟨values, hduplicate⟩
    · split at h <;> cases h

theorem load_eq_error {target : Build.Target} {package : String} {sources : List SourceFile}
    {d : SymbolTable.Duplicate} (h : load target package sources = .error (.table d)) :
    tableOf package (filesOf target sources) = .error (.table d) := by
  unfold load at h
  split at h
  · cases h
  · next files hfiles =>
    obtain ⟨files', hfiles', heq⟩ := mapM_fileOf (isOk_of_mapM hfiles)
    rw [hfiles] at hfiles'
    cases hfiles'
    rw [heq] at h
    split at h
    · cases h
    · split at h
      · cases h
      · next cause hcause =>
        cases h
        exact hcause

/-- A refusal is for an exported entity that is declared twice. -/
theorem twice_of_error {package : String} {files : List File}
    (hnamed : ∀ x ∈ (Package.ofFiles files).decls, x.2.Named) {d : SymbolTable.Duplicate}
    (h : tableOf package files = .error (.table d)) :
    ∃ e, e.exported = true ∧ 2 ≤ (Package.ofFiles files).entities.count e ∧ d = ⟨package, e.key⟩ := by
  obtain ⟨values, herror⟩ := tableOf_eq_error h
  have htaken := List.takeWhile_sublist (p := Option.isSome) (l := (Package.ofFiles files).symbols values)
  obtain ⟨before, s, rest, heq, hrefused, rfl⟩ := SymbolTable.exists_refused_of_error herror
  have hbuilt : ∀ u ∈ before ++ s :: rest, u.Built := by
    intro u hu
    rw [← heq, List.reduceOption_mem_iff] at hu
    exact symbols_built hnamed values (htaken.subset hu)
  have hs : s.Built := hbuilt s (by simp)
  obtain ⟨hexported, hmem⟩ :=
    (insert_duplicate_iff package (fun u hu => hbuilt u (by simp [hu])) hs).1 hrefused
  refine ⟨s.entity, hexported, ?_, by rw [hs.name_eq]⟩
  -- the refused symbol and the one before it show one entity each, at two places of what is offered
  have hoffers : [s.entity, s.entity].Sublist (Package.ofFiles files).offers := by
    refine List.Sublist.trans ?_ (symbols_sublist hnamed values)
    refine List.Sublist.trans ?_ ((htaken.filterMap id).map Symbol.entity)
    change List.Sublist _ (List.map Symbol.entity (List.reduceOption _))
    rw [heq, List.map_append, List.map_cons]
    exact (List.singleton_sublist.2 hmem).append (List.singleton_sublist.2 (List.mem_cons_self ..))
  rw [← List.duplicate_iff_two_le_count, List.duplicate_iff_sublist]
  have hfiltered := hoffers.filter (·.exported)
  rw [filter_offers] at hfiltered
  refine List.Sublist.trans ?_ (hfiltered.trans List.filter_sublist)
  simp [hexported]

/-- A table has one symbol for each exported entity. -/
theorem perm_of_ok {package : String} {files : List File}
    (hnamed : ∀ x ∈ (Package.ofFiles files).decls, x.2.Named) {t : SymbolTable}
    (h : tableOf package files = .ok t) :
    (t.symbols.map Symbol.entity).Perm ((Package.ofFiles files).entities.filter (·.exported)) ∧
      (t.symbols.map Symbol.entity).Nodup := by
  obtain ⟨values, symbols, -, hsymbols, hok⟩ := (tableOf_eq_ok_iff package files t).1 h
  obtain ⟨-, hheld⟩ := (SymbolTable.ofSymbols_eq_ok_iff package symbols t).1 hok
  have hbuilt : ∀ s ∈ symbols, s.Built := fun s hs =>
    symbols_built hnamed values (hsymbols ▸ List.mem_map_of_mem hs)
  have hvisible : symbols.filter (·.visible) = symbols.filter ((·.exported) ∘ Symbol.entity) :=
    List.filter_congr fun s hs => (hbuilt s hs).visible_eq
  constructor
  · rw [← filter_offers, ← symbols_entities hnamed values hsymbols, List.filter_map, ← hvisible]
    exact hheld.map Symbol.entity
  · -- equal entities would have equal keys, which a table does not have
    have hnames : t.symbols.map (·.name) = (t.symbols.map Symbol.entity).map Entity.key := by
      rw [List.map_map]
      refine List.map_congr_left fun s hs => (hbuilt s ?_).name_eq
      exact List.mem_of_mem_filter (hheld.mem_iff.1 hs)
    have hnodup := t.ascending.nodup
    rw [hnames] at hnodup
    exact hnodup.of_map

theorem filesOf_named (target : Build.Target) (sources : List SourceFile) :
    ∀ x ∈ (Package.ofFiles (filesOf target sources)).decls, x.2.Named := by
  intro x hx
  obtain ⟨source, -, hd⟩ := mem_decls_filesOf hx
  exact ofSource_named source.source x.2 hd

/-- The key of a plain name, of a method on a value and of a method on a pointer differ, unless they are of
one shape with the same receiver and name.  A method is decided about by its own name.  So a symbol has the
key and the visibility of its entity, and is refused only if its entity was offered before: loading a package
fails for a duplicate only if an exported entity is declared twice, and a table has one symbol for each. -/
theorem entities_apart :
    (∀ s, isWordText s = true → IsName s) ∧
    (∀ a b : Entity, a.Named → b.Named → (a.key = b.key ↔ a = b)) ∧
    (∀ T M receiver type, IsName T → IsName M → receiver = T ∨ receiver = "*" ++ T →
      (Symbol.method receiver M type).identifier = M ∧
      ((Symbol.method receiver M type).visible = true ↔ isExported M = true ∧ isExported T = true)) ∧
    (∀ s : Symbol, s.Built → s.name = s.entity.key ∧ s.visible = s.entity.exported) ∧
    (∀ package before s, (∀ u ∈ before, u.Built) → s.Built →
      (((SymbolTable.afterOffers { package } before).insert s).1 = .duplicate ↔
        s.entity.exported = true ∧ s.entity ∈ before.map Symbol.entity)) ∧
    ∀ target package sources,
      (∀ d, load target package sources = .error (.table d) →
        ∃ e, e.exported = true ∧ 2 ≤ (Package.ofFiles (filesOf target sources)).entities.count e ∧
          d = ⟨package, e.key⟩) ∧
      ∀ t, load target package sources = .ok (some t) →
        (t.symbols.map Symbol.entity).Perm
          ((Package.ofFiles (filesOf target sources)).entities.filter (·.exported)) ∧
        (t.symbols.map Symbol.entity).Nodup := by
  refine ⟨fun s => isName_of_isWordText, fun a b ha hb => Entity.key_inj ha.formed hb.formed,
    fun T M receiver type hT hM hreceiver => method_visible hT hM hreceiver type,
    fun s hs => ⟨hs.name_eq, hs.visible_eq⟩,
    fun package before s hbefore hs => insert_duplicate_iff package hbefore hs, ?_⟩
  intro target package sources
  have hnamed := filesOf_named target sources
  refine ⟨fun d h => twice_of_error hnamed (load_eq_error h), fun t h => ?_⟩
  obtain ⟨-, ⟨-, hnone⟩ | ⟨-, t', ht', heq⟩⟩ := (load_eq_ok_iff target package sources _).1 h
  · cases hnone
  · cases heq
    exact perm_of_ok hnamed ht'

/-- A function and two methods of one name. -/
def sameNames : SourceFile :=
  ⟨"p.go", "package p\ntype T int\nfunc M() \x7b\x7d\nfunc (T) M() \x7b\x7d\nfunc (t *T) M() \x7b\x7d\n"⟩

/-- The three have keys of their own, and the table has all of them. -/
theorem entities_apart_sameNames :
    (Entity.method "T" "M").key ≠ (Entity.method "*T" "M").key ∧
    (Entity.plain "M").key ≠ (Entity.method "T" "M").key ∧
    ∃ t, load {} "./p" [sameNames] = .ok (some t) ∧
      (t.symbols.map Symbol.entity).Perm
        [.plain "T", .plain "M", .method "T" "M", .method "*T" "M"] := by
  obtain ⟨-, hkeys, -, -, -, hload⟩ := entities_apart
  have hplain : (Entity.plain "M").Named := .plain "M" (by decide)
  have hvalue : (Entity.method "T" "M").Named := .value "T" "M" (by decide) (by decide)
  have hpointer : (Entity.method "*T" "M").Named := .pointer "T" "M" (by decide) (by decide)
  refine ⟨fun h => ?_, fun h => ?_, ?_⟩
  · exact absurd ((hkeys _ _ hvalue hpointer).1 h) (by decide)
  · exact absurd ((hkeys _ _ hplain hvalue).1 h) (by decide)
  have hok : (load {} "./p" [sameNames]).toOption.join.isSome = true := by decide +kernel
  have hdeclared : (Package.ofFiles (filesOf {} [sameNames])).entities.filter (·.exported) =
      [.plain "T", .plain "M", .method "T" "M", .method "*T" "M"] := by decide +kernel
  cases hresult : load {} "./p" [sameNames] with
  | error cause =>
    rw [hresult] at hok
    cases hok
  | ok result =>
    rw [hresult] at hok
    cases result with
    | none => cases hok
    | some t =>
      have hperm := ((hload {} "./p" [sameNames]).2 t hresult).1
      rw [hdeclared] at hperm
      exact ⟨t, rfl, hperm⟩

/-- A type and a function of one name are one entity, declared twice. -/
example : load {} "./p" [⟨"p.go", "package p\ntype T int\nfunc T() \x7b\x7d\n"⟩] =
    .error (.table ⟨"./p", "T"⟩) := by
  decide +kernel

end GoApi.Surface
