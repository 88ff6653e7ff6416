import GoApi.Proofs.Classify
import GoApi.Proofs.Surface.Reordering

/-!
# The order of files

Loading the files of a package in another order succeeds as well, and gives a table with the same names,
kinds and receivers.  The types are the same too, but for values that are found only through a chain of
more than `maxRounds + 1` initializers:

    sources.Perm sources' → (packageOf target sources).DeclaredOnce →
      load target package sources = .ok result →
      ∃ result', load target package sources' = .ok result' ∧ SameSurface … result result'   (load_perm)
-/

namespace GoApi.Surface

open Source

/-! ## Symbols -/

/-- Two symbols that differ at most in the type of a deep value. -/
structure SameSymbol (p : Package) (s s' : Symbol) : Prop where
  name : s.name = s'.name
  kind : s.kind = s'.kind
  receiver : s.receiver = s'.receiver
  type : s.type = s'.type ∨ (s.kind = .const ∨ s.kind = .var) ∧ p.Deep s.name

/-- The same for symbols that need not be visible; nothing is said about the types of hidden ones. -/
structure Twin (p : Package) (s s' : Symbol) : Prop where
  name : s.name = s'.name
  kind : s.kind = s'.kind
  receiver : s.receiver = s'.receiver
  type : s.visible = true → s.type = s'.type ∨ (s.kind = .const ∨ s.kind = .var) ∧ p.Deep s.name

theorem Twin.refl (p : Package) (s : Symbol) : Twin p s s := ⟨rfl, rfl, rfl, fun _ => Or.inl rfl⟩

theorem Twin.visible {p : Package} {s s' : Symbol} (h : Twin p s s') : s.visible = s'.visible := by
  unfold Symbol.visible Symbol.identifier
  rw [h.name, h.kind, h.receiver]

theorem Twin.sameSymbol {p : Package} {s s' : Symbol} (h : Twin p s s') (hv : s.visible = true) :
    SameSymbol p s s' :=
  ⟨h.name, h.kind, h.receiver, h.type hv⟩

/-- What is told in one package has its twin in the other. -/
def HasTwin (p : Package) (o o' : Option Symbol) : Prop :=
  ∀ s, o = some s → ∃ s', o' = some s' ∧ Twin p s s'

theorem HasTwin.refl (p : Package) (o : Option Symbol) : HasTwin p o o :=
  fun s hs => ⟨s, hs, Twin.refl p s⟩

theorem symbols_eq (p : Package) (values : Values) :
    p.symbols values = p.decls.flatMap fun x => p.declSymbols values x.1 x.2 := by
  unfold Package.symbols Package.decls
  rw [List.flatMap_assoc]
  refine List.flatMap_congr fun u _ => ?_
  rw [List.flatMap_map]

theorem exists_twins_of_hasTwin {p : Package} {symbols : List Symbol} {others : List (Option Symbol)}
    (h : List.Forall₂ (HasTwin p) (symbols.map some) others) :
    ∃ twins : List Symbol, others = twins.map some ∧ List.Forall₂ (Twin p) symbols twins := by
  rw [List.forall₂_map_left_iff] at h
  induction h with
  | nil => exact ⟨[], rfl, .nil⟩
  | cons hm _ ih =>
    obtain ⟨s', rfl, ht⟩ := hm _ rfl
    obtain ⟨twins, rfl, hall⟩ := ih
    exact ⟨s' :: twins, rfl, .cons ht hall⟩

section Perm

variable {p p' : Package} (hperm : p.units.Perm p'.units) (honce : p.DeclaredOnce)

include hperm honce

theorem typeSymbol_perm {site : Site} {list : List TypeDecl} (hx : (site, Decl.types list) ∈ p.decls)
    {d : TypeDecl} (hd : d ∈ list) : p.typeSymbol site d = p'.typeSymbol site d := by
  have hagrees := honce.agrees hperm
  have hreads := (hagrees.within _ hx).embedded
  have hbody : d.body ∈ declTypes (.types list) := List.mem_flatMap.2 ⟨d, hd, by simp⟩
  have hbinders : ∀ b ∈ d.binders, b.constraint ∈ declTypes (.types list) := fun b hb =>
    List.mem_flatMap.2 ⟨d, hd, List.mem_cons_of_mem _ (List.mem_map_of_mem hb)⟩
  unfold Package.typeSymbol
  dsimp only
  rw [hagrees.binders _ fun b hb => hreads _ (hbinders b hb), hagrees.resolve _ (hreads _ hbody)]

/-- The symbols of a declaration have their twins in every order. -/
theorem declSymbols_hasTwin (hp : p.Expands) {values values' : Values} (hv : p.values = some values)
    (hv' : p'.values = some values') {x : Site × Decl} (hx : x ∈ p.decls) :
    List.Forall₂ (HasTwin p) (p.declSymbols values x.1 x.2) (p'.declSymbols values' x.1 x.2) := by
  obtain ⟨site, d⟩ := x
  have hagrees := honce.agrees hperm
  have hreads := (hagrees.within _ hx).embedded
  have hvalues : declValues p site values d = some (declKind d, _) := declValues_eq hp site values d
  have hvalues' : declValues p' site values' d = some (declKind d, _) :=
    declValues_eq (hp.perm hperm honce) site values' d
  have hslots : ∀ s ∈ declSlots p site d, HasTwin p
      (some { name := s.name, kind := declKind d, type := (s.type? p site values).getD unknown })
      (some { name := s.name, kind := declKind d, type := (s.type? p' site values').getD unknown }) := by
    intro s hs symbol hsymbol
    obtain rfl := Option.some.inj hsymbol
    refine ⟨_, rfl, rfl, rfl, rfl, fun hvis => ?_⟩
    have hkind : declKind d = .const ∨ declKind d = .var := by
      cases d <;> simp [declKind]
    have hexported : isExported s.name = true := by
      rcases hkind with hk | hk <;> simpa [Symbol.visible, Symbol.identifier, hk] using hvis
    rcases slot_type?_perm hperm honce hp hv hv'
      (List.mem_flatMap.2 ⟨_, hx, List.mem_map.2 ⟨s, hs, rfl⟩⟩) (Or.inl hexported) with heq | hdeep
    · exact Or.inl (congrArg (Option.getD · unknown) heq)
    · exact Or.inr ⟨hkind, hdeep⟩
  have heach : List.Forall₂ (HasTwin p)
      ((declSlots p site d).map fun s =>
        some { name := s.name, kind := declKind d, type := (s.type? p site values).getD unknown })
      ((declSlots p' site d).map fun s =>
        some { name := s.name, kind := declKind d, type := (s.type? p' site values').getD unknown }) := by
    rw [← hagrees.declSlots hx, List.forall₂_map_left_iff, List.forall₂_map_right_iff,
      List.forall₂_same]
    exact hslots
  cases d with
  | imports list => exact .nil
  | func name sig =>
    refine .cons ?_ .nil
    have heq : p.funcSymbol site name sig = p'.funcSymbol site name sig := by
      unfold Package.funcSymbol
      dsimp only
      rw [hagrees.binders _ fun b hb => hreads _ (List.mem_cons_of_mem _ (List.mem_map_of_mem hb)),
        hagrees.signature _ (hreads _ (List.mem_cons_self ..))]
    rw [heq]
    exact HasTwin.refl p _
  | method receiver? name sig =>
    cases receiver? with
    | none => exact .nil
    | some receiver =>
      refine .cons ?_ .nil
      have heq : p.methodSymbol site receiver name sig = p'.methodSymbol site receiver name sig := by
        unfold Package.methodSymbol
        rw [hagrees.signature _ (hreads _ (List.mem_cons_self ..))]
      rw [heq]
      exact HasTwin.refl p _
  | types list =>
    rw [Package.declSymbols, Package.declSymbols,
      List.map_congr_left fun d hd => typeSymbol_perm hperm honce hx hd]
    exact List.forall₂_same.2 fun o _ => HasTwin.refl p o
  | consts specs =>
    unfold Package.declSymbols
    dsimp only
    rw [hvalues, hvalues']
    simpa [Function.comp_def] using heach
  | vars specs =>
    unfold Package.declSymbols
    dsimp only
    rw [hvalues, hvalues']
    simpa [Function.comp_def] using heach

/-- The told symbols of a package, with a twin for each among those of the other order. -/
theorem exists_twins (hp : p.Expands) {values values' : Values} (hv : p.values = some values)
    (hv' : p'.values = some values') {symbols : List Symbol}
    (hs : p.symbols values = symbols.map some) :
    ∃ twins symbols', List.Forall₂ (Twin p) symbols twins ∧ twins.Perm symbols' ∧
      p'.symbols values' = symbols'.map some := by
  have heach : List.Forall₂ (HasTwin p) (symbols.map some)
      (p.decls.flatMap fun x => p'.declSymbols values' x.1 x.2) := by
    rw [← hs, symbols_eq]
    refine List.rel_flatMap (List.forall₂_same.2 fun x hx => ?_) fun _ _ hxy => hxy
    exact declSymbols_hasTwin hperm honce hp hv hv' hx
  obtain ⟨twins, htwins, hall⟩ := exists_twins_of_hasTwin heach
  obtain ⟨_, hresolves⟩ := (hp.perm hperm honce).resolves
  have hsome : ∀ s ∈ p'.symbols values', s.isSome := by
    obtain ⟨hvalues, hsome⟩ := hresolves
    obtain rfl := Option.some.inj (hvalues.symm.trans hv')
    exact hsome
  have hperm' : (twins.map some).Perm (p'.symbols values') := by
    rw [← htwins, symbols_eq]
    exact (decls_perm hperm).flatMap_right _
  refine ⟨twins, (p'.symbols values').reduceOption, hall, ?_, (map_some_reduceOption hsome).symm⟩
  have htold : (twins.map some).reduceOption.Perm (p'.symbols values').reduceOption :=
    hperm'.filterMap id
  rwa [reduceOption_map_some] at htold

end Perm

/-! ## Tables -/

/-- Two tables of one package whose symbols differ at most in the types of deep values. -/
structure SameTable (p : Package) (t t' : SymbolTable) : Prop where
  package : t.package = t'.package
  symbols : List.Forall₂ (SameSymbol p) t.symbols t'.symbols

theorem SameSymbol.names {p : Package} {ss ss' : List Symbol} (h : List.Forall₂ (SameSymbol p) ss ss') :
    ss.map (·.name) = ss'.map (·.name) := by
  induction h with
  | nil => rfl
  | cons hs _ ih => rw [List.map_cons, List.map_cons, hs.name, ih]

theorem SameSymbol.eq {p : Package} (hdeep : ∀ name, ¬ p.Deep name) {s s' : Symbol}
    (h : SameSymbol p s s') : s = s' := by
  obtain ⟨name, kind, receiver, type⟩ := s
  obtain ⟨name', kind', receiver', type'⟩ := s'
  obtain rfl : name = name' := h.name
  obtain rfl : kind = kind' := h.kind
  obtain rfl : receiver = receiver' := h.receiver
  obtain rfl : type = type' := h.type.resolve_right fun hd => hdeep _ hd.2
  rfl

theorem SameTable.eq {p : Package} (hdeep : ∀ name, ¬ p.Deep name) {t t' : SymbolTable}
    (h : SameTable p t t') : t = t' := by
  refine SymbolTable.ext_of_perm h.package ?_
  have heq : List.Forall₂ (· = ·) t.symbols t'.symbols := h.symbols.imp fun _ _ hs => hs.eq hdeep
  rw [List.forall₂_eq_eq_eq] at heq
  rw [heq]

theorem SameTable.get? {p : Package} {t t' : SymbolTable} (h : SameTable p t t') (name : String) :
    (t.get? name = none ∧ t'.get? name = none) ∨
      ∃ s s', t.get? name = some s ∧ t'.get? name = some s' ∧ SameSymbol p s s' := by
  unfold SymbolTable.get?
  have hsymbols := h.symbols
  generalize t.symbols = ss, t'.symbols = ss' at hsymbols ⊢
  induction hsymbols with
  | nil => exact Or.inl ⟨rfl, rfl⟩
  | @cons s s' ss ss' hs _ ih =>
    rw [List.find?_cons, List.find?_cons, ← hs.name]
    cases hname : s.name == name with
    | true => exact Or.inr ⟨s, s', rfl, rfl, hs⟩
    | false => exact ih

/-- Between such tables only deep values are reported. -/
theorem SameTable.deep_of_mem_classify {p : Package} {t t' : SymbolTable} (h : SameTable p t t')
    {policy : Policy} {c : Change} (hc : c ∈ classify policy t t') : p.Deep c.symbol := by
  rw [mem_classify] at hc
  rcases h.get? c.symbol with ⟨hnone, hnone'⟩ | ⟨s, s', hs, hs', hsame⟩
  · rw [hnone, hnone'] at hc
    cases hc
  · rw [hs, hs', classifySymbol] at hc
    have hname : s.name = c.symbol := ((t.get?_eq_some_iff _ _).1 hs).2
    rcases hsame.type with htype | ⟨_, hdeep⟩
    · rcases changeOf_cases policy c.symbol s s' with ⟨_, hnone⟩ | ⟨hnot, _⟩
      · rw [hnone] at hc
        cases hc
      · exact absurd (unchanged_of_type_eq hsame.kind htype) hnot
    · rwa [← hname]

/-- The files of a package in another order give a table as well. -/
theorem tableOf_perm {package : String} {files files' : List File} (hperm : files.Perm files')
    (honce : (Package.ofFiles files).DeclaredOnce) {t : SymbolTable}
    (h : tableOf package files = .ok t) :
    ∃ t', tableOf package files' = .ok t' ∧ SameTable (Package.ofFiles files) t t' := by
  have hunits : (Package.ofFiles files).units.Perm (Package.ofFiles files').units := hperm.map _
  obtain ⟨values, symbols, hvalues, hsymbols, hok⟩ := (tableOf_eq_ok_iff package files t).1 h
  have hp := expands_of_acyclic (resolves_of_tableOf h).acyclic
  obtain ⟨values', hvalues'⟩ := Option.isSome_iff_exists.1 (hp.perm hunits honce).values
  obtain ⟨twins, symbols', htwins, hperm', hsymbols'⟩ :=
    exists_twins hunits honce hp hvalues hvalues' hsymbols
  obtain ⟨hpackage, hheld⟩ := (SymbolTable.ofSymbols_eq_ok_iff package symbols t).1 hok
  have hvisible := forall₂_filter htwins (fun _ _ h => h.visible) fun _ _ h => h.sameSymbol
  obtain ⟨held, hheld', hsame⟩ :=
    exists_perm_forall₂ hheld.symm (hperm'.filter (·.visible)) hvisible
  have hascending : Ascending held := by
    rw [ascending_iff, ← SameSymbol.names hsame, ← ascending_iff]
    exact t.ascending
  refine ⟨⟨package, held, hascending⟩, ?_, hpackage, hsame⟩
  rw [tableOf_eq_ok_iff]
  exact ⟨values', symbols', hvalues', hsymbols', (SymbolTable.ofSymbols_eq_ok_iff _ _ _).2 ⟨rfl, hheld'⟩⟩

/-! ## Loading -/

/-- The files of the sources that take part in a build. -/
def filesOf (target : Build.Target) (sources : List SourceFile) : List File :=
  sources.filterMap fun s => (fileOf target s).toOption.join

/-- The same surface, but for the types of deep values. -/
def SameSurface (p : Package) : Option SymbolTable → Option SymbolTable → Prop
  | none, none => True
  | some t, some t' => SameTable p t t'
  | _, _ => False

theorem mapM_fileOf {target : Build.Target} {sources : List SourceFile}
    (h : ∀ s ∈ sources, (fileOf target s).isOk) :
    ∃ files, sources.mapM (fileOf target) = .ok files ∧ files.filterMap id = filesOf target sources := by
  induction sources with
  | nil => exact ⟨[], rfl, rfl⟩
  | cons s rest ih =>
    obtain ⟨files, hfiles, heq⟩ := ih fun s' hs' => h s' (by simp [hs'])
    have hs := h s (by simp)
    unfold filesOf at heq ⊢
    rw [List.mapM_cons, List.filterMap_cons]
    cases hfile : fileOf target s with
    | error cause =>
      rw [hfile] at hs
      cases hs
    | ok file? =>
      rw [hfiles]
      refine ⟨file? :: files, rfl, ?_⟩
      rw [List.filterMap_cons, heq]
      rfl

theorem isOk_of_mapM {target : Build.Target} {sources : List SourceFile} {files : List (Option File)}
    (h : sources.mapM (fileOf target) = .ok files) : ∀ s ∈ sources, (fileOf target s).isOk := by
  induction sources generalizing files with
  | nil => simp
  | cons s rest ih =>
    rw [List.mapM_cons] at h
    cases hfile : fileOf target s with
    | error cause =>
      rw [hfile] at h
      cases h
    | ok file? =>
      cases hrest : rest.mapM (fileOf target) with
      | error cause =>
        rw [hfile, hrest] at h
        cases h
      | ok files' =>
        rintro s' hs'
        rcases List.mem_cons.1 hs' with rfl | hs'
        · rw [hfile]
          rfl
        · exact ih hrest s' hs'

/-- Loading succeeds if every source can be read and the files that take part, if any, have a table. -/
theorem load_eq_ok_iff (target : Build.Target) (package : String) (sources : List SourceFile)
    (result : Option SymbolTable) :
    load target package sources = .ok result ↔
      (∀ s ∈ sources, (fileOf target s).isOk) ∧
        ((filesOf target sources = [] ∧ result = none) ∨
          (filesOf target sources ≠ [] ∧
            ∃ t, tableOf package (filesOf target sources) = .ok t ∧ result = some t)) := by
  unfold load
  by_cases hok : ∀ s ∈ sources, (fileOf target s).isOk
  · obtain ⟨files, hfiles, heq⟩ := mapM_fileOf hok
    rw [hfiles]
    dsimp only
    rw [heq]
    rw [and_iff_right hok]
    cases hlist : filesOf target sources with
    | nil => simpa using eq_comm
    | cons file rest =>
      dsimp only
      cases htable : tableOf package (file :: rest) with
      | error cause => simp
      | ok t => simpa using eq_comm
  · simp only [hok, false_and, iff_false]
    cases hfiles : sources.mapM (fileOf target) with
    | error cause => simp
    | ok files => exact absurd (isOk_of_mapM hfiles) hok

theorem filesOf_eq (target : Build.Target) (sources : List SourceFile) :
    filesOf target sources = (sources.map (fileOf target)).filterMap (·.toOption.join) := by
  rw [List.filterMap_map]
  rfl

/-- Files in another order, or under other names that let the same ones take part, give the same
surface.  The rounds over initializers reach deep values in some orders only: without such values the
surfaces are equal, and no others are ever reported. -/
theorem load_perm (target : Build.Target) (package : String) {sources sources' : List SourceFile}
    (hperm : (sources.map (fileOf target)).Perm (sources'.map (fileOf target)))
    (honce : (Package.ofFiles (filesOf target sources)).DeclaredOnce) {result : Option SymbolTable}
    (h : load target package sources = .ok result) :
    ∃ result', load target package sources' = .ok result' ∧
      SameSurface (.ofFiles (filesOf target sources)) result result' ∧
      ((∀ name, ¬ (Package.ofFiles (filesOf target sources)).Deep name) → result' = result) ∧
      ∀ policy changes, classifyPackage policy package result result' = some changes →
        ∀ c ∈ changes.changes, (Package.ofFiles (filesOf target sources)).Deep c.symbol := by
  have hfiles : (filesOf target sources).Perm (filesOf target sources') := by
    rw [filesOf_eq, filesOf_eq]
    exact hperm.filterMap _
  obtain ⟨hok, hcase⟩ := (load_eq_ok_iff target package sources result).1 h
  have hok' : ∀ s ∈ sources', (fileOf target s).isOk := by
    intro s hs
    obtain ⟨s₀, hs₀, heq⟩ := List.mem_map.1 (hperm.mem_iff.2 (List.mem_map_of_mem hs))
    rw [← heq]
    exact hok s₀ hs₀
  rcases hcase with ⟨hempty, rfl⟩ | ⟨hne, t, ht, rfl⟩
  · rw [hempty] at hfiles
    refine ⟨none, ?_, trivial, fun _ => rfl, fun policy changes hnone => ?_⟩
    · rw [load_eq_ok_iff]
      exact ⟨hok', Or.inl ⟨hfiles.nil_eq.symm, rfl⟩⟩
    · cases hnone
  · obtain ⟨t', ht', hsame⟩ := tableOf_perm hfiles honce ht
    have hne' : filesOf target sources' ≠ [] := fun hempty => hne (hempty ▸ hfiles).eq_nil
    refine ⟨some t', ?_, hsame, fun hdeep => ?_, fun policy changes hsome c hc => ?_⟩
    · rw [load_eq_ok_iff]
      exact ⟨hok', Or.inr ⟨hne', t', ht', rfl⟩⟩
    · rw [hsame.eq hdeep]
    · cases hsome
      exact hsame.deep_of_mem_classify hc

instance (p : Package) (name : String) : Decidable (p.Counts name) :=
  inferInstanceAs (Decidable (_ ∨ _ ∨ _))

instance (p : Package) : Decidable p.DeclaredOnce :=
  decidable_of_iff (∀ name ∈ p.declaredNames, p.Counts name → p.declaredNames.count name ≤ 1) (by
    refine ⟨fun h name hn => ?_, fun h name _ hn => h name hn⟩
    by_cases hmem : name ∈ p.declaredNames
    · exact h name hmem hn
    · rw [List.count_eq_zero_of_not_mem hmem]
      exact Nat.zero_le 1)

/-- A file with a type and a variable whose initializer stands elsewhere. -/
def usingFile : SourceFile := ⟨"a.go", "package p\ntype T struct \x7b X int \x7d\nvar A = B\n"⟩

/-- The file with the initializer, and with blank variables. -/
def definingFile : SourceFile := ⟨"b.go", "package p\nvar B = 1\nvar _, _ = 2, 3\n"⟩

/-- Two files, swapped and one of them renamed. -/
theorem load_perm_swapped : ∃ result result',
    load {} "./pkg" [usingFile, definingFile] = .ok result ∧
    load {} "./pkg" [⟨"z.go", definingFile.source⟩, usingFile] = .ok result' ∧
    SameSurface (.ofFiles (filesOf {} [usingFile, definingFile])) result result' := by
  have hok : (load {} "./pkg" [usingFile, definingFile]).isOk = true := by decide +kernel
  have hperm : ([usingFile, definingFile].map (fileOf {})).Perm
      ([⟨"z.go", definingFile.source⟩, usingFile].map (fileOf {})) := List.Perm.swap _ _ _
  cases h : load {} "./pkg" [usingFile, definingFile] with
  | error cause =>
    rw [h] at hok
    cases hok
  | ok result =>
    obtain ⟨result', hload, hsame, _⟩ := load_perm {} "./pkg" hperm (by decide +kernel) h
    exact ⟨result, result', rfl, hload, hsame⟩

/-- The messages about two orders of files. -/
def reorderingMessages (sources sources' : List SourceFile) : Option (List String) :=
  match load {} "./pkg" sources, load {} "./pkg" sources' with
  | .ok (some t), .ok (some t') => some ((classify {} t t').map (·.message))
  | _, _ => none

/-- Five variables in a row, each with the next one as its initializer. -/
def chain : SourceFile :=
  ⟨"a.go", "package p\nvar A = B\nvar B = C\nvar C = D\nvar D = E\nvar E = F\n"⟩

/-- The end of the row. -/
def chainEnd : SourceFile := ⟨"b.go", "package p\nvar F = 1\n"⟩

/-- Names are declared once here, but the rounds do not get to the first variable of the row if its file
comes first. -/
theorem chain_reordered :
    (Package.ofFiles (filesOf {} [chain, chainEnd])).declaredNames.Nodup ∧
      reorderingMessages [chain, chainEnd] [chainEnd, chain] =
        some ["A: changed from unknown to untyped int"] := by
  decide +kernel

/-- A blank variable that is referred to has to be declared once as well. -/
example :
    reorderingMessages [⟨"a.go", "package p\nvar _ = 1\nvar A = _"⟩, ⟨"b.go", "package p\nvar _ = true\n"⟩]
      [⟨"b.go", "package p\nvar _ = true\n"⟩, ⟨"a.go", "package p\nvar _ = 1\nvar A = _"⟩] =
        some ["A: changed from untyped bool to untyped int"] := by
  decide +kernel

end GoApi.Surface
