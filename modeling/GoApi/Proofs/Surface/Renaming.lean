import GoApi.Proofs.Surface.RenamedPackage

/-!
# Renaming type parameters is invisible

Two versions of a package that differ in the names of type parameters load alike: both fail for the same
cause, or their tables have the same symbols with identical types, and nothing is reported between them
(`renaming_unseen`).

What is asked for is that no interface literal of a renamed declaration is disturbed.  A literal compares its
elements by their text, and there a type parameter looks like a type of the package.  So a parameter that
hides a type is taken for it where an embedded interface mentions that type, and renaming the parameter is a
change (`renaming_seen`).
-/

namespace GoApi.Surface

open Source

/-! ## Tables -/

/-- Two tables of one package whose symbols have identical types. -/
structure TableKept (t t' : SymbolTable) : Prop where
  package : t.package = t'.package
  symbols : List.Forall₂ SymbolKept t.symbols t'.symbols

/-- The same failure, or related results. -/
def SameResult {ε α : Type} (R : α → α → Prop) : Except ε α → Except ε α → Prop
  | .error e, .error e' => e = e'
  | .ok a, .ok a' => R a a'
  | _, _ => False

theorem SymbolKept.visible {s s' : Symbol} (h : SymbolKept s s') : s.visible = s'.visible := by
  unfold Symbol.visible Symbol.identifier
  rw [h.name, h.kind, h.receiver]

theorem insertByName_kept {s s' : Symbol} (h : SymbolKept s s') {ts ts' : List Symbol}
    (hts : List.Forall₂ SymbolKept ts ts') :
    List.Forall₂ SymbolKept (insertByName s ts) (insertByName s' ts') := by
  induction hts with
  | nil => exact .cons h .nil
  | @cons t t' ts ts' ht hts ih =>
    rw [insertByName, insertByName, ht.name, h.name]
    split
    · exact .cons ht ih
    · exact .cons h (.cons ht hts)

theorem insertAll_kept {ss ss' : List Symbol} (h : List.Forall₂ SymbolKept ss ss') {t t' : SymbolTable}
    (ht : TableKept t t') : SameResult TableKept (t.insertAll ss) (t'.insertAll ss') := by
  induction h generalizing t t' with
  | nil => exact ht
  | @cons s s' ss ss' hs _ ih =>
    have hcontains : t.contains s.name = t'.contains s'.name :=
      any_eq_of_forall₂ ht.symbols fun u u' hu => by rw [hu.name, hs.name]
    rw [SymbolTable.insertAll, SymbolTable.insertAll, SymbolTable.insert, SymbolTable.insert]
    by_cases hv : s.visible = true
    · rw [if_pos hv, if_pos (hs.visible ▸ hv)]
      by_cases hc : t.contains s.name = true
      · rw [dif_pos hc, dif_pos (hcontains ▸ hc)]
        exact congrArg₂ SymbolTable.Duplicate.mk ht.package hs.name
      · rw [dif_neg hc, dif_neg (hcontains ▸ hc)]
        exact ih ⟨ht.package, insertByName_kept hs ht.symbols⟩
    · rw [if_neg hv, if_neg (hs.visible ▸ hv)]
      exact ih ht

theorem takeWhile_isSome_renamed {symbols symbols' : List (Option Symbol)}
    (h : List.Forall₂ (Option.Rel SymbolKept) symbols symbols') :
    List.Forall₂ SymbolKept (symbols.takeWhile (·.isSome)).reduceOption
      (symbols'.takeWhile (·.isSome)).reduceOption ∧
    symbols.all (·.isSome) = symbols'.all (·.isSome) := by
  induction h with
  | nil => exact ⟨.nil, rfl⟩
  | cons hs _ ih =>
    cases hs with
    | none => exact ⟨.nil, rfl⟩
    | some hs =>
      refine ⟨?_, ?_⟩
      · rw [List.takeWhile_cons_of_pos rfl, List.takeWhile_cons_of_pos rfl, List.reduceOption_cons_of_some,
          List.reduceOption_cons_of_some]
        exact .cons hs ih.1
      · rw [List.all_cons, List.all_cons, ih.2]
        rfl

/-- Renamed type parameters leave the table of a package as it is. -/
theorem tableOf_renamed (package : String) {files files' : List File}
    (h : List.Forall₂ (RenamedFile (Undisturbed (.ofFiles files))) files files') :
    SameResult TableKept (tableOf package files) (tableOf package files') := by
  have hdecls := decls_renamed h
  unfold tableOf
  dsimp only
  rw [← values_renamed hdecls]
  cases (Package.ofFiles files).values with
  | none => rfl
  | some values =>
    obtain ⟨hkept, hall⟩ := takeWhile_isSome_renamed (symbols_renamed (outermost_ofFiles files) hdecls values)
    have hempty : TableKept { package } { package } := ⟨rfl, .nil⟩
    have htable := insertAll_kept hkept hempty
    dsimp only
    rw [← hall, SymbolTable.ofSymbols, SymbolTable.ofSymbols]
    generalize SymbolTable.insertAll _ _ = r at htable ⊢
    generalize SymbolTable.insertAll _ _ = r' at htable ⊢
    cases r <;> cases r'
    · exact congrArg PackageError.table htable
    · exact (htable : False).elim
    · exact (htable : False).elim
    · dsimp only
      split
      · exact htable
      · rfl

/-! ## Loading -/

theorem load_of_isOk {target : Build.Target} {sources : List SourceFile}
    (h : ∀ s ∈ sources, (fileOf target s).isOk) (package : String) :
    load target package sources =
      if filesOf target sources = [] then .ok none else (tableOf package (filesOf target sources)).map some := by
  obtain ⟨files, hfiles, heq⟩ := mapM_fileOf h
  unfold load
  rw [hfiles]
  dsimp only
  rw [heq]
  cases filesOf target sources with
  | nil => rfl
  | cons file rest =>
    rw [if_neg (by simp)]
    dsimp only
    cases tableOf package (file :: rest) <;> rfl

/-- Nothing is reported between tables with identical types. -/
theorem TableKept.classify_eq_nil {t t' : SymbolTable} (h : TableKept t t') (policy : Policy) :
    classify policy t t' = [] := by
  rw [List.eq_nil_iff_forall_not_mem]
  intro c hc
  rw [mem_classify] at hc
  have hget : Option.Rel SymbolKept (t.get? c.symbol) (t'.get? c.symbol) :=
    rel_find? h.symbols fun s s' hs => by rw [hs.name]
  generalize t.get? c.symbol = s?, t'.get? c.symbol = s?' at hget hc
  cases hget with
  | none => cases hc
  | @some s s' hs =>
    rw [classifySymbol] at hc
    rcases changeOf_cases policy c.symbol s s' with ⟨_, hnone⟩ | ⟨hnot, _⟩
    · rw [hnone] at hc
      cases hc
    · refine hnot ⟨hs.kind, ?_⟩
      cases s.kind
      case const | var => exact hs.type
      all_goals exact .identical hs.type

/-- Renaming the type parameters of generic functions, receivers and generic types leaves a package as it is:
every symbol keeps its key and has an identical type, and a comparison reports nothing. -/
theorem renaming_unseen (target : Build.Target) (package : String) {sources sources' : List SourceFile}
    (hok : ∀ s ∈ sources, (fileOf target s).isOk) (hok' : ∀ s ∈ sources', (fileOf target s).isOk)
    (h : List.Forall₂ (RenamedFile (Undisturbed (.ofFiles (filesOf target sources))))
      (filesOf target sources) (filesOf target sources')) :
    SameResult (Option.Rel fun t t' => List.Forall₂ SymbolKept t.symbols t'.symbols ∧
        ∀ policy, classify policy t t' = [])
      (load target package sources) (load target package sources') := by
  rw [load_of_isOk hok, load_of_isOk hok']
  have htable := tableOf_renamed package h
  have hempty : filesOf target sources = [] ↔ filesOf target sources' = [] := by
    rw [← List.length_eq_zero_iff, ← List.length_eq_zero_iff, h.length_eq]
  by_cases hnil : filesOf target sources = []
  · rw [if_pos hnil, if_pos (hempty.1 hnil)]
    exact .none
  · rw [if_neg hnil, if_neg fun hnil' => hnil (hempty.2 hnil')]
    generalize tableOf package (filesOf target sources) = r, tableOf package (filesOf target sources') = r' at htable ⊢
    cases r <;> cases r'
    · exact htable
    · exact htable
    · exact htable
    · exact .some ⟨htable.symbols, htable.classify_eq_nil⟩

/-- A generic type with a method, and a generic function with a literal that embeds an interface. -/
def genericSource (k t s : String) : SourceFile :=
  ⟨"p.go", "package p\ntype I interface \x7b comparable \x7d\ntype P[" ++ k ++ " any] struct \x7b Key " ++ k ++
    " \x7d\nfunc (P[" ++ k ++ "]) M(" ++ k ++ ")\nfunc F[" ++ t ++ " any, " ++ s ++ " interface \x7b ~[]" ++ t ++
    "; I \x7d](" ++ s ++ ") P[" ++ t ++ "]\n"⟩

/-- What is read of it. -/
def genericRead (k t s : String) : File where
  package? := some "p"
  decls :=
    [.types [{ name := "I", body := .interface [.terms [.name "comparable"]] }],
      .types [{ name := "P", binders := [⟨k, .terms [.name "any"]⟩], body := .struct [⟨some "Key", .name k⟩] }],
      .method (some ⟨"P", [k]⟩) "M" { params := [⟨"", .name k⟩] },
      .func "F" { binders := [⟨t, .terms [.name "any"]⟩,
                    ⟨s, .terms [.interface [.terms [.tilde (.slice (.name t))], .terms [.name "I"]]]⟩],
                  params := [⟨"", .name s⟩], results := [⟨"", .generic (.name "P") [⟨t, [.name t]⟩]⟩] }]

/-- The names that stand in a file with the declarations of `genericRead`. -/
def genericNames? : File → Option (List String)
  | ⟨some p,
      [.types [⟨i, [], false, .interface [.terms [.name c]]⟩],
        .types [⟨n, [⟨k, .terms [.name a]⟩], false, .struct [⟨some key, .name k'⟩]⟩],
        .method (some ⟨r, [k₁]⟩) m ⟨[], [], [⟨x, .name k₂⟩], [], false⟩,
        .func f ⟨[⟨t, .terms [.name b]⟩,
          ⟨s, .terms [.interface [.terms [.tilde (.slice (.name t₁))], .terms [.name j]]]⟩], [],
          [⟨y, .name s₁⟩], [⟨z, .generic (.name q) [⟨text, [.name t₂]⟩]⟩], false⟩],
      none⟩ =>
    some [p, i, c, n, k, a, key, k', r, k₁, m, x, k₂, f, t, b, s, t₁, j, y, s₁, z, q, text, t₂]
  | _ => none

/-- Those of `genericRead` itself. -/
def genericNames (k t s : String) : List String :=
  ["p", "I", "comparable", "P", k, "any", "Key", k, "P", k, "M", "", k, "F", t, "any", s, t, "I", "", s, "", "P", t, t]

theorem eq_genericRead {file : File} {k t s : String} (h : genericNames? file = some (genericNames k t s)) :
    file = genericRead k t s := by
  unfold genericNames? genericNames at h
  split at h
  · simp only [Option.some.injEq, List.cons.injEq, and_true] at h
    obtain ⟨rfl, rfl, rfl, rfl, rfl, rfl, rfl, rfl, rfl, rfl, rfl, rfl, rfl, rfl, rfl, rfl, rfl, rfl, rfl, rfl, rfl,
      rfl, rfl, rfl, rfl⟩ := h
    rfl
  · cases h

theorem fileOf_genericSource {k t s : String}
    (hadmits : Build.Target.admits {} (genericSource k t s).name (genericSource k t s).source = true)
    (hnames : genericNames? (File.ofSource (genericSource k t s).source) = some (genericNames k t s)) :
    fileOf {} (genericSource k t s) = .ok (some (genericRead k t s)) := by
  have hname : isGoSource (genericSource k t s).name = true := by
    rw [show (genericSource k t s).name = "p.go" from rfl]
    decide +kernel
  unfold fileOf
  rw [if_neg (by simpa [hname] using hadmits), eq_genericRead hnames]
  dsimp only [genericRead]
  rw [if_neg (by decide), if_neg (by simp [importsC, importsOf])]

theorem fileOf_generic :
    fileOf {} (genericSource "K" "T" "S") = .ok (some (genericRead "K" "T" "S")) ∧
      fileOf {} (genericSource "A" "U" "L") = .ok (some (genericRead "A" "U" "L")) :=
  ⟨fileOf_genericSource (by decide +kernel) (by decide +kernel),
    fileOf_genericSource (by decide +kernel) (by decide +kernel)⟩

theorem renamedFile_generic : RenamedFile (Undisturbed (.ofFiles [genericRead "K" "T" "S"]))
    (genericRead "K" "T" "S") (genericRead "A" "U" "L") := by
  refine .cons (.same _) (.cons (.types (.cons (.inr ?_) .nil)) (.cons (.method rfl rfl ?_)
    (.cons (.func (by simp) ?_ ?_) .nil)))
  · refine ⟨by simp, rfl, rfl, .cons ?_ .nil, ?_⟩
    · simp only [RenamedUnder, RenamedType, RenamedTerms]
      decide
    · simp only [RenamedUnder, RenamedType, RenamedFields, reduceCtorEq, false_implies]
      decide
  · simp only [RenamedUnder, RenamedType, RenamedSignature, RenamedParams]
    decide
  · refine .cons ?_ (.cons ?_ .nil)
    · simp only [RenamedUnder, RenamedType, RenamedTerms]
      decide
    · simp only [RenamedUnder, RenamedType, RenamedTerms, RenamedElements]
      -- `~[]T` and the element of `I` differ, and so do `~[]U` and the element of `I`
      refine ⟨⟨by decide, .inl ?_⟩, trivial⟩
      unfold SameCoincidences
      decide +kernel
  · simp only [RenamedUnder, RenamedType, RenamedSignature, RenamedParams, RenamedArgs, RenamedTerms]
    decide

/-- A type, its method and a function get new parameters. -/
theorem renaming_unseen_generic : ∃ t t',
    load {} "./p" [genericSource "K" "T" "S"] = .ok (some t) ∧
    load {} "./p" [genericSource "A" "U" "L"] = .ok (some t') ∧
    t.names = ["F", "I", "P", "P.M"] ∧ List.Forall₂ SymbolKept t.symbols t'.symbols ∧
    ∀ policy, classify policy t t' = [] := by
  obtain ⟨hfile, hfile'⟩ := fileOf_generic
  generalize genericSource "K" "T" "S" = source, genericSource "A" "U" "L" = source' at hfile hfile' ⊢
  have hok : ∀ s ∈ [source], (fileOf {} s).isOk := by
    rw [List.forall_mem_singleton, hfile]
    rfl
  have hok' : ∀ s ∈ [source'], (fileOf {} s).isOk := by
    rw [List.forall_mem_singleton, hfile']
    rfl
  have hfiles : filesOf {} [source] = [genericRead "K" "T" "S"] := by
    rw [filesOf, List.filterMap_cons, hfile]
    rfl
  have hfiles' : filesOf {} [source'] = [genericRead "A" "U" "L"] := by
    rw [filesOf, List.filterMap_cons, hfile']
    rfl
  have h := renaming_unseen {} "./p" hok hok' (by
    rw [hfiles, hfiles']
    exact .cons renamedFile_generic .nil)
  have hnames : (load {} "./p" [source]).toOption.join.map (·.names) = some ["F", "I", "P", "P.M"] := by
    rw [load_of_isOk hok, hfiles, if_neg (by simp)]
    decide +kernel
  generalize load {} "./p" [source] = r, load {} "./p" [source'] = r' at h hnames ⊢
  cases r <;> cases r'
  · cases hnames
  · cases hnames
  · exact (h : False).elim
  · cases h with
    | none => cases hnames
    | @some t t' ht => exact ⟨t, t', rfl, rfl, Option.some.inj hnames, ht⟩

/-- In the constraint of `F` a type parameter stands beside the elements of `I`. -/
def shadowing (param : String) : File where
  package? := some "p"
  decls :=
    [.types [{ name := "T", body := .name "int" }],
      .types [{ name := "I", body := .interface [.terms [.slice (.name "T")]] }],
      .func "F" { binders := [⟨param, .terms [.name "any"]⟩,
                    ⟨"E", .terms [.interface [.terms [.slice (.name param)], .terms [.name "I"]]]⟩],
                  params := [⟨"e", .name "E"⟩] }]

def shadowingMessages : Option (List String) := do
  let before ← (tableOf "./p" [shadowing "T"]).toOption
  let after ← (tableOf "./p" [shadowing "U"]).toOption
  return (classify {} before after).map (·.message)

/-- A parameter that hides a type of the package is taken for it: `[]T` and the `[]T` of `I` are one element
until the parameter is called `U`. -/
theorem renaming_seen : RenamedFile (fun _ _ _ _ => True) (shadowing "T") (shadowing "U") ∧
    ((Package.ofFiles [shadowing "T"]).type? "U").isNone ∧ "U" ∉ predeclared ∧
    shadowingMessages = some ["F: changed from func[T interface\x7b\x7d, E interface\x7b[]T\x7d](E) to " ++
      "func[U interface\x7b\x7d, E interface\x7b[]T; []U\x7d](E)"] := by
  refine ⟨.cons (.same _) (.cons (.same _) (.cons (.func (by simp) (.cons ?_ (.cons ?_ .nil)) ?_) .nil)), by decide,
    by decide, by decide +kernel⟩
  · simp only [RenamedUnder, RenamedType, RenamedTerms]
    decide
  · simp only [RenamedUnder, RenamedType, RenamedTerms, RenamedElements]
    decide
  · simp only [RenamedUnder, RenamedType, RenamedSignature, RenamedParams]
    decide

end GoApi.Surface
