import GoApi.Proofs.Source.Exprs

/-!
# Declarations as they are read

The declarations of a source have roots (`ofSource_rooted`): the results of its functions, and the types
and initializers of its constants and variables, are such as tokens can give.  This holds of every
source, since what cannot be read is left out.
-/

namespace GoApi.Source

open Text.Reading Reader

/-- The type and the initializers of a line have roots. -/
structure ValueSpec.Rooted (spec : ValueSpec) : Prop where
  type : ∀ type ∈ spec.type?, type.Rooted
  values : ∀ e ∈ spec.values, e.Rooted

/-- What the types of functions, constants and variables depend on has roots. -/
def Decl.Rooted : Decl → Prop
  | .func _ sig => RootedResults sig
  | .consts specs => ∀ spec ∈ specs, spec.Rooted
  | .vars specs => ∀ spec ∈ specs, spec.Rooted
  | _ => True

/-- The declaration of an item has roots. -/
def Item.Rooted (item : Item) : Prop := ∀ d ∈ item.decl?, d.Rooted

section Groups

variable {α : Type} {n : Nat} {good : α → Prop} {p : Reader α}

theorem reads_readLine (hp : Reads n good p) : Reads n (fun x => good x.1) (readLine p) := by
  refine hp.bind fun x hx => Gives.peek.bind fun t? _ => ?_
  cases t? with
  | none => exact .pure hx
  | some t => exact reads_terminator.bind fun _ _ => .pure hx

theorem reads_readGroup (hp : Reads 1 good p) : Reads 1 (fun xs => ∀ x ∈ xs.1, good x) (readGroup p) := by
  refine .orElse ?_ ?_
  · refine (reads_mark "(").bind fun _ _ => ?_
    refine (reads_readLine hp).many.bind fun lines hlines => ?_
    refine (reads_mark ")").loose.bind fun _ _ => .pure ?_
    intro x hx
    obtain ⟨line, hline, rfl⟩ := List.mem_map.1 hx
    exact hlines line hline
  · exact hp.bind fun x hx => .pure (by simpa using hx)

end Groups

theorem reads_readImport : Reads 1 (fun _ => True) readImport := by
  have hname : Reads 1 (fun _ => True) (word <|> do mark "."; return ".") :=
    .orElse (reads_word.weaken (Nat.le_refl 1) fun _ _ => trivial)
      ((reads_mark ".").bind fun _ _ => .pure trivial)
  refine hname.maybe.after fun _ _ => ?_
  exact (Gives.take _).bind fun _ _ => .pure trivial

section

variable {inner : Inner} (hinner : inner.Sound)

include hinner

theorem reads_readTypeDecl : Reads 1 (fun d => isWordText d.name = true) (readTypeDecl inner) := by
  refine reads_word.bind fun name hname => .orElse ?_ ?_
  · refine (Gives.check _).bind fun _ _ => ?_
    refine (hinner.type .lines).loose.bind fun _ _ => ?_
    exact reads_ending.bind fun _ _ => .pure hname
  · refine (reads_readBinders hinner).maybe.bind fun _ _ => ?_
    refine (reads_mark "=").took.bind fun _ _ => ?_
    exact (hinner.type .lines).loose.bind fun _ _ => .pure hname

theorem reads_readValueSpec :
    Reads 1 (fun spec => (∀ name ∈ spec.names, isWordText name = true) ∧ spec.Rooted)
      (readValueSpec inner) := by
  have htype : Reads 1 TypeExpr.Rooted (do joined .lines; inner.type .lines) :=
    (reads_joined .lines).after fun _ _ => hinner.type .lines
  have hvalues : Reads 1 (fun values => ∀ e ∈ values, e.Rooted) (do
      joinedMark .lines "="
      commas .lines (inner.expr .lines)) :=
    (reads_joinedMark .lines "=").bind fun _ _ => (reads_commas .lines (hinner.expr .lines)).loose
  refine (reads_commas .lines reads_word).bind fun names hnames => ?_
  refine htype.maybe.bind fun type? htype => ?_
  refine hvalues.maybe.bind fun values? hvalues => .pure ⟨hnames, htype, ?_⟩
  cases values? with
  | none => simp
  | some values => exact hvalues values rfl

/-- A function or method is `good` if that follows for its parts; a receiver is that of some type. -/
theorem reads_readFunc {good : Decl → Prop} {goodType : TypeExpr → Prop}
    (htype : Reads 1 goodType (inner.type .free)) (hslice : ∀ type, goodType (.slice type))
    (func : ∀ name sig, isWordText name = true → RootedResults sig → good (.func name sig))
    (method : ∀ receiver? name sig, isWordText name = true →
      (∀ r ∈ receiver?, ∃ type, goodType type ∧ receiverOf type = some r) →
      good (.method receiver? name sig)) :
    Reads 1 good (readFunc inner) := by
  have hbody : Reads 1 (fun _ => True) (do joined .lines; block) :=
    (reads_joined .lines).after fun _ _ => reads_block
  have hmethod : Reads 1 good (readFunc.method inner) := by
    refine (reads_readEntries htype hslice).bind fun entries hentries => ?_
    refine reads_word.loose.bind fun name hname => ?_
    refine (reads_readSignature hinner .lines).loose.bind fun sig _ => .pure ?_
    refine method _ name sig hname fun r hr => ?_
    obtain ⟨param, hparam, hr⟩ := Option.bind_eq_some_iff.1 hr
    obtain ⟨entry, hentry, hmem⟩ := List.mem_flatMap.1 (List.mem_of_head? hparam)
    exact ⟨param.type, hentries entry (List.mem_filter.1 hentry).1 param hmem, hr⟩
  have hfunction : Reads 1 good (readFunc.function inner) := by
    refine reads_word.bind fun name hname => ?_
    refine (reads_readBinders hinner).maybe.bind fun _ _ => ?_
    exact (reads_readSignature hinner .lines).loose.bind fun sig hsig => .pure (func name _ hname hsig)
  refine (hmethod.orElse hfunction).bind fun decl hdecl => ?_
  exact hbody.maybe.bind fun _ _ => .pure hdecl

omit hinner in
/-- A declaration is `good` if its parts are. -/
theorem reads_readDecl {good : Decl → Prop} {goodType : TypeDecl → Prop} {goodSpec : ValueSpec → Prop}
    (hfunc : Reads 1 good (readFunc inner)) (htype : Reads 1 goodType (readTypeDecl inner))
    (hspec : Reads 1 goodSpec (readValueSpec inner)) (imports : ∀ list, good (.imports list))
    (types : ∀ list, (∀ d ∈ list, goodType d) → good (.types list))
    (consts : ∀ specs, (∀ spec ∈ specs, goodSpec spec) → good (.consts specs))
    (vars : ∀ specs, (∀ spec ∈ specs, goodSpec spec) → good (.vars specs)) :
    Reads 1 (fun x => ∀ d ∈ x.1.decl?, good d) (readDecl inner) := by
  have hitem : ∀ d : Decl, good d → ∀ d' ∈ (Item.decl d).decl?, good d' := by
    intro d hd d' hd'
    cases hd'
    exact hd
  refine (Gives.take _).bind fun t _ => ?_
  dsimp only
  split
  · refine reads_word.loose.bind fun name _ => .pure ?_
    simp [Item.decl?]
  · exact (reads_readGroup reads_readImport).loose.bind fun _ _ => .pure (hitem _ (imports _))
  · exact hfunc.loose.bind fun d hd => .pure (hitem d hd)
  · refine (reads_readGroup htype).loose.bind fun list hlist => ?_
    exact .pure (hitem _ (types list.1 hlist))
  · refine (reads_readGroup hspec).loose.bind fun specs hspecs => ?_
    exact .pure (hitem _ (consts specs.1 hspecs))
  · refine (reads_readGroup hspec).loose.bind fun specs hspecs => ?_
    exact .pure (hitem _ (vars specs.1 hspecs))
  · exact .fail

theorem rooted_readDecl : Reads 1 (fun x => x.1.Rooted) (readDecl inner) := by
  have hfunc : Reads 1 Decl.Rooted (readFunc inner) :=
    reads_readFunc hinner (hinner.type .free) (fun _ => trivial) (fun _ _ _ hsig => hsig)
      fun _ _ _ _ _ => trivial
  exact reads_readDecl hfunc (reads_readTypeDecl hinner) (reads_readValueSpec hinner) (fun _ => trivial)
    (fun _ _ => trivial) (fun _ hspecs spec hspec => (hspecs spec hspec).2)
    fun _ hspecs spec hspec => (hspecs spec hspec).2

omit hinner in
theorem reads_skipLine (fuel : Nat) : Reads 0 (fun _ => True) (skipLine fuel) := by
  induction fuel with
  | zero => exact .pure trivial
  | succ fuel ih =>
    refine reads_atEnd.bind fun atEnd _ => ?_
    cases atEnd with
    | true => exact .pure trivial
    | false =>
      have htoken : Reads 1 (fun _ => True) (do let _ ← take fun _ => true) :=
        (Gives.take _).bind fun _ _ => .pure trivial
      exact (reads_block.orElse htoken).loose.bind fun _ _ => ih

/-- A statement declares nothing. -/
theorem reads_readStatement : Reads 0 (fun x => x.1.decl? = none) (readStatement inner) := by
  have hexprs := (reads_commas .lines (hinner.expr .lines)).loose
  have hskipped : Reads 0 (fun _ => True) (readStatement.skipped) := by
    have hword : Reads 1 (fun _ => True) (do
        let _ ← take fun t => t.kind == .word && statementWords.contains t.text) :=
      (Gives.take _).bind fun _ _ => .pure trivial
    refine (reads_block.orElse hword).loose.bind fun _ _ => ?_
    exact .depending reads_skipLine List.length
  have hsimple : Reads 0 (fun _ => True) (readStatement.simple inner) := by
    have hassigned : Reads 1 (fun _ => True) (do
        joined .lines
        let t ← take (·.kind == .mark)
        if t.text == "++" || t.text == "--" then return
        unless assignments.contains t.text do failure
        let _ ← commas .lines (inner.expr .lines)) := by
      refine (reads_joined .lines).after fun _ _ => (Gives.take _).bind fun t _ => ?_
      split
      · exact .pure trivial
      · dsimp only
        split
        · exact hexprs.bind fun _ _ => .pure trivial
        · exact .fail
    refine (Gives.check _).bind fun _ _ => hexprs.bind fun _ _ => ?_
    exact hassigned.maybe.bind fun _ _ => .pure trivial
  exact (hskipped.orElse hsimple).bind fun _ _ => .pure rfl

/-- The declarations among the items of a file are `good` if all that can be read are. -/
theorem readItems_all {good : Decl → Prop}
    (hdecl : Reads 1 (fun x => ∀ d ∈ x.1.decl?, good d) (readDecl inner)) (fuel : Nat) {ts : List Token}
    (hok : ∀ t ∈ ts, t.Sound) :
    ∀ x ∈ readItems inner fuel ts, ∀ item ∈ x.1, ∀ d ∈ item.decl?, good d := by
  have hstatement : Reads 0 (fun x => ∀ d ∈ x.1.decl?, good d) (readStatement inner) :=
    (reads_readStatement hinner).weaken (Nat.le_refl 0) fun x hx => by simp [hx]
  have hread := hdecl.loose.orElse hstatement
  induction fuel generalizing ts with
  | zero => simp [readItems]
  | succ fuel ih =>
    cases ts with
    | nil => simp [readItems]
    | cons t rest =>
      have hrest : ∀ u ∈ rest, u.Sound := fun u hu => hok u (List.mem_cons_of_mem t hu)
      unfold readItems
      split
      · exact ih hrest
      · split
        · next item wellFormed after heq =>
          refine List.forall_mem_cons.2 ⟨?_, ih (hread.rest_ok hok heq)⟩
          rintro _ ⟨⟩
          exact (hread hok heq).1
        · refine List.forall_mem_cons.2 ⟨by simp, ih fun u hu => ?_⟩
          exact hrest u ((List.dropWhile_sublist _).subset hu)

end

/-- What holds of every declaration that can be read holds of those of a source. -/
theorem ofSource_all {good : Decl → Prop}
    (hdecl : ∀ depth, Reads 1 (fun x => ∀ d ∈ x.1.decl?, good d) (readDecl (innerReaders depth)))
    (source : String) : ∀ d ∈ (File.ofSource source).decls, good d := by
  intro d hd
  obtain ⟨x, hx, hread⟩ := List.mem_filterMap.1 hd
  obtain ⟨item, hitem, hd⟩ := Option.bind_eq_some_iff.1 hread
  exact readItems_all (innerReaders_sound _) (hdecl _) _ (kept_sound source) x hx item hitem d hd

/-- The declarations of a source have roots. -/
theorem ofSource_rooted (source : String) : ∀ d ∈ (File.ofSource source).decls, d.Rooted :=
  ofSource_all (fun depth => rooted_readDecl (innerReaders_sound depth)) source

end GoApi.Source
