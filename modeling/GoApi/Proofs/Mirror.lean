import GoApi.Proofs.Classify
import GoApi.Proofs.Ty.Renaming
import GoApi.Surface.Load

/-!
# Classifying in the other direction

An unambiguous pair of declarations goes unnoticed in both directions or in neither
(`Ty.Unambiguous.unnoticed_comm`).  So what is reported between two tables is reported in the other direction
as well, with additions and removals exchanged, unless an ambiguous pair goes unnoticed in one direction only
(`detection_mirrored_iff`).

A pair is ambiguous in these cases only:

* a struct has two fields of one exported name, or an interface two methods of one name;
* the two sides have equally many type parameters, but not of the same names, and
  - a parameter has the name of a type that one of the two declarations mentions, or
  - one side is not `DeclShaped`: two of its parameters have one name, a name in it is no word, or a part
    stands where no type expression puts it, such as a union that is no constraint.
-/

namespace GoApi

/-! ## Unambiguous pairs -/

/-- An exported field is the only one of its name. -/
def FieldsNamedOnce (fs : List (Field Ty)) : Prop :=
  ∀ f ∈ exportedFields fs, ∀ g ∈ fs, g.name = f.name → g = f

/-- A method is the only one of its name. -/
def MethodsNamedOnce (body : Interface Ty) : Prop :=
  ∀ m ∈ body.methods, ∀ n ∈ body.methods, n.name = m.name → n = m

/-- A generic declaration: its type parameters are distinct words, its constraints and its body are built as
type expressions are, and the types that it mentions by a plain name satisfy `name`. -/
structure DeclShaped (name : String → Prop) (bs : List (Binder Ty)) (u : Ty) : Prop where
  distinct : (binderNames bs).Nodup
  words : ∀ n ∈ binderNames bs, isGoName n = true
  constraints : ∀ b ∈ bs, b.constraint.ConstraintShaped (· ∈ binderNames bs) name
  body : u.Nested (· ∈ binderNames bs) name

/-- No type parameter of two declarations has the name of a type that one of them mentions. -/
def ParamsApart (bs : List (Binder Ty)) (u : Ty) (bs' : List (Binder Ty)) (u' : Ty) : Prop :=
  DeclShaped (fun n => n ∉ binderNames bs ∧ n ∉ binderNames bs') bs u ∧
    DeclShaped (fun n => n ∉ binderNames bs ∧ n ∉ binderNames bs') bs' u'

/-- Nothing in the pair can be taken for something else: exported fields and methods have names of
their own, and type parameters have the same names on both sides or stay apart from all types. -/
def Ty.Unambiguous : Ty → Ty → Prop
  | .defined _ bs _ u, .defined _ bs' _ u' =>
    bs.length = bs'.length →
      (binderNames bs = binderNames bs' ∨ ParamsApart bs u bs' u') ∧ u.Unambiguous u'
  | .struct fs, .struct gs => FieldsNamedOnce fs ∧ FieldsNamedOnce gs
  | .interface a, .interface b => MethodsNamedOnce a ∧ MethodsNamedOnce b
  | _, _ => True

/-- The condition is the same from both sides: it names no old and no new type. -/
theorem ParamsApart.symm {bs bs' : List (Binder Ty)} {u u' : Ty} (h : ParamsApart bs u bs' u') :
    ParamsApart bs' u' bs u := by
  have hcomm : (fun n => n ∉ binderNames bs' ∧ n ∉ binderNames bs) =
      (fun n => n ∉ binderNames bs ∧ n ∉ binderNames bs') := by
    funext n
    exact propext and_comm
  unfold ParamsApart
  rw [hcomm]
  exact ⟨h.2, h.1⟩

theorem Ty.Unambiguous.symm {old new : Ty} (h : old.Unambiguous new) : new.Unambiguous old := by
  fun_induction Ty.Unambiguous old new with
  | case1 n bs a u n' bs' a' u' ih =>
    intro hlen
    obtain ⟨hnames, hbody⟩ := h hlen.symm
    exact ⟨hnames.imp Eq.symm ParamsApart.symm, ih hbody⟩
  | case2 fs gs => exact ⟨h.2, h.1⟩
  | case3 a b => exact ⟨h.2, h.1⟩
  | case4 old new hdefined hstruct hinterface =>
    unfold Ty.Unambiguous
    split
    · exact (hdefined _ _ _ _ _ _ _ _ rfl rfl).elim
    · exact (hstruct _ _ rfl rfl).elim
    · exact (hinterface _ _ rfl rfl).elim
    · trivial

/-! ## Going unnoticed in the other direction -/

/-- The descriptors of a body that are compared by identity. -/
def Ty.compared : Ty → List Ty
  | .struct fs => .struct fs :: fs.map (·.type)
  | .interface body => .interface body :: (body.methods.map (.func ·.sig) ++ body.embedded)
  | t => [t]

/-- It does not matter which side is renamed: `σ` renames the new one, `τ` the old one. -/
def Exchanged (σ τ : Scope) (u u' : Ty) : Prop :=
  ∀ t ∈ u.compared, ∀ t' ∈ u'.compared,
    t.identical (t'.respell σ) = true → t'.identical (t.respell τ) = true

theorem Ty.self_mem_compared (t : Ty) : t ∈ t.compared := by
  cases t <;> simp [Ty.compared]

/-- Scopes that keep every name exchange anything. -/
theorem exchanged_of_keeps {σ τ : Scope} (hσ : σ.Keeps) (hτ : τ.Keeps) (u u' : Ty) :
    Exchanged σ τ u u' := by
  intro t _ t' _ h
  rw [hσ.respell] at h
  rw [hτ.respell, Ty.identical_comm]
  exact h

/-- What comparison looks at inside a nested type has the shape of a constraint at most. -/
theorem Ty.Nested.compared {param name : String → Prop} {u : Ty} (hu : u.Nested param name) :
    ∀ t ∈ u.compared, t.ConstraintShaped param name := by
  intro t ht
  have hself : t = u → t.ConstraintShaped param name := by
    rintro rfl
    exact .type hu
  cases hu with
  | struct hfs hts =>
    rcases List.mem_cons.1 ht with ht | ht
    · exact hself ht
    · obtain ⟨f, hf, rfl⟩ := List.mem_map.1 ht
      exact .type (hts f hf)
  | interface hms hnd hgs hes =>
    rcases List.mem_cons.1 ht with ht | ht
    · exact hself ht
    · rcases List.mem_append.1 ht with ht | ht
      · obtain ⟨m, hm, rfl⟩ := List.mem_map.1 ht
        exact .type (.func (hgs m hm))
      · exact hes t ht
  | _ => exact hself (List.mem_singleton.1 ht)

theorem exportedFields_respell (s : Scope) (fs : List (Field Ty)) :
    exportedFields (Ty.respellFields s fs) = Ty.respellFields s (exportedFields fs) := by
  rw [respellFields_eq_map, respellFields_eq_map, exportedFields, exportedFields, List.filter_map]
  rfl

theorem names_respellFields (s : Scope) (fs : List (Field Ty)) :
    (Ty.respellFields s fs).map (·.name) = fs.map (·.name) := by
  rw [respellFields_eq_map, List.map_map]
  rfl

/-- Respelling changes types of fields, so a field is found under its name before and after. -/
theorem fieldNamed_respell (s : Scope) (fs : List (Field Ty)) (name : String) :
    fieldNamed (Ty.respellFields s fs) name =
      (fieldNamed fs name).map fun f => { f with type := f.type.respell s } := by
  rw [respellFields_eq_map, fieldNamed, fieldNamed, List.find?_map]
  rfl

/-- Where names are distinct, looking up a field's name finds that field. -/
theorem FieldsNamedOnce.fieldNamed {fs : List (Field Ty)} (h : FieldsNamedOnce fs) {f : Field Ty}
    (hf : f ∈ exportedFields fs) : fieldNamed fs f.name = some f := by
  have hsome : (GoApi.fieldNamed fs f.name).isSome := by
    rw [fieldNamed_isSome_iff]
    exact List.mem_map_of_mem (List.mem_of_mem_filter hf)
  obtain ⟨g, hg⟩ := Option.isSome_iff_exists.1 hsome
  have hname : g.name = f.name := by simpa using List.find?_some hg
  rw [hg, h f hf g (List.mem_of_find?_eq_some hg) hname]

/-- Matching fields can be read from the other side: the field found there is the one that we came
from. -/
theorem FieldsMatch.swap {σ τ : Scope} {fs gs : List (Field Ty)} (hfs : FieldsNamedOnce fs)
    (hgs : FieldsNamedOnce gs) (hex : Exchanged σ τ (.struct fs) (.struct gs))
    (h : FieldsMatch fs (Ty.respellFields σ gs)) : FieldsMatch gs (Ty.respellFields τ fs) := by
  have hnames : (exportedFields fs).map (·.name) = (exportedFields gs).map (·.name) := by
    rw [h.names, exportedFields_respell, names_respellFields]
  refine ⟨?_, fun g hg => ?_⟩
  · rw [exportedFields_respell, names_respellFields, hnames]
  · have hmem : g.name ∈ (exportedFields fs).map (·.name) := by
      rw [hnames]
      exact List.mem_map_of_mem hg
    obtain ⟨f, hf, hname⟩ := List.mem_map.1 hmem
    obtain ⟨g', hg', hid, hembedded⟩ := h.found f hf
    rw [fieldNamed_respell, hname, hgs.fieldNamed hg] at hg'
    obtain rfl := Option.some.inj hg'
    refine ⟨{ f with type := f.type.respell τ }, ?_, ?_, hembedded.symm⟩
    · rw [fieldNamed_respell, ← hname, hfs.fieldNamed hf]
      rfl
    · refine hex f.type ?_ g.type ?_ hid
      · exact List.mem_cons_of_mem _ (List.mem_map_of_mem (List.mem_of_mem_filter hf))
      · exact List.mem_cons_of_mem _ (List.mem_map_of_mem (List.mem_of_mem_filter hg))

theorem MethodsNamedOnce.method? {body : Interface Ty} (h : MethodsNamedOnce body) {m : Method Ty}
    (hm : m ∈ body.methods) : body.method? m.name = some m := by
  obtain ⟨n, hn⟩ := Option.isSome_iff_exists.1 ((method?_isSome_iff body m.name).2 ⟨m, hm, rfl⟩)
  have hname : n.name = m.name := by simpa using List.find?_some hn
  rw [hn, h m hm n (List.mem_of_find?_eq_some hn) hname]

/-- An interface body with its type parameters spelled by the scope. -/
def Interface.respell (s : Scope) (body : Interface Ty) : Interface Ty :=
  ⟨Ty.respellMethods s body.methods, Ty.respellList s body.embedded⟩

theorem respell_interface (s : Scope) (body : Interface Ty) :
    (Ty.interface body).respell s = .interface (body.respell s) := by
  rw [Ty.respell, Interface.respell]

theorem mem_respell_methods {s : Scope} {body : Interface Ty} {m : Method Ty} :
    m ∈ (body.respell s).methods ↔ ∃ m₀ ∈ body.methods, ⟨m₀.name, m₀.sig.respell s⟩ = m := by
  unfold Interface.respell
  rw [respellMethods_eq_map, List.mem_map]

theorem mem_respell_embedded {s : Scope} {body : Interface Ty} {e : Ty} :
    e ∈ (body.respell s).embedded ↔ ∃ e₀ ∈ body.embedded, e₀.respell s = e := by
  unfold Interface.respell
  rw [respellList_eq_map, List.mem_map]

theorem method?_respell (s : Scope) (body : Interface Ty) (name : String) :
    (body.respell s).method? name =
      (body.method? name).map fun m => ⟨m.name, m.sig.respell s⟩ := by
  unfold Interface.respell Interface.method?
  rw [respellMethods_eq_map, List.find?_map]
  rfl

/-- The same for interfaces, where methods are found by name and elements by their type. -/
theorem MembersMatch.swap {σ τ : Scope} {a b : Interface Ty} (ha : MethodsNamedOnce a)
    (hb : MethodsNamedOnce b) (hex : Exchanged σ τ (.interface a) (.interface b))
    (h : MembersMatch a (b.respell σ)) : MembersMatch b (a.respell τ) where
  found n hn := by
    obtain ⟨m, hm, hname⟩ := h.covered _ (mem_respell_methods.2 ⟨n, hn, rfl⟩)
    obtain ⟨n', hn', hid⟩ := h.found m hm
    rw [method?_respell, show m.name = n.name from hname, hb.method? hn] at hn'
    obtain rfl := Option.some.inj hn'
    refine ⟨⟨m.name, m.sig.respell τ⟩, ?_, ?_⟩
    · rw [method?_respell, ← show m.name = n.name from hname, ha.method? hm]
      rfl
    · rw [Signature.identical_eq] at hid ⊢
      have hm' : Ty.func m.sig ∈ (Ty.interface a).compared :=
        List.mem_cons_of_mem _ (List.mem_append_left _ (List.mem_map.2 ⟨m, hm, rfl⟩))
      have hn' : Ty.func n.sig ∈ (Ty.interface b).compared :=
        List.mem_cons_of_mem _ (List.mem_append_left _ (List.mem_map.2 ⟨n, hn, rfl⟩))
      have := hex _ hm' _ hn'
      rw [Ty.respell, Ty.respell] at this
      exact this hid
  covered m' hm' := by
    obtain ⟨m, hm, rfl⟩ := mem_respell_methods.1 hm'
    obtain ⟨n', hn', _⟩ := h.found m hm
    obtain ⟨n, hn, rfl⟩ := mem_respell_methods.1 (List.mem_of_find?_eq_some hn')
    exact ⟨n, hn, by simpa using List.find?_some hn'⟩
  elements d hd := by
    obtain ⟨e, he, hid⟩ := h.elements' _ (mem_respell_embedded.2 ⟨d, hd, rfl⟩)
    refine ⟨e.respell τ, mem_respell_embedded.2 ⟨e, he, rfl⟩, hex e ?_ d ?_ hid⟩
    · exact List.mem_cons_of_mem _ (List.mem_append_right _ he)
    · exact List.mem_cons_of_mem _ (List.mem_append_right _ hd)
  elements' e' he' := by
    obtain ⟨e, he, rfl⟩ := mem_respell_embedded.1 he'
    obtain ⟨d', hd', hid⟩ := h.elements e he
    obtain ⟨d, hd, rfl⟩ := mem_respell_embedded.1 hd'
    refine ⟨d, hd, hex e ?_ d ?_ hid⟩
    · exact List.mem_cons_of_mem _ (List.mem_append_right _ he)
    · exact List.mem_cons_of_mem _ (List.mem_append_right _ hd)

/-- A body that is not itself a declaration goes unnoticed in both directions. -/
theorem Ty.Unnoticed.swap {σ τ : Scope} {u u' : Ty} (hclear : u.Unambiguous u')
    (hex : Exchanged σ τ u u') (hu : u.kind ≠ .defined) (h : u.Unnoticed (u'.respell σ)) :
    u'.Unnoticed (u.respell τ) := by
  generalize hw : u'.respell σ = w at h
  cases h with
  | identical h =>
    rw [← hw] at h
    exact .identical (hex u u.self_mem_compared u' u'.self_mem_compared h)
  | @struct fs ws h =>
    cases u' with
    | struct gs =>
      rw [Ty.respell] at hw
      obtain rfl := Ty.struct.inj hw
      rw [Ty.respell]
      exact .struct (h.swap hclear.1 hclear.2 hex)
    | _ => simp [Ty.respell] at hw
  | @interface a w h =>
    cases u' with
    | interface b =>
      rw [respell_interface] at hw
      obtain rfl := Ty.interface.inj hw
      rw [respell_interface]
      exact .interface (h.swap hclear.1 hclear.2 hex)
    | _ => simp [Ty.respell] at hw
  | defined hbs hu' => exact absurd rfl hu

/-- Types that are no declarations bind nothing to respell, so noticing is symmetric for them. -/
theorem Ty.Unnoticed.symm_body {u u' : Ty} (hclear : u.Unambiguous u') (hu : u.kind ≠ .defined)
    (h : u.Unnoticed u') : u'.Unnoticed u := by
  have hkeeps : (Scope.replacing []).Keeps := ⟨rfl, by simp [Scope.replacing]⟩
  rw [← hkeeps.respell u'] at h
  have hback := h.swap hclear (exchanged_of_keeps hkeeps hkeeps u u') hu
  rwa [hkeeps.respell] at hback

theorem binderRenaming_eq {bs bs' : List (Binder Ty)} (h : bs.length = bs'.length) :
    binderRenaming bs bs' = (binderNames bs').zip (binderNames bs) := by
  rw [binderRenaming, if_pos h]

/-- Type parameters are paired by position, so swapping asks for each pair of constraints alone. -/
theorem BindersMatch.swap {bs bs' : List (Binder Ty)} (h : BindersMatch bs bs')
    (hswap : ∀ b ∈ bs, ∀ b' ∈ bs',
      b.constraint.identical (b'.constraint.renameFree (binderRenaming bs bs')) = true →
        b'.constraint.identical (b.constraint.renameFree (binderRenaming bs' bs)) = true) :
    BindersMatch bs' bs := by
  refine ⟨h.length.symm, fun p hp => ?_⟩
  obtain ⟨b', b⟩ := p
  have hmem : (b, b') ∈ bs.zip bs' := by
    rw [← List.zip_swap]
    exact List.mem_map.2 ⟨(b', b), hp, rfl⟩
  exact hswap b (List.of_mem_zip hmem).1 b' (List.of_mem_zip hmem).2 (h.constraints (b, b') hmem)

/-- Declarations whose type parameters stay apart are renamed either way. -/
theorem ParamsApart.identical_swap {bs bs' : List (Binder Ty)} {u u' : Ty}
    (h : ParamsApart bs u bs' u') (hlen : bs.length = bs'.length) {t t' : Ty}
    (ht : t.ConstraintShaped (· ∈ binderNames bs) fun n => n ∉ binderNames bs ∧ n ∉ binderNames bs')
    (ht' : t'.ConstraintShaped (· ∈ binderNames bs')
      fun n => n ∉ binderNames bs ∧ n ∉ binderNames bs')
    (hid : t.identical (t'.renameFree (binderRenaming bs bs')) = true) :
    t'.identical (t.renameFree (binderRenaming bs' bs)) = true := by
  have hnames : (binderNames bs).length = (binderNames bs').length := by
    simpa [binderNames] using hlen
  rw [binderRenaming_eq hlen] at hid
  rw [binderRenaming_eq hlen.symm]
  exact GoApi.identical_swap hnames h.1.distinct h.2.distinct h.1.words
    (fun n hn hfree => hfree.1 hn) ht ht' hid

/-- An unambiguous pair that goes unnoticed in one direction does so in the other. -/
theorem Ty.Unnoticed.symm {old new : Ty} (hclear : old.Unambiguous new) (h : old.Unnoticed new) :
    new.Unnoticed old := by
  induction h with
  | @identical old new h => exact .identical (Ty.identical_comm old new ▸ h)
  | struct h => exact Ty.Unnoticed.symm_body hclear (by simp [Ty.kind]) (.struct h)
  | interface h => exact Ty.Unnoticed.symm_body hclear (by simp [Ty.kind]) (.interface h)
  | @defined n n' bs bs' isAlias u u' hbs hu ih =>
    obtain ⟨hnames, hbody⟩ := hclear hbs.length
    rcases hnames with hnames | hapart
    · -- with the same names the renaming does nothing
      have hself : binderRenaming bs bs' = (binderNames bs).zip (binderNames bs) := by
        rw [binderRenaming_eq hbs.length, ← hnames]
      have hself' : binderRenaming bs' bs = (binderNames bs).zip (binderNames bs) := by
        rw [binderRenaming_eq hbs.length.symm, ← hnames]
      rw [hself, renameFree_self] at ih
      refine .defined (hbs.swap fun b _ b' _ hid => ?_) ?_
      · rw [hself, renameFree_self] at hid
        rw [hself', renameFree_self, Ty.identical_comm]
        exact hid
      · rw [hself', renameFree_self]
        exact ih hbody
    · have hex : Exchanged (.replacing (binderRenaming bs bs')) (.replacing (binderRenaming bs' bs))
          u u' := fun t ht t' ht' =>
        hapart.identical_swap hbs.length (hapart.1.body.compared t ht) (hapart.2.body.compared t' ht')
      have hkind : u.kind ≠ .defined := by
        intro hkind
        have hshape := hapart.1.body
        cases hshape <;> simp [Ty.kind] at hkind
      refine .defined (hbs.swap fun b hb b' hb' => ?_) (hu.swap hbody hex hkind)
      exact hapart.identical_swap hbs.length (hapart.1.constraints b hb) (hapart.2.constraints b' hb')

/-- Where no name is ambiguous, a difference is noticed from both sides or from neither. -/
theorem Ty.Unambiguous.unnoticed_comm {old new : Ty} (h : old.Unambiguous new) :
    old.Unnoticed new ↔ new.Unnoticed old :=
  ⟨Ty.Unnoticed.symm h, Ty.Unnoticed.symm h.symm⟩

/-! ## Tables -/

/-- How a change is reported in the other direction. -/
def ChangeKind.mirror : ChangeKind → ChangeKind
  | .added => .removed
  | .removed => .added
  | .changed => .changed

/-- The names that are reported, each with what happened to it. -/
def reported (policy : Policy) (old new : SymbolTable) : List (String × ChangeKind) :=
  (classify policy old new).map fun c => (c.symbol, c.kind)

/-- Both directions report the same names, with additions and removals exchanged. -/
def Mirrored (policy : Policy) (a b : SymbolTable) : Prop :=
  ∀ name kind, (name, kind) ∈ reported policy a b ↔ (name, kind.mirror) ∈ reported policy b a

/-- A change is reported for a name exactly when the two entries under it are classified as one. -/
theorem mem_reported {policy : Policy} {a b : SymbolTable} {name : String} {kind : ChangeKind} :
    (name, kind) ∈ reported policy a b ↔
      ∃ c, classifySymbol policy name (a.get? name) (b.get? name) = some c ∧ c.kind = kind := by
  unfold reported
  rw [List.mem_map]
  constructor
  · rintro ⟨c, hc, heq⟩
    obtain ⟨rfl, rfl⟩ := Prod.mk.inj heq
    exact ⟨c, mem_classify.1 hc, rfl⟩
  · rintro ⟨c, hc, rfl⟩
    have hname := classifySymbol_symbol hc
    refine ⟨c, mem_classify.2 ?_, by rw [hname]⟩
    rwa [hname]

/-- A name that both tables have is reported, as changed, exactly if its declarations differ. -/
theorem mem_reported_of_both {policy : Policy} {a b : SymbolTable} {name : String} {old new : Symbol}
    (hold : a.get? name = some old) (hnew : b.get? name = some new) {kind : ChangeKind} :
    (name, kind) ∈ reported policy a b ↔ ¬ Unchanged old new ∧ kind = .changed := by
  rw [mem_reported, hold, hnew, classifySymbol]
  rcases changeOf_cases policy name old new with ⟨hsame, hnone⟩ | ⟨hdiff, compatible, reason, hsome⟩
  · simp [hsame, hnone]
  · rw [hsome]
    simpa [hdiff, Change.changed] using eq_comm

/-- Additions and removals always mirror, so the question comes down to names on both sides. -/
theorem mirrored_iff_unchanged (policy : Policy) (a b : SymbolTable) :
    Mirrored policy a b ↔ ∀ name old new, a.get? name = some old → b.get? name = some new →
      (Unchanged old new ↔ Unchanged new old) := by
  constructor
  · intro h name old new hold hnew
    have hchanged := h name .changed
    rw [mem_reported_of_both hold hnew, mem_reported_of_both hnew hold] at hchanged
    simpa [ChangeKind.mirror, not_iff_not] using hchanged
  · intro h name kind
    cases hold : a.get? name with
    | none =>
      rw [mem_reported, mem_reported, hold]
      cases b.get? name with
      | none => simp [classifySymbol]
      | some new => cases kind <;> simp [classifySymbol, Change.added, Change.removed, ChangeKind.mirror]
    | some old =>
      cases hnew : b.get? name with
      | none =>
        rw [mem_reported, mem_reported, hold, hnew]
        cases kind <;> simp [classifySymbol, Change.added, Change.removed, ChangeKind.mirror]
      | some new =>
        rw [mem_reported_of_both hold hnew, mem_reported_of_both hnew hold, h name old new hold hnew]
        cases kind <;> simp [ChangeKind.mirror]

/-- Whether a symbol is a constant or a variable. -/
def Symbol.isValue (s : Symbol) : Bool := s.kind = .const ∨ s.kind = .var

theorem unchanged_comm_iff (old new : Symbol) :
    (Unchanged old new ↔ Unchanged new old) ↔
      (old.kind = new.kind → old.isValue = false →
        (old.type.Unnoticed new.type ↔ new.type.Unnoticed old.type)) := by
  unfold Unchanged Symbol.isValue
  by_cases hkind : old.kind = new.kind
  · have hid : old.type.identical new.type = new.type.identical old.type := Ty.identical_comm _ _
    simp only [hkind, true_and, forall_const]
    cases new.kind <;> simp [hid]
  · simp [hkind, Ne.symm hkind]

/-- Two types that form an unambiguous pair compare as identical in both directions or in neither.  So the two
directions of a comparison report the same exactly if every ambiguous pair of declarations of one name and
kind compares as identical in both directions or in neither. -/
theorem detection_mirrored_iff (policy : Policy) :
    (∀ old new : Ty, old.Unambiguous new →
      (old.delta policy new = .identical ↔ new.delta policy old = .identical)) ∧
    ∀ a b : SymbolTable, Mirrored policy a b ↔
      ∀ old ∈ a.symbols, ∀ new ∈ b.symbols, old.name = new.name → old.kind = new.kind →
        old.isValue = false → ¬ old.type.Unambiguous new.type →
          (old.type.delta policy new.type = .identical ↔ new.type.delta policy old.type = .identical) := by
  simp only [delta_eq_identical_iff]
  refine ⟨fun old new hclear => hclear.unnoticed_comm, fun a b => ?_⟩
  rw [mirrored_iff_unchanged]
  constructor
  · intro h old hold new hnew hname hkind hvalue _
    have hget := (a.get?_eq_some_iff new.name old).2 ⟨hold, hname⟩
    have hget' := (b.get?_eq_some_iff new.name new).2 ⟨hnew, rfl⟩
    exact (unchanged_comm_iff old new).1 (h _ _ _ hget hget') hkind hvalue
  · intro h name old new hget hget'
    obtain ⟨hold, hname⟩ := (a.get?_eq_some_iff name old).1 hget
    obtain ⟨hnew, hname'⟩ := (b.get?_eq_some_iff name new).1 hget'
    rw [unchanged_comm_iff]
    intro hkind hvalue
    by_cases hclear : old.type.Unambiguous new.type
    · exact hclear.unnoticed_comm
    · exact h old hold new hnew (hname.trans hname'.symm) hkind hvalue hclear

/-- A slice type of its own type parameter. -/
def listSource (param : String) : Surface.SourceFile :=
  ⟨"p.go", "package p\ntype List[" ++ param ++ " any] []" ++ param ++ "\n"⟩

def listType (param : String) : Ty :=
  .defined "List" [⟨param, .emptyInterface⟩] false (.slice (.typeParam param))

/-- The names in a declaration like `listType`. -/
def listNames? : Ty → Option (List String)
  | .defined name [⟨bound, .interface ⟨[], []⟩⟩] false (.slice (.typeParam used)) => some [name, bound, used]
  | _ => none

theorem eq_listType {t : Ty} {param : String} (h : listNames? t = some ["List", param, param]) :
    t = listType param := by
  unfold listNames? at h
  split at h
  · simp only [Option.some.injEq, List.cons.injEq, and_true] at h
    obtain ⟨rfl, rfl, rfl⟩ := h
    rfl
  · cases h

/-- What the source of the witness is read as, known from the names in it: these fix the whole
type. -/
theorem load_listSource {param : String}
    (h : ((Surface.load {} "./pkg" [listSource param]).toOption.join.map fun a =>
      a.symbols.map fun s => listNames? s.type) = some [some ["List", param, param]]) :
    ∃ (a : SymbolTable) (s : Symbol), Surface.load {} "./pkg" [listSource param] = .ok (some a) ∧
      a.symbols = [s] ∧ s.type = listType param := by
  obtain ⟨a, ha, hsymbols⟩ := Option.map_eq_some_iff.1 h
  obtain ⟨s, hs, hnames⟩ := List.map_eq_singleton_iff.1 hsymbols
  exact ⟨a, s, eq_ok_some_of_join ha, hs, eq_listType hnames⟩

theorem declShaped_list {param : String} (hparam : isGoName param = true) (name : String → Prop) :
    DeclShaped name [⟨param, .emptyInterface⟩] (.slice (.typeParam param)) := by
  refine ⟨by simp [binderNames], by simpa [binderNames] using hparam, ?_, .slice (.typeParam ?_)⟩
  · simpa using .type (.interface (by simp) (by simp) (by simp) (by simp))
  · simp [binderNames]

/-- A renamed type parameter leaves nothing to report in either direction. -/
theorem detection_mirrored_renamed : ∃ (a b : SymbolTable) (s s' : Symbol),
    Surface.load {} "./pkg" [listSource "T"] = .ok (some a) ∧
    Surface.load {} "./pkg" [listSource "U"] = .ok (some b) ∧
    a.symbols = [s] ∧ b.symbols = [s'] ∧ s.type.Unambiguous s'.type ∧
    (s.type.delta {} s'.type = .identical ↔ s'.type.delta {} s.type = .identical) ∧ Mirrored {} a b := by
  obtain ⟨a, s, ha, hs, htype⟩ := load_listSource (show _ = some [some ["List", "T", "T"]] by decide +kernel)
  obtain ⟨b, s', hb, hs', htype'⟩ := load_listSource (show _ = some [some ["List", "U", "U"]] by decide +kernel)
  have hclear : s.type.Unambiguous s'.type := by
    rw [htype, htype', listType, listType, Ty.Unambiguous]
    refine fun _ => ⟨.inr ⟨?_, ?_⟩, by simp [Ty.Unambiguous]⟩
    · exact declShaped_list (by decide) _
    · exact declShaped_list (by decide) _
  obtain ⟨hpair, htables⟩ := detection_mirrored_iff {}
  refine ⟨a, b, s, s', ha, hb, hs, hs', hclear, hpair _ _ hclear, (htables a b).2 ?_⟩
  rw [hs, hs', List.forall_mem_singleton, List.forall_mem_singleton]
  exact fun _ _ _ hambiguous => absurd hclear hambiguous

/-- A generic type, with a field of its type parameter's type. -/
def paramField : Surface.SourceFile := ⟨"p.go", "package p\ntype G[T any] struct \x7b X T \x7d\n"⟩

/-- The same with a field of a type `T` that the package declares. -/
def typeField : Surface.SourceFile :=
  ⟨"p.go", "package p\ntype T int\ntype G[U any] struct \x7b X T \x7d\n"⟩

/-- Once `U` is renamed to `T`, the field's type reads like the parameter.  In the other direction `T` is
renamed to `U` and stays apart from it. -/
theorem captured_parameter_unmirrored : ∃ a b : SymbolTable,
    Surface.load {} "./pkg" [paramField] = .ok (some a) ∧
    Surface.load {} "./pkg" [typeField] = .ok (some b) ∧
    reported {} a b = [("T", .added)] ∧ reported {} b a = [("G", .changed), ("T", .removed)] ∧
    ¬ Mirrored {} a b := by
  have hreports : ((Surface.load {} "./pkg" [paramField]).toOption.join.bind fun a =>
      (Surface.load {} "./pkg" [typeField]).toOption.join.map fun b => (reported {} a b, reported {} b a)) =
        some ([("T", .added)], [("G", .changed), ("T", .removed)]) := by
    decide +kernel
  obtain ⟨a, ha, hmap⟩ := Option.bind_eq_some_iff.1 hreports
  obtain ⟨b, hb, hboth⟩ := Option.map_eq_some_iff.1 hmap
  obtain ⟨hforth, hback⟩ := Prod.mk.inj hboth
  refine ⟨a, b, eq_ok_some_of_join ha, eq_ok_some_of_join hb, hforth, hback, fun hmirrored => ?_⟩
  have hchanged := hmirrored "G" .changed
  rw [hforth, hback] at hchanged
  simp [ChangeKind.mirror] at hchanged

end GoApi
