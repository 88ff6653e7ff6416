import GoApi.Proofs.Mirror
import GoApi.Proofs.Ty.Closed
import GoApi.Proofs.Widening

/-!
# Compatibility over releases

If no release breaks the one before it, the last does not break the first:

    classify policy a b and classify policy b c without breaking records →
      classify policy a c without breaking records                            (releases_compose)

for tables of declarations without type parameters.  A step may be taken because the two sides are
identical, or by the rules for members.  The first is an instance of the second (`closed_widens_cases`):
identical texts are read back as the same members.  What is left is that the rules compose, and under
positional literals that the order of the first release can be traced through the fields that the
second one has put between.
-/

namespace GoApi

variable {policy : Policy}

/-! ## Structs -/

/-- Whether a field is exported is decided by its name. -/
def ExportedByName (fs : List (Field Ty)) : Prop := ∀ f ∈ fs, f.exported = isExported f.name

/-- The names of the exported fields, in order. -/
def exportedNames (fs : List (Field Ty)) : List String := (exportedFields fs).map (·.name)

/-- Where the flag agrees with the name, the exported names are a filter of all names. -/
theorem ExportedByName.exportedNames_eq {fs : List (Field Ty)} (h : ExportedByName fs) :
    exportedNames fs = (fs.map (·.name)).filter isExported := by
  rw [exportedNames, exportedFields, List.filter_map]
  exact congrArg _ (List.filter_congr h)

theorem ExportedByName.mem_exportedNames {fs : List (Field Ty)} (h : ExportedByName fs) {name : String} :
    name ∈ exportedNames fs ↔ name ∈ fs.map (·.name) ∧ isExported name = true := by
  rw [h.exportedNames_eq, List.mem_filter]

theorem ExportedByName.mem_exportedFields {fs : List (Field Ty)} (h : ExportedByName fs) {f : Field Ty}
    (hf : f ∈ fs) (hname : isExported f.name = true) : f ∈ exportedFields fs :=
  List.mem_filter.2 ⟨hf, (h f hf).trans hname⟩

theorem ExportedByName.isExported_name {fs : List (Field Ty)} (h : ExportedByName fs) {f : Field Ty}
    (hf : f ∈ exportedFields fs) : isExported f.name = true := by
  obtain ⟨hmem, hexported⟩ := List.mem_filter.1 hf
  exact (h f hmem).symm.trans hexported

/-- The shared names are the exported names of both sides, in the order of the first. -/
theorem sharedNames_eq {these those : List (Field Ty)} (hthese : ExportedByName these)
    (hthose : ExportedByName those) :
    sharedNames these those = (exportedNames these).filter (· ∈ exportedNames those) := by
  rw [sharedNames, show exportedNames these = (exportedFields these).map (·.name) from rfl,
    List.filter_map]
  refine congrArg _ (List.filter_congr fun f hf => ?_)
  rw [Bool.eq_iff_iff, fieldNamed_isSome_iff, Function.comp_apply, decide_eq_true_eq,
    hthose.mem_exportedNames]
  exact ⟨fun hmem => ⟨hmem, hthese.isExported_name hf⟩, And.left⟩

theorem FieldsWiden.subset {fs gs : List (Field Ty)} (hfs : ExportedByName fs) (hgs : ExportedByName gs)
    (h : FieldsWiden policy fs gs) : exportedNames fs ⊆ exportedNames gs := by
  intro name hname
  obtain ⟨f, hf, rfl⟩ := List.mem_map.1 hname
  obtain ⟨g, hg, _⟩ := h.found f hf
  rw [hgs.mem_exportedNames, ← fieldNamed_isSome_iff, hg]
  exact ⟨rfl, hfs.isExported_name hf⟩

theorem filter_mem_self {names names' : List String} (h : names ⊆ names') :
    names.filter (· ∈ names') = names :=
  List.filter_eq_self.2 fun _ hname => decide_eq_true (h hname)

/-- The order of the outer lists, through what the middle one puts between. -/
theorem relative_order_trans {as bs cs : List String} (hab : as ⊆ bs) (hbc : bs ⊆ cs)
    (h : as.filter (· ∈ bs) = bs.filter (· ∈ as)) (h' : bs.filter (· ∈ cs) = cs.filter (· ∈ bs)) :
    as.filter (· ∈ cs) = cs.filter (· ∈ as) := by
  rw [filter_mem_self hab] at h
  rw [filter_mem_self hbc] at h'
  calc as.filter (· ∈ cs) = as := filter_mem_self (List.Subset.trans hab hbc)
    _ = (cs.filter (· ∈ bs)).filter (· ∈ as) := by rw [← h', ← h]
    _ = cs.filter (· ∈ as) := by
      -- what is in the first list is in the middle one, so one of the two tests is enough
      rw [List.filter_filter]
      refine List.filter_congr fun name _ => ?_
      by_cases hname : name ∈ as
      · simp [hname, hab hname]
      · simp [hname]

/-- No field is lost on the way, and those that are kept keep their type. -/
theorem FieldsWiden.trans {fs gs hs : List (Field Ty)} (hfs : ExportedByName fs)
    (hgs : ExportedByName gs) (hhs : ExportedByName hs) (hfg : FieldsWiden policy fs gs)
    (hgh : FieldsWiden policy gs hs) : FieldsWiden policy fs hs where
  found f hf := by
    obtain ⟨g, hg, hid, hembedded⟩ := hfg.found f hf
    have hname : g.name = f.name := by simpa using List.find?_some hg
    have hexported : g ∈ exportedFields gs :=
      hgs.mem_exportedFields (List.mem_of_find?_eq_some hg) (hname ▸ hfs.isExported_name hf)
    obtain ⟨h, hh, hid', hembedded'⟩ := hgh.found g hexported
    exact ⟨h, hname ▸ hh, Ty.identical_trans hid hid', hembedded' ∘ hembedded⟩
  order hpositional := by
    have horder := hfg.order hpositional
    have horder' := hgh.order hpositional
    rw [sharedNames_eq hfs hgs, sharedNames_eq hgs hfs] at horder
    rw [sharedNames_eq hgs hhs, sharedNames_eq hhs hgs] at horder'
    rw [sharedNames_eq hfs hhs, sharedNames_eq hhs hfs]
    exact relative_order_trans (hfg.subset hfs hgs) (hgh.subset hgs hhs) horder horder'

/-! ## Interfaces -/

theorem Signature.identical_trans {g h k : Signature Ty} (hgh : g.identical h = true)
    (hhk : h.identical k = true) : g.identical k = true := by
  rw [Signature.identical_eq] at *
  exact Ty.identical_trans hgh hhk

/-- Members are found again one step later, and additions are allowed by the same policy. -/
theorem MembersWiden.trans {a b c : Interface Ty} (hab : MembersWiden policy a b)
    (hbc : MembersWiden policy b c) : MembersWiden policy a c where
  found m hm := by
    obtain ⟨n, hn, hid⟩ := hab.found m hm
    have hname : n.name = m.name := by simpa using List.find?_some hn
    obtain ⟨k, hk, hid'⟩ := hbc.found n (List.mem_of_find?_eq_some hn)
    exact ⟨k, hname ▸ hk, Signature.identical_trans hid hid'⟩
  elements e he := by
    obtain ⟨d, hd, hid⟩ := hab.elements e he
    obtain ⟨d', hd', hid'⟩ := hbc.elements d hd
    exact ⟨d', hd', Ty.identical_trans hid hid'⟩
  covered hpolicy k hk := by
    obtain ⟨n, hn, hname⟩ := hbc.covered hpolicy k hk
    obtain ⟨m, hm, hname'⟩ := hab.covered hpolicy n hn
    exact ⟨m, hm, hname'.trans hname⟩
  elements' hpolicy d hd := by
    obtain ⟨e, he, hid⟩ := hbc.elements' hpolicy d hd
    obtain ⟨e', he', hid'⟩ := hab.elements' hpolicy e he
    exact ⟨e', he', Ty.identical_trans hid' hid⟩

/-! ## Identical sides by the rules for members -/

theorem namedOnce_of_nodup {fs : List (Field Ty)} (hfs : ExportedByName fs)
    (hnd : (exportedNames fs).Nodup) : FieldsNamedOnce fs := by
  intro f hf g hg hname
  have hg' : g ∈ exportedFields fs := hfs.mem_exportedFields hg (hname ▸ hfs.isExported_name hf)
  exact List.inj_on_of_nodup_map hnd hg' hf hname

theorem Ty.Nested.exportedByName {param name : String → Prop} {fs : List (Field Ty)}
    (h : (Ty.struct fs).Nested param name) : ExportedByName fs := by
  cases h with
  | struct hfs _ => exact fun f hf => (hfs f hf).exported

/-- Alike structs have the same fields in the same order. -/
theorem fieldsMatch_of_alike {fs gs : List (Field Ty)} (hfs : (Ty.struct fs).ClosedBody)
    (hgs : (Ty.struct gs).ClosedBody) (h : (Ty.struct fs).Alike (.struct gs)) : FieldsMatch fs gs := by
  have hbyName := hfs.shape.exportedByName
  have hbyName' := hgs.shape.exportedByName
  have hnested : ∀ f ∈ fs, f.type.Nested noParam anyName := by
    cases hfs.shape with
    | struct _ hts => exact hts
  have hnested' : ∀ g ∈ gs, g.type.Nested noParam anyName := by
    cases hgs.shape with
    | struct _ hts => exact hts
  rw [Ty.Alike, alikeFields_iff] at h
  refine ⟨?_, fun f hf => ?_⟩
  · have hnames : fs.map (·.name) = gs.map (·.name) := map_eq_of_forall₂ h fun f _ g _ hfg => hfg.1
    show exportedNames fs = exportedNames gs
    rw [hbyName.exportedNames_eq, hbyName'.exportedNames_eq, hnames]
  · have hmem := List.mem_of_mem_filter hf
    obtain ⟨g, hg, hname, halike, hembedded, _⟩ := exists_partner h hmem
    have hg' : g ∈ exportedFields gs :=
      hbyName'.mem_exportedFields hg (hname ▸ hbyName.isExported_name hf)
    refine ⟨g, ?_, ?_, hembedded⟩
    · rw [hname, (namedOnce_of_nodup hbyName' (hgs.distinct gs rfl)).fieldNamed hg']
    · exact halike.identical (.type (hnested f hmem)) (.type (hnested' g hg))

/-- Alike interfaces have the same members. -/
theorem membersMatch_of_alike {a b : Interface Ty} (ha : (Ty.interface a).Nested noParam anyName)
    (hb : (Ty.interface b).Nested noParam anyName) (h : (Ty.interface a).Alike (.interface b)) :
    MembersMatch a b := by
  cases ha with
  | @interface ms es hms hnd hgs hes =>
    cases hb with
    | @interface ms' es' hms' hnd' hgs' hes' =>
      rw [Ty.Alike] at h
      obtain ⟨⟨ns, hns, hmethods⟩, ds, hds, helements⟩ := h
      rw [alikeMethods_iff] at hmethods
      rw [alikeList_iff] at helements
      have honce : MethodsNamedOnce ⟨ms', es'⟩ := fun m hm n hn hname =>
        List.inj_on_of_nodup_map hnd' hn hm hname
      refine ⟨fun m hm => ?_, fun n hn => ?_, fun e he => ?_, fun d hd => ?_⟩
      · obtain ⟨n, hn, hname, halike⟩ := exists_partner hmethods hm
        have hn' : n ∈ ms' := hns.mem_iff.1 hn
        have hfunc : (Ty.func m.sig).Alike (.func n.sig) := by rwa [Ty.Alike]
        refine ⟨n, by rw [hname, honce.method? hn'], ?_⟩
        rw [Signature.identical_eq]
        exact hfunc.identical (.type (.func (hgs m hm))) (.type (.func (hgs' n hn')))
      · obtain ⟨m, hm, hname, _⟩ := exists_partner_left hmethods (hns.mem_iff.2 hn)
        exact ⟨m, hm, hname⟩
      · obtain ⟨d, hd, halike⟩ := exists_partner helements he
        have hd' : d ∈ es' := hds.mem_iff.1 hd
        exact ⟨d, hd', halike.identical (hes e he) (hes' d hd')⟩
      · obtain ⟨e, he, halike⟩ := exists_partner_left helements (hds.mem_iff.2 hd)
        exact ⟨e, he, halike.identical (hes e he) (hes' d hd)⟩

/-- The types that are compared member by member. -/
def Ty.hasMembers : Ty → Bool
  | .struct _ => true
  | .interface _ => true
  | _ => false

/-- What a widening between types without type parameters is: always by the rules for members where
there are any, and an identity elsewhere. -/
theorem closed_widens_cases {a b : Ty} (ha : a.ClosedBody) (hb : b.ClosedBody) (h : a.Widens policy b) :
    (∃ fs gs, a = .struct fs ∧ b = .struct gs ∧ FieldsWiden policy fs gs) ∨
    (∃ x y, a = .interface x ∧ b = .interface y ∧ MembersWiden policy x y) ∨
    (a.hasMembers = false ∧ b.hasMembers = false ∧ a.identical b = true) := by
  cases h with
  | struct h => exact Or.inl ⟨_, _, rfl, rfl, h⟩
  | interface h => exact Or.inr (Or.inl ⟨_, _, rfl, rfl, h⟩)
  | defined => cases ha.shape
  | identical hid =>
    -- the text is read back, so identical sides have the same members
    have halike := Ty.Closed.alike (.body ha) (.body hb) hid
    cases a with
    | struct fs =>
      cases b with
      | struct gs => exact Or.inl ⟨fs, gs, rfl, rfl, (fieldsMatch_of_alike ha hb halike).widen⟩
      | _ => simp [Ty.Alike] at halike
    | interface x =>
      cases b with
      | interface y =>
        exact Or.inr (Or.inl ⟨x, y, rfl, rfl, (membersMatch_of_alike ha.shape hb.shape halike).widen⟩)
      | _ => simp [Ty.Alike] at halike
    | _ =>
      cases b with
      | struct | interface => simp [Ty.Alike] at halike
      | _ => exact Or.inr (Or.inr ⟨rfl, rfl, hid⟩)

/-! ## Composition -/

theorem Ty.ClosedBody.widens_trans {a b c : Ty} (ha : a.ClosedBody) (hb : b.ClosedBody)
    (hc : c.ClosedBody) (hab : a.Widens policy b) (hbc : b.Widens policy c) : a.Widens policy c := by
  rcases closed_widens_cases ha hb hab with
    ⟨fs, gs, rfl, rfl, hfg⟩ | ⟨x, y, rfl, rfl, hxy⟩ | ⟨_, hmembers, hid⟩
  · rcases closed_widens_cases hb hc hbc with
      ⟨_, hs, hgs, rfl, hgh⟩ | ⟨_, _, hgs, _⟩ | ⟨hmembers, _⟩
    · cases hgs
      exact .struct (hfg.trans ha.shape.exportedByName hb.shape.exportedByName
        hc.shape.exportedByName hgh)
    · cases hgs
    · cases hmembers
  · rcases closed_widens_cases hb hc hbc with
      ⟨_, _, hy, _⟩ | ⟨_, z, hy, rfl, hyz⟩ | ⟨hmembers, _⟩
    · cases hy
    · cases hy
      exact .interface (hxy.trans hyz)
    · cases hmembers
  · rcases closed_widens_cases hb hc hbc with
      ⟨_, _, rfl, _⟩ | ⟨_, _, rfl, _⟩ | ⟨_, _, hid'⟩
    · cases hmembers
    · cases hmembers
    · exact .identical (Ty.identical_trans hid hid')

theorem renameFree_unbound (t : Ty) : t.renameFree (binderRenaming [] []) = t :=
  keeps_replacing_nil.respell t

/-- Only a declaration widens to a declaration, and its body to the other's. -/
theorem Ty.Closed.widens_cases {a b : Ty} (ha : a.Closed) (hb : b.Closed) (h : a.Widens policy b) :
    (a.ClosedBody ∧ b.ClosedBody) ∨
    ∃ n n' isAlias u u', a = .defined n [] isAlias u ∧ b = .defined n' [] isAlias u' ∧
      u.ClosedBody ∧ u'.ClosedBody ∧ u.Widens policy u' := by
  cases h with
  | identical hid =>
    have halike := ha.alike hb hid
    cases ha with
    | body ha =>
      cases hb with
      | body hb => exact Or.inl ⟨ha, hb⟩
      | defined hn hu => cases ha.shape <;> simp [Ty.Alike] at halike
    | defined hn hu =>
      cases hb with
      | body hb => cases hb.shape <;> simp [Ty.Alike] at halike
      | defined hn' hu' =>
        rw [Ty.Alike] at halike
        obtain ⟨_, _, rfl, halike⟩ := halike
        exact Or.inr ⟨_, _, _, _, _, rfl, rfl, hu, hu',
          .identical (halike.identical (.type hu.shape) (.type hu'.shape))⟩
  | struct h =>
    cases ha with
    | body ha => cases hb with | body hb => exact Or.inl ⟨ha, hb⟩
  | interface h =>
    cases ha with
    | body ha => cases hb with | body hb => exact Or.inl ⟨ha, hb⟩
  | defined hbs hwidens =>
    cases ha with
    | body ha => cases ha.shape
    | defined hn hu =>
      cases hb with
      | body hb => cases hb.shape
      | defined hn' hu' =>
        refine Or.inr ⟨_, _, _, _, _, rfl, rfl, hu, hu', ?_⟩
        rwa [renameFree_unbound] at hwidens

/-- Without type parameters nothing is respelled, and each relation between bodies composes. -/
theorem Ty.Closed.widens_trans {a b c : Ty} (ha : a.Closed) (hb : b.Closed) (hc : c.Closed)
    (hab : a.Widens policy b) (hbc : b.Widens policy c) : a.Widens policy c := by
  rcases ha.widens_cases hb hab with ⟨ha, hb'⟩ | ⟨n, n', isAlias, u, u', rfl, rfl, hu, hu', huu⟩
  · rcases hb.widens_cases hc hbc with ⟨hb, hc⟩ | ⟨_, _, _, _, _, rfl, _⟩
    · exact ha.widens_trans hb hc hab hbc
    · cases hb'.shape
  · rcases hb.widens_cases hc hbc with ⟨hb, _⟩ | ⟨_, n'', _, _, u'', heq, rfl, _, hu'', huu'⟩
    · cases hb.shape
    · cases heq
      refine .defined ⟨rfl, by simp⟩ ?_
      rw [renameFree_unbound]
      exact hu.widens_trans hu' hu'' huu huu'

/-- The declarations other than constants and variables have no type parameters. -/
def SymbolTable.Closed (table : SymbolTable) : Prop :=
  ∀ s ∈ table.symbols, s.isValue = false → s.type.Closed

/-- Kinds agree along the way, so all three symbols are values or none is. -/
theorem Replaceable.trans {x y z : Symbol} (hx : x.isValue = false → x.type.Closed)
    (hy : y.isValue = false → y.type.Closed) (hz : z.isValue = false → z.type.Closed)
    (hxy : Replaceable policy x y) (hyz : Replaceable policy y z) : Replaceable policy x z := by
  obtain ⟨hkind, hxy⟩ := hxy
  obtain ⟨hkind', hyz⟩ := hyz
  refine ⟨hkind.trans hkind', ?_⟩
  unfold Symbol.isValue at hx hy hz
  rw [← hkind', ← hkind] at hz
  rw [← hkind] at hy hyz
  cases hk : x.kind <;> simp only [hk] at hx hy hz hxy hyz ⊢
  case const | var => exact Ty.identical_trans hxy hyz
  all_goals exact (hx rfl).widens_trans (hy rfl) (hz rfl) hxy hyz

/-- If neither of two successive releases breaks the one before it, the second does not break the one
before the first. -/
theorem releases_compose (policy : Policy) (a b c : SymbolTable) (ha : a.Closed) (hb : b.Closed)
    (hc : c.Closed) (hab : ∀ r ∈ classify policy a b, r.isBreaking = false)
    (hbc : ∀ r ∈ classify policy b c, r.isBreaking = false) :
    ∀ r ∈ classify policy a c, r.isBreaking = false := by
  simp only [Change.isBreaking, Bool.not_eq_false', classify_compatible_iff] at hab hbc ⊢
  intro x hx
  obtain ⟨y, hget, hxy⟩ := hab x hx
  obtain ⟨hy, hname⟩ := (b.get?_eq_some_iff _ _).1 hget
  obtain ⟨z, hget', hyz⟩ := hbc y hy
  obtain ⟨hz, _⟩ := (c.get?_eq_some_iff _ _).1 hget'
  exact ⟨z, hname ▸ hget', hxy.trans (ha x hx) (hb y hy) (hc z hz) hyz⟩

/-- A release with a struct of integers and an interface whose methods give integers. -/
def release (fields methods : List String) : SymbolTable where
  package := "./shapes"
  symbols :=
    [⟨"Point", .type, none, .defined "Point" [] false
        (.struct (fields.map fun n => ⟨n, .basic "int", false, isExported n⟩))⟩,
      ⟨"Shape", .type, none, .defined "Shape" [] false
        (.interface ⟨methods.map fun n => ⟨n, .plain [] [.basic "int"]⟩, []⟩)⟩]
  ascending := List.pairwise_pair.2 (show "Point" < "Shape" by decide)

theorem release_closed (fields methods : List String) (hfields : ∀ n ∈ fields, isGoName n = true)
    (hdistinct : (fields.filter isExported).Nodup) (hmethods : ∀ n ∈ methods, isGoName n = true)
    (hdistinct' : methods.Nodup) : (release fields methods).Closed := by
  have hint : (Ty.basic "int").Nested noParam anyName := .basic (by decide) trivial
  intro s hs _
  rcases List.mem_cons.1 hs with rfl | hs
  · refine .defined (by decide) ⟨.struct ?_ ?_, ?_⟩
    · simp only [List.forall_mem_map]
      exact fun n hn => ⟨hfields n hn, rfl, by simp⟩
    · simp only [List.forall_mem_map]
      exact fun _ _ => hint
    · rintro _ ⟨⟩
      rw [exportedFields, List.filter_map, List.map_map]
      simpa [Function.comp_def] using hdistinct
  · obtain rfl := List.mem_singleton.1 hs
    refine .defined (by decide) ⟨.interface ?_ ?_ ?_ (by simp), by simp⟩
    · simpa using hmethods
    · simpa [Function.comp_def] using hdistinct'
    · simp only [List.forall_mem_map]
      exact fun _ _ => .mk (by simp) (by simpa using hint) (by simp)

/-- For callers that write literals by position and implement the interface: one release puts a field
between and reorders the methods, the next one puts a field in front. -/
theorem releases_compose_inserted :
    (release ["X", "Z"] ["Area", "Size"]).Closed ∧ (release ["X", "Y", "Z"] ["Size", "Area"]).Closed ∧
    (release ["W", "X", "Y", "Z"] ["Size", "Area"]).Closed ∧
    (classify ⟨.positional, .implemented⟩ (release ["X", "Z"] ["Area", "Size"])
      (release ["X", "Y", "Z"] ["Size", "Area"])).map (·.message) = ["Point: field Y added"] ∧
    (classify ⟨.positional, .implemented⟩ (release ["X", "Y", "Z"] ["Size", "Area"])
      (release ["W", "X", "Y", "Z"] ["Size", "Area"])).map (·.message) = ["Point: field W added"] ∧
    ∀ r ∈ classify ⟨.positional, .implemented⟩ (release ["X", "Z"] ["Area", "Size"])
      (release ["W", "X", "Y", "Z"] ["Size", "Area"]), r.isBreaking = false := by
  have hfirst := release_closed ["X", "Z"] ["Area", "Size"] (by decide) (by decide +kernel) (by decide)
    (by decide)
  have hsecond := release_closed ["X", "Y", "Z"] ["Size", "Area"] (by decide) (by decide +kernel)
    (by decide) (by decide)
  have hthird := release_closed ["W", "X", "Y", "Z"] ["Size", "Area"] (by decide) (by decide +kernel)
    (by decide) (by decide)
  refine ⟨hfirst, hsecond, hthird, by decide +kernel, by decide +kernel, ?_⟩
  exact releases_compose _ _ _ _ hfirst hsecond hthird (by decide +kernel) (by decide +kernel)

end GoApi
