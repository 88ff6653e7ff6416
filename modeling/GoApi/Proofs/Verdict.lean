import GoApi.Proofs.Composition
import Mathlib.Data.Finset.Basic
import Mathlib.Data.Finset.Dedup

/-!
# Verdicts on structs and interfaces

What the comparison of two structs or two interfaces without type parameters comes to, told by their
members alone:

    struct        breaking    an exported field is gone, of another type or no longer embedded, or
                              literals are positional and two exported fields have changed places
                  identical   otherwise, the same exported fields in the same order, embedded alike
    interface     breaking    a method or an element is gone, or callers implement the interface and
                              there are more of them
                  identical   the same methods and elements

All other changes are compatible (`struct_verdict`, `interface_verdict`).  It makes no difference whether
the comparison ends early because the two sides have one text.
-/

namespace GoApi

variable {policy : Policy}

/-! ## Relative order -/

/-- Two entries that both lists have stand in another order. -/
def Reordered (xs ys : List String) : Prop :=
  ∃ x y, [x, y].Sublist xs ∧ [y, x].Sublist ys

instance (xs ys : List String) : Decidable (Reordered xs ys) :=
  decidable_of_iff (∃ x ∈ xs, ∃ y ∈ xs, [x, y].Sublist xs ∧ [y, x].Sublist ys) <| by
    constructor
    · rintro ⟨x, _, y, _, h⟩
      exact ⟨x, y, h⟩
    · rintro ⟨x, y, hxy, hyx⟩
      exact ⟨x, hxy.subset (by simp), y, hxy.subset (by simp), hxy, hyx⟩

theorem sublist_pair_of_mem {x y : String} {xs : List String} (hne : x ≠ y) (hx : x ∈ xs) (hy : y ∈ xs) :
    [x, y].Sublist xs ∨ [y, x].Sublist xs := by
  induction xs with
  | nil => cases hx
  | cons z zs ih =>
    rcases List.mem_cons.1 hx with rfl | hx'
    · have hy' : y ∈ zs := (List.mem_cons.1 hy).resolve_left (Ne.symm hne)
      exact Or.inl (List.cons_sublist_cons.2 (List.singleton_sublist.2 hy'))
    · rcases List.mem_cons.1 hy with rfl | hy'
      · exact Or.inr (List.cons_sublist_cons.2 (List.singleton_sublist.2 hx'))
      · exact (ih hx' hy').imp (List.Sublist.cons z) (List.Sublist.cons z)

/-- Without repetitions, of two entries only one stands before the other. -/
theorem not_sublist_swap {x y : String} {xs : List String} (hnd : xs.Nodup) (h : [x, y].Sublist xs) :
    ¬ [y, x].Sublist xs := by
  induction xs with
  | nil => cases h
  | cons z zs ih =>
    obtain ⟨hz, hzs⟩ := List.nodup_cons.1 hnd
    intro hyx
    cases h with
    | cons _ hxy =>
      cases hyx with
      | cons _ hyx => exact ih hzs hxy hyx
      | cons_cons _ _ => exact hz (hxy.subset (by simp))
    | cons_cons _ hy =>
      cases hyx with
      | cons _ hyx => exact hz (hyx.subset (by simp))
      | cons_cons _ _ => exact hz (hy.subset (by simp))

theorem sublist_filter_pair {x y : String} {xs : List String} {keep : String → Bool}
    (h : [x, y].Sublist xs) (hx : keep x = true) (hy : keep y = true) :
    [x, y].Sublist (xs.filter keep) := by
  have hfilter := h.filter keep
  rwa [List.filter_cons_of_pos hx, List.filter_cons_of_pos hy] at hfilter

/-- The common entries of two lists stand in one order exactly if no two of them have changed places. -/
theorem common_eq_iff_not_reordered {xs ys : List String} (hxs : xs.Nodup) (hys : ys.Nodup) :
    xs.filter (· ∈ ys) = ys.filter (· ∈ xs) ↔ ¬ Reordered xs ys := by
  constructor
  · rintro heq ⟨x, y, hxy, hyx⟩
    have hx : x ∈ xs ∧ x ∈ ys := ⟨hxy.subset (by simp), hyx.subset (by simp)⟩
    have hy : y ∈ xs ∧ y ∈ ys := ⟨hxy.subset (by simp), hyx.subset (by simp)⟩
    have hleft : [x, y].Sublist (xs.filter (· ∈ ys)) :=
      sublist_filter_pair hxy (by simp [hx]) (by simp [hy])
    have hright : [y, x].Sublist (ys.filter (· ∈ xs)) :=
      sublist_filter_pair hyx (by simp [hy]) (by simp [hx])
    rw [heq] at hleft
    exact not_sublist_swap (hys.filter _) hleft hright
  · intro hsame
    have hperm : (xs.filter (· ∈ ys)).Perm (ys.filter (· ∈ xs)) := by
      rw [List.perm_ext_iff_of_nodup (hxs.filter _) (hys.filter _)]
      intro z
      simp only [List.mem_filter, decide_eq_true_eq]
      exact And.comm
    -- both lists are ordered by the second one
    have hleft : (xs.filter (· ∈ ys)).Pairwise fun x y => [x, y].Sublist ys := by
      rw [List.pairwise_iff_forall_sublist]
      intro x y hxy
      have hx : x ∈ ys := by simpa using (List.mem_filter.1 (hxy.subset (List.mem_cons_self ..))).2
      have hy : y ∈ ys := by simpa using (List.mem_filter.1 (hxy.subset (by simp : y ∈ [x, y]))).2
      have hne : x ≠ y := by
        rintro rfl
        exact List.nodup_iff_sublist.1 (hxs.filter _) x hxy
      refine (sublist_pair_of_mem hne hx hy).resolve_right fun hyx => ?_
      exact hsame ⟨x, y, hxy.trans List.filter_sublist, hyx⟩
    have hright : (ys.filter (· ∈ xs)).Pairwise fun x y => [x, y].Sublist ys := by
      rw [List.pairwise_iff_forall_sublist]
      intro x y hxy
      exact hxy.trans List.filter_sublist
    refine List.Perm.eq_of_pairwise ?_ hleft hright hperm
    intro x y _ _ hxy hyx
    exact absurd hyx (not_sublist_swap hys hxy)

/-! ## Structs -/

/-- The field cannot be used as before: there is none of its name, or the one that there is has another
type or is no longer embedded. -/
def FieldLost (f : Field Ty) (new : List (Field Ty)) : Prop :=
  (∀ g ∈ new, g.name ≠ f.name) ∨
  ∃ g ∈ new, g.name = f.name ∧
    (f.type.identical g.type = false ∨ (f.embedded = true ∧ g.embedded = false))

instance (f : Field Ty) (new : List (Field Ty)) : Decidable (FieldLost f new) :=
  inferInstanceAs (Decidable (_ ∨ _))

/-- An exported field is lost, or literals by position meet two exported fields that have changed
places. -/
def StructBreaks (policy : Policy) (old new : List (Field Ty)) : Prop :=
  (∃ f ∈ exportedFields old, FieldLost f new) ∨
  (policy.fieldOrder = .positional ∧ Reordered (exportedNames old) (exportedNames new))

instance (policy : Policy) (old new : List (Field Ty)) : Decidable (StructBreaks policy old new) :=
  inferInstanceAs (Decidable (_ ∨ _))

/-- The exported fields have the same names in the same order and are embedded alike. -/
def SameFields (old new : List (Field Ty)) : Prop :=
  (exportedFields old).map (fun f => (f.name, f.embedded)) =
    (exportedFields new).map (fun f => (f.name, f.embedded))

instance (old new : List (Field Ty)) : Decidable (SameFields old new) :=
  inferInstanceAs (Decidable (_ = _))

theorem Ty.ClosedBody.fieldsNamedOnce {fs : List (Field Ty)} (h : (Ty.struct fs).ClosedBody) :
    FieldsNamedOnce fs :=
  namedOnce_of_nodup h.shape.exportedByName (h.distinct fs rfl)

/-- Where exported names are given once, the field that a name finds is the only one of that name. -/
theorem found_iff_not_lost {fs gs : List (Field Ty)} (hfs : ExportedByName fs) (hgs : ExportedByName gs)
    (honce : FieldsNamedOnce gs) {f : Field Ty} (hf : f ∈ exportedFields fs) :
    (∃ g, fieldNamed gs f.name = some g ∧ f.type.identical g.type = true ∧
      (f.embedded = true → g.embedded = true)) ↔ ¬ FieldLost f gs := by
  have hfinds : ∀ g ∈ gs, g.name = f.name → fieldNamed gs f.name = some g := by
    intro g hg hname
    have hg' : g ∈ exportedFields gs :=
      hgs.mem_exportedFields hg (hname ▸ hfs.isExported_name hf)
    rw [← hname]
    exact honce.fieldNamed hg'
  constructor
  · rintro ⟨g, hg, hid, hembedded⟩ hlost
    have hmem : g ∈ gs := List.mem_of_find?_eq_some hg
    have hname : g.name = f.name := by simpa using List.find?_some hg
    rcases hlost with hnone | ⟨g', hg', hname', hother⟩
    · exact hnone g hmem hname
    · rw [hfinds g' hg' hname', Option.some.injEq] at hg
      subst hg
      rcases hother with hid' | ⟨he, he'⟩
      · rw [hid] at hid'
        cases hid'
      · rw [hembedded he] at he'
        cases he'
  · intro hkept
    unfold FieldLost at hkept
    simp only [not_or, not_forall, not_exists, not_and, Bool.not_eq_false, ne_eq, not_not] at hkept
    obtain ⟨⟨g, hg, hname⟩, hall⟩ := hkept
    obtain ⟨hid, hembedded⟩ := hall g hg hname
    exact ⟨g, hfinds g hg hname, hid, hembedded⟩

theorem fieldsWiden_iff {fs gs : List (Field Ty)} (hfs : (Ty.struct fs).ClosedBody)
    (hgs : (Ty.struct gs).ClosedBody) : FieldsWiden policy fs gs ↔ ¬ StructBreaks policy fs gs := by
  have hbyName := hfs.shape.exportedByName
  have hbyName' := hgs.shape.exportedByName
  have hfound : ∀ f ∈ exportedFields fs, _ := fun f hf =>
    found_iff_not_lost hbyName hbyName' hgs.fieldsNamedOnce hf
  have horder : sharedNames fs gs = sharedNames gs fs ↔
      ¬ Reordered (exportedNames fs) (exportedNames gs) := by
    rw [sharedNames_eq hbyName hbyName', sharedNames_eq hbyName' hbyName]
    exact common_eq_iff_not_reordered (hfs.distinct fs rfl) (hgs.distinct gs rfl)
  unfold StructBreaks
  rw [not_or, not_exists, not_and]
  constructor
  · intro h
    refine ⟨fun f hf => ?_, fun hpositional => horder.1 (h.order hpositional)⟩
    exact (hfound f hf.1).1 (h.found f hf.1) hf.2
  · rintro ⟨hkept, hplaces⟩
    refine ⟨fun f hf => (hfound f hf).2 fun hlost => hkept f ⟨hf, hlost⟩, ?_⟩
    exact fun hpositional => horder.2 (hplaces hpositional)

theorem fieldsMatch_iff {fs gs : List (Field Ty)} (hfs : (Ty.struct fs).ClosedBody)
    (hgs : (Ty.struct gs).ClosedBody) :
    FieldsMatch fs gs ↔ ¬ StructBreaks policy fs gs ∧ SameFields fs gs := by
  rw [← fieldsWiden_iff hfs hgs]
  unfold SameFields
  constructor
  · intro h
    refine ⟨h.widen, ?_⟩
    have hnames : List.Forall₂ (fun f g => f.name = g.name) (exportedFields fs) (exportedFields gs) := by
      have heq := h.names
      rwa [← List.forall₂_eq_eq_eq, List.forall₂_map_left_iff, List.forall₂_map_right_iff] at heq
    refine map_eq_of_forall₂ hnames fun f hf g hg hname => ?_
    obtain ⟨g', hg', _, hembedded⟩ := h.found f hf
    rw [hname, hgs.fieldsNamedOnce.fieldNamed hg, Option.some.injEq] at hg'
    rw [hname, hembedded, hg']
  · rintro ⟨hwiden, hsame⟩
    refine ⟨?_, fun f hf => ?_⟩
    · have hnames := congrArg (List.map Prod.fst) hsame
      simpa only [List.map_map, Function.comp_def] using hnames
    · obtain ⟨g, hg, hid, _⟩ := hwiden.found f hf
      have hmem : (f.name, f.embedded) ∈ (exportedFields gs).map fun f => (f.name, f.embedded) := by
        rw [← hsame]
        exact List.mem_map_of_mem hf
      obtain ⟨g', hg', hpair⟩ := List.mem_map.1 hmem
      obtain ⟨hname, hembedded⟩ := Prod.mk.injEq .. ▸ hpair
      rw [← hname, hgs.fieldsNamedOnce.fieldNamed hg', Option.some.injEq] at hg
      subst hg
      exact ⟨g', hname ▸ hgs.fieldsNamedOnce.fieldNamed hg', hid, hembedded.symm⟩

/-- Two structs that have one text have the same fields, so the text decides nothing else. -/
theorem widens_struct_iff {fs gs : List (Field Ty)} (hfs : (Ty.struct fs).ClosedBody)
    (hgs : (Ty.struct gs).ClosedBody) :
    (Ty.struct fs).Widens policy (.struct gs) ↔ FieldsWiden policy fs gs := by
  refine ⟨fun h => ?_, .struct⟩
  cases h with
  | identical hid =>
    have halike := Ty.Closed.alike (.body hfs) (.body hgs) hid
    exact (fieldsMatch_of_alike hfs hgs halike).widen
  | struct h => exact h

theorem unnoticed_struct_iff {fs gs : List (Field Ty)} (hfs : (Ty.struct fs).ClosedBody)
    (hgs : (Ty.struct gs).ClosedBody) : (Ty.struct fs).Unnoticed (.struct gs) ↔ FieldsMatch fs gs := by
  refine ⟨fun h => ?_, .struct⟩
  cases h with
  | identical hid =>
    have halike := Ty.Closed.alike (.body hfs) (.body hgs) hid
    exact fieldsMatch_of_alike hfs hgs halike
  | struct h => exact h

/-- The verdict on two structs without type parameters, under every policy. -/
theorem struct_verdict (policy : Policy) (old new : List (Field Ty)) (hold : (Ty.struct old).ClosedBody)
    (hnew : (Ty.struct new).ClosedBody) :
    ((∃ reason, (Ty.struct old).delta policy (.struct new) = .incompatible reason) ↔
      StructBreaks policy old new) ∧
    ((Ty.struct old).delta policy (.struct new) = .identical ↔
      ¬ StructBreaks policy old new ∧ SameFields old new) ∧
    ((∃ reason, (Ty.struct old).delta policy (.struct new) = .compatible reason) ↔
      ¬ StructBreaks policy old new ∧ ¬ SameFields old new) := by
  have hcompatible : ((Ty.struct old).delta policy (.struct new)).isCompatible = true ↔
      ¬ StructBreaks policy old new := by
    rw [isCompatible_delta_iff, widens_struct_iff hold hnew, fieldsWiden_iff hold hnew]
  have hidentical : (Ty.struct old).delta policy (.struct new) = .identical ↔
      ¬ StructBreaks policy old new ∧ SameFields old new := by
    rw [delta_eq_identical_iff, unnoticed_struct_iff hold hnew, fieldsMatch_iff hold hnew]
  refine ⟨?_, hidentical, ?_⟩
  · rw [Delta.exists_incompatible_iff, hcompatible, not_not]
  · rw [Delta.exists_compatible_iff, hcompatible, Ne, hidentical]
    refine and_congr_right fun hquiet => ?_
    rw [and_iff_right hquiet]

/-- A field of a basic type. -/
def plainField (name type : String) : Field Ty := ⟨name, .basic type, false, isExported name⟩

/-- An embedded reader. -/
def embeddedReader : Field Ty := ⟨"Reader", .named (some "io") "Reader" [], true, true⟩

/-- A reader with a size. -/
def sizedReader : List (Field Ty) :=
  [embeddedReader, plainField "Size" "int", plainField "note" "string"]

/-- The same with its fields in another order, one more between them and a hidden one of another type. -/
def shuffledReader : List (Field Ty) :=
  [plainField "note" "bool", plainField "Size" "int", plainField "Mode" "int", embeddedReader]

theorem readers_closed : (Ty.struct sizedReader).ClosedBody ∧ (Ty.struct shuffledReader).ClosedBody := by
  have hplain : ∀ name type, isGoName name = true → isGoName type = true →
      FieldShaped (plainField name type) ∧ (plainField name type).type.Nested noParam anyName :=
    fun name type hname htype => ⟨⟨hname, rfl, by simp [plainField]⟩, .basic htype trivial⟩
  have hreader : FieldShaped embeddedReader ∧ embeddedReader.type.Nested noParam anyName :=
    ⟨⟨by decide, by decide +kernel, fun _ => rfl⟩, .qualified (by decide) (by simp)⟩
  have hclosed : ∀ fs : List (Field Ty), (∀ f ∈ fs, FieldShaped f ∧ f.type.Nested noParam anyName) →
      (exportedNames fs).Nodup → (Ty.struct fs).ClosedBody := by
    intro fs hfs hnd
    refine ⟨.struct (fun f hf => (hfs f hf).1) fun f hf => (hfs f hf).2, ?_⟩
    rintro _ ⟨⟩
    exact hnd
  refine ⟨hclosed _ ?_ (by decide +kernel), hclosed _ ?_ (by decide +kernel)⟩
  · rw [sizedReader, List.forall_mem_cons, List.forall_mem_cons, List.forall_mem_singleton]
    exact ⟨hreader, hplain _ _ (by decide) (by decide), hplain _ _ (by decide) (by decide)⟩
  · rw [shuffledReader, List.forall_mem_cons, List.forall_mem_cons, List.forall_mem_cons,
      List.forall_mem_singleton]
    exact ⟨hplain _ _ (by decide) (by decide), hplain _ _ (by decide) (by decide),
      hplain _ _ (by decide) (by decide), hreader⟩

/-- The change breaks literals by position and is compatible with the others. -/
theorem struct_verdict_shuffled :
    ((Ty.struct sizedReader).ClosedBody ∧ (Ty.struct shuffledReader).ClosedBody) ∧
    (∃ reason, (Ty.struct sizedReader).delta ⟨.positional, .consumed⟩ (.struct shuffledReader) =
      .incompatible reason) ∧
    (∃ reason, (Ty.struct sizedReader).delta ⟨.keyed, .implemented⟩ (.struct shuffledReader) =
      .compatible reason) := by
  obtain ⟨hold, hnew⟩ := readers_closed
  refine ⟨⟨hold, hnew⟩, ?_, ?_⟩
  · exact (struct_verdict ⟨.positional, .consumed⟩ _ _ hold hnew).1.2 (by decide +kernel)
  · exact (struct_verdict ⟨.keyed, .implemented⟩ _ _ hold hnew).2.2.2 (by decide +kernel)

/-! ## Interfaces -/

/-- The methods of an interface as a map from names to signatures; methods have names of their own, so
their graph will do. -/
def Interface.methodMap (body : Interface Ty) : Finset (String × String) :=
  (body.methods.map fun m => (m.name, m.sig.canonical)).toFinset

/-- The embedded elements of an interface; order and repetitions do not count. -/
def Interface.elements (body : Interface Ty) : Finset String :=
  (body.embedded.map Ty.canonical).toFinset

/-- A method or an element is lost, or callers that implement the interface have something to add. -/
def InterfaceBreaks (policy : Policy) (old new : Interface Ty) : Prop :=
  ¬ old.methodMap ⊆ new.methodMap ∨ ¬ old.elements ⊆ new.elements ∨
  (policy.interfaceAdditions = .implemented ∧
    (old.methodMap ⊂ new.methodMap ∨ old.elements ⊂ new.elements))

instance (policy : Policy) (old new : Interface Ty) : Decidable (InterfaceBreaks policy old new) :=
  inferInstanceAs (Decidable (_ ∨ _))

theorem mem_methodMap {body : Interface Ty} {name text : String} :
    (name, text) ∈ body.methodMap ↔ ∃ m ∈ body.methods, m.name = name ∧ m.sig.canonical = text := by
  simp [Interface.methodMap]

theorem mem_elements {body : Interface Ty} {text : String} :
    text ∈ body.elements ↔ ∃ e ∈ body.embedded, e.canonical = text := by
  simp [Interface.elements]

theorem Ty.Nested.methodsNamedOnce {param name : String → Prop} {body : Interface Ty}
    (h : (Ty.interface body).Nested param name) : MethodsNamedOnce body := by
  cases h with
  | interface _ hnd _ _ =>
    intro m hm n hn hname
    exact List.inj_on_of_nodup_map hnd hn hm hname

theorem methodMap_subset_iff {a b : Interface Ty} (hb : MethodsNamedOnce b) :
    a.methodMap ⊆ b.methodMap ↔
      ∀ m ∈ a.methods, ∃ n, b.method? m.name = some n ∧ m.sig.identical n.sig = true := by
  constructor
  · intro hsub m hm
    obtain ⟨n, hn, hname, htext⟩ := mem_methodMap.1 (hsub (mem_methodMap.2 ⟨m, hm, rfl, rfl⟩))
    refine ⟨n, hname ▸ hb.method? hn, ?_⟩
    exact beq_iff_eq.2 htext.symm
  · rintro hfound ⟨name, text⟩ hmem
    obtain ⟨m, hm, rfl, rfl⟩ := mem_methodMap.1 hmem
    obtain ⟨n, hn, hid⟩ := hfound m hm
    have hname : n.name = m.name := by simpa using List.find?_some hn
    exact mem_methodMap.2 ⟨n, List.mem_of_find?_eq_some hn, hname, (beq_iff_eq.1 hid).symm⟩

/-- Once all methods are found again, there are no others exactly if there are no other names. -/
theorem methodMap_superset_iff {a b : Interface Ty} (hb : MethodsNamedOnce b)
    (hsub : a.methodMap ⊆ b.methodMap) :
    b.methodMap ⊆ a.methodMap ↔ ∀ n ∈ b.methods, ∃ m ∈ a.methods, m.name = n.name := by
  constructor
  · intro hsup n hn
    obtain ⟨m, hm, hname, _⟩ := mem_methodMap.1 (hsup (mem_methodMap.2 ⟨n, hn, rfl, rfl⟩))
    exact ⟨m, hm, hname⟩
  · rintro hcovered ⟨name, text⟩ hmem
    obtain ⟨n, hn, rfl, rfl⟩ := mem_methodMap.1 hmem
    obtain ⟨m, hm, hname⟩ := hcovered n hn
    obtain ⟨n', hn', hname', htext⟩ := mem_methodMap.1 (hsub (mem_methodMap.2 ⟨m, hm, rfl, rfl⟩))
    have hsame : n' = n := hb n hn n' hn' (hname'.trans hname)
    subst hsame
    exact mem_methodMap.2 ⟨m, hm, hname, htext.symm⟩

theorem elements_subset_iff {a b : Interface Ty} :
    a.elements ⊆ b.elements ↔ ∀ e ∈ a.embedded, ∃ d ∈ b.embedded, e.identical d = true := by
  constructor
  · intro hsub e he
    obtain ⟨d, hd, htext⟩ := mem_elements.1 (hsub (mem_elements.2 ⟨e, he, rfl⟩))
    exact ⟨d, hd, beq_iff_eq.2 htext.symm⟩
  · intro hfound text hmem
    obtain ⟨e, he, rfl⟩ := mem_elements.1 hmem
    obtain ⟨d, hd, hid⟩ := hfound e he
    exact mem_elements.2 ⟨d, hd, (beq_iff_eq.1 hid).symm⟩

theorem elements_superset_iff {a b : Interface Ty} :
    b.elements ⊆ a.elements ↔ ∀ d ∈ b.embedded, ∃ e ∈ a.embedded, e.identical d = true := by
  simp only [elements_subset_iff, Ty.identical_comm]

theorem membersWiden_iff {a b : Interface Ty} (hb : MethodsNamedOnce b) :
    MembersWiden policy a b ↔ ¬ InterfaceBreaks policy a b := by
  have hnotGrown : ∀ {α : Type} {s t : Finset α}, s ⊆ t → (¬ s ⊂ t ↔ t ⊆ s) := by
    intro α s t hsub
    rw [Finset.ssubset_def, not_and, not_not]
    exact ⟨fun h => h hsub, fun h _ => h⟩
  unfold InterfaceBreaks
  rw [not_or, not_or, not_not, not_not, not_and, not_or]
  constructor
  · intro h
    have hmethods := (methodMap_subset_iff hb).2 h.found
    have helements := elements_subset_iff.2 h.elements
    refine ⟨hmethods, helements, fun hpolicy => ⟨?_, ?_⟩⟩
    · exact (hnotGrown hmethods).2 ((methodMap_superset_iff hb hmethods).2 (h.covered hpolicy))
    · exact (hnotGrown helements).2 (elements_superset_iff.2 (h.elements' hpolicy))
  · rintro ⟨hmethods, helements, hgrown⟩
    refine ⟨(methodMap_subset_iff hb).1 hmethods, elements_subset_iff.1 helements, ?_, ?_⟩
    · intro hpolicy
      exact (methodMap_superset_iff hb hmethods).1 ((hnotGrown hmethods).1 (hgrown hpolicy).1)
    · intro hpolicy
      exact elements_superset_iff.1 ((hnotGrown helements).1 (hgrown hpolicy).2)

theorem membersMatch_iff {a b : Interface Ty} (hb : MethodsNamedOnce b) :
    MembersMatch a b ↔ a.methodMap = b.methodMap ∧ a.elements = b.elements := by
  constructor
  · intro h
    have hsub := (methodMap_subset_iff hb).2 h.found
    refine ⟨hsub.antisymm ((methodMap_superset_iff hb hsub).2 h.covered), ?_⟩
    exact (elements_subset_iff.2 h.elements).antisymm (elements_superset_iff.2 h.elements')
  · rintro ⟨hmethods, helements⟩
    refine ⟨(methodMap_subset_iff hb).1 hmethods.subset, ?_, elements_subset_iff.1 helements.subset,
      elements_superset_iff.1 helements.symm.subset⟩
    exact (methodMap_superset_iff hb hmethods.subset).1 hmethods.symm.subset

theorem widens_interface_iff {a b : Interface Ty} (ha : (Ty.interface a).Nested noParam anyName)
    (hb : (Ty.interface b).Nested noParam anyName) :
    (Ty.interface a).Widens policy (.interface b) ↔ MembersWiden policy a b := by
  refine ⟨fun h => ?_, .interface⟩
  cases h with
  | identical hid =>
    have halike := Ty.Closed.alike (.body ⟨ha, by simp⟩) (.body ⟨hb, by simp⟩) hid
    exact (membersMatch_of_alike ha hb halike).widen
  | interface h => exact h

theorem unnoticed_interface_iff {a b : Interface Ty} (ha : (Ty.interface a).Nested noParam anyName)
    (hb : (Ty.interface b).Nested noParam anyName) :
    (Ty.interface a).Unnoticed (.interface b) ↔ MembersMatch a b := by
  refine ⟨fun h => ?_, .interface⟩
  cases h with
  | identical hid =>
    have halike := Ty.Closed.alike (.body ⟨ha, by simp⟩) (.body ⟨hb, by simp⟩) hid
    exact membersMatch_of_alike ha hb halike
  | interface h => exact h

/-- The verdict on two interfaces without type parameters, under every policy. -/
theorem interface_verdict (policy : Policy) (old new : Interface Ty)
    (hold : (Ty.interface old).Nested noParam anyName)
    (hnew : (Ty.interface new).Nested noParam anyName) :
    ((∃ reason, (Ty.interface old).delta policy (.interface new) = .incompatible reason) ↔
      InterfaceBreaks policy old new) ∧
    ((Ty.interface old).delta policy (.interface new) = .identical ↔
      old.methodMap = new.methodMap ∧ old.elements = new.elements) ∧
    ((∃ reason, (Ty.interface old).delta policy (.interface new) = .compatible reason) ↔
      ¬ InterfaceBreaks policy old new ∧
        ¬ (old.methodMap = new.methodMap ∧ old.elements = new.elements)) := by
  have honce := hnew.methodsNamedOnce
  have hcompatible : ((Ty.interface old).delta policy (.interface new)).isCompatible = true ↔
      ¬ InterfaceBreaks policy old new := by
    rw [isCompatible_delta_iff, widens_interface_iff hold hnew, membersWiden_iff honce]
  have hidentical : (Ty.interface old).delta policy (.interface new) = .identical ↔
      old.methodMap = new.methodMap ∧ old.elements = new.elements := by
    rw [delta_eq_identical_iff, unnoticed_interface_iff hold hnew, membersMatch_iff honce]
  refine ⟨?_, hidentical, ?_⟩
  · rw [Delta.exists_incompatible_iff, hcompatible, not_not]
  · rw [Delta.exists_compatible_iff, hcompatible, Ne, hidentical]

/-- An interface of comparable types, with methods that give integers. -/
def comparableWith (methods : List String) (repetitions : Nat) : Interface Ty :=
  ⟨methods.map fun n => ⟨n, .plain [] [.basic "int"]⟩,
    List.replicate repetitions (.basic "comparable")⟩

theorem comparableWith_nested (methods : List String) (repetitions : Nat)
    (hmethods : ∀ n ∈ methods, isGoName n = true) (hdistinct : methods.Nodup) :
    (Ty.interface (comparableWith methods repetitions)).Nested noParam anyName := by
  have hbasic : ∀ n, isGoName n = true → (Ty.basic n).Nested noParam anyName :=
    fun n hn => .basic hn trivial
  refine .interface ?_ ?_ ?_ ?_
  · simpa using hmethods
  · simpa [Function.comp_def] using hdistinct
  · simp only [List.forall_mem_map]
    exact fun n _ => .mk (by simp) (by simpa using hbasic "int" (by decide)) (by simp)
  · intro e he
    rw [List.eq_of_mem_replicate he]
    exact .type (hbasic "comparable" (by decide))

/-- Order and repetitions are not noticed, although the texts of the two interfaces differ; one more
method breaks those who implement the interface. -/
theorem interface_verdict_repeated :
    ((Ty.interface (comparableWith ["Cap", "Len"] 2)).Nested noParam anyName ∧
      (Ty.interface (comparableWith ["Len", "Cap"] 1)).Nested noParam anyName ∧
      (Ty.interface (comparableWith ["Cap", "Len", "Size"] 1)).Nested noParam anyName) ∧
    (Ty.interface (comparableWith ["Cap", "Len"] 2)).identical
      (.interface (comparableWith ["Len", "Cap"] 1)) = false ∧
    (Ty.interface (comparableWith ["Cap", "Len"] 2)).delta ⟨.keyed, .implemented⟩
      (.interface (comparableWith ["Len", "Cap"] 1)) = .identical ∧
    ∃ reason, (Ty.interface (comparableWith ["Cap", "Len"] 2)).delta ⟨.keyed, .implemented⟩
      (.interface (comparableWith ["Cap", "Len", "Size"] 1)) = .incompatible reason := by
  have hold := comparableWith_nested ["Cap", "Len"] 2 (by decide) (by decide)
  have hsame := comparableWith_nested ["Len", "Cap"] 1 (by decide) (by decide)
  have hmore := comparableWith_nested ["Cap", "Len", "Size"] 1 (by decide) (by decide)
  refine ⟨⟨hold, hsame, hmore⟩, by decide +kernel, ?_, ?_⟩
  · exact (interface_verdict ⟨.keyed, .implemented⟩ _ _ hold hsame).2.1.2 (by decide +kernel)
  · exact (interface_verdict ⟨.keyed, .implemented⟩ _ _ hold hmore).1.2 (by decide +kernel)

end GoApi
