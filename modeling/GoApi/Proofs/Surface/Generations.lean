import GoApi.Proofs.Surface.Agreement
import GoApi.Proofs.Surface.Ending

/-!
# Types of values by generations

A declared value is a `Slot`: a type that is known from the start, or an initializer.  `generation k`
holds the values whose types are found through a chain of at most `k` initializers, whatever the order
of the declarations.
-/

namespace GoApi.Surface

open Source

/-! ## Slots -/

/-- A declared value: its name, the type it has from the start, and its initializer. -/
structure Slot where
  name : String
  fixed : Option Ty
  init? : Option Expr

/-- The type of a declared value, with the types of values known so far. -/
def Slot.type? (p : Package) (site : Site) (values : Values) (s : Slot) : Option Ty :=
  s.fixed.or (s.init?.bind fun e => (infer p site values e).join)

section

variable (p : Package) (site : Site)

/-- The slots of a constant declaration. -/
def constSlots : Option TypeExpr × List Expr → List ValueSpec → List Slot
  | _, [] => []
  | previous, spec :: rest =>
    let line :=
      if spec.type?.isNone && spec.values.isEmpty then previous else (spec.type?, spec.values)
    ((spec.names.intersperse ",").zipIdx.map fun x =>
      ⟨x.1, line.1.bind (p.resolve site), line.2[x.2]?⟩) ++ constSlots line rest

/-- The slots of one line of a variable declaration. -/
def varSlots (spec : ValueSpec) : List Slot :=
  let results := (sharedResults p site spec).getD []
  spec.names.zipIdx.map fun x =>
    if results.isEmpty then ⟨x.1, spec.type?.bind (p.resolve site), spec.values[x.2]?⟩
    else ⟨x.1, (spec.type?.bind (p.resolve site)).or results[x.2]?, none⟩

/-- The slots of a declaration. -/
def declSlots : Decl → List Slot
  | .consts specs => constSlots p site (none, []) specs
  | .vars specs => specs.flatMap (varSlots p site)
  | _ => []

end

/-- The kind of the values of a declaration. -/
def declKind : Decl → DeclKind
  | .consts _ => .const
  | _ => .var

section

variable {p : Package} (hp : p.Expands) (site : Site)

include hp

theorem typeNames_eq (type? : Option TypeExpr) {at? : Nat → Option (Option Ty)} {a : Nat → Option Ty}
    (hat : ∀ i, at? i = some (a i)) (names : List String) :
    typeNames p site type? at? names =
      some (names.zipIdx.map fun x => (x.1, (type?.bind (p.resolve site)).or (a x.2))) := by
  unfold typeNames
  cases type? with
  | none =>
    show names.zipIdx.mapM _ = _
    apply mapM_eq_some
    intro x _
    simp [hat]
  | some t =>
    obtain ⟨ty, hty⟩ := Option.isSome_iff_exists.1 (hp.resolve site t)
    have hmapM : (some t).mapM (p.resolve site) = some (some ty) := by
      simp [hty]
    rw [hmapM]
    show names.zipIdx.mapM _ = _
    apply mapM_eq_some
    intro x _
    simp [hty]

theorem infer_eq (values : Values) (e : Expr) :
    infer p site values e = some (infer p site values e).join := by
  obtain ⟨t?, ht⟩ := Option.isSome_iff_exists.1 (hp.infer site values e)
  rw [ht]
  rfl

theorem inferAt_eq (values : Values) (exprs : List Expr) (i : Nat) :
    inferAt p site values exprs i = some (exprs[i]?.bind fun e => (infer p site values e).join) := by
  unfold inferAt
  cases exprs[i]? with
  | none => rfl
  | some e => exact infer_eq hp site values e

theorem constValues_eq (values : Values) (previous : Option TypeExpr × List Expr)
    (specs : List ValueSpec) :
    constValues p site values previous specs =
      some ((constSlots p site previous specs).map fun s => (s.name, s.type? p site values)) := by
  induction specs generalizing previous with
  | nil => rfl
  | cons spec rest ih =>
    rw [constValues, constSlots]
    generalize (if spec.type?.isNone && spec.values.isEmpty then previous
      else (spec.type?, spec.values)) = line
    obtain ⟨type?, exprs⟩ := line
    dsimp only
    rw [typeNames_eq hp site type? (inferAt_eq hp site values exprs), ih]
    simp [Slot.type?]

theorem varValues_eq (values : Values) (spec : ValueSpec) :
    varValues p site values spec =
      some ((varSlots p site spec).map fun s => (s.name, s.type? p site values)) := by
  unfold varValues varSlots
  obtain ⟨results, hresults⟩ := Option.isSome_iff_exists.1 (hp.sharedResults site spec)
  simp only [hresults, Option.bind_eq_bind, Option.bind_some, Option.getD_some]
  by_cases hempty : results.isEmpty = true
  · rw [typeNames_eq hp site spec.type? (a := fun i =>
      spec.values[i]?.bind fun e => (infer p site values e).join)]
    · simp [Slot.type?, hempty]
    · intro i
      rw [if_pos hempty, inferAt_eq hp]
  · rw [typeNames_eq hp site spec.type? (a := fun i => results[i]?)]
    · simp [Slot.type?, hempty]
    · intro i
      rw [if_neg hempty]

/-- The values of a declaration are its slots with their types. -/
theorem declValues_eq (values : Values) (d : Decl) :
    declValues p site values d =
      some (declKind d, (declSlots p site d).map fun s => (s.name, s.type? p site values)) := by
  cases d with
  | consts specs => simp [declValues, constValues_eq hp, declKind, declSlots]
  | vars specs =>
    rw [declValues, mapM_eq_some fun spec _ => varValues_eq hp site values spec]
    simp [declKind, declSlots, List.flatMap, Function.comp_def]
  | _ => rfl

end

/-! ## Generations -/

/-- All slots of a package with their places. -/
def Package.slots (p : Package) : List (Site × Slot) :=
  p.decls.flatMap fun x => (declSlots p x.1 x.2).map (x.1, ·)

/-- The values whose types are found through a chain of at most `k` initializers. -/
def Package.generation (p : Package) : Nat → Values
  | 0 => []
  | k + 1 => p.slots.filterMap fun x => (x.2.type? p x.1 (generation p k)).map (x.2.name, ·)

/-- What `reads` holds of is all that the package reads; such a name stands for one value at most, and
for no function besides. -/
structure Package.Clear (reads : String → Prop) (p : Package) : Prop where
  within : ∀ x ∈ p.decls, DeclReads reads x.2
  once : ∀ name, reads name → (p.slots.map (·.2.name)).count name ≤ 1
  apart : ∀ name, reads name → (p.func? name).isSome → name ∉ p.slots.map (·.2.name)

theorem mem_of_lookup {values : Values} {name : String} {t : Ty}
    (h : values.lookup name = some t) : (name, t) ∈ values := by
  obtain ⟨xs, ys, hxy, _⟩ := List.lookup_eq_some_iff.1 h
  simp [hxy]

theorem lookup_isSome_of_mem {values : Values} {name : String} {t : Ty} (h : (name, t) ∈ values) :
    ∃ t', values.lookup name = some t' :=
  Option.isSome_iff_exists.1 (List.lookup_isSome_iff.2 ⟨_, h, by simp⟩)

theorem exists_slot_of_lookup {p : Package} {k : Nat} {name : String} {t : Ty}
    (h : (p.generation (k + 1)).lookup name = some t) :
    ∃ x ∈ p.slots, x.2.name = name ∧ x.2.type? p x.1 (p.generation k) = some t := by
  obtain ⟨x, hx, hmap⟩ := List.mem_filterMap.1 (mem_of_lookup h)
  obtain ⟨t', ht', heq⟩ := Option.map_eq_some_iff.1 hmap
  obtain ⟨rfl, rfl⟩ := Prod.mk.inj heq
  exact ⟨x, hx, rfl, ht'⟩

/-- A name known in some generation has a slot. -/
theorem mem_slots_of_lookup {p : Package} {k : Nat} {name : String} {t : Ty}
    (h : (p.generation k).lookup name = some t) : name ∈ p.slots.map (·.2.name) := by
  cases k with
  | zero => simp [Package.generation] at h
  | succ k =>
    obtain ⟨x, hx, hname, _⟩ := exists_slot_of_lookup h
    exact List.mem_map.2 ⟨x, hx, hname⟩

section Infer

variable (p : Package) (site : Site) (values : Values)

theorem join_infer_address (e : Expr) :
    (infer p site values (.unary .address e)).join = (infer p site values e).join.map .pointer := by
  rw [infer]
  cases infer p site values e <;> rfl

theorem join_infer_combine (l r : Expr) :
    (infer p site values (.binary .combine l r)).join =
      (infer p site values l).join.bind fun t => (infer p site values r).join.map (combine t) := by
  rw [infer]
  cases hl : infer p site values l with
  | none => rfl
  | some l? =>
    cases l? with
    | none => rfl
    | some t => cases infer p site values r <;> rfl

end Infer

/-- More known types leave a type that is found as it is. -/
theorem infer_mono {p : Package} {site : Site} {vs ws : Values} {e : Expr}
    (hbelow : ∀ name ∈ exprNames e, ∀ t, vs.lookup name = some t → ws.lookup name = some t)
    (hfunc : ∀ name ∈ exprNames e, (p.func? name).isSome → ws.lookup name = none) {t : Ty}
    (h : (infer p site vs e).join = some t) : (infer p site ws e).join = some t := by
  induction e generalizing t with
  | name name =>
    have hmem : name ∈ exprNames (.name name) := by simp [exprNames]
    rw [infer] at h ⊢
    cases hv : vs.lookup name with
    | some t₀ =>
      rw [hv] at h
      rw [hbelow name hmem t₀ hv]
      exact h
    | none =>
      rw [hv] at h
      cases hf : p.func? name with
      | none => simp [hf] at h
      | some f =>
        rw [hfunc name hmem (by simp [hf])]
        simpa [hf] using h
  | paren inner ih => exact ih hbelow hfunc h
  | unary op operand ih =>
    cases op with
    | address =>
      rw [join_infer_address] at h ⊢
      obtain ⟨t', ht', rfl⟩ := Option.map_eq_some_iff.1 h
      rw [ih hbelow hfunc ht']
      rfl
    | fetch => exact h
    | same => exact ih hbelow hfunc h
  | binary op left right ihl ihr =>
    have hbl := fun n hn => hbelow n (List.mem_append_left (exprNames right) hn)
    have hfl := fun n hn => hfunc n (List.mem_append_left (exprNames right) hn)
    have hbr := fun n hn => hbelow n (List.mem_append_right (exprNames left) hn)
    have hfr := fun n hn => hfunc n (List.mem_append_right (exprNames left) hn)
    cases op with
    | compare => exact h
    | shift => exact ihl hbl hfl h
    | combine =>
      rw [join_infer_combine] at h ⊢
      obtain ⟨l, hl, hr⟩ := Option.bind_eq_some_iff.1 h
      obtain ⟨r, hright, rfl⟩ := Option.map_eq_some_iff.1 hr
      rw [ihl hbl hfl hl, Option.bind_some, ihr hbr hfr hright]
      rfl
  | _ => exact h

/-- The values and functions that the initializer of a slot mentions. -/
def Slot.names (s : Slot) : List String := s.init?.elim [] exprNames

theorem Slot.type?_mono {p : Package} {site : Site} {vs ws : Values} {s : Slot}
    (hbelow : ∀ name ∈ s.names, ∀ t, vs.lookup name = some t → ws.lookup name = some t)
    (hfunc : ∀ name ∈ s.names, (p.func? name).isSome → ws.lookup name = none) {t : Ty}
    (h : s.type? p site vs = some t) : s.type? p site ws = some t := by
  obtain ⟨name, fixed, init?⟩ := s
  unfold Slot.type? at h ⊢
  cases fixed with
  | some t₀ => exact h
  | none =>
    cases init? with
    | none => exact h
    | some e => exact infer_mono hbelow hfunc h

theorem constSlots_init {p : Package} {site : Site} {previous : Option TypeExpr × List Expr}
    {specs : List ValueSpec} {s : Slot} (hs : s ∈ constSlots p site previous specs) {e : Expr}
    (he : s.init? = some e) : e ∈ previous.2 ∨ ∃ spec ∈ specs, e ∈ spec.values := by
  induction specs generalizing previous with
  | nil => cases hs
  | cons spec rest ih =>
    rw [constSlots, List.mem_append] at hs
    have hline : ∀ e ∈ (if spec.type?.isNone && spec.values.isEmpty then previous
        else (spec.type?, spec.values)).2, e ∈ previous.2 ∨ ∃ s ∈ spec :: rest, e ∈ s.values := by
      intro e he
      split at he
      · exact Or.inl he
      · exact Or.inr ⟨spec, by simp, he⟩
    rcases hs with hs | hs
    · obtain ⟨x, _, rfl⟩ := List.mem_map.1 hs
      exact hline e (List.mem_of_getElem? he)
    · rcases ih hs with hprev | ⟨spec', hspec', he'⟩
      · exact hline e hprev
      · exact Or.inr ⟨spec', by simp [hspec'], he'⟩

/-- The initializer of a slot stands on a line of its declaration. -/
theorem declSlots_init {p : Package} {site : Site} {d : Decl} {s : Slot}
    (hs : s ∈ declSlots p site d) {e : Expr} (he : s.init? = some e) :
    ∃ spec ∈ declSpecs d, e ∈ spec.values := by
  cases d with
  | consts specs =>
    rcases constSlots_init hs he with hprev | hspec
    · cases hprev
    · exact hspec
  | vars specs =>
    obtain ⟨spec, hspec, hs⟩ := List.mem_flatMap.1 hs
    obtain ⟨x, _, rfl⟩ := List.mem_map.1 hs
    refine ⟨spec, hspec, ?_⟩
    split at he
    · exact List.mem_of_getElem? he
    · cases he
  | _ => cases hs

/-! ## Known types -/

/-- A type that some generation holds for a name. -/
def Package.Finds (p : Package) (name : String) (t : Ty) : Prop :=
  ∃ k, (p.generation k).lookup name = some t

/-- All types known for names that count are found in some generation. -/
def Sound (reads : String → Prop) (p : Package) (values : Values) : Prop :=
  ∀ name t, reads name → values.lookup name = some t → p.Finds name t

section Known

variable {reads : String → Prop} {p : Package} (hc : p.Clear reads)

include hc

theorem Package.Clear.names {x : Site × Slot} (hx : x ∈ p.slots) : ∀ name ∈ x.2.names, reads name := by
  obtain ⟨d, hd, hx⟩ := List.mem_flatMap.1 hx
  obtain ⟨s, hs, rfl⟩ := List.mem_map.1 hx
  intro name hname
  unfold Slot.names at hname
  cases he : s.init? with
  | none => simp [he] at hname
  | some e =>
    obtain ⟨spec, hspec, hmem⟩ := declSlots_init hs he
    exact ((hc.within d hd).expr hspec hmem).mentioned name (by simpa [he] using hname)

theorem Sound.func {values : Values} (hv : Sound reads p values) {name : String} (hr : reads name)
    (hf : (p.func? name).isSome) : values.lookup name = none := by
  cases h : values.lookup name with
  | none => rfl
  | some t =>
    obtain ⟨k, hk⟩ := hv name t hr h
    exact absurd (mem_slots_of_lookup hk) (hc.apart name hr hf)

theorem slot_mono {x : Site × Slot} (hx : x ∈ p.slots) {vs ws : Values} (hws : Sound reads p ws)
    (hbelow : ∀ name ∈ x.2.names, ∀ t, vs.lookup name = some t → ws.lookup name = some t) {t : Ty}
    (h : x.2.type? p x.1 vs = some t) : x.2.type? p x.1 ws = some t :=
  Slot.type?_mono hbelow (fun name hn hf => hws.func hc (hc.names hx name hn) hf) h

theorem lookup_generation {x : Site × Slot} (hx : x ∈ p.slots) (hr : reads x.2.name) {k : Nat} {t : Ty}
    (h : x.2.type? p x.1 (p.generation k) = some t) :
    (p.generation (k + 1)).lookup x.2.name = some t := by
  have hmem : (x.2.name, t) ∈ p.generation (k + 1) :=
    List.mem_filterMap.2 ⟨x, hx, by rw [h]; rfl⟩
  obtain ⟨t', ht'⟩ := lookup_isSome_of_mem hmem
  obtain ⟨y, hy, hname, hty⟩ := exists_slot_of_lookup ht'
  obtain rfl : y = x := eq_of_count_le_one (hc.once _ hr) hy hx hname rfl
  rw [ht', ← hty, h]

/-- A type that is found stays in the later generations. -/
theorem generation_mono {j k : Nat} (hjk : j ≤ k) {name : String} (hr : reads name) {t : Ty}
    (h : (p.generation j).lookup name = some t) : (p.generation k).lookup name = some t := by
  have hstep : ∀ k name t, reads name → (p.generation k).lookup name = some t →
      (p.generation (k + 1)).lookup name = some t := by
    intro k
    induction k with
    | zero =>
      intro name t _ h
      simp [Package.generation] at h
    | succ k ih =>
      intro name t hr h
      obtain ⟨x, hx, rfl, ht⟩ := exists_slot_of_lookup h
      refine lookup_generation hc hx hr (slot_mono hc hx (fun n t _ hn => ⟨k + 1, hn⟩) ?_ ht)
      exact fun n hn t hnt => ih n t (hc.names hx n hn) hnt
  induction hjk with
  | refl => exact h
  | step _ ih => exact hstep _ name t hr ih

theorem Package.Finds.unique {name : String} (hr : reads name) {t t' : Ty} (h : p.Finds name t)
    (h' : p.Finds name t') : t = t' := by
  obtain ⟨k, hk⟩ := h
  obtain ⟨k', hk'⟩ := h'
  have h₁ := generation_mono hc (Nat.le_max_left k k') hr hk
  have h₂ := generation_mono hc (Nat.le_max_right k k') hr hk'
  rw [h₁] at h₂
  exact Option.some.inj h₂

/-- Of finitely many names, all that is known is found in one generation. -/
theorem Sound.bounded {values : Values} (hv : Sound reads p values) (names : List String)
    (hnames : ∀ name ∈ names, reads name) :
    ∃ k, ∀ name ∈ names, ∀ t, values.lookup name = some t → (p.generation k).lookup name = some t := by
  induction names with
  | nil => exact ⟨0, by simp⟩
  | cons n ns ih =>
    obtain ⟨k, hk⟩ := ih fun m hm => hnames m (by simp [hm])
    obtain ⟨j, hj⟩ : ∃ j, ∀ t, values.lookup n = some t → (p.generation j).lookup n = some t := by
      cases hn : values.lookup n with
      | none => exact ⟨0, by simp⟩
      | some t =>
        obtain ⟨j, hj⟩ := hv n t (hnames n (by simp)) hn
        exact ⟨j, by simpa using hj⟩
    refine ⟨max j k, fun m hm t ht => ?_⟩
    rcases List.mem_cons.1 hm with rfl | hm'
    · exact generation_mono hc (Nat.le_max_left j k) (hnames m hm) (hj t ht)
    · exact generation_mono hc (Nat.le_max_right j k) (hnames m hm) (hk m hm' t ht)

/-- A type told from known types is found in some generation. -/
theorem Sound.finds {values : Values} (hv : Sound reads p values) {x : Site × Slot} (hx : x ∈ p.slots)
    (hr : reads x.2.name) {t : Ty} (h : x.2.type? p x.1 values = some t) : p.Finds x.2.name t := by
  obtain ⟨k, hk⟩ := hv.bounded hc x.2.names (hc.names hx)
  have ht := slot_mono hc hx (fun n t _ hn => ⟨k, hn⟩) hk h
  exact ⟨k + 1, lookup_generation hc hx hr ht⟩

end Known

end GoApi.Surface
