import GoApi.Proofs.Surface.FileOrder
import GoApi.Proofs.Surface.Recording

/-!
# Rounds over the values do not go back on a type

A round may evaluate an initializer with types that the same round has just recorded.  What carries the rounds
is that a recorded type is the one its declaration has now (`Settled`), and that more types leave a found one as
it is, provided that each value an initializer mentions is the only declaration of its name.  So a recorded type
stays (`settled_round`), a round that adds no name evaluates every declaration at the types known at its start
(`foldlM_of_steady`) and is repeated by all later ones (`afterRounds_of_length_eq`), and the symbols get the
types that the rounds have recorded (`symbol_type`).
-/

namespace GoApi.Surface

open Source

/-! ## Settled types -/

/-- Each value that an initializer mentions is the only declaration of its name. -/
def Package.ClearMentions (p : Package) : Prop :=
  ∀ name ∈ p.mentions, name ∈ p.valueNames → p.declaredNames.count name ≤ 1

instance (p : Package) : Decidable p.ClearMentions :=
  inferInstanceAs (Decidable (∀ name ∈ p.mentions, name ∈ p.valueNames → p.declaredNames.count name ≤ 1))

/-- Types are recorded under names of values, and for a value that is declared once it is the type that its
declaration has now. -/
structure Settled (p : Package) (values : Values) : Prop where
  nodup : values.keys.Nodup
  declared : ∀ name ∈ values.keys, name ∈ p.valueNames
  current : ∀ x ∈ p.slots, p.valueNames.count x.2.name ≤ 1 → ∀ t, values.lookup x.2.name = some t →
    x.2.type? p x.1 values = some t

theorem settled_nil (p : Package) : Settled p [] where
  nodup := List.nodup_nil
  declared name h := by cases h
  current x _ _ t h := by cases h

/-- Every type that can be told is recorded already. -/
def Steady (p : Package) (values : Values) : Prop :=
  ∀ x ∈ p.slots, ∀ t, x.2.type? p x.1 values = some t → x.2.name ∈ values.keys

/-- The second map keeps the types of values that are declared once. -/
def Keeps (p : Package) (values values' : Values) : Prop :=
  ∀ name t, p.valueNames.count name ≤ 1 → values.lookup name = some t → values'.lookup name = some t

theorem mem_slots {p : Package} {x : Site × Decl} (hx : x ∈ p.decls) {s : Slot} (hs : s ∈ declSlots p x.1 x.2) :
    (x.1, s) ∈ p.slots :=
  List.mem_flatMap.2 ⟨x, hx, List.mem_map.2 ⟨s, hs, rfl⟩⟩

theorem names_subset_mentions {p : Package} {x : Site × Slot} (hx : x ∈ p.slots) :
    ∀ name ∈ x.2.names, name ∈ p.mentions := by
  obtain ⟨d, hd, hx⟩ := List.mem_flatMap.1 hx
  obtain ⟨s, hs, rfl⟩ := List.mem_map.1 hx
  intro name hname
  unfold Slot.names at hname
  cases he : s.init? with
  | none => simp [he] at hname
  | some e =>
    obtain ⟨spec, hspec, hmem⟩ := declSlots_init hs he
    refine List.mem_flatMap.2 ⟨d, hd, List.mem_flatMap.2 ⟨spec, hspec, List.mem_flatMap.2 ⟨e, hmem, ?_⟩⟩⟩
    simpa [he] using hname

section Rounds

variable {p : Package} (hp : p.ClearMentions)

include hp

theorem count_of_mentioned {name : String} (h : name ∈ p.mentions) : p.valueNames.count name ≤ 1 := by
  by_cases hmem : name ∈ p.valueNames
  · have hcount := hp name h hmem
    unfold Package.declaredNames at hcount
    rw [List.count_append] at hcount
    omega
  · rw [List.count_eq_zero_of_not_mem hmem]
    omega

/-- A function that is mentioned has no value of its name. -/
theorem lookup_of_func {values : Values} (hdeclared : ∀ name ∈ values.keys, name ∈ p.valueNames) {name : String}
    (h : name ∈ p.mentions) (hf : (p.func? name).isSome) : values.lookup name = none := by
  refine lookup_eq_none fun hkey => ?_
  have hmem := hdeclared name hkey
  have hcount := hp name h hmem
  obtain ⟨f, hf⟩ := Option.isSome_iff_exists.1 hf
  have hname : f.name = name := by simpa using List.find?_some hf
  have hfunc : 0 < (p.funcs.map (·.name)).count name :=
    List.count_pos_iff.2 (List.mem_map.2 ⟨f, List.mem_of_find?_eq_some hf, hname⟩)
  have hvalue := List.count_pos_iff.2 hmem
  unfold Package.declaredNames at hcount
  rw [List.count_append, List.count_append] at hcount
  omega

/-- A type that a slot has stays while types are added. -/
theorem type?_of_keeps {values values' : Values} (hkeeps : Keeps p values values')
    (hdeclared : ∀ name ∈ values'.keys, name ∈ p.valueNames) {x : Site × Slot} (hx : x ∈ p.slots) {t : Ty}
    (h : x.2.type? p x.1 values = some t) : x.2.type? p x.1 values' = some t := by
  have hnames := names_subset_mentions hx
  refine Slot.type?_mono (fun name hn u hu => ?_) (fun name hn hf => ?_) h
  · exact hkeeps name u (count_of_mentioned hp (hnames name hn)) hu
  · exact lookup_of_func hp hdeclared (hnames name hn) hf

omit hp in
/-- A type that is looked up after a declaration was told by it, or was there before. -/
theorem lookup_recordDecl_cases {values : Values} {x : Site × Decl} {name : String} {t : Ty}
    (h : (recordDecl p values x).lookup name = some t) :
    (∃ s ∈ declSlots p x.1 x.2, s.name = name ∧ s.type? p x.1 values = some t) ∨ values.lookup name = some t := by
  unfold recordDecl at h
  rw [lookup_record] at h
  cases hlast : lastTold ((declSlots p x.1 x.2).map fun s => (s.name, s.type? p x.1 values)) name with
  | none =>
    rw [hlast] at h
    exact .inr h
  | some u =>
    rw [hlast] at h
    cases h
    obtain ⟨s, hs, heq⟩ := List.mem_map.1 (mem_of_lastTold hlast)
    exact .inl ⟨s, hs, (Prod.mk.inj heq).1, (Prod.mk.inj heq).2⟩

/-- One declaration keeps what is recorded, and what is recorded stays settled. -/
theorem settled_recordDecl {values : Values} (hv : Settled p values) {x : Site × Decl} (hx : x ∈ p.decls) :
    Keeps p values (recordDecl p values x) ∧ Settled p (recordDecl p values x) := by
  have hkeeps : Keeps p values (recordDecl p values x) := by
    intro name t hcount ht
    unfold recordDecl
    rw [lookup_record, ht]
    cases hlast : lastTold ((declSlots p x.1 x.2).map fun s => (s.name, s.type? p x.1 values)) name with
    | none => rfl
    | some u =>
      obtain ⟨s, hs, heq⟩ := List.mem_map.1 (mem_of_lastTold hlast)
      obtain ⟨rfl, hu⟩ := Prod.mk.inj heq
      -- told again, a value declared once has the type that is recorded for it
      rw [hv.current (x.1, s) (mem_slots hx hs) hcount t ht] at hu
      rw [← hu]
      rfl
  have hdeclared : ∀ name ∈ (recordDecl p values x).keys, name ∈ p.valueNames := by
    intro name hname
    obtain ⟨t, ht⟩ := mem_keys_iff.1 hname
    rcases lookup_recordDecl_cases ht with ⟨s, hs, rfl, _⟩ | hbefore
    · rw [← slots_names]
      exact List.mem_map.2 ⟨(x.1, s), mem_slots hx hs, rfl⟩
    · exact hv.declared name (mem_keys_iff.2 ⟨t, hbefore⟩)
  refine ⟨hkeeps, nodup_record hv.nodup _, hdeclared, fun y hy hcount t ht => ?_⟩
  rcases lookup_recordDecl_cases ht with ⟨s, hs, hname, hnow⟩ | hbefore
  · rw [← slots_names] at hcount
    obtain rfl : (x.1, s) = y := eq_of_count_le_one hcount (mem_slots hx hs) hy hname rfl
    exact type?_of_keeps hp hkeeps hdeclared hy hnow
  · exact type?_of_keeps hp hkeeps hdeclared hy (hv.current y hy hcount t hbefore)

/-- A round keeps what is recorded, and what is recorded stays settled. -/
theorem settled_round {values : Values} (hv : Settled p values) {decls : List (Site × Decl)}
    (hdecls : ∀ x ∈ decls, x ∈ p.decls) :
    Keeps p values (round p decls values) ∧ Settled p (round p decls values) := by
  induction decls generalizing values with
  | nil => exact ⟨fun name t _ ht => ht, hv⟩
  | cons x xs ih =>
    obtain ⟨hkeeps, hnext⟩ := settled_recordDecl hp hv (hdecls x (by simp))
    obtain ⟨hkeeps', hend⟩ := ih hnext fun y hy => hdecls y (by simp [hy])
    exact ⟨fun name t hcount ht => hkeeps' name t hcount (hkeeps name t hcount ht), hend⟩

/-- A round records at least what can be told at its start. -/
theorem mem_keys_round_of_type? {values : Values} (hv : Settled p values) {decls : List (Site × Decl)}
    (hdecls : ∀ x ∈ decls, x ∈ p.decls) {x : Site × Decl} (hx : x ∈ decls) {s : Slot}
    (hs : s ∈ declSlots p x.1 x.2) {t : Ty} (ht : s.type? p x.1 values = some t) :
    s.name ∈ (round p decls values).keys := by
  induction decls generalizing values with
  | nil => cases hx
  | cons y ys ih =>
    rcases List.mem_cons.1 hx with rfl | hx
    · have hmem : s.name ∈ (recordDecl p values x).keys :=
        mem_keys_record (List.mem_map.2 ⟨s, hs, by rw [ht]⟩)
      obtain ⟨new, hnew⟩ := keys_round (p := p) (recordDecl p values x) ys
      show s.name ∈ (round p ys (recordDecl p values x)).keys
      rw [hnew]
      exact List.mem_append_left _ hmem
    · obtain ⟨hkeeps, hnext⟩ := settled_recordDecl hp hv (hdecls y (by simp))
      have hslot := mem_slots (hdecls x (by simp [hx])) hs
      exact ih hnext (fun z hz => hdecls z (by simp [hz])) hx
        (type?_of_keeps hp hkeeps hnext.declared hslot ht)

/-- A round that adds no name had nothing left to tell. -/
theorem steady_of_keys_eq {values : Values} (hv : Settled p values)
    (hkeys : (round p p.decls values).keys = values.keys) : Steady p values := by
  intro x hx t ht
  obtain ⟨d, hd, hmem⟩ := List.mem_flatMap.1 hx
  obtain ⟨s, hs, rfl⟩ := List.mem_map.1 hmem
  rw [← hkeys]
  exact mem_keys_round_of_type? hp hv (fun _ h => h) hd hs ht

end Rounds

/-! ## Rounds that add no name -/

/-- Two maps give the same types to all that initializers mention. -/
def SameMentions (p : Package) (values values' : Values) : Prop :=
  ∀ name ∈ p.mentions, values.lookup name = values'.lookup name

theorem Package.ClearMentions.same {p : Package} (hp : p.ClearMentions) {values values' : Values}
    (hkeeps : Keeps p values values') (hkeys : values'.keys = values.keys) : SameMentions p values values' := by
  intro name hname
  cases h : values.lookup name with
  | some t => exact (hkeeps name t (count_of_mentioned hp hname) h).symm
  | none =>
    refine (lookup_eq_none fun hmem => ?_).symm
    rw [hkeys] at hmem
    obtain ⟨t, ht⟩ := mem_keys_iff.1 hmem
    rw [h] at ht
    cases ht

section Same

variable {p : Package} {values values' : Values} (hsame : SameMentions p values values')

include hsame

theorem infer_of_same {x : Site × Decl} (hx : x ∈ p.decls) {spec : ValueSpec} (hspec : spec ∈ declSpecs x.2)
    {e : Expr} (he : e ∈ spec.values) : infer p x.1 values e = infer p x.1 values' e := by
  have hself : p.Agrees (fun _ => True) p :=
    ⟨⟨fun _ => rfl, fun _ _ => rfl⟩, rfl, fun _ _ => rfl, fun _ _ => ⟨fun _ _ _ _ => trivial, fun _ _ => trivial⟩⟩
  refine hself.infer x.1 ⟨fun _ _ _ _ => trivial, fun _ _ => trivial⟩ fun name hname => hsame name ?_
  exact List.mem_flatMap.2 ⟨x, hx, List.mem_flatMap.2 ⟨spec, hspec, List.mem_flatMap.2 ⟨e, he, hname⟩⟩⟩

omit hsame in
theorem inferAt_congr {site : Site} {exprs : List Expr}
    (h : ∀ e ∈ exprs, infer p site values e = infer p site values' e) :
    inferAt p site values exprs = inferAt p site values' exprs := by
  funext i
  unfold inferAt
  cases he : exprs[i]? with
  | none => rfl
  | some e => exact h e (List.mem_of_getElem? he)

omit hsame in
theorem constValues_congr {site : Site} {previous : Option TypeExpr × List Expr} {specs : List ValueSpec}
    (hprevious : ∀ e ∈ previous.2, infer p site values e = infer p site values' e)
    (h : ∀ spec ∈ specs, ∀ e ∈ spec.values, infer p site values e = infer p site values' e) :
    constValues p site values previous specs = constValues p site values' previous specs := by
  induction specs generalizing previous with
  | nil => rfl
  | cons spec rest ih =>
    have hline : ∀ e ∈ (if spec.type?.isNone && spec.values.isEmpty then previous
        else (spec.type?, spec.values)).2, infer p site values e = infer p site values' e := by
      split
      · exact hprevious
      · exact h spec (by simp)
    rw [constValues, constValues]
    dsimp only
    rw [inferAt_congr hline, ih hline fun s hs => h s (by simp [hs])]

/-- The values of a declaration depend on the types of what its initializers mention. -/
theorem declValues_of_same {x : Site × Decl} (hx : x ∈ p.decls) :
    declValues p x.1 values x.2 = declValues p x.1 values' x.2 := by
  obtain ⟨site, d⟩ := x
  have hinfer : ∀ spec ∈ declSpecs d, ∀ e ∈ spec.values, infer p site values e = infer p site values' e :=
    fun spec hspec e he => infer_of_same hsame hx hspec he
  cases d with
  | consts specs =>
    have hspecs : constValues p site values (none, []) specs = constValues p site values' (none, []) specs :=
      constValues_congr (by simp) hinfer
    simp only [declValues, hspecs]
  | vars specs =>
    have hline : ∀ spec ∈ specs, varValues p site values spec = varValues p site values' spec := by
      intro spec hspec
      unfold varValues
      rw [inferAt_congr (hinfer spec hspec)]
    simp only [declValues, mapM_congr_left hline]
  | _ => rfl

omit hsame in
theorem learnDecl_eq_map (site : Site) (d : Decl) :
    learnDecl p site values d = (declValues p site values d).map fun found => record values found.2 := by
  unfold learnDecl
  cases declValues p site values d <;> rfl

theorem Steady.of_same (hv : Steady p values) (hkeys : values'.keys = values.keys) : Steady p values' := by
  intro x hx t ht
  obtain ⟨⟨site, d⟩, hd, hmem⟩ := List.mem_flatMap.1 hx
  obtain ⟨s, hs, rfl⟩ := List.mem_map.1 hmem
  rw [hkeys]
  refine hv _ hx t ?_
  unfold Slot.type? at ht ⊢
  cases hinit : s.init? with
  | none => rwa [hinit] at ht
  | some e =>
    obtain ⟨spec, hspec, he⟩ := declSlots_init hs hinit
    rw [hinit] at ht
    have hinfer := infer_of_same hsame hd hspec he
    dsimp only at hinfer
    rwa [Option.bind_some, hinfer]

end Same

section Steady

variable {p : Package} (hp : p.ClearMentions)

include hp

/-- What a declaration tells with nothing new in it. -/
theorem recordDecl_of_steady {values : Values} (hv : Settled p values) (hsteady : Steady p values)
    {x : Site × Decl} (hx : x ∈ p.decls) :
    (recordDecl p values x).keys = values.keys ∧ SameMentions p values (recordDecl p values x) := by
  have hkeys : (recordDecl p values x).keys = values.keys := by
    refine keys_record_of_mem fun name t hm => ?_
    obtain ⟨s, hs, heq⟩ := List.mem_map.1 hm
    obtain ⟨rfl, ht⟩ := Prod.mk.inj heq
    exact hsteady _ (mem_slots hx hs) t ht
  exact ⟨hkeys, hp.same (settled_recordDecl hp hv hx).1 hkeys⟩

/-- With nothing new to tell, a round evaluates every declaration at the types known at its start. -/
theorem foldlM_of_steady {values : Values} (hv : Settled p values) (hsteady : Steady p values)
    {decls : List (Site × Decl)} (hdecls : ∀ x ∈ decls, x ∈ p.decls) :
    decls.foldlM (fun vs x => learnDecl p x.1 vs x.2) values =
      (decls.mapM fun x => declValues p x.1 values x.2).map fun found => record values (found.flatMap (·.2)) := by
  induction decls generalizing values with
  | nil => rfl
  | cons x xs ih =>
    have hx := hdecls x (by simp)
    have hxs := fun y hy => hdecls y (List.mem_cons_of_mem x hy)
    rw [List.foldlM_cons, List.mapM_cons, learnDecl_eq_map]
    cases hfound : declValues p x.1 values x.2 with
    | none => rfl
    | some found =>
      have hnext : record values found.2 = recordDecl p values x := by
        rw [(declValues_eq_some hfound).2]
        rfl
      obtain ⟨hkeys, hsame⟩ := recordDecl_of_steady hp hv hsteady hx
      have hrest := ih (settled_recordDecl hp hv hx).2 (hsteady.of_same hsame hkeys) hxs
      rw [← mapM_congr_left fun y hy => declValues_of_same hsame (hxs y hy), ← hnext] at hrest
      refine hrest.trans ?_
      cases xs.mapM fun y => declValues p y.1 values y.2 with
      | none => rfl
      | some below =>
        show some (record (record values found.2) (below.flatMap (·.2))) =
          some (record values (found.2 ++ below.flatMap (·.2)))
        rw [record_append]

/-- A round that adds no name is repeated by the next one. -/
theorem learnRound_of_length_eq {values next : Values} (hv : Settled p values) (h : learnRound p values = some next)
    (hlen : next.length = values.length) : learnRound p next = some next := by
  obtain ⟨hkeeps, hnext⟩ := settled_round hp hv (fun x hx => hx : ∀ x ∈ p.decls, x ∈ p.decls)
  rw [← learnRound_eq_some h] at hkeeps hnext
  have hkeys : next.keys = values.keys := by
    obtain ⟨new, hnew⟩ := keys_round (p := p) values p.decls
    rw [← learnRound_eq_some h] at hnew
    have hnil : new = [] := by
      have := congrArg List.length hnew
      simp only [Values.keys, List.length_map, List.length_append, hlen] at this
      exact List.length_eq_zero_iff.1 (by omega)
    rw [hnew, hnil, List.append_nil]
  have hsteady : Steady p values := steady_of_keys_eq hp hv (by rw [← learnRound_eq_some h, hkeys])
  have hsame := hp.same hkeeps hkeys
  rw [learnRound_eq_foldlM, foldlM_of_steady hp hv hsteady fun _ hx => hx] at h
  rw [learnRound_eq_foldlM, foldlM_of_steady hp hnext (hsteady.of_same hsame hkeys) fun _ hx => hx,
    ← mapM_congr_left fun x hx => declValues_of_same hsame hx]
  -- both rounds record one list of types, and recording it twice is recording it once
  obtain ⟨found, hfound, rfl⟩ := Option.map_eq_some_iff.1 h
  rw [hfound, Option.map_some, record_record hv.nodup]

end Steady

/-! ## The rounds of a package -/

/-- The types known after a number of rounds, with no early end. -/
def Package.afterRounds (p : Package) : Nat → Option Values
  | 0 => some []
  | k + 1 => (p.afterRounds k).bind (learnRound p)

section AfterRounds

variable {p : Package} (hp : p.ClearMentions)

include hp

theorem settled_afterRounds {k : Nat} {values : Values} (h : p.afterRounds k = some values) : Settled p values := by
  induction k generalizing values with
  | zero =>
    cases h
    exact settled_nil p
  | succ k ih =>
    obtain ⟨before, hbefore, hround⟩ := Option.bind_eq_some_iff.1 h
    rw [learnRound_eq_some hround]
    exact (settled_round hp (ih hbefore) fun _ hx => hx).2

theorem keeps_afterRounds {j k : Nat} (hjk : j ≤ k) {values values' : Values} (h : p.afterRounds j = some values)
    (h' : p.afterRounds k = some values') : Keeps p values values' := by
  induction k, hjk using Nat.le_induction generalizing values' with
  | base =>
    obtain rfl := Option.some.inj (h.symm.trans h')
    exact fun name t _ ht => ht
  | succ k hjk ih =>
    obtain ⟨before, hbefore, hround⟩ := Option.bind_eq_some_iff.1 h'
    have hlast := (settled_round hp (settled_afterRounds hp hbefore) (fun x hx => hx : ∀ x ∈ p.decls, x ∈ p.decls)).1
    rw [← learnRound_eq_some hround] at hlast
    exact fun name t hcount ht => hlast name t hcount (ih hbefore name t hcount ht)

/-- After a round that adds no name the rounds stand still. -/
theorem afterRounds_of_length_eq {k : Nat} {values next : Values} (h : p.afterRounds k = some values)
    (hround : learnRound p values = some next) (hlen : next.length = values.length) (n : Nat) :
    p.afterRounds (k + 1 + n) = some next := by
  induction n with
  | zero =>
    show (p.afterRounds k).bind (learnRound p) = _
    rw [h]
    exact hround
  | succ n ih =>
    show (p.afterRounds (k + 1 + n)).bind (learnRound p) = _
    rw [ih]
    exact learnRound_of_length_eq hp (settled_afterRounds hp h) hround hlen

omit hp in
theorem afterRounds_eq_none {k : Nat} (h : p.afterRounds k = none) (n : Nat) : p.afterRounds (k + n) = none := by
  induction n with
  | zero => exact h
  | succ n ih =>
    show (p.afterRounds (k + n)).bind (learnRound p) = none
    rw [ih]
    rfl

theorem learnRounds_eq_afterRounds (n : Nat) {k : Nat} {values : Values} (h : p.afterRounds k = some values) :
    learnRounds p n values = p.afterRounds (k + n) := by
  induction n generalizing k values with
  | zero => exact h.symm
  | succ n ih =>
    have hnext : p.afterRounds (k + 1) = learnRound p values := by
      show (p.afterRounds k).bind (learnRound p) = _
      rw [h]
      rfl
    rw [learnRounds, Nat.add_comm n 1, ← Nat.add_assoc]
    cases hround : learnRound p values with
    | none => exact (afterRounds_eq_none (hnext.trans hround) n).symm
    | some next =>
      show (if next.length = values.length then some next else learnRounds p n next) = _
      by_cases hlen : next.length = values.length
      · rw [if_pos hlen, afterRounds_of_length_eq hp h hround hlen]
      · rw [if_neg hlen, ih (hnext.trans hround)]

/-- Ending early makes no difference. -/
theorem values_eq_afterRounds : p.values = p.afterRounds maxRounds := by
  unfold Package.values
  rw [learnRounds_eq_afterRounds hp maxRounds (k := 0) rfl, Nat.zero_add]

end AfterRounds

/-! ## The symbols of values -/

/-- A declaration of constants or variables gives the symbols of its slots, or one that has no end. -/
theorem declSymbols_cases (p : Package) (values : Values) (site : Site) {d : Decl} {specs : List ValueSpec}
    (hd : d = .consts specs ∨ d = .vars specs) :
    p.declSymbols values site d = [none] ∨
      p.declSymbols values site d = (declSlots p site d).map fun s =>
        some ⟨s.name, declKind d, none, (s.type? p site values).getD unknown⟩ := by
  cases hfound : declValues p site values d with
  | none =>
    left
    rcases hd with rfl | rfl <;> simp [Package.declSymbols, hfound]
  | some found =>
    right
    obtain ⟨kind, declared⟩ := found
    obtain ⟨rfl, rfl⟩ := declValues_eq_some hfound
    rcases hd with rfl | rfl <;> simp [Package.declSymbols, hfound]

section Symbols

variable {p : Package} {values : Values}

/-- The symbols of constants and variables are those of the slots, told with the types that are known. -/
theorem slot_of_symbol {s : Symbol} (hs : some s ∈ p.symbols values) (hkind : s.kind = .const ∨ s.kind = .var) :
    ∃ x ∈ p.slots, s.name = x.2.name ∧ s.type = (x.2.type? p x.1 values).getD unknown := by
  rw [symbols_eq] at hs
  obtain ⟨⟨site, d⟩, hx, hs⟩ := List.mem_flatMap.1 hs
  have hvalues : ∀ specs, d = .consts specs ∨ d = .vars specs →
      ∃ x ∈ p.slots, s.name = x.2.name ∧ s.type = (x.2.type? p x.1 values).getD unknown := by
    intro specs hd
    rcases declSymbols_cases p values site hd with heq | heq
    · rw [heq] at hs
      simp at hs
    · rw [heq] at hs
      obtain ⟨slot, hslot, heq⟩ := List.mem_map.1 hs
      cases heq
      exact ⟨(site, slot), mem_slots hx hslot, rfl, rfl⟩
  cases d with
  | imports list => cases hs
  | func name sig =>
    obtain ⟨binders, _, h⟩ := Option.bind_eq_some_iff.1 (List.mem_singleton.1 hs).symm
    obtain ⟨resolved, _, heq⟩ := Option.bind_eq_some_iff.1 h
    cases heq
    simp at hkind
  | method receiver? name sig =>
    cases receiver? with
    | none => cases hs
    | some receiver =>
      obtain ⟨resolved, _, heq⟩ := Option.bind_eq_some_iff.1 (List.mem_singleton.1 hs).symm
      cases heq
      simp [Symbol.method] at hkind
  | types list =>
    obtain ⟨decl, _, h⟩ := List.mem_map.1 hs
    obtain ⟨binders, _, h⟩ := Option.bind_eq_some_iff.1 h
    obtain ⟨underlying, _, heq⟩ := Option.bind_eq_some_iff.1 h
    cases heq
    simp at hkind
  | consts specs => exact hvalues specs (.inl rfl)
  | vars specs => exact hvalues specs (.inr rfl)

/-- Where all symbols are told, every slot has its symbol. -/
theorem symbol_of_slot (hall : none ∉ p.symbols values) {x : Site × Slot} (hx : x ∈ p.slots) :
    ∃ kind, (kind = .const ∨ kind = .var) ∧
      some ⟨x.2.name, kind, none, (x.2.type? p x.1 values).getD unknown⟩ ∈ p.symbols values := by
  obtain ⟨⟨site, d⟩, hd, hmem⟩ := List.mem_flatMap.1 hx
  obtain ⟨slot, hslot, rfl⟩ := List.mem_map.1 hmem
  have hvalues : ∀ specs, d = .consts specs ∨ d = .vars specs →
      some ⟨slot.name, declKind d, none, (slot.type? p site values).getD unknown⟩ ∈ p.symbols values := by
    intro specs hspecs
    rw [symbols_eq] at hall ⊢
    refine List.mem_flatMap.2 ⟨(site, d), hd, ?_⟩
    rcases declSymbols_cases p values site hspecs with heq | heq
    · exact absurd (List.mem_flatMap.2 ⟨(site, d), hd, by simp [heq]⟩) hall
    · rw [heq]
      exact List.mem_map.2 ⟨slot, hslot, rfl⟩
  cases d with
  | consts specs => exact ⟨.const, .inl rfl, hvalues specs (.inl rfl)⟩
  | vars specs => exact ⟨.var, .inr rfl, hvalues specs (.inr rfl)⟩
  | _ => cases hslot

variable (hv : Settled p values) {name : String} {t : Ty} (ht : values.lookup name = some t)
  (hcount : p.valueNames.count name ≤ 1)

include hv ht hcount

/-- The symbol of a value has the type that is recorded for it. -/
theorem symbol_type {s : Symbol} (hs : some s ∈ p.symbols values) (hkind : s.kind = .const ∨ s.kind = .var)
    (hname : s.name = name) : s.type = t := by
  obtain ⟨x, hx, hsname, hstype⟩ := slot_of_symbol hs hkind
  obtain rfl : x.2.name = name := hsname.symm.trans hname
  rw [hstype, hv.current x hx hcount t ht]
  rfl

theorem exists_symbol (hall : none ∉ p.symbols values) :
    ∃ kind, (kind = .const ∨ kind = .var) ∧ some ⟨name, kind, none, t⟩ ∈ p.symbols values := by
  have hmem := hv.declared name (mem_keys_iff.2 ⟨t, ht⟩)
  rw [← slots_names] at hmem
  obtain ⟨x, hx, rfl⟩ := List.mem_map.1 hmem
  have hsymbol := symbol_of_slot hall hx
  rwa [hv.current x hx hcount t ht] at hsymbol

end Symbols

/-- A symbol that is visible stands in the table. -/
theorem get?_of_tableOf {package : String} {files : List File} {table : SymbolTable} {values : Values}
    (h : tableOf package files = .ok table) (hvalues : (Package.ofFiles files).values = some values) {s : Symbol}
    (hs : some s ∈ (Package.ofFiles files).symbols values) (hvisible : s.visible = true) :
    table.get? s.name = some s := by
  obtain ⟨values', symbols, hvalues', hsymbols, hok⟩ := (tableOf_eq_ok_iff _ _ _).1 h
  obtain rfl : values' = values := Option.some.inj (hvalues'.symm.trans hvalues)
  have hperm := ((SymbolTable.ofSymbols_eq_ok_iff _ _ _).1 hok).2
  have hmem : s ∈ table.symbols := by
    rw [hsymbols] at hs
    obtain ⟨s', hs', heq⟩ := List.mem_map.1 hs
    cases heq
    exact hperm.mem_iff.2 (List.mem_filter.2 ⟨hs', hvisible⟩)
  unfold SymbolTable.get?
  cases hfind : table.symbols.find? (·.name == s.name) with
  | none =>
    rw [List.find?_eq_none] at hfind
    exact absurd (beq_self_eq_true s.name) (hfind s hmem)
  | some s' =>
    have hname : s'.name = s.name := by simpa using List.find?_some hfind
    rw [List.inj_on_of_nodup_map table.ascending.nodup (List.mem_of_find?_eq_some hfind) hmem hname]

/-- Rounds over the values of a package never go back on a type.  If each value that an initializer mentions is
the only declaration of its name, a type recorded for a value that is declared once stays in all later rounds; a
round that adds no name is repeated by all later ones, so that ending there makes no difference; and the symbol
of such a value has exactly the type that is recorded for it. -/
theorem value_types_stable (p : Package) (hp : p.ClearMentions) :
    (∀ j k values values' name t, j ≤ k → p.afterRounds j = some values → p.afterRounds k = some values' →
      p.valueNames.count name ≤ 1 → values.lookup name = some t → values'.lookup name = some t) ∧
    (∀ k values next, p.afterRounds k = some values → learnRound p values = some next →
      next.length = values.length → ∀ n, p.afterRounds (k + 1 + n) = some next) ∧
    p.values = p.afterRounds maxRounds ∧
    ∀ values name t, p.values = some values → p.valueNames.count name ≤ 1 → values.lookup name = some t →
      (∀ s, some s ∈ p.symbols values → s.kind = .const ∨ s.kind = .var → s.name = name → s.type = t) ∧
      ∀ package files table, Package.ofFiles files = p → tableOf package files = .ok table →
        isExported name = true →
        ∃ kind, (kind = .const ∨ kind = .var) ∧ table.get? name = some ⟨name, kind, none, t⟩ := by
  refine ⟨fun j k values values' name t hjk hj hk => keeps_afterRounds hp hjk hj hk name t,
    fun k values next => afterRounds_of_length_eq hp, values_eq_afterRounds hp,
    fun values name t hvalues hcount ht => ?_⟩
  have hv : Settled p values := settled_afterRounds hp ((values_eq_afterRounds hp).symm.trans hvalues)
  refine ⟨fun s => symbol_type hv ht hcount, ?_⟩
  rintro package files table rfl htable hexported
  have hall : none ∉ (Package.ofFiles files).symbols values := by
    obtain ⟨values', symbols, hvalues', hsymbols, _⟩ := (tableOf_eq_ok_iff _ _ _).1 htable
    obtain rfl : values' = values := Option.some.inj (hvalues'.symm.trans hvalues)
    simp [hsymbols]
  obtain ⟨kind, hkind, hsymbol⟩ := exists_symbol hv ht hcount hall
  refine ⟨kind, hkind, get?_of_tableOf htable hvalues hsymbol ?_⟩
  rcases hkind with rfl | rfl <;> simpa [Symbol.visible, Symbol.identifier] using hexported

/-- Values whose initializers stand below them, with several functions `init`, blank variables and a line of two
constants. -/
def forwardFile : File :=
  File.ofSource ("package p\nvar B = A\nvar A = f\nfunc f() \x7b\x7d\nfunc init() \x7b\x7d\nfunc init() \x7b\x7d\n" ++
    "var _ = 1\nvar _ = \"x\"\nconst C, D = 1, 2\n")

theorem value_types_stable_forward :
    (Package.ofFiles [forwardFile]).ClearMentions ∧ (Package.ofFiles [forwardFile]).declaredNames.count "init" = 2 ∧
      (Package.ofFiles [forwardFile]).values = (Package.ofFiles [forwardFile]).afterRounds maxRounds ∧
      (∃ first second t, (Package.ofFiles [forwardFile]).afterRounds 1 = some first ∧
        (Package.ofFiles [forwardFile]).afterRounds 2 = some second ∧ first.lookup "A" = some t ∧
        second.lookup "A" = some t) ∧
      ∃ values table t kind, (Package.ofFiles [forwardFile]).values = some values ∧
        tableOf "./p" [forwardFile] = .ok table ∧ values.lookup "B" = some t ∧
        table.get? "B" = some ⟨"B", kind, none, t⟩ := by
  have hclear : (Package.ofFiles [forwardFile]).ClearMentions := by decide +kernel
  obtain ⟨hkept, -, hrounds, hsymbols⟩ := value_types_stable (Package.ofFiles [forwardFile]) hclear
  refine ⟨hclear, by decide +kernel, hrounds, ?_, ?_⟩
  · have hA : (((Package.ofFiles [forwardFile]).afterRounds 1).bind (·.lookup "A")).isSome := by decide +kernel
    have hsecond : ((Package.ofFiles [forwardFile]).afterRounds 2).isSome := by decide +kernel
    obtain ⟨t, hA⟩ := Option.isSome_iff_exists.1 hA
    obtain ⟨first, hfirst, ht⟩ := Option.bind_eq_some_iff.1 hA
    obtain ⟨second, hsecond⟩ := Option.isSome_iff_exists.1 hsecond
    exact ⟨first, second, t, hfirst, hsecond, ht,
      hkept 1 2 first second "A" t (by omega) hfirst hsecond (by decide +kernel) ht⟩
  · have hB : ((Package.ofFiles [forwardFile]).values.bind (·.lookup "B")).isSome := by decide +kernel
    have hok : (tableOf "./p" [forwardFile]).isOk := by decide +kernel
    obtain ⟨t, hB⟩ := Option.isSome_iff_exists.1 hB
    obtain ⟨values, hvalues, ht⟩ := Option.bind_eq_some_iff.1 hB
    cases htable : tableOf "./p" [forwardFile] with
    | error cause =>
      rw [htable] at hok
      cases hok
    | ok table =>
      obtain ⟨kind, -, hget⟩ := (hsymbols values "B" t hvalues (by decide +kernel) ht).2 "./p" [forwardFile] table rfl
        htable (by decide +kernel)
      exact ⟨values, table, t, kind, hvalues, rfl, ht, hget⟩

/-- A variable and a function that are both called `init`. -/
def initFile : File :=
  File.ofSource "package p\nvar B = A\nvar A = init\nvar init = Y\nvar Y = 1\nfunc init() \x7b\x7d\n"

/-- The encoding of the type that is known for a name after some rounds. -/
def canonicalAfter (p : Package) (rounds : Nat) (name : String) : Option String :=
  ((p.afterRounds rounds).bind (·.lookup name)).map (·.canonical)

/-- Where an initializer mentions a variable that shares its name with a function, the function is found first:
`A` goes from a function to a number in a round that adds no name, `B` would follow in the next one, and its
symbol does. -/
theorem init_variable_unstable :
    (∀ name ∈ (Package.ofFiles [initFile]).declaredNames, name ≠ "init" →
        (Package.ofFiles [initFile]).declaredNames.count name = 1) ∧
      "_" ∉ (Package.ofFiles [initFile]).mentions ∧
      canonicalAfter (.ofFiles [initFile]) 2 "A" = some "func()" ∧
      canonicalAfter (.ofFiles [initFile]) 3 "A" = some "untyped int" ∧
      ((Package.ofFiles [initFile]).afterRounds 3).map List.length =
        ((Package.ofFiles [initFile]).afterRounds 2).map List.length ∧
      canonicalAfter (.ofFiles [initFile]) 3 "B" = some "func()" ∧
      canonicalAfter (.ofFiles [initFile]) 4 "B" = some "untyped int" ∧
      ((Package.ofFiles [initFile]).values.bind (·.lookup "B")).map (·.canonical) = some "func()" ∧
      ((tableOf "./p" [initFile]).toOption.bind (·.get? "B")).map (·.type.canonical) = some "untyped int" := by
  decide +kernel

end GoApi.Surface
