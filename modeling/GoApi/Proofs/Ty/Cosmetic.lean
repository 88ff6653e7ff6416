import GoApi.Proofs.Ty.Renaming

/-!
# Cosmetic differences

`Ty.Cosmetic` is the least congruence on descriptors that takes for equal what differs in

* the names of parameters and results,
* the order of an interface's methods, if these have names of their own,
* the order of an interface's embedded elements,
* the names of type parameters, as long as every reference means the same parameter.

Such differences are invisible, however deep they lie:

    a.Cosmetic b → a.canonical = b.canonical                          (canonical_of_cosmetic)

The induction is over the rules of the congruence, and what it carries is that the two sides are
spelled alike in every numbering scope (`Ty.SpelledAlike`), also where a slice is the last parameter of
a variadic list.  For renamed parameters, two scopes are followed in step through the binders of both
sides (`InStep`), so that the numbers of a reference agree.
-/

namespace GoApi

open Text (quote)

/-! ## Consistent renaming of type parameters -/

/-- The names that two descriptors bind in the same places, innermost first. -/
abbrev Pairing := List (String × String)

/-- Two references mean the same parameter: the innermost pair that binds one of them binds both, and a
free parameter is the same on both sides. -/
def SameReference : Pairing → String → String → Prop
  | [], m, m' => m = m'
  | (n, n') :: pairs, m, m' => (m = n ∧ m' = n') ∨ (m ≠ n ∧ m' ≠ n' ∧ SameReference pairs m m')

instance decidableSameReference :
    (pairs : Pairing) → (m m' : String) → Decidable (SameReference pairs m m')
  | [], m, m' => inferInstanceAs (Decidable (m = m'))
  | (n, n') :: pairs, m, m' =>
    have := decidableSameReference pairs m m'
    inferInstanceAs (Decidable ((m = n ∧ m' = n') ∨ (m ≠ n ∧ m' ≠ n' ∧ SameReference pairs m m')))

/-- The pairing inside two binder lists. -/
def Pairing.enter : Pairing → List String → List String → Pairing
  | pairs, n :: ns, n' :: ns' => enter ((n, n') :: pairs) ns ns'
  | pairs, _, _ => pairs

/-- The same tree up to the names of type parameters, where every reference means the same parameter on
both sides. -/
inductive Ty.Renamed : Pairing → Ty → Ty → Prop
  | basic {pairs : Pairing} (n : String) : Renamed pairs (.basic n) (.basic n)
  | named {pairs : Pairing} {p : Option String} {n : String} {args args' : List Ty}
      (hlen : args.length = args'.length) (h : ∀ x ∈ args.zip args', Renamed pairs x.1 x.2) :
      Renamed pairs (.named p n args) (.named p n args')
  | typeParam {pairs : Pairing} {m m' : String} (h : SameReference pairs m m') :
      Renamed pairs (.typeParam m) (.typeParam m')
  | pointer {pairs : Pairing} {e e' : Ty} (h : Renamed pairs e e') :
      Renamed pairs (.pointer e) (.pointer e')
  | slice {pairs : Pairing} {e e' : Ty} (h : Renamed pairs e e') : Renamed pairs (.slice e) (.slice e')
  | array {pairs : Pairing} {l : String} {e e' : Ty} (h : Renamed pairs e e') :
      Renamed pairs (.array l e) (.array l e')
  | map {pairs : Pairing} {k k' v v' : Ty} (hk : Renamed pairs k k') (hv : Renamed pairs v v') :
      Renamed pairs (.map k v) (.map k' v')
  | chan {pairs : Pairing} {d : ChanDir} {e e' : Ty} (h : Renamed pairs e e') :
      Renamed pairs (.chan d e) (.chan d e')
  | struct {pairs : Pairing} {fs fs' : List (Field Ty)}
      (hnames : fs.map (fun f => (f.name, f.embedded, f.exported)) =
        fs'.map fun f => (f.name, f.embedded, f.exported))
      (h : ∀ x ∈ fs.zip fs', Renamed pairs x.1.type x.2.type) : Renamed pairs (.struct fs) (.struct fs')
  | interface {pairs : Pairing} {ms ms' : List (Method Ty)} {es es' : List Ty}
      (hnames : ms.map (·.name) = ms'.map (·.name))
      (hsigs : ∀ x ∈ ms.zip ms', Renamed pairs (.func x.1.sig) (.func x.2.sig))
      (hlen : es.length = es'.length) (hes : ∀ x ∈ es.zip es', Renamed pairs x.1 x.2) :
      Renamed pairs (.interface ⟨ms, es⟩) (.interface ⟨ms', es'⟩)
  | func {pairs : Pairing} {g g' : Signature Ty}
      (hreceiver : g.receiverBinders.length = g'.receiverBinders.length)
      (hbinders : g.binders.length = g'.binders.length)
      (hconstraints : ∀ x ∈ g.binders.zip g'.binders,
        Renamed (pairs.enter g.bound g'.bound) x.1.constraint x.2.constraint)
      (hparams : g.params.map (·.name) = g'.params.map (·.name))
      (hps : ∀ x ∈ g.params.zip g'.params, Renamed (pairs.enter g.bound g'.bound) x.1.type x.2.type)
      (hresults : g.results.map (·.name) = g'.results.map (·.name))
      (hqs : ∀ x ∈ g.results.zip g'.results, Renamed (pairs.enter g.bound g'.bound) x.1.type x.2.type)
      (hvariadic : g.variadic = g'.variadic) : Renamed pairs (.func g) (.func g')
  | union {pairs : Pairing} {ts ts' : List (Term Ty)} (htildes : ts.map (·.tilde) = ts'.map (·.tilde))
      (h : ∀ x ∈ ts.zip ts', Renamed pairs x.1.type x.2.type) : Renamed pairs (.union ts) (.union ts')
  | defined {pairs : Pairing} {n : String} {bs bs' : List (Binder Ty)} {a : Bool} {u u' : Ty}
      (hbinders : bs.length = bs'.length)
      (hconstraints : ∀ x ∈ bs.zip bs',
        Renamed (pairs.enter (binderNames bs) (binderNames bs')) x.1.constraint x.2.constraint)
      (hu : Renamed (pairs.enter (binderNames bs) (binderNames bs')) u u') :
      Renamed pairs (.defined n bs a u) (.defined n bs' a u')

/-! ## Two scopes in step -/

/-- Two numbering scopes of one depth that give one number to references that mean the same. -/
structure InStep (pairs : Pairing) (s s' : Scope) : Prop where
  numbered : s.numbered = true
  numbered' : s'.numbered = true
  depth : s.bindings.length = s'.bindings.length
  lookup : ∀ m m', SameReference pairs m m' → s.lookup m = s'.lookup m'

variable {pairs : Pairing} {s s' : Scope}

theorem InStep.refl (hs : s.numbered = true) : InStep [] s s :=
  ⟨hs, hs, rfl, fun m m' h => by rw [show m = m' from h]⟩

/-- The next spelling depends on how many names are bound, not on the names. -/
theorem InStep.spellingOf (h : InStep pairs s s') (n n' : String) :
    s.spellingOf n = s'.spellingOf n' := by
  rw [Scope.spellingOf, Scope.spellingOf, if_pos h.numbered, if_pos h.numbered', h.depth]

/-- The innermost binding of a name hides those further out. -/
theorem lookup_bind (s : Scope) (n m : String) :
    (s.bind n).lookup m = if m = n then s.spellingOf n else s.lookup m := by
  unfold Scope.lookup Scope.bind
  rw [List.lookup_cons]
  by_cases h : m = n
  · simp [h]
  · rw [beq_eq_false_iff_ne.2 h, if_neg h]

theorem InStep.bind (h : InStep pairs s s') (n n' : String) :
    InStep ((n, n') :: pairs) (s.bind n) (s'.bind n') where
  numbered := h.numbered
  numbered' := h.numbered'
  depth := congrArg (· + 1) h.depth
  lookup m m' hm := by
    rw [lookup_bind, lookup_bind]
    rcases hm with ⟨rfl, rfl⟩ | ⟨hne, hne', hm⟩
    · rw [if_pos rfl, if_pos rfl, h.spellingOf]
    · rw [if_neg hne, if_neg hne', h.lookup m m' hm]

/-- Two scopes stay in step when they bind equally many names. -/
theorem InStep.bindAll (h : InStep pairs s s') {ns ns' : List String} (hlen : ns.length = ns'.length) :
    InStep (pairs.enter ns ns') (s.bindAll ns) (s'.bindAll ns') := by
  induction ns generalizing pairs s s' ns' with
  | nil =>
    obtain rfl := List.length_eq_zero_iff.1 hlen.symm
    exact h
  | cons n ns ih =>
    cases ns' with
    | nil => cases hlen
    | cons n' ns' => exact ih (h.bind n n') (Nat.succ.inj hlen)

theorem InStep.spellings (h : InStep pairs s s') {ns ns' : List String} (hlen : ns.length = ns'.length) :
    s.spellings ns = s'.spellings ns' := by
  induction ns generalizing pairs s s' ns' with
  | nil =>
    obtain rfl := List.length_eq_zero_iff.1 hlen.symm
    rfl
  | cons n ns ih =>
    cases ns' with
    | nil => cases hlen
    | cons n' ns' =>
      rw [Scope.spellings, Scope.spellings, h.spellingOf n n', ih (h.bind n n') (Nat.succ.inj hlen)]

theorem bindAll_append (s : Scope) (ns ms : List String) :
    s.bindAll (ns ++ ms) = (s.bindAll ns).bindAll ms := by
  induction ns generalizing s with
  | nil => rfl
  | cons n ns ih => exact ih (s.bind n)

/-- Binders take their names from `ns`, so only their constraints are compared. -/
theorem respellBinders_congr {ns : List String} {bs bs' : List (Binder Ty)}
    (hlen : bs.length = bs'.length)
    (h : ∀ x ∈ bs.zip bs', x.1.constraint.respell s = x.2.constraint.respell s') :
    Ty.respellBinders s ns bs = Ty.respellBinders s' ns bs' := by
  induction bs generalizing ns bs' with
  | nil =>
    obtain rfl := List.length_eq_zero_iff.1 hlen.symm
    cases ns <;> rfl
  | cons b bs ih =>
    cases bs' with
    | nil => cases hlen
    | cons b' bs' =>
      cases ns with
      | nil => rfl
      | cons n ns =>
        simp only [Ty.respellBinders, h (b, b') (by simp)]
        rw [ih (Nat.succ.inj hlen) fun x hx => h x (by simp [hx])]

theorem respellParams_congr {ps ps' : List (Param Ty)} (hnames : ps.map (·.name) = ps'.map (·.name))
    (h : ∀ x ∈ ps.zip ps', x.1.type.respell s = x.2.type.respell s') :
    Ty.respellParams s ps = Ty.respellParams s' ps' := by
  rw [respellParams_eq_map, respellParams_eq_map]
  refine map_eq_of_zip (by simpa using congrArg List.length hnames) fun x hx => ?_
  rw [h x hx, eq_of_zip hnames hx]

/-- Consistently renamed descriptors are numbered alike. -/
theorem Ty.Renamed.respell_eq {t t' : Ty} (h : Ty.Renamed pairs t t') (hstep : InStep pairs s s') :
    t.respell s = t'.respell s' := by
  induction h generalizing s s' with
  | basic n => rw [Ty.respell, Ty.respell]
  | named hlen _ ih =>
    rw [Ty.respell, Ty.respell, respellList_eq_map, respellList_eq_map,
      map_eq_of_zip hlen fun x hx => ih x hx hstep]
  | typeParam h => rw [Ty.respell, Ty.respell, hstep.lookup _ _ h]
  | pointer _ ih => rw [Ty.respell, Ty.respell, ih hstep]
  | slice _ ih => rw [Ty.respell, Ty.respell, ih hstep]
  | array _ ih => rw [Ty.respell, Ty.respell, ih hstep]
  | map _ _ ihk ihv => rw [Ty.respell, Ty.respell, ihk hstep, ihv hstep]
  | chan _ ih => rw [Ty.respell, Ty.respell, ih hstep]
  | struct hnames _ ih =>
    rw [Ty.respell, Ty.respell, respellFields_eq_map, respellFields_eq_map]
    refine congrArg Ty.struct (map_eq_of_zip (by simpa using congrArg List.length hnames) fun x hx => ?_)
    obtain ⟨hname, hembedded, hexported⟩ := by simpa using eq_of_zip hnames hx
    rw [ih x hx hstep, hname, hembedded, hexported]
  | interface hnames _ hlen _ ihsigs ihes =>
    rw [Ty.respell, Ty.respell, respellMethods_eq_map, respellMethods_eq_map, respellList_eq_map,
      respellList_eq_map, map_eq_of_zip hlen fun x hx => ihes x hx hstep]
    refine congrArg (fun ms => Ty.interface ⟨ms, _⟩)
      (map_eq_of_zip (by simpa using congrArg List.length hnames) fun x hx => ?_)
    have hsig := ihsigs x hx hstep
    rw [Ty.respell, Ty.respell, Ty.func.injEq] at hsig
    rw [eq_of_zip hnames hx, Signature.respell, Signature.respell, hsig]
  | @func pairs g g' hreceiver hbinders _ hparams _ hresults _ hvariadic ihbs ihps ihqs =>
    obtain ⟨bs, rs, ps, qs, v⟩ := g
    obtain ⟨bs', rs', ps', qs', v'⟩ := g'
    obtain rfl : v = v' := hvariadic
    have hnames : (binderNames bs).length = (binderNames bs').length := by
      simpa [binderNames] using hbinders
    -- the binders of the receiver are numbered first, and constraints see all binders
    have houter := hstep.bindAll hreceiver
    have hinner : InStep (pairs.enter (rs ++ binderNames bs) (rs' ++ binderNames bs'))
        ((s.bindAll rs).bindAll (binderNames bs)) ((s'.bindAll rs').bindAll (binderNames bs')) := by
      rw [← bindAll_append, ← bindAll_append]
      exact hstep.bindAll (by rw [List.length_append, List.length_append, hnames, hreceiver])
    rw [Ty.respell, Ty.respell, Ty.respellSignature, Ty.respellSignature, hstep.spellings hreceiver,
      houter.spellings hnames, respellBinders_congr hbinders fun x hx => ihbs x hx hinner,
      respellParams_congr hparams fun x hx => ihps x hx hinner,
      respellParams_congr hresults fun x hx => ihqs x hx hinner]
  | union htildes _ ih =>
    rw [Ty.respell, Ty.respell, respellTerms_eq_map, respellTerms_eq_map]
    refine congrArg Ty.union (map_eq_of_zip (by simpa using congrArg List.length htildes) fun x hx => ?_)
    rw [ih x hx hstep, eq_of_zip htildes hx]
  | @defined pairs n bs bs' a u u' hbinders _ _ ihbs ihu =>
    have hnames : (binderNames bs).length = (binderNames bs').length := by
      simpa [binderNames] using hbinders
    have hinner := hstep.bindAll hnames
    rw [Ty.respell, Ty.respell, hstep.spellings hnames, ihu hinner,
      respellBinders_congr hbinders fun x hx => ihbs x hx hinner]

/-! ## The congruence -/

/-- The least congruence on descriptors that contains the four cosmetic differences. -/
inductive Ty.Cosmetic : Ty → Ty → Prop
  | refl (t : Ty) : Cosmetic t t
  | symm {t t' : Ty} (h : Cosmetic t t') : Cosmetic t' t
  | trans {t t' t'' : Ty} (h : Cosmetic t t') (h' : Cosmetic t' t'') : Cosmetic t t''
  | paramNames {bs : List (Binder Ty)} {rs : List String} {ps ps' qs qs' : List (Param Ty)} {v : Bool}
      (hps : ps.map (·.type) = ps'.map (·.type)) (hqs : qs.map (·.type) = qs'.map (·.type)) :
      Cosmetic (.func ⟨bs, rs, ps, qs, v⟩) (.func ⟨bs, rs, ps', qs', v⟩)
  | methodOrder {ms ms' : List (Method Ty)} {es : List Ty} (h : ms.Perm ms')
      (hnd : (ms.map (·.name)).Nodup) : Cosmetic (.interface ⟨ms, es⟩) (.interface ⟨ms', es⟩)
  | elementOrder {ms : List (Method Ty)} {es es' : List Ty} (h : es.Perm es') :
      Cosmetic (.interface ⟨ms, es⟩) (.interface ⟨ms, es'⟩)
  | renamed {t t' : Ty} (h : t.Renamed [] t') : Cosmetic t t'
  | named {p : Option String} {n : String} {args args' : List Ty} (hlen : args.length = args'.length)
      (h : ∀ x ∈ args.zip args', Cosmetic x.1 x.2) : Cosmetic (.named p n args) (.named p n args')
  | pointer {e e' : Ty} (h : Cosmetic e e') : Cosmetic (.pointer e) (.pointer e')
  | slice {e e' : Ty} (h : Cosmetic e e') : Cosmetic (.slice e) (.slice e')
  | array {l : String} {e e' : Ty} (h : Cosmetic e e') : Cosmetic (.array l e) (.array l e')
  | map {k k' v v' : Ty} (hk : Cosmetic k k') (hv : Cosmetic v v') : Cosmetic (.map k v) (.map k' v')
  | chan {d : ChanDir} {e e' : Ty} (h : Cosmetic e e') : Cosmetic (.chan d e) (.chan d e')
  | struct {fs fs' : List (Field Ty)}
      (hnames : fs.map (fun f => (f.name, f.embedded, f.exported)) =
        fs'.map fun f => (f.name, f.embedded, f.exported))
      (h : ∀ x ∈ fs.zip fs', Cosmetic x.1.type x.2.type) : Cosmetic (.struct fs) (.struct fs')
  | interface {ms ms' : List (Method Ty)} {es es' : List Ty}
      (hnames : ms.map (·.name) = ms'.map (·.name))
      (hsigs : ∀ x ∈ ms.zip ms', Cosmetic (.func x.1.sig) (.func x.2.sig))
      (hlen : es.length = es'.length) (hes : ∀ x ∈ es.zip es', Cosmetic x.1 x.2) :
      Cosmetic (.interface ⟨ms, es⟩) (.interface ⟨ms', es'⟩)
  | func {bs bs' : List (Binder Ty)} {rs : List String} {ps ps' qs qs' : List (Param Ty)} {v : Bool}
      (hbinders : binderNames bs = binderNames bs')
      (hbs : ∀ x ∈ bs.zip bs', Cosmetic x.1.constraint x.2.constraint)
      (hparams : ps.map (·.name) = ps'.map (·.name))
      (hps : ∀ x ∈ ps.zip ps', Cosmetic x.1.type x.2.type)
      (hresults : qs.map (·.name) = qs'.map (·.name))
      (hqs : ∀ x ∈ qs.zip qs', Cosmetic x.1.type x.2.type) :
      Cosmetic (.func ⟨bs, rs, ps, qs, v⟩) (.func ⟨bs', rs, ps', qs', v⟩)
  | union {ts ts' : List (Term Ty)} (htildes : ts.map (·.tilde) = ts'.map (·.tilde))
      (h : ∀ x ∈ ts.zip ts', Cosmetic x.1.type x.2.type) : Cosmetic (.union ts) (.union ts')
  | defined {n : String} {bs bs' : List (Binder Ty)} {a : Bool} {u u' : Ty}
      (hbinders : binderNames bs = binderNames bs')
      (hbs : ∀ x ∈ bs.zip bs', Cosmetic x.1.constraint x.2.constraint) (hu : Cosmetic u u') :
      Cosmetic (.defined n bs a u) (.defined n bs' a u')

/-! ## Spelled alike -/

/-- The same text in every numbering scope, wherever the descriptor stands.  After `chan` it matters
whether a receive-only channel follows. -/
structure Ty.SpelledAlike (t t' : Ty) : Prop where
  receiveOnly : t.isReceiveOnly = t'.isReceiveOnly
  text : ∀ s : Scope, s.numbered = true → SameText quote (t.respell s) (t'.respell s)

theorem Ty.SpelledAlike.refl (t : Ty) : t.SpelledAlike t := ⟨rfl, fun _ _ => ⟨rfl, rfl⟩⟩

theorem Ty.SpelledAlike.symm {t t' : Ty} (h : t.SpelledAlike t') : t'.SpelledAlike t :=
  ⟨h.receiveOnly.symm, fun s hs => ⟨(h.text s hs).1.symm, (h.text s hs).2.symm⟩⟩

theorem Ty.SpelledAlike.trans {t t' t'' : Ty} (h : t.SpelledAlike t') (h' : t'.SpelledAlike t'') :
    t.SpelledAlike t'' :=
  ⟨h.receiveOnly.trans h'.receiveOnly, fun s hs =>
    ⟨(h.text s hs).1.trans (h'.text s hs).1, (h.text s hs).2.trans (h'.text s hs).2⟩⟩

/-- Types that are equal after numbering are written alike in every numbering scope. -/
theorem Ty.SpelledAlike.of_respell {t t' : Ty}
    (h : ∀ s : Scope, s.numbered = true → t.respell s = t'.respell s) : t.SpelledAlike t' := by
  refine ⟨?_, fun s hs => by rw [h s hs]; exact ⟨rfl, rfl⟩⟩
  rw [← isReceiveOnly_respell .positional t, h .positional rfl, isReceiveOnly_respell]

theorem numbered_bindAll (s : Scope) (ns : List String) : (s.bindAll ns).numbered = s.numbered := by
  induction ns generalizing s with
  | nil => rfl
  | cons n ns ih => exact ih (s.bind n)

theorem writeBinders_congr {s : Scope} {ns : List String} {bs bs' : List (Binder Ty)}
    (hs : s.numbered = true) (hlen : bs.length = bs'.length)
    (h : ∀ x ∈ bs.zip bs', x.1.constraint.SpelledAlike x.2.constraint) :
    Ty.writeBinders quote (Ty.respellBinders s ns bs) =
      Ty.writeBinders quote (Ty.respellBinders s ns bs') := by
  induction bs generalizing ns bs' with
  | nil =>
    obtain rfl := List.length_eq_zero_iff.1 hlen.symm
    rfl
  | cons b bs ih =>
    cases bs' with
    | nil => cases hlen
    | cons b' bs' =>
      cases ns with
      | nil => rfl
      | cons n ns =>
        rw [Ty.respellBinders, Ty.respellBinders, Ty.writeBinders, Ty.writeBinders,
          ((h (b, b') (by simp)).text s hs).1, ih (Nat.succ.inj hlen) fun x hx => h x (by simp [hx])]

/-- A parameter list is written the same when its types are, since names of parameters are not
written. -/
theorem writeParams_respell {s : Scope} (v : Bool) {ps ps' : List (Param Ty)} (hs : s.numbered = true)
    (hlen : ps.length = ps'.length) (h : ∀ x ∈ ps.zip ps', x.1.type.SpelledAlike x.2.type) :
    Ty.writeParams quote v (Ty.respellParams s ps) =
      Ty.writeParams quote v (Ty.respellParams s ps') := by
  refine writeParams_congr v ?_
  rw [respellParams_eq_map, respellParams_eq_map, List.forall₂_map_left_iff, List.forall₂_map_right_iff,
    List.forall₂_iff_zip]
  exact ⟨hlen, fun hx => (h _ hx).text s hs⟩

/-- Signatures with the same binders whose parts are spelled alike. -/
theorem spelledAlike_func {bs bs' : List (Binder Ty)} {rs : List String}
    {ps ps' qs qs' : List (Param Ty)} {v : Bool} (hbinders : binderNames bs = binderNames bs')
    (hbs : ∀ x ∈ bs.zip bs', x.1.constraint.SpelledAlike x.2.constraint)
    (hparams : ps.length = ps'.length) (hps : ∀ x ∈ ps.zip ps', x.1.type.SpelledAlike x.2.type)
    (hresults : qs.length = qs'.length)
    (hqs : ∀ x ∈ qs.zip qs', x.1.type.SpelledAlike x.2.type) :
    Ty.SpelledAlike (.func ⟨bs, rs, ps, qs, v⟩) (.func ⟨bs', rs, ps', qs', v⟩) := by
  refine ⟨rfl, fun s hs => ⟨?_, by simp [Ty.respell, Ty.elemText?]⟩⟩
  have hinner : ((s.bindAll rs).bindAll (binderNames bs')).numbered = true := by
    rw [numbered_bindAll, numbered_bindAll, hs]
  have hlen : bs.length = bs'.length := by simpa [binderNames] using congrArg List.length hbinders
  simp only [Ty.respell, Ty.respellSignature, Ty.write, Ty.writeSignature, hbinders,
    writeBinders_congr hinner hlen hbs, writeParams_respell _ hinner hparams hps,
    writeParams_respell _ hinner hresults hqs]

theorem writeSignature_of_spelledAlike {s : Scope} {g g' : Signature Ty} (hs : s.numbered = true)
    (h : Ty.SpelledAlike (.func g) (.func g')) :
    Ty.writeSignature quote (g.respell s) = Ty.writeSignature quote (g'.respell s) := by
  have htext := (h.text s hs).1
  rw [Ty.respell, Ty.respell, Ty.write, Ty.write] at htext
  exact (String.append_right_inj _).1 htext

/-- Interfaces with the same method names in the same order are spelled alike where signatures and
elements are. -/
theorem spelledAlike_interface {ms ms' : List (Method Ty)} {es es' : List Ty}
    (hnames : ms.map (·.name) = ms'.map (·.name))
    (hsigs : ∀ x ∈ ms.zip ms', Ty.SpelledAlike (.func x.1.sig) (.func x.2.sig))
    (hlen : es.length = es'.length) (hes : ∀ x ∈ es.zip es', x.1.SpelledAlike x.2) :
    Ty.SpelledAlike (.interface ⟨ms, es⟩) (.interface ⟨ms', es'⟩) := by
  refine ⟨rfl, fun s hs => ⟨?_, by simp [Ty.respell, Ty.elemText?]⟩⟩
  have hmethods : ms.map (methodLine quote s) = ms'.map (methodLine quote s) := by
    refine map_eq_of_zip (by simpa using congrArg List.length hnames) fun x hx => ?_
    rw [methodLine, methodLine, eq_of_zip hnames hx, writeSignature_of_spelledAlike hs (hsigs x hx)]
  have helements : es.map (fun e => (e.respell s).write quote) =
      es'.map fun e => (e.respell s).write quote :=
    map_eq_of_zip hlen fun x hx => ((hes x hx).text s hs).1
  rw [write_interface, write_interface, hmethods, helements]

theorem rel_zip_of_map_eq {α β : Type} {f : α → β} {R : β → β → Prop} (hrefl : ∀ b, R b b)
    {xs ys : List α} (h : xs.map f = ys.map f) : ∀ x ∈ xs.zip ys, R (f x.1) (f x.2) := by
  intro x hx
  rw [eq_of_zip h hx]
  exact hrefl _

/-- What the induction over the rules carries. -/
theorem Ty.Cosmetic.spelledAlike {t t' : Ty} (h : t.Cosmetic t') : t.SpelledAlike t' := by
  induction h with
  | refl t => exact .refl t
  | symm _ ih => exact ih.symm
  | trans _ _ ih ih' => exact ih.trans ih'
  | paramNames hps hqs =>
    exact spelledAlike_func rfl (rel_zip_of_map_eq .refl rfl)
      (by simpa using congrArg List.length hps) (rel_zip_of_map_eq .refl hps)
      (by simpa using congrArg List.length hqs) (rel_zip_of_map_eq .refl hqs)
  | methodOrder h hnd =>
    refine ⟨rfl, fun s _ => ⟨?_, by simp [Ty.respell, Ty.elemText?]⟩⟩
    exact interface_write_eq quote h ((h.map _).nodup_iff.1 hnd) rfl (.refl _) rfl
  | @elementOrder ms es es' h =>
    refine ⟨rfl, fun s _ => ⟨?_, by simp [Ty.respell, Ty.elemText?]⟩⟩
    have helements : sortBy id (es.map fun e => (e.respell s).write quote) =
        sortBy id (es'.map fun e => (e.respell s).write quote) :=
      sortBy_eq_of_perm _ _ _ (h.map _) fun _ _ _ _ heq => heq
    rw [write_interface, write_interface, helements]
  | renamed h => exact .of_respell fun s hs => h.respell_eq (.refl hs)
  | @named p n args args' hlen _ ih =>
    refine ⟨rfl, fun s hs => ⟨?_, by simp [Ty.respell, Ty.elemText?]⟩⟩
    have hargs : (args.map (·.respell s)).map (·.write quote) =
        (args'.map (·.respell s)).map (·.write quote) := by
      rw [List.map_map, List.map_map]
      exact map_eq_of_zip hlen fun x hx => ((ih x hx).text s hs).1
    cases p <;> simp only [Ty.respell, Ty.write, respellList_eq_map, writeList_eq_map, hargs]
  | pointer _ ih =>
    refine ⟨rfl, fun s hs => ⟨?_, by simp [Ty.respell, Ty.elemText?]⟩⟩
    simp only [Ty.respell, Ty.write, (ih.text s hs).1]
  | slice _ ih =>
    refine ⟨rfl, fun s hs => ?_⟩
    simp only [SameText, Ty.respell, Ty.write, Ty.elemText?, (ih.text s hs).1, and_self]
  | array _ ih =>
    refine ⟨rfl, fun s hs => ⟨?_, by simp [Ty.respell, Ty.elemText?]⟩⟩
    simp only [Ty.respell, Ty.write, (ih.text s hs).1]
  | map _ _ ihk ihv =>
    refine ⟨rfl, fun s hs => ⟨?_, by simp [Ty.respell, Ty.elemText?]⟩⟩
    simp only [Ty.respell, Ty.write, (ihk.text s hs).1, (ihv.text s hs).1]
  | @chan d e e' _ ih =>
    refine ⟨by cases d <;> rfl, fun s hs => ⟨?_, by simp [Ty.respell, Ty.elemText?]⟩⟩
    simp only [Ty.respell, Ty.write, isReceiveOnly_respell, ih.receiveOnly, (ih.text s hs).1]
  | struct hnames _ ih =>
    refine ⟨rfl, fun s hs => ⟨?_, by simp [Ty.respell, Ty.elemText?]⟩⟩
    simp only [Ty.respell, Ty.write, respellFields_eq_map, writeFields_eq_map, List.map_map]
    congr 3
    refine map_eq_of_zip (by simpa using congrArg List.length hnames) fun x hx => ?_
    obtain ⟨hname, hembedded, _⟩ := by simpa using eq_of_zip hnames hx
    simp only [Function.comp_apply, fieldText, hname, hembedded, ((ih x hx).text s hs).1]
  | interface hnames _ hlen _ ihsigs ihes => exact spelledAlike_interface hnames ihsigs hlen ihes
  | func hbinders _ hparams _ hresults _ ihbs ihps ihqs =>
    exact spelledAlike_func hbinders ihbs (by simpa using congrArg List.length hparams) ihps
      (by simpa using congrArg List.length hresults) ihqs
  | union htildes _ ih =>
    refine ⟨rfl, fun s hs => ⟨?_, by simp [Ty.respell, Ty.elemText?]⟩⟩
    simp only [Ty.respell, Ty.write, respellTerms_eq_map, writeTerms_eq_map, List.map_map]
    congr 1
    refine map_eq_of_zip (by simpa using congrArg List.length htildes) fun x hx => ?_
    simp only [Function.comp_apply, termText, eq_of_zip htildes hx, ((ih x hx).text s hs).1]
  | @defined n bs bs' a u u' hbinders _ _ ihbs ihu =>
    refine ⟨rfl, fun s hs => ⟨?_, by simp [Ty.respell, Ty.elemText?]⟩⟩
    have hinner : (s.bindAll (binderNames bs')).numbered = true := by rw [numbered_bindAll, hs]
    have hlen : bs.length = bs'.length := by
      simpa [binderNames] using congrArg List.length hbinders
    simp only [Ty.respell, Ty.write, hbinders, writeBinders_congr hinner hlen ihbs,
      (ihu.text _ hinner).1]

/-- Cosmetic differences do not change the encoding, so they are no change of the type. -/
theorem canonical_of_cosmetic (a b : Ty) (h : a.Cosmetic b) :
    a.canonical = b.canonical ∧ a.identical b = true := by
  have htext : a.canonical = b.canonical := (h.spelledAlike.text .positional rfl).1
  exact ⟨htext, beq_iff_eq.2 htext⟩

/-- The methods of a generic type with parameter `p`; the second one binds `q`. -/
def keyedMethods (p q element convert : String) : List (Method Ty) :=
  [⟨"Add", { params := [⟨element, .typeParam p⟩] }⟩,
    ⟨"Convert", { binders := [⟨q, .emptyInterface⟩],
                  params := [⟨convert, .func (.plain [.typeParam p] [.typeParam q])⟩] }⟩]

def keyed (p : String) (ms : List (Method Ty)) : Ty :=
  .defined "Keyed" [⟨p, .emptyInterface⟩] false (.map (.basic "string") (.interface ⟨ms, []⟩))

def keyedBefore : Ty := keyed "T" (keyedMethods "T" "U" "x" "f")

/-- The names `T` and `U` trade places, the methods too, and their parameters have other names. -/
def keyedAfter : Ty := keyed "U" (keyedMethods "U" "T" "e" "to").reverse

theorem canonical_of_cosmetic_swapped :
    keyedBefore.Cosmetic keyedAfter ∧ keyedBefore.canonical = keyedAfter.canonical ∧
      keyedBefore.identical keyedAfter = true := by
  have hany : ∀ pairs, Ty.Renamed pairs .emptyInterface .emptyInterface := fun _ =>
    .interface rfl (by simp) rfl (by simp)
  have hbinders : keyedBefore.Cosmetic (keyed "U" (keyedMethods "U" "T" "x" "f")) := by
    refine .renamed (.defined rfl (by simpa using hany _) (.map (.basic _) ?_))
    refine .interface rfl ?_ rfl (by simp)
    simp only [keyedMethods, List.zip_cons_cons, List.zip_nil_left, List.forall_mem_cons]
    refine ⟨.func rfl rfl (by simp) rfl ?_ rfl (by simp) rfl, ?_, by simp⟩
    · exact List.forall_mem_singleton.2 (.typeParam (by decide))
    · -- inside `Convert` both names are bound, and each means the other's place
      have hconvert : Ty.Renamed [("U", "T"), ("T", "U")]
          (.func (.plain [.typeParam "T"] [.typeParam "U"]))
          (.func (.plain [.typeParam "U"] [.typeParam "T"])) :=
        .func rfl rfl (by simp [Signature.plain]) rfl
          (List.forall_mem_singleton.2 (.typeParam (by decide))) rfl
          (List.forall_mem_singleton.2 (.typeParam (by decide))) rfl
      exact .func rfl rfl (by simpa using hany _) rfl (List.forall_mem_singleton.2 hconvert) rfl
        (by simp) rfl
  have hnames : (keyed "U" (keyedMethods "U" "T" "x" "f")).Cosmetic
      (keyed "U" (keyedMethods "U" "T" "e" "to")) := by
    refine .defined rfl (by simpa using .refl _) (.map (.refl _) (.interface rfl ?_ rfl (by simp)))
    simp only [keyedMethods, List.zip_cons_cons, List.zip_nil_left, List.forall_mem_cons]
    exact ⟨.paramNames rfl rfl, .paramNames rfl rfl, by simp⟩
  have horder : (keyed "U" (keyedMethods "U" "T" "e" "to")).Cosmetic keyedAfter :=
    .defined rfl (by simpa using .refl _)
      (.map (.refl _) (.methodOrder (List.reverse_perm _).symm (by decide)))
  have h : keyedBefore.Cosmetic keyedAfter := (hbinders.trans hnames).trans horder
  exact ⟨h, canonical_of_cosmetic _ _ h⟩

end GoApi
