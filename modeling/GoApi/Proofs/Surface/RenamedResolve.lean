import GoApi.Proofs.Surface.Renamed

/-!
# Resolving renamed type expressions

Type expressions that differ in the names of type parameters resolve to descriptors that do
(`resolve_renamed`), or neither has an end.  The mutual recursion follows the one of `resolve`: a reference
is bound on both sides or means the same outside, an embedded interface is replaced by the same closed body
on both sides, and the elements of a literal are related before they are merged, so that it is known which
of them coincide.
-/

namespace GoApi.Surface

open Source

/-! ## Names -/

/-- A plain name. -/
def plainName? : TypeExpr → Option String
  | .name name => some name
  | _ => none

section Resolve

variable {literals : List (Element TypeExpr) → List (Element TypeExpr) → Prop} {pairs : Pairing}

/-- A bare name is renamed to a bare name: to its partner, or to itself where it is not a
parameter. -/
theorem plainName?_renamed {t t' : TypeExpr} (h : RenamedType literals pairs t t') :
    Option.Rel (SameReference pairs) (plainName? t) (plainName? t') := by
  unfold RenamedType at h
  split at h
  · exact .some h
  all_goals first | exact .none | exact h.elim

theorem loneName?_renamed {ts ts' : List TypeExpr} (h : RenamedTerms literals pairs ts ts') :
    Option.Rel (SameReference pairs) (loneName? ts) (loneName? ts') := by
  have hsingle : ∀ t : TypeExpr, loneName? [t] = plainName? t := fun t => by cases t <;> rfl
  have hmany : ∀ (t u : TypeExpr) (rest : List TypeExpr), loneName? (t :: u :: rest) = none :=
    fun t u rest => by cases t <;> rfl
  unfold RenamedTerms at h
  split at h
  · exact .none
  · next t rest t' rest' =>
    obtain ⟨ht, hrest⟩ := h
    unfold RenamedTerms at hrest
    split at hrest
    · rw [hsingle, hsingle]
      exact plainName?_renamed ht
    · rw [hmany, hmany]
      exact .none
    · exact hrest.elim
  · exact h.elim

theorem isTilde_renamed {t t' : TypeExpr} (h : RenamedType literals pairs t t') : isTilde t = isTilde t' := by
  unfold RenamedType at h
  split at h <;> first | rfl | exact h.elim

variable {p : Package} {site site' : Site} (hlen : site.params.length = site'.params.length)

include hlen

/-- Partners are parameters on both sides, and any other name means the same on both. -/
theorem nameTy_renamed {m m' : String} (h : SameReference (site.pairing site') m m') :
    (p.nameTy site m).Renamed (site.pairing site') (p.nameTy site' m') := by
  rcases sameReference_enter hlen h with ⟨hm, hm'⟩ | ⟨hm, hm', heq⟩
  · rw [Package.nameTy, Package.nameTy, if_pos (List.contains_iff_mem.2 hm), if_pos (List.contains_iff_mem.2 hm')]
    exact .typeParam h
  · obtain rfl : m = m' := heq
    -- a name that is no parameter on either side has a meaning outside
    have houtside : ∀ site : Site, m ∉ site.params → p.nameTy site m = p.nameTy {} m := by
      intro site hm
      have hno : ¬ site.params.contains m = true := fun hcontains => hm (List.contains_iff_mem.1 hcontains)
      have hnone : ¬ ({} : Site).params.contains m = true := by simp
      rw [Package.nameTy, Package.nameTy, if_neg hno, if_neg hnone]
    rw [houtside site hm, houtside site' hm']
    exact renamed_of_formed (nameTy_formed p {} m)

omit hlen in
theorem flattened?_eq_bind (p : Package) (expand : Expansion) (site : Site) (depth : Nat) (ts : List TypeExpr) :
    flattened? p expand site depth ts =
      (loneName? ts).bind fun name => flattened? p expand site depth [.name name] := by
  unfold loneName?
  split
  · rfl
  · next hne =>
    unfold flattened?
    split
    · next name => exact absurd rfl (hne name)
    · rfl

/-- What an embedded name is replaced by does not depend on the names of type parameters. -/
theorem flattened?_renamed (expand : Expansion) (depth : Nat) {ts ts' : List TypeExpr}
    (h : RenamedTerms literals (site.pairing site') ts ts') :
    flattened? p expand site depth ts = flattened? p expand site' depth ts' := by
  rw [flattened?_eq_bind, flattened?_eq_bind p expand site']
  have hname := loneName?_renamed h
  generalize loneName? ts = name?, loneName? ts' = name?' at hname ⊢
  cases hname with
  | none => rfl
  | @some m m' h =>
    rw [Option.bind_some, Option.bind_some, flattened?, flattened?]
    rcases sameReference_enter hlen h with ⟨hm, hm'⟩ | ⟨hm, hm', heq⟩
    · rw [if_pos (List.contains_iff_mem.2 hm), if_pos (List.contains_iff_mem.2 hm')]
    · obtain rfl : m = m' := heq
      rw [if_neg fun hcontains => hm (List.contains_iff_mem.1 hcontains),
        if_neg fun hcontains => hm' (List.contains_iff_mem.1 hcontains)]

variable (hclosed : p.expand.Closed)

include hclosed

omit hlen in
/-- An interface that is taken over has no type parameters. -/
theorem flattened?_closed {depth : Nat} {ts : List TypeExpr} {body : Interface Ty}
    (h : flattened? p p.expand site depth ts = some (some body)) : (Ty.interface body).Formed [] := by
  rcases flattened?_cases p p.expand site depth ts with ⟨name, -, -, heq⟩ | ⟨-, ⟨-, heq⟩ | heq⟩
  · rw [heq, Option.some.injEq] at h
    exact hclosed name _ body h
  · rw [heq] at h
    cases h
    exact formed_error
  · rw [heq] at h
    cases h

section Element

variable {alternatives alternatives' : List TypeExpr}
  (h : RenamedTerms literals (site.pairing site') alternatives alternatives')
  (hterms : Option.Rel (List.Forall₂ (TermRenamed (site.pairing site')))
    (resolveTerms p p.expand site alternatives) (resolveTerms p p.expand site' alternatives'))

include h hterms

/-- What an element brings in on both sides, before it is merged. -/
theorem broughtIn_renamed : List.Forall₂ (Ty.Renamed (site.pairing site'))
    (p.broughtIn site (.terms alternatives)) (p.broughtIn site' (.terms alternatives')) := by
  rw [Package.broughtIn, Package.broughtIn, flattened?_renamed hlen p.expand 0 h]
  cases hflat : flattened? p p.expand site' 0 alternatives' with
  | none =>
    dsimp only
    generalize resolveTerms p p.expand site alternatives = ts?,
      resolveTerms p p.expand site' alternatives' = ts?' at hterms ⊢
    cases hterms with
    | none => exact .nil
    | some hts => exact .cons (unionOf_renamed hts) .nil
  | some body? =>
    cases body? with
    | none => exact .nil
    | some body =>
      have hself : (Ty.interface body).Renamed (site.pairing site') (.interface body) :=
        renamed_of_formed (flattened?_closed hclosed hflat)
      exact (renamed_interface_iff.1 hself).2

/-- One element more keeps two bodies renamed, if what it brings in coincides alike with the rest. -/
theorem element_renamed {among : List (Ty × Ty)}
    (hamong : ∀ x ∈ among, ∀ y ∈ among, x.1.identical y.1 = x.2.identical y.2)
    (hsub : ∀ x ∈ (p.broughtIn site (.terms alternatives)).zip (p.broughtIn site' (.terms alternatives')),
      x ∈ among)
    {before before' : Interface Ty} (hbefore : BodyRenamed (site.pairing site') among before before')
    {rest rest' : List (Element TypeExpr)}
    (hrest : ∀ {b b' : Interface Ty}, BodyRenamed (site.pairing site') among b b' →
      Option.Rel (BodyRenamed (site.pairing site') among) (resolveElements p p.expand site 0 b rest)
        (resolveElements p p.expand site' 0 b' rest')) :
    Option.Rel (BodyRenamed (site.pairing site') among)
      (resolveElements p p.expand site 0 before (.terms alternatives :: rest))
      (resolveElements p p.expand site' 0 before' (.terms alternatives' :: rest')) := by
  have hflat := flattened?_renamed (p := p) hlen p.expand 0 h
  rw [Package.broughtIn, Package.broughtIn, hflat] at hsub
  cases hflat' : flattened? p p.expand site' 0 alternatives' with
  | none =>
    rw [resolveElements_terms (hflat.trans hflat'), resolveElements_terms hflat']
    rw [hflat'] at hsub
    dsimp only at hsub
    generalize resolveTerms p p.expand site alternatives = ts?,
      resolveTerms p p.expand site' alternatives' = ts?' at hterms hsub ⊢
    cases hterms with
    | none => exact .none
    | some hts => exact hrest (withElement_renamed hamong hbefore hts (hsub _ (by simp)))
  | some body? =>
    rw [resolveElements, resolveElements, hflat, hflat']
    rw [hflat'] at hsub
    cases body? with
    | none => exact .none
    | some body =>
      exact hrest (merge_renamed hamong hbefore (bodyRenamed_of_formed (flattened?_closed hclosed hflat') hsub))

end Element

omit hclosed in
/-- Legible elements coincide alike. -/
theorem Undisturbed.sameCoincidences {es es' : List (Element TypeExpr)} (h : Undisturbed p site site' es es')
    (hrenamed : List.Forall₂ (Ty.Renamed (site.pairing site')) (p.elements site es) (p.elements site' es')) :
    SameCoincidences p site site' es es' := by
  rcases h with h | ⟨hleft, hright⟩
  · exact h
  · intro x hx y hy
    exact identical_eq_of_renamed hlen hleft.params hright.params
      (hleft.elements _ (List.of_mem_zip hx).1) (hleft.elements _ (List.of_mem_zip hy).1)
      (hright.elements _ (List.of_mem_zip hx).2) (hright.elements _ (List.of_mem_zip hy).2)
      (rel_of_mem_zip hrenamed hx) (rel_of_mem_zip hrenamed hy)

end Resolve

/-- Two places in packages with the same imports and as many type parameters. -/
structure Site.Parallel (site site' : Site) : Prop where
  params : site.params.length = site'.params.length
  imports : site.imports = site'.imports

section Parallel

variable {p : Package} {site site' : Site}

mutual

/-- Renamed type expressions resolve to renamed types, or fail together.  One case for each form,
in one mutual recursion with the lists inside. -/
theorem resolve_renamed (hsites : site.Parallel site') (hclosed : p.expand.Closed) (t t' : TypeExpr)
    (h : RenamedType (Undisturbed p site site') (site.pairing site') t t') :
    Option.Rel (Ty.Renamed (site.pairing site')) (resolve p p.expand site t) (resolve p p.expand site' t') := by
  cases t with
  | name m =>
    cases t' with
    | name m' =>
      rw [RenamedType] at h
      rw [resolve, resolve]
      exact .some (nameTy_renamed hsites.params h)
    | _ => simp [RenamedType] at h
  | qualified package name =>
    cases t' with
    | qualified package' name' =>
      rw [RenamedType] at h
      obtain ⟨rfl, rfl⟩ := h
      rw [resolve, resolve, Site.path, Site.path, hsites.imports]
      exact .some (renamed_named .nil)
    | _ => simp [RenamedType] at h
  | generic base args =>
    cases t' with
    | generic base' args' =>
      rw [RenamedType] at h
      rw [resolve, resolve]
      refine rel_bind (resolve_renamed hsites hclosed base base' h.1) fun b b' hb => ?_
      refine rel_bind (resolveArgs_renamed hsites hclosed args args' h.2) fun ts ts' hts => ?_
      exact .some (applyArgs_renamed hts hb)
    | _ => simp [RenamedType] at h
  | pointer elem =>
    cases t' with
    | pointer elem' =>
      rw [RenamedType] at h
      rw [resolve, resolve]
      exact rel_bind (resolve_renamed hsites hclosed elem elem' h) fun e e' he => .some (.pointer he)
    | _ => simp [RenamedType] at h
  | slice elem =>
    cases t' with
    | slice elem' =>
      rw [RenamedType] at h
      rw [resolve, resolve]
      exact rel_bind (resolve_renamed hsites hclosed elem elem' h) fun e e' he => .some (.slice he)
    | _ => simp [RenamedType] at h
  | array len elem =>
    cases t' with
    | array len' elem' =>
      rw [RenamedType] at h
      obtain ⟨rfl, h⟩ := h
      rw [resolve, resolve]
      exact rel_bind (resolve_renamed hsites hclosed elem elem' h) fun e e' he => .some (.array he)
    | _ => simp [RenamedType] at h
  | chan dir elem =>
    cases t' with
    | chan dir' elem' =>
      rw [RenamedType] at h
      obtain ⟨rfl, h⟩ := h
      rw [resolve, resolve]
      exact rel_bind (resolve_renamed hsites hclosed elem elem' h) fun e e' he => .some (.chan he)
    | _ => simp [RenamedType] at h
  | map key value =>
    cases t' with
    | map key' value' =>
      rw [RenamedType] at h
      rw [resolve, resolve]
      refine rel_bind (resolve_renamed hsites hclosed key key' h.1) fun k k' hk => ?_
      exact rel_bind (resolve_renamed hsites hclosed value value' h.2) fun v v' hv => .some (.map hk hv)
    | _ => simp [RenamedType] at h
  | func sig =>
    cases t' with
    | func sig' =>
      rw [RenamedType] at h
      rw [resolve, resolve]
      exact rel_bind (resolveSignature_renamed hsites hclosed sig sig' h) fun g g' hg => .some hg.renamed
    | _ => simp [RenamedType] at h
  | struct fields =>
    cases t' with
    | struct fields' =>
      rw [RenamedType] at h
      rw [resolve, resolve]
      exact rel_bind (resolveFields_renamed hsites hclosed fields fields' h) fun fs fs' hfs =>
        .some (renamed_struct hfs)
    | _ => simp [RenamedType] at h
  | interface es =>
    cases t' with
    | interface es' =>
      rw [RenamedType] at h
      obtain ⟨hes, hliterals⟩ := h
      rw [resolve, resolve]
      -- the elements are related before they are merged, so it is known which of them coincide
      have hsame := hliterals.sameCoincidences hsites.params (elements_renamed hsites hclosed es es' hes)
      refine rel_bind (resolveElements_renamed hsites hclosed hsame es es' hes (fun x hx => hx) ⟨.nil, .nil⟩) ?_
      exact fun body body' hbody => .some hbody.renamed
    | _ => simp [RenamedType] at h
  | paren inner =>
    cases t' with
    | paren inner' =>
      rw [RenamedType] at h
      rw [resolve, resolve]
      exact resolve_renamed hsites hclosed inner inner' h
    | _ => simp [RenamedType] at h
  | tilde inner =>
    cases t' with
    | tilde inner' =>
      rw [RenamedType] at h
      rw [resolve, resolve]
      refine rel_bind (resolve_renamed hsites hclosed inner inner' h) fun t t' ht => ?_
      exact .some (renamed_union (.cons ⟨rfl, ht⟩ .nil))
    | _ => simp [RenamedType] at h
  | terms alternatives =>
    cases t' with
    | terms alternatives' =>
      rw [RenamedType] at h
      rw [resolve, resolve]
      exact rel_bind (resolveTerms_renamed hsites hclosed alternatives alternatives' h) fun ts ts' hts =>
        .some (unionOf_renamed hts)
    | _ => simp [RenamedType] at h
  | verbatim text =>
    cases t' with
    | verbatim text' =>
      rw [RenamedType] at h
      obtain rfl := h
      rw [resolve, resolve]
      exact .some (.basic text)
    | _ => simp [RenamedType] at h
termination_by structural t

theorem resolveArgs_renamed (hsites : site.Parallel site') (hclosed : p.expand.Closed)
    (args args' : List (TypeArg TypeExpr))
    (h : RenamedArgs (Undisturbed p site site') (site.pairing site') args args') :
    Option.Rel (List.Forall₂ (Ty.Renamed (site.pairing site'))) (resolveArgs p p.expand site args)
      (resolveArgs p p.expand site' args') := by
  cases args with
  | nil =>
    cases args' with
    | nil =>
      rw [resolveArgs, resolveArgs]
      exact .some .nil
    | cons _ _ => simp [RenamedArgs] at h
  | cons arg rest =>
    cases args' with
    | nil => simp [RenamedArgs] at h
    | cons arg' rest' =>
      obtain ⟨text, terms⟩ := arg
      obtain ⟨text', terms'⟩ := arg'
      rw [RenamedArgs] at h
      rw [resolveArgs, resolveArgs]
      refine rel_bind (resolveTerms_renamed hsites hclosed terms terms' h.1) fun ts ts' hts => ?_
      refine rel_bind (resolveArgs_renamed hsites hclosed rest rest' h.2) fun more more' hmore => ?_
      exact .some (.cons (unionOf_renamed hts) hmore)
termination_by structural args

theorem resolveTerms_renamed (hsites : site.Parallel site') (hclosed : p.expand.Closed) (ts ts' : List TypeExpr)
    (h : RenamedTerms (Undisturbed p site site') (site.pairing site') ts ts') :
    Option.Rel (List.Forall₂ (TermRenamed (site.pairing site'))) (resolveTerms p p.expand site ts)
      (resolveTerms p p.expand site' ts') := by
  cases ts with
  | nil =>
    cases ts' with
    | nil =>
      rw [resolveTerms, resolveTerms]
      exact .some .nil
    | cons _ _ => simp [RenamedTerms] at h
  | cons type rest =>
    cases ts' with
    | nil => simp [RenamedTerms] at h
    | cons type' rest' =>
      rw [RenamedTerms] at h
      rw [resolveTerms, resolveTerms]
      refine rel_bind (resolve_renamed hsites hclosed type type' h.1) fun t t' ht => ?_
      refine rel_bind (resolveTerms_renamed hsites hclosed rest rest' h.2) fun more more' hmore => ?_
      rw [isTilde_renamed h.1]
      refine .some (.cons ?_ hmore)
      split
      · exact ⟨rfl, withoutTilde_renamed ht⟩
      · exact ⟨rfl, ht⟩
termination_by structural ts

theorem resolveParams_renamed (hsites : site.Parallel site') (hclosed : p.expand.Closed)
    (ps ps' : List (Param TypeExpr))
    (h : RenamedParams (Undisturbed p site site') (site.pairing site') ps ps') :
    Option.Rel (List.Forall₂ (ParamRenamed (site.pairing site'))) (resolveParams p p.expand site ps)
      (resolveParams p p.expand site' ps') := by
  cases ps with
  | nil =>
    cases ps' with
    | nil =>
      rw [resolveParams, resolveParams]
      exact .some .nil
    | cons _ _ => simp [RenamedParams] at h
  | cons q rest =>
    cases ps' with
    | nil => simp [RenamedParams] at h
    | cons q' rest' =>
      obtain ⟨name, type⟩ := q
      obtain ⟨name', type'⟩ := q'
      rw [RenamedParams] at h
      obtain ⟨⟨rfl, htype⟩, hrest⟩ := h
      rw [resolveParams, resolveParams]
      refine rel_bind (resolve_renamed hsites hclosed type type' htype) fun t t' ht => ?_
      exact rel_bind (resolveParams_renamed hsites hclosed rest rest' hrest) fun more more' hmore =>
        .some (.cons ⟨rfl, ht⟩ hmore)
termination_by structural ps

theorem resolveSignature_renamed (hsites : site.Parallel site') (hclosed : p.expand.Closed)
    (sig sig' : Signature TypeExpr)
    (h : RenamedSignature (Undisturbed p site site') (site.pairing site') sig sig') :
    Option.Rel (SignatureRenamed (site.pairing site')) (resolveSignature p p.expand site sig)
      (resolveSignature p p.expand site' sig') := by
  obtain ⟨binders, receiverBinders, params, results, variadic⟩ := sig
  obtain ⟨binders', receiverBinders', params', results', variadic'⟩ := sig'
  rw [RenamedSignature] at h
  obtain ⟨hparams, hresults, rfl⟩ := h
  rw [resolveSignature, resolveSignature]
  refine rel_bind (resolveParams_renamed hsites hclosed params params' hparams) fun ps ps' hps => ?_
  refine rel_bind (resolveParams_renamed hsites hclosed results results' hresults) fun qs qs' hqs => ?_
  exact .some ⟨⟨rfl, rfl⟩, ⟨rfl, rfl⟩, hps, hqs, rfl⟩
termination_by structural sig

theorem resolveFields_renamed (hsites : site.Parallel site') (hclosed : p.expand.Closed)
    (fs fs' : List (FieldDecl TypeExpr))
    (h : RenamedFields (Undisturbed p site site') (site.pairing site') fs fs') :
    Option.Rel (List.Forall₂ (FieldRenamed (site.pairing site'))) (resolveFields p p.expand site fs)
      (resolveFields p p.expand site' fs') := by
  cases fs with
  | nil =>
    cases fs' with
    | nil =>
      rw [resolveFields, resolveFields]
      exact .some .nil
    | cons _ _ => simp [RenamedFields] at h
  | cons f rest =>
    cases fs' with
    | nil => simp [RenamedFields] at h
    | cons f' rest' =>
      obtain ⟨name?, type⟩ := f
      obtain ⟨name?', type'⟩ := f'
      rw [RenamedFields] at h
      obtain ⟨⟨rfl, hname, htype⟩, hrest⟩ := h
      rw [resolveFields, resolveFields]
      refine rel_bind (resolve_renamed hsites hclosed type type' htype) fun t t' ht => ?_
      refine rel_bind (resolveFields_renamed hsites hclosed rest rest' hrest) fun more more' hmore => ?_
      refine .some (.cons ⟨?_, ht⟩ hmore)
      cases name? with
      | none => simp [fieldOf, hname rfl]
      | some name => rfl
termination_by structural fs

/-- The elements that a literal brings in correspond one to one. -/
theorem elements_renamed (hsites : site.Parallel site') (hclosed : p.expand.Closed)
    (es es' : List (Element TypeExpr))
    (h : RenamedElements (Undisturbed p site site') (site.pairing site') es es') :
    List.Forall₂ (Ty.Renamed (site.pairing site')) (p.elements site es) (p.elements site' es') := by
  cases es with
  | nil =>
    cases es' with
    | nil => exact .nil
    | cons _ _ => simp [RenamedElements] at h
  | cons e rest =>
    cases es' with
    | nil => cases e <;> simp [RenamedElements] at h
    | cons e' rest' =>
      rw [elements_cons, elements_cons]
      cases e with
      | method name sig =>
        cases e' with
        | method name' sig' =>
          rw [RenamedElements] at h
          exact elements_renamed hsites hclosed rest rest' h.2
        | terms _ => simp [RenamedElements] at h
      | terms alternatives =>
        cases e' with
        | method _ _ => simp [RenamedElements] at h
        | terms alternatives' =>
          rw [RenamedElements] at h
          refine List.rel_append ?_ (elements_renamed hsites hclosed rest rest' h.2)
          have hterms := resolveTerms_renamed hsites hclosed alternatives alternatives' h.1
          exact broughtIn_renamed hsites.params hclosed h.1 hterms
termination_by structural es

theorem resolveElements_renamed (hsites : site.Parallel site') (hclosed : p.expand.Closed) {among : List (Ty × Ty)}
    (hamong : ∀ x ∈ among, ∀ y ∈ among, x.1.identical y.1 = x.2.identical y.2)
    (es es' : List (Element TypeExpr))
    (h : RenamedElements (Undisturbed p site site') (site.pairing site') es es')
    (hsub : ∀ x ∈ p.elementPairs site site' es es', x ∈ among) {before before' : Interface Ty}
    (hbefore : BodyRenamed (site.pairing site') among before before') :
    Option.Rel (BodyRenamed (site.pairing site') among) (resolveElements p p.expand site 0 before es)
      (resolveElements p p.expand site' 0 before' es') := by
  cases es with
  | nil =>
    cases es' with
    | nil =>
      rw [resolveElements, resolveElements]
      exact .some hbefore
    | cons _ _ => simp [RenamedElements] at h
  | cons e rest =>
    cases es' with
    | nil => cases e <;> simp [RenamedElements] at h
    | cons e' rest' =>
      cases e with
      | method name sig =>
        cases e' with
        | method name' sig' =>
          rw [RenamedElements] at h
          obtain ⟨⟨rfl, hsig⟩, hrest⟩ := h
          rw [resolveElements, resolveElements]
          refine rel_bind (resolveSignature_renamed hsites hclosed sig sig' hsig) fun g g' hg => ?_
          refine resolveElements_renamed hsites hclosed hamong rest rest' hrest hsub ?_
          exact merge_renamed hamong hbefore ⟨.cons ⟨rfl, hg.renamed⟩ .nil, .nil⟩
        | terms _ => simp [RenamedElements] at h
      | terms alternatives =>
        cases e' with
        | method _ _ => simp [RenamedElements] at h
        | terms alternatives' =>
          rw [RenamedElements] at h
          obtain ⟨halternatives, hrest⟩ := h
          have hterms := resolveTerms_renamed hsites hclosed alternatives alternatives' halternatives
          rw [Package.elementPairs, elements_cons, elements_cons,
            List.zip_append (broughtIn_renamed hsites.params hclosed halternatives hterms).length_eq] at hsub
          refine element_renamed hsites.params hclosed halternatives hterms hamong
            (fun x hx => hsub x (List.mem_append_left _ hx)) hbefore fun hb => ?_
          exact resolveElements_renamed hsites hclosed hamong rest rest' hrest
            (fun x hx => hsub x (List.mem_append_right _ hx)) hb
termination_by structural es

end

end Parallel

end GoApi.Surface
