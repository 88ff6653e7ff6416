import GoApi.Proofs.Classify
import GoApi.Proofs.Surface.Agreement
import GoApi.Proofs.Surface.Ending
import GoApi.Proofs.Surface.Merge
import GoApi.Proofs.Surface.Walk

/-!
# Flattened interfaces

A declared interface takes over the methods of the interfaces that it embeds, of those that these embed, and so
on.  As long as no chain of embedded interfaces is longer than `maxDepth`,

    body.methods = firstOfEach ms,   where a walk through the elements meets the methods ms

Only a name with type arguments is left as a reference, even one that declares an interface without type
parameters.

The bound on chains is used as a bound on what is still ahead (`Height`): an interface at depth `d` with at most
`k` further ones below it is expanded in full if `d + k ≤ maxDepth`.
-/

namespace GoApi.Surface

open Source Relation

/-! ## References -/

section References

variable {p : Package} {expand : Expansion} {site : Site}

theorem nameTy_eq_named {name name' : String} {args : List Ty}
    (h : p.nameTy site name = .named none name' args) : name ∉ site.params ∧ name = name' := by
  unfold Package.nameTy at h
  split at h
  · cases h
  next hparam =>
  have hparam : name ∉ site.params := by simpa using hparam
  split at h
  · cases h
    exact ⟨hparam, rfl⟩
  split at h
  · cases h
  split at h
  · cases h
  · cases h
    exact ⟨hparam, rfl⟩

theorem resolve_terms_eq_named {alternatives : List TypeExpr} {name : String} {args : List Ty}
    (h : resolve p expand site (.terms alternatives) = some (.named none name args)) :
    ∃ inner, alternatives = [inner] ∧ resolve p expand site inner = some (.named none name args) := by
  rw [resolve] at h
  obtain ⟨terms, hterms, h⟩ := Option.bind_eq_some_iff.1 h
  have hsingle : terms = [⟨false, .named none name args⟩] := by
    unfold unionOf at h
    split at h
    · cases h
      rfl
    · cases h
  cases alternatives with
  | nil =>
    rw [resolveTerms, hsingle] at hterms
    cases hterms
  | cons inner rest =>
    rw [resolveTerms] at hterms
    obtain ⟨t, ht, hterms⟩ := Option.bind_eq_some_iff.1 hterms
    obtain ⟨more, hmore, hterms⟩ := Option.bind_eq_some_iff.1 hterms
    cases rest with
    | nil =>
      rw [resolveTerms] at hmore
      cases hmore
      rw [hsingle] at hterms
      split at hterms
      · cases hterms
      · cases hterms
        exact ⟨inner, rfl, ht⟩
    | cons next rest =>
      rw [resolveTerms] at hmore
      obtain ⟨t', -, hmore⟩ := Option.bind_eq_some_iff.1 hmore
      obtain ⟨more', -, hmore⟩ := Option.bind_eq_some_iff.1 hmore
      cases hmore
      rw [hsingle] at hterms
      simpa using congrArg List.length (Option.some.inj hterms)

theorem resolve_generic_eq_named {base : TypeExpr} {args : List (TypeArg TypeExpr)} {name : String}
    {args' : List Ty} (h : resolve p expand site (.generic base args) = some (.named none name args')) :
    resolveArgs p expand site args = some args' ∧
      ∃ old, resolve p expand site base = some (.named none name old) := by
  rw [resolve] at h
  obtain ⟨t, ht, h⟩ := Option.bind_eq_some_iff.1 h
  obtain ⟨resolved, hresolved, h⟩ := Option.bind_eq_some_iff.1 h
  cases t with
  | named package n old =>
    cases h
    exact ⟨hresolved, old, ht⟩
  | _ => cases h

theorem refName?_of_resolve (e : TypeExpr) {name : String} {args : List Ty}
    (h : resolve p expand site e = some (.named none name args)) : refName? e = some name := by
  cases e with
  | name n =>
    rw [resolve, Option.some.injEq] at h
    rw [refName?, (nameTy_eq_named h).2]
  | generic base args =>
    obtain ⟨-, old, hbase⟩ := resolve_generic_eq_named h
    exact refName?_of_resolve base hbase
  | paren inner =>
    rw [resolve] at h
    exact refName?_of_resolve inner h
  | terms alternatives =>
    obtain ⟨inner, rfl, hinner⟩ := resolve_terms_eq_named h
    exact refName?_of_resolve inner hinner
  | qualified _ _ | verbatim _ =>
    rw [resolve] at h
    cases h
  | map _ _ =>
    rw [resolve] at h
    obtain ⟨k, -, h⟩ := Option.bind_eq_some_iff.1 h
    obtain ⟨v, -, h⟩ := Option.bind_eq_some_iff.1 h
    cases h
  | _ =>
    rw [resolve] at h
    obtain ⟨t, -, h⟩ := Option.bind_eq_some_iff.1 h
    cases h

/-- What resolves to a reference, and is not in parentheses, is the name or gives type arguments to it. -/
theorem resolve_eq_named {e : TypeExpr} (hbare : groupedName? e = none) {name : String} {args : List Ty}
    (h : resolve p expand site e = some (.named none name args)) :
    (e = .name name ∧ name ∉ site.params) ∨ ∃ base written, e = .generic base written ∧
      refName? base = some name ∧ written ≠ [] ∧ resolveArgs p expand site written = some args ∧ args ≠ [] := by
  have href := refName?_of_resolve e h
  cases e with
  | name n =>
    rw [resolve, Option.some.injEq] at h
    obtain ⟨hparam, rfl⟩ := nameTy_eq_named h
    exact .inl ⟨rfl, hparam⟩
  | generic base written =>
    cases written with
    | nil => cases hbare.symm.trans href
    | cons first rest =>
      have hargs := (resolve_generic_eq_named h).1
      refine .inr ⟨base, _, rfl, href, by simp, hargs, ?_⟩
      rw [resolveArgs] at hargs
      obtain ⟨terms, -, hargs⟩ := Option.bind_eq_some_iff.1 hargs
      obtain ⟨more, -, hargs⟩ := Option.bind_eq_some_iff.1 hargs
      cases hargs
      simp
  | paren inner => cases hbare.symm.trans href
  | terms alternatives =>
    obtain ⟨inner, rfl, -⟩ := resolve_terms_eq_named h
    cases hbare.symm.trans href
  | _ => cases href

end References

/-! ## Elements -/

/-- An interface whose methods are those that a walk meets first, and in which references to interfaces of the
package have type arguments, namely those that were written. -/
structure Flat (p : Package) (site : Site) (es : List (Element TypeExpr)) (body : Interface Ty) : Prop where
  methods : ∃ ms, Walk p site es ms ∧ body.methods = firstOfEach ms
  embedded : ∀ name args, IsInterface p name → .named none name args ∈ body.embedded →
    args ≠ [] ∧ Leaves p site es name args

section Elements

variable {p : Package} {expand : Expansion} {site : Site} {depth : Nat}

theorem flattened?_of_flattens {name : String} (h : flattens p site name = true) (hdepth : depth < maxDepth) :
    flattened? p expand site depth [.name name] = some (expand name (depth + 1)) := by
  obtain ⟨hparam, t, es, ht, hlit⟩ := flattens_iff.1 h
  simp [flattened?, hparam, ht, hlit, hdepth]

theorem flattened?_of_isError {name : String} (h : isError p site name = true) :
    flattened? p expand site depth [.name name] = some (some errorInterface) := by
  simp only [isError, Bool.and_eq_true, Bool.not_eq_true', Option.isNone_iff_eq_none, beq_iff_eq] at h
  obtain ⟨⟨rfl, hparam⟩, hnone⟩ := h
  simp only [flattened?, hparam, hnone, Bool.false_eq_true, if_false, beq_self_eq_true, if_true]

theorem flattened?_eq_none {alternatives : List TypeExpr}
    (h : ∀ name ∈ loneName? alternatives, flattens p site name = false ∧ isError p site name = false) :
    flattened? p expand site depth alternatives = none := by
  unfold flattened?
  split
  · next name =>
    obtain ⟨hflat, herror⟩ := h name rfl
    split
    · rfl
    next hparam =>
    have hparam : name ∉ site.params := by simpa using hparam
    cases ht : p.type? name with
    | none => simpa [isError, hparam, ht] using herror
    | some t =>
      have hlit : TypeDecl.literal? t.decl = none := by simpa [flattens, hparam, ht] using hflat
      simp [hlit]
  · rfl

theorem resolveSignature_eq {sig : Signature TypeExpr} (h : embeddedSignature sig = []) :
    resolveSignature p expand site sig = p.signature site sig := by
  have hagree : TypesAgree (fun _ => False) p p := ⟨fun _ => rfl, fun _ _ => rfl⟩
  exact resolveSignature_congr hagree (fun _ hname => hname.elim) site sig (by simp [h])

theorem resolveArgs_eq {written : List (TypeArg TypeExpr)} (h : embeddedArgs written = []) :
    resolveArgs p expand site written = resolveArgs p p.expand site written := by
  have hagree : TypesAgree (fun _ => False) p p := ⟨fun _ => rfl, fun _ _ => rfl⟩
  exact resolveArgs_congr hagree (fun _ hname => hname.elim) site written (by simp [h])

theorem isSome_signature {sig : Signature TypeExpr} (h : embeddedSignature sig = []) :
    (p.signature site sig).isSome := by
  rw [Option.isSome_iff_ne_none, Package.signature, ne_eq, resolveSignature_eq_none_iff]
  simp [h]

theorem isSome_resolveTerms {alternatives : List TypeExpr} (h : embeddedTerms alternatives = []) :
    (resolveTerms p expand site alternatives).isSome := by
  rw [Option.isSome_iff_ne_none, ne_eq, resolveTerms_eq_none_iff]
  simp [h]

/-- What one element does: it takes the body so far to the next one, adds the methods that a walk meets at it, and
of references to interfaces of the package only those with type arguments. -/
structure Step (p : Package) (expand : Expansion) (site : Site) (depth : Nat) (e : Element TypeExpr)
    (before next : Interface Ty) (met : List (Method Ty)) : Prop where
  resolves : ∀ es, resolveElements p expand site depth before (e :: es) =
    resolveElements p expand site depth next es
  walk : ∀ {es ms}, Walk p site es ms → Walk p site (e :: es) (met ++ ms)
  methods : next.methods = addMethods before.methods met
  embedded : ∀ name args, IsInterface p name → .named none name args ∈ next.embedded →
    .named none name args ∈ before.embedded ∨ (args ≠ [] ∧ Leaves p site [e] name args)

theorem step_method (name : String) {sig : Signature TypeExpr} (hliterals : embeddedSignature sig = [])
    (before : Interface Ty) : ∃ next met, Step p expand site depth (.method name sig) before next met := by
  have hsome : (p.signature site sig).isSome := isSome_signature hliterals
  obtain ⟨g, hg⟩ := Option.isSome_iff_exists.1 hsome
  refine ⟨mergeInterface before { methods := [⟨name, g⟩] }, [⟨name, g⟩], fun es => ?_, .method hg, rfl,
    fun n args _ href => .inl ?_⟩
  · rw [resolveElements, resolveSignature_eq hliterals, hg]
    rfl
  · simpa using mem_embedded_merge href

/-- An interface that takes the place of an element. -/
theorem step_merge {alternatives : List TypeExpr} {inner : Interface Ty} {met : List (Method Ty)}
    (hflat : flattened? p expand site depth alternatives = some (some inner))
    (hwalk : ∀ {es ms}, Walk p site es ms → Walk p site (.terms alternatives :: es) (met ++ ms))
    (hmethods : inner.methods = firstOfEach met)
    (hembedded : ∀ name args, IsInterface p name → .named none name args ∈ inner.embedded →
      args ≠ [] ∧ Leaves p site [.terms alternatives] name args) (before : Interface Ty) :
    Step p expand site depth (.terms alternatives) before (mergeInterface before inner) met := by
  refine ⟨fun es => ?_, hwalk, ?_, fun n args hn href => ?_⟩
  · rw [resolveElements, hflat]
    rfl
  · rw [methods_merge, hmethods, addMethods_firstOfEach]
  · exact (mem_embedded_merge href).imp_right (hembedded n args hn)

/-- An element that nothing takes the place of. -/
theorem step_other {alternatives : List TypeExpr} (hliterals : embeddedTerms alternatives = [])
    (hbare : ∀ e, alternatives = [e] → groupedName? e = none)
    (hnone : ∀ name ∈ loneName? alternatives, flattens p site name = false ∧ isError p site name = false)
    (before : Interface Ty) :
    ∃ next, Step p expand site depth (.terms alternatives) before next [] := by
  have hsome : (resolveTerms p expand site alternatives).isSome := isSome_resolveTerms hliterals
  obtain ⟨terms, hterms⟩ := Option.isSome_iff_exists.1 hsome
  have hflat : flattened? p expand site depth alternatives = none := flattened?_eq_none hnone
  have href : ∀ name args, IsInterface p name → unionOf terms = .named none name args →
      args ≠ [] ∧ Leaves p site [.terms alternatives] name args := by
    intro name args hname heq
    have hresolve : resolve p expand site (.terms alternatives) = some (.named none name args) := by
      rw [resolve, hterms, ← heq]
      rfl
    obtain ⟨e, rfl, he⟩ := resolve_terms_eq_named hresolve
    rcases resolve_eq_named (hbare e rfl) he with ⟨rfl, hparam⟩ | ⟨base, written, rfl, hbase, hne, hwritten, hargs⟩
    · cases (hnone name rfl).1.symm.trans (flattens_iff.2 ⟨hparam, hname⟩)
    · rw [embeddedTerms, embedded, List.append_eq_nil_iff, List.append_eq_nil_iff] at hliterals
      rw [resolveArgs_eq hliterals.1.2] at hwritten
      exact ⟨hargs, .inl ⟨base, written, mem_soleTerms.2 List.mem_cons_self, hbase, hne, hwritten⟩⟩
  by_cases hsingle : ∃ type, terms = [⟨false, type⟩]
  · obtain ⟨type, rfl⟩ := hsingle
    refine ⟨mergeInterface before { embedded := [type] }, fun es => ?_, .other hnone, rfl,
      fun n args hn hmem => ?_⟩
    · rw [resolveElements, hflat, hterms]
      rfl
    · refine (mem_embedded_merge hmem).imp_right fun htype => ?_
      exact href n args hn (List.mem_singleton.1 htype).symm
  · refine ⟨{ before with embedded := before.embedded ++ [.union terms] }, fun es => ?_, .other hnone, rfl,
      fun n args _ hmem => .inl ?_⟩
    · rw [resolveElements, hflat, hterms]
      simp only [Option.bind_eq_bind, Option.bind_some]
      split
      · next type => exact absurd ⟨type, rfl⟩ hsingle
      · rfl
    · refine (List.mem_append.1 hmem).resolve_right fun hunion => ?_
      cases List.mem_singleton.1 hunion

theorem eq_of_loneName? {alternatives : List TypeExpr} {name : String} (h : loneName? alternatives = some name) :
    alternatives = [.name name] := by
  unfold loneName? at h
  split at h
  · cases h
    rfl
  · cases h

theorem step_terms {alternatives : List TypeExpr} (hliterals : embeddedTerms alternatives = [])
    (hbare : ∀ e, alternatives = [e] → groupedName? e = none)
    (hinner : ∀ name ∈ loneName? alternatives, flattens p site name = true → ∀ u, p.type? name = some u →
      depth < maxDepth ∧ ∃ body, expand name (depth + 1) = some body ∧ Flat p u.inside u.elements body)
    (before : Interface Ty) :
    ∃ next met, Step p expand site depth (.terms alternatives) before next met := by
  by_cases hflat : ∃ name ∈ loneName? alternatives, flattens p site name = true
  · obtain ⟨name, hname, hflat⟩ := hflat
    obtain ⟨-, u, es, hu, -⟩ := flattens_iff.1 hflat
    obtain ⟨hdepth, body, hbody, ⟨met, hmet, hmethods⟩, hembedded⟩ := hinner name hname hflat u hu
    obtain rfl := eq_of_loneName? hname
    have hflattened : flattened? p expand site depth [.name name] = some (some body) := by
      rw [flattened?_of_flattens hflat hdepth, hbody]
    have hleaves : ∀ n args, IsInterface p n → .named none n args ∈ body.embedded →
        args ≠ [] ∧ Leaves p site [.terms [.name name]] n args := by
      intro n args hn href
      obtain ⟨hargs, hleaves⟩ := hembedded n args hn href
      have hreaches : Reaches p u (Applies p n args) := (reaches_iff (List.mem_of_find?_eq_some hu)).2 hleaves
      exact ⟨hargs, .inr ⟨u, ⟨name, List.mem_cons_self, hflat, hu⟩, hreaches⟩⟩
    exact ⟨_, met, step_merge hflattened (.embedded hflat hu hmet) hmethods hleaves before⟩
  by_cases herror : ∃ name ∈ loneName? alternatives, isError p site name = true
  · obtain ⟨name, hname, herror⟩ := herror
    obtain rfl := eq_of_loneName? hname
    have hmethods : errorInterface.methods = firstOfEach errorInterface.methods := by
      rw [← addMethods_nil]
      rfl
    exact ⟨_, errorInterface.methods, step_merge (flattened?_of_isError herror) (.error herror) hmethods
      (by simp [errorInterface]) before⟩
  · have hnone : ∀ name ∈ loneName? alternatives, flattens p site name = false ∧ isError p site name = false := by
      intro name hname
      constructor
      · exact Bool.eq_false_iff.2 fun h => hflat ⟨name, hname, h⟩
      · exact Bool.eq_false_iff.2 fun h => herror ⟨name, hname, h⟩
    obtain ⟨next, hnext⟩ := step_other hliterals hbare hnone before
    exact ⟨next, [], hnext⟩

/-- Resolving the elements of an interface adds to what comes before them the methods that a walk meets, given
that this is true of the interfaces that they embed. -/
theorem resolveElements_walk {es : List (Element TypeExpr)} (hliterals : embeddedElements es = [])
    (hbare : ∀ e ∈ soleTerms es, groupedName? e = none)
    (hinner : ∀ name ∈ loneNames es, flattens p site name = true → ∀ u, p.type? name = some u →
      depth < maxDepth ∧ ∃ body, expand name (depth + 1) = some body ∧ Flat p u.inside u.elements body)
    (before : Interface Ty) :
    ∃ body ms, resolveElements p expand site depth before es = some body ∧ Walk p site es ms ∧
      body.methods = addMethods before.methods ms ∧
      ∀ name args, IsInterface p name → .named none name args ∈ body.embedded →
        .named none name args ∈ before.embedded ∨ (args ≠ [] ∧ Leaves p site es name args) := by
  induction es generalizing before with
  | nil => exact ⟨before, [], by rw [resolveElements], .done, rfl, fun _ _ _ h => .inl h⟩
  | cons e es ih =>
    have hrest : ∀ e' ∈ soleTerms es, groupedName? e' = none :=
      fun e' he' => hbare e' (mem_soleTerms.2 (List.mem_cons_of_mem _ (mem_soleTerms.1 he')))
    -- the element itself, and what is left of the conditions for the others
    have hstep : (∃ next met, Step p expand site depth e before next met) ∧ embeddedElements es = [] := by
      cases e with
      | method name sig =>
        obtain ⟨hsig, hes⟩ := List.append_eq_nil_iff.1 hliterals
        exact ⟨step_method name hsig before, hes⟩
      | terms alternatives =>
        obtain ⟨hterms, hes⟩ := List.append_eq_nil_iff.1 hliterals
        refine ⟨step_terms hterms ?_ ?_ before, hes⟩
        · rintro e rfl
          exact hbare e (mem_soleTerms.2 List.mem_cons_self)
        · intro name hname
          exact hinner name (List.mem_append_left _ (Option.mem_toList.2 hname))
    obtain ⟨⟨next, met, hstep⟩, hes⟩ := hstep
    have hinner' : ∀ name ∈ loneNames es, name ∈ loneNames (e :: es) := by
      intro name hname
      rw [loneNames_cons]
      exact List.mem_append_right _ hname
    obtain ⟨body, ms, hbody, hwalk, hmethods, hembedded⟩ :=
      ih hes hrest (fun n hn => hinner n (hinner' n hn)) next
    refine ⟨body, met ++ ms, (hstep.resolves es).trans hbody, hstep.walk hwalk, ?_, fun n args hn href => ?_⟩
    · rw [hmethods, hstep.methods, addMethods_append]
    · rcases hembedded n args hn href with hmem | ⟨hargs, hleaves⟩
      · exact (hstep.embedded n args hn hmem).imp_right fun ⟨hargs, hleaves⟩ => ⟨hargs, hleaves.of_head es⟩
      · exact .inr ⟨hargs, hleaves.of_tail e⟩

end Elements

/-! ## Expansions -/

/-- At most `k` interfaces follow each other below a declaration. -/
def Height (p : Package) (k : Nat) (t : LocalType) : Prop :=
  ∀ us, (t :: us).IsChain (Embeds p) → us.length ≤ k

theorem Height.embedded {p : Package} {k : Nat} {t u : LocalType} (h : Height p k t) (hu : Embeds p t u) :
    ∃ k', k = k' + 1 ∧ Height p k' u := by
  cases k with
  | zero =>
    have hle := h [u] (.cons_cons hu (.singleton u))
    simp at hle
  | succ k =>
    refine ⟨k, rfl, fun us hus => ?_⟩
    have hle := h (u :: us) (.cons_cons hu hus)
    rw [List.length_cons] at hle
    omega

/-- Inside of interface bodies no interface literal embeds a name, and no embedded name is in parentheses. -/
structure Package.Plain (p : Package) : Prop where
  literals : ∀ t ∈ p.types, embeddedElements t.elements = []
  names : ∀ t ∈ p.types, ∀ e ∈ soleTerms t.elements, groupedName? e = none

theorem elements_of_literal {u : LocalType} {es : List (Element TypeExpr)}
    (h : TypeDecl.literal? u.decl = some es) : u.elements = es ∧ u.inside = u.site := by
  obtain ⟨hbinders, hbody⟩ := literal?_eq_some h
  constructor
  · rw [LocalType.elements, hbody]
  · rw [LocalType.inside, hbinders, Site.within, List.map_nil, List.append_nil]

section Expansions

variable {p : Package} (hp : p.Plain)

include hp

/-- The elements of a declaration resolve to a flat interface, if those of the interfaces that it embeds do. -/
theorem resolveElements_flat {expand : Expansion} {depth : Nat} {t : LocalType} (ht : t ∈ p.types)
    (hinner : ∀ name u, Embeds p t u → p.type? name = some u → flattens p t.inside name = true →
      depth < maxDepth ∧ ∃ body, expand name (depth + 1) = some body ∧ Flat p u.inside u.elements body) :
    ∃ body, resolveElements p expand t.inside depth {} t.elements = some body ∧
      Flat p t.inside t.elements body := by
  obtain ⟨body, ms, hbody, hwalk, hmethods, hembedded⟩ :=
    resolveElements_walk (hp.literals t ht) (hp.names t ht)
      (fun name hname hflat u hu => hinner name u ⟨ht, name, hname, hflat, hu⟩ hu hflat) {}
  refine ⟨body, hbody, ⟨ms, hwalk, ?_⟩, fun name args hname href => ?_⟩
  · rw [hmethods, addMethods_nil]
  · exact (hembedded name args hname href).resolve_left (by simp)

/-- The depth and the fuel are enough for an interface with few enough others below it. -/
theorem expandWithin_flat {fuel k depth : Nat} {name : String} {u : LocalType} (hu : p.type? name = some u)
    (hlit : (TypeDecl.literal? u.decl).isSome) (hheight : Height p k u) (hdepth : depth + k ≤ maxDepth)
    (hfuel : k < fuel) :
    ∃ body, expandWithin p fuel name depth = some body ∧ Flat p u.inside u.elements body := by
  induction fuel generalizing k depth name u with
  | zero => omega
  | succ fuel ih =>
    obtain ⟨es, hes⟩ := Option.isSome_iff_exists.1 hlit
    obtain ⟨helements, hinside⟩ := elements_of_literal hes
    have hflat : ∃ body, resolveElements p (expandWithin p fuel) u.inside depth {} u.elements = some body ∧
        Flat p u.inside u.elements body := by
      refine resolveElements_flat hp (List.mem_of_find?_eq_some hu) fun name' v hembeds hv hname' => ?_
      obtain ⟨k', rfl, hheight'⟩ := hheight.embedded hembeds
      obtain ⟨-, v', es', hv', hes'⟩ := flattens_iff.1 hname'
      cases hv.symm.trans hv'
      exact ⟨by omega, ih hv (by simp [hes']) hheight' (by omega) (by omega)⟩
    obtain ⟨body, hbody, hflat⟩ := hflat
    refine ⟨body, ?_, hflat⟩
    simp only [expandWithin, hu, hes]
    rw [← helements, ← hinside]
    exact hbody

/-- The body of a declared interface with chains of at most `maxDepth` interfaces below it. -/
theorem body_flat {t : LocalType} (ht : t ∈ p.types) (hheight : Height p maxDepth t) :
    ∃ body, resolveElements p p.expand t.inside 0 {} t.elements = some body ∧
      Flat p t.inside t.elements body := by
  have hpos : 0 < p.types.length := List.length_pos_of_mem ht
  refine resolveElements_flat hp ht fun name u hembeds hu hname => ?_
  obtain ⟨k, hk, hheight'⟩ := hheight.embedded hembeds
  obtain ⟨-, u', es, hu', hes⟩ := flattens_iff.1 hname
  cases hu.symm.trans hu'
  have hfuel : k < maxDepth * p.types.length + 1 := by
    have hle := Nat.le_mul_of_pos_right maxDepth hpos
    omega
  exact ⟨by omega, expandWithin_flat hp hu (by simp [hes]) hheight' (by omega) hfuel⟩

/-- Without names in literals, every interface that is asked for lies deeper. -/
theorem expands_of_plain : p.Expands := by
  have hdeeper : ∀ {c c' : Call}, TransGen (Nests p) c c' → c.2 < c'.2 := by
    intro c c' h
    have hstep : ∀ {x y : Call}, Nests p x y → x.2 < y.2 := by
      intro x y hxy
      obtain ⟨t, es, ht, hes, -, ⟨-, -, hdepth⟩ | ⟨hmem, -⟩⟩ := nests_iff.1 hxy
      · omega
      · have hnone := hp.literals t (List.mem_of_find?_eq_some ht)
        rw [(elements_of_literal hes).1] at hnone
        simp [hnone] at hmem
    induction h with
    | single h => exact hstep h
    | tail _ h ih => exact ih.trans (hstep h)
  exact expands_of_acyclic fun name h => Nat.lt_irrefl 1 (hdeeper h)

end Expansions

/-- The symbol of an exported type is in the table. -/
theorem get?_of_typeSymbol {package : String} {files : List File} {table : SymbolTable}
    (h : tableOf package files = .ok table) {t : LocalType} (ht : t ∈ (Package.ofFiles files).types)
    (hexported : isExported t.decl.name = true) {s : Symbol}
    (hs : (Package.ofFiles files).typeSymbol t.site t.decl = some s) : table.get? t.decl.name = some s := by
  obtain ⟨values, symbols, -, hsymbols, hok⟩ := (tableOf_eq_ok_iff _ _ _).1 h
  have hmem := typeSymbol_mem ht values
  rw [hs, hsymbols, List.mem_map_of_injective (Option.some_injective _)] at hmem
  obtain ⟨binders, -, hs⟩ := Option.bind_eq_some_iff.1 hs
  obtain ⟨underlying, -, hs⟩ := Option.bind_eq_some_iff.1 hs
  cases hs
  refine (table.get?_eq_some_iff _ _).2 ⟨?_, rfl⟩
  refine ((SymbolTable.ofSymbols_eq_ok_iff _ _ _).1 hok).2.mem_iff.2 (List.mem_filter.2 ⟨hmem, ?_⟩)
  simp [Symbol.visible, Symbol.identifier, hexported]

/-- Flattening is the transitive closure.  If no chain of embedded interfaces has more than `maxDepth` steps, the
descriptor of a declared interface has the methods of all interfaces that can be reached, each name once and
with the signature that a depth-first walk meets first.  It embeds no reference to an interface without type
parameters, except with the type arguments that one of these interfaces is written to give it. -/
theorem interfaces_flattened (files : List File) (hplain : (Package.ofFiles files).Plain)
    (hchains : ∀ ts : List LocalType, ts.IsChain (Embeds (Package.ofFiles files)) → ts.length ≤ maxDepth + 1)
    {t : LocalType} (ht : t ∈ (Package.ofFiles files).types) {es : List (Element TypeExpr)}
    (hes : t.decl.body = .interface es) :
    ∃ s binders body ms,
      (Package.ofFiles files).typeSymbol t.site t.decl = some s ∧
      s.type = .defined t.decl.name binders t.decl.isAlias (.interface body) ∧
      Walk (Package.ofFiles files) t.inside es ms ∧
      (∀ ms', Walk (Package.ofFiles files) t.inside es ms' → ms' = ms) ∧
      body.methods = firstOfEach ms ∧
      (body.methods.map (·.name)).Nodup ∧
      (∀ method, method ∈ body.methods.map (·.name) ↔
        Reaches (Package.ofFiles files) t (Owns (Package.ofFiles files) method)) ∧
      (∀ name args, IsInterface (Package.ofFiles files) name → .named none name args ∈ body.embedded →
        args ≠ [] ∧ Reaches (Package.ofFiles files) t (Applies (Package.ofFiles files) name args)) ∧
      ∀ package table, tableOf package files = .ok table → isExported t.decl.name = true →
        table.get? t.decl.name = some s := by
  set p := Package.ofFiles files
  have helements : t.elements = es := by rw [LocalType.elements, hes]
  have hheight : Height p maxDepth t := by
    intro us hus
    have hle := hchains (t :: us) hus
    rw [List.length_cons] at hle
    omega
  obtain ⟨body, hbody, ⟨ms, hwalk, hmethods⟩, hembedded⟩ := body_flat hplain ht hheight
  rw [helements] at hbody hwalk
  have hunderlying : p.resolve t.inside t.decl.body = some (.interface body) := by
    rw [hes, Package.resolve, resolve, hbody]
    rfl
  have hbinders := (expands_of_plain hplain).binders t.inside t.decl.binders
  obtain ⟨binders, hbinders⟩ := Option.isSome_iff_exists.1 hbinders
  have hsymbol : p.typeSymbol t.site t.decl =
      some ⟨t.decl.name, .type, none, .defined t.decl.name binders t.decl.isAlias (.interface body)⟩ := by
    rw [Package.typeSymbol, ← LocalType.inside, hbinders, hunderlying]
    rfl
  refine ⟨_, binders, body, ms, hsymbol, rfl, hwalk, fun ms' hms' => hms'.unique hwalk, hmethods, ?_,
    fun method => ?_, fun name args hname href => ?_, fun package table htable hexported => ?_⟩
  · rw [hmethods, ← addMethods_nil]
    exact nodup_addMethods (by simp) ms
  · rw [hmethods, ← addMethods_nil, mem_names_addMethods, hwalk.mem_names, reaches_iff ht, Owns, helements]
    simp
  · obtain ⟨hargs, hleaves⟩ := hembedded name args hname href
    exact ⟨hargs, (reaches_iff ht).2 hleaves⟩
  · exact get?_of_typeSymbol htable ht hexported hsymbol

instance (p : Package) : Decidable p.Plain :=
  decidable_of_iff ((∀ t ∈ p.types, embeddedElements t.elements = []) ∧
    ∀ t ∈ p.types, ∀ e ∈ soleTerms t.elements, groupedName? e = none)
    ⟨fun h => ⟨h.1, h.2⟩, fun h => ⟨h.literals, h.names⟩⟩

/-- Chains are short if the declared interfaces stand in a short list, each after those that it embeds. -/
theorem length_le_of_order {p : Package} {names : List String} (hshort : names.length ≤ maxDepth)
    (horder : ∀ t ∈ p.types, ∀ name ∈ loneNames t.elements, names.idxOf name < names.idxOf t.decl.name)
    (ts : List LocalType) (h : ts.IsChain (Embeds p)) : ts.length ≤ maxDepth + 1 := by
  have hdown : ∀ (us : List LocalType) (t : LocalType), (t :: us).IsChain (Embeds p) →
      us.length ≤ names.idxOf t.decl.name := by
    intro us
    induction us with
    | nil => exact fun _ _ => Nat.zero_le _
    | cons u us ih =>
      intro t h
      obtain ⟨⟨ht, name, hname, -, hu⟩, hus⟩ := List.isChain_cons_cons.1 h
      have hlt := horder t ht name hname
      have huname : u.decl.name = name := by simpa using List.find?_some hu
      have hle := ih u hus
      rw [huname] at hle
      rw [List.length_cons]
      omega
  cases ts with
  | nil => exact Nat.zero_le _
  | cons t us =>
    have hle := hdown us t h
    have hidx : names.idxOf t.decl.name ≤ names.length := List.idxOf_le_length
    rw [List.length_cons]
    omega

/-- The names of a declared interface's methods. -/
def methodNames : Ty → List String
  | .defined _ _ _ (.interface body) => body.methods.map (·.name)
  | _ => []

/-- The types of the package that a declared interface embeds references to. -/
def embeddedRefs : Ty → List String
  | .defined _ _ _ (.interface body) => body.embedded.filterMap fun
    | .named none name _ => some name
    | _ => none
  | _ => []

/-- Two ways to one interface, two methods of one name, and a type parameter with the name of an interface. -/
def diamond : File := .ofSource <|
  "package p\ntype Reader interface \x7b Read(); Close() \x7d\n" ++
  "type Closer interface \x7b Reader; error; Close() error \x7d\n" ++
  "type Both interface \x7b Closer; Reader \x7d\n" ++
  "type Top[Reader any] interface \x7b Sync(); Reader; Both \x7d\n"

/-- The interface at the top of a diamond. -/
theorem interfaces_flattened_diamond :
    ∃ t ∈ (Package.ofFiles [diamond]).types, t.decl.name = "Top" ∧
      ∃ s, (Package.ofFiles [diamond]).typeSymbol t.site t.decl = some s ∧
        methodNames s.type = ["Sync", "Read", "Close", "Error"] ∧ embeddedRefs s.type = [] ∧
        ∀ method, method ∈ methodNames s.type ↔
          Reaches (Package.ofFiles [diamond]) t (Owns (Package.ofFiles [diamond]) method) := by
  -- one evaluation, so that the source is read once
  have hchecks : (Package.ofFiles [diamond]).Plain ∧
      (∀ t ∈ (Package.ofFiles [diamond]).types, ∀ name ∈ loneNames t.elements,
        ["error", "Reader", "Closer", "Both", "Top"].idxOf name <
          ["error", "Reader", "Closer", "Both", "Top"].idxOf t.decl.name) ∧
      ∃ t ∈ (Package.ofFiles [diamond]).types, t.decl.name = "Top" ∧ t.elements.isEmpty = false ∧
        ((Package.ofFiles [diamond]).typeSymbol t.site t.decl).map
          (fun s => (methodNames s.type, embeddedRefs s.type)) =
            some (["Sync", "Read", "Close", "Error"], []) := by
    decide +kernel
  obtain ⟨hplain, horder, t, ht, hname, hnonempty, hlists⟩ := hchecks
  have hbody : t.decl.body = .interface t.elements := by
    unfold LocalType.elements at hnonempty ⊢
    split at hnonempty
    · next hes => exact hes
    · cases hnonempty
  obtain ⟨s, binders, body, ms, hs, htype, -, -, -, -, hnames, -⟩ :=
    interfaces_flattened [diamond] hplain (length_le_of_order (by decide) horder) ht hbody
  rw [hs, Option.map_some, Option.some.injEq, Prod.mk.injEq] at hlists
  refine ⟨t, ht, hname, s, hs, hlists.1, hlists.2, fun method => ?_⟩
  rw [htype]
  exact hnames method

/-- An interface that gives type arguments to one that takes none. -/
def appliedInterface : File := .ofSource
  "package p\ntype I interface \x7b M() \x7d\ntype J interface \x7b I[int] \x7d\n"

/-- A name with type arguments is not flattened, so a reference to an interface without type parameters can
stay. -/
theorem applied_interface_stays :
    (Package.ofFiles [appliedInterface]).Plain ∧
    (∀ ts : List LocalType, ts.IsChain (Embeds (Package.ofFiles [appliedInterface])) →
      ts.length ≤ maxDepth + 1) ∧
    ((Package.ofFiles [appliedInterface]).types.map (·.decl.name)).Nodup ∧
    IsInterface (Package.ofFiles [appliedInterface]) "I" ∧
    ∃ t ∈ (Package.ofFiles [appliedInterface]).types, t.decl.name = "J" ∧
      ∃ s, (Package.ofFiles [appliedInterface]).typeSymbol t.site t.decl = some s ∧
        methodNames s.type = [] ∧ embeddedRefs s.type = ["I"] := by
  have hchecks : (Package.ofFiles [appliedInterface]).Plain ∧
      (∀ t ∈ (Package.ofFiles [appliedInterface]).types, ∀ name ∈ loneNames t.elements,
        ["I", "J"].idxOf name < ["I", "J"].idxOf t.decl.name) ∧
      ((Package.ofFiles [appliedInterface]).types.map (·.decl.name)).Nodup ∧
      flattens (Package.ofFiles [appliedInterface]) {} "I" = true ∧
      ∃ t ∈ (Package.ofFiles [appliedInterface]).types, t.decl.name = "J" ∧
        ((Package.ofFiles [appliedInterface]).typeSymbol t.site t.decl).map
          (fun s => (methodNames s.type, embeddedRefs s.type)) = some ([], ["I"]) := by
    decide +kernel
  obtain ⟨hplain, horder, hnodup, hflat, t, ht, hname, hlists⟩ := hchecks
  obtain ⟨s, hs, hlists⟩ := Option.map_eq_some_iff.1 hlists
  obtain ⟨hmethods, hrefs⟩ := Prod.mk.inj hlists
  exact ⟨hplain, length_le_of_order (by decide) horder, hnodup, isInterface_of_flattens hflat, t, ht, hname, s,
    hs, hmethods, hrefs⟩

end GoApi.Surface
