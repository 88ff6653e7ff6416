import GoApi.Proofs.Surface.Merge
import GoApi.Proofs.Surface.Told
import GoApi.Proofs.Ty.Scoped

/-!
# Loaded descriptors are well-formed

Resolving a type expression gives a descriptor that is formed for the type parameters in scope
(`resolve_formed`).  The mutual recursion carries this for every part of the syntax, given that the interfaces
which are taken over from other declarations are formed without any type parameter; those stand in a scope
of their own, so this follows by induction on how deep they nest (`expandWithin_closed`).

A declaration binds what its parts may mention, so the type of a symbol is closed.
-/

namespace GoApi.Surface

open Source

/-! ## Parts of descriptors -/

section Parts

variable {params : List String}

theorem formed_interface_iff {body : Interface Ty} :
    (Ty.interface body).Formed params ↔ (body.methods.map (·.name)).Nodup ∧
      (∀ m ∈ body.methods, ∀ t ∈ m.sig.parts, t.Formed params) ∧ ∀ e ∈ body.embedded, e.Formed params := by
  rw [formed_iff, Ty.FormedAt, Ty.children, List.forall_mem_append, List.forall_mem_flatMap]

theorem formed_union_iff {terms : List (Term Ty)} :
    (Ty.union terms).Formed params ↔ ∀ x ∈ terms, x.type.Formed params := by
  rw [formed_iff, Ty.children, List.forall_mem_map]
  exact and_iff_right trivial

theorem formed_named_iff {package : Option String} {name : String} {args : List Ty} :
    (Ty.named package name args).Formed params ↔ ∀ t ∈ args, t.Formed params := by
  rw [formed_iff, Ty.children]
  exact and_iff_right trivial

theorem formed_basic (name : String) : (Ty.basic name).Formed params :=
  formed_iff.2 ⟨trivial, by simp [Ty.children]⟩

theorem formed_empty : (Ty.interface {}).Formed params := by
  simp [formed_interface_iff]

theorem formed_error : (Ty.interface errorInterface).Formed params := by
  simp [formed_interface_iff, errorInterface, Signature.plain, Signature.parts, formed_basic]

/-- Merging keeps method names distinct, so it needs nothing of the names in `more`. -/
theorem merge_formed {into more : Interface Ty} (hinto : (Ty.interface into).Formed params)
    (hmethods : ∀ m ∈ more.methods, ∀ t ∈ m.sig.parts, t.Formed params)
    (hembedded : ∀ e ∈ more.embedded, e.Formed params) :
    (Ty.interface (mergeInterface into more)).Formed params := by
  obtain ⟨hnodup, hmethods', hembedded'⟩ := formed_interface_iff.1 hinto
  refine formed_interface_iff.2 ⟨nodup_addMethods hnodup more.methods, fun m hm => ?_, fun e he => ?_⟩
  · exact (mem_of_mem_addMethods hm).elim (hmethods' m) (hmethods m)
  · exact (mem_embedded_merge he).elim (hembedded' e) (hembedded e)

theorem applyArgs_formed {args : List Ty} (hargs : ∀ t ∈ args, t.Formed params) {t : Ty}
    (ht : t.Formed params) : (applyArgs args t).Formed params := by
  cases t with
  | named package name old => exact formed_named_iff.2 hargs
  | _ => exact ht

theorem unionOf_formed {terms : List (Term Ty)} (h : ∀ x ∈ terms, x.type.Formed params) :
    (unionOf terms).Formed params := by
  unfold unionOf
  split
  · exact h _ List.mem_cons_self
  · exact formed_union_iff.2 h

theorem withoutTilde_formed {t : Ty} (h : t.Formed params) : (withoutTilde t).Formed params := by
  unfold withoutTilde
  split
  · exact formed_union_iff.1 h _ List.mem_cons_self
  · exact h

end Parts

/-- A bare name becomes a type parameter only where it is one of the site's, so the result refers
to no other. -/
theorem nameTy_formed (p : Package) (site : Site) (name : String) :
    (p.nameTy site name).Formed site.params := by
  unfold Package.nameTy
  split
  · next hparam => exact formed_iff.2 ⟨List.contains_iff_mem.1 hparam, by simp [Ty.children]⟩
  split
  · exact formed_named_iff.2 (by simp)
  split
  · exact formed_empty
  split
  · exact formed_basic name
  · exact formed_named_iff.2 (by simp)

/-! ## Type expressions -/

/-- The interfaces that are taken over hold no type parameter. -/
def Expansion.Closed (expand : Expansion) : Prop :=
  ∀ name depth body, expand name depth = some body → (Ty.interface body).Formed []

section Resolve

variable {p : Package} {expand : Expansion}

/-- A body taken in by name is formed: it is the error interface, or closed by the assumption on
`expand`. -/
theorem flattened?_formed (hexpand : expand.Closed) {site : Site} {depth : Nat} {ts : List TypeExpr}
    {body : Interface Ty} (h : flattened? p expand site depth ts = some (some body)) :
    (Ty.interface body).Formed site.params := by
  rcases flattened?_cases p expand site depth ts with ⟨name, -, -, heq⟩ | ⟨-, ⟨-, heq⟩ | heq⟩
  · rw [heq, Option.some.injEq] at h
    exact (hexpand name _ body h).mono (by simp)
  · rw [heq] at h
    cases h
    exact formed_error
  · rw [heq] at h
    cases h

mutual

/-- What resolution gives refers to no type parameter but those of the site.  One case for each
form of a type expression; the lists inside are handled by the lemmas below, in one mutual
recursion with this one. -/
theorem resolve_formed (hexpand : expand.Closed) (site : Site) (type : TypeExpr)
    {t : Ty} (h : resolve p expand site type = some t) :
    t.Formed site.params := by
  cases type with
  | name name =>
    rw [resolve] at h
    cases h
    exact nameTy_formed p site name
  | qualified package name =>
    rw [resolve] at h
    cases h
    exact formed_named_iff.2 (by simp)
  | generic base args =>
    rw [resolve] at h
    obtain ⟨t₀, ht₀, h⟩ := Option.bind_eq_some_iff.1 h
    obtain ⟨ts, hts, h⟩ := Option.bind_eq_some_iff.1 h
    cases h
    exact applyArgs_formed (resolveArgs_formed hexpand site args hts) (resolve_formed hexpand site base ht₀)
  | pointer elem | slice elem | array len elem | chan dir elem =>
    rw [resolve] at h
    obtain ⟨e, he, h⟩ := Option.bind_eq_some_iff.1 h
    cases h
    exact formed_iff.2 ⟨trivial, List.forall_mem_singleton.2 (resolve_formed hexpand site elem he)⟩
  | map key value =>
    rw [resolve] at h
    obtain ⟨k, hk, h⟩ := Option.bind_eq_some_iff.1 h
    obtain ⟨v, hv, h⟩ := Option.bind_eq_some_iff.1 h
    cases h
    refine formed_iff.2 ⟨trivial, List.forall_mem_cons.2 ⟨resolve_formed hexpand site key hk, ?_⟩⟩
    exact List.forall_mem_singleton.2 (resolve_formed hexpand site value hv)
  | func sig =>
    rw [resolve] at h
    obtain ⟨g, hg, h⟩ := Option.bind_eq_some_iff.1 h
    cases h
    exact formed_iff.2 ⟨trivial, resolveSignature_formed hexpand site sig hg⟩
  | struct fields =>
    rw [resolve] at h
    obtain ⟨fs, hfs, h⟩ := Option.bind_eq_some_iff.1 h
    cases h
    have hfields := resolveFields_formed hexpand site fields hfs
    exact formed_iff.2 ⟨fun f hf => (hfields f hf).1, List.forall_mem_map.2 fun f hf => (hfields f hf).2⟩
  | interface elements =>
    rw [resolve] at h
    obtain ⟨body, hbody, h⟩ := Option.bind_eq_some_iff.1 h
    cases h
    exact resolveElements_formed hexpand site 0 elements formed_empty hbody
  | paren inner =>
    rw [resolve] at h
    exact resolve_formed hexpand site inner h
  | tilde inner =>
    rw [resolve] at h
    obtain ⟨t, ht, h⟩ := Option.bind_eq_some_iff.1 h
    cases h
    exact formed_union_iff.2 (List.forall_mem_singleton.2 (resolve_formed hexpand site inner ht))
  | terms alternatives =>
    rw [resolve] at h
    obtain ⟨ts, hts, h⟩ := Option.bind_eq_some_iff.1 h
    cases h
    exact unionOf_formed (resolveTerms_formed hexpand site alternatives hts)
  | verbatim text =>
    rw [resolve] at h
    cases h
    exact formed_basic text

theorem resolveArgs_formed (hexpand : expand.Closed) (site : Site) (args : List (TypeArg TypeExpr)) {ts : List Ty}
    (h : resolveArgs p expand site args = some ts) : ∀ t ∈ ts, t.Formed site.params := by
  cases args with
  | nil =>
    rw [resolveArgs] at h
    cases h
    simp
  | cons arg rest =>
    obtain ⟨text, terms⟩ := arg
    rw [resolveArgs] at h
    obtain ⟨first, hfirst, h⟩ := Option.bind_eq_some_iff.1 h
    obtain ⟨more, hmore, h⟩ := Option.bind_eq_some_iff.1 h
    cases h
    have hfirst := unionOf_formed (resolveTerms_formed hexpand site terms hfirst)
    exact List.forall_mem_cons.2 ⟨hfirst, resolveArgs_formed hexpand site rest hmore⟩

theorem resolveTerms_formed (hexpand : expand.Closed) (site : Site) (ts : List TypeExpr) {terms : List (Term Ty)}
    (h : resolveTerms p expand site ts = some terms) : ∀ x ∈ terms, x.type.Formed site.params := by
  cases ts with
  | nil =>
    rw [resolveTerms] at h
    cases h
    simp
  | cons type rest =>
    rw [resolveTerms] at h
    obtain ⟨t, ht, h⟩ := Option.bind_eq_some_iff.1 h
    obtain ⟨more, hmore, h⟩ := Option.bind_eq_some_iff.1 h
    cases h
    refine List.forall_mem_cons.2 ⟨?_, resolveTerms_formed hexpand site rest hmore⟩
    have hformed := resolve_formed hexpand site type ht
    split
    · exact withoutTilde_formed hformed
    · exact hformed

theorem resolveParams_formed (hexpand : expand.Closed) (site : Site) (ps : List (Param TypeExpr))
    {resolved : List (Param Ty)}
    (h : resolveParams p expand site ps = some resolved) : ∀ q ∈ resolved, q.type.Formed site.params := by
  cases ps with
  | nil =>
    rw [resolveParams] at h
    cases h
    simp
  | cons q rest =>
    obtain ⟨name, type⟩ := q
    rw [resolveParams] at h
    obtain ⟨t, ht, h⟩ := Option.bind_eq_some_iff.1 h
    obtain ⟨more, hmore, h⟩ := Option.bind_eq_some_iff.1 h
    cases h
    exact List.forall_mem_cons.2 ⟨resolve_formed hexpand site type ht, resolveParams_formed hexpand site rest hmore⟩

theorem resolveSignature_formed (hexpand : expand.Closed) (site : Site) (sig : Signature TypeExpr)
    {g : Signature Ty} (h : resolveSignature p expand site sig = some g) : ∀ t ∈ g.parts, t.Formed site.params := by
  obtain ⟨binders, receiverBinders, params, results, variadic⟩ := sig
  rw [resolveSignature] at h
  obtain ⟨ps, hps, h⟩ := Option.bind_eq_some_iff.1 h
  obtain ⟨rs, hrs, h⟩ := Option.bind_eq_some_iff.1 h
  cases h
  simp only [Signature.parts, List.map_nil, List.nil_append, List.forall_mem_append, List.forall_mem_map]
  exact ⟨resolveParams_formed hexpand site params hps, resolveParams_formed hexpand site results hrs⟩

theorem resolveFields_formed (hexpand : expand.Closed) (site : Site) (fs : List (FieldDecl TypeExpr))
    {fields : List (Field Ty)}
    (h : resolveFields p expand site fs = some fields) :
    ∀ f ∈ fields, f.exported = isExported f.name ∧ f.type.Formed site.params := by
  cases fs with
  | nil =>
    rw [resolveFields] at h
    cases h
    simp
  | cons f rest =>
    obtain ⟨name?, type⟩ := f
    rw [resolveFields] at h
    obtain ⟨t, ht, h⟩ := Option.bind_eq_some_iff.1 h
    obtain ⟨more, hmore, h⟩ := Option.bind_eq_some_iff.1 h
    cases h
    have htype := resolve_formed hexpand site type ht
    exact List.forall_mem_cons.2 ⟨⟨rfl, htype⟩, resolveFields_formed hexpand site rest hmore⟩

/-- Each element adds to a formed body, so that the body stays formed to the end. -/
theorem resolveElements_formed (hexpand : expand.Closed) (site : Site) (depth : Nat) (es : List (Element TypeExpr))
    {before body : Interface Ty} (hbefore : (Ty.interface before).Formed site.params)
    (h : resolveElements p expand site depth before es = some body) :
    (Ty.interface body).Formed site.params := by
  cases es with
  | nil =>
    rw [resolveElements] at h
    cases h
    exact hbefore
  | cons e rest =>
    cases e with
    | method name sig =>
      rw [resolveElements] at h
      obtain ⟨g, hg, h⟩ := Option.bind_eq_some_iff.1 h
      refine resolveElements_formed hexpand site depth rest (merge_formed hbefore ?_ (by simp)) h
      exact List.forall_mem_singleton.2 (resolveSignature_formed hexpand site sig hg)
    | terms alternatives =>
      rw [resolveElements] at h
      split at h
      · next body? hflat =>
        obtain ⟨inner, rfl, h⟩ := Option.bind_eq_some_iff.1 h
        obtain ⟨-, hmethods, hembedded⟩ := formed_interface_iff.1 (flattened?_formed hexpand hflat)
        exact resolveElements_formed hexpand site depth rest (merge_formed hbefore hmethods hembedded) h
      · obtain ⟨terms, hterms, h⟩ := Option.bind_eq_some_iff.1 h
        have hformed := resolveTerms_formed hexpand site alternatives hterms
        split at h
        · next type =>
          refine resolveElements_formed hexpand site depth rest (merge_formed hbefore (by simp) ?_) h
          exact List.forall_mem_singleton.2 (hformed _ List.mem_cons_self)
        · refine resolveElements_formed hexpand site depth rest ?_ h
          obtain ⟨hnodup, hmethods, hembedded⟩ := formed_interface_iff.1 hbefore
          refine formed_interface_iff.2 ⟨hnodup, hmethods, List.forall_mem_append.2 ⟨hembedded, ?_⟩⟩
          exact List.forall_mem_singleton.2 (formed_union_iff.2 hformed)

end

end Resolve

/-! ## Declarations -/

section Declarations

variable {p : Package} (hp : p.Outermost)

include hp

/-- An interface that is taken over was resolved outside of all type parameters. -/
theorem expandWithin_closed (fuel : Nat) : Expansion.Closed (expandWithin p fuel) := by
  intro name depth body h
  induction fuel generalizing name depth body with
  | zero => cases h
  | succ fuel ih =>
    rw [expandWithin] at h
    split at h
    · cases h
      exact formed_empty
    · next t ht =>
      obtain ⟨list, hd, -⟩ := mem_types (List.mem_of_find?_eq_some ht)
      split at h
      · cases h
        exact formed_empty
      · next elements _ =>
        have hformed := resolveElements_formed ih t.site depth elements formed_empty h
        rwa [hp _ hd] at hformed

theorem package_resolve_formed {site : Site} {type : TypeExpr} {t : Ty} (h : p.resolve site type = some t) :
    t.Formed site.params :=
  resolve_formed (expandWithin_closed hp _) site type h

theorem package_signature_formed {site : Site} {sig : Signature TypeExpr} {g : Signature Ty}
    (h : p.signature site sig = some g) : ∀ t ∈ g.parts, t.Formed site.params :=
  resolveSignature_formed (expandWithin_closed hp _) site sig h

/-- The sites of declarations bind no type parameter, so what is resolved there refers to none. -/
theorem Told.formed {t : Ty} (h : Told p t) : t.Formed [] := by
  induction h with
  | basic name => exact formed_basic name
  | resolved hd _ ht =>
    have hformed := package_resolve_formed hp ht
    rwa [hp _ hd] at hformed
  | pointer _ ih => exact formed_iff.2 ⟨trivial, List.forall_mem_singleton.2 ih⟩

theorem binders_formed {site : Site} {binders : List (Binder TypeExpr)} {resolved : List (Binder Ty)}
    (h : p.binders site binders = some resolved) :
    binderNames resolved = binders.map (·.name) ∧ ∀ b ∈ resolved, b.constraint.Formed site.params := by
  induction binders generalizing resolved with
  | nil =>
    cases h
    exact ⟨rfl, by simp⟩
  | cons b rest ih =>
    rw [Package.binders, List.mapM_cons] at h
    obtain ⟨b', hb, h⟩ := Option.bind_eq_some_iff.1 h
    obtain ⟨more, hmore, h⟩ := Option.bind_eq_some_iff.1 h
    obtain ⟨t, ht, hb⟩ := Option.bind_eq_some_iff.1 hb
    cases h
    cases hb
    obtain ⟨hnames, hformed⟩ := ih hmore
    refine ⟨?_, List.forall_mem_cons.2 ⟨package_resolve_formed hp ht, hformed⟩⟩
    rw [binderNames, List.map_cons, ← binderNames, hnames, List.map_cons]

end Declarations

section Symbols

variable {p : Package} (hp : p.Outermost) {site : Site} (hsite : site.params = [])

include hp

/-- A symbol that is not a type declaration is formed when its type is told by the package. -/
theorem Told.symbol_formed {s : Symbol} (hkind : s.kind ≠ .type) (h : Told p s.type) : s.Formed := by
  obtain ⟨hroot, hchildren⟩ := formed_iff.1 (h.formed hp)
  refine ⟨iff_of_false (fun hdefined => ?_) hkind, .inr hroot, fun names c hc => ?_⟩
  · cases htype : s.type with
    | defined _ _ _ _ =>
      rw [htype] at hroot
      exact hroot
    | _ =>
      rw [htype] at hdefined
      cases hdefined
  · exact (hchildren c (mem_children_iff.2 ⟨names, hc⟩)).mono (by simp)

include hsite

theorem funcSymbol_formed {name : String} {sig : Signature TypeExpr} {s : Symbol}
    (h : p.funcSymbol site name sig = some s) : s.Formed := by
  obtain ⟨binders, hbinders, h⟩ := Option.bind_eq_some_iff.1 h
  obtain ⟨g, hg, h⟩ := Option.bind_eq_some_iff.1 h
  cases h
  obtain ⟨hnames, hconstraints⟩ := binders_formed hp hbinders
  have hparams : (site.within (sig.binders.map (·.name))).params ⊆
      ({ g with binders } : Signature Ty).bound := by
    rw [Site.within, hsite, List.nil_append, ← hnames]
    exact List.subset_append_right _ _
  refine ⟨by simp [Ty.kind], .inr trivial, fun names c hc => ?_⟩
  obtain ⟨part, hpart, heq⟩ := List.mem_map.1 hc
  cases heq
  rw [Signature.parts, List.append_assoc] at hpart
  rcases List.mem_append.1 hpart with hpart | hpart
  · obtain ⟨b, hb, rfl⟩ := List.mem_map.1 hpart
    exact (hconstraints b hb).mono hparams
  · refine (package_signature_formed hp hg c ?_).mono hparams
    rw [Signature.parts, List.append_assoc]
    exact List.mem_append_right _ hpart

theorem methodSymbol_formed {receiver : Receiver} {name : String} {sig : Signature TypeExpr} {s : Symbol}
    (h : p.methodSymbol site receiver name sig = some s) : s.Formed := by
  obtain ⟨g, hg, h⟩ := Option.bind_eq_some_iff.1 h
  cases h
  have hparams : (site.within receiver.binders).params ⊆
      ({ g with receiverBinders := receiver.binders } : Signature Ty).bound := by
    rw [Site.within, hsite, List.nil_append]
    exact List.subset_append_left _ _
  refine ⟨by simp [Symbol.method, Ty.kind], .inr trivial, fun names c hc => ?_⟩
  obtain ⟨part, hpart, heq⟩ := List.mem_map.1 hc
  cases heq
  exact (package_signature_formed hp hg c hpart).mono hparams

/-- A type declaration binds its own parameters, so its body may refer to these and to no others. -/
theorem typeSymbol_formed {d : TypeDecl} {s : Symbol} (h : p.typeSymbol site d = some s) : s.Formed := by
  obtain ⟨binders, hbinders, h⟩ := Option.bind_eq_some_iff.1 h
  obtain ⟨underlying, hunderlying, h⟩ := Option.bind_eq_some_iff.1 h
  cases h
  obtain ⟨hnames, hconstraints⟩ := binders_formed hp hbinders
  have hparams : (site.within (d.binders.map (·.name))).params = binderNames binders := by
    rw [Site.within, hsite, List.nil_append, hnames]
  rw [hparams] at hconstraints
  have hunderlying := package_resolve_formed hp hunderlying
  rw [hparams] at hunderlying
  refine ⟨by simp [Ty.kind], .inl rfl, fun names c hc => ?_⟩
  obtain ⟨part, hpart, heq⟩ := List.mem_map.1 hc
  cases heq
  rcases List.mem_append.1 hpart with hpart | hpart
  · obtain ⟨b, hb, rfl⟩ := List.mem_map.1 hpart
    exact hconstraints b hb
  · rwa [List.mem_singleton.1 hpart]

end Symbols

theorem declKind_ne_type (d : Decl) : declKind d ≠ .type := by
  cases d <;> simp [declKind]

/-- Every symbol of a package is formed, whichever kind of declaration it comes from. -/
theorem symbols_formed {p : Package} (hp : p.Outermost) (hexpands : p.Expands) {values : Values}
    (hvalues : p.values = some values) {s : Symbol} (hs : some s ∈ p.symbols values) : s.Formed := by
  obtain ⟨x, hx, ⟨name, sig, -, h⟩ | ⟨receiver, name, sig, -, h⟩ | ⟨list, -, d, -, h⟩ | ⟨hkind, h⟩⟩ :=
    symbols_cases hexpands hvalues hs
  · exact funcSymbol_formed hp (hp x hx) h
  · exact methodSymbol_formed hp (hp x hx) h
  · exact typeSymbol_formed hp (hp x hx) h
  · exact h.symbol_formed hp (by rw [hkind]; exact declKind_ne_type x.2)

/-- The types that loading gives to symbols are closed, have a declaration at the root exactly for types and
nowhere else, and inside of them the methods of an interface have names of their own and a field is exported
if its name is. -/
theorem loaded_types_formed {target : Build.Target} {package : String} {sources : List SourceFile}
    {table : SymbolTable} (h : load target package sources = .ok (some table)) :
    ∀ s ∈ table.symbols,
      (∀ name, ¬ s.type.Free name) ∧
      (s.type.kind = .defined ↔ s.kind = .type) ∧
      (∀ c ∈ s.type.children, ∀ u : Ty, u.Within c → u.kind ≠ .defined) ∧
      (∀ body, (Ty.interface body).Within s.type → (body.methods.map (·.name)).Nodup) ∧
      ∀ fields, (Ty.struct fields).Within s.type → ∀ f ∈ fields, f.exported = isExported f.name := by
  intro s hs
  obtain ⟨hexpands, values, hvalues, hsymbols⟩ := symbols_of_load h
  have hformed := symbols_formed (outermost_ofFiles _) hexpands hvalues (hsymbols s hs)
  refine ⟨hformed.not_free, hformed.kind, fun c hc u hu hdefined => ?_, fun body hbody => ?_,
    fun fields hfields => ?_⟩
  · obtain ⟨names, hchild⟩ := hformed.formed_of_child hc
    have hthis := hchild u hu
    cases u with
    | defined _ _ _ _ => exact hthis
    | _ => cases hdefined
  · obtain ⟨names, hthis⟩ := hformed.formedAt hbody (by simp [Ty.kind])
    exact hthis
  · obtain ⟨names, hthis⟩ := hformed.formedAt hfields (by simp [Ty.kind])
    exact hthis

/-- Type parameters of a type, of a receiver and of a function, a merged interface, and a value that is told
from a function. -/
def genericFile : SourceFile :=
  ⟨"p.go", "package p\ntype Pair[K any, V any] struct \x7b Key K; val V \x7d\n" ++
    "type Failure interface \x7b error; Error() string \x7d\n" ++
    "func (p *Pair[A, B]) Swap(f func(A) Pair[B, A]) \x7b\x7d\n" ++
    "func Map[T any, S ~[]T](xs S) Failure\nfunc First(ps []Pair[int, string])\nvar Default = &First\n"⟩

/-- All symbols of a file with generic declarations. -/
theorem loaded_types_formed_generic : ∃ table, load {} "./p" [genericFile] = .ok (some table) ∧
    table.symbols.map (·.name) = ["(*Pair).Swap", "Default", "Failure", "First", "Map", "Pair"] ∧
    ∀ s ∈ table.symbols, (∀ name, ¬ s.type.Free name) ∧ (s.type.kind = .defined ↔ s.kind = .type) := by
  have hnames : (load {} "./p" [genericFile]).toOption.join.map (fun table => table.symbols.map (·.name)) =
      some ["(*Pair).Swap", "Default", "Failure", "First", "Map", "Pair"] := by
    decide +kernel
  cases h : load {} "./p" [genericFile] with
  | error cause =>
    rw [h] at hnames
    cases hnames
  | ok table? =>
    rw [h] at hnames
    obtain ⟨table, rfl, htable⟩ := Option.map_eq_some_iff.1 hnames
    refine ⟨table, rfl, htable, fun s hs => ?_⟩
    obtain ⟨hclosed, hkind, -⟩ := loaded_types_formed h s hs
    exact ⟨hclosed, hkind⟩

end GoApi.Surface
