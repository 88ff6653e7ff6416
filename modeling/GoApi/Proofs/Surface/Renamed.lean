import GoApi.Proofs.Surface.Formed
import GoApi.Proofs.Ty.OpenRenaming

/-!
# Renamed type parameters in type expressions

`RenamedType literals pairs`: the same type expression up to the names of the type parameters in scope,
where every reference means the same parameter or the same type outside.  What is kept as text stays as
it is: the lengths of arrays, and the names of embedded fields.

While an interface literal is put together, elements that are identical are taken once, and two elements
are compared by a text in which a type parameter looks like a type of the package.  A renaming leaves this
undisturbed if elements coincide on both sides or on none (`SameCoincidences`), and this is so if their
texts can be read and no type in them is named like a parameter (`Legible`).  Then merging keeps two
interface bodies renamed (`merge_renamed`).
-/

namespace GoApi.Surface

open Source

/-! ## Type expressions -/

section Syntax

variable (literals : List (Element TypeExpr) → List (Element TypeExpr) → Prop) (pairs : Pairing)

mutual

/-- The same type expression up to the names of type parameters.  Interface literals that take each other's
place are related by `literals`. -/
def RenamedType : TypeExpr → TypeExpr → Prop
  | .name m, .name m' => SameReference pairs m m'
  | .qualified package name, .qualified package' name' => package = package' ∧ name = name'
  | .generic base args, .generic base' args' => RenamedType base base' ∧ RenamedArgs args args'
  | .pointer elem, .pointer elem' => RenamedType elem elem'
  | .slice elem, .slice elem' => RenamedType elem elem'
  | .array len elem, .array len' elem' => len = len' ∧ RenamedType elem elem'
  | .map key value, .map key' value' => RenamedType key key' ∧ RenamedType value value'
  | .chan dir elem, .chan dir' elem' => dir = dir' ∧ RenamedType elem elem'
  | .func sig, .func sig' => RenamedSignature sig sig'
  | .struct fields, .struct fields' => RenamedFields fields fields'
  | .interface elements, .interface elements' =>
    RenamedElements elements elements' ∧ literals elements elements'
  | .paren inner, .paren inner' => RenamedType inner inner'
  | .tilde inner, .tilde inner' => RenamedType inner inner'
  | .terms alternatives, .terms alternatives' => RenamedTerms alternatives alternatives'
  | .verbatim text, .verbatim text' => text = text'
  | _, _ => False

/-- The texts of type arguments do not count: only the receiver of a method reads them. -/
def RenamedArgs : List (TypeArg TypeExpr) → List (TypeArg TypeExpr) → Prop
  | [], [] => True
  | ⟨_, terms⟩ :: rest, ⟨_, terms'⟩ :: rest' => RenamedTerms terms terms' ∧ RenamedArgs rest rest'
  | _, _ => False

def RenamedTerms : List TypeExpr → List TypeExpr → Prop
  | [], [] => True
  | type :: rest, type' :: rest' => RenamedType type type' ∧ RenamedTerms rest rest'
  | _, _ => False

def RenamedParams : List (Param TypeExpr) → List (Param TypeExpr) → Prop
  | [], [] => True
  | ⟨name, type⟩ :: rest, ⟨name', type'⟩ :: rest' =>
    (name = name' ∧ RenamedType type type') ∧ RenamedParams rest rest'
  | _, _ => False

/-- The parameters and results of a signature; what it binds is left to its declaration. -/
def RenamedSignature : Signature TypeExpr → Signature TypeExpr → Prop
  | ⟨_, _, params, results, variadic⟩, ⟨_, _, params', results', variadic'⟩ =>
    RenamedParams params params' ∧ RenamedParams results results' ∧ variadic = variadic'

/-- Fields keep their names, also those that are embedded. -/
def RenamedFields : List (FieldDecl TypeExpr) → List (FieldDecl TypeExpr) → Prop
  | [], [] => True
  | ⟨name?, type⟩ :: rest, ⟨name?', type'⟩ :: rest' =>
    (name? = name?' ∧ (name? = none → embeddedName type = embeddedName type') ∧ RenamedType type type') ∧
      RenamedFields rest rest'
  | _, _ => False

def RenamedElements : List (Element TypeExpr) → List (Element TypeExpr) → Prop
  | [], [] => True
  | .method name sig :: rest, .method name' sig' :: rest' =>
    (name = name' ∧ RenamedSignature sig sig') ∧ RenamedElements rest rest'
  | .terms alternatives :: rest, .terms alternatives' :: rest' =>
    RenamedTerms alternatives alternatives' ∧ RenamedElements rest rest'
  | _, _ => False

end

end Syntax

/-! ## The elements of interface literals -/

/-- The types that an element of an interface literal brings in: those of the interface that it embeds, or
the type or union that it is. -/
def Package.broughtIn (p : Package) (site : Site) : Element TypeExpr → List Ty
  | .method _ _ => []
  | .terms alternatives =>
    match flattened? p p.expand site 0 alternatives with
    | some body? => (body?.map (·.embedded)).getD []
    | none => ((resolveTerms p p.expand site alternatives).map unionOf).toList

/-- The types that the elements of an interface literal bring in. -/
def Package.elements (p : Package) (site : Site) (es : List (Element TypeExpr)) : List Ty :=
  es.flatMap (p.broughtIn site)

/-- The elements that take each other's places in two literals. -/
def Package.elementPairs (p : Package) (site site' : Site) (es es' : List (Element TypeExpr)) : List (Ty × Ty) :=
  (p.elements site es).zip (p.elements site' es')

theorem elements_cons (p : Package) (site : Site) (e : Element TypeExpr) (rest : List (Element TypeExpr)) :
    p.elements site (e :: rest) = p.broughtIn site e ++ p.elements site rest := rfl

/-- Elements are identical in one literal if and only if they are in the other one. -/
def SameCoincidences (p : Package) (site site' : Site) (es es' : List (Element TypeExpr)) : Prop :=
  ∀ x ∈ p.elementPairs site site' es es', ∀ y ∈ p.elementPairs site site' es es',
    x.1.identical y.1 = x.2.identical y.2

/-- The text of an element can be read, since no type in it is named like a type parameter. -/
structure Legible (p : Package) (site : Site) (es : List (Element TypeExpr)) : Prop where
  params : ∀ n ∈ site.params, isGoName n = true
  elements : ∀ t ∈ p.elements site es, t.ConstraintShaped (· ∈ site.params) (· ∉ site.params)

/-- A renaming leaves the elements of two literals apart or together as they are. -/
def Undisturbed (p : Package) (site site' : Site) (es es' : List (Element TypeExpr)) : Prop :=
  SameCoincidences p site site' es es' ∨ (Legible p site es ∧ Legible p site' es')

/-- The type parameters in scope at two places, in pairs. -/
abbrev Site.pairing (site site' : Site) : Pairing := Pairing.enter [] site.params site'.params

/-! ## Parts of descriptors -/

section Parts

variable {pairs : Pairing}

/-- A closed type has nothing to rename. -/
theorem renamed_of_formed {t : Ty} (h : t.Formed []) : t.Renamed pairs t :=
  renamed_self t fun _ hn => absurd (h.mem_of_free hn) (by simp)

theorem withoutTilde_renamed {t t' : Ty} (h : t.Renamed pairs t') :
    (withoutTilde t).Renamed pairs (withoutTilde t') := by
  have hself := h
  cases h with
  | @union _ ts ts' htildes hts =>
    have hterms : List.Forall₂ (TermRenamed pairs) ts ts' :=
      List.forall₂_iff_zip.2 ⟨by simpa using congrArg List.length htildes,
        fun hx => ⟨eq_of_zip htildes hx, hts _ hx⟩⟩
    cases hterms with
    | nil => exact hself
    | @cons x x' rest rest' hx hrest =>
      obtain ⟨tilde, type⟩ := x
      obtain ⟨tilde', type'⟩ := x'
      obtain rfl : tilde = tilde' := hx.1
      cases tilde with
      | false => exact hself
      | true =>
        cases hrest with
        | nil => exact hx.2
        | cons _ _ => exact hself
  | _ => exact hself

theorem unionOf_renamed {ts ts' : List (Term Ty)} (h : List.Forall₂ (TermRenamed pairs) ts ts') :
    (unionOf ts).Renamed pairs (unionOf ts') := by
  have hunion := renamed_union h
  cases h with
  | nil => exact hunion
  | @cons x x' rest rest' hx hrest =>
    obtain ⟨tilde, type⟩ := x
    obtain ⟨tilde', type'⟩ := x'
    obtain rfl : tilde = tilde' := hx.1
    cases tilde with
    | true => exact hunion
    | false =>
      cases hrest with
      | nil => exact hx.2
      | cons _ _ => exact hunion

/-- Two signatures that bind nothing, with renamed parameters and results. -/
structure SignatureRenamed (pairs : Pairing) (g g' : Signature Ty) : Prop where
  binders : g.binders = [] ∧ g'.binders = []
  receiverBinders : g.receiverBinders = [] ∧ g'.receiverBinders = []
  params : List.Forall₂ (ParamRenamed pairs) g.params g'.params
  results : List.Forall₂ (ParamRenamed pairs) g.results g'.results
  variadic : g.variadic = g'.variadic

theorem SignatureRenamed.renamed {g g' : Signature Ty} (h : SignatureRenamed pairs g g') :
    (Ty.func g).Renamed pairs (.func g') := by
  obtain ⟨bs, rs, ps, qs, v⟩ := g
  obtain ⟨bs', rs', ps', qs', v'⟩ := g'
  obtain ⟨⟨rfl, rfl⟩, ⟨rfl, rfl⟩, hps, hqs, rfl⟩ := h
  exact renamed_func rfl .nil hps hqs rfl

/-- Arguments are renamed with the type that they are given to. -/
theorem applyArgs_renamed {args args' : List Ty} (hargs : List.Forall₂ (Ty.Renamed pairs) args args') {t t' : Ty}
    (h : t.Renamed pairs t') : (applyArgs args t).Renamed pairs (applyArgs args' t') := by
  have hself := h
  cases h with
  | named _ _ => exact renamed_named hargs
  | _ => exact hself

end Parts

/-! ## Merging -/

section Merging

variable {α β : Type} {R : α → β → Prop} {same : α → α → Bool} {same' : β → β → Bool}

/-- Adding what is not there yet adds the same on both sides. -/
theorem added_renamed (hsame : ∀ x x' y y', R x x' → R y y' → same x y = same' x' y') {xs ys : List α}
    {xs' ys' : List β} (hxs : List.Forall₂ R xs xs') (hys : List.Forall₂ R ys ys') :
    List.Forall₂ R (ys.foldl (fun xs y => if xs.any (same y) then xs else xs ++ [y]) xs)
      (ys'.foldl (fun xs y => if xs.any (same' y) then xs else xs ++ [y]) xs') := by
  induction hys generalizing xs xs' with
  | nil => exact hxs
  | @cons y y' ys ys' hy _ ih =>
    rw [List.foldl_cons, List.foldl_cons, any_eq_of_forall₂ hxs fun x x' hx => hsame y y' x x' hy hx]
    refine ih ?_
    split
    · exact hxs
    · exact List.rel_append hxs (.cons hy .nil)

end Merging

/-- Two interface bodies with renamed methods and elements; the elements are among given pairs. -/
structure BodyRenamed (pairs : Pairing) (among : List (Ty × Ty)) (body body' : Interface Ty) : Prop where
  methods : List.Forall₂ (MethodRenamed pairs) body.methods body'.methods
  embedded : List.Forall₂ (fun e e' => e.Renamed pairs e' ∧ (e, e') ∈ among) body.embedded body'.embedded

section Bodies

variable {pairs : Pairing} {among : List (Ty × Ty)}

/-- A renaming of bodies is one of interface types, once the elements to be told apart are
forgotten. -/
theorem BodyRenamed.renamed {body body' : Interface Ty} (h : BodyRenamed pairs among body body') :
    (Ty.interface body).Renamed pairs (.interface body') :=
  renamed_interface h.methods (h.embedded.imp fun _ _ he => he.1)

/-- A closed body is taken over as it is. -/
theorem bodyRenamed_of_formed {body : Interface Ty} (h : (Ty.interface body).Formed [])
    (hamong : ∀ x ∈ body.embedded.zip body.embedded, x ∈ among) : BodyRenamed pairs among body body := by
  have hself : (Ty.interface body).Renamed pairs (.interface body) := renamed_of_formed h
  obtain ⟨hmethods, hembedded⟩ := renamed_interface_iff.1 hself
  refine ⟨hmethods, List.forall₂_iff_zip.2 ⟨rfl, fun hx => ⟨rel_of_mem_zip hembedded hx, hamong _ hx⟩⟩⟩

variable (hamong : ∀ x ∈ among, ∀ y ∈ among, x.1.identical y.1 = x.2.identical y.2)

include hamong

/-- Merging asks which elements are identical, and `among` says that both sides answer alike. -/
theorem merge_renamed {into into' more more' : Interface Ty} (hinto : BodyRenamed pairs among into into')
    (hmore : BodyRenamed pairs among more more') :
    BodyRenamed pairs among (mergeInterface into more) (mergeInterface into' more') := by
  have hnames : ∀ m m' n n' : Method Ty, MethodRenamed pairs m m' → MethodRenamed pairs n n' →
      (n.name == m.name) = (n'.name == m'.name) := by
    intro m m' n n' hm hn
    rw [hm.1, hn.1]
  exact ⟨added_renamed hnames hinto.methods hmore.methods, added_renamed
    (fun e e' d d' he hd => hamong (e, e') he.2 (d, d') hd.2) hinto.embedded hmore.embedded⟩

/-- An interface body with one more element that is no embedded interface. -/
def withElement (before : Interface Ty) : List (Term Ty) → Interface Ty
  | [⟨false, type⟩] => mergeInterface before { embedded := [type] }
  | terms => { before with embedded := before.embedded ++ [.union terms] }

/-- On both sides a lone type is merged in, and a union is added at the end. -/
theorem withElement_renamed {before before' : Interface Ty} (hbefore : BodyRenamed pairs among before before')
    {terms terms' : List (Term Ty)} (h : List.Forall₂ (TermRenamed pairs) terms terms')
    (hmem : (unionOf terms, unionOf terms') ∈ among) :
    BodyRenamed pairs among (withElement before terms) (withElement before' terms') := by
  have hunion : (Ty.union terms, Ty.union terms') ∈ among →
      BodyRenamed pairs among { before with embedded := before.embedded ++ [.union terms] }
        { before' with embedded := before'.embedded ++ [.union terms'] } := fun hmem =>
    ⟨hbefore.methods, List.rel_append hbefore.embedded (.cons ⟨renamed_union h, hmem⟩ .nil)⟩
  cases h with
  | nil => exact hunion hmem
  | @cons x x' rest rest' hx hrest =>
    obtain ⟨tilde, type⟩ := x
    obtain ⟨tilde', type'⟩ := x'
    obtain rfl : tilde = tilde' := hx.1
    cases tilde with
    | true => exact hunion hmem
    | false =>
      cases hrest with
      | nil => exact merge_renamed hamong hbefore ⟨.nil, .cons ⟨hx.2, hmem⟩ .nil⟩
      | cons _ _ => exact hunion hmem

end Bodies

/-- An element that is not taken in by name is resolved, and `withElement` adds the outcome. -/
theorem resolveElements_terms {p : Package} {expand : Expansion} {site : Site} {depth : Nat}
    {alternatives : List TypeExpr} (h : flattened? p expand site depth alternatives = none)
    (before : Interface Ty) (rest : List (Element TypeExpr)) :
    resolveElements p expand site depth before (.terms alternatives :: rest) =
      (resolveTerms p expand site alternatives).bind fun terms =>
        resolveElements p expand site depth (withElement before terms) rest := by
  rw [resolveElements, h]
  cases resolveTerms p expand site alternatives with
  | none => rfl
  | some terms =>
    dsimp only [Option.bind_some, Option.bind_eq_bind]
    split
    · rfl
    · next hne =>
      unfold withElement
      split
      · next type => exact absurd rfl (hne type)
      · rfl

end GoApi.Surface
