import GoApi.Proofs.Surface.Nesting

/-!
# Walks through embedded interfaces

One declared interface embeds another one if the body of that one takes the place of its name (`Embeds`).  `Walk`
is the depth-first walk through the elements of an interface in the order of the source.  It meets methods of
exactly the names that are written in an interface that can be reached, or that `error` brings there:

    method ∈ ms.map (·.name) ↔ OwnsIn p site es method ∨ ∃ u, EmbedsIn p site es u ∧ …      (Walk.mem_names)

A name with type arguments is not entered (`Leaves`).
-/

namespace GoApi.Surface

open Source Relation

/-! ## Interfaces that embed interfaces -/

/-- The elements of a declared interface. -/
def LocalType.elements (t : LocalType) : List (Element TypeExpr) :=
  match t.decl.body with
  | .interface elements => elements
  | _ => []

/-- The place inside a declaration, with its type parameters in scope. -/
def LocalType.inside (t : LocalType) : Site := t.site.within (t.decl.binders.map (·.name))

/-- Whether a name stands for the predeclared `error`. -/
def isError (p : Package) (site : Site) (name : String) : Bool :=
  name == "error" && !site.params.contains name && (p.type? name).isNone

/-- The name that an expression refers to, if it is a reference to a type of the package. -/
def refName? : TypeExpr → Option String
  | .name name => some name
  | .generic base _ => refName? base
  | .paren inner => refName? inner
  | .terms [inner] => refName? inner
  | _ => none

/-- The name that an expression refers to from inside of parentheses. -/
def groupedName? : TypeExpr → Option String
  | .generic base [] => refName? base
  | .paren inner => refName? inner
  | .terms [inner] => refName? inner
  | _ => none

/-- The elements of an interface body that are a single type. -/
def soleTerms (es : List (Element TypeExpr)) : List TypeExpr :=
  es.filterMap fun
    | .terms [e] => some e
    | _ => none

/-- Among the elements is the name of an interface whose body takes its place. -/
def EmbedsIn (p : Package) (site : Site) (es : List (Element TypeExpr)) (u : LocalType) : Prop :=
  ∃ name ∈ loneNames es, flattens p site name = true ∧ p.type? name = some u

/-- The elements bring in a method by themselves: it is written out, or it is that of `error`. -/
def OwnsIn (p : Package) (site : Site) (es : List (Element TypeExpr)) (method : String) : Prop :=
  (∃ sig, .method method sig ∈ es) ∨ (method = "Error" ∧ ∃ name ∈ loneNames es, isError p site name = true)

/-- Among the elements is a name with type arguments, and what is written there resolves to the given types. -/
def AppliesIn (p : Package) (site : Site) (es : List (Element TypeExpr)) (name : String) (args : List Ty) : Prop :=
  ∃ base written, .generic base written ∈ soleTerms es ∧ refName? base = some name ∧ written ≠ [] ∧
    resolveArgs p p.expand site written = some args

/-- One declared interface embeds another one. -/
def Embeds (p : Package) (t u : LocalType) : Prop :=
  t ∈ p.types ∧ EmbedsIn p t.inside t.elements u

/-- Something is the case in an interface that can be reached through embedded ones. -/
def Reaches (p : Package) (t : LocalType) (holds : LocalType → Prop) : Prop :=
  ∃ u, ReflTransGen (Embeds p) t u ∧ holds u

/-- A declared interface brings in a method by itself. -/
def Owns (p : Package) (method : String) (t : LocalType) : Prop := OwnsIn p t.inside t.elements method

/-- A declared interface gives a name the type arguments. -/
def Applies (p : Package) (name : String) (args : List Ty) (t : LocalType) : Prop :=
  AppliesIn p t.inside t.elements name args

/-- The methods that a walk through the elements meets, in order, if it goes into each embedded interface where
its name stands. -/
inductive Walk (p : Package) : Site → List (Element TypeExpr) → List (Method Ty) → Prop
  | done {site : Site} : Walk p site [] []
  | method {site : Site} {name : String} {sig : Signature TypeExpr} {es : List (Element TypeExpr)}
      {g : Signature Ty} {ms : List (Method Ty)} (hg : p.signature site sig = some g) (h : Walk p site es ms) :
      Walk p site (.method name sig :: es) (⟨name, g⟩ :: ms)
  | embedded {site : Site} {name : String} {es : List (Element TypeExpr)} {u : LocalType}
      {inner ms : List (Method Ty)} (hname : flattens p site name = true) (hu : p.type? name = some u)
      (hinner : Walk p u.inside u.elements inner) (h : Walk p site es ms) :
      Walk p site (.terms [.name name] :: es) (inner ++ ms)
  | error {site : Site} {name : String} {es : List (Element TypeExpr)} {ms : List (Method Ty)}
      (hname : isError p site name = true) (h : Walk p site es ms) :
      Walk p site (.terms [.name name] :: es) (errorInterface.methods ++ ms)
  | other {site : Site} {alternatives : List TypeExpr} {es : List (Element TypeExpr)} {ms : List (Method Ty)}
      (hnone : ∀ name ∈ loneName? alternatives, flattens p site name = false ∧ isError p site name = false)
      (h : Walk p site es ms) : Walk p site (.terms alternatives :: es) ms

/-- A name is flattened where it is a local interface and no type parameter hides it. -/
theorem flattens_iff {p : Package} {site : Site} {name : String} :
    flattens p site name = true ↔ name ∉ site.params ∧ IsInterface p name := by
  constructor
  · intro h
    refine ⟨?_, isInterface_of_flattens h⟩
    simp only [flattens, Bool.and_eq_true, Bool.not_eq_true'] at h
    simpa using h.1
  · rintro ⟨hparam, t, es, ht, hlit⟩
    simp [flattens, hparam, ht, hlit]

theorem isError_eq_false {p : Package} {site : Site} {name : String} (h : flattens p site name = true) :
    isError p site name = false := by
  obtain ⟨t, es, ht, -⟩ := isInterface_of_flattens h
  simp [isError, ht]

theorem flattens_eq_false {p : Package} {site : Site} {name : String} (h : isError p site name = true) :
    flattens p site name = false := by
  rw [← Bool.not_eq_true]
  intro hflat
  simp [isError_eq_false hflat] at h

/-- A walk meets the same methods each time. -/
theorem Walk.unique {p : Package} {site : Site} {es : List (Element TypeExpr)} {ms ms' : List (Method Ty)}
    (h : Walk p site es ms) (h' : Walk p site es ms') : ms = ms' := by
  induction h generalizing ms' with
  | done =>
    cases h'
    rfl
  | method hg _ ih =>
    cases h' with
    | method hg' h' =>
      cases hg.symm.trans hg'
      rw [ih h']
  | embedded hname hu _ _ ihinner ih =>
    cases h' with
    | embedded _ hu' hinner' h' =>
      cases hu.symm.trans hu'
      rw [ihinner hinner', ih h']
    | error hname' _ => simp [isError_eq_false hname] at hname'
    | other hnone _ => simp [(hnone _ rfl).1] at hname
  | error hname _ ih =>
    cases h' with
    | embedded hname' _ _ _ => simp [isError_eq_false hname'] at hname
    | error _ h' => rw [ih h']
    | other hnone _ => simp [(hnone _ rfl).2] at hname
  | other hnone _ ih =>
    cases h' with
    | embedded hname' _ _ _ => simp [(hnone _ rfl).1] at hname'
    | error hname' _ => simp [(hnone _ rfl).2] at hname'
    | other _ h' => exact ih h'

/-! ## The names that a walk meets -/

section Names

variable {p : Package} {site : Site} {es : List (Element TypeExpr)}

/-- Only an alternative that stands alone embeds; a union of several is kept as it is. -/
theorem embedsIn_terms {alternatives : List TypeExpr} {u : LocalType} :
    EmbedsIn p site (.terms alternatives :: es) u ↔
      (∃ name ∈ loneName? alternatives, flattens p site name = true ∧ p.type? name = some u) ∨
        EmbedsIn p site es u := by
  simp [EmbedsIn, loneNames, or_and_right, exists_or]

theorem ownsIn_method {name : String} {sig : Signature TypeExpr} {method : String} :
    OwnsIn p site (.method name sig :: es) method ↔ method = name ∨ OwnsIn p site es method := by
  simp [OwnsIn, loneNames, exists_or, or_assoc]

/-- The predeclared `error` brings its one method in itself. -/
theorem ownsIn_terms {alternatives : List TypeExpr} {method : String} :
    OwnsIn p site (.terms alternatives :: es) method ↔
      (method = "Error" ∧ ∃ name ∈ loneName? alternatives, isError p site name = true) ∨
        OwnsIn p site es method := by
  simp only [OwnsIn, loneNames, List.mem_cons, reduceCtorEq, false_or, List.mem_append, Option.mem_toList,
    Option.mem_def, or_and_right, exists_or, and_or_left]
  exact or_left_comm

/-- One step of a walk: the property holds here, or after the first embedding on the way. -/
theorem reaches_iff {t : LocalType} (ht : t ∈ p.types) {holds : LocalType → Prop} :
    Reaches p t holds ↔ holds t ∨ ∃ u, EmbedsIn p t.inside t.elements u ∧ Reaches p u holds := by
  constructor
  · rintro ⟨v, hv, hholds⟩
    rcases hv.cases_head with rfl | ⟨u, hu, huv⟩
    · exact .inl hholds
    · exact .inr ⟨u, hu.2, v, huv, hholds⟩
  · rintro (hholds | ⟨u, hu, v, huv, hholds⟩)
    · exact ⟨t, .refl, hholds⟩
    · exact ⟨v, .head ⟨ht, hu⟩ huv, hholds⟩

/-- A walk meets methods of all names that can be reached, and of no others. -/
theorem Walk.mem_names {ms : List (Method Ty)} (h : Walk p site es ms) (method : String) :
    method ∈ ms.map (·.name) ↔
      OwnsIn p site es method ∨ ∃ u, EmbedsIn p site es u ∧ Reaches p u (Owns p method) := by
  induction h with
  | done => simp [OwnsIn, EmbedsIn, loneNames]
  | method _ _ ih =>
    rw [List.map_cons, List.mem_cons, ih, ownsIn_method, or_assoc]
    rfl
  | embedded hname hu _ _ ihinner ih =>
    rw [List.map_append, List.mem_append, ihinner, ih, ← Owns,
      ← reaches_iff (List.mem_of_find?_eq_some hu), ownsIn_terms]
    simp only [embedsIn_terms, loneName?, Option.mem_some, exists_eq_left', hname, hu, Option.some.injEq,
      isError_eq_false hname, true_and, or_and_right, exists_or]
    simp only [Bool.false_eq_true, and_false, false_or]
    exact or_left_comm
  | error hname _ ih =>
    rw [List.map_append, List.mem_append, ih, ownsIn_terms]
    simp only [embedsIn_terms, loneName?, Option.mem_some, exists_eq_left', hname, flattens_eq_false hname,
      errorInterface]
    simp [or_assoc]
  | @other site alternatives es ms hnone _ ih =>
    have herror : ¬ (method = "Error" ∧ ∃ name ∈ loneName? alternatives, isError p site name = true) := by
      rintro ⟨-, name, hname, herror⟩
      simp [(hnone name hname).2] at herror
    have hembeds : ∀ u, EmbedsIn p site (.terms alternatives :: es) u ↔ EmbedsIn p site es u := by
      intro u
      rw [embedsIn_terms, or_iff_right]
      rintro ⟨name, hname, hflat, -⟩
      simp [(hnone name hname).1] at hflat
    rw [ih, ownsIn_terms]
    simp only [herror, hembeds, false_or]

end Names

/-! ## Names with type arguments -/

/-- The elements, or those of an interface that they lead to, give a name the type arguments. -/
def Leaves (p : Package) (site : Site) (es : List (Element TypeExpr)) (name : String) (args : List Ty) : Prop :=
  AppliesIn p site es name args ∨ ∃ u, EmbedsIn p site es u ∧ Reaches p u (Applies p name args)

theorem mem_soleTerms {es : List (Element TypeExpr)} {e : TypeExpr} : e ∈ soleTerms es ↔ .terms [e] ∈ es := by
  rw [soleTerms, List.mem_filterMap]
  constructor
  · rintro ⟨element, hmem, heq⟩
    split at heq
    · cases heq
      exact hmem
    · cases heq
  · intro hmem
    exact ⟨_, hmem, rfl⟩

theorem loneNames_cons (e : Element TypeExpr) (es : List (Element TypeExpr)) :
    loneNames (e :: es) = loneNames [e] ++ loneNames es := by
  cases e with
  | method _ _ => rfl
  | terms alternatives => rw [loneNames, loneNames, loneNames, List.append_nil]

/-- What is left at the first element is left in the whole list. -/
theorem Leaves.of_head {p : Package} {site : Site} {e : Element TypeExpr} {name : String} {args : List Ty}
    (h : Leaves p site [e] name args) (es : List (Element TypeExpr)) : Leaves p site (e :: es) name args := by
  rcases h with ⟨base, written, hx, hname⟩ | ⟨u, ⟨n, hn, hu⟩, hreaches⟩
  · refine .inl ⟨base, written, mem_soleTerms.2 ?_, hname⟩
    rw [← List.mem_singleton.1 (mem_soleTerms.1 hx)]
    exact List.mem_cons_self
  · refine .inr ⟨u, ⟨n, ?_, hu⟩, hreaches⟩
    rw [loneNames_cons]
    exact List.mem_append_left _ hn

theorem Leaves.of_tail {p : Package} {site : Site} {es : List (Element TypeExpr)} {name : String} {args : List Ty}
    (h : Leaves p site es name args) (e : Element TypeExpr) : Leaves p site (e :: es) name args := by
  rcases h with ⟨base, written, hx, hname⟩ | ⟨u, ⟨n, hn, hu⟩, hreaches⟩
  · exact .inl ⟨base, written, mem_soleTerms.2 (List.mem_cons_of_mem e (mem_soleTerms.1 hx)), hname⟩
  · refine .inr ⟨u, ⟨n, ?_, hu⟩, hreaches⟩
    rw [loneNames_cons]
    exact List.mem_append_right _ hn

end GoApi.Surface
