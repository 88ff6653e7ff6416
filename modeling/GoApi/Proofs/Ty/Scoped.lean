import GoApi.Proofs.Ty.Children
import GoApi.Symbol
import Mathlib.Logic.Relation

/-!
# Type parameters and their binders

A type parameter is free in a descriptor if it occurs outside of the binders of its name (`Ty.Free`).

`Ty.Formed params` is what the sources of a package leave below the root of a descriptor: the type parameters
that occur are among `params`, no declaration stands inside, interfaces have no two methods of one name, and
the name of a field says whether it is exported.  A symbol is formed if its type has at the root what suits its
kind and binds there what stands below (`Symbol.Formed`).
-/

namespace GoApi

/-! ## Free type parameters -/

/-- The descriptors right below one, each with the type parameters that are bound on the way to it. -/
def Ty.scopedChildren : Ty → List (List String × Ty)
  | .interface body =>
    (body.methods.flatMap fun m => m.sig.parts.map (m.sig.bound, ·)) ++ body.embedded.map ([], ·)
  | .func g => g.parts.map (g.bound, ·)
  | .defined _ bs _ u => (bs.map (·.constraint) ++ [u]).map (binderNames bs, ·)
  | t => t.children.map ([], ·)

/-- A type parameter occurs outside of the binders of its name. -/
inductive Ty.Free (name : String) : Ty → Prop
  | here : Free name (.typeParam name)
  | child {t c : Ty} {names : List String} (hc : (names, c) ∈ t.scopedChildren) (hname : name ∉ names)
      (h : Free name c) : Free name t

theorem mem_children_iff {t c : Ty} : c ∈ t.children ↔ ∃ names, (names, c) ∈ t.scopedChildren := by
  cases t with
  | interface body =>
    simp only [Ty.scopedChildren, Ty.children, List.mem_append, List.mem_flatMap, List.mem_map, Prod.mk.injEq]
    constructor
    · rintro (⟨m, hm, hc⟩ | hc)
      · exact ⟨_, .inl ⟨m, hm, c, hc, rfl, rfl⟩⟩
      · exact ⟨_, .inr ⟨c, hc, rfl, rfl⟩⟩
    · rintro ⟨names, ⟨m, hm, part, hpart, -, rfl⟩ | ⟨e, he, -, rfl⟩⟩
      · exact .inl ⟨m, hm, hpart⟩
      · exact .inr he
  | _ =>
    simp only [Ty.scopedChildren, List.mem_map, Prod.mk.injEq]
    constructor
    · intro hc
      exact ⟨_, c, hc, rfl, rfl⟩
    · rintro ⟨names, part, hpart, -, rfl⟩
      exact hpart

/-! ## Descriptors inside others -/

/-- A descriptor stands somewhere inside another one, or is that one. -/
abbrev Ty.Within : Ty → Ty → Prop := Relation.ReflTransGen fun c t => c ∈ t.children

/-- What a descriptor is by itself, where the type parameters `params` are in force. -/
def Ty.FormedAt (params : List String) : Ty → Prop
  | .typeParam name => name ∈ params
  | .struct fields => ∀ f ∈ fields, f.exported = isExported f.name
  | .interface body => (body.methods.map (·.name)).Nodup
  | .defined _ _ _ _ => False
  | _ => True

/-- Every descriptor inside another one is as it should be. -/
def Ty.Formed (params : List String) (t : Ty) : Prop := ∀ u : Ty, u.Within t → u.FormedAt params

theorem formed_iff {params : List String} {t : Ty} :
    t.Formed params ↔ t.FormedAt params ∧ ∀ c ∈ t.children, c.Formed params := by
  constructor
  · intro h
    exact ⟨h t .refl, fun c hc u hu => h u (hu.tail hc)⟩
  · rintro ⟨ht, hchildren⟩ u hu
    rcases Relation.ReflTransGen.cases_tail hu with rfl | ⟨c, huc, hc⟩
    · exact ht
    · exact hchildren c hc u huc

theorem Ty.Formed.mono {params more : List String} (hsub : params ⊆ more) {t : Ty} (h : t.Formed params) :
    t.Formed more := by
  intro u hu
  have hthis := h u hu
  cases u with
  | typeParam name => exact hsub hthis
  | _ => exact hthis

/-- The free parameters of a formed descriptor are in force. -/
theorem Ty.Formed.mem_of_free {params : List String} {name : String} {t : Ty} (h : t.Formed params)
    (hfree : t.Free name) : name ∈ params := by
  induction hfree with
  | here => exact h _ .refl
  | child hc _ _ ih => exact ih ((formed_iff.1 h).2 _ (mem_children_iff.2 ⟨_, hc⟩))

/-! ## Symbols -/

/-- A symbol whose type binds what it mentions. -/
structure Symbol.Formed (s : Symbol) : Prop where
  kind : s.type.kind = .defined ↔ s.kind = .type
  root : s.kind = .type ∨ s.type.FormedAt []
  below : ∀ names c, (names, c) ∈ s.type.scopedChildren → c.Formed names

namespace Symbol.Formed

variable {s : Symbol} (hs : s.Formed)

include hs

theorem not_free (name : String) : ¬ s.type.Free name := by
  intro hfree
  cases htype : s.type with
  | typeParam n =>
    rcases hs.root with hkind | hroot
    · have hdefined := hs.kind.2 hkind
      rw [htype] at hdefined
      cases hdefined
    · rw [htype] at hroot
      cases hroot
  | _ =>
    rw [htype] at hfree
    cases hfree with
    | child hc hname h => exact hname ((hs.below _ _ (by rwa [htype])).mem_of_free h)

theorem formed_of_child {c : Ty} (hc : c ∈ s.type.children) : ∃ names, c.Formed names := by
  obtain ⟨names, hscoped⟩ := mem_children_iff.1 hc
  exact ⟨names, hs.below names c hscoped⟩

/-- Every descriptor inside that is no declaration is as it should be. -/
theorem formedAt {u : Ty} (hu : u.Within s.type) (hdefined : u.kind ≠ .defined) : ∃ names, u.FormedAt names := by
  rcases Relation.ReflTransGen.cases_tail hu with rfl | ⟨c, huc, hc⟩
  · exact ⟨[], hs.root.resolve_left fun hkind => hdefined (hs.kind.2 hkind)⟩
  · obtain ⟨names, hformed⟩ := hs.formed_of_child hc
    exact ⟨names, hformed u huc⟩

end Symbol.Formed

end GoApi
