import GoApi.Proofs.Ty.Shape
import Mathlib.Data.List.Perm.Basic

/-!
# Descriptors that differ in nothing that counts

`Ty.Alike a b`: the same tree, up to

* the names of parameters and results,
* the order of an interface's methods and of its embedded elements,
* the names that a generic receiver binds, which are not written,
* whether a plain name is read as a predeclared type or as a type of the package.
-/

namespace GoApi

mutual

/-- The same tree up to what does not count. -/
def Ty.Alike : Ty → Ty → Prop
  | .basic n, .basic m => n = m
  | .basic n, .named p m args => p = none ∧ n = m ∧ args = []
  | .named p n args, .basic m => p = none ∧ n = m ∧ args = []
  | .named p n args, .named p' m args' => p = p' ∧ n = m ∧ Ty.AlikeList args args'
  | .typeParam n, .typeParam m => n = m
  | .pointer e, .pointer e' => Ty.Alike e e'
  | .slice e, .slice e' => Ty.Alike e e'
  | .array l e, .array l' e' => l = l' ∧ Ty.Alike e e'
  | .map k v, .map k' v' => Ty.Alike k k' ∧ Ty.Alike v v'
  | .chan d e, .chan d' e' => d = d' ∧ Ty.Alike e e'
  | .struct fs, .struct fs' => Ty.AlikeFields fs fs'
  | .interface ⟨ms, es⟩, .interface ⟨ms', es'⟩ =>
    (∃ ns, ns.Perm ms' ∧ Ty.AlikeMethods ms ns) ∧ ∃ ds, ds.Perm es' ∧ Ty.AlikeList es ds
  | .func g, .func g' => Ty.AlikeSignature g g'
  | .union ts, .union ts' => Ty.AlikeTerms ts ts'
  | .defined n bs a u, .defined n' bs' a' u' =>
    n = n' ∧ Ty.AlikeBinders bs bs' ∧ a = a' ∧ Ty.Alike u u'
  | _, _ => False

def Ty.AlikeList : List Ty → List Ty → Prop
  | [], [] => True
  | t :: ts, t' :: ts' => Ty.Alike t t' ∧ Ty.AlikeList ts ts'
  | _, _ => False

/-- Fields count with their names, types and flags. -/
def Ty.AlikeFields : List (Field Ty) → List (Field Ty) → Prop
  | [], [] => True
  | ⟨n, t, e, x⟩ :: fs, ⟨n', t', e', x'⟩ :: fs' =>
    (n = n' ∧ Ty.Alike t t' ∧ e = e' ∧ x = x') ∧ Ty.AlikeFields fs fs'
  | _, _ => False

def Ty.AlikeMethods : List (Method Ty) → List (Method Ty) → Prop
  | [], [] => True
  | ⟨n, g⟩ :: ms, ⟨n', g'⟩ :: ms' => (n = n' ∧ Ty.AlikeSignature g g') ∧ Ty.AlikeMethods ms ms'
  | _, _ => False

def Ty.AlikeTerms : List (Term Ty) → List (Term Ty) → Prop
  | [], [] => True
  | ⟨b, t⟩ :: ts, ⟨b', t'⟩ :: ts' => (b = b' ∧ Ty.Alike t t') ∧ Ty.AlikeTerms ts ts'
  | _, _ => False

/-- Parameters count with their types only. -/
def Ty.AlikeParams : List (Param Ty) → List (Param Ty) → Prop
  | [], [] => True
  | ⟨_, t⟩ :: ps, ⟨_, t'⟩ :: ps' => Ty.Alike t t' ∧ Ty.AlikeParams ps ps'
  | _, _ => False

def Ty.AlikeBinders : List (Binder Ty) → List (Binder Ty) → Prop
  | [], [] => True
  | ⟨n, c⟩ :: bs, ⟨n', c'⟩ :: bs' => (n = n' ∧ Ty.Alike c c') ∧ Ty.AlikeBinders bs bs'
  | _, _ => False

def Ty.AlikeSignature : Signature Ty → Signature Ty → Prop
  | ⟨bs, _, ps, qs, v⟩, ⟨bs', _, ps', qs', v'⟩ =>
    Ty.AlikeBinders bs bs' ∧ Ty.AlikeParams ps ps' ∧ Ty.AlikeParams qs qs' ∧ v = v'

end

/-! ## Lists as `Forall₂` -/

/-- Lists are alike item by item.  The lemmas below say the same of the other lists in a type, with
what besides the types has to agree there. -/
theorem alikeList_iff (ts ts' : List Ty) :
    Ty.AlikeList ts ts' ↔ List.Forall₂ Ty.Alike ts ts' := by
  induction ts generalizing ts' with
  | nil => cases ts' <;> simp [Ty.AlikeList]
  | cons t ts ih => cases ts' <;> simp [Ty.AlikeList, ih]

theorem alikeFields_iff (fs fs' : List (Field Ty)) :
    Ty.AlikeFields fs fs' ↔ List.Forall₂ (fun f f' =>
      f.name = f'.name ∧ f.type.Alike f'.type ∧ f.embedded = f'.embedded ∧ f.exported = f'.exported)
      fs fs' := by
  induction fs generalizing fs' with
  | nil => cases fs' <;> simp [Ty.AlikeFields]
  | cons f fs ih =>
    cases f
    cases fs' with
    | nil => simp [Ty.AlikeFields]
    | cons f' fs' =>
      cases f'
      simp [Ty.AlikeFields, ih]

theorem alikeMethods_iff (ms ms' : List (Method Ty)) :
    Ty.AlikeMethods ms ms' ↔
      List.Forall₂ (fun m m' => m.name = m'.name ∧ Ty.AlikeSignature m.sig m'.sig) ms ms' := by
  induction ms generalizing ms' with
  | nil => cases ms' <;> simp [Ty.AlikeMethods]
  | cons m ms ih =>
    cases m
    cases ms' with
    | nil => simp [Ty.AlikeMethods]
    | cons m' ms' =>
      cases m'
      simp [Ty.AlikeMethods, ih]

theorem alikeTerms_iff (ts ts' : List (Term Ty)) :
    Ty.AlikeTerms ts ts' ↔
      List.Forall₂ (fun t t' => t.tilde = t'.tilde ∧ t.type.Alike t'.type) ts ts' := by
  induction ts generalizing ts' with
  | nil => cases ts' <;> simp [Ty.AlikeTerms]
  | cons t ts ih =>
    cases t
    cases ts' with
    | nil => simp [Ty.AlikeTerms]
    | cons t' ts' =>
      cases t'
      simp [Ty.AlikeTerms, ih]

/-- Names of parameters do not matter. -/
theorem alikeParams_iff (ps ps' : List (Param Ty)) :
    Ty.AlikeParams ps ps' ↔ List.Forall₂ (fun p p' => p.type.Alike p'.type) ps ps' := by
  induction ps generalizing ps' with
  | nil => cases ps' <;> simp [Ty.AlikeParams]
  | cons p ps ih =>
    cases p
    cases ps' with
    | nil => simp [Ty.AlikeParams]
    | cons p' ps' =>
      cases p'
      simp [Ty.AlikeParams, ih]

/-- Names of type parameters do: they are compared after numbering, which makes them agree. -/
theorem alikeBinders_iff (bs bs' : List (Binder Ty)) :
    Ty.AlikeBinders bs bs' ↔
      List.Forall₂ (fun b b' => b.name = b'.name ∧ b.constraint.Alike b'.constraint) bs bs' := by
  induction bs generalizing bs' with
  | nil => cases bs' <;> simp [Ty.AlikeBinders]
  | cons b bs ih =>
    cases b
    cases bs' with
    | nil => simp [Ty.AlikeBinders]
    | cons b' bs' =>
      cases b'
      simp [Ty.AlikeBinders, ih]

end GoApi
