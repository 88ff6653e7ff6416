import GoApi.Ty.Spelling
import Mathlib.Data.List.Basic

/-!
# Induction over descriptors

`Ty.children` lists the descriptors right below one, so a statement about all descriptors follows
from its step from the children to the parent (`Ty.childInduction`).  The list helpers of respelling
and writing are maps.
-/

namespace GoApi

/-- The descriptors that a signature holds. -/
def Signature.parts (g : Signature Ty) : List Ty :=
  g.binders.map (·.constraint) ++ g.params.map (·.type) ++ g.results.map (·.type)

/-- All names that a signature binds: those of the receiver, then its own. -/
def Signature.bound (g : Signature Ty) : List String := g.receiverBinders ++ binderNames g.binders

/-- The descriptors right below one. -/
def Ty.children : Ty → List Ty
  | .basic _ => []
  | .named _ _ args => args
  | .typeParam _ => []
  | .pointer e => [e]
  | .slice e => [e]
  | .array _ e => [e]
  | .map k v => [k, v]
  | .chan _ e => [e]
  | .struct fs => fs.map (·.type)
  | .interface body => body.methods.flatMap (·.sig.parts) ++ body.embedded
  | .func g => g.parts
  | .union ts => ts.map (·.type)
  | .defined _ bs _ u => bs.map (·.constraint) ++ [u]

theorem sizeOf_part_lt (g : Signature Ty) (t : Ty) (ht : t ∈ g.parts) : sizeOf t < sizeOf g := by
  obtain ⟨bs, rs, ps, qs, v⟩ := g
  simp only [Signature.parts, List.mem_append, List.mem_map] at ht
  rcases ht with (⟨⟨n, c⟩, hb, rfl⟩ | ⟨⟨n, c⟩, hb, rfl⟩) | ⟨⟨n, c⟩, hb, rfl⟩ <;>
    · have := List.sizeOf_lt_of_mem hb
      simp at this ⊢
      omega

/-- A child is smaller than its type: induction on `sizeOf` reaches every part of a type. -/
theorem sizeOf_child_lt (t c : Ty) (hc : c ∈ t.children) : sizeOf c < sizeOf t := by
  cases t with
  | basic n => simp [Ty.children] at hc
  | named p n args =>
    have := List.sizeOf_lt_of_mem (show c ∈ args from hc)
    simp
    omega
  | typeParam n => simp [Ty.children] at hc
  | pointer e | slice e =>
    simp only [Ty.children, List.mem_singleton] at hc
    subst hc
    simp
  | array _ e | chan _ e =>
    simp only [Ty.children, List.mem_singleton] at hc
    subst hc
    simp only [Ty.array.sizeOf_spec, Ty.chan.sizeOf_spec]
    omega
  | map k v =>
    simp only [Ty.children, List.mem_cons, List.not_mem_nil, or_false] at hc
    rw [Ty.map.sizeOf_spec]
    rcases hc with rfl | rfl <;> omega
  | struct fs =>
    obtain ⟨⟨n, t, e, x⟩, hf, rfl⟩ := List.mem_map.1 (show c ∈ fs.map (·.type) from hc)
    have := List.sizeOf_lt_of_mem hf
    simp at this ⊢
    omega
  | interface body =>
    obtain ⟨ms, es⟩ := body
    rcases List.mem_append.1 (show c ∈ ms.flatMap (·.sig.parts) ++ es from hc) with hc | hc
    · obtain ⟨⟨n, g⟩, hm, hg⟩ := List.mem_flatMap.1 hc
      have hlt := sizeOf_part_lt g c hg
      have := List.sizeOf_lt_of_mem hm
      simp at this ⊢
      omega
    · have := List.sizeOf_lt_of_mem hc
      simp
      omega
  | func g =>
    have := sizeOf_part_lt g c hc
    simp
    omega
  | union ts =>
    obtain ⟨⟨b, t⟩, hf, rfl⟩ := List.mem_map.1 (show c ∈ ts.map (·.type) from hc)
    have := List.sizeOf_lt_of_mem hf
    simp at this ⊢
    omega
  | defined n bs a u =>
    rcases List.mem_append.1 (show c ∈ bs.map (·.constraint) ++ [u] from hc) with hc | hc
    · obtain ⟨⟨m, t⟩, hf, rfl⟩ := List.mem_map.1 hc
      have := List.sizeOf_lt_of_mem hf
      simp at this ⊢
      omega
    · rw [List.mem_singleton] at hc
      subst hc
      simp

/-- What passes from the children of every descriptor to it holds of all descriptors. -/
theorem Ty.childInduction {motive : Ty → Prop}
    (step : ∀ t, (∀ c ∈ t.children, motive c) → motive t) (t : Ty) : motive t :=
  step t fun c hc =>
    have _hlt : sizeOf c < sizeOf t := sizeOf_child_lt t c hc
    Ty.childInduction step c
termination_by sizeOf t

/-! ## List helpers as maps -/

section Respell

variable (s : Scope)

/-- Respelling goes through a list item by item.  This and its companions below trade the mutual
recursion for `List.map`, which the library knows. -/
theorem respellList_eq_map (ts : List Ty) : Ty.respellList s ts = ts.map (·.respell s) := by
  induction ts with
  | nil => simp [Ty.respellList]
  | cons t ts ih => simp [Ty.respellList, ih]

theorem respellFields_eq_map (fs : List (Field Ty)) :
    Ty.respellFields s fs = fs.map fun f => { f with type := f.type.respell s } := by
  induction fs with
  | nil => simp [Ty.respellFields]
  | cons f fs ih => simp [Ty.respellFields, ih]

theorem respellMethods_eq_map (ms : List (Method Ty)) :
    Ty.respellMethods s ms = ms.map fun m => ⟨m.name, m.sig.respell s⟩ := by
  induction ms with
  | nil => simp [Ty.respellMethods]
  | cons m ms ih => simp [Ty.respellMethods, ih]

theorem respellTerms_eq_map (ts : List (Term Ty)) :
    Ty.respellTerms s ts = ts.map fun t => ⟨t.tilde, t.type.respell s⟩ := by
  induction ts with
  | nil => simp [Ty.respellTerms]
  | cons t ts ih => simp [Ty.respellTerms, ih]

theorem respellParams_eq_map (ps : List (Param Ty)) :
    Ty.respellParams s ps = ps.map fun p => ⟨p.name, p.type.respell s⟩ := by
  induction ps with
  | nil => simp [Ty.respellParams]
  | cons p ps ih => simp [Ty.respellParams, ih]

end Respell

section Write

variable (q : String → String)

/-- Writing goes through a list item by item, as respelling does. -/
theorem writeList_eq_map (ts : List Ty) : Ty.writeList q ts = ts.map (·.write q) := by
  induction ts with
  | nil => simp [Ty.writeList]
  | cons t ts ih => simp [Ty.writeList, ih]

/-- The text of one field. -/
def fieldText (f : Field Ty) : String :=
  if f.embedded then f.type.write q else f.name ++ " " ++ f.type.write q

theorem writeFields_eq_map (fs : List (Field Ty)) :
    Ty.writeFields q fs = fs.map (fieldText q) := by
  induction fs with
  | nil => simp [Ty.writeFields]
  | cons f fs ih => simp [Ty.writeFields, fieldText, ih]

theorem writeMethods_eq_map (ms : List (Method Ty)) :
    Ty.writeMethods q ms = ms.map fun m => (m.name, m.name ++ Ty.writeSignature q m.sig) := by
  induction ms with
  | nil => simp [Ty.writeMethods]
  | cons m ms ih => simp [Ty.writeMethods, ih]

/-- The text of one term. -/
def termText (t : Term Ty) : String :=
  (if t.tilde then "~" else "") ++ t.type.write q

theorem writeTerms_eq_map (ts : List (Term Ty)) : Ty.writeTerms q ts = ts.map (termText q) := by
  induction ts with
  | nil => simp [Ty.writeTerms]
  | cons t ts ih => simp [Ty.writeTerms, termText, ih]

theorem writeBinders_eq_map (bs : List (Binder Ty)) :
    Ty.writeBinders q bs = bs.map fun b => b.name ++ " " ++ b.constraint.write q := by
  induction bs with
  | nil => simp [Ty.writeBinders]
  | cons b bs ih => simp [Ty.writeBinders, ih]

end Write

end GoApi
