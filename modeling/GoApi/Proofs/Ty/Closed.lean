import GoApi.Proofs.Ty.Faithful
import GoApi.Proofs.Ty.Renaming

/-!
# Descriptors without type parameters

A closed descriptor is its own respelling, so its encoding is its text, and the text can be read back:

    a.identical b = true → a.Alike b                                       (Ty.Closed.alike)
    a.Alike b → a.identical b = true                                       (Ty.Alike.identical)

Identical declarations therefore have the same members, each of an identical type.
-/

namespace GoApi

open Text (quote)

/-- No type parameter is in force. -/
abbrev noParam (_ : String) : Prop := False

/-- A type without type parameters; if it is a struct, its exported fields have names of their own. -/
structure Ty.ClosedBody (t : Ty) : Prop where
  shape : t.Nested noParam anyName
  distinct : ∀ fs, t = .struct fs → ((exportedFields fs).map (·.name)).Nodup

/-- A declaration without type parameters, or a type. -/
inductive Ty.Closed : Ty → Prop
  | body {t : Ty} (ht : t.ClosedBody) : Closed t
  | defined {n : String} {isAlias : Bool} {u : Ty} (hn : isGoName n = true) (hu : u.ClosedBody) :
      Closed (.defined n [] isAlias u)

/-! ## Their own respelling -/

theorem keeps_replacing_nil : (Scope.replacing []).Keeps := ⟨rfl, by simp [Scope.replacing]⟩

theorem Ty.ConstraintShaped.respell_closed (s : Scope) {t : Ty}
    (ht : t.ConstraintShaped noParam anyName) : t.respell s = t := by
  have h : (t.respell (.replacing [])).respell s = t.respell (.replacing []) :=
    respell_respell (fun _ hn => hn.elim) t ht
  rwa [keeps_replacing_nil.respell] at h

theorem Ty.Closed.respell (s : Scope) {t : Ty} (ht : t.Closed) : t.respell s = t := by
  cases ht with
  | body ht => exact Ty.ConstraintShaped.respell_closed s (.type ht.shape)
  | defined hn hu =>
    rw [Ty.respell]
    simp only [binderNames, List.map_nil, Scope.bindAll, Scope.spellings, Ty.respellBinders,
      Ty.ConstraintShaped.respell_closed s (.type hu.shape)]

theorem Ty.Closed.numbered {t : Ty} (ht : t.Closed) : t.Numbered := by
  have hnested : ∀ {u : Ty}, u.ClosedBody → u.Nested IsNumbered anyName := by
    intro u hu
    have h : (u.respell .positional).Nested IsNumbered anyName := hu.shape.respell fun _ hn => hn.elim
    rwa [Ty.ConstraintShaped.respell_closed _ (.type hu.shape)] at h
  cases ht with
  | body ht => exact (hnested ht).numbered
  | defined hn hu => exact .defined hn (by simp) (hnested hu)

/-! ## Identical and alike -/

theorem Ty.identical_trans {a b c : Ty} (hab : a.identical b = true) (hbc : b.identical c = true) :
    a.identical c = true := by
  unfold Ty.identical at *
  rw [beq_iff_eq] at *
  exact hab.trans hbc

/-- Identical closed declarations are the same tree up to what does not count. -/
theorem Ty.Closed.alike {a b : Ty} (ha : a.Closed) (hb : b.Closed) (h : a.identical b = true) :
    a.Alike b := by
  have hsep : ∀ n, IsNumbered n → isGoName n = true → ¬ anyName n := by
    intro n hn hgo
    rw [not_isGoName_of_isNumbered hn] at hgo
    cases hgo
  have htext : a.text = b.text := by
    unfold Ty.identical Ty.canonical at h
    rw [ha.respell, hb.respell, beq_iff_eq] at h
    exact congrArg String.toList h
  exact Ty.Numbered.alike (readable (fun _ => isWord_of_isNumbered) hsep) ha.numbered hb.numbered htext

/-- Trees that are the same up to what does not count are identical types. -/
theorem Ty.Alike.identical {a b : Ty} (ha : a.ConstraintShaped noParam anyName)
    (hb : b.ConstraintShaped noParam anyName) (h : a.Alike b) : a.identical b = true :=
  beq_iff_eq.2 (Ty.Alike.sameText quote .positional a b ha hb h).1

end GoApi
