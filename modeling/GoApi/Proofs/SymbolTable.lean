import GoApi.SymbolTable
import Mathlib.Data.List.Perm.Basic

/-!
# What a table holds

Offering symbols to a table succeeds exactly if the visible ones have names of their own, and the
table then holds them in the one order that their names give:

    insertAll t ss = .ok t' → t'.symbols.Perm (t.symbols ++ ss.filter visible)    (insertAll_perm)

So a table does not depend on the order in which its symbols were offered.
-/

namespace GoApi

theorem insertByName_perm (s : Symbol) (ts : List Symbol) : (insertByName s ts).Perm (s :: ts) := by
  induction ts with
  | nil => exact List.Perm.refl _
  | cons t ts ih =>
    unfold insertByName
    split
    · exact (ih.cons t).trans (List.Perm.swap s t ts)
    · exact List.Perm.refl _

theorem ascending_iff (xs : List Symbol) : Ascending xs ↔ (xs.map (·.name)).Pairwise (· < ·) := by
  rw [List.pairwise_map]

/-- Two ascending lists of the same symbols are one. -/
theorem Ascending.eq_of_perm {xs ys : List Symbol} (hx : Ascending xs) (hy : Ascending ys)
    (h : xs.Perm ys) : xs = ys := by
  apply List.Perm.eq_of_pairwise _ hx hy h
  intro a b _ _ hab hba
  exact absurd hba (String.lt_asymm hab)

theorem Ascending.nodup {xs : List Symbol} (h : Ascending xs) : (xs.map (·.name)).Nodup := by
  refine ((ascending_iff xs).1 h).imp fun {a b} hab heq => ?_
  rw [heq] at hab
  exact String.lt_irrefl _ hab

namespace SymbolTable

theorem ext_of_perm {t t' : SymbolTable} (hp : t.package = t'.package)
    (h : t.symbols.Perm t'.symbols) : t = t' := by
  obtain ⟨p, ss, hs⟩ := t
  obtain ⟨p', ss', hs'⟩ := t'
  obtain rfl : p = p' := hp
  obtain rfl : ss = ss' := hs.eq_of_perm hs' h
  rfl

/-- What can become of a symbol that is offered. -/
theorem insert_cases (t : SymbolTable) (s : Symbol) :
    (s.visible = false ∧ t.insert s = (.hidden, t)) ∨
    (s.visible = true ∧ s.name ∈ t.symbols.map (·.name) ∧ t.insert s = (.duplicate, t)) ∨
    (s.visible = true ∧ s.name ∉ t.symbols.map (·.name) ∧ ∃ t', t.insert s = (.inserted, t') ∧
      t'.package = t.package ∧ t'.symbols.Perm (s :: t.symbols)) := by
  have hcontains : t.contains s.name = true ↔ s.name ∈ t.symbols.map (·.name) := by
    simp [contains]
  unfold insert
  by_cases hv : s.visible = true
  · rw [if_pos hv]
    by_cases hc : t.contains s.name = true
    · rw [dif_pos hc]
      exact Or.inr (Or.inl ⟨hv, hcontains.1 hc, rfl⟩)
    · rw [dif_neg hc]
      exact Or.inr (Or.inr ⟨hv, fun hm => hc (hcontains.2 hm), _, rfl, rfl, insertByName_perm s _⟩)
  · rw [if_neg hv]
    exact Or.inl ⟨by simpa using hv, rfl⟩

theorem insertAll_perm {t t' : SymbolTable} {ss : List Symbol} (h : t.insertAll ss = .ok t') :
    t'.package = t.package ∧ t'.symbols.Perm (t.symbols ++ ss.filter (·.visible)) := by
  induction ss generalizing t with
  | nil =>
    obtain rfl : t = t' := by simpa [insertAll] using h
    simp
  | cons s ss ih =>
    rw [insertAll] at h
    rcases insert_cases t s with ⟨hv, hins⟩ | ⟨hv, hmem, hins⟩ | ⟨hv, hmem, t₁, hins, hp, hs⟩ <;>
      simp only [hins, reduceCtorEq] at h
    · obtain ⟨hp', hs'⟩ := ih h
      exact ⟨hp', by simpa [hv] using hs'⟩
    · obtain ⟨hp', hs'⟩ := ih h
      refine ⟨hp'.trans hp, hs'.trans ?_⟩
      rw [List.filter_cons_of_pos hv]
      exact (hs.append_right _).trans List.perm_middle.symm

/-- Distinct names are all it takes. -/
theorem exists_insertAll {t : SymbolTable} {ss : List Symbol}
    (h : ((t.symbols ++ ss.filter (·.visible)).map (·.name)).Nodup) :
    ∃ t', t.insertAll ss = .ok t' := by
  induction ss generalizing t with
  | nil => exact ⟨t, rfl⟩
  | cons s ss ih =>
    rw [insertAll]
    rcases insert_cases t s with ⟨hv, hins⟩ | ⟨hv, hmem, hins⟩ | ⟨hv, hmem, t₁, hins, hp, hs⟩ <;>
      simp only [hins]
    · exact ih (by simpa [hv] using h)
    · rw [List.filter_cons_of_pos hv, List.map_append, List.map_cons] at h
      exact absurd rfl ((List.nodup_append.1 h).2.2 s.name hmem s.name (List.mem_cons_self ..))
    · refine ih ?_
      rw [List.filter_cons_of_pos hv] at h
      have hperm : (t₁.symbols ++ ss.filter (·.visible)).Perm
          (t.symbols ++ s :: ss.filter (·.visible)) :=
        (hs.append_right _).trans List.perm_middle.symm
      exact (hperm.map _).nodup_iff.2 h

/-- A table is made exactly from symbols whose visible ones have distinct names. -/
theorem ofSymbols_eq_ok_iff (package : String) (ss : List Symbol) (t : SymbolTable) :
    ofSymbols package ss = .ok t ↔ t.package = package ∧ t.symbols.Perm (ss.filter (·.visible)) := by
  constructor
  · intro h
    simpa using insertAll_perm h
  · rintro ⟨hp, hs⟩
    have hnodup : ((ss.filter (·.visible)).map (·.name)).Nodup :=
      (hs.map _).nodup_iff.1 t.ascending.nodup
    obtain ⟨t', ht'⟩ : ∃ t', insertAll { package } ss = .ok t' := by
      apply exists_insertAll
      simpa using hnodup
    obtain ⟨hp', hs'⟩ := insertAll_perm ht'
    obtain rfl : t' = t := ext_of_perm (hp'.trans hp.symm) (by simpa using hs'.trans hs.symm)
    exact ht'

end SymbolTable

end GoApi
