import GoApi.Proofs.Classify

/-!
# Runs of offers to a table

Symbols are offered to a table one after the other, and a refusal does not end the run.  A table that was
empty at first then gives for each name the first visible symbol of that name,

    (afterOffers { package } ss).get? name = ss.find? fun s => s.visible && s.name == name

and so the answer to the next offer can be read off the symbols that were offered before.  The table of a
list is the table after such a run, unless the run has a refusal (`insertAll_cases`).
-/

namespace GoApi.SymbolTable

/-! ## One offer -/

theorem visible_eq_false_iff (s : Symbol) :
    s.visible = false ↔
      isExported s.identifier = false ∨ ∃ r, s.receiver = some r ∧ isExported (withoutStars r) = false := by
  unfold Symbol.visible
  rw [Bool.and_eq_false_iff]
  cases s.receiver <;> simp

/-- What a table gives after an offer: what it gave before, or else the symbol, if it is visible. -/
theorem get?_insert (t : SymbolTable) (s : Symbol) (name : String) :
    (t.insert s).2.get? name = (t.get? name).or (if s.visible && s.name == name then some s else none) := by
  rcases insert_cases t s with ⟨hv, hins⟩ | ⟨hv, hmem, hins⟩ | ⟨hv, hmem, t', hins, hp, hs⟩
  · simp [hins, hv]
  · obtain ⟨u, hu, hname⟩ := List.mem_map.1 hmem
    have hsome : t.get? s.name = some u := (t.get?_eq_some_iff _ _).2 ⟨hu, hname⟩
    by_cases hn : s.name = name
    · subst hn
      simp [hins, hsome]
    · simp [hins, hn]
  · rw [hins]
    by_cases hn : s.name = name
    · subst hn
      have hself : t'.get? s.name = some s := (t'.get?_eq_some_iff _ _).2 ⟨hs.mem_iff.2 (by simp), rfl⟩
      have hnone : t.get? s.name = none := (t.get?_eq_none_iff _).2 hmem
      simp [hself, hnone, hv]
    · have hother : t'.get? name = t.get? name := by
        ext u
        simp only [get?_eq_some_iff, hs.mem_iff, List.mem_cons]
        constructor
        · rintro ⟨rfl | hu, hname⟩
          · exact absurd hname hn
          · exact ⟨hu, hname⟩
        · rintro ⟨hu, hname⟩
          exact ⟨.inr hu, hname⟩
      simp [hother, hn]

/-- An offer is answered by the symbol's visibility and what the table gives for its name. -/
theorem insert_fst (t : SymbolTable) (s : Symbol) :
    (t.insert s).1 =
      if s.visible then if (t.get? s.name).isSome then .duplicate else .inserted else .hidden := by
  rcases insert_cases t s with ⟨hv, hins⟩ | ⟨hv, hmem, hins⟩ | ⟨hv, hmem, t', hins, hp, hs⟩
  · simp [hins, hv]
  · have hsome : (t.get? s.name).isSome = true := by
      rw [Option.isSome_iff_ne_none, ne_eq, get?_eq_none_iff]
      exact not_not.2 hmem
    simp [hins, hv, hsome]
  · have hnone : t.get? s.name = none := (t.get?_eq_none_iff _).2 hmem
    simp [hins, hv, hnone]

/-- Only an insertion changes the table, and it does. -/
theorem insert_snd_eq_iff (t : SymbolTable) (s : Symbol) :
    (t.insert s).2 = t ↔ (t.insert s).1 ≠ .inserted := by
  rcases insert_cases t s with ⟨_, hins⟩ | ⟨_, _, hins⟩ | ⟨_, _, t', hins, _, hs⟩
  · simp [hins]
  · simp [hins]
  · have hlength : t'.symbols.length = t.symbols.length + 1 := by simpa using hs.length_eq
    simp only [hins, ne_eq, not_true_eq_false, iff_false]
    rintro rfl
    omega

/-! ## A run of offers -/

/-- The table after symbols were offered to it one after the other, whatever the answers were. -/
def afterOffers (t : SymbolTable) (ss : List Symbol) : SymbolTable :=
  ss.foldl (fun t s => (t.insert s).2) t

theorem package_insert (t : SymbolTable) (s : Symbol) : (t.insert s).2.package = t.package := by
  rcases insert_cases t s with ⟨_, hins⟩ | ⟨_, _, hins⟩ | ⟨_, _, t', hins, hp, _⟩
  · rw [hins]
  · rw [hins]
  · rw [hins, hp]

theorem package_afterOffers (t : SymbolTable) (ss : List Symbol) : (t.afterOffers ss).package = t.package := by
  induction ss generalizing t with
  | nil => rfl
  | cons s ss ih => exact (ih _).trans (package_insert t s)

theorem get?_afterOffers (t : SymbolTable) (ss : List Symbol) (name : String) :
    (t.afterOffers ss).get? name = (t.get? name).or (ss.find? fun s => s.visible && s.name == name) := by
  induction ss generalizing t with
  | nil => simp [afterOffers]
  | cons s ss ih =>
    have hcons : t.afterOffers (s :: ss) = (t.insert s).2.afterOffers ss := rfl
    rw [hcons, ih, get?_insert, Option.or_assoc, List.find?_cons]
    cases s.visible && s.name == name <;> simp

theorem insertAll_cons (t : SymbolTable) (s : Symbol) (ss : List Symbol) :
    t.insertAll (s :: ss) =
      if (t.insert s).1 = .duplicate then .error ⟨t.package, s.name⟩ else (t.insert s).2.insertAll ss := by
  rw [insertAll]
  rcases t.insert s with ⟨_ | _ | _, next⟩ <;> simp

/-- Offering stops at the first refusal; without one it is a run of offers. -/
theorem insertAll_cases (t : SymbolTable) (ss : List Symbol) :
    (t.insertAll ss = .ok (t.afterOffers ss) ∧
      ∀ before s rest, ss = before ++ s :: rest → ((t.afterOffers before).insert s).1 ≠ .duplicate) ∨
    ∃ before s rest, ss = before ++ s :: rest ∧ ((t.afterOffers before).insert s).1 = .duplicate ∧
      t.insertAll ss = .error ⟨t.package, s.name⟩ := by
  induction ss generalizing t with
  | nil => exact .inl ⟨rfl, by simp⟩
  | cons s ss ih =>
    rw [insertAll_cons]
    by_cases hdup : (t.insert s).1 = .duplicate
    · exact .inr ⟨[], s, ss, rfl, hdup, if_pos hdup⟩
    · rw [if_neg hdup, ← package_insert t s]
      rcases ih (t.insert s).2 with ⟨hok, hnone⟩ | ⟨before, u, rest, rfl, hrefused, herror⟩
      · refine .inl ⟨hok, fun before u rest hss => ?_⟩
        cases before with
        | nil =>
          obtain ⟨rfl, -⟩ := List.cons.inj hss
          exact hdup
        | cons v before =>
          rw [List.cons_append, List.cons.injEq] at hss
          obtain ⟨rfl, hss⟩ := hss
          exact hnone before u rest hss
      · exact .inr ⟨s :: before, u, rest, rfl, hrefused, herror⟩

/-! ## What a run answers and leaves -/

theorem get?_offered (package : String) (ss : List Symbol) (name : String) :
    (afterOffers { package } ss).get? name = ss.find? fun s => s.visible && s.name == name :=
  get?_afterOffers { package } ss name

theorem isSome_get?_offered (package : String) (ss : List Symbol) (name : String) :
    ((afterOffers { package } ss).get? name).isSome = true ↔ ∃ u ∈ ss, u.visible = true ∧ u.name = name := by
  rw [get?_offered, List.find?_isSome]
  simp

/-- How a call of a run is answered, and what it does to the table. -/
structure Answered (before : List Symbol) (t : SymbolTable) (s : Symbol) : Prop where
  hidden : (t.insert s).1 = .hidden ↔
    isExported s.identifier = false ∨ ∃ r, s.receiver = some r ∧ isExported (withoutStars r) = false
  duplicate : (t.insert s).1 = .duplicate ↔ s.visible = true ∧ ∃ u ∈ before, u.visible = true ∧ u.name = s.name
  inserted : (t.insert s).1 = .inserted ↔ s.visible = true ∧ ∀ u ∈ before, u.visible = true → u.name ≠ s.name
  unchanged : (t.insert s).2 = t ↔ (t.insert s).1 ≠ .inserted

theorem answered_offered (package : String) (before : List Symbol) (s : Symbol) :
    Answered before (afterOffers { package } before) s := by
  have hearlier := isSome_get?_offered package before s.name
  refine ⟨?_, ?_, ?_, insert_snd_eq_iff _ s⟩
  · rw [insert_fst, ← visible_eq_false_iff]
    repeat' split
    all_goals simp_all
  · rw [insert_fst, ← hearlier]
    repeat' split
    all_goals simp_all
  · have hfresh : (∀ u ∈ before, u.visible = true → u.name ≠ s.name) ↔
        ¬((afterOffers { package } before).get? s.name).isSome = true := by
      rw [hearlier]
      simp
    rw [insert_fst, hfresh]
    repeat' split
    all_goals simp_all

/-- A table is made from a list exactly if no offer of its run is refused, and it is the table of the run. -/
theorem ofSymbols_eq_ok_iff_unrefused (package : String) (ss : List Symbol) (t : SymbolTable) :
    ofSymbols package ss = .ok t ↔ t = afterOffers { package } ss ∧
      ∀ before s rest, ss = before ++ s :: rest → ((afterOffers { package } before).insert s).1 ≠ .duplicate := by
  rcases insertAll_cases { package } ss with ⟨hok, hnone⟩ | ⟨before, s, rest, hss, hrefused, herror⟩
  · rw [ofSymbols, hok, Except.ok.injEq]
    exact ⟨fun h => ⟨h.symm, hnone⟩, fun h => h.1.symm⟩
  · rw [ofSymbols, herror]
    exact ⟨nofun, fun h => absurd hrefused (h.2 before s rest hss)⟩

theorem exists_refused_of_error {package : String} {ss : List Symbol} {d : Duplicate}
    (h : ofSymbols package ss = .error d) :
    ∃ before s rest, ss = before ++ s :: rest ∧
      ((afterOffers { package } before).insert s).1 = .duplicate ∧ d = ⟨package, s.name⟩ := by
  rcases insertAll_cases { package } ss with ⟨hok, _⟩ | ⟨before, s, rest, hss, hrefused, herror⟩
  · rw [ofSymbols, hok] at h
    cases h
  · rw [ofSymbols, herror, Except.error.injEq] at h
    exact ⟨before, s, rest, hss, hrefused, h.symm⟩

theorem ofSymbols_eq_ok_of_perm {package : String} {ss ss' : List Symbol} (hperm : ss.Perm ss') (t : SymbolTable) :
    ofSymbols package ss = .ok t ↔ ofSymbols package ss' = .ok t := by
  rw [ofSymbols_eq_ok_iff, ofSymbols_eq_ok_iff]
  refine and_congr_right fun _ => ⟨fun h => ?_, fun h => ?_⟩
  · exact h.trans (hperm.filter _)
  · exact h.trans (hperm.filter _).symm

/-- Every offer of a run on a fresh table is answered by what was offered before it.  The table that the run
leaves gives for each name the first visible symbol of that name, in ascending order of the names.  A table is
made from a list exactly if no offer of its run is refused, and is the table of the run; an error names a symbol
that is refused.  Every order of the list has the same outcome. -/
theorem offers_exact (package : String) (ss : List Symbol) :
    (∀ before s rest, ss = before ++ s :: rest → Answered before (afterOffers { package } before) s) ∧
    (afterOffers { package } ss).package = package ∧
    (∀ name, (afterOffers { package } ss).get? name = ss.find? fun s => s.visible && s.name == name) ∧
    (afterOffers { package } ss).names.Pairwise (· < ·) ∧
    (∀ t, ofSymbols package ss = .ok t ↔ t = afterOffers { package } ss ∧
      ∀ before s rest, ss = before ++ s :: rest → ((afterOffers { package } before).insert s).1 ≠ .duplicate) ∧
    (∀ d, ofSymbols package ss = .error d → ∃ before s rest, ss = before ++ s :: rest ∧
      ((afterOffers { package } before).insert s).1 = .duplicate ∧ d = ⟨package, s.name⟩) ∧
    ∀ ss', ss.Perm ss' → ((∃ t, ofSymbols package ss = .ok t) ↔ ∃ t, ofSymbols package ss' = .ok t) ∧
      ∀ t t', ofSymbols package ss = .ok t → ofSymbols package ss' = .ok t' → t = t' := by
  refine ⟨fun before s _ _ => answered_offered package before s, package_afterOffers _ ss,
    get?_offered package ss, (ascending_iff _).1 (afterOffers { package } ss).ascending,
    ofSymbols_eq_ok_iff_unrefused package ss, fun _ => exists_refused_of_error, ?_⟩
  intro ss' hperm
  refine ⟨exists_congr (ofSymbols_eq_ok_of_perm hperm), fun t t' ht ht' => ?_⟩
  have hsame := (ofSymbols_eq_ok_of_perm hperm t).1 ht
  exact Except.ok.inj (hsame.symm.trans ht')

example :
    let run : Symbol := { name := "Run", kind := .func, type := .func {} }
    let ss := [run, .method "*impl" "Run" (.func {}), { run with kind := .var }, { run with name := "Amend" }]
    (afterOffers { package := "p" } ss).names = ["Amend", "Run"] ∧
      ((afterOffers { package := "p" } ss).get? "Run").map (·.kind) = some .func := by
  decide +kernel

end GoApi.SymbolTable
