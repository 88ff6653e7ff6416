import GoApi.Text.Reading
import Mathlib.Data.List.Basic

/-!
# What a reading gives

`Gives ok n good p` says of a reading `p` that, on a list of elements that are `ok`, it gives something
`good` and takes `n` elements at least off the front for it.  There is one rule for each way to put
readings together, so a statement about a reading follows its definition:

    Gives ok n good p → (∀ x, good x → Gives ok m good' (f x)) → Gives ok n good' (p >>= f)
-/

namespace GoApi.Text.Reading

variable {τ α β : Type} {ok : τ → Prop} {n m : Nat} {good : α → Prop} {good' : β → Prop}

/-- On a list of elements that are `ok`, a reading gives something `good` and takes `n` elements at
least off the front. -/
def Gives (ok : τ → Prop) (n : Nat) (good : α → Prop) (p : Reading τ α) : Prop :=
  ∀ ⦃ts : List τ⦄ ⦃x : α⦄ ⦃rest : List τ⦄, (∀ t ∈ ts, ok t) → p ts = some (x, rest) →
    good x ∧ ∃ taken, ts = taken ++ rest ∧ n ≤ taken.length

namespace Gives

/-- What is left is ok again. -/
theorem rest_ok {p : Reading τ α} (hp : Gives ok n good p) {ts rest : List τ} {x : α}
    (hok : ∀ t ∈ ts, ok t) (h : p ts = some (x, rest)) : ∀ t ∈ rest, ok t := by
  obtain ⟨-, taken, rfl, -⟩ := hp hok h
  intro t ht
  exact hok t (List.mem_append_right taken ht)

theorem weaken {p : Reading τ α} {good' : α → Prop} (hp : Gives ok n good p) (hm : m ≤ n)
    (hgood : ∀ x, good x → good' x) : Gives ok m good' p := by
  intro ts x rest hok h
  obtain ⟨hx, taken, hts, hn⟩ := hp hok h
  exact ⟨hgood x hx, taken, hts, Nat.le_trans hm hn⟩

/-- Forget how much is taken. -/
theorem loose {p : Reading τ α} (hp : Gives ok n good p) : Gives ok 0 good p :=
  hp.weaken (Nat.zero_le n) fun _ hx => hx

/-! ## Single steps -/

theorem pure {x : α} (hx : good x) : Gives ok 0 good (Pure.pure x) := by
  rintro ts y rest - h
  cases h
  exact ⟨hx, [], rfl, Nat.le_refl 0⟩

theorem fail : Gives ok n good failure := by
  intro ts x rest _ h
  cases h

/-- A reading that only looks takes nothing. -/
theorem look (f : List τ → α) : Gives ok 0 (fun _ => True) (fun ts => some (f ts, ts) : Reading τ α) := by
  rintro ts x rest - h
  cases h
  exact ⟨trivial, [], rfl, Nat.le_refl 0⟩

theorem take (test : τ → Bool) : Gives ok 1 (fun t => ok t ∧ test t = true) (Reading.take test) := by
  intro ts t rest hok h
  cases ts with
  | nil => cases h
  | cons u us =>
    simp only [Reading.take] at h
    split at h
    · next htest =>
      cases h
      exact ⟨⟨hok t (List.mem_cons_self ..), htest⟩, [t], rfl, Nat.le_refl 1⟩
    · cases h

theorem check (test : τ → Bool) : Gives ok 0 (fun _ => True) (Reading.check test) := by
  intro ts x rest _ h
  cases ts with
  | nil => cases h
  | cons u us =>
    simp only [Reading.check] at h
    split at h
    · cases h
      exact ⟨trivial, [], rfl, Nat.le_refl 0⟩
    · cases h

theorem peek : Gives ok 0 (fun _ => True) (Reading.peek : Reading τ (Option τ)) :=
  look List.head?

/-! ## Readings put together -/

theorem append {p : Reading τ α} {f : α → Reading τ β} (hp : Gives ok n good p)
    (hf : ∀ x, good x → Gives ok m good' (f x)) : Gives ok (n + m) good' (p >>= f) := by
  intro ts y rest hok h
  obtain ⟨⟨x, after⟩, hx, hy⟩ := Option.bind_eq_some_iff.1 h
  have hafter := hp.rest_ok hok hx
  obtain ⟨hgood, taken, rfl, hn⟩ := hp hok hx
  obtain ⟨hgood', taken', rfl, hm⟩ := hf x hgood hafter hy
  refine ⟨hgood', taken ++ taken', (List.append_assoc ..).symm, ?_⟩
  rw [List.length_append]
  omega

/-- One reading after the other, counting what the first one takes. -/
theorem bind {p : Reading τ α} {f : α → Reading τ β} (hp : Gives ok n good p)
    (hf : ∀ x, good x → Gives ok 0 good' (f x)) : Gives ok n good' (p >>= f) :=
  hp.append hf

/-- One reading after the other, counting what the second one takes. -/
theorem after {p : Reading τ α} {f : α → Reading τ β} (hp : Gives ok n good p)
    (hf : ∀ x, good x → Gives ok m good' (f x)) : Gives ok m good' (p >>= f) :=
  (hp.append hf).weaken (Nat.le_add_left m n) fun _ h => h

theorem orElse {p q : Reading τ α} (hp : Gives ok n good p) (hq : Gives ok n good q) :
    Gives ok n good (p <|> q) := by
  intro ts x rest hok h
  have heither : (p ts).orElse (fun _ => q ts) = some (x, rest) := h
  cases hread : p ts with
  | none =>
    rw [hread] at heither
    exact hq hok heither
  | some r =>
    rw [hread] at heither
    exact hp hok (hread.trans heither)

/-- A reading that depends on the list it is about to read. -/
theorem depending {γ : Type} {p : γ → Reading τ α} (hp : ∀ k, Gives ok n good (p k)) (f : List τ → γ) :
    Gives ok n good (fun ts => p (f ts) ts) :=
  fun ts _ _ hok h => hp (f ts) hok h

theorem maybe {p : Reading τ α} (hp : Gives ok n good p) :
    Gives ok 0 (fun x? => ∀ x ∈ x?, good x) (Reading.maybe p) := by
  intro ts x? rest hok h
  unfold Reading.maybe at h
  cases hread : p ts with
  | none =>
    rw [hread] at h
    cases h
    exact ⟨by simp, [], rfl, Nat.le_refl 0⟩
  | some r =>
    obtain ⟨x, after⟩ := r
    rw [hread] at h
    cases h
    obtain ⟨hgood, taken, hts, -⟩ := hp hok hread
    exact ⟨by simpa using hgood, taken, hts, Nat.zero_le _⟩

theorem took {p : Reading τ α} (hp : Gives ok n good p) :
    Gives ok 0 (fun _ => True) (Reading.took p) :=
  hp.maybe.bind fun _ _ => pure trivial

theorem manyUpTo {p : Reading τ α} (hp : Gives ok n good p) (fuel : Nat) :
    Gives ok 0 (fun xs => ∀ x ∈ xs, good x) (Reading.manyUpTo p fuel) := by
  induction fuel with
  | zero => exact pure (by simp)
  | succ fuel ih =>
    refine hp.maybe.bind fun x? hx => ?_
    cases x? with
    | none => exact pure (by simp)
    | some x =>
      refine ih.bind fun xs hxs => pure ?_
      exact List.forall_mem_cons.2 ⟨hx x rfl, hxs⟩

theorem many {p : Reading τ α} (hp : Gives ok n good p) :
    Gives ok 0 (fun xs => ∀ x ∈ xs, good x) (Reading.many p) :=
  depending hp.manyUpTo List.length

theorem separated {separator : Reading τ Unit} {p : Reading τ α} {any : Unit → Prop}
    (hseparator : Gives ok m any separator) (hp : Gives ok n good p) :
    Gives ok n (fun xs => ∀ x ∈ xs, good x) (Reading.separated separator p) := by
  refine hp.bind fun first hfirst => ?_
  have hmore : Gives ok m good (do separator; p) := hseparator.bind fun _ _ => hp.loose
  refine hmore.many.bind fun more hall => pure ?_
  exact List.forall_mem_cons.2 ⟨hfirst, hall⟩

end Gives

/-! ## A known next element -/

/-- The same on lists that start with `t`. -/
def GivesAt (ok : τ → Prop) (t : τ) (n : Nat) (good : α → Prop) (p : Reading τ α) : Prop :=
  ∀ ⦃more : List τ⦄ ⦃x : α⦄ ⦃rest : List τ⦄, (∀ u ∈ t :: more, ok u) → p (t :: more) = some (x, rest) →
    good x ∧ ∃ taken, t :: more = taken ++ rest ∧ n ≤ taken.length

theorem Gives.at {p : Reading τ α} (hp : Gives ok n good p) (t : τ) : GivesAt ok t n good p :=
  fun _ _ _ hok h => hp hok h

theorem GivesAt.congr {p q : Reading τ α} {t : τ} (hq : GivesAt ok t n good q)
    (hpq : ∀ more, p (t :: more) = q (t :: more)) : GivesAt ok t n good p := by
  intro more x rest hok h
  rw [hpq] at h
  exact hq hok h

/-- A reading that looks at the next element and goes on by what it is. -/
theorem Gives.peeked {f : Option τ → Reading τ α} (hnone : Gives ok n good (f none))
    (hsome : ∀ t, GivesAt ok t n good (f (some t))) : Gives ok n good (Reading.peek >>= f) := by
  intro ts x rest hok h
  cases ts with
  | nil => exact hnone hok h
  | cons t more => exact hsome t hok h

end GoApi.Text.Reading
