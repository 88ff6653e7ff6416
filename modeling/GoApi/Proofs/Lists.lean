import Mathlib.Data.List.Forall2
import Mathlib.Data.List.Perm.Basic
import Mathlib.Data.List.ReduceOption

/-!
# Lists, options and results

What the other modules use of lists and options and what the library does not have in this form: pairs of
lists that agree entry by entry, lists of steps that may fail, entries that are found by a key.
-/

namespace GoApi

/-! ## Lists that agree entry by entry -/

section Related

variable {α β γ : Type} {R : α → β → Prop} {xs : List α} {ys : List β}

theorem exists_partner (h : List.Forall₂ R xs ys) {x : α} (hx : x ∈ xs) : ∃ y ∈ ys, R x y := by
  induction h with
  | nil => cases hx
  | cons hxy _ ih =>
    rcases List.mem_cons.1 hx with rfl | hx
    · exact ⟨_, by simp, hxy⟩
    · obtain ⟨y, hy, hR⟩ := ih hx
      exact ⟨y, by simp [hy], hR⟩

theorem exists_partner_left (h : List.Forall₂ R xs ys) {y : β} (hy : y ∈ ys) : ∃ x ∈ xs, R x y :=
  exists_partner (R := flip R) h.flip hy

/-- Entries that stand at the same place are related. -/
theorem rel_of_mem_zip (h : List.Forall₂ R xs ys) {x : α × β} (hx : x ∈ xs.zip ys) : R x.1 x.2 :=
  (List.forall₂_iff_zip.1 h).2 hx

theorem forall₂_imp_mem {S : α → β → Prop} (h : List.Forall₂ R xs ys)
    (himp : ∀ x ∈ xs, ∀ y ∈ ys, R x y → S x y) : List.Forall₂ S xs ys := by
  rw [List.forall₂_iff_zip] at h ⊢
  refine ⟨h.1, fun {x y} hxy => ?_⟩
  exact himp x (List.of_mem_zip hxy).1 y (List.of_mem_zip hxy).2 (h.2 hxy)

theorem map_eq_map_iff {f : α → γ} {g : β → γ} :
    xs.map f = ys.map g ↔ List.Forall₂ (fun x y => f x = g y) xs ys := by
  rw [← List.forall₂_eq_eq_eq, List.forall₂_map_left_iff, List.forall₂_map_right_iff]

theorem map_eq_of_forall₂ {f : α → γ} {g : β → γ} (h : List.Forall₂ R xs ys)
    (hfg : ∀ x ∈ xs, ∀ y ∈ ys, R x y → f x = g y) : xs.map f = ys.map g :=
  map_eq_map_iff.2 (forall₂_imp_mem h hfg)

theorem eq_of_zip {f : α → γ} {g : β → γ} (h : xs.map f = ys.map g) {x : α × β} (hx : x ∈ xs.zip ys) :
    f x.1 = g x.2 :=
  rel_of_mem_zip (map_eq_map_iff.1 h) hx

theorem map_eq_of_zip {f : α → γ} {g : β → γ} (hlen : xs.length = ys.length)
    (h : ∀ x ∈ xs.zip ys, f x.1 = g x.2) : xs.map f = ys.map g :=
  map_eq_map_iff.2 (List.forall₂_iff_zip.2 ⟨hlen, fun hx => h _ hx⟩)

theorem any_eq_of_forall₂ {f : α → Bool} {g : β → Bool} (h : List.Forall₂ R xs ys)
    (hfg : ∀ x y, R x y → f x = g y) : xs.any f = ys.any g := by
  induction h with
  | nil => rfl
  | cons hxy _ ih => rw [List.any_cons, List.any_cons, hfg _ _ hxy, ih]

/-- The first entries that are sought are related, if they are sought by a test that agrees. -/
theorem rel_find? {f : α → Bool} {g : β → Bool} (h : List.Forall₂ R xs ys)
    (hfg : ∀ x y, R x y → f x = g y) : Option.Rel R (xs.find? f) (ys.find? g) := by
  induction h with
  | nil => exact .none
  | @cons x y xs ys hxy _ ih =>
    rw [List.find?_cons, List.find?_cons, hfg x y hxy]
    cases g y with
    | true => exact .some hxy
    | false => exact ih

end Related

/-- Two ways to pick from one list that agree entry by entry. -/
theorem forall₂_filterMap {α β γ : Type} {R : β → γ → Prop} {f : α → Option β} {g : α → Option γ} {xs : List α}
    (h : ∀ x ∈ xs, Option.Rel R (f x) (g x)) : List.Forall₂ R (xs.filterMap f) (xs.filterMap g) :=
  List.rel_filterMap (fun _ _ hxy => hxy) (List.forall₂_same.2 h)

section Same

variable {α : Type} {R : α → α → Prop} {xs ys : List α}

theorem all_of_forall₂ {keep : α → Bool} (h : List.Forall₂ R xs ys)
    (hkeep : ∀ x y, R x y → keep x = true → keep y = true) (hall : xs.all keep = true) :
    ys.all keep = true := by
  rw [List.all_eq_true] at hall ⊢
  intro y hy
  obtain ⟨x, hx, hxy⟩ := exists_partner_left h hy
  exact hkeep x y hxy (hall x hx)

/-- Of two lists that agree, the same entries are kept by a test that agrees. -/
theorem forall₂_filter {S : α → α → Prop} {keep : α → Bool} (h : List.Forall₂ R xs ys)
    (hkeep : ∀ x y, R x y → keep x = keep y) (hrel : ∀ x y, R x y → keep x = true → S x y) :
    List.Forall₂ S (xs.filter keep) (ys.filter keep) := by
  have hkept : List.Forall₂ R (xs.filter keep) (ys.filter keep) :=
    List.rel_filter (fun x y hxy => Bool.eq_iff_iff.1 (hkeep x y hxy)) h
  exact forall₂_imp_mem hkept fun x hx y _ hxy => hrel x y hxy (List.mem_filter.1 hx).2

/-- Lists that agree after a reordering agree up to a reordering. -/
theorem exists_perm_forall₂ {xs₂ ys₂ : List α} (hx : xs₂.Perm xs) (hy : ys₂.Perm ys)
    (h : List.Forall₂ R xs₂ ys₂) : ∃ zs, zs.Perm ys ∧ List.Forall₂ R xs zs := by
  obtain ⟨zs, hzs, hp⟩ := List.perm_comp_forall₂ hx.symm h
  exact ⟨zs, hp.trans hy, hzs⟩

theorem map_eq_self {f : α → α} (h : ∀ x ∈ xs, f x = x) : xs.map f = xs := by
  rw [List.map_congr_left h, List.map_id']

end Same

/-! ## Steps that may fail -/

section Related

variable {α β γ δ : Type} {R : α → β → Prop} {S : γ → δ → Prop}

theorem rel_bind {x : Option α} {y : Option β} {f : α → Option γ} {g : β → Option δ} (h : Option.Rel R x y)
    (hfg : ∀ a b, R a b → Option.Rel S (f a) (g b)) : Option.Rel S (x.bind f) (y.bind g) := by
  cases h with
  | some h => exact hfg _ _ h
  | none => exact .none

theorem rel_mapM {f : α → Option γ} {g : β → Option δ} {xs : List α} {ys : List β} (h : List.Forall₂ R xs ys)
    (hfg : ∀ x y, R x y → Option.Rel S (f x) (g y)) :
    Option.Rel (List.Forall₂ S) (xs.mapM f) (ys.mapM g) := by
  induction h with
  | nil => exact .some .nil
  | cons hxy _ ih =>
    rw [List.mapM_cons, List.mapM_cons]
    refine rel_bind (hfg _ _ hxy) fun z w hzw => ?_
    exact rel_bind ih fun zs ws hzws => .some (.cons hzw hzws)

theorem foldlM_eq_of_forall₂ {f : γ → α → Option γ} {g : γ → β → Option γ} {xs : List α} {ys : List β}
    (h : List.Forall₂ R xs ys) (hfg : ∀ c x y, R x y → f c x = g c y) (c : γ) :
    xs.foldlM f c = ys.foldlM g c := by
  induction h generalizing c with
  | nil => rfl
  | cons hxy _ ih =>
    rw [List.foldlM_cons, List.foldlM_cons, hfg c _ _ hxy]
    exact Option.bind_congr fun c' _ => ih c'

end Related

section Steps

variable {α β : Type} {xs : List α}

theorem isSome_bind {x : Option α} {f : α → Option β} (hx : x.isSome) (hf : ∀ a, (f a).isSome) :
    (x >>= f).isSome := by
  obtain ⟨a, rfl⟩ := Option.isSome_iff_exists.1 hx
  exact hf a

theorem isSome_mapM {f : α → Option β} (hf : ∀ a ∈ xs, (f a).isSome) : (xs.mapM f).isSome := by
  induction xs with
  | nil => simp
  | cons a as ih =>
    rw [List.mapM_cons]
    refine isSome_bind (hf a (by simp)) fun b => ?_
    exact isSome_bind (ih fun c hc => hf c (by simp [hc])) fun bs => rfl

theorem isSome_foldlM {f : β → α → Option β} (hf : ∀ b, ∀ a ∈ xs, (f b a).isSome) (b : β) :
    (xs.foldlM f b).isSome := by
  induction xs generalizing b with
  | nil => rfl
  | cons a as ih =>
    rw [List.foldlM_cons]
    exact isSome_bind (hf b a (by simp)) fun b' => ih (fun b c hc => hf b c (by simp [hc])) b'

theorem mapM_congr_left {f g : α → Option β} (h : ∀ x ∈ xs, f x = g x) : xs.mapM f = xs.mapM g := by
  induction xs with
  | nil => rfl
  | cons x xs ih => rw [List.mapM_cons, List.mapM_cons, h x (by simp), ih fun y hy => h y (by simp [hy])]

/-- Steps that may fail one by one succeed together exactly if each of them does. -/
theorem mapM_guard (keep : α → Bool) (f : α → β) (xs : List α) :
    (xs.mapM fun x => if keep x then some (f x) else none) = if xs.all keep then some (xs.map f) else none := by
  induction xs with
  | nil => rfl
  | cons x xs ih =>
    rw [List.mapM_cons, ih, List.all_cons]
    cases keep x <;> cases xs.all keep <;> rfl

theorem mapM_eq_some {f : α → Option β} {g : α → β} (h : ∀ x ∈ xs, f x = some (g x)) :
    xs.mapM f = some (xs.map g) := by
  induction xs with
  | nil => rfl
  | cons x xs ih =>
    rw [List.mapM_cons, h x (by simp), ih fun y hy => h y (by simp [hy])]
    rfl

/-- What steps give that succeed, if it is known what each of them can give. -/
theorem eq_map_of_mapM {f : α → Option β} {g : α → β} {ys : List β}
    (h : ∀ x ∈ xs, ∀ y, f x = some y → y = g x) (hxs : xs.mapM f = some ys) : ys = xs.map g := by
  induction xs generalizing ys with
  | nil =>
    cases hxs
    rfl
  | cons x xs ih =>
    rw [List.mapM_cons] at hxs
    obtain ⟨y, hy, hrest⟩ := Option.bind_eq_some_iff.1 hxs
    obtain ⟨ys', hys', heq⟩ := Option.bind_eq_some_iff.1 hrest
    cases heq
    rw [List.map_cons, h x (by simp) y hy, ih (fun x' hx' => h x' (by simp [hx'])) hys']

theorem reduceOption_map_some (xs : List α) : (xs.map some).reduceOption = xs := by
  rw [List.reduceOption, List.filterMap_map]
  exact List.filterMap_some

theorem map_some_reduceOption {xs : List (Option α)} (h : ∀ x ∈ xs, x.isSome) :
    xs.reduceOption.map some = xs := by
  induction xs with
  | nil => rfl
  | cons x xs ih =>
    obtain ⟨a, rfl⟩ := Option.isSome_iff_exists.1 (h x (by simp))
    have := ih fun y hy => h y (by simp [hy])
    rw [List.reduceOption_cons_of_some, List.map_cons, this]

end Steps

section Results

variable {α β ε : Type}

theorem eq_ok_some_of_join {r : Except ε (Option α)} {a : α} (h : r.toOption.join = some a) :
    r = .ok (some a) := by
  cases r with
  | error e => cases h
  | ok found => exact congrArg Except.ok h

/-- Steps that may fail give a list exactly if none of them fails, and then it holds what they give. -/
theorem filterMapM_eq_ok_iff {f : α → Except ε (Option β)} {xs : List α} {ys : List β} :
    xs.filterMapM f = .ok ys ↔
      (∀ x ∈ xs, (f x).isOk = true) ∧ xs.filterMap (fun x => (f x).toOption.join) = ys := by
  induction xs generalizing ys with
  | nil =>
    rw [List.filterMapM_nil]
    simp [pure, Except.pure]
  | cons x xs ih =>
    rw [List.filterMapM_cons]
    cases hx : f x with
    | error e => simp [hx, bind, Except.bind, Except.isOk, Except.toBool]
    | ok b? =>
      cases b? with
      | none => simp [hx, bind, Except.bind, Except.isOk, Except.toBool, Except.toOption, ih]
      | some b =>
        have hcons : (xs.filterMapM f >>= fun below => pure (b :: below)) = .ok ys ↔
            ∃ below, xs.filterMapM f = .ok below ∧ b :: below = ys := by
          cases xs.filterMapM f <;> simp [bind, Except.bind, pure, Except.pure]
        refine hcons.trans ?_
        simp [hx, Except.isOk, Except.toBool, Except.toOption, ih]

end Results

/-! ## Entries with a key -/

section Keys

variable {α : Type} {key : α → String} {name : String} {xs : List α}

theorem count_map_key (key : α → String) (name : String) (xs : List α) :
    (xs.map key).count name = (xs.filter (key · == name)).length := by
  rw [List.count_eq_countP, List.countP_map, List.countP_eq_length_filter]
  rfl

theorem eq_of_count_le_one (h : (xs.map key).count name ≤ 1) {x y : α} (hx : x ∈ xs) (hy : y ∈ xs)
    (hkx : key x = name) (hky : key y = name) : x = y := by
  rw [count_map_key] at h
  have hmem : ∀ z ∈ xs, key z = name → z ∈ xs.filter (key · == name) := by
    intro z hz hkz
    exact List.mem_filter.2 ⟨hz, beq_iff_eq.2 hkz⟩
  have hx := hmem x hx hkx
  have hy := hmem y hy hky
  generalize xs.filter (key · == name) = found at h hx hy
  rcases found with _ | ⟨z, _ | ⟨w, rest⟩⟩
  · cases hx
  · rw [List.mem_singleton.1 hx, List.mem_singleton.1 hy]
  · simp only [List.length_cons] at h
    omega

/-- What a name stands for does not depend on the order, if it occurs once. -/
theorem find?_eq_of_perm {ys : List α} (hperm : xs.Perm ys) (h : (xs.map key).count name ≤ 1) :
    xs.find? (key · == name) = ys.find? (key · == name) := by
  cases hx : xs.find? (key · == name) with
  | none =>
    symm
    rw [List.find?_eq_none] at hx ⊢
    exact fun y hy => hx y (hperm.mem_iff.2 hy)
  | some x =>
    have hkx : key x = name := by simpa using List.find?_some hx
    cases hy : ys.find? (key · == name) with
    | none =>
      rw [List.find?_eq_none] at hy
      exact absurd (by simpa using hkx) (hy x (hperm.mem_iff.1 (List.mem_of_find?_eq_some hx)))
    | some y =>
      have hky : key y = name := by simpa using List.find?_some hy
      have hmem := hperm.mem_iff.2 (List.mem_of_find?_eq_some hy)
      rw [eq_of_count_le_one h (List.mem_of_find?_eq_some hx) hmem hkx hky]

/-- Of entries that are listed key by key, those of one key are found together. -/
theorem filter_flatMap_key (key : α → String) {f : String → List α} (hkey : ∀ x, ∀ b ∈ f x, key b = x)
    {x : String} {xs : List String} (hnodup : xs.Nodup) (hx : x ∈ xs) :
    (xs.flatMap f).filter (key · == x) = f x := by
  have hother : ∀ ys : List String, x ∉ ys → (ys.flatMap f).filter (key · == x) = [] := by
    intro ys hys
    rw [List.filter_eq_nil_iff]
    intro b hb hbx
    obtain ⟨y, hy, hby⟩ := List.mem_flatMap.1 hb
    rw [hkey y b hby, beq_iff_eq] at hbx
    exact hys (hbx ▸ hy)
  obtain ⟨before, after, rfl⟩ := List.append_of_mem hx
  have hsplit := List.nodup_append.1 hnodup
  have hbefore : x ∉ before := fun h => hsplit.2.2 x h x (List.mem_cons_self ..) rfl
  have hafter : x ∉ after := (List.nodup_cons.1 hsplit.2.1).1
  have hself : (f x).filter (key · == x) = f x :=
    List.filter_eq_self.2 fun b hb => beq_iff_eq.2 (hkey x b hb)
  rw [List.flatMap_append, List.flatMap_cons, List.filter_append, List.filter_append, hother _ hbefore,
    hother _ hafter, hself, List.nil_append, List.append_nil]

end Keys

/-! ## Separators -/

section Separators

variable {α : Type} {sep : α}

theorem filter_intersperse {keep : α → Bool} (hsep : keep sep = false) (xs : List α) :
    (xs.intersperse sep).filter keep = xs.filter keep := by
  induction xs with
  | nil => rfl
  | cons x xs ih =>
    cases xs with
    | nil => rfl
    | cons y ys =>
      rw [List.intersperse_cons_cons, List.filter_cons, List.filter_cons_of_neg (by simp [hsep]), ih,
        List.filter_cons (x := x)]

theorem mem_intersperse {x : α} {xs : List α} (h : x ∈ xs.intersperse sep) : x = sep ∨ x ∈ xs := by
  induction xs with
  | nil => exact .inr h
  | cons y ys ih =>
    cases ys with
    | nil => exact .inr h
    | cons z zs =>
      rw [List.intersperse_cons_cons] at h
      rcases List.mem_cons.1 h with rfl | h
      · exact .inr (by simp)
      rcases List.mem_cons.1 h with rfl | h
      · exact .inl rfl
      · exact (ih h).imp_right (List.mem_cons_of_mem y)

end Separators

end GoApi
