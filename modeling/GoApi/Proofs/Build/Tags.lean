import GoApi.Proofs.Build.Legacy

/-!
# Tags beside the platform's own

A target answers for some tags by itself (`Target.own?`) and asks its extra tags for all others.  So an extra
tag holds unless the target denies its name: `unix` on another system, `cgo` where it is off, and `go1.N` for
what is no release up to the latest.

More extra tags never take away a tag that holds, and so they never take away a file whose header states its
constraint without negation (`admitsDirectives_mono`).
-/

namespace GoApi.Build

open Text

/-! ## What the target answers for -/

/-- The answer of the target itself; nothing for a tag that it leaves to the extra tags. -/
def Target.own? (t : Target) (tag : String) : Option Bool :=
  if tag == t.os || tag == t.arch || tag == "gc" then some true
  else if tag == "unix" then some (unixSystems.contains t.os)
  else if tag == "cgo" then some t.cgo
  else if tag == "linux" && t.os == "android" then some true
  else if tag == "solaris" && t.os == "illumos" then some true
  else if tag == "darwin" && t.os == "ios" then some true
  else (after? "go1.".toList tag.toList).map fun release => (minor? release).any (· ≤ latestMinor)

theorem satisfies_eq (t : Target) (tag : String) :
    t.satisfies tag = (t.own? tag).getD (t.tags.contains tag) := by
  unfold Target.satisfies Target.own?
  repeat' split
  all_goals simp_all

/-- The target denies a tag by its name, whatever its extra tags are. -/
def Target.Denies (t : Target) (tag : String) : Prop :=
  tag ≠ t.os ∧ tag ≠ t.arch ∧
    (tag = "unix" ∧ t.os ∉ unixSystems ∨
      tag = "cgo" ∧ t.cgo = false ∨
      ∃ release, tag = "go1." ++ release ∧ ∀ n, minor? release.toList = some n → latestMinor < n)

theorem after?_append (lead rest : List Char) : after? lead (lead ++ rest) = some rest := by
  induction lead with
  | nil => rfl
  | cons c lead ih => simp [after?, ih]

theorem eq_append_of_after? {lead text rest : List Char} (h : after? lead text = some rest) :
    text = lead ++ rest := by
  fun_induction after? lead text with
  | case1 text => exact Option.some.inj h
  | case2 => cases h
  | case3 lead d text ih => rw [ih h, List.cons_append]
  | case4 => cases h

theorem own?_release (t : Target) (release : String) :
    t.own? ("go1." ++ release) =
      if "go1." ++ release = t.os ∨ "go1." ++ release = t.arch then some true
      else some ((minor? release.toList).any (· ≤ latestMinor)) := by
  have hafter : after? "go1.".toList ("go1." ++ release).toList = some release.toList := by
    rw [String.toList_append, after?_append]
  have hne : ∀ word : String, after? "go1.".toList word.toList = none → ("go1." ++ release == word) = false := by
    intro word hword
    rw [beq_eq_false_iff_ne]
    rintro rfl
    rw [hafter] at hword
    cases hword
  rw [Target.own?, hafter, hne "gc" (by decide), hne "unix" (by decide), hne "cgo" (by decide),
    hne "linux" (by decide), hne "solaris" (by decide), hne "darwin" (by decide)]
  simp

theorem own?_eq_some_false_iff (t : Target) (tag : String) : t.own? tag = some false ↔ t.Denies tag := by
  constructor
  · intro h
    cases hafter : after? "go1.".toList tag.toList with
    | some rest =>
      obtain rfl : tag = "go1." ++ String.ofList rest := by
        rw [← String.toList_inj, eq_append_of_after? hafter]
        simp
      rw [own?_release] at h
      split at h
      · cases h
      · next hplatform =>
        obtain ⟨hos, harch⟩ := not_or.1 hplatform
        refine ⟨hos, harch, .inr (.inr ⟨_, rfl, fun n hn => ?_⟩)⟩
        rw [hn] at h
        simpa using h
    | none =>
      unfold Target.own? at h
      rw [hafter] at h
      repeat' split at h
      all_goals simp_all [Target.Denies]
  · rintro ⟨hos, harch, ⟨rfl, h⟩ | ⟨rfl, h⟩ | ⟨release, rfl, h⟩⟩
    · simp [Target.own?, hos, harch, h]
    · simp [Target.own?, hos, harch, h]
    · simpa [own?_release, hos, harch, Option.any_eq_false] using h

/-- An extra tag holds unless the target denies its name. -/
theorem satisfies_iff_of_mem (t : Target) {tag : String} (h : tag ∈ t.tags) :
    t.satisfies tag = true ↔ ¬t.Denies tag := by
  rw [satisfies_eq, ← own?_eq_some_false_iff]
  cases t.own? tag with
  | none => simp [h]
  | some answer => simp

/-! ## More extra tags -/

/-- An expression without negation. -/
def Expr.Affirmative : Expr → Prop
  | .tag _ => True
  | .not _ => False
  | .and left right => left.Affirmative ∧ right.Affirmative
  | .or left right => left.Affirmative ∧ right.Affirmative

/-- An option list without negated terms. -/
def AffirmativeOptions (text : String) : Prop :=
  ∀ option ∈ words text.toList, ∀ term ∈ splitOn ',' option, term.head? ≠ some '!'

/-- The constraint that decides a header negates nothing: its first expression or, without one, its options. -/
def Affirmative (ds : List Directive) : Prop :=
  match firstExpression? ds with
  | some text => ∀ e, Expr.parse text = .ok e → e.Affirmative
  | none => ∀ text, .options text ∈ ds → AffirmativeOptions text

section More

variable (t : Target) {tags : List String} (hmore : t.tags ⊆ tags)
include hmore

theorem satisfies_mono {tag : String} (h : t.satisfies tag = true) :
    ({ t with tags } : Target).satisfies tag = true := by
  rw [satisfies_eq] at h ⊢
  have hown : ({ t with tags } : Target).own? tag = t.own? tag := rfl
  rw [hown]
  cases hanswer : t.own? tag with
  | some answer => simpa [hanswer] using h
  | none =>
    simp only [hanswer, Option.getD_none, List.contains_iff_mem] at h ⊢
    exact hmore h

omit hmore in
/-- What holds when some tags do holds when more do, if nothing is negated. -/
theorem Expr.Affirmative.eval_mono {e : Expr} (h : e.Affirmative) {holds more : String → Bool}
    (hholds : ∀ tag, holds tag = true → more tag = true) (he : e.eval holds = true) : e.eval more = true := by
  induction e with
  | tag name => exact hholds name he
  | not inner => exact h.elim
  | and left right ihl ihr =>
    simp only [Expr.eval, Bool.and_eq_true] at he ⊢
    exact ⟨ihl h.1 he.1, ihr h.2 he.2⟩
  | or left right ihl ihr =>
    simp only [Expr.eval, Bool.or_eq_true] at he ⊢
    exact he.imp (ihl h.1) (ihr h.2)

theorem satisfiesOptions_mono {text : String} (h : AffirmativeOptions text)
    (hholds : t.satisfiesOptions text = true) : ({ t with tags } : Target).satisfiesOptions text = true := by
  obtain ⟨option, hoption, hterms⟩ := List.any_eq_true.1 hholds
  refine List.any_eq_true.2 ⟨option, hoption, List.all_eq_true.2 fun term hterm => ?_⟩
  have hthis := List.all_eq_true.1 hterms term hterm
  have hplain := h option hoption term hterm
  unfold Target.satisfiesTerm at hthis ⊢
  split at hthis
  · exact absurd rfl hplain
  · exact satisfies_mono t hmore hthis

/-- A header that allows a target and negates nothing allows it with more extra tags. -/
theorem admitsDirectives_mono {ds : List Directive} (h : Affirmative ds)
    (hadmits : t.admitsDirectives ds = true) : ({ t with tags } : Target).admitsDirectives ds = true := by
  unfold Affirmative at h
  cases hfirst : firstExpression? ds with
  | some text =>
    rw [hfirst] at h
    rw [admitsDirectives_of_first _ hfirst] at hadmits ⊢
    intro e he
    exact (h e he).eval_mono (fun tag => satisfies_mono t hmore) (hadmits e he)
  | none =>
    rw [hfirst] at h
    rw [admitsDirectives_of_none _ hfirst] at hadmits ⊢
    intro text htext
    exact satisfiesOptions_mono t hmore (h text htext) (hadmits text htext)

end More

/-! ## A tag as the only constraint -/

theorem satisfiesOptions_tag (t : Target) {tag : String} (hne : tag ≠ "")
    (hword : ∀ c ∈ tag.toList, isTagChar c = true) : t.satisfiesOptions tag = t.satisfies tag := by
  let term : Term := ⟨false, tag.toList, by simpa using hne, hword⟩
  have htext : optionsText ⟨⟨term, []⟩, []⟩ = tag := by
    simp [optionsText, Items.toList, join, Term.text, term]
  have hoptions := satisfiesOptions_optionsText t ⟨⟨term, []⟩, []⟩
  rw [htext] at hoptions
  simpa [Items.toList, Term.eval, term] using hoptions

/-- A source states one tag and nothing else, in either form. -/
def StatesTag (source tag : String) : Prop :=
  directives source = [.expression tag] ∨ directives source = [.options tag]

theorem admitsSource_of_statesTag (t : Target) {source tag : String} (h : StatesTag source tag) (hne : tag ≠ "")
    (hword : ∀ c ∈ tag.toList, isTagChar c = true) : t.admitsSource source = t.satisfies tag := by
  rw [Target.admitsSource]
  rcases h with h | h
  · have hfirst : firstExpression? [.expression tag] = some tag := rfl
    simp only [h, admitsDirectives_eq, hfirst, parse_tag hne hword, Expr.eval]
  · have hnone : firstExpression? [.options tag] = none := rfl
    simp only [h, admitsDirectives_eq, hnone, List.all_cons, List.all_nil, Bool.and_true]
    exact satisfiesOptions_tag t hne hword

/-- An extra tag that is a source's only constraint selects it exactly if the target does not deny the tag by
its name.  Further extra tags keep every source whose deciding constraint negates nothing. -/
theorem extra_tags_honoured_iff (t : Target) :
    (∀ tag ∈ t.tags, tag ≠ "" → (∀ c ∈ tag.toList, isTagChar c = true) → ∀ source, StatesTag source tag →
      (t.admitsSource source = true ↔ ¬t.Denies tag)) ∧
    ∀ tags source, t.tags ⊆ tags → Affirmative (directives source) → t.admitsSource source = true →
      ({ t with tags } : Target).admitsSource source = true := by
  constructor
  · intro tag hmem hne hword source hsource
    rw [admitsSource_of_statesTag t hsource hne hword]
    exact satisfies_iff_of_mem t hmem
  · intro tags source hmore haffirmative hadmits
    exact admitsDirectives_mono t hmore haffirmative hadmits

/-- An extra tag in the older form, below a comment; a further tag does not take the source away. -/
theorem extra_tags_honoured_integration :
    let t : Target := { os := "windows", tags := ["integration"] }
    let source := "// Tests of a whole run.\n\n// +build integration\n\npackage p\n"
    StatesTag source "integration" ∧ ¬t.Denies "integration" ∧ t.admitsSource source = true ∧
      ({ t with tags := ["slow", "integration"] } : Target).admitsSource source = true := by
  intro t source
  have hdirectives : directives source = [.options "integration"] := by decide +kernel
  have hdenies : ¬t.Denies "integration" := by
    rw [← own?_eq_some_false_iff]
    decide
  have hword : ∀ c ∈ "integration".toList, isTagChar c = true := List.all_eq_true.1 (by decide)
  obtain ⟨honoured, hkept⟩ := extra_tags_honoured_iff t
  have hadmits : t.admitsSource source = true :=
    (honoured "integration" (by decide) (by decide) hword source (.inr hdirectives)).2 hdenies
  refine ⟨.inr hdirectives, hdenies, hadmits, hkept _ source (by simp [t]) ?_ hadmits⟩
  rw [hdirectives]
  intro text htext
  obtain rfl : text = "integration" := by simpa using htext
  unfold AffirmativeOptions
  decide +kernel

/-- Extra tags that do not count: the target answers for their names before it looks at them. -/
theorem extra_tags_denied :
    ({ os := "windows", tags := ["unix"] } : Target).admitsSource "//go:build unix\n\npackage p\n" = false ∧
      ({ tags := ["cgo"] } : Target).admitsSource "// +build cgo\n\npackage p\n" = false ∧
      ({ tags := ["go1.99"] } : Target).admitsSource "//go:build go1.99\n\npackage p\n" = false := by
  have hword : ∀ tag ∈ ["unix", "cgo", "go1.99"], ∀ c ∈ tag.toList, isTagChar c = true := by
    simpa only [List.all_eq_true] using
      show ["unix", "cgo", "go1.99"].all (fun tag => tag.toList.all isTagChar) = true by decide
  refine ⟨?_, ?_, ?_⟩
  · rw [admitsSource_of_statesTag _ (.inl (by decide +kernel)) (by decide) (hword "unix" (by simp))]
    decide
  · rw [admitsSource_of_statesTag _ (.inr (by decide +kernel)) (by decide) (hword "cgo" (by simp))]
    decide
  · rw [admitsSource_of_statesTag _ (.inl (by decide +kernel)) (by decide) (hword "go1.99" (by simp))]
    decide

end GoApi.Build
