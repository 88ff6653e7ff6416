import GoApi.Discovery.Package
import GoApi.Proofs.Order
import GoApi.Proofs.Text.Split

/-!
# Paths and the packages they lie in

A path is told by its parts (`parts_join`).  For plain paths, which have no idle part, no
`..` and no backslash, the package of a directory is written `./dir`, so different directories are
different packages (`packagePath_inj`).
-/

namespace GoApi.Discovery

/-! ## Plain paths -/

namespace Path

/-- A part that is a name: what an entry of a directory can be called. -/
structure IsEntry (part : String) : Prop where
  busy : isIdle part = false
  ne_up : part ≠ ".."
  whole : '/' ∉ part.toList

instance (part : String) : Decidable (IsEntry part) :=
  decidable_of_iff (isIdle part = false ∧ part ≠ ".." ∧ '/' ∉ part.toList)
    ⟨fun ⟨busy, ne_up, whole⟩ => ⟨busy, ne_up, whole⟩, fun h => ⟨h.busy, h.ne_up, h.whole⟩⟩

/-- A part that is a name, without a backslash. -/
structure IsName (part : String) : Prop extends IsEntry part where
  plain : '\\' ∉ part.toList

/-- A path of names only. -/
def IsPlain (path : String) : Prop :=
  ∀ part ∈ parts path, isIdle part = false ∧ part ≠ ".." ∧ '\\' ∉ part.toList

theorem IsPlain.isName {path : String} (h : IsPlain path) {part : String} (hp : part ∈ parts path) :
    IsName part := by
  obtain ⟨hbusy, hup, hplain⟩ := h part hp
  refine ⟨⟨hbusy, hup, ?_⟩, hplain⟩
  unfold parts Text.pieces at hp
  obtain ⟨piece, hpiece, rfl⟩ := List.mem_map.1 hp
  simpa using Text.notMem_of_mem_splitOn '/' hpiece

/-- A plain path is a list of directory names and the name of a file. -/
theorem IsPlain.split {path : String} (h : IsPlain path) :
    ∃ dirs file, parts path = dirs ++ [file] ∧ (∀ d ∈ dirs, IsName d) ∧ IsName file := by
  have hne : parts path ≠ [] := by simp [parts, Text.pieces, Text.splitOn_ne_nil]
  obtain ⟨dirs, file, hparts⟩ := (List.eq_nil_or_concat (parts path)).resolve_left hne
  rw [List.concat_eq_append] at hparts
  refine ⟨dirs, file, hparts, fun d hd => h.isName ?_, h.isName ?_⟩
  · rw [hparts]
    exact List.mem_append_left _ hd
  · rw [hparts]
    exact List.mem_append_right _ (List.mem_singleton_self file)

theorem IsEntry.ne_empty {part : String} (h : IsEntry part) : part.isEmpty = false := by
  have hbusy := h.busy
  unfold isIdle at hbusy
  simp_all

theorem trimIdle_eq {ps : List String} (h : ∀ p ∈ ps, IsEntry p) : trimIdle ps = ps := by
  cases ps with
  | nil => rfl
  | cons p ps =>
    have hkeep : ps.reverse.dropWhile isIdle = ps.reverse := by
      cases hrev : ps.reverse with
      | nil => rfl
      | cons q qs =>
        have hq : q ∈ ps := List.mem_reverse.1 (by simp [hrev])
        exact List.dropWhile_cons_of_neg (by simp [(h q (by simp [hq])).busy])
    rw [trimIdle, hkeep, List.reverse_reverse]

theorem name?_eq {path file : String} {dirs : List String} (hparts : parts path = dirs ++ [file])
    (hdirs : ∀ d ∈ dirs, IsEntry d) (hfile : IsEntry file) : name? path = some file := by
  have htrim : trimIdle (dirs ++ [file]) = dirs ++ [file] := by
    refine trimIdle_eq fun p hp => ?_
    rcases List.mem_append.1 hp with hp | hp
    · exact hdirs p hp
    · exact List.mem_singleton.1 hp ▸ hfile
  unfold name?
  rw [hparts, htrim, List.getLast?_concat]
  simp [hfile.busy, hfile.ne_up]

/-- The directories above a file are the initial parts of the way to it. -/
theorem parents_eq {path file : String} {dirs : List String} (hparts : parts path = dirs ++ [file])
    (hdirs : ∀ d ∈ dirs, IsEntry d) (hfile : IsEntry file) :
    parents path = (dirs.inits.map (Text.join "/")).reverse := by
  have habove : above (file :: dirs.reverse) = (dirs.inits.map (Text.join "/")).reverse := by
    clear hparts
    induction dirs using List.reverseRecOn generalizing file with
    | nil =>
      rw [List.reverse_nil, above, hfile.ne_empty]
      rfl
    | append_singleton before d ih =>
      have hparts' : ofParts (before ++ [d]) = Text.join "/" (before ++ [d]) := by
        unfold ofParts
        split
        · next hroot => exact absurd (hdirs "" (by simp [hroot])).busy (by decide)
        · rfl
      have hd : d :: before.reverse = (before ++ [d]).reverse := by simp
      rw [List.reverse_append, List.reverse_singleton, List.singleton_append, above, hfile.busy,
        ih (fun d hd => hdirs d (by simp [hd])) (hdirs d (by simp)), hd, List.reverse_reverse, trimIdle_eq hdirs,
        hparts', List.inits_append]
      simp
  unfold parents
  rw [hparts, List.reverse_append, List.reverse_singleton, List.singleton_append, habove]

theorem parent?_eq {path file : String} {dirs : List String} (hparts : parts path = dirs ++ [file])
    (hdirs : ∀ d ∈ dirs, IsEntry d) (hfile : IsEntry file) : parent? path = some (Text.join "/" dirs) := by
  have hlast : dirs.inits.getLast? = some dirs := by
    cases dirs using List.reverseRecOn with
    | nil => rfl
    | append_singleton before d => simp [List.inits_append]
  rw [parent?, parents_eq hparts hdirs hfile, List.head?_reverse, List.getLast?_map, hlast]
  rfl

theorem parts_join {dirs : List String} (hne : dirs ≠ []) (hdirs : ∀ d ∈ dirs, IsEntry d) :
    parts (Text.join "/" dirs) = dirs :=
  Text.pieces_join hne fun d hd => (hdirs d hd).whole

/-- A path without idle parts has nothing in front that could be dropped. -/
theorem toList_ne_lead {path : String} (h : ∀ part ∈ parts path, isIdle part = false) :
    (∀ cs, path.toList ≠ '.' :: '/' :: cs) ∧ ∀ cs, path.toList ≠ '/' :: cs := by
  unfold parts Text.pieces at h
  constructor
  · intro cs hpath
    have hsplit : Text.splitOn '/' ('.' :: '/' :: cs) = ['.'] :: Text.splitOn '/' cs :=
      Text.splitOn_append '/' (show '/' ∉ ['.'] by decide) cs
    rw [hpath, hsplit] at h
    exact absurd (h "." (by simp)) (by decide)
  · intro cs hpath
    rw [hpath, Text.splitOn_sep_cons] at h
    exact absurd (h "" (by simp)) (by decide)

theorem names_join {dirs : List String} (hdirs : ∀ d ∈ dirs, IsEntry d) :
    names (Text.join "/" dirs) = dirs := by
  cases dirs with
  | nil => decide
  | cons d rest =>
    have hd : d.isEmpty = false := (hdirs d (by simp)).ne_empty
    have hrest : rest.filter (!isIdle ·) = rest := by
      rw [List.filter_eq_self]
      intro r hr
      simp [(hdirs r (by simp [hr])).busy]
    unfold names
    rw [parts_join (by simp) hdirs]
    simp only [hd, hrest]
    rfl

end Path

/-! ## Packages -/

theorem trimSlashes_eq {text : List Char} (hstart : ∀ cs, text ≠ '/' :: cs)
    (hend : ∀ cs, text ≠ cs ++ ['/']) : trimSlashes text = text := by
  have hleft : text.dropWhile (· == '/') = text := by
    cases text with
    | nil => rfl
    | cons c cs =>
      refine List.dropWhile_cons_of_neg fun hc => hstart cs ?_
      rw [beq_iff_eq.1 hc]
  have hright : text.reverse.dropWhile (· == '/') = text.reverse := by
    cases hrev : text.reverse with
    | nil => rfl
    | cons c cs =>
      refine List.dropWhile_cons_of_neg fun hc => hend cs.reverse ?_
      rw [← List.reverse_reverse text, hrev, List.reverse_cons, beq_iff_eq.1 hc]
  rw [trimSlashes, hleft, hright, List.reverse_reverse]

/-- The package of a directory below the root is written with its path. -/
theorem packagePath_join {dirs : List String} (hne : dirs ≠ []) (hdirs : ∀ d ∈ dirs, Path.IsName d) :
    packagePath (Text.join "/" dirs) = "./" ++ Text.join "/" dirs := by
  -- what is taken off a path, or stands for the root, has an idle part
  have hparts : ∀ part ∈ Path.parts (Text.join "/" dirs), Path.isIdle part = false := by
    intro part hpart
    rw [Path.parts_join hne fun d hd => (hdirs d hd).toIsEntry] at hpart
    exact (hdirs part hpart).busy
  have hbusy : ∀ piece ∈ Text.splitOn '/' (Text.join "/" dirs).toList,
      Path.isIdle (String.ofList piece) = false :=
    fun piece hpiece => hparts _ (List.mem_map_of_mem hpiece)
  obtain ⟨hdot, hstart⟩ := Path.toList_ne_lead hparts
  have hmap : (Text.join "/" dirs).toList.map (fun c => if c = '\\' then '/' else c) =
      (Text.join "/" dirs).toList := by
    have hkeep : ∀ c ∈ (Text.join "/" dirs).toList, (if c = '\\' then '/' else c) = id c := by
      intro c hc
      refine if_neg ?_
      rintro rfl
      rcases Text.mem_join hc with hsep | ⟨d, hd, hc⟩
      · exact absurd hsep (by decide)
      · exact (hdirs d hd).plain hc
    rw [List.map_congr_left hkeep, List.map_id]
  unfold packagePath
  rw [hmap]
  generalize htext : (Text.join "/" dirs).toList = text at hbusy hdot hstart
  have hend : ∀ cs, text ≠ cs ++ ['/'] := by
    rintro cs rfl
    rw [Text.splitOn_concat_sep] at hbusy
    exact absurd (hbusy [] (by simp)) (by decide)
  have hroot : (text.isEmpty || text == ['.']) = false := by
    rw [Bool.or_eq_false_iff]
    constructor
    · rw [List.isEmpty_eq_false_iff]
      rintro rfl
      exact absurd (hbusy [] (by simp [Text.splitOn])) (by decide)
    · rw [beq_eq_false_iff_ne]
      rintro rfl
      exact absurd (hbusy ['.'] (by decide)) (by decide)
  have hdots : dropDotSlashes text = text := by
    unfold dropDotSlashes
    split
    · exact absurd rfl (hdot _)
    · rfl
  simp only [trimSlashes_eq hstart hend, hroot, hdots]
  rw [← htext, String.ofList_toList]
  rfl

/-- Different directories are different packages. -/
theorem packagePath_inj {dirs dirs' : List String} (hdirs : ∀ d ∈ dirs, Path.IsName d)
    (hdirs' : ∀ d ∈ dirs', Path.IsName d)
    (h : packagePath (Text.join "/" dirs) = packagePath (Text.join "/" dirs')) : dirs = dirs' := by
  have hroot : packagePath (Text.join "/" []) = "." := by decide
  have hbelow : ∀ text : String, "." ≠ "./" ++ text := by
    intro text heq
    simpa using congrArg String.toList heq
  by_cases hne : dirs = []
  · by_cases hne' : dirs' = []
    · rw [hne, hne']
    · rw [hne, hroot, packagePath_join hne' hdirs'] at h
      exact absurd h (hbelow _)
  · by_cases hne' : dirs' = []
    · rw [hne', hroot, packagePath_join hne hdirs] at h
      exact absurd h.symm (hbelow _)
    · rw [packagePath_join hne hdirs, packagePath_join hne' hdirs'] at h
      have hjoin : Text.join "/" dirs = Text.join "/" dirs' := by
        simpa [← String.toList_inj] using h
      rw [← Path.parts_join hne fun d hd => (hdirs d hd).toIsEntry, hjoin,
        Path.parts_join hne' fun d hd => (hdirs' d hd).toIsEntry]

/-! ## Packages that take part -/

/-- Whether a package takes part as far as its path says. -/
def Selection.takesPart (s : Selection) (package : String) : Bool :=
  s.includeInternal || !isInternal package

theorem Selection.mem_filter {s : Selection} {packages : List String} {package : String} :
    package ∈ s.filter packages ↔ package ∈ packages ∧ s.takesPart package = true := by
  unfold Selection.filter
  rw [List.mem_filter, mem_ascending]
  rfl

/-- The packages that take part are told by their set. -/
theorem Selection.filter_eq_iff {s : Selection} {xs ys : List String} :
    s.filter xs = s.filter ys ↔ ∀ package, s.takesPart package = true → (package ∈ xs ↔ package ∈ ys) := by
  constructor
  · intro h package hpart
    have hmem : package ∈ s.filter xs ↔ package ∈ s.filter ys := by rw [h]
    rw [mem_filter, mem_filter] at hmem
    simpa [hpart] using hmem
  · intro h
    refine eq_of_pairwise_lt id ((pairwise_ascending xs).filter _) ((pairwise_ascending ys).filter _) ?_
    intro package
    show package ∈ s.filter xs ↔ package ∈ s.filter ys
    rw [mem_filter, mem_filter]
    exact and_congr_left (h package)

end GoApi.Discovery
