import GoApi.Proofs.Keys
import GoApi.Proofs.Source.Files

/-!
# Names as they are read

The names that a source declares are words, and its receivers are words under stars, with a package before
the word at most (`ofSource_named`).  So nothing that stands in a declaration can be taken for the marks of
a key (`isName_of_isWordText`, `IsReceiver.head_ne`).
-/

namespace GoApi.Source

open Text Text.Reading Reader

/-! ## Words -/

theorem keyMarks_outside_words_all :
    keyMarks.all (fun c => !isIdentifierStart c && !isIdentifierContinue c) = true := by
  decide +kernel

/-- A word has none of the characters that a key puts between names. -/
theorem isName_of_isWordText {s : String} (h : isWordText s = true) : IsName s := by
  intro mark hmark hmem
  have houtside := List.all_eq_true.1 keyMarks_outside_words_all mark hmark
  simp only [Bool.and_eq_true, Bool.not_eq_true'] at houtside
  obtain ⟨hstart, hcontinue⟩ := houtside
  unfold isWordText at h
  split at h
  · next hs => simp [hs] at hmem
  · next c cs hs =>
    rw [Bool.and_eq_true, List.all_eq_true] at h
    rw [hs] at hmem
    rcases List.mem_cons.1 hmem with rfl | hmem
    · simp [hstart] at h
    · simp [h.2 mark hmem] at hcontinue

theorem isWordText_of_isTypeName {s : String} (h : isTypeName s = true) : isWordText s = true :=
  (Bool.and_eq_true_iff.1 h).1

/-- A receiver as it is written: a name, perhaps that of another package, under any number of stars. -/
inductive IsReceiver : String → Prop
  | name (n : String) : isWordText n = true → IsReceiver n
  | qualified (p n : String) : isWordText p = true → isWordText n = true → IsReceiver (p ++ "." ++ n)
  | pointer (r : String) : IsReceiver r → IsReceiver ("*" ++ r)

/-- A word is never taken for the bracket that begins a method's key. -/
theorem head_ne_of_isWordText {s : String} (h : isWordText s = true) : s.toList.head? ≠ some '(' :=
  fun hhead => isName_of_isWordText h '(' (by decide) (List.mem_of_head? hhead)

theorem IsReceiver.head_ne {r : String} (h : IsReceiver r) : r.toList.head? ≠ some '(' := by
  cases h with
  | name n hn => exact head_ne_of_isWordText hn
  | qualified p n hp hn =>
    have hhead := head_ne_of_isWordText hp
    cases hlist : p.toList with
    | nil => simp [hlist]
    | cons c cs => simpa [hlist] using hhead
  | pointer r hr => simp

/-! ## Receivers -/

/-- The receiver that a type stands for, if there is one, is written as receivers are. -/
def Receives (type : TypeExpr) : Prop := ∀ r ∈ receiverOf type, IsReceiver r.type

theorem receives_of_none {type : TypeExpr} (h : receiverOf type = none) : Receives type := by
  simp [Receives, h]

theorem receives_base {type : TypeExpr} (h : IsBase type) : Receives type := by
  cases h with
  | name n hn =>
    intro r hr
    cases hr
    exact .name n (isWordText_of_isTypeName hn)
  | qualified p n hp hn => exact receives_of_none rfl

/-- Type arguments are left out of a receiver's name. -/
theorem receives_generic {type : TypeExpr} (h : IsBase type) (args : List (TypeArg TypeExpr)) :
    Receives (.generic type args) := by
  intro r hr
  cases h with
  | name n hn =>
    cases hr
    exact .name n (isWordText_of_isTypeName hn)
  | qualified p n hp hn =>
    cases hr
    exact .qualified p n (isWordText_of_isTypeName hp) hn

/-- A pointer adds its mark in front of the receiver's name and nothing else. -/
theorem receives_pointer {type : TypeExpr} (h : Receives type) : Receives (.pointer type) := by
  intro r hr
  obtain ⟨r', hr', rfl⟩ := Option.map_eq_some_iff.1 hr
  exact .pointer r'.type (h r' hr')

theorem receives_asRead : HoldsAsRead Receives where
  base _ h := receives_base h
  generic _ args h := receives_generic h args
  pointer _ h := receives_pointer h
  paren _ h := h
  slice _ := receives_of_none rfl
  array _ _ _ := receives_of_none rfl
  map _ _ := receives_of_none rfl
  chan _ _ := receives_of_none rfl
  func _ := receives_of_none rfl
  struct _ := receives_of_none rfl
  interface _ := receives_of_none rfl
  tilde _ := receives_of_none rfl

/-- Every type that is read, at any depth, names a receiver of this form if it names one at all. -/
theorem receives_innerReaders (depth : Nat) (l : Layout) : Reads 1 Receives ((innerReaders depth).type l) := by
  induction depth generalizing l with
  | zero => exact .fail
  | succ depth ih => exact reads_readType (innerReaders_sound depth) receives_asRead ih l

/-! ## Declarations -/

/-- The names that a declaration introduces are words, and its receiver is written as receivers are. -/
def Decl.Named : Decl → Prop
  | .imports _ => True
  | .func name _ => isWordText name = true
  | .method receiver? name _ => isWordText name = true ∧ ∀ r ∈ receiver?, IsReceiver r.type
  | .types list => ∀ d ∈ list, isWordText d.name = true
  | .consts specs => ∀ spec ∈ specs, ∀ name ∈ spec.names, isWordText name = true
  | .vars specs => ∀ spec ∈ specs, ∀ name ∈ spec.names, isWordText name = true

/-- The names that a source declares are words, and its receivers are written as receivers are. -/
theorem ofSource_named (source : String) : ∀ d ∈ (File.ofSource source).decls, d.Named := by
  refine ofSource_all (fun depth => ?_) source
  have hinner := innerReaders_sound depth
  have hfunc : Reads 1 Decl.Named (readFunc (innerReaders depth)) := by
    refine reads_readFunc hinner (receives_innerReaders depth .free) receives_asRead.slice
      (fun _ _ hname _ => hname) fun receiver? name _ hname hreceiver => ⟨hname, fun r hr => ?_⟩
    obtain ⟨type, htype, hof⟩ := hreceiver r hr
    exact htype r hof
  exact reads_readDecl hfunc (reads_readTypeDecl hinner) (reads_readValueSpec hinner) (fun _ => trivial)
    (fun _ hlist => hlist) (fun _ hspecs spec hspec => (hspecs spec hspec).1)
    fun _ hspecs spec hspec => (hspecs spec hspec).1

end GoApi.Source
