import GoApi.Proofs.Source.Token
import GoApi.Proofs.Text.Gives

/-!
# Types as they are read

What a reader gives has a root that its tokens account for: a plain name is a word that starts no type
of its own, and the length of an array starts with a character that cannot close the bracket
(`TypeExpr.Rooted`).  The readers for nested types and expressions are assumed to be of this kind
(`Inner.Sound`); the module on files ties the knot.  Any statement about types that has a rule for each
form is carried along in the same way:

    HoldsAsRead good → (∀ l, Reads 1 good (inner.type l)) → Reads 1 good (readType inner l)
-/

namespace GoApi.Source

open Text.Reading Reader

/-! ## Roots -/

/-- A word that can name a type: it starts no type of its own. -/
def isTypeName (s : String) : Bool := isWordText s && !typeWords.contains s

/-- The root of a type as it is written: names and lengths are those of tokens, and alternatives stand
only where a constraint is due. -/
def TypeExpr.Rooted : TypeExpr → Prop
  | .name n => isTypeName n = true
  | .generic base _ => base.Rooted
  | .paren inner => inner.Rooted
  | .array len _ => startsLength len.toList = true
  | .terms _ => False
  | _ => True

/-- A name that type arguments may follow. -/
inductive IsBase : TypeExpr → Prop
  | name (n : String) : isTypeName n = true → IsBase (.name n)
  | qualified (p n : String) : isTypeName p = true → isWordText n = true → IsBase (.qualified p n)

/-- What holds of every type as it is read: there is a rule for each form. -/
structure HoldsAsRead (good : TypeExpr → Prop) : Prop where
  base : ∀ type, IsBase type → good type
  generic : ∀ type args, IsBase type → good (.generic type args)
  pointer : ∀ type, good type → good (.pointer type)
  paren : ∀ type, good type → good (.paren type)
  slice : ∀ type, good (.slice type)
  array : ∀ len type, startsLength len.toList = true → good (.array len type)
  map : ∀ key value, good (.map key value)
  chan : ∀ dir type, good (.chan dir type)
  func : ∀ sig, good (.func sig)
  struct : ∀ fields, good (.struct fields)
  interface : ∀ elements, good (.interface elements)
  tilde : ∀ type, good (.tilde type)

/-- A name, bare or qualified, is its own root. -/
theorem IsBase.rooted {type : TypeExpr} (h : IsBase type) : type.Rooted := by
  cases h with
  | name n hn => exact hn
  | qualified p n hp hn => trivial

theorem rooted_asRead : HoldsAsRead TypeExpr.Rooted where
  base _ h := h.rooted
  generic _ _ h := h.rooted
  pointer _ _ := trivial
  paren _ h := h
  slice _ := trivial
  array _ _ h := h
  map _ _ := trivial
  chan _ _ := trivial
  func _ := trivial
  struct _ := trivial
  interface _ := trivial
  tilde _ := trivial

/-- The results of a signature have roots. -/
def RootedResults (sig : Signature TypeExpr) : Prop := ∀ r ∈ sig.results, r.type.Rooted

/-- What the type of an initializer depends on has roots. -/
def Expr.Rooted : Expr → Prop
  | .paren inner => inner.Rooted
  | .unary _ operand => operand.Rooted
  | .binary _ left right => left.Rooted ∧ right.Rooted
  | .call callee first? => isTypeName callee = true ∧ ∀ type ∈ first?, type.Rooted
  | .ofType type => type.Rooted
  | _ => True

/-! ## Texts of tokens -/

theorem startsLength_append {text : List Char} (h : startsLength text = true) (more : List Char) :
    startsLength (text ++ more) = true := by
  cases text with
  | nil => cases h
  | cons c cs => exact h

/-- A stretch of tokens starts like its first token. -/
theorem startsLength_spelling {t : Token} (h : startsLength t.text.toList = true) (more : List Token) :
    startsLength (spelling (t :: more)).toList = true := by
  have hfold : ∀ (ts : List Token) (text : String), startsLength text.toList = true →
      startsLength (ts.foldl (fun text t => text ++ t.lead ++ t.text) text).toList = true := by
    intro ts
    induction ts with
    | nil => exact fun text htext => htext
    | cons u us ih =>
      intro text htext
      refine ih _ ?_
      rw [String.toList_append, String.toList_append, List.append_assoc]
      exact startsLength_append htext _
  exact hfold more t.text h

/-- Taking blanks out of an array's length leaves its first character where it is. -/
theorem startsLength_compact {text : String} (h : startsLength text.toList = true) :
    startsLength (compact text).toList = true := by
  unfold compact
  rw [String.toList_ofList]
  cases htext : text.toList with
  | nil =>
    rw [htext] at h
    cases h
  | cons c cs =>
    rw [htext] at h
    have hblank : Text.isBlank c = false := by
      simp only [startsLength, List.head?_cons, Option.any_some, Bool.and_eq_true, Bool.not_eq_true'] at h
      exact h.1
    rw [List.filter_cons_of_pos (by simp [hblank])]
    exact h

/-! ## Readers of tokens -/

/-- On sound tokens, a reader gives something `good` and takes `n` tokens at least. -/
abbrev Reads {α : Type} (n : Nat) (good : α → Prop) (p : Reader α) : Prop :=
  Gives Token.Sound n good p

variable {α : Type} {n m : Nat} {good : α → Prop}

theorem reads_mark (text : String) : Reads 1 (fun _ => True) (mark text) :=
  (Gives.take _).bind fun _ _ => .pure trivial

theorem reads_keyword (text : String) : Reads 1 (fun _ => True) (keyword text) :=
  (Gives.take _).bind fun _ _ => .pure trivial

theorem reads_word : Reads 1 (fun s => isWordText s = true) word := by
  refine (Gives.take _).bind fun t ⟨hsound, htest⟩ => .pure (hsound.word ?_)
  simpa using htest

theorem reads_plainWord : Reads 1 (fun s => isTypeName s = true) plainWord := by
  refine (Gives.take _).bind fun t ⟨hsound, htest⟩ => .pure ?_
  simp only [Bool.and_eq_true, beq_iff_eq] at htest
  rw [isTypeName, Bool.and_eq_true]
  exact ⟨hsound.word htest.1, htest.2⟩

theorem reads_joined (l : Layout) : Reads 0 (fun _ => True) (joined l) := .check _

theorem reads_joinedMark (l : Layout) (text : String) : Reads 1 (fun _ => True) (joinedMark l text) :=
  (reads_joined l).after fun _ _ => reads_mark text

/-- A list with commas needs the tokens of its first item at least, and each of its items is good.
-/
theorem reads_commas {p : Reader α} (l : Layout) (hp : Reads n good p) :
    Reads n (fun xs => ∀ x ∈ xs, good x) (commas l p) :=
  .separated (reads_joinedMark l ",") hp

theorem reads_spanned {p : Reader α} (hp : Reads n good p) : Reads n (fun x => good x.1) (spanned p) := by
  intro ts x rest hok h
  unfold spanned at h
  split at h
  · next y rest' hread =>
    cases h
    exact hp hok hread
  · cases h

/-- Skipping to the closing bracket drops tokens from the front only. -/
theorem afterClosing_suffix {opening closing : String} {depth : Nat} {ts rest : List Token}
    (h : afterClosing opening closing depth ts = some rest) : ∃ taken, ts = taken ++ rest := by
  induction ts generalizing depth with
  | nil => cases h
  | cons t ts ih =>
    have hcons : ∀ taken, ts = taken ++ rest → ∃ taken, t :: ts = taken ++ rest := by
      rintro taken rfl
      exact ⟨t :: taken, rfl⟩
    unfold afterClosing at h
    split at h
    · obtain ⟨taken, htaken⟩ := ih h
      exact hcons taken htaken
    · split at h
      · split at h
        · cases h
          exact ⟨[t], rfl⟩
        · obtain ⟨taken, htaken⟩ := ih h
          exact hcons taken htaken
      · obtain ⟨taken, htaken⟩ := ih h
        exact hcons taken htaken

theorem reads_bracket (opening closing : String) : Reads 1 (fun _ => True) (bracket opening closing) := by
  refine (reads_mark opening).bind fun _ _ ts x rest _ h => ?_
  obtain ⟨after, hafter, heq⟩ := Option.map_eq_some_iff.1 h
  cases heq
  obtain ⟨taken, htaken⟩ := afterClosing_suffix hafter
  exact ⟨trivial, taken, htaken, Nat.zero_le _⟩

theorem reads_block : Reads 1 (fun _ => True) block := reads_bracket _ _

theorem reads_atEnd : Reads 0 (fun _ => True) atEnd := by
  intro ts x rest _ h
  unfold atEnd at h
  split at h <;> cases h <;> exact ⟨trivial, [], rfl, Nat.le_refl 0⟩

theorem reads_ending : Reads 0 (fun _ => True) ending := by
  refine reads_atEnd.bind fun atEnd _ => ?_
  cases atEnd with
  | true => exact .pure trivial
  | false => exact .fail

theorem reads_terminator : Reads 0 (fun _ => True) terminator := by
  refine (reads_mark ";").took.bind fun taken _ => ?_
  cases taken with
  | true => exact .pure trivial
  | false => exact reads_ending

theorem reads_terminated {p : Reader α} (hp : Reads n (fun _ => True) p) :
    Reads n (fun _ => True) (do let x ← p; terminator; return x) :=
  hp.bind fun _ _ => reads_terminator.bind fun _ _ => .pure trivial

/-! ## Types -/

theorem reads_readTag : Reads 1 (fun _ => True) readTag := by
  refine (reads_joined .lines).after fun _ _ => ?_
  exact (Gives.take _).bind fun _ _ => .pure trivial

/-- Readers for what stands deeper inside give types and expressions with roots; an expression has a
token, and that is no closing square bracket. -/
structure Inner.Sound (inner : Inner) : Prop where
  type : ∀ l, Reads 1 TypeExpr.Rooted (inner.type l)
  expr : ∀ l, Reads 1 Expr.Rooted (inner.expr l)
  operand : ∀ l, Reads 1 Expr.Rooted (inner.operand l)
  closing : ∀ l t rest, isMark "]" t = true → inner.expr l (t :: rest) = none

section

variable {inner : Inner} (hinner : inner.Sound)

include hinner

/-- Each alternative of a union is read as a type of its own. -/
theorem reads_readTerms (l : Layout) :
    Reads 1 (fun terms => ∀ type ∈ terms, type.Rooted) (readTerms inner l) :=
  .separated (reads_joinedMark l "|") (hinner.type l)

theorem reads_readTypeArgs : Reads 1 (fun _ => True) (readTypeArgs inner) := by
  refine (reads_mark "[").bind fun _ _ => ?_
  refine (reads_commas .free (?_ : Reads 1 (fun _ => True) _)).loose.bind fun _ _ => ?_
  · exact (reads_spanned (reads_readTerms hinner .free)).bind fun _ _ => .pure trivial
  refine (reads_mark ",").maybe.bind fun _ _ => ?_
  exact (reads_mark "]").loose.bind fun _ _ => .pure trivial

/-- A name stands alone, or has type arguments after it. -/
theorem reads_readNamed {good : TypeExpr → Prop} (hgood : HoldsAsRead good) (l : Layout) :
    Reads 1 good (readNamed inner l) := by
  have hmember : Reads 1 (fun s => isWordText s = true) (do joinedMark l "."; word) :=
    (reads_joinedMark l ".").bind fun _ _ => reads_word.loose
  have hargs : Reads 1 (fun _ => True) (do joined l; readTypeArgs inner) :=
    (reads_joined l).after fun _ _ => reads_readTypeArgs hinner
  have hpure : ∀ type : TypeExpr, IsBase type → Reads 0 IsBase (pure type) := fun _ => .pure
  refine reads_plainWord.bind fun first hfirst => ?_
  refine hmember.maybe.bind fun member? hmember => ?_
  cases member? with
  | some name =>
    have hqualified : IsBase (.qualified first name) := .qualified first name hfirst (hmember name rfl)
    refine (hpure _ hqualified).bind fun base hbase => ?_
    refine hargs.maybe.bind fun args? _ => ?_
    cases args? with
    | some args => exact .pure (hgood.generic base args hbase)
    | none => exact .pure (hgood.base base hbase)
  | none =>
    refine (hpure _ (.name first hfirst)).bind fun base hbase => ?_
    refine hargs.maybe.bind fun args? _ => ?_
    cases args? with
    | some args => exact .pure (hgood.generic base args hbase)
    | none => exact .pure (hgood.base base hbase)

omit hinner in
/-- The types of the parameters that an entry declares, if all types are `good`. -/
theorem reads_readParam {good : TypeExpr → Prop} (htype : Reads 1 good (inner.type .free))
    (hslice : ∀ type, good (.slice type)) :
    Reads 1 (fun entry => ∀ p ∈ entry.1, good p.type) (readParam inner) := by
  have hmore : Reads 1 (fun s => isWordText s = true) (do mark ","; word) :=
    (reads_mark ",").bind fun _ _ => reads_word.loose
  refine .orElse ?_ (.orElse ?_ ?_)
  · refine reads_plainWord.maybe.after fun _ _ => ?_
    refine (reads_mark "...").bind fun _ _ => ?_
    refine htype.loose.bind fun type _ => .pure ?_
    simpa using hslice type
  · refine reads_plainWord.bind fun first _ => ?_
    refine hmore.many.bind fun more _ => ?_
    refine htype.loose.bind fun type htype => ?_
    refine (Gives.check _).bind fun _ _ => .pure ?_
    intro p hp
    obtain ⟨name, -, rfl⟩ := List.mem_map.1 hp
    exact htype
  · refine htype.bind fun type htype => .pure ?_
    simpa using htype

omit hinner in
/-- Good types give good parameters; `...` puts a slice around the type that was read. -/
theorem reads_readEntries {good : TypeExpr → Prop} (htype : Reads 1 good (inner.type .free))
    (hslice : ∀ type, good (.slice type)) :
    Reads 1 (fun entries => ∀ entry ∈ entries, ∀ p ∈ entry.1, good p.type) (readEntries inner) := by
  refine (reads_mark "(").bind fun _ _ => ?_
  refine (reads_commas .free (reads_readParam htype hslice)).maybe.bind fun entries? hentries => ?_
  have hend : Reads 0 (fun entries => ∀ entry ∈ entries, ∀ p ∈ entry.1, good p.type) (do
      mark ")"
      return entries?.getD []) := by
    refine (reads_mark ")").loose.bind fun _ _ => .pure ?_
    cases entries? with
    | some entries => exact hentries entries rfl
    | none => simp
  cases entries? with
  | some entries => exact (reads_mark ",").maybe.bind fun _ _ => hend
  | none => exact hend

theorem reads_readParams :
    Reads 1 (fun params => ∀ p ∈ params.1, p.type.Rooted) (readParams inner) := by
  refine (reads_readEntries (hinner.type .free) fun _ => trivial).bind fun entries hentries => .pure ?_
  intro p hp
  obtain ⟨entry, hentry, hp⟩ := List.mem_flatMap.1 hp
  exact hentries entry hentry p hp

/-- The results of a signature are rooted, whether in parentheses or a type that stands alone. -/
theorem reads_readSignature (l : Layout) : Reads 1 RootedResults (readSignature inner l) := by
  have hresults : Reads 1 (fun results : List (Param TypeExpr) => ∀ r ∈ results, r.type.Rooted) (do
      joined l
      (do return (← readParams inner).1) <|> (do return [⟨"", ← inner.type l⟩])) := by
    refine (reads_joined l).after fun _ _ => .orElse ?_ ?_
    · exact (reads_readParams hinner).bind fun results hall => .pure hall
    · exact (hinner.type l).bind fun type htype => .pure (by simpa using htype)
  refine (reads_readParams hinner).bind fun params _ => ?_
  refine hresults.maybe.bind fun results? hall => .pure ?_
  cases results? with
  | some results => exact hall results rfl
  | none => simp [RootedResults]

/-- A channel ends with the type of its elements, whichever way its arrow points. -/
theorem reads_readChan {good : TypeExpr → Prop} (hgood : HoldsAsRead good) (l : Layout) :
    Reads 1 good (readChan inner l) := by
  refine Gives.peek.after fun t? _ => ?_
  cases t? with
  | none => exact .fail
  | some t =>
    have helem : ∀ dir, Reads 1 good (do return TypeExpr.chan dir (← inner.type l)) :=
      fun dir => (hinner.type l).bind fun type _ => .pure (hgood.chan dir type)
    dsimp only
    split
    · refine (Gives.look _).after fun arrow _ => ?_
      cases arrow with
      | true => exact (reads_mark "<-").bind fun _ _ => (helem _).loose
      | false => exact helem _
    · exact helem _

theorem reads_readField : Reads 1 (fun _ => True) (readField inner) := by
  refine reads_terminated (.orElse ?_ (.orElse ?_ ?_))
  · refine (reads_mark "*").bind fun _ _ => ?_
    refine (reads_readNamed hinner rooted_asRead .lines).loose.bind fun _ _ => ?_
    exact reads_readTag.maybe.bind fun _ _ => .pure trivial
  · refine (reads_readNamed hinner rooted_asRead .lines).bind fun _ _ => ?_
    refine reads_readTag.maybe.bind fun _ _ => ?_
    exact reads_ending.bind fun _ _ => .pure trivial
  · refine (reads_commas .free reads_word).bind fun _ _ => ?_
    refine (hinner.type .lines).loose.bind fun _ _ => ?_
    exact reads_readTag.maybe.bind fun _ _ => .pure trivial

theorem reads_readStruct {good : TypeExpr → Prop} (hgood : HoldsAsRead good) :
    Reads 1 good (readStruct inner) := by
  refine (reads_mark "\x7b").bind fun _ _ => ?_
  refine (reads_readField hinner).many.bind fun _ _ => ?_
  exact (reads_mark "\x7d").loose.bind fun _ _ => .pure (hgood.struct _)

theorem reads_readElement : Reads 1 (fun _ => True) (readElement inner) := by
  refine reads_terminated (.orElse ?_ ?_)
  · refine reads_word.bind fun _ _ => ?_
    refine (reads_joined .lines).bind fun _ _ => ?_
    exact (reads_readSignature hinner .lines).loose.bind fun _ _ => .pure trivial
  · exact (reads_readTerms hinner .lines).bind fun _ _ => .pure trivial

theorem reads_readInterface {good : TypeExpr → Prop} (hgood : HoldsAsRead good) :
    Reads 1 good (readInterface inner) := by
  refine (reads_mark "\x7b").bind fun _ _ => ?_
  refine (reads_readElement hinner).many.bind fun _ _ => ?_
  exact (reads_mark "\x7d").loose.bind fun _ _ => .pure (hgood.interface _)

/-- The text of an expression starts like its first token, which does not close the bracket. -/
theorem reads_length (l : Layout) :
    Reads 1 (fun x => startsLength (compact x.2).toList = true) (spanned (inner.expr l)) := by
  intro ts x rest hok h
  unfold spanned at h
  split at h
  · next e rest' hread =>
    cases h
    obtain ⟨-, taken, rfl, hn⟩ := hinner.expr l hok hread
    refine ⟨?_, taken, rfl, hn⟩
    cases taken with
    | nil => cases hn
    | cons t more =>
      have hfirst : startsLength t.text.toList = true := by
        refine (hok t (List.mem_cons_self ..)).first.resolve_left fun hclosing => ?_
        rw [List.cons_append, hinner.closing l t _ hclosing] at hread
        cases hread
      rw [List.length_append, Nat.add_sub_cancel, List.take_left]
      exact startsLength_compact (startsLength_spelling hfirst more)
  · cases h

/-- What stands after `[` decides between a slice and an array, and both read their element last. -/
theorem reads_readSequence {good : TypeExpr → Prop} (hgood : HoldsAsRead good) (l : Layout) :
    Reads 1 good (readSequence inner l) := by
  refine .orElse ?_ ?_
  · refine (reads_mark "]").bind fun _ _ => ?_
    exact (hinner.type l).loose.bind fun type _ => .pure (hgood.slice type)
  · refine (reads_length hinner .free).bind fun len hlen => ?_
    refine (reads_mark "]").loose.bind fun _ _ => ?_
    exact (hinner.type l).loose.bind fun type _ => .pure (hgood.array _ type hlen)

theorem reads_readMap {good : TypeExpr → Prop} (hgood : HoldsAsRead good) (l : Layout) :
    Reads 1 good (readMap inner l) := by
  refine (reads_mark "[").bind fun _ _ => ?_
  refine (hinner.type .free).loose.bind fun key _ => ?_
  refine (reads_mark "]").loose.bind fun _ _ => ?_
  exact (hinner.type l).loose.bind fun value _ => .pure (hgood.map key value)

/-- What holds as types are read holds of what is read here, if it does deeper inside. -/
theorem reads_readType {good : TypeExpr → Prop} (hgood : HoldsAsRead good)
    (htype : ∀ l, Reads 1 good (inner.type l)) (l : Layout) : Reads 1 good (readType inner l) := by
  have hinside := (htype l).loose
  refine Gives.peek.after fun t? _ => ?_
  cases t? with
  | none => exact .fail
  | some t =>
    dsimp only
    split
    · exact (reads_keyword "chan").bind fun _ _ => (reads_readChan hinner hgood l).loose
    · exact (reads_keyword "map").bind fun _ _ => (reads_readMap hinner hgood l).loose
    · refine (reads_keyword "func").bind fun _ _ => ?_
      exact (reads_readSignature hinner l).loose.bind fun sig _ => .pure (hgood.func sig)
    · exact (reads_keyword "struct").bind fun _ _ => (reads_readStruct hinner hgood).loose
    · exact (reads_keyword "interface").bind fun _ _ => (reads_readInterface hinner hgood).loose
    · exact reads_readNamed hinner hgood l
    · exact (reads_mark "*").bind fun _ _ => hinside.bind fun type h => .pure (hgood.pointer type h)
    · exact (reads_mark "~").bind fun _ _ => hinside.bind fun type _ => .pure (hgood.tilde type)
    · exact (reads_mark "[").bind fun _ _ => (reads_readSequence hinner hgood l).loose
    · refine (reads_mark "<-").bind fun _ _ => ?_
      refine (reads_keyword "chan").loose.bind fun _ _ => ?_
      exact hinside.bind fun type _ => .pure (hgood.chan .recv type)
    · refine (reads_mark "(").bind fun _ _ => ?_
      refine (htype .free).loose.bind fun type h => ?_
      exact (reads_mark ")").loose.bind fun _ _ => .pure (hgood.paren type h)
    · exact .fail

theorem reads_readBinders : Reads 1 (fun _ => True) (readBinders inner) := by
  have hgroup : Reads 1 (fun _ => True) (do
      let names ← commas .free word
      let constraint ← readTerms inner .free
      return names.map (Binder.mk · (TypeExpr.terms constraint))) := by
    refine (reads_commas .free reads_word).bind fun _ _ => ?_
    exact (reads_readTerms hinner .free).loose.bind fun _ _ => .pure trivial
  refine (reads_mark "[").bind fun _ _ => ?_
  refine (reads_commas .free hgroup).loose.bind fun _ _ => ?_
  refine (reads_mark ",").maybe.bind fun _ _ => ?_
  exact (reads_mark "]").loose.bind fun _ _ => .pure trivial

end

end GoApi.Source
