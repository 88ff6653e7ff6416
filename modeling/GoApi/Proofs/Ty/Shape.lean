import GoApi.Proofs.Text.Unique
import GoApi.Proofs.Ty.Children
import GoApi.Symbol

/-!
# The shape of loaded descriptors

What a package's sources leave in a descriptor: identifiers for names, a length in every array,
embedded fields named after their types, unions only among the elements of an interface and as
constraints, and binders only at the root.

`Ty.Nested param name` is the shape below the root, for type parameters that satisfy `param` and types
of the package that satisfy `name`; `Ty.LoaderShaped` is the shape of a whole descriptor.
-/

namespace GoApi

open Text (isIdentifierStart isIdentifierContinue)

/-! ## Names -/

/-- The keywords of Go. -/
def goKeywords : List String :=
  ["break", "case", "chan", "const", "continue", "default", "defer", "else", "fallthrough", "for",
    "func", "go", "goto", "if", "import", "interface", "map", "package", "range", "return", "select",
    "struct", "switch", "type", "var"]

/-- An identifier of Go that is not a keyword. -/
def isGoName (s : String) : Bool :=
  match s.toList with
  | [] => false
  | c :: cs => isIdentifierStart c && cs.all isIdentifierContinue && !goKeywords.contains s

/-- A character of an identifier, or the dollar sign of a numbered type parameter. -/
def isWordChar (c : Char) : Bool := isIdentifierContinue c || c == '$'

/-- A run of word characters that is not a keyword. -/
structure IsWord (s : String) : Prop where
  ne_nil : s.toList ≠ []
  run : ∀ c ∈ s.toList, isWordChar c = true
  not_keyword : s ∉ goKeywords

theorem isWordChar_of_start (c : Char) (h : isIdentifierStart c = true) : isWordChar c = true := by
  unfold isIdentifierStart at h
  unfold isWordChar isIdentifierContinue
  split at h
  · next hc =>
    simp only [hc, if_true, Char.isAlphanum]
    rcases Bool.or_eq_true_iff.1 h with h | h <;> simp [h]
  · next hc => simp [hc, h]

/-- A name of the language can be told from keywords and marks in a type's text. -/
theorem isWord_of_isGoName {s : String} (h : isGoName s = true) : IsWord s := by
  unfold isGoName at h
  split at h
  · cases h
  · next c cs hs =>
    simp only [Bool.and_eq_true, List.all_eq_true, Bool.not_eq_true', List.contains_eq_mem,
      decide_eq_false_iff_not] at h
    obtain ⟨⟨hc, hcs⟩, hk⟩ := h
    refine ⟨by simp [hs], ?_, hk⟩
    intro d hd
    rw [hs] at hd
    rcases List.mem_cons.1 hd with rfl | hd
    · exact isWordChar_of_start d hc
    · simp [isWordChar, hcs d hd]

/-- The spelling of a numbered type parameter. -/
def IsNumbered (s : String) : Prop := ∃ k : Nat, s = "$" ++ toString k

/-- The spelling that numbering gives to a bound parameter: a dollar sign and a decimal number. -/
theorem toList_numbered (k : Nat) : ("$" ++ toString k).toList = '$' :: Nat.toDigits 10 k := by
  simp

theorem keyword_head_all : ∀ k ∈ goKeywords, k.toList.head? ≠ some '$' := by
  decide

/-- So can a numbered parameter: no keyword begins with a dollar sign. -/
theorem isWord_of_isNumbered {s : String} (h : IsNumbered s) : IsWord s := by
  obtain ⟨k, rfl⟩ := h
  refine ⟨by simp, ?_, ?_⟩
  · intro c hc
    rw [toList_numbered] at hc
    rcases List.mem_cons.1 hc with rfl | hc
    · decide
    · have hd := Nat.isDigit_of_mem_toDigits (by omega) (by omega) hc
      have hlt : c.toNat < 128 := by
        simp only [Char.isDigit, Bool.and_eq_true, decide_eq_true_eq] at hd
        have := hd.2
        simp only [UInt32.le_iff_toNat_le] at this
        show c.val.toNat < 128
        have h9 : '9'.val.toNat = 57 := rfl
        omega
      simp [isWordChar, isIdentifierContinue, hlt, Char.isAlphanum, hd]
  · intro hk
    exact keyword_head_all _ hk (by simp)

/-- A numbered parameter is never mistaken for a declared name. -/
theorem not_isGoName_of_isNumbered {s : String} (h : IsNumbered s) : isGoName s = false := by
  obtain ⟨k, rfl⟩ := h
  unfold isGoName
  rw [toList_numbered]
  have hd : isIdentifierStart '$' = false := by decide
  simp [hd]

/-! ## Parts of a descriptor -/

/-- The length of an array is given, and has no bracket. -/
def IsLength (len : String) : Prop := len ≠ "" ∧ '[' ∉ len.toList ∧ ']' ∉ len.toList

/-- The name of a named or basic type. -/
def Ty.plainName? : Ty → Option String
  | .basic n => some n
  | .named _ n _ => some n
  | _ => none

/-- The name under which a type can be embedded in a struct: that of a named or basic type, or of
one behind a pointer. -/
def Ty.embeddedAs? : Ty → Option String
  | .pointer e => e.plainName?
  | t => t.plainName?

/-- A field has an identifier for a name, which decides whether it is exported and, if the field is
embedded, is the name of its type. -/
structure FieldShaped (f : Field Ty) : Prop where
  name : isGoName f.name = true
  exported : f.exported = isExported f.name
  embedded : f.embedded = true → f.type.embeddedAs? = some f.name

/-- The last parameter is a slice. -/
def EndsInSlice (ps : List (Param Ty)) : Prop := ∃ p ∈ ps.getLast?, ∃ e, p.type = .slice e

/-- A union has two terms at least, or one that admits an underlying type. -/
def IsProperUnion (ts : List (Term Ty)) : Prop := 2 ≤ ts.length ∨ ∃ t, ts = [t] ∧ t.tilde = true

section

variable (param name : String → Prop)

mutual

/-- The shape of a descriptor below the root. -/
inductive Ty.Nested : Ty → Prop
  | basic {n : String} (hn : isGoName n = true) (hf : name n) : Nested (.basic n)
  | localNamed {n : String} {args : List Ty} (hn : isGoName n = true) (hf : name n)
      (hargs : ∀ t ∈ args, Nested t) : Nested (.named none n args)
  | qualified {p n : String} {args : List Ty} (hn : isGoName n = true)
      (hargs : ∀ t ∈ args, Nested t) : Nested (.named (some p) n args)
  | typeParam {n : String} (hp : param n) : Nested (.typeParam n)
  | pointer {e : Ty} (he : Nested e) : Nested (.pointer e)
  | slice {e : Ty} (he : Nested e) : Nested (.slice e)
  | array {l : String} {e : Ty} (hl : IsLength l) (he : Nested e) : Nested (.array l e)
  | map {k v : Ty} (hk : Nested k) (hv : Nested v) : Nested (.map k v)
  | chan {d : ChanDir} {e : Ty} (he : Nested e) : Nested (.chan d e)
  | struct {fs : List (Field Ty)} (hfs : ∀ f ∈ fs, FieldShaped f) (hts : ∀ f ∈ fs, Nested f.type) :
      Nested (.struct fs)
  | interface {ms : List (Method Ty)} {es : List Ty} (hms : ∀ m ∈ ms, isGoName m.name = true)
      (hnd : (ms.map (·.name)).Nodup) (hgs : ∀ m ∈ ms, NestedSignature m.sig)
      (hes : ∀ e ∈ es, ConstraintShaped e) : Nested (.interface ⟨ms, es⟩)
  | func {g : Signature Ty} (hg : NestedSignature g) : Nested (.func g)

/-- The shape of a signature below the root: it binds nothing, and if it is variadic its last
parameter is the slice of the rest. -/
inductive Ty.NestedSignature : Signature Ty → Prop
  | mk {ps qs : List (Param Ty)} {v : Bool} (hps : ∀ p ∈ ps, Nested p.type)
      (hqs : ∀ q ∈ qs, Nested q.type) (hv : v = true → EndsInSlice ps) :
      NestedSignature ⟨[], [], ps, qs, v⟩

/-- The shape of an element of an interface and of a constraint: a type or a union of types. -/
inductive Ty.ConstraintShaped : Ty → Prop
  | type {t : Ty} (ht : Nested t) : ConstraintShaped t
  | union {ts : List (Term Ty)} (hts : ∀ t ∈ ts, Nested t.type) (hu : IsProperUnion ts) :
      ConstraintShaped (.union ts)

end

end

/-- The shape of a descriptor: a declaration or a signature that binds type parameters, or a type
without any. -/
inductive Ty.LoaderShaped : Ty → Prop
  | nested {t : Ty} (ht : t.Nested (fun _ => False) (fun _ => True)) : LoaderShaped t
  | func {g : Signature Ty}
      (hbs : ∀ b ∈ g.binders,
        b.constraint.ConstraintShaped (· ∈ g.receiverBinders ++ binderNames g.binders) (fun _ => True))
      (hps : ∀ p ∈ g.params,
        p.type.Nested (· ∈ g.receiverBinders ++ binderNames g.binders) (fun _ => True))
      (hqs : ∀ q ∈ g.results,
        q.type.Nested (· ∈ g.receiverBinders ++ binderNames g.binders) (fun _ => True))
      (hv : g.variadic = true → EndsInSlice g.params) : LoaderShaped (.func g)
  | defined {n : String} {bs : List (Binder Ty)} {a : Bool} {u : Ty} (hn : isGoName n = true)
      (hbs : ∀ b ∈ bs, b.constraint.ConstraintShaped (· ∈ binderNames bs) (fun _ => True))
      (hu : u.Nested (· ∈ binderNames bs) (fun _ => True)) : LoaderShaped (.defined n bs a u)

end GoApi
