import GoApi.Policy
import GoApi.Ty.Spelling

/-!
# Comparing two descriptors

`Ty.delta` decides whether replacing one declared type by another is invisible, compatible for
existing callers, or breaking.  Widening is granted only at the top of a declaration (struct fields
added, interface methods added); whatever is nested inside another type is compared by identity.

The comparison produces notes, and the delta is their summary: no note means identical, and one
breaking note makes the whole change breaking.
-/

namespace GoApi

/-- One finding about a changed type. -/
structure Note where
  compatible : Bool
  text : String
  deriving DecidableEq, Repr

/-- A finding that existing callers do not notice. -/
def Note.ok (text : String) : Note := ⟨true, text⟩

/-- A finding that breaks existing callers. -/
def Note.breaking (text : String) : Note := ⟨false, text⟩

/-- The verdict on replacing one type by another, with its reason. -/
inductive Delta where
  | identical
  | compatible (reason : String)
  | incompatible (reason : String)
  deriving DecidableEq, Repr

namespace Delta

/-- The verdict of a list of findings: one breaking finding is enough to break. -/
def ofNotes : List Note → Delta
  | [] => .identical
  | notes =>
    let reason := Text.join "; " (notes.map (·.text))
    if notes.all (·.compatible) then .compatible reason else .incompatible reason

def isIdentical : Delta → Bool
  | .identical => true
  | _ => false

/-- Whether existing callers keep compiling. -/
def isCompatible : Delta → Bool
  | .incompatible _ => false
  | _ => true

/-- What was found, if anything. -/
def reason? : Delta → Option String
  | .identical => none
  | .compatible r => some r
  | .incompatible r => some r

end Delta

/-- `changed from A to B`. -/
def changedText (old new : String) : String :=
  "changed from " ++ old ++ " to " ++ new

/-! ## Findings by kind of type -/

/-- Kinds whose full text is too long for a message about a change of kind. -/
def Ty.Kind.isBulky : Ty.Kind → Bool
  | .struct => true
  | .interface => true
  | .defined => true
  | _ => false

/-- The finding that a type is of another kind now. -/
def kindNote (old new : Ty) : Note :=
  if old.kind.isBulky || new.kind.isBulky then
    .breaking (changedText old.kind.word new.kind.word)
  else .breaking (changedText old.display new.display)

def structNotes (policy : Policy) (old new : List (Field Ty)) : List Note :=
  let kept := (exportedFields old).flatMap fun f =>
    match fieldNamed new f.name with
    | none => [Note.breaking ("field " ++ f.name ++ " removed")]
    | some g =>
      (if f.type.identical g.type then []
        else [.breaking ("field " ++ f.name ++ " " ++ changedText f.type.display g.type.display)])
      ++ match f.embedded, g.embedded with
        | true, false => [.breaking ("field " ++ f.name ++ " no longer embedded")]
        | false, true => [.ok ("field " ++ f.name ++ " now embedded")]
        | _, _ => []
  let added := (exportedFields new).filterMap fun f =>
    match fieldNamed old f.name with
    | none => some (Note.ok ("field " ++ f.name ++ " added"))
    | some _ => none
  let common (these those : List (Field Ty)) : List String :=
    ((exportedFields these).filter fun f => (fieldNamed those f.name).isSome).map (·.name)
  let order :=
    if common old new = common new old then []
    else [Note.mk (policy.fieldOrder = .keyed) "fields reordered"]
  kept ++ added ++ order

def Signature.identical (a b : Signature Ty) : Bool :=
  a.canonical == b.canonical

def interfaceNotes (policy : Policy) (old new : Interface Ty) : List Note :=
  let additionsOk : Bool := policy.interfaceAdditions = .consumed
  let kept := (sortBy (·.name) old.methods).filterMap fun m =>
    match new.method? m.name with
    | none => some (Note.breaking ("method " ++ m.name ++ " removed"))
    | some n =>
      if m.sig.identical n.sig then none
      else some (.breaking ("method " ++ m.name ++ " " ++ changedText m.sig.display n.sig.display))
  let added := (sortBy (·.name) new.methods).filterMap fun m =>
    match old.method? m.name with
    | none => some (Note.mk additionsOk ("method " ++ m.name ++ " added"))
    | some _ => none
  let missing (those : List Ty) (t : Ty) : Bool := !those.any (t.identical ·)
  let dropped := (old.embedded.filter (missing new.embedded)).map fun t =>
    Note.breaking ("embedded " ++ t.display ++ " removed")
  let gained := (new.embedded.filter (missing old.embedded)).map fun t =>
    Note.mk additionsOk ("embedded " ++ t.display ++ " added")
  kept ++ added ++ dropped ++ gained

/-- Findings about a signature: call sites are positional, so any difference breaks. -/
def signatureNotes (old new : Signature Ty) : List Note :=
  if old.identical new then [] else [.breaking (changedText old.display new.display)]

def aliasNotes : Bool → Bool → List Note
  | false, true => [.breaking "changed from defined type to alias"]
  | true, false => [.breaking "changed from alias to defined type"]
  | _, _ => []

/-- Type parameters as a message shows them. -/
def bindersText (bs : List (Binder Ty)) : String :=
  Text.join ", " (bs.map fun b => b.name ++ " " ++ b.constraint.display)

/-- How to spell the new side with the old side's parameter names: parameters are matched by
position, and lists of different length are not matched at all. -/
def binderRenaming (old new : List (Binder Ty)) : List (String × String) :=
  if old.length = new.length then (binderNames new).zip (binderNames old) else []

def binderNotes (old new : List (Binder Ty)) : List Note :=
  let pairs := binderRenaming old new
  let same := old.length = new.length ∧
    (old.zip new).all fun (o, n) => o.constraint.identical (n.constraint.renameFree pairs)
  if same then []
  else [.breaking
    ("type parameters changed from [" ++ bindersText old ++ "] to [" ++ bindersText new ++ "]")]

/-- All findings about replacing `old` by `new`. -/
def Ty.notes (policy : Policy) (old new : Ty) : List Note :=
  if old.identical new then []
  else
    match old, new with
    | .defined _ bs a u, .defined _ bs' a' u' =>
      aliasNotes a a' ++ binderNotes bs bs' ++ u.notes policy (u'.renameFree (binderRenaming bs bs'))
    | .struct fs, .struct gs => structNotes policy fs gs
    | .interface a, .interface b => interfaceNotes policy a b
    | .func g, .func h => signatureNotes g h
    | .defined .., _ => [kindNote old new]
    | .struct _, _ => [kindNote old new]
    | .interface _, _ => [kindNote old new]
    | .func _, _ => [kindNote old new]
    | _, _ => [.breaking (changedText old.display new.display)]

/-- The verdict on replacing `old` by `new`. -/
def Ty.delta (policy : Policy) (old new : Ty) : Delta :=
  .ofNotes (old.notes policy new)

end GoApi
