import GoApi.Proofs.Order
import GoApi.Proofs.Text.Unique
import GoApi.Proofs.Ty.Children

/-!
# The text of a descriptor

`Ty.text` is the encoding of a descriptor as a list of characters.  Here it is written out for each
constructor, with its lists as joined texts of items: fields, terms, type parameters, parameters
(`paramItems`) and the lines of an interface body (`membersOf`).
-/

namespace GoApi

open Text

/-! ## Texts -/

/-- The characters of a descriptor's encoding. -/
def Ty.text (t : Ty) : List Char := (t.write quote).toList

/-- Type arguments in brackets, or nothing. -/
def argsText (args : List Ty) : List Char :=
  if args = [] then [] else '[' :: (joinText [',', ' '] (args.map Ty.text) ++ [']'])

/-- The text of a field: an embedded one shows its type only. -/
def fieldChars (f : Field Ty) : List Char :=
  if f.embedded then f.type.text else f.name.toList ++ ' ' :: f.type.text

/-- The text of a term. -/
def termChars (t : Term Ty) : List Char :=
  (if t.tilde then ['~'] else []) ++ t.type.text

/-- The text of a declared type parameter. -/
def binderChars (b : Binder Ty) : List Char := b.name.toList ++ ' ' :: b.constraint.text

/-- Declared type parameters in brackets, or nothing. -/
def typeParamsText (bs : List (Binder Ty)) : List Char :=
  if bs = [] then [] else '[' :: (joinText [',', ' '] (bs.map binderChars) ++ [']'])

/-- What is written of each parameter: whether dots stand before it, and its type. -/
def paramItems (variadic : Bool) : List (Param Ty) → List (Bool × Ty)
  | [] => []
  | [⟨_, .slice e⟩] => [if variadic then (true, e) else (false, .slice e)]
  | p :: ps => (false, p.type) :: paramItems variadic ps

/-- The text of a parameter. -/
def itemChars (i : Bool × Ty) : List Char :=
  (if i.1 then ['.', '.', '.'] else []) ++ i.2.text

/-- The text of results. -/
def resultChars : List (Param Ty) → List Char
  | [] => []
  | [q] => ' ' :: q.type.text
  | qs => ' ' :: '(' :: (joinText [',', ' '] (qs.map (·.type.text)) ++ [')'])

/-- The text of a signature without the word `func`. -/
def signatureText (g : Signature Ty) : List Char :=
  typeParamsText g.binders ++ '(' :: (joinText [',', ' '] ((paramItems g.variadic g.params).map itemChars)
    ++ ')' :: resultChars g.results)

/-- A line of an interface body. -/
inductive Member where
  | method (m : Method Ty)
  | element (t : Ty)

/-- The text of a line. -/
def Member.text : Member → List Char
  | .method m => m.name.toList ++ signatureText m.sig
  | .element t => t.text

/-- The lines of an interface body in the order in which they are written. -/
def membersOf (body : Interface Ty) : List Member :=
  (sortBy (·.name) body.methods).map .method ++ (sortBy (·.write quote) body.embedded).map .element

/-- An empty list of arguments is written as nothing, not as a pair of brackets. -/
theorem toList_bracketed {α : Type} (f : α → String) (xs : List α) :
    (bracketed (xs.map f)).toList =
      if xs = [] then [] else '[' :: (joinText [',', ' '] (xs.map fun x => (f x).toList) ++ [']']) := by
  cases xs with
  | nil => rfl
  | cons x xs =>
    have hj := toList_join_map ", " f (x :: xs)
    have hsep : ", ".toList = [',', ' '] := rfl
    rw [hsep] at hj
    rw [if_neg (by simp), ← hj]
    simp [bracketed]

section Equations

theorem text_basic (n : String) : (Ty.basic n).text = n.toList := by
  simp [Ty.text, Ty.write]

theorem text_typeParam (n : String) : (Ty.typeParam n).text = n.toList := by
  simp [Ty.text, Ty.write]

theorem text_local (n : String) (args : List Ty) :
    (Ty.named none n args).text = n.toList ++ argsText args := by
  simp only [Ty.text, Ty.write, String.toList_append, writeList_eq_map, toList_bracketed]
  rfl

/-- The package stands quoted before the name, so that no path runs into it. -/
theorem text_qualified (p n : String) (args : List Ty) :
    (Ty.named (some p) n args).text = (quote p).toList ++ '.' :: (n.toList ++ argsText args) := by
  simp only [Ty.text, Ty.write, String.toList_append, writeList_eq_map, toList_bracketed,
    List.append_assoc]
  rfl

theorem text_pointer (e : Ty) : (Ty.pointer e).text = '*' :: e.text := by
  simp [Ty.text, Ty.write]

theorem text_slice (e : Ty) : (Ty.slice e).text = '[' :: ']' :: e.text := by
  simp [Ty.text, Ty.write]

theorem text_array (l : String) (e : Ty) :
    (Ty.array l e).text = '[' :: (l.toList ++ ']' :: e.text) := by
  simp [Ty.text, Ty.write]

theorem text_map (k v : Ty) :
    (Ty.map k v).text = 'm' :: 'a' :: 'p' :: '[' :: (k.text ++ ']' :: v.text) := by
  simp [Ty.text, Ty.write]

theorem text_send (e : Ty) :
    (Ty.chan .send e).text = 'c' :: 'h' :: 'a' :: 'n' :: '<' :: '-' :: ' ' :: e.text := by
  simp [Ty.text, Ty.write, ChanDir.word]

theorem text_recv (e : Ty) :
    (Ty.chan .recv e).text = '<' :: '-' :: 'c' :: 'h' :: 'a' :: 'n' :: ' ' :: e.text := by
  simp [Ty.text, Ty.write, ChanDir.word]

/-- A channel of receive-only channels is put in parentheses: the text `chan <-chan T` would be
read otherwise. -/
theorem text_both (e : Ty) :
    (Ty.chan .both e).text = 'c' :: 'h' :: 'a' :: 'n' :: ' ' ::
      (if e.isReceiveOnly then '(' :: (e.text ++ [')']) else e.text) := by
  cases h : e.isReceiveOnly <;> simp [Ty.text, Ty.write, ChanDir.word, h]

theorem text_struct (fs : List (Field Ty)) :
    (Ty.struct fs).text = 's' :: 't' :: 'r' :: 'u' :: 'c' :: 't' :: '{' ::
      (joinText [';', ' '] (fs.map fieldChars) ++ ['}']) := by
  have hf : (fun f : Field Ty => (fieldText quote f).toList) = fieldChars := by
    funext f
    unfold fieldText fieldChars
    split <;> simp [Ty.text]
  have hj := toList_join_map "; " (fieldText quote) fs
  have hsep : "; ".toList = [';', ' '] := rfl
  rw [hf, hsep] at hj
  simp [Ty.text, Ty.write, writeFields_eq_map, hj]

theorem text_union (ts : List (Term Ty)) :
    (Ty.union ts).text = joinText [' ', '|', ' '] (ts.map termChars) := by
  have hf : (fun t : Term Ty => (termText quote t).toList) = termChars := by
    funext t
    unfold termText termChars
    split <;> simp [Ty.text]
  have hj := toList_join_map " | " (termText quote) ts
  have hsep : " | ".toList = [' ', '|', ' '] := rfl
  rw [hf, hsep] at hj
  simp [Ty.text, Ty.write, writeTerms_eq_map, hj]

theorem writeParams_false (q : String → String) (ps : List (Param Ty)) :
    Ty.writeParams q false ps = ps.map (·.type.write q) := by
  induction ps with
  | nil => simp [Ty.writeParams]
  | cons p ps ih =>
    obtain ⟨n, t⟩ := p
    cases ps with
    | nil => cases t <;> simp [Ty.writeParams, Ty.write]
    | cons p' ps' => simp [Ty.writeParams, ih]

/-- Parameters are written as items: each a type, the last one marked where the list is variadic. -/
theorem writeParams_items (v : Bool) (ps : List (Param Ty)) :
    (Ty.writeParams quote v ps).map String.toList = (paramItems v ps).map itemChars := by
  induction ps with
  | nil => simp [Ty.writeParams, paramItems]
  | cons p ps ih =>
    obtain ⟨n, t⟩ := p
    cases ps with
    | nil => cases t <;> cases v <;> simp [Ty.writeParams, paramItems, itemChars, Ty.text, Ty.write]
    | cons p' ps' => simp [Ty.writeParams, paramItems, itemChars, Ty.text, ih]

/-- No result is written as nothing, one stands alone after a blank, several stand in parentheses.
-/
theorem toList_resultText (qs : List (Param Ty)) :
    (resultText (qs.map (·.type.write quote))).toList = resultChars qs := by
  match qs with
  | [] => rfl
  | [q] => simp [resultText, resultChars, Ty.text]
  | q :: q' :: qs =>
    have hj := toList_join_map ", " (·.type.write quote) (q :: q' :: qs)
    have hsep : ", ".toList = [',', ' '] := rfl
    rw [hsep] at hj
    simp only [List.map_cons] at hj
    simp [resultText, resultChars, Ty.text, hj]

theorem toList_typeParams (bs : List (Binder Ty)) :
    (bracketed (Ty.writeBinders quote bs)).toList = typeParamsText bs := by
  have hb : (fun b : Binder Ty => (b.name ++ " " ++ b.constraint.write quote).toList) =
      binderChars := by
    funext b
    simp [binderChars, Ty.text]
  rw [writeBinders_eq_map, toList_bracketed, hb, typeParamsText]

/-- The text of a signature is made of its type parameters, its items and its results, in this
order. -/
theorem toList_writeSignature (g : Signature Ty) :
    (Ty.writeSignature quote g).toList = signatureText g := by
  obtain ⟨bs, rs, ps, qs, v⟩ := g
  have hj := toList_join ", " (Ty.writeParams quote v ps)
  have hsep : ", ".toList = [',', ' '] := rfl
  rw [hsep, writeParams_items] at hj
  simp [Ty.writeSignature, signatureText, toList_typeParams, hj, writeParams_false,
    toList_resultText]

theorem text_func (g : Signature Ty) :
    (Ty.func g).text = 'f' :: 'u' :: 'n' :: 'c' :: signatureText g := by
  simp [Ty.text, Ty.write, toList_writeSignature]

/-- Members are written in sorted order, the methods before the elements. -/
theorem text_interface (body : Interface Ty) :
    (Ty.interface body).text =
      'i' :: 'n' :: 't' :: 'e' :: 'r' :: 'f' :: 'a' :: 'c' :: 'e' :: '{' ::
        (joinText [';', ' '] ((membersOf body).map Member.text) ++ ['}']) := by
  obtain ⟨ms, es⟩ := body
  have hms : (sortBy (·.1) (Ty.writeMethods quote ms)).map (·.2) =
      (sortBy (·.name) ms).map fun m => m.name ++ Ty.writeSignature quote m.sig := by
    rw [writeMethods_eq_map, sortBy_map Method.name Prod.fst _ (fun _ => rfl), List.map_map]
    rfl
  have hes : sortBy id (Ty.writeList quote es) =
      (sortBy (·.write quote) es).map (·.write quote) := by
    rw [writeList_eq_map, sortBy_map (Ty.write quote) id _ (fun _ => rfl)]
  have hj := toList_join "; " ((sortBy (·.name) ms).map (fun m =>
    m.name ++ Ty.writeSignature quote m.sig) ++ (sortBy (·.write quote) es).map (·.write quote))
  have hsep : "; ".toList = [';', ' '] := rfl
  rw [hsep] at hj
  simp only [Ty.text, Ty.write, hms, hes, String.toList_append, hj]
  simp [membersOf, Member.text, Ty.text, Function.comp_def, toList_writeSignature]

theorem text_defined (n : String) (bs : List (Binder Ty)) (a : Bool) (u : Ty) :
    (Ty.defined n bs a u).text = 't' :: 'y' :: 'p' :: 'e' :: ' ' :: (n.toList ++ (typeParamsText bs ++
      ((if a then [' ', '=', ' '] else [' ']) ++ u.text))) := by
  cases a <;> simp [Ty.text, Ty.write, toList_typeParams]

end Equations

end GoApi
