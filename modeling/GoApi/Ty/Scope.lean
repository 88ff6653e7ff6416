import GoApi.Ty.Basic

/-!
# Scopes of type parameters

A `Scope` says how the type parameters in force are spelled.  `Ty.respell` carries a scope through a
descriptor: every binder list extends it, and every reference is looked up in it.

Two scopes matter.  `Scope.positional` spells the binders `$0`, `$1`, … by their position, which makes
a consistent renaming invisible.  `Scope.replacing` replaces free parameters and keeps bound ones.
-/

namespace GoApi

/-- How type parameters are spelled: the bindings in force, innermost first, and whether a new
binder is numbered or keeps its name. -/
structure Scope where
  bindings : List (String × String)
  numbered : Bool

namespace Scope

/-- Nothing bound; binders are numbered. -/
def positional : Scope := ⟨[], true⟩

/-- Free parameters are replaced through `(source, replacement)` pairs, the last pair of a source
counting; binders keep their names. -/
def replacing (pairs : List (String × String)) : Scope := ⟨pairs.reverse, false⟩

/-- The spelling a new binder gets. -/
def spellingOf (s : Scope) (name : String) : String :=
  if s.numbered then "$" ++ toString s.bindings.length else name

/-- The scope with one more binder. -/
def bind (s : Scope) (name : String) : Scope :=
  { s with bindings := (name, s.spellingOf name) :: s.bindings }

/-- The scope with a list of binders, the first one outermost. -/
def bindAll (s : Scope) : List String → Scope
  | [] => s
  | n :: ns => (s.bind n).bindAll ns

/-- The spellings that a list of binders gets. -/
def spellings (s : Scope) : List String → List String
  | [] => []
  | n :: ns => s.spellingOf n :: (s.bind n).spellings ns

/-- The spelling of a reference; a free parameter stands for itself. -/
def lookup (s : Scope) (name : String) : String :=
  (s.bindings.lookup name).getD name

end Scope

def binderNames (bs : List (Binder Ty)) : List String :=
  bs.map (·.name)

mutual

/-- The descriptor with its type parameters spelled by the scope. -/
def Ty.respell (s : Scope) : Ty → Ty
  | .basic n => .basic n
  | .named p n args => .named p n (Ty.respellList s args)
  | .typeParam n => .typeParam (s.lookup n)
  | .pointer e => .pointer (e.respell s)
  | .slice e => .slice (e.respell s)
  | .array l e => .array l (e.respell s)
  | .map k v => .map (k.respell s) (v.respell s)
  | .chan d e => .chan d (e.respell s)
  | .struct fs => .struct (Ty.respellFields s fs)
  | .interface ⟨ms, es⟩ => .interface ⟨Ty.respellMethods s ms, Ty.respellList s es⟩
  | .func g => .func (Ty.respellSignature s g)
  | .union ts => .union (Ty.respellTerms s ts)
  | .defined n bs a u =>
    let inner := s.bindAll (binderNames bs)
    .defined n (Ty.respellBinders inner (s.spellings (binderNames bs)) bs) a (u.respell inner)

def Ty.respellList (s : Scope) : List Ty → List Ty
  | [] => []
  | t :: ts => t.respell s :: Ty.respellList s ts

def Ty.respellFields (s : Scope) : List (Field Ty) → List (Field Ty)
  | [] => []
  | ⟨n, t, e, x⟩ :: fs => ⟨n, t.respell s, e, x⟩ :: Ty.respellFields s fs

def Ty.respellMethods (s : Scope) : List (Method Ty) → List (Method Ty)
  | [] => []
  | ⟨n, g⟩ :: ms => ⟨n, Ty.respellSignature s g⟩ :: Ty.respellMethods s ms

def Ty.respellTerms (s : Scope) : List (Term Ty) → List (Term Ty)
  | [] => []
  | ⟨b, t⟩ :: ts => ⟨b, t.respell s⟩ :: Ty.respellTerms s ts

/-- `Ty.respell` on parameters; their own names stay. -/
def Ty.respellParams (s : Scope) : List (Param Ty) → List (Param Ty)
  | [] => []
  | ⟨n, t⟩ :: ps => ⟨n, t.respell s⟩ :: Ty.respellParams s ps

/-- Binders under the scope that already holds all of them: a constraint may refer to any parameter
of its own list. -/
def Ty.respellBinders (s : Scope) : List String → List (Binder Ty) → List (Binder Ty)
  | n :: ns, ⟨_, c⟩ :: bs => ⟨n, c.respell s⟩ :: Ty.respellBinders s ns bs
  | _, _ => []

/-- A signature binds the names of its receiver first and its own list after them. -/
def Ty.respellSignature (s : Scope) : Signature Ty → Signature Ty
  | ⟨bs, rs, ps, qs, v⟩ =>
    let outer := s.bindAll rs
    let inner := outer.bindAll (binderNames bs)
    ⟨Ty.respellBinders inner (outer.spellings (binderNames bs)) bs, s.spellings rs,
      Ty.respellParams inner ps, Ty.respellParams inner qs, v⟩

end

abbrev Signature.respell (s : Scope) (g : Signature Ty) : Signature Ty :=
  Ty.respellSignature s g

/-- The descriptor with its free type parameters renamed; parameters bound inside keep their
names. -/
def Ty.renameFree (pairs : List (String × String)) (t : Ty) : Ty :=
  t.respell (.replacing pairs)

end GoApi
