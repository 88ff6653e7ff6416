import GoApi.Surface.Resolve

/-!
# Types of constants and variables

A value without a declared type takes the type of its initializer, where that can be told inside the
package.  `Package.values` collects such types in rounds over all declarations, so that an initializer
may mention a value that is declared later.
-/

namespace GoApi.Surface

open Source

/-- How many rounds are made over the declarations. -/
def maxRounds : Nat := 4

/-- The types of values found so far. -/
abbrev Values := List (String × Ty)

/-- Record a type for a name, in place of an earlier one. -/
def Values.insert (values : Values) (name : String) (type : Ty) : Values :=
  match values with
  | [] => [(name, type)]
  | (n, t) :: rest => if n = name then (n, type) :: rest else (n, t) :: Values.insert rest name type

/-- The word for the untyped kind of a literal. -/
def literalWord : Literal → String
  | .int => "int"
  | .float => "float"
  | .complex => "complex"
  | .rune => "rune"
  | .string => "string"
  | .bool => "bool"

def untyped (kind : Literal) : Ty := .basic ("untyped " ++ literalWord kind)

/-- The type of a value that cannot be told. -/
def unknown : Ty := .basic "unknown"

/-- How untyped kinds yield to each other: the greater rank wins.  A type that is not untyped has
none. -/
def untypedRank : Ty → Option Nat
  | .basic name =>
    if name = "untyped int" then some 1
    else if name = "untyped rune" then some 2
    else if name = "untyped float" then some 3
    else if name = "untyped complex" then some 4
    else if "untyped ".toList.isPrefixOf name.toList then some 0
    else none
  | _ => none

/-- The type of two combined operands: the first one that is typed, else the one of greater rank, and
of two equal ranks the first. -/
def combine (left right : Ty) : Ty :=
  match untypedRank left, untypedRank right with
  | none, _ => left
  | some _, none => right
  | some l, some r => if l < r then right else left

section

variable (p : Package) (site : Site)

/-- The signature of a function declared without type parameters. -/
def funcType? (f : LocalFunc) : Option (Option (Signature Ty)) :=
  if f.sig.binders.isEmpty then (p.signature f.site f.sig).map some else some none

/-- The types that a call gives, or the type that a conversion gives. -/
def callResults : Expr → Option (List Ty)
  | .call name first? =>
    match p.func? name with
    | some f => do
      match ← funcType? p f with
      | some sig => return sig.results.map (·.type)
      | none => return []
    | none =>
      if (p.type? name).isSome || predeclared.contains name then some [p.nameTy site name]
      else if name = "len" || name = "cap" || name = "copy" then some [.basic "int"]
      else
        match first? with
        | none => some []
        | some first =>
          if name = "make" then do return [← p.resolve site first]
          else if name = "new" then do return [.pointer (← p.resolve site first)]
          else some []
  | .callMember operand member =>
    match site.imports.lookup operand with
    | some path =>
      if (path = "errors" && member = "New") || (path = "fmt" && member = "Errorf") then
        some [.basic "error"]
      else some []
    | none => some []
  | _ => some []

/-- The type of an initializer, if it can be told. -/
def infer (values : Values) : Expr → Option (Option Ty)
  | .literal kind => some (some (untyped kind))
  | .name name =>
    match values.lookup name with
    | some type => some (some type)
    | none =>
      match p.func? name with
      | some f => do return (← funcType? p f).map .func
      | none => some none
  | .paren inner => infer values inner
  | .unary op operand =>
    match op with
    | .address => do return (← infer values operand).map .pointer
    | .fetch => some none
    | .same => infer values operand
  | .binary op left right =>
    match op with
    | .compare => some (some (untyped .bool))
    | .shift => infer values left
    | .combine => do
      match ← infer values left with
      | none => return none
      | some l => return (← infer values right).map (combine l)
  | .call name first? => single (.call name first?)
  | .callMember operand member => single (.callMember operand member)
  | .ofType type => do return some (← p.resolve site type)
  | .function sig => do return some (.func (← p.signature site sig))
  | .other => some none
where
  single (e : Expr) : Option (Option Ty) := do
    match ← callResults p site e with
    | [type] => return some type
    | _ => return none

/-- The type of the value at a place of an initializer list. -/
def inferAt (values : Values) (exprs : List Expr) (i : Nat) : Option (Option Ty) :=
  match exprs[i]? with
  | some e => infer p site values e
  | none => some none

/-- A declared value: its name, and its type if that can be told. -/
abbrev Declared := String × Option Ty

/-- The types of names from a declared type or from a function of their place. -/
def typeNames (type? : Option TypeExpr) (at? : Nat → Option (Option Ty)) (names : List String) :
    Option (List Declared) := do
  let declared ← type?.mapM (p.resolve site)
  names.zipIdx.mapM fun (name, i) => do
    match declared with
    | some type => return (name, some type)
    | none => return (name, ← at? i)

/-- The values of a constant declaration.  A line without type and values repeats those of the line
before.  The commas between names are counted with them, so the `k`-th name takes the value at place
`2 * k`. -/
def constValues (values : Values) :
    Option TypeExpr × List Expr → List ValueSpec → Option (List Declared)
  | _, [] => some []
  | previous, spec :: rest => do
    let (type?, exprs) :=
      if spec.type?.isNone && spec.values.isEmpty then previous else (spec.type?, spec.values)
    let here ← typeNames p site type? (inferAt p site values exprs) (spec.names.intersperse ",")
    return here ++ (← constValues values (type?, exprs) rest)

/-- The results of a call that initializes several variables. -/
def sharedResults (spec : ValueSpec) : Option (List Ty) :=
  match spec.type?, spec.values with
  | none, [e] => if spec.names.length > 1 then callResults p site e else some []
  | _, _ => some []

/-- The values of one line of a variable declaration.  A call that initializes several variables gives
each its own result. -/
def varValues (values : Values) (spec : ValueSpec) : Option (List Declared) := do
  let results ← sharedResults p site spec
  let at? := fun i =>
    if results.isEmpty then inferAt p site values spec.values i else some results[i]?
  typeNames p site spec.type? at? spec.names

def declValues (values : Values) : Decl → Option (DeclKind × List Declared)
  | .consts specs => do return (.const, ← constValues p site values (none, []) specs)
  | .vars specs => do return (.var, (← specs.mapM (varValues p site values)).flatten)
  | _ => some (.var, [])

end

/-- Record the values of a declaration whose types can be told. -/
def learnDecl (p : Package) (site : Site) (values : Values) (d : Decl) : Option Values := do
  let (_, declared) ← declValues p site values d
  return declared.foldl (fun vs (name, type?) =>
    match type? with
    | some type => vs.insert name type
    | none => vs) values

def learnRound (p : Package) (values : Values) : Option Values :=
  p.units.foldlM (fun vs u => u.decls.foldlM (learnDecl p u.site) vs) values

/-- Rounds over all declarations, until one adds no name or none is left. -/
def learnRounds (p : Package) : Nat → Values → Option Values
  | 0, values => some values
  | rounds + 1, values => do
    let next ← learnRound p values
    if next.length = values.length then return next else learnRounds p rounds next

/-- The types of all values that can be told. -/
def Package.values (p : Package) : Option Values := learnRounds p maxRounds []

end GoApi.Surface
