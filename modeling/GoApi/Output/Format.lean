/-!
# Output formats
-/

namespace GoApi.Output

/-- How results are written. -/
inductive Format where
  | text
  | json
  | markdown
  deriving DecidableEq, Repr, Inhabited

def Format.word : Format → String
  | .text => "text"
  | .json => "json"
  | .markdown => "markdown"

/-- The lower case of a character, as far as it lies in ASCII.  Besides the ASCII letters only the
Kelvin sign has one. -/
def lowerAscii (c : Char) : Char :=
  if c.toNat = 0x212a then 'k' else c.toLower

/-- The format of a word, in any case; `md` is short for `markdown`. -/
def Format.ofWord? (word : String) : Option Format :=
  match String.ofList (word.toList.map lowerAscii) with
  | "text" => some .text
  | "json" => some .json
  | "markdown" | "md" => some .markdown
  | _ => none

/-- The refusal of a word that names no format. -/
def Format.unknownMessage (word : String) : String :=
  "Unknown output format: '" ++ word ++ "'"

/-- How and with what trimmings results are written. -/
structure Rendering where
  format : Format := .text
  colors : Bool := false
  compact : Bool := false
  deriving DecidableEq, Repr, Inhabited

end GoApi.Output
