/-!
# Styled text

Styles are written as terminal escape sequences around a text, an empty one too.  With colours off
nothing is added.
-/

namespace GoApi.Output

/-- A way to set off text. -/
inductive Style where
  | bold
  | dimmed
  | red
  | green
  | yellow
  | cyan
  deriving DecidableEq, Repr

def Style.code : Style → String
  | .bold => "1"
  | .dimmed => "2"
  | .red => "31"
  | .green => "32"
  | .yellow => "33"
  | .cyan => "36"

/-- The sequence that ends all styles. -/
def resetSequence : String := "\x1b[0m"

/-- A text in the given styles.  A sequence inside the text that ends all styles is followed by the
styles again. -/
def paint (colors : Bool) (styles : List Style) (text : String) : String :=
  if !colors then text
  else
    let start := "\x1b[" ++ ";".intercalate (styles.map Style.code) ++ "m"
    start ++ (resetSequence ++ start).intercalate (text.splitOn resetSequence) ++ resetSequence

end GoApi.Output
