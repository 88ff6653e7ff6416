import GoApi.Text.Printable

/-!
# Quoted text

A quoted text stands between two marks.  Inside it the mark and the backslash are escaped, line feed,
carriage return, tab and NUL have their letters, and any other character that does not print by
itself is written `\u{…}` with its code point in lower-case hexadecimal.
-/

namespace GoApi.Text

/-- A character as it stands between two `mark`s. -/
def escape (mark : Char) (c : Char) : List Char :=
  if c = mark ∨ c = '\\' then ['\\', c]
  else if c = '\n' then ['\\', 'n']
  else if c = '\r' then ['\\', 'r']
  else if c = '\t' then ['\\', 't']
  else if c.toNat = 0 then ['\\', '0']
  else if isPrintable c then [c]
  else ['\\', 'u', '{'] ++ Nat.toDigits 16 c.toNat ++ ['}']

/-- A string between double quotes. -/
def quote (s : String) : String :=
  String.ofList ('"' :: s.toList.flatMap (escape '"') ++ ['"'])

/-- A character between single quotes. -/
def quoteChar (c : Char) : String :=
  String.ofList ('\'' :: escape '\'' c ++ ['\''])

end GoApi.Text
