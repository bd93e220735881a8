import RelationApi.Text.Hex
import RelationApi.Text.Printable

/-!
# Quoted text

How messages show a text. The quotes are single, unless the text holds a single quote and no double
one. Inside, the quote itself, the backslash, line ends, tabs and unprintable characters are
escaped.
-/

namespace RelationApi.Text

/-- The quote that surrounds the text. -/
def quoteOf (cs : List Char) : Char :=
  if cs.contains '\'' && !cs.contains '"' then '"' else '\''

/-- A character as it stands between two quotes `q`. -/
def quotedChar (q c : Char) : List Char :=
  if c = q || c = '\\' then ['\\', c]
  else if c = '\n' then ['\\', 'n']
  else if c = '\r' then ['\\', 'r']
  else if c = '\t' then ['\\', 't']
  else if isPrintable c then [c]
  else if c.toNat < 0x100 then '\\' :: 'x' :: hexLower 2 c.toNat
  else if c.toNat < 0x10000 then '\\' :: 'u' :: hexLower 4 c.toNat
  else '\\' :: 'U' :: hexLower 8 c.toNat

/-- The text between quotes. -/
def quoted (s : String) : String :=
  let q := quoteOf s.toList
  String.ofList (q :: s.toList.flatMap (quotedChar q) ++ [q])

end RelationApi.Text
