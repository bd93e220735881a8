import RelationApi.Text.Lines

/-!
# Block strings

A block string stands between two triple quotes and may go over several lines. Its value leaves out
the indentation that its lines share, the first line apart, and the blank lines at both ends
(`BlockText.value`). It is printed on lines of its own, unless it is a short single line
(`BlockText.print`).
-/

namespace RelationApi.Sdl.BlockText

/-- The three quotes at each end. -/
def quotes : List Char := ['"', '"', '"']

/-- The characters that indent a line. -/
def isIndent (c : Char) : Bool := c = ' ' || c = '\t'

/-- The block string whose opening quotes stand before the text : its raw content and its length,
closing quotes included. The only escape is a backslash before three quotes. -/
def scan : List Char → Option (List Char × Nat)
  | '"' :: '"' :: '"' :: _ => some ([], 3)
  | '\\' :: '"' :: '"' :: '"' :: cs => (scan cs).map fun (v, w) => (quotes ++ v, w + 4)
  | c :: cs => (scan cs).map fun (v, w) => (c :: v, w + 1)
  | [] => none

/-- How many characters indent a line. -/
def indentOf (line : List Char) : Nat := (line.takeWhile isIndent).length

/-- Whether a line holds nothing but indentation. -/
def isBlankLine (line : List Char) : Bool := line.all isIndent

/-- The least indentation of the lines that are not blank. -/
def commonIndent (lines : List (List Char)) : Nat :=
  (((lines.filter (!isBlankLine ·)).map indentOf).min?).getD 0

/-- The lines without the blank ones at both ends. -/
def trimBlankLines (lines : List (List Char)) : List (List Char) :=
  ((lines.dropWhile isBlankLine).reverse.dropWhile isBlankLine).reverse

/-- The lines without the indentation that all but the first share. -/
def dedent : List (List Char) → List (List Char)
  | [] => []
  | first :: rest => first :: rest.map (List.drop (commonIndent rest))

/-- The value of a raw content. -/
def value (raw : List Char) : List Char :=
  Text.joinLines (trimBlankLines (dedent (Text.splitLines raw)))

/-- The content with a backslash before each triple quote. -/
def escape : List Char → List Char
  | '"' :: '"' :: '"' :: cs => '\\' :: quotes ++ escape cs
  | c :: cs => c :: escape cs
  | [] => []

/-- The longest value that is printed on a single line. -/
def lineRoom : Nat := 70

/-- The value as a block string. -/
def print (v : List Char) : List Char :=
  let escaped := escape v
  let lines := Text.splitLines escaped
  let single := lines.length = 1
  let tripleEnd := ('\\' :: quotes).isSuffixOf escaped
  let closeApart := (v.getLast? = some '"' ∧ !tripleEnd) ∨ v.getLast? = some '\\'
  let openApart := ¬single ∧ lines.tail.all fun l => l.head?.all isIndent
  let apart := ¬single ∨ v.length > lineRoom ∨ closeApart ∨ tripleEnd
  let leading := if (apart ∧ ¬(single ∧ v.head?.any isIndent)) ∨ openApart then ['\n'] else []
  let trailing := if apart then ['\n'] else []
  quotes ++ leading ++ escaped ++ trailing ++ quotes

end RelationApi.Sdl.BlockText
