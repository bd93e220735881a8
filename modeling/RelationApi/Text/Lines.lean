/-!
# Lines

A line ends at a line feed, a carriage return, or the two together. `splitLines` gives the lines
without their ends; `unifyLineEnds` writes a line feed for every end.
-/

namespace RelationApi.Text

/-- The lines of a text; there is one more than there are line ends. -/
def splitLines : List Char → List (List Char)
  | [] => [[]]
  | '\r' :: '\n' :: rest => [] :: splitLines rest
  | c :: rest =>
    if c = '\n' ∨ c = '\r' then [] :: splitLines rest
    else
      match splitLines rest with
      | [] => [[c]]
      | line :: more => (c :: line) :: more

/-- The lines, separated by line feeds. -/
def joinLines (lines : List (List Char)) : List Char :=
  ['\n'].intercalate lines

/-- The text with a line feed for every line end. -/
def unifyLineEnds (s : String) : String :=
  String.ofList (joinLines (splitLines s.toList))

end RelationApi.Text
