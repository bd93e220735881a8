/-!
# Layout

The pieces of printed text are lists of characters. Pieces that are empty leave no trace : `joined`
skips them, `wrapped` puts nothing around them, and a `block` of none is empty. Whatever stands in a
block is indented by two blanks, after every line feed (`indented`).
-/

namespace RelationApi.Sdl.Layout

/-- The pieces that are not empty, with `sep` between any two. -/
def joined (sep : String) (pieces : List (List Char)) : List Char :=
  sep.toList.intercalate (pieces.filter (!·.isEmpty))

/-- The piece between two others, which are left out if it is empty. -/
def wrapped (before : String) (piece : List Char) (after : String := "") : List Char :=
  if piece.isEmpty then [] else before.toList ++ piece ++ after.toList

/-- Two blanks after every line feed. -/
def indentLines (piece : List Char) : List Char :=
  piece.flatMap fun c => if c = '\n' then ['\n', ' ', ' '] else [c]

/-- The piece with every line indented by two blanks. -/
def indented (piece : List Char) : List Char :=
  wrapped "  " (indentLines piece)

/-- The pieces on indented lines of their own between two marks; nothing if all are empty. -/
def enclosed (op : String) (pieces : List (List Char)) (close : String) : List Char :=
  wrapped (op ++ "\n") (indented (joined "\n" pieces)) ("\n" ++ close)

/-- The pieces on indented lines of their own between braces; nothing if all are empty. -/
def block (pieces : List (List Char)) : List Char :=
  enclosed "\x7b" pieces "\x7d"

/-- Whether some piece takes more than one line. -/
def someMultiline (pieces : List (List Char)) : Bool :=
  pieces.any (·.contains '\n')

/-- The longest line of items that is not broken up. -/
def lineRoom : Nat := 80

end RelationApi.Sdl.Layout
