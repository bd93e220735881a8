import RelationApi.Sdl.Token

/-!
# Numbers

A number is an optional minus sign, an integer part, and for a float a fraction, an exponent or
both. The integer part is a zero or starts with another digit. A number ends before a character that
could neither continue it nor be confused with its continuation : no dot, letter or underscore.
-/

namespace RelationApi.Sdl

/-- Whether a name can start with the character. -/
def isNameStart (c : Char) : Bool := c.isAlpha || c = '_'

/-- Whether a name can go on with the character. -/
def isNamePart (c : Char) : Bool := c.isAlphanum || c = '_'

namespace Number

/-- The digits at the head of a text, at least one, and the rest. -/
def digits (cs : List Char) : Except LexicalError (List Char × List Char) :=
  if (cs.head?.any Char.isDigit) then .ok (cs.span Char.isDigit)
  else .error (.expectedDigit cs.head?)

/-- The integer part at the head of a text, and the rest. -/
def integerPart : List Char → Except LexicalError (List Char × List Char)
  | '0' :: rest =>
    if rest.head?.any Char.isDigit then .error (.digitAfterZero rest.head?)
    else .ok (['0'], rest)
  | cs => digits cs

/-- The fraction at the head of a text, empty if there is none, and the rest. -/
def fraction : List Char → Except LexicalError (List Char × List Char)
  | '.' :: rest => do
    let (ds, rest) ← digits rest
    return ('.' :: ds, rest)
  | cs => .ok ([], cs)

/-- The sign at the head of a text, empty if there is none, and the rest. -/
def sign (isSign : Char → Bool) : List Char → List Char × List Char
  | c :: rest => if isSign c then ([c], rest) else ([], c :: rest)
  | [] => ([], [])

/-- The exponent at the head of a text, empty if there is none, and the rest. -/
def exponent : List Char → Except LexicalError (List Char × List Char)
  | c :: rest =>
    if c = 'e' ∨ c = 'E' then do
      let (s, rest) := sign (fun c => c = '+' || c = '-') rest
      let (ds, rest) ← digits rest
      return (c :: s ++ ds, rest)
    else .ok ([], c :: rest)
  | [] => .ok ([], [])

/-- The number at the head of a text : the token and its length. -/
def scan (cs : List Char) : Except LexicalError (TokenKind × Nat) := do
  let (minus, rest) := sign (· = '-') cs
  let (whole, rest) ← integerPart rest
  let (frac, rest) ← fraction rest
  let (expo, rest) ← exponent rest
  if rest.head?.any fun c => c = '.' || isNameStart c then
    throw (.expectedDigit rest.head?)
  let text := minus ++ whole ++ frac ++ expo
  let kind : TokenKind :=
    if frac.isEmpty && expo.isEmpty then .int (String.ofList text) else .float (String.ofList text)
  return (kind, text.length)

end Number

end RelationApi.Sdl
