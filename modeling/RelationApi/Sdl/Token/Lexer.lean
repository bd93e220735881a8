import RelationApi.Sdl.BlockText
import RelationApi.Sdl.Token.Number
import RelationApi.Sdl.Token.Quote

/-!
# Reading tokens

`Token.scan` looks at one place of a text : there is something to skip, a token, or an error.
`Token.ofChars` reads a text from such places. Blanks, commas, byte order marks and comments
separate tokens and are skipped.
-/

namespace RelationApi.Sdl

/-- What stands at a place of a text, with the number of characters after the first. -/
inductive Lexeme where
  | skip (more : Nat)
  | token (kind : TokenKind) (more : Nat)
  | invalid (error : LexicalError)

namespace Token

/-- Whether the character ends a line. -/
def isLineEnd (c : Char) : Bool := c = '\n' || c = '\r'

/-- Whether the character only separates tokens. -/
def isSeparator (c : Char) : Bool :=
  c = ' ' || c = '\t' || c = ',' || c = '\uFEFF' || isLineEnd c

/-- The mark of one character. -/
def mark? (c : Char) : Option Mark :=
  match c with
  | '!' => some .bang
  | '$' => some .dollar
  | '&' => some .amp
  | '(' => some .parenL
  | ')' => some .parenR
  | ':' => some .colon
  | '=' => some .equals
  | '@' => some .atSign
  | '[' => some .bracketL
  | ']' => some .bracketR
  | '{' => some .braceL
  | '|' => some .pipe
  | '}' => some .braceR
  | _ => none

/-- What starts with a dot; `cs` follows it. -/
def scanDot : List Char → Lexeme
  | '.' :: '.' :: _ => .token (.mark .spread) 2
  | '.' :: _ => .invalid .twoDots
  | cs =>
    let digits := cs.takeWhile Char.isDigit
    if digits.isEmpty then .invalid (.unexpectedCharacter '.')
    else .invalid (.digitsAfterDot (String.ofList digits))

/-- What starts with a double quote; `cs` follows it. -/
def scanQuote : List Char → Lexeme
  | '"' :: '"' :: cs =>
    match BlockText.scan cs with
    | some (raw, n) => .token (.block (String.ofList (BlockText.value raw))) (n + 2)
    | none => .invalid .unterminatedString
  | cs =>
    match Quote.scan cs with
    | .ok (value, n) => .token (.string (String.ofList value)) n
    | .error e => .invalid e

/-- What starts with a digit or a minus sign. -/
def scanNumber (cs : List Char) : Lexeme :=
  match Number.scan cs with
  | .ok (kind, n) => .token kind (n - 1)
  | .error e => .invalid e

/-- What starts with the character `c`; `cs` follows it. -/
def scan (c : Char) (cs : List Char) : Lexeme :=
  if isSeparator c then .skip 0
  else if c = '#' then .skip (cs.takeWhile (!isLineEnd ·)).length
  else if c = '.' then scanDot cs
  else if c = '"' then scanQuote cs
  else if c = '-' || c.isDigit then scanNumber (c :: cs)
  else if isNameStart c then
    let more := cs.takeWhile isNamePart
    .token (.name (String.ofList (c :: more))) more.length
  else
    match mark? c with
    | some m => .token (.mark m) 0
    | none => .invalid (if c = '\'' then .singleQuote else .unexpectedCharacter c)

/-- The tokens of a text that starts at the place `pos`; the last is `finish` or `invalid`. -/
def ofChars (pos : Nat) : List Char → List Token
  | [] => [⟨.finish, ⟨pos, pos⟩⟩]
  | c :: cs =>
    match scan c cs with
    | .skip n => ofChars (pos + 1 + n) (cs.drop n)
    | .token kind n => ⟨kind, ⟨pos, pos + 1 + n⟩⟩ :: ofChars (pos + 1 + n) (cs.drop n)
    | .invalid e => [⟨.invalid e, ⟨pos, pos⟩⟩]
  termination_by cs => cs.length

/-- The tokens of a text. -/
def ofString (s : String) : List Token := ofChars 0 s.toList

end Token

end RelationApi.Sdl
