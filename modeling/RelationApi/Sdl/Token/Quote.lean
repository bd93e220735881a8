import RelationApi.Sdl.Token
import RelationApi.Text.Hex

/-!
# Quoted strings

A quoted string stands on one line between double quotes. A backslash starts an escape : one of
eight letters and marks, or `u` with a code point, either of four hexadecimal digits or of any
number in braces. Two escapes of four digits can together name one code point beyond the first
plane.
-/

namespace RelationApi.Sdl.Quote

/-- The characters with an escape of one character. -/
def simpleEscape? (c : Char) : Option Char :=
  match c with
  | '"' => some '"'
  | '\\' => some '\\'
  | '/' => some '/'
  | 'b' => some '\x08'
  | 'f' => some '\x0c'
  | 'n' => some '\n'
  | 'r' => some '\r'
  | 't' => some '\t'
  | _ => none

/-- The character with the given code point. -/
def charOf? (code : Nat) : Option Char :=
  if code.isValidChar then some (Char.ofNat code) else none

/-- The text of an escape that is refused. -/
def refused (cs : List Char) : LexicalError :=
  .badUnicodeEscape (String.ofList ('\\' :: cs))

/-- The escape of four digits at the head of `cs`, which follows the backslash and the `u` : the
character and the length after the backslash. -/
def fixedEscape (cs : List Char) : Except LexicalError (Char × Nat) :=
  let unit? (ds : List Char) : Option Nat :=
    if ds.length = 4 then Text.hexValue? ds else none
  let failure := refused ('u' :: cs.take 4)
  match unit? (cs.take 4) with
  | none => .error failure
  | some code =>
    match charOf? code, cs.drop 4 with
    | some c, _ => .ok (c, 5)
    | none, '\\' :: 'u' :: rest =>
      match unit? (rest.take 4) with
      | some low =>
        if 0xD800 ≤ code ∧ code < 0xDC00 ∧ 0xDC00 ≤ low ∧ low < 0xE000 then
          .ok (Char.ofNat (0x10000 + (code - 0xD800) * 0x400 + (low - 0xDC00)), 11)
        else .error failure
      | none => .error failure
    | none, _ => .error failure

/-- The most characters that are read after the opening brace of an escape. -/
def braceRoom : Nat := 9

/-- The escape in braces at the head of `cs`, which follows the backslash, the `u` and the opening
brace : the character and the length after the backslash. -/
def braceEscape (cs : List Char) : Except LexicalError (Char × Nat) :=
  let (ds, rest) := (cs.take braceRoom).span fun c => (Text.hexDigit? c).isSome
  let failure (more : List Char) := refused ('u' :: '{' :: ds ++ more)
  match rest with
  | '}' :: _ =>
    match (if ds.isEmpty then none else Text.hexValue? ds).bind charOf? with
    | some c => .ok (c, ds.length + 3)
    | none => .error (failure ['}'])
  | c :: _ => .error (failure [c])
  | [] => .error (failure [])

/-- The escape at the head of `cs`, which follows the backslash : the character and the length. -/
def escape : List Char → Except LexicalError (Char × Nat)
  | 'u' :: '{' :: cs => braceEscape cs
  | 'u' :: cs => fixedEscape cs
  | c :: _ =>
    match simpleEscape? c with
    | some e => .ok (e, 1)
    | none => .error (.badEscape (String.ofList ['\\', c]))
  | [] => .error (.badEscape "\\")

/-- The string whose opening quote stands before the text : its value and its length, closing quote
included. -/
def scan : List Char → Except LexicalError (List Char × Nat)
  | [] => .error .unterminatedString
  | c :: cs =>
    if c = '"' then .ok ([], 1)
    else if c = '\\' then
      match escape cs with
      | .error e => .error e
      | .ok (e, n) => (scan (cs.drop n)).map fun (v, w) => (e :: v, n + 1 + w)
    else if c = '\n' ∨ c = '\r' then .error .unterminatedString
    else (scan cs).map fun (v, w) => (c :: v, w + 1)
  termination_by cs => cs.length

end RelationApi.Sdl.Quote
