import RelationApi.Sdl.Value

/-!
# Tokens

The lexical units of a document. Reading a text yields tokens up to its end or up to the first place
that is no token; the last token then says which (`TokenKind.finish`, `TokenKind.invalid`).
-/

namespace RelationApi.Sdl

/-- The marks that stand for themselves. -/
inductive Mark where
  | bang
  | dollar
  | amp
  | parenL
  | parenR
  | spread
  | colon
  | equals
  | atSign
  | bracketL
  | bracketR
  | braceL
  | pipe
  | braceR
deriving DecidableEq

/-- The text of a mark. -/
def Mark.text : Mark → String
  | bang => "!"
  | dollar => "$"
  | amp => "&"
  | parenL => "("
  | parenR => ")"
  | spread => "..."
  | colon => ":"
  | equals => "="
  | atSign => "@"
  | bracketL => "["
  | bracketR => "]"
  | braceL => "\x7b"
  | pipe => "|"
  | braceR => "\x7d"

/-- Why a place of a text is no token. Where the offending character is missing, the text ended. -/
inductive LexicalError where
  | twoDots
  | digitsAfterDot (digits : String)
  | singleQuote
  | unexpectedCharacter (found : Option Char)
  | digitAfterZero (found : Option Char)
  | expectedDigit (found : Option Char)
  | unterminatedString
  | badEscape (sequence : String)
  | badUnicodeEscape (sequence : String)
deriving DecidableEq

/-- What a token is, with its value. -/
inductive TokenKind where
  | mark (mark : Mark)
  | name (text : String)
  | int (text : String)
  | float (text : String)
  | string (value : String)
  | block (value : String)
  | finish
  | invalid (error : LexicalError)
deriving DecidableEq

/-- A token and its place. -/
structure Token where
  kind : TokenKind
  span : Span
deriving DecidableEq

namespace TokenKind

/-- The value of a token that has one. -/
def value? : TokenKind → Option String
  | name t | int t | float t | string t | block t => some t
  | mark _ | finish | invalid _ => none

/-- The token as error messages name it. -/
def display : TokenKind → String
  | mark m => "'" ++ m.text ++ "'"
  | name t => "Name '" ++ t ++ "'"
  | int t => "Int '" ++ t ++ "'"
  | float t => "Float '" ++ t ++ "'"
  | string t => "String '" ++ t ++ "'"
  | block t => "BlockString '" ++ t ++ "'"
  | finish | invalid _ => "<EOF>"

end TokenKind

end RelationApi.Sdl
