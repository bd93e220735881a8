import RelationApi.Sdl.Token
import RelationApi.Text.Hex

/-!
# Syntax errors

The causes for which a text is not a document, and the wording of each.
-/

namespace RelationApi.Sdl

namespace LexicalError

/-- A character of the text as messages show it; past the end there is none. -/
def place : Option Char → String
  | none => "<EOF>"
  | some c =>
    if c = '"' then "'\"'"
    else if 0x20 ≤ c.toNat ∧ c.toNat ≤ 0x7E then String.ofList ['\'', c, '\'']
    else "U+" ++ String.ofList (Text.hexUpper 4 c.toNat)

/-- The wording of a lexical error. -/
def message : LexicalError → String
  | twoDots => "Unexpected '..', did you mean '...'?"
  | digitsAfterDot ds =>
    "Invalid number, expected digit before '.', did you mean '0." ++ ds ++ "'?"
  | singleQuote =>
    "Unexpected single quote character ('), did you mean to use a double quote (\")?"
  | unexpectedCharacter c => "Unexpected character: " ++ place c ++ "."
  | digitAfterZero c => "Invalid number, unexpected digit after 0: " ++ place c ++ "."
  | expectedDigit c => "Invalid number, expected digit but got: " ++ place c ++ "."
  | unterminatedString => "Unterminated string."
  | badEscape s => "Invalid character escape sequence: '" ++ s ++ "'."
  | badUnicodeEscape s => "Invalid Unicode escape sequence: '" ++ s ++ "'."

end LexicalError

/-- Why a text is not a document. -/
inductive SyntaxError where
  | lexical (error : LexicalError)
  | expectedMark (mark : Mark) (found : TokenKind)
  | expectedName (found : TokenKind)
  | expectedKeyword (keyword : String) (found : TokenKind)
  | unexpected (found : TokenKind)
  | variableInConstant (name : String)
  | describedSelections
  | describedOther
  | reservedEnumValue (found : TokenKind)
  | tooDeep
deriving DecidableEq

namespace SyntaxError

/-- The wording of a syntax error, without its title. -/
def detail : SyntaxError → String
  | lexical e => e.message
  | expectedMark m t => "Expected '" ++ m.text ++ "', found " ++ t.display ++ "."
  | expectedName t => "Expected Name, found " ++ t.display ++ "."
  | expectedKeyword k t => "Expected '" ++ k ++ "', found " ++ t.display ++ "."
  | unexpected t => "Unexpected " ++ t.display ++ "."
  | variableInConstant n => "Unexpected variable '$" ++ n ++ "' in constant value."
  | describedSelections =>
    "Unexpected description, descriptions are not supported on shorthand queries."
  | describedOther =>
    "Unexpected description, only GraphQL definitions support descriptions."
  | reservedEnumValue t => t.display ++ " is reserved and cannot be used for an enum value."
  | tooDeep => "Document is nested too deeply. Parsing aborted."

/-- The wording of a syntax error. -/
def message (e : SyntaxError) : String := "Syntax Error: " ++ e.detail

end SyntaxError

end RelationApi.Sdl
