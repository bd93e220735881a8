import RelationApi.Sdl.Field
import RelationApi.Sdl.SyntaxError

/-!
# Parsers

A parser takes tokens off the head of a token list (`Cursor`) or fails with a syntax error. The
token at the head is never an invalid one : taking a token fails if the next one is invalid
(`advance`), and so does looking one token ahead (`lookahead`).

Repetition is `repeated` : items are read as long as a test says so. Every item takes at least one
token, so as many rounds as there are tokens are enough.
-/

namespace RelationApi.Sdl

/-- The tokens that are left, and where the last token that was taken ends. -/
structure Cursor where
  last : Nat
  rest : List Token

/-- A parser of `α`. -/
abbrev Parser := StateT Cursor (Except SyntaxError)

namespace Parser

/-- The deepest nesting of lists, objects and selections in a document. -/
def depthRoom : Nat := 200

/-- Fail with the error. -/
def fail {α : Type} (e : SyntaxError) : Parser α := throw e

/-- The token at the head; past the last one stays the end of the text. -/
def current : Parser Token := do
  return (← get).rest.head?.getD ⟨.finish, ⟨0, 0⟩⟩

/-- Fail if the head of the tokens is invalid. -/
def checkHead (tokens : List Token) : Parser Unit :=
  match tokens with
  | ⟨.invalid e, _⟩ :: _ => fail (.lexical e)
  | _ => pure ()

/-- Take the token at the head. -/
def advance : Parser Unit := do
  match (← get).rest with
  | [] => pure ()
  | t :: rest =>
    checkHead rest
    set (Cursor.mk t.span.stop rest)

/-- What follows the token at the head. -/
def lookahead : Parser TokenKind := do
  match (← get).rest with
  | _ :: t :: rest =>
    checkHead (t :: rest)
    return t.kind
  | _ => return .finish

/-- Where the token at the head starts. -/
def place : Parser Nat := do
  return (← current).span.start

/-- The stretch from `start` to the end of the last token that was taken. -/
def spanFrom (start : Nat) : Parser (Option Span) := do
  return some ⟨start, (← get).last⟩

/-- Fail at the token at the head, for which there is no use. -/
def unexpected {α : Type} : Parser α := do
  fail (.unexpected (← current).kind)

/-- Whether the mark is at the head. -/
def peekMark (m : Mark) : Parser Bool := do
  return (← current).kind = .mark m

/-- Take the mark if it is at the head. -/
def optMark (m : Mark) : Parser Bool := do
  if ← peekMark m then
    advance
    return true
  else return false

/-- Take the mark, which has to be at the head. -/
def expectMark (m : Mark) : Parser Unit := do
  if !(← optMark m) then fail (.expectedMark m (← current).kind)

/-- Take the keyword if it is at the head. -/
def optKeyword (k : String) : Parser Bool := do
  if (← current).kind = .name k then
    advance
    return true
  else return false

/-- Take the keyword, which has to be at the head. -/
def expectKeyword (k : String) : Parser Unit := do
  if !(← optKeyword k) then fail (.expectedKeyword k (← current).kind)

/-- Take a name. -/
def name : Parser Name := do
  let t ← current
  match t.kind with
  | .name s =>
    advance
    return ⟨s, some t.span⟩
  | k => fail (.expectedName k)

/-- Read at most `rounds` items, as long as the test before each says so. -/
def repeatWhile {α : Type} (more : Parser Bool) (item : Parser α) : Nat → Parser (List α)
  | 0 => return []
  | rounds + 1 => do
    if ← more then
      let a ← item
      let as ← repeatWhile more item rounds
      return a :: as
    else return []

/-- Read items as long as the test before each says so. -/
def repeated {α : Type} (more : Parser Bool) (item : Parser α) : Parser (List α) := do
  repeatWhile more item ((← get).rest.length + 1)

/-- Read items up to a closing mark, which is taken. -/
def itemsUntil {α : Type} (close : Mark) (item : Parser α) : Parser (List α) :=
  repeated (return !(← optMark close)) item

/-- Read items between two marks; there may be none. -/
def anyBetween {α : Type} (op : Mark) (item : Parser α) (close : Mark) : Parser (List α) := do
  expectMark op
  itemsUntil close item

/-- Read items up to a closing mark, at least one. -/
def someUntil {α : Type} (close : Mark) (item : Parser α) : Parser (List α) := do
  let a ← item
  let as ← itemsUntil close item
  return a :: as

/-- Read items between two marks, at least one. -/
def someBetween {α : Type} (op : Mark) (item : Parser α) (close : Mark) : Parser (List α) := do
  expectMark op
  someUntil close item

/-- Read items between two marks, at least one, if the opening mark is at the head. -/
def optBetween {α : Type} (op : Mark) (item : Parser α) (close : Mark) : Parser (List α) := do
  if ← optMark op then someUntil close item else return []

/-- Read at least one item, with a mark between any two; it may also stand before the first. -/
def separatedBy {α : Type} (mark : Mark) (item : Parser α) : Parser (List α) := do
  let _ ← optMark mark
  let a ← item
  let as ← repeated (optMark mark) item
  return a :: as

end Parser

end RelationApi.Sdl
