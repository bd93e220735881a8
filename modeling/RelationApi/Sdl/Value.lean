/-!
# Values

Names and literal values of the schema definition language. A part that was read from a text keeps
the place where it stood (`Span`); a part that was made has none. The place belongs to the part :
two parts are equal only if they also stood in the same place, which `DecidableEq Value` decides.

A literal used as an attribute says a text, a flag, or nothing (`Scalar`, `Value.scalar`).
-/

namespace RelationApi.Sdl

/-- A stretch of a text, in characters, from `start` up to and without `stop`. -/
structure Span where
  start : Nat
  stop : Nat
deriving DecidableEq

/-- A name, with its place if it was read. -/
structure Name where
  text : String
  span : Option Span := none
deriving DecidableEq

/-- What a literal says when it is read as an attribute. -/
inductive Scalar where
  | text (text : String)
  | flag (flag : Bool)
  | missing
deriving DecidableEq

namespace Scalar

/-- Whether the attribute counts as given : a text that is not empty, or a true flag. -/
def isGiven : Scalar → Bool
  | text t => !t.isEmpty
  | flag b => b
  | missing => false

/-- The attribute as it is written into a text. -/
def display : Scalar → String
  | text t => t
  | flag true => "True"
  | flag false => "False"
  | missing => "None"

end Scalar

/-- A literal value. Variables stand only in executable documents. -/
inductive Value where
  | variable (name : Name)
  | int (text : String) (span : Option Span)
  | float (text : String) (span : Option Span)
  | string (value : Scalar) (block : Bool) (span : Option Span)
  | boolean (value : Bool) (span : Option Span)
  | null (span : Option Span)
  | enum (value : Scalar) (span : Option Span)
  | list (items : List Value) (span : Option Span)
  | object (fields : List (Name × Value)) (span : Option Span)

namespace Value

/-- What the literal says as an attribute : texts, numbers and enum values their text, booleans a
flag, anything else nothing. -/
def scalar : Value → Scalar
  | .int t _ | .float t _ => .text t
  | .string v _ _ | .enum v _ => v
  | .boolean b _ => .flag b
  | .variable _ | .null _ | .list _ _ | .object _ _ => .missing

/-- A text that was made. -/
def ofText (t : String) : Value := string (.text t) false none

/-! ## Equality -/

mutual

/-- Whether two values are equal, places included. -/
def same : Value → Value → Bool
  | .variable n, .variable n' => n = n'
  | .int t s, .int t' s' => t = t' && s = s'
  | .float t s, .float t' s' => t = t' && s = s'
  | .string v b s, .string v' b' s' => v = v' && b = b' && s = s'
  | .boolean b s, .boolean b' s' => b = b' && s = s'
  | .null s, .null s' => s = s'
  | .enum v s, .enum v' s' => v = v' && s = s'
  | .list vs s, .list vs' s' => sameItems vs vs' && s = s'
  | .object fs s, .object fs' s' => sameFields fs fs' && s = s'
  | _, _ => false

/-- Whether two lists of values are equal. -/
def sameItems : List Value → List Value → Bool
  | [], [] => true
  | v :: vs, v' :: vs' => same v v' && sameItems vs vs'
  | _, _ => false

/-- Whether two lists of object fields are equal. -/
def sameFields : List (Name × Value) → List (Name × Value) → Bool
  | [], [] => true
  | (n, v) :: fs, (n', v') :: fs' => n = n' && same v v' && sameFields fs fs'
  | _, _ => false

end

mutual

/-- Two values are the same exactly if they are equal, places included. -/
theorem same_iff : ∀ a b : Value, same a b = true ↔ a = b
  | .variable _, b => by cases b <;> simp [same]
  | .int _ _, b => by cases b <;> simp [same]
  | .float _ _, b => by cases b <;> simp [same]
  | .string _ _ _, b => by cases b <;> simp [same, and_assoc]
  | .boolean _ _, b => by cases b <;> simp [same]
  | .null _, b => by cases b <;> simp [same]
  | .enum _ _, b => by cases b <;> simp [same]
  | .list vs _, b => by cases b <;> simp [same, sameItems_iff vs]
  | .object fs _, b => by cases b <;> simp [same, sameFields_iff fs]

theorem sameItems_iff : ∀ a b : List Value, sameItems a b = true ↔ a = b
  | [], b => by cases b <;> simp [sameItems]
  | v :: vs, b => by cases b <;> simp [sameItems, same_iff v, sameItems_iff vs]

theorem sameFields_iff : ∀ a b : List (Name × Value), sameFields a b = true ↔ a = b
  | [], b => by cases b <;> simp [sameFields]
  | (n, v) :: fs, b => by
    rcases b with _ | ⟨⟨n', v'⟩, fs'⟩ <;> simp [sameFields, same_iff v, sameFields_iff fs]

end

instance : DecidableEq Value := fun a b => decidable_of_iff _ (same_iff a b)

end Value

end RelationApi.Sdl
