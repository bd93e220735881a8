import RelationApi.Text.Quoted

/-!
# Keys

The keys of a mapping are texts, numbers, flags or null. A flag is the same key as the number zero
or one (`Key.identity`), although it is written as a flag. Texts have an order, and so have numbers
and flags; keys of different sorts cannot be compared (`Key.sorted?`).
-/

namespace RelationApi

/-- A key of a mapping, as it is written. -/
inductive Key where
  | null
  | flag (flag : Bool)
  | number (value : Int)
  | text (text : String)
deriving DecidableEq

namespace Key

/-- What tells the key apart from others : a flag counts as a number. -/
def identity : Key → Key
  | flag b => number (if b then 1 else 0)
  | k => k

/-- Whether the key is the given text. -/
def isText (t : String) (k : Key) : Bool := k = text t

/-- Whether the key is one of the given texts. -/
def isOneOf (texts : List String) (k : Key) : Bool := texts.any fun t => k.isText t

/-- The key as messages show it. -/
def display : Key → String
  | null => "None"
  | flag b => if b then "True" else "False"
  | number n => toString n
  | text t => Text.quoted t

/-- The keys as messages show them, in square brackets. -/
def displayAll (ks : List Key) : String :=
  "[" ++ ", ".intercalate (ks.map display) ++ "]"

/-! ## Order -/

/-- Whether two keys can be compared : both are texts, or both are numbers or flags. -/
def isComparable (a b : Key) : Bool :=
  match a.identity, b.identity with
  | text _, text _ | number _, number _ => true
  | _, _ => false

/-- Whether a key comes before another, or is it : texts by their characters, numbers by value. -/
def precedes (a b : Key) : Bool :=
  match a.identity, b.identity with
  | text s, text t => !(t < s)
  | number m, number n => m ≤ n
  | _, _ => false

/-- The keys in order, if they can all be compared; a single key needs no comparison. -/
def sorted? : List Key → Option (List Key)
  | [] => some []
  | k :: ks => if ks.all k.isComparable then some ((k :: ks).mergeSort precedes) else none

end Key

end RelationApi
