import RelationApi.Fault
import RelationApi.Registry
import RelationApi.Settings.Key

/-!
# Settings data

Settings come as data without a fixed shape : texts, whole numbers, flags, lists and mappings. Data
that says nothing (`isGiven`) stands for its absence. A mapping may name a key more than once; the
last value counts (`get?`, `distinct`).
-/

namespace RelationApi

/-- Data of any shape. Its numbers are whole : a fraction is left out, since of a number nothing is
asked but whether it is zero. -/
inductive Data where
  | null
  | flag (flag : Bool)
  /-- A whole number. -/
  | number (value : Int)
  | text (text : String)
  | list (items : List Data)
  | mapping (entries : List (Key × Data))

namespace Data

/-- Whether the data says anything : it is neither null, false, zero nor empty. -/
def isGiven : Data → Bool
  | null => false
  | flag b => b
  | number n => n ≠ 0
  | text t => !t.isEmpty
  | list xs => !xs.isEmpty
  | mapping es => !es.isEmpty

/-- The value of a name in a mapping. -/
def get? (es : List (Key × Data)) (name : String) : Option Data :=
  (es.reverse.find? fun e => e.1.isText name).map Prod.snd

/-- Put an entry among others. A key that is there already stays as it was first written. -/
def put (r : Registry Key (Key × Data)) (e : Key × Data) : Registry Key (Key × Data) :=
  r.insert e.1.identity (((r.find? e.1.identity).map Prod.fst).getD e.1, e.2)

/-- The entries with one for each key, in the order of the keys' first occurrence. -/
def distinct (es : List (Key × Data)) : List (Key × Data) :=
  (es.foldl put .empty).values

/-- Whether the data is the given text. -/
def isText (t : String) : Data → Bool
  | text t' => t' = t
  | _ => false

/-- Whether some stretch of the text is `part`. -/
def occursIn (part : List Char) : List Char → Bool
  | [] => part.isEmpty
  | c :: cs => part.isPrefixOf (c :: cs) || occursIn part cs

/-- Whether a name is among the data : an item of a list, a part of a text, a key of a mapping. -/
def hasName (name : String) : Data → Except SettingsFault Bool
  | list xs => .ok (xs.any (isText name))
  | text t => .ok (occursIn name.toList t.toList)
  | mapping es => .ok (get? es name).isSome
  | null | flag _ | number _ => .error .excludeNotContainer

/-- The key that data stands for. -/
def toKey : Data → Except SettingsFault Key
  | null => .ok .null
  | flag b => .ok (.flag b)
  | number n => .ok (.number n)
  | text t => .ok (.text t)
  | list _ | mapping _ => .error .keyNotSimple

/-- The data that a key stands for. -/
def ofKey : Key → Data
  | .null => null
  | .flag b => flag b
  | .number n => number n
  | .text t => text t

/-- The two items of a pair. -/
def pair : Data → Except SettingsFault (Data × Data)
  | list [a, b] => .ok (a, b)
  | text t =>
    match t.toList with
    | [a, b] => .ok (text (String.ofList [a]), text (String.ofList [b]))
    | _ => .error .valuesNotPairs
  | mapping es =>
    match distinct es with
    | [a, b] => .ok (ofKey a.1, ofKey b.1)
    | _ => .error .valuesNotPairs
  | list _ => .error .valuesNotPairs
  | null | flag _ | number _ => .error .valuesNotIterable

/-- The entries that the data stands for where a mapping is wanted : those of a mapping, or a list
of pairs. -/
def entries : Data → Except SettingsFault (List (Key × Data))
  | mapping es => .ok es
  | list xs => xs.mapM fun x => do
    let (k, v) ← pair x
    return (← toKey k, v)
  | text _ => .error .valuesNotPairs
  | null | flag _ | number _ => .error .valuesNotIterable

end Data

end RelationApi
