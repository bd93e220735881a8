/-!
# Hexadecimal numbers

Numbers in base sixteen with a least number of digits, in either case.
-/

namespace RelationApi.Text

/-- The number in base sixteen, with at least `width` digits, letters in lower case. -/
def hexLower (width n : Nat) : List Char :=
  (Nat.toDigits 16 n).leftpad width '0'

/-- The number in base sixteen, with at least `width` digits, letters in upper case. -/
def hexUpper (width n : Nat) : List Char :=
  (hexLower width n).map Char.toUpper

/-- The value of a hexadecimal digit. -/
def hexDigit? (c : Char) : Option Nat :=
  if '0' ≤ c ∧ c ≤ '9' then some (c.toNat - '0'.toNat)
  else if 'a' ≤ c ∧ c ≤ 'f' then some (c.toNat - 'a'.toNat + 10)
  else if 'A' ≤ c ∧ c ≤ 'F' then some (c.toNat - 'A'.toNat + 10)
  else none

/-- The value of a run of hexadecimal digits, unless some character is none. -/
def hexValue? (cs : List Char) : Option Nat :=
  cs.foldl (fun n c => n.bind fun v => (hexDigit? c).map (v * 16 + ·)) (some 0)

end RelationApi.Text
