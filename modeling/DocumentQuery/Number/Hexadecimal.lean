/-!
# Hexadecimal digits

Digits are written in lower case and read in either case.
-/

namespace DocumentQuery.Hexadecimal

/-- The digit of a number below sixteen. -/
def digit (number : Nat) : Char := Nat.digitChar number

/-- The value of a digit. -/
def value? (c : Char) : Option Nat :=
  if '0' ≤ c ∧ c ≤ '9' then some (c.toNat - '0'.toNat)
  else if 'a' ≤ c ∧ c ≤ 'f' then some (c.toNat - 'a'.toNat + 10)
  else if 'A' ≤ c ∧ c ≤ 'F' then some (c.toNat - 'A'.toNat + 10)
  else none

end DocumentQuery.Hexadecimal
