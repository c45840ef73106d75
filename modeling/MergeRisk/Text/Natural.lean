import MergeRisk.Text.Cut

/-! Natural numbers in decimal: ASCII digits only, without separators. -/

namespace MergeRisk.Text

/-- The value of an ASCII digit. -/
def digit? (c : Char) : Option Nat :=
  if '0' ≤ c ∧ c ≤ '9' then some (c.toNat - '0'.toNat) else none

def isDigit (c : Char) : Bool := (digit? c).isSome

/-- Read further digits after a value. -/
def digitsFrom? : Nat → List Char → Option Nat
  | value, [] => some value
  | value, c :: text => (digit? c).bind fun digit => digitsFrom? (10 * value + digit) text

/-- Read one or more ASCII digits. -/
def digits? (text : List Char) : Option Nat :=
  if text.isEmpty then none else digitsFrom? 0 text

/-- Read digits, after a plus sign if there is one, up to a greatest value. -/
def natural? (limit : Nat) (text : List Char) : Option Nat :=
  (digits? ((stripStart? ['+'] text).getD text)).filter (· ≤ limit)

/-- The greatest 32-bit number. -/
def limit32 : Nat := 4294967295

/-- The greatest 64-bit number. -/
def limit64 : Nat := 18446744073709551615

end MergeRisk.Text
