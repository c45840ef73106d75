import MergeRisk.Text.Utf8

/-! Bytes in hexadecimal, two digits each. -/

namespace MergeRisk.Text

/-- The value of a hexadecimal digit of either case. -/
def hexDigit? (c : Char) : Option Nat :=
  if '0' ≤ c ∧ c ≤ '9' then some (c.toNat - '0'.toNat)
  else if 'a' ≤ c ∧ c ≤ 'f' then some (c.toNat - 'a'.toNat + 10)
  else if 'A' ≤ c ∧ c ≤ 'F' then some (c.toNat - 'A'.toNat + 10)
  else none

def isHexDigit (c : Char) : Bool := (hexDigit? c).isSome

/-- The lower-case digits of a byte. -/
def hexByte (byte : UInt8) : List Char :=
  [Nat.digitChar (byte.toNat / 16), Nat.digitChar (byte.toNat % 16)]

/-- The bytes that pairs of digits stand for; what is no pair of digits ends them. -/
def hexBytes : List Char → Bytes
  | high :: low :: text =>
    match hexDigit? high, hexDigit? low with
    | some high, some low => UInt8.ofNat (16 * high + low) :: hexBytes text
    | _, _ => []
  | _ => []

def hexText (bytes : Bytes) : String :=
  String.ofList (bytes.flatMap hexByte)

end MergeRisk.Text
