import MergeRisk.Text.Natural

/-! Numbers in decimal notation, and whether a double can hold their magnitude. -/

namespace MergeRisk

/-- A number as written, without its sign: the digits before and after the point, and the power of
ten that follows them. -/
structure Decimal where
  whole : List Char
  fraction : List Char
  exponent : Int
deriving DecidableEq, Repr

namespace Decimal

/-- The power of ten written after the digits, mark included. -/
def exponentOf : List Char → Int
  | _ :: '-' :: digits => -((Text.digits? digits).getD 0 : Nat)
  | _ :: '+' :: digits => ((Text.digits? digits).getD 0 : Nat)
  | _ :: digits => ((Text.digits? digits).getD 0 : Nat)
  | [] => 0

/-- The parts of a number with digits before its point. -/
def ofLiteral (literal : List Char) : Decimal :=
  let unsigned := (Text.stripStart? ['-'] literal).getD literal
  let (whole, rest) := unsigned.span Text.isDigit
  match rest with
  | '.' :: rest =>
    let (fraction, rest) := rest.span Text.isDigit
    ⟨whole, fraction, exponentOf rest⟩
  | rest => ⟨whole, [], exponentOf rest⟩

def ofNat (value : Nat) : Decimal :=
  ⟨Nat.toDigits 10 value, [], 0⟩

/-- The least magnitude that rounds past the greatest double. -/
def doubleLimit : Nat := Nat.pow 2 1024 - Nat.pow 2 970

/-- The greatest power of ten within the doubles. -/
def greatestPower : Nat := 308

/-- Whether the double nearest to a number is finite. -/
def isFinite (number : Decimal) : Bool :=
  let digits := (number.whole ++ number.fraction).dropWhile (· == '0')
  let exponent := number.exponent - number.fraction.length
  let size := (digits.length : Int) + exponent
  if digits.isEmpty || size ≤ greatestPower then true
  else if greatestPower + 1 < size then false
  else
    let value := (Text.digits? digits).getD 0
    match exponent with
    | .ofNat power => value * Nat.pow 10 power < doubleLimit
    | .negSucc power => value < doubleLimit * Nat.pow 10 (power + 1)

/-! ### Rounding in steps

A quick reading keeps the leading digits that fit 64 bits, rounds them to a double, and multiplies
by a power of ten that is rounded on its own. -/

/-- Append digits as long as the value fits 64 bits; the value and the digits left over. -/
def absorb (value : Nat) : List Char → Nat × List Char
  | [] => (value, [])
  | c :: digits =>
    let next := 10 * value + (Text.digit? c).getD 0
    if next ≤ Text.limit64 then absorb next digits else (value, c :: digits)

/-- The leading digits of a number and the power of ten that belongs to them. Digits left over
before the point count as zeros, those after it do not count. -/
def leading (number : Decimal) : Nat × Int :=
  let (value, dropped) := absorb 0 number.whole
  let (value, ignored) := absorb value number.fraction
  (value, number.exponent + dropped.length - (number.fraction.length - ignored.length : Nat))

/-- The nearest number of at most 53 bits, trailing zeros apart; of two, the one with the even
last bit. -/
def nearest (value : Nat) : Nat :=
  let unit := Nat.pow 2 (value.log2 + 1 - 53)
  let kept := value / unit
  let rest := value % unit
  (if unit < 2 * rest ∨ (2 * rest = unit ∧ kept % 2 = 1) then kept + 1 else kept) * unit

/-- Whether a number stays finite when it is rounded in steps. -/
def isFiniteInSteps (number : Decimal) : Bool :=
  match number.leading with
  | (value, .ofNat power) =>
    value == 0 || power ≤ greatestPower && nearest value * nearest (Nat.pow 10 power) < doubleLimit
  | (_, .negSucc _) => true

end MergeRisk.Decimal
