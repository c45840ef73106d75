import MergeRisk.Decimal
import MergeRisk.Json.Reader

/-! Documents that can be kept as values before it is known what they describe: every literal has a
text, every number stays finite when it is rounded in steps, and the nesting is bounded. -/

namespace MergeRisk.Json

/-- Nesting must stay below this depth. -/
def depthLimit : Nat := 128

mutual

/-- Whether a document can be kept below `depth` levels of nesting. -/
def isKept (depth : Nat) : Json → Bool
  | .natural value => (Decimal.ofNat value).isFiniteInSteps
  | .decimal literal => (Decimal.ofLiteral literal.toList).isFiniteInSteps
  | .string text => text.isSome
  | .array items => depth + 1 < depthLimit && areKept (depth + 1) items
  | .object fields => depth + 1 < depthLimit && fieldsKept (depth + 1) fields
  | .null => true
  | .bool _ => true

def areKept (depth : Nat) : List Json → Bool
  | [] => true
  | item :: items => item.isKept depth && areKept depth items

def fieldsKept (depth : Nat) : List (Option String × Json) → Bool
  | [] => true
  | (key, value) :: fields => key.isSome && value.isKept depth && fieldsKept depth fields

end

/-- Read a document that can be kept. -/
def readKept? (source : String) : Option Json := do
  let document ← read? source
  guard (document.isKept 0)
  return document

end MergeRisk.Json
