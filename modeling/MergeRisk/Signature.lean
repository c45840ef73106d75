import MergeRisk.Failure
import MergeRisk.Text.Blank
import MergeRisk.Text.Cut

/-! Method signatures: an owning type, a method name and the parameter types. They are written
`owner.name(p1,p2)`; an analyzer writes `<owner: result name(p1,p2)>`. -/

namespace MergeRisk

namespace Signature

/-- The characters that the written form gives a meaning. -/
def isReserved (c : Char) : Bool :=
  c == '(' || c == ')' || c == ',' || c == ' '

/-- Owners and names are trimmed, not empty, and free of reserved characters. -/
def isIdentifier (text : String) : Bool :=
  text != "" && Text.trimmed text == text && !text.toList.any isReserved

/-- Parameter types are trimmed and not empty. -/
def isTypeText (text : String) : Bool :=
  text != "" && Text.trimmed text == text

end Signature

/-- A method, identified by its owner, name and parameter types. -/
@[ext] structure Signature where
  owner : String
  name : String
  params : List String
  owner_identifier : Signature.isIdentifier owner = true
  name_identifier : Signature.isIdentifier name = true
  params_types : params.all Signature.isTypeText = true
deriving DecidableEq, Repr

namespace Signature

/-- By owner, then name, then parameter types. -/
instance : Ord Signature :=
  ⟨compareLex (compareOn owner) (compareLex (compareOn name) (compareOn params))⟩

instance : Std.TransOrd Signature :=
  inferInstanceAs (Std.TransCmp
    (compareLex (compareOn owner) (compareLex (compareOn name) (compareOn params))))

instance : Std.LawfulEqOrd Signature where
  eq_of_compare {first second} same := by
    obtain ⟨sameOwner, sameName, sameParams⟩ :
        compare first.owner second.owner = .eq ∧ compare first.name second.name = .eq ∧
          compare first.params second.params = .eq := by
      simpa [compare, compareLex, compareOn, Ordering.then_eq_eq] using same
    exact Signature.ext (Std.LawfulEqOrd.eq_of_compare sameOwner)
      (Std.LawfulEqOrd.eq_of_compare sameName) (Std.LawfulEqOrd.eq_of_compare sameParams)

/-- The written form `owner.name(p1,p2)`. -/
def text (signature : Signature) : String :=
  signature.owner ++ "." ++ signature.name ++ "(" ++ Text.joined "," signature.params ++ ")"

/-- The display form, with parameter types cut to what follows their last dot. -/
def simplified (signature : Signature) : String :=
  let params := signature.params.map fun param => String.ofList (Text.afterLast '.' param.toList)
  signature.owner ++ "." ++ signature.name ++ "(" ++ Text.joined ", " params ++ ")"

/-- Why something is no signature. -/
inductive Fault where
  /-- The text has neither of the two written forms. -/
  | unreadable (text : String)
  /-- The owner or the name is empty or has a reserved character. -/
  | notIdentifier (owner name : String)
  | emptyParameter (owner name : String)
deriving DecidableEq, Repr

def Fault.reason : Fault → String
  | unreadable text => text
  | notIdentifier owner name =>
    owner ++ "." ++ name ++ ": owner and name must be non-empty identifiers"
  | emptyParameter owner name => owner ++ "." ++ name ++ ": empty parameter type"

def Fault.failure (fault : Fault) : Failure :=
  .signature fault.reason

/-- A signature from its parts, each trimmed first. -/
def ofParts (owner name : String) (params : List String) : Except Fault Signature :=
  let owner := Text.trimmed owner
  let name := Text.trimmed name
  let params := params.map Text.trimmed
  if ownerOk : isIdentifier owner = true then
    if nameOk : isIdentifier name = true then
      if paramsOk : params.all isTypeText = true then
        .ok ⟨owner, name, params, ownerOk, nameOk, paramsOk⟩
      else .error (.emptyParameter owner name)
    else .error (.notIdentifier owner name)
  else .error (.notIdentifier owner name)

/-- Split `head(p1,p2)` at its first parenthesis; parameters left empty are dropped. -/
def splitCall? (call : List Char) : Option (List Char × List String) := do
  let (head, rest) ← Text.splitFirst? '(' call
  let inner ← Text.stripEnd? [')'] rest
  let params := (inner.splitOn ',').map Text.trim |>.filter (!·.isEmpty)
  return (head, params.map String.ofList)

/-- Read `owner.name(p1,p2)`; the name follows the last dot before the parenthesis. -/
def readCanonical (source : List Char) : Except Fault Signature :=
  match splitCall? source with
  | none => .error (.unreadable (String.ofList source))
  | some (head, params) =>
    match Text.splitLast? '.' head with
    | none => .error (.unreadable (String.ofList source))
    | some (owner, name) => ofParts (String.ofList owner) (String.ofList name) params

/-- Read the inside of `<owner: result name(p1,p2)>`; the name is the last word before the
parenthesis. -/
def readAnalyzer (inner source : List Char) : Except Fault Signature :=
  match Text.splitFirst? ':' inner with
  | none => .error (.unreadable (String.ofList source))
  | some (owner, rest) =>
    match splitCall? (Text.trim rest) with
    | none => .error (.unreadable (String.ofList source))
    | some (head, params) =>
      match (Text.words head).getLast? with
      | none => .error (.unreadable (String.ofList source))
      | some name => ofParts (String.ofList owner) (String.ofList name) params

/-- The inside of a text in angle brackets. -/
def bracketed? (source : List Char) : Option (List Char) := do
  let rest ← Text.stripStart? ['<'] source
  Text.stripEnd? ['>'] rest

/-- Read either written form, ignoring blanks around it. -/
def read (source : String) : Except Fault Signature :=
  let source := Text.trim source.toList
  match bracketed? source with
  | some inner => readAnalyzer inner source
  | none => readCanonical source

end Signature

end MergeRisk
