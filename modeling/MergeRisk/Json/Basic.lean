import MergeRisk.Text.Natural

/-! JSON documents as data. Fields keep their order and their repeats. -/

namespace MergeRisk

/-- A JSON document. The text of a string or of a key is missing when one of its escapes names half
of a surrogate pair: such a literal is well formed and denotes no text. -/
inductive Json where
  | null
  | bool (value : Bool)
  /-- A number without sign, fraction and exponent. -/
  | natural (value : Nat)
  /-- Any other number, as written. -/
  | decimal (literal : String)
  | string (text : Option String)
  | array (items : List Json)
  | object (fields : List (Option String × Json))

namespace Json

instance : Inhabited Json := ⟨null⟩

def text (text : String) : Json :=
  .string (some text)

def record (fields : List (String × Json)) : Json :=
  .object (fields.map fun (key, value) => (some key, value))

def text? : Json → Option String
  | .string text => text
  | _ => none

def bool? : Json → Option Bool
  | .bool value => some value
  | _ => none

/-- A natural number of at most 32 bits. -/
def natural32? : Json → Option Nat
  | .natural value => if value ≤ Text.limit32 then some value else none
  | _ => none

def list? {α : Type} (decode : Json → Option α) : Json → Option (List α)
  | .array items => items.mapM decode
  | _ => none

/-- The value of a field that occurs once at most; `none` if it is missing. -/
def field? (fields : List (Option String × Json)) (name : String) : Option (Option Json) :=
  match fields.filter (·.1 == some name) with
  | [] => some none
  | [(_, value)] => some (some value)
  | _ => none

/-- The values of a record's fields, which may also be listed in an array in their order, without
some of the last. Other fields are ignored, but every key must be text. -/
def fields? (names : List String) : Json → Option (List (Option Json))
  | .object fields => if fields.all (·.1.isSome) then names.mapM (field? fields) else none
  | .array items =>
    if items.length ≤ names.length then
      some (items.map some ++ List.replicate (names.length - items.length) none)
    else none
  | _ => none

/-- A field that must be there. -/
def required {α : Type} (decode : Json → Option α) (value : Option Json) : Option α :=
  value.bind decode

/-- A field with a default. -/
def defaulted {α : Type} (default : α) (decode : Json → Option α) : Option Json → Option α
  | none => some default
  | some value => decode value

/-- A field that may be missing or null. -/
def optional {α : Type} (decode : Json → Option α) : Option Json → Option (Option α)
  | none => some none
  | some .null => some none
  | some value => (decode value).map some

/-- A name from a fixed choice: a string, or an object whose one field of that name is null. -/
def choice? : Json → Option String
  | .string text => text
  | .object [(name, .null)] => name
  | _ => none

end Json

end MergeRisk
