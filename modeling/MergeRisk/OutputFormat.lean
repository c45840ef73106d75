import MergeRisk.Text.Lowercase

/-! The formats of the command line's output. -/

namespace MergeRisk

inductive OutputFormat where
  | text
  | json
deriving DecidableEq, Repr, Inhabited

namespace OutputFormat

def name : OutputFormat → String
  | text => "text"
  | json => "json"

def ofName? : String → Option OutputFormat
  | "text" => some text
  | "json" => some json
  | _ => none

/-- Read a format's name in any letter case; an unknown name comes back in lower case. -/
def read (source : String) : Except String OutputFormat :=
  let name := Text.lowercase source
  match ofName? name with
  | some format => .ok format
  | none => .error name

/-- What is said about an unknown name. -/
def unknown (name : String) : String :=
  "unknown output format: " ++ name

end OutputFormat

end MergeRisk
