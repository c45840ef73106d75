/-! The ways an analysis can fail, and the message each shows. -/

namespace MergeRisk

/-- Why a step of the analysis has no result. -/
inductive Failure where
  /-- A file or directory could not be read or written. -/
  | io (reason : String)
  /-- The settings do not allow the analysis. -/
  | settings (reason : String)
  /-- The repository has no answer. -/
  | repository (reason : String)
  /-- A text is not in its format. -/
  | format (reason : String)
  /-- A method signature is malformed. -/
  | signature (reason : String)
  /-- A JSON document does not describe the expected value. -/
  | document (reason : String)
  /-- A settings file is not a TOML document for the settings. -/
  | toml (reason : String)
  | fileNotFound (path : String)
  /-- The class has neither the wanted method nor a `main`. -/
  | entryPointNotFound (owner method : String)
  /-- One of the two sets of changed methods is empty. -/
  | noChanges
  /-- No pair of changed methods has a common ancestor. -/
  | noCommonAncestor
deriving DecidableEq, Repr

namespace Failure

def message : Failure → String
  | io reason => "IO error: " ++ reason
  | settings reason => "configuration error: " ++ reason
  | repository reason => "git error: " ++ reason
  | format reason => "parse error: " ++ reason
  | signature reason => "invalid method signature: " ++ reason
  | document reason => "serialization error: " ++ reason
  | toml reason => "TOML parse error: " ++ reason
  | fileNotFound path => "file not found: " ++ path
  | entryPointNotFound owner method =>
    "entry point not found: no method '" ++ method ++ "' or 'main' on " ++ owner
  | noChanges => "left and right changed method sets must both be non-empty"
  | noCommonAncestor => "no common ancestor found"

/-- Whether the failure concerns one merge only, so that the next merge can still be analysed. -/
def concernsOneMerge : Failure → Bool
  | entryPointNotFound .. | noChanges | noCommonAncestor => true
  | _ => false

end Failure

end MergeRisk
