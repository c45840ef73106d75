import MergeRisk.Settings
import MergeRisk.Toml.Reader

/-! Settings files. A section is a table; it may also be an array of its settings in their order, of
which further elements are ignored, and a time counts as a table without settings. -/

namespace MergeRisk

namespace Toml

/-- The settings of a section, by name or by position. -/
def settings? (names : List String) : Toml → Option (List (Option Toml))
  | .table entries => some (names.map fun name => entries.lookup name)
  | .array items => some (names.zipIdx.map fun (_, position) => items[position]?)
  | .time _ => some (names.map fun _ => none)
  | _ => none

def text? : Toml → Option String
  | .string text => some text
  | _ => none

def boolean? : Toml → Option Bool
  | .boolean value => some value
  | _ => none

def natural? : Toml → Option Nat
  | .integer (.ofNat value) => some value
  | _ => none

/-- A setting with a default. -/
def defaulted {α : Type} (default : α) (decode : Toml → Option α) : Option Toml → Option α
  | none => some default
  | some value => decode value

/-- A setting without a default. -/
def optional {α : Type} (decode : Toml → Option α) : Option Toml → Option (Option α)
  | none => some none
  | some value => (decode value).map some

end Toml

open Toml (defaulted optional)

/-- An array of the analysis settings must give the first one. -/
def AnalysisSettings.ofToml? (source : Toml) : Option AnalysisSettings := do
  if let .array [] := source then none
  let [entryClass, entryMethod, maxDepth] ←
    source.settings? ["entry_class", "entry_method", "max_depth"] | none
  let standard : AnalysisSettings := {}
  return ⟨← optional Toml.text? entryClass,
    ← defaulted standard.entryMethod Toml.text? entryMethod,
    ← defaulted standard.maxDepth Toml.natural? maxDepth⟩

def ReportSettings.ofToml? (source : Toml) : Option ReportSettings := do
  let [output, separator, compact] ←
    source.settings? ["output", "separator", "compact"] | none
  let standard : ReportSettings := {}
  return ⟨← defaulted standard.output Toml.text? output,
    ← defaulted standard.separator Toml.text? separator,
    ← defaulted standard.compact Toml.boolean? compact⟩

def Settings.ofToml? (document : Toml) : Option Settings := do
  let [analysis, report] ← document.settings? ["analysis", "report"] | none
  return ⟨← defaulted {} AnalysisSettings.ofToml? analysis,
    ← defaulted {} ReportSettings.ofToml? report⟩

/-- Read and check settings. -/
def Settings.read (source : String) : Except Failure Settings :=
  match (Toml.read? source).bind ofToml? with
  | some settings => settings.checked
  | none => .error (.toml "invalid settings")

end MergeRisk
