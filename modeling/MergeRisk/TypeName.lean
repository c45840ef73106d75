import MergeRisk.Text.Cut

/-! Type names from source paths. -/

namespace MergeRisk.TypeName

/-- The source roots, in the order in which they are looked for. -/
def sourceRoots : List String :=
  ["src/main/java/", "src/test/java/", "src/main/kotlin/", "src/"]

/-- What follows the first root that occurs in a path. -/
def belowRoot (path : List Char) : List Char :=
  ((sourceRoots.findSome? fun root => Text.cut? root.toList path).map (·.2)).getD path

/-- The path without its extension, which has no slash. -/
def withoutExtension (path : List Char) : List Char :=
  match Text.splitLast? '.' path with
  | some (stem, extension) => if extension.contains '/' then path else stem
  | none => path

/-- The type that a source file declares by convention. -/
def ofPath (path : String) : String :=
  String.ofList ((withoutExtension (belowRoot path.toList)).map fun c => if c = '/' then '.' else c)

end MergeRisk.TypeName
