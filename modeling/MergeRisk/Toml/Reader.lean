import MergeRisk.Toml.Scalar

/-! Reading TOML documents, version 1.0. -/

namespace MergeRisk.Toml

/-- Keys have fewer steps, and values are nested less deep. -/
def depthLimit : Nat := 80

def isBare (c : Char) : Bool :=
  c.isAlphanum || c == '_' || c == '-'

/-- Read one step of a key. -/
def simpleKey? (source : List Char) : Option (String × List Char) :=
  match source with
  | c :: rest =>
    if c = '"' || c = '\x27' then do
      let (text, rest) ← lineString? (c :: rest)
      return (String.ofList text, rest)
    else
      let (text, rest) := (c :: rest).span isBare
      if text.isEmpty then none else some (String.ofList text, rest)
  | [] => none

/-- Read the steps of a key, with the blanks around them. -/
def steps? : (fuel : Nat) → List Char → Option (List String × List Char)
  | 0, _ => none
  | fuel + 1, source => do
    let (step, rest) ← simpleKey? (skipGap source)
    match skipGap rest with
    | '.' :: rest =>
      let (steps, rest) ← steps? fuel rest
      return (step :: steps, rest)
    | rest => return ([step], rest)

/-- Read a key: the path to its last step, and that step. -/
def key? (source : List Char) : Option (List String × String × List Char) := do
  let (steps, rest) ← steps? (source.length + 1) source
  guard (steps.length < depthLimit)
  return (steps.dropLast, ← steps.getLast?, rest)

mutual

/-- Read a value inside `depth` others. -/
def value? : (fuel depth : Nat) → List Char → Option (Toml × List Char)
  | 0, _, _ => none
  | fuel + 1, depth, source =>
    match source with
    | '[' :: rest => do
      guard (depth + 1 < depthLimit)
      let (items, rest) ← items? fuel (depth + 1) rest
      return (.array items, rest)
    | '{' :: rest => do
      guard (depth + 1 < depthLimit)
      let (pairs, rest) ← match skipGap rest with
        | '}' :: rest => some (⟨.header, []⟩, rest)
        | rest => pairs? fuel (depth + 1) ⟨.header, []⟩ rest
      return (pairs.value, rest)
    | source => simple? source

/-- Read the values of an array up to its end; the last may be followed by a comma. -/
def items? : (fuel depth : Nat) → List Char → Option (List Toml × List Char)
  | 0, _, _ => none
  | fuel + 1, depth, source =>
    match skipLines source.length source with
    | ']' :: rest => some ([], rest)
    | source => do
      let (item, rest) ← value? fuel depth source
      match skipLines rest.length rest with
      | ',' :: rest =>
        let (items, rest) ← items? fuel depth rest
        return (item :: items, rest)
      | ']' :: rest => return ([item], rest)
      | _ => none

/-- Read the pairs of an inline table up to its end into a table. -/
def pairs? : (fuel depth : Nat) → Table → List Char → Option (Table × List Char)
  | 0, _, _, _ => none
  | fuel + 1, depth, pairs, source => do
    let (path, key, rest) ← key? source
    let rest ← expect? '=' rest
    let (value, rest) ← value? fuel depth (skipGap rest)
    let pairs ← pairs.addValue path key value
    match skipGap rest with
    | ',' :: rest => pairs? fuel depth pairs rest
    | '}' :: rest => return (pairs, rest)
    | _ => none

end

/-- What was read so far: all tables, and the path of the one that takes the next values. -/
structure Document where
  root : Table := ⟨.header, []⟩
  current : List String := []

/-- Read a header after its first bracket. -/
def header? (document : Document) (source : List Char) : Option (Document × List Char) :=
  match source with
  | '[' :: rest => do
    let (path, key, rest) ← key? rest
    let rest ← Text.stripStart? [']', ']'] rest
    return (⟨← document.root.addRow path key, path ++ [key]⟩, ← lineEnd? rest)
  | rest => do
    let (path, key, rest) ← key? rest
    let rest ← expect? ']' rest
    return (⟨← document.root.addTable path key, path ++ [key]⟩, ← lineEnd? rest)

/-- Read a key and its value. -/
def pair? (document : Document) (source : List Char) : Option (Document × List Char) := do
  let (path, key, rest) ← key? source
  let rest ← expect? '=' rest
  let (value, rest) ← value? (2 * rest.length + 2) 0 (skipGap rest)
  let root ← document.root.change .implied (fun _ => true) (·.addValue path key value)
    document.current
  return ({ document with root := root }, ← lineEnd? rest)

/-- Read the lines of a document. -/
def lines? : (fuel : Nat) → Document → List Char → Option Document
  | 0, _, _ => none
  | fuel + 1, document, source =>
    match skipLines source.length source with
    | [] => some document
    | '[' :: rest => do
      let (document, rest) ← header? document rest
      lines? fuel document rest
    | source => do
      let (document, rest) ← pair? document source
      lines? fuel document rest

/-- Read a document; a byte order mark may come first. -/
def read? (source : String) : Option Toml := do
  let source := source.toList
  let source := (Text.stripStart? [Char.ofNat 0xFEFF] source).getD source
  let document ← lines? (source.length + 1) {} source
  return document.root.value

end MergeRisk.Toml
