/-! TOML values, and the tables that the lines of a document build up. -/

namespace MergeRisk

/-- A TOML value. Floats and times are kept as written, for nothing reads their value. -/
inductive Toml where
  | string (text : String)
  | integer (value : Int)
  | float (literal : String)
  | boolean (value : Bool)
  | time (literal : String)
  | array (items : List Toml)
  | table (entries : List (String × Toml))

namespace Toml

instance : Inhabited Toml := ⟨table []⟩

/-- How a table came to be, which decides who may still add to it. -/
inductive Origin where
  /-- By its own header. -/
  | header
  /-- As a step of another table's header. -/
  | implied
  /-- As a step of a dotted key. -/
  | dotted
deriving DecidableEq, Repr

/-- A part of a document under construction. -/
inductive Node where
  | leaf (value : Toml)
  | table (origin : Origin) (entries : List (String × Node))
  /-- The tables of an array of tables, the latest last. -/
  | tables (rows : List (List (String × Node)))

/-- A table under construction. -/
structure Table where
  origin : Origin
  entries : List (String × Node)

/-- Put a node under a key, in the place of the key's old node if there is one. -/
def setEntry (key : String) (node : Node) : List (String × Node) → List (String × Node)
  | [] => [(key, node)]
  | (name, old) :: rest =>
    if name = key then (key, node) :: rest else (name, old) :: setEntry key node rest

/-- Follow a path from a table and change the table at its end. Tables missing on the way are made
with the given origin; an array of tables stands for its latest table. -/
def Table.change (missing : Origin) (mayEnter : Origin → Bool) (update : Table → Option Table) :
    (path : List String) → Table → Option Table
  | [], parent => update parent
  | key :: path, parent =>
    match parent.entries.lookup key with
    | none => do
      let child ← Table.change missing mayEnter update path ⟨missing, []⟩
      return { parent with entries := parent.entries ++ [(key, .table child.origin child.entries)] }
    | some (.leaf _) => none
    | some (.table origin entries) => do
      guard (mayEnter origin)
      let child ← Table.change missing mayEnter update path ⟨origin, entries⟩
      return { parent with
        entries := setEntry key (.table child.origin child.entries) parent.entries }
    | some (.tables rows) => do
      let latest ← rows.getLast?
      let child ← Table.change missing mayEnter update path ⟨.header, latest⟩
      return { parent with
        entries := setEntry key (.tables (rows.dropLast ++ [child.entries])) parent.entries }

/-- Add a value under a key that is not in use yet. -/
def Table.addLeaf (key : String) (value : Toml) (parent : Table) : Option Table :=
  match parent.entries.lookup key with
  | some _ => none
  | none => some { parent with entries := parent.entries ++ [(key, .leaf value)] }

/-- Add a value under a dotted key. Its last step must stand in a table that dotted keys made, or in
the current table if it is the only step. -/
def Table.addValue (path : List String) (key : String) (value : Toml) (root : Table) :
    Option Table :=
  root.change .dotted (· != .header)
    (fun target =>
      if (target.origin == .dotted) == path.isEmpty then none else target.addLeaf key value) path

/-- Start a table by its header; a table that was only a step of other headers is taken over. -/
def Table.addTable (path : List String) (key : String) (root : Table) : Option Table :=
  root.change .implied (fun _ => true)
    (fun parent =>
      match parent.entries.lookup key with
      | none => some { parent with entries := parent.entries ++ [(key, .table .header [])] }
      | some (.table .implied entries) =>
        some { parent with entries := setEntry key (.table .header entries) parent.entries }
      | some _ => none) path

/-- Start a further table of an array of tables. -/
def Table.addRow (path : List String) (key : String) (root : Table) : Option Table :=
  root.change .implied (fun _ => true)
    (fun parent =>
      match parent.entries.lookup key with
      | none => some { parent with entries := parent.entries ++ [(key, .tables [[]])] }
      | some (.tables rows) =>
        some { parent with entries := setEntry key (.tables (rows ++ [[]])) parent.entries }
      | some _ => none) path

mutual

/-- The value of a finished part. -/
def Node.value : Node → Toml
  | .leaf value => value
  | .table _ entries => .table (values entries)
  | .tables rows => .array (rowValues rows)

def values : List (String × Node) → List (String × Toml)
  | [] => []
  | (key, node) :: rest => (key, node.value) :: values rest

def rowValues : List (List (String × Node)) → List Toml
  | [] => []
  | row :: rows => .table (values row) :: rowValues rows

end

def Table.value (root : Table) : Toml :=
  .table (values root.entries)

end Toml

end MergeRisk
