import MergeRisk.Repository.Basic

/-! The files in which a repository keeps its references and their logs, by their paths in its own
directory. -/

namespace MergeRisk.Repository

open Text (Bytes)

/-- Where the references are that are kept together. -/
def listPath : String := "packed-refs"

/-- The directory of the logs. -/
def logDirectory : String := "logs/"

/-- Where the configuration is. -/
def settingsPath : String := "config"

/-- The configuration of a new repository. -/
def settingsText : String :=
  "[core]\n\tbare = false\n\trepositoryformatversion = 0\n\tfilemode = true\n" ++
    "\tlogallrefupdates = true\n"

/-- The files that a new repository has, whatever it holds. -/
def standardFiles : List (String × String) :=
  [(settingsPath, settingsText),
    ("description",
      "Unnamed repository; edit this file 'description' to name the repository.\n"),
    ("hooks/README.sample",
      "#!/bin/sh\n#\n# Place appropriately named executable hook scripts into this directory\n" ++
      "# to intercept various actions that git takes.  See `git help hooks` for\n" ++
      "# more information.\n"),
    ("info/exclude",
      "# File patterns to ignore; see `git help ignore` for more information.\n" ++
      "# Lines that start with '#' are comments.\n")]

/-- The directories of a new repository. -/
def standardDirectories : List String :=
  ["hooks", "info", "objects/info", "objects/pack", "refs/heads", "refs/tags"]

/-- The files of a repository other than its objects. -/
def files (repository : Repository) : List (String × String) :=
  standardFiles ++ repository.references.map (fun (name, reference) => (name, reference.text)) ++
    repository.logs.map fun (name, log) => (logDirectory ++ name, LogEntry.logText log)

/-- The characters of a file. -/
def fileText (content : Bytes) : List Char :=
  (Text.decodeLossy content).toList

/-- The references and logs that files hold. A reference in a file of its own counts before a listed
one. -/
def ofFiles (files : List (String × Bytes)) : Repository :=
  let alone := files.filterMap fun (path, content) => do
    guard (Reference.isName path)
    return (path, ← Reference.read? (fileText content))
  let listed := ((files.lookup listPath).map fun content =>
    Reference.readList (fileText content)).getD []
  { references := alone ++ listed.filter fun (name, _) => !alone.any (·.1 == name)
    logs := files.filterMap fun (path, content) => do
      let name ← Text.stripStart? logDirectory.toList path.toList
      return (String.ofList name, LogEntry.readLog (fileText content)) }

/-- Add the objects of one repository, and its time, to the references of another. -/
def withObjects (repository store : Repository) : Repository :=
  { repository with commits := store.commits, others := store.others, now := store.now }

/-- The path that a file gives in place of a repository's own directory. -/
def linkTarget? (content : Bytes) : Option String := do
  let text := Reference.trimEnd (fileText content)
  let target ← Text.stripStart? "gitdir:".toList text
  guard (!target.isEmpty)
  return String.ofList ((target.dropWhile Reference.isSpace).map fun c => if c = '\\' then '/' else c)

end MergeRisk.Repository
