import AnnexCatalog.Git.Location
import AnnexCatalog.Git.Repository

/-! # The log store of a repository

Metadata logs are files on a branch, whose paths end in a suffix after the key; what else lies on
the branch is passed over, and so is a log whose content is lost. Revisions are commits. The items
are located by the index and the working tree.
-/

namespace AnnexCatalog.Git

/-- A repository and its working tree, with the branch and the suffix of its logs. -/
structure Source where
  /-- Whether git can be started. -/
  installed : Bool := true
  repository : Repository
  tree : WorkTree
  branch : String
  suffix : String

/-- The answer of git to a command: `none` where it reports failure. -/
def run {α : Type} (installed : Bool) (command : String) (answer : Option α) : Except Fault α :=
  if !installed then .error (.spawn command)
  else match answer with
    | some value => .ok value
    | none => .error (.failed command 128)

/-- A revision that git would not take for one is refused. -/
def checkRevision (revision : String) : Except Fault Unit :=
  if revision.isEmpty ∨ revision.toList.head? = some '-' then .error (.missingRef revision)
  else .ok ()

namespace Source

def name : String := "git"

def currentRevision (source : Source) : Except Fault String := do
  let reference := "refs/heads/" ++ source.branch
  let name ← run source.installed
    ("git rev-parse --verify --quiet " ++ reference ++ "^\x7bcommit\x7d")
    (some (source.repository.branches.get? source.branch))
  match name with
  | some name => return name
  | none => throw (.missingRef reference)

/-- The keys of the logs at a revision, each with the object that holds the log. -/
def logEntries (source : Source) (revision : String) : Except Fault (List (String × String)) := do
  checkRevision revision
  let commit ← run source.installed ("git ls-tree -r -z --full-tree " ++ revision)
    (source.repository.revision? revision)
  return (Repository.treeEntries commit.tree).filterMap fun entry =>
    if entry.kind = "blob" then
      (logKey? source.suffix entry.path).map fun key => (key, entry.object)
    else none

/-- The logs that objects hold. -/
def readLogs (source : Source) (entries : List (String × String)) : List Blob :=
  entries.filterMap fun (key, object) =>
    (source.repository.object? object).map fun content =>
      ⟨key, String.ofList (Text.Utf8.lossy content)⟩

/-- The logs at a revision, in the order of their paths. -/
def listItems (source : Source) (revision : String) : Except Fault (List Blob) :=
  (source.logEntries revision).map source.readLogs

/-- The logs at a revision that belong to the given keys. -/
def fetchItems (source : Source) (revision : String) (keys : TextSet) :
    Except Fault (List Blob) :=
  (source.logEntries revision).map fun entries =>
    source.readLogs (entries.filter fun entry => keys.contains entry.1)

/-- The keys whose logs differ between two revisions. -/
def changedItems (source : Source) (old new : String) : Except Fault TextSet := do
  checkRevision old
  checkRevision new
  let paths ← run source.installed
    ("git diff-tree -r -z --name-only --no-renames " ++ old ++ " " ++ new) do
      return (← source.repository.revision? old).tree.differences
        (← source.repository.revision? new).tree
  return TextSet.ofTexts (paths.toList.filterMap (logKey? source.suffix))

/-- The locations of the given keys. Git is not asked where there are no keys. -/
def resolvePaths (source : Source) (keys : TextSet) : Except Fault (TextMap Location) := do
  if keys.isEmpty then return TextMap.empty
  else
    let index ← run source.installed "git ls-files -s -z" (some source.repository.indexEntries)
    return locate source.repository.object? source.tree index keys

def answers (source : Source) : LogStore where
  currentRevision := source.currentRevision.mapError Fault.message
  listItems revision := (source.listItems revision).mapError Fault.message
  changedItems old new := (source.changedItems old new).mapError Fault.message
  fetchItems revision keys := (source.fetchItems revision keys).mapError Fault.message
  resolvePaths keys := (source.resolvePaths keys).mapError Fault.message

end Source

end AnnexCatalog.Git
