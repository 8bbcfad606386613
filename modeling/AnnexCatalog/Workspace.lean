import AnnexCatalog.Disk.Cache
import AnnexCatalog.Git.Store

/-! # Workspaces

A folder in which the program works: its files, and the repository whose working tree it is, if it
is one. Files that are checked out are links or plain files; they take the place of those that were
checked out before.
-/

namespace AnnexCatalog

open Git

/-- A folder with its files and its repository. -/
structure Workspace where
  /-- The absolute path of the folder. -/
  root : String := "/"
  disk : Disk := .empty
  repository : Option Repository := none
  /-- Whether git can be started. -/
  gitInstalled : Bool := true

namespace Workspace

/-- The folder in which a repository keeps its own files. -/
def repositoryFolder : String := ".git"

def init (workspace : Workspace) : Workspace :=
  { workspace with
      disk := workspace.disk.put repositoryFolder .folder
      repository := some .empty }

def mapRepository (workspace : Workspace) (change : Repository → Repository) : Workspace :=
  { workspace with repository := workspace.repository.map change }

/-- Put a commit on top of a branch. The name of the commit comes with it. -/
def commit (workspace : Workspace) (branch : String) (files : List CommitFile) :
    Workspace × Option String :=
  match workspace.repository.map fun repository => repository.commit branch files with
  | some (repository, name) => ({ workspace with repository := some repository }, some name)
  | none => (workspace, none)

/-- What a committed file is in the working tree. -/
def checkedOut (file : CommitFile) : Stored :=
  if file.mode = "120000" then .link (String.ofList (Text.Utf8.lossy file.content))
  else .plain file.content

/-- Check out files in place of those that are checked out. -/
def checkout (workspace : Workspace) (files : List CommitFile) : Workspace :=
  let earlier := (workspace.repository.map fun repository => repository.index.keys).getD []
  let cleared := earlier.foldl Disk.erase workspace.disk
  { workspace.mapRepository fun repository => repository.checkout files with
      disk := files.foldl (fun disk file => disk.write file.path (checkedOut file)) cleared }

def write (workspace : Workspace) (path : String) (content : List UInt8) : Workspace :=
  { workspace with disk := workspace.disk.write path (.plain content) }

def delete (workspace : Workspace) (path : String) : Workspace :=
  { workspace with disk := workspace.disk.erase path }

def workTree (workspace : Workspace) : WorkTree where
  leadsTo path := (workspace.disk.reach? path).isSome
  size? path := workspace.disk.size? path
  content? path := workspace.disk.content? path

/-- The repository around a folder. There is none inside the folder that a repository keeps for
itself. -/
def around? (workspace : Workspace) (folder : String) : Option Repository := do
  let place ← workspace.disk.walk Disk.maxLinks [] (Disk.names folder)
  guard (workspace.disk.isFolder folder ∧ place.head? ≠ some repositoryFolder)
  workspace.repository

/-- Open the log store of the repository around a folder. -/
def openStore (workspace : Workspace) (folder branch suffix : String) : Except Fault Source := do
  let repository ← run workspace.gitInstalled "git rev-parse --show-toplevel --absolute-git-dir"
    (workspace.around? folder)
  return { repository, tree := workspace.workTree, branch, suffix }

end Workspace

end AnnexCatalog
