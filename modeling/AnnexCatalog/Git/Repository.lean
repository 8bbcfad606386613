import AnnexCatalog.Collection.TextMap
import AnnexCatalog.Git.Listing

/-! # Repositories

A repository holds the contents of files as objects, trees that name objects, commits that put a
tree on top of a parent, branches that name commits, and an index of the files of the working tree.
The name of an object is made from its content, so equal contents are kept once; a commit with the
same parent and the same tree is the same commit.
-/

namespace AnnexCatalog.Git

structure CommitFile where
  path : String
  mode : String
  content : List UInt8

/-- What a tree says about the file at a path. -/
structure TreeFile where
  mode : String
  object : String
deriving DecidableEq, Repr

abbrev Tree := TextMap TreeFile

/-- The commit on top of a parent with the given files. -/
structure Commit where
  parent : Option String
  tree : Tree

/-- A repository; commits are listed in the order in which they were made. -/
structure Repository where
  objects : TextMap (List UInt8)
  commits : List Commit
  branches : TextMap String
  index : Tree

namespace Repository

def empty : Repository := ⟨TextMap.empty, [], TextMap.empty, TextMap.empty⟩

def mainBranch : String := "main"

def objectName (content : List UInt8) : String :=
  String.ofList (content.flatMap fun byte =>
    [Nat.digitChar (byte.toNat / 16), Nat.digitChar (byte.toNat % 16)])

/-- The name of a commit: forty digits, of which the first ten end in its number. -/
def commitName (number : Nat) : String :=
  let digits := Nat.toDigits 10 number
  String.ofList (List.replicate (10 - digits.length) 'c' ++ digits ++ List.replicate 30 'c')

def commit? (repository : Repository) (name : String) : Option Commit :=
  ((List.range repository.commits.length).find? fun number => commitName number = name).bind
    fun number => repository.commits[number]?

/-- The commit that a revision means: the name of a commit, of a branch, or of the branch that is
checked out. -/
def revision? (repository : Repository) (revision : String) : Option Commit :=
  let branch? (name : String) := (repository.branches.get? name).bind repository.commit?
  (repository.commit? revision).or <|
    if revision = "HEAD" ∨ revision = "@" then branch? mainBranch
    else match Text.dropLead? "refs/heads/".toList revision.toList with
      | some name => branch? (String.ofList name)
      | none => branch? revision

def treeOf (files : List CommitFile) : Tree :=
  TextMap.ofList (files.map fun file => (file.path, ⟨file.mode, objectName file.content⟩))

/-- The repository with the contents of files among its objects. -/
def store (repository : Repository) (files : List CommitFile) : Repository :=
  { repository with
      objects := files.foldl
        (fun objects file => objects.insert (objectName file.content) file.content)
        repository.objects }

/-- Put a commit with the given files on top of a branch. The name of the commit comes with it. -/
def commit (repository : Repository) (branch : String) (files : List CommitFile) :
    Repository × String :=
  let parent := repository.branches.get? branch
  let tree := treeOf files
  let known := repository.commits.findIdx? fun commit =>
    commit.parent = parent ∧ commit.tree = tree
  let number := known.getD repository.commits.length
  let commits :=
    if known.isSome then repository.commits else repository.commits ++ [⟨parent, tree⟩]
  let branches := repository.branches.insert branch (commitName number)
  ({ repository.store files with commits, branches }, commitName number)

/-- Commit files to the branch that is checked out, and to the index. -/
def checkout (repository : Repository) (files : List CommitFile) : Repository :=
  { (repository.commit mainBranch files).1 with index := treeOf files }

def deleteBranch (repository : Repository) (branch : String) : Repository :=
  { repository with branches := repository.branches.erase branch }

/-- The repository after the content of a file on a branch has been lost. -/
def dropObject (repository : Repository) (branch path : String) : Repository :=
  let file := (repository.revision? branch).bind fun commit => commit.tree.get? path
  match file with
  | some file => { repository with objects := repository.objects.erase file.object }
  | none => repository

def object? (repository : Repository) (name : String) : Option (List UInt8) :=
  repository.objects.get? name

/-- The files of a tree, in the order of their paths. -/
def treeEntries (tree : Tree) : List TreeEntry :=
  tree.entries.map fun (path, file) => ⟨file.mode, "blob", file.object, path⟩

/-- The files of the index, in the order of their paths. -/
def indexEntries (repository : Repository) : List IndexEntry :=
  repository.index.entries.map fun (path, file) => ⟨file.mode, file.object, path⟩

end Repository

end AnnexCatalog.Git
