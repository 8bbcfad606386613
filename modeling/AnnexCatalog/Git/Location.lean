import AnnexCatalog.Git.Key
import AnnexCatalog.Git.Listing
import AnnexCatalog.Store.Basic

/-! # Locations of keys in the working tree

The index names the files of the working tree. Links to objects are locked files, whose content is
there if the link leads somewhere; small files that point to an object are unlocked files, whose
content is there once the file in the working tree is no pointer any more. A key with several paths
is located at one with content, if there is one, and else at the first.
-/

namespace AnnexCatalog.Git

open Text

/-- What can be seen of a working tree. -/
structure WorkTree where
  /-- Whether a path leads to something, links being followed. -/
  leadsTo : (path : String) → Bool
  /-- The size of what a path leads to, in bytes. -/
  size? : (path : String) → Option Nat
  /-- The content of the file that a path leads to, if it can be read. -/
  content? : (path : String) → Option (List UInt8)

/-- Whether a path leads to a file that is no pointer. One that is too large for a pointer is not
read. -/
def WorkTree.holdsContent (tree : WorkTree) (path : String) : Bool :=
  match tree.size? path with
  | none => false
  | some size =>
      if maxPointerSize < size then true
      else match tree.content? path with
        | none => false
        | some content => (pointerKey? content).isNone

/-- Whether a file is a link to its content or has content of its own. -/
inductive Form where
  | locked
  | unlocked
deriving DecidableEq, Repr

/-- A file that stands for a key. -/
structure Candidate where
  key : String
  path : String
  form : Form
deriving DecidableEq, Repr

/-- The locked file that an entry of the index describes, if it does. -/
def locked? (object? : String → Option (List UInt8)) (entry : IndexEntry) : Option Candidate := do
  guard (entry.mode = "120000")
  let target ← (Utf8.decode (← object? entry.object)).toOption
  return ⟨← linkKey? target, entry.path, .locked⟩

/-- The unlocked file that an entry of the index describes, if it does. -/
def unlocked? (object? : String → Option (List UInt8)) (entry : IndexEntry) : Option Candidate := do
  guard (entry.mode = "100644" ∨ entry.mode = "100755")
  return ⟨← pointerKey? (← object? entry.object), entry.path, .unlocked⟩

/-- All files that stand for keys: first the locked ones, then the unlocked ones. -/
def candidates (object? : String → Option (List UInt8)) (index : List IndexEntry) :
    List Candidate :=
  index.filterMap (locked? object?) ++ index.filterMap (unlocked? object?)

/-- Whether the content of a file is in the working tree. -/
def Candidate.isPresent (tree : WorkTree) (candidate : Candidate) : Bool :=
  match candidate.form with
  | .locked => tree.leadsTo candidate.path
  | .unlocked => tree.holdsContent candidate.path

/-- The locations after one more file has been seen. It takes the place of an earlier one for the
same key only if its content is there and that of the earlier one is not. -/
def place (tree : WorkTree) (known : TextMap Location) (candidate : Candidate) : TextMap Location :=
  let location : Location := ⟨candidate.path, candidate.isPresent tree⟩
  match known.get? candidate.key with
  | none => known.insert candidate.key location
  | some earlier =>
      if location.present && !earlier.present then known.insert candidate.key location else known

def locate (object? : String → Option (List UInt8)) (tree : WorkTree) (index : List IndexEntry)
    (keys : TextSet) : TextMap Location :=
  ((candidates object? index).filter fun candidate => keys.contains candidate.key).foldl
    (place tree) TextMap.empty

end AnnexCatalog.Git
