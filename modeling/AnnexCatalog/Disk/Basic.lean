import AnnexCatalog.Cache.Contents
import AnnexCatalog.Git.Key
import AnnexCatalog.Text.Pieces

/-! # Files below a folder

The files, links and folders below one folder, by the names on their paths. A folder is there if
something lies in it or if it was made on its own. A path is walked name by name and links are
followed on the way, as far as they stay below the folder.
-/

namespace AnnexCatalog

open Text

inductive Stored where
  | plain (content : List UInt8)
  | link (target : String)
  | folder
  /-- A database with its schema version. -/
  | database (version : Int) (contents : Contents)

/-- What lies below a folder, by the names on the paths joined by slashes. -/
structure Disk where
  files : TextMap Stored

namespace Disk

def empty : Disk := ⟨TextMap.empty⟩

/-- The names on a path, those that stay in a folder apart. -/
def names (path : String) : List String :=
  ((pieces (· == '/') path.toList).map String.ofList).filter fun name => name ≠ "" ∧ name ≠ "."

/-- Names with every step up taken together with the name before it. -/
def settle (names : List String) : List String :=
  names.foldl (fun place name => if name = ".." then place.dropLast else place ++ [name]) []

def join (names : List String) : String :=
  "/".intercalate names

/-- The form in which a path is kept. -/
def plainPath (path : String) : String :=
  join (settle (names path))

/-- The paths of the folders on the way to a place, from the outside in. -/
def above (place : List String) : List String :=
  (List.range place.length).map fun count => join (place.take count)

def stored? (disk : Disk) (place : List String) : Option Stored :=
  match disk.files.get? (join place) with
  | some stored => some stored
  | none =>
      if place.isEmpty ||
          disk.files.keys.any fun other => (above (names other)).contains (join place)
      then some .folder
      else none

def put (disk : Disk) (path : String) (stored : Stored) : Disk :=
  ⟨disk.files.insert (plainPath path) stored⟩

/-- The folder after what lies at a path has been deleted. -/
def erase (disk : Disk) (path : String) : Disk :=
  ⟨disk.files.erase (plainPath path)⟩

/-- The folder after a file has been written, in place of files that stood in its way. -/
def write (disk : Disk) (path : String) (stored : Stored) : Disk :=
  let place := settle (names path)
  ((above place).foldl erase disk).put path stored

/-- The number of links that are followed on one path. -/
def maxLinks : Nat := 40

/-- The place that names lead to from another place. -/
def walk (disk : Disk) (links : Nat) (place : List String) :
    (names : List String) → Option (List String)
  | [] => some place
  | name :: rest =>
      if name = ".." then
        if place.isEmpty then none else walk disk links place.dropLast rest
      else match disk.stored? (place ++ [name]) with
        | none => none
        | some .folder => walk disk links (place ++ [name]) rest
        | some (.link target) =>
            match links with
            | 0 => none
            | links + 1 =>
                if target.toList.head? = some '/' then none
                else walk disk links place (names target ++ rest)
        | some (.plain _) | some (.database _ _) =>
            if rest.isEmpty then some (place ++ [name]) else none
termination_by names => (links, names.length)

/-- What a path leads to, links being followed. -/
def reach? (disk : Disk) (path : String) : Option Stored :=
  (disk.walk maxLinks [] (names path)).bind disk.stored?

def isFolder (disk : Disk) (path : String) : Bool :=
  match disk.reach? path with
  | some .folder => true
  | _ => false

/-- The size of what a path leads to. Of a folder, which is not read, it is of no account, and of a
database it is enough that it is larger than every pointer. -/
def size? (disk : Disk) (path : String) : Option Nat :=
  (disk.reach? path).map fun
    | .plain content => content.length
    | .database _ _ => Git.maxPointerSize + 1
    | .link _ | .folder => 0

def content? (disk : Disk) (path : String) : Option (List UInt8) :=
  match disk.reach? path with
  | some (.plain content) => some content
  | _ => none

end Disk

end AnnexCatalog
