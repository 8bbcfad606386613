import AnnexCatalog.Git.Error
import AnnexCatalog.Text.Pieces
import AnnexCatalog.Text.Utf8

/-! # Listings of trees and of the index

A listing is a sequence of records, each ended by NUL: columns with a space between them, a tab, and
a path. A path may hold every byte but NUL, spaces and tabs included; bytes that spell no text are
replaced, in the same way in every listing. Beside each reader stands the writer of its records.
-/

namespace AnnexCatalog.Git

open Text

structure TreeEntry where
  mode : String
  kind : String
  object : String
  path : String
deriving DecidableEq, Repr

structure IndexEntry where
  mode : String
  object : String
  path : String
deriving DecidableEq, Repr

def records (output : List UInt8) : List (List UInt8) :=
  (pieces (· == 0) output).filter fun record => !record.isEmpty

/-- The three columns and the path of a record. -/
def columns (command : String) (record : List UInt8) :
    Except Fault (String × String × String × String) :=
  let text := Utf8.lossy record
  match splitFirst? '\t' text with
  | none => .error (.malformed command (.noPath (String.ofList text)))
  | some (before, path) =>
      match pieces (· == ' ') before with
      | [first, second, third] =>
          .ok (String.ofList first, String.ofList second, String.ofList third, String.ofList path)
      | _ => .error (.malformed command (.badEntry (String.ofList text)))

/-- The entry in a record of a tree: mode, kind and object. -/
def TreeEntry.read (record : List UInt8) : Except Fault TreeEntry :=
  (columns "git ls-tree" record).map fun (mode, kind, object, path) => ⟨mode, kind, object, path⟩

/-- The entry in a record of the index: mode, object and a stage, which is of no interest. -/
def IndexEntry.read (record : List UInt8) : Except Fault IndexEntry :=
  (columns "git ls-files" record).map fun (mode, object, _, path) => ⟨mode, object, path⟩

/-- The files of a tree, from the output of `git ls-tree -r -z`. -/
def readTree (output : List UInt8) : Except Fault (List TreeEntry) :=
  (records output).mapM TreeEntry.read

/-- The files of the index, from the output of `git ls-files -s -z`. -/
def readIndex (output : List UInt8) : Except Fault (List IndexEntry) :=
  (records output).mapM IndexEntry.read

def readPaths (output : List UInt8) : List String :=
  (records output).map fun record => String.ofList (Utf8.lossy record)

def writeRecord (columns : List String) (path : List UInt8) : List UInt8 :=
  Utf8.encode ([' '].intercalate (columns.map String.toList)) ++ 9 :: path ++ [0]

def TreeEntry.write (entry : TreeEntry) : List UInt8 :=
  writeRecord [entry.mode, entry.kind, entry.object] (Utf8.encode entry.path.toList)

def IndexEntry.write (stage : String) (entry : IndexEntry) : List UInt8 :=
  writeRecord [entry.mode, entry.object, stage] (Utf8.encode entry.path.toList)

/-- The key of the item whose log lies at a path; paths that do not end in the suffix of logs
belong to no item. -/
def logKey? (suffix path : String) : Option String :=
  match dropTail? suffix.toList (afterLast '/' path.toList) with
  | some [] | none => none
  | some key => some (String.ofList key)

end AnnexCatalog.Git
