import AnnexCatalog.Text.Blank
import AnnexCatalog.Text.Pieces
import AnnexCatalog.Text.Utf8

/-! # Keys and the files that name them

The key of a file is the name of a backend in capitals and digits, any number of groups of a dash, a
letter and digits, two dashes, and the rest of one line. A locked file is a link to an object and
names its key by the last part of the target. An unlocked file is a small text file whose first line
points to an object.
-/

namespace AnnexCatalog.Git

open Text

inductive KeyStage where
  | opening
  /-- Inside the name of the backend. -/
  | backend
  /-- After a single dash. -/
  | dash
  /-- After the letter of a group. -/
  | letter
  /-- Inside the digits of a group. -/
  | digits
  /-- After the two dashes. -/
  | closing
  /-- Inside the rest. -/
  | rest
deriving DecidableEq, Repr

/-- Whether a character may stand in the name of a backend. -/
def isBackendChar (c : Char) : Bool :=
  c.isUpper || c.isDigit

/-- Read one more character of a key. -/
def KeyStage.next (stage : KeyStage) (c : Char) : Option KeyStage :=
  match stage with
  | .opening => if isBackendChar c then some .backend else none
  | .backend =>
      if isBackendChar c then some .backend else if c = '-' then some .dash else none
  | .dash => if c = '-' then some .closing else if c.isAlpha then some .letter else none
  | .letter => if c.isDigit then some .digits else none
  | .digits => if c.isDigit then some .digits else if c = '-' then some .dash else none
  | .closing | .rest => if c = '\n' then none else some .rest

def isKey (text : List Char) : Bool :=
  text.foldlM KeyStage.next .opening == some .rest

/-- The folder of objects, as it occurs in the targets of links. -/
def objectsFolder : List Char := "annex/objects/".toList

def pointerLead : List Char := '/' :: objectsFolder

/-- The largest size of a pointer file, in bytes. -/
def maxPointerSize : Nat := 32768

def lastKey? (path : List Char) : Option String :=
  let name := afterLast '/' path
  if isKey name then some (String.ofList name) else none

def linkKey? (target : List Char) : Option String :=
  (afterLastOf? objectsFolder target).bind lastKey?

def pointerKey? (content : List UInt8) : Option String :=
  if maxPointerSize < content.length then none
  else match Utf8.decode content with
    | .error _ => none
    | .ok text =>
        (dropLead? pointerLead (trimEnd (text.takeWhile (· != '\n')))).bind lastKey?

end AnnexCatalog.Git
