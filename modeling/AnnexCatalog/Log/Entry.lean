import AnnexCatalog.Log.Timestamp
import AnnexCatalog.Text.Base64
import AnnexCatalog.Text.Blank
import AnnexCatalog.Text.LowerCase
import AnnexCatalog.Text.Quoted
import AnnexCatalog.Text.Utf8

/-! # Entries of a metadata log

An entry is one line: a timestamp, then field names, each followed by operations on its values. A
token `+value` adds and `-value` removes; any other token names the field of the operations after
it. A value that is no single token is written as `!` and base64. A line with a fault is skipped as
a whole, and the fault that stands leftmost in it is reported.
-/

namespace AnnexCatalog.Log

open Text

/-- One step of an entry, with the lower-case name of its field. -/
inductive Operation where
  /-- The field is named, which alone makes it known. -/
  | mention (field : String)
  | add (field value : String)
  | remove (field value : String)
deriving DecidableEq, Repr

/-- A well-formed line. -/
structure Entry where
  timestamp : Timestamp
  operations : List Operation
deriving DecidableEq, Repr

/-- Why the text after `!` spells no value. -/
inductive EncodingFault where
  | base64 (fault : Base64.Fault)
  | utf8 (fault : Utf8.Fault)
deriving DecidableEq, Repr

def EncodingFault.message : EncodingFault → String
  | .base64 fault => fault.message
  | .utf8 fault => fault.message

/-- What can be wrong with a token of a log line. -/
inductive Problem where
  | badTimestamp
  | orphanValue
  | emptyValue
  | badEncoding (fault : EncodingFault)
deriving DecidableEq, Repr

/-- A line that was skipped: its number, its leftmost bad token and what is wrong with it. -/
structure Warning where
  line : Nat
  token : String
  problem : Problem
deriving DecidableEq, Repr

def Warning.message (warning : Warning) : String :=
  let place := "line " ++ toString warning.line ++ ": "
  match warning.problem with
  | .badTimestamp => place ++ "unparseable timestamp " ++ quoted warning.token
  | .orphanValue => place ++ "value " ++ quoted warning.token ++ " has no preceding field name"
  | .emptyValue => place ++ "empty value operation " ++ quoted warning.token
  | .badEncoding fault =>
      place ++ "invalid encoded value " ++ quoted warning.token ++ ": " ++ fault.message

/-- The value that the part of a token after its sign stands for. -/
def readValue : List Char → Except Problem String
  | [] => .error .emptyValue
  | '!' :: encoded =>
      match Base64.decode (Utf8.encode encoded) with
      | .error fault => .error (.badEncoding (.base64 fault))
      | .ok bytes =>
          match Utf8.decode bytes with
          | .error fault => .error (.badEncoding (.utf8 fault))
          | .ok text => .ok (String.ofList text)
  | body => .ok (String.ofList body)

/-- The operations of the tokens after a timestamp, where `field` is the name read last. A fault is
reported with its token. -/
def readOperations (field : Option String) :
    List (List Char) → Except (List Char × Problem) (List Operation)
  | [] => .ok []
  | token :: rest =>
      let change (make : String → String → Operation) (body : List Char) := do
        let value ← (readValue body).mapError fun problem => (token, problem)
        match field with
        | none => throw (token, Problem.orphanValue)
        | some name => return make name value :: (← readOperations field rest)
      match token with
      | '+' :: body => change .add body
      | '-' :: body => change .remove body
      | name => do
          let name := lower (String.ofList name)
          return .mention name :: (← readOperations (some name) rest)

/-- The entry on a line, or the leftmost fault in it. -/
def Entry.read (line : List Char) : Except (List Char × Problem) Entry :=
  match words line with
  | [] => .error ([], .badTimestamp)
  | stamp :: tokens =>
      match Timestamp.parse? stamp with
      | none => .error (stamp, .badTimestamp)
      | some timestamp => (readOperations none tokens).map fun operations => ⟨timestamp, operations⟩

end AnnexCatalog.Log
