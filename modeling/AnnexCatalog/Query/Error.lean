import AnnexCatalog.Field
import AnnexCatalog.Text.Blank
import AnnexCatalog.Text.Quoted

/-! # Errors in queries

A fault is found at a place of the query text, which is kept as the rest of the text from there on.
For the reader it is turned into a position in bytes and the fragment that begins there.
-/

namespace AnnexCatalog.Query

open Text

/-- What can be wrong with a query. -/
inductive Reason where
  | separatorFirst
  | separatorLast
  | bareNegation
  | unclosedQuote
  | unknownField (name : String)
  | missingValue (field : Field)
  | missingExactValue
  | missingNumber
  | notNumeric (field : Field)
  | notNumber (value : String)
  | reversedRange (low high : String)
  | emptyPresence
  | notPresence
deriving DecidableEq, Repr

def Reason.message (position : Nat) : Reason → String
  | .separatorFirst => "OR separator without a preceding clause"
  | .separatorLast => "OR separator without a following clause"
  | .bareNegation => "negation must be followed by a term"
  | .unclosedQuote => "unclosed quote starting at position " ++ toString position
  | .unknownField name => "unknown field " ++ quoted name
  | .missingValue field => "missing value for field '" ++ field.name ++ "'"
  | .missingExactValue => "missing value after '='"
  | .missingNumber => "missing number after comparison"
  | .notNumeric field => "field '" ++ field.name ++ "' does not support numeric comparison"
  | .notNumber value => "expected a number, found " ++ quoted value
  | .reversedRange low high =>
      "range start " ++ low ++ " is greater than its end " ++ high
  | .emptyPresence => "presence is never empty"
  | .notPresence => "presence expects true/false, yes/no or 1/0"

/-- A reason and the rest of the query text from the place where it holds. -/
structure Fault where
  place : List Char
  reason : Reason
deriving DecidableEq, Repr

/-- A fault as it is reported: with its position in bytes. -/
inductive Error where
  | malformed (position : Nat) (fragment : String) (reason : String)
  | unknownField (name : String) (position : Nat)
deriving DecidableEq, Repr

def Error.message : Error → String
  | .malformed position fragment reason =>
      "invalid query at position " ++ toString position ++ " (" ++ quoted fragment ++ "): " ++
        reason
  | .unknownField name position =>
      "unknown field " ++ quoted name ++ " at position " ++ toString position

def Error.position : Error → Nat
  | .malformed position _ _ => position
  | .unknownField _ position => position

/-- The fragment at a fault: up to the next blank, or to the end of the text where a quote stays
open. -/
def Fault.fragment (fault : Fault) : List Char :=
  match fault.reason with
  | .unclosedQuote => fault.place
  | _ => fault.place.takeWhile fun c => !isBlank c

/-- The report on a fault in a query text, of which its place is the last part. -/
def Fault.report (text : List Char) (fault : Fault) : Error :=
  let position := byteLength text - byteLength fault.place
  match fault.reason with
  | .unknownField name => .unknownField name position
  | reason => .malformed position (String.ofList fault.fragment) (reason.message position)

end AnnexCatalog.Query
