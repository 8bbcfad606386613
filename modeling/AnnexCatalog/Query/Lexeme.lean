import AnnexCatalog.Query.Basic
import AnnexCatalog.Query.Error

/-! # Words, quotations and names in queries

The readers of this module take a part off the front of a text and return the rest. A word ends
before a blank or a bar. A quotation ends at the next quote; nothing inside it is special.
-/

namespace AnnexCatalog.Query

open Text

/-- A character that is no part of a word. -/
def endsWord (c : Char) : Bool :=
  isBlank c || c == '|'

/-- Whether no word begins here. -/
def atBoundary : List Char → Bool
  | [] => true
  | c :: _ => endsWord c

/-- The longest word that begins here, and the rest. -/
def takeWord (text : List Char) : List Char × List Char :=
  (text.takeWhile fun c => !endsWord c, text.dropWhile fun c => !endsWord c)

/-- The text up to the quote that closes a quotation, and the rest after it. -/
def takeQuotation (body : List Char) : Except Fault (List Char × List Char) :=
  match splitFirst? '"' body with
  | some parts => .ok parts
  | none => .error ⟨'"' :: body, .unclosedQuote⟩

/-- A character inside the name of a field. -/
def isNameLetter (c : Char) : Bool :=
  c.isAlphanum || c == '_'

/-- The name before a colon, and the rest after the colon. A name begins with a letter. -/
def takeName? (text : List Char) : Option (List Char × List Char) :=
  match text.takeWhile isNameLetter, text.dropWhile isNameLetter with
  | first :: name, ':' :: rest => if first.isAlpha then some (first :: name, rest) else none
  | _, _ => none

/-- What follows a separator between groups: a bar, or the word `OR` in capitals. -/
def afterSeparator? : List Char → Option (List Char)
  | '|' :: rest => some rest
  | 'O' :: 'R' :: rest => if atBoundary rest then some rest else none
  | _ => none

def takeComparison? : List Char → Option (Operator × List Char)
  | '>' :: '=' :: rest => some (.atLeast, rest)
  | '<' :: '=' :: rest => some (.atMost, rest)
  | '>' :: rest => some (.above, rest)
  | '<' :: rest => some (.below, rest)
  | _ => none

/-- A quotation or a word, and the rest; `missing` is reported where neither begins. -/
def takeValue (missing : Fault) : List Char → Except Fault (List Char × List Char)
  | '"' :: body => takeQuotation body
  | text => if atBoundary text then .error missing else .ok (takeWord text)

end AnnexCatalog.Query
