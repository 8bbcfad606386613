import AnnexCatalog.Toml.Number
import AnnexCatalog.Toml.Table

/-! # Reading TOML documents

A document is a sequence of lines: headers, repeated headers, entries, comments and empty lines. An
entry goes on over several lines where its value does. Values nest at most 79 deep and keys have at
most 79 names. The readers return what they have read and the rest of the text; elements are counted
down from the length of the text, which no number of elements exceeds.
-/

namespace AnnexCatalog.Toml

/-- The number of levels that values and keys must not reach. -/
def nestingBound : Nat := 80

/-- A character of a name without quotes. -/
def isBare (c : Char) : Bool :=
  c.isAlphanum || c == '_' || c == '-'

def readName (text : List Char) : Option (List Char × List Char) :=
  let name := text.takeWhile isBare
  if name.isEmpty then readShortText text else some (name, text.dropWhile isBare)

/-- The names of a key, at most `count` of them, with blanks around the points. -/
def readNames : (count : Nat) → List Char → Option (List String × List Char)
  | 0, _ => none
  | count + 1, text => do
      let (name, rest) ← readName (skipSpace text)
      let first := String.ofList name
      match skipSpace rest with
      | '.' :: rest =>
          let (names, rest) ← readNames count rest
          return (first :: names, rest)
      | rest => return ([first], rest)

def keyOf? (names : List String) : Option Key :=
  names.getLast?.map fun name => ⟨names.dropLast, name⟩

/-- A key, with the blanks around it. -/
def readKey (text : List Char) : Option (Key × List Char) := do
  let (names, rest) ← readNames (nestingBound - 1) text
  return (← keyOf? names, rest)

/-- The elements of an array up to the closing bracket, where `read` reads one. -/
def readElements (read : List Char → Option (Value × List Char)) :
    (count : Nat) → List Char → Option (List Value × List Char)
  | 0, _ => none
  | count + 1, text =>
      match skipGap false text with
      | ']' :: rest => some ([], rest)
      | text => do
          let (value, rest) ← read text
          match skipGap false rest with
          | ',' :: rest =>
              let (values, rest) ← readElements read count rest
              return (value :: values, rest)
          | ']' :: rest => return ([value], rest)
          | _ => none

/-- A key, an equals sign and a value, where `read` reads the value. -/
def readPair (read : List Char → Option (Value × List Char)) (text : List Char) :
    Option ((Key × Value) × List Char) := do
  let (key, rest) ← readKey text
  let (value, rest) ← read (skipSpace (← after? '=' rest))
  return ((key, value), rest)

/-- The pairs up to the closing brace, of which there is at least one. -/
def readPairs (read : List Char → Option (Value × List Char)) :
    (count : Nat) → List Char → Option (List (Key × Value) × List Char)
  | 0, _ => none
  | count + 1, text => do
      let (pair, rest) ← readPair read text
      match skipSpace rest with
      | ',' :: rest =>
          let (pairs, rest) ← readPairs read count rest
          return (pair :: pairs, rest)
      | '\x7d' :: rest => return ([pair], rest)
      | _ => none

def readBraces (read : List Char → Option (Value × List Char)) (text : List Char) :
    Option (Value × List Char) :=
  match skipSpace text with
  | '\x7d' :: rest => some (.table .braces [], rest)
  | text => do
      let (pairs, rest) ← readPairs read text.length text
      return (.table .braces (← assembleBraces pairs), rest)

/-- A value without other values inside. -/
def readSimple (text : List Char) : Option (Value × List Char) :=
  match text with
  | [] => none
  | first :: _ =>
      if first = '"' ∨ first = '\'' then
        (readText text).map fun (value, rest) => (.text (String.ofList value), rest)
      else if first = 't' then
        (Text.dropLead? ['t', 'r', 'u', 'e'] text).map fun rest => (.boolean, rest)
      else if first = 'f' then
        (Text.dropLead? ['f', 'a', 'l', 's', 'e'] text).map fun rest => (.boolean, rest)
      else readNumber text

/-- A value with at most `levels` levels of arrays and braces. -/
def readValue : (levels : Nat) → List Char → Option (Value × List Char)
  | 0, text => readSimple text
  | levels + 1, '[' :: rest =>
      (readElements (readValue levels) rest.length rest).map fun (values, rest) =>
        (.array values, rest)
  | levels + 1, '\x7b' :: rest => readBraces (readValue levels) rest
  | _ + 1, text => readSimple text

/-- A header: a key between single or double brackets. -/
def readHeader (text : List Char) : Option (Statement × List Char) :=
  match text with
  | '[' :: rest => do
      let (key, rest) ← readKey rest
      return (.element key, ← (after? ']' rest).bind (after? ']'))
  | rest => do
      let (key, rest) ← readKey rest
      return (.header key, ← after? ']' rest)

/-- A header or an entry, up to the end of its line. -/
def readStatement (text : List Char) : Option (Statement × List Char) :=
  let read := match text with
    | '[' :: rest => readHeader rest
    | text => (readPair (readValue (nestingBound - 1)) text).map fun ((key, value), rest) =>
        (.entry key value, rest)
  read.bind fun (statement, rest) => (afterLine? rest).map fun rest => (statement, rest)

/-- The statements of a document, on at most `count` lines. -/
def readStatements : (count : Nat) → List Char → Option (List Statement)
  | 0, text => if text.isEmpty then some [] else none
  | count + 1, text =>
      match skipSpace text with
      | [] => some []
      | first :: rest =>
          if first = '#' ∨ first = '\n' ∨ first = '\r' then
            (afterLine? (first :: rest)).bind (readStatements count)
          else do
            let (statement, rest) ← readStatement (first :: rest)
            return statement :: (← readStatements count rest)

/-- A text without the mark of its byte order. -/
def dropMark : List Char → List Char
  | '\uFEFF' :: rest => rest
  | text => text

/-- The table that a document spells. -/
def read (text : List Char) : Option Entries :=
  (readStatements text.length (dropMark text)).bind assemble

end AnnexCatalog.Toml
