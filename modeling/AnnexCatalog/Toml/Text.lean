import AnnexCatalog.Toml.Space

/-! # Texts in TOML documents

A text stands between double quotes, with escapes, or between single quotes, without; three quotes
on either side admit line endings. Such a text may begin and end with up to two quotes of its own,
and a line ending right after the opening does not belong to it. The readers begin after the opening
quotes and return the text and the rest.
-/

namespace AnnexCatalog.Toml

def hexValue? (c : Char) : Option Nat :=
  if c.isDigit then some (c.toNat - '0'.toNat)
  else if 'a' ≤ c ∧ c ≤ 'f' then some (c.toNat - 'a'.toNat + 10)
  else if 'A' ≤ c ∧ c ≤ 'F' then some (c.toNat - 'A'.toNat + 10)
  else none

def hexNumber? (digits : List Char) : Option Nat :=
  digits.foldlM (fun total digit => (hexValue? digit).map (16 * total + ·)) 0

/-- The character with a code point written in hexadecimal digits. -/
def character? (digits : List Char) : Option Char :=
  (hexNumber? digits).bind fun point => if point.isValidChar then some (Char.ofNat point) else none

/-- The character that a letter after a backslash stands for. -/
def escaped? : Char → Option Char
  | 'b' => some '\x08'
  | 't' => some '\t'
  | 'n' => some '\n'
  | 'f' => some '\x0c'
  | 'r' => some '\r'
  | '"' => some '"'
  | '\\' => some '\\'
  | _ => none

/-- Put a character before a text that was read. -/
def prepend (c : Char) (read : Option (List Char × List Char)) : Option (List Char × List Char) :=
  read.map fun (text, rest) => (c :: text, rest)

/-- A text between double quotes on one line. -/
def readBasic : List Char → Option (List Char × List Char)
  | [] => none
  | '"' :: rest => some ([], rest)
  | '\\' :: 'u' :: a :: b :: c :: d :: rest =>
      (character? [a, b, c, d]).bind fun char => prepend char (readBasic rest)
  | '\\' :: 'U' :: a :: b :: c :: d :: e :: f :: g :: h :: rest =>
      (character? [a, b, c, d, e, f, g, h]).bind fun char => prepend char (readBasic rest)
  | '\\' :: letter :: rest => (escaped? letter).bind fun char => prepend char (readBasic rest)
  | c :: rest => if c ≠ '\\' ∧ isPlain c then prepend c (readBasic rest) else none

/-- A text between single quotes on one line. -/
def readLiteral : List Char → Option (List Char × List Char)
  | [] => none
  | '\'' :: rest => some ([], rest)
  | c :: rest => if isPlain c then prepend c (readLiteral rest) else none

/-- The text after the three quotes that close a text, together with up to two quotes that stand
right before them and belong to it. -/
def closing (quote : Char) : List Char → List Char × List Char
  | a :: b :: rest =>
      if a ≠ quote then ([], a :: b :: rest)
      else if b = quote then ([a, b], rest)
      else ([a], b :: rest)
  | [a] => if a = quote then ([a], []) else ([], [a])
  | [] => ([], [])

/-- The number of characters that a backslash at the end of a line takes away after it: blanks and
line endings, the first of which stands on the same line. It is none where the line goes on. -/
def continuation? (text : List Char) : Option Nat :=
  if (afterNewline? (skipSpace text)).isSome then some (text.length - (skipGapOnly text).length)
  else none
where
  /-- The text after blanks and line endings. -/
  skipGapOnly : List Char → List Char
    | [] => []
    | '\n' :: rest => skipGapOnly rest
    | '\r' :: '\n' :: rest => skipGapOnly rest
    | c :: rest => if isSpace c then skipGapOnly rest else c :: rest

/-- A text between three double quotes, after passing over `skip` characters. -/
def readLongBasic : (skip : Nat) → List Char → Option (List Char × List Char)
  | _, [] => none
  | skip + 1, _ :: rest => readLongBasic skip rest
  | 0, '"' :: '"' :: '"' :: rest => some (closing '"' rest)
  | 0, '\\' :: 'u' :: a :: b :: c :: d :: rest =>
      (character? [a, b, c, d]).bind fun char => prepend char (readLongBasic 0 rest)
  | 0, '\\' :: 'U' :: a :: b :: c :: d :: e :: f :: g :: h :: rest =>
      (character? [a, b, c, d, e, f, g, h]).bind fun char => prepend char (readLongBasic 0 rest)
  | 0, '\\' :: letter :: rest =>
      match escaped? letter with
      | some char => prepend char (readLongBasic 0 rest)
      | none =>
          (continuation? (letter :: rest)).bind fun skip => readLongBasic skip (letter :: rest)
  | 0, '\n' :: rest => prepend '\n' (readLongBasic 0 rest)
  | 0, '\r' :: '\n' :: rest => prepend '\n' (readLongBasic 0 rest)
  | 0, c :: rest => if c ≠ '\\' ∧ isPlain c then prepend c (readLongBasic 0 rest) else none

/-- A text between three single quotes. -/
def readLongLiteral : List Char → Option (List Char × List Char)
  | [] => none
  | '\'' :: '\'' :: '\'' :: rest => some (closing '\'' rest)
  | '\n' :: rest => prepend '\n' (readLongLiteral rest)
  | '\r' :: '\n' :: rest => prepend '\n' (readLongLiteral rest)
  | c :: rest => if isPlain c then prepend c (readLongLiteral rest) else none

/-- A text without the line ending at its beginning, if there is one. -/
def dropNewline (text : List Char) : List Char :=
  (afterNewline? text).getD text

/-- A text on one line, from its opening quote on. -/
def readShortText : List Char → Option (List Char × List Char)
  | '"' :: rest => readBasic rest
  | '\'' :: rest => readLiteral rest
  | _ => none

/-- A text of any form, from its opening quotes on. -/
def readText : List Char → Option (List Char × List Char)
  | '"' :: '"' :: '"' :: rest => readLongBasic 0 (dropNewline rest)
  | '\'' :: '\'' :: '\'' :: rest => readLongLiteral (dropNewline rest)
  | text => readShortText text

end AnnexCatalog.Toml
