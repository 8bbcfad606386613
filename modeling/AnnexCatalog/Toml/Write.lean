import AnnexCatalog.Toml.Value

/-! # Writing TOML texts

Of the forms that a text can take, the one with the fewest escapes is chosen: plain double quotes,
then single quotes, then three quotes of either kind. Only where a character has to be escaped, or
too many quotes of both kinds stand in a row, a text is written with escapes. A tab does not have to
be escaped, but is where a form has escapes.
-/

namespace AnnexCatalog.Toml

/-- A control character that no text can hold as it is. -/
def needsEscape (c : Char) : Bool :=
  (c.toNat < 32 && c != '\t' && c != '\n') || c.toNat == 127

/-- The length of the longest run of a character. -/
def longestRun (mark : Char) (run : Nat) : List Char → Nat
  | [] => run
  | c :: rest =>
      if c = mark then longestRun mark (run + 1) rest else max run (longestRun mark 0 rest)

/-- The upper-case hexadecimal digit for a value. -/
def hexDigit (value : Nat) : Char :=
  if value < 10 then Char.ofNat ('0'.toNat + value) else Char.ofNat ('A'.toNat + (value - 10))

/-- The written form of one character between double quotes. -/
def escape (c : Char) : List Char :=
  if c = '\x08' then ['\\', 'b']
  else if c = '\t' then ['\\', 't']
  else if c = '\n' then ['\\', 'n']
  else if c = '\x0c' then ['\\', 'f']
  else if c = '\r' then ['\\', 'r']
  else if c = '"' then ['\\', '"']
  else if c = '\\' then ['\\', '\\']
  else if needsEscape c then
    ['\\', 'u', '0', '0', hexDigit (c.toNat / 16), hexDigit (c.toNat % 16)]
  else [c]

/-- The written form of a text between three double quotes, of which `quotes` quotes have just been
written: line feeds stand for themselves, and every third quote in a row is escaped. -/
def escapeLong (quotes : Nat) : List Char → List Char
  | [] => []
  | c :: rest =>
      if c = '"' then
        if quotes = 2 then '\\' :: '"' :: escapeLong 0 rest else '"' :: escapeLong (quotes + 1) rest
      else if c = '\n' then '\n' :: escapeLong 0 rest
      else escape c ++ escapeLong 0 rest

/-- A text between quotes on one line. -/
def short (quote : Char) (body : List Char) : List Char :=
  quote :: body ++ [quote]

/-- A text between three quotes; a text of several lines begins on a line of its own. -/
def long (quote : Char) (multiline : Bool) (body : List Char) : List Char :=
  [quote, quote, quote] ++ (if multiline then ['\n'] else []) ++ body ++ [quote, quote, quote]

def writeText (text : List Char) : List Char :=
  let controls := text.any needsEscape
  let multiline := text.contains '\n'
  let backslash := text.contains '\\'
  if !controls && !backslash && !text.contains '"' && !multiline then
    short '"' (text.flatMap escape)
  else if !controls && !text.contains '\'' && !multiline then short '\'' text
  else if !controls && !backslash && longestRun '"' 0 text ≤ 2 then
    long '"' multiline (escapeLong 0 text)
  else if !controls && longestRun '\'' 0 text ≤ 2 then long '\'' multiline text
  else if multiline then long '"' true (escapeLong 0 text)
  else short '"' (text.flatMap escape)

def writeEntry (name : String) (value : List Char) : List Char :=
  name.toList ++ [' ', '=', ' '] ++ value ++ ['\n']

def writeHeader (name : String) : List Char :=
  '[' :: name.toList ++ [']', '\n']

end AnnexCatalog.Toml
