/-! # Space in TOML documents

Blanks, line endings and comments. A line ends with a line feed, possibly after a carriage return,
and may have a comment before its end.
-/

namespace AnnexCatalog.Toml

/-- A blank inside a line. -/
def isSpace (c : Char) : Bool :=
  c == ' ' || c == '\t'

/-- A text without leading blanks. -/
def skipSpace (text : List Char) : List Char :=
  text.dropWhile isSpace

/-- A character that may stand in a comment or between single quotes, quotes apart: control
characters other than the tab may not. -/
def isPlain (c : Char) : Bool :=
  c == '\t' || (' '.toNat ≤ c.toNat && c.toNat != 127)

/-- What follows a line ending. -/
def afterNewline? : List Char → Option (List Char)
  | '\n' :: rest => some rest
  | '\r' :: '\n' :: rest => some rest
  | _ => none

/-- What follows the end of a line: blanks, possibly a comment, and a line ending or the end of the
text. -/
def afterLine? (text : List Char) : Option (List Char) :=
  let rest := match skipSpace text with
    | '#' :: comment => comment.dropWhile isPlain
    | rest => rest
  if rest.isEmpty then some [] else afterNewline? rest

/-- The text after blanks, line endings and comments, which may stand between the elements of an
array; the flag tells whether the text begins inside a comment. -/
def skipGap (comment : Bool) : List Char → List Char
  | [] => []
  | '\n' :: rest => skipGap false rest
  | '\r' :: '\n' :: rest => skipGap false rest
  | c :: rest =>
      if comment then if isPlain c then skipGap true rest else c :: rest
      else if isSpace c then skipGap false rest
      else if c = '#' then skipGap true rest
      else c :: rest

end AnnexCatalog.Toml
