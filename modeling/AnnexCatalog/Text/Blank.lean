import AnnexCatalog.Text.Pieces

/-! # Blanks, words and lines

A blank is a character with the property White_Space. Words are the longest runs of other
characters. A line ends at a line feed, and the carriage return right before that line feed belongs
to the line ending; a last line without a line feed keeps its carriage return.
-/

namespace AnnexCatalog.Text

/-- The property White_Space of the Unicode character database. -/
def isBlank (c : Char) : Bool :=
  let point := c.toNat
  (9 ≤ point && point ≤ 13) || point == 32 || point == 0x85 || point == 0xA0 || point == 0x1680 ||
    (0x2000 ≤ point && point ≤ 0x200A) || point == 0x2028 || point == 0x2029 || point == 0x202F ||
    point == 0x205F || point == 0x3000

/-- The non-empty pieces between blanks, in order. -/
def words (text : List Char) : List (List Char) :=
  (pieces isBlank text).filter (fun word => !word.isEmpty)

/-- A line without the carriage return that belonged to its ending. -/
def dropReturn (line : List Char) : List Char :=
  match line.reverse with
  | '\r' :: rest => rest.reverse
  | _ => line

/-- The lines of a text, without their endings; an empty remainder after the last ending is no
line. -/
def lines (text : List Char) : List (List Char) :=
  match (pieces (· == '\n') text).reverse with
  | [] => []
  | last :: ended => (ended.map dropReturn).reverse ++ if last.isEmpty then [] else [last]

/-- A text without its leading blanks. -/
def trimStart (text : List Char) : List Char :=
  text.dropWhile isBlank

/-- A text without its trailing blanks. -/
def trimEnd (text : List Char) : List Char :=
  (text.reverse.dropWhile isBlank).reverse

/-- A text without its leading and trailing blanks. -/
def trim (text : List Char) : List Char :=
  trimEnd (trimStart text)

end AnnexCatalog.Text
