/-! # Pieces of a text

Cutting at elements, at the last occurrence of one, and at a known beginning or end; whether one
text occurs inside another; and the size of a text in bytes. Texts are lists of characters; cutting
into pieces works for lists of bytes as well.
-/

namespace AnnexCatalog.Text

/-- Cut a list at every element that satisfies `cut`; a list with `n` cuts has `n + 1` pieces. -/
def pieces {α : Type} (cut : α → Bool) : List α → List (List α)
  | [] => [[]]
  | c :: rest =>
      if cut c then [] :: pieces cut rest
      else match pieces cut rest with
        | [] => [[c]]
        | piece :: others => (c :: piece) :: others

/-- The part after the last occurrence of a character; the whole text where it does not occur. -/
def afterLast (cut : Char) (text : List Char) : List Char :=
  (text.reverse.takeWhile (· != cut)).reverse

/-- The number of bytes a text takes in UTF-8. -/
def byteLength : List Char → Nat
  | [] => 0
  | c :: rest => c.utf8Size + byteLength rest

/-- The number of characters before a position in bytes, if a character begins there or the text
ends there. -/
def charsBefore? : (position : Nat) → List Char → Option Nat
  | 0, _ => some 0
  | _ + 1, [] => none
  | position + 1, c :: rest =>
      if c.utf8Size ≤ position + 1 then
        (charsBefore? (position + 1 - c.utf8Size) rest).map (· + 1)
      else none

/-- The rest of a text after a leading part, if it has that part. -/
def dropLead? (lead : List Char) (text : List Char) : Option (List Char) :=
  if lead.isPrefixOf text then some (text.drop lead.length) else none

/-- The rest of a text before a closing part, if it ends in that part. -/
def dropTail? (tail : List Char) (text : List Char) : Option (List Char) :=
  if tail.isSuffixOf text then some (text.take (text.length - tail.length)) else none

/-- A text with its ASCII capitals made small and all else kept. -/
def asciiLower (text : List Char) : List Char :=
  text.map Char.toLower

/-- The parts before and after the first occurrence of a character, if it occurs. -/
def splitFirst? (cut : Char) : List Char → Option (List Char × List Char)
  | [] => none
  | c :: rest =>
      if c = cut then some ([], rest)
      else (splitFirst? cut rest).map fun (before, after) => (c :: before, after)

/-- Whether a text occurs inside another; the empty text occurs everywhere. -/
def occursIn (needle : List Char) : List Char → Bool
  | [] => needle.isEmpty
  | c :: rest => needle.isPrefixOf (c :: rest) || occursIn needle rest

/-- What stands after the last occurrence of a text inside another, if it occurs. -/
def afterLastOf? (needle : List Char) : List Char → Option (List Char)
  | [] => if needle.isEmpty then some [] else none
  | c :: rest => (afterLastOf? needle rest).or (dropLead? needle (c :: rest))

end AnnexCatalog.Text
