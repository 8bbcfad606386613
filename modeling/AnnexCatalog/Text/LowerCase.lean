import AnnexCatalog.Text.LowerCase.Context
import AnnexCatalog.Text.LowerCase.Table

/-! # Lower case

Each character is replaced by its lower-case form. A capital sigma that ends a word becomes the
final form of the letter: a cased character comes before it and none after it, where characters that
casing looks through are passed over on both sides.
-/

namespace AnnexCatalog.Text

/-- The lower-case form of a character on its own; only the capital I with a dot has two characters
there. -/
def lowerChar (c : Char) : List Char :=
  if c = '\u0130' then ['i', '\u0307']
  else match imageIn lowerRuns c.toNat with
    | some point => [Char.ofNat point]
    | none => [c]

/-- Whether the first character that casing does not look through is cased. -/
def meetsCased (text : List Char) : Bool :=
  match text.dropWhile (fun c => caseIgnorableRanges.covers c.toNat) with
  | [] => false
  | c :: _ => casedRanges.covers c.toNat

/-- The small sigma between the characters `before`, nearest first, and the characters `after`. -/
def smallSigma (before after : List Char) : Char :=
  if meetsCased before && !meetsCased after then 'ς' else 'σ'

/-- The lower-case form of the rest of a text that goes on after `before`, nearest first. -/
def lowerFrom (before : List Char) : List Char → List Char
  | [] => []
  | c :: after =>
      (if c = 'Σ' then [smallSigma before after] else lowerChar c) ++ lowerFrom (c :: before) after

def lower (text : String) : String :=
  String.ofList (lowerFrom [] text.toList)

end AnnexCatalog.Text
