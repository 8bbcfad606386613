import AnnexCatalog.Text.Pieces
import AnnexCatalog.Text.Token.Folding
import AnnexCatalog.Text.Token.Separators
import AnnexCatalog.Text.Utf8

/-! # Tokens of the text index

A word is a longest run of letters, numbers, private-use and unassigned characters together with
the combining marks inside it, read without case and without diacritics. The index keeps a word as a
token of bytes, and of a long word only the first bytes. A phrase occurs in a text when its tokens
stand there one after another, the last of them as a beginning.
-/

namespace AnnexCatalog.Text

/-- A word as the bytes of its letters. -/
abbrev Token := List UInt8

/-- The number of bytes that the index keeps of a word. -/
def tokenSize : Nat := 32768

/-- A combining mark that a word loses. -/
def isDiacritic (c : Char) : Bool :=
  diacriticRanges.covers c.toNat

/-- A character that no word goes on with. -/
def endsToken (c : Char) : Bool :=
  separatorRanges.covers c.toNat

/-- A letter of a word as the index keeps it. -/
def foldLetter (c : Char) : Char :=
  match imageIn foldingRuns c.toNat with
  | some point => Char.ofNat point
  | none => c

/-- The word that a run of token characters and marks is read as. -/
def foldRun (run : List Char) : Token :=
  Utf8.encode ((run.filter (fun c => !isDiacritic c)).map foldLetter)

/-- The words of a text in full, in order. Marks at the beginning of a run belong to no word. -/
def fullTokens (text : List Char) : List Token :=
  (((pieces endsToken text).map (·.dropWhile isDiacritic)).filter (fun run => !run.isEmpty)).map
    foldRun

/-- What the index keeps of a word. -/
def cutToken (token : Token) : Token :=
  token.take tokenSize

/-- The tokens of a text, in order. -/
def tokens (text : List Char) : List Token :=
  (fullTokens text).map cutToken

/-- Whether a list of tokens begins with a phrase whose last token counts as a beginning. -/
def beginsPhrase : (phrase text : List Token) → Bool
  | [], _ => true
  | [last], token :: _ => last.isPrefixOf token
  | first :: phrase, token :: text => first == token && beginsPhrase phrase text
  | _, [] => false

/-- Whether a phrase stands somewhere in a list of tokens. -/
def hasPhrase (phrase : List Token) : (text : List Token) → Bool
  | [] => false
  | token :: text => beginsPhrase phrase (token :: text) || hasPhrase phrase text

end AnnexCatalog.Text
