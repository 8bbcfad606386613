import AnnexCatalog.Text.Unprintable

/-! # Quoted text in messages

A message shows a piece of text between double quotes. Quotes, backslashes, tabs, line feeds,
carriage returns and NUL have two-character forms; a character that would not show on its own is
spelled by its code point in hexadecimal.
-/

namespace AnnexCatalog.Text

/-- The form of one character inside a quotation. -/
def quoteChar (c : Char) : List Char :=
  if c = '\x00' then ['\\', '0']
  else if c = '\t' then ['\\', 't']
  else if c = '\n' then ['\\', 'n']
  else if c = '\r' then ['\\', 'r']
  else if c = '"' then ['\\', '"']
  else if c = '\\' then ['\\', '\\']
  else if unprintableRanges.covers c.toNat then
    ['\\', 'u', '\x7b'] ++ Nat.toDigits 16 c.toNat ++ ['\x7d']
  else [c]

def quoted (text : String) : String :=
  String.ofList ('"' :: text.toList.flatMap quoteChar ++ ['"'])

end AnnexCatalog.Text
