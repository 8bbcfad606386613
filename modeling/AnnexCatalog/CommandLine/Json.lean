/-! # JSON documents

Values as they are printed for other programs: every element and every member on a line of its own,
two spaces deeper than what it belongs to. An empty array or object stays on one line. A text is
quoted; quotes, backslashes and control characters have escapes.
-/

namespace AnnexCatalog.CommandLine

/-- A value; a number is given by its text. -/
inductive Json where
  | null
  | bool (value : Bool)
  | number (digits : String)
  | text (value : String)
  | array (elements : List Json)
  | object (members : List (String × Json))

namespace Json

/-- The form of one character inside a text. -/
def escapeChar (c : Char) : List Char :=
  if c = '"' then ['\\', '"']
  else if c = '\\' then ['\\', '\\']
  else if c = '\x08' then ['\\', 'b']
  else if c = '\t' then ['\\', 't']
  else if c = '\n' then ['\\', 'n']
  else if c = '\x0c' then ['\\', 'f']
  else if c = '\r' then ['\\', 'r']
  else if c.toNat < 32 then
    ['\\', 'u', '0', '0', Nat.digitChar (c.toNat / 16), Nat.digitChar (c.toNat % 16)]
  else [c]

def quote (text : String) : List Char :=
  '"' :: text.toList.flatMap escapeChar ++ ['"']

/-- A new line with the indentation of a depth. -/
def newline (depth : Nat) : List Char :=
  '\n' :: List.replicate (2 * depth) ' '

mutual

def writeAt (depth : Nat) : Json → List Char
  | .null => "null".toList
  | .bool value => (toString value).toList
  | .number digits => digits.toList
  | .text value => quote value
  | .array [] => ['[', ']']
  | .array (first :: rest) =>
      '[' :: newline (depth + 1) ++ writeAt (depth + 1) first ++ writeElements (depth + 1) rest ++
        newline depth ++ [']']
  | .object [] => ['\x7b', '\x7d']
  | .object ((name, first) :: rest) =>
      '\x7b' :: newline (depth + 1) ++ quote name ++ [':', ' '] ++ writeAt (depth + 1) first ++
        writeMembers (depth + 1) rest ++ newline depth ++ ['\x7d']

/-- The text of elements that follow another. -/
def writeElements (depth : Nat) : List Json → List Char
  | [] => []
  | element :: rest =>
      ',' :: newline depth ++ writeAt depth element ++ writeElements depth rest

/-- The text of members that follow another. -/
def writeMembers (depth : Nat) : List (String × Json) → List Char
  | [] => []
  | (name, value) :: rest =>
      ',' :: newline depth ++ quote name ++ [':', ' '] ++ writeAt depth value ++
        writeMembers depth rest

end

def write (document : Json) : String :=
  String.ofList (writeAt 0 document)

end Json

end AnnexCatalog.CommandLine
