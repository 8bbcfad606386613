import AnnexCatalog.Number.Decimal
import AnnexCatalog.Toml.Text
import AnnexCatalog.Toml.Value

/-! # Numbers and points in time in TOML documents

An integer has 64 bits and is written in decimal, hexadecimal, octal or binary digits, with single
underscores between digits. A number with a fraction or an exponent is only checked, and so are
dates and times of day. The readers return the rest of the text.
-/

namespace AnnexCatalog.Toml

/-- The digits that go on after a digit, without the underscores between them, and the rest. -/
def moreDigits (isDigit : Char → Bool) : List Char → List Char × List Char
  | [] => ([], [])
  | '_' :: c :: rest =>
      if isDigit c then
        let (digits, rest) := moreDigits isDigit rest
        (c :: digits, rest)
      else ([], '_' :: c :: rest)
  | c :: rest =>
      if isDigit c then
        let (digits, rest) := moreDigits isDigit rest
        (c :: digits, rest)
      else ([], c :: rest)

def takeDigits? (isDigit : Char → Bool) : List Char → Option (List Char × List Char)
  | c :: rest =>
      if isDigit c then
        let (digits, rest) := moreDigits isDigit rest
        some (c :: digits, rest)
      else none
  | [] => none

/-- The digits of a decimal integer: a zero stands alone. -/
def takeWhole? : List Char → Option (List Char × List Char)
  | '0' :: rest => some (['0'], rest)
  | text => takeDigits? Char.isDigit text

def takeSign : List Char → List Char × List Char
  | '-' :: rest => (['-'], rest)
  | '+' :: rest => (['+'], rest)
  | rest => ([], rest)

/-- The integer of 64 bits with the given digits in a base. -/
def integerIn? (base : Nat) (digits : List Char) : Option Int :=
  let value := digits.foldl (fun total digit => base * total + (hexValue? digit).getD 0) 0
  if value < Nat.pow 2 63 then some (value : Int) else none

/-- The base that two characters announce, and its digits. -/
def base? : Char → Option (Nat × (Char → Bool))
  | 'x' => some (16, fun c => (hexValue? c).isSome)
  | 'o' => some (8, fun c => '0' ≤ c && c ≤ '7')
  | 'b' => some (2, fun c => c == '0' || c == '1')
  | _ => none

def readDecimal (text : List Char) : Option (Int × List Char) := do
  let (sign, body) := takeSign text
  let (digits, rest) ← takeWhole? body
  return (← parseInt64? (sign ++ digits), rest)

def readInteger : List Char → Option (Int × List Char)
  | '0' :: mark :: rest =>
      match base? mark with
      | some (base, isDigit) => do
          let (digits, rest) ← takeDigits? isDigit rest
          return (← integerIn? base digits, rest)
      | none => some (0, mark :: rest)
  | text => readDecimal text

/-- The digits after a point, if one stands here. -/
def takeFraction? : List Char → Option (List Char × List Char)
  | '.' :: rest => (takeDigits? Char.isDigit rest).map fun (digits, rest) => ('.' :: digits, rest)
  | _ => none

def takeExponent? : List Char → Option (List Char × List Char)
  | mark :: rest =>
      if mark = 'e' ∨ mark = 'E' then
        let (sign, body) := takeSign rest
        (takeDigits? Char.isDigit body).map fun (digits, rest) => (mark :: sign ++ digits, rest)
      else none
  | [] => none

/-- Whether a numeral denotes a number that is not positive infinity. -/
def isBelowInfinity (numeral : List Char) : Bool :=
  match (Decimal.read? numeral).map Decimal.toBinary64 with
  | some number => number.units < Binary64.infiniteUnits
  | none => false

/-- The rest after a number with a fraction, an exponent or both. -/
def afterReal? (text : List Char) : Option (List Char) := do
  let (sign, body) := takeSign text
  match Text.dropLead? ['i', 'n', 'f'] body, Text.dropLead? ['n', 'a', 'n'] body with
  | some rest, _ => some rest
  | _, some rest => some rest
  | none, none =>
      let (whole, rest) ← takeWhole? body
      let (part, rest) := (takeFraction? rest).getD ([], rest)
      let (exponent, rest) := (takeExponent? rest).getD ([], rest)
      if (part ≠ [] ∨ exponent ≠ []) ∧ isBelowInfinity (sign ++ whole ++ part ++ exponent) then
        some rest
      else none

/-- The number that the first `count` characters denote, if all of them are digits and the number
lies in a range. -/
def takeCount? (count low high : Nat) (text : List Char) : Option (Nat × List Char) :=
  let digits := text.take count
  let value := Decimal.ofDigits digits
  if digits.length = count ∧ digits.all Char.isDigit ∧ low ≤ value ∧ value ≤ high then
    some (value, text.drop count)
  else none

/-- The rest after one given character. -/
def after? (mark : Char) : List Char → Option (List Char)
  | c :: rest => if c = mark then some rest else none
  | [] => none

def daysIn (year month : Nat) : Nat :=
  if month = 2 then if year % 4 = 0 ∧ (year % 100 ≠ 0 ∨ year % 400 = 0) then 29 else 28
  else if month ∈ [4, 6, 9, 11] then 30
  else 31

def afterDate? (text : List Char) : Option (List Char) := do
  let (year, rest) ← takeCount? 4 0 9999 text
  let (month, rest) ← takeCount? 2 1 12 (← after? '-' rest)
  let (_, rest) ← takeCount? 2 1 (daysIn year month) (← after? '-' rest)
  return rest

def afterTime? (text : List Char) : Option (List Char) := do
  let (_, rest) ← takeCount? 2 0 23 text
  let (_, rest) ← takeCount? 2 0 59 (← after? ':' rest)
  let (_, rest) ← takeCount? 2 0 60 (← after? ':' rest)
  match rest with
  | '.' :: part =>
      if (part.takeWhile Char.isDigit).isEmpty then none else some (part.dropWhile Char.isDigit)
  | rest => some rest

/-- The rest after the distance from universal time. -/
def afterOffset? : List Char → Option (List Char)
  | 'Z' :: rest => some rest
  | 'z' :: rest => some rest
  | sign :: rest =>
      if sign = '+' ∨ sign = '-' then do
        let (_, rest) ← takeCount? 2 0 23 rest
        let (_, rest) ← takeCount? 2 0 59 (← after? ':' rest)
        return rest
      else none
  | [] => none

/-- The rest after a date, a time of day, or both. -/
def afterMoment? (text : List Char) : Option (List Char) :=
  match afterDate? text with
  | some rest =>
      match rest with
      | mark :: clock =>
          if mark = 'T' ∨ mark = 't' ∨ mark = ' ' then
            match afterTime? clock with
            | some rest => some ((afterOffset? rest).getD rest)
            | none => some rest
          else some rest
      | [] => some []
  | none => afterTime? text

/-- A number or a point in time. -/
def readNumber (text : List Char) : Option (Value × List Char) :=
  match afterMoment? text with
  | some rest => some (.moment, rest)
  | none =>
      match afterReal? text with
      | some rest => some (.real, rest)
      | none => (readInteger text).map fun (value, rest) => (.integer value, rest)

end AnnexCatalog.Toml
