/-! # Base64 with the standard alphabet

Three bytes are written as four letters of six bits each; a last group of one or two bytes is filled
up with zero bits and padding. Reading is strict: the padding has to complete the last group and the
spare bits have to be zero, so every byte sequence has exactly one written form.
-/

namespace AnnexCatalog.Text.Base64

def letter (value : Nat) : Char :=
  if value < 26 then Char.ofNat ('A'.toNat + value)
  else if value < 52 then Char.ofNat ('a'.toNat + (value - 26))
  else if value < 62 then Char.ofNat ('0'.toNat + (value - 52))
  else if value = 62 then '+'
  else '/'

/-- The written form of bytes. -/
def encode : List UInt8 → List Char
  | [] => []
  | [a] => [letter (a.toNat / 4), letter (a.toNat % 4 * 16), '=', '=']
  | [a, b] =>
      [letter (a.toNat / 4), letter (a.toNat % 4 * 16 + b.toNat / 16),
        letter (b.toNat % 16 * 4), '=']
  | a :: b :: c :: rest =>
      letter (a.toNat / 4) :: letter (a.toNat % 4 * 16 + b.toNat / 16) ::
        letter (b.toNat % 16 * 4 + c.toNat / 64) :: letter (c.toNat % 64) :: encode rest

/-- Why a text is not the written form of bytes. Positions count bytes of the text. -/
inductive Fault where
  /-- A byte that is no letter, or padding in a place where none may stand. -/
  | symbol (byte : UInt8) (position : Nat)
  /-- A last letter with spare bits that are not zero. -/
  | lastSymbol (byte : UInt8) (position : Nat)
  /-- A single letter in the last group. -/
  | length (size : Nat)
  /-- A last group that its padding does not complete. -/
  | padding
deriving DecidableEq, Repr

def Fault.message : Fault → String
  | .symbol byte position =>
      "Invalid symbol " ++ toString byte.toNat ++ ", offset " ++ toString position ++ "."
  | .lastSymbol byte position =>
      "Invalid last symbol " ++ toString byte.toNat ++ ", offset " ++ toString position ++ "."
  | .length size => "Invalid input length: " ++ toString size
  | .padding => "Invalid padding"

/-- The byte of the padding sign. -/
def pad : UInt8 := 61

/-- The six bits that a letter stands for. -/
def value? (byte : UInt8) : Option Nat :=
  let code := byte.toNat
  if 65 ≤ code ∧ code ≤ 90 then some (code - 65)
  else if 97 ≤ code ∧ code ≤ 122 then some (code - 97 + 26)
  else if 48 ≤ code ∧ code ≤ 57 then some (code - 48 + 52)
  else if code = 43 then some 62
  else if code = 47 then some 63
  else none

/-- The six-bit values of letters that begin at a position. -/
def values (position : Nat) : List UInt8 → Except Fault (List Nat)
  | [] => .ok []
  | byte :: rest =>
      match value? byte with
      | none => .error (.symbol byte position)
      | some value => (values (position + 1) rest).map (value :: ·)

/-- The whole bytes that up to four six-bit values spell; spare bits are left out. -/
def assemble : List Nat → List UInt8
  | a :: b :: c :: d :: _ =>
      [UInt8.ofNat (a * 4 + b / 16), UInt8.ofNat (b % 16 * 16 + c / 4),
        UInt8.ofNat (c % 4 * 64 + d)]
  | [a, b, c] => [UInt8.ofNat (a * 4 + b / 16), UInt8.ofNat (b % 16 * 16 + c / 4)]
  | [a, b] => [UInt8.ofNat (a * 4 + b / 16)]
  | _ => []

/-- The bits of the last value that no byte takes up. -/
def spareBits : List Nat → Nat
  | [_, b] => b % 16
  | [_, _, c] => c % 4
  | _ => 0

/-- Read the last group, which begins at a position and has at most four bytes. -/
def lastGroup (position : Nat) (group : List UInt8) : Except Fault (List UInt8) := do
  let letters := group.takeWhile (· != pad)
  let padding := group.dropWhile (· != pad)
  let known ← values position letters
  if padding ≠ [] ∧ (letters.length < 2 ∨ padding.any (· != pad)) then
    throw (.symbol pad (position + letters.length))
  if letters.length < 2 then
    throw (.length (position + letters.length))
  if group.length % 4 ≠ 0 then
    throw .padding
  if spareBits known ≠ 0 then
    throw (.lastSymbol (letters.getLast?.getD pad) (position + letters.length - 1))
  return assemble known

/-- Read groups of four from a position on; a group is the last one when nothing follows it. -/
def groups (position : Nat) : List UInt8 → Except Fault (List UInt8)
  | a :: b :: c :: d :: e :: rest => do
      let known ← values position [a, b, c, d]
      let others ← groups (position + 4) (e :: rest)
      return assemble known ++ others
  | group => lastGroup position group

/-- Read a written form. A last byte that stands alone in its group and is neither a letter nor
padding is reported before any other fault. -/
def decode (input : List UInt8) : Except Fault (List UInt8) :=
  match input.getLast? with
  | none => .ok []
  | some last =>
      if input.length % 4 = 1 ∧ last ≠ pad ∧ value? last = none then
        .error (.symbol last (input.length - 1))
      else groups 0 input

end AnnexCatalog.Text.Base64
