/-! # UTF-8

Bytes are read one character at a time. A byte sequence that is no character is cut after the
longest part that could have begun one, so that an error names a place and a width, and a lossy
reading puts one replacement character there. A text whose bytes are read gives the text back.
-/

namespace AnnexCatalog.Text.Utf8

/-- What the bytes at one place begin with. -/
inductive Step where
  /-- A character of the given width in bytes. -/
  | character (c : Char) (width : Nat)
  /-- Bytes that begin no character; the width is at least one. -/
  | malformed (width : Nat)
  /-- The input ends inside a character. -/
  | truncated
deriving DecidableEq, Repr

/-- A byte that continues a character, with the given bounds on it. -/
def continues (low high : Nat) (byte : UInt8) : Bool :=
  low ≤ byte.toNat && byte.toNat ≤ high

/-- Read the character that begins with `lead` and goes on with the bytes after it. The bounds on
the second byte keep out overlong forms, surrogates and points beyond U+10FFFF. -/
def step (lead : UInt8) (rest : List UInt8) : Step :=
  let first := lead.toNat
  if first < 0x80 then .character (Char.ofNat first) 1
  else if first < 0xC2 then .malformed 1
  else if first < 0xE0 then
    match rest with
    | [] => .truncated
    | second :: _ =>
        if continues 0x80 0xBF second then
          .character (Char.ofNat ((first - 0xC0) * 64 + (second.toNat - 0x80))) 2
        else .malformed 1
  else if first < 0xF0 then
    let low := if first = 0xE0 then 0xA0 else 0x80
    let high := if first = 0xED then 0x9F else 0xBF
    match rest with
    | [] => .truncated
    | second :: rest =>
        if !continues low high second then .malformed 1
        else match rest with
          | [] => .truncated
          | third :: _ =>
              if continues 0x80 0xBF third then
                .character (Char.ofNat ((first - 0xE0) * 4096 + (second.toNat - 0x80) * 64 +
                  (third.toNat - 0x80))) 3
              else .malformed 2
  else if first < 0xF5 then
    let low := if first = 0xF0 then 0x90 else 0x80
    let high := if first = 0xF4 then 0x8F else 0xBF
    match rest with
    | [] => .truncated
    | second :: rest =>
        if !continues low high second then .malformed 1
        else match rest with
          | [] => .truncated
          | third :: rest =>
              if !continues 0x80 0xBF third then .malformed 2
              else match rest with
                | [] => .truncated
                | fourth :: _ =>
                    if continues 0x80 0xBF fourth then
                      .character (Char.ofNat ((first - 0xF0) * 262144 +
                        (second.toNat - 0x80) * 4096 + (third.toNat - 0x80) * 64 +
                        (fourth.toNat - 0x80))) 4
                    else .malformed 3
  else .malformed 1

/-- Where and how bytes fail to be UTF-8: at `index`, with `width` bytes that begin no character,
or with an input that ends inside one. -/
structure Fault where
  index : Nat
  width : Option Nat
deriving DecidableEq, Repr

def Fault.message (fault : Fault) : String :=
  match fault.width with
  | some width =>
      "invalid utf-8 sequence of " ++ toString width ++ " bytes from index " ++ toString fault.index
  | none => "incomplete utf-8 byte sequence from index " ++ toString fault.index

/-- Read bytes from position `index` on, after passing over the `skip` bytes that an earlier
character took. -/
def decodeFrom (index : Nat) : (skip : Nat) → List UInt8 → Except Fault (List Char)
  | _, [] => .ok []
  | skip + 1, _ :: rest => decodeFrom (index + 1) skip rest
  | 0, lead :: rest =>
      match step lead rest with
      | .character c width => (decodeFrom (index + 1) (width - 1) rest).map (c :: ·)
      | .malformed width => .error ⟨index, some width⟩
      | .truncated => .error ⟨index, none⟩

/-- The text that bytes spell, or the first fault. -/
def decode (bytes : List UInt8) : Except Fault (List Char) :=
  decodeFrom 0 0 bytes

/-- The character that stands for bytes that spell none. -/
def replacement : Char := '\uFFFD'

/-- Read bytes with replacement characters, after passing over `skip` bytes. -/
def lossyFrom : (skip : Nat) → List UInt8 → List Char
  | _, [] => []
  | skip + 1, _ :: rest => lossyFrom skip rest
  | 0, lead :: rest =>
      match step lead rest with
      | .character c width => c :: lossyFrom (width - 1) rest
      | .malformed width => replacement :: lossyFrom (width - 1) rest
      | .truncated => [replacement]

/-- The text that bytes spell, with one replacement character for each fault. -/
def lossy (bytes : List UInt8) : List Char :=
  lossyFrom 0 bytes

def encode (text : List Char) : List UInt8 :=
  text.flatMap String.utf8EncodeChar

end AnnexCatalog.Text.Utf8
