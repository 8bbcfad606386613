import AnnexCatalog.Git.Error
import AnnexCatalog.Number.Decimal
import AnnexCatalog.Text.Pieces
import AnnexCatalog.Text.Utf8

/-! # Replies to a batch of requests

For every object that is asked for there is one reply: a line that says that the object is missing,
or a line with its name, kind and size. Where contents are asked for, as many bytes as the size says
and a line feed follow. Beside the reader of replies stands their writer.
-/

namespace AnnexCatalog.Git

open Text

/-- An object in a reply; without its content where only headers are asked for. -/
structure BatchObject where
  kind : String
  size : Nat
  content : List UInt8
deriving DecidableEq, Repr

/-- The command whose output is read. -/
def batchCommand : String := "git cat-file"

/-- What a header announces: no object, or one of a kind and a size. -/
def readHeader (line : List Char) : Except Malformation (Option (String × Nat)) :=
  if (dropTail? " missing".toList line).isSome || (dropTail? " ambiguous".toList line).isSome then
    .ok none
  else match pieces (· == ' ') line with
    | [_, kind, size] =>
        match parseNat64? size with
        | some size => .ok (some (String.ofList kind, size))
        | none => .error (.badSize (String.ofList size))
    | _ => .error (.badHeader (String.ofList line))

/-- The content of an object and the line feed after it, with what follows. -/
def readContent (size : Nat) (input : List UInt8) :
    Except Fault (List UInt8 × List UInt8) :=
  let content := input.take size
  if content.length < size then .error (.malformed batchCommand .truncated)
  else match input.drop size with
    | [] => .error .io
    | terminator :: rest =>
        if terminator = 10 then .ok (content, rest)
        else .error (.malformed batchCommand .noTerminator)

/-- One reply, with what follows. A last line may lack its line feed. -/
def readReply (contents : Bool) (input : List UInt8) :
    Except Fault (Option BatchObject × List UInt8) :=
  if input.isEmpty then .error (.malformed batchCommand .endedEarly)
  else
    let line := Utf8.lossy (input.takeWhile (· != 10))
    let rest := (input.dropWhile (· != 10)).drop 1
    match readHeader line with
    | .error malformation => .error (.malformed batchCommand malformation)
    | .ok none => .ok (none, rest)
    | .ok (some (kind, size)) =>
        if contents then
          (readContent size rest).map fun (content, rest) => (some ⟨kind, size, content⟩, rest)
        else .ok (some ⟨kind, size, []⟩, rest)

/-- As many replies as there were requests, with what follows them. -/
def readBatch (contents : Bool) :
    (count : Nat) → List UInt8 → Except Fault (List (Option BatchObject) × List UInt8)
  | 0, input => .ok ([], input)
  | count + 1, input => do
      let (reply, input) ← readReply contents input
      let (replies, input) ← readBatch contents count input
      return (reply :: replies, input)

/-- What is replied to one request. A name is given back in the bytes in which it was asked for. -/
inductive Reply where
  | missing (name : List UInt8)
  | ambiguous (name : List UInt8)
  | found (name : List UInt8) (object : BatchObject)

def Reply.write (contents : Bool) : Reply → List UInt8
  | .missing name => name ++ Utf8.encode " missing\n".toList
  | .ambiguous name => name ++ Utf8.encode " ambiguous\n".toList
  | .found name object =>
      name ++ Utf8.encode (' ' :: object.kind.toList ++ ' ' :: (toString object.size).toList ++
        ['\n']) ++ if contents then object.content ++ [10] else []

end AnnexCatalog.Git
