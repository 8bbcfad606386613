import AnnexCatalog.Git.Batch
import AnnexCatalog.Proofs.Number.Decimal
import AnnexCatalog.Proofs.Text.Pieces
import AnnexCatalog.Proofs.Text.Utf8

/-! # Reading what was replied

A reply is taken off the front of the bytes up to its last one and no further, whatever its content
looks like (`readReply_write`). So as many replies as there are requests are read as they were
written, and what comes after them is left (`readBatch_write`).
-/

namespace AnnexCatalog.Git

open Text

/-- What a reply tells: no object, or one, with its content where contents are asked for. -/
def Reply.object? (contents : Bool) : Reply → Option BatchObject
  | .missing _ | .ambiguous _ => none
  | .found _ object => some { object with content := if contents then object.content else [] }

/-- Whether a reply keeps to its form: names and kinds hold nothing that ends them, sizes have 64
bits, and where contents are asked for a size is that of the content. -/
def Reply.Framed (contents : Bool) : Reply → Prop
  | .missing name | .ambiguous name => 10 ∉ name
  | .found name object =>
      (10 ∉ name ∧ 32 ∉ name) ∧ ('\n' ∉ object.kind.toList ∧ ' ' ∉ object.kind.toList) ∧
        object.size < Nat.pow 2 64 ∧ (contents = true → object.size = object.content.length)

instance (contents : Bool) : DecidablePred (Reply.Framed contents)
  | .missing name => inferInstanceAs (Decidable (10 ∉ name))
  | .ambiguous name => inferInstanceAs (Decidable (10 ∉ name))
  | .found name _ => inferInstanceAs (Decidable ((10 ∉ name ∧ 32 ∉ name) ∧ _ ∧ _ ∧ _))

/-! ### Lines -/

/-- The bytes before a line feed are a line, and those after it follow. -/
theorem readReply_line (contents : Bool) {line : List UInt8} (closed : 10 ∉ line)
    (rest : List UInt8) :
    readReply contents (line ++ 10 :: rest) =
      match readHeader (Utf8.lossy line) with
      | .error malformation => .error (.malformed batchCommand malformation)
      | .ok none => .ok (none, rest)
      | .ok (some (kind, size)) =>
          if contents then
            (readContent size rest).map fun (content, rest) => (some ⟨kind, size, content⟩, rest)
          else .ok (some ⟨kind, size, []⟩, rest) := by
  have letters : ∀ byte ∈ line, (byte != 10) = true := fun byte member =>
    bne_iff_ne.mpr fun same => closed (same ▸ member)
  have occupied : (line ++ 10 :: rest).isEmpty = false := by cases line <;> rfl
  have front : (line ++ 10 :: rest).takeWhile (· != 10) = line := by
    rw [List.takeWhile_append_of_pos letters]
    exact List.append_nil line
  have back : ((line ++ 10 :: rest).dropWhile (· != 10)).drop 1 = rest := by
    rw [List.dropWhile_append_of_pos letters]
    rfl
  rw [readReply, occupied, front, back]
  rfl

theorem readContent_append (content rest : List UInt8) :
    readContent content.length (content ++ 10 :: rest) = .ok (content, rest) := by
  simp only [readContent, List.take_left, List.drop_left, Nat.lt_irrefl, ↓reduceIte]

/-! ### Headers -/

/-- The first line of a reply, without its line feed. -/
def Reply.line : Reply → List UInt8
  | .missing name => name ++ Utf8.encode " missing".toList
  | .ambiguous name => name ++ Utf8.encode " ambiguous".toList
  | .found name object =>
      name ++ Utf8.encode (' ' :: (object.kind.toList ++ ' ' :: (toString object.size).toList))

/-- What follows the first line of a reply. -/
def Reply.payload (contents : Bool) : Reply → List UInt8
  | .missing _ | .ambiguous _ => []
  | .found _ object => if contents then object.content ++ [10] else []

/-- What the first line of a reply announces. -/
def Reply.heading? : Reply → Option (String × Nat)
  | .missing _ | .ambiguous _ => none
  | .found _ object => some (object.kind, object.size)

theorem encode_concat_feed (text : List Char) :
    Utf8.encode (text ++ ['\n']) = Utf8.encode text ++ [10] :=
  Utf8.encode_append text ['\n']

/-- A written reply is its line, a line feed and what follows it. -/
theorem Reply.write_eq (contents : Bool) (reply : Reply) :
    reply.write contents = reply.line ++ 10 :: reply.payload contents := by
  cases reply with
  | missing name =>
      have feed : " missing\n".toList = " missing".toList ++ ['\n'] := by decide
      rw [Reply.write, feed, encode_concat_feed, ← List.append_assoc]
      rfl
  | ambiguous name =>
      have feed : " ambiguous\n".toList = " ambiguous".toList ++ ['\n'] := by decide
      rw [Reply.write, feed, encode_concat_feed, ← List.append_assoc]
      rfl
  | found name object =>
      rw [Reply.write, encode_concat_feed, ← List.append_assoc, List.append_assoc]
      rfl

/-- A line is read up to its first space apart from the rest. -/
theorem lossy_line (name : List UInt8) (text : List Char) :
    Utf8.lossy (name ++ Utf8.encode (' ' :: text)) = Utf8.lossy name ++ ' ' :: text := by
  have sign : Utf8.encode (' ' :: text) = 32 :: Utf8.encode text := rfl
  have whole := Utf8.lossy_encode_append text []
  rw [List.append_nil] at whole
  rw [sign, Utf8.lossy_append_cons (by decide), whole]
  exact congrArg (fun rest => Utf8.lossy name ++ ' ' :: rest) (List.append_nil text)

/-- There is no line feed in the line of a reply without one in its name. -/
theorem notMem_line {name : List UInt8} {text : List Char} (closed : 10 ∉ name)
    (feedless : '\n' ∉ text) : 10 ∉ name ++ Utf8.encode text := by
  intro member
  rcases List.mem_append.mp member with inside | inside
  · exact closed inside
  · exact feedless (Utf8.mem_of_mem_encode inside (by decide))

/-- A size is written without blanks and letters. -/
theorem notMem_size {c : Char} (other : c.isDigit = false) (size : Nat) :
    c ∉ (toString size).toList := by
  intro member
  exact Bool.false_ne_true (other.symm.trans (isDigit_of_mem_toString member))

variable {contents : Bool} {reply : Reply}

/-- A framed reply has no line feed in its line. -/
theorem Reply.Framed.closed_line (framed : reply.Framed contents) : 10 ∉ reply.line := by
  cases reply with
  | missing name => exact notMem_line framed (by decide)
  | ambiguous name => exact notMem_line framed (by decide)
  | found name object =>
      obtain ⟨⟨closed, -⟩, ⟨feedless, -⟩, -⟩ := framed
      have sized := notMem_size (c := '\n') (by decide) object.size
      refine notMem_line closed ?_
      simp only [List.mem_cons, List.mem_append, not_or]
      exact ⟨by decide, feedless, by decide, sized⟩

/-- The words at the end of a line that announces no object. -/
def absences : List (List Char) := ["missing".toList, "ambiguous".toList]

/-- A line that ends in one of the two words announces no object, whatever stands before. -/
theorem readHeader_word {word : List Char}
    (absent : word ∈ [" missing".toList, " ambiguous".toList]) (name : List Char) :
    readHeader (name ++ word) = .ok none := by
  have ended : dropTail? word (name ++ word) = some name := dropTail?_eq_some_iff.mpr rfl
  simp only [List.mem_cons, List.not_mem_nil, or_false] at absent
  rw [readHeader]
  rcases absent with rfl | rfl
  · rw [ended]
    rfl
  · rw [ended, Option.isSome_some, Bool.or_true]
    rfl

/-- A line that ends in another word is a name, a kind and a size, or a fault. -/
theorem readHeader_of_last {last : List Char} (spaceless : ' ' ∉ last) (present : last ∉ absences)
    (before : List Char) :
    readHeader (before ++ ' ' :: last) =
      match pieces (· == ' ') before ++ [last] with
      | [_, kind, size] =>
          match parseNat64? size with
          | some size => .ok (some (String.ofList kind, size))
          | none => .error (.badSize (String.ofList size))
      | _ => .error (.badHeader (String.ofList (before ++ ' ' :: last))) := by
  simp only [absences, List.mem_cons, List.not_mem_nil, or_false, not_or] at present
  have missing : dropTail? " missing".toList (before ++ ' ' :: last) = none :=
    dropTail?_word (by decide) spaceless present.1 before
  have ambiguous : dropTail? " ambiguous".toList (before ++ ' ' :: last) = none :=
    dropTail?_word (by decide) spaceless present.2 before
  rw [readHeader, missing, ambiguous, pieces_append_cons rfl, pieces_of_notMem spaceless]
  rfl

/-- Of a line of three words, the last one should be a size. -/
theorem readHeader_of_three {name kind size : List Char} (unspaced : ' ' ∉ name)
    (spaceless : ' ' ∉ kind) (solid : ' ' ∉ size) (present : size ∉ absences) :
    readHeader (name ++ ' ' :: (kind ++ ' ' :: size)) =
      match parseNat64? size with
      | some size => .ok (some (String.ofList kind, size))
      | none => .error (.badSize (String.ofList size)) := by
  have whole : name ++ ' ' :: (kind ++ ' ' :: size) = (name ++ ' ' :: kind) ++ ' ' :: size := by
    simp
  rw [whole, readHeader_of_last solid present, pieces_append_cons rfl, pieces_of_notMem unspaced,
    pieces_of_notMem spaceless]
  rfl

/-- A line of a name, a kind and a size announces the kind and the size. -/
theorem readHeader_announced {name kind : List Char} (unspaced : ' ' ∉ name)
    (spaceless : ' ' ∉ kind) {size : Nat} (bounded : size < Nat.pow 2 64) :
    readHeader (name ++ ' ' :: (kind ++ ' ' :: (toString size).toList)) =
      .ok (some (String.ofList kind, size)) := by
  have present : (toString size).toList ∉ absences := by
    have lettered : ∀ word ∈ absences, word.any (fun c => !c.isDigit) = true := by decide
    intro member
    obtain ⟨c, inside, letter⟩ := List.any_eq_true.mp (lettered _ member)
    exact notMem_size (Bool.not_eq_true' c.isDigit ▸ letter) size inside
  rw [readHeader_of_three unspaced spaceless (notMem_size (by decide) size) present,
    parseNat64?_toString, if_pos bounded]

/-- The line of a reply announces what the reply tells. -/
theorem Reply.Framed.readHeader_line (framed : reply.Framed contents) :
    readHeader (Utf8.lossy reply.line) = .ok reply.heading? := by
  cases reply with
  | missing name =>
      have read : Utf8.lossy (Reply.missing name).line = Utf8.lossy name ++ " missing".toList :=
        lossy_line name "missing".toList
      rw [read]
      exact readHeader_word List.mem_cons_self _
  | ambiguous name =>
      have read : Utf8.lossy (Reply.ambiguous name).line =
          Utf8.lossy name ++ " ambiguous".toList := lossy_line name "ambiguous".toList
      rw [read]
      exact readHeader_word (List.mem_cons_of_mem _ List.mem_cons_self) _
  | found name object =>
      obtain ⟨⟨-, unspaced⟩, ⟨-, spaceless⟩, bounded, -⟩ := framed
      have nameless : ' ' ∉ Utf8.lossy name := fun member =>
        unspaced (Utf8.mem_of_mem_lossyFrom (by decide) member)
      rw [Reply.line, lossy_line, readHeader_announced nameless spaceless bounded,
        String.ofList_toList]
      rfl

/-- A reply is read as what it tells, up to its last byte. -/
theorem readReply_write (framed : reply.Framed contents) (rest : List UInt8) :
    readReply contents (reply.write contents ++ rest) = .ok (reply.object? contents, rest) := by
  rw [Reply.write_eq, List.append_assoc, List.cons_append,
    readReply_line contents framed.closed_line, framed.readHeader_line]
  cases reply with
  | missing name => rfl
  | ambiguous name => rfl
  | found name object =>
      cases contents with
      | false => rfl
      | true =>
          obtain ⟨-, -, -, sized⟩ := framed
          have taken := readContent_append object.content rest
          rw [← sized rfl] at taken
          simp only [Reply.heading?, Reply.payload, ↓reduceIte, List.append_assoc,
            List.singleton_append, taken]
          rfl

/-- **The framing of replies is undone exactly.** As many replies as were written are read as what
they tell, with their contents where these are asked for and without them where only headers are.
Bytes that come after them are left. -/
theorem readBatch_write {replies : List Reply} (framed : ∀ reply ∈ replies, reply.Framed contents)
    (trailing : List UInt8) :
    readBatch contents replies.length (replies.flatMap (Reply.write contents) ++ trailing) =
      .ok (replies.map (Reply.object? contents), trailing) := by
  induction replies with
  | nil => rfl
  | cons reply others later =>
      obtain ⟨first, rest⟩ := List.forall_mem_cons.mp framed
      rw [List.length_cons, List.flatMap_cons, List.append_assoc, readBatch, readReply_write first]
      exact bind_eq_ok_iff.mpr ⟨_, rfl, bind_eq_ok_iff.mpr ⟨_, later rest, rfl⟩⟩

/-- A content that imitates a reply, after a name that is no text; and the greatest size, without a
content. -/
theorem readBatch_write_of_imitation :
    let content := Utf8.encode "a missing\n\x00b blob 3\n".toList
    let replies : List Reply :=
      [.missing [0xFF, 0x20, 0x61], .found [0x62, 0xC3] ⟨"blob", 20, content⟩, .ambiguous [0x63]]
    let greatest : Reply := .found [0x64] ⟨"tree", 18446744073709551615, []⟩
    readBatch true 3 (replies.flatMap (Reply.write true) ++ [0x0A, 0xFF]) =
        .ok ([none, some ⟨"blob", 20, content⟩, none], [0x0A, 0xFF]) ∧
      readBatch false 1 ([greatest].flatMap (Reply.write false) ++ [0x20]) =
        .ok ([some ⟨"tree", 18446744073709551615, []⟩], [0x20]) := by
  intro content replies greatest
  have several : ∀ reply ∈ replies, reply.Framed true := by decide +kernel
  have single : ∀ reply ∈ [greatest], reply.Framed false := by decide +kernel
  exact ⟨readBatch_write several _, readBatch_write single _⟩

end AnnexCatalog.Git
