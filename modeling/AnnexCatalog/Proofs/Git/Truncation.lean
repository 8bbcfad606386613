import AnnexCatalog.Proofs.Git.Framing

/-! # Replies that are cut short

The output may end anywhere: inside a name, a kind, a size or a content, or before the line feed
that closes it. Where contents are asked for, a cut is noticed or does no harm, since a content must
follow its line in full. Where only headers are asked for, the line is all there is. A line that has
lost its line feed tells what it told before, but one that ends inside its size announces an object
that is too small (`readBatch_misread_iff`).
-/

namespace AnnexCatalog.Git

open Text

/-- The kinds of objects that there are. -/
def objectKinds : List String := ["blob", "tree", "commit", "tag"]

/-- Whether a reply is about an object of such a kind or, where only headers are asked for, about a
name without spaces. -/
def Reply.Genuine (contents : Bool) : Reply → Prop
  | .missing name | .ambiguous name => contents = false → 32 ∉ name
  | .found _ object => object.kind ∈ objectKinds

instance (contents : Bool) : DecidablePred (Reply.Genuine contents)
  | .missing name => inferInstanceAs (Decidable (contents = false → 32 ∉ name))
  | .ambiguous name => inferInstanceAs (Decidable (contents = false → 32 ∉ name))
  | .found _ object => inferInstanceAs (Decidable (object.kind ∈ objectKinds))

/-- An object whose size has lost its last digits. -/
def BatchObject.shortened (object : BatchObject) (digits : Nat) : BatchObject :=
  { object with size := object.size / 10 ^ digits }

/-- Bytes that begin as a reply about an object does, and end behind some of the digits of its
size. -/
def Reply.EndsInSize (reply : Reply) (kept : List UInt8) : Prop :=
  ∃ name object digits, 0 < digits ∧ 10 ^ digits ≤ object.size ∧ reply = .found name object ∧
    kept = (Reply.found name (object.shortened digits)).line

variable {contents : Bool} {reply : Reply} {name kept lost : List UInt8} {object : BatchObject}

/-- A reply is framed with a shorter size as well, where no contents are read. -/
theorem Reply.Framed.shortened (framed : (Reply.found name object).Framed contents)
    (digits : Nat) : (Reply.found name (object.shortened digits)).Framed false :=
  ⟨framed.1, framed.2.1, Nat.lt_of_le_of_lt (Nat.div_le_self _ _) framed.2.2.1, nofun⟩

/-! ### Headers that are cut short -/

/-- A name without spaces is decoded without spaces. -/
theorem lossy_spaceless (unspaced : 32 ∉ name) : ' ' ∉ Utf8.lossy name :=
  fun member => unspaced (Utf8.mem_of_mem_lossyFrom (by decide) member)

/-- A line that is cut short ends inside its first word or after it. -/
theorem cut_line_cases {text : List Char} (ascii : ∀ c ∈ text, c.toNat < 0x80)
    (cut : name ++ Utf8.encode (' ' :: text) = kept ++ lost) :
    (∃ others, name = kept ++ others) ∨ ∃ front back, text = front ++ back ∧
      kept = name ++ Utf8.encode (' ' :: front) ∧ lost = Utf8.encode back := by
  rcases List.append_eq_append_iff.mp cut with ⟨more, rfl, rest⟩ | ⟨others, rfl, -⟩
  · obtain ⟨before, back, split, rfl, rfl⟩ :=
      Utf8.encode_eq_append_of_ascii (List.forall_mem_cons.mpr ⟨by decide, ascii⟩) rest
    cases before with
    | nil => exact .inl ⟨[], by simp [Utf8.encode]⟩
    | cons space front =>
        obtain ⟨rfl, rfl⟩ := List.cons.inj split
        exact .inr ⟨front, back, rfl, rfl, rfl⟩
  · exact .inl ⟨others, rfl⟩

/-- A line without a space announces nothing. -/
theorem readHeader_of_spaceless {text : List Char} (spaceless : ' ' ∉ text) :
    readHeader text = .error (.badHeader (String.ofList text)) := by
  have unworded (word : List Char) : dropTail? (' ' :: word) text = none := by
    refine Option.eq_none_iff_forall_ne_some.mpr fun rest found => spaceless ?_
    rw [dropTail?_eq_some_iff.mp found]
    exact List.mem_append_right _ List.mem_cons_self
  have missing : dropTail? " missing".toList text = none := unworded "missing".toList
  have ambiguous : dropTail? " ambiguous".toList text = none := unworded "ambiguous".toList
  rw [readHeader, missing, ambiguous, pieces_of_notMem spaceless]
  rfl

/-- A line of two words announces no object. -/
theorem readHeader_of_two {first last : List Char} (unspaced : ' ' ∉ first) (solid : ' ' ∉ last)
    (heading : String × Nat) : readHeader (first ++ ' ' :: last) ≠ .ok (some heading) := by
  by_cases absent : last ∈ absences
  · have absence : readHeader (first ++ ' ' :: last) = .ok none := by
      simp only [absences, List.mem_cons, List.not_mem_nil, or_false] at absent
      rcases absent with rfl | rfl
      · exact readHeader_word List.mem_cons_self first
      · exact readHeader_word (List.mem_cons_of_mem _ List.mem_cons_self) first
    rw [absence]
    intro same
    cases same
  · rw [readHeader_of_last solid absent, pieces_of_notMem unspaced]
    intro same
    cases same

/-- No beginning of a line that announces no object announces one. -/
theorem readHeader_cut_absent {word : List Char} (unspaced : 32 ∉ name) (absent : word ∈ absences)
    (cut : name ++ Utf8.encode (' ' :: word) = kept ++ lost) (heading : String × Nat) :
    readHeader (Utf8.lossy kept) ≠ .ok (some heading) := by
  have letters : ∀ word ∈ absences, word.all (·.toNat < 0x80) = true := by decide
  have ascii : ∀ c ∈ word, c.toNat < 0x80 := fun c member =>
    of_decide_eq_true (List.all_eq_true.mp (letters word absent) c member)
  have spaceless : ∀ word ∈ absences, ' ' ∉ word := by decide
  rcases cut_line_cases ascii cut with ⟨others, rfl⟩ | ⟨front, back, rfl, rfl, -⟩
  · rw [readHeader_of_spaceless (lossy_spaceless (mt (List.mem_append_left _) unspaced))]
    intro same
    cases same
  · rw [lossy_line]
    exact readHeader_of_two (lossy_spaceless unspaced)
      (mt (List.mem_append_left _) (spaceless _ absent)) heading

/-- A line that ends with the kind of an object, or inside it, is a fault. -/
theorem exists_malformation_of_kind {first front : List Char} {kind : String}
    (unspaced : ' ' ∉ first) (known : kind ∈ objectKinds) (begins : front <+: kind.toList) :
    ∃ malformation, readHeader (first ++ ' ' :: front) = .error malformation := by
  have spaceless : ∀ kind ∈ objectKinds, ' ' ∉ kind.toList := by decide
  have apart : ∀ kind ∈ objectKinds, ∀ word ∈ absences, ¬ word <+: kind.toList := by decide
  have solid : ' ' ∉ front := mt (fun member => begins.subset member) (spaceless kind known)
  have present : front ∉ absences := fun member => apart kind known front member begins
  rw [readHeader_of_last solid present, pieces_of_notMem unspaced]
  exact ⟨_, rfl⟩

/-- No beginning of a line that announces an object announces another one, but for one with the first
digits of its size. -/
theorem readHeader_cut_found (unspaced : 32 ∉ name) (known : object.kind ∈ objectKinds)
    (cut : (Reply.found name object).line = kept ++ lost) (short : lost ≠ []) :
    (∃ malformation, readHeader (Utf8.lossy kept) = .error malformation) ∨
      (Reply.found name object).EndsInSize kept := by
  have letters : ∀ kind ∈ objectKinds, kind.toList.all (·.toNat < 0x80) = true := by decide
  have spaces : ∀ kind ∈ objectKinds, ' ' ∉ kind.toList := by decide
  have spaceless := spaces _ known
  have ascii : ∀ c ∈ object.kind.toList ++ ' ' :: (toString object.size).toList,
      c.toNat < 0x80 := by
    refine List.forall_mem_append.mpr ⟨fun c member =>
      of_decide_eq_true (List.all_eq_true.mp (letters _ known) c member), ?_⟩
    refine List.forall_mem_cons.mpr ⟨by decide, fun c member => ?_⟩
    obtain ⟨-, most⟩ := Bool.and_eq_true_iff.mp (isDigit_of_mem_toString member)
    exact Nat.lt_of_le_of_lt (of_decide_eq_true most) (by decide)
  have solid := lossy_spaceless unspaced
  rcases cut_line_cases ascii cut with ⟨others, rfl⟩ | ⟨front, back, split, rfl, rfl⟩
  · exact .inl ⟨_, readHeader_of_spaceless (lossy_spaceless (mt (List.mem_append_left _) unspaced))⟩
  rw [lossy_line]
  rcases List.append_eq_append_iff.mp split with ⟨_ | ⟨space, size⟩, rfl, rest⟩ | ⟨others, kind, -⟩
  · rw [List.append_nil]
    exact .inl (exists_malformation_of_kind solid known (List.prefix_refl _))
  · obtain ⟨rfl, written⟩ := List.cons.inj rest
    by_cases empty : size = []
    · subst empty
      rw [readHeader_of_three solid spaceless List.not_mem_nil (by decide)]
      exact .inl ⟨_, rfl⟩
    · have lacking : back ≠ [] := fun none => short (none ▸ rfl)
      obtain ⟨same, bound⟩ := beginning_of_toString written empty lacking
      refine .inr ⟨name, object, back.length, List.length_pos_of_ne_nil lacking, bound, rfl, ?_⟩
      rw [same]
      rfl
  · exact .inl (exists_malformation_of_kind solid known ⟨others, kind.symm⟩)

/-! ### Replies that are cut short -/

/-- A content is not read from fewer bytes than it takes with its line feed. -/
theorem exists_fault_readContent {size : Nat} {input : List UInt8} (short : input.length ≤ size) :
    ∃ fault, readContent size input = .error fault := by
  rw [readContent, List.take_of_length_le short, List.drop_of_length_le short]
  split
  · exact ⟨_, rfl⟩
  · exact ⟨_, rfl⟩

/-- Bytes without a line feed are a line, after which the input ends. -/
theorem readReply_unended (contents : Bool) {line : List UInt8} (occupied : line ≠ [])
    (closed : 10 ∉ line) :
    readReply contents line =
      match readHeader (Utf8.lossy line) with
      | .error malformation => .error (.malformed batchCommand malformation)
      | .ok none => .ok (none, [])
      | .ok (some (kind, size)) =>
          if contents then
            (readContent size []).map fun (content, rest) => (some ⟨kind, size, content⟩, rest)
          else .ok (some ⟨kind, size, []⟩, []) := by
  have letters : ∀ byte ∈ line, (byte != 10) = true := fun byte member =>
    bne_iff_ne.mpr fun same => closed (same ▸ member)
  rw [readReply, List.isEmpty_eq_false_iff.mpr occupied, if_neg Bool.false_ne_true,
    List.takeWhile_eq_self_iff.mpr letters, List.dropWhile_eq_nil_iff.mpr letters]
  rfl

/-- A line at the end of the input is a fault or announces something, but no object where its content
should follow. -/
theorem readReply_unended_cases (contents : Bool) {line : List UInt8} (closed : 10 ∉ line) :
    (∃ fault, readReply contents line = .error fault) ∨
      ∃ heading, readHeader (Utf8.lossy line) = .ok heading ∧ (contents = true → heading = none) ∧
        readReply contents line = .ok (heading.map fun (kind, size) => ⟨kind, size, []⟩, []) := by
  by_cases empty : line = []
  · subst empty
    exact .inl ⟨_, rfl⟩
  rw [readReply_unended contents empty closed]
  rcases readHeader (Utf8.lossy line) with malformation | _ | ⟨kind, size⟩
  · exact .inl ⟨_, rfl⟩
  · exact .inr ⟨none, rfl, fun _ => rfl, rfl⟩
  · cases contents with
    | false => exact .inr ⟨_, rfl, nofun, rfl⟩
    | true =>
        have short : ([] : List UInt8).length ≤ size := Nat.zero_le size
        obtain ⟨fault, failed⟩ := exists_fault_readContent short
        refine .inl ⟨fault, ?_⟩
        dsimp only
        rw [if_pos rfl, failed]
        rfl

/-- The line of a reply is enough where only headers are asked for. -/
theorem Reply.Framed.readReply_line (framed : reply.Framed false) :
    readReply false reply.line = .ok (reply.object? false, []) := by
  have occupied : reply.line ≠ [] := by
    cases reply <;> exact fun none => List.cons_ne_nil _ _ (List.append_eq_nil_iff.mp none).2
  rw [readReply_unended false occupied framed.closed_line, framed.readHeader_line]
  cases reply <;> rfl

/-- The line of an absence that is cut is a fault, or it is still read as an absence. -/
theorem readReply_cut_absent {word : List Char} (absent : word ∈ absences)
    (unspaced : contents = false → 32 ∉ name) (closed : 10 ∉ kept)
    (cut : name ++ Utf8.encode (' ' :: word) = kept ++ lost) :
    (∃ fault, readReply contents kept = .error fault) ∨
      readReply contents kept = .ok (none, []) := by
  refine (readReply_unended_cases contents closed).imp_right ?_
  rintro ⟨heading, announced, unasked, read⟩
  cases heading with
  | none => exact read
  | some heading =>
      cases contents with
      | true => exact absurd (unasked rfl) nofun
      | false => exact absurd announced (readHeader_cut_absent (unspaced rfl) absent cut heading)

/-- The line of an object that is cut is a fault, or still the object, or a header that ends inside
its size. -/
theorem readReply_cut_found (framed : (Reply.found name object).Framed contents)
    (known : object.kind ∈ objectKinds) (closed : 10 ∉ kept)
    (cut : (Reply.found name object).line = kept ++ lost) :
    (∃ fault, readReply contents kept = .error fault) ∨
      readReply contents kept = .ok ((Reply.found name object).object? contents, []) ∨
        contents = false ∧ (Reply.found name object).EndsInSize kept := by
  refine (readReply_unended_cases contents closed).imp_right ?_
  rintro ⟨heading, announced, unasked, read⟩
  by_cases whole : lost = []
  · left
    rw [whole, List.append_nil] at cut
    have same := framed.readHeader_line
    rw [cut, announced] at same
    obtain rfl := Except.ok.inj same
    cases contents with
    | true => exact absurd (unasked rfl) nofun
    | false => exact read
  · right
    rcases readHeader_cut_found framed.1.2 known cut whole with ⟨malformation, failed⟩ | shortened
    · rw [announced] at failed
      cases failed
    · refine ⟨?_, shortened⟩
      obtain ⟨_, _, digits, -, -, same, rfl⟩ := shortened
      obtain ⟨rfl, rfl⟩ := Reply.found.inj same
      rw [(framed.shortened digits).readHeader_line] at announced
      obtain rfl := Except.ok.inj announced
      cases contents with
      | true => exact absurd (unasked rfl) nofun
      | false => rfl

/-- The line of a reply that is cut is a fault, or still the reply, or a header that ends inside its
size. -/
theorem readReply_cut_line (framed : reply.Framed contents) (genuine : reply.Genuine contents)
    (cut : reply.line = kept ++ lost) :
    (∃ fault, readReply contents kept = .error fault) ∨
      readReply contents kept = .ok (reply.object? contents, []) ∨
        contents = false ∧ reply.EndsInSize kept := by
  have closed : 10 ∉ kept := fun member =>
    framed.closed_line (cut ▸ List.mem_append_left lost member)
  cases reply with
  | missing name =>
      exact (readReply_cut_absent List.mem_cons_self genuine closed cut).imp_right .inl
  | ambiguous name =>
      have absent : "ambiguous".toList ∈ absences := List.mem_cons_of_mem _ List.mem_cons_self
      exact (readReply_cut_absent absent genuine closed cut).imp_right .inl
  | found name object => exact readReply_cut_found framed genuine closed cut

/-- A reply that is cut short behind its line is a fault: its content is not complete. -/
theorem readReply_cut_payload (framed : reply.Framed contents) {part : List UInt8}
    (cut : reply.payload contents = part ++ lost) (short : lost ≠ []) :
    ∃ fault, readReply contents (reply.line ++ 10 :: part) = .error fault := by
  rw [readReply_line contents framed.closed_line, framed.readHeader_line]
  have payload : reply.payload contents ≠ [] := fun none =>
    short (List.append_eq_nil_iff.mp (cut.symm.trans none)).2
  cases reply with
  | missing name => exact absurd rfl payload
  | ambiguous name => exact absurd rfl payload
  | found name object =>
      cases contents with
      | false => exact absurd rfl payload
      | true =>
          have sized : object.size = object.content.length := framed.2.2.2 rfl
          have lengths := congrArg List.length cut
          have lacking := List.length_pos_of_ne_nil short
          simp only [Reply.payload, ↓reduceIte, List.length_append, List.length_singleton] at lengths
          have fewer : part.length ≤ object.size := by omega
          obtain ⟨fault, failed⟩ := exists_fault_readContent fewer
          refine ⟨fault, ?_⟩
          simp only [Reply.heading?, ↓reduceIte, failed]
          rfl

/-- A reply that is cut short is read as a fault, as what the whole of it tells, or as telling of an
object whose size has lost its last digits. -/
theorem readReply_cut (framed : reply.Framed contents) (genuine : reply.Genuine contents)
    (cut : reply.write contents = kept ++ lost) (short : lost ≠ []) :
    (∃ fault, readReply contents kept = .error fault) ∨
      readReply contents kept = .ok (reply.object? contents, []) ∨
        contents = false ∧ reply.EndsInSize kept := by
  rw [Reply.write_eq] at cut
  rcases List.append_eq_append_iff.mp cut with ⟨_ | ⟨feed, part⟩, rfl, rest⟩ | ⟨others, line, -⟩
  · have whole : reply.line = (reply.line ++ []) ++ [] := by
      rw [List.append_nil, List.append_nil]
    exact readReply_cut_line framed genuine whole
  · obtain ⟨rfl, payload⟩ := List.cons.inj rest
    exact .inl (readReply_cut_payload framed payload short)
  · exact readReply_cut_line framed genuine line

/-- A reply that ends inside its size is read, and not as it was written. -/
theorem Reply.EndsInSize.exists_readReply (inside : reply.EndsInSize kept)
    (framed : reply.Framed false) :
    ∃ told, readReply false kept = .ok (told, []) ∧ told ≠ reply.object? false := by
  obtain ⟨name, object, digits, positive, bound, rfl, rfl⟩ := inside
  refine ⟨_, (framed.shortened digits).readReply_line, fun same => ?_⟩
  have smaller : object.size / 10 ^ digits < object.size :=
    Nat.div_lt_self (Nat.lt_of_lt_of_le (Nat.pow_pos (by decide)) bound)
      (Nat.one_lt_pow positive.ne' (by decide))
  exact smaller.ne (congrArg BatchObject.size (Option.some.inj same))

/-! ### Streams that are cut short -/

/-- Where the input ends with a reply, it is the last one or fewer than were asked for. -/
theorem readBatch_ended {told : Option BatchObject}
    (read : readReply contents kept = .ok (told, [])) (others : Nat) :
    (∃ fault, readBatch contents (others + 1) kept = .error fault) ∨
      others = 0 ∧ readBatch contents (others + 1) kept = .ok ([told], []) := by
  rw [readBatch, read]
  cases others with
  | zero => exact .inr ⟨rfl, rfl⟩
  | succ others => exact .inl ⟨_, rfl⟩

/-- Replies that are cut short are read as a fault, as what the whole of them tells, or, where only
headers are asked for, they end in a size that has lost its last digits. -/
theorem readBatch_cut {replies : List Reply} (framed : ∀ reply ∈ replies, reply.Framed contents)
    (genuine : ∀ reply ∈ replies, reply.Genuine contents)
    (cut : replies.flatMap (Reply.write contents) = kept ++ lost) (short : lost ≠ []) :
    (∃ fault, readBatch contents replies.length kept = .error fault) ∨
      readBatch contents replies.length kept = .ok (replies.map (Reply.object? contents), []) ∨
        contents = false ∧ ∃ earlier last front, replies = earlier ++ [last] ∧
          last.EndsInSize front ∧ kept = earlier.flatMap (Reply.write false) ++ front := by
  induction replies generalizing kept with
  | nil => exact absurd (List.append_eq_nil_iff.mp cut.symm).2 short
  | cons reply others step =>
      obtain ⟨first, rest⟩ := List.forall_mem_cons.mp framed
      obtain ⟨known, alike⟩ := List.forall_mem_cons.mp genuine
      rw [List.flatMap_cons] at cut
      rw [List.length_cons]
      -- The cut is behind the first reply or inside it.
      rcases append_eq_append_cases cut with ⟨later, rfl, left⟩ | ⟨missed, missing, here⟩
      · rw [readBatch, readReply_write first]
        rcases step rest alike left with ⟨fault, failed⟩ | read |
          ⟨rfl, earlier, last, front, rfl, inside, rfl⟩
        · exact .inl ⟨fault, bind_eq_error_iff.mpr (.inr ⟨_, rfl,
            bind_eq_error_iff.mpr (.inl failed)⟩)⟩
        · exact .inr (.inl (bind_eq_ok_iff.mpr ⟨_, rfl, bind_eq_ok_iff.mpr ⟨_, read, rfl⟩⟩))
        · refine .inr (.inr ⟨rfl, reply :: earlier, last, front, rfl, inside, ?_⟩)
          rw [List.flatMap_cons, List.append_assoc]
      · rcases readReply_cut first known here missing with ⟨fault, failed⟩ | read | ⟨rfl, inside⟩
        · exact .inl ⟨fault, bind_eq_error_iff.mpr (.inl failed)⟩
        · rcases readBatch_ended read others.length with failed | ⟨none, done⟩
          · exact .inl failed
          · obtain rfl := List.length_eq_zero_iff.mp none
            exact .inr (.inl done)
        · obtain ⟨told, read, -⟩ := inside.exists_readReply first
          rcases readBatch_ended read others.length with failed | ⟨none, -⟩
          · exact .inl failed
          · obtain rfl := List.length_eq_zero_iff.mp none
            exact .inr (.inr ⟨rfl, [], reply, kept, rfl, inside, rfl⟩)

/-- Replies at the front are read as they were written, and then what comes after them. -/
theorem readBatch_append {earlier : List Reply} (framed : ∀ reply ∈ earlier, reply.Framed contents)
    (count : Nat) (input : List UInt8) :
    readBatch contents (earlier.length + count) (earlier.flatMap (Reply.write contents) ++ input) =
      (readBatch contents count input).map fun (replies, rest) =>
        (earlier.map (Reply.object? contents) ++ replies, rest) := by
  induction earlier with
  | nil =>
      rw [List.length_nil, Nat.zero_add, List.flatMap_nil, List.nil_append]
      cases readBatch contents count input <;> rfl
  | cons reply others step =>
      obtain ⟨first, rest⟩ := List.forall_mem_cons.mp framed
      rw [List.length_cons, Nat.add_right_comm, List.flatMap_cons, List.append_assoc, readBatch,
        readReply_write first]
      change (readBatch contents (others.length + count) _ >>= _) = _
      rw [step rest]
      cases readBatch contents count input <;> rfl

/-- **A stream that was cut short is misread only inside the last size.** What is read of the first
bytes of well-formed replies is a fault or what the whole of them tells, but for one case: only
headers are asked for, and the bytes end after some, but not all, digits of the size of the last
object. -/
theorem readBatch_misread_iff {replies : List Reply}
    (framed : ∀ reply ∈ replies, reply.Framed contents)
    (genuine : ∀ reply ∈ replies, reply.Genuine contents)
    (cut : replies.flatMap (Reply.write contents) = kept ++ lost) (short : lost ≠ []) :
    (∃ told, readBatch contents replies.length kept = .ok told ∧
        readBatch contents replies.length (kept ++ lost) ≠ .ok told) ↔
      contents = false ∧ ∃ earlier last front, replies = earlier ++ [last] ∧
        last.EndsInSize front ∧ kept = earlier.flatMap (Reply.write false) ++ front := by
  have whole : readBatch contents replies.length (kept ++ lost) =
      .ok (replies.map (Reply.object? contents), []) := by
    have read := readBatch_append framed 0 []
    rw [List.append_nil, Nat.add_zero, cut] at read
    rw [read]
    exact congrArg (fun told => Except.ok (told, [])) (List.append_nil _)
  rw [whole]
  constructor
  · rintro ⟨told, read, differs⟩
    rcases readBatch_cut framed genuine cut short with ⟨fault, failed⟩ | same | shortened
    · rw [failed] at read
      cases read
    · exact absurd (same.symm.trans read) differs
    · exact shortened
  · rintro ⟨rfl, earlier, last, front, rfl, inside, rfl⟩
    obtain ⟨before, final⟩ := List.forall_mem_append.mp framed
    obtain ⟨told, line, differs⟩ := inside.exists_readReply (final _ List.mem_cons_self)
    have one : readBatch false 1 front = .ok ([told], []) := by
      rw [readBatch, line]
      rfl
    have read := readBatch_append before 1 front
    rw [one] at read
    rw [List.length_append, List.length_singleton, read]
    refine ⟨_, rfl, fun same => differs ?_⟩
    have ends := congrArg Prod.fst (Except.ok.inj same)
    rw [List.map_append] at ends
    exact (List.cons.inj (List.append_cancel_left ends)).1.symm

/-- A content is cut off inside what could be the size of another reply. -/
theorem readBatch_misread_iff_of_content :
    let replies : List Reply :=
      [.missing [0xFF, 0x20, 0x61], .found [0x62] ⟨"blob", 10, Utf8.encode "\na blob 30".toList⟩]
    let kept := 0xFF :: Utf8.encode " a missing\nb blob 10\n\na blob 3".toList
    let lost := Utf8.encode "0\n".toList
    replies.flatMap (Reply.write true) = kept ++ lost ∧
      ¬ ∃ told, readBatch true 2 kept = .ok told ∧ readBatch true 2 (kept ++ lost) ≠ .ok told := by
  intro replies kept lost
  have cut : replies.flatMap (Reply.write true) = kept ++ lost := by decide +kernel
  have framed : ∀ reply ∈ replies, reply.Framed true := by decide +kernel
  have genuine : ∀ reply ∈ replies, reply.Genuine true := by decide +kernel
  refine ⟨cut, fun misread => ?_⟩
  exact Bool.noConfusion ((readBatch_misread_iff framed genuine cut (by decide)).mp misread).1

/-- Where only headers are asked for, an object of 40000 bytes is told to have 4000 after the output
has ended before the last digit. -/
theorem size_cut_short_is_misread :
    let reply : Reply := .found (Utf8.encode "aaa".toList) ⟨"blob", 40000, []⟩
    let kept := Utf8.encode "aaa blob 4000".toList
    let lost := Utf8.encode "0\n".toList
    reply.Framed false ∧ reply.Genuine false ∧ reply.write false = kept ++ lost ∧
      readBatch false 1 kept = .ok ([some ⟨"blob", 4000, []⟩], []) ∧
      readBatch false 1 (kept ++ lost) = .ok ([some ⟨"blob", 40000, []⟩], []) := by
  decide +kernel

end AnnexCatalog.Git
