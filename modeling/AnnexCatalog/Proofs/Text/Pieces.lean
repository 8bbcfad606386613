import AnnexCatalog.Text.Blank
import Mathlib.Data.List.Basic
import Mathlib.Data.List.TakeWhile

/-! # Cutting and trimming

A text that is cut where two parts meet is cut in each of them alone (`pieces_append_cons`). A text
has words exactly if it has a character that is no blank, and what is trimmed off it are blanks;
words that are joined by spaces are its words again (`words_intercalate`). What stands behind the
last cut does not depend on what stands before it (`afterLast_append`).
-/

namespace AnnexCatalog.Text

/-! ### Beginnings -/

section Beginnings

variable {α : Type} {kept : α → Bool} {tail : List α} (ends : ∀ c ∈ tail.head?, kept c = false)
include ends

/-- What a text begins with ends before a character of another kind, whatever follows. -/
theorem takeWhile_append_of_ends (text : List α) :
    (text ++ tail).takeWhile kept = text.takeWhile kept := by
  induction text with
  | nil =>
      cases tail with
      | nil => rfl
      | cons c rest => exact List.takeWhile_cons_of_neg (by simp [ends c rfl])
  | cons c text step => rw [List.cons_append, List.takeWhile_cons, step, List.takeWhile_cons]

/-- What is dropped from the front of a text does not depend on what comes after an end. -/
theorem dropWhile_append_of_ends (text : List α) :
    (text ++ tail).dropWhile kept = text.dropWhile kept ++ tail := by
  have whole := (text ++ tail).takeWhile_append_dropWhile (p := kept)
  rw [takeWhile_append_of_ends ends] at whole
  have same : text.takeWhile kept ++ (text ++ tail).dropWhile kept =
      text.takeWhile kept ++ (text.dropWhile kept ++ tail) := by
    rw [whole, ← List.append_assoc, List.takeWhile_append_dropWhile]
  exact List.append_cancel_left same

/-- A text whose characters are all kept is taken up to an end. -/
theorem takeWhile_append_eq_left {text : List α} (all : ∀ c ∈ text, kept c = true) :
    (text ++ tail).takeWhile kept = text := by
  rw [takeWhile_append_of_ends ends, List.takeWhile_eq_self_iff.mpr all]

/-- A text whose characters are all kept is dropped up to an end. -/
theorem dropWhile_append_eq_right {text : List α} (all : ∀ c ∈ text, kept c = true) :
    (text ++ tail).dropWhile kept = tail := by
  rw [dropWhile_append_of_ends ends, List.dropWhile_eq_nil_iff.mpr all, List.nil_append]

end Beginnings

/-! ### Pieces -/

theorem pieces_ne_nil {α : Type} (cut : α → Bool) (text : List α) : pieces cut text ≠ [] := by
  induction text with
  | nil => exact List.cons_ne_nil _ _
  | cons c rest step =>
      rw [pieces]
      split
      · exact List.cons_ne_nil _ _
      · split <;> exact List.cons_ne_nil _ _

/-- An element at which the list is not cut belongs to the first piece. -/
theorem pieces_cons_of_not {α : Type} {cut : α → Bool} {c : α} (kept : cut c = false)
    {rest piece : List α} {others : List (List α)} (split : pieces cut rest = piece :: others) :
    pieces cut (c :: rest) = (c :: piece) :: others := by
  rw [pieces, kept, if_neg Bool.false_ne_true, split]

/-- A list that is cut nowhere is one piece. -/
theorem pieces_of_forall {α : Type} {cut : α → Bool} {text : List α}
    (kept : ∀ c ∈ text, cut c = false) : pieces cut text = [text] := by
  induction text with
  | nil => rfl
  | cons c rest step =>
      obtain ⟨first, others⟩ := List.forall_mem_cons.mp kept
      exact pieces_cons_of_not first (step others)

/-- A list without the element at which it would be cut is one piece. -/
theorem pieces_of_notMem {α : Type} [BEq α] [LawfulBEq α] {cut : α} {text : List α}
    (absent : cut ∉ text) : pieces (· == cut) text = [text] :=
  pieces_of_forall fun _ member => beq_eq_false_iff_ne.mpr fun same => absent (same ▸ member)

/-- A cut divides the pieces before it from those after it. -/
theorem pieces_append_cons {α : Type} {cut : α → Bool} {c : α} (ends : cut c = true)
    (before after : List α) :
    pieces cut (before ++ c :: after) = pieces cut before ++ pieces cut after := by
  induction before with
  | nil =>
      change pieces cut (c :: after) = [] :: pieces cut after
      rw [pieces, if_pos ends]
  | cons first rest step =>
      rw [List.cons_append]
      cases cuts : cut first with
      | true =>
          rw [pieces, if_pos cuts, step, pieces, if_pos cuts]
          rfl
      | false =>
          obtain ⟨piece, others, split⟩ := List.exists_cons_of_ne_nil (pieces_ne_nil cut rest)
          rw [split] at step
          rw [pieces_cons_of_not cuts split, pieces_cons_of_not cuts step]
          rfl

/-- Pieces that are joined at the element at which a list is cut are its pieces. -/
theorem pieces_intercalate {α : Type} [BEq α] [LawfulBEq α] {cut : α} {texts : List (List α)}
    (nonempty : texts ≠ []) (solid : ∀ text ∈ texts, cut ∉ text) :
    pieces (· == cut) ([cut].intercalate texts) = texts := by
  induction texts with
  | nil => exact absurd rfl nonempty
  | cons text rest step =>
      obtain ⟨whole, others⟩ := List.forall_mem_cons.mp solid
      cases rest with
      | nil => rw [List.intercalate_singleton, pieces_of_notMem whole]
      | cons next later =>
          rw [List.intercalate_cons_cons, List.append_assoc, List.singleton_append,
            @pieces_append_cons _ (· == cut) cut BEq.rfl, pieces_of_notMem whole,
            step (List.cons_ne_nil _ _) others, List.singleton_append]

/-- An element at which the list is not cut is the end of the last piece. -/
theorem exists_pieces_concat {α : Type} {cut : α → Bool} {c : α} (kept : cut c = false)
    (text : List α) : ∃ ended last, pieces cut (text ++ [c]) = ended ++ [last ++ [c]] := by
  induction text with
  | nil => exact ⟨[], [], by rw [List.nil_append, pieces_cons_of_not kept rfl]; rfl⟩
  | cons first rest step =>
      obtain ⟨ended, last, split⟩ := step
      cases cuts : cut first with
      | true => exact ⟨[] :: ended, last, by rw [List.cons_append, pieces, if_pos cuts, split]; rfl⟩
      | false =>
          rw [List.cons_append]
          cases ended with
          | nil => exact ⟨[], first :: last, pieces_cons_of_not cuts split⟩
          | cons piece others =>
              exact ⟨(first :: piece) :: others, last, pieces_cons_of_not cuts split⟩

/-- The elements of the pieces are those at which the list is not cut. -/
theorem exists_mem_pieces_iff {α : Type} {cut : α → Bool} {c : α} {text : List α} :
    (∃ piece ∈ pieces cut text, c ∈ piece) ↔ c ∈ text ∧ cut c = false := by
  induction text with
  | nil => simp [pieces]
  | cons first rest step =>
      cases cuts : cut first with
      | true =>
          rw [pieces, if_pos cuts, List.exists_mem_cons_iff, step]
          simp only [List.not_mem_nil, false_or, List.mem_cons]
          refine and_congr_left fun kept => (or_iff_right ?_).symm
          rintro rfl
          exact Bool.false_ne_true (kept.symm.trans cuts)
      | false =>
          obtain ⟨piece, others, split⟩ := List.exists_cons_of_ne_nil (pieces_ne_nil cut rest)
          rw [split, List.exists_mem_cons_iff] at step
          rw [pieces_cons_of_not cuts split, List.exists_mem_cons_iff, List.mem_cons, or_assoc,
            step, List.mem_cons, or_and_right]
          refine or_congr_left (iff_self_and.mpr ?_)
          rintro rfl
          exact cuts

/-! ### Parts -/

/-- A text is split at a character that does not occur before. -/
theorem splitFirst?_eq_some_iff {cut : Char} {text before after : List Char} :
    splitFirst? cut text = some (before, after) ↔ text = before ++ cut :: after ∧ cut ∉ before := by
  induction text generalizing before with
  | nil => simp [splitFirst?]
  | cons c rest step =>
      rw [splitFirst?]
      split
      · next same =>
          subst same
          constructor
          · intro found
            cases found
            exact ⟨rfl, List.not_mem_nil⟩
          · rintro ⟨split, absent⟩
            cases before with
            | nil =>
                cases split
                rfl
            | cons first others =>
                cases split
                exact absurd List.mem_cons_self absent
      · next different =>
          rw [Option.map_eq_some_iff]
          constructor
          · rintro ⟨⟨first, second⟩, found, same⟩
            cases same
            obtain ⟨rfl, absent⟩ := step.mp found
            exact ⟨rfl, by simp [absent, Ne.symm different]⟩
          · rintro ⟨split, absent⟩
            cases before with
            | nil =>
                cases split
                exact absurd rfl different
            | cons first others =>
                cases split
                exact ⟨_, step.mpr ⟨rfl, fun inside => absent (List.mem_cons_of_mem _ inside)⟩, rfl⟩

/-- A text is not split at a character that does not occur in it. -/
theorem splitFirst?_eq_none_iff {cut : Char} {text : List Char} :
    splitFirst? cut text = none ↔ cut ∉ text := by
  induction text with
  | nil => simp [splitFirst?]
  | cons c rest step =>
      rw [splitFirst?, List.mem_cons, not_or, ← step]
      split
      · next same => simp [same]
      · next different => simp [Ne.symm different]

/-- The parts that a character divides hold all characters of a text but that one. -/
theorem mem_of_splitFirst? {cut c : Char} {text before after : List Char}
    (split : (splitFirst? cut text).getD (text, []) = (before, after)) (member : c ∈ text) :
    c = cut ∨ c ∈ before ∨ c ∈ after := by
  cases found : splitFirst? cut text with
  | none =>
      rw [found] at split
      cases split
      exact .inr (.inl member)
  | some halves =>
      rw [found] at split
      cases split
      rw [(splitFirst?_eq_some_iff.mp found).1, List.mem_append, List.mem_cons] at member
      exact or_left_comm.mp member

/-- A leading part is dropped exactly from the texts that begin with it. -/
theorem dropLead?_eq_some_iff {lead text rest : List Char} :
    dropLead? lead text = some rest ↔ text = lead ++ rest := by
  rw [dropLead?, Option.ite_none_right_eq_some, Option.some.injEq, List.isPrefixOf_iff_prefix]
  constructor
  · rintro ⟨⟨after, rfl⟩, same⟩
    rw [← same, List.drop_left]
  · rintro rfl
    exact ⟨List.prefix_append lead rest, List.drop_left⟩

/-- A closing part is dropped exactly from the texts that end in it. -/
theorem dropTail?_eq_some_iff {tail text rest : List Char} :
    dropTail? tail text = some rest ↔ text = rest ++ tail := by
  rw [dropTail?, Option.ite_none_right_eq_some, Option.some.injEq, List.isSuffixOf_iff_suffix]
  constructor
  · rintro ⟨⟨before, rfl⟩, same⟩
    rwa [List.length_append, Nat.add_sub_cancel, List.take_left, ← List.append_left_inj tail]
      at same
  · rintro rfl
    rw [List.length_append, Nat.add_sub_cancel, List.take_left]
    exact ⟨List.suffix_append rest tail, rfl⟩

/-- A text that ends in a word after a space does not end in another word after a space. -/
theorem dropTail?_word {word last : List Char} (solid : ' ' ∉ word) (spaceless : ' ' ∉ last)
    (other : last ≠ word) (before : List Char) :
    dropTail? (' ' :: word) (before ++ ' ' :: last) = none := by
  refine Option.eq_none_iff_forall_ne_some.mpr fun rest found => other ?_
  have same := congrArg List.reverse (dropTail?_eq_some_iff.mp found)
  simp only [List.reverse_append, List.reverse_cons, List.append_assoc, List.singleton_append]
    at same
  have first : splitFirst? ' ' (last.reverse ++ ' ' :: before.reverse) =
      some (last.reverse, before.reverse) :=
    splitFirst?_eq_some_iff.mpr ⟨rfl, mt List.mem_reverse.mp spaceless⟩
  have second : splitFirst? ' ' (last.reverse ++ ' ' :: before.reverse) =
      some (word.reverse, rest.reverse) :=
    splitFirst?_eq_some_iff.mpr ⟨same, mt List.mem_reverse.mp solid⟩
  rw [first] at second
  exact List.reverse_injective (congrArg Prod.fst (Option.some.inj second))

/-- Of two texts that are cut into two at different places, one is cut behind the other. -/
theorem append_eq_append_cases {α : Type} {first rest front back : List α}
    (same : first ++ rest = front ++ back) :
    (∃ later, front = first ++ later ∧ rest = later ++ back) ∨
      ∃ missed, missed ≠ [] ∧ first = front ++ missed := by
  rcases List.append_eq_append_iff.mp same with ⟨later, behind, left⟩ | ⟨missed, before, left⟩
  · exact .inl ⟨later, behind, left⟩
  · by_cases none : missed = []
    · subst none
      exact .inl ⟨[], by simpa using before.symm, left.symm⟩
    · exact .inr ⟨missed, none, before⟩

/-! ### Last parts -/

/-- A text before the last part does not count, if it is empty or ends in the cut. -/
theorem afterLast_append {cut : Char} {front : List Char} (ends : ∀ c ∈ front.getLast?, c = cut)
    (text : List Char) : afterLast cut (front ++ text) = afterLast cut text := by
  have stops : ∀ c ∈ front.reverse.head?, (c != cut) = false := by
    intro c first
    rw [List.head?_reverse] at first
    rw [ends c first, bne_self_eq_false]
  rw [afterLast, List.reverse_append, takeWhile_append_of_ends stops, afterLast]

/-- Where the character does not occur, the whole text is taken. -/
theorem afterLast_of_notMem {cut : Char} {text : List Char} (absent : cut ∉ text) :
    afterLast cut text = text := by
  have kept : ∀ c ∈ text.reverse, (c != cut) = true := by
    rintro c member
    rw [bne_iff_ne]
    rintro rfl
    exact absent (List.mem_reverse.mp member)
  rw [afterLast, List.takeWhile_eq_self_iff.mpr kept, List.reverse_reverse]

/-- The last part has no cut in it, and what stands before it is empty or ends in the cut. -/
theorem afterLast_eq_iff {cut : Char} {text last : List Char} :
    afterLast cut text = last ↔
      cut ∉ last ∧ ∃ front, (∀ c ∈ front.getLast?, c = cut) ∧ text = front ++ last := by
  constructor
  · rintro rfl
    refine ⟨fun member => ?_, (text.reverse.dropWhile (· != cut)).reverse, ?_, ?_⟩
    · have kept := List.mem_takeWhile_imp (List.mem_reverse.mp member)
      rw [bne_self_eq_false] at kept
      cases kept
    · intro c ending
      rw [List.getLast?_reverse] at ending
      have stops := List.head?_dropWhile_not (· != cut) text.reverse
      rw [ending] at stops
      simpa using stops
    · rw [afterLast, ← List.reverse_append, List.takeWhile_append_dropWhile, List.reverse_reverse]
  · rintro ⟨absent, front, ends, rfl⟩
    rw [afterLast_append ends, afterLast_of_notMem absent]

/-- A text that occurs has a last occurrence. -/
theorem isSome_afterLastOf?_iff {needle text : List Char} :
    (afterLastOf? needle text).isSome = true ↔ needle <:+: text := by
  induction text with
  | nil => cases needle <;> simp [afterLastOf?]
  | cons c rest step =>
      have lead : (dropLead? needle (c :: rest)).isSome = true ↔ needle <+: c :: rest := by
        simp only [Option.isSome_iff_exists, dropLead?_eq_some_iff]
        exact ⟨fun ⟨after, whole⟩ => ⟨after, whole.symm⟩, fun ⟨after, whole⟩ => ⟨after, whole.symm⟩⟩
      rw [afterLastOf?, Option.isSome_or, Bool.or_eq_true, step, lead, List.infix_cons_iff, or_comm]

/-- What stands after a text inside another is the end of that one. -/
theorem exists_eq_append_of_afterLastOf? {needle text tail : List Char}
    (found : afterLastOf? needle text = some tail) : ∃ before, text = before ++ needle ++ tail := by
  induction text with
  | nil =>
      rw [afterLastOf?, Option.ite_none_right_eq_some] at found
      obtain ⟨empty, same⟩ := found
      cases same
      exact ⟨[], by simpa using empty⟩
  | cons c rest step =>
      rw [afterLastOf?, Option.or_eq_some_iff] at found
      rcases found with later | ⟨-, here⟩
      · obtain ⟨before, whole⟩ := step later
        exact ⟨c :: before, congrArg (c :: ·) whole⟩
      · exact ⟨[], dropLead?_eq_some_iff.mp here⟩

/-! ### Positions in bytes -/

theorem byteLength_append (before after : List Char) :
    byteLength (before ++ after) = byteLength before + byteLength after := by
  induction before with
  | nil => exact (Nat.zero_add _).symm
  | cons c rest step => rw [List.cons_append, byteLength, byteLength, step, Nat.add_assoc]

/-- At the position where a text goes on after a first part, all characters of that part are
passed. -/
theorem charsBefore?_byteLength (before after : List Char) :
    charsBefore? (byteLength before) (before ++ after) = some before.length := by
  induction before with
  | nil => cases after <;> rfl
  | cons c rest step =>
      obtain ⟨width, size⟩ := Nat.exists_eq_succ_of_ne_zero (Nat.ne_of_gt c.utf8Size_pos)
      have total : byteLength (c :: rest) = width + byteLength rest + 1 := by
        rw [byteLength, size]
        omega
      have left : width + byteLength rest + 1 - c.utf8Size = byteLength rest := by omega
      rw [total, List.cons_append, charsBefore?, if_pos (by omega), left, step]
      rfl

/-! ### Blanks -/

/-- The visible signs of ASCII are no blanks. -/
theorem isBlank_of_visible {c : Char} (least : '!'.toNat ≤ c.toNat) (above : c.toNat < 0x7F) :
    isBlank c = false := by
  change 33 ≤ c.toNat at least
  simp only [isBlank, Bool.or_eq_false_iff, Bool.and_eq_false_iff, decide_eq_false_iff_not,
    beq_eq_false_iff_ne]
  omega

theorem isBlank_of_isDigit {c : Char} (digit : c.isDigit = true) : isBlank c = false := by
  obtain ⟨least, most⟩ := Bool.and_eq_true_iff.mp digit
  have least : 48 ≤ c.toNat := of_decide_eq_true least
  have most : c.toNat ≤ 57 := of_decide_eq_true most
  exact isBlank_of_visible (Nat.le_trans (by decide) least) (by omega)

/-- A text is all blanks exactly if trimming leaves nothing of it. -/
theorem trim_eq_nil_iff {text : List Char} : trim text = [] ↔ ∀ c ∈ text, isBlank c = true := by
  rw [trim, trimEnd, List.reverse_eq_nil_iff, List.dropWhile_eq_nil_iff]
  simp only [List.mem_reverse, trimStart]
  constructor
  · intro all
    have none : text.dropWhile isBlank = [] := by
      cases left : text.dropWhile isBlank with
      | nil => rfl
      | cons c rest =>
          have stopped := List.head?_dropWhile_not isBlank text
          rw [left] at stopped all
          simp [all c List.mem_cons_self] at stopped
    exact List.dropWhile_eq_nil_iff.mp none
  · intro all c member
    exact all c ((List.dropWhile_suffix isBlank).subset member)

/-- Nothing is left of a trimmed text exactly if it is all blanks. -/
theorem isEmpty_trim (text : List Char) : (trim text).isEmpty = text.all isBlank := by
  rw [Bool.eq_iff_iff, List.isEmpty_iff, List.all_eq_true]
  exact trim_eq_nil_iff

/-- What is trimmed off the end of a text are blanks. -/
theorem exists_trimStart_eq_append (text : List Char) :
    ∃ after, trimStart text = trim text ++ after ∧ ∀ c ∈ after, isBlank c = true := by
  refine ⟨((trimStart text).reverse.takeWhile isBlank).reverse, ?_, ?_⟩
  · rw [trim, trimEnd, ← List.reverse_append, List.takeWhile_append_dropWhile,
      List.reverse_reverse]
  · exact fun c member => List.mem_takeWhile_imp (List.mem_reverse.mp member)

/-- What is trimmed off a text are blanks on both sides. -/
theorem exists_eq_append_trim (text : List Char) :
    ∃ before after, text = before ++ trim text ++ after ∧
      (∀ c ∈ before, isBlank c = true) ∧ ∀ c ∈ after, isBlank c = true := by
  obtain ⟨after, ending, blank⟩ := exists_trimStart_eq_append text
  refine ⟨text.takeWhile isBlank, after, ?_, fun c member => List.mem_takeWhile_imp member, blank⟩
  rw [List.append_assoc, ← ending, trimStart, List.takeWhile_append_dropWhile]

/-- A trimmed text is a part of the text. -/
theorem trim_isInfix (text : List Char) : trim text <:+: text := by
  obtain ⟨before, after, whole, -⟩ := exists_eq_append_trim text
  exact ⟨before, after, whole.symm⟩

/-- A text without blanks is not trimmed. -/
theorem trim_eq_self {text : List Char} (letters : ∀ c ∈ text, isBlank c = false) :
    trim text = text := by
  have whole {part : List Char} (same : ∀ c ∈ part, isBlank c = false) :
      part.dropWhile isBlank = part := by
    cases part with
    | nil => rfl
    | cons c rest => exact List.dropWhile_cons_of_neg (by simp [same c List.mem_cons_self])
  have start : trimStart text = text := whole letters
  have back := whole fun c member => letters c (List.mem_reverse.mp member)
  rw [trim, start, trimEnd, back, List.reverse_reverse]

/-- A text has no words exactly if it is all blanks. -/
theorem words_eq_nil_iff {text : List Char} : words text = [] ↔ ∀ c ∈ text, isBlank c = true := by
  unfold words
  induction text with
  | nil => simp [pieces]
  | cons c rest step =>
      rw [List.forall_mem_cons, ← step]
      cases blank : isBlank c with
      | true =>
          rw [pieces, if_pos blank]
          simp
      | false =>
          obtain ⟨piece, others, split⟩ := List.exists_cons_of_ne_nil (pieces_ne_nil isBlank rest)
          rw [pieces_cons_of_not blank split]
          simp

/-- A blank divides the words before it from those after it. -/
theorem words_append_cons {c : Char} (blank : isBlank c = true) (before after : List Char) :
    words (before ++ c :: after) = words before ++ words after := by
  rw [words, pieces_append_cons blank, List.filter_append, words, words]

/-- A blank at the end of a text belongs to no word. -/
theorem words_append_blank {c : Char} (blank : isBlank c = true) (text : List Char) :
    words (text ++ [c]) = words text := by
  rw [words_append_cons blank]
  exact List.append_nil _

/-- A text without blanks is one word, unless it is empty. -/
theorem words_of_forall {text : List Char} (nonempty : text ≠ [])
    (letters : ∀ c ∈ text, isBlank c = false) : words text = [text] := by
  rw [words, pieces_of_forall letters]
  exact List.filter_cons_of_pos (by simpa using nonempty)

/-- The characters of joined texts are those of the texts, and what joins them. -/
theorem mem_intercalate {c joint : Char} {texts : List (List Char)}
    (member : c ∈ [joint].intercalate texts) : c = joint ∨ ∃ text ∈ texts, c ∈ text := by
  induction texts with
  | nil => cases member
  | cons text rest step =>
      rw [List.exists_mem_cons_iff]
      cases rest with
      | nil => exact .inr (.inl (by rwa [List.intercalate_singleton] at member))
      | cons next others =>
          rw [List.intercalate_cons_cons, List.append_assoc, List.mem_append,
            List.singleton_append, List.mem_cons] at member
          rcases member with inside | joined | later
          · exact .inr (.inl inside)
          · exact .inl joined
          · exact (step later).imp_right .inr

/-- Words that are joined by spaces are the words of the text. -/
theorem words_intercalate {texts : List (List Char)}
    (solid : ∀ text ∈ texts, text ≠ [] ∧ ∀ c ∈ text, isBlank c = false) :
    words ([' '].intercalate texts) = texts := by
  induction texts with
  | nil => rfl
  | cons text rest step =>
      obtain ⟨⟨nonempty, letters⟩, others⟩ := List.forall_mem_cons.mp solid
      cases rest with
      | nil =>
          rw [List.intercalate_singleton]
          exact words_of_forall nonempty letters
      | cons next later =>
          rw [List.intercalate_cons_cons, List.append_assoc, List.singleton_append,
            words_append_cons (by decide), words_of_forall nonempty letters, step others]
          rfl

/-- A carriage return at the end of a line belongs to no word. -/
theorem words_dropReturn (line : List Char) : words (dropReturn line) = words line := by
  unfold dropReturn
  split
  · next rest reversed =>
      have whole : line = rest.reverse ++ ['\r'] := by
        rw [← List.reverse_reverse line, reversed, List.reverse_cons]
      rw [whole, words_append_blank (by decide)]
  · rfl

/-! ### Lines -/

/-- All pieces but the last are lines, and the last is one if it is not empty. -/
theorem lines_of_pieces {text : List Char} {ended : List (List Char)} {last : List Char}
    (split : pieces (· == '\n') text = ended ++ [last]) :
    lines text = ended.map dropReturn ++ if last.isEmpty then [] else [last] := by
  rw [lines, split, List.reverse_append]
  simp

/-- A line feed ends the first line of a text, and the carriage return before it is no part of it. -/
theorem lines_append_cons {line : List Char} (absent : '\n' ∉ line) (rest : List Char) :
    lines (line ++ '\n' :: rest) = dropReturn line :: lines rest := by
  obtain ⟨ended, last, split⟩ : ∃ ended last, pieces (· == '\n') rest = ended ++ [last] :=
    ⟨_, _, (List.dropLast_concat_getLast (pieces_ne_nil _ rest)).symm⟩
  have whole : pieces (· == '\n') (line ++ '\n' :: rest) = (line :: ended) ++ [last] := by
    rw [pieces_append_cons rfl, pieces_of_notMem absent, split]
    rfl
  rw [lines_of_pieces whole, lines_of_pieces split, List.map_cons, List.cons_append]

/-- Without a line feed a text is one line, or none if it is empty. -/
theorem lines_of_notMem {text : List Char} (absent : '\n' ∉ text) :
    lines text = if text.isEmpty then [] else [text] :=
  @lines_of_pieces text [] text (pieces_of_notMem absent)

/-- What is taken from the numbered lines of a text is taken from its pieces, if carriage returns at
the ends and an empty line do not matter for it. -/
theorem filterMap_zipIdx_lines {α : Type} (take : List Char → Nat → Option α)
    (returns : ∀ line number, take (dropReturn line) number = take line number)
    (empty : ∀ number, take [] number = none) (text : List Char) (start : Nat) :
    ((lines text).zipIdx start).filterMap (fun numbered => take numbered.1 numbered.2) =
      ((pieces (· == '\n') text).zipIdx start).filterMap
        fun numbered => take numbered.1 numbered.2 := by
  obtain ⟨ended, last, split⟩ : ∃ ended last, pieces (· == '\n') text = ended ++ [last] :=
    ⟨_, _, (List.dropLast_concat_getLast (pieces_ne_nil _ text)).symm⟩
  have remainder (number : Nat) :
      ((if last.isEmpty then [] else [last]).zipIdx number).filterMap
          (fun numbered => take numbered.1 numbered.2) =
        ([last].zipIdx number).filterMap fun numbered => take numbered.1 numbered.2 := by
    cases last with
    | nil => simp [empty]
    | cons c rest => rfl
  rw [lines_of_pieces split, split, List.zipIdx_append, List.zipIdx_append, List.filterMap_append,
    List.filterMap_append, remainder, List.length_map, List.zipIdx_map, List.filterMap_map]
  congr 2
  funext numbered
  exact returns numbered.1 numbered.2

/-- What is taken from the lines of a text is taken from its pieces, if carriage returns at the ends
and an empty line do not matter for it. -/
theorem filterMap_lines {α : Type} (take : List Char → Option α)
    (returns : ∀ line, take (dropReturn line) = take line) (empty : take [] = none)
    (text : List Char) :
    (lines text).filterMap take = (pieces (· == '\n') text).filterMap take := by
  have fst (texts : List (List Char)) :
      (texts.zipIdx 1).filterMap (fun numbered => take numbered.1) = texts.filterMap take := by
    conv_rhs => rw [← List.zipIdx_map_fst 1 texts, List.filterMap_map]
    rfl
  rw [← fst, ← fst]
  exact filterMap_zipIdx_lines (fun line _ => take line) (fun line _ => returns line)
    (fun _ => empty) text 1

/-- A text that does not end in a blank is not trimmed at its end. -/
theorem trimEnd_eq_self {text : List Char} (ends : ∀ c ∈ text.getLast?, isBlank c = false) :
    trimEnd text = text := by
  have whole : text.reverse.dropWhile isBlank = text.reverse := by
    cases reversed : text.reverse with
    | nil => rfl
    | cons c rest =>
        have last : text.getLast? = some c := by
          rw [← List.head?_reverse, reversed, List.head?_cons]
        exact List.dropWhile_cons_of_neg (by simp [ends c last])
  rw [trimEnd, whole, List.reverse_reverse]

/-- A carriage return at the end of a line is trimmed off in any case. -/
theorem trimEnd_dropReturn (line : List Char) : trimEnd (dropReturn line) = trimEnd line := by
  unfold dropReturn
  split
  · next rest reversed =>
      rw [trimEnd, trimEnd, reversed, List.reverse_reverse, List.dropWhile_cons_of_pos (by decide)]
  · rfl

/-- The first line of a text that is not empty ends at its first line feed. -/
theorem map_trimEnd_head?_lines {text : List Char} (nonempty : text ≠ []) :
    (lines text).head?.map trimEnd = some (trimEnd (text.takeWhile (· != '\n'))) := by
  have kept {part : List Char} (absent : '\n' ∉ part) : ∀ c ∈ part, (c != '\n') = true :=
    fun c member => bne_iff_ne.mpr fun same => absent (same ▸ member)
  cases split : splitFirst? '\n' text with
  | none =>
      have absent := splitFirst?_eq_none_iff.mp split
      have only : pieces (· == '\n') text = [] ++ [text] := pieces_of_notMem absent
      rw [List.takeWhile_eq_self_iff.mpr (kept absent), lines_of_pieces only]
      simp [nonempty]
  | some halves =>
      obtain ⟨rfl, absent⟩ := splitFirst?_eq_some_iff.mp split
      obtain ⟨ended, last, others⟩ : ∃ ended last, pieces (· == '\n') halves.2 = ended ++ [last] :=
        ⟨_, _, (List.dropLast_concat_getLast (pieces_ne_nil _ _)).symm⟩
      have divided : pieces (· == '\n') (halves.1 ++ '\n' :: halves.2) =
          pieces (· == '\n') halves.1 ++ pieces (· == '\n') halves.2 := pieces_append_cons rfl _ _
      have whole : pieces (· == '\n') (halves.1 ++ '\n' :: halves.2) =
          (halves.1 :: ended) ++ [last] := by
        rw [divided, pieces_of_notMem absent, others]
        rfl
      rw [lines_of_pieces whole, List.map_cons, List.cons_append, List.head?_cons, Option.map_some,
        trimEnd_dropReturn, takeWhile_append_eq_left (by simp) (kept absent)]

end AnnexCatalog.Text
