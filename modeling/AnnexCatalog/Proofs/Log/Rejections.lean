import AnnexCatalog.Proofs.Log.LastWriter
import AnnexCatalog.Proofs.Text.Pieces
import Mathlib.Data.List.Forall2

/-! # Rejected lines

A line that is not blank and holds no entry is rejected as a whole. What is wrong with it is told by
its leftmost token at fault, and that is said here token by token, without the reader of entries
(`Faulted`, `read_eq_error_iff`). Each rejected line is reported once, in the order of the lines, and
a log says the same with blank lines in the places of the rejected ones
(`warnings_report_rejected`).
-/

namespace AnnexCatalog

namespace Log

open Text

/-! ### What is wrong with a token -/

/-- The marks of operations on values. -/
def marks : List Char := ['+', '-']

/-- What an operation writes after its mark, and the value that it stands for. -/
inductive Spells : (body : List Char) → (value : String) → Prop where
  | bare {body : List Char} (nonempty : body ≠ []) (plain : body.head? ≠ some '!') :
      Spells body (String.ofList body)
  | encoded {payload text : List Char} {bytes : List UInt8}
      (decoded : Base64.decode (Utf8.encode payload) = .ok bytes)
      (read : Utf8.decode bytes = .ok text) : Spells ('!' :: payload) (String.ofList text)

/-- Why an encoding stands for no value: it is no base64, or its bytes are no text. -/
inductive Undecodable (payload : List Char) : EncodingFault → Prop where
  | base64 {fault : Base64.Fault} (failed : Base64.decode (Utf8.encode payload) = .error fault) :
      Undecodable payload (.base64 fault)
  | utf8 {bytes : List UInt8} {fault : Utf8.Fault}
      (decoded : Base64.decode (Utf8.encode payload) = .ok bytes)
      (failed : Utf8.decode bytes = .error fault) : Undecodable payload (.utf8 fault)

/-- What is wrong with a token after the timestamp; `named` tells whether a field is named before
it. -/
inductive Offends (named : Bool) : (token : List Char) → Problem → Prop where
  | empty {mark : Char} (marked : mark ∈ marks) : Offends named [mark] .emptyValue
  | encoding {mark : Char} {payload : List Char} {fault : EncodingFault} (marked : mark ∈ marks)
      (undecodable : Undecodable payload fault) :
      Offends named (mark :: '!' :: payload) (.badEncoding fault)
  | orphan {mark : Char} {body : List Char} {value : String} (marked : mark ∈ marks)
      (spells : Spells body value) (unnamed : named = false) :
      Offends named (mark :: body) .orphanValue

/-- A token at fault among tokens, and what is wrong with it: none before it is at fault. -/
def IsLeftmostOffence (named : Bool) (tokens : List (List Char)) (token : List Char)
    (problem : Problem) : Prop :=
  ∃ before after, tokens = before ++ token :: after ∧
    Offends (named || before.any namesField) token problem ∧
    ∀ earlier other later, before = earlier ++ other :: later →
      ∀ fault, ¬ Offends (named || earlier.any namesField) other fault

/-- What is wrong with a line: its timestamp, or else the leftmost token at fault after it. -/
inductive Faulted (line : List Char) : (token : List Char) → Problem → Prop where
  | stamp {stamp : List Char} {tokens : List (List Char)} (split : words line = stamp :: tokens)
      (unread : Timestamp.parse? stamp = none) : Faulted line stamp .badTimestamp
  | operation {stamp token : List Char} {tokens : List (List Char)} {timestamp : Timestamp}
      {problem : Problem} (split : words line = stamp :: tokens)
      (read : Timestamp.parse? stamp = some timestamp)
      (leftmost : IsLeftmostOffence false tokens token problem) : Faulted line token problem

/-! ### Reading a token -/

/-- A value is read exactly from the texts that spell it. -/
theorem readValue_eq_ok_iff {body : List Char} {value : String} :
    readValue body = .ok value ↔ Spells body value := by
  constructor
  · intro found
    unfold readValue at found
    split at found
    · cases found
    · split at found
      · cases found
      · next decoded =>
          split at found
          · cases found
          · next read =>
              cases found
              exact .encoded decoded read
    · next nonempty plain =>
        cases found
        refine .bare nonempty fun head => ?_
        obtain ⟨payload, same⟩ := List.head?_eq_some_iff.mp head
        exact plain payload same
  · rintro (⟨nonempty, plain⟩ | ⟨decoded, read⟩)
    · unfold readValue
      split
      · exact absurd rfl nonempty
      · exact absurd rfl plain
      · rfl
    · simp only [readValue, decoded, read]

/-- No value is read exactly from nothing and from what cannot be decoded. -/
theorem readValue_eq_error_iff {body : List Char} {problem : Problem} :
    readValue body = .error problem ↔
      (body = [] ∧ problem = .emptyValue) ∨
        ∃ payload fault, body = '!' :: payload ∧ Undecodable payload fault ∧
          problem = .badEncoding fault := by
  constructor
  · intro found
    unfold readValue at found
    split at found
    · cases found
      exact .inl ⟨rfl, rfl⟩
    · split at found
      · next failed =>
          cases found
          exact .inr ⟨_, _, rfl, .base64 failed, rfl⟩
      · next decoded =>
          split at found
          · next failed =>
              cases found
              exact .inr ⟨_, _, rfl, .utf8 decoded failed, rfl⟩
          · cases found
    · cases found
  · rintro (⟨rfl, rfl⟩ | ⟨payload, fault, rfl, undecodable, rfl⟩)
    · rfl
    · cases undecodable with
      | base64 failed => simp only [readValue, failed]
      | utf8 decoded failed => simp only [readValue, decoded, failed]

/-- An operation is at fault if its value cannot be read, or if it can and no field is named. -/
theorem offends_iff {named : Bool} {mark : Char} {body : List Char} {problem : Problem}
    (marked : mark ∈ marks) :
    Offends named (mark :: body) problem ↔
      readValue body = .error problem ∨
        (named = false ∧ problem = .orphanValue ∧ ∃ value, readValue body = .ok value) := by
  constructor
  · intro offends
    cases offends with
    | empty => exact .inl rfl
    | encoding _ undecodable =>
        exact .inl (readValue_eq_error_iff.mpr (.inr ⟨_, _, rfl, undecodable, rfl⟩))
    | orphan _ spells unnamed =>
        exact .inr ⟨unnamed, rfl, _, readValue_eq_ok_iff.mpr spells⟩
  · rintro (failed | ⟨unnamed, rfl, value, read⟩)
    · rcases readValue_eq_error_iff.mp failed with
        ⟨rfl, rfl⟩ | ⟨payload, fault, rfl, undecodable, rfl⟩
      · exact .empty marked
      · exact .encoding marked undecodable
    · exact .orphan marked (readValue_eq_ok_iff.mp read) unnamed

theorem not_offends_of_namesField {named : Bool} {token : List Char} {problem : Problem}
    (names : namesField token = true) : ¬ Offends named token problem := by
  have unmarked {mark : Char} {body : List Char} (marked : mark ∈ marks) :
      namesField (mark :: body) = false := by
    simp only [marks, List.mem_cons, List.not_mem_nil, or_false] at marked
    rcases marked with rfl | rfl <;> rfl
  intro offends
  cases offends with
  | empty marked => exact absurd names (Bool.eq_false_iff.mp (unmarked marked))
  | encoding marked _ => exact absurd names (Bool.eq_false_iff.mp (unmarked marked))
  | orphan marked _ _ => exact absurd names (Bool.eq_false_iff.mp (unmarked marked))

/-- A token that names no field begins with a mark. -/
theorem exists_mark_of_namesField {token : List Char} (names : namesField token = false) :
    ∃ mark ∈ marks, ∃ body, token = mark :: body := by
  unfold namesField at names
  split at names
  · exact ⟨'+', by decide, _, rfl⟩
  · exact ⟨'-', by decide, _, rfl⟩
  · cases names

/-! ### Reading the tokens of a line -/

/-- A token that names a field is mentioned, and the tokens after it are about the field. -/
theorem readOperations_name {field : Option String} {token : List Char}
    (names : namesField token = true) (rest : List (List Char)) :
    readOperations field (token :: rest) =
      (readOperations (some (lower (String.ofList token))) rest).map
        (.mention (lower (String.ofList token)) :: ·) := by
  rw [readOperations.eq_def]
  simp only
  split
  · cases names
  · cases names
  · rfl

/-- The operation that a mark stands for. -/
def changeOf (mark : Char) : String → String → Operation :=
  if mark = '+' then .add else .remove

/-- A token with a mark is read as an operation on the field named last, if its value can be read
and there is such a field. -/
theorem readOperations_mark (field : Option String) {mark : Char} (marked : mark ∈ marks)
    (body : List Char) (rest : List (List Char)) :
    readOperations field ((mark :: body) :: rest) =
      match readValue body, field with
      | .error problem, _ => .error (mark :: body, problem)
      | .ok _, none => .error (mark :: body, .orphanValue)
      | .ok value, some name =>
          (readOperations field rest).map (changeOf mark name value :: ·) := by
  simp only [marks, List.mem_cons, List.not_mem_nil, or_false] at marked
  rw [readOperations.eq_def]
  rcases marked with rfl | rfl
  · simp only
    cases readValue body <;> cases field <;> rfl
  · simp only
    cases readValue body <;> cases field <;> rfl

/-- The field that is named last after one more token. -/
def fieldAfter (field : Option String) (token : List Char) : Option String :=
  if namesField token then some (lower (String.ofList token)) else field

/-- A field is named after a token if one was named before or the token names it. -/
theorem isSome_fieldAfter (field : Option String) (token : List Char) :
    (fieldAfter field token).isSome = (field.isSome || namesField token) := by
  unfold fieldAfter
  cases names : namesField token <;> simp

/-- Reading tokens fails at the first of them, or after it where that is not at fault. -/
theorem readOperations_cons_eq_error_iff {field : Option String} {first : List Char}
    {rest : List (List Char)} {token : List Char} {problem : Problem} :
    readOperations field (first :: rest) = .error (token, problem) ↔
      (first = token ∧ Offends field.isSome first problem) ∨
        ((∀ fault, ¬ Offends field.isSome first fault) ∧
          readOperations (fieldAfter field first) rest = .error (token, problem)) := by
  cases names : namesField first with
  | true =>
      have innocent (fault : Problem) : ¬ Offends field.isSome first fault :=
        not_offends_of_namesField names
      rw [readOperations_name names, map_eq_error_iff, fieldAfter, if_pos names]
      simp only [innocent, and_false, not_false_eq_true, implies_true, true_and, false_or]
  | false =>
      obtain ⟨mark, marked, body, rfl⟩ := exists_mark_of_namesField names
      have read := readOperations_mark field marked body rest
      rw [read, fieldAfter, names, if_neg Bool.false_ne_true]
      simp only [offends_iff marked]
      cases value : readValue body with
      | error fault => simp
      | ok value =>
          cases field with
          | none => simpa using fun _ => eq_comm
          | some name => simp [map_eq_error_iff]

/-- The leftmost offence is that of the first token, or it is among the others where that is not at
fault. -/
theorem isLeftmostOffence_cons_iff {named : Bool} {first : List Char} {rest : List (List Char)}
    {token : List Char} {problem : Problem} :
    IsLeftmostOffence named (first :: rest) token problem ↔
      (first = token ∧ Offends named first problem) ∨
        ((∀ fault, ¬ Offends named first fault) ∧
          IsLeftmostOffence (named || namesField first) rest token problem) := by
  constructor
  · rintro ⟨before, after, split, offends, innocent⟩
    cases before with
    | nil =>
        cases split
        exact .inl ⟨rfl, by simpa using offends⟩
    | cons head before =>
        cases split
        refine .inr ⟨by simpa using innocent [] first before rfl, before, after, rfl, ?_, ?_⟩
        · simpa [Bool.or_assoc] using offends
        · intro earlier other later same
          have passed := innocent (first :: earlier) other later (congrArg (first :: ·) same)
          simpa [Bool.or_assoc] using passed
  · rintro (⟨rfl, offends⟩ | ⟨passed, before, after, rfl, offends, innocent⟩)
    · exact ⟨[], rest, rfl, by simpa using offends, by simp⟩
    · refine ⟨first :: before, after, rfl, by simpa [Bool.or_assoc] using offends, ?_⟩
      intro earlier other later same
      cases earlier with
      | nil =>
          cases same
          simpa using passed
      | cons head earlier =>
          cases same
          simpa [Bool.or_assoc] using innocent earlier other later rfl

/-- Reading tokens fails with the leftmost of them that is at fault. -/
theorem readOperations_eq_error_iff {field : Option String} {tokens : List (List Char)}
    {token : List Char} {problem : Problem} :
    readOperations field tokens = .error (token, problem) ↔
      IsLeftmostOffence field.isSome tokens token problem := by
  induction tokens generalizing field with
  | nil =>
      simp [readOperations, IsLeftmostOffence]
  | cons first rest step =>
      rw [readOperations_cons_eq_error_iff, step, isSome_fieldAfter, isLeftmostOffence_cons_iff]

/-- A line with words holds no entry exactly if something is wrong with it, and then the leftmost
token at fault is what the reader fails with. -/
theorem read_eq_error_iff {line token : List Char} {problem : Problem} (worded : words line ≠ []) :
    Entry.read line = .error (token, problem) ↔ Faulted line token problem := by
  rw [Entry.read]
  split
  · next none => exact absurd none worded
  · next stamp tokens split =>
      constructor
      · intro failed
        split at failed
        · next unread =>
            cases failed
            exact .stamp split unread
        · next read =>
            exact .operation split read
              (readOperations_eq_error_iff.mp (map_eq_error_iff.mp failed))
      · rintro (⟨again, unread⟩ | ⟨again, read, leftmost⟩)
        · cases split.symm.trans again
          rw [unread]
        · cases split.symm.trans again
          rw [read]
          exact map_eq_error_iff.mpr (readOperations_eq_error_iff.mpr leftmost)

theorem read_congr {line other : List Char} (same : words line = words other) :
    Entry.read line = Entry.read other := by
  rw [Entry.read, Entry.read, same]

/-! ### Rejected lines -/

/-- Whether a line is rejected: it is not blank, and holds no entry. -/
def isRejected (line : List Char) : Bool :=
  !line.all isBlank && !(Entry.read line).isOk

/-- The numbers of the rejected lines, from one on. -/
def rejectedNumbers (content : String) : List Nat :=
  (((lines content.toList).zipIdx 1).filter fun numbered => isRejected numbered.1).map Prod.snd

/-- Texts with the same line ends, where the second has blank lines in the places of the rejected
ones of the first and is the same otherwise. -/
def BlanksOut (content blanked : String) : Prop :=
  List.Forall₂ (fun line other => if isRejected line then other.all isBlank = true else other = line)
    (pieces (· == '\n') content.toList) (pieces (· == '\n') blanked.toList)

instance (content blanked : String) : Decidable (BlanksOut content blanked) :=
  inferInstanceAs (Decidable (List.Forall₂ _ _ _))

/-- A line is rejected if it has words and cannot be read. -/
theorem isRejected_eq_true_iff {line : List Char} :
    isRejected line = true ↔ words line ≠ [] ∧ ∃ fault, Entry.read line = .error fault := by
  rw [isRejected, Bool.and_eq_true, ne_eq, words_eq_nil_iff, ← List.all_eq_true, Bool.not_eq_true',
    Bool.not_eq_true]
  refine and_congr_right fun _ => ?_
  cases Entry.read line <;> simp [Except.isOk, Except.toBool]

theorem isRejected_congr {line other : List Char} (same : words line = words other) :
    isRejected line = isRejected other := by
  rw [Bool.eq_iff_iff, isRejected_eq_true_iff, isRejected_eq_true_iff, same, read_congr same]

theorem read_of_blank {line : List Char} (blank : line.all isBlank = true) :
    Entry.read line = .error ([], .badTimestamp) := by
  rw [Entry.read, words_eq_nil_iff.mpr (List.all_eq_true.mp blank)]

/-- A blank line is not rejected, although it is no entry. -/
theorem isRejected_of_blank {line : List Char} (blank : line.all isBlank = true) :
    isRejected line = false := by
  rw [isRejected, blank]
  rfl

/-! ### Reports on rejected lines -/

/-- The report on a line, if it is rejected. -/
def reportOf? (line : List Char) (number : Nat) : Option Warning :=
  match Entry.read line with
  | .error (token, problem) =>
      if line.all isBlank then none else some ⟨number, String.ofList token, problem⟩
  | .ok _ => none

/-- A line is reported under its number, with its leftmost fault. -/
theorem reportOf?_eq_some_iff {line : List Char} {number : Nat} {warning : Warning} :
    reportOf? line number = some warning ↔
      number = warning.line ∧ Faulted line warning.token.toList warning.problem := by
  obtain ⟨place, token, problem⟩ := warning
  by_cases worded : words line = []
  · have blank : line.all isBlank = true := List.all_eq_true.mpr (words_eq_nil_iff.mp worded)
    rw [reportOf?, read_of_blank blank]
    simp only [blank, ↓reduceIte, reduceCtorEq, false_iff]
    rintro ⟨-, ⟨split, -⟩ | ⟨split, -, -⟩⟩ <;> cases worded.symm.trans split
  · have wordy : line.all isBlank ≠ true := fun blank =>
      worded (words_eq_nil_iff.mpr (List.all_eq_true.mp blank))
    rw [← read_eq_error_iff worded, reportOf?]
    split
    · next failed =>
        rw [if_neg wordy, failed]
        simp only [Option.some.injEq, Warning.mk.injEq, Except.error.injEq, Prod.mk.injEq,
          ← String.toList_inj, String.toList_ofList]
    · next read =>
        rw [read]
        simp

/-- A line is reported exactly if it is rejected. -/
theorem isSome_reportOf? (line : List Char) (number : Nat) :
    (reportOf? line number).isSome = isRejected line := by
  unfold reportOf? isRejected
  cases Entry.read line <;> cases line.all isBlank <;> rfl

/-- The warnings of a log are the reports on its rejected lines, in the order of the lines. -/
theorem warnings_eq_filterMap (content : String) :
    warnings content =
      ((lines content.toList).zipIdx 1).filterMap fun numbered =>
        reportOf? numbered.1 numbered.2 := by
  rw [warnings, readings, numberedLines, List.filterMap_map, List.filterMap_filter]
  congr 1
  funext numbered
  obtain ⟨line, number⟩ := numbered
  simp only [isEmpty_trim, reportOf?, Function.comp_apply]
  cases Entry.read line <;> cases line.all isBlank <;> rfl

/-- The reports of numbered lines are about the rejected ones, in order. -/
theorem map_line_reports (numbered : List (List Char × Nat)) :
    (numbered.filterMap fun entry => reportOf? entry.1 entry.2).map Warning.line =
      (numbered.filter fun entry => isRejected entry.1).map Prod.snd := by
  induction numbered with
  | nil => rfl
  | cons head rest step =>
      obtain ⟨line, number⟩ := head
      have reported := isSome_reportOf? line number
      rw [List.filterMap_cons, List.filter_cons]
      cases report : reportOf? line number with
      | none =>
          rw [report] at reported
          simp only [← reported, Option.isSome_none, Bool.false_eq_true, ↓reduceIte, step]
      | some warning =>
          have place : warning.line = number := (reportOf?_eq_some_iff.mp report).1.symm
          rw [report] at reported
          simp only [← reported, Option.isSome_some, ↓reduceIte, List.map_cons, step, place]

/-- The warnings of a log are about its rejected lines, in order. -/
theorem map_line_warnings (content : String) :
    (warnings content).map Warning.line = rejectedNumbers content := by
  rw [warnings_eq_filterMap, map_line_reports, rejectedNumbers]

/-- Rejected lines are numbered in order. -/
theorem rejectedNumbers_ascending (content : String) :
    (rejectedNumbers content).Pairwise (· < ·) := by
  have numbers : (((lines content.toList).zipIdx 1).map Prod.snd).Pairwise (· < ·) := by
    rw [List.zipIdx_map_snd]
    exact List.pairwise_lt_range' 1
  exact numbers.sublist (List.filter_sublist.map Prod.snd)

/-! ### Blank lines for rejected ones -/

/-- The entries of a log are those of the texts between its line feeds. -/
theorem entries_eq_filterMap (content : String) :
    entries content =
      (pieces (· == '\n') content.toList).filterMap fun line => (Entry.read line).toOption := by
  rw [← filterMap_lines _ (fun line => by rw [read_congr (words_dropReturn line)]) rfl, entries,
    readings, numberedLines, List.filterMap_map, List.filterMap_filter]
  conv_rhs => rw [← List.zipIdx_map_fst 1 (lines content.toList), List.filterMap_map]
  congr 1
  funext numbered
  obtain ⟨line, number⟩ := numbered
  simp only [Function.comp_apply, isEmpty_trim]
  cases blank : line.all isBlank with
  | true =>
      rw [read_of_blank blank]
      rfl
  | false => cases Entry.read line <;> rfl

/-- A log has no warnings exactly if none of its pieces is rejected. -/
theorem warnings_eq_nil_iff (content : String) :
    warnings content = [] ↔
      ∀ line ∈ pieces (· == '\n') content.toList, isRejected line = false := by
  have taken := filterMap_lines (fun line => if isRejected line then some () else none)
    (fun line => by rw [isRejected_congr (words_dropReturn line)]) rfl content.toList
  have kept (texts : List (List Char)) :
      texts.filterMap (fun line => if isRejected line then some () else none) = [] ↔
        ∀ line ∈ texts, isRejected line = false := by
    rw [List.filterMap_eq_nil_iff]
    refine forall₂_congr fun line _ => ?_
    cases isRejected line <;> simp
  rw [← kept, ← taken, kept, ← List.map_eq_nil_iff (f := Warning.line), map_line_warnings,
    rejectedNumbers, List.map_eq_nil_iff, List.filter_eq_nil_iff]
  simp only [Prod.forall, Bool.not_eq_true]
  constructor
  · intro all line member
    rw [← List.zipIdx_map_fst 1 (lines content.toList)] at member
    obtain ⟨⟨_, number⟩, numbered, rfl⟩ := List.mem_map.mp member
    exact all _ number numbered
  · intro all line number numbered
    exact all line (List.fst_mem_of_mem_zipIdx numbered)

/-- Blanking the rejected lines of a log changes no entry. -/
theorem BlanksOut.entries_eq {content blanked : String} (blanks : BlanksOut content blanked) :
    entries blanked = entries content := by
  rw [entries_eq_filterMap, entries_eq_filterMap]
  unfold BlanksOut at blanks
  generalize pieces (· == '\n') content.toList = texts at blanks ⊢
  generalize pieces (· == '\n') blanked.toList = others at blanks ⊢
  induction blanks with
  | nil => rfl
  | @cons line other _ _ replaced _ step =>
      have same : (Entry.read other).toOption = (Entry.read line).toOption := by
        split at replaced
        · next rejected =>
            obtain ⟨-, fault, failed⟩ := isRejected_eq_true_iff.mp rejected
            rw [failed, read_of_blank replaced]
            rfl
        · rw [replaced]
      rw [List.filterMap_cons, List.filterMap_cons, same, step]

/-- A log whose rejected lines are blanked has no warnings. -/
theorem BlanksOut.warnings_eq_nil {content blanked : String} (blanks : BlanksOut content blanked) :
    warnings blanked = [] := by
  rw [warnings_eq_nil_iff]
  unfold BlanksOut at blanks
  generalize pieces (· == '\n') content.toList = texts at blanks
  generalize pieces (· == '\n') blanked.toList = others at blanks ⊢
  induction blanks with
  | nil => nofun
  | @cons line other _ _ replaced _ step =>
      refine List.forall_mem_cons.mpr ⟨?_, step⟩
      split at replaced
      · exact isRejected_of_blank replaced
      · next kept => rw [replaced, Bool.eq_false_iff.mpr kept]

/-- **Rejected lines are reported and change nothing.** The warnings of a log are about its rejected
lines, one about each of them in the order of the lines, and they name what is wrong there. With
blank lines in the places of the rejected ones, a log says the same and gives rise to no warning. -/
theorem warnings_report_rejected (content : String) :
    (decode content).warnings.map Warning.line = rejectedNumbers content ∧
      (rejectedNumbers content).Pairwise (· < ·) ∧
      (∀ warning ∈ (decode content).warnings, ∃ line,
        (line, warning.line) ∈ (lines content.toList).zipIdx 1 ∧
          Faulted line warning.token.toList warning.problem) ∧
      ∀ blanked, BlanksOut content blanked →
        (decode blanked).fields = (decode content).fields ∧ (decode blanked).warnings = [] := by
  refine ⟨map_line_warnings content, rejectedNumbers_ascending content, ?_, ?_⟩
  · intro warning member
    rw [decode, warnings_eq_filterMap] at member
    obtain ⟨⟨line, number⟩, numbered, report⟩ := List.mem_filterMap.mp member
    obtain ⟨rfl, faulted⟩ := reportOf?_eq_some_iff.mp report
    exact ⟨line, numbered, faulted⟩
  · intro blanked blanks
    exact ⟨congrArg replay blanks.entries_eq, blanks.warnings_eq_nil⟩

/-- Of five lines, the second ends in a bare sign, the fourth has no timestamp, and the fifth an
encoding that is none. -/
theorem warnings_report_rejected_of_mixed :
    let content := "1s artist +Bo\r\n2s title +A -\r\n\nx title +B\n3s genre +!?"
    let blanked := "1s artist +Bo\r\n \n\n\n"
    BlanksOut content blanked ∧ rejectedNumbers content = [2, 4, 5] ∧
      (decode blanked).fields = (decode content).fields ∧ (decode blanked).warnings = [] := by
  intro content blanked
  have blanks : BlanksOut content blanked := by decide +kernel
  exact ⟨blanks, by decide +kernel, (warnings_report_rejected content).2.2.2 blanked blanks⟩

end Log

end AnnexCatalog
