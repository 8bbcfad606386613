import AnnexCatalog.CommandLine.Run
import AnnexCatalog.Proofs.Query.Parts

/-! # Errors point into the query

Whatever a reader finds fault with begins, at a character that is no blank, inside the text that it
reads (`Fault.Marks`). The readers of clauses hand such faults on, and so the report on a rejected
query names a place of it: a position at which a character begins, and what stands there
(`parse_error_points`).
-/

namespace AnnexCatalog.Query

open Text

/-- Whether a text begins with a character that is no blank. -/
def BeginsVisibly (text : List Char) : Prop :=
  ∃ c rest, text = c :: rest ∧ isBlank c = false

/-- A fault that is found in a text: it has a place there that begins visibly, and an unknown name
stands at its place before a colon. -/
structure Fault.Marks (text : List Char) (fault : Fault) : Prop where
  inside : fault.place <:+ text
  visible : BeginsVisibly fault.place
  named : ∀ name, fault.reason = .unknownField name →
    ∃ rest, fault.place = name.toList ++ ':' :: rest

/-- A fault that marks a place in the end of a text marks it in the text. -/
theorem Fault.Marks.of_suffix {text whole : List Char} {fault : Fault} (marks : fault.Marks text)
    (suffix : text <:+ whole) : fault.Marks whole :=
  { marks with inside := marks.inside.trans suffix }

/-- A text that does not begin at a boundary begins with something to be seen. -/
theorem BeginsVisibly.of_not_atBoundary {text : List Char} (inside : atBoundary text = false) :
    BeginsVisibly text := by
  cases text with
  | nil => cases inside
  | cons c rest => exact ⟨c, rest, rfl, not_blank_of_not_atBoundary inside⟩

/-- The name that a reason finds unknown. -/
def Reason.unknown? : Reason → Option String
  | .unknownField name => some name
  | _ => none

/-- A fault that is about no name, at a place that begins visibly. -/
theorem Fault.marks_of_visible {text place : List Char} {reason : Reason} (inside : place <:+ text)
    (visible : BeginsVisibly place) (other : reason.unknown? = none) :
    Fault.Marks text ⟨place, reason⟩ where
  inside := inside
  visible := visible
  named name same := by
    change reason = _ at same
    rw [same] at other
    cases other

/-! ### Readers -/

/-- A quotation that is not closed is marked at its quote. -/
theorem takeQuotation_error {body : List Char} {fault : Fault}
    (failed : takeQuotation body = .error fault) : fault.Marks ('"' :: body) := by
  unfold takeQuotation at failed
  split at failed
  · cases failed
  · cases failed
    exact Fault.marks_of_visible (List.suffix_refl _) ⟨'"', body, rfl, by decide⟩ rfl

/-- A value that is not taken is missing, or it is marked. -/
theorem takeValue_error {missing fault : Fault} {text : List Char}
    (failed : takeValue missing text = .error fault) : fault = missing ∨ fault.Marks text := by
  rw [takeValue.eq_def] at failed
  split at failed
  · exact .inr (takeQuotation_error failed)
  · split at failed
    · cases failed
      exact .inl rfl
    · cases failed

/-- A comparison begins with its mark. -/
theorem visible_of_takeComparison? {text after : List Char} {operator : Operator}
    (compared : takeComparison? text = some (operator, after)) :
    BeginsVisibly text ∧ after <:+ text := by
  obtain ⟨mark, marked, rfl, -⟩ := takeComparison?_eq_some_iff.mp compared
  refine ⟨?_, List.suffix_append mark after⟩
  simp only [comparisons, List.mem_cons, Prod.mk.injEq, List.not_mem_nil, or_false] at marked
  rcases marked with ⟨rfl, -⟩ | ⟨rfl, -⟩ | ⟨rfl, -⟩ | ⟨rfl, -⟩ <;> exact ⟨_, _, rfl, by decide⟩

/-- A word that is no number is marked at the given place. -/
theorem wordFilter_error {field : Field} {place word : List Char} {fault : Fault}
    (visible : BeginsVisibly place) (failed : wordFilter field place word = .error fault) :
    fault.Marks place := by
  unfold wordFilter at failed
  split at failed
  · cases failed
  · split at failed
    · cases failed
      exact Fault.marks_of_visible (List.suffix_refl _) visible rfl
    · cases failed

/-- A filter begins visibly where one is read. -/
theorem visible_of_takeFilter {field : Field} {clause text rest : List Char} {filter : Filter}
    (taken : takeFilter field clause text = .ok (filter, rest)) : BeginsVisibly text := by
  obtain ⟨written, rfl, shape⟩ := exists_filterText taken
  obtain ⟨mark, marked, raw, value, rfl, inner⟩ := shape.exists_written
  simp only [valueMarks, List.mem_cons, List.not_mem_nil, or_false] at marked
  rcases marked with rfl | rfl | rfl | rfl | rfl | rfl
  · cases inner with
    | quotation closed => exact ⟨_, _, rfl, by decide⟩
    | word shape => exact .of_not_atBoundary (shape.atBoundary_append rest)
  all_goals exact ⟨_, _, rfl, by decide⟩

theorem IsName.visible_append {name : List Char} (shape : IsName name) (rest : List Char) :
    BeginsVisibly (name ++ rest) := by
  obtain ⟨c, others, rfl⟩ := List.exists_cons_of_ne_nil shape.ne_nil
  have letter := shape.letters_colon c List.mem_cons_self
  exact ⟨c, others ++ rest, rfl, (Bool.or_eq_false_iff.mp letter).1⟩

section Clause

variable {clause text : List Char} (begins : BeginsVisibly clause) (within : text <:+ clause)
include begins

/-- What is missing in a clause, or does not fit it, is reported where the clause begins. -/
theorem marks_clause {reason : Reason} (other : reason.unknown? = none) :
    Fault.Marks clause ⟨clause, reason⟩ :=
  Fault.marks_of_visible (List.suffix_refl _) begins other

include within

/-- The faults of a filter lie in its clause. -/
theorem takeFilter_error {field : Field} {fault : Fault}
    (failed : takeFilter field clause text = .error fault) : fault.Marks clause := by
  rw [takeFilter.eq_def] at failed
  split at failed
  · next operator after compared =>
      obtain ⟨visible, suffix⟩ := visible_of_takeComparison? compared
      split at failed
      · cases failed
        exact marks_clause begins rfl
      · rcases bind_eq_error_iff.mp failed with missing | ⟨⟨value, rest⟩, -, unread⟩
        · rcases takeValue_error missing with rfl | marks
          · exact marks_clause begins rfl
          · exact marks.of_suffix (suffix.trans within)
        · dsimp only at unread
          split at unread
          · cases unread
          · cases unread
            exact Fault.marks_of_visible within visible rfl
  · split at failed
    · rcases bind_eq_error_iff.mp failed with missing | ⟨_, -, read⟩
      · rcases takeValue_error missing with rfl | marks
        · exact marks_clause begins rfl
        · exact marks.of_suffix ((List.suffix_cons '=' _).trans within)
      · cases read
    · rcases bind_eq_error_iff.mp failed with unclosed | ⟨_, -, read⟩
      · exact (takeQuotation_error unclosed).of_suffix within
      · cases read
    · split at failed
      · cases failed
        exact marks_clause begins rfl
      · next inside =>
          have visible := BeginsVisibly.of_not_atBoundary (Bool.eq_false_iff.mpr inside)
          rcases bind_eq_error_iff.mp failed with reversed | ⟨_, -, read⟩
          · exact (wordFilter_error visible reversed).of_suffix within
          · cases read

/-- A presence clause with a wrong value is marked as a whole. -/
theorem settlePresence_error {filter : Filter} {fault : Fault} (visible : BeginsVisibly text)
    (failed : settlePresence clause text filter = .error fault) : fault.Marks clause := by
  unfold settlePresence at failed
  split at failed
  · cases failed
  · split at failed
    · cases failed
      exact marks_clause begins rfl
    · split at failed
      · cases failed
      · cases failed
        exact Fault.marks_of_visible within visible rfl

/-- A condition that is not taken is marked in the text of its clause. -/
theorem takeCondition_error {fault : Fault}
    (failed : takeCondition clause text = .error fault) : fault.Marks clause := by
  rw [takeCondition.eq_def] at failed
  split at failed
  · rcases bind_eq_error_iff.mp failed with unclosed | ⟨_, -, read⟩
    · exact (takeQuotation_error unclosed).of_suffix within
    · cases read
  · split at failed
    · cases failed
    · next name after named =>
        obtain ⟨rfl, shape⟩ := takeName?_eq_some_iff.mp named
        have suffix : after <:+ clause :=
          ((List.suffix_cons ':' after).trans (List.suffix_append name _)).trans within
        split at failed
        · cases failed
          refine ⟨within, shape.visible_append _, fun name same => ?_⟩
          rw [← Reason.unknownField.inj same, String.toList_ofList]
          exact ⟨after, rfl⟩
        · rcases bind_eq_error_iff.mp failed with unread | ⟨⟨filter, rest⟩, taken, ending⟩
          · exact takeFilter_error begins suffix unread
          · rcases bind_eq_error_iff.mp ending with unsettled | ⟨_, -, read⟩
            · exact settlePresence_error begins suffix (visible_of_takeFilter taken) unsettled
            · cases read

end Clause

/-- The faults of a clause lie in it. -/
theorem takeClause_error {text : List Char} {fault : Fault} (begins : BeginsVisibly text)
    (failed : takeClause text = .error fault) : fault.Marks text := by
  rw [takeClause.eq_def] at failed
  split at failed
  · next after =>
      split at failed
      · cases failed
        exact marks_clause begins rfl
      · exact takeCondition_error begins (List.suffix_cons '-' after)
          (map_eq_error_iff.mp failed)
  · exact takeCondition_error begins (List.suffix_refl _) failed

/-! ### Pieces and groups -/

/-- A piece has its place in a text, where it begins visibly; a fault among the pieces is one of the
text. -/
structure Located.Within (text : List Char) (located : Located) : Prop where
  inside : located.place <:+ text
  visible : BeginsVisibly located.place
  marks : ∀ fault, located.piece = .fault fault → fault.Marks text

theorem Located.Within.of_suffix {text whole : List Char} {located : Located}
    (within : located.Within text) (suffix : text <:+ whole) : located.Within whole where
  inside := within.inside.trans suffix
  visible := within.visible
  marks fault same := (within.marks fault same).of_suffix suffix

/-- Behind its first blanks a text begins visibly. -/
theorem begins_of_trimStart {text rest : List Char} {c : Char}
    (trimmed : trimStart text = c :: rest) :
    BeginsVisibly (c :: rest) ∧ c :: rest <:+ text :=
  ⟨⟨c, rest, rfl, not_blank_of_trimStart trimmed⟩, trimmed ▸ List.dropWhile_suffix isBlank⟩

/-- All pieces of a text are found in it, and their faults are marked there. -/
theorem scan_within (text : List Char) : ∀ located ∈ scan text, located.Within text := by
  induction text using scan.induct with
  | case1 text trimmed =>
      rw [← scan_trimStart, trimmed, scan.eq_def]
      exact fun _ member => absurd member List.not_mem_nil
  | case2 text c rest trimmed after separated later =>
      obtain ⟨visible, suffix⟩ := begins_of_trimStart trimmed
      have further : after <:+ c :: rest := by
        rcases afterSeparator?_eq_some_iff.mp separated with same | ⟨same, -⟩
        · exact ⟨['|'], same.symm⟩
        · exact ⟨['O', 'R'], same.symm⟩
      rw [← scan_trimStart, trimmed, scan_separator separated]
      refine List.forall_mem_cons.mpr
        ⟨⟨suffix, visible, fun _ same => ?_⟩, fun located member => ?_⟩
      · cases same
      · exact (later located member).of_suffix (further.trans suffix)
  | case3 text c rest trimmed unseparated fault failed =>
      obtain ⟨visible, suffix⟩ := begins_of_trimStart trimmed
      rw [← scan_trimStart, trimmed, scan_cons rest (not_blank_of_trimStart trimmed), unseparated,
        failed]
      refine List.forall_mem_cons.mpr
        ⟨⟨suffix, visible, fun other same => ?_⟩, List.forall_mem_nil _⟩
      rw [← Piece.fault.inj same]
      exact (takeClause_error visible failed).of_suffix suffix
  | case4 text c rest trimmed unseparated clause after taken later =>
      obtain ⟨visible, suffix⟩ := begins_of_trimStart trimmed
      have inside := not_atBoundary_of_unseparated (not_blank_of_trimStart trimmed) unseparated
      obtain ⟨written, split, -⟩ := (takeClause_eq_ok_iff inside).mp taken
      rw [← scan_trimStart, trimmed, scan_clause inside unseparated taken]
      refine List.forall_mem_cons.mpr
        ⟨⟨suffix, visible, fun _ same => ?_⟩, fun located member => ?_⟩
      · cases same
      · exact (later located member).of_suffix (List.IsSuffix.trans ⟨written, split.symm⟩ suffix)

/-- Groups are not gathered where one of the pieces is a fault or a separator is out of place. -/
theorem gather_error {text : List Char} {held : List Clause} {cut : Option (List Char)}
    {located : List Located} {fault : Fault}
    (opened : ∀ place ∈ cut, place <:+ text ∧ BeginsVisibly place)
    (within : ∀ piece ∈ located, piece.Within text)
    (failed : gather held cut located = .error fault) : fault.Marks text := by
  induction located generalizing held cut with
  | nil =>
      rw [gather.eq_def] at failed
      dsimp only at failed
      split at failed
      · next place =>
          cases failed
          obtain ⟨inside, visible⟩ := opened place rfl
          exact Fault.marks_of_visible inside visible rfl
      · cases failed
      · cases failed
  | cons first rest later =>
      obtain ⟨here, others⟩ := List.forall_mem_cons.mp within
      obtain ⟨place, separator | clause | found⟩ := first
      · rw [gather] at failed
        split at failed
        · cases failed
          exact Fault.marks_of_visible here.inside here.visible rfl
        · refine later (fun cut same => ?_) others (map_eq_error_iff.mp failed)
          rw [← Option.some.inj same]
          exact ⟨here.inside, here.visible⟩
      · rw [gather] at failed
        exact later opened others failed
      · rw [gather] at failed
        cases failed
        exact here.marks _ rfl

/-- A query that is rejected is marked in its text. -/
theorem groupsOf_error {text : List Char} {fault : Fault}
    (failed : groupsOf text = .error fault) : fault.Marks text :=
  gather_error (fun _ none => by cases none) (scan_within text) failed

/-! ### Reports -/

theorem head?_append {lead : String} {c : Char} (first : lead.toList.head? = some c)
    (rest : String) : (lead ++ rest).toList.head? = some c := by
  rw [String.toList_append, List.head?_append, first]
  rfl

/-- The character with which the message of a reason begins. -/
def Reason.initial : Reason → Char
  | .separatorFirst | .separatorLast => 'O'
  | .bareNegation => 'n'
  | .unclosedQuote | .unknownField _ => 'u'
  | .missingValue _ | .missingExactValue | .missingNumber => 'm'
  | .notNumeric _ => 'f'
  | .notNumber _ => 'e'
  | .reversedRange _ _ => 'r'
  | .emptyPresence | .notPresence => 'p'

theorem head?_message (reason : Reason) (position : Nat) :
    (reason.message position).toList.head? = some reason.initial := by
  cases reason <;> dsimp only [Reason.message, Reason.initial]
  case unclosedQuote | unknownField | notNumber => exact head?_append (by decide) _
  case missingValue | notNumeric => exact head?_append (head?_append (by decide) _) _
  case reversedRange => exact head?_append (head?_append (head?_append (by decide) _) _) _
  all_goals decide

/-- The message about an unclosed quote is the only one in an error that begins as it does. -/
theorem message_ne_unclosedQuote {reason : Reason} (other : reason ≠ .unclosedQuote)
    (known : ∀ name, reason ≠ .unknownField name) (position : Nat) :
    reason.message position ≠ Reason.unclosedQuote.message position := by
  intro same
  have first := head?_message reason position
  rw [same, head?_message, Option.some.injEq] at first
  cases reason with
  | unclosedQuote => exact other rfl
  | unknownField name => exact known name rfl
  | _ => cases first

/-- An error points at a place of a text: its position is that of the place in bytes, the place
begins visibly, and what the error repeats of the text stands there. -/
structure Error.PointsAt (error : Error) (text before place : List Char) : Prop where
  whole : text = before ++ place
  position : error.position = byteLength before
  visible : BeginsVisibly place
  named : ∀ name position, error = .unknownField name position →
    ∃ rest, place = name.toList ++ ':' :: rest
  shown : ∀ position fragment reason, error = .malformed position fragment reason →
    fragment ≠ "" ∧ fragment.toList =
      if reason = Reason.unclosedQuote.message position then place
      else place.takeWhile fun c => !isBlank c

/-- What is shown of a place is not empty, and it is the rest of the text only for an unclosed
quote. -/
theorem fragment_of_marks {text : List Char} {fault : Fault} (marks : fault.Marks text)
    (known : ∀ name, fault.reason ≠ .unknownField name) (position : Nat) :
    String.ofList fault.fragment ≠ "" ∧ fault.fragment =
      if fault.reason.message position = Reason.unclosedQuote.message position then fault.place
      else fault.place.takeWhile fun c => !isBlank c := by
  obtain ⟨c, rest, begins, kept⟩ := marks.visible
  unfold Fault.fragment
  split
  · next unclosed =>
      rw [unclosed, if_pos rfl, begins]
      exact ⟨fun none => List.cons_ne_nil _ _ (String.ofList_eq_empty_iff.mp none), rfl⟩
  · next other =>
      rw [if_neg (message_ne_unclosedQuote other known position), begins,
        List.takeWhile_cons_of_pos (by rw [kept]; rfl)]
      exact ⟨fun none => List.cons_ne_nil _ _ (String.ofList_eq_empty_iff.mp none), rfl⟩

/-- A fault that names no field is reported as malformed, with its position and fragment. -/
theorem report_of_known {text : List Char} {fault : Fault}
    (known : ∀ name, fault.reason ≠ .unknownField name) :
    fault.report text = .malformed (byteLength text - byteLength fault.place)
      (String.ofList fault.fragment)
      (fault.reason.message (byteLength text - byteLength fault.place)) := by
  unfold Fault.report
  split
  · next name same => exact absurd same (known name)
  · rfl

/-- The report on a fault in a text points at its place. -/
theorem report_pointsAt {text : List Char} {fault : Fault} (marks : fault.Marks text) :
    ∃ before, (fault.report text).PointsAt text before fault.place := by
  obtain ⟨before, whole⟩ := marks.inside
  have position : byteLength text - byteLength fault.place = byteLength before := by
    rw [← whole, byteLength_append, Nat.add_sub_cancel]
  refine ⟨before, ?_⟩
  by_cases known : ∀ name, fault.reason ≠ .unknownField name
  · have fragment := fragment_of_marks marks known (byteLength before)
    rw [report_of_known known, position]
    refine ⟨whole.symm, rfl, marks.visible, nofun, fun _ _ _ same => ?_⟩
    cases same
    rwa [String.toList_ofList]
  · obtain ⟨name, unknown⟩ := not_forall_not.mp known
    have report : fault.report text = .unknownField name (byteLength before) := by
      rw [Fault.report, unknown, position]
    rw [report]
    refine ⟨whole.symm, rfl, marks.visible, fun _ _ same => ?_, nofun⟩
    cases same
    exact marks.named name unknown

/-- **Errors point into the query.** A rejected query is reported with a position inside it, at
which a character begins that is no blank. An unknown name stands there before a colon; else what is
shown of the query begins there and goes on to the next blank, or to the end where a quote stays
open. So the caret can be put under every error. -/
theorem parse_error_points {text : String} {error : Error} (failed : parse text = .error error) :
    (Failure.query error).isQueryError = true ∧ error.position < byteLength text.toList ∧
      ∃ before place, error.PointsAt text.toList before place ∧
        CommandLine.marker? text error =
          some (String.ofList (List.replicate before.length ' ' ++ ['^'])) := by
  obtain ⟨fault, found, rfl⟩ : ∃ fault, groupsOf text.toList = .error fault ∧
      fault.report text.toList = error :=
    mapError_eq_error_iff.mp (map_eq_error_iff.mp failed)
  obtain ⟨before, points⟩ := report_pointsAt (groupsOf_error found)
  obtain ⟨c, rest, begins, -⟩ := points.visible
  refine ⟨rfl, ?_, before, fault.place, points, ?_⟩
  · rw [points.position, points.whole, byteLength_append, begins, byteLength]
    have width := c.utf8Size_pos
    omega
  · rw [CommandLine.marker?, points.position, points.whole, charsBefore?_byteLength]
    rfl

/-- Behind a character of two bytes a word is no number; the caret stands under its comparison. -/
theorem parse_error_points_of_comparison :
    let text := "genre:\u00FC bpm:>fast"
    let error := Error.malformed 13 ">fast" "expected a number, found \"fast\""
    parse text = .error error ∧ CommandLine.marker? text error = some "            ^" ∧
      ∃ before place, error.PointsAt text.toList before place := by
  intro text error
  have failed : parse text = .error error := by decide +kernel
  obtain ⟨-, -, before, place, points, -⟩ := parse_error_points failed
  exact ⟨failed, by decide +kernel, before, place, points⟩

end AnnexCatalog.Query
