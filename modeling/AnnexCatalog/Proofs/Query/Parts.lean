import AnnexCatalog.Proofs.Query.Pieces

/-! # Queries as texts that fall into parts

The texts that are accepted as queries can be told without the readers. Such a text is cut, from the
left to the right and with nothing left over, into runs of blanks, separators and clause texts. The
form of a clause text only tells how far it reaches; what it means is what it means by itself, as a
query of one clause. `parse_eq_ok_iff_parts` says that exactly these texts are accepted and that the
groups are the runs of clauses between separators.
-/

namespace AnnexCatalog.Query

open Text

/-! ### The form of a clause -/

/-- What may stand between the colon of a filter and its value. -/
def valueMarks : List (List Char) :=
  [[], ['='], ['>'], ['<'], ['>', '='], ['<', '=']]

/-- The form of a clause after its sign, before a text: a closed quotation, a known name, a colon
and a value, or a word without a name at its front. -/
inductive UnsignedShape : (text following : List Char) → Prop where
  | quotation {body following : List Char} (closed : '"' ∉ body) :
      UnsignedShape ('"' :: (body ++ ['"'])) following
  | filter {name mark written value following : List Char} {field : Field}
      (known : Field.ofName? (String.ofList name) = some field) (marked : mark ∈ valueMarks)
      (shape : Written written value following) :
      UnsignedShape (name ++ ':' :: (mark ++ written)) following
  | word {word following : List Char} (shape : IsWord word following) (unnamed : ¬ IsNamed word) :
      UnsignedShape word following

/-- The form of a clause before a text. -/
inductive ClauseShape : (text following : List Char) → Prop where
  | plain {text following : List Char} (shape : UnsignedShape text following) :
      ClauseShape text following
  | negated {text following : List Char} (shape : UnsignedShape text following) :
      ClauseShape ('-' :: text) following

/-! ### Parts -/

/-- A part of a query text; a clause text with the clause that it means. -/
inductive Part where
  | blanks (run : List Char)
  | bar
  /-- The word `OR`. -/
  | word
  | clause (text : List Char) (meaning : Clause)

namespace Part

def text : Part → List Char
  | .blanks run => run
  | .bar => ['|']
  | .word => ['O', 'R']
  | .clause text _ => text

/-- What a part contributes to the query. -/
def piece? : Part → Option Piece
  | .blanks _ => none
  | .bar | .word => some .separator
  | .clause _ meaning => some (.clause meaning)

/-- Whether a part may stand before a text. Runs of blanks go on as far as possible, the word of a
separator has to end, and a clause text by itself has to be a query of the one clause. -/
def Stands (following : List Char) : Part → Prop
  | .blanks run => run ≠ [] ∧ (∀ c ∈ run, isBlank c = true) ∧
      ∀ c ∈ following.head?, isBlank c = false
  | .bar => True
  | .word => atBoundary following = true
  | .clause text meaning =>
      ClauseShape text following ∧ parse (String.ofList text) = .ok ⟨[[meaning]]⟩

end Part

/-- Each part may stand before the text of the later ones. -/
def Standing : List Part → Prop
  | [] => True
  | part :: later => part.Stands (later.flatMap Part.text) ∧ Standing later

/-- No separator stands first, last or directly after another. -/
structure Separated (pieces : List Piece) : Prop where
  first : pieces.head? ≠ some .separator
  last : pieces.getLast? ≠ some .separator
  apart : pieces.IsChain fun piece next => piece = .separator → next ≠ .separator

def Piece.clause? : Piece → Option Clause
  | .clause meaning => some meaning
  | _ => none

/-- The runs of clauses between separators. -/
def clauseRuns (pieces : List Piece) : List (List Clause) :=
  ((pieces.splitOn .separator).map (List.filterMap Piece.clause?)).filter (· ≠ [])

/-! ### Separated pieces form the runs between separators -/

section Runs

variable {α : Type} [DecidableEq α] {cut : α} {xs : List α}

/-- No run between cuts is empty if there is no cut at the front and no later run is empty. -/
theorem nil_notMem_splitOn_iff :
    [] ∉ xs.splitOn cut ↔
      xs ≠ [] ∧ xs.head? ≠ some cut ∧ [] ∉ (xs.splitOn cut).tail := by
  cases xs with
  | nil => simp
  | cons x others =>
      rw [List.splitOn_cons_eq_if_modifyHead]
      obtain ⟨run, later, split⟩ := List.exists_cons_of_ne_nil (List.splitOn_ne_nil cut others)
      split
      · next same =>
          simp [beq_iff_eq.mp same]
      · next other =>
          simp [split, beq_iff_eq.not.mp other]

/-- No run after a cut is empty exactly if the list does not end in a cut and no two cuts are
neighbours. -/
theorem nil_notMem_tail_splitOn_iff :
    [] ∉ (xs.splitOn cut).tail ↔
      xs.getLast? ≠ some cut ∧ xs.IsChain fun x next => x = cut → next ≠ cut := by
  induction xs with
  | nil => simp
  | cons x others step =>
      rw [List.splitOn_cons_eq_if_modifyHead]
      obtain ⟨run, later, split⟩ := List.exists_cons_of_ne_nil (List.splitOn_ne_nil cut others)
      split
      · next same =>
          rw [List.tail_cons, nil_notMem_splitOn_iff, step]
          cases others with
          | nil => simp [beq_iff_eq.mp same]
          | cons next others =>
              simp only [beq_iff_eq.mp same, List.getLast?_cons_cons, List.isChain_cons_cons]
              simp
              exact and_left_comm
      · next other =>
          cases others <;> simp_all

end Runs

/-- Separators stand between clauses only, exactly if there are no pieces or no run between
separators is empty. -/
theorem separated_iff {pieces : List Piece} :
    Separated pieces ↔ pieces = [] ∨ [] ∉ pieces.splitOn .separator := by
  rw [nil_notMem_splitOn_iff, nil_notMem_tail_splitOn_iff]
  constructor
  · intro separated
    exact (em (pieces = [])).imp_right fun some =>
      ⟨some, separated.first, separated.last, separated.apart⟩
  · rintro (rfl | ⟨-, first, last, apart⟩)
    · exact ⟨nofun, nofun, .nil⟩
    · exact ⟨first, last, apart⟩

/-- Between separators stand clauses only. -/
theorem exists_splitOn_eq {pieces : List Piece} (faultless : ∀ fault, .fault fault ∉ pieces) :
    ∃ groups : List (List Clause),
      pieces.splitOn .separator = groups.map (List.map Piece.clause) := by
  induction pieces with
  | nil => exact ⟨[[]], rfl⟩
  | cons piece later step =>
      obtain ⟨groups, runs⟩ := step fun fault member => faultless fault (List.mem_cons_of_mem _ member)
      rw [List.splitOn_cons_eq_if_modifyHead, runs]
      cases piece with
      | separator => exact ⟨[] :: groups, by simp⟩
      | clause clause => exact ⟨groups.modifyHead (clause :: ·), by cases groups <;> simp⟩
      | fault fault => exact absurd List.mem_cons_self (faultless fault)

/-- The runs of clauses are the groups that are not empty. -/
theorem clauseRuns_eq {pieces : List Piece} {groups : List (List Clause)}
    (runs : pieces.splitOn .separator = groups.map (List.map Piece.clause)) :
    clauseRuns pieces = groups.filter (· ≠ []) := by
  have kept (group : List Clause) : (group.map Piece.clause).filterMap Piece.clause? = group := by
    rw [List.filterMap_map]
    exact List.filterMap_some
  rw [clauseRuns, runs, List.map_map]
  exact congrArg _ ((List.map_congr_left fun group _ => kept group).trans (List.map_id _))

theorem filter_ne_nil {groups : List (List Clause)} (nonempty : [] ∉ groups) :
    groups.filter (· ≠ []) = groups :=
  List.filter_eq_self.mpr fun _ member => decide_eq_true (ne_of_mem_of_not_mem member nonempty)

/-- Pieces form groups if they are separated, and then their runs of clauses. -/
theorem forms_iff {pieces : List Piece} {groups : List (List Clause)}
    (faultless : ∀ fault, .fault fault ∉ pieces) :
    Forms pieces groups ↔ Separated pieces ∧ groups = clauseRuns pieces := by
  rw [separated_iff]
  constructor
  · intro formed
    cases formed with
    | none => exact ⟨.inl rfl, rfl⟩
    | some found nonempty runs =>
        rw [clauseRuns_eq runs, runs, filter_ne_nil nonempty]
        exact ⟨.inr (by simpa using nonempty), rfl⟩
  · rintro ⟨rfl | nonempty, rfl⟩
    · exact .none
    · obtain ⟨groups, runs⟩ := exists_splitOn_eq faultless
      have found : pieces ≠ [] := (nil_notMem_splitOn_iff.mp nonempty).1
      have kept : [] ∉ groups := by simpa [runs] using nonempty
      rw [clauseRuns_eq runs, filter_ne_nil kept]
      exact .some found kept runs

/-! ### Clause texts by themselves -/

/-- A text ends where another begins: with a quote, or as a word ends; in no case with a blank. -/
def Ends (text following : List Char) : Prop :=
  ∃ c, text.getLast? = some c ∧ isBlank c = false ∧ (c = '"' ∨ atBoundary following = true)

/-- Where a text ends does not depend on what stands before it. -/
theorem Ends.prepend {text following : List Char} (ends : Ends text following)
    (before : List Char) : Ends (before ++ text) following := by
  obtain ⟨c, last, kept, closed⟩ := ends
  exact ⟨c, by rw [List.getLast?_append, last]; rfl, kept, closed⟩

theorem ends_quotation (body following : List Char) : Ends ('"' :: (body ++ ['"'])) following :=
  have quote : Ends ['"'] following := ⟨'"', rfl, by decide, .inl rfl⟩
  quote.prepend ('"' :: body)

theorem IsWord.ends_text {word following : List Char} (shape : IsWord word following) :
    Ends word following := by
  have last := List.getLast?_eq_some_getLast shape.nonempty
  have kept := shape.letters _ (List.getLast_mem shape.nonempty)
  exact ⟨_, last, (Bool.or_eq_false_iff.mp kept).1, .inr shape.ends⟩

theorem Written.ends {written value following : List Char}
    (shape : Written written value following) : Ends written following := by
  cases shape with
  | quotation closed => exact ends_quotation _ _
  | word shape => exact shape.ends_text

/-- A clause without its sign ends where its form does. -/
theorem UnsignedShape.ends {text following : List Char} (shape : UnsignedShape text following) :
    Ends text following := by
  cases shape with
  | quotation closed => exact ends_quotation _ _
  | @filter name mark written _ _ _ known marked shape =>
      have whole : name ++ ':' :: (mark ++ written) = (name ++ ':' :: mark) ++ written := by simp
      rw [whole]
      exact shape.ends.prepend _
  | word shape unnamed => exact shape.ends_text

/-- A clause with its sign ends where its form does. -/
theorem ClauseShape.ends {text following : List Char} (shape : ClauseShape text following) :
    Ends text following := by
  cases shape with
  | plain shape => exact shape.ends
  | negated shape => exact shape.ends.prepend ['-']

theorem ClauseShape.atBoundary_append {text following : List Char}
    (shape : ClauseShape text following) (rest : List Char) :
    atBoundary (text ++ rest) = false := by
  cases shape with
  | negated shape => exact (by decide : endsWord '-' = false)
  | plain shape =>
      cases shape with
      | quotation closed => exact (by decide : endsWord '"' = false)
      | word shape unnamed => exact shape.atBoundary_append rest
      | @filter name _ _ _ _ _ known _ _ =>
          have named := isName_of_ofName?_eq_some known
          cases name with
          | nil => exact absurd rfl named.ne_nil
          | cons c others => exact named.letters_colon c List.mem_cons_self

/-- What follows a text does not make it a separator. -/
theorem afterSeparator?_append_eq_none_iff {text following : List Char} (ends : Ends text following)
    (inside : atBoundary text = false) :
    afterSeparator? (text ++ following) = none ↔ afterSeparator? text = none := by
  obtain ⟨last, found, -, closed⟩ := ends
  rw [afterSeparator?_eq_none_iff, afterSeparator?_eq_none_iff]
  have head : (text ++ following).head? = text.head? := by
    cases text with
    | nil => cases inside
    | cons c others => rfl
  rw [head]
  refine and_congr_right fun _ => ⟨fun unseparated rest split => ?_, fun unseparated rest split => ?_⟩
  · subst split
    have further := unseparated (rest ++ following) rfl
    cases rest with
    | cons e others => exact further
    | nil =>
        cases found
        rcases closed with quote | ends
        · cases quote
        · exact absurd (ends.symm.trans further) (by decide)
  · match text with
    | [] => cases inside
    | [c] =>
        cases found
        cases split
        rcases closed with quote | ends
        · cases quote
        · cases ends
    | c :: d :: others =>
        cases split
        have further := unseparated others rfl
        cases others with
        | nil => cases further
        | cons e others => exact further

/-- The text of a filter after its field is a mark and a value. -/
theorem FilterText.exists_written {field : Field} {text following : List Char} {filter : Filter}
    (shape : FilterText field text following filter) :
    ∃ mark ∈ valueMarks, ∃ written value,
      text = mark ++ written ∧ Written written value following := by
  cases shape with
  | comparison marked numeric shape number =>
      refine ⟨_, ?_, _, _, rfl, shape⟩
      exact (by decide : ∀ pair ∈ comparisons, pair.1 ∈ valueMarks) _ marked
  | exact shape => exact ⟨['='], by decide, _, _, rfl, shape⟩
  | quotation closed => exact ⟨[], by decide, _, _, rfl, .quotation closed⟩
  | word shape plain meaning => exact ⟨[], by decide, _, _, rfl, .word shape⟩

/-- What is read as a condition has the form of one. -/
theorem ConditionText.shape {written following : List Char} {clause : Clause}
    (shape : ConditionText written following clause) : UnsignedShape written following := by
  cases shape with
  | quotation closed => exact .quotation closed
  | word shape unnamed => exact .word shape unnamed
  | filter known shape meaning =>
      obtain ⟨mark, marked, raw, value, rfl, inner⟩ := shape.exists_written
      exact .filter known marked inner

/-- What is read as a clause has the form of one. -/
theorem ClauseText.shape {written following : List Char} {clause : Clause}
    (shape : ClauseText written following clause) : ClauseShape written following := by
  cases shape with
  | plain unsigned shape => exact .plain shape.shape
  | negated shape => exact .negated shape.shape

/-- A filter whose value is a quotation may stand before any text. -/
theorem FilterText.of_quotation {field : Field} {text following other mark body : List Char}
    {filter : Filter} (shape : FilterText field text following filter) (marked : mark ∈ valueMarks)
    (split : text = mark ++ '"' :: body) : FilterText field text other filter := by
  simp only [valueMarks, List.mem_cons, List.not_mem_nil, or_false] at marked
  cases shape with
  | @comparison sign raw value _ operator compared numeric shape number =>
      cases shape with
      | quotation closed => exact .comparison compared numeric (.quotation closed) number
      | word shape =>
          have unequal : raw.head? ≠ some '=' := by
            intro head
            obtain ⟨others, rfl⟩ := List.head?_eq_some_iff.mp head
            rw [numberOf?_equals] at number
            cases number
          have unquoted := shape.unquoted
          simp only [comparisons, List.mem_cons, Prod.mk.injEq, List.not_mem_nil,
            or_false] at compared
          exfalso
          rcases compared with ⟨rfl, -⟩ | ⟨rfl, -⟩ | ⟨rfl, -⟩ | ⟨rfl, -⟩ <;>
            rcases marked with rfl | rfl | rfl | rfl | rfl | rfl <;> simp_all
  | exact shape =>
      cases shape with
      | quotation closed => exact .exact (.quotation closed)
      | word shape =>
          have unquoted := shape.unquoted
          exfalso
          rcases marked with rfl | rfl | rfl | rfl | rfl | rfl <;> simp_all
  | quotation closed => exact .quotation closed
  | word shape plain meaning =>
      have led : ∃ c ∈ leads, text.head? = some c := by
        rcases marked with rfl | rfl | rfl | rfl | rfl | rfl <;> simp_all [leads]
      obtain ⟨c, lead, head⟩ := led
      exact absurd head (plain c lead)

/-- What is written before a text that continues a word has to be closed by a quotation. -/
theorem Written.exists_body {written value following : List Char}
    (shape : Written written value following) (further : atBoundary following = false) :
    ∃ body, written = '"' :: body := by
  cases shape with
  | quotation closed => exact ⟨_, rfl⟩
  | word shape =>
      rw [shape.ends] at further
      cases further

theorem head?_of_known {name : List Char} {field : Field} (rest : List Char)
    (known : Field.ofName? (String.ofList name) = some field) :
    ∃ c, (name ++ rest).head? = some c ∧ c.isAlpha = true := by
  obtain ⟨c, head, alphabetic⟩ := (isName_of_ofName?_eq_some known).begins
  obtain ⟨others, rfl⟩ := List.head?_eq_some_iff.mp head
  exact ⟨c, rfl, alphabetic⟩

/-- What a clause means does not depend on what follows, if its form allows that to follow. -/
theorem ConditionText.of_shape {text following : List Char} {clause : Clause}
    (meaning : ConditionText text [] clause) (shape : UnsignedShape text following)
    (further : atBoundary following = false) : ConditionText text following clause := by
  cases meaning with
  | quotation closed => exact .quotation closed
  | word word unnamed =>
      cases shape with
      | quotation closed => exact absurd rfl word.unquoted
      | word shape _ => exact .word shape unnamed
      | filter known marked shape =>
          exact absurd ⟨_, _, isName_of_ofName?_eq_some known, rfl⟩ unnamed
  | @filter name written _ field filter settled known inner meaning =>
      refine .filter known ?_ meaning
      generalize whole : name ++ ':' :: written = text at shape
      obtain ⟨c, head, alphabetic⟩ := head?_of_known (':' :: written) known
      rw [whole] at head
      cases shape with
      | quotation closed =>
          cases head
          cases alphabetic
      | word shape _ =>
          rw [shape.ends] at further
          cases further
      | @filter other mark raw _ _ _ otherKnown marked shape =>
          obtain ⟨body, rfl⟩ := shape.exists_body further
          have same : some (name, written) = some (other, mark ++ '"' :: body) := by
            rw [← takeName?_eq_some_iff.mpr ⟨whole.symm, isName_of_ofName?_eq_some known⟩]
            exact takeName?_eq_some_iff.mpr ⟨rfl, isName_of_ofName?_eq_some otherKnown⟩
          cases same
          exact inner.of_quotation marked rfl

/-- Where a clause cannot end yet, the form after a sign does not begin with another sign. -/
theorem UnsignedShape.head?_ne {text following : List Char} (shape : UnsignedShape text following)
    (further : atBoundary following = false) : text.head? ≠ some '-' := by
  cases shape with
  | quotation closed => exact nofun
  | filter known marked shape =>
      obtain ⟨c, head, alphabetic⟩ := head?_of_known (':' :: (_ ++ _)) known
      rw [head]
      intro same
      cases same
      cases alphabetic
  | word shape unnamed =>
      rw [shape.ends] at further
      cases further

/-- A text that is a clause on its own is the same clause before a text at which its form ends. -/
theorem ClauseText.of_shape {text following : List Char} {clause : Clause}
    (meaning : ClauseText text [] clause) (shape : ClauseShape text following) :
    ClauseText text following clause := by
  cases further : atBoundary following with
  | true => exact meaning.of_atBoundary fun _ => further
  | false =>
      cases meaning with
      | plain unsigned meaning =>
          cases shape with
          | plain shape => exact .plain unsigned (meaning.of_shape shape further)
          | negated shape => exact absurd rfl unsigned
      | negated meaning =>
          cases shape with
          | plain shape => exact absurd rfl (shape.head?_ne further)
          | negated shape => exact .negated (meaning.of_shape shape further)

theorem CutInto.forall_blank {text : List Char} (cut : CutInto text []) :
    ∀ c ∈ text, isBlank c = true := by
  generalize nothing : ([] : List Piece) = pieces at cut
  induction cut with
  | nil => exact nofun
  | blank blank later step => exact List.forall_mem_cons.mpr ⟨blank, step nothing⟩
  | separator => cases nothing
  | clause => cases nothing

/-- A clause text by itself is the query of its one clause. -/
theorem parse_eq_ok_clause_iff {text following : List Char} {clause : Clause}
    (shape : ClauseShape text following) :
    parse (String.ofList text) = .ok ⟨[[clause]]⟩ ↔
      afterSeparator? text = none ∧ ClauseText text [] clause := by
  rw [parse_eq_ok_iff, String.toList_ofList]
  constructor
  · rintro ⟨pieces, cut, formed⟩
    have alone : pieces = [.clause clause] := by
      cases formed with
      | some _ _ runs =>
          rw [← pieces.intercalate_splitOn .separator, runs]
          exact List.intercalate_singleton
    subst alone
    have inside := shape.atBoundary_append []
    obtain ⟨last, found, kept, -⟩ := shape.ends
    cases cut with
    | blank blank later => simp [atBoundary, endsWord, blank] at inside
    | @clause written rest _ _ unseparated meaning later =>
        cases rest with
        | nil =>
            rw [List.append_nil] at unseparated ⊢
            exact ⟨unseparated, meaning⟩
        | cons c others =>
            rw [List.getLast?_append_of_ne_nil _ (List.cons_ne_nil _ _)] at found
            have blank := later.forall_blank last (List.mem_of_getLast? found)
            rw [kept] at blank
            cases blank
  · rintro ⟨unseparated, meaning⟩
    rw [← List.append_nil text] at unseparated ⊢
    refine ⟨_, .clause unseparated meaning .nil, .some (by simp) (by simp) ?_⟩
    exact List.splitOn_eq_singleton (by simp)

/-! ### Parts and pieces -/

/-- The text of parts of which the first is no run of blanks does not begin with a blank. -/
theorem Standing.not_blank {parts : List Part} (standing : Standing parts)
    (unblanked : ∀ run later, parts ≠ .blanks run :: later) :
    ∀ c ∈ (parts.flatMap Part.text).head?, isBlank c = false := by
  intro c head
  cases parts with
  | nil => cases head
  | cons part later =>
      cases part with
      | blanks run => exact absurd rfl (unblanked run later)
      | bar =>
          cases head
          decide
      | word =>
          cases head
          decide
      | clause text meaning =>
          have inside := standing.1.1.atBoundary_append (later.flatMap Part.text)
          obtain ⟨others, same⟩ := List.head?_eq_some_iff.mp (Option.mem_def.mp head)
          rw [List.flatMap_cons, Part.text] at same
          rw [same] at inside
          exact not_blank_of_not_atBoundary inside

/-- A blank before a text in parts joins the blanks at its front. -/
theorem Standing.exists_blank {parts : List Part} {c : Char} (standing : Standing parts)
    (blank : isBlank c = true) :
    ∃ others : List Part, others.flatMap Part.text = c :: parts.flatMap Part.text ∧
      Standing others ∧ others.filterMap Part.piece? = parts.filterMap Part.piece? := by
  by_cases blanked : ∃ run later, parts = .blanks run :: later
  · obtain ⟨run, later, rfl⟩ := blanked
    obtain ⟨⟨_, blanks, stop⟩, others⟩ := standing
    refine ⟨.blanks (c :: run) :: later, rfl, ⟨⟨List.cons_ne_nil _ _, ?_, stop⟩, others⟩, rfl⟩
    exact List.forall_mem_cons.mpr ⟨blank, blanks⟩
  · refine ⟨.blanks [c] :: parts, rfl, ⟨⟨List.cons_ne_nil _ _, ?_, ?_⟩, standing⟩, rfl⟩
    · exact List.forall_mem_singleton.mpr blank
    · exact standing.not_blank fun run later same => blanked ⟨run, later, same⟩

/-- A text is cut into pieces as it falls into parts. -/
theorem cutInto_iff_parts {text : List Char} {pieces : List Piece} :
    CutInto text pieces ↔ ∃ parts : List Part,
      parts.flatMap Part.text = text ∧ Standing parts ∧ parts.filterMap Part.piece? = pieces := by
  constructor
  · intro cut
    induction cut with
    | nil => exact ⟨[], rfl, trivial, rfl⟩
    | blank blank later step =>
        obtain ⟨parts, rfl, standing, rfl⟩ := step
        exact standing.exists_blank blank
    | separator separated later step =>
        obtain ⟨parts, rfl, standing, rfl⟩ := step
        rcases afterSeparator?_eq_some_iff.mp separated with rfl | ⟨rfl, ends⟩
        · exact ⟨.bar :: parts, rfl, ⟨trivial, standing⟩, rfl⟩
        · exact ⟨.word :: parts, rfl, ⟨ends, standing⟩, rfl⟩
    | @clause written _ clause _ unseparated meaning later step =>
        obtain ⟨parts, rfl, standing, rfl⟩ := step
        have shape := meaning.shape
        have inside : atBoundary written = false := by simpa using shape.atBoundary_append []
        have alone := (parse_eq_ok_clause_iff shape).mpr
          ⟨(afterSeparator?_append_eq_none_iff shape.ends inside).mp unseparated,
            meaning.of_atBoundary fun _ => rfl⟩
        exact ⟨.clause written clause :: parts, rfl, ⟨⟨shape, alone⟩, standing⟩, rfl⟩
  · rintro ⟨parts, rfl, standing, rfl⟩
    induction parts with
    | nil => exact .nil
    | cons part later step =>
        obtain ⟨stands, others⟩ := standing
        cases part with
        | blanks run => exact .blanks stands.2.1 (step others)
        | bar => exact .separator rfl (step others)
        | word => exact .separator (if_pos stands) (step others)
        | clause text meaning =>
            obtain ⟨shape, alone⟩ := stands
            obtain ⟨unseparated, meaning⟩ := (parse_eq_ok_clause_iff shape).mp alone
            have inside : atBoundary text = false := by simpa using shape.atBoundary_append []
            refine .clause ?_ (meaning.of_shape shape) (step others)
            exact (afterSeparator?_append_eq_none_iff shape.ends inside).mpr unseparated

/-- Parts of a text have no faults among their pieces. -/
theorem fault_notMem_filterMap (parts : List Part) (fault : Fault) :
    .fault fault ∉ parts.filterMap Part.piece? := by
  rw [List.mem_filterMap]
  rintro ⟨part, -, same⟩
  cases part <;> cases same

/-- **The grammar of queries.** A text is accepted as a query exactly if it falls into runs of
blanks, separators and clause texts, and no separator stands first, last or directly after another;
the groups of the query are the runs of clauses between the separators. -/
theorem parse_eq_ok_iff_parts {text : String} {query : Query} :
    parse text = .ok query ↔ ∃ parts : List Part,
      parts.flatMap Part.text = text.toList ∧ Standing parts ∧
        Separated (parts.filterMap Part.piece?) ∧
        query.groups = clauseRuns (parts.filterMap Part.piece?) := by
  rw [parse_eq_ok_iff]
  constructor
  · rintro ⟨pieces, cut, formed⟩
    obtain ⟨parts, whole, standing, rfl⟩ := cutInto_iff_parts.mp cut
    exact ⟨parts, whole, standing, (forms_iff (fault_notMem_filterMap parts)).mp formed⟩
  · rintro ⟨parts, whole, standing, formed⟩
    exact ⟨_, cutInto_iff_parts.mpr ⟨parts, whole, standing, rfl⟩,
      (forms_iff (fault_notMem_filterMap parts)).mpr formed⟩

/-- The next clause may begin right after a quotation; `OR` inside a word is no separator. -/
example : parse "\"a b\"c OR ORb" =
    .ok ⟨[[.text "a b" false, .text "c" false], [.text "ORb" false]]⟩ := by
  decide +kernel

end AnnexCatalog.Query
