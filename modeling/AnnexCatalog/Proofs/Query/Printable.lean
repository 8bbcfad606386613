import AnnexCatalog.Proofs.Query.Numbers

/-! # Built queries survive writing

A query need not come from a text: its clauses may be put together by hand. Such a query is read from
its written form if its clauses are printable. No quote stands in a value that may have to be quoted,
comparisons and ranges are between numbers, and what is written in a form of its own, such as an
emptiness or a presence, holds nothing else (`parse_render_of_printable`).
-/

namespace AnnexCatalog.Query

open Text

/-! ### Printable queries -/

/-- Whether the value of a filter suits its operator. -/
def Filter.Suited (filter : Filter) : Prop :=
  let value := filter.value.toList
  match filter.operator with
  | .contains => '"' ∉ value ∧ value ≠ [] ∧
      (filter.field.isNumeric = true → needsQuotes value = true ∨ splitRange? value = none)
  | .exact => '"' ∉ value
  | .above | .below | .atLeast | .atMost => filter.field.isNumeric = true ∧ IsNumber value
  | .range => filter.field.isNumeric = true ∧ IsNumber value ∧
      ∃ last ∈ filter.valueEnd, IsNumber last.toList ∧ isAbove value last.toList = false
  | .empty => value = []

instance (filter : Filter) : Decidable filter.Suited :=
  match filter with
  | { operator := .contains, .. } => inferInstanceAs (Decidable (_ ∧ _ ∧ (_ → _ ∨ _)))
  | { operator := .exact, .. } => inferInstanceAs (Decidable (_ ∉ _))
  | { operator := .above, .. } | { operator := .below, .. }
  | { operator := .atLeast, .. } | { operator := .atMost, .. } =>
      inferInstanceAs (Decidable (_ ∧ IsNumber _))
  | { operator := .range, .. } => inferInstanceAs (Decidable (_ ∧ _ ∧ ∃ last ∈ _, _ ∧ _))
  | { operator := .empty, .. } => inferInstanceAs (Decidable (_ = _))

/-- A filter that says nothing besides what is written of it. -/
structure Filter.Printable (filter : Filter) : Prop where
  suited : filter.Suited
  ending : filter.operator ≠ .range → filter.valueEnd = none
  presence : filter.field = .present → filter.operator = .exact ∧ filter.value ∈ ["true", "false"]

instance : DecidablePred Filter.Printable := fun filter =>
  decidable_of_iff (filter.Suited ∧ (filter.operator ≠ .range → filter.valueEnd = none) ∧
      (filter.field = .present → filter.operator = .exact ∧ filter.value ∈ ["true", "false"]))
    ⟨fun ⟨suited, ending, presence⟩ => ⟨suited, ending, presence⟩,
      fun ⟨suited, ending, presence⟩ => ⟨suited, ending, presence⟩⟩

def Clause.Printable : Clause → Prop
  | .text value _ => '"' ∉ value.toList
  | .filter condition => condition.Printable

instance : DecidablePred Clause.Printable
  | .text value _ => inferInstanceAs (Decidable ('"' ∉ value.toList))
  | .filter condition => inferInstanceAs (Decidable condition.Printable)

/-- A query of printable clauses without an empty group. -/
structure Printable (query : Query) : Prop where
  nonempty : [] ∉ query.groups
  clauses : ∀ group ∈ query.groups, ∀ clause ∈ group, clause.Printable

instance : DecidablePred Printable := fun query =>
  decidable_of_iff ([] ∉ query.groups ∧ ∀ group ∈ query.groups, ∀ clause ∈ group, clause.Printable)
    ⟨fun ⟨nonempty, clauses⟩ => ⟨nonempty, clauses⟩, fun ⟨nonempty, clauses⟩ => ⟨nonempty, clauses⟩⟩

/-! ### Filters -/

/-- No character of a number ends a word. -/
theorem IsNumber.endsWord {text : List Char} (shape : IsNumber text) :
    ∀ c ∈ text, endsWord c = false := by
  intro c member
  rw [Query.endsWord, shape.unspaced c member, Bool.false_or, beq_eq_false_iff_ne]
  rintro rfl
  exact absurd (shape.isNumeralLetter '|' member) (by decide)

theorem IsNumber.head?_ne {text : List Char} (shape : IsNumber text) {c : Char}
    (other : Query.isNumeralLetter c = false) : text.head? ≠ some c := by
  intro head
  exact absurd (shape.isNumeralLetter c (List.mem_of_head? head)) (by simp [other])

/-- A value without quotes can be quoted. -/
theorem Quotable.of_notMem {value : List Char} (unquoted : '"' ∉ value) : Quotable value :=
  fun _ => unquoted

theorem head?_ne_of_notMem {value : List Char} {c : Char} (absent : c ∉ value) :
    value.head? ≠ some c :=
  fun head => absent (List.mem_of_head? head)

/-- A comparison with a number is read from its written form. -/
theorem filterText_comparison {value following : List Char} {operator : Operator} {field : Field}
    (compares : operator ∈ comparisons.map Prod.snd) (numeric : field.isNumeric = true)
    (shape : IsNumber value) (ends : atBoundary following = true) :
    FilterText field ({ field, operator, value := String.ofList value } : Filter).renderTest following
      { field, operator, value := String.ofList value } := by
  obtain ⟨⟨mark, operator⟩, marked, rfl⟩ := List.mem_map.mp compares
  rw [renderTest_comparison marked, String.toList_ofList]
  have unquoted : value.head? ≠ some '"' := shape.head?_ne (by decide)
  exact .comparison marked numeric (.word ⟨shape.ne_nil, shape.endsWord, ends, unquoted⟩) shape.number

/-- A range of numbers is read from its written form. -/
theorem filterText_range {low high following : List Char} {field : Field}
    (numeric : field.isNumeric = true) (lower : IsNumber low) (upper : IsNumber high)
    (ordered : isAbove low high = false) (ends : atBoundary following = true) :
    FilterText field (low ++ '-' :: high) following
      { field, operator := .range, value := String.ofList low,
        valueEnd := some (String.ofList high) } := by
  have begins : ∀ c ∈ leads, (low ++ '-' :: high).head? ≠ some c := by
    have other : leads.all (fun c => !Query.isNumeralLetter c) = true := by decide
    rw [List.head?_append_of_ne_nil _ lower.ne_nil]
    exact fun c member => lower.head?_ne (by simpa using List.all_eq_true.mp other c member)
  refine .word ⟨by simp, ?_, ends, begins '"' (by decide)⟩ begins ?_
  · intro c member
    rcases List.mem_append.mp member with inside | inside
    · exact lower.endsWord c inside
    · rcases List.mem_cons.mp inside with rfl | inside
      · decide
      · exact upper.endsWord c inside
  · rw [wordFilter, if_pos numeric, splitRange?_join lower upper]
    dsimp only
    rw [ordered, if_neg Bool.false_ne_true]

namespace Filter.Printable

variable {filter : Filter}

/-- A printable filter can be read back. -/
theorem faithful (printable : filter.Printable) : filter.Faithful := by
  obtain ⟨field, operator, value, valueEnd, negated⟩ := filter
  have suited := printable.suited
  cases operator with
  | contains =>
      obtain ⟨unquoted, nonempty, range⟩ := suited
      refine ⟨.of_notMem unquoted, fun numeric bare => ?_⟩
      rcases range numeric with quoted | split
      · exact absurd (quoted.symm.trans bare) nofun
      · exact split
  | exact => exact .of_notMem suited
  | above | below | atLeast | atMost => exact suited.2.endsWord
  | range | empty => exact trivial

/-- A printable filter without a sign is read from its written form. -/
theorem filterText {following : List Char} (printable : filter.Printable)
    (unnegated : filter.negated = false) (ends : atBoundary following = true) :
    FilterText filter.field filter.renderTest following filter := by
  have faithful := printable.faithful
  obtain ⟨suited, ending, -⟩ := printable
  obtain ⟨field, operator, value, valueEnd, negated⟩ := filter
  obtain ⟨letters, rfl⟩ : ∃ letters, value = String.ofList letters :=
    ⟨_, String.ofList_toList.symm⟩
  cases unnegated
  cases operator with
  | contains =>
      cases ending Operator.noConfusion
      obtain ⟨unquoted, nonempty, -⟩ := suited
      rw [String.toList_ofList] at unquoted nonempty
      exact filterText_contains nonempty (head?_ne_of_notMem unquoted) faithful ends
  | exact =>
      cases ending Operator.noConfusion
      have unquoted : '"' ∉ letters := by simpa [Suited] using suited
      exact .exact (written_renderValue (.of_notMem unquoted) (head?_ne_of_notMem unquoted) ends)
  | above | below | atLeast | atMost =>
      cases ending Operator.noConfusion
      obtain ⟨numeric, shape⟩ := suited
      rw [String.toList_ofList] at shape
      exact filterText_comparison (by decide) numeric shape ends
  | range =>
      obtain ⟨numeric, lower, last, rfl, upper, ordered⟩ := suited
      rw [String.toList_ofList] at lower ordered
      have shape := filterText_range numeric lower upper ordered ends
      rw [String.ofList_toList] at shape
      rw [renderTest, String.toList_ofList]
      exact shape
  | empty =>
      cases ending Operator.noConfusion
      have blank : letters = [] := by simpa [Suited] using suited
      cases blank
      exact .quotation List.not_mem_nil

/-- A printable filter is settled as it is. -/
theorem settled (printable : filter.Printable) (unnegated : filter.negated = false) :
    settlePresence [] [] filter = .ok filter := by
  by_cases present : filter.field = .present
  · obtain ⟨exact, flag⟩ := printable.presence present
    have single := printable.ending (by rw [exact]; decide)
    obtain ⟨field, operator, value, valueEnd, negated⟩ := filter
    cases present
    cases exact
    cases single
    cases unnegated
    simp only [List.mem_cons, List.not_mem_nil, or_false] at flag
    rcases flag with rfl | rfl
    · exact settlePresence_toString true
    · exact settlePresence_toString false
  · rw [settlePresence, if_pos present]

end Filter.Printable

/-! ### Clauses and queries -/

namespace Clause

variable {clause : Clause}

/-- A clause that is given its own sign again is as it was. -/
theorem withSign_withSign (clause : Clause) (negated : Bool) :
    (clause.withSign negated).withSign clause.negated = clause := by
  cases clause <;> rfl

/-- Whether a clause is printable does not depend on its sign. -/
theorem printable_withSign (negated : Bool) :
    (clause.withSign negated).Printable ↔ clause.Printable := by
  cases clause with
  | text => exact Iff.rfl
  | filter condition =>
      exact ⟨fun ⟨suited, ending, presence⟩ => ⟨suited, ending, presence⟩,
        fun ⟨suited, ending, presence⟩ => ⟨suited, ending, presence⟩⟩

/-- A printable clause can be read back. -/
theorem Printable.faithful (printable : clause.Printable) : clause.Faithful := by
  cases clause with
  | text => exact .of_notMem printable
  | filter => exact Filter.Printable.faithful printable

/-- A printable clause without a sign is read from its printed form as a condition. -/
theorem Printable.conditionText {following : List Char} (printable : clause.Printable)
    (unnegated : clause.negated = false) (ends : atBoundary following = true) :
    ConditionText clause.render following clause := by
  cases clause with
  | text value negated =>
      cases unnegated
      have shape := conditionText_text (head?_ne_of_notMem printable) (.of_notMem printable) ends
      rwa [String.ofList_toList] at shape
  | filter condition =>
      exact conditionText_filter unnegated (Filter.Printable.filterText printable unnegated ends)
        (Filter.Printable.settled printable unnegated)

/-- A printable clause is read from its written form, whatever stands behind it. -/
theorem Printable.clauseText {following : List Char} (printable : clause.Printable)
    (ends : atBoundary following = true) : ClauseText clause.render following clause := by
  -- A negated clause is written as its positive form after a minus sign.
  cases sign : clause.negated with
  | false =>
      exact .plain ((clause.render_begins ends).2.2 sign) (printable.conditionText sign ends)
  | true =>
      have unnegated : (clause.withSign false).negated = false := by cases clause <;> rfl
      have same := clause.withSign_withSign false
      rw [sign] at same
      have shape := ((printable_withSign false).mpr printable).conditionText unnegated ends
      rw [← same, render_negated unnegated]
      exact .negated shape

end Clause

/-- **Built queries survive writing.** A printable query is read from its written form. -/
theorem parse_render_of_printable {query : Query} (printable : query.Printable) :
    parse (render query) = .ok query := by
  obtain ⟨nonempty, clauses⟩ := printable
  rw [parse_eq_ok_iff, render, String.toList_ofList]
  refine ⟨joined query.groups, ?_, (forms_iff_joined nonempty).mpr rfl⟩
  refine (cutInto_joined_iff (fun group among clause member => ?_) nonempty).mpr ?_
  · exact ⟨clause.render, [], (clauses group among clause member).clauseText rfl⟩
  · exact fun group among clause member => (clauses group among clause member).faithful

/-- Values with blanks, bars, colons and leading marks, the word `OR`, empty values and ranges of
signed numbers and of powers of ten are read again. -/
theorem parse_render_of_unusual :
    let query : Query :=
      ⟨[[.text "OR" true, .text "" false, .text "-a b|c:d" false,
          .filter { field := .artist, operator := .exact, value := "" },
          .filter { field := .present, operator := .exact, value := "false", negated := true }],
        [.filter { field := .bpm, operator := .contains, value := "=1-2" },
          .filter { field := .year, operator := .empty, value := "", negated := true }],
        [.filter { field := .bpm, operator := .range, value := "-5", valueEnd := some "-3" },
          .filter { field := .bpm, operator := .range, value := "1e-5", valueEnd := some "+1E-3" },
          .filter { field := .rating, operator := .atLeast, value := "-.5" }]]⟩
    query.Printable ∧ parse (render query) = .ok query := by
  intro query
  have printable : query.Printable := by decide +kernel
  exact ⟨printable, parse_render_of_printable printable⟩

end AnnexCatalog.Query
