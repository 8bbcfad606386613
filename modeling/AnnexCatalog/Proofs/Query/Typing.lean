import AnnexCatalog.Proofs.Query.Parts
import AnnexCatalog.Proofs.Query.RoundTrip
import AnnexCatalog.Search.Compile

/-! # Queries are well typed

What is read from a query text can be carried out without a further look at it: a comparison is on a
numeric field and has its numbers, a range does not run backwards, and a filter on presence has one
of its two forms (`Filter.WellTyped`, `wellTyped_of_parse`).
-/

namespace AnnexCatalog

/-- The numbers that a test compares a value with. -/
def Test.bounds : Test → List (Option Binary64)
  | .compares _ bound => [bound]
  | .within low high => [low, high]
  | .contains .. | .equals .. | .never => []

/-- The numbers that a condition compares values with, in all its tests. -/
def Condition.bounds : Condition → List (Option Binary64)
  | .column _ test | .member _ test => test.bounds
  | .either first second => first.bounds ++ second.bounds
  | .settled condition | .negation condition => condition.bounds
  | .always | .presence _ | .marked _ | .indexed _ => []

namespace Query

open Text

/-- What the executor of queries relies on in a filter. -/
structure Filter.WellTyped (filter : Filter) : Prop where
  compared : filter.operator ∈ [.above, .below, .atLeast, .atMost] →
    filter.field.isNumeric = true ∧ (Binary64.parse? filter.value).isSome = true
  ranged : filter.operator = .range → filter.field.isNumeric = true ∧
    ∃ last low high, filter.valueEnd = some last ∧ Binary64.parse? filter.value = some low ∧
      Binary64.parse? last = some high ∧ low ≤ high
  single : filter.operator ≠ .range → filter.valueEnd = none
  inner : filter.operator = .contains → filter.value ≠ ""
  emptied : filter.operator = .empty → filter.value = "" ∧ filter.field ≠ .present
  presence : filter.field = .present →
    filter.operator = .exact ∧ (filter.value = "true" ∨ filter.value = "false")

/-! ### Filters as they are read -/

/-- The comparisons are neither ranges nor searches for parts or for empty fields. -/
theorem operator_ne_of_mem_comparisons {mark : List Char} {operator : Operator}
    (marked : (mark, operator) ∈ comparisons) :
    operator ≠ .range ∧ operator ≠ .contains ∧ operator ≠ .empty := by
  simp only [comparisons, List.mem_cons, Prod.mk.injEq, List.not_mem_nil, or_false] at marked
  rcases marked with ⟨-, rfl⟩ | ⟨-, rfl⟩ | ⟨-, rfl⟩ | ⟨-, rfl⟩ <;> decide

theorem ofList_ne_empty {text : List Char} (nonempty : text ≠ []) : String.ofList text ≠ "" := by
  intro same
  exact nonempty (String.ofList_eq_empty_iff.mp same)

theorem le_of_isAbove {low high : List Char} {first last : Binary64}
    (lower : numberOf? low = some first) (upper : numberOf? high = some last)
    (inOrder : isAbove low high = false) : first ≤ last := by
  rw [isAbove, lower, upper] at inOrder
  exact Int.not_lt.mp (of_decide_eq_false inOrder)

/-- A word after a colon is a range of two numbers in order, or else a part of a text. -/
theorem wellTyped_wordFilter {field : Field} {place word : List Char} {filter : Filter}
    (nonempty : word ≠ []) (other : field ≠ .present)
    (meaning : wordFilter field place word = .ok filter) : filter.WellTyped := by
  unfold wordFilter at meaning
  split at meaning
  · cases meaning
    exact
      { compared := by simp
        ranged := nofun
        single := fun _ => rfl
        inner := fun _ => ofList_ne_empty nonempty
        emptied := nofun
        presence := fun same => absurd same other }
  · next low high found =>
      split at meaning
      · cases meaning
      · next inOrder =>
          cases meaning
          obtain ⟨numeric, split⟩ := Option.ite_none_right_eq_some.mp found
          have numbers := List.find?_some split
          obtain ⟨lower, upper⟩ := Bool.and_eq_true_iff.mp numbers
          obtain ⟨first, lower⟩ := Option.isSome_iff_exists.mp lower
          obtain ⟨last, upper⟩ := Option.isSome_iff_exists.mp upper
          have ordered := le_of_isAbove lower upper (Bool.eq_false_iff.mpr inOrder)
          exact
            { compared := by simp
              ranged := fun _ => ⟨numeric, _, first, last, rfl, lower, upper, ordered⟩
              single := fun same => absurd rfl same
              inner := nofun
              emptied := nofun
              presence := fun same => absurd same other }

/-- A filter that is not on presence is well typed as it is read. -/
theorem FilterText.wellTyped {field : Field} {text following : List Char} {filter : Filter}
    (shape : FilterText field text following filter) (other : field ≠ .present) :
    filter.WellTyped := by
  cases shape with
  | comparison marked numeric shape number =>
      obtain ⟨notRange, notInner, notEmpty⟩ := operator_ne_of_mem_comparisons marked
      exact
        { compared := fun _ => ⟨numeric, number⟩
          ranged := fun same => absurd same notRange
          single := fun _ => rfl
          inner := fun same => absurd same notInner
          emptied := fun same => absurd same notEmpty
          presence := fun same => absurd same other }
  | exact shape =>
      exact
        { compared := by simp
          ranged := nofun
          single := fun _ => rfl
          inner := nofun
          emptied := nofun
          presence := fun same => absurd same other }
  | quotation closed =>
      unfold quotationFilter
      split
      · exact
          { compared := by simp
            ranged := nofun
            single := fun _ => rfl
            inner := nofun
            emptied := fun _ => ⟨rfl, other⟩
            presence := fun same => absurd same other }
      · next occupied =>
          have nonempty := List.isEmpty_eq_false_iff.mp (Bool.eq_false_iff.mpr occupied)
          exact
            { compared := by simp
              ranged := nofun
              single := fun _ => rfl
              inner := fun _ => ofList_ne_empty nonempty
              emptied := nofun
              presence := fun same => absurd same other }
  | word shape plain meaning => exact wellTyped_wordFilter shape.nonempty other meaning

/-- A presence clause with a truth value is well typed. -/
theorem wellTyped_presence (flag : Bool) :
    ({ field := .present, operator := .exact, value := toString flag } : Filter).WellTyped :=
  { compared := by simp
    ranged := nofun
    single := fun _ => rfl
    inner := nofun
    emptied := nofun
    presence := fun _ => ⟨rfl, by cases flag <;> decide⟩ }

/-- Whether a filter is well typed does not depend on its sign. -/
theorem Filter.WellTyped.withSign {filter : Filter} (typed : filter.WellTyped) (negated : Bool) :
    ({ filter with negated } : Filter).WellTyped :=
  ⟨typed.compared, typed.ranged, typed.single, typed.inner, typed.emptied, typed.presence⟩

/-- A filter that is read is well typed. -/
theorem ConditionText.wellTyped {text following : List Char} {filter : Filter}
    (shape : ConditionText text following (.filter filter)) : filter.WellTyped := by
  cases shape with
  | filter known shape meaning =>
      rcases shape.settled meaning with ⟨other, rfl⟩ | ⟨-, flag, rfl⟩
      · exact shape.wellTyped other
      · exact wellTyped_presence flag

/-- The filter of a clause is well typed. -/
theorem ClauseText.wellTyped {text following : List Char} {filter : Filter}
    (shape : ClauseText text following (.filter filter)) : filter.WellTyped := by
  generalize same : Clause.filter filter = clause at shape
  cases shape with
  | plain unsigned shape =>
      subst same
      exact shape.wellTyped
  | @negated _ _ clause shape =>
      cases clause with
      | text value negated => cases same
      | filter condition =>
          cases same
          exact shape.wellTyped.withSign true

/-! ### The numbers of conditions -/

/-- A well-typed filter tests with the numbers that it names. -/
theorem Filter.WellTyped.bounds_test {filter : Filter} (typed : filter.WellTyped) :
    none ∉ filter.test.bounds := by
  obtain ⟨field, operator, value, valueEnd, negated⟩ := filter
  have compared (relation : Relation) (known : (Binary64.parse? value).isSome = true) :
      none ∉ (Test.compares relation (Binary64.parse? value)).bounds := by
    obtain ⟨number, found⟩ := Option.isSome_iff_exists.mp known
    simp [Test.bounds, found]
  cases operator with
  | contains => exact List.not_mem_nil
  | exact =>
      unfold Filter.test
      dsimp only
      split <;> simp [Test.bounds]
  | above => exact compared _ (typed.compared (by simp)).2
  | below => exact compared _ (typed.compared (by simp)).2
  | atLeast => exact compared _ (typed.compared (by simp)).2
  | atMost => exact compared _ (typed.compared (by simp)).2
  | range =>
      obtain ⟨-, last, low, high, rfl, lower, upper, -⟩ := typed.ranged rfl
      simp [Filter.test, Test.bounds, lower, upper]
  | empty => exact List.not_mem_nil

/-- The compiled condition of a well-typed filter has no missing bound. -/
theorem Filter.WellTyped.bounds_condition {filter : Filter} (typed : filter.WellTyped) :
    none ∉ filter.condition.bounds := by
  have known := typed.bounds_test
  unfold Filter.condition
  split
  · exact List.not_mem_nil
  · split
    · exact List.not_mem_nil
    · exact known
    · exact known
    all_goals
      rw [Condition.bounds, List.mem_append, not_or]
      exact ⟨known, known⟩

/-- Text terms compare with no numbers. -/
theorem bounds_termCondition (value : String) : (termCondition value).bounds = [] := by
  unfold termCondition
  dsimp only
  split
  · rfl
  · split <;> rfl

/-- A sign does not change the bounds of a condition. -/
theorem bounds_signed (negated : Bool) (condition : Condition) :
    (signed negated condition).bounds = condition.bounds := by
  cases negated <;> rfl

/-- What a query becomes compares with the numbers of its filters. -/
theorem bounds_conditions {query : Query}
    (typed : ∀ group ∈ query.groups, ∀ filter, .filter filter ∈ group → filter.WellTyped) :
    ∀ group ∈ query.conditions, ∀ condition ∈ group, none ∉ condition.bounds := by
  intro conditions among condition member
  have constant : condition ∈ [Condition.always] → none ∉ condition.bounds := by
    intro same
    rw [List.mem_singleton.mp same]
    exact List.not_mem_nil
  unfold Query.conditions at among
  split at among
  · exact constant (List.mem_singleton.mp among ▸ member)
  · obtain ⟨group, grouped, rfl⟩ := List.mem_map.mp among
    unfold groupConditions at member
    split at member
    · exact constant member
    · obtain ⟨clause, inside, rfl⟩ := List.mem_map.mp member
      cases clause with
      | text value negated =>
          rw [Clause.condition, bounds_signed, bounds_termCondition]
          exact List.not_mem_nil
      | filter filter =>
          rw [Clause.condition, bounds_signed]
          exact (typed group grouped filter inside).bounds_condition

/-! ### Queries -/

/-- A query is without groups exactly if its text is blank. -/
theorem groups_eq_nil_iff {text : String} {query : Query} (accepted : parse text = .ok query) :
    query.groups = [] ↔ ∀ c ∈ text.toList, isBlank c = true := by
  obtain ⟨pieces, cut, formed⟩ := parse_eq_ok_iff.mp accepted
  constructor
  · intro none
    rw [none] at formed
    cases formed with
    | none => exact cut.forall_blank
    | some found nonempty runs => exact absurd runs (List.splitOn_ne_nil _ _)
  · intro blank
    have empty : CutInto text.toList [] := by
      rw [← List.append_nil text.toList]
      exact .blanks blank .nil
    have same : parse text = .ok ⟨[]⟩ := parse_eq_ok_iff.mpr ⟨[], empty, .none⟩
    rw [Except.ok.inj (accepted.symm.trans same)]

/-- **Parsed queries are well typed.** A query that is read from a text has no empty group, and no
group at all exactly if the text is blank. Its filters are well typed, and so the conditions that it
becomes never compare with a missing number. -/
theorem wellTyped_of_parse {text : String} {query : Query} (accepted : parse text = .ok query) :
    [] ∉ query.groups ∧
      (query.groups = [] ↔ ∀ c ∈ text.toList, isBlank c = true) ∧
      (∀ group ∈ query.groups, ∀ filter, .filter filter ∈ group → filter.WellTyped) ∧
      ∀ group ∈ query.conditions, ∀ condition ∈ group, none ∉ condition.bounds := by
  obtain ⟨pieces, cut, formed⟩ := parse_eq_ok_iff.mp accepted
  have typed : ∀ group ∈ query.groups, ∀ filter, .filter filter ∈ group → filter.WellTyped := by
    intro group among filter member
    obtain ⟨written, following, shape⟩ := cut.exists_clauseText (formed.clause_mem among member)
    exact shape.wellTyped
  exact ⟨formed.nil_notMem, groups_eq_nil_iff accepted, typed, bounds_conditions typed⟩

/-- A query with a comparison, a range, a filter on presence and one for a field without values. -/
theorem wellTyped_of_parse_of_mixed :
    let query : Query :=
      ⟨[[.filter { field := .bpm, operator := .atLeast, value := "120" },
        .filter { field := .year, operator := .range, value := "1990", valueEnd := some "1999" }],
        [.filter { field := .present, operator := .exact, value := "false", negated := true },
          .filter { field := .genre, operator := .empty, value := "" }]]⟩
    parse "bpm:>=120 year:1990-1999 | -present:NO genre:\"\"" = .ok query ∧ [] ∉ query.groups ∧
      ∀ group ∈ query.conditions, ∀ condition ∈ group, none ∉ condition.bounds := by
  intro query
  have accepted : parse "bpm:>=120 year:1990-1999 | -present:NO genre:\"\"" = .ok query := by
    decide +kernel
  obtain ⟨nonempty, -, -, known⟩ := wellTyped_of_parse accepted
  exact ⟨accepted, nonempty, known⟩

end Query

end AnnexCatalog
