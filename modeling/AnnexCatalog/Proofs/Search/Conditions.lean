import AnnexCatalog.Proofs.Catalog.Items
import AnnexCatalog.Proofs.Search.Meaning
import AnnexCatalog.Proofs.Search.Truth
import AnnexCatalog.Search.Compile

/-! # Conditions say what queries mean

In a sound catalog, the condition of a clause holds of a row exactly if the clause holds of the item
of the row (`settle_truth_condition`). A column without value and a field without values that are
kept one by one leave their tests open or false, so the two tests of a field together are one test
of all its values.
-/

namespace AnnexCatalog

open Text

namespace Truth

@[simp] theorem settle_some (outcome : Bool) : settle (some outcome) = outcome := rfl

/-- An alternative holds for sure if one side does. -/
theorem settle_either (first second : Truth) :
    (either first second).settle = (first.settle || second.settle) := by
  rcases first with - | - | - <;> rcases second with - | - | - <;> rfl

/-- Two conditions hold together for sure if both do. -/
theorem settle_both (first second : Truth) :
    (both first second).settle = (first.settle && second.settle) := by
  rcases first with - | - | - <;> rcases second with - | - | - <;> rfl

end Truth

/-- A comparison holds for sure if the bound is a number that the value is related to. -/
theorem Relation.settle_truth (relation : Relation) (value : Binary64) (bound : Option Binary64) :
    (relation.truth (some value) bound).settle = bound.any (relation.holds value) := by
  cases bound <;> rfl

/-- No test holds for sure of a missing value. -/
theorem Test.settle_truth_none (test : Test) : (test.truth none).settle = false := by
  cases test with
  | contains converted part => rfl
  | equals converted text => rfl
  | compares relation bound =>
      rw [truth, Truth.settle_both]
      rfl
  | within low high =>
      rw [truth, Truth.settle_both]
      rfl
  | never => rfl

/-- A test for a part holds of the values in which the part occurs. -/
theorem Test.settle_truth_contains (converted : Bool) (part : String) (value : Scalar) :
    ((contains converted part).truth (some value)).settle =
      occursIn part.toList (value.folded converted).toList := rfl

/-- A test for a text holds of the values that are that text once they are folded. -/
theorem Test.settle_truth_equals (converted : Bool) (text : String) (value : Scalar) :
    ((equals converted text).truth (some value)).settle = (value.folded converted == text) := rfl

/-- A comparison holds of the values whose number is related to the bound. -/
theorem Test.settle_truth_compares (relation : Relation) (bound : Option Binary64)
    (value : Scalar) :
    ((compares relation bound).truth (some value)).settle =
      bound.any fun number => relation.holds value.asNumber number := by
  rw [truth, Truth.settle_both, Option.map_some, Relation.settle_truth]
  exact Bool.true_and _

/-- A test for a range holds of the values whose number lies between both bounds. -/
theorem Test.settle_truth_within (low high : Option Binary64) (value : Scalar) :
    ((within low high).truth (some value)).settle =
      ((low.any fun number => Relation.atLeast.holds value.asNumber number) &&
        high.any fun number => Relation.atMost.holds value.asNumber number) := by
  simp only [truth, Truth.settle_both, Option.map_some, Relation.settle_truth]
  exact Bool.true_and _

/-! ### Filters as tests of values -/

namespace Query.Filter

variable {filter : Filter}

/-- The compiled test of a comparison holds of the numbers that the filter accepts. -/
theorem settle_test_compares (value : Scalar) (other : filter.operator ≠ .contains)
    (unequal : filter.operator ≠ .exact) :
    (filter.test.truth (some value)).settle = filter.compares value.asNumber := by
  cases operator : filter.operator with
  | contains => exact absurd operator other
  | exact => exact absurd operator unequal
  | empty =>
      simp only [test, compares, operator]
      rfl
  | range =>
      simp only [test, compares, operator, Test.settle_truth_within, Relation.holds]
  | above | below | atLeast | atMost =>
      simp only [test, compares, operator, Test.settle_truth_compares, Relation.holds]

/-- Beyond the first two, operators compare values as numbers. -/
theorem accepts_eq_compares (other : filter.operator ≠ .contains)
    (unequal : filter.operator ≠ .exact) (text : String) (value : Scalar) :
    filter.acceptsText text = filter.compares (Binary64.leading text.toList) ∧
      filter.acceptsStored value = filter.compares value.asNumber := by
  cases operator : filter.operator <;> simp_all only [acceptsText, acceptsStored, ne_eq,
    not_true_eq_false, and_self]

/-- The compiled test of a filter on texts holds of the texts that the filter accepts. -/
theorem settle_test_text (plain : filter.field.isNumeric = false) (text : String) :
    (filter.test.truth (some (.text text))).settle = filter.acceptsText text := by
  by_cases contains : filter.operator = .contains
  · simp only [test, acceptsText, contains, Test.settle_truth_contains, Scalar.folded, hasPart]
  · by_cases exact : filter.operator = .exact
    · simp only [test, acceptsText, exact, plain, Bool.false_eq_true, ↓reduceIte,
        Test.settle_truth_equals, Scalar.folded]
    · rw [settle_test_compares _ contains exact,
        (accepts_eq_compares contains exact text (.text text)).1, Scalar.asNumber]

/-- The compiled test of a filter on numbers holds of the stored values that the filter accepts. -/
theorem settle_test_stored (numeric : filter.field.isNumeric = true) (value : Scalar) :
    (filter.test.truth (some value)).settle = filter.acceptsStored value := by
  have folded : value.folded true = lower value.searched := by
    cases value <;> simp only [Scalar.folded, Scalar.searched, ↓reduceIte]
  by_cases contains : filter.operator = .contains
  · simp only [test, acceptsStored, contains, numeric, Test.settle_truth_contains, folded, hasPart]
  · by_cases exact : filter.operator = .exact
    · cases bound : Binary64.parse? filter.value with
      | some number =>
          simp only [test, acceptsStored, exact, numeric, ↓reduceIte, bound,
            Test.settle_truth_compares, Option.any_some, Relation.holds]
          exact (beq_eq_decide ..).symm
      | none =>
          simp only [test, acceptsStored, exact, numeric, ↓reduceIte, bound,
            Test.settle_truth_equals, folded]
    · rw [settle_test_compares _ contains exact,
        (accepts_eq_compares contains exact "" value).2]

end Query.Filter

/-! ### Conditions on the values of a field -/

/-- Some value of a field is accepted exactly if some entry of the memberships is of that field and
has an accepted value. -/
theorem Metadata.any_membersIn (metadata : Metadata) (field : Field) (accepts : String → Bool) :
    (metadata.membersIn field).any accepts =
      metadata.members.any fun entry => entry.1 == field && accepts entry.2 := by
  rw [membersIn, List.any_map, List.any_filter]
  rfl

theorem Field.mem_metadata_of_kind {field : Field} (inside : field.kind ≠ .path)
    (stored : field.kind ≠ .presence) : field ∈ Field.metadata := by
  cases field <;> first | decide | exact absurd rfl inside | exact absurd rfl stored

/-- The column of a field that is read from logs is among the scalars of the row. -/
theorem Row.column?_eq_lookup (row : Row) {field : Field} (listed : field ∈ Field.metadata) :
    row.column? field = row.scalars.lookup field := by
  cases field <;> first | rfl | exact absurd listed (by decide)

namespace Condition

variable {catalog : Catalog} {row : Row} {field : Field}

/-- An alternative holds of a row if one side does. -/
theorem settle_truth_either (first second : Condition) :
    ((either first second).truth catalog row).settle =
      ((first.truth catalog row).settle || (second.truth catalog row).settle) :=
  Truth.settle_either _ _

/-- A condition on memberships holds of a row if the test holds of one of its values. -/
theorem settle_truth_member (test : Test) :
    ((member field test).truth catalog row).settle =
      ((catalog.metadataOf row).membersIn field).any fun value =>
        (test.truth (some (.text value))).settle := by
  rw [truth_member, Metadata.any_membersIn]
  rfl

/-- A condition on a column holds of a row if the test holds of its value there, if it has one. -/
theorem settle_truth_column (listed : field ∈ Field.metadata) (test : Test) :
    ((column field test).truth catalog row).settle =
      (row.scalars.lookup field).any fun value => (test.truth (some value)).settle := by
  rw [truth, row.column?_eq_lookup listed]
  cases row.scalars.lookup field with
  | none => exact test.settle_truth_none
  | some value => rfl

/-- The two tests of a text field together test all its values. -/
theorem settle_truth_texts (lawful : (catalog.metadataOf row).Lawful) (kind : field.kind = .text)
    {test : Test} {accepts : String → Bool}
    (tested : ∀ text, (test.truth (some (.text text))).settle = accepts text) :
    ((either (column field test) (member field test)).truth catalog row).settle =
      ((catalog.itemOf row).values field).any accepts := by
  have listed : field ∈ Field.metadata :=
    Field.mem_metadata_of_kind (by rw [kind]; decide) (by rw [kind]; decide)
  rw [settle_truth_either, settle_truth_column listed, settle_truth_member]
  simp only [tested]
  by_cases bare : (catalog.metadataOf row).membersIn field = []
  · rw [bare, Catalog.values_itemOf_of_column lawful listed bare, List.any_nil, Bool.or_false]
    cases found : row.scalars.lookup field with
    | none => rfl
    | some value =>
        obtain ⟨text, rfl⟩ := lawful.text_of_lookup kind found
        rw [Option.any_some, tested]
        exact (Bool.or_false _).symm
  · have absent : row.scalars.lookup field = none := lawful.lookup_eq_none bare
    rw [Catalog.values_itemOf_of_members lawful bare, absent, Option.any_none, Bool.false_or]

/-- A test of values that are only kept one by one tests all values. -/
theorem settle_truth_group (lawful : (catalog.metadataOf row).Lawful) (kind : field.kind = .group)
    {test : Test} {accepts : String → Bool}
    (tested : ∀ text, (test.truth (some (.text text))).settle = accepts text) :
    ((member field test).truth catalog row).settle =
      ((catalog.itemOf row).values field).any accepts := by
  rw [settle_truth_member]
  simp only [tested]
  by_cases bare : (catalog.metadataOf row).membersIn field = []
  · have absent : row.scalars.lookup field = none := lawful.lookup_group kind
    have listed : field ∈ Field.metadata :=
      Field.mem_metadata_of_kind (by rw [kind]; decide) (by rw [kind]; decide)
    rw [bare, Catalog.values_itemOf_of_column lawful listed bare, absent]
    rfl
  · rw [Catalog.values_itemOf_of_members lawful bare]

/-- A condition on the path holds of a row if its path is accepted. -/
theorem settle_truth_path (lawful : (catalog.metadataOf row).Lawful) {test : Test}
    {accepts : String → Bool}
    (tested : ∀ text, (test.truth (some (.text text))).settle = accepts text) :
    ((column .path test).truth catalog row).settle =
      ((catalog.itemOf row).values .path).any accepts := by
  rw [Catalog.values_itemOf_path lawful, List.any_cons, List.any_nil, Bool.or_false, ← tested]
  rfl

/-- The two tests of a numeric field together test all its stored values. -/
theorem settle_truth_stored (lawful : (catalog.metadataOf row).Lawful)
    (listed : field ∈ Field.metadata) {test : Test} {accepts : Scalar → Bool}
    (tested : ∀ value, (test.truth (some value)).settle = accepts value) :
    ((either (column field test) (member field test)).truth catalog row).settle =
      ((catalog.itemOf row).stored field).any accepts := by
  rw [settle_truth_either, settle_truth_column listed, settle_truth_member, Item.stored,
    List.any_append, List.any_map, Catalog.members_itemOf lawful]
  simp only [tested]
  congr 1
  change _ = (row.scalars.lookup field).toList.any accepts
  cases row.scalars.lookup field with
  | none => rfl
  | some value => exact (Bool.or_false _).symm

end Condition

namespace Catalog

variable {catalog : Catalog} {row : Row}

/-- The condition of a filter holds exactly of the items of which the filter holds. -/
theorem settle_truth_filter (lawful : (catalog.metadataOf row).Lawful) (filter : Query.Filter) :
    (filter.condition.truth catalog row).settle =
      filter.holds (catalog.itemOf row) (catalog.emptiesOf row.id) := by
  unfold Query.Filter.condition Query.Filter.holds
  by_cases empty : filter.operator = .empty
  · rw [if_pos empty, if_pos empty, Condition.truth_marked]
    exact List.any_beq'
  · rw [if_neg empty, if_neg empty]
    have plain (kind : filter.field.kind ≠ .real) (other : filter.field.kind ≠ .integer) :
        filter.field.isNumeric = false := by
      unfold Field.isNumeric
      simp [kind, other]
    cases kind : filter.field.kind with
    | presence => rfl
    | text =>
        exact Condition.settle_truth_texts lawful kind
          (Query.Filter.settle_test_text (plain (by simp [kind]) (by simp [kind])))
    | group =>
        exact Condition.settle_truth_group lawful kind
          (Query.Filter.settle_test_text (plain (by simp [kind]) (by simp [kind])))
    | path =>
        have path : filter.field = .path := by
          cases named : filter.field <;> rw [named] at kind <;> first | rfl | cases kind
        rw [path]
        exact Condition.settle_truth_path lawful
          (Query.Filter.settle_test_text (plain (by simp [kind]) (by simp [kind])))
    | real | integer =>
        have listed : filter.field ∈ Field.metadata :=
          Field.mem_metadata_of_kind (by rw [kind]; decide) (by rw [kind]; decide)
        exact Condition.settle_truth_stored lawful listed
          (Query.Filter.settle_test_stored (by simp [Field.isNumeric, kind]))

/-! ### Text terms -/

/-- A text of the indexed columns is accepted if the text of some field is, or else the path. -/
theorem any_columnTexts (row : Row) (accepts : String → Bool) :
    (catalog.itemOf row).columnTexts.any accepts =
      ((Field.textIndexed.any fun field =>
        (row.scalars.lookup field).any fun value => accepts value.searched) ||
        accepts row.path) := by
  rw [Item.columnTexts, List.any_append, List.any_map, List.any_filterMap, List.any_cons,
    List.any_nil, Bool.or_false]
  rfl

/-- The scan for a part finds the rows with the part in the text of a column. -/
theorem settle_truth_literal (lawful : (catalog.metadataOf row).Lawful) (part : String) :
    ((Query.literalCondition part).truth catalog row).settle =
      (catalog.itemOf row).columnTexts.any (hasPart part) := by
  have column (field : Field) (kind : field.kind = .text) :
      ((Condition.column field (.contains false (lower part))).truth catalog row).settle =
        (row.scalars.lookup field).any fun value => hasPart part value.searched := by
    rw [Condition.settle_truth_column
      (Field.mem_metadata_of_kind (by rw [kind]; decide) (by rw [kind]; decide))]
    cases found : row.scalars.lookup field with
    | none => rw [Option.any_none, Option.any_none]
    | some value =>
        obtain ⟨text, rfl⟩ := lawful.text_of_lookup kind found
        simp only [Option.any_some, Test.settle_truth_contains, Scalar.folded, Scalar.searched,
          hasPart]
  have path : ((Condition.column .path (.contains false (lower part))).truth catalog row).settle =
      hasPart part row.path := Test.settle_truth_contains false (lower part) (.text row.path)
  rw [any_columnTexts]
  simp only [Query.literalCondition, List.foldl_cons, List.foldl_nil,
    Condition.settle_truth_either, Field.textIndexed, List.any_cons, List.any_nil, Bool.or_false]
  rw [column .artist rfl, column .title rfl, column .album rfl, column .genre rfl, path]
  simp only [Bool.or_assoc]

/-- The compiled condition of a term holds of a row exactly if the term holds of its item. -/
theorem settle_truth_term (sound : catalog.Sound) (member : row ∈ catalog.rows) (term : String) :
    ((Query.termCondition term).truth catalog row).settle =
      Query.termHolds (catalog.itemOf row) term := by
  have lawful := sound.lawful_metadataOf member
  unfold Query.termCondition Query.termHolds
  extract_lets body
  by_cases blank : body.isEmpty = true
  · rw [if_pos blank, if_pos blank]
    rfl
  · rw [if_neg blank, if_neg blank]
    by_cases phrase : body.any isAlphanumeric = true
    · rw [if_pos phrase, if_pos phrase, Condition.truth_indexed, sound.tokensOf_eq member]
      have indexed : (catalog.metadataOf row).indexedTokens row.path =
          (catalog.itemOf row).indexedTexts.map fun text => tokens text.toList := by
        unfold Metadata.indexedTokens Item.indexedTexts
        congr 2
        apply List.map_congr_left
        intro field listed
        have metadata : field ∈ Field.metadata ∧ field.kind = .text := by
          revert field
          decide
        exact indexedText_metadataOf lawful metadata.1 metadata.2
      rw [indexed, Truth.settle_some, List.any_cons, List.any_nil, Bool.or_false]
    · rw [if_neg phrase, if_neg phrase]
      exact settle_truth_literal lawful (String.ofList body)

/-- The condition of a clause holds exactly of the items of which the clause holds. -/
theorem settle_truth_condition (sound : catalog.Sound) (member : row ∈ catalog.rows)
    (clause : Query.Clause) :
    (clause.condition.truth catalog row).settle =
      clause.holds (catalog.itemOf row) (catalog.emptiesOf row.id) := by
  have sign (negated : Bool) (condition : Condition) :
      ((Query.signed negated condition).truth catalog row).settle =
        if negated then !(condition.truth catalog row).settle
        else (condition.truth catalog row).settle := by
    cases negated <;> rfl
  cases clause with
  | text term negated =>
      rw [Query.Clause.condition, sign, settle_truth_term sound member]
      rfl
  | filter test =>
      rw [Query.Clause.condition, sign, settle_truth_filter (sound.lawful_metadataOf member)]
      rfl

end Catalog

end AnnexCatalog
