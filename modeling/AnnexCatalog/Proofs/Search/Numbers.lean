import AnnexCatalog.Proofs.Catalog.Filing
import AnnexCatalog.Proofs.Catalog.Takeover
import AnnexCatalog.Proofs.Number.Leading
import AnnexCatalog.Proofs.Search.Success
import AnnexCatalog.Query.Parse

/-! # Searching by numbers

A filter that compares numbers looks at the numbers that the values of its field count as. A single
value counts if it is a number as a whole; each of several values counts as the number at its
beginning, and so as zero if there is none (`Reachable.search_number`). So what is no number is seen
among several values, and only there. A number is also seen there as another one if it has so many
digits that the two readers of numbers differ.
-/

namespace AnnexCatalog

open Log Text

/-- The number that a value of a numeric field is, as a whole. -/
def Field.numberOf? (field : Field) (value : String) : Option Binary64 :=
  (Scalar.read? field.kind value).map Scalar.asNumber

/-- The numbers that the values of a numeric field count as in comparisons. -/
def Field.counted (field : Field) : List String → List Binary64
  | [value] => (field.numberOf? value).toList
  | values => values.map fun value => Binary64.leading value.toList

/-- A value that is a number as a whole and begins with the same number. -/
def Field.ReadsAlike (field : Field) (value : String) : Prop :=
  field.numberOf? value = some (Binary64.leading value.toList)

/-- A value that is a whole number or a number of few digits, with no blank beyond ASCII before it. -/
structure Field.IsPlainNumber (field : Field) (value : String) : Prop where
  isNumber : (field.numberOf? value).isSome = true
  plain : BeginsPlainly value.toList
  exact : field.kind = .integer ∨ field.kind = .real ∧ IsShortNumeral (trim value.toList)

/-- A plain number is read alike as a whole and at the beginning of a text. -/
theorem Field.IsPlainNumber.readsAlike {field : Field} {value : String}
    (number : field.IsPlainNumber value) : field.ReadsAlike value := by
  obtain ⟨isNumber, plain, exact⟩ := number
  obtain ⟨found, read⟩ := Option.isSome_iff_exists.mp isNumber
  obtain ⟨scalar, whole, rfl⟩ := Option.map_eq_some_iff.mp read
  rw [ReadsAlike, read, Scalar.leading_of_read? plain exact whole]

namespace Query

/-- A filter that compares numbers. -/
structure Filter.ComparesNumbers (filter : Filter) : Prop where
  numeric : filter.field.isNumeric = true
  compares : filter.operator ∈ [.above, .below, .atLeast, .atMost, .range] ∨
    filter.operator = .exact ∧ (Binary64.parse? filter.value).isSome = true
  positive : filter.negated = false

/-- A comparison is what a numeric field with a bound or a range asks for. -/
example : Query.parse "bpm:<60 year:1990-1999" = .ok ⟨[[
    .filter { field := .bpm, operator := .below, value := "60" },
    .filter { field := .year, operator := .range, value := "1990", valueEnd := "1999" }]]⟩ := by
  decide +kernel

/-- Whether a number satisfies the comparison of a filter. -/
def Filter.admits (filter : Filter) (number : Binary64) : Bool :=
  if filter.operator = .exact then Binary64.parse? filter.value == some number
  else filter.compares number

namespace Filter.ComparesNumbers

variable {filter : Filter} (comparison : filter.ComparesNumbers)
include comparison

theorem operator_ne_empty : filter.operator ≠ .empty := by
  intro empty
  rcases comparison.compares with order | exact
  · rw [empty] at order
    exact absurd order (by decide)
  · exact absurd (empty.symm.trans exact.1) (by decide)

/-- A stored value is compared as a number. -/
theorem acceptsStored_eq (value : Scalar) :
    filter.acceptsStored value = filter.admits value.asNumber := by
  rw [acceptsStored, admits]
  rcases comparison.compares with order | ⟨exact, bound⟩
  · simp only [List.mem_cons, List.not_mem_nil, or_false] at order
    rcases order with operator | operator | operator | operator | operator
    all_goals rw [operator]; rfl
  · obtain ⟨number, read⟩ := Option.isSome_iff_exists.mp bound
    rw [exact, read, if_pos rfl]
    dsimp only
    rw [Bool.eq_iff_iff, beq_iff_eq, beq_iff_eq, Option.some.injEq, eq_comm]

end Filter.ComparesNumbers

end Query

/-- The numbers that the stored values of a field count as. -/
def Item.numbers (item : Item) (field : Field) : List Binary64 :=
  (item.stored field).map Scalar.asNumber

/-- The numbers that stand in the places of a field. -/
def Places.numbers (places : Places) : List Binary64 :=
  (places.column.toList ++ places.members.map Scalar.text).map Scalar.asNumber

/-- The values that a log gives a numeric field count as numbers wherever they are kept. -/
theorem Places.numbers_ofHolding {fields : Fields} {field : Field}
    (listed : field ∈ Field.metadata) (numeric : field.isNumeric = true) :
    (ofHolding (holding? fields field)).numbers =
      field.counted (valuesOf fields field).toList := by
  rcases found : (valuesOf fields field).toList with - | ⟨value, - | ⟨other, rest⟩⟩
  · cases named : names fields field with
    | false =>
        rw [holding?_of_unnamed named]
        rfl
    | true =>
        rw [holding?, if_pos ⟨listed, named⟩, ofValues?_eq_empty_iff.mpr found]
        rfl
  · rw [ofHolding_of_number listed numeric found, numbers, Field.counted, Field.numberOf?]
    cases Scalar.read? field.kind value <;> rfl
  · have named : names fields field = true := by
      by_contra unnamed
      rw [valuesOf_of_unnamed (Bool.eq_false_iff.mpr unnamed)] at found
      cases found
    have kept : Holding.ofValues? field (valuesOf fields field) =
        some (.members (valuesOf fields field)) := by
      rw [Holding.ofValues?, found]
    rw [holding?, if_pos ⟨listed, named⟩, kept, ofHolding, numbers, found]
    exact List.map_map

theorem Field.mem_metadata_of_isNumeric {field : Field} (numeric : field.isNumeric = true) :
    field ∈ Field.metadata := by
  revert numeric
  cases field <;> decide

/-- Where the two readers agree on every value of a field, or there is only one, the numbers that count
are those that the values are. -/
theorem Field.counted_eq_filterMap {field : Field} {values : List String}
    (proper : values.length ≤ 1 ∨ ∀ value ∈ values, field.ReadsAlike value) :
    field.counted values = values.filterMap field.numberOf? := by
  rcases values with - | ⟨value, - | ⟨other, rest⟩⟩
  · rfl
  · rw [counted, List.filterMap_cons]
    cases field.numberOf? value <;> rfl
  · rcases proper with few | each
    · exact absurd few (by simp)
    · rw [List.filterMap_congr each]
      exact (congrFun List.filterMap_eq_map _).symm

namespace Catalog

variable {catalog : Catalog} {row : Row} {log : String} {filter : Query.Filter}

/-- A comparison finds the items with a stored number that satisfies it. -/
theorem mem_matching_iff_admits {item : Item} (listed : item ∈ catalog.items)
    (comparison : filter.ComparesNumbers) :
    item ∈ catalog.matching (.ofFilter filter) ↔
      ∃ number ∈ item.numbers filter.field, filter.admits number = true := by
  have accepts : filter.acceptsStored = filter.admits ∘ Scalar.asNumber :=
    funext comparison.acceptsStored_eq
  rw [mem_matching_filter_iff listed comparison.positive,
    Query.Filter.holds_of_numbers comparison.operator_ne_empty comparison.numeric, accepts,
    ← List.any_map, List.any_eq_true, Item.numbers]

/-- The stored numbers of a field are those that the values of the log count as. -/
theorem numbers_itemOf (reads : catalog.metadataOf row = (Digest.ofLog log).metadata)
    {field : Field} (numeric : field.isNumeric = true) :
    (catalog.itemOf row).numbers field =
      field.counted (valuesOf (Log.decode log).fields field).toList := by
  have metadata := Field.mem_metadata_of_isNumeric numeric
  rw [← Places.numbers_ofHolding metadata numeric, ← placesOf_eq_ofHolding reads metadata,
    Places.numbers, placesOf, row.column?_eq_lookup metadata]
  rfl

/-- A comparison finds the items with a number that counts and satisfies it. -/
theorem mem_matching_comparison_iff (listed : catalog.itemOf row ∈ catalog.items)
    (reads : catalog.metadataOf row = (Digest.ofLog log).metadata)
    (comparison : filter.ComparesNumbers) :
    catalog.itemOf row ∈ catalog.matching (.ofFilter filter) ↔
      ∃ number ∈ filter.field.counted (valuesOf (Log.decode log).fields filter.field).toList,
        filter.admits number = true := by
  rw [mem_matching_iff_admits listed comparison, numbers_itemOf reads comparison.numeric]

/-- **Which numbers a search sees.** A search by a number does not fail. It finds an item if one of
the numbers satisfies the comparison that the values of its log count as. These are the numbers that
the values are as a whole, where there is a single value or where each of the values is one and begins
with the same number; so does a whole number or a number of few digits, unless a blank beyond ASCII
stands before it. -/
theorem Reachable.search_number (reached : catalog.Reachable) (member : row ∈ catalog.rows)
    (comparison : filter.ComparesNumbers) :
    ∃ found, catalog.search? (.ofFilter filter) none = some found ∧
      (∃ log, catalog.metadataOf row = (Digest.ofLog log).metadata) ∧
      (∀ log, catalog.metadataOf row = (Digest.ofLog log).metadata →
        let values := (valuesOf (Log.decode log).fields filter.field).toList
        (catalog.itemOf row ∈ found ↔
          ∃ number ∈ filter.field.counted values, filter.admits number = true) ∧
        (values.length ≤ 1 ∨ (∀ value ∈ values, filter.field.ReadsAlike value) →
          (catalog.itemOf row ∈ found ↔ ∃ value ∈ values, ∃ number,
            filter.field.numberOf? value = some number ∧ filter.admits number = true))) ∧
      ∀ value, filter.field.IsPlainNumber value → filter.field.ReadsAlike value := by
  have sound := reached.sound
  obtain ⟨log, reads⟩ := sound.exists_reads member
  have listed := itemOf_mem_items sound.consistent member
  refine ⟨_, search?_filter sound filter, ⟨log, reads.metadata⟩, ?_, fun _ number =>
    number.readsAlike⟩
  intro log reads values
  have found := mem_matching_comparison_iff listed reads comparison
  refine ⟨found, fun proper => found.trans ?_⟩
  rw [Field.counted_eq_filterMap proper]
  simp only [List.mem_filterMap]
  constructor
  · rintro ⟨number, ⟨value, given, read⟩, admitted⟩
    exact ⟨value, given, number, read, admitted⟩
  · rintro ⟨value, given, number, read, admitted⟩
    exact ⟨number, ⟨value, given, read⟩, admitted⟩

/-- The number of a track counts without that of all tracks, and that of two tempos without the
blanks around it. -/
theorem search_number_of_tempos :
    let log : Blob := ⟨"a", "1s track +3/12 bpm +!IDEyMCA= +128.5"⟩
    let store := MemoryStore.new.put log.key log.content ⟨"a.mp3", true⟩
    let catalog := (Catalog.empty.build 1 store.answers).catalog
    let track : Query.Filter := { field := .trackNumber, operator := .exact, value := "3" }
    let tempo : Query.Filter :=
      { field := .bpm, operator := .range, value := "119", valueEnd := "121" }
    catalog.Reachable ∧ track.ComparesNumbers ∧ tempo.ComparesNumbers ∧
      ∃ row ∈ catalog.rows, catalog.metadataOf row = (Digest.ofLog log.content).metadata ∧
        (∃ found, catalog.search? (.ofFilter track) none = some found ∧
          catalog.itemOf row ∈ found) ∧
        ∃ found, catalog.search? (.ofFilter tempo) none = some found ∧
          catalog.itemOf row ∈ found := by
  intro log store catalog track tempo
  have reached : catalog.Reachable := Reachable.empty.build 1 store.answers
  obtain ⟨row, member, reads, -⟩ := exists_row_of_put 1 log.key log.content ⟨"a.mp3", true⟩
  have exact : track.ComparesNumbers := ⟨rfl, .inr ⟨rfl, by decide +kernel⟩, rfl⟩
  have within : tempo.ComparesNumbers := ⟨rfl, .inl (by decide), rfl⟩
  have tracks : (valuesOf (Log.decode log.content).fields .trackNumber).toList = ["3/12"] := by
    decide +kernel
  have tempos : (valuesOf (Log.decode log.content).fields .bpm).toList = [" 120 ", "128.5"] := by
    decide +kernel
  obtain ⟨first, searched, -, compared, -⟩ := reached.search_number member exact
  obtain ⟨second, asked, -, ordered, alike⟩ := reached.search_number member within
  refine ⟨reached, exact, within, row, member, reads, ⟨first, searched, ?_⟩, second, asked, ?_⟩
  · obtain ⟨-, alone⟩ := compared log.content reads
    rw [tracks] at alone
    refine (alone (.inl (by decide))).mpr ⟨"3/12", List.mem_cons_self, .ofInt 3, ?_, ?_⟩
    · decide +kernel
    · decide +kernel
  · obtain ⟨-, proper⟩ := ordered log.content reads
    rw [tempos] at proper
    have plain : ∀ value ∈ [" 120 ", "128.5"], Field.bpm.IsPlainNumber value := by
      have whole : IsShortNumeral (trim " 120 ".toList) :=
        ⟨⟨false, 120, 0⟩, by decide, by decide, by decide⟩
      have half : IsShortNumeral (trim "128.5".toList) :=
        ⟨⟨false, 1285, -1⟩, by decide, by decide, by decide⟩
      simp only [List.forall_mem_cons]
      exact ⟨⟨by decide +kernel, by decide, .inr ⟨rfl, whole⟩⟩,
        ⟨by decide +kernel, by decide, .inr ⟨rfl, half⟩⟩, nofun⟩
    refine (proper (.inr fun value given => alike value (plain value given))).mpr
      ⟨" 120 ", List.mem_cons_self, .ofInt 120, ?_, ?_⟩
    · decide +kernel
    · decide +kernel

/-- Two values without a number are found as zero, although neither of them is a number. -/
theorem search_number_misreads :
    let log : Blob := ⟨"a", "1s bpm +fast +slow"⟩
    let store := MemoryStore.new.put log.key log.content ⟨"a.mp3", true⟩
    let catalog := (Catalog.empty.build 1 store.answers).catalog
    let slow : Query.Filter := { field := .bpm, operator := .below, value := "60" }
    catalog.Reachable ∧ slow.ComparesNumbers ∧
      (valuesOf (Log.decode log.content).fields .bpm).toList = ["fast", "slow"] ∧
      Field.bpm.numberOf? "fast" = none ∧ Field.bpm.numberOf? "slow" = none ∧
      ∃ row ∈ catalog.rows, catalog.metadataOf row = (Digest.ofLog log.content).metadata ∧
        ∃ found, catalog.search? (.ofFilter slow) none = some found ∧
          catalog.itemOf row ∈ found := by
  intro log store catalog slow
  have reached : catalog.Reachable := Reachable.empty.build 1 store.answers
  have comparison : slow.ComparesNumbers := ⟨rfl, .inl (by decide), rfl⟩
  obtain ⟨row, member, reads, -⟩ := exists_row_of_put 1 log.key log.content ⟨"a.mp3", true⟩
  have values : (valuesOf (Log.decode log.content).fields .bpm).toList = ["fast", "slow"] := by
    decide +kernel
  have found : catalog.itemOf row ∈ catalog.matching (.ofFilter slow) := by
    have listed := itemOf_mem_items reached.sound.consistent member
    rw [mem_matching_comparison_iff listed reads comparison, values]
    exact ⟨Binary64.leading "fast".toList, List.mem_cons_self, by decide +kernel⟩
  exact ⟨reached, comparison, values, by decide +kernel, by decide +kernel, row, member, reads, _,
    search?_filter reached.sound slow, found⟩

end Catalog

end AnnexCatalog
