import AnnexCatalog.Proofs.Search.Numbers

/-! # Comparisons with numbers agree

Every comparison asks for one of the numbers of an item that stands in a relation to the bound
(`mem_matching_comparing_iff`), and a range for one between both bounds. So what holds of a single
number carries over to the items that are found, as far as one number is enough to tell it
(`Reachable.search_comparisons`). Two numbers tell less: one may lie above a range and the other
below it.
-/

namespace AnnexCatalog

open Log

/-! ### Relations to a bound -/

namespace Relation

variable (value bound : Binary64)

/-- A number is at least a bound if it is above it or equal. -/
theorem holds_atLeast_iff : atLeast.holds value bound = true ↔
    above.holds value bound = true ∨ equal.holds value bound = true := by
  simp only [holds, decide_eq_true_eq]
  obtain ⟨value⟩ := value
  obtain ⟨bound⟩ := bound
  rw [Binary64.mk.injEq]
  exact Int.le_iff_lt_or_eq.trans (or_congr_right eq_comm)

/-- A number is at most a bound if it is below it or equal. -/
theorem holds_atMost_iff : atMost.holds value bound = true ↔
    below.holds value bound = true ∨ equal.holds value bound = true := by
  simp only [holds, decide_eq_true_eq]
  obtain ⟨value⟩ := value
  obtain ⟨bound⟩ := bound
  rw [Binary64.mk.injEq]
  exact Int.le_iff_lt_or_eq

/-- A number is equal to a bound if it is at least and at most the bound. -/
theorem holds_equal_iff : equal.holds value bound = true ↔
    atLeast.holds value bound = true ∧ atMost.holds value bound = true := by
  simp only [holds, decide_eq_true_eq]
  obtain ⟨value⟩ := value
  obtain ⟨bound⟩ := bound
  rw [Binary64.mk.injEq]
  exact ⟨fun same => ⟨Int.le_of_eq same.symm, Int.le_of_eq same⟩,
    fun between => Int.le_antisymm between.2 between.1⟩

/-- A number lies on one side of a bound or is equal to it. -/
theorem existsUnique_holds :
    ∃! relation, relation ∈ [above, equal, below] ∧ relation.holds value bound = true := by
  obtain ⟨value⟩ := value
  obtain ⟨bound⟩ := bound
  have sides (relation : Relation) :
      relation ∈ [above, equal, below] ∧ relation.holds ⟨value⟩ ⟨bound⟩ = true ↔
        relation = above ∧ bound < value ∨ relation = equal ∧ value = bound ∨
          relation = below ∧ value < bound := by
    cases relation <;> simp [holds] <;> rfl
  simp only [sides]
  rcases Int.lt_trichotomy value bound with less | same | greater
  · refine ⟨below, .inr (.inr ⟨rfl, less⟩), ?_⟩
    rintro other (⟨-, greater⟩ | ⟨-, same⟩ | ⟨rfl, -⟩)
    · exact absurd greater (Int.lt_asymm less)
    · exact absurd same (Int.ne_of_lt less)
    · rfl
  · refine ⟨equal, .inr (.inl ⟨rfl, same⟩), ?_⟩
    rintro other (⟨-, greater⟩ | ⟨rfl, -⟩ | ⟨-, less⟩)
    · exact absurd same (Int.ne_of_gt greater)
    · rfl
    · exact absurd same (Int.ne_of_lt less)
  · refine ⟨above, .inl ⟨rfl, greater⟩, ?_⟩
    rintro other (⟨rfl, -⟩ | ⟨-, same⟩ | ⟨-, less⟩)
    · rfl
    · exact absurd same (Int.ne_of_gt greater)
    · exact absurd less (Int.lt_asymm greater)

/-- The operator that asks for a number in a relation to a bound. -/
def operator : Relation → Query.Operator
  | equal => .exact
  | above => .above
  | below => .below
  | atLeast => .atLeast
  | atMost => .atMost

end Relation

/-- At most one value counts as at most one number. -/
theorem Field.eq_of_mem_counted {field : Field} {values : List String} (few : values.length ≤ 1) :
    ∀ number ∈ field.counted values, ∀ other ∈ field.counted values, number = other := by
  rcases values with - | ⟨value, - | ⟨second, rest⟩⟩
  · nofun
  · intro number member other otherMember
    exact Option.mem_unique (Option.mem_toList.mp member) (Option.mem_toList.mp otherMember)
  · exact absurd few (by simp)

namespace Query

/-- The query for the items with a number that stands in a relation to a bound. -/
def comparing (field : Field) (relation : Relation) (bound : String) : Query :=
  .ofFilter { field, operator := relation.operator, value := bound }

/-- The query for the items with a number between two bounds. -/
def between (field : Field) (low high : String) : Query :=
  .ofFilter { field, operator := .range, value := low, valueEnd := high }

/-- They are what a numeric field with a bound or a range asks for. -/
example : Query.parse "bpm:>=120" = .ok (.comparing .bpm .atLeast "120") ∧
    Query.parse "bpm:120-150" = .ok (.between .bpm "120" "150") := by decide +kernel

section Admits

variable {field : Field} {low high : String} {first last : Binary64}

/-- A comparison admits the numbers that are related to its bound. -/
theorem admits_comparing (read : Binary64.parse? low = some first) (relation : Relation)
    (number : Binary64) :
    Filter.admits { field, operator := relation.operator, value := low } number =
      relation.holds number first := by
  cases relation with
  | equal =>
      change (Binary64.parse? low == some number) = decide (number = first)
      rw [read, Bool.eq_iff_iff, beq_iff_eq, Option.some.injEq, decide_eq_true_eq, eq_comm]
  | above | below | atLeast | atMost =>
      change (Binary64.parse? low).any _ = _
      rw [read]
      rfl

/-- A range admits the numbers between its bounds. -/
theorem admits_between (lowRead : Binary64.parse? low = some first)
    (highRead : Binary64.parse? high = some last) (number : Binary64) :
    Filter.admits { field, operator := .range, value := low, valueEnd := high } number =
      (Relation.atLeast.holds number first && Relation.atMost.holds number last) := by
  change ((Binary64.parse? low).any _ && (Binary64.parse? high).any _) = _
  rw [lowRead, highRead]
  rfl

end Admits

end Query

namespace Catalog

variable {catalog : Catalog} {item : Item} {field : Field} {low high : String}
  {first last : Binary64}

/-- A comparison finds the items with a number that stands in the relation to the bound. -/
theorem mem_matching_comparing_iff (listed : item ∈ catalog.items)
    (numeric : field.isNumeric = true) (read : Binary64.parse? low = some first)
    (relation : Relation) :
    item ∈ catalog.matching (.comparing field relation low) ↔
      ∃ number ∈ item.numbers field, relation.holds number first = true := by
  have comparison : Query.Filter.ComparesNumbers
      { field, operator := relation.operator, value := low } := by
    refine ⟨numeric, ?_, rfl⟩
    cases relation with
    | equal => exact .inr ⟨rfl, by rw [read, Option.isSome_some]⟩
    | above | below | atLeast | atMost => exact .inl (by simp [Relation.operator])
  rw [Query.comparing, mem_matching_iff_admits listed comparison]
  simp only [Query.admits_comparing read]

/-- A range finds the items with a number between its bounds. -/
theorem mem_matching_between_iff (listed : item ∈ catalog.items)
    (numeric : field.isNumeric = true) (lowRead : Binary64.parse? low = some first)
    (highRead : Binary64.parse? high = some last) :
    item ∈ catalog.matching (.between field low high) ↔
      ∃ number ∈ item.numbers field, Relation.atLeast.holds number first = true ∧
        Relation.atMost.holds number last = true := by
  have comparison : Query.Filter.ComparesNumbers
      { field, operator := .range, value := low, valueEnd := high } :=
    ⟨numeric, .inl (by simp), rfl⟩
  rw [Query.between, mem_matching_iff_admits listed comparison]
  simp only [Query.admits_between lowRead highRead, Bool.and_eq_true]

theorem mem_items_of_mem_matching {query : Query} (found : item ∈ catalog.matching query) :
    item ∈ catalog.items :=
  (mem_matching_iff.mp found).1

/-- A relation that is made up of two finds what either of them finds. -/
theorem mem_matching_comparing_or (numeric : field.isNumeric = true)
    (read : Binary64.parse? low = some first) {whole part rest : Relation}
    (split : ∀ number, whole.holds number first = true ↔
      part.holds number first = true ∨ rest.holds number first = true) :
    item ∈ catalog.matching (.comparing field whole low) ↔
      item ∈ catalog.matching (.comparing field part low) ∨
        item ∈ catalog.matching (.comparing field rest low) := by
  by_cases listed : item ∈ catalog.items
  · simp only [mem_matching_comparing_iff listed numeric read, split, and_or_left, exists_or]
  · have absent (query : Query) : item ∉ catalog.matching query :=
      fun found => listed (mem_items_of_mem_matching found)
    exact iff_of_false (absent _) (not_or.mpr ⟨absent _, absent _⟩)

/-- A range from a bound to itself finds what is equal to the bound. -/
theorem matching_between_self (numeric : field.isNumeric = true)
    (read : Binary64.parse? low = some first) :
    catalog.matching (.between field low low) =
      catalog.matching (.comparing field .equal low) := by
  have same {item : Item} (listed : item ∈ catalog.items) :
      item ∈ catalog.matching (.between field low low) ↔
        item ∈ catalog.matching (.comparing field .equal low) := by
    simp only [mem_matching_between_iff listed numeric read read,
      mem_matching_comparing_iff listed numeric read, Relation.holds_equal_iff]
  refine List.filter_congr fun item listed => ?_
  have agree := same listed
  rwa [mem_matching_iff, mem_matching_iff, and_iff_right listed, and_iff_right listed,
    ← Bool.eq_iff_iff] at agree

/-- What lies in a range is at least its lower bound and at most its upper one. -/
theorem mem_bounds_of_mem_between (numeric : field.isNumeric = true)
    (lowRead : Binary64.parse? low = some first) (highRead : Binary64.parse? high = some last)
    (found : item ∈ catalog.matching (.between field low high)) :
    item ∈ catalog.matching (.comparing field .atLeast low) ∧
      item ∈ catalog.matching (.comparing field .atMost high) := by
  have listed := mem_items_of_mem_matching found
  obtain ⟨number, counted, above, below⟩ :=
    (mem_matching_between_iff listed numeric lowRead highRead).mp found
  exact ⟨(mem_matching_comparing_iff listed numeric lowRead _).mpr ⟨number, counted, above⟩,
    (mem_matching_comparing_iff listed numeric highRead _).mpr ⟨number, counted, below⟩⟩

section Numbers

variable (listed : item ∈ catalog.items) (numeric : field.isNumeric = true)
  (lowRead : Binary64.parse? low = some first)
include listed numeric lowRead

/-- An item with one number only lies in a range if both bounds allow it. -/
theorem mem_matching_between_of_bounds (highRead : Binary64.parse? high = some last)
    (alike : ∀ number ∈ item.numbers field, ∀ other ∈ item.numbers field, number = other)
    (above : item ∈ catalog.matching (.comparing field .atLeast low))
    (below : item ∈ catalog.matching (.comparing field .atMost high)) :
    item ∈ catalog.matching (.between field low high) := by
  obtain ⟨number, counted, least⟩ :=
    (mem_matching_comparing_iff listed numeric lowRead _).mp above
  obtain ⟨other, otherCounted, most⟩ :=
    (mem_matching_comparing_iff listed numeric highRead _).mp below
  rw [← alike number counted other otherCounted] at most
  exact (mem_matching_between_iff listed numeric lowRead highRead).mpr
    ⟨number, counted, least, most⟩

/-- An item with one number lies on one side of a bound or is equal to it. -/
theorem existsUnique_mem_matching_comparing {number : Binary64}
    (sole : ∀ other, other ∈ item.numbers field ↔ other = number) :
    ∃! relation, relation ∈ [Relation.above, .equal, .below] ∧
      item ∈ catalog.matching (.comparing field relation low) := by
  simp only [mem_matching_comparing_iff listed numeric lowRead, sole, exists_eq_left]
  exact Relation.existsUnique_holds number first

/-- An item without a value is found by no comparison. -/
theorem notMem_matching_comparing (valueless : item.stored field = []) (relation : Relation) :
    item ∉ catalog.matching (.comparing field relation low) := by
  rw [mem_matching_comparing_iff listed numeric lowRead, Item.numbers, valueless]
  simp

end Numbers

/-- **Comparisons agree.** No comparison with a number fails. What is at least a bound is above it or
equal to it, and what is at most a bound is below it or equal to it; a range from a bound to itself
finds what is equal to the bound, and what lies in a range is at least its lower bound and at most its
upper one. An item with at most one value lies in a range if both bounds allow it, an item with one
number is found by exactly one of three comparisons, and an item without a value by none. -/
theorem Reachable.search_comparisons (reached : catalog.Reachable)
    (numeric : field.isNumeric = true) (lowRead : Binary64.parse? low = some first)
    (highRead : Binary64.parse? high = some last) :
    let compared (relation : Relation) (bound : String) :=
      catalog.matching (.comparing field relation bound)
    let within (bound : String) := catalog.matching (.between field low bound)
    (∀ relation bound,
        catalog.search? (.comparing field relation bound) none = some (compared relation bound)) ∧
      (∀ bound, catalog.search? (.between field low bound) none = some (within bound)) ∧
      (∀ item, item ∈ compared .atLeast low ↔
        item ∈ compared .above low ∨ item ∈ compared .equal low) ∧
      (∀ item, item ∈ compared .atMost low ↔
        item ∈ compared .below low ∨ item ∈ compared .equal low) ∧
      within low = compared .equal low ∧
      (∀ item ∈ within high, item ∈ compared .atLeast low ∧ item ∈ compared .atMost high) ∧
      ∀ row ∈ catalog.rows, let item := catalog.itemOf row
        (∃ log, catalog.metadataOf row = (Digest.ofLog log).metadata) ∧
        (∀ log, catalog.metadataOf row = (Digest.ofLog log).metadata →
          (valuesOf (Log.decode log).fields field).toList.length ≤ 1 →
            item ∈ compared .atLeast low → item ∈ compared .atMost high → item ∈ within high) ∧
        ((∃ number, ∀ other, other ∈ item.numbers field ↔ other = number) →
          ∃! relation, relation ∈ [Relation.above, .equal, .below] ∧
            item ∈ compared relation low) ∧
        (item.stored field = [] →
          (∀ relation, item ∉ compared relation low) ∧ item ∉ within high) := by
  intro compared within
  have sound := reached.sound
  have bounded : ∀ item ∈ within high, item ∈ compared .atLeast low ∧ item ∈ compared .atMost high :=
    fun item found => mem_bounds_of_mem_between numeric lowRead highRead found
  refine ⟨fun _ _ => search?_filter sound _, fun _ => search?_filter sound _,
    fun item => mem_matching_comparing_or numeric lowRead (Relation.holds_atLeast_iff · first),
    fun item => mem_matching_comparing_or numeric lowRead (Relation.holds_atMost_iff · first),
    matching_between_self numeric lowRead, bounded, ?_⟩
  intro row member item
  have listed : item ∈ catalog.items := itemOf_mem_items sound.consistent member
  obtain ⟨log, reads⟩ := sound.exists_reads member
  refine ⟨⟨log, reads.metadata⟩, ?_, ?_, ?_⟩
  · intro log reads few
    refine mem_matching_between_of_bounds listed numeric lowRead highRead ?_
    rw [numbers_itemOf reads numeric]
    exact Field.eq_of_mem_counted few
  · rintro ⟨number, sole⟩
    exact existsUnique_mem_matching_comparing listed numeric lowRead sole
  · intro valueless
    have absent := notMem_matching_comparing listed numeric lowRead valueless
    exact ⟨absent, fun found => absent .atLeast (bounded item found).1⟩

/-- Of two items with tempos, one in a range and the other on either side of it, the range has the
first only, although both are at least the lower bound and at most the upper one. -/
theorem search_comparisons_of_tempos :
    let store := ((MemoryStore.new.put "a" "1s bpm +128" ⟨"a.mp3", true⟩).put "b"
      "1s bpm +100 +200" ⟨"b.mp3", true⟩).put "c" "1s title +Bo" ⟨"c.mp3", true⟩
    let catalog := (Catalog.empty.build 1 store.answers).catalog
    let found (query : Query) := (catalog.search? query none).map (List.map Item.key)
    catalog.Reachable ∧ Field.bpm.isNumeric = true ∧
      Binary64.parse? "120" = some (Binary64.ofInt 120) ∧
      Binary64.parse? "150" = some (Binary64.ofInt 150) ∧
      found (.comparing .bpm .atLeast "120") = some ["a", "b"] ∧
      found (.comparing .bpm .atMost "150") = some ["a", "b"] ∧
      found (.between .bpm "120" "150") = some ["a"] ∧
      ∀ row ∈ catalog.rows, row.key = "a" →
        catalog.itemOf row ∈ catalog.matching (.between .bpm "120" "150") ∧
          ∃! relation, relation ∈ [Relation.above, .equal, .below] ∧
            catalog.itemOf row ∈ catalog.matching (.comparing .bpm relation "120") := by
  intro store catalog found
  have reached : catalog.Reachable := Reachable.empty.build 1 store.answers
  have numeric : Field.bpm.isNumeric = true := rfl
  have first : Binary64.parse? "120" = some (Binary64.ofInt 120) := by decide +kernel
  have last : Binary64.parse? "150" = some (Binary64.ofInt 150) := by decide +kernel
  refine ⟨reached, numeric, first, last, by decide +kernel, by decide +kernel, by decide +kernel, ?_⟩
  intro row member keyed
  obtain ⟨-, -, -, -, -, -, rows⟩ := Reachable.search_comparisons reached numeric first last
  obtain ⟨-, within, alone, -⟩ := rows row member
  have listed : catalog.itemOf row ∈ catalog.items :=
    itemOf_mem_items reached.sound.consistent member
  have tempos : ∀ row ∈ catalog.rows, row.key = "a" →
      catalog.metadataOf row = (Digest.ofLog "1s bpm +128").metadata ∧
        (catalog.itemOf row).numbers .bpm = [Binary64.ofInt 128] := by decide +kernel
  obtain ⟨reads, numbers⟩ := tempos row member keyed
  have compared {bound : String} {limit : Binary64} (read : Binary64.parse? bound = some limit)
      (relation : Relation) (holds : relation.holds (Binary64.ofInt 128) limit = true) :
      catalog.itemOf row ∈ catalog.matching (.comparing .bpm relation bound) := by
    rw [mem_matching_comparing_iff listed numeric read, numbers]
    exact ⟨_, List.mem_cons_self, holds⟩
  constructor
  · exact within "1s bpm +128" reads (by decide +kernel) (compared first .atLeast (by decide +kernel))
      (compared last .atMost (by decide +kernel))
  · refine alone ⟨Binary64.ofInt 128, fun other => ?_⟩
    rw [numbers, List.mem_singleton]

end Catalog

end AnnexCatalog
