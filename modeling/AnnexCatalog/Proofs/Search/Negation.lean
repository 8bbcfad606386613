import AnnexCatalog.Proofs.Query.Composition
import AnnexCatalog.Proofs.Search.Success

/-! # A clause and its negation

A clause is settled before it is negated, so on every item just one of the two holds, whatever is
missing or cannot be read there (`holds_withSign_true`), and they are tried alike. A minus sign
before the text of a clause therefore divides the items: either both searches fail, or each item is
found by one of them and both together find none (`Reachable.search_minus`).
-/

namespace AnnexCatalog

namespace Query.Clause

/-- Whether a clause can be read does not depend on its sign. -/
theorem isUnreadable_withSign (clause : Clause) (negated : Bool) :
    (clause.withSign negated).condition.isUnreadable = clause.condition.isUnreadable := by
  cases clause with
  | text value sign => exact (isUnreadable_signed negated _).trans (isUnreadable_signed sign _).symm
  | filter test =>
      exact (isUnreadable_signed negated _).trans (isUnreadable_signed test.negated _).symm

/-- A negated clause holds where the clause itself does not. -/
theorem holds_withSign_true {clause : Clause} (positive : clause.negated = false) (item : Item)
    (marks : List Field) : (clause.withSign true).holds item marks = !clause.holds item marks := by
  have same : (clause.withSign true).affirms item marks = clause.affirms item marks := by
    cases clause <;> rfl
  rw [holds, holds, negated_withSign, positive, same]
  rfl

end Query.Clause

namespace Catalog

variable {catalog : Catalog} {clause : Query.Clause}

/-- Where a clause is not found, its negation is, in the same order. -/
theorem matching_withSign_true (positive : clause.negated = false) :
    catalog.matching ⟨[[clause.withSign true]]⟩ =
      catalog.items.filter fun item => !clause.holds item (catalog.emptiesOf item.id) := by
  simp only [matching_singleton, Query.Clause.holds_withSign_true positive]

/-- A clause and its negation never hold together. -/
theorem matching_pair_withSign_true (positive : clause.negated = false) :
    catalog.matching ⟨[[clause, clause.withSign true]]⟩ = [] := by
  rw [matching, List.filter_eq_nil_iff]
  intro item _
  simp [Query.holds, Query.Clause.holds_withSign_true positive]

/-- What the two queries find are all items of a catalog, each found by one of them. -/
structure Divides (catalog : Catalog) (first second : Query) (found others : List Item) :
    Prop where
  found_eq : catalog.search? first none = some found
  others_eq : catalog.search? second none = some others
  disjoint : found.Disjoint others
  whole : (found ++ others).Perm catalog.items
  counted : catalog.count? first = some found.length
  others_counted : catalog.count? second = some others.length
  sum : found.length + others.length = catalog.size

/-- A clause that can be tried divides the items together with its negation. -/
theorem divides_withSign_true (sound : catalog.Sound) (positive : clause.negated = false)
    (readable : catalog.rows ≠ [] → clause.condition.isUnreadable = false) :
    catalog.Divides ⟨[[clause]]⟩ ⟨[[clause.withSign true]]⟩ (catalog.matching ⟨[[clause]]⟩)
      (catalog.matching ⟨[[clause.withSign true]]⟩) := by
  have searched := search?_singleton sound readable
  have refused : catalog.search? ⟨[[clause.withSign true]]⟩ none = some _ :=
    search?_singleton sound (by rwa [clause.isUnreadable_withSign])
  have whole : (catalog.matching ⟨[[clause]]⟩ ++
      catalog.matching ⟨[[clause.withSign true]]⟩).Perm catalog.items := by
    rw [matching_singleton, matching_withSign_true positive]
    exact List.filter_append_perm _ _
  refine ⟨searched, refused, ?_, whole, ?_, ?_, ?_⟩
  · intro item found other
    rw [matching_singleton, List.mem_filter] at found
    rw [matching_withSign_true positive, List.mem_filter, found.2] at other
    cases other.2
  · rw [count?_eq_map_length, searched, Option.map_some]
  · rw [count?_eq_map_length, refused, Option.map_some]
  · rw [← List.length_append, whole.length_eq, items_eq_map sound.consistent, List.length_map]
    rfl

/-- Nothing is found where a clause that can be tried and its negation are both asked for. -/
theorem search?_pair_withSign_true (sound : catalog.Sound) (positive : clause.negated = false)
    (readable : catalog.rows ≠ [] → clause.condition.isUnreadable = false) :
    catalog.search? ⟨[[clause, clause.withSign true]]⟩ none = some [] := by
  rw [search?_of_readable sound (isRefused_group (by simp)), matching_pair_withSign_true positive]
  simpa [Query.conditions_group, clause.isUnreadable_withSign] using readable

/-- **A minus sign divides the items.** Where a text without a blank before it is read as one clause
that is not negated, a minus sign before it negates the clause. The searches for the two both fail,
or what they find is disjoint and makes up all items, the counts add up to the number of items, and
nothing is found where both are asked for. -/
theorem Reachable.search_minus (reached : catalog.Reachable) {text : String}
    (flush : ∀ c ∈ text.toList.head?, Text.isBlank c = false)
    (accepted : Query.parse text = .ok ⟨[[clause]]⟩) (positive : clause.negated = false) :
    Query.parse ("-" ++ text) = .ok ⟨[[clause.withSign true]]⟩ ∧
      Query.parse (text ++ " -" ++ text) = .ok ⟨[[clause, clause.withSign true]]⟩ ∧
      (catalog.search? ⟨[[clause]]⟩ none = none ∧
          catalog.search? ⟨[[clause.withSign true]]⟩ none = none ∨
        ∃ found others, catalog.Divides ⟨[[clause]]⟩ ⟨[[clause.withSign true]]⟩ found others ∧
          catalog.search? ⟨[[clause, clause.withSign true]]⟩ none = some []) := by
  have sound := reached.sound
  have minus := Query.parse_minus flush accepted positive
  have both := Query.parse_continuedBy accepted minus (by simp) (by simp)
  rw [String.append_assoc] at both
  refine ⟨minus, String.append_assoc.symm ▸ both, ?_⟩
  by_cases failed : catalog.rows ≠ [] ∧ clause.condition.isUnreadable = true
  · refine .inl ⟨(search?_singleton_eq_none_iff sound).mpr failed,
      (search?_singleton_eq_none_iff sound).mpr ?_⟩
    rwa [clause.isUnreadable_withSign]
  · rw [not_and, Bool.not_eq_true] at failed
    exact .inr ⟨_, _, divides_withSign_true sound positive failed,
      search?_pair_withSign_true sound positive failed⟩

/-- Of three items one has a tempo above the bound, one a tempo that is no number, and one none. -/
theorem search_minus_of_tempo :
    let store := ((MemoryStore.new.put "a" "1s bpm +128" ⟨"a.mp3", true⟩).put "b" "1s bpm +fast"
      ⟨"b.mp3", true⟩).put "c" "1s title +Bo" ⟨"c.mp3", true⟩
    let catalog := (Catalog.empty.build 1 store.answers).catalog
    let clause : Query.Clause := .filter { field := .bpm, operator := .above, value := "120" }
    Query.parse "-bpm:>120" = .ok ⟨[[clause.withSign true]]⟩ ∧
      ∃ found others, catalog.Divides ⟨[[clause]]⟩ ⟨[[clause.withSign true]]⟩ found others ∧
        found.map Item.key = ["a"] ∧ others.map Item.key = ["b", "c"] := by
  intro store catalog clause
  have reached : catalog.Reachable := Reachable.empty.build 1 store.answers
  have found : (catalog.search? ⟨[[clause]]⟩ none).map (List.map Item.key) = some ["a"] := by
    decide +kernel
  have others : (catalog.search? ⟨[[clause.withSign true]]⟩ none).map (List.map Item.key) =
      some ["b", "c"] := by decide +kernel
  have accepted : Query.parse "bpm:>120" = .ok ⟨[[clause]]⟩ := by decide +kernel
  have flush : ∀ c ∈ "bpm:>120".toList.head?, Text.isBlank c = false := by
    intro c head
    cases Option.mem_some.mp (show c ∈ some 'b' from head)
    rfl
  obtain ⟨minus, -, divided⟩ := reached.search_minus flush accepted rfl
  rcases divided with ⟨failed, -⟩ | ⟨_, _, divides, -⟩
  · rw [failed] at found
    cases found
  · rw [divides.found_eq] at found
    rw [divides.others_eq] at others
    exact ⟨minus, _, _, divides, Option.some.inj found, Option.some.inj others⟩

end Catalog

end AnnexCatalog
