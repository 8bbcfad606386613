import AnnexCatalog.Proofs.Query.Composition
import AnnexCatalog.Proofs.Search.Results

/-! # Searching for queries one after another

A query with groups, none of them empty, holds where all clauses of one of its groups do. So what
holds of the groups of two queries together is what holds of one of the two (`holds_orElse`), and
what holds of one group that goes on with another is what holds of both (`holds_continuedBy`).
Searches for texts that are joined find the union and the intersection of what is found for each
text (`search_joined`).
-/

namespace AnnexCatalog

namespace Query

variable {query other : Query} (item : Item) (marks : List Field)

/-- A query with clauses holds where one of its groups does. -/
theorem holds_eq_any (some : query.groups ≠ []) (nonempty : [] ∉ query.groups) :
    query.holds item marks = query.groups.any fun group => group.all (Clause.holds item marks) := by
  obtain ⟨group, member⟩ := List.exists_mem_of_ne_nil _ some
  have filled : query.groups.all List.isEmpty = false := by
    refine List.all_eq_false.mpr ⟨group, member, ?_⟩
    rw [List.isEmpty_iff]
    rintro rfl
    exact nonempty member
  rw [holds, filled, Bool.false_or]

/-- An alternative holds of an item if one of its queries does. -/
theorem holds_orElse (some : query.groups ≠ []) (nonempty : [] ∉ query.groups)
    (others : other.groups ≠ []) (filled : [] ∉ other.groups) :
    (query.orElse other).holds item marks =
      (query.holds item marks || other.holds item marks) := by
  have joined : (query.orElse other).groups ≠ [] := by simp [orElse, some]
  rw [holds_eq_any item marks some nonempty, holds_eq_any item marks others filled,
    holds_eq_any item marks joined (nil_notMem_orElse nonempty filled), orElse, List.any_append]

/-- Two queries of one group hold together of the items of which both hold. -/
theorem holds_continuedBy {group next : List Clause} (left : query.groups = [group])
    (right : other.groups = [next]) (nonempty : [] ∉ query.groups) (filled : [] ∉ other.groups) :
    (query.continuedBy other).holds item marks =
      (query.holds item marks && other.holds item marks) := by
  have some : query.groups ≠ [] := by simp [left]
  have others : other.groups ≠ [] := by simp [right]
  have single : query.continuedBy other = ⟨[group ++ next]⟩ :=
    continuedBy_eq (left.trans (List.nil_append _).symm) right
  have merged := nil_notMem_continuedBy nonempty filled some others
  rw [single] at merged ⊢
  rw [holds_eq_any item marks some nonempty, holds_eq_any item marks others filled,
    holds_eq_any item marks (by simp) merged, left, right]
  simp

end Query

namespace Catalog

variable {catalog : Catalog}

/-- What a query finds is in the order of the numbers of the items. -/
theorem matching_ascending (consistent : catalog.Consistent) (query : Query) :
    ((catalog.matching query).map Item.id).Pairwise (· < ·) := by
  have all : (catalog.items.map Item.id).Pairwise (· < ·) := by
    rw [items_eq_map consistent, List.map_map]
    exact consistent.ids_ascending
  exact all.sublist (List.filter_sublist.map Item.id)

/-- **Queries one after another.** Two texts that are read as queries with groups are read as the
groups of both where a bar or the word `OR` stands between them; where a blank does, the last group
of the first goes on in the first group of the second. Where no search fails, the former finds the
union of what the texts find, and the latter the intersection if each text has one group, in the
order of the numbers of the items. -/
theorem search_joined {first second : String} {query other : Query}
    (left : Query.parse first = .ok query) (right : Query.parse second = .ok other)
    (leftGroups : query.groups ≠ []) (rightGroups : other.groups ≠ []) :
    Query.parse (first ++ " | " ++ second) = .ok (query.orElse other) ∧
      Query.parse (first ++ " OR " ++ second) = .ok (query.orElse other) ∧
      Query.parse (first ++ " " ++ second) = .ok (query.continuedBy other) ∧
      ∀ catalog : Catalog, catalog.Reachable → ∀ found more,
        catalog.search? query none = some found → catalog.search? other none = some more →
          (∀ all, catalog.search? (query.orElse other) none = some all →
            (all.map Item.id).Pairwise (· < ·) ∧
              ∀ item, item ∈ all ↔ item ∈ found ∨ item ∈ more) ∧
          (query.groups.length = 1 → other.groups.length = 1 →
            ∀ both, catalog.search? (query.continuedBy other) none = some both →
              (both.map Item.id).Pairwise (· < ·) ∧
                ∀ item, item ∈ both ↔ item ∈ found ∧ item ∈ more) := by
  have nonempty := Query.nil_notMem_of_parse left
  have filled := Query.nil_notMem_of_parse right
  refine ⟨Query.parse_orElse Query.joint_bar left right leftGroups rightGroups,
    Query.parse_orElse Query.joint_or left right leftGroups rightGroups,
    Query.parse_continuedBy left right leftGroups rightGroups, ?_⟩
  intro catalog reached found more searched sought
  have sound := reached.sound
  rw [search?_none_eq_some sound searched, search?_none_eq_some sound sought]
  constructor
  · intro all united
    rw [search?_none_eq_some sound united]
    refine ⟨matching_ascending sound.consistent _, fun item => ?_⟩
    simp only [mem_matching_iff, Query.holds_orElse _ _ leftGroups nonempty rightGroups filled,
      Bool.or_eq_true]
    exact and_or_left
  · intro one another both shared
    obtain ⟨group, alone⟩ := List.length_eq_one_iff.mp one
    obtain ⟨next, single⟩ := List.length_eq_one_iff.mp another
    rw [search?_none_eq_some sound shared]
    refine ⟨matching_ascending sound.consistent _, fun item => ?_⟩
    simp only [mem_matching_iff, Query.holds_continuedBy _ _ alone single nonempty filled,
      Bool.and_eq_true]
    exact and_and_left

/-- Of four items two have the artist and two a tempo above the bound, one of them both. -/
theorem search_joined_of_tempo :
    let store := (((MemoryStore.new.put "a" "1s artist +Bo bpm +128" ⟨"a.mp3", true⟩).put "b"
      "1s artist +Bo" ⟨"b.mp3", true⟩).put "c" "1s bpm +130" ⟨"c.mp3", true⟩).put "d"
      "1s title +Yes" ⟨"d.mp3", true⟩
    let catalog := (Catalog.empty.build 1 store.answers).catalog
    let query : Query := ⟨[[.text "bo" false]]⟩
    let other : Query := ⟨[[.filter { field := .bpm, operator := .above, value := "120" }]]⟩
    catalog.Reachable ∧
      Query.parse ("bo" ++ " | " ++ "bpm:>120") = .ok (query.orElse other) ∧
      Query.parse ("bo" ++ " OR " ++ "bpm:>120") = .ok (query.orElse other) ∧
      Query.parse ("bo" ++ " " ++ "bpm:>120") = .ok (query.continuedBy other) ∧
      ∃ found more all both, catalog.search? query none = some found ∧
        catalog.search? other none = some more ∧
        catalog.search? (query.orElse other) none = some all ∧
        catalog.search? (query.continuedBy other) none = some both ∧
        all.map Item.key = ["a", "b", "c"] ∧ both.map Item.key = ["a"] ∧
        (∀ item, item ∈ all ↔ item ∈ found ∨ item ∈ more) ∧
        ∀ item, item ∈ both ↔ item ∈ found ∧ item ∈ more := by
  intro store catalog query other
  have reached : catalog.Reachable := Reachable.empty.build 1 store.answers
  have left : Query.parse "bo" = .ok query := by decide +kernel
  have right : Query.parse "bpm:>120" = .ok other := by decide +kernel
  obtain ⟨bar, word, blank, meaning⟩ := search_joined left right (by decide) (by decide)
  obtain ⟨found, searched⟩ : ∃ found, catalog.search? query none = some found :=
    Option.isSome_iff_exists.mp (by decide +kernel)
  obtain ⟨more, sought⟩ : ∃ more, catalog.search? other none = some more :=
    Option.isSome_iff_exists.mp (by decide +kernel)
  obtain ⟨all, united, allKeys⟩ : ∃ all, catalog.search? (query.orElse other) none = some all ∧
      all.map Item.key = ["a", "b", "c"] := Option.map_eq_some_iff.mp (by decide +kernel)
  obtain ⟨both, shared, bothKeys⟩ : ∃ both,
      catalog.search? (query.continuedBy other) none = some both ∧ both.map Item.key = ["a"] :=
    Option.map_eq_some_iff.mp (by decide +kernel)
  obtain ⟨union, intersection⟩ := meaning catalog reached found more searched sought
  exact ⟨reached, bar, word, blank, found, more, all, both, searched, sought, united, shared,
    allKeys, bothKeys, (union all united).2, (intersection rfl rfl both shared).2⟩

end Catalog

end AnnexCatalog
