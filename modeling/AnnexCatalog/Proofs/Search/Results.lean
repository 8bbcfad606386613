import AnnexCatalog.Proofs.Search.Conditions
import AnnexCatalog.Search.Basic
import AnnexCatalog.Store.Memory
import Mathlib.Algebra.Group.Nat.Defs

/-! # Searching finds what a query means

The order in which conditions are tried decides whether a search fails, but not what it finds: where
trials succeed, their outcome is that of the conditions in any order (`groupsVerdict_eq_some`). So a
search returns the items of which the query holds in the order of their numbers, a limited one the
first of them, and a count their number.
-/

namespace AnnexCatalog

/-! ### Trials -/

namespace Verdict

variable {α : Type} {verdict : α → Verdict} {holds : α → Bool}

/-- If the verdicts that are given are right, those on several conditions together are. -/
theorem all_map_eq_some (agrees : ∀ trial outcome, verdict trial = some outcome →
      outcome = holds trial) {trials : List α} {outcome : Bool}
    (decided : all (trials.map verdict) = some outcome) : outcome = trials.all holds := by
  induction trials with
  | nil =>
      cases decided
      rfl
  | cons trial rest step =>
      rw [List.map_cons] at decided
      rw [List.all_cons]
      cases tried : verdict trial with
      | none =>
          rw [tried] at decided
          cases decided
      | some held =>
          rw [← agrees trial held tried]
          rw [tried] at decided
          cases held with
          | true => exact step decided
          | false =>
              cases decided
              rfl

/-- If the verdicts that are given are right, those on several alternatives are. -/
theorem any_map_eq_some (agrees : ∀ trial outcome, verdict trial = some outcome →
      outcome = holds trial) {trials : List α} {outcome : Bool}
    (decided : any (trials.map verdict) = some outcome) : outcome = trials.any holds := by
  induction trials with
  | nil =>
      cases decided
      rfl
  | cons trial rest step =>
      rw [List.map_cons] at decided
      rw [List.any_cons]
      cases tried : verdict trial with
      | none =>
          rw [tried] at decided
          cases decided
      | some held =>
          rw [← agrees trial held tried]
          rw [tried] at decided
          cases held with
          | false => exact step decided
          | true =>
              cases decided
              rfl

end Verdict

/-- All conditions are tried, in whatever order. -/
theorem trialOrder_perm {α : Type} (looksUp : α → Bool) (conditions : List α) :
    (trialOrder looksUp conditions).Perm conditions := by
  have kept (order : List α) :
      (conditions.foldl (fun order next =>
        if order.any looksUp && !looksUp next then next :: order else order ++ [next])
        order).Perm (order ++ conditions) := by
    induction conditions generalizing order with
    | nil => rw [List.foldl_nil, List.append_nil]
    | cons next rest step =>
        rw [List.foldl_cons]
        refine (step _).trans ?_
        split
        · exact List.perm_middle.symm
        · rw [List.append_assoc, List.singleton_append]
  exact kept []

namespace Condition

variable {catalog : Catalog} {row : Row}

/-- All conditions of a single group are tried, in whatever order. -/
theorem soleOrder_perm (conditions : List Condition) :
    (soleOrder conditions).Perm conditions := by
  have rest : (conditions.filter (fun condition =>
        !condition.isConstant && !condition.isCorrelated) ++
      conditions.filter fun condition => !condition.isConstant && condition.isCorrelated).Perm
        (conditions.filter fun condition => !condition.isConstant) := by
    have parts := List.filter_append_perm (fun condition : Condition => !condition.isCorrelated)
      (conditions.filter fun condition => !condition.isConstant)
    rw [List.filter_filter, List.filter_filter] at parts
    simpa only [Bool.not_not, Bool.and_comm] using parts
  exact (rest.append_left _).trans (List.filter_append_perm _ conditions)

/-- A trial that succeeds has the outcome of its condition. -/
theorem verdict_eq_some {condition : Condition} {outcome : Bool}
    (tried : verdict catalog row condition = some outcome) :
    outcome = (condition.truth catalog row).settle := by
  unfold verdict at tried
  split at tried
  · cases tried
  · exact (Option.some.inj tried).symm

/-- Trials of groups that succeed have the outcome of the groups. -/
theorem groupsVerdict_eq_some {groups : List (List Condition)} {outcome : Bool}
    (tried : groupsVerdict catalog groups row = some outcome) :
    outcome = groups.any fun group => group.all fun condition =>
      (condition.truth catalog row).settle := by
  have conjunction {order conditions : List Condition} {outcome : Bool}
      (perm : order.Perm conditions)
      (tried : Verdict.all (order.map (verdict catalog row)) = some outcome) :
      outcome = conditions.all fun condition => (condition.truth catalog row).settle := by
    rw [← perm.all_eq]
    exact Verdict.all_map_eq_some (fun _ _ => verdict_eq_some) tried
  unfold groupsVerdict at tried
  split at tried
  · next trivial =>
      obtain ⟨group, member, same⟩ := List.any_eq_true.mp trivial
      cases tried
      symm
      refine List.any_eq_true.mpr ⟨group, member, ?_⟩
      rw [beq_iff_eq.mp same]
      rfl
  · split at tried
    · rw [List.any_cons, List.any_nil, Bool.or_false]
      exact conjunction (soleOrder_perm _) tried
    · rw [← (trialOrder_perm (fun group => group.any looksUp) groups).any_eq]
      exact Verdict.any_map_eq_some
        (fun group _ => conjunction (trialOrder_perm looksUp group)) tried

end Condition

/-! ### Collecting and counting -/

namespace Query

variable {verdict : Row → Verdict} {holds : Row → Bool} {found : List Row}

theorem collect_zero (verdict : Row → Verdict) (rows : List Row) :
    collect verdict (some 0) rows = some [] := by
  cases rows <;> rfl

theorem collect_nil (verdict : Row → Verdict) (limit : Option Nat) :
    collect verdict limit [] = some [] := by
  rcases limit with - | - | - <;> rfl

/-- Whether a row is collected, and how collecting goes on. -/
theorem collect_cons {limit : Option Nat} (positive : limit ≠ some 0) (row : Row)
    (rest : List Row) :
    collect verdict limit (row :: rest) = (verdict row).bind fun passes =>
      if passes then (collect verdict (limit.map (· - 1)) rest).map (row :: ·)
      else collect verdict limit rest := by
  rcases limit with - | - | count
  · rcases tried : verdict row with - | - | - <;> simp [collect, tried]
  · exact absurd rfl positive
  · rcases tried : verdict row with - | - | - <;> simp [collect, tried]

/-- A row is passed over or taken as its verdict says, and the others are collected with the room
that is left. -/
theorem collect_cons_eq_some_iff {limit : Option Nat} {row : Row} {rest : List Row}
    (positive : limit ≠ some 0) :
    collect verdict limit (row :: rest) = some found ↔
      verdict row = some false ∧ collect verdict limit rest = some found ∨
        verdict row = some true ∧ ∃ others,
          collect verdict (limit.map (· - 1)) rest = some others ∧ row :: others = found := by
  rw [collect_cons positive]
  rcases verdict row with - | - | - <;> simp

/-- What is collected without a limit are the rows that hold. -/
theorem eq_filter_of_collect {rows : List Row}
    (agrees : ∀ row ∈ rows, ∀ outcome, verdict row = some outcome → outcome = holds row)
    (collected : collect verdict none rows = some found) : found = rows.filter holds := by
  induction rows generalizing found with
  | nil =>
      cases collected
      rfl
  | cons row rest step =>
      replace step := fun {found} => @step found fun other member =>
        agrees other (List.mem_cons_of_mem _ member)
      have agrees := agrees row List.mem_cons_self
      rcases (collect_cons_eq_some_iff (by simp)).mp collected with ⟨fails, later⟩ | ⟨passes, later⟩
      · rw [step later, List.filter_cons_of_neg]
        rw [← agrees false fails]
        exact Bool.false_ne_true
      · obtain ⟨others, gathered, rfl⟩ := later
        rw [step gathered, List.filter_cons_of_pos (agrees true passes).symm]

/-- Where no trial fails, the rows that hold are collected. -/
theorem collect_none_eq_filter {rows : List Row}
    (decided : ∀ row ∈ rows, verdict row = some (holds row)) :
    collect verdict none rows = some (rows.filter holds) := by
  induction rows with
  | nil => exact collect_nil verdict none
  | cons row rest step =>
      have later := step fun other member => decided other (List.mem_cons_of_mem _ member)
      have here := decided row List.mem_cons_self
      refine (collect_cons_eq_some_iff (by simp)).mpr ?_
      cases held : holds row with
      | true => exact .inr ⟨held ▸ here, _, later, (List.filter_cons_of_pos held).symm⟩
      | false =>
          rw [List.filter_cons_of_neg (held ▸ Bool.false_ne_true)]
          exact .inl ⟨held ▸ here, later⟩

/-- What is collected up to a limit are the first rows that hold. -/
theorem eq_take_of_collect {rows : List Row} {limit : Nat}
    (agrees : ∀ row ∈ rows, ∀ outcome, verdict row = some outcome → outcome = holds row)
    (collected : collect verdict (some limit) rows = some found) :
    found = (rows.filter holds).take limit := by
  induction rows generalizing limit found with
  | nil =>
      rw [collect_nil] at collected
      cases collected
      exact List.take_nil.symm
  | cons row rest step =>
      replace step := fun {limit found} => @step found limit fun other member =>
        agrees other (List.mem_cons_of_mem _ member)
      have agrees := agrees row List.mem_cons_self
      cases limit with
      | zero =>
          rw [collect_zero] at collected
          cases collected
          rfl
      | succ limit =>
          rcases (collect_cons_eq_some_iff (by simp)).mp collected with
            ⟨fails, later⟩ | ⟨passes, later⟩
          · rw [step later, List.filter_cons_of_neg]
            rw [← agrees false fails]
            exact Bool.false_ne_true
          · obtain ⟨others, gathered, rfl⟩ := later
            rw [List.filter_cons_of_pos (agrees true passes).symm, List.take_succ_cons]
            exact congrArg (row :: ·) (step gathered)

/-- A limit takes the first of all that can be collected. -/
theorem collect_of_collect_none {rows : List Row}
    (collected : collect verdict none rows = some found) (limit : Nat) :
    collect verdict (some limit) rows = some (found.take limit) := by
  induction rows generalizing limit found with
  | nil =>
      rw [collect_nil] at collected ⊢
      cases collected
      rw [List.take_nil]
  | cons row rest step =>
      cases limit with
      | zero => exact collect_zero verdict _
      | succ limit =>
          refine (collect_cons_eq_some_iff (by simp)).mpr ?_
          rcases (collect_cons_eq_some_iff (by simp)).mp collected with
            ⟨fails, later⟩ | ⟨passes, later⟩
          · exact .inl ⟨fails, step later _⟩
          · obtain ⟨others, gathered, rfl⟩ := later
            exact .inr ⟨passes, _, step gathered limit, rfl⟩

/-- Where fewer are collected than the limit allows, nothing is left out. -/
theorem collect_none_of_length_lt {rows : List Row} {limit : Nat}
    (collected : collect verdict (some limit) rows = some found) (short : found.length < limit) :
    collect verdict none rows = some found := by
  induction rows generalizing limit found with
  | nil =>
      rw [collect_nil] at collected ⊢
      exact collected
  | cons row rest step =>
      cases limit with
      | zero => exact absurd short (Nat.not_lt_zero _)
      | succ limit =>
          refine (collect_cons_eq_some_iff (by simp)).mpr ?_
          rcases (collect_cons_eq_some_iff (by simp)).mp collected with
            ⟨fails, later⟩ | ⟨passes, later⟩
          · exact .inl ⟨fails, step later short⟩
          · obtain ⟨others, gathered, rfl⟩ := later
            exact .inr ⟨passes, others, step gathered (Nat.lt_of_succ_lt_succ short), rfl⟩

/-- A count is the number of what can be collected. -/
theorem tally_eq_map_length (verdict : Row → Verdict) (rows : List Row) :
    tally verdict rows = (collect verdict none rows).map List.length := by
  induction rows with
  | nil => rfl
  | cons row rest step =>
      rw [collect_cons (Option.some_ne_none 0).symm, tally, step]
      simp only [Option.map_none]
      rcases verdict row with - | - | -
      · rfl
      · cases collect verdict none rest <;> rfl
      · cases collect verdict none rest <;> rfl

end Query

namespace Catalog

variable {catalog : Catalog} {row : Row}

/-- The groups of conditions of a query hold exactly of the items of which the query holds. -/
theorem any_conditions (sound : catalog.Sound) (member : row ∈ catalog.rows) (query : Query) :
    (query.conditions.any fun group => group.all fun condition =>
        (condition.truth catalog row).settle) =
      query.holds (catalog.itemOf row) (catalog.emptiesOf row.id) := by
  unfold Query.conditions Query.holds Query.isMatchAll
  by_cases empty : query.groups.all List.isEmpty = true
  · rw [if_pos empty, empty]
    rfl
  · rw [if_neg empty]
    rw [Bool.not_eq_true] at empty
    rw [empty, Bool.false_or, List.any_map]
    congr 1
    funext group
    rw [Function.comp_apply, Query.groupConditions]
    cases group with
    | nil => rfl
    | cons clause rest =>
        rw [List.isEmpty_cons, if_neg Bool.false_ne_true, List.all_map]
        congr 1
        funext clause
        exact settle_truth_condition sound member clause

/-- The verdict on a row of a sound catalog is whether the query holds of its item. -/
theorem groupsVerdict_conditions (sound : catalog.Sound) (member : row ∈ catalog.rows)
    {query : Query} {outcome : Bool}
    (tried : Condition.groupsVerdict catalog query.conditions row = some outcome) :
    outcome = query.holds (catalog.itemOf row) (catalog.emptiesOf row.id) :=
  (Condition.groupsVerdict_eq_some tried).trans (any_conditions sound member query)

/-- The items of which a query holds, in the order of their numbers. -/
def matching (catalog : Catalog) (query : Query) : List Item :=
  catalog.items.filter fun item => query.holds item (catalog.emptiesOf item.id)

/-- An item matches a query exactly if it is in the catalog and the query holds of it. -/
theorem mem_matching_iff {query : Query} {item : Item} :
    item ∈ catalog.matching query ↔
      item ∈ catalog.items ∧ query.holds item (catalog.emptiesOf item.id) = true :=
  List.mem_filter

theorem matching_singleton (catalog : Catalog) (clause : Query.Clause) :
    catalog.matching ⟨[[clause]]⟩ =
      catalog.items.filter fun item => clause.holds item (catalog.emptiesOf item.id) := by
  simp [matching, Query.holds]

/-- In a consistent catalog, the matching items are those of the rows of which the query holds. -/
theorem matching_eq_map (consistent : catalog.Consistent) (query : Query) :
    catalog.matching query = (catalog.rows.filter fun row =>
      query.holds (catalog.itemOf row) (catalog.emptiesOf row.id)).map catalog.itemOf := by
  rw [matching, items_eq_map consistent, List.filter_map]
  rfl

/-- A search succeeds exactly if the query is not refused, the limit can be bound, and rows are
collected. -/
theorem search?_eq_some_iff {query : Query} {limit : Option Nat} {found : List Item} :
    catalog.search? query limit = some found ↔
      query.isRefused = false ∧ limit.any (Query.limitBound ≤ ·) = false ∧
        ∃ rows, Query.collect (Condition.groupsVerdict catalog query.conditions) limit
          catalog.rows = some rows ∧ catalog.attach rows = found := by
  unfold search?
  split
  · next refused =>
      simp only [reduceCtorEq, false_iff, not_and]
      intro taken bounded
      rw [taken, bounded] at refused
      cases refused
  · next accepted =>
      rw [Bool.or_eq_true, not_or, Bool.not_eq_true, Bool.not_eq_true] at accepted
      rw [Option.map_eq_some_iff]
      simp only [accepted.1, accepted.2, true_and]

/-- A search without a limit finds the items of which the query holds. -/
theorem search?_none_eq_some (sound : catalog.Sound) {query : Query} {found : List Item}
    (searched : catalog.search? query none = some found) : found = catalog.matching query := by
  obtain ⟨-, -, rows, collected, rfl⟩ := search?_eq_some_iff.mp searched
  rw [Query.eq_filter_of_collect (fun row member _ => groupsVerdict_conditions sound member)
    collected, matching_eq_map sound.consistent]
  exact attach_eq_map (sound.consistent.ids_nodup List.filter_sublist)

/-- A search with a limit finds the first of them. -/
theorem search?_some_eq_some (sound : catalog.Sound) {query : Query} {limit : Nat}
    {found : List Item} (searched : catalog.search? query (some limit) = some found) :
    found = (catalog.matching query).take limit := by
  obtain ⟨-, -, rows, collected, rfl⟩ := search?_eq_some_iff.mp searched
  rw [Query.eq_take_of_collect (fun row member _ => groupsVerdict_conditions sound member)
    collected, matching_eq_map sound.consistent, ← List.map_take]
  exact attach_eq_map (sound.consistent.ids_nodup
    ((List.take_sublist _ _).trans List.filter_sublist))

/-- A search that finds all items also finds the first of them. -/
theorem search?_of_search?_none (consistent : catalog.Consistent) {query : Query}
    {found : List Item} (searched : catalog.search? query none = some found) {limit : Nat}
    (small : limit < 2 ^ 63) : catalog.search? query (some limit) = some (found.take limit) := by
  obtain ⟨taken, -, rows, collected, rfl⟩ := search?_eq_some_iff.mp searched
  have part : rows.Sublist catalog.rows := by
    have agrees : ∀ row ∈ catalog.rows, ∀ outcome,
        Condition.groupsVerdict catalog query.conditions row = some outcome →
          outcome = (Condition.groupsVerdict catalog query.conditions row == some true) := by
      intro row _ outcome tried
      rw [tried]
      cases outcome <;> rfl
    rw [Query.eq_filter_of_collect agrees collected]
    exact List.filter_sublist
  refine search?_eq_some_iff.mpr ⟨taken, ?_, _, Query.collect_of_collect_none collected limit, ?_⟩
  · exact decide_eq_false (Nat.not_le.mpr small)
  · rw [attach_eq_map (consistent.ids_nodup part),
      attach_eq_map (consistent.ids_nodup ((List.take_sublist _ _).trans part)), List.map_take]

/-- A search that finds fewer items than it may finds all. -/
theorem search?_none_of_length_lt {query : Query} {limit : Nat} {found : List Item}
    (searched : catalog.search? query (some limit) = some found) (short : found.length < limit) :
    catalog.search? query none = some found := by
  obtain ⟨taken, -, rows, collected, rfl⟩ := search?_eq_some_iff.mp searched
  have same : (catalog.attach rows).length = rows.length := List.length_map _
  exact search?_eq_some_iff.mpr ⟨taken, rfl, rows,
    Query.collect_none_of_length_lt collected (same ▸ short), rfl⟩

/-- A count is the number of what a search without a limit finds. -/
theorem count?_eq_map_length (catalog : Catalog) (query : Query) :
    catalog.count? query = (catalog.search? query none).map List.length := by
  unfold count? search?
  simp only [Option.any_none, Bool.or_false]
  split
  · rfl
  · rw [Query.tally_eq_map_length, Option.map_map]
    congr 1
    funext rows
    exact (List.length_map _).symm

/-- An item of the catalog matches one clause exactly if the clause holds of it. -/
theorem mem_matching_singleton_iff {clause : Query.Clause} {item : Item}
    (listed : item ∈ catalog.items) :
    item ∈ catalog.matching ⟨[[clause]]⟩ ↔
      clause.holds item (catalog.emptiesOf item.id) = true := by
  rw [matching_singleton, List.mem_filter, and_iff_right listed]

/-- Items of which a query holds are in the order of their numbers, and each is the item of its
key. A search that does not fail finds exactly these; with a limit, it does not fail either, and
finds the first of them. A count is the number of what a search finds. A search with a limit that
does not fail finds the first of the items, too, and all that are counted if it finds fewer than it
may. -/
theorem Reachable.search_eq_matching (reached : catalog.Reachable) (query : Query) :
    ((catalog.matching query).map Item.id).Pairwise (· < ·) ∧
      (∀ item ∈ catalog.matching query, catalog.find? item.key = some item) ∧
      (∀ found, catalog.search? query none = some found → found = catalog.matching query ∧
        ∀ limit < 2 ^ 63, catalog.search? query (some limit) = some (found.take limit)) ∧
      catalog.count? query = (catalog.search? query none).map List.length ∧
      ∀ limit found, catalog.search? query (some limit) = some found →
        found = (catalog.matching query).take limit ∧
          (found.length < limit → catalog.count? query = some found.length) := by
  have sound := reached.sound
  have consistent := sound.consistent
  refine ⟨?_, ?_, ?_, count?_eq_map_length catalog query, ?_⟩
  · rw [matching_eq_map consistent, List.map_map]
    exact consistent.ids_ascending.sublist (List.filter_sublist.map Row.id)
  · intro item member
    rw [matching_eq_map consistent] at member
    obtain ⟨row, listed, rfl⟩ := List.mem_map.mp member
    exact find?_key_of_mem consistent (List.mem_filter.mp listed).1
  · intro found searched
    exact ⟨search?_none_eq_some sound searched,
      fun limit small => search?_of_search?_none consistent searched small⟩
  · intro limit found searched
    refine ⟨search?_some_eq_some sound searched, fun short => ?_⟩
    rw [count?_eq_map_length, search?_none_of_length_lt searched short, Option.map_some]

/-- Of two items, one is in the crate and has an artist that begins as asked. -/
theorem search_eq_matching_of_crate :
    let store := (MemoryStore.new.put "a" "1s artist +Bo" ⟨"a.mp3", true⟩).put "b"
      "1s artist +Bob crate +x" ⟨"b.mp3", false⟩
    let catalog := (Catalog.empty.build 1 store.answers).catalog
    let query : Query :=
      ⟨[[.filter { field := .crate, operator := .exact, value := "X" }, .text "bo" false]]⟩
    catalog.Reachable ∧ (catalog.search? query none).map (List.map Item.key) = some ["b"] ∧
      ((catalog.matching query).map Item.id).Pairwise (· < ·) ∧
      (∀ item ∈ catalog.matching query, catalog.find? item.key = some item) ∧
      (∀ found, catalog.search? query none = some found → found = catalog.matching query ∧
        ∀ limit < 2 ^ 63, catalog.search? query (some limit) = some (found.take limit)) ∧
      catalog.count? query = (catalog.search? query none).map List.length ∧
      ∀ limit found, catalog.search? query (some limit) = some found →
        found = (catalog.matching query).take limit ∧
          (found.length < limit → catalog.count? query = some found.length) := by
  intro store catalog query
  have reached : catalog.Reachable := Reachable.empty.build 1 store.answers
  exact ⟨reached, by decide +kernel, Reachable.search_eq_matching reached query⟩

end Catalog

end AnnexCatalog
