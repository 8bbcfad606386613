import AnnexCatalog.Proofs.Search.Results

/-! # Searches that do not fail

Trying a condition fails only if it has a phrase that cannot be looked up, and the condition of a
clause nests at most eleven levels deep, with seven more inside (`Clause.within_depth`). So a search
for a few clauses that can all be tried finds what the query means (`search?_of_readable`), and a
search for one clause fails exactly if the clause cannot be tried and there are items to try it on
(`search?_singleton_eq_none_iff`).
-/

namespace AnnexCatalog

/-! ### Trials that do not fail -/

namespace Verdict

/-- Conditions that are all decided have a verdict together. -/
theorem isSome_all {verdicts : List Verdict} (decided : none ∉ verdicts) :
    (all verdicts).isSome = true := by
  induction verdicts with
  | nil => rfl
  | cons verdict rest step =>
      obtain ⟨known, later⟩ := not_or.mp (List.mem_cons.not.mp decided)
      rcases verdict with - | - | -
      · exact absurd rfl known
      · rfl
      · exact step later

/-- Alternatives that are all decided have a verdict together. -/
theorem isSome_any {verdicts : List Verdict} (decided : none ∉ verdicts) :
    (any verdicts).isSome = true := by
  induction verdicts with
  | nil => rfl
  | cons verdict rest step =>
      obtain ⟨known, later⟩ := not_or.mp (List.mem_cons.not.mp decided)
      rcases verdict with - | - | -
      · exact absurd rfl known
      · exact step later
      · rfl

/-- Conditions that all fail have no verdict together. -/
theorem all_eq_none {verdicts : List Verdict} (some : verdicts ≠ [])
    (failed : ∀ verdict ∈ verdicts, verdict = none) : all verdicts = none := by
  obtain ⟨first, rest, rfl⟩ := List.exists_cons_of_ne_nil some
  rw [failed first List.mem_cons_self]
  rfl

/-- Alternatives that all fail have no verdict together. -/
theorem any_eq_none {verdicts : List Verdict} (some : verdicts ≠ [])
    (failed : ∀ verdict ∈ verdicts, verdict = none) : any verdicts = none := by
  obtain ⟨first, rest, rfl⟩ := List.exists_cons_of_ne_nil some
  rw [failed first List.mem_cons_self]
  rfl

end Verdict

namespace Condition

variable {catalog : Catalog} {row : Row}

/-- Trying a group of conditions in some order does not fail if all of them can be tried. -/
theorem isSome_all_verdicts {order conditions : List Condition} (perm : order.Perm conditions)
    (readable : ∀ condition ∈ conditions, condition.isUnreadable = false) :
    (Verdict.all (order.map (verdict catalog row))).isSome = true := by
  refine Verdict.isSome_all fun failed => ?_
  obtain ⟨condition, member, tried⟩ := List.mem_map.mp failed
  rw [verdict, readable condition (perm.subset member)] at tried
  cases tried

/-- Where all conditions can be tried, the verdict is the outcome of the groups. -/
theorem groupsVerdict_of_readable {groups : List (List Condition)}
    (readable : ∀ group ∈ groups, ∀ condition ∈ group, condition.isUnreadable = false) (row : Row) :
    groupsVerdict catalog groups row = some (groups.any fun group => group.all fun condition =>
      (condition.truth catalog row).settle) := by
  have decided : (groupsVerdict catalog groups row).isSome = true := by
    unfold groupsVerdict
    split
    · rfl
    · split
      · exact isSome_all_verdicts (soleOrder_perm _) (readable _ List.mem_cons_self)
      · -- A group that fails would have a condition that cannot be tried, in whatever order.
        refine Verdict.isSome_any fun failed => ?_
        obtain ⟨group, member, tried⟩ := List.mem_map.mp failed
        have known : (Verdict.all ((trialOrder looksUp group).map
            (verdict catalog row))).isSome = true :=
          isSome_all_verdicts (trialOrder_perm looksUp group)
            (readable group ((trialOrder_perm _ _).subset member))
        rw [tried] at known
        cases known
  obtain ⟨outcome, tried⟩ := Option.isSome_iff_exists.mp decided
  rw [tried, groupsVerdict_eq_some tried]

/-- A row cannot be tried where no condition can. -/
theorem groupsVerdict_eq_none {groups : List (List Condition)} (some : groups ≠ [])
    (nonempty : [] ∉ groups)
    (unreadable : ∀ group ∈ groups, ∀ condition ∈ group, condition.isUnreadable = true)
    (catalog : Catalog) (row : Row) : groupsVerdict catalog groups row = none := by
  have fails {order group : List Condition} (perm : order.Perm group) (listed : group ∈ groups) :
      Verdict.all (order.map (verdict catalog row)) = none := by
    refine Verdict.all_eq_none ?_ ?_
    · rintro empty
      rw [List.map_eq_nil_iff.mp empty] at perm
      exact nonempty (perm.nil_eq ▸ listed)
    · intro tried member
      obtain ⟨condition, inside, rfl⟩ := List.mem_map.mp member
      exact if_pos (unreadable group listed condition (perm.subset inside))
  have varies : groups.any (· == [.always]) = false := by
    refine List.any_eq_false.mpr fun group listed same => ?_
    have always := unreadable group listed .always (by rw [beq_iff_eq.mp same]; exact .head _)
    cases always
  unfold groupsVerdict
  rw [varies, if_neg Bool.false_ne_true]
  split
  · exact fails (soleOrder_perm _) List.mem_cons_self
  · refine Verdict.any_eq_none ?_ ?_
    · rintro empty
      have order := trialOrder_perm (fun group => List.any group looksUp) groups
      rw [List.map_eq_nil_iff.mp empty] at order
      exact some order.nil_eq.symm
    · intro tried member
      obtain ⟨group, inside, rfl⟩ := List.mem_map.mp member
      exact fails (trialOrder_perm _ _) ((trialOrder_perm _ _).subset inside)

/-- A sole condition that cannot be tried fails on every row. -/
theorem groupsVerdict_of_isUnreadable {condition : Condition}
    (unreadable : condition.isUnreadable = true) (row : Row) :
    groupsVerdict catalog [[condition]] row = none :=
  groupsVerdict_eq_none (by simp) (by simp) (by simpa using unreadable) catalog row

end Condition

/-! ### Nesting -/

/-- A nesting of at most so many levels, with at most so many inside. -/
structure Depth.Within (levels inner : Nat) (depth : Depth) : Prop where
  levels_le : depth.levels ≤ levels
  inner_le : depth.inner ≤ inner

namespace Depth.Within

variable {levels more inner : Nat} {first second : Depth}

/-- What lies within some levels lies within more. -/
theorem mono (within : Within levels inner first) (fewer : levels ≤ more) :
    Within more inner first :=
  ⟨Nat.le_trans within.levels_le fewer, within.inner_le⟩

/-- Two conditions that are joined take one level more. -/
theorem join (left : Within levels inner first) (right : Within levels inner second) :
    Within (levels + 1) inner (first.join second) :=
  ⟨Nat.succ_le_succ (Nat.max_le.mpr ⟨left.levels_le, right.levels_le⟩),
    Nat.max_le.mpr ⟨left.inner_le, right.inner_le⟩⟩

/-- A condition that is raised takes one level more. -/
theorem raise (within : Within levels inner first) : Within (levels + 1) inner first.raise :=
  ⟨Nat.succ_le_succ within.levels_le, within.inner_le⟩

/-- Conditions that are joined one after another take one level for each. -/
theorem foldl_join {depths : List Depth} (begins : Within more inner first)
    (all : ∀ depth ∈ depths, Within levels inner depth) (fewer : levels ≤ more) :
    Within (more + depths.length) inner (depths.foldl Depth.join first) := by
  induction depths generalizing first more with
  | nil => exact begins
  | cons next rest step =>
      have here := (all next List.mem_cons_self).mono fewer
      have later := step (begins.join here) (fun depth member =>
        all depth (List.mem_cons_of_mem _ member)) (Nat.le_succ_of_le fewer)
      rw [Nat.add_right_comm] at later
      exact later

/-- Joined conditions nest as deep as the deepest and, at most, one level for each of them. -/
theorem joinAll_map {α : Type} {depth : α → Depth} {parts : List α}
    (all : ∀ part ∈ parts, Within levels inner (depth part)) (positive : 1 ≤ levels) :
    Within (levels + parts.length) inner (Depth.joinAll (parts.map depth)) := by
  cases parts with
  | nil => exact ⟨positive, Nat.zero_le _⟩
  | cons first rest =>
      have others : ∀ other ∈ rest.map depth, Within levels inner other := by
        intro other member
        obtain ⟨part, listed, rfl⟩ := List.mem_map.mp member
        exact all part (List.mem_cons_of_mem _ listed)
      have joined := foldl_join (all first List.mem_cons_self) others (Nat.le_refl _)
      rw [List.length_map] at joined
      exact joined.mono (Nat.le_succ _)

end Depth.Within

open Depth (Within)

theorem Test.levels_le (test : Test) : test.levels ≤ 6 := by
  rcases test with ⟨- | -, -⟩ | ⟨- | -, -⟩ | - | - | - <;> simp [Test.levels, Depth.column]

namespace Query

/-- The condition of a filter takes at most nine levels. -/
theorem Filter.within_depth (filter : Filter) : Within 9 7 filter.condition.depth := by
  have column : Within 8 7 (Condition.column filter.field filter.test).depth :=
    ⟨Nat.le_trans filter.test.levels_le (by decide), Nat.zero_le _⟩
  have member : Within 8 7 (Condition.member filter.field filter.test).depth := by
    have inner : max (Depth.column + 2) filter.test.levels + 1 ≤ 7 :=
      Nat.succ_le_succ (Nat.max_le.mpr ⟨by decide, filter.test.levels_le⟩)
    exact ⟨Nat.succ_le_succ inner, inner⟩
  unfold Filter.condition
  split
  · exact ⟨by simp [Condition.depth, Depth.lookUp, Depth.column],
      by simp [Condition.depth, Depth.lookUp, Depth.column]⟩
  · split
    · exact ⟨by simp [Condition.depth, Depth.column], Nat.zero_le _⟩
    · exact member.mono (by decide)
    · exact column.mono (by decide)
    all_goals exact column.join member

/-- The condition of a term takes at most nine levels. -/
theorem within_depth_term (value : String) : Within 9 7 (termCondition value).depth := by
  unfold termCondition
  dsimp only
  split
  · exact ⟨by decide, by decide⟩
  · split
    · exact ⟨by simp [Condition.depth, Depth.column], by simp [Condition.depth]⟩
    · exact ⟨Nat.le_of_eq rfl, Nat.zero_le _⟩

/-- The condition of a clause nests little, whatever the clause asks for. -/
theorem Clause.within_depth (clause : Clause) : Within 11 7 clause.condition.depth := by
  have signed (negated : Bool) {condition : Condition} (plain : Within 9 7 condition.depth) :
      Within 11 7 (signed negated condition).depth := by
    cases negated with
    | false => exact plain.raise.mono (by decide)
    | true => exact plain.raise.raise
  cases clause with
  | text value negated => exact signed negated (within_depth_term value)
  | filter test => exact signed test.negated test.within_depth

/-- A clause cannot be tried where its condition cannot, whatever its sign. -/
theorem isUnreadable_signed (negated : Bool) (condition : Condition) :
    (signed negated condition).isUnreadable = condition.isUnreadable := by
  cases negated <;> rfl

/-- A filter looks up no phrase, so it can always be tried. -/
theorem Filter.isUnreadable_condition (filter : Filter) :
    filter.condition.isUnreadable = false := by
  unfold Filter.condition
  split
  · rfl
  · split <;> rfl

/-- The conditions of a query of one group with clauses. -/
theorem conditions_group (first : Clause) (rest : List Clause) :
    (⟨[first :: rest]⟩ : Query).conditions = [(first :: rest).map Clause.condition] :=
  rfl

/-! ### Parameters -/

/-- A query is refused for its depth or for its parameters. -/
theorem isRefused_iff {query : Query} :
    query.isRefused = true ↔
      isTooDeep query.conditions = true ∨ parameterLimit < query.parameters := by
  rw [isRefused, Bool.or_eq_true, decide_eq_true_eq]

/-- A query is accepted if it is neither too deep nor has too many parameters. -/
theorem isRefused_eq_false_iff {query : Query} :
    query.isRefused = false ↔
      isTooDeep query.conditions = false ∧ query.parameters ≤ parameterLimit := by
  rw [isRefused, Bool.or_eq_false_iff, decide_eq_false_iff_not, Nat.not_lt]

/-- A filter has at most two bounds, which are tried in two places, in one of them under the name of
its field. -/
theorem Clause.parameters_le (clause : Clause) : clause.parameters ≤ 5 := by
  cases clause with
  | text value negated =>
      rw [Clause.parameters]
      split <;> decide
  | filter condition =>
      have bounds : condition.bounds ≤ 2 := by
        rw [Filter.bounds]
        split <;> decide
      rw [Clause.parameters, Filter.parameters]
      split
      · decide
      · split <;> omega

/-- A query has at most five parameters for each of its clauses. -/
theorem parameters_le (query : Query) :
    query.parameters ≤ 5 * query.groups.flatten.length := by
  rw [parameters]
  induction query.groups.flatten with
  | nil => exact Nat.le_refl 0
  | cons clause rest step =>
      have first := clause.parameters_le
      rw [List.foldr_cons, List.length_cons]
      omega

/-- The query of one filter. -/
def ofFilter (filter : Filter) : Query :=
  ⟨[[.filter filter]]⟩

end Query

namespace Catalog

variable {catalog : Catalog} {query : Query} {clause : Query.Clause}

/-- A query of few groups of few clauses does not nest too deep. -/
theorem isTooDeep_conditions (size : Nat) (short : ∀ group ∈ query.groups, group.length ≤ size)
    (few : query.groups.length + size ≤ 980) : isTooDeep query.conditions = false := by
  have always : Within 1 7 Condition.always.depth := ⟨Nat.le_refl _, Nat.zero_le _⟩
  have group : ∀ group ∈ query.groups,
      Within (11 + size) 7 (Depth.joinAll ((Query.groupConditions group).map Condition.depth)) := by
    intro group member
    rw [Query.groupConditions]
    split
    · exact always.mono (by omega)
    · rw [List.map_map]
      have joined := Within.joinAll_map (fun clause (_ : clause ∈ group) => clause.within_depth)
        (by decide)
      exact joined.mono (Nat.add_le_add_left (short group member) 11)
  have whole : Within 991 7
      (Depth.joinAll (query.conditions.map fun group =>
        Depth.joinAll (group.map Condition.depth))) := by
    rw [Query.conditions]
    split
    · exact always.mono (by decide)
    · rw [List.map_map]
      exact (Within.joinAll_map group (by omega)).mono (by omega)
  rw [isTooDeep, decide_eq_false_iff_not, Nat.not_lt]
  have levels := whole.levels_le
  have inner := whole.inner_le
  unfold Depth.limit
  omega

/-- A query of one group that has not many clauses is not refused. -/
theorem isRefused_group {group : List Query.Clause} (short : group.length ≤ 979) :
    (⟨[group]⟩ : Query).isRefused = false := by
  refine Query.isRefused_eq_false_iff.mpr
    ⟨isTooDeep_conditions 979 (by simpa using short) (by simp), ?_⟩
  have few := Query.parameters_le ⟨[group]⟩
  rw [List.flatten_singleton] at few
  exact Nat.le_trans few (Nat.le_trans (Nat.mul_le_mul_left 5 short) (by decide))

/-- A search for a query that is not refused finds what the query means if there is nothing to try
its clauses on or all of them can be tried. -/
theorem search?_of_readable (sound : catalog.Sound) (taken : query.isRefused = false)
    (readable : catalog.rows ≠ [] →
      ∀ group ∈ query.conditions, ∀ condition ∈ group, condition.isUnreadable = false) :
    catalog.search? query none = some (catalog.matching query) := by
  have decided : ∀ row ∈ catalog.rows,
      Condition.groupsVerdict catalog query.conditions row = some _ := fun row member =>
    Condition.groupsVerdict_of_readable (readable (List.ne_nil_of_mem member)) row
  have searched := search?_eq_some_iff.mpr
    ⟨taken, rfl, _, Query.collect_none_eq_filter decided, rfl⟩
  rw [searched, search?_none_eq_some sound searched]

/-- A search for one clause finds what matches it, if the clause can be read. -/
theorem search?_singleton (sound : catalog.Sound)
    (readable : catalog.rows ≠ [] → clause.condition.isUnreadable = false) :
    catalog.search? ⟨[[clause]]⟩ none = some (catalog.matching ⟨[[clause]]⟩) := by
  refine search?_of_readable sound (isRefused_group (by simp)) ?_
  simpa [Query.conditions_group] using readable

/-- A search for one filter does not fail. -/
theorem search?_filter (sound : catalog.Sound) (filter : Query.Filter) :
    catalog.search? (.ofFilter filter) none = some (catalog.matching (.ofFilter filter)) := by
  refine search?_singleton sound fun _ => ?_
  rw [Query.Clause.condition, Query.isUnreadable_signed, filter.isUnreadable_condition]

/-- An item matches a filter without a sign exactly if the filter holds of it. -/
theorem mem_matching_filter_iff {item : Item} (listed : item ∈ catalog.items)
    {filter : Query.Filter} (positive : filter.negated = false) :
    item ∈ catalog.matching (.ofFilter filter) ↔
      filter.holds item (catalog.emptiesOf item.id) = true := by
  rw [Query.ofFilter, mem_matching_singleton_iff listed, Query.Clause.holds, Query.Clause.negated,
    positive, if_neg Bool.false_ne_true, Query.Clause.affirms]

/-- A search for one clause fails exactly if the clause cannot be tried and there is something to
try it on. -/
theorem search?_singleton_eq_none_iff (sound : catalog.Sound) :
    catalog.search? ⟨[[clause]]⟩ none = none ↔
      catalog.rows ≠ [] ∧ clause.condition.isUnreadable = true := by
  constructor
  · intro failed
    by_contra fine
    rw [not_and, Bool.not_eq_true] at fine
    rw [search?_singleton sound fine] at failed
    cases failed
  · rintro ⟨listed, unreadable⟩
    obtain ⟨row, rest, rows⟩ := List.exists_cons_of_ne_nil listed
    have failed : Query.collect (Condition.groupsVerdict catalog [[clause.condition]]) none
        catalog.rows = none := by
      rw [rows, Query.collect_cons (by simp), Condition.groupsVerdict_of_isUnreadable unreadable]
      rfl
    simp [search?, isRefused_group, Query.conditions_group, failed]

end Catalog

end AnnexCatalog
