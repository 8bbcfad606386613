import AnnexCatalog.Proofs.Search.Failures

/-! # Present items

A restriction to present items is one more condition in each group. It looks nothing up, so it is
tried no later than what may fail, and a search that finds all it asks for still does not fail by
it, unless its conditions nest too deep (`Reachable.search_requirePresent`). The presence of an item
has no part in a query that does not ask for it (`search?_withPresence`).
-/

namespace AnnexCatalog

/-! ### One more trial -/

namespace Verdict

/-- A condition that holds in the end changes nothing. -/
theorem all_concat_true (verdicts : List Verdict) :
    all (verdicts ++ [some true]) = all verdicts := by
  induction verdicts with
  | nil => rfl
  | cons verdict rest step =>
      rcases verdict with - | - | -
      · rfl
      · rfl
      · exact step

/-- A condition that does not hold in the end decides, if those before it have a verdict. -/
theorem all_concat_false {verdicts : List Verdict} (decided : (all verdicts).isSome = true) :
    all (verdicts ++ [some false]) = some false := by
  induction verdicts with
  | nil => rfl
  | cons verdict rest step =>
      rcases verdict with - | - | -
      · cases decided
      · rfl
      · exact step decided

/-- What is decided in a row of trials stays decided with one more that does not fail. -/
theorem isSome_all_insert {front back : List Verdict}
    (decided : (all (front ++ back)).isSome = true) (outcome : Bool) :
    (all (front ++ some outcome :: back)).isSome = true := by
  induction front with
  | nil =>
      cases outcome with
      | false => rfl
      | true => exact decided
  | cons verdict rest step =>
      rcases verdict with - | - | -
      · exact decided
      · rfl
      · exact step decided

/-- A positive outcome settles what is tried later. -/
theorem any_append_of_mem {front back : List Verdict} (decided : none ∉ front)
    (positive : some true ∈ front) : any (front ++ back) = some true := by
  induction front with
  | nil => cases positive
  | cons verdict rest step =>
      obtain ⟨known, later⟩ := not_or.mp (List.mem_cons.not.mp decided)
      rcases verdict with - | - | -
      · exact absurd rfl known
      · exact step later (by simpa using positive)
      · rfl

/-- No alternative holds if each of them is known not to hold. -/
theorem any_eq_false {verdicts : List Verdict}
    (negative : ∀ verdict ∈ verdicts, verdict = some false) : any verdicts = some false := by
  induction verdicts with
  | nil => rfl
  | cons verdict rest step =>
      rw [negative verdict List.mem_cons_self]
      exact step fun other member => negative other (List.mem_cons_of_mem _ member)

end Verdict

section Order

variable {α β : Type} (looksUp : α → Bool)

/-- One more condition is tried first if it needs no look-up and an earlier one does, and last
otherwise. -/
theorem trialOrder_concat (conditions : List α) (next : α) :
    trialOrder looksUp (conditions ++ [next]) =
      if conditions.any looksUp && !looksUp next then next :: trialOrder looksUp conditions
      else trialOrder looksUp conditions ++ [next] := by
  rw [← (trialOrder_perm looksUp conditions).any_eq]
  simp [trialOrder, List.foldl_append]

/-- The order in which conditions are tried depends on their look-ups only. -/
theorem trialOrder_map (convert : β → α) (conditions : List β) :
    trialOrder looksUp (conditions.map convert) =
      (trialOrder (fun condition => looksUp (convert condition)) conditions).map convert := by
  induction conditions using List.reverseRecOn with
  | nil => rfl
  | append_singleton rest next step =>
      rw [List.map_append, List.map_singleton, trialOrder_concat, trialOrder_concat, step,
        List.any_map, Function.comp_def]
      split <;> simp

/-- What looks nothing up is tried before what does. -/
theorem exists_trialOrder_eq_append (conditions : List α) :
    ∃ front back, trialOrder looksUp conditions = front ++ back ∧
      (∀ condition ∈ front, looksUp condition = false) ∧
        ∀ condition ∈ back, looksUp condition = true := by
  induction conditions using List.reverseRecOn with
  | nil => exact ⟨[], [], rfl, nofun, nofun⟩
  | append_singleton rest next step =>
      obtain ⟨front, back, order, cheap, costly⟩ := step
      rw [trialOrder_concat, order]
      cases kind : looksUp next with
      | true =>
          refine ⟨front, back ++ [next], by simp, cheap, ?_⟩
          simpa [or_imp, forall_and, kind] using costly
      | false =>
          have others : rest.any looksUp = (front ++ back).any looksUp := by
            rw [← order, (trialOrder_perm looksUp rest).any_eq]
          split
          · refine ⟨next :: front, back, rfl, ?_, costly⟩
            simpa [kind] using cheap
          · next none =>
              -- Without a look-up among the others, nothing stands behind the front.
              have empty : back = [] := by
                refine List.eq_nil_iff_forall_not_mem.mpr fun condition member => none ?_
                rw [others, Bool.not_false, Bool.and_true]
                exact List.any_eq_true.mpr ⟨condition, by simp [member], costly _ member⟩
              refine ⟨front ++ [next], [], by simp [empty], ?_, nofun⟩
              simpa [or_imp, forall_and, kind] using cheap

end Order

namespace Condition

open Query (Clause)

variable {catalog : Catalog} {row : Row}

/-- The condition that an item is present. -/
def available : Condition :=
  Clause.present.condition

/-- The presence of a row is always known. -/
theorem verdict_available : verdict catalog row available = some row.present := by
  cases present : row.present <;> simp [verdict, available, Clause.present, Clause.condition,
    Query.signed, Query.Filter.condition, Field.kind, isUnreadable, truth, Truth.settle, present]

/-- A condition without a look-up can be read. -/
theorem isUnreadable_of_looksUp {condition : Condition} (cheap : condition.looksUp = false) :
    condition.isUnreadable = false := by
  induction condition with
  | indexed phrase => cases cheap
  | either first second firstStep secondStep =>
      obtain ⟨left, right⟩ := Bool.or_eq_false_iff.mp cheap
      exact Bool.or_eq_false_iff.mpr ⟨firstStep left, secondStep right⟩
  | settled condition step => exact step cheap
  | negation condition step => exact step cheap
  | _ => rfl

/-- In a sole group, presence is tried before what is looked up for each row anew. -/
theorem isSome_soleOrder_concat {conditions : List Condition}
    (decided : (Verdict.all ((soleOrder conditions).map (verdict catalog row))).isSome = true) :
    (Verdict.all ((soleOrder (conditions ++ [available])).map (verdict catalog row))).isSome =
      true := by
  have varies : available.isConstant = false := rfl
  have uncorrelated : available.isCorrelated = false := rfl
  simp only [soleOrder, List.filter_append, List.map_append] at decided ⊢
  simp only [List.filter_singleton, varies, uncorrelated, Bool.not_false, Bool.and_self,
    Bool.and_false, cond_true, cond_false, List.map_cons, List.map_nil, List.append_nil,
    verdict_available, List.append_assoc, List.singleton_append] at decided ⊢
  rw [← List.append_assoc] at decided ⊢
  exact Verdict.isSome_all_insert decided row.present

/-- Among several groups, presence is tried first if anything is looked up, and last if not. -/
theorem all_trialOrder_concat (conditions : List Condition) :
    Verdict.all ((trialOrder looksUp (conditions ++ [available])).map (verdict catalog row)) =
      if row.present then Verdict.all ((trialOrder looksUp conditions).map (verdict catalog row))
      else some false := by
  rw [trialOrder_concat]
  have cheap : available.looksUp = false := rfl
  rw [cheap, Bool.not_false, Bool.and_true]
  split
  · rw [List.map_cons, verdict_available]
    cases row.present <;> rfl
  · next none =>
      rw [List.map_append, List.map_singleton, verdict_available]
      cases row.present with
      | true => exact Verdict.all_concat_true _
      | false =>
          have readable : ∀ condition ∈ conditions, condition.isUnreadable = false := by
            intro condition member
            refine isUnreadable_of_looksUp (Bool.eq_false_iff.mpr fun costly => none ?_)
            exact List.any_eq_true.mpr ⟨condition, member, costly⟩
          exact Verdict.all_concat_false
            (isSome_all_verdicts (trialOrder_perm looksUp conditions) readable)

/-- The verdict on several groups, each in the order in which it is tried among others. -/
def severalVerdict (catalog : Catalog) (row : Row) (groups : List (List Condition)) : Verdict :=
  .any ((trialOrder (fun group => group.any looksUp) groups).map fun group =>
    .all ((trialOrder looksUp group).map (verdict catalog row)))

/-- Presence in each of several groups decides as one condition in front of them would. -/
theorem severalVerdict_map_concat (groups : List (List Condition)) :
    severalVerdict catalog row (groups.map (· ++ [available])) =
      if row.present then severalVerdict catalog row groups else some false := by
  have kind (group : List Condition) : (group ++ [available]).any looksUp = group.any looksUp := by
    rw [List.any_append, List.any_cons, List.any_nil, Bool.or_false]
    exact Bool.or_false _
  simp only [severalVerdict, trialOrder_map, kind, List.map_map, Function.comp_def,
    all_trialOrder_concat]
  cases row.present with
  | true => rfl
  | false => exact Verdict.any_eq_false (by simp)

/-- An empty group holds, and it is tried before any group that may fail. -/
theorem severalVerdict_of_mem_nil {groups : List (List Condition)} (empty : [] ∈ groups) :
    severalVerdict catalog row groups = some true := by
  have listed := (trialOrder_perm (fun group => List.any group looksUp) groups).mem_iff.mpr empty
  obtain ⟨front, back, order, cheap, costly⟩ :=
    exists_trialOrder_eq_append (fun group => List.any group looksUp) groups
  rw [severalVerdict, order, List.map_append]
  rw [order] at listed
  refine Verdict.any_append_of_mem ?_ ?_
  · intro failed
    obtain ⟨group, member, tried⟩ := List.mem_map.mp failed
    have readable : ∀ condition ∈ group, condition.isUnreadable = false := by
      intro condition inside
      have each := List.any_eq_false.mp (cheap group member) condition inside
      exact isUnreadable_of_looksUp (Bool.eq_false_iff.mpr each)
    have known : (Verdict.all ((trialOrder looksUp group).map (verdict catalog row))).isSome = true :=
      isSome_all_verdicts (trialOrder_perm looksUp group) readable
    rw [tried] at known
    cases known
  · rcases List.mem_append.mp listed with first | last
    · exact List.mem_map.mpr ⟨[], first, rfl⟩
    · cases costly [] last

/-- Groups that do not fail do not fail with presence in each of them, and neither do those that
hold because one of them is empty. -/
theorem isSome_groupsVerdict_map_concat {groups : List (List Condition)}
    (plain : [.always] ∉ groups)
    (decided : [] ∉ groups → (groupsVerdict catalog groups row).isSome = true) :
    (groupsVerdict catalog (groups.map (· ++ [available])) row).isSome = true := by
  have varies : (groups.map (· ++ [available])).any (· == [.always]) = false := by
    refine List.any_eq_false.mpr fun group listed same => ?_
    obtain ⟨conditions, -, rfl⟩ := List.mem_map.mp listed
    have last : available ∈ [always] := by
      rw [← beq_iff_eq.mp same]
      simp
    exact absurd (List.mem_singleton.mp last) (by decide)
  have unsettled : groups.any (· == [.always]) = false := by
    refine List.any_eq_false.mpr fun group listed same => plain ?_
    rwa [← beq_iff_eq.mp same]
  unfold groupsVerdict at decided ⊢
  rw [varies, if_neg Bool.false_ne_true]
  rw [unsettled, if_neg Bool.false_ne_true] at decided
  rcases groups with - | ⟨first, - | ⟨second, rest⟩⟩
  · rfl
  · rw [List.map_singleton]
    refine isSome_soleOrder_concat ?_
    by_cases empty : first = []
    · rw [empty]
      rfl
    · exact decided (by simpa using Ne.symm empty)
  · change (severalVerdict catalog row ((first :: second :: rest).map (· ++ [available]))).isSome =
      true
    rw [severalVerdict_map_concat]
    cases row.present with
    | false => rfl
    | true =>
        rw [if_pos rfl]
        by_cases empty : [] ∈ first :: second :: rest
        · rw [severalVerdict_of_mem_nil empty]
          rfl
        · exact decided empty

end Condition

/-! ### Queries for present items -/

namespace Query

variable {query : Query}

/-- The groups of a query, where none count as an empty one. -/
def alternatives (query : Query) : List (List Clause) :=
  if query.groups.isEmpty then [[]] else query.groups

theorem alternatives_of_ne_nil (some : query.groups ≠ []) : query.alternatives = query.groups :=
  if_neg (by simpa using some)

/-- A query has an alternative, if only one that holds always. -/
theorem alternatives_ne_nil (query : Query) : query.alternatives ≠ [] := by
  by_cases none : query.groups = []
  · simp [alternatives, none]
  · rwa [alternatives_of_ne_nil none]

/-- Required presence is one more clause of every alternative. -/
theorem groups_requirePresent (query : Query) :
    query.requirePresent.groups = query.alternatives.map (· ++ [Clause.present]) :=
  rfl

/-- Required presence is one more condition of every alternative. -/
theorem conditions_requirePresent (query : Query) :
    query.requirePresent.conditions =
      (query.alternatives.map (List.map Clause.condition)).map (· ++ [Condition.available]) := by
  have some : query.requirePresent.groups ≠ [] := by
    simpa [groups_requirePresent] using query.alternatives_ne_nil
  rw [conditions_eq_map some (by simp [groups_requirePresent]), groups_requirePresent, List.map_map,
    List.map_map]
  exact List.map_congr_left fun group _ => List.map_append

/-- A query that can be tried on a row can also be tried where it is restricted to present items. -/
theorem isSome_groupsVerdict_requirePresent {catalog : Catalog} {row : Row}
    (decided : (Condition.groupsVerdict catalog query.conditions row).isSome = true) :
    (Condition.groupsVerdict catalog query.requirePresent.conditions row).isSome = true := by
  rw [conditions_requirePresent]
  refine Condition.isSome_groupsVerdict_map_concat ?_ ?_
  · intro always
    obtain ⟨group, -, same⟩ := List.mem_map.mp always
    obtain ⟨clause, -, settled⟩ :=
      List.mem_map.mp (same ▸ List.mem_singleton_self Condition.always)
    rcases clause with ⟨_, - | -⟩ | ⟨_, _, _, _, - | -⟩ <;> cases settled
  · intro nonempty
    have some : query.groups ≠ [] := fun none => nonempty (by simp [alternatives, none])
    rw [alternatives_of_ne_nil some] at nonempty ⊢
    rwa [← conditions_eq_map some fun empty => nonempty (List.mem_map.mpr ⟨[], empty, rfl⟩)]

/-- A query holds where all clauses of one of its groups do; an empty group holds always. -/
theorem holds_eq_any_alternatives (item : Item) (marks : List Field) (query : Query) :
    query.holds item marks =
      query.alternatives.any fun group => group.all (Clause.holds item marks) := by
  cases split : query.groups with
  | nil => simp [holds, alternatives, split]
  | cons group rest =>
      rw [alternatives_of_ne_nil (by simp [split]), holds, split, Bool.or_eq_right_iff_imp]
      intro empty
      have first := List.all_eq_true.mp empty group List.mem_cons_self
      exact List.any_eq_true.mpr ⟨group, List.mem_cons_self, by simp [List.isEmpty_iff.mp first]⟩

/-- A query with required presence holds of the present items of which the query holds. -/
theorem holds_requirePresent (item : Item) (marks : List Field) (query : Query) :
    query.requirePresent.holds item marks = (query.holds item marks && item.present) := by
  have present : Clause.present.holds item marks = item.present := by
    simp [Clause.holds, Clause.present, Clause.negated, Clause.affirms, Filter.holds, Field.kind]
  have some : query.requirePresent.groups ≠ [] := by
    simpa [groups_requirePresent] using query.alternatives_ne_nil
  have each (group : List Clause) : (group ++ [Clause.present]).all (Clause.holds item marks) =
      (item.present && group.all (Clause.holds item marks)) := by
    simp [present, Bool.and_comm]
  rw [holds_eq_any_alternatives, holds_eq_any_alternatives, alternatives_of_ne_nil some,
    groups_requirePresent, List.any_map, Function.comp_def]
  simp only [each]
  rw [Bool.and_comm, List.and_any_distrib_left]

end Query

namespace Catalog

variable {catalog : Catalog} {query : Query}

/-- A query with required presence is matched by the present items that match the query. -/
theorem matching_requirePresent (catalog : Catalog) (query : Query) :
    catalog.matching query.requirePresent = (catalog.matching query).filter Item.present := by
  simp only [matching, List.filter_filter, Query.holds_requirePresent, Bool.and_comm]

/-- A search that is restricted to present items fails only by the depth of its conditions where the
search without the restriction does not fail. -/
theorem search?_requirePresent_eq_none_iff {found : List Item}
    (searched : catalog.search? query none = some found) :
    catalog.search? query.requirePresent none = none ↔
      isTooDeep query.requirePresent.conditions = true := by
  have few : query.requirePresent.parameters ≤ Query.parameterLimit := by
    obtain ⟨taken, -⟩ := search?_eq_some_iff.mp searched
    have same : query.requirePresent.parameters = query.parameters :=
      query.parameters_restricted true
    exact same ▸ (Query.isRefused_eq_false_iff.mp taken).2
  rw [search?_eq_none_iff (by simp), Query.isRefused_iff, or_iff_left (Nat.not_lt.mpr few)]
  refine or_iff_left ?_
  rintro ⟨before, row, after, whole, failed, -⟩
  have decided : (Condition.groupsVerdict catalog query.conditions row).isSome = true := by
    rw [Option.isSome_iff_ne_none]
    intro undecided
    have unanswered : catalog.search? query none = none :=
      (search?_eq_none_iff (by simp)).mpr (.inr ⟨before, row, after, whole, undecided, by simp⟩)
    rw [searched] at unanswered
    cases unanswered
  have restricted := Query.isSome_groupsVerdict_requirePresent decided
  rw [failed] at restricted
  cases restricted

end Catalog

/-! ### Presence in other queries -/

namespace Condition

/-- Whether a condition is about the presence of the item. -/
def mentionsPresence : Condition → Bool
  | presence _ => true
  | column field _ => field == .present
  | either first second => first.mentionsPresence || second.mentionsPresence
  | settled condition | negation condition => condition.mentionsPresence
  | _ => false

end Condition

def Row.withPresence (flag : Bool) (row : Row) : Row :=
  { row with present := flag }

def Item.withPresence (flag : Bool) (item : Item) : Item :=
  { item with present := flag }

/-- The catalog in which the items with the keys have the presence flags. -/
def Catalog.withPresence (flags : String → Bool) (catalog : Catalog) : Catalog :=
  { catalog with rows := catalog.rows.map fun row => row.withPresence (flags row.key) }

/-- The presence of a row is in no other column. -/
theorem Row.column?_withPresence {field : Field} (other : field ≠ .present) (flag : Bool)
    (row : Row) : (row.withPresence flag).column? field = row.column? field := by
  cases field <;> first | rfl | exact absurd rfl other

namespace Condition

/-- A condition that does not mention the presence has the same truth whatever is present. -/
theorem truth_withPresence {condition : Condition} (unmentioned : condition.mentionsPresence = false)
    (flags : String → Bool) (flag : Bool) (catalog : Catalog) (row : Row) :
    condition.truth (catalog.withPresence flags) (row.withPresence flag) =
      condition.truth catalog row := by
  induction condition with
  | presence asked => cases unmentioned
  | column field test =>
      rw [truth, truth, Row.column?_withPresence (by simpa [mentionsPresence] using unmentioned)]
  | either first second firstStep secondStep =>
      obtain ⟨left, right⟩ := Bool.or_eq_false_iff.mp unmentioned
      rw [truth, truth, firstStep left, secondStep right]
  | settled condition step => rw [truth, truth, step unmentioned]
  | negation condition step => rw [truth, truth, step unmentioned]
  | _ => rfl

/-- Trials do not depend on presence if no condition is about it. -/
theorem groupsVerdict_withPresence {groups : List (List Condition)}
    (unmentioned : ∀ group ∈ groups, ∀ condition ∈ group, condition.mentionsPresence = false)
    (flags : String → Bool) (flag : Bool) (catalog : Catalog) (row : Row) :
    groupsVerdict (catalog.withPresence flags) groups (row.withPresence flag) =
      groupsVerdict catalog groups row := by
  have each {group order : List Condition} (listed : group ∈ groups) (perm : order.Perm group) :
      order.map (verdict (catalog.withPresence flags) (row.withPresence flag)) =
        order.map (verdict catalog row) := by
    refine List.map_congr_left fun condition member => ?_
    rw [verdict, verdict,
      truth_withPresence (unmentioned group listed condition (perm.subset member))]
  unfold groupsVerdict
  split
  · rfl
  · split
    · rw [each List.mem_cons_self (soleOrder_perm _)]
    · congr 1
      refine List.map_congr_left fun group member => ?_
      rw [each ((trialOrder_perm _ _).subset member) (trialOrder_perm looksUp group)]

end Condition

namespace Query

/-- Whether a clause is a filter on a field. -/
def Clause.IsOn (field : Field) : Clause → Prop
  | .text _ _ => False
  | .filter test => test.field = field

/-- Only a clause on the presence mentions it. -/
theorem Clause.mentionsPresence_condition {clause : Clause} (other : ¬ clause.IsOn .present) :
    clause.condition.mentionsPresence = false := by
  have sign (negated : Bool) (condition : Condition) :
      (signed negated condition).mentionsPresence = condition.mentionsPresence := by
    cases negated <;> rfl
  cases clause with
  | text value negated =>
      rw [condition, sign, termCondition]
      split
      · rfl
      · split <;> rfl
  | filter test =>
      rw [condition, sign, Filter.condition]
      have elsewhere : (test.field == .present) = false := beq_eq_false_iff_ne.mpr other
      split
      · rfl
      · split
        · next kind =>
            have absent : test.field.kind ≠ .presence := by
              revert elsewhere
              cases test.field <;> decide
            exact absurd kind absent
        · rfl
        · exact elsewhere
        all_goals exact Bool.or_eq_false_iff.mpr ⟨elsewhere, rfl⟩

/-- Collecting from converted rows is collecting from the rows by what they are converted to. -/
theorem collect_map (verdict : Row → Verdict) (convert : Row → Row) (limit : Option Nat)
    (rows : List Row) :
    collect verdict limit (rows.map convert) =
      (collect (fun row => verdict (convert row)) limit rows).map (List.map convert) := by
  induction rows generalizing limit with
  | nil => rw [List.map_nil, collect_nil, collect_nil, Option.map_some, List.map_nil]
  | cons row rest step =>
      by_cases full : limit = some 0
      · rw [full, collect_zero, collect_zero, Option.map_some, List.map_nil]
      · rw [List.map_cons, collect_cons full, collect_cons full]
        rcases verdict (convert row) with - | - | -
        · rfl
        · exact step limit
        · simp only [Option.bind_some, if_true, step, Option.map_map]
          rfl

end Query

namespace Catalog

variable {catalog : Catalog} {query : Query}

/-- The items of rows with other presence are the items with that presence. -/
theorem attach_withPresence (flags : String → Bool) (catalog : Catalog) (rows : List Row) :
    (catalog.withPresence flags).attach (rows.map fun row => row.withPresence (flags row.key)) =
      (catalog.attach rows).map fun item => item.withPresence (flags item.key) := by
  simp only [attach, List.map_map]
  rfl

/-- A search without a filter on presence finds the same items whatever their presence is. -/
theorem search?_withPresence
    (other : ∀ group ∈ query.groups, ∀ clause ∈ group, ¬ clause.IsOn .present)
    (flags : String → Bool) (catalog : Catalog) (limit : Option Nat) :
    (catalog.withPresence flags).search? query limit =
      (catalog.search? query limit).map
        (List.map fun item => item.withPresence (flags item.key)) := by
  have unmentioned : ∀ group ∈ query.conditions, ∀ condition ∈ group,
      condition.mentionsPresence = false := by
    intro group among condition member
    rcases Query.mem_conditions among member with rfl | ⟨clauses, listed, clause, inside, rfl⟩
    · rfl
    · exact Query.Clause.mentionsPresence_condition (other clauses listed clause inside)
  unfold search?
  split
  · rfl
  · have rows : (catalog.withPresence flags).rows =
        catalog.rows.map fun row => row.withPresence (flags row.key) := rfl
    rw [rows, Query.collect_map]
    simp only [Condition.groupsVerdict_withPresence unmentioned, Option.map_map]
    congr 1
    funext rows
    exact attach_withPresence flags catalog rows

/-- **Presence counts where it is asked for.** Where a search finds items, the search that is
restricted to present items finds those of them that are present, in the same order, unless its
conditions nest too deep; they do not if the number of groups and that of the clauses in each group
come to no more than 979. A query without a filter on presence finds the same items whatever their
presence is, and fails in the same cases. -/
theorem Reachable.search_requirePresent (reached : catalog.Reachable) (query : Query) :
    (∀ found, catalog.search? query none = some found →
      catalog.search? query.requirePresent none =
        if isTooDeep query.requirePresent.conditions then none
        else some (found.filter Item.present)) ∧
      ((∀ group ∈ query.groups, query.groups.length + group.length ≤ 979) →
        isTooDeep query.requirePresent.conditions = false) ∧
      ((∀ group ∈ query.groups, ∀ clause ∈ group, ¬ clause.IsOn .present) →
        ∀ flags limit, (catalog.withPresence flags).search? query limit =
          (catalog.search? query limit).map
            (List.map fun item => item.withPresence (flags item.key))) := by
  refine ⟨fun found searched => ?_, fun bound => isTooDeep_restricted bound true,
    fun other flags limit => search?_withPresence other flags catalog limit⟩
  have fails := search?_requirePresent_eq_none_iff searched
  split
  · next deep => exact fails.mpr deep
  · next shallow =>
      obtain ⟨restricted, answered⟩ := Option.ne_none_iff_exists'.mp (shallow ∘ fails.mp)
      rw [answered, search?_none_eq_some reached.sound answered,
        search?_none_eq_some reached.sound searched, matching_requirePresent]

/-- Of an item that is present and one that is not, an empty group beside one that cannot be tried
finds both, and the former where only present items are wanted. -/
theorem search_requirePresent_of_empty_group :
    let store := (MemoryStore.new.put "a" "1s title +x" ⟨"a.mp3", false⟩).put "b"
      "1s title +y" ⟨"b.mp3", true⟩
    let catalog := (Catalog.empty.build 1 store.answers).catalog
    let query : Query := ⟨[[.text "a\x00" false], []]⟩
    catalog.Reachable ∧ ∃ found, catalog.search? query none = some found ∧
      found.map Item.key = ["a", "b"] ∧ (found.filter Item.present).map Item.key = ["b"] ∧
      catalog.search? query.requirePresent none = some (found.filter Item.present) ∧
      ∀ flags limit, (catalog.withPresence flags).search? query limit =
        (catalog.search? query limit).map
          (List.map fun item => item.withPresence (flags item.key)) := by
  intro store catalog query
  have reached : catalog.Reachable := Reachable.empty.build 1 store.answers
  have keys : (catalog.search? query none).map (fun found =>
      (found.map Item.key, (found.filter Item.present).map Item.key)) =
        some (["a", "b"], ["b"]) := by decide +kernel
  obtain ⟨found, searched, both⟩ := Option.map_eq_some_iff.mp keys
  obtain ⟨restricted, shallow, unasked⟩ := Reachable.search_requirePresent reached query
  have few : ∀ group ∈ query.groups, query.groups.length + group.length ≤ 979 := by decide
  have other : ∀ group ∈ query.groups, ∀ clause ∈ group, ¬ clause.IsOn .present := by
    simp [query, Query.Clause.IsOn]
  refine ⟨reached, found, searched, congrArg Prod.fst both, congrArg Prod.snd both, ?_,
    unasked other⟩
  rw [restricted found searched, shallow few, if_neg Bool.false_ne_true]

/-- The present item that a group of 997 filters finds is not found with one more of them. -/
theorem search_requirePresent_fails :
    let store := MemoryStore.new.put "k1" "1s title +x" ⟨"x.mp3", true⟩
    let catalog := (Catalog.empty.build 1 store.answers).catalog
    let query : Query := ⟨[List.replicate 997 Query.Clause.present]⟩
    catalog.Reachable ∧ ∃ found, catalog.search? query none = some found ∧
      (found.filter Item.present).map Item.key = ["k1"] ∧
      catalog.search? query.requirePresent none = none := by
  intro store catalog query
  have keys : (catalog.search? query none).map (fun found =>
      (found.filter Item.present).map Item.key) = some ["k1"] := by decide +kernel
  obtain ⟨found, searched, present⟩ := Option.map_eq_some_iff.mp keys
  exact ⟨Reachable.empty.build 1 store.answers, found, searched, present, by decide +kernel⟩

end Catalog

end AnnexCatalog
