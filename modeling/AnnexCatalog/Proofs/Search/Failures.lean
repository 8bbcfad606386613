import AnnexCatalog.Proofs.Query.Composition
import AnnexCatalog.Proofs.Search.Terms

/-! # Searches that fail

A search comes to a row that cannot be tried, or its conditions nest too deep, or it has too many
parameters; nothing else lets it fail. A row cannot be tried only because of a text term with a NUL
character beside a letter or a digit. Conditions nest too deep only in a long text, and parameters are
too many only in a longer one. So every text that is read as a query, is not long and has no NUL
character is answered (`search_fails_iff`).
-/

namespace AnnexCatalog

open Text

namespace Query

/-! ### Rows that cannot be tried -/

/-- A list is divided at its head, or where its tail is. -/
theorem exists_append_cons_iff {α : Type} {first : α} {rest : List α}
    {holds : List α → α → Prop} :
    (∃ before here after, first :: rest = before ++ here :: after ∧ holds before here) ↔
      holds [] first ∨
        ∃ before here after, rest = before ++ here :: after ∧ holds (first :: before) here := by
  constructor
  · rintro ⟨- | ⟨other, before⟩, here, after, whole, held⟩
    · cases whole
      exact .inl held
    · cases whole
      exact .inr ⟨before, here, after, rfl, held⟩
  · rintro (held | ⟨before, here, after, whole, held⟩)
    · exact ⟨[], first, rest, rfl, held⟩
    · exact ⟨first :: before, here, after, congrArg (first :: ·) whole, held⟩

/-- Collecting fails if it comes to a row that cannot be tried before it has as many as are asked
for. -/
theorem collect_eq_none_iff {verdict : Row → Verdict} {rows : List Row} {limit : Option Nat} :
    collect verdict limit rows = none ↔
      ∃ before row after, rows = before ++ row :: after ∧ verdict row = none ∧
        ∀ count ∈ limit, (before.filter (verdict · == some true)).length < count := by
  induction rows generalizing limit with
  | nil =>
      rw [collect_nil]
      simp
  | cons first rest step =>
      by_cases full : limit = some 0
      · subst full
        rw [collect_zero]
        simp
      rw [exists_append_cons_iff, collect_cons full]
      rcases tried : verdict first with - | - | -
      · have wanted : ∀ count ∈ limit, 0 < count := by
          rintro count rfl
          exact Nat.pos_of_ne_zero fun zero => full (congrArg some zero)
        exact iff_of_true rfl (.inl ⟨rfl, wanted⟩)
      · simpa [tried] using step
      · have fewer (found : Nat) : (∀ count ∈ limit.map (· - 1), found < count) ↔
            ∀ count ∈ limit, found + 1 < count := by
          cases limit with
          | none => simp
          | some count => simp [Nat.lt_sub_iff_add_lt]
        have later := @step (limit.map (· - 1))
        simp only [fewer] at later
        simpa [tried] using later

/-- A text term that the index cannot look up: it has a letter or a digit, and a NUL character. -/
def Clause.IsUnreadable : Clause → Prop
  | .text value _ => value.toList.any isAlphanumeric = true ∧ '\x00' ∈ value.toList
  | .filter _ => False

/-- The condition of a term cannot be read if the term has a letter or digit and a null character.
-/
theorem isUnreadable_termCondition_iff (value : String) :
    (termCondition value).isUnreadable = true ↔
      value.toList.any isAlphanumeric = true ∧ '\x00' ∈ value.toList := by
  rw [← any_isAlphanumeric_trim]
  have kept : '\x00' ∈ trim value.toList ↔ '\x00' ∈ value.toList := by
    obtain ⟨before, after, whole, blankBefore, blankAfter⟩ := exists_eq_append_trim value.toList
    have absent {blanks : List Char} (blank : ∀ c ∈ blanks, isBlank c = true) :
        '\x00' ∉ blanks := fun member => absurd (blank _ member) (by decide)
    rw [congrArg ('\x00' ∈ ·) whole, List.mem_append, List.mem_append]
    simp [absent blankBefore, absent blankAfter]
  rw [← kept, termCondition]
  split
  · next none =>
      rw [List.isEmpty_iff.mp none]
      simp [Condition.isUnreadable]
  · split
    · next spoken => simp [Condition.isUnreadable, spoken]
    · next silent => exact iff_of_false Bool.false_ne_true fun spoken => silent spoken.1

/-- A condition cannot be tried if it is that of a text term that cannot be looked up. -/
theorem Clause.isUnreadable_condition_iff (clause : Clause) :
    clause.condition.isUnreadable = true ↔ clause.IsUnreadable := by
  cases clause with
  | text value negated =>
      rw [condition, isUnreadable_signed]
      exact isUnreadable_termCondition_iff value
  | filter test =>
      rw [condition, isUnreadable_signed, test.isUnreadable_condition]
      exact iff_of_false Bool.false_ne_true id

/-- The conditions of a query are those of its clauses, or one that holds always. -/
theorem mem_conditions {query : Query} {conditions : List Condition} {condition : Condition}
    (among : conditions ∈ query.conditions) (member : condition ∈ conditions) :
    condition = .always ∨
      ∃ group ∈ query.groups, ∃ clause ∈ group, clause.condition = condition := by
  rw [Query.conditions] at among
  split at among
  · cases List.mem_singleton.mp among
    exact .inl (List.mem_singleton.mp member)
  · obtain ⟨group, listed, rfl⟩ := List.mem_map.mp among
    rw [groupConditions] at member
    split at member
    · exact .inl (List.mem_singleton.mp member)
    · obtain ⟨clause, inside, same⟩ := List.mem_map.mp member
      exact .inr ⟨group, listed, clause, inside, same⟩

/-- A row that cannot be tried is due to a text term that cannot be looked up. -/
theorem exists_isUnreadable_of_groupsVerdict {query : Query} {catalog : Catalog} {row : Row}
    (failed : Condition.groupsVerdict catalog query.conditions row = none) :
    ∃ group ∈ query.groups, ∃ clause ∈ group, clause.IsUnreadable := by
  by_contra fine
  have readable : ∀ conditions ∈ query.conditions, ∀ condition ∈ conditions,
      condition.isUnreadable = false := by
    intro conditions among condition member
    rcases mem_conditions among member with rfl | ⟨group, listed, clause, inside, rfl⟩
    · rfl
    · rw [← Bool.not_eq_true, clause.isUnreadable_condition_iff]
      exact fun unreadable => fine ⟨group, listed, clause, inside, unreadable⟩
  rw [Condition.groupsVerdict_of_readable readable] at failed
  cases failed

/-- A query with groups, none of them empty, becomes the conditions of their clauses. -/
theorem conditions_eq_map {query : Query} (some : query.groups ≠ []) (nonempty : [] ∉ query.groups) :
    query.conditions = query.groups.map (List.map Clause.condition) := by
  have filled : ∀ group ∈ query.groups, groupConditions group = group.map Clause.condition := by
    intro group listed
    rw [groupConditions, if_neg]
    rintro empty
    exact nonempty (List.isEmpty_iff.mp empty ▸ listed)
  obtain ⟨group, rest, split⟩ := List.exists_cons_of_ne_nil some
  rw [conditions, if_neg, List.map_congr_left filled]
  intro empty
  have first := List.all_eq_true.mp empty group (by rw [split]; exact .head _)
  rw [List.isEmpty_iff.mp first] at split
  exact nonempty (by rw [split]; exact .head _)

/-- No row can be tried where no clause can be looked up. -/
theorem groupsVerdict_of_forall_isUnreadable {query : Query} (some : query.groups ≠ [])
    (nonempty : [] ∉ query.groups)
    (unreadable : ∀ group ∈ query.groups, ∀ clause ∈ group, clause.IsUnreadable)
    (catalog : Catalog) (row : Row) :
    Condition.groupsVerdict catalog query.conditions row = none := by
  rw [conditions_eq_map some nonempty]
  refine Condition.groupsVerdict_eq_none (by simpa using some) (by simpa using nonempty) ?_ _ _
  intro group listed condition member
  obtain ⟨clauses, among, rfl⟩ := List.mem_map.mp listed
  obtain ⟨clause, inside, rfl⟩ := List.mem_map.mp member
  exact clause.isUnreadable_condition_iff.mpr (unreadable clauses among clause inside)

/-- What a query asks for where only present items are wanted or all are. -/
def restricted (query : Query) (presentOnly : Bool) : Query :=
  if presentOnly then query.requirePresent else query

/-- A clause that cannot be read is in the query itself, not in what restricts it. -/
theorem exists_isUnreadable_of_restricted {query : Query} {presentOnly : Bool}
    (found : ∃ group ∈ (query.restricted presentOnly).groups, ∃ clause ∈ group,
      clause.IsUnreadable) : ∃ group ∈ query.groups, ∃ clause ∈ group, clause.IsUnreadable := by
  cases presentOnly with
  | false => exact found
  | true =>
      obtain ⟨_, among, clause, member, unreadable⟩ := found
      obtain ⟨group, listed, rfl⟩ := List.mem_map.mp among
      rcases List.mem_append.mp member with inside | added
      · split at listed
        · cases List.mem_singleton.mp listed
          cases inside
        · exact ⟨group, listed, clause, inside, unreadable⟩
      · cases List.mem_singleton.mp added
        exact unreadable.elim

/-! ### Short texts -/

/-- A text is a part of what is written for it. -/
theorem ConditionText.isInfix_of_text {written following : List Char} {value : String}
    {negated : Bool} (shape : ConditionText written following (.text value negated)) :
    value.toList <:+: written := by
  cases shape with
  | quotation closed => exact ⟨['"'], ['"'], by rw [String.toList_ofList]; rfl⟩
  | word shape unnamed => exact String.toList_ofList.symm ▸ List.infix_rfl

/-- A text is a part of what is written for it with its sign. -/
theorem ClauseText.isInfix_of_text {written following : List Char} {value : String}
    {negated : Bool} (shape : ClauseText written following (.text value negated)) :
    value.toList <:+: written := by
  generalize same : Clause.text value negated = clause at shape
  cases shape with
  | plain unsigned shape =>
      subst same
      exact shape.isInfix_of_text
  | @negated written _ clause shape =>
      cases clause with
      | text other sign =>
          cases same
          exact shape.isInfix_of_text.trans (List.suffix_cons _ _).isInfix
      | filter test => cases same

/-- A text term stands in the text that it is read from. -/
theorem CutInto.isInfix_of_text {text : List Char} {pieces : List Piece} {value : String}
    {negated : Bool} (cut : CutInto text pieces) (member : .clause (.text value negated) ∈ pieces) :
    value.toList <:+: text := by
  induction cut with
  | nil => cases member
  | blank blank later step => exact (step member).trans (List.suffix_cons _ _).isInfix
  | @separator text rest _ separated later step =>
      have inside : rest <:+: text := by
        rcases afterSeparator?_eq_some_iff.mp separated with rfl | ⟨rfl, -⟩
        · exact (List.suffix_cons _ _).isInfix
        · exact (List.suffix_append ['O', 'R'] rest).isInfix
      exact (step (by simpa using member)).trans inside
  | clause unseparated shape later step =>
      rcases List.mem_cons.mp member with same | member
      · cases same
        exact shape.isInfix_of_text.trans (List.prefix_append _ _).isInfix
      · exact (step member).trans (List.suffix_append _ _).isInfix

/-- A text has no more pieces than characters. -/
theorem CutInto.length_le {text : List Char} {pieces : List Piece} (cut : CutInto text pieces) :
    pieces.length ≤ text.length := by
  induction cut with
  | nil => exact Nat.le_refl _
  | blank blank later step => exact Nat.le_succ_of_le step
  | separator separated later step =>
      exact Nat.succ_le_of_lt (Nat.lt_of_le_of_lt step (length_afterSeparator?_lt separated))
  | @clause written rest _ _ unseparated shape later step =>
      have some : 0 < written.length := by
        refine List.length_pos_of_ne_nil ?_
        rintro rfl
        exact absurd (shape.atBoundary_append []) (by decide)
      rw [List.length_cons, List.length_append]
      omega

/-- A query has at least as many pieces as it has groups, and clauses in one of them, but for one.
-/
theorem length_joined {groups : List (List Clause)} {group : List Clause}
    (listed : group ∈ groups) :
    groups.length + group.length ≤ (joined groups).length + 1 := by
  have later (others : List (List Clause)) :
      others.length ≤ (others.flatMap fun next => Piece.separator :: next.map Piece.clause).length ∧
        ∀ other ∈ others, others.length + other.length ≤
          (others.flatMap fun next => Piece.separator :: next.map Piece.clause).length := by
    induction others with
    | nil => simp
    | cons next rest step =>
        obtain ⟨least, each⟩ := step
        rw [List.flatMap_cons, List.length_append, List.length_cons, List.length_cons,
          List.length_map]
        refine ⟨by omega, ?_⟩
        rintro other member
        rcases List.mem_cons.mp member with rfl | inside
        · omega
        · have bound := each other inside
          omega
  cases groups with
  | nil => cases listed
  | cons first others =>
      obtain ⟨least, each⟩ := later others
      rw [joined_cons, List.length_append, List.length_map, List.length_cons]
      rcases List.mem_cons.mp listed with rfl | inside
      · omega
      · have bound := each group inside
        omega

/-- Each clause is a piece of the text that the groups are joined to. -/
theorem length_flatten_le_length_joined (groups : List (List Clause)) :
    groups.flatten.length ≤ (joined groups).length := by
  have later (others : List (List Clause)) : others.flatten.length ≤
      (others.flatMap fun next => Piece.separator :: next.map Piece.clause).length := by
    induction others with
    | nil => exact Nat.le_refl 0
    | cons next rest step =>
        rw [List.flatten_cons, List.length_append, List.flatMap_cons, List.length_append,
          List.length_cons, List.length_map]
        omega
  cases groups with
  | nil => exact Nat.zero_le _
  | cons first others =>
      rw [List.flatten_cons, List.length_append, joined_cons, List.length_append, List.length_map]
      exact Nat.add_le_add_left (later others) first.length

/-- The clause that asks for presence has no parameter. -/
theorem parameters_restricted (query : Query) (presentOnly : Bool) :
    (query.restricted presentOnly).parameters = query.parameters := by
  have added (groups : List (List Clause)) (count : Clause → Nat → Nat)
      (uncounted : ∀ total, count Clause.present total = total) :
      (groups.map (· ++ [Clause.present])).flatten.foldr count 0 = groups.flatten.foldr count 0 := by
    induction groups with
    | nil => rfl
    | cons group rest step =>
        rw [List.map_cons, List.flatten_cons, List.foldr_append, List.foldr_append, step,
          List.flatten_cons, List.foldr_append, List.foldr_cons, List.foldr_nil, uncounted]
  cases presentOnly with
  | false => rfl
  | true =>
      rw [restricted, if_pos rfl, requirePresent, parameters, parameters,
        added _ _ fun total => Nat.zero_add total]
      split
      · next none =>
          rw [List.isEmpty_iff.mp none]
          rfl
      · rfl

/-- A text that is read as a query has few parameters if it is not very long. -/
theorem parameters_le_of_parse {query : Query} {text : String} (accepted : parse text = .ok query)
    (short : text.length ≤ 6553) : query.parameters ≤ parameterLimit := by
  obtain ⟨pieces, cut, formed⟩ := parse_eq_ok_iff.mp accepted
  rw [forms_iff_joined formed.nil_notMem] at formed
  subst formed
  have few := cut.length_le
  have clauses := length_flatten_le_length_joined query.groups
  have parameters := query.parameters_le
  rw [String.length_toList] at few
  unfold parameterLimit
  omega

end Query

namespace Catalog

variable {catalog : Catalog} {query : Query} {text : String}

/-- A query does not nest too deep if none of its groups has many clauses, also where it is
restricted to present items. -/
theorem isTooDeep_restricted
    (bound : ∀ group ∈ query.groups, query.groups.length + group.length ≤ 979)
    (presentOnly : Bool) : isTooDeep (query.restricted presentOnly).conditions = false := by
  have count : query.groups.length ≤ 979 := by
    cases split : query.groups with
    | nil => exact Nat.zero_le _
    | cons group rest =>
        have first := bound group (by rw [split]; exact .head _)
        rw [split] at first
        omega
  cases presentOnly with
  | false =>
      refine isTooDeep_conditions (979 - query.groups.length) (fun group listed => ?_) ?_
      · exact Nat.le_sub_of_add_le' (bound group listed)
      · change query.groups.length + (979 - query.groups.length) ≤ 980
        omega
  | true =>
      have kept : (query.restricted true).groups =
          (if query.groups.isEmpty then [[]] else query.groups).map (· ++ [Query.Clause.present]) :=
        rfl
      by_cases empty : query.groups = []
      · rw [empty] at kept
        exact isTooDeep_conditions 1 (by simp [kept]) (by simp [kept])
      · rw [if_neg (by simpa using empty)] at kept
        refine isTooDeep_conditions (980 - query.groups.length) ?_ ?_
        · intro _ among
          rw [kept] at among
          obtain ⟨group, listed, rfl⟩ := List.mem_map.mp among
          have size := bound group listed
          rw [List.length_append, List.length_singleton]
          omega
        · rw [kept, List.length_map]
          omega

/-- The conditions of a text that is not long do not nest too deep. -/
theorem isTooDeep_of_parse (accepted : Query.parse text = .ok query) (short : text.length ≤ 978)
    (presentOnly : Bool) : isTooDeep (query.restricted presentOnly).conditions = false := by
  obtain ⟨pieces, cut, formed⟩ := Query.parse_eq_ok_iff.mp accepted
  rw [Query.forms_iff_joined formed.nil_notMem] at formed
  subst formed
  have few := cut.length_le
  rw [String.length_toList] at few
  refine isTooDeep_restricted (fun group listed => ?_) presentOnly
  have counted := Query.length_joined listed
  omega

/-- A search fails exactly if the query is refused or a row fails before enough rows have been
found. -/
theorem search?_eq_none_iff {limit : Option Nat} (small : ∀ count ∈ limit, count < 2 ^ 63) :
    catalog.search? query limit = none ↔ query.isRefused = true ∨
      ∃ before row after, catalog.rows = before ++ row :: after ∧
        Condition.groupsVerdict catalog query.conditions row = none ∧
        ∀ count ∈ limit, (before.filter (Condition.groupsVerdict catalog query.conditions · ==
          some true)).length < count := by
  have bounded : limit.any (Query.limitBound ≤ ·) = false := by
    cases limit with
    | none => rfl
    | some count => exact decide_eq_false (Nat.not_le.mpr (small count rfl))
  rw [← Query.collect_eq_none_iff, search?]
  cases query.isRefused <;> simp [bounded]

/-- A count fails exactly if the query is refused or a row fails. -/
theorem count?_eq_none_iff :
    catalog.count? query = none ↔ query.isRefused = true ∨
      ∃ row ∈ catalog.rows, Condition.groupsVerdict catalog query.conditions row = none := by
  rw [count?_eq_map_length, Option.map_eq_none_iff, search?_eq_none_iff (by simp)]
  refine or_congr_right ⟨?_, ?_⟩
  · rintro ⟨before, row, after, whole, failed, -⟩
    exact ⟨row, by simp [whole], failed⟩
  · rintro ⟨row, member, failed⟩
    obtain ⟨before, after, whole⟩ := List.append_of_mem member
    exact ⟨before, row, after, whole, failed, by simp⟩

/-- **Why a search fails.** A count for a text that is read as a query fails exactly if its
conditions nest too deep, it has too many parameters, or some row cannot be tried, and a search
exactly if it comes to such a row before it has as many items as are asked for. Conditions do not nest
too deep in a text of at most 978 characters, and parameters are not too many in one of at most 6553.
A row cannot be tried only if the query has a text term that cannot be looked up and stands in the
text, and no row can be tried if all its clauses are such terms. So a text of at most 978 characters
without a NUL character is always answered. -/
theorem search_fails_iff (accepted : Query.parse text = .ok query) (presentOnly : Bool)
    (catalog : Catalog) :
    let asked := query.restricted presentOnly
    let tried := Condition.groupsVerdict catalog asked.conditions
    (text.length ≤ 978 → '\x00' ∉ text.toList → (catalog.count? asked).isSome = true ∧
      ∀ limit : Option Nat, (∀ count ∈ limit, count < 2 ^ 63) →
        (catalog.search? asked limit).isSome = true) ∧
    (catalog.count? asked = none ↔ isTooDeep asked.conditions = true ∨
      Query.parameterLimit < asked.parameters ∨ ∃ row ∈ catalog.rows, tried row = none) ∧
    (∀ limit : Option Nat, (∀ count ∈ limit, count < 2 ^ 63) →
      (catalog.search? asked limit = none ↔ isTooDeep asked.conditions = true ∨
        Query.parameterLimit < asked.parameters ∨
        ∃ before row after, catalog.rows = before ++ row :: after ∧ tried row = none ∧
          ∀ count ∈ limit, (before.filter (tried · == some true)).length < count)) ∧
    (text.length ≤ 978 → isTooDeep asked.conditions = false) ∧
    (text.length ≤ 6553 → asked.parameters ≤ Query.parameterLimit) ∧
    (∀ row, tried row = none → ∃ group ∈ query.groups, ∃ value negated,
      .text value negated ∈ group ∧ value.toList.any isAlphanumeric = true ∧
        '\x00' ∈ value.toList ∧ value.toList <:+: text.toList) ∧
    (presentOnly = false → query.groups ≠ [] →
      (∀ group ∈ query.groups, ∀ clause ∈ group, clause.IsUnreadable) →
        ∀ row, tried row = none) := by
  intro asked tried
  have because (row : Row) (failed : tried row = none) : ∃ group ∈ query.groups,
      ∃ value negated, .text value negated ∈ group ∧ value.toList.any isAlphanumeric = true ∧
        '\x00' ∈ value.toList ∧ value.toList <:+: text.toList := by
    obtain ⟨group, listed, clause, member, unreadable⟩ :=
      Query.exists_isUnreadable_of_restricted (Query.exists_isUnreadable_of_groupsVerdict failed)
    obtain ⟨pieces, cut, formed⟩ := Query.parse_eq_ok_iff.mp accepted
    cases clause with
    | text value negated =>
        exact ⟨group, listed, value, negated, member, unreadable.1, unreadable.2,
          cut.isInfix_of_text (formed.clause_mem listed member)⟩
    | filter test => exact unreadable.elim
  have few (short : text.length ≤ 6553) : asked.parameters ≤ Query.parameterLimit := by
    rw [Query.parameters_restricted]
    exact Query.parameters_le_of_parse accepted short
  refine ⟨fun short readable => ?_, ?_, fun limit small => ?_,
    fun short => isTooDeep_of_parse accepted short presentOnly, few, because, ?_⟩
  · have taken : asked.isRefused = false := Query.isRefused_eq_false_iff.mpr
      ⟨isTooDeep_of_parse accepted short presentOnly, few (Nat.le_trans short (by decide))⟩
    have tries (row : Row) : tried row ≠ none := by
      intro failed
      obtain ⟨_, -, value, _, -, -, marked, inside⟩ := because row failed
      exact readable (inside.subset marked)
    constructor
    · rw [Option.isSome_iff_ne_none, ne_eq, count?_eq_none_iff]
      rintro (refused | ⟨row, -, failed⟩)
      · exact Bool.false_ne_true (taken.symm.trans refused)
      · exact tries row failed
    · intro limit small
      rw [Option.isSome_iff_ne_none, ne_eq, search?_eq_none_iff small]
      rintro (refused | ⟨_, row, _, -, failed, -⟩)
      · exact Bool.false_ne_true (taken.symm.trans refused)
      · exact tries row failed
  · rw [count?_eq_none_iff, Query.isRefused_iff, or_assoc]
  · rw [search?_eq_none_iff small, Query.isRefused_iff, or_assoc]
  · rintro rfl some unreadable row
    exact Query.groupsVerdict_of_forall_isUnreadable some (Query.nil_notMem_of_parse accepted)
      unreadable catalog row

/-- Groups of words may be refused for their parameters although they do not nest too deep. -/
example : let query : Query := ⟨List.replicate 182 (List.replicate 182 (.text "a" false))⟩
    isTooDeep query.conditions = false ∧ Query.parameterLimit < query.parameters := by
  intro query
  constructor
  · refine isTooDeep_restricted (fun group listed => ?_) false
    rw [List.eq_of_mem_replicate listed, List.length_replicate, List.length_replicate]
    decide
  · have word : (Query.Clause.text "a" false).parameters = 1 := by decide +kernel
    have each (count : Nat) : (List.replicate count (Query.Clause.text "a" false)).foldr
        (fun clause total => clause.parameters + total) 0 = count := by
      induction count with
      | zero => rfl
      | succ count step => rw [List.replicate_succ, List.foldr_cons, step, word, Nat.add_comm]
    rw [Query.parameters, List.flatten_replicate_replicate, each]
    decide

/-- What would be operators of the text index are ordinary terms. -/
theorem search_fails_iff_of_operators :
    let store := MemoryStore.new.put "a" "1s title +NEAR(x" ⟨"a.mp3", true⟩
    let catalog := (Catalog.empty.build 1 store.answers).catalog
    let query : Query :=
      ⟨[[.text "near(\"x" false, .text "title*" false], [.text "a - AND ^b" true]]⟩
    Query.parse "near(\"x title* | -\"a - AND ^b\"" = .ok query ∧
      (catalog.count? (query.restricted true)).isSome = true ∧
      (catalog.search? (query.restricted true) (some 1)).isSome = true := by
  intro store catalog query
  have accepted : Query.parse "near(\"x title* | -\"a - AND ^b\"" = .ok query := by
    decide +kernel
  obtain ⟨counted, searched⟩ :=
    (search_fails_iff accepted true catalog).1 (by decide) (by decide)
  exact ⟨accepted, counted, searched (some 1) (by simp)⟩

/-- A word with a NUL character is read as a term, and neither counted nor searched for. -/
theorem search_fails_on_nul :
    let store := MemoryStore.new.put "k1" "1s title +x" ⟨"x.mp3", true⟩
    let catalog := (Catalog.empty.build 1 store.answers).catalog
    let query : Query := ⟨[[.text "a\x00b" false]]⟩
    catalog.Reachable ∧ Query.parse "a\x00b" = .ok query ∧ catalog.search? query none = none ∧
      catalog.search? query (some 1) = none ∧ catalog.count? query = none := by
  intro store catalog query
  exact ⟨Reachable.empty.build 1 store.answers, by decide +kernel, by decide +kernel,
    by decide +kernel, by decide +kernel⟩

end Catalog

end AnnexCatalog
