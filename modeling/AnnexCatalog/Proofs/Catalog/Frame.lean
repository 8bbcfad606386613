import AnnexCatalog.Proofs.Catalog.Dossiers
import AnnexCatalog.Proofs.Search.Results
import AnnexCatalog.Proofs.Store.Memory

/-! # What a refresh leaves alone

A refresh writes the changed keys and no others. The tables hold the same of any other key before
and after it (`mem_dossiers_write_iff`), so its item is found and read as before, and a query says
the same of it (`Unchanged`). A key that is written anew keeps its number, as long as it is not
deleted (`exists_row_write`).
-/

namespace AnnexCatalog.Catalog

variable {catalog : Catalog} {now : Nat}

/-! ### Numbers are kept -/

/-- An item keeps its number under a write that does not delete it. -/
theorem exists_row_write {write : Write} {row : Row} (consistent : catalog.Consistent)
    (lawful : write.Lawful) (member : row ∈ catalog.rows) (kept : write ≠ .delete row.key) :
    ∃ other ∈ (catalog.write write).rows, other.key = row.key ∧ other.id = row.id := by
  have listed : catalog.dossier row ∈ catalog.dossiers := List.mem_map_of_mem member
  have among {after : Catalog} {dossier : Dossier} (found : dossier ∈ after.dossiers) :
      dossier.row ∈ after.rows := by
    rw [← map_row_dossiers]
    exact List.mem_map_of_mem found
  by_cases other : row.key = write.key
  · cases write with
    | upsert record =>
        refine ⟨(record.renewal (catalog.dossier row)).row, among ?_, key_renewal record _, ?_⟩
        · rw [Catalog.write, dossiers_upsert consistent lawful]
          exact List.mem_append_left _ (List.mem_map_of_mem listed)
        · have named : (catalog.dossier row).row.key = record.key := other
          rw [Record.renewal, if_pos named]
          rfl
    | delete key => exact absurd (congrArg Write.delete other.symm) kept
  · exact ⟨row, among ((mem_dossiers_write_iff consistent lawful other).mpr listed), rfl, rfl⟩

/-- A row whose key is not deleted keeps its id. -/
theorem exists_row_foldl_write {writes : List Write} {row : Row} (consistent : catalog.Consistent)
    (lawful : ∀ write ∈ writes, write.Lawful) (member : row ∈ catalog.rows)
    (kept : .delete row.key ∉ writes) :
    ∃ other ∈ (writes.foldl Catalog.write catalog).rows,
      other.key = row.key ∧ other.id = row.id := by
  induction writes generalizing catalog row with
  | nil => exact ⟨row, member, rfl, rfl⟩
  | cons write rest step =>
      rw [List.mem_cons, not_or] at kept
      have head := lawful write List.mem_cons_self
      obtain ⟨next, listed, named, numbered⟩ :=
        exists_row_write consistent head member (Ne.symm kept.1)
      obtain ⟨other, found, otherNamed, otherNumbered⟩ := step (consistent.write head)
        (fun other inside => lawful other (List.mem_cons_of_mem _ inside)) listed
        (named ▸ kept.2)
      exact ⟨other, found, otherNamed.trans named, otherNumbered.trans numbered⟩

/-! ### Equal dossiers -/

section Equal

variable {before after : Catalog} {row : Row}

/-- The item of a row is read from its dossier. -/
theorem itemOf_eq_of_dossier_eq (same : after.dossier row = before.dossier row) :
    after.itemOf row = before.itemOf row := by
  have entries (catalog : Catalog) : catalog.memberships.filter (fun entry => [row.id].contains
      entry.id) = (catalog.membersOf row.id).map fun entry => ⟨row.id, entry.1, entry.2⟩ := by
    have here : (fun entry : Membership => [row.id].contains entry.id) =
        fun entry => entry.id == row.id := by
      funext entry
      rw [Bool.eq_iff_iff, List.contains_iff_mem, List.mem_singleton, beq_iff_eq]
    rw [membersOf, List.map_map, here]
    symm
    refine (List.map_congr_left fun entry member => ?_).trans (List.map_id _)
    rw [Function.comp_apply, ← beq_iff_eq.mp (List.mem_filter.mp member).2]
    rfl
  have members : after.membersOf row.id = before.membersOf row.id := congrArg Dossier.members same
  rw [itemOf, itemOf, Membership.select, Membership.select, entries, entries, members]

/-- What a query says of a row, or whether its trial fails, is told by the dossier of the row. -/
theorem groupsVerdict_eq_of_dossier_eq (same : after.dossier row = before.dossier row)
    (groups : List (List Condition)) :
    Condition.groupsVerdict after groups row = Condition.groupsVerdict before groups row := by
  have verdicts : Condition.verdict after row = Condition.verdict before row := by
    funext condition
    have content : (after.dossier row).content = (before.dossier row).content :=
      congrArg Dossier.content same
    rw [Condition.verdict, Condition.verdict, Condition.truth_eq_of_content_eq content]
  unfold Condition.groupsVerdict
  rw [verdicts]

end Equal

/-! ### Unchanged keys -/

/-- A key is as before: it has the same row or none, the tables hold the same of it, its item is
read as before, and queries say the same of it, so they find the item if they found it. -/
structure Unchanged (before after : Catalog) (key : String) : Prop where
  row : after.row? key = before.row? key
  dossier : ∀ row, before.row? key = some row → after.dossier row = before.dossier row
  item : after.find? key = before.find? key
  verdict : ∀ row, before.row? key = some row → ∀ query : Query,
    Condition.groupsVerdict after query.conditions row =
      Condition.groupsVerdict before query.conditions row
  found : ∀ (query : Query) (earlier later : List Item),
    before.search? query none = some earlier → after.search? query none = some later →
      ∀ item : Item, item.key = key → (item ∈ later ↔ item ∈ earlier)

/-- A search finds the items of the rows with a positive verdict. -/
theorem mem_search?_iff (consistent : catalog.Consistent) {query : Query} {found : List Item}
    (searched : catalog.search? query none = some found) {item : Item} :
    item ∈ found ↔ ∃ row ∈ catalog.rows,
      Condition.groupsVerdict catalog query.conditions row = some true ∧
        catalog.itemOf row = item := by
  obtain ⟨-, -, rows, collected, rfl⟩ := search?_eq_some_iff.mp searched
  have agrees : ∀ row ∈ catalog.rows, ∀ outcome,
      Condition.groupsVerdict catalog query.conditions row = some outcome →
        outcome = (Condition.groupsVerdict catalog query.conditions row == some true) := by
    intro row _ outcome tried
    rw [tried]
    cases outcome <;> rfl
  rw [Query.eq_filter_of_collect agrees collected,
    attach_eq_map (consistent.ids_nodup List.filter_sublist), List.mem_map]
  simp only [List.mem_filter, beq_iff_eq, and_assoc]

/-- An item is found as the item of its row. -/
theorem find?_eq_map (consistent : catalog.Consistent) (key : String) :
    catalog.find? key = (catalog.row? key).map catalog.itemOf := by
  cases found : catalog.row? key with
  | none => rw [find?, found]; rfl
  | some row =>
      obtain ⟨member, rfl⟩ := mem_of_row?_eq_some found
      exact find?_key_of_mem consistent member

/-- A key is unchanged where the tables hold the same dossiers of it. -/
theorem unchanged_of_dossiers {before after : Catalog} (earlier : before.Consistent)
    (later : after.Consistent) {key : String}
    (same : ∀ dossier : Dossier, dossier.row.key = key →
      (dossier ∈ after.dossiers ↔ dossier ∈ before.dossiers)) : Unchanged before after key := by
  have mem_rows_iff (catalog : Catalog) (row : Row) :
      row ∈ catalog.rows ↔ ∃ dossier ∈ catalog.dossiers, dossier.row = row := by
    rw [← map_row_dossiers, List.mem_map]
  have rows (row : Row) (named : row.key = key) : row ∈ after.rows ↔ row ∈ before.rows := by
    rw [mem_rows_iff, mem_rows_iff]
    refine exists_congr fun dossier => and_congr_left ?_
    rintro rfl
    exact same dossier named
  have row : after.row? key = before.row? key := by
    ext row
    rw [row?_eq_some_iff later, row?_eq_some_iff earlier]
    exact and_congr_left (rows row)
  have dossier (row : Row) (held : before.row? key = some row) :
      after.dossier row = before.dossier row := by
    obtain ⟨member, named⟩ := mem_of_row?_eq_some held
    have listed := (same (before.dossier row) named).mpr (List.mem_map_of_mem member)
    obtain ⟨other, -, found⟩ := List.mem_map.mp listed
    cases congrArg Dossier.row found
    exact found
  refine ⟨row, dossier, ?_, fun row held query => ?_, ?_⟩
  · rw [find?_eq_map later, find?_eq_map earlier, row]
    cases held : before.row? key with
    | none => rfl
    | some row => exact congrArg some (itemOf_eq_of_dossier_eq (dossier row held))
  · exact groupsVerdict_eq_of_dossier_eq (dossier row held) query.conditions
  · intro query found foundLater searched searchedLater item named
    rw [mem_search?_iff later searchedLater, mem_search?_iff earlier searched]
    refine exists_congr fun row => ?_
    by_cases here : row.key = key
    · rw [rows row here]
      refine and_congr_right fun member => ?_
      have same := dossier row ((row?_eq_some_iff earlier).mpr ⟨member, here⟩)
      rw [groupsVerdict_eq_of_dossier_eq same, itemOf_eq_of_dossier_eq same]
    · have elsewhere (catalog : Catalog) : catalog.itemOf row ≠ item := by
        rintro rfl
        exact here named
      simp only [elsewhere, and_false]

/-! ### Refreshes -/

variable {store : LogStore}

/-- Writing changes writes each changed key. -/
theorem dossiers_writeChanges (changes : Changes) :
    (catalog.writeChanges now changes).dossiers =
      ((changes.keys.toList.map (changes.write now)).foldl write catalog).dossiers := by
  rw [writeChanges_eq]
  rfl

theorem rows_writeChanges (changes : Changes) :
    (catalog.writeChanges now changes).rows =
      ((changes.keys.toList.map (changes.write now)).foldl write catalog).rows := by
  rw [writeChanges_eq]

/-- Taking over changes leaves all other keys as they were. -/
theorem unchanged_writeChanges (consistent : catalog.Consistent) (changes : Changes) {key : String}
    (untouched : changes.keys.contains key = false) :
    Unchanged catalog (catalog.writeChanges now changes) key := by
  refine unchanged_of_dossiers consistent (consistent.writeChanges changes) ?_
  rintro dossier rfl
  rw [dossiers_writeChanges]
  refine mem_dossiers_foldl_write_iff consistent (lawful_changes_write changes now _) ?_
  rw [map_key_changes_write, TextSet.mem_toList_iff, untouched]
  exact Bool.false_ne_true

/-- A changed key with a log keeps its number. -/
theorem exists_row_writeChanges (consistent : catalog.Consistent) (changes : Changes) {row : Row}
    (member : row ∈ catalog.rows) (logged : (changes.blob? row.key).isSome = true) :
    ∃ other ∈ (catalog.writeChanges now changes).rows,
      other.key = row.key ∧ other.id = row.id := by
  rw [rows_writeChanges]
  refine exists_row_foldl_write consistent (lawful_changes_write changes now _) member ?_
  intro deleted
  obtain ⟨key, -, same⟩ := List.mem_map.mp deleted
  have named : key = row.key := by
    rw [← key_changes_write changes now key, same]
    rfl
  obtain ⟨blob, found⟩ := Option.isSome_iff_exists.mp logged
  rw [named, changes_write_eq_upsert_iff.mpr ⟨blob, found, rfl⟩] at same
  cases same

theorem isSome_blob?_of_mem {changes : Changes} {blob : Blob} (member : blob ∈ changes.blobs) :
    (changes.blob? blob.key).isSome = true := by
  rw [Changes.blob?, List.find?_isSome]
  exact ⟨blob, List.mem_reverse.mpr member, beq_iff_eq.mpr rfl⟩

/-- **A refresh touches only what has changed.** Where the store is still at the revision of the
catalog, a refresh that succeeds leaves the catalog as it is. Otherwise every key that the store does
not report as changed is unchanged, and a changed key that was in the catalog and still has a log
keeps its number. -/
theorem refresh_touches_only_changed (consistent : catalog.Consistent) {state : BuildState}
    (built : catalog.state = some state) {outcome : Option RefreshSummary}
    (succeeded : (catalog.refresh now store).outcome = .ok outcome) :
    let after := (catalog.refresh now store).catalog
    (store.currentRevision = .ok state.revision ∧ after = catalog) ∨
      ∃ revision changed, store.currentRevision = .ok revision ∧ revision ≠ state.revision ∧
        store.changedItems state.revision revision = .ok changed ∧
        (∀ key, changed.contains key = false → Unchanged catalog after key) ∧
        ∀ row ∈ catalog.rows, changed.contains row.key = true →
          ∀ blobs, store.fetchItems revision changed = .ok blobs → row.key ∈ blobs.map Blob.key →
            ∃ other ∈ after.rows, other.key = row.key ∧ other.id = row.id := by
  intro after
  cases read : (readChanges store state.revision).outcome with
  | error fault =>
      rw [refresh_of_refused built now read] at succeeded
      cases succeeded
  | ok found =>
      cases found with
      | none =>
          exact .inl ⟨readChanges_eq_ok_none_iff.mp read,
            congrArg Run.catalog (refresh_of_unmoved built now read)⟩
      | some changes =>
          obtain ⟨current, moved, changed, fetched⟩ := readChanges_eq_ok_some_iff.mp read
          have refreshed : after = catalog.writeChanges now changes :=
            congrArg Run.catalog (refresh_of_read built now read)
          rw [refreshed]
          refine .inr ⟨changes.revision, changes.keys, current, moved, changed,
            fun key untouched => unchanged_writeChanges consistent changes untouched, ?_⟩
          intro row member touched blobs answered logged
          have some : changes.keys.isEmpty ≠ true := by
            intro empty
            rw [(TextSet.isEmpty_iff _).mp empty] at touched
            cases touched
          rw [if_neg some] at fetched
          cases fetched.1.symm.trans answered
          obtain ⟨blob, listed, named⟩ := List.mem_map.mp logged
          exact exists_row_writeChanges consistent changes member
            (named ▸ isSome_blob?_of_mem listed)

/-- One item is edited, the last one is removed, and a new one takes over its number. -/
theorem refresh_touches_only_changed_of_reused :
    let before := ((MemoryStore.new.put "a" "1s title +One" ⟨"a.mp3", true⟩).put "b"
      "1s title +Two" ⟨"b.mp3", false⟩).put "c" "1s crate +x" ⟨"c.mp3", true⟩
    let store := ((before.put "b" "1s title +Too" ⟨"b.mp3", true⟩).remove "c").put "d"
      "2s genre +A +B" ⟨"d.mp3", true⟩
    let catalog := (Catalog.empty.build 1 before.answers).catalog
    let run := catalog.refresh 2 store.answers
    let summary : RefreshSummary := ⟨some "r3", "r6", 3, 2, 1, 0⟩
    catalog.Consistent ∧ catalog.state = some ⟨"r3", 1, 3⟩ ∧ run.outcome = .ok (some summary) ∧
      catalog.rows.map (fun row => (row.id, row.key)) = [(1, "a"), (2, "b"), (3, "c")] ∧
      run.catalog.rows.map (fun row => (row.id, row.key)) = [(1, "a"), (2, "b"), (3, "d")] ∧
      Unchanged catalog run.catalog "a" := by
  intro before store catalog run summary
  have reached : catalog.Reachable := Reachable.empty.build 1 before.answers
  have consistent := reached.sound.consistent
  have built : catalog.state = some ⟨"r3", 1, 3⟩ := by decide +kernel
  have succeeded : run.outcome = .ok (some summary) := by decide +kernel
  refine ⟨consistent, built, succeeded, by decide +kernel, by decide +kernel, ?_⟩
  rcases refresh_touches_only_changed consistent built succeeded with
    ⟨unmoved, -⟩ | ⟨revision, changed, current, -, reported, others, -⟩
  · exact absurd unmoved (by decide +kernel)
  · cases Except.ok.inj (current.symm.trans (show store.answers.currentRevision = .ok "r6" by
      decide +kernel))
    refine others "a" ?_
    have untouched : (store.answers.changedItems "r3" "r6").toOption.map (·.contains "a") =
        some false := by decide +kernel
    rw [reported] at untouched
    exact Option.some.inj untouched

end AnnexCatalog.Catalog
