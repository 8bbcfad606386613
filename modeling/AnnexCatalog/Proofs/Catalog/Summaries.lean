import AnnexCatalog.Proofs.Catalog.Filing
import AnnexCatalog.Proofs.Catalog.Rebuild
import AnnexCatalog.Proofs.Log.Rejections
import Mathlib.Data.Set.Card

/-! # Summaries are exact

What a build or a refresh tells in the end is what has happened to the logs between two revisions
(`BuildSummary.Tells`, `RefreshSummary.Tells`), and its reports count the keys as they are taken over
(`Run.Concludes`). A refresh deletes the row of every key that has lost its log, and each such key
has a row because the catalog mirrors the revision it was built from; so the removals are counted
from the two snapshots alone (`Follows.summaries_exact`).
-/

namespace AnnexCatalog

open Catalog Log MemoryStore

/-- Answers that relay a store and report no other keys as changed than those that have changed. -/
structure LogStore.Echoes (answers store : LogStore) : Prop extends answers.Relays store where
  changedAlone : ∀ old new keys, answers.changedItems old new = .ok keys →
    store.changedItems old new = .ok keys

theorem LogStore.Echoes.refl (store : LogStore) : store.Echoes store where
  toRelays := .refl store
  changedAlone _ _ _ answered := answered

/-- The complaints about a log: one about each line that is rejected, and one about each field with
a single value that should be a number and is none. -/
def Log.complaints (log : String) : Nat :=
  (rejectedNumbers log).length + (misread (decode log).fields).length

/-- A build tells the number of keys and of complaints about their logs. -/
structure BuildSummary.Tells (summary : BuildSummary) (snapshot : Snapshot) : Prop where
  itemCount : {key | snapshot.contains key = true}.encard = summary.itemCount
  warnings : summary.warnings = (snapshot.entries.map fun entry => complaints entry.2).sum

/-- A refresh tells the numbers of keys whose logs differ, of those that have a log now and of those
that have none any more, and the number of complaints about the logs that are new. -/
structure RefreshSummary.Tells (summary : RefreshSummary) (old new : Snapshot) : Prop where
  changed : {key | old.get? key ≠ new.get? key}.encard = summary.changed
  updated : {key | old.get? key ≠ new.get? key ∧ new.contains key = true}.encard = summary.updated
  removed : {key | old.contains key = true ∧ new.contains key = false}.encard = summary.removed
  parts : summary.changed = summary.updated + summary.removed
  warnings : summary.warnings = ((new.entries.filter fun entry =>
    old.get? entry.1 ≠ some entry.2).map fun entry => complaints entry.2).sum

/-- The reports that are due on the way to `total` keys, one at every multiple of a thousand. -/
def thousands (total : Nat) : List Progress :=
  ((List.range (total + 1)).filter fun done => 0 < done ∧ 1000 ∣ done).map (.step · total)

/-- A run has made all its calls before it reported anything, has then reported every thousand of
the keys, committed the catalog that it leaves, and only after that reported that it is complete; and
that catalog is at the current revision of a store. -/
structure Run.Concludes {α : Type} (run : Run α) (store : MemoryStore) (now total completed : Nat) :
    Prop where
  events : run.events = run.calls.map .called ++ (thousands total).map .reported ++
    [.committed run.catalog, .reported (.complete completed)]
  state : ∃ count, run.catalog.state = some ⟨store.currentName, now, count⟩ ∧
    {key | store.current.contains key = true}.encard = count

/-- What a run that concludes has reported: every thousand, and the completion last of all. -/
theorem Run.Concludes.progress {α : Type} {run : Run α} {store : MemoryStore}
    {now total completed : Nat} (concludes : run.Concludes store now total completed) :
    run.progress = thousands total ++ [.complete completed] := by
  have silent : run.calls.filterMap (RunEvent.report? ∘ RunEvent.called) = [] :=
    List.filterMap_none _
  have told : (thousands total).filterMap (RunEvent.report? ∘ RunEvent.reported) =
      thousands total := List.filterMap_some
  rw [Run.progress, concludes.events, List.filterMap_append, List.filterMap_append,
    List.filterMap_map, List.filterMap_map, silent, told]
  rfl

/-- The logs that a catalog was built from; none where it was never built. -/
def Catalog.basis? (store : MemoryStore) (catalog : Catalog) : Option Snapshot :=
  match catalog.state with
  | none => some TextMap.empty
  | some state => store.recorded state.revision

/-! ### Counting -/

theorem TextSet.toList_nodup (set : TextSet) : set.toList.Nodup :=
  TextMap.keys_nodup set

/-- The texts with a property are as many as there are in a list of them without repeats. -/
theorem encard_eq_length {texts : List String} (distinct : texts.Nodup) {holds : String → Prop}
    (listed : ∀ text, text ∈ texts ↔ holds text) : {text | holds text}.encard = texts.length := by
  have same : {text | holds text} = (texts.toFinset : Set String) := by
    ext text
    rw [Set.mem_ofPred_eq, ← listed, List.coe_toFinset, Set.mem_ofPred_eq]
  rw [same, Set.encard_coe_eq_coe_finsetCard, List.toFinset_card_of_nodup distinct]

/-- On the way through the rest of a list, the thousands among its places are reported. -/
theorem milestones_eq_map {α : Type} (total done : Nat) (list : List α) :
    milestones total done list =
      ((List.range' (done + 1) list.length).filter (1000 ∣ ·)).map (.step · total) := by
  induction list generalizing done with
  | nil => rfl
  | cons entry rest step =>
      rw [List.length_cons, List.range'_succ, List.filter_cons, milestones]
      by_cases due : 1000 ∣ done + 1
      · rw [if_pos (Nat.mod_eq_zero_of_dvd due), if_pos (decide_eq_true due), List.map_cons, step]
      · rw [if_neg (due ∘ Nat.dvd_of_mod_eq_zero), if_neg (due ∘ of_decide_eq_true), step]

/-- From the start of a list, those are all thousands up to its length. -/
theorem milestones_eq_thousands {α : Type} (list : List α) :
    milestones list.length 0 list = thousands list.length := by
  have positive : (List.range' 1 list.length).filter (1000 ∣ ·) =
      (List.range' 1 list.length).filter fun done => 0 < done ∧ 1000 ∣ done := by
    refine List.filter_congr fun done member => ?_
    have above : 0 < done := (List.mem_range'_1.mp member).1
    simp only [above, true_and]
  rw [milestones_eq_map, thousands, List.range_eq_range', List.range'_succ, positive]
  rfl

/-- A run that reports every thousand on its way and commits a catalog that is current concludes. -/
theorem concludes_writing {α β : Type} {list : List β} {store : MemoryStore} {catalog : Catalog}
    {now total completed : Nat} (calls : List StoreCall) (result : α) (length : list.length = total)
    (state : ∃ count, catalog.state = some ⟨store.currentName, now, count⟩ ∧
      {key | store.current.contains key = true}.encard = count) :
    (Run.writing catalog calls (milestones list.length 0 list) completed result).Concludes store now
      total completed where
  events := by
    rw [Run.calls_writing, Run.writing, milestones_eq_thousands, length]
  state := state

/-- The warnings of some logs are those of each of them, added up. -/
theorem warningsOf_eq_complaints (logs : List Blob) :
    warningsOf logs = (logs.map fun log => complaints log.content).sum := by
  rw [warningsOf_eq_sum]
  refine congrArg List.sum (List.map_congr_left fun log _ => ?_)
  rw [complaints, ← map_line_warnings, List.length_map]
  rfl

/-- The warnings of a snapshot are those of its logs, added up. -/
theorem warningsOf_blobs (snapshot : Snapshot) :
    warningsOf (blobs snapshot) = (snapshot.entries.map fun entry => complaints entry.2).sum := by
  rw [warningsOf_eq_complaints, blobs, List.map_map]
  rfl

/-- The keys that a store lists are those of a snapshot. -/
theorem encard_blobs (snapshot : Snapshot) :
    {key | snapshot.contains key = true}.encard =
      (TextSet.ofTexts ((blobs snapshot).map Blob.key)).toList.length := by
  refine encard_eq_length (TextSet.toList_nodup _) fun key => ?_
  rw [TextSet.mem_toList_iff, TextSet.contains_ofTexts_iff, map_key_blobs, TextMap.mem_keys_iff]

theorem length_blobs (snapshot : Snapshot) :
    (TextSet.ofTexts ((blobs snapshot).map Blob.key)).toList.length = (blobs snapshot).length := by
  have listed := encard_eq_length snapshot.keys_nodup (snapshot.mem_keys_iff ·)
  rw [encard_blobs, Nat.cast_inj] at listed
  rw [listed, ← map_key_blobs, List.length_map]

/-! ### What has changed between two snapshots -/

section Changes

variable {changes : Changes} {old new : Snapshot} {catalog : Catalog}

/-- A changed key has a log among those that were read exactly if the new snapshot has one. -/
theorem blob?_of_lead (lead : changes.Lead old new) {key : String}
    (changed : changes.keys.contains key = true) :
    (changes.blob? key).isSome = new.contains key := by
  rw [lead.logs key changed, Option.isSome_map]
  rfl

/-- The changed keys are those whose logs differ. -/
theorem contains_keys_iff (alone : changes.keys = old.differences new) (key : String) :
    changes.keys.contains key = true ↔ old.get? key ≠ new.get? key :=
  alone ▸ TextMap.contains_differences_iff old new key

/-- The keys to be updated are the changed ones that the new snapshot has. -/
theorem map_key_updates (lead : changes.Lead old new) :
    changes.updates.map Blob.key = changes.keys.toList.filter new.contains := by
  rw [Changes.updates, List.map_filterMap, ← List.filterMap_eq_filter]
  refine List.filterMap_congr fun key member => ?_
  have changed := (TextSet.mem_toList_iff _ key).mp member
  rw [lead.logs key changed, Option.map_map]
  cases present : new.get? key <;> simp [Option.guard, TextMap.contains, present]

/-- The changed keys are counted. -/
theorem encard_changed (alone : changes.keys = old.differences new) :
    {key | old.get? key ≠ new.get? key}.encard = changes.keys.toList.length :=
  encard_eq_length (TextSet.toList_nodup _) fun key =>
    (TextSet.mem_toList_iff _ key).trans (contains_keys_iff alone key)

variable (lead : changes.Lead old new) (alone : changes.keys = old.differences new)
include lead alone

/-- The changed keys with a log are counted. -/
theorem encard_updated :
    {key | old.get? key ≠ new.get? key ∧ new.contains key = true}.encard =
      changes.updates.length := by
  rw [← List.length_map Blob.key, map_key_updates lead]
  refine encard_eq_length (List.Nodup.filter _ (TextSet.toList_nodup _)) fun key => ?_
  rw [List.mem_filter, TextSet.mem_toList_iff, contains_keys_iff alone]

/-- A changed key without a log now had one before, and so the catalog has a row of it. -/
theorem removals_eq (mirrors : catalog.Mirrors old) :
    changes.removals catalog = changes.keys.toList.filter fun key => !new.contains key := by
  refine List.filter_congr fun key member => ?_
  have changed := (TextSet.mem_toList_iff _ key).mp member
  have differs := (contains_keys_iff alone key).mp changed
  have found := blob?_of_lead lead changed
  rw [← Option.not_isSome, found]
  cases present : new.contains key with
  | true => rfl
  | false =>
      have lost : new.get? key = none :=
        Option.isNone_iff_eq_none.mp (Option.isSome_eq_false_iff.mp present)
      have before : old.contains key = true := Option.isSome_iff_ne_none.mpr (lost ▸ differs)
      have row : (catalog.row? key).isSome = true := Option.isSome_iff_ne_none.mpr fun none =>
        row?_eq_none_iff.mp none ((mirrors.keys key).mpr before)
      rw [row]
      rfl

/-- The keys that lost their log are counted, if the catalog mirrors the old snapshot. -/
theorem encard_removed (mirrors : catalog.Mirrors old) :
    {key | old.contains key = true ∧ new.contains key = false}.encard =
      (changes.removals catalog).length := by
  rw [removals_eq lead alone mirrors]
  refine encard_eq_length (List.Nodup.filter _ (TextSet.toList_nodup _)) fun key => ?_
  rw [List.mem_filter, TextSet.mem_toList_iff, contains_keys_iff alone, TextMap.contains,
    TextMap.contains]
  cases old.get? key <;> cases new.get? key <;> simp

/-- Every changed key is updated or removed. -/
theorem length_changed (mirrors : catalog.Mirrors old) :
    changes.keys.toList.length = changes.updates.length + (changes.removals catalog).length := by
  have updates : changes.updates.length = (changes.keys.toList.filter new.contains).length := by
    rw [← map_key_updates lead, List.length_map]
  rw [updates, removals_eq lead alone mirrors]
  exact List.length_eq_length_filter_add _

/-- The logs that a refresh writes are the new ones. -/
theorem updates_perm :
    changes.updates.Perm ((new.entries.filter fun entry =>
      old.get? entry.1 ≠ some entry.2).map fun entry => ⟨entry.1, entry.2⟩) := by
  have distinct : changes.updates.Nodup := by
    refine List.Nodup.of_map Blob.key ?_
    rw [map_key_updates lead]
    exact List.Nodup.filter _ (TextSet.toList_nodup _)
  have entries : ((new.entries.filter fun entry => old.get? entry.1 ≠ some entry.2).map
      fun entry => (⟨entry.1, entry.2⟩ : Blob)).Nodup := by
    refine List.Nodup.map ?_ (List.Nodup.filter _ (List.Nodup.of_map Prod.fst new.keys_nodup))
    rintro ⟨key, log⟩ ⟨other, held⟩ same
    cases same
    rfl
  refine (List.perm_ext_iff_of_nodup distinct entries).mpr fun blob => ?_
  rw [Changes.updates, List.mem_filterMap, List.mem_map]
  constructor
  · rintro ⟨key, member, found⟩
    have changed := (TextSet.mem_toList_iff _ key).mp member
    have differs := (contains_keys_iff alone key).mp changed
    rw [lead.logs key changed] at found
    obtain ⟨log, logged, rfl⟩ := Option.map_eq_some_iff.mp found
    refine ⟨(key, log), List.mem_filter.mpr ⟨(new.mem_entries_iff key log).mpr logged, ?_⟩, rfl⟩
    exact decide_eq_true (logged ▸ differs)
  · rintro ⟨⟨key, log⟩, member, rfl⟩
    obtain ⟨entered, differs⟩ := List.mem_filter.mp member
    have logged := (new.mem_entries_iff key log).mp entered
    have changed : changes.keys.contains key = true :=
      (contains_keys_iff alone key).mpr (logged ▸ of_decide_eq_true differs)
    refine ⟨key, (TextSet.mem_toList_iff _ key).mpr changed, ?_⟩
    rw [lead.logs key changed, logged]
    rfl

/-- The warnings of the updates are those of the logs that are new or different. -/
theorem warningsOf_updates :
    warningsOf changes.updates = ((new.entries.filter fun entry =>
      old.get? entry.1 ≠ some entry.2).map fun entry => complaints entry.2).sum := by
  rw [warningsOf_eq_complaints, ((updates_perm lead alone).map _).sum_nat, List.map_map]
  rfl

end Changes

/-! ### What is read of a store -/

section Runs

variable {store : MemoryStore} {answers : LogStore} {revision : String}

/-- The revision that is reported is the current one. -/
theorem LogStore.Relays.current (relays : answers.Relays store.answers)
    (asked : answers.currentRevision = .ok revision) : revision = store.currentName :=
  (currentRevision_eq_ok_iff.mp (relays.currentRevision _ asked)).2.symm

/-- A build reads the current logs of the store. -/
theorem readAll_of_relays (relays : answers.Relays store.answers) {listed : List Blob}
    {locations : TextMap Location}
    (read : (readAll answers).outcome = .ok (revision, listed, locations)) :
    revision = store.currentName ∧ listed = blobs store.current := by
  obtain ⟨asked, answered, -⟩ := readAll_eq_ok_iff.mp read
  have current := relays.current asked
  obtain ⟨-, snapshot, recorded, rfl⟩ := listItems_eq_ok_iff.mp (relays.listItems _ _ answered)
  rw [current, recorded_currentName_eq_some_iff] at recorded
  exact ⟨current, recorded.2 ▸ rfl⟩

/-- A refresh reads what has changed up to the current logs, and nothing else. -/
theorem readChanges_of_echoes (echoes : answers.Echoes store.answers) {since : String}
    {changes : Changes} (read : (readChanges answers since).outcome = .ok (some changes)) :
    changes.revision = store.currentName ∧ ∃ old, store.recorded since = some old ∧
      changes.Lead old store.current ∧ changes.keys = old.differences store.current := by
  obtain ⟨asked, -, changed, -⟩ := readChanges_eq_ok_some_iff.mp read
  have current := echoes.current asked
  obtain ⟨old, new, before, after, lead⟩ := lead_of_readChanges echoes.toRelays read
  obtain ⟨-, first, second, recorded, reached, same⟩ :=
    changedItems_eq_ok_iff.mp (echoes.changedAlone _ _ _ changed)
  rw [before] at recorded
  rw [after] at reached
  cases recorded
  cases reached
  rw [current, recorded_currentName_eq_some_iff] at after
  obtain ⟨-, rfl⟩ := after
  exact ⟨current, old, before, lead, same.symm⟩

/-! ### What is told -/

variable {catalog : Catalog} {now : Nat}

/-- A refresh that is a build tells what it found where nothing was before. -/
theorem RefreshSummary.Tells.ofBuild {summary : BuildSummary} {snapshot : Snapshot}
    (tells : summary.Tells snapshot) :
    (RefreshSummary.ofBuild summary).Tells TextMap.empty snapshot := by
  have differs (key : String) : (TextMap.empty : Snapshot).get? key ≠ snapshot.get? key ↔
      snapshot.contains key = true := by
    rw [TextMap.get?_empty, TextMap.contains, Option.isSome_iff_ne_none, ne_comm]
  refine ⟨?_, ?_, ?_, rfl, ?_⟩
  · simp only [differs]
    exact tells.itemCount
  · simp only [differs, and_self]
    exact tells.itemCount
  · simp [RefreshSummary.ofBuild]
  · have all : (snapshot.entries.filter fun entry =>
        (TextMap.empty : Snapshot).get? entry.1 ≠ some entry.2) = snapshot.entries :=
      List.filter_eq_self.mpr fun _ _ => rfl
    rw [all]
    exact tells.warnings

/-- A catalog that mirrors a snapshot has as many rows as the snapshot has keys. -/
theorem Catalog.Mirrors.encard {snapshot : Snapshot} (mirrors : catalog.Mirrors snapshot)
    (consistent : catalog.Consistent) :
    {key | snapshot.contains key = true}.encard = catalog.size := by
  rw [encard_eq_length consistent.keys_nodup mirrors.keys, Catalog.keys, List.length_map,
    Catalog.size]

/-- A build that succeeds tells of the current logs. -/
theorem build_tells (relays : answers.Relays store.answers) (catalog : Catalog) (now : Nat)
    {summary : BuildSummary} (succeeded : (catalog.build now answers).outcome = .ok summary) :
    summary.revision = store.currentName ∧ summary.Tells store.current ∧
      (catalog.build now answers).Concludes store now summary.itemCount summary.itemCount := by
  obtain ⟨revision, listed, locations, read, rfl⟩ := exists_read_of_build succeeded
  obtain ⟨rfl, rfl⟩ := readAll_of_relays relays read
  rw [build_of_read catalog now read]
  exact ⟨rfl, ⟨encard_blobs _, warningsOf_blobs _⟩,
    concludes_writing _ _ (length_blobs _).symm ⟨_, rfl, encard_blobs _⟩⟩

/-- A refresh of a catalog that was never built tells of a change from no logs at all. -/
theorem refresh_tells_of_unbuilt (unbuilt : catalog.state = none)
    (relays : answers.Relays store.answers) {summary : RefreshSummary}
    (succeeded : (catalog.refresh now answers).outcome = .ok (some summary)) :
    summary.previous = none ∧ summary.revision = store.currentName ∧
      summary.Tells TextMap.empty store.current ∧
      (catalog.refresh now answers).Concludes store now summary.changed
        (summary.updated + summary.removed) := by
  rw [refresh_of_unbuilt unbuilt] at succeeded ⊢
  obtain ⟨whole, told, same⟩ := map_eq_ok_iff.mp succeeded
  cases same
  obtain ⟨current, tells, concludes⟩ := build_tells relays catalog now told
  exact ⟨rfl, current, .ofBuild tells, concludes.events, concludes.state⟩

/-- A refresh of a catalog that mirrors its revision tells of the change from there. -/
theorem refresh_tells_of_built {state : BuildState} (built : catalog.state = some state)
    {old : Snapshot} (recorded : store.recorded state.revision = some old)
    (mirrors : catalog.Mirrors old) (consistent : catalog.Consistent)
    (echoes : answers.Echoes store.answers) {summary : RefreshSummary}
    (succeeded : (catalog.refresh now answers).outcome = .ok (some summary)) :
    summary.previous = some state.revision ∧ summary.revision = store.currentName ∧
      summary.Tells old store.current ∧
      (catalog.refresh now answers).Concludes store now summary.changed
        (summary.updated + summary.removed) := by
  obtain ⟨changes, read, rfl⟩ := exists_changes_of_refresh built succeeded
  rw [refresh_of_read built now read]
  obtain ⟨current, before, earlier, lead, alone⟩ := readChanges_of_echoes echoes read
  cases recorded.symm.trans earlier
  have left : (catalog.writeChanges now changes).Mirrors store.current :=
    mirrors_writeChanges consistent mirrors lead
  refine ⟨rfl, current, ⟨encard_changed alone, encard_updated lead alone,
    encard_removed lead alone mirrors, length_changed lead alone mirrors,
    warningsOf_updates lead alone⟩,
    concludes_writing _ _ rfl ⟨_, ?_, left.encard (consistent.writeChanges changes)⟩⟩
  rw [← current]
  rfl

/-- A refresh of a readable store that has moved on comes to a summary. -/
theorem exists_summary_refresh (mirrored : Mirrored store catalog) (readable : store.Readable)
    (consistent : catalog.Consistent) (now : Nat)
    (moved : catalog.state.map BuildState.revision ≠ some store.currentName) :
    ∃ summary, (catalog.refresh now store.answers).outcome = .ok (some summary) := by
  cases built : catalog.state with
  | none =>
      obtain ⟨summary, succeeded⟩ := (build_renews readable consistent now).succeeds
      rw [refresh_of_unbuilt built]
      exact ⟨_, map_eq_ok_iff.mpr ⟨summary, succeeded, rfl⟩⟩
  | some state =>
      obtain ⟨old, recorded, -⟩ := (mirrored_iff_of_state built).mp mirrored
      have other : store.currentName ≠ state.revision := fun same =>
        moved (same ▸ built ▸ rfl)
      obtain ⟨changes, read, -⟩ := exists_readChanges readable recorded other
      rw [refresh_of_read built now read]
      exact ⟨_, rfl⟩

end Runs

/-- **Summaries are exact.** A build counts the keys with a log and the complaints about all logs. A
refresh counts the keys whose logs differ from those the catalog was built from, with the complaints
about their logs, and a removal for each that has none any more. Both report every thousand keys, and
that they are complete after the catalog at the current revision is committed; a run without a
summary only makes calls, and neither reports nor commits anything. Where the store can be read, a
build comes to a summary, and so does a refresh of a catalog that is not at the current revision. -/
theorem Follows.summaries_exact {store : MemoryStore} {catalog : Catalog}
    (reached : Follows store catalog) (now : Nat) {answers : LogStore}
    (echoes : answers.Echoes store.answers) :
    (∀ summary, (catalog.build now answers).outcome = .ok summary →
      summary.revision = store.currentName ∧ summary.Tells store.current ∧
        (catalog.build now answers).Concludes store now summary.itemCount summary.itemCount) ∧
    (∀ summary, (catalog.refresh now answers).outcome = .ok (some summary) →
      summary.previous = catalog.state.map BuildState.revision ∧
        summary.revision = store.currentName ∧
        ∃ old, catalog.basis? store = some old ∧ summary.Tells old store.current ∧
          (catalog.refresh now answers).Concludes store now summary.changed
            (summary.updated + summary.removed)) ∧
    (∀ fault, (catalog.build now answers).outcome = .error fault →
      (catalog.build now answers).events = (catalog.build now answers).calls.map .called) ∧
    ((∀ summary, (catalog.refresh now answers).outcome ≠ .ok (some summary)) →
      (catalog.refresh now answers).events =
        (catalog.refresh now answers).calls.map .called) ∧
    (store.Readable → (∃ summary, (catalog.build now store.answers).outcome = .ok summary) ∧
      (catalog.state.map BuildState.revision ≠ some store.currentName →
        ∃ summary, (catalog.refresh now store.answers).outcome = .ok (some summary))) := by
  have consistent := reached.reachable.sound.consistent
  have mirrored := reached.mirrored
  refine ⟨fun _ => build_tells echoes.toRelays catalog now, fun summary succeeded => ?_,
    fun _ failed => build_eq_idle failed ▸ Run.events_idle _ _ _, fun unsummarized => ?_,
    fun readable => ⟨(build_renews readable consistent now).succeeds,
      exists_summary_refresh mirrored readable consistent now⟩⟩
  · unfold Mirrored at mirrored
    unfold Catalog.basis?
    cases built : catalog.state with
    | none =>
        obtain ⟨previous, current, told⟩ :=
          refresh_tells_of_unbuilt built echoes.toRelays succeeded
        exact ⟨previous, current, _, rfl, told⟩
    | some state =>
        rw [built] at mirrored
        obtain ⟨old, recorded, mirrors, -⟩ := mirrored
        obtain ⟨previous, current, told⟩ :=
          refresh_tells_of_built built recorded mirrors consistent echoes succeeded
        exact ⟨previous, current, old, recorded, told⟩
  · obtain ⟨calls, outcome, idle⟩ := exists_refresh_eq_idle unsummarized
    rw [idle]
    exact Run.events_idle _ _ _

/-- One item is removed, one gets a log with a rejected line and a tempo that is no number, and one
is new; the fourth stays as it is. -/
theorem summaries_exact_of_removed :
    let first := (MemoryStore.new.put "a" "1s artist +A" ⟨"a.mp3", true⟩).put "b" "1s artist +B"
      ⟨"b.mp3", true⟩
    let before := first.put "c" "1s bpm +slow" ⟨"c.mp3", true⟩
    let after := ((before.remove "a").put "b" "x title +T\n2s bpm +fast" ⟨"b.mp3", true⟩).put "d"
      "1s artist +D" ⟨"d.mp3", false⟩
    let catalog := (Catalog.empty.build 1 before.answers).catalog
    let summary : RefreshSummary := ⟨some "r3", "r6", 3, 2, 1, 2⟩
    Follows after catalog ∧ (catalog.refresh 2 after.answers).outcome = .ok (some summary) ∧
      ∃ old, catalog.basis? after = some old ∧ summary.Tells old after.current ∧
        (catalog.refresh 2 after.answers).Concludes after 2 3 (2 + 1) := by
  intro first before after catalog summary
  have reached : Follows after catalog :=
    ((((((Follows.start.mutate (.put "a" "1s artist +A" ⟨"a.mp3", true⟩)).mutate
      (.put "b" "1s artist +B" ⟨"b.mp3", true⟩)).mutate
      (.put "c" "1s bpm +slow" ⟨"c.mp3", true⟩)).build 1 (.refl _)).mutate (.remove "a")).mutate
      (.put "b" "x title +T\n2s bpm +fast" ⟨"b.mp3", true⟩)).mutate
      (.put "d" "1s artist +D" ⟨"d.mp3", false⟩)
  have succeeded : (catalog.refresh 2 after.answers).outcome = .ok (some summary) := by
    decide +kernel
  obtain ⟨-, told, -⟩ := Follows.summaries_exact reached 2 (.refl after.answers)
  exact ⟨reached, succeeded, (told summary succeeded).2.2⟩

end AnnexCatalog
