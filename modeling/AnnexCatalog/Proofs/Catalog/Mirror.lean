import AnnexCatalog.Proofs.Catalog.Takeover
import AnnexCatalog.Proofs.Store.Memory
import AnnexCatalog.Store.Scripted

/-! # The catalog mirrors the store

A store in memory is changed, and a catalog is built, refreshed and cleared beside it, in any order;
whatever the catalog asks of the store may fail, and more keys may be reported as changed than have
changed (`Follows`). In every state that is reached, the catalog mirrors what the store has recorded
at the revision of the last build (`Follows.mirrored`).
-/

namespace AnnexCatalog

open Catalog MemoryStore

/-- Answers that relay a store: each of them is that of the store or a failure, except that more
keys may be reported as changed. -/
structure LogStore.Relays (answers store : LogStore) : Prop where
  currentRevision : ∀ revision, answers.currentRevision = .ok revision →
    store.currentRevision = .ok revision
  listItems : ∀ revision blobs, answers.listItems revision = .ok blobs →
    store.listItems revision = .ok blobs
  changedItems : ∀ old new keys, answers.changedItems old new = .ok keys →
    ∃ changed, store.changedItems old new = .ok changed ∧
      ∀ key, changed.contains key = true → keys.contains key = true
  fetchItems : ∀ revision keys blobs, answers.fetchItems revision keys = .ok blobs →
    store.fetchItems revision keys = .ok blobs
  resolvePaths : ∀ keys locations, answers.resolvePaths keys = .ok locations →
    store.resolvePaths keys = .ok locations

theorem LogStore.Relays.refl (store : LogStore) : store.Relays store where
  currentRevision _ answered := answered
  listItems _ _ answered := answered
  changedItems _ _ _ answered := ⟨_, answered, fun _ contained => contained⟩
  fetchItems _ _ _ answered := answered
  resolvePaths _ _ answered := answered

/-- A script that lists no further logs only lets answers fail and reports more keys as changed. -/
theorem Script.relays_apply {script : Script} (plain : script.extraBlobs = []) (store : LogStore) :
    (script.apply store).Relays store := by
  have unguarded {α : Type} {call : StoreCall} {answer : Except String α} {value : α}
      (answered : script.guard call answer = .ok value) : answer = .ok value := by
    unfold Script.guard at answered
    split at answered
    · cases answered
    · exact answered
  refine ⟨?_, ?_, ?_, ?_, ?_⟩
  · intro revision answered
    exact unguarded answered
  · intro revision blobs answered
    obtain ⟨listed, exact, rfl⟩ := map_eq_ok_iff.mp (unguarded answered)
    rw [plain, List.append_nil]
    exact exact
  · intro old new keys answered
    obtain ⟨changed, exact, rfl⟩ := map_eq_ok_iff.mp (unguarded answered)
    exact ⟨changed, exact, fun key contained =>
      (TextSet.contains_union_iff _ _ key).mpr (.inl contained)⟩
  · intro revision keys blobs answered
    obtain ⟨fetched, exact, rfl⟩ := map_eq_ok_iff.mp (unguarded answered)
    rw [plain, List.filter_nil, List.append_nil]
    exact exact
  · intro keys locations answered
    exact unguarded answered

/-- The states of a store in memory and of a catalog beside it. -/
inductive Follows : MemoryStore → Catalog → Prop where
  | start : Follows .new .empty
  | mutate {store : MemoryStore} {catalog : Catalog} (reached : Follows store catalog)
      (mutation : Mutation) : Follows (store.mutate mutation) catalog
  | build {store : MemoryStore} {catalog : Catalog} (reached : Follows store catalog) (now : Nat)
      {answers : LogStore} (relays : answers.Relays store.answers) :
      Follows store (catalog.build now answers).catalog
  | refresh {store : MemoryStore} {catalog : Catalog} (reached : Follows store catalog) (now : Nat)
      {answers : LogStore} (relays : answers.Relays store.answers) :
      Follows store (catalog.refresh now answers).catalog
  | clear {store : MemoryStore} {catalog : Catalog} (reached : Follows store catalog) :
      Follows store catalog.clear

/-- A catalog that follows a store can be reached. -/
theorem Follows.reachable {store : MemoryStore} {catalog : Catalog}
    (reached : Follows store catalog) : catalog.Reachable := by
  induction reached with
  | start => exact .empty
  | mutate _ _ step => exact step
  | build _ now _ step => exact step.build now _
  | refresh _ now _ step => exact step.refresh now _
  | clear _ step => exact step.clear

namespace Catalog

/-- A catalog has the keys of a snapshot and says of each what it takes from its log. -/
structure Mirrors (catalog : Catalog) (snapshot : Snapshot) : Prop where
  keys : ∀ key, key ∈ catalog.keys ↔ snapshot.contains key = true
  reads : ∀ content ∈ catalog.contents,
    ∃ log, snapshot.get? content.key = some log ∧ content.Reads log

/-- A catalog without a state is empty; one with a state mirrors what a store has recorded at its
revision, and its items are counted. -/
def Mirrored (store : MemoryStore) (catalog : Catalog) : Prop :=
  match catalog.state with
  | none => catalog = .empty
  | some state => ∃ snapshot, store.recorded state.revision = some snapshot ∧
      catalog.Mirrors snapshot ∧ state.itemCount = catalog.size

variable {catalog : Catalog} {store : MemoryStore} {now : Nat}

/-- A built catalog is mirrored if it mirrors the snapshot at its revision and counts its rows. -/
theorem mirrored_iff_of_state {state : BuildState} (built : catalog.state = some state) :
    Mirrored store catalog ↔ ∃ snapshot, store.recorded state.revision = some snapshot ∧
      catalog.Mirrors snapshot ∧ state.itemCount = catalog.size := by
  unfold Mirrored
  rw [built]

/-- What a store records later does not matter to a catalog. -/
theorem Mirrored.mutate (mirrored : Mirrored store catalog) (mutation : Mutation) :
    Mirrored (store.mutate mutation) catalog := by
  cases built : catalog.state with
  | none =>
      unfold Mirrored at mirrored ⊢
      rw [built] at mirrored ⊢
      exact mirrored
  | some state =>
      obtain ⟨snapshot, recorded, rest⟩ := (mirrored_iff_of_state built).mp mirrored
      exact (mirrored_iff_of_state built).mpr ⟨snapshot, recorded_mutate recorded mutation, rest⟩

/-- Writing all logs of a snapshot leaves a mirror of it. -/
theorem mirrors_writeAll (consistent : catalog.Consistent) (revision : String)
    (snapshot : Snapshot) (locations : TextMap Location) :
    (catalog.writeAll now revision (blobs snapshot) locations).Mirrors snapshot := by
  constructor
  · intro key
    rw [mem_keys_writeAll_iff consistent, map_key_blobs, TextMap.mem_keys_iff]
  · intro content member
    obtain ⟨blob, listed, named, reads⟩ := mem_contents_writeAll consistent member
    exact ⟨blob.content, named ▸ mem_blobs_iff.mp listed, reads⟩

/-- Changes take one snapshot to another: every key that differs is among them, and their logs are
those of the new snapshot. -/
structure Changes.Lead (changes : Changes) (old new : Snapshot) : Prop where
  differing : ∀ key, old.get? key ≠ new.get? key → changes.keys.contains key = true
  logs : ∀ key, changes.keys.contains key = true →
    changes.blob? key = (new.get? key).map fun log => ⟨key, log⟩

/-- The keys that do not change have the same log in both snapshots. -/
theorem Changes.Lead.same {changes : Changes} {old new : Snapshot} (lead : changes.Lead old new)
    {key : String} (unchanged : changes.keys.contains key = false) :
    old.get? key = new.get? key := by
  by_contra different
  rw [lead.differing key different] at unchanged
  cases unchanged

/-- Writing the changes that lead to a snapshot makes a mirror of the old one a mirror of the new
one. -/
theorem mirrors_writeChanges {old new : Snapshot} {changes : Changes}
    (consistent : catalog.Consistent) (mirrors : catalog.Mirrors old)
    (lead : changes.Lead old new) : (catalog.writeChanges now changes).Mirrors new := by
  constructor
  · intro key
    rw [mem_keys_writeChanges_iff consistent]
    cases changed : changes.keys.contains key with
    | true =>
        rw [if_pos rfl, lead.logs key changed, Option.isSome_map]
        rfl
    | false =>
        rw [if_neg Bool.false_ne_true, mirrors.keys, TextMap.contains, TextMap.contains,
          lead.same changed]
  · intro content member
    rcases mem_contents_writeChanges consistent member with
      ⟨blob, changed, found, reads⟩ | ⟨before, unchanged⟩
    · rw [lead.logs content.key changed] at found
      obtain ⟨log, logged, rfl⟩ := Option.map_eq_some_iff.mp found
      exact ⟨log, logged, reads⟩
    · obtain ⟨log, logged, reads⟩ := mirrors.reads content before
      exact ⟨log, lead.same unchanged ▸ logged, reads⟩

/-- The log that is fetched for a changed key is that of the snapshot, if it has one. -/
theorem blob?_of_fetched {changes : Changes} {snapshot : Snapshot} {key : String}
    (fetched : (blobs snapshot).filter (fun blob => changes.keys.contains blob.key) = changes.blobs)
    (changed : changes.keys.contains key = true) :
    changes.blob? key = (snapshot.get? key).map fun log => ⟨key, log⟩ := by
  cases found : changes.blob? key with
  | some blob =>
      obtain ⟨listed, rfl⟩ := mem_of_blob?_eq_some found
      rw [← fetched] at listed
      rw [mem_blobs_iff.mp (List.mem_filter.mp listed).1]
      rfl
  | none =>
      have absent : snapshot.get? key = none := by
        cases logged : snapshot.get? key with
        | none => rfl
        | some log =>
            have listed : (⟨key, log⟩ : Blob) ∈ changes.blobs :=
              fetched ▸ List.mem_filter.mpr ⟨mem_blobs_iff.mpr logged, changed⟩
            have unnamed := List.find?_eq_none.mp found _ (List.mem_reverse.mpr listed)
            exact absurd (beq_self_eq_true key) unnamed
      rw [absent]
      rfl

/-- What a refresh reads of a relayed store leads from the snapshot of the catalog to the current
one. -/
theorem lead_of_readChanges {answers : LogStore} (relays : answers.Relays store.answers)
    {since : String} {changes : Changes}
    (read : (readChanges answers since).outcome = .ok (some changes)) :
    ∃ old new, store.recorded since = some old ∧ store.recorded changes.revision = some new ∧
      changes.Lead old new := by
  obtain ⟨-, -, changed, logs⟩ := readChanges_eq_ok_some_iff.mp read
  obtain ⟨exact, answered, covers⟩ := relays.changedItems _ _ _ changed
  obtain ⟨-, old, new, before, after, rfl⟩ := changedItems_eq_ok_iff.mp answered
  refine ⟨old, new, before, after, ?_, ?_⟩
  · intro key different
    exact covers key ((TextMap.contains_differences_iff old new key).mpr different)
  · intro key listed
    split at logs
    · next none =>
        rw [(TextSet.isEmpty_iff _).mp none key] at listed
        cases listed
    · obtain ⟨-, snapshot, recorded, fetched⟩ :=
        fetchItems_eq_ok_iff.mp (relays.fetchItems _ _ _ logs.1)
      rw [after] at recorded
      cases recorded
      exact blob?_of_fetched fetched listed

/-! ### Every step keeps the mirror -/

/-- A build leaves a mirror, whatever the store fails to answer. -/
theorem Mirrored.build (mirrored : Mirrored store catalog) (consistent : catalog.Consistent)
    (now : Nat) {answers : LogStore} (relays : answers.Relays store.answers) :
    Mirrored store (catalog.build now answers).catalog := by
  rcases build_cases catalog now answers with ⟨revision, listed, locations, read, built⟩ | kept
  · obtain ⟨-, answered, -⟩ := readAll_eq_ok_iff.mp read
    obtain ⟨-, snapshot, recorded, rfl⟩ :=
      listItems_eq_ok_iff.mp (relays.listItems _ _ answered)
    rw [built]
    exact ⟨snapshot, recorded, mirrors_writeAll consistent revision snapshot locations,
      size_writeAll consistent revision (blobs snapshot) locations⟩
  · exact kept.symm ▸ mirrored

/-- A refresh leaves a mirror, whatever the store fails to answer. -/
theorem Mirrored.refresh (mirrored : Mirrored store catalog) (consistent : catalog.Consistent)
    (now : Nat) {answers : LogStore} (relays : answers.Relays store.answers) :
    Mirrored store (catalog.refresh now answers).catalog := by
  cases found : catalog.state with
  | none => exact (refresh_of_unbuilt found now answers).symm ▸ mirrored.build consistent now relays
  | some state =>
      rcases refresh_cases found now answers with ⟨changes, read, refreshed⟩ | kept
      · obtain ⟨old, new, before, after, lead⟩ := lead_of_readChanges relays read
        obtain ⟨snapshot, recorded, mirrors, -⟩ := (mirrored_iff_of_state found).mp mirrored
        rw [before] at recorded
        cases recorded
        rw [refreshed]
        exact ⟨new, after, mirrors_writeChanges consistent mirrors lead, rfl⟩
      · exact kept.symm ▸ mirrored

end Catalog

/-- A catalog that follows a store mirrors a revision of it. -/
theorem Follows.mirrored {store : MemoryStore} {catalog : Catalog}
    (reached : Follows store catalog) : Mirrored store catalog := by
  induction reached with
  | start => rfl
  | mutate _ mutation step => exact step.mutate mutation
  | build reached now relays step => exact step.build reached.reachable.sound.consistent now relays
  | refresh reached now relays step =>
      exact step.refresh reached.reachable.sound.consistent now relays
  | clear _ _ => rfl

/-- In every state, a catalog without a build state has no rows. One with a build state has exactly
the keys that the store has recorded at its revision, holds of each the metadata of its log there,
and counts its rows. -/
theorem Follows.tables_mirror_recorded {store : MemoryStore} {catalog : Catalog}
    (reached : Follows store catalog) :
    match catalog.state with
    | none => catalog.rows = []
    | some state => ∃ snapshot, store.recorded state.revision = some snapshot ∧
        catalog.keys.Nodup ∧ (∀ key, key ∈ catalog.keys ↔ snapshot.contains key = true) ∧
        (∀ row ∈ catalog.rows, ∃ log, snapshot.get? row.key = some log ∧
          ∀ now locations,
            catalog.metadataOf row = (recordOf now locations ⟨row.key, log⟩).metadata) ∧
        state.itemCount = catalog.rows.length := by
  have mirrored := reached.mirrored
  unfold Mirrored at mirrored
  split
  · next unbuilt =>
      rw [unbuilt] at mirrored
      rw [mirrored]
      rfl
  · next state built =>
      rw [built] at mirrored
      obtain ⟨snapshot, recorded, mirrors, counted⟩ := mirrored
      refine ⟨snapshot, recorded, reached.reachable.sound.consistent.keys_nodup, mirrors.keys, ?_,
        counted⟩
      intro row member
      have listed : (catalog.dossier row).content ∈ catalog.contents :=
        List.mem_map_of_mem (List.mem_map_of_mem member)
      obtain ⟨log, logged, reads⟩ := mirrors.reads _ listed
      exact ⟨log, logged, fun _ _ => reads.metadata⟩

/-- An item is put, taken over and removed; a refresh fails, as it cannot read the paths, and the
store goes offline. -/
theorem tables_mirror_recorded_of_removed :
    let put := MemoryStore.new.put "k" "1s artist +A" ⟨"a.mp3", true⟩
    let removed := put.remove "k"
    let failing : Script := { failing := [.resolvePaths] }
    let built := (Catalog.empty.build 1 put.answers).catalog
    let catalog := (built.refresh 2 (failing.apply removed.answers)).catalog
    Follows (removed.setAvailable false) catalog ∧ catalog.state = some ⟨"r1", 1, 1⟩ ∧
      ∃ snapshot, (removed.setAvailable false).recorded "r1" = some snapshot ∧
        catalog.keys.Nodup ∧ (∀ key, key ∈ catalog.keys ↔ snapshot.contains key = true) ∧
        (∀ row ∈ catalog.rows, ∃ log, snapshot.get? row.key = some log ∧
          ∀ now locations,
            catalog.metadataOf row = (recordOf now locations ⟨row.key, log⟩).metadata) ∧
        1 = catalog.rows.length := by
  intro put removed failing built catalog
  have reached : Follows (removed.setAvailable false) catalog :=
    ((((Follows.start.mutate (.put "k" "1s artist +A" ⟨"a.mp3", true⟩)).build 1 (.refl _)).mutate
      (.remove "k")).refresh 2 (Script.relays_apply rfl _)).mutate (.setAvailable false)
  have state : catalog.state = some ⟨"r1", 1, 1⟩ := by decide +kernel
  have mirror := Follows.tables_mirror_recorded reached
  rw [state] at mirror
  exact ⟨reached, state, mirror⟩

end AnnexCatalog
