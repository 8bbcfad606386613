import AnnexCatalog.Proofs.Catalog.Mirror
import AnnexCatalog.Proofs.Store.Patches

/-! # Catalogs and listings

A store may answer in its own way, as long as its answers agree with what it lists: the logs that it
fetches are listed, and a key that it does not report as changed has the same logs in both listings
(`LogStore.Coherent`). Of the logs of a key the last one counts. So a build and a refresh against
such answers lead to a catalog that mirrors the listing of its revision (`mirrors_build`,
`mirrors_refresh`).
-/

namespace AnnexCatalog

/-- The last log of every key in a listing. -/
def lastLogs (listed : List Blob) : Snapshot :=
  TextMap.ofList (listed.map fun blob => (blob.key, blob.content))

/-- Answers that agree with each other about the logs. -/
structure LogStore.Coherent (answers : LogStore) : Prop where
  changedItems : ∀ old new keys, answers.changedItems old new = .ok keys →
    ∃ before after, answers.listItems old = .ok before ∧ answers.listItems new = .ok after ∧
      ∀ key, keys.contains key = false →
        before.filter (·.key == key) = after.filter (·.key == key)
  fetchItems : ∀ revision keys fetched, answers.fetchItems revision keys = .ok fetched →
    ∃ listed, answers.listItems revision = .ok listed ∧
      listed.filter (fun blob => keys.contains blob.key) = fetched

/-! ### The last log of a key -/

/-- A key has the last of its logs. -/
theorem get?_lastLogs (listed : List Blob) (key : String) :
    (lastLogs listed).get? key = (listed.reverse.find? (·.key == key)).map Blob.content := by
  rw [lastLogs, TextMap.get?_ofList, ← List.map_reverse, List.find?_map, Option.map_map]
  rfl

/-- The logs of the other keys do not matter to the last log of a key. -/
theorem get?_lastLogs_eq_getLast? (listed : List Blob) (key : String) :
    (lastLogs listed).get? key =
      (listed.filter (·.key == key)).getLast?.map Blob.content := by
  rw [get?_lastLogs, ← List.head?_filter, List.filter_reverse, List.head?_reverse]

/-- A key has a last log if it is listed. -/
theorem contains_lastLogs_iff (listed : List Blob) (key : String) :
    (lastLogs listed).contains key = true ↔ key ∈ listed.map Blob.key := by
  rw [TextMap.contains, get?_lastLogs, Option.isSome_map, List.find?_isSome]
  simp only [List.mem_reverse, beq_iff_eq, List.mem_map]

/-- Behind the last log of a key there is none of the key any more. -/
theorem exists_split_of_get?_lastLogs {listed : List Blob} {key log : String}
    (last : (lastLogs listed).get? key = some log) :
    ∃ earlier later, listed = earlier ++ ⟨key, log⟩ :: later ∧ key ∉ later.map Blob.key := by
  rw [get?_lastLogs] at last
  obtain ⟨blob, found, rfl⟩ := Option.map_eq_some_iff.mp last
  obtain ⟨named, after, before, split, apart⟩ := List.find?_eq_some_iff_append.mp found
  obtain rfl : blob.key = key := beq_iff_eq.mp named
  refine ⟨before.reverse, after.reverse, ?_, fun again => ?_⟩
  · rw [← List.reverse_reverse listed, split, List.reverse_append, List.reverse_cons,
      List.append_assoc]
    rfl
  · obtain ⟨other, behind, same⟩ := List.mem_map.mp again
    have different := apart other (List.mem_reverse.mp behind)
    rw [same, named] at different
    cases different

namespace Catalog

variable {catalog : Catalog} {now : Nat} {answers : LogStore}

/-- A build mirrors the last logs of what it writes. -/
theorem mirrors_writeAll_lastLogs (consistent : catalog.Consistent) (revision : String)
    (listed : List Blob) (locations : TextMap Location) :
    (catalog.writeAll now revision listed locations).Mirrors (lastLogs listed) := by
  constructor
  · intro key
    rw [mem_keys_writeAll_iff consistent, contains_lastLogs_iff]
  · intro content member
    obtain ⟨dossier, inside, rfl⟩ := List.mem_map.mp member
    have cached : dossier.row.key ∈ listed.map Blob.key := by
      rw [← mem_keys_writeAll_iff consistent revision listed locations, keys_eq_map_dossiers]
      exact List.mem_map_of_mem inside
    obtain ⟨log, last⟩ := (TextMap.contains_iff _ _).mp ((contains_lastLogs_iff _ _).mpr cached)
    obtain ⟨earlier, later, split, fresh⟩ := exists_split_of_get?_lastLogs last
    obtain ⟨id, held⟩ := @dossiersOf_writeAll catalog now consistent revision locations earlier
      later ⟨dossier.row.key, log⟩ fresh
    rw [← split] at held
    have only := mem_dossiersOf_iff.mpr ⟨inside, rfl⟩
    rw [held, List.mem_singleton] at only
    exact ⟨log, last, only ▸ reads_content_recordOf ⟨_, log⟩ _⟩

/-- What a refresh reads of coherent answers leads from one listing to the other. -/
theorem exists_lead_of_coherent (coherent : answers.Coherent) {since : String} {changes : Changes}
    (read : (readChanges answers since).outcome = .ok (some changes)) :
    ∃ before after, answers.listItems since = .ok before ∧
      answers.listItems changes.revision = .ok after ∧
      changes.Lead (lastLogs before) (lastLogs after) := by
  obtain ⟨-, -, changed, logs⟩ := readChanges_eq_ok_some_iff.mp read
  obtain ⟨before, after, first, second, same⟩ := coherent.changedItems _ _ _ changed
  refine ⟨before, after, first, second, ?_, ?_⟩
  · intro key different
    by_contra unreported
    rw [Bool.not_eq_true] at unreported
    refine different ?_
    rw [get?_lastLogs_eq_getLast?, get?_lastLogs_eq_getLast?, same key unreported]
  · intro key reported
    split at logs
    · next none =>
        rw [(TextSet.isEmpty_iff _).mp none key] at reported
        cases reported
    · obtain ⟨listed, answered, fetched⟩ := coherent.fetchItems _ _ _ logs.1
      cases Except.ok.inj (second.symm.trans answered)
      have found : changes.blob? key = after.reverse.find? (·.key == key) := by
        rw [Changes.blob?, ← fetched, ← List.filter_reverse, List.find?_filter]
        refine congrArg (List.find? · after.reverse) (funext fun blob => ?_)
        by_cases named : blob.key = key
        · simp [named, reported]
        · simp [named]
      rw [get?_lastLogs, found]
      cases last : after.reverse.find? (·.key == key) with
      | none => rfl
      | some blob =>
          have named := List.find?_some last
          obtain rfl : blob.key = key := beq_iff_eq.mp named
          rfl

/-- **A build mirrors the listing.** A build that succeeds leaves a catalog that mirrors what the
store lists at its current revision. -/
theorem mirrors_build (consistent : catalog.Consistent) {summary : BuildSummary}
    (succeeded : (catalog.build now answers).outcome = .ok summary) :
    ∃ listed, answers.currentRevision = .ok summary.revision ∧
      answers.listItems summary.revision = .ok listed ∧
      (catalog.build now answers).catalog.Mirrors (lastLogs listed) ∧
      (catalog.build now answers).catalog.state =
        some ⟨summary.revision, now, (catalog.build now answers).catalog.size⟩ := by
  obtain ⟨revision, listed, locations, read, rfl⟩ := exists_read_of_build succeeded
  obtain ⟨current, answered, -⟩ := readAll_eq_ok_iff.mp read
  rw [build_of_read catalog now read]
  refine ⟨listed, current, answered,
    mirrors_writeAll_lastLogs consistent revision listed locations, ?_⟩
  rw [Run.catalog_writing, ← size_writeAll consistent revision listed locations]
  rfl

/-- **A refresh mirrors the listing.** A refresh that comes to a summary takes a catalog that mirrors
what a coherent store lists at its revision to one that mirrors what the store lists at the current
revision. -/
theorem mirrors_refresh (coherent : answers.Coherent) (consistent : catalog.Consistent)
    {state : BuildState} (built : catalog.state = some state)
    (mirrors : ∀ listed, answers.listItems state.revision = .ok listed →
      catalog.Mirrors (lastLogs listed)) {summary : RefreshSummary}
    (succeeded : (catalog.refresh now answers).outcome = .ok (some summary)) :
    ∃ listed, answers.currentRevision = .ok summary.revision ∧
      answers.listItems summary.revision = .ok listed ∧
      (catalog.refresh now answers).catalog.Mirrors (lastLogs listed) ∧
      (catalog.refresh now answers).catalog.state =
        some ⟨summary.revision, now, (catalog.refresh now answers).catalog.size⟩ := by
  obtain ⟨changes, read, rfl⟩ := exists_changes_of_refresh built succeeded
  obtain ⟨before, after, first, second, lead⟩ := exists_lead_of_coherent coherent read
  rw [refresh_of_read built now read]
  exact ⟨after, (readChanges_eq_ok_some_iff.mp read).1, second,
    mirrors_writeChanges consistent (mirrors before first) lead, rfl⟩

end Catalog

/-- A snapshot lists the log of a key alone, if there is one. -/
theorem MemoryStore.filter_blobs (snapshot : Snapshot) (key : String) :
    (blobs snapshot).filter (·.key == key) =
      ((snapshot.get? key).map fun log => (⟨key, log⟩ : Blob)).toList := by
  cases logged : snapshot.get? key with
  | none =>
      refine List.filter_eq_nil_iff.mpr fun blob member named => ?_
      rw [← beq_iff_eq.mp named, mem_blobs_iff.mp member] at logged
      cases logged
  | some log =>
      refine List.perm_singleton.mp ((List.perm_ext_iff_of_nodup ((blobs_nodup snapshot).filter _)
        (List.nodup_singleton _)).mpr fun blob => ?_)
      rw [List.mem_filter, mem_blobs_iff, beq_iff_eq, List.mem_singleton]
      constructor
      · rintro ⟨found, rfl⟩
        cases logged.symm.trans found
        rfl
      · rintro rfl
        exact ⟨logged, rfl⟩

/-- A store in memory answers coherently. -/
theorem MemoryStore.coherent_answers (store : MemoryStore) : store.answers.Coherent where
  changedItems old new keys answered := by
    obtain ⟨on, first, second, before, after, rfl⟩ := changedItems_eq_ok_iff.mp answered
    refine ⟨blobs first, blobs second, listItems_eq_ok_iff.mpr ⟨on, first, before, rfl⟩,
      listItems_eq_ok_iff.mpr ⟨on, second, after, rfl⟩, fun key unreported => ?_⟩
    have same : first.get? key = second.get? key := by
      by_contra different
      rw [(TextMap.contains_differences_iff first second key).mpr different] at unreported
      cases unreported
    rw [filter_blobs, filter_blobs, same]
  fetchItems revision keys fetched answered := by
    obtain ⟨on, snapshot, recorded, rfl⟩ := fetchItems_eq_ok_iff.mp answered
    exact ⟨_, listItems_eq_ok_iff.mpr ⟨on, snapshot, recorded, rfl⟩, rfl⟩

end AnnexCatalog
