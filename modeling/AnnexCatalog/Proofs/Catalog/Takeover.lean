import AnnexCatalog.Proofs.Catalog.Dossiers
import AnnexCatalog.Proofs.Catalog.Steps
import AnnexCatalog.Proofs.Store.Memory

/-! # Taking over logs

A build or a refresh that succeeds writes some logs (`TakesOver`). Later writes are of other keys,
but for a store that lists a key twice, so what is last written for a key is all that the tables hold
of it in the end (`dossiersOf_writeAll`, `dossiersOf_writeChanges`), and what the catalog says of its
item comes from that log (`TakesOver.exists_row_reads`).
-/

namespace AnnexCatalog.Catalog

variable {catalog : Catalog} {now : Nat}

/-! ### The last log of a key -/

/-- A build writes what comes before the last log of a key, then the log, and then no more of its
key. -/
theorem exists_buildWrites_eq (catalog : Catalog) (now : Nat) (locations : TextMap Location)
    {earlier later : List Blob} {blob : Blob} (last : blob.key ∉ later.map Blob.key) :
    ∃ rest, catalog.buildWrites now locations (earlier ++ blob :: later) =
        earlier.map (fun blob => .upsert (recordOf now locations blob)) ++
          .upsert (recordOf now locations blob) :: rest ∧
      blob.key ∉ rest.map Write.key := by
  let upsert : Blob → Write := fun blob => .upsert (recordOf now locations blob)
  let logged := TextSet.ofTexts ((earlier ++ blob :: later).map Blob.key)
  let deletions := (catalog.keys.filter fun key => !logged.contains key).map Write.delete
  refine ⟨later.map upsert ++ deletions, ?_, ?_⟩
  · rw [buildWrites, List.map_append, List.map_cons, List.append_assoc, List.cons_append]
  · rw [List.map_append, List.mem_append, not_or, List.map_map]
    refine ⟨last, fun deleted => ?_⟩
    obtain ⟨write, member, named⟩ := List.mem_map.mp deleted
    obtain ⟨key, kept, rfl⟩ := List.mem_map.mp member
    have unlogged := (List.mem_filter.mp kept).2
    have present : logged.contains key = true := by
      refine (TextSet.contains_ofTexts_iff _ key).mpr (List.mem_map.mpr ⟨blob, ?_, named.symm⟩)
      exact List.mem_append_right _ List.mem_cons_self
    rw [present] at unlogged
    cases unlogged

/-- After a build, the tables hold of a key what its last log gives. -/
theorem dossiersOf_writeAll (consistent : catalog.Consistent) (revision : String)
    (locations : TextMap Location) {earlier later : List Blob} {blob : Blob}
    (last : blob.key ∉ later.map Blob.key) :
    ∃ id, (catalog.writeAll now revision (earlier ++ blob :: later) locations).dossiersOf blob.key =
      [(recordOf now locations blob).toDossier id (catalog.pathFor blob.key)] := by
  obtain ⟨rest, parts, untouched⟩ := exists_buildWrites_eq catalog now locations last
  have lawful : ∀ write ∈ catalog.buildWrites now locations (earlier ++ blob :: later),
      write.Lawful := lawful_buildWrites _
  rw [parts] at lawful
  rw [writeAll_eq consistent, parts]
  refine dossiersOf_foldl_write_upsert consistent.unindexed lawful ?_ untouched
  intro write member named
  obtain ⟨other, -, rfl⟩ := List.mem_map.mp member
  exact ⟨_, rfl, congrArg locations.get? named⟩

/-- A key that is listed has a last log. -/
theorem exists_last_log {blobs : List Blob} {key : String} (listed : key ∈ blobs.map Blob.key) :
    ∃ earlier blob later, blobs = earlier ++ blob :: later ∧ blob.key = key ∧
      blob.key ∉ later.map Blob.key := by
  induction blobs with
  | nil => cases listed
  | cons blob rest step =>
      by_cases again : key ∈ rest.map Blob.key
      · obtain ⟨earlier, found, later, rfl, named, last⟩ := step again
        exact ⟨blob :: earlier, found, later, rfl, named, last⟩
      · rcases List.mem_cons.mp listed with rfl | inside
        · exact ⟨[], blob, rest, rfl, rfl, again⟩
        · exact absurd inside again

/-- After a build, the catalog has the keys of the logs. -/
theorem mem_keys_writeAll_iff (consistent : catalog.Consistent) (revision : String)
    (blobs : List Blob) (locations : TextMap Location) (key : String) :
    key ∈ (catalog.writeAll now revision blobs locations).keys ↔ key ∈ blobs.map Blob.key := by
  constructor
  · intro cached
    obtain ⟨content, member, rfl⟩ := mem_keys_iff_contents.mp cached
    obtain ⟨blob, listed, named, -⟩ := mem_contents_writeAll consistent member
    exact List.mem_map.mpr ⟨blob, listed, named.symm⟩
  · intro listed
    obtain ⟨earlier, blob, later, rfl, rfl, last⟩ := exists_last_log listed
    obtain ⟨id, held⟩ := dossiersOf_writeAll consistent revision locations last
    obtain ⟨row, member, named, -⟩ := exists_row_of_dossiersOf held
    exact List.mem_map.mpr ⟨row, member, named⟩

/-- A build counts the items that it leaves. -/
theorem size_writeAll (consistent : catalog.Consistent) (revision : String) (blobs : List Blob)
    (locations : TextMap Location) :
    (TextSet.ofTexts (blobs.map Blob.key)).toList.length =
      (catalog.writeAll now revision blobs locations).size := by
  have same : (TextSet.ofTexts (blobs.map Blob.key)).toList.Perm
      (catalog.writeAll now revision blobs locations).keys := by
    refine (List.perm_ext_iff_of_nodup (TextMap.keys_nodup _)
      (consistent.writeAll revision blobs locations).keys_nodup).mpr ?_
    intro key
    rw [mem_keys_writeAll_iff consistent]
    exact (TextSet.mem_toList_iff _ key).trans (TextSet.contains_ofTexts_iff _ key)
  rw [same.length_eq, Catalog.keys, List.length_map, Catalog.size]

/-- A refresh writes the log of a changed key once, and nothing else of the key. -/
theorem exists_changes_writes_eq {changes : Changes} {key : String} {blob : Blob} (now : Nat)
    (changed : key ∈ changes.keys.toList) (found : changes.blob? key = some blob) :
    ∃ earlier rest, changes.keys.toList.map (changes.write now) =
        earlier ++ .upsert (recordOf now changes.locations blob) :: rest ∧
      blob.key ∉ earlier.map Write.key ∧ blob.key ∉ rest.map Write.key := by
  obtain ⟨earlier, later, split⟩ := List.append_of_mem changed
  have distinct : (earlier ++ key :: later).Nodup := split ▸ changes.keys.keys_nodup
  have upserted : changes.write now key = .upsert (recordOf now changes.locations blob) :=
    changes_write_eq_upsert_iff.mpr ⟨blob, found, rfl⟩
  refine ⟨earlier.map (changes.write now), later.map (changes.write now), ?_, ?_⟩
  · rw [split, List.map_append, List.map_cons, upserted]
  · rw [map_key_changes_write, map_key_changes_write, (mem_of_blob?_eq_some found).2]
    have apart := List.nodup_cons.mp (List.nodup_middle.mp distinct)
    exact ⟨fun before => apart.1 (List.mem_append_left _ before),
      fun after => apart.1 (List.mem_append_right _ after)⟩

/-- After a refresh, the tables hold of a changed key what its last log gives. -/
theorem dossiersOf_writeChanges (consistent : catalog.Consistent) {changes : Changes} {blob : Blob}
    (changed : changes.keys.contains blob.key = true)
    (found : changes.blob? blob.key = some blob) :
    ∃ id, (catalog.writeChanges now changes).dossiersOf blob.key =
      [(recordOf now changes.locations blob).toDossier id (catalog.pathFor blob.key)] := by
  obtain ⟨earlier, rest, parts, before, untouched⟩ :=
    exists_changes_writes_eq now ((TextSet.mem_toList_iff _ _).mpr changed) found
  have lawful := lawful_changes_write changes now changes.keys.toList
  rw [parts] at lawful
  rw [writeChanges_eq, parts]
  refine dossiersOf_foldl_write_upsert consistent lawful ?_ untouched
  exact fun write member named => absurd (List.mem_map.mpr ⟨write, member, named⟩) before

/-! ### Runs that write -/

/-- A build or a refresh succeeds and writes logs, in their order, into a catalog; it reports a
number of warnings. -/
inductive TakesOver (now : Nat) (store : LogStore) (before : Catalog) :
    Catalog → List Blob → Nat → Prop where
  | build {revision : String} {blobs : List Blob} {locations : TextMap Location}
      {summary : BuildSummary}
      (read : (readAll store).outcome = .ok (revision, blobs, locations))
      (succeeded : (before.build now store).outcome = .ok summary) :
      TakesOver now store before (before.build now store).catalog blobs summary.warnings
  | rebuild {revision : String} {blobs : List Blob} {locations : TextMap Location}
      {summary : RefreshSummary} (unbuilt : before.state = none)
      (read : (readAll store).outcome = .ok (revision, blobs, locations))
      (succeeded : (before.refresh now store).outcome = .ok (some summary)) :
      TakesOver now store before (before.refresh now store).catalog blobs summary.warnings
  | refresh {state : BuildState} {changes : Changes} {summary : RefreshSummary}
      (built : before.state = some state)
      (read : (readChanges store state.revision).outcome = .ok (some changes))
      (succeeded : (before.refresh now store).outcome = .ok (some summary)) :
      TakesOver now store before (before.refresh now store).catalog changes.updates
        summary.warnings

namespace TakesOver

variable {store : LogStore} {before after : Catalog} {logs : List Blob} {warnings : Nat}

/-- A takeover keeps a catalog sound. -/
theorem sound (taken : TakesOver now store before after logs warnings) (sound : before.Sound) :
    after.Sound := by
  cases taken with
  | build => exact sound.build now store
  | rebuild => exact sound.refresh now store
  | refresh => exact sound.refresh now store

/-- A takeover warns of all that was rejected in the logs. -/
theorem warnings_eq (taken : TakesOver now store before after logs warnings) :
    warnings = warningsOf logs := by
  cases taken with
  | build read succeeded =>
      rw [build_of_read before now read] at succeeded
      cases succeeded
      rfl
  | rebuild unbuilt read succeeded =>
      rw [refresh_of_unbuilt unbuilt, build_of_read before now read] at succeeded
      cases succeeded
      rfl
  | refresh built read succeeded =>
      rw [refresh_of_read built now read] at succeeded
      cases succeeded
      rfl

/-- After the last log of a key has been written, the item of the key has a row, and all that the
tables hold of it comes from the log. -/
theorem exists_row_reads (taken : TakesOver now store before after logs warnings)
    (sound : before.Sound) {earlier later : List Blob} {blob : Blob}
    (split : logs = earlier ++ blob :: later) (last : blob.key ∉ later.map Blob.key) :
    ∃ row ∈ after.rows, row.key = blob.key ∧ (after.dossier row).content.Reads blob.content := by
  have held : ∃ locations id path,
      after.dossiersOf blob.key = [(recordOf now locations blob).toDossier id path] := by
    cases taken with
    | build read succeeded =>
        subst split
        rw [build_of_read before now read]
        obtain ⟨id, held⟩ := dossiersOf_writeAll sound.consistent _ _ last
        exact ⟨_, id, _, held⟩
    | rebuild unbuilt read succeeded =>
        subst split
        rw [refresh_of_unbuilt unbuilt, build_of_read before now read]
        obtain ⟨id, held⟩ := dossiersOf_writeAll sound.consistent _ _ last
        exact ⟨_, id, _, held⟩
    | refresh built read succeeded =>
        rw [refresh_of_read built now read]
        obtain ⟨key, changed, found⟩ :=
          List.mem_filterMap.mp (split ▸ List.mem_append_right earlier List.mem_cons_self)
        cases (mem_of_blob?_eq_some found).2
        have contained := (TextSet.mem_toList_iff _ _).mp changed
        obtain ⟨id, held⟩ := dossiersOf_writeChanges sound.consistent contained found
        exact ⟨_, id, _, held⟩
  obtain ⟨locations, id, path, held⟩ := held
  obtain ⟨row, member, named, same⟩ := exists_row_of_dossiersOf held
  exact ⟨row, member, named, same ▸ reads_content_recordOf blob path⟩

end TakesOver

/-! ### A single log -/

/-- A store into which one log has been put is read as that log and its location. -/
theorem readAll_put (key log : String) (location : Location) :
    (readAll (MemoryStore.new.put key log location).answers).outcome =
      .ok ("r1", [⟨key, log⟩], TextMap.ofList [(key, location)]) := by
  have name : (MemoryStore.new.put key log location).currentName = "r1" := by
    change MemoryStore.revisionName 1 = "r1"
    decide +kernel
  have recorded : (MemoryStore.new.put key log location).recorded "r1" =
      some (TextMap.ofList [(key, log)]) := by
    rw [← name]
    exact MemoryStore.recorded_currentName_eq_some_iff.mpr ⟨by change 1 < _; decide, rfl⟩
  refine readAll_eq_ok_iff.mpr ⟨MemoryStore.currentRevision_eq_ok_iff.mpr ⟨rfl, name⟩,
    MemoryStore.listItems_eq_ok_iff.mpr ⟨rfl, _, recorded, rfl⟩,
    MemoryStore.resolvePaths_eq_ok_iff.mpr ⟨rfl, ?_⟩⟩
  have known : (MemoryStore.new.put key log location).locations.get? key = some location :=
    List.lookup_cons_self
  change TextMap.ofList (List.filterMap _ [key]) = _
  rw [List.filterMap_cons_some (by rw [known]; rfl)]
  rfl

/-- A first build from a store with a single log leaves a row with the path of its location and the
metadata of the log. -/
theorem exists_row_of_put (now : Nat) (key log : String) (location : Location) :
    let catalog := (Catalog.empty.build now (MemoryStore.new.put key log location).answers).catalog
    ∃ row ∈ catalog.rows, catalog.metadataOf row = (Digest.ofLog log).metadata ∧
      row.path = location.path := by
  intro catalog
  have written : catalog =
      Catalog.empty.writeAll now "r1" [⟨key, log⟩] (TextMap.ofList [(key, location)]) :=
    congrArg Run.catalog (build_of_read .empty now (readAll_put key log location))
  have last : key ∉ ([] : List Blob).map Blob.key := List.not_mem_nil
  obtain ⟨id, held⟩ := @dossiersOf_writeAll .empty now Reachable.empty.sound.consistent "r1"
    (TextMap.ofList [(key, location)]) [] [] ⟨key, log⟩ last
  rw [List.nil_append, ← written] at held
  obtain ⟨row, member, -, same⟩ := exists_row_of_dossiersOf held
  have known : (TextMap.ofList [(key, location)]).get? key = some location := List.lookup_cons_self
  refine ⟨row, member, congrArg (·.content.metadata) same, ?_⟩
  have path := congrArg (·.row.path) same
  simp only [Record.toDossier, Record.toRow, recordOf, known] at path
  exact path

end AnnexCatalog.Catalog
