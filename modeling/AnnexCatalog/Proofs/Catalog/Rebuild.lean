import AnnexCatalog.Proofs.Catalog.Mirror
import AnnexCatalog.Proofs.Search.Truth
import Mathlib.Data.List.Forall2
import Mathlib.Data.List.Sort

/-! # A refresh agrees with a build

A catalog that mirrors an earlier revision is brought to the current one by a refresh, which writes
the changed keys only, and by a build, which writes everything. Both leave the contents that
`Catalog.renewed` describes: the items that still have a log, in the order of their numbers, and
then the new ones in the order of their keys. For an unchanged item this needs that its location is
still the one that the catalog has.
-/

namespace AnnexCatalog.Catalog

open MemoryStore

/-- What a catalog says of an item once the log has been taken over from a store. -/
def taken (store : MemoryStore) (key path log : String) : Content :=
  (recordOf 0 store.locations ⟨key, log⟩).content path

/-- The contents of a catalog that has been brought to the current revision of a store. -/
def renewed (store : MemoryStore) (catalog : Catalog) : List Content :=
  catalog.contents.filterMap (fun content =>
      (store.current.get? content.key).map (taken store content.key content.path)) ++
    store.current.keys.filterMap fun key =>
      if key ∈ catalog.keys then none else (store.current.get? key).map (taken store key key)

/-- Where the log of an item has not changed since a snapshot, the store has the location of the
catalog, or has none and the item is absent. -/
def Settled (store : MemoryStore) (old : Snapshot) (catalog : Catalog) : Prop :=
  ∀ row ∈ catalog.rows, old.get? row.key = store.current.get? row.key →
    match store.locations.get? row.key with
    | some location => location.path = row.path ∧ location.present = row.present
    | none => row.present = false

variable {store : MemoryStore} {catalog : Catalog} {now : Nat}

/-- A record that is made with the location of the store has what is taken from it. -/
theorem content_recordOf {locations : TextMap Location} {blob : Blob}
    (located : locations.get? blob.key = store.locations.get? blob.key) (path : String) :
    (recordOf now locations blob).content path = taken store blob.key path blob.content := by
  unfold taken Record.content Record.toDossier Record.toRow Dossier.content recordOf
  simp only [located]

/-- An unchanged item at its location is already as it would be taken over. -/
theorem taken_eq_self {old : Snapshot} (settled : catalog.Settled store old) {content : Content}
    (member : content ∈ catalog.contents)
    (unchanged : old.get? content.key = store.current.get? content.key) {log : String}
    (reads : content.Reads log) : taken store content.key content.path log = content := by
  obtain ⟨dossier, listed, rfl⟩ := List.mem_map.mp member
  obtain ⟨row, inside, rfl⟩ := List.mem_map.mp listed
  have location := settled row inside unchanged
  have path : ((store.locations.get? row.key).map Location.path).getD row.path = row.path := by
    cases found : store.locations.get? row.key with
    | none => rfl
    | some place =>
        rw [found] at location
        exact location.1
  have present : ((store.locations.get? row.key).map Location.present).getD false =
      row.present := by
    cases found : store.locations.get? row.key with
    | none =>
        rw [found] at location
        exact location.symm
    | some place =>
        rw [found] at location
        exact location.2
  have tokens : (catalog.dossier row).content.tokens =
      [(Digest.ofLog log).metadata.indexedTokens row.path] := by
    rw [reads.tokens, reads.metadata]
    rfl
  change (⟨row.key, ((store.locations.get? row.key).map Location.path).getD row.path, _,
    (Digest.ofLog log).metadata, [(Digest.ofLog log).metadata.indexedTokens
      (((store.locations.get? row.key).map Location.path).getD row.path)]⟩ : Content) = _
  rw [path, ← tokens, ← reads.metadata]
  exact congrArg (fun flag => (⟨row.key, row.path, flag, _, _⟩ : Content)) present

/-- Two ascending lists give the same where a choice is made from texts that are in both or in
neither. -/
theorem filterMap_eq_of_ascending {first second : List String} {choose : String → Option Content}
    (firstAscending : first.Pairwise (· < ·)) (secondAscending : second.Pairwise (· < ·))
    (same : ∀ text, (choose text).isSome = true → (text ∈ first ↔ text ∈ second)) :
    first.filterMap choose = second.filterMap choose := by
  have chosen (texts : List String) :
      texts.filterMap choose =
        (texts.filter fun text => (choose text).isSome).filterMap choose := by
    rw [List.filterMap_filter]
    apply List.filterMap_congr
    intro text _
    cases choose text <;> rfl
  have parts : first.filter (fun text => (choose text).isSome) =
      second.filter fun text => (choose text).isSome := by
    refine (firstAscending.filter _).eq_of_mem_iff (secondAscending.filter _) ?_
    intro text
    rw [List.mem_filter, List.mem_filter]
    exact and_congr_left (same text)
  rw [chosen first, chosen second, parts]

/-! ### What a build leaves -/

section BuildWrites

variable {locations : TextMap Location}

/-- The writes of a build take an item over or delete it, as its log is there or not. -/
theorem reviseAll_buildWrites (consistent : catalog.Consistent)
    (located : ∀ blob ∈ blobs store.current,
      locations.get? blob.key = store.locations.get? blob.key)
    (content : Content) (cached : content.key ∈ catalog.keys) :
    Write.reviseAll (catalog.buildWrites now locations (blobs store.current)) content =
      (store.current.get? content.key).map (taken store content.key content.path) := by
  have distinct : ((blobs store.current).map Blob.key).Nodup :=
    (map_key_blobs store.current).symm ▸ store.current.keys_nodup
  cases logged : store.current.get? content.key with
  | some log =>
      have listed : (⟨content.key, log⟩ : Blob) ∈ blobs store.current := mem_blobs_iff.mpr logged
      rw [reviseAll_of_mem (keys_buildWrites_nodup consistent distinct)
        (upsert_mem_buildWrites listed) content rfl]
      exact congrArg some (content_recordOf (located _ listed) content.path)
  | none =>
      have unlogged : content.key ∉ (blobs store.current).map Blob.key := by
        rw [map_key_blobs, TextMap.mem_keys_iff, TextMap.contains, logged]
        exact Bool.false_ne_true
      exact reviseAll_of_mem (keys_buildWrites_nodup consistent distinct)
        (delete_mem_buildWrites cached unlogged) content rfl

/-- They add the logs of new keys. -/
theorem filterMap_added_buildWrites
    (located : ∀ blob ∈ blobs store.current,
      locations.get? blob.key = store.locations.get? blob.key) :
    (catalog.buildWrites now locations (blobs store.current)).filterMap
        (Write.added catalog.keys) =
      store.current.keys.filterMap fun key =>
        if key ∈ catalog.keys then none
        else (store.current.get? key).map (taken store key key) := by
  have deletions (keys : List String) :
      (keys.map Write.delete).filterMap (Write.added catalog.keys) = [] := by
    apply List.filterMap_eq_nil_iff.mpr
    intro write member
    obtain ⟨key, -, rfl⟩ := List.mem_map.mp member
    unfold Write.added
    split <;> rfl
  rw [buildWrites, List.filterMap_append, deletions, List.append_nil, List.filterMap_map,
    ← map_key_blobs, List.filterMap_map]
  apply List.filterMap_congr
  intro blob listed
  rw [Function.comp_apply, Function.comp_apply, mem_blobs_iff.mp listed, Option.map_some,
    ← content_recordOf (located blob listed) blob.key]
  rfl

end BuildWrites

/-- Writing all logs renews every key. -/
theorem contents_writeAll (consistent : catalog.Consistent) (revision : String) :
    (catalog.writeAll now revision (blobs store.current)
        (store.located (TextSet.ofTexts ((blobs store.current).map Blob.key)))).contents =
      catalog.renewed store := by
  have distinct : ((blobs store.current).map Blob.key).Nodup :=
    (map_key_blobs store.current).symm ▸ store.current.keys_nodup
  have located : ∀ blob ∈ blobs store.current,
      (store.located (TextSet.ofTexts ((blobs store.current).map Blob.key))).get? blob.key =
        store.locations.get? blob.key := fun _ listed =>
    get?_located store ((TextSet.contains_ofTexts_iff _ _).mpr (List.mem_map_of_mem listed))
  rw [writeAll_eq consistent]
  refine (contents_foldl_write consistent.unindexed (lawful_buildWrites _)
    (keys_buildWrites_nodup consistent distinct)).trans ?_
  congr 1
  · rw [contents_unindexed, List.filterMap_map]
    apply List.filterMap_congr
    intro content member
    have cached : content.key ∈ catalog.keys := mem_keys_iff_contents.mpr ⟨content, member, rfl⟩
    exact reviseAll_buildWrites consistent located { content with tokens := [] } cached
  · exact filterMap_added_buildWrites located

/-! ### What a refresh leaves -/

section ChangeWrites

variable {old : Snapshot} {changes : Changes}

/-- The write of a changed key takes it over or deletes it, as its log is there or not. -/
theorem result_changes_write (lead : changes.Lead old store.current)
    (located : ∀ key, changes.keys.contains key = true →
      changes.locations.get? key = store.locations.get? key)
    {key : String} (changed : changes.keys.contains key = true) (path : String) :
    (changes.write now key).result path =
      (store.current.get? key).map (taken store key path) := by
  unfold Changes.write
  rw [lead.logs key changed]
  cases store.current.get? key with
  | none => rfl
  | some log => exact congrArg some (content_recordOf (located key changed) path)

/-- An item of a settled catalog is revised as in a build, although it is written only if its key
has changed. -/
theorem reviseAll_changes_write (mirrors : catalog.Mirrors old)
    (lead : changes.Lead old store.current) (settled : catalog.Settled store old)
    (located : ∀ key, changes.keys.contains key = true →
      changes.locations.get? key = store.locations.get? key)
    {content : Content} (member : content ∈ catalog.contents) :
    Write.reviseAll (changes.keys.toList.map (changes.write now)) content =
      (store.current.get? content.key).map (taken store content.key content.path) := by
  cases changed : changes.keys.contains content.key with
  | true =>
      have write : changes.write now content.key ∈ changes.keys.toList.map (changes.write now) :=
        List.mem_map_of_mem ((TextSet.mem_toList_iff _ _).mpr changed)
      rw [reviseAll_of_mem (keys_changes_write_nodup changes now) write content
        (key_changes_write changes now _).symm, result_changes_write lead located changed]
  | false =>
      have unwritten : content.key ∉
          (changes.keys.toList.map (changes.write now)).map Write.key := by
        rw [map_key_changes_write, TextSet.mem_toList_iff, changed]
        exact Bool.false_ne_true
      obtain ⟨log, logged, reads⟩ := mirrors.reads content member
      have same := lead.same changed
      rw [reviseAll_eq_some_self unwritten, ← same, logged, Option.map_some,
        taken_eq_self settled member same reads]

/-- New keys have changed, so the writes of the changed keys add all of them. -/
theorem filterMap_added_changes_write (mirrors : catalog.Mirrors old)
    (lead : changes.Lead old store.current)
    (located : ∀ key, changes.keys.contains key = true →
      changes.locations.get? key = store.locations.get? key) :
    (changes.keys.toList.map (changes.write now)).filterMap (Write.added catalog.keys) =
      store.current.keys.filterMap fun key =>
        if key ∈ catalog.keys then none
        else (store.current.get? key).map (taken store key key) := by
  have chosen : changes.keys.toList.filterMap (Write.added catalog.keys ∘ changes.write now) =
      changes.keys.toList.filterMap fun key =>
        if key ∈ catalog.keys then none
        else (store.current.get? key).map (taken store key key) := by
    apply List.filterMap_congr
    intro key member
    rw [Function.comp_apply, Write.added, key_changes_write,
      result_changes_write lead located ((TextSet.mem_toList_iff _ _).mp member)]
  rw [List.filterMap_map, chosen]
  refine filterMap_eq_of_ascending changes.keys.keys_ascending store.current.keys_ascending ?_
  intro key some
  split at some
  · cases some
  · next uncached =>
      rw [Option.isSome_map] at some
      have logged : key ∈ store.current.keys := (TextMap.mem_keys_iff _ _).mpr some
      have unlogged : old.get? key = none := by
        rw [mirrors.keys, TextMap.contains, Option.not_isSome_iff_eq_none] at uncached
        exact uncached
      have different : old.get? key ≠ store.current.get? key := by
        rw [unlogged]
        intro same
        rw [← same] at some
        cases some
      refine iff_of_true ((TextSet.mem_toList_iff _ _).mpr ?_) logged
      exact lead.differing key different

/-- In a settled catalog, so does writing the changes. -/
theorem contents_writeChanges (consistent : catalog.Consistent) (mirrors : catalog.Mirrors old)
    (lead : changes.Lead old store.current) (settled : catalog.Settled store old)
    (located : ∀ key, changes.keys.contains key = true →
      changes.locations.get? key = store.locations.get? key) :
    (catalog.writeChanges now changes).contents = catalog.renewed store := by
  rw [writeChanges_eq]
  refine (contents_foldl_write consistent (lawful_changes_write changes now _)
    (keys_changes_write_nodup changes now)).trans ?_
  congr 1
  · apply List.filterMap_congr
    intro content member
    exact reviseAll_changes_write mirrors lead settled located member
  · exact filterMap_added_changes_write mirrors lead located

end ChangeWrites

/-- A settled catalog at the current revision is what it would be renewed to. -/
theorem renewed_eq_contents (mirrors : catalog.Mirrors store.current)
    (settled : catalog.Settled store store.current) :
    catalog.renewed store = catalog.contents := by
  have kept : catalog.contents.filterMap (fun content =>
      (store.current.get? content.key).map (taken store content.key content.path)) =
        catalog.contents := by
    refine (List.filterMap_congr ?_).trans List.filterMap_some
    intro content member
    obtain ⟨log, logged, reads⟩ := mirrors.reads content member
    rw [logged, Option.map_some, taken_eq_self settled member rfl reads]
  have none : (store.current.keys.filterMap fun key =>
      if key ∈ catalog.keys then none
      else (store.current.get? key).map (taken store key key)) = [] := by
    apply List.filterMap_eq_nil_iff.mpr
    intro key member
    exact if_pos ((mirrors.keys key).mpr ((TextMap.mem_keys_iff _ _).mp member))
  rw [renewed, kept, none, List.append_nil]

/-! ### The two runs -/

/-- A run has succeeded and has brought a catalog to the current revision of a store. -/
structure Renews {α : Type} (run : Run α) (store : MemoryStore) (catalog : Catalog) : Prop where
  succeeds : ∃ summary, run.outcome = .ok summary
  revision : ∃ state, run.catalog.state = some state ∧ state.revision = store.currentName
  contents : run.catalog.contents = catalog.renewed store

/-- A build from a store that can be read renews the catalog. -/
theorem build_renews (readable : store.Readable) (consistent : catalog.Consistent) (now : Nat) :
    Renews (catalog.build now store.answers) store catalog := by
  obtain ⟨on, recorded⟩ := readable.recorded_current
  have read : (readAll store.answers).outcome = .ok (store.currentName, blobs store.current,
      store.located (TextSet.ofTexts ((blobs store.current).map Blob.key))) :=
    readAll_eq_ok_iff.mpr ⟨currentRevision_eq_ok_iff.mpr ⟨on, rfl⟩,
      listItems_eq_ok_iff.mpr ⟨on, store.current, recorded, rfl⟩,
      resolvePaths_eq_ok_iff.mpr ⟨on, rfl⟩⟩
  rw [build_of_read catalog now read]
  exact ⟨⟨_, rfl⟩, ⟨_, rfl, rfl⟩, contents_writeAll consistent _⟩

/-- A refresh of a readable store that has moved on reads the changes that lead to its current
logs. -/
theorem exists_readChanges (readable : store.Readable) {since : String} {old : Snapshot}
    (recorded : store.recorded since = some old) (moved : store.currentName ≠ since) :
    ∃ changes, (readChanges store.answers since).outcome = .ok (some changes) ∧
      changes.revision = store.currentName ∧ changes.Lead old store.current ∧
      ∀ key, changes.keys.contains key = true →
        changes.locations.get? key = store.locations.get? key := by
  obtain ⟨on, current⟩ := readable.recorded_current
  have revision := currentRevision_eq_ok_iff.mpr ⟨on, rfl⟩
  have changed := changedItems_eq_ok_iff.mpr ⟨on, old, store.current, recorded, current, rfl⟩
  have lead {changes : Changes}
      (read : (readChanges store.answers since).outcome = .ok (some changes))
      (same : changes.revision = store.currentName) : changes.Lead old store.current := by
    obtain ⟨before, after, first, second, lead⟩ := lead_of_readChanges (.refl _) read
    rw [recorded] at first
    rw [same, current] at second
    cases first
    cases second
    exact lead
  cases empty : (old.differences store.current).isEmpty with
  | true =>
      have read : (readChanges store.answers since).outcome =
          .ok (some ⟨store.currentName, old.differences store.current, [], TextMap.empty⟩) := by
        refine readChanges_eq_ok_some_iff.mpr ⟨revision, moved, changed, ?_⟩
        rw [if_pos empty]
        exact ⟨rfl, rfl⟩
      refine ⟨_, read, rfl, lead read rfl, ?_⟩
      intro key listed
      rw [(TextSet.isEmpty_iff _).mp empty key] at listed
      cases listed
  | false =>
      have read : (readChanges store.answers since).outcome =
          .ok (some ⟨store.currentName, old.differences store.current,
            (blobs store.current).filter fun blob =>
              (old.differences store.current).contains blob.key,
            store.located (old.differences store.current)⟩) := by
        refine readChanges_eq_ok_some_iff.mpr ⟨revision, moved, changed, ?_⟩
        rw [if_neg (by rw [empty]; exact Bool.false_ne_true)]
        exact ⟨fetchItems_eq_ok_iff.mpr ⟨on, store.current, current, rfl⟩,
          resolvePaths_eq_ok_iff.mpr ⟨on, rfl⟩⟩
      exact ⟨_, read, rfl, lead read rfl, fun key listed => get?_located store listed⟩

/-- A refresh of a settled mirror renews it as a build does. -/
theorem refresh_renews (readable : store.Readable) (consistent : catalog.Consistent)
    {state : BuildState} (built : catalog.state = some state) {old : Snapshot}
    (recorded : store.recorded state.revision = some old) (mirrors : catalog.Mirrors old)
    (settled : catalog.Settled store old) (now : Nat) :
    Renews (catalog.refresh now store.answers) store catalog := by
  obtain ⟨on, current⟩ := readable.recorded_current
  by_cases unmoved : store.currentName = state.revision
  · rw [← unmoved, current] at recorded
    cases recorded
    have read := readChanges_eq_ok_none_iff.mpr (currentRevision_eq_ok_iff.mpr ⟨on, unmoved⟩)
    rw [refresh_of_unmoved built now read]
    exact ⟨⟨_, rfl⟩, ⟨state, built, unmoved.symm⟩, (renewed_eq_contents mirrors settled).symm⟩
  · obtain ⟨changes, read, revision, lead, located⟩ :=
      exists_readChanges readable recorded unmoved
    rw [refresh_of_read built now read]
    exact ⟨⟨_, rfl⟩, ⟨_, rfl, revision⟩,
      contents_writeChanges consistent mirrors lead settled located⟩

/-! ### Agreement -/

/-- Two rows agree in everything but their numbers and times of writing: in what the tables of their
catalogs hold, and in every condition, those on the text index among them. -/
structure Alike (first second : Catalog) (row other : Row) : Prop where
  key : row.key = other.key
  path : row.path = other.path
  present : row.present = other.present
  metadata : first.metadataOf row = second.metadataOf other
  conditions : ∀ condition : Condition, condition.truth first row = condition.truth second other

theorem map_content_rows (catalog : Catalog) :
    catalog.contents = catalog.rows.map fun row => (catalog.dossier row).content := by
  rw [contents, dossiers, List.map_map]
  rfl

/-- Catalogs with the same contents agree row by row. -/
theorem forall₂_alike_of_contents_eq {first second : Catalog}
    (same : first.contents = second.contents) :
    List.Forall₂ (Alike first second) first.rows second.rows := by
  rw [map_content_rows, map_content_rows, ← List.forall₂_eq_eq_eq, List.forall₂_map_left_iff,
    List.forall₂_map_right_iff] at same
  refine same.imp ?_
  intro row other contents
  exact ⟨congrArg Content.key contents, congrArg Content.path contents,
    congrArg Content.present contents, congrArg Content.metadata contents,
    Condition.truth_eq_of_content_eq contents⟩

end AnnexCatalog.Catalog

namespace AnnexCatalog

open Catalog MemoryStore

variable {store : MemoryStore} {catalog : Catalog} {state : BuildState} {old : Snapshot}

/-- A catalog that follows a store mirrors the snapshot at its revision and counts its contents. -/
theorem Follows.mirrors_recorded (reached : Follows store catalog)
    (built : catalog.state = some state) (recorded : store.recorded state.revision = some old) :
    catalog.Mirrors old ∧ state.itemCount = catalog.contents.length := by
  obtain ⟨snapshot, same, mirrors, counted⟩ := (mirrored_iff_of_state built).mp reached.mirrored
  rw [recorded] at same
  cases same
  rw [map_content_rows, List.length_map]
  exact ⟨mirrors, counted⟩

/-- Where all reads succeed, a refresh and a build of the same catalog both succeed, and leave the
same items in the order of their numbers, at the same revision and with the same count. The location
of every unchanged item has to be settled. -/
theorem Follows.refresh_agrees_with_build (reached : Follows store catalog)
    (built : catalog.state = some state) (recorded : store.recorded state.revision = some old)
    (readable : store.Readable) (settled : catalog.Settled store old) (now later : Nat) :
    let refreshed := catalog.refresh now store.answers
    let rebuilt := catalog.build later store.answers
    (∃ summary, refreshed.outcome = .ok summary) ∧ (∃ summary, rebuilt.outcome = .ok summary) ∧
      (refreshed.catalog.rows.map Row.id).Pairwise (· < ·) ∧
      (rebuilt.catalog.rows.map Row.id).Pairwise (· < ·) ∧
      List.Forall₂ (Alike refreshed.catalog rebuilt.catalog) refreshed.catalog.rows
        rebuilt.catalog.rows ∧
      ∃ first second, refreshed.catalog.state = some first ∧ rebuilt.catalog.state = some second ∧
        first.revision = store.currentName ∧ second.revision = store.currentName ∧
        first.itemCount = second.itemCount := by
  intro refreshed rebuilt
  have consistent := reached.reachable.sound.consistent
  have afterRefresh : Follows store refreshed.catalog := reached.refresh now (.refl _)
  have afterBuild : Follows store rebuilt.catalog := reached.build later (.refl _)
  obtain ⟨mirrors, -⟩ := reached.mirrors_recorded built recorded
  have renewal := refresh_renews readable consistent built recorded mirrors settled now
  have rebuilding := build_renews readable consistent later
  obtain ⟨first, firstBuilt, firstRevision⟩ := renewal.revision
  obtain ⟨second, secondBuilt, secondRevision⟩ := rebuilding.revision
  obtain ⟨-, current⟩ := readable.recorded_current
  have same : refreshed.catalog.contents = rebuilt.catalog.contents :=
    renewal.contents.trans rebuilding.contents.symm
  have firstCount := (afterRefresh.mirrors_recorded firstBuilt (firstRevision ▸ current)).2
  have secondCount := (afterBuild.mirrors_recorded secondBuilt (secondRevision ▸ current)).2
  refine ⟨renewal.succeeds, rebuilding.succeeds,
    afterRefresh.reachable.sound.consistent.ids_ascending,
    afterBuild.reachable.sound.consistent.ids_ascending, forall₂_alike_of_contents_eq same,
    first, second, firstBuilt, secondBuilt, firstRevision, secondRevision, ?_⟩
  rw [firstCount, secondCount, same]

/-- Of two items that were taken over, one is removed and one stays, and a third is put. -/
theorem refresh_agrees_with_build_of_removed :
    let before := (MemoryStore.new.put "a" "1s title +One" ⟨"a.mp3", true⟩).put "b"
      "1s title +Two" ⟨"b.mp3", false⟩
    let store := (before.remove "a").put "c" "2s title +Three" ⟨"c.mp3", true⟩
    let catalog := (Catalog.empty.build 1 before.answers).catalog
    let refreshed := catalog.refresh 2 store.answers
    let rebuilt := catalog.build 3 store.answers
    Follows store catalog ∧ catalog.state = some ⟨"r2", 1, 2⟩ ∧
      store.recorded "r2" = some before.current ∧ store.Readable ∧
      catalog.Settled store before.current ∧
      (∃ summary, refreshed.outcome = .ok summary) ∧ (∃ summary, rebuilt.outcome = .ok summary) ∧
      (refreshed.catalog.rows.map Row.id).Pairwise (· < ·) ∧
      (rebuilt.catalog.rows.map Row.id).Pairwise (· < ·) ∧
      List.Forall₂ (Alike refreshed.catalog rebuilt.catalog) refreshed.catalog.rows
        rebuilt.catalog.rows ∧
      ∃ first second, refreshed.catalog.state = some first ∧ rebuilt.catalog.state = some second ∧
        first.revision = store.currentName ∧ second.revision = store.currentName ∧
        first.itemCount = second.itemCount := by
  intro before store catalog refreshed rebuilt
  have reached : Follows store catalog :=
    ((((Follows.start.mutate (.put "a" "1s title +One" ⟨"a.mp3", true⟩)).mutate
      (.put "b" "1s title +Two" ⟨"b.mp3", false⟩)).build 1 (.refl _)).mutate
      (.remove "a")).mutate (.put "c" "2s title +Three" ⟨"c.mp3", true⟩)
  have built : catalog.state = some ⟨"r2", 1, 2⟩ := by decide +kernel
  have recorded : store.recorded "r2" = some before.current := by decide +kernel
  have readable : store.Readable :=
    ⟨_, listItems_eq_ok_iff.mpr ⟨rfl, store.current, by decide +kernel, rfl⟩⟩
  have settled : catalog.Settled store before.current := by
    have rows : catalog.rows.map (fun row => (row.key, row.path, row.present)) =
        [("a", "a.mp3", true), ("b", "b.mp3", false)] := by decide +kernel
    intro row member same
    have listed :=
      List.mem_map_of_mem (f := fun row : Row => (row.key, row.path, row.present)) member
    rw [rows] at listed
    simp only [List.mem_cons, Prod.mk.injEq, List.not_mem_nil, or_false] at listed
    rcases listed with ⟨key, path, present⟩ | ⟨key, path, present⟩
    · rw [key] at same
      exact absurd same (by decide +kernel)
    · have location : store.locations.get? "b" = some ⟨"b.mp3", false⟩ := by decide +kernel
      rw [key, location]
      exact ⟨path.symm, present.symm⟩
  exact ⟨reached, built, recorded, readable, settled,
    Follows.refresh_agrees_with_build reached built recorded readable settled 2 3⟩

end AnnexCatalog
