import AnnexCatalog.Catalog.Build
import AnnexCatalog.Proofs.Catalog.Contents

/-! # Builds and refreshes as writes

A build and a refresh are each a list of writes of single items (`writeAll_eq`,
`writeChanges_eq`). What they leave in the catalog is what it takes from the logs that were read, or
was there before and has not been touched.
-/

namespace AnnexCatalog

/-- A content is what the catalog takes from a log, and is indexed as it stands. -/
structure Content.Reads (content : Content) (log : String) : Prop where
  metadata : content.metadata = (Digest.ofLog log).metadata
  tokens : content.tokens = [content.metadata.indexedTokens content.path]

namespace Catalog

variable {catalog : Catalog} {now : Nat} {locations : TextMap Location}

theorem lawful_recordOf (now : Nat) (locations : TextMap Location) (blob : Blob) :
    (Write.upsert (recordOf now locations blob)).Lawful :=
  lawful_ofLog blob.content

/-- The content that is written for a log is read from it. -/
theorem reads_content_recordOf (blob : Blob) (path : String) :
    ((recordOf now locations blob).content path).Reads blob.content :=
  ⟨rfl, rfl⟩

/-! ### Builds -/

/-- The catalog with an empty text index, as a build starts from it. -/
def unindexed (catalog : Catalog) : Catalog :=
  { catalog with index := [] }

/-- A catalog is consistent without its index, too. -/
theorem Consistent.unindexed (consistent : catalog.Consistent) : catalog.unindexed.Consistent :=
  consistent.of_rows rfl

/-- Without the index, the contents have no tokens and are the same otherwise. -/
theorem contents_unindexed (catalog : Catalog) :
    catalog.unindexed.contents =
      catalog.contents.map fun content => { content with tokens := [] } := by
  simp only [contents, dossiers, List.map_map]
  rfl

/-- The writes of a build: every log is taken over, and every item without a log is deleted. -/
def buildWrites (catalog : Catalog) (now : Nat) (locations : TextMap Location)
    (blobs : List Blob) : List Write :=
  blobs.map (fun blob => .upsert (recordOf now locations blob)) ++
    (catalog.keys.filter fun key =>
      !(TextSet.ofTexts (blobs.map Blob.key)).contains key).map .delete

/-- All writes of a build are lawful. -/
theorem lawful_buildWrites (blobs : List Blob) :
    ∀ write ∈ catalog.buildWrites now locations blobs, write.Lawful := by
  intro write member
  rcases List.mem_append.mp member with taken | deleted
  · obtain ⟨blob, -, rfl⟩ := List.mem_map.mp taken
    exact lawful_recordOf now locations blob
  · obtain ⟨key, -, rfl⟩ := List.mem_map.mp deleted
    trivial

/-- A build writes every log, and deletes the keys of the catalog that are in none. -/
theorem mem_buildWrites_iff {blobs : List Blob} {write : Write} :
    write ∈ catalog.buildWrites now locations blobs ↔
      (∃ blob ∈ blobs, write = .upsert (recordOf now locations blob)) ∨
        ∃ key ∈ catalog.keys, key ∉ blobs.map Blob.key ∧ write = .delete key := by
  rw [buildWrites, List.mem_append, List.mem_map, List.mem_map]
  simp only [List.mem_filter, Bool.not_eq_true', Bool.eq_false_iff, ne_eq,
    TextSet.contains_ofTexts_iff, and_assoc, @eq_comm _ _ write]

/-- Every log is written by a build. -/
theorem upsert_mem_buildWrites {blobs : List Blob} {blob : Blob} (listed : blob ∈ blobs) :
    .upsert (recordOf now locations blob) ∈ catalog.buildWrites now locations blobs :=
  mem_buildWrites_iff.mpr (.inl ⟨blob, listed, rfl⟩)

/-- Every key without a log is deleted by a build. -/
theorem delete_mem_buildWrites {blobs : List Blob} {key : String} (cached : key ∈ catalog.keys)
    (unlogged : key ∉ blobs.map Blob.key) :
    .delete key ∈ catalog.buildWrites now locations blobs :=
  mem_buildWrites_iff.mpr (.inr ⟨key, cached, unlogged, rfl⟩)

/-- A build writes or deletes every item. -/
theorem mem_keys_buildWrites {blobs : List Blob} {key : String} (cached : key ∈ catalog.keys) :
    key ∈ (catalog.buildWrites now locations blobs).map Write.key := by
  by_cases logged : key ∈ blobs.map Blob.key
  · obtain ⟨blob, listed, named⟩ := List.mem_map.mp logged
    exact List.mem_map.mpr ⟨_, upsert_mem_buildWrites listed, named⟩
  · exact List.mem_map.mpr ⟨_, delete_mem_buildWrites cached logged, rfl⟩

/-- Writing some keys does not change which of the other keys there are. -/
theorem filter_keys_foldl_write {writes : List Write} (consistent : catalog.Consistent)
    (lawful : ∀ write ∈ writes, write.Lawful) (keep : String → Bool)
    (upserts : ∀ write ∈ writes, ∃ record, write = .upsert record ∧ keep record.key = false) :
    (writes.foldl write catalog).keys.filter keep = catalog.keys.filter keep := by
  induction writes generalizing catalog with
  | nil => rfl
  | cons write rest step =>
      have head := lawful write List.mem_cons_self
      rw [List.foldl_cons, step (consistent.write head)
        (fun other member => lawful other (List.mem_cons_of_mem _ member))
        (fun other member => upserts other (List.mem_cons_of_mem _ member))]
      obtain ⟨record, rfl, dropped⟩ := upserts write List.mem_cons_self
      rw [Catalog.write, keys_upsert consistent head, List.filter_append]
      have none : (if record.key ∈ catalog.keys then [] else [record.key]).filter keep = [] := by
        split
        · rfl
        · exact List.filter_cons_of_neg (by simp [dropped])
      rw [none, List.append_nil]

/-- A build carries out its writes on the catalog without index. -/
theorem writeAll_eq (consistent : catalog.Consistent) (revision : String) (blobs : List Blob) :
    catalog.writeAll now revision blobs locations =
      { (catalog.buildWrites now locations blobs).foldl write catalog.unindexed with
        state := some ⟨revision, now, (TextSet.ofTexts (blobs.map Blob.key)).toList.length⟩ } := by
  have taken : (blobs.map (recordOf now locations)).foldl upsert catalog.unindexed =
      (blobs.map fun blob => Write.upsert (recordOf now locations blob)).foldl write
        catalog.unindexed := by
    rw [List.foldl_map, List.foldl_map]
    rfl
  have left : ((blobs.map (recordOf now locations)).foldl upsert catalog.unindexed).keys.filter
        (fun key => !(TextSet.ofTexts (blobs.map Blob.key)).contains key) =
      catalog.keys.filter fun key => !(TextSet.ofTexts (blobs.map Blob.key)).contains key := by
    rw [taken]
    apply filter_keys_foldl_write consistent.unindexed
    · intro write member
      obtain ⟨blob, -, rfl⟩ := List.mem_map.mp member
      exact lawful_recordOf now locations blob
    · intro write member
      obtain ⟨blob, listed, rfl⟩ := List.mem_map.mp member
      have named := (TextSet.contains_ofTexts_iff _ blob.key).mpr (List.mem_map_of_mem listed)
      exact ⟨_, rfl, by rw [Bool.not_eq_false']; exact named⟩
  rw [buildWrites, List.foldl_append, ← taken, ← left, List.foldl_map]
  rfl

/-- After a build, the catalog says of every item what it takes from one of the logs. -/
theorem mem_contents_writeAll (consistent : catalog.Consistent) {revision : String}
    {blobs : List Blob} {content : Content}
    (member : content ∈ (catalog.writeAll now revision blobs locations).contents) :
    ∃ blob ∈ blobs, content.key = blob.key ∧ content.Reads blob.content := by
  rw [writeAll_eq consistent] at member
  rcases mem_contents_foldl_write consistent.unindexed (lawful_buildWrites blobs) member with
    ⟨record, path, written, rfl⟩ | ⟨before, untouched⟩
  · rcases mem_buildWrites_iff.mp written with ⟨blob, listed, same⟩ | ⟨_, -, -, same⟩
    · cases same
      exact ⟨blob, listed, rfl, reads_content_recordOf blob path⟩
    · cases same
  · have cached : content.key ∈ catalog.unindexed.keys :=
      mem_keys_iff_contents.mpr ⟨content, before, rfl⟩
    exact absurd (mem_keys_buildWrites cached) untouched

/-- If no log is listed twice, a build writes each key once. -/
theorem keys_buildWrites_nodup (consistent : catalog.Consistent) {blobs : List Blob}
    (distinct : (blobs.map Blob.key).Nodup) :
    ((catalog.buildWrites now locations blobs).map Write.key).Nodup := by
  rw [buildWrites, List.map_append, List.map_map, List.map_map]
  refine List.nodup_append.mpr ⟨distinct, ?_, ?_⟩
  · refine (List.map_id _).symm ▸ consistent.keys_nodup.filter _
  · rintro key taken _ deleted rfl
    obtain ⟨blob, listed, named⟩ := List.mem_map.mp taken
    obtain ⟨other, kept, same⟩ := List.mem_map.mp deleted
    have unlogged := (List.mem_filter.mp kept).2
    have logged := (TextSet.contains_ofTexts_iff (blobs.map Blob.key) other).mpr
      (List.mem_map.mpr ⟨blob, listed, named.trans same.symm⟩)
    rw [logged] at unlogged
    cases unlogged

/-! ### Refreshes -/

/-- The write of a refresh for a key: the log is taken over, or the item deleted without one. -/
def Changes.write (changes : Changes) (now : Nat) (key : String) : Write :=
  match changes.blob? key with
  | some blob => .upsert (recordOf now changes.locations blob)
  | none => .delete key

variable {changes : Changes}

/-- The log that is found for a key is one of those that were read. -/
theorem mem_of_blob?_eq_some {key : String} {blob : Blob}
    (found : changes.blob? key = some blob) : blob ∈ changes.blobs ∧ blob.key = key := by
  unfold Changes.blob? at found
  have named := List.find?_some found
  exact ⟨List.mem_reverse.mp (List.mem_of_find?_eq_some found), beq_iff_eq.mp named⟩

/-- A refresh writes a key exactly if a log was read for it, and then that log. -/
theorem changes_write_eq_upsert_iff {key : String} {record : Record} :
    changes.write now key = .upsert record ↔
      ∃ blob, changes.blob? key = some blob ∧ record = recordOf now changes.locations blob := by
  unfold Changes.write
  cases changes.blob? key with
  | some blob => simp [eq_comm]
  | none => simp

@[simp] theorem key_changes_write (changes : Changes) (now : Nat) (key : String) :
    (changes.write now key).key = key := by
  unfold Changes.write
  cases found : changes.blob? key with
  | some blob => exact (mem_of_blob?_eq_some found).2
  | none => rfl

/-- All writes of a refresh are lawful. -/
theorem lawful_changes_write (changes : Changes) (now : Nat) (keys : List String) :
    ∀ write ∈ keys.map (changes.write now), write.Lawful := by
  intro write member
  obtain ⟨key, -, rfl⟩ := List.mem_map.mp member
  unfold Changes.write
  cases changes.blob? key with
  | some blob => exact lawful_recordOf now changes.locations blob
  | none => trivial

/-- Every write of a refresh is about its own key. -/
theorem map_key_changes_write (changes : Changes) (now : Nat) (keys : List String) :
    (keys.map (changes.write now)).map Write.key = keys := by
  rw [List.map_map]
  exact (List.map_congr_left fun key _ => key_changes_write changes now key).trans (List.map_id _)

/-- A refresh writes each changed key once. -/
theorem keys_changes_write_nodup (changes : Changes) (now : Nat) :
    ((changes.keys.toList.map (changes.write now)).map Write.key).Nodup := by
  rw [map_key_changes_write]
  exact changes.keys.keys_nodup

/-- A refresh carries out its writes in the order of the keys. -/
theorem writeChanges_eq (catalog : Catalog) (now : Nat) (changes : Changes) :
    catalog.writeChanges now changes =
      let written := (changes.keys.toList.map (changes.write now)).foldl write catalog
      { written with state := some ⟨changes.revision, now, written.size⟩ } := by
  have step : writeKey now changes = fun catalog key => catalog.write (changes.write now key) := by
    funext catalog key
    unfold writeKey Changes.write
    cases changes.blob? key <;> rfl
  rw [writeChanges, step, List.foldl_map]

/-- After a refresh, the catalog says of every item what it takes from the new log of a changed key,
or what it said of an item that has not changed. -/
theorem mem_contents_writeChanges (consistent : catalog.Consistent) {content : Content}
    (member : content ∈ (catalog.writeChanges now changes).contents) :
    (∃ blob, changes.keys.contains content.key = true ∧
        changes.blob? content.key = some blob ∧ content.Reads blob.content) ∨
      content ∈ catalog.contents ∧ changes.keys.contains content.key = false := by
  rw [writeChanges_eq] at member
  rcases mem_contents_foldl_write consistent (lawful_changes_write changes now _) member with
    ⟨record, path, written, rfl⟩ | ⟨before, untouched⟩
  · obtain ⟨key, listed, same⟩ := List.mem_map.mp written
    obtain ⟨blob, found, rfl⟩ := changes_write_eq_upsert_iff.mp same
    have named : ((recordOf now changes.locations blob).content path).key = key :=
      (mem_of_blob?_eq_some found).2
    exact .inl ⟨blob, named ▸ (TextSet.mem_toList_iff _ _).mp listed, named ▸ found,
      reads_content_recordOf blob path⟩
  · rw [map_key_changes_write, TextSet.mem_toList_iff, Bool.not_eq_true] at untouched
    exact .inr ⟨before, untouched⟩

/-- After a refresh, the catalog has the changed keys with a log and its own unchanged ones. -/
theorem mem_keys_writeChanges_iff (consistent : catalog.Consistent) (key : String) :
    key ∈ (catalog.writeChanges now changes).keys ↔
      if changes.keys.contains key then (changes.blob? key).isSome = true
      else key ∈ catalog.keys := by
  rw [writeChanges_eq]
  refine (mem_keys_foldl_write consistent (lawful_changes_write changes now _)
    (keys_changes_write_nodup changes now) key).trans ?_
  rw [map_key_changes_write, TextSet.mem_toList_iff]
  have written : (∃ record, .upsert record ∈ changes.keys.toList.map (changes.write now) ∧
      record.key = key) ↔ changes.keys.contains key = true ∧ (changes.blob? key).isSome := by
    constructor
    · rintro ⟨record, member, rfl⟩
      obtain ⟨other, listed, same⟩ := List.mem_map.mp member
      have named : record.key = other := by
        rw [← key_changes_write changes now other, same]
        rfl
      obtain ⟨blob, found, -⟩ := changes_write_eq_upsert_iff.mp same
      rw [named, found]
      exact ⟨(TextSet.mem_toList_iff _ _).mp listed, rfl⟩
    · rintro ⟨listed, logged⟩
      obtain ⟨blob, found⟩ := Option.isSome_iff_exists.mp logged
      refine ⟨recordOf now changes.locations blob, List.mem_map.mpr ⟨key, ?_, ?_⟩,
        (mem_of_blob?_eq_some found).2⟩
      · exact (TextSet.mem_toList_iff _ _).mpr listed
      · exact changes_write_eq_upsert_iff.mpr ⟨blob, found, rfl⟩
  rw [written]
  cases changes.keys.contains key <;> simp

end Catalog

end AnnexCatalog
