import AnnexCatalog.Proofs.Catalog.Attachment
import AnnexCatalog.Proofs.Catalog.Frame
import AnnexCatalog.Proofs.Catalog.Takeover
import AnnexCatalog.Store.Scripted
import Mathlib.Data.List.Dedup

/-! # Keys that are listed again

A store may list several logs for one key. A build writes them one after another, and a refresh
takes the last one only. Each write makes of the key one dossier, with nothing from the one before
it but the number and the path (`dossiersOf_upsert`), and all logs of a key are written with the same
location. So both leave of a key what its last log makes of it (`repeats_settle_on_last`).
-/

namespace AnnexCatalog.Catalog

variable {catalog : Catalog} {now : Nat} {store : LogStore} {record : Record} {key : String}

/-- The log that a refresh takes for a key is the last one that it was given. -/
theorem blob?_of_last {changes : Changes} {earlier later : List Blob} {blob : Blob}
    (split : changes.blobs = earlier ++ blob :: later) (last : blob.key ∉ later.map Blob.key) :
    changes.blob? blob.key = some blob := by
  have none : later.reverse.find? (·.key == blob.key) = none := by
    refine List.find?_eq_none.mpr fun other member named => last ?_
    exact List.mem_map.mpr ⟨other, List.mem_reverse.mp member, beq_iff_eq.mp named⟩
  rw [Changes.blob?, split, List.reverse_append, List.reverse_cons, List.append_assoc,
    List.find?_append, none]
  simp

theorem length_ofTexts (texts : List String) :
    (TextSet.ofTexts texts).toList.length = texts.dedup.length := by
  refine List.Perm.length_eq ((List.perm_ext_iff_of_nodup (TextMap.keys_nodup _)
    (List.nodup_dedup _)).mpr fun text => ?_)
  have contained : text ∈ (TextSet.ofTexts texts).toList ↔ text ∈ texts :=
    (TextSet.mem_toList_iff _ text).trans (TextSet.contains_ofTexts_iff texts text)
  exact contained.trans List.mem_dedup.symm

/-- A log is the last one of its key. -/
def IsLastLog (blobs : List Blob) (blob : Blob) : Prop :=
  ∃ earlier later, blobs = earlier ++ blob :: later ∧ blob.key ∉ later.map Blob.key

/-- The last log of a key stays the last one among those that are kept. -/
theorem IsLastLog.filter {blobs : List Blob} {blob : Blob} (last : IsLastLog blobs blob)
    {keep : Blob → Bool} (kept : keep blob = true) : IsLastLog (blobs.filter keep) blob := by
  obtain ⟨earlier, later, rfl, fresh⟩ := last
  refine ⟨earlier.filter keep, later.filter keep, ?_, fun again => fresh ?_⟩
  · rw [List.filter_append, List.filter_cons_of_pos kept]
  · exact (List.filter_sublist.map Blob.key).subset again

/-- **Repeated keys settle on their last log.** After a build that succeeds, the catalog has one row
for every key that is listed, and counts them; after a refresh that is given the same logs of the
changed keys, it has one row for each of them that is listed, and counts its rows. All that the tables
hold of such a key is what its last log gives, under the location that the store has for the key or
else the path held before, and nothing in the tables belongs to no row. -/
theorem repeats_settle_on_last (consistent : catalog.Consistent) (attached : catalog.Attached)
    {revision : String} {blobs : List Blob} (current : store.currentRevision = .ok revision)
    (listed : store.listItems revision = .ok blobs) (now : Nat) :
    (∀ summary, (catalog.build now store).outcome = .ok summary →
      let after := (catalog.build now store).catalog
      ∃ locations, store.resolvePaths (TextSet.ofTexts (blobs.map Blob.key)) = .ok locations ∧
        (∀ blob, IsLastLog blobs blob → ∃ id, after.dossiersOf blob.key =
          [(recordOf now locations blob).toDossier id (catalog.pathFor blob.key)]) ∧
        after.keys.Nodup ∧ (∀ key, key ∈ after.keys ↔ key ∈ blobs.map Blob.key) ∧
        after.Attached ∧ summary.itemCount = (blobs.map Blob.key).dedup.length ∧
        after.size = summary.itemCount ∧
        after.state = some ⟨revision, now, summary.itemCount⟩) ∧
      ∀ state changed, catalog.state = some state →
        store.changedItems state.revision revision = .ok changed →
        store.fetchItems revision changed =
          .ok (blobs.filter fun blob => changed.contains blob.key) →
        ∀ summary, (catalog.refresh now store).outcome = .ok (some summary) →
          let after := (catalog.refresh now store).catalog
          ∃ locations, (changed.isEmpty = false → store.resolvePaths changed = .ok locations) ∧
            (∀ blob, IsLastLog blobs blob → changed.contains blob.key = true →
              ∃ id, after.dossiersOf blob.key =
                [(recordOf now locations blob).toDossier id (catalog.pathFor blob.key)]) ∧
            after.keys.Nodup ∧ after.Attached ∧ after.state = some ⟨revision, now, after.size⟩ := by
  constructor
  · intro summary succeeded after
    obtain ⟨_, _, locations, read, rfl⟩ := exists_read_of_build succeeded
    obtain ⟨sameRevision, sameBlobs, resolved⟩ := readAll_eq_ok_iff.mp read
    cases Except.ok.inj (current.symm.trans sameRevision)
    cases Except.ok.inj (listed.symm.trans sameBlobs)
    have written : after = catalog.writeAll now revision blobs locations :=
      congrArg Run.catalog (build_of_read catalog now read)
    rw [written]
    refine ⟨locations, resolved, ?_, (consistent.writeAll revision blobs locations).keys_nodup,
      mem_keys_writeAll_iff consistent revision blobs locations,
      attached.writeAll consistent revision blobs locations, length_ofTexts _, ?_, rfl⟩
    · rintro blob ⟨earlier, later, rfl, last⟩
      exact dossiersOf_writeAll consistent revision locations last
    · exact (size_writeAll consistent revision blobs locations).symm
  · intro state changed built differ fetched summary succeeded after
    obtain ⟨changes, read, -⟩ := exists_changes_of_refresh built succeeded
    obtain ⟨sameRevision, -, sameKeys, logs⟩ := readChanges_eq_ok_some_iff.mp read
    cases Except.ok.inj (current.symm.trans sameRevision)
    cases Except.ok.inj (differ.symm.trans sameKeys)
    have written : after = catalog.writeChanges now changes :=
      congrArg Run.catalog (refresh_of_read built now read)
    rw [written]
    refine ⟨changes.locations, fun some => ?_, ?_, (consistent.writeChanges changes).keys_nodup,
      attached.writeChanges consistent changes, rfl⟩
    · rw [some, if_neg Bool.false_ne_true] at logs
      exact logs.2
    · intro blob last contained
      have some : changes.keys.isEmpty = false := by
        refine Bool.eq_false_iff.mpr fun empty => Bool.false_ne_true ?_
        rw [← (TextSet.isEmpty_iff _).mp empty blob.key, contained]
      rw [some, if_neg Bool.false_ne_true] at logs
      have taken : IsLastLog changes.blobs blob :=
        Except.ok.inj (fetched.symm.trans logs.1) ▸ last.filter contained
      obtain ⟨earlier, later, split, fresh⟩ := taken
      exact dossiersOf_writeChanges consistent contained (blob?_of_last split fresh)

/-- A key with three logs at one revision has the title of the last one, whether the catalog is built
anew or refreshed. -/
theorem repeats_settle_on_last_of_three_logs :
    let memory := MemoryStore.new.put "a" "1s title +One genre +Dub" ⟨"a.mp3", true⟩
    let catalog := (Catalog.empty.build 1 memory.answers).catalog
    let script : Script :=
      { extraBlobs := [⟨"b", "1s title +Other"⟩, ⟨"a", "1s bpm +120"⟩, ⟨"a", "1s title +Last"⟩],
        extraChanges := TextSet.ofTexts ["b"] }
    let store := script.apply (memory.put "a" "2s title +Two" ⟨"a.mp3", true⟩).answers
    let blobs : List Blob := [⟨"a", "2s title +Two"⟩, ⟨"b", "1s title +Other"⟩,
      ⟨"a", "1s bpm +120"⟩, ⟨"a", "1s title +Last"⟩]
    let last : Blob := ⟨"a", "1s title +Last"⟩
    let titled : Metadata := ⟨[(.title, .text "Last")], [], []⟩
    catalog.Consistent ∧ catalog.Attached ∧ store.currentRevision = .ok "r2" ∧
      store.listItems "r2" = .ok blobs ∧ IsLastLog blobs last ∧
      (∃ locations id, let dossier := (recordOf 2 locations last).toDossier id (catalog.pathFor "a")
        (catalog.build 2 store).catalog.dossiersOf "a" = [dossier] ∧
          dossier.content.metadata = titled) ∧
      (∃ locations id, let dossier := (recordOf 2 locations last).toDossier id (catalog.pathFor "a")
        (catalog.refresh 2 store).catalog.dossiersOf "a" = [dossier] ∧
          dossier.content.metadata = titled) ∧
      (catalog.build 2 store).catalog.size = 2 ∧ (catalog.refresh 2 store).catalog.size = 2 := by
  intro memory catalog script store blobs last titled
  have reached : catalog.Reachable := Reachable.empty.build 1 memory.answers
  have consistent := reached.sound.consistent
  have current : store.currentRevision = .ok "r2" := by decide +kernel
  have listed : store.listItems "r2" = .ok blobs := by decide +kernel
  have latest : IsLastLog blobs last := ⟨blobs.take 3, [], rfl, nofun⟩
  let changed := TextSet.ofTexts ["a", "b"]
  have differ : store.changedItems "r1" "r2" = .ok changed := by decide +kernel
  have fetched : store.fetchItems "r2" changed =
      .ok (blobs.filter fun blob => changed.contains blob.key) := by decide +kernel
  have built : catalog.state = some ⟨"r1", 1, 1⟩ := by decide +kernel
  have builds : (catalog.build 2 store).outcome = .ok ⟨"r2", 2, 0⟩ := by decide +kernel
  have refreshes : (catalog.refresh 2 store).outcome = .ok (some ⟨some "r1", "r2", 2, 2, 0, 0⟩) := by
    decide +kernel
  obtain ⟨builtLast, refreshedLast⟩ :=
    repeats_settle_on_last consistent reached.attached current listed 2
  obtain ⟨locations, -, first, -, -, -, -, size, -⟩ := builtLast _ builds
  obtain ⟨others, -, second, -, -, -⟩ :=
    refreshedLast _ changed built differ fetched _ refreshes
  obtain ⟨id, only⟩ := first last latest
  obtain ⟨number, single⟩ := second last latest (by decide +kernel)
  have title : (Digest.ofLog last.content).metadata = titled := by decide +kernel
  exact ⟨consistent, reached.attached, current, listed, latest, ⟨locations, id, only, title⟩,
    ⟨others, number, single, title⟩, size, by decide +kernel⟩

end AnnexCatalog.Catalog
