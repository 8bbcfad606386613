import AnnexCatalog.Proofs.Catalog.Items
import AnnexCatalog.Proofs.Catalog.Steps
import AnnexCatalog.Proofs.Store.Memory
import Mathlib.Data.List.ReduceOption

/-! # What the catalog remembers of locations

Every writing of a row comes with the location that was obtained for its key, if any was. A row
keeps the path of the last location obtained since it was inserted, and its presence is that of the
last writing alone. What has been obtained is told by the answers of the stores (`history`); that
the rows agree with it is kept by every write (`Recalls.write`), and so by every run.
-/

namespace AnnexCatalog

/-- What happens to a row: it is written, with the location obtained for its key, or deleted. -/
inductive RowEvent where
  | written (key : String) (location : Option Location)
  | deleted (key : String)
deriving DecidableEq

namespace RowEvent

def key : RowEvent → String
  | .written key _ => key
  | .deleted key => key

/-- What has been obtained for a key by the writings of its row since it was inserted, after one
more event. -/
def extend (key : String) (obtained : List (Option Location)) : RowEvent → List (Option Location)
  | .written other location => if other = key then obtained ++ [location] else obtained
  | .deleted other => if other = key then [] else obtained

end RowEvent

/-- What has been obtained for a key by each writing of its row since the row was inserted; nothing
where there is no row. -/
def obtained (events : List RowEvent) (key : String) : List (Option Location) :=
  events.foldl (RowEvent.extend key) []

/-- The path in the last location that was obtained for a key, or else the key. -/
def pathOf (key : String) (obtained : List (Option Location)) : String :=
  (obtained.reduceOption.getLast?.map Location.path).getD key

/-- The presence in the location that was obtained last, and none where the last writing obtained no
location. -/
def presenceOf (obtained : List (Option Location)) : Bool :=
  (obtained.getLast?.join.map Location.present).getD false

/-- A content has the path and the presence that have been obtained for its key. -/
structure Content.Agrees (content : Content) (events : List RowEvent) : Prop where
  path : content.path = pathOf content.key (obtained events content.key)
  present : content.present = presenceOf (obtained events content.key)

/-- The event that a write is. -/
def Write.event : Write → RowEvent
  | .upsert record => .written record.key record.location
  | .delete key => .deleted key

namespace Catalog

/-- What is done to a catalog, with the answers of the store at that moment. Between two operations
a store may have changed in any way. -/
inductive Operation where
  | build (now : Nat) (store : LogStore)
  | refresh (now : Nat) (store : LogStore)
  | clear

/-- The catalog after an operation, successful or not. -/
def perform (catalog : Catalog) : Operation → Catalog
  | .build now store => (catalog.build now store).catalog
  | .refresh now store => (catalog.refresh now store).catalog
  | .clear => catalog.clear

/-- A build writes a row for every log that the store lists, with the location that it resolves for
the key, and deletes the rows of other keys. -/
def buildEvents (catalog : Catalog) (store : LogStore) : List RowEvent :=
  match (readAll store).outcome with
  | .error _ => []
  | .ok (_, blobs, locations) =>
      blobs.map (fun blob => .written blob.key (locations.get? blob.key)) ++
        (catalog.keys.filter (· ∉ blobs.map Blob.key)).map .deleted

/-- A refresh writes the row of every changed key that has a log, with the location that the store
resolves for the key, and deletes the rows of the other changed keys. -/
def refreshEvents (store : LogStore) (since : String) : List RowEvent :=
  match (readChanges store since).outcome with
  | .ok (some changes) =>
      changes.keys.toList.map fun key =>
        if key ∈ changes.blobs.map Blob.key then .written key (changes.locations.get? key)
        else .deleted key
  | _ => []

/-- What an operation does to the rows. -/
def events (catalog : Catalog) : Operation → List RowEvent
  | .build _ store => catalog.buildEvents store
  | .refresh _ store =>
      match catalog.state with
      | none => catalog.buildEvents store
      | some state => refreshEvents store state.revision
  | .clear => catalog.keys.map .deleted

/-- What a run of operations does to the rows of a catalog. -/
def history (catalog : Catalog) : List Operation → List RowEvent
  | [] => []
  | operation :: rest => catalog.events operation ++ (catalog.perform operation).history rest

end Catalog

/-! ### What has been obtained -/

section Obtained

variable {events : List RowEvent} {key : String}

/-- What has been obtained after some events is extended by the later ones. -/
theorem obtained_append (events later : List RowEvent) (key : String) :
    obtained (events ++ later) key = later.foldl (RowEvent.extend key) (obtained events key) :=
  List.foldl_append

/-- A write adds what was then known of the location. -/
theorem obtained_append_written (events : List RowEvent) (key : String)
    (location : Option Location) :
    obtained (events ++ [.written key location]) key = obtained events key ++ [location] := by
  rw [obtained_append]
  exact if_pos rfl

/-- Nothing is left of a key that is deleted. -/
theorem obtained_append_deleted (events : List RowEvent) (key : String) :
    obtained (events ++ [.deleted key]) key = [] := by
  rw [obtained_append]
  exact if_pos rfl

/-- Events of other keys do not matter. -/
theorem obtained_append_of_ne {event : RowEvent} (other : event.key ≠ key) :
    obtained (events ++ [event]) key = obtained events key := by
  rw [obtained_append]
  cases event with
  | written _ _ => exact if_neg other
  | deleted _ => exact if_neg other

/-- The last location that was known gives the path, and without one it stays. -/
theorem pathOf_append_singleton (key : String) (known : List (Option Location))
    (location : Option Location) :
    pathOf key (known ++ [location]) = (location.map Location.path).getD (pathOf key known) := by
  unfold pathOf
  rw [List.reduceOption_append]
  cases location with
  | none => rw [List.reduceOption_singleton, Option.toList_none, List.append_nil]; rfl
  | some location =>
      rw [List.reduceOption_singleton, Option.toList_some, List.getLast?_concat]
      rfl

/-- The last write alone gives the presence. -/
theorem presenceOf_append_singleton (known : List (Option Location)) (location : Option Location) :
    presenceOf (known ++ [location]) = (location.map Location.present).getD false := by
  rw [presenceOf, List.getLast?_concat]
  rfl

/-- Content is present exactly if the last write found it. -/
theorem presenceOf_eq_true_iff {known : List (Option Location)} :
    presenceOf known = true ↔
      ∃ location, known.getLast? = some (some location) ∧ location.present = true := by
  unfold presenceOf
  cases known.getLast? with
  | none => simp
  | some last => cases last <;> simp

/-- Writings without a location, and events of other keys, add no location. -/
theorem reduceOption_foldl_extend {later : List RowEvent} (kept : .deleted key ∉ later)
    (lost : ∀ location, .written key (some location) ∉ later) (known : List (Option Location)) :
    (later.foldl (RowEvent.extend key) known).reduceOption = known.reduceOption := by
  induction later generalizing known with
  | nil => rfl
  | cons event rest step =>
      have unlocated : (RowEvent.extend key known event).reduceOption = known.reduceOption := by
        cases event with
        | written other location =>
            by_cases same : other = key
            · subst same
              cases location with
              | none =>
                  rw [RowEvent.extend, if_pos rfl, List.reduceOption_append,
                    List.reduceOption_singleton, Option.toList_none, List.append_nil]
              | some location => exact absurd List.mem_cons_self (lost location)
            · rw [RowEvent.extend, if_neg same]
        | deleted other =>
            have different : other ≠ key := by
              rintro rfl
              exact kept List.mem_cons_self
            rw [RowEvent.extend, if_neg different]
      rw [List.foldl_cons, step (fun member => kept (List.mem_cons_of_mem _ member))
        (fun location member => lost location (List.mem_cons_of_mem _ member)), unlocated]

end Obtained

namespace Catalog

variable {catalog : Catalog} {events : List RowEvent}

/-! ### Operations as writes -/

@[simp] theorem key_event (write : Write) : write.event.key = write.key := by
  cases write <;> rfl

/-- A build writes each log, and then deletes the keys that are in none. -/
theorem map_event_buildWrites (catalog : Catalog) (now : Nat) (locations : TextMap Location)
    (blobs : List Blob) :
    (catalog.buildWrites now locations blobs).map Write.event =
      blobs.map (fun blob => .written blob.key (locations.get? blob.key)) ++
        (catalog.keys.filter (· ∉ blobs.map Blob.key)).map .deleted := by
  have unlogged : (fun key => !(TextSet.ofTexts (blobs.map Blob.key)).contains key) =
      fun key => decide (key ∉ blobs.map Blob.key) := by
    funext key
    rw [Bool.eq_iff_iff, Bool.not_eq_true', Bool.eq_false_iff, ne_eq, TextSet.contains_ofTexts_iff,
      decide_eq_true_eq]
  rw [buildWrites, List.map_append, List.map_map, List.map_map, unlogged]
  rfl

/-- The keys of the logs that were read are those with a log among them. -/
theorem mem_keys_blobs_iff {changes : Changes} {key : String} :
    key ∈ changes.blobs.map Blob.key ↔ (changes.blob? key).isSome = true := by
  simp only [Changes.blob?, List.find?_isSome, List.mem_reverse, beq_iff_eq, List.mem_map]

/-- A refresh writes the changed keys with a log and deletes the others. -/
theorem event_changes_write (changes : Changes) (now : Nat) (key : String) :
    (changes.write now key).event =
      if key ∈ changes.blobs.map Blob.key then .written key (changes.locations.get? key)
      else .deleted key := by
  unfold Changes.write
  simp only [mem_keys_blobs_iff]
  cases found : changes.blob? key with
  | none => rfl
  | some blob =>
      obtain ⟨-, rfl⟩ := mem_of_blob?_eq_some found
      rfl

/-- An operation carries out the writes that its events tell, on a catalog with the same rows. -/
theorem exists_writes (consistent : catalog.Consistent) (operation : Operation) :
    ∃ (start : Catalog) (writes : List Write), start.rows = catalog.rows ∧
      (∀ write ∈ writes, write.Lawful) ∧ writes.map Write.event = catalog.events operation ∧
        (catalog.perform operation).rows = (writes.foldl write start).rows := by
  have build (now : Nat) (store : LogStore) : ∃ (start : Catalog) (writes : List Write),
      start.rows = catalog.rows ∧ (∀ write ∈ writes, write.Lawful) ∧
        writes.map Write.event = catalog.buildEvents store ∧
          (catalog.build now store).catalog.rows = (writes.foldl write start).rows := by
    cases read : (readAll store).outcome with
    | error fault =>
        refine ⟨catalog, [], rfl, nofun, by rw [buildEvents, read]; rfl, ?_⟩
        rw [build_of_refused catalog now read, Run.catalog_idle, List.foldl_nil]
    | ok found =>
        obtain ⟨revision, blobs, locations⟩ := found
        refine ⟨catalog.unindexed, catalog.buildWrites now locations blobs, rfl,
          lawful_buildWrites blobs, ?_, ?_⟩
        · rw [buildEvents, read, map_event_buildWrites]
        · rw [build_of_read catalog now read, Run.catalog_writing, writeAll_eq consistent]
  cases operation with
  | build now store => exact build now store
  | refresh now store =>
      cases found : catalog.state with
      | none =>
          rw [events, found, perform, refresh_of_unbuilt found, Run.catalog_map]
          exact build now store
      | some state =>
          rw [events, found, perform]
          dsimp only
          rcases read : (readChanges store state.revision).outcome with fault | none | changes
          · refine ⟨catalog, [], rfl, nofun, by rw [refreshEvents, read]; rfl, ?_⟩
            rw [refresh_of_refused found now read, Run.catalog_idle, List.foldl_nil]
          · refine ⟨catalog, [], rfl, nofun, by rw [refreshEvents, read]; rfl, ?_⟩
            rw [refresh_of_unmoved found now read, Run.catalog_idle, List.foldl_nil]
          · refine ⟨catalog, changes.keys.toList.map (changes.write now), rfl,
              lawful_changes_write changes now _, ?_, ?_⟩
            · rw [refreshEvents, read, List.map_map]
              exact List.map_congr_left fun key _ => event_changes_write changes now key
            · rw [refresh_of_read found now read, Run.catalog_writing, writeChanges_eq]
  | clear =>
      have lawful : ∀ write ∈ catalog.keys.map Write.delete, write.Lawful := by
        intro write member
        obtain ⟨key, -, rfl⟩ := List.mem_map.mp member
        trivial
      have named : (catalog.keys.map Write.delete).map Write.key = catalog.keys := by
        rw [List.map_map]
        exact List.map_id _
      refine ⟨catalog, catalog.keys.map .delete, rfl, lawful, by rw [List.map_map]; rfl, ?_⟩
      symm
      apply List.eq_nil_iff_forall_not_mem.mpr
      intro row member
      have cached := (mem_keys_foldl_write consistent lawful (named.symm ▸ consistent.keys_nodup)
        row.key).mp (List.mem_map_of_mem member)
      rcases cached with ⟨record, written, -⟩ | ⟨before, untouched⟩
      · obtain ⟨key, -, same⟩ := List.mem_map.mp written
        cases same
      · exact untouched (named.symm ▸ before)

/-! ### The rows agree with what has been obtained -/

/-- A catalog has a row for every key of which the row has been written since it was last deleted,
and the contents of the rows agree with what has been obtained. -/
structure Recalls (catalog : Catalog) (events : List RowEvent) : Prop where
  cached : ∀ key, key ∈ catalog.keys ↔ obtained events key ≠ []
  agrees : ∀ content ∈ catalog.contents, content.Agrees events

theorem Recalls.empty : Catalog.empty.Recalls [] :=
  ⟨fun _ => ⟨nofun, fun some => absurd rfl some⟩, nofun⟩

/-- What is remembered does not depend on the text index and the state of the last build. -/
theorem Recalls.of_rows {other : Catalog} (recalls : catalog.Recalls events)
    (same : other.rows = catalog.rows) : other.Recalls events := by
  refine ⟨fun key => ?_, fun content member => ?_⟩
  · rw [keys, same]
    exact recalls.cached key
  · obtain ⟨dossier, listed, rfl⟩ := List.mem_map.mp member
    obtain ⟨row, inside, rfl⟩ := List.mem_map.mp listed
    have before : (catalog.dossier row).content.Agrees events :=
      recalls.agrees _ (List.mem_map_of_mem (List.mem_map_of_mem (same ▸ inside)))
    exact ⟨before.path, before.present⟩

/-- A record is written with its own location, and over the path that was known before. -/
theorem agrees_content_upsert (record : Record) {fallback : String}
    (known : fallback = pathOf record.key (obtained events record.key)) :
    (record.content fallback).Agrees (events ++ [(Write.upsert record).event]) := by
  have last : obtained (events ++ [(Write.upsert record).event]) record.key =
      obtained events record.key ++ [record.location] := obtained_append_written _ _ _
  constructor
  · change (record.location.map Location.path).getD fallback =
      pathOf record.key (obtained _ record.key)
    rw [last, pathOf_append_singleton, known]
  · change (record.location.map Location.present).getD false = presenceOf (obtained _ record.key)
    rw [last, presenceOf_append_singleton]

/-- After a write, the content of every row is what the events left of it, the new one among them.
-/
theorem Recalls.write_content {write : Write} (consistent : catalog.Consistent)
    (lawful : write.Lawful) (recalls : catalog.Recalls events) {content : Content}
    (member : content ∈ (catalog.write write).contents) :
    content.Agrees (events ++ [write.event]) := by
  rw [contents_write consistent lawful] at member
  rcases List.mem_append.mp member with old | new
  · obtain ⟨before, inside, revised⟩ := List.mem_filterMap.mp old
    have agrees := recalls.agrees before inside
    unfold Write.revise at revised
    split at revised
    · next named =>
        obtain ⟨record, rfl, rfl⟩ := eq_upsert_of_result_eq_some revised
        have same : before.key = record.key := named
        exact agrees_content_upsert record (same ▸ agrees.path)
    · next other =>
        cases revised
        have untouched : obtained (events ++ [write.event]) content.key =
            obtained events content.key :=
          obtained_append_of_ne (by rw [key_event]; exact Ne.symm other)
        exact ⟨untouched.symm ▸ agrees.path, untouched.symm ▸ agrees.present⟩
  · have added := Option.mem_toList.mp new
    unfold Write.added at added
    split at added
    · cases added
    · next fresh =>
        -- Nothing has been obtained for a new row, so its path falls back on the key.
        obtain ⟨record, rfl, rfl⟩ := eq_upsert_of_result_eq_some added
        have unknown : obtained events record.key = [] :=
          Classical.byContradiction fun some => fresh ((recalls.cached record.key).mpr some)
        exact agrees_content_upsert record (by rw [unknown]; rfl)

/-- A write keeps the agreement. -/
theorem Recalls.write {write : Write} (consistent : catalog.Consistent) (lawful : write.Lawful)
    (recalls : catalog.Recalls events) :
    (catalog.write write).Recalls (events ++ [write.event]) := by
  refine ⟨fun key => ?_, fun content member => recalls.write_content consistent lawful member⟩
  rw [mem_keys_write consistent lawful]
  by_cases other : write.event.key = key
  · cases write with
    | upsert record =>
        cases other
        change _ ↔ obtained (_ ++ [.written record.key record.location]) record.key ≠ []
        rw [obtained_append_written]
        simp [Write.key]
    | delete deleted =>
        cases other
        change _ ↔ obtained (_ ++ [.deleted deleted]) deleted ≠ []
        rw [obtained_append_deleted]
        simp [Write.key]
  · rw [obtained_append_of_ne other, ← recalls.cached key]
    rw [key_event] at other
    constructor
    · rintro (⟨record, rfl, named⟩ | ⟨cached, -⟩)
      · exact absurd named other
      · exact cached
    · exact fun cached => .inr ⟨cached, Ne.symm other⟩

/-- Several writes are recalled one after another. -/
theorem Recalls.foldl_write {writes : List Write} (consistent : catalog.Consistent)
    (lawful : ∀ write ∈ writes, write.Lawful) (recalls : catalog.Recalls events) :
    (writes.foldl Catalog.write catalog).Recalls (events ++ writes.map Write.event) := by
  induction writes generalizing catalog events with
  | nil => exact (List.append_nil events).symm ▸ recalls
  | cons write rest step =>
      have head := lawful write List.mem_cons_self
      rw [List.map_cons, List.append_cons]
      exact step (consistent.write head) (fun other member => lawful other
        (List.mem_cons_of_mem _ member)) (recalls.write consistent head)

/-- An operation on the catalog is recalled. -/
theorem Recalls.perform (consistent : catalog.Consistent) (recalls : catalog.Recalls events)
    (operation : Operation) :
    (catalog.perform operation).Recalls (events ++ catalog.events operation) := by
  obtain ⟨start, writes, rows, lawful, told, written⟩ := exists_writes consistent operation
  have carried := (recalls.of_rows rows).foldl_write (consistent.of_rows rows) lawful
  rw [← told]
  exact carried.of_rows written

/-- An operation leads to a catalog that can be reached. -/
theorem Reachable.perform (reached : catalog.Reachable) (operation : Operation) :
    (catalog.perform operation).Reachable := by
  cases operation with
  | build now store => exact reached.build now store
  | refresh now store => exact reached.refresh now store
  | clear => exact reached.clear

/-- Several operations lead to a catalog that can be reached. -/
theorem Reachable.foldl_perform (reached : catalog.Reachable) (operations : List Operation) :
    (operations.foldl Catalog.perform catalog).Reachable := by
  induction operations generalizing catalog with
  | nil => exact reached
  | cons operation rest step => exact step (reached.perform operation)

/-- Several operations are recalled one after another. -/
theorem Recalls.foldl_perform (reached : catalog.Reachable) (recalls : catalog.Recalls events)
    (operations : List Operation) :
    (operations.foldl Catalog.perform catalog).Recalls (events ++ catalog.history operations) := by
  induction operations generalizing catalog events with
  | nil => exact (List.append_nil events).symm ▸ recalls
  | cons operation rest step =>
      rw [history, ← List.append_assoc]
      exact step (reached.perform operation) (recalls.perform reached.sound.consistent operation)

/-! ### Every run -/

/-- The items of a run have the paths and the presences that have been obtained. -/
theorem Recalls.item (consistent : catalog.Consistent) (recalls : catalog.Recalls events)
    {item : Item} (member : item ∈ catalog.items) :
    item.path = pathOf item.key (obtained events item.key) ∧
      item.present = presenceOf (obtained events item.key) := by
  rw [items_eq_map consistent] at member
  obtain ⟨row, listed, rfl⟩ := List.mem_map.mp member
  have agrees : (catalog.dossier row).content.Agrees events :=
    recalls.agrees _ (List.mem_map_of_mem (List.mem_map_of_mem listed))
  exact ⟨agrees.path, agrees.present⟩

/-- **An item has the last path known for it, and the presence of its last writing.** After any run
of builds, refreshes and clearings, against stores that answer anything, a key is in the catalog if
its row has been written since it was last deleted. Its path is that of the last location obtained
since then, or the key if none was obtained, and it is present if its last writing obtained a
location that is present. So an operation that neither deletes the row nor obtains a location for it
keeps the path. -/
theorem items_have_last_known_paths (operations : List Operation) :
    let catalog := operations.foldl perform .empty
    let obtained := obtained (empty.history operations)
    (∀ key, key ∈ catalog.keys ↔ obtained key ≠ []) ∧
      (∀ item ∈ catalog.items,
        item.path = pathOf item.key (obtained item.key) ∧
          (item.present = true ↔
            ∃ location, (obtained item.key).getLast? = some (some location) ∧
              location.present = true)) ∧
      ∀ operation, ∀ earlier ∈ catalog.items, ∀ later ∈ (catalog.perform operation).items,
        later.key = earlier.key → .deleted earlier.key ∉ catalog.events operation →
          (∀ location, .written earlier.key (some location) ∉ catalog.events operation) →
            later.path = earlier.path := by
  intro catalog known
  have reached : catalog.Reachable := Reachable.empty.foldl_perform operations
  have consistent := reached.sound.consistent
  have recalls : catalog.Recalls (empty.history operations) :=
    Recalls.empty.foldl_perform .empty operations
  refine ⟨recalls.cached, fun item member => ?_, ?_⟩
  · obtain ⟨path, present⟩ := recalls.item consistent member
    exact ⟨path, present ▸ presenceOf_eq_true_iff⟩
  · intro operation earlier before later after same kept lost
    have next := recalls.perform consistent operation
    rw [(next.item (reached.perform operation).sound.consistent after).1,
      (recalls.item consistent before).1, same, obtained_append, pathOf, pathOf,
      reduceOption_foldl_extend kept lost]

/-- Two items are put and taken over; one moves, without a change of its log. The other leaves the
working tree and is edited, and keeps its path. It is removed, and put again without a location. -/
theorem items_have_last_known_paths_of_readded :
    let put := (MemoryStore.new.put "a" "1s title +One" ⟨"a.mp3", true⟩).put "b"
      "1s title +Two" ⟨"b.mp3", true⟩
    let edited := ((put.setLocation "b" ⟨"moved.mp3", false⟩).forgetLocation "a").append "a"
      "2s title +Uno"
    let removed := edited.remove "a"
    let readded := removed.append "a" "3s title +Eins"
    let built : List Operation := [.build 1 put.answers]
    let lost := built ++ [.refresh 2 edited.answers]
    let again := lost ++ [.refresh 3 removed.answers, .refresh 4 readded.answers]
    let run (operations : List Operation) := operations.foldl perform .empty
    let shown (operations : List Operation) :=
      (run operations).items.map fun item => (item.key, item.path, item.present)
    shown lost = [("a", "a.mp3", false), ("b", "b.mp3", true)] ∧
      shown again = [("b", "b.mp3", true), ("a", "a", false)] ∧
      obtained (empty.history lost) "a" = [some ⟨"a.mp3", true⟩, none] ∧
      obtained (empty.history again) "a" = [none] ∧
      (∀ item ∈ (run again).items,
        item.path = pathOf item.key (obtained (empty.history again) item.key)) ∧
      ∀ earlier ∈ (run built).items, ∀ later ∈ (run lost).items, earlier.key = "a" →
        later.key = earlier.key → later.path = earlier.path := by
  intro put edited removed readded built lost again run shown
  refine ⟨by decide +kernel, by decide +kernel, by decide +kernel, by decide +kernel, ?_, ?_⟩
  · exact fun item member => ((items_have_last_known_paths again).2.1 item member).1
  · intro earlier before later after named same
    obtain ⟨-, -, kept⟩ := items_have_last_known_paths built
    have events : (run built).events (.refresh 2 edited.answers) = [.written "a" none] := by
      decide +kernel
    have next : run lost = (run built).perform (.refresh 2 edited.answers) := List.foldl_append
    rw [next] at after
    refine kept _ earlier before later after same ?_ fun location => ?_
    · exact fun deleted => absurd (events ▸ deleted) nofun
    · intro written
      rw [events, named] at written
      cases List.mem_singleton.mp written

end Catalog

end AnnexCatalog
