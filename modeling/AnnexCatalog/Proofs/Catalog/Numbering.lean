import AnnexCatalog.Proofs.Catalog.Frame
import AnnexCatalog.Proofs.Catalog.History
import Mathlib.Data.List.Induction

/-! # Numbers and the order of insertion

A row that is inserted goes last and gets a number above those in use, and a row that is written
again keeps its place and its number. So the items of any run stand in the order in which their rows
were inserted (`insertionOrder`), whatever has been deleted in between, and with them whatever a
search finds (`items_are_numbered_in_order`).
-/

namespace AnnexCatalog

namespace RowEvent

/-- The keys with rows after one more event, the row that was inserted last at the end. -/
def place (keys : List String) : RowEvent → List String
  | .written key _ => if key ∈ keys then keys else keys ++ [key]
  | .deleted key => keys.filter (· != key)

/-- The key of a row that is written. -/
def writtenKey? : RowEvent → Option String
  | .written key _ => some key
  | .deleted _ => none

end RowEvent

/-- The keys with rows, in the order in which their rows were inserted. -/
def insertionOrder (events : List RowEvent) : List String :=
  events.foldl RowEvent.place []

/-- The keys whose rows are written, in the order in which they are written first. -/
def writtenKeys (events : List RowEvent) : List String :=
  (events.filterMap RowEvent.writtenKey?).eraseDups

theorem eraseDups_eq_self {keys : List String} (distinct : keys.Nodup) : keys.eraseDups = keys := by
  induction keys with
  | nil => rfl
  | cons key rest step =>
      obtain ⟨absent, tail⟩ := List.nodup_cons.mp distinct
      have others : rest.filter (fun other => !other == key) = rest := by
        apply List.filter_eq_self.mpr
        intro other member
        have different : other ≠ key := fun same => absent (same ▸ member)
        simp [different]
      rw [List.eraseDups_cons, others, step tail]

/-! ### Keys under events -/

section Events

variable {events : List RowEvent} {key : String}

/-- The written keys are those of the events that write. -/
theorem mem_writtenKeys_iff :
    key ∈ writtenKeys events ↔ ∃ location, .written key location ∈ events := by
  rw [writtenKeys, List.mem_eraseDups, List.mem_filterMap]
  constructor
  · intro written
    obtain ⟨event, member, named⟩ := written
    cases event with
    | written other location =>
        cases named
        exact ⟨location, member⟩
    | deleted other => cases named
  · intro written
    obtain ⟨location, member⟩ := written
    exact ⟨_, member, rfl⟩

theorem writtenKeys_append_written (events : List RowEvent) (key : String)
    (location : Option Location) :
    writtenKeys (events ++ [.written key location]) =
      writtenKeys events ++ if key ∈ writtenKeys events then [] else [key] := by
  have last : [RowEvent.written key location].filterMap RowEvent.writtenKey? = [key] := rfl
  have new (taken : List String) : ([key].removeAll taken).eraseDups =
      if key ∈ taken then [] else [key] := by
    by_cases written : key ∈ taken <;> simp [List.removeAll, List.eraseDups_cons, written]
  rw [writtenKeys, List.filterMap_append, last, List.eraseDups_append, new]
  simp only [writtenKeys, List.mem_eraseDups]

theorem writtenKeys_append_deleted (events : List RowEvent) (key : String) :
    writtenKeys (events ++ [.deleted key]) = writtenKeys events := by
  have last : [RowEvent.deleted key].filterMap RowEvent.writtenKey? = [] := rfl
  rw [writtenKeys, List.filterMap_append, last, List.append_nil, writtenKeys]

/-- Events that delete no row which they write keep the rows that they do not delete, and put the new
ones behind them in the order in which they are written first. -/
theorem foldl_place (settled : ∀ key location, .written key location ∈ events →
      .deleted key ∉ events) (keys : List String) :
    events.foldl RowEvent.place keys =
      keys.filter (fun key => .deleted key ∉ events) ++
        (writtenKeys events).filter (· ∉ keys) := by
  induction events using List.reverseRecOn with
  | nil => simp [writtenKeys]
  | append_singleton events event step =>
      have earlier : ∀ key location, .written key location ∈ events → .deleted key ∉ events :=
        fun key location written deleted =>
          settled key location (List.mem_append_left _ written) (List.mem_append_left _ deleted)
      rw [List.foldl_concat, step earlier]
      cases event with
      | written key location =>
          have kept : .deleted key ∉ events := fun deleted =>
            settled key location (List.mem_append_right _ List.mem_cons_self)
              (List.mem_append_left _ deleted)
          have present : key ∈ keys.filter (fun key => .deleted key ∉ events) ++
              (writtenKeys events).filter (· ∉ keys) ↔
                key ∈ keys ∨ key ∈ writtenKeys events := by
            by_cases cached : key ∈ keys <;> simp [cached, kept]
          have spared : (fun other => decide (RowEvent.deleted other ∉
              events ++ [.written key location])) = fun other => decide (.deleted other ∉ events) := by
            funext other
            simp
          rw [RowEvent.place, writtenKeys_append_written, List.filter_append, spared]
          by_cases cached : key ∈ keys
          · rw [if_pos (present.mpr (.inl cached))]
            split <;> simp [cached]
          · by_cases written : key ∈ writtenKeys events
            · rw [if_pos (present.mpr (.inr written)), if_pos written]
              simp
            · rw [if_neg (mt present.mp (not_or.mpr ⟨cached, written⟩)), if_neg written]
              simp [cached]
      | deleted key =>
          have unwritten : key ∉ writtenKeys events := by
            intro written
            obtain ⟨location, member⟩ := mem_writtenKeys_iff.mp written
            exact settled key location (List.mem_append_left _ member)
              (List.mem_append_right _ List.mem_cons_self)
          rw [RowEvent.place, writtenKeys_append_deleted, List.filter_append, List.filter_filter,
            List.filter_filter]
          congr 1
          · apply List.filter_congr
            intro other _
            by_cases same : other = key <;> simp [same]
          · apply List.filter_congr
            intro other member
            have different : other ≠ key := fun same => unwritten (same ▸ member)
            simp [different]

end Events

namespace Catalog

variable {catalog : Catalog}

/-- What an operation does to the numbers: an item that stays keeps its own, and those that are new
are numbered behind all that stay, in the order in which they are written first. -/
structure NumbersBy (catalog : Catalog) (operation : Operation) : Prop where
  kept : ∀ earlier ∈ catalog.items, ∀ later ∈ (catalog.perform operation).items,
    later.key = earlier.key → later.id = earlier.id
  behind : ∀ old ∈ (catalog.perform operation).items, old.key ∈ catalog.keys →
    ∀ new ∈ (catalog.perform operation).items, new.key ∉ catalog.keys → old.id < new.id
  ordered : (catalog.perform operation).keys =
    catalog.keys.filter (· ∈ (catalog.perform operation).keys) ++
      (writtenKeys (catalog.events operation)).filter (· ∉ catalog.keys)

/-! ### Keys under operations -/

/-- The keys of the rows are placed by the events of the writes, one after another. -/
theorem keys_foldl_write {writes : List Write} (consistent : catalog.Consistent)
    (lawful : ∀ write ∈ writes, write.Lawful) :
    (writes.foldl write catalog).keys = (writes.map Write.event).foldl RowEvent.place catalog.keys := by
  induction writes generalizing catalog with
  | nil => rfl
  | cons write rest step =>
      have head := lawful write List.mem_cons_self
      have placed : (catalog.write write).keys = RowEvent.place catalog.keys write.event := by
        cases write with
        | upsert record =>
            rw [Catalog.write, keys_upsert consistent head, Write.event, RowEvent.place]
            split
            · exact List.append_nil _
            · rfl
        | delete key => exact keys_delete consistent key
      rw [List.foldl_cons, List.map_cons, List.foldl_cons, ← placed]
      exact step (consistent.write head) fun other member =>
        lawful other (List.mem_cons_of_mem _ member)

/-- The keys after an operation are told by its events. -/
theorem keys_perform (consistent : catalog.Consistent) (operation : Operation) :
    (catalog.perform operation).keys =
      (catalog.events operation).foldl RowEvent.place catalog.keys := by
  obtain ⟨start, writes, rows, lawful, told, written⟩ := exists_writes consistent operation
  have same : start.keys = catalog.keys := congrArg (List.map Row.key) rows
  rw [keys, written, ← keys, keys_foldl_write (consistent.of_rows rows) lawful, told, same]

/-- The items of a run stand in the order in which their rows were inserted. -/
theorem keys_foldl_perform (reached : catalog.Reachable) (operations : List Operation) :
    (operations.foldl perform catalog).keys =
      (catalog.history operations).foldl RowEvent.place catalog.keys := by
  induction operations generalizing catalog with
  | nil => rfl
  | cons operation rest step =>
      rw [List.foldl_cons, step (reached.perform operation), history, List.foldl_append,
        keys_perform reached.sound.consistent]

/-- No operation deletes a row that it writes. -/
theorem deleted_notMem_events {operation : Operation} {key : String} {location : Option Location}
    (written : .written key location ∈ catalog.events operation) :
    .deleted key ∉ catalog.events operation := by
  have build (store : LogStore) (written : .written key location ∈ catalog.buildEvents store) :
      .deleted key ∉ catalog.buildEvents store := by
    rw [buildEvents] at written ⊢
    split at written
    · cases written
    · next revision blobs locations read =>
        have logged : key ∈ blobs.map Blob.key := by
          rcases List.mem_append.mp written with taken | other
          · obtain ⟨blob, listed, same⟩ := List.mem_map.mp taken
            cases same
            exact List.mem_map_of_mem listed
          · obtain ⟨_, -, same⟩ := List.mem_map.mp other
            cases same
        intro deleted
        rcases List.mem_append.mp deleted with taken | other
        · obtain ⟨_, -, same⟩ := List.mem_map.mp taken
          cases same
        · obtain ⟨_, member, same⟩ := List.mem_map.mp other
          cases same
          exact of_decide_eq_true (List.mem_filter.mp member).2 logged
  have refresh (store : LogStore) (since : String)
      (written : .written key location ∈ refreshEvents store since) :
      .deleted key ∉ refreshEvents store since := by
    rw [refreshEvents] at written ⊢
    split at written
    · next changes read =>
        -- The event of a key is a matter of the key alone.
        obtain ⟨other, -, same⟩ := List.mem_map.mp written
        split at same
        · next logged =>
            cases same
            intro deleted
            obtain ⟨third, -, same⟩ := List.mem_map.mp deleted
            split at same
            · cases same
            · next unlogged =>
                cases same
                exact unlogged logged
        · cases same
    · cases written
  cases operation with
  | build now store => exact build store written
  | refresh now store =>
      rw [events] at written ⊢
      cases found : catalog.state with
      | none =>
          rw [found] at written
          exact build store written
      | some state =>
          rw [found] at written
          exact refresh store state.revision written
  | clear =>
      obtain ⟨_, -, same⟩ := List.mem_map.mp written
      cases same

/-- A build writes keys in the order in which the store lists them. -/
theorem writtenKeys_build {now : Nat} {store : LogStore} {revision : String} {blobs : List Blob}
    {locations : TextMap Location}
    (read : (readAll store).outcome = .ok (revision, blobs, locations)) :
    writtenKeys (catalog.events (.build now store)) = (blobs.map Blob.key).eraseDups := by
  have taken : (blobs.map fun blob => RowEvent.written blob.key (locations.get? blob.key)).filterMap
      RowEvent.writtenKey? = blobs.map Blob.key := by
    rw [List.filterMap_map, ← List.filterMap_eq_map]
    rfl
  have left (keys : List String) :
      (keys.map RowEvent.deleted).filterMap RowEvent.writtenKey? = [] := by
    rw [List.filterMap_map, List.filterMap_eq_nil_iff]
    exact fun _ _ => rfl
  rw [events, buildEvents, read, writtenKeys, List.filterMap_append, taken, left, List.append_nil]

/-- A refresh writes keys in ascending order. -/
theorem writtenKeys_refresh_ascending {state : BuildState} (built : catalog.state = some state)
    (now : Nat) (store : LogStore) :
    (writtenKeys (catalog.events (.refresh now store))).Pairwise (· < ·) := by
  rw [events, built, writtenKeys]
  dsimp only
  rw [refreshEvents]
  split
  · next changes read =>
      have logged : (changes.keys.toList.map fun key =>
          if key ∈ changes.blobs.map Blob.key then RowEvent.written key (changes.locations.get? key)
          else .deleted key).filterMap RowEvent.writtenKey? =
            changes.keys.toList.filter (· ∈ changes.blobs.map Blob.key) := by
        rw [List.filterMap_map, ← List.filterMap_eq_filter]
        apply List.filterMap_congr
        intro key _
        by_cases member : key ∈ changes.blobs.map Blob.key
        · rw [Function.comp_apply, if_pos member, Option.guard, if_pos (decide_eq_true member)]
          rfl
        · rw [Function.comp_apply, if_neg member, Option.guard, if_neg (by simpa using member)]
          rfl
      have distinct : changes.keys.toList.Nodup := changes.keys.keys_nodup
      rw [logged, eraseDups_eq_self (distinct.filter _)]
      exact changes.keys.keys_ascending.filter _
  · exact .nil

/-! ### Numbers under operations -/

/-- The keys of the items are those of the catalog, in order. -/
theorem map_key_items (consistent : catalog.Consistent) :
    catalog.items.map Item.key = catalog.keys := by
  rw [items_eq_map consistent, List.map_map]
  rfl

/-- The ids of the items are those of the rows, in order. -/
theorem map_id_items (consistent : catalog.Consistent) :
    catalog.items.map Item.id = catalog.rows.map Row.id := by
  rw [items_eq_map consistent, List.map_map]
  rfl

/-- What a search finds is in the order of the items. -/
theorem sublist_of_search? (sound : catalog.Sound) {query : Query} {limit : Option Nat}
    {found : List Item} (searched : catalog.search? query limit = some found) :
    found.Sublist catalog.items := by
  cases limit with
  | none =>
      rw [search?_none_eq_some sound searched]
      exact List.filter_sublist
  | some limit =>
      rw [search?_some_eq_some sound searched]
      exact (List.take_sublist _ _).trans List.filter_sublist

/-- An item that is not deleted keeps its number under an operation. -/
theorem exists_row_perform (consistent : catalog.Consistent) {operation : Operation} {row : Row}
    (member : row ∈ catalog.rows) (kept : .deleted row.key ∉ catalog.events operation) :
    ∃ other ∈ (catalog.perform operation).rows, other.key = row.key ∧ other.id = row.id := by
  obtain ⟨start, writes, rows, lawful, told, written⟩ := exists_writes consistent operation
  rw [written]
  apply exists_row_foldl_write (consistent.of_rows rows) lawful (rows ▸ member)
  intro deleted
  exact kept (told ▸ List.mem_map_of_mem (f := Write.event) deleted)

/-- Rows whose keys stand in a later part of the keys have larger numbers. -/
theorem Consistent.id_lt_of_keys (consistent : catalog.Consistent) {before after : List String}
    (split : catalog.keys = before ++ after) {first second : Row} (early : first ∈ catalog.rows)
    (named : first.key ∉ after) (late : second ∈ catalog.rows) (other : second.key ∉ before) :
    first.id < second.id := by
  obtain ⟨front, back, rows, fronts, backs⟩ := List.map_eq_append_iff.mp split
  have ascending := consistent.ids_ascending
  rw [rows] at early late ascending
  rw [List.map_append] at ascending
  have inFront : first ∈ front := by
    rcases List.mem_append.mp early with here | there
    · exact here
    · exact absurd (backs ▸ List.mem_map_of_mem there) named
  have inBack : second ∈ back := by
    rcases List.mem_append.mp late with there | here
    · exact absurd (fronts ▸ List.mem_map_of_mem there) other
    · exact here
  exact (List.pairwise_append.mp ascending).2.2 _ (List.mem_map_of_mem inFront) _
    (List.mem_map_of_mem inBack)

/-- An operation keeps the numbers of the items that stay, and numbers new items behind them. -/
theorem numbersBy (reached : catalog.Reachable) (operation : Operation) :
    catalog.NumbersBy operation := by
  have consistent := reached.sound.consistent
  have later := (reached.perform operation).sound.consistent
  have placed := keys_perform consistent operation
  rw [foldl_place fun key location => deleted_notMem_events] at placed
  have stays : ∀ key ∈ catalog.keys, key ∈ (catalog.perform operation).keys ↔
      .deleted key ∉ catalog.events operation := by
    intro key cached
    rw [placed]
    simp [cached]
  have ordered : (catalog.perform operation).keys =
      catalog.keys.filter (· ∈ (catalog.perform operation).keys) ++
        (writtenKeys (catalog.events operation)).filter (· ∉ catalog.keys) := by
    have same : catalog.keys.filter (· ∈ (catalog.perform operation).keys) =
        catalog.keys.filter fun key => .deleted key ∉ catalog.events operation :=
      List.filter_congr fun key cached => decide_eq_decide.mpr (stays key cached)
    rw [same]
    exact placed
  refine ⟨?_, ?_, ordered⟩
  · intro earlier before other after same
    rw [items_eq_map consistent] at before
    rw [items_eq_map later] at after
    obtain ⟨row, listed, rfl⟩ := List.mem_map.mp before
    obtain ⟨next, found, rfl⟩ := List.mem_map.mp after
    have named : next.key = row.key := same
    have remains : row.key ∈ (catalog.perform operation).keys :=
      named ▸ List.mem_map_of_mem found
    obtain ⟨third, among, thirdNamed, numbered⟩ := exists_row_perform consistent listed
      ((stays row.key (List.mem_map_of_mem listed)).mp remains)
    have identical : next = third := later.eq_of_key found among (named.trans thirdNamed.symm)
    exact (congrArg Row.id identical).trans numbered
  · intro old before cached new after uncached
    rw [items_eq_map later] at before after
    obtain ⟨oldRow, oldListed, rfl⟩ := List.mem_map.mp before
    obtain ⟨newRow, newListed, rfl⟩ := List.mem_map.mp after
    refine later.id_lt_of_keys ordered oldListed ?_ newListed ?_
    · intro fresh
      exact of_decide_eq_true (List.mem_filter.mp fresh).2 cached
    · intro stayed
      exact uncached (List.mem_filter.mp stayed).1

/-! ### Every run -/

/-- **Items are numbered in the order of insertion.** After any run of builds, refreshes and
clearings, against stores that answer anything, the keys of the items are distinct, their numbers are
positive and ascend with the items, and the items stand in the order in which their rows were
inserted, as does whatever a search finds. One more operation keeps the numbers of the items that
stay. The items that are new get larger ones, in the order in which their keys are written: that of
the listing in a build, and that of the keys in a refresh. -/
theorem items_are_numbered_in_order (operations : List Operation) :
    let catalog := operations.foldl perform .empty
    let inserted := insertionOrder (empty.history operations)
    (catalog.items.map Item.key).Nodup ∧ (∀ item ∈ catalog.items, 0 < item.id) ∧
      (catalog.items.map Item.id).Pairwise (· < ·) ∧ catalog.items.map Item.key = inserted ∧
      (∀ query limit found, catalog.search? query limit = some found →
        (found.map Item.id).Pairwise (· < ·) ∧ (found.map Item.key).Sublist inserted) ∧
      (∀ operation, catalog.NumbersBy operation) ∧
      (∀ now store revision blobs locations,
        (readAll store).outcome = .ok (revision, blobs, locations) →
          writtenKeys (catalog.events (.build now store)) = (blobs.map Blob.key).eraseDups) ∧
      ∀ now store, catalog.state ≠ none →
        (writtenKeys (catalog.events (.refresh now store))).Pairwise (· < ·) := by
  intro catalog inserted
  have reached : catalog.Reachable := Reachable.empty.foldl_perform operations
  have consistent := reached.sound.consistent
  have ascending : (catalog.items.map Item.id).Pairwise (· < ·) := by
    rw [map_id_items consistent]
    exact consistent.ids_ascending
  have keys : catalog.items.map Item.key = inserted := by
    rw [map_key_items consistent]
    exact keys_foldl_perform .empty operations
  refine ⟨?_, ?_, ascending, keys, ?_, numbersBy reached, ?_, ?_⟩
  · rw [map_key_items consistent]
    exact consistent.keys_nodup
  · intro item member
    rw [items_eq_map consistent] at member
    obtain ⟨row, listed, rfl⟩ := List.mem_map.mp member
    exact consistent.ids_positive row listed
  · intro query limit found searched
    have part := sublist_of_search? reached.sound searched
    exact ⟨ascending.sublist (part.map Item.id), keys ▸ part.map Item.key⟩
  · intro now store revision blobs locations read
    exact writtenKeys_build read
  · intro now store built
    obtain ⟨state, found⟩ := Option.ne_none_iff_exists'.mp built
    exact writtenKeys_refresh_ascending found now store

/-- The store lists one key twice. The item with the largest number goes while two others come, one
before it in the order of keys and one behind it. -/
theorem items_are_numbered_in_order_of_freed_number :
    let put := (MemoryStore.new.put "c" "1s title +C" ⟨"c.mp3", true⟩).put "d" "1s title +D"
      ⟨"d.mp3", true⟩
    let moved := ((put.remove "d").put "e" "2s title +E" ⟨"e.mp3", true⟩).put "b" "2s title +B"
      ⟨"b.mp3", true⟩
    let listing : LogStore :=
      { put.answers with listItems := fun revision =>
          (put.answers.listItems revision).map fun blobs => blobs ++ [⟨"c", "2s title +C2"⟩] }
    let built : List Operation := [.build 1 listing]
    let refreshed := built ++ [.refresh 2 moved.answers]
    let run (operations : List Operation) := operations.foldl perform .empty
    let shown (operations : List Operation) :=
      (run operations).items.map fun item => (item.key, item.id)
    shown built = [("c", 1), ("d", 2)] ∧ shown refreshed = [("c", 1), ("b", 3), ("e", 4)] ∧
      (run built).NumbersBy (.refresh 2 moved.answers) ∧
      (run refreshed).items.map Item.key = insertionOrder (empty.history refreshed) ∧
      ∃ found, (run refreshed).search? ⟨[[.text "e" false], [.text "b" false]]⟩ none = some found ∧
        found.map Item.key = ["b", "e"] ∧ (found.map Item.id).Pairwise (· < ·) := by
  intro put moved listing built refreshed run shown
  obtain ⟨-, -, -, -, -, numbered, -⟩ := items_are_numbered_in_order built
  obtain ⟨-, -, -, inserted, searched, -⟩ := items_are_numbered_in_order refreshed
  have both : ∃ found, (run refreshed).search? ⟨[[.text "e" false], [.text "b" false]]⟩ none =
      some found ∧ found.map Item.key = ["b", "e"] := by decide +kernel
  obtain ⟨found, answered, keys⟩ := both
  exact ⟨by decide +kernel, by decide +kernel, numbered _, inserted, found, answered, keys,
    (searched _ _ found answered).1⟩

end Catalog

end AnnexCatalog
