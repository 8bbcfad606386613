import AnnexCatalog.Outcome
import AnnexCatalog.Proofs.Number.Decimal
import AnnexCatalog.Store.Memory
import Mathlib.Data.List.Nodup

/-! # The history of a store in memory

What a store has recorded at a revision stays as it is, whatever is changed later
(`recorded_mutate`). What the store answers about logs is what it has recorded, and it answers as
long as it is switched on and its revisions can be numbered in 64 bits.
-/

namespace AnnexCatalog

/-- The keys that differ between two maps are those with different values. -/
theorem TextMap.contains_differences_iff {α : Type} [BEq α] [LawfulBEq α] (old new : TextMap α)
    (key : String) : (old.differences new).contains key = true ↔ old.get? key ≠ new.get? key := by
  unfold differences
  rw [TextSet.contains_ofTexts_iff, List.mem_filter, List.mem_append, mem_keys_iff, mem_keys_iff,
    bne_iff_ne]
  refine ⟨And.right, fun different => ⟨?_, different⟩⟩
  by_contra neither
  obtain ⟨oldAbsent, newAbsent⟩ := not_or.mp neither
  unfold contains at oldAbsent newAbsent
  rw [Bool.not_eq_true, Option.isSome_eq_false_iff, Option.isNone_iff_eq_none]
    at oldAbsent newAbsent
  exact different (oldAbsent.trans newAbsent.symm)

/-- A set is empty exactly if no text is in it. -/
theorem TextSet.isEmpty_iff (set : TextSet) :
    set.isEmpty = true ↔ ∀ text, TextMap.contains set text = false := by
  unfold isEmpty
  rw [List.isEmpty_iff]
  constructor
  · intro none text
    unfold TextMap.contains TextMap.get?
    rw [none]
    rfl
  · intro absent
    apply List.eq_nil_iff_forall_not_mem.mpr
    rintro ⟨text, value⟩ member
    have found := (TextMap.mem_entries_iff set text value).mp member
    have present := (TextMap.contains_iff set text).mpr ⟨value, found⟩
    rw [absent] at present
    cases present

namespace MemoryStore

/-- A change of a store. -/
inductive Mutation where
  | put (key log : String) (location : Location)
  | append (key entry : String)
  | remove (key : String)
  | setLocation (key : String) (location : Location)
  | forgetLocation (key : String)
  | setAvailable (available : Bool)
deriving DecidableEq

/-- The store after a change. -/
def mutate (store : MemoryStore) : Mutation → MemoryStore
  | .put key log location => store.put key log location
  | .append key entry => store.append key entry
  | .remove key => store.remove key
  | .setLocation key location => store.setLocation key location
  | .forgetLocation key => store.forgetLocation key
  | .setAvailable available => store.setAvailable available

/-- The logs that a store has recorded at a revision, whether it is switched on or not. -/
def recorded (store : MemoryStore) (revision : String) : Option Snapshot :=
  (revisionNumber? revision).bind fun number => (store.earlier ++ [store.current])[number]?

variable {store : MemoryStore} {revision : String} {snapshot : Snapshot}

/-- A snapshot is found if the store is available and has recorded the revision. -/
theorem snapshot_eq_ok_iff :
    store.snapshot revision = .ok snapshot ↔
      store.available = true ∧ store.recorded revision = some snapshot := by
  unfold MemoryStore.snapshot recorded
  cases store.available with
  | false => simp
  | true =>
      cases revisionNumber? revision with
      | none => simp
      | some number =>
          rw [Option.bind_some]
          cases found : (store.earlier ++ [store.current])[number]? <;> simp [found]

/-- A commit leaves the recorded revisions as they are. -/
theorem recorded_commit (found : store.recorded revision = some snapshot) (next : Snapshot) :
    (store.commit next).recorded revision = some snapshot := by
  obtain ⟨number, numbered, recorded⟩ := Option.bind_eq_some_iff.mp found
  refine Option.bind_eq_some_iff.mpr ⟨number, numbered, ?_⟩
  have inside : number < (store.earlier ++ [store.current]).length :=
    (List.getElem?_eq_some_iff.mp recorded).1
  change (store.earlier ++ [store.current] ++ [next])[number]? = _
  rw [List.getElem?_append_left inside, recorded]

/-- What has been recorded stays recorded. -/
theorem recorded_mutate (found : store.recorded revision = some snapshot) (mutation : Mutation) :
    (store.mutate mutation).recorded revision = some snapshot := by
  cases mutation with
  | put key log location =>
      have moved : (store.setLocation key location).recorded revision = some snapshot := found
      exact recorded_commit moved _
  | append key entry => exact recorded_commit found _
  | remove key => exact recorded_commit found _
  | setLocation key location => exact found
  | forgetLocation key => exact found
  | setAvailable available => exact found

/-- A revision is found by its name, as long as its number has 64 bits. -/
theorem revisionNumber?_revisionName (number : Nat) :
    revisionNumber? (revisionName number) = if number < Nat.pow 2 64 then some number else none := by
  unfold revisionNumber? revisionName
  rw [String.toList_append]
  exact parseNat64?_toString number

/-- The current logs are recorded at the current revision, as long as it has a number of 64 bits. -/
theorem recorded_currentName_eq_some_iff :
    store.recorded store.currentName = some snapshot ↔
      store.earlier.length < Nat.pow 2 64 ∧ store.current = snapshot := by
  unfold recorded currentName
  rw [revisionNumber?_revisionName]
  split
  · next numbered =>
      rw [Option.bind_some, List.getElem?_append_right (Nat.le_refl _), Nat.sub_self]
      simp [numbered]
  · next unnumbered =>
      simp [unnumbered]

/-! ### What the store answers -/

/-- The logs of a snapshot are those of its keys. -/
theorem mem_blobs_iff {blob : Blob} :
    blob ∈ blobs snapshot ↔ snapshot.get? blob.key = some blob.content := by
  rw [blobs, List.mem_map, ← TextMap.mem_entries_iff]
  constructor
  · rintro ⟨⟨key, content⟩, member, rfl⟩
    exact member
  · intro member
    exact ⟨_, member, rfl⟩

theorem map_key_blobs (snapshot : Snapshot) : (blobs snapshot).map Blob.key = snapshot.keys := by
  rw [blobs, List.map_map]
  rfl

/-- The current revision is the last one that was recorded. -/
theorem currentRevision_eq_ok_iff :
    store.answers.currentRevision = .ok revision ↔
      store.available = true ∧ store.currentName = revision := by
  change (if store.available then _ else _) = _ ↔ _
  cases store.available <;> simp

/-- The logs of a recorded revision are those of its snapshot. -/
theorem listItems_eq_ok_iff {listed : List Blob} :
    store.answers.listItems revision = .ok listed ↔
      store.available = true ∧
        ∃ snapshot, store.recorded revision = some snapshot ∧ blobs snapshot = listed := by
  change (store.snapshot revision).map blobs = _ ↔ _
  simp only [map_eq_ok_iff, snapshot_eq_ok_iff, and_assoc, exists_and_left]

/-- The changed keys between two recorded revisions are those at which their snapshots differ. -/
theorem changedItems_eq_ok_iff {since : String} {keys : TextSet} :
    store.answers.changedItems since revision = .ok keys ↔
      store.available = true ∧ ∃ old new, store.recorded since = some old ∧
        store.recorded revision = some new ∧ old.differences new = keys := by
  change (store.snapshot since >>= fun old => store.snapshot revision >>= fun new =>
    pure (old.differences new)) = _ ↔ _
  simp only [bind_eq_ok_iff, snapshot_eq_ok_iff]
  constructor
  · rintro ⟨old, ⟨on, before⟩, new, ⟨-, after⟩, same⟩
    exact ⟨on, old, new, before, after, Except.ok.inj same⟩
  · rintro ⟨on, old, new, before, after, rfl⟩
    exact ⟨old, ⟨on, before⟩, new, ⟨on, after⟩, rfl⟩

/-- The logs of some keys are those that the snapshot has for them. -/
theorem fetchItems_eq_ok_iff {keys : TextSet} {fetched : List Blob} :
    store.answers.fetchItems revision keys = .ok fetched ↔
      store.available = true ∧ ∃ snapshot, store.recorded revision = some snapshot ∧
        (blobs snapshot).filter (fun blob => keys.contains blob.key) = fetched := by
  change (store.snapshot revision).map _ = _ ↔ _
  simp only [map_eq_ok_iff, snapshot_eq_ok_iff, and_assoc, exists_and_left]

/-- Keys are located as the store has them. -/
theorem resolvePaths_eq_ok_iff {keys : TextSet} {locations : TextMap Location} :
    store.answers.resolvePaths keys = .ok locations ↔
      store.available = true ∧ store.located keys = locations := by
  change (if store.available then _ else _) = _ ↔ _
  cases store.available <;> simp

/-- A store of which the current logs can be read. -/
def Readable (store : MemoryStore) : Prop :=
  ∃ listed, store.answers.listItems store.currentName = .ok listed

/-- A store that can be read has recorded its current state. -/
theorem Readable.recorded_current (readable : store.Readable) :
    store.available = true ∧ store.recorded store.currentName = some store.current := by
  obtain ⟨listed, answered⟩ := readable
  obtain ⟨on, snapshot, recorded, -⟩ := listItems_eq_ok_iff.mp answered
  have current := (recorded_currentName_eq_some_iff.mp recorded).2
  exact ⟨on, current ▸ recorded⟩

/-- The locations of keys are those that the store knows. -/
theorem get?_located (store : MemoryStore) {keys : TextSet} {key : String}
    (asked : keys.contains key = true) :
    (store.located keys).get? key = store.locations.get? key := by
  have folded (texts : List String) (map : TextMap Location) :
      ((texts.filterMap fun text => (store.locations.get? text).map fun location =>
          (text, location)).foldl (fun map entry => map.insert entry.1 entry.2) map).get? key =
        if key ∈ texts then (store.locations.get? key).or (map.get? key) else map.get? key := by
    induction texts generalizing map with
    | nil => rfl
    | cons text rest step =>
        cases found : store.locations.get? text with
        | none =>
            rw [List.filterMap_cons_none (by rw [found]; rfl), step]
            by_cases same : key = text
            · subst same
              simp [found]
            · simp [same]
        | some location =>
            rw [List.filterMap_cons_some (by rw [found]; rfl), List.foldl_cons, step,
              TextMap.get?_insert]
            by_cases same : key = text
            · subst same
              simp [found]
            · simp [same]
  unfold located TextMap.ofList
  rw [folded, if_pos ((TextSet.mem_toList_iff keys key).mpr asked), TextMap.get?_empty,
    Option.or_none]

end MemoryStore

end AnnexCatalog
