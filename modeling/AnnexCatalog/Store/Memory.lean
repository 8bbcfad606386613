import AnnexCatalog.Number.Decimal
import AnnexCatalog.Store.Basic

/-! # A log store in memory

The store keeps every revision it has been at; a revision is named by an `r` and its number. A
change of a log makes a new revision and leaves the earlier ones as they are. Locations have no
history. A store that is switched off answers nothing.
-/

namespace AnnexCatalog

/-- The logs of all items at one revision. -/
abbrev Snapshot := TextMap String

/-- A store with its earlier revisions, oldest first, and its current one. -/
structure MemoryStore where
  earlier : List Snapshot
  current : Snapshot
  locations : TextMap Location
  available : Bool

namespace MemoryStore

/-- A new store, which is at a revision without logs. -/
def new : MemoryStore := ⟨[], TextMap.empty, TextMap.empty, true⟩

def revisionName (number : Nat) : String := "r" ++ toString number

def currentName (store : MemoryStore) : String :=
  revisionName store.earlier.length

/-- The store after its logs have become those of a new revision. -/
def commit (store : MemoryStore) (snapshot : Snapshot) : MemoryStore :=
  { store with earlier := store.earlier ++ [store.current], current := snapshot }

def setLocation (store : MemoryStore) (key : String) (location : Location) : MemoryStore :=
  { store with locations := store.locations.insert key location }

/-- The store after an item has left the working tree. -/
def forgetLocation (store : MemoryStore) (key : String) : MemoryStore :=
  { store with locations := store.locations.erase key }

def setAvailable (store : MemoryStore) (available : Bool) : MemoryStore :=
  { store with available }

/-- The store after an item has been given a log and a location. -/
def put (store : MemoryStore) (key log : String) (location : Location) : MemoryStore :=
  (store.setLocation key location).commit (store.current.insert key log)

/-- A log with one more entry on a line of its own. -/
def appendEntry (log entry : String) : String :=
  let ended := log.isEmpty || log.toList.getLast? == some '\n'
  (if ended then log else log ++ "\n") ++ entry ++ "\n"

/-- The store after an entry has been added to the log of an item. -/
def append (store : MemoryStore) (key entry : String) : MemoryStore :=
  store.commit
    (store.current.insert key (appendEntry ((store.current.get? key).getD "") entry))

/-- The store after the log of an item has been deleted. -/
def remove (store : MemoryStore) (key : String) : MemoryStore :=
  store.commit (store.current.erase key)

def revisionNumber? (revision : String) : Option Nat :=
  match revision.toList with
  | 'r' :: number => parseNat64? number
  | _ => none

def snapshot (store : MemoryStore) (revision : String) : Except String Snapshot :=
  if !store.available then .error "memory store is offline"
  else match revisionNumber? revision with
    | none => .error ("malformed revision " ++ revision)
    | some number =>
        match (store.earlier ++ [store.current])[number]? with
        | some snapshot => .ok snapshot
        | none => .error ("unknown revision " ++ revision)

/-- The logs of a snapshot, in the order of their keys. -/
def blobs (snapshot : Snapshot) : List Blob :=
  snapshot.entries.map fun (key, content) => ⟨key, content⟩

/-- The locations of the given keys that are known. -/
def located (store : MemoryStore) (keys : TextSet) : TextMap Location :=
  TextMap.ofList (keys.toList.filterMap fun key =>
    (store.locations.get? key).map fun location => (key, location))

def answers (store : MemoryStore) : LogStore where
  currentRevision :=
    if store.available then .ok store.currentName else .error "memory store is offline"
  listItems revision := (store.snapshot revision).map blobs
  changedItems old new := do
    return (← store.snapshot old).differences (← store.snapshot new)
  fetchItems revision keys :=
    (store.snapshot revision).map fun snapshot =>
      (blobs snapshot).filter fun blob => keys.contains blob.key
  resolvePaths keys :=
    if store.available then .ok (store.located keys) else .error "memory store is offline"

end MemoryStore

end AnnexCatalog
