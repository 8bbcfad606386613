import AnnexCatalog.Catalog.Basic
import AnnexCatalog.Store.Reading

/-! # Building and refreshing the catalog

A build takes over all logs of the current revision of a store; a refresh takes over those that have
changed since the last build. Both read everything they need before they write anything, so a store
that fails leaves the catalog as it was.
-/

namespace AnnexCatalog

/-- What is reported while a catalog is written. -/
inductive Progress where
  | step (done total : Nat)
  | complete (total : Nat)
deriving DecidableEq, Repr

structure BuildSummary where
  revision : String
  itemCount : Nat
  warnings : Nat
deriving DecidableEq, Repr

structure RefreshSummary where
  previous : Option String
  revision : String
  changed : Nat
  updated : Nat
  removed : Nat
  warnings : Nat
deriving DecidableEq, Repr

/-- What others can see of a run: its calls to the store, its reports, and the catalog that it
leaves, which takes the place of the one before all at once. -/
inductive RunEvent where
  | called (call : StoreCall)
  | reported (progress : Progress)
  | committed (catalog : Catalog)

namespace RunEvent

def call? : RunEvent → Option StoreCall
  | called call => some call
  | _ => none

def report? : RunEvent → Option Progress
  | reported progress => some progress
  | _ => none

end RunEvent

/-- A run against a store: what happened, in order, the catalog afterwards and the outcome. -/
structure Run (α : Type) where
  catalog : Catalog
  events : List RunEvent
  outcome : Except StoreFault α

namespace Run

variable {α : Type}

/-- A run that made calls and wrote nothing. -/
def idle (catalog : Catalog) (calls : List StoreCall) (outcome : Except StoreFault α) :
    Run α where
  catalog := catalog
  events := calls.map .called
  outcome := outcome

/-- A run that made calls and wrote a catalog: it reported on the way, then committed the catalog,
and then reported that `total` keys are complete. -/
def writing (catalog : Catalog) (calls : List StoreCall) (reports : List Progress) (total : Nat)
    (result : α) : Run α where
  catalog := catalog
  events := calls.map .called ++ reports.map .reported ++
    [.committed catalog, .reported (.complete total)]
  outcome := .ok result

/-- The same run with another account of its result. -/
def map {β : Type} (tell : α → β) (run : Run α) : Run β where
  catalog := run.catalog
  events := run.events
  outcome := run.outcome.map tell

def calls (run : Run α) : List StoreCall := run.events.filterMap RunEvent.call?

def progress (run : Run α) : List Progress := run.events.filterMap RunEvent.report?

end Run

namespace Catalog

/-- The reports on the way through a list, of which `done` entries are behind: one after every
thousand. -/
def milestones {α : Type} (total done : Nat) : List α → List Progress
  | [] => []
  | _ :: rest =>
      let reached := done + 1
      if reached % 1000 = 0 then .step reached total :: milestones total reached rest
      else milestones total reached rest

/-- What is written for a log. -/
def recordOf (now : Nat) (locations : TextMap Location) (blob : Blob) : Record where
  key := blob.key
  location := locations.get? blob.key
  metadata := (Digest.ofLog blob.content).metadata
  writtenAt := now

/-- The number of warnings that logs give rise to. -/
def warningsOf : List Blob → Nat
  | [] => 0
  | blob :: rest => (Digest.ofLog blob.content).warnings + warningsOf rest

/-- What a build reads: the current revision, its logs and their locations. -/
def readAll (store : LogStore) : Reading (String × List Blob × TextMap Location) := do
  let revision ← .ask .currentRevision store.currentRevision
  let blobs ← .ask .listItems (store.listItems revision)
  let locations ← .ask .resolvePaths (store.resolvePaths (TextSet.ofTexts (blobs.map Blob.key)))
  return (revision, blobs, locations)

/-- The catalog after all logs of a revision have been taken over. The items are written in the
order of the logs; items without a log are deleted. -/
def writeAll (now : Nat) (revision : String) (blobs : List Blob) (locations : TextMap Location)
    (catalog : Catalog) : Catalog :=
  let keys := TextSet.ofTexts (blobs.map Blob.key)
  let written := (blobs.map (recordOf now locations)).foldl upsert { catalog with index := [] }
  let kept := (written.keys.filter fun key => !keys.contains key).foldl delete written
  { kept with state := some ⟨revision, now, keys.toList.length⟩ }

/-- Build the catalog from the current revision of a store. -/
def build (now : Nat) (store : LogStore) (catalog : Catalog) : Run BuildSummary :=
  let reading := readAll store
  match reading.outcome with
  | .error fault => .idle catalog reading.calls (.error fault)
  | .ok (revision, blobs, locations) =>
      let count := (TextSet.ofTexts (blobs.map Blob.key)).toList.length
      .writing (writeAll now revision blobs locations catalog) reading.calls
        (milestones blobs.length 0 blobs) count ⟨revision, count, warningsOf blobs⟩

/-- What has changed in a store: the new revision, the keys, and the logs and locations they have
now. -/
structure Changes where
  revision : String
  keys : TextSet
  blobs : List Blob
  locations : TextMap Location

/-- The log to be written for a key: the last of several. -/
def Changes.blob? (changes : Changes) (key : String) : Option Blob :=
  changes.blobs.reverse.find? (·.key == key)

/-- The logs to be written, in the order of their keys. -/
def Changes.updates (changes : Changes) : List Blob :=
  changes.keys.toList.filterMap changes.blob?

def Changes.removals (changes : Changes) (catalog : Catalog) : List String :=
  changes.keys.toList.filter fun key =>
    (changes.blob? key).isNone && (catalog.row? key).isSome

/-- What a refresh reads; nothing where the store is still at the revision of the last build, and no
logs where no key has changed. -/
def readChanges (store : LogStore) (since : String) : Reading (Option Changes) := do
  let revision ← .ask .currentRevision store.currentRevision
  if revision = since then return none
  else
    let keys ← .ask .changedItems (store.changedItems since revision)
    if keys.isEmpty then return some ⟨revision, keys, [], TextMap.empty⟩
    else
      let blobs ← .ask .fetchItems (store.fetchItems revision keys)
      let locations ← .ask .resolvePaths (store.resolvePaths keys)
      return some ⟨revision, keys, blobs, locations⟩

/-- The catalog after one changed key has been taken over. -/
def writeKey (now : Nat) (changes : Changes) (catalog : Catalog) (key : String) : Catalog :=
  match changes.blob? key with
  | some blob => catalog.upsert (recordOf now changes.locations blob)
  | none => catalog.delete key

/-- The catalog after changes have been taken over, in the order of their keys. -/
def writeChanges (now : Nat) (changes : Changes) (catalog : Catalog) : Catalog :=
  let written := changes.keys.toList.foldl (writeKey now changes) catalog
  { written with state := some ⟨changes.revision, now, written.size⟩ }

/-- What a refresh that had to build everything reports. -/
def RefreshSummary.ofBuild (summary : BuildSummary) : RefreshSummary where
  previous := none
  revision := summary.revision
  changed := summary.itemCount
  updated := summary.itemCount
  removed := 0
  warnings := summary.warnings

/-- Bring the catalog to the current revision of a store. The outcome is `none` where it is there
already; a catalog that was never built is built. -/
def refresh (now : Nat) (store : LogStore) (catalog : Catalog) : Run (Option RefreshSummary) :=
  match catalog.state with
  | none => (catalog.build now store).map fun summary => some (RefreshSummary.ofBuild summary)
  | some state =>
      let reading := readChanges store state.revision
      match reading.outcome with
      | .error fault => .idle catalog reading.calls (.error fault)
      | .ok none => .idle catalog reading.calls (.ok none)
      | .ok (some changes) =>
          let keys := changes.keys.toList
          let updated := changes.updates.length
          let removed := (changes.removals catalog).length
          .writing (catalog.writeChanges now changes) reading.calls
            (milestones keys.length 0 keys) (updated + removed)
            (some {
              previous := some state.revision
              revision := changes.revision
              changed := keys.length
              updated
              removed
              warnings := warningsOf changes.updates })

end Catalog

end AnnexCatalog
