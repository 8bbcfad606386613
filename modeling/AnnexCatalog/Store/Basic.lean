import AnnexCatalog.Collection.TextMap

/-! # Log stores

A log store is a versioned collection of metadata logs, one for every tracked item. The catalog only
reads it, through five operations, and every one of them may fail with a reason. What is known about
the working tree, the place and the presence of an item, is read from the store as well.
-/

namespace AnnexCatalog

/-- The metadata log of one item. -/
structure Blob where
  key : String
  content : String
deriving DecidableEq, Repr

/-- Where an item lives in the working tree, and whether its content is there. -/
structure Location where
  path : String
  present : Bool
deriving DecidableEq, Repr

inductive StoreCall where
  | currentRevision
  | listItems
  | changedItems
  | fetchItems
  | resolvePaths
deriving DecidableEq, Repr

/-- The name under which a failing operation is reported. -/
def StoreCall.name : StoreCall → String
  | .currentRevision => "current_revision"
  | .listItems => "list_items"
  | .changedItems => "changed_items"
  | .fetchItems => "fetch_items"
  | .resolvePaths => "resolve_paths"

/-- A failed operation and its reason. -/
structure StoreFault where
  call : StoreCall
  reason : String
deriving DecidableEq, Repr

def StoreFault.message (fault : StoreFault) : String :=
  "log store unavailable: " ++ fault.call.name ++ " failed: " ++ fault.reason

/-- The answers of a log store at one moment. -/
structure LogStore where
  /-- The revision that the store is at. -/
  currentRevision : Except String String
  /-- The logs of all items at a revision. -/
  listItems : (revision : String) → Except String (List Blob)
  /-- The keys whose logs differ between two revisions. -/
  changedItems : (old new : String) → Except String TextSet
  /-- The logs of the given items at a revision; an item without a log there is left out. -/
  fetchItems : (revision : String) → (keys : TextSet) → Except String (List Blob)
  /-- The current locations of the given items; an item outside the working tree is left out. -/
  resolvePaths : (keys : TextSet) → Except String (TextMap Location)

end AnnexCatalog
