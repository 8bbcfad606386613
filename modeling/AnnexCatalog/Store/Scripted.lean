import AnnexCatalog.Store.Basic

/-! # Log stores with scripted faults

A store that answers as another one does, except that some of its operations fail and that some of
its answers are longer than they should be.
-/

namespace AnnexCatalog

/-- What a store does differently. -/
structure Script where
  /-- The operations that fail. -/
  failing : List StoreCall := []
  /-- Logs that are listed after those of the store. -/
  extraBlobs : List Blob := []
  /-- Keys that are reported as changed besides those of the store. -/
  extraChanges : TextSet := TextMap.empty

namespace Script

/-- The answer of an operation, unless the script lets it fail. -/
def guard {α : Type} (script : Script) (call : StoreCall) (answer : Except String α) :
    Except String α :=
  if script.failing.contains call then .error ("scripted failure of " ++ call.name) else answer

def apply (script : Script) (store : LogStore) : LogStore where
  currentRevision := script.guard .currentRevision store.currentRevision
  listItems revision := script.guard .listItems
    ((store.listItems revision).map (· ++ script.extraBlobs))
  changedItems old new := script.guard .changedItems
    ((store.changedItems old new).map (TextSet.union · script.extraChanges))
  fetchItems revision keys := script.guard .fetchItems
    ((store.fetchItems revision keys).map
      (· ++ script.extraBlobs.filter fun blob => keys.contains blob.key))
  resolvePaths keys := script.guard .resolvePaths (store.resolvePaths keys)

end Script

end AnnexCatalog
