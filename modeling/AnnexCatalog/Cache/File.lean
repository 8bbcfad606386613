import AnnexCatalog.Cache.Contents

/-! # The cache file

What is found at the place of a cache decides whether it can be opened: nothing at all becomes a new
cache, and a database is opened if its schema version is the current one or not set. A file that is
of no use can be deleted and made anew, before an operation or once after it has failed on the file.
-/

namespace AnnexCatalog

/-- What is found at the place of a cache. -/
inductive CacheFile where
  | missing
  /-- A file that is no database. -/
  | foreign
  | folder
  /-- A file stands where a folder on the way should be. -/
  | unreachable
  | database (version : Int) (contents : Contents)

namespace CacheFile

def schemaVersion : Int := 1

def holding (contents : Contents) : CacheFile := .database schemaVersion contents

/-- Open a cache. Its file is then `holding` the contents. -/
def openCache : CacheFile → Except Failure Contents
  | .missing => .ok .fresh
  | .foreign => .error .corrupt
  | .folder => .error .database
  | .unreachable => .error .io
  | .database version contents =>
      if version = 0 ∨ version = schemaVersion then .ok contents
      else .error (.versionMismatch version schemaVersion)

/-- Open a cache, after deleting its file if that is of no use; the flag tells whether it was. -/
def openOrReset (file : CacheFile) : Except Failure (Contents × Bool) :=
  match file.openCache with
  | .ok contents => .ok (contents, false)
  | .error failure => if failure.requiresRebuild then .ok (.fresh, true) else .error failure

/-- An operation on an open cache, which knows how often it has been run before. -/
abbrev Action (α : Type) := (earlier : Nat) → Contents → Contents × Except Failure α

/-- Run an operation against a new cache, which is first built if there is a store. -/
def recover {α : Type} (now : Nat) (store : Option LogStore) (action : Action α) :
    Contents × Except Failure α :=
  match store with
  | none => action 1 .fresh
  | some store =>
      let run := Contents.fresh.build now store
      match run.outcome with
      | .error failure => (run.contents, .error failure)
      | .ok _ => action 1 run.contents

/-- Run an operation against the cache in a file. If the file turns out to be of no use, the
operation is run once more against a new cache. -/
def withCache {α : Type} (now : Nat) (store : Option LogStore) (action : Action α)
    (file : CacheFile) : CacheFile × Except Failure α :=
  match file.openOrReset with
  | .error failure => (file, .error failure)
  | .ok (contents, _) =>
      let (after, outcome) := action 0 contents
      let unusable := match outcome with
        | .error failure => failure.requiresRebuild
        | .ok _ => false
      let (final, result) := if unusable then recover now store action else (after, outcome)
      (holding final, result)

end CacheFile

end AnnexCatalog
