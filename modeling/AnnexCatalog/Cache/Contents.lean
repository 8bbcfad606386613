import AnnexCatalog.Catalog.Build
import AnnexCatalog.Failure
import AnnexCatalog.Search.Basic

/-! # The contents of a cache file

An open cache holds a catalog, or its pages turn out to be unreadable when they are read. A build
reads from the store before it touches the pages, a refresh begins with the pages.
-/

namespace AnnexCatalog

/-- What an open cache holds. -/
inductive Contents where
  | sound (catalog : Catalog)
  | damaged

/-- A run against a store with an open cache. -/
structure CacheRun (α : Type) where
  contents : Contents
  events : List RunEvent
  outcome : Except Failure α

namespace CacheRun

variable {α : Type}

def calls (run : CacheRun α) : List StoreCall := run.events.filterMap RunEvent.call?

def progress (run : CacheRun α) : List Progress := run.events.filterMap RunEvent.report?

end CacheRun

namespace Contents

def fresh : Contents := .sound Catalog.empty

def read : Contents → Except Failure Catalog
  | .sound catalog => .ok catalog
  | .damaged => .error .corrupt

def ofRun {α : Type} (run : Run α) : CacheRun α where
  contents := .sound run.catalog
  events := run.events
  outcome := run.outcome.mapError .store

def build (now : Nat) (store : LogStore) : Contents → CacheRun BuildSummary
  | .sound catalog => ofRun (catalog.build now store)
  | .damaged =>
      let reading := Catalog.readAll store
      { contents := .damaged
        events := reading.calls.map .called
        outcome := match reading.outcome with
          | .ok _ => .error .corrupt
          | .error fault => .error (.store fault) }

/-- Bring the cache to the current revision of a store. -/
def refresh (now : Nat) (store : LogStore) : Contents → CacheRun (Option RefreshSummary)
  | .sound catalog => ofRun (catalog.refresh now store)
  | .damaged => ⟨.damaged, [], .error .corrupt⟩

/-- Delete everything in the cache. -/
def clear : Contents → Contents × Except Failure Unit
  | .sound catalog => (.sound catalog.clear, .ok ())
  | .damaged => (.damaged, .error .corrupt)

/-- The items on which a query holds, at most `limit` of them. -/
def search (query : Query) (limit : Option Nat) (contents : Contents) :
    Except Failure (List Item) := do
  match (← contents.read).search? query limit with
  | some items => return items
  | none => throw .database

/-- The number of items on which a query holds. -/
def count (query : Query) (contents : Contents) : Except Failure Nat := do
  match (← contents.read).count? query with
  | some count => return count
  | none => throw .database

end Contents

end AnnexCatalog
