import AnnexCatalog.Query.Error
import AnnexCatalog.Store.Basic

/-! # Failures

The ways in which an operation on the catalog can fail. Two of them mean that the cache file is of
no use any more and has to be made anew.
-/

namespace AnnexCatalog

/-- Why an operation failed. -/
inductive Failure where
  /-- The log store could not be read. -/
  | store (fault : StoreFault)
  /-- The cache file is no database or has unreadable pages. -/
  | corrupt
  /-- The cache file was written with another schema. -/
  | versionMismatch (found expected : Int)
  /-- The database refused for another reason. -/
  | database
  | query (error : Query.Error)
  | config (reason : String)
  /-- A file could not be read or written. -/
  | io
deriving DecidableEq, Repr

namespace Failure

/-- Whether the cache file should be deleted and built anew. -/
def requiresRebuild : Failure → Bool
  | .corrupt | .versionMismatch _ _ => true
  | _ => false

/-- Whether the fault lies in the text of a query. -/
def isQueryError : Failure → Bool
  | .query _ => true
  | _ => false

def message : Failure → String
  | .store fault => fault.message
  | .corrupt => "cache is corrupted"
  | .versionMismatch found expected =>
      "cache schema version mismatch: found " ++ toString found ++ ", expected " ++
        toString expected
  | .database => "cache database error"
  | .query error => error.message
  | .config reason => "configuration error: " ++ reason
  | .io => "I/O error"

end Failure

end AnnexCatalog
