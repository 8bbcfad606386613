import AnnexCatalog.Cache.File
import AnnexCatalog.Disk.Basic

/-! # Caches on a disk

What a path means as the place of a cache. An empty file is a database in which nothing has been
written. A cache may have two side files, which belong to it and are deleted with it.
-/

namespace AnnexCatalog.Disk

/-- What is found at the place of a cache. Folders that are missing on the way will be made. -/
def look (disk : Disk) (path : String) : CacheFile :=
  let place := settle (names path)
  let barred := (above place).any fun folder =>
    match disk.files.get? folder with
    | some (.plain _) | some (.database _ _) => true
    | _ => false
  match disk.stored? place with
  | some .folder => .folder
  | some (.plain []) => .database 0 .fresh
  | some (.plain _) | some (.link _) => .foreign
  | some (.database version contents) => .database version contents
  | none => if barred then .unreachable else .missing

def putCache (disk : Disk) (path : String) : CacheFile → Disk
  | .database version contents => disk.put path (.database version contents)
  | _ => disk

def cachePaths (path : String) : List String :=
  [path, path ++ "-wal", path ++ "-shm"]

/-- Delete the given files; the flag tells whether one was there. A folder cannot be deleted. -/
def removeAll (disk : Disk) (removed : Bool) : List String → Disk × Except Failure Bool
  | [] => (disk, .ok removed)
  | path :: rest =>
      match disk.look path with
      | .missing | .unreachable => removeAll disk removed rest
      | .folder => (disk, .error .io)
      | .foreign | .database _ _ => removeAll (disk.erase path) true rest

/-- Delete a cache and its side files; the flag tells whether there was anything. -/
def removeCache (disk : Disk) (path : String) : Disk × Except Failure Bool :=
  removeAll disk false (cachePaths path)

end AnnexCatalog.Disk
