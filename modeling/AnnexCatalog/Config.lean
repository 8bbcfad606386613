import AnnexCatalog.Failure
import AnnexCatalog.Text.Utf8
import AnnexCatalog.Toml.Document
import AnnexCatalog.Toml.Write

/-! # Settings

The settings of the program in three sections, with a value of their own where the file says
nothing. They are read from a TOML document, in which unknown names are passed over, and are written
as one.
-/

namespace AnnexCatalog

structure Config where
  logLevel : String := "info"
  /-- The number of results to print; zero for all. -/
  maxResults : Nat := 1000
  /-- Any path inside the repository. -/
  repository : String := "."
  /-- The branch with the metadata logs. -/
  branch : String := "git-annex"
  /-- The end of the paths of metadata logs on that branch. -/
  logSuffix : String := ".log.met"
  /-- The cache file, if it is not to lie beside the repository's metadata. -/
  cachePath : Option String := none
deriving DecidableEq, Repr

namespace Config

/-- The settings of a file that does not exist. -/
def standard : Config := {}

/-- The values that a section gives to settings, in their order. A section is a table; values in an
array stand for the settings in their order. -/
def settings? (names : List String) : Toml.Value → Option (List (Option Toml.Value))
  | .table _ entries => some (names.map fun name => entries.lookup name)
  | .array elements => some ((List.range names.length).map fun index => elements[index]?)
  | .tables elements =>
      some ((List.range names.length).map fun index => (elements[index]?).map (.table .header))
  | .moment => some (names.map fun _ => none)
  | _ => none

def textOf? : Toml.Value → Option String
  | .text value => some value
  | _ => none

/-- The natural number that a setting is given. -/
def countOf? : Toml.Value → Option Nat
  | .integer value => if 0 ≤ value then some value.toNat else none
  | _ => none

/-- A setting, or its standard where it is not given. -/
def given {α : Type} (read : Toml.Value → Option α) (standard : α) :
    Option Toml.Value → Option α
  | none => some standard
  | some value => read value

/-- The values that an optional section gives to settings. -/
def section? (names : List String) : Option Toml.Value → Option (List (Option Toml.Value))
  | none => some (names.map fun _ => none)
  | some value => settings? names value

/-- The settings that a document gives, if all that it gives have the right kind. -/
def ofDocument? (entries : Toml.Entries) : Option Config := do
  let general ← section? ["log_level", "max_results"] (entries.lookup "general")
  let store ← section? ["repository", "branch", "log_suffix"] (entries.lookup "store")
  let cache ← section? ["path"] (entries.lookup "cache")
  return {
    logLevel := ← given textOf? standard.logLevel (general[0]?.join)
    maxResults := ← given countOf? standard.maxResults (general[1]?.join)
    repository := ← given textOf? standard.repository (store[0]?.join)
    branch := ← given textOf? standard.branch (store[1]?.join)
    logSuffix := ← given textOf? standard.logSuffix (store[2]?.join)
    cachePath := ← given (fun value => (textOf? value).map some) none (cache[0]?.join) }

/-- What is wrong with settings of the right kinds. -/
def problem? (config : Config) : Option String :=
  if (Text.trim config.branch.toList).isEmpty then some "store.branch must not be empty"
  else if config.logSuffix.isEmpty then some "store.log_suffix must not be empty"
  else none

/-- The settings that the text of a file gives. -/
def parse (text : List Char) : Except Failure Config :=
  match (Toml.read text).bind ofDocument? with
  | none => .error (.config "Failed to parse config")
  | some config =>
      match config.problem? with
      | some problem => .error (.config problem)
      | none => .ok config

/-- The settings that a file gives, or the standard where there is no file. -/
def load : (file : Option (List UInt8)) → Except Failure Config
  | none => .ok standard
  | some bytes =>
      match Text.Utf8.decode bytes with
      | .error _ => .error .io
      | .ok text => parse text

/-- The written form of settings. -/
def write (config : Config) : List Char :=
  Toml.writeHeader "general" ++
    Toml.writeEntry "log_level" (Toml.writeText config.logLevel.toList) ++
    Toml.writeEntry "max_results" (toString config.maxResults).toList ++
    '\n' :: Toml.writeHeader "store" ++
    Toml.writeEntry "repository" (Toml.writeText config.repository.toList) ++
    Toml.writeEntry "branch" (Toml.writeText config.branch.toList) ++
    Toml.writeEntry "log_suffix" (Toml.writeText config.logSuffix.toList) ++
    '\n' :: Toml.writeHeader "cache" ++
    match config.cachePath with
    | some path => Toml.writeEntry "path" (Toml.writeText path.toList)
    | none => []

/-- The text that is saved. A document holds no integer of more than 63 bits. -/
def save (config : Config) : Except Failure (List Char) :=
  if config.maxResults < Nat.pow 2 63 then .ok config.write
  else .error (.config "Failed to serialize config: out-of-range value for u64 type")

/-- A path inside a folder; the nameless folder is the current one. -/
def joinPath (folder name : String) : String :=
  if folder.isEmpty then name
  else if folder.toList.getLast? = some '/' then folder ++ name
  else folder ++ "/" ++ name

/-- The file of the cache, where the metadata of the repository lies in a given folder. -/
def cacheFile (config : Config) (metadataFolder : String) : String :=
  config.cachePath.getD (joinPath metadataFolder "metacache.sqlite")

/-- The place of the settings of a user: in the folder for settings if that is an absolute path, and
else in the usual one under the home folder. -/
def defaultPath (home : String) (settingsFolder : Option String) : String :=
  let folder := match settingsFolder with
    | some folder => if folder.toList.head? = some '/' then folder else joinPath home ".config"
    | none => joinPath home ".config"
  joinPath (joinPath folder "metacache") "metacache.toml"

end Config

end AnnexCatalog
