import AnnexCatalog.CommandLine.Run

/-! # The program

The outer layer of the command line: it reads the files that a command looks at, runs the command
and brings its effect on the cache file to the disk. It starts no other program, so a command sees a
workspace in which git cannot be started.
-/

namespace AnnexCatalog.CommandLine

/-- How a database file that some other program has filled begins. -/
def databaseMark : List UInt8 := "SQLite format 3".toUTF8.toList

/-- What lies at a path of the file system. A database with contents and whatever else is there but
cannot be read counts as a folder, so that it is left alone. -/
def storedAt? (path : String) : IO (Option Stored) := do
  try
    let content := (← IO.FS.readBinFile path).toList
    return some (if databaseMark.isPrefixOf content then .folder else .plain content)
  catch error =>
    match error with
    | .noFileOrDirectory _ _ _ => return none
    | _ => return some .folder

/-- A workspace with what lies at a path of the file system. -/
def fetch (workspace : Workspace) (path : String) : IO Workspace := do
  match ← storedAt? path with
  | some stored => return { workspace with disk := workspace.disk.put path stored }
  | none => return workspace

/-- The content of the user's settings. -/
def userSettings : IO (Option (List UInt8)) := do
  let home := (← IO.getEnv "HOME").getD ""
  match ← storedAt? (Config.defaultPath home (← IO.getEnv "XDG_CONFIG_HOME")) with
  | some (.plain content) => return some content
  | _ => return none

/-- Bring what has become of the file at a path to the file system. A database that was made has
nothing in it yet, as an empty file. -/
def settleFile (path : String) (before after : Workspace) : IO Unit := do
  match before.disk.look path, after.disk.look path with
  | .missing, .missing => return
  | _, .missing => IO.FS.removeFile path
  | .missing, .database _ _ | .foreign, .database _ _ =>
      let folder := String.ofList (path.toList.reverse.dropWhile (· != '/')).reverse
      if !folder.isEmpty then IO.FS.createDirAll folder
      IO.FS.writeFile path ""
  | _, _ => return

/-- Whether a command asks the user before it does anything. -/
def asksUser : Command → Bool
  | .clear confirmed => !confirmed
  | _ => false

/-- Run the program on its arguments and give its status. -/
def execute (arguments : List String) : IO UInt32 := do
  let invocation := (Invocation.parse arguments).toOption
  let input ← match invocation with
    | some invocation => if asksUser invocation.command then (← IO.getStdin).getLine else pure ""
    | none => pure ""
  let surroundings : Surroundings := { now := 0, elapsed := 0, settings := ← userSettings, input }
  let bare : Workspace := { gitInstalled := false }
  let settled ← match invocation.bind Invocation.config with
    | some path => fetch bare path
    | none => pure bare
  let place := do (← (settingsOf surroundings settled (← invocation)).toOption).cachePath
  let workspace ← match place with
    | some path => fetch settled path
    | none => pure settled
  let report := run surroundings workspace arguments
  (← IO.getStdout).putStr report.printed
  (← IO.getStderr).putStr report.complained
  if let some path := place then settleFile path workspace report.workspace
  return UInt32.ofNat report.status

end AnnexCatalog.CommandLine

def main (arguments : List String) : IO UInt32 :=
  AnnexCatalog.CommandLine.execute arguments
