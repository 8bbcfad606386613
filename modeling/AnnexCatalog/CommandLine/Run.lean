import AnnexCatalog.CommandLine.Arguments
import AnnexCatalog.CommandLine.Output
import AnnexCatalog.Config
import AnnexCatalog.Query.Parse
import AnnexCatalog.Workspace

/-! # Commands

What a command does to a workspace and what it prints. A command works on the cache that the
settings name; where they name none it is kept with the repository, which then has to be there.
Building and refreshing need the repository in any case. A query is answered from the cache as it is
if the repository cannot be read.
-/

namespace AnnexCatalog.CommandLine

/-- What a command finds outside the workspace. -/
structure Surroundings where
  /-- The time in milliseconds since the beginning of 1970. -/
  now : Nat
  /-- How long the command will have taken, in microseconds. -/
  elapsed : Nat
  /-- The content of the user's settings, if there are any. -/
  settings : Option (List UInt8)
  /-- What the user types. -/
  input : String

structure Report where
  status : Nat
  /-- The text on standard output. -/
  printed : String
  /-- The text on standard error. -/
  complained : String
  workspace : Workspace

/-- Why a command failed. -/
inductive Trouble where
  | catalog (failure : Failure)
  | git (fault : Git.Fault)

def Trouble.message : Trouble → String
  | .catalog failure => failure.message
  | .git fault => fault.message

def succeeded (workspace : Workspace) (printed : String) : Report :=
  ⟨0, printed, "", workspace⟩

/-- The report of a command that fails, with what it has printed before. -/
def failed (workspace : Workspace) (printed : String) (trouble : Trouble) : Report :=
  ⟨1, printed, lines ["Error: " ++ trouble.message], workspace⟩

/-- The settings of a command: those in a file, and before them those in its arguments. -/
def settingsOf (surroundings : Surroundings) (workspace : Workspace) (invocation : Invocation) :
    Except Failure Config := do
  let config ← match invocation.config with
    | none => Config.load surroundings.settings
    | some path => match workspace.disk.reach? path with
        | none => Config.load none
        | some (.plain content) => Config.load (some content)
        | some _ => .error .io
  return { config with
    repository := invocation.repository.getD config.repository
    cachePath := invocation.cache.or config.cachePath }

/-- The number of results that a query asks for, where zero stands for all. -/
def resultLimit? (config : Config) (limit : Option Nat) : Option Nat :=
  match limit.getD config.maxResults with
  | 0 => none
  | limit => some limit

/-- A command at work: its settings, the place of the cache and the form in which it is shown. -/
structure App where
  surroundings : Surroundings
  config : Config
  cache : String
  cacheShown : String

namespace App

/-- Open the log store that the settings name. -/
def store (app : App) (workspace : Workspace) : Except Git.Fault Git.Source :=
  workspace.openStore app.config.repository app.config.branch app.config.logSuffix

def start (surroundings : Surroundings) (workspace : Workspace) (config : Config) :
    Except Git.Fault App := do
  let folder := Config.joinPath Workspace.repositoryFolder "annex"
  let app : App :=
    { surroundings, config
      cache := config.cacheFile folder
      cacheShown := config.cacheFile (Config.joinPath workspace.root folder) }
  if config.cachePath.isNone then
    let _ ← app.store workspace
  return app

/-- Run an operation on the cache. -/
def withCache {α : Type} (app : App) (workspace : Workspace) (store : Option Git.Source)
    (action : CacheFile.Action α) : Workspace × Except Failure α :=
  let (file, outcome) := (workspace.disk.look app.cache).withCache app.surroundings.now
    (store.map Git.Source.answers) action
  ({ workspace with disk := workspace.disk.putCache app.cache file }, outcome)

def cacheExists (app : App) (workspace : Workspace) : Bool :=
  (workspace.disk.reach? app.cache).isSome

/-- Bring the cache up to date. -/
def refresh (app : App) (workspace : Workspace) : Report :=
  match app.store workspace with
  | .error fault => failed workspace "" (.git fault)
  | .ok source =>
      let (after, outcome) := app.withCache workspace (some source) fun _ contents =>
        let run := contents.refresh app.surroundings.now source.answers
        (run.contents, run.outcome)
      match outcome with
      | .error failure => failed after "" (.catalog failure)
      | .ok none => succeeded after (lines ["Cache is already current."])
      | .ok (some summary) =>
          succeeded after (lines (refreshLines app.surroundings.elapsed summary))

/-- Bring the cache up to date, or build it anew. -/
def build (app : App) (workspace : Workspace) (force : Bool) : Report :=
  if !force then app.refresh workspace
  else match app.store workspace with
    | .error fault => failed workspace "" (.git fault)
    | .ok source =>
        let (after, outcome) := app.withCache workspace (some source) fun _ contents =>
          let run := contents.build app.surroundings.now source.answers
          (run.contents, run.outcome)
        let printed := lines ["Building metadata cache..."]
        match outcome with
        | .error failure => failed after printed (.catalog failure)
        | .ok summary =>
            succeeded after (printed ++ lines (buildLines app.surroundings.elapsed summary))

/-- The number of all items on which a query holds, some of which are shown. They are counted only if
that is wanted and some may have been left out. -/
def total (query : Query) (limit : Option Nat) (counted : Bool) (shown : Nat)
    (contents : Contents) : Except Failure Nat :=
  match limit with
  | none => .ok shown
  | some limit => if counted ∧ limit ≤ shown then contents.count query else .ok shown

/-- The results of a query on open contents, with the number of all items on which it holds;
`none` if the cache was never built. -/
def answer (query : Query) (limit : Option Nat) (counted : Bool) (contents : Contents) :
    Except Failure (Option (List Item × Nat)) := do
  if (← contents.read).state.isNone then return none
  let results ← contents.search query limit
  let total ← total query limit counted results.length contents
  return some (results, total)

/-- Refresh open contents before a query, if there is a store. One that cannot be read leaves them as
they are. -/
def freshen (now : Nat) (source : Option Git.Source) (contents : Contents) :
    Contents × Except Failure Unit :=
  match source with
  | none => (contents, .ok ())
  | some source =>
      let run := contents.refresh now source.answers
      match run.outcome with
      | .error (.store _) | .ok _ => (run.contents, .ok ())
      | .error failure => (run.contents, .error failure)

/-- What a query does with an open cache: it is freshened, if there is a store, and answers. -/
def ask (app : App) (query : Query) (limit : Option Nat) (counted : Bool)
    (source : Option Git.Source) : CacheFile.Action (Option (List Item × Nat)) :=
  fun _ contents =>
    let freshened := freshen app.surroundings.now source contents
    (freshened.1, do
      freshened.2
      answer query limit counted freshened.1)

def search (app : App) (workspace : Workspace) (query : Query) (limit : Option Nat)
    (refresh : Bool) (format : Format) : Report :=
  let source := if refresh then (app.store workspace).toOption else none
  let limit := resultLimit? app.config limit
  let (after, outcome) := app.withCache workspace source
    (app.ask query limit (format = .text) source)
  match outcome with
  | .error failure => failed after "" (.catalog failure)
  | .ok none => ⟨0, "", lines ["Cache is empty. Run 'metacache build' first."], after⟩
  | .ok (some (items, total)) =>
      match format with
      | .text =>
          ⟨0, lines (items.map itemLine),
            lines ["", resultsLine items.length total app.surroundings.elapsed], after⟩
      | .json => succeeded after (lines [(Json.array (items.map itemJson)).write])

/-- The line on how the cache stands to the repository. -/
def stateLine (store : Except Git.Fault Git.Source) (state : BuildState) : String :=
  "  State:         " ++
    match store.bind Git.Source.currentRevision with
    | .ok current =>
        if current = state.revision then "current"
        else "out of date (branch is at " ++ short current ++ "); run 'metacache refresh'"
    | .error fault => "unknown (" ++ fault.message ++ ")"

/-- Show how things stand. -/
def status (app : App) (workspace : Workspace) : Report :=
  let store := app.store workspace
  let repository := match store with
    | .ok source => ["Repository:  " ++ workspace.root, "Branch:      " ++ source.branch]
    | .error fault => ["Repository:  unavailable (" ++ fault.message ++ ")"]
  let head := ["metacache Status", "================", ""] ++ repository ++
    ["Cache file:  " ++ app.cacheShown, ""]
  if !app.cacheExists workspace then
    succeeded workspace (lines (head ++ ["No cache found. Run 'metacache build' to create it."]))
  else
    let (after, outcome) := app.withCache workspace none fun _ contents =>
      (contents, contents.read.map fun catalog =>
        catalog.state.map fun state => (state, catalog.size))
    match outcome with
    | .error failure => failed after (lines head) (.catalog failure)
    | .ok none =>
        succeeded after (lines (head ++ ["Cache has never been built. Run 'metacache build'."]))
    | .ok (some (state, count)) =>
        succeeded after (lines (head ++ ["Summary:", "  Items:         " ++ toString count,
          "  Revision:      " ++ short state.revision,
          "  Last built:    " ++ (Moment.ofMilliseconds state.builtAt).shown,
          stateLine store state]))

def agrees (input : String) : Bool :=
  Text.asciiLower (Text.trim (input.toList.takeWhile (· != '\n'))) = ['y']

/-- Delete the cache, if the user agrees. -/
def clear (app : App) (workspace : Workspace) (confirmed : Bool) : Report :=
  if !app.cacheExists workspace then
    succeeded workspace (lines ["No cache found. Nothing to clear."])
  else
    let question := if confirmed then ""
      else "This will delete " ++ app.cacheShown ++ ". Are you sure? [y/N] "
    if !confirmed ∧ !agrees app.surroundings.input then
      succeeded workspace (question ++ lines ["Cancelled."])
    else
      let (disk, removed) := workspace.disk.removeCache app.cache
      let after := { workspace with disk }
      match removed with
      | .error failure => failed after question (.catalog failure)
      | .ok _ => succeeded after (question ++ lines ["Cache cleared."])

end App

/-- The line under a query text that points to the place of an error. -/
def marker? (text : String) (error : Query.Error) : Option String :=
  (Text.charsBefore? error.position text.toList).map fun column =>
    String.ofList (List.replicate column ' ' ++ ['^'])

def queryTrouble (text : String) (error : Query.Error) : String :=
  let place := match marker? text error with
    | some marker => ["  " ++ text, "  " ++ marker]
    | none => []
  lines (place ++ ["Error: " ++ error.message])

/-- Begin with a command and go on. -/
def started (surroundings : Surroundings) (workspace : Workspace) (config : Config)
    (next : App → Report) : Report :=
  match App.start surroundings workspace config with
  | .ok app => next app
  | .error fault => failed workspace "" (.git fault)

/-- Run a command with its settings. A query is read before anything else is looked at. -/
def runCommand (surroundings : Surroundings) (workspace : Workspace) (config : Config) :
    Command → Report
  | .build force => started surroundings workspace config fun app => app.build workspace force
  | .refresh => started surroundings workspace config fun app => app.refresh workspace
  | .query text limit presentOnly refresh format =>
      match Query.parse text with
      | .error error => ⟨1, "", queryTrouble text error, workspace⟩
      | .ok query =>
          let query := if presentOnly then query.requirePresent else query
          started surroundings workspace config fun app =>
            app.search workspace query limit refresh format
  | .status => started surroundings workspace config fun app => app.status workspace
  | .clear confirmed =>
      started surroundings workspace config fun app => app.clear workspace confirmed

def usage : String :=
  lines ["Usage: metacache [OPTIONS] <COMMAND>", "",
    "Commands: build, refresh, query, status, clear"]

def versionLine : String := "metacache 0.1.0"

def run (surroundings : Surroundings) (workspace : Workspace) (arguments : List String) : Report :=
  match Invocation.parse arguments with
  | .error .usage => ⟨2, "", usage, workspace⟩
  | .error .help => succeeded workspace usage
  | .error .version => succeeded workspace (lines [versionLine])
  | .ok invocation =>
      match settingsOf surroundings workspace invocation with
      | .error failure => failed workspace "" (.catalog failure)
      | .ok config => runCommand surroundings workspace config invocation.command

end AnnexCatalog.CommandLine
