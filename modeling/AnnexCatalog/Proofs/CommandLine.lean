import AnnexCatalog.CommandLine.Run
import AnnexCatalog.Proofs.Cache.Recovery
import AnnexCatalog.Proofs.Workspace

/-! # What commands change

A command works on the cache that its settings name (`App.Works`): it runs an operation on it, which
leaves it, builds it or refreshes it from the repository, or it deletes it. Nothing else in the
workspace is touched (`run_touches_cache`), and a cache that mirrors the repository goes on mirroring
it, whatever is at the place of the cache in the beginning (`runCommand_keeps_mirror`).
-/

namespace AnnexCatalog

/-- What an operation makes of open contents: it leaves them, or builds or refreshes them from a
store, if there is one. -/
inductive Contents.Moves (now : Nat) : Option LogStore → Contents → Contents → Prop where
  | stay (store : Option LogStore) (contents : Contents) : Moves now store contents contents
  | build (store : LogStore) (contents : Contents) :
      Moves now (some store) contents (contents.build now store).contents
  | refresh (store : LogStore) (contents : Contents) :
      Moves now (some store) contents (contents.refresh now store).contents

namespace CommandLine

open Git

/-- What a command may leave of a workspace. -/
inductive App.Works (app : App) (workspace : Workspace) : Workspace → Prop where
  | idle : app.Works workspace workspace
  | cached {α : Type} {source : Option Source} (action : CacheFile.Action α)
      (opened : ∀ found, source = some found → app.store workspace = .ok found)
      (moves : ∀ earlier contents, Contents.Moves app.surroundings.now
        (source.map Source.answers) contents (action earlier contents).1) :
      app.Works workspace (app.withCache workspace source action).1
  | removed :
      app.Works workspace { workspace with disk := (workspace.disk.removeCache app.cache).1 }

namespace App

variable (app : App) (workspace : Workspace)

/-- A refresh works on the cache, if the repository is found. -/
theorem works_refresh : app.Works workspace (app.refresh workspace).workspace := by
  unfold App.refresh
  cases opened : app.store workspace with
  | error fault => exact .idle
  | ok source =>
      have works := @Works.cached app workspace _ (some source)
        (fun _ contents =>
          let run := contents.refresh app.surroundings.now source.answers
          (run.contents, run.outcome))
        (fun found same => Option.some.inj same ▸ opened) fun _ contents => .refresh _ contents
      dsimp only
      split <;> exact works

/-- A build works on the cache, if the repository is found. -/
theorem works_build (force : Bool) : app.Works workspace (app.build workspace force).workspace := by
  unfold App.build
  split
  · exact app.works_refresh workspace
  · cases opened : app.store workspace with
    | error fault => exact .idle
    | ok source =>
        have works := @Works.cached app workspace _ (some source)
          (fun _ contents =>
            let run := contents.build app.surroundings.now source.answers
            (run.contents, run.outcome))
          (fun found same => Option.some.inj same ▸ opened) fun _ contents => .build _ contents
        dsimp only
        split <;> exact works

/-- Contents that are freshened before a query are refreshed, or stay as they are. -/
theorem moves_freshen (now : Nat) (source : Option Source) (contents : Contents) :
    Contents.Moves now (source.map Source.answers) contents (freshen now source contents).1 := by
  unfold freshen
  cases source with
  | none => exact .stay none contents
  | some source =>
      dsimp only
      split <;> exact .refresh _ contents

/-- A query may refresh the cache first. -/
theorem works_search (query : Query) (limit : Option Nat) (refresh : Bool) (format : Format) :
    app.Works workspace (app.search workspace query limit refresh format).workspace := by
  unfold App.search
  have opened (found : Source)
      (same : (if refresh then (app.store workspace).toOption else none) = some found) :
      app.store workspace = .ok found := by
    cases refresh with
    | false => cases same
    | true =>
        cases store : app.store workspace with
        | error fault =>
            rw [store] at same
            cases same
        | ok source =>
            rw [store] at same
            cases same
            rfl
  generalize (if refresh then (app.store workspace).toOption else none) = source at opened
  have works := Works.cached (app.ask query (resultLimit? app.config limit) (format = .text) source)
    opened fun _ contents => moves_freshen app.surroundings.now source contents
  dsimp only
  split
  · exact works
  · exact works
  · split <;> exact works

/-- Showing how things stand leaves the cache as it is. -/
theorem works_status : app.Works workspace (app.status workspace).workspace := by
  unfold App.status
  dsimp only
  split
  · exact .idle
  · have works := @Works.cached app workspace _ none
      (fun _ contents =>
        (contents, contents.read.map fun catalog =>
          catalog.state.map fun state => (state, catalog.size)))
      nofun fun _ contents => .stay _ contents
    split <;> exact works

/-- A cache is deleted if the user agrees. -/
theorem works_clear (confirmed : Bool) :
    app.Works workspace (app.clear workspace confirmed).workspace := by
  unfold App.clear
  split
  · exact .idle
  · dsimp only
    split
    · exact .idle
    · have works : app.Works workspace _ := .removed
      split <;> exact works

end App

/-- The place of the cache. -/
def cachePlace (config : Config) : String :=
  config.cacheFile (Config.joinPath Workspace.repositoryFolder "annex")

/-- A command that begins has its settings and the place of its cache from them. -/
theorem start_eq_ok {surroundings : Surroundings} {workspace : Workspace} {config : Config}
    {app : App} (begun : App.start surroundings workspace config = .ok app) :
    app.surroundings = surroundings ∧ app.config = config ∧ app.cache = cachePlace config := by
  unfold App.start at begun
  dsimp only at begun
  split at begun
  · obtain ⟨_, -, same⟩ := bind_eq_ok_iff.mp begun
    cases same
    exact ⟨rfl, rfl, rfl⟩
  · cases begun
    exact ⟨rfl, rfl, rfl⟩

/-- A command works with its settings, unless it ends before it begins. -/
theorem runCommand_cases (surroundings : Surroundings) (workspace : Workspace) (config : Config)
    (command : Command) :
    let after := (runCommand surroundings workspace config command).workspace
    after = workspace ∨ ∃ app : App, app.surroundings = surroundings ∧ app.config = config ∧
      app.cache = cachePlace config ∧ app.Works workspace after := by
  have begins {next : App → Report} (works : ∀ app : App, app.Works workspace (next app).workspace) :
      let after := (started surroundings workspace config next).workspace
      after = workspace ∨ ∃ app : App, app.surroundings = surroundings ∧ app.config = config ∧
        app.cache = cachePlace config ∧ app.Works workspace after := by
    unfold started
    cases begun : App.start surroundings workspace config with
    | error fault => exact .inl rfl
    | ok app =>
        obtain ⟨surrounded, configured, placed⟩ := start_eq_ok begun
        exact .inr ⟨app, surrounded, configured, placed, works app⟩
  cases command with
  | build force => exact begins fun app => app.works_build workspace force
  | refresh => exact begins fun app => app.works_refresh workspace
  | query text limit presentOnly refresh format =>
      cases parsed : Query.parse text with
      | error error => exact .inl (by simp only [runCommand, parsed])
      | ok query =>
          simp only [runCommand, parsed]
          exact begins fun app => app.works_search workspace _ limit refresh format
  | status => exact begins fun app => app.works_status workspace
  | clear confirmed => exact begins fun app => app.works_clear workspace confirmed

/-! ### Nothing else is touched -/

/-- Two workspaces differ at most in what lies at some places of their disks. -/
structure Agree (places : List String) (before after : Workspace) : Prop where
  root : after.root = before.root
  repository : after.repository = before.repository
  gitInstalled : after.gitInstalled = before.gitInstalled
  files : ∀ place, place ∉ places → after.disk.files.get? place = before.disk.files.get? place

theorem Agree.refl (places : List String) (workspace : Workspace) :
    Agree places workspace workspace :=
  ⟨rfl, rfl, rfl, fun _ _ => rfl⟩

/-- Deleting files touches no other file. -/
theorem get?_removeAll (paths : List String) (disk : Disk) (removed : Bool) {place : String}
    (apart : place ∉ paths.map Disk.plainPath) :
    (disk.removeAll removed paths).1.files.get? place = disk.files.get? place := by
  induction paths generalizing disk removed with
  | nil => rfl
  | cons path rest step =>
      obtain ⟨other, later⟩ := not_or.mp (List.mem_cons.not.mp apart)
      have erased : (disk.erase path).files.get? place = disk.files.get? place := by
        rw [Disk.erase, TextMap.get?_erase, if_neg other]
      unfold Disk.removeAll
      split
      · exact step disk removed later
      · exact step disk removed later
      · rfl
      · exact (step _ true later).trans erased
      · exact (step _ true later).trans erased

/-- What a command does stays at the place of its cache. -/
theorem App.Works.agree {app : App} {workspace after : Workspace}
    (works : app.Works workspace after) :
    Agree ((Disk.cachePaths app.cache).map Disk.plainPath) workspace after := by
  cases works with
  | idle => exact .refl _ _
  | cached action opened moves =>
      refine ⟨rfl, rfl, rfl, fun place apart => ?_⟩
      have other : place ≠ Disk.plainPath app.cache := fun same => apart (same ▸ List.mem_cons_self)
      unfold App.withCache
      dsimp only
      unfold Disk.putCache
      split
      · rw [Disk.put, TextMap.get?_insert, if_neg other]
      · rfl
  | removed => exact ⟨rfl, rfl, rfl, fun place apart => get?_removeAll _ _ _ apart⟩

/-- With given settings, a command touches nothing but the cache that they name. -/
theorem agree_runCommand (surroundings : Surroundings) (workspace : Workspace) (config : Config)
    (command : Command) :
    Agree ((Disk.cachePaths (cachePlace config)).map Disk.plainPath) workspace
      (runCommand surroundings workspace config command).workspace := by
  rcases runCommand_cases surroundings workspace config command with
    same | ⟨app, -, -, placed, works⟩
  · rw [same]
    exact .refl _ _
  · exact placed ▸ works.agree

/-- **A command touches nothing but its cache.** It leaves the repository as it is, and all files but
the cache that its settings name and the side files of that. A command without valid arguments or
settings touches nothing. -/
theorem run_touches_cache (surroundings : Surroundings) (workspace : Workspace)
    (arguments : List String) :
    let after := (CommandLine.run surroundings workspace arguments).workspace
    after = workspace ∨ ∃ invocation config, Invocation.parse arguments = .ok invocation ∧
      settingsOf surroundings workspace invocation = .ok config ∧
      Agree ((Disk.cachePaths (cachePlace config)).map Disk.plainPath) workspace after := by
  unfold CommandLine.run
  cases parsed : Invocation.parse arguments with
  | error request => cases request <;> exact .inl rfl
  | ok invocation =>
      cases configured : settingsOf surroundings workspace invocation with
      | error failure => exact .inl (by simp only [configured]; rfl)
      | ok config =>
          simp only [configured]
          exact .inr ⟨invocation, config, rfl, configured, agree_runCommand _ _ _ _⟩

/-! ### The cache goes on mirroring the repository -/

/-- Open contents follow a repository: a catalog has been built and refreshed beside it, and of
damaged pages nothing is said. -/
def Follow (suffix : String) (repository : Repository) : Contents → Prop
  | .sound catalog => Git.Follows suffix repository catalog
  | .damaged => True

/-- Whatever is found at the place of a cache, the contents of a database follow a repository. -/
def CacheFollows (suffix : String) (repository : Repository) (file : CacheFile) : Prop :=
  ∀ version contents, file = .database version contents → Follow suffix repository contents

variable {suffix : String} {repository : Repository}

/-- An operation keeps the contents beside the repository, if it is that of its store. -/
theorem Follow.moves {now : Nat} {source : Option Source} {contents after : Contents}
    (follow : Follow suffix repository contents)
    (same : ∀ found, source = some found → found.repository = repository ∧ found.suffix = suffix)
    (moves : Contents.Moves now (source.map Source.answers) contents after) :
    Follow suffix repository after := by
  cases source with
  | none =>
      cases moves with
      | stay => exact follow
  | some source =>
      obtain ⟨rfl, rfl⟩ := same source rfl
      cases moves with
      | stay => exact follow
      | build =>
          cases contents with
          | sound catalog => exact Git.Follows.build follow rfl now
          | damaged => trivial
      | refresh =>
          cases contents with
          | sound catalog => exact Git.Follows.refresh follow rfl now
          | damaged => trivial

/-- A cache that can be opened, or that is made anew, follows the repository. -/
theorem CacheFollows.opened {file : CacheFile} {contents : Contents} {reset : Bool}
    (follows : CacheFollows suffix repository file)
    (begun : Git.Follows suffix repository .empty)
    (opened : file.openOrReset = .ok (contents, reset)) : Follow suffix repository contents := by
  rcases CacheFile.openOrReset_cases file with ⟨_, refused, -⟩ | ⟨_, _, found, held, -⟩
  · cases refused.symm.trans opened
  · cases found.symm.trans opened
    cases file with
    | missing =>
        cases held
        exact begun
    | foreign =>
        cases held
        exact begun
    | folder => cases held
    | unreachable => cases held
    | database version contents =>
        obtain rfl := Option.some.inj held
        split
        · exact follows version contents rfl
        · exact begun

/-- An operation that is run on a cache file keeps it beside the repository. -/
theorem CacheFollows.withCache {α : Type} {now : Nat} {source : Option Source} {file : CacheFile}
    (follows : CacheFollows suffix repository file)
    (begun : Git.Follows suffix repository .empty)
    (same : ∀ found, source = some found → found.repository = repository ∧ found.suffix = suffix)
    {action : CacheFile.Action α} (moves : ∀ earlier contents, Contents.Moves now
      (source.map Source.answers) contents (action earlier contents).1) :
    CacheFollows suffix repository
      (file.withCache now (source.map Source.answers) action).1 := by
  have fresh : Follow suffix repository .fresh := begun
  have recovered : Follow suffix repository
      (CacheFile.recover now (source.map Source.answers) action).1 := by
    cases source with
    | none => exact fresh.moves same (moves 1 .fresh)
    | some source =>
        have built : Follow suffix repository
            (Contents.fresh.build now source.answers).contents :=
          fresh.moves same (.build _ _)
        unfold CacheFile.recover
        dsimp only [Option.map_some]
        split
        · exact built
        · exact built.moves same (moves 1 _)
  unfold CacheFile.withCache
  cases opened : file.openOrReset with
  | error failure => exact follows
  | ok found =>
      obtain ⟨contents, reset⟩ := found
      have attempted := (follows.opened begun opened).moves same (moves 0 contents)
      dsimp only
      intro version held holds
      obtain rfl := (CacheFile.database.inj holds).2
      split
      · split
        · exact recovered
        · exact attempted
      · exact attempted

/-- A cache that follows a repository follows it while it grows. -/
theorem CacheFollows.grow {later : Repository} {file : CacheFile}
    (follows : CacheFollows suffix repository file)
    (grown : ∀ catalog, Git.Follows suffix repository catalog → Git.Follows suffix later catalog) :
    CacheFollows suffix later file := by
  intro version contents found
  cases contents with
  | sound catalog => exact grown catalog (follows version _ found)
  | damaged => trivial

/-! ### The place of the cache on the disk -/

/-- A cache that follows a repository does so on a disk with no other databases. -/
theorem CacheFollows.inherit {before after : Disk} {path : String}
    (follows : CacheFollows suffix repository (before.look path))
    (begun : Git.Follows suffix repository .empty) (inherits : Disk.Inherits before after) :
    CacheFollows suffix repository (after.look path) := by
  intro version contents found
  rcases Disk.get?_of_look found with lies | rfl
  · exact follows version contents (Disk.look_of_get? (inherits _ _ _ lies))
  · exact begun

/-- The store that the settings name is that of the repository of the workspace. -/
theorem App.store_eq_ok {app : App} {workspace : Workspace} {source : Source}
    (opened : app.store workspace = .ok source) :
    workspace.repository = some source.repository ∧ source.suffix = app.config.logSuffix := by
  unfold App.store at opened
  obtain ⟨repository, -, -, suffixed⟩ := Workspace.openStore_eq_ok opened
  exact ⟨repository, suffixed⟩

/-- What a command does keeps the cache beside the repository. -/
theorem App.Works.follows {app : App} {workspace after : Workspace}
    (works : app.Works workspace after)
    (held : workspace.repository = some repository)
    (begun : Git.Follows app.config.logSuffix repository .empty)
    (follows : CacheFollows app.config.logSuffix repository (workspace.disk.look app.cache)) :
    CacheFollows app.config.logSuffix repository (after.disk.look app.cache) := by
  cases works with
  | idle => exact follows
  | @cached _ source action opened moves =>
      have same (found : Source) (given : source = some found) :
          found.repository = repository ∧ found.suffix = app.config.logSuffix := by
        obtain ⟨around, suffixed⟩ := App.store_eq_ok (opened found given)
        exact ⟨Option.some.inj (around.symm.trans held), suffixed⟩
      have kept := follows.withCache begun same moves
      unfold App.withCache
      dsimp only
      unfold Disk.putCache
      split
      · next version contents left =>
          have found := workspace.disk.look_putCache app.cache version contents
          rw [Disk.putCache] at found
          rw [found, ← left]
          exact kept
      · exact follows
  | removed => exact follows.inherit begun (Disk.inherits_removeAll _ _ _)

/-- **A cache that mirrors the repository goes on mirroring it.** Whatever a command does to the cache
that its settings name, and whatever it finds there, the catalog in it is one that has been built and
refreshed beside the repository. -/
theorem runCommand_keeps_mirror (surroundings : Surroundings) (config : Config) (command : Command)
    {workspace : Workspace} (held : workspace.repository = some repository)
    (begun : Git.Follows config.logSuffix repository .empty)
    (follows : CacheFollows config.logSuffix repository
      (workspace.disk.look (cachePlace config))) :
    CacheFollows config.logSuffix repository
      ((runCommand surroundings workspace config command).workspace.disk.look
        (cachePlace config)) := by
  rcases runCommand_cases surroundings workspace config command with
    same | ⟨app, -, rfl, placed, works⟩
  · rw [same]
    exact follows
  · rw [← placed] at follows ⊢
    exact works.follows held begun follows

/-! ### Sessions -/

/-- The states of a workspace in which a repository is made, and is then committed to and checked
out, files are written and deleted, and commands are run with the same settings, in any order. -/
inductive Session (config : Config) : Workspace → Prop where
  | start {workspace : Workspace} (clean : Disk.Inherits .empty workspace.disk) :
      Session config workspace.init
  | commit {workspace : Workspace} (reached : Session config workspace) (branch : String)
      (files : List CommitFile) : Session config (workspace.commit branch files).1
  | checkout {workspace : Workspace} (reached : Session config workspace)
      (files : List CommitFile) : Session config (workspace.checkout files)
  | write {workspace : Workspace} (reached : Session config workspace) (path : String)
      (content : List UInt8) : Session config (workspace.write path content)
  | delete {workspace : Workspace} (reached : Session config workspace) (path : String) :
      Session config (workspace.delete path)
  | run {workspace : Workspace} (reached : Session config workspace) (surroundings : Surroundings)
      (command : Command) :
      Session config (runCommand surroundings workspace config command).workspace

/-- In every state of a session, the cache follows the repository. -/
theorem Session.follows {config : Config} {workspace : Workspace}
    (reached : Session config workspace) :
    ∃ repository, workspace.repository = some repository ∧
      Git.Follows config.logSuffix repository .empty ∧
      CacheFollows config.logSuffix repository (workspace.disk.look (cachePlace config)) := by
  induction reached with
  | @start workspace clean =>
      refine ⟨.empty, rfl, .start, fun version contents found => ?_⟩
      rcases Disk.get?_of_look found with lies | rfl
      · have made : Disk.Inherits workspace.disk workspace.init.disk := Disk.inherits_put _ _ nofun
        cases clean.trans made _ _ _ lies
      · exact Git.Follows.start
  | @commit workspace _ branch files step =>
      obtain ⟨repository, held, begun, follows⟩ := step
      refine ⟨(repository.commit branch files).1, ?_, begun.commit branch files, ?_⟩
      · rw [Workspace.commit, held]
        rfl
      · rw [Workspace.commit, held]
        exact follows.grow fun _ reached => reached.commit branch files
  | @checkout workspace _ files step =>
      obtain ⟨repository, held, begun, follows⟩ := step
      refine ⟨repository.checkout files, ?_, begun.checkout files, ?_⟩
      · rw [Workspace.checkout, Workspace.mapRepository, held]
        rfl
      · exact CacheFollows.inherit (follows.grow fun _ reached => reached.checkout files)
          (begun.checkout files) (workspace.inherits_checkout files)
  | write _ path content step =>
      obtain ⟨repository, held, begun, follows⟩ := step
      exact ⟨repository, held, begun, follows.inherit begun (Disk.inherits_write _ path nofun)⟩
  | delete _ path step =>
      obtain ⟨repository, held, begun, follows⟩ := step
      exact ⟨repository, held, begun, follows.inherit begun (Disk.inherits_erase _ path)⟩
  | @run workspace _ surroundings command step =>
      obtain ⟨repository, held, begun, follows⟩ := step
      have same := (agree_runCommand surroundings workspace config command).repository
      exact ⟨repository, same.trans held, begun,
        runCommand_keeps_mirror surroundings config command held begun follows⟩

/-- **The cache mirrors the repository in every session.** In every state, a catalog that is found at
the place of the cache has no rows if it was never built. Otherwise it is at a commit that the
repository holds, and has exactly the keys with a log there, each with the metadata of its last
log. -/
theorem Session.cache_mirrors_commit {config : Config} {workspace : Workspace}
    (reached : Session config workspace) {version : Int} {catalog : Catalog}
    (found : workspace.disk.look (cachePlace config) = .database version (.sound catalog)) :
    ∃ repository, workspace.repository = some repository ∧
      match catalog.state with
      | none => catalog.rows = []
      | some state => ∃ commit, repository.commit? state.revision = some commit ∧
          let logs := lastLogs (repository.logsOf config.logSuffix commit.tree)
          catalog.keys.Nodup ∧ (∀ key, key ∈ catalog.keys ↔ logs.contains key = true) ∧
          (∀ row ∈ catalog.rows, ∃ log, logs.get? row.key = some log ∧
            catalog.metadataOf row = (Digest.ofLog log).metadata) ∧
          state.itemCount = catalog.rows.length := by
  obtain ⟨repository, held, -, follows⟩ := reached.follows
  exact ⟨repository, held, Git.Follows.rows_mirror_logs (follows version _ found)⟩

end CommandLine

end AnnexCatalog
