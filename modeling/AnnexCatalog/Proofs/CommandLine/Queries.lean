import AnnexCatalog.Proofs.CommandLine
import AnnexCatalog.Proofs.Search.Failures

/-! # What a query prints

A query that is answered from the cache as it is prints the matching items in the order of their ids,
up to its limit, and tells how many there are in all (`runCommand_prints_matching`). In a session the
cache mirrors a commit, so these are items of keys with logs there (`Session.query_prints_matching`).
-/

namespace AnnexCatalog

/-! ### Searches on open contents -/

namespace Contents

variable {catalog : Catalog} {query : Query} {limit : Option Nat}

/-- A search on sound contents finds what the catalog does, or the database refuses. -/
theorem search_sound (catalog : Catalog) (query : Query) (limit : Option Nat) :
    search query limit (.sound catalog) =
      (catalog.search? query limit).elim (.error .database) .ok := by
  unfold search
  cases found : catalog.search? query limit with
  | none => simp only [read, bind, Except.bind, found]; rfl
  | some items => simp only [read, bind, Except.bind, found]; rfl

/-- A count on sound contents is that of the catalog, or the database refuses. -/
theorem count_sound (catalog : Catalog) (query : Query) :
    count query (.sound catalog) = (catalog.count? query).elim (.error .database) .ok := by
  unfold count
  cases found : catalog.count? query with
  | none => simp only [read, bind, Except.bind, found]; rfl
  | some number => simp only [read, bind, Except.bind, found]; rfl

/-- Items are found in sound contents exactly if they are found in the catalog. -/
theorem search_eq_ok_iff {items : List Item} :
    search query limit (.sound catalog) = .ok items ↔
      catalog.search? query limit = some items := by
  rw [search_sound]
  cases catalog.search? query limit <;> simp

/-- Items are counted in sound contents exactly if they are counted in the catalog. -/
theorem count_eq_ok_iff {number : Nat} :
    count query (.sound catalog) = .ok number ↔ catalog.count? query = some number := by
  rw [count_sound]
  cases catalog.count? query <;> simp

/-- A search on sound contents fails only because the database refuses. -/
theorem eq_database_of_search {failure : Failure}
    (failed : search query limit (.sound catalog) = .error failure) : failure = .database := by
  rw [search_sound] at failed
  cases found : catalog.search? query limit with
  | none =>
      rw [found] at failed
      exact (Except.error.inj failed).symm
  | some items =>
      rw [found] at failed
      cases failed

/-- A count on sound contents fails only because the database refuses. -/
theorem eq_database_of_count {failure : Failure}
    (failed : count query (.sound catalog) = .error failure) : failure = .database := by
  rw [count_sound] at failed
  cases found : catalog.count? query with
  | none =>
      rw [found] at failed
      exact (Except.error.inj failed).symm
  | some number =>
      rw [found] at failed
      cases failed

end Contents

namespace CommandLine

/-- The items that are shown of those that were found. -/
def shown (limit : Option Nat) (items : List Item) : List Item :=
  limit.elim items items.take

section Answers

variable {catalog : Catalog} {query : Query} {limit : Option Nat}

/-- What a search with a limit or without finds are the matching items that are shown. -/
theorem search?_eq_shown (sound : catalog.Sound) {items : List Item}
    (searched : catalog.search? query limit = some items) :
    items = shown limit (catalog.matching query) := by
  cases limit with
  | none => exact Catalog.search?_none_eq_some sound searched
  | some limit => exact Catalog.search?_some_eq_some sound searched

/-- The number of all matching items is right, whether they are counted or not. -/
theorem total_eq_length (sound : catalog.Sound) {items : List Item} {number : Nat}
    (searched : catalog.search? query limit = some items)
    (totalled : App.total query limit true items.length (.sound catalog) = .ok number) :
    number = (catalog.matching query).length := by
  have all {found : List Item} (whole : catalog.search? query none = some found) :
      found.length = (catalog.matching query).length :=
    congrArg List.length (Catalog.search?_none_eq_some sound whole)
  unfold App.total at totalled
  cases limit with
  | none =>
      cases totalled
      exact all searched
  | some limit =>
      dsimp only at totalled
      split at totalled
      · have counted := Contents.count_eq_ok_iff.mp totalled
        rw [Catalog.count?_eq_map_length] at counted
        obtain ⟨found, whole, rfl⟩ := Option.map_eq_some_iff.mp counted
        exact all whole
      · next few =>
          cases totalled
          have short : items.length < limit :=
            Nat.lt_of_not_le fun enough => few ⟨rfl, enough⟩
          exact all (Catalog.search?_none_of_length_lt searched short)

/-- A query is answered by the first items that match it, and by how many match it. -/
theorem answer_eq_ok_some (sound : catalog.Sound) {items : List Item} {number : Nat}
    (answered : App.answer query limit true (.sound catalog) = .ok (some (items, number))) :
    items = shown limit (catalog.matching query) ∧
      number = (catalog.matching query).length := by
  unfold App.answer at answered
  obtain ⟨_, read, answered⟩ := bind_eq_ok_iff.mp answered
  cases read
  split at answered
  · cases answered
  · obtain ⟨results, searched, answered⟩ := bind_eq_ok_iff.mp answered
    have found := Contents.search_eq_ok_iff.mp searched
    obtain ⟨total, totalled, answered⟩ := bind_eq_ok_iff.mp answered
    cases answered
    exact ⟨search?_eq_shown sound found, total_eq_length sound found totalled⟩

/-- A cache that was built is never answered for as an empty one. -/
theorem answer_ne_ok_none {counted : Bool} {state : BuildState}
    (built : catalog.state = some state) :
    App.answer query limit counted (.sound catalog) ≠ .ok none := by
  intro answered
  unfold App.answer at answered
  obtain ⟨_, read, answered⟩ := bind_eq_ok_iff.mp answered
  cases read
  rw [built] at answered
  obtain ⟨_, -, answered⟩ := bind_eq_ok_iff.mp answered
  obtain ⟨_, -, answered⟩ := bind_eq_ok_iff.mp answered
  cases answered

/-- The number of all matching items is not found only because the database refuses. -/
theorem eq_database_of_total {counted : Bool} {number : Nat} {failure : Failure}
    (failed : App.total query limit counted number (.sound catalog) = .error failure) :
    failure = .database := by
  unfold App.total at failed
  split at failed
  · cases failed
  · split at failed
    · exact Contents.eq_database_of_count failed
    · cases failed

/-- A query on sound contents fails only because the database refuses. -/
theorem eq_database_of_answer {counted : Bool} {failure : Failure}
    (failed : App.answer query limit counted (.sound catalog) = .error failure) :
    failure = .database := by
  unfold App.answer at failed
  rcases bind_eq_error_iff.mp failed with unread | ⟨_, read, failed⟩
  · cases unread
  · cases read
    split at failed
    · cases failed
    · rcases bind_eq_error_iff.mp failed with refused | ⟨results, -, failed⟩
      · exact Contents.eq_database_of_search refused
      · rcases bind_eq_error_iff.mp failed with refused | ⟨_, -, failed⟩
        · exact eq_database_of_total refused
        · cases failed

end Answers

/-- A query that does not refresh is answered from the cache that is found. -/
theorem withCache_eq_answer {app : App} {workspace : Workspace} {catalog : Catalog}
    (found : workspace.disk.look app.cache = CacheFile.holding (.sound catalog)) (query : Query)
    (limit : Option Nat) (counted : Bool) :
    (app.withCache workspace none (app.ask query limit counted none)).2 =
      App.answer query limit counted (.sound catalog) := by
  have opened : (CacheFile.holding (.sound catalog)).openOrReset = .ok (.sound catalog, false) := rfl
  let first : CacheFile.Attempt (Option (List Item × Nat)) :=
    ⟨.sound catalog, .sound catalog, App.answer query limit counted (.sound catalog)⟩
  have run : app.ask query limit counted none 0 (.sound catalog) = (first.left, first.outcome) := rfl
  have usable : ¬ first.Unusable := by
    rintro ⟨failure, failed, useless⟩
    rw [eq_database_of_answer failed] at useless
    cases useless
  unfold App.withCache
  rw [found]
  exact congrArg Prod.snd
    ((CacheFile.withCache_of_opened app.surroundings.now none opened run).2 usable)

/-- What a query prints if it succeeds: a line for each matching item, in the order of their ids and up
to the limit, and the number of all matching items. -/
def PrintsMatching (surroundings : Surroundings) (config : Config) (limit : Option Nat)
    (matching : List Item) (report : Report) : Prop :=
  report.status = 0 →
    let items := shown (resultLimit? config limit) matching
    report.printed = lines (items.map itemLine) ∧ report.complained =
      lines ["", resultsLine items.length matching.length surroundings.elapsed]

/-- A query on a sound cache that was built prints the items that match it. -/
theorem search_prints_matching {app : App} {workspace : Workspace} {catalog : Catalog}
    (found : workspace.disk.look app.cache = CacheFile.holding (.sound catalog))
    (sound : catalog.Sound) {state : BuildState} (built : catalog.state = some state)
    (query : Query) (limit : Option Nat) :
    PrintsMatching app.surroundings app.config limit (catalog.matching query)
      (app.search workspace query limit false .text) := by
  have answered := withCache_eq_answer found query (resultLimit? app.config limit) true
  unfold App.search
  dsimp only
  simp only [Bool.false_eq_true, ↓reduceIte, decide_true]
  rw [answered]
  cases outcome : App.answer query (resultLimit? app.config limit) true (.sound catalog) with
  | error failure => exact fun succeeded => absurd succeeded Nat.one_ne_zero
  | ok result =>
      cases result with
      | none => exact absurd outcome (answer_ne_ok_none built)
      | some result =>
          obtain ⟨items, number⟩ := result
          obtain ⟨rfl, rfl⟩ := answer_eq_ok_some sound outcome
          exact fun _ => ⟨rfl, rfl⟩

/-- **A query command prints the items that match it**, if it does not refresh the cache first. -/
theorem runCommand_prints_matching (surroundings : Surroundings) {workspace : Workspace}
    {config : Config} {catalog : Catalog}
    (found : workspace.disk.look (cachePlace config) = CacheFile.holding (.sound catalog))
    (sound : catalog.Sound) {state : BuildState} (built : catalog.state = some state)
    {text : String} {query : Query} (parsed : Query.parse text = .ok query) (limit : Option Nat)
    (presentOnly : Bool) :
    PrintsMatching surroundings config limit (catalog.matching (query.restricted presentOnly))
      (runCommand surroundings workspace config (.query text limit presentOnly false .text)) := by
  simp only [runCommand, parsed]
  unfold started
  cases begun : App.start surroundings workspace config with
  | error fault => exact fun succeeded => absurd succeeded Nat.one_ne_zero
  | ok app =>
      obtain ⟨rfl, rfl, placed⟩ := start_eq_ok begun
      rw [← placed] at found
      exact search_prints_matching found sound built _ limit

/-- **In every session, a query prints the matching items of a commit.** The catalog that answers it is
at a commit that the repository holds, and all that matches has a log there. -/
theorem Session.query_prints_matching {config : Config} {workspace : Workspace}
    (reached : Session config workspace) {catalog : Catalog} {state : BuildState}
    (found : workspace.disk.look (cachePlace config) = CacheFile.holding (.sound catalog))
    (built : catalog.state = some state) {text : String} {query : Query}
    (parsed : Query.parse text = .ok query) (surroundings : Surroundings) (limit : Option Nat)
    (presentOnly : Bool) :
    let matching := catalog.matching (query.restricted presentOnly)
    PrintsMatching surroundings config limit matching
        (runCommand surroundings workspace config (.query text limit presentOnly false .text)) ∧
      ∃ repository commit, workspace.repository = some repository ∧
        repository.commit? state.revision = some commit ∧ ∀ item ∈ matching,
          (lastLogs (repository.logsOf config.logSuffix commit.tree)).contains item.key = true := by
  obtain ⟨repository, held, -, follows⟩ := reached.follows
  have followed : Git.Follows config.logSuffix repository catalog := follows _ _ found
  have sound := followed.reachable.sound
  obtain ⟨commit, recorded, mirrors, -⟩ := (Git.Mirrored.iff_of_state built).mp followed.mirrored
  refine ⟨runCommand_prints_matching surroundings found sound built parsed limit presentOnly,
    repository, commit, held, recorded, fun item member => ?_⟩
  rw [Catalog.matching_eq_map sound.consistent] at member
  obtain ⟨row, listed, rfl⟩ := List.mem_map.mp member
  exact (mirrors.keys row.key).mp (List.mem_map_of_mem (List.mem_filter.mp listed).1)

end CommandLine

end AnnexCatalog
