import AnnexCatalog.Git.Store
import AnnexCatalog.Proofs.Catalog.Listings
import AnnexCatalog.Proofs.Git.Repository

/-! # The catalog mirrors the repository

What a repository answers agrees with what it lists: a key whose logs are not the same at two
revisions lies on a path that differs between their trees, and the logs of some keys are fetched from
the listing (`Source.coherent_answers`). As a whole repository keeps the logs of every commit
(`Repository.logsOf_of_extends`), a catalog that is built and refreshed beside it, from any of its
branches, mirrors the logs of the commit that it was last brought to, whatever has been committed
since (`Follows.rows_mirror_logs`).
-/

namespace AnnexCatalog.Git

open Catalog

/-- The log in a file of a tree: its key and its text; none where the path is that of no log or the
content of the file is lost. -/
def Repository.logAt? (repository : Repository) (suffix : String) (file : String × TreeFile) :
    Option Blob :=
  (logKey? suffix file.1).bind fun key => (repository.object? file.2.object).map fun content =>
    ⟨key, String.ofList (Text.Utf8.lossy content)⟩

/-- The logs of a tree, in the order of their paths. -/
def Repository.logsOf (repository : Repository) (suffix : String) (tree : Tree) : List Blob :=
  tree.entries.filterMap (repository.logAt? suffix)

/-! ### Answers -/

/-- A command succeeds if git can be started and has an answer. -/
theorem run_eq_ok_iff {α : Type} {installed : Bool} {command : String} {answer : Option α}
    {value : α} :
    run installed command answer = .ok value ↔ installed = true ∧ answer = some value := by
  cases installed <;> cases answer <;> simp [run]

namespace Source

variable {source : Source} {revision : String}

/-- The current revision is the commit at which the branch is. -/
theorem currentRevision_eq_ok_iff :
    source.currentRevision = .ok revision ↔
      source.installed = true ∧ source.repository.branches.get? source.branch = some revision := by
  unfold currentRevision
  simp only [bind_eq_ok_iff, run_eq_ok_iff, Option.some.injEq]
  constructor
  · rintro ⟨name, ⟨on, named⟩, found⟩
    cases name with
    | none => cases found
    | some name => exact ⟨on, named.trans (congrArg some (Except.ok.inj found))⟩
  · rintro ⟨on, named⟩
    exact ⟨_, ⟨on, named⟩, rfl⟩

/-- The logs of a tree are read in two steps: first the keys and objects, and then the objects. -/
theorem logEntries_eq_ok_iff {entries : List (String × String)} :
    source.logEntries revision = .ok entries ↔
      checkRevision revision = .ok () ∧ source.installed = true ∧
        ∃ commit, source.repository.revision? revision = some commit ∧
          commit.tree.entries.filterMap (fun file =>
            (logKey? source.suffix file.1).map fun key => (key, file.2.object)) = entries := by
  unfold logEntries Repository.treeEntries
  simp only [bind_eq_ok_iff, run_eq_ok_iff, List.filterMap_map]
  constructor
  · rintro ⟨_, checked, commit, ⟨on, found⟩, same⟩
    exact ⟨checked, on, commit, found, Except.ok.inj same⟩
  · rintro ⟨checked, on, commit, found, rfl⟩
    exact ⟨(), checked, commit, ⟨on, found⟩, rfl⟩

/-- The objects that the files of a tree name hold its logs. -/
theorem readLogs_eq_logsOf (source : Source) (tree : Tree) :
    source.readLogs (tree.entries.filterMap fun file =>
        (logKey? source.suffix file.1).map fun key => (key, file.2.object)) =
      source.repository.logsOf source.suffix tree := by
  rw [readLogs, Repository.logsOf, List.filterMap_filterMap]
  refine List.filterMap_congr fun file _ => ?_
  rw [Repository.logAt?, Option.bind_map]
  rfl

/-- The logs of some keys are those of all keys without the others. -/
theorem readLogs_filter (source : Source) (entries : List (String × String))
    (keep : String → Bool) :
    source.readLogs (entries.filter fun entry => keep entry.1) =
      (source.readLogs entries).filter fun blob => keep blob.key := by
  rw [readLogs, readLogs, List.filterMap_filter, List.filter_filterMap]
  refine List.filterMap_congr fun (key, object) _ => ?_
  cases held : source.repository.object? object <;> cases kept : keep key <;>
    simp [Option.filter, held, kept]

/-- The logs of a revision are listed exactly if git can be started and knows the commit. -/
theorem listItems_eq_ok_iff {listed : List Blob} :
    source.listItems revision = .ok listed ↔
      checkRevision revision = .ok () ∧ source.installed = true ∧
        ∃ commit, source.repository.revision? revision = some commit ∧
          source.repository.logsOf source.suffix commit.tree = listed := by
  rw [listItems, map_eq_ok_iff]
  simp only [logEntries_eq_ok_iff]
  constructor
  · rintro ⟨_, ⟨checked, on, commit, found, rfl⟩, rfl⟩
    exact ⟨checked, on, commit, found, (readLogs_eq_logsOf source commit.tree).symm⟩
  · rintro ⟨checked, on, commit, found, rfl⟩
    exact ⟨_, ⟨checked, on, commit, found, rfl⟩, readLogs_eq_logsOf source commit.tree⟩

/-- The logs of some keys are those that are listed for them. -/
theorem fetchItems_eq_ok_iff {keys : TextSet} {fetched : List Blob} :
    source.fetchItems revision keys = .ok fetched ↔
      ∃ listed, source.listItems revision = .ok listed ∧
        listed.filter (fun blob => keys.contains blob.key) = fetched := by
  rw [fetchItems, listItems, map_eq_ok_iff]
  simp only [map_eq_ok_iff, readLogs_filter source _ keys.contains]
  constructor
  · rintro ⟨entries, found, rfl⟩
    exact ⟨_, ⟨entries, found, rfl⟩, rfl⟩
  · rintro ⟨_, ⟨entries, found, rfl⟩, rfl⟩
    exact ⟨entries, found, rfl⟩

/-- The changed keys between two revisions are those of the paths at which their trees differ. -/
theorem changedItems_eq_ok_iff {old new : String} {keys : TextSet} :
    source.changedItems old new = .ok keys ↔
      checkRevision old = .ok () ∧ checkRevision new = .ok () ∧ source.installed = true ∧
        ∃ before after, source.repository.revision? old = some before ∧
          source.repository.revision? new = some after ∧
          TextSet.ofTexts ((before.tree.differences after.tree).toList.filterMap
            (logKey? source.suffix)) = keys := by
  unfold changedItems
  simp only [bind_eq_ok_iff, run_eq_ok_iff, Option.bind_eq_bind, Option.bind_eq_some_iff]
  constructor
  · rintro ⟨_, first, _, second, paths, ⟨on, before, found, after, reached, differ⟩, same⟩
    cases Option.some.inj differ
    exact ⟨first, second, on, before, after, found, reached, Except.ok.inj same⟩
  · rintro ⟨first, second, on, before, after, found, reached, rfl⟩
    exact ⟨(), first, (), second, _, ⟨on, before, found, after, reached, rfl⟩, rfl⟩

/-! ### Answers agree -/

/-- The logs of a key are the same in two trees if no path of its logs differs between them. -/
theorem filter_logsOf_congr (repository : Repository) (suffix : String) {before after : Tree}
    {key : String} (same : ∀ path, logKey? suffix path = some key →
      before.get? path = after.get? path) :
    (repository.logsOf suffix before).filter (·.key == key) =
      (repository.logsOf suffix after).filter (·.key == key) := by
  have alone (tree : Tree) : (repository.logsOf suffix tree).filter (·.key == key) =
      (tree.entries.filter fun file => logKey? suffix file.1 == some key).filterMap
        (repository.logAt? suffix) := by
    rw [Repository.logsOf, List.filter_filterMap, List.filterMap_filter]
    refine List.filterMap_congr fun file _ => ?_
    rw [Repository.logAt?]
    cases named : logKey? suffix file.1 with
    | none => simp
    | some other =>
        by_cases same : other = key
        · subst same
          cases repository.object? file.2.object <;> simp [Option.filter]
        · cases repository.object? file.2.object <;> simp [Option.filter, same]
  have kept := TextMap.filter_entries_congr (fun path => logKey? suffix path == some key)
    fun path named => same path (beq_iff_eq.mp named)
  rw [alone, alone, kept]

/-- **The answers of a repository agree with each other.** This holds of every repository, whatever
it has lost: the keys that it does not report as changed have the same logs at both revisions, and
the logs that it fetches are those that it lists. -/
theorem coherent_answers (source : Source) : source.answers.Coherent where
  changedItems old new keys answered := by
    obtain ⟨first, second, on, before, after, found, reached, rfl⟩ :=
      changedItems_eq_ok_iff.mp (mapError_eq_ok_iff.mp answered)
    refine ⟨_, _, mapError_eq_ok_iff.mpr (listItems_eq_ok_iff.mpr ⟨first, on, before, found, rfl⟩),
      mapError_eq_ok_iff.mpr (listItems_eq_ok_iff.mpr ⟨second, on, after, reached, rfl⟩),
      fun key unreported => filter_logsOf_congr _ _ fun path named => ?_⟩
    by_contra different
    have reported : TextMap.contains (TextSet.ofTexts
        ((before.tree.differences after.tree).toList.filterMap (logKey? source.suffix))) key =
        true := by
      refine (TextSet.contains_ofTexts_iff _ _).mpr (List.mem_filterMap.mpr ⟨path, ?_, named⟩)
      exact (TextSet.mem_toList_iff _ _).mpr
        ((TextMap.contains_differences_iff _ _ _).mpr different)
    rw [reported] at unreported
    cases unreported
  fetchItems revision keys fetched answered := by
    obtain ⟨listed, found, rfl⟩ := fetchItems_eq_ok_iff.mp (mapError_eq_ok_iff.mp answered)
    exact ⟨listed, mapError_eq_ok_iff.mpr found, rfl⟩

end Source

/-! ### Revisions over time -/

/-- The logs of a commit of a whole repository stay as they are while the repository grows. -/
theorem Repository.Whole.logsOf_of_extends {repository later : Repository}
    (whole : repository.Whole) (grown : repository.Extends later) (suffix : String)
    {name : String} {commit : Commit} (found : repository.commit? name = some commit) :
    later.logsOf suffix commit.tree = repository.logsOf suffix commit.tree := by
  obtain ⟨number, -, held⟩ := Option.bind_eq_some_iff.mp found
  have member : commit ∈ repository.commits := List.mem_of_getElem? held
  refine List.filterMap_congr fun (path, file) listed => ?_
  have contained := whole.trees commit member path file ((commit.tree.mem_entries_iff _ _).mp listed)
  obtain ⟨content, kept⟩ := (TextMap.contains_iff _ _).mp contained
  have same : later.object? file.object = repository.object? file.object :=
    (grown.objects _ _ kept).trans kept.symm
  rw [logAt?, logAt?, same]

/-- The states of a repository and of a catalog beside it. Commits are made on any branch, and a
branch is deleted; the catalog is built and refreshed from whatever branch, by a git that may be
missing. Logs have one suffix. -/
inductive Follows (suffix : String) : Repository → Catalog → Prop where
  | start : Follows suffix .empty .empty
  | commit {repository : Repository} {catalog : Catalog}
      (reached : Follows suffix repository catalog) (branch : String) (files : List CommitFile) :
      Follows suffix (repository.commit branch files).1 catalog
  | checkout {repository : Repository} {catalog : Catalog}
      (reached : Follows suffix repository catalog) (files : List CommitFile) :
      Follows suffix (repository.checkout files) catalog
  | deleteBranch {repository : Repository} {catalog : Catalog}
      (reached : Follows suffix repository catalog) (branch : String) :
      Follows suffix (repository.deleteBranch branch) catalog
  | build {catalog : Catalog} {source : Source}
      (reached : Follows suffix source.repository catalog) (named : source.suffix = suffix)
      (now : Nat) : Follows suffix source.repository (catalog.build now source.answers).catalog
  | refresh {catalog : Catalog} {source : Source}
      (reached : Follows suffix source.repository catalog) (named : source.suffix = suffix)
      (now : Nat) : Follows suffix source.repository (catalog.refresh now source.answers).catalog
  | clear {repository : Repository} {catalog : Catalog}
      (reached : Follows suffix repository catalog) : Follows suffix repository catalog.clear

namespace Follows

variable {suffix : String} {repository : Repository} {catalog : Catalog}

/-- A repository that has grown by commits has lost nothing. -/
theorem whole (reached : Follows suffix repository catalog) : repository.Whole := by
  induction reached with
  | start => exact .empty
  | commit _ branch files step => exact step.commit branch files
  | checkout _ files step => exact step.checkout files
  | deleteBranch _ branch step => exact step.deleteBranch branch
  | build _ _ _ step => exact step
  | refresh _ _ _ step => exact step
  | clear _ step => exact step

/-- The catalog beside it can be reached. -/
theorem reachable (reached : Follows suffix repository catalog) : catalog.Reachable := by
  induction reached with
  | start => exact .empty
  | commit _ _ _ step => exact step
  | checkout _ _ step => exact step
  | deleteBranch _ _ step => exact step
  | build _ _ now step => exact step.build now _
  | refresh _ _ now step => exact step.refresh now _
  | clear _ step => exact step.clear

end Follows

/-- A catalog without a state is empty; one with a state mirrors the logs of the commit that is its
revision, and its items are counted. -/
def Mirrored (suffix : String) (repository : Repository) (catalog : Catalog) : Prop :=
  match catalog.state with
  | none => catalog = .empty
  | some state => ∃ commit, repository.commit? state.revision = some commit ∧
      catalog.Mirrors (lastLogs (repository.logsOf suffix commit.tree)) ∧
      state.itemCount = catalog.size

namespace Mirrored

variable {suffix : String} {repository later : Repository} {catalog : Catalog} {source : Source}

/-- A built catalog is mirrored if it mirrors the last logs of the commit that it names, and counts
its rows. -/
theorem iff_of_state {state : BuildState} (built : catalog.state = some state) :
    Mirrored suffix repository catalog ↔
      ∃ commit, repository.commit? state.revision = some commit ∧
        catalog.Mirrors (lastLogs (repository.logsOf suffix commit.tree)) ∧
        state.itemCount = catalog.size := by
  unfold Mirrored
  rw [built]

/-- What is committed later does not matter to a catalog. -/
theorem grow (mirrored : Mirrored suffix repository catalog) (whole : repository.Whole)
    (grown : repository.Extends later) : Mirrored suffix later catalog := by
  cases built : catalog.state with
  | none =>
      unfold Mirrored at mirrored ⊢
      rw [built] at mirrored ⊢
      exact mirrored
  | some state =>
      obtain ⟨commit, found, rest⟩ := (iff_of_state built).mp mirrored
      refine (iff_of_state built).mpr ⟨commit, grown.commit? found, ?_⟩
      rw [whole.logsOf_of_extends grown suffix found]
      exact rest

/-- What is listed at the name of a commit are the logs of the commit. -/
theorem listed_eq_logsOf {revision : String} {commit : Commit} {listed : List Blob}
    (found : source.repository.commit? revision = some commit)
    (answered : source.answers.listItems revision = .ok listed) :
    listed = source.repository.logsOf source.suffix commit.tree := by
  obtain ⟨-, -, other, reached, rfl⟩ :=
    Source.listItems_eq_ok_iff.mp (mapError_eq_ok_iff.mp answered)
  cases (Repository.revision?_of_commit? found).symm.trans reached
  rfl

/-- The current revision of a whole repository is the name of a commit. -/
theorem exists_current_commit (whole : source.repository.Whole) {revision : String}
    (current : source.answers.currentRevision = .ok revision) :
    ∃ commit, source.repository.commit? revision = some commit :=
  Option.isSome_iff_exists.mp (whole.branches _ _
    (Source.currentRevision_eq_ok_iff.mp (mapError_eq_ok_iff.mp current)).2)

/-- A build from the repository leaves a mirror of it. -/
theorem build (mirrored : Mirrored source.suffix source.repository catalog)
    (whole : source.repository.Whole) (consistent : catalog.Consistent) (now : Nat) :
    Mirrored source.suffix source.repository (catalog.build now source.answers).catalog := by
  cases outcome : (catalog.build now source.answers).outcome with
  | error fault => exact build_eq_idle outcome ▸ mirrored
  | ok summary =>
      obtain ⟨listed, current, answered, mirrors, state⟩ := mirrors_build consistent outcome
      obtain ⟨commit, found⟩ := exists_current_commit whole current
      obtain rfl := listed_eq_logsOf found answered
      exact (iff_of_state state).mpr ⟨commit, found, mirrors, rfl⟩

/-- A refresh of a mirror leaves a mirror. -/
theorem refresh (mirrored : Mirrored source.suffix source.repository catalog)
    (whole : source.repository.Whole) (consistent : catalog.Consistent) (now : Nat) :
    Mirrored source.suffix source.repository (catalog.refresh now source.answers).catalog := by
  by_cases unsummarized : ∀ summary,
      (catalog.refresh now source.answers).outcome ≠ .ok (some summary)
  · obtain ⟨calls, outcome, idle⟩ := exists_refresh_eq_idle unsummarized
    exact idle ▸ mirrored
  · obtain ⟨summary, summarized⟩ := not_forall.mp unsummarized
    cases built : catalog.state with
    | none => exact refresh_of_unbuilt built now source.answers ▸ mirrored.build whole consistent now
    | some state =>
        obtain ⟨before, known, mirrors, -⟩ := (iff_of_state built).mp mirrored
        obtain ⟨listed, current, answered, renewed, after⟩ :=
          mirrors_refresh source.coherent_answers consistent built
            (fun _ answered => listed_eq_logsOf known answered ▸ mirrors) (not_not.mp summarized)
        obtain ⟨commit, found⟩ := exists_current_commit whole current
        obtain rfl := listed_eq_logsOf found answered
        exact (iff_of_state after).mpr ⟨commit, found, renewed, rfl⟩

end Mirrored

/-- A catalog that follows a repository mirrors a commit of it. -/
theorem Follows.mirrored {suffix : String} {repository : Repository} {catalog : Catalog}
    (reached : Follows suffix repository catalog) : Mirrored suffix repository catalog := by
  induction reached with
  | start => rfl
  | commit reached branch files step =>
      exact step.grow reached.whole (reached.whole.extends_commit branch files)
  | checkout reached files step =>
      exact step.grow reached.whole (reached.whole.extends_checkout files)
  | deleteBranch reached branch step =>
      exact step.grow reached.whole (Repository.extends_deleteBranch _ branch)
  | build reached named now step =>
      subst named
      exact step.build reached.whole reached.reachable.sound.consistent now
  | refresh reached named now step =>
      subst named
      exact step.refresh reached.whole reached.reachable.sound.consistent now
  | clear _ _ => rfl

/-- **The catalog mirrors the repository.** In every state, a catalog without a build state has no
rows. One with a build state is at a commit that the repository still holds; it has exactly the keys
with a log in that commit, holds of each the metadata of its last log there, and counts its rows. -/
theorem Follows.rows_mirror_logs {suffix : String} {repository : Repository} {catalog : Catalog}
    (reached : Follows suffix repository catalog) :
    match catalog.state with
    | none => catalog.rows = []
    | some state => ∃ commit, repository.commit? state.revision = some commit ∧
        let logs := lastLogs (repository.logsOf suffix commit.tree)
        catalog.keys.Nodup ∧ (∀ key, key ∈ catalog.keys ↔ logs.contains key = true) ∧
        (∀ row ∈ catalog.rows, ∃ log, logs.get? row.key = some log ∧
          catalog.metadataOf row = (Digest.ofLog log).metadata) ∧
        state.itemCount = catalog.rows.length := by
  have mirrored := reached.mirrored
  split
  · next unbuilt =>
      unfold Mirrored at mirrored
      rw [unbuilt] at mirrored
      rw [mirrored]
      rfl
  · next state built =>
      obtain ⟨commit, found, mirrors, counted⟩ := (Mirrored.iff_of_state built).mp mirrored
      refine ⟨commit, found, reached.reachable.sound.consistent.keys_nodup, mirrors.keys, ?_,
        counted⟩
      intro row member
      obtain ⟨log, logged, reads⟩ := mirrors.reads (catalog.dossier row).content
        (List.mem_map_of_mem (List.mem_map_of_mem member))
      exact ⟨log, logged, reads.metadata⟩

/-! ### Runs succeed -/

/-- The name of a commit is not refused. -/
theorem checkRevision_of_commit? {repository : Repository} {name : String} {commit : Commit}
    (found : repository.commit? name = some commit) : checkRevision name = .ok () := by
  obtain ⟨number, rfl⟩ := Repository.exists_commitName_of_commit? found
  obtain ⟨unsigned, occupied⟩ := Repository.commitName_plain number
  refine if_neg (not_or.mpr ⟨fun empty => ?_, fun sign => unsigned (List.mem_of_head? sign)⟩)
  rw [empty] at occupied
  cases occupied

namespace Source

variable {source : Source} {name : String}

/-- The items can be located wherever git can be started. -/
theorem exists_locations (on : source.installed = true) (keys : TextSet) :
    ∃ locations, source.answers.resolvePaths keys = .ok locations := by
  have asked : ∃ locations, source.resolvePaths keys = .ok locations := by
    unfold resolvePaths
    split
    · exact ⟨_, rfl⟩
    · exact ⟨_, bind_eq_ok_iff.mpr ⟨_, run_eq_ok_iff.mpr ⟨on, rfl⟩, rfl⟩⟩
  obtain ⟨locations, answered⟩ := asked
  exact ⟨locations, mapError_eq_ok_iff.mpr answered⟩

/-- What a build asks of a branch with a commit is answered. -/
theorem exists_readAll (on : source.installed = true)
    (current : source.answers.currentRevision = .ok name) {commit : Commit}
    (found : source.repository.commit? name = some commit) :
    ∃ listed locations, (readAll source.answers).outcome = .ok (name, listed, locations) := by
  have listed : source.answers.listItems name =
      .ok (source.repository.logsOf source.suffix commit.tree) :=
    mapError_eq_ok_iff.mpr (listItems_eq_ok_iff.mpr ⟨checkRevision_of_commit? found, on, commit,
      Repository.revision?_of_commit? found, rfl⟩)
  obtain ⟨locations, resolved⟩ := exists_locations on _
  exact ⟨_, locations, readAll_eq_ok_iff.mpr ⟨current, listed, resolved⟩⟩

/-- What a refresh since another commit asks is answered. -/
theorem exists_readChanges (on : source.installed = true)
    (current : source.answers.currentRevision = .ok name) {commit : Commit}
    (found : source.repository.commit? name = some commit) {since : String} {earlier : Commit}
    (known : source.repository.commit? since = some earlier) (moved : name ≠ since) :
    ∃ changes, (readChanges source.answers since).outcome = .ok (some changes) ∧
      changes.revision = name := by
  let keys := TextSet.ofTexts ((earlier.tree.differences commit.tree).toList.filterMap
    (logKey? source.suffix))
  have changed : source.answers.changedItems since name = .ok keys :=
    mapError_eq_ok_iff.mpr (changedItems_eq_ok_iff.mpr ⟨checkRevision_of_commit? known,
      checkRevision_of_commit? found, on, earlier, commit, Repository.revision?_of_commit? known,
      Repository.revision?_of_commit? found, rfl⟩)
  cases empty : keys.isEmpty with
  | true =>
      refine ⟨⟨name, keys, [], TextMap.empty⟩, readChanges_eq_ok_some_iff.mpr
        ⟨current, moved, changed, ?_⟩, rfl⟩
      rw [if_pos empty]
      exact ⟨rfl, rfl⟩
  | false =>
      have listed := listItems_eq_ok_iff.mpr ⟨checkRevision_of_commit? found, on, commit,
        Repository.revision?_of_commit? found, rfl⟩
      obtain ⟨blobs, fetched⟩ : ∃ blobs, source.answers.fetchItems name keys = .ok blobs :=
        ⟨_, mapError_eq_ok_iff.mpr (fetchItems_eq_ok_iff.mpr ⟨_, listed, rfl⟩)⟩
      obtain ⟨locations, resolved⟩ := exists_locations on keys
      refine ⟨⟨name, keys, blobs, locations⟩, readChanges_eq_ok_some_iff.mpr
        ⟨current, moved, changed, ?_⟩, rfl⟩
      rw [if_neg (Bool.eq_false_iff.mp empty)]
      exact ⟨fetched, resolved⟩

end Source

/-- **A git that can be started brings the catalog to its branch.** A build and a refresh from a
branch with a commit succeed, and leave the catalog at that commit. -/
theorem Follows.reaches_branch {suffix : String} {catalog : Catalog} {source : Source}
    (reached : Follows suffix source.repository catalog) (on : source.installed = true)
    {name : String} (named : source.repository.branches.get? source.branch = some name)
    (now : Nat) :
    ((∃ summary, (catalog.build now source.answers).outcome = .ok summary) ∧
      (catalog.build now source.answers).catalog.state.map BuildState.revision = some name) ∧
      (∃ summary?, (catalog.refresh now source.answers).outcome = .ok summary?) ∧
      (catalog.refresh now source.answers).catalog.state.map BuildState.revision = some name := by
  have current : source.answers.currentRevision = .ok name :=
    mapError_eq_ok_iff.mpr (Source.currentRevision_eq_ok_iff.mpr ⟨on, named⟩)
  obtain ⟨commit, found⟩ := Mirrored.exists_current_commit reached.whole current
  obtain ⟨listed, locations, read⟩ := Source.exists_readAll on current found
  have built := build_of_read catalog now read
  refine ⟨by rw [built]; exact ⟨⟨_, rfl⟩, rfl⟩, ?_⟩
  cases before : catalog.state with
  | none =>
      rw [refresh_of_unbuilt before, built]
      exact ⟨⟨_, rfl⟩, rfl⟩
  | some state =>
      obtain ⟨earlier, known, -⟩ := (Mirrored.iff_of_state before).mp reached.mirrored
      by_cases moved : name = state.revision
      · rw [refresh_of_unmoved before now (readChanges_eq_ok_none_iff.mpr (moved ▸ current))]
        exact ⟨⟨_, rfl⟩, by rw [Run.catalog_idle, before, moved]; rfl⟩
      · obtain ⟨changes, changed, revision⟩ :=
          Source.exists_readChanges on current found known moved
        rw [refresh_of_read before now changed]
        exact ⟨⟨_, rfl⟩, congrArg some revision⟩

end AnnexCatalog.Git
