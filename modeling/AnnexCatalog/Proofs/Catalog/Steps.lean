import AnnexCatalog.Proofs.Catalog.Writes
import AnnexCatalog.Proofs.Store.Reading

/-! # What a build and a refresh do

A build or a refresh either leaves the catalog as it was, or has read everything it asked for and
carries out its writes. So whatever stores answer, the catalog stays consistent and says of every
item what it takes from some log (`Reachable.sound`).
-/

namespace AnnexCatalog

namespace Run

variable {α β : Type} {catalog : Catalog} {calls : List StoreCall} {reports : List Progress}
  {total : Nat} {result : α} {outcome : Except StoreFault α}

@[simp] theorem catalog_idle : (idle catalog calls outcome).catalog = catalog := rfl

@[simp] theorem outcome_idle : (idle catalog calls outcome).outcome = outcome := rfl

/-- An idle run has made just its calls. -/
@[simp] theorem calls_idle : (idle catalog calls outcome).calls = calls := by
  rw [Run.calls, idle, List.filterMap_map]
  exact List.filterMap_some

/-- An idle run has done nothing but its calls. -/
theorem events_idle (catalog : Catalog) (calls : List StoreCall) (outcome : Except StoreFault α) :
    (idle catalog calls outcome).events = (idle catalog calls outcome).calls.map .called := by
  rw [calls_idle, idle]

/-- An idle run is idle, however its result is told. -/
theorem map_idle (catalog : Catalog) (calls : List StoreCall) (outcome : Except StoreFault α)
    (tell : α → β) : (idle catalog calls outcome).map tell =
      idle catalog calls (outcome.map tell) := rfl

@[simp] theorem catalog_writing :
    (writing catalog calls reports total result).catalog = catalog := rfl

@[simp] theorem outcome_writing :
    (writing catalog calls reports total result).outcome = .ok result := rfl

/-- Reports and the commit are no calls. -/
@[simp] theorem calls_writing :
    (writing catalog calls reports total result).calls = calls := by
  have silent : reports.filterMap (RunEvent.call? ∘ RunEvent.reported) = [] :=
    List.filterMap_none _
  rw [Run.calls, writing, List.filterMap_append, List.filterMap_append, List.filterMap_map,
    List.filterMap_map, silent]
  exact (List.append_nil _).trans ((List.append_nil _).trans List.filterMap_some)

@[simp] theorem catalog_map (tell : α → β) (run : Run α) :
    (run.map tell).catalog = run.catalog := rfl

@[simp] theorem outcome_map (tell : α → β) (run : Run α) :
    (run.map tell).outcome = run.outcome.map tell := rfl

end Run

namespace Catalog

open Reading

variable {catalog : Catalog} {now : Nat} {store : LogStore}

/-- A build has read what the store lists, and the locations of that. -/
theorem readAll_eq_ok_iff {revision : String} {blobs : List Blob} {locations : TextMap Location} :
    (readAll store).outcome = .ok (revision, blobs, locations) ↔
      store.currentRevision = .ok revision ∧ store.listItems revision = .ok blobs ∧
        store.resolvePaths (TextSet.ofTexts (blobs.map Blob.key)) = .ok locations := by
  unfold readAll
  simp only [outcome_bind_eq_ok_iff, outcome_ask_eq_ok_iff, outcome_pure, Except.ok.injEq,
    Prod.mk.injEq]
  constructor
  · rintro ⟨_, current, _, listed, _, resolved, rfl, rfl, rfl⟩
    exact ⟨current, listed, resolved⟩
  · rintro ⟨current, listed, resolved⟩
    exact ⟨_, current, _, listed, _, resolved, rfl, rfl, rfl⟩

/-- A refresh has nothing to do where the store is at the revision of the catalog. -/
theorem readChanges_eq_ok_none_iff {since : String} :
    (readChanges store since).outcome = .ok none ↔ store.currentRevision = .ok since := by
  unfold readChanges
  simp only [outcome_bind_eq_ok_iff, outcome_ask_eq_ok_iff]
  constructor
  · rintro ⟨revision, current, rest⟩
    split at rest
    · next same => exact same ▸ current
    · obtain ⟨keys, -, rest⟩ := outcome_bind_eq_ok_iff.mp rest
      split at rest
      · cases rest
      · obtain ⟨_, -, rest⟩ := outcome_bind_eq_ok_iff.mp rest
        obtain ⟨_, -, rest⟩ := outcome_bind_eq_ok_iff.mp rest
        cases rest
  · intro current
    exact ⟨since, current, by rw [if_pos rfl]; rfl⟩

/-- Otherwise it has read the changed keys, and their logs and locations if there are any. -/
theorem readChanges_eq_ok_some_iff {since : String} {changes : Changes} :
    (readChanges store since).outcome = .ok (some changes) ↔
      store.currentRevision = .ok changes.revision ∧ changes.revision ≠ since ∧
        store.changedItems since changes.revision = .ok changes.keys ∧
          if changes.keys.isEmpty then changes.blobs = [] ∧ changes.locations = TextMap.empty
          else store.fetchItems changes.revision changes.keys = .ok changes.blobs ∧
            store.resolvePaths changes.keys = .ok changes.locations := by
  unfold readChanges
  simp only [outcome_bind_eq_ok_iff, outcome_ask_eq_ok_iff]
  constructor
  · rintro ⟨revision, current, rest⟩
    split at rest
    · cases rest
    · next moved =>
        obtain ⟨keys, changed, rest⟩ := outcome_bind_eq_ok_iff.mp rest
        rw [outcome_ask_eq_ok_iff] at changed
        split at rest
        · next none =>
            cases rest
            refine ⟨current, moved, changed, ?_⟩
            rw [if_pos none]
            exact ⟨rfl, rfl⟩
        · next some =>
            obtain ⟨blobs, fetched, rest⟩ := outcome_bind_eq_ok_iff.mp rest
            obtain ⟨locations, resolved, rest⟩ := outcome_bind_eq_ok_iff.mp rest
            rw [outcome_ask_eq_ok_iff] at fetched resolved
            cases rest
            refine ⟨current, moved, changed, ?_⟩
            rw [if_neg some]
            exact ⟨fetched, resolved⟩
  · obtain ⟨revision, keys, blobs, locations⟩ := changes
    rintro ⟨current, moved, changed, read⟩
    refine ⟨revision, current, ?_⟩
    rw [if_neg moved, outcome_bind_eq_ok_iff]
    refine ⟨keys, outcome_ask_eq_ok_iff.mpr changed, ?_⟩
    split
    · next none =>
        rw [if_pos none] at read
        obtain ⟨rfl, rfl⟩ := read
        rfl
    · next some =>
        rw [if_neg some] at read
        rw [outcome_bind_eq_ok_iff]
        refine ⟨blobs, outcome_ask_eq_ok_iff.mpr read.1, ?_⟩
        rw [outcome_bind_eq_ok_iff]
        exact ⟨locations, outcome_ask_eq_ok_iff.mpr read.2, rfl⟩

/-! ### The whole of a run

A run is settled by what it has read: it writes what it has read, or it is idle.
-/

/-- A build that has read everything writes it. -/
theorem build_of_read (catalog : Catalog) (now : Nat) {revision : String} {blobs : List Blob}
    {locations : TextMap Location}
    (read : (readAll store).outcome = .ok (revision, blobs, locations)) :
    catalog.build now store =
      let count := (TextSet.ofTexts (blobs.map Blob.key)).toList.length
      .writing (catalog.writeAll now revision blobs locations) (readAll store).calls
        (milestones blobs.length 0 blobs) count ⟨revision, count, warningsOf blobs⟩ := by
  unfold build
  simp only [read]

/-- A build that could not read everything is idle. -/
theorem build_of_refused (catalog : Catalog) (now : Nat) {fault : StoreFault}
    (refused : (readAll store).outcome = .error fault) :
    catalog.build now store = .idle catalog (readAll store).calls (.error fault) := by
  unfold build
  simp only [refused]

/-- A refresh of a catalog that was never built is a build. -/
theorem refresh_of_unbuilt (unbuilt : catalog.state = none) (now : Nat) (store : LogStore) :
    catalog.refresh now store =
      (catalog.build now store).map fun summary => some (RefreshSummary.ofBuild summary) := by
  unfold refresh
  rw [unbuilt]

/-- A refresh that has read everything writes it. -/
theorem refresh_of_read {state : BuildState} (built : catalog.state = some state) (now : Nat)
    {changes : Changes}
    (read : (readChanges store state.revision).outcome = .ok (some changes)) :
    catalog.refresh now store =
      let keys := changes.keys.toList
      let updated := changes.updates.length
      let removed := (changes.removals catalog).length
      .writing (catalog.writeChanges now changes) (readChanges store state.revision).calls
        (milestones keys.length 0 keys) (updated + removed)
        (some ⟨some state.revision, changes.revision, keys.length, updated, removed,
          warningsOf changes.updates⟩) := by
  unfold refresh
  simp only [built, read]

/-- A refresh of a catalog that is at the current revision is idle. -/
theorem refresh_of_unmoved {state : BuildState} (built : catalog.state = some state) (now : Nat)
    (read : (readChanges store state.revision).outcome = .ok none) :
    catalog.refresh now store =
      .idle catalog (readChanges store state.revision).calls (.ok none) := by
  unfold refresh
  simp only [built, read]

/-- A refresh that could not read everything is idle. -/
theorem refresh_of_refused {state : BuildState} (built : catalog.state = some state) (now : Nat)
    {fault : StoreFault} (refused : (readChanges store state.revision).outcome = .error fault) :
    catalog.refresh now store =
      .idle catalog (readChanges store state.revision).calls (.error fault) := by
  unfold refresh
  simp only [built, refused]

/-- A build has carried out its writes or left the catalog as it was. -/
theorem build_cases (catalog : Catalog) (now : Nat) (store : LogStore) :
    (∃ revision blobs locations, (readAll store).outcome = .ok (revision, blobs, locations) ∧
        (catalog.build now store).catalog = catalog.writeAll now revision blobs locations) ∨
      (catalog.build now store).catalog = catalog := by
  cases read : (readAll store).outcome with
  | error fault => exact .inr (congrArg Run.catalog (build_of_refused catalog now read))
  | ok found =>
      obtain ⟨revision, blobs, locations⟩ := found
      exact .inl ⟨_, _, _, rfl, congrArg Run.catalog (build_of_read catalog now read)⟩

/-- A refresh of a catalog that was built has carried out its writes or left it as it was. -/
theorem refresh_cases {state : BuildState} (built : catalog.state = some state) (now : Nat)
    (store : LogStore) :
    (∃ changes, (readChanges store state.revision).outcome = .ok (some changes) ∧
        (catalog.refresh now store).catalog = catalog.writeChanges now changes) ∨
      (catalog.refresh now store).catalog = catalog := by
  cases read : (readChanges store state.revision).outcome with
  | error fault => exact .inr (congrArg Run.catalog (refresh_of_refused built now read))
  | ok found =>
      cases found with
      | none => exact .inr (congrArg Run.catalog (refresh_of_unmoved built now read))
      | some changes =>
          exact .inl ⟨changes, rfl, congrArg Run.catalog (refresh_of_read built now read)⟩

/-- A build that succeeds has read everything, and tells what it has read. -/
theorem exists_read_of_build {summary : BuildSummary}
    (succeeded : (catalog.build now store).outcome = .ok summary) :
    ∃ revision blobs locations, (readAll store).outcome = .ok (revision, blobs, locations) ∧
      summary = ⟨revision, (TextSet.ofTexts (blobs.map Blob.key)).toList.length,
        warningsOf blobs⟩ := by
  cases read : (readAll store).outcome with
  | error fault =>
      rw [build_of_refused catalog now read] at succeeded
      cases succeeded
  | ok found =>
      rw [build_of_read catalog now read] at succeeded
      cases succeeded
      exact ⟨_, _, _, rfl, rfl⟩

/-- A build that fails is idle. -/
theorem build_eq_idle {fault : StoreFault}
    (failed : (catalog.build now store).outcome = .error fault) :
    catalog.build now store = .idle catalog (readAll store).calls (.error fault) := by
  cases read : (readAll store).outcome with
  | error other =>
      have idle := build_of_refused catalog now read
      rw [idle] at failed
      cases failed
      exact idle
  | ok found =>
      rw [build_of_read catalog now read] at failed
      cases failed

/-- A refresh of a catalog that was built has read changes if it comes to a summary, and tells what it
has read. -/
theorem exists_changes_of_refresh {state : BuildState} {summary : RefreshSummary}
    (built : catalog.state = some state)
    (succeeded : (catalog.refresh now store).outcome = .ok (some summary)) :
    ∃ changes, (readChanges store state.revision).outcome = .ok (some changes) ∧
      summary = ⟨some state.revision, changes.revision, changes.keys.toList.length,
        changes.updates.length, (changes.removals catalog).length,
        warningsOf changes.updates⟩ := by
  cases read : (readChanges store state.revision).outcome with
  | error fault =>
      rw [refresh_of_refused built now read] at succeeded
      cases succeeded
  | ok found =>
      cases found with
      | none =>
          rw [refresh_of_unmoved built now read] at succeeded
          cases succeeded
      | some changes =>
          rw [refresh_of_read built now read] at succeeded
          cases succeeded
          exact ⟨changes, rfl, rfl⟩

/-- A refresh that comes to no summary is idle. -/
theorem exists_refresh_eq_idle
    (unsummarized : ∀ summary, (catalog.refresh now store).outcome ≠ .ok (some summary)) :
    ∃ calls outcome, catalog.refresh now store = .idle catalog calls outcome := by
  cases built : catalog.state with
  | none =>
      rw [refresh_of_unbuilt built] at unsummarized ⊢
      cases outcome : (catalog.build now store).outcome with
      | error fault =>
          rw [build_eq_idle outcome]
          exact ⟨_, _, Run.map_idle _ _ _ _⟩
      | ok summary => exact absurd (congrArg (Except.map _) outcome) (unsummarized _)
  | some state =>
      cases read : (readChanges store state.revision).outcome with
      | error fault => exact ⟨_, _, refresh_of_refused built now read⟩
      | ok found =>
          cases found with
          | none => exact ⟨_, _, refresh_of_unmoved built now read⟩
          | some changes =>
              rw [refresh_of_read built now read] at unsummarized
              exact absurd rfl (unsummarized _)

/-- Writing all logs keeps a catalog consistent. -/
theorem Consistent.writeAll (consistent : catalog.Consistent) (revision : String)
    (blobs : List Blob) (locations : TextMap Location) :
    (catalog.writeAll now revision blobs locations).Consistent := by
  have lawful : ∀ write ∈ catalog.buildWrites now locations blobs, write.Lawful :=
    lawful_buildWrites blobs
  have written := consistent.unindexed.foldl_write lawful
  rw [writeAll_eq consistent]
  exact written.of_rows rfl

/-- Writing changes keeps a catalog consistent. -/
theorem Consistent.writeChanges (consistent : catalog.Consistent) (changes : Changes) :
    (catalog.writeChanges now changes).Consistent := by
  have written := consistent.foldl_write (lawful_changes_write changes now changes.keys.toList)
  rw [writeChanges_eq]
  exact written.of_rows rfl

/-- A consistent catalog that says of every item what it takes from some log. -/
structure Sound (catalog : Catalog) : Prop where
  consistent : catalog.Consistent
  reads : ∀ content ∈ catalog.contents, ∃ log, content.Reads log

theorem Sound.empty : Catalog.empty.Sound := ⟨.empty, nofun⟩

/-- Writing all logs keeps a catalog sound. -/
theorem Sound.writeAll (sound : catalog.Sound) (revision : String) (blobs : List Blob)
    (locations : TextMap Location) : (catalog.writeAll now revision blobs locations).Sound := by
  refine ⟨sound.consistent.writeAll revision blobs locations, ?_⟩
  intro content member
  obtain ⟨blob, -, -, reads⟩ := mem_contents_writeAll sound.consistent member
  exact ⟨blob.content, reads⟩

/-- Writing changes keeps a catalog sound. -/
theorem Sound.writeChanges (sound : catalog.Sound) (changes : Changes) :
    (catalog.writeChanges now changes).Sound := by
  refine ⟨sound.consistent.writeChanges changes, ?_⟩
  intro content member
  rcases mem_contents_writeChanges sound.consistent member with ⟨blob, -, -, reads⟩ | ⟨before, -⟩
  · exact ⟨blob.content, reads⟩
  · exact sound.reads content before

/-- A build keeps a catalog sound. -/
theorem Sound.build (sound : catalog.Sound) (now : Nat) (store : LogStore) :
    (catalog.build now store).catalog.Sound := by
  rcases build_cases catalog now store with ⟨revision, blobs, locations, -, built⟩ | kept
  · exact built ▸ sound.writeAll revision blobs locations
  · exact kept.symm ▸ sound

/-- A refresh keeps a catalog sound. -/
theorem Sound.refresh (sound : catalog.Sound) (now : Nat) (store : LogStore) :
    (catalog.refresh now store).catalog.Sound := by
  cases found : catalog.state with
  | none =>
      rw [refresh_of_unbuilt found now store]
      exact sound.build now store
  | some state =>
      rcases refresh_cases found now store with ⟨changes, -, refreshed⟩ | kept
      · exact refreshed ▸ sound.writeChanges changes
      · exact kept.symm ▸ sound

/-- The catalogs that builds, refreshes and clearings lead to, whatever the stores answer. -/
inductive Reachable : Catalog → Prop where
  | empty : Reachable .empty
  | build {catalog : Catalog} (reached : Reachable catalog) (now : Nat) (store : LogStore) :
      Reachable (catalog.build now store).catalog
  | refresh {catalog : Catalog} (reached : Reachable catalog) (now : Nat) (store : LogStore) :
      Reachable (catalog.refresh now store).catalog
  | clear {catalog : Catalog} (reached : Reachable catalog) : Reachable catalog.clear

/-- Every catalog that can be reached is sound. -/
theorem Reachable.sound (reached : catalog.Reachable) : catalog.Sound := by
  induction reached with
  | empty => exact .empty
  | build _ now store step => exact step.build now store
  | refresh _ now store step => exact step.refresh now store
  | clear _ _ => exact .empty

end Catalog

end AnnexCatalog
