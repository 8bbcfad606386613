import AnnexCatalog.Cache.Contents
import AnnexCatalog.Proofs.Catalog.Steps
import AnnexCatalog.Store.Memory
import AnnexCatalog.Store.Scripted

/-! # A refusal of the store leaves no trace

The requests that a build or a refresh may make stand in a fixed order, in which the answer to one
request tells the arguments of the next. A run makes them one after another. Either none is refused
and the run succeeds, whatever the logs contain, or it ends at the first one that is refused, has
reported nothing, and leaves the catalog as it was (`CacheRun.StopsAtRefusal`).
-/

namespace AnnexCatalog

/-- An operation of a store with its arguments. -/
inductive Request where
  | currentRevision
  | listItems (revision : String)
  | changedItems (old new : String)
  | fetchItems (revision : String) (keys : TextSet)
  | resolvePaths (keys : TextSet)

def Request.call : Request → StoreCall
  | .currentRevision => .currentRevision
  | .listItems _ => .listItems
  | .changedItems _ _ => .changedItems
  | .fetchItems _ _ => .fetchItems
  | .resolvePaths _ => .resolvePaths

/-- The reason that is given in place of an answer. -/
def reason? {α : Type} : Except String α → Option String
  | .ok _ => none
  | .error reason => some reason

namespace LogStore

/-- The reason with which a store refuses a request; none where it answers. -/
def refusal? (store : LogStore) : Request → Option String
  | .currentRevision => reason? store.currentRevision
  | .listItems revision => reason? (store.listItems revision)
  | .changedItems old new => reason? (store.changedItems old new)
  | .fetchItems revision keys => reason? (store.fetchItems revision keys)
  | .resolvePaths keys => reason? (store.resolvePaths keys)

/-- The requests of a build, in their order. The arguments of a request that stands after a refused
one are of no account. -/
def buildRequests (store : LogStore) : List Request :=
  let revision := store.currentRevision.toOption.getD ""
  let blobs := (store.listItems revision).toOption.getD []
  [.currentRevision, .listItems revision, .resolvePaths (TextSet.ofTexts (blobs.map Blob.key))]

/-- The requests of a refresh since a revision, in their order: only the first where the store is
still there, and no logs and locations where no key has changed. -/
def refreshRequests (store : LogStore) (since : String) : List Request :=
  let revision := store.currentRevision.toOption.getD ""
  let keys := (store.changedItems since revision).toOption.getD TextMap.empty
  .currentRevision ::
    if revision = since then []
    else .changedItems since revision ::
      if keys.isEmpty then [] else [.fetchItems revision keys, .resolvePaths keys]

end LogStore

/-- The requests of a refresh; one without an earlier build is a build. -/
def Catalog.refreshRequests (catalog : Catalog) (store : LogStore) : List Request :=
  match catalog.state with
  | none => store.buildRequests
  | some state => store.refreshRequests state.revision

/-! ### Readings make their requests in order -/

namespace Reading

variable {α β : Type} {store : LogStore}

/-- A reading has made all requests of an order and none was refused, or it ends at the first that
was. -/
inductive Obeys (store : LogStore) (order : List Request) (reading : Reading α) : Prop where
  | answered {value : α} (outcome : reading.outcome = .ok value)
      (all : ∀ request ∈ order, store.refusal? request = none)
      (calls : reading.calls = order.map Request.call)
  | refused {before : List Request} {request : Request} {after : List Request} {reason : String}
      (split : order = before ++ request :: after)
      (earlier : ∀ other ∈ before, store.refusal? other = none)
      (refusal : store.refusal? request = some reason)
      (outcome : reading.outcome = .error ⟨request.call, reason⟩)
      (calls : reading.calls = (before ++ [request]).map Request.call)

/-- Where nothing is asked for, nothing can be refused. -/
theorem obeys_pure (value : α) : (pure value : Reading α).Obeys store [] :=
  .answered rfl nofun rfl

/-- A reading that begins with a request goes on with the rest of the order if that is answered. -/
theorem obeys_ask_bind {request : Request} {answer : Except String α} {next : α → Reading β}
    {later : List Request} (asked : store.refusal? request = reason? answer)
    (obeys : ∀ value, answer = .ok value → (next value).Obeys store later) :
    (ask request.call answer >>= next).Obeys store (request :: later) := by
  cases answer with
  | error reason => exact .refused (List.nil_append _).symm nofun asked rfl rfl
  | ok value =>
      cases obeys value rfl with
      | answered outcome all calls =>
          refine .answered outcome (List.forall_mem_cons.mpr ⟨asked, all⟩) ?_
          exact congrArg (request.call :: ·) calls
      | refused split earlier refusal outcome calls =>
          refine .refused (congrArg (request :: ·) split)
            (List.forall_mem_cons.mpr ⟨asked, earlier⟩) refusal outcome ?_
          exact congrArg (request.call :: ·) calls

end Reading

namespace Catalog

open Reading

/-- All logs are read by the requests of a build. -/
theorem obeys_readAll (store : LogStore) : (readAll store).Obeys store store.buildRequests := by
  refine obeys_ask_bind rfl fun revision current => ?_
  rw [current]
  refine obeys_ask_bind rfl fun blobs listed => ?_
  rw [Except.toOption, Option.getD_some, listed]
  exact obeys_ask_bind rfl fun locations _ => obeys_pure _

/-- Changes are read by the requests of a refresh. -/
theorem obeys_readChanges (store : LogStore) (since : String) :
    (readChanges store since).Obeys store (store.refreshRequests since) := by
  refine obeys_ask_bind rfl fun revision current => ?_
  rw [current, Except.toOption, Option.getD_some]
  split
  · exact obeys_pure _
  · refine obeys_ask_bind rfl fun keys changed => ?_
    rw [changed, Except.toOption, Option.getD_some]
    split
    · exact obeys_pure _
    · exact obeys_ask_bind rfl fun blobs _ => obeys_ask_bind rfl fun locations _ => obeys_pure _

end Catalog

/-! ### Runs end at the first refusal -/

/-- A run that makes requests in an order until one is refused. If it fails, the first refused
request is the last one made and is named by the failure, nothing but the calls has happened, so
nothing is reported or committed, and the cache holds the catalog that it held before. If none is
refused, it succeeds. -/
structure CacheRun.StopsAtRefusal {α : Type} (run : CacheRun α) (store : LogStore)
    (order : List Request) (catalog : Catalog) : Prop where
  fails : ∀ failure, run.outcome = .error failure → ∃ before request after reason,
    order = before ++ request :: after ∧
      (∀ other ∈ before, store.refusal? other = none) ∧ store.refusal? request = some reason ∧
      failure = .store ⟨request.call, reason⟩ ∧
      run.calls = (before ++ [request]).map Request.call ∧
      run.events = run.calls.map .called ∧ run.contents = .sound catalog
  succeeds : (∀ request ∈ order, store.refusal? request = none) →
    (∃ result, run.outcome = .ok result) ∧ run.calls = order.map Request.call

namespace Contents

variable {α β : Type} {store : LogStore} {order : List Request} {catalog : Catalog}

theorem calls_ofRun (run : Run α) : (ofRun run).calls = run.calls := rfl

/-- A run stops at a refusal if it only calls what a reading calls, is idle where that fails, and
succeeds where that does. -/
theorem stopsAtRefusal_ofRun {reading : Reading α} {run : Run β}
    (obeys : reading.Obeys store order)
    (failed : ∀ fault, reading.outcome = .error fault →
      run = .idle catalog reading.calls (.error fault))
    (read : ∀ value, reading.outcome = .ok value →
      run.calls = reading.calls ∧ ∃ result, run.outcome = .ok result) :
    (ofRun run).StopsAtRefusal store order catalog := by
  cases obeys with
  | answered outcome all called =>
      obtain ⟨calls, result, finished⟩ := read _ outcome
      have success : (ofRun run).outcome = .ok result := by
        rw [ofRun, finished]
        rfl
      refine ⟨fun failure failing => ?_, fun _ => ⟨⟨result, success⟩, calls.trans called⟩⟩
      rw [success] at failing
      cases failing
  | @refused before request after reason split earlier refusal outcome called =>
      cases failed _ outcome
      refine ⟨fun failure failing => ?_, fun all => ?_⟩
      · cases failing
        refine ⟨before, request, after, reason, split, earlier, refusal, rfl, ?_, ?_, rfl⟩
        · rw [calls_ofRun, Run.calls_idle, called]
        · rw [calls_ofRun, Run.calls_idle]
          rfl
      · rw [split] at all
        rw [all request (List.mem_append_right _ List.mem_cons_self)] at refusal
        cases refusal

/-- A build stops at the first request that is refused. -/
theorem stopsAtRefusal_build (now : Nat) (store : LogStore) (catalog : Catalog) :
    (ofRun (catalog.build now store)).StopsAtRefusal store store.buildRequests catalog := by
  refine stopsAtRefusal_ofRun (Catalog.obeys_readAll store)
    (fun _ refused => Catalog.build_of_refused catalog now refused) fun _ read => ?_
  rw [Catalog.build_of_read catalog now read, Run.calls_writing]
  exact ⟨rfl, _, rfl⟩

/-- A refresh stops at the first request that is refused, whatever it has to ask for. -/
theorem stopsAtRefusal_refresh (now : Nat) (store : LogStore) (catalog : Catalog) :
    (ofRun (catalog.refresh now store)).StopsAtRefusal store (catalog.refreshRequests store)
      catalog := by
  unfold Catalog.refreshRequests
  cases built : catalog.state with
  | none =>
      rw [Catalog.refresh_of_unbuilt built]
      refine stopsAtRefusal_ofRun (Catalog.obeys_readAll store) (fun fault refused => ?_)
        fun _ read => ?_
      · rw [Catalog.build_of_refused catalog now refused]
        rfl
      · rw [Catalog.build_of_read catalog now read]
        exact ⟨Run.calls_writing, _, rfl⟩
  | some state =>
      refine stopsAtRefusal_ofRun (Catalog.obeys_readChanges store state.revision)
        (fun _ refused => Catalog.refresh_of_refused built now refused) fun changes read => ?_
      cases changes with
      | none =>
          rw [Catalog.refresh_of_unmoved built now read]
          exact ⟨Run.calls_idle, _, rfl⟩
      | some changes =>
          rw [Catalog.refresh_of_read built now read]
          exact ⟨Run.calls_writing, _, rfl⟩

/-- **A failed run leaves no trace.** A build and a refresh of any catalog make the requests of
their order to any store. If one fails, the failure names the first request that is refused, no
later one is made, nothing is reported and the catalog stays as it was; if none is refused, the run
succeeds. -/
theorem runs_stop_at_refusal (now : Nat) (store : LogStore) (catalog : Catalog) :
    ((sound catalog).build now store).StopsAtRefusal store store.buildRequests catalog ∧
      ((sound catalog).refresh now store).StopsAtRefusal store (catalog.refreshRequests store)
        catalog :=
  ⟨stopsAtRefusal_build now store catalog, stopsAtRefusal_refresh now store catalog⟩

/-- A store in memory refuses to compare with a revision that it has never been at. -/
example :
    let store := MemoryStore.new.put "k" "1s artist +A" ⟨"a.mp3", true⟩
    let catalog : Catalog := { Catalog.empty with state := some ⟨"r9", 0, 0⟩ }
    let run := (sound catalog).refresh 1 store.answers
    run.calls = [.currentRevision, .changedItems] ∧
      run.outcome.toOption = none ∧ store.answers.refusal? (.changedItems "r9" "r1") =
        some "unknown revision r9" := by
  decide +kernel

end Contents

end AnnexCatalog
