import AnnexCatalog.Proofs.Store.Memory
import Mathlib.Data.List.Sort

/-! # Patching a listing

The keys that differ between two revisions and the logs that these keys have at one of them make the
listing of the other into that of the one (`patched_blobs`). A change of the logs leaves every
revision as it is and adds one. So between any two revisions that a store has been at, in either
order, a listing can be patched, and it stays as it is whatever is changed later
(`history_patched`).
-/

namespace AnnexCatalog

namespace TextMap

variable {α : Type} [BEq α] [LawfulBEq α] {old new : TextMap α}

/-- Two maps differ at the same keys, whichever is taken first. -/
theorem differences_comm (old new : TextMap α) : old.differences new = new.differences old := by
  refine TextSet.ext_contains fun key => ?_
  rw [contains_differences_iff, contains_differences_iff, ne_comm]

/-- Two maps differ nowhere exactly if they are the same. -/
theorem isEmpty_differences_iff : (old.differences new).isEmpty = true ↔ old = new := by
  rw [TextSet.isEmpty_iff]
  simp only [← Bool.not_eq_true, contains_differences_iff, not_not]
  exact ⟨ext_get?, fun same key => congrArg (get? · key) same⟩

/-- A key that differs between two maps differs between one of them and any third. -/
theorem contains_differences_union (third : TextMap α) {key : String}
    (different : (old.differences new).contains key = true) :
    ((old.differences third).union (third.differences new)).contains key = true := by
  rw [TextSet.contains_union_iff]
  simp only [contains_differences_iff] at different ⊢
  by_contra alike
  rw [not_or, not_not, not_not] at alike
  exact different (alike.1.trans alike.2)

end TextMap

namespace MemoryStore

/-! ### One patch -/

/-- A listing with other logs in place of those of some keys, in the order of the keys. -/
def patched (listed : List Blob) (keys : TextSet) (fetched : List Blob) : List Blob :=
  ((listed.filter fun blob => !keys.contains blob.key) ++ fetched).mergeSort
    fun first second => first.key ≤ second.key

theorem patched_ascending (listed : List Blob) (keys : TextSet) (fetched : List Blob) :
    (patched listed keys fetched).Pairwise fun first second => first.key ≤ second.key := by
  have ordered : (patched listed keys fetched).Pairwise fun first second =>
      decide (first.key ≤ second.key) = true := by
    refine List.pairwise_mergeSort (fun first second third => ?_) (fun first second => ?_) _
    · simpa using String.le_trans
    · simpa using String.le_total first.key second.key
  exact ordered.imp of_decide_eq_true

/-- The logs of a snapshot are in the order of their keys, each with its own key. -/
theorem blobs_ascending (snapshot : Snapshot) :
    (blobs snapshot).Pairwise fun first second => first.key < second.key := by
  rw [← List.pairwise_map, map_key_blobs]
  exact snapshot.keys_ascending

theorem blobs_nodup (snapshot : Snapshot) : (blobs snapshot).Nodup :=
  List.Nodup.of_map Blob.key (map_key_blobs snapshot ▸ snapshot.keys_nodup)

theorem blobs_inj {first second : Snapshot} : blobs first = blobs second ↔ first = second := by
  refine ⟨fun same => TextMap.ext_get? fun key => Option.ext fun content => ?_, congrArg blobs⟩
  have agree := congrArg (⟨key, content⟩ ∈ ·) same
  simpa only [mem_blobs_iff, eq_iff_iff] using agree

/-- What a listing keeps and what another has of the keys that differ is all that the other has. -/
theorem perm_blobs (old new : Snapshot) :
    (((blobs old).filter fun blob => !(old.differences new).contains blob.key) ++
      (blobs new).filter fun blob => (old.differences new).contains blob.key).Perm (blobs new) := by
  have apart : (((blobs old).filter fun blob => !(old.differences new).contains blob.key) ++
      (blobs new).filter fun blob => (old.differences new).contains blob.key).Nodup := by
    refine ((blobs_nodup old).filter _).append ((blobs_nodup new).filter _) ?_
    intro blob kept fetched
    have same := (List.mem_filter.mp kept).2
    rw [(List.mem_filter.mp fetched).2] at same
    cases same
  refine (List.perm_ext_iff_of_nodup apart (blobs_nodup new)).mpr fun blob => ?_
  rw [List.mem_append, List.mem_filter, List.mem_filter, mem_blobs_iff, mem_blobs_iff]
  cases differs : (old.differences new).contains blob.key with
  | true => simp
  | false =>
      have same : old.get? blob.key = new.get? blob.key := by
        rwa [← Bool.not_eq_true, TextMap.contains_differences_iff, not_not] at differs
      simp [same]

/-- The listing of a revision, without the keys that differ and with the logs that they have at
another, is the listing of the other. -/
theorem patched_blobs (old new : Snapshot) :
    patched (blobs old) (old.differences new)
      ((blobs new).filter fun blob => (old.differences new).contains blob.key) = blobs new := by
  have perm := (List.mergeSort_perm _ fun first second : Blob =>
    decide (first.key ≤ second.key)).trans (perm_blobs old new)
  refine List.Perm.eq_of_pairwise ?_ (patched_ascending _ _ _)
    ((blobs_ascending new).imp Std.le_of_lt) perm
  -- Two logs of one listing are the same if they have the same key.
  intro first second firstMember secondMember le ge
  have firstFound := mem_blobs_iff.mp (perm.subset firstMember)
  have secondFound := mem_blobs_iff.mp secondMember
  have key : first.key = second.key := String.le_antisymm le ge
  rw [key, secondFound] at firstFound
  cases first
  cases second
  cases key
  cases firstFound
  rfl

/-! ### Runs of changes -/

/-- Whether a change makes a new revision. -/
def Mutation.changesLogs : Mutation → Bool
  | .put _ _ _ | .append _ _ | .remove _ => true
  | .setLocation _ _ | .forgetLocation _ | .setAvailable _ => false

variable {store : MemoryStore} {mutation : Mutation} {mutations : List Mutation}

/-- The store after changes one after another. -/
def mutateAll (store : MemoryStore) (mutations : List Mutation) : MemoryStore :=
  mutations.foldl mutate store

/-- A mutation adds a revision exactly if it changes logs. -/
theorem length_earlier_mutate (store : MemoryStore) (mutation : Mutation) :
    (store.mutate mutation).earlier.length =
      store.earlier.length + if mutation.changesLogs then 1 else 0 := by
  cases mutation with
  | put | append | remove => exact List.length_append
  | setLocation | forgetLocation | setAvailable => rfl

/-- Several mutations add as many revisions as there are among them that change logs. -/
theorem length_earlier_mutateAll (store : MemoryStore) (mutations : List Mutation) :
    (store.mutateAll mutations).earlier.length =
      store.earlier.length + mutations.countP Mutation.changesLogs := by
  induction mutations generalizing store with
  | nil => rfl
  | cons mutation rest step =>
      rw [mutateAll, List.foldl_cons, ← mutateAll, step, length_earlier_mutate, List.countP_cons]
      omega

/-- Only one mutation makes a store unavailable. -/
theorem available_mutate (on : store.available = true) (steady : mutation ≠ .setAvailable false) :
    (store.mutate mutation).available = true := by
  cases mutation with
  | setAvailable available =>
      cases available with
      | true => rfl
      | false => exact absurd rfl steady
  | _ => exact on

/-- A store stays available without that mutation. -/
theorem available_mutateAll (on : store.available = true)
    (steady : ∀ mutation ∈ mutations, mutation ≠ .setAvailable false) :
    (store.mutateAll mutations).available = true := by
  induction mutations generalizing store with
  | nil => exact on
  | cons mutation rest step =>
      exact step (available_mutate on (steady mutation List.mem_cons_self))
        fun other member => steady other (List.mem_cons_of_mem _ member)

/-- A revision that was recorded stays recorded as it was. -/
theorem recorded_mutateAll {revision : String} {snapshot : Snapshot}
    (found : store.recorded revision = some snapshot) (mutations : List Mutation) :
    (store.mutateAll mutations).recorded revision = some snapshot := by
  induction mutations generalizing store with
  | nil => exact found
  | cons mutation rest step => exact step (recorded_mutate found mutation)

/-- A listing stays as it is whatever is changed, as long as the store is not switched off. -/
theorem listItems_mutateAll {revision : String} {listed : List Blob}
    (answered : store.answers.listItems revision = .ok listed)
    (steady : ∀ mutation ∈ mutations, mutation ≠ .setAvailable false) :
    (store.mutateAll mutations).answers.listItems revision = .ok listed := by
  obtain ⟨on, snapshot, recorded, rfl⟩ := listItems_eq_ok_iff.mp answered
  exact listItems_eq_ok_iff.mpr
    ⟨available_mutateAll on steady, snapshot, recorded_mutateAll recorded mutations, rfl⟩

/-- A store that is on lists every revision up to its current one. -/
theorem listItems_revisionName (on : store.available = true) {number : Nat}
    (made : number ≤ store.earlier.length) (small : number < Nat.pow 2 64) :
    ∃ listed, store.answers.listItems (revisionName number) = .ok listed := by
  have inside : number < (store.earlier ++ [store.current]).length := by
    rw [List.length_append, List.length_singleton]
    exact Nat.lt_succ_of_le made
  have recorded : store.recorded (revisionName number) =
      some (store.earlier ++ [store.current])[number] := by
    rw [recorded, revisionNumber?_revisionName, if_pos small, Option.bind_some,
      List.getElem?_eq_getElem inside]
  exact ⟨_, listItems_eq_ok_iff.mpr ⟨on, _, recorded, rfl⟩⟩

/-- **The history of a store can be patched.** A store that is changed and not switched off has a
revision for every change of a log, and lists all of them. Between two listings, in either order, it
tells the same keys that differ, none exactly if the listings are the same, and no others than those
that differ between one of them and a third. Without these keys, and with the logs that the store
fetches for them, the one listing is the other. Whatever is changed later, a listing stays as it
is. -/
theorem history_patched (mutations : List Mutation)
    (steady : ∀ mutation ∈ mutations, mutation ≠ .setAvailable false) :
    let store := new.mutateAll mutations
    let made := mutations.countP Mutation.changesLogs
    store.currentName = revisionName made ∧
      (∀ number ≤ made, number < Nat.pow 2 64 →
        ∃ listed, store.answers.listItems (revisionName number) = .ok listed) ∧
      ∀ first second before after, store.answers.listItems first = .ok before →
        store.answers.listItems second = .ok after →
          (∃ changed fetched, store.answers.changedItems first second = .ok changed ∧
            store.answers.changedItems second first = .ok changed ∧
            (changed.isEmpty = true ↔ before = after) ∧
            store.answers.fetchItems second changed = .ok fetched ∧
            patched before changed fetched = after ∧
            ∀ third between, store.answers.listItems third = .ok between →
              ∃ here there, store.answers.changedItems first third = .ok here ∧
                store.answers.changedItems third second = .ok there ∧
                ∀ key, changed.contains key = true → (here.union there).contains key = true) ∧
          ∀ later, (∀ mutation ∈ later, mutation ≠ .setAvailable false) →
            (store.mutateAll later).answers.listItems first = .ok before := by
  intro store made
  have count : store.earlier.length = made := by
    rw [length_earlier_mutateAll]
    exact Nat.zero_add made
  have on : store.available = true := available_mutateAll rfl steady
  refine ⟨congrArg revisionName count, fun number below small =>
    listItems_revisionName on (count ▸ below) small, ?_⟩
  intro first second before after firstListed secondListed
  refine ⟨?_, fun later quiet => listItems_mutateAll firstListed quiet⟩
  obtain ⟨-, old, oldRecorded, rfl⟩ := listItems_eq_ok_iff.mp firstListed
  obtain ⟨-, current, currentRecorded, rfl⟩ := listItems_eq_ok_iff.mp secondListed
  have differ {since revision : String} {old new : Snapshot}
      (oldRecorded : store.recorded since = some old)
      (newRecorded : store.recorded revision = some new) :
      store.answers.changedItems since revision = .ok (old.differences new) :=
    changedItems_eq_ok_iff.mpr ⟨on, old, new, oldRecorded, newRecorded, rfl⟩
  refine ⟨old.differences current, _, differ oldRecorded currentRecorded, ?_, ?_,
    fetchItems_eq_ok_iff.mpr ⟨on, current, currentRecorded, rfl⟩, patched_blobs old current, ?_⟩
  · rw [TextMap.differences_comm]
    exact differ currentRecorded oldRecorded
  · rw [TextMap.isEmpty_differences_iff, blobs_inj]
  · intro third between thirdListed
    obtain ⟨-, middle, middleRecorded, -⟩ := listItems_eq_ok_iff.mp thirdListed
    exact ⟨_, _, differ oldRecorded middleRecorded, differ middleRecorded currentRecorded,
      fun key => TextMap.contains_differences_union middle⟩

/-- A log that is removed and written again with its old text does not differ, and one that is
appended to does. -/
theorem history_patched_of_rewritten :
    let mutations : List Mutation := [.put "a" "1s title +One" ⟨"a.mp3", true⟩,
      .put "b" "1s title +Two\n" ⟨"b.mp3", true⟩, .remove "a", .append "b" "2s genre +Dub",
      .put "a" "1s title +One" ⟨"a.mp3", true⟩]
    let store := new.mutateAll mutations
    (∀ mutation ∈ mutations, mutation ≠ .setAvailable false) ∧ store.currentName = "r5" ∧
      ∃ before after changed fetched, store.answers.listItems "r2" = .ok before ∧
        store.answers.listItems "r5" = .ok after ∧
        store.answers.changedItems "r2" "r5" = .ok changed ∧ changed.toList = ["b"] ∧
        store.answers.fetchItems "r5" changed = .ok fetched ∧
        patched before changed fetched = after := by
  intro mutations store
  have steady : ∀ mutation ∈ mutations, mutation ≠ .setAvailable false := by decide
  obtain ⟨-, listed, patches⟩ := history_patched mutations steady
  obtain ⟨before, first⟩ := listed 2 (by decide) (by decide)
  obtain ⟨after, second⟩ := listed 5 (by decide) (by decide)
  obtain ⟨⟨changed, fetched, differ, -, -, obtained, whole, -⟩, -⟩ :=
    patches _ _ before after first second
  have keys : (store.answers.changedItems "r2" "r5").toOption.map TextSet.toList = some ["b"] := by
    decide +kernel
  have rewritten : changed.toList = ["b"] := by
    change store.answers.changedItems "r2" "r5" = .ok changed at differ
    rw [differ] at keys
    exact Option.some.inj keys
  exact ⟨steady, by decide +kernel, before, after, changed, fetched, first, second, differ,
    rewritten, obtained, whole⟩

end MemoryStore

end AnnexCatalog
