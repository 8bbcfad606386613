import AnnexCatalog.Cache.File
import AnnexCatalog.Proofs.Catalog.Steps
import AnnexCatalog.Store.Memory

/-! # Recovery from an unusable cache

An operation on the cache in a file is followed through all its attempts (`CacheFile.course`), each
of which may act on all that the earlier ones have seen. There is a second attempt only where the
first found the cache unusable and a new cache could be made, and there is never a third
(`Course.RecoversOnce`). Without the record of the attempts, this is what `CacheFile.withCache`
does.
-/

namespace AnnexCatalog.CacheFile

/-- One run of an operation: the contents that it found, those it left, and its outcome. -/
structure Attempt (α : Type) where
  found : Contents
  left : Contents
  outcome : Except Failure α

/-- An operation on an open cache. Whatever it keeps in mind is a function of its earlier runs. -/
abbrev Operation (α : Type) := (earlier : List (Attempt α)) → Contents → Contents × Except Failure α

/-- The attempts of an operation on a cache, the file that they leave and what is answered. -/
structure Course (α : Type) where
  attempts : List (Attempt α)
  file : CacheFile
  answer : Except Failure α

variable {α : Type} {now : Nat} {store : Option LogStore} {operation : Operation α}
  {file : CacheFile}

/-- The operation has failed in such a way that the cache has to be made anew. -/
def Attempt.Unusable (attempt : Attempt α) : Prop :=
  ∃ failure, attempt.outcome = .error failure ∧ failure.requiresRebuild = true

/-- The course that ends with an attempt. -/
def Attempt.conclude (attempt : Attempt α) (earlier : List (Attempt α)) : Course α :=
  ⟨earlier ++ [attempt], holding attempt.left, attempt.outcome⟩

/-- An action, which only counts its earlier runs, does in some attempts what an operation does. -/
def Action.Follows (action : Action α) (operation : Operation α) (attempts : List (Attempt α)) :
    Prop :=
  ∀ earlier attempt later, attempts = earlier ++ attempt :: later →
    action earlier.length attempt.found = operation earlier attempt.found

namespace Operation

/-- The run of an operation after earlier ones. -/
def attempt (operation : Operation α) (earlier : List (Attempt α)) (found : Contents) :
    Attempt α :=
  ⟨found, (operation earlier found).1, (operation earlier found).2⟩

/-- Every attempt is a run of the operation that knows those before it. -/
def Genuine (operation : Operation α) (attempts : List (Attempt α)) : Prop :=
  ∀ earlier attempt later, attempts = earlier ++ attempt :: later →
    attempt = operation.attempt earlier attempt.found

/-- The course after an attempt that found the cache unusable: the cache is made anew, from a store
if there is one, and the operation is run again. -/
def again (operation : Operation α) (now : Nat) (first : Attempt α) : Option LogStore → Course α
  | none => (operation.attempt [first] .fresh).conclude [first]
  | some store =>
      let run := Contents.fresh.build now store
      match run.outcome with
      | .error failure => ⟨[first], holding run.contents, .error failure⟩
      | .ok _ => (operation.attempt [first] run.contents).conclude [first]

end Operation

/-- The course of an operation on the cache in a file. -/
def course (now : Nat) (store : Option LogStore) (operation : Operation α) (file : CacheFile) :
    Course α :=
  match file.openOrReset with
  | .error failure => ⟨[], file, .error failure⟩
  | .ok (contents, _) =>
      let first := operation.attempt [] contents
      match first.outcome with
      | .ok _ => first.conclude []
      | .error failure =>
          if failure.requiresRebuild then operation.again now first store else first.conclude []

/-! ### What a course comes to -/

/-- A file that is no database, or has another schema version. -/
def Useless : CacheFile → Prop
  | .foreign => True
  | .database version _ => version ≠ 0 ∧ version ≠ schemaVersion
  | _ => False

/-- The contents against which an operation is first run; none where the file cannot be opened. -/
def contents? : CacheFile → Option Contents
  | .missing | .foreign => some .fresh
  | .folder | .unreachable => none
  | .database version contents =>
      some (if version = 0 ∨ version = schemaVersion then contents else .fresh)

/-- A cache made anew: the empty one without a store, and otherwise the one that is built from
nothing, at the current revision of the store. -/
def MadeAnew (now : Nat) : Option LogStore → Contents → Prop
  | none, contents => contents = .fresh
  | some store, contents => ∃ summary,
      (Catalog.empty.build now store).outcome = .ok summary ∧
        store.currentRevision = .ok summary.revision ∧
        contents = .sound (Catalog.empty.build now store).catalog ∧
        (Catalog.empty.build now store).catalog.state =
          some ⟨summary.revision, now, summary.itemCount⟩

/-- How a course ends. -/
inductive Ending (now : Nat) (store : Option LogStore) (file : CacheFile) : Course α → Prop
  /-- The file cannot be opened, and making it anew would not help: it is left as it is. -/
  | unopened {failure : Failure} (refused : file.openCache = .error failure)
      (lasting : failure.requiresRebuild = false) : Ending now store file ⟨[], file, .error failure⟩
  /-- The first attempt did not find the cache unusable: its outcome is the answer. -/
  | once {only : Attempt α} (usable : ¬ only.Unusable) :
      Ending now store file ⟨[only], holding only.left, only.outcome⟩
  /-- The cache cannot be built anew, and is left empty. -/
  | unbuilt {only : Attempt α} {source : LogStore} {fault : StoreFault} (unusable : only.Unusable)
      (given : store = some source)
      (failed : (Catalog.empty.build now source).outcome = .error fault) :
      Ending now store file ⟨[only], holding .fresh, .error (.store fault)⟩
  /-- The second attempt was made on a new cache: its outcome is the answer, whatever it is. -/
  | twice {first second : Attempt α} (unusable : first.Unusable)
      (anew : MadeAnew now store second.found) :
      Ending now store file ⟨[first, second], holding second.left, second.outcome⟩

/-- An operation is run, and run once more where that helps. -/
structure Course.RecoversOnce (course : Course α) (now : Nat) (store : Option LogStore)
    (operation : Operation α) (file : CacheFile) : Prop where
  /-- The file is made anew beforehand if it is useless, and otherwise opened as it is. -/
  opened : ∀ contents, file.contents? = some contents →
    ∃ reset, file.openOrReset = .ok (contents, reset) ∧ (reset = true ↔ file.Useless)
  /-- The first attempt is against the contents of the file. -/
  first : course.attempts.head?.map Attempt.found = file.contents?
  genuine : operation.Genuine course.attempts
  atMostTwo : course.attempts.length ≤ 2
  ending : Ending now store file course

/-! ### Opening -/

/-- A file that cannot be opened is refused for good; any other is opened, after a reset if it is
useless. -/
theorem openOrReset_cases (file : CacheFile) :
    (∃ failure, file.openOrReset = .error failure ∧ file.openCache = .error failure ∧
        failure.requiresRebuild = false ∧ file.contents? = none) ∨
      ∃ contents reset, file.openOrReset = .ok (contents, reset) ∧
        file.contents? = some contents ∧ (reset = true ↔ file.Useless) := by
  cases file with
  | missing => exact .inr ⟨.fresh, false, rfl, rfl, by simp [Useless]⟩
  | foreign => exact .inr ⟨.fresh, true, rfl, rfl, by simp [Useless]⟩
  | folder => exact .inl ⟨.database, rfl, rfl, rfl, rfl⟩
  | unreachable => exact .inl ⟨.io, rfl, rfl, rfl, rfl⟩
  | database version contents =>
      right
      by_cases current : version = 0 ∨ version = schemaVersion
      · refine ⟨contents, false, ?_, congrArg some (if_pos current), ?_⟩
        · simp only [openOrReset, openCache, if_pos current]
        · simp only [Useless, Bool.false_eq_true, false_iff]
          exact fun other => current.elim other.1 other.2
      · refine ⟨.fresh, true, ?_, congrArg some (if_neg current), ?_⟩
        · simp only [openOrReset, openCache, if_neg current, Failure.requiresRebuild, ↓reduceIte]
        · simp only [Useless, true_iff]
          exact not_or.mp current

/-! ### Attempts -/

/-- An attempt that fails is unusable if its failure asks for a rebuild. -/
theorem unusable_iff {attempt : Attempt α} {failure : Failure}
    (failed : attempt.outcome = .error failure) :
    attempt.Unusable ↔ failure.requiresRebuild = true := by
  constructor
  · rintro ⟨other, outcome, unusable⟩
    cases failed.symm.trans outcome
    exact unusable
  · exact fun unusable => ⟨failure, failed, unusable⟩

theorem not_unusable_of_ok {attempt : Attempt α} {value : α}
    (finished : attempt.outcome = .ok value) : ¬ attempt.Unusable := by
  rintro ⟨failure, outcome, -⟩
  cases finished.symm.trans outcome

/-- A build from nothing leaves the empty catalog if it fails. -/
theorem contents_build_fresh (now : Nat) (store : LogStore) :
    (∃ fault, (Catalog.empty.build now store).outcome = .error fault ∧
        (Contents.fresh.build now store).outcome = .error (.store fault) ∧
        (Contents.fresh.build now store).contents = .fresh) ∨
      ∃ summary, (Contents.fresh.build now store).outcome = .ok summary ∧
        MadeAnew now (some store) (Contents.fresh.build now store).contents := by
  cases read : (Catalog.readAll store).outcome with
  | error fault =>
      left
      have idle := Catalog.build_of_refused Catalog.empty now read
      refine ⟨fault, ?_⟩
      simp only [Contents.fresh, Contents.build, Contents.ofRun, idle, Run.outcome_idle,
        Run.catalog_idle, Except.mapError, and_self]
  | ok answers =>
      right
      obtain ⟨revision, blobs, locations⟩ := answers
      obtain ⟨current, -, -⟩ := Catalog.readAll_eq_ok_iff.mp read
      have built := Catalog.build_of_read Catalog.empty now read
      let count := (TextSet.ofTexts (blobs.map Blob.key)).toList.length
      let summary : BuildSummary := ⟨revision, count, Catalog.warningsOf blobs⟩
      refine ⟨summary, ?_, summary, ?_, current, rfl, ?_⟩
      · simp only [Contents.fresh, Contents.build, Contents.ofRun, built, Run.outcome_writing,
          Except.mapError]
        rfl
      · rw [built, Run.outcome_writing]
      · rw [built]
        rfl

/-- After an attempt that found the cache unusable, the operation is run again on a new cache, or
the new cache cannot be built. -/
theorem again_cases (operation : Operation α) (now : Nat) (first : Attempt α)
    (store : Option LogStore) :
    (∃ source fault, store = some source ∧
        (Catalog.empty.build now source).outcome = .error fault ∧
        operation.again now first store = ⟨[first], holding .fresh, .error (.store fault)⟩) ∨
      ∃ found, MadeAnew now store found ∧
        operation.again now first store = (operation.attempt [first] found).conclude [first] := by
  cases store with
  | none => exact .inr ⟨.fresh, rfl, rfl⟩
  | some source =>
      rcases contents_build_fresh now source with
        ⟨fault, failed, outcome, left⟩ | ⟨_, outcome, anew⟩
      · refine .inl ⟨source, fault, rfl, failed, ?_⟩
        simp only [Operation.again, outcome, left]
      · refine .inr ⟨_, anew, ?_⟩
        simp only [Operation.again, outcome]

theorem genuine_nil (operation : Operation α) : operation.Genuine [] :=
  fun _ _ _ split => absurd split.symm (List.append_ne_nil_of_right_ne_nil _ (List.cons_ne_nil _ _))

/-- One more run of the operation keeps the attempts genuine. -/
theorem Operation.Genuine.concat {attempts : List (Attempt α)}
    (genuine : operation.Genuine attempts) (found : Contents) :
    operation.Genuine (attempts ++ [operation.attempt attempts found]) := by
  intro earlier attempt later split
  rcases List.eq_nil_or_concat later with rfl | ⟨before, last, rfl⟩
  · obtain ⟨rfl, same⟩ := List.append_inj' split rfl
    cases same
    rfl
  · rw [List.concat_eq_append, ← List.cons_append, ← List.append_assoc] at split
    exact genuine earlier attempt before (List.append_inj' split rfl).1

/-! ### Every course -/

/-- The course on a file that was opened: the first attempt ends it unless it found the cache
unusable. -/
theorem course_of_opened (now : Nat) (store : Option LogStore) (operation : Operation α)
    {contents : Contents} {reset : Bool} (opened : file.openOrReset = .ok (contents, reset)) :
    let first := operation.attempt [] contents
    (first.Unusable ∧ file.course now store operation = operation.again now first store) ∨
      ¬ first.Unusable ∧ file.course now store operation = first.conclude [] := by
  intro first
  unfold course
  rw [opened]
  dsimp only
  cases outcome : (operation.attempt [] contents).outcome with
  | ok value => exact .inr ⟨not_unusable_of_ok outcome, rfl⟩
  | error failure =>
      by_cases unusable : failure.requiresRebuild = true
      · exact .inl ⟨(unusable_iff outcome).mpr unusable, if_pos unusable⟩
      · exact .inr ⟨fun found => unusable ((unusable_iff outcome).mp found), if_neg unusable⟩

/-- The first attempt is made on what was opened. -/
theorem exists_attempts_course (now : Nat) (store : Option LogStore) (operation : Operation α)
    {contents : Contents} {reset : Bool} (opened : file.openOrReset = .ok (contents, reset)) :
    ∃ later, (file.course now store operation).attempts =
      operation.attempt [] contents :: later := by
  rcases course_of_opened now store operation opened with ⟨-, course⟩ | ⟨-, course⟩
  · rw [course]
    rcases again_cases operation now (operation.attempt [] contents) store with
      ⟨_, _, -, -, again⟩ | ⟨_, -, again⟩
    · exact ⟨[], by rw [again]⟩
    · exact ⟨_, by rw [again]; rfl⟩
  · exact ⟨[], by rw [course]; rfl⟩

/-- The cache is recovered if the first attempt is unusable, and else left as the attempt leaves it.
-/
theorem withCache_of_opened (now : Nat) (store : Option LogStore) {action : Action α}
    {contents : Contents} {reset : Bool} (opened : file.openOrReset = .ok (contents, reset))
    {first : Attempt α} (run : action 0 contents = (first.left, first.outcome)) :
    (first.Unusable → file.withCache now store action =
        (holding (recover now store action).1, (recover now store action).2)) ∧
      (¬ first.Unusable → file.withCache now store action =
        (holding first.left, first.outcome)) := by
  unfold withCache
  rw [opened]
  dsimp only
  rw [run]
  cases outcome : first.outcome with
  | ok value => exact ⟨fun unusable => absurd unusable (not_unusable_of_ok outcome), fun _ => rfl⟩
  | error failure =>
      rw [unusable_iff outcome]
      constructor
      · intro unusable
        simp only [unusable, ↓reduceIte]
      · intro usable
        simp only [usable, Bool.false_eq_true, ↓reduceIte]

/-- A recovery makes what a second attempt makes. -/
theorem recover_eq_again {action : Action α} {first : Attempt α}
    (follows : action.Follows operation (operation.again now first store).attempts) :
    (holding (recover now store action).1, (recover now store action).2) =
      ((operation.again now first store).file, (operation.again now first store).answer) := by
  have second {found : Contents} (again : operation.again now first store =
      (operation.attempt [first] found).conclude [first]) :
      action 1 found = operation [first] found :=
    follows [first] (operation.attempt [first] found) [] (by rw [again]; rfl)
  cases store with
  | none =>
      rw [recover, second rfl]
      rfl
  | some source =>
      unfold recover Operation.again
      dsimp only
      cases built : (Contents.fresh.build now source).outcome with
      | error failure => rfl
      | ok summary =>
          dsimp only
          rw [second (by simp only [Operation.again, built])]
          rfl

/-- The record of the attempts does not change what is done. -/
theorem withCache_eq_course {action : Action α}
    (follows : action.Follows operation (file.course now store operation).attempts) :
    file.withCache now store action =
      ((file.course now store operation).file, (file.course now store operation).answer) := by
  rcases file.openOrReset_cases with ⟨failure, refused, -⟩ | ⟨contents, reset, opened, -⟩
  · unfold withCache course
    rw [refused]
  · obtain ⟨later, begins⟩ := exists_attempts_course now store operation opened
    obtain ⟨retried, final⟩ := withCache_of_opened now store opened
      (show action 0 contents = ((operation.attempt [] contents).left, _) from
        follows [] (operation.attempt [] contents) later begins)
    rcases course_of_opened now store operation opened with ⟨unusable, course⟩ | ⟨usable, course⟩
    · rw [course] at follows ⊢
      rw [retried unusable, recover_eq_again follows]
    · rw [final usable, course]
      rfl

/-- **An operation recovers once from an unusable cache.** On any cache file, with or without a
store, and for any operation: a usable file is opened as it is, and a useless one is made anew. The
operation is run at most twice. If its first run finds the cache unusable, it is run again on a new
cache, or the new cache cannot be built and that is the answer. Otherwise the answer is that of the
last run, and the file holds what that run has left. -/
theorem withCache_recovers_once (now : Nat) (store : Option LogStore) (operation : Operation α)
    (file : CacheFile) :
    let course := file.course now store operation
    course.RecoversOnce now store operation file ∧
      ∀ action : Action α, action.Follows operation course.attempts →
        file.withCache now store action = (course.file, course.answer) := by
  refine ⟨?_, fun action => withCache_eq_course⟩
  rcases file.openOrReset_cases with
    ⟨failure, refused, unopened, lasting, none⟩ | ⟨contents, reset, opened, found, useless⟩
  · have course : file.course now store operation = ⟨[], file, .error failure⟩ := by
      unfold CacheFile.course
      rw [refused]
    rw [course]
    refine ⟨fun contents found => ?_, none.symm, genuine_nil operation, Nat.zero_le _,
      .unopened unopened lasting⟩
    cases none.symm.trans found
  · have asFound : ∀ other, file.contents? = some other →
        ∃ reset, file.openOrReset = .ok (other, reset) ∧ (reset = true ↔ file.Useless) := by
      intro other same
      cases found.symm.trans same
      exact ⟨reset, opened, useless⟩
    have once : operation.Genuine [operation.attempt [] contents] :=
      (genuine_nil operation).concat contents
    rcases course_of_opened now store operation opened with ⟨unusable, course⟩ | ⟨usable, course⟩
    · rcases again_cases operation now (operation.attempt [] contents) store with
        ⟨source, fault, given, failed, again⟩ | ⟨renewed, anew, again⟩
      · rw [course, again]
        exact ⟨asFound, found.symm, once, Nat.le_succ 1, .unbuilt unusable given failed⟩
      · rw [course, again]
        exact ⟨asFound, found.symm, once.concat renewed, Nat.le_refl 2, .twice unusable anew⟩
    · rw [course]
      exact ⟨asFound, found.symm, once, Nat.le_succ 1, .once usable⟩

/-- A file with another schema version is made anew; the first attempt leaves it damaged, and the
second one counts the items that have been built. Where the store is switched off there is no second
attempt. -/
theorem withCache_recovers_once_of_corrupt :
    let store := MemoryStore.new.put "k" "1s title +One" ⟨"a.mp3", true⟩
    let action : Action Nat := fun earlier contents =>
      if earlier = 0 then (.damaged, .error .corrupt)
      else (contents, contents.read.map Catalog.size)
    let operation : Operation Nat := fun earlier => action earlier.length
    let file : CacheFile := .database 7 .damaged
    let course := file.course 5 (some store.answers) operation
    let offline := file.course 5 (some (store.setAvailable false).answers) operation
    course.attempts.length = 2 ∧ course.answer.toOption = some 1 ∧
      course.RecoversOnce 5 (some store.answers) operation file ∧
      file.withCache 5 (some store.answers) action = (course.file, course.answer) ∧
      offline.attempts.length = 1 ∧ offline.answer.toOption = none := by
  intro store action operation file course offline
  obtain ⟨recovers, same⟩ := withCache_recovers_once 5 (some store.answers) operation file
  exact ⟨by decide +kernel, by decide +kernel, recovers, same action fun _ _ _ _ => rfl,
    by decide +kernel, by decide +kernel⟩

end AnnexCatalog.CacheFile
