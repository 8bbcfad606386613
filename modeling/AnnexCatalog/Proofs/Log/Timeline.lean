import AnnexCatalog.Log.Replay

/-! # The order of time in a log

Operations stand at places: the number of their entry in the log and their number in the entry. A
place precedes another one in time when its entry is earlier, and among entries of one time in the
order of the log. The order is stated on places alone; sorting the entries by their timestamps puts
all operations in it (`timeline_pairwise`, `replay_eq_foldl_timeline`).
-/

namespace AnnexCatalog

/-- Whether a point in time lies before another. -/
def Timestamp.Before (first second : Timestamp) : Prop :=
  first.seconds < second.seconds ∨
    (first.seconds = second.seconds ∧ first.nanoseconds < second.nanoseconds)

namespace Timestamp

instance (first second : Timestamp) : Decidable (first.Before second) :=
  inferInstanceAs (Decidable (_ ∨ _))

/-- A time is not after another if it is before it or the same. -/
theorem notAfter_iff (first second : Timestamp) :
    first.notAfter second = true ↔ first.Before second ∨ first = second := by
  obtain ⟨seconds, nanoseconds⟩ := first
  obtain ⟨otherSeconds, otherNanoseconds⟩ := second
  simp only [notAfter, Before, Bool.or_eq_true, decide_eq_true_eq, Bool.and_eq_true, beq_iff_eq,
    Timestamp.mk.injEq]
  omega

theorem notAfter_trans (first second third : Timestamp) (left : first.notAfter second = true)
    (right : second.notAfter third = true) : first.notAfter third = true := by
  simp only [notAfter, Bool.or_eq_true, decide_eq_true_eq, Bool.and_eq_true, beq_iff_eq] at *
  omega

theorem notAfter_total (first second : Timestamp) :
    (first.notAfter second || second.notAfter first) = true := by
  simp only [notAfter, Bool.or_eq_true, decide_eq_true_eq, Bool.and_eq_true, beq_iff_eq]
  omega

end Timestamp

namespace Log

/-- A place of an operation: the number of its entry and its number in the entry. -/
structure Place where
  entry : Nat
  step : Nat
deriving DecidableEq, Repr

/-- The operation at a place. -/
def operationAt? (entries : List Entry) (place : Place) : Option Operation :=
  entries[place.entry]?.bind fun entry => entry.operations[place.step]?

/-- Whether one place comes before another in the order of time: its entry is earlier, or of the
same time and before in the log, or it stands before the other in the same entry. -/
def Place.Precedes (entries : List Entry) (first second : Place) : Prop :=
  ∃ earlier later, entries[first.entry]? = some earlier ∧ entries[second.entry]? = some later ∧
    (earlier.timestamp.Before later.timestamp ∨ (earlier.timestamp = later.timestamp ∧
      (first.entry < second.entry ∨
        (first.entry = second.entry ∧ first.step < second.step))))

/-- No two places come before each other. -/
theorem Place.Precedes.asymm {entries : List Entry} {first second : Place}
    (before : first.Precedes entries second) : ¬ second.Precedes entries first := by
  rintro ⟨later, earlier, foundLater, foundEarlier, backward⟩
  obtain ⟨earlier', later', foundEarlier', foundLater', forward⟩ := before
  cases foundEarlier.symm.trans foundEarlier'
  cases foundLater.symm.trans foundLater'
  unfold Timestamp.Before at forward backward
  rcases forward with less | ⟨same, less⟩
  · rcases backward with more | ⟨equal, more⟩
    · omega
    · rw [equal] at less
      omega
  · rw [same] at backward
    omega

/-- The entries with their numbers, in the order of time. -/
def ordered (entries : List Entry) : List (Entry × Nat) :=
  entries.zipIdx.mergeSort
    (List.zipIdxLE fun first second => first.timestamp.notAfter second.timestamp)

/-- The operations with their places, in the order of time. -/
def timeline (entries : List Entry) : List (Place × Operation) :=
  (ordered entries).flatMap fun (entry, number) =>
    entry.operations.zipIdx.map fun (operation, step) => (⟨number, step⟩, operation)

/-- Entries are ordered by their times, and entries of one time as they are listed. -/
theorem map_fst_ordered (entries : List Entry) :
    (ordered entries).map Prod.fst =
      entries.mergeSort fun first second => first.timestamp.notAfter second.timestamp :=
  List.mergeSort_zipIdx

/-- Ordered entries keep their numbers. -/
theorem mem_ordered_iff (entries : List Entry) (entry : Entry) (number : Nat) :
    (entry, number) ∈ ordered entries ↔ entries[number]? = some entry := by
  rw [ordered, List.mem_mergeSort, List.mem_zipIdx_iff_getElem?]

/-- The timeline has every operation at its place. -/
theorem mem_timeline_iff (entries : List Entry) (place : Place) (operation : Operation) :
    (place, operation) ∈ timeline entries ↔ operationAt? entries place = some operation := by
  simp only [timeline, operationAt?, List.mem_flatMap, List.mem_map, Prod.exists,
    mem_ordered_iff, List.mem_zipIdx_iff_getElem?, Option.bind_eq_some_iff, Prod.mk.injEq]
  constructor
  · rintro ⟨entry, number, found, other, step, stands, rfl, rfl⟩
    exact ⟨entry, found, stands⟩
  · rintro ⟨entry, found, stands⟩
    exact ⟨entry, place.entry, found, operation, place.step, stands, rfl, rfl⟩

/-- A replay applies the operations in the order of time. -/
theorem replay_eq_foldl_operations (entries : List Entry) :
    replay entries =
      ((entries.mergeSort fun first second =>
        first.timestamp.notAfter second.timestamp).flatMap Entry.operations).foldl
          Operation.apply TextMap.empty := by
  rw [List.foldl_flatMap]
  rfl

/-- Replaying applies the operations in the order of time. -/
theorem replay_eq_foldl_timeline (entries : List Entry) :
    replay entries =
      ((timeline entries).map Prod.snd).foldl Operation.apply TextMap.empty := by
  have operations : (timeline entries).map Prod.snd =
      ((ordered entries).map Prod.fst).flatMap Entry.operations := by
    rw [timeline, List.map_flatMap, List.flatMap_map]
    congr 1
    funext ⟨entry, number⟩
    rw [List.map_map]
    exact List.zipIdx_map_fst 0 entry.operations
  rw [operations, map_fst_ordered, replay_eq_foldl_operations]

/-- Entries in order are earlier, or of the same time and before in the log. -/
theorem ordered_pairwise (entries : List Entry) :
    (ordered entries).Pairwise fun first second =>
      first.1.timestamp.Before second.1.timestamp ∨
        (first.1.timestamp = second.1.timestamp ∧ first.2 < second.2) := by
  have sorted := List.pairwise_mergeSort
    (List.zipIdxLE_trans fun first second third : Entry =>
      Timestamp.notAfter_trans first.timestamp second.timestamp third.timestamp)
    (List.zipIdxLE_total fun first second : Entry =>
      Timestamp.notAfter_total first.timestamp second.timestamp) entries.zipIdx
  have distinct : (ordered entries).Pairwise fun first second => first.2 ≠ second.2 := by
    apply List.pairwise_map.mp
    apply ((List.mergeSort_perm entries.zipIdx _).map Prod.snd).nodup_iff.mpr
    rw [List.zipIdx_map_snd]
    exact List.nodup_range'
  refine (sorted.and distinct).imp ?_
  rintro ⟨first, number⟩ ⟨second, other⟩ ⟨before, different⟩
  simp only [List.zipIdxLE] at before
  split at before
  · next notAfter =>
      rcases (Timestamp.notAfter_iff _ _).mp notAfter with earlier | same
      · exact .inl earlier
      · have back := (Timestamp.notAfter_iff second.timestamp first.timestamp).mpr (.inr same.symm)
        rw [if_pos back, decide_eq_true_eq] at before
        exact .inr ⟨same, Nat.lt_of_le_of_ne before different⟩
  · cases before

/-- The timeline is in the order of time. -/
theorem timeline_pairwise (entries : List Entry) :
    (timeline entries).Pairwise fun first second => first.1.Precedes entries second.1 := by
  rw [timeline, List.pairwise_flatMap]
  constructor
  · rintro ⟨entry, number⟩ member
    have found := (mem_ordered_iff entries entry number).mp member
    rw [List.pairwise_map]
    have steps : entry.operations.zipIdx.Pairwise fun first second => first.2 < second.2 := by
      apply List.pairwise_map.mp
      rw [List.zipIdx_map_snd]
      exact List.pairwise_lt_range'
    refine steps.imp ?_
    intro first second before
    exact ⟨entry, entry, found, found, .inr ⟨rfl, .inr ⟨rfl, before⟩⟩⟩
  · refine (ordered_pairwise entries).imp_of_mem ?_
    rintro ⟨first, number⟩ ⟨second, other⟩ firstMember secondMember before
    have foundFirst := (mem_ordered_iff entries first number).mp firstMember
    have foundSecond := (mem_ordered_iff entries second other).mp secondMember
    intro left leftMember right rightMember
    obtain ⟨_, _, rfl⟩ := List.mem_map.mp leftMember
    obtain ⟨_, _, rfl⟩ := List.mem_map.mp rightMember
    refine ⟨first, second, foundFirst, foundSecond, ?_⟩
    exact before.imp_right fun ⟨same, less⟩ => ⟨same, .inl less⟩

end Log

end AnnexCatalog
