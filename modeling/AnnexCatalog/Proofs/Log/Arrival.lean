import AnnexCatalog.Proofs.Log.Rejections
import AnnexCatalog.Store.Memory

/-! # The order in which lines arrive

Entries in the order of time are determined by the entries of each time, and bringing entries into
that order keeps those of one time as they stand (`chronological_congr`). So a log says the same in
whatever order its lines arrive, as long as those of one time do not change places, and what is
appended to it and is not earlier goes on from what it says (`decode_of_arrival`).
-/

namespace AnnexCatalog

theorem Timestamp.notAfter_antisymm {first second : Timestamp}
    (left : first.notAfter second = true) (right : second.notAfter first = true) :
    first = second := by
  rcases (notAfter_iff first second).mp left with before | same
  · rcases (notAfter_iff second first).mp right with after | same
    · unfold Before at before after
      omega
    · exact same.symm
  · exact same

theorem Timestamp.notAfter_of_not_before {first second : Timestamp}
    (following : ¬ second.Before first) : first.notAfter second = true := by
  rcases Bool.or_eq_true_iff.mp (notAfter_total first second) with forward | backward
  · exact forward
  · rcases (notAfter_iff second first).mp backward with before | same
    · exact absurd before following
    · exact (notAfter_iff first second).mpr (.inr same.symm)

namespace Log

open Text

/-! ### The order of time -/

/-- The entries in the order of time, and those of one time in the given order. -/
def chronological (entries : List Entry) : List Entry :=
  entries.mergeSort fun first second => first.timestamp.notAfter second.timestamp

def IsChronological (entries : List Entry) : Prop :=
  entries.Pairwise fun first second => first.timestamp.notAfter second.timestamp = true

/-- The entries of one time, in the given order. -/
def atTime (time : Timestamp) (entries : List Entry) : List Entry :=
  entries.filter fun entry => entry.timestamp = time

/-- Whether two lists have the same entries of each time, in the same order. -/
def SameAtEachTime (first second : List Entry) : Prop :=
  ∀ time, atTime time first = atTime time second

/-- The entries at a time are those that have it. -/
theorem mem_atTime_iff {time : Timestamp} {entries : List Entry} {entry : Entry} :
    entry ∈ atTime time entries ↔ entry ∈ entries ∧ entry.timestamp = time := by
  rw [atTime, List.mem_filter, decide_eq_true_eq]

theorem atTime_cons_self (entry : Entry) (rest : List Entry) :
    atTime entry.timestamp (entry :: rest) = entry :: atTime entry.timestamp rest :=
  List.filter_cons_of_pos (decide_eq_true rfl)

theorem atTime_cons_of_ne {time : Timestamp} {entry : Entry} (other : entry.timestamp ≠ time)
    (rest : List Entry) : atTime time (entry :: rest) = atTime time rest :=
  List.filter_cons_of_neg (by simpa using other)

/-- The entries at a time of two lists are those of the one, then those of the other. -/
theorem atTime_append (time : Timestamp) (first second : List Entry) :
    atTime time (first ++ second) = atTime time first ++ atTime time second :=
  List.filter_append ..

theorem SameAtEachTime.symm {first second : List Entry} (same : SameAtEachTime first second) :
    SameAtEachTime second first :=
  fun time => (same time).symm

/-- Lists with the same entries at each time have the same entries. -/
theorem SameAtEachTime.mem {first second : List Entry} (same : SameAtEachTime first second)
    {entry : Entry} (member : entry ∈ first) : entry ∈ second := by
  have found : entry ∈ atTime entry.timestamp first := mem_atTime_iff.mpr ⟨member, rfl⟩
  rw [same] at found
  exact (mem_atTime_iff.mp found).1

/-- Without a first entry in common, what is left is the same at each time. -/
theorem SameAtEachTime.of_cons {entry : Entry} {first second : List Entry}
    (same : SameAtEachTime (entry :: first) (entry :: second)) : SameAtEachTime first second := by
  intro time
  have split := same time
  by_cases now : entry.timestamp = time
  · subst now
    rw [atTime_cons_self, atTime_cons_self] at split
    exact (List.cons.inj split).2
  · rwa [atTime_cons_of_ne now, atTime_cons_of_ne now] at split

/-- Only the times that occur have to be compared. -/
theorem sameAtEachTime_iff {first second : List Entry} :
    SameAtEachTime first second ↔ ∀ entry ∈ first ++ second,
      atTime entry.timestamp first = atTime entry.timestamp second := by
  refine ⟨fun same entry _ => same entry.timestamp, fun same time => ?_⟩
  by_cases used : ∃ entry ∈ first ++ second, entry.timestamp = time
  · obtain ⟨entry, member, rfl⟩ := used
    exact same entry member
  · have none {part : List Entry} (within : part ⊆ first ++ second) : atTime time part = [] := by
      refine List.filter_eq_nil_iff.mpr fun entry member => ?_
      simpa using fun same => used ⟨entry, within member, same⟩
    rw [none (List.subset_append_left ..), none (List.subset_append_right ..)]

instance (first second : List Entry) : Decidable (SameAtEachTime first second) :=
  decidable_of_iff _ sameAtEachTime_iff.symm

/-- The entries of a log are put in the order of time. -/
theorem isChronological_chronological (entries : List Entry) :
    IsChronological (chronological entries) :=
  List.pairwise_mergeSort
    (fun first second third => Timestamp.notAfter_trans first.timestamp second.timestamp
      third.timestamp)
    (fun first second => Timestamp.notAfter_total first.timestamp second.timestamp) entries

/-- Entries of one time stay as they stand. -/
theorem sameAtEachTime_chronological (entries : List Entry) :
    SameAtEachTime (chronological entries) entries := by
  intro time
  have tied : IsChronological (atTime time entries) := by
    refine List.pairwise_of_forall_mem_list fun first member second other => ?_
    have left := (mem_atTime_iff.mp member).2
    have right := (mem_atTime_iff.mp other).2
    exact (Timestamp.notAfter_iff _ _).mpr (.inr (left.trans right.symm))
  have kept : (atTime time entries).Sublist (chronological entries) :=
    List.sublist_mergeSort
      (fun first second third => Timestamp.notAfter_trans first.timestamp second.timestamp
        third.timestamp)
      (fun first second => Timestamp.notAfter_total first.timestamp second.timestamp)
      tied List.filter_sublist
  -- Nothing of that time is added, so the part is the whole.
  have within : (atTime time entries).Sublist (atTime time (chronological entries)) := by
    have again : atTime time (atTime time entries) = atTime time entries :=
      List.filter_eq_self.mpr fun _ member => (List.mem_filter.mp member).2
    rw [← again]
    exact kept.filter _
  have same : (atTime time (chronological entries)).length = (atTime time entries).length :=
    ((List.mergeSort_perm entries _).filter _).length_eq
  exact (within.eq_of_length same.symm).symm

/-- The first entry in the order of time is later than none. -/
theorem IsChronological.notAfter_of_mem {first entry : Entry} {rest : List Entry}
    (ordered : IsChronological (first :: rest)) (member : entry ∈ first :: rest) :
    first.timestamp.notAfter entry.timestamp = true := by
  rcases List.mem_cons.mp member with rfl | later
  · exact (Timestamp.notAfter_iff _ _).mpr (.inr rfl)
  · exact (List.pairwise_cons.mp ordered).1 entry later

/-- Entries in the order of time are determined by the entries of each time. -/
theorem IsChronological.eq_of_sameAtEachTime {first second : List Entry}
    (left : IsChronological first) (right : IsChronological second)
    (same : SameAtEachTime first second) : first = second := by
  induction first generalizing second with
  | nil =>
      refine (List.eq_nil_iff_forall_not_mem.mpr fun entry member => ?_).symm
      exact List.not_mem_nil (same.symm.mem member)
  | cons entry rest step =>
      cases second with
      | nil => exact absurd (same.mem List.mem_cons_self) List.not_mem_nil
      | cons other others =>
          -- Both are of the earliest time, and so each is the first of that time.
          have times : entry.timestamp = other.timestamp := Timestamp.notAfter_antisymm
            (left.notAfter_of_mem (same.symm.mem List.mem_cons_self))
            (right.notAfter_of_mem (same.mem List.mem_cons_self))
          have heads := same entry.timestamp
          rw [atTime_cons_self, times, atTime_cons_self] at heads
          obtain rfl := (List.cons.inj heads).1
          exact congrArg (entry :: ·) (step left.of_cons right.of_cons same.of_cons)

/-- Entries that are the same at each time have one order of time. -/
theorem chronological_congr {first second : List Entry} (same : SameAtEachTime first second) :
    chronological first = chronological second := by
  refine (isChronological_chronological first).eq_of_sameAtEachTime
    (isChronological_chronological second) fun time => ?_
  calc atTime time (chronological first)
      = atTime time first := sameAtEachTime_chronological first time
    _ = atTime time second := same time
    _ = atTime time (chronological second) := (sameAtEachTime_chronological second time).symm

/-- Entries that are not earlier come after all others. -/
theorem chronological_append {first second : List Entry}
    (later : ∀ early ∈ first, ∀ late ∈ second, early.timestamp.notAfter late.timestamp = true) :
    chronological (first ++ second) = chronological first ++ chronological second := by
  refine (isChronological_chronological _).eq_of_sameAtEachTime ?_ fun time => ?_
  · refine List.pairwise_append.mpr ⟨isChronological_chronological first,
      isChronological_chronological second, fun early member late other => ?_⟩
    exact later early (List.mem_mergeSort.mp member) late (List.mem_mergeSort.mp other)
  · rw [sameAtEachTime_chronological, atTime_append, atTime_append, sameAtEachTime_chronological,
      sameAtEachTime_chronological]

/-! ### Replays -/

/-- The state after entries have been replayed, in the order of time, on top of another state. -/
def resume (fields : Fields) (entries : List Entry) : Fields :=
  (chronological entries).foldl Entry.apply fields

/-- Logs with the same entries at each time replay to the same fields. -/
theorem replay_congr {first second : List Entry} (same : SameAtEachTime first second) :
    replay first = replay second :=
  congrArg (List.foldl Entry.apply TextMap.empty) (chronological_congr same)

/-- A replay goes on with entries that are not earlier. -/
theorem replay_append {first second : List Entry}
    (later : ∀ early ∈ first, ∀ late ∈ second, early.timestamp.notAfter late.timestamp = true) :
    replay (first ++ second) = resume (replay first) second := by
  have split := congrArg (List.foldl Entry.apply TextMap.empty) (chronological_append later)
  rw [List.foldl_append] at split
  exact split

/-! ### Reports -/

/-- What a warning tells apart from the number of its line. -/
def Warning.told (warning : Warning) : String × Problem :=
  (warning.token, warning.problem)

/-- The warning about the same line, with more lines before it. -/
def Warning.moved (lines : Nat) (warning : Warning) : Warning :=
  { warning with line := warning.line + lines }

/-- The reports on lines that are numbered from `start` on. -/
def reports (start : Nat) (lines : List (List Char)) : List Warning :=
  (lines.zipIdx start).filterMap fun numbered => reportOf? numbered.1 numbered.2

theorem reportOf?_congr {line other : List Char} (same : words line = words other)
    (number : Nat) : reportOf? line number = reportOf? other number := by
  have blank : line.all isBlank = other.all isBlank := by
    rw [Bool.eq_iff_iff, List.all_eq_true, List.all_eq_true, ← words_eq_nil_iff,
      ← words_eq_nil_iff, same]
  rw [reportOf?, reportOf?, read_congr same, blank]

theorem reportOf?_nil (number : Nat) : reportOf? [] number = none := rfl

/-- A line that stands further down is reported further down. -/
theorem reportOf?_add (line : List Char) (number lines : Nat) :
    reportOf? line (number + lines) = (reportOf? line number).map (Warning.moved lines) := by
  unfold reportOf?
  cases Entry.read line <;> cases line.all isBlank <;> rfl

/-- The warnings of a log are the reports of its pieces, counted from one. -/
theorem warnings_eq_reports (content : String) :
    warnings content = reports 1 (pieces (· == '\n') content.toList) :=
  (warnings_eq_filterMap content).trans <| filterMap_zipIdx_lines reportOf?
    (fun line => reportOf?_congr (words_dropReturn line)) reportOf?_nil content.toList 1

theorem reports_cons (start : Nat) (line : List Char) (rest : List (List Char)) :
    reports start (line :: rest) = (reportOf? line start).toList ++ reports (start + 1) rest := by
  rw [reports, List.zipIdx_cons, List.filterMap_cons, reports]
  cases reportOf? line start <;> rfl

/-- The reports of two texts are those of the first, then those of the second, counted on. -/
theorem reports_append (start : Nat) (first second : List (List Char)) :
    reports start (first ++ second) =
      reports start first ++ reports (start + first.length) second := by
  rw [reports, List.zipIdx_append, List.filterMap_append]
  rfl

/-- Lines that stand further down are reported further down. -/
theorem reports_add (start lines : Nat) (texts : List (List Char)) :
    reports (start + lines) texts = (reports start texts).map (Warning.moved lines) := by
  induction texts generalizing start with
  | nil => rfl
  | cons line rest step =>
      have next : start + lines + 1 = start + 1 + lines := Nat.add_right_comm ..
      rw [reports_cons, reports_cons, next, step, reportOf?_add, List.map_append]
      cases reportOf? line start <;> rfl

/-- What is told about a line apart from its number depends on the line alone. -/
theorem map_told_reports (start : Nat) (texts : List (List Char)) :
    (reports start texts).map Warning.told =
      texts.filterMap fun line => (reportOf? line 0).map Warning.told := by
  induction texts generalizing start with
  | nil => rfl
  | cons line rest step =>
      have moved := reportOf?_add line 0 start
      rw [Nat.zero_add] at moved
      rw [reports_cons, List.map_append, step, List.filterMap_cons, moved]
      cases reportOf? line 0 <;> rfl

/-! ### Appended text -/

/-- Before an appended text, a log that is not empty ends with a line feed, its own or another. -/
theorem toList_appendEntry (log text : String) :
    (MemoryStore.appendEntry log text).toList =
      (if log.toList = [] ∨ log.toList.getLast? = some '\n' then log.toList
        else log.toList ++ ['\n']) ++ (text.toList ++ ['\n']) := by
  have ended : (log.isEmpty || log.toList.getLast? == some '\n') = true ↔
      log.toList = [] ∨ log.toList.getLast? = some '\n' := by
    simp
  rw [MemoryStore.appendEntry, String.toList_append, String.toList_append, List.append_assoc]
  simp only [ended]
  split
  · rfl
  · rw [String.toList_append]
    rfl

/-- An appended text stands on lines of its own, behind the lines of the log. -/
theorem exists_pieces_appendEntry (log text : String) :
    ∃ ended : List (List Char), ended.length = (lines log.toList).length ∧
      (pieces (· == '\n') log.toList = ended ∨ pieces (· == '\n') log.toList = ended ++ [[]]) ∧
      pieces (· == '\n') (MemoryStore.appendEntry log text).toList =
        ended ++ (pieces (· == '\n') text.toList ++ [[]]) := by
  have closed (before after : List Char) : pieces (· == '\n') (before ++ '\n' :: after) =
      pieces (· == '\n') before ++ pieces (· == '\n') after := pieces_append_cons (by rfl) ..
  rw [toList_appendEntry]
  -- A log that is empty or ends with a line feed has one more piece, which is empty and no line.
  rcases List.eq_nil_or_concat log.toList with none | ⟨before, last, whole⟩
  · refine ⟨[], by rw [none]; rfl, .inr (by rw [none]; rfl), ?_⟩
    rw [if_pos (.inl none), none, List.nil_append, closed]
    rfl
  · rw [List.concat_eq_append] at whole
    rw [whole]
    by_cases feed : last = '\n'
    · subst feed
      refine ⟨pieces (· == '\n') before, ?_, .inr (closed before []), ?_⟩
      · rw [lines_of_pieces (closed before [])]
        simp
      · rw [if_pos (.inr (by simp)), List.append_assoc, List.singleton_append, closed, closed]
        rfl
    · obtain ⟨ended, rest, split⟩ : ∃ ended rest,
          pieces (· == '\n') (before ++ [last]) = ended ++ [rest ++ [last]] :=
        exists_pieces_concat (by simpa using feed) before
      refine ⟨pieces (· == '\n') (before ++ [last]), ?_, .inl rfl, ?_⟩
      · rw [lines_of_pieces split, split]
        simp
      · rw [if_neg (by simp [feed]), List.append_assoc, List.singleton_append, closed, closed]
        rfl

/-- The entries of a log come before those of a text that is appended to it. -/
theorem entries_appendEntry (log text : String) :
    entries (MemoryStore.appendEntry log text) = entries log ++ entries text := by
  obtain ⟨ended, -, own, split⟩ := exists_pieces_appendEntry log text
  have read : (ended.filterMap fun line => (Entry.read line).toOption) = entries log := by
    rw [entries_eq_filterMap]
    rcases own with same | same
    · rw [same]
    · rw [same, List.filterMap_append]
      exact (List.append_nil _).symm
  rw [entries_eq_filterMap, split, List.filterMap_append, List.filterMap_append, read,
    ← entries_eq_filterMap]
  exact congrArg (entries log ++ ·) (List.append_nil _)

/-- The reports on a log come before those on a text that is appended to it. -/
theorem warnings_appendEntry (log text : String) :
    warnings (MemoryStore.appendEntry log text) =
      warnings log ++ (warnings text).map (Warning.moved (lines log.toList).length) := by
  obtain ⟨ended, size, own, split⟩ := exists_pieces_appendEntry log text
  have blank (start : Nat) (texts : List (List Char)) :
      reports start (texts ++ [[]]) = reports start texts := by
    rw [reports_append]
    exact List.append_nil _
  have read : reports 1 ended = warnings log := by
    rw [warnings_eq_reports]
    rcases own with same | same
    · rw [same]
    · rw [same, blank]
  rw [warnings_eq_reports, split, reports_append, blank, reports_add, read, size,
    ← warnings_eq_reports]

/-! ### Logs -/

/-- The warnings about the same lines in another order tell the same. -/
theorem map_told_warnings_perm {first second : String}
    (same : (lines first.toList).Perm (lines second.toList)) :
    ((warnings first).map Warning.told).Perm ((warnings second).map Warning.told) := by
  have told (content : String) : (warnings content).map Warning.told =
      (lines content.toList).filterMap fun line => (reportOf? line 0).map Warning.told := by
    rw [warnings_eq_filterMap]
    exact map_told_reports 1 (lines content.toList)
  rw [told, told]
  exact same.filterMap _

/-- **What a log says does not depend on the order in which its lines arrive.** Logs with the same
lines, in which entries of one time stand in the same order, say the same, and the warnings about
them tell the same. Where a text is appended to the log of an item and none of its entries is
earlier than one of the log, its entries change what the log says in the order of time; the
warnings about the log come first, and those about the text have the lines of the log before
them. -/
theorem decode_of_arrival :
    (∀ first second : String, (lines first.toList).Perm (lines second.toList) →
      SameAtEachTime (entries first) (entries second) →
        (decode first).fields = (decode second).fields ∧
          ((decode first).warnings.map Warning.told).Perm
            ((decode second).warnings.map Warning.told)) ∧
    ∀ (store : MemoryStore) (key text : String),
      let log := (store.current.get? key).getD ""
      (∀ early ∈ entries log, ∀ late ∈ entries text, ¬ late.timestamp.Before early.timestamp) →
        ∃ joined, (store.append key text).current.get? key = some joined ∧
          (decode joined).fields = resume (decode log).fields (entries text) ∧
          (decode joined).warnings = (decode log).warnings ++
            (decode text).warnings.map (Warning.moved (lines log.toList).length) := by
  constructor
  · intro first second same tied
    exact ⟨replay_congr tied, map_told_warnings_perm same⟩
  · intro store key text log following
    have ordered : ∀ early ∈ entries log, ∀ late ∈ entries text,
        early.timestamp.notAfter late.timestamp = true := fun early member late other =>
      Timestamp.notAfter_of_not_before (following early member late other)
    have fields : (decode (MemoryStore.appendEntry log text)).fields =
        resume (decode log).fields (entries text) := by
      rw [decode, entries_appendEntry]
      exact replay_append ordered
    have held : (store.append key text).current.get? key =
        some (MemoryStore.appendEntry log text) := by
      rw [MemoryStore.append, MemoryStore.commit, TextMap.get?_insert, if_pos rfl]
    have warned : (decode (MemoryStore.appendEntry log text)).warnings = (decode log).warnings ++
        (decode text).warnings.map (Warning.moved (lines log.toList).length) := by
      simpa only [decode] using warnings_appendEntry log text
    exact ⟨_, held, fields, warned⟩

/-- Four lines arrive in two orders, and two of them are of one time; then three lines follow a log
without a line feed at its end. -/
theorem decode_of_arrival_of_ties :
    let first := "5s artist +Bo\n1s artist +Al\n2s title\r\n+\n5s artist -Bo"
    let second := "+\n5s artist +Bo\n5s artist -Bo\n1s artist +Al\n2s title"
    let store := MemoryStore.new.put "a" first ⟨"a.mp3", true⟩
    let text := "6s artist -Al\n\n5s artist +Bo x\n-"
    ((decode first).fields = (decode second).fields ∧
      ((decode first).warnings.map Warning.told).Perm
        ((decode second).warnings.map Warning.told)) ∧
    ∃ joined, (store.append "a" text).current.get? "a" = some joined ∧
      (decode joined).fields = resume (decode first).fields (entries text) ∧
      (decode joined).warnings.map Warning.line = [4, 9] := by
  intro first second store text
  have same : (lines first.toList).Perm (lines second.toList) := by decide +kernel
  have tied : SameAtEachTime (entries first) (entries second) := by decide +kernel
  have held : (store.current.get? "a").getD "" = first := by decide +kernel
  refine ⟨decode_of_arrival.1 first second same tied, ?_⟩
  obtain ⟨joined, found, fields, warnings⟩ := decode_of_arrival.2 store "a" text (by decide +kernel)
  rw [held] at fields warnings
  refine ⟨joined, found, fields, ?_⟩
  rw [warnings]
  decide +kernel

end Log

end AnnexCatalog
