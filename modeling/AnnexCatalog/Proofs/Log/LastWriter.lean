import AnnexCatalog.Outcome
import AnnexCatalog.Proofs.Log.Timeline
import AnnexCatalog.Proofs.Text.Pieces
import Mathlib.Data.List.Induction

/-! # The last writer wins

A log names the fields that its well-formed lines name, and a field has the values whose last
operation, in the order of time, adds them. One operation decides about the value that it concerns,
so after many the last one on a value has decided.
-/

namespace AnnexCatalog

namespace Log

open Text

/-- The field that an operation is about. -/
def Operation.field : Operation → String
  | .mention field => field
  | .add field _ => field
  | .remove field _ => field

/-- The field and the value that an operation adds or removes. -/
def Operation.concern? : Operation → Option (String × String)
  | .mention _ => none
  | .add field value => some (field, value)
  | .remove field value => some (field, value)

/-- Whether an operation at a place is the last one, in the order of time, on a value of a field. -/
def IsLastOn (entries : List Entry) (field value : String) (place : Place)
    (operation : Operation) : Prop :=
  operationAt? entries place = some operation ∧ operation.concern? = some (field, value) ∧
    ∀ other change, operationAt? entries other = some change →
      change.concern? = some (field, value) → ¬ place.Precedes entries other

/-- Whether a value is among the values of a field. -/
def Fields.has (fields : Fields) (field value : String) : Prop :=
  ∃ values, fields.get? field = some values ∧ TextMap.contains values value = true

/-! ### One operation and several -/

/-- After an operation its own field is named, and all that were named before. -/
theorem contains_apply (fields : Fields) (operation : Operation) (field : String) :
    (operation.apply fields).contains field = true ↔
      operation.field = field ∨ fields.contains field = true := by
  cases operation <;>
    simp only [Operation.apply, Operation.field, TextMap.contains_insert, Bool.or_eq_true,
      beq_iff_eq, eq_comm (a := field)]

/-- The values that a field has, or none where it is not named. -/
theorem has_iff_contains_getD (fields : Fields) (field value : String) :
    fields.has field value ↔
      TextMap.contains ((fields.get? field).getD TextMap.empty) value = true := by
  unfold Fields.has
  cases found : fields.get? field with
  | none => simp
  | some values => simp

/-- A field that is given values has just these. -/
theorem has_insert (fields : Fields) (name : String) (values : TextSet) (field value : String) :
    Fields.has (fields.insert name values) field value ↔
      if field = name then TextMap.contains values value = true else fields.has field value := by
  unfold Fields.has
  rw [TextMap.get?_insert]
  by_cases same : field = name <;> simp [same]

/-- An operation decides about the value that it concerns and leaves all others as they were. -/
theorem has_apply (fields : Fields) (operation : Operation) (field value : String) :
    Fields.has (operation.apply fields) field value ↔
      if operation.concern? = some (field, value) then operation = .add field value
      else fields.has field value := by
  cases operation with
  | mention name =>
      rw [Operation.apply, has_insert, ← has_iff_contains_getD]
      by_cases same : field = name <;> simp [Operation.concern?, same]
  | add name added =>
      rw [Operation.apply, has_insert, TextSet.contains_add, Bool.or_eq_true,
        ← has_iff_contains_getD]
      by_cases same : field = name
      · by_cases equal : added = value
        · simp [Operation.concern?, same, equal]
        · simp [Operation.concern?, same, equal, Ne.symm equal]
      · simp [Operation.concern?, same, Ne.symm same]
  | remove name removed =>
      rw [Operation.apply, has_insert, TextSet.contains_remove, Bool.and_eq_true,
        ← has_iff_contains_getD]
      by_cases same : field = name
      · by_cases equal : removed = value
        · simp [Operation.concern?, same, equal]
        · simp [Operation.concern?, same, equal, Ne.symm equal]
      · simp [Operation.concern?, same, Ne.symm same]

/-- After several operations their fields are named, and all that were named before. -/
theorem contains_foldl_apply (operations : List Operation) (fields : Fields) (field : String) :
    (operations.foldl Operation.apply fields).contains field = true ↔
      (∃ operation ∈ operations, operation.field = field) ∨ fields.contains field = true := by
  induction operations generalizing fields with
  | nil => simp
  | cons operation rest step =>
      rw [List.foldl_cons, step, contains_apply]
      simp only [List.mem_cons, exists_eq_or_imp]
      rw [or_assoc, or_left_comm]

/-- Whether an operation adds or removes a value of a field. -/
def Operation.concerns (field value : String) (operation : Operation) : Bool :=
  operation.concern? == some (field, value)

/-- After operations on nothing a value is there exactly if the last operation on it adds it. -/
theorem has_foldl_apply (operations : List Operation) (field value : String) :
    Fields.has (operations.foldl Operation.apply TextMap.empty) field value ↔
      (operations.filter (Operation.concerns field value)).getLast? =
        some (.add field value) := by
  induction operations using List.reverseRecOn with
  | nil => simp [Fields.has]
  | append_singleton earlier operation step =>
      rw [List.foldl_append, List.foldl_cons, List.foldl_nil, has_apply, step, List.filter_append]
      by_cases concerned : operation.concern? = some (field, value)
      · simp [Operation.concerns, concerned]
      · simp [Operation.concerns, concerned]

/-! ### The fields that a line names -/

/-- A token that names a field: it is no operation on a value. -/
def namesField : List Char → Bool
  | '+' :: _ => false
  | '-' :: _ => false
  | _ => true

/-- A token that is read names a field, or it changes a value of the field named last. -/
theorem readOperations_cons {current : Option String} {token : List Char}
    {rest : List (List Char)} {operations : List Operation}
    (accepted : readOperations current (token :: rest) = .ok operations) :
    (namesField token = true ∧ ∃ later,
        readOperations (some (lower (String.ofList token))) rest = .ok later ∧
          operations = .mention (lower (String.ofList token)) :: later) ∨
      (namesField token = false ∧ ∃ name operation later, current = some name ∧
        operation.field = name ∧ operation ≠ .mention name ∧
          readOperations current rest = .ok later ∧ operations = operation :: later) := by
  rw [readOperations.eq_def] at accepted
  simp only at accepted
  split at accepted
  · obtain ⟨value, -, accepted⟩ := bind_eq_ok_iff.mp accepted
    cases current with
    | none => cases accepted
    | some name =>
        obtain ⟨later, read, same⟩ := bind_eq_ok_iff.mp accepted
        cases same
        exact .inr ⟨rfl, name, .add name value, later, rfl, rfl, nofun, read, rfl⟩
  · obtain ⟨value, -, accepted⟩ := bind_eq_ok_iff.mp accepted
    cases current with
    | none => cases accepted
    | some name =>
        obtain ⟨later, read, same⟩ := bind_eq_ok_iff.mp accepted
        cases same
        exact .inr ⟨rfl, name, .remove name value, later, rfl, rfl, nofun, read, rfl⟩
  · next notPlus notMinus =>
      obtain ⟨later, read, same⟩ := bind_eq_ok_iff.mp accepted
      cases same
      refine .inl ⟨?_, later, read, rfl⟩
      unfold namesField
      split
      · exact absurd rfl (notPlus _)
      · exact absurd rfl (notMinus _)
      · rfl

/-- The operations that are read name the fields that the tokens name. -/
theorem mention_mem_readOperations {current : Option String} {tokens : List (List Char)}
    {operations : List Operation} (accepted : readOperations current tokens = .ok operations)
    (field : String) :
    .mention field ∈ operations ↔
      ∃ token ∈ tokens, namesField token = true ∧ lower (String.ofList token) = field := by
  induction tokens generalizing current operations with
  | nil =>
      cases accepted
      simp
  | cons token rest step =>
      simp only [List.mem_cons, exists_eq_or_imp]
      rcases readOperations_cons accepted with
        ⟨named, later, read, rfl⟩ | ⟨unnamed, name, operation, later, -, about, change, read, rfl⟩
      · rw [List.mem_cons, step read, named]
        simp only [Operation.mention.injEq, true_and, eq_comm (a := field)]
      · rw [List.mem_cons, step read, unnamed]
        have different : Operation.mention field ≠ operation := by
          rintro rfl
          exact change (congrArg Operation.mention about)
        simp only [different, Bool.false_eq_true, false_and, false_or]

/-- Every operation that is read is about a field named before it. -/
theorem field_mem_readOperations {current : Option String} {tokens : List (List Char)}
    {operations : List Operation} (accepted : readOperations current tokens = .ok operations)
    {operation : Operation} (member : operation ∈ operations) :
    .mention operation.field ∈ operations ∨ current = some operation.field := by
  induction tokens generalizing current operations with
  | nil =>
      cases accepted
      cases member
  | cons token rest step =>
      rcases readOperations_cons accepted with
        ⟨-, later, read, rfl⟩ | ⟨-, name, change, later, known, about, -, read, rfl⟩
      · rcases List.mem_cons.mp member with rfl | inside
        · exact .inl List.mem_cons_self
        · rcases step read inside with before | known
          · exact .inl (List.mem_cons_of_mem _ before)
          · rw [← Option.some.inj known]
            exact .inl List.mem_cons_self
      · rcases List.mem_cons.mp member with rfl | inside
        · exact .inr (known.trans (congrArg some about.symm))
        · exact (step read inside).imp_left (List.mem_cons_of_mem _)

/-- The field names of a line, in lower case. -/
def fieldNames (line : List Char) : List String :=
  ((words line).tail.filter namesField).map fun token => lower (String.ofList token)

/-- The operations of a well-formed line are about the fields that the line names. -/
theorem exists_operation_iff_mem_fieldNames {line : List Char} {entry : Entry}
    (accepted : Entry.read line = .ok entry) (field : String) :
    (∃ operation ∈ entry.operations, operation.field = field) ↔ field ∈ fieldNames line := by
  rw [Entry.read] at accepted
  split at accepted
  · cases accepted
  · next stamp tokens split =>
      split at accepted
      · cases accepted
      · obtain ⟨operations, read, rfl⟩ := map_eq_ok_iff.mp accepted
        have named : Operation.mention field ∈ operations ↔ field ∈ fieldNames line := by
          rw [mention_mem_readOperations read, fieldNames, split]
          simp only [List.tail_cons, List.mem_map, List.mem_filter, and_assoc]
        rw [← named]
        constructor
        · rintro ⟨operation, member, rfl⟩
          exact (field_mem_readOperations read member).resolve_right nofun
        · intro member
          exact ⟨_, member, rfl⟩

/-- In a list that is in the order of a relation without cycles, the last element with a property is
the one that comes before no other of them. -/
theorem getLast?_filter_eq_some_iff {α : Type} {relation : α → α → Prop} {list : List α}
    (ordered : list.Pairwise relation)
    (asymm : ∀ first second, relation first second → ¬ relation second first)
    (property : α → Bool) (last : α) :
    (list.filter property).getLast? = some last ↔
      last ∈ list ∧ property last = true ∧
        ∀ other ∈ list, property other = true → ¬ relation last other := by
  induction list using List.reverseRecOn with
  | nil => simp
  | append_singleton earlier final step =>
      obtain ⟨before, -, below⟩ := List.pairwise_append.mp ordered
      have above : ∀ element ∈ earlier, relation element final :=
        fun element member => below element member final List.mem_cons_self
      rw [List.filter_append]
      by_cases holds : property final = true
      · simp only [holds, List.filter_cons_of_pos, List.filter_nil, List.getLast?_append,
          List.getLast?_singleton, Option.some_or, Option.some.injEq]
        constructor
        · rintro rfl
          refine ⟨by simp, holds, ?_⟩
          intro other member _ after
          rcases List.mem_append.mp member with inside | here
          · exact asymm _ _ after (above other inside)
          · cases List.mem_singleton.mp here
            exact asymm _ _ after after
        · rintro ⟨member, -, maximal⟩
          rcases List.mem_append.mp member with inside | here
          · exact absurd (above last inside) (maximal final (by simp) holds)
          · exact (List.mem_singleton.mp here).symm
      · simp only [holds, Bool.false_eq_true, not_false_eq_true, List.filter_cons_of_neg,
          List.filter_nil, List.append_nil, step before]
        constructor
        · rintro ⟨member, kept, maximal⟩
          refine ⟨List.mem_append_left _ member, kept, ?_⟩
          intro other otherMember otherKept
          rcases List.mem_append.mp otherMember with inside | here
          · exact maximal other inside otherKept
          · cases List.mem_singleton.mp here
            exact absurd otherKept holds
        · rintro ⟨member, kept, maximal⟩
          rcases List.mem_append.mp member with inside | here
          · exact ⟨inside, kept, fun other otherMember =>
              maximal other (List.mem_append_left _ otherMember)⟩
          · cases List.mem_singleton.mp here
            exact absurd kept holds

/-- A replay has a value exactly if the last operation on it, in the order of time, adds it. -/
theorem has_replay_iff (entries : List Entry) (field value : String) :
    Fields.has (replay entries) field value ↔
      ∃ place, IsLastOn entries field value place (.add field value) := by
  rw [replay_eq_foldl_timeline, has_foldl_apply, List.filter_map, List.getLast?_map,
    Option.map_eq_some_iff]
  simp only [getLast?_filter_eq_some_iff (timeline_pairwise entries)
    (fun first second => Place.Precedes.asymm), Prod.exists, Prod.forall, mem_timeline_iff,
    Function.comp_apply, Operation.concerns, beq_iff_eq, exists_eq_right, IsLastOn]

/-- A replay names a field exactly if some operation is about it. -/
theorem contains_replay_iff (entries : List Entry) (field : String) :
    (replay entries).contains field = true ↔
      ∃ entry ∈ entries, ∃ operation ∈ entry.operations, operation.field = field := by
  rw [replay_eq_foldl_operations, contains_foldl_apply]
  simp only [List.mem_flatMap, List.mem_mergeSort, TextMap.contains_empty, Bool.false_eq_true,
    or_false]
  constructor
  · rintro ⟨operation, ⟨entry, listed, member⟩, about⟩
    exact ⟨entry, listed, operation, member, about⟩
  · rintro ⟨entry, listed, operation, member, about⟩
    exact ⟨operation, ⟨entry, listed, member⟩, about⟩

/-- The first line of a log ends at its first line feed. It is passed over if it is blank, and counted
in any case. -/
theorem numberedLines_append_cons {content rest : String} {line : List Char}
    (absent : '\n' ∉ line) (split : content.toList = line ++ '\n' :: rest.toList) :
    numberedLines content =
      (if (trim (dropReturn line)).isEmpty then [] else [(dropReturn line, 1)]) ++
        (numberedLines rest).map fun (later, number) => (later, number + 1) := by
  have shifted : (lines rest.toList).zipIdx 2 =
      ((lines rest.toList).zipIdx 1).map (Prod.map id (· + 1)) := List.zipIdx_succ ..
  rw [numberedLines, numberedLines, split, lines_append_cons absent, List.zipIdx_cons, shifted,
    List.filter_cons, List.filter_map]
  by_cases blank : (trim (dropReturn line)).isEmpty = true
  · rw [if_pos blank, if_neg (by simp [blank])]
    rfl
  · rw [if_neg blank, if_pos (by simp [blank])]
    rfl

/-- The last line of a log needs no line feed. -/
theorem numberedLines_of_notMem {content : String} (absent : '\n' ∉ content.toList) :
    numberedLines content =
      if (trim content.toList).isEmpty then [] else [(content.toList, 1)] := by
  rw [numberedLines, lines_of_notMem absent]
  cases content.toList with
  | nil => rfl
  | cons c rest =>
      rw [List.isEmpty_cons, if_neg Bool.false_ne_true, List.zipIdx_cons, List.zipIdx_nil,
        List.filter_cons, List.filter_nil]
      by_cases blank : (trim (c :: rest)).isEmpty = true
      · rw [if_pos blank, if_neg (by simp [blank])]
      · rw [if_neg blank, if_pos (by simp [blank])]

/-- The entries of a log are those of its well-formed lines. -/
theorem mem_entries_iff (content : String) (entry : Entry) :
    entry ∈ entries content ↔
      ∃ line ∈ (numberedLines content).map Prod.fst, Entry.read line = .ok entry := by
  have read (line : List Char) (change : List Char × Problem → Warning) :
      ((Entry.read line).mapError change).toOption = some entry ↔
        Entry.read line = .ok entry := by
    have same := @mapError_eq_ok_iff _ _ _ (Entry.read line) change entry
    rw [← same]
    cases (Entry.read line).mapError change <;> simp [Except.toOption]
  simp only [entries, readings, List.filterMap_map, List.mem_filterMap, Function.comp_apply, read,
    List.mem_map, Prod.exists, exists_and_right, exists_eq_right]

/-- **The last writer wins.** A log names a field exactly if some token of a well-formed line does,
and a field has a value exactly if the last operation on that value, in the order of time, adds
it. -/
theorem decode_fields_last_writer (content : String) :
    (∀ field, (decode content).fields.contains field = true ↔
      ∃ line ∈ (numberedLines content).map Prod.fst,
        (∃ entry, Entry.read line = .ok entry) ∧ field ∈ fieldNames line) ∧
    (∀ field value, (decode content).fields.has field value ↔
      ∃ place, IsLastOn (entries content) field value place (.add field value)) := by
  refine ⟨fun field => ?_, fun field value => has_replay_iff _ field value⟩
  rw [decode, contains_replay_iff]
  simp only [mem_entries_iff]
  constructor
  · rintro ⟨entry, ⟨line, listed, accepted⟩, about⟩
    exact ⟨line, listed, ⟨entry, accepted⟩,
      (exists_operation_iff_mem_fieldNames accepted field).mp about⟩
  · rintro ⟨line, listed, ⟨entry, accepted⟩, named⟩
    exact ⟨entry, ⟨line, listed, accepted⟩,
      (exists_operation_iff_mem_fieldNames accepted field).mpr named⟩

/-- The later removal counts although it stands first, and a line with a fault does not count. -/
example :
    let late : Entry := ⟨⟨2, 0⟩, [.mention "tag", .remove "tag" "a", .add "tag" "b"]⟩
    let early : Entry := ⟨⟨1, 0⟩, [.mention "tag", .add "tag" "a", .add "tag" "c"]⟩
    entries "2s tag -a +b\n\n1s tag +a +c\n3s tag -c +" = [late, early] ∧
      (replay [late, early]).entries.map (fun named => (named.1, named.2.toList)) =
        [("tag", ["b", "c"])] :=
  ⟨by decide +kernel, by cbv⟩

end Log

end AnnexCatalog
