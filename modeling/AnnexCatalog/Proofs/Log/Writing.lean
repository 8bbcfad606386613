import AnnexCatalog.Proofs.Catalog.Values
import AnnexCatalog.Proofs.Log.Arrival
import AnnexCatalog.Proofs.Text.Base64

/-! # Writing a log

A value is written as itself where it can stand in a token, and else in base64. Tokens joined by
spaces are read back as they are, so one line can say whatever a log can say, and a later line can
take it back (`decode_writeLine`). A value in base64 leaves no choice: it is read from its own
written form only.
-/

namespace AnnexCatalog

open Text

/-- A timestamp is read from one word. -/
theorem Timestamp.isBlank_of_parse? {token : List Char} {time : Timestamp}
    (read : parse? token = some time) : token ≠ [] ∧ ∀ c ∈ token, isBlank c = false := by
  obtain ⟨whole, fraction, split⟩ : ∃ whole fraction,
      (splitFirst? '.' ((dropTail? ['s'] token).getD token)).getD
        ((dropTail? ['s'] token).getD token, []) = (whole, fraction) := ⟨_, _, rfl⟩
  rw [parse?, split] at read
  obtain ⟨⟨nonempty, wholeDigits, fractionDigits, -⟩, -⟩ := Option.ite_none_right_eq_some.mp read
  refine ⟨?_, fun c member => ?_⟩
  · rintro rfl
    cases split
    exact nonempty rfl
  · have inside : c = 's' ∨ c ∈ (dropTail? ['s'] token).getD token := by
      cases found : dropTail? ['s'] token with
      | none => exact .inr member
      | some body =>
          rw [dropTail?_eq_some_iff.mp found, List.mem_append, List.mem_singleton] at member
          exact member.symm
    rcases inside with rfl | inside
    · rfl
    · rcases mem_of_splitFirst? split inside with rfl | inside | inside
      · rfl
      · exact isBlank_of_isDigit (List.all_eq_true.mp wholeDigits c inside)
      · exact isBlank_of_isDigit (List.all_eq_true.mp fractionDigits c inside)

namespace Log

/-! ### Values as tokens -/

/-- The control characters: those of general category Cc. -/
def isControl (c : Char) : Bool :=
  c.toNat < 0x20 || (0x7F ≤ c.toNat && c.toNat < 0xA0)

/-- Whether a value can be written as itself. -/
def isBare (value : List Char) : Bool :=
  value ≠ [] && value.head? ≠ some '!' && value.all fun c => !isBlank c && !isControl c

/-- How a value is written behind its mark. -/
def spell (value : String) : List Char :=
  if isBare value.toList then value.toList
  else '!' :: Base64.encode (Utf8.encode value.toList)

/-- A value is written as it is exactly if it is not empty, does not begin like an encoded one, and
has neither blanks nor control characters. -/
theorem isBare_eq_true_iff {value : List Char} :
    isBare value = true ↔
      value ≠ [] ∧ value.head? ≠ some '!' ∧
        ∀ c ∈ value, isBlank c = false ∧ isControl c = false := by
  simp only [isBare, Bool.and_eq_true, decide_eq_true_eq, List.all_eq_true, Bool.not_eq_true',
    and_assoc]

/-- A value is read from its own encoding and from no other. -/
theorem readValue_encoded_eq_ok_iff {payload : List Char} {value : String} :
    readValue ('!' :: payload) = .ok value ↔
      payload = Base64.encode (Utf8.encode value.toList) := by
  rw [readValue_eq_ok_iff]
  constructor
  · intro spells
    cases spells with
    | bare _ plain => exact absurd rfl plain
    | encoded decoded read =>
        rw [String.toList_ofList, ← Utf8.decode_eq_ok_iff.mp read]
        exact Utf8.encode_injective (Base64.decode_eq_ok_iff.mp decoded)
  · rintro rfl
    have decoded := Base64.decode_eq_ok_iff.mpr
      (rfl : Utf8.encode (Base64.encode (Utf8.encode value.toList)) = _)
    have spells := Spells.encoded decoded (Utf8.decode_eq_ok_iff.mpr rfl)
    rwa [String.ofList_toList] at spells

/-- A value is read as it was written, bare or encoded. -/
theorem readValue_spell (value : String) : readValue (spell value) = .ok value := by
  unfold spell
  split
  · next bare =>
      obtain ⟨nonempty, plain, -⟩ := isBare_eq_true_iff.mp bare
      have spells := Spells.bare nonempty plain
      rw [String.ofList_toList] at spells
      exact readValue_eq_ok_iff.mpr spells
  · exact readValue_encoded_eq_ok_iff.mpr rfl

theorem isBlank_of_mem_spell {value : String} {c : Char} (member : c ∈ spell value) :
    isBlank c = false := by
  unfold spell at member
  split at member
  · next bare => exact ((isBare_eq_true_iff.mp bare).2.2 c member).1
  · rcases List.mem_cons.mp member with rfl | inside
    · rfl
    · obtain ⟨least, above⟩ := Base64.bounds_of_mem_encode inside
      exact isBlank_of_visible (Nat.le_trans (by decide) least) above

/-! ### Lines -/

/-- The names of fields, each with values of it. -/
abbrev Listing := List (String × List String)

/-- Whether a listing has a value among those of a field. -/
def Listing.has (listing : Listing) (field value : String) : Prop :=
  ∃ entry ∈ listing, entry.1 = field ∧ value ∈ entry.2

/-- A listing of fields: it has their names and their values, in any order and any number of
times. -/
structure Lists (listing : Listing) (fields : Fields) : Prop where
  names : ∀ field, field ∈ listing.map Prod.fst ↔ fields.contains field = true
  values : ∀ field value, listing.has field value ↔ fields.has field value

/-- The listing of fields in the order of their names. -/
def Listing.ofFields (fields : Fields) : Listing :=
  fields.entries.map fun (name, values) => (name, values.toList)

/-- The tokens that name the fields of a listing and mark their values. -/
def Listing.tokens (mark : Char) (listing : Listing) : List (List Char) :=
  listing.flatMap fun (name, values) => name.toList :: values.map fun value => mark :: spell value

/-- A line with a stamp and the tokens of a listing. -/
def writeLine (stamp : String) (mark : Char) (listing : Listing) : String :=
  String.ofList ([' '].intercalate (stamp.toList :: listing.tokens mark))

/-- A name that can be given to a field in a log. -/
structure IsFieldName (name : String) : Prop where
  nonempty : name ≠ ""
  lowered : lower name = name
  solid : ∀ c ∈ name.toList, isBlank c = false
  unmarked : namesField name.toList = true

/-- The operations of a line with the tokens of a listing. -/
def Listing.operations (mark : Char) (listing : Listing) : List Operation :=
  listing.flatMap fun (name, values) => .mention name :: values.map (changeOf mark name)

variable {mark : Char} {listing : Listing}

/-- The tokens of a written line are words. -/
theorem solid_line (marked : mark ∈ marks) (named : ∀ entry ∈ listing, IsFieldName entry.1)
    {stamp : String} {time : Timestamp} (stamped : Timestamp.parse? stamp.toList = some time) :
    ∀ token ∈ stamp.toList :: listing.tokens mark,
      token ≠ [] ∧ ∀ c ∈ token, isBlank c = false := by
  refine List.forall_mem_cons.mpr ⟨Timestamp.isBlank_of_parse? stamped, fun token member => ?_⟩
  obtain ⟨⟨name, values⟩, listed, inside⟩ := List.mem_flatMap.mp member
  rcases List.mem_cons.mp inside with rfl | inside
  · have shape := named _ listed
    exact ⟨fun none => shape.nonempty (String.toList_eq_nil_iff.mp none), shape.solid⟩
  · obtain ⟨value, -, rfl⟩ := List.mem_map.mp inside
    refine ⟨List.cons_ne_nil _ _, List.forall_mem_cons.mpr ⟨?_, fun c => isBlank_of_mem_spell⟩⟩
    simp only [marks, List.mem_cons, List.not_mem_nil, or_false] at marked
    rcases marked with rfl | rfl <;> rfl

/-- Written values are read as operations on the field that is named before them. -/
theorem readOperations_values (marked : mark ∈ marks) (name : String) (values : List String)
    (rest : List (List Char)) :
    readOperations (some name) (values.map (fun value => mark :: spell value) ++ rest) =
      (readOperations (some name) rest).map (values.map (changeOf mark name) ++ ·) := by
  induction values with
  | nil => cases read : readOperations (some name) rest <;> simp [Except.map, read]
  | cons value others step =>
      rw [List.map_cons, List.cons_append, readOperations_mark _ marked, readValue_spell, step]
      cases readOperations (some name) rest <;> rfl

/-- Reading the tokens of a listing yields its operations. -/
theorem Listing.readOperations_tokens (marked : mark ∈ marks)
    (named : ∀ entry ∈ listing, IsFieldName entry.1) (field : Option String) :
    readOperations field (listing.tokens mark) = .ok (listing.operations mark) := by
  induction listing generalizing field with
  | nil => rfl
  | cons entry rest step =>
      obtain ⟨name, values⟩ := entry
      obtain ⟨shape, others⟩ := List.forall_mem_cons.mp named
      rw [Listing.tokens, List.flatMap_cons, List.cons_append, readOperations_name shape.unmarked,
        String.ofList_toList, shape.lowered, readOperations_values marked]
      change Except.map _ (Except.map _ (readOperations _ (Listing.tokens mark rest))) = _
      rw [step others]
      rfl

/-- A written line is read as an entry with its time and its operations. -/
theorem read_writeLine (marked : mark ∈ marks) (named : ∀ entry ∈ listing, IsFieldName entry.1)
    {stamp : String} {time : Timestamp} (stamped : Timestamp.parse? stamp.toList = some time) :
    Entry.read (writeLine stamp mark listing).toList = .ok ⟨time, listing.operations mark⟩ := by
  have split : words (writeLine stamp mark listing).toList =
      stamp.toList :: listing.tokens mark := by
    rw [writeLine, String.toList_ofList]
    exact words_intercalate (solid_line marked named stamped)
  simp only [Entry.read, split, stamped]
  rw [Listing.readOperations_tokens marked named]
  rfl

/-- A written line ends nowhere but at its end. -/
theorem pieces_writeLine (marked : mark ∈ marks)
    (named : ∀ entry ∈ listing, IsFieldName entry.1) {stamp : String} {time : Timestamp}
    (stamped : Timestamp.parse? stamp.toList = some time) :
    pieces (· == '\n') (writeLine stamp mark listing).toList =
      [(writeLine stamp mark listing).toList] := by
  apply pieces_of_forall
  intro c member
  rw [writeLine, String.toList_ofList] at member
  have blank (same : c = '\n') : isBlank c = true := by
    rw [same]
    rfl
  refine beq_eq_false_iff_ne.mpr fun same => ?_
  rcases mem_intercalate member with rfl | ⟨token, listed, inside⟩
  · cases same
  · have solid := (solid_line marked named stamped token listed).2 c inside
    exact Bool.false_ne_true (solid.symm.trans (blank same))

/-- A written line holds one entry and gives rise to no warning. -/
theorem decode_line (marked : mark ∈ marks) (named : ∀ entry ∈ listing, IsFieldName entry.1)
    {stamp : String} {time : Timestamp} (stamped : Timestamp.parse? stamp.toList = some time) :
    decode (writeLine stamp mark listing) =
      ⟨(listing.operations mark).foldl Operation.apply TextMap.empty, []⟩ := by
  have read := read_writeLine marked named stamped
  have split := pieces_writeLine marked named stamped
  have entry : entries (writeLine stamp mark listing) = [⟨time, listing.operations mark⟩] := by
    rw [entries_eq_filterMap, split, List.filterMap_cons, read]
    rfl
  have silent : warnings (writeLine stamp mark listing) = [] := by
    rw [warnings_eq_reports, split, reports_cons, reportOf?, read]
    rfl
  rw [decode, entry, silent, replay, List.mergeSort_singleton]
  rfl

/-- Behind a log, and not earlier than it, a written line goes on from what the log says. -/
theorem decode_append_line (marked : mark ∈ marks)
    (named : ∀ entry ∈ listing, IsFieldName entry.1) {stamp : String} {time : Timestamp}
    (stamped : Timestamp.parse? stamp.toList = some time) {content : String}
    (later : ∀ entry ∈ entries content, ¬ time.Before entry.timestamp) :
    decode (content ++ "\n" ++ writeLine stamp mark listing) =
      ⟨(listing.operations mark).foldl Operation.apply (decode content).fields,
        (decode content).warnings⟩ := by
  have read := read_writeLine marked named stamped
  have split : pieces (· == '\n') (content ++ "\n" ++ writeLine stamp mark listing).toList =
      pieces (· == '\n') content.toList ++ [(writeLine stamp mark listing).toList] := by
    rw [String.toList_append, String.toList_append, List.append_assoc,
      ← pieces_writeLine marked named stamped]
    exact pieces_append_cons (by rfl) ..
  have entry : entries (content ++ "\n" ++ writeLine stamp mark listing) =
      entries content ++ [⟨time, listing.operations mark⟩] := by
    rw [entries_eq_filterMap, split, List.filterMap_append, ← entries_eq_filterMap,
      List.filterMap_cons, read]
    rfl
  have silent : warnings (content ++ "\n" ++ writeLine stamp mark listing) = warnings content := by
    rw [warnings_eq_reports, split, reports_append, ← warnings_eq_reports, reports_cons, reportOf?,
      read]
    exact List.append_nil _
  have ordered : ∀ early ∈ entries content, ∀ late ∈ [Entry.mk time (listing.operations mark)],
      early.timestamp.notAfter late.timestamp = true := by
    intro early member late last
    rw [List.mem_singleton.mp last]
    exact Timestamp.notAfter_of_not_before (later early member)
  rw [decode, entry, silent, replay_append ordered, resume, chronological, List.mergeSort_singleton]
  rfl

/-! ### Fields -/

/-- Fields are known by their names and the values that they have. -/
theorem Fields.ext {first second : Fields}
    (names : ∀ field, first.contains field = true ↔ second.contains field = true)
    (values : ∀ field value, first.has field value ↔ second.has field value) :
    first = second := by
  refine TextMap.ext_get? fun field => ?_
  have named := names field
  have held := values field
  simp only [has_iff_contains_getD] at held
  rw [TextMap.contains, TextMap.contains] at named
  cases here : first.get? field with
  | none =>
    cases there : second.get? field with
    | none => rfl
    | some others => simp [here, there] at named
  | some texts =>
    cases there : second.get? field with
    | none => simp [here, there] at named
    | some others =>
        rw [here, there] at held
        exact congrArg some (TextSet.ext_contains held)

/-- The fields of a log are listed as they are. -/
theorem lists_ofFields (fields : Fields) : Lists (.ofFields fields) fields where
  names field := by
    rw [← TextMap.mem_keys_iff, TextMap.keys, Listing.ofFields, List.map_map]
    rfl
  values field value := by
    constructor
    · rintro ⟨entry, listed, same, member⟩
      obtain ⟨⟨name, values⟩, held, rfl⟩ := List.mem_map.mp listed
      cases same
      exact ⟨values, (fields.mem_entries_iff ..).mp held, (values.mem_toList_iff value).mp member⟩
    · rintro ⟨values, found, member⟩
      exact ⟨_, List.mem_map.mpr ⟨(field, values), (fields.mem_entries_iff ..).mpr found, rfl⟩, rfl,
        (values.mem_toList_iff value).mpr member⟩

/-- The operations of a listing name its fields and change each of their values. -/
theorem mem_operations_iff {operation : Operation} :
    operation ∈ listing.operations mark ↔
      ∃ entry ∈ listing, operation = .mention entry.1 ∨
        ∃ value ∈ entry.2, operation = changeOf mark entry.1 value := by
  simp only [Listing.operations, List.mem_flatMap, List.mem_cons, List.mem_map,
    eq_comm (b := operation)]

@[simp] theorem field_changeOf (mark : Char) (name value : String) :
    (changeOf mark name value).field = name := by
  unfold changeOf
  split <;> rfl

@[simp] theorem concern?_changeOf (mark : Char) (name value : String) :
    (changeOf mark name value).concern? = some (name, value) := by
  unfold changeOf
  split <;> rfl

/-- The operations of a listing are about its fields. -/
theorem exists_operation_field_iff {field : String} :
    (∃ operation ∈ listing.operations mark, operation.field = field) ↔
      field ∈ listing.map Prod.fst := by
  rw [List.mem_map]
  constructor
  · intro ⟨operation, member, about⟩
    obtain ⟨entry, listed, rfl | ⟨value, -, rfl⟩⟩ := mem_operations_iff.mp member
    · exact ⟨entry, listed, about⟩
    · exact ⟨entry, listed, (field_changeOf ..).symm.trans about⟩
  · intro ⟨entry, listed, about⟩
    exact ⟨.mention entry.1, mem_operations_iff.mpr ⟨entry, listed, .inl rfl⟩, about⟩

/-- The operations of a listing concern its values, each as the mark says. -/
theorem concerns_operations_iff {operation : Operation} {field value : String} :
    operation ∈ listing.operations mark ∧ operation.concern? = some (field, value) ↔
      listing.has field value ∧ operation = changeOf mark field value := by
  constructor
  · intro ⟨member, concerned⟩
    obtain ⟨entry, listed, rfl | ⟨added, inside, rfl⟩⟩ := mem_operations_iff.mp member
    · cases concerned
    · rw [concern?_changeOf] at concerned
      cases concerned
      exact ⟨⟨entry, listed, rfl, inside⟩, rfl⟩
  · rintro ⟨⟨entry, listed, rfl, inside⟩, rfl⟩
    exact ⟨mem_operations_iff.mpr ⟨entry, listed, .inr ⟨value, inside, rfl⟩⟩, concern?_changeOf ..⟩

/-- Operations that all say the same about a value decide about it, if there are any. -/
theorem has_foldl_apply_of_agree {operations : List Operation} {field value : String}
    {change : Operation}
    (agree : ∀ operation ∈ operations, operation.concern? = some (field, value) →
      operation = change) (fields : Fields) :
    Fields.has (operations.foldl Operation.apply fields) field value ↔
      (change = .add field value ∧
          ∃ operation ∈ operations, operation.concern? = some (field, value)) ∨
        (fields.has field value ∧
          ∀ operation ∈ operations, operation.concern? ≠ some (field, value)) := by
  induction operations generalizing fields with
  | nil => simp
  | cons operation rest step =>
      obtain ⟨first, others⟩ := List.forall_mem_cons.mp agree
      rw [List.foldl_cons, step others, has_apply, List.exists_mem_cons_iff, List.forall_mem_cons]
      by_cases concerned : operation.concern? = some (field, value)
      · obtain rfl := first concerned
        simp only [concerned, ↓reduceIte, true_or, and_true, ne_eq, not_true_eq_false, false_and,
          and_false, or_false]
        -- Whether or not there is a later one, it says the same.
        rw [← and_or_left]
        exact and_iff_left ((Classical.em _).imp_right fun none other member again =>
          none ⟨other, member, again⟩)
      · simp only [concerned, ↓reduceIte, false_or, ne_eq, not_false_eq_true, true_and]

/-- What the operations of a listing change: its fields are named, and its values are added or
removed. -/
theorem foldl_operations (mark : Char) (listing : Listing) (fields : Fields) :
    (∀ field, ((listing.operations mark).foldl Operation.apply fields).contains field = true ↔
        field ∈ listing.map Prod.fst ∨ fields.contains field = true) ∧
      ∀ field value,
        Fields.has ((listing.operations mark).foldl Operation.apply fields) field value ↔
          (mark = '+' ∧ listing.has field value) ∨
            (fields.has field value ∧ ¬ listing.has field value) := by
  refine ⟨fun field => ?_, fun field value => ?_⟩
  · rw [contains_foldl_apply, exists_operation_field_iff]
  · have added : changeOf mark field value = .add field value ↔ mark = '+' := by
      unfold changeOf
      split <;> simp [*]
    have concerned : (∃ operation ∈ listing.operations mark,
        operation.concern? = some (field, value)) ↔ listing.has field value := by
      simp only [concerns_operations_iff, exists_and_left, exists_eq, and_true]
    rw [has_foldl_apply_of_agree fun operation member concerned =>
      (concerns_operations_iff.mp ⟨member, concerned⟩).2, added, concerned, ← concerned]
    simp only [not_exists, not_and, ne_eq]

/-- **Every value can be written and read back.** A line with the names of fields and their values,
each behind a plus sign, says just that and gives rise to no warning; the same names and values
behind minus signs, on a line that no entry is later than, take just those values away. A value in
base64 is read from one encoding only. -/
theorem decode_writeLine {fields : Fields} {listing : Listing}
    (named : ∀ name, fields.contains name = true → IsFieldName name)
    (lists : Lists listing fields) :
    (∀ stamp time, Timestamp.parse? stamp.toList = some time →
      decode (writeLine stamp '+' listing) = ⟨fields, []⟩) ∧
    (∀ content stamp time, Timestamp.parse? stamp.toList = some time →
      (∀ entry ∈ entries content, ¬ time.Before entry.timestamp) →
        let removed := decode (content ++ "\n" ++ writeLine stamp '-' listing)
        removed.warnings = (decode content).warnings ∧
          (∀ field, removed.fields.contains field = true ↔
            fields.contains field = true ∨ (decode content).fields.contains field = true) ∧
          ∀ field value, Fields.has removed.fields field value ↔
            Fields.has (decode content).fields field value ∧ ¬ fields.has field value) ∧
    ∀ payload value, readValue ('!' :: payload) = .ok value ↔
      payload = Base64.encode (Utf8.encode value.toList) := by
  have shaped : ∀ entry ∈ listing, IsFieldName entry.1 := fun entry listed =>
    named _ ((lists.names _).mp (List.mem_map_of_mem listed))
  refine ⟨fun stamp time stamped => ?_, fun content stamp time stamped later => ?_,
    fun payload value => readValue_encoded_eq_ok_iff⟩
  · obtain ⟨names, values⟩ := foldl_operations '+' listing TextMap.empty
    have same : (listing.operations '+').foldl Operation.apply TextMap.empty = fields := by
      refine Fields.ext (fun field => ?_) fun field value => ?_
      · rw [names, lists.names, TextMap.contains_empty, or_iff_left Bool.false_ne_true]
      · have none : ¬ Fields.has TextMap.empty field value := fun ⟨_, found, _⟩ => by cases found
        rw [values, lists.values, and_iff_right rfl, or_iff_left fun held => none held.1]
    rw [decode_line (List.mem_cons_self) shaped stamped, same]
  · obtain ⟨names, values⟩ := foldl_operations '-' listing (decode content).fields
    rw [decode_append_line (by decide) shaped stamped later]
    refine ⟨rfl, fun field => ?_, fun field value => ?_⟩
    · rw [names, lists.names]
    · rw [values, lists.values, or_iff_right fun added => absurd added.1 (by decide)]

/-- A field has five values of which one can stand in a token, and another field has none; the line
that says so is taken back by the next one. -/
theorem decode_writeLine_of_awkward :
    let values := TextSet.ofTexts ["", "!x", "+y", "a b\n", "\u3042"]
    let fields := (TextMap.empty.insert "artist" values).insert "genre" TextMap.empty
    let line := writeLine "1000s" '+' (.ofFields fields)
    let removed := decode (line ++ "\n" ++ writeLine "1001s" '-' (.ofFields fields))
    decode line = ⟨fields, []⟩ ∧ removed.warnings = [] ∧
      removed.fields.contains "genre" = true ∧ ¬ Fields.has removed.fields "artist" "+y" ∧
      readValue "!YSBiCg==".toList = .ok "a b\n" := by
  intro values fields line removed
  have named : ∀ name, fields.contains name = true → IsFieldName name := by
    intro name known
    rw [TextMap.contains_insert, TextMap.contains_insert, TextMap.contains_empty, Bool.or_false,
      Bool.or_eq_true, beq_iff_eq, beq_iff_eq] at known
    rcases known with rfl | rfl
    · exact ⟨by decide, by decide +kernel, by simp [isBlank], rfl⟩
    · exact ⟨by decide, by decide +kernel, by simp [isBlank], rfl⟩
  obtain ⟨adds, removes, reads⟩ := decode_writeLine named (lists_ofFields fields)
  have said := adds "1000s" ⟨1000, 0⟩ (by decide +kernel)
  obtain ⟨silent, names, left⟩ := removes line "1001s" ⟨1001, 0⟩ (by decide +kernel)
    (by decide +kernel)
  have listed : fields.contains "genre" = true := by decide
  have held : Fields.has fields "artist" "+y" := ⟨values, by decide, by decide⟩
  refine ⟨said, ?_, (names "genre").mpr (.inl listed), fun kept => ((left _ _).mp kept).2 held, ?_⟩
  · rw [silent, said]
  · exact (reads _ _).mpr (by decide)

end Log

end AnnexCatalog
