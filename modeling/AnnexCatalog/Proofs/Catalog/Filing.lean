import AnnexCatalog.Proofs.Catalog.Takeover
import AnnexCatalog.Proofs.Catalog.Values
import AnnexCatalog.Proofs.Search.Success
import AnnexCatalog.Query.Parse
import Mathlib.Algebra.Ring.Nat

/-! # No value of a log is lost or misfiled

Whatever values a log gives a field, something of the field stands in at most one place
(`Catalog.placesOf`), and the item shows these values and is found by searches for items without
values exactly where there are none (`Files`). A run that writes a log leaves its item like that,
whatever stood in the places before.
-/

namespace AnnexCatalog

open Log

/-- The query for the items whose logs name a field but leave it without values. -/
def Query.unfilled (field : Field) : Query :=
  ⟨[[.filter { field, operator := .empty, value := "" }]]⟩

/-- It is what a field with an empty quotation asks for. -/
example : Query.parse "genre:\"\"" = .ok (.unfilled .genre) := by decide +kernel

/-! ### Values as they are shown -/

/-- How the values of a field are shown: a single one as it reads in the column, if there is one. -/
def Field.shownOf (field : Field) : List String → List String
  | [value] =>
      if field.kind = .group then [value]
      else ((Scalar.read? field.kind value).map Scalar.shown).toList
  | values => values

namespace Field

variable {field : Field} {values : List String}

/-- Texts and groups are shown as they are. -/
theorem shownOf_of_texts (kind : field.kind = .text ∨ field.kind = .group) (values : List String) :
    field.shownOf values = values := by
  rcases values with - | ⟨value, - | ⟨other, rest⟩⟩
  · rfl
  · rcases kind with text | group
    · rw [shownOf, text]
      rfl
    · exact if_pos group
  · rfl

/-- Several values of a field are shown as they are. -/
theorem shownOf_of_several (several : 2 ≤ values.length) : field.shownOf values = values := by
  rcases values with - | ⟨value, - | ⟨other, rest⟩⟩
  · rfl
  · exact absurd several (Nat.lt_irrefl 1)
  · rfl

/-- A numeric field is no group. -/
theorem kind_ne_group (numeric : field.isNumeric = true) : field.kind ≠ .group := by
  intro group
  rw [isNumeric, group] at numeric
  cases numeric

/-- The only value of a numeric field is shown as the number that it is read as, if it is one. -/
theorem shownOf_of_number (numeric : field.isNumeric = true) (value : String) :
    field.shownOf [value] = ((Scalar.read? field.kind value).map Scalar.shown).toList :=
  if_neg (kind_ne_group numeric)

/-- Values that are in order are shown in order. -/
theorem pairwise_shownOf (ascending : values.Pairwise (· < ·)) :
    (field.shownOf values).Pairwise (· < ·) := by
  rcases values with - | ⟨value, - | ⟨other, rest⟩⟩
  · exact .nil
  · rw [shownOf]
    split
    · exact ascending
    · cases Scalar.read? field.kind value with
      | none => exact .nil
      | some scalar => exact List.pairwise_singleton _ _
  · exact ascending

end Field

/-! ### Places -/

namespace Places

/-- Something stands in at most one of the places. -/
def Single (places : Places) : Prop :=
  places.column.isSome.toNat + (!places.members.isEmpty).toNat + places.marked.toNat ≤ 1

/-- The values as they are shown. -/
def values (places : Places) : List String :=
  match places.members with
  | [] => (places.column.map Scalar.shown).toList
  | members => members

/-- What is held of a field is at one place. -/
theorem single_ofHolding (holding : Option Holding) : (ofHolding holding).Single := by
  rcases holding with - | - | scalar | values
  · exact Nat.zero_le 1
  · exact Nat.le_refl 1
  · exact Nat.le_refl 1
  · have members := Bool.toNat_le (!values.toList.isEmpty)
    simpa [Single, ofHolding] using members

/-- A field is marked empty exactly if it is held as empty. -/
theorem marked_ofHolding_iff {holding : Option Holding} :
    (ofHolding holding).marked = true ↔ holding = some .empty := by
  rcases holding with - | - | scalar | values <;> simp [ofHolding]

section OfLog

variable {fields : Fields} {field : Field}

/-- A field is marked empty exactly if a log names it and leaves it no value. -/
theorem marked_holding?_iff (listed : field ∈ Field.metadata) :
    (ofHolding (holding? fields field)).marked = true ↔
      names fields field = true ∧ (valuesOf fields field).toList = [] := by
  rw [marked_ofHolding_iff, holding?]
  by_cases named : names fields field = true
  · rw [if_pos ⟨listed, named⟩, ofValues?_eq_empty_iff, and_iff_right named]
  · simp only [named, and_false, if_false, reduceCtorEq, false_and]

/-- A single value that should be a number is kept as its number, or else not at all. -/
theorem ofHolding_of_number (listed : field ∈ Field.metadata) (numeric : field.isNumeric = true)
    {value : String} (single : (valuesOf fields field).toList = [value]) :
    ofHolding (holding? fields field) = ⟨Scalar.read? field.kind value, [], false⟩ := by
  have named : names fields field = true := by
    by_contra unnamed
    rw [valuesOf_of_unnamed (Bool.eq_false_iff.mpr unnamed)] at single
    cases single
  rw [holding?, if_pos ⟨listed, named⟩, Holding.ofValues?, single]
  dsimp only
  rw [if_neg (Field.kind_ne_group numeric)]
  cases Scalar.read? field.kind value <;> rfl

/-- The values that a log gives a field are shown wherever they are kept. -/
theorem values_ofHolding (listed : field ∈ Field.metadata) :
    (ofHolding (holding? fields field)).values = field.shownOf (valuesOf fields field).toList := by
  cases named : names fields field with
  | false =>
      rw [holding?_of_unnamed named, valuesOf_of_unnamed named]
      rfl
  | true =>
      rw [holding?, if_pos ⟨listed, named⟩, Holding.ofValues?]
      rcases found : (valuesOf fields field).toList with - | ⟨value, - | ⟨other, rest⟩⟩
      · rfl
      · dsimp only [Field.shownOf]
        split
        · simp [ofHolding, values, found]
        · cases Scalar.read? field.kind value <;> rfl
      · simp [ofHolding, values, found, Field.shownOf]

end OfLog

end Places

namespace Catalog

/-- What the tables hold of a field of an item. -/
def placesOf (catalog : Catalog) (row : Row) (field : Field) : Places where
  column := row.column? field
  members := (catalog.itemOf row).members field
  marked := (catalog.emptiesOf row.id).contains field

/-- How a catalog files the values that a log gives a metadata field of an item. -/
structure Files (catalog : Catalog) (row : Row) (fields : Fields) (field : Field) : Prop where
  /-- The item is found as one without values where the log names the field but gives it none. -/
  found : ∃ found, catalog.search? (.unfilled field) none = some found ∧
    (catalog.itemOf row ∈ found ↔
      names fields field = true ∧ (valuesOf fields field).toList = [])
  unnamed : names fields field = false → catalog.placesOf row field = ⟨none, [], false⟩
  valueless : (valuesOf fields field).toList = [] → (catalog.itemOf row).values field = []
  texts : field.kind = .text ∨ field.kind = .group →
    (catalog.itemOf row).values field = (valuesOf fields field).toList
  several : 2 ≤ (valuesOf fields field).toList.length →
    (catalog.itemOf row).values field = (valuesOf fields field).toList
  ascending : ((catalog.itemOf row).values field).Pairwise (· < ·)
  /-- The column has the number of a single value, or nothing is kept of it. -/
  number : field.isNumeric = true → ∀ value, (valuesOf fields field).toList = [value] →
    catalog.placesOf row field = ⟨Scalar.read? field.kind value, [], false⟩ ∧
      (catalog.itemOf row).values field =
        ((Scalar.read? field.kind value).map Scalar.shown).toList

variable {catalog : Catalog} {row : Row} {field : Field}

/-- A search for items without values does not fail. -/
theorem search?_unfilled (sound : catalog.Sound) (field : Field) :
    catalog.search? (.unfilled field) none = some (catalog.matching (.unfilled field)) :=
  search?_singleton sound fun _ => rfl

/-- A search for an empty field finds the rows at which it is marked. -/
theorem mem_matching_unfilled_iff (sound : catalog.Sound) (member : row ∈ catalog.rows) :
    catalog.itemOf row ∈ catalog.matching (.unfilled field) ↔
      (catalog.placesOf row field).marked = true :=
  mem_matching_singleton_iff (itemOf_mem_items sound.consistent member)

/-- The places of a field in the catalog are those that its metadata have. -/
theorem placesOf_eq_places (lawful : (catalog.metadataOf row).Lawful)
    (listed : field ∈ Field.metadata) :
    catalog.placesOf row field = (catalog.metadataOf row).places field := by
  rw [placesOf, Metadata.places, row.column?_eq_lookup listed, members_itemOf lawful]
  rfl

/-- The values of a metadata field are shown as they stand in its places. -/
theorem values_itemOf (lawful : (catalog.metadataOf row).Lawful) (listed : field ∈ Field.metadata) :
    (catalog.itemOf row).values field = (catalog.placesOf row field).values := by
  rw [placesOf_eq_places lawful listed, Metadata.places, Places.values]
  cases members : (catalog.metadataOf row).membersIn field with
  | nil => exact values_itemOf_of_column lawful listed members
  | cons value rest =>
      rw [values_itemOf_of_members lawful (members ▸ List.cons_ne_nil _ _), members]

section Reads

variable {log : String} (reads : catalog.metadataOf row = (Digest.ofLog log).metadata)
include reads

theorem lawful_of_reads : (catalog.metadataOf row).Lawful :=
  reads ▸ lawful_ofLog log

/-- The places of a field in the catalog are those of what its log makes of it. -/
theorem placesOf_eq_ofHolding (listed : field ∈ Field.metadata) :
    catalog.placesOf row field = .ofHolding (holding? (Log.decode log).fields field) := by
  rw [placesOf_eq_places (lawful_of_reads reads) listed, reads, places_ofLog]

/-- Whatever the log, something of a field stands in at most one place. -/
theorem single_placesOf (field : Field) : (catalog.placesOf row field).Single := by
  by_cases listed : field ∈ Field.metadata
  · rw [placesOf_eq_ofHolding reads listed]
    exact Places.single_ofHolding _
  · have lawful := lawful_of_reads reads
    have nowhere : (catalog.metadataOf row).places field = ⟨none, [], false⟩ := by
      rw [reads, places_ofLog, holding?, if_neg fun named => listed named.1]
      rfl
    have members : (catalog.itemOf row).members field = [] :=
      (members_itemOf lawful field).trans (congrArg Places.members nowhere)
    have marked : (catalog.emptiesOf row.id).contains field = false :=
      congrArg Places.marked nowhere
    rw [Places.Single, placesOf, members, marked]
    exact Bool.toNat_le _

/-- An item files every value of the log that its metadata come from. -/
theorem files_of_reads (sound : catalog.Sound) (member : row ∈ catalog.rows)
    (listed : field ∈ Field.metadata) : catalog.Files row (Log.decode log).fields field := by
  have lawful := lawful_of_reads reads
  have places := placesOf_eq_ofHolding reads listed
  have shown : (catalog.itemOf row).values field =
      field.shownOf (valuesOf (Log.decode log).fields field).toList := by
    rw [values_itemOf lawful listed, places, Places.values_ofHolding listed]
  refine ⟨⟨_, search?_unfilled sound field, ?_⟩, ?_, ?_, ?_, ?_, ?_, ?_⟩
  · rw [mem_matching_unfilled_iff sound member, places, Places.marked_holding?_iff listed]
  · intro unnamed
    rw [places, holding?_of_unnamed unnamed]
    rfl
  · intro valueless
    rw [shown, valueless]
    rfl
  · exact fun kind => shown.trans (Field.shownOf_of_texts kind _)
  · exact fun several => shown.trans (Field.shownOf_of_several several)
  · exact shown ▸ Field.pairwise_shownOf (TextMap.keys_ascending _)
  · intro numeric value single
    rw [shown, single]
    exact ⟨places.trans (Places.ofHolding_of_number listed numeric single),
      Field.shownOf_of_number numeric value⟩

end Reads

/-- The warnings of logs are their rejected lines and the values that are no numbers, added up. -/
theorem warningsOf_eq_sum (logs : List Blob) :
    warningsOf logs = (logs.map fun log => (Log.decode log.content).warnings.length +
      (misread (Log.decode log.content).fields).length).sum := by
  induction logs with
  | nil => rfl
  | cons log rest step =>
      rw [warningsOf, step, warnings_ofLog, List.map_cons, List.sum_cons]

/-- A run that writes logs counts a warning for each line that is skipped and for each single value
that should be a number and is none. The item of the last log of a key has the metadata and the
tokens of this log and nothing else: something of a field stands in at most one place, and every
value of a metadata field is filed. -/
theorem TakesOver.files_logs {now : Nat} {store : LogStore} {before after : Catalog}
    {logs : List Blob} {warnings : Nat} (reached : before.Reachable)
    (taken : TakesOver now store before after logs warnings) :
    warnings = (logs.map fun log => (Log.decode log.content).warnings.length +
        (misread (Log.decode log.content).fields).length).sum ∧
      ∀ earlier log later, logs = earlier ++ log :: later → log.key ∉ later.map Blob.key →
        ∃ row ∈ after.rows, after.find? log.key = some (after.itemOf row) ∧
          after.metadataOf row = (Digest.ofLog log.content).metadata ∧
          after.tokensOf row.id =
            [(Digest.ofLog log.content).metadata.indexedTokens row.path] ∧
          (∀ field, (after.placesOf row field).Single) ∧
          ∀ field ∈ Field.metadata, after.Files row (Log.decode log.content).fields field := by
  refine ⟨taken.warnings_eq.trans (warningsOf_eq_sum logs), ?_⟩
  intro earlier log later split last
  have sound := taken.sound reached.sound
  obtain ⟨row, member, named, reads⟩ := taken.exists_row_reads reached.sound split last
  have metadata : after.metadataOf row = (Digest.ofLog log.content).metadata := reads.metadata
  have found := find?_key_of_mem sound.consistent member
  have tokens := sound.tokensOf_eq member
  rw [named] at found
  rw [metadata] at tokens
  exact ⟨row, member, found, metadata, tokens, single_placesOf metadata,
    fun field listed => files_of_reads metadata sound member listed⟩

/-- One artist becomes two, the genres go, the tempo is misread and the year is not named again. -/
theorem TakesOver.files_logs_of_rewritten :
    let store := MemoryStore.new.put "k" "1s artist +A genre +x +y bpm +120 year +1999"
      ⟨"a.mp3", true⟩
    let log : Blob := ⟨"k", "1s artist +A +B genre bpm +fast"⟩
    let rewritten := store.put "k" log.content ⟨"a.mp3", true⟩
    let before := (Catalog.empty.build 1 store.answers).catalog
    let after := (before.refresh 2 rewritten.answers).catalog
    before.Reachable ∧ TakesOver 2 rewritten.answers before after [log] 1 ∧
      1 = ([log].map fun log => (Log.decode log.content).warnings.length +
        (misread (Log.decode log.content).fields).length).sum ∧
      ∃ row ∈ after.rows, after.find? log.key = some (after.itemOf row) ∧
        after.metadataOf row = (Digest.ofLog log.content).metadata ∧
        after.tokensOf row.id = [(Digest.ofLog log.content).metadata.indexedTokens row.path] ∧
        (∀ field, (after.placesOf row field).Single) ∧
        ∀ field ∈ Field.metadata, after.Files row (Log.decode log.content).fields field := by
  intro store log rewritten before after
  have reached : before.Reachable := Reachable.empty.build 1 store.answers
  let changes : Changes :=
    ⟨"r2", TextSet.ofTexts ["k"], [log], TextMap.ofList [("k", ⟨"a.mp3", true⟩)]⟩
  have built : before.state = some ⟨"r1", 1, 1⟩ := by decide +kernel
  have read : (readChanges rewritten.answers "r1").outcome = .ok (some changes) := by
    refine readChanges_eq_ok_some_iff.mpr ⟨?_, ?_, ?_, ?_⟩
    · decide +kernel
    · decide +kernel
    · decide +kernel
    · rw [if_neg (by decide +kernel)]
      constructor
      · decide +kernel
      · decide +kernel
  have succeeded : (before.refresh 2 rewritten.answers).outcome =
      .ok (some ⟨some "r1", "r2", 1, 1, 0, 1⟩) := by decide +kernel
  have taken : TakesOver 2 rewritten.answers before after [log] 1 :=
    .refresh built read succeeded
  obtain ⟨counted, filed⟩ := TakesOver.files_logs reached taken
  exact ⟨reached, taken, counted, filed [] log [] rfl List.not_mem_nil⟩

end Catalog

end AnnexCatalog
