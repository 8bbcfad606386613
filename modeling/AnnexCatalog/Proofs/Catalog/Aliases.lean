import AnnexCatalog.Proofs.Catalog.Values
import AnnexCatalog.Proofs.Log.Rejections
import AnnexCatalog.Proofs.Query.Grammar
import AnnexCatalog.Proofs.Text.Tokens
import AnnexCatalog.Catalog.Build

/-! # Aliases of fields

A log is replayed for every name on its own, and only then are the values of all names of a field
taken together. So a value that is removed under one name of its field lingers if another name still
has it. Apart from such values it does not matter under which of its names a log names a field
(`Log.Respells.changes_only_removed`).
-/

namespace AnnexCatalog

namespace Log

open Text

/-! ### Respelled logs -/

/-- A token stays as it is, or it means a metadata field and is replaced by the field's name. -/
def TokenRespelled (token other : List Char) : Prop :=
  other = token ∨ ∃ field ∈ Field.metadata,
    Field.ofName? (String.ofList token) = some field ∧ other = field.name.toList

/-- The timestamp of a line stays as it is, and tokens after it may be respelled. -/
def LineRespelled (line other : List Char) : Prop :=
  (words other).head? = (words line).head? ∧
    List.Forall₂ TokenRespelled (words line).tail (words other).tail

/-- Texts with the same lines, but for names of metadata fields that the second has in place of
other names of the same fields. -/
def Respells (content respelled : String) : Prop :=
  List.Forall₂ LineRespelled (pieces (· == '\n') content.toList)
    (pieces (· == '\n') respelled.toList)

instance (token other : List Char) : Decidable (TokenRespelled token other) :=
  inferInstanceAs (Decidable (_ ∨ _))

instance (line other : List Char) : Decidable (LineRespelled line other) :=
  inferInstanceAs (Decidable (_ ∧ _))

instance (content respelled : String) : Decidable (Respells content respelled) :=
  inferInstanceAs (Decidable (List.Forall₂ _ _ _))

/-! ### One name for every field -/

/-- The canonical name of the field that a name means; a name that means no field stays as it is. -/
def canonicalName (name : String) : String :=
  ((Field.ofName? name).map Field.name).getD name

def Operation.canonical : Operation → Operation
  | .mention name => .mention (canonicalName name)
  | .add name value => .add (canonicalName name) value
  | .remove name value => .remove (canonicalName name) value

/-- An entry with the canonical names of all fields. -/
def Entry.canonical (entry : Entry) : Entry :=
  { entry with operations := entry.operations.map Operation.canonical }

/-- All names of a field have the same canonical name. -/
theorem canonicalName_eq_of_ofName? {name other : String} {field : Field}
    (meant : Field.ofName? name = some field) (otherMeant : Field.ofName? other = some field) :
    canonicalName name = canonicalName other := by
  rw [canonicalName, canonicalName, meant, otherMeant]
  rfl

/-- The canonical name is that of a field exactly for the names of the field. -/
theorem canonicalName_eq_name_iff {name : String} {field : Field} :
    canonicalName name = field.name ↔ Field.ofName? name = some field := by
  unfold canonicalName
  cases meant : Field.ofName? name with
  | none =>
      constructor
      · rintro rfl
        exact meant.symm.trans (Field.ofName?_name field)
      · exact nofun
  | some other =>
      rw [Option.map_some, Option.getD_some, Option.some.injEq]
      constructor
      · intro same
        have known := Field.ofName?_name other
        rw [same, Field.ofName?_name field] at known
        exact (Option.some.inj known).symm
      · exact congrArg Field.name

@[simp] theorem field_canonical (operation : Operation) :
    operation.canonical.field = canonicalName operation.field := by
  cases operation <;> rfl

/-- An operation in canonical form concerns the same value, of the canonical field. -/
theorem concern?_canonical (operation : Operation) :
    operation.canonical.concern? =
      operation.concern?.map fun concern => (canonicalName concern.1, concern.2) := by
  cases operation <;> rfl

/-! ### Names in any letter case -/

/-- An ASCII letter is lowered on its own. -/
theorem lowerChar_of_isAlpha {c : Char} (letter : c.isAlpha = true) :
    lowerChar c = [c.toLower] := by
  have all : ∀ code < 128, (Char.ofNat code).isAlpha = true →
      lowerChar (Char.ofNat code) = [(Char.ofNat code).toLower] := by decide +kernel
  have small : c.toNat < 128 := by
    have code : c.toNat = c.val.toNat := rfl
    rcases Bool.or_eq_true_iff.mp letter with upper | lower
    · have bound : c.val.toNat ≤ 90 := (of_decide_eq_true upper).2
      omega
    · have bound : c.val.toNat ≤ 122 := of_decide_eq_true (Bool.and_eq_true_iff.mp lower).2
      omega
  rw [← Char.ofNat_toNat c] at letter ⊢
  exact all c.toNat small letter

/-- A log is read with names in lower case, which mean the same fields. -/
theorem ofName?_lower {name : List Char} {field : Field}
    (meant : Field.ofName? (String.ofList name) = some field) :
    Field.ofName? (lower (String.ofList name)) = some field := by
  obtain ⟨-, alphabetic⟩ := Query.isAlpha_of_ofName?_eq_some meant
  have plain : 'Σ' ∉ name := fun member => absurd (alphabetic _ member) (by decide)
  have letters : lower (String.ofList name) = String.ofList (asciiLower name) := by
    rw [lower, String.toList_ofList, lowerFrom_eq_flatMap plain, asciiLower,
      ← List.flatMap_pure_eq_map]
    exact congrArg _ (List.flatMap_congr fun c member => lowerChar_of_isAlpha (alphabetic c member))
  rw [letters]
  rcases List.mem_cons.mp (Query.mem_names_of_ofName?_eq_some meant) with same | other
  · rw [same, Field.ofName?_name]
  · exact Field.ofName?_of_mem_aliases other

/-! ### Reading respelled lines -/

/-- A result is mapped in the same way with its error and without. -/
theorem toOption_map {ε α β : Type} (result : Except ε α) (f : α → β) :
    (result.map f).toOption = result.toOption.map f := by
  cases result <;> rfl

/-- What is read of tokens, with the canonical names of all fields. -/
def canonicalOperations? (current : Option String) (tokens : List (List Char)) :
    Option (List Operation) :=
  (readOperations current tokens).toOption.map (List.map Operation.canonical)

/-- A token that names a field is mentioned under the canonical name. -/
theorem canonicalOperations?_name (current : Option String) {token : List Char}
    (names : namesField token = true) (rest : List (List Char)) :
    canonicalOperations? current (token :: rest) =
      (canonicalOperations? (some (lower (String.ofList token))) rest).map
        (.mention (canonicalName (lower (String.ofList token))) :: ·) := by
  rw [canonicalOperations?, readOperations_name names, toOption_map, Option.map_map,
    canonicalOperations?, Option.map_map]
  rfl

/-- A token with a mark is an operation on the canonical field, if its value can be read and there
is such a field. -/
theorem canonicalOperations?_mark (current : Option String) {mark : Char} (marked : mark ∈ marks)
    (body : List Char) (rest : List (List Char)) :
    canonicalOperations? current ((mark :: body) :: rest) =
      (readValue body).toOption.bind fun value =>
        (current.map canonicalName).bind fun name =>
          (canonicalOperations? current rest).map (changeOf mark name value :: ·) := by
  rw [canonicalOperations?, readOperations_mark current marked]
  cases readValue body with
  | error problem => rfl
  | ok value =>
      cases current with
      | none => rfl
      | some name =>
          have canonical : (changeOf mark name value).canonical =
              changeOf mark (canonicalName name) value := by
            unfold changeOf
            split <;> rfl
          dsimp only [Except.toOption, Option.bind_some, Option.map_some]
          rw [← canonical, canonicalOperations?, Option.map_map]
          cases readOperations (some name) rest <;> rfl

/-- Names of the same field have the same canonical name, as they are read. -/
theorem canonicalName_lower_of_respelled {token other : List Char}
    (respelled : TokenRespelled token other) :
    namesField token = namesField other ∧
      (namesField token = true →
        canonicalName (lower (String.ofList token)) =
          canonicalName (lower (String.ofList other))) ∧
      (namesField token = false → token = other) := by
  rcases respelled with rfl | ⟨field, -, meant, rfl⟩
  · exact ⟨rfl, fun _ => rfl, fun _ => rfl⟩
  · have named {name : List Char} (known : Field.ofName? (String.ofList name) = some field) :
        namesField name = true := by
      obtain ⟨some, alphabetic⟩ := Query.isAlpha_of_ofName?_eq_some known
      unfold namesField
      split
      · exact absurd (alphabetic _ List.mem_cons_self) (by decide)
      · exact absurd (alphabetic _ List.mem_cons_self) (by decide)
      · rfl
    have canonical : Field.ofName? (String.ofList field.name.toList) = some field := by
      rw [String.ofList_toList, Field.ofName?_name]
    refine ⟨(named meant).trans (named canonical).symm, fun _ => ?_, fun unnamed => ?_⟩
    · exact canonicalName_eq_of_ofName? (ofName?_lower meant) (ofName?_lower canonical)
    · exact absurd ((named meant).symm.trans unnamed) (by decide)

/-- Respelled tokens are read alike, up to the names of the fields. -/
theorem canonicalOperations?_respelled {tokens others : List (List Char)}
    (respelled : List.Forall₂ TokenRespelled tokens others) {current other : Option String}
    (same : current.map canonicalName = other.map canonicalName) :
    canonicalOperations? current tokens = canonicalOperations? other others := by
  induction respelled generalizing current other with
  | nil => rfl
  | @cons token respelling rest otherRest replaced _ step =>
      obtain ⟨kinds, names, marks⟩ := canonicalName_lower_of_respelled replaced
      cases named : namesField token with
      | true =>
          have renamed := names named
          rw [canonicalOperations?_name current named,
            canonicalOperations?_name other (kinds ▸ named), renamed,
            @step (some _) (some _) (congrArg some renamed)]
      | false =>
          obtain rfl := marks named
          obtain ⟨mark, marked, body, rfl⟩ := exists_mark_of_namesField named
          rw [canonicalOperations?_mark current marked, canonicalOperations?_mark other marked,
            step same, same]

/-- What is read of a line, with the canonical names of all fields. -/
theorem read_respelled {line other : List Char} (respelled : LineRespelled line other) :
    (Entry.read line).toOption.map Entry.canonical =
      (Entry.read other).toOption.map Entry.canonical := by
  obtain ⟨stamps, tokens⟩ := respelled
  have read (text : List Char) : (Entry.read text).toOption.map Entry.canonical =
      ((words text).head?.bind Timestamp.parse?).bind fun timestamp =>
        (canonicalOperations? none (words text).tail).map fun operations =>
          ⟨timestamp, operations⟩ := by
    rw [Entry.read]
    cases words text with
    | nil => rfl
    | cons stamp tokens =>
        dsimp only [List.head?_cons, Option.bind_some, List.tail_cons]
        cases Timestamp.parse? stamp with
        | none => rfl
        | some timestamp =>
            dsimp only [Option.bind_some]
            rw [toOption_map, Option.map_map, canonicalOperations?, Option.map_map]
            rfl
  rw [read, read, stamps, canonicalOperations?_respelled tokens rfl]

/-- Respelled logs have the same entries, up to the names of the fields. -/
theorem Respells.entries_canonical {content respelled : String}
    (respells : Respells content respelled) :
    (entries content).map Entry.canonical = (entries respelled).map Entry.canonical := by
  rw [entries_eq_filterMap, entries_eq_filterMap]
  unfold Respells at respells
  generalize pieces (· == '\n') content.toList = texts at respells ⊢
  generalize pieces (· == '\n') respelled.toList = others at respells ⊢
  rw [List.map_filterMap, List.map_filterMap]
  induction respells with
  | nil => rfl
  | cons replaced _ step =>
      rw [List.filterMap_cons, List.filterMap_cons, read_respelled replaced, step]

/-! ### Operations under all names of a field -/

/-- The last operation on a value, under all names of its field together, removes it. -/
def Removed (entries : List Entry) (field : Field) (value : String) : Prop :=
  ∃ place, IsLastOn (entries.map Entry.canonical) field.name value place (.remove field.name value)

/-- The last operation on a value, under all names of its field together, adds it. -/
def Added (entries : List Entry) (field : Field) (value : String) : Prop :=
  ∃ place, IsLastOn (entries.map Entry.canonical) field.name value place (.add field.name value)

/-- Under some one name of its field, the last operation on a value adds it. -/
def Kept (entries : List Entry) (field : Field) (value : String) : Prop :=
  ∃ name place, Field.ofName? name = some field ∧
    IsLastOn entries name value place (.add name value)

section Names

variable {entries : List Entry} {field : Field} {value : String}

/-- Operations stay at their places in canonical form. -/
theorem operationAt?_canonical (entries : List Entry) (place : Place) :
    operationAt? (entries.map Entry.canonical) place =
      (operationAt? entries place).map Operation.canonical := by
  unfold operationAt?
  rw [List.getElem?_map]
  cases entries[place.entry]? with
  | none => rfl
  | some entry => exact List.getElem?_map

/-- Canonical names do not change the order of time. -/
theorem precedes_canonical_iff {first second : Place} :
    first.Precedes (entries.map Entry.canonical) second ↔ first.Precedes entries second := by
  unfold Place.Precedes
  simp only [List.getElem?_map, Option.map_eq_some_iff]
  constructor
  · rintro ⟨_, _, ⟨earlier, foundEarlier, rfl⟩, ⟨later, foundLater, rfl⟩, before⟩
    exact ⟨earlier, later, foundEarlier, foundLater, before⟩
  · rintro ⟨earlier, later, foundEarlier, foundLater, before⟩
    exact ⟨_, _, ⟨earlier, foundEarlier, rfl⟩, ⟨later, foundLater, rfl⟩, before⟩

/-- An operation in canonical form concerns a value of a field exactly if the operation does, under
one of its names. -/
theorem concern?_canonical_eq_some_iff {operation : Operation} :
    operation.canonical.concern? = some (field.name, value) ↔
      ∃ name, Field.ofName? name = some field ∧ operation.concern? = some (name, value) := by
  rw [concern?_canonical, Option.map_eq_some_iff]
  simp only [Prod.exists, Prod.mk.injEq]
  constructor
  · rintro ⟨name, _, concern, canonical, rfl⟩
    exact ⟨name, canonicalName_eq_name_iff.mp canonical, concern⟩
  · rintro ⟨name, meant, concern⟩
    exact ⟨name, value, concern, canonicalName_eq_name_iff.mpr meant, rfl⟩

/-- Of the operations on a value, if there are any, one is the last. -/
theorem exists_isLastOn {name : String} {place : Place} {operation : Operation}
    (stands : operationAt? entries place = some operation)
    (concern : operation.concern? = some (name, value)) :
    ∃ last final, IsLastOn entries name value last final := by
  have listed : (place, operation) ∈
      (timeline entries).filter fun entry => entry.2.concerns name value :=
    List.mem_filter.mpr ⟨(mem_timeline_iff entries place operation).mpr stands,
      beq_iff_eq.mpr concern⟩
  obtain ⟨⟨last, final⟩, found⟩ : ∃ final,
      ((timeline entries).filter fun entry => entry.2.concerns name value).getLast? = some final :=
    ⟨_, List.getLast?_eq_some_getLast (List.ne_nil_of_mem listed)⟩
  obtain ⟨among, concerned, maximal⟩ := (getLast?_filter_eq_some_iff (timeline_pairwise entries)
    (fun first second => Place.Precedes.asymm) _ _).mp found
  refine ⟨last, final, (mem_timeline_iff entries last final).mp among, beq_iff_eq.mp concerned, ?_⟩
  intro other change otherStands otherConcern
  exact maximal (other, change) ((mem_timeline_iff entries other change).mpr otherStands)
    (beq_iff_eq.mpr otherConcern)

/-- What is added last under all names is added last under one of them. -/
theorem Added.kept (added : Added entries field value) : Kept entries field value := by
  obtain ⟨place, stands, -, maximal⟩ := added
  rw [operationAt?_canonical, Option.map_eq_some_iff] at stands
  obtain ⟨operation, stands, canonical⟩ := stands
  cases operation with
  | mention name => cases canonical
  | remove name removed => cases canonical
  | add name added =>
      have same : canonicalName name = field.name ∧ added = value := by
        simpa [Operation.canonical] using canonical
      obtain ⟨meant, rfl⟩ := same
      have meant := canonicalName_eq_name_iff.mp meant
      refine ⟨name, place, meant, stands, rfl, fun other change otherStands concern precedes => ?_⟩
      refine maximal other change.canonical ?_
        (concern?_canonical_eq_some_iff.mpr ⟨name, meant, concern⟩)
        (precedes_canonical_iff.mpr precedes)
      rw [operationAt?_canonical, otherStands]
      rfl

/-- A value that is kept under one name is added or removed last under all of them. -/
theorem Kept.added_or_removed (kept : Kept entries field value) :
    Added entries field value ∨ Removed entries field value := by
  obtain ⟨name, place, meant, stands, concern, -⟩ := kept
  have standsCanonical : operationAt? (entries.map Entry.canonical) place =
      some (Operation.add name value).canonical := by
    rw [operationAt?_canonical, stands]
    rfl
  obtain ⟨last, final, isLast⟩ := exists_isLastOn standsCanonical
    (concern?_canonical_eq_some_iff.mpr ⟨name, meant, concern⟩)
  have concerned := isLast.2.1
  cases final with
  | mention _ => cases concerned
  | add _ _ =>
      cases concerned
      exact .inl ⟨last, isLast⟩
  | remove _ _ =>
      cases concerned
      exact .inr ⟨last, isLast⟩

/-- A value that the last operation over all names does not remove is kept exactly if that operation
adds it. -/
theorem kept_iff_added (unremoved : ¬ Removed entries field value) :
    Kept entries field value ↔ Added entries field value :=
  ⟨fun kept => kept.added_or_removed.resolve_right unremoved, Added.kept⟩

/-! ### What the catalog takes -/

/-- A field has the values that are kept under one of its names. -/
theorem contains_valuesOf_replay_iff :
    TextMap.contains (valuesOf (replay entries) field) value = true ↔ Kept entries field value := by
  rw [contains_valuesOf_iff]
  refine exists_congr fun name => ?_
  rw [exists_and_left, ← has_replay_iff, Fields.has]
  simp only [TextMap.mem_entries_iff]
  constructor
  · rintro ⟨values, found, meant, inside⟩
    exact ⟨meant, values, found, inside⟩
  · rintro ⟨meant, values, found, inside⟩
    exact ⟨values, found, meant, inside⟩

/-- A log names a field if it does so with the canonical names of all fields. -/
theorem names_replay (entries : List Entry) (field : Field) :
    names (replay entries) field = (replay (entries.map Entry.canonical)).contains field.name := by
  have named (name : String) : (∃ values, (name, values) ∈ (replay entries).entries) ↔
      ∃ entry ∈ entries, ∃ operation ∈ entry.operations, operation.field = name := by
    rw [← contains_replay_iff, TextMap.contains_iff]
    simp only [TextMap.mem_entries_iff]
  rw [Bool.eq_iff_iff, names_iff, contains_replay_iff]
  simp only [exists_and_right, named]
  constructor
  · rintro ⟨_, ⟨entry, listed, operation, member, rfl⟩, meant⟩
    refine ⟨entry.canonical, List.mem_map_of_mem listed, operation.canonical,
      List.mem_map_of_mem member, ?_⟩
    rw [field_canonical, canonicalName_eq_name_iff.mpr meant]
  · rintro ⟨_, renamed, _, among, about⟩
    obtain ⟨entry, listed, rfl⟩ := List.mem_map.mp renamed
    obtain ⟨operation, member, rfl⟩ := List.mem_map.mp among
    rw [field_canonical] at about
    exact ⟨_, ⟨entry, listed, operation, member, rfl⟩, canonicalName_eq_name_iff.mp about⟩

end Names

/-- The catalog takes the same from logs that name the same metadata fields and give each of them
the same values. -/
theorem metadata_congr {first second : String}
    (named : ∀ field ∈ Field.metadata,
      names (decode first).fields field = names (decode second).fields field)
    (values : ∀ field ∈ Field.metadata,
      valuesOf (decode first).fields field = valuesOf (decode second).fields field) :
    (Digest.ofLog first).metadata = (Digest.ofLog second).metadata := by
  rw [metadata_ofLog, metadata_ofLog, holdings, holdings, assigned_eq, assigned_eq,
    List.filter_congr named]
  refine congrArg (fun assigned => Metadata.ofHoldings (List.filterMap _ assigned)) ?_
  exact List.map_congr_left fun field member =>
    congrArg (Prod.mk field) (values field (List.mem_filter.mp member).1)

/-- **Aliases name one field, but for removed values.** A log in which names of metadata fields are
replaced by the canonical ones names the same fields. A value of a field is told apart only if it is
removed last under all names of the field together, and still kept under one of them in one of the
logs and under none in the other. If there is no such value, the same is written for both logs. -/
theorem Respells.changes_only_removed {content respelled : String}
    (respells : Respells content respelled) :
    (∀ field, names (decode content).fields field = names (decode respelled).fields field) ∧
      (∀ field value,
        TextMap.contains (valuesOf (decode content).fields field) value =
            TextMap.contains (valuesOf (decode respelled).fields field) value ↔
          (Removed (entries content) field value →
            (Kept (entries content) field value ↔ Kept (entries respelled) field value))) ∧
      ((∀ field ∈ Field.metadata, ∀ value, Removed (entries content) field value →
          (Kept (entries content) field value ↔ Kept (entries respelled) field value)) →
        ∀ now locations key, Catalog.recordOf now locations ⟨key, content⟩ =
          Catalog.recordOf now locations ⟨key, respelled⟩) := by
  have same := respells.entries_canonical
  have named (field : Field) :
      names (decode content).fields field = names (decode respelled).fields field := by
    rw [decode, decode, names_replay, names_replay, same]
  have kept {field : Field} {value : String} (unremoved : ¬ Removed (entries content) field value) :
      Kept (entries content) field value ↔ Kept (entries respelled) field value := by
    have unremovedToo : ¬ Removed (entries respelled) field value := by
      rwa [Removed, ← same]
    rw [kept_iff_added unremoved, kept_iff_added unremovedToo, Added, Added, same]
  have told (field : Field) (value : String) :
      TextMap.contains (valuesOf (decode content).fields field) value =
          TextMap.contains (valuesOf (decode respelled).fields field) value ↔
        (Removed (entries content) field value →
          (Kept (entries content) field value ↔ Kept (entries respelled) field value)) := by
    rw [Bool.eq_iff_iff, decode, decode, contains_valuesOf_replay_iff,
      contains_valuesOf_replay_iff]
    refine ⟨fun agree _ => agree, fun agree => ?_⟩
    by_cases removed : Removed (entries content) field value
    · exact agree removed
    · exact kept removed
  refine ⟨named, told, fun agree now locations key => ?_⟩
  have values : ∀ field ∈ Field.metadata,
      valuesOf (decode content).fields field = valuesOf (decode respelled).fields field :=
    fun field listed => TextSet.ext_contains fun value =>
      Bool.eq_iff_iff.mp ((told field value).mpr (agree field listed value))
  rw [Catalog.recordOf, Catalog.recordOf, metadata_congr (fun field _ => named field) values]

/-- A value that is added under one name of its field and removed under another is kept, until the
first name is replaced by the second. -/
theorem respelling_drops_kept_value :
    let content := "1s initialkey +8A key -8A"
    let respelled := "1s key +8A key -8A"
    Respells content respelled ∧
      ¬ ∀ now locations key, Catalog.recordOf now locations ⟨key, content⟩ =
        Catalog.recordOf now locations ⟨key, respelled⟩ := by
  intro content respelled
  refine ⟨by decide +kernel, fun same => ?_⟩
  have different : Catalog.recordOf 0 TextMap.empty ⟨"k", content⟩ ≠
      Catalog.recordOf 0 TextMap.empty ⟨"k", respelled⟩ := by decide +kernel
  exact different (same 0 TextMap.empty "k")

/-- All aliases in a log are replaced; what is removed there is removed under the name under which
it has been added. -/
theorem Respells.changes_only_removed_of_aliases :
    let content := "1s InitialKey +8A Crates +warm +deep crates -warm TrackNumber +3/12"
    let respelled := "1s key +8A crate +warm +deep crate -warm track +3/12"
    Respells content respelled ∧
      (∀ field ∈ Field.metadata, ∀ value, Removed (entries content) field value →
        (Kept (entries content) field value ↔ Kept (entries respelled) field value)) ∧
      ∀ now locations key, Catalog.recordOf now locations ⟨key, content⟩ =
        Catalog.recordOf now locations ⟨key, respelled⟩ := by
  intro content respelled
  have respells : Respells content respelled := by decide +kernel
  have values : ∀ field ∈ Field.metadata,
      valuesOf (decode content).fields field = valuesOf (decode respelled).fields field := by
    decide +kernel
  have agree : ∀ field ∈ Field.metadata, ∀ value, Removed (entries content) field value →
      (Kept (entries content) field value ↔ Kept (entries respelled) field value) :=
    fun field listed value => (respells.changes_only_removed.2.1 field value).mp
      (congrArg (TextMap.contains · value) (values field listed))
  exact ⟨respells, agree, respells.changes_only_removed.2.2 agree⟩

end Log

end AnnexCatalog
