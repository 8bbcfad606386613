import AnnexCatalog.Proofs.Catalog.Items
import Mathlib.Data.List.Sort

/-! # Where the values of a log are kept

A log may name a field several times, in any spelling and under its aliases. All values that it gives
a field are taken together (`Log.valuesOf`), and their number and the kind of the field decide the
one place where they are kept: the column, the values that are kept one by one, or a mark that there
is none (`places_ofLog`).
-/

namespace AnnexCatalog

namespace Log

/-- Whether a log names a field under one of its names. -/
def names (fields : Fields) (field : Field) : Bool :=
  fields.keys.any fun name => Field.ofName? name = some field

/-- The values that a log gives a field under all of its names. -/
def valuesOf (fields : Fields) (field : Field) : TextSet :=
  TextSet.ofTexts (fields.entries.flatMap fun (name, values) =>
    if Field.ofName? name = some field then values.toList else [])

/-- The fields with a single value that should be a number and is none. -/
def misread (fields : Fields) : List Field :=
  Field.metadata.filter fun field =>
    match (valuesOf fields field).toList with
    | [value] => field.isNumeric && (Scalar.read? field.kind value).isNone
    | _ => false

variable {fields : Fields} {field : Field}

/-- A log names a field exactly if it has an entry under one of its names. -/
theorem names_iff :
    names fields field = true ↔
      ∃ name values, (name, values) ∈ fields.entries ∧ Field.ofName? name = some field := by
  rw [names, List.any_eq_true, TextMap.keys]
  simp

/-- A field has the values that stand under any of its names. -/
theorem contains_valuesOf_iff {value : String} :
    TextMap.contains (valuesOf fields field) value = true ↔
      ∃ name values, (name, values) ∈ fields.entries ∧ Field.ofName? name = some field ∧
        TextMap.contains values value = true := by
  rw [valuesOf, TextSet.contains_ofTexts_iff, List.mem_flatMap]
  constructor
  · rintro ⟨⟨name, values⟩, listed, inside⟩
    dsimp only at inside
    split at inside
    · next named => exact ⟨name, values, listed, named, (TextSet.mem_toList_iff _ _).mp inside⟩
    · cases inside
  · rintro ⟨name, values, listed, named, inside⟩
    refine ⟨(name, values), listed, ?_⟩
    dsimp only
    rw [if_pos named]
    exact (TextSet.mem_toList_iff _ _).mpr inside

/-- A field that is not named has no values. -/
theorem valuesOf_of_unnamed (unnamed : names fields field = false) :
    (valuesOf fields field).toList = [] := by
  refine List.eq_nil_iff_forall_not_mem.mpr fun value member => ?_
  obtain ⟨name, values, entered, named, -⟩ :=
    contains_valuesOf_iff.mp ((TextSet.mem_toList_iff _ _).mp member)
  exact Bool.false_ne_true (unnamed.symm.trans (names_iff.mpr ⟨name, values, entered, named⟩))

end Log

open Log

/-- A value is in a union exactly if it is in one of the sets. -/
theorem contains_foldl_union (sets : List (Field × TextSet)) (start : TextSet) (value : String) :
    TextMap.contains (sets.foldl (fun all entry => TextSet.union all entry.2) start) value = true ↔
      TextMap.contains start value = true ∨
        ∃ entry ∈ sets, TextMap.contains entry.2 value = true := by
  induction sets generalizing start with
  | nil => simp
  | cons entry rest step =>
      rw [List.foldl_cons, step, TextSet.contains_union_iff, List.exists_mem_cons_iff, or_assoc]

/-- The metadata fields that a log names have the values of all their names. -/
theorem assigned_eq (fields : Fields) :
    assigned fields =
      (Field.metadata.filter (names fields)).map fun field => (field, valuesOf fields field) := by
  rw [← List.filterMap_eq_map, List.filterMap_filter, assigned]
  refine List.filterMap_congr fun field _ => ?_
  generalize taken : (fields.entries.filterMap fun (name, values) =>
    (Field.ofName? name).map fun field => (field, values)).filter
      (fun entry => entry.1 = field) = sets
  have mem_sets (other : Field) (values : TextSet) : (other, values) ∈ sets ↔
      other = field ∧ ∃ name, (name, values) ∈ fields.entries ∧
        Field.ofName? name = some field := by
    rw [← taken, List.mem_filter, decide_eq_true_eq, List.mem_filterMap, and_comm]
    refine and_congr_right fun same => ?_
    subst same
    constructor
    · rintro ⟨⟨name, _⟩, entered, found⟩
      obtain ⟨_, named, same⟩ := Option.map_eq_some_iff.mp found
      cases same
      exact ⟨name, entered, named⟩
    · rintro ⟨name, entered, named⟩
      exact ⟨_, entered, Option.map_eq_some_iff.mpr ⟨_, named, rfl⟩⟩
  cases sets with
  | nil =>
      have unnamed : names fields field = false := by
        rw [← Bool.not_eq_true, names_iff]
        rintro ⟨name, values, entered, named⟩
        exact List.not_mem_nil ((mem_sets field values).mpr ⟨rfl, name, entered, named⟩)
      rw [unnamed]
      rfl
  | cons first rest =>
      have named : names fields field = true := by
        obtain ⟨-, name, entered, named⟩ := (mem_sets first.1 first.2).mp List.mem_cons_self
        exact names_iff.mpr ⟨name, first.2, entered, named⟩
      rw [named, if_pos rfl]
      refine congrArg (fun values => some (field, values)) (TextSet.ext_contains fun value => ?_)
      rw [contains_foldl_union, contains_valuesOf_iff]
      constructor
      · rintro (absent | ⟨⟨other, values⟩, among, inside⟩)
        · cases absent
        · obtain ⟨-, name, entered, named⟩ := (mem_sets other values).mp among
          exact ⟨name, values, entered, named, inside⟩
      · rintro ⟨name, values, entered, named, inside⟩
        exact .inr ⟨(field, values), (mem_sets field values).mpr ⟨rfl, name, entered, named⟩, inside⟩

/-- What a log makes of a field is held if the log names it and its values can be read. -/
theorem mem_holdings_iff {fields : Fields} {field : Field} {holding : Holding} :
    (field, holding) ∈ holdings fields ↔
      field ∈ Field.metadata ∧ names fields field = true ∧
        Holding.ofValues? field (valuesOf fields field) = some holding := by
  rw [holdings, assigned_eq, List.filterMap_map, List.mem_filterMap]
  simp only [Function.comp_apply, List.mem_filter, Option.map_eq_some_iff, Prod.mk.injEq]
  constructor
  · rintro ⟨other, ⟨listed, named⟩, _, kept, rfl, rfl⟩
    exact ⟨listed, named, kept⟩
  · rintro ⟨listed, named, kept⟩
    exact ⟨field, ⟨listed, named⟩, holding, kept, rfl, rfl⟩

/-! ### Places -/

/-- The places in which the tables may hold something of a field. -/
structure Places where
  column : Option Scalar
  members : List String
  marked : Bool
deriving DecidableEq

def Metadata.places (metadata : Metadata) (field : Field) : Places where
  column := metadata.scalars.lookup field
  members := metadata.membersIn field
  marked := metadata.empties.contains field

/-- What stands in the places of a field whose values are kept in one way. -/
def Places.ofHolding : Option Holding → Places
  | none => ⟨none, [], false⟩
  | some .empty => ⟨none, [], true⟩
  | some (.scalar value) => ⟨some value, [], false⟩
  | some (.members values) => ⟨none, values.toList, false⟩

theorem mem_empties_ofHoldings {held : List (Field × Holding)} {field : Field} :
    field ∈ (Metadata.ofHoldings held).empties ↔ (field, .empty) ∈ held := by
  simp only [Metadata.ofHoldings, List.mem_filterMap]
  constructor
  · rintro ⟨⟨other, holding⟩, member, chosen⟩
    cases holding with
    | empty =>
        cases chosen
        exact member
    | scalar value => cases chosen
    | members values => cases chosen
  · intro member
    exact ⟨_, member, rfl⟩

section OfHoldings

variable {held : List (Field × Holding)} {field : Field}

/-- The scalars are those that are held. -/
theorem lookup_ofHoldings_eq_some_iff (distinct : (held.map Prod.fst).Nodup) {scalar : Scalar} :
    (Metadata.ofHoldings held).scalars.lookup field = some scalar ↔
      (field, .scalar scalar) ∈ held := by
  refine ⟨fun found => mem_scalars_ofHoldings.mp (mem_of_lookup_eq_some found), fun member => ?_⟩
  cases found : (Metadata.ofHoldings held).scalars.lookup field with
  | none =>
      have absent := List.lookup_eq_none_iff.mp found _ (mem_scalars_ofHoldings.mpr member)
      simp at absent
  | some other =>
      have entered := mem_scalars_ofHoldings.mp (mem_of_lookup_eq_some found)
      cases holding_unique distinct member entered
      rfl

/-- The members of a field are those that are held. -/
theorem membersIn_ofHoldings (distinct : (held.map Prod.fst).Nodup) {values : TextSet}
    (kept : (field, .members values) ∈ held) :
    (Metadata.ofHoldings held).membersIn field = values.toList := by
  have ascending := Metadata.pairwise_membersIn (members_ofHoldings_ascending distinct) field
  refine ascending.eq_of_mem_iff values.keys_ascending fun value => ?_
  rw [Metadata.mem_membersIn_iff, mem_members_ofHoldings]
  constructor
  · rintro ⟨others, member, inside⟩
    cases holding_unique distinct kept member
    exact inside
  · exact fun inside => ⟨values, kept, inside⟩

/-- The places of a field whose values are kept in one way or not at all. -/
theorem places_ofHoldings (distinct : (held.map Prod.fst).Nodup) {holding : Option Holding}
    (kept : ∀ other, (field, other) ∈ held ↔ holding = some other) :
    (Metadata.ofHoldings held).places field = .ofHolding holding := by
  have column (scalar : Scalar) : (Metadata.ofHoldings held).scalars.lookup field = some scalar ↔
      holding = some (.scalar scalar) :=
    (lookup_ofHoldings_eq_some_iff distinct).trans (kept _)
  have marked : (Metadata.ofHoldings held).empties.contains field = true ↔
      holding = some .empty :=
    List.contains_iff_mem.trans (mem_empties_ofHoldings.trans (kept _))
  have members (others : ∀ values, holding ≠ some (.members values)) :
      (Metadata.ofHoldings held).membersIn field = [] := by
    refine List.eq_nil_iff_forall_not_mem.mpr fun value member => ?_
    obtain ⟨values, entered, -⟩ :=
      mem_members_ofHoldings.mp (Metadata.mem_membersIn_iff.mp member)
    exact others values ((kept _).mp entered)
  have noColumn (others : ∀ scalar, holding ≠ some (.scalar scalar)) :
      (Metadata.ofHoldings held).scalars.lookup field = none :=
    Option.eq_none_iff_forall_ne_some.mpr fun scalar found => others scalar ((column scalar).mp found)
  have unmarked (other : holding ≠ some .empty) :
      (Metadata.ofHoldings held).empties.contains field = false :=
    Bool.eq_false_iff.mpr (mt marked.mp other)
  rw [Metadata.places]
  cases holding with
  | none => rw [noColumn nofun, members nofun, unmarked nofun]; rfl
  | some holding =>
      cases holding with
      | empty => rw [noColumn nofun, members nofun, marked.mpr rfl]; rfl
      | scalar value => rw [(column value).mpr rfl, members nofun, unmarked nofun]; rfl
      | members values =>
          rw [noColumn nofun, membersIn_ofHoldings distinct ((kept _).mpr rfl), unmarked nofun]
          rfl

end OfHoldings

/-- How the values that a log gives a field are kept. Nothing is kept of a field that the log does
not name, nor of a single value that should be a number and is none. -/
def Log.holding? (fields : Fields) (field : Field) : Option Holding :=
  if field ∈ Field.metadata ∧ names fields field = true then
    Holding.ofValues? field (valuesOf fields field)
  else none

/-- What is held of a field is found among the holdings. -/
theorem holding?_eq_some_iff {fields : Fields} {field : Field} {holding : Holding} :
    holding? fields field = some holding ↔ (field, holding) ∈ holdings fields := by
  rw [mem_holdings_iff, holding?]
  split
  · next named => simp only [named.1, named.2, true_and]
  · next unnamed => simp only [reduceCtorEq, ← and_assoc, unnamed, false_and]

/-- The places of a field after a log has been read. -/
theorem places_ofLog (content : String) (field : Field) :
    (Digest.ofLog content).metadata.places field =
      .ofHolding (holding? (Log.decode content).fields field) := by
  rw [metadata_ofLog]
  refine places_ofHoldings ?_ fun other => holding?_eq_some_iff.symm
  exact List.Nodup.sublist (fields_holdings_sublist _) (by decide)

/-- Nothing is held of a field that is not named. -/
theorem holding?_of_unnamed {fields : Fields} {field : Field}
    (unnamed : names fields field = false) : holding? fields field = none :=
  if_neg fun named => Bool.false_ne_true (unnamed.symm.trans named.2)

/-- A field is held as empty exactly if it has no values. -/
theorem ofValues?_eq_empty_iff {field : Field} {values : TextSet} :
    Holding.ofValues? field values = some .empty ↔ values.toList = [] := by
  unfold Holding.ofValues?
  rcases values.toList with - | ⟨value, - | ⟨other, rest⟩⟩
  · simp
  · dsimp only
    split <;> simp
  · simp

/-- Only a single value that should be a number and is none cannot be kept. -/
theorem isNone_ofValues? (field : Field) (values : TextSet) :
    (Holding.ofValues? field values).isNone =
      match values.toList with
      | [value] => field.isNumeric && (Scalar.read? field.kind value).isNone
      | _ => false := by
  unfold Holding.ofValues?
  rcases values.toList with - | ⟨value, - | ⟨other, rest⟩⟩
  · rfl
  · rw [Field.isNumeric]
    cases field.kind <;> simp [Scalar.read?]
  · rfl

/-- The warnings on a log: one for each line that is skipped and for each field that is misread. -/
theorem warnings_ofLog (content : String) :
    (Digest.ofLog content).warnings =
      (Log.decode content).warnings.length + (misread (Log.decode content).fields).length := by
  unfold Digest.ofLog
  dsimp only
  rw [assigned_eq, List.map_map, List.filter_map, List.length_map, List.filter_filter, misread]
  refine congrArg (fun fields => _ + List.length fields) (List.filter_congr fun field _ => ?_)
  rw [← isNone_ofValues?, Function.comp_apply, Function.comp_apply]
  cases named : names (Log.decode content).fields field with
  | true => exact Bool.and_true _
  | false =>
      rw [isNone_ofValues?, valuesOf_of_unnamed named]
      rfl

end AnnexCatalog
