import AnnexCatalog.Proofs.Catalog.Memberships
import AnnexCatalog.Proofs.Catalog.Steps

/-! # Items as they are read

The item of a row is the same whether it is read alone or with others (`attach_eq_map`). Its values
are those of the metadata that the tables hold, and where the metadata is lawful, they are the texts
under which the fields are indexed.
-/

namespace AnnexCatalog

/-- The values of a field that are kept one by one. -/
def Metadata.membersIn (metadata : Metadata) (field : Field) : List String :=
  (metadata.members.filter fun entry => entry.1 = field).map Prod.snd

/-- The values of a field are those that are entered for it. -/
theorem Metadata.mem_membersIn_iff {metadata : Metadata} {field : Field} {value : String} :
    value ∈ metadata.membersIn field ↔ (field, value) ∈ metadata.members := by
  unfold membersIn
  rw [List.mem_map]
  constructor
  · rintro ⟨⟨other, _⟩, member, rfl⟩
    obtain ⟨listed, named⟩ := List.mem_filter.mp member
    cases of_decide_eq_true named
    exact listed
  · intro listed
    exact ⟨_, List.mem_filter.mpr ⟨listed, decide_eq_true rfl⟩, rfl⟩

/-- Where the values of every field ascend, so do those of one field. -/
theorem Metadata.pairwise_membersIn {metadata : Metadata}
    (ascending : metadata.members.Pairwise fun first second =>
      first.1 = second.1 → first.2 < second.2) (field : Field) :
    (metadata.membersIn field).Pairwise (· < ·) := by
  refine List.pairwise_map.mpr (List.Pairwise.imp_of_mem ?_ (ascending.filter _))
  intro first second firstMember secondMember before
  have firstField := of_decide_eq_true (List.mem_filter.mp firstMember).2
  have secondField := of_decide_eq_true (List.mem_filter.mp secondMember).2
  exact before (firstField.trans secondField.symm)

namespace Metadata.Lawful

variable {metadata : Metadata} {field : Field}

theorem membersIn_ascending (lawful : metadata.Lawful) (field : Field) :
    (metadata.membersIn field).Pairwise (· ≤ ·) :=
  (Metadata.pairwise_membersIn lawful.members_ascending field).imp Std.le_of_lt

theorem membersIn_eq_nil (lawful : metadata.Lawful) (unlisted : field ∉ Field.metadata) :
    metadata.membersIn field = [] := by
  apply List.eq_nil_iff_forall_not_mem.mpr
  intro value member
  exact unlisted (lawful.members_listed _ (Metadata.mem_membersIn_iff.mp member))

/-- A field with several values has no scalar. -/
theorem lookup_eq_none (lawful : metadata.Lawful) (some : metadata.membersIn field ≠ []) :
    metadata.scalars.lookup field = none := by
  obtain ⟨value, member⟩ := List.exists_mem_of_ne_nil _ some
  exact lawful.apart _ (Metadata.mem_membersIn_iff.mp member)

/-- The scalar of a field is of the kind of the field. -/
theorem suits_of_lookup (lawful : metadata.Lawful) {value : Scalar}
    (found : metadata.scalars.lookup field = some value) : value.Suits field.kind :=
  lawful.scalars_suit _ (mem_of_lookup_eq_some found)

/-- A text field has a text in its column. -/
theorem text_of_lookup (lawful : metadata.Lawful) (kind : field.kind = .text) {value : Scalar}
    (found : metadata.scalars.lookup field = some value) : ∃ text, value = .text text := by
  have suits := lawful.suits_of_lookup found
  rw [kind] at suits
  cases value with
  | text text => exact ⟨text, rfl⟩
  | real number => cases suits
  | integer number => cases suits

/-- Groups have no scalar. -/
theorem lookup_group (lawful : metadata.Lawful) (kind : field.kind = .group) :
    metadata.scalars.lookup field = none := by
  cases found : metadata.scalars.lookup field with
  | none => rfl
  | some value =>
      have suits := lawful.suits_of_lookup found
      rw [kind] at suits
      cases value <;> cases suits

end Metadata.Lawful

namespace Catalog

variable {catalog : Catalog} {row : Row}

/-- The item of a row. -/
def itemOf (catalog : Catalog) (row : Row) : Item :=
  row.toItem ((Membership.select catalog.memberships [row.id]).foldl Membership.put TextMap.empty)

/-- Rows that are read together become the same items as each of them alone. -/
theorem attach_eq_map {rows : List Row} (distinct : (rows.map Row.id).Nodup) :
    catalog.attach rows = rows.map catalog.itemOf := by
  unfold attach
  apply List.map_congr_left
  intro row member
  rw [Membership.gather_read _ distinct (List.mem_map_of_mem member)]
  rfl

theorem Consistent.ids_nodup (consistent : catalog.Consistent) {rows : List Row}
    (part : rows.Sublist catalog.rows) : (rows.map Row.id).Nodup := by
  apply (consistent.ids_ascending.sublist (part.map Row.id)).imp
  exact fun before => Nat.ne_of_lt before

/-- The items of a consistent catalog are those of its rows, in their order. -/
theorem items_eq_map (consistent : catalog.Consistent) :
    catalog.items = catalog.rows.map catalog.itemOf :=
  attach_eq_map (consistent.ids_nodup (List.Sublist.refl _))

theorem itemOf_mem_items (consistent : catalog.Consistent) (member : row ∈ catalog.rows) :
    catalog.itemOf row ∈ catalog.items :=
  items_eq_map consistent ▸ List.mem_map_of_mem member

/-- The item of a key is that of its row. -/
theorem find?_key_of_mem (consistent : catalog.Consistent) (member : row ∈ catalog.rows) :
    catalog.find? row.key = some (catalog.itemOf row) := by
  have alone : ([row].map Row.id).Nodup := List.nodup_singleton _
  unfold find?
  rw [(row?_eq_some_iff consistent).mpr ⟨member, rfl⟩, Option.bind_some, attach_eq_map alone]
  rfl

/-- All that is filed under a row of a sound catalog is read from one log. -/
theorem Sound.exists_reads (sound : catalog.Sound) (member : row ∈ catalog.rows) :
    ∃ log, (catalog.dossier row).content.Reads log :=
  sound.reads _ (List.mem_map_of_mem (List.mem_map_of_mem member))

theorem Sound.lawful_metadataOf (sound : catalog.Sound) (member : row ∈ catalog.rows) :
    (catalog.metadataOf row).Lawful := by
  obtain ⟨log, reads⟩ := sound.exists_reads member
  exact (show catalog.metadataOf row = _ from reads.metadata) ▸ lawful_ofLog log

/-- The index of a sound catalog has the tokens of each row once. -/
theorem Sound.tokensOf_eq (sound : catalog.Sound) (member : row ∈ catalog.rows) :
    catalog.tokensOf row.id = [(catalog.metadataOf row).indexedTokens row.path] := by
  obtain ⟨log, reads⟩ := sound.exists_reads member
  exact reads.tokens

/-! ### The values of an item -/

/-- Values that are kept one by one are read in their order, and a field without any is not read. -/
theorem get?_memberships_itemOf (lawful : (catalog.metadataOf row).Lawful) (field : Field) :
    (catalog.itemOf row).memberships.get? field.name =
      if (catalog.metadataOf row).membersIn field = [] then none
      else some ((catalog.metadataOf row).membersIn field) := by
  have values : Membership.valuesOf (Membership.select catalog.memberships [row.id]) field =
      (catalog.metadataOf row).membersIn field := by
    have same : (((catalog.memberships.filter (·.id == row.id)).filter (·.field == field)).map
        Membership.value) = (catalog.metadataOf row).membersIn field := by
      unfold Metadata.membersIn metadataOf membersOf
      simp only [List.filter_map, List.map_map]
      rfl
    exact (same ▸ Membership.valuesOf_perm catalog.memberships row.id field).eq_of_pairwise
      (fun first second _ _ => String.le_antisymm)
      (Membership.pairwise_valuesOf catalog.memberships row.id field)
      (lawful.membersIn_ascending field)
  rw [← values]
  exact Membership.get?_gathered catalog.memberships row.id field

/-- The members of an item are the values that are entered for its row. -/
theorem members_itemOf (lawful : (catalog.metadataOf row).Lawful) (field : Field) :
    (catalog.itemOf row).members field = (catalog.metadataOf row).membersIn field := by
  unfold Item.members
  rw [get?_memberships_itemOf lawful]
  by_cases none : (catalog.metadataOf row).membersIn field = []
  · rw [if_pos none, none]
    rfl
  · rw [if_neg none]
    rfl

/-- The values of an item are those that are entered for its row, if there are any. -/
theorem values_itemOf_of_members (lawful : (catalog.metadataOf row).Lawful) {field : Field}
    (some : (catalog.metadataOf row).membersIn field ≠ []) :
    (catalog.itemOf row).values field = (catalog.metadataOf row).membersIn field := by
  unfold Item.values
  rw [get?_memberships_itemOf lawful, if_neg some]

/-- A metadata field without values that are kept one by one has that of its column, if any. -/
theorem values_itemOf_of_column (lawful : (catalog.metadataOf row).Lawful) {field : Field}
    (listed : field ∈ Field.metadata) (none : (catalog.metadataOf row).membersIn field = []) :
    (catalog.itemOf row).values field = ((row.scalars.lookup field).map Scalar.shown).toList := by
  unfold Item.values
  rw [get?_memberships_itemOf lawful, if_pos none]
  cases field <;> first | rfl | exact absurd listed (by decide)

/-- The path of an item is that of its row. -/
theorem values_itemOf_path (lawful : (catalog.metadataOf row).Lawful) :
    (catalog.itemOf row).values .path = [row.path] := by
  unfold Item.values
  rw [get?_memberships_itemOf lawful, if_pos (lawful.membersIn_eq_nil (by decide))]
  rfl

/-- What is indexed of a text field are its values, joined by spaces. -/
theorem indexedText_metadataOf (lawful : (catalog.metadataOf row).Lawful) {field : Field}
    (listed : field ∈ Field.metadata) (kind : field.kind = .text) :
    (catalog.metadataOf row).indexedText field =
      " ".intercalate ((catalog.itemOf row).values field) := by
  have column : (catalog.metadataOf row).scalars = row.scalars := rfl
  unfold Metadata.indexedText
  by_cases none : (catalog.metadataOf row).membersIn field = []
  · rw [values_itemOf_of_column lawful listed none]
    cases found : row.scalars.lookup field with
    | none =>
        rw [column, found]
        exact congrArg (" ".intercalate) none
    | some value =>
        obtain ⟨text, rfl⟩ := lawful.text_of_lookup kind found
        rw [column, found]
        rfl
  · rw [values_itemOf_of_members lawful none, lawful.lookup_eq_none none]
    rfl

end Catalog

end AnnexCatalog
