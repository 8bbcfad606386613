import AnnexCatalog.Catalog.Metadata
import Mathlib.Data.List.Nodup

/-! # The shape of metadata

What a log gives for one field stands in one place only: a single value in its column, several
values one by one, or a mark that there is none. `Metadata.Lawful` says so, and `lawful_ofLog` shows
it of every log.
-/

namespace AnnexCatalog

/-- The fields that a log names, each with the way in which its values are kept. -/
def holdings (fields : Log.Fields) : List (Field × Holding) :=
  (assigned fields).filterMap fun (field, values) =>
    (Holding.ofValues? field values).map fun holding => (field, holding)

/-- Whether a value can stand in the column of a kind of fields. -/
def Scalar.Suits : Field.Kind → Scalar → Prop
  | .text, .text _ => True
  | .real, .real _ => True
  | .integer, .integer _ => True
  | _, _ => False

/-- Only metadata fields have values, a field with a value in its column has no other, columns hold
what their fields ask for, the values of a field ascend, and no field is marked twice. -/
structure Metadata.Lawful (metadata : Metadata) : Prop where
  members_ascending : metadata.members.Pairwise fun first second =>
    first.1 = second.1 → first.2 < second.2
  empties_nodup : metadata.empties.Nodup
  members_listed : ∀ entry ∈ metadata.members, entry.1 ∈ Field.metadata
  scalars_suit : ∀ entry ∈ metadata.scalars, entry.2.Suits entry.1.kind
  apart : ∀ entry ∈ metadata.members, metadata.scalars.lookup entry.1 = none

theorem Metadata.Lawful.members_nodup {metadata : Metadata} (lawful : metadata.Lawful) :
    metadata.members.Nodup := by
  apply lawful.members_ascending.imp
  rintro first _ ascending rfl
  exact String.lt_irrefl _ (ascending rfl)

/-- What is chosen from some entries has their first components, in order. -/
theorem filterMap_fst_sublist {α β γ : Type} (fst : β → α) (source : γ → α) {choose : γ → Option β}
    (kept : ∀ entry result, choose entry = some result → fst result = source entry)
    (entries : List γ) :
    ((entries.filterMap choose).map fst).Sublist (entries.map source) := by
  induction entries with
  | nil => exact .slnil
  | cons entry rest step =>
      cases chosen : choose entry with
      | none =>
          rw [List.filterMap_cons_none chosen, List.map_cons]
          exact step.cons _
      | some result =>
          rw [List.filterMap_cons_some chosen, List.map_cons, List.map_cons,
            kept entry result chosen]
          exact step.cons_cons _

/-- The fields that a log names are metadata fields, each of them once. -/
theorem fields_holdings_sublist (fields : Log.Fields) :
    ((holdings fields).map Prod.fst).Sublist Field.metadata := by
  have first : ((holdings fields).map Prod.fst).Sublist ((assigned fields).map Prod.fst) := by
    apply filterMap_fst_sublist
    rintro ⟨field, values⟩ ⟨_, holding⟩ chosen
    obtain ⟨_, -, same⟩ := Option.map_eq_some_iff.mp chosen
    exact (congrArg Prod.fst same).symm
  have second : ((assigned fields).map Prod.fst).Sublist (Field.metadata.map id) := by
    apply filterMap_fst_sublist
    intro field result chosen
    split at chosen
    · cases chosen
    · cases chosen
      rfl
  rw [List.map_id] at second
  exact first.trans second

/-- The metadata of a log are made of what is held of its fields. -/
theorem metadata_ofLog (content : String) :
    (Digest.ofLog content).metadata = .ofHoldings (holdings (Log.decode content).fields) := by
  unfold Digest.ofLog holdings
  simp only [List.filterMap_map]
  rfl

/-- A scalar that is read for a kind of field suits it. -/
theorem suits_of_read?_eq_some {kind : Field.Kind} {value : String} {scalar : Scalar}
    (read : Scalar.read? kind value = some scalar)
    (column : kind = .text ∨ kind = .real ∨ kind = .integer) : scalar.Suits kind := by
  rcases column with rfl | rfl | rfl
  · cases read
    trivial
  · obtain ⟨_, -, rfl⟩ := Option.map_eq_some_iff.mp read
    trivial
  · obtain ⟨_, -, rfl⟩ := Option.map_eq_some_iff.mp read
    trivial

theorem kind_of_mem_metadata {field : Field} (listed : field ∈ Field.metadata) :
    field.kind = .text ∨ field.kind = .real ∨ field.kind = .integer ∨ field.kind = .group := by
  cases field <;> first | decide | exact absurd listed (by decide)

/-- A single value that is kept in a column suits it. -/
theorem suits_of_ofValues?_eq_scalar {field : Field} {values : TextSet} {scalar : Scalar}
    (listed : field ∈ Field.metadata)
    (kept : Holding.ofValues? field values = some (.scalar scalar)) :
    scalar.Suits field.kind := by
  unfold Holding.ofValues? at kept
  split at kept
  · cases kept
  · split at kept
    · cases kept
    · next notGroup =>
        obtain ⟨_, read, same⟩ := Option.map_eq_some_iff.mp kept
        cases same
        refine suits_of_read?_eq_some read ?_
        rcases kind_of_mem_metadata listed with text | real | integer | group
        · exact .inl text
        · exact .inr (.inl real)
        · exact .inr (.inr integer)
        · exact absurd group notGroup
  · cases kept

/-! ### Metadata of distinct fields -/

section OfHoldings

variable {held : List (Field × Holding)}

theorem mem_scalars_ofHoldings {field : Field} {scalar : Scalar} :
    (field, scalar) ∈ (Metadata.ofHoldings held).scalars ↔ (field, .scalar scalar) ∈ held := by
  simp only [Metadata.ofHoldings, List.mem_filterMap]
  constructor
  · rintro ⟨⟨other, holding⟩, member, chosen⟩
    cases holding with
    | scalar value =>
        cases chosen
        exact member
    | empty => cases chosen
    | members values => cases chosen
  · intro member
    exact ⟨_, member, rfl⟩

theorem mem_members_ofHoldings {field : Field} {value : String} :
    (field, value) ∈ (Metadata.ofHoldings held).members ↔
      ∃ values, (field, .members values) ∈ held ∧ value ∈ values.toList := by
  simp only [Metadata.ofHoldings, List.mem_flatMap]
  constructor
  · rintro ⟨⟨other, holding⟩, member, listed⟩
    cases holding with
    | members values =>
        obtain ⟨_, inside, same⟩ := List.mem_map.mp listed
        cases same
        exact ⟨values, member, inside⟩
    | empty => cases listed
    | scalar value => cases listed
  · rintro ⟨values, member, inside⟩
    exact ⟨_, member, List.mem_map_of_mem inside⟩

/-- A field is held in one way. -/
theorem holding_unique (distinct : (held.map Prod.fst).Nodup) {field : Field}
    {first second : Holding} (firstMember : (field, first) ∈ held)
    (secondMember : (field, second) ∈ held) : first = second :=
  congrArg Prod.snd (List.inj_on_of_nodup_map distinct firstMember secondMember rfl)

theorem members_ofHoldings_ascending (distinct : (held.map Prod.fst).Nodup) :
    (Metadata.ofHoldings held).members.Pairwise fun first second =>
      first.1 = second.1 → first.2 < second.2 := by
  refine List.pairwise_flatMap.mpr ⟨?_, ?_⟩
  · rintro ⟨field, holding⟩ -
    cases holding with
    | members values =>
        refine List.pairwise_map.mpr (values.keys_ascending.imp ?_)
        intro first second before _
        exact before
    | empty => exact .nil
    | scalar value => exact .nil
  · refine (List.pairwise_map.mp distinct).imp ?_
    rintro ⟨field, holding⟩ ⟨other, another⟩ different
    have fieldOf {entry : Field × Holding} {result : Field × String}
        (member : result ∈ (Metadata.ofHoldings [entry]).members) : result.1 = entry.1 := by
      obtain ⟨values, listed, -⟩ := mem_members_ofHoldings.mp member
      exact congrArg Prod.fst (List.mem_singleton.mp listed)
    intro first firstMember second secondMember same
    have named := fieldOf (List.mem_append_left [] firstMember)
    exact absurd (named.symm.trans (same.trans (fieldOf (List.mem_append_left [] secondMember))))
      different

theorem empties_ofHoldings_nodup (distinct : (held.map Prod.fst).Nodup) :
    (Metadata.ofHoldings held).empties.Nodup := by
  refine distinct.sublist ?_
  rw [← List.map_id (Metadata.ofHoldings held).empties]
  apply filterMap_fst_sublist
  rintro ⟨field, holding⟩ result chosen
  cases holding with
  | empty =>
      cases chosen
      rfl
  | scalar value => cases chosen
  | members values => cases chosen

end OfHoldings

/-- The metadata of a log is lawful. -/
theorem lawful_ofLog (content : String) : (Digest.ofLog content).metadata.Lawful := by
  rw [metadata_ofLog]
  have part := fields_holdings_sublist (Log.decode content).fields
  have distinct : ((holdings (Log.decode content).fields).map Prod.fst).Nodup :=
    List.Nodup.sublist part (by decide)
  refine ⟨members_ofHoldings_ascending distinct, empties_ofHoldings_nodup distinct, ?_, ?_, ?_⟩
  · rintro ⟨field, value⟩ member
    obtain ⟨values, inside, -⟩ := mem_members_ofHoldings.mp member
    exact part.subset (List.mem_map_of_mem inside)
  · rintro ⟨field, scalar⟩ member
    have inside := mem_scalars_ofHoldings.mp member
    obtain ⟨⟨other, values⟩, -, chosen⟩ := List.mem_filterMap.mp inside
    obtain ⟨_, kept, same⟩ := Option.map_eq_some_iff.mp chosen
    cases same
    exact suits_of_ofValues?_eq_scalar (part.subset (List.mem_map_of_mem inside)) kept
  · rintro ⟨field, value⟩ member
    obtain ⟨values, inside, -⟩ := mem_members_ofHoldings.mp member
    cases found : (Metadata.ofHoldings (holdings (Log.decode content).fields)).scalars.lookup
        field with
    | none => rfl
    | some scalar =>
        have other := mem_scalars_ofHoldings.mp (mem_of_lookup_eq_some found)
        cases holding_unique distinct inside other

end AnnexCatalog
