import AnnexCatalog.Catalog.Basic
import AnnexCatalog.Proofs.Catalog.Metadata

/-! # What the tables hold of an item

All that the tables hold of one item is its dossier: the row and, under the number of the row, its
memberships, its marks and its indexed tokens. Numbers ascend and keys are distinct
(`Catalog.Consistent`), and then writing an item renews its dossier and no other
(`dossiers_upsert`), and deleting one takes its dossier away and no other (`dossiers_delete`).
-/

namespace AnnexCatalog

/-- All that the tables hold of one item. -/
structure Dossier where
  row : Row
  members : List (Field × String)
  empties : List Field
  tokens : List (List (List Text.Token))
deriving DecidableEq

/-- What is held of an item once a record has been written. -/
def Record.toDossier (record : Record) (id : Nat) (fallback : String) : Dossier where
  row := record.toRow id fallback
  members := record.metadata.members
  empties := record.metadata.empties
  tokens := [record.metadata.indexedTokens (record.toRow id fallback).path]

/-- What a written record makes of a dossier: it renews that of its key, with the same number. -/
def Record.renewal (record : Record) (dossier : Dossier) : Dossier :=
  if dossier.row.key = record.key then record.toDossier dossier.row.id dossier.row.path
  else dossier

namespace Catalog

/-- The values that are kept one by one under a number. -/
def membersOf (catalog : Catalog) (id : Nat) : List (Field × String) :=
  (catalog.memberships.filter (·.id == id)).map fun entry => (entry.field, entry.value)

/-- The fields that are marked as empty under a number. -/
def emptiesOf (catalog : Catalog) (id : Nat) : List Field :=
  (catalog.emptyMarks.filter (·.id == id)).map EmptyMark.field

/-- The tokens that are indexed under a number. -/
def tokensOf (catalog : Catalog) (id : Nat) : List (List (List Text.Token)) :=
  (catalog.index.filter (·.id == id)).map IndexEntry.tokens

/-- All that the tables hold of the item of a row. -/
def dossier (catalog : Catalog) (row : Row) : Dossier :=
  ⟨row, catalog.membersOf row.id, catalog.emptiesOf row.id, catalog.tokensOf row.id⟩

/-- The dossiers, in the order of the numbers. -/
def dossiers (catalog : Catalog) : List Dossier :=
  catalog.rows.map catalog.dossier

/-- The metadata that the tables hold of the item of a row. -/
def metadataOf (catalog : Catalog) (row : Row) : Metadata :=
  ⟨row.scalars, catalog.membersOf row.id, catalog.emptiesOf row.id⟩

/-- The rows are in the order of their numbers, from one on, and no key has two rows. -/
structure Consistent (catalog : Catalog) : Prop where
  ids_ascending : (catalog.rows.map Row.id).Pairwise (· < ·)
  ids_positive : ∀ row ∈ catalog.rows, 0 < row.id
  keys_nodup : catalog.keys.Nodup

theorem Consistent.empty : Catalog.empty.Consistent :=
  ⟨.nil, nofun, .nil⟩

variable {catalog : Catalog} {record : Record} {key : String} {row : Row}

/-- Consistency is a matter of the rows alone. -/
theorem Consistent.of_rows {other : Catalog} (consistent : catalog.Consistent)
    (same : other.rows = catalog.rows) : other.Consistent := by
  refine ⟨?_, ?_, ?_⟩
  · rw [same]
    exact consistent.ids_ascending
  · rw [same]
    exact consistent.ids_positive
  · rw [keys, same]
    exact consistent.keys_nodup

/-! ### Rows by key and by number -/

/-- A key has one row. -/
theorem Consistent.eq_of_key (consistent : catalog.Consistent) {first second : Row}
    (firstMember : first ∈ catalog.rows) (secondMember : second ∈ catalog.rows)
    (same : first.key = second.key) : first = second :=
  List.inj_on_of_nodup_map consistent.keys_nodup firstMember secondMember same

/-- An id belongs to one row. -/
theorem Consistent.eq_of_id (consistent : catalog.Consistent) {first second : Row}
    (firstMember : first ∈ catalog.rows) (secondMember : second ∈ catalog.rows)
    (same : first.id = second.id) : first = second := by
  have distinct : (catalog.rows.map Row.id).Nodup :=
    consistent.ids_ascending.imp fun before => Nat.ne_of_lt before
  exact List.inj_on_of_nodup_map distinct firstMember secondMember same

theorem mem_of_row?_eq_some (found : catalog.row? key = some row) :
    row ∈ catalog.rows ∧ row.key = key := by
  unfold row? at found
  have named := List.find?_some found
  exact ⟨List.mem_of_find?_eq_some found, beq_iff_eq.mp named⟩

/-- No row is found exactly for the keys that have none. -/
theorem row?_eq_none_iff : catalog.row? key = none ↔ key ∉ catalog.keys := by
  simp only [row?, List.find?_eq_none, beq_iff_eq, keys, List.mem_map, not_exists, not_and]

/-- In a consistent catalog every row is found by its key. -/
theorem row?_eq_some_iff (consistent : catalog.Consistent) :
    catalog.row? key = some row ↔ row ∈ catalog.rows ∧ row.key = key := by
  refine ⟨mem_of_row?_eq_some, ?_⟩
  rintro ⟨member, named⟩
  cases found : catalog.row? key with
  | none => exact absurd (List.mem_map.mpr ⟨row, member, named⟩) (row?_eq_none_iff.mp found)
  | some other =>
      obtain ⟨otherMember, otherNamed⟩ := mem_of_row?_eq_some found
      rw [consistent.eq_of_key otherMember member (otherNamed.trans named.symm)]

/-- The greatest of some numbers is at least as great as each of them. -/
theorem foldl_max_le (numbers : List Nat) (start : Nat) :
    start ≤ numbers.foldl max start ∧ ∀ number ∈ numbers, number ≤ numbers.foldl max start := by
  induction numbers generalizing start with
  | nil => exact ⟨Nat.le_refl _, nofun⟩
  | cons number rest step =>
      obtain ⟨above, all⟩ := step (max start number)
      refine ⟨Nat.le_trans (Nat.le_max_left _ _) above, ?_⟩
      intro other member
      rcases List.mem_cons.mp member with rfl | inside
      · exact Nat.le_trans (Nat.le_max_right _ _) above
      · exact all other inside

/-- The next number lies above all numbers in use. -/
theorem lt_nextId (member : row ∈ catalog.rows) : row.id < catalog.nextId :=
  Nat.lt_succ_of_le ((foldl_max_le _ _).2 row.id (List.mem_map.mpr ⟨row, member, rfl⟩))

/-! ### What belongs to a row -/

theorem foldl_enter_eq_append {α : Type} [DecidableEq α] {table entries : List α}
    (distinct : entries.Nodup) (fresh : ∀ entry ∈ entries, entry ∉ table) :
    entries.foldl enter table = table ++ entries := by
  induction entries generalizing table with
  | nil => simp
  | cons entry rest step =>
      obtain ⟨absent, tail⟩ := List.nodup_cons.mp distinct
      have new : enter table entry = table ++ [entry] :=
        if_neg (fresh entry List.mem_cons_self)
      rw [List.foldl_cons, new, step tail, List.append_assoc, List.singleton_append]
      intro other member
      rw [List.mem_append, List.mem_singleton]
      rintro (inside | rfl)
      · exact fresh other (List.mem_cons_of_mem _ member) inside
      · exact absent member

/-- The entries under a number after those of one number have been written anew. -/
theorem filter_foldl_enter {α β : Type} [DecidableEq α] (idOf : α → Nat) (table : List α)
    (own : Nat) {values : List β} (make : β → α) (owned : ∀ value, idOf (make value) = own)
    (injective : ∀ first second, make first = make second → first = second)
    (distinct : values.Nodup) (id : Nat) :
    ((values.map make).foldl enter (table.filter (idOf · != own))).filter (idOf · == id) =
      if id = own then values.map make else table.filter (idOf · == id) := by
  have fresh : ∀ entry ∈ values.map make, entry ∉ table.filter (idOf · != own) := by
    intro entry member inside
    obtain ⟨value, -, rfl⟩ := List.mem_map.mp member
    have other := (List.mem_filter.mp inside).2
    simp [owned] at other
  have distinctEntries : (values.map make).Nodup := by
    refine List.Pairwise.map make ?_ distinct
    intro first second different same
    exact different (injective first second same)
  rw [foldl_enter_eq_append distinctEntries fresh, List.filter_append, List.filter_filter]
  by_cases same : id = own
  · have none : table.filter (fun entry => idOf entry == id && idOf entry != own) = [] := by
      apply List.filter_eq_nil_iff.mpr
      intro entry _
      simp [same]
    have all : (values.map make).filter (idOf · == id) = values.map make := by
      apply List.filter_eq_self.mpr
      intro entry member
      obtain ⟨value, -, rfl⟩ := List.mem_map.mp member
      simp [owned, same]
    rw [none, all, if_pos same, List.nil_append]
  · have kept : table.filter (fun entry => idOf entry == id && idOf entry != own) =
        table.filter (idOf · == id) := by
      apply List.filter_congr
      intro entry _
      by_cases here : idOf entry = id <;> simp [here, same]
    have none : (values.map make).filter (idOf · == id) = [] := by
      apply List.filter_eq_nil_iff.mpr
      intro entry member
      obtain ⟨value, -, rfl⟩ := List.mem_map.mp member
      simpa [owned] using Ne.symm same
    rw [kept, none, if_neg same, List.append_nil]

@[simp] theorem rows_renew (row : Row) : (catalog.renew record row).rows = catalog.rows := rfl

/-- Writing a record to a row gives it the members of the record, and no other row is concerned. -/
theorem membersOf_renew (lawful : record.metadata.Lawful) (row : Row) (id : Nat) :
    (catalog.renew record row).membersOf id =
      if id = row.id then record.metadata.members else catalog.membersOf id := by
  unfold membersOf renew
  simp only
  rw [filter_foldl_enter Membership.id catalog.memberships row.id
    (fun entry : Field × String => ⟨row.id, entry.1, entry.2⟩) (fun _ => rfl) ?_
    lawful.members_nodup id]
  · by_cases same : id = row.id
    · rw [if_pos same, if_pos same, List.map_map]
      exact List.map_id _
    · rw [if_neg same, if_neg same]
  · rintro ⟨field, value⟩ ⟨other, second⟩ same
    cases same
    rfl

/-- Writing a record to a row gives it the empty fields of the record, and no other row is
concerned. -/
theorem emptiesOf_renew (lawful : record.metadata.Lawful) (row : Row) (id : Nat) :
    (catalog.renew record row).emptiesOf id =
      if id = row.id then record.metadata.empties else catalog.emptiesOf id := by
  unfold emptiesOf renew
  simp only
  rw [filter_foldl_enter EmptyMark.id catalog.emptyMarks row.id
    (fun field : Field => ⟨row.id, field⟩) (fun _ => rfl) ?_ lawful.empties_nodup id]
  · by_cases same : id = row.id
    · rw [if_pos same, if_pos same, List.map_map]
      exact List.map_id _
    · rw [if_neg same, if_neg same]
  · intro field other same
    cases same
    rfl

/-- Writing a record to a row indexes the record in place of what was indexed, and no other row is
concerned. -/
theorem tokensOf_renew (row : Row) (id : Nat) :
    (catalog.renew record row).tokensOf id =
      if id = row.id then [record.metadata.indexedTokens row.path] else catalog.tokensOf id := by
  unfold tokensOf renew
  simp only [List.filter_append, List.filter_filter]
  by_cases same : id = row.id
  · have none : catalog.index.filter (fun entry => entry.id == id && entry.id != row.id) = [] := by
      apply List.filter_eq_nil_iff.mpr
      intro entry _
      simp [same]
    rw [none, if_pos same]
    simp [same]
  · have kept : catalog.index.filter (fun entry => entry.id == id && entry.id != row.id) =
        catalog.index.filter (·.id == id) := by
      apply List.filter_congr
      intro entry _
      by_cases here : entry.id = id <;> simp [here, same]
    rw [kept, if_neg same]
    simp [Ne.symm same]

/-- The row to which a record is written has all that the record says. -/
theorem dossier_renew_self (lawful : record.metadata.Lawful) (id : Nat) (fallback : String) :
    (catalog.renew record (record.toRow id fallback)).dossier (record.toRow id fallback) =
      record.toDossier id fallback := by
  unfold dossier Record.toDossier
  rw [membersOf_renew lawful, emptiesOf_renew lawful, tokensOf_renew]
  simp only [↓reduceIte]

/-- The rows to which a record is not written keep all that is filed under them. -/
theorem dossier_renew_other (lawful : record.metadata.Lawful) {written other : Row}
    (different : other.id ≠ written.id) :
    (catalog.renew record written).dossier other = catalog.dossier other := by
  unfold dossier
  rw [membersOf_renew lawful, emptiesOf_renew lawful, tokensOf_renew]
  simp only [different, ↓reduceIte]

/-! ### Writing and deleting an item -/

theorem map_row_dossiers (catalog : Catalog) : catalog.dossiers.map Dossier.row = catalog.rows := by
  rw [dossiers, List.map_map]
  exact List.map_id _

/-- Writing an item renews its dossier or adds one, and leaves all others as they are. -/
theorem dossiers_upsert (consistent : catalog.Consistent) (lawful : record.metadata.Lawful) :
    (catalog.upsert record).dossiers = catalog.dossiers.map record.renewal ++
      if record.key ∈ catalog.keys then []
      else [record.toDossier catalog.nextId record.key] := by
  unfold upsert
  cases found : catalog.row? record.key with
  | some held =>
      obtain ⟨heldMember, heldNamed⟩ := mem_of_row?_eq_some found
      have cached : record.key ∈ catalog.keys := List.mem_map.mpr ⟨held, heldMember, heldNamed⟩
      rw [if_pos cached, List.append_nil]
      simp only [dossiers, rows_renew, List.map_map]
      apply List.map_congr_left
      intro other member
      rw [Function.comp_apply, Function.comp_apply, Record.renewal]
      change _ = if other.key = record.key then _ else _
      by_cases named : other.key = record.key
      · have same := consistent.eq_of_key member heldMember (named.trans heldNamed.symm)
        subst same
        rw [if_pos named, if_pos named]
        exact dossier_renew_self lawful other.id other.path
      · have different : other.id ≠ held.id := by
          intro same
          rw [consistent.eq_of_id member heldMember same] at named
          exact named heldNamed
        rw [if_neg named, if_neg named]
        exact dossier_renew_other lawful different
  | none =>
      have fresh := row?_eq_none_iff.mp found
      rw [if_neg fresh]
      simp only [dossiers, rows_renew, List.map_append, List.map_map, List.map_cons, List.map_nil]
      congr 1
      · apply List.map_congr_left
        intro other member
        have different : other.id ≠ catalog.nextId := Nat.ne_of_lt (lt_nextId member)
        have unnamed : other.key ≠ record.key := fun named =>
          fresh (List.mem_map.mpr ⟨other, member, named⟩)
        rw [Function.comp_apply, Record.renewal]
        change _ = if other.key = record.key then _ else _
        rw [if_neg unnamed]
        exact dossier_renew_other lawful different
      · exact congrArg (fun dossier => [dossier]) (dossier_renew_self lawful _ _)

/-- Deleting the entries of one id leaves those of another. -/
theorem filter_id_ne_filter_id {α : Type} (idOf : α → Nat) (table : List α) {own id : Nat}
    (different : id ≠ own) :
    (table.filter (idOf · != own)).filter (idOf · == id) = table.filter (idOf · == id) := by
  rw [List.filter_filter]
  apply List.filter_congr
  intro entry _
  by_cases here : idOf entry = id <;> simp [here, different]

/-- In a consistent catalog, the rows with other ids are those with other keys. -/
theorem filter_id_ne_eq_filter_key_ne (consistent : catalog.Consistent) {held : Row}
    (member : held ∈ catalog.rows) {key : String} (named : held.key = key) :
    catalog.rows.filter (·.id != held.id) = catalog.rows.filter (·.key != key) := by
  apply List.filter_congr
  intro other listed
  by_cases same : other = held
  · rw [same, named, bne_self_eq_false, bne_self_eq_false]
  · have numbers : other.id ≠ held.id := fun equal =>
      same (consistent.eq_of_id listed member equal)
    have keys : other.key ≠ key := fun otherNamed =>
      same (consistent.eq_of_key listed member (otherNamed.trans named.symm))
    rw [bne_iff_ne.mpr numbers, bne_iff_ne.mpr keys]

/-- Deleting an item takes its dossier away and leaves all others as they are. -/
theorem dossiers_delete (consistent : catalog.Consistent) (key : String) :
    (catalog.delete key).dossiers =
      catalog.dossiers.filter fun dossier => dossier.row.key != key := by
  unfold delete
  cases found : catalog.row? key with
  | some held =>
      obtain ⟨heldMember, heldNamed⟩ := mem_of_row?_eq_some found
      simp only [dossiers, List.filter_map]
      change (catalog.rows.filter (·.id != held.id)).map _ =
        (catalog.rows.filter (·.key != key)).map _
      rw [← filter_id_ne_eq_filter_key_ne consistent heldMember heldNamed]
      apply List.map_congr_left
      intro other member
      have different : other.id ≠ held.id := by simpa using (List.mem_filter.mp member).2
      unfold dossier membersOf emptiesOf tokensOf
      simp only
      rw [filter_id_ne_filter_id Membership.id _ different,
        filter_id_ne_filter_id EmptyMark.id _ different,
        filter_id_ne_filter_id IndexEntry.id _ different]
  | none =>
      have absent := row?_eq_none_iff.mp found
      symm
      apply List.filter_eq_self.mpr
      intro dossier member
      obtain ⟨row, listed, rfl⟩ := List.mem_map.mp member
      rw [bne_iff_ne]
      exact fun named => absent (List.mem_map.mpr ⟨row, listed, named⟩)

/-! ### Consistency is kept -/

theorem map_row_renewal (record : Record) (dossiers : List Dossier) :
    (dossiers.map record.renewal).map (·.row.id) = dossiers.map (·.row.id) ∧
      (dossiers.map record.renewal).map (·.row.key) = dossiers.map (·.row.key) := by
  have kept (dossier : Dossier) : (record.renewal dossier).row.id = dossier.row.id ∧
      (record.renewal dossier).row.key = dossier.row.key := by
    unfold Record.renewal
    by_cases named : dossier.row.key = record.key
    · rw [if_pos named]
      exact ⟨rfl, named.symm⟩
    · rw [if_neg named]
      exact ⟨rfl, rfl⟩
  rw [List.map_map, List.map_map]
  exact ⟨List.map_congr_left fun dossier _ => (kept dossier).1,
    List.map_congr_left fun dossier _ => (kept dossier).2⟩

theorem ids_eq_map_dossiers (catalog : Catalog) :
    catalog.rows.map Row.id = catalog.dossiers.map (·.row.id) := by
  rw [← map_row_dossiers, List.map_map]
  rfl

theorem keys_eq_map_dossiers (catalog : Catalog) :
    catalog.keys = catalog.dossiers.map (·.row.key) := by
  rw [keys, ← map_row_dossiers, List.map_map]
  rfl

/-- Writing a record keeps all ids, and a new key gets the next one. -/
theorem ids_upsert (consistent : catalog.Consistent) (lawful : record.metadata.Lawful) :
    (catalog.upsert record).rows.map Row.id =
      catalog.rows.map Row.id ++ if record.key ∈ catalog.keys then [] else [catalog.nextId] := by
  rw [ids_eq_map_dossiers, dossiers_upsert consistent lawful, List.map_append,
    (map_row_renewal record _).1, ids_eq_map_dossiers]
  split <;> rfl

/-- Writing a record keeps all keys and adds its own, if it is new. -/
theorem keys_upsert (consistent : catalog.Consistent) (lawful : record.metadata.Lawful) :
    (catalog.upsert record).keys =
      catalog.keys ++ if record.key ∈ catalog.keys then [] else [record.key] := by
  rw [keys_eq_map_dossiers, dossiers_upsert consistent lawful, List.map_append,
    (map_row_renewal record _).2, ← keys_eq_map_dossiers]
  split <;> rfl

/-- Writing a record keeps a catalog consistent. -/
theorem Consistent.upsert (consistent : catalog.Consistent) (lawful : record.metadata.Lawful) :
    (catalog.upsert record).Consistent := by
  have numbers := ids_upsert consistent lawful
  have names := keys_upsert consistent lawful
  by_cases cached : record.key ∈ catalog.keys
  · rw [if_pos cached, List.append_nil] at numbers names
    refine ⟨numbers ▸ consistent.ids_ascending, ?_, names ▸ consistent.keys_nodup⟩
    intro row member
    have inside : row.id ∈ catalog.rows.map Row.id := numbers ▸ List.mem_map_of_mem member
    obtain ⟨other, listed, same⟩ := List.mem_map.mp inside
    exact same ▸ consistent.ids_positive other listed
  · rw [if_neg cached] at numbers names
    refine ⟨?_, ?_, ?_⟩
    · rw [numbers]
      refine List.pairwise_append.mpr ⟨consistent.ids_ascending, List.pairwise_singleton _ _, ?_⟩
      intro id member next isNext
      obtain ⟨other, listed, rfl⟩ := List.mem_map.mp member
      rw [List.mem_singleton.mp isNext]
      exact lt_nextId listed
    · intro row member
      have inside : row.id ∈ catalog.rows.map Row.id ++ [catalog.nextId] :=
        numbers ▸ List.mem_map_of_mem member
      rcases List.mem_append.mp inside with old | new
      · obtain ⟨other, listed, same⟩ := List.mem_map.mp old
        exact same ▸ consistent.ids_positive other listed
      · rw [List.mem_singleton.mp new]
        exact Nat.succ_pos _
    · rw [names]
      refine List.nodup_append.mpr ⟨consistent.keys_nodup, List.nodup_singleton _, ?_⟩
      rintro key member _ isNew rfl
      exact cached (List.mem_singleton.mp isNew ▸ member)

/-- Deleting a key only takes rows away. -/
theorem rows_delete_sublist (catalog : Catalog) (key : String) :
    (catalog.delete key).rows.Sublist catalog.rows := by
  unfold delete
  cases catalog.row? key with
  | some held => exact List.filter_sublist
  | none => exact List.Sublist.refl _

/-- Deleting a key keeps a catalog consistent. -/
theorem Consistent.delete (consistent : catalog.Consistent) (key : String) :
    (catalog.delete key).Consistent := by
  have part := catalog.rows_delete_sublist key
  exact ⟨consistent.ids_ascending.sublist (part.map Row.id),
    fun row member => consistent.ids_positive row (part.subset member),
    consistent.keys_nodup.sublist (part.map Row.key)⟩

/-- Deleting a key takes just that key away. -/
theorem keys_delete (consistent : catalog.Consistent) (key : String) :
    (catalog.delete key).keys = catalog.keys.filter (· != key) := by
  rw [keys_eq_map_dossiers, dossiers_delete consistent, keys_eq_map_dossiers, List.filter_map]
  rfl

end Catalog

end AnnexCatalog
