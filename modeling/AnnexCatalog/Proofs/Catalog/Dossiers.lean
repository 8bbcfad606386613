import AnnexCatalog.Proofs.Catalog.Contents

/-! # What the tables hold of a key

A write leaves the dossiers of all keys but its own as they are (`mem_dossiers_write_iff`). Of its own
key it makes one dossier, which has nothing of an earlier one but the number and, where the record
has no location, the path (`dossiersOf_upsert`). So what is last written for a key settles what the
tables hold of it (`dossiersOf_foldl_write_upsert`).
-/

namespace AnnexCatalog.Catalog

variable {catalog : Catalog} {record : Record} {key : String}

/-! ### Dossiers of other keys -/

theorem key_renewal (record : Record) (dossier : Dossier) :
    (record.renewal dossier).row.key = dossier.row.key := by
  unfold Record.renewal
  by_cases named : dossier.row.key = record.key
  · rw [if_pos named]
    exact named.symm
  · rw [if_neg named]

/-- A write leaves the dossiers of other keys and adds none. -/
theorem mem_dossiers_write_iff {write : Write} (consistent : catalog.Consistent)
    (lawful : write.Lawful) {dossier : Dossier} (other : dossier.row.key ≠ write.key) :
    dossier ∈ (catalog.write write).dossiers ↔ dossier ∈ catalog.dossiers := by
  cases write with
  | upsert record =>
      have kept (held : Dossier) (named : held.row.key ≠ record.key) :
          record.renewal held = held := if_neg named
      rw [Catalog.write, dossiers_upsert consistent lawful, List.mem_append, List.mem_map]
      constructor
      · rintro (⟨held, member, rfl⟩ | new)
        · rw [key_renewal] at other
          exact (kept held other).symm ▸ member
        · split at new
          · cases new
          · rw [List.mem_singleton.mp new] at other
            exact absurd rfl other
      · exact fun member => .inl ⟨dossier, member, kept dossier other⟩
  | delete key =>
      rw [Catalog.write, dossiers_delete consistent, List.mem_filter, bne_iff_ne]
      exact and_iff_left other

/-- Writes leave the dossiers of the keys that they do not name. -/
theorem mem_dossiers_foldl_write_iff {writes : List Write} (consistent : catalog.Consistent)
    (lawful : ∀ write ∈ writes, write.Lawful) {dossier : Dossier}
    (untouched : dossier.row.key ∉ writes.map Write.key) :
    dossier ∈ (writes.foldl Catalog.write catalog).dossiers ↔ dossier ∈ catalog.dossiers := by
  induction writes generalizing catalog with
  | nil => exact Iff.rfl
  | cons write rest step =>
      rw [List.map_cons, List.mem_cons, not_or] at untouched
      have head := lawful write List.mem_cons_self
      rw [List.foldl_cons, step (consistent.write head)
        (fun other member => lawful other (List.mem_cons_of_mem _ member)) untouched.2,
        mem_dossiers_write_iff consistent head untouched.1]

/-! ### The dossiers of a key -/

/-- All that the tables hold under a key. -/
def dossiersOf (catalog : Catalog) (key : String) : List Dossier :=
  catalog.dossiers.filter fun dossier => dossier.row.key == key

/-- The path that is held under a key, or else the key itself. -/
def pathFor (catalog : Catalog) (key : String) : String :=
  ((catalog.row? key).map Row.path).getD key

/-- The dossiers of a key are those that have it. -/
theorem mem_dossiersOf_iff {dossier : Dossier} :
    dossier ∈ catalog.dossiersOf key ↔ dossier ∈ catalog.dossiers ∧ dossier.row.key = key := by
  rw [dossiersOf, List.mem_filter, beq_iff_eq]

/-- In a consistent catalog a key has one dossier at most. -/
theorem dossiersOf_of_mem (consistent : catalog.Consistent) {dossier : Dossier}
    (member : dossier ∈ catalog.dossiers) (named : dossier.row.key = key) :
    catalog.dossiersOf key = [dossier] := by
  have apart : (catalog.dossiersOf key).Nodup := by
    refine List.Nodup.filter _ (List.Nodup.of_map (·.row.key) ?_)
    rw [← keys_eq_map_dossiers]
    exact consistent.keys_nodup
  refine List.perm_singleton.mp
    ((List.perm_ext_iff_of_nodup apart (List.nodup_singleton _)).mpr fun other => ?_)
  rw [mem_dossiersOf_iff, List.mem_singleton]
  constructor
  · rintro ⟨otherMember, otherNamed⟩
    obtain ⟨row, listed, rfl⟩ := List.mem_map.mp member
    obtain ⟨second, secondListed, rfl⟩ := List.mem_map.mp otherMember
    rw [consistent.eq_of_key secondListed listed (otherNamed.trans named.symm)]
  · rintro rfl
    exact ⟨member, named⟩

/-- A key has one dossier if it has a row, and none if not. -/
theorem dossiersOf_eq_toList (consistent : catalog.Consistent) (key : String) :
    catalog.dossiersOf key = ((catalog.row? key).map catalog.dossier).toList := by
  cases found : catalog.row? key with
  | some row =>
      obtain ⟨member, named⟩ := mem_of_row?_eq_some found
      exact dossiersOf_of_mem consistent (List.mem_map_of_mem member) named
  | none =>
      refine List.eq_nil_iff_forall_not_mem.mpr fun dossier member => ?_
      obtain ⟨listed, named⟩ := mem_dossiersOf_iff.mp member
      refine row?_eq_none_iff.mp found ?_
      rw [keys_eq_map_dossiers]
      exact List.mem_map.mpr ⟨dossier, listed, named⟩

/-- The path for a key is that of its dossier, or the key where there is none. -/
theorem pathFor_eq_getD (consistent : catalog.Consistent) (key : String) :
    catalog.pathFor key = ((catalog.dossiersOf key).head?.map (·.row.path)).getD key := by
  rw [dossiersOf_eq_toList consistent, pathFor]
  cases catalog.row? key <;> rfl

/-- The only dossier of a key is that of a row with the key. -/
theorem exists_row_of_dossiersOf {dossier : Dossier} (held : catalog.dossiersOf key = [dossier]) :
    ∃ row ∈ catalog.rows, row.key = key ∧ catalog.dossier row = dossier := by
  have member : dossier ∈ catalog.dossiersOf key := held ▸ List.mem_singleton_self dossier
  obtain ⟨listed, named⟩ := mem_dossiersOf_iff.mp member
  obtain ⟨row, inside, rfl⟩ := List.mem_map.mp listed
  exact ⟨row, inside, named, rfl⟩

/-- Catalogs with the same dossiers of a key agree on it. -/
theorem dossiersOf_congr {other : Catalog} (consistent : catalog.Consistent)
    (otherConsistent : other.Consistent) (same : ∀ dossier : Dossier, dossier.row.key = key →
      (dossier ∈ catalog.dossiers ↔ dossier ∈ other.dossiers)) :
    catalog.dossiersOf key = other.dossiersOf key := by
  cases held : other.dossiersOf key with
  | nil =>
      refine List.eq_nil_iff_forall_not_mem.mpr fun dossier member => ?_
      obtain ⟨listed, named⟩ := mem_dossiersOf_iff.mp member
      have found := mem_dossiersOf_iff.mpr ⟨(same dossier named).mp listed, named⟩
      rw [held] at found
      cases found
  | cons dossier rest =>
      obtain ⟨listed, named⟩ := mem_dossiersOf_iff.mp (held ▸ List.mem_cons_self)
      rw [← held, dossiersOf_of_mem otherConsistent listed named]
      exact dossiersOf_of_mem consistent ((same dossier named).mpr listed) named

/-! ### Writes of a key -/

/-- Writing a record leaves one dossier of its key, which has nothing of an earlier one but the
number and, where the record has none, the path. -/
theorem dossiersOf_upsert (consistent : catalog.Consistent) (lawful : record.metadata.Lawful) :
    ∃ id, (catalog.upsert record).dossiersOf record.key =
      [record.toDossier id (catalog.pathFor record.key)] := by
  have written := consistent.upsert lawful
  have dossiers := dossiers_upsert consistent lawful
  cases found : catalog.row? record.key with
  | some held =>
      obtain ⟨member, named⟩ := mem_of_row?_eq_some found
      refine ⟨held.id, dossiersOf_of_mem written ?_ rfl⟩
      have renewed : record.renewal (catalog.dossier held) =
          record.toDossier held.id (catalog.pathFor record.key) := by
        have same : (catalog.dossier held).row.key = record.key := named
        rw [Record.renewal, if_pos same, pathFor, found]
        rfl
      rw [dossiers, ← renewed]
      exact List.mem_append_left _ (List.mem_map_of_mem (List.mem_map_of_mem member))
  | none =>
      refine ⟨catalog.nextId, dossiersOf_of_mem written ?_ rfl⟩
      rw [dossiers, if_neg (row?_eq_none_iff.mp found), pathFor, found]
      exact List.mem_append_right _ (List.mem_singleton_self _)

/-- Writes for other keys leave the dossiers of a key as they are. -/
theorem dossiersOf_foldl_write {writes : List Write} (consistent : catalog.Consistent)
    (lawful : ∀ write ∈ writes, write.Lawful) (untouched : key ∉ writes.map Write.key) :
    (writes.foldl write catalog).dossiersOf key = catalog.dossiersOf key := by
  refine dossiersOf_congr (consistent.foldl_write lawful) consistent ?_
  rintro dossier rfl
  exact mem_dossiers_foldl_write_iff consistent lawful untouched

/-- What a record makes of a dossier depends on the path held only where it has none. -/
theorem toDossier_eq_of_path (record : Record) (id : Nat) {first second : String}
    (same : (record.location.map Location.path).getD first =
      (record.location.map Location.path).getD second) :
    record.toDossier id first = record.toDossier id second := by
  have rows : record.toRow id first = record.toRow id second := by
    unfold Record.toRow
    rw [same]
  unfold Record.toDossier
  rw [rows]

/-- A record leaves its own path, or the one that was held. -/
theorem pathFor_upsert (consistent : catalog.Consistent) (lawful : record.metadata.Lawful) :
    (catalog.upsert record).pathFor record.key =
      (record.location.map Location.path).getD (catalog.pathFor record.key) := by
  obtain ⟨id, written⟩ := dossiersOf_upsert consistent lawful
  rw [pathFor_eq_getD (consistent.upsert lawful), written]
  rfl

/-- Writes with one location leave the path that the location gives, or the one that was held. -/
theorem getD_pathFor_foldl_write {writes : List Write} (consistent : catalog.Consistent)
    (lawful : ∀ write ∈ writes, write.Lawful) {location : Option Location}
    (alike : ∀ write ∈ writes, write.key = key →
      ∃ record, write = .upsert record ∧ record.location = location) :
    (location.map Location.path).getD ((writes.foldl write catalog).pathFor key) =
      (location.map Location.path).getD (catalog.pathFor key) := by
  induction writes generalizing catalog with
  | nil => rfl
  | cons write rest step =>
      have head := lawful write List.mem_cons_self
      have written := consistent.write head
      rw [List.foldl_cons, step written (fun other member => lawful other (.tail _ member))
        fun other member => alike other (.tail _ member)]
      by_cases named : write.key = key
      · obtain ⟨record, rfl, rfl⟩ := alike write List.mem_cons_self named
        cases named
        change (record.location.map Location.path).getD ((catalog.upsert record).pathFor record.key) =
          (record.location.map Location.path).getD (catalog.pathFor record.key)
        rw [pathFor_upsert consistent head]
        cases record.location <;> rfl
      · have untouched : key ∉ [write].map Write.key := by simpa using Ne.symm named
        have kept : (catalog.write write).dossiersOf key = catalog.dossiersOf key :=
          dossiersOf_foldl_write consistent (by simpa using head) untouched
        rw [pathFor_eq_getD written, kept, ← pathFor_eq_getD consistent]

/-- Of several records that are written for a key with one location, the last one settles what the
tables hold under the key. -/
theorem dossiersOf_foldl_write_upsert {earlier later : List Write} (consistent : catalog.Consistent)
    (lawful : ∀ write ∈ earlier ++ .upsert record :: later, write.Lawful)
    (alike : ∀ write ∈ earlier, write.key = record.key →
      ∃ other, write = .upsert other ∧ other.location = record.location)
    (untouched : record.key ∉ later.map Write.key) :
    ∃ id, ((earlier ++ .upsert record :: later).foldl write catalog).dossiersOf record.key =
      [record.toDossier id (catalog.pathFor record.key)] := by
  have before : ∀ write ∈ earlier, write.Lawful := fun write member =>
    lawful write (List.mem_append_left _ member)
  have recorded : record.metadata.Lawful :=
    lawful (.upsert record) (List.mem_append_right _ List.mem_cons_self)
  have begun := consistent.foldl_write before
  obtain ⟨id, written⟩ := dossiersOf_upsert begun recorded
  refine ⟨id, ?_⟩
  rw [List.foldl_append, List.foldl_cons, Catalog.write, dossiersOf_foldl_write (begun.upsert recorded)
    (fun write member => lawful write (List.mem_append_right _ (.tail _ member))) untouched]
  exact written.trans (congrArg ([·])
    (toDossier_eq_of_path record id (getD_pathFor_foldl_write consistent before alike)))

end AnnexCatalog.Catalog
