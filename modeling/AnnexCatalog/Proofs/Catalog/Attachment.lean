import AnnexCatalog.Proofs.Catalog.Steps

/-! # What belongs to a row

Memberships, marks and indexed tokens refer to a row by its number. Writing an item enters them
under the number of its row, and deleting one takes them away with the row. So in every catalog that
is reached, all of them belong to a row (`Reachable.attached`), and what the tables hold of the rows
is all that they hold.
-/

namespace AnnexCatalog.Catalog

variable {catalog : Catalog} {now : Nat} {record : Record}

/-- All that the tables hold besides the rows belongs to one of them. -/
structure Attached (catalog : Catalog) : Prop where
  memberships : ∀ entry ∈ catalog.memberships, entry.id ∈ catalog.rows.map Row.id
  emptyMarks : ∀ mark ∈ catalog.emptyMarks, mark.id ∈ catalog.rows.map Row.id
  index : ∀ entry ∈ catalog.index, entry.id ∈ catalog.rows.map Row.id

namespace Attached

theorem empty : Catalog.empty.Attached := ⟨nofun, nofun, nofun⟩

/-- Deleting the index leaves nothing over. -/
theorem unindexed (attached : catalog.Attached) : catalog.unindexed.Attached :=
  ⟨attached.memberships, attached.emptyMarks, nofun⟩

/-- Where the ids of the rows are kept, everything stays attached. -/
theorem mono {rows : List Row} (attached : catalog.Attached)
    (kept : ∀ id ∈ catalog.rows.map Row.id, id ∈ rows.map Row.id) :
    { catalog with rows }.Attached :=
  ⟨fun entry member => kept _ (attached.memberships entry member),
    fun mark member => kept _ (attached.emptyMarks mark member),
    fun entry member => kept _ (attached.index entry member)⟩

/-- What a record files under a row is attached to the row. -/
theorem renew {row : Row} (attached : catalog.Attached) (member : row ∈ catalog.rows) :
    (catalog.renew record row).Attached := by
  have entered {α : Type} [DecidableEq α] {table entries : List α} {entry : α}
      (found : entry ∈ entries.foldl enter table) : entry ∈ table ∨ entry ∈ entries := by
    induction entries generalizing table with
    | nil => exact .inl found
    | cons first rest step =>
        rcases step found with early | late
        · unfold enter at early
          split at early
          · exact .inl early
          · rcases List.mem_append.mp early with old | new
            · exact .inl old
            · exact .inr (List.mem_singleton.mp new ▸ List.mem_cons_self)
        · exact .inr (List.mem_cons_of_mem _ late)
  have own : row.id ∈ catalog.rows.map Row.id := List.mem_map_of_mem member
  refine ⟨fun entry found => ?_, fun mark found => ?_, fun entry found => ?_⟩
  · rcases entered found with old | new
    · exact attached.memberships entry (List.mem_filter.mp old).1
    · obtain ⟨_, -, rfl⟩ := List.mem_map.mp new
      exact own
  · rcases entered found with old | new
    · exact attached.emptyMarks mark (List.mem_filter.mp old).1
    · obtain ⟨_, -, rfl⟩ := List.mem_map.mp new
      exact own
  · rcases List.mem_append.mp found with old | new
    · exact attached.index entry (List.mem_filter.mp old).1
    · rw [List.mem_singleton.mp new]
      exact own

/-- Writing a record leaves everything attached. -/
theorem upsert (attached : catalog.Attached) (consistent : catalog.Consistent)
    (lawful : record.metadata.Lawful) : (catalog.upsert record).Attached := by
  have parts : ∃ rows row, catalog.upsert record = { catalog with rows }.renew record row ∧
      row ∈ rows := by
    unfold Catalog.upsert
    cases found : catalog.row? record.key with
    | some held =>
        obtain ⟨member, named⟩ := mem_of_row?_eq_some found
        exact ⟨_, _, rfl, List.mem_map.mpr ⟨held, member, if_pos named⟩⟩
    | none => exact ⟨_, _, rfl, List.mem_append_right _ (List.mem_singleton_self _)⟩
  obtain ⟨rows, row, renewed, member⟩ := parts
  have grown : ∀ id ∈ catalog.rows.map Row.id, id ∈ rows.map Row.id := by
    intro id held
    have all := List.mem_append_left (if record.key ∈ catalog.keys then [] else [catalog.nextId]) held
    rwa [← ids_upsert consistent lawful, renewed] at all
  rw [renewed]
  exact (attached.mono grown).renew member

/-- Deleting a key takes away what was attached to its row. -/
theorem delete (attached : catalog.Attached) (key : String) : (catalog.delete key).Attached := by
  unfold Catalog.delete
  cases catalog.row? key with
  | none => exact attached
  | some held =>
      have kept {id : Nat} (listed : id ∈ catalog.rows.map Row.id) (other : id != held.id) :
          id ∈ (catalog.rows.filter (·.id != held.id)).map Row.id := by
        obtain ⟨row, member, rfl⟩ := List.mem_map.mp listed
        exact List.mem_map_of_mem (List.mem_filter.mpr ⟨member, other⟩)
      refine ⟨fun entry member => ?_, fun mark member => ?_, fun entry member => ?_⟩
      · obtain ⟨listed, other⟩ := List.mem_filter.mp member
        exact kept (attached.memberships entry listed) other
      · obtain ⟨listed, other⟩ := List.mem_filter.mp member
        exact kept (attached.emptyMarks mark listed) other
      · obtain ⟨listed, other⟩ := List.mem_filter.mp member
        exact kept (attached.index entry listed) other

/-- After several writes everything is attached. -/
theorem foldl_write {writes : List Write} (attached : catalog.Attached)
    (consistent : catalog.Consistent) (lawful : ∀ write ∈ writes, write.Lawful) :
    (writes.foldl Catalog.write catalog).Attached := by
  induction writes generalizing catalog with
  | nil => exact attached
  | cons write rest step =>
      have head := lawful write List.mem_cons_self
      refine step ?_ (consistent.write head) fun other member => lawful other (.tail _ member)
      cases write with
      | upsert record => exact attached.upsert consistent head
      | delete key => exact attached.delete key

/-- After all logs have been written, everything is attached. -/
theorem writeAll (attached : catalog.Attached) (consistent : catalog.Consistent) (revision : String)
    (blobs : List Blob) (locations : TextMap Location) :
    (catalog.writeAll now revision blobs locations).Attached := by
  have lawful : ∀ write ∈ catalog.buildWrites now locations blobs, write.Lawful :=
    lawful_buildWrites blobs
  have written := attached.unindexed.foldl_write consistent.unindexed lawful
  rw [writeAll_eq consistent]
  exact ⟨written.memberships, written.emptyMarks, written.index⟩

/-- After changes have been written, everything is attached. -/
theorem writeChanges (attached : catalog.Attached) (consistent : catalog.Consistent)
    (changes : Changes) : (catalog.writeChanges now changes).Attached := by
  have written := attached.foldl_write consistent
    (lawful_changes_write changes now changes.keys.toList)
  rw [writeChanges_eq]
  exact ⟨written.memberships, written.emptyMarks, written.index⟩

/-- A build leaves everything attached. -/
theorem build (attached : catalog.Attached) (consistent : catalog.Consistent) (now : Nat)
    (store : LogStore) : (catalog.build now store).catalog.Attached := by
  rcases build_cases catalog now store with ⟨revision, blobs, locations, -, built⟩ | kept
  · exact built ▸ attached.writeAll consistent revision blobs locations
  · exact kept.symm ▸ attached

/-- A refresh leaves everything attached. -/
theorem refresh (attached : catalog.Attached) (consistent : catalog.Consistent) (now : Nat)
    (store : LogStore) : (catalog.refresh now store).catalog.Attached := by
  cases found : catalog.state with
  | none => exact (refresh_of_unbuilt found now store).symm ▸ attached.build consistent now store
  | some state =>
      rcases refresh_cases found now store with ⟨changes, -, refreshed⟩ | kept
      · exact refreshed ▸ attached.writeChanges consistent changes
      · exact kept.symm ▸ attached

end Attached

/-- In every catalog that is reached, nothing belongs to no row. -/
theorem Reachable.attached (reached : catalog.Reachable) : catalog.Attached := by
  induction reached with
  | empty => exact .empty
  | build reached now store step => exact step.build reached.sound.consistent now store
  | refresh reached now store step => exact step.refresh reached.sound.consistent now store
  | clear _ _ => exact .empty

end AnnexCatalog.Catalog
