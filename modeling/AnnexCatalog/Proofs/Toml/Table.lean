import AnnexCatalog.Proofs.Toml.Document
import Mathlib.Data.List.Nodup

/-! # Tables put together from sections

The entries of a section are added to the table that its header has opened, which is the last one of
the document. So a written document is read as one table for every section, if no name occurs twice
(`read_writeBlocks`).
-/

namespace AnnexCatalog.Toml

variable {before inner : Entries} {name key : String} {value : Value}

/-- The last of the named values is found by its name. -/
theorem lookup_append_singleton (absent : name ∉ before.map Prod.fst) (value : Value) :
    (before ++ [(name, value)]).lookup name = some value := by
  induction before with
  | nil => simp
  | cons entry before step =>
      rw [List.map_cons, List.mem_cons, not_or] at absent
      obtain ⟨other, held⟩ := entry
      rw [List.cons_append, List.lookup_cons, beq_eq_false_iff_ne.mpr absent.1]
      exact step absent.2

/-- The last of the named values is changed by its name. -/
theorem setEntry_append_singleton (absent : name ∉ before.map Prod.fst) (value held : Value) :
    setEntry name value (before ++ [(name, held)]) = before ++ [(name, value)] := by
  induction before with
  | nil => simp [setEntry]
  | cons entry before step =>
      rw [List.map_cons, List.mem_cons, not_or] at absent
      rw [List.cons_append, setEntry, if_neg (Ne.symm absent.1), step absent.2, List.cons_append]

/-- What has no entry is not found. -/
theorem lookup_eq_none_of_absent (absent : name ∉ before.map Prod.fst) :
    before.lookup name = none := by
  refine List.lookup_eq_none_iff.mpr fun entry member => ?_
  rw [bne_iff_ne]
  rintro rfl
  exact absent (List.mem_map_of_mem member)

/-- A header opens a table at the end. -/
theorem apply_header (absent : name ∉ before.map Prod.fst) (current : List String) :
    Statement.apply current before (.header ⟨[], name⟩) =
      some ([name], before ++ [(name, .table .header [])]) := by
  have opened : openTable [] name before = some (before ++ [(name, .table .header [])]) := by
    rw [openTable, modify, lookup_eq_none_of_absent absent]
  rw [Statement.apply, opened]
  rfl

/-- An entry is added to the table at the end, which is open. -/
theorem apply_entry (absent : name ∉ before.map Prod.fst) (fresh : key ∉ inner.map Prod.fst)
    (value : Value) :
    Statement.apply [name] (before ++ [(name, .table .header inner)]) (.entry ⟨[], key⟩ value) =
      some ([name], before ++ [(name, .table .header (inner ++ [(key, value)]))]) := by
  have defined : define [] key value .header inner = some (inner ++ [(key, value)]) := by
    rw [define, modify, lookup_eq_none_of_absent fresh]
    simp
  have changed : modify false [name] (define [] key value) .header
      (before ++ [(name, .table .header inner)]) =
        some (before ++ [(name, .table .header (inner ++ [(key, value)]))]) := by
    rw [modify, lookup_append_singleton absent]
    dsimp only
    rw [if_neg (by simp), modify, defined, Option.map_some, setEntry_append_singleton absent]
  rw [Statement.apply, changed]
  rfl

/-- The state of a document after some statements. -/
def applyAll (statements : List Statement) (state : List String × Entries) :
    Option (List String × Entries) :=
  statements.foldlM (fun (current, entries) statement => Statement.apply current entries statement)
    state

theorem applyAll_append (first second : List Statement) (state : List String × Entries) :
    applyAll (first ++ second) state = (applyAll first state).bind (applyAll second) :=
  List.foldlM_append

/-- The entries of a section are added to its table. -/
theorem applyAll_entries {entries : List (String × Setting)}
    (absent : name ∉ before.map Prod.fst)
    (distinct : (inner.map Prod.fst ++ entries.map Prod.fst).Nodup) :
    applyAll (entries.map fun (name, setting) => .entry ⟨[], name⟩ setting.value)
        ([name], before ++ [(name, .table .header inner)]) =
      some ([name], before ++ [(name, .table .header
        (inner ++ entries.map fun (name, setting) => (name, setting.value)))]) := by
  induction entries generalizing inner with
  | nil =>
      rw [List.map_nil, List.map_nil, List.append_nil]
      rfl
  | cons entry entries step =>
      obtain ⟨key, setting⟩ := entry
      have fresh : key ∉ inner.map Prod.fst := fun member =>
        (List.nodup_cons.mp (List.nodup_middle.mp distinct)).1 (List.mem_append_left _ member)
      have more : ((inner ++ [(key, setting.value)]).map Prod.fst ++
          entries.map Prod.fst).Nodup := by
        rw [List.map_append, List.append_assoc]
        exact distinct
      have later := step more
      rw [List.append_assoc] at later
      rw [List.map_cons, applyAll, List.foldlM_cons]
      dsimp only
      rw [apply_entry absent fresh]
      exact later

/-- A section with its name and its table. -/
def Block.table (block : Block) : String × Value :=
  (block.name, .table .header block.values)

/-- A section becomes the last table of the document. -/
theorem Block.Legible.applyAll {block : Block} (legible : block.Legible)
    (absent : block.name ∉ before.map Prod.fst) (current : List String) :
    applyAll block.statements (current, before) = some ([block.name], before ++ [block.table]) := by
  have entries : Toml.applyAll _ ([block.name], before ++ [(block.name, .table .header [])]) = _ :=
    applyAll_entries absent legible.distinct
  rw [Block.statements, Toml.applyAll, List.foldlM_cons]
  dsimp only
  rw [apply_header absent]
  exact entries

/-- Sections of different names become tables, one after another. -/
theorem exists_applyAll {blocks : List Block} (legible : ∀ block ∈ blocks, block.Legible)
    (distinct : (before.map Prod.fst ++ blocks.map Block.name).Nodup) (current : List String) :
    ∃ last, applyAll (blocks.flatMap Block.statements) (current, before) =
      some (last, before ++ blocks.map Block.table) := by
  induction blocks generalizing before current with
  | nil => exact ⟨current, by rw [List.map_nil, List.append_nil]; rfl⟩
  | cons block blocks step =>
      obtain ⟨first, others⟩ := List.forall_mem_cons.mp legible
      have fresh : block.name ∉ before.map Prod.fst := fun member =>
        (List.nodup_cons.mp (List.nodup_middle.mp distinct)).1 (List.mem_append_left _ member)
      have more : ((before ++ [block.table]).map Prod.fst ++ blocks.map Block.name).Nodup := by
        rw [List.map_append, List.append_assoc]
        exact distinct
      obtain ⟨last, later⟩ := step others more [block.name]
      rw [List.flatMap_cons, applyAll_append, first.applyAll fresh current, Option.bind_some, later,
        List.append_assoc]
      exact ⟨last, rfl⟩

/-- **A document of sections is read as it was written**: as one table for every section. -/
theorem read_writeBlocks {blocks : List Block} (legible : ∀ block ∈ blocks, block.Legible)
    (distinct : (blocks.map Block.name).Nodup) :
    read (writeBlocks blocks) = some (blocks.map Block.table) := by
  have unmarked : dropMark (writeBlocks blocks) = writeBlocks blocks := by
    cases blocks <;> rfl
  have statements := (spells_writeBlocks legible).readStatements (Nat.le_refl _)
  have fresh : (([] : Entries).map Prod.fst ++ blocks.map Block.name).Nodup := distinct
  obtain ⟨last, applied⟩ := exists_applyAll legible fresh []
  rw [read, unmarked, statements, Option.bind_some, assemble, ← applyAll, applied]
  rfl

end AnnexCatalog.Toml
