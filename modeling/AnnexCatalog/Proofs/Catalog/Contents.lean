import AnnexCatalog.Proofs.Catalog.Tables

/-! # What a catalog says

The content of an item is everything that the catalog says of it but its number and the time of
writing. Writing or deleting an item acts on the contents alone (`contents_write`), and writes of
distinct keys act on each content at once, whatever their order, and add the new items in the order
of the writes (`contents_foldl_write`).
-/

namespace AnnexCatalog

/-- What the catalog says of an item. -/
structure Content where
  key : String
  path : String
  present : Bool
  metadata : Metadata
  tokens : List (List (List Text.Token))
deriving DecidableEq

/-- What a dossier says of its item. -/
def Dossier.content (dossier : Dossier) : Content where
  key := dossier.row.key
  path := dossier.row.path
  present := dossier.row.present
  metadata := ⟨dossier.row.scalars, dossier.members, dossier.empties⟩
  tokens := dossier.tokens

/-- What the catalog says of an item once a record has been written. -/
def Record.content (record : Record) (fallback : String) : Content :=
  (record.toDossier 0 fallback).content

/-- A change of one item: it is written anew or deleted. -/
inductive Write where
  | upsert (record : Record)
  | delete (key : String)
deriving DecidableEq

namespace Write

/-- The key of the changed item. -/
def key : Write → String
  | .upsert record => record.key
  | .delete key => key

/-- Whether what is written is lawful. -/
def Lawful : Write → Prop
  | .upsert record => record.metadata.Lawful
  | .delete _ => True

/-- What the catalog says of the item afterwards, if it had the path before. -/
def result (path : String) : Write → Option Content
  | .upsert record => some (record.content path)
  | .delete _ => none

/-- What becomes of a content. -/
def revise (write : Write) (content : Content) : Option Content :=
  if content.key = write.key then write.result content.path else some content

/-- What becomes of a content under several writes of distinct keys. -/
def reviseAll (writes : List Write) (content : Content) : Option Content :=
  match writes.find? (·.key == content.key) with
  | some write => write.result content.path
  | none => some content

/-- The content that is added where the key is not among the given ones. -/
def added (keys : List String) (write : Write) : Option Content :=
  if write.key ∈ keys then none else write.result write.key

end Write

namespace Catalog

/-- The contents, in the order of the numbers. -/
def contents (catalog : Catalog) : List Content :=
  catalog.dossiers.map Dossier.content

/-- The catalog after a change of one item. -/
def write (catalog : Catalog) : Write → Catalog
  | .upsert record => catalog.upsert record
  | .delete key => catalog.delete key

variable {catalog : Catalog}

theorem keys_eq_map_contents (catalog : Catalog) :
    catalog.keys = catalog.contents.map Content.key := by
  rw [keys_eq_map_dossiers, contents, List.map_map]
  rfl

/-- A catalog has a key exactly if it has contents for it. -/
theorem mem_keys_iff_contents {key : String} :
    key ∈ catalog.keys ↔ ∃ content ∈ catalog.contents, content.key = key := by
  rw [keys_eq_map_contents, List.mem_map]

/-- A lawful write keeps a catalog consistent. -/
theorem Consistent.write {write : Write} (consistent : catalog.Consistent) (lawful : write.Lawful) :
    (catalog.write write).Consistent := by
  cases write with
  | upsert record => exact consistent.upsert lawful
  | delete key => exact consistent.delete key

/-- Several lawful writes keep a catalog consistent. -/
theorem Consistent.foldl_write {writes : List Write} (consistent : catalog.Consistent)
    (lawful : ∀ write ∈ writes, write.Lawful) :
    (writes.foldl Catalog.write catalog).Consistent := by
  induction writes generalizing catalog with
  | nil => exact consistent
  | cons write rest step =>
      exact step (consistent.write (lawful write List.mem_cons_self))
        fun other member => lawful other (List.mem_cons_of_mem _ member)

theorem key_of_result_eq_some {write : Write} {path : String} {content : Content}
    (written : write.result path = some content) : content.key = write.key := by
  cases write with
  | upsert record =>
      cases written
      rfl
  | delete key => cases written

/-- Only a record that is written leaves something. -/
theorem eq_upsert_of_result_eq_some {write : Write} {path : String} {content : Content}
    (written : write.result path = some content) :
    ∃ record, write = .upsert record ∧ content = record.content path := by
  cases write with
  | upsert record => exact ⟨record, rfl, (Option.some.inj written).symm⟩
  | delete key => cases written

theorem key_of_added_eq_some {write : Write} {keys : List String} {content : Content}
    (new : write.added keys = some content) : content.key = write.key := by
  unfold Write.added at new
  split at new
  · cases new
  · exact key_of_result_eq_some new

/-- A record that is written changes contents as it changes their dossier. -/
theorem revise_upsert (record : Record) (dossier : Dossier) :
    (Write.upsert record).revise dossier.content = some (record.renewal dossier).content := by
  unfold Write.revise Record.renewal
  change (if dossier.row.key = record.key then _ else _) = _
  split <;> rfl

/-- A key that is deleted takes its own contents away and no others. -/
theorem revise_delete (key : String) (content : Content) :
    (Write.delete key).revise content = if content.key != key then some content else none := by
  unfold Write.revise
  change (if content.key = key then none else _) = _
  by_cases named : content.key = key <;> simp [named]

/-- A write acts on the content of its key and adds it if it is new. -/
theorem contents_write {write : Write} (consistent : catalog.Consistent) (lawful : write.Lawful) :
    (catalog.write write).contents =
      catalog.contents.filterMap write.revise ++ (write.added catalog.keys).toList := by
  cases write with
  | upsert record =>
      have revised : catalog.contents.filterMap (Write.upsert record).revise =
          (catalog.dossiers.map record.renewal).map Dossier.content := by
        rw [contents, List.filterMap_map, List.map_map, ← List.filterMap_eq_map]
        exact List.filterMap_congr fun dossier _ => revise_upsert record dossier
      rw [revised, Catalog.write, contents, dossiers_upsert consistent lawful, List.map_append]
      congr 1
      unfold Write.added
      change _ = Option.toList (if record.key ∈ catalog.keys then none else _)
      split <;> rfl
  | delete key =>
      have unadded : (Write.delete key).added catalog.keys = none := by
        unfold Write.added
        split <;> rfl
      have revised : catalog.contents.filterMap (Write.delete key).revise =
          catalog.contents.filter (·.key != key) := by
        rw [← List.filterMap_eq_filter]
        exact List.filterMap_congr fun content _ => revise_delete key content
      rw [unadded, Option.toList_none, List.append_nil, revised, Catalog.write, contents, contents,
        dossiers_delete consistent, List.filter_map]
      rfl

/-- After a write there are the keys that were there before, but its own only if a record was
written. -/
theorem mem_keys_write {write : Write} (consistent : catalog.Consistent) (lawful : write.Lawful)
    (key : String) :
    key ∈ (catalog.write write).keys ↔
      (∃ record, write = .upsert record ∧ record.key = key) ∨
        key ∈ catalog.keys ∧ key ≠ write.key := by
  cases write with
  | upsert record =>
      rw [Catalog.write, keys_upsert consistent lawful, List.mem_append]
      simp only [Write.upsert.injEq, exists_eq_left', Write.key]
      by_cases named : record.key = key
      · subst named
        by_cases cached : record.key ∈ catalog.keys <;> simp [cached]
      · have unadded : key ∉ (if record.key ∈ catalog.keys then [] else [record.key]) := by
          split
          · exact List.not_mem_nil
          · exact fun member => named (List.mem_singleton.mp member).symm
        simp only [unadded, named, or_false, false_or, ne_eq, Ne.symm named, not_false_eq_true,
          and_true]
  | delete deleted =>
      rw [Catalog.write, keys_delete consistent, List.mem_filter, bne_iff_ne]
      simp only [reduceCtorEq, false_and, exists_false, false_or, Write.key]

/-- Writes for other keys leave contents as they are. -/
theorem reviseAll_eq_some_self {writes : List Write} {content : Content}
    (absent : content.key ∉ writes.map Write.key) :
    Write.reviseAll writes content = some content := by
  unfold Write.reviseAll
  rw [List.find?_eq_none.mpr]
  intro other member same
  exact absent (List.mem_map.mpr ⟨other, member, beq_iff_eq.mp same⟩)

/-- If no key is written twice, each is left as its own write leaves it. -/
theorem reviseAll_of_mem {writes : List Write} (distinct : (writes.map Write.key).Nodup)
    {write : Write} (member : write ∈ writes) (content : Content)
    (named : content.key = write.key) :
    Write.reviseAll writes content = write.result content.path := by
  unfold Write.reviseAll
  cases found : writes.find? (·.key == content.key) with
  | none =>
      have unnamed := List.find?_eq_none.mp found write member
      exact absurd (beq_iff_eq.mpr named.symm) unnamed
  | some other =>
      have otherNamed : other.key = content.key := by simpa using List.find?_some found
      have same := List.inj_on_of_nodup_map distinct (List.mem_of_find?_eq_some found) member
        (otherNamed.trans named)
      rw [same]

/-- If the key of the first write is not written again, it may be written on its own. -/
theorem reviseAll_cons {write : Write} {rest : List Write} (absent : write.key ∉ rest.map Write.key)
    (content : Content) :
    Write.reviseAll (write :: rest) content =
      (write.revise content).bind (Write.reviseAll rest) := by
  by_cases named : content.key = write.key
  · have found : (write :: rest).find? (·.key == content.key) = some write :=
      List.find?_cons_of_pos (by simp [named])
    rw [Write.revise, if_pos named, Write.reviseAll, found]
    cases written : write.result content.path with
    | none => exact written
    | some result =>
        have unwritten : result.key ∉ rest.map Write.key :=
          (key_of_result_eq_some written).symm ▸ absent
        exact written.trans (reviseAll_eq_some_self unwritten).symm
  · have skipped : (write :: rest).find? (·.key == content.key) =
        rest.find? (·.key == content.key) :=
      List.find?_cons_of_neg (by simpa using Ne.symm named)
    rw [Write.revise, if_neg named, Option.bind_some, Write.reviseAll, Write.reviseAll, skipped]

/-- What a write adds does not depend on an earlier write of another key. -/
theorem added_write {write other : Write} (consistent : catalog.Consistent) (lawful : write.Lawful)
    (different : other.key ≠ write.key) :
    other.added (catalog.write write).keys = other.added catalog.keys := by
  have same : other.key ∈ (catalog.write write).keys ↔ other.key ∈ catalog.keys := by
    rw [mem_keys_write consistent lawful]
    constructor
    · rintro (⟨record, rfl, named⟩ | ⟨cached, -⟩)
      · exact absurd named.symm different
      · exact cached
    · exact fun cached => .inr ⟨cached, different⟩
  unfold Write.added
  simp only [same]

/-- Writes of distinct keys act on each content at once, and add the new items in their order. -/
theorem contents_foldl_write {writes : List Write} (consistent : catalog.Consistent)
    (lawful : ∀ write ∈ writes, write.Lawful) (distinct : (writes.map Write.key).Nodup) :
    (writes.foldl Catalog.write catalog).contents =
      catalog.contents.filterMap (Write.reviseAll writes) ++
        writes.filterMap (Write.added catalog.keys) := by
  induction writes generalizing catalog with
  | nil =>
      rw [List.foldl_nil, List.filterMap_nil, List.append_nil]
      exact List.filterMap_some.symm
  | cons write rest step =>
      obtain ⟨absent, distinctRest⟩ := List.nodup_cons.mp distinct
      have head := lawful write List.mem_cons_self
      have tail : ∀ other ∈ rest, other.Lawful := fun other member =>
        lawful other (List.mem_cons_of_mem _ member)
      have revised : (catalog.contents.filterMap write.revise).filterMap (Write.reviseAll rest) =
          catalog.contents.filterMap (Write.reviseAll (write :: rest)) := by
        rw [List.filterMap_filterMap]
        exact List.filterMap_congr fun content _ => (reviseAll_cons absent content).symm
      have kept : (write.added catalog.keys).toList.filterMap (Write.reviseAll rest) =
          (write.added catalog.keys).toList := by
        cases new : write.added catalog.keys with
        | none => rfl
        | some content =>
            have unwritten : content.key ∉ rest.map Write.key :=
              (key_of_added_eq_some new).symm ▸ absent
            rw [Option.toList_some, List.filterMap_cons_some (reviseAll_eq_some_self unwritten),
              List.filterMap_nil]
      have later : rest.filterMap (Write.added (catalog.write write).keys) =
          rest.filterMap (Write.added catalog.keys) := by
        apply List.filterMap_congr
        intro other member
        exact added_write consistent head fun same =>
          absent (List.mem_map.mpr ⟨other, member, same⟩)
      rw [List.foldl_cons, step (consistent.write head) tail distinctRest,
        contents_write consistent head, List.filterMap_append, revised, kept, later,
        List.append_assoc]
      congr 1
      cases new : write.added catalog.keys with
      | none => rw [List.filterMap_cons_none new, Option.toList_none, List.nil_append]
      | some content =>
          rw [List.filterMap_cons_some new, Option.toList_some, List.singleton_append]

/-- What is in the catalog after writes has been written or was there before. -/
theorem mem_contents_foldl_write {writes : List Write} (consistent : catalog.Consistent)
    (lawful : ∀ write ∈ writes, write.Lawful) {content : Content}
    (member : content ∈ (writes.foldl Catalog.write catalog).contents) :
    (∃ record path, .upsert record ∈ writes ∧ content = record.content path) ∨
      content ∈ catalog.contents ∧ content.key ∉ writes.map Write.key := by
  induction writes generalizing catalog with
  | nil => exact .inr ⟨member, List.not_mem_nil⟩
  | cons write rest step =>
      have head := lawful write List.mem_cons_self
      have tail : ∀ other ∈ rest, other.Lawful := fun other inside =>
        lawful other (List.mem_cons_of_mem _ inside)
      rcases step (consistent.write head) tail member with ⟨record, path, written, same⟩ | kept
      · exact .inl ⟨record, path, List.mem_cons_of_mem _ written, same⟩
      · obtain ⟨before, untouched⟩ := kept
        rw [contents_write consistent head] at before
        rcases List.mem_append.mp before with old | new
        · obtain ⟨earlier, listed, revised⟩ := List.mem_filterMap.mp old
          unfold Write.revise at revised
          split at revised
          · obtain ⟨record, rfl, same⟩ := eq_upsert_of_result_eq_some revised
            exact .inl ⟨record, _, List.mem_cons_self, same⟩
          · next different =>
              cases revised
              refine .inr ⟨listed, ?_⟩
              rw [List.map_cons, List.mem_cons]
              exact not_or.mpr ⟨different, untouched⟩
        · have added := Option.mem_toList.mp new
          unfold Write.added at added
          split at added
          · cases added
          · obtain ⟨record, rfl, same⟩ := eq_upsert_of_result_eq_some added
            exact .inl ⟨record, _, List.mem_cons_self, same⟩

/-- After writes of distinct keys, the catalog has the keys that were written and those of its own
that were not deleted. -/
theorem mem_keys_foldl_write {writes : List Write} (consistent : catalog.Consistent)
    (lawful : ∀ write ∈ writes, write.Lawful) (distinct : (writes.map Write.key).Nodup)
    (key : String) :
    key ∈ (writes.foldl Catalog.write catalog).keys ↔
      (∃ record, .upsert record ∈ writes ∧ record.key = key) ∨
        key ∈ catalog.keys ∧ key ∉ writes.map Write.key := by
  induction writes generalizing catalog with
  | nil => simp
  | cons write rest step =>
      obtain ⟨absent, distinctRest⟩ := List.nodup_cons.mp distinct
      have head := lawful write List.mem_cons_self
      rw [List.foldl_cons, step (consistent.write head)
        (fun other inside => lawful other (List.mem_cons_of_mem _ inside)) distinctRest,
        mem_keys_write consistent head, List.map_cons, List.mem_cons]
      constructor
      · rintro (⟨record, written, named⟩ | ⟨⟨record, rfl, named⟩ | ⟨cached, different⟩, untouched⟩)
        · exact .inl ⟨record, List.mem_cons_of_mem _ written, named⟩
        · exact .inl ⟨record, List.mem_cons_self, named⟩
        · exact .inr ⟨cached, not_or.mpr ⟨different, untouched⟩⟩
      · rintro (⟨record, written, named⟩ | ⟨cached, untouched⟩)
        · rcases List.mem_cons.mp written with rfl | inside
          · exact .inr ⟨.inl ⟨record, rfl, named⟩, named ▸ absent⟩
          · exact .inl ⟨record, inside, named⟩
        · obtain ⟨different, outside⟩ := not_or.mp untouched
          exact .inr ⟨.inr ⟨cached, different⟩, outside⟩

end Catalog

end AnnexCatalog
