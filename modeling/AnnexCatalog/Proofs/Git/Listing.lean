import AnnexCatalog.Git.Listing
import AnnexCatalog.Outcome
import AnnexCatalog.Proofs.Text.Pieces
import AnnexCatalog.Proofs.Text.Utf8

/-! # Reading listings

A listing is cut at NUL, and a record at its first tab, so a path may hold spaces, tabs and line
feeds. Bytes that spell no text are replaced in the whole record at once; a tab divides what is
replaced before it from what is replaced after it, so a path is read from a record as it is read
alone (`readTree_write`, `readPaths_flatMap`). A log therefore belongs to the same key in a listing
of a tree and in a list of the paths that differ (`listings_agree`).
-/

namespace AnnexCatalog.Git

open Text

/-- A text that can stand in a column: it has no space, tab or NUL. -/
def IsColumn (text : String) : Prop :=
  ∀ c ∈ text.toList, c ≠ ' ' ∧ c ≠ '\t' ∧ c ≠ '\x00'

instance (text : String) : Decidable (IsColumn text) :=
  List.decidableBAll (fun c => c ≠ ' ' ∧ c ≠ '\t' ∧ c ≠ '\x00') text.toList

/-- What a record says of a file: three columns, and the bytes of a path. -/
structure RawRecord where
  first : String
  second : String
  third : String
  path : List UInt8
deriving DecidableEq

namespace RawRecord

def write (record : RawRecord) : List UInt8 :=
  writeRecord [record.first, record.second, record.third] record.path

/-- Whether a record keeps to its form. -/
structure Lawful (record : RawRecord) : Prop where
  first : IsColumn record.first
  second : IsColumn record.second
  third : IsColumn record.third
  path : 0 ∉ record.path

/-- The path as text, with replacement characters for bytes that spell none. -/
def pathText (record : RawRecord) : String :=
  String.ofList (Utf8.lossy record.path)

/-- The record whose path is a text. -/
def ofText (first second third path : String) : RawRecord :=
  ⟨first, second, third, Utf8.encode path.toList⟩

/-- What a record says of a file of a tree. -/
def treeEntry (record : RawRecord) : TreeEntry :=
  ⟨record.first, record.second, record.third, record.pathText⟩

/-- What a record says of a file of the index. -/
def indexEntry (record : RawRecord) : IndexEntry :=
  ⟨record.first, record.second, record.pathText⟩

end RawRecord

/-! ### Records -/

/-- Inputs that can all be read are read one by one. -/
theorem mapM_eq_ok {ε α β : Type} {read : α → Except ε β} {result : α → β} {inputs : List α}
    (reads : ∀ input ∈ inputs, read input = .ok (result input)) :
    inputs.mapM read = .ok (inputs.map result) := by
  induction inputs with
  | nil => rfl
  | cons input rest step =>
      obtain ⟨first, later⟩ := List.forall_mem_cons.mp reads
      rw [List.mapM_cons, first]
      exact bind_eq_ok_iff.mpr ⟨_, rfl, bind_eq_ok_iff.mpr ⟨_, step later, rfl⟩⟩

/-- Parts that are not empty and have no NUL, each ended by one, are the records. -/
theorem records_flatMap {parts : List (List UInt8)}
    (closed : ∀ part ∈ parts, 0 ∉ part ∧ part ≠ []) :
    records (parts.flatMap (· ++ [0])) = parts := by
  have cut : pieces (· == 0) (parts.flatMap (· ++ [0])) = parts ++ [[]] := by
    induction parts with
    | nil => rfl
    | cons part rest step =>
        obtain ⟨⟨whole, -⟩, later⟩ := List.forall_mem_cons.mp closed
        rw [List.flatMap_cons, List.append_assoc, List.singleton_append, pieces_append_cons rfl,
          pieces_of_notMem whole, step later]
        rfl
  have kept : parts.filter (fun part => !part.isEmpty) = parts :=
    List.filter_eq_self.mpr fun part member => by simpa using (closed part member).2
  rw [records, cut, List.filter_append, kept]
  exact List.append_nil parts

namespace RawRecord

variable {record : RawRecord}

/-- The three columns, with a space between them. -/
def columnText (record : RawRecord) : List Char :=
  record.first.toList ++ ' ' :: (record.second.toList ++ ' ' :: record.third.toList)

/-- The bytes of a record before its NUL. -/
def body (record : RawRecord) : List UInt8 :=
  Utf8.encode record.columnText ++ 9 :: record.path

/-- A record is its body, closed by a null byte. -/
theorem write_eq (record : RawRecord) : record.write = record.body ++ [0] := by
  have columns : [' '].intercalate ([record.first, record.second, record.third].map String.toList) =
      record.columnText := by
    simp [List.intercalate, columnText]
  rw [write, writeRecord, columns, body, List.append_assoc]

namespace Lawful

/-- There are neither tabs nor null bytes in the columns of a lawful record. -/
theorem notMem_columnText (lawful : record.Lawful) :
    '\t' ∉ record.columnText ∧ '\x00' ∉ record.columnText := by
  have first := lawful.first
  have second := lawful.second
  have third := lawful.third
  unfold IsColumn at first second third
  simp only [columnText, List.mem_append, List.mem_cons, not_or]
  refine ⟨⟨fun member => (first _ member).2.1 rfl, by decide, fun member => (second _ member).2.1 rfl,
    by decide, fun member => (third _ member).2.1 rfl⟩, fun member => (first _ member).2.2 rfl,
    by decide, fun member => (second _ member).2.2 rfl, by decide,
    fun member => (third _ member).2.2 rfl⟩

/-- There is no null byte in the body of a lawful record. -/
theorem body_closed (lawful : record.Lawful) : 0 ∉ record.body ∧ record.body ≠ [] := by
  constructor
  · intro member
    rcases List.mem_append.mp member with column | path
    · exact lawful.notMem_columnText.2 (Utf8.mem_of_mem_encode column (by decide))
    · rcases List.mem_cons.mp path with tab | inside
      · cases tab
      · exact lawful.path inside
  · exact fun none => List.cons_ne_nil _ _ (List.append_eq_nil_iff.mp none).2

/-- A record is read as its columns and its path, whatever the bytes of the path are. -/
theorem columns_body (lawful : record.Lawful) (command : String) :
    columns command record.body =
      .ok (record.first, record.second, record.third, record.pathText) := by
  have text : Utf8.lossy record.body = record.columnText ++ '\t' :: Utf8.lossy record.path := by
    have whole := Utf8.lossy_encode_append record.columnText []
    rw [List.append_nil] at whole
    rw [body, Utf8.lossy_append_cons (by decide), whole]
    exact congrArg (· ++ '\t' :: Utf8.lossy record.path) (List.append_nil _)
  have split : splitFirst? '\t' (record.columnText ++ '\t' :: Utf8.lossy record.path) =
      some (record.columnText, Utf8.lossy record.path) :=
    splitFirst?_eq_some_iff.mpr ⟨rfl, lawful.notMem_columnText.1⟩
  have spaceless {text : String} (column : IsColumn text) : ' ' ∉ text.toList := fun member =>
    (column _ member).1 rfl
  have apart : pieces (· == ' ') record.columnText =
      [record.first.toList, record.second.toList, record.third.toList] := by
    rw [columnText, pieces_append_cons rfl, pieces_append_cons rfl,
      pieces_of_notMem (spaceless lawful.first), pieces_of_notMem (spaceless lawful.second),
      pieces_of_notMem (spaceless lawful.third)]
    rfl
  rw [columns, text, split]
  dsimp only
  rw [apart]
  simp [pathText]

end Lawful

/-- A record that is made of texts has their path. -/
theorem ofText_pathText (first second third path : String) :
    (ofText first second third path).pathText = path := by
  have whole := Utf8.lossy_encode_append path.toList []
  rw [List.append_nil] at whole
  rw [pathText, ofText, whole]
  exact (congrArg String.ofList (List.append_nil _)).trans String.ofList_toList

/-- A record that is made of columns and a path without null bytes is lawful. -/
theorem ofText_lawful {first second third path : String} (firstColumn : IsColumn first)
    (secondColumn : IsColumn second) (thirdColumn : IsColumn third)
    (closed : '\x00' ∉ path.toList) : (ofText first second third path).Lawful where
  first := firstColumn
  second := secondColumn
  third := thirdColumn
  path := fun member => closed (Utf8.mem_of_mem_encode member (by decide))

end RawRecord

/-! ### Listings -/

variable {written : List RawRecord}

/-- Written records are cut apart again. -/
theorem records_write (lawful : ∀ record ∈ written, record.Lawful) :
    records (written.flatMap RawRecord.write) = written.map RawRecord.body := by
  have closed : ∀ part ∈ written.map RawRecord.body, 0 ∉ part ∧ part ≠ [] := by
    intro part member
    obtain ⟨record, inside, rfl⟩ := List.mem_map.mp member
    exact (lawful record inside).body_closed
  have whole := records_flatMap closed
  rw [List.flatMap_map] at whole
  rwa [funext fun record : RawRecord => record.write_eq]

/-- A listing of a tree is read as one entry for each record that is written. -/
theorem readTree_write (lawful : ∀ record ∈ written, record.Lawful) :
    readTree (written.flatMap RawRecord.write) = .ok (written.map RawRecord.treeEntry) := by
  rw [readTree, records_write lawful, List.mapM_map]
  refine mapM_eq_ok fun record member => ?_
  rw [Function.comp_apply, TreeEntry.read, (lawful record member).columns_body]
  rfl

/-- A listing of an index is read as one entry for each record that is written. -/
theorem readIndex_write (lawful : ∀ record ∈ written, record.Lawful) :
    readIndex (written.flatMap RawRecord.write) = .ok (written.map RawRecord.indexEntry) := by
  rw [readIndex, records_write lawful, List.mapM_map]
  refine mapM_eq_ok fun record member => ?_
  rw [Function.comp_apply, IndexEntry.read, (lawful record member).columns_body]
  rfl

/-- Paths are read from a list of paths as they are read from records. -/
theorem readPaths_flatMap (lawful : ∀ record ∈ written, record.Lawful)
    (named : ∀ record ∈ written, record.path ≠ []) :
    readPaths (written.flatMap fun record => record.path ++ [0]) =
      written.map RawRecord.pathText := by
  have closed : ∀ part ∈ written.map RawRecord.path, 0 ∉ part ∧ part ≠ [] := by
    intro part member
    obtain ⟨record, inside, rfl⟩ := List.mem_map.mp member
    exact ⟨(lawful record inside).path, named record inside⟩
  have whole := records_flatMap closed
  rw [List.flatMap_map] at whole
  rw [readPaths, whole, List.map_map]
  rfl

/-- **Listing and diffing name the same keys.** Listings of a tree and of the index are read as they
were written; whatever bytes the paths have, a listing of a tree has one entry for each record, whose
path is the one that stands in its place in a list of paths, so that a log has the same key in both,
or none in both. -/
theorem listings_agree :
    (∀ entries : List TreeEntry,
      (∀ entry ∈ entries, IsColumn entry.mode ∧ IsColumn entry.kind ∧ IsColumn entry.object ∧
        '\x00' ∉ entry.path.toList) →
      readTree (entries.flatMap TreeEntry.write) = .ok entries) ∧
    (∀ entries : List (String × IndexEntry),
      (∀ entry ∈ entries, IsColumn entry.2.mode ∧ IsColumn entry.2.object ∧ IsColumn entry.1 ∧
        '\x00' ∉ entry.2.path.toList) →
      readIndex (entries.flatMap fun entry => entry.2.write entry.1) =
        .ok (entries.map Prod.snd)) ∧
    (∀ written : List RawRecord,
      (∀ record ∈ written, record.Lawful) → (∀ record ∈ written, record.path ≠ []) →
      let listed := written.map RawRecord.treeEntry
      readTree (written.flatMap RawRecord.write) = .ok listed ∧
        readPaths (written.flatMap fun record => record.path ++ [0]) = listed.map TreeEntry.path ∧
        ∀ suffix, listed.map (fun entry => logKey? suffix entry.path) =
          (readPaths (written.flatMap fun record => record.path ++ [0])).map (logKey? suffix)) := by
  refine ⟨fun entries plain => ?_, fun entries plain => ?_, fun written lawful named => ?_⟩
  · let record (entry : TreeEntry) : RawRecord :=
      .ofText entry.mode entry.kind entry.object entry.path
    have lawful : ∀ written ∈ entries.map record, written.Lawful := by
      refine List.forall_mem_map.mpr fun entry member => ?_
      obtain ⟨mode, kind, object, path⟩ := plain entry member
      exact RawRecord.ofText_lawful mode kind object path
    have read := readTree_write lawful
    rw [List.flatMap_map, List.map_map] at read
    refine read.trans (congrArg Except.ok ((List.map_congr_left fun entry _ => ?_).trans entries.map_id))
    exact congrArg (TreeEntry.mk _ _ _) (RawRecord.ofText_pathText _ _ _ _)
  · let record (entry : String × IndexEntry) : RawRecord :=
      .ofText entry.2.mode entry.2.object entry.1 entry.2.path
    have lawful : ∀ written ∈ entries.map record, written.Lawful := by
      refine List.forall_mem_map.mpr fun entry member => ?_
      obtain ⟨mode, object, stage, path⟩ := plain entry member
      exact RawRecord.ofText_lawful mode object stage path
    have read := readIndex_write lawful
    rw [List.flatMap_map, List.map_map] at read
    refine read.trans (congrArg Except.ok (List.map_congr_left fun entry _ => ?_))
    exact congrArg (IndexEntry.mk _ _) (RawRecord.ofText_pathText _ _ _ _)
  · have paths : readPaths (written.flatMap fun record => record.path ++ [0]) =
        (written.map RawRecord.treeEntry).map TreeEntry.path := by
      rw [readPaths_flatMap lawful named, List.map_map]
      rfl
    refine ⟨readTree_write lawful, paths, fun suffix => ?_⟩
    rw [paths, List.map_map (l := written.map RawRecord.treeEntry)]
    rfl

/-- A path with a tab, a space and a line feed, and one with bytes that spell no text. -/
theorem listings_agree_of_odd_paths :
    let entry : TreeEntry := ⟨"100644", "blob", "3f", "a/b\tc d\n"⟩
    let staged : IndexEntry := ⟨"120000", "3f", "a/b\tc d\n"⟩
    let record : RawRecord := ⟨"100644", "blob", "3f", [0x4B, 0xFF, 0x09, 0xC3, 0x2E, 0x6D]⟩
    readTree entry.write = .ok [entry] ∧ readIndex (staged.write "0") = .ok [staged] ∧
      readPaths (record.path ++ [0]) = ["K\uFFFD\t\uFFFD.m"] ∧
      readTree record.write = .ok [⟨"100644", "blob", "3f", "K\uFFFD\t\uFFFD.m"⟩] ∧
      logKey? ".m" "K\uFFFD\t\uFFFD.m" = some "K\uFFFD\t\uFFFD" := by
  intro entry staged record
  obtain ⟨tree, index, both⟩ := listings_agree
  have lawful : record.Lawful := ⟨by decide, by decide, by decide, by decide⟩
  have paths : readPaths (record.path ++ [0]) = ["K\uFFFD\t\uFFFD.m"] := by decide +kernel
  have named : record.treeEntry = ⟨"100644", "blob", "3f", "K\uFFFD\t\uFFFD.m"⟩ := by decide +kernel
  obtain ⟨read, -⟩ := both [record] (by simpa using lawful) (by simp [record])
  rw [List.flatMap_singleton, List.map_singleton, named] at read
  refine ⟨?_, ?_, paths, read, by decide +kernel⟩
  · simpa using tree [entry] (by decide)
  · simpa using index [("0", staged)] (by decide)

end AnnexCatalog.Git
