import AnnexCatalog.Disk.Cache
import AnnexCatalog.Proofs.Text.Pieces

/-! # What lies on a disk

Paths are kept by their names, and names that are joined are found again (`names_join`). So a file
that is written at a path is found there (`reach?_write`), whatever stood in its way, and a cache
that is put at a path is looked up there (`look_putCache`). Deleting and writing other files makes no
database (`Inherits`).
-/

namespace AnnexCatalog.Disk

open Text

/-! ### Names -/

/-- Whether a text is the name of something in a folder: no step on a path and no path. -/
structure IsName (name : String) : Prop where
  nonempty : name ≠ ""
  proper : name ≠ "."
  solid : '/' ∉ name.toList

/-- The parts of a path that are steps to something are names. -/
theorem isName_of_mem {path name : String} (member : name ∈ names path) : IsName name := by
  obtain ⟨piece, proper⟩ := List.mem_filter.mp member
  obtain ⟨letters, inside, rfl⟩ := List.mem_map.mp piece
  obtain ⟨nonempty, proper⟩ := of_decide_eq_true proper
  refine ⟨nonempty, proper, fun slash => ?_⟩
  rw [String.toList_ofList] at slash
  exact absurd (exists_mem_pieces_iff.mp ⟨letters, inside, slash⟩).2 (by decide)

/-- Names that are joined are the names on the path. -/
theorem names_join {place : List String} (named : ∀ name ∈ place, IsName name) :
    names (join place) = place := by
  cases place with
  | nil => rfl
  | cons first rest =>
      have solid : ∀ text ∈ (first :: rest).map String.toList, '/' ∉ text := by
        intro text member
        obtain ⟨name, inside, rfl⟩ := List.mem_map.mp member
        exact (named name inside).solid
      have letters : (join (first :: rest)).toList =
          ['/'].intercalate ((first :: rest).map String.toList) := String.toList_intercalate
      rw [names, letters, pieces_intercalate (List.map_eq_nil_iff.not.mpr (List.cons_ne_nil _ _))
        solid, List.map_map]
      have same : (first :: rest).map (String.ofList ∘ String.toList) = first :: rest :=
        List.map_id'' (fun _ => String.ofList_toList) _
      rw [same]
      exact List.filter_eq_self.mpr fun name member =>
        decide_eq_true ⟨(named name member).nonempty, (named name member).proper⟩

/-- Different places have different paths. -/
theorem join_injective {place other : List String} (named : ∀ name ∈ place, IsName name)
    (others : ∀ name ∈ other, IsName name) (same : join place = join other) : place = other := by
  rw [← names_join named, same, names_join others]

/-- Names without a step up are a place already. -/
theorem settle_of_notMem {names : List String} (down : ".." ∉ names) : settle names = names := by
  suffices ∀ place, names.foldl
      (fun place name => if name = ".." then place.dropLast else place ++ [name]) place =
        place ++ names from this []
  induction names with
  | nil => exact fun place => (List.append_nil place).symm
  | cons name rest step =>
      intro place
      obtain ⟨other, later⟩ := List.ne_and_not_mem_of_not_mem_cons down
      rw [List.foldl_cons, if_neg (Ne.symm other), step later, List.append_assoc]
      rfl

/-- The folders above a place are the places of its leading names. -/
theorem join_mem_above {part place : List String} (leads : part <+: place) (proper : part ≠ place) :
    join part ∈ above place := by
  refine List.mem_map.mpr ⟨part.length, List.mem_range.mpr ?_, ?_⟩
  · exact Nat.lt_of_le_of_ne leads.length_le fun same => proper (leads.eq_of_length same)
  · rw [← List.prefix_iff_eq_take.mp leads]

/-! ### Files that are written -/

/-- What lies at a place is found there. -/
theorem stored?_of_get? {disk : Disk} {place : List String} {stored : Stored}
    (held : disk.files.get? (join place) = some stored) : disk.stored? place = some stored := by
  unfold stored?
  rw [held]

/-- What is found at a place lies there, but for a folder. -/
theorem get?_of_stored? {disk : Disk} {place : List String} {stored : Stored}
    (found : disk.stored? place = some stored) :
    disk.files.get? (join place) = some stored ∨ stored = .folder := by
  unfold stored? at found
  split at found
  · next held => exact .inl (held.trans found)
  · split at found
    · exact .inr (Option.some.inj found).symm
    · cases found

/-- Files that are deleted are gone, and no other files are. -/
theorem get?_foldl_erase (paths : List String) (disk : Disk) (asked : String) :
    (paths.foldl erase disk).files.get? asked =
      if asked ∈ paths.map plainPath then none else disk.files.get? asked := by
  induction paths generalizing disk with
  | nil => rfl
  | cons path rest step =>
      rw [List.foldl_cons, step, erase, TextMap.get?_erase, List.map_cons]
      by_cases same : asked = plainPath path
      · simp [same]
      · simp [same]

/-- A disk leads to a file: the file lies at its place, and there are folders on the way. -/
structure LeadsTo (disk : Disk) (place : List String) (stored : Stored) : Prop where
  found : disk.stored? place = some stored
  folders : ∀ part, part <+: place → part ≠ place → disk.stored? part = some .folder

/-- Folders are walked through down to a file. -/
theorem LeadsTo.walk_eq {disk : Disk} {whole : List String} {content : List UInt8}
    (leads : disk.LeadsTo whole (.plain content)) (down : ".." ∉ whole) (links : Nat)
    {place rest : List String} (parts : place ++ rest = whole) :
    disk.walk links place rest = some whole := by
  induction rest generalizing place with
  | nil => rw [walk, ← parts, List.append_nil]
  | cons name rest step =>
      have other : name ≠ ".." := fun same =>
        down (parts ▸ List.mem_append_right _ (same ▸ List.mem_cons_self))
      have onward : (place ++ [name]) ++ rest = whole := by
        rw [List.append_assoc, List.singleton_append, parts]
      rw [walk, if_neg other]
      cases rest with
      | nil =>
          rw [List.append_nil] at onward
          rw [onward, leads.found]
          rfl
      | cons next others =>
          have proper : place ++ [name] ≠ whole := fun same => by
            rw [same, List.append_right_eq_self] at onward
            cases onward
          rw [leads.folders _ ⟨_, onward⟩ proper]
          exact step onward

/-- A disk on which a file is written leads to the file. -/
theorem leadsTo_write (disk : Disk) {path : String} (down : ".." ∉ names path) (stored : Stored) :
    (disk.write path stored).LeadsTo (names path) stored := by
  have named : ∀ name ∈ names path, IsName name := fun _ => isName_of_mem
  have kept : plainPath path = join (names path) := by rw [plainPath, settle_of_notMem down]
  have files (asked : String) : (disk.write path stored).files.get? asked =
      if asked = join (names path) then some stored
      else ((above (names path)).foldl erase disk).files.get? asked := by
    rw [write, put, TextMap.get?_insert, kept, settle_of_notMem down]
  have found : (disk.write path stored).files.get? (join (names path)) = some stored := by
    rw [files, if_pos rfl]
  refine ⟨stored?_of_get? found, fun part leads proper => ?_⟩
  have smaller : ∀ name ∈ part, IsName name := fun name member => named name (leads.subset member)
  have downward : ".." ∉ part := fun member => down (leads.subset member)
  have folder : join part ∈ above (names path) := join_mem_above leads proper
  have cleared : (disk.write path stored).files.get? (join part) = none := by
    have plain : plainPath (join part) = join part := by
      rw [plainPath, names_join smaller, settle_of_notMem downward]
    have other : join part ≠ join (names path) := fun same =>
      proper (join_injective smaller named same)
    rw [files, if_neg other, get?_foldl_erase,
      if_pos (List.mem_map.mpr ⟨_, folder, plain⟩)]
  have below : ((disk.write path stored).files.keys.any fun other =>
      (above (names other)).contains (join part)) = true := by
    refine List.any_eq_true.mpr ⟨join (names path), ?_, ?_⟩
    · exact (TextMap.mem_keys_iff _ _).mpr (by rw [TextMap.contains, found]; rfl)
    · rw [names_join named]
      exact List.contains_iff_mem.mpr folder
  unfold stored?
  rw [cleared]
  dsimp only
  rw [below, Bool.or_true, if_pos rfl]

/-- **A file that is written at a path is found there**, whatever stood in its way. -/
theorem reach?_write (disk : Disk) {path : String} (down : ".." ∉ names path)
    (content : List UInt8) :
    (disk.write path (.plain content)).reach? path = some (.plain content) := by
  have leads := disk.leadsTo_write down (.plain content)
  rw [reach?, leads.walk_eq down maxLinks (List.nil_append _)]
  exact leads.found

/-! ### Databases -/

/-- A database is found at the place of a cache if it lies there, and an empty one if an empty file
does. -/
theorem get?_of_look {disk : Disk} {path : String} {version : Int} {contents : Contents}
    (found : disk.look path = .database version contents) :
    disk.files.get? (plainPath path) = some (.database version contents) ∨
      contents = .fresh := by
  unfold look at found
  dsimp only at found
  split at found
  · cases found
  · cases found
    exact .inr rfl
  · cases found
  · cases found
  · next held =>
      cases found
      exact (get?_of_stored? held).imp_right nofun
  · split at found <;> cases found

/-- A database that lies at the place of a cache is found there. -/
theorem look_of_get? {disk : Disk} {path : String} {version : Int} {contents : Contents}
    (held : disk.files.get? (plainPath path) = some (.database version contents)) :
    disk.look path = .database version contents := by
  unfold look
  dsimp only
  rw [stored?_of_get? held]

/-- A database that is put at the place of a cache is found there. -/
theorem look_putCache (disk : Disk) (path : String) (version : Int) (contents : Contents) :
    (disk.putCache path (.database version contents)).look path = .database version contents :=
  look_of_get? (by rw [putCache, put, TextMap.get?_insert, if_pos rfl])

/-- All databases of a disk lie where they lay on another one. -/
def Inherits (before after : Disk) : Prop :=
  ∀ place version contents, after.files.get? place = some (.database version contents) →
    before.files.get? place = some (.database version contents)

theorem Inherits.refl (disk : Disk) : Inherits disk disk :=
  fun _ _ _ held => held

/-- Databases are handed on. -/
theorem Inherits.trans {first second third : Disk} (earlier : Inherits first second)
    (later : Inherits second third) : Inherits first third :=
  fun place version contents held => earlier _ _ _ (later place version contents held)

/-- Deleting a file makes no database. -/
theorem inherits_erase (disk : Disk) (path : String) : Inherits disk (disk.erase path) := by
  intro place version contents held
  rw [erase, TextMap.get?_erase] at held
  split at held
  · cases held
  · exact held

/-- Deleting several files makes no database. -/
theorem inherits_foldl_erase (paths : List String) (disk : Disk) :
    Inherits disk (paths.foldl erase disk) := by
  induction paths generalizing disk with
  | nil => exact .refl disk
  | cons path rest step => exact (inherits_erase disk path).trans (step _)

/-- Deleting a cache makes no database either. -/
theorem inherits_removeAll (paths : List String) (disk : Disk) (removed : Bool) :
    Inherits disk (disk.removeAll removed paths).1 := by
  induction paths generalizing disk removed with
  | nil => exact .refl disk
  | cons path rest step =>
      unfold removeAll
      split
      · exact step disk removed
      · exact step disk removed
      · exact .refl disk
      · exact (inherits_erase disk path).trans (step _ true)
      · exact (inherits_erase disk path).trans (step _ true)

/-- Putting something at a path that is no database makes none. -/
theorem inherits_put (disk : Disk) (path : String) {stored : Stored}
    (other : ∀ version contents, stored ≠ .database version contents) :
    Inherits disk (disk.put path stored) := by
  intro place version contents held
  rw [put, TextMap.get?_insert] at held
  split at held
  · exact absurd (Option.some.inj held) (other version contents)
  · exact held

/-- Writing a file that is no database makes none. -/
theorem inherits_write (disk : Disk) (path : String) {stored : Stored}
    (other : ∀ version contents, stored ≠ .database version contents) :
    Inherits disk (disk.write path stored) :=
  (inherits_foldl_erase (above (settle (names path))) disk).trans (inherits_put _ path other)

end AnnexCatalog.Disk
