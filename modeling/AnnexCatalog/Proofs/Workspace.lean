import AnnexCatalog.Proofs.Disk
import AnnexCatalog.Proofs.Git.Locations
import AnnexCatalog.Proofs.Git.Store
import AnnexCatalog.Workspace

/-! # What becomes of a workspace

The store of a workspace is that of its repository (`openStore_eq_ok`). A file that is written over a
pointer has its content in the working tree from then on, unless it is a pointer itself
(`holdsContent_write`). No change but a command makes a database (`inherits_checkout`).
-/

namespace AnnexCatalog.Workspace

open Git

/-- The store that is opened is that of the repository of the workspace. -/
theorem openStore_eq_ok {workspace : Workspace} {folder branch suffix : String} {source : Source}
    (opened : workspace.openStore folder branch suffix = .ok source) :
    workspace.repository = some source.repository ∧ source.tree = workspace.workTree ∧
      source.branch = branch ∧ source.suffix = suffix := by
  unfold openStore at opened
  obtain ⟨repository, found, same⟩ := bind_eq_ok_iff.mp opened
  obtain ⟨-, around⟩ := run_eq_ok_iff.mp found
  cases same
  unfold around? at around
  obtain ⟨place, -, outside⟩ := Option.bind_eq_some_iff.mp around
  obtain ⟨-, -, repository⟩ := Option.bind_eq_some_iff.mp outside
  exact ⟨repository, rfl, rfl, rfl⟩

/-! ### The working tree -/

section Write

variable (workspace : Workspace) {path : String} (down : ".." ∉ Disk.names path)
  (content : List UInt8)

include down

/-- A path at which a file is written leads to the file. -/
theorem leadsTo_write : (workspace.write path content).workTree.leadsTo path = true := by
  change ((workspace.disk.write path (.plain content)).reach? path).isSome = true
  rw [workspace.disk.reach?_write down]
  rfl

/-- What is written can be read again. -/
theorem content?_write : (workspace.write path content).workTree.content? path = some content := by
  change (workspace.disk.write path (.plain content)).content? path = some content
  rw [Disk.content?, workspace.disk.reach?_write down]

/-- What is written has its size. -/
theorem size?_write :
    (workspace.write path content).workTree.size? path = some content.length := by
  change (workspace.disk.write path (.plain content)).size? path = some content.length
  rw [Disk.size?, workspace.disk.reach?_write down]
  rfl

/-- **Content that is written over a pointer is there.** A file holds content after it has been
written exactly if what was written is no pointer. -/
theorem holdsContent_write :
    (workspace.write path content).workTree.holdsContent path = (pointerKey? content).isNone :=
  WorkTree.holdsContent_of_read (workspace.size?_write down content)
    (workspace.content?_write down content)

end Write

/-! ### Databases -/

/-- Checking out files makes no database. -/
theorem inherits_checkout (workspace : Workspace) (files : List CommitFile) :
    Disk.Inherits workspace.disk (workspace.checkout files).disk := by
  have written (disk : Disk) : Disk.Inherits disk (files.foldl
      (fun disk file => disk.write file.path (checkedOut file)) disk) := by
    induction files generalizing disk with
    | nil => exact .refl disk
    | cons file rest step =>
        refine (Disk.inherits_write disk file.path fun version contents same => ?_).trans (step _)
        unfold checkedOut at same
        split at same <;> cases same
  exact (Disk.inherits_foldl_erase _ _).trans (written _)

end AnnexCatalog.Workspace
