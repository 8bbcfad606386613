import AnnexCatalog.Git.Repository
import AnnexCatalog.Proofs.Number.Decimal
import Mathlib.Data.List.Infix

/-! # Repositories keep what they hold

A repository grows by commits. As long as nothing is taken out of it, every branch names a commit and
every file of a commit has its content (`Repository.Whole`), and what was held before is held after
every commit (`Repository.Extends`): commits keep their names, and an object its content, as its name
is made from that.
-/

namespace AnnexCatalog.Git

/-! ### Names of objects -/

theorem digitChar_inj : ∀ first < 16, ∀ second < 16,
    Nat.digitChar first = Nat.digitChar second → first = second := by
  decide

/-- The name of an object tells its content. -/
theorem objectName_injective : Function.Injective Repository.objectName := by
  intro first second same
  have digits := String.ofList_injective same
  clear same
  induction first generalizing second with
  | nil =>
      cases second with
      | nil => rfl
      | cons other rest => cases digits
  | cons byte bytes step =>
      cases second with
      | nil => cases digits
      | cons other rest =>
          simp only [List.flatMap_cons, List.cons_append, List.nil_append, List.cons.injEq] at digits
          obtain ⟨high, low, later⟩ := digits
          have upper := digitChar_inj _ (by have := byte.toNat_lt; omega) _
            (by have := other.toNat_lt; omega) high
          have lower := digitChar_inj _ (Nat.mod_lt _ (by decide)) _ (Nat.mod_lt _ (by decide)) low
          obtain rfl : byte = other := UInt8.toNat_inj.mp (by omega)
          rw [step later]

namespace Repository

variable {repository later : Repository} {files : List CommitFile} {branch : String}

/-- Nothing is missing in a repository: every branch names a commit, every file of a commit has its
object, and every object is kept under the name that is made from its content. -/
structure Whole (repository : Repository) : Prop where
  branches : ∀ branch name, repository.branches.get? branch = some name →
    (repository.commit? name).isSome = true
  trees : ∀ commit ∈ repository.commits, ∀ path file, commit.tree.get? path = some file →
    repository.objects.contains file.object = true
  objects : ∀ name content, repository.objects.get? name = some content →
    name = objectName content

/-- Another repository holds what a repository holds. -/
structure Extends (repository later : Repository) : Prop where
  commits : repository.commits <+: later.commits
  objects : ∀ name content, repository.objects.get? name = some content →
    later.objects.get? name = some content

theorem Extends.refl (repository : Repository) : repository.Extends repository where
  commits := List.prefix_refl _
  objects _ _ held := held

theorem Extends.trans {latest : Repository} (first : repository.Extends later)
    (second : later.Extends latest) : repository.Extends latest where
  commits := first.commits.trans second.commits
  objects name content held := second.objects name content (first.objects name content held)

/-! ### Commits keep their names -/

/-- A commit is found under its name in every repository that holds what the first one holds. -/
theorem Extends.commit? (grown : repository.Extends later) {name : String} {commit : Commit}
    (found : repository.commit? name = some commit) : later.commit? name = some commit := by
  obtain ⟨rest, appended⟩ := grown.commits
  obtain ⟨number, numbered, held⟩ := Option.bind_eq_some_iff.mp found
  have inside : number < repository.commits.length := (List.getElem?_eq_some_iff.mp held).1
  refine Option.bind_eq_some_iff.mpr ⟨number, ?_, ?_⟩
  · rw [← appended, List.length_append, List.range_add, List.find?_append, numbered]
    rfl
  · rw [← appended, List.getElem?_append_left inside, held]

/-- The digits in the name of a commit are those of its number. -/
theorem commitName_injective : Function.Injective commitName := by
  intro first second same
  have digits (number : Nat) : (commitName number).toList.filter Char.isDigit =
      (toString number).toList := by
    have padding (count : Nat) : (List.replicate count 'c').filter Char.isDigit = [] := by
      rw [List.filter_replicate, if_neg (by decide)]
    have kept : (Nat.toDigits 10 number).filter Char.isDigit = Nat.toDigits 10 number :=
      List.filter_eq_self.mpr fun c member => Nat.isDigit_of_mem_toDigits (by decide) (by decide) member
    rw [commitName, String.toList_ofList, List.filter_append, List.filter_append, padding, padding,
      kept, toList_toString]
    exact List.append_nil _
  have numerals := digits first
  rw [same, digits second] at numerals
  rw [← ofDigits_toString first, ← numerals, ofDigits_toString]

/-- Only commits are found under a name, and the name of a commit is made from a number. -/
theorem exists_commitName_of_commit? {name : String} {commit : Commit}
    (found : repository.commit? name = some commit) : ∃ number, commitName number = name := by
  obtain ⟨number, numbered, -⟩ := Option.bind_eq_some_iff.mp found
  exact ⟨number, of_decide_eq_true (by simpa using List.find?_some numbered)⟩

/-- The name of a commit has no sign, and is not empty. -/
theorem commitName_plain (number : Nat) :
    '-' ∉ (commitName number).toList ∧ (commitName number).isEmpty = false := by
  have digits : '-' ∉ Nat.toDigits 10 number := fun member =>
    absurd (Nat.isDigit_of_mem_toDigits (by decide) (by decide) member) (by decide)
  constructor
  · simp [commitName, digits]
  · rw [Bool.eq_false_iff, ne_eq, String.isEmpty_iff, commitName, String.ofList_eq_empty_iff]
    simp

/-- A commit is found under the name of its number. -/
theorem commit?_commitName {number : Nat} {commit : Commit}
    (held : repository.commits[number]? = some commit) :
    repository.commit? (commitName number) = some commit := by
  have inside : number < repository.commits.length := (List.getElem?_eq_some_iff.mp held).1
  obtain ⟨found, named⟩ := Option.isSome_iff_exists.mp (List.find?_isSome.mpr
    ⟨number, List.mem_range.mpr inside, decide_eq_true rfl⟩ :
      ((List.range repository.commits.length).find? fun other =>
        decide (commitName other = commitName number)).isSome = true)
  obtain rfl : found = number :=
    commitName_injective (of_decide_eq_true (by simpa using List.find?_some named))
  rw [Repository.commit?, named, Option.bind_some, held]

/-- A commit is found as a revision by its name. -/
theorem revision?_of_commit? {name : String} {commit : Commit}
    (found : repository.commit? name = some commit) :
    repository.revision? name = some commit := by
  unfold revision?
  rw [found]
  rfl

/-! ### What a commit adds -/

/-- Each file of a tree is one of the files that it was made of. -/
theorem exists_file_of_treeOf {path : String} {file : TreeFile}
    (found : (treeOf files).get? path = some file) :
    ∃ written ∈ files, file.object = objectName written.content := by
  rw [treeOf, TextMap.get?_ofList, Option.map_eq_some_iff] at found
  obtain ⟨entry, last, rfl⟩ := found
  obtain ⟨written, member, rfl⟩ :=
    List.mem_map.mp (List.mem_reverse.mp (List.mem_of_find?_eq_some last))
  exact ⟨written, member, rfl⟩

/-- The object of a name is that of the last file whose content has the name, or an earlier one. -/
theorem get?_objects_store (files : List CommitFile) (name : String) :
    (repository.store files).objects.get? name =
      ((files.reverse.find? fun file => objectName file.content == name).map
        CommitFile.content).or (repository.objects.get? name) := by
  have entries := TextMap.get?_foldl_insert
    (files.map fun file => (objectName file.content, file.content)) repository.objects name
  rw [List.foldl_map, ← List.map_reverse, List.find?_map, Option.map_map] at entries
  exact entries

/-- The contents of files are among the objects afterwards. -/
theorem contains_objects_store {file : CommitFile} (member : file ∈ files) :
    (repository.store files).objects.contains (objectName file.content) = true := by
  have found : (files.reverse.find? fun other =>
      objectName other.content == objectName file.content).isSome = true :=
    List.find?_isSome.mpr ⟨file, List.mem_reverse.mpr member, beq_self_eq_true _⟩
  obtain ⟨last, found⟩ := Option.isSome_iff_exists.mp found
  rw [TextMap.contains, get?_objects_store, found]
  rfl

/-- Objects are kept, as a content that is stored again is stored under the same name. -/
theorem Whole.get?_objects_store_of_held (whole : repository.Whole) (files : List CommitFile)
    {name : String} {content : List UInt8}
    (held : repository.objects.get? name = some content) :
    (repository.store files).objects.get? name = some content := by
  rw [get?_objects_store, held]
  cases found : files.reverse.find? fun file => objectName file.content == name with
  | none => rfl
  | some file =>
      have named : objectName file.content = name := beq_iff_eq.mp (by simpa using List.find?_some found)
      rw [whole.objects name content held] at named
      exact congrArg some (objectName_injective named)

/-- Every object is kept under the name that is made from its content. -/
theorem Whole.objectName_of_store (whole : repository.Whole) {name : String}
    {content : List UInt8} (held : (repository.store files).objects.get? name = some content) :
    name = objectName content := by
  rw [get?_objects_store] at held
  cases found : files.reverse.find? fun file => objectName file.content == name with
  | none =>
      rw [found] at held
      exact whole.objects name content held
  | some file =>
      rw [found] at held
      obtain rfl : file.content = content := Option.some.inj held
      exact (beq_iff_eq.mp (by simpa using List.find?_some found)).symm

/-! ### Every change keeps a repository whole -/

/-- An empty repository is whole. -/
theorem Whole.empty : Repository.empty.Whole where
  branches _ _ named := by cases named
  trees _ member := by cases member
  objects _ _ held := by cases held

/-- What a commit makes of a repository: the branch names a commit with the files on top of what it
named before, which is added unless it is there. -/
theorem commit_cases (repository : Repository) (branch : String) (files : List CommitFile) :
    let after := (repository.commit branch files).1
    let commit : Commit := ⟨repository.branches.get? branch, treeOf files⟩
    ∃ number, after.commits[number]? = some commit ∧
      (repository.commit branch files).2 = commitName number ∧
        after.branches = repository.branches.insert branch (commitName number) ∧
        after.objects = (repository.store files).objects ∧
        (after.commits = repository.commits ∨ after.commits = repository.commits ++ [commit]) := by
  intro after commit
  let known := repository.commits.findIdx? fun other =>
    other.parent = commit.parent ∧ other.tree = commit.tree
  have commits : after.commits =
      if known.isSome then repository.commits else repository.commits ++ [commit] := rfl
  have name : (repository.commit branch files).2 =
      commitName (known.getD repository.commits.length) := rfl
  have branches : after.branches = repository.branches.insert branch
      (commitName (known.getD repository.commits.length)) := rfl
  cases found : known with
  | some number =>
      obtain ⟨inside, same, -⟩ := List.findIdx?_eq_some_iff_getElem.mp found
      have equal : repository.commits[number] = commit := by
        obtain ⟨parent, tree⟩ := of_decide_eq_true same
        cases held : repository.commits[number]
        rw [held] at parent tree
        exact congr (congrArg Commit.mk parent) tree
      rw [found] at commits name branches
      refine ⟨number, ?_, name, branches, rfl, .inl commits⟩
      rw [commits, if_pos Option.isSome_some, List.getElem?_eq_getElem inside, equal]
  | none =>
      rw [found] at commits name branches
      refine ⟨repository.commits.length, ?_, name, branches, rfl, .inr commits⟩
      change _ = repository.commits ++ [commit] at commits
      rw [commits, List.getElem?_append_right (Nat.le_refl _), Nat.sub_self]
      rfl

/-- **A commit is found under its name.** After a commit, its name and its branch give a commit with
the files, on top of what the branch named before. -/
theorem revision?_commit (repository : Repository) (branch : String) (files : List CommitFile) :
    let after := (repository.commit branch files).1
    let name := (repository.commit branch files).2
    after.branches.get? branch = some name ∧
      after.revision? name = some ⟨repository.branches.get? branch, treeOf files⟩ := by
  intro after name
  obtain ⟨number, held, named, branches, -, -⟩ := commit_cases repository branch files
  have number : name = commitName number := named
  rw [branches, TextMap.get?_insert, if_pos rfl, number]
  exact ⟨rfl, revision?_of_commit? (commit?_commitName held)⟩

/-- A commit takes nothing out of a whole repository. -/
theorem Whole.extends_commit (whole : repository.Whole) (branch : String)
    (files : List CommitFile) : repository.Extends (repository.commit branch files).1 := by
  obtain ⟨_, -, -, -, objects, commits⟩ := commit_cases repository branch files
  refine ⟨?_, fun name content held => objects ▸ whole.get?_objects_store_of_held files held⟩
  rcases commits with kept | grown
  · exact kept ▸ List.prefix_refl _
  · exact grown ▸ List.prefix_append _ _

/-- A repository is whole after a commit. -/
theorem Whole.commit (whole : repository.Whole) (branch : String) (files : List CommitFile) :
    (repository.commit branch files).1.Whole := by
  have grown := whole.extends_commit branch files
  obtain ⟨number, held, -, branches, objects, commits⟩ := commit_cases repository branch files
  refine ⟨?_, ?_, fun name content held => whole.objectName_of_store (objects ▸ held)⟩
  · intro other name named
    rw [branches, TextMap.get?_insert] at named
    split at named
    · cases named
      exact Option.isSome_iff_exists.mpr ⟨_, commit?_commitName held⟩
    · obtain ⟨commit, found⟩ := Option.isSome_iff_exists.mp (whole.branches other name named)
      exact Option.isSome_iff_exists.mpr ⟨commit, grown.commit? found⟩
  · intro commit member path file found
    have origin : commit ∈ repository.commits ∨ commit.tree = treeOf files := by
      rcases commits with kept | added
      · exact .inl (kept ▸ member)
      · rw [added, List.mem_append, List.mem_singleton] at member
        exact member.imp_right (congrArg Commit.tree)
    rcases origin with before | fresh
    · obtain ⟨content, kept⟩ :=
        (TextMap.contains_iff _ _).mp (whole.trees commit before path file found)
      exact (TextMap.contains_iff _ _).mpr ⟨content, grown.objects _ _ kept⟩
    · obtain ⟨written, listed, object⟩ := exists_file_of_treeOf (fresh ▸ found)
      rw [objects, object]
      exact contains_objects_store listed

/-- A checkout is a commit, as the index does not matter to what is held. -/
theorem Whole.checkout (whole : repository.Whole) (files : List CommitFile) :
    (repository.checkout files).Whole :=
  have committed := whole.commit mainBranch files
  ⟨committed.branches, committed.trees, committed.objects⟩

/-- Checking out files keeps commits and objects. -/
theorem Whole.extends_checkout (whole : repository.Whole) (files : List CommitFile) :
    repository.Extends (repository.checkout files) :=
  have grown := whole.extends_commit mainBranch files
  ⟨grown.commits, grown.objects⟩

/-- A branch can be deleted from a whole repository. -/
theorem Whole.deleteBranch (whole : repository.Whole) (branch : String) :
    (repository.deleteBranch branch).Whole := by
  refine ⟨fun other name named => whole.branches other name ?_, whole.trees, whole.objects⟩
  change (repository.branches.erase branch).get? other = some name at named
  rw [TextMap.get?_erase] at named
  split at named
  · cases named
  · exact named

/-- Without a branch, a repository holds what it held. -/
theorem extends_deleteBranch (repository : Repository) (branch : String) :
    repository.Extends (repository.deleteBranch branch) :=
  ⟨List.prefix_refl _, fun _ _ held => held⟩

end Repository

end AnnexCatalog.Git
