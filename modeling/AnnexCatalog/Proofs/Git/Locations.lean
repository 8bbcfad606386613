import AnnexCatalog.Git.Location
import Mathlib.Data.List.Basic

/-! # Which path a key is given

The files that stand for a key are looked at one after another, and a later one is taken only if its
content is there and that of the earlier ones is not. So the first one with content is found, or else
the first one (`chosen`). Links are looked at before small files, wherever they stand in the index
(`locate_chooses`): whether the content is there does not depend on that, but the path may.
-/

namespace AnnexCatalog.Git

variable (object? : String → Option (List UInt8)) (tree : WorkTree)

/-- The file that an entry of the index describes, if it stands for a key. -/
def standIn? (entry : IndexEntry) : Option Candidate :=
  (locked? object? entry).or (unlocked? object? entry)

/-- The files that stand for a key, in the order of the index. -/
def standIns (index : List IndexEntry) (key : String) : List Candidate :=
  (index.filterMap (standIn? object?)).filter (·.key = key)

/-- Links before small files, and each of them in their order. -/
def byForm (files : List Candidate) : List Candidate :=
  files.filter (·.form = .locked) ++ files.filter (·.form = .unlocked)

def Candidate.location (candidate : Candidate) : Location :=
  ⟨candidate.path, candidate.isPresent tree⟩

/-- The location of the first file whose content is there, or else of the first one. -/
def chosen (files : List Candidate) : Option Location :=
  ((files.find? (Candidate.isPresent tree)).or files.head?).map (Candidate.location tree)

/-! ### Content in the working tree -/

section WorkTree

variable {tree} {path : String}

/-- A file that can be read holds content if it is no pointer, whatever its size. -/
theorem WorkTree.holdsContent_of_read {content : List UInt8}
    (size : tree.size? path = some content.length) (read : tree.content? path = some content) :
    tree.holdsContent path = (pointerKey? content).isNone := by
  unfold WorkTree.holdsContent
  rw [size, read]
  dsimp only
  split
  · next large => rw [pointerKey?, if_pos large]; rfl
  · rfl

/-- A file that cannot be read is taken for content if it is larger than every pointer. -/
theorem WorkTree.holdsContent_of_unreadable {size : Nat} (found : tree.size? path = some size)
    (unreadable : tree.content? path = none) :
    tree.holdsContent path = decide (maxPointerSize < size) := by
  unfold WorkTree.holdsContent
  rw [found, unreadable]
  dsimp only
  split
  · next large => rw [decide_eq_true large]
  · next small => rw [decide_eq_false small]

end WorkTree

/-! ### The order of the files -/

variable {object?} {entry : IndexEntry} {candidate : Candidate} {files : List Candidate}

/-- What is guarded has a result only under its condition. -/
theorem guard_bind_eq_some_iff {α : Type} {condition : Prop} [Decidable condition]
    {next : Unit → Option α} {result : α} :
    (guard condition >>= next) = some result ↔ condition ∧ next () = some result := by
  by_cases holds : condition
  · rw [guard, if_pos holds]
    exact (and_iff_right holds).symm
  · rw [guard, if_neg holds]
    exact iff_of_false nofun fun both => holds both.1

/-- Locked files are links. -/
theorem locked?_eq_some (described : locked? object? entry = some candidate) :
    entry.mode = "120000" ∧ candidate.form = .locked := by
  obtain ⟨link, named⟩ := guard_bind_eq_some_iff.mp described
  simp only [bind, Option.bind_eq_some_iff] at named
  obtain ⟨_, _, _, _, _, _, same⟩ := named
  obtain rfl := Option.some.inj same
  exact ⟨link, rfl⟩

/-- Unlocked files are no links. -/
theorem unlocked?_eq_some (described : unlocked? object? entry = some candidate) :
    entry.mode ≠ "120000" ∧ candidate.form = .unlocked := by
  obtain ⟨file, named⟩ := guard_bind_eq_some_iff.mp described
  simp only [bind, Option.bind_eq_some_iff] at named
  obtain ⟨_, _, _, _, same⟩ := named
  obtain rfl := Option.some.inj same
  refine ⟨?_, rfl⟩
  rcases file with plain | executable
  · rw [plain]
    decide
  · rw [executable]
    decide

/-- An entry stands for a key as a locked file exactly if it is described as one. -/
theorem filter_locked_standIn? (object? : String → Option (List UInt8)) (entry : IndexEntry) :
    (standIn? object? entry).filter (·.form = .locked) = locked? object? entry := by
  unfold standIn?
  cases link : locked? object? entry with
  | some candidate => simp [Option.filter, (locked?_eq_some link).2]
  | none =>
      cases file : unlocked? object? entry with
      | some candidate => simp [Option.filter, (unlocked?_eq_some file).2]
      | none => rfl

/-- An entry stands for a key as an unlocked file exactly if it is described as one. -/
theorem filter_unlocked_standIn? (object? : String → Option (List UInt8)) (entry : IndexEntry) :
    (standIn? object? entry).filter (·.form = .unlocked) = unlocked? object? entry := by
  unfold standIn?
  cases file : unlocked? object? entry with
  | some candidate =>
      have link : locked? object? entry = none :=
        Option.eq_none_iff_forall_ne_some.mpr fun _ described =>
          (unlocked?_eq_some file).1 (locked?_eq_some described).1
      simp [link, Option.filter, (unlocked?_eq_some file).2]
  | none =>
      cases link : locked? object? entry with
      | some candidate => simp [Option.filter, (locked?_eq_some link).2]
      | none => rfl

/-- The files are looked at by their form. -/
theorem candidates_eq (object? : String → Option (List UInt8)) (index : List IndexEntry) :
    candidates object? index = byForm (index.filterMap (standIn? object?)) := by
  rw [candidates, byForm, List.filter_filterMap, List.filter_filterMap]
  simp only [filter_locked_standIn?, filter_unlocked_standIn?]

/-- Files may be left out before they are put in the order of their forms. -/
theorem filter_byForm (files : List Candidate) (keep : Candidate → Bool) :
    (byForm files).filter keep = byForm (files.filter keep) := by
  rw [byForm, byForm, List.filter_append, List.filter_comm keep, List.filter_comm keep]

/-- Files of which no small one stands before a link are in the order of their forms. -/
theorem byForm_of_pairwise
    (ordered : files.Pairwise fun earlier later => earlier.form = .unlocked → later.form = .unlocked) :
    byForm files = files := by
  unfold byForm
  induction ordered with
  | nil => rfl
  | @cons file rest follows _ step =>
      cases form : file.form with
      | locked =>
          rw [List.filter_cons_of_pos (by simp [form]), List.filter_cons_of_neg (by simp [form]),
            List.cons_append, step]
      | unlocked =>
          have links : (file :: rest).filter (·.form = .locked) = [] := by
            refine List.filter_eq_nil_iff.mpr (List.forall_mem_cons.mpr ⟨by simp [form], ?_⟩)
            intro later member
            simp [follows later member form]
          rw [links, List.nil_append]
          refine List.filter_eq_self.mpr (List.forall_mem_cons.mpr ⟨by simp [form], ?_⟩)
          intro later member
          simp [follows later member form]

/-! ### The choice -/

/-- The location that is kept of one that is held, if any, and one that is found. -/
def preferred (held : Option Location) (found : Location) : Location :=
  match held with
  | none => found
  | some earlier => if found.present && !earlier.present then found else earlier

/-- Placing a file concerns its own key, which has the preferred location from then on. -/
theorem get?_place (known : TextMap Location) (candidate : Candidate) (key : String) :
    (place tree known candidate).get? key =
      if candidate.key = key then some (preferred (known.get? key) (candidate.location tree))
      else known.get? key := by
  unfold place
  by_cases same : candidate.key = key
  · subst same
    rw [if_pos rfl]
    cases held : known.get? candidate.key with
    | none => simp [TextMap.get?_insert, preferred, Candidate.location]
    | some earlier =>
        dsimp only [preferred, Candidate.location]
        split
        · rw [TextMap.get?_insert, if_pos rfl]
        · exact held
  · have other (location : Location) :
        (known.insert candidate.key location).get? key = known.get? key := by
      rw [TextMap.get?_insert, if_neg (Ne.symm same)]
    rw [if_neg same]
    cases known.get? candidate.key with
    | none => exact other _
    | some earlier =>
        dsimp only
        split
        · exact other _
        · rfl

/-- Each file is weighed against what is held for its own key. -/
theorem get?_foldl_place (files : List Candidate) (known : TextMap Location) (key : String) :
    (files.foldl (place tree) known).get? key =
      (files.filter (·.key = key)).foldl
        (fun held candidate => some (preferred held (candidate.location tree)))
        (known.get? key) := by
  induction files generalizing known with
  | nil => rfl
  | cons file rest step =>
      rw [List.foldl_cons, step, get?_place]
      by_cases same : file.key = key
      · rw [if_pos same, List.filter_cons_of_pos (by simpa using same), List.foldl_cons]
      · rw [if_neg same, List.filter_cons_of_neg (by simpa using same)]

/-- A held location with content is kept, and any other gives way to the first file with content. -/
theorem foldl_preferred_some (files : List Candidate) (held : Location) :
    files.foldl (fun held candidate => some (preferred held (candidate.location tree))) (some held) =
      if held.present then some held
      else ((files.find? (Candidate.isPresent tree)).map (Candidate.location tree)).or (some held) := by
  induction files generalizing held with
  | nil => simp
  | cons file rest step =>
      rw [List.foldl_cons, step]
      cases here : held.present <;> cases there : file.isPresent tree <;>
        simp [preferred, Candidate.location, here, there]

/-- After all files, the first one with content is held, or else the first one. -/
theorem foldl_preferred (files : List Candidate) :
    files.foldl (fun held candidate => some (preferred held (candidate.location tree))) none =
      chosen tree files := by
  cases files with
  | nil => rfl
  | cons file rest =>
      rw [List.foldl_cons, foldl_preferred_some, chosen]
      cases there : file.isPresent tree with
      | true => simp [preferred, Candidate.location, there]
      | false =>
          cases found : rest.find? (Candidate.isPresent tree) <;>
            simp [preferred, Candidate.location, there, found]

/-- The content of a key is there if that of one of its files is. -/
theorem present_chosen (files : List Candidate) :
    (chosen tree files).map Location.present =
      if files = [] then none else some (files.any (Candidate.isPresent tree)) := by
  rw [chosen, Option.map_map]
  cases files with
  | nil => rfl
  | cons first rest =>
      rw [if_neg (List.cons_ne_nil first rest)]
      cases found : (first :: rest).find? (Candidate.isPresent tree) with
      | some file =>
          have there := List.find?_some found
          rw [List.any_eq_true.mpr ⟨file, List.mem_of_find?_eq_some found, there⟩]
          exact congrArg some there
      | none =>
          have absent := List.find?_eq_none.mp found
          rw [List.any_eq_false.mpr absent]
          exact congrArg some (Bool.eq_false_iff.mpr (absent first List.mem_cons_self))

theorem byForm_perm (files : List Candidate) : (byForm files).Perm files := by
  have other : (fun file : Candidate => decide (file.form = .unlocked)) =
      fun file => !decide (file.form = .locked) := by
    funext file
    cases file.form <;> rfl
  rw [byForm, other]
  exact List.filter_append_perm _ files

/-- Of the files that are looked at, those for one key are its stand-ins, if it is asked for. -/
theorem filter_candidates (object? : String → Option (List UInt8)) (index : List IndexEntry)
    (keys : TextSet) (key : String) :
    ((candidates object? index).filter fun file => TextMap.contains keys file.key).filter
        (·.key = key) =
      if TextMap.contains keys key then byForm (standIns object? index key) else [] := by
  rw [List.filter_filter]
  cases wanted : TextMap.contains keys key with
  | true =>
      rw [if_pos rfl, standIns, ← filter_byForm, ← candidates_eq]
      refine List.filter_congr fun file _ => ?_
      by_cases same : file.key = key
      · simp [same, wanted]
      · simp [same]
  | false =>
      rw [if_neg Bool.false_ne_true, List.filter_eq_nil_iff]
      intro file _
      by_cases same : file.key = key
      · simp [same, wanted]
      · simp [same]

/-- **A key is located at its first file with content, or else at its first file**, links being looked
at before small files. Whether its content is there is the same in the order of the index, and so is
the path where no small file stands before a link. -/
theorem locate_chooses (object? : String → Option (List UInt8)) (tree : WorkTree)
    (index : List IndexEntry) (keys : TextSet) (key : String) :
    let files := standIns object? index key
    (locate object? tree index keys).get? key =
        (if TextMap.contains keys key then chosen tree (byForm files) else none) ∧
      (chosen tree (byForm files)).map Location.present =
        (chosen tree files).map Location.present ∧
      ((files.Pairwise fun earlier later => earlier.form = .unlocked → later.form = .unlocked) →
        chosen tree (byForm files) = chosen tree files) := by
  intro files
  refine ⟨?_, ?_, fun ordered => by rw [byForm_of_pairwise ordered]⟩
  · rw [locate, get?_foldl_place, TextMap.get?_empty, foldl_preferred, filter_candidates]
    split
    · rfl
    · rfl
  · have perm := byForm_perm files
    have empty : byForm files = [] ↔ files = [] :=
      ⟨fun none => List.nil_perm.mp (none ▸ perm), fun none => List.perm_nil.mp (none ▸ perm)⟩
    rw [present_chosen, present_chosen, perm.any_eq]
    simp only [empty]

/-- Three files stand for a key, and the second link is the first that leads to content. -/
theorem locate_chooses_of_links :
    let link (path : String) : Candidate := ⟨"SHA256E-s3--a.mp3", path, .locked⟩
    let file : Candidate := ⟨"SHA256E-s3--a.mp3", "c.mp3", .unlocked⟩
    let pointer := Text.Utf8.encode "/annex/objects/SHA256E-s3--a.mp3\n".toList
    let target := Text.Utf8.encode "annex/objects/SHA256E-s3--a.mp3".toList
    let object? : String → Option (List UInt8) := fun name =>
      if name = "1" then some target else if name = "2" then some pointer else none
    let index : List IndexEntry := [⟨"120000", "1", "a.mp3"⟩, ⟨"120000", "1", "b.mp3"⟩,
      ⟨"100644", "3", "lost"⟩, ⟨"100755", "2", "c.mp3"⟩]
    let tree : WorkTree := ⟨fun path => path = "b.mp3",
      fun path => if path = "c.mp3" then some 1 else none,
      fun path => if path = "c.mp3" then some [0xFF] else none⟩
    standIns object? index "SHA256E-s3--a.mp3" = [link "a.mp3", link "b.mp3", file] ∧
      (locate object? tree index (TextSet.ofTexts ["SHA256E-s3--a.mp3"])).get?
        "SHA256E-s3--a.mp3" = some ⟨"b.mp3", true⟩ := by
  intro link file pointer target object? index tree
  have files : standIns object? index "SHA256E-s3--a.mp3" = [link "a.mp3", link "b.mp3", file] := by
    decide +kernel
  obtain ⟨located, -, ordered⟩ := locate_chooses object? tree index
    (TextSet.ofTexts ["SHA256E-s3--a.mp3"]) "SHA256E-s3--a.mp3"
  refine ⟨files, ?_⟩
  rw [located, if_pos (by decide +kernel), ordered (by rw [files]; decide), files]
  decide +kernel

/-- A link behind a small file in the index takes its place, although the content of neither is
there. -/
theorem link_is_chosen_before_earlier_file :
    let key := "SHA256E-s3--aaa.mp3"
    let pointer := Text.Utf8.encode "/annex/objects/SHA256E-s3--aaa.mp3\n".toList
    let target := Text.Utf8.encode
      ".git/annex/objects/Xx/Yy/SHA256E-s3--aaa.mp3/SHA256E-s3--aaa.mp3".toList
    let object? : String → Option (List UInt8) := fun name =>
      if name = "1" then some pointer else if name = "2" then some target else none
    let index : List IndexEntry := [⟨"100644", "1", "a.mp3"⟩, ⟨"120000", "2", "b.mp3"⟩]
    let tree : WorkTree := ⟨fun path => path = "a.mp3",
      fun path => if path = "a.mp3" then some pointer.length else none,
      fun path => if path = "a.mp3" then some pointer else none⟩
    standIns object? index key = [⟨key, "a.mp3", .unlocked⟩, ⟨key, "b.mp3", .locked⟩] ∧
      chosen tree (standIns object? index key) = some ⟨"a.mp3", false⟩ ∧
      (locate object? tree index (TextSet.ofTexts [key])).get? key = some ⟨"b.mp3", false⟩ := by
  decide +kernel

end AnnexCatalog.Git
