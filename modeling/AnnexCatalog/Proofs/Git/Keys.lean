import AnnexCatalog.Git.Key
import AnnexCatalog.Proofs.Text.Pieces
import AnnexCatalog.Proofs.Text.Utf8

/-! # Which key a file names

A text is a key exactly if it follows the grammar of keys (`isKey_iff`): each stage of reading asks
for what may still finish the key (`KeyStage.Finishes`). Links and pointers name the same keys
(`links_and_pointers_agree`): both name the last part of a path, and what stands before a folder of
objects, or which of several such folders is meant, does not change that part.
-/

namespace AnnexCatalog.Git

open Text

/-! ### The grammar of keys -/

/-- What follows the name of the backend: any number of groups of a dash, a letter and digits, then
two dashes and the rest of a line. -/
inductive KeyEnding : List Char → Prop where
  | rest {text : List Char} (nonempty : text ≠ []) (oneLine : '\n' ∉ text) :
      KeyEnding ('-' :: '-' :: text)
  | group {letter : Char} {digits ending : List Char} (alphabetic : letter.isAlpha = true)
      (nonempty : digits ≠ []) (numeric : ∀ c ∈ digits, c.isDigit = true)
      (more : KeyEnding ending) : KeyEnding ('-' :: letter :: (digits ++ ending))

/-- A key: the name of a backend in capitals and digits, and what follows it. -/
def SpellsKey (text : List Char) : Prop :=
  ∃ backend ending, backend ≠ [] ∧ (∀ c ∈ backend, c.isUpper = true ∨ c.isDigit = true) ∧
    KeyEnding ending ∧ text = backend ++ ending

/-- Characters of one kind before the ending of a key. -/
def LeadsOn (kind : Char → Bool) (text : List Char) : Prop :=
  ∃ front ending, (∀ c ∈ front, kind c = true) ∧ KeyEnding ending ∧ text = front ++ ending

/-- At least one character of a kind before the ending of a key. -/
def Leads (kind : Char → Bool) (text : List Char) : Prop :=
  ∃ c rest, text = c :: rest ∧ kind c = true ∧ LeadsOn kind rest

/-- What has to follow a stage for the whole to be a key. -/
def KeyStage.Finishes : KeyStage → List Char → Prop
  | .opening, text => Leads isBackendChar text
  | .backend, text => LeadsOn isBackendChar text
  | .dash, text => KeyEnding ('-' :: text)
  | .letter, text => Leads Char.isDigit text
  | .digits, text => LeadsOn Char.isDigit text
  | .closing, text => text ≠ [] ∧ '\n' ∉ text
  | .rest, text => '\n' ∉ text

section Grammar

variable {kind : Char → Bool} {c : Char} {text : List Char}

/-- A text leads to an ending if it is one or more characters of the kind and the ending. -/
theorem leads_iff :
    Leads kind text ↔ ∃ front ending, front ≠ [] ∧ (∀ c ∈ front, kind c = true) ∧
      KeyEnding ending ∧ text = front ++ ending := by
  constructor
  · rintro ⟨c, _, rfl, first, front, ending, others, finished, rfl⟩
    exact ⟨c :: front, ending, List.cons_ne_nil c front, List.forall_mem_cons.mpr ⟨first, others⟩,
      finished, rfl⟩
  · rintro ⟨front, ending, nonempty, all, finished, rfl⟩
    obtain ⟨c, rest, rfl⟩ := List.exists_cons_of_ne_nil nonempty
    obtain ⟨first, others⟩ := List.forall_mem_cons.mp all
    exact ⟨c, rest ++ ending, rfl, first, rest, ending, others, finished, rfl⟩

/-- A text that leads to an ending begins with a character of the kind and leads on to it. -/
theorem leads_cons_iff : Leads kind (c :: text) ↔ kind c = true ∧ LeadsOn kind text := by
  constructor
  · rintro ⟨_, _, same, first, others⟩
    cases same
    exact ⟨first, others⟩
  · rintro ⟨first, others⟩
    exact ⟨c, text, rfl, first, others⟩

/-- After a dash, a key ends with another dash and its name, or goes on with a field. -/
theorem keyEnding_dash_cons_iff :
    KeyEnding ('-' :: c :: text) ↔
      (c = '-' ∧ text ≠ [] ∧ '\n' ∉ text) ∨ (c.isAlpha = true ∧ Leads Char.isDigit text) := by
  rw [leads_iff]
  constructor
  · intro ending
    cases ending with
    | rest nonempty oneLine => exact .inl ⟨rfl, nonempty, oneLine⟩
    | group alphabetic nonempty numeric more =>
        exact .inr ⟨alphabetic, _, _, nonempty, numeric, more, rfl⟩
  · rintro (⟨rfl, nonempty, oneLine⟩ | ⟨alphabetic, digits, _, nonempty, numeric, more, rfl⟩)
    · exact .rest nonempty oneLine
    · exact .group alphabetic nonempty numeric more

/-- A text leads on to an ending with one more character of the kind, or it is the ending. -/
theorem leadsOn_cons_iff :
    LeadsOn kind (c :: text) ↔
      (kind c = true ∧ LeadsOn kind text) ∨ (c = '-' ∧ KeyEnding ('-' :: text)) := by
  constructor
  · rintro ⟨front, ending, all, finished, whole⟩
    cases front with
    | nil =>
        have dash : c = '-' := by
          rw [List.nil_append] at whole
          rw [← whole] at finished
          cases finished <;> rfl
        subst dash
        exact .inr ⟨rfl, whole ▸ finished⟩
    | cons first others =>
        cases whole
        obtain ⟨here, later⟩ := List.forall_mem_cons.mp all
        exact .inl ⟨here, others, ending, later, finished, rfl⟩
  · rintro (⟨here, front, ending, later, finished, rfl⟩ | ⟨rfl, finished⟩)
    · exact ⟨c :: front, ending, List.forall_mem_cons.mpr ⟨here, later⟩, finished, rfl⟩
    · exact ⟨[], _, nofun, finished, rfl⟩

end Grammar

/-! ### Reading a key -/

section Reading

variable {kind : Char → Bool} {stage : KeyStage} {c : Char} {text : List Char}

/-- A stage that waits for a first character finishes if the next one is of the kind. -/
theorem leads_next_iff (spans : stage.Finishes text ↔ LeadsOn kind text) :
    Leads kind (c :: text) ↔
      ∃ after, (if kind c = true then some stage else none) = some after ∧ after.Finishes text := by
  rw [leads_cons_iff, ← spans]
  by_cases here : kind c = true
  · simp [here]
  · simp [here]

/-- A stage that waits for more characters finishes with the next one, or goes on to a dash. -/
theorem leadsOn_next_iff (other : kind '-' = false)
    (spans : stage.Finishes text ↔ LeadsOn kind text) :
    LeadsOn kind (c :: text) ↔
      ∃ after, (if kind c = true then some stage else if c = '-' then some .dash else none) =
        some after ∧ after.Finishes text := by
  rw [leadsOn_cons_iff, ← spans]
  by_cases dash : c = '-'
  · subst dash
    simp [other, KeyStage.Finishes]
  · by_cases here : kind c = true
    · simp [dash, here]
    · simp [dash, here]

/-- The name of a key goes on up to the end of the line. -/
theorem rest_next_iff :
    '\n' ∉ c :: text ↔
      ∃ after, (if c = '\n' then none else some KeyStage.rest) = some after ∧
        after.Finishes text := by
  by_cases feed : c = '\n'
  · simp [feed]
  · simp [feed, Ne.symm feed, KeyStage.Finishes]

/-- What finishes a key after one stage is a character that leads to another stage, and what
finishes the key after that. -/
theorem finishes_cons_iff (stage : KeyStage) (c : Char) (text : List Char) :
    stage.Finishes (c :: text) ↔ ∃ after, stage.next c = some after ∧ after.Finishes text := by
  cases stage with
  | opening => exact leads_next_iff Iff.rfl
  | backend => exact leadsOn_next_iff (by decide) Iff.rfl
  | dash =>
      rw [KeyStage.Finishes, KeyStage.next, keyEnding_dash_cons_iff]
      by_cases dash : c = '-'
      · have other : Char.isAlpha '-' = false := by decide
        subst dash
        simp [other, KeyStage.Finishes]
      · by_cases letter : c.isAlpha = true
        · simp [dash, letter, KeyStage.Finishes]
        · simp [dash, letter]
  | letter => exact leads_next_iff Iff.rfl
  | digits => exact leadsOn_next_iff (by decide) Iff.rfl
  | closing => exact (and_iff_right (List.cons_ne_nil c text)).trans rest_next_iff
  | rest => exact rest_next_iff

/-- Only the rest of a key may be empty. -/
theorem finishes_nil_iff (stage : KeyStage) : stage.Finishes [] ↔ stage = .rest := by
  have leadless (kind : Char → Bool) : ¬ Leads kind [] := by
    rintro ⟨_, _, none, -⟩
    cases none
  have spanless (kind : Char → Bool) : ¬ LeadsOn kind [] := by
    rintro ⟨_, _, -, finished, none⟩
    rw [(List.append_eq_nil_iff.mp none.symm).2] at finished
    cases finished
  cases stage with
  | opening => exact iff_of_false (leadless _) nofun
  | backend => exact iff_of_false (spanless _) nofun
  | dash => exact iff_of_false nofun nofun
  | letter => exact iff_of_false (leadless _) nofun
  | digits => exact iff_of_false (spanless _) nofun
  | closing => exact iff_of_false (fun finished => finished.1 rfl) nofun
  | rest => exact iff_of_true List.not_mem_nil rfl

/-- A whole text is read to the rest of a key exactly if it finishes the key. -/
theorem foldlM_next_eq_rest_iff (text : List Char) (stage : KeyStage) :
    text.foldlM KeyStage.next stage = some .rest ↔ stage.Finishes text := by
  induction text generalizing stage with
  | nil =>
      rw [finishes_nil_iff]
      exact Option.some_inj
  | cons c rest step =>
      rw [List.foldlM_cons, finishes_cons_iff]
      simp only [bind, Option.bind_eq_some_iff, step]

end Reading

/-- The keys that are recognized are those of the grammar. -/
theorem isKey_iff {text : List Char} : isKey text = true ↔ SpellsKey text := by
  rw [isKey, beq_iff_eq, foldlM_next_eq_rest_iff, KeyStage.Finishes, leads_iff, SpellsKey]
  simp only [isBackendChar, Bool.or_eq_true]

instance : DecidablePred SpellsKey := fun _ => decidable_of_iff _ isKey_iff

/-- The group of a key begins at a dash with a letter behind it, its rest at two dashes. -/
example : SpellsKey "WORM-s5-m1600000000--a--b-c7".toList ∧ ¬ SpellsKey "WORM-s-5--a".toList := by
  decide

theorem SpellsKey.ne_nil {text : List Char} (key : SpellsKey text) : text ≠ [] := by
  obtain ⟨backend, ending, nonempty, -, -, rfl⟩ := key
  exact List.append_ne_nil_of_left_ne_nil nonempty ending

/-- There is no line feed in the ending of a key. -/
theorem KeyEnding.notMem {text : List Char} (ending : KeyEnding text) : '\n' ∉ text := by
  induction ending with
  | rest nonempty oneLine => simpa using oneLine
  | group alphabetic nonempty numeric more step =>
      simp only [List.mem_cons, List.mem_append, not_or]
      refine ⟨by decide, ?_, ?_, step⟩
      · rintro rfl
        revert alphabetic
        decide
      · intro feed
        have digit := numeric _ feed
        revert digit
        decide

/-- There is no line feed in a key. -/
theorem SpellsKey.notMem {text : List Char} (key : SpellsKey text) : '\n' ∉ text := by
  obtain ⟨backend, ending, -, letters, finished, rfl⟩ := key
  rw [List.mem_append, not_or]
  refine ⟨fun feed => ?_, finished.notMem⟩
  have letter := letters _ feed
  revert letter
  decide

/-! ### Last parts of paths -/

/-- The part of a path before its last part: nothing, or a text that ends in a slash. -/
def IsFolder (text : List Char) : Prop :=
  ∀ c ∈ text.getLast?, c = '/'

/-- The last part of a path. -/
def IsLastPart (name path : List Char) : Prop :=
  '/' ∉ name ∧ ∃ folder, IsFolder folder ∧ path = folder ++ name

theorem IsFolder.append {first second : List Char} (outer : IsFolder first)
    (inner : IsFolder second) : IsFolder (first ++ second) := by
  intro c last
  rw [List.getLast?_append] at last
  cases inside : second.getLast? with
  | none =>
      rw [inside] at last
      exact outer c last
  | some letter =>
      rw [inside] at last
      cases last
      exact inner c inside

/-- What ends in a slash is a folder. -/
theorem isFolder_slash (text : List Char) : IsFolder (text ++ ['/']) := by
  intro c last
  rw [List.getLast?_concat] at last
  cases last
  rfl

/-- The folder of objects is a folder, wherever it is. -/
theorem isFolder_objectsFolder (before : List Char) : IsFolder (before ++ objectsFolder) := by
  have slash : objectsFolder = "annex/objects".toList ++ ['/'] := by decide
  rw [slash, ← List.append_assoc]
  exact isFolder_slash _

/-- The folder before a path does not matter for the key at its end. -/
theorem lastKey?_append {folder : List Char} (isFolder : IsFolder folder) (path : List Char) :
    lastKey? (folder ++ path) = lastKey? path := by
  rw [lastKey?, lastKey?, afterLast_append isFolder]

/-- The key at the end of a path is its last part. -/
theorem lastKey?_eq_some_iff {path : List Char} {key : String} :
    lastKey? path = some key ↔ SpellsKey key.toList ∧ IsLastPart key.toList path := by
  have name : some (String.ofList (afterLast '/' path)) = some key ↔
      afterLast '/' path = key.toList := by
    rw [Option.some_inj]
    exact ⟨fun same => by rw [← same, String.toList_ofList],
      fun same => by rw [same, String.ofList_toList]⟩
  rw [lastKey?, Option.ite_none_right_eq_some, name, isKey_iff]
  constructor
  · rintro ⟨key, same⟩
    rw [same] at key
    exact ⟨key, afterLast_eq_iff.mp same⟩
  · rintro ⟨key, last⟩
    have same := afterLast_eq_iff.mpr last
    rw [same]
    exact ⟨key, rfl⟩

/-! ### Links and pointers -/

/-- A link names the key at the end of its target, if there is a folder of objects in it; which of
several such folders is meant does not matter. -/
theorem linkKey?_eq_some_iff {target : List Char} {key : String} :
    linkKey? target = some key ↔ objectsFolder <:+: target ∧ lastKey? target = some key := by
  rw [linkKey?, ← isSome_afterLastOf?_iff]
  cases found : afterLastOf? objectsFolder target with
  | none => simp
  | some tail =>
      obtain ⟨before, rfl⟩ := exists_eq_append_of_afterLastOf? found
      rw [lastKey?_append (isFolder_objectsFolder before)]
      simp

/-- The line of a pointer has its lead and ends in its key. -/
theorem dropLead?_bind_lastKey?_eq_some_iff {line : List Char} {key : String} :
    (dropLead? pointerLead line).bind lastKey? = some key ↔
      pointerLead <+: line ∧ lastKey? line = some key := by
  simp only [Option.bind_eq_some_iff, dropLead?_eq_some_iff]
  constructor
  · rintro ⟨path, rfl, named⟩
    exact ⟨List.prefix_append pointerLead path,
      (lastKey?_append (isFolder_objectsFolder ['/']) path).trans named⟩
  · rintro ⟨⟨path, rfl⟩, named⟩
    exact ⟨path, rfl, (lastKey?_append (isFolder_objectsFolder ['/']) path).symm.trans named⟩

/-- A small text names the key at the end of its first line, if the line begins with the folder of
objects. -/
theorem pointerKey?_eq_some_iff {content : List UInt8} {key : String} :
    pointerKey? content = some key ↔ content.length ≤ maxPointerSize ∧
      ∃ text, content = Utf8.encode text ∧
        pointerLead <+: trimEnd (text.takeWhile (· != '\n')) ∧
        lastKey? (trimEnd (text.takeWhile (· != '\n'))) = some key := by
  rw [pointerKey?, Option.ite_none_left_eq_some, Nat.not_lt]
  refine and_congr_right fun _ => ?_
  simp only [← Utf8.decode_eq_ok_iff]
  cases Utf8.decode content with
  | error fault => simp
  | ok text => simpa using dropLead?_bind_lastKey?_eq_some_iff

/-- The first line of a pointer, without the blanks at its end. -/
theorem exists_head?_lines {text : List Char}
    (pointer : pointerLead <+: trimEnd (text.takeWhile (· != '\n'))) :
    ∃ line, (lines text).head? = some line ∧
      trimEnd line = trimEnd (text.takeWhile (· != '\n')) := by
  have nonempty : text ≠ [] := by
    rintro rfl
    revert pointer
    decide
  exact Option.map_eq_some_iff.mp (map_trimEnd_head?_lines nonempty)

/-- A key that stands alone in the last part of a path is the key there. -/
theorem lastKey?_folder_append {folder key : List Char} (spelled : SpellsKey key)
    (whole : '/' ∉ key) (isFolder : IsFolder folder) :
    lastKey? (folder ++ key) = some (String.ofList key) := by
  rw [lastKey?_eq_some_iff, String.toList_ofList]
  exact ⟨spelled, whole, folder, isFolder, rfl⟩

/-- **Links and pointers name the same keys.** A text is a key if it follows the grammar of keys. A
key without slashes and without blanks at its end is named by every link to it below a folder of
objects, and by every small pointer whose first line leads there. What either names is a key without
slashes, and the last part of the target or of the first line without the blanks at its end; larger
contents are no pointers. -/
theorem links_and_pointers_agree :
    (∀ text, isKey text = true ↔ SpellsKey text) ∧
    (∀ key folder : List Char, SpellsKey key → '/' ∉ key →
      (∀ c ∈ key.getLast?, isBlank c = false) → '\n' ∉ folder → IsFolder folder →
      (∀ before, linkKey? (before ++ objectsFolder ++ folder ++ key) = some (String.ofList key)) ∧
      ∀ after, (after = [] ∨ ∃ more, after = '\n' :: more) →
        (Utf8.encode (pointerLead ++ folder ++ key ++ after)).length ≤ maxPointerSize →
        pointerKey? (Utf8.encode (pointerLead ++ folder ++ key ++ after)) =
          some (String.ofList key)) ∧
    (∀ target key, linkKey? target = some key →
      SpellsKey key.toList ∧ IsLastPart key.toList target) ∧
    (∀ content key, pointerKey? content = some key →
      SpellsKey key.toList ∧ ∃ text line, content = Utf8.encode text ∧
        (lines text).head? = some line ∧ IsLastPart key.toList (trimEnd line)) ∧
    ∀ content, maxPointerSize < content.length → pointerKey? content = none := by
  refine ⟨fun text => isKey_iff, ?_, ?_, ?_, fun content large => if_pos large⟩
  · intro key folder spelled whole solid oneLine isFolder
    refine ⟨fun before => ?_, fun after ends small => ?_⟩
    · refine linkKey?_eq_some_iff.mpr ⟨⟨before, folder ++ key, (List.append_assoc _ _ _).symm⟩, ?_⟩
      exact lastKey?_folder_append spelled whole ((isFolder_objectsFolder before).append isFolder)
    · have feedless : '\n' ∉ pointerLead ++ folder ++ key := by
        simp only [List.mem_append, not_or]
        exact ⟨⟨by decide, oneLine⟩, spelled.notMem⟩
      have line : (pointerLead ++ folder ++ key ++ after).takeWhile (· != '\n') =
          pointerLead ++ folder ++ key := by
        refine takeWhile_append_eq_left ?_ fun c member => bne_iff_ne.mpr fun same =>
          feedless (same ▸ member)
        rcases ends with rfl | ⟨more, rfl⟩
        · nofun
        · simp
      have trimmed : trimEnd (pointerLead ++ folder ++ key) = pointerLead ++ folder ++ key := by
        refine trimEnd_eq_self ?_
        rwa [List.getLast?_append_of_ne_nil _ spelled.ne_nil]
      refine pointerKey?_eq_some_iff.mpr ⟨small, _, rfl, ?_⟩
      rw [line, trimmed]
      refine ⟨⟨folder ++ key, (List.append_assoc _ _ _).symm⟩, ?_⟩
      exact lastKey?_folder_append spelled whole ((isFolder_objectsFolder ['/']).append isFolder)
  · intro target key named
    exact lastKey?_eq_some_iff.mp (linkKey?_eq_some_iff.mp named).2
  · intro content key named
    obtain ⟨-, text, spelled, lead, last⟩ := pointerKey?_eq_some_iff.mp named
    obtain ⟨line, first, same⟩ := exists_head?_lines lead
    obtain ⟨key, part⟩ := lastKey?_eq_some_iff.mp (same ▸ last)
    exact ⟨key, text, line, spelled, first, part⟩

/-- A key with dashes in its rest, below a folder of objects inside another one. -/
theorem links_and_pointers_agree_of_nested :
    let key := "WORM-s5-m1600000000--annex-objects--a.mp3"
    let folder := "pX/annex/objects/ZJ".toList ++ ['/']
    let target := "../.git/".toList ++ objectsFolder ++ folder ++ key.toList
    let content := Utf8.encode (pointerLead ++ folder ++ key.toList ++ "\n/annex/".toList)
    let large : List UInt8 := List.replicate 32769 47
    SpellsKey key.toList ∧ '/' ∉ key.toList ∧ (∀ c ∈ key.toList.getLast?, isBlank c = false) ∧
      '\n' ∉ folder ∧ IsFolder folder ∧ content.length ≤ maxPointerSize ∧
      linkKey? target = some key ∧ IsLastPart key.toList target ∧
      pointerKey? content = some key ∧
      (∃ text line, content = Utf8.encode text ∧ (lines text).head? = some line ∧
        IsLastPart key.toList (trimEnd line)) ∧
      maxPointerSize < large.length ∧ pointerKey? large = none := by
  intro key folder target content large
  have spelled : SpellsKey key.toList := by decide
  have whole : '/' ∉ key.toList := by decide
  have solid : ∀ c ∈ key.toList.getLast?, isBlank c = false := by
    have last : key.toList.getLast? = some '3' := by decide
    rw [last]
    rintro c ⟨⟩
    rfl
  have oneLine : '\n' ∉ folder := by decide
  have isFolder : IsFolder folder := isFolder_slash _
  have small : content.length ≤ maxPointerSize := by decide +kernel
  have big : maxPointerSize < large.length := by
    rw [List.length_replicate]
    decide
  obtain ⟨-, named, lastOfLink, lastOfPointer, refused⟩ := links_and_pointers_agree
  obtain ⟨links, pointers⟩ := named key.toList folder spelled whole solid oneLine isFolder
  rw [String.ofList_toList] at links pointers
  have link : linkKey? target = some key := links "../.git/".toList
  have pointer : pointerKey? content = some key :=
    pointers "\n/annex/".toList (.inr ⟨"/annex/".toList, rfl⟩) small
  exact ⟨spelled, whole, solid, oneLine, isFolder, small, link, (lastOfLink target key link).2,
    pointer, (lastOfPointer content key pointer).2, big, refused large big⟩

end AnnexCatalog.Git
