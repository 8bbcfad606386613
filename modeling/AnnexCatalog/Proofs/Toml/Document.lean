import AnnexCatalog.Proofs.Text.Pieces
import AnnexCatalog.Proofs.Toml.Number
import AnnexCatalog.Proofs.Toml.Text
import AnnexCatalog.Toml.Document

/-! # Documents of sections read back

A document of sections is written as headers and entries, a line for each, with an empty line before
every section but the first (`writeBlocks`). Its lines are read one after another as the statements
that they spell (`Spells.readStatements`).
-/

namespace AnnexCatalog.Toml

/-! ### Names -/

/-- A name that can be written without quotes. -/
def IsBareName (name : String) : Prop :=
  name.toList ≠ [] ∧ ∀ c ∈ name.toList, isBare c = true

instance (name : String) : Decidable (IsBareName name) :=
  @instDecidableAnd _ _ inferInstance (List.decidableBAll _ _)

theorem IsBareName.exists_cons {name : String} (bare : IsBareName name) :
    ∃ c rest, name.toList = c :: rest ∧ isBare c = true := by
  obtain ⟨c, rest, written⟩ := List.exists_cons_of_ne_nil bare.1
  exact ⟨c, rest, written, bare.2 c (written ▸ List.mem_cons_self)⟩

theorem IsBareName.append_ne_bracket {name : String} (bare : IsBareName name)
    (tail rest : List Char) : name.toList ++ tail ≠ '[' :: rest := by
  obtain ⟨c, more, written, letter⟩ := bare.exists_cons
  intro same
  rw [written] at same
  rw [(List.cons.inj same).1] at letter
  exact absurd letter (by decide)

/-- Bare characters are no space. -/
theorem isSpace_of_isBare {c : Char} (bare : isBare c = true) : isSpace c = false := by
  rw [← Bool.not_eq_true]
  intro space
  rw [isSpace, Bool.or_eq_true, beq_iff_eq, beq_iff_eq] at space
  rcases space with rfl | rfl
  · exact absurd bare (by decide)
  · exact absurd bare (by decide)

theorem skipSpace_cons {c : Char} (solid : isSpace c = false) (rest : List Char) :
    skipSpace (c :: rest) = c :: rest := by
  rw [skipSpace, List.dropWhile_cons, solid, if_neg Bool.false_ne_true]

/-- A name without quotes is read up to the first other character. -/
theorem readKey_append {name : String} (bare : IsBareName name) {tail : List Char}
    (ends : ∀ c ∈ tail.head?, isBare c = false) (whole : (skipSpace tail).head? ≠ some '.') :
    readKey (name.toList ++ tail) = some (⟨[], name⟩, skipSpace tail) := by
  have named : readName (name.toList ++ tail) = some (name.toList, tail) := by
    rw [readName, Text.takeWhile_append_eq_left ends bare.2,
      Text.dropWhile_append_eq_right ends bare.2]
    exact if_neg (mt List.isEmpty_iff.mp bare.1)
  have flush : skipSpace (name.toList ++ tail) = name.toList ++ tail := by
    obtain ⟨c, rest, written, solid⟩ := bare.exists_cons
    rw [written]
    exact skipSpace_cons (isSpace_of_isBare solid) _
  have names : readNames (nestingBound - 1) (name.toList ++ tail) =
      some ([name], skipSpace tail) := by
    rw [nestingBound, readNames, flush, named]
    simp only [Option.bind_eq_bind, Option.bind_some, String.ofList_toList]
    split
    · next rest same =>
        rw [same] at whole
        exact absurd rfl whole
    · rfl
  rw [readKey, names]
  rfl

/-! ### Settings -/

/-- A value of a document of settings. -/
inductive Setting where
  | text (value : String)
  | number (value : Nat)
deriving DecidableEq, Repr

namespace Setting

def written : Setting → List Char
  | text value => writeText value.toList
  | number value => (toString value).toList

def value : Setting → Value
  | text value => .text value
  | number value => .integer value

/-- No number has more than 63 bits. -/
def Fits : Setting → Prop
  | text _ => True
  | number value => value < Nat.pow 2 63

end Setting

/-- A text is written with a quote of one kind or the other at its front. -/
theorem exists_writeText (text : List Char) :
    ∃ quote rest, (quote = '"' ∨ quote = '\'') ∧ writeText text = quote :: rest := by
  unfold writeText
  extract_lets
  split_ifs
  · exact ⟨_, _, .inl rfl, rfl⟩
  · exact ⟨_, _, .inr rfl, rfl⟩
  · exact ⟨_, _, .inl rfl, rfl⟩
  · exact ⟨_, _, .inr rfl, rfl⟩
  · exact ⟨_, _, .inl rfl, rfl⟩
  · exact ⟨_, _, .inl rfl, rfl⟩

/-- A setting is read as it was written. -/
theorem readSimple_written {setting : Setting} (fits : setting.Fits) (rest : List Char) :
    readSimple (setting.written ++ '\n' :: rest) = some (setting.value, '\n' :: rest) := by
  cases setting with
  | text value =>
      have read := readText_writeText value.toList rest
      obtain ⟨quote, more, quoted, written⟩ := exists_writeText value.toList
      rw [Setting.written]
      rw [written] at read ⊢
      rw [List.cons_append] at read ⊢
      rw [readSimple, if_pos quoted, read]
      simp [Setting.value]
  | number value =>
      have read := readNumber_toString fits rest
      obtain ⟨c, more, written, digit⟩ := exists_cons_toString value
      have other {mark : Char} (letter : mark.isDigit = false) : c ≠ mark := by
        rintro rfl
        rw [digit] at letter
        cases letter
      rw [Setting.written]
      rw [written] at read ⊢
      rw [List.cons_append] at read ⊢
      rw [readSimple, if_neg (not_or.mpr ⟨other (by decide), other (by decide)⟩),
        if_neg (other (by decide)), if_neg (other (by decide)), read]
      rfl

/-- A setting begins with a quote or a digit. -/
theorem Setting.exists_written (setting : Setting) :
    ∃ first rest, setting.written = first :: rest ∧
      (first = '"' ∨ first = '\'' ∨ first.isDigit = true) := by
  cases setting with
  | text value =>
      obtain ⟨quote, rest, quoted, written⟩ := exists_writeText value.toList
      exact ⟨quote, rest, written, or_assoc.mp (.inl quoted)⟩
  | number value =>
      obtain ⟨c, rest, written, digit⟩ := exists_cons_toString value
      exact ⟨c, rest, written, .inr (.inr digit)⟩

/-- The value of a setting is read as it was written. -/
theorem readValue_written {setting : Setting} (fits : setting.Fits) (levels : Nat)
    (rest : List Char) :
    readValue levels (setting.written ++ '\n' :: rest) = some (setting.value, '\n' :: rest) := by
  have read := readSimple_written fits rest
  obtain ⟨first, more, written, begins⟩ := setting.exists_written
  rw [written, List.cons_append] at read ⊢
  cases levels with
  | zero => exact read
  | succ levels =>
      -- Neither an array nor a table between braces begins here.
      have other {mark : Char} (opening : mark ≠ '"' ∧ mark ≠ '\'' ∧ mark.isDigit = false) :
          ∀ tail, first :: (more ++ '\n' :: rest) = mark :: tail → False := by
        intro tail same
        obtain ⟨rfl, -⟩ := List.cons.inj same
        rcases begins with double | single | digit
        · exact opening.1 double
        · exact opening.2.1 single
        · exact Bool.false_ne_true (opening.2.2.symm.trans digit)
      rw [readValue]
      · exact read
      · exact other (by decide)
      · exact other (by decide)

/-! ### Lines -/

theorem writeHeader_append (name : String) (rest : List Char) :
    writeHeader name ++ rest = '[' :: (name.toList ++ ']' :: '\n' :: rest) := by
  simp [writeHeader]

theorem writeEntry_append (name : String) (value rest : List Char) :
    writeEntry name value ++ rest =
      name.toList ++ ' ' :: '=' :: ' ' :: (value ++ '\n' :: rest) := by
  simp [writeEntry]

/-- A header is read as it was written. -/
theorem readStatement_header {name : String} (bare : IsBareName name) (rest : List Char) :
    readStatement (writeHeader name ++ rest) = some (.header ⟨[], name⟩, rest) := by
  have key : readKey (name.toList ++ ']' :: '\n' :: rest) =
      some (⟨[], name⟩, ']' :: '\n' :: rest) :=
    readKey_append bare (by simp [isBare]) (by simp [skipSpace, isSpace])
  have read : readHeader (name.toList ++ ']' :: '\n' :: rest) =
      some (.header ⟨[], name⟩, '\n' :: rest) := by
    unfold readHeader
    split
    · next same => exact absurd same (bare.append_ne_bracket _ _)
    · rw [key]
      rfl
  rw [writeHeader_append, readStatement]
  dsimp only
  rw [read]
  rfl

/-- An entry is read as it was written. -/
theorem readStatement_entry {name : String} (bare : IsBareName name) {setting : Setting}
    (fits : setting.Fits) (rest : List Char) :
    readStatement (writeEntry name setting.written ++ rest) =
      some (.entry ⟨[], name⟩ setting.value, rest) := by
  have key : readKey (name.toList ++ ' ' :: '=' :: ' ' :: (setting.written ++ '\n' :: rest)) =
      some (⟨[], name⟩, '=' :: ' ' :: (setting.written ++ '\n' :: rest)) :=
    readKey_append bare (by simp [isBare]) (by simp [skipSpace, isSpace])
  have flush : skipSpace (' ' :: (setting.written ++ '\n' :: rest)) =
      setting.written ++ '\n' :: rest := by
    obtain ⟨first, more, written, begins⟩ := setting.exists_written
    have solid : isSpace first = false := by
      rcases begins with rfl | rfl | digit
      · rfl
      · rfl
      · exact isSpace_of_isBare (by simp [isBare, Char.isAlphanum, digit])
    rw [written]
    exact skipSpace_cons solid _
  have pair : readPair (readValue (nestingBound - 1))
      (name.toList ++ ' ' :: '=' :: ' ' :: (setting.written ++ '\n' :: rest)) =
        some ((⟨[], name⟩, setting.value), '\n' :: rest) := by
    rw [readPair, key]
    simp [after?, flush, readValue_written fits]
  rw [writeEntry_append]
  unfold readStatement
  split
  · next same => exact absurd same (bare.append_ne_bracket _ _)
  · rw [pair]
    rfl

/-- A line with a statement is followed by the statements of the next lines. -/
theorem readStatements_append {first : Char} {more text : List Char} {statement : Statement}
    {statements : List Statement} {count : Nat} (begins : isBare first = true ∨ first = '[')
    (read : readStatement (first :: more ++ text) = some (statement, text))
    (later : ∀ {count}, text.length ≤ count → readStatements count text = some statements)
    (enough : (first :: more ++ text).length ≤ count) :
    readStatements count (first :: more ++ text) = some (statement :: statements) := by
  have other : isSpace first = false ∧ ¬ (first = '#' ∨ first = '\n' ∨ first = '\r') := by
    rcases begins with bare | rfl
    · refine ⟨isSpace_of_isBare bare, ?_⟩
      rintro (rfl | rfl | rfl)
      all_goals exact absurd bare (by decide)
    · decide
  rw [List.cons_append] at read enough ⊢
  cases count with
  | zero => exact absurd enough (Nat.not_succ_le_zero _)
  | succ count =>
      have fewer : text.length ≤ count := by
        rw [List.length_cons, List.length_append] at enough
        omega
      rw [readStatements, skipSpace_cons other.1]
      dsimp only
      rw [if_neg other.2, read]
      simp [later fewer]

/-- Lines that spell statements. -/
inductive Spells : List Char → List Statement → Prop
  | nil : Spells [] []
  | blank {text : List Char} {statements : List Statement} (later : Spells text statements) :
      Spells ('\n' :: text) statements
  | header {name : String} {text : List Char} {statements : List Statement}
      (bare : IsBareName name) (later : Spells text statements) :
      Spells (writeHeader name ++ text) (.header ⟨[], name⟩ :: statements)
  | entry {name : String} {setting : Setting} {text : List Char} {statements : List Statement}
      (bare : IsBareName name) (fits : setting.Fits) (later : Spells text statements) :
      Spells (writeEntry name setting.written ++ text)
        (.entry ⟨[], name⟩ setting.value :: statements)

/-- Lines are read as the statements that they spell. -/
theorem Spells.readStatements {text : List Char} {statements : List Statement}
    (spells : Spells text statements) {count : Nat} (enough : text.length ≤ count) :
    readStatements count text = some statements := by
  induction spells generalizing count with
  | nil => cases count <;> rfl
  | blank later step =>
      cases count with
      | zero => exact absurd enough (Nat.not_succ_le_zero _)
      | succ count => exact step (Nat.le_of_succ_le_succ enough)
  | header bare later step =>
      exact readStatements_append (.inr rfl) (readStatement_header bare _) step enough
  | @entry name setting text statements bare fits later step =>
      obtain ⟨first, more, written, letter⟩ := bare.exists_cons
      have read := readStatement_entry bare fits text
      have line : writeEntry name setting.written =
          first :: (more ++ [' ', '=', ' '] ++ setting.written ++ ['\n']) := by
        rw [writeEntry, written]
        rfl
      rw [line] at read enough ⊢
      exact readStatements_append (.inl letter) read step enough

/-! ### Sections -/

/-- A section of a document. -/
structure Block where
  name : String
  entries : List (String × Setting)

namespace Block

def written (block : Block) : List Char :=
  writeHeader block.name ++
    block.entries.flatMap fun (name, setting) => writeEntry name setting.written

def statements (block : Block) : List Statement :=
  .header ⟨[], block.name⟩ ::
    block.entries.map fun (name, setting) => .entry ⟨[], name⟩ setting.value

/-- The named values of a section. -/
def values (block : Block) : Entries :=
  block.entries.map fun (name, setting) => (name, setting.value)

/-- A section with plain names, each of them once, and without numbers that are too big. -/
structure Legible (block : Block) : Prop where
  bare : IsBareName block.name
  entries_bare : ∀ entry ∈ block.entries, IsBareName entry.1 ∧ entry.2.Fits
  distinct : (block.entries.map Prod.fst).Nodup

/-- A block is read as its statements, before those of the text after it. -/
theorem Legible.spells {block : Block} (legible : block.Legible) {text : List Char}
    {statements : List Statement} (later : Spells text statements) :
    Spells (block.written ++ text) (block.statements ++ statements) := by
  have entries {entries : List (String × Setting)}
      (bare : ∀ entry ∈ entries, IsBareName entry.1 ∧ entry.2.Fits) :
      Spells ((entries.flatMap fun (name, setting) => writeEntry name setting.written) ++ text)
        ((entries.map fun (name, setting) => .entry ⟨[], name⟩ setting.value) ++ statements) := by
    induction entries with
    | nil => exact later
    | cons entry entries step =>
        obtain ⟨first, others⟩ := List.forall_mem_cons.mp bare
        rw [List.flatMap_cons, List.append_assoc]
        exact .entry first.1 first.2 (step others)
  rw [written, List.append_assoc]
  exact .header legible.bare (entries legible.entries_bare)

end Block

/-- A document of sections: an empty line stands before every section but the first. -/
def writeBlocks : List Block → List Char
  | [] => []
  | first :: rest => first.written ++ rest.flatMap fun block => '\n' :: block.written

/-- A written document spells the statements of its sections. -/
theorem spells_writeBlocks {blocks : List Block} (legible : ∀ block ∈ blocks, block.Legible) :
    Spells (writeBlocks blocks) (blocks.flatMap Block.statements) := by
  have following {blocks : List Block} (legible : ∀ block ∈ blocks, block.Legible) :
      Spells (blocks.flatMap fun block => '\n' :: block.written)
        (blocks.flatMap Block.statements) := by
    induction blocks with
    | nil => exact .nil
    | cons block blocks step =>
        obtain ⟨first, others⟩ := List.forall_mem_cons.mp legible
        rw [List.flatMap_cons, List.flatMap_cons, List.cons_append]
        exact .blank (first.spells (step others))
  cases blocks with
  | nil => exact .nil
  | cons block blocks =>
      obtain ⟨first, others⟩ := List.forall_mem_cons.mp legible
      rw [List.flatMap_cons]
      exact first.spells (following others)

end AnnexCatalog.Toml
