import AnnexCatalog.Query.Clause
import AnnexCatalog.Outcome
import AnnexCatalog.Proofs.Text.Pieces
import Mathlib.Data.List.TakeWhile

/-! # The grammar of clauses

Readers take a part off the front of a text. What they take is described by relations between the
written form, its meaning and the text that follows, which matters only where a word has to end: it
has to begin with a blank or a bar there. `takeClause_eq_ok_iff` says that the reader of clauses
takes exactly the written form of a clause.
-/

namespace AnnexCatalog.Query

open Text

/-! ### Words and quotations -/

/-- A word before a text: all characters up to the first one that ends a word, the first of them no
quote. -/
structure IsWord (word following : List Char) : Prop where
  nonempty : word ≠ []
  letters : ∀ c ∈ word, endsWord c = false
  ends : atBoundary following = true
  unquoted : word.head? ≠ some '"'

/-- A value and the form in which it is written before a text: between quotes, or as a word. -/
inductive Written : (written value following : List Char) → Prop where
  | quotation {body following : List Char} (closed : '"' ∉ body) :
      Written ('"' :: (body ++ ['"'])) body following
  | word {word following : List Char} (shape : IsWord word following) : Written word word following

/-- A word is taken up to a boundary, and nothing in it ends it before. -/
theorem takeWord_eq_iff {text word rest : List Char} :
    takeWord text = (word, rest) ↔
      text = word ++ rest ∧ (∀ c ∈ word, endsWord c = false) ∧ atBoundary rest = true := by
  constructor
  · intro same
    cases same
    refine ⟨(List.takeWhile_append_dropWhile).symm, ?_, ?_⟩
    · intro c member
      simpa using List.mem_takeWhile_imp member
    · cases left : text.dropWhile fun c => !endsWord c with
      | nil => rfl
      | cons c rest =>
          have stopped := List.head?_dropWhile_not (fun c => !endsWord c) text
          rw [left] at stopped
          simpa [atBoundary] using stopped
  · rintro ⟨rfl, letters, ends⟩
    have passed : ∀ c ∈ word, (!endsWord c) = true := fun c member => by simp [letters c member]
    have stops : ∀ c ∈ rest.head?, (!endsWord c) = false := by
      cases rest with
      | nil => exact nofun
      | cons c rest =>
          intro other first
          cases first
          have ending : endsWord c = true := ends
          rw [ending, Bool.not_true]
    rw [takeWord, takeWhile_append_eq_left stops passed, dropWhile_append_eq_right stops passed]

/-- A quotation is taken up to the first quote. -/
theorem takeQuotation_eq_ok_iff {text body rest : List Char} :
    takeQuotation text = .ok (body, rest) ↔ text = body ++ '"' :: rest ∧ '"' ∉ body := by
  rw [← splitFirst?_eq_some_iff, takeQuotation]
  cases splitFirst? '"' text <;> simp

/-- A word is read where none of its marks of another form stands. -/
theorem takeWord_eq_iff_isWord {text word rest : List Char} (inside : atBoundary text = false)
    (unquoted : text.head? ≠ some '"') :
    takeWord text = (word, rest) ↔ text = word ++ rest ∧ IsWord word rest := by
  rw [takeWord_eq_iff]
  constructor
  · rintro ⟨rfl, letters, ends⟩
    cases word with
    | nil =>
        rw [List.nil_append, ends] at inside
        cases inside
    | cons c others => exact ⟨rfl, List.cons_ne_nil _ _, letters, ends, unquoted⟩
  · rintro ⟨split, shape⟩
    exact ⟨split, shape.letters, shape.ends⟩

theorem IsWord.atBoundary_append {word following : List Char} (shape : IsWord word following)
    (rest : List Char) : atBoundary (word ++ rest) = false := by
  cases word with
  | nil => exact absurd rfl shape.nonempty
  | cons c others => exact shape.letters c List.mem_cons_self

theorem IsWord.head?_append {word following : List Char} (shape : IsWord word following)
    (rest : List Char) : (word ++ rest).head? = word.head? := by
  cases word with
  | nil => exact absurd rfl shape.nonempty
  | cons c others => rfl

/-- A word stands before another text, too, if it ends there as well. -/
theorem IsWord.of_atBoundary {word following other : List Char} (shape : IsWord word following)
    (ends : atBoundary following = true → atBoundary other = true) : IsWord word other :=
  { shape with ends := ends shape.ends }

/-- A value that is written before a text is written before another in the same way, if that is a
boundary whenever the first one is. -/
theorem Written.of_atBoundary {written value following other : List Char}
    (shape : Written written value following)
    (ends : atBoundary following = true → atBoundary other = true) :
    Written written value other := by
  cases shape with
  | quotation closed => exact .quotation closed
  | word shape => exact .word (shape.of_atBoundary ends)

/-- The reader of values takes a quotation or a word. -/
theorem takeValue_eq_ok_iff {missing : Fault} {text value rest : List Char} :
    takeValue missing text = .ok (value, rest) ↔
      ∃ written, text = written ++ rest ∧ Written written value rest := by
  rw [takeValue.eq_def]
  split
  · rw [takeQuotation_eq_ok_iff]
    constructor
    · rintro ⟨rfl, closed⟩
      exact ⟨_, by simp, .quotation closed⟩
    · rintro ⟨written, split, closed | shape⟩
      · refine ⟨?_, closed⟩
        simpa using split
      · have head := congrArg List.head? split
        rw [shape.head?_append] at head
        exact absurd head.symm shape.unquoted
  · next unquoted =>
      have plain : text.head? ≠ some '"' := by
        cases text with
        | nil => exact nofun
        | cons c body =>
            rintro same
            cases same
            exact unquoted body rfl
      constructor
      · intro found
        split at found
        · cases found
        · next inside =>
            have word := Except.ok.inj found
            obtain ⟨split, shape⟩ :=
              (takeWord_eq_iff_isWord (Bool.eq_false_iff.mpr inside) plain).mp word
            exact ⟨value, split, .word shape⟩
      · rintro ⟨written, rfl, closed | shape⟩
        · exact absurd rfl plain
        · have inside := shape.atBoundary_append rest
          rw [inside, if_neg Bool.false_ne_true,
            (takeWord_eq_iff_isWord inside plain).mpr ⟨rfl, shape⟩]

/-! ### Filters -/

/-- The characters that tell the form of a value after a colon. -/
def leads : List Char :=
  ['=', '>', '<', '"']

/-- The marks of comparisons and what they mean. -/
def comparisons : List (List Char × Operator) :=
  [(['>', '='], .atLeast), (['<', '='], .atMost), (['>'], .above), (['<'], .below)]

/-- A filter on a field and the form in which it is written after the colon. -/
inductive FilterText (field : Field) : (written following : List Char) → Filter → Prop where
  | comparison {mark written value following : List Char} {operator : Operator}
      (marked : (mark, operator) ∈ comparisons) (numeric : field.isNumeric = true)
      (shape : Written written value following) (number : (numberOf? value).isSome = true) :
      FilterText field (mark ++ written) following
        { field, operator, value := String.ofList value }
  | exact {written value following : List Char} (shape : Written written value following) :
      FilterText field ('=' :: written) following
        { field, operator := .exact, value := String.ofList value }
  | quotation {body following : List Char} (closed : '"' ∉ body) :
      FilterText field ('"' :: (body ++ ['"'])) following (quotationFilter field body)
  | word {word following : List Char} {filter : Filter} (shape : IsWord word following)
      (plain : ∀ c ∈ leads, word.head? ≠ some c)
      (meaning : wordFilter field [] word = .ok filter) : FilterText field word following filter

/-- The text of a filter is written before another text in the same way, if that is a boundary
whenever the first one is. -/
theorem FilterText.of_atBoundary {field : Field} {written following other : List Char}
    {filter : Filter} (shape : FilterText field written following filter)
    (ends : atBoundary following = true → atBoundary other = true) :
    FilterText field written other filter := by
  cases shape with
  | comparison marked numeric shape number =>
      exact .comparison marked numeric (shape.of_atBoundary ends) number
  | exact shape => exact .exact (shape.of_atBoundary ends)
  | quotation closed => exact .quotation closed
  | word shape plain meaning => exact .word (shape.of_atBoundary ends) plain meaning

/-- A comparison is taken with its longest mark. -/
theorem takeComparison?_eq_some_iff {operator : Operator} {text rest : List Char} :
    takeComparison? text = some (operator, rest) ↔
      ∃ mark, (mark, operator) ∈ comparisons ∧ text = mark ++ rest ∧
        (mark.length = 1 → rest.head? ≠ some '=') := by
  constructor
  · intro found
    rw [takeComparison?.eq_def] at found
    split at found
    · cases found
      exact ⟨['>', '='], by decide, rfl, nofun⟩
    · cases found
      exact ⟨['<', '='], by decide, rfl, nofun⟩
    · next longer =>
        cases found
        refine ⟨['>'], by decide, rfl, fun _ head => ?_⟩
        obtain ⟨others, rfl⟩ := List.head?_eq_some_iff.mp head
        exact longer _ rfl
    · next longer =>
        cases found
        refine ⟨['<'], by decide, rfl, fun _ head => ?_⟩
        obtain ⟨others, rfl⟩ := List.head?_eq_some_iff.mp head
        exact longer _ rfl
    · cases found
  · rintro ⟨mark, marked, rfl, longest⟩
    simp only [comparisons, List.mem_cons, Prod.mk.injEq, List.not_mem_nil, or_false] at marked
    rcases marked with ⟨rfl, rfl⟩ | ⟨rfl, rfl⟩ | ⟨rfl, rfl⟩ | ⟨rfl, rfl⟩
    · rfl
    · rfl
    all_goals
      cases rest with
      | nil => rfl
      | cons c others =>
          have shorter : c ≠ '=' := fun same => longest rfl (congrArg some same)
          simp [takeComparison?, shorter]

/-- A number does not begin with an equals sign. -/
theorem numberOf?_equals (rest : List Char) : numberOf? ('=' :: rest) = none := by
  have trimmed : ∃ others, trim ('=' :: rest) = '=' :: others := by
    have start : trimStart ('=' :: rest) = '=' :: rest := rfl
    have kept : isBlank '=' = false := by decide
    rw [trim, start, trimEnd, List.reverse_cons, List.dropWhile_append]
    split
    · exact ⟨[], by simp [kept]⟩
    · exact ⟨_, by rw [List.reverse_append]; rfl⟩
  obtain ⟨others, trimmed⟩ := trimmed
  unfold numberOf? Binary64.parse?
  rw [String.toList_ofList, trimmed]
  rfl

/-- What a word means after a colon does not depend on the place where faults are reported. -/
theorem wordFilter_eq_ok_iff {field : Field} {word : List Char} {filter : Filter}
    (place : List Char) :
    wordFilter field place word = .ok filter ↔ wordFilter field [] word = .ok filter := by
  unfold wordFilter
  split
  · exact Iff.rfl
  · split
    · simp
    · exact Iff.rfl

/-- No comparison is taken from a text that does not begin with one of their marks. -/
theorem takeComparison?_eq_none_iff {text : List Char} :
    takeComparison? text = none ↔ text.head? ≠ some '>' ∧ text.head? ≠ some '<' := by
  unfold takeComparison?
  split <;> simp_all [List.head?_eq_some_iff]

/-- What the reader of filters takes is the written form of a filter. -/
theorem exists_filterText {field : Field} {clause text rest : List Char} {filter : Filter}
    (found : takeFilter field clause text = .ok (filter, rest)) :
    ∃ written, text = written ++ rest ∧ FilterText field written rest filter := by
  rw [takeFilter.eq_def] at found
  split at found
  · next operator after compared =>
      obtain ⟨mark, marked, rfl, -⟩ := takeComparison?_eq_some_iff.mp compared
      split at found
      · cases found
      · next numeric =>
          obtain ⟨⟨value, left⟩, taken, result⟩ := bind_eq_ok_iff.mp found
          obtain ⟨written, rfl, shape⟩ := takeValue_eq_ok_iff.mp taken
          dsimp only at result
          split at result
          · next number =>
              cases result
              refine ⟨mark ++ written, (List.append_assoc _ _ _).symm, ?_⟩
              exact .comparison marked (by simpa using numeric) shape number
          · cases result
  · next uncompared =>
      obtain ⟨notAbove, notBelow⟩ := takeComparison?_eq_none_iff.mp uncompared
      split at found
      · obtain ⟨⟨value, left⟩, taken, result⟩ := bind_eq_ok_iff.mp found
        obtain ⟨written, rfl, shape⟩ := takeValue_eq_ok_iff.mp taken
        cases result
        exact ⟨'=' :: written, rfl, .exact shape⟩
      · obtain ⟨⟨value, left⟩, taken, result⟩ := bind_eq_ok_iff.mp found
        obtain ⟨rfl, closed⟩ := takeQuotation_eq_ok_iff.mp taken
        cases result
        exact ⟨_, by simp, .quotation closed⟩
      · next _ unequal unquoted =>
          have plain : ∀ c ∈ leads, text.head? ≠ some c := by
            simp only [leads, List.forall_mem_cons]
            refine ⟨fun head => ?_, notAbove, notBelow, fun head => ?_, nofun⟩
            · obtain ⟨others, same⟩ := List.head?_eq_some_iff.mp head
              exact unequal others same
            · obtain ⟨others, same⟩ := List.head?_eq_some_iff.mp head
              exact unquoted others same
          split at found
          · cases found
          · next inside =>
              obtain ⟨result, meaning, same⟩ := bind_eq_ok_iff.mp found
              cases same
              have taken : takeWord text = ((takeWord text).1, (takeWord text).2) := rfl
              obtain ⟨split, shape⟩ := (takeWord_eq_iff_isWord (Bool.eq_false_iff.mpr inside)
                (plain '"' (by decide))).mp taken
              refine ⟨_, split, .word shape ?_ ((wordFilter_eq_ok_iff text).mp meaning)⟩
              rw [← shape.head?_append, ← split]
              exact plain

/-- The reader of filters takes the written form of a filter. -/
theorem takeFilter_append {field : Field} {written rest : List Char} {filter : Filter}
    (shape : FilterText field written rest filter) (clause : List Char) :
    takeFilter field clause (written ++ rest) = .ok (filter, rest) := by
  rw [takeFilter.eq_def]
  cases shape with
  | @comparison mark written value _ operator marked numeric shape number =>
      have longest : mark.length = 1 → (written ++ rest).head? ≠ some '=' := by
        rintro - head
        cases shape with
        | quotation closed => cases head
        | word shape =>
            rw [shape.head?_append] at head
            obtain ⟨others, rfl⟩ := List.head?_eq_some_iff.mp head
            rw [numberOf?_equals] at number
            cases number
      have compared := takeComparison?_eq_some_iff.mpr
        ⟨mark, marked, List.append_assoc _ _ _, longest⟩
      rw [compared]
      simp only [numeric, Bool.not_true, Bool.false_eq_true, ↓reduceIte]
      refine bind_eq_ok_iff.mpr ⟨_, takeValue_eq_ok_iff.mpr ⟨written, rfl, shape⟩, ?_⟩
      exact if_pos number
  | exact shape =>
      exact bind_eq_ok_iff.mpr ⟨_, takeValue_eq_ok_iff.mpr ⟨_, rfl, shape⟩, rfl⟩
  | quotation closed =>
      exact bind_eq_ok_iff.mpr ⟨_, takeQuotation_eq_ok_iff.mpr ⟨by simp, closed⟩, rfl⟩
  | word shape plain meaning =>
      have inside := shape.atBoundary_append rest
      rw [← shape.head?_append rest] at plain
      rw [takeComparison?_eq_none_iff.mpr ⟨plain '>' (by decide), plain '<' (by decide)⟩]
      dsimp only
      split
      · next same => exact absurd (congrArg List.head? same) (plain '=' (by decide))
      · next same => exact absurd (congrArg List.head? same) (plain '"' (by decide))
      · have taken := (takeWord_eq_iff_isWord inside (plain '"' (by decide))).mpr ⟨rfl, shape⟩
        rw [inside, if_neg Bool.false_ne_true, taken]
        exact bind_eq_ok_iff.mpr ⟨_, (wordFilter_eq_ok_iff _).mpr meaning, rfl⟩

/-! ### Names -/

/-- The name of a field as it stands before a colon: a letter, then letters, digits and
underscores. -/
structure IsName (name : List Char) : Prop where
  begins : ∃ c ∈ name.head?, c.isAlpha = true
  letters : ∀ c ∈ name, isNameLetter c = true

/-- Whether a text begins with a name and a colon. -/
def IsNamed (text : List Char) : Prop :=
  ∃ name rest, IsName name ∧ text = name ++ ':' :: rest

/-- A name is taken up to its colon. -/
theorem takeName?_eq_some_iff {text name rest : List Char} :
    takeName? text = some (name, rest) ↔ text = name ++ ':' :: rest ∧ IsName name := by
  constructor
  · intro found
    rw [takeName?] at found
    split at found
    · next first others rest left right =>
        split at found
        · next alphabetic =>
            cases found
            refine ⟨?_, ⟨first, rfl, alphabetic⟩, ?_⟩
            · rw [← left, ← right, List.takeWhile_append_dropWhile]
            · intro c member
              rw [← left] at member
              exact List.mem_takeWhile_imp member
        · cases found
    · cases found
  · rintro ⟨rfl, ⟨first, head, alphabetic⟩, letters⟩
    obtain ⟨others, rfl⟩ := List.head?_eq_some_iff.mp head
    have colon : ∀ c ∈ (':' :: rest).head?, isNameLetter c = false := by
      intro c first
      cases first
      decide
    rw [takeName?, takeWhile_append_eq_left colon letters, dropWhile_append_eq_right colon letters]
    exact if_pos alphabetic

/-- No name is taken from a text that does not begin with a name and a colon. -/
theorem takeName?_eq_none_iff {text : List Char} : takeName? text = none ↔ ¬ IsNamed text := by
  rw [← Option.not_isSome_iff_eq_none, Option.isSome_iff_exists]
  simp only [Prod.exists, takeName?_eq_some_iff, IsNamed, and_comm]

/-- The letters of a name end no word. -/
theorem endsWord_of_isNameLetter {c : Char} (letter : isNameLetter c = true) :
    endsWord c = false := by
  have point : c.val.toNat = c.toNat := rfl
  have bar : c ≠ '|' := by
    rintro rfl
    cases letter
  have ranges : (97 ≤ c.toNat ∧ c.toNat ≤ 122) ∨ (65 ≤ c.toNat ∧ c.toNat ≤ 90) ∨
      (48 ≤ c.toNat ∧ c.toNat ≤ 57) ∨ c.toNat = 95 := by
    delta isNameLetter Char.isAlphanum Char.isAlpha Char.isUpper Char.isLower Char.isDigit at letter
    simp only [Bool.or_eq_true, Bool.and_eq_true, decide_eq_true_eq, beq_iff_eq, ge_iff_le,
      UInt32.le_iff_toNat_le, point] at letter
    rcases letter with ((upper | lower) | digit) | rfl
    · exact .inr (.inl upper)
    · exact .inl lower
    · exact .inr (.inr (.inl digit))
    · exact .inr (.inr (.inr rfl))
  simp only [endsWord, bar, isBlank, Bool.or_eq_false_iff, Bool.and_eq_false_iff,
    decide_eq_false_iff_not, beq_eq_false_iff_ne, ne_eq, not_false_eq_true, and_true]
  omega

theorem IsName.ne_nil {name : List Char} (shape : IsName name) : name ≠ [] := by
  obtain ⟨c, head, -⟩ := shape.begins
  rintro rfl
  cases head

/-- A name and its colon lie inside a word. -/
theorem IsName.letters_colon {name : List Char} (shape : IsName name) :
    ∀ c ∈ name ++ [':'], endsWord c = false := by
  intro c member
  rcases List.mem_append.mp member with inside | colon
  · exact endsWord_of_isNameLetter (shape.letters c inside)
  · rw [List.mem_singleton.mp colon]
    decide

/-- A word is named where it is followed by anything if it is named by itself. -/
theorem isNamed_append_iff {word following : List Char} (ends : atBoundary following = true) :
    IsNamed (word ++ following) ↔ IsNamed word := by
  constructor
  · rintro ⟨name, rest, shape, split⟩
    rw [← List.singleton_append, ← List.append_assoc] at split
    rcases List.append_eq_append_iff.mp split with ⟨others, named, left⟩ | ⟨others, rfl, -⟩
    · cases others with
      | nil => exact ⟨name, [], shape, by simpa using named.symm⟩
      | cons c others =>
          rw [left] at ends
          have inside : c ∈ name ++ [':'] := by
            rw [named]
            exact List.mem_append_right _ List.mem_cons_self
          rw [List.cons_append, atBoundary, shape.letters_colon c inside] at ends
          cases ends
    · exact ⟨name, others, shape, by simp⟩
  · rintro ⟨name, rest, shape, rfl⟩
    exact ⟨name, rest ++ following, shape, by simp⟩

/-- The names of fields are written in small letters. -/
theorem isLower_of_known : ∀ field ∈ Field.all, ∀ known ∈ field.name :: field.aliases,
    known.toList ≠ [] ∧ ∀ c ∈ known.toList, c.isLower = true := by
  simp only [← List.all_eq_true]
  decide +kernel

/-- What becomes a small letter is a letter. -/
theorem isAlpha_of_isLower_toLower {c : Char} (lower : c.toLower.isLower = true) :
    c.isAlpha = true := by
  refine Bool.or_eq_true_iff.mpr ?_
  unfold Char.toLower at lower
  split at lower
  · next upper => exact .inl (decide_eq_true upper)
  · exact .inr lower

/-- A text that means a field is one of its names, but for the case of the letters. -/
theorem mem_names_of_ofName?_eq_some {name : List Char} {field : Field}
    (known : Field.ofName? (String.ofList name) = some field) :
    String.ofList (asciiLower name) ∈ field.name :: field.aliases := by
  unfold Field.ofName? at known
  rw [String.toList_ofList] at known
  have found := List.find?_some known
  rw [Bool.or_eq_true, beq_iff_eq, List.contains_iff_mem] at found
  rcases found with same | other
  · exact same ▸ List.mem_cons_self
  · exact List.mem_cons_of_mem _ other

/-- However a known field is written, its name is made of letters. -/
theorem isAlpha_of_ofName?_eq_some {name : List Char} {field : Field}
    (known : Field.ofName? (String.ofList name) = some field) :
    name ≠ [] ∧ ∀ c ∈ name, c.isAlpha = true := by
  have spelled := mem_names_of_ofName?_eq_some known
  obtain ⟨some, lower⟩ := isLower_of_known field (Field.mem_all field) _ spelled
  rw [String.toList_ofList, asciiLower] at some lower
  exact ⟨fun none => some (congrArg _ none), fun c member =>
    isAlpha_of_isLower_toLower (lower _ (List.mem_map_of_mem member))⟩

/-- A text that means a field is a name. -/
theorem isName_of_ofName?_eq_some {name : List Char} {field : Field}
    (known : Field.ofName? (String.ofList name) = some field) : IsName name := by
  obtain ⟨some, alphabetic⟩ := isAlpha_of_ofName?_eq_some known
  constructor
  · cases name with
    | nil => exact absurd rfl some
    | cons c others => exact ⟨c, rfl, alphabetic c List.mem_cons_self⟩
  · intro c member
    rw [isNameLetter, Char.isAlphanum, alphabetic c member]
    rfl

/-! ### Clauses -/

/-- What is written of a clause after its sign. -/
inductive ConditionText : (written following : List Char) → Clause → Prop where
  | quotation {body following : List Char} (closed : '"' ∉ body) :
      ConditionText ('"' :: (body ++ ['"'])) following (.text (String.ofList body) false)
  | word {word following : List Char} (shape : IsWord word following) (unnamed : ¬ IsNamed word) :
      ConditionText word following (.text (String.ofList word) false)
  | filter {name written following : List Char} {field : Field} {filter settled : Filter}
      (known : Field.ofName? (String.ofList name) = some field)
      (shape : FilterText field written following filter)
      (meaning : settlePresence [] [] filter = .ok settled) :
      ConditionText (name ++ ':' :: written) following (.filter settled)

/-- A condition that is written before a text is written before another in the same way, if that is
a boundary whenever the first one is. -/
theorem ConditionText.of_atBoundary {written following other : List Char} {clause : Clause}
    (shape : ConditionText written following clause)
    (ends : atBoundary following = true → atBoundary other = true) :
    ConditionText written other clause := by
  cases shape with
  | quotation closed => exact .quotation closed
  | word shape unnamed => exact .word (shape.of_atBoundary ends) unnamed
  | filter known shape meaning => exact .filter known (shape.of_atBoundary ends) meaning

/-- A clause and the form in which it is written before a text. -/
inductive ClauseText : (written following : List Char) → Clause → Prop where
  | plain {written following : List Char} {clause : Clause} (unsigned : written.head? ≠ some '-')
      (shape : ConditionText written following clause) : ClauseText written following clause
  | negated {written following : List Char} {clause : Clause}
      (shape : ConditionText written following clause) :
      ClauseText ('-' :: written) following (clause.withSign true)

/-- A clause is written before another text in the same way, if that is a boundary whenever the first
one is. -/
theorem ClauseText.of_atBoundary {written following other : List Char} {clause : Clause}
    (shape : ClauseText written following clause)
    (ends : atBoundary following = true → atBoundary other = true) :
    ClauseText written other clause := by
  cases shape with
  | plain unsigned shape => exact .plain unsigned (shape.of_atBoundary ends)
  | negated shape => exact .negated (shape.of_atBoundary ends)

/-- What a filter on presence means does not depend on the places where faults are reported. -/
theorem settlePresence_eq_ok_iff {filter settled : Filter} (clause value : List Char) :
    settlePresence clause value filter = .ok settled ↔
      settlePresence [] [] filter = .ok settled := by
  unfold settlePresence
  split
  · exact Iff.rfl
  · split
    · simp
    · split
      · exact Iff.rfl
      · simp

theorem ConditionText.atBoundary_append {written following : List Char} {clause : Clause}
    (shape : ConditionText written following clause) (rest : List Char) :
    atBoundary (written ++ rest) = false := by
  cases shape with
  | quotation closed => exact (by decide : endsWord '"' = false)
  | word shape unnamed => exact shape.atBoundary_append rest
  | @filter name written _ _ _ _ known shape meaning =>
      have named := isName_of_ofName?_eq_some known
      cases name with
      | nil => exact absurd rfl named.ne_nil
      | cons c others => exact named.letters_colon c List.mem_cons_self

/-- A text that begins with a condition begins as the condition does. -/
theorem ConditionText.head?_append {written following : List Char} {clause : Clause}
    (shape : ConditionText written following clause) (rest : List Char) :
    (written ++ rest).head? = written.head? := by
  cases shape with
  | quotation closed => rfl
  | word shape unnamed => exact shape.head?_append rest
  | @filter name written _ _ _ _ known shape meaning => cases name <;> rfl

/-- The reader of conditions takes exactly what is written of a clause after its sign. -/
theorem takeCondition_eq_ok_iff {clause text rest : List Char} {result : Clause}
    (inside : atBoundary text = false) :
    takeCondition clause text = .ok (result, rest) ↔
      ∃ written, text = written ++ rest ∧ ConditionText written rest result := by
  constructor
  · intro found
    rw [takeCondition.eq_def] at found
    split at found
    · obtain ⟨⟨body, left⟩, taken, same⟩ := bind_eq_ok_iff.mp found
      obtain ⟨rfl, closed⟩ := takeQuotation_eq_ok_iff.mp taken
      cases same
      exact ⟨_, by simp, .quotation closed⟩
    · next _ unquoted =>
        split at found
        · next unnamed =>
            have plain : text.head? ≠ some '"' := by
              intro head
              obtain ⟨others, same⟩ := List.head?_eq_some_iff.mp head
              exact unquoted others same
            cases found
            have taken : takeWord text = ((takeWord text).1, (takeWord text).2) := rfl
            obtain ⟨split, shape⟩ := (takeWord_eq_iff_isWord inside plain).mp taken
            refine ⟨_, split, .word shape ?_⟩
            rw [takeName?_eq_none_iff, split, isNamed_append_iff shape.ends] at unnamed
            exact unnamed
        · next name after named =>
            obtain ⟨rfl, -⟩ := takeName?_eq_some_iff.mp named
            split at found
            · cases found
            · next field known =>
                obtain ⟨⟨filter, left⟩, taken, ending⟩ := bind_eq_ok_iff.mp found
                obtain ⟨settled, meaning, same⟩ := bind_eq_ok_iff.mp ending
                obtain ⟨written, rfl, shape⟩ := exists_filterText taken
                cases same
                refine ⟨name ++ ':' :: written, by simp, .filter known shape ?_⟩
                exact (settlePresence_eq_ok_iff _ _).mp meaning
  · rintro ⟨written, rfl, shape⟩
    rw [takeCondition.eq_def]
    cases shape with
    | quotation closed =>
        exact bind_eq_ok_iff.mpr ⟨_, takeQuotation_eq_ok_iff.mpr ⟨by simp, closed⟩, rfl⟩
    | word shape unnamed =>
        have plain : (written ++ rest).head? ≠ some '"' :=
          (shape.head?_append rest).symm ▸ shape.unquoted
        have taken := (takeWord_eq_iff_isWord inside plain).mpr ⟨rfl, shape⟩
        have nameless := takeName?_eq_none_iff.mpr
          (mt (isNamed_append_iff shape.ends).mp unnamed)
        split
        · next same => exact absurd (congrArg List.head? same) plain
        · rw [nameless, taken]
    | @filter name written _ field filter settled known shape meaning =>
        have named := isName_of_ofName?_eq_some known
        have taken : takeName? (name ++ ':' :: written ++ rest) = some (name, written ++ rest) :=
          takeName?_eq_some_iff.mpr ⟨by simp, named⟩
        split
        · next same =>
            obtain ⟨c, head, alphabetic⟩ := named.begins
            obtain ⟨others, rfl⟩ := List.head?_eq_some_iff.mp head
            cases same
            cases alphabetic
        · rw [taken]
          dsimp only
          rw [known]
          refine bind_eq_ok_iff.mpr ⟨_, takeFilter_append shape clause, ?_⟩
          refine bind_eq_ok_iff.mpr ⟨settled, ?_, rfl⟩
          exact (settlePresence_eq_ok_iff _ _).mpr meaning

/-- **The reader of clauses.** Where no word ends, it takes exactly the written form of a clause. -/
theorem takeClause_eq_ok_iff {text rest : List Char} {result : Clause}
    (inside : atBoundary text = false) :
    takeClause text = .ok (result, rest) ↔
      ∃ written, text = written ++ rest ∧ ClauseText written rest result := by
  rw [takeClause.eq_def]
  split
  · next after =>
      constructor
      · intro found
        split at found
        · cases found
        · next further =>
            obtain ⟨⟨clause, left⟩, taken, same⟩ := map_eq_ok_iff.mp found
            obtain ⟨written, rfl, shape⟩ :=
              (takeCondition_eq_ok_iff (Bool.eq_false_iff.mpr further)).mp taken
            cases same
            exact ⟨'-' :: written, rfl, .negated shape⟩
      · rintro ⟨written, split, shape⟩
        cases shape with
        | plain unsigned shape =>
            have head := congrArg List.head? split
            rw [shape.head?_append] at head
            exact absurd head.symm unsigned
        | negated shape =>
            obtain rfl := (List.cons.inj split).2
            have further := shape.atBoundary_append rest
            rw [List.append_eq, further, if_neg Bool.false_ne_true]
            exact map_eq_ok_iff.mpr
              ⟨_, (takeCondition_eq_ok_iff further).mpr ⟨_, rfl, shape⟩, rfl⟩
  · next unsigned =>
      rw [takeCondition_eq_ok_iff inside]
      constructor
      · rintro ⟨written, rfl, shape⟩
        refine ⟨written, rfl, .plain (fun head => ?_) shape⟩
        rw [← shape.head?_append rest] at head
        obtain ⟨others, same⟩ := List.head?_eq_some_iff.mp head
        exact unsigned others same
      · rintro ⟨written, rfl, shape⟩
        cases shape with
        | plain _ shape => exact ⟨written, rfl, shape⟩
        | negated shape => exact absurd rfl (unsigned _)

end AnnexCatalog.Query
