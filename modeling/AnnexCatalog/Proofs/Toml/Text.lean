import AnnexCatalog.Toml.Text
import AnnexCatalog.Toml.Write
import Mathlib.Data.List.Basic

/-! # Texts read back

A text is written in one of five forms, and the reader of the form gives it back, whatever line
follows (`readText_writeText`). Up to two quotes in a row stand for themselves between three quotes,
also right before the closing ones, so a long text is read with the number of quotes that have just
been passed in mind.
-/

namespace AnnexCatalog.Toml

/-! ### Characters -/

/-- A character can stand for itself on a line if it is no control character. -/
theorem isPlain_iff {c : Char} : isPlain c = true ↔ needsEscape c = false ∧ c ≠ '\n' := by
  by_cases tab : c = '\t'
  · rw [tab]
    decide
  · by_cases feed : c = '\n'
    · rw [feed]
      decide
    · simp [isPlain, needsEscape, tab, feed]

/-- A character that stands for itself between double quotes. -/
structure IsOrdinary (c : Char) : Prop where
  plain : isPlain c = true
  unquoted : c ≠ '"'
  unescaped : c ≠ '\\'

/-- The ways in which a character is written between double quotes. -/
inductive Escapes (c : Char) : List Char → Prop
  | letter {letter : Char} (named : escaped? letter = some c) : Escapes c ['\\', letter]
  | number {high low : Char} (read : character? ['0', '0', high, low] = some c) :
      Escapes c ['\\', 'u', '0', '0', high, low]
  | itself (ordinary : IsOrdinary c) : Escapes c [c]

/-- An ASCII character is read from its four digits. -/
theorem character?_hexDigits (point : Nat) (ascii : point < 128) :
    character? ['0', '0', hexDigit (point / 16), hexDigit (point % 16)] =
      some (Char.ofNat point) := by
  revert point
  decide

/-- A character is escaped as itself, by a letter of its own or by its digits. -/
theorem escapes_escape (c : Char) : Escapes c (escape c) := by
  unfold escape
  split_ifs with b t n f r quote backslash control
  · exact .letter (by rw [b]; rfl)
  · exact .letter (by rw [t]; rfl)
  · exact .letter (by rw [n]; rfl)
  · exact .letter (by rw [f]; rfl)
  · exact .letter (by rw [r]; rfl)
  · exact .letter (by rw [quote]; rfl)
  · exact .letter (by rw [backslash]; rfl)
  · have ascii : c.toNat < 128 := by
      simp [needsEscape] at control
      omega
    have point := character?_hexDigits c.toNat ascii
    rw [Char.ofNat_toNat] at point
    exact .number point
  · exact .itself ⟨isPlain_iff.mpr ⟨Bool.eq_false_iff.mpr control, n⟩, quote, backslash⟩

/-- A reader gives back a character and passes over what is written for it. -/
def PassesOver (read : List Char → Option (List Char × List Char)) (c : Char)
    (written : List Char) : Prop :=
  ∀ tail, read (written ++ tail) = prepend c (read tail)

/-- A character that is escaped is read as itself between single quotes. -/
theorem Escapes.passesOver_readBasic {c : Char} {written : List Char}
    (escapes : Escapes c written) : PassesOver readBasic c written := by
  intro tail
  cases escapes with
  | @letter letter named =>
      show readBasic ('\\' :: letter :: tail) = _
      rw [readBasic]
      · rw [named]
        rfl
      -- A letter with a meaning of its own does not announce a number.
      · rintro _ _ _ _ _ rfl
        cases named
      · rintro _ _ _ _ _ _ _ _ _ rfl
        cases named
  | number read =>
      show (character? _).bind _ = _
      rw [read]
      rfl
  | itself ordinary =>
      show readBasic (c :: tail) = _
      rw [readBasic]
      · exact if_pos ⟨ordinary.unescaped, ordinary.plain⟩
      · exact ordinary.unquoted
      · exact fun _ _ _ _ _ backslash => absurd backslash ordinary.unescaped
      · exact fun _ _ _ _ _ _ _ _ _ backslash => absurd backslash ordinary.unescaped
      · exact fun _ _ backslash => absurd backslash ordinary.unescaped

/-- A character that is escaped is read as itself between threefold quotes, too. -/
theorem Escapes.passesOver_readLongBasic {c : Char} {written : List Char}
    (escapes : Escapes c written) : PassesOver (readLongBasic 0) c written := by
  intro tail
  cases escapes with
  | @letter letter named =>
      show readLongBasic 0 ('\\' :: letter :: tail) = _
      rw [readLongBasic]
      · rw [named]
      · rintro _ _ _ _ _ rfl
        cases named
      · rintro _ _ _ _ _ _ _ _ _ rfl
        cases named
  | number read =>
      show (character? _).bind _ = _
      rw [read]
      rfl
  | itself ordinary =>
      have plain := ordinary.plain
      show readLongBasic 0 (c :: tail) = _
      rw [readLongBasic]
      · exact if_pos ⟨ordinary.unescaped, plain⟩
      · intro rest quote
        exact absurd quote ordinary.unquoted
      · exact fun _ _ _ _ _ backslash => absurd backslash ordinary.unescaped
      · exact fun _ _ _ _ _ _ _ _ _ backslash => absurd backslash ordinary.unescaped
      · exact fun _ _ backslash => absurd backslash ordinary.unescaped
      -- No ordinary character ends a line.
      · rintro rfl
        exact absurd plain (by decide)
      · rintro rest rfl
        exact absurd plain (by decide)

/-! ### Texts on one line -/

/-- What is written between double quotes on one line is read as the text. -/
theorem readBasic_flatMap_escape (text rest : List Char) :
    readBasic (text.flatMap escape ++ '"' :: rest) = some (text, rest) := by
  induction text with
  | nil => rfl
  | cons c text step =>
      rw [List.flatMap_cons, List.append_assoc, (escapes_escape c).passesOver_readBasic, step]
      rfl

/-- What is written between single quotes on one line is read as the text. -/
theorem readLiteral_append {text : List Char} (plain : ∀ c ∈ text, isPlain c = true ∧ c ≠ '\'')
    (rest : List Char) : readLiteral (text ++ '\'' :: rest) = some (text, rest) := by
  induction text with
  | nil => rfl
  | cons c text step =>
      obtain ⟨first, others⟩ := List.forall_mem_cons.mp plain
      rw [List.cons_append, readLiteral, if_pos first.1, step others]
      · rfl
      · exact first.2

/-! ### Texts between three quotes -/

/-- A reader of a text that three quotes close, and fewer do not. -/
structure ClosesAtThree (quote : Char) (read : List Char → Option (List Char × List Char)) :
    Prop where
  closes : ∀ rest, read (quote :: quote :: quote :: rest) = some (closing quote rest)
  passes : ∀ rest, ¬ [quote, quote] <+: rest → read (quote :: rest) = prepend quote (read rest)

/-- A long text with escapes is closed by three quotes. -/
theorem closesAtThree_readLongBasic : ClosesAtThree '"' (readLongBasic 0) where
  closes _ := rfl
  passes rest apart := by
    rw [readLongBasic]
    · rfl
    · exact fun tail _ third => apart ⟨tail, third.symm⟩
    all_goals simp

/-- A long text without escapes is closed by three quotes. -/
theorem closesAtThree_readLongLiteral : ClosesAtThree '\'' readLongLiteral where
  closes _ := rfl
  passes rest apart := by
    rw [readLongLiteral]
    · rfl
    · exact fun tail _ third => apart ⟨tail, third.symm⟩
    all_goals simp

namespace ClosesAtThree

variable {quote : Char} {read : List Char → Option (List Char × List Char)} {count : Nat}

/-- Up to two quotes before another character belong to the text. -/
theorem read_replicate (closes : ClosesAtThree quote read) (few : count ≤ 2) {c : Char}
    (other : c ≠ quote) (tail : List Char) :
    read (List.replicate count quote ++ c :: tail) =
      (read (c :: tail)).map fun (text, rest) => (List.replicate count quote ++ text, rest) := by
  induction count with
  | zero => exact Option.map_id'.symm
  | succ count step =>
      have apart : ¬ [quote, quote] <+: List.replicate count quote ++ c :: tail := by
        obtain rfl | rfl : count = 0 ∨ count = 1 := by omega
        all_goals simp [List.cons_prefix_cons, other.symm]
      rw [List.replicate_succ, List.cons_append, closes.passes _ apart, step (by omega), prepend,
        Option.map_map]
      rfl

/-- A character that is not written with a quote first is read after up to two quotes. -/
theorem read_passesOver (closes : ClosesAtThree quote read) (few : count ≤ 2) {c first : Char}
    {more tail text rest : List Char} (other : first ≠ quote)
    (passes : PassesOver read c (first :: more)) (later : read tail = some (text, rest)) :
    read (List.replicate count quote ++ (first :: more ++ tail)) =
      some (List.replicate count quote ++ c :: text, rest) := by
  have here := passes tail
  rw [later] at here
  rw [List.cons_append] at here ⊢
  rw [closes.read_replicate few other, here]
  rfl

/-- Up to two quotes before the closing ones belong to the text. -/
theorem read_end (closes : ClosesAtThree quote read) (few : count ≤ 2) {rest : List Char}
    (apart : rest.head? ≠ some quote) :
    read (List.replicate count quote ++ quote :: quote :: quote :: rest) =
      some (List.replicate count quote, rest) := by
  obtain rfl | rfl | rfl : count = 0 ∨ count = 1 ∨ count = 2 := by omega
  all_goals
    refine (closes.closes _).trans (congrArg some ?_)
    rcases rest with - | ⟨c, - | ⟨d, rest⟩⟩
  all_goals simp_all [closing]

end ClosesAtThree

/-- A quote of a long text stands for itself, unless it is the third in a row; what is written for
any other character does not begin with a quote. -/
theorem escapeLong_cons_cases (quotes : Nat) (c : Char) (text : List Char) :
    (c = '"' ∧ quotes ≠ 2 ∧ escapeLong quotes (c :: text) = '"' :: escapeLong (quotes + 1) text) ∨
      ∃ first more, first ≠ '"' ∧ (c ≠ '\n' → isPlain first = true) ∧
        PassesOver (readLongBasic 0) c (first :: more) ∧
        escapeLong quotes (c :: text) = first :: more ++ escapeLong 0 text := by
  by_cases quote : c = '"'
  · by_cases full : quotes = 2
    · have escaped : Escapes '"' ['\\', '"'] := .letter rfl
      refine .inr ⟨'\\', ['"'], by decide, fun _ => by decide,
        quote ▸ escaped.passesOver_readLongBasic, ?_⟩
      rw [escapeLong, if_pos quote, if_pos full]
      rfl
    · refine .inl ⟨quote, full, ?_⟩
      rw [escapeLong, if_pos quote, if_neg full]
  · refine .inr ?_
    rw [escapeLong, if_neg quote]
    by_cases feed : c = '\n'
    · rw [if_pos feed, feed]
      exact ⟨'\n', [], by decide, absurd rfl, fun _ => rfl, rfl⟩
    · rw [if_neg feed]
      have escapes := escapes_escape c
      generalize escape c = written at escapes
      have passes := escapes.passesOver_readLongBasic
      cases escapes with
      | letter => exact ⟨_, _, by decide, fun _ => by decide, passes, rfl⟩
      | number => exact ⟨_, _, by decide, fun _ => by decide, passes, rfl⟩
      | itself ordinary => exact ⟨_, _, quote, fun _ => ordinary.plain, passes, rfl⟩

/-- What is written between three double quotes is read as the text, of which some quotes may have
been written before. -/
theorem readLongBasic_escapeLong {quotes : Nat} (few : quotes ≤ 2) (text : List Char)
    {rest : List Char} (apart : rest.head? ≠ some '"') :
    readLongBasic 0 (List.replicate quotes '"' ++ (escapeLong quotes text ++
      '"' :: '"' :: '"' :: rest)) = some (List.replicate quotes '"' ++ text, rest) := by
  induction text generalizing quotes with
  | nil =>
      rw [List.append_nil]
      exact closesAtThree_readLongBasic.read_end few apart
  | cons c text step =>
      rcases escapeLong_cons_cases quotes c text with
        ⟨rfl, fewer, written⟩ | ⟨first, more, other, -, passes, written⟩
      · have one_more : quotes + 1 ≤ 2 := by omega
        have later := step one_more
        rw [List.replicate_succ', List.append_assoc, List.append_assoc] at later
        rw [written]
        exact later
      · rw [written, List.append_assoc]
        exact closesAtThree_readLongBasic.read_passesOver few other passes (step (Nat.zero_le 2))

/-- Between three single quotes a character stands for itself. -/
theorem passesOver_readLongLiteral {c : Char} (unquoted : c ≠ '\'')
    (legible : needsEscape c = false) : PassesOver readLongLiteral c [c] := by
  intro tail
  by_cases feed : c = '\n'
  · rw [feed]
    rfl
  · show readLongLiteral (c :: tail) = _
    rw [readLongLiteral]
    · exact if_pos (isPlain_iff.mpr ⟨legible, feed⟩)
    · intro rest quote
      exact absurd quote unquoted
    · exact feed
    · rintro rest rfl
      exact absurd legible (by decide)

/-- What is written between three single quotes is read as the text, of which some quotes may have
been written before. -/
theorem readLongLiteral_append {quotes : Nat} {text : List Char}
    (few : longestRun '\'' quotes text ≤ 2) (legible : ∀ c ∈ text, needsEscape c = false)
    {rest : List Char} (apart : rest.head? ≠ some '\'') :
    readLongLiteral (List.replicate quotes '\'' ++ (text ++ '\'' :: '\'' :: '\'' :: rest)) =
      some (List.replicate quotes '\'' ++ text, rest) := by
  induction text generalizing quotes with
  | nil =>
      rw [List.append_nil]
      exact closesAtThree_readLongLiteral.read_end few apart
  | cons c text step =>
      obtain ⟨first, others⟩ := List.forall_mem_cons.mp legible
      rw [longestRun] at few
      by_cases quote : c = '\''
      · rw [if_pos quote] at few
        have later := step few others
        rw [List.replicate_succ', List.append_assoc, List.append_assoc] at later
        rw [quote]
        exact later
      · rw [if_neg quote, Nat.max_le] at few
        have later := closesAtThree_readLongLiteral.read_passesOver few.1 quote
          (passesOver_readLongLiteral quote first) (step few.2 others)
        exact later

/-! ### The choice of a form -/

theorem short_append (quote : Char) (body rest : List Char) :
    short quote body ++ rest = quote :: (body ++ quote :: rest) := by
  rw [short, List.cons_append, List.cons_append, List.append_assoc, List.singleton_append]

/-- What follows a long text stands after its three closing quotes. -/
theorem long_append (quote : Char) (multiline : Bool) (body rest : List Char) :
    long quote multiline body ++ rest = quote :: quote :: quote ::
      ((if multiline then ['\n'] else []) ++ (body ++ quote :: quote :: quote :: rest)) := by
  simp [long]

/-- Quotes on one line are not taken for three quotes. -/
theorem readText_short_basic (text rest : List Char) :
    readText (short '"' (text.flatMap escape) ++ '\n' :: rest) = some (text, '\n' :: rest) := by
  have read := readBasic_flatMap_escape text ('\n' :: rest)
  rw [short_append]
  cases text with
  | nil => rfl
  | cons c text =>
      have escapes := escapes_escape c
      rw [List.flatMap_cons] at read ⊢
      generalize escape c = written at escapes read
      cases escapes with
      | letter => exact read
      | number => exact read
      | itself ordinary =>
          rw [← read, List.append_assoc, List.cons_append, readText]
          · rfl
          · simp [ordinary.unquoted]
          · simp

/-- A text on one line without its own quotes is read from between them as it is. -/
theorem readText_short_literal {text : List Char} (legible : ∀ c ∈ text, needsEscape c = false)
    (unquoted : '\'' ∉ text) (line : '\n' ∉ text) (rest : List Char) :
    readText (short '\'' text ++ '\n' :: rest) = some (text, '\n' :: rest) := by
  have other : ∀ c ∈ text, isPlain c = true ∧ c ≠ '\'' := by
    intro c member
    exact ⟨isPlain_iff.mpr ⟨legible c member, fun feed => line (feed ▸ member)⟩,
      fun quote => unquoted (quote ▸ member)⟩
  have read := readLiteral_append other ('\n' :: rest)
  rw [short_append]
  cases text with
  | nil => rfl
  | cons c text =>
      rw [← read, List.cons_append, readText]
      · rfl
      · simp
      · simp [(other c List.mem_cons_self).2]

/-- The line ending after the opening quotes does not belong to the text, and a text that begins
right there begins with no line ending. -/
theorem dropNewline_opening {multiline : Bool} {body : List Char}
    (begins : multiline = false → ∀ c ∈ body.head?, isPlain c = true) :
    dropNewline ((if multiline then ['\n'] else []) ++ body) = body := by
  cases multiline with
  | true => rfl
  | false =>
      have none : afterNewline? body = none := by
        unfold afterNewline?
        split
        · exact absurd (begins rfl _ rfl) (by decide)
        · exact absurd (begins rfl _ rfl) (by decide)
        · rfl
      rw [if_neg Bool.false_ne_true, List.nil_append, dropNewline, none]
      rfl

/-- A text is read from between threefold quotes with its escapes, on one line or on several. -/
theorem readText_long_basic {multiline : Bool} {text : List Char}
    (single : multiline = false → '\n' ∉ text) (rest : List Char) :
    readText (long '"' multiline (escapeLong 0 text) ++ '\n' :: rest) =
      some (text, '\n' :: rest) := by
  have apart : ('\n' :: rest).head? ≠ some '"' := by simp
  have read := readLongBasic_escapeLong (Nat.zero_le 2) text apart
  rw [List.replicate_zero, List.nil_append, List.nil_append] at read
  have begins : multiline = false → ∀ c ∈ (escapeLong 0 text ++
      '"' :: '"' :: '"' :: '\n' :: rest).head?, isPlain c = true := by
    intro line c begun
    cases text with
    | nil =>
        cases begun
        decide
    | cons first text =>
        have feed : first ≠ '\n' := fun feed => single line (feed ▸ List.mem_cons_self)
        rcases escapeLong_cons_cases 0 first text with
          ⟨rfl, -, written⟩ | ⟨front, more, -, plain, -, written⟩
        · rw [written] at begun
          cases begun
          decide
        · rw [written] at begun
          cases begun
          exact plain feed
  rw [long_append, readText, dropNewline_opening begins, read]

/-- A text without three quotes in a row is read from between threefold quotes as it is. -/
theorem readText_long_literal {multiline : Bool} {text : List Char}
    (few : longestRun '\'' 0 text ≤ 2) (legible : ∀ c ∈ text, needsEscape c = false)
    (single : multiline = false → '\n' ∉ text) (rest : List Char) :
    readText (long '\'' multiline text ++ '\n' :: rest) = some (text, '\n' :: rest) := by
  have apart : ('\n' :: rest).head? ≠ some '\'' := by simp
  have read := readLongLiteral_append few legible apart
  rw [List.replicate_zero, List.nil_append, List.nil_append] at read
  have begins : multiline = false → ∀ c ∈ (text ++
      '\'' :: '\'' :: '\'' :: '\n' :: rest).head?, isPlain c = true := by
    intro line c begun
    cases text with
    | nil =>
        cases begun
        decide
    | cons first text =>
        obtain rfl : first = c := Option.some.inj begun
        exact isPlain_iff.mpr ⟨legible first List.mem_cons_self,
          fun feed => single line (feed ▸ List.mem_cons_self)⟩
  rw [long_append, readText, dropNewline_opening begins, read]

/-- **A text is read as it was written**, whatever follows on the next line. -/
theorem readText_writeText (text rest : List Char) :
    readText (writeText text ++ '\n' :: rest) = some (text, '\n' :: rest) := by
  have legible (plain : text.any needsEscape = false) : ∀ c ∈ text, needsEscape c = false :=
    fun c member => Bool.eq_false_iff.mpr (List.any_eq_false.mp plain c member)
  have absent {c : Char} (none : text.contains c = false) : c ∉ text := by
    rintro member
    rw [List.contains_iff_mem.mpr member] at none
    cases none
  unfold writeText
  extract_lets controls multiline backslash
  split_ifs with basic literal longBasic longLiteral lines
  · exact readText_short_basic text rest
  · simp only [Bool.and_eq_true, Bool.not_eq_true'] at literal
    exact readText_short_literal (legible literal.1.1) (absent literal.1.2) (absent literal.2) rest
  · exact readText_long_basic absent rest
  · simp only [Bool.and_eq_true, Bool.not_eq_true', decide_eq_true_eq] at longLiteral
    exact readText_long_literal longLiteral.2 (legible longLiteral.1) absent rest
  · refine readText_long_basic ?_ rest
    exact nofun
  · exact readText_short_basic text rest

/-- A quote that ends a long text stands right before the closing ones. -/
example : writeText "it's \"so\"".toList = "\"\"\"it's \"so\"\"\"\"".toList := by decide

end AnnexCatalog.Toml
