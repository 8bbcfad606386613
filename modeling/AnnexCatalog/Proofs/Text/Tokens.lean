import AnnexCatalog.Proofs.Text.Pieces
import AnnexCatalog.Text.Alphanumeric
import AnnexCatalog.Text.LowerCase
import AnnexCatalog.Text.Token

/-! # Tokens, phrases and parts

A character that ends tokens divides the tokens of a text (`tokens_append_cons`). So blanks around a
text add nothing to them, and texts that are joined by spaces have the tokens of each of them one
after another (`tokens_intercalate`). A phrase is found exactly where its own tokens stand one after
another, the last of them as the beginning of one (`hasPhrase_iff`). What is cut from long words makes
no difference to a phrase of words that are not cut (`standsIn_map_cutToken_iff`).
-/

namespace AnnexCatalog.Text

/-! ### Tokens -/

/-- A character that ends tokens divides those before it from those after it. -/
theorem tokens_append_cons {c : Char} (ends : endsToken c = true) (before after : List Char) :
    tokens (before ++ c :: after) = tokens before ++ tokens after := by
  simp only [tokens, fullTokens, pieces_append_cons ends, List.map_append, List.filter_append]

/-- The code points of the blanks. -/
def blankPoints : List Nat :=
  List.range' 9 5 ++ [32, 0x85, 0xA0, 0x1680] ++ List.range' 0x2000 11 ++
    [0x2028, 0x2029, 0x202F, 0x205F, 0x3000]

theorem mem_blankPoints {c : Char} (blank : isBlank c = true) : c.toNat ∈ blankPoints := by
  simp only [isBlank, Bool.or_eq_true, Bool.and_eq_true, decide_eq_true_eq, beq_iff_eq] at blank
  simp only [blankPoints, List.mem_append, List.mem_range'_1, List.mem_cons, List.not_mem_nil,
    or_false]
  omega

theorem endsToken_of_isBlank {c : Char} (blank : isBlank c = true) : endsToken c = true := by
  have all : ∀ point ∈ blankPoints, separatorRanges.covers point = true := by decide +kernel
  exact all _ (mem_blankPoints blank)

theorem isAlphanumeric_of_isBlank {c : Char} (blank : isBlank c = true) :
    isAlphanumeric c = false := by
  have all : ∀ point ∈ blankPoints, alphanumericRanges.covers point = false := by decide +kernel
  exact all _ (mem_blankPoints blank)

/-- Blanks at the front of a text do not matter for its tokens. -/
theorem tokens_blanks_append {blanks : List Char} (blank : ∀ c ∈ blanks, isBlank c = true)
    (text : List Char) : tokens (blanks ++ text) = tokens text := by
  induction blanks with
  | nil => rfl
  | cons c rest step =>
      rw [List.forall_mem_cons] at blank
      exact (tokens_append_cons (endsToken_of_isBlank blank.1) [] _).trans (step blank.2)

/-- Blanks at the end of a text do not matter for its tokens. -/
theorem tokens_append_blanks {blanks : List Char} (blank : ∀ c ∈ blanks, isBlank c = true)
    (text : List Char) : tokens (text ++ blanks) = tokens text := by
  cases blanks with
  | nil => rw [List.append_nil]
  | cons c rest =>
      rw [List.forall_mem_cons] at blank
      have none : tokens rest = [] := by
        rw [← List.append_nil rest, tokens_blanks_append blank.2]
        rfl
      rw [tokens_append_cons (endsToken_of_isBlank blank.1), none, List.append_nil]

/-- A trimmed text has the same tokens. -/
theorem tokens_trim (text : List Char) : tokens (trim text) = tokens text := by
  obtain ⟨before, after, whole, blankBefore, blankAfter⟩ := exists_eq_append_trim text
  rw [congrArg tokens whole, tokens_append_blanks blankAfter, tokens_blanks_append blankBefore]

/-- Texts that are joined by spaces have the tokens of all of them. -/
theorem tokens_intercalate (texts : List (List Char)) :
    tokens ([' '].intercalate texts) = texts.flatMap tokens := by
  induction texts with
  | nil => rfl
  | cons text rest step =>
      cases rest with
      | nil => simp
      | cons next others =>
          rw [List.intercalate_cons_cons, List.append_assoc, List.singleton_append,
            tokens_append_cons (endsToken_of_isBlank (by decide)), step]
          rfl

/-- A text has tokens exactly if it has a character that is part of one and no mark alone. -/
theorem tokens_ne_nil_iff {text : List Char} :
    tokens text ≠ [] ↔ ∃ c ∈ text, endsToken c = false ∧ isDiacritic c = false := by
  have begins (run : List Char) :
      run.dropWhile isDiacritic ≠ [] ↔ ∃ c ∈ run, isDiacritic c = false := by
    rw [ne_eq, List.dropWhile_eq_nil_iff]
    simp
  have found : tokens text ≠ [] ↔
      ∃ run ∈ pieces endsToken text, run.dropWhile isDiacritic ≠ [] := by
    simp [tokens, fullTokens, List.filter_eq_nil_iff]
  rw [found]
  simp only [begins]
  constructor
  · rintro ⟨run, among, c, inside, unmarked⟩
    obtain ⟨member, within⟩ := exists_mem_pieces_iff.mp ⟨run, among, inside⟩
    exact ⟨c, member, within, unmarked⟩
  · rintro ⟨c, member, within, unmarked⟩
    obtain ⟨run, among, inside⟩ := exists_mem_pieces_iff.mpr ⟨member, within⟩
    exact ⟨run, among, c, inside, unmarked⟩

/-- Letters that the index leaves as they are make up a single word. -/
theorem fullTokens_of_plain {text : List Char} (nonempty : text ≠ [])
    (plain : ∀ c ∈ text, endsToken c = false ∧ isDiacritic c = false ∧ foldLetter c = c) :
    fullTokens text = [Utf8.encode text] := by
  have whole : pieces endsToken text = [text] :=
    pieces_of_forall fun c member => (plain c member).1
  have unmarked : text.dropWhile isDiacritic = text := by
    obtain ⟨c, rest, rfl⟩ := List.exists_cons_of_ne_nil nonempty
    rw [List.dropWhile_cons, (plain c List.mem_cons_self).2.1, if_neg Bool.false_ne_true]
  have kept : text.filter (fun c => !isDiacritic c) = text :=
    List.filter_eq_self.mpr fun c member => by rw [(plain c member).2.1]; rfl
  have folded : text.map foldLetter = text := by
    rw [List.map_congr_left fun c member => (plain c member).2.2, List.map_id']
  have some : [text].filter (fun run => !run.isEmpty) = [text] :=
    List.filter_eq_self.mpr (by simpa using nonempty)
  rw [fullTokens, whole, List.map_singleton, unmarked, some, List.map_singleton, foldRun, kept,
    folded]

/-! ### Phrases -/

/-- A phrase stands in a list of tokens: its own tokens stand there one after another, the last of
them as the beginning of one. -/
def StandsIn (phrase text : List Token) : Prop :=
  ∃ first last before token after, phrase = first ++ [last] ∧
    text = before ++ (first ++ token :: after) ∧ last <+: token

/-- A text begins with a phrase if it begins with its tokens, the last of which may go on. -/
theorem beginsPhrase_concat_iff {first text : List Token} {last : Token} :
    beginsPhrase (first ++ [last]) text = true ↔
      ∃ token after, text = first ++ token :: after ∧ last <+: token := by
  induction first generalizing text with
  | nil => cases text <;> simp [beginsPhrase, List.isPrefixOf_iff_prefix]
  | cons head others step =>
      cases text with
      | nil => simp [beginsPhrase]
      | cons token rest =>
          rw [List.cons_append, beginsPhrase, Bool.and_eq_true, beq_iff_eq, step]
          · constructor
            · rintro ⟨rfl, found, after, rfl, begins⟩
              exact ⟨found, after, rfl, begins⟩
            · rintro ⟨found, after, split, begins⟩
              obtain ⟨rfl, rfl⟩ := List.cons.inj split
              exact ⟨rfl, found, after, rfl, begins⟩
          · simp

/-- A phrase is looked for at every token of a text. -/
theorem hasPhrase_iff_exists_append {phrase text : List Token} :
    hasPhrase phrase text = true ↔ ∃ before rest, text = before ++ rest ∧ rest ≠ [] ∧
      beginsPhrase phrase rest = true := by
  induction text with
  | nil => simp [hasPhrase]
  | cons token others step =>
      rw [hasPhrase, Bool.or_eq_true, step]
      constructor
      · rintro (begins | ⟨before, rest, rfl, some, begins⟩)
        · exact ⟨[], _, rfl, List.cons_ne_nil _ _, begins⟩
        · exact ⟨token :: before, rest, rfl, some, begins⟩
      · rintro ⟨before, rest, split, some, begins⟩
        cases before with
        | nil => exact .inl (split ▸ begins)
        | cons head before => exact .inr ⟨before, rest, (List.cons.inj split).2, some, begins⟩

/-- A phrase is found exactly in the texts in which it stands. -/
theorem hasPhrase_iff {phrase text : List Token} (nonempty : phrase ≠ []) :
    hasPhrase phrase text = true ↔ StandsIn phrase text := by
  rw [hasPhrase_iff_exists_append]
  constructor
  · rintro ⟨before, rest, split, -, begins⟩
    obtain ⟨first, last, rfl⟩ := (List.eq_nil_or_concat phrase).resolve_left nonempty
    rw [List.concat_eq_append] at begins ⊢
    obtain ⟨token, after, rfl, starts⟩ := beginsPhrase_concat_iff.mp begins
    exact ⟨first, last, before, token, after, rfl, split, starts⟩
  · rintro ⟨first, last, before, token, after, rfl, split, begins⟩
    exact ⟨before, _, split, by simp, beginsPhrase_concat_iff.mpr ⟨token, after, rfl, begins⟩⟩

/-- A phrase stands where its own tokens do. -/
theorem hasPhrase_append {phrase : List Token} (nonempty : phrase ≠ [])
    (before after : List Token) : hasPhrase phrase (before ++ (phrase ++ after)) = true := by
  obtain ⟨first, last, split⟩ := (List.eq_nil_or_concat phrase).resolve_left nonempty
  rw [List.concat_eq_append] at split
  exact (hasPhrase_iff nonempty).mpr
    ⟨first, last, before, last, after, split, by simp [split], List.prefix_refl last⟩

theorem not_standsIn_nil (phrase : List Token) : ¬ StandsIn phrase [] := by
  rintro ⟨first, last, before, token, after, -, split, -⟩
  exact absurd split (by simp)

/-- One token stands in another if it is the beginning of it. -/
theorem standsIn_singleton_iff {token other : Token} : StandsIn [token] [other] ↔ token <+: other := by
  rw [← hasPhrase_iff (List.cons_ne_nil _ _), hasPhrase, beginsPhrase, hasPhrase, Bool.or_false,
    List.isPrefixOf_iff_prefix]

/-! ### Long words -/

/-- A token that is short enough is not cut. -/
theorem cutToken_of_length_le {token : Token} (short : token.length ≤ tokenSize) :
    cutToken token = token :=
  List.take_of_length_le short

/-- A short word is told from every other by what the index keeps of them. -/
theorem cutToken_eq_cutToken_iff {token other : Token} (short : token.length < tokenSize) :
    cutToken token = cutToken other ↔ token = other := by
  refine ⟨fun same => ?_, congrArg cutToken⟩
  rw [cutToken_of_length_le (Nat.le_of_lt short)] at same
  have length := congrArg List.length same
  rw [cutToken, List.length_take] at length
  rw [same, cutToken_of_length_le]
  omega

/-- Tokens below the limit are told apart after cutting as before. -/
theorem map_cutToken_eq_iff {first second : List Token}
    (short : ∀ token ∈ first, token.length < tokenSize) :
    first.map cutToken = second.map cutToken ↔ first = second := by
  induction first generalizing second with
  | nil => simp [eq_comm]
  | cons token rest step =>
      rw [List.forall_mem_cons] at short
      cases second with
      | nil => simp
      | cons other others =>
          rw [List.map_cons, List.map_cons, List.cons.injEq, List.cons.injEq,
            cutToken_eq_cutToken_iff short.1, step short.2]

/-- A short word begins another if it begins what the index keeps of it. -/
theorem cutToken_prefix_cutToken_iff {token other : Token} (short : token.length < tokenSize) :
    cutToken token <+: cutToken other ↔ token <+: other := by
  rw [cutToken_of_length_le (Nat.le_of_lt short), cutToken, List.prefix_take_iff]
  exact and_iff_left (Nat.le_of_lt short)

/-- A phrase of short words stands in what the index keeps exactly if it stands in the text. -/
theorem standsIn_map_cutToken_iff {phrase text : List Token}
    (short : ∀ token ∈ phrase, token.length < tokenSize) :
    StandsIn (phrase.map cutToken) (text.map cutToken) ↔ StandsIn phrase text := by
  constructor
  · rintro ⟨first, last, before, token, after, phrased, split, begins⟩
    obtain ⟨opening, ending, rfl, rfl, ended⟩ := List.map_eq_append_iff.mp phrased
    obtain ⟨earlier, rest, rfl, rfl, later⟩ := List.map_eq_append_iff.mp split
    obtain ⟨inner, others, rfl, same, tail⟩ := List.map_eq_append_iff.mp later
    obtain ⟨found, behind, rfl, rfl, rfl⟩ := List.map_eq_cons_iff.mp tail
    obtain ⟨closing, rfl, rfl⟩ := List.map_eq_singleton_iff.mp ended
    rw [List.forall_mem_append, List.forall_mem_singleton] at short
    refine ⟨opening, closing, earlier, found, behind, rfl, ?_,
      (cutToken_prefix_cutToken_iff short.2).mp begins⟩
    rw [(map_cutToken_eq_iff short.1).mp same.symm]
  · rintro ⟨first, last, before, token, after, rfl, rfl, begins⟩
    rw [List.forall_mem_append, List.forall_mem_singleton] at short
    exact ⟨first.map cutToken, cutToken last, before.map cutToken, cutToken token,
      after.map cutToken, by simp, by simp, (cutToken_prefix_cutToken_iff short.2).mpr begins⟩

/-! ### Parts -/

/-- A text occurs in another exactly if it is a part of it. -/
theorem occursIn_iff {needle text : List Char} : occursIn needle text = true ↔ needle <:+: text := by
  induction text with
  | nil => rw [occursIn, List.isEmpty_iff, List.infix_nil]
  | cons c rest step =>
      rw [occursIn, Bool.or_eq_true, List.isPrefixOf_iff_prefix, step, List.infix_cons_iff]

/-- Without a capital sigma, characters are made small one by one. -/
theorem lowerFrom_eq_flatMap {text : List Char} (plain : 'Σ' ∉ text) (before : List Char) :
    lowerFrom before text = text.flatMap lowerChar := by
  induction text generalizing before with
  | nil => rfl
  | cons c rest step =>
      rw [List.mem_cons, not_or] at plain
      rw [lowerFrom, if_neg (Ne.symm plain.1), step plain.2, List.flatMap_cons]

end AnnexCatalog.Text
