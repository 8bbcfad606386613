import AnnexCatalog.Proofs.Search.Success
import AnnexCatalog.Proofs.Text.Tokens

/-! # Searching for what an item is called

A path or a value of an indexed field is a text term that ought to find its item. One with a letter or
a digit is looked up in the text index, which has the tokens of all values one after another, and is
found if it has tokens itself. Any other is looked for in the columns, so it is found if it stands
there, but values that are kept one by one stand in no column (`Reachable.search_term`).
-/

namespace AnnexCatalog

open Text

/-- The query of one text term. -/
def Query.ofTerm (value : String) : Query :=
  ⟨[[.text value false]]⟩

namespace Item

variable {item : Item} {value : String}

/-- What a text term is meant to find an item by: its path, and the values of the indexed fields. -/
def terms (item : Item) : List String :=
  item.path :: Field.textIndexed.flatMap item.values

/-- Among the tokens of an item, those of each of its terms stand one after another. -/
theorem exists_tokens_of_mem_terms (named : value ∈ item.terms) :
    ∃ text ∈ item.indexedTexts, ∃ before after,
      tokens text.toList = before ++ (tokens value.toList ++ after) := by
  rcases List.mem_cons.mp named with rfl | among
  · exact ⟨item.path, List.mem_append_right _ List.mem_cons_self, [], [], by simp⟩
  · obtain ⟨field, listed, shown⟩ := List.mem_flatMap.mp among
    refine ⟨" ".intercalate (item.values field),
      List.mem_append_left _ (List.mem_map_of_mem listed), ?_⟩
    obtain ⟨before, after, split⟩ := List.append_of_mem shown
    refine ⟨before.flatMap fun text => tokens text.toList,
      after.flatMap fun text => tokens text.toList, ?_⟩
    have space : " ".toList = [' '] := rfl
    rw [String.toList_intercalate, space, tokens_intercalate, split]
    simp [List.flatMap_map]

/-- A term of an item is a phrase of its indexed texts if it has tokens. -/
theorem phraseStands_iff (named : value ∈ item.terms) :
    phraseStands (tokens value.toList) (item.indexedTexts.map fun text => tokens text.toList) =
        true ↔
      tokens value.toList ≠ [] := by
  rw [phraseStands, Bool.and_eq_true, Bool.not_eq_true', List.isEmpty_eq_false_iff]
  refine and_iff_left_of_imp fun nonempty => ?_
  obtain ⟨text, indexed, before, after, split⟩ := exists_tokens_of_mem_terms named
  rw [List.any_map, List.any_eq_true]
  exact ⟨text, indexed, by rw [Function.comp_apply, split, hasPhrase_append nonempty]⟩

end Item

/-! ### Blanks around a term -/

/-- Trimming takes no letters or digits away. -/
theorem any_isAlphanumeric_trim (text : List Char) :
    (trim text).any isAlphanumeric = text.any isAlphanumeric := by
  obtain ⟨before, after, whole, blankBefore, blankAfter⟩ := exists_eq_append_trim text
  have silent {blanks : List Char} (blank : ∀ c ∈ blanks, isBlank c = true) :
      blanks.any isAlphanumeric = false :=
    List.any_eq_false.mpr fun c member => by simp [isAlphanumeric_of_isBlank (blank c member)]
  rw [congrArg (List.any · isAlphanumeric) whole, List.any_append, List.any_append,
    silent blankBefore, silent blankAfter, Bool.false_or, Bool.or_false]

/-- A text without letters and digits occurs in itself without the blanks around it. -/
theorem hasPart_trim {text : String} (silent : text.toList.any isAlphanumeric = false) :
    hasPart (String.ofList (trim text.toList)) text = true := by
  -- A capital sigma is a letter, so no character is made small by what stands around it.
  have plain : 'Σ' ∉ text.toList := by
    intro member
    exact absurd (List.any_eq_false.mp silent 'Σ' member) (by decide +kernel)
  obtain ⟨before, after, whole⟩ := trim_isInfix text.toList
  have plainInside : 'Σ' ∉ trim text.toList := fun member =>
    plain ((trim_isInfix _).subset member)
  rw [hasPart, lower, lower, String.toList_ofList, String.toList_ofList, String.toList_ofList,
    occursIn_iff, lowerFrom_eq_flatMap plain, lowerFrom_eq_flatMap plainInside]
  refine ⟨before.flatMap lowerChar, after.flatMap lowerChar, ?_⟩
  rw [← List.flatMap_append, ← List.flatMap_append, whole]

/-! ### Searches -/

namespace Catalog

variable {catalog : Catalog} {item : Item} {value : String}

/-- A value in the column of an indexed field is a term of its item and stands in a column. -/
theorem mem_terms_of_column {row : Row} (lawful : (catalog.metadataOf row).Lawful) {field : Field}
    (indexed : field ∈ Field.textIndexed)
    (column : row.scalars.lookup field = some (.text value)) :
    value ∈ (catalog.itemOf row).terms ∧ value ∈ (catalog.itemOf row).columnTexts := by
  have stored : Field.textIndexed ⊆ Field.metadata := by decide
  -- A field has a value in its column only if none of its values are kept one by one.
  have alone : (catalog.metadataOf row).membersIn field = [] := by
    by_contra several
    cases column.symm.trans (lawful.lookup_eq_none several)
  constructor
  · refine List.mem_cons_of_mem _ (List.mem_flatMap.mpr ⟨field, indexed, ?_⟩)
    rw [values_itemOf_of_column lawful (stored indexed) alone, column]
    exact List.mem_cons_self
  · refine List.mem_append_left _ (List.mem_map.mpr ⟨.text value, ?_, rfl⟩)
    exact List.mem_filterMap.mpr ⟨field, indexed, column⟩

/-- Values of an indexed field that are kept one by one are terms of their item. -/
theorem mem_terms_of_members {row : Row} (lawful : (catalog.metadataOf row).Lawful) {field : Field}
    (indexed : field ∈ Field.textIndexed)
    (among : value ∈ (catalog.metadataOf row).membersIn field) :
    value ∈ (catalog.itemOf row).terms := by
  refine List.mem_cons_of_mem _ (List.mem_flatMap.mpr ⟨field, indexed, ?_⟩)
  rw [values_itemOf_of_members lawful (List.ne_nil_of_mem among)]
  exact among

/-- A search for a term without a NUL character does not fail. -/
theorem search?_term (sound : catalog.Sound) (readable : '\x00' ∉ value.toList) :
    catalog.search? (.ofTerm value) none = some (catalog.matching (.ofTerm value)) := by
  have unmarked : (trim value.toList).contains '\x00' = false :=
    Bool.eq_false_iff.mpr fun inside =>
      readable ((trim_isInfix _).subset (List.contains_iff_mem.mp inside))
  refine search?_singleton sound fun _ => ?_
  rw [Query.Clause.condition, Query.termCondition]
  split
  · rfl
  · split
    · exact unmarked
    · rfl

/-- An item matches a term exactly if the term holds of it. -/
theorem mem_matching_term_iff (listed : item ∈ catalog.items) :
    item ∈ catalog.matching (.ofTerm value) ↔ Query.termHolds item value = true :=
  mem_matching_singleton_iff listed

/-- **Which of its own terms find an item.** A search for a path or a value of an indexed field that
is not all blanks and has no NUL character does not fail. One with a letter or a digit finds its
item exactly if it has a character that tokens are made of. Any other finds the item exactly if it
occurs in a column of an indexed field or in the path, and so if it stands there itself. -/
theorem Reachable.search_term (reached : catalog.Reachable) (listed : item ∈ catalog.items)
    (named : value ∈ item.terms) (visible : ∃ c ∈ value.toList, isBlank c = false)
    (readable : '\x00' ∉ value.toList) :
    ∃ found, catalog.search? (.ofTerm value) none = some found ∧
      (value.toList.any isAlphanumeric = true →
        (item ∈ found ↔ ∃ c ∈ value.toList, endsToken c = false ∧ isDiacritic c = false)) ∧
      (value.toList.any isAlphanumeric = false →
        (item ∈ found ↔
          ∃ text ∈ item.columnTexts, hasPart (String.ofList (trim value.toList)) text = true) ∧
        (value ∈ item.columnTexts → item ∈ found)) := by
  have body : ¬ (trim value.toList).isEmpty = true := by
    rw [isEmpty_trim, Bool.not_eq_true, List.all_eq_false]
    simpa using visible
  refine ⟨_, search?_term reached.sound readable, ?_, ?_⟩
  · intro spoken
    rw [mem_matching_term_iff listed, Query.termHolds, if_neg body, any_isAlphanumeric_trim, spoken,
      if_pos rfl, tokens_trim, Item.phraseStands_iff named, tokens_ne_nil_iff]
  · intro silent
    have found : item ∈ catalog.matching (.ofTerm value) ↔
        ∃ text ∈ item.columnTexts, hasPart (String.ofList (trim value.toList)) text = true := by
      rw [mem_matching_term_iff listed, Query.termHolds, if_neg body, any_isAlphanumeric_trim,
        silent, if_neg Bool.false_ne_true, List.any_eq_true]
    exact ⟨found, fun stands => found.mpr ⟨value, stands, hasPart_trim silent⟩⟩

/-- One of two artists is found in the text index, and a title of stars in its column. -/
theorem search_term_of_stars :
    let store := MemoryStore.new.put "a" "1s artist +Bo +Zoë title +***" ⟨"a.mp3", true⟩
    let catalog := (Catalog.empty.build 1 store.answers).catalog
    catalog.Reachable ∧ ∃ item ∈ catalog.items, ["Zoë", "***"] ⊆ item.terms ∧
      (∃ found, catalog.search? (.ofTerm "Zoë") none = some found ∧ item ∈ found) ∧
      ∃ found, catalog.search? (.ofTerm "***") none = some found ∧ item ∈ found := by
  intro store catalog
  have reached : catalog.Reachable := Reachable.empty.build 1 store.answers
  have exists_row : ∃ row ∈ catalog.rows, "Zoë" ∈ (catalog.metadataOf row).membersIn .artist ∧
      row.scalars.lookup .title = some (.text "***") := by decide +kernel
  obtain ⟨row, member, artists, column⟩ := exists_row
  have listed := itemOf_mem_items reached.sound.consistent member
  have lawful := reached.sound.lawful_metadataOf member
  have artist := mem_terms_of_members lawful (by decide) artists
  obtain ⟨title, stands⟩ := mem_terms_of_column lawful (by decide) column
  refine ⟨reached, _, listed, by simp [artist, title], ?_, ?_⟩
  · obtain ⟨found, searched, spoken, -⟩ :=
      reached.search_term listed artist ⟨'Z', by decide, by decide⟩ (by decide)
    exact ⟨found, searched,
      (spoken (by decide +kernel)).mpr ⟨'Z', by decide, by decide +kernel⟩⟩
  · obtain ⟨found, searched, -, silent⟩ :=
      reached.search_term listed title ⟨'*', by decide, by decide⟩ (by decide)
    exact ⟨found, searched, (silent (by decide +kernel)).2 stands⟩

/-- Neither one of two artists without letters and digits is found, nor a title of a letter in a
circle, which tokens are not made of. -/
theorem search_term_misses :
    let store := (MemoryStore.new.put "a" "1s artist +*** +###" ⟨"a.mp3", true⟩).put "b"
      "1s title +Ⓐ" ⟨"b.mp3", true⟩
    let catalog := (Catalog.empty.build 1 store.answers).catalog
    catalog.Reachable ∧
      (∃ item ∈ catalog.items, "***" ∈ item.terms ∧
        ∃ found, catalog.search? (.ofTerm "***") none = some found ∧ item ∉ found) ∧
      ∃ item ∈ catalog.items, "Ⓐ" ∈ item.terms ∧
        ∃ found, catalog.search? (.ofTerm "Ⓐ") none = some found ∧ item ∉ found := by
  intro store catalog
  have reached : catalog.Reachable := Reachable.empty.build 1 store.answers
  have exists_first : ∃ row ∈ catalog.rows, "***" ∈ (catalog.metadataOf row).membersIn .artist := by
    decide +kernel
  have exists_second : ∃ row ∈ catalog.rows, row.scalars.lookup .title = some (.text "Ⓐ") := by
    decide +kernel
  obtain ⟨first, member, artists⟩ := exists_first
  obtain ⟨second, among, column⟩ := exists_second
  have stars : catalog.search? (.ofTerm "***") none = some [] := by decide +kernel
  have circle : catalog.search? (.ofTerm "Ⓐ") none = some [] := by decide +kernel
  refine ⟨reached, ⟨_, itemOf_mem_items reached.sound.consistent member, ?_, _, stars, nofun⟩,
    _, itemOf_mem_items reached.sound.consistent among, ?_, _, circle, nofun⟩
  · exact mem_terms_of_members (reached.sound.lawful_metadataOf member) (by decide) artists
  · exact (mem_terms_of_column (reached.sound.lawful_metadataOf among) (by decide) column).1

end Catalog

end AnnexCatalog
