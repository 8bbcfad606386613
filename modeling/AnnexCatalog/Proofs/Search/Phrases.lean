import AnnexCatalog.Proofs.Catalog.Takeover
import AnnexCatalog.Proofs.Search.Terms
import AnnexCatalog.Proofs.Text.Utf8

/-! # What a text term finds

The text index is written when an item is, and an item is read from the other tables. In a reachable
catalog both agree, whatever runs there were and whichever numbers were given again, so a search for
a text term finds the items in whose present texts the tokens of the term stand one after another,
the last of them as the beginning of one (`Reachable.search_phrase`). The index keeps only the first
bytes of a long word, so a term of such a word finds others that begin alike
(`search_phrase_of_long_word`).
-/

namespace AnnexCatalog.Catalog

open Text

variable {catalog : Catalog} {term : String} {item : Item}

/-- An item is found by a term with tokens if they stand in one of its indexed texts. -/
theorem mem_matching_term_iff_standsIn (listed : item ∈ catalog.items)
    (spoken : term.toList.any isAlphanumeric = true) (worded : tokens term.toList ≠ []) :
    item ∈ catalog.matching (.ofTerm term) ↔
      ∃ text ∈ item.indexedTexts, StandsIn (tokens term.toList) (tokens text.toList) := by
  have body : ¬ (trim term.toList).isEmpty = true := by
    intro blank
    rw [List.isEmpty_iff] at blank
    rw [← any_isAlphanumeric_trim, blank] at spoken
    cases spoken
  rw [mem_matching_term_iff listed, Query.termHolds, if_neg body, any_isAlphanumeric_trim, spoken,
    if_pos rfl, tokens_trim, phraseStands, List.isEmpty_eq_false_iff.mpr worded]
  simp [hasPhrase_iff worded]

/-- **Searches for text are up to date.** After any runs, a search for a term with a letter or a
digit and with tokens, but without a NUL character, does not fail. It finds exactly the items that
have the tokens of the term one after another, the last of them as the beginning of a token, in one
of five texts: the values of one of the indexed fields with spaces between them, or the path. A token
is what the index keeps of a word, which makes no difference to a term of words that it keeps whole
with room to spare. -/
theorem Reachable.search_phrase (reached : catalog.Reachable) (readable : '\x00' ∉ term.toList)
    (spoken : term.toList.any isAlphanumeric = true) (worded : tokens term.toList ≠ []) :
    ∃ found, catalog.search? (.ofTerm term) none = some found ∧ found.Sublist catalog.items ∧
      (∀ item, item ∈ found ↔ item ∈ catalog.items ∧
        ∃ text ∈ item.indexedTexts, StandsIn (tokens term.toList) (tokens text.toList)) ∧
      ((∀ token ∈ fullTokens term.toList, token.length < tokenSize) →
        ∀ item, item ∈ found ↔ item ∈ catalog.items ∧
          ∃ text ∈ item.indexedTexts, StandsIn (fullTokens term.toList) (fullTokens text.toList)) := by
  have finds (item : Item) : item ∈ catalog.matching (.ofTerm term) ↔ item ∈ catalog.items ∧
      ∃ text ∈ item.indexedTexts, StandsIn (tokens term.toList) (tokens text.toList) := by
    constructor
    · intro found
      have listed := (mem_matching_iff.mp found).1
      exact ⟨listed, (mem_matching_term_iff_standsIn listed spoken worded).mp found⟩
    · rintro ⟨listed, stands⟩
      exact (mem_matching_term_iff_standsIn listed spoken worded).mpr stands
  refine ⟨_, search?_term reached.sound readable, List.filter_sublist, finds, fun short item => ?_⟩
  have uncut (text : String) : StandsIn (tokens term.toList) (tokens text.toList) ↔
      StandsIn (fullTokens term.toList) (fullTokens text.toList) :=
    standsIn_map_cutToken_iff short
  simp only [finds, uncut]

/-- An item loses its location and changes its title, and another is deleted, so that its number is
given again: a term for the new titles finds both items, one for a lost path finds its item, and one
for the old titles finds nothing. -/
theorem search_phrase_of_reused_number :
    let first := (MemoryStore.new.put "a" "1s artist +Bo title +Blue" ⟨"x/a.mp3", true⟩).put "b"
      "1s title +Blue" ⟨"b.mp3", true⟩
    let second := first.remove "b"
    let third := ((second.put "a" "2s artist +Bo title +Green" ⟨"y/a.mp3", true⟩).forgetLocation
      "a").put "c" "3s title +Greens" ⟨"c.mp3", true⟩
    let catalog := ((((Catalog.empty.build 1 first.answers).catalog.refresh 2
      second.answers).catalog).refresh 3 third.answers).catalog
    catalog.Reachable ∧ catalog.rows.map (fun row => (row.id, row.key)) = [(1, "a"), (2, "c")] ∧
      ∀ term keys, (term, keys) ∈ [("Gré", ["a", "c"]), ("X/a", ["a"]), ("blue", [])] →
        ∃ found, catalog.search? (.ofTerm term) none = some found ∧ found.map Item.key = keys ∧
          ∀ item, item ∈ found ↔ item ∈ catalog.items ∧
            ∃ text ∈ item.indexedTexts,
              StandsIn (fullTokens term.toList) (fullTokens text.toList) := by
  intro first second third catalog
  have reached : catalog.Reachable :=
    ((Reachable.empty.build 1 first.answers).refresh 2 second.answers).refresh 3 third.answers
  refine ⟨reached, by decide +kernel, fun term keys listed => ?_⟩
  have accepted : ∀ pair ∈ [("Gré", ["a", "c"]), ("X/a", ["a"]), ("blue", [])],
      '\x00' ∉ pair.1.toList ∧ pair.1.toList.any isAlphanumeric = true ∧
        tokens pair.1.toList ≠ [] ∧
        (fullTokens pair.1.toList).all (fun token => token.length < tokenSize) = true ∧
        (catalog.search? (.ofTerm pair.1) none).map (List.map Item.key) = some pair.2 := by
    decide +kernel
  obtain ⟨readable, spoken, worded, short, named⟩ := accepted _ listed
  have room : ∀ token ∈ fullTokens term.toList, token.length < tokenSize := fun token member =>
    of_decide_eq_true (List.all_eq_true.mp short token member)
  obtain ⟨found, searched, -, -, stands⟩ := reached.search_phrase readable spoken worded
  rw [searched] at named
  exact ⟨found, searched, Option.some.inj named, stands room⟩

/-! ### A long word -/

/-- The letter `a`, once for every byte that the index keeps of a word, and something behind. -/
def longWord (ending : List Char) : List Char :=
  List.replicate tokenSize 'a' ++ ending

/-- A long word is one token before it is cut. -/
theorem fullTokens_longWord {ending : List Char}
    (plain : ∀ c ∈ ending, c = 'b' ∨ c = 'c') :
    fullTokens (longWord ending) = [List.replicate tokenSize 97 ++ Utf8.encode ending] := by
  have letter : ∀ c ∈ longWord ending, c = 'a' ∨ c = 'b' ∨ c = 'c' := by
    intro c member
    rcases List.mem_append.mp member with first | last
    · exact .inl (List.eq_of_mem_replicate first)
    · exact .inr (plain c last)
  rw [fullTokens_of_plain]
  · have same : Utf8.encode (List.replicate tokenSize 'a') = List.replicate tokenSize 97 := by
      rw [Utf8.encode, List.flatMap_replicate, show String.utf8EncodeChar 'a' = [97] by decide,
        List.flatten_replicate_singleton]
    rw [longWord, Utf8.encode_append, same]
  · exact List.append_ne_nil_of_left_ne_nil (by decide) _
  · intro c member
    rcases letter c member with rfl | rfl | rfl <;> decide +kernel

/-- A term of a long word finds a path of another long word that begins alike. -/
theorem search_phrase_of_long_word :
    let path := String.ofList (longWord ['b', 'b', 'b'])
    let term := String.ofList (longWord ['c', 'c', 'c'])
    let catalog := (Catalog.empty.build 1 (MemoryStore.new.put "k1" "" ⟨path, true⟩).answers).catalog
    catalog.Reachable ∧ '\x00' ∉ term.toList ∧ term.toList.any isAlphanumeric = true ∧
      fullTokens term.toList ≠ [] ∧
      ∃ found, catalog.search? (.ofTerm term) none = some found ∧
        ∃ item ∈ found, ¬ ∃ text ∈ item.indexedTexts,
          StandsIn (fullTokens term.toList) (fullTokens text.toList) := by
  intro path term catalog
  have reached : catalog.Reachable := Reachable.empty.build 1 _
  have readable : '\x00' ∉ term.toList := by
    rw [String.toList_ofList, longWord, List.mem_append, List.mem_replicate]
    decide
  have spoken : term.toList.any isAlphanumeric = true := by
    rw [String.toList_ofList, longWord, List.any_append, Bool.or_eq_true]
    exact .inr (by decide +kernel)
  have termWord : fullTokens term.toList = [List.replicate tokenSize 97 ++ [99, 99, 99]] := by
    rw [String.toList_ofList, fullTokens_longWord (by simp)]
    rfl
  have pathWord : fullTokens path.toList = [List.replicate tokenSize 97 ++ [98, 98, 98]] := by
    rw [String.toList_ofList, fullTokens_longWord (by simp)]
    rfl
  have cut (ending : Token) :
      cutToken (List.replicate tokenSize 97 ++ ending) = List.replicate tokenSize 97 :=
    List.take_left' List.length_replicate
  have worded : tokens term.toList ≠ [] := by
    rw [tokens, termWord]
    exact List.cons_ne_nil _ _
  obtain ⟨row, member, metadata, rowPath⟩ := exists_row_of_put 1 "k1" "" ⟨path, true⟩
  have listed := itemOf_mem_items reached.sound.consistent member
  have itemPath : (catalog.itemOf row).path = path := rowPath
  have lawful := reached.sound.lawful_metadataOf member
  refine ⟨reached, readable, spoken, by simp [termWord], _, search?_term reached.sound readable,
    catalog.itemOf row, ?_, ?_⟩
  · refine (mem_matching_term_iff_standsIn listed spoken worded).mpr
      ⟨path, itemPath ▸ List.mem_append_right _ List.mem_cons_self, ?_⟩
    rw [tokens, tokens, termWord, pathWord, List.map_singleton, List.map_singleton, cut, cut]
    exact standsIn_singleton_iff.mpr (List.prefix_refl _)
  · rintro ⟨text, indexed, stands⟩
    rcases List.mem_append.mp indexed with among | last
    · obtain ⟨field, textual, rfl⟩ := List.mem_map.mp among
      have blank : ∀ field ∈ Field.textIndexed, field ∈ Field.metadata ∧ field.kind = .text ∧
          (Digest.ofLog "").metadata.indexedText field = "" := by decide +kernel
      obtain ⟨stored, kind, empty⟩ := blank field textual
      rw [← indexedText_metadataOf lawful stored kind, metadata, empty] at stands
      exact not_standsIn_nil _ stands
    · rw [List.mem_singleton.mp last, itemPath, termWord, pathWord, standsIn_singleton_iff,
        List.prefix_append_right_inj] at stands
      exact absurd stands (by decide)

end AnnexCatalog.Catalog
