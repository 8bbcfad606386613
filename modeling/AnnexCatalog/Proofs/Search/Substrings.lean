import AnnexCatalog.Proofs.Search.Success
import AnnexCatalog.Proofs.Text.LowerCase
import AnnexCatalog.Query.Parse

/-! # Searching for a part of a value

A filter for a part of a value makes both small on their own and then looks for the one in the other.
So a part of a value finds the item if its capital sigmas are made small as they are in the value
(`Reachable.search_part`), and may miss it if one ends the part but not its word.
-/

namespace AnnexCatalog

open Text

/-- The query for the items with a part in a value of a field. -/
def Query.containing (field : Field) (part : String) : Query :=
  .ofFilter { field, operator := .contains, value := part }

/-- It is what a field with a word asks for. -/
example : Query.parse "title:ΑΣ" = .ok (.containing .title "ΑΣ") := by decide +kernel

/-- A part whose sigmas are kept occurs in its text without regard to case. -/
theorem hasPart_of_keepsSigmas {part text : String} {before after : List Char}
    (split : text.toList = before ++ (part.toList ++ after))
    (keeps : KeepsSigmas before part.toList after) : hasPart part text = true := by
  rw [hasPart, lower, lower, String.toList_ofList, String.toList_ofList, occursIn_iff, split]
  exact keeps.lower_isInfix

namespace Catalog

variable {catalog : Catalog} {item : Item} {field : Field}

/-- A search for a part finds the items with a value in which the part occurs without regard to
case. -/
theorem mem_matching_containing_iff (listed : item ∈ catalog.items)
    (texts : field.kind = .text ∨ field.kind = .group ∨ field.kind = .path) (part : String) :
    item ∈ catalog.matching (.containing field part) ↔
      ∃ value ∈ item.values field, hasPart part value = true := by
  have stated : Query.Operator.contains ≠ .empty := by decide
  rw [Query.containing, mem_matching_filter_iff listed rfl,
    Query.Filter.holds_of_texts stated texts, List.any_eq_true]
  rfl

/-- **Which parts of a value find its item.** A search for a part of a value of a text field, of the
crates or of the path does not fail, and finds the items with a value in which the part occurs once
both are made small. So a part of a value finds the item if each of its capital sigmas becomes the
same letter in the part alone as in the value: if it has none, or is not joined to letters on either
side. -/
theorem Reachable.search_part (reached : catalog.Reachable) (listed : item ∈ catalog.items)
    (texts : field.kind = .text ∨ field.kind = .group ∨ field.kind = .path) (part : String) :
    ∃ found, catalog.search? (.containing field part) none = some found ∧
      (item ∈ found ↔ ∃ value ∈ item.values field, hasPart part value = true) ∧
      ∀ value ∈ item.values field, ∀ before after,
        value.toList = before ++ (part.toList ++ after) →
          KeepsSigmas before part.toList after ∨ 'Σ' ∉ part.toList ∨
              meetsCased before.reverse = false ∧ meetsCased after = false →
            item ∈ found := by
  have found := mem_matching_containing_iff listed texts part
  refine ⟨_, search?_filter reached.sound _, found, ?_⟩
  intro value shown before after split kept
  have keeps : KeepsSigmas before part.toList after := by
    rcases kept with keeps | plain | apart
    · exact keeps
    · exact .of_notMem plain
    · exact .of_apart apart.1 apart.2
  exact found.mpr ⟨value, shown, hasPart_of_keepsSigmas split keeps⟩

/-- A word that a hyphen ends is found, and a part of a crate without a capital sigma. -/
theorem search_part_of_word :
    let store := MemoryStore.new.put "a" "1s title +ΟΔΟΣ-ΕΡΜΟΥ crate +ΣΑΣ" ⟨"a.mp3", true⟩
    let catalog := (Catalog.empty.build 1 store.answers).catalog
    catalog.Reachable ∧ ∃ item ∈ catalog.items, "ΟΔΟΣ-ΕΡΜΟΥ" ∈ item.values .title ∧
      "ΣΑΣ" ∈ item.values .crate ∧
      (∃ found, catalog.search? (.containing .title "ΟΔΟΣ") none = some found ∧ item ∈ found) ∧
      ∃ found, catalog.search? (.containing .crate "Α") none = some found ∧ item ∈ found := by
  intro store catalog
  have reached : catalog.Reachable := Reachable.empty.build 1 store.answers
  have exists_item : ∃ item ∈ catalog.items, "ΟΔΟΣ-ΕΡΜΟΥ" ∈ item.values .title ∧
      "ΣΑΣ" ∈ item.values .crate := by decide +kernel
  obtain ⟨item, listed, title, crate⟩ := exists_item
  have text : Field.title.kind = .text := rfl
  have group : Field.crate.kind = .group := rfl
  obtain ⟨words, searched, -, word⟩ := reached.search_part listed (.inl text) "ΟΔΟΣ"
  obtain ⟨letters, asked, -, letter⟩ := reached.search_part listed (.inr (.inl group)) "Α"
  refine ⟨reached, item, listed, title, crate, ⟨words, searched, ?_⟩, letters, asked, ?_⟩
  · apply word _ title [] "-ΕΡΜΟΥ".toList (by decide)
    exact .inr (.inr ⟨by decide, by decide +kernel⟩)
  · apply letter _ crate ['Σ'] ['Σ'] (by decide)
    exact .inr (.inl (by decide))

/-- The beginning of a word is not found if it ends in a capital sigma, as this sigma is made small
like one that ends the word. -/
theorem search_part_misses :
    let store := MemoryStore.new.put "a" "1s title +ΑΣΑ" ⟨"a.mp3", true⟩
    let catalog := (Catalog.empty.build 1 store.answers).catalog
    catalog.Reachable ∧ "ΑΣΑ".toList = [] ++ ("ΑΣ".toList ++ ['Α']) ∧
      ∃ item ∈ catalog.items, "ΑΣΑ" ∈ item.values .title ∧
        ∃ found, catalog.search? (.containing .title "ΑΣ") none = some found ∧ item ∉ found := by
  intro store catalog
  have exists_item : ∃ item ∈ catalog.items, "ΑΣΑ" ∈ item.values .title := by decide +kernel
  have searched : catalog.search? (.containing .title "ΑΣ") none = some [] := by decide +kernel
  obtain ⟨item, listed, title⟩ := exists_item
  exact ⟨Reachable.empty.build 1 store.answers, by decide, item, listed, title, [], searched, nofun⟩

end Catalog

end AnnexCatalog
