import AnnexCatalog.Config
import AnnexCatalog.Proofs.Text.Pieces
import AnnexCatalog.Proofs.Text.Utf8
import AnnexCatalog.Proofs.Toml.Table

/-! # Settings read back

Settings are saved as a document of three sections, which is read as the tables that the sections
stand for. So settings are loaded as they were saved, if they can be used at all (`load_save`).
-/

namespace AnnexCatalog.Config

open Text

variable (config : Config)

/-- The sections as which settings are written; a cache file that is not chosen is left out. -/
def blocks : List Toml.Block :=
  [⟨"general", [("log_level", .text config.logLevel), ("max_results", .number config.maxResults)]⟩,
    ⟨"store", [("repository", .text config.repository), ("branch", .text config.branch),
      ("log_suffix", .text config.logSuffix)]⟩,
    ⟨"cache", (config.cachePath.map fun path => ("path", .text path)).toList⟩]

/-- Settings are written as blocks. -/
theorem write_eq_writeBlocks : config.write = Toml.writeBlocks config.blocks := by
  cases path : config.cachePath <;>
    simp [write, blocks, Toml.writeBlocks, Toml.Block.written, Toml.Setting.written, path]

/-- The blocks of settings can be read, as long as the number in them has 63 bits. -/
theorem legible_blocks (countable : config.maxResults < Nat.pow 2 63) :
    ∀ block ∈ config.blocks, block.Legible := by
  have bare : ∀ name ∈ ["general", "log_level", "max_results", "store", "repository", "branch",
      "log_suffix", "cache", "path"], Toml.IsBareName name := by decide
  simp only [List.forall_mem_cons] at bare
  obtain ⟨general, level, results, store, repository, branch, suffix, cache, path, -⟩ := bare
  simp only [blocks, List.forall_mem_cons]
  refine ⟨⟨general, ?_, by simp⟩, ⟨store, ?_, by simp⟩, ⟨cache, ?_, ?_⟩, nofun⟩
  · simp only [List.forall_mem_cons]
    exact ⟨⟨level, trivial⟩, ⟨results, countable⟩, nofun⟩
  · simp only [List.forall_mem_cons]
    exact ⟨⟨repository, trivial⟩, ⟨branch, trivial⟩, ⟨suffix, trivial⟩, nofun⟩
  · intro entry member
    obtain ⟨chosen, -, rfl⟩ := Option.map_eq_some_iff.mp (Option.mem_toList.mp member)
    exact ⟨path, trivial⟩
  · cases config.cachePath <;> simp

/-- The tables of the sections give the settings that they were made of. -/
theorem ofDocument?_blocks : ofDocument? (config.blocks.map Toml.Block.table) = some config := by
  have general : section? ["log_level", "max_results"]
      ((config.blocks.map Toml.Block.table).lookup "general") =
        some [some (.text config.logLevel), some (.integer config.maxResults)] := rfl
  have store : section? ["repository", "branch", "log_suffix"]
      ((config.blocks.map Toml.Block.table).lookup "store") =
        some [some (.text config.repository), some (.text config.branch),
          some (.text config.logSuffix)] := rfl
  have cache : section? ["path"] ((config.blocks.map Toml.Block.table).lookup "cache") =
      some [config.cachePath.map .text] := by
    cases path : config.cachePath <;> simp [blocks, path] <;> rfl
  have text (standard value : String) :
      given textOf? standard (some (.text value)) = some value := rfl
  have count (standard : Nat) :
      given countOf? standard (some (.integer config.maxResults)) = some config.maxResults := by
    simp [given, countOf?]
  have chosen : given (fun value => (textOf? value).map some) none
      (config.cachePath.map .text) = some config.cachePath := by
    cases config.cachePath <;> rfl
  rw [ofDocument?, general, store, cache]
  simp [text, count, chosen]

/-- Settings that were written are read back, if nothing is wrong with them. -/
theorem parse_write (countable : config.maxResults < Nat.pow 2 63) :
    parse config.write =
      match config.problem? with
      | some problem => .error (.config problem)
      | none => .ok config := by
  have names : (config.blocks.map Toml.Block.name).Nodup := by
    simp [blocks]
  have read : (Toml.read config.write).bind ofDocument? = some config := by
    rw [write_eq_writeBlocks, Toml.read_writeBlocks (config.legible_blocks countable) names,
      Option.bind_some, ofDocument?_blocks]
  cases problem : config.problem? <;> simp only [parse, read, problem]

theorem problem?_of_blank (blank : ∀ c ∈ config.branch.toList, isBlank c = true) :
    config.problem? = some "store.branch must not be empty" := by
  rw [problem?, isEmpty_trim, List.all_eq_true.mpr blank, if_pos rfl]

/-- With a branch, only an empty suffix is a problem. -/
theorem problem?_of_visible (visible : ∃ c ∈ config.branch.toList, isBlank c = false) :
    config.problem? =
      if config.logSuffix = "" then some "store.log_suffix must not be empty" else none := by
  have shown : config.branch.toList.all isBlank = false := by
    rw [List.all_eq_false]
    obtain ⟨c, member, visible⟩ := visible
    exact ⟨c, member, Bool.eq_false_iff.mp visible⟩
  rw [problem?, isEmpty_trim, shown, if_neg Bool.false_ne_true]
  simp

/-- **Settings are loaded as they were saved**, if the branch has a character that is no blank and
there is an end of the paths of logs; and else loading tells which of the two is missing. -/
theorem load_save (countable : config.maxResults < Nat.pow 2 63) :
    ∃ text, config.save = .ok text ∧
      ((∃ c ∈ config.branch.toList, isBlank c = false) → config.logSuffix ≠ "" →
        load (some (Utf8.encode text)) = .ok config) ∧
      ((∀ c ∈ config.branch.toList, isBlank c = true) →
        load (some (Utf8.encode text)) = .error (.config "store.branch must not be empty")) ∧
      ((∃ c ∈ config.branch.toList, isBlank c = false) → config.logSuffix = "" →
        load (some (Utf8.encode text)) =
          .error (.config "store.log_suffix must not be empty")) := by
  have loaded : load (some (Utf8.encode config.write)) = parse config.write := by
    rw [load, Utf8.decode_eq_ok_iff.mpr rfl]
  refine ⟨config.write, if_pos countable, ?_, ?_, ?_⟩
  all_goals rw [loaded, parse_write config countable]
  · intro visible suffix
    rw [config.problem?_of_visible visible, if_neg suffix]
  · intro blank
    rw [config.problem?_of_blank blank]
  · intro visible suffix
    rw [config.problem?_of_visible visible, if_pos suffix]

/-- Quotes of both kinds, backslashes, line endings and control characters come back. -/
theorem load_save_of_awkward :
    let config : Config := {
      logLevel := "\x00\t\r\n\x7f"
      maxResults := Nat.pow 2 63 - 1
      repository := "it's \"so\"\n\\"
      branch := "\u00a0'''\"\"\"\"\\u0041 "
      logSuffix := "#]="
      cachePath := some "" }
    config.maxResults < Nat.pow 2 63 ∧
      ∃ text, config.save = .ok text ∧ load (some (Utf8.encode text)) = .ok config := by
  intro config
  have countable : config.maxResults < Nat.pow 2 63 := by decide
  have visible : ∃ c ∈ config.branch.toList, isBlank c = false := ⟨'\'', by decide, by decide⟩
  obtain ⟨text, saved, loaded, -⟩ := config.load_save countable
  exact ⟨countable, text, saved, loaded visible (by decide)⟩

end AnnexCatalog.Config
