import AnnexCatalog.Proofs.Query.Grammar
import AnnexCatalog.Query.Parse
import Mathlib.Data.List.Basic
import Mathlib.Data.List.DropRight

/-! # The pieces of a query text

`CutInto` describes how a text falls into separators and clauses, with blanks between them, and
`Forms` how groups arise from pieces. A query is read exactly if its text is cut into pieces that
form its groups (`parse_eq_ok_iff`).
-/

namespace AnnexCatalog.Query

open Text

/-! ### Cutting a text -/

/-- A text and the separators and clauses that stand in it. -/
inductive CutInto : List Char → List Piece → Prop where
  | nil : CutInto [] []
  | blank {c : Char} {rest : List Char} {pieces : List Piece} (blank : isBlank c = true)
      (later : CutInto rest pieces) : CutInto (c :: rest) pieces
  | separator {text rest : List Char} {pieces : List Piece}
      (separated : afterSeparator? text = some rest) (later : CutInto rest pieces) :
      CutInto text (.separator :: pieces)
  | clause {written rest : List Char} {clause : Clause} {pieces : List Piece}
      (unseparated : afterSeparator? (written ++ rest) = none)
      (shape : ClauseText written rest clause) (later : CutInto rest pieces) :
      CutInto (written ++ rest) (.clause clause :: pieces)

theorem ClauseText.atBoundary_append {written following : List Char} {clause : Clause}
    (shape : ClauseText written following clause) (rest : List Char) :
    atBoundary (written ++ rest) = false := by
  cases shape with
  | plain unsigned shape => exact shape.atBoundary_append rest
  | negated shape => exact (by decide : endsWord '-' = false)

/-- A text that does not begin with a blank is not trimmed at its front. -/
theorem trimStart_of_not_blank {c : Char} {rest : List Char} (kept : isBlank c = false) :
    trimStart (c :: rest) = c :: rest := by
  rw [trimStart, List.dropWhile_cons, kept, if_neg Bool.false_ne_true]

/-- Blanks at the front of a text do not matter for its pieces. -/
theorem scan_trimStart (text : List Char) : scan (trimStart text) = scan text := by
  have same : trimStart (trimStart text) = trimStart text :=
    List.dropWhile_idempotent isBlank text
  rw [scan.eq_def, scan.eq_def text, same]

theorem scan_blank {c : Char} (rest : List Char) (blank : isBlank c = true) :
    scan (c :: rest) = scan rest := by
  rw [← scan_trimStart, trimStart, List.dropWhile_cons, blank, if_pos rfl, ← trimStart,
    scan_trimStart]

/-- What is found first where no blank stands. -/
theorem scan_cons {c : Char} (rest : List Char) (kept : isBlank c = false) :
    scan (c :: rest) =
      match afterSeparator? (c :: rest) with
      | some after => ⟨c :: rest, .separator⟩ :: scan after
      | none =>
          match takeClause (c :: rest) with
          | .error fault => [⟨c :: rest, .fault fault⟩]
          | .ok (clause, after) => ⟨c :: rest, .clause clause⟩ :: scan after := by
  have trimmed : trimStart (c :: rest) = c :: rest := trimStart_of_not_blank kept
  rw [scan.eq_def]
  split
  · next empty => simp [trimmed] at empty
  · next first others found =>
      cases trimmed.symm.trans found
      split <;> simp_all
      split <;> simp_all

theorem not_blank_of_trimStart {text rest : List Char} {c : Char}
    (trimmed : trimStart text = c :: rest) : isBlank c = false := by
  have kept := List.head?_dropWhile_not isBlank text
  rw [← trimStart, trimmed] at kept
  simpa using kept

theorem not_blank_of_not_atBoundary {c : Char} {rest : List Char}
    (inside : atBoundary (c :: rest) = false) : isBlank c = false :=
  (Bool.or_eq_false_iff.mp inside).1

theorem not_atBoundary_of_unseparated {c : Char} {rest : List Char} (kept : isBlank c = false)
    (unseparated : afterSeparator? (c :: rest) = none) : atBoundary (c :: rest) = false := by
  have noBar : c ≠ '|' := by
    rintro rfl
    cases unseparated
  simp [atBoundary, endsWord, kept, noBar]

/-- A separator is a bar, or the word for it with a boundary behind. -/
theorem afterSeparator?_eq_some_iff {text rest : List Char} :
    afterSeparator? text = some rest ↔
      text = '|' :: rest ∨ text = 'O' :: 'R' :: rest ∧ atBoundary rest = true := by
  constructor
  · intro separated
    rw [afterSeparator?.eq_def] at separated
    split at separated
    · cases separated
      exact .inl rfl
    · split at separated
      · next ends =>
          cases separated
          exact .inr ⟨rfl, ends⟩
      · cases separated
    · cases separated
  · rintro (rfl | ⟨rfl, ends⟩)
    · rfl
    · exact if_pos ends

/-- There is no separator where neither a bar stands nor the word for it with a boundary behind. -/
theorem afterSeparator?_eq_none_iff {text : List Char} :
    afterSeparator? text = none ↔
      text.head? ≠ some '|' ∧ ∀ rest, text = 'O' :: 'R' :: rest → atBoundary rest = false := by
  unfold afterSeparator?
  split <;> simp_all [List.head?_eq_some_iff]

theorem not_blank_of_afterSeparator? {c : Char} {text rest : List Char}
    (separated : afterSeparator? (c :: text) = some rest) : isBlank c = false := by
  rcases afterSeparator?_eq_some_iff.mp separated with same | ⟨same, -⟩
  · cases same
    decide
  · cases same
    decide

/-- A separator is a piece of its own. -/
theorem scan_separator {text rest : List Char} (separated : afterSeparator? text = some rest) :
    scan text = ⟨text, .separator⟩ :: scan rest := by
  cases text with
  | nil => cases separated
  | cons c others => rw [scan_cons others (not_blank_of_afterSeparator? separated), separated]

/-- A clause is a piece where neither a blank nor a separator stands. -/
theorem scan_clause {text rest : List Char} {clause : Clause} (inside : atBoundary text = false)
    (unseparated : afterSeparator? text = none) (taken : takeClause text = .ok (clause, rest)) :
    scan text = ⟨text, .clause clause⟩ :: scan rest := by
  cases text with
  | nil => cases inside
  | cons c others =>
      rw [scan_cons others (not_blank_of_not_atBoundary inside), unseparated, taken]

/-- Blanks at the front do not matter for the pieces of a text. -/
theorem CutInto.blanks {blanks rest : List Char} {pieces : List Piece}
    (blank : ∀ c ∈ blanks, isBlank c = true) (later : CutInto rest pieces) :
    CutInto (blanks ++ rest) pieces := by
  induction blanks with
  | nil => exact later
  | cons c others step =>
      rw [List.forall_mem_cons] at blank
      exact .blank blank.1 (step blank.2)

/-- The pieces of a text are those that are left of it without the blanks at its front. -/
theorem CutInto.of_trimStart {text : List Char} {pieces : List Piece}
    (later : CutInto (trimStart text) pieces) : CutInto text pieces := by
  have cut : CutInto (text.takeWhile isBlank ++ trimStart text) pieces :=
    .blanks (fun c member => List.mem_takeWhile_imp member) later
  rwa [trimStart, List.takeWhile_append_dropWhile] at cut

/-- A text is cut into the pieces that are found in it if none of these is a fault. -/
theorem cutInto_iff {text : List Char} {pieces : List Piece} :
    CutInto text pieces ↔
      (scan text).map Located.piece = pieces ∧ ∀ fault, .fault fault ∉ pieces := by
  constructor
  · intro cut
    induction cut with
    | nil => exact ⟨by rw [scan.eq_def]; rfl, fun _ => List.not_mem_nil⟩
    | blank blank later step => exact ⟨by rw [scan_blank _ blank, step.1], step.2⟩
    | separator separated later step =>
        refine ⟨by rw [scan_separator separated, List.map_cons, step.1], fun fault => ?_⟩
        simp [step.2 fault]
    | @clause written rest _ _ unseparated shape later step =>
        have inside := shape.atBoundary_append rest
        have taken := (takeClause_eq_ok_iff inside).mpr ⟨_, rfl, shape⟩
        refine ⟨by rw [scan_clause inside unseparated taken, List.map_cons, step.1], fun fault => ?_⟩
        simp [step.2 fault]
  · rintro ⟨rfl, faultless⟩
    induction text using scan.induct with
    | case1 text trimmed =>
        refine .of_trimStart ?_
        rw [← scan_trimStart, trimmed, scan.eq_def]
        exact .nil
    | case2 text c rest trimmed after separated step =>
        refine .of_trimStart ?_
        rw [← scan_trimStart, trimmed, scan_separator separated] at faultless ⊢
        exact .separator separated (step fun fault member =>
          faultless fault (List.mem_cons_of_mem _ member))
    | case3 text c rest trimmed unseparated fault failed =>
        have kept := not_blank_of_trimStart trimmed
        rw [← scan_trimStart, trimmed, scan_cons rest kept, unseparated, failed] at faultless
        exact absurd List.mem_cons_self (faultless fault)
    | case4 text c rest trimmed unseparated clause after taken step =>
        have inside := not_atBoundary_of_unseparated (not_blank_of_trimStart trimmed) unseparated
        obtain ⟨written, split, shape⟩ := (takeClause_eq_ok_iff inside).mp taken
        refine .of_trimStart ?_
        rw [← scan_trimStart, trimmed, scan_clause inside unseparated taken] at faultless ⊢
        rw [split] at unseparated ⊢
        exact .clause unseparated shape (step fun fault member =>
          faultless fault (List.mem_cons_of_mem _ member))

/-! ### Groups of pieces -/

/-- The groups that pieces form: the runs of clauses between separators, none of them empty. No
pieces form no groups. -/
inductive Forms : List Piece → List (List Clause) → Prop where
  | none : Forms [] []
  | some {pieces : List Piece} {groups : List (List Clause)} (found : pieces ≠ [])
      (nonempty : [] ∉ groups)
      (runs : pieces.splitOn .separator = groups.map (List.map Piece.clause)) :
      Forms pieces groups

theorem map_clause_injective : Function.Injective (List.map Piece.clause) :=
  List.map_injective_iff.mpr fun _ _ same => Piece.clause.inj same

/-- Cutting a list loses only the elements at which it is cut. -/
theorem mem_splitOn_iff {α : Type} [DecidableEq α] {cut x : α} {xs : List α} (kept : x ≠ cut) :
    (∃ run ∈ xs.splitOn cut, x ∈ run) ↔ x ∈ xs := by
  have joined (runs : List (List α)) : (∃ run ∈ runs, x ∈ run) ↔ x ∈ [cut].intercalate runs := by
    induction runs with
    | nil => simp
    | cons run others step =>
        cases others with
        | nil => simp
        | cons next others =>
            rw [List.intercalate_cons_cons, List.mem_append, List.mem_append, ← step,
              List.mem_singleton, List.exists_mem_cons_iff]
            simp [kept]
  rw [joined, List.intercalate_splitOn]

theorem separator_notMem_map (clauses : List Clause) :
    Piece.separator ∉ clauses.map Piece.clause := by
  simp

/-- Apart from separators, the pieces are the clauses of the groups. -/
theorem mem_pieces_iff {pieces : List Piece} {groups : List (List Clause)} {piece : Piece}
    (runs : pieces.splitOn .separator = groups.map (List.map Piece.clause))
    (other : piece ≠ .separator) :
    piece ∈ pieces ↔ ∃ group ∈ groups, piece ∈ group.map Piece.clause := by
  rw [← mem_splitOn_iff other, runs]
  simp only [List.mem_map, exists_exists_and_eq_and]

/-- Pieces whose runs are groups of clauses have no faults among them. -/
theorem fault_notMem_pieces {pieces : List Piece} {groups : List (List Clause)}
    (runs : pieces.splitOn .separator = groups.map (List.map Piece.clause)) (fault : Fault) :
    .fault fault ∉ pieces := by
  rw [mem_pieces_iff runs Piece.noConfusion]
  simp

/-- What is gathered while a group with the clauses `held` is open. -/
theorem gather_eq_ok_iff {held : List Clause} {cut : Option (List Char)} {located : List Located}
    {groups : List (List Clause)} (opened : held ≠ [] ∨ cut ≠ none ∨ located ≠ []) :
    gather held cut located = .ok groups ↔
      [] ∉ groups ∧ (held.map Piece.clause ++ located.map Located.piece).splitOn .separator =
        groups.map (List.map Piece.clause) := by
  induction located generalizing held cut groups with
  | nil =>
      have only : [held.map Piece.clause] = groups.map (List.map Piece.clause) ↔
          groups = [held] := by
        rw [← List.map_singleton, (List.map_injective_iff.mpr map_clause_injective).eq_iff, eq_comm]
      rw [gather.eq_def, List.map_nil, List.append_nil,
        List.splitOn_eq_singleton (separator_notMem_map held), only]
      cases held with
      | nil =>
          cases cut with
          | none => exact absurd opened (by simp)
          | some place => exact ⟨nofun, fun formed => absurd formed (by grind)⟩
      | cons first others => exact ⟨by grind, by grind⟩
  | cons first rest step =>
      obtain ⟨place, separator | clause | fault⟩ := first
      · have inner {later : List (List Clause)} : gather [] (some place) rest = .ok later ↔
            [] ∉ later ∧ (rest.map Located.piece).splitOn .separator =
              later.map (List.map Piece.clause) := step (.inr (.inl (Option.some_ne_none _)))
        rw [gather, List.map_cons,
          List.splitOn_append_cons_self_of_not_mem (separator_notMem_map held)]
        constructor
        · intro found
          split at found
          · cases found
          · next nonempty =>
              obtain ⟨later, rest, rfl⟩ := map_eq_ok_iff.mp found
              obtain ⟨others, runs⟩ := inner.mp rest
              exact ⟨by simpa [others] using Ne.symm nonempty, congrArg _ runs⟩
        · rintro ⟨nonempty, runs⟩
          obtain ⟨group, later, rfl, same, others⟩ := List.map_eq_cons_iff.mp runs.symm
          obtain rfl := map_clause_injective same
          rw [List.mem_cons, not_or] at nonempty
          rw [if_neg (by simpa using Ne.symm nonempty.1)]
          exact map_eq_ok_iff.mpr ⟨later, inner.mpr ⟨nonempty.2, others.symm⟩, rfl⟩
      · rw [gather, step (.inl (by simp)), List.map_append, List.append_assoc]
        rfl
      · refine ⟨nofun, fun formed => ?_⟩
        exact absurd (by simp) (fault_notMem_pieces formed.2 fault)

/-- Pieces are gathered into groups exactly if these are formed from them. -/
theorem gather_eq_ok_iff_forms {located : List Located} {groups : List (List Clause)} :
    gather [] none located = .ok groups ↔ Forms (located.map Located.piece) groups := by
  cases located with
  | nil =>
      constructor
      · intro found
        cases found
        exact .none
      · intro formed
        cases formed with
        | none => rfl
        | some found => exact absurd rfl found
  | cons first rest =>
      rw [gather_eq_ok_iff (.inr (.inr (List.cons_ne_nil _ _)))]
      constructor
      · rintro ⟨nonempty, runs⟩
        exact .some (by simp) nonempty runs
      · intro formed
        cases formed with
        | some _ nonempty runs => exact ⟨nonempty, runs⟩

/-- Pieces from which groups are formed have no faults among them. -/
theorem Forms.fault_notMem {pieces : List Piece} {groups : List (List Clause)}
    (formed : Forms pieces groups) (fault : Fault) : .fault fault ∉ pieces := by
  cases formed with
  | none => exact List.not_mem_nil
  | some _ _ runs => exact fault_notMem_pieces runs fault

/-- **The reader of queries.** A text is read as the query whose groups its pieces form. -/
theorem parse_eq_ok_iff {text : String} {query : Query} :
    parse text = .ok query ↔ ∃ pieces, CutInto text.toList pieces ∧ Forms pieces query.groups := by
  have gathered : parse text = .ok query ↔ groupsOf text.toList = .ok query.groups := by
    obtain ⟨groups⟩ := query
    simp only [parse, map_eq_ok_iff, mapError_eq_ok_iff, mk.injEq, exists_eq_right]
  rw [gathered, groupsOf, gather_eq_ok_iff_forms]
  constructor
  · intro formed
    exact ⟨_, cutInto_iff.mpr ⟨rfl, formed.fault_notMem⟩, formed⟩
  · rintro ⟨pieces, cut, formed⟩
    rwa [(cutInto_iff.mp cut).1]

end AnnexCatalog.Query
