import AnnexCatalog.Proofs.Query.Parts
import AnnexCatalog.Proofs.Query.RoundTrip

/-! # Query texts one after another

A blank or a bar ends whatever was read before it, so a text that goes on with one of them is cut
into its own pieces and then into those of the rest (`CutInto.append`). Two texts with a separator
between them are therefore read as the groups of both, and with a blank between them the last group
of the first goes on with the first group of the second. A minus sign right before a clause is its
sign and changes nothing else (`parse_minus`).
-/

namespace AnnexCatalog

open Text

namespace Query

/-! ### What queries are joined to -/

/-- The groups of one query, and then those of another. -/
def orElse (first second : Query) : Query :=
  ⟨first.groups ++ second.groups⟩

/-- The groups of one query and those of another, with the last of the first and the first of the
second taken as one group. -/
def continuedBy (first second : Query) : Query :=
  ⟨first.groups.dropLast ++
    (first.groups.getLastD [] ++ second.groups.headD []) :: second.groups.tail⟩

/-- The pieces of some groups are those of the first, then a separator before each of the others. -/
theorem joined_cons (group : List Clause) (later : List (List Clause)) :
    joined (group :: later) = group.map Piece.clause ++
      later.flatMap fun next => .separator :: next.map Piece.clause := by
  induction later generalizing group with
  | nil => simp [joined]
  | cons next others step =>
      have split : joined (group :: next :: others) =
          group.map Piece.clause ++ .separator :: joined (next :: others) := by
        simp [joined, List.intercalate_cons_cons]
      rw [split, step, List.flatMap_cons, List.cons_append]

/-- The pieces of an alternative are those of both queries with a separator between them. -/
theorem joined_orElse {first second : Query} (some : first.groups ≠ [])
    (others : second.groups ≠ []) :
    joined (first.orElse second).groups =
      joined first.groups ++ .separator :: joined second.groups := by
  obtain ⟨group, later, split⟩ := List.exists_cons_of_ne_nil some
  obtain ⟨next, rest, other⟩ := List.exists_cons_of_ne_nil others
  rw [orElse, split, other, List.cons_append, joined_cons, joined_cons, joined_cons]
  simp

/-- Where a query is continued by another, the last group of the one takes the first of the other.
-/
theorem continuedBy_eq {first second : Query} {before after : List (List Clause)}
    {last next : List Clause} (left : first.groups = before ++ [last])
    (right : second.groups = next :: after) :
    first.continuedBy second = ⟨before ++ (last ++ next) :: after⟩ := by
  rw [continuedBy, left, right, List.dropLast_concat, List.getLastD_concat]
  rfl

/-- The pieces of a continued query are those of both, one after the other. -/
theorem joined_continuedBy {first second : Query} (some : first.groups ≠ [])
    (others : second.groups ≠ []) :
    joined (first.continuedBy second).groups = joined first.groups ++ joined second.groups := by
  obtain ⟨next, after, right⟩ := List.exists_cons_of_ne_nil others
  obtain ⟨before, last, left⟩ := (List.eq_nil_or_concat first.groups).resolve_left some
  rw [List.concat_eq_append] at left
  rw [continuedBy_eq left right, left, right]
  cases before with
  | nil => simp [joined_cons]
  | cons group later => simp [joined_cons]

/-- An alternative of queries without empty groups has none. -/
theorem nil_notMem_orElse {first second : Query} (left : [] ∉ first.groups)
    (right : [] ∉ second.groups) : [] ∉ (first.orElse second).groups := by
  simp [orElse, left, right]

/-- A continued query has no empty groups, if its parts have none. -/
theorem nil_notMem_continuedBy {first second : Query} (left : [] ∉ first.groups)
    (right : [] ∉ second.groups) (some : first.groups ≠ []) (others : second.groups ≠ []) :
    [] ∉ (first.continuedBy second).groups := by
  obtain ⟨next, after, same⟩ := List.exists_cons_of_ne_nil others
  obtain ⟨before, last, split⟩ := (List.eq_nil_or_concat first.groups).resolve_left some
  rw [List.concat_eq_append] at split
  rw [continuedBy_eq split same]
  rw [split] at left
  rw [same] at right
  simp_all

/-! ### Texts that go on -/

theorem atBoundary_append {text rest : List Char} (first : atBoundary text = true)
    (ends : atBoundary rest = true) : atBoundary (text ++ rest) = true := by
  cases text with
  | nil => exact ends
  | cons c others => exact first

/-- A separator stays one if what follows a text begins at a boundary. -/
theorem afterSeparator?_append {text after rest : List Char}
    (separated : afterSeparator? text = some after) (ends : atBoundary rest = true) :
    afterSeparator? (text ++ rest) = some (after ++ rest) := by
  rw [afterSeparator?_eq_some_iff] at separated ⊢
  rcases separated with rfl | ⟨rfl, stops⟩
  · exact .inl rfl
  · exact .inr ⟨rfl, atBoundary_append stops ends⟩

/-- A text that goes on with a blank or a bar is cut into its own pieces and then into those of the
rest. -/
theorem CutInto.append {text rest : List Char} {pieces others : List Piece}
    (cut : CutInto text pieces) (ends : atBoundary rest = true) (later : CutInto rest others) :
    CutInto (text ++ rest) (pieces ++ others) := by
  induction cut with
  | nil => exact later
  | blank blank _ step => exact .blank blank step
  | separator separated _ step => exact .separator (afterSeparator?_append separated ends) step
  | @clause written left clause _ unseparated shape _ step =>
      have moved : ClauseText written (left ++ rest) clause :=
        shape.of_atBoundary fun stops => atBoundary_append stops ends
      have inside : atBoundary written = false := by simpa using shape.atBoundary_append []
      -- Whether the text begins with a separator is settled within the clause, not by the rest.
      have alone : afterSeparator? written = none :=
        (afterSeparator?_append_eq_none_iff shape.shape.ends inside).mp unseparated
      rw [List.append_assoc]
      exact .clause ((afterSeparator?_append_eq_none_iff moved.shape.ends inside).mpr alone) moved
        step

/-- A text is read as a query without empty groups if it is cut into the pieces of the query. -/
theorem parse_eq_ok_iff_joined {text : String} {query : Query} (nonempty : [] ∉ query.groups) :
    parse text = .ok query ↔ CutInto text.toList (joined query.groups) := by
  rw [parse_eq_ok_iff]
  simp only [forms_iff_joined nonempty, exists_eq_right]

theorem nil_notMem_of_parse {text : String} {query : Query} (accepted : parse text = .ok query) :
    [] ∉ query.groups := by
  obtain ⟨_, -, formed⟩ := parse_eq_ok_iff.mp accepted
  exact formed.nil_notMem

/-- What may stand between two texts: it begins with a blank, and `cut` is found in it. -/
structure Joint (text : String) (cut : List Piece) : Prop where
  begins : ∀ rest, atBoundary (text.toList ++ rest) = true
  divides : ∀ {rest pieces}, CutInto rest pieces → CutInto (text.toList ++ rest) (cut ++ pieces)

/-- A space joins two texts without a piece. -/
theorem joint_space : Joint " " [] :=
  ⟨fun _ => rfl, fun later => .blank rfl later⟩

/-- A bar joins two texts by a separator. -/
theorem joint_bar : Joint " | " [.separator] :=
  ⟨fun _ => rfl, fun later => .blank rfl (.separator rfl (.blank rfl later))⟩

/-- The word for a bar joins two texts by a separator. -/
theorem joint_or : Joint " OR " [.separator] :=
  ⟨fun _ => rfl, fun later => .blank rfl (.separator rfl (.blank rfl later))⟩

section Joints

variable {first second joint : String} {query other : Query}

/-- Joined texts are cut into the pieces of the one, those of the joint and those of the other. -/
theorem Joint.cutInto {cut pieces others : List Piece} (between : Joint joint cut)
    (left : CutInto first.toList pieces) (right : CutInto second.toList others) :
    CutInto (first ++ joint ++ second).toList (pieces ++ (cut ++ others)) := by
  rw [String.toList_append, String.toList_append, List.append_assoc]
  exact left.append (between.begins _) (between.divides right)

/-- Texts with a separator between them are read as the groups of both. -/
theorem parse_orElse (between : Joint joint [.separator]) (left : parse first = .ok query)
    (right : parse second = .ok other) (some : query.groups ≠ []) (others : other.groups ≠ []) :
    parse (first ++ joint ++ second) = .ok (query.orElse other) := by
  have nonempty := nil_notMem_of_parse left
  have filled := nil_notMem_of_parse right
  rw [parse_eq_ok_iff_joined nonempty] at left
  rw [parse_eq_ok_iff_joined filled] at right
  rw [parse_eq_ok_iff_joined (nil_notMem_orElse nonempty filled), joined_orElse some others]
  exact between.cutInto left right

/-- With a blank between two texts, the last group of the first goes on in the second. -/
theorem parse_continuedBy (left : parse first = .ok query) (right : parse second = .ok other)
    (some : query.groups ≠ []) (others : other.groups ≠ []) :
    parse (first ++ " " ++ second) = .ok (query.continuedBy other) := by
  have nonempty := nil_notMem_of_parse left
  have filled := nil_notMem_of_parse right
  rw [parse_eq_ok_iff_joined nonempty] at left
  rw [parse_eq_ok_iff_joined filled] at right
  rw [parse_eq_ok_iff_joined (nil_notMem_continuedBy nonempty filled some others),
    joined_continuedBy some others]
  exact joint_space.cutInto left right

end Joints

/-! ### A minus sign before a clause -/

/-- A clause is negated exactly if it is given that sign. -/
theorem Clause.negated_withSign (negated : Bool) (clause : Clause) :
    (clause.withSign negated).negated = negated := by
  cases clause <;> rfl

/-- A minus sign right before the one clause of a text negates it. -/
theorem parse_minus {text : String} {clause : Clause}
    (flush : ∀ c ∈ text.toList.head?, isBlank c = false)
    (accepted : parse text = .ok ⟨[[clause]]⟩) (positive : clause.negated = false) :
    parse ("-" ++ text) = .ok ⟨[[clause.withSign true]]⟩ := by
  rw [parse_eq_ok_iff_joined (by simp)] at accepted ⊢
  have only (sole : Clause) : joined [[sole]] = [.clause sole] := rfl
  rw [only] at accepted ⊢
  rw [String.toList_append]
  generalize text.toList = letters at flush accepted
  cases accepted with
  | blank blank later =>
      have kept := flush _ rfl
      rw [blank] at kept
      cases kept
  | @clause written rest _ _ unseparated shape later =>
      cases shape with
      | plain unsigned shape =>
          have signed : CutInto (('-' :: written) ++ rest) [.clause (clause.withSign true)] :=
            .clause rfl (.negated shape) later
          exact signed
      | negated shape =>
          rw [Clause.negated_withSign] at positive
          cases positive

end Query

end AnnexCatalog
