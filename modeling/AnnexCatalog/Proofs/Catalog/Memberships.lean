import AnnexCatalog.Catalog.Membership
import Mathlib.Data.List.Nodup

/-! # Reading memberships

Memberships are read for a number of items at a time, each time in order. What is gathered for one
item does not depend on the items that are read with it (`gather_read`), and holds the values of
every field in order (`get?_gathered`).
-/

namespace AnnexCatalog

theorem Field.name_injective {first second : Field} (same : first.name = second.name) :
    first = second := by
  have found := ofName?_name first
  rw [same, ofName?_name] at found
  exact (Option.some.inj found).symm

namespace Membership

/-! ### The order of reading -/

/-- Memberships are in the order of their ids, then of their fields, then of their values. -/
theorem notAfter_iff (first second : Membership) :
    first.notAfter second = true ↔ first.id < second.id ∨ first.id = second.id ∧
      (first.field.name < second.field.name ∨
        first.field.name = second.field.name ∧ first.value ≤ second.value) := by
  simp only [notAfter, Bool.or_eq_true, Bool.and_eq_true, decide_eq_true_eq, beq_iff_eq]

theorem notAfter_trans (first second third : Membership) (left : first.notAfter second = true)
    (right : second.notAfter third = true) : first.notAfter third = true := by
  rw [notAfter_iff] at left right ⊢
  rcases left with before | ⟨sameId, left⟩
  · rcases right with later | ⟨same, -⟩
    · exact .inl (Nat.lt_trans before later)
    · exact .inl (same ▸ before)
  · rcases right with later | ⟨otherId, right⟩
    · exact .inl (sameId ▸ later)
    · refine .inr ⟨sameId.trans otherId, ?_⟩
      rcases left with before | ⟨sameName, left⟩
      · rcases right with later | ⟨same, -⟩
        · exact .inl (String.lt_trans before later)
        · exact .inl (same ▸ before)
      · rcases right with later | ⟨otherName, right⟩
        · exact .inl (sameName ▸ later)
        · exact .inr ⟨sameName.trans otherName, String.le_trans left right⟩

theorem notAfter_total (first second : Membership) :
    (first.notAfter second || second.notAfter first) = true := by
  rw [Bool.or_eq_true, notAfter_iff, notAfter_iff]
  rcases Nat.lt_trichotomy first.id second.id with before | same | after
  · exact .inl (.inl before)
  · by_cases before : first.field.name < second.field.name
    · exact .inl (.inr ⟨same, .inl before⟩)
    · by_cases after : second.field.name < first.field.name
      · exact .inr (.inr ⟨same.symm, .inl after⟩)
      · have name := String.le_antisymm (String.not_lt.mp after) (String.not_lt.mp before)
        rcases String.le_total first.value second.value with below | above
        · exact .inl (.inr ⟨same, .inr ⟨name, below⟩⟩)
        · exact .inr (.inr ⟨same.symm, .inr ⟨name.symm, above⟩⟩)
  · exact .inr (.inl after)

/-- Two memberships of which none is after the other are the same. -/
theorem notAfter_antisymm {first second : Membership} (left : first.notAfter second = true)
    (right : second.notAfter first = true) : first = second := by
  rw [notAfter_iff] at left right
  obtain ⟨id, field, value⟩ := first
  obtain ⟨otherId, otherField, otherValue⟩ := second
  simp only at left right
  rcases left with before | ⟨rfl, left⟩
  · rcases right with after | ⟨rfl, -⟩
    · exact absurd after (Nat.lt_asymm before)
    · exact absurd before (Nat.lt_irrefl _)
  · rcases right with after | ⟨-, right⟩
    · exact absurd after (Nat.lt_irrefl _)
    · rcases left with before | ⟨sameName, left⟩
      · rcases right with after | ⟨same, -⟩
        · exact absurd after (String.lt_asymm before)
        · exact absurd before (same ▸ String.lt_irrefl _)
      · cases Field.name_injective sameName
        rcases right with after | ⟨-, right⟩
        · exact absurd after (String.lt_irrefl _)
        · cases String.le_antisymm left right
          rfl

/-- Memberships are selected in order. -/
theorem pairwise_select (table : List Membership) (ids : List Nat) :
    (select table ids).Pairwise fun first second => first.notAfter second = true :=
  List.pairwise_mergeSort notAfter_trans notAfter_total _

/-! ### Portions -/

/-- The portions of a list are the list again. -/
theorem flatten_portionsFrom {α : Type} (size : Nat) (started list : List α) :
    (portionsFrom size started list).flatten = started ++ list := by
  induction list generalizing started with
  | nil =>
      unfold portionsFrom
      cases started <;> simp
  | cons next rest step =>
      unfold portionsFrom
      split
      · rw [step, List.append_assoc, List.singleton_append]
      · rw [List.flatten_cons, step, List.nil_append, List.append_assoc, List.singleton_append]

/-- Of memberships that are read together, those of one item are as if they were read alone. -/
theorem filter_select (table : List Membership) (ids : List Nat) (id : Nat) :
    (select table ids).filter (·.id == id) = if id ∈ ids then select table [id] else [] := by
  by_cases asked : id ∈ ids
  · rw [if_pos asked]
    have same : ((select table ids).filter (·.id == id)).Perm (select table [id]) := by
      refine ((List.mergeSort_perm _ _).filter _).trans (.trans ?_ (List.mergeSort_perm _ _).symm)
      rw [List.filter_filter]
      refine List.Perm.of_eq (List.filter_congr ?_)
      intro entry _
      by_cases here : entry.id = id
      · simp [here, asked]
      · simp [here]
    exact same.eq_of_pairwise (fun first second _ _ => notAfter_antisymm)
      ((pairwise_select table ids).filter _) (pairwise_select table [id])
  · rw [if_neg asked]
    apply List.filter_eq_nil_iff.mpr
    intro entry member named
    have listed := List.mem_mergeSort.mp member
    have contained := (List.mem_filter.mp listed).2
    rw [beq_iff_eq.mp named, List.contains_iff_mem] at contained
    exact asked contained

theorem flatMap_ite_mem {α : Type} {parts : List (List Nat)} {id : Nat} (entries : List α)
    (distinct : parts.flatten.Nodup) :
    (parts.flatMap fun part => if id ∈ part then entries else []) =
      if id ∈ parts.flatten then entries else [] := by
  induction parts with
  | nil => rfl
  | cons part rest step =>
      obtain ⟨-, tail, apart⟩ := List.nodup_append.mp distinct
      rw [List.flatMap_cons, step tail, List.flatten_cons]
      by_cases here : id ∈ part
      · have elsewhere : id ∉ rest.flatten := fun there => apart id here id there rfl
        simp [here, elsewhere]
      · simp [here]

/-- Reading portion by portion gives of every item what reading it alone does. -/
theorem filter_read (table : List Membership) {ids : List Nat} (distinct : ids.Nodup) {id : Nat}
    (asked : id ∈ ids) : (read table ids).filter (·.id == id) = select table [id] := by
  have whole : (portions portionSize ids).flatten = ids := flatten_portionsFrom _ [] ids
  unfold read
  rw [List.filter_flatMap]
  simp only [filter_select]
  rw [flatMap_ite_mem _ (whole.symm ▸ distinct), whole, if_pos asked]

/-! ### Gathering -/

/-- What is gathered for an item from all that has been read is what it has by itself. -/
theorem gather_read (table : List Membership) {ids : List Nat} (distinct : ids.Nodup) {id : Nat}
    (asked : id ∈ ids) :
    gather (read table ids) id = (select table [id]).foldl put TextMap.empty := by
  unfold gather
  rw [filter_read table distinct asked]

/-- The values of a field among some memberships, in their order. -/
def valuesOf (entries : List Membership) (field : Field) : List String :=
  (entries.filter (·.field == field)).map Membership.value

/-- The values of a field are put behind those that were gathered before. -/
theorem get?_foldl_put (entries : List Membership) (gathered : TextMap (List String))
    (field : Field) :
    (entries.foldl put gathered).get? field.name =
      if valuesOf entries field = [] then gathered.get? field.name
      else some ((gathered.get? field.name).getD [] ++ valuesOf entries field) := by
  induction entries generalizing gathered with
  | nil => rfl
  | cons entry rest step =>
      rw [List.foldl_cons, step, put, TextMap.get?_insert]
      by_cases same : entry.field = field
      · have values : valuesOf (entry :: rest) field = entry.value :: valuesOf rest field := by
          simp [valuesOf, same]
        rw [values, same, if_pos rfl, if_neg (List.cons_ne_nil _ _)]
        by_cases last : valuesOf rest field = []
        · rw [if_pos last, last]
        · rw [if_neg last, Option.getD_some, List.append_assoc, List.singleton_append]
      · have names : field.name ≠ entry.field.name := fun equal =>
          same (Field.name_injective equal).symm
        have values : valuesOf (entry :: rest) field = valuesOf rest field := by
          simp [valuesOf, same]
        rw [values, if_neg names]

/-- What is gathered for a field: its values in ascending order, or nothing if there are none. -/
theorem get?_gathered (table : List Membership) (id : Nat) (field : Field) :
    ((select table [id]).foldl put TextMap.empty).get? field.name =
      if valuesOf (select table [id]) field = [] then none
      else some (valuesOf (select table [id]) field) := by
  rw [get?_foldl_put, TextMap.get?_empty, Option.getD_none, List.nil_append]

/-- The values of a field of one item are in ascending order. -/
theorem pairwise_valuesOf (table : List Membership) (id : Nat) (field : Field) :
    (valuesOf (select table [id]) field).Pairwise (· ≤ ·) := by
  refine List.pairwise_map.mpr (List.Pairwise.imp_of_mem ?_
    ((pairwise_select table [id]).filter _))
  intro first second firstMember secondMember ordered
  obtain ⟨firstListed, firstField⟩ := List.mem_filter.mp firstMember
  obtain ⟨secondListed, secondField⟩ := List.mem_filter.mp secondMember
  have idOf {entry : Membership} (listed : entry ∈ select table [id]) : entry.id = id := by
    simpa using (List.mem_filter.mp (List.mem_mergeSort.mp listed)).2
  have fields : first.field = second.field :=
    (beq_iff_eq.mp firstField).trans (beq_iff_eq.mp secondField).symm
  rcases (notAfter_iff first second).mp ordered with before | ⟨-, before | ⟨-, below⟩⟩
  · rw [idOf firstListed, idOf secondListed] at before
    exact absurd before (Nat.lt_irrefl _)
  · rw [fields] at before
    exact absurd before (String.lt_irrefl _)
  · exact below

/-- The values of a field of one item are those of the table. -/
theorem valuesOf_perm (table : List Membership) (id : Nat) (field : Field) :
    (valuesOf (select table [id]) field).Perm
      (((table.filter (·.id == id)).filter (·.field == field)).map Membership.value) := by
  unfold valuesOf select
  refine ((((List.mergeSort_perm _ _).filter _).trans (List.Perm.of_eq ?_)).map _)
  congr 1
  apply List.filter_congr
  intro entry _
  by_cases here : entry.id = id <;> simp [here]

end Membership

end AnnexCatalog
