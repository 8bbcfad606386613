/-! # Maps and sets keyed by text

A map keeps its entries in ascending order of their keys, which is the order of code points and so
of UTF-8 bytes. The order is part of the type, so two maps with the same look-ups are equal. A set
of texts is a map to the unit.
-/

namespace AnnexCatalog

/-- What is looked up in a list is one of its entries. -/
theorem mem_of_lookup_eq_some {κ α : Type} [BEq κ] [LawfulBEq κ] {entries : List (κ × α)} {key : κ}
    {value : α} (found : entries.lookup key = some value) : (key, value) ∈ entries := by
  obtain ⟨before, after, rfl, -⟩ := List.lookup_eq_some_iff.mp found
  exact List.mem_append_right _ List.mem_cons_self

/-- A finite map from texts, with its entries in ascending order of their keys. -/
structure TextMap (α : Type) where
  entries : List (String × α)
  ascending : entries.Pairwise fun first second => first.1 < second.1

namespace TextMap

variable {α : Type}

def empty : TextMap α := ⟨[], .nil⟩

instance : Inhabited (TextMap α) := ⟨empty⟩

def get? (map : TextMap α) (key : String) : Option α :=
  map.entries.lookup key

def contains (map : TextMap α) (key : String) : Bool :=
  (map.get? key).isSome

/-- The keys, in ascending order. -/
def keys (map : TextMap α) : List String :=
  map.entries.map (·.1)

/-- Put an entry into ascending entries, in place of one with its key. -/
def insertEntry (key : String) (value : α) : List (String × α) → List (String × α)
  | [] => [(key, value)]
  | (other, held) :: rest =>
      if key < other then (key, value) :: (other, held) :: rest
      else if key = other then (key, value) :: rest
      else (other, held) :: insertEntry key value rest

/-- Insertion adds no entry but the one for its key. -/
theorem fst_of_mem_insertEntry {key : String} {value : α} {entry : String × α}
    {entries : List (String × α)} (member : entry ∈ insertEntry key value entries) :
    entry.1 = key ∨ entry ∈ entries := by
  induction entries with
  | nil => simp_all [insertEntry]
  | cons head rest step =>
      obtain ⟨other, held⟩ := head
      rw [insertEntry] at member
      split at member
      · rcases List.mem_cons.mp member with rfl | inside
        · exact .inl rfl
        · exact .inr inside
      · split at member
        · rcases List.mem_cons.mp member with rfl | inside
          · exact .inl rfl
          · exact .inr (List.mem_cons_of_mem _ inside)
        · rcases List.mem_cons.mp member with rfl | inside
          · exact .inr List.mem_cons_self
          · exact (step inside).imp_right (List.mem_cons_of_mem _)

/-- Insertion keeps the order of the entries. -/
theorem pairwise_insertEntry (key : String) (value : α) {entries : List (String × α)}
    (ascending : entries.Pairwise fun first second => first.1 < second.1) :
    (insertEntry key value entries).Pairwise fun first second => first.1 < second.1 := by
  induction entries with
  | nil => simp [insertEntry]
  | cons head rest step =>
      obtain ⟨other, held⟩ := head
      obtain ⟨below, tail⟩ := List.pairwise_cons.mp ascending
      rw [insertEntry]
      split
      · next before =>
          refine List.pairwise_cons.mpr ⟨fun entry member => ?_, ascending⟩
          rcases List.mem_cons.mp member with rfl | inside
          · exact before
          · exact String.lt_trans before (below entry inside)
      · split
        · next same =>
            subst same
            exact List.pairwise_cons.mpr ⟨below, tail⟩
        · next notBefore different =>
            refine List.pairwise_cons.mpr ⟨fun entry member => ?_, step tail⟩
            rcases fst_of_mem_insertEntry member with named | inside
            · rw [named]
              exact Std.lt_of_le_of_ne (String.not_lt.mp notBefore) (Ne.symm different)
            · exact below entry inside

def insert (map : TextMap α) (key : String) (value : α) : TextMap α :=
  ⟨insertEntry key value map.entries, pairwise_insertEntry key value map.ascending⟩

def erase (map : TextMap α) (key : String) : TextMap α :=
  ⟨map.entries.filter (fun entry => entry.1 != key), map.ascending.filter _⟩

/-- The map that a list of entries describes, a later entry replacing an earlier one. -/
def ofList (entries : List (String × α)) : TextMap α :=
  entries.foldl (fun map entry => map.insert entry.1 entry.2) empty

/-- The first entry is looked up under its key, and hides those behind it. -/
theorem lookup_cons (asked : String) (entry : String × α) (rest : List (String × α)) :
    (entry :: rest).lookup asked = if asked = entry.1 then some entry.2 else rest.lookup asked := by
  obtain ⟨key, value⟩ := entry
  by_cases same : asked = key
  · simp [same]
  · simp [List.lookup_cons, beq_false_of_ne same, same]

/-- Insertion changes the look-up of its key and of no other. -/
theorem lookup_insertEntry (key : String) (value : α) (asked : String)
    (entries : List (String × α)) :
    (insertEntry key value entries).lookup asked =
      if asked = key then some value else entries.lookup asked := by
  induction entries with
  | nil => simp [insertEntry, lookup_cons]
  | cons head rest step =>
      obtain ⟨other, held⟩ := head
      rw [insertEntry]
      split
      · simp [lookup_cons]
      · split
        · next same =>
            subst same
            simp only [lookup_cons]
            split <;> rfl
        · next different =>
            simp only [lookup_cons, step]
            by_cases named : asked = other
            · subst named
              simp [Ne.symm different]
            · simp [named]

/-- Nothing is looked up in an empty map. -/
@[simp] theorem get?_empty (key : String) : (empty : TextMap α).get? key = none := rfl

/-- Setting a key changes the value of that key and of no other. -/
theorem get?_insert (map : TextMap α) (key : String) (value : α) (asked : String) :
    (map.insert key value).get? asked = if asked = key then some value else map.get? asked :=
  lookup_insertEntry key value asked map.entries

/-- Of several entries for a key the last one is found, and what the map held if there is none. -/
theorem get?_foldl_insert (entries : List (String × α)) (map : TextMap α) (asked : String) :
    (entries.foldl (fun map entry => map.insert entry.1 entry.2) map).get? asked =
      ((entries.reverse.find? (·.1 == asked)).map Prod.snd).or (map.get? asked) := by
  induction entries generalizing map with
  | nil => rfl
  | cons entry rest step =>
      rw [List.foldl_cons, step, get?_insert, List.reverse_cons, List.find?_append,
        List.find?_singleton]
      by_cases same : asked = entry.1
      · subst same
        rw [if_pos rfl, if_pos (beq_self_eq_true entry.1)]
        cases rest.reverse.find? (·.1 == entry.1) <;> rfl
      · rw [if_neg same, if_neg fun named => same (beq_iff_eq.mp named).symm, Option.or_none]

/-- A map is looked up in the entries that describe it from the last one on. -/
theorem get?_ofList (entries : List (String × α)) (asked : String) :
    (ofList entries).get? asked = (entries.reverse.find? (·.1 == asked)).map Prod.snd := by
  rw [ofList, get?_foldl_insert, get?_empty, Option.or_none]

/-- Without the entries for a key, that key is not found, and others are found as before. -/
theorem lookup_filter_ne (key asked : String) (entries : List (String × α)) :
    (entries.filter (fun entry => entry.1 != key)).lookup asked =
      if asked = key then none else entries.lookup asked := by
  induction entries with
  | nil => simp
  | cons head rest step =>
      obtain ⟨other, held⟩ := head
      by_cases same : other = key
      · subst same
        rw [List.filter_cons_of_neg (by simp), step]
        by_cases named : asked = other <;> simp [lookup_cons, named]
      · by_cases named : asked = other
        · subst named
          simp [same]
        · simp_all [lookup_cons]

/-- Erasing a key takes its value and no other. -/
theorem get?_erase (map : TextMap α) (key asked : String) :
    (map.erase key).get? asked = if asked = key then none else map.get? asked :=
  lookup_filter_ne key asked map.entries

/-- Where the keys ascend, each entry is what its key is looked up as. -/
theorem lookup_eq_some_of_mem {entries : List (String × α)}
    (ascending : entries.Pairwise fun first second => first.1 < second.1) {key : String} {value : α}
    (member : (key, value) ∈ entries) : entries.lookup key = some value := by
  induction entries with
  | nil => cases member
  | cons head rest step =>
      obtain ⟨other, held⟩ := head
      obtain ⟨below, tail⟩ := List.pairwise_cons.mp ascending
      rcases List.mem_cons.mp member with here | inside
      · cases here
        simp
      · have before : other < key := below (key, value) inside
        have different : key ≠ other := by
          rintro rfl
          exact String.lt_irrefl key before
        simp [lookup_cons, different, step tail inside]

/-- The entries of a map are its look-ups. -/
theorem mem_entries_iff (map : TextMap α) (key : String) (value : α) :
    (key, value) ∈ map.entries ↔ map.get? key = some value :=
  ⟨lookup_eq_some_of_mem map.ascending, mem_of_lookup_eq_some⟩

/-- Ascending entries are determined by their look-ups. -/
theorem entries_eq_of_lookup {left right : List (String × α)}
    (leftAscending : left.Pairwise fun first second => first.1 < second.1)
    (rightAscending : right.Pairwise fun first second => first.1 < second.1)
    (same : ∀ key, left.lookup key = right.lookup key) : left = right := by
  induction left generalizing right with
  | nil =>
      cases right with
      | nil => rfl
      | cons head rest =>
          have found := same head.1
          simp [lookup_cons] at found
  | cons head rest step =>
      cases right with
      | nil =>
          have found := same head.1
          simp [lookup_cons] at found
      | cons other others =>
          obtain ⟨below, tail⟩ := List.pairwise_cons.mp leftAscending
          obtain ⟨otherBelow, otherTail⟩ := List.pairwise_cons.mp rightAscending
          have headFound : head ∈ other :: others := by
            apply mem_of_lookup_eq_some
            rw [← same]
            simp [lookup_cons]
          have otherFound : other ∈ head :: rest := by
            apply mem_of_lookup_eq_some
            rw [same]
            simp [lookup_cons]
          have heads : head = other := by
            rcases List.mem_cons.mp headFound with here | inside
            · exact here
            · rcases List.mem_cons.mp otherFound with here | otherInside
              · exact here.symm
              · exact absurd (otherBelow head inside) (String.lt_asymm (below other otherInside))
          subst heads
          have absent {entries : List (String × α)} (above : ∀ entry ∈ entries, head.1 < entry.1) :
              entries.lookup head.1 = none := by
            cases found : entries.lookup head.1 with
            | none => rfl
            | some value =>
                exact absurd (above _ (mem_of_lookup_eq_some found)) (String.lt_irrefl _)
          have rests : rest = others := by
            apply step tail otherTail
            intro key
            by_cases named : key = head.1
            · subst named
              rw [absent below, absent otherBelow]
            · simpa [lookup_cons, named] using same key
          rw [rests]

/-- Maps with the same look-ups are equal. -/
theorem ext_get? {left right : TextMap α} (same : ∀ key, left.get? key = right.get? key) :
    left = right := by
  obtain ⟨leftEntries, leftAscending⟩ := left
  obtain ⟨rightEntries, rightAscending⟩ := right
  have entries := entries_eq_of_lookup leftAscending rightAscending same
  subst entries
  rfl

/-- Maps that agree on some keys have the same entries for these keys. -/
theorem filter_entries_congr {left right : TextMap α} (keep : String → Bool)
    (same : ∀ key, keep key = true → left.get? key = right.get? key) :
    left.entries.filter (fun entry => keep entry.1) =
      right.entries.filter (fun entry => keep entry.1) := by
  let restrict (map : TextMap α) : TextMap α :=
    ⟨map.entries.filter fun entry => keep entry.1, map.ascending.filter _⟩
  have found (map : TextMap α) (key : String) (value : α) :
      (restrict map).get? key = some value ↔ map.get? key = some value ∧ keep key = true := by
    rw [← mem_entries_iff, List.mem_filter, mem_entries_iff]
  have equal : restrict left = restrict right := by
    refine ext_get? fun key => Option.ext fun value => ?_
    rw [found, found]
    exact and_congr_left fun kept => by rw [same key kept]
  exact congrArg entries equal

/-- A map contains the keys that have a value. -/
theorem contains_iff (map : TextMap α) (key : String) :
    map.contains key = true ↔ ∃ value, map.get? key = some value := by
  simp only [contains, Option.isSome_iff_exists]

/-- An empty map contains no key. -/
@[simp] theorem contains_empty (key : String) : (empty : TextMap α).contains key = false := rfl

/-- Setting a key adds it to the keys, and no other. -/
@[simp] theorem contains_insert (map : TextMap α) (key : String) (value : α) (asked : String) :
    (map.insert key value).contains asked = (asked == key || map.contains asked) := by
  unfold contains
  rw [get?_insert]
  by_cases same : asked = key <;> simp [same]

/-- Erasing a key takes it from the keys, and no other. -/
@[simp] theorem contains_erase (map : TextMap α) (key asked : String) :
    (map.erase key).contains asked = (asked != key && map.contains asked) := by
  unfold contains
  rw [get?_erase]
  by_cases same : asked = key <;> simp [same]

/-- The listed keys are those that the map contains. -/
theorem mem_keys_iff (map : TextMap α) (key : String) :
    key ∈ map.keys ↔ map.contains key = true := by
  rw [contains_iff]
  constructor
  · intro member
    obtain ⟨entry, listed, rfl⟩ := List.mem_map.mp member
    exact ⟨entry.2, (map.mem_entries_iff entry.1 entry.2).mp listed⟩
  · rintro ⟨value, found⟩
    exact List.mem_map.mpr ⟨(key, value), (map.mem_entries_iff key value).mpr found, rfl⟩

/-- Keys are listed in the order of their code points. -/
theorem keys_ascending (map : TextMap α) : map.keys.Pairwise (· < ·) :=
  List.pairwise_map.mpr map.ascending

/-- A key is listed once. -/
theorem keys_nodup (map : TextMap α) : map.keys.Nodup := by
  apply map.keys_ascending.imp
  intro first second before same
  subst same
  exact String.lt_irrefl first before

instance [DecidableEq α] : DecidableEq (TextMap α) := fun left right =>
  if same : left.entries = right.entries then
    .isTrue (by cases left; cases right; cases same; rfl)
  else .isFalse (fun equal => same (equal ▸ rfl))

end TextMap

abbrev TextSet := TextMap Unit

namespace TextSet

/-- The texts of a set, in ascending order. -/
def toList (set : TextSet) : List String := TextMap.keys set

def add (set : TextSet) (text : String) : TextSet := TextMap.insert set text ()

def remove (set : TextSet) (text : String) : TextSet := TextMap.erase set text

def ofTexts (texts : List String) : TextSet := texts.foldl add TextMap.empty

def union (left right : TextSet) : TextSet := right.toList.foldl add left

def isEmpty (set : TextSet) : Bool := set.entries.isEmpty

/-- The listed texts are those of the set. -/
theorem mem_toList_iff (set : TextSet) (text : String) :
    text ∈ set.toList ↔ TextMap.contains set text = true :=
  TextMap.mem_keys_iff set text

/-- Adding a text adds it and no other. -/
@[simp] theorem contains_add (set : TextSet) (text asked : String) :
    TextMap.contains (set.add text) asked = (asked == text || TextMap.contains set asked) :=
  TextMap.contains_insert set text () asked

/-- Removing a text takes it and no other. -/
@[simp] theorem contains_remove (set : TextSet) (text asked : String) :
    TextMap.contains (set.remove text) asked = (asked != text && TextMap.contains set asked) :=
  TextMap.contains_erase set text asked

/-- Adding texts one after another adds each of them. -/
theorem contains_foldl_add (texts : List String) (set : TextSet) (asked : String) :
    TextMap.contains (texts.foldl add set) asked = true ↔
      asked ∈ texts ∨ TextMap.contains set asked = true := by
  induction texts generalizing set with
  | nil => simp
  | cons text rest step =>
      rw [List.foldl_cons, step, contains_add, List.mem_cons, Bool.or_eq_true, beq_iff_eq,
        or_assoc, or_left_comm]

/-- The set of some texts has those texts. -/
theorem contains_ofTexts_iff (texts : List String) (asked : String) :
    TextMap.contains (ofTexts texts) asked = true ↔ asked ∈ texts := by
  rw [ofTexts, contains_foldl_add]
  simp

/-- A union has the texts of both sets. -/
theorem contains_union_iff (left right : TextSet) (asked : String) :
    TextMap.contains (left.union right) asked = true ↔
      TextMap.contains left asked = true ∨ TextMap.contains right asked = true := by
  rw [union, contains_foldl_add, mem_toList_iff]
  exact or_comm

/-- Sets of the same texts are equal. -/
theorem ext_contains {left right : TextSet}
    (same : ∀ text, TextMap.contains left text = true ↔ TextMap.contains right text = true) :
    left = right := by
  refine TextMap.ext_get? fun key => ?_
  have agree := same key
  rw [TextMap.contains, TextMap.contains] at agree
  cases first : left.get? key <;> cases second : right.get? key <;> simp_all

end TextSet

/-- The keys whose values differ between two maps, a key without a value included. -/
def TextMap.differences {α : Type} [BEq α] (old new : TextMap α) : TextSet :=
  TextSet.ofTexts ((old.keys ++ new.keys).filter fun key => old.get? key != new.get? key)

end AnnexCatalog
