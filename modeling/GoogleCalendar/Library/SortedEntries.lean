import Mathlib.Data.String.Basic
import Mathlib.Order.Basic

/-!
# Maps as entry lists in key order

An ordered map is kept as the list of its entries, strictly increasing in the
key. Reading, assigning and erasing are single passes over that list, so they
compute on plain data; the order makes the list of a map unique, so two maps
with the same entries are equal and not merely equivalent.

The list functions are total and their reading laws hold for every list. Order
is needed only for erasing and for equality. `OrderedMap` packages a list with
its order, and every operation returns such a package.
-/

namespace GoogleCalendar.Library

universe u v
variable {K : Type u} {V : Type v} [LinearOrder K]

namespace SortedEntries

/-- Keys increase strictly from each entry to every later one. -/
def Sorted (entries : List (K × V)) : Prop :=
  entries.Pairwise (fun earlier later => earlier.1 < later.1)

instance (entries : List (K × V)) : Decidable (Sorted entries) :=
  inferInstanceAs (Decidable (entries.Pairwise _))

/-- The value of the first entry with the key. -/
def find (key : K) : List (K × V) → Option V
  | [] => none
  | (held, value) :: rest => if held = key then some value else find key rest

/-- Put a value under a key, replacing the value the key had and otherwise
placing the entry before the first larger key. -/
def insert (key : K) (value : V) : List (K × V) → List (K × V)
  | [] => [(key, value)]
  | (held, kept) :: rest =>
      if key < held then (key, value) :: (held, kept) :: rest
      else if held = key then (key, value) :: rest
      else (held, kept) :: insert key value rest

/-- Drop the entries with the key. -/
def erase (key : K) : List (K × V) → List (K × V)
  | [] => []
  | (held, kept) :: rest => if held = key then erase key rest else (held, kept) :: erase key rest

/-- Nothing is found among no entries. -/
@[simp] theorem find_nil (key : K) : find key ([] : List (K × V)) = none := rfl

/-- A key that is inserted is found with its value. -/
theorem find_insert_self (key : K) (value : V) (entries : List (K × V)) :
    find key (insert key value entries) = some value := by
  induction entries with
  | nil => simp [insert, find]
  | cons entry rest ih =>
    by_cases before : key < entry.1
    · simp [insert, find, before]
    · by_cases same : entry.1 = key
      · simp [insert, find, same]
      · simp [insert, find, before, same, ih]

/-- Another key is found as before. -/
theorem find_insert_other (key other : K) (value : V) (entries : List (K × V))
    (different : other ≠ key) :
    find other (insert key value entries) = find other entries := by
  induction entries with
  | nil => simp [insert, find, different.symm]
  | cons entry rest ih =>
    by_cases before : key < entry.1
    · simp [insert, find, before, different.symm]
    · by_cases same : entry.1 = key
      · simp [insert, find, same, different.symm]
      · simp [insert, find, before, same, ih]

/-- One law for both cases of reading after an insertion. -/
theorem find_insert (key other : K) (value : V) (entries : List (K × V)) :
    find other (insert key value entries) =
      if other = key then some value else find other entries := by
  by_cases same : other = key
  · subst same
    simp [find_insert_self]
  · simp [find_insert_other key other value entries same, same]

/-- What is found after an erasure. -/
theorem find_erase (key other : K) (entries : List (K × V)) :
    find other (erase key entries) = if other = key then none else find other entries := by
  induction entries with
  | nil => simp [erase]
  | cons entry rest ih =>
    obtain ⟨held, kept⟩ := entry
    by_cases dropped : held = key
    · subst dropped
      by_cases same : other = held
      · simpa [erase, same] using ih
      · simp [erase, find, ih, same, Ne.symm same]
    · by_cases read : held = other
      · subst read
        simp [erase, find, dropped]
      · simp [erase, find, dropped, read, ih]

/-- The entries after an insertion. -/
theorem mem_insert (key : K) (value : V) (entries : List (K × V)) (entry : K × V)
    (member : entry ∈ insert key value entries) : entry = (key, value) ∨ entry ∈ entries := by
  induction entries with
  | nil => simpa [insert] using member
  | cons first rest ih =>
    simp only [insert] at member
    split at member
    · simpa using member
    · split at member
      · cases List.mem_cons.mp member with
        | inl here => exact Or.inl here
        | inr later => exact Or.inr (List.mem_cons_of_mem _ later)
      · cases List.mem_cons.mp member with
        | inl here => exact Or.inr (by simp [here])
        | inr later => exact (ih later).imp_right (List.mem_cons_of_mem _)

/-- Insertion keeps the order: a replaced key stands where it stood, and a new
key stands between the smaller and the larger ones. -/
theorem sorted_insert (key : K) (value : V) (entries : List (K × V))
    (sorted : Sorted entries) : Sorted (insert key value entries) := by
  induction entries with
  | nil => simp [insert, Sorted]
  | cons first rest ih =>
    obtain ⟨above, ordered⟩ := List.pairwise_cons.mp sorted
    simp only [insert]
    split
    · rename_i before
      refine List.pairwise_cons.mpr ⟨?_, sorted⟩
      intro entry member
      rcases List.mem_cons.mp member with rfl | later
      · exact before
      · exact before.trans (above entry later)
    · rename_i notBefore
      split
      · rename_i same
        refine List.pairwise_cons.mpr ⟨?_, ordered⟩
        intro entry member
        exact same ▸ above entry member
      · rename_i different
        refine List.pairwise_cons.mpr ⟨?_, ih ordered⟩
        intro entry member
        rcases mem_insert key value rest entry member with rfl | later
        · exact lt_of_le_of_ne (not_lt.mp notBefore) different
        · exact above entry later

/-- An erasure leaves entries in their order. -/
theorem erase_sublist (key : K) (entries : List (K × V)) :
    (erase key entries).Sublist entries := by
  induction entries with
  | nil => exact List.Sublist.refl _
  | cons first rest ih =>
    simp only [erase]
    split
    · exact ih.cons first
    · exact ih.cons_cons first

/-- An erasure leaves entries sorted. -/
theorem sorted_erase (key : K) (entries : List (K × V)) (sorted : Sorted entries) :
    Sorted (erase key entries) :=
  List.Pairwise.sublist (erase_sublist key entries) sorted

/-- A key below every key of the list is not found in it. -/
theorem find_below (key : K) (entries : List (K × V))
    (below : ∀ entry ∈ entries, key < entry.1) : find key entries = none := by
  induction entries with
  | nil => rfl
  | cons first rest ih =>
    have distinct : ¬ first.1 = key := ne_of_gt (below first (by simp))
    simp only [find, distinct, if_false]
    exact ih (fun entry member => below entry (by simp [member]))

/-- What is found is an entry. -/
theorem find_mem (key : K) (value : V) (entries : List (K × V))
    (found : find key entries = some value) : (key, value) ∈ entries := by
  induction entries with
  | nil => simp at found
  | cons first rest ih =>
    by_cases same : first.1 = key
    · simp only [find, same, if_true, Option.some.injEq] at found
      exact List.mem_cons.mpr (Or.inl (Prod.ext same.symm found.symm))
    · simp only [find, same, if_false] at found
      exact List.mem_cons_of_mem _ (ih found)

/-- In an ordered list every entry is the one its key finds. -/
theorem find_of_mem (entry : K × V) (entries : List (K × V)) (sorted : Sorted entries)
    (member : entry ∈ entries) : find entry.1 entries = some entry.2 := by
  induction entries with
  | nil => simp at member
  | cons first rest ih =>
    obtain ⟨above, ordered⟩ := List.pairwise_cons.mp sorted
    rcases List.mem_cons.mp member with rfl | later
    · simp [find]
    · have distinct : ¬ first.1 = entry.1 := ne_of_lt (above entry later)
      simp only [find, distinct, if_false]
      exact ih ordered later

/-- Ordered lists that find the same values are the same list. The smaller of
two different first keys would be found on one side only. -/
theorem eq_of_find (left right : List (K × V)) (leftSorted : Sorted left)
    (rightSorted : Sorted right) (same : ∀ key, find key left = find key right) :
    left = right := by
  induction left generalizing right with
  | nil =>
    cases right with
    | nil => rfl
    | cons first rest => simpa [find] using same first.1
  | cons entry tail ih =>
    obtain ⟨leftAbove, leftOrdered⟩ := List.pairwise_cons.mp leftSorted
    cases right with
    | nil => simpa [find] using same entry.1
    | cons first rest =>
      obtain ⟨rightAbove, rightOrdered⟩ := List.pairwise_cons.mp rightSorted
      have noneLeft : ∀ key, key ≤ entry.1 → find key tail = none := fun key small =>
        find_below key tail (fun other member => lt_of_le_of_lt small (leftAbove other member))
      have noneRight : ∀ key, key ≤ first.1 → find key rest = none := fun key small =>
        find_below key rest (fun other member => lt_of_le_of_lt small (rightAbove other member))
      have sameKey : entry.1 = first.1 := by
        rcases lt_trichotomy entry.1 first.1 with smaller | equal | larger
        · have found := same entry.1
          simp [find, ne_of_gt smaller, noneRight entry.1 smaller.le] at found
        · exact equal
        · have found := same first.1
          simp [find, ne_of_gt larger, noneLeft first.1 larger.le] at found
      have sameValue : entry.2 = first.2 := by
        have found := same entry.1
        simpa [find, sameKey] using found
      have sameTail : tail = rest := by
        apply ih rest leftOrdered rightOrdered
        intro key
        by_cases head : entry.1 = key
        · rw [noneLeft key head.ge, noneRight key (sameKey ▸ head.ge)]
        · have found := same key
          simpa [find, head, sameKey ▸ head] using found
      rw [sameTail, Prod.ext sameKey sameValue]

end SortedEntries

/-- An entry list together with its order. -/
structure OrderedMap (K : Type u) (V : Type v) [LinearOrder K] where
  entries : List (K × V)
  sorted : SortedEntries.Sorted entries

namespace OrderedMap

/-- The map without entries. -/
def empty : OrderedMap K V := ⟨[], List.Pairwise.nil⟩

/-- The value of a key. -/
def find (map : OrderedMap K V) (key : K) : Option V := SortedEntries.find key map.entries

/-- The map with a value for a key. -/
def insert (map : OrderedMap K V) (key : K) (value : V) : OrderedMap K V :=
  ⟨SortedEntries.insert key value map.entries,
    SortedEntries.sorted_insert key value map.entries map.sorted⟩

/-- The map without a key. -/
def erase (map : OrderedMap K V) (key : K) : OrderedMap K V :=
  ⟨SortedEntries.erase key map.entries,
    SortedEntries.sorted_erase key map.entries map.sorted⟩

/-- The empty map has no value for a key. -/
@[simp] theorem find_empty (key : K) : (empty : OrderedMap K V).find key = none := rfl

theorem find_insert (map : OrderedMap K V) (key other : K) (value : V) :
    (map.insert key value).find other = if other = key then some value else map.find other :=
  SortedEntries.find_insert key other value map.entries

/-- What is found after an erasure. -/
theorem find_erase (map : OrderedMap K V) (key other : K) :
    (map.erase key).find other = if other = key then none else map.find other :=
  SortedEntries.find_erase key other map.entries

/-- Maps that find the same values are equal. -/
theorem ext_find (left right : OrderedMap K V) (same : ∀ key, left.find key = right.find key) :
    left = right := by
  obtain ⟨leftEntries, leftSorted⟩ := left
  obtain ⟨rightEntries, rightSorted⟩ := right
  have equal := SortedEntries.eq_of_find leftEntries rightEntries leftSorted rightSorted same
  subst equal
  rfl

end OrderedMap

end GoogleCalendar.Library
