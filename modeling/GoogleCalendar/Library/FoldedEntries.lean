import Mathlib.Data.List.Nodup
import Mathlib.Logic.Function.Basic

/-!
# Maps keyed up to a folding of their keys

A folding sends each key to the form under which keys are compared, as letter
case is folded away in a case-insensitive map. Two keys with one folded form
name the same entry. Assigning to a name that is present keeps the entry where
it stands, with the spelling it was first given, and replaces the value; a new
name is added at the end. The entry order is otherwise of no consequence, and
no law below depends on it.

`FoldedMap` carries the fact that no two of its entries share a folded key.
-/

namespace GoogleCalendar.Library

universe u v w
variable {K : Type u} {F : Type v} {V : Type w} [DecidableEq F]

namespace FoldedEntries

/-- The value of the first entry whose key folds as the given one does. -/
def find (fold : K → F) (key : K) : List (K × V) → Option V
  | [] => none
  | (held, value) :: rest => if fold held = fold key then some value else find fold key rest

/-- Replace the value under a present name, or add the name at the end. -/
def assign (fold : K → F) (key : K) (value : V) : List (K × V) → List (K × V)
  | [] => [(key, value)]
  | (held, kept) :: rest =>
      if fold held = fold key then (held, value) :: rest
      else (held, kept) :: assign fold key value rest

/-- Remove the entries under a name. -/
def erase (fold : K → F) (key : K) : List (K × V) → List (K × V)
  | [] => []
  | (held, kept) :: rest =>
      if fold held = fold key then erase fold key rest else (held, kept) :: erase fold key rest

/-- The folded keys in entry order. -/
def names (fold : K → F) (entries : List (K × V)) : List F :=
  entries.map (fun entry => fold entry.1)

/-- What is found after an assignment. -/
theorem find_assign (fold : K → F) (key other : K) (value : V) (entries : List (K × V)) :
    find fold other (assign fold key value entries) =
      if fold other = fold key then some value else find fold other entries := by
  induction entries with
  | nil =>
    simp only [assign, find]
    by_cases same : fold other = fold key
    · simp [same]
    · simp [same, Ne.symm same]
  | cons entry rest ih =>
    obtain ⟨held, kept⟩ := entry
    by_cases here : fold held = fold key
    · by_cases same : fold other = fold key
      · simp [assign, find, here, same]
      · have unread : ¬ fold key = fold other := fun equal => same equal.symm
        simp [assign, find, here, same, unread]
    · by_cases read : fold held = fold other
      · have distinct : ¬ fold other = fold key := fun equal => here (read.trans equal)
        simp [assign, find, read, distinct]
      · simp [assign, find, here, read, ih]

/-- What is found after an erasure. -/
theorem find_erase (fold : K → F) (key other : K) (entries : List (K × V)) :
    find fold other (erase fold key entries) =
      if fold other = fold key then none else find fold other entries := by
  induction entries with
  | nil => simp [erase, find]
  | cons entry rest ih =>
    obtain ⟨held, kept⟩ := entry
    by_cases dropped : fold held = fold key
    · by_cases same : fold other = fold key
      · simpa [erase, dropped, same] using ih
      · have unread : ¬ fold key = fold other := fun equal => same equal.symm
        simp [erase, find, dropped, same, unread, ih]
    · by_cases read : fold held = fold other
      · have distinct : ¬ fold other = fold key := fun equal => dropped (read.trans equal)
        simp [erase, find, read, distinct]
      · simp [erase, find, dropped, read, ih]

/-- Assignment leaves the folded keys as they were, or adds the new one. -/
theorem names_assign (fold : K → F) (key : K) (value : V) (entries : List (K × V)) :
    names fold (assign fold key value entries) =
      if fold key ∈ names fold entries then names fold entries
      else names fold entries ++ [fold key] := by
  induction entries with
  | nil => simp [assign, names]
  | cons entry rest ih =>
    obtain ⟨held, kept⟩ := entry
    simp only [names] at ih
    by_cases here : fold held = fold key
    · simp [assign, names, here]
    · have distinct : ¬ fold key = fold held := fun equal => here equal.symm
      by_cases present : fold key ∈ rest.map (fun entry => fold entry.1)
      · simp [assign, names, here, ih, present]
      · simp only [assign, names, here, if_false, List.map_cons, ih, present, List.mem_cons,
          distinct, or_self, List.cons_append]

/-- An erasure leaves names in their order. -/
theorem names_erase_sublist (fold : K → F) (key : K) (entries : List (K × V)) :
    (names fold (erase fold key entries)).Sublist (names fold entries) := by
  induction entries with
  | nil => exact List.Sublist.refl _
  | cons entry rest ih =>
    obtain ⟨held, kept⟩ := entry
    by_cases dropped : fold held = fold key
    · simpa [erase, names, dropped] using ih.cons (fold key)
    · simpa [erase, names, dropped] using ih.cons_cons (fold held)

/-- What is found is an entry whose key folds alike. -/
theorem mem_of_find (fold : K → F) (key : K) (value : V) (entries : List (K × V))
    (found : find fold key entries = some value) :
    ∃ held, fold held = fold key ∧ (held, value) ∈ entries := by
  induction entries with
  | nil => simp [find] at found
  | cons first rest ih =>
    obtain ⟨held, kept⟩ := first
    by_cases here : fold held = fold key
    · simp only [find, here, if_true, Option.some.injEq] at found
      exact ⟨held, here, by simp [found]⟩
    · simp only [find, here, if_false] at found
      obtain ⟨spelling, same, member⟩ := ih found
      exact ⟨spelling, same, List.mem_cons_of_mem _ member⟩

/-- Each entry is found under its name when no other has it. -/
theorem find_of_mem (fold : K → F) (entry : K × V) (entries : List (K × V))
    (distinct : (names fold entries).Nodup) (member : entry ∈ entries) :
    find fold entry.1 entries = some entry.2 := by
  induction entries with
  | nil => simp at member
  | cons first rest ih =>
    obtain ⟨held, kept⟩ := first
    simp only [names, List.map_cons, List.nodup_cons] at distinct
    rcases List.mem_cons.mp member with rfl | later
    · simp [find]
    · have apart : fold held ≠ fold entry.1 := by
        intro same
        apply distinct.1
        rw [same]
        exact List.mem_map.mpr ⟨entry, later, rfl⟩
      simp only [find, apart, if_false]
      exact ih distinct.2 later

/-- The value of the first entry whose key has a folded form. -/
def under (fold : K → F) (name : F) : List (K × V) → Option V
  | [] => none
  | (held, value) :: rest => if fold held = name then some value else under fold name rest

/-- A key is found under its name. -/
theorem find_under (fold : K → F) (key : K) (entries : List (K × V)) :
    find fold key entries = under fold (fold key) entries := by
  induction entries with
  | nil => rfl
  | cons entry rest ih => simp only [find, under, ih]

/-- What is found under a folded form is under a key that has it. -/
theorem folded_of_under (fold : K → F) (name : F) (value : V) (entries : List (K × V))
    (found : under fold name entries = some value) : ∃ key, fold key = name := by
  induction entries with
  | nil => cases found
  | cons entry rest ih =>
    simp only [under] at found
    split at found
    · rename_i same
      exact ⟨entry.1, same⟩
    · exact ih found

/-- What stands under a name after an assignment. -/
theorem under_assign (fold : K → F) (key : K) (name : F) (value : V) (entries : List (K × V)) :
    under fold name (assign fold key value entries) =
      if name = fold key then some value else under fold name entries := by
  induction entries with
  | nil => simp only [assign, under, eq_comm]
  | cons entry rest ih =>
    obtain ⟨held, kept⟩ := entry
    by_cases here : fold held = fold key
    · by_cases same : name = fold key
      · simp [assign, under, here, same]
      · simp [assign, under, here, same, Ne.symm same]
    · by_cases read : fold held = name
      · have apart : ¬ name = fold key := fun equal => here (read.trans equal)
        simp [assign, under, read, apart]
      · simp [assign, under, here, read, ih]

/-- What stands under a name after an erasure. -/
theorem under_erase (fold : K → F) (key : K) (name : F) (entries : List (K × V)) :
    under fold name (erase fold key entries) =
      if name = fold key then none else under fold name entries := by
  induction entries with
  | nil => simp [erase, under]
  | cons entry rest ih =>
    obtain ⟨held, kept⟩ := entry
    by_cases here : fold held = fold key
    · by_cases same : name = fold key
      · simpa [erase, here, same] using ih
      · simpa [erase, under, here, same, Ne.symm same] using ih
    · by_cases read : fold held = name
      · have apart : ¬ name = fold key := fun equal => here (read.trans equal)
        simp [erase, under, read, apart]
      · simp [erase, under, here, read, ih]

end FoldedEntries

/-- Entries no two of which share a folded key. -/
structure FoldedMap (K : Type u) {F : Type v} (V : Type w) [DecidableEq F] (fold : K → F) where
  entries : List (K × V)
  distinct : (FoldedEntries.names fold entries).Nodup

namespace FoldedMap

variable {fold : K → F}

/-- The map without entries. -/
def empty : FoldedMap K V fold := ⟨[], List.nodup_nil⟩

/-- The value of a key, up to its folding. -/
def find (map : FoldedMap K V fold) (key : K) : Option V :=
  FoldedEntries.find fold key map.entries

/-- The map with a value for a key. -/
def assign (map : FoldedMap K V fold) (key : K) (value : V) : FoldedMap K V fold :=
  ⟨FoldedEntries.assign fold key value map.entries, by
    rw [FoldedEntries.names_assign]
    split
    · exact map.distinct
    · rename_i absent
      exact List.nodup_append.mpr ⟨map.distinct, List.nodup_singleton _, by
        intro name held other single same
        simp only [List.mem_singleton] at single
        exact absent (single ▸ same ▸ held)⟩⟩

/-- The map without a key. -/
def erase (map : FoldedMap K V fold) (key : K) : FoldedMap K V fold :=
  ⟨FoldedEntries.erase fold key map.entries,
    map.distinct.sublist (FoldedEntries.names_erase_sublist fold key map.entries)⟩

/-- Whether some entry has the name. -/
def contains (map : FoldedMap K V fold) (key : K) : Bool := (map.find key).isSome

/-- The empty map has no value for a key. -/
@[simp] theorem find_empty (key : K) : (empty : FoldedMap K V fold).find key = none := rfl

/-- What is found after an assignment. -/
theorem find_assign (map : FoldedMap K V fold) (key other : K) (value : V) :
    (map.assign key value).find other =
      if fold other = fold key then some value else map.find other :=
  FoldedEntries.find_assign fold key other value map.entries

/-- What is found after an erasure. -/
theorem find_erase (map : FoldedMap K V fold) (key other : K) :
    (map.erase key).find other = if fold other = fold key then none else map.find other :=
  FoldedEntries.find_erase fold key other map.entries

/-- Keys with one folded form find the same value. -/
theorem find_congr (map : FoldedMap K V fold) (key other : K) (same : fold key = fold other) :
    map.find key = map.find other := by
  obtain ⟨entries, distinct⟩ := map
  simp only [find]
  clear distinct
  induction entries with
  | nil => rfl
  | cons entry rest ih => simp only [FoldedEntries.find, same, ih]

/-- The last of several entries with one name. -/
def lastNamed (fold : K → F) (entries : List (K × V)) (key : K) : Option (K × V) :=
  entries.reverse.find? (fun entry => fold entry.1 = fold key)

/-- Entries assigned one after another are found as the last one of their name. -/
theorem find_assign_all (entries : List (K × V)) (map : FoldedMap K V fold) (key : K) :
    (entries.foldl (fun map entry => map.assign entry.1 entry.2) map).find key =
      ((lastNamed fold entries key).map Prod.snd).or (map.find key) := by
  induction entries generalizing map with
  | nil => rfl
  | cons entry rest ih =>
    rw [List.foldl_cons, ih, find_assign]
    simp only [lastNamed, List.reverse_cons, List.find?_append]
    cases rest.reverse.find? (fun entry => fold entry.1 = fold key) with
    | some later => rfl
    | none =>
      by_cases here : fold key = fold entry.1
      · simp [here]
      · simp [here, Ne.symm here]

/-- The value under a folded name. -/
def under (map : FoldedMap K V fold) (name : F) : Option V :=
  FoldedEntries.under fold name map.entries

/-- A key is found under its name. -/
theorem find_under (map : FoldedMap K V fold) (key : K) : map.find key = map.under (fold key) :=
  FoldedEntries.find_under fold key map.entries

/-- What stands under a name is found for a key of that name. -/
theorem find_of_under (map : FoldedMap K V fold) (name : F) (value : V)
    (found : map.under name = some value) : ∃ key, fold key = name ∧ map.find key = some value := by
  obtain ⟨held, same⟩ := FoldedEntries.folded_of_under fold name value map.entries found
  exact ⟨held, same, by rw [find_under, same, found]⟩

/-- An assignment updates the name of its key. -/
theorem under_assign (map : FoldedMap K V fold) (key : K) (value : V) :
    (map.assign key value).under = Function.update map.under (fold key) (some value) := by
  funext name
  rw [Function.update_apply]
  exact FoldedEntries.under_assign fold key name value map.entries

/-- An erasure clears the name of its key. -/
theorem under_erase (map : FoldedMap K V fold) (key : K) :
    (map.erase key).under = Function.update map.under (fold key) none := by
  funext name
  rw [Function.update_apply]
  exact FoldedEntries.under_erase fold key name map.entries

end FoldedMap

end GoogleCalendar.Library
