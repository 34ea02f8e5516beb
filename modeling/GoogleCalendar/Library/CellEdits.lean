import GoogleCalendar.Library.SortedEntries

/-!
# Edits of a record cell by cell

An edit touches some cells of a keyed record and turns each of them into
something that depends on that cell alone. A run of edits can then be followed
one key at a time: edits that do not touch a key pass it by, and an edit whose
cell is already what it would make of it changes nothing.

A map operation realizes an edit when it changes what every key finds as the
edit says. Whole runs are realized step by step.
-/

namespace GoogleCalendar.Library

universe u v
variable {K : Type u} {V : Type v}

/-- An edit: the keys it touches and what it makes of a touched cell. -/
structure Edit (K : Type u) (V : Type v) where
  touches : K → Bool
  act : K → Option V → Option V

namespace Edit

/-- What an edit makes of the cell under a key. -/
def cell (edit : Edit K V) (key : K) (held : Option V) : Option V :=
  if edit.touches key then edit.act key held else held

/-- What a run of edits makes of the cell under a key. -/
def cellAfter (edits : List (Edit K V)) (key : K) (held : Option V) : Option V :=
  edits.foldl (fun held edit => edit.cell key held) held

/-- Edits run one part after the other. -/
theorem cell_after_append (first second : List (Edit K V)) (key : K) (held : Option V) :
    cellAfter (first ++ second) key held = cellAfter second key (cellAfter first key held) := by
  simp [cellAfter, List.foldl_append]

/-- Edits that touch a key only to leave its cell as it is pass it by. -/
theorem cell_after_fixed (edits : List (Edit K V)) (key : K) (held : Option V)
    (fixed : ∀ edit ∈ edits, edit.touches key = true → edit.act key held = held) :
    cellAfter edits key held = held := by
  induction edits with
  | nil => rfl
  | cons edit rest ih =>
    have same : edit.cell key held = held := by
      simp only [cell]
      split
      · rename_i touched
        exact fixed edit (List.mem_cons_self ..) touched
      · rfl
    simp only [cellAfter, List.foldl_cons, same]
    exact ih (fun later member => fixed later (List.mem_cons_of_mem _ member))

/-- Edits that do not touch a key leave its cell alone. -/
theorem cell_after_untouched (edits : List (Edit K V)) (key : K) (held : Option V)
    (untouched : ∀ edit ∈ edits, edit.touches key = false) : cellAfter edits key held = held := by
  apply cell_after_fixed
  intro edit member touched
  exact absurd touched (by simp [untouched edit member])

/-- An edit alone on a key decides its cell. -/
theorem cell_after_single (before after : List (Edit K V)) (edit : Edit K V) (key : K)
    (held : Option V) (touched : edit.touches key = true)
    (alone : ∀ other ∈ before ++ after, other.touches key = false) :
    cellAfter (before ++ edit :: after) key held = edit.act key held := by
  have first := cell_after_untouched before key held
    (fun other member => alone other (List.mem_append_left _ member))
  rw [cell_after_append, first]
  simp only [cellAfter, List.foldl_cons, cell, touched, if_true]
  exact cell_after_untouched after key _
    (fun other member => alone other (List.mem_append_right _ member))

variable [LinearOrder K]

/-- Whether one map is what an edit makes of another. -/
def Realized (edit : Edit K V) (before after : OrderedMap K V) : Prop :=
  ∀ key, after.find key = edit.cell key (before.find key)

/-- Whether one map is what a run of edits makes of another. -/
def RunRealized (edits : List (Edit K V)) (before after : OrderedMap K V) : Prop :=
  ∀ key, after.find key = cellAfter edits key (before.find key)

/-- No edits leave a map as it is. -/
theorem run_realized_nil (map : OrderedMap K V) : RunRealized [] map map := fun _ => rfl

/-- A realized edit, and then a realized run. -/
theorem run_realized_cons (edit : Edit K V) (rest : List (Edit K V))
    (before between after : OrderedMap K V) (first : edit.Realized before between)
    (later : RunRealized rest between after) : RunRealized (edit :: rest) before after := by
  intro key
  rw [later key, first key]
  rfl

end Edit

end GoogleCalendar.Library
