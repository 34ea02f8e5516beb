import Mathlib.Data.List.Nodup
import Mathlib.Logic.Relation

/-!
# Running a list of changes again

Each change is made to the value under a key of its own. An attempt makes some of
the changes and leaves the rest: it may have been stopped anywhere, and whether
the change it was at has been made may not be known. Making a change twice may
differ from making it once. Where it does not, any number of attempts followed by
a complete one is the same as the complete one alone.
-/

namespace GoogleCalendar.Library.Reruns

universe u v w
variable {K : Type u} {V : Type v} {C : Type w} (key : C → K) (change : C → V → V)

/-- What an attempt leaves of what is held: under the key of a change it has been made or it
has not, and nothing else happens to a key that is owned. -/
def Attempted (owned : K → Prop) (changes : List C) (held later : K → V) : Prop :=
  ∀ place, owned place → later place = held place ∨
    ∃ made ∈ changes, key made = place ∧ later place = change made (held place)

/-- A complete attempt has made every change once. -/
structure Completed (owned : K → Prop) (changes : List C) (held later : K → V) : Prop where
  made : ∀ made ∈ changes, later (key made) = change made (held (key made))
  others : ∀ place, owned place → (∀ made ∈ changes, key made ≠ place) → later place = held place

/-- Every key holds what it held at first, or what its one change makes of that. -/
def Begun (owned : K → Prop) (changes : List C) (origin held : K → V) : Prop :=
  (∀ made ∈ changes, held (key made) = origin (key made) ∨
    held (key made) = change made (origin (key made))) ∧
  ∀ place, owned place → (∀ made ∈ changes, key made ≠ place) → held place = origin place

variable {key change} {owned : K → Prop} {changes : List C}

/-- An attempt that changes nothing. -/
theorem attempted_none (held later : K → V)
    (same : ∀ place, owned place → later place = held place) :
    Attempted key change owned changes held later :=
  fun place here => .inl (same place here)

/-- An attempt at some changes is one at more. -/
theorem attempted_more (more : List C) (within : ∀ made ∈ changes, made ∈ more)
    (held later : K → V) (attempted : Attempted key change owned changes held later) :
    Attempted key change owned more held later := by
  intro place here
  rcases attempted place here with same | ⟨made, listed, changed⟩
  · exact .inl same
  · exact .inr ⟨made, within made listed, changed⟩

/-- One change, made or not, and then an attempt at others. -/
theorem attempted_cons (first : C) (held between later : K → V)
    (apart : ∀ made ∈ changes, key made ≠ key first)
    (others : ∀ place, owned place → place ≠ key first → between place = held place)
    (either : between (key first) = held (key first) ∨
      between (key first) = change first (held (key first)))
    (rest : Attempted key change owned changes between later) :
    Attempted key change owned (first :: changes) held later := by
  intro place here
  by_cases own : place = key first
  · subst own
    have still : later (key first) = between (key first) := by
      rcases rest (key first) here with same | ⟨made, listed, place, -⟩
      · exact same
      · exact absurd place (apart made listed)
    rw [still]
    rcases either with same | changed
    · exact .inl same
    · exact .inr ⟨first, List.mem_cons_self, rfl, changed⟩
  · rw [← others place here own]
    rcases rest place here with same | ⟨made, listed, changed⟩
    · exact .inl same
    · exact .inr ⟨made, List.mem_cons_of_mem _ listed, changed⟩

/-- One change made, and then the others. -/
theorem completed_cons (first : C) (held between later : K → V) (mine : owned (key first))
    (within : ∀ made ∈ changes, owned (key made))
    (apart : ∀ made ∈ changes, key made ≠ key first)
    (others : ∀ place, owned place → place ≠ key first → between place = held place)
    (changed : between (key first) = change first (held (key first)))
    (rest : Completed key change owned changes between later) :
    Completed key change owned (first :: changes) held later := by
  constructor
  · intro made listed
    rcases List.mem_cons.mp listed with rfl | later
    · rw [rest.others _ mine apart, changed]
    · rw [rest.made made later, others _ (within made later) (apart made later)]
  · intro place here free
    rw [rest.others place here (fun made listed => free made (List.mem_cons_of_mem _ listed))]
    exact others place here (fun same => free first List.mem_cons_self same.symm)

/-- The change of a key is the only one. -/
theorem change_unique (distinct : (changes.map key).Nodup) (first second : C)
    (left : first ∈ changes) (right : second ∈ changes) (same : key first = key second) :
    first = second :=
  List.inj_on_of_nodup_map distinct left right same

/-- An attempt leaves every change made once or not at all. -/
theorem attempted_begun (distinct : (changes.map key).Nodup)
    (mine : ∀ made ∈ changes, owned (key made)) (origin held later : K → V)
    (steady : ∀ made ∈ changes, change made (change made (origin (key made))) =
      change made (origin (key made)))
    (begun : Begun key change owned changes origin held)
    (attempted : Attempted key change owned changes held later) :
    Begun key change owned changes origin later := by
  constructor
  · intro made listed
    rcases attempted (key made) (mine made listed) with same | ⟨other, within, place, changed⟩
    · rw [same]
      exact begun.1 made listed
    · obtain rfl := change_unique distinct other made within listed place
      rw [changed]
      rcases begun.1 other listed with first | again
      · exact .inr (by rw [first])
      · exact .inr (by rw [again, steady other listed])
  · intro place here apart
    rcases attempted place here with same | ⟨made, listed, place', -⟩
    · rw [same]
      exact begun.2 place here apart
    · exact absurd place' (apart made listed)

/-- So does any number of attempts. -/
theorem attempts_begun (distinct : (changes.map key).Nodup)
    (mine : ∀ made ∈ changes, owned (key made)) (origin held : K → V)
    (steady : ∀ made ∈ changes, change made (change made (origin (key made))) =
      change made (origin (key made)))
    (attempts : Relation.ReflTransGen (Attempted key change owned changes) origin held) :
    Begun key change owned changes origin held := by
  induction attempts with
  | refl => exact ⟨fun _ _ => .inl rfl, fun _ _ _ => rfl⟩
  | tail _ attempted ih =>
    exact attempted_begun distinct mine origin _ _ steady ih attempted

/-- Attempts one after another, and then a complete one, leave what the complete one alone
would have left. -/
theorem completed_after_attempts (distinct : (changes.map key).Nodup)
    (mine : ∀ made ∈ changes, owned (key made)) (origin held later : K → V)
    (steady : ∀ made ∈ changes, change made (change made (origin (key made))) =
      change made (origin (key made)))
    (attempts : Relation.ReflTransGen (Attempted key change owned changes) origin held)
    (completed : Completed key change owned changes held later) :
    Completed key change owned changes origin later := by
  have begun := attempts_begun distinct mine origin held steady attempts
  constructor
  · intro made listed
    rw [completed.made made listed]
    rcases begun.1 made listed with first | again
    · rw [first]
    · rw [again, steady made listed]
  · intro place here apart
    rw [completed.others place here apart, begun.2 place here apart]

end GoogleCalendar.Library.Reruns
