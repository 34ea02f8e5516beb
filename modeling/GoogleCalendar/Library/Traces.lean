import Mathlib.Data.List.Induction

/-!
# Rules on traces

A trace lists what happened, in order. A rule says which event may follow which
history; a trace is lawful when every event of it obeys the rule relative to the
events before it. Lawfulness speaks of each prefix and so of each moment of a
run, and a trace can be extended piece by piece.

What one operation contributes is stated apart from the rule: it adds events of
a kind, in sequence with what other operations add.
-/

namespace GoogleCalendar.Library.Traces

universe u
variable {E : Type u}

/-- A trace in which every event obeys the rule after the events before it. -/
def Lawful (rule : List E → E → Prop) (trace : List E) : Prop :=
  ∀ earlier event later, trace = earlier ++ event :: later → rule earlier event

/-- The empty trace is lawful. -/
theorem lawful_nil (rule : List E → E → Prop) : Lawful rule [] := by
  intro earlier event later split
  simp at split

/-- A trace is lawful just when its first part is and each event of the rest
obeys the rule after the first part and what precedes it in the rest. -/
theorem lawful_append_iff (rule : List E → E → Prop) (trace more : List E) :
    Lawful rule (trace ++ more) ↔ Lawful rule trace ∧
      ∀ earlier event later, more = earlier ++ event :: later → rule (trace ++ earlier) event := by
  constructor
  · intro lawful
    constructor
    · intro earlier event later split
      exact lawful earlier event (later ++ more) (by simp [split])
    · intro earlier event later split
      exact lawful (trace ++ earlier) event later (by simp [split])
  · rintro ⟨first, rest⟩ earlier event later split
    rcases List.append_eq_append_iff.mp split with ⟨joint, same, tail⟩ | ⟨joint, same, tail⟩
    · rw [same]
      exact rest joint event later tail
    · cases joint with
      | nil =>
        have start : more = [] ++ event :: later := by simpa using tail.symm
        simpa [same] using rest [] event later start
      | cons held joint =>
        obtain ⟨rfl, rfl⟩ := List.cons.inj tail
        exact first earlier event joint same

/-- The last event obeys the rule after a lawful trace. -/
theorem lawful_snoc_iff (rule : List E → E → Prop) (trace : List E) (event : E) :
    Lawful rule (trace ++ [event]) ↔ Lawful rule trace ∧ rule trace event := by
  rw [lawful_append_iff]
  refine and_congr_right (fun _ => ⟨?_, ?_⟩)
  · intro obeyed
    simpa using obeyed [] event [] rfl
  · intro obeyed earlier other later split
    obtain ⟨rfl, rfl, -⟩ : earlier = [] ∧ other = event ∧ later = [] := by
      cases earlier <;> simp_all
    simpa using obeyed

/-- A rule that relates an event to each earlier one is a relation of all pairs in
order. -/
theorem lawful_iff_pairwise (relation : E → E → Prop) (trace : List E) :
    Lawful (fun earlier event => ∀ other ∈ earlier, relation other event) trace ↔
      trace.Pairwise relation := by
  induction trace using List.reverseRecOn with
  | nil => simp [lawful_nil]
  | append_singleton trace event ih =>
    rw [lawful_snoc_iff, ih, List.pairwise_append]
    simp

/-- Events that obey the rule after any history extend a lawful trace. -/
theorem lawful_extend (rule : List E → E → Prop) (trace more : List E)
    (lawful : Lawful rule trace) (free : ∀ event ∈ more, ∀ earlier, rule earlier event) :
    Lawful rule (trace ++ more) :=
  (lawful_append_iff rule trace more).mpr ⟨lawful, fun earlier event later split =>
    free event (by simp [split]) (trace ++ earlier)⟩

/-- One trace extends another by events of a kind. -/
def Adds (kind : E → Prop) (before after : List E) : Prop :=
  ∃ more, after = before ++ more ∧ ∀ event ∈ more, kind event

/-- Nothing is added to a trace by itself. -/
theorem adds_refl (kind : E → Prop) (trace : List E) : Adds kind trace trace :=
  ⟨[], by simp⟩

/-- What is added adds up. -/
theorem adds_trans (kind : E → Prop) (before between after : List E)
    (first : Adds kind before between) (second : Adds kind between after) :
    Adds kind before after := by
  obtain ⟨early, rfl, earlyKind⟩ := first
  obtain ⟨late, rfl, lateKind⟩ := second
  refine ⟨early ++ late, by simp, ?_⟩
  intro event member
  cases List.mem_append.mp member with
  | inl here => exact earlyKind event here
  | inr there => exact lateKind event there

end GoogleCalendar.Library.Traces
