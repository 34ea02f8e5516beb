import Mathlib.Data.List.Basic

/-!
# Histories of actions

Actions are taken one after another, each with an outcome, on a state that they share.
An owner sees a part of the state. When the actions of others leave that part alone, and
an action of the owner goes by that part only, the others' actions can be left out of a
history: the owner's outcomes and the owner's part stay what they are.
-/

namespace GoogleCalendar.Library.Histories

universe u v w x

variable {A : Type u} {O : Type v} {S : Type w} (act : A → S → Option (O × S))

/-- The actions taken in turn, each with its outcome. -/
def history : List A → S → Option (List (A × O) × S)
  | [], state => some ([], state)
  | action :: rest, state =>
    match act action state with
    | none => none
    | some (outcome, next) =>
      (history rest next).map (fun later => ((action, outcome) :: later.1, later.2))

/-- A history begins with its first action. -/
theorem history_cons (action : A) (rest : List A) (state final : S) (outcomes : List (A × O))
    (ran : history act (action :: rest) state = some (outcomes, final)) :
    ∃ outcome next later, act action state = some (outcome, next) ∧
      history act rest next = some (later, final) ∧ outcomes = (action, outcome) :: later := by
  simp only [history] at ran
  split at ran
  · cases ran
  · rename_i outcome next acted
    obtain ⟨⟨later, last⟩, ended, same⟩ := Option.map_eq_some_iff.mp ran
    obtain ⟨rfl, rfl⟩ := Prod.mk.inj same
    exact ⟨outcome, next, later, acted, ended, rfl⟩

/-- What holds of a state and its past at first, and of every next one, gives each outcome
what one action gives. -/
theorem history_gives (Holds : List (A × O) → S → Prop) (Gives : List (A × O) → A → O → Prop)
    (step : ∀ past state action outcome next, Holds past state →
      act action state = some (outcome, next) →
      Gives past action outcome ∧ Holds (past ++ [(action, outcome)]) next)
    (actions : List A) (past : List (A × O)) (state final : S) (outcomes : List (A × O))
    (holds : Holds past state) (ran : history act actions state = some (outcomes, final)) :
    ∀ earlier action outcome later, outcomes = earlier ++ (action, outcome) :: later →
      Gives (past ++ earlier) action outcome := by
  induction actions generalizing past state outcomes with
  | nil =>
    obtain ⟨rfl, -⟩ := Prod.mk.inj (Option.some.inj ran)
    intro earlier action outcome later split
    cases earlier <;> cases split
  | cons first rest ih =>
    obtain ⟨begun, next, remaining, acted, ended, rfl⟩ :=
      history_cons act first rest state final outcomes ran
    obtain ⟨gives, holdsNext⟩ := step past state first begun next holds acted
    intro earlier action outcome later split
    cases earlier with
    | nil =>
      obtain ⟨same, -⟩ := List.cons.inj split
      obtain ⟨rfl, rfl⟩ := Prod.mk.inj same
      rwa [List.append_nil]
    | cons entry others =>
      obtain ⟨rfl, same⟩ := List.cons.inj split
      have continued := ih (past ++ [(first, begun)]) next remaining holdsNext ended others action
        outcome later same
      rwa [List.append_assoc] at continued

section Owner

variable {V : Type x} (mine : A → Bool) (view : S → V)

/-- The others' actions can be left out. -/
theorem history_owned
    (frame : ∀ action state outcome next, mine action = false →
      act action state = some (outcome, next) → view next = view state)
    (seen : ∀ action state other outcome next, mine action = true → view other = view state →
      act action state = some (outcome, next) →
      ∃ after, act action other = some (outcome, after) ∧ view after = view next)
    (actions : List A) (state other final : S) (outcomes : List (A × O))
    (same : view other = view state) (ran : history act actions state = some (outcomes, final)) :
    ∃ last, history act (actions.filter mine) other =
      some (outcomes.filter (fun entry => mine entry.1), last) ∧ view last = view final := by
  induction actions generalizing state other outcomes with
  | nil =>
    obtain ⟨rfl, rfl⟩ := Prod.mk.inj (Option.some.inj ran)
    exact ⟨other, rfl, same⟩
  | cons action rest ih =>
    obtain ⟨outcome, next, later, acted, ended, rfl⟩ :=
      history_cons act action rest state final outcomes ran
    by_cases owned : mine action = true
    · obtain ⟨after, again, kept⟩ := seen action state other outcome next owned same acted
      obtain ⟨last, continued, ends⟩ := ih next after later kept ended
      refine ⟨last, ?_, ends⟩
      rw [List.filter_cons_of_pos owned, List.filter_cons_of_pos (by exact owned)]
      simp only [history, again, continued, Option.map_some]
    · have foreign : mine action = false := by simpa using owned
      have kept := frame action state outcome next foreign acted
      obtain ⟨last, continued, ends⟩ := ih next other later (same.trans kept.symm) ended
      refine ⟨last, ?_, ends⟩
      rw [List.filter_cons_of_neg owned, List.filter_cons_of_neg (by exact owned)]
      exact continued

end Owner

end GoogleCalendar.Library.Histories
