import Mathlib.Data.List.Basic

/-!
# Repeating an action a bounded number of times

An action takes a state to an answer or an error and a new state. It is repeated
while its answer asks for it and attempts remain, with a pause before each
repetition; an error ends the loop at once. The last attempt's answer is
returned whatever it asks for.

The attempts themselves are listed by a second function over the same recursion,
so that a result can speak of each of them. There are three rules for proofs. By
`loop_is_last` the loop's outcome is that of one attempt, made in a state that
keeps every invariant of the action and the pause; by `loop_history` the final
state and the attempts have every relation that each attempt extends; by
`loop_stops` the outcome is that of the attempt with a given place.
-/

namespace GoogleCalendar.Library.BoundedRetry

universe u v w
variable {σ : Type u} {ε : Type v} {ρ : Type w}

/-- One attempt: the state it was made in, what came back and the state left. -/
structure Attempt (σ : Type u) (ε : Type v) (ρ : Type w) where
  before : σ
  answer : Except ε ρ
  after : σ

/-- Whether an outcome asks for another attempt. -/
def repeats (again : ρ → Bool) : Except ε ρ → Bool
  | .ok answer => again answer
  | .error _ => false

/-- Repeat with `remaining` attempts left, numbering them from `number`. With no
attempt left the answer is the one that was never set. -/
def loop (act : σ → Except ε ρ × σ) (again : ρ → Bool) (pause : Nat → σ → σ) (unset : ρ) :
    Nat → Nat → σ → Except ε ρ × σ
  | 0, _, state => (.ok unset, state)
  | remaining + 1, number, state =>
      let outcome := act state
      if !repeats again outcome.1 || remaining = 0 then outcome
      else loop act again pause unset remaining (number + 1) (pause number outcome.2)

/-- The attempts that `loop` makes, in order. -/
def attempts (act : σ → Except ε ρ × σ) (again : ρ → Bool) (pause : Nat → σ → σ) :
    Nat → Nat → σ → List (Attempt σ ε ρ)
  | 0, _, _ => []
  | remaining + 1, number, state =>
      let outcome := act state
      let made : Attempt σ ε ρ := ⟨state, outcome.1, outcome.2⟩
      if !repeats again outcome.1 || remaining = 0 then [made]
      else made :: attempts act again pause remaining (number + 1) (pause number outcome.2)

variable (act : σ → Except ε ρ × σ) (again : ρ → Bool) (pause : Nat → σ → σ) (unset : ρ)

/-- The loop's outcome is the outcome of its last attempt. That attempt is made
in a state with every property that the first state has and that attempts and
pauses keep, and only a refused or final answer ends the loop.

Induct on the attempts left: an attempt that ends the loop is the one sought,
and otherwise the pause hands its state to the rest. -/
theorem loop_is_last (keeps : σ → Prop) (acted : ∀ state, keeps state → keeps (act state).2)
    (paused : ∀ number state, keeps state → keeps (pause number state))
    (remaining number : Nat) (state : σ) (allowed : 0 < remaining) (start : keeps state) :
    ∃ before, keeps before ∧ act before = loop act again pause unset remaining number state := by
  induction remaining generalizing number state with
  | zero => omega
  | succ remaining ih =>
    simp only [loop]
    split
    · exact ⟨state, start, rfl⟩
    · rename_i continued
      have left : 0 < remaining := by
        simp only [Bool.or_eq_true, decide_eq_true_eq, not_or] at continued
        omega
      exact ih (number + 1) (pause number (act state).2) left (paused _ _ (acted _ start))

/-- A relation between the attempts made so far and the state, extended by each
attempt and kept by each pause, holds of all attempts and the state left. -/
theorem loop_history (made : List (Attempt σ ε ρ) → σ → Prop)
    (acted : ∀ history state, made history state →
      made (history ++ [⟨state, (act state).1, (act state).2⟩]) (act state).2)
    (paused : ∀ history number state, made history state → made history (pause number state))
    (history : List (Attempt σ ε ρ)) (remaining number : Nat) (state : σ)
    (start : made history state) :
    made (history ++ attempts act again pause remaining number state)
      (loop act again pause unset remaining number state).2 := by
  induction remaining generalizing history number state with
  | zero => simpa [attempts, loop] using start
  | succ remaining ih =>
    simp only [attempts, loop]
    split
    · exact acted history state start
    · have later := ih _ (number + 1) _ (paused _ number _ (acted history state start))
      rwa [List.append_assoc] at later

/-- The last attempt listed is the one whose outcome the loop returns. -/
theorem attempts_last (remaining number : Nat) (state : σ) (allowed : 0 < remaining) :
    ∃ before, (attempts act again pause remaining number state).getLast? =
        some ⟨before, (act before).1, (act before).2⟩ ∧
      act before = loop act again pause unset remaining number state := by
  induction remaining generalizing number state with
  | zero => omega
  | succ remaining ih =>
    by_cases stops : (!repeats again (act state).1 || remaining = 0) = true
    · exact ⟨state, by simp [attempts, loop, stops]⟩
    · have left : 0 < remaining := by
        simp only [Bool.or_eq_true, decide_eq_true_eq, not_or] at stops
        omega
      obtain ⟨before, last, same⟩ := ih (number + 1) (pause number (act state).2) left
      refine ⟨before, ?_, ?_⟩
      · simp only [attempts, stops, Bool.false_eq_true, if_false]
        rw [List.getLast?_cons, last]
        rfl
      · simpa only [loop, stops, Bool.false_eq_true, if_false] using same

/-- Every attempt before the last asked for the next. -/
theorem attempts_repeat (remaining number : Nat) (state : σ) :
    ∀ made ∈ (attempts act again pause remaining number state).dropLast,
      repeats again made.answer = true := by
  induction remaining generalizing number state with
  | zero => simp [attempts]
  | succ remaining ih =>
    by_cases stops : (!repeats again (act state).1 || remaining = 0) = true
    · simp [attempts, stops]
    · simp only [attempts, stops, Bool.false_eq_true, if_false]
      intro made member
      have continued : repeats again (act state).1 = true := by
        simp only [Bool.or_eq_true, not_or, Bool.not_eq_true'] at stops
        simpa using stops.1
      cases rest : attempts act again pause remaining (number + 1) (pause number (act state).2) with
      | nil => simp [rest] at member
      | cons next more =>
        rw [rest, List.dropLast_cons_of_ne_nil (by simp)] at member
        rcases List.mem_cons.mp member with rfl | later
        · exact continued
        · exact ih (number + 1) _ made (rest ▸ later)

/-- The state before the attempt that so many others precede, were all of them
repeated. -/
def beforeAttempt (number : Nat) (state : σ) : Nat → σ
  | 0 => state
  | count + 1 => pause (number + count) (act (beforeAttempt number state count)).2

/-- Later attempts go on from the state after the first pause. -/
theorem before_attempt_shift (number count : Nat) (state : σ) :
    beforeAttempt act pause (number + 1) (pause number (act state).2) count =
      beforeAttempt act pause number state (count + 1) := by
  induction count with
  | zero => rfl
  | succ count ih =>
    rw [beforeAttempt, beforeAttempt, ih]
    congr 1
    omega

/-- The place at which a run of outcomes ends: all before it ask for another
attempt, and it does not or is the last one allowed. -/
structure EndsAt (outcomes : Nat → Except ε ρ) (allowed place : Nat) : Prop where
  within : place < allowed
  asked : ∀ earlier < place, repeats again (outcomes earlier) = true
  ends : place + 1 = allowed ∨ repeats again (outcomes place) = false

/-- Every run of outcomes ends within a positive number of attempts. -/
theorem ends_somewhere (outcomes : Nat → Except ε ρ) (allowed : Nat) (positive : 0 < allowed) :
    ∃ place, EndsAt again outcomes allowed place := by
  induction allowed with
  | zero => omega
  | succ allowed ih =>
    cases Nat.eq_zero_or_pos allowed with
    | inl none =>
      subst none
      exact ⟨0, by omega, by simp, Or.inl rfl⟩
    | inr some =>
      obtain ⟨place, within, asked, ends⟩ := ih some
      cases again' : repeats again (outcomes place) with
      | false => exact ⟨place, by omega, asked, Or.inr again'⟩
      | true =>
        have last : place + 1 = allowed := by
          cases ends with
          | inl last => exact last
          | inr final => simp [again'] at final
        refine ⟨place + 1, by omega, ?_, Or.inl (by omega)⟩
        intro earlier before
        by_cases here : earlier = place
        · rw [here]
          exact again'
        · exact asked earlier (by omega)

/-- The run ends at the first outcome that asks for no other, unless the attempts
are used up before. -/
theorem ends_at_first (outcomes : Nat → Except ε ρ) (allowed place first : Nat)
    (ended : EndsAt again outcomes allowed place)
    (asked : ∀ earlier < first, repeats again (outcomes earlier) = true)
    (final : repeats again (outcomes first) = false) : place + 1 = min allowed (first + 1) := by
  have within := ended.within
  have before : place ≤ first := by
    by_contra after
    have repeated := ended.asked first (by omega)
    simp [final] at repeated
  cases ended.ends with
  | inl last => omega
  | inr stopped =>
    have same : place = first := by
      by_contra other
      have repeated := asked place (by omega)
      simp [stopped] at repeated
    omega

/-- The run takes all attempts when every outcome asks for another. -/
theorem ends_at_last (outcomes : Nat → Except ε ρ) (allowed place : Nat)
    (ended : EndsAt again outcomes allowed place)
    (asked : ∀ earlier, repeats again (outcomes earlier) = true) : place + 1 = allowed := by
  cases ended.ends with
  | inl last => exact last
  | inr stopped => simp [asked place] at stopped

/-- The loop's outcome is that of the attempt at which its run of outcomes ends.

Induct on the place: a first attempt that is repeated leaves a shorter run with
the same places after it. -/
theorem loop_stops (remaining number place : Nat) (state : σ)
    (ended : EndsAt again (fun count => (act (beforeAttempt act pause number state count)).1)
      remaining place) :
    loop act again pause unset remaining number state =
      act (beforeAttempt act pause number state place) := by
  induction place generalizing remaining number state with
  | zero =>
    obtain ⟨within, -, ends⟩ := ended
    cases remaining with
    | zero => omega
    | succ remaining =>
      have stops : (!repeats again (act state).1 || remaining = 0) = true := by
        cases ends with
        | inl last => simp [show remaining = 0 by omega]
        | inr final =>
          have first : repeats again (act state).1 = false := final
          simp [first]
      simp only [loop, stops, if_true, beforeAttempt]
  | succ place ih =>
    obtain ⟨within, asked, ends⟩ := ended
    cases remaining with
    | zero => omega
    | succ remaining =>
      have first : repeats again (act state).1 = true := asked 0 (by omega)
      have continues : (!repeats again (act state).1 || remaining = 0) = false := by
        simp [first, show remaining ≠ 0 by omega]
      simp only [loop, continues, Bool.false_eq_true, if_false]
      rw [ih remaining (number + 1) (pause number (act state).2), before_attempt_shift]
      constructor
      · omega
      · intro earlier before
        rw [before_attempt_shift]
        exact asked (earlier + 1) (by omega)
      · rw [before_attempt_shift]
        exact ends.imp (by omega) id

end GoogleCalendar.Library.BoundedRetry
