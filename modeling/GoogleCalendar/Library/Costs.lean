import GoogleCalendar.Library.Processes

/-!
# What the questions of a process cost

Each question has a price. A process keeps within a budget when, whatever it is
answered, the prices of its questions add up to the budget at most. Budgets add
when one process goes on with the result of another, and a process that keeps
within its budget has spent no more in any schedule, whatever the server answers
and the others do.
-/

namespace GoogleCalendar.Library.Process

universe u v w x y z

variable {Q : Type u} {A : Type v} {R : Type w} {S : Type x} {T : Type y}

/-- Whatever the answers, the questions cost at most the budget. -/
def CostsAtMost (price : Q → Nat) : Process Q A R → Nat → Prop
  | done _, _ => True
  | ask question next, budget =>
      ∃ rest, price question + rest ≤ budget ∧ ∀ answer, (next answer).CostsAtMost price rest

variable (price : Q → Nat)

/-- A larger budget suffices too. -/
theorem costs_mono (process : Process Q A R) (budget larger : Nat) (grows : budget ≤ larger)
    (costs : process.CostsAtMost price budget) : process.CostsAtMost price larger := by
  cases process with
  | done result => trivial
  | ask question next =>
    obtain ⟨rest, affordable, later⟩ := costs
    exact ⟨rest, Nat.le_trans affordable grows, later⟩

/-- A continuation starts from a budget of its own. -/
theorem costs_bind (process : Process Q A R) (next : R → Process Q A T) (first second : Nat)
    (costs : process.CostsAtMost price first)
    (later : ∀ result, (next result).CostsAtMost price second) :
    (process.bind next).CostsAtMost price (first + second) := by
  induction process generalizing first with
  | done result =>
    apply costs_mono price (next result) second
    · exact Nat.le_add_left ..
    · exact later result
  | ask question more ih =>
    obtain ⟨rest, affordable, others⟩ := costs
    refine ⟨rest + second, ?_, fun answer => ih answer rest (others answer)⟩
    rw [← Nat.add_assoc]
    exact Nat.add_le_add_right affordable second

section Shared

variable {N : Type z} [DecidableEq N] (serve : Server N Q A S)

/-- What one process has spent after the turns of a schedule. -/
def spent (name : N) : List N → World N Q A R S → Nat
  | [], _ => 0
  | taker :: schedule, world =>
    match world.process taker with
    | done _ => 0
    | ask question next => (if taker = name then price question else 0) +
        spent name schedule
          ⟨Function.update world.process taker (next (serve taker question world.state).1),
            (serve taker question world.state).2⟩

/-- In every schedule a process stays within its budget.

Induct on the schedule; a turn of the process itself leaves it with the rest of
its budget, and a turn of another costs it nothing. -/
theorem spent_within (name : N) (schedule : List N) (world : World N Q A R S) (budget : Nat)
    (costs : (world.process name).CostsAtMost price budget) :
    spent price serve name schedule world ≤ budget := by
  induction schedule generalizing world budget with
  | nil => exact Nat.zero_le budget
  | cons taker schedule ih =>
    cases asking : world.process taker with
    | done result => simp [spent, asking]
    | ask question next =>
      simp only [spent, asking]
      by_cases mine : taker = name
      · subst mine
        rw [asking] at costs
        obtain ⟨rest, affordable, later⟩ := costs
        have remaining := ih ⟨Function.update world.process taker
          (next (serve taker question world.state).1), (serve taker question world.state).2⟩ rest
          (by simpa only [Function.update_self] using later _)
        rw [if_pos rfl]
        exact Nat.le_trans (Nat.add_le_add_left remaining _) affordable
      · rw [if_neg mine, Nat.zero_add]
        apply ih
        simpa only [Function.update_of_ne (fun same : name = taker => mine same.symm)] using costs

/-- Where each question costs one, a process has spent its turns. -/
theorem spent_turns (name : N) (schedule : List N) (world final : World N Q A R S)
    (run : Run serve world schedule final) :
    spent (fun _ => 1) serve name schedule world = schedule.count name := by
  induction run with
  | stay world => rfl
  | turn world next final taker schedule first rest ih =>
    obtain ⟨question, more, asking⟩ := first
    simp only [spent, asking, ih, List.count_cons, beq_iff_eq]
    exact Nat.add_comm ..

/-- A process that pays for every question cannot be scheduled more often than its
budget allows. -/
theorem turns_within (name : N) (schedule : List N) (world final : World N Q A R S) (budget : Nat)
    (run : Run serve world schedule final)
    (costs : (world.process name).CostsAtMost (fun _ => 1) budget) :
    schedule.count name ≤ budget := by
  rw [← spent_turns serve name schedule world final run]
  exact spent_within _ serve name schedule world budget costs

end Shared

end GoogleCalendar.Library.Process
