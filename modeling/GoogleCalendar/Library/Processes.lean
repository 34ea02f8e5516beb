import Mathlib.Logic.Function.Basic
import Mathlib.Data.List.Count

/-!
# Processes that share a server

A process asks a server one question after another and goes on with the answers,
until it is done. Many processes share the state of one server; whose turn it is
at each moment a schedule says, and nothing is assumed of it.

Two rules say what a process can rely on when others take turns between its own
questions. By `run_as_alone` a process does what it would do alone when no
question of another changes what it can see of the state. By `run_meets` a
process that meets its purpose whatever the others may do in between meets it in
every schedule. An invariant that every allowed question keeps holds throughout
by `run_keeps`.
-/

namespace GoogleCalendar.Library

universe u v w x y z

/-- A process that asks, and goes on with the answer, until it is done. -/
inductive Process (Q : Type u) (A : Type v) (R : Type w) where
  | done (result : R)
  | ask (question : Q) (next : A → Process Q A R)

namespace Process

variable {Q : Type u} {A : Type v} {R : Type w} {S : Type x} {T : Type y}

/-- Go on with the result of a process. -/
def bind : Process Q A R → (R → Process Q A T) → Process Q A T
  | done result, next => next result
  | ask question more, next => ask question (fun answer => (more answer).bind next)

/-- To go on twice is to go on with what goes on. -/
theorem bind_assoc {L : Type z} (process : Process Q A R) (next : R → Process Q A T)
    (last : T → Process Q A L) :
    (process.bind next).bind last = process.bind (fun result => (next result).bind last) := by
  induction process with
  | done result => rfl
  | ask question more ih => exact congrArg (ask question) (funext ih)

/-- Run a process alone against a server. -/
def run (serve : Q → S → A × S) : Process Q A R → S → R × S
  | done result, state => (result, state)
  | ask question next, state =>
      run serve (next (serve question state).1) (serve question state).2

/-- Whatever the answers, only allowed questions are asked. -/
def Asks (allowed : Q → Prop) : Process Q A R → Prop
  | done _ => True
  | ask question next => allowed question ∧ ∀ answer, (next answer).Asks allowed

/-- A process that goes on runs where the first stops. -/
theorem run_bind (serve : Q → S → A × S) (process : Process Q A R)
    (next : R → Process Q A T) (state : S) :
    (process.bind next).run serve state =
      (next (process.run serve state).1).run serve (process.run serve state).2 := by
  induction process generalizing state with
  | done result => rfl
  | ask question more ih => exact ih _ _

/-- A process that goes on asks what its parts ask. -/
theorem asks_bind (allowed : Q → Prop) (process : Process Q A R) (next : R → Process Q A T)
    (first : process.Asks allowed) (later : ∀ result, (next result).Asks allowed) :
    (process.bind next).Asks allowed := by
  induction process with
  | done result => exact later result
  | ask question more ih => exact ⟨first.1, fun answer => ih answer (first.2 answer)⟩

/-! Many processes with one server. -/

section Shared

variable {N : Type z} [DecidableEq N]

/-- The processes and the state of the server that they share. -/
structure World (N : Type z) (Q : Type u) (A : Type v) (R : Type w) (S : Type x) where
  process : N → Process Q A R
  state : S

/-- What a server answers may depend on who asks. -/
abbrev Server (N : Type z) (Q : Type u) (A : Type v) (S : Type x) := N → Q → S → A × S

variable (serve : Server N Q A S)

/-- A question with who asked it, the state it was asked in, and its answer. -/
structure Served (N : Type z) (Q : Type u) (A : Type v) (S : Type x) where
  name : N
  question : Q
  state : S
  answer : A

/-- A server that keeps a record of what it was asked. -/
def recorded : Server N Q A (S × List (Served N Q A S)) := fun name question current =>
  let outcome := serve name question current.1
  (outcome.1, outcome.2, current.2 ++ [⟨name, question, current.1, outcome.1⟩])

/-- One question of the named process, and the world after its answer. -/
inductive Turn (name : N) : World N Q A R S → World N Q A R S → Prop where
  | take (world : World N Q A R S) (question : Q) (next : A → Process Q A R)
      (asking : world.process name = ask question next) :
      Turn name world
        ⟨Function.update world.process name (next (serve name question world.state).1),
          (serve name question world.state).2⟩

/-- Turns along a schedule. -/
inductive Run : World N Q A R S → List N → World N Q A R S → Prop where
  | stay (world : World N Q A R S) : Run world [] world
  | turn (world next final : World N Q A R S) (name : N) (schedule : List N)
      (first : Turn serve name world next) (rest : Run next schedule final) :
      Run world (name :: schedule) final

/-- The world after the turns of a schedule, if each process named has a question. -/
def follow : List N → World N Q A R S → Option (World N Q A R S)
  | [], world => some world
  | name :: schedule, world =>
    match world.process name with
    | done _ => none
    | ask question next => follow schedule
        ⟨Function.update world.process name (next (serve name question world.state).1),
          (serve name question world.state).2⟩

/-- A schedule that can be followed is a run. -/
theorem run_of_follow (schedule : List N) (world final : World N Q A R S)
    (followed : follow serve schedule world = some final) : Run serve world schedule final := by
  induction schedule generalizing world with
  | nil =>
    obtain rfl := Option.some.inj followed
    exact .stay world
  | cons name schedule ih =>
    simp only [follow] at followed
    split at followed
    · simp at followed
    · rename_i question next asking
      exact .turn world _ final name schedule (.take world question next asking) (ih _ followed)

variable (allowed : N → Q → Prop)

/-- A turn leaves every process within its questions. -/
theorem turn_asks (name : N) (world next : World N Q A R S) (turn : Turn serve name world next)
    (asks : ∀ other, (world.process other).Asks (allowed other)) (other : N) :
    (next.process other).Asks (allowed other) := by
  obtain ⟨question, more, asking⟩ := turn
  by_cases here : other = name
  · subst here
    have mine := asks other
    rw [asking] at mine
    simpa only [Function.update_self] using mine.2 _
  · simpa only [Function.update_of_ne here] using asks other

/-- A turn asks a question that its process may ask. -/
theorem turn_allowed (name : N) (world next : World N Q A R S) (turn : Turn serve name world next)
    (asks : (world.process name).Asks (allowed name)) :
    ∃ question, allowed name question ∧ next.state = (serve name question world.state).2 := by
  obtain ⟨question, more, asking⟩ := turn
  rw [asking] at asks
  exact ⟨question, asks.1, rfl⟩

/-- What every allowed question keeps, a run keeps. -/
theorem run_keeps (keeps : S → Prop)
    (kept : ∀ name question state, allowed name question → keeps state →
      keeps (serve name question state).2)
    (world final : World N Q A R S) (schedule : List N) (run : Run serve world schedule final)
    (asks : ∀ name, (world.process name).Asks (allowed name)) (start : keeps world.state) :
    keeps final.state := by
  induction run with
  | stay world => exact start
  | turn world next final name schedule first rest ih =>
    obtain ⟨question, permitted, after⟩ := turn_allowed serve allowed name world next first
      (asks name)
    refine ih (turn_asks serve allowed name world next first asks) ?_
    rw [after]
    exact kept name question world.state permitted start

/-! A process that the others do not disturb. -/

/-- The process and the state after so many questions asked alone. -/
def alone (answer : Q → S → A × S) : Nat → Process Q A R × S → Process Q A R × S
  | 0, current => current
  | count + 1, (done result, state) => alone answer count (done result, state)
  | count + 1, (ask question next, state) =>
      alone answer count (next (answer question state).1, (answer question state).2)

/-- Once a process has got alone to its end, its result is that of its run. -/
theorem run_of_alone (answer : Q → S → A × S) (count : Nat) (process : Process Q A R)
    (state after : S) (result : R)
    (finished : alone answer count (process, state) = (done result, after)) :
    process.run answer state = (result, after) := by
  induction count generalizing process state with
  | zero =>
    obtain ⟨rfl, rfl⟩ := Prod.mk.inj finished
    rfl
  | succ count ih =>
    cases process with
    | done early =>
      rw [alone] at finished
      exact ih (done early) state finished
    | ask question next =>
      exact ih (next (answer question state).1) (answer question state).2 finished

/-- What a process can see of the state: its own questions are answered by that
alone, and the questions of others leave it as it is. -/
structure Undisturbed {X : N → Type y} (view : ∀ name, S → X name) : Prop where
  own : ∀ name question state twin, allowed name question → view name state = view name twin →
    (serve name question state).1 = (serve name question twin).1 ∧
      view name (serve name question state).2 = view name (serve name question twin).2
  others : ∀ name other question state, allowed other question → name ≠ other →
    view name (serve other question state).2 = view name state

/-- In every schedule an undisturbed process gets as far, and sees the same, as
with the same number of questions asked alone.

Induct on the run; a turn of the process itself is the first of its questions
alone, from a state that looks the same, and a turn of another changes nothing
that it sees. -/
theorem run_as_alone {X : N → Type y} (view : ∀ name, S → X name)
    (undisturbed : Undisturbed serve allowed view) (world final : World N Q A R S)
    (schedule : List N) (run : Run serve world schedule final)
    (asks : ∀ name, (world.process name).Asks (allowed name)) (name : N) (twin : S)
    (alike : view name world.state = view name twin) :
    let solo := alone (serve name) (schedule.count name) (world.process name, twin)
    final.process name = solo.1 ∧ view name final.state = view name solo.2 := by
  induction run generalizing twin with
  | stay world => exact ⟨rfl, alike⟩
  | turn world next final taker schedule first rest ih =>
    have later := turn_asks serve allowed taker world next first asks
    obtain ⟨question, more, asking⟩ := first
    have permitted := asks taker
    rw [asking] at permitted
    by_cases mine : taker = name
    · subst mine
      obtain ⟨answered, seen⟩ := undisturbed.own taker question world.state twin permitted.1 alike
      have rest := ih later _ seen
      simp only [Function.update_self] at rest
      simpa only [List.count_cons_self, asking, alone, ← answered] using rest
    · have unseen := undisturbed.others name taker question world.state permitted.1
        (fun same => mine same.symm)
      have rest := ih later twin (unseen.trans alike)
      simp only [Function.update_of_ne (fun same : name = taker => mine same.symm)] at rest
      simpa only [List.count_cons_of_ne mine] using rest

/-- A process that has finished in some schedule has the result that it has
alone, and sees what it would have left. -/
theorem finished_as_alone {X : N → Type y} (view : ∀ name, S → X name)
    (undisturbed : Undisturbed serve allowed view) (world final : World N Q A R S)
    (schedule : List N) (run : Run serve world schedule final)
    (asks : ∀ name, (world.process name).Asks (allowed name)) (name : N) (result : R)
    (finished : final.process name = done result) :
    let solo := (world.process name).run (serve name) world.state
    result = solo.1 ∧ view name final.state = view name solo.2 := by
  obtain ⟨reached, seen⟩ := run_as_alone serve allowed view undisturbed world final schedule run
    asks name world.state rfl
  rw [finished] at reached
  have ended := run_of_alone (serve name) (schedule.count name) (world.process name) world.state _
    result (Prod.ext reached.symm rfl)
  rw [ended]
  exact ⟨rfl, seen⟩

/-! A process among others that keep to a relation. -/

/-- Whatever moves the others make before each of its questions and after its
last, the process ends with what is demanded of its result and the state. -/
def Meets (around : S → S → Prop) (answer : Q → S → A × S) (demand : R → S → Prop) :
    Process Q A R → S → Prop
  | done result, state => ∀ moved, around state moved → demand result moved
  | ask question next, state => ∀ moved, around state moved →
      (next (answer question moved).1).Meets around answer demand (answer question moved).2

/-- The moves of the others can be put before what a process has to meet. -/
theorem meets_moved (around : S → S → Prop)
    (joined : ∀ first second third, around first second → around second third →
      around first third)
    (answer : Q → S → A × S) (demand : R → S → Prop) (process : Process Q A R) (state moved : S)
    (move : around state moved) (meets : process.Meets around answer demand state) :
    process.Meets around answer demand moved := by
  cases process with
  | done result => exact fun later step => meets later (joined _ _ _ move step)
  | ask question next => exact fun later step => meets later (joined _ _ _ move step)

/-- A process goes on to its continuation with what it leaves. -/
theorem meets_bind (around : S → S → Prop) (answer : Q → S → A × S) (between : R → S → Prop)
    (demand : T → S → Prop) (process : Process Q A R) (next : R → Process Q A T) (state : S)
    (still : ∀ state, around state state)
    (first : process.Meets around answer between state)
    (later : ∀ result state, between result state →
      (next result).Meets around answer demand state) :
    (process.bind next).Meets around answer demand state := by
  induction process generalizing state with
  | done result => exact later result state (first state (still state))
  | ask question more ih => exact fun moved step => ih _ _ (first moved step)

/-- What the others keep, and the process by its own questions, is there at its end
as well. -/
theorem meets_kept (around : S → S → Prop) (answer : Q → S → A × S) (demand : R → S → Prop)
    (keeps : S → Prop) (mine : Q → Prop)
    (moved : ∀ state later, around state later → keeps state → keeps later)
    (asked : ∀ question state, mine question → keeps state → keeps (answer question state).2)
    (process : Process Q A R) (state : S) (asks : process.Asks mine)
    (meets : process.Meets around answer demand state) (start : keeps state) :
    process.Meets around answer (fun result later => demand result later ∧ keeps later) state := by
  induction process generalizing state with
  | done result => exact fun later step => ⟨meets later step, moved state later step start⟩
  | ask question next ih =>
    intro later step
    exact ih _ _ (asks.2 _) (meets later step)
      (asked question later asks.1 (moved state later step start))

/-- A process meets what follows from its demand. -/
theorem meets_imp (around : S → S → Prop) (answer : Q → S → A × S) (demand weaker : R → S → Prop)
    (implies : ∀ result state, demand result state → weaker result state)
    (process : Process Q A R) (state : S) (meets : process.Meets around answer demand state) :
    process.Meets around answer weaker state := by
  induction process generalizing state with
  | done result => exact fun later step => implies result later (meets later step)
  | ask question next ih => exact fun later step => ih _ _ (meets later step)

/-- In every schedule a process meets its demand, when the questions of all
others are moves that it allows for. -/
theorem run_meets (around : S → S → Prop) (still : ∀ state, around state state)
    (joined : ∀ first second third, around first second → around second third →
      around first third)
    (name : N)
    (moves : ∀ other question state, other ≠ name → allowed other question →
      around state (serve other question state).2)
    (demand : R → S → Prop) (world final : World N Q A R S) (schedule : List N)
    (run : Run serve world schedule final)
    (asks : ∀ name, (world.process name).Asks (allowed name))
    (start : (world.process name).Meets around (serve name) demand world.state) (result : R)
    (finished : final.process name = done result) : demand result final.state := by
  have reached : (final.process name).Meets around (serve name) demand final.state := by
    induction run with
    | stay world => exact start
    | turn world next final taker schedule first rest ih =>
      refine ih (turn_asks serve allowed taker world next first asks) ?_ finished
      obtain ⟨question, more, asking⟩ := first
      by_cases mine : taker = name
      · subst mine
        rw [asking] at start
        simp only [Function.update_self]
        exact start world.state (still _)
      · have permitted := asks taker
        rw [asking] at permitted
        simp only [Function.update_of_ne (fun same : name = taker => mine same.symm)]
        exact meets_moved around joined (serve name) demand _ world.state _
          (moves taker question world.state mine permitted.1) start
  rw [finished] at reached
  exact reached final.state (still _)

end Shared

end Process

end GoogleCalendar.Library
