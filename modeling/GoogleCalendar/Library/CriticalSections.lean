import Mathlib.Data.List.Basic

/-!
# Sections under a lock

Threads call one procedure, whose body runs under a lock. The body goes in stages;
between two stages the other threads arrive, wait and change the world around the
lock, but what the lock guards is changed by its holder alone.

`follow_keeps` is the rule of such a lock: an invariant that the holder's stages
keep, from the start of a body to its end, holds in every scene. The calls that
have ended are therefore those of a sequential run, in the order in which they
left the section.
-/

namespace GoogleCalendar.Library.CriticalSections

universe u

/-- What a stage of a body comes to: another stage, or the end of the call. -/
inductive Stage (L A : Type u) where
  | more (next : L)
  | done (answer : A)

/-- A body: where it starts, and what each stage does to what the lock guards and to
the world. -/
structure Body (L S W A : Type u) where
  start : L
  stage : L → S → W → Stage L A × S × W

/-- The state behind the lock, the world, and where the threads stand. -/
structure Scene (T L S W A : Type u) where
  shared : S
  world : W
  holder : Option (T × L)
  waiting : List T
  /-- The calls that have ended, in order, with their answers. -/
  ended : List (T × A)

/-- What may happen next: a thread acts, or the world changes. -/
inductive Act (T W : Type u) where
  | arrive (thread : T)
  | enter (thread : T)
  | proceed
  | elsewhere (world : W)

variable {T L S W A : Type u} [DecidableEq T]

/-- One act, where it is possible. A thread that is waiting or inside does not arrive
again, and the lock is taken only when it is free. -/
def step (body : Body L S W A) (scene : Scene T L S W A) : Act T W → Option (Scene T L S W A)
  | .arrive thread =>
      if thread ∈ scene.waiting ∨ thread ∈ scene.holder.map Prod.fst then none
      else some { scene with waiting := scene.waiting ++ [thread] }
  | .enter thread =>
      if scene.holder.isNone ∧ thread ∈ scene.waiting then
        some { scene with holder := some (thread, body.start),
                          waiting := scene.waiting.erase thread }
      else none
  | .proceed =>
      match scene.holder with
      | none => none
      | some (thread, place) =>
        match body.stage place scene.shared scene.world with
        | (.more next, shared, world) =>
            some { scene with shared := shared, world := world, holder := some (thread, next) }
        | (.done answer, shared, world) =>
            some { scene with shared := shared, world := world, holder := none,
                              ended := scene.ended ++ [(thread, answer)] }
  | .elsewhere world => some { scene with world := world }

/-- The scene after acts that are all possible. -/
def follow (body : Body L S W A) : Scene T L S W A → List (Act T W) → Option (Scene T L S W A)
  | scene, [] => some scene
  | scene, act :: acts => (step body scene act).bind (fun next => follow body next acts)

/-- Acts are followed one part after the other. -/
theorem follow_append (body : Body L S W A) (scene : Scene T L S W A) (acts more : List (Act T W)) :
    follow body scene (acts ++ more) =
      (follow body scene acts).bind (fun next => follow body next more) := by
  induction acts generalizing scene with
  | nil => rfl
  | cons act acts ih =>
    cases stepped : step body scene act with
    | none => simp [follow, stepped]
    | some next => simp [follow, stepped, ih]

/-- The acts that are seen by what the lock guards: taking it, going on under it, and
leaving it. -/
theorem step_cases (body : Body L S W A) (scene next : Scene T L S W A) (act : Act T W)
    (stepped : step body scene act = some next) :
    (next.holder = scene.holder ∧ next.shared = scene.shared ∧ next.ended = scene.ended) ∨
    (∃ thread, scene.holder = none ∧ next.holder = some (thread, body.start) ∧
      next.shared = scene.shared ∧ next.ended = scene.ended) ∨
    (∃ thread place further world, scene.holder = some (thread, place) ∧
      body.stage place scene.shared scene.world = (.more further, next.shared, world) ∧
      next.holder = some (thread, further) ∧ next.ended = scene.ended) ∨
    (∃ thread place answer world, scene.holder = some (thread, place) ∧
      body.stage place scene.shared scene.world = (.done answer, next.shared, world) ∧
      next.holder = none ∧ next.ended = scene.ended ++ [(thread, answer)]) := by
  cases act with
  | arrive thread =>
    simp only [step] at stepped
    split at stepped
    · cases stepped
    · cases stepped
      exact .inl ⟨rfl, rfl, rfl⟩
  | enter thread =>
    simp only [step] at stepped
    split at stepped
    · rename_i free
      cases stepped
      exact .inr (.inl ⟨thread, by simpa using free.1, rfl, rfl, rfl⟩)
    · cases stepped
  | proceed =>
    simp only [step] at stepped
    split at stepped
    · cases stepped
    · rename_i thread place held
      split at stepped
      · rename_i further shared world staged
        cases stepped
        exact .inr (.inr (.inl ⟨thread, place, further, world, held, staged, rfl, rfl⟩))
      · rename_i answer shared world staged
        cases stepped
        exact .inr (.inr (.inr ⟨thread, place, answer, world, held, staged, rfl, rfl⟩))
  | elsewhere world =>
    cases stepped
    exact .inl ⟨rfl, rfl, rfl⟩

/-! ## The rule of the lock -/

/-- The stages of a body keep an assertion about the place of the holder, what the lock
guards and the calls that have ended. -/
structure Keeps (body : Body L S W A) (holds : Option L → S → List (T × A) → Prop) : Prop where
  taken : ∀ shared ended, holds none shared ended → holds (some body.start) shared ended
  more : ∀ place shared world ended further left after,
    holds (some place) shared ended → body.stage place shared world = (.more further, left, after) →
      holds (some further) left ended
  done : ∀ place shared world ended answer left after thread,
    holds (some place) shared ended → body.stage place shared world = (.done answer, left, after) →
      holds none left (ended ++ [(thread, answer)])

section
variable {body : Body L S W A} {holds : Option L → S → List (T × A) → Prop}

/-- An act keeps what every stage keeps. -/
theorem step_keeps (keeps : Keeps body holds) (scene next : Scene T L S W A) (act : Act T W)
    (stepped : step body scene act = some next)
    (held : holds (scene.holder.map Prod.snd) scene.shared scene.ended) :
    holds (next.holder.map Prod.snd) next.shared next.ended := by
  rcases step_cases body scene next act stepped with ⟨holder, shared, ended⟩ |
    ⟨thread, free, holder, shared, ended⟩ |
    ⟨thread, place, further, world, inside, staged, holder, ended⟩ |
    ⟨thread, place, answer, world, inside, staged, holder, ended⟩
  · rw [holder, shared, ended]
    exact held
  · rw [holder, shared, ended]
    rw [free] at held
    exact keeps.taken _ _ held
  · rw [holder, ended]
    rw [inside] at held
    exact keeps.more _ _ _ _ _ _ _ held staged
  · rw [holder, ended]
    rw [inside] at held
    exact keeps.done _ _ _ _ _ _ _ _ held staged

/-- So does any number of acts. -/
theorem follow_keeps (keeps : Keeps body holds) (scene later : Scene T L S W A)
    (acts : List (Act T W)) (followed : follow body scene acts = some later)
    (held : holds (scene.holder.map Prod.snd) scene.shared scene.ended) :
    holds (later.holder.map Prod.snd) later.shared later.ended := by
  induction acts generalizing scene with
  | nil =>
    cases followed
    exact held
  | cons act acts ih =>
    simp only [follow, Option.bind_eq_some_iff] at followed
    obtain ⟨next, stepped, rest⟩ := followed
    exact ih next rest (step_keeps keeps scene next act stepped held)

end

/-! ## The calls in sequence -/

/-- The places that a body comes to from its start, each stage at some world. -/
inductive Reaches (body : Body L S W A) (origin : S) : L → S → Prop where
  | start : Reaches body origin body.start origin
  | further {place next : L} {shared left : S} {world after : W} :
      Reaches body origin place shared →
      body.stage place shared world = (.more next, left, after) → Reaches body origin next left

/-- One whole call, made alone. -/
def Whole (body : Body L S W A) (origin : S) (answer : A) (left : S) : Prop :=
  ∃ place shared world after, Reaches body origin place shared ∧
    body.stage place shared world = (.done answer, left, after)

/-- Calls made one after another. -/
inductive Sequence (body : Body L S W A) (origin : S) : List A → S → Prop where
  | none : Sequence body origin [] origin
  | next {answers : List A} {shared left : S} {answer : A} :
      Sequence body origin answers shared → Whole body shared answer left →
      Sequence body origin (answers ++ [answer]) left

/-- What the lock guards is what a sequence of calls left, and what the holder's stages
have made of it. -/
def Sequential (body : Body L S W A) (origin : S) (place : Option L) (shared : S)
    (ended : List (T × A)) : Prop :=
  ∃ settled, Sequence body origin (ended.map Prod.snd) settled ∧
    match place with
    | none => shared = settled
    | some place => Reaches body settled place shared

omit [DecidableEq T] in
/-- Every stage keeps the calls sequential. -/
theorem sequential_keeps (body : Body L S W A) (origin : S) :
    Keeps (T := T) body (Sequential body origin) where
  taken shared ended held := by
    obtain ⟨settled, sequence, same⟩ := held
    have here : shared = settled := same
    exact ⟨settled, sequence, here ▸ .start⟩
  more place shared world ended further left after held staged := by
    obtain ⟨settled, sequence, reached⟩ := held
    exact ⟨settled, sequence, .further reached staged⟩
  done place shared world ended answer left after thread held staged := by
    obtain ⟨settled, sequence, reached⟩ := held
    have whole : Whole body settled answer left := ⟨place, shared, world, after, reached, staged⟩
    refine ⟨left, ?_, rfl⟩
    simpa using Sequence.next sequence whole

/-! ## Getting through -/

/-- The holder leaves the lock when its stages run out, whoever else is waiting. -/
theorem drains (body : Body L S W A) (stages : L → Nat)
    (shrinks : ∀ place shared world further left after,
      body.stage place shared world = (.more further, left, after) → stages further < stages place)
    (scene : Scene T L S W A) (thread : T) (place : L)
    (inside : scene.holder = some (thread, place)) :
    ∃ acts later answer, follow body scene acts = some later ∧ later.holder = none ∧
      later.waiting = scene.waiting ∧ later.ended = scene.ended ++ [(thread, answer)] := by
  induction room : stages place using Nat.strongRecOn generalizing scene place with
  | ind count ih =>
    match staged : body.stage place scene.shared scene.world with
    | (.done answer, left, after) =>
      let next : Scene T L S W A :=
        { scene with shared := left, world := after, holder := none,
                     ended := scene.ended ++ [(thread, answer)] }
      have proceeds : follow body scene [.proceed] = some next := by
        simp only [follow, step, inside, staged]
        rfl
      exact ⟨[.proceed], next, answer, proceeds, rfl, rfl, rfl⟩
    | (.more further, left, after) =>
      have smaller := shrinks _ _ _ _ _ _ staged
      let next : Scene T L S W A :=
        { scene with shared := left, world := after, holder := some (thread, further) }
      obtain ⟨acts, later, answer, followed, free, waiting, ended⟩ :=
        ih (stages further) (room ▸ smaller) next further rfl rfl
      refine ⟨.proceed :: acts, later, answer, ?_, free, waiting, ended⟩
      simp only [follow, step, inside, staged]
      exact followed

/-- Whoever waits can get through: no scene is a deadlock. -/
theorem gets_through (body : Body L S W A) (stages : L → Nat)
    (shrinks : ∀ place shared world further left after,
      body.stage place shared world = (.more further, left, after) → stages further < stages place)
    (scene : Scene T L S W A) (thread : T) (waits : thread ∈ scene.waiting) :
    ∃ acts later earlier answer, follow body scene acts = some later ∧
      later.ended = scene.ended ++ earlier ++ [(thread, answer)] := by
  have freed : ∃ acts later earlier, follow body scene acts = some later ∧ later.holder = none ∧
      later.waiting = scene.waiting ∧ later.ended = scene.ended ++ earlier := by
    cases inside : scene.holder with
    | none => exact ⟨[], scene, [], rfl, inside, rfl, by simp⟩
    | some held =>
      obtain ⟨acts, later, answer, followed, free, waiting, ended⟩ :=
        drains body stages shrinks scene held.1 held.2 inside
      exact ⟨acts, later, [(held.1, answer)], followed, free, waiting, ended⟩
  obtain ⟨acts, between, earlier, followed, free, waiting, ended⟩ := freed
  let entered : Scene T L S W A :=
    { between with holder := some (thread, body.start), waiting := between.waiting.erase thread }
  obtain ⟨more, later, answer, through, -, -, finished⟩ :=
    drains body stages shrinks entered thread body.start rfl
  have enters : step body between (.enter thread) = some entered := by
    have there : thread ∈ between.waiting := waiting ▸ waits
    simp [step, free, there, entered]
  refine ⟨acts ++ .enter thread :: more, later, earlier, answer, ?_, ?_⟩
  · rw [follow_append, followed]
    simp only [Option.bind_some, follow, enters]
    exact through
  · rw [finished, ← ended]

end GoogleCalendar.Library.CriticalSections
