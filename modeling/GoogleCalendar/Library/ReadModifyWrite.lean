import Mathlib.Data.List.Basic
import Mathlib.Logic.Function.Basic

/-!
# Two writers that load, compute and store

Two writers share a value. Each loads it once, computes from it what it is going to
store, and stores that, once or again and again; nothing keeps the other's accesses
from coming in between.

The value that is left is decided by the writer that stores last: it is what that
writer computed from what it loaded. It loaded what the other had stored, if the
other had stored by then, and otherwise the value there was before both.
-/

namespace GoogleCalendar.Library.ReadModifyWrite

universe u

/-- A writer loads the shared value, or stores what it computed. -/
inductive Access where
  | load (writer : Bool)
  | store (writer : Bool)
  deriving DecidableEq, Repr

/-- Whose access it is. -/
def Access.writer : Access → Bool
  | load writer => writer
  | store writer => writer

/-- The shared value, and what each writer has computed. -/
structure Memory (V : Type u) where
  current : V
  held : Bool → Option V

variable {V : Type u} (compute : Bool → V → Option V)

/-- One access. A writer that computed nothing stores nothing. -/
def step (memory : Memory V) : Access → Memory V
  | .load writer =>
      ⟨memory.current, Function.update memory.held writer (compute writer memory.current)⟩
  | .store writer => ⟨(memory.held writer).getD memory.current, memory.held⟩

/-- Accesses in order. -/
def play (accesses : List Access) (memory : Memory V) : Memory V :=
  accesses.foldl (step compute) memory

/-- The accesses of one writer. -/
def own (writer : Bool) (accesses : List Access) : List Access :=
  accesses.filter (fun access => access.writer = writer)

/-- A writer loads once and then stores, at least once. -/
def Once (writer : Bool) (accesses : List Access) : Prop :=
  ∃ stores, own writer accesses = .load writer :: List.replicate (stores + 1) (.store writer)

/-- Accesses are played one part after the other. -/
theorem play_append (early late : List Access) (memory : Memory V) :
    play compute (early ++ late) memory = play compute late (play compute early memory) :=
  List.foldl_append

/-- A writer's accesses of two parts. -/
theorem own_append (writer : Bool) (early late : List Access) :
    own writer (early ++ late) = own writer early ++ own writer late :=
  List.filter_append ..

/-- A writer's accesses are those it makes. -/
theorem mem_own (writer : Bool) (accesses : List Access) (access : Access) :
    access ∈ own writer accesses ↔ access ∈ accesses ∧ access.writer = writer := by
  simp [own, List.mem_filter]

/-- Only a load changes what a writer holds. -/
theorem held_kept (writer : Bool) (accesses : List Access) (memory : Memory V)
    (unloaded : Access.load writer ∉ accesses) :
    (play compute accesses memory).held writer = memory.held writer := by
  induction accesses generalizing memory with
  | nil => rfl
  | cons access rest ih =>
    have apart : Access.load writer ≠ access := fun same => unloaded (same ▸ List.mem_cons_self ..)
    have later : Access.load writer ∉ rest := fun member => unloaded (List.mem_cons_of_mem _ member)
    rw [play, List.foldl_cons]
    refine (ih _ later).trans ?_
    cases access with
    | load other =>
      have distinct : writer ≠ other := fun same => apart (congrArg Access.load same)
      exact Function.update_of_ne distinct _ _
    | store other => rfl

/-- Only a store changes the value. -/
theorem current_kept (accesses : List Access) (memory : Memory V)
    (unstored : ∀ writer, Access.store writer ∉ accesses) :
    (play compute accesses memory).current = memory.current := by
  induction accesses generalizing memory with
  | nil => rfl
  | cons access rest ih =>
    rw [play, List.foldl_cons]
    refine (ih _ (fun writer member => unstored writer (List.mem_cons_of_mem _ member))).trans ?_
    cases access with
    | load other => rfl
    | store other => exact absurd (List.mem_cons_self ..) (unstored other)

/-- Stores of one writer leave what it holds. -/
theorem current_stored (writer : Bool) (value : V) (accesses : List Access) (memory : Memory V)
    (held : memory.held writer = some value)
    (stores : ∀ access ∈ accesses, access = .store writer) :
    (play compute accesses memory).current = if accesses = [] then memory.current else value := by
  induction accesses generalizing memory with
  | nil => rfl
  | cons access rest ih =>
    obtain rfl := stores access (List.mem_cons_self ..)
    have stored : step compute memory (.store writer) = ⟨value, memory.held⟩ := by
      rw [step, held]
      rfl
    rw [play, List.foldl_cons, stored, if_neg (List.cons_ne_nil _ _)]
    refine (ih ⟨value, memory.held⟩ held
      (fun other member => stores other (List.mem_cons_of_mem _ member))).trans ?_
    split <;> rfl

/-- A list in which something holds has a last place where it does. -/
theorem last_place {A : Type u} (holds : A → Prop) (list : List A)
    (somewhere : ∃ place ∈ list, holds place) :
    ∃ early place late, list = early ++ place :: late ∧ holds place ∧
      ∀ other ∈ late, ¬ holds other := by
  induction list with
  | nil =>
    obtain ⟨place, member, -⟩ := somewhere
    exact absurd member List.not_mem_nil
  | cons first rest ih =>
    by_cases later : ∃ place ∈ rest, holds place
    · obtain ⟨early, place, late, rfl, here, none⟩ := ih later
      exact ⟨first :: early, place, late, rfl, here, none⟩
    · obtain ⟨place, member, here⟩ := somewhere
      rcases List.mem_cons.mp member with rfl | inRest
      · exact ⟨[], place, rest, rfl, here, fun other listed holds => later ⟨other, listed, holds⟩⟩
      · exact absurd ⟨place, inRest, here⟩ later

/-- The first access of a writer splits a list. -/
theorem own_split (writer : Bool) (accesses : List Access) (first : Access) (rest : List Access)
    (listed : own writer accesses = first :: rest) :
    ∃ early late, accesses = early ++ first :: late ∧ (∀ access ∈ early, access.writer ≠ writer) ∧
      own writer late = rest := by
  obtain ⟨early, late, whole, none, -, later⟩ := List.filter_eq_cons_iff.mp listed
  exact ⟨early, late, whole, fun access member => by simpa using none access member, later⟩

/-- A writer that makes no access has none. -/
theorem own_none (writer : Bool) (accesses : List Access)
    (none : ∀ access ∈ accesses, access.writer ≠ writer) : own writer accesses = [] :=
  List.filter_eq_nil_iff.mpr (fun access member => by simpa using none access member)

/-- A writer that makes every access has them all. -/
theorem own_all (writer : Bool) (accesses : List Access)
    (all : ∀ access ∈ accesses, access.writer ≠ !writer) : own writer accesses = accesses :=
  List.filter_eq_self.mpr (fun access member => by
    have mine := all access member
    cases writer <;> simpa using mine)

/-- What a writer holds at the end is computed from what it loaded. -/
theorem loaded_value (writer : Bool) (early late : List Access) (memory : Memory V)
    (single : Access.load writer ∉ late) :
    (play compute (early ++ .load writer :: late) memory).held writer =
      compute writer (play compute early memory).current := by
  rw [play_append, play, List.foldl_cons]
  exact (held_kept compute writer late _ single).trans (Function.update_self ..)

/-- Behind its load a writer only stores. -/
theorem stores_behind (writer : Bool) (early late : List Access)
    (once : Once writer (early ++ .load writer :: late)) :
    (∀ access ∈ early, access.writer ≠ writer) ∧ Access.load writer ∉ late := by
  obtain ⟨stores, listed⟩ := once
  have here : own writer (.load writer :: late) = .load writer :: own writer late := by
    simp [own, Access.writer]
  rw [own_append, here] at listed
  cases first : own writer early with
  | nil =>
    rw [first, List.nil_append, List.cons.injEq] at listed
    constructor
    · intro access member mine
      have inOwn := (mem_own writer early access).mpr ⟨member, mine⟩
      rw [first] at inOwn
      exact absurd inOwn List.not_mem_nil
    · intro member
      have inOwn := (mem_own writer late _).mpr ⟨member, rfl⟩
      rw [listed.2] at inOwn
      exact absurd (List.eq_of_mem_replicate inOwn) (by simp)
  | cons access rest =>
    rw [first, List.cons_append, List.cons.injEq] at listed
    have again : Access.load writer ∈ rest ++ .load writer :: own writer late :=
      List.mem_append_right _ (List.mem_cons_self ..)
    rw [listed.2] at again
    exact absurd (List.eq_of_mem_replicate again) (by simp)

/-- Accesses of one writer at the start of a list leave the value as it was, as long as it
has not stored, and then what it computed from it. -/
theorem prefix_value (writer : Bool) (early rest : List Access) (memory : Memory V) (value : V)
    (once : Once writer (early ++ rest)) (mine : ∀ access ∈ early, access.writer ≠ !writer)
    (held : (play compute (early ++ rest) memory).held writer = some value) :
    (Access.store writer ∉ early ∧ (play compute early memory).current = memory.current) ∨
      (Access.store writer ∈ early ∧ (play compute early memory).current = value ∧
        compute writer memory.current = some value) := by
  obtain ⟨stores, listed⟩ := id once
  rw [own_append, own_all writer early mine] at listed
  cases early with
  | nil => exact .inl ⟨List.not_mem_nil, rfl⟩
  | cons access tail =>
    rw [List.cons_append, List.cons.injEq] at listed
    obtain ⟨rfl, behind⟩ := listed
    have only : ∀ other ∈ tail, other = Access.store writer := by
      intro other member
      have inAll : other ∈ tail ++ own writer rest := List.mem_append_left _ member
      rw [behind] at inAll
      exact List.eq_of_mem_replicate inAll
    have single := (stores_behind writer [] (tail ++ rest) once).2
    have computed : compute writer memory.current = some value :=
      (loaded_value compute writer [] (tail ++ rest) memory single).symm.trans held
    have loaded : play compute (.load writer :: tail) memory =
        play compute tail (step compute memory (.load writer)) := rfl
    have left := current_stored compute writer value tail (step compute memory (.load writer))
      ((Function.update_self ..).trans computed) only
    rw [loaded, left]
    cases tail with
    | nil => exact .inl ⟨by simp, rfl⟩
    | cons next others =>
      refine .inr ⟨?_, rfl, computed⟩
      rw [only next (List.mem_cons_self ..)]
      exact List.mem_cons_of_mem _ (List.mem_cons_self ..)

/-- The accesses around the last store: the writer of it loaded once before, and nothing is
stored after it. -/
theorem around_last_store (accesses : List Access) (once : ∀ writer, Once writer accesses) :
    ∃ last early middle late,
      accesses = early ++ .load last :: (middle ++ .store last :: late) ∧
      ∀ writer, Access.store writer ∉ late := by
  have somewhere : ∃ access ∈ accesses, ∃ writer, access = Access.store writer := by
    obtain ⟨stores, listed⟩ := once false
    have member : Access.store false ∈ own false accesses := by
      rw [listed]
      exact List.mem_cons_of_mem _ (List.mem_replicate.mpr ⟨Nat.succ_ne_zero _, rfl⟩)
    exact ⟨_, ((mem_own false accesses _).mp member).1, false, rfl⟩
  obtain ⟨init, _, late, rfl, ⟨last, rfl⟩, none⟩ := last_place _ accesses somewhere
  obtain ⟨stores, listed⟩ := once last
  rw [own_append] at listed
  cases first : own last init with
  | nil =>
    rw [first] at listed
    simp [own, Access.writer] at listed
  | cons access rest =>
    rw [first, List.cons_append, List.cons.injEq] at listed
    obtain ⟨rfl, -⟩ := listed
    obtain ⟨early, middle, rfl, -, -⟩ := own_split last init _ rest first
    refine ⟨last, early, middle, late, by simp, ?_⟩
    intro writer member
    exact none _ member ⟨writer, rfl⟩

/-- The value that two writers leave is that of the one that stores last. It is computed from
what the other stored, if the other stored before it loaded, and otherwise from the value
before both. -/
theorem last_store_decides (accesses : List Access) (start : V) (values : Bool → V)
    (once : ∀ writer, Once writer accesses)
    (held : ∀ writer,
      (play compute accesses ⟨start, fun _ => none⟩).held writer = some (values writer)) :
    ∃ last early middle late,
      accesses = early ++ .load last :: (middle ++ .store last :: late) ∧
      (∀ writer, Access.store writer ∉ late) ∧
      (play compute accesses ⟨start, fun _ => none⟩).current = values last ∧
      ((Access.store (!last) ∈ early ∧ compute (!last) start = some (values (!last)) ∧
          compute last (values (!last)) = some (values last)) ∨
        (Access.store (!last) ∉ early ∧ compute last start = some (values last) ∧
          ∃ base, (base = start ∨ base = values last) ∧
            compute (!last) base = some (values (!last)))) := by
  obtain ⟨last, early, middle, late, rfl, none⟩ := around_last_store accesses once
  obtain ⟨others, single⟩ := stores_behind last early _ (once last)
  have unloaded : Access.load last ∉ middle :=
    fun member => single (List.mem_append_left _ member)
  have computed : compute last (play compute early ⟨start, fun _ => Option.none⟩).current =
      some (values last) :=
    (loaded_value compute last early _ ⟨start, fun _ => Option.none⟩ single).symm.trans (held last)
  have current : (play compute (early ++ .load last :: (middle ++ .store last :: late))
      ⟨start, fun _ => Option.none⟩).current = values last := by
    have before := loaded_value compute last early middle ⟨start, fun _ => Option.none⟩ unloaded
    rw [computed] at before
    have split : early ++ Access.load last :: (middle ++ .store last :: late) =
        (early ++ .load last :: middle) ++ .store last :: late := by simp
    rw [split, play_append, play, List.foldl_cons]
    refine (current_kept compute late _ none).trans ?_
    simp only [step, before, Option.getD_some]
  refine ⟨last, early, middle, late, rfl, none, current, ?_⟩
  have mine : ∀ access ∈ early, access.writer ≠ !!last := by simpa using others
  rcases prefix_value compute (!last) early _ ⟨start, fun _ => Option.none⟩ _ (once (!last)) mine
    (held (!last)) with ⟨unstored, kept⟩ | ⟨stored, left, first⟩
  · rw [kept] at computed
    refine .inr ⟨unstored, computed, ?_⟩
    obtain ⟨stores, listed⟩ := once (!last)
    obtain ⟨before, behind, whole, apart, -⟩ := own_split (!last) _ _ _ listed
    have onceOther := once (!last)
    rw [whole] at onceOther
    have value := loaded_value compute (!last) before behind ⟨start, fun _ => Option.none⟩
      (stores_behind (!last) before behind onceOther).2
    rw [← whole, held (!last)] at value
    have onceLast := once last
    have heldLast := held last
    rw [whole] at onceLast heldLast
    refine ⟨_, ?_, value.symm⟩
    rcases prefix_value compute last before _ ⟨start, fun _ => Option.none⟩ _ onceLast apart
      heldLast with ⟨-, base⟩ | ⟨-, base, -⟩
    · exact .inl base
    · exact .inr base
  · rw [left] at computed
    exact .inl ⟨stored, first, computed⟩

end GoogleCalendar.Library.ReadModifyWrite
