import Mathlib.Data.List.Nodup
import Mathlib.Logic.Function.Basic

/-!
# Tables of rows under keys

A table holds at most one row under a key. A command selects the wanted rows, puts
rows under their keys, changes the wanted rows or deletes them, and each leaves a
table and is about certain rows. A system whose steps each amount to a command on
the table it shows amounts to a run of commands.
-/

namespace GoogleCalendar.Library.KeyedTable

universe u v w
variable {K : Type u} {R : Type v}

/-- At most one row for every key. -/
abbrev Table (K : Type u) (R : Type v) := K → Option R

/-- The commands on a table. -/
inductive Command (K : Type u) (R : Type v) where
  | select (wanted : R → Bool)
  | upsert (rows : List (K × R))
  | update (wanted : R → Bool) (change : R → R)
  | delete (wanted : R → Bool)

/-- Rows that are the wanted ones of a table, each listed once. -/
structure Enumerates (table : Table K R) (wanted : R → Bool) (rows : List (K × R)) : Prop where
  distinct : (rows.map Prod.fst).Nodup
  listed : ∀ key row, (key, row) ∈ rows ↔ table key = some row ∧ wanted row = true

/-- The rows that a command is about. -/
def Command.Concerns (table : Table K R) : Command K R → List (K × R) → Prop
  | .select wanted, rows => Enumerates table wanted rows
  | .upsert given, rows => rows = given
  | .update wanted _, rows => Enumerates table wanted rows
  | .delete wanted, rows => Enumerates table wanted rows

/-- Of the wanted rows, those that also pass a test. -/
theorem enumerates_filter (table : Table K R) (wanted passes : R → Bool) (rows : List (K × R))
    (selected : Enumerates table wanted rows) :
    Enumerates table (fun row => wanted row && passes row)
      (rows.filter (fun row => passes row.2)) where
  distinct := selected.distinct.sublist (List.Sublist.map Prod.fst List.filter_sublist)
  listed key row := by
    rw [List.mem_filter, selected.listed, Bool.and_eq_true, and_assoc]

variable [DecidableEq K]

/-- The table with rows put under their keys, one after another. -/
def upserted (table : Table K R) (rows : List (K × R)) : Table K R :=
  rows.foldl (fun held row => Function.update held row.1 (some row.2)) table

/-- The table that a command leaves. -/
def Command.leaves (table : Table K R) : Command K R → Table K R
  | .select _ => table
  | .upsert rows => upserted table rows
  | .update wanted change =>
      fun key => (table key).map (fun row => if wanted row then change row else row)
  | .delete wanted => fun key => (table key).filter (fun row => !wanted row)

/-- A key that is not upserted keeps its row. -/
theorem upserted_other (table : Table K R) (rows : List (K × R)) (key : K)
    (absent : key ∉ rows.map Prod.fst) : upserted table rows key = table key := by
  induction rows generalizing table with
  | nil => rfl
  | cons row rest ih =>
    obtain ⟨here, later⟩ := not_or.mp (fun split => absent (List.mem_cons.mpr split))
    rw [upserted, List.foldl_cons]
    rw [← upserted, ih _ later, Function.update_of_ne here]

/-- A key that is upserted once has the row it was given. -/
theorem upserted_listed (table : Table K R) (rows : List (K × R)) (key : K) (row : R)
    (distinct : (rows.map Prod.fst).Nodup) (member : (key, row) ∈ rows) :
    upserted table rows key = some row := by
  induction rows generalizing table with
  | nil => cases member
  | cons first rest ih =>
    obtain ⟨fresh, others⟩ := List.nodup_cons.mp distinct
    rw [upserted, List.foldl_cons, ← upserted]
    rcases List.mem_cons.mp member with rfl | later
    · rw [upserted_other _ rest key fresh, Function.update_self]
    · exact ih _ others later

/-- The wanted rows of a table, changed and put into an empty one, are what it holds. -/
theorem upserted_selected {Q : Type w} (table : Table K R) (wanted : R → Bool)
    (rows : List (K × R)) (change : R → Q) (selected : Enumerates table wanted rows) :
    upserted (fun _ => none) (rows.map (fun row => (row.1, change row.2))) =
      fun key => ((table key).filter wanted).map change := by
  have keys : (rows.map (fun row => (row.1, change row.2))).map Prod.fst = rows.map Prod.fst := by
    rw [List.map_map]
    rfl
  funext key
  cases chosen : (table key).filter wanted with
  | none =>
    apply upserted_other
    rw [keys]
    intro member
    obtain ⟨⟨other, row⟩, listed, rfl⟩ := List.mem_map.mp member
    obtain ⟨held, want⟩ := (selected.listed other row).mp listed
    rw [held, Option.filter_some, if_pos want] at chosen
    cases chosen
  | some row =>
    obtain ⟨held, want⟩ := Option.filter_eq_some_iff.mp chosen
    have listed := (selected.listed key row).mpr ⟨held, want⟩
    exact upserted_listed _ _ key (change row) (by rw [keys]; exact selected.distinct)
      (List.mem_map.mpr ⟨_, listed, rfl⟩)

/-- Commands one after another, each with the rows it is about. -/
inductive Run : Table K R → List (Command K R × List (K × R)) → Table K R → Prop where
  | done (table : Table K R) : Run table [] table
  | step (table final : Table K R) (command : Command K R) (rows : List (K × R))
      (later : List (Command K R × List (K × R))) (concerns : command.Concerns table rows)
      (rest : Run (command.leaves table) later final) :
      Run table ((command, rows) :: later) final

/-! ## Tables that are seen through a view -/

section View

variable {B : Type w} (view : B → R)

/-- What is seen of a collection. -/
def seen (held : K → Option B) : Table K R := fun key => (held key).map view

/-- A row that is changed is seen as its view. -/
theorem seen_update (held : K → Option B) (key : K) (value : B) :
    seen view (Function.update held key (some value)) =
      Function.update (seen view held) key (some (view value)) := by
  funext other
  by_cases same : other = key
  · subst same
    simp [seen]
  · simp [seen, Function.update_of_ne same]

/-- A collection with some items deleted is seen with the wanted rows deleted. -/
theorem seen_deleted (held left : K → Option B) (wanted : R → Bool)
    (gone : ∀ key value, held key = some value → wanted (view value) = true → left key = none)
    (kept : ∀ key, (∀ value, held key = some value → wanted (view value) = false) →
      left key = held key) :
    seen view left = (Command.delete wanted).leaves (seen view held) := by
  funext key
  simp only [seen, Command.leaves]
  cases found : held key with
  | none =>
    have same := kept key (fun value held => by rw [found] at held; cases held)
    rw [same, found]
    rfl
  | some value =>
    by_cases chosen : wanted (view value) = true
    · rw [gone key value found chosen]
      simp [Option.filter, chosen]
    · have spared : wanted (view value) = false := by simpa using chosen
      have same := kept key (fun other held => by
        obtain rfl := Option.some.inj (found.symm.trans held)
        exact spared)
      rw [same, found]
      simp [Option.filter, spared]

end View

/-! ## Systems that are seen as a table -/

section Refinement

variable {S : Type u} {St : Type v} {Rep : Type w} (performs : S → St → Rep → S → Prop)
  (table : S → Table K R) (command : St → Command K R) (Tells : St → Rep → List (K × R) → Prop)

/-- Steps one after another, each with its report. -/
inductive Transcript : S → List (St × Rep) → S → Prop where
  | done (state : S) : Transcript state [] state
  | step (state between final : S) (statement : St) (report : Rep) (later : List (St × Rep))
      (first : performs state statement report between) (rest : Transcript between later final) :
      Transcript state ((statement, report) :: later) final

/-- What each step of a session keeps, the session keeps. -/
theorem transcript_keeps (keeps : S → Prop) (state final : S) (steps : List (St × Rep))
    (session : Transcript performs state steps final)
    (kept : ∀ step ∈ steps, ∀ before after, keeps before → performs before step.1 step.2 after →
      keeps after) (start : keeps state) : keeps final := by
  induction session with
  | done state => exact start
  | step state between final statement report later first rest ih =>
    exact ih (fun step member => kept step (List.mem_cons_of_mem _ member))
      (kept (statement, report) List.mem_cons_self state between start first)

/-- When each step amounts to its command, so does a session, one command for each step. -/
theorem session_refines (state final : S) (steps : List (St × Rep))
    (session : Transcript performs state steps final)
    (amounts : ∀ step ∈ steps, ∀ before after, performs before step.1 step.2 after →
      ∃ rows, (command step.1).Concerns (table before) rows ∧
        table after = (command step.1).leaves (table before) ∧ Tells step.1 step.2 rows) :
    ∃ rows : List (List (K × R)),
      List.Forall₂ (fun step about => Tells step.1 step.2 about) steps rows ∧
      Run (table state) ((steps.map (fun step => command step.1)).zip rows) (table final) := by
  induction session with
  | done state => exact ⟨[], .nil, .done _⟩
  | step state between final statement report later first rest ih =>
    obtain ⟨about, concerns, leaves, tells⟩ :=
      amounts (statement, report) (List.mem_cons_self ..) state between first
    obtain ⟨rows, told, run⟩ :=
      ih (fun step member => amounts step (List.mem_cons_of_mem _ member))
    refine ⟨about :: rows, .cons tells told, ?_⟩
    rw [leaves] at run
    exact .step _ _ _ _ _ concerns run

end Refinement

end GoogleCalendar.Library.KeyedTable
