import GoogleCalendar.Library.KeyedTable

/-!
# Databases of named tables

Names stand for tables, and several names can stand for one table. A command reads or
writes a table that it names, makes a new table of rows of another one, or drops a
table that the session made. A command that fails may have changed the table that it
was to write and no other; one that fails while it makes a table may leave the new
table under its name with any rows.

A system whose steps each amount to a command on the database it presents amounts to
a run of commands. In a run, a table that the session did not make changes only by
commands that name it.
-/

namespace GoogleCalendar.Library.NamedTables

open KeyedTable

universe u v w x y z
variable {N : Type u} {I : Type v} {K : Type w} {R : Type x}

/-- Tables of their own ids, the names that lead to them, and those that are owned. -/
structure Database (N : Type u) (I : Type v) (K : Type w) (R : Type x) where
  named : N → Option I
  rows : I → Table K R
  /-- The tables that the session made. -/
  owned : I → Prop
  /-- The tables that there have been. -/
  known : I → Prop
  registered : ∀ name table, named name = some table → known table

/-- What a command does with a table may depend on which one it is. -/
inductive Command (N : Type u) (I : Type v) (K : Type w) (R : Type x) where
  | perform (name : N) (command : I → KeyedTable.Command K R)
  | create (name source : N) (wanted : I → R → Bool) (copy : I → R → R)
  | drop (name : N)

variable [DecidableEq N] [DecidableEq I]

namespace Database

variable (db : Database N I K R)

/-- Rows for one table. -/
def fill (table : I) (rows : Table K R) : Database N I K R :=
  { db with rows := Function.update db.rows table rows }

/-- A new table under a name, whatever the name stood for. -/
def add (name : N) (table : I) (rows : Table K R) : Database N I K R where
  named := Function.update db.named name (some table)
  rows := Function.update db.rows table rows
  owned other := other = table ∨ db.owned other
  known other := other = table ∨ db.known other
  registered other held found := by
    by_cases here : other = name
    · subst here
      rw [Function.update_self] at found
      exact .inl (Option.some.inj found).symm
    · rw [Function.update_of_ne here] at found
      exact .inr (db.registered other held found)

/-- A name and the rows of its table taken away. -/
def remove (name : N) (table : I) : Database N I K R where
  named := Function.update db.named name none
  rows := Function.update db.rows table (fun _ => none)
  owned other := other ≠ table ∧ db.owned other
  known := db.known
  registered other held found := by
    by_cases here : other = name
    · subst here
      rw [Function.update_self] at found
      cases found
    · rw [Function.update_of_ne here] at found
      exact db.registered other held found

end Database

/-- A command that reads, whichever table it is for. -/
def Reads (command : I → KeyedTable.Command K R) : Prop :=
  ∀ table, ∃ wanted, command table = .select wanted

variable [DecidableEq K]

/-- What a command does, with the rows that it is about, or none of them when it fails. -/
inductive Step (db : Database N I K R) :
    Command N I K R → Option (List (K × R)) → Database N I K R → Prop where
  | performed (name : N) (command : I → KeyedTable.Command K R) (table : I) (rows : List (K × R))
      (named : db.named name = some table)
      (concerns : (command table).Concerns (db.rows table) rows) :
      Step db (.perform name command) (some rows)
        (db.fill table ((command table).leaves (db.rows table)))
  | interrupted (name : N) (command : I → KeyedTable.Command K R) (table : I) (left : Table K R)
      (named : db.named name = some table) (read : Reads command → left = db.rows table) :
      Step db (.perform name command) none (db.fill table left)
  | created (name source : N) (wanted : I → R → Bool) (copy : I → R → R) (origin table : I)
      (rows : List (K × R)) (named : db.named source = some origin) (fresh : ¬ db.known table)
      (enumerates : Enumerates (db.rows origin) (wanted origin) rows) :
      Step db (.create name source wanted copy) (some rows)
        (db.add name table
          (fun key => ((db.rows origin key).filter (wanted origin)).map (copy table)))
  | unfinished (name source : N) (wanted : I → R → Bool) (copy : I → R → R) (table : I)
      (left : Table K R) (fresh : ¬ db.known table) :
      Step db (.create name source wanted copy) none (db.add name table left)
  | dropped (name : N) (table : I) (named : db.named name = some table) (owned : db.owned table) :
      Step db (.drop name) (some []) (db.remove name table)
  | absent (name : N) (unnamed : db.named name = none) : Step db (.drop name) (some []) db
  | undropped (name : N) (table : I) (left : Table K R) (named : db.named name = some table)
      (owned : db.owned table) : Step db (.drop name) none (db.fill table left)
  | refused (command : Command N I K R) : Step db command none db

/-- Commands one after another, each with the rows it is about. -/
inductive Run : Database N I K R → List (Command N I K R × Option (List (K × R))) →
    Database N I K R → Prop where
  | done (db : Database N I K R) : Run db [] db
  | step (db next final : Database N I K R) (command : Command N I K R)
      (rows : Option (List (K × R))) (later : List (Command N I K R × Option (List (K × R))))
      (first : Step db command rows next) (rest : Run next later final) :
      Run db ((command, rows) :: later) final

/-! ## Systems that present a database -/

section Refinement

variable {S : Type y} {St : Type z} {Rep : Type z} (performs : S → St → Rep → S → Prop)
  (Presents : S → Database N I K R → Prop) (command : St → Command N I K R)
  (Tells : St → Rep → Option (List (K × R)) → Prop)

/-- When each step amounts to its command, so does a session, one command for each step. -/
theorem session_refines
    (amounts : ∀ before db statement report after, Presents before db →
      performs before statement report after →
      ∃ rows next, Step db (command statement) rows next ∧ Presents after next ∧
        Tells statement report rows)
    (state final : S) (steps : List (St × Rep)) (db : Database N I K R)
    (session : Transcript performs state steps final) (presented : Presents state db) :
    ∃ rows last, List.Forall₂ (fun step about => Tells step.1 step.2 about) steps rows ∧
      Run db ((steps.map (fun step => command step.1)).zip rows) last ∧ Presents final last := by
  induction session generalizing db with
  | done state => exact ⟨[], db, .nil, .done db, presented⟩
  | step state between final statement report later first rest ih =>
    obtain ⟨about, next, stepped, standing, tells⟩ :=
      amounts state db statement report between presented first
    obtain ⟨rows, last, told, run, ended⟩ := ih next standing
    exact ⟨about :: rows, last, .cons tells told, .step _ _ _ _ _ _ stepped run, ended⟩

end Refinement

end GoogleCalendar.Library.NamedTables
