import GoogleCalendar.CalendarScan
import GoogleCalendar.CalendarUpdate

/-!
# An UPDATE statement

The engine streams the scan into the sink. It calls the scan for a chunk, keeps
the rows that the predicate holds of, computes the values of the SET expressions
and hands them with the row ids to the sink before it calls the scan again. A
chunk without rows ends the statement.

The predicate and the expressions are the engine's; any two functions of a
scanned row can stand for them. The row id is the last column that is scanned
and the last value that the sink gets.
-/

namespace GoogleCalendar

open Library CalendarUpdate

/-- An UPDATE: the columns it scans, its predicate and its expressions. -/
structure UpdateStatement where
  columnIds : List ColumnId
  predicate : List Value → Bool
  expressions : List Value → List Value

namespace UpdateStatement

variable {σ : Type} (engine : Engine) (client : GoogleCalendarClient σ)
  (bindData : CalendarScanBindData) (operator : CalendarUpdate) (statement : UpdateStatement)

/-- The columns that are scanned. -/
def scanned : List ColumnId := statement.columnIds ++ [.rowId]

/-- The row that the sink gets for a scanned one. -/
def project (row : List Value) : Option (List Value) :=
  if statement.predicate row then some (statement.expressions row ++ [rowId row]) else none

/-- The chunks that are left, each sunk before the next is scanned. -/
def drain (vectorSize fuel : Nat) : Nat → CalendarScanGlobalState →
    CalendarUpdateGlobalSinkState → σ → Option (Except Exception CalendarUpdateGlobalSinkState × σ)
  | 0, _, _, _ => none
  | calls + 1, gstate, sinkState, state =>
    match CalendarScan.calendarScan engine client bindData vectorSize fuel gstate state with
    | none => none
    | some (.error error, after) => some (.error error, after)
    | some (.ok ([], _), after) => some (.ok sinkState, after)
    | some (.ok (rows, next), after) =>
      match sink engine client operator (rows.filterMap statement.project) sinkState after with
      | (.error error, final) => some (.error error, final)
      | (.ok sunk, final) => drain vectorSize fuel calls next sunk final

/-- The statement: the scan is opened, and its rows are drained into the sink. -/
def run (window : DefaultWindow) (now : Int) (vectorSize fuel calls : Nat) (state : σ) :
    Option (Except Exception CalendarUpdateGlobalSinkState × σ) :=
  match CalendarScan.calendarScanInitGlobal engine client bindData window now statement.scanned
      state with
  | (.error error, after) => some (.error error, after)
  | (.ok gstate, after) =>
      drain engine client bindData operator statement vectorSize fuel calls gstate {} after

end UpdateStatement

end GoogleCalendar
