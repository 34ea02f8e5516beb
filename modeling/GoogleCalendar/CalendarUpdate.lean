import GoogleCalendar.Client
import GoogleCalendar.EventMapping

/-!
# The UPDATE sink

For every row the sink gets the event by its row id, applies the columns to the
body and puts the body back. With RETURNING the column list is the whole row and
columns that are not writable are skipped; without it they are errors.

A row of the child chunk is the list of its values, the row id in the last
place. The columns of the statement are indexes into the schema, and each reads
its value at an index of its own.
-/

namespace GoogleCalendar

open Library EventMapping

/-- `CalendarUpdate`: the operator of an UPDATE. -/
structure CalendarUpdate where
  calendarId : String
  names : List String
  columns : List Nat
  valueIndices : List Nat
  returnChunk : Bool
  deriving DecidableEq, Repr

/-- `CalendarUpdateGlobalSinkState`. -/
structure CalendarUpdateGlobalSinkState where
  updateCount : Nat := 0
  returned : List (List Value) := []
  deriving DecidableEq, Repr

namespace CalendarUpdate

/-- The names of the columns with the values a row has for them. -/
def setColumns (operator : CalendarUpdate) (row : List Value) : List (String × Value) :=
  (operator.columns.zip operator.valueIndices).map
    (fun column => (operator.names.getD column.1 "", row.getD column.2 .null))

/-- The id of a row is its last cell. -/
def rowId (row : List Value) : Value := row.getLast?.getD .null

/-- The flag that encodes `start` and `end`: the event's own, unless a column
`all_day` is in the list, and then the last one's. -/
def effectiveAllDay (columns : List (String × Value)) (event : Json) : Bool :=
  columns.foldl
    (fun flag column =>
      if column.1 = "all_day" then !column.2.isNull && column.2.getBoolean else flag)
    (existingAllDay event)

variable {σ : Type} (engine : Engine)

/-- Apply one column in the way of the mode. -/
def applyOne (returnChunk : Bool) (allDay : Bool) (event : Json) (column : String × Value) :
    Except Exception Json :=
  if returnChunk then
    match applyColumn engine event column.1 column.2 allDay true with
    | .ok (applied, _) => .ok applied
    | .error error => .error (.json error)
  else applySet engine event column.1 column.2 allDay

/-- The body that is put back for an event. -/
def putBody (returnChunk : Bool) (columns : List (String × Value)) (event : Json) :
    Except Exception Json :=
  columns.foldlM (applyOne engine returnChunk (effectiveAllDay columns event)) event

variable (client : GoogleCalendarClient σ) (operator : CalendarUpdate)

/-- Put a body back and count the row. -/
def sinkBody (id : String) (body : Json) (gstate : CalendarUpdateGlobalSinkState) (state : σ) :
    Except Exception CalendarUpdateGlobalSinkState × σ :=
  match EventsResource.update engine client operator.calendarId id body state with
  | (.error error, after) => (.error error, after)
  | (.ok updated, after) =>
      (.ok ⟨gstate.updateCount + 1,
        if operator.returnChunk then
          gstate.returned ++ [eventToRow engine updated operator.names operator.calendarId]
        else gstate.returned⟩, after)

/-- A row of `CalendarUpdate::Sink`. -/
def sinkRow (row : List Value) (gstate : CalendarUpdateGlobalSinkState) (state : σ) :
    Except Exception CalendarUpdateGlobalSinkState × σ :=
  let idVal := rowId row
  if idVal.isNull then (.ok gstate, state)
  else
    match EventsResource.get engine client operator.calendarId (idVal.toText engine) state with
    | (.error error, after) => (.error error, after)
    | (.ok event, after) =>
      match putBody engine operator.returnChunk (operator.setColumns row) event with
      | .error error => (.error error, after)
      | .ok body => sinkBody engine client operator (idVal.toText engine) body gstate after

/-- The rows of a chunk in order, up to the first that throws. -/
def sink : List (List Value) → CalendarUpdateGlobalSinkState → σ →
    Except Exception CalendarUpdateGlobalSinkState × σ
  | [], gstate, state => (.ok gstate, state)
  | row :: rest, gstate, state =>
    match sinkRow engine client operator row gstate state with
    | (.error error, after) => (.error error, after)
    | (.ok next, after) => sink rest next after

end CalendarUpdate

end GoogleCalendar
