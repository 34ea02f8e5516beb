import GoogleCalendar.Client
import GoogleCalendar.EventMapping

/-!
# The DELETE sink

Every row is one DELETE. With RETURNING the event is got first, and its row is
kept even when the deletion that follows throws.
-/

namespace GoogleCalendar

open Library EventMapping

/-- `CalendarDelete`: the operator of a DELETE. -/
structure CalendarDelete where
  calendarId : String
  names : List String
  rowIdIndex : Nat
  returnChunk : Bool
  deriving DecidableEq, Repr

/-- `CalendarDeleteGlobalSinkState`. -/
structure CalendarDeleteGlobalSinkState where
  deleteCount : Nat := 0
  returned : List (List Value) := []
  deriving DecidableEq, Repr

namespace CalendarDelete

variable {σ : Type} (engine : Engine) (client : GoogleCalendarClient σ) (operator : CalendarDelete)

/-- The deletion of a row's event. -/
def deleteEvent (id : String) (gstate : CalendarDeleteGlobalSinkState) (state : σ) :
    Except Exception Unit × CalendarDeleteGlobalSinkState × σ :=
  match EventsResource.delete client operator.calendarId id state with
  | (.error error, after) => (.error error, gstate, after)
  | (.ok (), after) => (.ok (), { gstate with deleteCount := gstate.deleteCount + 1 }, after)

/-- One row: the outcome, and the sink state and the state behind the client as
they are left even when the row throws. -/
def sinkRow (row : List Value) (gstate : CalendarDeleteGlobalSinkState) (state : σ) :
    Except Exception Unit × CalendarDeleteGlobalSinkState × σ :=
  let idVal := row.getD operator.rowIdIndex .null
  if idVal.isNull then (.ok (), gstate, state)
  else if operator.returnChunk then
    match EventsResource.get engine client operator.calendarId (idVal.toText engine) state with
    | (.error error, after) => (.error error, gstate, after)
    | (.ok event, after) =>
        deleteEvent client operator (idVal.toText engine)
          { gstate with returned := gstate.returned ++
              [eventToRow engine event operator.names operator.calendarId] } after
  else deleteEvent client operator (idVal.toText engine) gstate state

/-- The rows of a chunk in order, up to the first that throws. -/
def sink : List (List Value) → CalendarDeleteGlobalSinkState → σ →
    Except Exception Unit × CalendarDeleteGlobalSinkState × σ
  | [], gstate, state => (.ok (), gstate, state)
  | row :: rest, gstate, state =>
    match sinkRow engine client operator row gstate state with
    | (.error error, next, after) => (.error error, next, after)
    | (.ok (), next, after) => sink rest next after

end CalendarDelete

end GoogleCalendar
