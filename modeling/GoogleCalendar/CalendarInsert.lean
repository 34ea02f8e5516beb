import GoogleCalendar.Client
import GoogleCalendar.EventMapping

/-!
# The INSERT sink

Every row becomes one body and one POST. A conflict on a body that carries an id
is answered by putting the body under that id; every other failure is raised
again with the id and the body in its text. An exception out of the second
request is not caught, for it leaves a handler of the same statement.
-/

namespace GoogleCalendar

open Library EventMapping

/-- `CalendarInsert`: the operator of an INSERT. -/
structure CalendarInsert where
  calendarId : String
  names : List String
  returnChunk : Bool
  deriving DecidableEq, Repr

/-- `CalendarInsertGlobalSinkState`. -/
structure CalendarInsertGlobalSinkState where
  insertCount : Nat := 0
  returned : List (List Value) := []
  deriving DecidableEq, Repr

namespace CalendarInsert

variable {σ : Type} (engine : Engine) (client : GoogleCalendarClient σ) (operator : CalendarInsert)

/-- The id in a body, for an error text. -/
def bodyId (event : Json) : Except JsonError String :=
  match event.find "id" with
  | some id => id.getString
  | none => .ok "(server-assigned)"

/-- The exception raised for a failed insert. -/
def insertFailure (event : Json) (error : Exception) : Exception :=
  match bodyId event with
  | .error error => .json error
  | .ok id =>
    match event.dumped with
    | .error error => .json error
    | .ok text => .ioError ("google_calendar: events.insert failed for event_id=" ++ id ++
        " on calendar " ++ operator.calendarId ++ ": " ++ error.what ++ "\nrequest body: " ++
        text)

/-- The POST of a body, and the PUT that takes its place on a conflict. -/
def createEvent (event : Json) (state : σ) : Except Exception Json × σ :=
  match EventsResource.insert engine client operator.calendarId event state with
  | (.ok created, after) => (.ok created, after)
  | (.error (.api 409 message), after) =>
    match event.find "id" with
    | some id =>
      match id.getString with
      | .ok text => EventsResource.update engine client operator.calendarId text event after
      | .error error => (.error (.json error), after)
    | none => (.error (insertFailure operator event (.api 409 message)), after)
  | (.error error, after) => (.error (insertFailure operator event error), after)

/-- One row: the outcome, and the sink state and the state behind the client as
they are left even when the row throws. -/
def sinkRow (row : List Value) (gstate : CalendarInsertGlobalSinkState) (state : σ) :
    Except Exception Unit × CalendarInsertGlobalSinkState × σ :=
  match rowToEvent engine operator.names row with
  | .error error => (.error (.json error), gstate, state)
  | .ok event =>
    match createEvent engine client operator event state with
    | (.error error, after) => (.error error, gstate, after)
    | (.ok created, after) =>
        (.ok (), ⟨gstate.insertCount + 1,
          if operator.returnChunk then
            gstate.returned ++ [eventToRow engine created operator.names operator.calendarId]
          else gstate.returned⟩, after)

/-- The rows of a chunk in order, up to the first that throws. -/
def sink : List (List Value) → CalendarInsertGlobalSinkState → σ →
    Except Exception Unit × CalendarInsertGlobalSinkState × σ
  | [], gstate, state => (.ok (), gstate, state)
  | row :: rest, gstate, state =>
    match sinkRow engine client operator row gstate state with
    | (.error error, next, after) => (.error error, next, after)
    | (.ok (), next, after) => sink rest next after

end CalendarInsert

end GoogleCalendar
