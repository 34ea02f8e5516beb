import GoogleCalendar.CalendarInsert
import GoogleCalendar.CalendarUpdate
import GoogleCalendar.CalendarDelete
import GoogleCalendar.RowBody
import GoogleCalendar.Library.Processes

/-!
# Statements as processes

Several connections write to one service at a time, and between two attempts of
one of them any attempts of the others can take place. For results about this a
sink is a process: it sends a request or sleeps, and goes on with the answer. Run
alone, each process is the sink that it stands for, whatever is behind the
client; its retry loop is part of it.

A request that writes addresses one event by its id. The processes of a
statement address the events of its rows only.
-/

namespace GoogleCalendar

open Library EventMapping

/-- What a session asks of the service and of its host. -/
inductive Ask where
  | send (request : HttpRequest)
  | pause (bound : Nat)

/-- A statement, or a part of it, between its requests and pauses. -/
abbrev Session (R : Type) := Process Ask (Except Exception HttpResponse) R

/-- What the client of a session is made of. -/
structure Link where
  config : RetryConfig
  headers : HttpHeaders
  baseUrl : String

namespace Link

variable {σ : Type} (link : Link) (inner : IHttpClient σ) (sleep : Nat → σ → σ)

/-- The retrying client of a link. -/
def retrying : RetryingHttpClient σ := ⟨inner, link.config, sleep⟩

/-- The client of a link. -/
def client : GoogleCalendarClient σ :=
  ⟨(link.retrying inner sleep).toHttpClient, link.headers, link.baseUrl⟩

/-- The request of a link. -/
def request (method : HttpMethod) (path : ResourcePath) (body : Option Json) : HttpRequest :=
  ⟨method, link.baseUrl, path, link.headers, body⟩

end Link

namespace Session

variable {σ : Type}

/-- The service and the host of one session. Nothing is read from a pause. -/
def serving (inner : IHttpClient σ) (sleep : Nat → σ → σ) :
    Ask → σ → Except Exception HttpResponse × σ
  | .send request, state => inner.execute request state
  | .pause bound, state => (.ok ⟨0, ""⟩, sleep bound state)

/-- Back off before the attempt after the numbered one. -/
def backoff {R : Type} (config : RetryConfig) (number : Nat) (next : Session R) : Session R :=
  if config.zeroSleep then next
  else .ask (.pause (config.baseDelayMs * 2 ^ number)) (fun _ => next)

/-- The attempts of a request. -/
def attempts (config : RetryConfig) (request : HttpRequest) :
    Nat → Nat → Session (Except Exception HttpResponse)
  | 0, _ => .done (.ok ⟨0, ""⟩)
  | remaining + 1, number => .ask (.send request) (fun answer =>
      if !BoundedRetry.repeats isRetryable answer || remaining = 0 then .done answer
      else backoff config number (attempts config request remaining (number + 1)))

/-- A request with its retries, and the reading of its response. -/
def call {α : Type} (config : RetryConfig) (read : HttpResponse → Except Exception α)
    (request : HttpRequest) : Session (Except Exception α) :=
  (attempts config request config.maxAttempts 0).bind (fun answer => .done (answer.bind read))

/-- A request with a body, which is serialised first. -/
def callWith {α : Type} (link : Link) (read : HttpResponse → Except Exception α)
    (method : HttpMethod) (path : ResourcePath) (body : Json) : Session (Except Exception α) :=
  match body.dumped with
  | .error error => .done (.error (.json error))
  | .ok _ => call link.config read (link.request method path (some body))

/-- The rows of a chunk in order, up to the first that leaves nothing to go on with. -/
def rows {G O : Type} (row : List Value → G → Session O) (ended : G → O) (left : O → Option G) :
    List (List Value) → G → Session O
  | [], gstate => .done (ended gstate)
  | first :: rest, gstate => (row first gstate).bind (fun outcome =>
      match left outcome with
      | some next => rows row ended left rest next
      | none => .done outcome)

variable (inner : IHttpClient σ) (sleep : Nat → σ → σ)

/-- A backoff runs as the pause of the retrying client. -/
theorem run_backoff {R : Type} (config : RetryConfig) (number : Nat) (next : Session R)
    (state : σ) :
    (backoff config number next).run (serving inner sleep) state =
      next.run (serving inner sleep)
        ((RetryingHttpClient.mk inner config sleep).sleepBackoff number state) := by
  cases quick : config.zeroSleep <;>
    simp [backoff, RetryingHttpClient.sleepBackoff, quick, Process.run, serving]

/-- Attempts run as the loop of the retrying client. -/
theorem run_attempts (config : RetryConfig) (request : HttpRequest) (remaining number : Nat)
    (state : σ) :
    (attempts config request remaining number).run (serving inner sleep) state =
      BoundedRetry.loop (inner.execute request) isRetryable
        (RetryingHttpClient.mk inner config sleep).sleepBackoff ⟨0, ""⟩ remaining number state := by
  induction remaining generalizing number state with
  | zero => rfl
  | succ remaining ih =>
    by_cases stops : (!BoundedRetry.repeats isRetryable (inner.execute request state).1 ||
        remaining = 0) = true
    · have ended : (attempts config request (remaining + 1) number).run (serving inner sleep)
          state = inner.execute request state :=
        congrArg (fun next : Session _ => next.run (serving inner sleep)
          (inner.execute request state).2) (if_pos stops)
      rw [ended, BoundedRetry.loop, if_pos stops]
    · have continued : (attempts config request (remaining + 1) number).run (serving inner sleep)
          state = (backoff config number (attempts config request remaining (number + 1))).run
            (serving inner sleep) (inner.execute request state).2 :=
        congrArg (fun next : Session _ => next.run (serving inner sleep)
          (inner.execute request state).2) (if_neg stops)
      rw [continued, run_backoff, ih, BoundedRetry.loop, if_neg stops]

/-- A call runs as one of the retrying client. -/
theorem run_call {α : Type} (link : Link) (read : HttpResponse → Except Exception α)
    (request : HttpRequest) (state : σ) :
    (call link.config read request).run (serving inner sleep) state =
      readResponse read ((link.retrying inner sleep).execute request state) := by
  rw [call, Process.run_bind, run_attempts]
  rfl

/-- A request with a body runs as the client sends the body. -/
theorem run_call_with {α : Type} (link : Link) (read : HttpResponse → Except Exception α)
    (method : HttpMethod) (path : ResourcePath) (body : Json) (state : σ) :
    (callWith link read method path body).run (serving inner sleep) state =
      readResponse read ((link.client inner sleep).send method path body state) := by
  rw [callWith, GoogleCalendarClient.send]
  cases body.dumped with
  | error error => rfl
  | ok text => exact run_call inner sleep link read _ state

/-- The rows run as the sink's recursion over the chunk does. -/
theorem run_rows {G O : Type} (row : List Value → G → Session O) (ended : G → O)
    (left : O → Option G) (sink : List (List Value) → G → σ → O × σ)
    (empty : ∀ gstate state, sink [] gstate state = (ended gstate, state))
    (more : ∀ first rest gstate state, sink (first :: rest) gstate state =
      match left ((row first gstate).run (serving inner sleep) state).1 with
      | some next => sink rest next ((row first gstate).run (serving inner sleep) state).2
      | none => (row first gstate).run (serving inner sleep) state)
    (chunk : List (List Value)) (gstate : G) (state : σ) :
    (rows row ended left chunk gstate).run (serving inner sleep) state =
      sink chunk gstate state := by
  induction chunk generalizing gstate state with
  | nil => exact (empty gstate state).symm
  | cons first rest ih =>
    rw [rows, Process.run_bind, more]
    split
    · exact ih _ _
    · rfl

end Session

/-! The three sinks. -/

namespace CalendarInsert

variable {σ : Type} (engine : Engine) (link : Link) (operator : CalendarInsert)
  (inner : IHttpClient σ) (sleep : Nat → σ → σ)

/-- `createEvent` as a process. -/
def eventSession (event : Json) : Session (Except Exception Json) :=
  (Session.callWith link (parseResponse engine .ok) .post (.events operator.calendarId)
    event).bind (fun inserted =>
      match inserted with
      | .ok created => .done (.ok created)
      | .error (.api 409 message) =>
        match event.find "id" with
        | some id =>
          match id.getString with
          | .ok text => Session.callWith link (parseResponse engine .ok) .put
              (.event operator.calendarId text) event
          | .error error => .done (.error (.json error))
        | none => .done (.error (insertFailure operator event (.api 409 message)))
      | .error error => .done (.error (insertFailure operator event error)))

/-- `sinkRow` as a process. -/
def rowSession (row : List Value) (gstate : CalendarInsertGlobalSinkState) :
    Session (Except Exception Unit × CalendarInsertGlobalSinkState) :=
  match rowToEvent engine operator.names row with
  | .error error => .done (.error (.json error), gstate)
  | .ok event => (eventSession engine link operator event).bind (fun made =>
      match made with
      | .error error => .done (.error error, gstate)
      | .ok created => .done (.ok (), ⟨gstate.insertCount + 1,
          if operator.returnChunk then
            gstate.returned ++ [eventToRow engine created operator.names operator.calendarId]
          else gstate.returned⟩))

/-- A sink state to go on with, unless the row threw. -/
def proceeds (outcome : Except Exception Unit × CalendarInsertGlobalSinkState) :
    Option CalendarInsertGlobalSinkState :=
  match outcome.1 with
  | .ok () => some outcome.2
  | .error _ => none

/-- The rows of an INSERT. -/
def session (chunk : List (List Value)) (gstate : CalendarInsertGlobalSinkState) :
    Session (Except Exception Unit × CalendarInsertGlobalSinkState) :=
  Session.rows (rowSession engine link operator) (fun gstate => (.ok (), gstate)) proceeds chunk
    gstate

/-- A POST of a body is the request that the process begins with. -/
theorem run_insert (event : Json) (state : σ) :
    (Session.callWith link (parseResponse engine .ok) .post (.events operator.calendarId)
      event).run (Session.serving inner sleep) state =
      EventsResource.insert engine (link.client inner sleep) operator.calendarId event state :=
  Session.run_call_with inner sleep link _ _ _ event state

/-- The session of an event runs as `createEvent`. -/
theorem run_event_session (event : Json) (state : σ) :
    (eventSession engine link operator event).run (Session.serving inner sleep) state =
      createEvent engine (link.client inner sleep) operator event state := by
  rw [eventSession, Process.run_bind, run_insert, createEvent]
  generalize EventsResource.insert engine (link.client inner sleep) operator.calendarId event
    state = outcome
  obtain ⟨read, after⟩ := outcome
  match read with
  | .ok created => rfl
  | .error (.api status message) =>
    by_cases conflict : status = 409
    · subst conflict
      cases event.find "id" with
      | none => rfl
      | some id =>
        cases text : id.getString with
        | error error => simp only [text]; rfl
        | ok given =>
          simp only [text]
          exact Session.run_call_with inner sleep link _ _ _ event after
    · split
      · rename_i same
        simp at same
      · rename_i same
        exact absurd (Exception.api.inj (Except.error.inj same)).1 conflict
      · rename_i error other same
        obtain rfl := Except.error.inj same
        split
        · rename_i same
          simp at same
        · rename_i same
          exact absurd (Exception.api.inj (Except.error.inj (Prod.mk.inj same).1)).1 conflict
        · rename_i same
          obtain ⟨failed, rfl⟩ := Prod.mk.inj same
          obtain rfl := Except.error.inj failed
          rfl
  | .error (.invalidInput _) | .error (.binder _) | .error (.catalog _)
  | .error (.notImplemented _) | .error (.ioError _) | .error (.json _)
  | .error (.parseError _) => rfl

/-- The session of a row runs as `sinkRow`. -/
theorem run_row_session (row : List Value) (gstate : CalendarInsertGlobalSinkState) (state : σ) :
    (rowSession engine link operator row gstate).run (Session.serving inner sleep) state =
      let outcome := sinkRow engine (link.client inner sleep) operator row gstate state
      ((outcome.1, outcome.2.1), outcome.2.2) := by
  simp only [rowSession, sinkRow]
  cases rowToEvent engine operator.names row with
  | error error => rfl
  | ok event =>
    simp only
    rw [Process.run_bind, run_event_session]
    generalize createEvent engine (link.client inner sleep) operator event state = outcome
    obtain ⟨made, after⟩ := outcome
    cases made with
    | error error => rfl
    | ok created => rfl

/-- Run alone, the process is the sink. -/
theorem run_session (chunk : List (List Value)) (gstate : CalendarInsertGlobalSinkState)
    (state : σ) :
    (session engine link operator chunk gstate).run (Session.serving inner sleep) state =
      let outcome := sink engine (link.client inner sleep) operator chunk gstate state
      ((outcome.1, outcome.2.1), outcome.2.2) := by
  refine Session.run_rows inner sleep _ _ _
    (fun chunk gstate state =>
      let outcome := sink engine (link.client inner sleep) operator chunk gstate state
      ((outcome.1, outcome.2.1), outcome.2.2)) (fun _ _ => rfl) ?_ chunk gstate state
  intro first rest gstate state
  rw [run_row_session]
  simp only [sink, proceeds]
  generalize sinkRow engine (link.client inner sleep) operator first gstate state = outcome
  obtain ⟨result, next, after⟩ := outcome
  cases result with
  | error error => rfl
  | ok done => rfl

end CalendarInsert

namespace CalendarUpdate

variable {σ : Type} (engine : Engine) (link : Link) (operator : CalendarUpdate)
  (inner : IHttpClient σ) (sleep : Nat → σ → σ)

/-- `sinkRow` as a process. -/
def rowSession (row : List Value) (gstate : CalendarUpdateGlobalSinkState) :
    Session (Except Exception CalendarUpdateGlobalSinkState) :=
  let id := (rowId row).toText engine
  let path := ResourcePath.event operator.calendarId id
  if (rowId row).isNull then .done (.ok gstate)
  else
    (Session.call link.config (parseResponse engine .ok) (link.request .get path none)).bind
      (fun got =>
        match got with
        | .error error => .done (.error error)
        | .ok event =>
          match putBody engine operator.returnChunk (operator.setColumns row) event with
          | .error error => .done (.error error)
          | .ok body =>
            (Session.callWith link (parseResponse engine .ok) .put path body).bind (fun put =>
                match put with
                | .error error => .done (.error error)
                | .ok updated => .done (.ok ⟨gstate.updateCount + 1,
                    if operator.returnChunk then
                      gstate.returned ++
                        [eventToRow engine updated operator.names operator.calendarId]
                    else gstate.returned⟩)))

/-- The rows of an UPDATE. -/
def session (chunk : List (List Value)) (gstate : CalendarUpdateGlobalSinkState) :
    Session (Except Exception CalendarUpdateGlobalSinkState) :=
  Session.rows (rowSession engine link operator) .ok Except.toOption chunk gstate

/-- The session of a row runs as `sinkRow`. -/
theorem run_row_session (row : List Value) (gstate : CalendarUpdateGlobalSinkState) (state : σ) :
    (rowSession engine link operator row gstate).run (Session.serving inner sleep) state =
      sinkRow engine (link.client inner sleep) operator row gstate state := by
  simp only [rowSession, sinkRow]
  split
  · rfl
  · rw [Process.run_bind, Session.run_call inner sleep link]
    have same : readResponse (parseResponse engine .ok) ((link.retrying inner sleep).execute
        (link.request .get (.event operator.calendarId ((rowId row).toText engine)) none) state) =
      EventsResource.get engine (link.client inner sleep) operator.calendarId
        ((rowId row).toText engine) state := rfl
    rw [same]
    generalize EventsResource.get engine (link.client inner sleep) operator.calendarId
      ((rowId row).toText engine) state = outcome
    obtain ⟨got, after⟩ := outcome
    cases got with
    | error error => rfl
    | ok event =>
      simp only
      cases putBody engine operator.returnChunk (operator.setColumns row) event with
      | error error => rfl
      | ok body =>
        simp only
        rw [Process.run_bind, Session.run_call_with inner sleep link]
        have put : readResponse (parseResponse engine .ok) ((link.client inner sleep).send .put
            (.event operator.calendarId ((rowId row).toText engine)) body after) =
          EventsResource.update engine (link.client inner sleep) operator.calendarId
            ((rowId row).toText engine) body after := rfl
        rw [put, sinkBody]
        generalize EventsResource.update engine (link.client inner sleep) operator.calendarId
          ((rowId row).toText engine) body after = outcome
        obtain ⟨updated, final⟩ := outcome
        cases updated with
        | error error => rfl
        | ok json => rfl

/-- Run alone, the process is the sink. -/
theorem run_session (chunk : List (List Value)) (gstate : CalendarUpdateGlobalSinkState)
    (state : σ) :
    (session engine link operator chunk gstate).run (Session.serving inner sleep) state =
      sink engine (link.client inner sleep) operator chunk gstate state := by
  refine Session.run_rows inner sleep _ _ _ (sink engine (link.client inner sleep) operator)
    (fun _ _ => rfl) ?_ chunk gstate state
  intro first rest gstate state
  rw [run_row_session, sink]
  generalize sinkRow engine (link.client inner sleep) operator first gstate state = outcome
  obtain ⟨result, after⟩ := outcome
  cases result with
  | error error => rfl
  | ok next => rfl

end CalendarUpdate

namespace CalendarDelete

variable {σ : Type} (engine : Engine) (link : Link) (operator : CalendarDelete)
  (inner : IHttpClient σ) (sleep : Nat → σ → σ)

/-- `deleteEvent` as a process. -/
def deletionSession (id : String) (gstate : CalendarDeleteGlobalSinkState) :
    Session (Except Exception Unit × CalendarDeleteGlobalSinkState) :=
  (Session.call link.config readDeleted
    (link.request .del (.event operator.calendarId id) none)).bind (fun deleted =>
      match deleted with
      | .error error => .done (.error error, gstate)
      | .ok () => .done (.ok (), { gstate with deleteCount := gstate.deleteCount + 1 }))

/-- `sinkRow` as a process. -/
def rowSession (row : List Value) (gstate : CalendarDeleteGlobalSinkState) :
    Session (Except Exception Unit × CalendarDeleteGlobalSinkState) :=
  let idVal := row.getD operator.rowIdIndex .null
  let id := idVal.toText engine
  if idVal.isNull then .done (.ok (), gstate)
  else if operator.returnChunk then
    (Session.call link.config (parseResponse engine .ok)
      (link.request .get (.event operator.calendarId id) none)).bind (fun got =>
        match got with
        | .error error => .done (.error error, gstate)
        | .ok event => deletionSession link operator id
            { gstate with returned := gstate.returned ++
                [eventToRow engine event operator.names operator.calendarId] })
  else deletionSession link operator id gstate

/-- A sink state to go on with, unless the row threw. -/
def proceeds (outcome : Except Exception Unit × CalendarDeleteGlobalSinkState) :
    Option CalendarDeleteGlobalSinkState :=
  match outcome.1 with
  | .ok () => some outcome.2
  | .error _ => none

/-- The rows of a DELETE. -/
def session (chunk : List (List Value)) (gstate : CalendarDeleteGlobalSinkState) :
    Session (Except Exception Unit × CalendarDeleteGlobalSinkState) :=
  Session.rows (rowSession engine link operator) (fun gstate => (.ok (), gstate)) proceeds chunk
    gstate

/-- The session of a deletion runs as `deleteEvent`. -/
theorem run_deletion_session (id : String) (gstate : CalendarDeleteGlobalSinkState) (state : σ) :
    (deletionSession link operator id gstate).run (Session.serving inner sleep) state =
      let outcome := deleteEvent (link.client inner sleep) operator id gstate state
      ((outcome.1, outcome.2.1), outcome.2.2) := by
  rw [deletionSession, Process.run_bind, Session.run_call inner sleep link, deleteEvent]
  have same : readResponse readDeleted ((link.retrying inner sleep).execute
      (link.request .del (.event operator.calendarId id) none) state) =
    EventsResource.delete (link.client inner sleep) operator.calendarId id state := rfl
  rw [same]
  generalize EventsResource.delete (link.client inner sleep) operator.calendarId id state = outcome
  obtain ⟨deleted, after⟩ := outcome
  cases deleted with
  | error error => rfl
  | ok done => rfl

/-- The session of a row runs as `sinkRow`. -/
theorem run_row_session (row : List Value) (gstate : CalendarDeleteGlobalSinkState) (state : σ) :
    (rowSession engine link operator row gstate).run (Session.serving inner sleep) state =
      let outcome := sinkRow engine (link.client inner sleep) operator row gstate state
      ((outcome.1, outcome.2.1), outcome.2.2) := by
  simp only [rowSession, sinkRow]
  by_cases absent : (row.getD operator.rowIdIndex .null).isNull = true
  · simp only [if_pos absent]
    rfl
  · simp only [if_neg absent]
    cases mode : operator.returnChunk with
    | false =>
      simp only [Bool.false_eq_true, if_false]
      exact run_deletion_session link operator inner sleep _ gstate state
    | true =>
      simp only [if_true]
      rw [Process.run_bind, Session.run_call inner sleep link]
      have same : readResponse (parseResponse engine .ok) ((link.retrying inner sleep).execute
          (link.request .get (.event operator.calendarId
            ((row.getD operator.rowIdIndex .null).toText engine)) none) state) =
        EventsResource.get engine (link.client inner sleep) operator.calendarId
          ((row.getD operator.rowIdIndex .null).toText engine) state := rfl
      rw [same]
      generalize EventsResource.get engine (link.client inner sleep) operator.calendarId
        ((row.getD operator.rowIdIndex .null).toText engine) state = outcome
      obtain ⟨got, after⟩ := outcome
      cases got with
      | error error => rfl
      | ok event => exact run_deletion_session link operator inner sleep _ _ after

/-- Run alone, the process is the sink. -/
theorem run_session (chunk : List (List Value)) (gstate : CalendarDeleteGlobalSinkState)
    (state : σ) :
    (session engine link operator chunk gstate).run (Session.serving inner sleep) state =
      let outcome := sink engine (link.client inner sleep) operator chunk gstate state
      ((outcome.1, outcome.2.1), outcome.2.2) := by
  refine Session.run_rows inner sleep _ _ _
    (fun chunk gstate state =>
      let outcome := sink engine (link.client inner sleep) operator chunk gstate state
      ((outcome.1, outcome.2.1), outcome.2.2)) (fun _ _ => rfl) ?_ chunk gstate state
  intro first rest gstate state
  rw [run_row_session]
  simp only [sink, proceeds]
  generalize sinkRow engine (link.client inner sleep) operator first gstate state = outcome
  obtain ⟨result, next, after⟩ := outcome
  cases result with
  | error error => rfl
  | ok done => rfl

end CalendarDelete

end GoogleCalendar
