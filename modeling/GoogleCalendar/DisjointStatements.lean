import GoogleCalendar.Sessions

/-!
# Statements on different events do not disturb each other

A statement that inserts rows with ids, updates or deletes sends requests about
the events of its rows and no others, whatever it is answered. On a service whose
events are independent of each other, statements about different events can
therefore be interleaved attempt by attempt, retries and failures included: each
has the outcome that it has alone, and each event ends as the one statement about
it leaves it.
-/

namespace GoogleCalendar

open Library EventMapping RowBody

/-- The event that a request is about: the one its path names, or the one whose id
is in the body that is posted. -/
def HttpRequest.target (request : HttpRequest) : Option (String × String) :=
  match request.path, request.body with
  | .event calendarId id, _ => some (calendarId, id)
  | .events calendarId, some body =>
    match body.find "id" with
    | some (.string id) => some (calendarId, id)
    | _ => none
  | _, _ => none

namespace Session

/-- Only requests about the given events are sent. -/
def About (keys : List (String × String)) : Ask → Prop
  | .send request => ∃ key ∈ keys, request.target = some key
  | .pause _ => True

/-- The attempts of a request send nothing but that request. -/
theorem attempts_asks (config : RetryConfig) (request : HttpRequest) (allowed : Ask → Prop)
    (sent : allowed (.send request)) (paused : ∀ bound, allowed (.pause bound))
    (remaining number : Nat) : (attempts config request remaining number).Asks allowed := by
  induction remaining generalizing number with
  | zero => trivial
  | succ remaining ih =>
    refine ⟨sent, fun answer => ?_⟩
    dsimp only
    split
    · trivial
    · rw [backoff]
      split
      · exact ih (number + 1)
      · exact ⟨paused _, fun _ => ih (number + 1)⟩

/-- Nor does a call. -/
theorem call_asks {α : Type} (config : RetryConfig) (read : HttpResponse → Except Exception α)
    (request : HttpRequest) (allowed : Ask → Prop) (sent : allowed (.send request))
    (paused : ∀ bound, allowed (.pause bound)) : (call config read request).Asks allowed :=
  Process.asks_bind _ _ _ (attempts_asks config request allowed sent paused _ _) (fun _ => trivial)

/-- A request about one of the events, with its retries, is about these events. -/
theorem call_about {α : Type} (config : RetryConfig) (read : HttpResponse → Except Exception α)
    (request : HttpRequest) (keys : List (String × String)) (key : String × String)
    (target : request.target = some key) (member : key ∈ keys) :
    (call config read request).Asks (About keys) :=
  call_asks config read request (About keys) ⟨key, member, target⟩ (fun _ => trivial)

/-- A request with a body is asked for, or nothing is. -/
theorem call_with_asks {α : Type} (link : Link) (read : HttpResponse → Except Exception α)
    (method : HttpMethod) (path : ResourcePath) (body : Json) (allowed : Ask → Prop)
    (sent : allowed (.send (link.request method path (some body))))
    (paused : ∀ bound, allowed (.pause bound)) :
    (callWith link read method path body).Asks allowed := by
  rw [callWith]
  split
  · trivial
  · exact call_asks link.config read _ allowed sent paused

/-- A chunk asks what its rows ask. -/
theorem rows_asks {G O : Type} (row : List Value → G → Session O) (ended : G → O)
    (left : O → Option G) (allowed : Ask → Prop) (chunk : List (List Value))
    (each : ∀ first ∈ chunk, ∀ gstate, (row first gstate).Asks allowed) (gstate : G) :
    (rows row ended left chunk gstate).Asks allowed := by
  induction chunk generalizing gstate with
  | nil => trivial
  | cons first rest ih =>
    refine Process.asks_bind _ _ _ (each first (List.mem_cons_self ..) gstate) (fun outcome => ?_)
    split
    · exact ih (fun other member => each other (List.mem_cons_of_mem _ member)) _
    · trivial

end Session

namespace CalendarInsert

variable (engine : Engine) (link : Link) (operator : CalendarInsert)

/-- The id that a row gives its event. -/
def rowId (row : List Value) : Option String :=
  ((operator.names.zip row).lookup "event_id").bind
    (fun val => if val.isNull then none else some (val.toText engine))

/-- The event that a row is about. -/
def rowKey (row : List Value) : Option (String × String) :=
  (rowId engine operator row).map (fun id => (operator.calendarId, id))

/-- A row with an id builds a body with that id. -/
theorem row_id_built (row : List Value) (id : String) (event : Json)
    (distinct : operator.names.Nodup) (given : rowId engine operator row = some id)
    (built : rowToEvent engine operator.names row = .ok event) :
    event.find "id" = some (.string id) := by
  obtain ⟨val, listed, text⟩ := Option.bind_eq_some_iff.mp given
  split at text
  · simp at text
  · rename_i present
    obtain rfl := Option.some.inj text
    have member : ("event_id", val) ∈ operator.names.zip row := by
      obtain ⟨before, after, whole, -⟩ := List.lookup_eq_some_iff.mp listed
      rw [whole]
      simp
    exact row_event_id engine operator.names row val event distinct member
      (Bool.eq_false_of_not_eq_true present) built

/-- A row with an id sends its body to the calendar, or under its id. -/
theorem row_session_asks (row : List Value) (gstate : CalendarInsertGlobalSinkState) (id : String)
    (distinct : operator.names.Nodup) (given : rowId engine operator row = some id)
    (allowed : Ask → Prop) (paused : ∀ bound, allowed (.pause bound))
    (sent : ∀ event, rowToEvent engine operator.names row = .ok event →
      event.find "id" = some (.string id) →
      allowed (.send (link.request .post (.events operator.calendarId) (some event))) ∧
      allowed (.send (link.request .put (.event operator.calendarId id) (some event)))) :
    (rowSession engine link operator row gstate).Asks allowed := by
  obtain ⟨event, built, -⟩ := row_to_event_total engine operator.names row
  have carries := row_id_built engine operator row id event distinct given built
  obtain ⟨posts, puts⟩ := sent event built carries
  simp only [rowSession, built]
  refine Process.asks_bind _ _ _ ?_ (fun made => by cases made <;> trivial)
  refine Process.asks_bind _ _ _
    (Session.call_with_asks _ _ _ _ _ allowed posts paused) (fun inserted => ?_)
  split
  · trivial
  · simp only [carries, Json.getString]
    exact Session.call_with_asks _ _ _ _ _ allowed puts paused
  · trivial

end CalendarInsert

namespace CalendarUpdate

variable (engine : Engine) (link : Link) (operator : CalendarUpdate)

/-- The event that a row is about. -/
def rowKey (row : List Value) : Option (String × String) :=
  if (rowId row).isNull then none else some (operator.calendarId, (rowId row).toText engine)

/-- A row asks about its own event. -/
theorem row_session_asks (row : List Value) (gstate : CalendarUpdateGlobalSinkState)
    (keys : List (String × String)) (member : ∀ key, rowKey engine operator row = some key →
      key ∈ keys) : (rowSession engine link operator row gstate).Asks (Session.About keys) := by
  simp only [rowSession]
  split
  · trivial
  · rename_i present
    have mine := member (operator.calendarId, (rowId row).toText engine) (by simp [rowKey, present])
    refine Process.asks_bind _ _ _ (Session.call_about _ _ _ keys _ rfl mine) (fun got => ?_)
    cases got with
    | error error => trivial
    | ok event =>
      simp only
      split
      · trivial
      · refine Process.asks_bind _ _ _ (Session.call_with_asks link _ .put _ _ _ ?_
          (fun _ => trivial)) (fun put => by cases put <;> trivial)
        exact ⟨_, mine, rfl⟩

end CalendarUpdate

namespace CalendarDelete

variable (engine : Engine) (link : Link) (operator : CalendarDelete)

/-- The event that a row is about. -/
def rowKey (row : List Value) : Option (String × String) :=
  let idVal := row.getD operator.rowIdIndex .null
  if idVal.isNull then none else some (operator.calendarId, idVal.toText engine)

/-- A deletion asks about its event. -/
theorem deletion_session_asks (id : String) (gstate : CalendarDeleteGlobalSinkState)
    (keys : List (String × String)) (member : (operator.calendarId, id) ∈ keys) :
    (deletionSession link operator id gstate).Asks (Session.About keys) :=
  Process.asks_bind _ _ _ (Session.call_about _ _ _ keys _ rfl member)
    (fun deleted => by cases deleted <;> trivial)

/-- A row asks about its own event. -/
theorem row_session_asks (row : List Value) (gstate : CalendarDeleteGlobalSinkState)
    (keys : List (String × String)) (member : ∀ key, rowKey engine operator row = some key →
      key ∈ keys) : (rowSession engine link operator row gstate).Asks (Session.About keys) := by
  simp only [rowSession]
  split
  · trivial
  · rename_i present
    have mine := member (operator.calendarId, (row.getD operator.rowIdIndex .null).toText engine)
      (by simp only [rowKey]; rw [if_neg present])
    split
    · refine Process.asks_bind _ _ _ (Session.call_about _ _ _ keys _ rfl mine) (fun got => ?_)
      cases got with
      | error error => trivial
      | ok event => exact deletion_session_asks link operator _ _ keys mine
    · exact deletion_session_asks link operator _ gstate keys mine

end CalendarDelete

/-! Statements and the service that they share. -/

/-- A statement that writes, with the rows that reach its sink. -/
inductive EventStatement where
  | insert (operator : CalendarInsert) (chunk : List (List Value))
  | update (operator : CalendarUpdate) (chunk : List (List Value))
  | delete (operator : CalendarDelete) (chunk : List (List Value))

/-- What a statement ends with. -/
inductive Outcome where
  | inserted (outcome : Except Exception Unit × CalendarInsertGlobalSinkState)
  | updated (outcome : Except Exception CalendarUpdateGlobalSinkState)
  | deleted (outcome : Except Exception Unit × CalendarDeleteGlobalSinkState)

namespace EventStatement

variable {σ : Type} (engine : Engine)

/-- The sink's work on the rows. -/
def perform (client : GoogleCalendarClient σ) : EventStatement → σ → Outcome × σ
  | insert operator chunk, state =>
      let outcome := CalendarInsert.sink engine client operator chunk {} state
      (.inserted (outcome.1, outcome.2.1), outcome.2.2)
  | update operator chunk, state =>
      let outcome := CalendarUpdate.sink engine client operator chunk {} state
      (.updated outcome.1, outcome.2)
  | delete operator chunk, state =>
      let outcome := CalendarDelete.sink engine client operator chunk {} state
      (.deleted (outcome.1, outcome.2.1), outcome.2.2)

/-- The session of a statement, from its first row. -/
def session (link : Link) : EventStatement → Session Outcome
  | insert operator chunk =>
      (CalendarInsert.session engine link operator chunk {}).bind (fun outcome =>
        .done (.inserted outcome))
  | update operator chunk =>
      (CalendarUpdate.session engine link operator chunk {}).bind (fun outcome =>
        .done (.updated outcome))
  | delete operator chunk =>
      (CalendarDelete.session engine link operator chunk {}).bind (fun outcome =>
        .done (.deleted outcome))

/-- The events that the rows of a statement are about. -/
def keys : EventStatement → List (String × String)
  | insert operator chunk => chunk.filterMap (CalendarInsert.rowKey engine operator)
  | update operator chunk => chunk.filterMap (CalendarUpdate.rowKey engine operator)
  | delete operator chunk => chunk.filterMap (CalendarDelete.rowKey engine operator)

/-- Every row to be inserted has an id. -/
def Identified : EventStatement → Prop
  | insert operator chunk => operator.names.Nodup ∧
      ∀ row ∈ chunk, (CalendarInsert.rowId engine operator row).isSome = true
  | update _ _ => True
  | delete _ _ => True

/-- Run alone, the process of a statement is its sink. -/
theorem run_session (link : Link) (inner : IHttpClient σ) (sleep : Nat → σ → σ)
    (statement : EventStatement) (state : σ) :
    (session engine link statement).run (Session.serving inner sleep) state =
      perform engine (link.client inner sleep) statement state := by
  cases statement with
  | insert operator chunk =>
    rw [session, Process.run_bind, CalendarInsert.run_session]
    rfl
  | update operator chunk =>
    rw [session, Process.run_bind, CalendarUpdate.run_session]
    rfl
  | delete operator chunk =>
    rw [session, Process.run_bind, CalendarDelete.run_session]
    rfl

/-- A statement sends requests about the events of its rows only. -/
theorem session_asks (link : Link) (statement : EventStatement)
    (identified : Identified engine statement) :
    (session engine link statement).Asks (Session.About (keys engine statement)) := by
  cases statement with
  | insert operator chunk =>
    refine Process.asks_bind _ _ _ (Session.rows_asks _ _ _ _ chunk ?_ _) (fun _ => trivial)
    intro row member gstate
    obtain ⟨id, given⟩ := Option.isSome_iff_exists.mp (identified.2 row member)
    have mine : (operator.calendarId, id) ∈ keys engine (insert operator chunk) :=
      List.mem_filterMap.mpr ⟨row, member, by simp [CalendarInsert.rowKey, given]⟩
    refine CalendarInsert.row_session_asks engine link operator row gstate id identified.1 given _
      (fun _ => trivial) (fun event _ carries => ⟨⟨_, mine, ?_⟩, ⟨_, mine, rfl⟩⟩)
    simp [Link.request, HttpRequest.target, carries]
  | update operator chunk =>
    refine Process.asks_bind _ _ _ (Session.rows_asks _ _ _ _ chunk ?_ _) (fun _ => trivial)
    intro row member gstate
    exact CalendarUpdate.row_session_asks engine link operator row gstate _
      (fun key keyed => List.mem_filterMap.mpr ⟨row, member, keyed⟩)
  | delete operator chunk =>
    refine Process.asks_bind _ _ _ (Session.rows_asks _ _ _ _ chunk ?_ _) (fun _ => trivial)
    intro row member gstate
    exact CalendarDelete.row_session_asks engine link operator row gstate _
      (fun key keyed => List.mem_filterMap.mpr ⟨row, member, keyed⟩)

end EventStatement

/-- A service whose events are independent. What a request about one event is
answered, and what it leaves of that event, depends on what is stored there and
on the connection of the session, which covers the network, rate limits and the
clock. A request about no event changes the connection only. -/
structure EventService (W : Type) where
  respond : HttpRequest → Option Json → W → Except Exception HttpResponse × Option Json × W
  sleep : Nat → W → W

namespace EventService

variable {W N : Type} [DecidableEq N] (service : EventService W)

/-- The events, and the connection of each session. -/
abbrev State (W N : Type) := (String × String → Option Json) × (N → W)

/-- The service as one session sees it. -/
def http (name : N) : IHttpClient (State W N) where
  execute request state :=
    match request.target with
    | some key =>
      let outcome := service.respond request (state.1 key) (state.2 name)
      (outcome.1, Function.update state.1 key outcome.2.1,
        Function.update state.2 name outcome.2.2)
    | none =>
      let outcome := service.respond request none (state.2 name)
      (outcome.1, state.1, Function.update state.2 name outcome.2.2)

/-- The state with one more pause of a session. -/
def sleeping (name : N) (bound : Nat) (state : State W N) : State W N :=
  (state.1, Function.update state.2 name (service.sleep bound (state.2 name)))

/-- The service answers a request, and counts a pause. -/
def serve : Process.Server N Ask (Except Exception HttpResponse) (State W N) :=
  fun name => Session.serving (service.http name) (service.sleeping name)

variable (keys : N → List (String × String))

/-- What a session sees: the events of its rows and its own connection. -/
def view (name : N) (state : State W N) : ({key // key ∈ keys name} → Option Json) × W :=
  (fun key => state.1 key.1, state.2 name)

/-- The view after a request about an event of the session. -/
theorem view_updated (name : N) (state : State W N) (key : String × String) (held : Option Json)
    (connection : W) (member : key ∈ keys name) :
    view keys name (Function.update state.1 key held, Function.update state.2 name connection) =
      (Function.update (view keys name state).1 ⟨key, member⟩ held, connection) := by
  refine Prod.ext (funext fun other => ?_) (by simp [view])
  simp only [view, Function.update_apply, Subtype.ext_iff]

/-- Sessions about different events do not disturb each other. -/
theorem undisturbed (disjoint : ∀ name other, name ≠ other → ∀ key ∈ keys name, key ∉ keys other) :
    Process.Undisturbed service.serve (fun name => Session.About (keys name)) (view keys) where
  own name ask state twin allowed alike := by
    have connection : state.2 name = twin.2 name := congrArg Prod.snd alike
    cases ask with
    | pause bound =>
      have events : (view keys name state).1 = (view keys name twin).1 := congrArg Prod.fst alike
      refine ⟨rfl, Prod.ext events ?_⟩
      simp [serve, Session.serving, sleeping, view, connection]
    | send request =>
      obtain ⟨key, member, target⟩ := allowed
      have held : state.1 key = twin.1 key := congrFun (congrArg Prod.fst alike) ⟨key, member⟩
      simp only [serve, Session.serving, http, target, held, connection, true_and]
      rw [view_updated keys name state key _ _ member, view_updated keys name twin key _ _ member,
        alike]
  others name other ask state allowed apart := by
    cases ask with
    | pause bound =>
      refine Prod.ext rfl ?_
      simp [serve, Session.serving, sleeping, view, Function.update_of_ne apart]
    | send request =>
      obtain ⟨key, member, target⟩ := allowed
      simp only [serve, Session.serving, http, target]
      refine Prod.ext (funext fun mine => ?_) (by simp [view, Function.update_of_ne apart])
      have different : mine.1 ≠ key :=
        fun same => disjoint name other apart _ mine.2 (same ▸ member)
      exact Function.update_of_ne different _ _

/-- A connection on which the statuses of the answers are given, and which of the
requests are applied besides those that are answered with 200. -/
def scripted : EventService (List (Int × Bool)) where
  respond request held connection :=
    match connection with
    | [] => (.error (.ioError "Connection closed"), held, [])
    | (status, applied) :: rest =>
        (.ok ⟨status, "event"⟩, if applied || status = 200 then request.body else held, rest)
  sleep _ connection := connection

/-- An engine that reads the one body as an empty event. -/
def scriptedEngine : Engine := .reading [] [("event", .object [])]

/-- A link without pauses. -/
def quickLink : Link := ⟨{ zeroSleep := true }, [], ""⟩

/-- One session inserts the event `a`, the other deletes the event `b`. -/
def insertAndDelete : Bool → EventStatement
  | false => .insert ⟨"work", ["event_id", "summary"], false⟩ [[.varchar "a", .varchar "Lunch"]]
  | true => .delete ⟨"work", [], 0, false⟩ [[.varchar "b"]]

/-- The POST is applied and answered with 503 before the DELETE, and repeated after
it, so that a PUT follows. -/
def insertAndDeleteStart : State (List (Int × Bool)) Bool :=
  (fun _ => some (.object []),
    fun name => if name then [(204, true)] else [(503, true), (409, false), (200, false)])

/-- What each of the two counts. -/
def insertAndDeleteOutcome : Bool → Outcome
  | false => .inserted (.ok (), ⟨1, []⟩)
  | true => .deleted (.ok (), ⟨1, []⟩)

end EventService

end GoogleCalendar
