import GoogleCalendar.Sessions
import GoogleCalendar.Exchanges
import GoogleCalendar.ColumnCells
import GoogleCalendar.Library.ReadModifyWrite

/-!
# Two connections that update one event

A row of an UPDATE is a GET, a computation and a PUT. Two connections can take
their attempts in any order, the repeated ones too, and the client sends no
`If-Match` header, so the service replaces the body without regard to what was
there; an attempt may have replaced it even when its answer asks for another.

The GET that is answered loads the event, and every PUT that the service applies
stores the body computed from it. The row that stores last decides: when the other
had stored before that row loaded, both updates stand, for each column acts on its
own members. Otherwise every member that the other had changed is restored.
-/

namespace GoogleCalendar.LostUpdates

open Library EventMapping CalendarUpdate ColumnCells ReadModifyWrite

/-! ## A row as attempts -/

/-- A process that attempts a request: each answer leads on, or asks for another attempt. -/
def Attempting {R : Type} (request : HttpRequest)
    (leads : Except Exception HttpResponse → Session R) : Session R → Prop
  | .done _ => False
  | .ask (.send asked) next => asked = request ∧ ∀ answer, next answer = leads answer ∨
      (∃ response, answer = .ok response ∧ isRetryable response = true) ∧
        Attempting request leads (next answer)
  | .ask (.pause _) next => ∀ answer, Attempting request leads (next answer)

/-- What such a process asks: a pause, or its request. -/
theorem attempting_ask {R : Type} (request : HttpRequest)
    (leads : Except Exception HttpResponse → Session R) (question : Ask)
    (next : Except Exception HttpResponse → Session R)
    (attempting : Attempting request leads (.ask question next)) :
    (∃ bound, question = .pause bound ∧ ∀ answer, Attempting request leads (next answer)) ∨
      question = .send request ∧ ∀ answer, next answer = leads answer ∨
        (∃ response, answer = .ok response ∧ isRetryable response = true) ∧
          Attempting request leads (next answer) := by
  cases question with
  | send asked =>
    obtain ⟨rfl, answered⟩ := attempting
    exact .inr ⟨rfl, answered⟩
  | pause bound => exact .inl ⟨bound, rfl, attempting⟩

/-- As long as attempts are left, the attempts of a request are such a process. -/
theorem attempts_attempting {R : Type} (config : RetryConfig) (request : HttpRequest)
    (leads : Except Exception HttpResponse → Session R) (remaining number : Nat)
    (allowed : 0 < remaining) :
    Attempting request leads ((Session.attempts config request remaining number).bind leads) := by
  induction remaining generalizing number with
  | zero => exact absurd allowed (by decide)
  | succ remaining ih =>
    refine ⟨rfl, fun answer => ?_⟩
    by_cases stops : (!BoundedRetry.repeats isRetryable answer || remaining = 0) = true
    · exact .inl (congrArg (fun next : Session _ => next.bind leads) (if_pos stops))
    · have goes : Process.bind
          (if (!BoundedRetry.repeats isRetryable answer || remaining = 0) = true then .done answer
          else Session.backoff config number
            (Session.attempts config request remaining (number + 1))) leads =
          (Session.backoff config number
            (Session.attempts config request remaining (number + 1))).bind leads :=
        congrArg (fun next : Session _ => next.bind leads) (if_neg stops)
      simp only [Bool.or_eq_true, Bool.not_eq_true', decide_eq_true_eq, not_or,
        Bool.not_eq_false] at stops
      have more := ih (number + 1) (Nat.pos_of_ne_zero stops.2)
      right
      constructor
      · cases answer with
        | error error => exact absurd stops.1 (by simp [BoundedRetry.repeats])
        | ok response => exact ⟨response, rfl, by simpa [BoundedRetry.repeats] using stops.1⟩
      · refine Eq.mpr (congrArg (Attempting request leads) goes) ?_
        cases quick : config.zeroSleep with
        | true => simpa only [Session.backoff, quick, if_true] using more
        | false =>
          simp only [Session.backoff, quick, Bool.false_eq_true, if_false]
          exact fun _ => more

section Row

variable (engine : Engine) (link : Link) (operator : CalendarUpdate) (row : List Value)
  (gstate : CalendarUpdateGlobalSinkState)

/-- The event of a row. -/
def rowPath : ResourcePath := .event operator.calendarId ((rowId row).toText engine)

/-- What a row does with the answer to its PUT. -/
def afterPut (answer : Except Exception HttpResponse) :
    Session (Except Exception CalendarUpdateGlobalSinkState) :=
  match answer.bind (parseResponse engine .ok) with
  | .error error => .done (.error error)
  | .ok updated => .done (.ok ⟨gstate.updateCount + 1,
      if operator.returnChunk then
        gstate.returned ++ [eventToRow engine updated operator.names operator.calendarId]
      else gstate.returned⟩)

/-- What a row does with the answer to its GET. -/
def afterGet (answer : Except Exception HttpResponse) :
    Session (Except Exception CalendarUpdateGlobalSinkState) :=
  match answer.bind (parseResponse engine .ok) with
  | .error error => .done (.error error)
  | .ok event =>
    match putBody engine operator.returnChunk (operator.setColumns row) event with
    | .error error => .done (.error error)
    | .ok body =>
      match body.dumped with
      | .error error => .done (.error (.json error))
      | .ok _ => (Session.attempts link.config
          (link.request .put (rowPath engine operator row) (some body))
          link.config.maxAttempts 0).bind (afterPut engine operator gstate)

/-- A row with an id is the attempts of its GET and what follows. -/
theorem row_session_attempts (present : (rowId row).isNull = false) :
    rowSession engine link operator row gstate =
      (Session.attempts link.config (link.request .get (rowPath engine operator row) none)
        link.config.maxAttempts 0).bind (afterGet engine link operator row gstate) := by
  simp only [rowSession, present, Bool.false_eq_true, if_false, Session.call, rowPath]
  rw [Process.bind_assoc]
  congr 1
  funext answer
  simp only [Process.bind, afterGet, rowPath]
  cases answer.bind (parseResponse engine .ok) with
  | error error => rfl
  | ok event =>
    dsimp only
    cases putBody engine operator.returnChunk (operator.setColumns row) event with
    | error error => rfl
    | ok body =>
      dsimp only [Session.callWith]
      cases body.dumped with
      | error error => rfl
      | ok text =>
        dsimp only [Session.call]
        rw [Process.bind_assoc]
        rfl

end Row

/-! ## The service and what its record tells -/

section Service

variable {σ : Type} (engine : Engine) (calendarId id : String)

/-- The service as far as one event goes. A GET leaves what is stored, and its 200 answers with
it. A PUT without `If-Match` replaces what is stored or is not applied, and is answered with
200 only when it is. -/
structure Unconditional (http : IHttpClient σ) (stored : σ → Json)
    (applies : HttpRequest → σ → Bool) : Prop where
  gets : ∀ request state, request.method = .get → request.path = .event calendarId id →
    stored (http.execute request state).2 = stored state ∧
      ∀ response body, (http.execute request state).1 = .ok response →
        response.statusCode = 200 → engine.parse response.body = some body → body = stored state
  puts : ∀ request body state, request.method = .put → request.path = .event calendarId id →
    request.body = some body → (∀ header ∈ request.headers, header.1 ≠ "If-Match") →
    stored (http.execute request state).2 =
        (if applies request state = true then body else stored state) ∧
      ∀ response, (http.execute request state).1 = .ok response → response.statusCode = 200 →
        applies request state = true

/-- A turn of one of the two rows, with the state it was taken in. -/
abbrev Taken (σ : Type) := Process.Served Bool Ask (Except Exception HttpResponse) σ

/-- What a turn does to the event: the GET that is answered loads it, and a PUT that is applied
stores. -/
def access (applies : HttpRequest → σ → Bool) (taken : Taken σ) : Option Access :=
  match taken.question with
  | .pause _ => none
  | .send request =>
    match request.method with
    | .get =>
      match taken.answer.bind (parseResponse engine .ok) with
      | .ok _ => some (.load taken.name)
      | .error _ => none
    | .put => if applies request taken.state = true then some (.store taken.name) else none
    | _ => none

/-- A plain row on the event, with the client of its connection. -/
structure PlainRow where
  link : Link
  operator : CalendarUpdate
  row : List Value
  gstate : CalendarUpdateGlobalSinkState
  mode : operator.returnChunk = false
  present : (rowId row).isNull = false
  calendar : operator.calendarId = calendarId
  text : (rowId row).toText engine = id
  headers : ∃ authorization version, link.headers = buildHeaders authorization version

variable {engine calendarId id}

namespace PlainRow

variable (plain : PlainRow engine calendarId id)

/-- The SET columns with their cells. -/
def sets : List (String × Value) := plain.operator.setColumns plain.row

/-- The session of the row. -/
def session : Session (Except Exception CalendarUpdateGlobalSinkState) :=
  rowSession engine plain.link plain.operator plain.row plain.gstate

/-- A request about the event. -/
def request (method : HttpMethod) (body : Option Json) : HttpRequest :=
  plain.link.request method (.event calendarId id) body

/-- Where a row stands, with its accesses so far and the body it holds: it has failed, attempts
its GET, attempts its PUT, or is done after it stored. -/
inductive At (writer : Bool) :
    Session (Except Exception CalendarUpdateGlobalSinkState) → List Access → Option Json →
      Prop where
  | failed (error : Exception) (accesses : List Access) (held : Option Json) :
      At writer (.done (.error error)) accesses held
  | asking (process : Session (Except Exception CalendarUpdateGlobalSinkState))
      (attempting : Attempting (plain.request .get none)
        (afterGet engine plain.link plain.operator plain.row plain.gstate) process) :
      At writer process [] none
  | putting (process : Session (Except Exception CalendarUpdateGlobalSinkState)) (body : Json)
      (stores : Nat)
      (attempting : Attempting (plain.request .put (some body))
        (afterPut engine plain.operator plain.gstate) process) :
      At writer process (.load writer :: List.replicate stores (.store writer)) (some body)
  | stored (result : CalendarUpdateGlobalSinkState) (body : Json) (stores : Nat) :
      At writer (.done (.ok result))
        (.load writer :: List.replicate (stores + 1) (.store writer)) (some body)

/-- The body that a row computes from an event. -/
def computed (event : Json) : Option Json := (putBody engine false plain.sets event).toOption

/-- A row begins with the attempts of its GET. -/
theorem session_at (writer : Bool) : plain.At writer plain.session [] none := by
  have path : rowPath engine plain.operator plain.row = .event calendarId id := by
    rw [rowPath, plain.calendar, plain.text]
  rw [session, row_session_attempts engine plain.link plain.operator plain.row plain.gstate
    plain.present, path]
  rcases Nat.eq_zero_or_pos plain.link.config.maxAttempts with none | allowed
  · rw [none]
    exact .failed _ _ _
  · exact .asking _ (attempts_attempting _ _ _ _ _ allowed)

/-- A row that has read the event goes on to put the body it computes, or fails. -/
theorem after_get_at (writer : Bool) (answer : Except Exception HttpResponse) (event : Json)
    (read : answer.bind (parseResponse engine .ok) = .ok event) :
    plain.At writer (afterGet engine plain.link plain.operator plain.row plain.gstate answer)
      [.load writer] (plain.computed event) := by
  have path : rowPath engine plain.operator plain.row = .event calendarId id := by
    rw [rowPath, plain.calendar, plain.text]
  simp only [afterGet, read, plain.mode, path, computed, sets]
  cases putBody engine false (plain.operator.setColumns plain.row) event with
  | error error => exact .failed _ _ _
  | ok body =>
    dsimp only
    cases body.dumped with
    | error error => exact .failed _ _ _
    | ok text =>
      rcases Nat.eq_zero_or_pos plain.link.config.maxAttempts with none | allowed
      · rw [none]
        exact .failed _ _ _
      · exact .putting _ body 0 (attempts_attempting _ _ _ _ _ allowed)

end PlainRow

/-! ## One turn -/

section Turns

variable (http : Bool → IHttpClient σ) (sleep : Bool → Nat → σ → σ) (stored : σ → Json)
  (applies : HttpRequest → σ → Bool) (rows : Bool → PlainRow engine calendarId id)

/-- What both rows ask is answered by the service, each with its own client, or is a pause. -/
def serve : Process.Server Bool Ask (Except Exception HttpResponse) σ :=
  fun writer => Session.serving (http writer) (sleep writer)

/-- The body that a row computes from an event. -/
def compute (writer : Bool) (event : Json) : Option Json := (rows writer).computed event

variable (service : ∀ writer, Unconditional engine calendarId id (http writer) stored applies)

include service

/-- An attempt of the GET: the event stays as it is, and the row has loaded it when the answer
is read. -/
theorem get_turn (writer : Bool)
    (next : Except Exception HttpResponse →
      Session (Except Exception CalendarUpdateGlobalSinkState))
    (memory : Memory Json) (state : σ) (held : memory.held writer = none)
    (current : stored state = memory.current)
    (answered : ∀ answer, next answer = afterGet engine (rows writer).link (rows writer).operator
        (rows writer).row (rows writer).gstate answer ∨
      (∃ response, answer = .ok response ∧ isRetryable response = true) ∧
        Attempting ((rows writer).request .get none) (afterGet engine (rows writer).link
          (rows writer).operator (rows writer).row (rows writer).gstate) (next answer)) :
    let question := Ask.send ((rows writer).request .get none)
    let outcome := serve http sleep writer question state
    let made := (access engine applies ⟨writer, question, state, outcome.1⟩).toList
    stored outcome.2 = (play (compute rows) made memory).current ∧
      (rows writer).At writer (next outcome.1) made
        ((play (compute rows) made memory).held writer) := by
  intro question outcome made
  obtain ⟨kept, reads⟩ := (service writer).gets ((rows writer).request .get none) state rfl rfl
  cases read : outcome.1.bind (parseResponse engine .ok) with
  | error error =>
    have none_made : made = [] := by
      simp only [made, access, question, PlainRow.request, Link.request, read, Option.toList_none]
    rw [none_made]
    refine ⟨kept.trans current, ?_⟩
    change (rows writer).At writer (next outcome.1) [] (memory.held writer)
    rcases answered outcome.1 with ended | ⟨-, attempting⟩
    · rw [ended, afterGet, read]
      exact .failed _ _ _
    · rw [held]
      exact .asking _ attempting
  | ok event =>
    have loaded : made = [.load writer] := by
      simp only [made, access, question, PlainRow.request, Link.request, read, Option.toList_some]
    obtain ⟨response, json, executed, status, parsed, same⟩ := read_ok engine .ok
      ((http writer).execute ((rows writer).request .get none) state) event outcome.2
      (Prod.ext read rfl)
    obtain rfl := Except.ok.inj same
    have event_is : json = memory.current :=
      (reads response json (congrArg Prod.fst executed) status parsed).trans current
    rw [loaded]
    refine ⟨kept.trans current, ?_⟩
    have holds : (play (compute rows) [.load writer] memory).held writer =
        (rows writer).computed json := by
      rw [event_is]
      exact Function.update_self ..
    rw [holds]
    rcases answered outcome.1 with goes | ⟨⟨refused, same, again⟩, -⟩
    · rw [goes]
      exact (rows writer).after_get_at writer outcome.1 json read
    · rw [same] at read
      exact absurd read (Exchanges.parse_strict engine .ok refused (.inl again) json)

/-- An attempt of the PUT: it is applied or not, and a row that is done has stored. -/
theorem put_turn (writer : Bool)
    (next : Except Exception HttpResponse →
      Session (Except Exception CalendarUpdateGlobalSinkState))
    (memory : Memory Json) (state : σ) (body : Json) (stores : Nat)
    (held : memory.held writer = some body) (current : stored state = memory.current)
    (answered : ∀ answer, next answer = afterPut engine (rows writer).operator
        (rows writer).gstate answer ∨
      (∃ response, answer = .ok response ∧ isRetryable response = true) ∧
        Attempting ((rows writer).request .put (some body)) (afterPut engine
          (rows writer).operator (rows writer).gstate) (next answer)) :
    let question := Ask.send ((rows writer).request .put (some body))
    let outcome := serve http sleep writer question state
    let made := (access engine applies ⟨writer, question, state, outcome.1⟩).toList
    stored outcome.2 = (play (compute rows) made memory).current ∧
      (rows writer).At writer (next outcome.1)
        (.load writer :: List.replicate stores (.store writer) ++ made)
        ((play (compute rows) made memory).held writer) := by
  intro question outcome made
  obtain ⟨authorization, version, built⟩ := (rows writer).headers
  obtain ⟨left, accepts⟩ := (service writer).puts ((rows writer).request .put (some body)) body
    state rfl rfl rfl (by
      have headers : ((rows writer).request .put (some body)).headers =
          buildHeaders authorization version := built
      rw [headers]
      exact headers_unconditional authorization version)
  have access_is : access engine applies ⟨writer, question, state, outcome.1⟩ =
      if applies ((rows writer).request .put (some body)) state = true then
        some (.store writer) else none := rfl
  cases applied : applies ((rows writer).request .put (some body)) state with
  | false =>
    have none_made : made = [] := by
      simp only [made, access_is, applied, Bool.false_eq_true, if_false, Option.toList_none]
    rw [none_made, List.append_nil]
    rw [applied, if_neg Bool.false_ne_true] at left
    refine ⟨left.trans current, ?_⟩
    change (rows writer).At writer (next outcome.1) _ (memory.held writer)
    rw [held]
    rcases answered outcome.1 with ended | ⟨-, attempting⟩
    · rw [ended, afterPut]
      cases read : outcome.1.bind (parseResponse engine .ok) with
      | error error => exact .failed _ _ _
      | ok updated =>
        obtain ⟨response, -, executed, status, -, -⟩ := read_ok engine .ok
          ((http writer).execute ((rows writer).request .put (some body)) state) updated outcome.2
          (Prod.ext read rfl)
        rw [accepts response (congrArg Prod.fst executed) status] at applied
        cases applied
    · exact .putting _ body stores attempting
  | true =>
    have stored_made : made = [.store writer] := by
      simp only [made, access_is, applied, if_true, Option.toList_some]
    have longer : Access.load writer :: List.replicate stores (.store writer) ++ [.store writer] =
        .load writer :: List.replicate (stores + 1) (.store writer) := by
      rw [List.replicate_succ', List.cons_append]
    rw [stored_made, longer]
    rw [applied, if_pos rfl] at left
    refine ⟨?_, ?_⟩
    · refine left.trans ?_
      simp only [play, List.foldl_cons, List.foldl_nil, step, held, Option.getD_some]
    · change (rows writer).At writer (next outcome.1) _ (memory.held writer)
      rw [held]
      rcases answered outcome.1 with ended | ⟨-, attempting⟩
      · rw [ended, afterPut]
        cases outcome.1.bind (parseResponse engine .ok) with
        | error error => exact .failed _ _ _
        | ok updated => exact .stored _ body stores
      · exact .putting _ body (stores + 1) attempting

variable (rests : ∀ writer bound state, stored (sleep writer bound state) = stored state)

include rests

/-- A turn of a row: the service is left with what the access of the turn leaves, and the row
stands where the access leads. -/
theorem row_turn (writer : Bool) (question : Ask)
    (next : Except Exception HttpResponse →
      Session (Except Exception CalendarUpdateGlobalSinkState))
    (accesses : List Access) (memory : Memory Json) (state : σ)
    (at_row : (rows writer).At writer (.ask question next) accesses (memory.held writer))
    (current : stored state = memory.current) :
    let outcome := serve http sleep writer question state
    let made := (access engine applies ⟨writer, question, state, outcome.1⟩).toList
    stored outcome.2 = (play (compute rows) made memory).current ∧
      (rows writer).At writer (next outcome.1) (accesses ++ made)
        ((play (compute rows) made memory).held writer) := by
  generalize held : memory.held writer = body at at_row
  cases at_row with
  | asking _ attempting =>
    rcases attempting_ask _ _ question next attempting with ⟨bound, rfl, waits⟩ | ⟨rfl, answered⟩
    · refine ⟨(rests writer bound state).trans current, ?_⟩
      change (rows writer).At writer _ [] (memory.held writer)
      rw [held]
      exact .asking _ (waits _)
    · exact get_turn http sleep stored applies rows service writer next memory state held
        current answered
  | putting _ body stores attempting =>
    rcases attempting_ask _ _ question next attempting with ⟨bound, rfl, waits⟩ | ⟨rfl, answered⟩
    · refine ⟨(rests writer bound state).trans current, ?_⟩
      change (rows writer).At writer _ (_ ++ []) (memory.held writer)
      rw [held, List.append_nil]
      exact .putting _ body stores (waits _)
    · exact put_turn http sleep stored applies rows service writer next memory state body
        stores held current answered

/-! ## A run -/

/-- Both rows with the service and the record of their turns. -/
abbrev Rows (σ : Type) := Process.World Bool Ask (Except Exception HttpResponse)
  (Except Exception CalendarUpdateGlobalSinkState) (σ × List (Taken σ))

/-- The rows before their first turn. -/
def opening (start : σ) : Rows σ := ⟨fun writer => (rows writer).session, start, []⟩

omit service rests in
/-- The accesses that a world has on record. -/
def accesses (engine : Engine) (applies : HttpRequest → σ → Bool) (world : Rows σ) : List Access :=
  world.state.2.filterMap (access engine applies)

/-- What is stored, and where both rows stand, is told by the accesses so far. -/
structure Stands (start : Json) (world : Rows σ) : Prop where
  current : stored world.state.1 =
    (play (compute rows) (accesses engine applies world) ⟨start, fun _ => none⟩).current
  each : ∀ writer, (rows writer).At writer (world.process writer)
    (own writer (accesses engine applies world))
    ((play (compute rows) (accesses engine applies world) ⟨start, fun _ => none⟩).held writer)

omit service rests in
/-- The access of a turn is that of its row. -/
theorem access_mine (engine : Engine) (applies : HttpRequest → σ → Bool) (taken : Taken σ) :
    ∀ made ∈ (access engine applies taken).toList, made.writer = taken.name := by
  intro made member
  rw [Option.mem_toList] at member
  simp only [access] at member
  split at member
  · cases member
  · split at member
    · split at member
      · obtain rfl := Option.some.inj member
        rfl
      · cases member
    · split at member
      · obtain rfl := Option.some.inj member
        rfl
      · cases member
    · cases member

/-- A turn keeps where the rows stand. -/
theorem turn_stands (start : Json) (writer : Bool) (world next : Rows σ)
    (turn : Process.Turn (Process.recorded (serve http sleep)) writer world next)
    (stands : Stands stored applies rows start world) :
    Stands stored applies rows start next := by
  obtain ⟨question, more, asking⟩ := turn
  have here := stands.each writer
  rw [asking] at here
  obtain ⟨current, moved⟩ := row_turn http sleep stored applies rows service rests writer question
    more _ _ world.state.1 here stands.current
  have mine := access_mine engine applies
    ⟨writer, question, world.state.1, (serve http sleep writer question world.state.1).1⟩
  generalize added : (access engine applies
    ⟨writer, question, world.state.1, (serve http sleep writer question world.state.1).1⟩).toList =
    made at current moved mine
  have grown : accesses engine applies
      ⟨Function.update world.process writer
        (more (Process.recorded (serve http sleep) writer question world.state).1),
        (Process.recorded (serve http sleep) writer question world.state).2⟩ =
      accesses engine applies world ++ made := by
    rw [accesses, accesses, ← added]
    simp only [Process.recorded, List.filterMap_append]
    congr 1
  constructor
  · rw [grown, play_append]
    exact current
  · intro other
    rw [grown, play_append, own_append]
    by_cases same : other = writer
    · subst same
      have all : own other made = made := own_all other made (fun access member => by
        rw [mine access member]
        simp)
      rw [all]
      simpa only [Function.update_self, Process.recorded] using moved
    · have none_mine : own other made = [] := own_none other made (fun access member => by
        rw [mine access member]
        exact fun named => same named.symm)
      have unloaded : Access.load other ∉ made :=
        fun member => same (mine _ member)
      rw [none_mine, List.append_nil, held_kept (compute rows) other made _ unloaded]
      simpa only [Function.update_of_ne same] using stands.each other

/-- So does a run. -/
theorem run_stands (start : Json) (world final : Rows σ) (schedule : List Bool)
    (ran : Process.Run (Process.recorded (serve http sleep)) world schedule final)
    (stands : Stands stored applies rows start world) :
    Stands stored applies rows start final := by
  induction ran with
  | stay world => exact stands
  | turn world next final writer schedule first rest ih =>
    exact ih (turn_stands http sleep stored applies rows service rests start writer world next first
      stands)

omit service rests in
/-- Before the first turn the rows stand at their beginnings. -/
theorem opening_stands (start : σ) :
    Stands stored applies rows (stored start) (opening rows start) :=
  ⟨rfl, fun writer => (rows writer).session_at writer⟩

end Turns

/-- A row that is done loaded once and stored, and holds the body that it put. -/
theorem done_stored (rows : Bool → PlainRow engine calendarId id) (writer : Bool)
    (process : Session (Except Exception CalendarUpdateGlobalSinkState)) (made : List Access)
    (held : Option Json) (result : CalendarUpdateGlobalSinkState)
    (done : process = .done (.ok result)) (at_row : (rows writer).At writer process made held) :
    ∃ body stores, held = some body ∧
      made = .load writer :: List.replicate (stores + 1) (.store writer) := by
  cases at_row with
  | failed error => cases done
  | asking _ attempting =>
    subst done
    exact attempting.elim
  | putting _ body stores attempting =>
    subst done
    exact attempting.elim
  | stored result body stores => exact ⟨body, stores, rfl, rfl⟩

/-- The turns of the accesses that decide. -/
theorem record_split (applies : HttpRequest → σ → Bool) (record : List (Taken σ))
    (first second : Access) (early middle late : List Access)
    (whole : record.filterMap (access engine applies) =
      early ++ first :: (middle ++ second :: late)) :
    ∃ before asked between put after, record = before ++ asked :: (between ++ put :: after) ∧
      before.filterMap (access engine applies) = early ∧
      access engine applies asked = some first ∧ access engine applies put = some second ∧
      after.filterMap (access engine applies) = late := by
  obtain ⟨head, tail, rfl, rfl, tail_is⟩ := List.filterMap_eq_append_iff.mp whole
  obtain ⟨skipped, asked, behind, rfl, silent, loads, behind_is⟩ :=
    List.filterMap_eq_cons_iff.mp tail_is
  obtain ⟨inner, outer, rfl, -, outer_is⟩ := List.filterMap_eq_append_iff.mp behind_is
  obtain ⟨passed, put, after, rfl, -, stores, rfl⟩ := List.filterMap_eq_cons_iff.mp outer_is
  refine ⟨head ++ skipped, asked, inner ++ passed, put, after, by simp, ?_, loads, stores, rfl⟩
  rw [List.filterMap_append, List.filterMap_eq_nil_iff.mpr silent, List.append_nil]

/-- Whether a body agrees with a PUT body on every key its statement writes. -/
def Carries (columns : List (String × Value)) (sent body : Json) : Prop :=
  ∀ key, Writes columns key → body.find key = sent.find key

/-- What a row computes is the body that it puts. -/
theorem put_body_computed (plain : PlainRow engine calendarId id) (event body : Json)
    (computed : plain.computed event = some body) :
    putBody engine false plain.sets event = .ok body := by
  rw [PlainRow.computed] at computed
  cases made : putBody engine false plain.sets event with
  | error error =>
    rw [made] at computed
    cases computed
  | ok other =>
    rw [made] at computed
    rw [Option.some.inj computed]

/-- A body leaves the members that its columns do not write. -/
theorem frame_of_put (plain : PlainRow engine calendarId id) (members : OrderedMap String Json)
    (body : Json) (made : putBody engine false plain.sets (.ofMembers members) = .ok body)
    (key : String) (unwritten : ¬ Writes plain.sets key) :
    body.find key = (Json.ofMembers members).find key := by
  obtain ⟨after, rfl, frame⟩ := put_body_frame engine false plain.sets members body made
  exact frame key unwritten

end Service

/-- A service that holds one event, answers with the listed statuses and then with 200, and
applies every PUT. -/
def scriptedEvent (engine : Engine) : IHttpClient (List Int × Json) where
  execute request state :=
    let status := state.1.headD 200
    match request.method, request.body with
    | .put, some body => (.ok ⟨status, body.dump⟩, state.1.tail, body)
    | .get, _ =>
        if engine.parse state.2.dump = some state.2 then
          (.ok ⟨status, state.2.dump⟩, state.1.tail, state.2)
        else (.ok ⟨500, ""⟩, state.1.tail, state.2)
    | _, _ => (.ok ⟨404, ""⟩, state.1.tail, state.2)

/-- The scripted service applies what it accepts, whatever it holds. -/
theorem scripted_unconditional (engine : Engine) (calendarId id : String) :
    Unconditional engine calendarId id (scriptedEvent engine) Prod.snd (fun _ _ => true) where
  gets request state method _ := by
    simp only [scriptedEvent, method]
    split
    · rename_i parsed
      refine ⟨rfl, ?_⟩
      intro response body same _ read
      obtain rfl := Except.ok.inj same
      exact Option.some.inj (read.symm.trans parsed)
    · refine ⟨rfl, ?_⟩
      intro response body same status _
      obtain rfl := Except.ok.inj same
      exact absurd status (by decide)
  puts request body state method _ sent _ := by
    simp only [scriptedEvent, method, sent, if_true, true_and]
    exact fun _ _ _ => trivial

/-- A meeting with a room and a name. -/
def meeting : OrderedMap String Json :=
  (OrderedMap.empty.insert "location" (.string "Room")).insert "summary" (.string "Old")

/-- An engine that reads the bodies of the example. -/
def meetingEngine : Engine :=
  .reading [] ([meeting, meeting.insert "summary" (.string "New"),
    meeting.insert "location" (.string "Hall"),
    (meeting.insert "summary" (.string "New")).insert "location" (.string "Hall")].map
      (fun members => ((Json.ofMembers members).dump, Json.ofMembers members)))

/-- One statement renames the meeting, the other moves it. -/
def meetingRow (writer : Bool) : PlainRow meetingEngine "work" "a" where
  link := ⟨{ zeroSleep := true }, buildHeaders "Bearer token" "", ""⟩
  operator := ⟨"work", ["summary", "location"], [if writer then 1 else 0], [0], false⟩
  row := [.varchar (if writer then "Hall" else "New"), .varchar "a"]
  gstate := {}
  mode := rfl
  present := rfl
  calendar := rfl
  text := rfl
  headers := ⟨"Bearer token", "", rfl⟩

/-- Whether a row reported success. -/
def succeeded : Session (Except Exception CalendarUpdateGlobalSinkState) → Bool
  | .done (.ok _) => true
  | _ => false

/-- A row that succeeded is done. -/
theorem succeeded_done (process : Session (Except Exception CalendarUpdateGlobalSinkState))
    (success : succeeded process = true) : ∃ result, process = .done (.ok result) := by
  match process with
  | .done (.ok result) => exact ⟨result, rfl⟩
  | .done (.error _) => cases success
  | .ask _ _ => cases success

/-- The meeting after both rows took turns along a schedule, and whether they succeeded. -/
def meetingRun (statuses : List Int) (schedule : List Bool) :
    Option (Json × Bool × Bool) :=
  (Process.follow (Process.recorded (serve (fun _ => scriptedEvent meetingEngine)
    (fun _ _ state => state))) schedule (opening meetingRow (statuses, .ofMembers meeting))).map
      (fun final => (final.state.1.2, succeeded (final.process false),
        succeeded (final.process true)))

/-- The two rows write no member in common. -/
theorem meeting_rows_disjoint (writer : Bool) (key : String)
    (written : Writes (meetingRow writer).sets key) :
    ¬ Writes (meetingRow (!writer)).sets key := by
  have touched : touchedKeys "summary" = ["summary"] ∧ touchedKeys "location" = ["location"] := by
    decide
  have named : (meetingRow false).sets = [("summary", .varchar "New")] := by decide
  have moved : (meetingRow true).sets = [("location", .varchar "Hall")] := by decide
  rintro ⟨other, listed, same⟩
  obtain ⟨column, member, key⟩ := written
  cases writer with
  | false =>
    rw [named] at member
    rw [Bool.not_false, moved] at listed
    obtain rfl := List.mem_singleton.mp member
    obtain rfl := List.mem_singleton.mp listed
    rw [touched.1, List.mem_singleton] at key
    rw [touched.2, List.mem_singleton] at same
    exact absurd (key.symm.trans same) (by decide)
  | true =>
    rw [moved] at member
    rw [Bool.not_true, named] at listed
    obtain rfl := List.mem_singleton.mp member
    obtain rfl := List.mem_singleton.mp listed
    rw [touched.2, List.mem_singleton] at key
    rw [touched.1, List.mem_singleton] at same
    exact absurd (key.symm.trans same) (by decide)

end GoogleCalendar.LostUpdates
