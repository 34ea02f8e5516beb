import GoogleCalendar.UpdateStatement
import GoogleCalendar.ColumnCells
import GoogleCalendar.Exchanges
import GoogleCalendar.EventListing

/-!
# How often an UPDATE touches an event

Pages are fetched while the sink rewrites events of the same listing, which the
service orders by start. A statement is a run of the cursor through a changing
collection: a page token stands for the position where the listing goes on, the
queue is the rest of the chunk and of the page, and a touch is the GET and PUT
of a row. An event that satisfies the predicate at first is touched once, and
once more each time a PUT leaves it, still satisfying the predicate, where a
page that is still to come will list it. A SET list that does not write the
start moves no event, and then each is touched exactly once.
-/

namespace GoogleCalendar.UpdateOnce

open Library EventMapping CalendarUpdate CalendarScan ColumnCells Exchanges CursorScan EventListing

/-- A PUT that was accepted, with the page token that the scan had then. -/
structure Put where
  id : String
  body : Json
  token : String

/-- What a record shows of a statement: the token received last, and the events
it got and put with success. -/
structure Observed where
  token : String := ""
  gets : List String := []
  puts : List Put := []

/-- The page token in the answer to a list request, as the scan reads it. -/
def receivedToken (engine : Engine) (answer : Except Exception HttpResponse) : Option String :=
  match answer.bind (parseResponse engine .ok) with
  | .error _ => none
  | .ok json =>
    match json.valueOr "nextPageToken" "" Json.getString with
    | .ok token => some token
    | .error _ => none

/-- What one attempt adds, if it was accepted; an attempt that was refused adds nothing. -/
def observe (engine : Engine) (seen : Observed) (exchange : Exchange) : Observed :=
  if exchange.accepted then
    match exchange.request.method, exchange.request.path, exchange.request.body with
    | .get, .listEvents _ _, _ =>
        { seen with token := (receivedToken engine exchange.answer).getD seen.token }
    | .get, .event _ id, _ => { seen with gets := seen.gets ++ [id] }
    | .put, .event _ id, some body => { seen with puts := seen.puts ++ [⟨id, body, seen.token⟩] }
    | _, _, _ => seen
  else seen

/-- What a record says, from nothing. -/
def observed (engine : Engine) (record : List Exchange) : Observed :=
  record.foldl (observe engine) {}

/-- Of the attempts at a request only the accepted one is observed. -/
theorem observed_call (engine : Engine) (record refused : List Exchange) (exchange : Exchange)
    (repeated : ∀ attempt ∈ refused, attempt.Refused) :
    observed engine (record ++ (refused ++ [exchange])) =
      observe engine (observed engine record) exchange := by
  have unseen : ∀ (attempts : List Exchange) (seen : Observed),
      (∀ attempt ∈ attempts, attempt.Refused) → attempts.foldl (observe engine) seen = seen := by
    intro attempts seen all
    induction attempts generalizing seen with
    | nil => rfl
    | cons attempt attempts ih =>
      have nothing : observe engine seen attempt = seen := by
        simp [observe, Exchange.refused_unaccepted attempt (all attempt List.mem_cons_self)]
      rw [List.foldl_cons, nothing]
      exact ih seen (fun other member => all other (List.mem_cons_of_mem attempt member))
  simp [observed, List.foldl_append, unseen refused _ repeated]

section Statement

variable {σ : Type} (engine : Engine) (http : IHttpClient (σ × List Exchange))
  (headers : HttpHeaders) (baseUrl : String) (bindData : CalendarScanBindData)
  (operator : CalendarUpdate) (statement : UpdateStatement) (base : QueryBuilder)
  (stored : σ → String → Option Json) (instant : Option Json → Int) (window : Json → Bool)
  (resume : String → WithBot Position)

/-- The row that the scan puts out for an event. -/
def row (body : Json) : List Value := scanRow engine bindData statement.scanned body

/-- Whether the statement's predicate holds of an event. -/
def passes (body : Json) : Bool := statement.predicate (row engine bindData statement body)

/-- Whether a PUT leaves its event for a page to come, satisfying the predicate. -/
def leftAhead (put : Put) : Bool :=
  put.token ≠ "" && window put.body && passes engine bindData statement put.body &&
    decide (resume put.token < position instant put.id put.body)

/-- The service of a statement, behind a client that keeps a record of its attempts. -/
structure RecordedService : Prop extends
    OrderedService engine http bindData base (fun state => stored state.1) instant window
      resume where
  keeps : KeepsRecord http

/-- A value that is read comes from an attempt that was accepted, and nothing else of the request is
observed. -/
theorem read_recorded {α : Type} (keeps : KeepsRecord http) (get : Json → Except JsonError α)
    (request : HttpRequest) (state after : σ × List Exchange) (value : α)
    (settled : Settled state.2)
    (read : readResponse (parseResponse engine get) (http.execute request state) =
      (.ok value, after)) :
    ∃ response json, http.execute request state = (.ok response, after) ∧
      observed engine after.2 =
        observe engine (observed engine state.2) ⟨request, .ok response⟩ ∧ Settled after.2 ∧
      response.statusCode = 200 ∧ engine.parse response.body = some json ∧
      get json = .ok value := by
  obtain ⟨response, json, answered, status, parsed, got⟩ := read_ok engine get _ value after read
  obtain ⟨refused, grown, repeated⟩ := keeps request state response after answered status
  refine ⟨response, json, answered, ?_, ?_, status, parsed, got⟩
  · rw [grown]
    exact observed_call engine state.2 refused _ (fun attempt member => (repeated attempt member).2)
  · rw [grown]
    exact .call state.2 refused _ settled repeated (by simp [Exchange.accepted, status])

/-- A record of its calls beside the state of a service changes nothing of what the service is. -/
theorem calls_recorded (http : IHttpClient σ)
    (service : OrderedService engine http bindData base stored instant window resume) :
    RecordedService engine (recording http) bindData base stored instant window resume where
  identified state id body held := service.identified state.1 id body held
  starts := service.starts
  lists request token state response after json following method path executed status parsed
      tokened := by
    have answered : http.execute request state.1 = (.ok response, after.1) :=
      Prod.ext (congrArg (fun outcome => outcome.1) executed)
        (congrArg (fun outcome => outcome.2.1) executed)
    exact service.lists request token state.1 response after.1 json following method path answered
      status parsed tokened
  gets request id state response after json method path executed status parsed := by
    have answered : http.execute request state.1 = (.ok response, after.1) :=
      Prod.ext (congrArg (fun outcome => outcome.1) executed)
        (congrArg (fun outcome => outcome.2.1) executed)
    exact service.gets request id state.1 response after.1 json method path answered status parsed
  puts request id body state response after method path sent carries executed status := by
    have answered : http.execute request state.1 = (.ok response, after.1) :=
      Prod.ext (congrArg (fun outcome => outcome.1) executed)
        (congrArg (fun outcome => outcome.2.1) executed)
    exact service.puts request id body state.1 response after.1 method path sent carries answered
      status
  keeps := recording_keeps http

/-- How a scan state and the events of the chunk not yet sunk stand for a cursor
in the collection. -/
structure Stands (scan : Scan String Json Position) (chunk : List Json)
    (gstate : CalendarScanGlobalState) (state : σ × List Exchange) : Prop where
  held : scan.held = stored state.1
  more : scan.more = decide (gstate.nextPageToken ≠ "")
  cursor : gstate.nextPageToken ≠ "" → scan.cursor = resume gstate.nextPageToken
  queue : scan.queue.map Prod.snd = chunk ++ gstate.items.drop gstate.itemIndex
  waiting : Waiting (position instant) scan
  token : (observed engine state.2).token = gstate.nextPageToken
  query : gstate.baseQuery = base
  columns : gstate.columnIds = statement.scanned
  ended : gstate.finished = true →
    gstate.nextPageToken = "" ∧ gstate.items.drop gstate.itemIndex = []
  settled : Settled state.2

/-- A fetch from where a cursor stands is a page of the collection. -/
theorem fetch_page_step
    (service : RecordedService engine http bindData base stored instant window resume)
    (scan : Scan String Json Position) (chunk : List Json)
    (gstate fetched : CalendarScanGlobalState) (state after : σ × List Exchange)
    (held : scan.held = stored state.1) (more : scan.more = true)
    (cursor : scan.cursor = resume gstate.nextPageToken)
    (queue : scan.queue.map Prod.snd = chunk) (waiting : Waiting (position instant) scan)
    (query : gstate.baseQuery = base) (columns : gstate.columnIds = statement.scanned)
    (unfinished : gstate.finished = false) (settled : Settled state.2)
    (page : fetchPage engine ⟨http, headers, baseUrl⟩ bindData gstate state =
      (.ok fetched, after)) :
    ∃ next, CursorScan.Step (position instant) window (passes engine bindData statement) scan none
        next ∧
      Stands engine statement base stored instant resume next chunk fetched after ∧
      (observed engine after.2).gets = (observed engine state.2).gets ∧
      (observed engine after.2).puts = (observed engine state.2).puts := by
  simp only [fetchPage] at page
  split at page
  · exact absurd page (by simp)
  · rename_i response between listed
    split at page
    · exact absurd page (by simp)
    · rename_i following tokened
      obtain ⟨same, rfl⟩ := Prod.mk.inj page
      obtain rfl := Except.ok.inj same
      obtain ⟨answer, json, executed, recorded, settling, status, parsed, read⟩ :=
        read_recorded engine http service.keeps .ok _ state _ response settled listed
      obtain rfl := Except.ok.inj read
      rw [query] at executed
      obtain ⟨unchanged, entries, items, isPage, resumes⟩ := service.lists _ gstate.nextPageToken
        state answer _ json following rfl rfl executed status parsed tokened
      have observation : observed engine between.2 =
          { observed engine state.2 with token := following } := by
        rw [recorded]
        simp [observe, Exchange.accepted, GoogleCalendarClient.request, receivedToken, Except.bind,
          parseResponse, status, parsed, tokened]
      rw [← held, ← cursor] at isPage
      rw [← cursor] at resumes
      refine ⟨_, .fetch scan entries (following ≠ "") more isPage, ?_, ?_, ?_⟩
      · refine ⟨?_, rfl, ?_, ?_, ?_, ?_, query, columns, ?_, settling⟩
        · rw [unchanged]
          exact held
        · exact fun pending => (resumes pending).symm
        · simp [queue, items]
        · exact step_waiting _ window (passes engine bindData statement) scan _ none
            (.fetch scan entries (following ≠ "") more isPage) waiting
        · rw [observation]
        · exact fun finished => absurd finished (by simp [unfinished])
      · rw [observation]
      · rw [observation]

/-- One call of the scan fetches pages and moves events from the page into the
chunk. It falls short of a vector only when the scan has finished.

Induct on the fuel, as the loop goes: an event of the page joins the chunk; past
the last one the scan finishes on the empty token and fetches on any other. -/
theorem scan_loop_run
    (service : RecordedService engine http bindData base stored instant window resume)
    (vectorSize fuel : Nat) (scan : Scan String Json Position) (chunk : List Json)
    (rows : List (List Value)) (gstate last : CalendarScanGlobalState)
    (state after : σ × List Exchange)
    (stands : Stands engine statement base stored instant resume scan chunk gstate state)
    (loop : scanLoop engine ⟨http, headers, baseUrl⟩ bindData vectorSize fuel
      (chunk.map (row engine bindData statement)) gstate state = some (.ok (rows, last), after)) :
    ∃ next full, CursorScan.Run (position instant) window (passes engine bindData statement) scan []
        next ∧
      Stands engine statement base stored instant resume next full last after ∧
      rows = full.map (row engine bindData statement) ∧
      (rows.length < vectorSize → last.finished = true) ∧
      (observed engine after.2).gets = (observed engine state.2).gets ∧
      (observed engine after.2).puts = (observed engine state.2).puts := by
  induction fuel generalizing scan chunk gstate state with
  | zero => simp [scanLoop] at loop
  | succ fuel ih =>
    rw [scanLoop] at loop
    split at loop
    · rename_i running
      split at loop
      · rename_i item
        have exhausted : gstate.items.drop gstate.itemIndex = [] :=
          List.drop_eq_nil_of_le (List.getElem?_eq_none_iff.mp item)
        split at loop
        · rename_i empty
          simp only [Option.some.injEq, Prod.mk.injEq, Except.ok.injEq] at loop
          obtain ⟨⟨rfl, rfl⟩, rfl⟩ := loop
          exact ⟨scan, chunk, .done scan,
            ⟨stands.held, stands.more, stands.cursor, stands.queue, stands.waiting, stands.token,
              stands.query, stands.columns, fun _ => ⟨empty, exhausted⟩, stands.settled⟩, rfl,
            fun _ => rfl, rfl, rfl⟩
        · rename_i pending
          split at loop
          · exact absurd loop (by simp)
          · rename_i fetched between page
            have queue : scan.queue.map Prod.snd = chunk := by
              rw [stands.queue, exhausted, List.append_nil]
            obtain ⟨next, step, moved, gets, puts⟩ := fetch_page_step engine http headers baseUrl
              bindData statement base stored instant window resume service scan chunk gstate fetched
              state between stands.held (by simp [stands.more, pending]) (stands.cursor pending)
              queue stands.waiting stands.query stands.columns running.2 stands.settled page
            obtain ⟨final, full, run, stood, made, short, getsLater, putsLater⟩ :=
              ih next chunk fetched between moved loop
            exact ⟨final, full, .step scan next final none [] step run, stood, made, short,
              getsLater.trans gets, putsLater.trans puts⟩
      · rename_i event item
        have inside : gstate.itemIndex < gstate.items.length :=
          (List.getElem?_eq_some_iff.mp item).1
        have first : gstate.items.drop gstate.itemIndex =
            event :: gstate.items.drop (gstate.itemIndex + 1) := by
          rw [List.drop_eq_getElem_cons inside, (List.getElem?_eq_some_iff.mp item).2]
        have joined : chunk.map (row engine bindData statement) ++
            [scanRow engine bindData gstate.columnIds event] =
            (chunk ++ [event]).map (row engine bindData statement) := by
          simp [row, stands.columns]
        rw [joined] at loop
        have moved : Stands engine statement base stored instant resume scan (chunk ++ [event])
            { gstate with itemIndex := gstate.itemIndex + 1 } state :=
          ⟨stands.held, stands.more, stands.cursor, by rw [stands.queue, first]; simp,
            stands.waiting, stands.token, stands.query, stands.columns,
            fun finished => absurd finished (by simp [running.2]), stands.settled⟩
        exact ih scan (chunk ++ [event]) _ state moved loop
    · rename_i stopped
      simp only [Option.some.injEq, Prod.mk.injEq, Except.ok.injEq] at loop
      obtain ⟨⟨rfl, rfl⟩, rfl⟩ := loop
      refine ⟨scan, chunk, .done scan, stands, rfl, ?_, rfl, rfl⟩
      intro short
      by_contra unfinished
      exact stopped ⟨short, by simpa using unfinished⟩

/-- How the touches of a cursor stand for the requests of a record: the same
events in the same order, each put with a body that the statement made of the
event's own. -/
structure Recorded (before after : Observed) (touches : List (Touch String Json Position)) :
    Prop where
  gets : after.gets = before.gets ++ touches.map Touch.item
  puts : ∃ more, after.puts = before.puts ++ more ∧
    more.map (fun put => (put.id, leftAhead engine bindData statement instant window resume put)) =
      touches.map (fun made =>
        (made.item, leavesDue (position instant) window (passes engine bindData statement) made))
  made : ∀ made ∈ touches, ∃ (values : List Value) (members : OrderedMap String Json),
    made.before = .ofMembers members ∧ putBody engine operator.returnChunk
      (operator.setColumns values) (.ofMembers members) = .ok made.after

/-- No touches add nothing. -/
theorem recorded_nil (seen : Observed) :
    Recorded engine bindData operator statement instant window resume seen seen [] :=
  ⟨by simp, ⟨[], by simp, by simp⟩, by simp⟩

/-- Touches are recorded one part after the other. -/
theorem recorded_append (before between after : Observed)
    (early late : List (Touch String Json Position))
    (first : Recorded engine bindData operator statement instant window resume before between early)
    (second : Recorded engine bindData operator statement instant window resume between
      after late) :
    Recorded engine bindData operator statement instant window resume before after
      (early ++ late) := by
  obtain ⟨earlyGets, ⟨earlyPuts, earlyWhole, earlySame⟩, earlyMade⟩ := first
  obtain ⟨lateGets, ⟨latePuts, lateWhole, lateSame⟩, lateMade⟩ := second
  refine ⟨?_, ⟨earlyPuts ++ latePuts, ?_, ?_⟩, ?_⟩
  · simp [lateGets, earlyGets]
  · simp [lateWhole, earlyWhole]
  · simp [earlySame, lateSame]
  · intro made member
    cases List.mem_append.mp member with
    | inl here => exact earlyMade made here
    | inr there => exact lateMade made there

/-- What the sink does in a sequence of touches: each puts what the statement makes of the
event's own row, and each is counted. -/
structure Worked (before after : CalendarUpdateGlobalSinkState)
    (touches : List (Touch String Json Position)) : Prop where
  makes : ∀ made ∈ touches, putBody engine operator.returnChunk
    (operator.setColumns (statement.expressions (row engine bindData statement made.before) ++
      [rowId (row engine bindData statement made.before)])) made.before = .ok made.after
  counted : after.updateCount = before.updateCount + touches.length

/-- Touches are worked one part after the other. -/
theorem worked_append (before between after : CalendarUpdateGlobalSinkState)
    (early late : List (Touch String Json Position))
    (first : Worked engine bindData operator statement before between early)
    (second : Worked engine bindData operator statement between after late) :
    Worked engine bindData operator statement before after (early ++ late) := by
  constructor
  · intro made member
    cases List.mem_append.mp member with
    | inl here => exact first.makes made here
    | inr there => exact second.makes made there
  · rw [second.counted, first.counted, List.length_append, Nat.add_assoc]

/-- An event that the service stores has its id for a row id. -/
theorem row_id_of_stored
    (service : RecordedService engine http bindData base stored instant window resume)
    (state : σ × List Exchange) (id : String) (body : Json)
    (held : stored state.1 id = some body) :
    rowId (row engine bindData statement body) = .varchar id := by
  obtain ⟨members, rfl, identified⟩ := service.identified state id body held
  simp [rowId, row, UpdateStatement.scanned, scanRow, scanValue, jsonString, identified]

/-- What the sink's work on the row of a stored event leaves: the event is stored
as the statement makes it, and the record shows its GET and its PUT. -/
theorem sink_row_effect
    (service : RecordedService engine http bindData base stored instant window resume)
    (table : operator.calendarId = bindData.calendarId) (id : String) (body : Json)
    (values : List Value) (state after : σ × List Exchange)
    (sinkState sunk : CalendarUpdateGlobalSinkState) (current : stored state.1 id = some body)
    (settled : Settled state.2) (last : rowId values = .varchar id)
    (sinks : sinkRow engine ⟨http, headers, baseUrl⟩ operator values sinkState state =
      (.ok sunk, after)) :
    ∃ members kept : OrderedMap String Json, body = .ofMembers members ∧
      putBody engine operator.returnChunk (operator.setColumns values) (.ofMembers members) =
        .ok (.ofMembers kept) ∧
      stored after.1 = Function.update (stored state.1) id (some (.ofMembers kept)) ∧
      observed engine after.2 = { observed engine state.2 with
        gets := (observed engine state.2).gets ++ [id]
        puts := (observed engine state.2).puts ++
          [⟨id, .ofMembers kept, (observed engine state.2).token⟩] } ∧
      Settled after.2 ∧ sunk.updateCount = sinkState.updateCount + 1 := by
  simp only [sinkRow, last, Value.isNull, Value.toText, Bool.false_eq_true, if_false, table]
    at sinks
  split at sinks
  · exact absurd sinks (by simp)
  · rename_i event between got
    split at sinks
    · exact absurd sinks (by simp)
    · rename_i sent computed
      simp only [sinkBody, table] at sinks
      split at sinks
      · exact absurd sinks (by simp)
      · rename_i updated final put
        obtain ⟨left, rfl⟩ := Prod.mk.inj sinks
        obtain rfl := Except.ok.inj left
        obtain ⟨response, json, executed, gotten, settling, status, parsed, read⟩ :=
          read_recorded engine http service.keeps .ok _ state between event settled got
        obtain rfl := Except.ok.inj read
        obtain ⟨unchanged, stores⟩ := service.gets _ id state response _ json rfl rfl executed
          status parsed
        obtain rfl : body = json := Option.some.inj (current.symm.trans stores)
        obtain ⟨members, rfl, identified⟩ := service.identified state id body current
        obtain ⟨kept, rfl, frame⟩ :=
          put_body_frame engine operator.returnChunk _ members sent computed
        have sentId : (Json.ofMembers kept).find "id" = some (.string id) := by
          rw [Json.find_of_members, frame "id" (id_unwritten _), identified]
        obtain ⟨-, answered⟩ :=
          GoogleCalendarClient.read_sent_ok _ _ _ _ _ between final updated put
        obtain ⟨answer, -, putExecuted, putRecorded, putSettled, putStatus, -, -⟩ :=
          read_recorded engine http service.keeps .ok _ between final updated settling answered
        have replaced := service.puts _ id _ between answer _ rfl rfl rfl sentId putExecuted
          putStatus
        refine ⟨members, kept, rfl, computed, by rw [replaced, unchanged], ?_, putSettled, rfl⟩
        rw [putRecorded, gotten]
        simp [observe, Exchange.accepted, GoogleCalendarClient.request, status, putStatus]

/-- The sink's work on a row that the predicate holds of is a touch. -/
theorem sink_row_step
    (service : RecordedService engine http bindData base stored instant window resume)
    (table : operator.calendarId = bindData.calendarId)
    (scan : Scan String Json Position) (body : Json) (chunk : List Json)
    (gstate : CalendarScanGlobalState) (state after : σ × List Exchange)
    (sinkState sunk : CalendarUpdateGlobalSinkState)
    (stands : Stands engine statement base stored instant resume scan (body :: chunk) gstate state)
    (passed : statement.predicate (row engine bindData statement body) = true)
    (sinks : sinkRow engine ⟨http, headers, baseUrl⟩ operator
      (statement.expressions (row engine bindData statement body) ++
        [rowId (row engine bindData statement body)]) sinkState state = (.ok sunk, after)) :
    ∃ next made, CursorScan.Step (position instant) window (passes engine bindData statement) scan
        (some made) next ∧
      Stands engine statement base stored instant resume next chunk gstate after ∧
      Recorded engine bindData operator statement instant window resume (observed engine state.2)
        (observed engine after.2) [made] ∧
      Worked engine bindData operator statement sinkState sunk [made] := by
  obtain ⟨⟨id, body⟩, rest, whole, rfl, others⟩ := List.map_eq_cons_iff.mp stands.queue
  have current := (stands.waiting.current (id, body) (by simp [whole])).1
  rw [stands.held] at current
  have rowIdText := row_id_of_stored engine http bindData statement base stored instant window
    resume service state id body current
  have last : rowId (statement.expressions (row engine bindData statement body) ++
      [rowId (row engine bindData statement body)]) = .varchar id := by
    simpa [rowId] using rowIdText
  obtain ⟨members, kept, rfl, computed, replaced, observation, settled, counted⟩ :=
    sink_row_effect engine http headers baseUrl bindData operator base stored instant window resume
      service table id body _ state after sinkState sunk current stands.settled last sinks
  have step : CursorScan.Step (position instant) window (passes engine bindData statement) scan
      (some ⟨id, .ofMembers members, .ofMembers kept, scan.cursor, scan.more⟩) _ :=
    .touch scan id _ (.ofMembers kept) rest whole passed
  refine ⟨_, _, step, ?_, ?_, ?_, counted⟩
  · refine ⟨?_, stands.more, stands.cursor, others, ?_, ?_, stands.query, stands.columns,
      stands.ended, settled⟩
    · rw [replaced, ← stands.held]
    · exact step_waiting _ window (passes engine bindData statement) scan _ _ step stands.waiting
    · rw [observation]
      exact stands.token
  · refine ⟨by rw [observation]; rfl, ⟨_, by rw [observation], ?_⟩, ?_⟩
    · simp only [List.map_cons, List.map_nil, List.cons.injEq, Prod.mk.injEq, true_and, and_true,
        leftAhead, leavesDue, stands.token, stands.more]
      by_cases pending : gstate.nextPageToken = ""
      · simp [pending]
      · simp [pending, stands.cursor pending]
    · intro made member
      obtain rfl := List.mem_singleton.mp member
      exact ⟨_, members, rfl, computed⟩
  · intro made member
    obtain rfl := List.mem_singleton.mp member
    exact computed

/-- A cursor that stands for one event less of a chunk has a shorter queue. -/
theorem stood_shorter (scan next : Scan String Json Position) (body : Json) (chunk : List Json)
    (gstate : CalendarScanGlobalState) (state after : σ × List Exchange)
    (stands : Stands engine statement base stored instant resume scan (body :: chunk) gstate state)
    (stood : Stands engine statement base stored instant resume next chunk gstate after) :
    next.queue.length < scan.queue.length := by
  have before := congrArg List.length stands.queue
  have left := congrArg List.length stood.queue
  simp only [List.length_map, List.cons_append, List.length_cons] at before left
  omega

/-- The sink's work on a chunk serves the queue: rows that the predicate does not hold of
are skipped and the others touched, in order. -/
theorem sink_run
    (service : RecordedService engine http bindData base stored instant window resume)
    (table : operator.calendarId = bindData.calendarId) (chunk : List Json)
    (scan : Scan String Json Position) (gstate : CalendarScanGlobalState)
    (state after : σ × List Exchange) (sinkState sunk : CalendarUpdateGlobalSinkState)
    (stands : Stands engine statement base stored instant resume scan chunk gstate state)
    (sinks : sink engine ⟨http, headers, baseUrl⟩ operator
      ((chunk.map (row engine bindData statement)).filterMap statement.project) sinkState state =
      (.ok sunk, after)) :
    ∃ next touches, Serves (position instant) window (passes engine bindData statement)
        chunk.length scan touches next ∧
      Stands engine statement base stored instant resume next [] gstate after ∧
      Recorded engine bindData operator statement instant window resume (observed engine state.2)
        (observed engine after.2) touches ∧
      Worked engine bindData operator statement sinkState sunk touches := by
  induction chunk generalizing scan state sinkState with
  | nil =>
    simp only [List.map_nil, List.filterMap_nil, sink, Prod.mk.injEq] at sinks
    obtain ⟨left, rfl⟩ := sinks
    obtain rfl := Except.ok.inj left
    exact ⟨scan, [], .done scan, stands,
      recorded_nil engine bindData operator statement instant window resume _, by simp, rfl⟩
  | cons body chunk ih =>
    by_cases passed : statement.predicate (row engine bindData statement body) = true
    · simp only [List.map_cons, List.filterMap_cons, UpdateStatement.project, passed, if_true, sink]
        at sinks
      split at sinks
      · exact absurd sinks (by simp)
      · rename_i first between one
        obtain ⟨next, made, step, stood, recorded, worked⟩ := sink_row_step engine http headers
          baseUrl bindData operator statement base stored instant window resume service table scan
          body chunk gstate state between sinkState first stands passed one
        have shorter := stood_shorter engine statement base stored instant resume scan next body
          chunk gstate state between stands stood
        obtain ⟨final, touches, serves, ended, later, rest⟩ := ih next between first stood sinks
        exact ⟨final, made :: touches,
          .step scan next final (some made) chunk.length touches step shorter serves, ended,
          recorded_append engine bindData operator statement instant window resume _ _ _ [made]
            touches recorded later,
          worked_append engine bindData operator statement _ _ _ [made] touches worked rest⟩
    · obtain ⟨⟨id, body⟩, rest, whole, rfl, others⟩ := List.map_eq_cons_iff.mp stands.queue
      have unsatisfied : passes engine bindData statement body = false := by
        simpa [passes] using passed
      have step : CursorScan.Step (position instant) window (passes engine bindData statement) scan
          none { scan with queue := rest } :=
        .skip scan id body rest whole unsatisfied
      have stood : Stands engine statement base stored instant resume { scan with queue := rest }
          chunk gstate state :=
        ⟨stands.held, stands.more, stands.cursor, others,
          step_waiting _ window (passes engine bindData statement) scan _ none step stands.waiting,
          stands.token, stands.query, stands.columns, stands.ended, stands.settled⟩
      simp only [List.map_cons, List.filterMap_cons, UpdateStatement.project, passed,
        Bool.false_eq_true, if_false] at sinks
      have shorter := stood_shorter engine statement base stored instant resume scan _ body chunk
        gstate state state stands stood
      obtain ⟨final, touches, serves, ended, later⟩ := ih _ state sinkState stood sinks
      exact ⟨final, touches, .step scan _ final none chunk.length touches step shorter serves,
        ended, later⟩

/-- The calls of a statement that finishes are a run to the end of the
collection. -/
theorem drain_run
    (service : RecordedService engine http bindData base stored instant window resume)
    (table : operator.calendarId = bindData.calendarId) (vectorSize fuel calls : Nat)
    (positive : 0 < vectorSize) (scan : Scan String Json Position)
    (gstate : CalendarScanGlobalState) (state after : σ × List Exchange)
    (sinkState final : CalendarUpdateGlobalSinkState)
    (stands : Stands engine statement base stored instant resume scan [] gstate state)
    (drains : statement.drain engine ⟨http, headers, baseUrl⟩ bindData operator vectorSize fuel
      calls gstate sinkState state = some (.ok final, after)) :
    ∃ last touches, CursorScan.Run (position instant) window (passes engine bindData statement) scan
        touches last ∧
      last.queue = [] ∧ last.more = false ∧
      Recorded engine bindData operator statement instant window resume (observed engine state.2)
        (observed engine after.2) touches ∧
      last.held = stored after.1 ∧ Settled after.2 ∧
      Worked engine bindData operator statement sinkState final touches := by
  induction calls generalizing scan gstate state sinkState with
  | zero => simp [UpdateStatement.drain] at drains
  | succ calls ih =>
    simp only [UpdateStatement.drain, calendarScan] at drains
    split at drains
    · exact absurd drains (by simp)
    · exact absurd drains (by simp)
    · rename_i ended between loop
      simp only [Option.some.injEq, Prod.mk.injEq] at drains
      obtain ⟨left, rfl⟩ := drains
      obtain rfl := Except.ok.inj left
      obtain ⟨next, full, run, stood, made, short, gets, puts⟩ := scan_loop_run engine http headers
        baseUrl bindData statement base stored instant window resume service vectorSize fuel scan []
        [] gstate ended state between stands loop
      obtain ⟨token, exhausted⟩ := stood.ended (short positive)
      have empty : full = [] := by simpa using made.symm
      have queue := stood.queue
      rw [exhausted, empty, List.append_nil, List.map_eq_nil_iff] at queue
      exact ⟨next, [], run, queue, by simp [stood.more, token],
        ⟨by simp [gets], ⟨[], by simp [puts], by simp⟩, by simp⟩, stood.held, stood.settled,
        by simp, rfl⟩
    · rename_i rows ended between _ loop
      split at drains
      · exact absurd drains (by simp)
      · rename_i sunk sunkState sinks
        obtain ⟨next, full, run, stood, rfl, -, gets, puts⟩ := scan_loop_run engine http headers
          baseUrl bindData statement base stored instant window resume service vectorSize fuel scan
          [] rows gstate ended state between stands loop
        obtain ⟨sunkScan, early, serves, stoodSunk, recorded, worked⟩ := sink_run engine http
          headers baseUrl bindData operator statement base stored instant window resume service
          table full next ended between _ sinkState sunk stood sinks
        have sinkRun := serves_run _ window _ full.length next sunkScan early serves
        obtain ⟨last, late, rest, drained, exhausted, later, held, settled, work⟩ :=
          ih sunkScan ended _ sunk stoodSunk drains
        have fetched : Recorded engine bindData operator statement instant window resume
            (observed engine state.2) (observed engine between.2) [] :=
          ⟨by simp [gets], ⟨[], by simp [puts], by simp⟩, by simp⟩
        refine ⟨last, early ++ late, ?_, drained, exhausted, ?_, held, settled,
          worked_append engine bindData operator statement _ _ _ early late worked work⟩
        · exact run_trans _ window _ scan next last [] (early ++ late) run
            (run_trans _ window _ next sunkScan last early late sinkRun rest)
        · have whole := recorded_append engine bindData operator statement instant window resume
            _ _ _ [] early fetched recorded
          exact recorded_append engine bindData operator statement instant window resume _ _ _ early
            late whole later

/-- A statement that finishes is a run from before the first page to the end of
the collection, and the collection at its end is what the service stores. -/
theorem statement_effect
    (service : RecordedService engine http bindData base stored instant window resume)
    (table : operator.calendarId = bindData.calendarId) (defaults : DefaultWindow) (now : Int)
    (timeMin timeMax : Option String)
    (bounds : effectiveBounds engine bindData defaults now = .ok (timeMin, timeMax))
    (query : baseQuery timeMin timeMax = base) (vectorSize fuel calls : Nat)
    (positive : 0 < vectorSize) (state : σ) (final : CalendarUpdateGlobalSinkState)
    (after : σ × List Exchange)
    (ran : statement.run engine ⟨http, headers, baseUrl⟩ bindData operator defaults now
      vectorSize fuel calls (state, []) = some (.ok final, after)) :
    ∃ last touches, CursorScan.Run (position instant) window (passes engine bindData statement)
        (opening (stored state)) touches last ∧ last.queue = [] ∧ last.more = false ∧
      Recorded engine bindData operator statement instant window resume {}
        (observed engine after.2) touches ∧
      last.held = stored after.1 ∧ Settled after.2 ∧
      Worked engine bindData operator statement {} final touches := by
  simp only [UpdateStatement.run, calendarScanInitGlobal, bounds] at ran
  split at ran
  · exact absurd ran (by simp)
  · rename_i fetched between page
    obtain ⟨first, step, stood, gets, puts⟩ := fetch_page_step engine http headers baseUrl bindData
      statement base stored instant window resume service (opening (stored state)) []
      { baseQuery := baseQuery timeMin timeMax, columnIds := statement.scanned } fetched (state, [])
      between rfl rfl service.starts.symm rfl (opening_waiting _ _) query rfl rfl .none page
    obtain ⟨last, touches, run, drained, exhausted, recorded, held, settled, worked⟩ := drain_run
      engine http headers baseUrl bindData operator statement base stored instant window resume
      service table vectorSize fuel calls positive first fetched between after {} final stood ran
    have fetching : Recorded engine bindData operator statement instant window resume {}
        (observed engine between.2) [] :=
      ⟨by rw [gets]; rfl, ⟨[], by rw [puts]; rfl, rfl⟩, by simp⟩
    exact ⟨last, touches, .step _ first last none touches step run, drained, exhausted,
      recorded_append engine bindData operator statement instant window resume _ _ _ [] touches
        fetching recorded, held, settled, worked⟩

/-! ## That a statement ends -/

/-- A height of events that falls with each body that the statement puts later than the event
was. -/
def FallsAhead (height : String → Json → Nat) : Prop :=
  ∀ id values members after, putBody engine operator.returnChunk (operator.setColumns values)
      (.ofMembers members) = .ok after → window after = true →
    position instant id (.ofMembers members) < position instant id after →
    height id after < height id (.ofMembers members)

/-- The recorded touches of a statement fall with such a height. -/
theorem recorded_falls (height : String → Json → Nat)
    (falls : FallsAhead engine operator instant window height) (before after : Observed)
    (touches : List (Touch String Json Position))
    (recorded : Recorded engine bindData operator statement instant window resume before after
      touches) : ∀ made ∈ touches, Falls (position instant) window height made := by
  intro made member within later
  obtain ⟨values, members, own, computed⟩ := recorded.made made member
  rw [own] at later ⊢
  exact falls made.item values members made.after computed within later

/-- The calls of a statement end when there are more of them than work is left.

Induct on the number of calls: one that puts out rows serves them all from the queue, and there
is at least one. -/
theorem drain_returns
    (service : RecordedService engine http bindData base stored instant window resume)
    (full : FullPages engine http bindData base) (table : operator.calendarId = bindData.calendarId)
    (height : String → Json → Nat) (falls : FallsAhead engine operator instant window height)
    (items : Finset String) (vectorSize fuel calls : Nat) (enough : 2 * vectorSize + 1 ≤ fuel)
    (scan : Scan String Json Position) (gstate : CalendarScanGlobalState)
    (state : σ × List Exchange) (sinkState : CalendarUpdateGlobalSinkState)
    (stands : Stands engine statement base stored instant resume scan [] gstate state)
    (supports : Supports items scan)
    (left : work (position instant) window height items scan < calls) :
    ∃ outcome after, statement.drain engine ⟨http, headers, baseUrl⟩ bindData operator vectorSize
      fuel calls gstate sinkState state = some (outcome, after) := by
  induction calls generalizing scan gstate state sinkState with
  | zero => exact absurd left (Nat.not_lt_zero _)
  | succ calls ih =>
    obtain ⟨outcome, between, loop⟩ := scan_loop_returns engine http bindData base headers baseUrl
      full vectorSize vectorSize fuel [] gstate state (Nat.sub_le _ _) enough stands.query
    cases outcome with
    | error error =>
      simp only [UpdateStatement.drain, calendarScan, loop]
      exact ⟨_, _, rfl⟩
    | ok put =>
      obtain ⟨rows, ended⟩ := put
      cases rows with
      | nil =>
        simp only [UpdateStatement.drain, calendarScan, loop]
        exact ⟨_, _, rfl⟩
      | cons row rows =>
        simp only [UpdateStatement.drain, calendarScan, loop]
        cases sinks : sink engine ⟨http, headers, baseUrl⟩ operator
            ((row :: rows).filterMap statement.project) sinkState between with
        | mk result final =>
          cases result with
          | error error => exact ⟨_, _, rfl⟩
          | ok sunk =>
            obtain ⟨next, chunk, run, stood, made, -⟩ := scan_loop_run engine http headers baseUrl
              bindData statement base stored instant window resume service vectorSize fuel scan []
              (row :: rows) gstate ended state between stands loop
            rw [made] at sinks
            obtain ⟨sunkScan, touches, serves, stoodSunk, recorded, -⟩ := sink_run engine http
              headers baseUrl bindData operator statement base stored instant window resume service
              table chunk next ended between final sinkState sunk stood sinks
            have lowered := recorded_falls engine bindData operator statement instant window resume
              height falls _ _ touches recorded
            obtain ⟨less, held⟩ := run_work (position instant) window _ height items scan next []
              run stands.waiting supports (by simp)
            have served := serves_work (position instant) window _ height items chunk.length next
              sunkScan touches serves stood.waiting held lowered
            obtain ⟨-, among⟩ := run_work (position instant) window _ height items next sunkScan
              touches (serves_run _ window _ chunk.length next sunkScan touches serves)
              stood.waiting held lowered
            have nonempty : 0 < chunk.length := by
              have same := congrArg List.length made
              rw [List.length_map, List.length_cons] at same
              omega
            exact ih sunkScan ended final sunk stoodSunk among (by omega)

/-- A statement ends on a finite calendar, when some height of its events falls with each body
that it puts later than the event was. -/
theorem statement_returns
    (service : RecordedService engine http bindData base stored instant window resume)
    (full : FullPages engine http bindData base) (table : operator.calendarId = bindData.calendarId)
    (height : String → Json → Nat) (falls : FallsAhead engine operator instant window height)
    (defaults : DefaultWindow) (now : Int) (timeMin timeMax : Option String)
    (bounds : effectiveBounds engine bindData defaults now = .ok (timeMin, timeMax))
    (query : baseQuery timeMin timeMax = base) (vectorSize : Nat) (state : σ)
    (finite : {id | stored state id ≠ none}.Finite) :
    ∃ enough, ∀ fuel calls, enough ≤ fuel → enough ≤ calls → ∃ outcome after,
      statement.run engine ⟨http, headers, baseUrl⟩ bindData operator defaults now vectorSize fuel
        calls (state, []) = some (outcome, after) := by
  let items := finite.toFinset
  have supports : Supports items (opening (P := Position) (stored state)) := by
    intro id body held
    have kept : stored state id = some body := held
    simp [items, kept]
  let amount := work (position instant) window height items (opening (stored state))
  refine ⟨2 * vectorSize + 1 + (amount + 1), fun fuel calls fuelled called => ?_⟩
  simp only [UpdateStatement.run, calendarScanInitGlobal, bounds]
  cases page : fetchPage engine ⟨http, headers, baseUrl⟩ bindData
      { baseQuery := baseQuery timeMin timeMax, columnIds := statement.scanned } (state, []) with
  | mk result between =>
    cases result with
    | error error => exact ⟨_, _, rfl⟩
    | ok fetched =>
      obtain ⟨first, step, stood, -⟩ := fetch_page_step engine http headers baseUrl bindData
        statement base stored instant window resume service (opening (stored state)) []
        { baseQuery := baseQuery timeMin timeMax, columnIds := statement.scanned } fetched
        (state, []) between rfl rfl service.starts.symm rfl (opening_waiting _ _) query rfl rfl
        .none page
      have opened := opening_waiting (position instant) (stored state)
      have less := step_work (position instant) window _ height items _ first none step opened
        supports (by simp)
      have among := step_supports (position instant) window _ items _ first none step opened
        supports
      exact drain_returns engine http headers baseUrl bindData operator statement base stored
        instant window resume service full table height falls items vectorSize fuel calls (by omega)
        first fetched between {} stood among (lt_of_le_of_lt less (by omega))

/-- What the puts of a record say of the touches they stand for. -/
theorem recorded_puts (seen : Observed) (touches : List (Touch String Json Position))
    (recorded : Recorded engine bindData operator statement instant window resume {} seen touches) :
    seen.gets = seen.puts.map Put.id ∧
    (∀ id, seen.puts.countP (fun put => decide (put.id = id)) = touchCount touches id) ∧
    (∀ id, seen.puts.countP (fun put => decide (put.id = id) &&
        leftAhead engine bindData statement instant window resume put) =
      dueCount (position instant) window (passes engine bindData statement) touches id) ∧
    ∀ put ∈ seen.puts, ∃ touch ∈ touches,
      leavesDue (position instant) window (passes engine bindData statement) touch =
        leftAhead engine bindData statement instant window resume put := by
  obtain ⟨gets, ⟨puts, whole, matched⟩, -⟩ := recorded
  obtain rfl : seen.puts = puts := by simpa using whole
  have ids : seen.puts.map Put.id = touches.map Touch.item := by
    simpa [List.map_map, Function.comp_def] using congrArg (List.map Prod.fst) matched
  refine ⟨by simpa [ids] using gets, ?_, ?_, ?_⟩
  · intro id
    have same := congrArg (List.countP (fun label : String × Bool => decide (label.1 = id))) matched
    simpa [List.countP_map, Function.comp_def, touchCount] using same
  · intro id
    have same := congrArg (List.countP
      (fun label : String × Bool => decide (label.1 = id) && label.2)) matched
    simpa [List.countP_map, Function.comp_def, dueCount] using same
  · intro put member
    obtain ⟨touch, touched, same⟩ :=
      List.mem_map.mp (matched ▸ List.mem_map.mpr ⟨put, member, rfl⟩)
    exact ⟨touch, touched, (Prod.mk.inj same).2⟩

/-- An event that the statement is to update: listed, and the predicate holds. -/
def Target (state : σ) (id : String) : Prop :=
  ∃ body, stored state id = some body ∧ window body = true ∧
    passes engine bindData statement body = true

/-- Whether the SET list leaves `start` alone. The column `all_day` writes it too. -/
def LeavesStart : Prop :=
  ∀ column ∈ operator.columns, "start" ∉ touchedKeys (operator.names.getD column "")

instance : Decidable (LeavesStart operator) :=
  inferInstanceAs (Decidable (∀ column ∈ operator.columns, _))

/-- A SET list that does not write the start leaves every event in its place. -/
theorem position_kept (values : List Value) (id : String) (members : OrderedMap String Json)
    (after : Json) (unwritten : LeavesStart operator)
    (made : putBody engine operator.returnChunk (operator.setColumns values) (.ofMembers members) =
      .ok after) : position instant id after = position instant id (.ofMembers members) := by
  have kept : ¬ Writes (operator.setColumns values) "start" := by
    rintro ⟨column, member, touched⟩
    obtain ⟨⟨index, value⟩, paired, rfl⟩ := List.mem_map.mp member
    exact unwritten index (List.of_mem_zip paired).1 touched
  obtain ⟨rest, rfl, frame⟩ := put_body_frame engine operator.returnChunk _ members after made
  simp only [position, Json.find_of_members, frame "start" kept]

/-- A SET list that leaves the start alone puts no event later. -/
theorem unwritten_falls (unwritten : LeavesStart operator) :
    FallsAhead engine operator instant window (fun _ _ => 0) := by
  intro id values members after made _ later
  rw [position_kept engine operator instant values id members after unwritten made] at later
  exact absurd later (lt_irrefl _)

/-- Under a last instant, the time that an event has left to it falls with each later start. -/
theorem bounded_falls (last : Int)
    (bounded : ∀ body, window body = true → instant (body.find "start") ≤ last) :
    FallsAhead engine operator instant window
      (fun _ body => (last - instant (body.find "start")).toNat) := by
  intro id values members after _ within later
  have start : instant ((Json.ofMembers members).find "start") < instant (after.find "start") := by
    rcases Prod.Lex.lt_iff.mp (show Position.key _ < Position.key _ from later) with
      earlier | ⟨-, same⟩
    · exact earlier
    · exact absurd same (lt_irrefl id)
  have ends := bounded after within
  simp only
  omega

/-- A statement that finishes without an error has got and put every target of
its beginning once, and once more for each PUT that left the event ahead, still
satisfying the predicate; no other event is touched. When the SET list does not
write the start, no PUT does so. -/
theorem finished_counts
    (service : RecordedService engine http bindData base stored instant window resume)
    (table : operator.calendarId = bindData.calendarId) (defaults : DefaultWindow) (now : Int)
    (timeMin timeMax : Option String)
    (bounds : effectiveBounds engine bindData defaults now = .ok (timeMin, timeMax))
    (query : baseQuery timeMin timeMax = base) (vectorSize fuel calls : Nat)
    (positive : 0 < vectorSize) (state : σ) (final : CalendarUpdateGlobalSinkState)
    (after : σ × List Exchange)
    (ran : statement.run engine ⟨http, headers, baseUrl⟩ bindData operator defaults now
      vectorSize fuel calls (state, []) = some (.ok final, after)) :
    let seen := observed engine after.2
    Settled after.2 ∧ seen.gets = seen.puts.map Put.id ∧
    (∀ id, (Target engine bindData statement stored window state id →
        seen.puts.countP (fun put => decide (put.id = id)) =
          1 + seen.puts.countP (fun put => decide (put.id = id) &&
            leftAhead engine bindData statement instant window resume put)) ∧
      (¬ Target engine bindData statement stored window state id →
        seen.puts.countP (fun put => decide (put.id = id)) = 0)) ∧
    (LeavesStart operator → ∀ put ∈ seen.puts,
      leftAhead engine bindData statement instant window resume put = false) := by
  intro seen
  obtain ⟨last, touches, run, drained, exhausted, recorded, -, settled, -⟩ := statement_effect
    engine http headers baseUrl bindData operator statement base stored instant window resume
    service table defaults now timeMin timeMax bounds query vectorSize fuel calls positive state
    final after ran
  obtain ⟨gets, counted, again, stands⟩ :=
    recorded_puts engine bindData operator statement instant window resume _ touches recorded
  have idle : Waiting (position instant) (opening (stored state)) := opening_waiting _ _
  refine ⟨settled, gets, ?_, ?_⟩
  · intro id
    obtain ⟨absent, present⟩ := touches_counted (position instant) window
      (passes engine bindData statement) _ last touches run idle drained exhausted id
    rw [opening_due] at absent present
    rw [counted, again]
    exact ⟨present, absent⟩
  · intro unwritten put member
    have kept : ∀ touch ∈ touches, position instant touch.item touch.after =
        position instant touch.item touch.before := by
      intro touch touched
      obtain ⟨values, members, before, computed⟩ := recorded.made touch touched
      rw [before]
      exact position_kept engine operator instant values touch.item members touch.after unwritten
        computed
    obtain ⟨touch, touched, same⟩ := stands put member
    rw [← same]
    exact none_due_of_kept _ window _ _ last touches run idle kept touch touched

end Statement

/-! ## Attempts -/

section Attempts

variable {σ : Type} (engine : Engine) (retrying : RetryingHttpClient σ) (headers : HttpHeaders)
  (baseUrl : String) (bindData : CalendarScanBindData) (operator : CalendarUpdate)
  (statement : UpdateStatement) (base : QueryBuilder) (stored : σ → String → Option Json)
  (instant : Option Json → Int) (window : Json → Bool) (resume : String → WithBot Position)

/-- The service as single attempts meet it. Whatever it answers, a GET writes nothing and a PUT
has stored its body or nothing, and while a client sleeps nobody writes. -/
structure AttemptService : Prop extends
    OrderedService engine retrying.inner bindData base stored instant window resume where
  reads : ∀ request state, request.method = .get →
    stored (retrying.inner.execute request state).2 = stored state
  writes : ∀ request id body state, request.method = .put →
    request.path = .event bindData.calendarId id → request.body = some body →
    body.find "id" = some (.string id) →
    stored (retrying.inner.execute request state).2 = stored state ∨
      stored (retrying.inner.execute request state).2 =
        Function.update (stored state) id (some body)
  sleeps : ∀ bound state, stored (retrying.sleep bound state) = stored state

/-- An answer of 200 is that of the last attempt, made in a state with every property that the
attempts before it and the pauses keep. -/
theorem accepted_is_last (request : HttpRequest) (keeps : σ → Prop)
    (acted : ∀ state, keeps state → keeps (retrying.inner.execute request state).2)
    (slept : ∀ bound state, keeps state → keeps (retrying.sleep bound state))
    (state after : σ × List Exchange) (response : HttpResponse) (start : keeps state.1)
    (executed : (recorded retrying).toHttpClient.execute request state = (.ok response, after))
    (status : response.statusCode = 200) :
    ∃ before, keeps before ∧ retrying.inner.execute request before = (.ok response, after.1) := by
  obtain ⟨before, kept, last⟩ := (recorded retrying).answered_is_last request
    (fun state => keeps state.1) (fun state held => acted state.1 held)
    (fun bound state held => slept bound state.1 held) state after response start executed
    (by omega)
  have answered : (retrying.inner.execute request before.1).1 = .ok response :=
    congrArg Prod.fst last
  have left : (retrying.inner.execute request before.1).2 = after.1 :=
    congrArg (fun outcome => outcome.2.1) last
  exact ⟨before.1, kept, Prod.ext answered left⟩

/-- Behind the retry loop the service is one whose calls are answered or not. -/
theorem attempts_recorded
    (service : AttemptService engine retrying bindData base stored instant window resume) :
    RecordedService engine (recorded retrying).toHttpClient bindData base stored instant window
      resume where
  identified state id body held := service.identified state.1 id body held
  starts := service.starts
  lists request token state response after json following method path executed status parsed
      tokened := by
    obtain ⟨before, same, last⟩ := accepted_is_last retrying request
      (fun other => stored other = stored state.1)
      (fun other kept => (service.reads request other method).trans kept)
      (fun bound other kept => (service.sleeps bound other).trans kept)
      state after response rfl executed status
    have listed := service.lists request token before response after.1 json following method path
      last status parsed tokened
    rwa [same] at listed
  gets request id state response after json method path executed status parsed := by
    obtain ⟨before, same, last⟩ := accepted_is_last retrying request
      (fun other => stored other = stored state.1)
      (fun other kept => (service.reads request other method).trans kept)
      (fun bound other kept => (service.sleeps bound other).trans kept)
      state after response rfl executed status
    have gotten := service.gets request id before response after.1 json method path last status
      parsed
    rwa [same] at gotten
  puts request id body state response after method path sent carries executed status := by
    obtain ⟨before, same, last⟩ := accepted_is_last retrying request
      (fun other => stored other = stored state.1 ∨
        stored other = Function.update (stored state.1) id (some body))
      (fun other kept => by
        rcases service.writes request id body other method path sent carries with left | replaced
        · rwa [left]
        · rw [replaced]
          rcases kept with kept | kept
          · exact .inr (by rw [kept])
          · exact .inr (by rw [kept, Function.update_idem]))
      (fun bound other kept => by rwa [service.sleeps bound other])
      state after response (.inl rfl) executed status
    have replaced := service.puts request id body before response after.1 method path sent carries
      last status
    rcases same with same | same
    · rw [replaced, same]
    · rw [replaced, same, Function.update_idem]
  keeps := recorded_keeps retrying

/-- The pages that the retry loop returns are pages of the service. -/
theorem attempts_full (full : FullPages engine retrying.inner bindData base) :
    FullPages engine (recorded retrying).toHttpClient bindData base := by
  intro request token state response after json following method path executed status parsed
    tokened pending
  obtain ⟨before, -, last⟩ := accepted_is_last retrying request (fun _ => True)
    (fun _ _ => trivial) (fun _ _ _ => trivial) state after response trivial executed status
  exact full request token before response after.1 json following method path last status parsed
    tokened pending

end Attempts

/-! Two events on pages of one, updated by a service as assumed. -/

/-- A node of a date-time. -/
def startNode (text : String) : Json := .object [("dateTime", .string text)]

/-- An event at an hour of the first day, with a summary when it has been set. -/
def eventAt (id : String) (hour : String) (summary : Option String) : Json :=
  .object ([("id", .string id), ("start", startNode ("1970-01-01T" ++ hour ++ ":00:00Z"))] ++
    summary.toList.map (fun text => ("summary", .string text)))

/-- The texts of the example, with their instants. -/
def hours : List (String × Int) :=
  [("1970-01-01T01:00:00Z", 1), ("1970-01-01T02:00:00Z", 2), ("1970-01-01T03:00:00Z", 3)]

/-- The instant of a start node, by its text. -/
def startHour (member : Option Json) : Int :=
  match member with
  | some (.object [("dateTime", .string text)]) => (hours.lookup text).getD 0
  | _ => 0

/-- A page of one event. -/
def onePage (event : Json) (token : String) : Json := ListingService.pageJson [("", event)] token

/-- A service of pages of one event. -/
def smallService : ListingService where
  size := 1
  instant := startHour
  window _ := true
  documents :=
    [("a1", eventAt "a" "01" none), ("b2", eventAt "b" "02" none), ("a3", eventAt "a" "03" none),
      ("b3", eventAt "b" "03" none), ("a1x", eventAt "a" "01" (some "x")),
      ("b2x", eventAt "b" "02" (some "x")), ("[a1]", onePage (eventAt "a" "01" none) "after a1"),
      ("[b2]", onePage (eventAt "b" "02" none) "after b2"),
      ("[a3]", onePage (eventAt "a" "03" none) "after a3"),
      ("[b3]", onePage (eventAt "b" "03" none) ""), ("[b2].", onePage (eventAt "b" "02" none) "")]
  tokens := [("after a1", ⟨1, "a"⟩), ("after b2", ⟨2, "b"⟩),
    ("after a3", ⟨3, "a"⟩)]
  documentsDistinct := by decide
  tokensDistinct := by decide
  tokensNonempty := by decide

/-- The engine that reads what the service writes. -/
def smallEngine : Engine := .reading [] smallService.documents

/-- One event at one o'clock and one at two. -/
def twoEvents : Shelf :=
  ListingService.store (ListingService.store ⟨.empty, by simp⟩ "a" (eventAt "a" "01" none)
    (by decide)) "b" (eventAt "b" "02" none) (by decide)

/-- A scan of the starts and summaries since 1970. -/
def smallScan : CalendarScanBindData :=
  { calendarId := "work", names := ["start", "summary"], timeMin := "1970-01-01T00:00:00Z",
    hasLower := true }

/-- An UPDATE of one column. -/
def updateColumn (column : Nat) : CalendarUpdate :=
  ⟨"work", ["start", "summary"], [column], [0], false⟩

/-- An UPDATE of every event that sets a column to one value. -/
def setAll (val : Value) : UpdateStatement := ⟨[], fun _ => true, fun _ => [val]⟩

/-- The retry decorator as it is configured by default, over the small service. -/
def smallRetrying : RetryingHttpClient Shelf := ⟨smallService.http, {}, fun _ shelf => shelf⟩

/-- That update of every event. -/
def updateAll (column : Nat) (val : Value) :
    Option (Except Exception CalendarUpdateGlobalSinkState × (Shelf × List Exchange)) :=
  (setAll val).run smallEngine (recordedClient smallRetrying [] "") smallScan (updateColumn column)
    {} 0 1 5 10 (twoEvents, [])

/-- The events that an UPDATE puts, if it finishes without an error. -/
def putIds (outcome : Option (Except Exception CalendarUpdateGlobalSinkState ×
    (Shelf × List Exchange))) : Option (List String) :=
  match outcome with
  | some (.ok _, after) => some ((observed smallEngine after.2).puts.map Put.id)
  | _ => none

/-- An update whose puts are known has finished. -/
theorem put_ids_some (outcome : Option (Except Exception CalendarUpdateGlobalSinkState ×
    (Shelf × List Exchange))) (ids : List String) (finished : putIds outcome = some ids) :
    ∃ final after, outcome = some (.ok final, after) ∧
      (observed smallEngine after.2).puts.map Put.id = ids := by
  match outcome, finished with
  | some (.ok final, after), same => exact ⟨final, after, rfl, Option.some.inj same⟩

/-- The small service as a statement meets it. -/
theorem small_service_attempts :
    AttemptService smallEngine smallRetrying smallScan
      (baseQuery (some "1970-01-01T00:00:00Z") none) ListingService.held startHour (fun _ => true)
      smallService.resume where
  toOrderedService := smallService.ordered smallEngine (fun _ => rfl) smallScan _
  reads request shelf method := by
    simp only [smallRetrying, ListingService.http, method]
    split
    · rfl
    · split <;> rfl
    · rename_i put _ _
      cases put
    · rfl
  writes request id body shelf method path sent carries := by
    simp only [smallRetrying, ListingService.http, method, path, sent]
    split
    · refine .inr (funext fun other => ?_)
      simp only [ListingService.held, ListingService.store, OrderedMap.find_insert,
        Function.update_apply]
    · exact .inl rfl
  sleeps _ _ := rfl

end GoogleCalendar.UpdateOnce
