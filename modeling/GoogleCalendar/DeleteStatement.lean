import GoogleCalendar.DeleteRetries
import GoogleCalendar.SharedListing

/-!
# A DELETE statement

The engine streams the scan into the sink, as it does for an UPDATE: the rows of a
chunk that the predicate holds of are deleted before the scan is called again, so
pages are fetched from a calendar that the statement itself is emptying, while
others write to it.

The statement never lists an event that it has deleted, and deleting an event does
not hide another: a page goes on after a place, not after a number of events. So
of the events that nobody else writes to, it deletes exactly those that satisfied
the predicate when it began, each with one call. A call is a request with its
retries, and the record here is one of calls.
-/

namespace GoogleCalendar

open Library CalendarDelete
open CalendarUpdate (rowId)

/-- The columns that are scanned before the row id, the predicate, and the values that the
sink gets of a scanned row. -/
structure DeleteStatement where
  columnIds : List ColumnId
  predicate : List Value → Bool
  outputs : List Value → List Value

namespace DeleteStatement

section Run

variable {σ : Type} (engine : Engine) (client : GoogleCalendarClient σ)
  (bindData : CalendarScanBindData) (operator : CalendarDelete) (statement : DeleteStatement)

/-- The columns that the scan puts out, the row id last. -/
def scanned : List ColumnId := statement.columnIds ++ [.rowId]

/-- The rows that the predicate wants, as the sink takes them. -/
def project (row : List Value) : Option (List Value) :=
  if statement.predicate row then some (statement.outputs row) else none

/-- The chunks that are left, each sunk before the next is scanned. The sink state is what it
is when the statement ends, also when it ends with an error. -/
def drain (vectorSize fuel : Nat) : Nat → CalendarScanGlobalState →
    CalendarDeleteGlobalSinkState → σ →
    Option (Except Exception Unit × CalendarDeleteGlobalSinkState × σ)
  | 0, _, _, _ => none
  | calls + 1, gstate, sinkState, state =>
    match CalendarScan.calendarScan engine client bindData vectorSize fuel gstate state with
    | none => none
    | some (.error error, after) => some (.error error, sinkState, after)
    | some (.ok ([], _), after) => some (.ok (), sinkState, after)
    | some (.ok (rows, next), after) =>
      match sink engine client operator (rows.filterMap statement.project) sinkState after with
      | (.error error, sunk, final) => some (.error error, sunk, final)
      | (.ok (), sunk, final) => drain vectorSize fuel calls next sunk final

/-- The statement: the scan is opened, and its rows are drained into the sink. -/
def run (window : DefaultWindow) (now : Int) (vectorSize fuel calls : Nat) (state : σ) :
    Option (Except Exception Unit × CalendarDeleteGlobalSinkState × σ) :=
  match CalendarScan.calendarScanInitGlobal engine client bindData window now statement.scanned
      state with
  | (.error error, after) => some (.error error, {}, after)
  | (.ok gstate, after) =>
      drain engine client bindData operator statement vectorSize fuel calls gstate {} after

end Run

open CalendarScan CursorScan EventListing SharedScan SharedListing Exchanges

/-- The events that a record of calls shows a DELETE for, in order. -/
def deletions (record : List Exchange) : List String :=
  record.filterMap (fun exchange =>
    match exchange.request.method, exchange.request.path with
    | .del, .event _ id => some id
    | _, _ => none)

section Statement

variable {σ : Type} (engine : Engine) (http : IHttpClient σ) (headers : HttpHeaders)
  (baseUrl : String) (bindData : CalendarScanBindData) (operator : CalendarDelete)
  (statement : DeleteStatement) (base : QueryBuilder) (stored : σ → String → Option Json)
  (instant : Option Json → Int) (window : Json → Bool) (resume : String → WithBot Position)
  (owned : String → Prop)

/-- The service as far as a DELETE needs it, with other writers at work meanwhile. A GET of an
owned event is answered with it. A DELETE removes its event or, when it is answered with an error,
may have left it; an owned event that is another stays as it is. -/
structure DeletingService : Prop extends
    SharedService engine http bindData base stored instant window resume owned where
  gets : ∀ request id state response after json, owned id → request.method = .get →
    request.path = .event bindData.calendarId id →
    http.execute request state = (.ok response, after) → response.statusCode = 200 →
    engine.parse response.body = some json → stored state id = some json
  deletes : ∀ request id state, request.method = .del →
    request.path = .event bindData.calendarId id →
    (∀ other, owned other → other ≠ id →
      stored (http.execute request state).2 other = stored state other) ∧
    (owned id → stored (http.execute request state).2 id = none ∨
      stored (http.execute request state).2 id = stored state id) ∧
    ∀ response, (http.execute request state).1 = .ok response →
      response.statusCode = 200 ∨ response.statusCode = 204 → owned id →
      stored (http.execute request state).2 id = none

/-- A record beside the state of a service changes nothing of what the service is. -/
theorem recording_shared
    (service : SharedService engine http bindData base stored instant window resume owned) :
    SharedService engine (recording http) bindData base (fun state => stored state.1) instant window
      resume owned where
  starts := service.starts
  reads request state method := service.reads request state.1 method
  lists request token state response after json following method path executed status parsed
      tokened := by
    have outcome : (http.execute request state.1).1 = .ok response := congrArg Prod.fst executed
    have left : (http.execute request state.1).2 = after.1 :=
      congrArg (fun answered => answered.2.1) executed
    have answered : http.execute request state.1 = (.ok response, after.1) := Prod.ext outcome left
    exact service.lists request token state.1 response after.1 json following method path answered
      status parsed tokened

/-- What the retry loop makes of a service that answers attempts so: one that answers calls so. -/
theorem retried_deletes (retrying : RetryingHttpClient σ)
    (service : DeletingService engine retrying.inner bindData base stored instant window resume
      owned)
    (sleeps : ∀ bound state, stored (retrying.sleep bound state) = stored state) :
    DeletingService engine retrying.toHttpClient bindData base stored instant window resume owned
    where
  starts := service.starts
  reads request state method := by
    apply retrying.execute_keeps request (fun other => Agrees owned (stored state) (stored other))
    · exact fun other kept => agrees_trans owned _ _ _ kept (service.reads request other method)
    · intro bound other kept
      rwa [sleeps]
    · exact agrees_refl owned _
  lists request token state response after json following method path executed status parsed
      tokened := by
    obtain ⟨before, kept, last⟩ := retrying.answered_is_last request
      (fun other => Agrees owned (stored state) (stored other))
      (fun other kept => agrees_trans owned _ _ _ kept (service.reads request other method))
      (fun bound other kept => by rwa [sleeps]) state after response (agrees_refl owned _)
      executed (by omega)
    obtain ⟨seen, early, rest⟩ := service.lists request token before response after json following
      method path last status parsed tokened
    exact ⟨seen, agrees_trans owned _ _ _ kept early, rest⟩
  gets request id state response after json mine method path executed status parsed := by
    obtain ⟨before, kept, last⟩ := retrying.answered_is_last request
      (fun other => Agrees owned (stored state) (stored other))
      (fun other kept => agrees_trans owned _ _ _ kept (service.reads request other method))
      (fun bound other kept => by rwa [sleeps]) state after response (agrees_refl owned _)
      executed (by omega)
    rw [← kept id mine]
    exact service.gets request id before response after json mine method path last status parsed
  deletes request id state method path := by
    have others : (∀ other, owned other → other ≠ id →
        stored (retrying.execute request state).2 other = stored state other) ∧
        (owned id → stored (retrying.execute request state).2 id = none ∨
          stored (retrying.execute request state).2 id = stored state id) := by
      apply retrying.execute_keeps request (fun left =>
        (∀ other, owned other → other ≠ id → stored left other = stored state other) ∧
        (owned id → stored left id = none ∨ stored left id = stored state id))
      · intro left kept
        obtain ⟨apart, either, -⟩ := service.deletes request id left method path
        refine ⟨fun other mine distinct => (apart other mine distinct).trans
          (kept.1 other mine distinct), fun mine => ?_⟩
        rcases either mine with gone | same
        · exact .inl gone
        · rw [same]
          exact kept.2 mine
      · intro bound left kept
        rwa [sleeps]
      · exact ⟨fun _ _ _ => rfl, fun _ => .inr rfl⟩
    refine ⟨others.1, others.2, fun response answered accepted mine => ?_⟩
    obtain ⟨before, -, last⟩ := retrying.answered_is_last request (fun _ => True)
      (fun _ _ => trivial) (fun _ _ _ => trivial) state (retrying.execute request state).2 response
      trivial (Prod.ext answered rfl) (by omega)
    have gone := (service.deletes request id before method path).2.2 response
      (congrArg Prod.fst last) accepted mine
    rwa [last] at gone

/-- The client of the statement, with a record of its calls. -/
abbrev client : GoogleCalendarClient (σ × List Exchange) := ⟨recording http, headers, baseUrl⟩

/-- Whether the statement's predicate holds of an event. -/
def passes (body : Json) : Bool :=
  statement.predicate (scanRow engine bindData statement.scanned body)

/-- The runs of the cursor that the statement is. -/
abbrev StatementRun := SharedScan.Run (position instant) window (passes engine bindData statement)
  owned

/-- An event that the statement is to delete: listed, and the predicate holds. -/
def Target (state : σ) (id : String) : Prop :=
  ∃ body, stored state id = some body ∧ window body = true ∧
    passes engine bindData statement body = true

/-! ## What the sink does -/

/-- What a DELETE of the sink leaves: the event is removed or it is not, and it is when the call
is accepted; the record shows the call. -/
theorem delete_effect
    (service : DeletingService engine http bindData base stored instant window resume owned)
    (table : operator.calendarId = bindData.calendarId) (id : String)
    (state : σ × List Exchange) :
    let outcome := EventsResource.delete (client http headers baseUrl) operator.calendarId id state
    (∃ removed, Agrees owned
        (if removed then Function.update (stored state.1) id none else stored state.1)
        (stored outcome.2.1) ∧ (outcome.1 = .ok () → removed = true)) ∧
    deletions outcome.2.2 = deletions state.2 ++ [id] := by
  intro outcome
  let request := GoogleCalendarClient.request (client http headers baseUrl) .del
    (.event operator.calendarId id) none
  obtain ⟨others, either, accepted⟩ := service.deletes request id state.1 rfl (by
    rw [← table]
    rfl)
  have left : outcome.2.1 = (http.execute request state.1).2 := rfl
  have grown : outcome.2.2 = state.2 ++ [⟨request, (http.execute request state.1).1⟩] := rfl
  have read : outcome.1 = (http.execute request state.1).1.bind readDeleted := rfl
  have gone : outcome.1 = .ok () → owned id → stored outcome.2.1 id = none := by
    intro done mine
    rw [read] at done
    cases answer : (http.execute request state.1).1 with
    | error error =>
      rw [answer] at done
      cases done
    | ok response =>
      rw [answer] at done
      rw [left]
      exact accepted response answer ((DeleteRetries.read_deleted_iff response).mp done) mine
  refine ⟨?_, by rw [grown]; simp [deletions, request, GoogleCalendarClient.request]⟩
  by_cases removed : outcome.1 = .ok () ∨ stored outcome.2.1 id = none
  · refine ⟨true, ?_, fun _ => rfl⟩
    intro other mine
    by_cases same : other = id
    · subst same
      simp only [if_true, Function.update_self]
      rcases removed with done | missing
      · exact gone done mine
      · exact missing
    · simp only [if_true, Function.update_of_ne same]
      exact others other mine same
  · rw [not_or] at removed
    refine ⟨false, ?_, fun done => absurd done removed.1⟩
    intro other mine
    by_cases same : other = id
    · subst same
      exact (either mine).resolve_left removed.2
    · exact others other mine same

/-- How the work of the sink stands for the items that a cursor handles: a DELETE for each, and,
when all goes well, all of them removed and counted, with their rows. -/
structure Sunk (before after : CalendarDeleteGlobalSinkState) (record more : List Exchange)
    (result : Except Exception Unit) (handled : List (Handled String Json)) : Prop where
  requests : deletions more = deletions record ++ handled.map Handled.item
  removed : result = .ok () → ∀ made ∈ handled, made.removed = true
  counted : result = .ok () → after.deleteCount = before.deleteCount + handled.length
  returned : result = .ok () → operator.returnChunk = true → ∃ rows,
    after.returned = before.returned ++ rows ∧
      List.Forall₂ (fun made row => owned made.item →
        row = EventMapping.eventToRow engine made.value operator.names operator.calendarId)
      handled rows

/-- No rows leave the sink as it was. -/
theorem sunk_nothing (sinkState : CalendarDeleteGlobalSinkState) (record more : List Exchange)
    (result : Except Exception Unit) (same : deletions more = deletions record) :
    Sunk engine operator owned sinkState sinkState record more result [] :=
  ⟨by simp [same], by simp, by simp, fun _ _ => ⟨[], by simp, .nil⟩⟩

/-- Rows that are handled after others add to what the sink did. -/
theorem sunk_append (before between after : CalendarDeleteGlobalSinkState)
    (record more all : List Exchange) (result : Except Exception Unit)
    (early late : List (Handled String Json))
    (first : Sunk engine operator owned before between record more (.ok ()) early)
    (second : Sunk engine operator owned between after more all result late) :
    Sunk engine operator owned before after record all result (early ++ late) := by
  refine ⟨?_, ?_, ?_, ?_⟩
  · rw [second.requests, first.requests, List.map_append, List.append_assoc]
  · intro done made member
    rcases List.mem_append.mp member with here | there
    · exact first.removed rfl made here
    · exact second.removed done made there
  · intro done
    rw [second.counted done, first.counted rfl, List.length_append, Nat.add_assoc]
  · intro done mode
    obtain ⟨rows, whole, each⟩ := first.returned rfl mode
    obtain ⟨more, added, others⟩ := second.returned done mode
    exact ⟨rows ++ more, by rw [added, whole, List.append_assoc], List.rel_append each others⟩

/-- A deletion handles the event at the head of the queue, from where it begins: nothing owned
has changed since the row's turn came, no DELETE is recorded since, and with RETURNING a row is
kept. -/
theorem delete_event_run
    (service : DeletingService engine http bindData base stored instant window resume owned)
    (table : operator.calendarId = bindData.calendarId)
    (scan : Scan String Json Position) (id : String) (body : Json) (rest : List (String × Json))
    (chunk : List Json) (gstate : CalendarScanGlobalState) (state between : σ × List Exchange)
    (sinkState begun : CalendarDeleteGlobalSinkState)
    (stands : Stands statement.scanned base (fun state => stored state.1) resume scan
      (body :: chunk) gstate state)
    (whole : scan.queue = (id, body) :: rest)
    (passed : passes engine bindData statement body = true)
    (agrees : Agrees owned (stored state.1) (stored between.1))
    (recorded : deletions between.2 = deletions state.2)
    (counted : begun.deleteCount = sinkState.deleteCount)
    (row : operator.returnChunk = true → ∃ row, begun.returned = sinkState.returned ++ [row] ∧
      (owned id →
        row = EventMapping.eventToRow engine body operator.names operator.calendarId)) :
    let deleted := deleteEvent (client http headers baseUrl) operator id begun between
    ∃ next handled, StatementRun engine bindData statement instant window owned scan handled next ∧
      next.held = stored deleted.2.2.1 ∧
      Sunk engine operator owned sinkState deleted.2.1 state.2 deleted.2.2.2 deleted.1 handled ∧
      (deleted.1 = .ok () → Stands statement.scanned base (fun state => stored state.1) resume next
        chunk gstate deleted.2.2) := by
  intro deleted
  obtain ⟨⟨removed, left, accepted⟩, request⟩ := delete_effect engine http headers baseUrl bindData
    operator base stored instant window resume owned service table id between
  have result : deleted.1 = (EventsResource.delete (client http headers baseUrl)
      operator.calendarId id between).1 ∧ deleted.2.2 = (EventsResource.delete
        (client http headers baseUrl) operator.calendarId id between).2 ∧
      deleted.2.1.returned = begun.returned ∧
      (deleted.1 = .ok () → deleted.2.1.deleteCount = begun.deleteCount + 1) := by
    simp only [deleted, deleteEvent]
    split
    · rename_i failed
      simp [failed]
    · rename_i done
      simp [done]
  obtain ⟨answer, final, returned, more⟩ := result
  rw [← answer] at accepted
  rw [← final] at left request
  have others : rest.map Prod.snd = chunk ++ gstate.items.drop gstate.itemIndex := by
    have queue := stands.queue
    rw [whole] at queue
    exact (List.cons.inj queue).2
  let shown : Scan String Json Position := { scan with held := stored between.1 }
  let taken : Scan String Json Position :=
    { shown with queue := rest,
                 held := if removed then Function.update (stored between.1) id none
                   else stored between.1 }
  have first : SharedScan.Step (position instant) window (passes engine bindData statement) owned
      scan none shown := .elsewhere scan _ (by rw [stands.held]; exact agrees)
  have second : SharedScan.Step (position instant) window (passes engine bindData statement) owned
      shown (some ⟨id, body, removed⟩) taken := .handle shown id body removed rest whole passed
  have third : SharedScan.Step (position instant) window (passes engine bindData statement) owned
      taken none { taken with held := stored deleted.2.2.1 } := .elsewhere taken _ left
  refine ⟨{ taken with held := stored deleted.2.2.1 }, [⟨id, body, removed⟩], ?_, rfl, ?_, ?_⟩
  · exact .step scan shown _ none _ first (.step shown taken _ _ [] second
      (run_step (position instant) window _ owned taken _ none third))
  · refine ⟨by rw [request, recorded]; rfl, ?_, ?_, ?_⟩
    · intro done made member
      obtain rfl := List.mem_singleton.mp member
      exact accepted done
    · intro done
      rw [more done, counted]
      rfl
    · intro _ mode
      obtain ⟨shownRow, added, exact⟩ := row mode
      exact ⟨[shownRow], by rw [returned, added], .cons exact .nil⟩
  · intro _
    exact { stands with
      held := rfl
      queue := others
      identified := fun entry member =>
        stands.identified entry (whole ▸ List.mem_cons_of_mem _ member) }

/-- The sink's work on a row that the predicate holds of: its event is handled, or the GET of
its body has failed and nothing is done. -/
theorem sink_row_run
    (service : DeletingService engine http bindData base stored instant window resume owned)
    (table : operator.calendarId = bindData.calendarId)
    (places : ∀ row, (statement.outputs row).getD operator.rowIdIndex .null = rowId row)
    (scan : Scan String Json Position) (body : Json) (chunk : List Json)
    (gstate : CalendarScanGlobalState) (state : σ × List Exchange)
    (sinkState : CalendarDeleteGlobalSinkState)
    (stands : Stands statement.scanned base (fun state => stored state.1) resume scan
      (body :: chunk) gstate state)
    (waiting : SharedScan.Waiting (position instant) owned scan)
    (passed : passes engine bindData statement body = true) :
    let outcome := sinkRow engine (client http headers baseUrl) operator
      (statement.outputs (scanRow engine bindData statement.scanned body)) sinkState state
    ∃ next handled, StatementRun engine bindData statement instant window owned scan handled next ∧
      next.held = stored outcome.2.2.1 ∧
      Sunk engine operator owned sinkState outcome.2.1 state.2 outcome.2.2.2 outcome.1 handled ∧
      (outcome.1 = .ok () → Stands statement.scanned base (fun state => stored state.1) resume next
        chunk gstate outcome.2.2) := by
  intro outcome
  obtain ⟨⟨id, body⟩, rest, whole, rfl, -⟩ := List.map_eq_cons_iff.mp stands.queue
  have idVal : (statement.outputs (scanRow engine bindData statement.scanned body)).getD
      operator.rowIdIndex .null = .varchar id := by
    obtain ⟨members, same, identified⟩ := stands.identified (id, body) (by simp [whole])
    have bodySame : body = .ofMembers members := same
    rw [places, bodySame]
    simp [rowId, scanned, scanRow, scanValue, EventMapping.jsonString, identified]
  simp only [outcome, sinkRow, idVal, Value.isNull, Value.toText, Bool.false_eq_true, if_false]
  by_cases mode : operator.returnChunk = true
  · rw [if_pos mode]
    let request := GoogleCalendarClient.request (client http headers baseUrl) .get
      (.event operator.calendarId id) none
    have agrees : Agrees owned (stored state.1) (stored (http.execute request state.1).2) :=
      service.reads request state.1 rfl
    have unrecorded : deletions (state.2 ++ [⟨request, (http.execute request state.1).1⟩]) =
        deletions state.2 := by
      simp [deletions, request, GoogleCalendarClient.request]
    split
    · rename_i error after failed
      have left : after = ((http.execute request state.1).2,
          state.2 ++ [⟨request, (http.execute request state.1).1⟩]) :=
        (congrArg Prod.snd failed).symm
      subst left
      refine ⟨{ scan with held := stored (http.execute request state.1).2 }, [], ?_, rfl, ?_,
        fun done => by cases done⟩
      · exact run_step (position instant) window _ owned scan _ none
          (.elsewhere scan _ (by rw [stands.held]; exact agrees))
      · exact sunk_nothing engine operator owned sinkState _ _ _ unrecorded
    · rename_i event after got
      have left : after = ((http.execute request state.1).2,
          state.2 ++ [⟨request, (http.execute request state.1).1⟩]) :=
        (congrArg Prod.snd got).symm
      subst left
      refine delete_event_run engine http headers baseUrl bindData operator statement base stored
        instant window resume owned service table scan id body rest chunk gstate state _ sinkState _
        stands whole passed agrees unrecorded rfl (fun _ => ⟨_, rfl, fun mine => ?_⟩)
      obtain ⟨response, json, executed, status, parsed, read⟩ := read_ok engine .ok _ event _ got
      obtain rfl := Except.ok.inj read
      have first : (http.execute request state.1).1 = .ok response := congrArg Prod.fst executed
      have answered : http.execute request state.1 =
          (.ok response, (http.execute request state.1).2) := Prod.ext first rfl
      have gotten := service.gets request id state.1 response _ json mine rfl
        (by rw [← table]; rfl) answered status parsed
      have listed := waiting.current (id, body) (by simp [whole]) mine
      rw [stands.held] at listed
      have same : some json = some body := gotten.symm.trans listed
      rw [Option.some.inj same]
  · rw [if_neg mode]
    exact delete_event_run engine http headers baseUrl bindData operator statement base stored
      instant window resume owned service table scan id body rest chunk gstate state state sinkState
      sinkState stands whole passed (agrees_refl owned _) rfl rfl
      (fun returning => absurd returning mode)

/-- The sink's work on a chunk is a run: rows that the predicate does not hold of are skipped and
the others handled, in order, up to the first that throws. -/
theorem sink_run
    (service : DeletingService engine http bindData base stored instant window resume owned)
    (table : operator.calendarId = bindData.calendarId)
    (places : ∀ row, (statement.outputs row).getD operator.rowIdIndex .null = rowId row)
    (chunk : List Json) (scan : Scan String Json Position) (gstate : CalendarScanGlobalState)
    (state : σ × List Exchange) (sinkState : CalendarDeleteGlobalSinkState)
    (stands : Stands statement.scanned base (fun state => stored state.1) resume scan chunk gstate
      state)
    (waiting : SharedScan.Waiting (position instant) owned scan) :
    let outcome := sink engine (client http headers baseUrl) operator
      ((chunk.map (scanRow engine bindData statement.scanned)).filterMap statement.project)
      sinkState state
    ∃ next handled, StatementRun engine bindData statement instant window owned scan handled next ∧
      next.held = stored outcome.2.2.1 ∧
      Sunk engine operator owned sinkState outcome.2.1 state.2 outcome.2.2.2 outcome.1 handled ∧
      (outcome.1 = .ok () → Stands statement.scanned base (fun state => stored state.1) resume next
        [] gstate outcome.2.2) := by
  induction chunk generalizing scan state sinkState with
  | nil =>
    exact ⟨scan, [], .done scan, stands.held,
      sunk_nothing engine operator owned sinkState _ _ _ rfl, fun _ => stands⟩
  | cons body chunk ih =>
    intro outcome
    by_cases passed : passes engine bindData statement body = true
    · have projected : statement.project (scanRow engine bindData statement.scanned body) =
          some (statement.outputs (scanRow engine bindData statement.scanned body)) := if_pos passed
      have first := sink_row_run engine http headers baseUrl bindData operator statement base stored
        instant window resume owned service table places scan body chunk gstate state sinkState
        stands waiting passed
      simp only [outcome, List.map_cons, List.filterMap_cons, projected, sink]
      cases row : sinkRow engine (client http headers baseUrl) operator
          (statement.outputs (scanRow engine bindData statement.scanned body)) sinkState state with
      | mk answer rest =>
        obtain ⟨sunk, after⟩ := rest
        rw [row] at first
        obtain ⟨next, handled, run, held, work, stood⟩ := first
        cases answer with
        | error error => exact ⟨next, handled, run, held, work, fun done => by cases done⟩
        | ok done =>
          obtain ⟨final, later, rest, ended, more, standing⟩ := ih next after sunk (stood rfl)
            (run_waiting (position instant) window _ owned scan next handled run waiting)
          exact ⟨final, handled ++ later,
            run_trans (position instant) window _ owned scan next final handled later run rest,
            ended, sunk_append engine operator owned _ _ _ _ _ _ _ handled later work more,
            standing⟩
    · obtain ⟨⟨id, body⟩, rest, whole, rfl, others⟩ := List.map_eq_cons_iff.mp stands.queue
      have projected : statement.project (scanRow engine bindData statement.scanned body) = none :=
        if_neg passed
      have step : SharedScan.Step (position instant) window (passes engine bindData statement) owned
          scan none { scan with queue := rest } :=
        .skip scan id body rest whole (by simpa using passed)
      have stood : Stands statement.scanned base (fun state => stored state.1) resume
          { scan with queue := rest } chunk gstate state :=
        { stands with
          queue := others
          identified := fun entry member =>
            stands.identified entry (whole ▸ List.mem_cons_of_mem _ member) }
      simp only [outcome, List.map_cons, List.filterMap_cons, projected]
      obtain ⟨final, handled, run, ended, work, standing⟩ := ih _ state sinkState stood
        (step_waiting (position instant) window _ owned scan _ none step waiting)
      exact ⟨final, handled, .step scan _ final none handled step run, ended, work, standing⟩

/-! ## What the statement does -/

/-- The scan leaves what is owned as it is, and sends no DELETE. -/
theorem scan_unwritten
    (service : DeletingService engine http bindData base stored instant window resume owned)
    (vectorSize fuel : Nat) (gstate : CalendarScanGlobalState) (state after : σ × List Exchange)
    (result : Except Exception (List (List Value) × CalendarScanGlobalState))
    (scanned : calendarScan engine (client http headers baseUrl) bindData vectorSize fuel gstate
      state = some (result, after)) :
    Agrees owned (stored state.1) (stored after.1) ∧ deletions after.2 = deletions state.2 := by
  refine scan_loop_keeps engine (client http headers baseUrl) bindData
    (fun state after : σ × List Exchange =>
      Agrees owned (stored state.1) (stored after.1) ∧ deletions after.2 = deletions state.2)
    (fun state => ⟨agrees_refl owned _, rfl⟩) ?_ ?_ vectorSize fuel [] gstate state after result
    scanned
  · intro state between after first second
    exact ⟨agrees_trans owned _ _ _ first.1 second.1, second.2.trans first.2⟩
  · intro request state method
    refine ⟨service.reads request state.1 method, ?_⟩
    simp [deletions, recording, method]

/-- A call of the scan that throws leaves the collection to others. -/
theorem failed_call_run
    (service : DeletingService engine http bindData base stored instant window resume owned)
    (vectorSize fuel : Nat) (scan : Scan String Json Position) (gstate : CalendarScanGlobalState)
    (state between : σ × List Exchange) (sinkState : CalendarDeleteGlobalSinkState)
    (error : Exception) (held : scan.held = stored state.1)
    (failed : calendarScan engine (client http headers baseUrl) bindData vectorSize fuel gstate
      state = some (.error error, between)) :
    StatementRun engine bindData statement instant window owned scan []
        { scan with held := stored between.1 } ∧
      Sunk engine operator owned sinkState sinkState state.2 between.2 (.error error) [] := by
  obtain ⟨agrees, recorded⟩ := scan_unwritten engine http headers baseUrl bindData base stored
    instant window resume owned service vectorSize fuel gstate state between _ failed
  constructor
  · exact run_step (position instant) window _ owned scan _ none
      (.elsewhere scan _ (by rw [held]; exact agrees))
  · exact sunk_nothing engine operator owned sinkState _ _ _ recorded

/-- A call of the scan that returns has fetched what its rows are of, and deleted nothing. -/
theorem scan_call_run
    (service : DeletingService engine http bindData base stored instant window resume owned)
    (vectorSize fuel : Nat) (scan : Scan String Json Position)
    (gstate ended : CalendarScanGlobalState) (state between : σ × List Exchange)
    (rows : List (List Value)) (sinkState : CalendarDeleteGlobalSinkState)
    (stands : Stands statement.scanned base (fun state => stored state.1) resume scan [] gstate
      state)
    (loop : calendarScan engine (client http headers baseUrl) bindData vectorSize fuel gstate
      state = some (.ok (rows, ended), between)) :
    ∃ next full, StatementRun engine bindData statement instant window owned scan [] next ∧
      Stands statement.scanned base (fun state => stored state.1) resume next full ended between ∧
      rows = full.map (scanRow engine bindData statement.scanned) ∧
      (rows.length < vectorSize → ended.finished = true) ∧
      Sunk engine operator owned sinkState sinkState state.2 between.2 (.ok ()) [] := by
  have recorded := (scan_unwritten engine http headers baseUrl bindData base stored instant
    window resume owned service vectorSize fuel gstate state between _ loop).2
  obtain ⟨next, full, run, stood, made, short⟩ := scan_loop_run engine (recording http) headers
    baseUrl bindData statement.scanned (passes engine bindData statement) base _ instant window
    resume owned
    (recording_shared engine http bindData base stored instant window resume owned
      service.toSharedService)
    vectorSize fuel scan [] rows gstate ended state between stands loop
  exact ⟨next, full, run, stood, made, short,
    sunk_nothing engine operator owned sinkState _ _ _ recorded⟩

/-- The calls of a statement are a run, to the end of the collection when it finishes.

Induct on the calls: the scan ends the run, or its chunk is sunk and the rest of the calls go
on from there. -/
theorem drain_run
    (service : DeletingService engine http bindData base stored instant window resume owned)
    (table : operator.calendarId = bindData.calendarId)
    (places : ∀ row, (statement.outputs row).getD operator.rowIdIndex .null = rowId row)
    (vectorSize fuel calls : Nat) (positive : 0 < vectorSize) (scan : Scan String Json Position)
    (gstate : CalendarScanGlobalState) (state after : σ × List Exchange)
    (sinkState sunk : CalendarDeleteGlobalSinkState) (result : Except Exception Unit)
    (stands : Stands statement.scanned base (fun state => stored state.1) resume scan [] gstate
      state)
    (waiting : SharedScan.Waiting (position instant) owned scan)
    (drains : statement.drain engine (client http headers baseUrl) bindData operator vectorSize
      fuel calls gstate sinkState state = some (result, sunk, after)) :
    ∃ last handled, StatementRun engine bindData statement instant window owned scan handled last ∧
      last.held = stored after.1 ∧
      Sunk engine operator owned sinkState sunk state.2 after.2 result handled ∧
      (result = .ok () → last.queue = [] ∧ last.more = false) := by
  induction calls generalizing scan gstate state sinkState with
  | zero => simp [drain] at drains
  | succ calls ih =>
    simp only [drain] at drains
    split at drains
    · exact absurd drains (by simp)
    · rename_i error between failed
      simp only [Option.some.injEq, Prod.mk.injEq] at drains
      obtain ⟨rfl, rfl, rfl⟩ := drains
      obtain ⟨run, work⟩ := failed_call_run engine http headers baseUrl bindData operator statement
        base stored instant window resume owned service vectorSize fuel scan gstate state between
        sinkState error stands.held failed
      exact ⟨_, [], run, rfl, work, fun done => by cases done⟩
    · rename_i ended between loop
      simp only [Option.some.injEq, Prod.mk.injEq] at drains
      obtain ⟨rfl, rfl, rfl⟩ := drains
      obtain ⟨next, full, run, stood, made, short, work⟩ := scan_call_run engine http headers
        baseUrl bindData operator statement base stored instant window resume owned service
        vectorSize fuel scan gstate ended state between [] sinkState stands loop
      obtain ⟨token, exhausted⟩ := stood.ended (short positive)
      have empty : full = [] := by simpa using made.symm
      have queue := stood.queue
      rw [exhausted, empty, List.append_nil, List.map_eq_nil_iff] at queue
      exact ⟨next, [], run, stood.held, work, fun _ => ⟨queue, by simp [stood.more, token]⟩⟩
    · rename_i rows ended between _ loop
      obtain ⟨next, full, run, stood, rfl, -, fetched⟩ := scan_call_run engine http headers baseUrl
        bindData operator statement base stored instant window resume owned service vectorSize fuel
        scan gstate ended state between _ sinkState stands loop
      have waits := run_waiting (position instant) window _ owned scan next [] run waiting
      have sinks := sink_run engine http headers baseUrl bindData operator statement base stored
        instant window resume owned service table places full next ended between sinkState stood
        waits
      split at drains
      · rename_i error sunkState final outcome
        rw [outcome] at sinks
        simp only [Option.some.injEq, Prod.mk.injEq] at drains
        obtain ⟨rfl, rfl, rfl⟩ := drains
        obtain ⟨last, handled, sinkRun, held, work, -⟩ := sinks
        exact ⟨last, handled,
          run_trans (position instant) window _ owned scan next last [] handled run sinkRun, held,
          sunk_append engine operator owned _ _ _ _ _ _ _ [] handled fetched work,
          fun done => by cases done⟩
      · rename_i sunkState final outcome
        rw [outcome] at sinks
        obtain ⟨middle, early, sinkRun, -, work, stoodSunk⟩ := sinks
        obtain ⟨last, late, rest, held, later, finished⟩ := ih middle ended final sunkState
          (stoodSunk rfl) (run_waiting (position instant) window _ owned next middle early sinkRun
            waits) drains
        refine ⟨last, early ++ late, ?_, held, ?_, finished⟩
        · exact run_trans (position instant) window _ owned scan next last [] _ run
            (run_trans (position instant) window _ owned next middle last early late sinkRun rest)
        · exact sunk_append engine operator owned _ _ _ _ _ _ _ ([] ++ early) late
            (sunk_append engine operator owned _ _ _ _ _ _ _ [] early fetched work) later

/-- A statement is a run from before the first page. -/
theorem statement_run
    (service : DeletingService engine http bindData base stored instant window resume owned)
    (table : operator.calendarId = bindData.calendarId)
    (places : ∀ row, (statement.outputs row).getD operator.rowIdIndex .null = rowId row)
    (defaults : DefaultWindow) (now : Int) (timeMin timeMax : Option String)
    (bounds : effectiveBounds engine bindData defaults now = .ok (timeMin, timeMax))
    (query : baseQuery timeMin timeMax = base) (vectorSize fuel calls : Nat)
    (positive : 0 < vectorSize) (state : σ) (sunk : CalendarDeleteGlobalSinkState)
    (result : Except Exception Unit) (after : σ × List Exchange)
    (ran : statement.run engine (client http headers baseUrl) bindData operator defaults now
      vectorSize fuel calls (state, []) = some (result, sunk, after)) :
    ∃ last handled, StatementRun engine bindData statement instant window owned
        (opening (stored state)) handled last ∧
      last.held = stored after.1 ∧
      Sunk engine operator owned {} sunk [] after.2 result handled ∧
      (result = .ok () → last.queue = [] ∧ last.more = false) := by
  let shared := recording_shared engine http bindData base stored instant window resume owned
    service.toSharedService
  let opened : CalendarScanGlobalState :=
    { baseQuery := baseQuery timeMin timeMax, columnIds := statement.scanned }
  have unwritten := fetch_page_keeps engine (client http headers baseUrl) bindData
    (fun state after : σ × List Exchange =>
      Agrees owned (stored state.1) (stored after.1) ∧ deletions after.2 = deletions state.2)
    (fun request state method => ⟨service.reads request state.1 method, by
      simp [deletions, recording, method]⟩) opened (state, [])
  simp only [run, calendarScanInitGlobal, bounds] at ran
  split at ran
  · rename_i error failed page
    simp only [Option.some.injEq, Prod.mk.injEq] at ran
    obtain ⟨rfl, rfl, rfl⟩ := ran
    rw [page] at unwritten
    refine ⟨{ opening (stored state) with held := stored failed.1 }, [], ?_, rfl,
      sunk_nothing engine operator owned {} _ _ _ unwritten.2, fun done => by cases done⟩
    exact run_step (position instant) window _ owned _ _ none (.elsewhere _ _ unwritten.1)
  · rename_i gstate between page
    rw [page] at unwritten
    obtain ⟨scan, opens, stood⟩ := fetch_page_run engine (recording http) headers baseUrl bindData
      statement.scanned (passes engine bindData statement) base _ instant window resume owned shared
      (opening (stored state)) [] opened gstate (state, []) between rfl rfl service.starts.symm rfl
      (by simp [opening]) query rfl rfl page
    have waits := run_waiting (position instant) window _ owned _ scan [] opens
      (opening_waiting (position instant) owned (stored state))
    obtain ⟨last, handled, rest, held, work, finished⟩ := drain_run engine http headers baseUrl
      bindData operator statement base stored instant window resume owned service table places
      vectorSize fuel calls positive scan gstate between after {} sunk result stood waits ran
    exact ⟨last, handled,
      run_trans (position instant) window _ owned _ scan last [] handled opens rest, held,
      sunk_append engine operator owned _ _ _ _ _ _ _ [] handled
        (sunk_nothing engine operator owned {} _ _ _ unwritten.2) work, finished⟩

/-- The rows that RETURNING keeps of handled events hold the row of each owned one. -/
theorem returned_row (handled : List (Handled String Json)) (rows : List (List Value))
    (each : List.Forall₂ (fun made row => owned made.item →
      row = EventMapping.eventToRow engine made.value operator.names operator.calendarId)
      handled rows)
    (made : Handled String Json) (member : made ∈ handled) (mine : owned made.item) :
    EventMapping.eventToRow engine made.value operator.names operator.calendarId ∈ rows := by
  obtain ⟨index, inside, rfl⟩ := List.getElem_of_mem member
  have within : index < rows.length := each.length_eq ▸ inside
  have same := each.get inside within mine
  rw [List.get_eq_getElem, List.get_eq_getElem] at same
  rw [← same]
  exact List.getElem_mem within

end Statement

/-! ## The small service -/

/-- The small service deletes as it is assumed to, whatever its page size and the other writes. -/
theorem small_service_deletes (owned : String → Prop) (service : ListingService) (engine : Engine)
    (parses : ∀ text, engine.parse text = service.documents.lookup text)
    (bindData : CalendarScanBindData) (base : QueryBuilder) :
    DeletingService engine (sharedHttp owned service) bindData base
      (fun state => ListingService.held state.1) service.instant service.window service.resume
      owned where
  toSharedService := small_service_shared owned service engine parses bindData base
  gets request id state response after json mine method path executed status parsed := by
    have same : (sharedHttp owned service).execute request state =
        ((service.http.execute request state.1).1,
          written (service.http.execute request state.1).2 state.2) := by
      simp only [sharedHttp, method]
    rw [same, Prod.mk.injEq] at executed
    exact ((service.ordered engine parses bindData base).gets request id state.1 response _ json
      method path (Prod.ext executed.1 rfl) status parsed).2
  deletes request id state method path := by
    by_cases there : (ListingService.held state.1 id).isSome = true
    · have same : (sharedHttp owned service).execute request state =
          (.ok ⟨204, ""⟩, written (erased state.1 id) state.2) := by
        simp only [sharedHttp, method, path, there, if_true]
      have agrees := written_agrees (erased state.1 id) state.2
      have removed : ∀ other, ListingService.held (erased state.1 id) other =
          if other = id then none else ListingService.held state.1 other :=
        fun other => OrderedMap.find_erase state.1.1 id other
      rw [same]
      refine ⟨?_, fun mine => .inl ?_, fun _ _ _ mine => ?_⟩
      · intro other mine apart
        rw [agrees other mine, removed, if_neg apart]
      · rw [agrees id mine, removed, if_pos rfl]
      · rw [agrees id mine, removed, if_pos rfl]
    · have same : (sharedHttp owned service).execute request state =
          (.ok ⟨404, ""⟩, written state.1 state.2) := by
        simp [sharedHttp, method, path, there]
      have agrees := written_agrees state.1 state.2
      rw [same]
      refine ⟨fun other mine _ => agrees other mine, fun mine => .inr (agrees id mine), ?_⟩
      intro response answered accepted
      obtain rfl := Except.ok.inj answered
      simp at accepted

/-- A DELETE of every event. -/
def deleteAll : DeleteStatement := ⟨[], fun _ => true, fun row => [rowId row]⟩

open UpdateOnce in
/-- Another program creates the first event again, behind the second, as soon as it is gone. -/
def recreated : Shelf × List (ForeignWrite (fun id => id = "a")) :=
  (movedStart.1, [⟨"b", eventAt "b" "01" none, moved_foreign, bare_identified "b" "01"⟩,
    ⟨"b", eventAt "b" "03" none, moved_foreign, bare_identified "b" "03"⟩])

/-- The service behind the retry loop. -/
def movedRetrying : RetryingHttpClient (Shelf × List (ForeignWrite (fun id => id = "a"))) :=
  ⟨sharedHttp _ movedService, { zeroSleep := true }, fun _ state => state⟩

/-- The statement on a service where another client writes the event again. -/
def deleteRecreated : Option (Except Exception Unit × CalendarDeleteGlobalSinkState ×
    ((Shelf × List (ForeignWrite (fun id => id = "a"))) × List Exchange)) :=
  deleteAll.run movedEngine (client movedRetrying.toHttpClient [] "") movedScan
    DeleteRetries.deleteById {} 0 1 5 10 (recreated, [])

/-- The calls of a statement that ends without an error. -/
def deletedIds (outcome : Option (Except Exception Unit × CalendarDeleteGlobalSinkState ×
    ((Shelf × List (ForeignWrite (fun id => id = "a"))) × List Exchange))) :
    Option (List String) :=
  match outcome with
  | some (.ok (), _, after) => some (deletions after.2)
  | _ => none

end DeleteStatement

end GoogleCalendar
