import GoogleCalendar.AttachedDatabase

/-!
# Statements end

A statement calls the scan as long as it puts rows out. On a finite calendar with full pages
that nobody else writes to, each chunk takes events away from those that are still to come, and
what the sinks do puts none back, but for an UPDATE that moves a start. So every other
statement comes to an end, with a report or with an error.
-/

namespace GoogleCalendar.StatementEnds

open Library CalendarScan CursorScan EventListing SharedScan SharedListing Exchanges
  EventMapping ShownRows CalendarTable CopiedCalendar AttachedDatabase
open CalendarUpdate (rowId)

/-! ## One call -/

section Scan

variable {σ : Type} (engine : Engine) (http : IHttpClient σ) (headers : HttpHeaders)
  (baseUrl : String) (bindData : CalendarScanBindData) (columnIds : List ColumnId)
  (passes : Json → Bool) (base : QueryBuilder) (stored : σ → String → Option Json)
  (instant : Option Json → Int) (window : Json → Bool) (resume : String → WithBot Position)

/-- The events that a cursor has still to come to. -/
abbrev toCome (items : Finset String) (scan : Scan String Json Position) : Nat :=
  work (position instant) window (fun _ _ => 0) items scan

/-- A cursor over a finite calendar that nobody else writes to, and a chunk not yet consumed. -/
structure Going (items : Finset String) (scan : Scan String Json Position) (chunk : List Json)
    (gstate : CalendarScanGlobalState) (state : σ) : Prop extends
    SharedListing.Stands columnIds base stored resume scan chunk gstate state where
  waiting : SharedScan.Waiting (position instant) (fun _ => True) scan
  supports : Supports items scan

/-- Consuming a chunk takes its events from those to come. -/
theorem consumed_less (items : Finset String) (scan next : Scan String Json Position)
    (chunk : List Json) (handled : List (Handled String Json)) (gstate : CalendarScanGlobalState)
    (state after : σ)
    (going : Going columnIds base stored instant resume items scan chunk gstate state)
    (run : SharedScan.Run (position instant) window passes (fun _ => True) scan handled next)
    (stands : SharedListing.Stands columnIds base stored resume next [] gstate after) :
    Going columnIds base stored instant resume items next [] gstate after ∧
      toCome instant window items next + chunk.length ≤ toCome instant window items scan := by
  obtain ⟨less, among⟩ := run_takes_work (position instant) window passes (fun _ => True)
    (fun _ => trivial) (fun _ _ => 0) items scan next handled run going.waiting going.supports
  have before := congrArg List.length going.queue
  have after := congrArg List.length stands.queue
  simp only [List.length_map, List.length_append, List.length_nil] at before after
  exact ⟨⟨stands, run_waiting (position instant) window passes (fun _ => True) scan next handled run
    going.waiting, among⟩, by simp only [toCome]; omega⟩

/-- A call of the scan returns. When it puts rows out, they are of a chunk of the events to come,
and it falls short of a vector only when the scan has finished. -/
theorem call_returns
    (service : SharedService engine http bindData base stored instant window resume
      (fun _ => True))
    (full : FullPages engine http bindData base) (vectorSize fuel : Nat)
    (enough : 2 * vectorSize + 1 ≤ fuel) (items : Finset String)
    (scan : Scan String Json Position) (gstate : CalendarScanGlobalState) (state : σ)
    (going : Going columnIds base stored instant resume items scan [] gstate state) :
    ∃ outcome between, calendarScan engine ⟨http, headers, baseUrl⟩ bindData vectorSize fuel gstate
        state = some (outcome, between) ∧
      ∀ rows next, outcome = .ok (rows, next) → ∃ fetched chunk,
        rows = chunk.map (scanRow engine bindData columnIds) ∧
        Going columnIds base stored instant resume items fetched chunk next between ∧
        toCome instant window items fetched ≤ toCome instant window items scan ∧
        (rows.length < vectorSize → next.finished = true) := by
  obtain ⟨outcome, between, loop⟩ := scan_loop_returns engine http bindData base headers baseUrl
    full vectorSize vectorSize fuel [] gstate state (Nat.sub_le _ _) enough going.query
  refine ⟨outcome, between, loop, ?_⟩
  rintro rows next rfl
  obtain ⟨fetched, chunk, run, stands, made, short⟩ := scan_loop_run engine http headers baseUrl
    bindData columnIds (fun _ => true) base stored instant window resume (fun _ => True) service
    vectorSize fuel scan [] rows gstate next state between going.toStands loop
  obtain ⟨less, among⟩ := run_takes_work (position instant) window (fun _ => true) (fun _ => True)
    (fun _ => trivial) (fun _ _ => 0) items scan fetched [] run going.waiting going.supports
  refine ⟨fetched, chunk, made, ⟨stands, ?_, among⟩, (Nat.le_add_right _ _).trans less, short⟩
  exact run_waiting (position instant) window (fun _ => true) (fun _ => True) scan fetched [] run
    going.waiting

/-- The first page of a scan, from a finite calendar. -/
theorem opened_going
    (service : SharedService engine http bindData base stored instant window resume
      (fun _ => True))
    (defaults : DefaultWindow) (now : Int) (timeMin timeMax : Option String)
    (bounds : effectiveBounds engine bindData defaults now = .ok (timeMin, timeMax))
    (query : baseQuery timeMin timeMax = base) (items : Finset String) (state between : σ)
    (listed : ∀ id, stored state id ≠ none → id ∈ items) (gstate : CalendarScanGlobalState)
    (initialised : calendarScanInitGlobal engine ⟨http, headers, baseUrl⟩ bindData defaults now
      columnIds state = (.ok gstate, between)) :
    ∃ scan, Going columnIds base stored instant resume items scan [] gstate between ∧
      toCome instant window items scan ≤
        toCome instant window items (opening (stored state)) := by
  obtain ⟨scan, run, stands⟩ := init_run engine http headers baseUrl bindData columnIds
    (fun _ => true) base stored instant window resume (fun _ => True) service defaults now timeMin
    timeMax bounds query state between gstate initialised
  have waits := SharedScan.opening_waiting (position instant) (fun _ => True) (stored state)
  have among : Supports items (opening (P := Position) (stored state)) := by
    intro id body held
    have kept : stored state id = some body := held
    exact listed id (by simp [kept])
  obtain ⟨less, supported⟩ := run_takes_work (position instant) window (fun _ => true)
    (fun _ => True) (fun _ => trivial) (fun _ _ => 0) items _ scan [] run waits among
  refine ⟨scan, ⟨stands, ?_, supported⟩, (Nat.le_add_right _ _).trans less⟩
  exact run_waiting (position instant) window (fun _ => true) (fun _ => True) _ scan [] run waits

end Scan

/-! ## The drains -/

section Drains

variable {σ : Type} (engine : Engine) (http : IHttpClient σ) (headers : HttpHeaders)
  (baseUrl : String) (bindData : CalendarScanBindData) (base : QueryBuilder)
  (stored : σ → String → Option Json) (instant : Option Json → Int)

/-- A record beside the state changes nothing of the pages. -/
theorem recording_full (full : FullPages engine http bindData base) :
    FullPages engine (recording http) bindData base := by
  intro request token state response after json following method path executed status parsed
    tokened pending
  have outcome : (http.execute request state.1).1 = .ok response := congrArg Prod.fst executed
  exact full request token state.1 response _ json following method path (Prod.ext outcome rfl)
    status parsed tokened pending

section Delete

variable (window : Json → Bool) (resume : String → WithBot Position)
  (operator : CalendarDelete) (statement : DeleteStatement)
  (service : DeleteStatement.DeletingService engine http bindData base stored instant window resume
    (fun _ => True))
  (full : FullPages engine http bindData base)
  (table : operator.calendarId = bindData.calendarId)
  (places : ∀ row, (statement.outputs row).getD operator.rowIdIndex .null = rowId row)

include service full table places

/-- The calls of a DELETE end when there are more of them than events to come.

Induct on the number of calls: each that puts rows out consumes them. -/
theorem delete_drain_returns (vectorSize fuel calls : Nat) (enough : 2 * vectorSize + 1 ≤ fuel)
    (items : Finset String) (scan : Scan String Json Position) (gstate : CalendarScanGlobalState)
    (sinkState : CalendarDeleteGlobalSinkState) (state : σ × List Exchange)
    (going : Going statement.scanned base (fun state => stored state.1) instant resume items scan []
      gstate state)
    (less : toCome instant window items scan < calls) :
    ∃ outcome, statement.drain engine (DeleteStatement.client http headers baseUrl) bindData
      operator vectorSize fuel calls gstate sinkState state = some outcome := by
  have shared := DeleteStatement.recording_shared engine http bindData base stored instant window
    resume (fun _ => True) service.toSharedService
  induction calls generalizing scan gstate sinkState state with
  | zero => exact absurd less (Nat.not_lt_zero _)
  | succ calls ih =>
    obtain ⟨outcome, between, called, puts⟩ := call_returns engine (recording http) headers baseUrl
      bindData statement.scanned base _ instant window resume shared
      (recording_full engine http bindData base full) vectorSize fuel enough items scan gstate state
      going
    simp only [DeleteStatement.drain, DeleteStatement.client, called]
    cases outcome with
    | error error => exact ⟨_, rfl⟩
    | ok put =>
      obtain ⟨rows, next⟩ := put
      obtain ⟨fetched, chunk, rfl, stood, fewer, -⟩ := puts rows next rfl
      cases chunk with
      | nil => exact ⟨_, rfl⟩
      | cons body others =>
        have sinks := DeleteStatement.sink_run engine http headers baseUrl bindData operator
          statement base stored instant window resume (fun _ => True) service table places
          (body :: others) fetched next between sinkState stood.toStands stood.waiting
        simp only [List.map_cons] at sinks ⊢
        split
        · exact ⟨_, rfl⟩
        · rename_i sunk final outcome
          rw [outcome] at sinks
          obtain ⟨consumed, handled, run, -, -, stands⟩ := sinks
          obtain ⟨goes, taken⟩ := consumed_less statement.scanned _ base _ instant window resume
            items fetched consumed (body :: others) handled next between final stood run
            (stands rfl)
          rw [List.length_cons] at taken
          exact ih consumed next sunk final goes (by omega)

/-- A DELETE ends on a finite calendar. -/
theorem delete_returns (defaults : DefaultWindow) (now : Int) (timeMin timeMax : Option String)
    (bounds : effectiveBounds engine bindData defaults now = .ok (timeMin, timeMax))
    (query : baseQuery timeMin timeMax = base) (vectorSize : Nat) (state : σ)
    (finite : {id | stored state id ≠ none}.Finite) :
    ∃ enough, ∀ fuel calls, enough ≤ fuel → enough ≤ calls → ∃ outcome,
      statement.run engine (DeleteStatement.client http headers baseUrl) bindData operator defaults
        now vectorSize fuel calls (state, []) = some outcome := by
  let items := finite.toFinset
  let amount := toCome instant window items (opening (stored state))
  refine ⟨2 * vectorSize + 1 + (amount + 1), fun fuel calls fuelled called => ?_⟩
  simp only [DeleteStatement.run]
  split
  · exact ⟨_, rfl⟩
  · rename_i gstate between initialised
    obtain ⟨scan, going, less⟩ := opened_going engine (recording http) headers baseUrl bindData
      statement.scanned base (fun state => stored state.1) instant window resume
      (DeleteStatement.recording_shared engine http bindData base stored instant window resume
        (fun _ => True) service.toSharedService)
      defaults now timeMin timeMax bounds query items (state, []) between
      (fun id kept => finite.mem_toFinset.mpr kept) gstate initialised
    exact delete_drain_returns engine http headers baseUrl bindData base stored instant window
      resume operator statement service full table places vectorSize fuel calls (by omega) items
      scan gstate {} between going (lt_of_le_of_lt less (show amount < calls by omega))

end Delete

/-- A scan that has finished puts nothing out and stays finished. -/
theorem finished_stays (client : GoogleCalendarClient σ) (vectorSize fuel : Nat)
    (positive : 0 < fuel) (gstate : CalendarScanGlobalState) (state : σ)
    (finished : gstate.finished = true) :
    calendarScan engine client bindData vectorSize fuel gstate state =
      some (.ok ([], gstate), state) := by
  obtain ⟨fuel, rfl⟩ : ∃ less, fuel = less + 1 := ⟨fuel - 1, by omega⟩
  simp [calendarScan, scanLoop, finished]

section Select

variable (window : Json → Bool) (resume : String → WithBot Position) (columnIds : List ColumnId)
  (service : SharedService engine http bindData base stored instant window resume
    (fun _ => True))
  (full : FullPages engine http bindData base)

include service full

/-- More calls than there are events to come finish a scan, or fail. By induction on the number of
calls: one that falls short of a vector finishes the scan, and any other takes events away. -/
theorem select_calls_return (vectorSize fuel calls : Nat) (positive : 0 < vectorSize)
    (enough : 2 * vectorSize + 1 ≤ fuel) (items : Finset String)
    (scan : Scan String Json Position) (gstate : CalendarScanGlobalState) (state : σ)
    (going : Going columnIds base stored instant resume items scan [] gstate state) :
    ∃ outcome after, ScanPages.scanCalls engine ⟨http, headers, baseUrl⟩ bindData vectorSize fuel
        calls gstate state = some (outcome, after) ∧
      ∀ chunks last, outcome = .ok (chunks, last) →
        (toCome instant window items scan < calls ∨ gstate.finished = true) →
        last.finished = true := by
  induction calls generalizing scan gstate state with
  | zero =>
    refine ⟨_, _, rfl, ?_⟩
    rintro chunks last same (less | finished)
    · exact absurd less (Nat.not_lt_zero _)
    · obtain ⟨-, rfl⟩ := Prod.mk.inj (Except.ok.inj same)
      exact finished
  | succ calls ih =>
    obtain ⟨outcome, between, called, puts⟩ := call_returns engine http headers baseUrl bindData
      columnIds base stored instant window resume service full vectorSize fuel enough items scan
      gstate state going
    simp only [ScanPages.scanCalls, called]
    cases outcome with
    | error error => exact ⟨_, _, rfl, fun _ _ same => by cases same⟩
    | ok put =>
      obtain ⟨rows, next⟩ := put
      obtain ⟨fetched, chunk, made, stood, fewer, short⟩ := puts rows next rfl
      obtain ⟨consumed, handled, run, stands, -⟩ := emit_run columnIds (fun _ => true) base stored
        instant window resume (fun _ => True) (fun _ => rfl) chunk fetched next between
        stood.toStands
      obtain ⟨goes, taken⟩ := consumed_less columnIds (fun _ => true) base stored instant window
        resume items fetched consumed chunk handled next between between stood run stands
      obtain ⟨outcome, after, others, finishes⟩ := ih consumed next between goes
      simp only [others]
      cases outcome with
      | error error => exact ⟨_, _, rfl, fun _ _ same => by cases same⟩
      | ok ended =>
        obtain ⟨chunks, last⟩ := ended
        refine ⟨_, _, rfl, ?_⟩
        rintro all final same due
        obtain ⟨-, rfl⟩ := Prod.mk.inj (Except.ok.inj same)
        apply finishes chunks last rfl
        rcases due with less | finished
        · have length : rows.length = chunk.length := by rw [made, List.length_map]
          by_cases falls : rows.length < vectorSize
          · exact .inr (short falls)
          · exact .inl (by omega)
        · rw [finished_stays engine bindData _ vectorSize fuel (by omega) gstate state finished]
            at called
          obtain ⟨same, -⟩ := Prod.mk.inj (Option.some.inj called)
          obtain ⟨-, rfl⟩ := Prod.mk.inj (Except.ok.inj same)
          exact .inr finished

end Select

section Copy

variable (calendars : String → σ → String → Option Json) (lives : σ → String → Prop)
  (reaches : QueryBuilder → Cells → Bool) (resume : QueryBuilder → String → WithBot Position)
  (service : CalendarsService engine http calendars lives instant reaches resume)
  (operator : CalendarInsert) (source : String) (other : source ≠ operator.calendarId)
  (here : bindData.calendarId = source) (full : FullPages engine http bindData base)

include service other here full

/-- The calls of a query whose rows are inserted into another calendar end when there are more of
them than events to come. By induction on their number, as for a DELETE. -/
theorem copy_drain_returns (query : RowQuery) (vectorSize fuel calls : Nat)
    (enough : 2 * vectorSize + 1 ≤ fuel) (items : Finset String)
    (scan : Scan String Json Position) (gstate : CalendarScanGlobalState)
    (sinkState : CalendarInsertGlobalSinkState) (state : σ)
    (going : Going query.columnIds base (calendars source) instant (resume base) items scan []
      gstate state)
    (less : toCome instant (window engine source reaches base) items scan < calls) :
    ∃ outcome, query.drain engine ⟨http, headers, baseUrl⟩ bindData operator vectorSize fuel calls
      gstate sinkState state = some outcome := by
  have shared := (deleting_service engine http source (calendars source) instant reaches resume
    (service.each source) bindData here base).toSharedService
  induction calls generalizing scan gstate sinkState state with
  | zero => exact absurd less (Nat.not_lt_zero _)
  | succ calls ih =>
    obtain ⟨outcome, between, called, puts⟩ := call_returns engine http headers baseUrl bindData
      query.columnIds base (calendars source) instant _ (resume base) shared full vectorSize fuel
      enough items scan gstate state going
    simp only [RowQuery.drain, called]
    cases outcome with
    | error error => exact ⟨_, rfl⟩
    | ok put =>
      obtain ⟨rows, next⟩ := put
      obtain ⟨fetched, chunk, rfl, stood, fewer, -⟩ := puts rows next rfl
      obtain ⟨consumed, handled, run, emptied, -⟩ := emit_run query.columnIds (fun _ => true) base
        (calendars source) instant (window engine source reaches base) (resume base) (fun _ => True)
        (fun _ => rfl) chunk fetched next between stood.toStands
      cases chunk with
      | nil => exact ⟨_, rfl⟩
      | cons body others =>
        have kept := StatementFrames.insert_sink_keeps engine ⟨http, headers, baseUrl⟩
          operator.calendarId _ (events_frame engine http calendars lives instant reaches resume
            service operator.calendarId) operator rfl (((body :: others).map
            (scanRow engine bindData query.columnIds)).filterMap query.project) sinkState between
          source other
        simp only [List.map_cons] at kept ⊢
        split
        · exact ⟨_, rfl⟩
        · rename_i sunk final inserted
          rw [inserted] at kept
          obtain ⟨goes, taken⟩ := consumed_less query.columnIds (fun _ => true) base
            (calendars source) instant (window engine source reaches base) (resume base) items
            fetched consumed (body :: others) handled next between final stood run
            { emptied with held := emptied.held.trans kept.symm }
          rw [List.length_cons] at taken
          exact ih consumed next sunk final goes (by omega)

/-- The rows of a finite calendar are all inserted into another one, unless one of them fails. -/
theorem copy_returns (query : RowQuery) (defaults : DefaultWindow) (now : Int)
    (timeMin timeMax : Option String)
    (bounds : effectiveBounds engine bindData defaults now = .ok (timeMin, timeMax))
    (same : baseQuery timeMin timeMax = base) (vectorSize : Nat) (state : σ)
    (finite : {id | calendars source state id ≠ none}.Finite) :
    ∃ enough, ∀ fuel calls, enough ≤ fuel → enough ≤ calls → ∃ outcome,
      query.insert engine ⟨http, headers, baseUrl⟩ bindData operator defaults now vectorSize fuel
        calls state = some outcome := by
  let items := finite.toFinset
  let amount := toCome instant (window engine source reaches base) items
    (opening (calendars source state))
  refine ⟨2 * vectorSize + 1 + (amount + 1), fun fuel calls fuelled called => ?_⟩
  simp only [RowQuery.insert]
  split
  · exact ⟨_, rfl⟩
  · rename_i gstate between initialised
    obtain ⟨scan, going, less⟩ := opened_going engine http headers baseUrl bindData query.columnIds
      base (calendars source) instant _ (resume base)
      (deleting_service engine http source (calendars source) instant reaches resume
        (service.each source) bindData here base).toSharedService
      defaults now timeMin timeMax bounds same items state between
      (fun id kept => finite.mem_toFinset.mpr kept) gstate initialised
    exact copy_drain_returns engine http headers baseUrl bindData base instant calendars lives
      reaches resume service operator source other here full query vectorSize fuel calls (by omega)
      items scan gstate {} between going (lt_of_le_of_lt less (show amount < calls by omega))

end Copy

end Drains

/-! ## Statements on a table -/

/-- An UPDATE leaves the start of its events alone. -/
def StartsStay : TableStatement → Prop
  | .update _ _ operator _ => UpdateOnce.LeavesStart operator
  | _ => True

section Table

variable {σ : Type} (engine : Engine) (http : IHttpClient σ) (headers : HttpHeaders)
  (baseUrl : String) (calendarId : String) (stored : σ → String → Option Json)
  (instant : Option Json → Int) (reaches : QueryBuilder → Cells → Bool)
  (resume : QueryBuilder → String → WithBot Position) (defaults : DefaultWindow)
  (vectorSize : Nat)
  (service : TableService engine http calendarId stored instant reaches resume)
  (full : ∀ bindData base, bindData.calendarId = calendarId → FullPages engine http bindData base)
  (state : σ) (finite : {id | stored state id ≠ none}.Finite)

include service full finite

/-- A SELECT ends. -/
theorem select_ends (positive : 0 < vectorSize) (now : Int) (bindData : CalendarScanBindData)
    (columnIds : List ColumnId) (here : bindData.calendarId = calendarId) :
    ∃ enough, ∀ fuel calls, enough ≤ fuel → enough ≤ calls → ∃ ended,
      (TableStatement.select now bindData columnIds).perform engine http headers baseUrl defaults
        vectorSize fuel calls state = some ended := by
  cases bounds : effectiveBounds engine bindData defaults now with
  | error error =>
    refine ⟨0, fun fuel calls _ _ => ?_⟩
    simp only [TableStatement.perform, calendarScanInitGlobal, bounds]
    exact ⟨_, rfl⟩
  | ok range =>
    obtain ⟨timeMin, timeMax⟩ := range
    let base := baseQuery timeMin timeMax
    have shared := (deleting_service engine http calendarId stored instant reaches resume service
      bindData here base).toSharedService
    let items := finite.toFinset
    let amount := toCome instant (window engine calendarId reaches base) items
      (opening (stored state))
    refine ⟨2 * vectorSize + 1 + (amount + 1), fun fuel calls fuelled called => ?_⟩
    simp only [TableStatement.perform]
    split
    · exact ⟨_, rfl⟩
    · rename_i gstate first initialised
      obtain ⟨scan, going, less⟩ := opened_going engine http headers baseUrl bindData columnIds base
        stored instant _ (resume base) shared defaults now timeMin timeMax bounds rfl items state
        first (fun id kept => finite.mem_toFinset.mpr kept) gstate initialised
      obtain ⟨outcome, after, calls, finishes⟩ := select_calls_return engine http headers baseUrl
        bindData base stored instant _ (resume base) columnIds shared (full bindData base here)
        vectorSize fuel calls positive (by omega) items scan gstate first going
      rw [calls]
      cases outcome with
      | error error => exact ⟨_, rfl⟩
      | ok put =>
        obtain ⟨chunks, last⟩ := put
        have finished := finishes chunks last rfl
          (.inl (lt_of_le_of_lt less (show amount < _ by omega)))
        simp only [finished, if_true]
        exact ⟨_, rfl⟩

/-- An UPDATE that leaves the start alone ends. -/
theorem update_ends (now : Int) (bindData : CalendarScanBindData) (operator : CalendarUpdate)
    (statement : UpdateStatement) (here : bindData.calendarId = calendarId)
    (there : operator.calendarId = calendarId) (stays : UpdateOnce.LeavesStart operator) :
    ∃ enough, ∀ fuel calls, enough ≤ fuel → enough ≤ calls → ∃ ended,
      (TableStatement.update now bindData operator statement).perform engine http headers baseUrl
        defaults vectorSize fuel calls state = some ended := by
  cases bounds : effectiveBounds engine bindData defaults now with
  | error error =>
    refine ⟨0, fun fuel calls _ _ => ?_⟩
    simp only [TableStatement.perform, UpdateStatement.run, calendarScanInitGlobal, bounds]
    exact ⟨_, rfl⟩
  | ok range =>
    obtain ⟨timeMin, timeMax⟩ := range
    let base := baseQuery timeMin timeMax
    have ordered := ordered_service engine http calendarId stored instant reaches resume service
      bindData here base
    obtain ⟨enough, returns⟩ := UpdateOnce.statement_returns engine (recording http) headers baseUrl
      bindData operator statement base stored instant _ _
      (UpdateOnce.calls_recorded engine bindData base stored instant _ _ http ordered)
      (recording_full engine http bindData base (full bindData base here)) (there.trans here.symm) _
      (UpdateOnce.unwritten_falls engine operator instant _ stays) defaults now timeMin timeMax
      bounds rfl vectorSize state finite
    refine ⟨enough, fun fuel calls fuelled called => ?_⟩
    obtain ⟨outcome, after, ran⟩ := returns fuel calls fuelled called
    simp only [TableStatement.perform, ran]
    cases outcome with
    | error error => exact ⟨_, rfl⟩
    | ok sunk => exact ⟨_, rfl⟩

/-- A DELETE ends. -/
theorem delete_ends (now : Int) (bindData : CalendarScanBindData) (operator : CalendarDelete)
    (statement : DeleteStatement) (here : bindData.calendarId = calendarId)
    (there : operator.calendarId = calendarId)
    (places : ∀ row, (statement.outputs row).getD operator.rowIdIndex .null = rowId row) :
    ∃ enough, ∀ fuel calls, enough ≤ fuel → enough ≤ calls → ∃ ended,
      (TableStatement.delete now bindData operator statement).perform engine http headers baseUrl
        defaults vectorSize fuel calls state = some ended := by
  cases bounds : effectiveBounds engine bindData defaults now with
  | error error =>
    refine ⟨0, fun fuel calls _ _ => ?_⟩
    simp only [TableStatement.perform, DeleteStatement.run, calendarScanInitGlobal, bounds]
    exact ⟨_, rfl⟩
  | ok range =>
    obtain ⟨timeMin, timeMax⟩ := range
    let base := baseQuery timeMin timeMax
    have deleting := deleting_service engine http calendarId stored instant reaches resume service
      bindData here base
    obtain ⟨enough, returns⟩ := delete_returns engine http headers baseUrl bindData base stored
      instant _ _ operator statement deleting (full bindData base here) (there.trans here.symm)
      places defaults now timeMin timeMax bounds rfl vectorSize state finite
    refine ⟨enough, fun fuel calls fuelled called => ?_⟩
    obtain ⟨⟨outcome, sunk, after⟩, ran⟩ := returns fuel calls fuelled called
    simp only [TableStatement.perform, ran]
    cases outcome with
    | error error => exact ⟨_, rfl⟩
    | ok done => exact ⟨_, rfl⟩

/-- Every statement on a finite calendar ends, unless it is an UPDATE that writes the start. -/
theorem statement_ends (positive : 0 < vectorSize) (statement : TableStatement)
    (proper : statement.Proper engine calendarId) (stays : StartsStay statement) :
    ∃ enough, ∀ fuel calls, enough ≤ fuel → enough ≤ calls → ∃ ended,
      statement.perform engine http headers baseUrl defaults vectorSize fuel calls state =
        some ended := by
  cases statement with
  | select now bindData columnIds =>
    exact select_ends engine http headers baseUrl calendarId stored instant reaches resume defaults
      vectorSize service full state finite positive now bindData columnIds proper
  | insert operator rows =>
    refine ⟨0, fun fuel calls _ _ => ?_⟩
    simp only [TableStatement.perform]
    split
    · exact ⟨_, rfl⟩
    · exact ⟨_, rfl⟩
  | update now bindData operator statement =>
    exact update_ends engine http headers baseUrl calendarId stored instant reaches resume defaults
      vectorSize service full state finite now bindData operator statement proper.1 proper.2.1 stays
  | delete now bindData operator statement =>
    exact delete_ends engine http headers baseUrl calendarId stored instant reaches resume defaults
      vectorSize service full state finite now bindData operator statement proper.1 proper.2.1
      proper.2.2

end Table

/-! ## Statements on a database -/

/-- No UPDATE of the database writes the start of its events. -/
def DatabaseStartsStay : DatabaseStatement → Prop
  | .onTable _ statement => ∀ calendarId, StartsStay (plannedFor calendarId statement)
  | _ => True

section Database

variable {σ : Type} (engine : Engine) (http : IHttpClient σ)
  (stored : String → σ → String → Option Json) (used : σ → String → Prop)
  (instant : Option Json → Int) (reaches : QueryBuilder → Cells → Bool)
  (resume : QueryBuilder → String → WithBot Position) (headers : HttpHeaders) (baseUrl : String)
  (defaults : DefaultWindow) (vectorSize : Nat)
  (service : AttachedService engine http stored used instant reaches resume)
  (full : ∀ bindData base, FullPages engine http bindData base)
  (catalog : CalendarCatalog) (state : σ) (mounted : Mounted used (catalog, state))
  (finite : ∀ calendarId, {id | stored calendarId state id ≠ none}.Finite)

include service full mounted finite

/-- A CREATE TABLE ... AS FROM ends: its rows go to a calendar that is not the one it reads. -/
theorem create_ends (orReplace : Bool) (name source : String) (columns : List ColumnDefinition)
    (now : Int) (bindData : CalendarScanBindData) (predicate : List Value → Bool) :
    ∃ enough, ∀ fuel calls, enough ≤ fuel → enough ≤ calls → ∃ ended,
      (DatabaseStatement.createTableAs orReplace name source columns now bindData predicate).perform
        engine http headers baseUrl defaults vectorSize fuel calls catalog state = some ended := by
  simp only [DatabaseStatement.perform]
  by_cases taken : (!orReplace && catalog.tables.contains name) = true
  · simp only [taken, if_true]
    exact ⟨0, fun _ _ _ _ => ⟨_, rfl⟩⟩
  simp only [taken]
  cases found : catalog.tables.find source with
  | none => exact ⟨0, fun _ _ _ _ => ⟨_, rfl⟩⟩
  | some entry =>
    simp only [RowQuery.createTableAs]
    cases plan : CalendarCatalog.planCreateTableAs engine ⟨http, headers, baseUrl⟩ catalog name
        columns state with
    | mk result rest =>
      obtain ⟨next, planned⟩ := rest
      cases result with
      | error error => exact ⟨0, fun _ _ _ _ => ⟨_, rfl⟩⟩
      | ok operator =>
        have there := mounted source entry found
        obtain ⟨fresh, -, -, kept⟩ := plan_fresh engine http stored used instant reaches resume
          service catalog state planned headers baseUrl name columns operator next plan
        have apart : entry.calendarId ≠ operator.calendarId := fun equal => fresh (equal ▸ there)
        have held := finite entry.calendarId
        rw [← (kept entry.calendarId there).1] at held
        cases bounds :
          effectiveBounds engine (sourceScan bindData entry.calendarId) defaults now with
        | error error =>
          simp only [RowQuery.insert, calendarScanInitGlobal, bounds]
          exact ⟨0, fun _ _ _ _ => ⟨_, rfl⟩⟩
        | ok range =>
          obtain ⟨timeMin, timeMax⟩ := range
          obtain ⟨enough, returns⟩ := copy_returns engine http headers baseUrl
            (sourceScan bindData entry.calendarId) (baseQuery timeMin timeMax) instant stored used
            reaches resume service.toCalendarsService operator entry.calendarId apart rfl
            (full _ _) (.fromCalendar predicate) defaults now timeMin timeMax bounds rfl vectorSize
            planned held
          refine ⟨enough, fun fuel calls fuelled called => ?_⟩
          obtain ⟨outcome, inserts⟩ := returns fuel calls fuelled called
          simp only [inserts, Option.map_some]
          exact ⟨_, rfl⟩

/-- Every statement of a session ends while the calendars are finite, unless it is an UPDATE that
writes the start. -/
theorem database_statement_ends (positive : 0 < vectorSize) (statement : DatabaseStatement)
    (proper : statement.Proper engine) (stays : DatabaseStartsStay statement) :
    ∃ enough, ∀ fuel calls, enough ≤ fuel → enough ≤ calls → ∃ ended,
      statement.perform engine http headers baseUrl defaults vectorSize fuel calls catalog state =
        some ended := by
  cases statement with
  | onTable name statement =>
    simp only [DatabaseStatement.perform]
    cases found : catalog.tables.find name with
    | none => exact ⟨0, fun _ _ _ _ => ⟨_, rfl⟩⟩
    | some entry =>
      obtain ⟨enough, returns⟩ := statement_ends engine http headers baseUrl entry.calendarId
        (stored entry.calendarId) instant reaches resume defaults vectorSize
        (service.each entry.calendarId) (fun bindData base _ => full bindData base) state
        (finite entry.calendarId) positive _ (proper entry.calendarId) (stays entry.calendarId)
      refine ⟨enough, fun fuel calls fuelled called => ?_⟩
      obtain ⟨ended, ran⟩ := returns fuel calls fuelled called
      simp only [ran, Option.map_some]
      exact ⟨_, rfl⟩
  | createTableAs orReplace name source columns now bindData predicate =>
    exact create_ends engine http stored used instant reaches resume headers baseUrl defaults
      vectorSize service full catalog state mounted finite orReplace name source columns now
      bindData predicate
  | dropTable info => exact ⟨0, fun _ _ _ _ => ⟨_, rfl⟩⟩

end Database

end GoogleCalendar.StatementEnds
