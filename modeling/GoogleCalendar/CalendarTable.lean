import GoogleCalendar.ShownRows
import GoogleCalendar.DeleteStatement
import GoogleCalendar.Library.CursorChanges

/-!
# A calendar as a table

SELECT, INSERT, UPDATE and DELETE run one after another against a service that nobody
else writes to. A scan goes through pages, an UPDATE gets and puts bodies while it is
still listing, an INSERT turns a conflict into a PUT, but all that a session can see
is a table of rows under their ids: each statement that finishes amounts to its SQL
command on that table, and what it reports is about the rows that the command is about.

A statement reaches the rows of its time window. An UPDATE may SET the start and so
move an event to a page still to come; what it makes of a row that it has changed and
that it wants again must then be that row.
-/

namespace GoogleCalendar.CalendarTable

open Library CalendarScan CursorScan EventListing SharedScan SharedListing Exchanges KeyedTable
  EventMapping ShownRows RowRoundTrip
open CalendarUpdate (rowId)

section Service

variable {σ : Type} (engine : Engine) (http : IHttpClient σ) (calendarId : String)
  (stored : σ → String → Option Json) (instant : Option Json → Int)
  (reaches : QueryBuilder → Cells → Bool) (resume : QueryBuilder → String → WithBot Position)

/-- The service of one calendar that nobody else writes to. It lists the events that a query
reaches by the rows they show, in pages of any size, and a GET writes nothing. A POST with a
new id or a PUT that is answered with 200 has stored its body, and a DELETE that is accepted
has removed its event; one that is answered with an error may have done so. -/
structure TableService : Prop where
  identified : ∀ state id body, stored state id = some body → Identified id body
  starts : ∀ base, resume base "" = ⊥
  reads : ∀ request state, request.method = .get →
    stored (http.execute request state).2 = stored state
  lists : ∀ base request token state response after json following, request.method = .get →
    request.path = .listEvents calendarId ⟨base, token⟩ →
    http.execute request state = (.ok response, after) → response.statusCode = 200 →
    engine.parse response.body = some json →
    json.valueOr "nextPageToken" "" Json.getString = .ok following →
    ∃ page, responseItems json = page.map Prod.snd ∧
      Page (position instant) (fun body => reaches base (shown engine calendarId body))
        (stored state) (resume base token) page (following ≠ "") ∧
      (following ≠ "" →
        resume base following = cursorAfter (position instant) (resume base token) page)
  gets : ∀ request id state response after json, request.method = .get →
    request.path = .event calendarId id →
    http.execute request state = (.ok response, after) → response.statusCode = 200 →
    engine.parse response.body = some json → stored state id = some json
  posts : ∀ request id body state, request.method = .post → request.path = .events calendarId →
    request.body = some body → body.find "id" = some (.string id) →
    (stored (http.execute request state).2 = stored state ∨
      stored (http.execute request state).2 = Function.update (stored state) id (some body)) ∧
    ∀ response, (http.execute request state).1 = .ok response → response.statusCode = 200 →
      stored (http.execute request state).2 = Function.update (stored state) id (some body)
  puts : ∀ request id body state response after, request.method = .put →
    request.path = .event calendarId id → request.body = some body →
    body.find "id" = some (.string id) →
    http.execute request state = (.ok response, after) → response.statusCode = 200 →
    stored after = Function.update (stored state) id (some body)
  deletes : ∀ request id state, request.method = .del → request.path = .event calendarId id →
    (stored (http.execute request state).2 = stored state ∨
      stored (http.execute request state).2 = Function.update (stored state) id none) ∧
    ∀ response, (http.execute request state).1 = .ok response →
      response.statusCode = 200 ∨ response.statusCode = 204 →
      stored (http.execute request state).2 = Function.update (stored state) id none

variable (service : TableService engine http calendarId stored instant reaches resume)
  (bindData : CalendarScanBindData) (here : bindData.calendarId = calendarId) (base : QueryBuilder)

/-- The events that a query reaches. -/
abbrev window (body : Json) : Bool := reaches base (shown engine calendarId body)

include service here

/-- A calendar's service lists its events in order, and updates them. -/
theorem ordered_service : OrderedService engine http bindData base stored instant
    (window engine calendarId reaches base) (resume base) where
  identified := service.identified
  starts := service.starts base
  lists request token state response after json following method path executed status parsed
      tokened := by
    have unchanged := service.reads request state method
    rw [executed] at unchanged
    exact ⟨unchanged, service.lists base request token state response after json following method
      (here ▸ path) executed status parsed tokened⟩
  gets request id state response after json method path executed status parsed := by
    have unchanged := service.reads request state method
    rw [executed] at unchanged
    exact ⟨unchanged, service.gets request id state response after json method (here ▸ path)
      executed status parsed⟩
  puts request id body state response after method path sent carries executed status :=
    service.puts request id body state response after method (here ▸ path) sent carries executed
      status

/-- A calendar's service deletes its events too. -/
theorem deleting_service : DeleteStatement.DeletingService engine http bindData base stored instant
    (window engine calendarId reaches base) (resume base) (fun _ => True) where
  starts := service.starts base
  reads request state method id _ := by rw [service.reads request state method]
  lists request token state response after json following method path executed status parsed
      tokened := by
    have unchanged := service.reads request state method
    rw [executed] at unchanged
    refine ⟨stored state, agrees_refl _ _, fun id _ => by rw [unchanged],
      service.identified state, ?_⟩
    exact service.lists base request token state response after json following method (here ▸ path)
      executed status parsed tokened
  gets request id state response after json _ method path executed status parsed :=
    service.gets request id state response after json method (here ▸ path) executed status parsed
  deletes request id state method path := by
    obtain ⟨either, accepted⟩ := service.deletes request id state method (here ▸ path)
    refine ⟨fun other _ apart => ?_, fun _ => ?_, fun response answered status _ => ?_⟩
    · rcases either with same | gone
      · rw [same]
      · rw [gone, Function.update_of_ne apart]
    · rcases either with same | gone
      · exact .inr (by rw [same])
      · exact .inl (by rw [gone, Function.update_self])
    · rw [accepted response answered status, Function.update_self]

end Service

/-! ## Statements -/

/-- A statement with the time it starts at. The rows of an INSERT are those of its chunks, one
after another. -/
inductive TableStatement where
  | select (now : Int) (bindData : CalendarScanBindData) (columnIds : List ColumnId)
  | insert (operator : CalendarInsert) (rows : List (List Value))
  | update (now : Int) (bindData : CalendarScanBindData) (operator : CalendarUpdate)
      (statement : UpdateStatement)
  | delete (now : Int) (bindData : CalendarScanBindData) (operator : CalendarDelete)
      (statement : DeleteStatement)

/-- What a statement reports: the rows of a SELECT, or how many rows it wrote. -/
inductive Report where
  | rows (rows : List (List Value))
  | count (rows : Nat)
  deriving DecidableEq

section Meaning

variable (engine : Engine) (calendarId : String) (reaches : QueryBuilder → Cells → Bool)
  (defaults : DefaultWindow)

/-- The value of a scanned column in a row. -/
def cellOf (bindData : CalendarScanBindData) (cells : Cells) : ColumnId → Value
  | .rowId => cells "event_id"
  | .schema index => cells (bindData.names.getD index "")

/-- The scanned columns of a row. -/
def scannedCells (bindData : CalendarScanBindData) (columnIds : List ColumnId) (cells : Cells) :
    List Value :=
  columnIds.map (cellOf bindData cells)

/-- The rows of a statement: those its query reaches that satisfy the predicate. -/
def wantedBy (now : Int) (bindData : CalendarScanBindData) (predicate : Cells → Bool)
    (cells : Cells) : Bool :=
  match effectiveBounds engine bindData defaults now with
  | .ok (timeMin, timeMax) => reaches (baseQuery timeMin timeMax) cells && predicate cells
  | .error _ => false

/-- The SET list that an UPDATE computes for a row. -/
def setsOf (bindData : CalendarScanBindData) (operator : CalendarUpdate)
    (statement : UpdateStatement) (cells : Cells) : List (String × Value) :=
  let row := scannedCells bindData statement.scanned cells
  operator.setColumns (statement.expressions row ++ [rowId row])

/-- The row that an UPDATE makes of a row. -/
def updated (bindData : CalendarScanBindData) (operator : CalendarUpdate)
    (statement : UpdateStatement) (cells : Cells) : Cells :=
  assigned engine (setsOf bindData operator statement cells) cells

/-- The id and the row that an INSERT makes of its values. -/
def insertedEntry (operator : CalendarInsert) (row : List Value) : String × Cells :=
  ((rowValue operator.names row "event_id").toText engine,
    inserted engine calendarId (rowValue operator.names row))

/-- What a statement means for a table. -/
def TableStatement.command : TableStatement → Command String Cells
  | .select now bindData _ =>
      .select (wantedBy engine reaches defaults now bindData (fun _ => true))
  | .insert operator rows => .upsert (rows.map (insertedEntry engine calendarId operator))
  | .update now bindData operator statement =>
      .update (wantedBy engine reaches defaults now bindData
          (fun cells => statement.predicate (scannedCells bindData statement.scanned cells)))
        (updated engine bindData operator statement)
  | .delete now bindData _ statement =>
      .delete (wantedBy engine reaches defaults now bindData
        (fun cells => statement.predicate (scannedCells bindData statement.scanned cells)))

/-- What a report says of the rows that a statement is about. An UPDATE counts a row again that
it moves ahead of its scan, which it does not when it leaves the start alone. -/
def TableStatement.Tells : TableStatement → Report → List (String × Cells) → Prop
  | .select _ bindData columnIds, .rows rows, about =>
      rows = about.map (fun entry => scannedCells bindData columnIds entry.2)
  | .insert _ _, .count rows, about => rows = about.length
  | .update _ _ operator _, .count rows, about =>
      about.length ≤ rows ∧
        ((∀ column ∈ operator.columns,
          "start" ∉ ColumnCells.touchedKeys (operator.names.getD column "")) → rows = about.length)
  | .delete _ _ _ _, .count rows, about => rows = about.length
  | _, _, _ => False

/-- Statements on the calendar whose values have the types of their columns. An INSERT gives
every row an id. An UPDATE that wants a row that it has changed leaves it the second time. -/
def TableStatement.Proper : TableStatement → Prop
  | .select _ bindData _ => bindData.calendarId = calendarId
  | .insert operator rows => operator.calendarId = calendarId ∧ operator.names.Nodup ∧
      ∀ row ∈ rows, (∃ id, rowValue operator.names row "event_id" = .varchar id) ∧
        ∀ name, Typed name (rowValue operator.names row name)
  | .update _ bindData operator statement => bindData.calendarId = calendarId ∧
      operator.calendarId = calendarId ∧
      ∀ cells, statement.predicate (scannedCells bindData statement.scanned cells) = true →
        Settable (setsOf bindData operator statement cells) ∧
        (statement.predicate (scannedCells bindData statement.scanned
            (updated engine bindData operator statement cells)) = true →
          updated engine bindData operator statement
              (updated engine bindData operator statement cells) =
            updated engine bindData operator statement cells)
  | .delete _ bindData operator statement => bindData.calendarId = calendarId ∧
      operator.calendarId = calendarId ∧
      ∀ row, (statement.outputs row).getD operator.rowIdIndex .null = rowId row

end Meaning

section Runs

variable {σ : Type} (engine : Engine) (http : IHttpClient σ) (headers : HttpHeaders)
  (baseUrl : String) (defaults : DefaultWindow) (vectorSize : Nat)

/-- A statement run to its end, unless the fuel runs out. An UPDATE and a DELETE keep a record
of their requests. -/
def TableStatement.perform (fuel calls : Nat) :
    TableStatement → σ → Option (Except Exception Report × σ)
  | .select now bindData columnIds, state =>
    match calendarScanInitGlobal engine ⟨http, headers, baseUrl⟩ bindData defaults now columnIds
        state with
    | (.error error, after) => some (.error error, after)
    | (.ok gstate, first) =>
      match ScanPages.scanCalls engine ⟨http, headers, baseUrl⟩ bindData vectorSize fuel calls
          gstate first with
      | none => none
      | some (.error error, after) => some (.error error, after)
      | some (.ok (chunks, last), after) =>
          if last.finished then some (.ok (.rows chunks.flatten), after) else none
  | .insert operator rows, state =>
    match CalendarInsert.sink engine ⟨http, headers, baseUrl⟩ operator rows {} state with
    | (.error error, _, after) => some (.error error, after)
    | (.ok (), sunk, after) => some (.ok (.count sunk.insertCount), after)
  | .update now bindData operator statement, state =>
    match statement.run engine ⟨recording http, headers, baseUrl⟩ bindData operator defaults now
        vectorSize fuel calls (state, []) with
    | none => none
    | some (.error error, after) => some (.error error, after.1)
    | some (.ok sunk, after) => some (.ok (.count sunk.updateCount), after.1)
  | .delete now bindData operator statement, state =>
    match statement.run engine ⟨recording http, headers, baseUrl⟩ bindData operator defaults now
        vectorSize fuel calls (state, []) with
    | none => none
    | some (.error error, _, after) => some (.error error, after.1)
    | some (.ok (), sunk, after) => some (.ok (.count sunk.deleteCount), after.1)

/-- A statement that finishes without an error, and what it reports. -/
def Performs (state : σ) (statement : TableStatement) (report : Report) (after : σ) : Prop :=
  ∃ fuel calls, statement.perform engine http headers baseUrl defaults vectorSize fuel calls state =
    some (.ok report, after)

end Runs

/-! ## What each statement amounts to -/

section Statements

variable {σ : Type} (engine : Engine) (http : IHttpClient σ) (headers : HttpHeaders)
  (baseUrl : String) (calendarId : String) (stored : σ → String → Option Json)
  (instant : Option Json → Int) (reaches : QueryBuilder → Cells → Bool)
  (resume : QueryBuilder → String → WithBot Position) (defaults : DefaultWindow)
  (vectorSize : Nat)
  (service : TableService engine http calendarId stored instant reaches resume)

/-- The table that a session sees. -/
def table (state : σ) : Table String Cells := seen (shown engine calendarId) (stored state)

/-- The scanned row of an event is cells of its shown row. -/
theorem scanned_shown (bindData : CalendarScanBindData) (here : bindData.calendarId = calendarId)
    (columnIds : List ColumnId) (body : Json) :
    scanRow engine bindData columnIds body =
      scannedCells bindData columnIds (shown engine calendarId body) := by
  apply List.map_congr_left
  intro column _
  cases column with
  | rowId => rfl
  | schema index =>
    change columnValue engine body bindData.calendarId _ = _
    rw [here]
    rfl

include service

/-- A body that is created with an id is stored under it, also when a conflict is turned into a
PUT. -/
theorem created_stored (operator : CalendarInsert) (here : operator.calendarId = calendarId)
    (event : Json) (id : String) (identified : event.find "id" = some (.string id))
    (state after : σ) (created : Json)
    (ran : CalendarInsert.createEvent engine ⟨http, headers, baseUrl⟩ operator event state =
      (.ok created, after)) :
    stored after = Function.update (stored state) id (some event) := by
  let client : GoogleCalendarClient σ := ⟨http, headers, baseUrl⟩
  obtain ⟨either, accepted⟩ := service.posts (client.request .post (.events operator.calendarId)
    (some event)) id event state rfl (here ▸ rfl) rfl identified
  simp only [CalendarInsert.createEvent] at ran
  split at ran
  · rename_i answer between inserted
    obtain ⟨-, rfl⟩ := Prod.mk.inj ran
    obtain ⟨-, posted⟩ := client.read_sent_ok _ _ _ _ _ between answer inserted
    obtain ⟨response, json, executed, status, -, -⟩ := read_ok engine .ok _ answer between posted
    have final : (http.execute _ state).2 = between := congrArg Prod.snd executed
    have answered := accepted response (congrArg Prod.fst executed) status
    rw [← final]
    exact answered
  · rename_i message between conflict
    simp only [identified, Json.getString] at ran
    have left : (http.execute (client.request .post (.events operator.calendarId) (some event))
        state).2 = between := by
      rcases client.read_sent (parseResponse engine .ok) .post (.events operator.calendarId) event
        state with ⟨error, -, failed⟩ | ⟨-, posted⟩
      · cases failed.symm.trans conflict
      · exact congrArg Prod.snd (posted.symm.trans conflict)
    obtain ⟨-, sent⟩ := client.read_sent_ok _ _ _ _ _ after created ran
    obtain ⟨response, json, executed, status, -, -⟩ := read_ok engine .ok _ created after sent
    have replaced := service.puts (client.request .put (.event operator.calendarId id) (some event))
      id event between response after rfl (here ▸ rfl) rfl identified executed status
    rw [replaced, ← left]
    rcases either with same | done
    · exact congrArg (fun held => Function.update held id (some event)) same
    · exact (congrArg (fun held => Function.update held id (some event)) done).trans
        (Function.update_idem ..)
  · cases ran

/-- The rows of an INSERT are put under their ids, one after another. -/
theorem insert_rows (prints : engine.PrintsTimestamps) (casts : engine.CastsTimes)
    (operator : CalendarInsert) (here : operator.calendarId = calendarId)
    (distinct : operator.names.Nodup) (rows : List (List Value))
    (identified : ∀ row ∈ rows, ∃ id, rowValue operator.names row "event_id" = .varchar id)
    (typed : ∀ row ∈ rows, ∀ name, Typed name (rowValue operator.names row name))
    (state after : σ) (sinkState sunk : CalendarInsertGlobalSinkState)
    (ran : CalendarInsert.sink engine ⟨http, headers, baseUrl⟩ operator rows sinkState state =
      (.ok (), sunk, after)) :
    table engine calendarId stored after = upserted (table engine calendarId stored state)
        (rows.map (insertedEntry engine calendarId operator)) ∧
      sunk.insertCount = sinkState.insertCount + rows.length := by
  induction rows generalizing state sinkState with
  | nil =>
    obtain ⟨-, same⟩ := Prod.mk.inj ran
    obtain ⟨rfl, rfl⟩ := Prod.mk.inj same
    exact ⟨rfl, rfl⟩
  | cons row rest ih =>
    obtain ⟨id, named⟩ := identified row (List.mem_cons_self ..)
    simp only [CalendarInsert.sink, CalendarInsert.sinkRow] at ran
    split at ran
    · cases ran
    · rename_i next between one
      split at one
      · cases one
      · rename_i event built
        split at one
        · cases one
        · rename_i created final ends
          obtain ⟨-, same⟩ := Prod.mk.inj one
          obtain ⟨rfl, rfl⟩ := Prod.mk.inj same
          have given : ("event_id", Value.varchar id) ∈ operator.names.zip row := by
            have listed := row_value_listed operator.names row "event_id" (by simp [named])
            rwa [named] at listed
          have carries := RowBody.row_event_id engine operator.names row (.varchar id) event
            distinct given rfl built
          have kept := created_stored engine http headers baseUrl calendarId stored instant reaches
            resume service operator here event id carries state final created ends
          have shows := row_event_shows engine calendarId prints casts operator.names row event
            distinct (typed row (List.mem_cons_self ..)) built
          obtain ⟨later, counted⟩ := ih
            (fun other member => identified other (List.mem_cons_of_mem _ member))
            (fun other member => typed other (List.mem_cons_of_mem _ member)) final _ ran
          constructor
          · rw [later, List.map_cons, upserted, upserted, List.foldl_cons]
            apply congrArg (fun held => List.foldl _ held _)
            rw [table, kept, seen_update, insertedEntry, named, shows]
            rfl
          · rw [counted, List.length_cons]
            dsimp only
            omega

/-- A SELECT that finishes shows each row that its query reaches once, and leaves the table. -/
theorem select_rows (now : Int) (bindData : CalendarScanBindData)
    (here : bindData.calendarId = calendarId) (columnIds : List ColumnId) (fuel calls : Nat)
    (state first after : σ) (gstate last : CalendarScanGlobalState)
    (chunks : List (List (List Value)))
    (initialised : calendarScanInitGlobal engine ⟨http, headers, baseUrl⟩ bindData defaults now
      columnIds state = (.ok gstate, first))
    (called : ScanPages.scanCalls engine ⟨http, headers, baseUrl⟩ bindData vectorSize fuel calls
      gstate first = some (.ok (chunks, last), after))
    (finished : last.finished = true) :
    ∃ about, Enumerates (table engine calendarId stored state)
        (wantedBy engine reaches defaults now bindData (fun _ => true)) about ∧
      table engine calendarId stored after = table engine calendarId stored state ∧
      chunks.flatten = about.map (fun entry => scannedCells bindData columnIds entry.2) := by
  cases bounds : effectiveBounds engine bindData defaults now with
  | error error => simp [calendarScanInitGlobal, bounds] at initialised
  | ok range =>
    obtain ⟨timeMin, timeMax⟩ := range
    let base := baseQuery timeMin timeMax
    have shared := (deleting_service engine http calendarId stored instant reaches resume service
      bindData here base).toSharedService
    obtain ⟨scan, opened, stood⟩ := init_run engine http headers baseUrl bindData columnIds
      (fun _ => true) base stored instant _ _ _ shared defaults now timeMin timeMax bounds rfl state
      first gstate initialised
    obtain ⟨final, handled, run, ended, made, kept⟩ := calls_run engine http headers baseUrl
      bindData columnIds (fun _ => true) base stored instant _ _ _ shared (fun _ => rfl) vectorSize
      fuel calls scan gstate last first after chunks stood called
    have whole := run_trans _ _ _ _ _ scan final [] handled opened run
    obtain ⟨token, exhausted⟩ := ended.ended finished
    have drained : final.queue = [] := by
      have queue := ended.queue
      rwa [exhausted, List.append_nil, List.map_eq_nil_iff] at queue
    have lastPage : final.more = false := by simp [ended.more, token]
    refine ⟨handled.map (fun made => (made.item, shown engine calendarId made.value)), ?_, ?_, ?_⟩
    · apply handled_enumerates _ _ _ (shown engine calendarId) _ _ (stored state) final handled
        whole drained lastPage
      intro value
      simp only [wantedBy, bounds]
      rfl
    · have left := handled_left _ _ _ (stored state) final handled whole
        (fun made member => (kept made member).1)
      rw [table, ← ended.held, left]
      rfl
    · rw [made, List.map_map]
      apply List.map_congr_left
      intro one _
      exact scanned_shown engine calendarId bindData here columnIds one.value

/-- A DELETE that finishes removes the rows that it wants, and counts them. -/
theorem delete_rows (now : Int) (bindData : CalendarScanBindData)
    (here : bindData.calendarId = calendarId) (operator : CalendarDelete)
    (there : operator.calendarId = calendarId) (statement : DeleteStatement)
    (places : ∀ row, (statement.outputs row).getD operator.rowIdIndex .null = rowId row)
    (positive : 0 < vectorSize) (fuel calls : Nat) (state : σ) (after : σ × List Exchange)
    (sunk : CalendarDeleteGlobalSinkState)
    (ran : statement.run engine ⟨recording http, headers, baseUrl⟩ bindData operator defaults now
      vectorSize fuel calls (state, []) = some (.ok (), sunk, after)) :
    let wanted := wantedBy engine reaches defaults now bindData
      (fun cells => statement.predicate (scannedCells bindData statement.scanned cells))
    ∃ about, Enumerates (table engine calendarId stored state) wanted about ∧
      table engine calendarId stored after.1 =
        (Command.delete wanted).leaves (table engine calendarId stored state) ∧
      sunk.deleteCount = about.length := by
  intro wanted
  cases bounds : effectiveBounds engine bindData defaults now with
  | error error => simp [DeleteStatement.run, calendarScanInitGlobal, bounds] at ran
  | ok range =>
    obtain ⟨timeMin, timeMax⟩ := range
    let base := baseQuery timeMin timeMax
    have deleting := deleting_service engine http calendarId stored instant reaches resume service
      bindData here base
    obtain ⟨last, handled, run, held, work, finished⟩ := DeleteStatement.statement_run engine http
      headers baseUrl bindData operator statement base stored instant _ _ _ deleting
      (there.trans here.symm) places defaults now timeMin timeMax bounds rfl vectorSize fuel calls
      positive state sunk (.ok ()) after ran
    obtain ⟨drained, lastPage⟩ := finished rfl
    have wants : ∀ body, wanted (shown engine calendarId body) =
        (window engine calendarId reaches base body &&
          DeleteStatement.passes engine bindData statement body) := by
      intro body
      simp only [wanted, wantedBy, bounds, DeleteStatement.passes,
        scanned_shown engine calendarId bindData here]
      rfl
    refine ⟨handled.map (fun made => (made.item, shown engine calendarId made.value)), ?_, ?_, ?_⟩
    · exact handled_enumerates _ _ _ (shown engine calendarId) wanted wants (stored state) last
        handled run drained lastPage
    · rw [table, ← held]
      exact handled_deleted _ _ _ (shown engine calendarId) wanted wants (stored state) last handled
        run drained lastPage (work.removed rfl)
    · rw [work.counted rfl, List.length_map, Nat.zero_add]

/-- The SET lists of an UPDATE fit their columns, and a row that is wanted again is left. -/
def SetsSettle (bindData : CalendarScanBindData) (operator : CalendarUpdate)
    (statement : UpdateStatement) : Prop :=
  ∀ cells, statement.predicate (scannedCells bindData statement.scanned cells) = true →
    Settable (setsOf bindData operator statement cells) ∧
    (statement.predicate (scannedCells bindData statement.scanned
        (updated engine bindData operator statement cells)) = true →
      updated engine bindData operator statement
          (updated engine bindData operator statement cells) =
        updated engine bindData operator statement cells)

section Touched

variable (prints : engine.PrintsTimestamps) (casts : engine.CastsTimes)
  (bindData : CalendarScanBindData) (here : bindData.calendarId = calendarId)
  (operator : CalendarUpdate) (statement : UpdateStatement)
  (settle : SetsSettle engine bindData operator statement)
  (before : String → Option Json) (last : Scan String Json Position)
  (touches : List (Touch String Json Position)) (listed : Json → Bool)
  (run : CursorScan.Run (position instant) listed
    (UpdateOnce.passes engine bindData statement) (opening before) touches last)

include here run

omit service

/-- The predicate holds of the row that an event shows when it is touched. -/
theorem touched_wanted (made : Touch String Json Position) (member : made ∈ touches) :
    statement.predicate (scannedCells bindData statement.scanned
      (shown engine calendarId made.before)) = true := by
  rw [← scanned_shown engine calendarId bindData here]
  exact touched_passed _ _ _ _ last touches run made member

variable (resume : String → WithBot Position) (start seen : UpdateOnce.Observed)
  (recorded : UpdateOnce.Recorded engine bindData operator statement instant listed resume start
    seen touches)
  (first final : CalendarUpdateGlobalSinkState)
  (worked : UpdateOnce.Worked engine bindData operator statement first final touches)

include prints casts settle recorded worked

/-- A touched event shows the row that the UPDATE makes of the one it showed. -/
theorem touched_changes (made : Touch String Json Position) (member : made ∈ touches) :
    shown engine calendarId made.after =
      updated engine bindData operator statement (shown engine calendarId made.before) := by
  have computed := worked.makes made member
  obtain ⟨-, members, before, -⟩ := recorded.made made member
  have sets := (settle _ (touched_wanted engine calendarId instant bindData here statement _ last
    touches listed run made member)).1
  rw [UpdateOnce.row, scanned_shown engine calendarId bindData here, before] at computed
  rw [before] at sets ⊢
  exact put_body_shows engine calendarId prints casts operator.returnChunk _ members made.after sets
    computed

/-- An UPDATE that wants an event again that it has touched leaves its row. -/
theorem touched_settled (made : Touch String Json Position) (member : made ∈ touches)
    (again : UpdateOnce.passes engine bindData statement made.after = true) :
    updated engine bindData operator statement (shown engine calendarId made.after) =
      shown engine calendarId made.after := by
  have changes := touched_changes engine calendarId instant prints casts bindData here operator
    statement settle before last touches listed run resume start seen recorded first final worked
    made member
  rw [UpdateOnce.passes, UpdateOnce.row, scanned_shown engine calendarId bindData here, changes]
    at again
  rw [changes]
  exact (settle _ (touched_wanted engine calendarId instant bindData here statement _ last touches
    listed run made member)).2 again

end Touched

/-- An UPDATE that finishes changes the rows that it wants, each as if once. -/
theorem update_rows (prints : engine.PrintsTimestamps) (casts : engine.CastsTimes) (now : Int)
    (bindData : CalendarScanBindData) (here : bindData.calendarId = calendarId)
    (operator : CalendarUpdate) (there : operator.calendarId = calendarId)
    (statement : UpdateStatement) (settle : SetsSettle engine bindData operator statement)
    (positive : 0 < vectorSize) (fuel calls : Nat) (state : σ) (after : σ × List Exchange)
    (sunk : CalendarUpdateGlobalSinkState)
    (ran : statement.run engine ⟨recording http, headers, baseUrl⟩ bindData operator defaults now
      vectorSize fuel calls (state, []) = some (.ok sunk, after)) :
    let wanted := wantedBy engine reaches defaults now bindData
      (fun cells => statement.predicate (scannedCells bindData statement.scanned cells))
    ∃ about, Enumerates (table engine calendarId stored state) wanted about ∧
      table engine calendarId stored after.1 =
        (Command.update wanted (updated engine bindData operator statement)).leaves
          (table engine calendarId stored state) ∧
      about.length ≤ sunk.updateCount ∧
      ((∀ column ∈ operator.columns,
        "start" ∉ ColumnCells.touchedKeys (operator.names.getD column "")) →
          sunk.updateCount = about.length) := by
  intro wanted
  cases bounds : effectiveBounds engine bindData defaults now with
  | error error => simp [UpdateStatement.run, calendarScanInitGlobal, bounds] at ran
  | ok range =>
    obtain ⟨timeMin, timeMax⟩ := range
    let base := baseQuery timeMin timeMax
    have ordered := ordered_service engine http calendarId stored instant reaches resume service
      bindData here base
    obtain ⟨last, touches, run, drained, lastPage, recorded, held, -, worked⟩ :=
      UpdateOnce.statement_effect engine (recording http) headers baseUrl bindData operator
        statement base stored instant _ _
        (UpdateOnce.calls_recorded engine bindData base stored instant _ _ http ordered)
        (there.trans here.symm) defaults now timeMin timeMax bounds rfl vectorSize fuel calls
        positive state sunk after ran
    have wants : ∀ body, wanted (shown engine calendarId body) =
        (window engine calendarId reaches base body &&
          UpdateOnce.passes engine bindData statement body) := by
      intro body
      simp only [wanted, wantedBy, bounds, UpdateOnce.passes, UpdateOnce.row,
        scanned_shown engine calendarId bindData here]
      rfl
    obtain ⟨enumerates, atLeast, exactly⟩ := touched_enumerates _ _ _ (shown engine calendarId)
      (stored state) last touches run drained lastPage wanted wants
    have counted : sunk.updateCount = touches.length := by
      rw [worked.counted]
      exact Nat.zero_add _
    refine ⟨touchedRows (shown engine calendarId) (stored state) touches, enumerates, ?_, ?_, ?_⟩
    · rw [table, ← held]
      exact run_updates _ _ _ (shown engine calendarId) _ (stored state) last touches run drained
        lastPage
        (touched_changes engine calendarId instant prints casts bindData here operator statement
          settle _ last touches _ run _ _ _ recorded _ _ worked)
        (touched_settled engine calendarId instant prints casts bindData here operator statement
          settle _ last touches _ run _ _ _ recorded _ _ worked)
        wanted wants
    · rw [counted]
      exact atLeast
    · intro unwritten
      rw [counted, exactly]
      refine none_due_of_kept _ _ _ _ last touches run (CursorScan.opening_waiting _ _) ?_
      intro made member
      obtain ⟨values, members, before, computed⟩ := recorded.made made member
      rw [before]
      exact UpdateOnce.position_kept engine operator instant values made.item members made.after
        unwritten computed

/-- A statement that finishes amounts to its command on the table. -/
theorem performs_amounts (prints : engine.PrintsTimestamps) (casts : engine.CastsTimes)
    (positive : 0 < vectorSize) (statement : TableStatement)
    (proper : statement.Proper engine calendarId) (report : Report) (state after : σ)
    (performs : Performs engine http headers baseUrl defaults vectorSize state statement report
      after) :
    ∃ about, (statement.command engine calendarId reaches defaults).Concerns
        (table engine calendarId stored state) about ∧
      table engine calendarId stored after =
        (statement.command engine calendarId reaches defaults).leaves
          (table engine calendarId stored state) ∧
      statement.Tells report about := by
  obtain ⟨fuel, calls, ran⟩ := performs
  cases statement with
  | select now bindData columnIds =>
    simp only [TableStatement.perform] at ran
    split at ran
    · cases ran
    · rename_i gstate first initialised
      split at ran
      · cases ran
      · cases ran
      · rename_i chunks last between called
        split at ran
        · rename_i finished
          obtain ⟨same, rfl⟩ := Prod.mk.inj (Option.some.inj ran)
          obtain rfl := Except.ok.inj same
          exact select_rows engine http headers baseUrl calendarId stored instant reaches resume
            defaults vectorSize service now bindData proper columnIds fuel calls state first between
            gstate last chunks initialised called finished
        · cases ran
  | insert operator rows =>
    obtain ⟨here, distinct, each⟩ := proper
    simp only [TableStatement.perform] at ran
    split at ran
    · cases ran
    · rename_i sunk between sinks
      obtain ⟨same, rfl⟩ := Prod.mk.inj (Option.some.inj ran)
      obtain rfl := Except.ok.inj same
      obtain ⟨left, counted⟩ := insert_rows engine http headers baseUrl calendarId stored instant
        reaches resume service prints casts operator here distinct rows
        (fun row member => (each row member).1) (fun row member => (each row member).2) state
        between {} sunk sinks
      refine ⟨_, rfl, left, ?_⟩
      change sunk.insertCount = (rows.map _).length
      rw [counted, List.length_map]
      exact Nat.zero_add _
  | update now bindData operator statement =>
    obtain ⟨here, there, settable⟩ := proper
    simp only [TableStatement.perform] at ran
    split at ran
    · cases ran
    · cases ran
    · rename_i sunk between ends
      obtain ⟨same, rfl⟩ := Prod.mk.inj (Option.some.inj ran)
      obtain rfl := Except.ok.inj same
      exact update_rows engine http headers baseUrl calendarId stored instant reaches resume
        defaults vectorSize service prints casts now bindData here operator there statement settable
        positive fuel calls state between sunk ends
  | delete now bindData operator statement =>
    obtain ⟨here, there, places⟩ := proper
    simp only [TableStatement.perform] at ran
    split at ran
    · cases ran
    · cases ran
    · rename_i sunk between ends
      obtain ⟨same, rfl⟩ := Prod.mk.inj (Option.some.inj ran)
      obtain rfl := Except.ok.inj same
      exact delete_rows engine http headers baseUrl calendarId stored instant reaches resume
        defaults vectorSize service now bindData here operator there statement places positive fuel
        calls state between sunk ends

end Statements

/-! ## A small calendar -/

/-- A listing service that also creates events and deletes them. -/
def calendarHttp (service : ListingService) : IHttpClient Shelf where
  execute request shelf :=
    match request.method, request.path, request.body with
    | .post, .events _, some body =>
      match body.find "id" with
      | some (.string id) =>
        if (ListingService.held shelf id).isSome then (.ok ⟨409, ""⟩, shelf)
        else if identified : Identified id body then
          (.ok (service.answer body), ListingService.store shelf id body identified)
        else (.ok ⟨400, ""⟩, shelf)
      | _ => (.ok ⟨400, ""⟩, shelf)
    | .del, .event _ id, _ =>
      if (ListingService.held shelf id).isSome then (.ok ⟨204, ""⟩, erased shelf id)
      else (.ok ⟨404, ""⟩, shelf)
    | _, _, _ => service.http.execute request shelf

/-- A shelf holds the event that is stored, and the others as before. -/
theorem held_store (shelf : Shelf) (id : String) (body : Json) (identified : Identified id body) :
    ListingService.held (ListingService.store shelf id body identified) =
      Function.update (ListingService.held shelf) id (some body) := by
  funext other
  simp only [ListingService.held, ListingService.store, OrderedMap.find_insert,
    Function.update_apply]

/-- A shelf holds an erased event no more, and the others as before. -/
theorem held_erased (shelf : Shelf) (id : String) :
    ListingService.held (erased shelf id) =
      Function.update (ListingService.held shelf) id none := by
  funext other
  simp only [ListingService.held, erased, OrderedMap.find_erase, Function.update_apply]

/-- The small calendar is a table service, whatever its page size. -/
theorem small_calendar (service : ListingService) (engine : Engine)
    (parses : ∀ text, engine.parse text = service.documents.lookup text) (calendarId : String)
    (reaches : Cells → Bool)
    (windowed : ∀ body, service.window body = reaches (shown engine calendarId body)) :
    TableService engine (calendarHttp service) calendarId ListingService.held service.instant
      (fun _ => reaches) (fun _ => service.resume) := by
  have ordered := fun base =>
    service.ordered engine parses { calendarId := calendarId, names := [] } base
  have gotten : ∀ request shelf, request.method = .get →
      (calendarHttp service).execute request shelf = service.http.execute request shelf := by
    intro request shelf method
    simp only [calendarHttp, method]
  have sameWindow : service.window = fun body => reaches (shown engine calendarId body) :=
    funext windowed
  constructor
  · exact (ordered {}).identified
  · exact fun base => (ordered base).starts
  · intro request shelf method
    rw [gotten request shelf method, get_unchanged service request shelf method]
  · intro base request token shelf response after json following method path executed status parsed
      tokened
    rw [gotten request shelf method] at executed
    rw [← sameWindow]
    exact ((ordered base).lists request token shelf response after json following method path
      executed status parsed tokened).2
  · intro request id shelf response after json method path executed status parsed
    rw [gotten request shelf method] at executed
    exact ((ordered {}).gets request id shelf response after json method path executed status
      parsed).2
  · intro request id body shelf method path sent carries
    by_cases taken : (ListingService.held shelf id).isSome = true
    · have same : (calendarHttp service).execute request shelf = (.ok ⟨409, ""⟩, shelf) := by
        simp only [calendarHttp, method, path, sent, carries, taken, if_true]
      rw [same]
      refine ⟨.inl rfl, fun response answered status => ?_⟩
      obtain rfl := Except.ok.inj answered
      cases status
    · by_cases identified : Identified id body
      · have same : (calendarHttp service).execute request shelf =
            (.ok (service.answer body), ListingService.store shelf id body identified) := by
          simp only [calendarHttp, method, path, sent, carries, taken, Bool.false_eq_true, if_false,
            dif_pos identified]
        rw [same]
        exact ⟨.inr (held_store shelf id body identified),
          fun _ _ _ => held_store shelf id body identified⟩
      · have same : (calendarHttp service).execute request shelf = (.ok ⟨400, ""⟩, shelf) := by
          simp only [calendarHttp, method, path, sent, carries, taken, Bool.false_eq_true, if_false,
            dif_neg identified]
        rw [same]
        refine ⟨.inl rfl, fun response answered status => ?_⟩
        obtain rfl := Except.ok.inj answered
        cases status
  · intro request id body shelf response after method path sent carries executed status
    have same : (calendarHttp service).execute request shelf =
        service.http.execute request shelf := by
      simp only [calendarHttp, method]
    rw [same] at executed
    exact (ordered {}).puts request id body shelf response after method path sent carries executed
      status
  · intro request id shelf method path
    by_cases taken : (ListingService.held shelf id).isSome = true
    · have same : (calendarHttp service).execute request shelf =
          (.ok ⟨204, ""⟩, erased shelf id) := by
        simp only [calendarHttp, method, path, taken, if_true]
      rw [same]
      exact ⟨.inr (held_erased shelf id), fun _ _ _ => held_erased shelf id⟩
    · have same : (calendarHttp service).execute request shelf = (.ok ⟨404, ""⟩, shelf) := by
        simp [calendarHttp, method, path, taken]
      rw [same]
      refine ⟨.inl rfl, fun response answered status => ?_⟩
      obtain rfl := Except.ok.inj answered
      simp at status

/-! Two meals are inserted, one is renamed and the other deleted. -/

/-- An event with an id and a summary. -/
def meal (id summary : String) : Json :=
  .object [("id", .string id), ("summary", .string summary)]

/-- A service that lists a shelf in one page. -/
def mealService : ListingService where
  size := 2
  instant _ := 0
  window _ := true
  documents :=
    [("lunch", meal "a" "Lunch"), ("dinner", meal "b" "Dinner"), ("brunch", meal "a" "Brunch"),
      ("both", ListingService.pageJson [("a", meal "a" "Lunch"), ("b", meal "b" "Dinner")] ""),
      ("renamed", ListingService.pageJson [("a", meal "a" "Brunch"), ("b", meal "b" "Dinner")] ""),
      ("left", ListingService.pageJson [("a", meal "a" "Brunch")] "")]
  tokens := []
  documentsDistinct := by decide
  tokensDistinct := by decide
  tokensNonempty := by decide

/-- The engine that reads what the service writes. -/
def mealEngine : Engine := .documented mealService.documents

/-- A scan of the ids and summaries since 1970. -/
def mealScan : CalendarScanBindData :=
  { calendarId := "work", names := ["event_id", "summary"], timeMin := "1970-01-01T00:00:00Z",
    hasLower := true }

/-- The rows of an id. -/
def hasId (id : String) (row : List Value) : Bool := decide (row = [.varchar id])

/-- An insert, an update, a delete and a select. -/
def mealStatements : List TableStatement :=
  [.insert ⟨"work", ["event_id", "summary"], false⟩
      [[.varchar "a", .varchar "Lunch"], [.varchar "b", .varchar "Dinner"]],
    .update 0 mealScan ⟨"work", ["event_id", "summary"], [1], [0], false⟩
      ⟨[], hasId "a", fun _ => [.varchar "Brunch"]⟩,
    .delete 0 mealScan DeleteRetries.deleteById ⟨[], hasId "b", fun row => [rowId row]⟩,
    .select 0 mealScan [.schema 0, .schema 1]]

/-- Statements one after another, with their reports. -/
def performAll : List TableStatement → Shelf → Option (List Report × Shelf)
  | [], shelf => some ([], shelf)
  | statement :: rest, shelf =>
    match statement.perform mealEngine (calendarHttp mealService) [] "" {} 9 9 3 shelf with
    | some (.ok report, after) =>
      (performAll rest after).map (fun later => (report :: later.1, later.2))
    | _ => none

/-- Statements that are performed one after another are a session. -/
theorem performed_session (statements : List TableStatement) (reports : List Report)
    (shelf final : Shelf) (ran : performAll statements shelf = some (reports, final)) :
    Transcript (Performs mealEngine (calendarHttp mealService) [] "" {} 9) shelf
      (statements.zip reports) final ∧ statements.length = reports.length := by
  induction statements generalizing shelf reports with
  | nil =>
    obtain ⟨rfl, rfl⟩ := Prod.mk.inj (Option.some.inj ran)
    exact ⟨.done _, rfl⟩
  | cons statement rest ih =>
    simp only [performAll] at ran
    split at ran
    · rename_i report after first
      obtain ⟨later, ended, same⟩ := Option.map_eq_some_iff.mp ran
      obtain ⟨rfl, rfl⟩ := Prod.mk.inj same
      obtain ⟨session, length⟩ := ih later.1 after ended
      exact ⟨.step _ _ _ _ _ _ ⟨9, 3, first⟩ session, congrArg Nat.succ length⟩
    · cases ran

/-- The cells of a meal are texts. -/
theorem meal_typed (id summary name : String) :
    Typed name (rowValue ["event_id", "summary"] [.varchar id, .varchar summary] name) := by
  by_cases isId : name = "event_id"
  · subst isId
    exact text_typed "event_id" id (.inl rfl)
  · by_cases isSummary : name = "summary"
    · subst isSummary
      exact text_typed "summary" summary (.inr rfl)
    · have value : rowValue ["event_id", "summary"] [.varchar id, .varchar summary] name =
          .null := by
        simp [rowValue, List.lookup_cons, beq_false_of_ne isId, beq_false_of_ne isSummary]
      rw [value]
      exact null_typed name

/-- The list that renames a meal leaves a row that it has renamed. -/
theorem renamed_twice (cells : Cells) :
    assigned mealEngine [("summary", .varchar "Brunch")]
        (assigned mealEngine [("summary", .varchar "Brunch")] cells) =
      assigned mealEngine [("summary", .varchar "Brunch")] cells := by
  funext name
  by_cases isAllDay : name = "all_day"
  · subst isAllDay
    rfl
  · simp only [assigned, if_neg isAllDay]
    by_cases isSummary : name = "summary"
    · subst isSummary
      rfl
    · simp [List.lookup_cons, beq_false_of_ne isSummary]

/-- The statements of the example are as assumed. -/
theorem meals_proper : ∀ statement ∈ mealStatements, statement.Proper mealEngine "work" := by
  intro statement member
  simp only [mealStatements, List.mem_cons, List.not_mem_nil, or_false] at member
  rcases member with rfl | rfl | rfl | rfl
  · refine ⟨rfl, by decide, ?_⟩
    intro row listed
    simp only [List.mem_cons, List.not_mem_nil, or_false] at listed
    rcases listed with rfl | rfl
    · exact ⟨⟨"a", rfl⟩, meal_typed "a" "Lunch"⟩
    · exact ⟨⟨"b", rfl⟩, meal_typed "b" "Dinner"⟩
  · refine ⟨rfl, rfl, fun cells _ => ⟨?_, fun _ => renamed_twice cells⟩⟩
    have writable : ColumnCells.isWritable "summary" = true := by decide
    constructor
    · exact List.nodup_singleton _
    · intro column listed
      obtain rfl := List.mem_singleton.mp listed
      exact writable
    · intro column listed
      obtain rfl := List.mem_singleton.mp listed
      exact text_typed "summary" "Brunch" (.inr rfl)
    · intro flagged
      have plain : "all_day" = "summary" := List.mem_singleton.mp flagged
      simp at plain
  · refine ⟨rfl, rfl, fun row => ?_⟩
    rfl
  · rfl

end GoogleCalendar.CalendarTable
