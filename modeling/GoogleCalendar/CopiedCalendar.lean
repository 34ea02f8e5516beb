import GoogleCalendar.StatementFrames
import GoogleCalendar.CalendarCatalog

/-!
# Copying a calendar

CREATE TABLE ... AS FROM another calendar makes a calendar and fills it, chunk by chunk,
with the rows that a scan of the other one puts out. What the new calendar shows is then
the rows of the scan under their ids: each column that an INSERT writes with its value,
the others empty, and the id of the new calendar.
-/

namespace GoogleCalendar.CopiedCalendar

open Library CivilTime CalendarScan CursorScan EventListing SharedScan SharedListing KeyedTable
  EventMapping ColumnCells ColumnReads TimeNodes EventTimes RowBody RowRoundTrip WriteBack ShownRows
  CalendarTable StatementFrames

variable (engine : Engine)

/-! ## A row that is copied -/

/-- A column that an INSERT takes from its row. -/
def IsCopied (name : String) : Prop := name = "all_day" ∨ (insertKey name).isSome = true

instance (name : String) : Decidable (IsCopied name) :=
  inferInstanceAs (Decidable (name = "all_day" ∨ (insertKey name).isSome = true))

/-- A row as its copy in a calendar shows it. -/
def copied (calendarId : String) (cells : Cells) : Cells := fun name =>
  if name = "calendar_id" then .varchar calendarId
  else if IsCopied name then cells name else .null

/-- The copied columns are columns of the schema. -/
theorem copied_in_schema (name : String) (copies : IsCopied name) : name ∈ eventsNames := by
  rcases copies with rfl | keyed
  · decide
  · by_cases isId : name = "event_id"
    · exact isId ▸ (by decide)
    · obtain ⟨key, found⟩ := Option.isSome_iff_exists.mp keyed
      simp only [insertKey, isId, if_false] at found
      exact writable_in_schema name key found

/-- A row of cells has the cell of each of its columns. -/
theorem row_value_map (names : List String) (cells : Cells) (name : String)
    (listed : name ∈ names) : rowValue names (names.map cells) name = cells name := by
  rw [rowValue]
  induction names with
  | nil => cases listed
  | cons first rest ih =>
    rw [List.map_cons, List.zip_cons_cons, List.lookup_cons]
    by_cases here : name = first
    · subst here
      simp
    · rw [beq_false_of_ne here]
      exact ih ((List.mem_cons.mp listed).resolve_left here)

/-- A row has nothing under a column that it does not list. -/
theorem row_value_unlisted (names : List String) (row : List Value) (name : String)
    (unlisted : name ∉ names) : rowValue names row name = .null := by
  rw [rowValue, lookup_of_not_mem]
  · rfl
  · intro member
    exact unlisted ((zipped_names names row).subset member)

/-- What an INSERT makes of a row depends on the columns that it copies only. -/
theorem inserted_congr (calendarId : String) (value other : Cells)
    (same : ∀ name, IsCopied name → value name = other name) :
    inserted engine calendarId value = inserted engine calendarId other := by
  have flag := same "all_day" (.inl rfl)
  have start := same "start" (.inr (by decide))
  funext name
  simp only [inserted, flag, start]
  split
  · rfl
  · split
    · rfl
    · split
      · rename_i keyed
        rw [same name (.inr keyed)]
      · rfl

/-! ## The row of a scheduled event -/

/-- An event that a copy keeps: both times are well formed, of one kind and of the years 1 to
9999, and its members are parsed back from their text. -/
structure Keepable (members : OrderedMap String Json) (allDay : Bool) : Prop where
  scheduled : Scheduled engine (.ofMembers members) allDay
  roundTrips : ∀ key json, members.find key = some json → engine.RoundTrips json

section Row

variable (calendarId : String) (members : OrderedMap String Json) (allDay : Bool)
  (keepable : Keepable engine members allDay)

include keepable

/-- An event that is kept shows its `all_day`. -/
theorem flag_shown :
    shown engine calendarId (.ofMembers members) "all_day" = .boolean allDay := by
  obtain ⟨day, instant, borne, -⟩ := keepable.scheduled "start" (.inl rfl)
  exact congrArg Value.boolean (existing_borne engine _ _ _ _ borne)

/-- A time is shown as its instant, which is a midnight in an all-day event. -/
theorem time_shown (casts : engine.CastsTimes) (key : String) (time : IsTimeKey key) :
    ∃ instant, shown engine calendarId (.ofMembers members) key = .timestampTz instant ∧
      FourDigitYear instant ∧
      (if allDay then instant / dayMicros * dayMicros else instant) = instant := by
  obtain ⟨day, instant, borne, bounded⟩ := keepable.scheduled key time
  have plain : key ≠ "calendar_id" := by
    rcases time with rfl | rfl <;> decide
  refine ⟨instant, ?_, bounded, ?_⟩
  · rw [shown, columnValue, if_neg plain, read_time engine _ key time]
    exact parse_borne engine casts _ key allDay day instant borne
  · obtain ⟨node, -, denotes⟩ := borne
    cases denotes with
    | date raw encodes text read =>
      rw [if_pos rfl, Int.mul_ediv_cancel _ (by decide)]
    | dateTime raw encodes text longer read cast => rfl

omit keepable in
/-- A column that is shown from a member under its key. -/
theorem shown_field (name : String) (plain : name ≠ "calendar_id") :
    shown engine calendarId (.ofMembers members) name =
      extractField engine (.ofMembers members) name := by
  rw [shown, columnValue, if_neg plain]

/-- The values that are shown have the types of their columns. -/
theorem shown_typed (casts : engine.CastsTimes) (name : String) :
    Typed name (shown engine calendarId (.ofMembers members) name) := by
  by_cases isCalendar : name = "calendar_id"
  · subst isCalendar
    exact ⟨fun text => absurd (text_column_listed _ text) (by decide),
      fun listed => absurd listed (by decide), fun time => absurd time (by decide)⟩
  · constructor
    · intro text
      rw [shown_field engine calendarId members name isCalendar]
      rcases text with rfl | listed
      · exact string_is_text _ "id"
      · obtain ⟨key, found⟩ := Option.isSome_iff_exists.mp listed
        rw [read_string engine _ name key found]
        exact string_is_text _ key
    · intro listed
      rw [shown_field engine calendarId members name isCalendar]
      obtain ⟨key, found⟩ := Option.isSome_iff_exists.mp listed
      rw [read_boolean engine _ name key found]
      exact boolean_is_boolean _ key
    · intro time
      obtain ⟨instant, shows, bounded, -⟩ :=
        time_shown engine calendarId members allDay keepable casts name time
      exact .inr ⟨instant, shows, bounded⟩

/-- Raw JSON is written again as the text that it is shown as. -/
theorem raw_copied (empty : engine.parse "" = none) (name key : String)
    (found : writableJsonKeys.lookup name = some key) (flag : Bool) :
    writtenValue engine flag name (jsonRaw (.ofMembers members) key) .null =
      jsonRaw (.ofMembers members) key := by
  rw [raw_shows engine flag name key _ .null found]
  cases held : (Json.ofMembers members).find key with
  | none =>
    simp [jsonRaw, held, Value.isNull]
  | some json =>
    rw [raw_reads _ json key held]
    by_cases null : json = .null
    · simp [null, Value.isNull]
    · rw [if_neg null]
      have back := keepable.roundTrips key json (by rwa [Json.find_of_members] at held)
      have present : json.dump ≠ "" := by
        intro missing
        rw [Engine.RoundTrips, missing, empty] at back
        cases back
      have parsed : passedThrough engine json.dump = some json := by
        rw [passedThrough, if_neg present, back]
      simp [Value.isNull, Value.toText, parsed, null]

/-- Inserting the row that is shown for an event shows its copy. -/
theorem copy_shows (casts : engine.CastsTimes) (empty : engine.parse "" = none)
    (target : String) :
    inserted engine target (shown engine calendarId (.ofMembers members)) =
      copied target (shown engine calendarId (.ofMembers members)) := by
  have flag := flag_shown engine calendarId members allDay keepable
  funext name
  simp only [inserted, copied]
  by_cases isCalendar : name = "calendar_id"
  · rw [if_pos isCalendar, if_pos isCalendar]
  rw [if_neg isCalendar, if_neg isCalendar]
  by_cases isAllDay : name = "all_day"
  · subst isAllDay
    obtain ⟨instant, shows, -⟩ :=
      time_shown engine calendarId members allDay keepable casts "start" (.inl rfl)
    rw [if_pos rfl, if_pos (.inl rfl), shows, flag]
    cases allDay <;> rfl
  rw [if_neg isAllDay]
  cases keyed : insertKey name with
  | none => simp [IsCopied, isAllDay, keyed]
  | some key =>
    have copies : IsCopied name := .inr (by rw [keyed]; rfl)
    rw [if_pos copies]
    simp only [Option.isSome_some, if_true]
    by_cases isId : name = "event_id"
    · exact text_shows engine _ name _ .null (.inl isId)
    · simp only [insertKey, isId, if_false] at keyed
      rcases key_cases name key keyed with isString | isBool | isJson | ⟨rfl, time⟩
      · exact text_shows engine _ name _ .null (.inr (by rw [isString]; rfl))
      · exact boolean_shows engine _ name key _ .null isBool
      · rw [shown_field engine calendarId members name isCalendar,
          read_raw engine _ name key isJson]
        exact raw_copied engine members allDay keepable empty name key isJson _
      · obtain ⟨instant, shows, -, kept⟩ :=
          time_shown engine calendarId members allDay keepable casts name time
        rw [flag, shows]
        simp only [writtenValue, if_pos (show name = "start" ∨ name = "end" from time)]
        cases allDay with
        | true => exact congrArg Value.timestampTz kept
        | false => rfl

end Row

/-! ## The statement -/

/-- A query over one scan: the columns that it scans, its predicate and the values of a row. -/
structure RowQuery where
  columnIds : List ColumnId
  predicate : List Value → Bool
  expressions : List Value → List Value

namespace RowQuery

variable {σ : Type} (client : GoogleCalendarClient σ) (bindData : CalendarScanBindData)
  (operator : CalendarInsert) (query : RowQuery)

/-- The projection of the query, on the rows that its predicate wants. -/
def project (row : List Value) : Option (List Value) :=
  if query.predicate row then some (query.expressions row) else none

/-- The chunks that are left, each inserted before the next is scanned. A chunk without rows
ends the statement. -/
def drain (vectorSize fuel : Nat) : Nat → CalendarScanGlobalState →
    CalendarInsertGlobalSinkState → σ →
    Option (Except Exception CalendarInsertGlobalSinkState × σ)
  | 0, _, _, _ => none
  | calls + 1, gstate, sinkState, state =>
    match calendarScan engine client bindData vectorSize fuel gstate state with
    | none => none
    | some (.error error, after) => some (.error error, after)
    | some (.ok ([], _), after) => some (.ok sinkState, after)
    | some (.ok (rows, next), after) =>
      match CalendarInsert.sink engine client operator (rows.filterMap query.project) sinkState
          after with
      | (.error error, _, final) => some (.error error, final)
      | (.ok (), sunk, final) => drain vectorSize fuel calls next sunk final

/-- INSERT of the query's rows. -/
def insert (defaults : DefaultWindow) (now : Int) (vectorSize fuel calls : Nat) (state : σ) :
    Option (Except Exception CalendarInsertGlobalSinkState × σ) :=
  match calendarScanInitGlobal engine client bindData defaults now query.columnIds state with
  | (.error error, after) => some (.error error, after)
  | (.ok gstate, after) =>
      drain engine client bindData operator query vectorSize fuel calls gstate {} after

/-- CREATE TABLE ... AS: the calendar is made when the statement is planned, and then the rows
are inserted. -/
def createTableAs (catalog : CalendarCatalog) (table : String) (columns : List ColumnDefinition)
    (defaults : DefaultWindow) (now : Int) (vectorSize fuel calls : Nat) (state : σ) :
    Option (Except Exception CalendarInsertGlobalSinkState × CalendarCatalog × σ) :=
  match CalendarCatalog.planCreateTableAs engine client catalog table columns state with
  | (.error error, next, after) => some (.error error, next, after)
  | (.ok operator, next, after) =>
    (query.insert engine client bindData operator defaults now vectorSize fuel calls after).map
      (fun ended => (ended.1, next, ended.2))

/-- All columns of another calendar, of the rows that a predicate holds of. -/
def fromCalendar (predicate : List Value → Bool) : RowQuery where
  columnIds := (List.range eventsNames.length).map .schema
  predicate := predicate
  expressions := id

/-- The statement keeps what its requests keep, however it ends. -/
theorem drain_keeps (keeps : σ → σ → Prop) (frame : Frame client.http operator.calendarId keeps)
    (vectorSize fuel calls : Nat) (gstate : CalendarScanGlobalState)
    (sinkState : CalendarInsertGlobalSinkState) (state after : σ)
    (result : Except Exception CalendarInsertGlobalSinkState)
    (drained : query.drain engine client bindData operator vectorSize fuel calls gstate sinkState
      state = some (result, after)) : keeps state after := by
  induction calls generalizing gstate sinkState state with
  | zero => cases drained
  | succ calls ih =>
    simp only [drain] at drained
    split at drained
    · cases drained
    · rename_i error between scanned
      obtain ⟨-, rfl⟩ := Prod.mk.inj (Option.some.inj drained)
      exact scan_keeps engine client keeps bindData vectorSize fuel frame.toReadFrame gstate state
        between _ scanned
    · rename_i next between scanned
      obtain ⟨-, rfl⟩ := Prod.mk.inj (Option.some.inj drained)
      exact scan_keeps engine client keeps bindData vectorSize fuel frame.toReadFrame gstate state
        between _ scanned
    · rename_i rows next between nonempty scanned
      have read := scan_keeps engine client keeps bindData vectorSize fuel frame.toReadFrame gstate
        state between _ scanned
      have wrote := insert_sink_keeps engine client operator.calendarId keeps frame operator rfl
        (rows.filterMap query.project) sinkState between
      apply frame.trans state between after read
      split at drained
      · rename_i error sunk final ended
        obtain ⟨-, rfl⟩ := Prod.mk.inj (Option.some.inj drained)
        rwa [ended] at wrote
      · rename_i sunk final ended
        rw [ended] at wrote
        exact frame.trans between final after wrote (ih next sunk final drained)

/-- A copy leaves alone what its requests leave alone. -/
theorem insert_keeps (keeps : σ → σ → Prop) (frame : Frame client.http operator.calendarId keeps)
    (defaults : DefaultWindow) (now : Int) (vectorSize fuel calls : Nat) (state after : σ)
    (result : Except Exception CalendarInsertGlobalSinkState)
    (inserted : query.insert engine client bindData operator defaults now vectorSize fuel calls
      state = some (result, after)) : keeps state after := by
  have opened := init_keeps engine client keeps bindData frame.toReadFrame defaults now
    query.columnIds state
  simp only [insert] at inserted
  split at inserted
  · rename_i error between initialised
    obtain ⟨-, rfl⟩ := Prod.mk.inj (Option.some.inj inserted)
    rwa [initialised] at opened
  · rename_i gstate first initialised
    rw [initialised] at opened
    exact frame.trans state first after opened (drain_keeps engine client bindData operator query
      keeps frame vectorSize fuel calls gstate {} first after result inserted)

end RowQuery

/-! ## A service with several calendars -/

section Service

variable {σ : Type} (http : IHttpClient σ) (stored : String → σ → String → Option Json)
  (lives : σ → String → Prop) (instant : Option Json → Int)
  (reaches : QueryBuilder → Cells → Bool) (resume : QueryBuilder → String → WithBot Position)

/-- A service that nobody else writes to, with the events of each of its calendars. A request
about the events of one calendar leaves the others, and a calendar that is made is a new one
without events. -/
structure CalendarsService : Prop where
  each : ∀ calendarId,
    TableService engine http calendarId (stored calendarId) instant reaches resume
  apart : ∀ request state calendarId other, calendarId ≠ other →
    (request.path = .events other ∨ ∃ id, request.path = .event other id) →
    stored calendarId (http.execute request state).2 = stored calendarId state
  creates : ∀ request state response after json calendarId, request.method = .post →
    request.path = .calendars → http.execute request state = (.ok response, after) →
    response.statusCode = 200 → engine.parse response.body = some json →
    json.valueOr "id" "" Json.getString = .ok calendarId →
    ¬ lives state calendarId ∧ stored calendarId after = (fun _ => none) ∧
      ∀ other, other ≠ calendarId → stored other after = stored other state

variable (headers : HttpHeaders) (baseUrl : String)
  (service : CalendarsService engine http stored lives instant reaches resume)
  (operator : CalendarInsert) (source : String) (other : source ≠ operator.calendarId)

include service other

omit other in
/-- Statements on one calendar leave the events of the others. -/
theorem events_frame (target : String) :
    Frame http target (fun before after =>
      ∀ calendarId, calendarId ≠ target → stored calendarId after = stored calendarId before) where
  refl _ _ _ := rfl
  trans _ _ _ first second calendarId apart :=
    (second calendarId apart).trans (first calendarId apart)
  reads request state method calendarId _ := (service.each calendarId).reads request state method
  writes request state path calendarId apart := service.apart request state calendarId target apart
    path

/-- A row that an INSERT puts under a given id, with values of the types of their columns. -/
def Fits (names : List String) (row : List Value) : Prop :=
  (∃ id, rowValue names row "event_id" = .varchar id) ∧
    ∀ name, Typed name (rowValue names row name)

section Drain

variable (bindData : CalendarScanBindData) (here : bindData.calendarId = source)
  (base : QueryBuilder) (query : RowQuery)

omit service other

/-- The rows that a query inserts of the events that its scan has put out. -/
def insertedRows (handled : List (Handled String Json)) : List (List Value) :=
  handled.filterMap (fun made =>
    query.project (scanRow engine bindData query.columnIds made.value))

/-- The sink has put rows under their ids and counted them, if they fit. -/
def Inserts (before after : σ) (sinkState sunk : CalendarInsertGlobalSinkState)
    (rows : List (List Value)) : Prop :=
  (∀ row ∈ rows, Fits operator.names row) →
    table engine operator.calendarId (stored operator.calendarId) after =
        upserted (table engine operator.calendarId (stored operator.calendarId) before)
          (rows.map (insertedEntry engine operator.calendarId operator)) ∧
      sunk.insertCount = sinkState.insertCount + rows.length

/-- Rows that are inserted one list after another are inserted as one. -/
theorem inserts_append (before between after : σ)
    (sinkState middle sunk : CalendarInsertGlobalSinkState) (early late : List (List Value))
    (first : Inserts engine stored operator before between sinkState middle early)
    (second : Inserts engine stored operator between after middle sunk late) :
    Inserts engine stored operator before after sinkState sunk (early ++ late) := by
  intro fits
  obtain ⟨tableNow, countNow⟩ := first (fun row member => fits row (List.mem_append_left _ member))
  obtain ⟨tableLater, countLater⟩ :=
    second (fun row member => fits row (List.mem_append_right _ member))
  constructor
  · rw [tableLater, tableNow, List.map_append, upserted, upserted, upserted, List.foldl_append]
  · rw [countLater, countNow, List.length_append]
    omega

include service here

/-- A call of the scan that returns has put events out, and written nothing to the new calendar. -/
theorem copy_call_run (vectorSize fuel : Nat) (scan : Scan String Json Position)
    (gstate next : CalendarScanGlobalState) (state between : σ) (rows : List (List Value))
    (stands : Stands query.columnIds base (stored source) (resume base) scan [] gstate state)
    (called : calendarScan engine ⟨http, headers, baseUrl⟩ bindData vectorSize fuel gstate state =
      some (.ok (rows, next), between)) :
    ∃ emitted early, SharedScan.Run (position instant) (window engine source reaches base)
        (fun _ => true) (fun _ => True) scan early emitted ∧
      Stands query.columnIds base (stored source) (resume base) emitted [] next between ∧
      rows = early.map (fun made => scanRow engine bindData query.columnIds made.value) ∧
      (∀ made ∈ early, made.removed = false ∧ Identified made.item made.value) ∧
      (rows.length < vectorSize → next.finished = true) ∧
      stored operator.calendarId between = stored operator.calendarId state := by
  have shared := (deleting_service engine http source (stored source) instant reaches resume
    (service.each source) bindData here base).toSharedService
  obtain ⟨fetched, full, fetching, stood, rfl, short⟩ := scan_loop_run engine http headers baseUrl
    bindData query.columnIds (fun _ => true) base (stored source) instant _ _ _ shared vectorSize
    fuel scan [] rows gstate next state between stands called
  obtain ⟨emitted, early, emitting, emptied, values, kept⟩ := emit_run query.columnIds
    (fun _ => true) base (stored source) instant (window engine source reaches base) (resume base)
    (fun _ => True) (fun _ => rfl) full fetched next between stood
  refine ⟨emitted, early, run_trans _ _ _ _ scan fetched emitted [] early fetching emitting,
    emptied, ?_, kept, short, ?_⟩
  · rw [← values, List.map_map]
    rfl
  · exact scan_loop_keeps engine ⟨http, headers, baseUrl⟩ bindData
      (fun before later => stored operator.calendarId later = stored operator.calendarId before)
      (fun _ => rfl) (fun _ _ _ first second => second.trans first)
      (service.each operator.calendarId).reads vectorSize fuel [] gstate state between _ called

include other

omit here in
/-- The insertion of a chunk leaves the scanned calendar, so that the scan goes on as if nobody
wrote. -/
theorem copy_sink_run (prints : engine.PrintsTimestamps) (casts : engine.CastsTimes)
    (distinct : operator.names.Nodup) (scan : Scan String Json Position)
    (gstate : CalendarScanGlobalState) (sinkState sunk : CalendarInsertGlobalSinkState)
    (rows : List (List Value)) (state after : σ)
    (stands : Stands query.columnIds base (stored source) (resume base) scan [] gstate state)
    (sinks : CalendarInsert.sink engine ⟨http, headers, baseUrl⟩ operator rows sinkState state =
      (.ok (), sunk, after)) :
    Stands query.columnIds base (stored source) (resume base) scan [] gstate after ∧
      Inserts engine stored operator state after sinkState sunk rows := by
  have untouched := insert_sink_keeps engine ⟨http, headers, baseUrl⟩ operator.calendarId _
    (events_frame engine http stored lives instant reaches resume service operator.calendarId)
    operator rfl rows sinkState state source other
  rw [sinks] at untouched
  refine ⟨{ stands with held := stands.held.trans untouched.symm }, fun fits => ?_⟩
  exact insert_rows engine http headers baseUrl operator.calendarId (stored operator.calendarId)
    instant reaches resume (service.each operator.calendarId) prints casts operator rfl distinct
    rows (fun row member => (fits row member).1) (fun row member => (fits row member).2) state after
    sinkState sunk sinks

/-- The chunks that are left of a scan are put out and inserted. By induction on the calls: a call
without rows ends the scan, and any other goes on from where its chunk is inserted. -/
theorem drain_run (prints : engine.PrintsTimestamps) (casts : engine.CastsTimes)
    (distinct : operator.names.Nodup) (vectorSize fuel calls : Nat) (positive : 0 < vectorSize)
    (scan : Scan String Json Position) (gstate : CalendarScanGlobalState)
    (sinkState sunk : CalendarInsertGlobalSinkState) (state after : σ)
    (stands : Stands query.columnIds base (stored source) (resume base) scan [] gstate state)
    (ran : query.drain engine ⟨http, headers, baseUrl⟩ bindData operator vectorSize fuel calls
      gstate sinkState state = some (.ok sunk, after)) :
    ∃ last handled, SharedScan.Run (position instant) (window engine source reaches base)
        (fun _ => true) (fun _ => True) scan handled last ∧
      last.held = stored source after ∧ last.queue = [] ∧ last.more = false ∧
      (∀ made ∈ handled, made.removed = false ∧ Identified made.item made.value) ∧
      Inserts engine stored operator state after sinkState sunk
        (insertedRows engine bindData query handled) := by
  induction calls generalizing scan gstate sinkState state with
  | zero => simp [RowQuery.drain] at ran
  | succ calls ih =>
    simp only [RowQuery.drain] at ran
    split at ran
    · cases ran
    · cases ran
    · rename_i next between called
      obtain ⟨same, rfl⟩ := Prod.mk.inj (Option.some.inj ran)
      obtain rfl := Except.ok.inj same
      obtain ⟨emitted, early, soFar, emptied, made, kept, short, unread⟩ := copy_call_run engine
        http stored lives instant reaches resume headers baseUrl service operator source bindData
        here base query vectorSize fuel scan gstate next state between [] stands called
      obtain ⟨token, exhausted⟩ := emptied.ended (short positive)
      obtain rfl : early = [] := by simpa using made.symm
      refine ⟨emitted, [], soFar, emptied.held, ?_, ?_, by simp, fun fits => ⟨?_, rfl⟩⟩
      · have queue := emptied.queue
        rwa [exhausted, List.append_nil, List.map_eq_nil_iff] at queue
      · simp [emptied.more, token]
      · rw [table, unread]
        rfl
    · rename_i rows next between _ called
      obtain ⟨emitted, early, soFar, emptied, rfl, kept, -, unread⟩ := copy_call_run engine http
        stored lives instant reaches resume headers baseUrl service operator source bindData here
        base query vectorSize fuel scan gstate next state between rows stands called
      split at ran
      · cases ran
      · rename_i sunkNow final sinks
        obtain ⟨standing, inserted⟩ := copy_sink_run engine http stored lives instant reaches resume
          headers baseUrl service operator source other base query prints casts distinct emitted
          next sinkState sunkNow _ between final emptied sinks
        obtain ⟨last, late, later, held, drained, finished, keptLater, inserts⟩ :=
          ih emitted next sunkNow final standing ran
        have whole : insertedRows engine bindData query (early ++ late) =
            ((early.map (fun made => scanRow engine bindData query.columnIds made.value)).filterMap
              query.project) ++ insertedRows engine bindData query late := by
          rw [insertedRows, List.filterMap_append, List.filterMap_map]
          rfl
        have fromState : Inserts engine stored operator state final sinkState sunkNow
            ((early.map (fun made => scanRow engine bindData query.columnIds made.value)).filterMap
              query.project) := by
          simpa only [Inserts, table, unread] using inserted
        refine ⟨last, early ++ late, run_trans _ _ _ _ scan emitted last early late soFar later,
          held, drained, finished, ?_, ?_⟩
        · intro one member
          exact (List.mem_append.mp member).elim (kept one) (keptLater one)
        · rw [whole]
          exact inserts_append engine stored operator state final after sinkState sunkNow sunk _ _
            fromState inserts

end Drain

end Service

/-! ## What a copy holds -/

section Copy

variable {σ : Type} (http : IHttpClient σ) (stored : String → σ → String → Option Json)
  (lives : σ → String → Prop) (instant : Option Json → Int)
  (reaches : QueryBuilder → Cells → Bool) (resume : QueryBuilder → String → WithBot Position)
  (headers : HttpHeaders) (baseUrl : String)
  (service : CalendarsService engine http stored lives instant reaches resume)

/-- The schema columns of a row, in the order of the schema. -/
theorem scanned_schema (bindData : CalendarScanBindData) (named : bindData.names = eventsNames)
    (predicate : List Value → Bool) (cells : Cells) :
    scannedCells bindData (RowQuery.fromCalendar predicate).columnIds cells =
      eventsNames.map cells := by
  rw [scannedCells, RowQuery.fromCalendar, List.map_map]
  apply List.ext_getElem
  · simp
  · intro index small _
    have inside : index < eventsNames.length := by simpa using small
    simp [cellOf, named, inside]

/-- The row of an event that is kept is put under its id, and its copy is shown. -/
theorem copied_entry (casts : engine.CastsTimes) (empty : engine.parse "" = none)
    (source target id : String) (members : OrderedMap String Json) (allDay : Bool)
    (identified : Identified id (.ofMembers members))
    (keepable : Keepable engine members allDay) (returnChunk : Bool) :
    Fits eventsNames (eventsNames.map (shown engine source (.ofMembers members))) ∧
    insertedEntry engine target ⟨target, eventsNames, returnChunk⟩
        (eventsNames.map (shown engine source (.ofMembers members))) =
      (id, copied target (shown engine source (.ofMembers members))) := by
  have listed := row_value_map eventsNames (shown engine source (.ofMembers members))
  have carries : shown engine source (.ofMembers members) "event_id" = .varchar id := by
    obtain ⟨held, same, found⟩ := identified
    change jsonString (.ofMembers members) "id" = _
    simp only [jsonString, same, Json.find_of_members, found]
  have given : rowValue eventsNames (eventsNames.map (shown engine source (.ofMembers members)))
      "event_id" = .varchar id := by rw [listed "event_id" (by decide), carries]
  refine ⟨⟨⟨id, given⟩, ?_⟩, ?_⟩
  · intro name
    by_cases inSchema : name ∈ eventsNames
    · rw [listed name inSchema]
      exact shown_typed engine source members allDay keepable casts name
    · rw [row_value_unlisted _ _ name inSchema]
      exact null_typed name
  · rw [insertedEntry]
    simp only [given, Value.toText]
    rw [inserted_congr engine target _ _
      (fun name copies => listed name (copied_in_schema name copies)),
      copy_shows engine source members allDay keepable casts empty target]

/-- The events of a scan that a predicate holds of. -/
def chosen (source : String) (predicate : List Value → Bool)
    (handled : List (Handled String Json)) : List (Handled String Json) :=
  handled.filter (fun made => predicate (eventsNames.map (shown engine source made.value)))

/-- The rows that are inserted are those that the chosen events show. -/
theorem chosen_rows (source : String) (bindData : CalendarScanBindData)
    (here : bindData.calendarId = source) (named : bindData.names = eventsNames)
    (predicate : List Value → Bool) (handled : List (Handled String Json)) :
    insertedRows engine bindData (.fromCalendar predicate) handled =
      (chosen engine source predicate handled).map
        (fun made => eventsNames.map (shown engine source made.value)) := by
  rw [chosen, ← List.filterMap_eq_map, List.filterMap_filter]
  apply List.filterMap_congr
  intro made _
  rw [scanned_shown engine source bindData here, scanned_schema bindData named predicate]
  rfl

section Chosen

variable (source : String) (bindData : CalendarScanBindData) (predicate : List Value → Bool)
  (defaults : DefaultWindow) (now : Int) (timeMin timeMax : Option String)
  (bounds : effectiveBounds engine bindData defaults now = .ok (timeMin, timeMax)) (state : σ)
  (last : Scan String Json Position) (handled : List (Handled String Json))
  (run : SharedScan.Run (position instant)
    (window engine source reaches (baseQuery timeMin timeMax)) (fun _ => true) (fun _ => True)
    (opening (stored source state)) handled last)
  (drained : last.queue = []) (lastPage : last.more = false)

include bounds run drained lastPage

/-- The chosen events of a whole scan are the rows of the table that are wanted. -/
theorem chosen_selected :
    Enumerates (table engine source (stored source) state)
      (wantedBy engine reaches defaults now bindData
        (fun cells => predicate (eventsNames.map cells)))
      ((chosen engine source predicate handled).map
        (fun made => (made.item, shown engine source made.value))) := by
  have reached := handled_enumerates _ _ _ (shown engine source)
    (fun cells => reaches (baseQuery timeMin timeMax) cells && true) (fun _ => rfl)
    (stored source state) last handled run drained lastPage
  have filtered := enumerates_filter _ _ (fun cells => predicate (eventsNames.map cells)) _ reached
  have wants : (fun cells => (reaches (baseQuery timeMin timeMax) cells && true) &&
      predicate (eventsNames.map cells)) =
      wantedBy engine reaches defaults now bindData
        (fun cells => predicate (eventsNames.map cells)) := by
    funext cells
    simp only [wantedBy, bounds, Bool.and_true]
  rw [wants, List.filter_map] at filtered
  exact filtered

/-- Each of their rows fits, and what it puts there is the copy of its event's row. -/
theorem chosen_entries (casts : engine.CastsTimes) (empty : engine.parse "" = none)
    (keepable : ∀ id body, stored source state id = some body →
      wantedBy engine reaches defaults now bindData
        (fun cells => predicate (eventsNames.map cells)) (shown engine source body) = true →
      ∃ members allDay, body = .ofMembers members ∧ Keepable engine members allDay)
    (made : ∀ one ∈ handled, one.removed = false ∧ Identified one.item one.value)
    (target : String) (returnChunk : Bool) :
    ∀ one ∈ chosen engine source predicate handled,
      Fits eventsNames (eventsNames.map (shown engine source one.value)) ∧
      insertedEntry engine target ⟨target, eventsNames, returnChunk⟩
          (eventsNames.map (shown engine source one.value)) =
        (one.item, copied target (shown engine source one.value)) := by
  intro one member
  have selected := chosen_selected engine stored instant reaches source bindData predicate defaults
    now timeMin timeMax bounds state last handled run drained lastPage
  have inside := (List.mem_filter.mp member).1
  have found := handled_held _ _ _ (stored source state) last handled run one inside
  have wants := ((selected.listed one.item (shown engine source one.value)).mp
    (List.mem_map.mpr ⟨one, member, rfl⟩)).2
  obtain ⟨members, allDay, shape, keeps⟩ := keepable one.item one.value found wants
  have identified := (made one inside).2
  rw [shape] at identified ⊢
  exact copied_entry engine casts empty source target one.item members allDay identified keeps
    returnChunk

end Chosen

/-- What planning asks of the service, and what it makes of the answer. -/
theorem plan_posted (catalog next : CalendarCatalog) (name : String)
    (columns : List ColumnDefinition) (state after : σ) (operator : CalendarInsert)
    (planned : CalendarCatalog.planCreateTableAs engine ⟨http, headers, baseUrl⟩ catalog name
      columns state = (.ok operator, next, after)) :
    operator = ⟨operator.calendarId, eventsNames, false⟩ ∧
      next = (catalog.addTable ⟨name, operator.calendarId⟩).markCreatedThisSession
        operator.calendarId ∧
      ∃ request response json, request.method = .post ∧ request.path = .calendars ∧
        http.execute request state = (.ok response, after) ∧ response.statusCode = 200 ∧
        engine.parse response.body = some json ∧
        json.valueOr "id" "" Json.getString = .ok operator.calendarId := by
  simp only [CalendarCatalog.planCreateTableAs] at planned
  split at planned
  · cases planned
  · split at planned
    · cases planned
    · rename_i created made posted
      obtain ⟨same, rest⟩ := Prod.mk.inj planned
      obtain ⟨rfl, rfl⟩ := Prod.mk.inj rest
      obtain rfl := Except.ok.inj same
      obtain ⟨-, sent⟩ := GoogleCalendarClient.read_sent_ok _ _ _ _ _ state _ created posted
      obtain ⟨response, json, executed, status, parsed, read⟩ := read_ok engine _ _ created _ sent
      have named : json.valueOr "id" "" Json.getString = .ok created.id := by
        simp only [CalendarListEntry.fromJson, bind, Except.bind, pure, Except.pure] at read
        cases identified : json.valueOr "id" "" Json.getString with
        | error error =>
          rw [identified] at read
          cases read
        | ok id =>
          rw [identified] at read
          dsimp only at read
          split at read
          · cases read
          · split at read
            · cases read
            · split at read
              · cases read
              · split at read
                · cases read
                · rw [← Except.ok.inj read]
      exact ⟨rfl, rfl, _, response, json, rfl, rfl, executed, status, parsed, named⟩

/-- A plan that fails has asked for a calendar at most, and has changed nothing of the catalog. -/
theorem plan_failed (catalog next : CalendarCatalog) (name : String)
    (columns : List ColumnDefinition) (state after : σ) (error : Exception)
    (planned : CalendarCatalog.planCreateTableAs engine ⟨http, headers, baseUrl⟩ catalog name
      columns state = (.error error, next, after)) :
    next = catalog ∧ (after = state ∨ ∃ request, request.method = .post ∧
      request.path = .calendars ∧ after = (http.execute request state).2) := by
  simp only [CalendarCatalog.planCreateTableAs] at planned
  split at planned
  · obtain ⟨-, rest⟩ := Prod.mk.inj planned
    obtain ⟨rfl, rfl⟩ := Prod.mk.inj rest
    exact ⟨rfl, .inl rfl⟩
  · split at planned
    · rename_i posted
      obtain ⟨-, rest⟩ := Prod.mk.inj planned
      obtain ⟨rfl, rfl⟩ := Prod.mk.inj rest
      refine ⟨rfl, ?_⟩
      rcases GoogleCalendarClient.read_sent ⟨http, headers, baseUrl⟩
          (parseResponse engine CalendarListEntry.fromJson) .post .calendars
          (.object [("summary", .string name)]) state with ⟨thrown, -, failed⟩ | ⟨-, sent⟩
      · exact .inl (congrArg Prod.snd (posted.symm.trans failed))
      · exact .inr ⟨_, rfl, rfl, congrArg Prod.snd (posted.symm.trans sent)⟩
    · cases planned

include service

/-- Planning makes a new calendar without events and leaves the others. -/
theorem plan_creates (catalog next : CalendarCatalog) (name : String)
    (columns : List ColumnDefinition) (state after : σ) (operator : CalendarInsert)
    (planned : CalendarCatalog.planCreateTableAs engine ⟨http, headers, baseUrl⟩ catalog name
      columns state = (.ok operator, next, after)) :
    ¬ lives state operator.calendarId ∧ stored operator.calendarId after = (fun _ => none) ∧
      ∀ other, other ≠ operator.calendarId → stored other after = stored other state := by
  obtain ⟨-, -, request, response, json, method, path, executed, status, parsed, named⟩ :=
    plan_posted engine http headers baseUrl catalog next name columns state after operator planned
  exact service.creates request state response after json operator.calendarId method path executed
    status parsed named

omit service in
/-- The first page of the scan writes nothing. -/
theorem first_page_unwritten (reads : ∀ request state, request.method = .get →
      ∀ calendarId, stored calendarId (http.execute request state).2 = stored calendarId state)
    (bindData : CalendarScanBindData) (columnIds : List ColumnId) (defaults : DefaultWindow)
    (now : Int) (state first : σ) (gstate : CalendarScanGlobalState)
    (initialised : calendarScanInitGlobal engine ⟨http, headers, baseUrl⟩ bindData defaults now
      columnIds state = (.ok gstate, first)) (calendarId : String) :
    stored calendarId first = stored calendarId state := by
  have kept := init_keeps engine ⟨http, headers, baseUrl⟩
    (fun before after => stored calendarId after = stored calendarId before) bindData
    ⟨fun _ => rfl, fun _ _ _ early late => late.trans early,
      fun request state method => reads request state method calendarId⟩ defaults now columnIds
      state
  rwa [initialised] at kept

/-- The rows of a scan that are inserted into a calendar without events are what it holds. -/
theorem insert_copies (prints : engine.PrintsTimestamps) (casts : engine.CastsTimes)
    (empty : engine.parse "" = none) (source : String) (operator : CalendarInsert)
    (apart : source ≠ operator.calendarId) (schema : operator.names = eventsNames)
    (bindData : CalendarScanBindData) (here : bindData.calendarId = source)
    (named : bindData.names = eventsNames) (predicate : List Value → Bool)
    (defaults : DefaultWindow) (now : Int) (vectorSize fuel calls : Nat)
    (positive : 0 < vectorSize) (state after : σ) (sunk : CalendarInsertGlobalSinkState)
    (blank : stored operator.calendarId state = fun _ => none)
    (keepable : ∀ id body, stored source state id = some body →
      wantedBy engine reaches defaults now bindData
        (fun cells => predicate (eventsNames.map cells)) (shown engine source body) = true →
      ∃ members allDay, body = .ofMembers members ∧ Keepable engine members allDay)
    (ran : (RowQuery.fromCalendar predicate).insert engine ⟨http, headers, baseUrl⟩ bindData
      operator defaults now vectorSize fuel calls state = some (.ok sunk, after)) :
    let wanted := wantedBy engine reaches defaults now bindData
      (fun cells => predicate (eventsNames.map cells))
    ∃ about, Enumerates (table engine source (stored source) state) wanted about ∧
      table engine operator.calendarId (stored operator.calendarId) after =
        upserted (fun _ => none)
          (about.map (fun row => (row.1, copied operator.calendarId row.2))) ∧
      table engine source (stored source) after = table engine source (stored source) state ∧
      sunk.insertCount = about.length := by
  intro wanted
  simp only [RowQuery.insert] at ran
  cases bounds : effectiveBounds engine bindData defaults now with
  | error error => simp [calendarScanInitGlobal, bounds] at ran
  | ok range =>
    obtain ⟨timeMin, timeMax⟩ := range
    let base := baseQuery timeMin timeMax
    let query := RowQuery.fromCalendar predicate
    have shared := (deleting_service engine http source (stored source) instant reaches resume
      (service.each source) bindData here base).toSharedService
    split at ran
    · cases ran
    · rename_i gstate first initialised
      obtain ⟨scan, opened, stood⟩ := init_run engine http headers baseUrl bindData query.columnIds
        (fun _ => true) base (stored source) instant _ _ _ shared defaults now timeMin timeMax
        bounds rfl state first gstate initialised
      have unread := first_page_unwritten engine http stored headers baseUrl
        (fun request state method calendarId =>
          (service.each calendarId).reads request state method)
        bindData query.columnIds defaults now state first gstate initialised operator.calendarId
      obtain ⟨last, handled, run, held, drained, lastPage, made, inserts⟩ := drain_run engine http
        stored lives instant reaches resume headers baseUrl service operator source apart bindData
        here base query prints casts (schema ▸ events_names_distinct) vectorSize fuel calls positive
        scan gstate {} sunk first after stood ran
      have whole := run_trans _ _ _ _ _ scan last [] handled opened run
      have entries := chosen_entries engine stored instant reaches source bindData predicate
        defaults now timeMin timeMax bounds state last handled whole drained lastPage casts empty
        keepable made operator.calendarId operator.returnChunk
      have shape : operator = ⟨operator.calendarId, eventsNames, operator.returnChunk⟩ := by
        rw [← schema]
      rw [chosen_rows engine source bindData here named predicate handled] at inserts
      obtain ⟨tableNow, counted⟩ := inserts (fun row member => by
        obtain ⟨one, among, rfl⟩ := List.mem_map.mp member
        rw [schema]
        exact (entries one among).1)
      refine ⟨_, chosen_selected engine stored instant reaches source bindData predicate defaults
        now timeMin timeMax bounds state last handled whole drained lastPage, ?_, ?_, ?_⟩
      · have before : table engine operator.calendarId (stored operator.calendarId) first =
            fun _ => none := by
          rw [table, unread, blank]
          rfl
        rw [tableNow, before, List.map_map, List.map_map, shape]
        exact congrArg _ (List.map_congr_left (fun one member => (entries one member).2))
      · have left := handled_left _ _ _ (stored source state) last handled whole
          (fun one member => (made one member).1)
        rw [table, ← held, left]
        rfl
      · rw [counted, List.length_map, List.length_map, Nat.zero_add]

end Copy

/-! ## A small service with several calendars -/

/-- The ids that calendars have had, and their events. -/
structure Shelves where
  used : List String
  shelf : String → Shelf
  distinct : used.Pairwise (fun id other => lowerCase id ≠ lowerCase other)

namespace Shelves

/-- Other events for one calendar. -/
def put (shelves : Shelves) (calendarId : String) (shelf : Shelf) : Shelves :=
  { shelves with shelf := Function.update shelves.shelf calendarId shelf }

/-- One more calendar, without events. -/
def add (shelves : Shelves) (calendarId : String)
    (fresh : ∀ id ∈ shelves.used, lowerCase calendarId ≠ lowerCase id) : Shelves where
  used := calendarId :: shelves.used
  shelf := Function.update shelves.shelf calendarId ⟨.empty, empty_identified⟩
  distinct := List.pairwise_cons.mpr ⟨fresh, shelves.distinct⟩

/-- A calendar has the shelf it was given. -/
@[simp] theorem put_same (shelves : Shelves) (calendarId : String) (shelf : Shelf) :
    (shelves.put calendarId shelf).shelf calendarId = shelf :=
  Function.update_self ..

/-- The other calendars keep theirs. -/
theorem put_other (shelves : Shelves) (calendarId other : String) (shelf : Shelf)
    (apart : other ≠ calendarId) :
    (shelves.put calendarId shelf).shelf other = shelves.shelf other :=
  Function.update_of_ne apart ..

variable (shelves : Shelves) (calendarId : String)
  (fresh : ∀ id ∈ shelves.used, lowerCase calendarId ≠ lowerCase id)

/-- A new calendar has an empty shelf. -/
@[simp] theorem add_same :
    (shelves.add calendarId fresh).shelf calendarId = ⟨.empty, empty_identified⟩ :=
  Function.update_self ..

/-- The other calendars keep theirs when one is added. -/
theorem add_other (other : String) (apart : other ≠ calendarId) :
    (shelves.add calendarId fresh).shelf other = shelves.shelf other :=
  Function.update_of_ne apart ..

include fresh in
/-- A new id is another one than those that have been used. -/
theorem used_apart (other : String) (there : other ∈ shelves.used) : other ≠ calendarId := by
  rintro rfl
  exact fresh other there rfl

end Shelves

/-- The page that lists the first calendar. -/
def workPage : Json := .object [("items", .array [.object [("id", .string "work")]])]

/-- The calendar whose events a request is about. -/
def eventsOf : ResourcePath → Option String
  | .listEvents calendarId _ | .events calendarId | .event calendarId _ => some calendarId
  | .calendarList _ | .calendars | .calendar _ => none

/-- Small calendars side by side. They are listed at first, one more can be made, and any can be
deleted; the ids that have been used are kept. -/
def calendarsHttp (service : ListingService) : IHttpClient Shelves where
  execute request shelves :=
    match eventsOf request.path with
    | some calendarId =>
      let answered := (calendarHttp service).execute request (shelves.shelf calendarId)
      (answered.1, shelves.put calendarId answered.2)
    | none =>
      match request.method, request.path with
      | .get, .calendarList _ =>
          if shelves.used = ["work"] then (.ok ⟨200, "calendars"⟩, shelves)
          else (.ok ⟨400, ""⟩, shelves)
      | .post, .calendars =>
        if fresh : ∀ id ∈ shelves.used, lowerCase "copy" ≠ lowerCase id then
          (.ok ⟨200, "copy"⟩, shelves.add "copy" fresh)
        else (.ok ⟨400, ""⟩, shelves)
      | .del, .calendar calendarId =>
          (.ok ⟨204, ""⟩, shelves.put calendarId ⟨.empty, empty_identified⟩)
      | _, _ => (.ok ⟨400, ""⟩, shelves)

/-- The events of one of the calendars. -/
def heldIn (calendarId : String) (shelves : Shelves) : String → Option Json :=
  ListingService.held (shelves.shelf calendarId)

section Small

variable (service : ListingService)

/-- A request about one calendar is a request to it. -/
theorem execute_about (request : HttpRequest) (shelves : Shelves) (calendarId : String)
    (about : eventsOf request.path = some calendarId) :
    ((calendarsHttp service).execute request shelves).1 =
        ((calendarHttp service).execute request (shelves.shelf calendarId)).1 ∧
      ((calendarsHttp service).execute request shelves).2.shelf calendarId =
        ((calendarHttp service).execute request (shelves.shelf calendarId)).2 := by
  simp [calendarsHttp, about]

/-- A request about other events leaves a calendar that is not made by it. -/
theorem execute_elsewhere (request : HttpRequest) (shelves : Shelves) (calendarId : String)
    (about : eventsOf request.path ≠ some calendarId)
    (unmade : request.method = .get ∨ eventsOf request.path ≠ none) :
    ((calendarsHttp service).execute request shelves).2.shelf calendarId =
      shelves.shelf calendarId := by
  simp only [calendarsHttp]
  split
  · rename_i other named
    have apart : calendarId ≠ other := by
      rintro rfl
      exact about named
    exact shelves.put_other other calendarId _ apart
  · rename_i unnamed
    rw [unmade.resolve_right (fun named => named unnamed)]
    split
    · split <;> rfl
    · rename_i same _
      cases same
    · rename_i same _
      cases same
    · rfl

variable (engine : Engine) (parses : ∀ text, engine.parse text = service.documents.lookup text)
  (reaches : Cells → Bool)
  (windowed : ∀ calendarId body, service.window body = reaches (shown engine calendarId body))

include parses windowed

/-- Each of the calendars is a table service. -/
theorem small_each (calendarId : String) :
    TableService engine (calendarsHttp service) calendarId (heldIn calendarId) service.instant
      (fun _ => reaches) (fun _ => service.resume) := by
  have alone := small_calendar service engine parses calendarId reaches (windowed calendarId)
  have asked : ∀ request shelves response after, eventsOf request.path = some calendarId →
      (calendarsHttp service).execute request shelves = (.ok response, after) →
      (calendarHttp service).execute request (shelves.shelf calendarId) =
        (.ok response, after.shelf calendarId) := by
    intro request shelves response after about executed
    obtain ⟨answer, left⟩ := execute_about service request shelves calendarId about
    rw [executed] at answer left
    exact Prod.ext answer.symm left.symm
  have leaves : ∀ request shelves, eventsOf request.path = some calendarId →
      heldIn calendarId ((calendarsHttp service).execute request shelves).2 =
        ListingService.held
          ((calendarHttp service).execute request (shelves.shelf calendarId)).2 :=
    fun request shelves about =>
      congrArg ListingService.held (execute_about service request shelves calendarId about).2
  constructor
  · exact fun shelves => alone.identified (shelves.shelf calendarId)
  · exact alone.starts
  · intro request shelves method
    by_cases about : eventsOf request.path = some calendarId
    · rw [leaves request shelves about]
      exact alone.reads request (shelves.shelf calendarId) method
    · have kept := execute_elsewhere service request shelves calendarId about
        (.inl method)
      exact congrArg ListingService.held kept
  · intro base request token shelves response after json following method path executed
    have about : eventsOf request.path = some calendarId := by rw [path]; rfl
    exact alone.lists base request token (shelves.shelf calendarId) response _ json following method
      path (asked request shelves response after about executed)
  · intro request id shelves response after json method path executed
    have about : eventsOf request.path = some calendarId := by rw [path]; rfl
    exact alone.gets request id (shelves.shelf calendarId) response _ json method path
      (asked request shelves response after about executed)
  · intro request id body shelves method path sent carries
    have about : eventsOf request.path = some calendarId := by rw [path]; rfl
    rw [leaves request shelves about, (execute_about service request shelves calendarId about).1]
    exact alone.posts request id body (shelves.shelf calendarId) method path sent carries
  · intro request id body shelves response after method path sent carries executed
    have about : eventsOf request.path = some calendarId := by rw [path]; rfl
    exact alone.puts request id body (shelves.shelf calendarId) response _ method path sent carries
      (asked request shelves response after about executed)
  · intro request id shelves method path
    have about : eventsOf request.path = some calendarId := by rw [path]; rfl
    rw [leaves request shelves about, (execute_about service request shelves calendarId about).1]
    exact alone.deletes request id (shelves.shelf calendarId) method path

/-- Together they are a service of calendars, when the answer that one was made names it. -/
theorem small_calendars (named : ∃ json, engine.parse "copy" = some json ∧
      json.valueOr "id" "" Json.getString = .ok "copy") :
    CalendarsService engine (calendarsHttp service) heldIn
      (fun shelves calendarId => calendarId ∈ shelves.used) service.instant (fun _ => reaches)
      (fun _ => service.resume) where
  each := small_each service engine parses reaches windowed
  apart request shelves calendarId other apart path := by
    have about : eventsOf request.path = some other := by
      rcases path with same | ⟨id, same⟩ <;> rw [same] <;> rfl
    have kept := execute_elsewhere service request shelves calendarId
      (by rw [about]; exact fun same => apart (Option.some.inj same).symm)
      (.inr (by rw [about]; simp))
    exact congrArg ListingService.held kept
  creates request shelves response after json calendarId method path executed status parsed
      identified := by
    obtain ⟨answer, reads, copy⟩ := named
    simp only [calendarsHttp, method, path, eventsOf] at executed
    split at executed
    · rename_i fresh
      obtain ⟨answered, rfl⟩ := Prod.mk.inj executed
      obtain rfl := Except.ok.inj answered
      obtain rfl := Option.some.inj (reads.symm.trans parsed)
      obtain rfl := Except.ok.inj (copy.symm.trans identified)
      refine ⟨fun there => fresh "copy" there rfl, ?_, fun other apart => ?_⟩
      · funext id
        simp [heldIn, ListingService.held]
      · simp only [heldIn, shelves.add_other "copy" fresh other apart]
    · obtain ⟨answered, -⟩ := Prod.mk.inj executed
      obtain rfl := Except.ok.inj answered
      cases status

end Small

/-! A calendar with one meeting is copied. -/

/-- A morning with an id. -/
def meeting : OrderedMap String Json := TimeNodes.morning.insert "id" (.string "a")

/-- The meeting as its copy is posted: its end has no time zone any more. -/
def postedMeeting : Json :=
  .object [("end", .object [("dateTime", .string "2026-06-10T10:00:00Z")]), ("id", .string "a"),
    ("start", .object [("dateTime", .string "2026-06-10T09:00:00Z")])]

/-- The bodies and pages that name the meeting. -/
def meetingDocuments : List (String × Json) :=
  [("meeting", .ofMembers meeting), ("copy", .object [("id", .string "copy")]),
    ("posted", postedMeeting),
    ("page", ListingService.pageJson [("a", .ofMembers meeting)] ""),
    ("calendars", workPage), ("copied page", ListingService.pageJson [("a", postedMeeting)] "")] ++
    meeting.entries.map (fun member => (member.2.dump, member.2))

/-- They have texts of their own. -/
theorem meeting_texts_distinct : (meetingDocuments.map Prod.fst).Nodup := by decide +kernel

/-- A service that lists a shelf in one page. -/
def meetingService : ListingService where
  size := 2
  instant _ := 0
  window _ := true
  documents := meetingDocuments
  tokens := []
  documentsDistinct := meeting_texts_distinct
  tokensDistinct := List.Pairwise.nil
  tokensNonempty := List.not_mem_nil

/-- The engine that reads what the service writes. -/
def meetingEngine : Engine := .documented meetingService.documents

/-- The meeting is an event that a copy keeps. -/
theorem meeting_keepable : Keepable meetingEngine meeting false where
  scheduled := by
    rintro key (rfl | rfl)
    · obtain ⟨node, found, denotes⟩ := (morning_bears meetingService.documents).1
      exact ⟨20614, 1781082000000000, ⟨node, by simpa [meeting, Json.find_of_members,
        OrderedMap.find_insert] using found, denotes⟩, by decide⟩
    · obtain ⟨node, found, denotes⟩ := (morning_bears meetingService.documents).2
      exact ⟨20614, 1781085600000000, ⟨node, by simpa [meeting, Json.find_of_members,
        OrderedMap.find_insert] using found, denotes⟩, by decide⟩
  roundTrips key json held := by
    have all : ∀ member ∈ meeting.entries,
        meetingEngine.parse member.2.dump = some member.2 := by decide +kernel
    exact all (key, json) (SortedEntries.find_mem key json meeting.entries held)

/-- Its id is the one it is stored under. -/
theorem meeting_identified : Identified "a" (.ofMembers meeting) := ⟨meeting, rfl, by decide⟩

/-- One calendar, with the meeting. -/
def workShelves : Shelves where
  used := ["work"]
  shelf _ := ListingService.store ⟨.empty, empty_identified⟩ "a" (.ofMembers meeting)
    meeting_identified
  distinct := List.pairwise_singleton ..

/-- A scan of that calendar. -/
def workScan : CalendarScanBindData :=
  { calendarId := "work", names := eventsNames, timeMin := "1970-01-01T00:00:00Z",
    hasLower := true }

/-- Its copy. -/
def copyWork :
    Option (Except Exception CalendarInsertGlobalSinkState × CalendarCatalog × Shelves) :=
  (RowQuery.fromCalendar (fun _ => true)).createTableAs meetingEngine
    ⟨calendarsHttp meetingService, [], ""⟩ workScan ⟨.empty, .empty, .empty⟩ "backup" eventsColumns
    {} 0 5 9 3 workShelves

end GoogleCalendar.CopiedCalendar
