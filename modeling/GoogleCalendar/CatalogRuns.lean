import GoogleCalendar.CalendarCatalog
import GoogleCalendar.Exchanges

/-!
# Runs of an attachment

Two things change as a session goes on: the catalog, and the record of what went
over the wire. `Step` says what one statement can do to both. A statement may
leave the catalog alone and send nothing of interest; it may create a calendar,
register its table and fill it; it may delete the calendar of a table; or the
deletion may fail. `run_step` is the one place where the statements are taken
apart, and invariants are proved from `Step`.

The exchanges are read with the functions the client itself reads responses
with: a calendar was returned, listed or deleted when the client takes it so.
-/

namespace GoogleCalendar

open Library Exchanges

namespace Exchange

variable (engine : Engine)

/-- The id of the new calendar that a request returned. -/
def returnedId (exchange : Exchange) : Option String :=
  if exchange.request.method = .post ∧ exchange.request.path = .calendars then
    match exchange.answer.bind (parseResponse engine CalendarListEntry.fromJson) with
    | .ok created => some created.id
    | .error _ => none
  else none

/-- The ids on the page of the calendar list that a request returned. -/
def listedIds (exchange : Exchange) : List String :=
  match exchange.request.method, exchange.request.path with
  | .get, .calendarList _ =>
    match exchange.answer.bind (parseResponse engine CalendarListResponse.fromJson) with
    | .ok response => response.items.map CalendarListEntry.id
    | .error _ => []
  | _, _ => []

/-- The calendar that a request asks to delete. -/
def deletes (exchange : Exchange) : Option String :=
  match exchange.request.method, exchange.request.path with
  | .del, .calendar calendarId => some calendarId
  | _, _ => none

/-- The calendar that a request has deleted. -/
def deletedId (exchange : Exchange) : Option String :=
  match exchange.answer.bind readDeleted with
  | .ok () => exchange.deletes
  | .error _ => none

/-- No new calendar, no page of the calendar list and no deletion of a calendar. -/
structure Idle (exchange : Exchange) : Prop where
  returned : exchange.returnedId engine = none
  listed : exchange.listedIds engine = []
  deletes : exchange.deletes = none

/-- What was deleted was asked to be. -/
theorem deleted_deletes (exchange : Exchange) (calendarId : String)
    (deleted : exchange.deletedId = some calendarId) : exchange.deletes = some calendarId := by
  simp only [deletedId] at deleted
  split at deleted
  · exact deleted
  · simp at deleted

/-- A deletion that is not acknowledged is none. -/
theorem undeleted (exchange : Exchange) (failed : exchange.answer.bind readDeleted ≠ .ok ()) :
    exchange.deletedId = none := by
  simp only [deletedId]
  split
  · exact absurd ‹_› failed
  · rfl

/-- A request that deletes a calendar returns and lists none. -/
theorem deletes_only (exchange : Exchange) (calendarId : String)
    (deletes : exchange.deletes = some calendarId) :
    exchange.returnedId engine = none ∧ exchange.listedIds engine = [] := by
  simp only [Exchange.deletes] at deletes
  split at deletes
  · rename_i method path
    simp [returnedId, listedIds, method]
  · simp at deletes

/-- A request that returns a new calendar lists and deletes none. -/
theorem returned_only (exchange : Exchange) (calendarId : String)
    (returned : exchange.returnedId engine = some calendarId) :
    exchange.listedIds engine = [] ∧ exchange.deletes = none := by
  simp only [returnedId] at returned
  split at returned
  · rename_i posted
    simp [listedIds, deletes, posted.1]
  · simp at returned

/-- Requests about events concern no calendar of the catalog. -/
theorem idle_event (exchange : Exchange) (calendarId : String)
    (about : exchange.request.path = .events calendarId ∨
      ∃ id, exchange.request.path = .event calendarId id) : exchange.Idle engine := by
  rcases about with path | ⟨id, path⟩ <;>
    exact ⟨by simp [returnedId, path], by simp [listedIds, path], by simp [deletes, path]⟩

/-- The POST of a calendar that is not read returns, lists and deletes none. -/
theorem idle_post (exchange : Exchange) (method : exchange.request.method = .post)
    (path : exchange.request.path = .calendars)
    (unread : ∀ created,
      exchange.answer.bind (parseResponse engine CalendarListEntry.fromJson) ≠ .ok created) :
    exchange.Idle engine := by
  refine ⟨?_, by simp [listedIds, method], by simp [deletes, method]⟩
  simp only [returnedId, method, path, and_self, if_true]
  split
  · exact absurd ‹_› (unread _)
  · rfl

end Exchange

namespace CatalogRuns

open CalendarCatalog

variable {σ : Type} (engine : Engine) (retrying : RetryingHttpClient σ) (headers : HttpHeaders)
  (baseUrl : String)

/-- What a statement can do to the catalog and to the record. -/
inductive Step : Statement → CalendarCatalog → σ × List Exchange → CalendarCatalog →
    List Exchange → Prop where
  | idle (statement : Statement) (catalog : CalendarCatalog) (state : σ × List Exchange)
      (more : List Exchange) (idle : ∀ exchange ∈ more, exchange.Idle engine) :
      Step statement catalog state catalog (state.2 ++ more)
  | created (orReplace : Bool) (table : String) (columns : List ColumnDefinition)
      (rows : List (List Value)) (catalog : CalendarCatalog) (state : σ × List Exchange)
      (refused : List Exchange) (post : Exchange) (filling : List Exchange)
      (created : CalendarListEntry)
      (free : orReplace = true ∨ catalog.tables.contains table = false)
      (valid : validateEventsColumns columns = .ok ())
      (accepted : (CalendarsResource.insert engine (recordedClient retrying headers baseUrl) table
        state).1 = .ok created)
      (early : ∀ exchange ∈ refused, exchange.Idle engine)
      (returned : post.returnedId engine = some created.id)
      (late : ∀ exchange ∈ filling, exchange.Idle engine) :
      Step (.createTableAs orReplace table columns rows) catalog state
        ((catalog.addTable ⟨table, created.id⟩).markCreatedThisSession created.id)
        (state.2 ++ (refused ++ post :: filling))
  | dropped (info : DropInfo) (table : CalendarTableEntry) (catalog : CalendarCatalog)
      (state : σ × List Exchange) (refused : List Exchange) (deletion : Exchange)
      (found : catalog.tables.find info.name = some table)
      (created : catalog.wasCreatedThisSession table.calendarId = true)
      (early : ∀ exchange ∈ refused,
        exchange.deletes = some table.calendarId ∧ exchange.deletedId = none)
      (done : deletion.deletedId = some table.calendarId) :
      Step (.dropTable info) catalog state
        { catalog.forgetCreatedThisSession table.calendarId with
          tables := catalog.tables.erase info.name }
        (state.2 ++ (refused ++ [deletion]))
  | kept (info : DropInfo) (table : CalendarTableEntry) (catalog : CalendarCatalog)
      (state : σ × List Exchange) (more : List Exchange)
      (found : catalog.tables.find info.name = some table)
      (created : catalog.wasCreatedThisSession table.calendarId = true)
      (failed : ∀ exchange ∈ more,
        exchange.deletes = some table.calendarId ∧ exchange.deletedId = none) :
      Step (.dropTable info) catalog state catalog (state.2 ++ more)

/-- The POST of a new calendar that is read adds refused attempts and the one
that returned it. -/
theorem insert_calendar_ok (summary : String) (state after : σ × List Exchange)
    (created : CalendarListEntry)
    (outcome : CalendarsResource.insert engine (recordedClient retrying headers baseUrl) summary
      state = (.ok created, after)) :
    ∃ refused post, after.2 = state.2 ++ (refused ++ [post]) ∧
      (∀ exchange ∈ refused, exchange.Idle engine) ∧
      post.returnedId engine = some created.id := by
  obtain ⟨-, sent⟩ := (recordedClient retrying headers baseUrl).read_sent_ok _ .post .calendars _
    state after created outcome
  obtain ⟨refused, answer, grown, early, read⟩ := read_ok_tries retrying
    (parseResponse engine CalendarListEntry.fromJson) (parse_strict engine _) _ state after created
    sent
  refine ⟨refused, _, grown, ?_, ?_⟩
  · intro exchange member
    obtain ⟨requested, again⟩ := early exchange member
    exact exchange.idle_post engine (by rw [requested]; rfl) (by rw [requested]; rfl)
      (refused_unread _ (parse_strict engine _) exchange again)
  · simp [Exchange.returnedId, GoogleCalendarClient.request, read]

/-- A calendar that fails to be created leaves no creation in the record. -/
theorem insert_calendar_error (summary : String) (state after : σ × List Exchange)
    (error : Exception)
    (outcome : CalendarsResource.insert engine (recordedClient retrying headers baseUrl) summary
      state = (.error error, after)) :
    Traces.Adds (Exchange.Idle engine) state.2 after.2 := by
  rcases (recordedClient retrying headers baseUrl).read_sent
    (parseResponse engine CalendarListEntry.fromJson) .post .calendars
    (.object [("summary", .string summary)]) state with ⟨failure, -, failed⟩ | ⟨-, sent⟩
  · obtain ⟨-, rfl⟩ := Prod.mk.inj (failed.symm.trans outcome)
    exact Traces.adds_refl _ _
  · obtain ⟨more, grown, unread⟩ := read_error_tries retrying
      (parseResponse engine CalendarListEntry.fromJson) (parse_strict engine _) _ state after error
      (sent.symm.trans outcome)
    refine ⟨more, grown, ?_⟩
    intro exchange member
    obtain ⟨requested, failed⟩ := unread exchange member
    exact exchange.idle_post engine (by rw [requested]; rfl) (by rw [requested]; rfl) failed

/-- The DELETE of a calendar that succeeds adds refused attempts and the one
that deleted it. -/
theorem delete_calendar_ok (calendarId : String) (state after : σ × List Exchange)
    (outcome : CalendarsResource.delete (recordedClient retrying headers baseUrl) calendarId
      state = (.ok (), after)) :
    ∃ refused deletion, after.2 = state.2 ++ (refused ++ [deletion]) ∧
      (∀ exchange ∈ refused, exchange.deletes = some calendarId ∧ exchange.deletedId = none) ∧
      deletion.deletedId = some calendarId := by
  obtain ⟨refused, answer, grown, early, read⟩ := read_ok_tries retrying readDeleted delete_strict _
    state after () outcome
  refine ⟨refused, _, grown, ?_, ?_⟩
  · intro exchange member
    obtain ⟨requested, again⟩ := early exchange member
    exact ⟨by rw [Exchange.deletes, requested]; rfl,
      exchange.undeleted (refused_unread _ delete_strict exchange again ())⟩
  · simp only [Exchange.deletedId, read]
    rfl

/-- A deletion that fails asks for its calendar, and none is acknowledged. -/
theorem delete_calendar_error (calendarId : String) (state after : σ × List Exchange)
    (error : Exception)
    (outcome : CalendarsResource.delete (recordedClient retrying headers baseUrl) calendarId
      state = (.error error, after)) :
    Traces.Adds (fun exchange => exchange.deletes = some calendarId ∧ exchange.deletedId = none)
      state.2 after.2 := by
  obtain ⟨more, grown, failed⟩ := read_error_tries retrying readDeleted delete_strict _ state after
    error outcome
  refine ⟨more, grown, ?_⟩
  intro exchange member
  obtain ⟨requested, unread⟩ := failed exchange member
  exact ⟨by rw [Exchange.deletes, requested]; rfl, exchange.undeleted (unread ())⟩

/-- A request about events adds idle exchanges, whatever comes back. -/
theorem event_request_idle {α : Type} (read : HttpResponse → Except Exception α)
    (request : HttpRequest) (calendarId : String)
    (about : request.path = .events calendarId ∨ ∃ id, request.path = .event calendarId id)
    (state : σ × List Exchange) :
    Traces.Adds (Exchange.Idle engine) state.2
      (readResponse read ((recorded retrying).execute request state)).2.2 := by
  obtain ⟨more, grown, tried⟩ := execute_tries retrying request state
  refine ⟨more, grown, ?_⟩
  intro exchange member
  apply exchange.idle_event engine calendarId
  rw [tries_request request _ more tried exchange member]
  exact about

/-- A body about events that is sent adds idle exchanges. -/
theorem event_body_idle {α : Type} (read : HttpResponse → Except Exception α) (method : HttpMethod)
    (path : ResourcePath) (body : Json) (calendarId : String)
    (about : path = .events calendarId ∨ ∃ id, path = .event calendarId id)
    (state : σ × List Exchange) :
    Traces.Adds (Exchange.Idle engine) state.2 (readResponse read
      ((recordedClient retrying headers baseUrl).send method path body state)).2.2 := by
  rcases (recordedClient retrying headers baseUrl).read_sent read method path body state with
    ⟨failure, -, failed⟩ | ⟨-, sent⟩
  · rw [failed]
    exact Traces.adds_refl _ _
  · rw [sent]
    exact event_request_idle engine retrying read _ calendarId about state

/-- The POST of an event, and the PUT on a conflict, add idle exchanges. -/
theorem create_event_idle (operator : CalendarInsert) (event : Json) (state : σ × List Exchange) :
    Traces.Adds (Exchange.Idle engine) state.2
      (CalendarInsert.createEvent engine (recordedClient retrying headers baseUrl) operator event
        state).2.2 := by
  have post : Traces.Adds (Exchange.Idle engine) state.2
      (EventsResource.insert engine (recordedClient retrying headers baseUrl) operator.calendarId
        event state).2.2 :=
    event_body_idle engine retrying headers baseUrl _ .post _ event operator.calendarId
      (Or.inl rfl) state
  have put : ∀ id (between : σ × List Exchange), Traces.Adds (Exchange.Idle engine) between.2
      (EventsResource.update engine (recordedClient retrying headers baseUrl) operator.calendarId
        id event between).2.2 := fun id between =>
    event_body_idle engine retrying headers baseUrl _ .put _ event operator.calendarId
      (Or.inr ⟨id, rfl⟩) between
  simp only [CalendarInsert.createEvent]
  split
  · rename_i outcome
    simpa only [outcome] using post
  · rename_i outcome
    rw [outcome] at post
    split
    · split
      · exact Traces.adds_trans _ _ _ _ post (put _ _)
      · exact post
    · exact post
  · rename_i outcome
    simpa only [outcome] using post

/-- A row that is inserted creates and deletes no calendar. -/
theorem sink_row_idle (operator : CalendarInsert) (row : List Value)
    (gstate : CalendarInsertGlobalSinkState) (state : σ × List Exchange) :
    Traces.Adds (Exchange.Idle engine) state.2
      (CalendarInsert.sinkRow engine (recordedClient retrying headers baseUrl) operator row gstate
        state).2.2.2 := by
  simp only [CalendarInsert.sinkRow]
  split
  · exact Traces.adds_refl _ _
  · rename_i event built
    have created := create_event_idle engine retrying headers baseUrl operator event state
    split
    · rename_i outcome
      simpa only [outcome] using created
    · rename_i outcome
      simpa only [outcome] using created

/-- Filling a calendar adds idle exchanges, however far it gets. -/
theorem sink_idle (operator : CalendarInsert) (rows : List (List Value))
    (gstate : CalendarInsertGlobalSinkState) (state : σ × List Exchange) :
    Traces.Adds (Exchange.Idle engine) state.2
      (CalendarInsert.sink engine (recordedClient retrying headers baseUrl) operator rows gstate
        state).2.2.2 := by
  induction rows generalizing gstate state with
  | nil => exact Traces.adds_refl _ _
  | cons row rest ih =>
    have first := sink_row_idle engine retrying headers baseUrl operator row gstate state
    simp only [CalendarInsert.sink]
    split
    · rename_i outcome
      simpa only [outcome] using first
    · rename_i outcome
      rw [outcome] at first
      exact Traces.adds_trans _ _ _ _ first (ih _ _)

/-- A CREATE TABLE ... AS whose calendar is created registers its table, whatever
becomes of its rows. -/
theorem create_table_created (orReplace : Bool) (table : String) (columns : List ColumnDefinition)
    (rows : List (List Value)) (catalog : CalendarCatalog) (state between : σ × List Exchange)
    (created : CalendarListEntry)
    (free : orReplace = true ∨ catalog.tables.contains table = false)
    (valid : validateEventsColumns columns = .ok ())
    (posted : CalendarsResource.insert engine (recordedClient retrying headers baseUrl)
      table state =
      (.ok created, between)) :
    let statement := Statement.createTableAs orReplace table columns rows
    let outcome := statement.run engine (recordedClient retrying headers baseUrl) catalog state
    ∃ refused post filling,
      outcome.2.1 = (catalog.addTable ⟨table, created.id⟩).markCreatedThisSession created.id ∧
      outcome.2.2.2 = state.2 ++ (refused ++ post :: filling) ∧
      (∀ exchange ∈ refused, exchange.Idle engine) ∧ post.returnedId engine = some created.id ∧
      ∀ exchange ∈ filling, exchange.Idle engine := by
  intro statement outcome
  have passes : (!orReplace && catalog.tables.contains table) = false := by
    cases free with
    | inl replaces => simp [replaces]
    | inr absent => simp [absent]
  obtain ⟨refused, post, grown, early, returned⟩ := insert_calendar_ok engine retrying headers
    baseUrl table state between created posted
  obtain ⟨filling, filled, late⟩ := sink_idle engine retrying headers baseUrl
    ⟨created.id, eventsNames, false⟩ rows {} between
  refine ⟨refused, post, filling, ?_, ?_, early, returned, late⟩
  · simp only [outcome, statement, Statement.run, passes, Bool.false_eq_true, if_false,
      planCreateTableAs, valid, posted]
  · simp only [outcome, statement, Statement.run, passes, Bool.false_eq_true, if_false,
      planCreateTableAs, valid, posted, filled, grown]
    simp

/-- What CREATE TABLE AS does to the catalog and the record. -/
theorem create_table_step (orReplace : Bool) (table : String) (columns : List ColumnDefinition)
    (rows : List (List Value)) (catalog : CalendarCatalog) (state : σ × List Exchange) :
    let statement := Statement.createTableAs orReplace table columns rows
    let outcome := statement.run engine (recordedClient retrying headers baseUrl) catalog state
    Step engine retrying headers baseUrl statement catalog state outcome.2.1 outcome.2.2.2 := by
  intro statement outcome
  have unsent : Step engine retrying headers baseUrl statement catalog state catalog state.2 := by
    simpa using Step.idle statement catalog state [] (by simp)
  by_cases taken : (!orReplace && catalog.tables.contains table) = true
  · simpa only [outcome, statement, Statement.run, taken, if_true] using unsent
  have free : orReplace = true ∨ catalog.tables.contains table = false := by
    cases orReplace <;> simp_all
  cases valid : validateEventsColumns columns with
  | error error =>
    simpa only [outcome, statement, Statement.run, taken, Bool.false_eq_true, if_false,
      planCreateTableAs, valid] using unsent
  | ok done =>
    rcases posted : CalendarsResource.insert engine (recordedClient retrying headers baseUrl) table
      state with ⟨answer, between⟩
    cases answer with
    | error error =>
      obtain ⟨more, grown, idle⟩ := insert_calendar_error engine retrying headers baseUrl table
        state between error posted
      simp only [outcome, statement, Statement.run, taken, Bool.false_eq_true, if_false,
        planCreateTableAs, valid, posted, grown]
      exact .idle _ catalog state more idle
    | ok created =>
      obtain ⟨refused, post, filling, next, record, early, returned, late⟩ := create_table_created
        engine retrying headers baseUrl orReplace table columns rows catalog state between created
        free valid posted
      simp only [outcome, statement, next, record]
      exact .created orReplace table columns rows catalog state refused post filling created free
        valid (by rw [posted]) early returned late

/-- What DROP TABLE does to the catalog and the record. -/
theorem drop_table_step (info : DropInfo) (catalog : CalendarCatalog) (state : σ × List Exchange) :
    let outcome := dropEntry (recordedClient retrying headers baseUrl) catalog info state
    Step engine retrying headers baseUrl (.dropTable info) catalog state outcome.2.1
      outcome.2.2.2 := by
  intro outcome
  have unsent : Step engine retrying headers baseUrl (.dropTable info) catalog state catalog
      state.2 := by
    simpa using Step.idle (.dropTable info) catalog state [] (by simp)
  by_cases isTable : info.type = .tableEntry
  swap
  · simpa only [outcome, dropEntry, ne_eq, isTable, not_false_eq_true, if_true] using unsent
  simp only [outcome, dropEntry, isTable, ne_eq, not_true, if_false]
  cases found : catalog.tables.find info.name with
  | none =>
    dsimp only
    split
    · exact unsent
    · exact unsent
  | some table =>
    dsimp only
    cases created : catalog.wasCreatedThisSession table.calendarId with
    | false => exact unsent
    | true =>
      simp only [Bool.not_true, Bool.false_eq_true, if_false]
      rcases deleted : CalendarsResource.delete (recordedClient retrying headers baseUrl)
        table.calendarId state with ⟨answer, after⟩
      cases answer with
      | error error =>
        obtain ⟨more, grown, failed⟩ := delete_calendar_error retrying headers baseUrl
          table.calendarId state after error deleted
        simp only [grown]
        exact .kept info table catalog state more found created failed
      | ok done =>
        obtain ⟨refused, deletion, grown, early, gone⟩ := delete_calendar_ok retrying headers
          baseUrl table.calendarId state after deleted
        simp only [grown]
        exact .dropped info table catalog state refused deletion found created early gone

/-- Every statement does one of the things that `Step` lists. -/
theorem run_step (statement : Statement) (catalog : CalendarCatalog) (state : σ × List Exchange) :
    let outcome := statement.run engine (recordedClient retrying headers baseUrl) catalog state
    Step engine retrying headers baseUrl statement catalog state outcome.2.1 outcome.2.2.2 := by
  cases statement with
  | createTableAs orReplace table columns rows =>
    exact create_table_step engine retrying headers baseUrl orReplace table columns rows catalog
      state
  | dropTable info => exact drop_table_step engine retrying headers baseUrl info catalog state

/-- Every statement extends the record. -/
theorem step_extends (statement : Statement) (catalog next : CalendarCatalog)
    (state : σ × List Exchange) (record : List Exchange)
    (step : Step engine retrying headers baseUrl statement catalog state next record) :
    ∃ more, record = state.2 ++ more := by
  cases step <;> exact ⟨_, rfl⟩

/-- Statements run one part after the other. -/
theorem run_all_append (client : GoogleCalendarClient σ) (first rest : List Statement)
    (catalog : CalendarCatalog) (state : σ) :
    Statement.runAll engine client (first ++ rest) catalog state =
      let between := Statement.runAll engine client first catalog state
      Statement.runAll engine client rest between.1 between.2 := by
  induction first generalizing catalog state with
  | nil => rfl
  | cons statement first ih => exact ih _ _

/-- The run of a session's statements after the catalog is loaded. -/
def reached (loaded : CalendarCatalog) (state : σ × List Exchange) (statements : List Statement) :
    CalendarCatalog × (σ × List Exchange) :=
  Statement.runAll engine (recordedClient retrying headers baseUrl) statements loaded state

/-- The last statement runs where the ones before it lead. -/
theorem reached_snoc (loaded : CalendarCatalog) (state : σ × List Exchange)
    (statements : List Statement) (statement : Statement) :
    reached engine retrying headers baseUrl loaded state (statements ++ [statement]) =
      let before := reached engine retrying headers baseUrl loaded state statements
      (statement.run engine (recordedClient retrying headers baseUrl) before.1 before.2).2 :=
  run_all_append engine _ statements [statement] loaded state

/-- What every statement keeps that meets a condition where it runs holds after
every run of such statements. Induct on the run from its end. -/
theorem run_invariant (condition : CalendarCatalog → σ × List Exchange → Statement → Prop)
    (holds : CalendarCatalog → List Exchange → Prop)
    (kept : ∀ statement catalog state next record, condition catalog state statement →
      Step engine retrying headers baseUrl statement catalog state next record →
      holds catalog state.2 → holds next record)
    (loaded : CalendarCatalog) (state : σ × List Exchange) (start : holds loaded state.2)
    (statements : List Statement)
    (met : Traces.Lawful (fun earlier statement =>
      condition (reached engine retrying headers baseUrl loaded state earlier).1
        (reached engine retrying headers baseUrl loaded state earlier).2 statement) statements) :
    holds (reached engine retrying headers baseUrl loaded state statements).1
      (reached engine retrying headers baseUrl loaded state statements).2.2 := by
  induction statements using List.reverseRecOn with
  | nil => exact start
  | append_singleton earlier statement ih =>
    obtain ⟨before, here⟩ := (Traces.lawful_snoc_iff _ earlier statement).mp met
    rw [reached_snoc]
    exact kept statement _ _ _ _ here (run_step engine retrying headers baseUrl statement _ _)
      (ih before)

/-- A longer run extends the record. -/
theorem reached_extends (loaded : CalendarCatalog) (state : σ × List Exchange)
    (first rest : List Statement) :
    ∃ more, (reached engine retrying headers baseUrl loaded state (first ++ rest)).2.2 =
      (reached engine retrying headers baseUrl loaded state first).2.2 ++ more := by
  rw [reached, run_all_append]
  refine run_invariant engine retrying headers baseUrl (fun _ _ _ => True)
    (fun _ log => ∃ more,
      log = (reached engine retrying headers baseUrl loaded state first).2.2 ++ more)
    ?_ _ _ ⟨[], by simp [reached]⟩ rest (fun _ _ _ _ => trivial)
  rintro statement catalog current next record - step ⟨more, grown⟩
  obtain ⟨added, rfl⟩ := step_extends engine retrying headers baseUrl statement catalog next current
    record step
  exact ⟨more ++ added, by simp [grown]⟩

/-- The tables that the enumeration mounts: each name, and the calendar it is
for. -/
def mounts (catalog : CalendarCatalog) (listed : List String) : List (String × String) :=
  listed.flatMap (fun calendarId =>
    (catalog.tableNames calendarId).map (fun name => (name, calendarId)))

/-- Names mounted one after another. -/
def mountAll (tables : List (String × String)) (catalog : CalendarCatalog) : CalendarCatalog :=
  tables.foldl (fun catalog mount => catalog.addTable ⟨mount.1, mount.2⟩) catalog

/-- Mounting changes the table map only. -/
theorem mount_all_keeps (tables : List (String × String)) (catalog : CalendarCatalog) :
    (mountAll tables catalog).calendarAliases = catalog.calendarAliases ∧
    (mountAll tables catalog).createdCalendarIds = catalog.createdCalendarIds := by
  induction tables generalizing catalog with
  | nil => exact ⟨rfl, rfl⟩
  | cons mount rest ih => exact ih (catalog.addTable ⟨mount.1, mount.2⟩)

/-- Mounting the listed calendars one by one mounts all their tables. -/
theorem mount_calendars (calendars : List CalendarListEntry) (catalog : CalendarCatalog) :
    calendars.foldl mountCalendar catalog =
      mountAll (mounts catalog (calendars.map CalendarListEntry.id)) catalog := by
  induction calendars generalizing catalog with
  | nil => rfl
  | cons cal rest ih =>
    let names := (catalog.tableNames cal.id).map (fun name => (name, cal.id))
    have first : mountCalendar catalog cal = mountAll names catalog := by
      simp only [mountCalendar, mountAll, names, List.foldl_map]
    have same : ∀ listed, mounts (mountAll names catalog) listed = mounts catalog listed := by
      intro listed
      simp only [mounts, tableNames, (mount_all_keeps names catalog).1]
    rw [List.foldl_cons, ih, first, same]
    simp only [mountAll, mounts, List.map_cons, List.flatMap_cons, List.foldl_append, names]

/-- Enumerating the calendars neither creates nor deletes one. -/
structure Listing (exchange : Exchange) : Prop where
  returned : exchange.returnedId engine = none
  deletes : exchange.deletes = none

/-- A page of the calendar list only lists. -/
theorem list_calendars_listing (pageToken : String) (state : σ × List Exchange) :
    Traces.Adds (Listing engine) state.2
      (CalendarListResource.list engine (recordedClient retrying headers baseUrl) pageToken
        state).2.2 := by
  obtain ⟨more, grown, tried⟩ := execute_tries retrying
    ((recordedClient retrying headers baseUrl).request .get (.calendarList pageToken) none) state
  refine ⟨more, grown, ?_⟩
  intro exchange member
  have requested := tries_request _ _ more tried exchange member
  exact ⟨by simp [Exchange.returnedId, requested, GoogleCalendarClient.request],
    by simp [Exchange.deletes, requested, GoogleCalendarClient.request]⟩

/-- A page that is read is named in the record as it was read. -/
theorem list_calendars_ok (pageToken : String) (state after : σ × List Exchange)
    (response : CalendarListResponse)
    (outcome : CalendarListResource.list engine (recordedClient retrying headers baseUrl) pageToken
      state = (.ok response, after)) :
    ∃ more, after.2 = state.2 ++ more ∧
      more.flatMap (Exchange.listedIds engine) = response.items.map CalendarListEntry.id := by
  obtain ⟨refused, answer, grown, early, read⟩ := read_ok_tries retrying
    (parseResponse engine CalendarListResponse.fromJson) (parse_strict engine _) _ state after
    response outcome
  refine ⟨_, grown, ?_⟩
  have unlisted : refused.flatMap (Exchange.listedIds engine) = [] := by
    refine List.flatMap_eq_nil_iff.mpr (fun exchange member => ?_)
    obtain ⟨requested, again⟩ := early exchange member
    have unread := refused_unread _ (parse_strict engine CalendarListResponse.fromJson) exchange
      again
    simp only [Exchange.listedIds, requested, GoogleCalendarClient.request]
    split
    · exact absurd ‹_› (unread _)
    · rfl
  simp [List.flatMap_append, unlisted, Exchange.listedIds, GoogleCalendarClient.request, read]

/-- The pages read name the calendars that are mounted, in order. -/
theorem load_pages_ok (fuel : Nat) (pageToken : String) (seenIds seen : List String)
    (catalog loaded : CalendarCatalog) (state after : σ × List Exchange)
    (finished : loadPages engine (recordedClient retrying headers baseUrl) fuel pageToken seenIds
      catalog state = some (.ok (seen, loaded), after)) :
    ∃ (calendars : List CalendarListEntry) (more : List Exchange),
      seen = seenIds ++ calendars.map CalendarListEntry.id ∧
      loaded = calendars.foldl mountCalendar catalog ∧ after.2 = state.2 ++ more ∧
      more.flatMap (Exchange.listedIds engine) = calendars.map CalendarListEntry.id := by
  induction fuel generalizing pageToken seenIds catalog state with
  | zero => simp [loadPages] at finished
  | succ fuel ih =>
    simp only [loadPages] at finished
    split at finished
    · simp at finished
    · rename_i response between answered
      obtain ⟨page, grown, named⟩ := list_calendars_ok engine retrying headers baseUrl pageToken
        state between response answered
      split at finished
      · simp only [Option.some.injEq, Prod.mk.injEq, Except.ok.injEq] at finished
        obtain ⟨⟨rfl, rfl⟩, rfl⟩ := finished
        exact ⟨response.items, page, rfl, rfl, grown, named⟩
      · obtain ⟨calendars, more, rfl, rfl, left, rest⟩ := ih _ _ _ _ finished
        refine ⟨response.items ++ calendars, page ++ more, ?_, ?_, ?_, ?_⟩
        · simp
        · simp
        · simp [left, grown]
        · simp [named, rest]

/-- A catalog that is loaded has mounted the tables of the calendars listed in the
record. -/
theorem load_catalog_ok (fuel : Nat) (catalog loaded : CalendarCatalog)
    (state after : σ × List Exchange)
    (finished : loadCatalog engine (recordedClient retrying headers baseUrl) fuel catalog state =
      some (.ok loaded, after)) :
    ∃ more, after.2 = state.2 ++ more ∧
      loaded = mountAll (mounts catalog (more.flatMap (Exchange.listedIds engine))) catalog := by
  simp only [loadCatalog] at finished
  split at finished
  · simp at finished
  · simp at finished
  · rename_i seen mounted final pages
    split at finished
    · simp at finished
    · simp only [Option.some.injEq, Prod.mk.injEq, Except.ok.injEq] at finished
      obtain ⟨rfl, rfl⟩ := finished
      obtain ⟨calendars, more, -, loads, grown, named⟩ := load_pages_ok engine retrying headers
        baseUrl fuel "" [] seen catalog mounted state final pages
      exact ⟨more, grown, by rw [loads, mount_calendars, named]⟩

/-- So do the pages. -/
theorem load_pages_listing (fuel : Nat) (pageToken : String) (seenIds : List String)
    (catalog : CalendarCatalog) (state : σ × List Exchange)
    (outcome : Except Exception (List String × CalendarCatalog)) (after : σ × List Exchange)
    (finished : loadPages engine (recordedClient retrying headers baseUrl) fuel pageToken seenIds
      catalog state = some (outcome, after)) :
    Traces.Adds (Listing engine) state.2 after.2 := by
  induction fuel generalizing pageToken seenIds catalog state with
  | zero => simp [loadPages] at finished
  | succ fuel ih =>
    have page := list_calendars_listing engine retrying headers baseUrl pageToken state
    simp only [loadPages] at finished
    split at finished
    · rename_i answered
      rw [answered] at page
      obtain ⟨-, rfl⟩ := Prod.mk.inj (Option.some.inj finished)
      exact page
    · rename_i answered
      rw [answered] at page
      split at finished
      · obtain ⟨-, rfl⟩ := Prod.mk.inj (Option.some.inj finished)
        exact page
      · exact Traces.adds_trans _ _ _ _ page (ih _ _ _ _ finished)

/-- Loading the catalog only lists. -/
theorem load_catalog_listing (fuel : Nat) (catalog : CalendarCatalog) (state : σ × List Exchange)
    (outcome : Except Exception CalendarCatalog) (after : σ × List Exchange)
    (finished : loadCatalog engine (recordedClient retrying headers baseUrl) fuel catalog state =
      some (outcome, after)) :
    Traces.Adds (Listing engine) state.2 after.2 := by
  simp only [loadCatalog] at finished
  split at finished
  · simp at finished
  · rename_i pages
    obtain ⟨-, rfl⟩ := Prod.mk.inj (Option.some.inj finished)
    exact load_pages_listing engine retrying headers baseUrl fuel "" [] catalog state _ _ pages
  · rename_i pages
    have listed := load_pages_listing engine retrying headers baseUrl fuel "" [] catalog state _ _
      pages
    split at finished <;>
    · obtain ⟨-, rfl⟩ := Prod.mk.inj (Option.some.inj finished)
      exact listed

end CatalogRuns

end GoogleCalendar
