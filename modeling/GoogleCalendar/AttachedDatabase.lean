import GoogleCalendar.CopiedCalendar
import GoogleCalendar.CalendarAttach
import GoogleCalendar.Library.NamedTables
import Mathlib.Data.List.Pairwise

/-!
# An attachment is a database of tables

The statements of a session name tables. A name leads through the catalog to a
calendar, whose rows a SELECT reads and an INSERT, UPDATE or DELETE writes; CREATE
TABLE ... AS makes a calendar with rows of another one and names it, and DROP deletes
a calendar that the session made. The service is nobody else's meanwhile.

A session of such statements is then a run of the corresponding commands on the
database of named tables that the attachment presents, one command for each statement,
and one that fails is no exception: it has disturbed the table that it was to write and
nothing else.
-/

namespace GoogleCalendar.AttachedDatabase

open Library EventListing KeyedTable EventMapping RowRoundTrip ShownRows CalendarTable
  CopiedCalendar StatementFrames
open NamedTables (Database Step)

/-! ## Statements -/

/-- A statement as it is planned for the calendar of a table. -/
def plannedFor (calendarId : String) : TableStatement → TableStatement
  | .select now bindData columnIds =>
      .select now { bindData with calendarId := calendarId, names := eventsNames } columnIds
  | .insert operator rows =>
      .insert { operator with calendarId := calendarId, names := eventsNames } rows
  | .update now bindData operator statement =>
      .update now { bindData with calendarId := calendarId, names := eventsNames }
        { operator with calendarId := calendarId, names := eventsNames } statement
  | .delete now bindData operator statement =>
      .delete now { bindData with calendarId := calendarId, names := eventsNames }
        { operator with calendarId := calendarId, names := eventsNames } statement

/-- A statement that is planned for a calendar writes to no other. -/
theorem planned_writes (calendarId : String) (statement : TableStatement) :
    WritesTo calendarId (plannedFor calendarId statement) := by
  cases statement with
  | select => trivial
  | insert => rfl
  | update => rfl
  | delete => rfl

/-- The scan of a CREATE TABLE ... AS FROM. -/
def sourceScan (bindData : CalendarScanBindData) (calendarId : String) : CalendarScanBindData :=
  { bindData with calendarId := calendarId, names := eventsNames }

/-- The statements of a session on an attached database. -/
inductive DatabaseStatement where
  | onTable (name : String) (statement : TableStatement)
  | createTableAs (orReplace : Bool) (name source : String) (columns : List ColumnDefinition)
      (now : Int) (bindData : CalendarScanBindData) (predicate : List Value → Bool)
  | dropTable (info : DropInfo)

/-- What a statement reports when it finishes. -/
inductive DatabaseReport where
  | table (report : Report)
  | copied (rows : Nat)
  | dropped
  deriving DecidableEq

/-- What the engine says of a name that no table has. -/
def missing (name : String) : Exception :=
  .catalog ("Table with name " ++ name ++ " does not exist!")

section Runs

variable {σ : Type} (engine : Engine) (http : IHttpClient σ) (headers : HttpHeaders)
  (baseUrl : String) (defaults : DefaultWindow) (vectorSize : Nat)

/-- A statement run to its end, unless the fuel runs out. -/
def DatabaseStatement.perform (fuel calls : Nat) :
    DatabaseStatement → CalendarCatalog → σ →
      Option (Except Exception DatabaseReport × CalendarCatalog × σ)
  | .onTable name statement, catalog, state =>
    match catalog.tables.find name with
    | none => some (.error (missing name), catalog, state)
    | some entry =>
      ((plannedFor entry.calendarId statement).perform engine http headers baseUrl defaults
        vectorSize fuel calls state).map (fun ended =>
          (ended.1.map DatabaseReport.table, catalog, ended.2))
  | .createTableAs orReplace name source columns now bindData predicate, catalog, state =>
    if !orReplace && catalog.tables.contains name then
      some (.error (.catalog ("Table with name \"" ++ name ++ "\" already exists!")), catalog,
        state)
    else
      match catalog.tables.find source with
      | none => some (.error (missing source), catalog, state)
      | some entry =>
        ((RowQuery.fromCalendar predicate).createTableAs engine ⟨http, headers, baseUrl⟩
          (sourceScan bindData entry.calendarId) catalog name columns defaults now vectorSize fuel
          calls state).map (fun ended =>
            (ended.1.map (fun sunk => DatabaseReport.copied sunk.insertCount), ended.2))
  | .dropTable info, catalog, state =>
      let ended := CalendarCatalog.dropEntry ⟨http, headers, baseUrl⟩ catalog info state
      some (ended.1.map (fun _ => DatabaseReport.dropped), ended.2)

end Runs

section Meaning

variable (engine : Engine) (reaches : QueryBuilder → Cells → Bool) (defaults : DefaultWindow)

/-- The rows that a CREATE TABLE ... AS FROM takes of a calendar. -/
def copyWanted (now : Int) (bindData : CalendarScanBindData) (predicate : List Value → Bool)
    (calendarId : String) : Cells → Bool :=
  wantedBy engine reaches defaults now (sourceScan bindData calendarId)
    (fun cells => predicate (eventsNames.map cells))

/-- What a statement means for a database. Names are compared without regard to case. -/
def DatabaseStatement.command :
    DatabaseStatement → NamedTables.Command String String String Cells
  | .onTable name statement => .perform (lowerCase name)
      (fun calendarId =>
        (plannedFor calendarId statement).command engine calendarId reaches defaults)
  | .createTableAs _ name source _ now bindData predicate =>
      .create (lowerCase name) (lowerCase source)
        (copyWanted engine reaches defaults now bindData predicate) copied
  | .dropTable info => .drop (lowerCase info.name)

/-- What a report says of the rows that a statement is about. -/
def DatabaseStatement.Tells : DatabaseStatement → Except Exception DatabaseReport →
    Option (List (String × Cells)) → Prop
  | .onTable _ statement, .ok (.table report), some about =>
      ∃ calendarId, (plannedFor calendarId statement).Tells report about
  | .createTableAs .., .ok (.copied rows), some about => rows = about.length
  | .dropTable _, .ok .dropped, some about => about = []
  | _, .error _, none => True
  | _, _, _ => False

/-- Statements whose values have the types of their columns, on whichever calendar. -/
def DatabaseStatement.Proper : DatabaseStatement → Prop
  | .onTable _ statement =>
      ∀ calendarId, (plannedFor calendarId statement).Proper engine calendarId
  | .createTableAs .. => True
  | .dropTable info => info.type = .tableEntry

/-- The events that a statement is to copy, as they are at the time, can be copied. -/
def DatabaseStatement.Ready {σ : Type} (stored : String → σ → String → Option Json) :
    DatabaseStatement → CalendarCatalog → σ → Prop
  | .createTableAs _ _ source _ now bindData predicate, catalog, state =>
      ∀ entry, catalog.tables.find source = some entry →
        ∀ id body, stored entry.calendarId state id = some body →
          copyWanted engine reaches defaults now bindData predicate entry.calendarId
            (shown engine entry.calendarId body) = true →
          ∃ members allDay, body = .ofMembers members ∧ Keepable engine members allDay
  | _, _, _ => True

end Meaning

/-! ## The service -/

section Service

variable {σ : Type} (engine : Engine) (http : IHttpClient σ)
  (stored : String → σ → String → Option Json) (used : σ → String → Prop)
  (instant : Option Json → Int) (reaches : QueryBuilder → Cells → Bool)
  (resume : QueryBuilder → String → WithBot Position)

/-- A service with the calendars of one user. It lists ids that it has used, it does not use them
again, and no two differ in case only. Making a calendar leaves the others, and so does deleting
one; a deletion that is accepted takes away all events of its calendar. -/
structure AttachedService : Prop extends
    CalendarsService engine http stored used instant reaches resume where
  grows : ∀ request state id, used state id → used (http.execute request state).2 id
  distinct : ∀ state id other, used state id → used state other → lowerCase id = lowerCase other →
    id = other
  listed : ∀ request state response after json pageToken page, request.method = .get →
    request.path = .calendarList pageToken → http.execute request state = (.ok response, after) →
    response.statusCode = 200 → engine.parse response.body = some json →
    CalendarListResponse.fromJson json = .ok page → ∀ cal ∈ page.items, used after cal.id
  names : ∀ request state response after json calendarId, request.method = .post →
    request.path = .calendars → http.execute request state = (.ok response, after) →
    response.statusCode = 200 → engine.parse response.body = some json →
    json.valueOr "id" "" Json.getString = .ok calendarId → used after calendarId
  plans : ∀ request state other, request.method = .post → request.path = .calendars →
    used state other → stored other (http.execute request state).2 = stored other state
  removes : ∀ request state calendarId, request.method = .del →
    request.path = .calendar calendarId →
    (∀ other, other ≠ calendarId →
      stored other (http.execute request state).2 = stored other state) ∧
    ∀ response, (http.execute request state).1 = .ok response →
      response.statusCode = 200 ∨ response.statusCode = 204 →
      stored calendarId (http.execute request state).2 = fun _ => none

/-- The database that an attachment presents: the names of its catalog, and the rows that their
calendars show. -/
structure Presents (attached : CalendarCatalog × σ) (db : Database String String String Cells) :
    Prop where
  named : ∀ name, db.named name =
    (attached.1.tables.under name).map CalendarTableEntry.calendarId
  rows : ∀ id, db.known id → db.rows id = table engine id (stored id) attached.2
  owned : ∀ id, db.known id → (db.owned id ↔ attached.1.wasCreatedThisSession id = true)
  used : ∀ id, db.known id → used attached.2 id

variable (service : AttachedService engine http stored used instant reaches resume)

include service

/-- Statements on one calendar leave the others and the ids that have been used. -/
theorem calendar_frame (target : String) :
    Frame http target (fun before after =>
      (∀ other, other ≠ target → stored other after = stored other before) ∧
        ∀ id, used before id → used after id) where
  refl _ := ⟨fun _ _ => rfl, fun _ there => there⟩
  trans _ _ _ first second :=
    ⟨fun other apart => (second.1 other apart).trans (first.1 other apart),
      fun id there => second.2 id (first.2 id there)⟩
  reads request state method := ⟨fun other _ => (service.each other).reads request state method,
    service.grows request state⟩
  writes request state path := ⟨fun other apart => service.apart request state other target apart
    path, service.grows request state⟩

variable (db : Database String String String Cells) (catalog : CalendarCatalog) (state after : σ)
  (presents : Presents engine stored used (catalog, state) db)

include presents

omit service

/-- A name of the catalog names the calendar of its entry. -/
theorem name_found (name : String) (entry : CalendarTableEntry)
    (found : catalog.tables.find name = some entry) :
    db.named (lowerCase name) = some entry.calendarId := by
  rw [presents.named, ← FoldedMap.find_under, found]
  rfl

/-- Requests that leave every calendar leave the database. -/
theorem presents_kept
    (kept : ∀ id, used state id → stored id after = stored id state ∧ used after id) :
    Presents engine stored used (catalog, after) db where
  named := presents.named
  rows id known := by
    rw [presents.rows id known, table, table, (kept id (presents.used id known)).1]
  owned := presents.owned
  used id known := (kept id (presents.used id known)).2

/-- When one table may have changed, it shows what its calendar holds now. -/
theorem presents_filled (target : String)
    (kept : (∀ other, other ≠ target → stored other after = stored other state) ∧
      ∀ id, used state id → used after id) :
    Presents engine stored used (catalog, after)
      (db.fill target (table engine target (stored target) after)) where
  named := presents.named
  rows id known := by
    by_cases here : id = target
    · subst here
      exact Function.update_self ..
    · have same := presents.rows id known
      simp only [Database.fill, Function.update_of_ne here, same, table, kept.1 id here]
  owned := presents.owned
  used id known := kept.2 id (presents.used id known)

include service

/-- A statement on a table amounts to its command on that table. -/
theorem on_table_amounts (headers : HttpHeaders) (baseUrl : String) (defaults : DefaultWindow)
    (vectorSize : Nat) (prints : engine.PrintsTimestamps) (casts : engine.CastsTimes)
    (positive : 0 < vectorSize) (name : String) (statement : TableStatement)
    (proper : ∀ calendarId, (plannedFor calendarId statement).Proper engine calendarId)
    (fuel calls : Nat) (result : Except Exception DatabaseReport) (next : CalendarCatalog)
    (performed : (DatabaseStatement.onTable name statement).perform engine http headers baseUrl
      defaults vectorSize fuel calls catalog state = some (result, next, after)) :
    ∃ rows left, Step db
        ((DatabaseStatement.onTable name statement).command engine reaches defaults) rows left ∧
      Presents engine stored used (next, after) left ∧
      (DatabaseStatement.onTable name statement).Tells result rows := by
  simp only [DatabaseStatement.perform] at performed
  cases found : catalog.tables.find name with
  | none =>
    simp only [found] at performed
    obtain ⟨rfl, rest⟩ := Prod.mk.inj (Option.some.inj performed)
    obtain ⟨rfl, rfl⟩ := Prod.mk.inj rest
    exact ⟨none, db, .refused _, presents, trivial⟩
  | some entry =>
    simp only [found] at performed
    obtain ⟨⟨ended, between⟩, ran, same⟩ := Option.map_eq_some_iff.mp performed
    obtain ⟨rfl, rest⟩ := Prod.mk.inj same
    obtain ⟨rfl, rfl⟩ := Prod.mk.inj rest
    have named := name_found engine stored used db catalog state presents name entry found
    have kept := statement_keeps engine entry.calendarId _ http headers baseUrl defaults vectorSize
      fuel (calendar_frame engine http stored used instant reaches resume service entry.calendarId)
      calls _ (planned_writes entry.calendarId statement) state between ended ran
    have filled := presents_filled engine stored used db catalog state between presents
      entry.calendarId kept
    have before := presents.rows entry.calendarId (db.registered _ _ named)
    cases ended with
    | ok report =>
      obtain ⟨about, concerns, leaves, tells⟩ := performs_amounts engine http headers baseUrl
        entry.calendarId (stored entry.calendarId) instant reaches resume defaults vectorSize
        (service.each entry.calendarId) prints casts positive _ (proper entry.calendarId) report
        state between ⟨fuel, calls, ran⟩
      rw [leaves, ← before] at filled
      rw [← before] at concerns
      exact ⟨some about, _, .performed _ _ _ _ named concerns, filled, entry.calendarId, tells⟩
    | error error =>
      refine ⟨none, _, .interrupted _ _ _ _ named ?_, filled, trivial⟩
      intro reads
      obtain ⟨wanted, selects⟩ := reads entry.calendarId
      cases statement with
      | select now bindData columnIds =>
        -- A SELECT that fails has read only.
        have unread := select_keeps engine
          (fun before later => stored entry.calendarId later = stored entry.calendarId before) http
          headers baseUrl defaults vectorSize fuel
          ⟨fun _ => rfl, fun _ _ _ first second => second.trans first,
            (service.each entry.calendarId).reads⟩ now _ columnIds calls state between _ ran
        rw [before, table, unread]
        rfl
      | insert | update | delete => cases selects

/-- The new calendar of a CREATE TABLE ... AS as a table of the database. -/
theorem presents_added (name target : String)
    (there : used after target)
    (kept : (∀ other, used state other → stored other after = stored other state) ∧
      ∀ id, used state id → used after id) :
    Presents engine stored used
      ((catalog.addTable ⟨name, target⟩).markCreatedThisSession target, after)
      (db.add (lowerCase name) target (table engine target (stored target) after)) where
  named other := by
    simp only [CalendarCatalog.markCreatedThisSession, CalendarCatalog.addTable, Database.add,
      FoldedMap.under_assign]
    by_cases here : other = lowerCase name
    · simp [here]
    · simpa only [Function.update_of_ne here] using presents.named other
  rows id known := by
    by_cases here : id = target
    · subst here
      exact Function.update_self ..
    · have before := known.resolve_left here
      have same := presents.rows id before
      simp only [Database.add, Function.update_of_ne here, same, table,
        kept.1 id (presents.used id before)]
  owned id known := by
    simp only [Database.add, CalendarCatalog.markCreatedThisSession, CalendarCatalog.addTable,
      CalendarCatalog.wasCreatedThisSession, FoldedMap.contains, FoldedMap.find_assign]
    by_cases here : id = target
    · simp [here]
    · have before := known.resolve_left here
      have apart : lowerCase id ≠ lowerCase target := by
        intro same
        exact here
          (service.distinct after id target (kept.2 id (presents.used id before)) there same)
      rw [if_neg apart]
      exact (or_iff_right here).trans (presents.owned id before)
  used id known := by
    rcases known with rfl | before
    · exact there
    · exact kept.2 id (presents.used id before)

omit presents in
/-- A plan that fails leaves every calendar of the service. -/
theorem refused_plan_kept (headers : HttpHeaders) (baseUrl : String) (name : String)
    (columns : List ColumnDefinition) (next : CalendarCatalog) (error : Exception)
    (planned : CalendarCatalog.planCreateTableAs engine ⟨http, headers, baseUrl⟩ catalog name
      columns state = (.error error, next, after)) :
    next = catalog ∧
      ∀ id, used state id → stored id after = stored id state ∧ used after id := by
  obtain ⟨rfl, asked⟩ := plan_failed engine http headers baseUrl catalog next name columns state
    after error planned
  refine ⟨rfl, fun id there => ?_⟩
  rcases asked with rfl | ⟨request, method, path, rfl⟩
  · exact ⟨rfl, there⟩
  · exact ⟨service.plans request state id method path there, service.grows request state id there⟩

omit presents in
/-- A plan that succeeds has made a calendar that the service has not used before, without events,
and leaves the others. -/
theorem plan_fresh (headers : HttpHeaders) (baseUrl : String) (name : String)
    (columns : List ColumnDefinition) (operator : CalendarInsert) (next : CalendarCatalog)
    (planned : CalendarCatalog.planCreateTableAs engine ⟨http, headers, baseUrl⟩ catalog name
      columns state = (.ok operator, next, after)) :
    ¬ used state operator.calendarId ∧ used after operator.calendarId ∧
      stored operator.calendarId after = (fun _ => none) ∧
      ∀ other, used state other →
        stored other after = stored other state ∧ used after other := by
  obtain ⟨-, -, request, response, json, method, path, executed, status, parsed, identified⟩ :=
    plan_posted engine http headers baseUrl catalog next name columns state after operator planned
  obtain ⟨fresh, blank, -⟩ := service.creates request state response after json
    operator.calendarId method path executed status parsed identified
  have there := service.names request state response after json operator.calendarId method path
    executed status parsed identified
  have made : (http.execute request state).2 = after := congrArg Prod.snd executed
  refine ⟨fresh, there, blank, fun other held => ?_⟩
  rw [← made]
  exact ⟨service.plans request state other method path held, service.grows request state other held⟩

omit presents in
/-- What a CREATE TABLE ... AS whose plan succeeded leaves, however the copying ends: the new
calendar is used, and the others are as they were. -/
theorem copying_kept (headers : HttpHeaders) (baseUrl : String) (defaults : DefaultWindow)
    (vectorSize fuel calls : Nat) (name : String) (columns : List ColumnDefinition)
    (operator : CalendarInsert) (next : CalendarCatalog) (planned last : σ)
    (plan : CalendarCatalog.planCreateTableAs engine ⟨http, headers, baseUrl⟩ catalog name columns
      state = (.ok operator, next, planned))
    (query : RowQuery) (bindData : CalendarScanBindData) (now : Int)
    (outcome : Except Exception CalendarInsertGlobalSinkState)
    (inserts : query.insert engine ⟨http, headers, baseUrl⟩ bindData operator defaults now
      vectorSize fuel calls planned = some (outcome, last)) :
    used last operator.calendarId ∧
      (∀ other, used state other → stored other last = stored other state) ∧
      ∀ id, used state id → used last id := by
  obtain ⟨fresh, there, -, kept⟩ := plan_fresh engine http stored used instant reaches resume
    service catalog state planned headers baseUrl name columns operator next plan
  obtain ⟨others, grown⟩ := RowQuery.insert_keeps engine ⟨http, headers, baseUrl⟩ _ operator _ _
    (calendar_frame engine http stored used instant reaches resume service operator.calendarId)
    defaults now vectorSize fuel calls planned last outcome inserts
  refine ⟨grown _ there, fun other held => ?_, fun id held => grown id (kept id held).2⟩
  have apart : other ≠ operator.calendarId := fun equal => fresh (equal ▸ held)
  exact (others other apart).trans (kept other held).1

/-- A plan that succeeds and rows that are copied, or that fail to be, amount to the making of a
table. -/
theorem copying_amounts (headers : HttpHeaders) (baseUrl : String) (defaults : DefaultWindow)
    (vectorSize : Nat) (prints : engine.PrintsTimestamps) (casts : engine.CastsTimes)
    (empty : engine.parse "" = none) (positive : 0 < vectorSize) (orReplace : Bool)
    (name source : String) (columns : List ColumnDefinition) (now : Int)
    (bindData : CalendarScanBindData) (predicate : List Value → Bool) (entry : CalendarTableEntry)
    (found : catalog.tables.find source = some entry)
    (ready : (DatabaseStatement.createTableAs orReplace name source columns now bindData
      predicate).Ready engine reaches defaults stored catalog state)
    (operator : CalendarInsert) (next : CalendarCatalog) (planned last : σ)
    (plan : CalendarCatalog.planCreateTableAs engine ⟨http, headers, baseUrl⟩ catalog name columns
      state = (.ok operator, next, planned))
    (fuel calls : Nat) (outcome : Except Exception CalendarInsertGlobalSinkState)
    (inserts : (RowQuery.fromCalendar predicate).insert engine ⟨http, headers, baseUrl⟩
      (sourceScan bindData entry.calendarId) operator defaults now vectorSize fuel calls planned =
        some (outcome, last)) :
    ∃ rows left, Step db ((DatabaseStatement.createTableAs orReplace name source columns now
        bindData predicate).command engine reaches defaults) rows left ∧
      Presents engine stored used (next, last) left ∧
      (DatabaseStatement.createTableAs orReplace name source columns now bindData predicate).Tells
        (outcome.map (fun sunk => DatabaseReport.copied sunk.insertCount)) rows := by
  have named := name_found engine stored used db catalog state presents source entry found
  have known := db.registered _ _ named
  obtain ⟨shape, catalogued, -⟩ := plan_posted engine http headers baseUrl catalog next name columns
    state planned operator plan
  obtain ⟨fresh, -, blank, plans⟩ := plan_fresh engine http stored used instant reaches resume
    service catalog state planned headers baseUrl name columns operator next plan
  obtain ⟨there, kept⟩ := copying_kept engine http stored used instant reaches resume service
    catalog state headers baseUrl defaults vectorSize fuel calls name columns operator next planned
    last plan _ _ now outcome inserts
  have unknown : ¬ db.known operator.calendarId :=
    fun held => fresh (presents.used operator.calendarId held)
  have added := presents_added engine http stored used instant reaches resume service db catalog
    state last presents name operator.calendarId there kept
  rw [← catalogued] at added
  cases outcome with
  | error error => exact ⟨none, _, .unfinished _ _ _ _ _ _ unknown, added, trivial⟩
  | ok sunk =>
    have before := presents.rows entry.calendarId known
    have unwritten := (plans entry.calendarId (presents.used entry.calendarId known)).1
    have apart : entry.calendarId ≠ operator.calendarId := fun equal => unknown (equal ▸ known)
    have copyable := ready entry found
    rw [← unwritten] at copyable
    obtain ⟨about, selected, filled, -, counted⟩ := insert_copies engine http stored used instant
      reaches resume headers baseUrl service.toCalendarsService prints casts empty
      entry.calendarId operator apart (congrArg CalendarInsert.names shape)
      (sourceScan bindData entry.calendarId) rfl rfl predicate defaults now vectorSize fuel calls
      positive planned last sunk blank copyable inserts
    have shows : table engine entry.calendarId (stored entry.calendarId) planned =
        db.rows entry.calendarId := by
      rw [before, table, table, unwritten]
    rw [shows] at selected
    rw [filled, upserted_selected _ _ about (copied operator.calendarId) selected] at added
    exact ⟨some about, _, .created _ _ _ _ _ _ _ named unknown selected, added, counted⟩

/-- A CREATE TABLE ... AS makes a table, if it gets as far, and fills it when it finishes. -/
theorem create_amounts (headers : HttpHeaders) (baseUrl : String) (defaults : DefaultWindow)
    (vectorSize : Nat) (prints : engine.PrintsTimestamps) (casts : engine.CastsTimes)
    (empty : engine.parse "" = none) (positive : 0 < vectorSize) (orReplace : Bool)
    (name source : String) (columns : List ColumnDefinition) (now : Int)
    (bindData : CalendarScanBindData) (predicate : List Value → Bool)
    (ready : (DatabaseStatement.createTableAs orReplace name source columns now bindData
      predicate).Ready engine reaches defaults stored catalog state)
    (fuel calls : Nat) (result : Except Exception DatabaseReport) (next : CalendarCatalog)
    (performed : (DatabaseStatement.createTableAs orReplace name source columns now bindData
      predicate).perform engine http headers baseUrl defaults vectorSize fuel calls catalog state =
        some (result, next, after)) :
    ∃ rows left, Step db ((DatabaseStatement.createTableAs orReplace name source columns now
        bindData predicate).command engine reaches defaults) rows left ∧
      Presents engine stored used (next, after) left ∧
      (DatabaseStatement.createTableAs orReplace name source columns now bindData predicate).Tells
        result rows := by
  simp only [DatabaseStatement.perform] at performed
  split at performed
  · obtain ⟨rfl, rest⟩ := Prod.mk.inj (Option.some.inj performed)
    obtain ⟨rfl, rfl⟩ := Prod.mk.inj rest
    exact ⟨none, db, .refused _, presents, trivial⟩
  · cases found : catalog.tables.find source with
    | none =>
      simp only [found] at performed
      obtain ⟨rfl, rest⟩ := Prod.mk.inj (Option.some.inj performed)
      obtain ⟨rfl, rfl⟩ := Prod.mk.inj rest
      exact ⟨none, db, .refused _, presents, trivial⟩
    | some entry =>
      simp only [found] at performed
      obtain ⟨⟨ended, further, final⟩, ran, same⟩ := Option.map_eq_some_iff.mp performed
      obtain ⟨rfl, rest⟩ := Prod.mk.inj same
      obtain ⟨rfl, rfl⟩ := Prod.mk.inj rest
      simp only [RowQuery.createTableAs] at ran
      split at ran
      · rename_i error planNext planned plan
        obtain ⟨rfl, left⟩ := Prod.mk.inj (Option.some.inj ran)
        obtain ⟨rfl, rfl⟩ := Prod.mk.inj left
        obtain ⟨rfl, kept⟩ := refused_plan_kept engine http stored used instant reaches resume
          service catalog state planned headers baseUrl name columns planNext error plan
        exact ⟨none, db, .refused _,
          presents_kept engine stored used db planNext state planned presents kept, trivial⟩
      · rename_i operator planNext planned plan
        obtain ⟨⟨outcome, last⟩, inserts, equal⟩ := Option.map_eq_some_iff.mp ran
        obtain ⟨rfl, left⟩ := Prod.mk.inj equal
        obtain ⟨rfl, rfl⟩ := Prod.mk.inj left
        exact copying_amounts engine http stored used instant reaches resume service db catalog
          state presents headers baseUrl defaults vectorSize prints casts empty positive orReplace
          name source columns now bindData predicate entry found ready operator planNext planned
          last plan fuel calls outcome inserts

/-- A table of the database that is taken away, with the events of its calendar. -/
theorem presents_removed (name target : String) (known : db.known target)
    (gone : stored target after = fun _ => none)
    (kept : (∀ other, other ≠ target → stored other after = stored other state) ∧
      ∀ id, used state id → used after id) :
    Presents engine stored used
      ({ catalog.forgetCreatedThisSession target with
        tables := (catalog.forgetCreatedThisSession target).tables.erase name }, after)
      (db.remove (lowerCase name) target) where
  named other := by
    simp only [CalendarCatalog.forgetCreatedThisSession, Database.remove, FoldedMap.under_erase]
    by_cases here : other = lowerCase name
    · simp [here]
    · simpa only [Function.update_of_ne here] using presents.named other
  rows id held := by
    by_cases here : id = target
    · subst here
      simp only [Database.remove, Function.update_self, table, gone]
      rfl
    · have same := presents.rows id held
      simp only [Database.remove, Function.update_of_ne here, same, table, kept.1 id here]
  owned id held := by
    simp only [Database.remove, CalendarCatalog.forgetCreatedThisSession,
      CalendarCatalog.wasCreatedThisSession, FoldedMap.contains, FoldedMap.find_erase]
    by_cases here : id = target
    · simp [here]
    · have distinct : lowerCase id ≠ lowerCase target :=
        fun same => here (service.distinct state id target (presents.used id held)
          (presents.used target known) same)
      rw [if_neg distinct]
      exact (and_iff_right here).trans (presents.owned id held)
  used id held := kept.2 id (presents.used id held)

omit presents in
/-- What the DELETE of a calendar leaves: the other calendars and the ids in any case, and no event
of its own when it is acknowledged. -/
theorem calendar_delete_leaves (client : GoogleCalendarClient σ) (same : client.http = http)
    (calendarId : String) (before : σ) :
    let answered := CalendarsResource.delete client calendarId before
    ((∀ other, other ≠ calendarId → stored other answered.2 = stored other before) ∧
      ∀ id, used before id → used answered.2 id) ∧
    (answered.1 = .ok () → stored calendarId answered.2 = fun _ => none) := by
  subst same
  let request := client.request .del (.calendar calendarId) none
  obtain ⟨others, accepted⟩ := service.removes request before calendarId rfl rfl
  refine ⟨⟨others, service.grows request before⟩, fun done => ?_⟩
  change (client.http.execute request before).1.bind readDeleted = .ok () at done
  cases answer : (client.http.execute request before).1 with
  | error error =>
    rw [answer] at done
    cases done
  | ok response =>
    apply accepted response answer
    simp only [answer, Except.bind, readDeleted] at done
    split at done
    · cases done
    · rename_i status
      omega

/-- A DROP takes a table away that the session made, or does nothing to another one. -/
theorem drop_amounts (headers : HttpHeaders) (baseUrl : String) (defaults : DefaultWindow)
    (vectorSize : Nat) (info : DropInfo) (dropsTable : info.type = .tableEntry) (fuel calls : Nat)
    (result : Except Exception DatabaseReport) (next : CalendarCatalog)
    (performed : (DatabaseStatement.dropTable info).perform engine http headers baseUrl defaults
      vectorSize fuel calls catalog state = some (result, next, after)) :
    ∃ rows left, Step db ((DatabaseStatement.dropTable info).command engine reaches defaults) rows
        left ∧
      Presents engine stored used (next, after) left ∧
      (DatabaseStatement.dropTable info).Tells result rows := by
  simp only [DatabaseStatement.perform, CalendarCatalog.dropEntry, dropsTable] at performed
  cases found : catalog.tables.find info.name with
  | none =>
    have unnamed : db.named (lowerCase info.name) = none := by
      rw [presents.named, ← FoldedMap.find_under, found]
      rfl
    simp only [found] at performed
    cases spared : info.ifExists with
    | true =>
      simp only [spared] at performed
      obtain ⟨rfl, rest⟩ := Prod.mk.inj (Option.some.inj performed)
      obtain ⟨rfl, rfl⟩ := Prod.mk.inj rest
      exact ⟨some [], db, .absent _ unnamed, presents, rfl⟩
    | false =>
      simp only [spared] at performed
      obtain ⟨rfl, rest⟩ := Prod.mk.inj (Option.some.inj performed)
      obtain ⟨rfl, rfl⟩ := Prod.mk.inj rest
      exact ⟨none, db, .refused _, presents, trivial⟩
  | some entry =>
    have named := name_found engine stored used db catalog state presents info.name entry found
    have known := db.registered _ _ named
    simp only [found] at performed
    cases guard : catalog.wasCreatedThisSession entry.calendarId with
    | false =>
      simp only [guard] at performed
      obtain ⟨rfl, rest⟩ := Prod.mk.inj (Option.some.inj performed)
      obtain ⟨rfl, rfl⟩ := Prod.mk.inj rest
      exact ⟨none, db, .refused _, presents, trivial⟩
    | true =>
      have owned := (presents.owned entry.calendarId known).mpr guard
      simp only [guard] at performed
      obtain ⟨kept, gone⟩ := calendar_delete_leaves engine http stored used instant reaches resume
        service ⟨http, headers, baseUrl⟩ rfl entry.calendarId state
      have disturbed := presents_filled engine stored used db catalog state _ presents
        entry.calendarId kept
      cases answered : CalendarsResource.delete (⟨http, headers, baseUrl⟩ : GoogleCalendarClient σ)
          entry.calendarId state with
      | mk answer left =>
        simp only [answered] at performed kept gone disturbed
        cases answer with
        | error error =>
          obtain ⟨rfl, rest⟩ := Prod.mk.inj (Option.some.inj performed)
          obtain ⟨rfl, rfl⟩ := Prod.mk.inj rest
          exact ⟨none, _, .undropped _ _ _ named owned, disturbed, trivial⟩
        | ok done =>
          obtain ⟨rfl, rest⟩ := Prod.mk.inj (Option.some.inj performed)
          obtain ⟨rfl, rfl⟩ := Prod.mk.inj rest
          exact ⟨some [], _, .dropped _ _ named owned, presents_removed engine http stored used
            instant reaches resume service db catalog state _ presents info.name entry.calendarId
            known (gone rfl) kept, rfl⟩

omit service presents

/-! ## Sessions -/

/-- A statement that ends, with a report or an error, with the catalog and the state it leaves. -/
def Performs (headers : HttpHeaders) (baseUrl : String) (defaults : DefaultWindow)
    (vectorSize : Nat) (before : CalendarCatalog × σ) (statement : DatabaseStatement)
    (result : Except Exception DatabaseReport) (attached : CalendarCatalog × σ) : Prop :=
  statement.Proper engine ∧ statement.Ready engine reaches defaults stored before.1 before.2 ∧
    ∃ fuel calls, statement.perform engine http headers baseUrl defaults vectorSize fuel calls
      before.1 before.2 = some (result, attached)

/-- The database of an attachment. -/
def attachedDatabase (attached : CalendarCatalog × σ) :
    Database String String String Cells where
  named name := (attached.1.tables.under name).map CalendarTableEntry.calendarId
  rows id := table engine id (stored id) attached.2
  owned id := attached.1.wasCreatedThisSession id = true
  known id := ∃ name entry, attached.1.tables.find name = some entry ∧ entry.calendarId = id
  registered name id named := by
    obtain ⟨entry, found, same⟩ := Option.map_eq_some_iff.mp named
    obtain ⟨key, -, held⟩ := attached.1.tables.find_of_under name entry found
    exact ⟨key, entry, held, same⟩

/-- The calendars of an attachment are the service's. -/
def Mounted (attached : CalendarCatalog × σ) : Prop :=
  ∀ name entry, attached.1.tables.find name = some entry → used attached.2 entry.calendarId

/-- What has just been attached presents the database of its names. -/
theorem presents_attached (attached : CalendarCatalog × σ) (mounted : Mounted used attached) :
    Presents engine stored used attached (attachedDatabase engine stored attached) where
  named _ := rfl
  rows _ _ := rfl
  owned _ _ := Iff.rfl
  used := by
    rintro id ⟨name, entry, found, rfl⟩
    exact mounted name entry found

/-- Mounting a calendar of the service under its names. -/
theorem mount_mounted (state : σ) (names : List String) (calendarId : String)
    (there : used state calendarId) (catalog : CalendarCatalog)
    (mounted : Mounted used (catalog, state)) :
    Mounted used (names.foldl (fun catalog name => catalog.addTable ⟨name, calendarId⟩) catalog,
      state) := by
  induction names generalizing catalog with
  | nil => exact mounted
  | cons name rest ih =>
    apply ih
    intro other entry found
    simp only [CalendarCatalog.addTable, FoldedMap.find_assign] at found
    split at found
    · obtain rfl := Option.some.inj found
      exact there
    · exact mounted other entry found

/-- Mounting a page of the calendar list keeps the names mounted. -/
theorem page_mounted (state : σ) (calendars : List CalendarListEntry)
    (there : ∀ cal ∈ calendars, used state cal.id) (catalog : CalendarCatalog)
    (mounted : Mounted used (catalog, state)) :
    Mounted used (calendars.foldl CalendarCatalog.mountCalendar catalog, state) := by
  induction calendars generalizing catalog with
  | nil => exact mounted
  | cons cal rest ih =>
    apply ih (fun other member => there other (List.mem_cons_of_mem _ member))
    exact mount_mounted used state _ cal.id (there cal (List.mem_cons_self ..)) catalog mounted

/-- Mounting makes no calendar. -/
theorem mount_creates_none (calendars : List CalendarListEntry) (catalog : CalendarCatalog) :
    (calendars.foldl CalendarCatalog.mountCalendar catalog).createdCalendarIds =
      catalog.createdCalendarIds := by
  have named : ∀ (names : List String) (calendarId : String) (catalog : CalendarCatalog),
      (names.foldl (fun catalog name => catalog.addTable ⟨name, calendarId⟩)
        catalog).createdCalendarIds = catalog.createdCalendarIds := by
    intro names calendarId catalog
    induction names generalizing catalog with
    | nil => rfl
    | cons name rest ih => exact ih _
  induction calendars generalizing catalog with
  | nil => rfl
  | cons cal rest ih => exact (ih _).trans (named _ cal.id catalog)

section Attach

variable (client : GoogleCalendarClient σ) (same : client.http = http)

/-- Loading the pages makes no calendar. -/
theorem load_creates_none (fuel : Nat) (pageToken : String) (seenIds seen : List String)
    (catalog loaded : CalendarCatalog) (state after : σ)
    (finished : CalendarCatalog.loadPages engine client fuel pageToken seenIds catalog state =
      some (.ok (seen, loaded), after)) :
    loaded.createdCalendarIds = catalog.createdCalendarIds := by
  induction fuel generalizing pageToken seenIds catalog state with
  | zero => cases finished
  | succ fuel ih =>
    simp only [CalendarCatalog.loadPages] at finished
    split at finished
    · cases finished
    · rename_i page between answered
      split at finished
      · obtain ⟨ended, -⟩ := Prod.mk.inj (Option.some.inj finished)
        obtain ⟨-, rfl⟩ := Prod.mk.inj (Except.ok.inj ended)
        exact mount_creates_none page.items catalog
      · exact (ih _ _ _ between finished).trans (mount_creates_none page.items catalog)

include service same

/-- The pages of the calendar list mount calendars of the service. -/
theorem load_mounted (fuel : Nat) (pageToken : String) (seenIds seen : List String)
    (catalog loaded : CalendarCatalog) (state after : σ) (mounted : Mounted used (catalog, state))
    (finished : CalendarCatalog.loadPages engine client fuel pageToken seenIds catalog state =
      some (.ok (seen, loaded), after)) : Mounted used (loaded, after) := by
  induction fuel generalizing pageToken seenIds catalog state with
  | zero => cases finished
  | succ fuel ih =>
    simp only [CalendarCatalog.loadPages] at finished
    split at finished
    · cases finished
    · rename_i page between answered
      obtain ⟨response, json, executed, status, parsed, read⟩ :=
        read_ok engine CalendarListResponse.fromJson _ page between answered
      have asked : http.execute (client.request .get (.calendarList pageToken) none) state =
          (.ok response, between) := same ▸ executed
      have there := service.listed _ state response between json pageToken page rfl rfl asked status
        parsed read
      have grown : Mounted used (catalog, between) := by
        intro name entry found
        have kept := service.grows (client.request .get (.calendarList pageToken) none) state
          entry.calendarId (mounted name entry found)
        rwa [asked] at kept
      have paged := page_mounted used between page.items there catalog grown
      split at finished
      · obtain ⟨ended, rfl⟩ := Prod.mk.inj (Option.some.inj finished)
        obtain ⟨-, rfl⟩ := Prod.mk.inj (Except.ok.inj ended)
        exact paged
      · exact ih _ _ _ between paged finished

/-- ATTACH mounts calendars of the service, none of which the session has made. -/
theorem attach_mounted (fuel : Nat) (aliases : Option AliasOption) (loaded : CalendarCatalog)
    (before after : σ)
    (attached : CalendarAttach.calendarAttach engine client fuel aliases before =
      some (.ok loaded, after)) :
    Mounted used (loaded, after) := by
  simp only [CalendarAttach.calendarAttach] at attached
  split at attached
  · cases attached
  · simp only [CalendarCatalog.loadCatalog] at attached
    split at attached
    · cases attached
    · cases attached
    · rename_i seen mounted final pages
      split at attached
      · cases attached
      · obtain ⟨ended, rfl⟩ := Prod.mk.inj (Option.some.inj attached)
        obtain rfl := Except.ok.inj ended
        apply load_mounted engine http stored used instant reaches resume service client same fuel
          "" [] seen _ mounted before final _ pages
        intro name entry found
        cases found

omit service same

/-- ATTACH makes no calendar. -/
theorem attach_creates_none (fuel : Nat) (aliases : Option AliasOption) (loaded : CalendarCatalog)
    (before after : σ)
    (attached : CalendarAttach.calendarAttach engine client fuel aliases before =
      some (.ok loaded, after)) : loaded.createdCalendarIds = .empty := by
  simp only [CalendarAttach.calendarAttach] at attached
  split at attached
  · cases attached
  · simp only [CalendarCatalog.loadCatalog] at attached
    split at attached
    · cases attached
    · cases attached
    · rename_i seen mounted final pages
      split at attached
      · cases attached
      · obtain ⟨ended, rfl⟩ := Prod.mk.inj (Option.some.inj attached)
        obtain rfl := Except.ok.inj ended
        exact load_creates_none engine client fuel "" [] seen _ mounted before final pages

end Attach

section Session

variable (headers : HttpHeaders) (baseUrl : String) (defaults : DefaultWindow) (vectorSize : Nat)
  (prints : engine.PrintsTimestamps) (casts : engine.CastsTimes) (empty : engine.parse "" = none)
  (positive : 0 < vectorSize) (final : CalendarCatalog × σ)
  (steps : List (DatabaseStatement × Except Exception DatabaseReport))

include service prints casts empty positive

/-- Each statement that ends amounts to a step of the database that is presented. -/
theorem performs_steps (before attached : CalendarCatalog × σ)
    (db : Database String String String Cells) (statement : DatabaseStatement)
    (result : Except Exception DatabaseReport) (presents : Presents engine stored used before db)
    (performs : Performs engine http stored reaches headers baseUrl defaults vectorSize before
      statement result attached) :
    ∃ rows next, Step db (statement.command engine reaches defaults) rows next ∧
      Presents engine stored used attached next ∧ statement.Tells result rows := by
  obtain ⟨catalog, state⟩ := before
  obtain ⟨next, after⟩ := attached
  obtain ⟨proper, ready, fuel, calls, performed⟩ := performs
  cases statement with
  | onTable name statement =>
    exact on_table_amounts engine http stored used instant reaches resume service db catalog state
      after presents headers baseUrl defaults vectorSize prints casts positive name statement proper
      fuel calls result next performed
  | createTableAs orReplace name source columns now bindData predicate =>
    exact create_amounts engine http stored used instant reaches resume service db catalog state
      after presents headers baseUrl defaults vectorSize prints casts empty positive orReplace name
      source columns now bindData predicate ready fuel calls result next performed
  | dropTable info =>
    exact drop_amounts engine http stored used instant reaches resume service db catalog state after
      presents headers baseUrl defaults vectorSize info proper fuel calls result next performed

variable (attachClient : GoogleCalendarClient σ) (same : attachClient.http = http)
  (attachFuel : Nat) (aliases : Option AliasOption) (loaded : CalendarCatalog) (before state : σ)
  (attached : CalendarAttach.calendarAttach engine attachClient attachFuel aliases before =
    some (.ok loaded, state))
  (session : Transcript (Performs engine http stored reaches headers baseUrl defaults vectorSize)
    (loaded, state) steps final)

include same attached session

/-- The steps of a session, from the database that an ATTACH presents. -/
theorem session_steps :
    ∃ rows last, List.Forall₂ (fun step about => step.1.Tells step.2 about) steps rows ∧
      NamedTables.Run (attachedDatabase engine stored (loaded, state))
        ((steps.map (fun step => step.1.command engine reaches defaults)).zip rows) last ∧
      Presents engine stored used final last := by
  apply NamedTables.session_refines _ (Presents engine stored used)
    (fun statement => statement.command engine reaches defaults) DatabaseStatement.Tells
  · intro before db statement result after presents performs
    exact performs_steps engine http stored used instant reaches resume service headers baseUrl
      defaults vectorSize prints casts empty positive before after db statement result presents
      performs
  · exact session
  · apply presents_attached engine stored used
    exact attach_mounted engine http stored used instant reaches resume service attachClient same
      attachFuel aliases loaded before state attached

end Session

/-! ## Calendars that a session leaves alone -/

/-- A statement that ends, with a report or an error, whatever its values are. -/
def Executes (headers : HttpHeaders) (baseUrl : String) (defaults : DefaultWindow)
    (vectorSize : Nat) (before : CalendarCatalog × σ) (statement : DatabaseStatement)
    (result : Except Exception DatabaseReport) (attached : CalendarCatalog × σ) : Prop :=
  ∃ fuel calls, statement.perform engine http headers baseUrl defaults vectorSize fuel calls
    before.1 before.2 = some (result, attached)

/-- A calendar of the service that the session has not made, with the events that it had, and that
no name leads to which did not lead to it at first. -/
structure Spared (id : String) (loaded : CalendarCatalog) (held : String → Option Json)
    (attached : CalendarCatalog × σ) : Prop where
  used : used attached.2 id
  foreign : attached.1.wasCreatedThisSession id = false
  kept : stored id attached.2 = held
  names : ∀ name entry, attached.1.tables.find name = some entry → entry.calendarId = id →
    ∃ first, loaded.tables.find name = some first ∧ first.calendarId = id

section Spare

variable (id : String) (loaded : CalendarCatalog) (held : String → Option Json)
  (catalog : CalendarCatalog) (state after : σ)
  (spared : Spared stored used id loaded held (catalog, state))

include spared

/-- What leaves its events leaves a spared calendar. -/
theorem spared_kept (same : stored id after = stored id state) (grown : used after id) :
    Spared stored used id loaded held (catalog, after) where
  used := grown
  foreign := spared.foreign
  kept := same.trans spared.kept
  names := spared.names

include service

/-- A statement on a table spares a calendar that it does not write to by one of its names. -/
theorem on_table_spares (headers : HttpHeaders) (baseUrl : String) (defaults : DefaultWindow)
    (vectorSize fuel calls : Nat) (name : String) (statement : TableStatement)
    (reading : ∀ first, loaded.tables.find name = some first → first.calendarId = id →
      ∃ now bindData columnIds, statement = .select now bindData columnIds)
    (result : Except Exception DatabaseReport) (next : CalendarCatalog)
    (performed : (DatabaseStatement.onTable name statement).perform engine http headers baseUrl
      defaults vectorSize fuel calls catalog state = some (result, next, after)) :
    Spared stored used id loaded held (next, after) := by
  simp only [DatabaseStatement.perform] at performed
  cases found : catalog.tables.find name with
  | none =>
    simp only [found] at performed
    obtain ⟨-, rest⟩ := Prod.mk.inj (Option.some.inj performed)
    obtain ⟨rfl, rfl⟩ := Prod.mk.inj rest
    exact spared
  | some entry =>
    simp only [found] at performed
    obtain ⟨⟨ended, between⟩, ran, same⟩ := Option.map_eq_some_iff.mp performed
    obtain ⟨-, rest⟩ := Prod.mk.inj same
    obtain ⟨rfl, rfl⟩ := Prod.mk.inj rest
    obtain ⟨others, grown⟩ := statement_keeps engine entry.calendarId _ http headers baseUrl
      defaults vectorSize fuel
      (calendar_frame engine http stored used instant reaches resume service entry.calendarId) calls
      _ (planned_writes entry.calendarId statement) state between ended ran
    refine spared_kept stored used id loaded held catalog state between spared ?_
      (grown id spared.used)
    by_cases here : entry.calendarId = id
    · -- Its names lead to it from the beginning, and the statements on them read.
      obtain ⟨first, there, leads⟩ := spared.names name entry found here
      obtain ⟨now, bindData, columnIds, rfl⟩ := reading first there leads
      exact select_keeps engine (fun before later => stored id later = stored id before) http
        headers baseUrl defaults vectorSize fuel
        ⟨fun _ => rfl, fun _ _ _ first second => second.trans first, (service.each id).reads⟩ now _
        columnIds calls state between _ ran
    · exact others id (Ne.symm here)

/-- A CREATE TABLE ... AS spares every calendar that the service has. -/
theorem create_spares (headers : HttpHeaders) (baseUrl : String) (defaults : DefaultWindow)
    (vectorSize fuel calls : Nat) (orReplace : Bool) (name source : String)
    (columns : List ColumnDefinition) (now : Int) (bindData : CalendarScanBindData)
    (predicate : List Value → Bool) (result : Except Exception DatabaseReport)
    (next : CalendarCatalog)
    (performed : (DatabaseStatement.createTableAs orReplace name source columns now bindData
      predicate).perform engine http headers baseUrl defaults vectorSize fuel calls catalog state =
        some (result, next, after)) : Spared stored used id loaded held (next, after) := by
  simp only [DatabaseStatement.perform] at performed
  split at performed
  · obtain ⟨-, rest⟩ := Prod.mk.inj (Option.some.inj performed)
    obtain ⟨rfl, rfl⟩ := Prod.mk.inj rest
    exact spared
  · split at performed
    · obtain ⟨-, rest⟩ := Prod.mk.inj (Option.some.inj performed)
      obtain ⟨rfl, rfl⟩ := Prod.mk.inj rest
      exact spared
    · obtain ⟨⟨ended, further, final⟩, ran, same⟩ := Option.map_eq_some_iff.mp performed
      obtain ⟨-, rest⟩ := Prod.mk.inj same
      obtain ⟨rfl, rfl⟩ := Prod.mk.inj rest
      simp only [RowQuery.createTableAs] at ran
      split at ran
      · rename_i error planNext planned plan
        obtain ⟨-, left⟩ := Prod.mk.inj (Option.some.inj ran)
        obtain ⟨rfl, rfl⟩ := Prod.mk.inj left
        obtain ⟨rfl, kept⟩ := refused_plan_kept engine http stored used instant reaches resume
          service catalog state planned headers baseUrl name columns planNext error plan
        obtain ⟨unwritten, grown⟩ := kept id spared.used
        exact spared_kept stored used id loaded held planNext state planned spared unwritten grown
      · rename_i operator planNext planned plan
        obtain ⟨⟨outcome, last⟩, inserts, equal⟩ := Option.map_eq_some_iff.mp ran
        obtain ⟨-, left⟩ := Prod.mk.inj equal
        obtain ⟨rfl, rfl⟩ := Prod.mk.inj left
        obtain ⟨-, catalogued, -⟩ := plan_posted engine http headers baseUrl catalog planNext name
          columns state planned operator plan
        obtain ⟨fresh, -⟩ := plan_fresh engine http stored used instant reaches resume service
          catalog state planned headers baseUrl name columns operator planNext plan
        obtain ⟨there, others, grown⟩ := copying_kept engine http stored used instant reaches resume
          service catalog state headers baseUrl defaults vectorSize fuel calls name columns operator
          planNext planned last plan _ _ now outcome inserts
        have kept := spared_kept stored used id loaded held catalog state last spared
          (others id spared.used) (grown id spared.used)
        have apart : operator.calendarId ≠ id := fun same => fresh (same ▸ spared.used)
        have distinct : lowerCase id ≠ lowerCase operator.calendarId := fun same =>
          apart
            (service.distinct last id operator.calendarId (grown id spared.used) there same).symm
        rw [catalogued]
        refine ⟨kept.used, ?_, kept.kept, ?_⟩
        · have before := spared.foreign
          simp only [CalendarCatalog.wasCreatedThisSession, FoldedMap.contains] at before
          simp only [CalendarCatalog.markCreatedThisSession, CalendarCatalog.addTable,
            CalendarCatalog.wasCreatedThisSession, FoldedMap.contains, FoldedMap.find_assign,
            if_neg distinct, before]
        · intro other entry found leads
          simp only [CalendarCatalog.markCreatedThisSession, CalendarCatalog.addTable,
            FoldedMap.find_assign] at found
          split at found
          · obtain rfl := Option.some.inj found
            exact absurd leads apart
          · exact spared.names other entry found leads

/-- A DROP spares every calendar that the session has not made. -/
theorem drop_spares (headers : HttpHeaders) (baseUrl : String) (defaults : DefaultWindow)
    (vectorSize fuel calls : Nat) (info : DropInfo) (result : Except Exception DatabaseReport)
    (next : CalendarCatalog)
    (performed : (DatabaseStatement.dropTable info).perform engine http headers baseUrl defaults
      vectorSize fuel calls catalog state = some (result, next, after)) :
    Spared stored used id loaded held (next, after) := by
  obtain ⟨-, ended⟩ := Prod.mk.inj (Option.some.inj performed)
  simp only [CalendarCatalog.dropEntry] at ended
  split at ended
  · obtain ⟨rfl, rfl⟩ := Prod.mk.inj ended
    exact spared
  · split at ended
    · split at ended <;> obtain ⟨rfl, rfl⟩ := Prod.mk.inj ended <;> exact spared
    · rename_i entry found
      split at ended
      · obtain ⟨rfl, rfl⟩ := Prod.mk.inj ended
        exact spared
      · rename_i made
        have apart : id ≠ entry.calendarId := by
          rintro rfl
          simp [spared.foreign] at made
        let request := GoogleCalendarClient.request ⟨http, headers, baseUrl⟩ .del
          (.calendar entry.calendarId) none
        have kept := spared_kept stored used id loaded held catalog state
          (http.execute request state).2 spared
          ((service.removes request state entry.calendarId rfl rfl).1 id apart)
          (service.grows request state id spared.used)
        split at ended
        · rename_i error between deleted
          have left : (http.execute request state).2 = between := congrArg Prod.snd deleted
          obtain ⟨rfl, rfl⟩ := Prod.mk.inj ended
          exact left ▸ kept
        · rename_i between deleted
          have left : (http.execute request state).2 = between := congrArg Prod.snd deleted
          obtain ⟨rfl, rfl⟩ := Prod.mk.inj ended
          rw [left] at kept
          refine ⟨kept.used, ?_, kept.kept, ?_⟩
          · have before := spared.foreign
            simp only [CalendarCatalog.wasCreatedThisSession, FoldedMap.contains] at before
            simp only [CalendarCatalog.forgetCreatedThisSession,
              CalendarCatalog.wasCreatedThisSession, FoldedMap.contains, FoldedMap.find_erase]
            split
            · rfl
            · exact before
          · intro other twin there leads
            simp only [CalendarCatalog.forgetCreatedThisSession, FoldedMap.find_erase] at there
            split at there
            · cases there
            · exact spared.names other twin there leads

end Spare

include service

end Service

/-! ## A small attachment -/

section Small

variable (service : ListingService) (engine : Engine)
  (parses : ∀ text, engine.parse text = service.documents.lookup text) (reaches : Cells → Bool)
  (windowed : ∀ calendarId body, service.window body = reaches (shown engine calendarId body))

/-- The ids that have been used are kept. -/
theorem used_kept (request : HttpRequest) (shelves : Shelves) (id : String)
    (there : id ∈ shelves.used) :
    id ∈ ((calendarsHttp service).execute request shelves).2.used := by
  simp only [calendarsHttp]
  split
  · exact there
  · split
    · split
      · exact there
      · exact there
    · split
      · exact List.mem_cons_of_mem "copy" there
      · exact there
    · exact there
    · exact there

include parses windowed

/-- The calendars are an attached service, when the answers name the calendars that they are
about. -/
theorem small_attached
    (named : ∃ json, engine.parse "copy" = some json ∧
      json.valueOr "id" "" Json.getString = .ok "copy")
    (lists : ∃ json, engine.parse "calendars" = some json ∧
      ∀ page, CalendarListResponse.fromJson json = .ok page → ∀ cal ∈ page.items, cal.id = "work") :
    AttachedService engine (calendarsHttp service) heldIn
      (fun shelves calendarId => calendarId ∈ shelves.used) service.instant (fun _ => reaches)
      (fun _ => service.resume) where
  toCalendarsService := small_calendars service engine parses reaches windowed named
  grows := used_kept service
  distinct shelves id other first second same := by
    by_contra apart
    have symmetric : Std.Symm (fun id other => lowerCase id ≠ lowerCase other) :=
      ⟨fun _ _ differ => differ.symm⟩
    exact shelves.distinct.forall first second apart same
  listed request shelves response after json pageToken page method path executed status parsed
      reads cal member := by
    obtain ⟨answer, known, works⟩ := lists
    simp only [calendarsHttp, method, path, eventsOf] at executed
    split at executed
    · rename_i used
      obtain ⟨answered, rfl⟩ := Prod.mk.inj executed
      obtain rfl := Except.ok.inj answered
      obtain rfl := Option.some.inj (known.symm.trans parsed)
      rw [works page reads cal member, used]
      exact List.mem_singleton_self "work"
    · obtain ⟨answered, -⟩ := Prod.mk.inj executed
      obtain rfl := Except.ok.inj answered
      cases status
  names request shelves response after json calendarId method path executed status parsed
      identified := by
    obtain ⟨answer, known, copy⟩ := named
    simp only [calendarsHttp, method, path, eventsOf] at executed
    split at executed
    · obtain ⟨answered, rfl⟩ := Prod.mk.inj executed
      obtain rfl := Except.ok.inj answered
      obtain rfl := Option.some.inj (known.symm.trans parsed)
      obtain rfl := Except.ok.inj (copy.symm.trans identified)
      exact List.mem_cons_self ..
    · obtain ⟨answered, -⟩ := Prod.mk.inj executed
      obtain rfl := Except.ok.inj answered
      cases status
  plans request shelves other method path there := by
    simp only [calendarsHttp, method, path, eventsOf]
    split
    · rename_i fresh
      exact congrArg ListingService.held
        (shelves.add_other "copy" fresh other (shelves.used_apart "copy" fresh other there))
    · rfl
  removes request shelves calendarId method path := by
    simp only [calendarsHttp, method, path, eventsOf]
    constructor
    · intro other apart
      exact congrArg ListingService.held (shelves.put_other calendarId other _ apart)
    · intro response answered status
      funext id
      simp [heldIn, ListingService.held]

end Small

/-- The calendar of the meeting is attached, copied, read and dropped; what it does not own it does
not drop. -/
def backupStatements : List DatabaseStatement :=
  [.createTableAs false "Backup" "work" eventsColumns 0 workScan (fun _ => true),
    .onTable "backup" (.select 0 workScan [.rowId]),
    .dropTable ⟨.tableEntry, "BACKUP", false⟩,
    .onTable "backup" (.select 0 workScan [.rowId]),
    .dropTable ⟨.tableEntry, "work", true⟩]

/-- The catalog and the calendars after the attachment. -/
def workAttached : CalendarCatalog × Shelves :=
  (⟨.empty, FoldedMap.empty.assign "work" ⟨"work", "work"⟩, .empty⟩, workShelves)

/-- Statements one after another, with their reports. -/
def performAll : List DatabaseStatement → CalendarCatalog × Shelves →
    Option (List (Except Exception DatabaseReport) × (CalendarCatalog × Shelves))
  | [], attached => some ([], attached)
  | statement :: rest, attached =>
    match statement.perform meetingEngine (calendarsHttp meetingService) [] "" {} 5 9 3 attached.1
        attached.2 with
    | some (result, after) =>
      (performAll rest after).map (fun later => (result :: later.1, later.2))
    | none => none

/-- What the statements report: a refusal is told by the kind of its exception. -/
def reported : Except Exception DatabaseReport → Option DatabaseReport
  | .ok report => some report
  | .error _ => none

/-- What a statement does on the calendars of the example. -/
abbrev WorkPerforms := Performs meetingEngine (calendarsHttp meetingService) heldIn
  (fun _ _ => true) [] "" {} 5

/-- Statements that are performed one after another are a session. -/
theorem performed_session (statements : List DatabaseStatement)
    (results : List (Except Exception DatabaseReport)) (start final : CalendarCatalog × Shelves)
    (ready : ∀ statement ∈ statements, statement.Proper meetingEngine ∧
      ∀ before : CalendarCatalog × Shelves,
        statement.Ready meetingEngine (fun _ _ => true) {} heldIn before.1 before.2)
    (ran : performAll statements start = some (results, final)) :
    Transcript WorkPerforms start (statements.zip results) final := by
  induction statements generalizing start results with
  | nil =>
    obtain ⟨rfl, rfl⟩ := Prod.mk.inj (Option.some.inj ran)
    exact .done _
  | cons statement rest ih =>
    simp only [performAll] at ran
    split at ran
    · rename_i result after first
      obtain ⟨later, ended, same⟩ := Option.map_eq_some_iff.mp ran
      obtain ⟨rfl, rfl⟩ := Prod.mk.inj same
      obtain ⟨proper, always⟩ := ready statement (List.mem_cons_self ..)
      exact .step _ _ _ _ _ _ ⟨proper, always start, 9, 3, first⟩
        (ih later.1 after (fun other member => ready other (List.mem_cons_of_mem _ member)) ended)
    · cases ran

/-- The statements after the first make no calendar. -/
theorem backup_ready : ∀ statement ∈ backupStatements.tail,
    statement.Proper meetingEngine ∧ ∀ before : CalendarCatalog × Shelves,
      statement.Ready meetingEngine (fun _ _ => true) {} heldIn before.1 before.2 := by
  intro statement member
  simp only [backupStatements, List.tail_cons, List.mem_cons, List.not_mem_nil, or_false] at member
  rcases member with rfl | rfl | rfl | rfl
  · exact ⟨fun _ => rfl, fun _ => trivial⟩
  · exact ⟨rfl, fun _ => trivial⟩
  · exact ⟨fun _ => rfl, fun _ => trivial⟩
  · exact ⟨rfl, fun _ => trivial⟩

/-- What the five statements report, and the tables that they leave. -/
def backupReports : List (Option DatabaseReport) × Option CalendarTableEntry ×
    Option CalendarTableEntry :=
  ([some (.copied 1), some (.table (.rows [[.varchar "a"]])), some .dropped, none, none], none,
    some ⟨"work", "work"⟩)

/-- The session of the example is performed, with these reports. -/
theorem backup_session : ∃ results final,
    performAll backupStatements workAttached = some (results, final) ∧
    (results.map reported, final.1.tables.under "backup", final.1.tables.under "work") =
      backupReports ∧
    Transcript WorkPerforms workAttached (backupStatements.zip results) final := by
  have reports : (performAll backupStatements workAttached).map (fun ended =>
      (ended.1.map reported, ended.2.1.tables.under "backup", ended.2.1.tables.under "work")) =
        some backupReports := by
    decide +kernel
  obtain ⟨⟨results, final⟩, ran, told⟩ := Option.map_eq_some_iff.mp reports
  refine ⟨results, final, ran, told, ?_⟩
  simp only [backupStatements, performAll] at ran
  split at ran
  · rename_i result after first
    obtain ⟨later, ended, same⟩ := Option.map_eq_some_iff.mp ran
    obtain ⟨rfl, rfl⟩ := Prod.mk.inj same
    have rest := performed_session backupStatements.tail later.1 after later.2 backup_ready ended
    refine .step _ _ _ _ _ _ ⟨trivial, ?_, 9, 3, first⟩ rest
    intro entry found id body held wanted
    have work : entry = ⟨"work", "work"⟩ := (Option.some.inj found).symm
    subst work
    refine ⟨meeting, false, ?_, meeting_keepable⟩
    simp only [heldIn, workAttached, workShelves, ListingService.held, ListingService.store,
      OrderedMap.find_insert] at held
    split at held
    · exact (Option.some.inj held).symm
    · cases held
  · cases ran

/-- ATTACH lists one calendar, which has its id for a name. -/
theorem work_loaded : CalendarAttach.calendarAttach meetingEngine
    ⟨calendarsHttp meetingService, [], ""⟩ 1 none workShelves =
      some (.ok workAttached.1, workAttached.2) := by
  rfl

/-- The calendar list has the one calendar. -/
theorem work_listed (page : CalendarListResponse)
    (reads : CalendarListResponse.fromJson workPage = .ok page) :
    ∀ cal ∈ page.items, cal.id = "work" := by
  obtain rfl := Except.ok.inj reads
  intro cal member
  rw [List.mem_singleton.mp member]

/-- The calendars of the example are a service as assumed. -/
theorem work_attached : AttachedService meetingEngine (calendarsHttp meetingService) heldIn
    (fun shelves calendarId => calendarId ∈ shelves.used) meetingService.instant (fun _ _ => true)
    (fun _ => meetingService.resume) :=
  small_attached meetingService meetingEngine (fun _ => rfl) (fun _ => true) (fun _ _ => rfl)
    ⟨_, rfl, rfl⟩ ⟨workPage, rfl, work_listed⟩

/-- What a statement performs it executes. -/
theorem performs_executes (start final : CalendarCatalog × Shelves)
    (steps : List (DatabaseStatement × Except Exception DatabaseReport))
    (session : Transcript WorkPerforms start steps final) :
    Transcript (Executes meetingEngine (calendarsHttp meetingService) [] "" {} 5) start steps
      final := by
  induction session with
  | done state => exact .done state
  | step state between final statement result later first rest ih =>
    exact .step state between final statement result later first.2.2 ih

end GoogleCalendar.AttachedDatabase
