import GoogleCalendar.Client
import GoogleCalendar.EventSchema
import GoogleCalendar.CalendarInsert
import GoogleCalendar.Library.FoldedEntries

/-!
# The catalog of an attachment

The catalog keeps the tables of its one schema by name and the ids of the
calendars it created, both compared without regard to letter case. Tables are
added when the attachment enumerates the calendars and by CREATE TABLE ... AS,
and removed by DROP TABLE, which also deletes the calendar and therefore is
refused for a calendar that the session did not create.

A statement that throws leaves what it had done up to then.
-/

namespace GoogleCalendar

open Library

/-- A map with case-insensitive names. -/
abbrev CaseInsensitiveMap (V : Type) := FoldedMap String V lowerCase

/-- `CalendarTableEntry`: a name, and the calendar behind it. -/
structure CalendarTableEntry where
  name : String
  calendarId : String
  deriving DecidableEq, Repr

/-- The catalog together with the tables of its schema entry. -/
structure CalendarCatalog where
  calendarAliases : CaseInsensitiveMap String
  tables : CaseInsensitiveMap CalendarTableEntry
  createdCalendarIds : CaseInsensitiveMap Unit

/-- The types of catalog entries that a DROP can name. -/
inductive CatalogType where
  | tableEntry
  | otherEntry
  deriving DecidableEq, Repr

/-- `DropInfo`. -/
structure DropInfo where
  type : CatalogType
  name : String
  ifExists : Bool
  deriving DecidableEq, Repr

namespace CalendarCatalog

/-- `AddTable`: assign under the entry's name, whatever stood there. -/
def addTable (catalog : CalendarCatalog) (entry : CalendarTableEntry) : CalendarCatalog :=
  { catalog with tables := catalog.tables.assign entry.name entry }

/-- `CalendarCatalog::MarkCreatedThisSession`. -/
def markCreatedThisSession (catalog : CalendarCatalog) (calendarId : String) : CalendarCatalog :=
  { catalog with createdCalendarIds := catalog.createdCalendarIds.assign calendarId () }

/-- `CalendarCatalog::WasCreatedThisSession`. -/
def wasCreatedThisSession (catalog : CalendarCatalog) (calendarId : String) : Bool :=
  catalog.createdCalendarIds.contains calendarId

/-- `CalendarCatalog::ForgetCreatedThisSession`. -/
def forgetCreatedThisSession (catalog : CalendarCatalog) (calendarId : String) : CalendarCatalog :=
  { catalog with createdCalendarIds := catalog.createdCalendarIds.erase calendarId }

/-- The aliases of a calendar, and its id when it has none. -/
def tableNames (catalog : CalendarCatalog) (calendarId : String) : List String :=
  match catalog.calendarAliases.entries.filter
      (fun entry => lowerCase entry.2 = lowerCase calendarId) with
  | [] => [calendarId]
  | aliases => aliases.map Prod.fst

/-- Mount one listed calendar under each of its names. -/
def mountCalendar (catalog : CalendarCatalog) (cal : CalendarListEntry) : CalendarCatalog :=
  (catalog.tableNames cal.id).foldl (fun catalog name => catalog.addTable ⟨name, cal.id⟩) catalog

variable {σ : Type} (engine : Engine) (client : GoogleCalendarClient σ)

/-- The loop over the pages of the calendar list, with the ids seen so far. -/
def loadPages : Nat → String → List String → CalendarCatalog → σ →
    Option (Except Exception (List String × CalendarCatalog) × σ)
  | 0, _, _, _, _ => none
  | fuel + 1, pageToken, seenIds, catalog, state =>
    match CalendarListResource.list engine client pageToken state with
    | (.error error, after) => some (.error error, after)
    | (.ok response, after) =>
      let seen := seenIds ++ response.items.map CalendarListEntry.id
      let mounted := response.items.foldl mountCalendar catalog
      if response.nextPageToken = "" then some (.ok (seen, mounted), after)
      else loadPages fuel response.nextPageToken seen mounted after

/-- Enumerate the calendars, then refuse an alias of a calendar that was not
listed. -/
def loadCatalog (fuel : Nat) (catalog : CalendarCatalog) (state : σ) :
    Option (Except Exception CalendarCatalog × σ) :=
  match loadPages engine client fuel "" [] catalog state with
  | none => none
  | some (.error error, after) => some (.error error, after)
  | some (.ok (seenIds, loaded), after) =>
    match catalog.calendarAliases.entries.find?
        (fun entry => lowerCase entry.2 ∉ seenIds.map lowerCase) with
    | some entry => some (.error (.invalidInput
        ("calendar_aliases refers to unknown calendar ID \"" ++ entry.2 ++ "\"")), after)
    | none => some (.ok loaded, after)

/-- The part of CREATE TABLE ... AS that runs at planning: the new calendar, its
table, and the INSERT operator that is to fill it. -/
def planCreateTableAs (catalog : CalendarCatalog) (table : String)
    (columns : List ColumnDefinition) (state : σ) :
    Except Exception CalendarInsert × CalendarCatalog × σ :=
  match validateEventsColumns columns with
  | .error error => (.error error, catalog, state)
  | .ok () =>
    match CalendarsResource.insert engine client table state with
    | (.error error, after) => (.error error, catalog, after)
    | (.ok created, after) =>
        (.ok ⟨created.id, eventsNames, false⟩,
          (catalog.addTable ⟨table, created.id⟩).markCreatedThisSession created.id, after)

/-- DROP. The calendar is deleted before the catalog is touched. -/
def dropEntry (catalog : CalendarCatalog) (info : DropInfo) (state : σ) :
    Except Exception Unit × CalendarCatalog × σ :=
  if info.type ≠ .tableEntry then
    (.error (.notImplemented "google_calendar catalog supports DROP TABLE only"), catalog, state)
  else
    match catalog.tables.find info.name with
    | none =>
      if info.ifExists then (.ok (), catalog, state)
      else (.error (.catalog
        ("Table \"" ++ info.name ++ "\" not found in google_calendar catalog")), catalog, state)
    | some table =>
      if !catalog.wasCreatedThisSession table.calendarId then
        (.error (.invalidInput ("google_calendar: refusing to DROP \"" ++ info.name ++
          "\": only calendars created in this session with CREATE TABLE ... AS can be dropped " ++
          "(this protects pre-existing calendars from deletion)")), catalog, state)
      else
        match CalendarsResource.delete client table.calendarId state with
        | (.error error, after) => (.error error, catalog, after)
        | (.ok (), after) =>
            let forgotten := catalog.forgetCreatedThisSession table.calendarId
            (.ok (), { forgotten with tables := forgotten.tables.erase info.name }, after)

end CalendarCatalog

/-- The statements of a session that change its catalog. -/
inductive Statement where
  | createTableAs (orReplace : Bool) (table : String) (columns : List ColumnDefinition)
      (rows : List (List Value))
  | dropTable (info : DropInfo)

namespace Statement

open CalendarCatalog

variable {σ : Type} (engine : Engine) (client : GoogleCalendarClient σ)

/-- Run a statement. The engine plans a CREATE TABLE ... AS for a name that is
taken only with OR REPLACE, and runs the planned INSERT afterwards. -/
def run (statement : Statement) (catalog : CalendarCatalog) (state : σ) :
    Except Exception Unit × CalendarCatalog × σ :=
  match statement with
  | .createTableAs orReplace table columns rows =>
    if !orReplace && catalog.tables.contains table then
      (.error (.catalog ("Table with name \"" ++ table ++ "\" already exists!")), catalog, state)
    else
      match planCreateTableAs engine client catalog table columns state with
      | (.error error, next, after) => (.error error, next, after)
      | (.ok insert, next, after) =>
          let outcome := CalendarInsert.sink engine client insert rows {} after
          (outcome.1, next, outcome.2.2)
  | .dropTable info => dropEntry client catalog info state

/-- Run the statements of a session. One that throws does not end the session. -/
def runAll : List Statement → CalendarCatalog → σ → CalendarCatalog × σ
  | [], catalog, state => (catalog, state)
  | statement :: rest, catalog, state =>
      let outcome := statement.run engine client catalog state
      runAll rest outcome.2.1 outcome.2.2

end Statement

/-- An attachment: the catalog is loaded, and if that succeeds the statements
run. A failed ATTACH leaves no catalog. -/
def session {σ : Type} (engine : Engine) (client : GoogleCalendarClient σ) (fuel : Nat)
    (aliases : CaseInsensitiveMap String) (statements : List Statement) (state : σ) :
    Option (Option CalendarCatalog × σ) :=
  match CalendarCatalog.loadCatalog engine client fuel ⟨aliases, .empty, .empty⟩ state with
  | none => none
  | some (.error _, after) => some (none, after)
  | some (.ok loaded, after) =>
      let outcome := Statement.runAll engine client statements loaded after
      some (some outcome.1, outcome.2)

end GoogleCalendar
