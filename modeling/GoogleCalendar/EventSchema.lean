import GoogleCalendar.Engine

/-!
# The events schema

Every table of the catalog has the same columns. A CREATE TABLE must produce
them exactly: as many, in order, with names equal up to letter case and with
equal types.
-/

namespace GoogleCalendar

/-- A text with its ASCII letters in lower case, as case-insensitive names and
maps compare it. -/
def lowerCase (text : String) : String := String.ofList (text.toList.map Char.toLower)

/-- The types of the schema, and any other by its name. -/
inductive LogicalType where
  | varchar
  | boolean
  | bigint
  | timestampTz
  | other (name : String)
  deriving DecidableEq, Repr

/-- `LogicalType::ToString`. -/
def LogicalType.text : LogicalType → String
  | varchar => "VARCHAR"
  | boolean => "BOOLEAN"
  | bigint => "BIGINT"
  | timestampTz => "TIMESTAMP WITH TIME ZONE"
  | other name => name

/-- `ColumnDefinition`. -/
structure ColumnDefinition where
  name : String
  type : LogicalType
  deriving DecidableEq, Repr

/-- `AddEventsColumns` into an empty list. -/
def eventsColumns : List ColumnDefinition :=
  [⟨"calendar_id", .varchar⟩,
    ⟨"event_id", .varchar⟩, ⟨"summary", .varchar⟩, ⟨"description", .varchar⟩,
    ⟨"location", .varchar⟩, ⟨"status", .varchar⟩, ⟨"html_link", .varchar⟩,
    ⟨"created", .varchar⟩, ⟨"updated", .varchar⟩, ⟨"start", .timestampTz⟩,
    ⟨"end", .timestampTz⟩, ⟨"all_day", .boolean⟩,
    ⟨"color_id", .varchar⟩, ⟨"transparency", .varchar⟩, ⟨"visibility", .varchar⟩,
    ⟨"event_type", .varchar⟩,
    ⟨"recurring_event_id", .varchar⟩, ⟨"original_start_time", .timestampTz⟩,
    ⟨"ical_uid", .varchar⟩, ⟨"sequence", .bigint⟩, ⟨"etag", .varchar⟩, ⟨"kind", .varchar⟩,
    ⟨"hangout_link", .varchar⟩, ⟨"creator", .varchar⟩, ⟨"organizer", .varchar⟩,
    ⟨"end_time_unspecified", .boolean⟩, ⟨"attendees_omitted", .boolean⟩,
    ⟨"anyone_can_add_self", .boolean⟩, ⟨"guests_can_invite_others", .boolean⟩,
    ⟨"guests_can_modify", .boolean⟩, ⟨"guests_can_see_other_guests", .boolean⟩,
    ⟨"private_copy", .boolean⟩, ⟨"locked", .boolean⟩,
    ⟨"attendees", .varchar⟩, ⟨"recurrence", .varchar⟩, ⟨"reminders", .varchar⟩,
    ⟨"conference_data", .varchar⟩, ⟨"extended_properties", .varchar⟩, ⟨"source", .varchar⟩,
    ⟨"attachments", .varchar⟩, ⟨"working_location_properties", .varchar⟩,
    ⟨"out_of_office_properties", .varchar⟩, ⟨"focus_time_properties", .varchar⟩]

/-- The column names of every table. -/
def eventsNames : List String := eventsColumns.map ColumnDefinition.name

/-- No name stands twice in the schema. -/
theorem events_names_distinct : eventsNames.Nodup := by decide

/-- The first wanted column, numbered from the given one, that the got column
differs from. -/
def firstMismatch (number : Nat) : List ColumnDefinition → List ColumnDefinition →
    Option (Nat × ColumnDefinition × ColumnDefinition)
  | want :: wants, got :: gots =>
      if lowerCase want.name ≠ lowerCase got.name ∨ want.type ≠ got.type then
        some (number, want, got)
      else firstMismatch (number + 1) wants gots
  | _, _ => none

/-- `ValidateEventsColumns`. -/
def validateEventsColumns (columns : List ColumnDefinition) : Except Exception Unit :=
  if columns.length ≠ eventsColumns.length then
    .error (.binder ("CREATE TABLE in a google_calendar catalog must produce the events schema " ++
      "exactly (" ++ toString eventsColumns.length ++ " columns), got " ++
      toString columns.length ++ "; try AS FROM <existing_calendar> WHERE false"))
  else
    match firstMismatch 1 eventsColumns columns with
    | some (number, want, got) =>
        .error (.binder ("CREATE TABLE column " ++ toString number ++ " must be \"" ++ want.name ++
          "\" " ++ want.type.text ++ " to match the events schema, got \"" ++ got.name ++ "\" " ++
          got.type.text))
    | none => .ok ()

end GoogleCalendar
