import GoogleCalendar.Engine

/-!
# Event JSON to rows and back

The two mappings between an event body and a row of the events schema. Writing
is keyed by column name: three tables give the JSON key of the string, boolean
and raw-JSON columns, `start` and `end` are encoded as a date or a date-time,
and `all_day` re-encodes the nodes that are there. Every other name is not
writable. Reading uses tables of its own.

A function that assigns or erases a member can throw, because the JSON library
does on a value that is no object.
-/

namespace GoogleCalendar.EventMapping

open Library CivilTime

/-- The first ten characters of a text, `substr(0, 10)`. -/
def datePart (text : String) : String := String.ofList (text.toList.take 10)

variable (engine : Engine)

/-- `FormatRfc3339`. -/
def formatRfc3339 (val : Value) : String :=
  replaceChar ' ' 'T' (engine.timestampToString val.getTimestamp) ++ "Z"

/-- `FormatDate`. -/
def formatDate (val : Value) : String :=
  datePart (engine.timestampToString val.getTimestamp)

/-- `TimeNode`. -/
def timeNode (val : Value) (allDay : Bool) : Json :=
  if allDay then .object [("date", .string (formatDate engine val))]
  else .object [("dateTime", .string (formatRfc3339 engine val))]

/-- Store the parsed text under the key. Empty text and text that does not parse
leave the event alone, and so does an event that cannot take a member: the
assignment stands inside the `try`. -/
def setJsonPassthrough (event : Json) (key : String) (val : Value) : Json :=
  if val.isNull then event
  else
    let text := val.toText engine
    if text = "" then event
    else
      match engine.parse text with
      | none => event
      | some parsed =>
        match event.assign key parsed with
        | .ok stored => stored
        | .error _ => event

/-- `ExistingAllDay`. -/
def existingAllDay (event : Json) : Bool :=
  match event.find "start" with
  | some node => node.isObject && node.contains "date" && !node.contains "dateTime"
  | none => false

/-- The text of a start or end node: its `dateTime`, else its `date`. -/
def rawTime (node : Json) : Option String :=
  match node.find "dateTime" with
  | some (.string raw) => some raw
  | _ =>
    match node.find "date" with
    | some (.string raw) => some raw
    | _ => none

/-- The node that `ReencodeTimeNode` builds from a node's text. -/
def rebuiltTimeNode (raw : String) (allDay : Bool) : Json :=
  if allDay then .object [("date", .string (datePart raw))]
  else .object [("dateTime", .string (if raw.length = 10 then raw ++ "T00:00:00Z" else raw))]

/-- Re-encode an existing start or end node when only `all_day` flips. -/
def reencodeTimeNode (event : Json) (key : String) (allDay : Bool) : Except JsonError Json :=
  match event.find key with
  | none => .ok event
  | some node =>
    if node.isObject then
      match rawTime node with
      | none => .ok event
      | some raw => event.assign key (rebuiltTimeNode raw allDay)
    else .ok event

/-- The columns written as strings, with their members. -/
def writableStringKeys : List (String × String) :=
  [("summary", "summary"), ("description", "description"), ("location", "location"),
    ("status", "status"), ("color_id", "colorId"), ("transparency", "transparency"),
    ("visibility", "visibility"), ("event_type", "eventType")]

/-- The columns written as booleans, with their members. -/
def writableBoolKeys : List (String × String) :=
  [("anyone_can_add_self", "anyoneCanAddSelf"),
    ("guests_can_invite_others", "guestsCanInviteOthers"),
    ("guests_can_modify", "guestsCanModify"),
    ("guests_can_see_other_guests", "guestsCanSeeOtherGuests")]

/-- The columns written as JSON, with their members. -/
def writableJsonKeys : List (String × String) :=
  [("attendees", "attendees"), ("recurrence", "recurrence"), ("reminders", "reminders"),
    ("conference_data", "conferenceData"), ("extended_properties", "extendedProperties"),
    ("source", "source"), ("attachments", "attachments"),
    ("working_location_properties", "workingLocationProperties")]

/-- What every writable column does with its value: NULL erases the member on
UPDATE and is omitted on INSERT, any other value is stored. -/
def writeMember (event : Json) (key : String) (val : Value) (update : Bool)
    (stored : Except JsonError Json) : Except JsonError Json :=
  if val.isNull then (if update then event.erase key else .ok event) else stored

/-- Apply one column's value to an event. The flag returned says whether the
column is writable in this mode. -/
def applyColumn (event : Json) (name : String) (val : Value) (allDay update : Bool) :
    Except JsonError (Json × Bool) :=
  let writable (outcome : Except JsonError Json) := outcome.map (fun event => (event, true))
  if name = "event_id" then
    if update then .ok (event, false)
    else writable
      (writeMember event "id" val update (event.assign "id" (.string (val.toText engine))))
  else
    match writableStringKeys.lookup name with
    | some key =>
        writable (writeMember event key val update (event.assign key (.string (val.toText engine))))
    | none =>
      match writableBoolKeys.lookup name with
      | some key =>
          writable (writeMember event key val update (event.assign key (.boolean val.getBoolean)))
      | none =>
        match writableJsonKeys.lookup name with
        | some key =>
            writable (writeMember event key val update
              (.ok (setJsonPassthrough engine event key val)))
        | none =>
          if name = "start" ∨ name = "end" then
            writable (writeMember event name val update
              (event.assign name (timeNode engine val allDay)))
          else if name = "all_day" then
            if update then
              writable do
                let started ← reencodeTimeNode event "start" allDay
                reencodeTimeNode started "end" allDay
            else .ok (event, true)
          else .ok (event, false)

/-- Whether a row says `all_day`: the first column of that name decides. -/
def rowAllDay (names : List String) (row : List Value) : Bool :=
  match (names.zip row).find? (fun column => column.1 = "all_day") with
  | some (_, val) => !val.isNull && val.getBoolean
  | none => false

/-- Build a full event body from an INSERT row. -/
def rowToEvent (names : List String) (row : List Value) : Except JsonError Json :=
  (names.zip row).foldlM (fun event column => do
    let applied ← applyColumn engine event column.1 column.2 (rowAllDay names row) false
    pure applied.1) .null

/-- Apply one SET column to an existing event; a column that is not writable on
UPDATE is an error. -/
def applySet (event : Json) (name : String) (val : Value) (allDay : Bool) :
    Except Exception Json :=
  match applyColumn engine event name val allDay true with
  | .error error => .error (.json error)
  | .ok (applied, true) => .ok applied
  | .ok (_, false) => .error (.invalidInput
      ("google_calendar: column \"" ++ name ++ "\" is read-only and cannot be updated"))

/-! The read mapping. -/

/-- `JsonString`. -/
def jsonString (event : Json) (key : String) : Value :=
  match event.find key with
  | none => .null
  | some .null => .null
  | some (.string text) => .varchar text
  | some other => .varchar other.dump

/-- `JsonRaw`. -/
def jsonRaw (event : Json) (key : String) : Value :=
  match event.find key with
  | none => .null
  | some .null => .null
  | some other => .varchar other.dump

/-- `JsonBool`. -/
def jsonBool (event : Json) (key : String) : Value :=
  match event.find key with
  | some (.boolean value) => .boolean value
  | _ => .null

/-- `JsonBigint`. -/
def jsonBigint (event : Json) (key : String) : Value :=
  match event.find key with
  | some (.integer value) => .bigint (int64 value)
  | _ => .null

/-- `ParseEventTime`. -/
def parseEventTime (event : Json) (which : String) : Value :=
  match event.find which with
  | none => .null
  | some node =>
    if node.isObject then
      match rawTime node with
      | none => .null
      | some raw =>
        match engine.castTimestampTz raw with
        | some micros => .timestampTz micros
        | none => .null
    else .null

/-- The columns read as strings, with their members. -/
def stringKeys : List (String × String) :=
  [("event_id", "id"), ("summary", "summary"), ("description", "description"),
    ("location", "location"), ("status", "status"), ("html_link", "htmlLink"),
    ("created", "created"), ("updated", "updated"), ("color_id", "colorId"),
    ("transparency", "transparency"), ("visibility", "visibility"), ("event_type", "eventType"),
    ("recurring_event_id", "recurringEventId"), ("ical_uid", "iCalUID"), ("etag", "etag"),
    ("kind", "kind"), ("hangout_link", "hangoutLink")]

/-- The columns read as JSON, with their members. -/
def rawKeys : List (String × String) :=
  [("attendees", "attendees"), ("recurrence", "recurrence"), ("reminders", "reminders"),
    ("conference_data", "conferenceData"), ("creator", "creator"), ("organizer", "organizer"),
    ("extended_properties", "extendedProperties"), ("source", "source"),
    ("attachments", "attachments"),
    ("working_location_properties", "workingLocationProperties"),
    ("out_of_office_properties", "outOfOfficeProperties"),
    ("focus_time_properties", "focusTimeProperties")]

/-- The columns read as booleans, with their members. -/
def boolKeys : List (String × String) :=
  [("end_time_unspecified", "endTimeUnspecified"), ("attendees_omitted", "attendeesOmitted"),
    ("anyone_can_add_self", "anyoneCanAddSelf"),
    ("guests_can_invite_others", "guestsCanInviteOthers"),
    ("guests_can_modify", "guestsCanModify"),
    ("guests_can_see_other_guests", "guestsCanSeeOtherGuests"),
    ("private_copy", "privateCopy"), ("locked", "locked")]

/-- The value of one schema column read from an event. -/
def extractField (event : Json) (field : String) : Value :=
  match stringKeys.lookup field with
  | some key => jsonString event key
  | none =>
    match rawKeys.lookup field with
    | some key => jsonRaw event key
    | none =>
      match boolKeys.lookup field with
      | some key => jsonBool event key
      | none =>
        if field = "start" then parseEventTime engine event "start"
        else if field = "end" then parseEventTime engine event "end"
        else if field = "original_start_time" then parseEventTime engine event "originalStartTime"
        else if field = "all_day" then .boolean (existingAllDay event)
        else if field = "sequence" then jsonBigint event "sequence"
        else .null

/-- The value of one column in a full row: the calendar's id is not on the event
and comes from the context. -/
def columnValue (event : Json) (calendarId name : String) : Value :=
  if name = "calendar_id" then .varchar calendarId else extractField engine event name

/-- One full-schema row from an event body. -/
def eventToRow (event : Json) (names : List String) (calendarId : String) : List Value :=
  names.map (columnValue engine event calendarId)

end GoogleCalendar.EventMapping
