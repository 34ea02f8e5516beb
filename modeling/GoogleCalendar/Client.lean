import GoogleCalendar.Transport

/-!
# The calendar client and its resources

The client holds one set of headers, built once. Each resource operation is one
request and one reading of the response: only status 200 is read, every other
status is an API error, and the two deletions accept 204 besides 200.
-/

namespace GoogleCalendar

open Library

/-- `GoogleCalendarClient`: the HTTP client behind the retries, and what every request carries.
-/
structure GoogleCalendarClient (σ : Type) where
  http : IHttpClient σ
  headers : HttpHeaders
  baseUrl : String := "https://www.googleapis.com/calendar/v3"

/-- The headers of every request of a client. -/
def buildHeaders (authorization version : String) : HttpHeaders :=
  [("Accept", "application/json"), ("Authorization", authorization),
    ("Content-Type", "application/json"),
    ("User-Agent", "duckdb-google-calendar/" ++ (if version = "" then "dev" else version))]

/-- Read a response body at a type, given how the type reads JSON. -/
def parseResponse {α : Type} (engine : Engine) (get : Json → Except JsonError α)
    (response : HttpResponse) : Except Exception α :=
  if response.statusCode = 200 then
    match engine.parse response.body with
    | none => .error (.parseError
        ("Failed to parse response: " ++ (engine.parseError response.body).what))
    | some json =>
      match get json with
      | .ok value => .ok value
      | .error error => .error (.parseError ("Failed to parse response: " ++ error.what))
  else .error (.api response.statusCode response.body)

/-- Continue with a response, or pass a thrown error on. -/
def readResponse {α σ : Type} (read : HttpResponse → Except Exception α)
    (outcome : Except Exception HttpResponse × σ) : Except Exception α × σ :=
  (outcome.1.bind read, outcome.2)

/-- A value read from a response comes from a 200 whose body parses to it. -/
theorem read_ok {α σ : Type} (engine : Engine) (get : Json → Except JsonError α)
    (outcome : Except Exception HttpResponse × σ) (value : α) (after : σ)
    (answered : readResponse (parseResponse engine get) outcome = (.ok value, after)) :
    ∃ response json, outcome = (.ok response, after) ∧ response.statusCode = 200 ∧
      engine.parse response.body = some json ∧ get json = .ok value := by
  obtain ⟨result, state⟩ := outcome
  obtain ⟨read, rfl⟩ := Prod.mk.inj answered
  cases result with
  | error error => exact absurd read (by simp [Except.bind])
  | ok response =>
    simp only [Except.bind, parseResponse] at read
    split at read
    · rename_i status
      split at read
      · exact absurd read (by simp)
      · rename_i json parsed
        split at read
        · rename_i held got
          obtain rfl := Except.ok.inj read
          exact ⟨response, json, rfl, status, parsed, got⟩
        · exact absurd read (by simp)
    · exact absurd read (by simp)

/-- No client sends a precondition on what it replaces. -/
theorem headers_unconditional (authorization version : String) :
    ∀ header ∈ buildHeaders authorization version, header.1 ≠ "If-Match" := by
  intro header member
  simp only [buildHeaders, List.mem_cons, List.not_mem_nil, or_false] at member
  rcases member with rfl | rfl | rfl | rfl <;> simp

namespace GoogleCalendarClient

variable {σ : Type} (client : GoogleCalendarClient σ)

/-- `DoGet`, `DoPost`, `DoPut` and `DoDelete` differ in the method and in whether
they send a body, which the resources hand over serialised. -/
def request (method : HttpMethod) (path : ResourcePath) (body : Option Json) : HttpRequest :=
  ⟨method, client.baseUrl, path, client.headers, body⟩

/-- `GoogleCalendarClient::DoGet`. -/
def doGet (path : ResourcePath) : σ → Except Exception HttpResponse × σ :=
  client.http.execute (client.request .get path none)

/-- Send a body. It is serialised before the request is made, and `dump()` may throw. -/
def send (method : HttpMethod) (path : ResourcePath) (body : Json) (state : σ) :
    Except Exception HttpResponse × σ :=
  match body.dumped with
  | .error error => (.error (.json error), state)
  | .ok _ => client.http.execute (client.request method path (some body)) state

/-- `GoogleCalendarClient::DoPost`. -/
def doPost (path : ResourcePath) (body : Json) : σ → Except Exception HttpResponse × σ :=
  client.send .post path body

/-- `GoogleCalendarClient::DoPut`. -/
def doPut (path : ResourcePath) (body : Json) : σ → Except Exception HttpResponse × σ :=
  client.send .put path body

/-- `GoogleCalendarClient::DoDelete`. -/
def doDelete (path : ResourcePath) : σ → Except Exception HttpResponse × σ :=
  client.http.execute (client.request .del path none)

/-- A body that can be serialised is sent. -/
theorem send_dumps (method : HttpMethod) (path : ResourcePath) (body : Json) (state : σ)
    (dumps : body.Dumps) : client.send method path body state =
      client.http.execute (client.request method path (some body)) state := by
  rw [send, Json.dumped_ok body dumps]

/-- Sending a body throws before any request, or it is the request. -/
theorem send_cases (method : HttpMethod) (path : ResourcePath) (body : Json) (state : σ) :
    (∃ error, ¬ body.Dumps ∧ client.send method path body state = (.error (.json error), state)) ∨
      body.Dumps ∧ client.send method path body state =
        client.http.execute (client.request method path (some body)) state := by
  cases text : body.dumped with
  | error error =>
    refine .inl ⟨error, fun dumps => ?_, by rw [send, text]⟩
    rw [Json.dumped_ok body dumps] at text
    cases text
  | ok written => exact .inr ⟨(Json.dumps_of_dumped body written text).1, by rw [send, text]⟩

/-- Reading what comes of a sent body: an error before any request, or the answer. -/
theorem read_sent {α : Type} (read : HttpResponse → Except Exception α) (method : HttpMethod)
    (path : ResourcePath) (body : Json) (state : σ) :
    (∃ error, ¬ body.Dumps ∧ readResponse read (client.send method path body state) =
        (.error (.json error), state)) ∨
      body.Dumps ∧ readResponse read (client.send method path body state) =
        readResponse read
          (client.http.execute (client.request method path (some body)) state) := by
  rcases client.send_cases method path body state with ⟨error, ill, failed⟩ | ⟨dumps, sent⟩
  · exact .inl ⟨error, ill, by rw [failed]; rfl⟩
  · exact .inr ⟨dumps, by rw [sent]⟩

/-- A value is read from an answer only. -/
theorem read_sent_ok {α : Type} (read : HttpResponse → Except Exception α) (method : HttpMethod)
    (path : ResourcePath) (body : Json) (state after : σ) (value : α)
    (answered : readResponse read (client.send method path body state) = (.ok value, after)) :
    body.Dumps ∧ readResponse read
      (client.http.execute (client.request method path (some body)) state) =
        (.ok value, after) := by
  rcases client.read_sent read method path body state with ⟨error, -, failed⟩ | ⟨dumps, sent⟩
  · rw [failed] at answered
    cases answered
  · exact ⟨dumps, sent ▸ answered⟩

/-- A body that was answered was sent. -/
theorem send_ok (method : HttpMethod) (path : ResourcePath) (body : Json) (state after : σ)
    (response : HttpResponse)
    (answered : client.send method path body state = (.ok response, after)) : body.Dumps ∧
      client.http.execute (client.request method path (some body)) state =
        (.ok response, after) := by
  rcases client.send_cases method path body state with ⟨error, -, failed⟩ | ⟨dumps, sent⟩
  · rw [failed] at answered
    cases answered
  · exact ⟨dumps, sent ▸ answered⟩

end GoogleCalendarClient

/-- What both `Delete` operations accept. -/
def readDeleted (response : HttpResponse) : Except Exception Unit :=
  if response.statusCode ≠ 200 ∧ response.statusCode ≠ 204 then
    .error (.api response.statusCode response.body)
  else .ok ()

namespace EventsResource

variable {σ : Type} (engine : Engine) (client : GoogleCalendarClient σ) (calendarId : String)

/-- `EventsResource::List`. -/
def list (query : EventsQuery) (state : σ) : Except Exception Json × σ :=
  readResponse (parseResponse engine .ok) (client.doGet (.listEvents calendarId query) state)

/-- `EventsResource::Get`. -/
def get (eventId : String) (state : σ) : Except Exception Json × σ :=
  readResponse (parseResponse engine .ok) (client.doGet (.event calendarId eventId) state)

/-- `EventsResource::Insert`. -/
def insert (event : Json) (state : σ) : Except Exception Json × σ :=
  readResponse (parseResponse engine .ok) (client.doPost (.events calendarId) event state)

/-- `EventsResource::Update`. -/
def update (eventId : String) (event : Json) (state : σ) : Except Exception Json × σ :=
  readResponse (parseResponse engine .ok) (client.doPut (.event calendarId eventId) event state)

/-- `EventsResource::Delete`. -/
def delete (eventId : String) (state : σ) : Except Exception Unit × σ :=
  readResponse readDeleted (client.doDelete (.event calendarId eventId) state)

end EventsResource

/-- One calendar of a calendar list. -/
structure CalendarListEntry where
  id : String := ""
  summary : String := ""
  description : String := ""
  timeZone : String := ""
  primary : Bool := false
  deriving DecidableEq, Repr

/-- `from_json` of `CalendarListEntry`, with the default of each member that is missing. -/
def CalendarListEntry.fromJson (json : Json) : Except JsonError CalendarListEntry := do
  let id ← json.valueOr "id" "" Json.getString
  let summary ← json.valueOr "summary" "" Json.getString
  let description ← json.valueOr "description" "" Json.getString
  let timeZone ← json.valueOr "timeZone" "" Json.getString
  let primary ← json.valueOr "primary" false Json.getBool
  pure ⟨id, summary, description, timeZone, primary⟩

/-- `CalendarListResponse`: a page of the calendar list. -/
structure CalendarListResponse where
  items : List CalendarListEntry := []
  nextPageToken : String := ""
  deriving DecidableEq, Repr

/-- `from_json` of `CalendarListResponse`. -/
def CalendarListResponse.fromJson (json : Json) : Except JsonError CalendarListResponse := do
  let items ← json.valueOr "items" [] (fun items =>
    match items with
    | .array elements => elements.mapM CalendarListEntry.fromJson
    | other => .error ⟨302, "type must be array, but is " ++ other.typeName⟩)
  let nextPageToken ← json.valueOr "nextPageToken" "" Json.getString
  pure ⟨items, nextPageToken⟩

namespace CalendarListResource

variable {σ : Type} (engine : Engine) (client : GoogleCalendarClient σ)

/-- `CalendarListResource::List`. -/
def list (pageToken : String) (state : σ) : Except Exception CalendarListResponse × σ :=
  readResponse (parseResponse engine CalendarListResponse.fromJson)
    (client.doGet (.calendarList pageToken) state)

end CalendarListResource

namespace CalendarsResource

variable {σ : Type} (engine : Engine) (client : GoogleCalendarClient σ)

/-- Create a secondary calendar with the given summary. -/
def insert (summary : String) (state : σ) : Except Exception CalendarListEntry × σ :=
  readResponse (parseResponse engine CalendarListEntry.fromJson)
    (client.doPost .calendars (.object [("summary", .string summary)]) state)

/-- Permanently delete a secondary calendar. -/
def delete (calendarId : String) (state : σ) : Except Exception Unit × σ :=
  readResponse readDeleted (client.doDelete (.calendar calendarId) state)

end CalendarsResource

end GoogleCalendar
