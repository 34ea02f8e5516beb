import GoogleCalendar.ServiceAccountAuth

/-!
# The client of a transaction

A transaction builds its client when it is first asked for, from the secret of its
catalog, and then keeps it. Building the client asks the provider for the
authorization header, which every request of the client carries from then on.
-/

namespace GoogleCalendar

variable {σ : Type}

/-- `CalendarTransaction`: the client, once it was asked for. -/
structure CalendarTransaction (σ : Type) where
  auth : Option AuthProvider := none
  client : Option (GoogleCalendarClient σ) := none

namespace CalendarTransaction

variable (engine : Engine) (library : TokenLibrary) (http : TransactionHttp σ) (version : String)
  (secret : Except Exception (Option KeyValueSecret))

/-- Build the client with the provider's header. The provider is kept even when it
throws. -/
def buildClient (provider : AuthProvider) (state : σ) :
    Except Exception (GoogleCalendarClient σ) × CalendarTransaction σ × σ :=
  match provider.getAuthorizationHeader engine library http state with
  | (.error error, asked, after) => (.error error, ⟨some asked, none⟩, after)
  | (.ok authorization, asked, after) =>
    let client : GoogleCalendarClient σ :=
      { http := http.retrying.toHttpClient, headers := buildHeaders authorization version }
    (.ok client, ⟨some asked, some client⟩, after)

/-- The client, built on the first call. What the lookup of the secret finds is given. -/
def getClient (transaction : CalendarTransaction σ) (state : σ) :
    Except Exception (GoogleCalendarClient σ) × CalendarTransaction σ × σ :=
  match transaction.client with
  | some client => (.ok client, transaction, state)
  | none =>
    match secret with
    | .error error => (.error error, transaction, state)
    | .ok none => (.error (.invalidInput
        ("No google_calendar secret found. Create one with CREATE SECRET (TYPE google_calendar, " ++
          "...) or pass SECRET <name> to ATTACH.")), transaction, state)
    | .ok (some kv) =>
      match buildProvider kv with
      | .error error => (.error error, transaction, state)
      | .ok provider => buildClient engine library http version provider state

end CalendarTransaction

/-- A request that a statement makes through its client. -/
inductive ClientCall where
  | list (calendarId : String) (query : EventsQuery)
  | get (calendarId eventId : String)
  | insert (calendarId : String) (event : Json)
  | update (calendarId eventId : String) (event : Json)
  | delete (calendarId eventId : String)
  | listCalendars (pageToken : String)
  | insertCalendar (summary : String)
  | deleteCalendar (calendarId : String)

namespace ClientCall

/-- What a call leaves behind the client. -/
def perform (engine : Engine) (client : GoogleCalendarClient σ) (state : σ) : ClientCall → σ
  | list calendarId query => (EventsResource.list engine client calendarId query state).2
  | get calendarId eventId => (EventsResource.get engine client calendarId eventId state).2
  | insert calendarId event => (EventsResource.insert engine client calendarId event state).2
  | update calendarId eventId event =>
      (EventsResource.update engine client calendarId eventId event state).2
  | delete calendarId eventId => (EventsResource.delete client calendarId eventId state).2
  | listCalendars pageToken => (CalendarListResource.list engine client pageToken state).2
  | insertCalendar summary => (CalendarsResource.insert engine client summary state).2
  | deleteCalendar calendarId => (CalendarsResource.delete client calendarId state).2

/-- A body is sent in one execution of a request, unless it cannot be serialised. -/
theorem sent_executes (client : GoogleCalendarClient σ) (method : HttpMethod) (path : ResourcePath)
    (body : Json) (state : σ) : (client.send method path body state).2 = state ∨
      ∃ request, request.headers = client.headers ∧
        (client.send method path body state).2 = (client.http.execute request state).2 := by
  rcases client.send_cases method path body state with ⟨error, -, failed⟩ | ⟨-, sent⟩
  · exact .inl (congrArg Prod.snd failed)
  · exact .inr ⟨client.request method path (some body), rfl, congrArg Prod.snd sent⟩

/-- Every call is one execution of a request with the client's headers, or sends nothing
because its body cannot be serialised. -/
theorem perform_executes (engine : Engine) (client : GoogleCalendarClient σ) (state : σ)
    (call : ClientCall) : call.perform engine client state = state ∨
      ∃ request, request.headers = client.headers ∧
        call.perform engine client state = (client.http.execute request state).2 := by
  cases call with
  | list calendarId query => exact .inr ⟨client.request .get _ none, rfl, rfl⟩
  | get calendarId eventId => exact .inr ⟨client.request .get _ none, rfl, rfl⟩
  | insert calendarId event => exact sent_executes client .post _ event state
  | update calendarId eventId event => exact sent_executes client .put _ event state
  | delete calendarId eventId => exact .inr ⟨client.request .del _ none, rfl, rfl⟩
  | listCalendars pageToken => exact .inr ⟨client.request .get _ none, rfl, rfl⟩
  | insertCalendar summary => exact sent_executes client .post _ _ state
  | deleteCalendar calendarId => exact .inr ⟨client.request .del _ none, rfl, rfl⟩

end ClientCall

end GoogleCalendar
