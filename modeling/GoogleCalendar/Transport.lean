import GoogleCalendar.Engine
import GoogleCalendar.Library.BoundedRetry
import GoogleCalendar.Library.PercentText

/-!
# Requests, responses and the retrying client

Every remote operation goes through one function, `Execute`, from a request to a
response or a thrown transport error. Whatever stands behind it (the network, the
service, a clock) is a state of arbitrary type that each call transforms; a
result about all servers quantifies over that type and over the function.

A request keeps the pieces its URL is put together from, and `url` is the text
the source sends. Its body is the JSON document whose dump is sent.
-/

namespace GoogleCalendar

open Library

/-- One byte in a URL: itself when unreserved, else percent-encoded. -/
def urlEncodeByte (char : Char) : List Char :=
  if char.isAlphanum ∨ char = '-' ∨ char = '_' ∨ char = '.' ∨ char = '~' then [char]
  else ['%', PercentText.upperHex (char.toNat / 16 % 16), PercentText.upperHex (char.toNat % 16)]

/-- `UrlEncode`. -/
def urlEncode (value : String) : String := String.ofList (value.toList.flatMap urlEncodeByte)

/-- The parameters added so far, in order. -/
structure QueryBuilder where
  params : List (String × String) := []
  deriving DecidableEq, Repr

namespace QueryBuilder

/-- `QueryBuilder::Add`. -/
def add (builder : QueryBuilder) (key value : String) : QueryBuilder :=
  ⟨builder.params ++ [(key, value)]⟩

/-- Nothing for no parameter, else `?k1=v1&k2=v2` with both sides encoded. -/
def build (builder : QueryBuilder) : String :=
  match builder.params with
  | [] => ""
  | params => "?" ++ String.intercalate "&"
      (params.map (fun param => urlEncode param.1 ++ "=" ++ urlEncode param.2))

end QueryBuilder

/-- The query of a list request: a built query and the page token appended to it. -/
structure EventsQuery where
  base : QueryBuilder
  pageToken : String
  deriving DecidableEq, Repr

/-- The text of the query, with the page token last. -/
def EventsQuery.text (query : EventsQuery) : String :=
  query.base.build ++
    (if query.pageToken = "" then "" else "&pageToken=" ++ urlEncode query.pageToken)

/-- `HttpMethod`. -/
inductive HttpMethod where
  | get
  | post
  | put
  | del
  deriving DecidableEq, Repr

/-- The resources the client addresses. -/
inductive ResourcePath where
  | calendarList (pageToken : String)
  | calendars
  | calendar (calendarId : String)
  | listEvents (calendarId : String) (query : EventsQuery)
  | events (calendarId : String)
  | event (calendarId eventId : String)
  deriving DecidableEq, Repr

/-- The text of a path, its ids escaped. -/
def ResourcePath.text : ResourcePath → String
  | calendarList pageToken => "/users/me/calendarList" ++
      (if pageToken = "" then "" else "?pageToken=" ++ urlEncode pageToken)
  | calendars => "/calendars"
  | calendar calendarId => "/calendars/" ++ urlEncode calendarId
  | listEvents calendarId query => "/calendars/" ++ urlEncode calendarId ++ "/events" ++ query.text
  | events calendarId => "/calendars/" ++ urlEncode calendarId ++ "/events"
  | event calendarId eventId =>
      "/calendars/" ++ urlEncode calendarId ++ "/events/" ++ urlEncode eventId

/-- Header names and values. -/
abbrev HttpHeaders := List (String × String)

/-- `HttpRequest`. -/
structure HttpRequest where
  method : HttpMethod
  baseUrl : String
  path : ResourcePath
  headers : HttpHeaders
  body : Option Json

/-- The URL that the request is sent to. -/
def HttpRequest.url (request : HttpRequest) : String := request.baseUrl ++ request.path.text

/-- `HttpResponse`. -/
structure HttpResponse where
  statusCode : Int
  body : String
  deriving DecidableEq, Repr

/-- A client is what `Execute` does to the state behind it. -/
structure IHttpClient (σ : Type) where
  execute : HttpRequest → σ → Except Exception HttpResponse × σ

/-- The client of the tests: a queue of canned responses, whatever is asked. -/
def mockHttpClient : IHttpClient (List HttpResponse) where
  execute _ responses :=
    match responses with
    | response :: rest => (.ok response, rest)
    | [] => (.error (.ioError "MockHttpClient: No more responses queued"), [])

/-- `find(needle) != npos`. -/
def containsText (needle : List Char) : List Char → Bool
  | [] => needle.isEmpty
  | char :: rest => needle.isPrefixOf (char :: rest) || containsText needle rest

/-- `IsRetryable`. -/
def isRetryable (response : HttpResponse) : Bool :=
  response.statusCode = 429 ||
    (500 ≤ response.statusCode && response.statusCode ≤ 599) ||
    (response.statusCode = 403 &&
      (containsText "rateLimitExceeded".toList response.body.toList ||
        containsText "userRateLimitExceeded".toList response.body.toList))

/-- `RetryConfig`. -/
structure RetryConfig where
  maxAttempts : Nat := 5
  baseDelayMs : Nat := 1000
  zeroSleep : Bool := false
  deriving DecidableEq, Repr

/-- The retry decorator. `sleep bound` is what sleeping for a random delay of at
most `bound` milliseconds does to the state behind the inner client. -/
structure RetryingHttpClient (σ : Type) where
  inner : IHttpClient σ
  config : RetryConfig
  sleep : Nat → σ → σ

namespace RetryingHttpClient

variable {σ : Type}

/-- `SleepBackoff`. -/
def sleepBackoff (client : RetryingHttpClient σ) (attempt : Nat) (state : σ) : σ :=
  if client.config.zeroSleep then state
  else client.sleep (client.config.baseDelayMs * 2 ^ attempt) state

/-- Try up to `maxAttempts` times. The response of a loop that makes no attempt
is the one declared before it, which holds nothing. -/
def execute (client : RetryingHttpClient σ) (request : HttpRequest) (state : σ) :
    Except Exception HttpResponse × σ :=
  BoundedRetry.loop (client.inner.execute request) isRetryable client.sleepBackoff ⟨0, ""⟩
    client.config.maxAttempts 0 state

/-- The attempts that `execute` makes for a request. -/
def attempts (client : RetryingHttpClient σ) (request : HttpRequest) (state : σ) :
    List (BoundedRetry.Attempt σ Exception HttpResponse) :=
  BoundedRetry.attempts (client.inner.execute request) isRetryable client.sleepBackoff
    client.config.maxAttempts 0 state

/-- It is an `IHttpClient`. -/
def toHttpClient (client : RetryingHttpClient σ) : IHttpClient σ := ⟨client.execute⟩

/-- Backing off keeps what sleeping keeps. -/
theorem backoff_keeps (client : RetryingHttpClient σ) (keeps : σ → Prop)
    (slept : ∀ bound state, keeps state → keeps (client.sleep bound state))
    (attempt : Nat) (state : σ) (start : keeps state) :
    keeps (client.sleepBackoff attempt state) := by
  simp only [sleepBackoff]
  split
  · exact start
  · exact slept _ state start

/-- The response and the state that `execute` returns are those of its last
attempt, made in a state with every property that attempts and sleeping keep. -/
theorem execute_is_last (client : RetryingHttpClient σ) (request : HttpRequest)
    (keeps : σ → Prop)
    (acted : ∀ state, keeps state → keeps (client.inner.execute request state).2)
    (slept : ∀ bound state, keeps state → keeps (client.sleep bound state))
    (allowed : 0 < client.config.maxAttempts) (state : σ) (start : keeps state) :
    ∃ before, keeps before ∧
      client.inner.execute request before = client.execute request state :=
  BoundedRetry.loop_is_last (client.inner.execute request) isRetryable client.sleepBackoff
    ⟨0, ""⟩ keeps acted (client.backoff_keeps keeps slept) client.config.maxAttempts 0 state
    allowed start

/-- A response with a status is that of an attempt, made in a state with every property that
attempts and sleeping keep. -/
theorem answered_is_last (client : RetryingHttpClient σ) (request : HttpRequest)
    (keeps : σ → Prop)
    (acted : ∀ state, keeps state → keeps (client.inner.execute request state).2)
    (slept : ∀ bound state, keeps state → keeps (client.sleep bound state))
    (state after : σ) (response : HttpResponse) (start : keeps state)
    (executed : client.execute request state = (.ok response, after))
    (answered : response.statusCode ≠ 0) :
    ∃ before, keeps before ∧ client.inner.execute request before = (.ok response, after) := by
  have allowed : 0 < client.config.maxAttempts := by
    by_contra none
    have unset : client.execute request state = (.ok ⟨0, ""⟩, state) := by
      simp [execute, Nat.eq_zero_of_not_pos none, BoundedRetry.loop]
    obtain ⟨same, -⟩ := Prod.mk.inj (executed.symm.trans unset)
    rw [Except.ok.inj same] at answered
    exact answered rfl
  obtain ⟨before, kept, last⟩ := client.execute_is_last request keeps acted slept allowed state
    start
  exact ⟨before, kept, last.trans executed⟩

/-- A request leaves what attempts and sleeping keep. -/
theorem execute_keeps (client : RetryingHttpClient σ) (request : HttpRequest) (keeps : σ → Prop)
    (acted : ∀ state, keeps state → keeps (client.inner.execute request state).2)
    (slept : ∀ bound state, keeps state → keeps (client.sleep bound state))
    (state : σ) (start : keeps state) : keeps (client.execute request state).2 := by
  rcases Nat.eq_zero_or_pos client.config.maxAttempts with none | allowed
  · have unset : client.execute request state = (.ok ⟨0, ""⟩, state) := by
      simp [execute, none, BoundedRetry.loop]
    rw [unset]
    exact start
  · obtain ⟨before, kept, last⟩ :=
      client.execute_is_last request keeps acted slept allowed state start
    rw [← last]
    exact acted before kept

end RetryingHttpClient

end GoogleCalendar
