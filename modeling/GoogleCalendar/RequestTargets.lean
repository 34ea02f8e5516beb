import GoogleCalendar.HttpLibClient
import GoogleCalendar.CalendarScan
import GoogleCalendar.Library.PercentText

/-!
# Request targets

The URL of a request names a calendar, an event and the parameters of a query in
encoded pieces. Splitting it and decoding the pieces gives them back, so two
requests to different resources have different URLs, and no id or token can reach
another segment, another parameter or another host.
-/

namespace GoogleCalendar.RequestTargets

open Library PercentText

/-- The characters that stand for themselves in a URL. -/
def unreserved (char : Char) : Bool :=
  char.isAlphanum || char = '-' || char = '_' || char = '.' || char = '~'

/-- A page token is appended to a query that has parameters. -/
def Continues (query : EventsQuery) : Prop := query.base.params ≠ [] ∨ query.pageToken = ""

/-- The parameters of a listing. -/
def queryParams (query : EventsQuery) : List (String × String) :=
  query.base.params ++ (if query.pageToken = "" then [] else [("pageToken", query.pageToken)])

/-- The segments behind the version of the API. -/
def pathSegments : ResourcePath → List String
  | .calendarList _ => ["users", "me", "calendarList"]
  | .calendars => ["calendars"]
  | .calendar calendarId => ["calendars", calendarId]
  | .listEvents calendarId _ => ["calendars", calendarId, "events"]
  | .events calendarId => ["calendars", calendarId, "events"]
  | .event calendarId eventId => ["calendars", calendarId, "events", eventId]

/-- The parameters of a path. -/
def pathParams : ResourcePath → List (String × String)
  | .calendarList pageToken => if pageToken = "" then [] else [("pageToken", pageToken)]
  | .listEvents _ query => queryParams query
  | _ => []

/-- What a request names. The path begins with a slash, so its first segment is empty. -/
def named (path : ResourcePath) : Target where
  segments := (["", "calendar", "v3"] ++ pathSegments path).map String.toList
  params := (pathParams path).map (fun param => (param.1.toList, param.2.toList))

/-- A path that the code writes: a listing of a further page has parameters before its token. -/
def WellFormed : ResourcePath → Prop
  | .listEvents _ query => Continues query
  | _ => True

/-- `UrlEncode` escapes the bytes that are not unreserved. -/
theorem encode_byte : urlEncodeByte = escape unreserved := by
  funext char
  have same : (char.isAlphanum = true ∨ char = '-' ∨ char = '_' ∨ char = '.' ∨ char = '~') ↔
      unreserved char = true := by
    simp only [unreserved, Bool.or_eq_true, decide_eq_true_eq, or_assoc]
  rw [urlEncodeByte, escape]
  exact if_congr same rfl rfl

/-- What is kept is none of the marks of a URL. -/
theorem unreserved_reserves : Reserves unreserved := by
  have dropped : marks.all (fun mark => !unreserved mark) = true := by decide
  intro mark known
  simpa using List.all_eq_true.mp dropped mark known

/-- `UrlEncode` escapes a text character by character. -/
theorem encoded (value : String) :
    (urlEncode value).toList = value.toList.flatMap (escape unreserved) := by
  rw [urlEncode, String.toList_ofList, encode_byte]

/-- The names that the code writes without encoding them need none. -/
theorem literals_kept : ∀ name ∈ ["calendar", "v3", "users", "me", "calendarList", "calendars",
    "events", "pageToken"], urlEncode name = name := by
  decide +kernel

/-- The parameters as the pieces of a target. -/
def asBytes (params : List (String × String)) : List (List Char × List Char) :=
  params.map (fun param => (param.1.toList, param.2.toList))

/-- The query builder writes its parameters. -/
theorem build_written (builder : QueryBuilder) :
    builder.build.toList = writeQuery unreserved (asBytes builder.params) := by
  obtain ⟨params⟩ := builder
  have pieces : (params.map (fun param => urlEncode param.1 ++ "=" ++ urlEncode param.2)).map
      String.toList = (asBytes params).map (writeParam unreserved) := by
    simp [asBytes, encoded, writeParam]
  cases params with
  | nil => rfl
  | cons first rest =>
    rw [QueryBuilder.build, String.toList_append, String.toList_intercalate, pieces]
    rfl

/-- Appending a page token to a query with parameters adds a parameter to it. -/
theorem token_appended (base : QueryBuilder) (pageToken : String) (some : base.params ≠ []) :
    base.build ++ ("&pageToken=" ++ urlEncode pageToken) =
      (base.add "pageToken" pageToken).build := by
  obtain ⟨params⟩ := base
  cases params with
  | nil => exact absurd rfl some
  | cons first rest =>
    have joined := String.intercalate_append_of_ne_nil (s := "&")
      (l := (first :: rest).map (fun param => urlEncode param.1 ++ "=" ++ urlEncode param.2))
      (m := ["pageToken" ++ "=" ++ urlEncode pageToken]) (by simp) (by simp)
    rw [String.intercalate_singleton] at joined
    have split : "&pageToken=" = "&" ++ "pageToken" ++ "=" := by decide
    simp only [QueryBuilder.build, QueryBuilder.add, List.cons_append]
    rw [← List.cons_append, List.map_append, List.map_singleton,
      literals_kept "pageToken" (by simp), joined, split]
    simp only [String.append_assoc]

/-- The text of a listing is its query, as written. -/
theorem query_written (query : EventsQuery) (continues : Continues query) :
    query.text.toList = writeQuery unreserved (asBytes (queryParams query)) := by
  by_cases none : query.pageToken = ""
  · simp only [EventsQuery.text, queryParams, none, if_true, String.append_empty, List.append_nil]
    exact build_written query.base
  · have some := continues.resolve_right none
    simp only [EventsQuery.text, queryParams, none, if_false]
    rw [token_appended query.base query.pageToken some, build_written, QueryBuilder.add]

/-- The token of a calendar list is the only parameter of its query. -/
theorem list_token_written (pageToken : String) :
    (if pageToken = "" then "" else "?pageToken=" ++ urlEncode pageToken).toList =
      writeQuery unreserved
        (asBytes (if pageToken = "" then [] else [("pageToken", pageToken)])) := by
  split
  · rfl
  · have built := build_written (({} : QueryBuilder).add "pageToken" pageToken)
    have text : (({} : QueryBuilder).add "pageToken" pageToken).build =
        "?pageToken=" ++ urlEncode pageToken := by
      have split : "?pageToken=" = "?" ++ ("pageToken" ++ "=") := by decide
      simp only [QueryBuilder.build, QueryBuilder.add, List.nil_append, List.map_cons, List.map_nil,
        String.intercalate_singleton, literals_kept "pageToken" (by simp), split,
        String.append_assoc]
    rw [← text, built]
    rfl

/-- The segments of a path as the code writes them. -/
def rooted (segments : List String) : String :=
  String.join (segments.map (fun segment => "/" ++ urlEncode segment))

/-- A rooted path is its segments, each escaped behind a slash. -/
theorem rooted_written (segments : List String) :
    (rooted segments).toList = (segments.map String.toList).flatMap
      (fun segment => '/' :: segment.flatMap (escape unreserved)) := by
  simp only [rooted]
  induction segments with
  | nil => simp
  | cons segment rest ih =>
    rw [List.map_cons, String.join_cons, String.toList_append, ih, List.map_cons,
      List.flatMap_cons, String.toList_append, encoded]
    rfl

/-- What follows the segments. -/
def queryText : ResourcePath → String
  | .calendarList pageToken => if pageToken = "" then "" else "?pageToken=" ++ urlEncode pageToken
  | .listEvents _ query => query.text
  | _ => ""

/-- The literals of the paths, by their segments. -/
theorem literals_split : "/users/me/calendarList" =
      "/" ++ "users" ++ ("/" ++ "me" ++ ("/" ++ "calendarList")) ∧
    "/calendars/" = "/" ++ "calendars" ++ "/" ∧ "/calendars" = "/" ++ "calendars" ∧
    "/events/" = "/" ++ "events" ++ "/" ∧ "/events" = "/" ++ "events" ∧
    "/calendar/v3" = "/" ++ "calendar" ++ ("/" ++ "v3") := by
  decide +kernel

/-- The text of a path is its segments and its query. -/
theorem text_rooted (path : ResourcePath) :
    "/calendar/v3" ++ path.text =
      rooted (["calendar", "v3"] ++ pathSegments path) ++ queryText path := by
  obtain ⟨users, idSlash, calendars, eventSlash, events, version⟩ := literals_split
  have keep := literals_kept
  simp only [List.mem_cons, List.not_mem_nil, or_false, forall_eq_or_imp, forall_eq] at keep
  obtain ⟨one, two, three, four, five, six, seven, -⟩ := keep
  rw [version]
  -- Only the literals are rewritten: the parts between them are the same on both sides.
  cases path <;>
    (unfold ResourcePath.text queryText pathSegments
     simp only [rooted, List.cons_append, List.nil_append, List.map_cons, List.map_nil,
      String.join_cons, String.join_nil, String.append_assoc, String.append_empty, users, idSlash,
      calendars, eventSlash, events, one, two, three, four, five, six, seven,
      -String.reduceAppend])

/-- The query of a path is its parameters, as written. -/
theorem queryText_written (path : ResourcePath) (formed : WellFormed path) :
    (queryText path).toList = writeQuery unreserved (asBytes (pathParams path)) := by
  cases path with
  | calendarList pageToken => exact list_token_written pageToken
  | listEvents calendarId query => exact query_written query formed
  | calendars | calendar | events | event => rfl

/-- The path of a request writes what the request names. -/
theorem path_written (path : ResourcePath) (formed : WellFormed path) :
    ("/calendar/v3" ++ path.text).toList =
      writePath unreserved (named path).segments ++ writeQuery unreserved (named path).params := by
  have segments : (named path).segments =
      [] :: (["calendar", "v3"] ++ pathSegments path).map String.toList := rfl
  have params : (named path).params = asBytes (pathParams path) := rfl
  rw [text_rooted, String.toList_append, rooted_written, queryText_written path formed, segments,
    path_rooted unreserved _ (by simp), params]

/-- The origin of the API. -/
def origin : String := "https://www.googleapis.com"

/-- The URL of a request is the text of its path behind the origin. -/
theorem url_written {σ : Type} (http : IHttpClient σ) (headers : HttpHeaders)
    (method : HttpMethod) (path : ResourcePath) (body : Option Json) :
    (GoogleCalendarClient.request { http := http, headers := headers } method path body).url =
      origin ++ ("/calendar/v3" ++ path.text) := by
  have base : "https://www.googleapis.com/calendar/v3" = origin ++ "/calendar/v3" := by
    decide +kernel
  rw [GoogleCalendarClient.request, HttpRequest.url, base, String.append_assoc]

/-- The URL of a request is split at the origin of the API. -/
theorem url_parsed (path : ResourcePath) :
    HttpLibClient.parseUrl (origin ++ ("/calendar/v3" ++ path.text)) =
      .ok (origin, "/calendar/v3" ++ path.text) := by
  have parts : origin = String.ofList ("https".toList ++ "://".toList ++
      "www.googleapis.com".toList) := by
    decide +kernel
  have rootedPath : "/calendar/v3" ++ path.text =
      String.ofList ('/' :: ("calendar/v3".toList ++ path.text.toList)) := by
    apply String.toList_injective
    simp
  rw [rootedPath, parts, ← String.ofList_append]
  exact HttpLibClient.parse_origin _ _ _ (by decide) (by decide)

/-- What a request names determines its ids and its parameters. -/
theorem named_injective (path other : ResourcePath) (same : named path = named other) :
    pathSegments path = pathSegments other ∧ pathParams path = pathParams other := by
  have segments := congrArg Target.segments same
  have params := congrArg Target.params same
  have distinct : Function.Injective (List.map String.toList) :=
    List.map_injective_iff.mpr (fun _ _ texts => String.toList_injective texts)
  constructor
  · exact List.append_cancel_left (distinct segments)
  · refine List.map_injective_iff.mpr ?_ params
    rintro ⟨key, value⟩ ⟨otherKey, otherValue⟩ equal
    obtain ⟨keys, values⟩ := Prod.mk.inj equal
    exact Prod.ext (String.toList_injective keys) (String.toList_injective values)

/-- A scan appends the page token to a query with parameters. -/
theorem scan_continues (timeMin timeMax : Option String) (pageToken : String) :
    Continues ⟨CalendarScan.baseQuery timeMin timeMax, pageToken⟩ := by
  refine Or.inl ?_
  cases timeMin <;> cases timeMax <;> simp [CalendarScan.baseQuery, QueryBuilder.add]

/-- The path of a request is read as what the request names. -/
theorem text_read (path : ResourcePath) (formed : WellFormed path)
    (bytes : (named path).IsBytes) :
    readTarget ("/calendar/v3" ++ path.text).toList = named path := by
  rw [path_written path formed]
  exact target_read unreserved_reserves (named path) (List.cons_ne_nil _ _) bytes

/-- Every page of a scan is asked for by its token beside the bounds of the scan. -/
theorem page_read (calendarId : String) (timeMin timeMax : Option String) (pageToken : String)
    (bytes : (named (.listEvents calendarId
      ⟨CalendarScan.baseQuery timeMin timeMax, pageToken⟩)).IsBytes) :
    readTarget ("/calendar/v3" ++ (ResourcePath.listEvents calendarId
        ⟨CalendarScan.baseQuery timeMin timeMax, pageToken⟩).text).toList =
      named (.listEvents calendarId ⟨CalendarScan.baseQuery timeMin timeMax, pageToken⟩) :=
  text_read _ (scan_continues timeMin timeMax pageToken) bytes

/-- The target of a request is read back from its URL. The base is the origin of
the API, no fragment begins in the path, and the requests with the same URL name
the same ids and parameters. -/
theorem target_unambiguous {σ : Type} (http : IHttpClient σ) (headers : HttpHeaders)
    (method : HttpMethod) (path : ResourcePath) (body : Option Json) (formed : WellFormed path)
    (bytes : (named path).IsBytes) :
    let client : GoogleCalendarClient σ := { http := http, headers := headers }
    let url := (client.request method path body).url
    ∃ text, HttpLibClient.parseUrl url = .ok (origin, text) ∧ origin ++ text = url ∧
      readTarget text.toList = named path ∧ '#' ∉ text.toList ∧
      ∀ otherMethod other otherBody, WellFormed other → (named other).IsBytes →
        (client.request otherMethod other otherBody).url = url →
        pathSegments other = pathSegments path ∧ pathParams other = pathParams path := by
  simp only [url_written]
  refine ⟨"/calendar/v3" ++ path.text, url_parsed path, rfl,
    text_read path formed bytes, ?_, ?_⟩
  · rw [path_written path formed, List.mem_append, not_or]
    exact ⟨path_free unreserved_reserves '#' (by decide) (by decide) _,
      query_free unreserved_reserves '#' (by decide) (by decide) _⟩
  · intro otherMethod other otherBody otherFormed otherBytes sameUrl
    have sameText := (String.append_right_inj origin).mp sameUrl
    refine named_injective other path ?_
    rw [← text_read other otherFormed otherBytes, sameText, text_read path formed bytes]

/-- A page after the first, with marks in the calendar id, a parameter and the token. -/
def markedPage : ResourcePath :=
  .listEvents "a/../b?c#d" ⟨⟨[("q", "x&y=z"), ("q", "")]⟩, "t +%"⟩

/-- A page whose token and ids have marks is read back. -/
theorem marked_page_read :
    WellFormed markedPage ∧ (named markedPage).IsBytes ∧
      ∃ text, HttpLibClient.parseUrl (GoogleCalendarClient.request
          { http := mockHttpClient, headers := [] } .get markedPage none).url =
        .ok (origin, text) ∧ readTarget text.toList = named markedPage := by
  have formed : WellFormed markedPage := Or.inl (by decide)
  have bytes : (named markedPage).IsBytes := by decide +kernel
  obtain ⟨text, parsed, -, back, -⟩ :=
    target_unambiguous mockHttpClient [] .get markedPage none formed bytes
  exact ⟨formed, bytes, text, parsed, back⟩

/-- The network is called with the origin of the API, whatever a request names. -/
theorem execute_sends {σ : Type} (network : HttpLibClient σ) (http : IHttpClient σ)
    (headers : HttpHeaders) (method : HttpMethod) (path : ResourcePath) (body : Option Json)
    (state : σ) :
    let client : GoogleCalendarClient σ := { http := http, headers := headers }
    let request := client.request method path body
    network.execute request state = HttpLibClient.reply
      (network.library.send (network.call request origin ("/calendar/v3" ++ path.text)) state) := by
  simp only [HttpLibClient.execute, url_written, url_parsed]

/-- The client of a connection sends every request to the origin of the API, through
the proxy of the connection's settings. -/
theorem created_client_sends {σ : Type} (library : HttpLib σ) (sleep : Nat → σ → σ)
    (split : List Char → List (List Char)) (secret : Option HttpProxyConfig.HttpSecret)
    (settings : HttpProxyConfig.HttpSettings) (created : RetryingHttpClient σ)
    (made : createHttpClient library sleep split secret settings = .ok created)
    (headers : HttpHeaders) (method : HttpMethod) (path : ResourcePath) (body : Option Json)
    (state : σ) :
    let client : GoogleCalendarClient σ := { http := created.toHttpClient, headers := headers }
    let request := client.request method path body
    ∃ config, HttpProxyConfig.getHttpProxyConfig split secret settings = .ok config ∧
      created.inner.execute request state = HttpLibClient.reply (library.send
        ((HttpLibClient.mk library config).call request origin ("/calendar/v3" ++ path.text))
        state) := by
  cases proxy : HttpProxyConfig.getHttpProxyConfig split secret settings with
  | error error => simp [createHttpClient, proxy, Except.map] at made
  | ok config =>
    simp only [createHttpClient, proxy, Except.map, Except.ok.injEq] at made
    subst made
    exact ⟨config, rfl, execute_sends ⟨library, config⟩ _ headers method path body state⟩

end GoogleCalendar.RequestTargets
