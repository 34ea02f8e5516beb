import GoogleCalendar.CalendarTransaction
import GoogleCalendar.Library.Traces

/-!
# How long a transaction uses its token

The provider of a service account knows when its token is to be replaced, but it
is asked once, when the client is built. The header stays in the client, and every
later request carries the first token, however late it is sent. So no request is
late just when the whole transaction ends within the time of that one token.

The record of a transaction has each exchange with the time it was answered, and
each attempt of a request with the time it was sent.
-/

namespace GoogleCalendar.BakedToken

open Library ServiceAccountAuth

variable {σ : Type}

/-- What goes over the wire, with its time: an answer to a token exchange, or a request. -/
inductive Wire where
  | exchange (answered : Int) (answer : Except Exception HttpResponse)
  | request (sent : Int) (request : HttpRequest)

/-- A client that keeps a record beside the state of another. -/
def recorded (http : TransactionHttp σ) : TransactionHttp (σ × List Wire) where
  retrying := {
    inner := {
      execute := fun request state =>
        let outcome := http.retrying.inner.execute request state.1
        (outcome.1, outcome.2, state.2 ++ [.request (http.now state.1) request]) }
    config := http.retrying.config
    sleep := fun bound state => (http.retrying.sleep bound state.1, state.2) }
  post headers body state :=
    let outcome := http.post headers body state.1
    (outcome.1, outcome.2, state.2 ++ [.exchange (http.now outcome.2) outcome.1])
  now state := http.now state.1

/-- What a transaction does next: a call, or nothing while the state behind its client
goes on to any other. -/
inductive Action (σ : Type) where
  | call (call : ClientCall)
  | elapse (state : σ)

variable (engine : Engine) (library : TokenLibrary) (http : TransactionHttp σ) (version : String)
  (kv : KeyValueSecret)

/-- A transaction with its record. -/
structure Moment (σ : Type) where
  transaction : CalendarTransaction (σ × List Wire) := {}
  state : σ
  wire : List Wire := []

/-- A call that gets no client sends nothing. -/
def act (moment : Moment σ) : Action σ → Moment σ
  | .elapse state => ⟨moment.transaction, state, moment.wire⟩
  | .call call =>
    match moment.transaction.getClient engine library (recorded http) version (.ok (some kv))
        (moment.state, moment.wire) with
    | (.error _, transaction, after) => ⟨transaction, after.1, after.2⟩
    | (.ok client, transaction, after) =>
      let done := call.perform engine client after
      ⟨transaction, done.1, done.2⟩

/-- The actions of a transaction in turn. -/
def run (moment : Moment σ) (actions : List (Action σ)) : Moment σ :=
  actions.foldl (act engine library http version kv) moment

/-- Whether an answer gives a token that is valid for some seconds. -/
def Grants (response : HttpResponse) (token : String) (expiresIn : Int) : Prop :=
  ∃ json, readAccessToken engine response = .ok (token, json) ∧
    readExpiresIn library json = .ok expiresIn

/-- Whether a record has an exchange with the token and the time recorded for it. -/
def Granted (wire : List Wire) (token : String) (expirationTime : Int) : Prop :=
  ∃ answered response expiresIn, .exchange answered (.ok response) ∈ wire ∧
    Grants engine library response token expiresIn ∧ expirationTime = answered + expiresIn - 60

/-- Whether every request carries a token that was to be used at its time. -/
def NeverExpired (wire : List Wire) : Prop :=
  ∀ sent request, .request sent request ∈ wire → ∃ token expirationTime,
    Granted engine library wire token expirationTime ∧
    request.headers.lookup "Authorization" = some ("Bearer " ++ token) ∧ sent < expirationTime

/-- Whether every request is sent before the time of every token granted. -/
def WithinToken (wire : List Wire) : Prop :=
  ∀ sent request token expirationTime, .request sent request ∈ wire →
    Granted engine library wire token expirationTime → sent < expirationTime

/-- The provider keeps the token and the time of an answer that grants one, and throws
on any other. -/
theorem keep_token_cases (auth : ServiceAccountAuth) (response : HttpResponse) (now : Int) :
    (∃ error, (auth.keepToken library engine response now).1 = .error error ∧
      ∀ token expiresIn, ¬ Grants engine library response token expiresIn) ∨
    ∃ token expiresIn, Grants engine library response token expiresIn ∧
      auth.keepToken library engine response now =
        (.ok (), ⟨auth.email, auth.privateKey, token, now + expiresIn - 60⟩) := by
  simp only [keepToken]
  cases read : readAccessToken engine response with
  | error error =>
    refine Or.inl ⟨error, rfl, ?_⟩
    rintro token expiresIn ⟨json, same, -⟩
    simp [read] at same
  | ok found =>
    obtain ⟨token, json⟩ := found
    cases valid : readExpiresIn library json with
    | error error =>
      refine Or.inl ⟨.json error, by simp [valid], ?_⟩
      rintro other expiresIn ⟨document, same, seconds⟩
      obtain ⟨rfl, rfl⟩ := Prod.mk.inj (Except.ok.inj (read.symm.trans same))
      simp [valid] at seconds
    | ok expiresIn =>
      exact Or.inr ⟨token, expiresIn, ⟨json, read, valid⟩, by simp [valid]⟩

/-- An answer grants one token for one time. -/
theorem grants_unique (response : HttpResponse) (token other : String) (expiresIn seconds : Int)
    (first : Grants engine library response token expiresIn)
    (second : Grants engine library response other seconds) :
    other = token ∧ seconds = expiresIn := by
  obtain ⟨json, read, valid⟩ := first
  obtain ⟨document, reread, revalid⟩ := second
  obtain ⟨rfl, rfl⟩ := Prod.mk.inj (Except.ok.inj (read.symm.trans reread))
  exact ⟨rfl, Except.ok.inj (revalid.symm.trans valid)⟩

/-- What an exchange adds to the record when it throws. -/
def Barren (before after : List Wire) : Prop :=
  after = before ∨ ∃ answered answer, after = before ++ [.exchange answered answer] ∧
    ∀ response, answer = .ok response →
      ∀ token expiresIn, ¬ Grants engine library response token expiresIn

/-- A POST records its answer with the time after it. -/
theorem post_recorded (headers : HttpHeaders) (body : String) (state : σ × List Wire) :
    ∃ answer after, (recorded http).post headers body state =
      (answer, after, state.2 ++ [.exchange (http.now after) answer]) :=
  ⟨_, _, rfl⟩

/-- An exchange throws, or records an answer and keeps the token that it grants. -/
theorem exchange_cases (auth : ServiceAccountAuth) (state : σ × List Wire) :
    (∃ error kept after,
      auth.exchangeJwtForToken library engine (recorded http) state = (.error error, kept, after) ∧
      Barren engine library state.2 after.2) ∨
    ∃ kept after answered response expiresIn,
      auth.exchangeJwtForToken library engine (recorded http) state = (.ok (), kept, after) ∧
      after.2 = state.2 ++ [.exchange answered (.ok response)] ∧
      Grants engine library response kept.cachedToken expiresIn ∧
      kept.expirationTime = answered + expiresIn - 60 := by
  simp only [exchangeJwtForToken]
  cases auth.createJwt library ((recorded http).now state) with
  | error error => exact Or.inl ⟨error, auth, state, rfl, Or.inl rfl⟩
  | ok jwt =>
    obtain ⟨answer, after, posted⟩ := post_recorded http
      [("Content-Type", "application/x-www-form-urlencoded")]
      ("grant_type=urn:ietf:params:oauth:grant-type:jwt-bearer&assertion=" ++ jwt) state
    simp only [posted]
    cases answer with
    | error error => exact Or.inl ⟨error, auth, _, rfl, Or.inr ⟨_, _, rfl, by simp⟩⟩
    | ok response =>
      rcases keep_token_cases engine library auth response (http.now after) with
        ⟨error, thrown, barren⟩ | ⟨token, expiresIn, grants, kept⟩
      · refine Or.inl ⟨error, _, _, Prod.ext thrown rfl, Or.inr ⟨_, _, rfl, ?_⟩⟩
        intro other same
        obtain rfl := Except.ok.inj same
        exact barren
      · refine Or.inr ⟨⟨auth.email, auth.privateKey, token, http.now after + expiresIn - 60⟩,
          (after, _), _, response, expiresIn, ?_, rfl, grants, rfl⟩
        change ((keepToken library engine auth response (http.now after)).1,
          (keepToken library engine auth response (http.now after)).2, _) = _
        rw [kept]

/-- An execution adds attempts of its request to the record. -/
theorem execute_adds (request : HttpRequest) (state : σ × List Wire) :
    Traces.Adds (fun entry => ∃ sent, entry = .request sent request) state.2
      ((recorded http).retrying.toHttpClient.execute request state).2.2 := by
  have history := BoundedRetry.loop_history ((recorded http).retrying.inner.execute request)
    isRetryable (recorded http).retrying.sleepBackoff ⟨0, ""⟩
    (fun _ current => Traces.Adds (fun entry => ∃ sent, entry = .request sent request) state.2
      current.2)
    (by
      intro _ current grown
      apply Traces.adds_trans _ _ _ _ grown
      exact ⟨[.request (http.now current.1) request], rfl, by simp⟩)
    (by
      intro _ number current grown
      simp only [RetryingHttpClient.sleepBackoff]
      split
      · exact grown
      · exact grown)
    [] http.retrying.config.maxAttempts 0 state (Traces.adds_refl _ _)
  exact history

/-- A transaction before its client is built, with exchanges that granted nothing, or
after it, with the one that did and requests that carry its token. -/
inductive Baked (transaction : CalendarTransaction (σ × List Wire)) (wire : List Wire) : Prop where
  | unbuilt (client : transaction.client = none)
      (silent : ∀ sent request, .request sent request ∉ wire)
      (barren : ∀ token expirationTime, ¬ Granted engine library wire token expirationTime)
  | built (client : GoogleCalendarClient (σ × List Wire)) (auth : ServiceAccountAuth)
      (held : transaction.client = some client)
      (provider : transaction.auth = some (.serviceAccount auth))
      (executes : client.http = (recorded http).retrying.toHttpClient)
      (carries : client.headers.lookup "Authorization" = some ("Bearer " ++ auth.cachedToken))
      (granted : Granted engine library wire auth.cachedToken auth.expirationTime)
      (alone : ∀ token expirationTime, Granted engine library wire token expirationTime →
        expirationTime = auth.expirationTime)
      (same : ∀ sent request, .request sent request ∈ wire → request.headers = client.headers)

/-- A token was granted before an entry, or by it. -/
theorem granted_snoc (wire : List Wire) (answered : Int) (answer : Except Exception HttpResponse)
    (token : String) (expirationTime : Int)
    (granted : Granted engine library (wire ++ [.exchange answered answer]) token expirationTime) :
    Granted engine library wire token expirationTime ∨
      ∃ response expiresIn, answer = .ok response ∧
        Grants engine library response token expiresIn ∧
        expirationTime = answered + expiresIn - 60 := by
  obtain ⟨time, response, expiresIn, member, grants, recordedTime⟩ := granted
  cases List.mem_append.mp member with
  | inl earlier => exact Or.inl ⟨time, response, expiresIn, earlier, grants, recordedTime⟩
  | inr last =>
    obtain ⟨rfl, rfl⟩ := Wire.exchange.inj (List.mem_singleton.mp last)
    exact Or.inr ⟨response, expiresIn, rfl, grants, recordedTime⟩

/-- Requests grant nothing. -/
theorem granted_adds (wire more : List Wire) (request : HttpRequest) (token : String)
    (expirationTime : Int) (requests : ∀ entry ∈ more, ∃ sent, entry = .request sent request) :
    Granted engine library (wire ++ more) token expirationTime ↔
      Granted engine library wire token expirationTime := by
  constructor
  · rintro ⟨time, response, expiresIn, member, rest⟩
    cases List.mem_append.mp member with
    | inl earlier => exact ⟨time, response, expiresIn, earlier, rest⟩
    | inr later =>
      obtain ⟨sent, same⟩ := requests _ later
      simp at same
  · rintro ⟨time, response, expiresIn, member, rest⟩
    exact ⟨time, response, expiresIn, List.mem_append_left _ member, rest⟩

/-- The authorization is among the headers as it was built. -/
theorem authorization_header (authorization version : String) :
    (buildHeaders authorization version).lookup "Authorization" = some authorization := rfl

/-- Building the client of a service account makes one exchange, and bakes its token
into the client. -/
theorem build_client_baked (email key : String) (state : σ × List Wire)
    (silent : ∀ sent request, .request sent request ∉ state.2)
    (barren : ∀ token expirationTime, ¬ Granted engine library state.2 token expirationTime) :
    ∃ outcome transaction after,
      CalendarTransaction.buildClient engine library (recorded http) version
        (.serviceAccount ⟨email, key, "", 0⟩) state = (outcome, transaction, after) ∧
      Baked engine library http transaction after.2 ∧
      ∀ client, outcome = .ok client → transaction.client = some client := by
  have expired : isExpired ⟨email, key, "", 0⟩ ((recorded http).now state) = true := rfl
  simp only [CalendarTransaction.buildClient, AuthProvider.getAuthorizationHeader,
    getAuthorizationHeader, expired, if_true]
  rcases exchange_cases engine library http ⟨email, key, "", 0⟩ state with
    ⟨error, kept, after, exchanged, adds⟩ |
    ⟨kept, after, answered, response, expiresIn, exchanged, adds, grants, time⟩
  · rw [exchanged]
    refine ⟨_, _, _, rfl, .unbuilt rfl ?_ ?_, by simp⟩
    · intro sent request member
      rcases adds with same | ⟨time, answer, grown, -⟩
      · exact silent sent request (same ▸ member)
      · simp only [grown, List.mem_append, List.mem_singleton, reduceCtorEq, or_false] at member
        exact silent sent request member
    · intro token expirationTime granted
      rcases adds with same | ⟨time, answer, grown, nothing⟩
      · exact barren token expirationTime (same ▸ granted)
      · simp only [grown] at granted
        rcases granted_snoc engine library state.2 time answer token expirationTime granted with
          earlier | ⟨response, expiresIn, answers, grants, -⟩
        · exact barren token expirationTime earlier
        · exact nothing response answers token expiresIn grants
  · rw [exchanged]
    refine ⟨_, _, _, rfl, .built _ kept rfl rfl rfl (authorization_header _ version) ?_ ?_ ?_,
      by simp⟩
    · exact ⟨answered, response, expiresIn, by simp [adds], grants, time⟩
    · intro token expirationTime granted
      simp only [adds] at granted
      rcases granted_snoc engine library state.2 answered (.ok response) token expirationTime
        granted with earlier | ⟨other, seconds, answers, again, recordedTime⟩
      · exact absurd earlier (barren token expirationTime)
      · obtain rfl := Except.ok.inj answers
        obtain ⟨-, rfl⟩ := grants_unique engine library response kept.cachedToken token expiresIn
          seconds grants again
        rw [recordedTime, time]
    · intro sent request member
      simp only [adds, List.mem_append, List.mem_singleton, reduceCtorEq, or_false] at member
      exact absurd member (silent sent request)

/-- The providers of a key_file secret are fresh service accounts. -/
theorem key_file_provider (file : kv.provider = "key_file") :
    (∃ error, buildProvider kv = .error error) ∨
      ∃ email key, buildProvider kv = .ok (.serviceAccount ⟨email, key, "", 0⟩) := by
  simp only [buildProvider, file, if_true]
  cases kv.email with
  | none => exact Or.inl ⟨_, rfl⟩
  | some email =>
    cases kv.secret with
    | none => exact Or.inl ⟨_, rfl⟩
    | some key => exact Or.inr ⟨email, key, rfl⟩

/-- Asking for the client keeps the invariant, and a client that is given is the one
kept. -/
theorem get_client_baked (file : kv.provider = "key_file")
    (transaction : CalendarTransaction (σ × List Wire)) (state : σ × List Wire)
    (baked : Baked engine library http transaction state.2) :
    ∃ outcome next after,
      transaction.getClient engine library (recorded http) version (.ok (some kv)) state =
        (outcome, next, after) ∧
      Baked engine library http next after.2 ∧
      ∀ client, outcome = .ok client → next.client = some client := by
  simp only [CalendarTransaction.getClient]
  cases held : transaction.client with
  | some client =>
    refine ⟨_, _, _, rfl, baked, ?_⟩
    intro given same
    obtain rfl := Except.ok.inj same
    exact held
  | none =>
    rcases key_file_provider kv file with ⟨error, refused⟩ | ⟨email, key, built⟩
    · rw [refused]
      exact ⟨_, _, _, rfl, baked, by simp⟩
    · rw [built]
      cases baked with
      | unbuilt client silent barren =>
        exact build_client_baked engine library http version email key state silent barren
      | built client auth there => simp [held] at there

/-- A call of the client that is kept adds requests with its token. -/
theorem perform_baked (transaction : CalendarTransaction (σ × List Wire))
    (client : GoogleCalendarClient (σ × List Wire)) (call : ClientCall) (state : σ × List Wire)
    (kept : transaction.client = some client)
    (baked : Baked engine library http transaction state.2) :
    Baked engine library http transaction (call.perform engine client state).2 := by
  cases baked with
  | unbuilt none silent barren => simp [kept] at none
  | built other auth held provider executes carries granted alone same =>
    obtain rfl := Option.some.inj (held.symm.trans kept)
    rcases call.perform_executes engine other state with unsent | ⟨request, headers, performed⟩
    · rw [unsent]
      exact .built other auth held provider executes carries granted alone same
    · obtain ⟨more, grown, requests⟩ := execute_adds http request state
      rw [performed, executes, grown]
      refine .built other auth held provider executes carries ?_ ?_ ?_
      · exact (granted_adds engine library state.2 more request _ _ requests).mpr granted
      · intro token expirationTime grantedLater
        exact alone token expirationTime
          ((granted_adds engine library state.2 more request _ _ requests).mp grantedLater)
      · intro sent made member
        cases List.mem_append.mp member with
        | inl earlier => exact same sent made earlier
        | inr later =>
          obtain ⟨time, entry⟩ := requests _ later
          obtain ⟨-, rfl⟩ := Wire.request.inj entry
          exact headers

/-- An action leaves the client with the header that was built. -/
theorem act_baked (file : kv.provider = "key_file") (moment : Moment σ) (action : Action σ)
    (baked : Baked engine library http moment.transaction moment.wire) :
    Baked engine library http (act engine library http version kv moment action).transaction
      (act engine library http version kv moment action).wire := by
  cases action with
  | elapse state => exact baked
  | call call =>
    obtain ⟨outcome, next, after, got, held, kept⟩ := get_client_baked engine library http version
      kv file moment.transaction (moment.state, moment.wire) baked
    simp only [act, got]
    cases outcome with
    | error error => exact held
    | ok client =>
      exact perform_baked engine library http next client call after (kept client rfl) held

/-- So do the actions of a run. -/
theorem run_baked (file : kv.provider = "key_file") (moment : Moment σ) (actions : List (Action σ))
    (baked : Baked engine library http moment.transaction moment.wire) :
    Baked engine library http (run engine library http version kv moment actions).transaction
      (run engine library http version kv moment actions).wire := by
  induction actions generalizing moment with
  | nil => exact baked
  | cons action rest ih =>
    exact ih _ (act_baked engine library http version kv file moment action baked)

/-- A service whose tokens are valid for an hour, with the time as its state. -/
def hourly : TransactionHttp Int where
  retrying := ⟨⟨fun _ now => (.ok ⟨200, "event"⟩, now)⟩, { zeroSleep := true }, fun _ now => now⟩
  post _ _ now := (.ok ⟨200, "token"⟩, now)
  now state := state

/-- A token that is granted for an hour, and an empty event. -/
def hourlyEngine : Engine :=
  .documented [("token", .object
    [("access_token", .string "first"), ("expires_in", .integer 3600)]), ("event", .object [])]

/-- Signing, and a clock, of no interest here. -/
def plainLibrary : TokenLibrary := ⟨fun _ _ => .ok [], fun _ => 0⟩

/-- Two reads of an event, the second one some seconds later. -/
def twoReads (later : Int) : Moment Int :=
  run hourlyEngine plainLibrary hourly "" ⟨"key_file", some "robot", some "key", none⟩
    { state := 0 } [.call (.get "work" "a"), .elapse later, .call (.get "work" "a")]

/-- The read of the event, with the header of the first token. -/
def firstRead : HttpRequest :=
  ⟨.get, "https://www.googleapis.com/calendar/v3", .event "work" "a",
    buildHeaders "Bearer first" "", none⟩

/-- Two reads of a transaction, whenever the later is: one exchange, one header. -/
theorem two_reads_wire (later : Int) :
    (twoReads later).wire =
      [.exchange 0 (.ok ⟨200, "token"⟩), .request 0 firstRead, .request later firstRead] := rfl

/-- Their one token is to be used for an hour less a minute. -/
theorem two_reads_granted (later : Int) (token : String) (expirationTime : Int)
    (granted : Granted hourlyEngine plainLibrary (twoReads later).wire token expirationTime) :
    expirationTime = 3540 := by
  obtain ⟨answered, response, expiresIn, member, grants, time⟩ := granted
  have exchange : answered = 0 ∧ response = ⟨200, "token"⟩ := by
    simpa [two_reads_wire] using member
  obtain ⟨rfl, rfl⟩ := exchange
  have hour : Grants hourlyEngine plainLibrary ⟨200, "token"⟩ "first" 3600 := ⟨_, rfl, rfl⟩
  obtain ⟨-, rfl⟩ := grants_unique _ _ _ _ _ _ _ hour grants
  omega

end GoogleCalendar.BakedToken
