import GoogleCalendar.OAuthFlow
import GoogleCalendar.Library.Traces

/-!
# Which code the OAuth flow sends

A code and a state are checked together but captured apart, so the pair that
passes the checks may never have come in one request: a request with one half
replaces it in a pair whose other half another request brought. Without such a
request the code that is sent came with the state of the flow, whatever the
requests are, in whatever order, and whenever the thread wakes and stops.
-/

namespace GoogleCalendar.OAuthCapture

open Library Library.Traces

variable (session : OAuthSession)

/-- What the handler has captured after some requests. -/
def capturedBy (requests : List CallbackRequest) : Captured :=
  requests.foldl Captured.onRedirect {}

/-- Whether one request carried a code together with the state of the flow. -/
def Carried (requests : List CallbackRequest) (code : String) : Prop :=
  ∃ request ∈ requests, request.code = some code ∧ request.state = some session.state

/-- A request that brings one half of a pair that no request carried as a whole,
when the other half is there. -/
def Joins (earlier : List CallbackRequest) (request : CallbackRequest) : Prop :=
  (∃ code, request.code = some code ∧ code ≠ "" ∧ request.state = none ∧
    (capturedBy earlier).state = session.state ∧ ¬ Carried session earlier code) ∨
  (request.code = none ∧ request.state = some session.state ∧ (capturedBy earlier).code ≠ "" ∧
    ¬ Carried session earlier (capturedBy earlier).code)

/-- The last redirect is captured after the others. -/
theorem captured_snoc (requests : List CallbackRequest) (request : CallbackRequest) :
    capturedBy (requests ++ [request]) = (capturedBy requests).onRedirect request := by
  simp [capturedBy]

/-- A code that was carried stays carried. -/
theorem carried_mono (requests : List CallbackRequest) (request : CallbackRequest) (code : String)
    (carried : Carried session requests code) : Carried session (requests ++ [request]) code := by
  obtain ⟨bearer, member, both⟩ := carried
  exact ⟨bearer, List.mem_append_left _ member, both⟩

/-- A captured pair with the right state was carried by one request, if no request
joined two halves. -/
theorem captured_pair_carried (requests : List CallbackRequest)
    (apart : Lawful (fun earlier request => ¬ Joins session earlier request) requests)
    (right : (capturedBy requests).state = session.state)
    (present : (capturedBy requests).code ≠ "") :
    Carried session requests (capturedBy requests).code := by
  induction requests using List.reverseRecOn with
  | nil => exact absurd rfl present
  | append_singleton earlier request ih =>
    obtain ⟨before, unjoined⟩ := (lawful_snoc_iff _ earlier request).mp apart
    rw [captured_snoc] at right present ⊢
    simp only [Captured.onRedirect] at right present ⊢
    -- Which halves the request brings decides where the other half comes from.
    cases code : request.code with
    | some value =>
      cases state : request.state with
      | some other =>
        simp only [state, Option.getD_some] at right
        exact ⟨request, by simp, by simp [code], by rw [state, right]⟩
      | none =>
        simp only [code, state, Option.getD_some, Option.getD_none] at right present ⊢
        apply carried_mono
        by_contra uncarried
        exact unjoined (Or.inl ⟨value, code, present, state, right, uncarried⟩)
    | none =>
      simp only [code, Option.getD_none] at present ⊢
      apply carried_mono
      cases state : request.state with
      | some other =>
        simp only [state, Option.getD_some] at right
        by_contra uncarried
        exact unjoined (Or.inr ⟨code, by rw [state, right], present, uncarried⟩)
      | none =>
        simp only [state, Option.getD_none] at right
        exact ih before right present

/-- The captured variables are those of the requests handled. -/
def Tracked (flow : OAuthFlow) : Prop := flow.captured = capturedBy flow.requests

/-- Only a request changes what is captured. -/
theorem step_cases (flow next : OAuthFlow) (action : OAuthAction)
    (stepped : flow.step action = some next) :
    (∃ request, next.captured = flow.captured.onRedirect request ∧
      next.requests = flow.requests ++ [request]) ∨
    (next.captured = flow.captured ∧ next.requests = flow.requests) := by
  cases action with
  | serve request =>
    simp only [OAuthFlow.step, Option.ite_none_left_eq_some, Option.some.injEq] at stepped
    obtain ⟨-, rfl⟩ := stepped
    exact Or.inl ⟨request, rfl, rfl⟩
  | wake =>
    simp only [OAuthFlow.step, Option.ite_none_right_eq_some, Option.some.injEq] at stepped
    obtain ⟨-, rfl⟩ := stepped
    exact Or.inr ⟨rfl, rfl⟩
  | timeOut =>
    simp only [OAuthFlow.step, Option.ite_none_right_eq_some, Option.some.injEq] at stepped
    obtain ⟨-, rfl⟩ := stepped
    exact Or.inr ⟨rfl, rfl⟩
  | stop =>
    simp only [OAuthFlow.step, Option.ite_none_right_eq_some, Option.some.injEq] at stepped
    obtain ⟨-, rfl⟩ := stepped
    exact Or.inr ⟨rfl, rfl⟩

/-- An action keeps the captured pair the one of the redirects so far. -/
theorem step_tracked (flow next : OAuthFlow) (action : OAuthAction) (tracked : Tracked flow)
    (stepped : flow.step action = some next) : Tracked next := by
  rcases step_cases flow next action stepped with ⟨request, captured, requests⟩ |
    ⟨captured, requests⟩
  · rw [Tracked, captured, requests, captured_snoc, ← tracked]
  · rw [Tracked, captured, requests, ← tracked]

/-- So does a run. -/
theorem run_tracked (flow after : OAuthFlow) (actions : List OAuthAction) (tracked : Tracked flow)
    (ran : flow.run actions = some after) : Tracked after := by
  induction actions generalizing flow with
  | nil =>
    obtain rfl := Option.some.inj ran
    exact tracked
  | cons action rest ih =>
    simp only [OAuthFlow.run, List.foldlM_cons, Option.bind_eq_bind, Option.bind_eq_some_iff] at ran
    obtain ⟨next, stepped, later⟩ := ran
    exact ih next (step_tracked flow next action tracked stepped) later

/-- The code is among the parameters of the exchange. -/
theorem params_code (code : String) : (session.exchangeParams code).find "code" = some code := by
  simp only [OAuthSession.exchangeParams]
  split <;> simp [OrderedMap.find_insert]

/-- A code that is sent is the captured one, and has passed the checks. -/
theorem exchange_checked (flow : OAuthFlow) (params : OrderedMap String String)
    (sent : session.tokenExchange flow = some (.ok params)) :
    flow.captured.state = session.state ∧ flow.captured.code ≠ "" ∧
      params.find "code" = some flow.captured.code := by
  simp only [OAuthSession.tokenExchange] at sent
  split at sent
  · simp at sent
  · simp at sent
  · simp only [OAuthSession.checkCaptured] at sent
    split at sent
    · simp [Except.map] at sent
    · split at sent
      · simp [Except.map] at sent
      · split at sent
        · simp [Except.map] at sent
        · rename_i right present
          simp only [Except.map, Option.some.injEq, Except.ok.injEq] at sent
          subst sent
          exact ⟨not_not.mp right, present, params_code session flow.captured.code⟩
  · simp at sent

/-- The code that is sent was carried by a request that also carried the state of the
flow, as long as no request joins its half of a pair to one from another. -/
theorem sent_code_came_with_state (actions : List OAuthAction) (flow : OAuthFlow)
    (params : OrderedMap String String) (ran : OAuthFlow.run {} actions = some flow)
    (apart : Lawful (fun earlier request => ¬ Joins session earlier request) flow.requests)
    (sent : session.tokenExchange flow = some (.ok params)) :
    ∃ request ∈ flow.requests,
      request.code = params.find "code" ∧ request.state = some session.state := by
  obtain ⟨right, present, found⟩ := exchange_checked session flow params sent
  have tracked : Tracked flow := run_tracked {} flow actions rfl ran
  rw [tracked] at right present found
  rw [found]
  exact captured_pair_carried session flow.requests apart right present

/-- A session with a state of its own. -/
def someSession : OAuthSession :=
  ⟨"client", "", "verifier", "http://127.0.0.1:8080", "AAAAAAAAAAAAAAAAAAAAAAAAAAAAAAAA", rfl⟩

/-- The redirect of the browser. -/
def redirect : CallbackRequest := ⟨none, some "granted", some someSession.state⟩

/-- The redirect, a wrong state and the redirect again: the granted code is sent. -/
theorem granted_code_sent :
    ∃ flow params,
      OAuthFlow.run {} [.serve redirect, .wake, .serve ⟨none, none, some "other"⟩,
        .serve redirect, .stop] = some flow ∧
      someSession.tokenExchange flow = some (.ok params) ∧ params.find "code" = some "granted" ∧
      ∃ request ∈ flow.requests,
        request.code = params.find "code" ∧ request.state = some someSession.state := by
  refine ⟨_, _, rfl, rfl, by decide, ?_⟩
  apply sent_code_came_with_state someSession [.serve redirect, .wake,
    .serve ⟨none, none, some "other"⟩, .serve redirect, .stop] _ _ rfl _ rfl
  have pairs : ∀ request ∈ [redirect, ⟨none, none, some "other"⟩, redirect],
      (request.code = none ∨ request.state ≠ none) ∧
        (request.code ≠ none ∨ request.state ≠ some someSession.state) := by decide
  intro earlier request later split joins
  have member : request ∈ [redirect, ⟨none, none, some "other"⟩, redirect] := by
    rw [show [redirect, ⟨none, none, some "other"⟩, redirect] = earlier ++ request :: later
      from split]
    simp
  obtain ⟨whole, stated⟩ := pairs request member
  rcases joins with ⟨code, brings, -, stateless, -⟩ | ⟨codeless, brings, -⟩
  · cases whole with
    | inl codeless => simp [brings] at codeless
    | inr hasState => exact hasState stateless
  · cases stated with
    | inl hasCode => exact hasCode codeless
    | inr otherState => exact otherState brings

/-- A code without a state that comes while the thread is waking is sent in place of the
one that came with it. -/
theorem stray_code_sent :
    ∃ flow params,
      OAuthFlow.run {} [.serve redirect, .wake, .serve ⟨none, some "stray", none⟩, .stop] =
        some flow ∧
      someSession.tokenExchange flow = some (.ok params) ∧ params.find "code" = some "stray" ∧
      ¬ ∃ request ∈ flow.requests,
        request.code = params.find "code" ∧ request.state = some someSession.state :=
  ⟨_, _, rfl, rfl, by decide, by decide⟩

/-- Serving some requests while the thread waits, and then waking and stopping. -/
def scheduleOf (requests : List CallbackRequest) : List OAuthAction :=
  requests.map .serve ++ [.wake, .stop]

/-- Redirects that are served while the flow waits are captured in turn. -/
theorem serve_all (flow : OAuthFlow) (requests : List CallbackRequest)
    (waiting : flow.stage = .waiting) :
    flow.run (requests.map .serve) =
      some ⟨.waiting, requests.foldl Captured.onRedirect flow.captured,
      flow.requests ++ requests⟩ := by
  induction requests generalizing flow with
  | nil =>
    cases flow
    simp_all [OAuthFlow.run]
  | cons request rest ih =>
    have served : flow.step (.serve request) =
        some ⟨.waiting, flow.captured.onRedirect request, flow.requests ++ [request]⟩ := by
      simp [OAuthFlow.step, waiting]
    have later := ih ⟨.waiting, flow.captured.onRedirect request, flow.requests ++ [request]⟩ rfl
    simp only [OAuthFlow.run] at later ⊢
    rw [List.map_cons, List.foldlM_cons, served]
    simpa using later

/-- A schedule runs to the end once there is a request. -/
theorem schedule_runs (earlier : List CallbackRequest) (request : CallbackRequest) :
    OAuthFlow.run {} (scheduleOf (earlier ++ [request])) =
      some ⟨.stopped, capturedBy (earlier ++ [request]), earlier ++ [request]⟩ := by
  have served := serve_all {} (earlier ++ [request]) rfl
  have done : ((capturedBy earlier).onRedirect request).done = true := rfl
  simp only [OAuthFlow.run, List.nil_append] at served
  rw [scheduleOf, OAuthFlow.run, List.foldlM_append, served]
  change OAuthFlow.run ⟨.waiting, capturedBy (earlier ++ [request]), earlier ++ [request]⟩
    [.wake, .stop] = _
  rw [captured_snoc]
  simp [OAuthFlow.run, OAuthFlow.step, done]

/-- Redirects without errors leave none captured. -/
theorem no_error_captured (requests : List CallbackRequest)
    (errorless : ∀ request ∈ requests, request.error = none) :
    (capturedBy requests).error = "" := by
  induction requests using List.reverseRecOn with
  | nil => rfl
  | append_singleton earlier request ih =>
    have absent := errorless request (by simp)
    have before := ih (fun other member => errorless other (List.mem_append_left _ member))
    simp [captured_snoc, Captured.onRedirect, absent, before]

/-- Where no request brings an error, a request that joins two halves is enough: there
is a schedule in which the code that is sent came with no state of the flow. -/
theorem joined_code_is_sent (earlier : List CallbackRequest) (request : CallbackRequest)
    (errorless : ∀ other ∈ earlier ++ [request], other.error = none)
    (joins : Joins session earlier request) :
    ∃ actions flow params, OAuthFlow.run {} actions = some flow ∧
      flow.requests = earlier ++ [request] ∧ session.tokenExchange flow = some (.ok params) ∧
      ¬ ∃ other ∈ flow.requests,
        other.code = params.find "code" ∧ other.state = some session.state := by
  have quiet := no_error_captured (earlier ++ [request]) errorless
  have pair : (capturedBy (earlier ++ [request])).state = session.state ∧
      (capturedBy (earlier ++ [request])).code ≠ "" ∧
      ¬ Carried session (earlier ++ [request]) (capturedBy (earlier ++ [request])).code := by
    rw [captured_snoc]
    rcases joins with ⟨code, brings, present, stateless, right, uncarried⟩ |
      ⟨codeless, brings, present, uncarried⟩
    · refine ⟨by simpa [Captured.onRedirect, stateless] using right,
        by simpa [Captured.onRedirect, brings] using present, ?_⟩
      rintro ⟨other, member, carries, state⟩
      cases List.mem_append.mp member with
      | inl before =>
        exact uncarried ⟨other, before, by simpa [Captured.onRedirect, brings] using carries, state⟩
      | inr last =>
        obtain rfl := List.mem_singleton.mp last
        simp [stateless] at state
    · refine ⟨by simp [Captured.onRedirect, brings],
        by simpa [Captured.onRedirect, codeless] using present, ?_⟩
      rintro ⟨other, member, carries, state⟩
      cases List.mem_append.mp member with
      | inl before =>
        exact uncarried ⟨other, before, by simpa [Captured.onRedirect, codeless] using carries,
          state⟩
      | inr last =>
        obtain rfl := List.mem_singleton.mp last
        simp [codeless] at carries
  obtain ⟨right, present, uncarried⟩ := pair
  refine ⟨_, _, session.exchangeParams (capturedBy (earlier ++ [request])).code,
    schedule_runs earlier request, rfl, ?_, ?_⟩
  · simp [OAuthSession.tokenExchange, OAuthSession.checkCaptured, quiet, right, present, Except.map]
  · rw [params_code]
    exact uncarried

end GoogleCalendar.OAuthCapture
