import GoogleCalendar.Engine

/-!
# The OAuth loopback flow

The flow opens the consent page in a browser and waits for the redirect on a
loopback listener. Each request that reaches the listener is handled under a
mutex and leaves its parameters in three variables, which later requests
overwrite one by one. The first request lets the waiting thread go on; until
that thread has stopped the listener and joined it, more requests are handled.
Then the three variables are checked and the code is exchanged.
-/

namespace GoogleCalendar

open Library

/-- A request to the listener, with those of the three parameters that it has. -/
structure CallbackRequest where
  error : Option String
  code : Option String
  state : Option String
  deriving DecidableEq, Repr

/-- What the handler has captured. -/
structure Captured where
  done : Bool := false
  code : String := ""
  state : String := ""
  error : String := ""
  deriving DecidableEq, Repr

namespace Captured

/-- The handler under the mutex: each parameter that is there is captured. -/
def onRedirect (captured : Captured) (request : CallbackRequest) : Captured where
  done := true
  code := request.code.getD captured.code
  state := request.state.getD captured.state
  error := request.error.getD captured.error

/-- The page that the browser gets. -/
def page (captured : Captured) : String :=
  "<!doctype html><html><body style=\"font-family:sans-serif\"><h2>" ++
    (if captured.error = "" ∧ captured.code ≠ "" then "Authorization complete"
      else "Authorization failed") ++
    "</h2><p>You can close this tab and return to DuckDB.</p></body></html>"

end Captured

/-- What the flow settles before it listens. The state is a string of 32 random
characters. -/
structure OAuthSession where
  clientId : String
  clientSecret : String
  codeVerifier : String
  redirectUri : String
  state : String
  stateLength : state.length = 32

/-- Where the thread of the flow is. -/
inductive OAuthStage where
  | waiting
  | woken
  | stopped
  | timedOut
  deriving DecidableEq, Repr

/-- A moment of the flow, with the requests handled so far. -/
structure OAuthFlow where
  stage : OAuthStage := .waiting
  captured : Captured := {}
  requests : List CallbackRequest := []
  deriving DecidableEq, Repr

/-- What may happen to a flow. -/
inductive OAuthAction where
  | serve (request : CallbackRequest)
  | wake
  | timeOut
  | stop
  deriving DecidableEq, Repr

namespace OAuthFlow

/-- Requests are handled until the listener is joined. The thread wakes once a
request was handled, or gives up after five minutes without one. -/
def step (flow : OAuthFlow) : OAuthAction → Option OAuthFlow
  | .serve request =>
      if flow.stage = .stopped then none
      else some ⟨flow.stage, flow.captured.onRedirect request, flow.requests ++ [request]⟩
  | .wake =>
      if flow.stage = .waiting ∧ flow.captured.done = true then
        some ⟨.woken, flow.captured, flow.requests⟩
      else none
  | .timeOut =>
      if flow.stage = .waiting ∧ flow.captured.done = false then
        some ⟨.timedOut, flow.captured, flow.requests⟩
      else none
  | .stop =>
      if flow.stage = .woken then some ⟨.stopped, flow.captured, flow.requests⟩ else none

/-- The actions in turn, where each is possible. -/
def run (flow : OAuthFlow) (actions : List OAuthAction) : Option OAuthFlow :=
  actions.foldlM step flow

end OAuthFlow

namespace OAuthSession

variable (session : OAuthSession)

/-- The checks before the exchange; they yield the code. -/
def checkCaptured (captured : Captured) : Except Exception String :=
  if captured.error ≠ "" then
    .error (.ioError ("Google OAuth authorization failed: " ++ captured.error))
  else if captured.state ≠ session.state then
    .error (.ioError "Google OAuth state mismatch (possible CSRF); aborting.")
  else if captured.code = "" then
    .error (.ioError "Google OAuth authorization did not return a code.")
  else .ok captured.code

/-- The parameters of the token request. The secret is left out when there is none. -/
def exchangeParams (code : String) : OrderedMap String String :=
  let client := (OrderedMap.empty.insert "code" code).insert "client_id" session.clientId
  let identified :=
    if session.clientSecret = "" then client
    else client.insert "client_secret" session.clientSecret
  ((identified.insert "code_verifier" session.codeVerifier).insert "grant_type"
    "authorization_code").insert "redirect_uri" session.redirectUri

/-- What the flow goes on to once its listener is joined: the token request or an
error. -/
def tokenExchange (flow : OAuthFlow) : Option (Except Exception (OrderedMap String String)) :=
  match flow.stage with
  | .waiting => none
  | .woken => none
  | .stopped => some ((session.checkCaptured flow.captured).map session.exchangeParams)
  | .timedOut => some (.error (.ioError ("Timed out waiting for Google OAuth authorization " ++
      "(no redirect received in 5 minutes)")))

end OAuthSession

end GoogleCalendar
