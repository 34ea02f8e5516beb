import GoogleCalendar.OAuthFlow
import GoogleCalendar.HttpLibClient
import GoogleCalendar.Encoding

/-!
# The OAuth provider

A run of the provider looks into the keychain first. The refresh token that an
earlier run filed under the client id is exchanged for an access token without a
browser. When there is none, or the exchange fails, the browser is sent to the
consent page, the redirect is awaited on a loopback listener, the code is
exchanged, and the refresh token that comes with the access token is filed.

What the outside does in a run is given: the environment, the random bytes, the
ports, the requests to the listener, the answers of the token endpoint, and the
occasion on which the functions of the keychain are called, which are parameters.
-/

namespace GoogleCalendar

open Library

/-- The digest of OpenSSL. -/
structure OAuthCrypto where
  sha256 : List UInt8 → List UInt8

/-- `charset`. -/
def charset : List Char :=
  "ABCDEFGHIJKLMNOPQRSTUVWXYZabcdefghijklmnopqrstuvwxyz0123456789".toList

/-- A character of the charset for each draw. -/
def generateRandomString (draws : List (Fin 62)) : String :=
  String.ofList (draws.map (fun draw => charset.getD draw.val '\x00'))

/-- A random string is as long as its draws. -/
theorem random_string_length (draws : List (Fin 62)) :
    (generateRandomString draws).length = draws.length := by
  simp [generateRandomString]

/-- The verifier of 32 random bytes, when the generator has them. -/
def generatePkceVerifier (bytes : Option (Vector UInt8 32)) : Except Exception String :=
  match bytes with
  | none => .error (.ioError "Failed to generate PKCE code verifier (RAND_bytes failed)")
  | some drawn => .ok (String.ofList (base64UrlEncode drawn.toList))

/-- The bytes of a text, one for each character. -/
def textBytes (text : String) : List UInt8 := text.toList.map (fun char => char.toNat.toUInt8)

/-- `PkceChallengeS256`. -/
def pkceChallengeS256 (crypto : OAuthCrypto) (verifier : String) : String :=
  String.ofList (base64UrlEncode (crypto.sha256 (textBytes verifier)))

/-- An environment variable that is set and not empty. -/
def setVariable (value : Option String) : Option String :=
  value.filter (fun text => text ≠ "")

/-- `std::stoi` of digits, which throws when the number is no `int`. -/
def stoi (digits : List Char) : Option Int :=
  let number : Nat := digits.foldl (fun value digit => value * 10 + (digit.toNat - '0'.toNat)) 0
  if number < 2 ^ 31 then some number else none

/-- The port of the redirect URI: the digits behind the first colon after the scheme.
It is zero when the URI has none. -/
def desiredLoopbackPort (redirectUri : Option String) : Int :=
  match setVariable redirectUri with
  | none => 0
  | some uri =>
    match findText "://".toList uri.toList with
    | none => 0
    | some hostPos =>
      let host := uri.toList.drop (hostPos + 3)
      match findText [':'] host with
      | none => 0
      | some colon =>
        match (host.drop (colon + 1)).takeWhile Char.isDigit with
        | [] => 0
        | digits => (stoi digits).getD 0

/-! ## The keychain -/

/-- The platform's functions for generic passwords by service and account, on a login keychain.
What they do may depend on the occasion: the keychain is locked, or its user refuses access. -/
structure SecItems (κ ω : Type) where
  /-- `SecItemCopyMatching` for one item, with `none` for a failure. -/
  copyMatching : ω → String → String → κ → Option String
  /-- `SecItemDelete`. -/
  delete : ω → String → String → κ → κ
  /-- `SecItemAdd`. -/
  add : ω → String → String → String → κ → κ

/-- `KEYCHAIN_SERVICE`. -/
def keychainService : String := "duckdb-google-calendar"

section Keychain

variable {κ ω : Type} (items : SecItems κ ω) (apple : Bool) (occasion : ω)

/-- Only macOS has a keychain. -/
def keychainGet (service account : String) (keychain : κ) : Option String :=
  if apple then items.copyMatching occasion service account keychain else none

/-- The old item is deleted before the new one is added. A failure is logged and no error. -/
def keychainSet (service account value : String) (keychain : κ) : κ :=
  if apple then
    items.add occasion service account value (items.delete occasion service account keychain)
  else keychain

end Keychain

/-! ## The token endpoint -/

/-- The parameters of a refresh. The secret is left out when there is none. -/
def refreshParams (clientId clientSecret refreshToken : String) : OrderedMap String String :=
  let client := OrderedMap.empty.insert "client_id" clientId
  let identified :=
    if clientSecret = "" then client else client.insert "client_secret" clientSecret
  (identified.insert "refresh_token" refreshToken).insert "grant_type" "refresh_token"

/-- What the POST to the token endpoint gives: a response, or the text of an error. -/
abbrev TokenAnswer := Except String HttpResponse

/-- The access token of the answer to a refresh. -/
def refreshAccessToken (engine : Engine) (answer : TokenAnswer) : Except Exception String :=
  match answer with
  | .error text => .error (.ioError ("OAuth token refresh request failed: " ++ text))
  | .ok response =>
    if response.statusCode ≠ 200 then
      .error (.ioError ("OAuth token refresh failed (HTTP " ++ toString response.statusCode ++
        "): " ++ response.body))
    else
      match engine.parse response.body with
      | none => .error (.json (engine.parseError response.body))
      | some json =>
        match json.find "access_token" with
        | none => .error (.ioError
            ("OAuth token refresh response did not contain an access_token: " ++ response.body))
        | some token => token.getString.mapError .json

/-- The document of an answer to the exchange of a code. -/
def readTokenResponse (engine : Engine) (answer : TokenAnswer) : Except Exception Json :=
  match answer with
  | .error text => .error (.ioError ("OAuth token exchange request failed: " ++ text))
  | .ok response =>
    if response.statusCode ≠ 200 then
      .error (.ioError ("OAuth token exchange failed (HTTP " ++ toString response.statusCode ++
        "): " ++ response.body))
    else
      match engine.parse response.body with
      | none => .error (.ioError
          ("Could not parse OAuth token response: " ++ (engine.parseError response.body).what))
      | some json =>
        if json.contains "access_token" then .ok json
        else .error (.ioError
          ("OAuth token response did not contain an access_token: " ++ response.body))

/-! ## A run -/

/-- The environment variables that the provider reads. -/
structure OAuthEnvironment where
  clientId : Option String
  clientSecret : Option String
  redirectUri : Option String
  deriving DecidableEq, Repr

/-- What the outside does in one run. -/
structure OAuthRun (ω : Type) where
  environment : OAuthEnvironment
  keychainOccasion : ω
  refreshAnswer : TokenAnswer
  exchangeAnswer : TokenAnswer
  verifierBytes : Option (Vector UInt8 32)
  stateDraws : Vector (Fin 62) 32
  bindToPort : Bool
  bindToAnyPort : Int
  actions : List OAuthAction

/-- How a run ends: its result, the forms that it has sent to the token endpoint, and
the URL that it has opened. -/
structure OAuthOutcome where
  result : Except Exception String
  requests : List (OrderedMap String String)
  visited : Option String

section Flow

variable {κ ω : Type}

/-- The port of the listener. -/
def bindListener (run : OAuthRun ω) : Except Exception Int :=
  let desired := desiredLoopbackPort run.environment.redirectUri
  if desired ≠ 0 then
    if run.bindToPort then .ok desired
    else .error (.ioError ("Could not bind OAuth loopback listener to 127.0.0.1:" ++
      toString desired ++ " (set by GOOGLE_CALENDAR_OAUTH_REDIRECT_URI)"))
  else if run.bindToAnyPort < 0 then
    .error (.ioError "Could not bind OAuth loopback listener to 127.0.0.1")
  else .ok run.bindToAnyPort

/-- The scope that is asked for. -/
def oauthScope : String := "https://www.googleapis.com/auth/calendar"

/-- The consent page of a session. -/
def authRequestUrl (crypto : OAuthCrypto) (session : OAuthSession) : String :=
  "https://accounts.google.com/o/oauth2/v2/auth?response_type=code" ++ "&client_id=" ++
    urlEncode session.clientId ++ "&redirect_uri=" ++ urlEncode session.redirectUri ++ "&scope=" ++
    urlEncode oauthScope ++ "&state=" ++ urlEncode session.state ++ "&code_challenge=" ++
    urlEncode (pkceChallengeS256 crypto session.codeVerifier) ++
    "&code_challenge_method=S256&access_type=offline&prompt=consent"

variable (engine : Engine) (crypto : OAuthCrypto) (items : SecItems κ ω) (apple : Bool)

/-- What the answer to a code leaves: the refresh token is filed before the access token
is read. -/
def fileTokens (run : OAuthRun ω) (clientId : String) (keychain : κ) :
    Except Exception String × κ :=
  match readTokenResponse engine run.exchangeAnswer with
  | .error error => (.error error, keychain)
  | .ok json =>
    let access := ((json.find "access_token").getD .null).getString.mapError Exception.json
    match json.find "refresh_token" with
    | none => (access, keychain)
    | some refresh =>
      match refresh.getString with
      | .error error => (.error (.json error), keychain)
      | .ok refreshToken =>
        (access, keychainSet items apple run.keychainOccasion keychainService clientId refreshToken
          keychain)

/-- The session of a run that has its verifier and its port. -/
def sessionOf (run : OAuthRun ω) (clientId codeVerifier : String) (port : Int) : OAuthSession where
  clientId := clientId
  clientSecret := (setVariable run.environment.clientSecret).getD ""
  codeVerifier := codeVerifier
  redirectUri := "http://127.0.0.1:" ++ toString port
  state := generateRandomString run.stateDraws.toList
  stateLength := by simp [random_string_length]

/-- The browser flow. It does not end while the redirect is awaited. -/
def authorizeInBrowser (run : OAuthRun ω) (clientId : String) (keychain : κ) :
    Option (OAuthOutcome × κ) :=
  match generatePkceVerifier run.verifierBytes with
  | .error error => some (⟨.error error, [], none⟩, keychain)
  | .ok codeVerifier =>
    match bindListener run with
    | .error error => some (⟨.error error, [], none⟩, keychain)
    | .ok port =>
      let session := sessionOf run clientId codeVerifier port
      match (OAuthFlow.run {} run.actions).bind session.tokenExchange with
      | none => none
      | some (.error error) =>
          some (⟨.error error, [], some (authRequestUrl crypto session)⟩, keychain)
      | some (.ok params) =>
        let filed := fileTokens engine items apple run clientId keychain
        some (⟨filed.1, [params], some (authRequestUrl crypto session)⟩, filed.2)

/-- The refresh token that a run finds. -/
def cachedRefresh (run : OAuthRun ω) (clientId : String) (keychain : κ) : Option String :=
  (keychainGet items apple run.keychainOccasion keychainService clientId keychain).filter
    (fun token => token ≠ "")

/-- `InitiateOAuthFlow`. -/
def initiateOAuthFlow (run : OAuthRun ω) (keychain : κ) : Option (OAuthOutcome × κ) :=
  match setVariable run.environment.clientId with
  | none => some (⟨.error (.binder ("The 'oauth' provider requires a registered Google OAuth " ++
      "client. Set GOOGLE_CALENDAR_OAUTH_CLIENT_ID (and GOOGLE_CALENDAR_OAUTH_CLIENT_SECRET for " ++
      "Desktop-app clients), or use the 'key_file' / 'access_token' provider.")), [], none⟩,
      keychain)
  | some clientId =>
    match cachedRefresh items apple run clientId keychain with
    | none => authorizeInBrowser engine crypto items apple run clientId keychain
    | some refreshToken =>
      let params := refreshParams clientId ((setVariable run.environment.clientSecret).getD "")
        refreshToken
      match refreshAccessToken engine run.refreshAnswer with
      | .ok token => some (⟨.ok token, [params], none⟩, keychain)
      | .error _ =>
        -- The error is logged, and the browser takes over.
        (authorizeInBrowser engine crypto items apple run clientId keychain).map (fun ended =>
          (⟨ended.1.result, params :: ended.1.requests, ended.1.visited⟩, ended.2))

end Flow

end GoogleCalendar
