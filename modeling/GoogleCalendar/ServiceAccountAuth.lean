import GoogleCalendar.Client
import GoogleCalendar.Encoding

/-!
# Authorization providers

A service account signs a JWT and exchanges it for a token, which it keeps with
the time up to which it is to be used, a minute before it expires. Asked for a
header, it first exchanges again when it has no token or that time has come. A
bearer token is used as it was given.
-/

namespace GoogleCalendar

/-- The HTTP client as a transaction uses it: requests to the service, retried, the
POST of a form to the token endpoint, and the clock of the state behind them. -/
structure TransactionHttp (σ : Type) where
  retrying : RetryingHttpClient σ
  /-- `Post(TOKEN_ENDPOINT, headers, body)`. -/
  post : HttpHeaders → String → σ → Except Exception HttpResponse × σ
  /-- `std::time(nullptr)`. -/
  now : σ → Int

/-- The signature of a text under a PEM key, and the cast of a JSON float to `int`. -/
structure TokenLibrary where
  sign : String → String → Except Exception (List UInt8)
  truncate : String → Int

/-- `ServiceAccountAuth`. -/
structure ServiceAccountAuth where
  email : String
  privateKey : String
  cachedToken : String := ""
  expirationTime : Int := 0
  deriving DecidableEq, Repr

namespace ServiceAccountAuth

/-- `TOKEN_TTL`: the lifetime that is asked for. -/
def tokenTtl : Int := 1800

/-- The address of the token server. -/
def tokenEndpoint : String := "https://oauth2.googleapis.com/token"

/-- The header of every JWT. -/
def jwtHeader : String := "\x7b\"alg\":\"RS256\",\"typ\":\"JWT\"\x7d"

variable (library : TokenLibrary)

/-- The claims of the assertion. -/
def claimSet (auth : ServiceAccountAuth) (now : Int) : Json :=
  .object [("aud", .string tokenEndpoint), ("exp", .integer (now + tokenTtl)),
    ("iat", .integer now), ("iss", .string auth.email),
    ("scope", .string "https://www.googleapis.com/auth/calendar")]

/-- `CreateJwt`. -/
def createJwt (auth : ServiceAccountAuth) (now : Int) : Except Exception String := do
  let signInput := base64UrlText jwtHeader ++ "." ++ base64UrlText (auth.claimSet now).dump
  let signature ← library.sign (normalizePemKey auth.privateKey) signInput
  pure (signInput ++ "." ++ String.ofList (base64UrlEncode signature))

/-- The token of an answer, with the document that holds it. -/
def readAccessToken (engine : Engine) (response : HttpResponse) :
    Except Exception (String × Json) :=
  if response.statusCode ≠ 200 then
    .error (.ioError ("Token exchange failed: " ++ response.body))
  else
    match engine.parse response.body with
    | none => .error (.ioError ("Failed to parse token response: " ++ response.body))
    | some json =>
      match json.find "access_token" with
      | none => .error (.ioError ("Token response missing 'access_token': " ++ response.body))
      | some token =>
        match token.getString with
        | .error error => .error (.json error)
        | .ok text => .ok (text, json)

/-- `get<int>()`: every number and boolean has one, wrapped to 32 bits. -/
def getInt : Json → Except JsonError Int
  | .boolean value => .ok (if value then 1 else 0)
  | .integer value => .ok (Int.bmod value (2 ^ 32))
  | .float text => .ok (library.truncate text)
  | other => .error ⟨302, "type must be number, but is " ++ other.typeName⟩

/-- The seconds that a token is valid for. -/
def readExpiresIn (json : Json) : Except JsonError Int :=
  json.valueOr "expires_in" tokenTtl (getInt library)

variable {σ : Type} (engine : Engine) (http : TransactionHttp σ)

/-- The provider as an answer leaves it: the token is kept before its time is read. -/
def keepToken (auth : ServiceAccountAuth) (response : HttpResponse) (now : Int) :
    Except Exception Unit × ServiceAccountAuth :=
  match readAccessToken engine response with
  | .error error => (.error error, auth)
  | .ok (token, json) =>
    match readExpiresIn library json with
    | .error error =>
        (.error (.json error), ⟨auth.email, auth.privateKey, token, auth.expirationTime⟩)
    | .ok expiresIn =>
        (.ok (), ⟨auth.email, auth.privateKey, token, now + expiresIn - 60⟩)

/-- `ExchangeJwtForToken`. -/
def exchangeJwtForToken (auth : ServiceAccountAuth) (state : σ) :
    Except Exception Unit × ServiceAccountAuth × σ :=
  match auth.createJwt library (http.now state) with
  | .error error => (.error error, auth, state)
  | .ok jwt =>
    match http.post [("Content-Type", "application/x-www-form-urlencoded")]
        ("grant_type=urn:ietf:params:oauth:grant-type:jwt-bearer&assertion=" ++ jwt) state with
    | (.error error, after) => (.error error, auth, after)
    | (.ok response, after) =>
      let kept := auth.keepToken library engine response (http.now after)
      (kept.1, kept.2, after)

/-- `IsExpired`. -/
def isExpired (auth : ServiceAccountAuth) (now : Int) : Bool :=
  auth.cachedToken = "" || auth.expirationTime ≤ now

/-- `ServiceAccountAuth::GetAuthorizationHeader`. -/
def getAuthorizationHeader (auth : ServiceAccountAuth) (state : σ) :
    Except Exception String × ServiceAccountAuth × σ :=
  if auth.isExpired (http.now state) then
    match auth.exchangeJwtForToken library engine http state with
    | (.error error, kept, after) => (.error error, kept, after)
    | (.ok (), kept, after) => (.ok ("Bearer " ++ kept.cachedToken), kept, after)
  else (.ok ("Bearer " ++ auth.cachedToken), auth, state)

end ServiceAccountAuth

/-- The providers: a token as it is, or a service account. -/
inductive AuthProvider where
  | serviceAccount (auth : ServiceAccountAuth)
  | bearerToken (token : String)
  deriving DecidableEq, Repr

namespace AuthProvider

variable {σ : Type} (engine : Engine) (library : TokenLibrary) (http : TransactionHttp σ)

/-- `IAuthProvider::GetAuthorizationHeader`, of either provider. -/
def getAuthorizationHeader (provider : AuthProvider) (state : σ) :
    Except Exception String × AuthProvider × σ :=
  match provider with
  | .serviceAccount auth =>
      let asked := auth.getAuthorizationHeader library engine http state
      (asked.1, .serviceAccount asked.2.1, asked.2.2)
  | .bearerToken token => (.ok ("Bearer " ++ token), .bearerToken token, state)

end AuthProvider

/-- A google_calendar secret: its provider and the values that it has. -/
structure KeyValueSecret where
  provider : String
  email : Option String
  secret : Option String
  token : Option String
  deriving DecidableEq, Repr

/-- `BuildProvider`. -/
def buildProvider (kv : KeyValueSecret) : Except Exception AuthProvider :=
  if kv.provider = "key_file" then
    match kv.email with
    | none => .error (.invalidInput "'email' not found in google_calendar secret")
    | some email =>
      match kv.secret with
      | none => .error (.invalidInput "'secret' not found in google_calendar secret")
      | some key => .ok (.serviceAccount ⟨email, key, "", 0⟩)
  else
    match kv.token with
    | none => .error (.invalidInput "'token' not found in google_calendar secret")
    | some token => .ok (.bearerToken token)

end GoogleCalendar
