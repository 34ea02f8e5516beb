import GoogleCalendar.ProxyConfig
import GoogleCalendar.Client

/-!
# The client that reaches the network

A URL is split into the base that the library connects to and the path that it
asks for there. The library belongs to the database engine: it takes one call and
answers with a response or the text of its error.
-/

namespace GoogleCalendar

/-- Where a text is found first: `find`. -/
def findText (needle : List Char) : List Char → Option Nat
  | [] => if needle.isEmpty then some 0 else none
  | char :: rest =>
    if needle.isPrefixOf (char :: rest) then some 0
    else (findText needle rest).map (· + 1)

/-- What the library is called with. Only a proxy with a host is set, and only
with a user name does it take credentials. -/
structure HttpLibCall where
  baseUrl : String
  proxy : Option (String × Nat)
  proxyBasicAuth : Option (String × String)
  method : HttpMethod
  path : String
  headers : HttpHeaders
  body : Option (Option Json × String)

/-- The library behind the client, over the state of the network. -/
structure HttpLib (σ : Type) where
  send : HttpLibCall → σ → Except String HttpResponse × σ

/-- `HttpLibClient`. -/
structure HttpLibClient (σ : Type) where
  library : HttpLib σ
  proxyConfig : HttpProxyConfig

namespace HttpLibClient

/-- The base up to the first slash behind the scheme, and the path from there. -/
def parseUrl (url : String) : Except Exception (String × String) :=
  match findText "://".toList url.toList with
  | none => .error (.ioError ("Invalid URL: " ++ url))
  | some schemeEnd =>
    match findText ['/'] (url.toList.drop (schemeEnd + 3)) with
    | none => .ok (url, "/")
    | some offset =>
      let pathStart := schemeEnd + 3 + offset
      .ok (String.ofList (url.toList.take pathStart), String.ofList (url.toList.drop pathStart))

/-- The content type travels beside the other headers. Names are distinct in a
request's headers. -/
def contentType (headers : HttpHeaders) : String :=
  match headers.find? (fun header => header.1 = "Content-Type") with
  | some header => header.2
  | none => "application/json"

variable {σ : Type} (client : HttpLibClient σ)

/-- The call for a request that goes to `baseUrl` and `path`. -/
def call (request : HttpRequest) (baseUrl path : String) : HttpLibCall where
  baseUrl := baseUrl
  proxy :=
    if client.proxyConfig.host = "" then none
    else some (client.proxyConfig.host, client.proxyConfig.port)
  proxyBasicAuth :=
    if client.proxyConfig.host = "" ∨ client.proxyConfig.username = "" then none
    else some (client.proxyConfig.username, client.proxyConfig.password)
  method := request.method
  path := path
  headers := request.headers.filter (fun header => header.1 ≠ "Content-Type")
  body :=
    match request.method with
    | .post | .put => some (request.body, contentType request.headers)
    | .get | .del => none

/-- What the library answers, with its errors as exceptions. -/
def reply (outcome : Except String HttpResponse × σ) : Except Exception HttpResponse × σ :=
  match outcome with
  | (.ok response, after) => (.ok response, after)
  | (.error error, after) => (.error (.ioError ("HTTP request failed: " ++ error)), after)

/-- `HttpLibClient::Execute`. -/
def execute (request : HttpRequest) (state : σ) : Except Exception HttpResponse × σ :=
  match parseUrl request.url with
  | .error error => (.error error, state)
  | .ok (baseUrl, path) => reply (client.library.send (client.call request baseUrl path) state)

/-- It is an `IHttpClient`. -/
def toHttpClient : IHttpClient σ := ⟨client.execute⟩

end HttpLibClient

/-- The client of a connection that does not replay a fixture: the retrying client
over the network with the proxy of the settings. -/
def createHttpClient {σ : Type} (library : HttpLib σ) (sleep : Nat → σ → σ)
    (split : List Char → List (List Char)) (secret : Option HttpProxyConfig.HttpSecret)
    (settings : HttpProxyConfig.HttpSettings) : Except Exception (RetryingHttpClient σ) :=
  (HttpProxyConfig.getHttpProxyConfig split secret settings).map (fun proxyConfig =>
    ⟨(HttpLibClient.mk library proxyConfig).toHttpClient, {}, sleep⟩)

namespace HttpLibClient

/-- A text is found behind one that its first character is not in. -/
theorem find_text (needle before after : List Char) (first : Char) (rest : List Char)
    (shape : needle = first :: rest) (absent : first ∉ before) :
    findText needle (before ++ needle ++ after) = some before.length := by
  induction before with
  | nil =>
    have begins : needle.isPrefixOf (needle ++ after) = true :=
      List.isPrefixOf_iff_prefix.mpr (List.prefix_append needle after)
    rw [shape] at begins ⊢
    simp only [List.nil_append, List.cons_append, findText, List.length_nil] at begins ⊢
    rw [if_pos begins]
  | cons char others ih =>
    obtain ⟨here, later⟩ := not_or.mp (fun split => absent (List.mem_cons.mpr split))
    have starts : needle.isPrefixOf (char :: (others ++ needle ++ after)) = false := by
      rw [shape, List.isPrefixOf_cons_cons, beq_eq_false_iff_ne.mpr here, Bool.false_and]
    simp only [List.cons_append, findText, starts, Bool.false_eq_true, if_false, ih later,
      Option.map_some, List.length_cons]

/-- The pieces of a URL with a path are the two sides of the slash that starts it. -/
theorem parse_origin (scheme host path : List Char) (schemeFree : ':' ∉ scheme)
    (hostFree : '/' ∉ host) :
    parseUrl (String.ofList (scheme ++ "://".toList ++ host ++ '/' :: path)) =
      .ok (String.ofList (scheme ++ "://".toList ++ host), String.ofList ('/' :: path)) := by
  have separator : "://".toList = [':', '/', '/'] := by decide
  have schemeEnd : findText "://".toList (scheme ++ "://".toList ++ (host ++ '/' :: path)) =
      some scheme.length :=
    find_text _ scheme _ ':' ['/', '/'] separator schemeFree
  have pathStart : findText ['/'] (host ++ ['/'] ++ path) = some host.length :=
    find_text _ host _ '/' [] rfl hostFree
  have behind : (scheme ++ "://".toList ++ (host ++ '/' :: path)).drop (scheme.length + 3) =
      host ++ ['/'] ++ path := by
    rw [List.drop_left' (by simp [separator]), List.append_assoc, List.singleton_append]
  have length : scheme.length + 3 + host.length = (scheme ++ "://".toList ++ host).length := by
    simp only [List.length_append, separator, List.length_cons, List.length_nil]
  simp only [parseUrl, String.toList_ofList]
  rw [List.append_assoc _ host, schemeEnd]
  simp only [behind, pathStart, length]
  rw [← List.append_assoc, List.take_left, List.drop_left]

/-- The pieces of a URL put together are the URL, unless it has no path. -/
theorem parse_joined (url baseUrl path : String) (parsed : parseUrl url = .ok (baseUrl, path)) :
    baseUrl ++ path = url ∨ (baseUrl = url ∧ path = "/") := by
  simp only [parseUrl] at parsed
  split at parsed
  · simp at parsed
  · split at parsed
    · obtain ⟨rfl, rfl⟩ := Prod.mk.inj (Except.ok.inj parsed)
      exact Or.inr ⟨rfl, rfl⟩
    · obtain ⟨rfl, rfl⟩ := Prod.mk.inj (Except.ok.inj parsed)
      rw [← String.ofList_append, List.take_append_drop, String.ofList_toList]
      exact Or.inl rfl

end HttpLibClient

end GoogleCalendar
