import GoogleCalendar.OAuthRuns
import GoogleCalendar.RequestTargets
import GoogleCalendar.TokenEncoding

/-!
# The consent page and the exchange

The URL that the browser is sent to is put together from pieces, some encoded and some
literal. It reads as the parameters of the session, whatever the client id and the
redirect URI contain, and the form that exchanges the code names the same client and
the same redirect URI, with the verifier that the page had the challenge of.
-/

namespace GoogleCalendar.ConsentPage

open Library PercentText RequestTargets OAuthRuns OAuthCapture

/-- The parameters of the consent page. -/
def consentParams (crypto : OAuthCrypto) (session : OAuthSession) : List (String × String) :=
  [("response_type", "code"), ("client_id", session.clientId),
    ("redirect_uri", session.redirectUri), ("scope", oauthScope), ("state", session.state),
    ("code_challenge", pkceChallengeS256 crypto session.codeVerifier),
    ("code_challenge_method", "S256"), ("access_type", "offline"), ("prompt", "consent")]

/-- The path of the consent page. -/
def consentSegments : List String := ["o", "oauth2", "v2", "auth"]

/-- What the page is asked for. -/
def consentTarget (crypto : OAuthCrypto) (session : OAuthSession) : Target where
  segments := ("" :: consentSegments).map String.toList
  params := asBytes (consentParams crypto session)

/-- The server of the consent page. -/
def consentOrigin : String := "https://accounts.google.com"

/-- The URL behind its origin. -/
def consentText (crypto : OAuthCrypto) (session : OAuthSession) : String :=
  rooted consentSegments ++ (QueryBuilder.mk (consentParams crypto session)).build

/-- The words that the page is written with are their own encodings. -/
theorem names_kept : ∀ name ∈ ["o", "oauth2", "v2", "auth", "response_type", "code", "client_id",
    "redirect_uri", "scope", "state", "code_challenge", "code_challenge_method", "S256",
    "access_type", "offline", "prompt", "consent"], urlEncode name = name := by
  decide +kernel

/-- The texts between the values of the URL, as a path and names of parameters. -/
theorem url_split :
    "https://accounts.google.com/o/oauth2/v2/auth?response_type=code" = consentOrigin ++
      ("/" ++ "o" ++ ("/" ++ "oauth2" ++ ("/" ++ "v2" ++ ("/" ++ "auth" ++
        ("?" ++ ("response_type" ++ "=" ++ "code")))))) ∧
    "&client_id=" = "&" ++ ("client_id" ++ "=") ∧
    "&redirect_uri=" = "&" ++ ("redirect_uri" ++ "=") ∧
    "&scope=" = "&" ++ ("scope" ++ "=") ∧ "&state=" = "&" ++ ("state" ++ "=") ∧
    "&code_challenge=" = "&" ++ ("code_challenge" ++ "=") ∧
    "&code_challenge_method=S256&access_type=offline&prompt=consent" =
      "&" ++ ("code_challenge_method" ++ "=" ++ "S256") ++
        ("&" ++ ("access_type" ++ "=" ++ "offline") ++
          ("&" ++ ("prompt" ++ "=" ++ "consent"))) := by
  decide +kernel

/-- The URL is its origin, its path and its parameters. -/
theorem url_pieces (crypto : OAuthCrypto) (session : OAuthSession) :
    authRequestUrl crypto session = consentOrigin ++ consentText crypto session := by
  obtain ⟨start, client, redirect, scope, state, challenge, rest⟩ := url_split
  have keep := names_kept
  simp only [List.mem_cons, List.not_mem_nil, or_false, forall_eq_or_imp, forall_eq] at keep
  obtain ⟨k1, k2, k3, k4, k5, k6, k7, k8, k9, k10, k11, k12, k13, k14, k15, k16, k17⟩ := keep
  unfold authRequestUrl consentText
  -- Only the literals are rewritten: the parts between them are the same on both sides.
  simp only [start, client, redirect, scope, state, challenge, rest, rooted, consentSegments,
    QueryBuilder.build, consentParams, List.map_cons, List.map_nil, String.join_cons,
    String.join_nil, String.intercalate_cons_cons, String.intercalate_singleton,
    String.append_assoc, String.append_empty, k1, k2, k3, k4, k5, k6, k7, k8, k9, k10, k11, k12,
    k13, k14, k15, k16, k17, -String.reduceAppend]

/-- The text behind the origin is the path and the query of the target. -/
theorem text_written (crypto : OAuthCrypto) (session : OAuthSession) :
    (consentText crypto session).toList =
      writePath unreserved (consentTarget crypto session).segments ++
        writeQuery unreserved (consentTarget crypto session).params := by
  have segments : (consentTarget crypto session).segments =
      [] :: consentSegments.map String.toList := rfl
  rw [consentText, String.toList_append, rooted_written, build_written, segments,
    path_rooted unreserved _ (by simp [consentSegments])]
  rfl

/-- The URL is parsed as its origin and the text behind it. -/
theorem url_parsed (crypto : OAuthCrypto) (session : OAuthSession) :
    HttpLibClient.parseUrl (authRequestUrl crypto session) =
      .ok (consentOrigin, consentText crypto session) := by
  have parts : consentOrigin = String.ofList ("https".toList ++ "://".toList ++
      "accounts.google.com".toList) := by
    decide +kernel
  obtain ⟨path, begins⟩ : ∃ path, consentText crypto session = String.ofList ('/' :: path) := by
    refine ⟨"o/oauth2/v2/auth".toList ++
      (QueryBuilder.mk (consentParams crypto session)).build.toList, ?_⟩
    have literal : rooted consentSegments = "/o/oauth2/v2/auth" := by decide +kernel
    apply String.toList_injective
    rw [consentText, literal]
    simp
  rw [url_pieces, begins, parts, ← String.ofList_append]
  exact HttpLibClient.parse_origin _ _ _ (by decide) (by decide)

/-! ## The pieces are bytes -/

/-- A text whose characters lie below 256 is one of bytes. -/
theorem ascii_bytes (text : String)
    (ascii : text.toList.all (fun char => char.toNat < 256) = true) : IsBytes text.toList := by
  intro char member
  simpa using List.all_eq_true.mp ascii char member

/-- A number is written in bytes. -/
theorem number_bytes (number : Nat) : IsBytes (toString number).toList := by
  intro char member
  have digit : char.isDigit = true := by
    apply Nat.isDigit_of_mem_toDigits (b := 10) (n := number) (by decide) (by decide)
    simpa [Nat.repr, toString] using member
  simp only [Char.isDigit, Bool.and_eq_true, decide_eq_true_eq] at digit
  have small : char.val.toNat ≤ 57 := digit.2
  exact lt_of_le_of_lt small (by decide)

/-- Two texts of bytes make one of bytes. -/
theorem joined_bytes (first second : String) (left : IsBytes first.toList)
    (right : IsBytes second.toList) : IsBytes (first ++ second).toList := by
  intro char member
  rw [String.toList_append, List.mem_append] at member
  exact member.elim (left char) (right char)

/-- An integer is written in bytes, with its sign. -/
theorem integer_bytes (number : Int) : IsBytes (toString number).toList := by
  cases number with
  | ofNat value => exact number_bytes value
  | negSucc value => exact joined_bytes "-" _ (ascii_bytes "-" (by decide)) (number_bytes _)

/-- The base64url alphabet is of bytes. -/
theorem alphabet_bytes (bytes : List UInt8) :
    IsBytes (String.ofList (base64UrlEncode bytes)).toList := by
  have small : base64UrlAlphabet.all (fun char => char.toNat < 256) = true := by decide
  intro char member
  rw [String.toList_ofList] at member
  simpa using List.all_eq_true.mp small char (TokenEncoding.encoded_in_alphabet bytes char member)

/-- A random string is of letters and digits. -/
theorem random_bytes (draws : List (Fin 62)) : IsBytes (generateRandomString draws).toList := by
  have small : ∀ draw : Fin 62, (charset.getD draw.val '\x00').toNat < 256 := by
    decide +kernel
  intro char member
  rw [generateRandomString, String.toList_ofList] at member
  obtain ⟨draw, -, rfl⟩ := List.mem_map.mp member
  exact small draw

/-- A session whose client id is bytes has a page of bytes. -/
theorem target_bytes {ω : Type} (crypto : OAuthCrypto) (run : OAuthRun ω)
    (clientId codeVerifier : String) (port : Int) (bytes : IsBytes clientId.toList) :
    (consentTarget crypto (sessionOf run clientId codeVerifier port)).IsBytes := by
  constructor
  · simp only [consentTarget, consentSegments, List.map_cons, List.map_nil, List.forall_mem_cons]
    decide
  · have redirect := joined_bytes "http://127.0.0.1:" _ (ascii_bytes _ (by decide))
      (integer_bytes port)
    have state := random_bytes run.stateDraws.toList
    have challenge := alphabet_bytes (crypto.sha256 (textBytes codeVerifier))
    simp only [consentTarget, asBytes, consentParams, List.map_cons, List.map_nil,
      List.forall_mem_cons, sessionOf, pkceChallengeS256]
    exact ⟨by decide, ⟨by decide, bytes⟩, ⟨by decide, redirect⟩, ⟨by decide, by decide⟩,
      ⟨by decide, state⟩, ⟨by decide, challenge⟩, by decide, by decide, by decide,
      fun _ none => absurd none List.not_mem_nil⟩

/-- The page that a run visits reads as its target. -/
theorem page_read {ω : Type} (crypto : OAuthCrypto) (run : OAuthRun ω)
    (clientId codeVerifier : String) (port : Int) (bytes : IsBytes clientId.toList) :
    readTarget (consentText crypto (sessionOf run clientId codeVerifier port)).toList =
      consentTarget crypto (sessionOf run clientId codeVerifier port) := by
  rw [text_written]
  exact target_read unreserved_reserves _ (List.cons_ne_nil _ _)
    (target_bytes crypto run clientId codeVerifier port bytes)

/-! ## The exchange -/

/-- A verifier is 43 characters, none of which a URL reserves. -/
theorem verifier_plain (drawn : Vector UInt8 32) :
    (String.ofList (base64UrlEncode drawn.toList)).length = 43 ∧
      ∀ char ∈ (String.ofList (base64UrlEncode drawn.toList)).toList, unreserved char = true := by
  constructor
  · rw [String.length_ofList, TokenEncoding.encode_is_sextets, List.length_map,
      Radix64.sextets_length]
    simp
  · have plain : base64UrlAlphabet.all unreserved = true := by decide
    intro char member
    rw [String.toList_ofList] at member
    exact List.all_eq_true.mp plain char (TokenEncoding.encoded_in_alphabet _ char member)

/-- What else an exchange sends. -/
theorem exchange_binds (session : OAuthSession) (code : String) :
    (session.exchangeParams code).find "redirect_uri" = some session.redirectUri ∧
      (session.exchangeParams code).find "code_verifier" = some session.codeVerifier ∧
      (session.exchangeParams code).find "grant_type" = some "authorization_code" := by
  simp only [OAuthSession.exchangeParams]
  refine ⟨?_, ?_, ?_⟩ <;> split <;> simp [OrderedMap.find_insert]

/-- A variable that counts as set has the text it was given. -/
theorem set_variable (value : Option String) (text : String) (set : setVariable value = some text) :
    value = some text :=
  (Option.filter_eq_some_iff.mp set).1

/-- A run that sends a code has opened the page of a session, and the form is that of the same
session. -/
theorem exchange_session {κ ω : Type} (engine : Engine) (crypto : OAuthCrypto)
    (items : SecItems κ ω) (apple : Bool) (run : OAuthRun ω) (keychain after : κ)
    (outcome : OAuthOutcome)
    (ran : initiateOAuthFlow engine crypto items apple run keychain = some (outcome, after))
    (form : OrderedMap String String) (sent : form ∈ outcome.requests) (code : String)
    (carried : form.find "code" = some code) :
    ∃ (clientId : String) (drawn : Vector UInt8 32) (port : Int) (flow : OAuthFlow),
      run.environment.clientId = some clientId ∧
      OAuthFlow.run {} run.actions = some flow ∧
      (sessionOf run clientId (String.ofList (base64UrlEncode drawn.toList)) port).tokenExchange
        flow = some (.ok form) ∧
      outcome.visited = some (authRequestUrl crypto
        (sessionOf run clientId (String.ofList (base64UrlEncode drawn.toList)) port)) := by
  cases named : setVariable run.environment.clientId with
  | none =>
    simp only [initiateOAuthFlow, named] at ran
    obtain ⟨rfl, -⟩ := Prod.mk.inj (Option.some.inj ran)
    cases sent
  | some clientId =>
    have refreshes : form ∉ (cachedRefresh items apple run clientId keychain).toList.map
        (refreshForm run clientId) := by
      intro member
      obtain ⟨token, -, rfl⟩ := List.mem_map.mp member
      rw [refreshForm, (refresh_form clientId _ token).2.2] at carried
      cases carried
    rcases run_cases engine crypto items apple run clientId named keychain with
      ⟨token, access, found, silent⟩ | browser
    · rw [silent] at ran
      obtain ⟨rfl, -⟩ := Prod.mk.inj (Option.some.inj ran)
      rw [found] at refreshes
      exact absurd sent refreshes
    · rw [browser] at ran
      obtain ⟨⟨ended, left⟩, flowed, rest⟩ := Option.map_eq_some_iff.mp ran
      obtain ⟨rfl, rfl⟩ := Prod.mk.inj rest
      have late := (List.mem_append.mp sent).resolve_left refreshes
      rcases browser_cases engine crypto items apple run clientId with waits |
        ⟨error, visited, fails⟩ | ⟨drawn, port, flow, params, result, -, -, flows, exchange, ends⟩
      · rw [waits] at flowed
        cases flowed
      · rw [fails] at flowed
        obtain ⟨rfl, -⟩ := Prod.mk.inj (Option.some.inj flowed)
        cases late
      · rw [ends] at flowed
        obtain ⟨rfl, -⟩ := Prod.mk.inj (Option.some.inj flowed)
        obtain rfl := List.mem_singleton.mp late
        exact ⟨clientId, drawn, port, flow, set_variable _ _ named, flows, exchange, rfl⟩

/-- Every code is sent with the client id and the redirect URI that the page was asked with,
and with the verifier that the page had the challenge of. The page's URL reads as exactly its
parameters. The code is the one that the flow holds at the end, and it is sent only when the
state that the flow holds then is the one of the URL. -/
theorem consent_binds_exchange {κ ω : Type} (engine : Engine) (crypto : OAuthCrypto)
    (items : SecItems κ ω) (apple : Bool) (run : OAuthRun ω) (keychain after : κ)
    (outcome : OAuthOutcome)
    (bytes : ∀ clientId, run.environment.clientId = some clientId → IsBytes clientId.toList)
    (ran : initiateOAuthFlow engine crypto items apple run keychain = some (outcome, after))
    (form : OrderedMap String String) (sent : form ∈ outcome.requests) (code : String)
    (carried : form.find "code" = some code) :
    ∃ (url text : String) (session : OAuthSession) (flow : OAuthFlow),
      outcome.visited = some url ∧ HttpLibClient.parseUrl url = .ok (consentOrigin, text) ∧
      readTarget text.toList = consentTarget crypto session ∧
      run.environment.clientId = some session.clientId ∧
      form.find "client_id" = some session.clientId ∧
      form.find "redirect_uri" = some session.redirectUri ∧
      form.find "code_verifier" = some session.codeVerifier ∧
      form.find "grant_type" = some "authorization_code" ∧
      session.codeVerifier.length = 43 ∧
      (∀ char ∈ session.codeVerifier.toList, unreserved char = true) ∧
      OAuthFlow.run {} run.actions = some flow ∧ flow.captured.state = session.state ∧
      flow.captured.code = code ∧ code ≠ "" := by
  obtain ⟨clientId, drawn, port, flow, named, flows, exchange, visited⟩ :=
    exchange_session engine crypto items apple run keychain after outcome ran form sent code carried
  obtain ⟨state, present, found⟩ := exchange_checked _ flow form exchange
  obtain rfl := Option.some.inj (found.symm.trans carried)
  have shape := form_of_exchange _ flow form exchange
  obtain ⟨-, client, -⟩ := exchange_form (sessionOf run clientId
    (String.ofList (base64UrlEncode drawn.toList)) port) flow.captured.code
  obtain ⟨redirect, verifier, grant⟩ := exchange_binds (sessionOf run clientId
    (String.ofList (base64UrlEncode drawn.toList)) port) flow.captured.code
  rw [← shape] at client redirect verifier grant
  obtain ⟨length, plain⟩ := verifier_plain drawn
  exact ⟨_, _, _, flow, visited, url_parsed crypto _,
    page_read crypto run clientId _ port (bytes clientId named), named, client, redirect, verifier,
    grant, length, plain, flows, state, rfl, present⟩

/-- A client id that a URL would cut at its marks. -/
def markedRun : OAuthRun Unit := redirectedRun "a&b=c#d" "work tokens"

/-- The client id that is sent for the code is the one of the page, marks and all. -/
theorem marked_client_bound : ∃ outcome after url text form,
    initiateOAuthFlow tokenEngine zeroDigest memoryItems true markedRun emptyKeychain =
      some (outcome, after) ∧ form ∈ outcome.requests ∧ outcome.visited = some url ∧
    HttpLibClient.parseUrl url = .ok (consentOrigin, text) ∧
    ("client_id".toList, "a&b=c#d".toList) ∈ (readTarget text.toList).params ∧
    form.find "client_id" = some "a&b=c#d" := by
  have ran : ∃ outcome after form, initiateOAuthFlow tokenEngine zeroDigest memoryItems true
      markedRun emptyKeychain = some (outcome, after) ∧ form ∈ outcome.requests ∧
      form.find "code" = some "granted" := ⟨_, _, _, rfl, List.mem_singleton_self _, rfl⟩
  obtain ⟨outcome, after, form, went, sent, carried⟩ := ran
  have bytes : ∀ clientId, markedRun.environment.clientId = some clientId →
      IsBytes clientId.toList := by
    rintro clientId ⟨⟩
    exact ascii_bytes _ (by decide)
  obtain ⟨url, text, session, flow, visited, parsed, read, named, client, -⟩ :=
    consent_binds_exchange tokenEngine zeroDigest memoryItems true markedRun emptyKeychain after
      outcome bytes went form sent "granted" carried
  have same : session.clientId = "a&b=c#d" := (Option.some.inj named).symm
  refine ⟨outcome, after, url, text, form, went, sent, visited, parsed, ?_, ?_⟩
  · rw [read, ← same]
    simp [consentTarget, asBytes, consentParams]
  · rw [client, same]

end GoogleCalendar.ConsentPage
