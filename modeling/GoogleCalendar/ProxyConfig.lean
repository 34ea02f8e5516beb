import GoogleCalendar.Engine
import Mathlib.Data.List.DropRight

/-!
# The proxy setting

The proxy is a host and a port, taken from a secret for `http` when there is one
and else from the settings of the connection. Its text is taken apart by a test
for a scheme, a loop over the slashes at the end, a splitter at colons and
`std::stoul`. The splitter belongs to the database engine and is a parameter.
-/

namespace GoogleCalendar

/-- `HttpProxyConfig`. -/
structure HttpProxyConfig where
  host : String := ""
  port : Nat := 0
  username : String := ""
  password : String := ""
  deriving DecidableEq, Repr

/-- What `std::stoul` throws. -/
inductive StoulError where
  | invalidArgument
  | outOfRange
  deriving DecidableEq, Repr

/-- `std::isspace` in the C locale. -/
def isSpace (char : Char) : Bool := char = ' ' || (9 ≤ char.toNat && char.toNat ≤ 13)

/-- The sign in front of a number, when there is one, and what follows it. -/
def readSign : List Char → Bool × List Char
  | '-' :: rest => (true, rest)
  | '+' :: rest => (false, rest)
  | rest => (false, rest)

/-- `std::stoul`: white space, a sign, and the digits up to the first other
character. A number with a minus sign is negated in 64 bits. -/
def stoul (text : List Char) : Except StoulError Nat :=
  let signed := readSign (text.dropWhile isSpace)
  let digits := signed.2.takeWhile Char.isDigit
  if digits = [] then .error .invalidArgument
  else
    let value := Nat.ofDigitChars 10 digits 0
    if 2 ^ 64 ≤ value then .error .outOfRange
    else .ok (if signed.1 then (2 ^ 64 - value) % 2 ^ 64 else value)

namespace HttpProxyConfig

/-- The text behind the scheme and the default port. -/
def withoutScheme (proxyValue : List Char) : List Char × Nat :=
  if "http://".toList.isPrefixOf proxyValue then (proxyValue.drop 7, 80)
  else if "https://".toList.isPrefixOf proxyValue then (proxyValue.drop 8, 443)
  else (proxyValue, 80)

/-- `sanitized_proxy_value` and the default port. -/
def sanitize (proxyValue : List Char) : List Char × Nat :=
  let stripped := withoutScheme proxyValue
  (stripped.1.rdropWhile (· = '/'), stripped.2)

/-- The error of a port that is no number. -/
def portError (proxyValue : String) : Exception :=
  .invalidInput ("Failed to parse port from http_proxy '" ++ proxyValue ++ "'")

/-- The error of a value that is no host and port. -/
def hostAndPortError (proxyValue : String) : Exception :=
  .invalidInput ("Failed to parse http_proxy '" ++ proxyValue ++ "' into a host and port")

variable (split : List Char → List (List Char))

/-- The outputs come back with the outcome: as they were, when it throws. -/
def parseHttpProxyHost (proxyValue hostnameOut : String) (portOut : Nat) :
    Except Exception Unit × String × Nat :=
  let sanitized := sanitize proxyValue.toList
  match split sanitized.1 with
  | [host] => (.ok (), String.ofList host, sanitized.2)
  | [host, portText] =>
    match stoul portText with
    | .error _ => (.error (portError proxyValue), hostnameOut, portOut)
    | .ok val =>
      if 65535 < val then (.error (portError proxyValue), hostnameOut, portOut)
      else (.ok (), String.ofList host, val)
  | _ => (.error (hostAndPortError proxyValue), hostnameOut, portOut)

/-- The values of a secret for `http` that are set. -/
structure HttpSecret where
  httpProxy : Option String
  httpProxyUsername : Option String
  httpProxyPassword : Option String
  deriving DecidableEq, Repr

/-- The settings of the connection as texts. -/
structure HttpSettings where
  httpProxy : String
  httpProxyUsername : String
  httpProxyPassword : String
  deriving DecidableEq, Repr

/-- The configuration of a proxy text; an empty one configures nothing. -/
def ofProxyValue (proxyValue username password : String) : Except Exception HttpProxyConfig :=
  if proxyValue = "" then .ok {}
  else
    match parseHttpProxyHost split proxyValue "" 0 with
    | (.error error, _, _) => .error error
    | (.ok (), host, port) => .ok ⟨host, port, username, password⟩

/-- `GetHttpProxyConfig`. -/
def getHttpProxyConfig (secret : Option HttpSecret) (settings : HttpSettings) :
    Except Exception HttpProxyConfig :=
  match secret with
  | some found =>
    match found.httpProxy with
    | some proxyValue => ofProxyValue split proxyValue (found.httpProxyUsername.getD "")
        (found.httpProxyPassword.getD "")
    | none => .ok {}
  | none => ofProxyValue split settings.httpProxy settings.httpProxyUsername
      settings.httpProxyPassword

end HttpProxyConfig

end GoogleCalendar
