import GoogleCalendar.Json
import GoogleCalendar.Library.Rfc3339

/-!
# What the extension takes from the database engine and its JSON library

SQL values, the exceptions the code raises, and the functions it calls that are
not modelled: the printed form of a timestamp, the cast from text to a timestamp,
the length of an interval in microseconds, and the JSON parser. These functions
are parameters. What the extension relies on is stated here as named properties
of them, each the documented behaviour of the engine or of the JSON library, and
no more of it than the results use.
-/

namespace GoogleCalendar

open Library CivilTime Rfc3339

/-- A SQL value of one of the events schema's types. A typed NULL is `null`. -/
inductive Value where
  | null
  | varchar (text : String)
  | boolean (value : Bool)
  | bigint (value : Int)
  | timestampTz (micros : Int)
  deriving DecidableEq, Repr, Inhabited

/-- Two's complement reduction to 64 bits. -/
def int64 (value : Int) : Int := Int.bmod value (2 ^ 64)

/-- `timestamp_t::infinity()`, the largest 64-bit integer. -/
def infinity : Int := 9223372036854775807

/-- `timestamp_t::ninfinity()`, its negation. -/
def ninfinity : Int := -9223372036854775807

/-- The exceptions that leave the extension's functions. -/
inductive Exception where
  | invalidInput (message : String)
  | binder (message : String)
  | catalog (message : String)
  | notImplemented (message : String)
  | ioError (message : String)
  /-- `nlohmann::json::exception`. -/
  | json (error : JsonError)
  /-- `CalendarApiException`. -/
  | api (statusCode : Int) (apiMessage : String)
  /-- `CalendarParseException`. -/
  | parseError (message : String)
  deriving DecidableEq, Repr

namespace Exception

/-- The text of an exception. -/
def what : Exception → String
  | invalidInput message => message
  | binder message => message
  | catalog message => message
  | notImplemented message => message
  | ioError message => message
  | json error => error.what
  | api statusCode apiMessage =>
      "Google Calendar API error (" ++ toString statusCode ++ "): " ++ apiMessage
  | parseError message => message

end Exception

/-- A SQL INTERVAL. -/
structure Interval where
  months : Int
  days : Int
  micros : Int
  deriving DecidableEq, Repr

/-- The engine's and the JSON library's functions the extension calls. -/
structure Engine where
  /-- `Timestamp::ToString`. -/
  timestampToString : Int → String
  /-- `Value(raw).DefaultTryCastAs(LogicalType::TIMESTAMP_TZ)`. -/
  castTimestampTz : String → Option Int
  /-- `Interval::GetMicro`. -/
  getMicro : Interval → Except Exception Int
  /-- `json::parse`, with `none` for the texts it throws on. -/
  parse : String → Option Json
  /-- The exception that `json::parse` throws on such a text. -/
  parseError : String → JsonError := fun _ => ⟨101, "parse error"⟩

namespace Engine

/-- Finite timestamps print as a civil date, a blank and a time of day, and the
two infinite ones by name. -/
structure PrintsTimestamps (engine : Engine) : Prop where
  finite : ∀ micros, ninfinity < micros → micros < infinity →
    engine.timestampToString micros = timestampText micros
  infinity : engine.timestampToString infinity = "infinity"
  ninfinity : engine.timestampToString ninfinity = "-infinity"

/-- The instants of the years 1 to 9999 are finite. -/
theorem PrintsTimestamps.year {engine : Engine} (prints : engine.PrintsTimestamps) (micros : Int)
    (bounded : FourDigitYear micros) :
    engine.timestampToString micros = timestampText micros := by
  apply prints.finite
  · simp only [FourDigitYear, GoogleCalendar.ninfinity] at bounded ⊢
    omega
  · simp only [FourDigitYear, GoogleCalendar.infinity] at bounded ⊢
    omega

/-- Every timestamp that a SQL value can hold prints as ASCII. -/
theorem PrintsTimestamps.ascii {engine : Engine} (prints : engine.PrintsTimestamps) (micros : Int)
    (above : GoogleCalendar.ninfinity ≤ micros) (below : micros ≤ GoogleCalendar.infinity) :
    ∀ char ∈ (engine.timestampToString micros).toList, char.toNat < 128 := by
  rcases Int.lt_or_eq_of_le above with inside | rfl
  · rcases Int.lt_or_eq_of_le below with finite | rfl
    · rw [prints.finite micros inside finite]
      exact timestamp_text_ascii micros
    · rw [prints.infinity]
      exact ascii_text _ (by decide)
  · rw [prints.ninfinity]
    exact ascii_text _ (by decide)

/-- The parser accepts UTF-8 only, so what it returns can be serialised. -/
def ParsesUtf8 (engine : Engine) : Prop :=
  ∀ text json, engine.parse text = some json → json.Dumps

/-- The cast reads RFC 3339: a full-date is the midnight of its day in UTC, and a
date-time is its instant. -/
structure CastsTimes (engine : Engine) : Prop where
  date : ∀ text day, readDate text = some day →
    engine.castTimestampTz text = some (day * dayMicros)
  dateTime : ∀ text reading, readDateTime text = some reading →
    engine.castTimestampTz text = some reading.instant

/-- A dumped value parses to itself. -/
def RoundTrips (engine : Engine) (json : Json) : Prop :=
  engine.parse json.dump = some json

/-- An engine that prints timestamps as documented and reads the listed texts. -/
def reading (times : List (String × Int)) (documents : List (String × Json)) : Engine where
  timestampToString micros :=
    if micros = GoogleCalendar.infinity then "infinity"
    else if micros = GoogleCalendar.ninfinity then "-infinity"
    else timestampText micros
  castTimestampTz text := times.lookup text
  getMicro interval :=
    .ok (interval.months * (30 * dayMicros) + interval.days * dayMicros + interval.micros)
  parse text := documents.lookup text

/-- An engine that reads given texts prints timestamps as documented. -/
theorem reading_prints (times : List (String × Int)) (documents : List (String × Json)) :
    (reading times documents).PrintsTimestamps where
  finite micros above below := by
    simp [reading, ne_of_lt below, ne_of_gt above]
  infinity := rfl
  ninfinity := rfl

/-- An engine that prints and casts timestamps as documented and parses the
listed documents. -/
def documented (documents : List (String × Json)) : Engine where
  timestampToString := (reading [] documents).timestampToString
  castTimestampTz text :=
    match readDate text with
    | some day => some (day * dayMicros)
    | none => (readDateTime text).map DateTime.instant
  getMicro := (reading [] documents).getMicro
  parse text := documents.lookup text

/-- Documents that can be serialised are what such an engine parses. -/
theorem listed_parses (documents : List (String × Json))
    (each : ∀ document ∈ documents, document.2.Dumps) (text : String) (json : Json)
    (listed : documents.lookup text = some json) : json.Dumps := by
  obtain ⟨before, after, rfl, -⟩ := List.lookup_eq_some_iff.mp listed
  exact each (text, json) (List.mem_append_right before (List.mem_cons_self ..))

/-- So does one that casts as documented. -/
theorem documented_prints (documents : List (String × Json)) :
    (documented documents).PrintsTimestamps where
  finite := (reading_prints [] documents).finite
  infinity := rfl
  ninfinity := rfl

/-- It casts times as documented. -/
theorem documented_casts (documents : List (String × Json)) :
    (documented documents).CastsTimes where
  date text day read := by simp [documented, read]
  dateTime text reading read := by
    have longer := (read_date_time_date text reading read).2
    cases date : readDate text with
    | none => simp [documented, date, read]
    | some day =>
      have length := read_date_length text.toList day date
      omega

end Engine

namespace Value

/-- `Value::IsNull`. -/
def isNull : Value → Bool
  | null => true
  | _ => false

/-- `ToString()`. Only VARCHAR values reach it: the binder casts every written
column to its schema type. -/
def toText (engine : Engine) : Value → String
  | null => "NULL"
  | varchar text => text
  | boolean value => if value then "true" else "false"
  | bigint value => toString value
  | timestampTz micros => engine.timestampToString micros ++ "+00"

/-- `BooleanValue::Get`, called on BOOLEAN values only. -/
def getBoolean : Value → Bool
  | boolean value => value
  | _ => false

/-- `GetValue<timestamp_tz_t>().value`, called on TIMESTAMPTZ values only. -/
def getTimestamp : Value → Int
  | timestampTz micros => micros
  | _ => 0

/-- `DefaultTryCastAs(LogicalType::TIMESTAMP_TZ)` on a value that is not NULL. -/
def tryCastTimestampTz (engine : Engine) : Value → Option Int
  | timestampTz micros => some micros
  | varchar text => engine.castTimestampTz text
  | _ => none

end Value

end GoogleCalendar
