import GoogleCalendar.Client
import GoogleCalendar.EventMapping

/-!
# The scan of a calendar

A scan narrows the API call by the bounds it finds in the filters on `start`,
fetches pages lazily and cuts their items into chunks of at most one vector.
The filters are bound expressions; a value that can be folded is one that does
not read the row, and folding it may fail.

The loop of `CalendarScan` runs with fuel, one unit for each pass. A scan that
runs out of fuel is told apart from one that ends.
-/

namespace GoogleCalendar

open Library CivilTime EventMapping

/-- The comparison types of bound expressions. -/
inductive ExpressionType where
  | equal
  | notEqual
  | lessThan
  | greaterThan
  | lessThanOrEqualTo
  | greaterThanOrEqualTo
  | distinctFrom
  | notDistinctFrom
  deriving DecidableEq, Repr

/-- One side of a comparison over rows of type `Row`: a column of the scan, an
expression that does not read the row and folds to an outcome, or any other. -/
inductive Operand (Row : Type) where
  | columnRef (columnIndex : Nat)
  | foldable (outcome : Except String Value)
  | computed (evaluate : Row → Value)

/-- A filter expression. Predicates the scan does not look into are given by
their truth on a row. -/
inductive Expression (Row : Type) where
  | comparison (type : ExpressionType) (left right : Operand Row)
  | between (input lower upper : Operand Row) (lowerInclusive upperInclusive : Bool)
  | conjunctionAnd (children : List (Expression Row))
  | other (holds : Row → Bool)

/-- The scan operator of a plan: the table columns it reads, by position. -/
structure LogicalGet where
  columnIds : List Nat
  names : List String

/-- `CalendarScanBindData`. -/
structure CalendarScanBindData where
  calendarId : String
  names : List String
  timeMin : String := ""
  timeMax : String := ""
  hasLower : Bool := false
  hasUpper : Bool := false
  deriving DecidableEq, Repr

/-- `MakeCalendarScanBindData`. -/
def makeCalendarScanBindData (calendarId : String) (names : List String) : CalendarScanBindData :=
  { calendarId := calendarId, names := names }

/-- `ONE_DAY_MICROS`. -/
def oneDayMicros : Int := 86400000000

namespace CalendarScan

variable {Row : Type}

/-- `FlipComparison`: the comparison with its sides exchanged. -/
def flipComparison : ExpressionType → ExpressionType
  | .greaterThan => .lessThan
  | .greaterThanOrEqualTo => .lessThanOrEqualTo
  | .lessThan => .greaterThan
  | .lessThanOrEqualTo => .greaterThanOrEqualTo
  | other => other

/-- `FormatWithBuffer`. -/
def formatWithBuffer (engine : Engine) (val : Value) (bufferMicros : Int) : String :=
  replaceChar ' ' 'T' (engine.timestampToString (int64 (val.getTimestamp + bufferMicros))) ++ "Z"

/-- Whether an operand is the `start` event column of this scan. -/
def isStartColumn (get : LogicalGet) : Operand Row → Bool
  | .columnRef columnIndex =>
    match get.columnIds[columnIndex]? with
    | some baseIdx => get.names[baseIdx]? = some "start"
    | none => false
  | _ => false

/-- Fold an operand to a timestamp. Fails for what reads the row, for an
evaluation that throws, for NULL and for a value without a cast. -/
def tryFoldTimestamp (engine : Engine) : Operand Row → Option Value
  | .foldable (.ok folded) =>
      if folded.isNull then none else (folded.tryCastTimestampTz engine).map .timestampTz
  | _ => none

/-- `ApplyLowerBound`. -/
def applyLowerBound (engine : Engine) (ts : Value) (bindData : CalendarScanBindData) :
    CalendarScanBindData :=
  { bindData with timeMin := formatWithBuffer engine ts (-oneDayMicros), hasLower := true }

/-- `ApplyUpperBound`. -/
def applyUpperBound (engine : Engine) (ts : Value) (bindData : CalendarScanBindData) :
    CalendarScanBindData :=
  { bindData with timeMax := formatWithBuffer engine ts oneDayMicros, hasUpper := true }

/-- The bounds that `start <op> ts` gives; other comparison types give none. -/
def applyComparison (engine : Engine) (op : ExpressionType) (ts : Value)
    (bindData : CalendarScanBindData) : CalendarScanBindData :=
  let lowered :=
    if op = .greaterThan ∨ op = .greaterThanOrEqualTo ∨ op = .equal then
      applyLowerBound engine ts bindData
    else bindData
  if op = .lessThan ∨ op = .lessThanOrEqualTo ∨ op = .equal then
    applyUpperBound engine ts lowered
  else lowered

/-- The binary comparison case: `start <op> value` or `value <op> start`. -/
def extractComparison (engine : Engine) (get : LogicalGet) (type : ExpressionType)
    (left right : Operand Row) (bindData : CalendarScanBindData) : CalendarScanBindData :=
  if type = .notEqual ∨ type = .distinctFrom ∨ type = .notDistinctFrom then bindData
  else if isStartColumn get left then
    match tryFoldTimestamp engine right with
    | some ts => applyComparison engine type ts bindData
    | none => bindData
  else if isStartColumn get right then
    match tryFoldTimestamp engine left with
    | some ts => applyComparison engine (flipComparison type) ts bindData
    | none => bindData
  else bindData

/-- The BETWEEN case. Each side is folded on its own. -/
def extractBetween (engine : Engine) (get : LogicalGet) (input lower upper : Operand Row)
    (bindData : CalendarScanBindData) : CalendarScanBindData :=
  if isStartColumn get input then
    let lowered :=
      match tryFoldTimestamp engine lower with
      | some ts => applyLowerBound engine ts bindData
      | none => bindData
    match tryFoldTimestamp engine upper with
    | some ts => applyUpperBound engine ts lowered
    | none => lowered
  else bindData

mutual

/-- Extract a hint from one filter expression on `start`. -/
def extractTimeBound (engine : Engine) (get : LogicalGet) :
    Expression Row → CalendarScanBindData → CalendarScanBindData
  | .conjunctionAnd children, bindData => extractTimeBounds engine get children bindData
  | .between input lower upper _ _, bindData => extractBetween engine get input lower upper bindData
  | .comparison type left right, bindData => extractComparison engine get type left right bindData
  | .other _, bindData => bindData

/-- The loop over the conjuncts of an AND, which is also the loop over filters. -/
def extractTimeBounds (engine : Engine) (get : LogicalGet) :
    List (Expression Row) → CalendarScanBindData → CalendarScanBindData
  | [], bindData => bindData
  | expr :: rest, bindData =>
      extractTimeBounds engine get rest (extractTimeBound engine get expr bindData)

end

/-- `pushdown_complex_filter`: take hints from the filters and retain them all. -/
def calendarComplexFilter (engine : Engine) (get : LogicalGet) (filters : List (Expression Row))
    (bindData : CalendarScanBindData) : CalendarScanBindData :=
  extractTimeBounds engine get filters bindData

end CalendarScan

/-- The fields of the catalog that a scan without a bound on `start` reads. -/
structure DefaultWindow where
  hasDefaultWindow : Bool := false
  defaultIsDynamic : Bool := false
  defaultWindowLength : Interval := ⟨0, 0, 0⟩
  defaultWindowStart : Int := 0
  defaultWindowEnd : Int := 0
  deriving DecidableEq, Repr

/-- Whether a number fits in 64 bits. -/
def fitsInt64 (value : Int) : Bool :=
  -9223372036854775808 ≤ value && value ≤ 9223372036854775807

/-- What fits lies between the ends of the signed range. -/
theorem fits_iff (value : Int) :
    fitsInt64 value = true ↔ -9223372036854775808 ≤ value ∧ value ≤ 9223372036854775807 := by
  simp only [fitsInt64, Bool.and_eq_true, decide_eq_true_eq]

/-- A sum in 64 bits is the sum when it fits. -/
theorem int64_fits (value : Int) (fits : fitsInt64 value = true) : int64 value = value := by
  rw [fits_iff] at fits
  simp only [int64, Int.bmod_def]
  omega

/-- An instant of a year of four digits fits. -/
theorem year_fits (value : Int) (bounded : FourDigitYear value) : fitsInt64 value = true := by
  rw [fits_iff]
  simp only [FourDigitYear] at bounded
  omega

/-- A column of the scan's output: the row id or a schema column by position. -/
inductive ColumnId where
  | rowId
  | schema (index : Nat)
  deriving DecidableEq, Repr

/-- `CalendarScanGlobalState`. -/
structure CalendarScanGlobalState where
  baseQuery : QueryBuilder
  nextPageToken : String := ""
  items : List Json := []
  itemIndex : Nat := 0
  finished : Bool := false
  columnIds : List ColumnId

namespace CalendarScan

variable {σ : Type} (engine : Engine) (client : GoogleCalendarClient σ)
  (bindData : CalendarScanBindData)

/-- The items of a list response; a response without an array of them has none. -/
def responseItems (response : Json) : List Json :=
  match response.find "items" with
  | some (.array elements) => elements
  | _ => []

/-- `FetchPage`. -/
def fetchPage (gstate : CalendarScanGlobalState) (state : σ) :
    Except Exception CalendarScanGlobalState × σ :=
  match EventsResource.list engine client bindData.calendarId
      ⟨gstate.baseQuery, gstate.nextPageToken⟩ state with
  | (.error error, after) => (.error error, after)
  | (.ok response, after) =>
    match response.valueOr "nextPageToken" "" Json.getString with
    | .error error => (.error (.json error), after)
    | .ok token =>
        (.ok { gstate with nextPageToken := token, items := responseItems response,
                           itemIndex := 0 },
          after)

/-- The bounds of the API call: those extracted from the filters, else the
default window, padded by a day on both sides like them. -/
def effectiveBounds (window : DefaultWindow) (now : Int) :
    Except Exception (Option String × Option String) :=
  if !bindData.hasLower && !bindData.hasUpper then
    if !window.hasDefaultWindow then
      .error (.binder ("google_calendar scan requires an explicit time bound on \"start\" (e.g. " ++
        "WHERE start >= TIMESTAMPTZ '2026-06-01 00:00:00+00' AND start < TIMESTAMPTZ " ++
        "'2026-07-01 00:00:00+00'), or ATTACH with default_window_length / default_window_start " ++
        "/ default_window_end to enable a default window"))
    else do
      let (lo, hi) ←
        if window.defaultIsDynamic then do
          let width ← engine.getMicro window.defaultWindowLength
          let half := width.tdiv 2
          pure (int64 (now - half), int64 (now + half))
        else pure (window.defaultWindowStart, window.defaultWindowEnd)
      pure (some (formatWithBuffer engine (.timestampTz lo) (-oneDayMicros)),
        some (formatWithBuffer engine (.timestampTz hi) oneDayMicros))
  else
    .ok (if bindData.hasLower then some bindData.timeMin else none,
      if bindData.hasUpper then some bindData.timeMax else none)

/-- The query of every page of a scan with the given bounds. -/
def baseQuery (timeMin timeMax : Option String) : QueryBuilder :=
  let fixed :=
    (((({} : QueryBuilder).add "singleEvents" "true").add "orderBy" "startTime").add
      "maxResults" "2500")
  let lowered := match timeMin with
    | some text => fixed.add "timeMin" text
    | none => fixed
  match timeMax with
  | some text => lowered.add "timeMax" text
  | none => lowered

/-- Build the scan state and fetch its first page. -/
def calendarScanInitGlobal (window : DefaultWindow) (now : Int) (columnIds : List ColumnId)
    (state : σ) : Except Exception CalendarScanGlobalState × σ :=
  match effectiveBounds engine bindData window now with
  | .error error => (.error error, state)
  | .ok (timeMin, timeMax) =>
      fetchPage engine client bindData
        { baseQuery := baseQuery timeMin timeMax, columnIds := columnIds } state

/-- The value of one output column for an event. -/
def scanValue (event : Json) : ColumnId → Value
  | .rowId => jsonString event "id"
  | .schema index => columnValue engine event bindData.calendarId (bindData.names.getD index "")

/-- The output row of an event. -/
def scanRow (columnIds : List ColumnId) (event : Json) : List Value :=
  columnIds.map (scanValue engine bindData event)

/-- The loop of `CalendarScan` with the rows put out so far. -/
def scanLoop (vectorSize : Nat) : Nat → List (List Value) → CalendarScanGlobalState → σ →
    Option (Except Exception (List (List Value) × CalendarScanGlobalState) × σ)
  | 0, _, _, _ => none
  | fuel + 1, rows, gstate, state =>
    if rows.length < vectorSize ∧ gstate.finished = false then
      match gstate.items[gstate.itemIndex]? with
      | none =>
        if gstate.nextPageToken = "" then
          some (.ok (rows, { gstate with finished := true }), state)
        else
          match fetchPage engine client bindData gstate state with
          | (.error error, after) => some (.error error, after)
          | (.ok fetched, after) => scanLoop vectorSize fuel rows fetched after
      | some event =>
          scanLoop vectorSize fuel (rows ++ [scanRow engine bindData gstate.columnIds event])
            { gstate with itemIndex := gstate.itemIndex + 1 } state
    else some (.ok (rows, gstate), state)

/-- One call: the rows of the chunk and the state left. -/
def calendarScan (vectorSize fuel : Nat) (gstate : CalendarScanGlobalState) (state : σ) :
    Option (Except Exception (List (List Value) × CalendarScanGlobalState) × σ) :=
  scanLoop engine client bindData vectorSize fuel [] gstate state

end CalendarScan

end GoogleCalendar
