import GoogleCalendar.CalendarScan

/-!
# Narrowing the API call loses no row

The filters are read twice: the engine evaluates them on every row it gets, and
the scan takes bounds for the API call from those that restrict `start`. Here
the second reading is first made abstract, as a list of hints, each a bound on
`start`. Extraction applies the hints of the filters one after the other, and a
later one overwrites an earlier one on its side.

A row that satisfies the filters meets every hint, so it does not matter which
one is left standing. The API compares true instants, which for an all-day event
differ from the midnights the row shows by its zone offset; the day of padding
is wider than any offset.
-/

namespace GoogleCalendar.ScanPushdown

open Library CivilTime EventMapping CalendarScan

/-- The order of two values of one type, and nothing for NULL. A side that is
not a TIMESTAMPTZ beside one that is has been cast by the binder. -/
def valueOrder (engine : Engine) : Value → Value → Option Ordering
  | .null, _ => none
  | _, .null => none
  | .varchar left, .varchar right => some (compare left right)
  | .boolean left, .boolean right => some (compare left right)
  | .bigint left, .bigint right => some (compare left right)
  | left, right =>
    match left.tryCastTimestampTz engine, right.tryCastTimestampTz engine with
    | some first, some second => some (compare first second)
    | _, _ => none

/-- The orders for which an ordering comparison is true. -/
def accepts : ExpressionType → Ordering → Bool
  | .equal, order => order = .eq
  | .notEqual, order => order ≠ .eq
  | .lessThan, order => order = .lt
  | .greaterThan, order => order = .gt
  | .lessThanOrEqualTo, order => order ≠ .gt
  | .greaterThanOrEqualTo, order => order ≠ .lt
  | .distinctFrom, order => order ≠ .eq
  | .notDistinctFrom, order => order = .eq

/-- Whether a comparison is true. With a NULL side only the two comparisons that
treat NULL as a value can be. -/
def comparisonHolds (engine : Engine) (type : ExpressionType) (left right : Value) : Bool :=
  match valueOrder engine left right with
  | some order => accepts type order
  | none =>
    match type with
    | .distinctFrom => left.isNull != right.isNull
    | .notDistinctFrom => left.isNull && right.isNull
    | _ => false

variable (engine : Engine) (get : LogicalGet) (calendarId : String)

/-- The value an operand has on the row of an event. A column past the schema is
the row id, and an evaluation that throws makes no filter true. -/
def operandValue (event : Json) : Operand Json → Value
  | .columnRef columnIndex =>
    match get.columnIds[columnIndex]? with
    | some baseIdx =>
      match get.names[baseIdx]? with
      | some name => columnValue engine event calendarId name
      | none => jsonString event "id"
    | none => .null
  | .foldable (.ok folded) => folded
  | .foldable (.error _) => .null
  | .computed evaluate => evaluate event

mutual

/-- Whether a filter is true on the row of an event. -/
def holds (event : Json) : Expression Json → Bool
  | .comparison type left right =>
      comparisonHolds engine type (operandValue engine get calendarId event left)
        (operandValue engine get calendarId event right)
  | .between input lower upper lowerInclusive upperInclusive =>
      let value := operandValue engine get calendarId event input
      comparisonHolds engine (if lowerInclusive then .greaterThanOrEqualTo else .greaterThan) value
          (operandValue engine get calendarId event lower) &&
        comparisonHolds engine (if upperInclusive then .lessThanOrEqualTo else .lessThan) value
          (operandValue engine get calendarId event upper)
  | .conjunctionAnd children => allHold event children
  | .other truth => truth event

/-- Whether every filter of a list is true on the row of an event. -/
def allHold (event : Json) : List (Expression Json) → Bool
  | [] => true
  | expr :: rest => holds event expr && allHold event rest

end

/-- A bound on `start` that a filter implies. -/
inductive Hint where
  | lower (instant : Int)
  | upper (instant : Int)
  deriving DecidableEq, Repr

/-- The folded literal behind a hint. -/
def Hint.instant : Hint → Int
  | lower instant => instant
  | upper instant => instant

/-- Whether a value of `start` is inside the bound. -/
def Hint.Meets (start : Int) : Hint → Prop
  | lower instant => instant ≤ start
  | upper instant => start ≤ instant

/-- The hints of `start <op> instant`. -/
def comparisonHints (op : ExpressionType) (instant : Int) : List Hint :=
  (if op = .greaterThan ∨ op = .greaterThanOrEqualTo ∨ op = .equal then [.lower instant] else []) ++
    (if op = .lessThan ∨ op = .lessThanOrEqualTo ∨ op = .equal then [.upper instant] else [])

/-- The hints that a folded operand gives, and none for one that does not fold. -/
def foldedHints (operand : Operand Json) (give : Int → List Hint) : List Hint :=
  match tryFoldTimestamp engine operand with
  | some ts => give ts.getTimestamp
  | none => []

mutual

/-- The hints of a filter, in the order they are extracted. -/
def hints : Expression Json → List Hint
  | .comparison type left right =>
      if isStartColumn get left then foldedHints engine right (comparisonHints type)
      else if isStartColumn get right then
        foldedHints engine left (comparisonHints (flipComparison type))
      else []
  | .between input lower upper _ _ =>
      if isStartColumn get input then
        foldedHints engine lower (fun instant => [.lower instant]) ++
          foldedHints engine upper (fun instant => [.upper instant])
      else []
  | .conjunctionAnd children => allHints children
  | .other _ => []

/-- The hints of a list of filters. -/
def allHints : List (Expression Json) → List Hint
  | [] => []
  | expr :: rest => hints expr ++ allHints rest

end

/-- Record one hint in the bind data. -/
def applyHint (bindData : CalendarScanBindData) : Hint → CalendarScanBindData
  | .lower instant => applyLowerBound engine (.timestampTz instant) bindData
  | .upper instant => applyUpperBound engine (.timestampTz instant) bindData

/-! Extraction applies the hints. -/

/-- A comparison applies its hints. -/
theorem comparison_applies_hints (op : ExpressionType) (ts : Value)
    (bindData : CalendarScanBindData) :
    applyComparison engine op ts bindData =
      (comparisonHints op ts.getTimestamp).foldl (applyHint engine) bindData := by
  cases op <;> rfl

/-- So does a comparison with the column on either side. -/
theorem extract_comparison_applies (type : ExpressionType) (left right : Operand Json)
    (bindData : CalendarScanBindData) :
    extractComparison engine get type left right bindData =
      (hints engine get (.comparison type left right)).foldl (applyHint engine) bindData := by
  simp only [extractComparison, hints, foldedHints]
  by_cases skipped : type = .notEqual ∨ type = .distinctFrom ∨ type = .notDistinctFrom
  · -- A comparison that is not an ordering one gives no hint, flipped or not.
    have flipped : flipComparison type = type := by
      rcases skipped with rfl | rfl | rfl <;> rfl
    have nothing : ∀ instant, comparisonHints type instant = [] := by
      rcases skipped with rfl | rfl | rfl <;> exact fun instant => rfl
    simp only [if_pos skipped, flipped, nothing]
    split_ifs
    · split <;> rfl
    · split <;> rfl
    · rfl
  · rw [if_neg skipped]
    split_ifs
    · cases tryFoldTimestamp engine right with
      | none => rfl
      | some ts => exact comparison_applies_hints engine type ts bindData
    · cases tryFoldTimestamp engine left with
      | none => rfl
      | some ts => exact comparison_applies_hints engine (flipComparison type) ts bindData
    · rfl

/-- So does a BETWEEN. -/
theorem extract_between_applies (input lower upper : Operand Json)
    (lowerInclusive upperInclusive : Bool) (bindData : CalendarScanBindData) :
    extractBetween engine get input lower upper bindData =
      (hints engine get (.between input lower upper lowerInclusive upperInclusive)).foldl
        (applyHint engine) bindData := by
  simp only [extractBetween, hints, foldedHints]
  split_ifs
  · rw [List.foldl_append]
    cases tryFoldTimestamp engine lower <;> cases tryFoldTimestamp engine upper <;> rfl
  · rfl

mutual

/-- Extraction from a filter applies its hints. -/
theorem extract_applies_hints (expr : Expression Json) (bindData : CalendarScanBindData) :
    extractTimeBound engine get expr bindData =
      (hints engine get expr).foldl (applyHint engine) bindData := by
  cases expr with
  | comparison type left right =>
    rw [extractTimeBound]
    exact extract_comparison_applies engine get type left right bindData
  | between input lower upper lowerInclusive upperInclusive =>
    rw [extractTimeBound]
    exact extract_between_applies engine get input lower upper lowerInclusive
      upperInclusive bindData
  | conjunctionAnd children =>
    rw [extractTimeBound, hints]
    exact extract_applies_all_hints children bindData
  | other truth => simp [extractTimeBound, hints]

/-- So does a list of filters. -/
theorem extract_applies_all_hints (filters : List (Expression Json))
    (bindData : CalendarScanBindData) :
    extractTimeBounds engine get filters bindData =
      (allHints engine get filters).foldl (applyHint engine) bindData := by
  cases filters with
  | nil => simp [extractTimeBounds, allHints]
  | cons expr rest =>
    rw [extractTimeBounds, allHints, List.foldl_append, extract_applies_hints expr bindData]
    exact extract_applies_all_hints rest _

end

/-- The hints of two lists, one after the other. -/
theorem all_hints_append (first second : List (Expression Json)) :
    allHints engine get (first ++ second) = allHints engine get first ++
      allHints engine get second := by
  induction first with
  | nil => simp [allHints]
  | cons expr rest ih => simp [allHints, ih, List.append_assoc]

/-- The bind data after any number of calls with a list of filters each. -/
def afterCalls (calls : List (List (Expression Json))) (bindData : CalendarScanBindData) :
    CalendarScanBindData :=
  calls.foldl (fun bindData filters => calendarComplexFilter engine get filters bindData) bindData

/-- Calls apply the hints of all their filters. -/
theorem calls_apply_hints (calls : List (List (Expression Json)))
    (bindData : CalendarScanBindData) :
    afterCalls engine get calls bindData =
      (allHints engine get calls.flatten).foldl (applyHint engine) bindData := by
  induction calls generalizing bindData with
  | nil => simp [afterCalls, allHints]
  | cons filters rest ih =>
    rw [List.flatten_cons, all_hints_append, List.foldl_append,
      ← extract_applies_all_hints engine get filters bindData]
    exact ih _

/-- Every bound in the bind data was made by one of the hints. -/
structure Bounded (given : List Hint) (bindData : CalendarScanBindData) : Prop where
  lower : bindData.hasLower = true → ∃ instant, Hint.lower instant ∈ given ∧
    bindData.timeMin = formatWithBuffer engine (.timestampTz instant) (-oneDayMicros)
  upper : bindData.hasUpper = true → ∃ instant, Hint.upper instant ∈ given ∧
    bindData.timeMax = formatWithBuffer engine (.timestampTz instant) oneDayMicros

/-- Recording a hint keeps every bound accounted for. -/
theorem apply_hint_bounded (given : List Hint) (bindData : CalendarScanBindData) (hint : Hint)
    (member : hint ∈ given) (bounded : Bounded engine given bindData) :
    Bounded engine given (applyHint engine bindData hint) := by
  cases hint with
  | lower instant => exact ⟨fun _ => ⟨instant, member, rfl⟩, bounded.upper⟩
  | upper instant => exact ⟨bounded.lower, fun _ => ⟨instant, member, rfl⟩⟩

/-- Hints that are given keep the bounds among the given. -/
theorem apply_hints_bounded (given taken : List Hint) (bindData : CalendarScanBindData)
    (members : ∀ hint ∈ taken, hint ∈ given) (bounded : Bounded engine given bindData) :
    Bounded engine given (taken.foldl (applyHint engine) bindData) := by
  induction taken generalizing bindData with
  | nil => exact bounded
  | cons hint rest ih =>
    exact ih _ (fun later member => members later (List.mem_cons_of_mem _ member))
      (apply_hint_bounded engine given bindData hint (members hint (List.mem_cons_self ..)) bounded)

/-! Every hint is implied by the filters. -/

/-- An operand that is the column `start` has the value of the event there. -/
theorem start_column_value (event : Json) (operand : Operand Json)
    (isStart : isStartColumn get operand = true) :
    operandValue engine get calendarId event operand = parseEventTime engine event "start" := by
  cases operand with
  | columnRef columnIndex =>
    cases column : get.columnIds[columnIndex]? with
    | none => simp [isStartColumn, column] at isStart
    | some baseIdx =>
      simp only [isStartColumn, column, decide_eq_true_eq] at isStart
      simp only [operandValue, column, isStart]
      rfl
  | foldable outcome => simp [isStartColumn] at isStart
  | computed evaluate => simp [isStartColumn] at isStart

/-- A folded operand is a value that casts to the instant it folds to. -/
theorem folded_value (event : Json) (operand : Operand Json) (ts : Value)
    (folded : tryFoldTimestamp engine operand = some ts) :
    (operandValue engine get calendarId event operand).tryCastTimestampTz engine =
      some ts.getTimestamp := by
  match operand with
  | .foldable (.ok value) =>
    simp only [tryFoldTimestamp] at folded
    split at folded
    · exact absurd folded (by simp)
    · obtain ⟨micros, cast, rfl⟩ := Option.map_eq_some_iff.mp folded
      simpa [operandValue, Value.getTimestamp] using cast
  | .foldable (.error message) => simp [tryFoldTimestamp] at folded
  | .columnRef columnIndex => simp [tryFoldTimestamp] at folded
  | .computed evaluate => simp [tryFoldTimestamp] at folded

/-- An event has a start or none. -/
theorem start_value_cases (event : Json) :
    parseEventTime engine event "start" = .null ∨
      ∃ start, parseEventTime engine event "start" = .timestampTz start := by
  simp only [parseEventTime]
  split
  · exact Or.inl rfl
  · split
    · split
      · exact Or.inl rfl
      · split
        · exact Or.inr ⟨_, rfl⟩
        · exact Or.inl rfl
    · exact Or.inl rfl

/-- The order of an instant and a value that casts to one. -/
theorem order_of_cast (start instant : Int) (value : Value)
    (cast : value.tryCastTimestampTz engine = some instant) :
    valueOrder engine (.timestampTz start) value = some (compare start instant) ∧
      valueOrder engine value (.timestampTz start) = some (compare instant start) := by
  cases value with
  | timestampTz micros =>
    obtain rfl : micros = instant := by simpa [Value.tryCastTimestampTz] using cast
    exact ⟨rfl, rfl⟩
  | varchar text =>
    simp only [Value.tryCastTimestampTz] at cast
    simp [valueOrder, Value.tryCastTimestampTz, cast]
  | null => simp [Value.tryCastTimestampTz] at cast
  | boolean value => simp [Value.tryCastTimestampTz] at cast
  | bigint value => simp [Value.tryCastTimestampTz] at cast

/-- A true comparison with an instant meets the hints it gives. -/
theorem accepted_meets (op : ExpressionType) (start instant : Int)
    (accepted : accepts op (compare start instant) = true) (hint : Hint)
    (given : hint ∈ comparisonHints op instant) : hint.Meets start := by
  cases op with
  | equal =>
    obtain rfl : start = instant := by simpa [accepts] using accepted
    rcases (by simpa [comparisonHints] using given : hint = .lower start ∨ hint = .upper start)
      with rfl | rfl
    · exact Int.le_refl start
    · exact Int.le_refl start
  | lessThan =>
    have below : start < instant := by simpa [accepts, compare_lt_iff_lt] using accepted
    obtain rfl : hint = .upper instant := by simpa [comparisonHints] using given
    exact Int.le_of_lt below
  | lessThanOrEqualTo =>
    have below : start ≤ instant := by simpa [accepts, compare_gt_iff_gt] using accepted
    obtain rfl : hint = .upper instant := by simpa [comparisonHints] using given
    exact below
  | greaterThan =>
    have above : instant < start := by simpa [accepts, compare_gt_iff_gt] using accepted
    obtain rfl : hint = .lower instant := by simpa [comparisonHints] using given
    exact Int.le_of_lt above
  | greaterThanOrEqualTo =>
    have above : instant ≤ start := by simpa [accepts, compare_lt_iff_lt] using accepted
    obtain rfl : hint = .lower instant := by simpa [comparisonHints] using given
    exact above
  | notEqual => simp [comparisonHints] at given
  | distinctFrom => simp [comparisonHints] at given
  | notDistinctFrom => simp [comparisonHints] at given

/-- Flipping a comparison exchanges its sides. -/
theorem accepts_flipped (op : ExpressionType) (start instant : Int) :
    accepts (flipComparison op) (compare start instant) = accepts op (compare instant start) := by
  have swapped : compare start instant = (compare instant start).swap :=
    Std.OrientedCmp.eq_swap
  rw [swapped]
  cases op <;> cases compare instant start <;> rfl

/-- Only comparisons without hints hold when a side is NULL. -/
theorem null_gives_nothing (op : ExpressionType) (left right : Value) (instant : Int)
    (unordered : valueOrder engine left right = none)
    (holding : comparisonHolds engine op left right = true) :
    comparisonHints op instant = [] ∧ comparisonHints (flipComparison op) instant = [] := by
  simp only [comparisonHolds, unordered] at holding
  cases op with
  | notEqual => exact ⟨rfl, rfl⟩
  | distinctFrom => exact ⟨rfl, rfl⟩
  | notDistinctFrom => exact ⟨rfl, rfl⟩
  | equal => exact absurd holding (by simp)
  | lessThan => exact absurd holding (by simp)
  | greaterThan => exact absurd holding (by simp)
  | lessThanOrEqualTo => exact absurd holding (by simp)
  | greaterThanOrEqualTo => exact absurd holding (by simp)

/-- NULL compares with nothing. -/
theorem null_unordered (value : Value) :
    valueOrder engine .null value = none ∧ valueOrder engine value .null = none := by
  cases value <;> exact ⟨rfl, rfl⟩

/-- A comparison that is true with `start` on its left meets the hints of the
instant on its right. -/
theorem start_left_meets (event : Json) (op : ExpressionType) (left right : Operand Json)
    (isStart : isStartColumn get left = true)
    (holding : comparisonHolds engine op (operandValue engine get calendarId event left)
      (operandValue engine get calendarId event right) = true)
    (hint : Hint) (given : hint ∈ foldedHints engine right (comparisonHints op)) :
    ∃ start, parseEventTime engine event "start" = .timestampTz start ∧ hint.Meets start := by
  rw [start_column_value engine get calendarId event left isStart] at holding
  simp only [foldedHints] at given
  split at given
  · rename_i ts folded
    rcases start_value_cases engine event with absent | ⟨start, present⟩
    · rw [absent] at holding
      have nothing := (null_gives_nothing engine op .null _ ts.getTimestamp
        (null_unordered engine _).1 holding).1
      simp [nothing] at given
    · have order := (order_of_cast engine start ts.getTimestamp _
        (folded_value engine get calendarId event right ts folded)).1
      rw [present] at holding
      simp only [comparisonHolds, order] at holding
      exact ⟨start, present, accepted_meets op start _ holding hint given⟩
  · simp at given

/-- The same with `start` on the right and the comparison flipped. -/
theorem start_right_meets (event : Json) (op : ExpressionType) (left right : Operand Json)
    (isStart : isStartColumn get right = true)
    (holding : comparisonHolds engine op (operandValue engine get calendarId event left)
      (operandValue engine get calendarId event right) = true)
    (hint : Hint) (given : hint ∈ foldedHints engine left (comparisonHints (flipComparison op))) :
    ∃ start, parseEventTime engine event "start" = .timestampTz start ∧ hint.Meets start := by
  rw [start_column_value engine get calendarId event right isStart] at holding
  simp only [foldedHints] at given
  split at given
  · rename_i ts folded
    rcases start_value_cases engine event with absent | ⟨start, present⟩
    · rw [absent] at holding
      have nothing := (null_gives_nothing engine op _ .null ts.getTimestamp
        (null_unordered engine _).2 holding).2
      simp [nothing] at given
    · have order := (order_of_cast engine start ts.getTimestamp _
        (folded_value engine get calendarId event left ts folded)).2
      rw [present] at holding
      simp only [comparisonHolds, order] at holding
      rw [← accepts_flipped] at holding
      exact ⟨start, present, accepted_meets (flipComparison op) start _ holding hint given⟩
  · simp at given

/-- A true BETWEEN on `start` meets the hints of both its sides. -/
theorem between_meets (event : Json) (input lower upper : Operand Json)
    (lowerInclusive upperInclusive : Bool)
    (holding : holds engine get calendarId event
      (.between input lower upper lowerInclusive upperInclusive) = true)
    (hint : Hint)
    (given : hint ∈ hints engine get (.between input lower upper lowerInclusive upperInclusive)) :
    ∃ start, parseEventTime engine event "start" = .timestampTz start ∧ hint.Meets start := by
  simp only [holds, Bool.and_eq_true] at holding
  simp only [hints] at given
  split at given
  · rename_i isStart
    cases List.mem_append.mp given with
    | inl below =>
      apply start_left_meets engine get calendarId event _ input lower isStart holding.1 hint
      cases lowerInclusive <;> exact below
    | inr above =>
      apply start_left_meets engine get calendarId event _ input upper isStart holding.2 hint
      cases upperInclusive <;> exact above
  · simp at given

mutual

/-- A row for which a filter is true meets every hint of the filter. -/
theorem holds_meets (event : Json) (expr : Expression Json)
    (holding : holds engine get calendarId event expr = true) (hint : Hint)
    (given : hint ∈ hints engine get expr) :
    ∃ start, parseEventTime engine event "start" = .timestampTz start ∧ hint.Meets start := by
  cases expr with
  | comparison type left right =>
    rw [holds] at holding
    rw [hints] at given
    split at given
    · rename_i isStart
      exact start_left_meets engine get calendarId event type left right isStart holding hint given
    · split at given
      · rename_i isStart
        exact start_right_meets engine get calendarId event type left right isStart
          holding hint given
      · simp at given
  | between input lower upper lowerInclusive upperInclusive =>
    exact between_meets engine get calendarId event input lower upper lowerInclusive upperInclusive
      holding hint given
  | conjunctionAnd children =>
    rw [holds] at holding
    rw [hints] at given
    exact all_hold_meets event children holding hint given
  | other truth => simp [hints] at given

/-- An event of which every filter holds has a start that meets every hint. -/
theorem all_hold_meets (event : Json) (filters : List (Expression Json))
    (holding : allHold engine get calendarId event filters = true) (hint : Hint)
    (given : hint ∈ allHints engine get filters) :
    ∃ start, parseEventTime engine event "start" = .timestampTz start ∧ hint.Meets start := by
  cases filters with
  | nil => simp [allHints] at given
  | cons expr rest =>
    rw [allHold, Bool.and_eq_true] at holding
    rw [allHints] at given
    cases List.mem_append.mp given with
    | inl here => exact holds_meets event expr holding.1 hint here
    | inr later => exact all_hold_meets event rest holding.2 hint later

end

/-! The API and the whole call. -/

/-- What the listing of one calendar rests on: the reading of a date-time, the
true start and end of an event, and the answers for two optional bounds. -/
structure EventsApi where
  readInstant : String → Option Int
  trueStart : Json → Int
  trueEnd : Json → Int
  list : Option String → Option String → List Json

/-- The widest zone offset, fourteen hours. -/
def maxZoneShift : Int := 50400000000

/-- Whether an event ends after the lower bound and starts before the upper one.
An absent bound does not constrain. -/
def EventsApi.Overlaps (api : EventsApi) (timeMin timeMax : Option String) (event : Json) : Prop :=
  (∀ text, timeMin = some text →
    ∃ bound, api.readInstant text = some bound ∧ bound < api.trueEnd event) ∧
  (∀ text, timeMax = some text →
    ∃ bound, api.readInstant text = some bound ∧ api.trueStart event < bound)

/-- What the API documents of a calendar. The start that the row shows of a timed
event is its true one, and that of an all-day event is off by a zone offset. -/
structure EventsApi.Documented (api : EventsApi) (calendar : List Json) : Prop where
  ordered : ∀ event ∈ calendar, api.trueStart event ≤ api.trueEnd event
  shifted : ∀ event ∈ calendar, ∀ start, parseEventTime engine event "start" = .timestampTz start →
    start - maxZoneShift ≤ api.trueStart event ∧ api.trueStart event ≤ start + maxZoneShift
  lists : ∀ timeMin timeMax, ∃ keep : Json → Bool,
    (api.list timeMin timeMax).Perm (calendar.filter keep) ∧
    ∀ event ∈ calendar, api.Overlaps timeMin timeMax event → keep event = true

/-- A padded bound stays a date-time that the API can read: its year has four
digits, and its text is read as the instant it was written for. -/
def EventsApi.Reads (api : EventsApi) (instant : Int) : Prop :=
  FourDigitYear instant ∧ api.readInstant (rfc3339Text instant) = some instant

/-- The text of a padded bound is the RFC 3339 form of the padded instant. -/
theorem formatted_text (prints : engine.PrintsTimestamps) (instant bufferMicros : Int)
    (bounded : FourDigitYear (instant + bufferMicros)) :
    formatWithBuffer engine (.timestampTz instant) bufferMicros =
      rfc3339Text (instant + bufferMicros) := by
  have same := int64_fits _ (year_fits _ bounded)
  simp only [formatWithBuffer, Value.getTimestamp, same, prints.year _ bounded]
  exact rfc3339_of_timestamp _ bounded

/-- An event whose row satisfies the filters overlaps the padded bounds. -/
theorem satisfying_overlaps (prints : engine.PrintsTimestamps) (api : EventsApi)
    (calendar : List Json) (documented : api.Documented engine calendar)
    (filters : List (Expression Json))
    (literals : ∀ hint ∈ allHints engine get filters,
      api.Reads (hint.instant - oneDayMicros) ∧ api.Reads (hint.instant + oneDayMicros))
    (bindData : CalendarScanBindData)
    (bounded : Bounded engine (allHints engine get filters) bindData) (event : Json)
    (member : event ∈ calendar)
    (holding : allHold engine get calendarId event filters = true) :
    api.Overlaps (if bindData.hasLower then some bindData.timeMin else none)
      (if bindData.hasUpper then some bindData.timeMax else none) event := by
  constructor
  · intro text present
    cases has : bindData.hasLower with
    | false => simp [has] at present
    | true =>
      obtain ⟨instant, given, made⟩ := bounded.lower has
      obtain ⟨start, shown, meets⟩ :=
        all_hold_meets engine get calendarId event filters holding _ given
      obtain rfl : bindData.timeMin = text := by simpa [has] using present
      have readable : api.Reads (instant + -oneDayMicros) := (literals _ given).1
      refine ⟨instant + -oneDayMicros, ?_, ?_⟩
      · rw [made, formatted_text engine prints instant _ readable.1]
        exact readable.2
      · have near := (documented.shifted event member start shown).1
        have order := documented.ordered event member
        simp only [Hint.Meets] at meets
        simp only [maxZoneShift] at near
        simp only [oneDayMicros]
        omega
  · intro text present
    cases has : bindData.hasUpper with
    | false => simp [has] at present
    | true =>
      obtain ⟨instant, given, made⟩ := bounded.upper has
      obtain ⟨start, shown, meets⟩ :=
        all_hold_meets engine get calendarId event filters holding _ given
      obtain rfl : bindData.timeMax = text := by simpa [has] using present
      have readable : api.Reads (instant + oneDayMicros) := (literals _ given).2
      refine ⟨instant + oneDayMicros, ?_, ?_⟩
      · rw [made, formatted_text engine prints instant _ readable.1]
        exact readable.2
      · have near := (documented.shifted event member start shown).2
        simp only [Hint.Meets] at meets
        simp only [maxZoneShift] at near
        simp only [oneDayMicros]
        omega

/-- The parameters of a scan's query name its bounds, each once and only when there is one. -/
theorem base_query_bounds (timeMin timeMax : Option String) :
    (baseQuery timeMin timeMax).params.lookup "timeMin" = timeMin ∧
      (baseQuery timeMin timeMax).params.lookup "timeMax" = timeMax := by
  cases timeMin with
  | none =>
    cases timeMax with
    | none => exact ⟨rfl, rfl⟩
    | some upper => exact ⟨rfl, rfl⟩
  | some lower =>
    cases timeMax with
    | none => exact ⟨rfl, rfl⟩
    | some upper => exact ⟨rfl, rfl⟩

/-- Fetching a page leaves the query of the scan as it is. -/
theorem fetched_same_query {σ : Type} (client : GoogleCalendarClient σ)
    (bindData : CalendarScanBindData) (gstate fetched : CalendarScanGlobalState) (state after : σ)
    (fetch : fetchPage engine client bindData gstate state = (.ok fetched, after)) :
    fetched.baseQuery = gstate.baseQuery := by
  simp only [fetchPage] at fetch
  split at fetch
  · simp at fetch
  · split at fetch
    · simp at fetch
    · obtain rfl := Except.ok.inj (congrArg Prod.fst fetch)
      rfl

/-- The loop of a scan keeps its query, however many pages it fetches. By induction on the
steps of the loop. -/
theorem scan_loop_same_query {σ : Type} (client : GoogleCalendarClient σ)
    (bindData : CalendarScanBindData) (vectorSize fuel : Nat) (rows emitted : List (List Value))
    (gstate next : CalendarScanGlobalState) (state after : σ)
    (ran : scanLoop engine client bindData vectorSize fuel rows gstate state =
      some (.ok (emitted, next), after)) :
    next.baseQuery = gstate.baseQuery := by
  induction fuel generalizing rows gstate state with
  | zero => simp [scanLoop] at ran
  | succ fuel ih =>
    rw [scanLoop] at ran
    by_cases going : rows.length < vectorSize ∧ gstate.finished = false
    · rw [if_pos going] at ran
      cases item : gstate.items[gstate.itemIndex]? with
      | some event =>
        rw [item] at ran
        exact ih _ { gstate with itemIndex := gstate.itemIndex + 1 } _ ran
      | none =>
        simp only [item] at ran
        by_cases last : gstate.nextPageToken = ""
        · rw [if_pos last] at ran
          simp only [Option.some.injEq, Prod.mk.injEq, Except.ok.injEq] at ran
          rw [← ran.1.2]
        · rw [if_neg last] at ran
          cases fetch : fetchPage engine client bindData gstate state with
          | mk outcome between =>
            cases outcome with
            | error error => simp [fetch] at ran
            | ok fetched =>
              simp only [fetch] at ran
              exact (ih _ _ _ ran).trans
                (fetched_same_query engine client bindData gstate fetched state between fetch)
    · rw [if_neg going] at ran
      simp only [Option.some.injEq, Prod.mk.injEq, Except.ok.injEq] at ran
      rw [← ran.1.2]

/-- The effective bounds are the `timeMin` and the `timeMax` of every request for a page: the
scan begins with a query that names them, and no call of the scan changes its query. -/
theorem scan_sends_bounds {σ : Type} (client : GoogleCalendarClient σ)
    (bindData : CalendarScanBindData) (window : DefaultWindow) (now : Int)
    (columnIds : List ColumnId) (state : σ) (timeMin timeMax : Option String)
    (bounds : effectiveBounds engine bindData window now = .ok (timeMin, timeMax)) :
    ∃ query : QueryBuilder,
      query.params.lookup "timeMin" = timeMin ∧ query.params.lookup "timeMax" = timeMax ∧
      calendarScanInitGlobal engine client bindData window now columnIds state =
        fetchPage engine client bindData { baseQuery := query, columnIds := columnIds } state ∧
      (∀ gstate after, calendarScanInitGlobal engine client bindData window now columnIds state =
        (.ok gstate, after) → gstate.baseQuery = query) ∧
      ∀ vectorSize fuel gstate before rows next after, gstate.baseQuery = query →
        calendarScan engine client bindData vectorSize fuel gstate before =
          some (.ok (rows, next), after) → next.baseQuery = query := by
  obtain ⟨lower, upper⟩ := base_query_bounds timeMin timeMax
  have begins : calendarScanInitGlobal engine client bindData window now columnIds state =
      fetchPage engine client bindData
        { baseQuery := baseQuery timeMin timeMax, columnIds := columnIds } state := by
    rw [calendarScanInitGlobal, bounds]
  refine ⟨baseQuery timeMin timeMax, lower, upper, begins, ?_, ?_⟩
  · intro gstate after started
    rw [begins] at started
    exact fetched_same_query engine client bindData _ gstate state after started
  · intro vectorSize fuel gstate before rows next after same called
    exact (scan_loop_same_query engine client bindData vectorSize fuel [] rows gstate next before
      after called).trans same

/-- Filtering what the API returns for the extracted bounds gives the events of
the calendar that satisfy the filters of all calls, each as often as it is there.
The literals that became bounds are those whose padded instants the API reads. -/
theorem pushdown_loses_no_row (prints : engine.PrintsTimestamps) (names : List String)
    (calls : List (List (Expression Json))) (window : DefaultWindow) (now : Int)
    (api : EventsApi) (calendar : List Json) (documented : api.Documented engine calendar)
    (literals : ∀ hint ∈ allHints engine get calls.flatten,
      api.Reads (hint.instant - oneDayMicros) ∧ api.Reads (hint.instant + oneDayMicros))
    (bindData : CalendarScanBindData)
    (called : bindData = afterCalls engine get calls (makeCalendarScanBindData calendarId names))
    (extracted : bindData.hasLower = true ∨ bindData.hasUpper = true) :
    ∃ timeMin timeMax,
      effectiveBounds engine bindData window now = .ok (timeMin, timeMax) ∧
      ((api.list timeMin timeMax).filter
          (fun event => allHold engine get calendarId event calls.flatten)).Perm
        (calendar.filter (fun event => allHold engine get calendarId event calls.flatten)) := by
  have bounded : Bounded engine (allHints engine get calls.flatten) bindData := by
    rw [called, calls_apply_hints]
    exact apply_hints_bounded engine _ _ _ (fun _ member => member)
      ⟨fun absent => absurd absent Bool.false_ne_true,
        fun absent => absurd absent Bool.false_ne_true⟩
  refine ⟨if bindData.hasLower then some bindData.timeMin else none,
    if bindData.hasUpper then some bindData.timeMax else none, ?_, ?_⟩
  · have bound : (!bindData.hasLower && !bindData.hasUpper) = false := by
      cases extracted with
      | inl lower => simp [lower]
      | inr upper => simp [upper]
    simp only [effectiveBounds, bound, Bool.false_eq_true, if_false]
  · obtain ⟨keep, returned, kept⟩ := documented.lists
      (if bindData.hasLower then some bindData.timeMin else none)
      (if bindData.hasUpper then some bindData.timeMax else none)
    refine (returned.filter _).trans (List.Perm.of_eq ?_)
    rw [List.filter_filter]
    apply List.filter_congr
    intro event member
    cases holding : allHold engine get calendarId event calls.flatten with
    | false => rfl
    | true =>
      rw [kept event member (satisfying_overlaps engine get calendarId prints api calendar
        documented calls.flatten literals bindData bounded event member holding)]
      rfl

/-- A conjunction of a flipped and a plain comparison around the tenth of June 2026. -/
def juneFilters : List (Expression Json) :=
  [.other (fun event => event.contains "id"),
    .conjunctionAnd
      [.comparison .lessThanOrEqualTo (.foldable (.ok (.timestampTz 1781049600000000)))
        (.columnRef 1),
      .comparison .lessThan (.columnRef 1) (.foldable (.ok (.varchar "2026-06-11")))]]

/-- A timed event of that day and an all-day event of the next. -/
def juneEvents : List Json :=
  [.object [("id", .string "a"),
      ("start", .object [("dateTime", .string "2026-06-10T09:00:00+02:00")])],
    .object [("id", .string "b"), ("start", .object [("date", .string "2026-06-11")])]]

/-- The texts of the example, with their instants. -/
def juneTimes : List (String × Int) :=
  [("2026-06-11", 1781136000000000), ("2026-06-10T09:00:00+02:00", 1781074800000000)]

/-- What a text of the example denotes. -/
def juneRead (text : String) : Option Int :=
  [("2026-06-09T00:00:00Z", (1780963200000000 : Int)), ("2026-06-10T00:00:00Z", 1781049600000000),
    ("2026-06-11T00:00:00Z", 1781136000000000),
    ("2026-06-12T00:00:00Z", 1781222400000000)].lookup text

/-- The true start in the zone ten hours behind UTC. -/
def juneStart (event : Json) : Int :=
  match parseEventTime (Engine.reading juneTimes []) event "start" with
  | .timestampTz micros => if existingAllDay event then micros + 36000000000 else micros
  | _ => 0

/-- Whether a listing between two bounds keeps an event. -/
def juneKeeps (timeMin timeMax : Option String) (event : Json) : Bool :=
  (timeMin.all fun text => (juneRead text).any fun bound => bound < juneStart event + 3600000000) &&
    timeMax.all fun text => (juneRead text).any fun bound => juneStart event < bound

/-- An API over these events, each of which lasts an hour. -/
def juneApi : EventsApi where
  readInstant := juneRead
  trueStart := juneStart
  trueEnd event := juneStart event + 3600000000
  list timeMin timeMax := juneEvents.filter (juneKeeps timeMin timeMax)

/-- The listing of the example keeps what is documented. -/
theorem june_api_documented : juneApi.Documented (Engine.reading juneTimes []) juneEvents where
  ordered event _ := Int.le_add_of_nonneg_right (by decide)
  shifted event member start shown := by
    simp only [juneEvents, List.mem_cons, List.not_mem_nil, or_false] at member
    rcases member with rfl | rfl
    · obtain rfl : (1781074800000000 : Int) = start := Value.timestampTz.inj shown
      decide
    · obtain rfl : (1781136000000000 : Int) = start := Value.timestampTz.inj shown
      decide
  lists timeMin timeMax := by
    refine ⟨juneKeeps timeMin timeMax, List.Perm.refl _, ?_⟩
    rintro event - ⟨after, before⟩
    rw [juneKeeps, Bool.and_eq_true, Option.all_eq_true, Option.all_eq_true]
    constructor
    · intro text present
      obtain ⟨bound, reads, below⟩ := after text present
      exact (Option.any_eq_true _ _).mpr ⟨bound, reads, decide_eq_true below⟩
    · intro text present
      obtain ⟨bound, reads, above⟩ := before text present
      exact (Option.any_eq_true _ _).mpr ⟨bound, reads, decide_eq_true above⟩

/-- Both events are within the padded bounds; the filters keep the first. -/
theorem june_loses_no_row :
    let engine := Engine.reading juneTimes []
    let get : LogicalGet := ⟨[0, 2], ["event_id", "summary", "start"]⟩
    ∃ timeMin timeMax,
      effectiveBounds engine (afterCalls engine get [juneFilters]
        (makeCalendarScanBindData "work" get.names)) {} 0 = .ok (timeMin, timeMax) ∧
      ((juneApi.list timeMin timeMax).filter
          (fun event => allHold engine get "work" event [juneFilters].flatten)).Perm
        (juneEvents.filter
          (fun event => allHold engine get "work" event [juneFilters].flatten)) := by
  intro engine get
  have given : allHints engine get [juneFilters].flatten =
      [.lower 1781049600000000, .upper 1781136000000000] := by decide
  refine pushdown_loses_no_row engine get "work" (Engine.reading_prints juneTimes []) get.names
    [juneFilters] {} 0 juneApi juneEvents june_api_documented ?_ _ rfl (Or.inl rfl)
  intro hint member
  rw [given] at member
  simp only [List.mem_cons, List.not_mem_nil, or_false] at member
  rcases member with rfl | rfl
  · exact ⟨⟨by decide, by decide⟩, by decide, by decide⟩
  · exact ⟨⟨by decide, by decide⟩, by decide, by decide⟩

end GoogleCalendar.ScanPushdown
