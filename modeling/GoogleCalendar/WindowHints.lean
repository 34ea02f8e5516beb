import GoogleCalendar.ScanPushdown
import GoogleCalendar.AttachWindow
import GoogleCalendar.WrittenTimes
import Mathlib.Data.List.Induction

/-!
# The bounds that a scan sends

The lower and the upper bound of an API call are values moved outwards by a day
and printed: the literals of the filters, or the ends of the default window. The
plan of a scan says, over the integers, which sums are made on the way and which
instants the bounds should denote. The code makes the same sums in 64 bits and
prints what comes out, whatever its year.

Of several literals on one side the last one is sent, while a sum is made for
each of them.
-/

namespace GoogleCalendar.WindowHints

open Library CivilTime Rfc3339 EventMapping CalendarScan ScanPushdown WrittenTimes

/-- The least 64-bit integer is no name of an infinite value, so it is printed as a
finite one. -/
def PrintsLeast (engine : Engine) : Prop :=
  engine.timestampToString (-9223372036854775808) = timestampText (-9223372036854775808)

/-- A bound that is left out, or is a date-time that denotes exactly the given instant. -/
def SentAs (bound : Option String) : Option Int → Prop
  | none => bound = none
  | some instant => ∃ text reading, bound = some text ∧ readDateTime text = some reading ∧
      reading.instant = instant

/-- Whether an instant is strictly inside the bounds that are sent. -/
def Within (timeMin timeMax : Option String) (instant : Int) : Prop :=
  (∀ text, timeMin = some text →
    ∃ reading, readDateTime text = some reading ∧ reading.instant < instant) ∧
  (∀ text, timeMax = some text →
    ∃ reading, readDateTime text = some reading ∧ instant < reading.instant)

/-- The sums that a scan makes for its bounds and the instants that they should
denote, without a limit to their size. -/
structure Plan where
  sums : List Int
  lower : Option Int
  upper : Option Int
  deriving DecidableEq, Repr

/-- The instant of a lower hint. -/
def lowerInstant : Hint → Option Int
  | .lower instant => some instant
  | .upper _ => none

/-- The instant of an upper hint. -/
def upperInstant : Hint → Option Int
  | .lower _ => none
  | .upper instant => some instant

/-- The literal of a hint, a day further out. -/
def padded : Hint → Int
  | .lower instant => instant + -oneDayMicros
  | .upper instant => instant + oneDayMicros

/-- The last lower hint. -/
def lastLower (given : List Hint) : Option Int := (given.filterMap lowerInstant).getLast?

/-- The last upper hint. -/
def lastUpper (given : List Hint) : Option Int := (given.filterMap upperInstant).getLast?

/-- The plan of the hints that filters give. -/
def hintsPlan (given : List Hint) : Plan where
  sums := given.map padded
  lower := (lastLower given).map (· + -oneDayMicros)
  upper := (lastUpper given).map (· + oneDayMicros)

variable (engine : Engine)

/-- The ends of the default window. -/
def windowEnds (window : DefaultWindow) (now : Int) : Except Exception (Int × Int) :=
  if window.defaultIsDynamic then
    (engine.getMicro window.defaultWindowLength).map (fun width =>
      (now - width.tdiv 2, now + width.tdiv 2))
  else .ok (window.defaultWindowStart, window.defaultWindowEnd)

/-- The plan of the default window. The ends of a dynamic one are sums themselves. -/
def endsPlan (isDynamic : Bool) (ends : Int × Int) : Plan where
  sums := (if isDynamic then [ends.1, ends.2] else []) ++
    [ends.1 + -oneDayMicros, ends.2 + oneDayMicros]
  lower := some (ends.1 + -oneDayMicros)
  upper := some (ends.2 + oneDayMicros)

/-- The plan of a scan: of its hints, or of the default window when there are none.
A scan without either, or with a window whose length has no count of microseconds,
sends no bounds. -/
def planOf (given : List Hint) (window : DefaultWindow) (now : Int) : Option Plan :=
  if given ≠ [] then some (hintsPlan given)
  else if window.hasDefaultWindow then
    match windowEnds engine window now with
    | .ok ends => some (endsPlan window.defaultIsDynamic ends)
    | .error _ => none
  else none

/-- The sums stay in 64 bits and the instants of the bounds in the years 1 to 9999. -/
def Plan.InYears (plan : Plan) : Prop :=
  (∀ sum ∈ plan.sums, fitsInt64 sum = true) ∧
    (∀ instant ∈ plan.lower, FourDigitYear instant) ∧
    (∀ instant ∈ plan.upper, FourDigitYear instant)

/-- A plan is carried out: no sum overflows, and the bounds sent are those of the plan. -/
def Plan.CarriedOut (plan : Plan) (bounds : Except Exception (Option String × Option String)) :
    Prop :=
  (∀ sum ∈ plan.sums, fitsInt64 sum = true) ∧
    ∃ timeMin timeMax, bounds = .ok (timeMin, timeMax) ∧
      SentAs timeMin plan.lower ∧ SentAs timeMax plan.upper

/-- What is printed for a 64-bit integer of another year is no date-time. -/
theorem other_bound_unread (prints : engine.PrintsTimestamps) (least : PrintsLeast engine)
    (value : Int) (fits : fitsInt64 value = true) (outside : ¬ FourDigitYear value) :
    readDateTime (formatRfc3339 engine (.timestampTz value)) = none := by
  rw [fits_iff] at fits
  by_cases first : value = -9223372036854775808
  · subst first
    rw [formatRfc3339, Value.getTimestamp, least]
    exact other_time_unread _ outside
  · exact other_date_time_unread engine prints value (by simp only [ninfinity]; omega)
      (by simp only [infinity]; omega) outside

/-- A padded value is sent exactly just when its year is one of 1 to 9999. -/
theorem padded_sent_iff (prints : engine.PrintsTimestamps) (least : PrintsLeast engine)
    (value pad : Int) (fits : fitsInt64 (value + pad) = true) :
    SentAs (some (formatWithBuffer engine (.timestampTz value) pad)) (some (value + pad)) ↔
      FourDigitYear (value + pad) := by
  constructor
  · rintro ⟨text, reading, sent, read, -⟩
    obtain rfl := Option.some.inj sent
    by_contra outside
    have unread := other_bound_unread engine prints least (value + pad) fits outside
    rw [formatWithBuffer, Value.getTimestamp, int64_fits _ fits] at read
    rw [formatRfc3339, Value.getTimestamp, read] at unread
    simp at unread
  · intro bounded
    refine ⟨_, _, rfl, ?_, instant_of_day_clock (value + pad)⟩
    rw [formatted_text engine prints value pad bounded]
    exact read_rfc3339_text (value + pad) bounded

/-- A side is sent as it is padded exactly when the instant has a year of four digits. -/
theorem side_sent_iff (prints : engine.PrintsTimestamps) (least : PrintsLeast engine)
    (pad : Int) (side : Option Int) (fits : ∀ value ∈ side, fitsInt64 (value + pad) = true) :
    SentAs (side.map (fun value => formatWithBuffer engine (.timestampTz value) pad))
        (side.map (· + pad)) ↔
      ∀ instant ∈ side.map (· + pad), FourDigitYear instant := by
  cases side with
  | none => simp [SentAs]
  | some value =>
    simp only [Option.map_some, Option.mem_def, Option.some.injEq, forall_eq']
    exact padded_sent_iff engine prints least value pad (fits value rfl)

/-- Bounds printed from two values are those of the plan just when the years are right. -/
theorem carried_out_iff (prints : engine.PrintsTimestamps) (least : PrintsLeast engine)
    (sums : List Int) (lower upper : Option Int)
    (lowerMade : ∀ value ∈ lower, value + -oneDayMicros ∈ sums)
    (upperMade : ∀ value ∈ upper, value + oneDayMicros ∈ sums) :
    (Plan.mk sums (lower.map (· + -oneDayMicros)) (upper.map (· + oneDayMicros))).CarriedOut
        (.ok (lower.map (fun value => formatWithBuffer engine (.timestampTz value)
            (-oneDayMicros)),
          upper.map (fun value => formatWithBuffer engine (.timestampTz value) oneDayMicros))) ↔
      (Plan.mk sums (lower.map (· + -oneDayMicros)) (upper.map (· + oneDayMicros))).InYears := by
  refine and_congr_right (fun fits => ?_)
  have low := side_sent_iff engine prints least (-oneDayMicros) lower
    (fun value member => fits _ (lowerMade value member))
  have high := side_sent_iff engine prints least oneDayMicros upper
    (fun value member => fits _ (upperMade value member))
  constructor
  · rintro ⟨timeMin, timeMax, same, lowerSent, upperSent⟩
    obtain ⟨rfl, rfl⟩ := Prod.mk.inj (Except.ok.inj same)
    exact ⟨low.mp lowerSent, high.mp upperSent⟩
  · rintro ⟨lowerYears, upperYears⟩
    exact ⟨_, _, rfl, low.mpr lowerYears, high.mpr upperYears⟩

/-! The bounds of the hints: the last literal on each side. -/

/-- The lower bound of the bind data, if there is one. -/
def lowerBound (bindData : CalendarScanBindData) : Option String :=
  if bindData.hasLower then some bindData.timeMin else none

/-- The upper bound, if there is one. -/
def upperBound (bindData : CalendarScanBindData) : Option String :=
  if bindData.hasUpper then some bindData.timeMax else none

/-- A hint becomes the last one of its side and leaves the other side alone. -/
theorem last_recorded (earlier : List Hint) (instant : Int) :
    lastLower (earlier ++ [.lower instant]) = some instant ∧
      lastUpper (earlier ++ [.lower instant]) = lastUpper earlier ∧
      lastLower (earlier ++ [.upper instant]) = lastLower earlier ∧
      lastUpper (earlier ++ [.upper instant]) = some instant := by
  simp [lastLower, lastUpper, lowerInstant, upperInstant]

/-- Recording hints one after the other leaves the last one on each side. -/
theorem recorded_bounds (given : List Hint) (calendarId : String) (names : List String) :
    let bindData := given.foldl (applyHint engine) (makeCalendarScanBindData calendarId names)
    lowerBound bindData = (lastLower given).map
        (fun value => formatWithBuffer engine (.timestampTz value) (-oneDayMicros)) ∧
      upperBound bindData = (lastUpper given).map
        (fun value => formatWithBuffer engine (.timestampTz value) oneDayMicros) := by
  induction given using List.reverseRecOn with
  | nil => exact ⟨rfl, rfl⟩
  | append_singleton earlier hint ih =>
    simp only [List.foldl_append, List.foldl_cons, List.foldl_nil]
    obtain ⟨lower, upper⟩ := ih
    cases hint with
    | lower instant =>
      obtain ⟨last, other, -, -⟩ := last_recorded earlier instant
      rw [last, other]
      exact ⟨rfl, upper⟩
    | upper instant =>
      obtain ⟨-, -, other, last⟩ := last_recorded earlier instant
      rw [last, other]
      exact ⟨lower, rfl⟩

/-- Neither side has a hint when there is none. -/
theorem no_last (given : List Hint) :
    lastLower given = none ∧ lastUpper given = none ↔ given = [] := by
  constructor
  · rintro ⟨lower, upper⟩
    cases given with
    | nil => rfl
    | cons hint rest =>
      simp only [lastLower, lastUpper, List.getLast?_eq_none_iff, List.filterMap_eq_nil_iff]
        at lower upper
      cases hint with
      | lower instant => simpa [lowerInstant] using lower _ (List.mem_cons_self ..)
      | upper instant => simpa [upperInstant] using upper _ (List.mem_cons_self ..)
  · rintro rfl
    exact ⟨rfl, rfl⟩

/-- With hints the bounds are the last literals, padded. -/
theorem hints_bounds (given : List Hint) (some : given ≠ []) (calendarId : String)
    (names : List String) (window : DefaultWindow) (now : Int) :
    effectiveBounds engine
        (given.foldl (applyHint engine) (makeCalendarScanBindData calendarId names)) window now =
      .ok ((lastLower given).map
          (fun value => formatWithBuffer engine (.timestampTz value) (-oneDayMicros)),
        (lastUpper given).map
          (fun value => formatWithBuffer engine (.timestampTz value) oneDayMicros)) := by
  obtain ⟨lower, upper⟩ := recorded_bounds engine given calendarId names
  generalize given.foldl (applyHint engine) (makeCalendarScanBindData calendarId names) =
    bindData at lower upper
  have bound : (!bindData.hasLower && !bindData.hasUpper) = false := by
    rw [Bool.eq_false_iff]
    intro none
    simp only [Bool.and_eq_true, Bool.not_eq_true'] at none
    simp only [lowerBound, upperBound, none.1, none.2, Bool.false_eq_true, if_false] at lower upper
    exact some ((no_last given).mp ⟨Option.map_eq_none_iff.mp lower.symm,
      Option.map_eq_none_iff.mp upper.symm⟩)
  rw [← lower, ← upper]
  simp only [effectiveBounds, bound, Bool.false_eq_true, if_false]
  rfl

/-- Without hints the bounds are the ends of the default window, computed in 64 bits. -/
theorem window_bounds (calendarId : String) (names : List String) (window : DefaultWindow)
    (now : Int) (present : window.hasDefaultWindow = true) (ends : Int × Int)
    (width : windowEnds engine window now = .ok ends)
    (fits : ∀ sum ∈ (endsPlan window.defaultIsDynamic ends).sums, fitsInt64 sum = true) :
    effectiveBounds engine (makeCalendarScanBindData calendarId names) window now =
      .ok (some (formatWithBuffer engine (.timestampTz ends.1) (-oneDayMicros)),
        some (formatWithBuffer engine (.timestampTz ends.2) oneDayMicros)) := by
  simp only [effectiveBounds, makeCalendarScanBindData, present]
  cases kind : window.defaultIsDynamic with
  | false =>
    simp only [windowEnds, kind, Bool.false_eq_true, if_false, Except.ok.injEq] at width
    subst width
    rfl
  | true =>
    simp only [windowEnds, kind, if_true] at width
    cases length : engine.getMicro window.defaultWindowLength with
    | error error => simp [length, Except.map] at width
    | ok micros =>
      simp only [length, Except.map, Except.ok.injEq] at width
      subst width
      simp only [endsPlan, kind, if_true, List.cons_append, List.mem_cons] at fits
      have first := int64_fits _ (fits _ (Or.inl rfl))
      have second := int64_fits _ (fits _ (Or.inr (Or.inl rfl)))
      simp only [if_true, Bool.not_true, Bool.not_false, Bool.and_self, Bool.false_eq_true,
        if_false, bind, Except.bind, pure, Except.pure, first, second]

/-- Whether an instant is between the ends that a plan pads, or meets every hint it
was made from. -/
def Plan.Pads (plan : Plan) (instant : Int) : Prop :=
  (∀ lower ∈ plan.lower, lower < instant) ∧ ∀ upper ∈ plan.upper, instant < upper

/-- A bound that is present is read as the instant it was sent for. -/
theorem sent_reads (bound : Option String) (value : Option Int) (text : String)
    (sent : SentAs bound value) (present : bound = some text) :
    ∃ reading, readDateTime text = some reading ∧ value = some reading.instant := by
  cases value with
  | none =>
    simp only [SentAs] at sent
    rw [sent] at present
    simp at present
  | some instant =>
    obtain ⟨written, reading, same, read, denoted⟩ := sent
    rw [same] at present
    obtain rfl := Option.some.inj present
    exact ⟨reading, read, by rw [denoted]⟩

/-- Bounds that denote the instants of a plan contain what it pads. -/
theorem carried_out_within (plan : Plan) (timeMin timeMax : Option String) (instant : Int)
    (lower : SentAs timeMin plan.lower) (upper : SentAs timeMax plan.upper)
    (pads : plan.Pads instant) : Within timeMin timeMax instant := by
  constructor
  · intro text present
    obtain ⟨reading, read, value⟩ := sent_reads timeMin plan.lower text lower present
    exact ⟨reading, read, pads.1 _ value⟩
  · intro text present
    obtain ⟨reading, read, value⟩ := sent_reads timeMax plan.upper text upper present
    exact ⟨reading, read, pads.2 _ value⟩

/-- The last literal of a side comes from a hint of that side. -/
theorem last_given (given : List Hint) :
    (∀ value ∈ lastLower given, Hint.lower value ∈ given) ∧
      ∀ value ∈ lastUpper given, Hint.upper value ∈ given := by
  constructor
  · intro value last
    obtain ⟨hint, member, same⟩ := List.mem_filterMap.mp (List.mem_of_getLast? last)
    cases hint with
    | lower instant => exact Option.some.inj same ▸ member
    | upper instant => simp [lowerInstant] at same
  · intro value last
    obtain ⟨hint, member, same⟩ := List.mem_filterMap.mp (List.mem_of_getLast? last)
    cases hint with
    | lower instant => simp [upperInstant] at same
    | upper instant => exact Option.some.inj same ▸ member

/-- An instant that meets every hint is padded by their plan. -/
theorem hints_pad (given : List Hint) (instant : Int) (meets : ∀ hint ∈ given, hint.Meets instant) :
    (hintsPlan given).Pads instant := by
  obtain ⟨lowers, uppers⟩ := last_given given
  constructor
  · intro lower planned
    obtain ⟨value, last, rfl⟩ := Option.map_eq_some_iff.mp planned
    have above := meets _ (lowers value last)
    simp only [Hint.Meets, oneDayMicros] at above ⊢
    omega
  · intro upper planned
    obtain ⟨value, last, rfl⟩ := Option.map_eq_some_iff.mp planned
    have below := meets _ (uppers value last)
    simp only [Hint.Meets, oneDayMicros] at below ⊢
    omega

/-- The window of the ends pads what lies between them. -/
theorem ends_pad (isDynamic : Bool) (ends : Int × Int) (instant : Int) (above : ends.1 ≤ instant)
    (below : instant ≤ ends.2) : (endsPlan isDynamic ends).Pads instant := by
  constructor
  · intro lower planned
    obtain rfl := Option.some.inj planned
    simp only [oneDayMicros]
    omega
  · intro upper planned
    obtain rfl := Option.some.inj planned
    simp only [oneDayMicros]
    omega

variable (get : LogicalGet) (calendarId : String)

/-- The instants that a scan is to see: the starts of the events that satisfy its
filters when these give hints, and else those in the default window. -/
def Admitted (calls : List (List (Expression Json))) (window : DefaultWindow) (now : Int)
    (instant : Int) : Prop :=
  if allHints engine get calls.flatten ≠ [] then
    ∃ event, allHold engine get calendarId event calls.flatten = true ∧
      parseEventTime engine event "start" = .timestampTz instant
  else ∃ ends, windowEnds engine window now = .ok ends ∧ ends.1 ≤ instant ∧ instant ≤ ends.2

/-- The window of a scan is exact: its plan is carried out, and what is sent
contains every instant that the scan is to see. A scan without a plan sends nothing. -/
def WindowExact (calls : List (List (Expression Json))) (names : List String)
    (window : DefaultWindow) (now : Int) : Prop :=
  let bounds := effectiveBounds engine
    (afterCalls engine get calls (makeCalendarScanBindData calendarId names)) window now
  match planOf engine (allHints engine get calls.flatten) window now with
  | none => ∃ error, bounds = .error error
  | some plan => plan.CarriedOut bounds ∧ ∀ timeMin timeMax, bounds = .ok (timeMin, timeMax) →
      ∀ instant, Admitted engine get calendarId calls window now instant →
        Within timeMin timeMax instant

/-- What a plan pads is inside the bounds once the plan is carried out, so a window
is exact when its plan is carried out. -/
theorem exact_iff_carried_out (plan : Plan)
    (bounds : Except Exception (Option String × Option String)) (admitted : Int → Prop)
    (pads : ∀ instant, admitted instant → plan.Pads instant) :
    (plan.CarriedOut bounds ∧ ∀ timeMin timeMax, bounds = .ok (timeMin, timeMax) →
        ∀ instant, admitted instant → Within timeMin timeMax instant) ↔
      plan.CarriedOut bounds := by
  refine ⟨fun exact => exact.1, fun carried => ⟨carried, ?_⟩⟩
  obtain ⟨-, timeMin, timeMax, sent, lower, upper⟩ := carried
  intro lowerText upperText same instant isAdmitted
  rw [sent] at same
  obtain ⟨rfl, rfl⟩ := Prod.mk.inj (Except.ok.inj same)
  exact carried_out_within plan timeMin timeMax instant lower upper (pads instant isAdmitted)

/-- The window of hints is exact just when their plan stays in the years 1 to 9999. -/
theorem hints_exact_iff (prints : engine.PrintsTimestamps) (least : PrintsLeast engine)
    (given : List Hint) (some : given ≠ []) (names : List String) (window : DefaultWindow)
    (now : Int) :
    (hintsPlan given).CarriedOut (effectiveBounds engine
        (given.foldl (applyHint engine) (makeCalendarScanBindData calendarId names)) window now) ↔
      (hintsPlan given).InYears := by
  obtain ⟨lowers, uppers⟩ := last_given given
  rw [hints_bounds engine given some calendarId names window now]
  apply carried_out_iff engine prints least
  · exact fun value last => List.mem_map_of_mem (lowers value last)
  · exact fun value last => List.mem_map_of_mem (uppers value last)

/-- The default window is sent exactly just when its plan stays in the years 1 to 9999. -/
theorem default_window_iff (prints : engine.PrintsTimestamps) (least : PrintsLeast engine)
    (names : List String) (window : DefaultWindow) (now : Int)
    (present : window.hasDefaultWindow = true) (ends : Int × Int)
    (width : windowEnds engine window now = .ok ends) :
    (endsPlan window.defaultIsDynamic ends).CarriedOut (effectiveBounds engine
        (makeCalendarScanBindData calendarId names) window now) ↔
      (endsPlan window.defaultIsDynamic ends).InYears := by
  by_cases fits : ∀ sum ∈ (endsPlan window.defaultIsDynamic ends).sums, fitsInt64 sum = true
  · rw [window_bounds engine calendarId names window now present ends width fits]
    apply carried_out_iff engine prints least _ (some ends.1) (some ends.2)
    · rintro value ⟨⟩
      simp
    · rintro value ⟨⟩
      simp
  · exact iff_of_false (fun carried => fits carried.1) (fun inYears => fits inYears.1)

/-- A dynamic window whose length has no count of microseconds fails the scan. -/
theorem no_width (names : List String) (window : DefaultWindow) (now : Int)
    (present : window.hasDefaultWindow = true) (error : Exception)
    (width : windowEnds engine window now = .error error) :
    ∃ error, effectiveBounds engine (makeCalendarScanBindData calendarId names) window now =
      .error error := by
  cases kind : window.defaultIsDynamic with
  | false => simp [windowEnds, kind] at width
  | true =>
    cases length : engine.getMicro window.defaultWindowLength with
    | ok micros => simp [windowEnds, kind, length, Except.map] at width
    | error error =>
      simp only [effectiveBounds, makeCalendarScanBindData, present, kind, length, if_true,
        Bool.not_true, Bool.not_false, Bool.and_self, Bool.false_eq_true, if_false]
      exact ⟨error, rfl⟩

/-- The window of a scan is exact just when its plan stays in the years 1 to 9999. -/
theorem exact_iff_planned (prints : engine.PrintsTimestamps) (least : PrintsLeast engine)
    (calls : List (List (Expression Json))) (names : List String) (window : DefaultWindow)
    (now : Int) :
    WindowExact engine get calendarId calls names window now ↔
      ∀ plan ∈ planOf engine (allHints engine get calls.flatten) window now, plan.InYears := by
  simp only [WindowExact, calls_apply_hints]
  by_cases given : allHints engine get calls.flatten ≠ []
  · have planned : planOf engine (allHints engine get calls.flatten) window now =
        some (hintsPlan (allHints engine get calls.flatten)) := if_pos given
    simp only [planned, Option.mem_def, Option.some.injEq, forall_eq']
    refine (exact_iff_carried_out _ _ _ ?_).trans
      (hints_exact_iff engine calendarId prints least _ given names window now)
    rintro instant isAdmitted
    rw [Admitted, if_pos given] at isAdmitted
    obtain ⟨event, holding, shown⟩ := isAdmitted
    refine hints_pad _ instant (fun hint member => ?_)
    obtain ⟨start, starts, meets⟩ :=
      all_hold_meets engine get calendarId event calls.flatten holding hint member
    rw [shown] at starts
    exact Value.timestampTz.inj starts ▸ meets
  · have empty : allHints engine get calls.flatten = [] := not_not.mp given
    simp only [empty, planOf, ne_eq, not_true_eq_false, if_false, List.foldl_nil]
    cases present : window.hasDefaultWindow with
    | false => simp [effectiveBounds, makeCalendarScanBindData, present]
    | true =>
      cases width : windowEnds engine window now with
      | error error =>
        simp only [if_true, Option.mem_def, reduceCtorEq, false_implies, implies_true, iff_true]
        exact no_width engine calendarId names window now present error width
      | ok ends =>
        simp only [if_true, Option.mem_def, Option.some.injEq, forall_eq']
        refine (exact_iff_carried_out _ _ _ ?_).trans
          (default_window_iff engine calendarId prints least names window now present ends width)
        rintro instant isAdmitted
        rw [Admitted, if_neg given] at isAdmitted
        obtain ⟨same, isEnds, above, below⟩ := isAdmitted
        rw [width] at isEnds
        obtain rfl := Except.ok.inj isEnds
        exact ends_pad window.defaultIsDynamic ends instant above below

/-! The condition on the literals and the ends themselves. -/

/-- A literal is a day away from the end of the 64-bit integers that its padding goes to. -/
def Roomy : Hint → Prop
  | .lower instant => -9223372036854775808 + oneDayMicros ≤ instant
  | .upper instant => instant ≤ 9223372036854775807 - oneDayMicros

/-- The literals have room for their padding, and what is sent, the last literal on
each side or the ends of the default window, is with it in the years 1 to 9999. -/
def InYears (given : List Hint) (window : DefaultWindow) (now : Int) : Prop :=
  if given ≠ [] then
    (∀ hint ∈ given, Roomy hint) ∧
      (∀ literal ∈ lastLower given, FourDigitYear (literal - oneDayMicros)) ∧
      ∀ literal ∈ lastUpper given, FourDigitYear (literal + oneDayMicros)
  else window.hasDefaultWindow = true → ∀ ends, windowEnds engine window now = .ok ends →
    FourDigitYear (ends.1 - oneDayMicros) ∧ FourDigitYear (ends.2 + oneDayMicros)

/-- The padding of a 64-bit literal fits when there is room for it. -/
theorem roomy_fits (hint : Hint) (stored : fitsInt64 hint.instant = true) :
    fitsInt64 (padded hint) = true ↔ Roomy hint := by
  rw [fits_iff] at stored ⊢
  cases hint with
  | lower instant =>
    simp only [Hint.instant, padded, Roomy, oneDayMicros] at stored ⊢
    omega
  | upper instant =>
    simp only [Hint.instant, padded, Roomy, oneDayMicros] at stored ⊢
    omega

/-- When the window of hints stays within the years. -/
theorem hints_in_years (given : List Hint)
    (stored : ∀ hint ∈ given, fitsInt64 hint.instant = true) :
    (hintsPlan given).InYears ↔ (∀ hint ∈ given, Roomy hint) ∧
      (∀ literal ∈ lastLower given, FourDigitYear (literal - oneDayMicros)) ∧
      ∀ literal ∈ lastUpper given, FourDigitYear (literal + oneDayMicros) := by
  refine and_congr ?_ (and_congr ?_ ?_)
  · simp only [hintsPlan, List.forall_mem_map]
    exact forall₂_congr (fun hint member => roomy_fits hint (stored hint member))
  · simp [hintsPlan, Int.sub_eq_add_neg]
  · simp [hintsPlan]

/-- Sums on the way to a year of 1 to 9999 fit. -/
theorem ends_in_years (isDynamic : Bool) (ends : Int × Int) :
    (endsPlan isDynamic ends).InYears ↔
      FourDigitYear (ends.1 - oneDayMicros) ∧ FourDigitYear (ends.2 + oneDayMicros) := by
  constructor
  · rintro ⟨-, lower, upper⟩
    exact ⟨lower _ rfl, upper _ rfl⟩
  · rintro ⟨lower, upper⟩
    refine ⟨?_, fun instant same => Option.some.inj same ▸ lower,
      fun instant same => Option.some.inj same ▸ upper⟩
    simp only [FourDigitYear, oneDayMicros] at lower upper
    intro sum member
    have listed : sum = ends.1 ∨ sum = ends.2 ∨ sum = ends.1 + -oneDayMicros ∨
        sum = ends.2 + oneDayMicros := by
      cases isDynamic <;> simp [endsPlan] at member <;> tauto
    simp only [oneDayMicros] at listed
    rw [fits_iff]
    omega

/-- The window of every scan is exact just when its literals have room for their
padding and the bounds that are sent are with it in the years 1 to 9999. A literal
is stored in 64 bits. -/
theorem window_exact_iff (prints : engine.PrintsTimestamps) (least : PrintsLeast engine)
    (calls : List (List (Expression Json))) (names : List String) (window : DefaultWindow)
    (now : Int)
    (stored : ∀ hint ∈ allHints engine get calls.flatten, fitsInt64 hint.instant = true) :
    WindowExact engine get calendarId calls names window now ↔
      InYears engine (allHints engine get calls.flatten) window now := by
  rw [exact_iff_planned engine get calendarId prints least]
  by_cases given : allHints engine get calls.flatten ≠ []
  · have planned : planOf engine (allHints engine get calls.flatten) window now =
        some (hintsPlan (allHints engine get calls.flatten)) := if_pos given
    rw [planned, InYears, if_pos given, ← hints_in_years _ stored]
    simp
  · rw [InYears, if_neg given, planOf, if_neg given]
    cases present : window.hasDefaultWindow with
    | false => simp
    | true =>
      cases width : windowEnds engine window now with
      | error error => simp
      | ok ends => simp [ends_in_years]

/-- `WHERE start >= literal` on a scan of the single column `start`. -/
def startsFrom (literal : Int) : List (List (Expression Json)) :=
  [[.comparison .greaterThanOrEqualTo (.columnRef 0) (.foldable (.ok (.timestampTz literal)))]]

/-- The hints of the filter of the example. -/
theorem starts_from_hints (engine : Engine) (literal : Int) :
    allHints engine ⟨[0], ["start"]⟩ (startsFrom literal).flatten = [.lower literal] := rfl

/-- Its window is exact. -/
theorem june_window_exact :
    (Engine.documented []).PrintsTimestamps ∧ PrintsLeast (.documented []) ∧
      InYears (.documented []) [.lower 1781049600000000] {} 0 ∧
      WindowExact (.documented []) ⟨[0], ["start"]⟩ "work" (startsFrom 1781049600000000)
        ["start"] {} 0 := by
  have least : PrintsLeast (.documented []) := rfl
  have inYears : InYears (.documented []) [.lower 1781049600000000] {} 0 := by
    rw [InYears, if_pos (by simp)]
    refine ⟨?_, ?_, ?_⟩
    · rintro hint member
      obtain rfl := List.mem_singleton.mp member
      simp [Roomy, oneDayMicros]
    · rintro literal ⟨⟩
      decide
    · rintro literal ⟨⟩
  refine ⟨Engine.documented_prints [], least, inYears, (window_exact_iff (.documented [])
    ⟨[0], ["start"]⟩ "work" (Engine.documented_prints []) least (startsFrom 1781049600000000)
    ["start"] {} 0 ?_).mpr inYears⟩
  rintro hint member
  obtain rfl := List.mem_singleton.mp member
  decide

/-- The lower bound of `-infinity` wraps round to a year that is later than all others. -/
theorem minus_infinity_wraps :
    (Engine.documented []).PrintsTimestamps ∧ PrintsLeast (.documented []) ∧
      effectiveBounds (.documented []) (afterCalls (.documented []) ⟨[0], ["start"]⟩
          (startsFrom ninfinity) (makeCalendarScanBindData "work" ["start"])) {} 0 =
        .ok (some "294247-01-09T04:00:54.775809Z", none) ∧
      ¬ WindowExact (.documented []) ⟨[0], ["start"]⟩ "work" (startsFrom ninfinity)
        ["start"] {} 0 := by
  have sent : effectiveBounds (.documented []) (afterCalls (.documented []) ⟨[0], ["start"]⟩
      (startsFrom ninfinity) (makeCalendarScanBindData "work" ["start"])) {} 0 =
        .ok (some "294247-01-09T04:00:54.775809Z", none) := by
    decide +kernel
  refine ⟨Engine.documented_prints [], rfl, sent, fun exact => ?_⟩
  simp only [WindowExact, starts_from_hints] at exact
  have fits := exact.1.1 (padded (.lower ninfinity)) (List.mem_cons_self ..)
  exact absurd fits (by decide)

/-! The default windows that an attachment describes. -/

section Attached

open AttachWindow

variable {ω : Type} (functions : WindowFunctions ω)

/-- The ends that the options of an attachment describe at the time of a scan. -/
inductive Describes (now : Int) : WindowOptions ω → Int × Int → Prop where
  | lengthAlone (length : ω) (width : Interval) (micros : Int)
      (cast : functions.castInterval length = .ok width)
      (counted : engine.getMicro width = .ok micros) :
      Describes now { defaultWindowLength := some length }
        (now - micros.tdiv 2, now + micros.tdiv 2)
  | startEnd (start finish : ω) (first last : Int)
      (starts : functions.castTimestampTz start = .ok first)
      (ends : functions.castTimestampTz finish = .ok last) :
      Describes now { defaultWindowStart := some start, defaultWindowEnd := some finish }
        (first, last)
  | startLength (start length : ω) (first last : Int) (width : Interval)
      (starts : functions.castTimestampTz start = .ok first)
      (cast : functions.castInterval length = .ok width)
      (added : functions.intervalAdd first width = .ok last) :
      Describes now { defaultWindowStart := some start, defaultWindowLength := some length }
        (first, last)
  | endLength (finish length : ω) (first last : Int) (width : Interval)
      (ends : functions.castTimestampTz finish = .ok last)
      (cast : functions.castInterval length = .ok width)
      (added : functions.intervalAdd last (negated width) = .ok first) :
      Describes now { defaultWindowEnd := some finish, defaultWindowLength := some length }
        (first, last)

/-- An option that is cast is a timestamp. -/
theorem toTs_ok (val : ω) (name : String) (micros : Int) :
    toTs functions val name = .ok micros ↔ functions.castTimestampTz val = .ok micros := by
  cases cast : functions.castTimestampTz val <;> simp [toTs, cast]

/-- An option that is cast is an interval. -/
theorem toIv_ok (val : ω) (interval : Interval) :
    toIv functions val = .ok interval ↔ functions.castInterval val = .ok interval := by
  cases cast : functions.castInterval val <;> simp [toIv, cast]

/-- The ends of a static window. -/
theorem static_ends (first last now : Int) (ends : Int × Int) :
    windowEnds engine (staticWindow first last) now = .ok ends ↔ ends = (first, last) := by
  simp only [windowEnds, staticWindow, Bool.false_eq_true, if_false, Except.ok.injEq]
  exact eq_comm

/-- The ends of a dynamic window. -/
theorem dynamic_ends (length : Interval) (now : Int) (ends : Int × Int) :
    windowEnds engine (dynamicWindow length) now = .ok ends ↔
      ∃ micros, engine.getMicro length = .ok micros ∧
        ends = (now - micros.tdiv 2, now + micros.tdiv 2) := by
  simp only [windowEnds, dynamicWindow, if_true]
  cases counted : engine.getMicro length with
  | error error => simp [Except.map]
  | ok micros =>
    simp only [Except.map, Except.ok.injEq, exists_eq_left']
    exact eq_comm

/-- What follows a result gives one when both do. -/
theorem bind_ok {α β : Type} (outcome : Except Exception α) (next : α → Except Exception β)
    (result : β) : (outcome >>= next) = .ok result ↔
      ∃ value, outcome = .ok value ∧ next value = .ok result := by
  cases outcome with
  | error error => simp [bind, Except.bind]
  | ok value => simp [bind, Except.bind]

/-- A window that is read has the ends that its options describe. -/
theorem read_described (options : WindowOptions ω) (now : Int) (ends : Int × Int)
    (window : DefaultWindow) (read : readDefaultWindow functions options = .ok window)
    (present : window.hasDefaultWindow = true) (isEnds : windowEnds engine window now = .ok ends) :
    Describes engine functions now options ends := by
  obtain ⟨start, finish, length⟩ := options
  match start, finish, length with
  | none, none, none =>
    obtain rfl := Except.ok.inj read
    simp at present
  | some _, some _, some _ | some _, none, none | none, some _, none =>
    simp [readDefaultWindow] at read
  | none, none, some length =>
    obtain ⟨width, cast, made⟩ := (bind_ok _ _ _).mp read
    obtain rfl := Except.ok.inj made
    obtain ⟨micros, counted, rfl⟩ := (dynamic_ends engine width now ends).mp isEnds
    exact .lengthAlone length width micros ((toIv_ok functions _ _).mp cast) counted
  | some start, some finish, none =>
    obtain ⟨first, starts, rest⟩ := (bind_ok _ _ _).mp read
    obtain ⟨last, finishes, made⟩ := (bind_ok _ _ _).mp rest
    obtain rfl := Except.ok.inj made
    obtain rfl := (static_ends engine first last now ends).mp isEnds
    exact .startEnd start finish first last ((toTs_ok functions _ _ _).mp starts)
      ((toTs_ok functions _ _ _).mp finishes)
  | some start, none, some length =>
    obtain ⟨first, starts, rest⟩ := (bind_ok _ _ _).mp read
    obtain ⟨width, cast, others⟩ := (bind_ok _ _ _).mp rest
    obtain ⟨last, added, made⟩ := (bind_ok _ _ _).mp others
    obtain rfl := Except.ok.inj made
    obtain rfl := (static_ends engine first last now ends).mp isEnds
    exact .startLength start length first last width ((toTs_ok functions _ _ _).mp starts)
      ((toIv_ok functions _ _).mp cast) added
  | none, some finish, some length =>
    obtain ⟨last, finishes, rest⟩ := (bind_ok _ _ _).mp read
    obtain ⟨width, cast, others⟩ := (bind_ok _ _ _).mp rest
    obtain ⟨first, added, made⟩ := (bind_ok _ _ _).mp others
    obtain rfl := Except.ok.inj made
    obtain rfl := (static_ends engine first last now ends).mp isEnds
    exact .endLength finish length first last width ((toTs_ok functions _ _ _).mp finishes)
      ((toIv_ok functions _ _).mp cast) added

/-- Options that describe ends are read as a window of these. -/
theorem described_read (options : WindowOptions ω) (now : Int) (ends : Int × Int)
    (described : Describes engine functions now options ends) :
    ∃ window, readDefaultWindow functions options = .ok window ∧
      window.hasDefaultWindow = true ∧ windowEnds engine window now = .ok ends := by
  cases described with
  | lengthAlone length width micros cast counted =>
    refine ⟨dynamicWindow width, ?_, rfl, (dynamic_ends engine width now _).mpr
      ⟨micros, counted, rfl⟩⟩
    simp only [readDefaultWindow, toIv, cast]
    rfl
  | startEnd start finish first last starts ends =>
    refine ⟨staticWindow first last, ?_, rfl, rfl⟩
    simp only [readDefaultWindow, toTs, starts, ends]
    rfl
  | startLength start length first last width starts cast added =>
    refine ⟨staticWindow first last, ?_, rfl, rfl⟩
    simp only [readDefaultWindow, toTs, toIv, starts, cast, added, bind, Except.bind]
    rfl
  | endLength finish length first last width ends cast added =>
    refine ⟨staticWindow first last, ?_, rfl, rfl⟩
    simp only [readDefaultWindow, toTs, toIv, ends, cast, added, bind, Except.bind]
    rfl

/-- An attachment keeps the default window that its options describe. -/
theorem attached_ends_iff (options : WindowOptions ω) (now : Int) (ends : Int × Int) :
    (∃ window, readDefaultWindow functions options = .ok window ∧
        window.hasDefaultWindow = true ∧ windowEnds engine window now = .ok ends) ↔
      Describes engine functions now options ends := by
  constructor
  · rintro ⟨window, read, present, isEnds⟩
    exact read_described engine functions options now ends window read present isEnds
  · exact described_read engine functions options now ends

end Attached

end GoogleCalendar.WindowHints
