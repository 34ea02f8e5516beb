import GoogleCalendar.TimeNodes

/-!
# The instants that start and end nodes denote

A date denotes the midnight of its day in UTC. A date-time denotes the instant
the engine casts it to, and also bears the civil day that its text begins with,
in its own offset. Both encoders and the reader are followed on these two: the
encoder of a SET value goes by the instant, the one that `all_day` calls for by
the text, and so by the day that is written.
-/

namespace GoogleCalendar.EventTimes

open Library CivilTime Rfc3339 EventMapping ColumnCells TimeNodes

variable (engine : Engine)

/-- A well-formed node with its kind, the day it writes and its instant. -/
inductive Denotes : Json → Bool → Int → Int → Prop where
  | date (node : Json) (raw : String) (day : Int) (encodes : Encodes node true)
      (text : rawTime node = some raw) (read : readDate raw = some day) :
      Denotes node true day (day * dayMicros)
  | dateTime (node : Json) (raw : String) (day instant : Int) (encodes : Encodes node false)
      (text : rawTime node = some raw) (longer : 10 < raw.length)
      (read : readDate (datePart raw) = some day)
      (cast : engine.castTimestampTz raw = some instant) : Denotes node false day instant

/-- An RFC 3339 date-time node denotes the instant that its text writes. -/
theorem denotes_rfc3339 (casts : engine.CastsTimes) (node : Json) (raw : String)
    (reading : DateTime) (encodes : Encodes node false) (text : rawTime node = some raw)
    (read : readDateTime raw = some reading) :
    Denotes engine node false reading.day reading.instant := by
  obtain ⟨date, longer⟩ := read_date_time_date raw reading read
  apply Denotes.dateTime node raw reading.day reading.instant encodes text
  · rwa [← String.length_toList]
  · simpa [readDate, datePart] using date
  · exact casts.dateTime raw reading read

/-- A node that denotes an instant is one of its encoding. -/
theorem denotes_encodes (node : Json) (allDay : Bool) (day instant : Int)
    (denotes : Denotes engine node allDay day instant) : Encodes node allDay := by
  cases denotes with
  | date raw day encodes text read => exact encodes
  | dateTime raw _ _ encodes text longer read cast => exact encodes

/-- An event whose node under a key has a kind, writes a day and denotes an instant. -/
def Bears (event : Json) (key : String) (allDay : Bool) (day instant : Int) : Prop :=
  ∃ node, event.find key = some node ∧ Denotes engine node allDay day instant

/-- An event whose node is an RFC 3339 text bears the instant that it denotes. -/
theorem bears_rfc3339 (casts : engine.CastsTimes) (event node : Json) (key raw : String)
    (reading : DateTime) (instant : Int) (found : event.find key = some node)
    (encodes : Encodes node false) (text : rawTime node = some raw)
    (read : readDateTime raw = some reading) (denoted : reading.instant = instant) :
    Bears engine event key false reading.day instant :=
  ⟨node, found, denoted ▸ denotes_rfc3339 engine casts node raw reading encodes text read⟩

/-- The reader gets the instant that an event bears. -/
theorem parse_borne (casts : engine.CastsTimes) (event : Json) (which : String)
    (allDay : Bool) (day instant : Int) (borne : Bears engine event which allDay day instant) :
    parseEventTime engine event which = .timestampTz instant := by
  obtain ⟨node, found, denotes⟩ := borne
  have object := encodes_object node allDay (denotes_encodes engine node allDay day instant denotes)
  cases denotes with
  | date raw day encodes text read =>
    simp [parseEventTime, found, object, text, casts.date raw day read]
  | dateTime raw _ _ encodes text longer read cast =>
    simp [parseEventTime, found, object, text, cast]

/-- An event is all-day when it bears a date at its start. -/
theorem existing_borne (event : Json) (allDay : Bool) (day instant : Int)
    (borne : Bears engine event "start" allDay day instant) : existingAllDay event = allDay := by
  obtain ⟨node, found, denotes⟩ := borne
  exact existing_of_kind event node allDay found
    (denotes_encodes engine node allDay day instant denotes).kind

/-- A date denotes the midnight of the day it writes. -/
theorem date_borne (event : Json) (key : String) (day instant : Int)
    (borne : Bears engine event key true day instant) : instant = day * dayMicros := by
  obtain ⟨node, -, denotes⟩ := borne
  cases denotes with
  | date raw day encodes text read => rfl

/-- A day of the years 1 to 9999 is printed as a date that denotes it. -/
theorem denotes_printed_date (day : Int) (first : 1 ≤ (civilOfDay day).year)
    (last : (civilOfDay day).year ≤ 9999) :
    Denotes engine (.object [("date", .string (dateText (civilOfDay day)))]) true day
      (day * dayMicros) :=
  .date _ (dateText (civilOfDay day)) day (encodes_date _) rfl (read_date_text day first last)

/-- The date of an instant of a year of four digits. -/
theorem format_date_year (prints : engine.PrintsTimestamps) (instant : Int)
    (bounded : FourDigitYear instant) :
    formatDate engine (.timestampTz instant) = dateText (civilOfDay (instant / dayMicros)) := by
  obtain ⟨first, last⟩ := four_digit_year instant bounded
  have length := date_text_exact (instant / dayMicros) first last
  simp only [formatDate, datePart, Value.getTimestamp, prints.year instant bounded,
    timestampText, String.toList_append, List.append_assoc, List.take_left' length,
    String.ofList_toList]

/-- The RFC 3339 text of an instant of a year of four digits. -/
theorem format_rfc3339_year (prints : engine.PrintsTimestamps) (instant : Int)
    (bounded : FourDigitYear instant) :
    formatRfc3339 engine (.timestampTz instant) = rfc3339Text instant := by
  rw [← rfc3339_of_timestamp instant bounded, formatRfc3339, Value.getTimestamp,
    prints.year instant bounded]

/-- The encoder of a SET value keeps its instant in a date-time, and the day of its
instant in UTC in a date. -/
theorem denotes_time_node (prints : engine.PrintsTimestamps) (casts : engine.CastsTimes)
    (instant : Int) (bounded : FourDigitYear instant) (allDay : Bool) :
    Denotes engine (timeNode engine (.timestampTz instant) allDay) allDay (instant / dayMicros)
      (if allDay then instant / dayMicros * dayMicros else instant) := by
  obtain ⟨first, last⟩ := four_digit_year instant bounded
  cases allDay with
  | true =>
    simp only [timeNode, if_true, format_date_year engine prints instant bounded]
    exact denotes_printed_date engine (instant / dayMicros) first last
  | false =>
    have denoted := denotes_rfc3339 engine casts (.object [("dateTime", .string
      (rfc3339Text instant))]) (rfc3339Text instant) ⟨instant / dayMicros, instant % dayMicros, 0⟩
      (encodes_date_time _) rfl (read_rfc3339_text instant bounded)
    rw [instant_of_day_clock] at denoted
    simp only [timeNode, Bool.false_eq_true, if_false,
      format_rfc3339_year engine prints instant bounded]
    exact denoted

/-- The encoder that `all_day` calls for keeps the day that is written: a date
denotes its midnight, and a date-time stays at its instant. -/
theorem denotes_reencoded (casts : engine.CastsTimes) (node : Json) (before allDay : Bool)
    (day instant : Int) (denotes : Denotes engine node before day instant) :
    Denotes engine (reencodedNode allDay node) allDay day
      (if allDay then day * dayMicros else instant) := by
  have object := encodes_object node before (denotes_encodes engine node before day instant denotes)
  cases denotes with
  | date raw day encodes text read =>
    have length := read_date_length raw.toList day read
    rw [String.length_toList] at length
    have whole : datePart raw = raw := by
      simp only [datePart]
      rw [List.take_of_length_le (by rw [String.length_toList]; omega), String.ofList_toList]
    simp only [reencodedNode, object, if_true, text, rebuiltTimeNode, whole, length]
    cases allDay with
    | true => exact .date _ raw day (encodes_date raw) rfl read
    | false =>
      have midnight := denotes_rfc3339 engine casts (.object [("dateTime", .string
        (raw ++ "T00:00:00Z"))]) (raw ++ "T00:00:00Z") ⟨day, 0, 0⟩ (encodes_date_time _) rfl
        (read_midnight raw day read)
      simpa [DateTime.instant] using midnight
  | dateTime raw _ _ encodes text longer read cast =>
    have notDate : ¬ raw.length = 10 := by omega
    simp only [reencodedNode, object, if_true, text, rebuiltTimeNode, notDate, if_false]
    cases allDay with
    | true => exact .date _ (datePart raw) day (encodes_date _) rfl read
    | false => exact .dateTime _ raw day instant (encodes_date_time raw) rfl longer read cast

/-- The morning's meeting bears what its texts write. -/
theorem morning_bears (documents : List (String × Json)) :
    Bears (.documented documents) (.ofMembers morning) "start" false 20614 1781082000000000 ∧
      Bears (.documented documents) (.ofMembers morning) "end" false 20614 1781085600000000 := by
  constructor
  · exact bears_rfc3339 _ (Engine.documented_casts documents) _ _ "start" "2026-06-10T09:00:00Z"
      ⟨20614, 32400000000, 0⟩ _ rfl (encodes_date_time _) rfl (by decide +kernel) (by decide)
  · exact bears_rfc3339 _ (Engine.documented_casts documents) _ _ "end" "2026-06-10T10:00:00Z"
      ⟨20614, 36000000000, 0⟩ _ rfl ⟨rfl, rfl⟩ rfl (by decide +kernel) (by decide)

end GoogleCalendar.EventTimes
