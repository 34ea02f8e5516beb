import GoogleCalendar.EventTimes
import GoogleCalendar.UpdateFrame

/-!
# Flipping all_day

Setting `all_day` alone re-encodes the nodes from their texts, and setting it
together with the times it read encodes them from their instants. To a date-time
this is the same. To a date it is not: the text gives the day that is written,
in the offset of the text, and the instant the day in UTC. The two agree just
when these are the same day.

As each node is cut to its own day, the order of start and end can be lost: an
event within one written day is left with its two dates equal.
-/

namespace GoogleCalendar.AllDayFlips

open Library CivilTime Rfc3339 EventMapping CalendarUpdate ColumnCells TimeNodes
  EventTimes UpdateFrame

variable (engine : Engine)

/-- An instant of a year of four digits is printed. -/
theorem printable_of_year (instant : Int) (bounded : FourDigitYear instant) :
    Printable (.timestampTz instant) := by
  intro micros same
  obtain rfl := Value.timestampTz.inj same
  simp only [FourDigitYear, ninfinity, infinity] at bounded ⊢
  omega

/-- A node that is not SET keeps the day it writes when `all_day` is. -/
theorem flipped_node (casts : engine.CastsTimes) (returnChunk : Bool)
    (columns : List (String × Value)) (val : Value) (members : OrderedMap String Json)
    (body : Json) (key : String) (before : Bool) (day instant : Int)
    (distinct : (columns.map Prod.fst).Nodup) (flips : ("all_day", val) ∈ columns)
    (time : IsTimeKey key) (unset : key ∉ columns.map Prod.fst)
    (borne : Bears engine (.ofMembers members) key before day instant)
    (made : putBody engine returnChunk columns (.ofMembers members) = .ok body) :
    Bears engine body key (val = .boolean true) day
      (if val = .boolean true then day * dayMicros else instant) := by
  obtain ⟨node, found, denotes⟩ := borne
  obtain ⟨after, rfl, cells⟩ := put_body_cells engine returnChunk columns members body made
  have target : effectiveAllDay columns (.ofMembers members) = decide (val = .boolean true) := by
    rw [effective_is_target columns _ distinct, targetAllDay,
      lookup_of_mem columns "all_day" val distinct flips]
  have listed : "all_day" ∈ columns.map Prod.fst := List.mem_map.mpr ⟨_, flips, rfl⟩
  rw [Json.find_of_members] at found
  refine ⟨reencodedNode (val = .boolean true) node, ?_, ?_⟩
  · rw [Json.find_of_members, cells key, found, target,
      unset_time_cell engine _ columns key node time distinct unset, if_pos listed]
  · have left := denotes_reencoded engine casts node before (decide (val = .boolean true)) day
      instant denotes
    simpa only [decide_eq_true_eq] using left

/-- A node that is SET to an instant bears its day in UTC. -/
theorem reset_node (prints : engine.PrintsTimestamps) (casts : engine.CastsTimes)
    (returnChunk : Bool) (columns : List (String × Value)) (members : OrderedMap String Json)
    (body : Json) (key : String) (instant : Int) (distinct : (columns.map Prod.fst).Nodup)
    (time : IsTimeKey key) (set : (key, .timestampTz instant) ∈ columns)
    (bounded : FourDigitYear instant)
    (made : putBody engine returnChunk columns (.ofMembers members) = .ok body) :
    Bears engine body key (effectiveAllDay columns (.ofMembers members)) (instant / dayMicros)
      (if effectiveAllDay columns (.ofMembers members) then instant / dayMicros * dayMicros
        else instant) := by
  obtain ⟨after, rfl, cells⟩ := put_body_cells engine returnChunk columns members body made
  refine ⟨_, ?_, denotes_time_node engine prints casts instant bounded _⟩
  rw [Json.find_of_members, cells key, owner_decides engine prints _ columns key key _ _ distinct
    set (time_keyed key time) (fun _ => printable_of_year instant bounded),
    written_time engine _ key _ _ time]
  rfl

/-- Whether two bodies read the same in the columns that a flip concerns. -/
def SameTimes (left right : Json) : Prop :=
  ∀ field ∈ ["start", "end", "all_day"],
    extractField engine left field = extractField engine right field

/-- Bodies with both nodes in one kind read the same when their instants do. -/
theorem same_times_iff (casts : engine.CastsTimes) (left right : Json) (allDay : Bool)
    (leftStartDay leftStart leftEndDay leftEnd rightStartDay rightStart rightEndDay rightEnd : Int)
    (leftStarts : Bears engine left "start" allDay leftStartDay leftStart)
    (leftEnds : Bears engine left "end" allDay leftEndDay leftEnd)
    (rightStarts : Bears engine right "start" allDay rightStartDay rightStart)
    (rightEnds : Bears engine right "end" allDay rightEndDay rightEnd) :
    SameTimes engine left right ↔ leftStart = rightStart ∧ leftEnd = rightEnd := by
  have startField : ∀ event, extractField engine event "start" =
      parseEventTime engine event "start" := fun _ => rfl
  have endField : ∀ event, extractField engine event "end" =
      parseEventTime engine event "end" := fun _ => rfl
  have flagField : ∀ event, extractField engine event "all_day" =
      .boolean (existingAllDay event) := fun _ => rfl
  simp only [SameTimes, List.forall_mem_cons, List.not_mem_nil, false_implies, implies_true,
    and_true, startField, endField, flagField, existing_borne engine _ _ _ _ leftStarts,
    existing_borne engine _ _ _ _ rightStarts, parse_borne engine casts _ _ _ _ _ leftStarts,
    parse_borne engine casts _ _ _ _ _ leftEnds, parse_borne engine casts _ _ _ _ _ rightStarts,
    parse_borne engine casts _ _ _ _ _ rightEnds, Value.timestampTz.injEq]

/-- The list that sets `all_day` alone. -/
def flipColumns (target : Bool) : List (String × Value) := [("all_day", .boolean target)]

/-- The flip with the times SET to what they read. -/
def resetColumns (event : Json) (target : Bool) : List (String × Value) :=
  [("all_day", .boolean target), ("start", parseEventTime engine event "start"),
    ("end", parseEventTime engine event "end")]

/-- A flip of `all_day` makes a body of every event. -/
theorem flip_made (returnChunk target : Bool) (members : OrderedMap String Json) :
    ∃ flipped, putBody engine returnChunk (flipColumns target) (.ofMembers members) =
      .ok flipped := by
  have writable : ∀ column ∈ flipColumns target, isWritable column.1 = true := by
    cases target <;> decide
  exact (body_made_iff engine returnChunk _ members).mpr (Or.inr writable)

/-- Setting the times that the event shows makes a body too, in any order. -/
theorem reset_made (returnChunk target : Bool) (members : OrderedMap String Json)
    (columns : List (String × Value))
    (perm : columns.Perm (resetColumns engine (.ofMembers members) target)) :
    ∃ reset, putBody engine returnChunk columns (.ofMembers members) = .ok reset := by
  have writable : ∀ name ∈ ["all_day", "start", "end"], isWritable name = true := by decide
  apply (body_made_iff engine returnChunk columns members).mpr
  right
  intro column member
  exact writable column.1 ((perm.map Prod.fst).mem_iff.mp (List.mem_map_of_mem member))

/-- A flip alone and a flip with the times SET to what they read leave events that
read the same, just when no date is asked for or both nodes are written on their
days in UTC. -/
theorem flip_agrees_iff (prints : engine.PrintsTimestamps) (casts : engine.CastsTimes)
    (returnChunk : Bool) (members : OrderedMap String Json) (columns : List (String × Value))
    (startKind endKind target : Bool) (startDay startInstant endDay endInstant : Int)
    (starts : Bears engine (.ofMembers members) "start" startKind startDay startInstant)
    (ends : Bears engine (.ofMembers members) "end" endKind endDay endInstant)
    (startBounded : FourDigitYear startInstant) (endBounded : FourDigitYear endInstant)
    (perm : columns.Perm (resetColumns engine (.ofMembers members) target)) :
    ∃ flipped reset,
      putBody engine returnChunk (flipColumns target) (.ofMembers members) = .ok flipped ∧
      putBody engine returnChunk columns (.ofMembers members) = .ok reset ∧
      (SameTimes engine flipped reset ↔
        (target = true → startDay = startInstant / dayMicros ∧ endDay =
          endInstant / dayMicros)) := by
  obtain ⟨flipped, flip⟩ := flip_made engine returnChunk target members
  obtain ⟨reset, set⟩ := reset_made engine returnChunk target members columns perm
  refine ⟨flipped, reset, flip, set, ?_⟩
  rw [resetColumns, parse_borne engine casts _ _ _ _ _ starts,
    parse_borne engine casts _ _ _ _ _ ends] at perm
  have distinct : (columns.map Prod.fst).Nodup := (perm.map Prod.fst).nodup_iff.mpr (by simp)
  have flag : effectiveAllDay columns (.ofMembers members) = target :=
    effective_of_listed columns _ (.boolean target) distinct (perm.mem_iff.mpr (by simp))
  have kind : decide (Value.boolean target = .boolean true) = target := by cases target <;> rfl
  have flips : ∀ key day instant before, IsTimeKey key →
      Bears engine (.ofMembers members) key before day instant →
      Bears engine flipped key target day (if target then day * dayMicros else instant) := by
    intro key day instant before time borne
    have left := flipped_node engine casts returnChunk (flipColumns target) (.boolean target)
      members flipped key before day instant (by simp [flipColumns]) (by simp [flipColumns]) time
      (by rcases time with rfl | rfl <;> simp [flipColumns]) borne flip
    rw [kind] at left
    simpa using left
  have sets : ∀ key instant, IsTimeKey key → (key, .timestampTz instant) ∈ columns →
      FourDigitYear instant → Bears engine reset key target (instant / dayMicros)
        (if target then instant / dayMicros * dayMicros else instant) := by
    intro key instant time member bounded
    have left := reset_node engine prints casts returnChunk columns members reset key instant
      distinct time member bounded set
    rwa [flag] at left
  rw [same_times_iff engine casts flipped reset target _ _ _ _ _ _ _ _
    (flips "start" _ _ _ (Or.inl rfl) starts) (flips "end" _ _ _ (Or.inr rfl) ends)
    (sets "start" _ (Or.inl rfl) (perm.mem_iff.mpr (by simp)) startBounded)
    (sets "end" _ (Or.inr rfl) (perm.mem_iff.mpr (by simp)) endBounded)]
  have positive : dayMicros ≠ 0 := by decide
  cases target with
  | false => simp
  | true => simp [Int.mul_eq_mul_right_iff positive]

/-- The morning's meeting, on one day in UTC, flips the same in both ways. -/
theorem morning_flips_alike :
    ∃ flipped reset,
      putBody (.documented []) false (flipColumns true) (.ofMembers morning) = .ok flipped ∧
      putBody (.documented []) false
        (resetColumns (.documented []) (.ofMembers morning) true).reverse
        (.ofMembers morning) = .ok reset ∧
      SameTimes (.documented []) flipped reset := by
  obtain ⟨starts, ends⟩ := morning_bears []
  obtain ⟨flipped, reset, flip, set, agrees⟩ := flip_agrees_iff (.documented [])
    (Engine.documented_prints []) (Engine.documented_casts []) false morning _ false false true
    20614 1781082000000000 20614 1781085600000000 starts ends (by decide) (by decide)
    (List.reverse_perm _)
  exact ⟨flipped, reset, flip, set, agrees.mpr (by decide)⟩

/-- A night on the east coast, past midnight in UTC from its start on. -/
def night : OrderedMap String Json :=
  (OrderedMap.empty.insert "start"
    (.object [("dateTime", .string "2024-01-01T23:00:00-05:00")])).insert
      "end" (.object [("dateTime", .string "2024-01-02T00:30:00-05:00")])

/-- Both ends of the night are instants of their dates. -/
theorem night_bears (documents : List (String × Json)) :
    Bears (.documented documents) (.ofMembers night) "start" false 19723 1704168000000000 ∧
      Bears (.documented documents) (.ofMembers night) "end" false 19724 1704173400000000 := by
  constructor
  · exact bears_rfc3339 _ (Engine.documented_casts documents) _ _ "start"
      "2024-01-01T23:00:00-05:00" ⟨19723, 82800000000, -18000000000⟩ _ rfl (encodes_date_time _) rfl
      (by decide +kernel) (by decide)
  · exact bears_rfc3339 _ (Engine.documented_casts documents) _ _ "end"
      "2024-01-02T00:30:00-05:00" ⟨19724, 1800000000, -18000000000⟩ _ rfl (encodes_date_time _) rfl
      (by decide +kernel) (by decide)

/-- The night is cut to its own days by the flip alone, and to those in UTC with its
times. -/
theorem night_flips_apart :
    ∃ flipped reset,
      putBody (.documented []) false (flipColumns true) (.ofMembers night) = .ok flipped ∧
      putBody (.documented []) false (resetColumns (.documented []) (.ofMembers night) true)
        (.ofMembers night) = .ok reset ∧
      extractField (.documented []) flipped "start" = .timestampTz (19723 * dayMicros) ∧
      extractField (.documented []) reset "start" = .timestampTz (19724 * dayMicros) ∧
      ¬ SameTimes (.documented []) flipped reset := by
  refine ⟨_, _, rfl, rfl, by decide +kernel, by decide +kernel, ?_⟩
  intro same
  have start := same "start" (by simp)
  revert start
  decide +kernel

/-- An event whose times are not SET keeps its order when it is made timed, or is
all-day already; made an all-day event it does just when its start is written on
an earlier day than its end. -/
theorem flip_keeps_order_iff (casts : engine.CastsTimes) (returnChunk : Bool)
    (columns : List (String × Value)) (val : Value) (members : OrderedMap String Json)
    (body : Json) (allDay : Bool) (startDay startInstant endDay endInstant : Int)
    (distinct : (columns.map Prod.fst).Nodup) (flips : ("all_day", val) ∈ columns)
    (unset : ∀ key, IsTimeKey key → key ∉ columns.map Prod.fst)
    (starts : Bears engine (.ofMembers members) "start" allDay startDay startInstant)
    (ends : Bears engine (.ofMembers members) "end" allDay endDay endInstant)
    (ordered : startInstant < endInstant)
    (made : putBody engine returnChunk columns (.ofMembers members) = .ok body) :
    ∃ newStart newEnd,
      extractField engine body "start" = .timestampTz newStart ∧
      extractField engine body "end" = .timestampTz newEnd ∧
      (val ≠ .boolean true ∨ allDay = true → newStart < newEnd) ∧
      (val = .boolean true → (newStart < newEnd ↔ startDay < endDay)) := by
  have startLeft := flipped_node engine casts returnChunk columns val members body "start" allDay
    startDay startInstant distinct flips (Or.inl rfl) (unset "start" (Or.inl rfl)) starts made
  have endLeft := flipped_node engine casts returnChunk columns val members body "end" allDay
    endDay endInstant distinct flips (Or.inr rfl) (unset "end" (Or.inr rfl)) ends made
  have days : startDay * dayMicros < endDay * dayMicros ↔ startDay < endDay :=
    Int.mul_lt_mul_right (by decide)
  refine ⟨_, _, parse_borne engine casts body "start" _ _ _ startLeft,
    parse_borne engine casts body "end" _ _ _ endLeft, ?_, ?_⟩
  · intro kept
    by_cases asked : val = .boolean true
    · obtain rfl : allDay = true := kept.resolve_left (fun other => other asked)
      rw [if_pos asked, if_pos asked, ← date_borne engine _ _ _ _ starts,
        ← date_borne engine _ _ _ _ ends]
      exact ordered
    · rw [if_neg asked, if_neg asked]
      exact ordered
  · intro asked
    rw [if_pos asked, if_pos asked]
    exact days

/-- The night stays non-empty as an all-day event. -/
theorem night_keeps_order :
    ∃ body newStart newEnd,
      putBody (.documented []) false (flipColumns true) (.ofMembers night) = .ok body ∧
      extractField (.documented []) body "start" = .timestampTz newStart ∧
      extractField (.documented []) body "end" = .timestampTz newEnd ∧ newStart < newEnd := by
  obtain ⟨body, made⟩ := flip_made (.documented []) false true night
  obtain ⟨newStart, newEnd, start, ending, -, asked⟩ := flip_keeps_order_iff (.documented [])
    (Engine.documented_casts []) false (flipColumns true) (.boolean true) night body false 19723
    1704168000000000 19724 1704173400000000 (by decide) (by decide)
    (by rintro key (rfl | rfl) <;> decide) (night_bears []).1 (night_bears []).2 (by decide) made
  exact ⟨body, newStart, newEnd, made, start, ending, (asked rfl).mpr (by decide)⟩

/-- The morning's meeting is left with its two dates equal. -/
theorem morning_left_empty :
    extractField (.documented []) (.ofMembers morning) "start" = .timestampTz 1781082000000000 ∧
    extractField (.documented []) (.ofMembers morning) "end" = .timestampTz 1781085600000000 ∧
    ∃ body, putBody (.documented []) false (flipColumns true) (.ofMembers morning) = .ok body ∧
      extractField (.documented []) body "start" = .timestampTz (20614 * dayMicros) ∧
      extractField (.documented []) body "end" = .timestampTz (20614 * dayMicros) :=
  ⟨by decide +kernel, by decide +kernel, _, rfl, by decide +kernel, by decide +kernel⟩

end GoogleCalendar.AllDayFlips
