import GoogleCalendar.AllDayFlips
import GoogleCalendar.ColumnReads

/-!
# Writing back what was read

An UPDATE that SETs every writable column to what it reads changes the body: a
null is erased, a value of another kind becomes text, a time is rewritten in UTC
or as a date. A second reading gives the same row all the same. For most columns
this is one member looked at alone. The times need the flag as well, which the
list SETs to the event's own kind, so that dates stay dates.
-/

namespace GoogleCalendar.WriteBack

open Library CivilTime EventMapping CalendarUpdate ColumnCells TimeNodes UpdateFrame EventTimes
  AllDayFlips ColumnReads

variable (engine : Engine)

/-- The columns of the schema that UPDATE can write. -/
def writableNames : List String := eventsNames.filter isWritable

/-- Every writable column with the value that it reads. -/
def writeBackColumns (event : Json) : List (String × Value) :=
  writableNames.map (fun name => (name, extractField engine event name))

/-- A passthrough column reads the same from what its text parses to. -/
theorem raw_reads_back (event body : Json) (key : String)
    (roundTrips : ∀ json, event.find key = some json → engine.RoundTrips json)
    (left : body.find key = if (jsonRaw event key).isNull then none
      else (passedThrough engine ((jsonRaw event key).toText engine)).or (event.find key)) :
    jsonRaw body key = jsonRaw event key := by
  cases held : event.find key with
  | none =>
    have read : jsonRaw event key = .null := by simp only [jsonRaw, held]
    rw [read] at left ⊢
    simp only [jsonRaw, left, Value.isNull, if_true]
  | some json =>
    have read := raw_reads event json key held
    by_cases null : json = .null
    · rw [read, if_pos null] at left
      rw [read, if_pos null]
      simp only [jsonRaw, left, Value.isNull, if_true]
    · have parsed : (passedThrough engine json.dump).or (some json) = some json := by
        simp only [passedThrough]
        split
        · rfl
        · rw [roundTrips json held]
          rfl
      rw [read, if_neg null] at left
      simp only [Value.isNull, Bool.false_eq_true, if_false, Value.toText, held, parsed] at left
      rw [read, raw_reads body json key left]

/-- A column reads the same from the member that its own value writes. -/
theorem member_reads_back (event body : Json) (allDay : Bool) (name key : String)
    (keyed : columnKey name = some key) (plain : ¬ IsTimeKey key)
    (roundTrips : ∀ json, event.find key = some json → engine.RoundTrips json)
    (left : body.find key =
      writtenCell engine allDay name (extractField engine event name) (event.find key)) :
    extractField engine body name = extractField engine event name := by
  rcases key_cases name key keyed with isString | isBool | isJson | ⟨-, time⟩
  · rw [read_string engine event name key isString,
      written_string engine allDay name key _ _ isString] at left
    rw [read_string engine body name key isString, read_string engine event name key isString]
    exact string_reads_written engine body key _ (string_is_text event key) left
  · rw [read_boolean engine event name key isBool,
      written_boolean engine allDay name key _ _ isBool] at left
    rw [read_boolean engine body name key isBool, read_boolean engine event name key isBool]
    exact boolean_reads_written body key _ (boolean_is_boolean event key) left
  · rw [read_raw engine event name key isJson,
      written_raw engine allDay name key _ _ isJson] at left
    rw [read_raw engine body name key isJson, read_raw engine event name key isJson]
    exact raw_reads_back engine event body key roundTrips left
  · exact absurd time plain

/-- The columns have the names that UPDATE can write. -/
theorem write_back_names (event : Json) :
    (writeBackColumns engine event).map Prod.fst = writableNames := by
  simp [writeBackColumns, Function.comp_def]

/-- No writable column stands twice. -/
theorem writable_names_distinct : writableNames.Nodup := by decide +kernel

/-- An event with both nodes in one kind and with instants of the years 1 to 9999. -/
def Scheduled (event : Json) (allDay : Bool) : Prop :=
  ∀ key, IsTimeKey key → ∃ day instant,
    Bears engine event key allDay day instant ∧ FourDigitYear instant

/-- A list that writes back what an event reads. -/
structure WritesBack (event : Json) (columns : List (String × Value)) : Prop where
  distinct : (columns.map Prod.fst).Nodup
  writable : ∀ column ∈ columns, isWritable column.1 = true
  listed : ∀ name ∈ eventsNames, isWritable name = true →
    (name, extractField engine event name) ∈ columns

/-- The list writes what the event shows back. -/
theorem writes_back (event : Json) (columns : List (String × Value))
    (perm : columns.Perm (writeBackColumns engine event)) : WritesBack engine event columns := by
  have names : (columns.map Prod.fst).Perm writableNames :=
    write_back_names engine event ▸ perm.map Prod.fst
  constructor
  · exact names.nodup_iff.mpr writable_names_distinct
  · intro column member
    exact (List.mem_filter.mp (names.mem_iff.mp (List.mem_map_of_mem member))).2
  · intro name inSchema writable
    exact perm.mem_iff.mpr
      (List.mem_map.mpr ⟨name, List.mem_filter.mpr ⟨inSchema, writable⟩, rfl⟩)

/-- The list SETs the flag to the event's own kind. -/
theorem write_back_flag (event : Json) (columns : List (String × Value))
    (writes : WritesBack engine event columns) :
    effectiveAllDay columns event = existingAllDay event :=
  effective_of_listed columns event (.boolean (existingAllDay event)) writes.distinct
    (writes.listed "all_day" (by decide) (by decide))

/-- Both nodes still bear their instants, in their kind. -/
theorem times_write_back (prints : engine.PrintsTimestamps) (casts : engine.CastsTimes)
    (returnChunk : Bool) (members : OrderedMap String Json) (columns : List (String × Value))
    (body : Json) (allDay : Bool) (key : String) (day instant : Int)
    (writes : WritesBack engine (.ofMembers members) columns)
    (flag : effectiveAllDay columns (.ofMembers members) = allDay) (time : IsTimeKey key)
    (borne : Bears engine (.ofMembers members) key allDay day instant)
    (bounded : FourDigitYear instant)
    (made : putBody engine returnChunk columns (.ofMembers members) = .ok body) :
    Bears engine body key allDay (instant / dayMicros) instant := by
  have read : extractField engine (.ofMembers members) key = .timestampTz instant := by
    rw [read_time engine _ key time, parse_borne engine casts _ _ _ _ _ borne]
  have keyed := time_keyed key time
  have inList := writes.listed key (writable_in_schema key key keyed) (keyed_writable key key keyed)
  rw [read] at inList
  have left := reset_node engine prints casts returnChunk columns members body key instant
    writes.distinct time inList bounded made
  rw [flag] at left
  cases allDay with
  | false => simpa using left
  | true =>
    have midnight := date_borne engine _ _ _ _ borne
    have same : instant / dayMicros * dayMicros = instant := by
      rw [midnight, Int.mul_ediv_cancel _ (by decide : dayMicros ≠ 0)]
    simpa [same] using left

/-- A column that cannot be written reads the same. -/
theorem unwritable_reads_same (returnChunk : Bool) (members : OrderedMap String Json)
    (columns : List (String × Value)) (body : Json) (field : String)
    (distinct : (columns.map Prod.fst).Nodup) (inSchema : field ∈ eventsNames)
    (unwritable : isWritable field = false)
    (made : putBody engine returnChunk columns (.ofMembers members) = .ok body) :
    extractField engine body field = extractField engine (.ofMembers members) field := by
  obtain ⟨after, rfl, cells⟩ := put_body_cells engine returnChunk columns members body made
  apply read_member
  intro key read
  have unowned := read_key_unwritten field key inSchema unwritable read
  have plain : ¬ IsTimeKey key := by
    rintro (rfl | rfl)
    · exact unowned "start" (by decide)
    · exact unowned "end" (by decide)
  rw [Json.find_of_members, cells key, without_owner engine _ columns key _ distinct
    (fun column _ => unowned column.1), if_neg (fun both => plain both.1)]
  rfl

/-- The writable columns are `all_day` and those with a key. -/
theorem writable_cases (name : String) (writable : isWritable name = true) :
    name = "all_day" ∨ ∃ key, columnKey name = some key := by
  by_cases isAllDay : name = "all_day"
  · exact Or.inl isAllDay
  · right
    rw [← Option.ne_none_iff_exists']
    simpa [isWritable, touchedKeys, isAllDay] using writable

/-- Writing back every writable column, in any order, leaves an event that reads the
same in every column of the schema. -/
theorem write_back_reads_same (prints : engine.PrintsTimestamps) (casts : engine.CastsTimes)
    (returnChunk : Bool) (members : OrderedMap String Json) (columns : List (String × Value))
    (allDay : Bool) (scheduled : Scheduled engine (.ofMembers members) allDay)
    (roundTrips : ∀ key json, members.find key = some json → engine.RoundTrips json)
    (perm : columns.Perm (writeBackColumns engine (.ofMembers members))) :
    ∃ body, putBody engine returnChunk columns (.ofMembers members) = .ok body ∧
      ∀ field ∈ eventsNames,
        extractField engine body field = extractField engine (.ofMembers members) field := by
  have writes := writes_back engine (.ofMembers members) columns perm
  obtain ⟨body, made⟩ :=
    (body_made_iff engine returnChunk columns members).mpr (Or.inr writes.writable)
  refine ⟨body, made, ?_⟩
  obtain ⟨startDay, start, starts, startBounded⟩ := scheduled "start" (Or.inl rfl)
  have kind := existing_borne engine _ _ _ _ starts
  have flag := (write_back_flag engine _ columns writes).trans kind
  intro field inSchema
  cases writable : isWritable field with
  | false =>
    exact unwritable_reads_same engine returnChunk members columns body field writes.distinct
      inSchema writable made
  | true =>
    rcases writable_cases field writable with rfl | ⟨key, keyed⟩
    · have again := times_write_back engine prints casts returnChunk members columns body allDay
        "start" startDay start writes flag (Or.inl rfl) starts startBounded made
      change Value.boolean (existingAllDay _) = .boolean (existingAllDay _)
      rw [existing_borne engine _ _ _ _ again, kind]
    by_cases time : IsTimeKey key
    · obtain rfl := time_key_column field key keyed time
      obtain ⟨day, instant, borne, bounded⟩ := scheduled field time
      have again := times_write_back engine prints casts returnChunk members columns body allDay
        field day instant writes flag time borne bounded made
      rw [read_time engine _ field time, read_time engine _ field time,
        parse_borne engine casts _ _ _ _ _ again, parse_borne engine casts _ _ _ _ _ borne]
    · obtain ⟨after, rfl, cells⟩ := put_body_cells engine returnChunk columns members body made
      apply member_reads_back engine (.ofMembers members) _ _ field key keyed time (roundTrips key)
      rw [Json.find_of_members, cells key]
      exact owner_decides engine prints _ columns field key _ _ writes.distinct
        (writes.listed field inSchema writable) keyed (fun isTime => absurd isTime time)

/-- The morning's meeting with a number for its summary, a null and a list of guests. -/
def patchwork : OrderedMap String Json :=
  ((morning.insert "summary" (.integer 7)).insert "location" .null).insert "attendees"
    (.array [.object [("email", .string "a")]])

/-- An engine that reads the members of the patchwork. -/
def patchworkEngine : Engine :=
  .documented (patchwork.entries.map (fun member => (member.2.dump, member.2)))

/-- They are parsed from what they are dumped as. -/
theorem patchwork_round_trips (key : String) (json : Json)
    (held : patchwork.find key = some json) : patchworkEngine.RoundTrips json := by
  have all : ∀ member ∈ patchwork.entries,
      patchworkEngine.parse member.2.dump = some member.2 := by decide +kernel
  exact all (key, json) (SortedEntries.find_mem key json patchwork.entries held)

/-- It has a start and an end. -/
theorem patchwork_scheduled : Scheduled patchworkEngine (.ofMembers patchwork) false := by
  rintro key (rfl | rfl)
  · exact ⟨20614, 1781082000000000, (morning_bears _).1, by decide⟩
  · exact ⟨20614, 1781085600000000, (morning_bears _).2, by decide⟩

/-- Its number becomes text and its null is erased, and it reads the same. -/
theorem patchwork_reads_same :
    ∃ body, putBody patchworkEngine true
        (writeBackColumns patchworkEngine (.ofMembers patchwork)).reverse (.ofMembers patchwork) =
        .ok body ∧
      ∀ field ∈ eventsNames, extractField patchworkEngine body field =
        extractField patchworkEngine (.ofMembers patchwork) field :=
  write_back_reads_same patchworkEngine (Engine.documented_prints _) (Engine.documented_casts _)
    true patchwork _ false patchwork_scheduled patchwork_round_trips (List.reverse_perm _)

end GoogleCalendar.WriteBack
