import GoogleCalendar.WriteBack
import GoogleCalendar.RowRoundTrip

/-!
# Rows as a SELECT shows them

A row is a function from column names to values. What an INSERT or an UPDATE makes of
an event's body can be said of its row alone, without the body: each column that was
written shows its value, raw JSON as the text of the same value and a time of an
all-day event as the midnight of its day, and each other column shows what it showed.
The flag that the times go by is itself a column of the row.
-/

namespace GoogleCalendar.ShownRows

open Library CivilTime EventMapping CalendarUpdate ColumnCells ColumnReads TimeNodes EventTimes
  AllDayFlips RowBody RowRoundTrip WriteBack

/-- The values of a row by the names of their columns. -/
abbrev Cells := String → Value

variable (engine : Engine)

/-- The row that is shown for a body. -/
def shown (calendarId : String) (body : Json) : Cells := columnValue engine body calendarId

/-- What a column shows once a value is written to it. -/
def writtenValue (allDay : Bool) (name : String) (val old : Value) : Value :=
  if name = "start" ∨ name = "end" then
    match val with
    | .timestampTz instant =>
        .timestampTz (if allDay then instant / dayMicros * dayMicros else instant)
    | _ => .null
  else if (writableJsonKeys.lookup name).isSome then
    if val.isNull then .null
    else
      match passedThrough engine (val.toText engine) with
      | some parsed => if parsed = .null then .null else .varchar parsed.dump
      | none => old
  else val

/-- A value of the type of its column, a time in the years 1 to 9999. -/
structure Typed (name : String) (val : Value) : Prop where
  text : IsTextColumn name → IsText val
  boolean : (writableBoolKeys.lookup name).isSome = true → IsBoolean val
  time : IsTimeKey name → val = .null ∨
    ∃ instant, val = .timestampTz instant ∧ FourDigitYear instant

/-- A text column is the id or listed. -/
theorem text_column_listed (name : String) (listed : IsTextColumn name) :
    name ∈ "event_id" :: writableStringKeys.map Prod.fst := by
  rcases listed with rfl | isString
  · exact List.mem_cons_self ..
  · obtain ⟨key, found⟩ := Option.isSome_iff_exists.mp isString
    exact List.mem_cons_of_mem _ (List.mem_map.mpr ⟨_, lookup_listed _ name key found, rfl⟩)

/-- NULL has every type. -/
theorem null_typed (name : String) : Typed name .null :=
  ⟨fun _ => .inl rfl, fun _ => .inl rfl, fun _ => .inl rfl⟩

/-- A text has the type of a text column, and a text column no other type. -/
theorem text_typed (name text : String) (listed : IsTextColumn name) :
    Typed name (.varchar text) := by
  have apart : ∀ column ∈ "event_id" :: writableStringKeys.map Prod.fst,
      (writableBoolKeys.lookup column).isSome = false ∧ ¬ IsTimeKey column := by decide
  obtain ⟨isBool, isTime⟩ := apart name (text_column_listed name listed)
  constructor
  · exact fun _ => .inr ⟨text, rfl⟩
  · intro found
    rw [isBool] at found
    cases found
  · exact fun time => absurd time isTime

/-- A text column shows what is written. -/
theorem text_shows (allDay : Bool) (name : String) (val old : Value) (listed : IsTextColumn name) :
    writtenValue engine allDay name val old = val := by
  have apart : ∀ column ∈ "event_id" :: writableStringKeys.map Prod.fst,
      ¬ (column = "start" ∨ column = "end") ∧ writableJsonKeys.lookup column = none := by decide
  obtain ⟨plain, isJson⟩ := apart name (text_column_listed name listed)
  simp [writtenValue, plain, isJson]

/-- So does a boolean column. -/
theorem boolean_shows (allDay : Bool) (name key : String) (val old : Value)
    (found : writableBoolKeys.lookup name = some key) :
    writtenValue engine allDay name val old = val := by
  have apart : ∀ column ∈ writableBoolKeys,
      ¬ (column.1 = "start" ∨ column.1 = "end") ∧ writableJsonKeys.lookup column.1 = none := by
    decide
  obtain ⟨plain, isJson⟩ := apart (name, key) (lookup_listed _ name key found)
  simp [writtenValue, plain, isJson]

/-- A JSON column shows the document that it was written with, if the text is one. -/
theorem raw_shows (allDay : Bool) (name key : String) (val old : Value)
    (found : writableJsonKeys.lookup name = some key) :
    writtenValue engine allDay name val old =
      if val.isNull then .null
      else match passedThrough engine (val.toText engine) with
        | some parsed => if parsed = .null then .null else .varchar parsed.dump
        | none => old := by
  have apart : ∀ column ∈ writableJsonKeys, ¬ (column.1 = "start" ∨ column.1 = "end") := by decide
  have plain := apart (name, key) (lookup_listed _ name key found)
  simp only [writtenValue, plain, if_false, found, Option.isSome_some, if_true]

/-- A column reads what was written under its key; `old` is what it reads where the value
leaves the member alone. -/
theorem written_shows (prints : engine.PrintsTimestamps) (casts : engine.CastsTimes) (body : Json)
    (allDay : Bool) (name key : String) (val old : Value) (held : Option Json)
    (keyed : columnKey name = some key) (typed : Typed name val)
    (left : body.find key = writtenCell engine allDay name val held)
    (kept : body.find key = held → extractField engine body name = old) :
    extractField engine body name = writtenValue engine allDay name val old := by
  rcases key_cases name key keyed with isString | isBool | isJson | ⟨rfl, time⟩
  · have listed : IsTextColumn name := .inr (by rw [isString]; rfl)
    rw [written_string engine allDay name key val held isString] at left
    rw [text_shows engine allDay name val old listed, read_string engine body name key isString]
    exact string_reads_written engine body key val (typed.text listed) left
  · rw [written_boolean engine allDay name key val held isBool] at left
    rw [boolean_shows engine allDay name key val old isBool,
      read_boolean engine body name key isBool]
    exact boolean_reads_written body key val (typed.boolean (by rw [isBool]; rfl)) left
  · rw [written_raw engine allDay name key val held isJson] at left
    rw [raw_shows engine allDay name key val old isJson]
    cases null : val.isNull with
    | true =>
      rw [null, if_pos rfl] at left
      simp only [if_true, read_raw engine body name key isJson, jsonRaw, left]
    | false =>
      rw [null, if_neg Bool.false_ne_true] at left
      rw [if_neg Bool.false_ne_true]
      cases parses : passedThrough engine (val.toText engine) with
      | none =>
        rw [parses, Option.none_or] at left
        exact kept left
      | some parsed =>
        rw [parses, Option.some_or] at left
        rw [read_raw engine body name key isJson, raw_reads body parsed key left]
  · rw [written_time engine allDay name val held time] at left
    rw [read_time engine body name time]
    simp only [writtenValue, if_pos (show name = "start" ∨ name = "end" from time)]
    rcases typed.time time with rfl | ⟨instant, rfl, bounded⟩
    · simp only [Value.isNull, if_true] at left
      simp only [parseEventTime, left]
    · simp only [Value.isNull, Bool.false_eq_true, if_false] at left
      exact parse_borne engine casts body name allDay _ _
        ⟨_, left, denotes_time_node engine prints casts instant bounded allDay⟩

/-! ## Columns that are not written -/

/-- A column that is read from a key is in the schema. -/
theorem read_key_in_schema (field key : String) (read : readKey field = some key) :
    field ∈ eventsNames := by
  have tables : ∀ column ∈ stringKeys ++ rawKeys ++ boolKeys, column.1 ∈ eventsNames := by decide
  cases found : (stringKeys ++ rawKeys ++ boolKeys).lookup field with
  | some other => exact tables (field, other) (lookup_listed _ field other found)
  | none =>
    rw [readKey, found, Option.none_or] at read
    split at read
    · rename_i isOriginal
      exact isOriginal ▸ (by decide)
    · split at read
      · rename_i isAllDay
        exact isAllDay ▸ (by decide)
      · split at read
        · rename_i isOther
          rcases isOther with rfl | rfl | rfl <;> decide
        · cases read

/-- A column with a key of its own is read from that key. -/
theorem keyed_read (name key : String) (keyed : columnKey name = some key) :
    readKey name = some key := by
  have tables : ∀ column ∈ writableKeys, readKey column.1 = some column.2 := by decide +kernel
  exact tables (name, key) (column_key_listed name key keyed)

/-- No column but `all_day` itself reads anything where nothing is held under its key. -/
theorem absent_reads_null (body : Json) (field : String) (plain : field ≠ "all_day")
    (absent : ∀ key, readKey field = some key → body.find key = none) :
    extractField engine body field = .null := by
  have same := read_member engine body .null field
    (fun key read => (absent key read).trans (by rfl))
  rw [same]
  simp only [extractField, jsonString, jsonRaw, jsonBool, jsonBigint, parseEventTime, Json.find,
    plain, if_false, ite_self]
  cases stringKeys.lookup field with
  | some key => rfl
  | none =>
    cases rawKeys.lookup field with
    | some key => rfl
    | none => cases boolKeys.lookup field <;> rfl

/-! ## SET lists -/

/-- The flag of a row after a SET list: what the list says, else the row's own. -/
def flagAfter (sets : List (String × Value)) (cells : Cells) : Bool :=
  match sets.lookup "all_day" with
  | some val => decide (val = .boolean true)
  | none => decide (cells "all_day" = .boolean true)

/-- A row after a SET list. The flag follows the start: a list without one leaves it. -/
def assigned (sets : List (String × Value)) (cells : Cells) : Cells := fun name =>
  if name = "all_day" then
    match sets.lookup "start" with
    | some val => .boolean (flagAfter sets cells && !val.isNull)
    | none => cells name
  else
    match sets.lookup name with
    | some val => writtenValue engine (flagAfter sets cells) name val (cells name)
    | none => cells name

/-- A SET list whose values have the types of their columns. A list with `all_day` SETs both
times with it. -/
structure Settable (sets : List (String × Value)) : Prop where
  distinct : (sets.map Prod.fst).Nodup
  writable : ∀ column ∈ sets, isWritable column.1 = true
  typed : ∀ column ∈ sets, Typed column.1 column.2
  whole : "all_day" ∈ sets.map Prod.fst → ∀ key, IsTimeKey key → key ∈ sets.map Prod.fst

variable (calendarId : String)

/-- The flag that encodes the times is the one that the row shows after the list. -/
theorem effective_flag (sets : List (String × Value)) (event : Json)
    (distinct : (sets.map Prod.fst).Nodup) :
    effectiveAllDay sets event = flagAfter sets (shown engine calendarId event) := by
  have isTrue : ∀ val : Value, (!val.isNull && val.getBoolean) = decide (val = .boolean true) := by
    intro val
    cases val with
    | boolean value => cases value <;> rfl
    | _ => rfl
  by_cases listed : "all_day" ∈ sets.map Prod.fst
  · obtain ⟨⟨name, val⟩, member, named⟩ := List.mem_map.mp listed
    obtain rfl : name = "all_day" := named
    rw [effective_of_listed sets event val distinct member, flagAfter,
      lookup_of_mem sets _ val distinct member]
    exact isTrue val
  · rw [effective_of_unlisted sets event listed, flagAfter, lookup_of_not_mem sets _ listed]
    change existingAllDay event = decide (Value.boolean (existingAllDay event) = .boolean true)
    cases existingAllDay event <;> rfl

/-- A column that is not in the list, `all_day` apart, reads what it read. -/
theorem unlisted_reads_same (returnChunk : Bool) (sets : List (String × Value))
    (members : OrderedMap String Json) (body : Json) (settable : Settable sets) (name : String)
    (plain : name ≠ "all_day") (unlisted : name ∉ sets.map Prod.fst)
    (made : putBody engine returnChunk sets (.ofMembers members) = .ok body) :
    extractField engine body name = extractField engine (.ofMembers members) name := by
  obtain ⟨after, rfl, cells⟩ := put_body_cells engine returnChunk sets members body made
  apply read_member
  intro key read
  have inSchema := read_key_in_schema name key read
  have unowned : ∀ column ∈ sets, columnKey column.1 ≠ some key := by
    intro column member keyed
    have same : column.1 = name := by
      cases writable : isWritable name with
      | false => exact absurd keyed (read_key_unwritten name key inSchema writable read column.1)
      | true =>
        obtain ⟨own, ownKeyed⟩ := (writable_cases name writable).resolve_left plain
        obtain rfl := Option.some.inj (read.symm.trans (keyed_read name own ownKeyed))
        exact column_key_injective column.1 name key keyed ownKeyed
    exact unlisted (List.mem_map.mpr ⟨column, member, same⟩)
  have untouched : ¬ (IsTimeKey key ∧ "all_day" ∈ sets.map Prod.fst) := by
    rintro ⟨time, flagged⟩
    obtain ⟨column, member, named⟩ := List.mem_map.mp (settable.whole flagged key time)
    exact unowned column member (named ▸ time_keyed key time)
  rw [Json.find_of_members, cells key,
    without_owner engine _ sets key _ settable.distinct unowned, if_neg untouched]
  rfl

/-- What a column of the list leaves under its key. -/
theorem listed_member (prints : engine.PrintsTimestamps) (returnChunk : Bool)
    (sets : List (String × Value)) (members : OrderedMap String Json) (body : Json)
    (settable : Settable sets) (name key : String) (val : Value) (member : (name, val) ∈ sets)
    (keyed : columnKey name = some key)
    (made : putBody engine returnChunk sets (.ofMembers members) = .ok body) :
    body.find key = writtenCell engine
      (flagAfter sets (shown engine calendarId (.ofMembers members))) name val
      (members.find key) := by
  obtain ⟨after, rfl, cells⟩ := put_body_cells engine returnChunk sets members body made
  have printable : IsTimeKey key → Printable val := by
    intro time
    obtain rfl := time_key_column name key keyed time
    rcases (settable.typed _ member).time time with rfl | ⟨instant, rfl, bounded⟩
    · exact fun micros same => by cases same
    · exact printable_of_year instant bounded
  rw [Json.find_of_members, cells key,
    effective_flag engine calendarId sets (.ofMembers members) settable.distinct]
  exact owner_decides engine prints _ sets name key val _ settable.distinct member keyed printable

/-- The kind of the event is the flag of the list where the list SETs a start, and else it is
what it was. -/
theorem all_day_shows (prints : engine.PrintsTimestamps) (returnChunk : Bool)
    (sets : List (String × Value)) (members : OrderedMap String Json) (body : Json)
    (settable : Settable sets)
    (made : putBody engine returnChunk sets (.ofMembers members) = .ok body) :
    shown engine calendarId body "all_day" =
      assigned engine sets (shown engine calendarId (.ofMembers members)) "all_day" := by
  have time : IsTimeKey "start" := .inl rfl
  change Value.boolean (existingAllDay body) = _
  simp only [assigned, if_true]
  by_cases listed : "start" ∈ sets.map Prod.fst
  · obtain ⟨⟨start, val⟩, member, named⟩ := List.mem_map.mp listed
    obtain rfl : start = "start" := named
    have left := listed_member engine calendarId prints returnChunk sets members body settable
      "start" "start" val member (time_keyed "start" time) made
    rw [written_time engine _ "start" val _ time] at left
    rw [lookup_of_mem sets _ val settable.distinct member]
    apply congrArg Value.boolean
    cases null : val.isNull with
    | true =>
      rw [null, if_pos rfl] at left
      simp [existingAllDay, left]
    | false =>
      rw [null, if_neg Bool.false_ne_true] at left
      rw [existing_of_kind body _ _ left (encodes_time_node engine val _).kind]
      simp
  · have unflagged : "all_day" ∉ sets.map Prod.fst :=
      fun flagged => listed (settable.whole flagged "start" time)
    have unowned : ∀ column ∈ sets, columnKey column.1 ≠ some "start" := by
      rintro ⟨other, val⟩ member keyed
      obtain rfl := time_key_column other "start" keyed time
      exact listed (List.mem_map.mpr ⟨_, member, rfl⟩)
    obtain ⟨after, rfl, cells⟩ := put_body_cells engine returnChunk sets members body made
    have kept := cells "start"
    rw [without_owner engine _ sets "start" _ settable.distinct unowned,
      if_neg (fun both => unflagged both.2)] at kept
    rw [lookup_of_not_mem sets _ listed]
    change _ = Value.boolean (existingAllDay (.ofMembers members))
    simp only [existingAllDay, Json.find_of_members, kept]

/-- A body that an UPDATE makes shows the row that its list makes of the event's. -/
theorem put_body_shows (prints : engine.PrintsTimestamps) (casts : engine.CastsTimes)
    (returnChunk : Bool) (sets : List (String × Value)) (members : OrderedMap String Json)
    (body : Json) (settable : Settable sets)
    (made : putBody engine returnChunk sets (.ofMembers members) = .ok body) :
    shown engine calendarId body =
      assigned engine sets (shown engine calendarId (.ofMembers members)) := by
  funext name
  by_cases isAllDay : name = "all_day"
  · subst isAllDay
    exact all_day_shows engine calendarId prints returnChunk sets members body settable made
  · simp only [assigned, if_neg isAllDay]
    by_cases listed : name ∈ sets.map Prod.fst
    · obtain ⟨⟨column, val⟩, member, named⟩ := List.mem_map.mp listed
      obtain rfl : column = name := named
      obtain ⟨key, keyed⟩ :=
        (writable_cases column (settable.writable _ member)).resolve_left isAllDay
      have notCalendar : column ≠ "calendar_id" := by
        rintro rfl
        have unkeyed : columnKey "calendar_id" = none := by decide
        simp [unkeyed] at keyed
      rw [lookup_of_mem sets _ val settable.distinct member]
      simp only [shown, columnValue, if_neg notCalendar]
      apply written_shows engine prints casts body _ column key val _ _ keyed
        (settable.typed _ member) (listed_member engine calendarId prints returnChunk sets members
          body settable column key val member keyed made)
      intro kept
      apply read_member
      intro other read
      obtain rfl := Option.some.inj (read.symm.trans (keyed_read column key keyed))
      rw [kept, Json.find_of_members]
    · rw [lookup_of_not_mem sets _ listed]
      simp only [shown, columnValue]
      split
      · rfl
      · exact unlisted_reads_same engine returnChunk sets members body settable name isAllDay
          listed made

/-! ## Rows that are inserted -/

/-- The row that is shown once a row is inserted: columns that only the server writes are
NULL. -/
def inserted (value : Cells) : Cells := fun name =>
  if name = "calendar_id" then .varchar calendarId
  else if name = "all_day" then
    .boolean (decide (value "all_day" = .boolean true) && !(value "start").isNull)
  else if (insertKey name).isSome then
    writtenValue engine (decide (value "all_day" = .boolean true)) name (value name) .null
  else .null

/-- A column without a key of its own reads nothing of a row's body. -/
theorem unkeyed_reads_null (names : List String) (row : List Value) (event : Json) (name : String)
    (plain : name ≠ "all_day") (unkeyed : insertKey name = none)
    (built : rowToEvent engine names row = .ok event) : extractField engine event name = .null := by
  have tables : ∀ field ∈ eventsNames, field ≠ "all_day" → insertKey field = none →
      ∀ column ∈ eventsNames, insertKey column ≠ none → insertKey column ≠ readKey field := by
    decide +kernel
  apply absent_reads_null engine event name plain
  intro key read
  have inSchema := read_key_in_schema name key read
  apply row_event_nothing engine names row key event _ built
  rintro ⟨column, val⟩ member keyed
  have columnListed : column ∈ eventsNames := by
    by_cases isId : column = "event_id"
    · exact isId ▸ (by decide)
    · simp only [insertKey, isId, if_false] at keyed
      exact writable_in_schema column key keyed
  exact absurd (keyed.trans read.symm)
    (tables name inSchema plain unkeyed column columnListed (by simp [keyed]))

/-- The body of a row shows the row that is inserted. -/
theorem row_event_shows (prints : engine.PrintsTimestamps) (casts : engine.CastsTimes)
    (names : List String) (row : List Value) (event : Json) (distinct : names.Nodup)
    (typed : ∀ name, Typed name (rowValue names row name))
    (built : rowToEvent engine names row = .ok event) :
    shown engine calendarId event = inserted engine calendarId (rowValue names row) := by
  funext name
  simp only [shown, columnValue, inserted]
  by_cases isCalendar : name = "calendar_id"
  · rw [if_pos isCalendar, if_pos isCalendar]
  rw [if_neg isCalendar, if_neg isCalendar]
  by_cases isAllDay : name = "all_day"
  · subst isAllDay
    rw [if_pos rfl]
    apply congrArg Value.boolean
    have left := row_member_written engine names row "start" "start" event distinct
      (time_keyed "start" (.inl rfl)) built
    rw [written_time engine _ "start" _ _ (.inl rfl), row_flag] at left
    cases null : (rowValue names row "start").isNull with
    | true =>
      rw [null, if_pos rfl] at left
      simp [existingAllDay, left]
    | false =>
      rw [null, if_neg Bool.false_ne_true] at left
      rw [existing_of_kind event _ _ left (encodes_time_node engine _ _).kind]
      simp
  rw [if_neg isAllDay]
  cases keyed : insertKey name with
  | none => exact unkeyed_reads_null engine names row event name isAllDay keyed built
  | some key =>
    rw [Option.isSome_some, if_pos rfl]
    by_cases isId : name = "event_id"
    · subst isId
      rw [text_shows engine _ _ _ _ (.inl rfl)]
      exact inserted_texts engine names row "event_id" event distinct (.inl rfl)
        ((typed _).text (.inl rfl)) built
    · have columnKeyed : columnKey name = some key := by simpa [insertKey, isId] using keyed
      have left := row_member_written engine names row name key event distinct columnKeyed built
      rw [row_flag] at left
      apply written_shows engine prints casts event _ name key _ _ none columnKeyed (typed name)
        left
      intro absent
      apply absent_reads_null engine event name isAllDay
      intro other read
      obtain rfl := Option.some.inj (read.symm.trans (keyed_read name key columnKeyed))
      exact absent

end GoogleCalendar.ShownRows
