import GoogleCalendar.ColumnReads
import GoogleCalendar.UpdateFrame
import GoogleCalendar.SharedListing
import GoogleCalendar.Library.Reruns
import GoogleCalendar.Library.SharedScan

/-!
# Running an UPDATE again

A statement that was stopped is run again, and rows that were already put are put a
second time. A column writes the same member whatever it wrote before, so that a
second body is the first one, except for one thing that it reads of the event: the
flag that encodes the times is the event's own when `all_day` is not SET. A list
that SETs `start` to NULL takes the flag away with it, and an `end` in the same list
is then a date at first and a date-time ever after.
-/

namespace GoogleCalendar.UpdateReruns

open Library CivilTime EventMapping CalendarUpdate ColumnCells ColumnReads TimeNodes UpdateFrame

variable (engine : Engine)

/-! ## The body of a second UPDATE -/

/-- Re-encoding a node in the kind it is in changes nothing. -/
theorem reencoded_twice (allDay : Bool) (node : Json) :
    reencodedNode allDay (reencodedNode allDay node) = reencodedNode allDay node := by
  by_cases object : node.isObject = true
  · cases text : rawTime node with
    | none => simp [reencodedNode, object, text]
    | some raw =>
      have once : reencodedNode allDay node = rebuiltTimeNode raw allDay := by
        simp [reencodedNode, object, text]
      rw [once]
      cases allDay with
      | true =>
        have cut : datePart (datePart raw) = datePart raw := by
          simp [datePart, List.take_take]
        simp [reencodedNode, rebuiltTimeNode, Json.isObject, rawTime, Json.find,
          SortedEntries.find, cut]
      | false =>
        by_cases date : raw.length = 10
        · simp [reencodedNode, rebuiltTimeNode, Json.isObject, rawTime, Json.find,
            SortedEntries.find, date]
        · simp [reencodedNode, rebuiltTimeNode, Json.isObject, rawTime, Json.find,
            SortedEntries.find, date]
  · simp [reencodedNode, object]

/-- What a column leaves does not change when it is written again. -/
theorem written_twice (allDay : Bool) (name key : String) (val : Value) (held : Option Json)
    (keyed : columnKey name = some key) :
    writtenCell engine allDay name val (writtenCell engine allDay name val held) =
      writtenCell engine allDay name val held := by
  rcases key_cases name key keyed with isString | isBool | isJson | ⟨rfl, time⟩
  · rw [written_string engine allDay name key val _ isString,
      written_string engine allDay name key val _ isString]
  · rw [written_boolean engine allDay name key val _ isBool,
      written_boolean engine allDay name key val _ isBool]
  · rw [written_raw engine allDay name key val _ isJson,
      written_raw engine allDay name key val _ isJson]
    cases val.isNull with
    | true => rfl
    | false => cases passedThrough engine (val.toText engine) <;> rfl
  · rw [written_time engine allDay name val _ time, written_time engine allDay name val _ time]

/-- The flag matters to `start` and `end` alone. -/
theorem written_flag (allDay other : Bool) (name key : String) (val : Value) (held : Option Json)
    (keyed : columnKey name = some key) (plain : IsTimeKey key → val.isNull = true) :
    writtenCell engine allDay name val held = writtenCell engine other name val held := by
  rcases key_cases name key keyed with isString | isBool | isJson | ⟨rfl, time⟩
  · rw [written_string engine allDay name key val _ isString,
      written_string engine other name key val _ isString]
  · rw [written_boolean engine allDay name key val _ isBool,
      written_boolean engine other name key val _ isBool]
  · rw [written_raw engine allDay name key val _ isJson,
      written_raw engine other name key val _ isJson]
  · rw [written_time engine allDay name val _ time, written_time engine other name val _ time,
      plain time, if_pos rfl, if_pos rfl]

/-- A second run of the columns with the same flag leaves every member as the first did. -/
theorem cells_twice (prints : engine.PrintsTimestamps) (allDay : Bool)
    (columns : List (String × Value)) (distinct : (columns.map Prod.fst).Nodup)
    (key : String) (held : Option Json) :
    Edit.cellAfter (columnEdits engine allDay columns) key
        (Edit.cellAfter (columnEdits engine allDay columns) key held) =
      Edit.cellAfter (columnEdits engine allDay columns) key held := by
  by_cases owned : ∃ column ∈ columns, columnKey column.1 = some key
  · obtain ⟨⟨name, val⟩, member, keyed⟩ := owned
    have decided := fun held =>
      owner_cell engine prints allDay columns name key val held distinct member keyed
    rw [decided, decided]
    split
    · rename_i both
      -- a start or end is written whatever was there
      obtain rfl := time_key_column name key keyed both.1
      rw [written_time engine allDay name val _ both.1,
        written_time engine allDay name val _ both.1]
    · exact written_twice engine allDay name key val held keyed
  · have unowned : ∀ column ∈ columns, columnKey column.1 ≠ some key :=
      fun column member keyed => owned ⟨column, member, keyed⟩
    have decided := fun held => without_owner engine allDay columns key held distinct unowned
    rw [decided, decided]
    split
    · cases held with
      | none => rfl
      | some node => exact congrArg some (reencoded_twice allDay node)
    · rfl

/-- Without `all_day` in the list, the flag matters only where `start` or `end` is SET to a
value. -/
theorem cells_flag (prints : engine.PrintsTimestamps) (allDay other : Bool)
    (columns : List (String × Value)) (distinct : (columns.map Prod.fst).Nodup)
    (unlisted : "all_day" ∉ columns.map Prod.fst) (key : String) (held : Option Json)
    (plain : IsTimeKey key → ∀ val, (key, val) ∈ columns → val.isNull = true) :
    Edit.cellAfter (columnEdits engine allDay columns) key held =
      Edit.cellAfter (columnEdits engine other columns) key held := by
  by_cases owned : ∃ column ∈ columns, columnKey column.1 = some key
  · obtain ⟨⟨name, val⟩, member, keyed⟩ := owned
    rw [owner_alone engine prints allDay columns name key val held distinct unlisted member keyed,
      owner_alone engine prints other columns name key val held distinct unlisted member keyed]
    apply written_flag engine allDay other name key val held keyed
    intro time
    obtain rfl := time_key_column name key keyed time
    exact plain time val member
  · have unowned : ∀ column ∈ columns, columnKey column.1 ≠ some key :=
      fun column member keyed => owned ⟨column, member, keyed⟩
    rw [without_owner engine allDay columns key held distinct unowned,
      without_owner engine other columns key held distinct unowned,
      if_neg (fun both => unlisted both.2), if_neg (fun both => unlisted both.2)]

/-- A list that loses the flag: it SETs the start of an all-day event to NULL and its end to a
value, and leaves `all_day` to the event. -/
def ForgetsAllDay (columns : List (String × Value)) (event : Json) : Prop :=
  existingAllDay event = true ∧ "all_day" ∉ columns.map Prod.fst ∧ ("start", .null) ∈ columns ∧
    ∃ val, ("end", val) ∈ columns ∧ val ≠ .null

/-- A value is NULL or another. -/
theorem is_null_iff (val : Value) : val.isNull = true ↔ val = .null := by
  cases val <;> simp [Value.isNull]

/-- The kind of an event after a list that does not SET `all_day`: its own, unless the start
is SET to NULL. -/
theorem existing_after (prints : engine.PrintsTimestamps) (columns : List (String × Value))
    (members after : OrderedMap String Json) (distinct : (columns.map Prod.fst).Nodup)
    (unlisted : "all_day" ∉ columns.map Prod.fst)
    (cells : Edit.RunRealized
      (columnEdits engine (existingAllDay (.ofMembers members)) columns) members after) :
    existingAllDay (.ofMembers after) =
      if ("start", .null) ∈ columns then false else existingAllDay (.ofMembers members) := by
  have time : IsTimeKey "start" := .inl rfl
  have found := cells "start"
  by_cases owned : ∃ val, ("start", val) ∈ columns
  · obtain ⟨val, member⟩ := owned
    rw [owner_alone engine prints _ columns "start" "start" val _ distinct unlisted member
      (time_keyed "start" time),
      written_time engine _ "start" val _ time] at found
    by_cases null : val = .null
    · subst null
      rw [if_pos member]
      simp only [existingAllDay, Json.find_of_members, found, Value.isNull, if_true]
    · have apart : ("start", Value.null) ∉ columns := by
        intro other
        have same := List.inj_on_of_nodup_map distinct member other rfl
        exact null (congrArg Prod.snd same)
      have present : val.isNull = false := Bool.eq_false_iff.mpr (fun absent =>
        null ((is_null_iff val).mp absent))
      rw [present, if_neg Bool.false_ne_true] at found
      rw [if_neg apart]
      exact existing_of_kind _ _ _ (by rw [Json.find_of_members, found])
        (encodes_time_node engine val _).kind
  · have apart : ("start", Value.null) ∉ columns := fun member => owned ⟨_, member⟩
    have unowned : ∀ column ∈ columns, columnKey column.1 ≠ some "start" := by
      rintro ⟨name, val⟩ member keyed
      obtain rfl := time_key_column name "start" keyed time
      exact owned ⟨val, member⟩
    rw [without_owner engine _ columns "start" _ distinct unowned,
      if_neg (fun both => unlisted both.2)] at found
    rw [if_neg apart]
    simp only [existingAllDay, Json.find_of_members, found]

/-- An UPDATE that is applied to the body it has made makes the same body, unless its list loses
the flag. -/
theorem put_body_twice_iff (prints : engine.PrintsTimestamps) (returnChunk : Bool)
    (columns : List (String × Value)) (members : OrderedMap String Json) (body : Json)
    (distinct : (columns.map Prod.fst).Nodup)
    (made : putBody engine returnChunk columns (.ofMembers members) = .ok body) :
    putBody engine returnChunk columns body = .ok body ↔
      ¬ ForgetsAllDay columns (.ofMembers members) := by
  obtain ⟨after, rfl, cells⟩ := put_body_cells engine returnChunk columns members body made
  obtain ⟨again, madeAgain⟩ := (body_made_iff engine returnChunk columns after).mpr
    ((body_made_iff engine returnChunk columns members).mp ⟨_, made⟩)
  obtain ⟨twice, rfl, twiceCells⟩ := put_body_cells engine returnChunk columns after again madeAgain
  have same_iff : putBody engine returnChunk columns (.ofMembers after) = .ok (.ofMembers after) ↔
      ∀ key, twice.find key = after.find key := by
    rw [madeAgain]
    constructor
    · intro same key
      have bodies := Except.ok.inj same
      have found := congrArg (fun json => Json.find json key) bodies
      simpa using found
    · intro found
      rw [OrderedMap.ext_find twice after found]
  rw [same_iff]
  by_cases listed : "all_day" ∈ columns.map Prod.fst
  · -- the list decides the flag, both times
    have flags : effectiveAllDay columns (.ofMembers after) =
        effectiveAllDay columns (.ofMembers members) := by
      obtain ⟨⟨name, val⟩, member, named⟩ := List.mem_map.mp listed
      obtain rfl : name = "all_day" := named
      rw [effective_of_listed columns _ val distinct member,
        effective_of_listed columns _ val distinct member]
    refine ⟨fun _ forgets => forgets.2.1 listed, fun _ key => ?_⟩
    rw [twiceCells key, flags, cells key]
    exact cells_twice engine prints _ columns distinct key _
  · rw [effective_of_unlisted columns _ listed] at cells twiceCells
    have kind := existing_after engine prints columns members after distinct listed cells
    constructor
    · rintro same ⟨allDay, -, start, val, ending, present⟩
      have time : IsTimeKey "end" := .inr rfl
      have found := same "end"
      have decided := fun allDay held => owner_alone engine prints allDay columns "end" "end" val
        held distinct listed ending (time_keyed "end" time)
      have notNull : val.isNull = false := Bool.eq_false_iff.mpr (fun absent =>
        present ((is_null_iff val).mp absent))
      rw [twiceCells "end", cells "end", decided, decided, kind, if_pos start, allDay,
        written_time engine _ "end" val _ time, written_time engine _ "end" val _ time, notNull,
        if_neg Bool.false_ne_true, if_neg Bool.false_ne_true] at found
      simp [timeNode] at found
    · intro keeps key
      by_cases flags : existingAllDay (.ofMembers after) = existingAllDay (.ofMembers members)
      · rw [twiceCells key, flags, cells key]
        exact cells_twice engine prints _ columns distinct key _
      · -- the start was SET to NULL, and so is the end if it is SET
        have start : ("start", Value.null) ∈ columns := by
          by_contra unset
          rw [if_neg unset] at kind
          exact flags kind
        have allDay : existingAllDay (.ofMembers members) = true := by
          rw [if_pos start] at kind
          rw [kind] at flags
          simpa using flags
        have plain : IsTimeKey key → ∀ val, (key, val) ∈ columns → val.isNull = true := by
          rintro (rfl | rfl) val member
          · have same := List.inj_on_of_nodup_map distinct member start rfl
            exact (is_null_iff val).mpr (congrArg Prod.snd same)
          · by_contra present
            rw [is_null_iff] at present
            exact keeps ⟨allDay, listed, start, val, member, present⟩
        rw [twiceCells key, cells_flag engine prints _ (existingAllDay (.ofMembers members)) columns
          distinct listed key _ plain, cells key]
        exact cells_twice engine prints _ columns distinct key _

/-- Two days off. -/
def holiday : OrderedMap String Json :=
  ((OrderedMap.empty.insert "id" (.string "a")).insert "start"
    (.object [("date", .string "1970-01-02")])).insert "end"
    (.object [("date", .string "1970-01-04")])

/-- An end by itself is a date each time; with the start SET to NULL it is one at first only. -/
theorem holiday_end_twice :
    let engine := Engine.reading [] []
    let ends : List (String × Value) := [("end", .timestampTz 345600000000)]
    let unstarted : List (String × Value) := ("start", .null) :: ends
    (∃ body, putBody engine false ends (.ofMembers holiday) = .ok body ∧
      putBody engine false ends body = .ok body) ∧
    ∃ body, putBody engine false unstarted (.ofMembers holiday) = .ok body ∧
      putBody engine false unstarted body ≠ .ok body := by
  intro engine ends unstarted
  have prints := Engine.reading_prints [] []
  constructor
  · obtain ⟨body, made⟩ := (body_made_iff engine false ends holiday).mpr
      (.inr (by simp [ends]; decide))
    refine ⟨body, made, (put_body_twice_iff engine prints false ends holiday body (by simp [ends])
      made).mpr ?_⟩
    rintro ⟨-, -, start, -⟩
    simp [ends] at start
  · obtain ⟨body, made⟩ := (body_made_iff engine false unstarted holiday).mpr
      (.inr (by simp [unstarted, ends]; decide))
    have forgets : ForgetsAllDay unstarted (.ofMembers holiday) :=
      ⟨by decide, by simp [unstarted, ends], by simp [unstarted],
        .timestampTz 345600000000, by simp [unstarted, ends], by simp⟩
    refine ⟨body, made, fun same => ?_⟩
    have steady := (put_body_twice_iff engine prints false unstarted holiday body
      (by simp [unstarted, ends]) made).mp same
    exact steady forgets

/-! ## Statements that were stopped -/

open Reruns SharedScan

section Statements

variable {σ : Type} (http : IHttpClient σ) (headers : HttpHeaders) (baseUrl : String)
  (operator : CalendarUpdate) (stored : σ → String → Option Json) (owned : String → Prop)

/-- A service that stores what it is sent, with other writers at work meanwhile. A GET of an
owned event is answered with it and changes none. A PUT stores its body or, when it is answered
with an error, may not have stored it; an owned event that is another stays as it is. -/
structure StoringService : Prop where
  gets : ∀ request id state, request.method = .get →
    request.path = .event operator.calendarId id →
    Agrees owned (stored state) (stored (http.execute request state).2) ∧
    ∀ response json, (http.execute request state).1 = .ok response → response.statusCode = 200 →
      engine.parse response.body = some json → owned id → stored state id = some json
  puts : ∀ request id body state, request.method = .put →
    request.path = .event operator.calendarId id → request.body = some body →
    (∀ other, owned other → other ≠ id →
      stored (http.execute request state).2 other = stored state other) ∧
    (owned id → stored (http.execute request state).2 id = stored state id ∨
      stored (http.execute request state).2 id = some body) ∧
    ∀ response, (http.execute request state).1 = .ok response → response.statusCode = 200 →
      owned id → stored (http.execute request state).2 id = some body

/-- The client of the statement. -/
abbrev client : GoogleCalendarClient σ := ⟨http, headers, baseUrl⟩

/-- The rows that the sink does not skip. -/
def targets (rows : List (List Value)) : List (List Value) :=
  rows.filter (fun row => !(rowId row).isNull)

/-- The id of a row, as it is printed into the path. -/
def rowKey (row : List Value) : String := (rowId row).toText engine

/-- What a row makes of its event. -/
def rowChange (row : List Value) (held : Option Json) : Option Json :=
  held.bind (fun event =>
    (putBody engine operator.returnChunk (operator.setColumns row) event).toOption)

/-- What the PUT of a body leaves: the body is stored or it is not, no other owned event changes,
and the body is stored when the sink goes on. A body that cannot be serialised is not sent. -/
theorem sink_body_left (service : StoringService engine http operator stored owned) (id : String)
    (mine : owned id) (body : Json) (gstate : CalendarUpdateGlobalSinkState) (state : σ) :
    let outcome := sinkBody engine (client http headers baseUrl) operator id body gstate state
    (∀ other, owned other → other ≠ id → stored outcome.2 other = stored state other) ∧
    (stored outcome.2 id = stored state id ∨ stored outcome.2 id = some body) ∧
    ∀ sunk, outcome.1 = .ok sunk → stored outcome.2 id = some body := by
  intro outcome
  have unfolded : outcome =
      sinkBody engine (client http headers baseUrl) operator id body gstate state := rfl
  rcases GoogleCalendarClient.read_sent (client http headers baseUrl)
      (parseResponse engine .ok) .put (.event operator.calendarId id) body state
    with ⟨error, -, failed⟩ | ⟨-, sends⟩
  · have thrown : outcome = (.error (.json error), state) := by
      rw [unfolded, sinkBody, EventsResource.update, GoogleCalendarClient.doPut, failed]
    rw [thrown]
    exact ⟨fun _ _ _ => rfl, .inl rfl, fun sunk ended => by cases ended⟩
  · let put := GoogleCalendarClient.request (client http headers baseUrl) .put
      (.event operator.calendarId id) (some body)
    obtain ⟨others, either, accepted⟩ := service.puts put id body state rfl rfl rfl
    have update : EventsResource.update engine (client http headers baseUrl) operator.calendarId
        id body state = readResponse (parseResponse engine .ok) (http.execute put state) := sends
    rw [sinkBody, update] at unfolded
    split at unfolded
    · rename_i error after failed
      have left : after = (http.execute put state).2 := (congrArg Prod.snd failed).symm
      rw [unfolded, left]
      exact ⟨others, either mine, fun sunk ended => by cases ended⟩
    · rename_i updated after done
      have left : after = (http.execute put state).2 := (congrArg Prod.snd done).symm
      obtain ⟨response, -, executed, status, -, -⟩ := read_ok engine .ok _ updated _ done
      rw [unfolded, left]
      exact ⟨others, either mine,
        fun sunk _ => accepted response (congrArg Prod.fst executed) status mine⟩

/-- What the sink's work on a row leaves: its change is made or it is not, no other owned event
changes, and the change is made when the row succeeds. -/
theorem sink_row_left (service : StoringService engine http operator stored owned)
    (row : List Value) (present : (rowId row).isNull = false) (mine : owned (rowKey engine row))
    (gstate : CalendarUpdateGlobalSinkState) (state : σ) :
    let outcome := sinkRow engine (client http headers baseUrl) operator row gstate state
    (∀ other, owned other → other ≠ rowKey engine row →
      stored outcome.2 other = stored state other) ∧
    (stored outcome.2 (rowKey engine row) = stored state (rowKey engine row) ∨
      stored outcome.2 (rowKey engine row) =
        rowChange engine operator row (stored state (rowKey engine row))) ∧
    ∀ sunk, outcome.1 = .ok sunk → (stored outcome.2 (rowKey engine row)).isSome = true ∧
      stored outcome.2 (rowKey engine row) =
        rowChange engine operator row (stored state (rowKey engine row)) := by
  intro outcome
  let ask := GoogleCalendarClient.request (client http headers baseUrl) .get
    (.event operator.calendarId (rowKey engine row)) none
  obtain ⟨unchanged, answers⟩ := service.gets ask (rowKey engine row) state rfl rfl
  have unfolded : outcome =
      sinkRow engine (client http headers baseUrl) operator row gstate state := rfl
  simp only [sinkRow, present, Bool.false_eq_true, if_false] at unfolded
  split at unfolded
  · rename_i error after failed
    have left : after = (http.execute ask state).2 := (congrArg Prod.snd failed).symm
    rw [unfolded, left]
    exact ⟨fun other here _ => unchanged other here, .inl (unchanged _ mine),
      fun sunk ended => by cases ended⟩
  · rename_i event after got
    have left : after = (http.execute ask state).2 := (congrArg Prod.snd got).symm
    obtain ⟨response, json, executed, status, parsed, read⟩ := read_ok engine .ok _ event _ got
    obtain rfl := Except.ok.inj read
    have held := answers response json (congrArg Prod.fst executed) status parsed mine
    split at unfolded
    · rename_i error computed
      rw [unfolded, left]
      exact ⟨fun other here _ => unchanged other here, .inl (unchanged _ mine),
        fun sunk ended => by cases ended⟩
    · rename_i body computed
      have put : outcome = sinkBody engine (client http headers baseUrl) operator
          (rowKey engine row) body gstate after := unfolded
      obtain ⟨others, either, accepted⟩ := sink_body_left engine http headers baseUrl operator
        stored owned service (rowKey engine row) mine body gstate after
      have changed : rowChange engine operator row (stored state (rowKey engine row)) =
          some body := by
        simp [rowChange, held, computed, Except.toOption]
      have before : ∀ other, owned other → stored after other = stored state other := by
        rw [left]
        exact unchanged
      rw [put]
      refine ⟨fun other here apart => (others other here apart).trans (before other here), ?_, ?_⟩
      · rw [changed, ← before _ mine]
        exact either
      · intro sunk ended
        have stands := accepted sunk ended
        rw [changed, stands]
        exact ⟨rfl, rfl⟩

/-- A run of the sink over rows is an attempt at their changes, and a complete one when it
ends without an error. -/
theorem sink_attempted (service : StoringService engine http operator stored owned)
    (rows : List (List Value)) (distinct : ((targets rows).map (rowKey engine)).Nodup)
    (mine : ∀ row ∈ targets rows, owned (rowKey engine row))
    (gstate : CalendarUpdateGlobalSinkState) (state : σ) :
    let outcome := sink engine (client http headers baseUrl) operator rows gstate state
    Attempted (rowKey engine) (rowChange engine operator) owned (targets rows) (stored state)
      (stored outcome.2) ∧
    ∀ sunk, outcome.1 = .ok sunk →
      Completed (rowKey engine) (rowChange engine operator) owned (targets rows) (stored state)
        (stored outcome.2) ∧
      ∀ row ∈ targets rows, (stored outcome.2 (rowKey engine row)).isSome = true := by
  induction rows generalizing gstate state with
  | nil =>
    refine ⟨attempted_none _ _ (fun _ _ => rfl), fun sunk _ => ⟨⟨?_, fun _ _ _ => rfl⟩, ?_⟩⟩
    · simp [targets]
    · simp [targets]
  | cons row rows ih =>
    intro outcome
    by_cases absent : (rowId row).isNull = true
    · have skipped : targets (row :: rows) = targets rows := by simp [targets, absent]
      have passed : outcome =
          sink engine (client http headers baseUrl) operator rows gstate state := by
        simp only [outcome, sink, sinkRow, absent, if_true]
      rw [skipped] at distinct mine ⊢
      rw [passed]
      exact ih distinct mine gstate state
    · have present : (rowId row).isNull = false := by simpa using absent
      have taken : targets (row :: rows) = row :: targets rows := by simp [targets, present]
      rw [taken] at distinct mine ⊢
      rw [List.map_cons, List.nodup_cons] at distinct
      have own := mine row List.mem_cons_self
      have within : ∀ other ∈ targets rows, owned (rowKey engine other) :=
        fun other listed => mine other (List.mem_cons_of_mem _ listed)
      have apart : ∀ other ∈ targets rows, rowKey engine other ≠ rowKey engine row :=
        fun other listed same => distinct.1 (same ▸ List.mem_map_of_mem listed)
      have first := sink_row_left engine http headers baseUrl operator stored owned service row
        present own gstate state
      obtain ⟨others, either, done⟩ := first
      cases ran : sinkRow engine (client http headers baseUrl) operator row gstate state with
      | mk result between =>
        rw [ran] at others either done
        cases result with
        | error error =>
          have stopped : outcome = (.error error, between) := by
            simp only [outcome, sink, ran]
          rw [stopped]
          refine ⟨?_, fun sunk ended => by cases ended⟩
          exact attempted_cons row _ _ _ apart others either (attempted_none _ _ (fun _ _ => rfl))
        | ok next =>
          have further : outcome =
              sink engine (client http headers baseUrl) operator rows next between := by
            simp only [outcome, sink, ran]
          obtain ⟨attempted, completes⟩ := ih distinct.2 within next between
          obtain ⟨there, changed⟩ := done next rfl
          rw [further]
          refine ⟨attempted_cons row _ _ _ apart others either attempted, fun sunk ended => ?_⟩
          obtain ⟨completed, all⟩ := completes sunk ended
          refine ⟨completed_cons row _ _ _ own within apart others changed completed, ?_⟩
          intro other listed
          rcases List.mem_cons.mp listed with rfl | later
          · rw [completed.others _ own apart]
            exact there
          · exact all other later

/-- What happens between a first run of a statement and its last: a run over some of its rows,
ended in any way, or the work of others. -/
def Meanwhile (rows : List (List Value)) (state after : σ) : Prop :=
  (∃ part gstate, part.Sublist rows ∧
    after = (sink engine (client http headers baseUrl) operator part gstate state).2) ∨
  Agrees owned (stored state) (stored after)

/-- Between two requests of a statement it has made some of its changes. -/
theorem meanwhile_attempted (service : StoringService engine http operator stored owned)
    (rows : List (List Value)) (distinct : ((targets rows).map (rowKey engine)).Nodup)
    (mine : ∀ row ∈ targets rows, owned (rowKey engine row)) (state after : σ)
    (meanwhile : Meanwhile engine http headers baseUrl operator stored owned rows state after) :
    Attempted (rowKey engine) (rowChange engine operator) owned (targets rows) (stored state)
      (stored after) := by
  rcases meanwhile with ⟨part, gstate, within, rfl⟩ | agrees
  · have fewer : (targets part).Sublist (targets rows) := within.filter _
    have attempt := (sink_attempted engine http headers baseUrl operator stored owned service part
      (distinct.sublist (fewer.map _)) (fun row listed => mine row (fewer.subset listed)) gstate
      state).1
    exact attempted_more (targets rows) (fun row listed => fewer.subset listed) _ _ attempt
  · exact attempted_none _ _ agrees

/-- A row whose event is an object is steady unless its list loses the flag. -/
theorem row_change_steady (prints : engine.PrintsTimestamps) (row : List Value)
    (distinct : ((operator.setColumns row).map Prod.fst).Nodup)
    (held : Option Json)
    (keeps : ∀ event, held = some event → (∃ members : OrderedMap String Json,
      event = .ofMembers members) ∧ ¬ ForgetsAllDay (operator.setColumns row) event) :
    rowChange engine operator row (rowChange engine operator row held) =
      rowChange engine operator row held := by
  cases held with
  | none => rfl
  | some event =>
    obtain ⟨⟨members, rfl⟩, steady⟩ := keeps event rfl
    cases made : putBody engine operator.returnChunk (operator.setColumns row)
        (.ofMembers members) with
    | error error => simp [rowChange, made, Except.toOption]
    | ok body =>
      have again := (put_body_twice_iff engine prints operator.returnChunk _ members body distinct
        made).mpr steady
      simp [rowChange, made, again, Except.toOption]

end Statements

/-! A service that answers its first PUT with an error after it has stored the body. -/

open EventListing UpdateOnce

/-- A service that stores its first PUT and answers it with 503. -/
def faltering : IHttpClient (Shelf × Bool) where
  execute request state :=
    let answered := smallService.http.execute request state.1
    if request.method = .put ∧ state.2 = true then (.ok ⟨503, ""⟩, answered.2, false)
    else (answered.1, answered.2, state.2)

/-- A PUT is applied or not. -/
theorem put_either (request : HttpRequest) (id : String) (body : Json) (shelf : Shelf)
    (method : request.method = .put) (path : request.path = .event "work" id)
    (sent : request.body = some body) :
    (ListingService.held (smallService.http.execute request shelf).2 =
        ListingService.held shelf ∧
      ∀ response, (smallService.http.execute request shelf).1 = .ok response →
        response.statusCode ≠ 200) ∨
    ListingService.held (smallService.http.execute request shelf).2 =
      Function.update (ListingService.held shelf) id (some body) := by
  simp only [ListingService.http, method, path, sent]
  split
  · right
    funext other
    simp only [ListingService.held, ListingService.store, OrderedMap.find_insert,
      Function.update_apply]
  · left
    refine ⟨rfl, fun response answered => ?_⟩
    obtain rfl := Except.ok.inj answered
    decide

/-- The faltering service stores what it accepts. -/
theorem faltering_stores (column : Nat) :
    StoringService smallEngine faltering (updateColumn column)
      (fun state => ListingService.held state.1) (fun _ => True) where
  gets request id state method path := by
    have same : faltering.execute request state =
        ((smallService.http.execute request state.1).1,
          (smallService.http.execute request state.1).2, state.2) := by
      simp [faltering, method]
    rw [same, SharedListing.get_unchanged smallService request state.1 method]
    refine ⟨fun _ _ => rfl, fun response json answered status parsed _ => ?_⟩
    exact ((smallService.ordered smallEngine (fun _ => rfl) smallScan {}).gets request id state.1
      response _ json method path (Prod.ext answered rfl) status parsed).2
  puts request id body state method path sent := by
    have stored : (faltering.execute request state).2.1 =
        (smallService.http.execute request state.1).2 := by
      simp only [faltering]
      split <;> rfl
    rw [stored]
    rcases put_either request id body state.1 method path sent with ⟨same, refused⟩ | changed
    · rw [same]
      refine ⟨fun _ _ _ => rfl, fun _ => .inl rfl, fun response answered accepted _ => ?_⟩
      simp only [faltering] at answered
      split at answered
      · obtain rfl := Except.ok.inj answered
        simp at accepted
      · exact absurd accepted (refused response answered)
    · rw [changed]
      exact ⟨fun other _ apart => Function.update_of_ne apart _ _,
        fun _ => .inr (Function.update_self ..), fun _ _ _ _ => Function.update_self ..⟩

/-- The rows of the example. -/
def summaryRows : List (List Value) :=
  [[.varchar "x", .varchar "a"], [.varchar "x", .varchar "b"]]

/-- A run over the rows, with what the shelf has for the two events afterwards. -/
def summariesRun (state : Shelf × Bool) :
    Except Exception CalendarUpdateGlobalSinkState × (Shelf × Bool) :=
  sink smallEngine (client faltering [] "") (updateColumn 1) summaryRows {} state

end GoogleCalendar.UpdateReruns
