import GoogleCalendar.Exchanges
import GoogleCalendar.UpdateFrame

/-!
# Which bodies are sent

A body is serialised before it is put, and a text that is not UTF-8 makes that
throw. The bodies that the parser returns have no such text, nor has a SQL value,
and what the columns write is made of them. Only one step cuts a text: `all_day`
SET to TRUE keeps ten bytes of the text of a start or end that is not SET. When
the cut falls into a character, nothing is put and the row ends in an error.

Every other body is sent, with RETURNING always: there both nodes are rewritten.
-/

namespace GoogleCalendar.SentBodies

open Library CivilTime Utf8 EventMapping CalendarUpdate ColumnCells TimeNodes UpdateFrame Exchanges

/-- A node whose text is cut inside a character when it is made a date. -/
def Cut (node : Json) : Prop :=
  node.isObject = true ∧ ∃ raw, rawTime node = some raw ∧ ¬ WellFormed (datePart raw).toList

/-- A list that makes an event an all-day one and leaves it a node that is cut. -/
def CutInside (sets : List (String × Value)) (event : Json) : Prop :=
  effectiveAllDay sets event = true ∧ "all_day" ∈ sets.map Prod.fst ∧
    ∃ key, IsTimeKey key ∧ key ∉ sets.map Prod.fst ∧ ∃ node, event.find key = some node ∧ Cut node

/-- The ten bytes that are kept of a text may end inside a character. -/
example : Cut (.object [("date", .string "2026-06-1Ã©")]) :=
  ⟨rfl, _, rfl, by decide⟩

/-- The text of a serialisable node is UTF-8. -/
theorem raw_time_formed (node : Json) (raw : String) (dumps : node.Dumps)
    (text : rawTime node = some raw) : WellFormed raw.toList := by
  have read : node.find "dateTime" = some (.string raw) ∨
      node.find "date" = some (.string raw) := by
    simp only [rawTime] at text
    split at text
    · rename_i found
      exact .inl (found.trans (by rw [Option.some.inj text]))
    · split at text
      · rename_i found
        exact .inr (found.trans (by rw [Option.some.inj text]))
      · cases text
  rcases read with found | found
  · exact (Json.dumps_string raw).mp (Json.found_dumps node _ _ dumps found).2
  · exact (Json.dumps_string raw).mp (Json.found_dumps node _ _ dumps found).2

/-- A node with one text is serialised when the text is UTF-8. -/
theorem text_node_dumps (key text : String) (named : WellFormed key.toList) :
    (Json.object [(key, .string text)]).Dumps ↔ WellFormed text.toList := by
  rw [Json.dumps_object]
  simp only [List.mem_singleton, forall_eq, Json.dumps_string]
  exact and_iff_right named

/-- A text rebuilt as a date is serialised when its first ten bytes are UTF-8, and as a
date-time always. -/
theorem rebuilt_dumps (raw : String) (allDay : Bool) (formed : WellFormed raw.toList) :
    (rebuiltTimeNode raw allDay).Dumps ↔ (allDay = true → WellFormed (datePart raw).toList) := by
  cases allDay with
  | true =>
    simp only [rebuiltTimeNode, if_true, forall_const]
    exact text_node_dumps "date" _ (by decide)
  | false =>
    simp only [rebuiltTimeNode, Bool.false_eq_true, if_false, false_implies, iff_true]
    rw [text_node_dumps "dateTime" _ (by decide)]
    split
    · rw [String.toList_append]
      exact (well_formed_append _ _ formed).mpr (by decide)
    · exact formed

/-- A serialisable node that is re-encoded stays one unless it is cut. -/
theorem reencoded_dumps (node : Json) (allDay : Bool) (dumps : node.Dumps) :
    (reencodedNode allDay node).Dumps ↔ ¬ (allDay = true ∧ Cut node) := by
  cases object : node.isObject with
  | false => simp [reencodedNode, object, dumps, Cut]
  | true =>
    cases text : rawTime node with
    | none => simp [reencodedNode, object, text, dumps, Cut]
    | some raw =>
      have formed := raw_time_formed node raw dumps text
      simp only [reencodedNode, object, if_true, text, rebuilt_dumps raw allDay formed, Cut,
        Option.some.injEq, exists_eq_left', true_and, not_and, not_not]

variable (engine : Engine)

/-- Numbers are written in ASCII. -/
theorem integer_text_ascii (value : Int) : ∀ char ∈ (toString value).toList, char.toNat < 128 := by
  have digits : ∀ number : Nat, ∀ char ∈ (toString number).toList, char.toNat < 128 := by
    intro number char member
    rw [Nat.toString_eq_repr, Nat.repr, String.toList_ofList] at member
    exact digit_ascii char (Nat.isDigit_of_mem_toDigits (by decide) (by decide) member)
  cases value with
  | ofNat number => exact digits number
  | negSucc number =>
    intro char member
    change char ∈ ("-" ++ toString (number + 1)).toList at member
    rw [String.toList_append] at member
    rcases List.mem_append.mp member with sign | digit
    · exact ascii_text "-" (by decide) char sign
    · exact digits (number + 1) char digit

/-- The text of a SQL value is UTF-8. -/
theorem text_formed (prints : engine.PrintsTimestamps) (val : Value) (admitted : Admitted val) :
    WellFormed (val.toText engine).toList := by
  cases val with
  | null => exact (by decide : WellFormed "NULL".toList)
  | varchar text => exact admitted.utf8 text rfl
  | boolean value =>
    cases value with
    | true => exact (by decide : WellFormed "true".toList)
    | false => exact (by decide : WellFormed "false".toList)
  | bigint value => exact ascii_well_formed _ (integer_text_ascii value)
  | timestampTz micros =>
    obtain ⟨above, below⟩ := admitted.range micros rfl
    have printed := ascii_well_formed _ (prints.ascii micros above below)
    rw [Value.toText, String.toList_append]
    exact (well_formed_append _ _ printed).mpr (by decide)

/-- A timestamp is written in ASCII. -/
theorem formatted_ascii (prints : engine.PrintsTimestamps) (val : Value) (admitted : Admitted val) :
    (∀ char ∈ (formatRfc3339 engine val).toList, char.toNat < 128) ∧
      ∀ char ∈ (formatDate engine val).toList, char.toNat < 128 := by
  have printed : ∀ char ∈ (engine.timestampToString val.getTimestamp).toList,
      char.toNat < 128 := by
    cases val with
    | timestampTz micros =>
      exact prints.ascii micros (admitted.range micros rfl).1 (admitted.range micros rfl).2
    | null | varchar _ | boolean _ | bigint _ => exact prints.ascii 0 (by decide) (by decide)
  constructor
  · intro char member
    rw [formatRfc3339, String.toList_append, replaceChar, String.toList_ofList] at member
    rcases List.mem_append.mp member with text | mark
    · obtain ⟨other, listed, same⟩ := List.mem_map.mp text
      split at same
      · rw [← same]
        decide
      · exact same ▸ printed other listed
    · exact ascii_text "Z" (by decide) char mark
  · intro char member
    rw [formatDate, datePart, String.toList_ofList] at member
    exact printed char (List.mem_of_mem_take member)

/-- The node of a SQL value is serialised, also when it is re-encoded. -/
theorem time_node_dumps (prints : engine.PrintsTimestamps) (val : Value) (admitted : Admitted val)
    (allDay : Bool) : (timeNode engine val allDay).Dumps ∧
      (reencodedNode allDay (timeNode engine val allDay)).Dumps := by
  obtain ⟨dateTime, date⟩ := formatted_ascii engine prints val admitted
  cases allDay with
  | true =>
    have node : (timeNode engine val true).Dumps :=
      (text_node_dumps "date" _ (by decide)).mpr (ascii_well_formed _ date)
    exact ⟨node, by rwa [date_node_fixed]⟩
  | false =>
    have node : (timeNode engine val false).Dumps :=
      (text_node_dumps "dateTime" _ (by decide)).mpr (ascii_well_formed _ dateTime)
    exact ⟨node, (reencoded_dumps _ false node).mpr (by simp)⟩

/-- What a column writes is serialised. -/
theorem written_dumps (prints : engine.PrintsTimestamps) (parses : engine.ParsesUtf8)
    (allDay : Bool) (name key : String) (val : Value) (held : Option Json) (value : Json)
    (keyed : columnKey name = some key) (admitted : Admitted val)
    (formed : ∀ json, held = some json → json.Dumps)
    (written : writtenCell engine allDay name val held = some value) : value.Dumps := by
  rw [written_is_set engine allDay name key val held keyed] at written
  simp only [setMember, encoding] at written
  split at written
  · cases written
  split at written
  · obtain rfl := Option.some.inj written
    exact (Json.dumps_string _).mpr (text_formed engine prints val admitted)
  split at written
  · obtain rfl := Option.some.inj written
    rfl
  split at written
  · cases parsed : passedThrough engine (val.toText engine) with
    | none =>
      rw [parsed, Option.none_or] at written
      exact formed value written
    | some json =>
      rw [parsed, Option.some_or] at written
      obtain rfl := Option.some.inj written
      simp only [passedThrough] at parsed
      split at parsed
      · cases parsed
      · exact parses _ _ parsed
  · obtain rfl := Option.some.inj written
    exact (time_node_dumps engine prints val admitted allDay).1

/-- The keys of the writable columns are ASCII. -/
theorem key_formed (name key : String) (keyed : columnKey name = some key) :
    WellFormed key.toList := by
  have formed : ∀ column ∈ writableKeys, WellFormed column.2.toList := by decide
  exact formed (name, key) (column_key_listed name key keyed)

/-- What the column that owns a key leaves there is serialised. -/
theorem owned_dumps (prints : engine.PrintsTimestamps) (parses : engine.ParsesUtf8)
    (allDay : Bool) (columns : List (String × Value)) (name key : String) (val : Value)
    (held : Option Json) (value : Json) (distinct : (columns.map Prod.fst).Nodup)
    (member : (name, val) ∈ columns) (keyed : columnKey name = some key) (admitted : Admitted val)
    (formed : ∀ json, held = some json → json.Dumps)
    (left : Edit.cellAfter (columnEdits engine allDay columns) key held = some value) :
    value.Dumps := by
  rw [owner_cell engine prints allDay columns name key val held distinct member keyed] at left
  split at left
  · rename_i both
    obtain rfl := time_key_column name key keyed both.1
    rw [written_time engine allDay name val held both.1] at left
    split at left
    · cases left
    · obtain rfl := Option.some.inj left
      exact (time_node_dumps engine prints val admitted allDay).2
  · exact written_dumps engine prints parses allDay name key val held value keyed admitted formed
      left

/-- The body made of a serialisable event is serialised, just when no text of it is cut
inside a character. -/
theorem body_dumps_iff (prints : engine.PrintsTimestamps) (parses : engine.ParsesUtf8)
    (returnChunk : Bool) (columns : List (String × Value)) (members : OrderedMap String Json)
    (body : Json) (distinct : (columns.map Prod.fst).Nodup)
    (admitted : ∀ column ∈ columns, Admitted column.2) (formed : (Json.ofMembers members).Dumps)
    (made : putBody engine returnChunk columns (.ofMembers members) = .ok body) :
    body.Dumps ↔ ¬ CutInside columns (.ofMembers members) := by
  obtain ⟨after, rfl, cells⟩ := put_body_cells engine returnChunk columns members body made
  have held : ∀ key json, members.find key = some json → WellFormed key.toList ∧ json.Dumps :=
    fun key json found => Json.found_dumps (.ofMembers members) json key formed found
  constructor
  · rintro dumps ⟨flag, listed, key, time, unset, node, found, cut⟩
    rw [Json.find_of_members] at found
    have left : after.find key = some (reencodedNode true node) := by
      rw [cells key, flag, found, unset_time_cell engine true columns key node time distinct unset,
        if_pos listed]
    have sent := (Json.found_dumps (.ofMembers after) _ key dumps left).2
    exact (reencoded_dumps node true (held key node found).2).mp sent ⟨rfl, cut⟩
  · intro uncut
    apply Json.members_dump
    intro key value found
    rw [cells key] at found
    by_cases owned : ∃ column ∈ columns, columnKey column.1 = some key
    · obtain ⟨⟨name, val⟩, member, keyed⟩ := owned
      exact ⟨key_formed name key keyed, owned_dumps engine prints parses _ columns name key val _
        value distinct member keyed (admitted _ member) (fun json here => (held key json here).2)
        found⟩
    · have unowned : ∀ column ∈ columns, columnKey column.1 ≠ some key :=
        fun column member keyed => owned ⟨column, member, keyed⟩
      rw [without_owner engine _ columns key _ distinct unowned] at found
      split at found
      · rename_i both
        obtain ⟨node, here, rfl⟩ := Option.map_eq_some_iff.mp found
        refine ⟨(held key node here).1, (reencoded_dumps node _ (held key node here).2).mpr ?_⟩
        rintro ⟨flag, cut⟩
        refine uncut ⟨flag, both.2, key, both.1, ?_, node, here, cut⟩
        intro set
        obtain ⟨column, member, named⟩ := List.mem_map.mp set
        exact unowned column member (named ▸ time_keyed key both.1)
      · exact held key value found

/-- The body that is sent for an event: made of the columns, then serialised. -/
def sentBody (returnChunk : Bool) (columns : List (String × Value)) (event : Json) :
    Except Exception Json :=
  match putBody engine returnChunk columns event with
  | .error error => .error error
  | .ok body =>
    match body.dumped with
    | .error error => .error (.json error)
    | .ok _ => .ok body

/-- A body that is sent was made, and can be serialised. -/
theorem sent_made (returnChunk : Bool) (columns : List (String × Value)) (event body : Json)
    (sent : sentBody engine returnChunk columns event = .ok body) :
    putBody engine returnChunk columns event = .ok body ∧ body.Dumps := by
  simp only [sentBody] at sent
  split at sent
  · cases sent
  · rename_i made
    split at sent
    · cases sent
    · rename_i text dumped
      obtain rfl := Except.ok.inj sent
      exact ⟨made, (Json.dumps_of_dumped _ text dumped).1⟩

/-- A body that is made and can be serialised is sent. -/
theorem made_sent (returnChunk : Bool) (columns : List (String × Value)) (event body : Json)
    (made : putBody engine returnChunk columns event = .ok body) (dumps : body.Dumps) :
    sentBody engine returnChunk columns event = .ok body := by
  simp only [sentBody, made, Json.dumped_ok body dumps]

/-- With RETURNING the list names both nodes, so every body is sent. -/
theorem returning_sent (prints : engine.PrintsTimestamps) (parses : engine.ParsesUtf8)
    (columns : List (String × Value)) (members : OrderedMap String Json)
    (distinct : (columns.map Prod.fst).Nodup)
    (whole : ∀ key, IsTimeKey key → key ∈ columns.map Prod.fst)
    (admitted : ∀ column ∈ columns, Admitted column.2) (formed : (Json.ofMembers members).Dumps) :
    ∃ after : OrderedMap String Json,
      sentBody engine true columns (.ofMembers members) = .ok (.ofMembers after) ∧
      Edit.RunRealized
        (columnEdits engine (effectiveAllDay columns (.ofMembers members)) columns) members
        after := by
  obtain ⟨after, loop, cells⟩ := returning_loop engine
    (effectiveAllDay columns (.ofMembers members)) columns members
  refine ⟨after, made_sent engine true columns _ _ loop ?_, cells⟩
  apply (body_dumps_iff engine prints parses true columns members _ distinct admitted formed
    loop).mpr
  rintro ⟨-, -, key, time, unset, -⟩
  exact unset (whole key time)

section Rows

variable {σ : Type} (client : GoogleCalendarClient σ) (operator : CalendarUpdate)

/-- A row whose GET is answered puts the body that is sent, or ends in the error. -/
theorem sink_row_sends (row : List Value) (gstate : CalendarUpdateGlobalSinkState)
    (state after : σ) (event : Json) (present : (rowId row).isNull = false)
    (got : EventsResource.get engine client operator.calendarId ((rowId row).toText engine) state =
      (.ok event, after)) :
    sinkRow engine client operator row gstate state =
      match sentBody engine operator.returnChunk (operator.setColumns row) event with
      | .error error => (.error error, after)
      | .ok body =>
        sinkBody engine client operator ((rowId row).toText engine) body gstate after := by
  cases made : putBody engine operator.returnChunk (operator.setColumns row) event with
  | error error => simp only [sinkRow, present, Bool.false_eq_true, if_false, got, made, sentBody]
  | ok body =>
    cases text : body.dumped with
    | error error =>
      simp only [sinkRow, present, Bool.false_eq_true, if_false, got, made, sentBody, text,
        sinkBody, EventsResource.update, GoogleCalendarClient.doPut, GoogleCalendarClient.send,
        readResponse, Except.bind]
    | ok written =>
      simp only [sinkRow, present, Bool.false_eq_true, if_false, got, made, sentBody, text]

/-- The request that puts a body back. -/
def putRequest (id : String) (body : Json) : HttpRequest :=
  client.request .put (.event operator.calendarId id) (some body)

/-- A body that is serialised goes out in the request that puts it back. -/
theorem sink_body_puts (id : String) (body : Json) (gstate : CalendarUpdateGlobalSinkState)
    (state : σ) (dumps : body.Dumps) :
    (sinkBody engine client operator id body gstate state).2 =
      (client.http.execute (putRequest client operator id body) state).2 := by
  simp only [sinkBody, EventsResource.update, GoogleCalendarClient.doPut,
    client.send_dumps .put _ body state dumps, putRequest, readResponse]
  split
  · rename_i executed
    exact (congrArg Prod.snd executed).symm
  · rename_i executed
    exact (congrArg Prod.snd executed).symm

end Rows

section Recorded

variable {σ : Type} (retrying : RetryingHttpClient σ) (headers : HttpHeaders) (baseUrl : String)
  (operator : CalendarUpdate) (row : List Value) (gstate : CalendarUpdateGlobalSinkState)
  (state after : σ × List Exchange) (event : Json) (present : (rowId row).isNull = false)
  (got : EventsResource.get engine (recordedClient retrying headers baseUrl) operator.calendarId
    ((rowId row).toText engine) state = (.ok event, after))

include present got

/-- What is recorded of a row behind its GET: the PUT of the body that is sent, attempted at
least once. -/
theorem sent_row_puts (body : Json)
    (sent : sentBody engine operator.returnChunk (operator.setColumns row) event = .ok body) :
    Sends (putRequest (recordedClient retrying headers baseUrl) operator
        ((rowId row).toText engine) body) after.2
      (sinkRow engine (recordedClient retrying headers baseUrl) operator row gstate state).2.2 := by
  have dumps := (sent_made engine _ _ _ body sent).2
  have allowed := read_allowed engine .ok retrying _ state after event got
  rw [sink_row_sends engine _ operator row gstate state after event present got, sent]
  dsimp only
  rw [sink_body_puts engine _ operator _ body gstate after dumps]
  exact execute_sends retrying _ after allowed

/-- A row without a body ends in the error, and its record ends with the GET. -/
theorem unsent_row (error : Exception)
    (unsent : sentBody engine operator.returnChunk (operator.setColumns row) event =
      .error error) :
    sinkRow engine (recordedClient retrying headers baseUrl) operator row gstate state =
      (.error error, after) := by
  rw [sink_row_sends engine _ operator row gstate state after event present got, unsent]

/-- The record tells the body that was sent. -/
theorem row_puts_sent (body : Json)
    (puts : Sends (putRequest (recordedClient retrying headers baseUrl) operator
        ((rowId row).toText engine) body) after.2
      (sinkRow engine (recordedClient retrying headers baseUrl) operator row gstate state).2.2) :
    sentBody engine operator.returnChunk (operator.setColumns row) event = .ok body := by
  cases sent : sentBody engine operator.returnChunk (operator.setColumns row) event with
  | error error =>
    rw [unsent_row engine retrying headers baseUrl operator row gstate state after event present
      got error sent] at puts
    exact absurd puts (not_sends_same _ _)
  | ok made =>
    have putsMade := sent_row_puts engine retrying headers baseUrl operator row gstate state after
      event present got made sent
    have same := sends_unique _ _ _ _ puts putsMade
    simp only [putRequest, GoogleCalendarClient.request, HttpRequest.mk.injEq,
      Option.some.injEq, true_and] at same
    rw [same]

end Recorded

end GoogleCalendar.SentBodies
