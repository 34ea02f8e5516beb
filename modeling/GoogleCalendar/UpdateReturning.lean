import GoogleCalendar.ColumnReads
import GoogleCalendar.SentBodies

/-!
# What RETURNING does to an UPDATE

With RETURNING the engine hands the sink the whole row: the columns SET and
every other column with the value the scan read. The sink then writes every
writable column, so a member whose column was not SET is replaced by the
encoding of its scanned value. That encoding is not always the member: a zone
and an offset are lost, an explicit null is dropped, a value of another kind
becomes text. And it skips the columns that are not writable, also those that
were SET, where a plain UPDATE is refused.

The two runs of a row are compared member by member. A member whose column was
SET has the same value in both, because its column decides it wherever it
stands; only negative infinity can tell where `all_day` stands.
-/

namespace GoogleCalendar.UpdateReturning

open Library EventMapping CalendarUpdate ColumnCells ColumnReads TimeNodes UpdateFrame SentBodies
  Exchanges

variable (engine : Engine) (calendarId : String)

/-- The columns of the schema that a SET list leaves out. -/
def unsetNames (sets : List (String × Value)) : List String :=
  eventsNames.filter (fun name => name ∉ sets.map Prod.fst)

/-- The SET list with every other column of the schema and its scanned value. -/
def expandedColumns (event : Json) (sets : List (String × Value)) : List (String × Value) :=
  sets ++ (unsetNames sets).map (fun name => (name, columnValue engine event calendarId name))

/-- The columns that are not SET. -/
theorem mem_unset_names (sets : List (String × Value)) (name : String) :
    name ∈ unsetNames sets ↔ name ∈ eventsNames ∧ name ∉ sets.map Prod.fst := by
  simp [unsetNames]

/-- The expanded list names no column twice. -/
theorem expanded_distinct (event : Json) (sets : List (String × Value))
    (distinct : (sets.map Prod.fst).Nodup) :
    ((expandedColumns engine calendarId event sets).map Prod.fst).Nodup := by
  have names : (expandedColumns engine calendarId event sets).map Prod.fst =
      sets.map Prod.fst ++ unsetNames sets := by
    simp [expandedColumns, Function.comp_def]
  rw [names]
  refine List.nodup_append.mpr ⟨distinct, events_names_distinct.filter _, ?_⟩
  intro name set other unset same
  exact ((mem_unset_names sets other).mp unset).2 (same ▸ set)

/-- Expanding the list keeps the flag: an `all_day` that was not SET is scanned as
the event's own. -/
theorem expanded_flag (event : Json) (sets columns : List (String × Value))
    (distinct : (sets.map Prod.fst).Nodup)
    (expanded : columns.Perm (expandedColumns engine calendarId event sets)) :
    effectiveAllDay columns event = effectiveAllDay sets event := by
  have columnsDistinct : (columns.map Prod.fst).Nodup :=
    ((expanded.map Prod.fst).nodup_iff).mpr
      (expanded_distinct engine calendarId event sets distinct)
  by_cases set : "all_day" ∈ sets.map Prod.fst
  · obtain ⟨⟨name, val⟩, listed, named⟩ := List.mem_map.mp set
    obtain rfl : name = "all_day" := named
    have inColumns : ("all_day", val) ∈ columns :=
      expanded.mem_iff.mpr (List.mem_append_left _ listed)
    rw [effective_of_listed columns event val columnsDistinct inColumns,
      effective_of_listed sets event val distinct listed]
  · have unset : "all_day" ∈ unsetNames sets :=
      (mem_unset_names sets "all_day").mpr ⟨by decide, set⟩
    have inColumns : ("all_day", columnValue engine event calendarId "all_day") ∈ columns :=
      expanded.mem_iff.mpr (List.mem_append_right _ (List.mem_map_of_mem unset))
    rw [effective_of_listed columns event _ columnsDistinct inColumns,
      effective_of_unlisted sets event set]
    have scanned : columnValue engine event calendarId "all_day" =
        .boolean (existingAllDay event) := rfl
    rw [scanned]
    rfl

/-- The whole row names every column of the schema. -/
theorem expanded_names (event : Json) (sets columns : List (String × Value))
    (expanded : columns.Perm (expandedColumns engine calendarId event sets)) (name : String)
    (listed : name ∈ eventsNames) : name ∈ columns.map Prod.fst := by
  rw [(expanded.map Prod.fst).mem_iff]
  by_cases set : name ∈ sets.map Prod.fst
  · rw [expandedColumns, List.map_append]
    exact List.mem_append_left _ set
  · have unset := (mem_unset_names sets name).mpr ⟨listed, set⟩
    exact List.mem_map.mpr ⟨(name, columnValue engine event calendarId name),
      List.mem_append_right _ (List.mem_map_of_mem unset), rfl⟩

/-- What a column leaves under its key in a list that encodes with a flag. -/
def leftMember (columns : List (String × Value)) (allDay : Bool) (name key : String)
    (val : Value) (held : Option Json) : Option Json :=
  let cell := writtenCell engine allDay name val held
  if IsTimeKey key ∧ allDayBehind columns key = true then cell.map (reencodedNode allDay) else cell

/-- The member that a plain UPDATE leaves under the key of a column it did not SET. -/
def unsetMember (sets : List (String × Value)) (allDay : Bool) (key : String)
    (held : Option Json) : Option Json :=
  if IsTimeKey key ∧ "all_day" ∈ sets.map Prod.fst then held.map (reencodedNode allDay) else held

/-- Whether the encoding of the value that is scanned of a member is the member: of a string
column when it is a string, of a boolean one when it is a boolean, of raw JSON when it is not
null and its text parses to it or to nothing. A start or end must have a text that is cast to
an instant, and the node of that instant must be the one that the plain UPDATE leaves. -/
def ReadsBack (sets columns : List (String × Value)) (allDay : Bool) (name : String)
    (member : Json) : Prop :=
  if (writableStringKeys.lookup name).isSome then ∃ text, member = .string text
  else if (writableBoolKeys.lookup name).isSome then ∃ value, member = .boolean value
  else if (writableJsonKeys.lookup name).isSome then
    member ≠ .null ∧ ∀ parsed, passedThrough engine member.dump = some parsed → parsed = member
  else
    ∃ raw micros, member.isObject = true ∧ rawTime member = some raw ∧
      engine.castTimestampTz raw = some micros ∧
      leftMember engine columns allDay name name (.timestampTz micros) none =
        unsetMember sets allDay name (some member)

/-- A string column gives back strings only. -/
theorem string_reads_back (event : Json) (allDay : Bool) (name key : String)
    (found : writableStringKeys.lookup name = some key) :
    writtenCell engine allDay name (jsonString event key) (event.find key) = event.find key ↔
      ∀ member, event.find key = some member → ∃ text, member = .string text := by
  rw [written_string engine allDay name key _ _ found]
  cases held : event.find key with
  | none => simp [jsonString, held, Value.isNull]
  | some member =>
    simp only [Option.some.injEq, forall_eq']
    cases member <;> simp [jsonString, held, Value.isNull, Value.toText]

/-- A boolean column gives back booleans only. -/
theorem boolean_reads_back (event : Json) (allDay : Bool) (name key : String)
    (found : writableBoolKeys.lookup name = some key) :
    writtenCell engine allDay name (jsonBool event key) (event.find key) = event.find key ↔
      ∀ member, event.find key = some member → ∃ value, member = .boolean value := by
  rw [written_boolean engine allDay name key _ _ found]
  cases held : event.find key with
  | none => simp [jsonBool, held, Value.isNull]
  | some member =>
    simp only [Option.some.injEq, forall_eq']
    cases member <;> simp [jsonBool, held, Value.isNull, Value.getBoolean]

/-- A raw JSON column gives back what is not null and whose text parses to it or to nothing. -/
theorem raw_gives_back (event : Json) (allDay : Bool) (name key : String)
    (found : writableJsonKeys.lookup name = some key) :
    writtenCell engine allDay name (jsonRaw event key) (event.find key) = event.find key ↔
      ∀ member, event.find key = some member → member ≠ .null ∧
        ∀ parsed, passedThrough engine member.dump = some parsed → parsed = member := by
  rw [written_raw engine allDay name key _ _ found]
  cases held : event.find key with
  | none => simp [jsonRaw, held, Value.isNull]
  | some member =>
    rw [raw_reads event member key held]
    simp only [Option.some.injEq, forall_eq']
    by_cases absent : member = .null
    · simp [absent, Value.isNull]
    · simp only [absent, if_false, Value.isNull, Bool.false_eq_true, Value.toText, ne_eq,
        not_false_eq_true, true_and]
      cases passedThrough engine member.dump with
      | none => simp
      | some parsed => simp

/-- A start or end gives back a node whose instant is encoded as the plain UPDATE leaves it. -/
theorem time_reads_back (event : Json) (sets columns : List (String × Value)) (allDay : Bool)
    (key : String) (time : IsTimeKey key) :
    leftMember engine columns allDay key key (parseEventTime engine event key)
        (event.find key) = unsetMember sets allDay key (event.find key) ↔
      ∀ member, event.find key = some member → ∃ raw micros, member.isObject = true ∧
        rawTime member = some raw ∧ engine.castTimestampTz raw = some micros ∧
        leftMember engine columns allDay key key (.timestampTz micros) none =
          unsetMember sets allDay key (some member) := by
  have left : ∀ val held, leftMember engine columns allDay key key val held =
      leftMember engine columns allDay key key val none := by
    intro val held
    rw [leftMember, leftMember, written_time engine allDay key val held time,
      written_time engine allDay key val none time]
  have erased : leftMember engine columns allDay key key .null none = none := by
    rw [leftMember, written_time engine allDay key .null none time]
    simp [Value.isNull]
  have present : ∀ member, unsetMember sets allDay key (some member) ≠ none := by
    intro member
    rw [unsetMember]
    split <;> simp
  rw [left]
  cases held : event.find key with
  | none => simp [parseEventTime, held, erased, unsetMember]
  | some member =>
    have unread : parseEventTime engine event key = .null →
        leftMember engine columns allDay key key (parseEventTime engine event key) none ≠
          unsetMember sets allDay key (some member) := by
      intro null same
      rw [null, erased] at same
      exact present member same.symm
    simp only [Option.some.injEq, forall_eq']
    cases object : member.isObject with
    | false =>
      have null : parseEventTime engine event key = .null := by
        simp [parseEventTime, held, object]
      simp [unread null]
    | true =>
      cases text : rawTime member with
      | none =>
        have null : parseEventTime engine event key = .null := by
          simp [parseEventTime, held, object, text]
        simp [unread null]
      | some raw =>
        cases cast : engine.castTimestampTz raw with
        | none =>
          have null : parseEventTime engine event key = .null := by
            simp [parseEventTime, held, object, text, cast]
          simp [unread null, cast]
        | some micros =>
          have read : parseEventTime engine event key = .timestampTz micros := by
            simp [parseEventTime, held, object, text, cast]
          simp [read, cast]

/-- The encoding of a scanned value leaves what the plain UPDATE leaves, just when the
member reads back. -/
theorem reads_back_iff (event : Json) (sets columns : List (String × Value)) (allDay : Bool)
    (name key : String) (keyed : columnKey name = some key) :
    leftMember engine columns allDay name key (columnValue engine event calendarId name)
        (event.find key) = unsetMember sets allDay key (event.find key) ↔
      ∀ member, event.find key = some member →
        ReadsBack engine sets columns allDay name member := by
  have field : columnValue engine event calendarId name = extractField engine event name := by
    have plain : ∀ column ∈ writableKeys, column.1 ≠ "calendar_id" := by decide
    rw [columnValue, if_neg (plain (name, key) (column_key_listed name key keyed))]
  have untimed : ∀ table : List (String × String),
      (∀ column ∈ table, ¬ IsTimeKey column.2) → table.lookup name = some key →
      ∀ val, leftMember engine columns allDay name key val (event.find key) =
          writtenCell engine allDay name val (event.find key) ∧
        unsetMember sets allDay key (event.find key) = event.find key := by
    intro table apart found val
    have plain := apart (name, key) (lookup_listed table name key found)
    exact ⟨if_neg (fun both => plain both.1), if_neg (fun both => plain both.1)⟩
  rw [field]
  rcases key_cases name key keyed with isString | isBool | isJson | ⟨rfl, time⟩
  · obtain ⟨left, unset⟩ := untimed _ (by decide) isString (extractField engine event name)
    rw [left, unset, read_string engine event name key isString,
      string_reads_back engine event allDay name key isString]
    simp only [ReadsBack, isString, Option.isSome_some, if_true]
  · obtain ⟨left, unset⟩ := untimed _ (by decide) isBool (extractField engine event name)
    have noString : writableStringKeys.lookup name = none := by
      have apart : ∀ column ∈ writableBoolKeys, writableStringKeys.lookup column.1 = none := by
        decide
      exact apart (name, key) (lookup_listed _ name key isBool)
    rw [left, unset, read_boolean engine event name key isBool,
      boolean_reads_back engine event allDay name key isBool]
    simp only [ReadsBack, noString, isBool, Option.isSome_none, Option.isSome_some, if_true,
      Bool.false_eq_true, if_false]
  · obtain ⟨left, unset⟩ := untimed _ (by decide) isJson (extractField engine event name)
    have others : writableStringKeys.lookup name = none ∧ writableBoolKeys.lookup name = none := by
      have apart : ∀ column ∈ writableJsonKeys, writableStringKeys.lookup column.1 = none ∧
          writableBoolKeys.lookup column.1 = none := by decide
      exact apart (name, key) (lookup_listed _ name key isJson)
    rw [left, unset, read_raw engine event name key isJson,
      raw_gives_back engine event allDay name key isJson]
    simp only [ReadsBack, others, isJson, Option.isSome_none, Option.isSome_some, if_true,
      Bool.false_eq_true, if_false]
  · have others : writableStringKeys.lookup name = none ∧ writableBoolKeys.lookup name = none ∧
        writableJsonKeys.lookup name = none := by
      rcases time with rfl | rfl <;> decide
    rw [read_time engine event name time,
      time_reads_back engine event sets columns allDay name time]
    simp only [ReadsBack, others, Option.isSome_none, Bool.false_eq_true, if_false]

/-- A list that SETs a start or end to negative infinity as a date-time keeps, when it is
expanded, whether `all_day` stands behind it. -/
def InfinityKept (sets columns : List (String × Value)) (allDay : Bool) : Prop :=
  allDay = false → ∀ key, IsTimeKey key → (key, Value.timestampTz ninfinity) ∈ sets →
    allDayBehind columns key = allDayBehind sets key

/-- A SET column leaves the same in both lists, unless it is negative infinity and `all_day`
stands behind it in one of them. -/
theorem set_column_same_iff (prints : engine.PrintsTimestamps)
    (sets columns : List (String × Value)) (allDay : Bool) (name key : String) (val : Value)
    (held : Option Json) (keyed : columnKey name = some key) (admitted : Admitted val) :
    leftMember engine columns allDay name key val held =
        leftMember engine sets allDay name key val held ↔
      (allDay = false → IsTimeKey key → val = .timestampTz ninfinity →
        allDayBehind columns key = allDayBehind sets key) := by
  by_cases time : IsTimeKey key
  · obtain rfl := time_key_column name key keyed time
    by_cases redone : allDay = false ∧ val = .timestampTz ninfinity
    · obtain ⟨rfl, rfl⟩ := redone
      have written := written_time engine false name (.timestampTz ninfinity) held time
      have changed := negative_infinity_redone engine prints
      simp only [leftMember, written, time, true_and, Value.isNull, Bool.false_eq_true, if_false,
        Option.map_some, forall_const]
      cases allDayBehind columns name <;> cases allDayBehind sets name <;>
        simp [changed, Ne.symm changed]
    · have fixed : (writtenCell engine allDay name val held).map (reencodedNode allDay) =
          writtenCell engine allDay name val held := by
        rcases printable_or_least val admitted with plain | least
        · exact (time_cell engine prints allDay name val held time plain).2
        · have date : allDay = true := by
            cases allDay with
            | true => rfl
            | false => exact absurd ⟨rfl, least⟩ redone
          rw [written_time engine allDay name val held time, date]
          split
          · rfl
          · rw [Option.map_some, date_node_fixed]
      simp only [leftMember, fixed, ite_self, true_iff]
      exact fun flag _ least => absurd ⟨flag, least⟩ redone
  · simp only [leftMember, time, false_and, if_false, false_implies, implies_true]

section Bodies

variable (prints : engine.PrintsTimestamps) (event : Json) (sets columns : List (String × Value))
  (distinct : (sets.map Prod.fst).Nodup)
  (expanded : columns.Perm (expandedColumns engine calendarId event sets))
  (admitted : ∀ column ∈ sets, Admitted column.2)

include prints distinct expanded

/-- Member by member, a whole row leaves what its columns leave, and the SET list leaves the
members without a column of its own as they are or re-encoded. -/
theorem expanded_cells (allDay : Bool) (key : String) (held : Option Json) :
    (∀ name val, columnKey name = some key → (name, val) ∈ sets →
      Edit.cellAfter (columnEdits engine allDay columns) key held =
          leftMember engine columns allDay name key val held ∧
        Edit.cellAfter (columnEdits engine allDay sets) key held =
          leftMember engine sets allDay name key val held) ∧
    (∀ name, columnKey name = some key → name ∉ sets.map Prod.fst →
      Edit.cellAfter (columnEdits engine allDay columns) key held =
          leftMember engine columns allDay name key (columnValue engine event calendarId name)
            held ∧
        Edit.cellAfter (columnEdits engine allDay sets) key held =
          unsetMember sets allDay key held) ∧
    ((∀ name, columnKey name ≠ some key) →
      Edit.cellAfter (columnEdits engine allDay columns) key held =
        Edit.cellAfter (columnEdits engine allDay sets) key held) := by
  have columnsDistinct : (columns.map Prod.fst).Nodup :=
    ((expanded.map Prod.fst).nodup_iff).mpr
      (expanded_distinct engine calendarId event sets distinct)
  refine ⟨?_, ?_, ?_⟩
  · intro name val keyed listed
    have inColumns : (name, val) ∈ columns :=
      expanded.mem_iff.mpr (List.mem_append_left _ listed)
    exact ⟨owner_cell engine prints allDay columns name key val held columnsDistinct inColumns
      keyed, owner_cell engine prints allDay sets name key val held distinct listed keyed⟩
  · intro name keyed unset
    have inColumns : (name, columnValue engine event calendarId name) ∈ columns :=
      expanded.mem_iff.mpr (List.mem_append_right _ (List.mem_map_of_mem
        ((mem_unset_names sets name).mpr ⟨writable_in_schema name key keyed, unset⟩)))
    refine ⟨owner_cell engine prints allDay columns name key _ held columnsDistinct inColumns keyed,
      ?_⟩
    apply without_owner engine allDay sets key held distinct
    intro column listed owned
    apply unset
    rw [← column_key_injective column.1 name key owned keyed]
    exact List.mem_map_of_mem listed
  · intro unowned
    have notTime : ¬ IsTimeKey key := fun time => unowned key (time_keyed key time)
    rw [without_owner engine allDay columns key held columnsDistinct (fun column _ => unowned _),
      without_owner engine allDay sets key held distinct (fun column _ => unowned _),
      if_neg (fun both => notTime both.1), if_neg (fun both => notTime both.1)]

include admitted

/-- The bodies that both lists make of one event are the same, just when negative infinity is
kept and the members of the columns that were not SET read back. -/
theorem expanded_bodies_iff (allDay : Bool) (members sent kept : OrderedMap String Json)
    (source : event = .ofMembers members)
    (sentCells : Edit.RunRealized (columnEdits engine allDay columns) members sent)
    (keptCells : Edit.RunRealized (columnEdits engine allDay sets) members kept) :
    sent = kept ↔ InfinityKept sets columns allDay ∧
      ∀ name key member, columnKey name = some key → name ∉ sets.map Prod.fst →
        members.find key = some member → ReadsBack engine sets columns allDay name member := by
  have cells := expanded_cells engine calendarId prints event sets columns distinct expanded allDay
  have reads : ∀ name key, columnKey name = some key →
      (leftMember engine columns allDay name key (columnValue engine event calendarId name)
          (members.find key) = unsetMember sets allDay key (members.find key) ↔
        ∀ member, members.find key = some member →
          ReadsBack engine sets columns allDay name member) := by
    intro name key keyed
    have found : event.find key = members.find key := by rw [source, Json.find_of_members]
    rw [← found]
    exact reads_back_iff engine calendarId event sets columns allDay name key keyed
  constructor
  · rintro rfl
    have same : ∀ key, Edit.cellAfter (columnEdits engine allDay columns) key (members.find key) =
        Edit.cellAfter (columnEdits engine allDay sets) key (members.find key) :=
      fun key => (sentCells key).symm.trans (keptCells key)
    constructor
    · intro flag key time listed
      obtain ⟨whole, plain⟩ :=
        (cells key (members.find key)).1 key _ (time_keyed key time) listed
      exact (set_column_same_iff engine prints sets columns allDay key key _ _ (time_keyed key time)
        (admitted _ listed)).mp (whole.symm.trans ((same key).trans plain)) flag time rfl
    · intro name key member keyed unset found
      obtain ⟨whole, plain⟩ := (cells key (members.find key)).2.1 name keyed unset
      exact (reads name key keyed).mp (whole.symm.trans ((same key).trans plain)) member found
  · rintro ⟨infinite, back⟩
    apply OrderedMap.ext_find
    intro key
    rw [sentCells key, keptCells key]
    obtain ⟨set, unset, unowned⟩ := cells key (members.find key)
    by_cases owned : ∃ name, columnKey name = some key
    · obtain ⟨name, keyed⟩ := owned
      by_cases listed : name ∈ sets.map Prod.fst
      · obtain ⟨⟨other, val⟩, member, named⟩ := List.mem_map.mp listed
        obtain rfl : other = name := named
        obtain ⟨whole, plain⟩ := set other val keyed member
        rw [whole, plain]
        apply (set_column_same_iff engine prints sets columns allDay other key val _ keyed
          (admitted _ member)).mpr
        rintro flag time rfl
        obtain rfl := time_key_column other key keyed time
        exact infinite flag other time member
      · obtain ⟨whole, plain⟩ := unset name keyed listed
        rw [whole, plain]
        exact (reads name key keyed).mpr (fun member => back name key member keyed listed)
    · exact unowned (fun name keyed => owned ⟨name, keyed⟩)

end Bodies

/-- The two modes put a body back in the same way. -/
theorem sink_body_modes {σ : Type} (client : GoogleCalendarClient σ)
    (first second : CalendarUpdate) (sameCalendar : first.calendarId = second.calendarId)
    (id : String) (body : Json) (gstate : CalendarUpdateGlobalSinkState) (state : σ) :
    (sinkBody engine client first id body gstate state).2 =
        (sinkBody engine client second id body gstate state).2 ∧
      (sinkBody engine client first id body gstate state).1.map
          CalendarUpdateGlobalSinkState.updateCount =
        (sinkBody engine client second id body gstate state).1.map
          CalendarUpdateGlobalSinkState.updateCount := by
  simp only [sinkBody, sameCalendar]
  cases EventsResource.update engine client second.calendarId id body state with
  | mk answer after => cases answer <;> exact ⟨rfl, rfl⟩

/-- An event that starts at nine in Berlin. -/
def berlinMembers : OrderedMap String Json :=
  ((OrderedMap.empty.insert "id" (.string "a")).insert "start"
    (.object [("dateTime", .string "2026-06-10T09:00:00+02:00"),
      ("timeZone", .string "Europe/Berlin")])).insert "summary" (.string "Old")

/-- The same event with its start in UTC. -/
def utcMembers : OrderedMap String Json :=
  berlinMembers.insert "start" (.object [("dateTime", .string "2026-06-10T07:00:00Z")])

/-- An engine that reads both starts and both bodies. -/
def berlinEngine : Engine :=
  .reading [("2026-06-10T09:00:00+02:00", 1781074800000000),
      ("2026-06-10T07:00:00Z", 1781074800000000)]
    [("berlin", .ofMembers berlinMembers), ("utc", .ofMembers utcMembers)]

/-- What it parses is UTF-8. -/
theorem berlin_parses : berlinEngine.ParsesUtf8 := Engine.listed_parses _ (by decide)

/-- The SET list of the example. -/
def renamed : List (String × Value) := [("summary", .varchar "New")]

/-- The whole row of the renamed event with its start in UTC. -/
def renamedRow : List (String × Value) :=
  expandedColumns berlinEngine "work" (.ofMembers utcMembers) renamed

/-- The cells of its row, and the id. -/
def renamedValues : List Value := renamedRow.map Prod.snd ++ [.varchar "a"]

/-- The columns of its row, by their places in the schema. -/
def renamedIndexes : List Nat := renamedRow.map (fun column => eventsNames.idxOf column.1)

/-- They are the expanded list. -/
theorem renamed_expanded :
    CalendarUpdate.setColumns ⟨"work", eventsNames, renamedIndexes, List.range 43, true⟩
      renamedValues = renamedRow := by
  decide

/-- Its only member with a column that was not SET is the start, which reads back. -/
theorem utc_reads_back (name key : String) (member : Json) (keyed : columnKey name = some key)
    (unset : name ∉ renamed.map Prod.fst) (found : utcMembers.find key = some member) :
    ReadsBack berlinEngine renamed renamedRow false name member := by
  have keys : ∀ entry ∈ utcMembers.entries, ∀ column ∈ writableKeys, column.2 = entry.1 →
      column.1 = "summary" ∨ column.1 = "start" := by decide
  have entry : (key, member) ∈ utcMembers.entries := SortedEntries.find_mem key member _ found
  rcases keys _ entry (name, key) (column_key_listed name key keyed) rfl with rfl | rfl
  · exact absurd (List.mem_singleton.mpr rfl) unset
  · obtain rfl : "start" = key := Option.some.inj ((time_keyed "start" (.inl rfl)).symm.trans keyed)
    have start : utcMembers.find "start" =
        some (.object [("dateTime", .string "2026-06-10T07:00:00Z")]) := by decide
    obtain rfl := Option.some.inj (start.symm.trans found)
    refine ⟨"2026-06-10T07:00:00Z", 1781074800000000, rfl, rfl, rfl, ?_⟩
    decide +kernel

/-- A client that is answered with a list of responses. -/
def renamingRetrying : RetryingHttpClient (List HttpResponse) :=
  ⟨mockHttpClient, {}, fun _ responses => responses⟩

end GoogleCalendar.UpdateReturning
