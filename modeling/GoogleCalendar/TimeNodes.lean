import GoogleCalendar.ColumnCells

/-!
# The two encodings of start and end

A start or end node is a date or a date-time, told by which of the two members
it has. UPDATE settles one flag for the whole list before it applies a column:
the value of `all_day` when that is SET, the event's own kind when not. Every
column that writes a node writes it in the kind of the flag, and the re-encoding
that `all_day` asks for turns the nodes that are not SET into that kind as well,
so both nodes end up in it.
-/

namespace GoogleCalendar.TimeNodes

open Library CivilTime EventMapping CalendarUpdate ColumnCells

/-- The kind of a node, `true` for a date: an object with exactly one of the two
members has one. -/
def nodeKind (node : Json) : Option Bool :=
  if node.isObject ∧ node.contains "date" ≠ node.contains "dateTime" then
    some (node.contains "date")
  else none

/-- A node of a kind, whose one member is a string. -/
structure Encodes (node : Json) (allDay : Bool) : Prop where
  kind : nodeKind node = some allDay
  text : (rawTime node).isSome = true

/-- What UPDATE is to make of both nodes: dates when `all_day` is SET to TRUE,
date-times when it is SET to FALSE or NULL, and what they were when it is not
SET. -/
def targetAllDay (columns : List (String × Value)) (before : Bool) : Bool :=
  match columns.lookup "all_day" with
  | some val => val = .boolean true
  | none => before

/-- The value that a list with distinct names gives a column. -/
theorem lookup_of_mem (columns : List (String × Value)) (name : String) (val : Value)
    (distinct : (columns.map Prod.fst).Nodup) (member : (name, val) ∈ columns) :
    columns.lookup name = some val := by
  induction columns with
  | nil => simp at member
  | cons column rest ih =>
    obtain ⟨other, held⟩ := column
    simp only [List.map_cons, List.nodup_cons] at distinct
    cases List.mem_cons.mp member with
    | inl same =>
      obtain ⟨rfl, rfl⟩ := Prod.mk.inj same
      simp
    | inr later =>
      have apart : name ≠ other := by
        rintro rfl
        exact distinct.1 (List.mem_map.mpr ⟨_, later, rfl⟩)
      rw [List.lookup_cons, beq_false_of_ne apart]
      exact ih distinct.2 later

/-- A column that is not listed has no value. -/
theorem lookup_of_not_mem (columns : List (String × Value)) (name : String)
    (absent : name ∉ columns.map Prod.fst) : columns.lookup name = none := by
  rw [List.lookup_eq_none_iff]
  intro column member
  rw [bne_iff_ne]
  rintro rfl
  exact absent (List.mem_map_of_mem member)

/-- The flag that the sink settles is the target. -/
theorem effective_is_target (columns : List (String × Value)) (event : Json)
    (distinct : (columns.map Prod.fst).Nodup) :
    effectiveAllDay columns event = targetAllDay columns (existingAllDay event) := by
  by_cases listed : "all_day" ∈ columns.map Prod.fst
  · obtain ⟨⟨name, val⟩, member, named⟩ := List.mem_map.mp listed
    obtain rfl : name = "all_day" := named
    rw [effective_of_listed columns event val distinct member, targetAllDay,
      lookup_of_mem columns "all_day" val distinct member]
    cases val with
    | boolean value => cases value <;> rfl
    | _ => rfl
  · rw [effective_of_unlisted columns event listed, targetAllDay,
      lookup_of_not_mem columns "all_day" listed]

/-- A node with a kind is an object. -/
theorem encodes_object (node : Json) (allDay : Bool) (encodes : Encodes node allDay) :
    node.isObject = true := by
  have kind := encodes.kind
  simp only [nodeKind] at kind
  split at kind
  · rename_i held
    exact held.1
  · simp at kind

/-- The event is all-day when its start node is a date. -/
theorem existing_of_kind (event node : Json) (allDay : Bool)
    (found : event.find "start" = some node) (kind : nodeKind node = some allDay) :
    existingAllDay event = allDay := by
  simp only [nodeKind] at kind
  split at kind
  · rename_i held
    obtain rfl := Option.some.inj kind
    obtain ⟨object, apart⟩ := held
    simp only [existingAllDay, found, object]
    cases date : node.contains "date" <;> cases dateTime : node.contains "dateTime" <;>
      simp [date, dateTime] at apart ⊢
  · simp at kind

/-- A date is the encoding of an all-day time. -/
theorem encodes_date (text : String) : Encodes (.object [("date", .string text)]) true := by
  constructor
  · rfl
  · rfl

/-- A date-time is the encoding of another. -/
theorem encodes_date_time (text : String) :
    Encodes (.object [("dateTime", .string text)]) false := by
  constructor
  · rfl
  · rfl

variable (engine : Engine)

/-- A SET value is written in the kind of the flag. -/
theorem encodes_time_node (val : Value) (allDay : Bool) :
    Encodes (timeNode engine val allDay) allDay := by
  cases allDay with
  | true => exact encodes_date _
  | false => exact encodes_date_time _

/-- A node that has a text is re-encoded in the kind of the flag. -/
theorem encodes_reencoded (node : Json) (before allDay : Bool) (encodes : Encodes node before) :
    Encodes (reencodedNode allDay node) allDay := by
  obtain ⟨raw, text⟩ := Option.isSome_iff_exists.mp encodes.text
  have object := encodes_object node before encodes
  simp only [reencodedNode, object, if_true, text, rebuiltTimeNode]
  cases allDay with
  | true => exact encodes_date _
  | false => exact encodes_date_time _

/-- What a SET start or end leaves: its own node, re-encoded if `all_day` comes
after it. -/
theorem time_owner_cell (allDay : Bool) (before after : List (String × Value)) (key : String)
    (val : Value) (held : Option Json) (time : IsTimeKey key)
    (distinct : ((before ++ (key, val) :: after).map Prod.fst).Nodup) :
    Edit.cellAfter (columnEdits engine allDay (before ++ (key, val) :: after)) key held =
      if "all_day" ∈ after.map Prod.fst then
        (writtenCell engine allDay key val none).map (reencodedNode allDay)
      else writtenCell engine allDay key val none := by
  have keyed := time_keyed key time
  have written : ∀ held, writtenCell engine allDay key val held =
      writtenCell engine allDay key val none := by
    intro held
    rw [written_time engine allDay key val held time, written_time engine allDay key val none time]
  have unowned := owner_unique before after key key val distinct keyed
  have afterDistinct : (after.map Prod.fst).Nodup := by
    rw [List.map_append, List.map_cons] at distinct
    exact (List.nodup_cons.mp (List.nodup_append.mp distinct).2.1).2
  rw [owner_split engine allDay before after key key val held keyed, written,
    without_owner engine allDay after key _ afterDistinct
      (fun column member => unowned column (List.mem_append_right _ member))]
  by_cases later : "all_day" ∈ after.map Prod.fst
  · rw [if_pos ⟨time, later⟩, if_pos later]
  · rw [if_neg (fun both => later both.2), if_neg later]

/-- Whether `all_day` stands behind a column of a list. -/
def allDayBehind (columns : List (String × Value)) (name : String) : Bool :=
  match columns.dropWhile (fun column => column.1 ≠ name) with
  | [] => false
  | _ :: after => after.any (fun column => column.1 = "all_day")

/-- `all_day` is behind a column when it is among the columns after it. -/
theorem all_day_behind_split (before after : List (String × Value)) (name : String) (val : Value)
    (distinct : ((before ++ (name, val) :: after).map Prod.fst).Nodup) :
    allDayBehind (before ++ (name, val) :: after) name = true ↔
      "all_day" ∈ after.map Prod.fst := by
  have others := others_differ before after name val distinct
  have skipped : (before ++ (name, val) :: after).dropWhile (fun column => column.1 ≠ name) =
      (name, val) :: after := by
    rw [List.dropWhile_append_of_pos
      (fun column listed => by simpa using others column (List.mem_append_left _ listed))]
    simp
  simp only [allDayBehind, skipped, List.any_eq_true, decide_eq_true_eq, List.mem_map]

/-- What is behind a column is listed. -/
theorem behind_listed (columns : List (String × Value)) (name : String)
    (behind : allDayBehind columns name = true) : "all_day" ∈ columns.map Prod.fst := by
  simp only [allDayBehind] at behind
  split at behind
  · cases behind
  · rename_i first after found
    obtain ⟨column, member, named⟩ := List.any_eq_true.mp behind
    have dropped : column ∈ first :: after := List.mem_cons_of_mem first member
    rw [← found] at dropped
    have listed := (List.dropWhile_sublist _).mem dropped
    exact List.mem_map.mpr ⟨column, listed, by simpa using named⟩

/-- The column that owns a key leaves there what it writes, re-encoded if it is a start or
end and `all_day` comes after it. -/
theorem owner_cell (prints : engine.PrintsTimestamps) (allDay : Bool)
    (columns : List (String × Value)) (name key : String) (val : Value) (held : Option Json)
    (distinct : (columns.map Prod.fst).Nodup) (member : (name, val) ∈ columns)
    (keyed : columnKey name = some key) :
    Edit.cellAfter (columnEdits engine allDay columns) key held =
      if IsTimeKey key ∧ allDayBehind columns key = true then
        (writtenCell engine allDay name val held).map (reencodedNode allDay)
      else writtenCell engine allDay name val held := by
  by_cases time : IsTimeKey key
  · obtain rfl := time_key_column name key keyed time
    have kept : writtenCell engine allDay name val none =
        writtenCell engine allDay name val held := by
      rw [written_time engine allDay name val none time,
        written_time engine allDay name val held time]
    obtain ⟨before, after, rfl⟩ := List.append_of_mem member
    have behind := all_day_behind_split before after name val distinct
    rw [time_owner_cell engine allDay before after name val held time distinct, kept]
    simp only [time, behind, true_and]
  · rw [if_neg (fun both => time both.1)]
    exact owner_decides engine prints allDay columns name key val held distinct member keyed
      (fun isTime => absurd isTime time)

/-- In a list without `all_day` nothing is re-encoded. -/
theorem owner_alone (prints : engine.PrintsTimestamps) (allDay : Bool)
    (columns : List (String × Value)) (name key : String) (val : Value) (held : Option Json)
    (distinct : (columns.map Prod.fst).Nodup) (unlisted : "all_day" ∉ columns.map Prod.fst)
    (member : (name, val) ∈ columns) (keyed : columnKey name = some key) :
    Edit.cellAfter (columnEdits engine allDay columns) key held =
      writtenCell engine allDay name val held := by
  rw [owner_cell engine prints allDay columns name key val held distinct member keyed,
    if_neg (fun both => unlisted (behind_listed columns key both.2))]

/-- A SET start or end leaves no node when its value is NULL, and a node in the
kind of the flag otherwise. -/
theorem set_time_cell (allDay : Bool) (columns : List (String × Value)) (key : String)
    (val : Value) (held : Option Json) (time : IsTimeKey key)
    (distinct : (columns.map Prod.fst).Nodup) (member : (key, val) ∈ columns) :
    (Edit.cellAfter (columnEdits engine allDay columns) key held = none ↔ val = .null) ∧
      ∀ node, Edit.cellAfter (columnEdits engine allDay columns) key held = some node →
        Encodes node allDay := by
  have value := written_time engine allDay key val none time
  obtain ⟨before, after, rfl⟩ := List.append_of_mem member
  rw [time_owner_cell engine allDay before after key val held time distinct, value]
  have written := encodes_time_node engine val allDay
  have again := encodes_reencoded _ allDay allDay written
  cases val with
  | null => simp [Value.isNull]
  | _ =>
    split
    · simp [Value.isNull, again]
    · simp [Value.isNull, written]

/-- A node that is not SET stays, re-encoded in the kind of the flag when
`all_day` is SET. -/
theorem unset_time_cell (allDay : Bool) (columns : List (String × Value)) (key : String)
    (node : Json) (time : IsTimeKey key) (distinct : (columns.map Prod.fst).Nodup)
    (unset : key ∉ columns.map Prod.fst) :
    Edit.cellAfter (columnEdits engine allDay columns) key (some node) =
      some (if "all_day" ∈ columns.map Prod.fst then reencodedNode allDay node else node) := by
  have unowned : ∀ column ∈ columns, columnKey column.1 ≠ some key := by
    intro column member keyed
    apply unset
    rw [← time_key_column column.1 key keyed time]
    exact List.mem_map_of_mem member
  rw [without_owner engine allDay columns key _ distinct unowned]
  by_cases listed : "all_day" ∈ columns.map Prod.fst
  · rw [if_pos ⟨time, listed⟩, if_pos listed]
    rfl
  · rw [if_neg (fun both => listed both.2), if_neg listed]

/-- Both nodes leave an UPDATE in one encoding: dates just when that is the target
of the list. A node is absent just when it was SET to NULL. -/
theorem encodings_stay_equal (returnChunk : Bool) (columns : List (String × Value))
    (members : OrderedMap String Json) (allDay : Bool) (body : Json)
    (distinct : (columns.map Prod.fst).Nodup)
    (nodes : ∀ key, IsTimeKey key → ∃ node, members.find key = some node ∧ Encodes node allDay)
    (made : putBody engine returnChunk columns (.ofMembers members) = .ok body) :
    ∀ key, IsTimeKey key →
      (body.find key = none ↔ (key, Value.null) ∈ columns) ∧
      ∀ node, body.find key = some node →
        Encodes node (targetAllDay columns (existingAllDay (.ofMembers members))) := by
  obtain ⟨after, rfl, cells⟩ := put_body_cells engine returnChunk columns members body made
  rw [effective_is_target columns (.ofMembers members) distinct] at cells
  have before : existingAllDay (.ofMembers members) = allDay := by
    obtain ⟨start, found, kind⟩ := nodes "start" (Or.inl rfl)
    exact existing_of_kind _ start allDay found kind.kind
  intro key time
  obtain ⟨node, held, encodes⟩ := nodes key time
  rw [Json.find_of_members, cells key, held]
  by_cases set : key ∈ columns.map Prod.fst
  · obtain ⟨⟨name, val⟩, member, named⟩ := List.mem_map.mp set
    obtain rfl : name = key := named
    obtain ⟨absent, kind⟩ := set_time_cell engine _ columns name val (some node) time
      distinct member
    refine ⟨absent.trans ?_, kind⟩
    constructor
    · rintro rfl
      exact member
    · intro null
      have same := lookup_of_mem columns name val distinct member
      rw [lookup_of_mem columns name .null distinct null] at same
      exact (Option.some.inj same).symm
  · rw [unset_time_cell engine _ columns key node time distinct set]
    constructor
    · simp only [reduceCtorEq, false_iff]
      exact fun null => set (List.mem_map.mpr ⟨_, null, rfl⟩)
    · intro left same
      obtain rfl := Option.some.inj same
      split
      · exact encodes_reencoded node allDay _ encodes
      · rename_i unlisted
        rw [targetAllDay, lookup_of_not_mem columns "all_day" unlisted, before]
        exact encodes

/-- A meeting in the morning. -/
def morning : OrderedMap String Json :=
  (OrderedMap.empty.insert "start" (.object [("dateTime", .string "2026-06-10T09:00:00Z")])).insert
    "end" (.object [("dateTime", .string "2026-06-10T10:00:00Z"), ("timeZone", .string "UTC")])

/-- Made an all-day event with its start SET and its end not, both are dates. -/
theorem morning_made_all_day :
    ∃ body, putBody (.documented []) false [("start", .timestampTz 1781074800000000),
        ("all_day", .boolean true)] (.ofMembers morning) = .ok body ∧
      ∀ key, IsTimeKey key → body.find key ≠ none ∧
        ∀ node, body.find key = some node → Encodes node true := by
  have nodes : ∀ key, IsTimeKey key → ∃ node, morning.find key = some node ∧
      Encodes node false := by
    rintro key (rfl | rfl)
    · exact ⟨_, rfl, rfl, rfl⟩
    · exact ⟨_, rfl, rfl, rfl⟩
  refine ⟨_, rfl, ?_⟩
  intro key time
  obtain ⟨absent, kinds⟩ := encodings_stay_equal (.documented []) false
    [("start", .timestampTz 1781074800000000), ("all_day", .boolean true)] morning false _
    (by decide) nodes rfl key time
  refine ⟨fun none => ?_, kinds⟩
  have null := absent.mp none
  simp at null

end GoogleCalendar.TimeNodes
