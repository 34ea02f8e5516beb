import GoogleCalendar.CalendarUpdate
import GoogleCalendar.EventSchema
import GoogleCalendar.Library.CellEdits
import Mathlib.Data.List.Nodup

/-!
# What an UPDATE column does to the members of an event

On an event that is an object no column throws, and each acts on the members
under its own keys only: most on one, `all_day` on both `start` and `end`. The
member a column leaves depends on its value, on the flag and, for raw JSON that
does not parse and for `all_day`, on the member that was there.

The sink's loop over columns thus is a run of edits. Two columns share a key
only when one of them is `all_day`, and re-encoding a node that was just encoded
with the same flag gives it back, provided its text is not ten characters long
like a date. Every printed timestamp is longer, except negative infinity.
-/

namespace GoogleCalendar.ColumnCells

open Library CivilTime EventMapping CalendarUpdate

/-- The member a writable column other than `all_day` is stored under. -/
def columnKey (name : String) : Option String :=
  (writableStringKeys.lookup name).or ((writableBoolKeys.lookup name).or
    ((writableJsonKeys.lookup name).or (if name = "start" ∨ name = "end" then some name else none)))

/-- The members a column acts on. -/
def touchedKeys (name : String) : List String :=
  if name = "all_day" then ["start", "end"] else (columnKey name).toList

/-- Whether UPDATE can write a column. -/
def isWritable (name : String) : Bool := !(touchedKeys name).isEmpty

/-- A node re-encoded for a flag. -/
def reencodedNode (allDay : Bool) (node : Json) : Json :=
  if node.isObject then
    match rawTime node with
    | none => node
    | some raw => rebuiltTimeNode raw allDay
  else node

variable (engine : Engine)

/-- The JSON that a text parses to, if it is to be stored. -/
def passedThrough (text : String) : Option Json := if text = "" then none else engine.parse text

/-- The member that a column leaves under its key. -/
def writtenCell (allDay : Bool) (name : String) (val : Value) (held : Option Json) : Option Json :=
  if name = "all_day" then held.map (reencodedNode allDay)
  else if val.isNull then none
  else if (writableStringKeys.lookup name).isSome then some (.string (val.toText engine))
  else if (writableBoolKeys.lookup name).isSome then some (.boolean val.getBoolean)
  else if (writableJsonKeys.lookup name).isSome then
    (passedThrough engine (val.toText engine)).or held
  else some (timeNode engine val allDay)

/-- A column as an edit of the members. -/
def columnEdit (allDay : Bool) (column : String × Value) : Edit String Json where
  touches key := (touchedKeys column.1).contains key
  act _ held := writtenCell engine allDay column.1 column.2 held

/-- The members after a text was passed through. -/
def passedMembers (members : OrderedMap String Json) (key : String) (val : Value) :
    OrderedMap String Json :=
  if val.isNull then members
  else
    match passedThrough engine (val.toText engine) with
    | some parsed => members.insert key parsed
    | none => members

/-- A passthrough changes the one member. -/
theorem passthrough_members (members : OrderedMap String Json) (key : String) (val : Value) :
    setJsonPassthrough engine (.ofMembers members) key val =
      .ofMembers (passedMembers engine members key val) := by
  simp only [setJsonPassthrough, passedMembers, passedThrough]
  split
  · rfl
  · split
    · rfl
    · cases engine.parse (val.toText engine) with
      | none => rfl
      | some parsed => simp

/-- Re-encoding one key changes its member only. -/
theorem reencode_members (members : OrderedMap String Json) (key : String) (allDay : Bool) :
    ∃ after : OrderedMap String Json,
      reencodeTimeNode (.ofMembers members) key allDay = .ok (.ofMembers after) ∧
      ∀ other, after.find other =
        if other = key then (members.find key).map (reencodedNode allDay)
          else members.find other := by
  have kept : (members.find key).map (reencodedNode allDay) = members.find key →
      ∀ other, members.find other =
        if other = key then (members.find key).map (reencodedNode allDay)
          else members.find other := by
    intro fixed other
    split
    · rename_i here
      rw [here, fixed]
    · rfl
  simp only [reencodeTimeNode, Json.find_of_members]
  cases held : members.find key with
  | none => exact ⟨members, rfl, by simp [held]⟩
  | some node =>
    cases object : node.isObject with
    | false =>
      have fixed : reencodedNode allDay node = node := by simp [reencodedNode, object]
      exact ⟨members, by simp [object], by simpa [held] using kept (by simp [held, fixed])⟩
    | true =>
      cases text : rawTime node with
      | none =>
        have fixed : reencodedNode allDay node = node := by simp [reencodedNode, object, text]
        exact ⟨members, by simp [object, text], by simpa [held] using kept (by simp [held, fixed])⟩
      | some raw =>
        refine ⟨members.insert key (rebuiltTimeNode raw allDay), by simp [object, text], ?_⟩
        intro other
        rw [OrderedMap.find_insert]
        simp [reencodedNode, object, text]

/-- Writing a member erases it on NULL and stores a given map otherwise. -/
theorem write_member_members (members stored : OrderedMap String Json) (key : String)
    (val : Value) :
    writeMember (.ofMembers members) key val true (.ok (.ofMembers stored)) =
      .ok (.ofMembers (if val.isNull then members.erase key else stored)) := by
  cases absent : val.isNull <;> simp [writeMember, absent]

/-- `all_day` is no member of an event. -/
theorem all_day_has_no_key : columnKey "all_day" = none := by decide

/-- A column with a member is not `all_day`. -/
theorem keyed_not_all_day (name key : String) (keyed : columnKey name = some key) :
    name ≠ "all_day" := by
  rintro rfl
  simp [all_day_has_no_key] at keyed

/-- A column with a member is writable. -/
theorem keyed_writable (name key : String) (keyed : columnKey name = some key) :
    isWritable name = true := by
  simp [isWritable, touchedKeys, keyed_not_all_day name key keyed, keyed]

/-- The edit of a column touches its own member alone. -/
theorem keyed_touches (allDay : Bool) (name key other : String) (val : Value)
    (keyed : columnKey name = some key) :
    (columnEdit engine allDay (name, val)).touches other = decide (other = key) := by
  simp [columnEdit, touchedKeys, keyed_not_all_day name key keyed, keyed]

/-- A column with one key realizes its edit when it erases the key on NULL and
otherwise stores the written cell there. -/
theorem keyed_column (members stored : OrderedMap String Json) (allDay : Bool)
    (name key : String) (val : Value) (keyed : columnKey name = some key)
    (written : val.isNull = false → ∀ other, stored.find other =
      if other = key then writtenCell engine allDay name val (members.find key)
      else members.find other) :
    ∃ after : OrderedMap String Json,
      (writeMember (.ofMembers members) key val true (.ok (.ofMembers stored))).map
          (fun event => (event, true)) = .ok (.ofMembers after, isWritable name) ∧
        (columnEdit engine allDay (name, val)).Realized members after := by
  have notAllDay := keyed_not_all_day name key keyed
  have writable := keyed_writable name key keyed
  refine ⟨if val.isNull then members.erase key else stored, ?_, ?_⟩
  · rw [write_member_members, writable]
    rfl
  · intro other
    simp only [Edit.cell, keyed_touches engine allDay name key other val keyed, decide_eq_true_eq]
    cases absent : val.isNull with
    | true =>
      rw [if_pos rfl, OrderedMap.find_erase]
      split
      · simp [columnEdit, writtenCell, notAllDay, absent]
      · rfl
    | false =>
      rw [if_neg Bool.false_ne_true, written absent other]
      split
      · rename_i here
        rw [here]
        rfl
      · rfl

/-- Re-encoding both nodes realizes the edit of `all_day`. -/
theorem all_day_column (members : OrderedMap String Json) (allDay : Bool) (val : Value) :
    ∃ after : OrderedMap String Json,
      (do
        let started ← reencodeTimeNode (.ofMembers members) "start" allDay
        reencodeTimeNode started "end" allDay) = .ok (.ofMembers after) ∧
      (columnEdit engine allDay ("all_day", val)).Realized members after := by
  obtain ⟨started, first, startCells⟩ := reencode_members members "start" allDay
  obtain ⟨ended, second, endCells⟩ := reencode_members started "end" allDay
  refine ⟨ended, by rw [first]; exact second, ?_⟩
  intro other
  have touched : (columnEdit engine allDay ("all_day", val)).touches other =
      decide (other = "start" ∨ other = "end") := by
    simp [columnEdit, touchedKeys]
  simp only [Edit.cell, touched, decide_eq_true_eq, endCells, startCells]
  by_cases isEnd : other = "end"
  · subst isEnd
    simp [columnEdit, writtenCell]
  · by_cases isStart : other = "start"
    · subst isStart
      simp [columnEdit, writtenCell]
    · simp [isEnd, isStart]

/-- On an object every column realizes its edit, and reports whether it is
writable. -/
theorem apply_column_members (members : OrderedMap String Json) (allDay : Bool) (name : String)
    (val : Value) : ∃ after : OrderedMap String Json,
      applyColumn engine (.ofMembers members) name val allDay true =
        .ok (.ofMembers after, isWritable name) ∧
      (columnEdit engine allDay (name, val)).Realized members after := by
  have keyless : touchedKeys name = [] →
      (columnEdit engine allDay (name, val)).Realized members members := by
    intro none other
    simp [Edit.cell, columnEdit, none]
  by_cases isId : name = "event_id"
  · subst isId
    exact ⟨members, rfl, keyless (by decide)⟩
  simp only [applyColumn, isId, if_false, if_true]
  cases isString : writableStringKeys.lookup name with
  | some key =>
    have keyed : columnKey name = some key := by simp [columnKey, isString]
    apply keyed_column engine members (members.insert key _) allDay name key val keyed
    intro present other
    rw [OrderedMap.find_insert]
    simp [writtenCell, keyed_not_all_day name key keyed, present, isString]
  | none =>
    cases isBool : writableBoolKeys.lookup name with
    | some key =>
      have keyed : columnKey name = some key := by simp [columnKey, isString, isBool]
      apply keyed_column engine members (members.insert key _) allDay name key val keyed
      intro present other
      rw [OrderedMap.find_insert]
      simp [writtenCell, keyed_not_all_day name key keyed, present, isString, isBool]
    | none =>
      cases isJson : writableJsonKeys.lookup name with
      | some key =>
        have keyed : columnKey name = some key := by simp [columnKey, isString, isBool, isJson]
        simp only [passthrough_members]
        apply keyed_column engine members _ allDay name key val keyed
        intro present other
        simp only [passedMembers, present, Bool.false_eq_true, if_false, writtenCell,
          keyed_not_all_day name key keyed, isString, isBool, isJson, Option.isSome_none,
          Option.isSome_some, if_true]
        cases passedThrough engine (val.toText engine) with
        | none => by_cases here : other = key <;> simp [here]
        | some parsed => exact OrderedMap.find_insert members key other parsed
      | none =>
        by_cases isTime : name = "start" ∨ name = "end"
        · have keyed : columnKey name = some name := by
            simp [columnKey, isString, isBool, isJson, isTime]
          simp only [isTime, if_true]
          apply keyed_column engine members (members.insert name _) allDay name name val keyed
          intro present other
          rw [OrderedMap.find_insert]
          simp [writtenCell, keyed_not_all_day name name keyed, present, isString, isBool, isJson]
        · by_cases isAllDay : name = "all_day"
          · subst isAllDay
            obtain ⟨after, reencoded, realized⟩ := all_day_column engine members allDay val
            exact ⟨after, by simp only [isTime, if_false, if_true, reencoded]; rfl, realized⟩
          · have untouched : touchedKeys name = [] := by
              simp [touchedKeys, columnKey, isString, isBool, isJson, isTime, isAllDay]
            refine ⟨members, ?_, keyless untouched⟩
            simp [isTime, isAllDay, isWritable, untouched]

/-! The loop over the columns. -/

/-- The columns of a loop as edits. -/
def columnEdits (allDay : Bool) (columns : List (String × Value)) : List (Edit String Json) :=
  columns.map (columnEdit engine allDay)

/-- With RETURNING the loop never throws and realizes the edits of its columns. -/
theorem returning_loop (allDay : Bool) (columns : List (String × Value))
    (members : OrderedMap String Json) : ∃ after : OrderedMap String Json,
      columns.foldlM (applyOne engine true allDay) (.ofMembers members) = .ok (.ofMembers after) ∧
      Edit.RunRealized (columnEdits engine allDay columns) members after := by
  induction columns generalizing members with
  | nil => exact ⟨members, rfl, Edit.run_realized_nil members⟩
  | cons column rest ih =>
    obtain ⟨between, applied, first⟩ := apply_column_members engine members allDay column.1 column.2
    obtain ⟨after, looped, later⟩ := ih between
    refine ⟨after, ?_, Edit.run_realized_cons _ _ members between after first later⟩
    have one : applyOne engine true allDay (.ofMembers members) column =
        .ok (.ofMembers between) := by
      simp only [applyOne, applied, if_true]
    rw [List.foldlM_cons, one]
    exact looped

/-- Without RETURNING the loop realizes the same edits as long as every column is
writable. -/
theorem plain_loop (allDay : Bool) (columns : List (String × Value))
    (members : OrderedMap String Json)
    (writable : ∀ column ∈ columns, isWritable column.1 = true) :
    ∃ after : OrderedMap String Json,
      columns.foldlM (applyOne engine false allDay) (.ofMembers members) = .ok (.ofMembers after) ∧
      Edit.RunRealized (columnEdits engine allDay columns) members after := by
  induction columns generalizing members with
  | nil => exact ⟨members, rfl, Edit.run_realized_nil members⟩
  | cons column rest ih =>
    obtain ⟨between, applied, first⟩ := apply_column_members engine members allDay column.1 column.2
    obtain ⟨after, looped, later⟩ :=
      ih between (fun other member => writable other (List.mem_cons_of_mem _ member))
    refine ⟨after, ?_, Edit.run_realized_cons _ _ members between after first later⟩
    have one : applyOne engine false allDay (.ofMembers members) column =
        .ok (.ofMembers between) := by
      simp [applyOne, applySet, applied, writable column (List.mem_cons_self ..)]
    rw [List.foldlM_cons, one]
    exact looped

/-- The error of a column that UPDATE cannot write. -/
def readOnlyError (name : String) : Exception :=
  .invalidInput ("google_calendar: column \"" ++ name ++ "\" is read-only and cannot be updated")

/-- Without RETURNING a column that is not writable ends the loop with its error. -/
theorem plain_loop_refuses (allDay : Bool) (columns : List (String × Value))
    (members : OrderedMap String Json)
    (refused : ∃ column ∈ columns, isWritable column.1 = false) :
    ∃ column ∈ columns, isWritable column.1 = false ∧
      columns.foldlM (applyOne engine false allDay) (.ofMembers members) =
        .error (readOnlyError column.1) := by
  induction columns generalizing members with
  | nil => simp at refused
  | cons column rest ih =>
    obtain ⟨between, applied, -⟩ := apply_column_members engine members allDay column.1 column.2
    cases writable : isWritable column.1 with
    | false =>
      refine ⟨column, List.mem_cons_self .., writable, ?_⟩
      have one : applyOne engine false allDay (.ofMembers members) column =
          .error (readOnlyError column.1) := by
        simp [applyOne, applySet, applied, writable, readOnlyError]
      rw [List.foldlM_cons, one]
      rfl
    | true =>
      have later : ∃ other ∈ rest, isWritable other.1 = false := by
        obtain ⟨other, member, unwritable⟩ := refused
        rcases List.mem_cons.mp member with rfl | inRest
        · exact absurd writable (by simp [unwritable])
        · exact ⟨other, inRest, unwritable⟩
      obtain ⟨other, member, unwritable, looped⟩ := ih between later
      refine ⟨other, List.mem_cons_of_mem _ member, unwritable, ?_⟩
      have one : applyOne engine false allDay (.ofMembers members) column =
          .ok (.ofMembers between) := by
        simp [applyOne, applySet, applied, writable]
      rw [List.foldlM_cons, one]
      exact looped

/-! Which column decides a member. -/

/-- The writable columns with one key and their keys. -/
def writableKeys : List (String × String) :=
  writableStringKeys ++
    (writableBoolKeys ++ (writableJsonKeys ++ [("start", "start"), ("end", "end")]))

/-- What a table finds is listed in it. -/
theorem lookup_listed (table : List (String × String)) (name key : String)
    (found : table.lookup name = some key) : (name, key) ∈ table := by
  obtain ⟨before, after, whole, -⟩ := List.lookup_eq_some_iff.mp found
  rw [whole]
  exact List.mem_append_right _ (List.mem_cons_self ..)

/-- The keys that `all_day` re-encodes. -/
def IsTimeKey (key : String) : Prop := key = "start" ∨ key = "end"

instance (key : String) : Decidable (IsTimeKey key) := inferInstanceAs (Decidable (_ ∨ _))

/-- The kinds of writable columns with a key of their own. -/
theorem key_cases (name key : String) (keyed : columnKey name = some key) :
    writableStringKeys.lookup name = some key ∨ writableBoolKeys.lookup name = some key ∨
      writableJsonKeys.lookup name = some key ∨ (name = key ∧ IsTimeKey key) := by
  simp only [columnKey, Option.or_eq_some_iff] at keyed
  rcases keyed with isString | ⟨-, isBool | ⟨-, isJson | ⟨-, isTime⟩⟩⟩
  · exact Or.inl isString
  · exact Or.inr (Or.inl isBool)
  · exact Or.inr (Or.inr (Or.inl isJson))
  · split at isTime
    · rename_i time
      obtain rfl := Option.some.inj isTime
      exact Or.inr (Or.inr (Or.inr ⟨rfl, time⟩))
    · simp at isTime

/-- The columns with a member are the listed ones. -/
theorem column_key_listed (name key : String) (keyed : columnKey name = some key) :
    (name, key) ∈ writableKeys := by
  simp only [writableKeys, List.mem_append]
  rcases key_cases name key keyed with isString | isBool | isJson | ⟨rfl, rfl | rfl⟩
  · exact Or.inl (lookup_listed _ name key isString)
  · exact Or.inr (Or.inl (lookup_listed _ name key isBool))
  · exact Or.inr (Or.inr (Or.inl (lookup_listed _ name key isJson)))
  · exact Or.inr (Or.inr (Or.inr (by simp)))
  · exact Or.inr (Or.inr (Or.inr (by simp)))

/-- Different columns are stored under different keys. -/
theorem column_key_injective (first second key : String) (left : columnKey first = some key)
    (right : columnKey second = some key) : first = second := by
  have distinct : (writableKeys.map Prod.snd).Nodup := by decide
  have same := List.inj_on_of_nodup_map distinct (column_key_listed first key left)
    (column_key_listed second key right) rfl
  exact congrArg Prod.fst same

/-- Every writable column is in the schema. -/
theorem writable_in_schema (name key : String) (keyed : columnKey name = some key) :
    name ∈ eventsNames := by
  have listed : ∀ column ∈ writableKeys, column.1 ∈ eventsNames := by decide
  exact listed _ (column_key_listed name key keyed)

/-- `start` and `end` are columns of their own names. -/
theorem time_keyed (key : String) (time : IsTimeKey key) : columnKey key = some key := by
  cases time with
  | inl isStart => subst isStart; decide
  | inr isEnd => subst isEnd; decide

/-- A value of `start` or `end` is written whatever was there. -/
theorem written_time (allDay : Bool) (key : String) (val : Value) (held : Option Json)
    (time : IsTimeKey key) :
    writtenCell engine allDay key val held =
      if val.isNull then none else some (timeNode engine val allDay) := by
  cases time with
  | inl isStart => subst isStart; rfl
  | inr isEnd => subst isEnd; rfl

/-- `start` and `end` have no other column. -/
theorem time_key_column (name key : String) (keyed : columnKey name = some key)
    (time : IsTimeKey key) : name = key :=
  column_key_injective name key key keyed (time_keyed key time)

/-- A value of `start` or `end` whose printed form is no date: any but negative
infinity. -/
def Printable (val : Value) : Prop :=
  ∀ micros, val = .timestampTz micros → ninfinity < micros ∧ micros ≤ infinity

/-- A printed timestamp is not nine characters long. -/
theorem printed_length (prints : engine.PrintsTimestamps) (micros : Int)
    (above : ninfinity < micros) (below : micros ≤ infinity) :
    (engine.timestampToString micros).length ≠ 9 := by
  cases Int.lt_or_eq_of_le below with
  | inl finite =>
    rw [prints.finite micros above finite]
    have length := timestamp_text_length micros
    omega
  | inr infinite =>
    rw [infinite, prints.infinity]
    decide

/-- A date is kept when it is re-encoded as one. -/
theorem date_node_fixed (val : Value) :
    reencodedNode true (timeNode engine val true) = timeNode engine val true := by
  have cut : datePart (formatDate engine val) = formatDate engine val := by
    simp [datePart, formatDate, List.take_take]
  simp only [timeNode, if_true, reencodedNode, Json.isObject, rawTime, Json.find]
  simp [SortedEntries.find, rebuiltTimeNode, cut]

/-- Re-encoding a node that was encoded with the same flag gives it back. -/
theorem time_node_fixed (prints : engine.PrintsTimestamps) (val : Value) (allDay : Bool)
    (printable : Printable val) :
    reencodedNode allDay (timeNode engine val allDay) = timeNode engine val allDay := by
  cases allDay with
  | true => exact date_node_fixed engine val
  | false =>
    have long : (formatRfc3339 engine val).length ≠ 10 := by
      have printed : (engine.timestampToString val.getTimestamp).length ≠ 9 := by
        cases val with
        | timestampTz micros =>
          exact printed_length engine prints micros (printable micros rfl).1
            (printable micros rfl).2
        | null => exact printed_length engine prints 0 (by decide) (by decide)
        | varchar text => exact printed_length engine prints 0 (by decide) (by decide)
        | boolean value => exact printed_length engine prints 0 (by decide) (by decide)
        | bigint value => exact printed_length engine prints 0 (by decide) (by decide)
      have mark : "Z".length = 1 := rfl
      simp only [formatRfc3339, String.length_append, mark, replaceChar, String.length_ofList,
        List.length_map, String.length_toList]
      omega
    simp only [timeNode, Bool.false_eq_true, if_false, reencodedNode, Json.isObject, if_true,
      rawTime, Json.find]
    simp [SortedEntries.find, rebuiltTimeNode, long]

/-- What `start` and `end` leave does not depend on what was there, and
re-encoding does not change it. -/
theorem time_cell (prints : engine.PrintsTimestamps) (allDay : Bool) (key : String) (val : Value)
    (held : Option Json) (time : IsTimeKey key) (printable : Printable val) :
    writtenCell engine allDay key val held = writtenCell engine allDay key val none ∧
      (writtenCell engine allDay key val held).map (reencodedNode allDay) =
        writtenCell engine allDay key val held := by
  have cell := fun held => written_time engine allDay key val held time
  refine ⟨by rw [cell, cell], ?_⟩
  rw [cell]
  cases val.isNull with
  | true => rfl
  | false => simp [time_node_fixed engine prints val allDay printable]

/-- Columns other than the one that owns a key change its member only when they
re-encode it, and not even then when re-encoding keeps it. -/
theorem other_columns_keep (allDay : Bool) (columns : List (String × Value)) (key : String)
    (held : Option Json) (unowned : ∀ column ∈ columns, columnKey column.1 ≠ some key)
    (fixed : IsTimeKey key → held.map (reencodedNode allDay) = held) :
    Edit.cellAfter (columnEdits engine allDay columns) key held = held := by
  apply Edit.cell_after_fixed
  intro edit member touched
  obtain ⟨column, listed, rfl⟩ := List.mem_map.mp member
  simp only [columnEdit, touchedKeys] at touched ⊢
  by_cases isAllDay : column.1 = "all_day"
  · have time : IsTimeKey key := by simpa [isAllDay, IsTimeKey] using touched
    simp only [writtenCell, isAllDay, if_true]
    exact fixed time
  · simp only [isAllDay, if_false, List.contains_eq_mem, Option.mem_toList, decide_eq_true_eq]
      at touched
    exact absurd touched (unowned column listed)

/-- Around a column of a list with distinct names no other has its name. -/
theorem others_differ (before after : List (String × Value)) (name : String) (val : Value)
    (distinct : ((before ++ (name, val) :: after).map Prod.fst).Nodup) :
    ∀ column ∈ before ++ after, column.1 ≠ name := by
  rw [List.map_append, List.map_cons, List.nodup_middle, List.nodup_cons, ← List.map_append]
    at distinct
  intro column listed same
  have named : column.1 ∈ (before ++ after).map Prod.fst := List.mem_map_of_mem listed
  exact distinct.1 (same ▸ named)

/-- Around the column that owns a key nothing else owns it. -/
theorem owner_unique (before after : List (String × Value)) (name key : String) (val : Value)
    (distinct : ((before ++ (name, val) :: after).map Prod.fst).Nodup)
    (keyed : columnKey name = some key) :
    ∀ column ∈ before ++ after, columnKey column.1 ≠ some key :=
  fun column listed owned => others_differ before after name val distinct column listed
    (column_key_injective column.1 name key owned keyed)

/-- The column that owns a key writes it between the columns before and after. -/
theorem owner_split (allDay : Bool) (before after : List (String × Value)) (name key : String)
    (val : Value) (held : Option Json) (keyed : columnKey name = some key) :
    Edit.cellAfter (columnEdits engine allDay (before ++ (name, val) :: after)) key held =
      Edit.cellAfter (columnEdits engine allDay after) key (writtenCell engine allDay name val
        (Edit.cellAfter (columnEdits engine allDay before) key held)) := by
  have own : (columnEdit engine allDay (name, val)).touches key = true := by
    simp [keyed_touches engine allDay name key key val keyed]
  rw [columnEdits, List.map_append, Edit.cell_after_append, List.map_cons]
  simp only [Edit.cellAfter, List.foldl_cons, Edit.cell, own, if_true]
  rfl

/-- The column that owns a key decides its member, wherever it stands among
columns with distinct names.

Split the columns around the owner. Those before it can only re-encode, which
matters to no owner that `all_day` shares a key with; those after it keep what
it left. -/
theorem owner_decides (prints : engine.PrintsTimestamps) (allDay : Bool)
    (columns : List (String × Value)) (name key : String) (val : Value) (held : Option Json)
    (distinct : (columns.map Prod.fst).Nodup) (member : (name, val) ∈ columns)
    (keyed : columnKey name = some key) (printable : IsTimeKey key → Printable val) :
    Edit.cellAfter (columnEdits engine allDay columns) key held =
      writtenCell engine allDay name val held := by
  obtain ⟨before, after, rfl⟩ := List.append_of_mem member
  have unowned := owner_unique before after name key val distinct keyed
  have unownedBefore : ∀ column ∈ before, columnKey column.1 ≠ some key :=
    fun column listed => unowned column (List.mem_append_left _ listed)
  have unownedAfter : ∀ column ∈ after, columnKey column.1 ≠ some key :=
    fun column listed => unowned column (List.mem_append_right _ listed)
  rw [owner_split engine allDay before after name key val held keyed]
  by_cases time : IsTimeKey key
  · obtain rfl := time_key_column name key keyed time
    have fixed : ∀ held, writtenCell engine allDay name val held = _ ∧ _ :=
      fun held => time_cell engine prints allDay name val held time (printable time)
    rw [(fixed (Edit.cellAfter _ name held)).1, ← (fixed held).1]
    exact other_columns_keep engine allDay after name _ unownedAfter (fun _ => (fixed held).2)
  · have kept := other_columns_keep engine allDay before key held unownedBefore
      (fun isTime => absurd isTime time)
    rw [kept]
    exact other_columns_keep engine allDay after key _ unownedAfter
      (fun isTime => absurd isTime time)

/-- A key that no column writes and that is not re-encoded keeps its member. -/
theorem unwritten_kept (allDay : Bool) (columns : List (String × Value)) (key : String)
    (held : Option Json) (unwritten : ∀ column ∈ columns, key ∉ touchedKeys column.1) :
    Edit.cellAfter (columnEdits engine allDay columns) key held = held := by
  apply Edit.cell_after_untouched
  intro edit member
  obtain ⟨column, listed, rfl⟩ := List.mem_map.mp member
  simpa [columnEdit] using unwritten column listed

/-- Columns that leave the key of an absent owner alone: all but `all_day` on
`start` and `end`. -/
theorem unowned_untouched (column : String × Value) (key : String)
    (unowned : columnKey column.1 ≠ some key) (plain : IsTimeKey key → column.1 ≠ "all_day") :
    key ∉ touchedKeys column.1 := by
  simp only [touchedKeys]
  split
  · rename_i isAllDay
    intro member
    exact plain (by simpa [IsTimeKey] using member) isAllDay
  · simpa using unowned

/-- Without their owner `start` and `end` are re-encoded when `all_day` is set, and
every other member is kept. -/
theorem without_owner (allDay : Bool) (columns : List (String × Value)) (key : String)
    (held : Option Json) (distinct : (columns.map Prod.fst).Nodup)
    (unowned : ∀ column ∈ columns, columnKey column.1 ≠ some key) :
    Edit.cellAfter (columnEdits engine allDay columns) key held =
      if IsTimeKey key ∧ "all_day" ∈ columns.map Prod.fst then held.map (reencodedNode allDay)
      else held := by
  split
  · rename_i both
    obtain ⟨column, listed, named⟩ := List.mem_map.mp both.2
    obtain ⟨before, after, whole⟩ := List.append_of_mem listed
    obtain ⟨name, val⟩ := column
    obtain rfl : name = "all_day" := named
    subst whole
    have others := others_differ before after "all_day" val distinct
    have touched : (columnEdit engine allDay ("all_day", val)).touches key = true := by
      simpa [columnEdit, touchedKeys, IsTimeKey] using both.1
    have skipped : ∀ rest held, (∀ column ∈ rest, column ∈ before ++ after) →
        Edit.cellAfter (columnEdits engine allDay rest) key held = held := by
      intro rest held inside
      apply unwritten_kept
      intro column member
      have inList : column ∈ before ++ ("all_day", val) :: after := by
        cases List.mem_append.mp (inside column member) with
        | inl left => exact List.mem_append_left _ left
        | inr right => exact List.mem_append_right _ (List.mem_cons_of_mem _ right)
      exact unowned_untouched column key (unowned column inList)
        (fun _ => others column (inside column member))
    rw [columnEdits, List.map_append, Edit.cell_after_append, List.map_cons]
    have first := skipped before held (fun column member => List.mem_append_left _ member)
    rw [columnEdits] at first
    rw [first]
    simp only [Edit.cellAfter, List.foldl_cons, Edit.cell, touched, if_true]
    exact skipped after _ (fun column member => List.mem_append_right _ member)
  · rename_i neither
    apply unwritten_kept
    intro column listed
    apply unowned_untouched column key (unowned column listed)
    intro time isAllDay
    exact neither ⟨time, List.mem_map.mpr ⟨column, listed, isAllDay⟩⟩

/-- Columns not named `all_day` do not set the flag. -/
theorem flag_kept (columns : List (String × Value)) (flag : Bool)
    (unlisted : ∀ column ∈ columns, column.1 ≠ "all_day") :
    columns.foldl (fun flag column =>
      if column.1 = "all_day" then !column.2.isNull && column.2.getBoolean else flag) flag =
      flag := by
  induction columns with
  | nil => rfl
  | cons column rest ih =>
    rw [List.foldl_cons, if_neg (unlisted column (List.mem_cons_self ..))]
    exact ih (fun other listed => unlisted other (List.mem_cons_of_mem _ listed))

/-- The flag of a column list is that of its column `all_day`. -/
theorem effective_of_listed (columns : List (String × Value)) (event : Json) (val : Value)
    (distinct : (columns.map Prod.fst).Nodup) (member : ("all_day", val) ∈ columns) :
    effectiveAllDay columns event = (!val.isNull && val.getBoolean) := by
  obtain ⟨before, after, rfl⟩ := List.append_of_mem member
  simp only [effectiveAllDay, List.foldl_append, List.foldl_cons, if_true]
  exact flag_kept after _ (fun column listed =>
    others_differ before after "all_day" val distinct column (List.mem_append_right _ listed))

/-- A column list without `all_day` leaves the flag to the event. -/
theorem effective_of_unlisted (columns : List (String × Value)) (event : Json)
    (unlisted : "all_day" ∉ columns.map Prod.fst) :
    effectiveAllDay columns event = existingAllDay event := by
  apply flag_kept columns _
  intro column listed same
  have named : column.1 ∈ columns.map Prod.fst := List.mem_map_of_mem listed
  exact unlisted (same ▸ named)

/-- Whether a list of columns writes a key. -/
def Writes (columns : List (String × Value)) (key : String) : Prop :=
  ∃ column ∈ columns, key ∈ touchedKeys column.1

/-- No column writes the id of an event. -/
theorem id_unwritten (columns : List (String × Value)) : ¬ Writes columns "id" := by
  rintro ⟨⟨name, val⟩, -, touched⟩
  simp only [touchedKeys] at touched
  split at touched
  · simp at touched
  · have keyed : columnKey name = some "id" := by simpa using touched
    have listed := column_key_listed name "id" keyed
    have unlisted : "id" ∉ writableKeys.map Prod.snd := by decide
    exact unlisted (List.mem_map.mpr ⟨_, listed, rfl⟩)

/-- The body made for an object, in either mode, is made by the columns' edits. -/
theorem put_body_cells (returnChunk : Bool) (columns : List (String × Value))
    (members : OrderedMap String Json) (body : Json)
    (made : putBody engine returnChunk columns (.ofMembers members) = .ok body) :
    ∃ after : OrderedMap String Json, body = .ofMembers after ∧
      Edit.RunRealized
        (columnEdits engine (effectiveAllDay columns (.ofMembers members)) columns) members
        after := by
  cases returnChunk with
  | true =>
    obtain ⟨after, loop, cells⟩ := returning_loop engine _ columns members
    rw [putBody, loop] at made
    exact ⟨after, (Except.ok.inj made).symm, cells⟩
  | false =>
    have writable : ∀ column ∈ columns, isWritable column.1 = true := by
      intro column member
      by_contra unwritable
      obtain ⟨refused, listed, unwritten, loop⟩ := plain_loop_refuses engine _ columns members
        ⟨column, member, by simpa using unwritable⟩
      rw [putBody, loop] at made
      exact absurd made (by simp)
    obtain ⟨after, loop, cells⟩ := plain_loop engine _ columns members writable
    rw [putBody, loop] at made
    exact ⟨after, (Except.ok.inj made).symm, cells⟩

/-- The body made for an object, in either mode, differs from it only under the
keys written. -/
theorem put_body_frame (returnChunk : Bool) (columns : List (String × Value))
    (members : OrderedMap String Json) (body : Json)
    (made : putBody engine returnChunk columns (.ofMembers members) = .ok body) :
    ∃ after : OrderedMap String Json, body = .ofMembers after ∧
      ∀ key, ¬ Writes columns key → after.find key = members.find key := by
  obtain ⟨after, whole, cells⟩ := put_body_cells engine returnChunk columns members body made
  refine ⟨after, whole, ?_⟩
  intro key unwritten
  rw [cells key]
  exact unwritten_kept engine _ columns key _
    (fun column member touched => unwritten ⟨column, member, touched⟩)

end GoogleCalendar.ColumnCells
