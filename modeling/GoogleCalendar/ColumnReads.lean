import GoogleCalendar.EventTimes

/-!
# What the reader makes of a written member

The read and the write mapping have tables of their own. They agree: every
column that can be written is read from the key that it is written under, in the
way that its kind of value calls for, and no other column but `all_day` is read
from such a key.
-/

namespace GoogleCalendar.ColumnReads

open Library CivilTime EventMapping ColumnCells TimeNodes EventTimes

/-- The key that a column is read from. -/
def readKey (field : String) : Option String :=
  ((stringKeys ++ rawKeys ++ boolKeys).lookup field).or
    (if field = "original_start_time" then some "originalStartTime"
      else if field = "all_day" then some "start"
      else if field = "start" ∨ field = "end" ∨ field = "sequence" then some field
      else none)

variable (engine : Engine)

/-- A read depends on the member under the key of its column only. -/
theorem read_member (left right : Json) (field : String)
    (same : ∀ key, readKey field = some key → left.find key = right.find key) :
    extractField engine left field = extractField engine right field := by
  simp only [readKey, List.lookup_append] at same
  simp only [extractField]
  cases isString : stringKeys.lookup field with
  | some key =>
    have member := same key (by simp [isString])
    simp only [jsonString, member]
  | none =>
    cases isRaw : rawKeys.lookup field with
    | some key =>
      have member := same key (by simp [isString, isRaw])
      simp only [jsonRaw, member]
    | none =>
      cases isBool : boolKeys.lookup field with
      | some key =>
        have member := same key (by simp [isString, isRaw, isBool])
        simp only [jsonBool, member]
      | none =>
        simp only [isString, isRaw, isBool, Option.none_or] at same
        by_cases isStart : field = "start"
        · have member := same "start" (by simp [isStart])
          simp only [isStart, if_true, parseEventTime, member]
        by_cases isEnd : field = "end"
        · have member := same "end" (by simp [isEnd])
          simp only [isEnd, if_true, String.reduceEq, if_false, parseEventTime, member]
        by_cases isOriginal : field = "original_start_time"
        · have member := same "originalStartTime" (by simp [isOriginal])
          simp only [isOriginal, if_true, String.reduceEq, if_false, parseEventTime, member]
        by_cases isAllDay : field = "all_day"
        · have member := same "start" (by simp [isAllDay])
          simp only [isAllDay, if_true, String.reduceEq, if_false, existingAllDay, member]
        by_cases isSequence : field = "sequence"
        · have member := same "sequence" (by simp [isSequence])
          simp only [isSequence, if_true, String.reduceEq, if_false, jsonBigint, member]
        simp [isStart, isEnd, isOriginal, isAllDay, isSequence]

/-- A column that cannot be written is read from no key that can. -/
theorem read_key_unwritten (field key : String) (listed : field ∈ eventsNames)
    (unwritable : isWritable field = false) (read : readKey field = some key) (name : String) :
    columnKey name ≠ some key := by
  have apart : ∀ field ∈ eventsNames, isWritable field = false →
      ∀ column ∈ writableKeys, readKey field ≠ some column.2 := by decide +kernel
  intro keyed
  exact apart field listed unwritable (name, key) (column_key_listed name key keyed) read

/-- A writable string column is read as the string under its key. -/
theorem read_string (event : Json) (name key : String)
    (found : writableStringKeys.lookup name = some key) :
    extractField engine event name = jsonString event key := by
  have tables : ∀ column ∈ writableStringKeys, stringKeys.lookup column.1 = some column.2 := by
    decide
  simp only [extractField, tables (name, key) (lookup_listed _ name key found)]

/-- A writable boolean column is read as the boolean under its key. -/
theorem read_boolean (event : Json) (name key : String)
    (found : writableBoolKeys.lookup name = some key) :
    extractField engine event name = jsonBool event key := by
  have tables : ∀ column ∈ writableBoolKeys, stringKeys.lookup column.1 = none ∧
      rawKeys.lookup column.1 = none ∧ boolKeys.lookup column.1 = some column.2 := by decide
  obtain ⟨isString, isRaw, isBool⟩ := tables (name, key) (lookup_listed _ name key found)
  simp only [extractField, isString, isRaw, isBool]

/-- A passthrough column is read as the text of the member under its key. -/
theorem read_raw (event : Json) (name key : String)
    (found : writableJsonKeys.lookup name = some key) :
    extractField engine event name = jsonRaw event key := by
  have tables : ∀ column ∈ writableJsonKeys, stringKeys.lookup column.1 = none ∧
      rawKeys.lookup column.1 = some column.2 := by decide
  obtain ⟨isString, isRaw⟩ := tables (name, key) (lookup_listed _ name key found)
  simp only [extractField, isString, isRaw]

/-- The column of a time is read from its node. -/
theorem read_time (event : Json) (key : String) (time : IsTimeKey key) :
    extractField engine event key = parseEventTime engine event key := by
  cases time with
  | inl isStart => subst isStart; rfl
  | inr isEnd => subst isEnd; rfl

/-- A boolean column has the member of its table. -/
theorem boolean_keyed (name key : String) (found : writableBoolKeys.lookup name = some key) :
    columnKey name = some key := by
  have apart : ∀ column ∈ writableBoolKeys, columnKey column.1 = some column.2 := by decide
  exact apart (name, key) (lookup_listed _ name key found)

/-- So has a JSON column. -/
theorem raw_keyed (name key : String) (found : writableJsonKeys.lookup name = some key) :
    columnKey name = some key := by
  have apart : ∀ column ∈ writableJsonKeys, columnKey column.1 = some column.2 := by decide
  exact apart (name, key) (lookup_listed _ name key found)

/-- What the three tables write. -/
theorem written_string (allDay : Bool) (name key : String) (val : Value) (held : Option Json)
    (found : writableStringKeys.lookup name = some key) :
    writtenCell engine allDay name val held =
      if val.isNull then none else some (.string (val.toText engine)) := by
  have plain := keyed_not_all_day name key (by simp [columnKey, found])
  simp [writtenCell, plain, found]

/-- What a boolean column writes. -/
theorem written_boolean (allDay : Bool) (name key : String) (val : Value) (held : Option Json)
    (found : writableBoolKeys.lookup name = some key) :
    writtenCell engine allDay name val held =
      if val.isNull then none else some (.boolean val.getBoolean) := by
  have apart : ∀ column ∈ writableBoolKeys, column.1 ≠ "all_day" ∧
      writableStringKeys.lookup column.1 = none := by decide
  obtain ⟨plain, isString⟩ := apart (name, key) (lookup_listed _ name key found)
  simp [writtenCell, plain, isString, found]

/-- What a JSON column writes. -/
theorem written_raw (allDay : Bool) (name key : String) (val : Value) (held : Option Json)
    (found : writableJsonKeys.lookup name = some key) :
    writtenCell engine allDay name val held =
      if val.isNull then none else (passedThrough engine (val.toText engine)).or held := by
  have apart : ∀ column ∈ writableJsonKeys, column.1 ≠ "all_day" ∧
      writableStringKeys.lookup column.1 = none ∧ writableBoolKeys.lookup column.1 = none := by
    decide
  obtain ⟨plain, isString, isBool⟩ := apart (name, key) (lookup_listed _ name key found)
  simp [writtenCell, plain, isString, isBool, found]

/-- A value of a string column. -/
def IsText (val : Value) : Prop := val = .null ∨ ∃ text, val = .varchar text

/-- A value of a boolean column. -/
def IsBoolean (val : Value) : Prop := val = .null ∨ ∃ value, val = .boolean value

/-- A string column shows a text, or nothing. -/
theorem string_is_text (event : Json) (key : String) : IsText (jsonString event key) := by
  simp only [jsonString]
  split
  · exact Or.inl rfl
  · exact Or.inl rfl
  · exact Or.inr ⟨_, rfl⟩
  · exact Or.inr ⟨_, rfl⟩

/-- A boolean column shows a boolean, or nothing. -/
theorem boolean_is_boolean (event : Json) (key : String) : IsBoolean (jsonBool event key) := by
  simp only [jsonBool]
  split
  · exact Or.inr ⟨_, rfl⟩
  · exact Or.inl rfl

/-- A string column reads the value that was written. -/
theorem string_reads_written (body : Json) (key : String) (val : Value) (kind : IsText val)
    (left : body.find key = if val.isNull then none else some (.string (val.toText engine))) :
    jsonString body key = val := by
  rcases kind with rfl | ⟨text, rfl⟩
  · simp only [Value.isNull, if_true] at left
    simp only [jsonString, left]
  · simp only [Value.isNull, Bool.false_eq_true, if_false, Value.toText] at left
    simp only [jsonString, left]

/-- A boolean column reads the value that was written. -/
theorem boolean_reads_written (body : Json) (key : String) (val : Value) (kind : IsBoolean val)
    (left : body.find key = if val.isNull then none else some (.boolean val.getBoolean)) :
    jsonBool body key = val := by
  rcases kind with rfl | ⟨value, rfl⟩
  · simp only [Value.isNull, if_true] at left
    simp only [jsonBool, left]
  · simp only [Value.isNull, Bool.false_eq_true, if_false, Value.getBoolean] at left
    simp only [jsonBool, left]

/-- A passthrough column reads NULL from null, and from any other member its text. -/
theorem raw_reads (event json : Json) (key : String) (held : event.find key = some json) :
    jsonRaw event key = if json = .null then .null else .varchar json.dump := by
  simp only [jsonRaw, held]
  cases json <;> rfl

end GoogleCalendar.ColumnReads
