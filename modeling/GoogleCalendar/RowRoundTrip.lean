import GoogleCalendar.ColumnReads
import GoogleCalendar.RowBody

/-!
# Reading back an inserted row

The body built for a row has one member for each writable column with a value,
and the reader finds it again: texts and booleans as they are, raw JSON as a text
of the same value, a time as its instant or, in an all-day row, as the midnight
of its day in UTC. The order of the columns plays no part.
-/

namespace GoogleCalendar.RowRoundTrip

open Library CivilTime EventMapping ColumnCells TimeNodes EventTimes ColumnReads RowBody

variable (engine : Engine)

/-- The value of a row in a column, NULL when it has none. -/
def rowValue (names : List String) (row : List Value) (name : String) : Value :=
  ((names.zip row).lookup name).getD .null

/-- A column that INSERT stores as a text. -/
def IsTextColumn (name : String) : Prop :=
  name = "event_id" ∨ (writableStringKeys.lookup name).isSome = true

/-- Values of the types of their columns: raw JSON that parses, times of the years 1
to 9999. -/
structure Insertable (value : String → Value) : Prop where
  texts : ∀ name, IsTextColumn name → IsText (value name)
  booleans : ∀ name, (writableBoolKeys.lookup name).isSome = true → IsBoolean (value name)
  documents : ∀ name, (writableJsonKeys.lookup name).isSome = true → value name = .null ∨
    ∃ text parsed, value name = .varchar text ∧ passedThrough engine text = some parsed ∧
      engine.RoundTrips parsed
  times : ∀ key, IsTimeKey key → value key = .null ∨
    ∃ instant, value key = .timestampTz instant ∧ FourDigitYear instant

/-- A body that reads back as the values it was built from. -/
structure ReadsBack (value : String → Value) (event : Json) : Prop where
  texts : ∀ name, IsTextColumn name → extractField engine event name = value name
  booleans : ∀ name, (writableBoolKeys.lookup name).isSome = true →
    extractField engine event name = value name
  documents : ∀ name, (writableJsonKeys.lookup name).isSome = true →
    (value name = .null → extractField engine event name = .null) ∧
    ∀ text parsed, value name = .varchar text → engine.parse text = some parsed →
      if parsed = .null then extractField engine event name = .null
      else ∃ out, extractField engine event name = .varchar out ∧ engine.parse out = some parsed
  times : ∀ key, IsTimeKey key →
    (value key = .null → extractField engine event key = .null) ∧
    ∀ instant, value key = .timestampTz instant → extractField engine event key = .timestampTz
      (if value "all_day" = .boolean true then instant / dayMicros * dayMicros else instant)
  allDay : extractField engine event "all_day" =
    .boolean (value "all_day" = .boolean true ∧ value "start" ≠ .null)
  members : ∀ key, event.find key ≠ none → ∃ name, insertKey name = some key ∧ value name ≠ .null

/-- The flag of a row is TRUE just when its `all_day` is. -/
theorem row_flag (names : List String) (row : List Value) :
    rowAllDay names row = decide (rowValue names row "all_day" = .boolean true) := by
  have flag : ∀ val : Value, (!val.isNull && val.getBoolean) = decide (val = .boolean true) := by
    intro val
    cases val with
    | boolean value => cases value <;> rfl
    | _ => rfl
  unfold rowAllDay rowValue
  induction names.zip row with
  | nil => rfl
  | cons column rest ih =>
    obtain ⟨name, val⟩ := column
    by_cases named : name = "all_day"
    · subst named
      simpa using flag val
    · rw [List.find?_cons_of_neg (by simpa using named), List.lookup_cons,
        beq_false_of_ne (Ne.symm named)]
      exact ih

/-- A column that a row has a value for is among those of the row. -/
theorem row_value_listed (names : List String) (row : List Value) (name : String)
    (present : rowValue names row name ≠ .null) :
    (name, rowValue names row name) ∈ names.zip row := by
  simp only [rowValue] at present ⊢
  cases found : (names.zip row).lookup name with
  | none => simp [found] at present
  | some val =>
    obtain ⟨before, after, whole, -⟩ := List.lookup_eq_some_iff.mp found
    rw [whole]
    simp

/-- A value is NULL or another. -/
theorem null_or_present (val : Value) : val.isNull = true ↔ val = .null := by
  cases val <;> simp [Value.isNull]

/-- The member under the key of a column: none when the row has no value for it. -/
theorem row_member (names : List String) (row : List Value) (name key : String) (event : Json)
    (distinct : names.Nodup) (keyed : insertKey name = some key)
    (built : rowToEvent engine names row = .ok event) :
    event.find key = if (rowValue names row name).isNull then none
      else insertedCell engine (rowAllDay names row) name (rowValue names row name) none := by
  by_cases null : rowValue names row name = .null
  · rw [if_pos ((null_or_present _).mpr null)]
    apply row_event_nothing engine names row key event _ built
    rintro ⟨other, val⟩ member otherKeyed
    obtain rfl : other = name := insert_key_injective other name key otherKeyed keyed
    have zipped : ((names.zip row).map Prod.fst).Nodup := distinct.sublist (zipped_names names row)
    rw [rowValue, lookup_of_mem _ other val zipped member] at null
    exact (null_or_present val).mpr null
  · rw [if_neg (fun absent => null ((null_or_present _).mp absent))]
    exact row_event_member engine names row name key _ event distinct
      (row_value_listed names row name null) keyed
      (by simpa using mt (null_or_present _).mp null) built

/-- Columns that are keyed as UPDATE keys them leave what UPDATE writes. -/
theorem row_member_written (names : List String) (row : List Value) (name key : String)
    (event : Json) (distinct : names.Nodup) (keyed : columnKey name = some key)
    (built : rowToEvent engine names row = .ok event) :
    event.find key =
      writtenCell engine (rowAllDay names row) name (rowValue names row name) none := by
  have plain : name ≠ "event_id" := by
    rintro rfl
    have unkeyed : columnKey "event_id" = none := by decide
    simp [unkeyed] at keyed
  have inserted : insertKey name = some key := by simp [insertKey, plain, keyed]
  rw [row_member engine names row name key event distinct inserted built, insertedCell,
    if_neg plain]
  split
  · rename_i null
    rw [(null_or_present _).mp null]
    simp [writtenCell, keyed_not_all_day name key keyed, Value.isNull]
  · rfl

/-- A text that is inserted is read back. -/
theorem inserted_texts (names : List String) (row : List Value) (name : String) (event : Json)
    (distinct : names.Nodup) (column : IsTextColumn name)
    (kind : IsText (rowValue names row name))
    (built : rowToEvent engine names row = .ok event) :
    extractField engine event name = rowValue names row name := by
  rcases column with rfl | listed
  · have left := row_member engine names row "event_id" "id" event distinct rfl built
    exact string_reads_written engine event "id" _ kind left
  · obtain ⟨key, found⟩ := Option.isSome_iff_exists.mp listed
    have left := row_member_written engine names row name key event distinct
      (by simp [columnKey, found]) built
    rw [written_string engine _ name key _ _ found] at left
    rw [read_string engine event name key found]
    exact string_reads_written engine event key _ kind left

/-- So is a boolean. -/
theorem inserted_booleans (names : List String) (row : List Value) (name : String) (event : Json)
    (distinct : names.Nodup) (listed : (writableBoolKeys.lookup name).isSome = true)
    (kind : IsBoolean (rowValue names row name))
    (built : rowToEvent engine names row = .ok event) :
    extractField engine event name = rowValue names row name := by
  obtain ⟨key, found⟩ := Option.isSome_iff_exists.mp listed
  have left := row_member_written engine names row name key event distinct
    (boolean_keyed name key found) built
  rw [written_boolean engine _ name key _ _ found] at left
  rw [read_boolean engine event name key found]
  exact boolean_reads_written event key _ kind left

/-- A passthrough column has the member that its text parses to. -/
theorem inserted_document (names : List String) (row : List Value) (name text : String)
    (parsed event : Json) (distinct : names.Nodup)
    (listed : (writableJsonKeys.lookup name).isSome = true)
    (value : rowValue names row name = .varchar text)
    (valid : passedThrough engine text = some parsed)
    (built : rowToEvent engine names row = .ok event) :
    extractField engine event name = if parsed = .null then .null else .varchar parsed.dump := by
  obtain ⟨key, found⟩ := Option.isSome_iff_exists.mp listed
  have left := row_member_written engine names row name key event distinct
    (raw_keyed name key found) built
  rw [written_raw engine _ name key _ _ found, value] at left
  simp only [Value.isNull, Bool.false_eq_true, if_false, Value.toText, valid] at left
  rw [read_raw engine event name key found, raw_reads event parsed key left]

/-- A JSON column that is inserted as NULL is read as NULL. -/
theorem inserted_no_document (names : List String) (row : List Value) (name : String)
    (event : Json) (distinct : names.Nodup)
    (listed : (writableJsonKeys.lookup name).isSome = true)
    (null : rowValue names row name = .null) (built : rowToEvent engine names row = .ok event) :
    extractField engine event name = .null := by
  obtain ⟨key, found⟩ := Option.isSome_iff_exists.mp listed
  have left := row_member_written engine names row name key event distinct
    (raw_keyed name key found) built
  rw [written_raw engine _ name key _ _ found, null] at left
  simp only [Value.isNull, if_true] at left
  simp only [read_raw engine event name key found, jsonRaw, left]

/-- A start or end with an instant bears it, as a date in an all-day row. -/
theorem inserted_time (prints : engine.PrintsTimestamps) (casts : engine.CastsTimes)
    (names : List String) (row : List Value) (key : String) (instant : Int) (event : Json)
    (distinct : names.Nodup) (time : IsTimeKey key)
    (value : rowValue names row key = .timestampTz instant) (bounded : FourDigitYear instant)
    (built : rowToEvent engine names row = .ok event) :
    Bears engine event key (rowAllDay names row) (instant / dayMicros)
      (if rowAllDay names row then instant / dayMicros * dayMicros else instant) := by
  have left := row_member_written engine names row key key event distinct
    (time_keyed key time) built
  rw [written_time engine _ key _ _ time, value] at left
  exact ⟨_, left, denotes_time_node engine prints casts instant bounded _⟩

/-- A time that is inserted as NULL leaves no node. -/
theorem inserted_no_time (names : List String) (row : List Value) (key : String) (event : Json)
    (distinct : names.Nodup) (time : IsTimeKey key) (null : rowValue names row key = .null)
    (built : rowToEvent engine names row = .ok event) : event.find key = none := by
  have left := row_member_written engine names row key key event distinct
    (time_keyed key time) built
  rw [written_time engine _ key _ _ time, null] at left
  simpa [Value.isNull] using left

/-- The body of a row reads back as the row. -/
theorem row_reads_back (prints : engine.PrintsTimestamps) (casts : engine.CastsTimes)
    (names : List String) (row : List Value) (event : Json) (distinct : names.Nodup)
    (insertable : Insertable engine (rowValue names row))
    (built : rowToEvent engine names row = .ok event) :
    ReadsBack engine (rowValue names row) event := by
  constructor
  · intro name column
    exact inserted_texts engine names row name event distinct column
      (insertable.texts name column) built
  · intro name listed
    exact inserted_booleans engine names row name event distinct listed
      (insertable.booleans name listed) built
  · intro name listed
    constructor
    · intro null
      exact inserted_no_document engine names row name event distinct listed null built
    · intro text parsed value parses
      obtain ⟨other, left, otherValue, valid, roundTrips⟩ :=
        (insertable.documents name listed).resolve_left (by simp [value])
      obtain rfl : text = other := Value.varchar.inj (value.symm.trans otherValue)
      have same : parsed = left := by
        simp only [passedThrough, parses] at valid
        split at valid
        · simp at valid
        · exact Option.some.inj valid
      subst same
      rw [inserted_document engine names row name text parsed event distinct listed value valid
        built]
      split
      · rfl
      · exact ⟨_, rfl, roundTrips⟩
  · intro key time
    rw [read_time engine event key time]
    constructor
    · intro null
      simp only [parseEventTime,
        inserted_no_time engine names row key event distinct time null built]
    · intro instant value
      obtain ⟨other, otherValue, bounded⟩ :=
        (insertable.times key time).resolve_left (by simp [value])
      obtain rfl : instant = other := Value.timestampTz.inj (value.symm.trans otherValue)
      have borne := inserted_time engine prints casts names row key instant event distinct time
        value bounded built
      rw [parse_borne engine casts _ _ _ _ _ borne, row_flag]
      simp only [decide_eq_true_eq]
  · change Value.boolean (existingAllDay event) = _
    rcases insertable.times "start" (Or.inl rfl) with null | ⟨instant, value, bounded⟩
    · have absent :=
        inserted_no_time engine names row "start" event distinct (Or.inl rfl) null built
      simp [existingAllDay, absent, null]
    · have borne := inserted_time engine prints casts names row "start" instant event distinct
        (Or.inl rfl) value bounded built
      rw [existing_borne engine _ _ _ _ borne, row_flag]
      simp [value]
  · intro key held
    by_contra unowned
    apply held
    apply row_event_nothing engine names row key event _ built
    rintro ⟨name, val⟩ member keyed
    have zipped : ((names.zip row).map Prod.fst).Nodup := distinct.sublist (zipped_names names row)
    have value : rowValue names row name = val := by
      rw [rowValue, lookup_of_mem _ name val zipped member]
      rfl
    rw [null_or_present, ← value]
    by_contra present
    exact unowned ⟨name, keyed, present⟩

/-- Null, or an object with a member. -/
def Filled (body : Json) : Prop := body = .null ∨ ∃ key, body.find key ≠ none

/-- On INSERT a member is written by assignment only. -/
theorem write_member_assigns (body after : Json) (key : String) (val : Value)
    (outcome : Except JsonError Json) (flag : Bool)
    (written : (writeMember body key val false outcome).map (fun event => (event, true)) =
      .ok (after, flag)) : after = body ∨ outcome = .ok after := by
  simp only [writeMember, Bool.false_eq_true, if_false] at written
  split at written
  · left
    simp only [Except.map, Except.ok.injEq, Prod.mk.injEq] at written
    exact written.1.symm
  · right
    cases outcome with
    | ok made =>
      simp only [Except.map, Except.ok.injEq, Prod.mk.injEq] at written
      rw [written.1]
    | error error => simp [Except.map] at written

/-- A passed-through text is assigned or leaves the body. -/
theorem passthrough_assigns (body : Json) (key : String) (val : Value) :
    setJsonPassthrough engine body key val = body ∨
      ∃ value, body.assign key value = .ok (setJsonPassthrough engine body key val) := by
  simp only [setJsonPassthrough]
  split
  · exact Or.inl rfl
  · split
    · exact Or.inl rfl
    · split
      · exact Or.inl rfl
      · rename_i parsed parses
        split
        · rename_i stored assigned
          exact Or.inr ⟨parsed, assigned⟩
        · exact Or.inl rfl

/-- A column leaves the body or assigns one member. -/
theorem column_assigns (body after : Json) (name : String) (val : Value) (allDay flag : Bool)
    (applied : applyColumn engine body name val allDay false = .ok (after, flag)) :
    after = body ∨ ∃ key value, body.assign key value = .ok after := by
  have assigned : ∀ key value,
      (writeMember body key val false (body.assign key value)).map (fun event => (event, true)) =
        .ok (after, flag) → after = body ∨ ∃ key value, body.assign key value = .ok after :=
    fun key value written =>
      (write_member_assigns body after key val _ flag written).imp_right (fun made => ⟨_, _, made⟩)
  simp only [applyColumn, Bool.false_eq_true, if_false] at applied
  split at applied
  · exact assigned _ _ applied
  · split at applied
    · exact assigned _ _ applied
    · split at applied
      · exact assigned _ _ applied
      · split at applied
        · rename_i key found
          cases write_member_assigns body after key val _ flag applied with
          | inl kept => exact Or.inl kept
          | inr made =>
            obtain rfl := Except.ok.inj made
            exact (passthrough_assigns engine body key val).imp_right
              (fun stored => ⟨key, stored⟩)
        · split at applied
          · exact assigned _ _ applied
          · left
            split at applied <;> exact (Prod.mk.inj (Except.ok.inj applied)).1.symm

/-- A row builds null or an object with a member. -/
theorem loop_filled (columns : List (String × Value)) (allDay : Bool) (body after : Json)
    (storable : Storable body) (filled : Filled body)
    (loop : columns.foldlM (fun event column => do
      let applied ← applyColumn engine event column.1 column.2 allDay false
      pure applied.1) body = .ok after) : Filled after := by
  induction columns generalizing body with
  | nil =>
    obtain rfl := Except.ok.inj loop
    exact filled
  | cons column rest ih =>
    obtain ⟨next, flag, applied, object, -⟩ :=
      insert_column engine body allDay column.1 column.2 storable
    rw [List.foldlM_cons, applied] at loop
    apply ih next object _ loop
    rcases column_assigns engine body next column.1 column.2 allDay flag applied with
      rfl | ⟨key, value, assigned⟩
    · exact filled
    · obtain ⟨members, made, cells⟩ := assign_storable body key value storable
      obtain rfl := Except.ok.inj (assigned.symm.trans made)
      refine Or.inr ⟨key, ?_⟩
      rw [Json.find_of_members, cells key, if_pos rfl]
      simp

/-- Two such bodies with the same members are the same. -/
theorem filled_ext (left right : Json) (leftStorable : Storable left)
    (rightStorable : Storable right) (leftFilled : Filled left) (rightFilled : Filled right)
    (same : ∀ key, left.find key = right.find key) : left = right := by
  have nothing : ∀ key, Json.null.find key = none := fun _ => rfl
  rcases leftStorable with rfl | ⟨lefts, rfl⟩
  · rcases rightFilled with rfl | ⟨key, held⟩
    · rfl
    · exact absurd ((same key).symm.trans (nothing key)) held
  · rcases rightStorable with rfl | ⟨rights, rfl⟩
    · rcases leftFilled with null | ⟨key, held⟩
      · exact null
      · exact absurd ((same key).trans (nothing key)) held
    · rw [OrderedMap.ext_find lefts rights same]

/-- Two orders of the columns give the same values. -/
theorem row_value_perm (names others : List String) (row values : List Value)
    (distinct : names.Nodup) (perm : (others.zip values).Perm (names.zip row)) (name : String) :
    rowValue others values name = rowValue names row name := by
  have zipped : ((names.zip row).map Prod.fst).Nodup := distinct.sublist (zipped_names names row)
  have columns := perm.map Prod.fst
  by_cases listed : name ∈ (names.zip row).map Prod.fst
  · obtain ⟨⟨other, val⟩, member, named⟩ := List.mem_map.mp listed
    obtain rfl : other = name := named
    rw [rowValue, rowValue, lookup_of_mem _ other val zipped member,
      lookup_of_mem _ other val (columns.nodup_iff.mpr zipped) (perm.mem_iff.mpr member)]
  · rw [rowValue, rowValue, lookup_of_not_mem _ name listed,
      lookup_of_not_mem _ name (fun there => listed (columns.mem_iff.mp there))]

/-- Two orders of the columns build the same body. -/
theorem row_event_perm (names others : List String) (row values : List Value)
    (event reordered : Json) (distinct : names.Nodup) (othersDistinct : others.Nodup)
    (perm : (others.zip values).Perm (names.zip row))
    (built : rowToEvent engine names row = .ok event)
    (rebuilt : rowToEvent engine others values = .ok reordered) : reordered = event := by
  have value := row_value_perm names others row values distinct perm
  obtain ⟨made, loop, storable, -⟩ :=
    insert_loop engine (names.zip row) (rowAllDay names row) .null (Or.inl rfl)
  obtain rfl : made = event := Except.ok.inj (loop.symm.trans built)
  obtain ⟨remade, reloop, restorable, -⟩ :=
    insert_loop engine (others.zip values) (rowAllDay others values) .null (Or.inl rfl)
  obtain rfl : remade = reordered := Except.ok.inj (reloop.symm.trans rebuilt)
  apply filled_ext remade made restorable storable
    (loop_filled engine _ _ .null remade (Or.inl rfl) (Or.inl rfl) reloop)
    (loop_filled engine _ _ .null made (Or.inl rfl) (Or.inl rfl) loop)
  intro key
  by_cases owned : ∃ name, insertKey name = some key
  · obtain ⟨name, keyed⟩ := owned
    have flag : rowAllDay others values = rowAllDay names row := by
      rw [row_flag, row_flag]
      simp only [value]
    rw [row_member engine names row name key made distinct keyed built,
      row_member engine others values name key remade othersDistinct keyed rebuilt, value, flag]
  · rw [row_event_nothing engine names row key made
        (fun column _ keyed => absurd ⟨column.1, keyed⟩ owned) built,
      row_event_nothing engine others values key remade
        (fun column _ keyed => absurd ⟨column.1, keyed⟩ owned) rebuilt]

/-- What INSERT writes is what SELECT reads: the body of a row reads back as the row,
and every other order of its columns builds the same body. -/
theorem inserted_row_reads_back (prints : engine.PrintsTimestamps) (casts : engine.CastsTimes)
    (names : List String) (row : List Value) (schema : names.Perm eventsNames)
    (insertable : Insertable engine (rowValue names row)) :
    ∃ event, rowToEvent engine names row = .ok event ∧
      ReadsBack engine (rowValue names row) event ∧
      ∀ others values, others.length = values.length →
        (others.zip values).Perm (names.zip row) → rowToEvent engine others values = .ok event := by
  have distinct : names.Nodup := schema.nodup_iff.mpr events_names_distinct
  obtain ⟨event, built, -⟩ := row_to_event_total engine names row
  refine ⟨event, built, row_reads_back engine prints casts names row event distinct
    insertable built,
    ?_⟩
  intro others values width perm
  have zipped : ((names.zip row).map Prod.fst).Nodup := distinct.sublist (zipped_names names row)
  have othersDistinct : others.Nodup := by
    have whole : (others.zip values).map Prod.fst = others :=
      List.map_fst_zip (le_of_eq width)
    rw [← whole]
    exact (perm.map Prod.fst).nodup_iff.mpr zipped
  obtain ⟨reordered, rebuilt, -⟩ := row_to_event_total engine others values
  rw [rebuilt, row_event_perm engine names others row values event reordered distinct othersDistinct
    perm built rebuilt]

/-- A trip of a day with a blank in its raw JSON, and a server's column that is given. -/
def tripValue (name : String) : Value :=
  if name = "event_id" then .varchar "trip1"
  else if name = "summary" ∨ name = "etag" then .varchar "Trip"
  else if name = "guests_can_modify" then .boolean false
  else if name = "recurrence" then .varchar "[ 1]"
  else if name = "start" ∨ name = "end" then .timestampTz 1781082000000000
  else if name = "all_day" then .boolean true
  else .null

/-- An engine that casts and parses what the row is written with. -/
def tripEngine : Engine :=
  .documented [("[ 1]", .array [.integer 1]), ("[1]", .array [.integer 1])]

/-- Every column, in the reverse of their order. -/
def tripNames : List String := eventsNames.reverse

/-- The row can be inserted. -/
theorem trip_insertable :
    Insertable tripEngine (rowValue tripNames (tripNames.map tripValue)) := by
  have values : ∀ name ∈ eventsNames,
      rowValue tripNames (tripNames.map tripValue) name = tripValue name := by decide +kernel
  have textual : ∀ name ∈ "event_id" :: writableStringKeys.map Prod.fst, name ∈ eventsNames ∧
      (tripValue name = .null ∨ tripValue name = .varchar "trip1" ∨
        tripValue name = .varchar "Trip") := by decide +kernel
  have logical : ∀ name ∈ writableBoolKeys.map Prod.fst, name ∈ eventsNames ∧
      (tripValue name = .null ∨ tripValue name = .boolean false) := by decide +kernel
  have raw : ∀ name ∈ writableJsonKeys.map Prod.fst, name ∈ eventsNames ∧
      (tripValue name = .null ∨ tripValue name = .varchar "[ 1]") := by decide +kernel
  have named : ∀ (table : List (String × String)) name, (table.lookup name).isSome = true →
      name ∈ table.map Prod.fst := by
    intro table name listed
    obtain ⟨key, found⟩ := Option.isSome_iff_exists.mp listed
    exact List.mem_map.mpr ⟨_, lookup_listed table name key found, rfl⟩
  constructor
  · intro name column
    have member : name ∈ "event_id" :: writableStringKeys.map Prod.fst := by
      rcases column with rfl | listed
      · exact List.mem_cons_self ..
      · exact List.mem_cons_of_mem _ (named _ name listed)
    obtain ⟨inSchema, kinds⟩ := textual name member
    rw [values name inSchema]
    rcases kinds with null | id | summary
    · exact Or.inl null
    · exact Or.inr ⟨_, id⟩
    · exact Or.inr ⟨_, summary⟩
  · intro name listed
    obtain ⟨inSchema, kinds⟩ := logical name (named _ name listed)
    rw [values name inSchema]
    exact kinds.imp_right (fun value => ⟨_, value⟩)
  · intro name listed
    obtain ⟨inSchema, kinds⟩ := raw name (named _ name listed)
    rw [values name inSchema]
    exact kinds.imp_right (fun value =>
      ⟨_, .array [.integer 1], value, rfl, rfl⟩)
  · rintro key (rfl | rfl)
    · exact Or.inr ⟨1781082000000000, by decide +kernel, by decide⟩
    · exact Or.inr ⟨1781082000000000, by decide +kernel, by decide⟩

/-- The trip is stored as two dates and reads back with its raw JSON. -/
theorem trip_reads_back :
    ∃ event, rowToEvent tripEngine tripNames (tripNames.map tripValue) = .ok event ∧
      extractField tripEngine event "event_id" = .varchar "trip1" ∧
      extractField tripEngine event "start" = .timestampTz (20614 * dayMicros) ∧
      extractField tripEngine event "all_day" = .boolean true := by
  obtain ⟨event, built, reads, -⟩ := inserted_row_reads_back tripEngine
    (Engine.documented_prints _) (Engine.documented_casts _) tripNames (tripNames.map tripValue)
    eventsNames.reverse_perm trip_insertable
  refine ⟨event, built, ?_, ?_, ?_⟩
  · rw [reads.texts "event_id" (Or.inl rfl)]
    decide +kernel
  · rw [(reads.times "start" (Or.inl rfl)).2 1781082000000000 (by decide +kernel)]
    decide +kernel
  · rw [reads.allDay]
    decide +kernel

end GoogleCalendar.RowRoundTrip
