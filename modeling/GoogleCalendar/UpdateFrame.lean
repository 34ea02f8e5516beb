import GoogleCalendar.TimeNodes

/-!
# What the body of an UPDATE depends on

Member by member, the body that is put back comes from the column that owns the
key, from `all_day` re-encoding `start` and `end`, or from the event as it was.
None of these depends on where a column stands in the list, so the order of the
list does not matter; and what is neither SET nor re-encoded stays.

There is one exception. Negative infinity is printed as `-infinity`, which makes
a date-time text of ten characters. When `all_day` stands after such a column the
text is taken for a date and a time of day is added to it.
-/

namespace GoogleCalendar.UpdateFrame

open Library CivilTime EventMapping CalendarUpdate ColumnCells TimeNodes

variable (engine : Engine)

/-- The targets of two orders of a list are the same. -/
theorem target_perm (columns reordered : List (String × Value)) (before : Bool)
    (perm : reordered.Perm columns) (distinct : (columns.map Prod.fst).Nodup) :
    targetAllDay reordered before = targetAllDay columns before := by
  have names : (reordered.map Prod.fst).Perm (columns.map Prod.fst) := perm.map Prod.fst
  by_cases listed : "all_day" ∈ columns.map Prod.fst
  · obtain ⟨⟨name, val⟩, member, named⟩ := List.mem_map.mp listed
    obtain rfl : name = "all_day" := named
    rw [targetAllDay, targetAllDay, lookup_of_mem columns "all_day" val distinct member,
      lookup_of_mem reordered "all_day" val (names.nodup_iff.mpr distinct)
        (perm.mem_iff.mpr member)]
  · rw [targetAllDay, targetAllDay, lookup_of_not_mem columns "all_day" listed,
      lookup_of_not_mem reordered "all_day" (fun there => listed (names.mem_iff.mp there))]

/-- Two orders of a list leave the same member under every key. -/
theorem cells_perm (prints : engine.PrintsTimestamps) (allDay : Bool)
    (columns reordered : List (String × Value)) (perm : reordered.Perm columns)
    (distinct : (columns.map Prod.fst).Nodup)
    (printable : ∀ column ∈ columns, IsTimeKey column.1 → Printable column.2)
    (key : String) (held : Option Json) :
    Edit.cellAfter (columnEdits engine allDay reordered) key held =
      Edit.cellAfter (columnEdits engine allDay columns) key held := by
  have names : (reordered.map Prod.fst).Perm (columns.map Prod.fst) := perm.map Prod.fst
  have reorderedDistinct := names.nodup_iff.mpr distinct
  by_cases owned : ∃ column ∈ columns, columnKey column.1 = some key
  · obtain ⟨⟨name, val⟩, member, keyed⟩ := owned
    have plain : IsTimeKey key → Printable val := by
      intro time
      obtain rfl := time_key_column name key keyed time
      exact printable _ member time
    rw [owner_decides engine prints allDay columns name key val held distinct member keyed plain,
      owner_decides engine prints allDay reordered name key val held reorderedDistinct
        (perm.mem_iff.mpr member) keyed plain]
  · have unowned : ∀ column ∈ columns, columnKey column.1 ≠ some key :=
      fun column member keyed => owned ⟨column, member, keyed⟩
    rw [without_owner engine allDay columns key held distinct unowned,
      without_owner engine allDay reordered key held reorderedDistinct
        (fun column member => unowned column (perm.mem_iff.mp member))]
    simp only [names.mem_iff]

/-- Whether a body is made for an object depends on the columns that are listed
only: with RETURNING one always is, and a plain list must be writable. -/
theorem body_made_iff (returnChunk : Bool) (columns : List (String × Value))
    (members : OrderedMap String Json) :
    (∃ body, putBody engine returnChunk columns (.ofMembers members) = .ok body) ↔
      returnChunk = true ∨ ∀ column ∈ columns, isWritable column.1 = true := by
  cases returnChunk with
  | true =>
    obtain ⟨after, loop, -⟩ := returning_loop engine
      (effectiveAllDay columns (.ofMembers members)) columns members
    exact ⟨fun _ => Or.inl rfl, fun _ => ⟨.ofMembers after, loop⟩⟩
  | false =>
    constructor
    · rintro ⟨body, made⟩
      right
      intro column member
      by_contra unwritable
      obtain ⟨refused, -, -, loop⟩ := plain_loop_refuses engine
        (effectiveAllDay columns (.ofMembers members)) columns members
        ⟨column, member, by simpa using unwritable⟩
      rw [putBody, loop] at made
      exact absurd made (by simp)
    · rintro (returning | writable)
      · exact absurd returning (by simp)
      · obtain ⟨after, loop, -⟩ := plain_loop engine
          (effectiveAllDay columns (.ofMembers members)) columns members writable
        exact ⟨.ofMembers after, loop⟩

/-- The order of the columns does not matter: every permutation of a list puts the
same body, as long as no start or end is negative infinity, whose printed form is
no longer than a date. -/
theorem column_order_irrelevant (prints : engine.PrintsTimestamps) (returnChunk : Bool)
    (columns reordered : List (String × Value)) (members : OrderedMap String Json)
    (perm : reordered.Perm columns) (distinct : (columns.map Prod.fst).Nodup)
    (printable : ∀ column ∈ columns, IsTimeKey column.1 → Printable column.2) :
    (putBody engine returnChunk reordered (.ofMembers members)).toOption =
      (putBody engine returnChunk columns (.ofMembers members)).toOption := by
  have names : (reordered.map Prod.fst).Perm (columns.map Prod.fst) := perm.map Prod.fst
  have sameMade : (∃ body, putBody engine returnChunk reordered (.ofMembers members) = .ok body) ↔
      ∃ body, putBody engine returnChunk columns (.ofMembers members) = .ok body := by
    rw [body_made_iff, body_made_iff]
    simp only [perm.mem_iff]
  cases made : putBody engine returnChunk columns (.ofMembers members) with
  | ok body =>
    obtain ⟨other, otherMade⟩ := sameMade.mpr ⟨body, made⟩
    obtain ⟨after, rfl, cells⟩ := put_body_cells engine returnChunk columns members body made
    obtain ⟨twin, rfl, twinCells⟩ :=
      put_body_cells engine returnChunk reordered members other otherMade
    rw [effective_is_target columns _ distinct] at cells
    rw [effective_is_target reordered _ (names.nodup_iff.mpr distinct),
      target_perm columns reordered _ perm distinct] at twinCells
    have same : twin = after := by
      apply OrderedMap.ext_find
      intro key
      rw [cells key, twinCells key]
      exact cells_perm engine prints _ columns reordered perm distinct printable key _
    rw [otherMade, same]
  | error error =>
    cases otherMade : putBody engine returnChunk reordered (.ofMembers members) with
    | error other => rfl
    | ok other =>
      obtain ⟨body, impossible⟩ := sameMade.mp ⟨other, otherMade⟩
      rw [made] at impossible
      exact absurd impossible (by simp)

/-- A meeting that is made an all-day event from its start on. -/
def dayColumns : List (String × Value) :=
  [("start", .timestampTz 1781074800000000), ("all_day", .boolean true), ("summary", .null)]

/-- The times of the example are printed. -/
theorem day_columns_printable :
    ∀ column ∈ dayColumns, IsTimeKey column.1 → Printable column.2 := by
  have values : ∀ column ∈ dayColumns, IsTimeKey column.1 →
      column.2 = .timestampTz 1781074800000000 := by decide
  intro column member time micros same
  rw [values column member time] at same
  obtain rfl := Value.timestampTz.inj same
  decide

/-- Its flag may stand before its start. -/
theorem day_columns_reordered :
    (putBody (.documented []) false dayColumns.reverse (.ofMembers morning)).toOption =
      (putBody (.documented []) false dayColumns (.ofMembers morning)).toOption :=
  column_order_irrelevant (.documented []) (Engine.documented_prints []) false dayColumns
    dayColumns.reverse morning dayColumns.reverse_perm (by decide) day_columns_printable

/-- The JSON that a value other than NULL is encoded as: none for a text that is
empty or does not parse. -/
def encoding (allDay : Bool) (name : String) (val : Value) : Option Json :=
  if (writableStringKeys.lookup name).isSome then some (.string (val.toText engine))
  else if (writableBoolKeys.lookup name).isSome then some (.boolean val.getBoolean)
  else if (writableJsonKeys.lookup name).isSome then passedThrough engine (val.toText engine)
  else some (timeNode engine val allDay)

/-- The member a SET column is to have: none for NULL, the encoding of another
value, and the one it had when there is no encoding. -/
def setMember (allDay : Bool) (name : String) (val : Value) (held : Option Json) : Option Json :=
  if val.isNull then none else (encoding engine allDay name val).or held

/-- A body that differs from the event only as the SET list says. -/
structure ChangesOnlySet (sets : List (String × Value)) (event body : Json) : Prop where
  frame : ∀ key, (∀ column ∈ sets, columnKey column.1 ≠ some key) →
    ¬ (IsTimeKey key ∧ "all_day" ∈ sets.map Prod.fst) → body.find key = event.find key
  members : ∀ column ∈ sets, ∀ key, columnKey column.1 = some key →
    body.find key = setMember engine (effectiveAllDay sets event) column.1 column.2
      (event.find key)

/-- What SQL values hold: timestamps up to the two infinite ones, and texts in UTF-8. -/
structure Admitted (val : Value) : Prop where
  range : ∀ micros, val = .timestampTz micros → ninfinity ≤ micros ∧ micros ≤ infinity
  utf8 : ∀ text, val = .varchar text → Utf8.WellFormed text.toList

/-- A timestamp of the range of the engine is admitted. -/
theorem admitted_timestamp (micros : Int) :
    Admitted (.timestampTz micros) ↔ ninfinity ≤ micros ∧ micros ≤ infinity := by
  constructor
  · intro admitted
    exact admitted.range micros rfl
  · intro bounds
    constructor
    · intro other same
      exact Value.timestampTz.inj same ▸ bounds
    · intro text same
      cases same

/-- A text is admitted when it is UTF-8. -/
theorem admitted_text (text : String) :
    Admitted (.varchar text) ↔ Utf8.WellFormed text.toList := by
  constructor
  · intro admitted
    exact admitted.utf8 text rfl
  · intro formed
    constructor
    · intro micros same
      cases same
    · intro other same
      exact Value.varchar.inj same ▸ formed

/-- Values of the other kinds are admitted. -/
theorem admitted_plain (val : Value) (plain : val = .null ∨ (∃ value, val = .boolean value) ∨
    ∃ value, val = .bigint value) : Admitted val := by
  constructor
  · rintro micros rfl
    simp at plain
  · rintro text rfl
    simp at plain

instance : DecidablePred Admitted
  | .null => .isTrue (admitted_plain .null (.inl rfl))
  | .varchar text => decidable_of_iff _ (admitted_text text).symm
  | .boolean value => .isTrue (admitted_plain _ (.inr (.inl ⟨value, rfl⟩)))
  | .bigint value => .isTrue (admitted_plain _ (.inr (.inr ⟨value, rfl⟩)))
  | .timestampTz micros => decidable_of_iff _ (admitted_timestamp micros).symm

/-- A list that SETs a start or end to negative infinity as a date-time and has
`all_day` behind it. -/
def NegativeInfinityRedone (sets : List (String × Value)) (event : Json) : Prop :=
  effectiveAllDay sets event = false ∧
    ∃ before key after, sets = before ++ (key, Value.timestampTz ninfinity) :: after ∧
      IsTimeKey key ∧ "all_day" ∈ after.map Prod.fst

/-- Every value that SQL holds but negative infinity prints longer than a date. -/
theorem printable_or_least (val : Value) (admitted : Admitted val) :
    Printable val ∨ val = .timestampTz ninfinity := by
  by_cases least : val = .timestampTz ninfinity
  · exact .inr least
  · left
    intro micros same
    obtain ⟨above, below⟩ := admitted.range micros same
    have apart : micros ≠ ninfinity := by
      rintro rfl
      exact least same
    omega

/-- What a column writes is the member it is to have. -/
theorem written_is_set (allDay : Bool) (name key : String) (val : Value) (held : Option Json)
    (keyed : columnKey name = some key) :
    writtenCell engine allDay name val held = setMember engine allDay name val held := by
  have plain := keyed_not_all_day name key keyed
  simp only [writtenCell, setMember, encoding, plain, if_false]
  cases val.isNull with
  | true => rfl
  | false =>
    simp only [Bool.false_eq_true, if_false]
    split
    · rfl
    · split
      · rfl
      · split <;> rfl

/-- Negative infinity as a date-time is not kept when it is re-encoded. -/
theorem negative_infinity_redone (prints : engine.PrintsTimestamps) :
    reencodedNode false (timeNode engine (.timestampTz ninfinity) false) ≠
      timeNode engine (.timestampTz ninfinity) false := by
  have text : formatRfc3339 engine (.timestampTz ninfinity) = "-infinityZ" := by
    simp only [formatRfc3339, Value.getTimestamp, prints.ninfinity]
    decide
  simp only [timeNode, Bool.false_eq_true, if_false, text]
  decide

/-- A SET column leaves the member it is to have unless it is negative infinity,
redone. -/
theorem set_column_member (prints : engine.PrintsTimestamps) (sets : List (String × Value))
    (event : Json) (name key : String) (val : Value) (held : Option Json)
    (distinct : (sets.map Prod.fst).Nodup) (member : (name, val) ∈ sets)
    (keyed : columnKey name = some key) (admitted : Admitted val)
    (spared : ¬ NegativeInfinityRedone sets event) :
    Edit.cellAfter (columnEdits engine (effectiveAllDay sets event) sets) key held =
      setMember engine (effectiveAllDay sets event) name val held := by
  rw [← written_is_set engine _ name key val held keyed]
  by_cases plain : IsTimeKey key → Printable val
  · exact owner_decides engine prints _ sets name key val held distinct member keyed plain
  · simp only [Classical.not_imp] at plain
    obtain ⟨time, unprintable⟩ := plain
    obtain rfl := time_key_column name key keyed time
    have negative := (printable_or_least val admitted).resolve_left unprintable
    subst negative
    obtain ⟨before, after, rfl⟩ := List.append_of_mem member
    have written : ∀ flag held, writtenCell engine flag name (.timestampTz ninfinity) held =
        some (timeNode engine (.timestampTz ninfinity) flag) :=
      fun flag held => written_time engine flag name _ held time
    rw [time_owner_cell engine _ before after name _ held time distinct, written, written]
    split
    · rename_i later
      have date : effectiveAllDay (before ++ (name, .timestampTz ninfinity) :: after) event =
          true := by
        by_contra flag
        exact spared ⟨by simpa using flag, before, name, after, rfl, time, later⟩
      rw [date, Option.map_some, date_node_fixed]
    · rfl

/-- The body made of a list that can be written changes only what it SETs, just
when the list has no negative infinity that is redone. -/
theorem changes_only_set_iff (prints : engine.PrintsTimestamps) (sets : List (String × Value))
    (members : OrderedMap String Json) (body : Json) (distinct : (sets.map Prod.fst).Nodup)
    (admitted : ∀ column ∈ sets, Admitted column.2)
    (made : putBody engine false sets (.ofMembers members) = .ok body) :
    ChangesOnlySet engine sets (.ofMembers members) body ↔
      ¬ NegativeInfinityRedone sets (.ofMembers members) := by
  obtain ⟨after, rfl, cells⟩ := put_body_cells engine false sets members body made
  constructor
  · rintro ⟨-, set⟩ ⟨flag, before, key, rest, rfl, time, later⟩
    have keyed := time_keyed key time
    have written : ∀ held, writtenCell engine false key (.timestampTz ninfinity) held =
        some (timeNode engine (.timestampTz ninfinity) false) :=
      fun held => written_time engine false key _ held time
    have wanted := set _ (List.mem_append_right before (List.mem_cons_self ..)) key keyed
    rw [Json.find_of_members, cells key, flag,
      time_owner_cell engine false before rest key _ _ time distinct, if_pos later,
      ← written_is_set engine false key key _ _ keyed, written, written, Option.map_some] at wanted
    exact negative_infinity_redone engine prints (Option.some.inj wanted)
  · intro spared
    constructor
    · intro key unowned untouched
      rw [Json.find_of_members, cells key, without_owner engine _ sets key _ distinct unowned,
        if_neg untouched]
      rfl
    · rintro ⟨name, val⟩ member key keyed
      rw [Json.find_of_members, cells key]
      exact set_column_member engine prints sets (.ofMembers members) name key val _ distinct member
        keyed (admitted _ member) spared

end GoogleCalendar.UpdateFrame
