import GoogleCalendar.ColumnCells

/-!
# The body built for an INSERT row

Building starts from null, which the first stored member turns into an object,
so no column throws. A column that is NULL is left out and `all_day` stores
nothing of its own; every other column stores one member, under the key that
UPDATE writes too or, for `event_id`, under `id`.
-/

namespace GoogleCalendar.RowBody

open Library EventMapping ColumnCells

/-- Null and the objects: the values a member can be assigned in. -/
def Storable (json : Json) : Prop := json = .null ∨ ∃ members, json = .ofMembers members

/-- The key a column stores its member under on INSERT. -/
def insertKey (name : String) : Option String :=
  if name = "event_id" then some "id" else columnKey name

variable (engine : Engine)

/-- The member that a column with a value stores on INSERT. -/
def insertedCell (allDay : Bool) (name : String) (val : Value) (held : Option Json) : Option Json :=
  if name = "event_id" then some (.string (val.toText engine))
  else writtenCell engine allDay name val held

/-- An assignment to an object, or to null, makes an object. -/
theorem assign_storable (json : Json) (key : String) (value : Json) (storable : Storable json) :
    ∃ members : OrderedMap String Json, json.assign key value = .ok (.ofMembers members) ∧
      ∀ other, members.find other = if other = key then some value else json.find other := by
  rcases storable with rfl | ⟨members, rfl⟩
  · refine ⟨OrderedMap.empty.insert key value, rfl, ?_⟩
    intro other
    rw [OrderedMap.find_insert]
    rfl
  · exact ⟨members.insert key value, rfl, fun other =>
      OrderedMap.find_insert members key other value⟩

/-- What a column leaves of a body: its own member, and all others as they were. -/
def Stored (allDay : Bool) (name : String) (val : Value) (before after : Json) : Prop :=
  ∀ key, after.find key =
    if insertKey name = some key ∧ val.isNull = false then
      insertedCell engine allDay name val (before.find key)
    else before.find key

/-- A column with a key stores its member unless it is NULL. -/
theorem keyed_insert (body : Json) (allDay : Bool) (name key : String) (val : Value)
    (outcome : Except JsonError Json) (storable : Storable body)
    (keyed : insertKey name = some key)
    (stored : val.isNull = false → ∃ after, outcome = .ok after ∧ Storable after ∧
      ∀ other, after.find other =
        if other = key then insertedCell engine allDay name val (body.find key)
        else body.find other) :
    ∃ after, (writeMember body key val false outcome).map (fun event => (event, true)) =
        .ok (after, true) ∧
      Storable after ∧ Stored engine allDay name val body after := by
  cases absent : val.isNull with
  | true =>
    refine ⟨body, by simp [writeMember, absent, Except.map], storable, ?_⟩
    intro other
    simp [absent]
  | false =>
    obtain ⟨after, rfl, object, cells⟩ := stored absent
    refine ⟨after, by simp [writeMember, absent, Except.map], object, ?_⟩
    intro other
    rw [cells other]
    simp only [keyed, Option.some.injEq, absent, and_true]
    by_cases here : other = key
    · subst here
      simp
    · simp [here, Ne.symm here]

/-- A column that assigns one value stores it. -/
theorem assigned_insert (body value : Json) (allDay : Bool) (name key : String) (val : Value)
    (storable : Storable body) (keyed : insertKey name = some key)
    (cell : val.isNull = false →
      insertedCell engine allDay name val (body.find key) = some value) :
    ∃ after, (writeMember body key val false (body.assign key value)).map
        (fun event => (event, true)) = .ok (after, true) ∧
      Storable after ∧ Stored engine allDay name val body after := by
  apply keyed_insert engine body allDay name key val _ storable keyed
  intro present
  obtain ⟨members, assigned, cells⟩ := assign_storable body key value storable
  refine ⟨.ofMembers members, assigned, Or.inr ⟨members, rfl⟩, ?_⟩
  intro other
  rw [cell present]
  exact cells other

/-- A passed-through text stores what it parses to, if it does. -/
theorem passed_insert (body : Json) (key : String) (val : Value) (storable : Storable body)
    (present : val.isNull = false) :
    Storable (setJsonPassthrough engine body key val) ∧
      ∀ other, (setJsonPassthrough engine body key val).find other =
        if other = key then (passedThrough engine (val.toText engine)).or (body.find key)
        else body.find other := by
  have kept : ∀ other, body.find other =
      if other = key then (none : Option Json).or (body.find key) else body.find other := by
    intro other
    split
    · rename_i here
      simp [here]
    · rfl
  simp only [setJsonPassthrough, passedThrough, present, Bool.false_eq_true, if_false]
  split
  · exact ⟨storable, kept⟩
  · cases engine.parse (val.toText engine) with
    | none => exact ⟨storable, kept⟩
    | some parsed =>
      obtain ⟨members, assigned, cells⟩ := assign_storable body key parsed storable
      simp only [assigned]
      exact ⟨Or.inr ⟨members, rfl⟩, cells⟩

/-- On a storable body no column throws on INSERT, and each stores its member. -/
theorem insert_column (body : Json) (allDay : Bool) (name : String) (val : Value)
    (storable : Storable body) : ∃ after flag,
      applyColumn engine body name val allDay false = .ok (after, flag) ∧
      Storable after ∧ Stored engine allDay name val body after := by
  have keyless : insertKey name = none → Stored engine allDay name val body body := by
    intro none other
    simp [none]
  by_cases isId : name = "event_id"
  · subst isId
    obtain ⟨after, applied, object, cells⟩ := assigned_insert engine body
      (.string (val.toText engine)) allDay "event_id" "id" val storable rfl (fun _ => rfl)
    exact ⟨after, true, applied, object, cells⟩
  have sameKey : insertKey name = columnKey name := by simp [insertKey, isId]
  have sameCell : ∀ held, insertedCell engine allDay name val held =
      writtenCell engine allDay name val held := by simp [insertedCell, isId]
  simp only [applyColumn, isId, if_false]
  cases isString : writableStringKeys.lookup name with
  | some key =>
    have keyed : columnKey name = some key := by simp [columnKey, isString]
    obtain ⟨after, applied, rest⟩ :=
      assigned_insert engine body (.string (val.toText engine)) allDay
      name key val storable (sameKey.trans keyed) (by
        intro present
        simp [sameCell, writtenCell, keyed_not_all_day name key keyed, present, isString])
    exact ⟨after, true, applied, rest⟩
  | none =>
    cases isBool : writableBoolKeys.lookup name with
    | some key =>
      have keyed : columnKey name = some key := by simp [columnKey, isString, isBool]
      obtain ⟨after, applied, rest⟩ := assigned_insert engine body (.boolean val.getBoolean) allDay
        name key val storable (sameKey.trans keyed) (by
          intro present
          simp [sameCell, writtenCell, keyed_not_all_day name key keyed, present, isString, isBool])
      exact ⟨after, true, applied, rest⟩
    | none =>
      cases isJson : writableJsonKeys.lookup name with
      | some key =>
        have keyed : columnKey name = some key := by simp [columnKey, isString, isBool, isJson]
        obtain ⟨after, applied, rest⟩ := keyed_insert engine body allDay name key val
          (.ok (setJsonPassthrough engine body key val)) storable (sameKey.trans keyed) (by
            intro present
            obtain ⟨object, cells⟩ := passed_insert engine body key val storable present
            refine ⟨_, rfl, object, ?_⟩
            simpa [sameCell, writtenCell, keyed_not_all_day name key keyed, present, isString,
              isBool, isJson] using cells)
        exact ⟨after, true, applied, rest⟩
      | none =>
        by_cases isTime : name = "start" ∨ name = "end"
        · have keyed : columnKey name = some name := by
            simp [columnKey, isString, isBool, isJson, isTime]
          obtain ⟨after, applied, rest⟩ := assigned_insert engine body (timeNode engine val allDay)
            allDay name name val storable (sameKey.trans keyed) (by
              intro present
              simp [sameCell, writtenCell, keyed_not_all_day name name keyed, present, isString,
                isBool, isJson])
          exact ⟨after, true, by simpa [isTime] using applied, rest⟩
        · have unkeyed : insertKey name = none := by
            simp [sameKey, columnKey, isString, isBool, isJson, isTime]
          by_cases isAllDay : name = "all_day"
          · exact ⟨body, true, by simp [isAllDay], storable, keyless unkeyed⟩
          · exact ⟨body, false, by simp [isTime, isAllDay], storable, keyless unkeyed⟩

/-- A column as an edit of the members. -/
def insertEdit (allDay : Bool) (column : String × Value) : Edit String Json where
  touches key := decide (insertKey column.1 = some key ∧ column.2.isNull = false)
  act _ held := insertedCell engine allDay column.1 column.2 held

/-- The loop over the columns of a row never throws and realizes the edits of its
columns. -/
theorem insert_loop (columns : List (String × Value)) (allDay : Bool) (body : Json)
    (storable : Storable body) : ∃ after,
      columns.foldlM (fun event column => do
        let applied ← applyColumn engine event column.1 column.2 allDay false
        pure applied.1) body = .ok after ∧ Storable after ∧
      ∀ key, after.find key =
        Edit.cellAfter (columns.map (insertEdit engine allDay)) key (body.find key) := by
  induction columns generalizing body with
  | nil => exact ⟨body, rfl, storable, fun _ => rfl⟩
  | cons column rest ih =>
    obtain ⟨next, flag, applied, object, cells⟩ :=
      insert_column engine body allDay column.1 column.2 storable
    obtain ⟨after, looped, afterObject, later⟩ := ih next object
    refine ⟨after, ?_, afterObject, ?_⟩
    · rw [List.foldlM_cons, applied]
      exact looped
    · intro key
      have first : next.find key = (insertEdit engine allDay column).cell key (body.find key) := by
        simp [cells key, Edit.cell, insertEdit]
      rw [later key, first]
      rfl

/-- Building a body from a row never throws. -/
theorem row_to_event_total (names : List String) (row : List Value) :
    ∃ event, rowToEvent engine names row = .ok event ∧ Storable event := by
  obtain ⟨event, built, object, -⟩ :=
    insert_loop engine (names.zip row) (rowAllDay names row) .null (Or.inl rfl)
  exact ⟨event, built, object⟩

/-- Only `event_id` stores a member under `id`. -/
theorem id_key (name : String) (keyed : insertKey name = some "id") : name = "event_id" := by
  by_contra other
  have written : columnKey name = some "id" := by simpa [insertKey, other] using keyed
  have absent : ∀ column ∈ writableKeys, column.2 ≠ "id" := by decide
  exact absent _ (column_key_listed name "id" written) rfl

/-- Different columns store their members under different keys. -/
theorem insert_key_injective (first second key : String) (left : insertKey first = some key)
    (right : insertKey second = some key) : first = second := by
  by_cases isId : key = "id"
  · subst isId
    rw [id_key first left, id_key second right]
  · have written : ∀ name, insertKey name = some key → columnKey name = some key := by
      intro name keyed
      by_cases named : name = "event_id"
      · simp [insertKey, named, Ne.symm isId] at keyed
      · simpa [insertKey, named] using keyed
    exact column_key_injective first second key (written first left) (written second right)

/-- The columns of a row bear names of the table, in order. -/
theorem zipped_names (names : List String) (row : List Value) :
    ((names.zip row).map Prod.fst).Sublist names := by
  induction names generalizing row with
  | nil => exact List.Sublist.refl _
  | cons name rest ih =>
    cases row with
    | nil => exact List.nil_sublist _
    | cons val row => exact (ih row).cons_cons name

/-- The member under a key comes from the column that stores there, when that has a
value. -/
theorem row_event_member (names : List String) (row : List Value) (name key : String)
    (val : Value) (event : Json) (distinct : names.Nodup) (given : (name, val) ∈ names.zip row)
    (keyed : insertKey name = some key) (present : val.isNull = false)
    (built : rowToEvent engine names row = .ok event) :
    event.find key = insertedCell engine (rowAllDay names row) name val none := by
  have zipped : ((names.zip row).map Prod.fst).Nodup := distinct.sublist (zipped_names names row)
  obtain ⟨made, loop, -, cells⟩ :=
    insert_loop engine (names.zip row) (rowAllDay names row) .null (Or.inl rfl)
  obtain rfl : made = event := Except.ok.inj (loop.symm.trans built)
  obtain ⟨before, after, whole⟩ := List.append_of_mem given
  rw [whole] at zipped
  rw [cells key, whole, List.map_append, List.map_cons]
  apply Edit.cell_after_single
  · simp [insertEdit, keyed, present]
  · rw [← List.map_append]
    intro edit member
    obtain ⟨column, listed, rfl⟩ := List.mem_map.mp member
    have other := others_differ before after name val zipped column listed
    simp only [insertEdit, decide_eq_false_iff_not]
    exact fun touched => other (insert_key_injective column.1 name key touched.1 keyed)

/-- No member is stored under a key whose columns are all NULL. -/
theorem row_event_nothing (names : List String) (row : List Value) (key : String) (event : Json)
    (null : ∀ column ∈ names.zip row, insertKey column.1 = some key → column.2.isNull = true)
    (built : rowToEvent engine names row = .ok event) : event.find key = none := by
  obtain ⟨made, loop, -, cells⟩ :=
    insert_loop engine (names.zip row) (rowAllDay names row) .null (Or.inl rfl)
  obtain rfl : made = event := Except.ok.inj (loop.symm.trans built)
  rw [cells key]
  apply Edit.cell_after_untouched
  intro edit member
  obtain ⟨column, listed, rfl⟩ := List.mem_map.mp member
  simp only [insertEdit, decide_eq_false_iff_not]
  rintro ⟨keyed, present⟩
  exact absurd (null column listed keyed) (by simp [present])

/-- A row whose `event_id` is NULL, or that has none, is built without an id. -/
theorem row_event_without_id (names : List String) (row : List Value) (event : Json)
    (null : ∀ val, ("event_id", val) ∈ names.zip row → val.isNull = true)
    (built : rowToEvent engine names row = .ok event) : event.find "id" = none := by
  apply row_event_nothing engine names row "id" event _ built
  rintro ⟨name, val⟩ member keyed
  obtain rfl : name = "event_id" := id_key name keyed
  exact null val member

/-- A row with an `event_id` is built with that id. -/
theorem row_event_id (names : List String) (row : List Value) (val : Value) (event : Json)
    (distinct : names.Nodup) (given : ("event_id", val) ∈ names.zip row)
    (present : val.isNull = false) (built : rowToEvent engine names row = .ok event) :
    event.find "id" = some (.string (val.toText engine)) :=
  row_event_member engine names row "event_id" "id" val event distinct given rfl present built

end GoogleCalendar.RowBody
