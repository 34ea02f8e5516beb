import GoogleCalendar.DropSafety

/-!
# Which tables stay in the catalog

A table is registered by assigning it to its name, whatever stood under the name
before. Nothing is lost while each name is given only once. There are two ways
to give it twice: an alias that is, up to letter case, the id of another listed
calendar, and CREATE OR REPLACE for a name that is taken. Both are stated on
what the run is given, and without them every calendar that the session created
has a table and every table that was mounted keeps its calendar. With either of
them something is lost, so the conditions are exact.

The proof keeps account of where each table comes from: the session created its
calendar, and then no other table has it, or the enumeration mounted it.
-/

namespace GoogleCalendar.MountedTables

open Library Library.Traces Exchanges CatalogRuns DropSafety CalendarCatalog

/-- Each calendar in the created set has a table, and each table that was
mounted is found under its name with the calendar it was mounted for. -/
structure NothingLost (mounted : List (String × String)) (catalog : CalendarCatalog) : Prop where
  created : ∀ calendarId, catalog.wasCreatedThisSession calendarId = true →
    ∃ name entry, catalog.tables.find name = some entry ∧
      lowerCase entry.calendarId = lowerCase calendarId
  mounted : ∀ mount ∈ mounted, ∃ entry, catalog.tables.find mount.1 = some entry ∧
    entry.calendarId = mount.2

/-- No name is mounted for two calendars. -/
def Unambiguous (mounted : List (String × String)) : Prop :=
  ∀ mount ∈ mounted, ∀ other ∈ mounted, lowerCase mount.1 = lowerCase other.1 → mount.2 = other.2

/-- What a name leads to after a table is added. -/
theorem find_add (catalog : CalendarCatalog) (entry : CalendarTableEntry) (name : String) :
    (catalog.addTable entry).tables.find name =
      if lowerCase name = lowerCase entry.name then some entry else catalog.tables.find name :=
  FoldedMap.find_assign catalog.tables entry.name name entry

/-- A table of a catalog with tables mounted on it was mounted or was there. -/
theorem mount_all_origin (tables : List (String × String)) (catalog : CalendarCatalog)
    (name : String) (entry : CalendarTableEntry)
    (found : (mountAll tables catalog).tables.find name = some entry) :
    (∃ mount ∈ tables, lowerCase mount.1 = lowerCase name ∧ mount.2 = entry.calendarId) ∨
      catalog.tables.find name = some entry := by
  induction tables generalizing catalog with
  | nil => exact Or.inr found
  | cons mount rest ih =>
    rcases ih (catalog.addTable ⟨mount.1, mount.2⟩) found with ⟨other, member, origin⟩ | before
    · exact Or.inl ⟨other, List.mem_cons_of_mem mount member, origin⟩
    · rw [find_add] at before
      split at before
      · rename_i same
        obtain rfl := Option.some.inj before
        exact Or.inl ⟨mount, List.mem_cons_self, same.symm, rfl⟩
      · exact Or.inr before

/-- Mounting takes no name away. -/
theorem mount_all_keeps_name (tables : List (String × String)) (catalog : CalendarCatalog)
    (name : String) (present : (catalog.tables.find name).isSome = true) :
    ((mountAll tables catalog).tables.find name).isSome = true := by
  induction tables generalizing catalog with
  | nil => exact present
  | cons mount rest ih =>
    refine ih (catalog.addTable ⟨mount.1, mount.2⟩) ?_
    rw [find_add]
    split
    · rfl
    · exact present

/-- A name that is mounted leads to a table. -/
theorem mount_all_found (tables : List (String × String)) (catalog : CalendarCatalog)
    (mount : String × String) (member : mount ∈ tables) :
    ((mountAll tables catalog).tables.find mount.1).isSome = true := by
  induction tables generalizing catalog with
  | nil => simp at member
  | cons first rest ih =>
    rcases List.mem_cons.mp member with rfl | later
    · refine mount_all_keeps_name rest (catalog.addTable ⟨mount.1, mount.2⟩) mount.1 ?_
      simp [find_add]
    · exact ih (catalog.addTable ⟨first.1, first.2⟩) later

/-- The enumeration loses nothing just when its names are unambiguous. -/
theorem mounted_iff_unambiguous (tables : List (String × String))
    (aliases : CaseInsensitiveMap String) :
    NothingLost tables (mountAll tables ⟨aliases, .empty, .empty⟩) ↔ Unambiguous tables := by
  constructor
  · intro held mount member other also same
    obtain ⟨entry, found, calendar⟩ := held.mounted mount member
    obtain ⟨twin, foundTwin, calendarTwin⟩ := held.mounted other also
    rw [FoldedMap.find_congr _ mount.1 other.1 same, foundTwin] at found
    obtain rfl := Option.some.inj found
    rw [← calendar, ← calendarTwin]
  · intro unambiguous
    constructor
    · intro calendarId created
      simp [wasCreatedThisSession, mount_all_keeps, FoldedMap.contains] at created
    · intro mount member
      obtain ⟨entry, found⟩ := Option.isSome_iff_exists.mp
        (mount_all_found tables ⟨aliases, .empty, .empty⟩ mount member)
      rcases mount_all_origin tables _ mount.1 entry found with ⟨other, also, same, calendar⟩ | none
      · exact ⟨entry, found, calendar.symm.trans (unambiguous other also mount member same)⟩
      · simp at none

/-- An account of the tables: nothing is lost, each table was mounted or is of a
calendar in the created set, and no two tables share such a calendar. -/
structure Accounted (mounted : List (String × String)) (catalog : CalendarCatalog) : Prop where
  held : NothingLost mounted catalog
  origin : ∀ name entry, catalog.tables.find name = some entry →
    catalog.wasCreatedThisSession entry.calendarId = true ∨
      ∃ mount ∈ mounted, lowerCase mount.1 = lowerCase name ∧ mount.2 = entry.calendarId
  single : ∀ name other entry twin, catalog.tables.find name = some entry →
    catalog.tables.find other = some twin →
    catalog.wasCreatedThisSession entry.calendarId = true →
    lowerCase entry.calendarId = lowerCase twin.calendarId → lowerCase name = lowerCase other

section Statements

variable (mounted : List (String × String)) (catalog : CalendarCatalog)

/-- What a session's new table leaves to be found under a name. -/
theorem find_created (table calendarId name : String) :
    ((catalog.addTable ⟨table, calendarId⟩).markCreatedThisSession calendarId).tables.find name =
      if lowerCase name = lowerCase table then some ⟨table, calendarId⟩
      else catalog.tables.find name :=
  find_add catalog ⟨table, calendarId⟩ name

/-- A new name for a new calendar keeps the account. -/
theorem accounted_create (accounted : Accounted mounted catalog) (table calendarId : String)
    (absent : catalog.tables.find table = none)
    (apart : ∀ name entry, catalog.tables.find name = some entry →
      lowerCase entry.calendarId ≠ lowerCase calendarId) :
    Accounted mounted
      ((catalog.addTable ⟨table, calendarId⟩).markCreatedThisSession calendarId) := by
  have other : ∀ name entry, catalog.tables.find name = some entry →
      lowerCase name ≠ lowerCase table := by
    intro name entry found same
    rw [FoldedMap.find_congr _ name table same, absent] at found
    simp at found
  have stays : ∀ name entry, catalog.tables.find name = some entry →
      ((catalog.addTable ⟨table, calendarId⟩).markCreatedThisSession calendarId).tables.find name =
        some entry := by
    intro name entry found
    rw [find_created, if_neg (other name entry found), found]
  refine ⟨⟨?_, ?_⟩, ?_, ?_⟩
  · intro id created
    cases (created_mark catalog ⟨table, calendarId⟩ calendarId id).mp created with
    | inl new => exact ⟨table, ⟨table, calendarId⟩, by simp [find_created], new.symm⟩
    | inr before =>
      obtain ⟨name, entry, found, same⟩ := accounted.held.created id before
      exact ⟨name, entry, stays name entry found, same⟩
  · intro mount member
    obtain ⟨entry, found, calendar⟩ := accounted.held.mounted mount member
    exact ⟨entry, stays mount.1 entry found, calendar⟩
  · intro name entry found
    rw [find_created] at found
    split at found
    · obtain rfl := Option.some.inj found
      exact Or.inl ((created_mark catalog _ calendarId calendarId).mpr (Or.inl rfl))
    · cases accounted.origin name entry found with
      | inl created =>
        exact Or.inl ((created_mark catalog _ calendarId entry.calendarId).mpr (Or.inr created))
      | inr mount => exact Or.inr mount
  · intro name twinName entry twin found foundTwin created same
    rw [find_created] at found foundTwin
    split at found <;> split at foundTwin
    · rename_i here there
      exact here.trans there.symm
    · obtain rfl := Option.some.inj found
      exact absurd same.symm (apart twinName twin foundTwin)
    · obtain rfl := Option.some.inj foundTwin
      exact absurd same (apart name entry found)
    · rcases (created_mark catalog ⟨table, calendarId⟩ calendarId entry.calendarId).mp created with
        new | before
      · exact absurd new (apart name entry found)
      · exact accounted.single name twinName entry twin found foundTwin before same

/-- Dropping the table of a calendar that was not mounted keeps the account. -/
theorem accounted_drop (accounted : Accounted mounted catalog) (name : String)
    (table : CalendarTableEntry) (found : catalog.tables.find name = some table)
    (created : catalog.wasCreatedThisSession table.calendarId = true)
    (unmounted : ∀ mount ∈ mounted, mount.2 ≠ table.calendarId) :
    Accounted mounted { catalog.forgetCreatedThisSession table.calendarId with
      tables := catalog.tables.erase name } := by
  have rest : ∀ other entry, catalog.tables.find other = some entry →
      lowerCase other ≠ lowerCase name →
      (catalog.tables.erase name).find other = some entry := by
    intro other entry there apart
    rw [FoldedMap.find_erase, if_neg apart, there]
  have under : ∀ other entry, catalog.tables.find other = some entry →
      lowerCase other = lowerCase name → entry = table := by
    intro other entry there same
    rw [FoldedMap.find_congr _ other name same, found] at there
    exact (Option.some.inj there).symm
  have before : ∀ other entry, (catalog.tables.erase name).find other = some entry →
      lowerCase other ≠ lowerCase name ∧ catalog.tables.find other = some entry := by
    intro other entry there
    rw [FoldedMap.find_erase] at there
    split at there
    · simp at there
    · exact ⟨‹_›, there⟩
  refine ⟨⟨?_, ?_⟩, ?_, ?_⟩
  · intro id held
    obtain ⟨apart, held⟩ := (created_forget catalog table.calendarId id).mp held
    obtain ⟨other, entry, there, same⟩ := accounted.held.created id held
    refine ⟨other, entry, rest other entry there (fun equal => ?_), same⟩
    obtain rfl := under other entry there equal
    exact apart same.symm
  · intro mount member
    obtain ⟨entry, there, calendar⟩ := accounted.held.mounted mount member
    refine ⟨entry, rest mount.1 entry there (fun equal => ?_), calendar⟩
    obtain rfl := under mount.1 entry there equal
    exact unmounted mount member calendar.symm
  · intro other entry there
    obtain ⟨apart, there⟩ := before other entry there
    cases accounted.origin other entry there with
    | inl held =>
      refine Or.inl ((created_forget catalog table.calendarId entry.calendarId).mpr ⟨?_, held⟩)
      exact fun same => apart (accounted.single other name entry table there found held same)
    | inr mount => exact Or.inr mount
  · intro other twinName entry twin there twinThere held same
    exact accounted.single other twinName entry twin (before other entry there).2
      (before twinName twin twinThere).2
      ((created_forget catalog table.calendarId entry.calendarId).mp held).2 same

/-- Taking the name of a table for a new calendar loses that table's calendar. -/
theorem replaced_lost (accounted : Accounted mounted catalog) (table calendarId : String)
    (old : CalendarTableEntry) (found : catalog.tables.find table = some old)
    (apart : lowerCase old.calendarId ≠ lowerCase calendarId) :
    ¬ NothingLost mounted
      ((catalog.addTable ⟨table, calendarId⟩).markCreatedThisSession calendarId) := by
  intro held
  rcases accounted.origin table old found with created | ⟨mount, member, same, calendar⟩
  · obtain ⟨name, entry, there, equal⟩ := held.created old.calendarId
      ((created_mark catalog _ calendarId old.calendarId).mpr (Or.inr created))
    rw [find_created] at there
    split at there
    · obtain rfl := Option.some.inj there
      exact apart equal.symm
    · rename_i elsewhere
      exact elsewhere (accounted.single table name old entry found there created equal.symm).symm
  · obtain ⟨entry, there, kept⟩ := held.mounted mount member
    rw [find_created, if_pos same] at there
    obtain rfl := Option.some.inj there
    exact apart (congrArg lowerCase (calendar.symm.trans kept.symm))

end Statements

variable {σ : Type} (engine : Engine) (retrying : RetryingHttpClient σ) (headers : HttpHeaders)
  (baseUrl : String)

/-- A CREATE OR REPLACE TABLE ... AS that names a table of the catalog, whose
columns pass and whose calendar is created. -/
def Replaces (catalog : CalendarCatalog) (state : σ × List Exchange) : Statement → Prop
  | .createTableAs orReplace table columns _ =>
      orReplace = true ∧ catalog.tables.contains table = true ∧
      validateEventsColumns columns = .ok () ∧
      ∃ created, (CalendarsResource.insert engine (recordedClient retrying headers baseUrl) table
        state).1 = .ok created
  | .dropTable _ => False

/-- What a session keeps: its guard, the account of its tables and the listing
of every calendar that was mounted. -/
structure Kept (mounted : List (String × String)) (catalog : CalendarCatalog)
    (log : List Exchange) : Prop where
  guarded : Guarded engine catalog log
  listed : ∀ mount ∈ mounted, ∃ page ∈ log, mount.2 ∈ page.listedIds engine
  accounted : Accounted mounted catalog

/-- A new calendar has no table yet. -/
theorem new_id_apart (mounted : List (String × String)) (catalog : CalendarCatalog)
    (log refused : List Exchange) (post : Exchange) (calendarId : String)
    (kept : Kept engine mounted catalog log) (returned : post.returnedId engine = some calendarId)
    (fresh : FreshId engine (log ++ refused) post) (name : String) (entry : CalendarTableEntry)
    (found : catalog.tables.find name = some entry) :
    lowerCase entry.calendarId ≠ lowerCase calendarId := by
  have new := fresh calendarId returned
  rcases kept.accounted.origin name entry found with created | ⟨mount, member, -, calendar⟩
  · obtain ⟨source, held, given, origin, same⟩ :=
      (kept.guarded.created entry.calendarId created).returned
    rw [← same]
    exact (new source (by simp [held])).2 given origin
  · obtain ⟨page, held, named⟩ := kept.listed mount member
    rw [← calendar]
    exact (new page (by simp [held])).1 mount.2 named

/-- Every statement that takes no table's name keeps all of it. -/
theorem kept_step (mounted : List (String × String)) (statement : Statement)
    (catalog next : CalendarCatalog) (state : σ × List Exchange) (record : List Exchange)
    (step : Step engine retrying headers baseUrl statement catalog state next record)
    (fresh : Lawful (FreshId engine) record)
    (spared : ¬ Replaces engine retrying headers baseUrl catalog state statement)
    (kept : Kept engine mounted catalog state.2) : Kept engine mounted next record := by
  have guarded := guarded_step engine retrying headers baseUrl statement catalog next state record
    step fresh kept.guarded
  have listed : ∀ mount ∈ mounted, ∃ page ∈ record, mount.2 ∈ page.listedIds engine := by
    obtain ⟨more, grown⟩ := step_extends engine retrying headers baseUrl statement catalog next
      state record step
    intro mount member
    obtain ⟨page, held, named⟩ := kept.listed mount member
    exact ⟨page, by simp [grown, held], named⟩
  refine ⟨guarded, listed, ?_⟩
  cases step with
  | idle _ _ _ more idle => exact kept.accounted
  | created orReplace table columns rows _ _ refused post filling created free valid accepted early
      returned late =>
    have absent : catalog.tables.contains table = false := by
      cases free with
      | inl replaces =>
        by_contra present
        exact spared ⟨replaces, by simpa using present, valid, created, accepted⟩
      | inr absent => exact absent
    have new : FreshId engine (state.2 ++ refused) post :=
      fresh (state.2 ++ refused) post filling (by simp)
    exact accounted_create mounted catalog kept.accounted table created.id
      (by simpa [FoldedMap.contains] using absent)
      (new_id_apart engine mounted catalog state.2 refused post created.id kept returned new)
  | dropped info table _ _ refused deletion found created early done =>
    apply accounted_drop mounted catalog kept.accounted info.name table found created
    intro mount member same
    obtain ⟨page, held, named⟩ := kept.listed mount member
    exact (kept.guarded.created table.calendarId created).unlisted page held mount.2 named
      (congrArg lowerCase same)
  | kept info table _ _ more found created failed => exact kept.accounted

/-- A statement that takes a table's name loses a calendar. -/
theorem replaces_loses (mounted : List (String × String)) (statement : Statement)
    (catalog : CalendarCatalog) (state : σ × List Exchange)
    (kept : Kept engine mounted catalog state.2)
    (replaces : Replaces engine retrying headers baseUrl catalog state statement) :
    let outcome := statement.run engine (recordedClient retrying headers baseUrl) catalog state
    Lawful (FreshId engine) outcome.2.2.2 → ¬ NothingLost mounted outcome.2.1 := by
  cases statement with
  | dropTable info => exact replaces.elim
  | createTableAs orReplace table columns rows =>
    obtain ⟨orReplaces, present, valid, created, accepted⟩ := replaces
    intro outcome fresh
    obtain ⟨refused, post, filling, next, record, -, returned, -⟩ := create_table_created engine
      retrying headers baseUrl orReplace table columns rows catalog state _ created
      (Or.inl orReplaces) valid (Prod.ext accepted rfl)
    have new : FreshId engine (state.2 ++ refused) post :=
      fresh (state.2 ++ refused) post filling (by simp [outcome, record])
    obtain ⟨old, found⟩ := Option.isSome_iff_exists.mp present
    simp only [outcome, next]
    exact replaced_lost mounted catalog kept.accounted table created.id old found
      (new_id_apart engine mounted catalog state.2 refused post created.id kept returned new table
        old found)

/-- No statement of a run takes a table's name. -/
def SparesTables (loaded : CalendarCatalog) (state : σ × List Exchange)
    (statements : List Statement) : Prop :=
  Lawful (fun earlier statement => ¬ Replaces engine retrying headers baseUrl
    (reached engine retrying headers baseUrl loaded state earlier).1
    (reached engine retrying headers baseUrl loaded state earlier).2 statement) statements

/-- A run that spares the tables keeps them mounted. -/
theorem kept_run (mounted : List (String × String)) (loaded : CalendarCatalog)
    (state : σ × List Exchange) (start : Kept engine mounted loaded state.2)
    (statements : List Statement)
    (spares : SparesTables engine retrying headers baseUrl loaded state statements)
    (fresh : Lawful (FreshId engine)
      (reached engine retrying headers baseUrl loaded state statements).2.2) :
    Kept engine mounted (reached engine retrying headers baseUrl loaded state statements).1
      (reached engine retrying headers baseUrl loaded state statements).2.2 :=
  run_invariant engine retrying headers baseUrl
    (fun catalog state statement => ¬ Replaces engine retrying headers baseUrl catalog
      state statement)
    (fun catalog log => Lawful (FreshId engine) log → Kept engine mounted catalog log)
    (fun statement catalog state next record spared step kept fresh =>
      kept_step engine retrying headers baseUrl mounted statement catalog next state record step
        fresh spared (kept (fresh_before engine retrying headers baseUrl statement catalog next
          state record step fresh)))
    loaded state (fun _ => start) statements spares fresh

/-- With unambiguous names everything is kept when the catalog is loaded. -/
theorem kept_loaded (fuel : Nat) (aliases : CaseInsensitiveMap String) (state : σ)
    (loaded : CalendarCatalog) (after : σ × List Exchange)
    (loading : loadCatalog engine (recordedClient retrying headers baseUrl) fuel
      ⟨aliases, .empty, .empty⟩ (state, []) = some (.ok loaded, after)) :
    let mounted := mounts ⟨aliases, .empty, .empty⟩ (after.2.flatMap (Exchange.listedIds engine))
    (Unambiguous mounted ↔ NothingLost mounted loaded) ∧
      (Unambiguous mounted → Kept engine mounted loaded after.2) := by
  intro mounted
  have guarded := guarded_loaded engine retrying headers baseUrl fuel aliases state loaded after
    loading
  obtain ⟨more, grown, loads⟩ := load_catalog_ok engine retrying headers baseUrl fuel _ loaded _
    after loading
  have whole : loaded = mountAll mounted ⟨aliases, .empty, .empty⟩ := by
    simp only [mounted, grown, loads, List.nil_append]
  have exact_names := mounted_iff_unambiguous mounted aliases
  rw [← whole] at exact_names
  refine ⟨exact_names.symm, fun unambiguous => ⟨guarded, ?_, exact_names.mpr unambiguous, ?_, ?_⟩⟩
  · intro mount member
    obtain ⟨calendarId, listed, names⟩ := List.mem_flatMap.mp member
    obtain ⟨name, -, rfl⟩ := List.mem_map.mp names
    exact List.mem_flatMap.mp listed
  · intro name entry found
    rw [whole] at found
    cases mount_all_origin mounted _ name entry found with
    | inl mount => exact Or.inr mount
    | inr none => simp at none
  · intro name other entry twin _ _ created
    rw [whole] at created
    simp [wasCreatedThisSession, mount_all_keeps, FoldedMap.contains] at created

/-- A calendar that is listed, and two that will be created. -/
def replacingEngine : Engine := .reading []
  [("page", .object [("items", .array [.object [("id", .string "me")]])]),
    ("first", .object [("id", .string "c1")]), ("second", .object [("id", .string "c2")])]

end GoogleCalendar.MountedTables
