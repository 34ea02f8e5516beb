import GoogleCalendar.CatalogRuns

/-!
# DROP TABLE deletes only what the session created

The guard of DROP looks a name up in the table map and then asks whether the id
found there is in the created set. The two structures are rewritten by different
statements, so what makes the guard safe is a relation between the created set
and the history: each id in it was returned by a POST of a calendar, was never
on a page of the calendar list, and has not been deleted. The relation is kept
by every statement, whatever the service answers to it.

Of the service one thing is assumed, as a rule on the record: the id of a new
calendar differs, also up to letter case, from every id that was listed or
returned before.
-/

namespace GoogleCalendar.DropSafety

open Library Library.Traces Exchanges CatalogRuns CalendarCatalog

variable (engine : Engine)

/-- The id of a calendar that the session created and has not deleted. -/
structure Ours (log : List Exchange) (calendarId : String) : Prop where
  returned : ∃ post ∈ log, ∃ given, post.returnedId engine = some given ∧
    lowerCase given = lowerCase calendarId
  standing : ∀ gone ∈ log, ∀ dropped, gone.deletedId = some dropped →
    lowerCase dropped ≠ lowerCase calendarId
  unlisted : ∀ page ∈ log, ∀ listed ∈ page.listedIds engine,
    lowerCase listed ≠ lowerCase calendarId

/-- The rule for deletions: a calendar is asked to be deleted only while it is
one that the session created. -/
def MayDelete (earlier : List Exchange) (exchange : Exchange) : Prop :=
  ∀ calendarId, exchange.deletes = some calendarId → Ours engine earlier calendarId

/-- The assumption on new calendars: their ids are not used before. -/
def FreshId (earlier : List Exchange) (exchange : Exchange) : Prop :=
  ∀ calendarId, exchange.returnedId engine = some calendarId → ∀ other ∈ earlier,
    (∀ listed ∈ other.listedIds engine, lowerCase listed ≠ lowerCase calendarId) ∧
    (∀ given, other.returnedId engine = some given → lowerCase given ≠ lowerCase calendarId)

/-- Freshness is a relation of pairs, so that it can be decided of a record. -/
instance (log : List Exchange) : Decidable (Lawful (FreshId engine) log) :=
  decidable_of_iff (log.Pairwise (fun other exchange => ∀ calendarId ∈ exchange.returnedId engine,
      (∀ listed ∈ other.listedIds engine, lowerCase listed ≠ lowerCase calendarId) ∧
      ∀ given ∈ other.returnedId engine, lowerCase given ≠ lowerCase calendarId)) (by
    rw [← lawful_iff_pairwise]
    refine forall_congr' (fun earlier => forall_congr' (fun exchange => forall_congr' (fun later =>
      forall_congr' (fun split => ⟨?_, ?_⟩))))
    · exact fun apart calendarId returned other member => apart other member calendarId returned
    · exact fun apart other member calendarId returned => apart calendarId returned other member)

/-- A calendar stays the session's own while no exchange deletes or lists it. -/
theorem ours_append (log more : List Exchange) (calendarId : String)
    (ours : Ours engine log calendarId)
    (untouched : ∀ exchange ∈ more, (∀ dropped, exchange.deletedId = some dropped →
        lowerCase dropped ≠ lowerCase calendarId) ∧ exchange.listedIds engine = []) :
    Ours engine (log ++ more) calendarId := by
  constructor
  · obtain ⟨post, member, returned⟩ := ours.returned
    exact ⟨post, List.mem_append_left more member, returned⟩
  · intro gone member
    cases List.mem_append.mp member with
    | inl before => exact ours.standing gone before
    | inr here => exact (untouched gone here).1
  · intro page member listed
    cases List.mem_append.mp member with
    | inl before => exact ours.unlisted page before listed
    | inr here => simp [(untouched page here).2]

/-- Only the folded id matters. -/
theorem ours_congr (log : List Exchange) (calendarId other : String)
    (same : lowerCase calendarId = lowerCase other) (ours : Ours engine log calendarId) :
    Ours engine log other := by
  obtain ⟨returned, standing, unlisted⟩ := ours
  rw [same] at returned standing unlisted
  exact ⟨returned, standing, unlisted⟩

/-- An exchange that asks for no deletion has deleted nothing. -/
theorem undeleted_of_not_deletes (exchange : Exchange) (none : exchange.deletes = none)
    (dropped : String) : exchange.deletedId ≠ some dropped := by
  intro deleted
  have asked := exchange.deleted_deletes dropped deleted
  simp [none] at asked

/-- An id that is new in a lawful record is the session's own once returned. -/
theorem ours_of_returned (log refused : List Exchange) (post : Exchange) (calendarId : String)
    (lawful : Lawful (MayDelete engine) log)
    (early : ∀ exchange ∈ refused, exchange.Idle engine)
    (returned : post.returnedId engine = some calendarId)
    (fresh : FreshId engine (log ++ refused) post) :
    Ours engine (log ++ (refused ++ [post])) calendarId := by
  have new := fresh calendarId returned
  obtain ⟨unlistedPost, undeletedPost⟩ := post.returned_only engine calendarId returned
  refine ⟨⟨post, by simp, calendarId, returned, rfl⟩, ?_, ?_⟩
  · intro gone member dropped deleted
    have asked := gone.deleted_deletes dropped deleted
    cases List.mem_append.mp member with
    | inl before =>
      obtain ⟨earlier, later, split⟩ := List.append_of_mem before
      obtain ⟨source, held, given, origin, same⟩ :=
        (lawful earlier gone later split dropped asked).returned
      have apart := (new source (by simp [split, held])).2 given origin
      rwa [← same]
    | inr here =>
      cases List.mem_append.mp here with
      | inl idle => simp [(early gone idle).deletes] at asked
      | inr last =>
        obtain rfl := List.mem_singleton.mp last
        simp [undeletedPost] at asked
  · intro page member listed named
    cases List.mem_append.mp member with
    | inl before => exact (new page (by simp [before])).1 listed named
    | inr here =>
      cases List.mem_append.mp here with
      | inl idle => simp [(early page idle).listed] at named
      | inr last =>
        obtain rfl := List.mem_singleton.mp last
        simp [unlistedPost] at named

/-- What ties the created set to the history. -/
structure Guarded (catalog : CalendarCatalog) (log : List Exchange) : Prop where
  lawful : Lawful (MayDelete engine) log
  created : ∀ calendarId, catalog.wasCreatedThisSession calendarId = true →
    Ours engine log calendarId

/-- Exchanges that neither create nor delete keep the session guarded. -/
theorem guarded_idle (catalog : CalendarCatalog) (log more : List Exchange)
    (guarded : Guarded engine catalog log) (idle : ∀ exchange ∈ more, exchange.Idle engine) :
    Guarded engine catalog (log ++ more) where
  lawful := lawful_extend _ log more guarded.lawful (by
    intro exchange member earlier calendarId asked
    simp [(idle exchange member).deletes] at asked)
  created calendarId created := ours_append engine log more calendarId
    (guarded.created calendarId created) (fun exchange member =>
      ⟨fun dropped deleted =>
        absurd deleted (undeleted_of_not_deletes exchange (idle exchange member).deletes dropped),
        (idle exchange member).listed⟩)

/-- A calendar that is marked is created, and the others as before. -/
theorem created_mark (catalog : CalendarCatalog) (entry : CalendarTableEntry)
    (calendarId other : String) :
    ((catalog.addTable entry).markCreatedThisSession calendarId).wasCreatedThisSession
      other = true ↔
      lowerCase other = lowerCase calendarId ∨ catalog.wasCreatedThisSession other = true := by
  by_cases same : lowerCase other = lowerCase calendarId <;>
    simp [wasCreatedThisSession, markCreatedThisSession, addTable, FoldedMap.contains,
      FoldedMap.find_assign, same]

/-- A calendar that is forgotten is not created, and the others as before. -/
theorem created_forget (catalog : CalendarCatalog) (calendarId other : String) :
    (catalog.forgetCreatedThisSession calendarId).wasCreatedThisSession other = true ↔
      lowerCase other ≠ lowerCase calendarId ∧ catalog.wasCreatedThisSession other = true := by
  by_cases same : lowerCase other = lowerCase calendarId <;>
    simp [wasCreatedThisSession, forgetCreatedThisSession, FoldedMap.contains,
      FoldedMap.find_erase, same]

/-- Attempts to delete a calendar of the session that did not succeed leave it
the session's own, so that each of them was allowed. -/
theorem guarded_attempts (catalog : CalendarCatalog) (log more : List Exchange)
    (calendarId : String) (guarded : Guarded engine catalog log)
    (created : catalog.wasCreatedThisSession calendarId = true)
    (failed : ∀ exchange ∈ more,
      exchange.deletes = some calendarId ∧ exchange.deletedId = none) :
    Guarded engine catalog (log ++ more) := by
  have untouched : ∀ other, ∀ exchange ∈ more, (∀ dropped, exchange.deletedId = some dropped →
      lowerCase dropped ≠ lowerCase other) ∧ exchange.listedIds engine = [] := by
    intro other exchange member
    obtain ⟨asked, undeleted⟩ := failed exchange member
    exact ⟨by simp [undeleted], (exchange.deletes_only engine calendarId asked).2⟩
  refine ⟨(lawful_append_iff _ log more).mpr ⟨guarded.lawful, ?_⟩, ?_⟩
  · rintro earlier exchange later rfl other asked
    obtain rfl : calendarId = other := by
      simpa [(failed exchange (by simp)).1] using asked
    exact ours_append engine log earlier calendarId (guarded.created calendarId created)
      (fun before member => untouched calendarId before (by simp [member]))
  · intro other held
    exact ours_append engine log more other (guarded.created other held) (untouched other)

variable {σ : Type} (retrying : RetryingHttpClient σ) (headers : HttpHeaders) (baseUrl : String)

/-- Every statement keeps the relation, as long as new ids are fresh. -/
theorem guarded_step (statement : Statement) (catalog next : CalendarCatalog)
    (state : σ × List Exchange) (record : List Exchange)
    (step : Step engine retrying headers baseUrl statement catalog state next record)
    (fresh : Lawful (FreshId engine) record) (guarded : Guarded engine catalog state.2) :
    Guarded engine next record := by
  cases step with
  | idle _ _ _ more idle => exact guarded_idle engine catalog state.2 more guarded idle
  | created orReplace table columns rows _ _ refused post filling created free valid accepted early
      returned late =>
    have new : FreshId engine (state.2 ++ refused) post :=
      fresh (state.2 ++ refused) post filling (by simp)
    have owned := ours_of_returned engine state.2 refused post created.id guarded.lawful early
      returned new
    have quiet : ∀ exchange ∈ refused ++ [post],
        exchange.listedIds engine = [] ∧ exchange.deletes = none := by
      intro exchange member
      cases List.mem_append.mp member with
      | inl idle => exact ⟨(early exchange idle).listed, (early exchange idle).deletes⟩
      | inr last =>
        obtain rfl := List.mem_singleton.mp last
        exact exchange.returned_only engine created.id returned
    have posted : Guarded engine ((catalog.addTable ⟨table, created.id⟩).markCreatedThisSession
        created.id) (state.2 ++ (refused ++ [post])) := by
      refine ⟨lawful_extend _ state.2 _ guarded.lawful ?_, ?_⟩
      · intro exchange member earlier other asked
        simp [(quiet exchange member).2] at asked
      · intro other held
        rcases (created_mark catalog ⟨table, created.id⟩ created.id other).mp held
          with same | before
        · exact ours_congr engine _ created.id other same.symm owned
        · exact ours_append engine state.2 _ other (guarded.created other before)
            (fun exchange member => ⟨fun dropped deleted => absurd deleted
              (undeleted_of_not_deletes exchange (quiet exchange member).2 dropped),
              (quiet exchange member).1⟩)
    have filled := guarded_idle engine _ _ filling posted late
    simpa using filled
  | dropped info table _ _ refused deletion found created early done =>
    have attempted := guarded_attempts engine catalog state.2 refused table.calendarId guarded
      created early
    have asked := deletion.deleted_deletes table.calendarId done
    rw [← List.append_assoc]
    refine ⟨(lawful_snoc_iff _ _ _).mpr ⟨attempted.lawful, ?_⟩, ?_⟩
    · intro other wanted
      obtain rfl : table.calendarId = other := by simpa [asked] using wanted
      exact attempted.created table.calendarId created
    · intro other held
      obtain ⟨apart, before⟩ := (created_forget catalog table.calendarId other).mp held
      apply ours_append engine _ _ other (attempted.created other before)
      intro exchange member
      obtain rfl := List.mem_singleton.mp member
      refine ⟨?_, (exchange.deletes_only engine table.calendarId asked).2⟩
      intro dropped deleted
      obtain rfl : table.calendarId = dropped := by simpa [done] using deleted
      exact fun same => apart same.symm
  | kept info table _ _ more found created failed =>
    exact guarded_attempts engine catalog state.2 more table.calendarId guarded created failed

/-- A failed DROP leaves the catalog as it was. -/
theorem drop_error_keeps (client : GoogleCalendarClient σ) (catalog : CalendarCatalog)
    (info : DropInfo) (state : σ) (error : Exception)
    (failed : (dropEntry client catalog info state).1 = .error error) :
    (dropEntry client catalog info state).2.1 = catalog := by
  simp only [dropEntry] at failed ⊢
  split
  · rfl
  · split
    · split <;> rfl
    · split
      · rfl
      · split
        · rfl
        · simp_all

/-- A record that extends a lawful one by statements was lawful before them. -/
theorem fresh_before (statement : Statement) (catalog next : CalendarCatalog)
    (state : σ × List Exchange) (record : List Exchange)
    (step : Step engine retrying headers baseUrl statement catalog state next record)
    (fresh : Lawful (FreshId engine) record) : Lawful (FreshId engine) state.2 := by
  obtain ⟨more, rfl⟩ := step_extends engine retrying headers baseUrl statement catalog next state
    record step
  exact ((lawful_append_iff _ state.2 more).mp fresh).1

/-- In a session with fresh ids the relation holds after every statement. -/
theorem guarded_run (loaded : CalendarCatalog) (state : σ × List Exchange)
    (start : Guarded engine loaded state.2) (statements : List Statement)
    (fresh : Lawful (FreshId engine)
      (reached engine retrying headers baseUrl loaded state statements).2.2) :
    Guarded engine (reached engine retrying headers baseUrl loaded state statements).1
      (reached engine retrying headers baseUrl loaded state statements).2.2 :=
  run_invariant engine retrying headers baseUrl (fun _ _ _ => True)
    (fun catalog log => Lawful (FreshId engine) log → Guarded engine catalog log)
    (fun statement catalog state next record _ step guarded fresh =>
      guarded_step engine retrying headers baseUrl statement catalog next state record step fresh
        (guarded (fresh_before engine retrying headers baseUrl statement catalog next state record
          step fresh)))
    loaded state (fun _ => start) statements (fun _ _ _ _ => trivial) fresh

/-- Loading a catalog deletes nothing, whether or not it succeeds. -/
theorem lawful_loading (fuel : Nat) (catalog : CalendarCatalog) (state : σ)
    (outcome : Except Exception CalendarCatalog) (after : σ × List Exchange)
    (loading : loadCatalog engine (recordedClient retrying headers baseUrl) fuel catalog
      (state, []) = some (outcome, after)) :
    Lawful (MayDelete engine) after.2 := by
  obtain ⟨more, grown, listing⟩ := load_catalog_listing engine retrying headers baseUrl fuel catalog
    (state, []) outcome after loading
  rw [grown]
  refine lawful_extend _ [] more (lawful_nil _) ?_
  intro exchange member earlier calendarId asked
  simp [(listing exchange member).deletes] at asked

/-- A catalog that is loaded has created nothing. -/
theorem guarded_loaded (fuel : Nat) (aliases : CaseInsensitiveMap String) (state : σ)
    (loaded : CalendarCatalog) (after : σ × List Exchange)
    (loading : loadCatalog engine (recordedClient retrying headers baseUrl) fuel
      ⟨aliases, .empty, .empty⟩ (state, []) = some (.ok loaded, after)) :
    Guarded engine loaded after.2 := by
  refine ⟨lawful_loading engine retrying headers baseUrl fuel _ state _ after loading, ?_⟩
  intro calendarId created
  obtain ⟨more, -, rfl⟩ := load_catalog_ok engine retrying headers baseUrl fuel _ loaded _ after
    loading
  simp [wasCreatedThisSession, mount_all_keeps, FoldedMap.contains] at created

/-- The canned answers of a session that lists one calendar and creates and
drops another. -/
def tripsAnswers : List HttpResponse := [⟨200, "page"⟩, ⟨200, "created"⟩, ⟨204, ""⟩]

/-- A calendar that is listed, and one that will be created. -/
def tripsEngine : Engine := .reading []
  [("page", .object [("items", .array [.object [("id", .string "me")]])]),
    ("created", .object [("id", .string "c1")])]

/-- A client with canned answers. -/
def cannedRetrying : RetryingHttpClient (List HttpResponse) :=
  ⟨mockHttpClient, { zeroSleep := true }, fun _ responses => responses⟩

/-- A table is created, and its name is dropped. -/
def tripsStatements : List Statement :=
  [.createTableAs false "trips" eventsColumns [], .dropTable ⟨.tableEntry, "trips", false⟩]

/-- What such a session sends and receives. -/
def tripsRecord : List Exchange :=
  [⟨⟨.get, "", .calendarList "", [], none⟩, .ok ⟨200, "page"⟩⟩,
    ⟨⟨.post, "", .calendars, [], some (.object [("summary", .string "trips")])⟩,
      .ok ⟨200, "created"⟩⟩,
    ⟨⟨.del, "", .calendar "c1", [], none⟩, .ok ⟨204, ""⟩⟩]

end GoogleCalendar.DropSafety
