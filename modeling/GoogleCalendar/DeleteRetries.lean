import GoogleCalendar.CalendarDelete
import GoogleCalendar.CalendarCatalog

/-!
# Deletions under retries

Deleting an event and dropping a calendar rest on the same request and the same
reading of its answer: 200 and 204 are success and every other status is an
error. The retry loop returns its last answer, so that answer alone decides what
the statement reports and whether the local state follows. When an attempt was
applied although its answer asked for a repetition, the repetition finds nothing
to delete; its 404 is an error like any other.
-/

namespace GoogleCalendar.DeleteRetries

open Library EventMapping CalendarDelete CalendarCatalog

variable {σ : Type} (engine : Engine) (retrying : RetryingHttpClient σ) (headers : HttpHeaders)
  (baseUrl : String)

/-- Whether the last attempt was answered with 200 or 204. -/
def LastAccepted (tries : List (BoundedRetry.Attempt σ Exception HttpResponse)) : Prop :=
  ∃ made response, tries.getLast? = some made ∧ made.answer = .ok response ∧
    (response.statusCode = 200 ∨ response.statusCode = 204)

/-- The attempts of the DELETE of a resource. -/
def deletions (path : ResourcePath) (state : σ) :
    List (BoundedRetry.Attempt σ Exception HttpResponse) :=
  retrying.attempts (GoogleCalendarClient.request ⟨retrying.toHttpClient, headers, baseUrl⟩
    .del path none) state

/-- What a retried DELETE returns, and the state it leaves. -/
def deleted (path : ResourcePath) (state : σ) : Except Exception Unit × σ :=
  readResponse readDeleted
    (GoogleCalendarClient.doDelete ⟨retrying.toHttpClient, headers, baseUrl⟩ path state)

/-- A deletion is read as done when it was answered by 200 or 204. -/
theorem read_deleted_iff (response : HttpResponse) :
    readDeleted response = .ok () ↔ response.statusCode = 200 ∨ response.statusCode = 204 := by
  simp only [readDeleted]
  split
  · rename_i refused
    refine ⟨fun ok => by simp at ok, fun accepted => ?_⟩
    exact absurd accepted (by simpa using refused)
  · rename_i accepted
    exact ⟨fun _ => by omega, fun _ => rfl⟩

/-- A retried DELETE succeeds just when its last attempt was accepted. -/
theorem deleted_iff_last_accepted (path : ResourcePath) (state : σ) :
    (deleted retrying headers baseUrl path state).1 = .ok () ↔
      LastAccepted (deletions retrying headers baseUrl path state) := by
  let request := GoogleCalendarClient.request ⟨retrying.toHttpClient, headers, baseUrl⟩
    .del path none
  have outcome : (deleted retrying headers baseUrl path state).1 =
      (retrying.execute request state).1.bind readDeleted := rfl
  cases Nat.eq_zero_or_pos retrying.config.maxAttempts with
  | inl none =>
    have unset : retrying.execute request state = (.ok ⟨0, ""⟩, state) := by
      simp [RetryingHttpClient.execute, none, BoundedRetry.loop]
    have untried : deletions retrying headers baseUrl path state = [] := by
      simp [deletions, RetryingHttpClient.attempts, none, BoundedRetry.attempts]
    rw [outcome, unset, untried]
    simp [LastAccepted, Except.bind, readDeleted]
  | inr allowed =>
    obtain ⟨before, last, same⟩ := BoundedRetry.attempts_last (retrying.inner.execute request)
      isRetryable retrying.sleepBackoff ⟨0, ""⟩ retrying.config.maxAttempts 0 state allowed
    have executed : retrying.inner.execute request before = retrying.execute request state := same
    have listed : (deletions retrying headers baseUrl path state).getLast? =
        some ⟨before, (retrying.execute request state).1, (retrying.execute request state).2⟩ := by
      rw [← executed]
      exact last
    rw [outcome, LastAccepted]
    simp only [listed, Option.some.injEq]
    cases answer : (retrying.execute request state).1 with
    | error error =>
      simp [Except.bind]
    | ok response =>
      simp [Except.bind, read_deleted_iff]

/-- The state a DELETE row begins its deletion in: its own without RETURNING, and
with it the one after the GET, with the event's row kept. -/
inductive Begun (operator : CalendarDelete) (id : String) :
    CalendarDeleteGlobalSinkState → σ → CalendarDeleteGlobalSinkState → σ → Prop where
  | plain (gstate : CalendarDeleteGlobalSinkState) (state : σ)
      (mode : operator.returnChunk = false) : Begun operator id gstate state gstate state
  | returning (gstate : CalendarDeleteGlobalSinkState) (state between : σ) (event : Json)
      (mode : operator.returnChunk = true)
      (got : EventsResource.get engine ⟨retrying.toHttpClient, headers, baseUrl⟩
        operator.calendarId id state = (.ok event, between)) :
      Begun operator id gstate state
        { gstate with returned := gstate.returned ++
            [eventToRow engine event operator.names operator.calendarId] } between

/-- A row that has begun its deletion is what the deletion makes of it. -/
theorem begun_row (operator : CalendarDelete) (row : List Value)
    (gstate begun : CalendarDeleteGlobalSinkState) (state between : σ)
    (present : (row.getD operator.rowIdIndex .null).isNull = false)
    (start : Begun engine retrying headers baseUrl operator
      ((row.getD operator.rowIdIndex .null).toText engine) gstate state begun between) :
    sinkRow engine ⟨retrying.toHttpClient, headers, baseUrl⟩ operator row gstate state =
      deleteEvent ⟨retrying.toHttpClient, headers, baseUrl⟩ operator
        ((row.getD operator.rowIdIndex .null).toText engine) begun between := by
  cases start with
  | plain mode =>
    simp only [sinkRow, present, mode, Bool.false_eq_true, if_false]
  | returning _ event mode got =>
    simp only [sinkRow, present, mode, got, Bool.false_eq_true, if_false, if_true]

/-- A DELETE row and a DROP TABLE of a calendar created in the session are
reported as done just when the last attempt of their deletion was answered with
200 or 204. Then the row is counted and the remaining rows follow, and the
calendar is gone from the created set and from the table map. Otherwise they
throw, nothing is counted and the catalog stays as it was. -/
theorem deletion_done_iff_last_accepted :
    (∀ (operator : CalendarDelete) (row : List Value) (rest : List (List Value))
      (gstate begun : CalendarDeleteGlobalSinkState) (state between : σ),
      (row.getD operator.rowIdIndex .null).isNull = false →
      Begun engine retrying headers baseUrl operator
        ((row.getD operator.rowIdIndex .null).toText engine) gstate state begun between →
      let client : GoogleCalendarClient σ := ⟨retrying.toHttpClient, headers, baseUrl⟩
      let path := ResourcePath.event operator.calendarId
        ((row.getD operator.rowIdIndex .null).toText engine)
      let after := (deleted retrying headers baseUrl path between).2
      (LastAccepted (deletions retrying headers baseUrl path between) →
        CalendarDelete.sink engine client operator (row :: rest) gstate state =
          CalendarDelete.sink engine client operator rest
            { begun with deleteCount := begun.deleteCount + 1 } after) ∧
      (¬ LastAccepted (deletions retrying headers baseUrl path between) → ∃ error,
        CalendarDelete.sink engine client operator (row :: rest) gstate state =
          (.error error, begun, after))) ∧
    (∀ (catalog : CalendarCatalog) (info : DropInfo) (table : CalendarTableEntry) (state : σ),
      info.type = .tableEntry → catalog.tables.find info.name = some table →
      catalog.wasCreatedThisSession table.calendarId = true →
      let client : GoogleCalendarClient σ := ⟨retrying.toHttpClient, headers, baseUrl⟩
      let path := ResourcePath.calendar table.calendarId
      let outcome := dropEntry client catalog info state
      (LastAccepted (deletions retrying headers baseUrl path state) →
        outcome.1 = .ok () ∧ outcome.2.1.wasCreatedThisSession table.calendarId = false ∧
        outcome.2.1.tables = catalog.tables.erase info.name ∧
        outcome.2.1.createdCalendarIds = catalog.createdCalendarIds.erase table.calendarId) ∧
      (¬ LastAccepted (deletions retrying headers baseUrl path state) →
        (∃ error, outcome.1 = .error error) ∧ outcome.2.1 = catalog)) := by
  constructor
  · intro operator row rest gstate begun state between present start client path after
    have decided := deleted_iff_last_accepted retrying headers baseUrl path between
    have first := begun_row engine retrying headers baseUrl operator row gstate begun state between
      present start
    have event : EventsResource.delete client operator.calendarId
        ((row.getD operator.rowIdIndex .null).toText engine) between =
        deleted retrying headers baseUrl path between := rfl
    rw [CalendarDelete.sink, first, deleteEvent, event, ← decided]
    cases outcome : deleted retrying headers baseUrl path between with
    | mk result final =>
      have ended : after = final := congrArg Prod.snd outcome
      rw [ended]
      cases result with
      | ok done => exact ⟨fun _ => rfl, fun refused => absurd rfl refused⟩
      | error error => exact ⟨fun accepted => by simp at accepted, fun _ => ⟨error, rfl⟩⟩
  · intro catalog info table state isTable found created client path outcome
    have decided := deleted_iff_last_accepted retrying headers baseUrl path state
    have calendar : CalendarsResource.delete client table.calendarId state =
        deleted retrying headers baseUrl path state := rfl
    simp only [outcome, dropEntry, isTable, ne_eq, not_true, if_false, found, created,
      Bool.not_true,
      Bool.false_eq_true, calendar, ← decided]
    cases result : deleted retrying headers baseUrl path state with
    | mk answer final =>
      cases answer with
      | ok done =>
        refine ⟨fun _ => ⟨rfl, ?_, rfl, rfl⟩, fun refused => absurd rfl refused⟩
        simp [wasCreatedThisSession, forgetCreatedThisSession, FoldedMap.contains,
          FoldedMap.find_erase]
      | error error =>
        exact ⟨fun accepted => by simp at accepted, fun _ => ⟨⟨error, rfl⟩, rfl⟩⟩

/-- A service that holds one object. Each attempt to delete it is answered with
the next status, applied or not; once it is gone the answer is 404. -/
structure OneObject where
  answers : List (Int × Bool)
  held : Bool
  deriving DecidableEq, Repr

/-- A service of one object, which a DELETE removes. -/
def oneObjectClient : IHttpClient OneObject where
  execute _ service :=
    if service.held then
      let next := service.answers.headD (204, true)
      (.ok ⟨next.1, ""⟩, ⟨service.answers.drop 1, !next.2⟩)
    else (.ok ⟨404, "Not Found"⟩, service)

/-- Its client, with retries and without pauses. -/
def oneObjectRetrying : RetryingHttpClient OneObject :=
  ⟨oneObjectClient, { zeroSleep := true }, fun _ service => service⟩

/-- A DELETE whose rows are the ids alone. -/
def deleteById : CalendarDelete := ⟨"work", [], 0, false⟩

/-- A catalog whose session created the calendar of its one table. -/
def tripsCatalog : CalendarCatalog :=
  (addTable ⟨.empty, .empty, .empty⟩ ⟨"trips", "c1"⟩).markCreatedThisSession "c1"

/-- A DELETE that is applied and answered with 503 is repeated, and the 404 of
the repetition fails both statements although the object is gone. -/
theorem applied_deletion_fails :
    let client : GoogleCalendarClient OneObject := ⟨oneObjectRetrying.toHttpClient, [], ""⟩
    let service : OneObject := ⟨[(503, true)], true⟩
    (∀ path ∈ [ResourcePath.event "work" "abc", .calendar "c1"],
      deletions oneObjectRetrying [] "" path service =
        [⟨service, .ok ⟨503, ""⟩, ⟨[], false⟩⟩,
          ⟨⟨[], false⟩, .ok ⟨404, "Not Found"⟩, ⟨[], false⟩⟩]) ∧
    isRetryable ⟨404, "Not Found"⟩ = false ∧
    CalendarDelete.sink (.reading [] []) client deleteById [[.varchar "abc"], [.varchar "def"]] {}
      service = (.error (.api 404 "Not Found"), {}, ⟨[], false⟩) ∧
    dropEntry client tripsCatalog ⟨.tableEntry, "trips", false⟩ service =
      (.error (.api 404 "Not Found"), tripsCatalog, ⟨[], false⟩) := by
  intro client service
  refine ⟨?_, by decide, by decide, rfl⟩
  intro path member
  rcases List.mem_pair.mp member with rfl | rfl <;> rfl

/-- A 503 that was not applied leaves the deletion to the 204 that follows. -/
theorem unapplied_deletion_finishes :
    let client : GoogleCalendarClient OneObject := ⟨oneObjectRetrying.toHttpClient, [], ""⟩
    let service : OneObject := ⟨[(503, false), (204, true)], true⟩
    CalendarDelete.sink (.reading [] []) client deleteById [[.varchar "abc"]] {} service =
      (.ok (), { deleteCount := 1 }, ⟨[], false⟩) ∧
    (dropEntry client tripsCatalog ⟨.tableEntry, "trips", false⟩ service).1 = .ok () := by
  intro client service
  have accepted : ∀ path, LastAccepted (deletions oneObjectRetrying [] "" path service) :=
    fun path => ⟨⟨⟨[(204, true)], true⟩, .ok ⟨204, ""⟩, ⟨[], false⟩⟩, ⟨204, ""⟩, rfl, rfl, .inr rfl⟩
  obtain ⟨rows, drops⟩ := deletion_done_iff_last_accepted (.reading [] []) oneObjectRetrying [] ""
  constructor
  · exact (rows deleteById [.varchar "abc"] [] {} {} service service rfl
      (.plain {} service rfl)).1 (accepted _)
  · exact ((drops tripsCatalog ⟨.tableEntry, "trips", false⟩ ⟨"trips", "c1"⟩ service rfl rfl
      rfl).1 (accepted _)).1

end GoogleCalendar.DeleteRetries
