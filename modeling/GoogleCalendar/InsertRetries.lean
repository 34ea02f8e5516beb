import GoogleCalendar.CalendarInsert
import GoogleCalendar.RowBody

/-!
# INSERT under retries

An attempt may be applied although its answer asks for a repetition. For a body
that carries its id this does no harm: every request of the row, the conflicting
POST and the PUT that replaces it alike, stores the same body under the same id,
so doing it again changes nothing. For a body without an id each applied attempt
creates an event of its own, and the row leaves as many as were applied.

The store behind the service is a function from calendar and event id to the
body stored there. Of the service only this is used: which bodies an attempt may
store, and that an attempt answered with 200 was applied.
-/

namespace GoogleCalendar.InsertRetries

open Library EventMapping CalendarInsert RowBody

/-- Bodies by calendar and event id. -/
abbrev EventStore := String × String → Option Json

section Service

variable {σ : Type} (store : σ → EventStore)

/-- Requests that may have stored one body under one key, and must have if they
were accepted. -/
structure Attempted (key : String × String) (body : Json) (state after : σ) (accepted : Prop) :
    Prop where
  change : store after = store state ∨ store after = Function.update (store state) key (some body)
  applied : accepted → store after = Function.update (store state) key (some body)

/-- Storing a body again changes nothing, so requests for one body can follow
each other. The last one decides. -/
theorem attempted_trans (key : String × String) (body : Json) (state between after : σ)
    (first second : Prop) (earlier : Attempted store key body state between first)
    (later : Attempted store key body between after second) :
    Attempted store key body state after second := by
  have again : Function.update (store between) key (some body) =
      Function.update (store state) key (some body) := by
    cases earlier.change with
    | inl same => rw [same]
    | inr stored => rw [stored, Function.update_idem]
  refine ⟨?_, fun accepted => (later.applied accepted).trans again⟩
  cases later.change with
  | inl same =>
    rw [same]
    exact earlier.change
  | inr stored => exact Or.inr (stored.trans again)

/-- Whether an attempt is answered with 200. -/
def Accepted (answer : Except Exception HttpResponse) : Prop :=
  ∃ response, answer = .ok response ∧ response.statusCode = 200

/-- The service for bodies that carry an id. An attempt, thrown errors included,
may or may not be applied; one that is answered with 200 is. That a POST of a
taken id is answered with 409 is not needed. -/
structure StoresBodies (http : IHttpClient σ) : Prop where
  posts : ∀ request calendarId id body state, request.method = .post →
    request.path = .events calendarId → request.body = some body →
    body.find "id" = some (.string id) →
    Attempted store (calendarId, id) body state (http.execute request state).2
      (Accepted (http.execute request state).1)
  puts : ∀ request calendarId id body state, request.method = .put →
    request.path = .event calendarId id → request.body = some body →
    Attempted store (calendarId, id) body state (http.execute request state).2
      (Accepted (http.execute request state).1)

/-- Retrying a request that may store a body is such a request again. -/
theorem retried_attempted (retrying : RetryingHttpClient σ) (request : HttpRequest)
    (key : String × String) (body : Json) (state : σ)
    (slept : ∀ bound state, store (retrying.sleep bound state) = store state)
    (attempt : ∀ state, Attempted store key body state (retrying.inner.execute request state).2
      (Accepted (retrying.inner.execute request state).1)) :
    Attempted store key body state (retrying.execute request state).2
      (Accepted (retrying.execute request state).1) := by
  let keeps (current : σ) : Prop := Attempted store key body state current False
  have start : keeps state := ⟨Or.inl rfl, False.elim⟩
  cases Nat.eq_zero_or_pos retrying.config.maxAttempts with
  | inl none =>
    have unset : retrying.execute request state = (.ok ⟨0, ""⟩, state) := by
      simp [RetryingHttpClient.execute, none, BoundedRetry.loop]
    rw [unset]
    refine ⟨Or.inl rfl, ?_⟩
    rintro ⟨response, same, status⟩
    obtain rfl := Except.ok.inj same
    exact absurd status (by decide)
  | inr allowed =>
    obtain ⟨before, kept, last⟩ := retrying.execute_is_last request keeps
      (fun current kept => by
        have next := attempted_trans store key body state current _ _ _ kept (attempt current)
        exact ⟨next.change, False.elim⟩)
      (fun bound current kept => by
        refine ⟨?_, False.elim⟩
        rw [slept]
        exact kept.change)
      allowed state start
    rw [← last]
    exact attempted_trans store key body state before _ _ _ kept (attempt before)

variable (engine : Engine)

/-- Reading the answer changes no store and takes only a 200 for success. -/
theorem read_attempted (key : String × String) (body : Json) (state : σ)
    (outcome : Except Exception HttpResponse × σ)
    (attempt : Attempted store key body state outcome.2 (Accepted outcome.1)) :
    Attempted store key body state (readResponse (parseResponse engine .ok) outcome).2
      (∃ created, (readResponse (parseResponse engine .ok) outcome).1 = .ok created) := by
  refine ⟨attempt.change, ?_⟩
  rintro ⟨created, read⟩
  obtain ⟨response, json, answered, status, -, -⟩ :=
    read_ok engine .ok outcome created outcome.2 (Prod.ext read rfl)
  exact attempt.applied ⟨response, congrArg Prod.fst answered, status⟩

variable (retrying : RetryingHttpClient σ) (headers : HttpHeaders) (baseUrl : String)
  (operator : CalendarInsert)

/-- A body that cannot be serialised is not stored, and sending another one stores it or
nothing. -/
theorem sent_attempted (client : GoogleCalendarClient σ) (key : String × String)
    (method : HttpMethod) (path : ResourcePath) (body : Json) (state : σ)
    (attempt : Attempted store key body state
      (client.http.execute (client.request method path (some body)) state).2
      (Accepted (client.http.execute (client.request method path (some body)) state).1)) :
    Attempted store key body state (client.send method path body state).2
      (Accepted (client.send method path body state).1) := by
  rcases client.send_cases method path body state with ⟨error, -, failed⟩ | ⟨-, sent⟩
  · rw [failed]
    refine ⟨Or.inl rfl, ?_⟩
    rintro ⟨response, same, -⟩
    cases same
  · rw [sent]
    exact attempt

/-- The POST of a body with an id and the PUT on a conflict store that body under
that id, or nothing. -/
theorem create_event_attempted (service : StoresBodies store retrying.inner)
    (slept : ∀ bound state, store (retrying.sleep bound state) = store state)
    (event : Json) (id : String) (identified : event.find "id" = some (.string id)) (state : σ) :
    Attempted store (operator.calendarId, id) event state
      (createEvent engine ⟨retrying.toHttpClient, headers, baseUrl⟩ operator event state).2
      (∃ created,
        (createEvent engine ⟨retrying.toHttpClient, headers, baseUrl⟩ operator event state).1 =
          .ok created) := by
  let client : GoogleCalendarClient σ := ⟨retrying.toHttpClient, headers, baseUrl⟩
  have post : ∀ state, Attempted store (operator.calendarId, id) event state
      (EventsResource.insert engine client operator.calendarId event state).2
      (∃ created, (EventsResource.insert engine client operator.calendarId event state).1 =
        .ok created) :=
    fun state => read_attempted store engine _ event state _
      (sent_attempted store client _ .post _ event state
        (retried_attempted store retrying _ _ event state slept
          (fun state => service.posts _ _ id event state rfl rfl rfl identified)))
  have put : ∀ state, Attempted store (operator.calendarId, id) event state
      (EventsResource.update engine client operator.calendarId id event state).2
      (∃ created, (EventsResource.update engine client operator.calendarId id event state).1 =
        .ok created) :=
    fun state => read_attempted store engine _ event state _
      (sent_attempted store client _ .put _ event state
        (retried_attempted store retrying _ _ event state slept
          (fun state => service.puts _ _ id event state rfl rfl rfl)))
  have posted := post state
  simp only [createEvent]
  split
  · rename_i created after inserted
    rw [inserted] at posted
    exact posted
  · rename_i message after conflict
    rw [conflict] at posted
    simp only [identified, Json.getString]
    exact attempted_trans store _ event state after _ _ _ posted (put after)
  · rename_i error after failed conflict
    rw [conflict] at posted
    exact ⟨posted.change, fun accepted => by simp at accepted⟩

/-- The ids that are new in a calendar: none of them was there, all of them are,
and every other key is as it was. -/
structure Grown (calendarId : String) (before after : EventStore) (new : List String) : Prop where
  distinct : new.Nodup
  created : ∀ id ∈ new, before (calendarId, id) = none ∧ (after (calendarId, id)).isSome = true
  kept : ∀ key, (∀ id ∈ new, key ≠ (calendarId, id)) → after key = before key

/-- A store grows by no events into itself. -/
theorem grown_nothing (calendarId : String) (before : EventStore) :
    Grown calendarId before before [] :=
  ⟨List.nodup_nil, by simp, fun _ _ => rfl⟩

/-- One more event under a free id is one more new id. -/
theorem grown_one_more (calendarId : String) (before after : EventStore) (new : List String)
    (id : String) (body : Json) (grown : Grown calendarId before after new)
    (free : after (calendarId, id) = none) :
    Grown calendarId before (Function.update after (calendarId, id) (some body)) (new ++ [id]) := by
  have other : ∀ held ∈ new, held ≠ id := by
    rintro held member rfl
    have present := (grown.created held member).2
    rw [free] at present
    exact absurd present (by simp)
  constructor
  · refine List.nodup_append.mpr ⟨grown.distinct, List.nodup_singleton id, ?_⟩
    intro held member single listed
    rw [List.mem_singleton.mp listed]
    exact other held member
  · intro held member
    cases List.mem_append.mp member with
    | inl old =>
      rw [Function.update_of_ne (fun same => other held old (Prod.mk.inj same).2)]
      exact grown.created held old
    | inr single =>
      obtain rfl := List.mem_singleton.mp single
      refine ⟨?_, by simp⟩
      rw [← grown.kept (calendarId, held) (fun old listed same =>
        other old listed (Prod.mk.inj same).2.symm)]
      exact free
  · intro key apart
    rw [Function.update_of_ne (apart id (by simp))]
    exact grown.kept key (fun held member => apart held (by simp [member]))

/-- The service for the POST of one body without an id. An attempt is applied or
not; if it is, there is one more event, under an id that was free, and if it is
answered with 200 it was applied. -/
structure CreatesEvents (http : IHttpClient σ) (calendarId : String) (event : Json)
    (applied : σ → Bool) : Prop where
  creates : ∀ request state, request.method = .post → request.path = .events calendarId →
    request.body = some event → applied state = true →
    ∃ id body, store state (calendarId, id) = none ∧ store (http.execute request state).2 =
      Function.update (store state) (calendarId, id) (some body)
  ignores : ∀ request state, request.method = .post → request.path = .events calendarId →
    request.body = some event → applied state = false →
    store (http.execute request state).2 = store state
  accepts : ∀ request state, request.method = .post → request.path = .events calendarId →
    request.body = some event → Accepted (http.execute request state).1 → applied state = true

/-- The attempts of a POST create as many events as were applied. -/
theorem attempts_create (calendarId : String) (event : Json) (applied : σ → Bool)
    (service : CreatesEvents store retrying.inner calendarId event applied)
    (slept : ∀ bound state, store (retrying.sleep bound state) = store state)
    (request : HttpRequest) (method : request.method = .post)
    (path : request.path = .events calendarId) (body : request.body = some event) (state : σ) :
    ∃ new, Grown calendarId (store state) (store (retrying.execute request state).2) new ∧
      new.length = (retrying.attempts request state).countP (fun made => applied made.before) := by
  let made (history : List (BoundedRetry.Attempt σ Exception HttpResponse)) (current : σ) : Prop :=
    ∃ new, Grown calendarId (store state) (store current) new ∧
      new.length = history.countP (fun made => applied made.before)
  refine BoundedRetry.loop_history (retrying.inner.execute request) isRetryable
    retrying.sleepBackoff ⟨0, ""⟩ made ?_ ?_ [] _ 0 state ⟨[], grown_nothing _ _, rfl⟩
  · rintro history current ⟨new, grown, count⟩
    cases happened : applied current with
    | true =>
      obtain ⟨id, stored, free, after⟩ := service.creates request current method path body happened
      refine ⟨new ++ [id], ?_, by simp [count, happened]⟩
      rw [after]
      exact grown_one_more calendarId _ _ new id stored grown free
    | false =>
      refine ⟨new, ?_, by simp [count, happened]⟩
      rw [service.ignores request current method path body happened]
      exact grown
  · rintro history number current ⟨new, grown, count⟩
    refine ⟨new, ?_, count⟩
    have same := retrying.backoff_keeps (fun after => store after = store current)
      (fun bound after kept => (slept bound after).trans kept) number current rfl
    rw [same]
    exact grown

/-- A row without an id finishes only through its POST. -/
theorem finished_through_post (client : GoogleCalendarClient σ) (row : List Value) (event : Json)
    (built : rowToEvent engine operator.names row = .ok event)
    (unidentified : event.find "id" = none) (gstate next : CalendarInsertGlobalSinkState)
    (state after : σ)
    (finished : sinkRow engine client operator row gstate state = (.ok (), next, after)) :
    ∃ created, EventsResource.insert engine client operator.calendarId event state =
      (.ok created, after) := by
  simp only [sinkRow, built] at finished
  split at finished
  · simp at finished
  · rename_i created final made
    obtain rfl : final = after := by simpa using (Prod.mk.inj (Prod.mk.inj finished).2).2
    simp only [createEvent, unidentified] at made
    split at made
    · rename_i posted final inserted
      obtain rfl : final = _ := (Prod.mk.inj made).2
      exact ⟨posted, inserted⟩
    · simp at made
    · simp at made

end Service

/-! A service that follows a script of answers. -/

/-- The answers to come, each with whether its attempt is applied, and the bodies
held. -/
structure Scripted where
  answers : List (Int × Bool)
  held : List ((String × String) × Json)
  deriving DecidableEq

/-- The events that the service holds. -/
def Scripted.stored (service : Scripted) : EventStore := fun key => service.held.lookup key

/-- An id longer than all that are held. -/
def freshId (held : List ((String × String) × Json)) : String :=
  held.foldr (fun entry text => entry.1.2 ++ text) "e"

/-- The next answer, and none left is an answer too. -/
def Scripted.next (service : Scripted) : Int × Bool :=
  service.answers.headD (500, false)

/-- Whether the next attempt is applied: 200 is not answered otherwise. -/
def Scripted.applies (service : Scripted) : Bool :=
  service.next.2 || service.next.1 = 200

/-- The key under which a request stores its body. -/
def targetKey (request : HttpRequest) (body : Json) (held : List ((String × String) × Json)) :
    String × String :=
  match request.path with
  | .event calendarId id => (calendarId, id)
  | .events calendarId =>
    match body.find "id" with
    | some (.string id) => (calendarId, id)
    | _ => (calendarId, freshId held)
  | _ => ("", "")

/-- The service, which follows its script. -/
def scriptedClient : IHttpClient Scripted where
  execute request service :=
    (.ok ⟨service.next.1, "created"⟩, ⟨service.answers.drop 1,
      match request.body with
      | some body =>
          if service.applies then (targetKey request body service.held, body) :: service.held
          else service.held
      | none => service.held⟩)

/-- An event that is pushed is stored under its key. -/
theorem scripted_push (service : Scripted) (rest : List (Int × Bool)) (key : String × String)
    (body : Json) : Scripted.stored ⟨rest, (key, body) :: service.held⟩ =
      Function.update service.stored key (some body) := by
  funext other
  by_cases same : other = key
  · subst same
    simp [Scripted.stored]
  · simp [Scripted.stored, Function.update_of_ne same, List.lookup_cons,
      beq_eq_false_iff_ne.mpr same]

/-- Whatever the script, the service stores bodies as assumed. -/
theorem scripted_stores : StoresBodies Scripted.stored scriptedClient := by
  have attempt : ∀ request key body state, request.body = some body →
      targetKey request body state.held = key →
      Attempted Scripted.stored key body state (scriptedClient.execute request state).2
        (Accepted (scriptedClient.execute request state).1) := by
    rintro request _ body state sent rfl
    simp only [scriptedClient, sent]
    split
    · exact ⟨Or.inr (scripted_push state _ _ body), fun _ => scripted_push state _ _ body⟩
    · rename_i ignored
      refine ⟨Or.inl rfl, ?_⟩
      rintro ⟨response, same, status⟩
      obtain rfl := Except.ok.inj same
      exact absurd (by simp [Scripted.applies, show state.next.1 = 200 from status]) ignored
  constructor
  · intro request calendarId id body state _ path sent identified
    exact attempt request _ body state sent (by simp [targetKey, path, identified])
  · intro request calendarId id body state _ path sent
    exact attempt request _ body state sent (by simp [targetKey, path])

/-- The fresh id is longer than the ids that are held. -/
theorem held_id_shorter (held : List ((String × String) × Json)) :
    0 < (freshId held).length ∧
      ∀ entry ∈ held, entry.1.2.length < (freshId held).length := by
  induction held with
  | nil => exact ⟨by decide, by simp⟩
  | cons first rest ih =>
    obtain ⟨marked, shorter⟩ := ih
    have grown : (freshId (first :: rest)).length = first.1.2.length + (freshId rest).length :=
      String.length_append _ _
    rw [grown]
    refine ⟨by omega, ?_⟩
    intro entry member
    rcases List.mem_cons.mp member with rfl | later
    · omega
    · have bound := shorter entry later
      omega

/-- So it is free. -/
theorem fresh_id_free (calendarId : String) (service : Scripted) :
    service.stored (calendarId, freshId service.held) = none := by
  simp only [Scripted.stored, List.lookup_eq_none_iff]
  intro entry member
  have shorter := (held_id_shorter service.held).2 entry member
  have different : (calendarId, freshId service.held) ≠ entry.1 := by
    intro same
    rw [← same] at shorter
    exact Nat.lt_irrefl _ shorter
  simpa using different

/-- Whatever the script, the service creates an event for each applied attempt. -/
theorem scripted_creates (calendarId : String) (event : Json)
    (unidentified : event.find "id" = none) :
    CreatesEvents Scripted.stored scriptedClient calendarId event Scripted.applies where
  creates request state _ path sent applied := by
    refine ⟨freshId state.held, event, fresh_id_free calendarId state, ?_⟩
    simp only [scriptedClient, sent, applied, if_true]
    rw [scripted_push]
    simp [targetKey, path, unidentified]
  ignores request state _ _ sent ignored := by
    simp only [scriptedClient, sent, ignored, Bool.false_eq_true, if_false]
    rfl
  accepts request state _ _ sent accepted := by
    obtain ⟨response, same, status⟩ := accepted
    obtain rfl := Except.ok.inj same
    simp [Scripted.applies, show state.next.1 = 200 from status]

/-- Its client, with retries and without pauses. -/
def scriptedRetrying : RetryingHttpClient Scripted :=
  ⟨scriptedClient, { zeroSleep := true }, fun _ service => service⟩

/-- An engine that reads the answer to an insert. -/
def createdEngine : Engine := .reading [] [("created", .object [("id", .string "e")])]

/-- An INSERT of ids and summaries. -/
def insertSummaries : CalendarInsert := ⟨"work", ["event_id", "summary"], false⟩

/-- A POST that is applied and answered with 503, the conflict of its repetition,
and a PUT. -/
def conflicting : Scripted := ⟨[(503, true), (409, false), (200, true)], []⟩

/-- The events that a run leaves under a script. -/
def scriptedRun (answers : List (Int × Bool)) :
    Except Exception Unit × CalendarInsertGlobalSinkState × Scripted :=
  sinkRow createdEngine ⟨scriptedRetrying.toHttpClient, [], ""⟩ insertSummaries
    [.null, .varchar "Lunch"] {} ⟨answers, []⟩

end GoogleCalendar.InsertRetries
