import GoogleCalendar.DisjointStatements

/-!
# Many connections that insert events with ids

Replicas of one calendar are written by jobs that can overlap, each inserting rows
whose ids it computes. Whatever the schedule, and with attempts that are applied
although their answers ask for a repetition, a moment never comes at which an
event has any other body than the one it had or one that a row with its id was
built into. When a statement has finished, every id of its rows is taken by such a
body, and no event is there twice, for an id is one place of the store.
-/

namespace GoogleCalendar.ConcurrentInserts

open Library EventMapping RowBody EventService

variable {W N : Type} (service : EventService W) (engine : Engine)

/-- The service for bodies that carry their id: an attempt stores the body or
changes nothing, and one that is answered with 200 has stored it. -/
structure StoresBodies : Prop where
  change : ∀ request held connection body, request.body = some body →
    (service.respond request held connection).2.1 = held ∨
      (service.respond request held connection).2.1 = some body
  applied : ∀ request held connection body response, request.body = some body →
    (service.respond request held connection).1 = .ok response → response.statusCode = 200 →
      (service.respond request held connection).2.1 = some body

/-- A statement of one of the connections. -/
structure Insertion where
  link : Link
  operator : CalendarInsert
  chunk : List (List Value)

variable (insertion : N → Insertion)

/-- Whether a row of some connection is built into the body, under the given key. -/
def Written (key : String × String) (body : Json) : Prop :=
  ∃ name, ∃ row ∈ (insertion name).chunk,
    CalendarInsert.rowKey engine (insertion name).operator row = some key ∧
      rowToEvent engine (insertion name).operator.names row = .ok body

/-- What any connection may do between two questions of another. -/
def Around (state moved : State W N) : Prop :=
  ∀ key, moved.1 key = state.1 key ∨
    ∃ body, Written engine insertion key body ∧ moved.1 key = some body

/-- An event stored for some row. -/
def Taken (key : String × String) (state : State W N) : Prop :=
  ∃ body, Written engine insertion key body ∧ state.1 key = some body

/-- The requests of all connections: bodies of rows, under their keys. -/
def Sends : Ask → Prop
  | .send request => ∃ key body, request.target = some key ∧ request.body = some body ∧
      Written engine insertion key body
  | .pause _ => True

/-- Nothing has happened around a statement that has not moved. -/
theorem around_refl (state : State W N) : Around engine insertion state state :=
  fun _ => Or.inl rfl

/-- What happens around a statement adds up. -/
theorem around_trans (first second third : State W N) (early : Around engine insertion first second)
    (late : Around engine insertion second third) : Around engine insertion first third := by
  intro key
  cases late key with
  | inl same =>
    rw [same]
    exact early key
  | inr written => exact Or.inr written

/-- An event that a statement has taken stays so, whatever happens around it. -/
theorem taken_moved (key : String × String) (state moved : State W N)
    (move : Around engine insertion state moved) (taken : Taken engine insertion key state) :
    Taken engine insertion key moved := by
  obtain ⟨body, written, held⟩ := taken
  cases move key with
  | inl same => exact ⟨body, written, same.trans held⟩
  | inr other => exact other

/-- A statement sends the bodies of its rows only. -/
theorem session_sends (link : Link) (operator : CalendarInsert) (distinct : operator.names.Nodup)
    (chunk : List (List Value))
    (identified : ∀ row ∈ chunk, (CalendarInsert.rowId engine operator row).isSome = true)
    (written : ∀ row ∈ chunk, ∀ key event, CalendarInsert.rowKey engine operator row = some key →
      rowToEvent engine operator.names row = .ok event → Written engine insertion key event)
    (gstate : CalendarInsertGlobalSinkState) :
    (CalendarInsert.session engine link operator chunk gstate).Asks (Sends engine insertion) := by
  refine Session.rows_asks _ _ _ _ chunk (fun row member gstate => ?_) gstate
  obtain ⟨id, given⟩ := Option.isSome_iff_exists.mp (identified row member)
  refine CalendarInsert.row_session_asks engine link operator row gstate id distinct given _
    (fun _ => trivial) (fun event built carries => ?_)
  have mine := written row member (operator.calendarId, id) event
    (by simp [CalendarInsert.rowKey, given]) built
  refine ⟨⟨(operator.calendarId, id), event, ?_, rfl, mine⟩,
    ⟨(operator.calendarId, id), event, rfl, rfl, mine⟩⟩
  simp [Link.request, HttpRequest.target, carries]

variable [DecidableEq N] (stores : StoresBodies service)

include stores

/-- Every request of a connection is a move that the others allow for. -/
theorem served_around (name : N) (ask : Ask) (state : State W N)
    (sends : Sends engine insertion ask) :
    Around engine insertion state (service.serve name ask state).2 := by
  intro key
  cases ask with
  | pause bound => exact Or.inl rfl
  | send request =>
    obtain ⟨target, body, addressed, carried, written⟩ := sends
    simp only [serve, Session.serving, http, addressed]
    by_cases here : key = target
    · subst here
      rw [Function.update_self]
      cases stores.change request (state.1 key) (state.2 name) body carried with
      | inl same => exact Or.inl same
      | inr stored => exact Or.inr ⟨body, written, stored⟩
    · exact Or.inl (Function.update_of_ne here _ _)

/-- A request that is answered with 200 has taken its key.

Induct on the attempts left: the last one has stored the body when it is accepted,
and a repeated one leaves the same to show. -/
theorem attempts_take (name : N) (config : RetryConfig) (request : HttpRequest)
    (key : String × String) (body : Json) (target : request.target = some key)
    (carried : request.body = some body) (written : Written engine insertion key body)
    (remaining number : Nat) (state : State W N) :
    (Session.attempts config request remaining number).Meets (Around engine insertion)
      (service.serve name)
      (fun answer later => (∃ response, answer = .ok response ∧ response.statusCode = 200) →
        Taken engine insertion key later) state := by
  induction remaining generalizing number state with
  | zero =>
    rintro moved - ⟨response, same, status⟩
    obtain rfl := Except.ok.inj same
    exact absurd status (by decide)
  | succ remaining ih =>
    intro current _
    dsimp only
    split
    · rintro later step ⟨response, answered, status⟩
      refine taken_moved engine insertion key _ later step ⟨body, written, ?_⟩
      simp only [serve, Session.serving, http, target, Function.update_self] at answered ⊢
      exact stores.applied request _ _ body response carried answered status
    · rw [Session.backoff]
      split
      · exact ih _ _
      · exact fun _ _ => ih _ _

/-- Reading a value from a request takes its key. -/
theorem call_takes (name : N) (config : RetryConfig) (request : HttpRequest)
    (key : String × String) (body : Json) (target : request.target = some key)
    (carried : request.body = some body) (written : Written engine insertion key body)
    (state : State W N) :
    (Session.call config (parseResponse engine .ok) request).Meets (Around engine insertion)
      (service.serve name)
      (fun outcome later => (∃ value, outcome = .ok value) → Taken engine insertion key later)
      state := by
  refine Process.meets_bind _ _ _ _ _ _ state (around_refl engine insertion)
    (attempts_take service engine insertion stores name config request key body target carried
      written _ _ state) ?_
  rintro answer later taken moved step ⟨value, read⟩
  refine taken_moved engine insertion key later moved step (taken ?_)
  obtain ⟨response, json, answered, status, -, -⟩ :=
    read_ok engine .ok (answer, later) value later (Prod.ext read rfl)
  exact ⟨response, congrArg Prod.fst answered, status⟩

/-- A body that was read back was sent, and its key is taken. -/
theorem call_with_takes (name : N) (link : Link) (method : HttpMethod) (path : ResourcePath)
    (key : String × String) (body : Json)
    (target : (link.request method path (some body)).target = some key)
    (written : Written engine insertion key body) (state : State W N) :
    (Session.callWith link (parseResponse engine .ok) method path body).Meets
      (Around engine insertion) (service.serve name)
      (fun outcome later => (∃ value, outcome = .ok value) → Taken engine insertion key later)
      state := by
  rw [Session.callWith]
  split
  · rintro moved - ⟨value, same⟩
    cases same
  · exact call_takes service engine insertion stores name link.config _ key body target rfl written
      state

/-- A row that finishes has taken its key, and is counted. -/
theorem row_takes (name : N) (link : Link) (operator : CalendarInsert) (row : List Value)
    (id : String) (event : Json) (distinct : operator.names.Nodup)
    (given : CalendarInsert.rowId engine operator row = some id)
    (built : rowToEvent engine operator.names row = .ok event)
    (written : Written engine insertion (operator.calendarId, id) event)
    (gstate : CalendarInsertGlobalSinkState) (state : State W N) :
    (CalendarInsert.rowSession engine link operator row gstate).Meets (Around engine insertion)
      (service.serve name)
      (fun outcome later => outcome.1 = .ok () →
        outcome.2.insertCount = gstate.insertCount + 1 ∧
          Taken engine insertion (operator.calendarId, id) later) state := by
  have still := around_refl (W := W) engine insertion
  have carries := CalendarInsert.row_id_built engine operator row id event distinct given built
  have posted : (link.request .post (.events operator.calendarId) (some event)).target =
      some (operator.calendarId, id) := by
    simp [Link.request, HttpRequest.target, carries]
  have takes := call_with_takes service engine insertion stores name link
  simp only [CalendarInsert.rowSession, built]
  -- The row is done when its POST is read, or the PUT that follows a conflict.
  refine Process.meets_bind _ _ (fun made later => (∃ created, made = .ok created) →
    Taken engine insertion (operator.calendarId, id) later) _ _ _ state still ?_ ?_
  · refine Process.meets_bind _ _ _ _ _ _ state still
      (takes .post _ (operator.calendarId, id) event posted written state) ?_
    intro inserted later taken
    split
    · exact fun moved step _ => taken_moved engine insertion _ later moved step (taken ⟨_, rfl⟩)
    · simp only [carries, Json.getString]
      exact takes .put _ (operator.calendarId, id) event rfl written later
    · rintro moved - ⟨created, same⟩
      simp at same
  · intro made later taken
    cases made with
    | error error =>
      intro moved _ finished
      simp at finished
    | ok created =>
      exact fun moved step _ => ⟨rfl, taken_moved engine insertion _ later moved step
        (taken ⟨created, rfl⟩)⟩

/-- A statement that finishes has taken the keys of all its rows.

Induct on the rows; the key of the first stays taken while the others are sunk. -/
theorem rows_take (name : N) (link : Link) (operator : CalendarInsert)
    (distinct : operator.names.Nodup) (chunk : List (List Value))
    (identified : ∀ row ∈ chunk, (CalendarInsert.rowId engine operator row).isSome = true)
    (written : ∀ row ∈ chunk, ∀ key event, CalendarInsert.rowKey engine operator row = some key →
      rowToEvent engine operator.names row = .ok event → Written engine insertion key event)
    (gstate : CalendarInsertGlobalSinkState) (state : State W N) :
    (CalendarInsert.session engine link operator chunk gstate).Meets (Around engine insertion)
      (service.serve name)
      (fun outcome later => outcome.1 = .ok () →
        outcome.2.insertCount = gstate.insertCount + chunk.length ∧
          ∀ row ∈ chunk, ∀ key, CalendarInsert.rowKey engine operator row = some key →
            Taken engine insertion key later) state := by
  induction chunk generalizing gstate state with
  | nil => exact fun moved _ _ => ⟨rfl, by simp⟩
  | cons row rest ih =>
    obtain ⟨id, given⟩ := Option.isSome_iff_exists.mp (identified row (List.mem_cons_self ..))
    obtain ⟨event, built, -⟩ := row_to_event_total engine operator.names row
    have keyed : CalendarInsert.rowKey engine operator row = some (operator.calendarId, id) := by
      simp [CalendarInsert.rowKey, given]
    have mine := written row (List.mem_cons_self ..) _ event keyed built
    refine Process.meets_bind _ _ _ _ _ _ state (around_refl engine insertion)
      (row_takes service engine insertion stores name link operator row id event distinct given
        built mine gstate state) ?_
    rintro ⟨result, next⟩ later taken
    cases result with
    | error error =>
      intro moved _ finished
      simp at finished
    | ok done =>
      obtain ⟨counted, first⟩ := taken rfl
      have others := ih (fun other member => identified other (List.mem_cons_of_mem _ member))
        (fun other member => written other (List.mem_cons_of_mem _ member)) next later
      have asks := session_sends engine insertion link operator distinct rest
        (fun other member => identified other (List.mem_cons_of_mem _ member))
        (fun other member => written other (List.mem_cons_of_mem _ member)) next
      refine Process.meets_imp _ _ _ _ ?_ _ later
        (Process.meets_kept _ _ _ (Taken engine insertion (operator.calendarId, id)) _
          (fun _ _ step => taken_moved engine insertion _ _ _ step)
          (fun ask current sends => taken_moved engine insertion _ _ _
            (served_around service engine insertion stores name ask current sends)) _ later asks
          others first)
      rintro ⟨outcome, last⟩ current ⟨met, kept⟩ finished
      obtain ⟨count, listed⟩ := met finished
      refine ⟨?_, ?_⟩
      · simp only at count counted ⊢
        rw [count, counted, List.length_cons]
        omega
      · intro other member key named
        rcases List.mem_cons.mp member with rfl | later
        · rw [keyed] at named
          obtain rfl := Option.some.inj named
          exact kept
        · exact listed other later key named

/-- The process of each connection. -/
def sessions (name : N) : Session (Except Exception Unit × CalendarInsertGlobalSinkState) :=
  CalendarInsert.session engine (insertion name).link (insertion name).operator
    (insertion name).chunk {}

omit stores in
/-- The scripted service stores the bodies it accepts. -/
theorem scripted_stores : StoresBodies scripted where
  change request held connection body carried := by
    cases connection with
    | nil => exact Or.inl rfl
    | cons answer rest =>
      simp only [scripted]
      split
      · exact Or.inr carried
      · exact Or.inl rfl
  applied request held connection body response carried answered status := by
    cases connection with
    | nil => simp [scripted] at answered
    | cons answer rest =>
      simp only [scripted, Except.ok.injEq] at answered ⊢
      obtain rfl := answered
      simpa [show answer.1 = 200 from status] using carried

/-- Two connections that insert an event of one id. -/
def lunchAndDinner (name : Bool) : Insertion :=
  ⟨quickLink, ⟨"work", ["event_id", "summary"], false⟩,
    [[.varchar "a", .varchar (if name then "Dinner" else "Lunch")]]⟩

/-- The POST of one is applied and answered with 503; both meet a conflict. -/
def lunchAndDinnerStart : State (List (Int × Bool)) Bool :=
  (fun _ => none, fun name =>
    if name then [(409, false), (200, false)] else [(503, true), (409, false), (200, false)])

end GoogleCalendar.ConcurrentInserts
