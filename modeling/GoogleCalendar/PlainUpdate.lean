import GoogleCalendar.SentBodies
import GoogleCalendar.UpdateStatement

/-!
# What a plain UPDATE sends

Without RETURNING the sink applies the SET columns only and refuses those that
are not writable. The refusal comes out of the loop over the columns, before the
body is put back and whatever the event is, so a statement with such a column in
its list puts nothing at all: its first row that has an id ends it after the GET.

The requests are followed in the record of the client, through the scan that
feeds the sink.
-/

namespace GoogleCalendar.PlainUpdate

open Library Library.Traces Exchanges EventMapping CalendarUpdate ColumnCells UpdateFrame SentBodies

/-- The names of the columns that a statement SETs. -/
def setNames (operator : CalendarUpdate) : List String :=
  (operator.columns.zip operator.valueIndices).map
    (fun column => operator.names.getD column.1 "")

/-- The SET columns have the names of the list. -/
theorem set_columns_names (operator : CalendarUpdate) (row : List Value) :
    (operator.setColumns row).map Prod.fst = setNames operator := by
  simp [setColumns, setNames, Function.comp_def]

variable (engine : Engine)

/-- A column that is not writable is refused on any event. -/
theorem unwritable_refused (event : Json) (name : String) (val : Value) (allDay : Bool)
    (unwritable : isWritable name = false) :
    applySet engine event name val allDay = .error (readOnlyError name) := by
  have notAllDay : name ≠ "all_day" := by
    rintro rfl
    exact absurd unwritable (by decide)
  have unkeyed : columnKey name = none := by
    simpa [isWritable, touchedKeys, notAllDay] using unwritable
  simp only [columnKey, Option.or_eq_none_iff] at unkeyed
  obtain ⟨noString, noBool, noJson, noTime⟩ := unkeyed
  have notTime : ¬ (name = "start" ∨ name = "end") := by
    intro time
    simp [time] at noTime
  have skipped : applyColumn engine event name val allDay true = .ok (event, false) := by
    simp only [applyColumn, noString, noBool, noJson, notTime, notAllDay, if_false]
    split <;> rfl
  simp [applySet, skipped, readOnlyError]

/-- A plain list with a column that is not writable makes no body of any event. -/
theorem refused_list (columns : List (String × Value)) (allDay : Bool) (event : Json)
    (refused : ∃ column ∈ columns, isWritable column.1 = false) :
    ∃ error, columns.foldlM (applyOne engine false allDay) event = .error error := by
  induction columns generalizing event with
  | nil => simp at refused
  | cons column rest ih =>
    rw [List.foldlM_cons]
    cases applied : applyOne engine false allDay event column with
    | error error => exact ⟨error, rfl⟩
    | ok next =>
      apply ih next
      obtain ⟨other, member, unwritable⟩ := refused
      rcases List.mem_cons.mp member with rfl | later
      · simp only [applyOne, Bool.false_eq_true, if_false] at applied
        rw [unwritable_refused engine event other.1 other.2 allDay unwritable] at applied
        simp at applied
      · exact ⟨other, later, unwritable⟩

variable {σ : Type} (retrying : RetryingHttpClient σ) (headers : HttpHeaders) (baseUrl : String)

/-- Whether an attempt asks for something without changing it. -/
def Asks (exchange : Exchange) : Prop := exchange.request.method = .get

/-- Reading a resource asks only. -/
theorem get_asks {α : Type} (read : HttpResponse → Except Exception α) (path : ResourcePath)
    (state : σ × List Exchange) :
    Adds Asks state.2
      (readResponse read ((recordedClient retrying headers baseUrl).doGet path state)).2.2 := by
  obtain ⟨more, grown, tried⟩ := execute_tries retrying
    ((recordedClient retrying headers baseUrl).request .get path none) state
  refine ⟨more, grown, ?_⟩
  intro exchange member
  have requested := tries_request _ _ more tried exchange member
  simp [Asks, requested, GoogleCalendarClient.request]

section Refused

variable (operator : CalendarUpdate) (mode : operator.returnChunk = false)
  (refused : ∃ name ∈ setNames operator, isWritable name = false)

include mode refused

/-- A list with a column that is not writable makes no body. -/
theorem refused_body (row : List Value) (event : Json) :
    ∃ error, putBody engine operator.returnChunk (operator.setColumns row) event =
      .error error := by
  rw [mode]
  apply refused_list
  obtain ⟨name, listed, unwritable⟩ := refused
  rw [← set_columns_names operator row] at listed
  obtain ⟨column, member, rfl⟩ := List.mem_map.mp listed
  exact ⟨column, member, unwritable⟩

/-- A row with an id ends in an error and asks only. -/
theorem refused_row (row : List Value) (gstate : CalendarUpdateGlobalSinkState)
    (state : σ × List Exchange) (present : (rowId row).isNull = false) :
    ∃ error after, sinkRow engine (recordedClient retrying headers baseUrl) operator row gstate
        state = (.error error, after) ∧ Adds Asks state.2 after.2 := by
  have asked := get_asks retrying headers baseUrl (parseResponse engine .ok)
    (.event operator.calendarId ((rowId row).toText engine)) state
  cases got : EventsResource.get engine (recordedClient retrying headers baseUrl)
      operator.calendarId ((rowId row).toText engine) state with
  | mk answer after =>
    have left : after = (EventsResource.get engine (recordedClient retrying headers baseUrl)
      operator.calendarId ((rowId row).toText engine) state).2 := by rw [got]
    have grown : Adds Asks state.2 after.2 := left ▸ asked
    cases answer with
    | error error => exact ⟨error, after, by simp [sinkRow, present, got], grown⟩
    | ok event =>
      obtain ⟨error, failed⟩ := refused_body engine operator mode refused row event
      exact ⟨error, after, by simp [sinkRow, present, got, failed], grown⟩

/-- Rows without an id are passed over. -/
theorem refused_sink_asks (rows : List (List Value)) (gstate : CalendarUpdateGlobalSinkState)
    (state : σ × List Exchange) :
    Adds Asks state.2
      (sink engine (recordedClient retrying headers baseUrl) operator rows gstate state).2.2 := by
  induction rows with
  | nil => exact adds_refl Asks state.2
  | cons row rest ih =>
    cases present : (rowId row).isNull with
    | true =>
      have passed : sinkRow engine (recordedClient retrying headers baseUrl) operator row gstate
          state = (.ok gstate, state) := by simp [sinkRow, present]
      simpa only [sink, passed] using ih
    | false =>
      obtain ⟨error, after, ended, grown⟩ :=
        refused_row engine retrying headers baseUrl operator mode refused row gstate state present
      simpa only [sink, ended] using grown

/-- The first row with an id ends the chunk with its error. -/
theorem refused_first (skipped rest : List (List Value)) (row : List Value)
    (gstate : CalendarUpdateGlobalSinkState) (state : σ × List Exchange)
    (absent : ∀ other ∈ skipped, (rowId other).isNull = true)
    (present : (rowId row).isNull = false) :
    ∃ error after,
      sinkRow engine (recordedClient retrying headers baseUrl) operator row gstate state =
        (.error error, after) ∧
      sink engine (recordedClient retrying headers baseUrl) operator (skipped ++ row :: rest) gstate
        state = (.error error, after) := by
  induction skipped with
  | nil =>
    obtain ⟨error, after, ended, -⟩ :=
      refused_row engine retrying headers baseUrl operator mode refused row gstate state present
    exact ⟨error, after, ended, by simp [sink, ended]⟩
  | cons first others ih =>
    have passed : sinkRow engine (recordedClient retrying headers baseUrl) operator first gstate
        state = (.ok gstate, state) := by
      simp [sinkRow, absent first (List.mem_cons_self ..)]
    obtain ⟨error, after, ended, whole⟩ :=
      ih (fun other member => absent other (List.mem_cons_of_mem _ member))
    exact ⟨error, after, ended, by simpa only [List.cons_append, sink, passed] using whole⟩

end Refused

section Scanning

variable (bindData : CalendarScanBindData)

/-- A scan asks only. -/
theorem fetch_page_asks (gstate : CalendarScanGlobalState) (state : σ × List Exchange) :
    Adds Asks state.2 (CalendarScan.fetchPage engine (recordedClient retrying headers baseUrl)
      bindData gstate state).2.2 := by
  have asked := get_asks retrying headers baseUrl (parseResponse engine .ok)
    (.listEvents bindData.calendarId ⟨gstate.baseQuery, gstate.nextPageToken⟩) state
  simp only [CalendarScan.fetchPage]
  cases got : EventsResource.list engine (recordedClient retrying headers baseUrl)
      bindData.calendarId ⟨gstate.baseQuery, gstate.nextPageToken⟩ state with
  | mk answer after =>
    have left : after = (EventsResource.list engine (recordedClient retrying headers baseUrl)
      bindData.calendarId ⟨gstate.baseQuery, gstate.nextPageToken⟩ state).2 := by rw [got]
    have grown : Adds Asks state.2 after.2 := left ▸ asked
    cases answer with
    | error error => exact grown
    | ok response =>
      dsimp only
      cases response.valueOr "nextPageToken" "" Json.getString with
      | error error => exact grown
      | ok token => exact grown

/-- A scan only asks. -/
theorem scan_loop_asks (vectorSize fuel : Nat) (rows : List (List Value))
    (gstate : CalendarScanGlobalState) (state after : σ × List Exchange)
    (outcome : Except Exception (List (List Value) × CalendarScanGlobalState))
    (finished : CalendarScan.scanLoop engine (recordedClient retrying headers baseUrl) bindData
      vectorSize fuel rows gstate state = some (outcome, after)) : Adds Asks state.2 after.2 := by
  induction fuel generalizing rows gstate state with
  | zero => simp [CalendarScan.scanLoop] at finished
  | succ fuel ih =>
    have fetched := fetch_page_asks engine retrying headers baseUrl bindData gstate state
    simp only [CalendarScan.scanLoop] at finished
    split at finished
    · split at finished
      · split at finished
        · obtain ⟨-, rfl⟩ := Prod.mk.inj (Option.some.inj finished)
          exact adds_refl Asks state.2
        · split at finished
          · rename_i failed
            obtain ⟨-, rfl⟩ := Prod.mk.inj (Option.some.inj finished)
            simpa only [failed] using fetched
          · rename_i page
            simp only [page] at fetched
            exact adds_trans Asks _ _ _ fetched (ih _ _ _ finished)
      · exact ih _ _ _ finished
    · obtain ⟨-, rfl⟩ := Prod.mk.inj (Option.some.inj finished)
      exact adds_refl Asks state.2

end Scanning

section Statement

variable (bindData : CalendarScanBindData) (operator : CalendarUpdate)
  (statement : UpdateStatement) (mode : operator.returnChunk = false)
  (refused : ∃ name ∈ setNames operator, isWritable name = false)

include mode refused

/-- Chunk after chunk, a refused list asks only. -/
theorem refused_drain (vectorSize fuel calls : Nat) (gstate : CalendarScanGlobalState)
    (sinkState : CalendarUpdateGlobalSinkState) (state after : σ × List Exchange)
    (outcome : Except Exception CalendarUpdateGlobalSinkState)
    (finished : UpdateStatement.drain engine (recordedClient retrying headers baseUrl) bindData
      operator statement vectorSize fuel calls gstate sinkState state = some (outcome, after)) :
    Adds Asks state.2 after.2 := by
  induction calls generalizing gstate sinkState state with
  | zero => simp [UpdateStatement.drain] at finished
  | succ calls ih =>
    simp only [UpdateStatement.drain] at finished
    cases scanned : CalendarScan.calendarScan engine (recordedClient retrying headers baseUrl)
        bindData vectorSize fuel gstate state with
    | none => simp [scanned] at finished
    | some scan =>
      obtain ⟨answer, between⟩ := scan
      have asked := scan_loop_asks engine retrying headers baseUrl bindData vectorSize fuel []
        gstate state between answer scanned
      cases answer with
      | error error =>
        simp only [scanned, Option.some.injEq, Prod.mk.injEq] at finished
        exact finished.2 ▸ asked
      | ok page =>
        obtain ⟨rows, next⟩ := page
        cases rows with
        | nil =>
          simp only [scanned, Option.some.injEq, Prod.mk.injEq] at finished
          exact finished.2 ▸ asked
        | cons row rest =>
          have sunk := refused_sink_asks engine retrying headers baseUrl operator mode refused
            ((row :: rest).filterMap statement.project) sinkState between
          simp only [scanned] at finished
          split at finished
          · rename_i error final failed
            simp only [Option.some.injEq, Prod.mk.injEq] at finished
            simp only [failed, finished.2] at sunk
            exact adds_trans Asks _ _ _ asked sunk
          · rename_i taken final passed
            simp only [passed] at sunk
            exact adds_trans Asks _ _ _ asked (adds_trans Asks _ _ _ sunk (ih _ _ _ finished))

/-- A statement with a column that is not writable puts nothing. -/
theorem refused_run (window : DefaultWindow) (now : Int) (vectorSize fuel calls : Nat)
    (state after : σ × List Exchange) (outcome : Except Exception CalendarUpdateGlobalSinkState)
    (finished : UpdateStatement.run engine (recordedClient retrying headers baseUrl) bindData
      operator statement window now vectorSize fuel calls state = some (outcome, after)) :
    Adds Asks state.2 after.2 := by
  simp only [UpdateStatement.run, CalendarScan.calendarScanInitGlobal] at finished
  cases bounds : CalendarScan.effectiveBounds engine bindData window now with
  | error error =>
    simp only [bounds, Option.some.injEq, Prod.mk.injEq] at finished
    rw [← finished.2]
    exact adds_refl Asks state.2
  | ok range =>
    have asked := fetch_page_asks engine retrying headers baseUrl bindData
      { baseQuery := CalendarScan.baseQuery range.1 range.2, columnIds := statement.scanned } state
    simp only [bounds] at finished
    split at finished
    · rename_i failed
      simp only [Option.some.injEq, Prod.mk.injEq] at finished
      simpa only [failed, finished.2] using asked
    · rename_i opened
      simp only [opened] at asked
      exact adds_trans Asks _ _ _ asked (refused_drain engine retrying headers baseUrl bindData
        operator statement mode refused vectorSize fuel calls _ _ _ _ outcome finished)

end Statement

section Row

variable (operator : CalendarUpdate) (row : List Value) (gstate : CalendarUpdateGlobalSinkState)
  (state after : σ × List Exchange) (members : OrderedMap String Json)

/-- A list that can be written makes a body, and the body is sent unless a text is cut
inside a character. -/
theorem writable_sent (prints : engine.PrintsTimestamps) (parses : engine.ParsesUtf8)
    (sets : List (String × Value)) (formed : (Json.ofMembers members).Dumps)
    (distinct : (sets.map Prod.fst).Nodup)
    (writable : ∀ column ∈ sets, isWritable column.1 = true)
    (admitted : ∀ column ∈ sets, Admitted column.2) :
    (CutInside sets (.ofMembers members) →
      ∃ error, sentBody engine false sets (.ofMembers members) = .error (.json error)) ∧
    (¬ CutInside sets (.ofMembers members) →
      ∃ body, sentBody engine false sets (.ofMembers members) = .ok body) := by
  obtain ⟨body, made⟩ := (body_made_iff engine false sets members).mpr (Or.inr writable)
  have dumps := body_dumps_iff engine prints parses false sets members body distinct admitted
    formed made
  constructor
  · intro cut
    cases text : body.dumped with
    | error error => exact ⟨error, by simp only [sentBody, made, text]⟩
    | ok written => exact absurd cut (dumps.mp (Json.dumps_of_dumped body written text).1)
  · intro uncut
    exact ⟨body, made_sent engine false sets _ body made (dumps.mpr uncut)⟩

/-- A row whose list can be written either puts a body or ends in the error of serialising
it, and what it puts changes only what is SET, just when no text is cut inside a character
and no negative infinity is redone. -/
theorem writable_row (prints : engine.PrintsTimestamps) (parses : engine.ParsesUtf8)
    (mode : operator.returnChunk = false) (distinct : (setNames operator).Nodup)
    (writable : ∀ name ∈ setNames operator, isWritable name = true)
    (present : (rowId row).isNull = false)
    (got : EventsResource.get engine (recordedClient retrying headers baseUrl) operator.calendarId
      ((rowId row).toText engine) state = (.ok (.ofMembers members), after))
    (admitted : ∀ column ∈ operator.setColumns row, Admitted column.2) :
    let sets := operator.setColumns row
    let event := Json.ofMembers members
    let outcome :=
      sinkRow engine (recordedClient retrying headers baseUrl) operator row gstate state
    let Puts := fun body => Sends (putRequest (recordedClient retrying headers baseUrl) operator
      ((rowId row).toText engine) body) after.2 outcome.2.2
    ((∃ body, Puts body ∧ ChangesOnlySet engine sets event body) ↔
      ¬ NegativeInfinityRedone sets event ∧ ¬ CutInside sets event) ∧
    (¬ CutInside sets event → ∃ body, Puts body) ∧
    (CutInside sets event → ∃ error, outcome = (.error (.json error), after)) := by
  intro sets event outcome Puts
  have names := set_columns_names operator row
  have once : (sets.map Prod.fst).Nodup := by rwa [names]
  have all : ∀ column ∈ sets, isWritable column.1 = true := by
    intro column member
    apply writable
    rw [← names]
    exact List.mem_map_of_mem member
  obtain ⟨_, json, -, -, parsed, same⟩ := read_ok engine .ok _ _ after got
  obtain rfl := Except.ok.inj same
  obtain ⟨failed, passed⟩ := writable_sent engine members prints parses sets (parses _ _ parsed)
    once all admitted
  have puts : ∀ body, sentBody engine false sets event = .ok body → Puts body := by
    intro body sent
    exact sent_row_puts engine retrying headers baseUrl operator row gstate state after event
      present got body (mode ▸ sent)
  have ended : CutInside sets event → ∃ error, outcome = (.error (.json error), after) := by
    intro cut
    obtain ⟨error, unsent⟩ := failed cut
    exact ⟨error, unsent_row engine retrying headers baseUrl operator row gstate state after event
      present got _ (mode ▸ unsent)⟩
  have frame : ∀ body, sentBody engine false sets event = .ok body →
      (ChangesOnlySet engine sets event body ↔ ¬ NegativeInfinityRedone sets event) := by
    intro body sent
    exact changes_only_set_iff engine prints sets members body once admitted
      (sent_made engine false sets event body sent).1
  refine ⟨⟨?_, ?_⟩, ?_, ended⟩
  · rintro ⟨body, put, changes⟩
    have sent := row_puts_sent engine retrying headers baseUrl operator row gstate state after event
      present got body put
    rw [mode] at sent
    refine ⟨(frame body sent).mp changes, ?_⟩
    intro cut
    obtain ⟨error, unsent⟩ := failed cut
    rw [sent] at unsent
    cases unsent
  · rintro ⟨spared, uncut⟩
    obtain ⟨body, sent⟩ := passed uncut
    exact ⟨body, puts body sent, (frame body sent).mpr spared⟩
  · intro uncut
    obtain ⟨body, sent⟩ := passed uncut
    exact ⟨body, puts body sent⟩

end Row

/-- A client that is answered with the morning's event. -/
def morningRetrying : RetryingHttpClient (List HttpResponse) :=
  ⟨mockHttpClient, { zeroSleep := true }, fun _ responses => responses⟩

/-- An engine that reads the morning. -/
def morningEngine : Engine := .documented [("morning", .ofMembers TimeNodes.morning)]

/-- An UPDATE of the location. -/
def moveRoom : CalendarUpdate := ⟨"work", ["location"], [0], [0], false⟩

/-- What it parses is UTF-8. -/
theorem morning_parses : morningEngine.ParsesUtf8 :=
  Engine.listed_parses _ (by decide)

/-- An UPDATE of the start and `all_day`. -/
def startAtNegativeInfinity : CalendarUpdate :=
  ⟨"work", ["start", "all_day"], [0, 1], [0, 1], false⟩

/-- A row that sets the start so, and `all_day` to FALSE. -/
def negativeInfinityRow : List Value := [.timestampTz ninfinity, .boolean false, .varchar "a"]

end GoogleCalendar.PlainUpdate
