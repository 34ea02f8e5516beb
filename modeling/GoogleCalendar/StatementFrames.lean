import GoogleCalendar.CalendarTable

/-!
# What statements leave alone

A statement reads, and writes to the events of one calendar. Whatever such requests
keep, on any service, it keeps from its first request to its last, and however it
ends.
-/

namespace GoogleCalendar.StatementFrames

open Library CalendarScan EventListing Exchanges
open CalendarTable (TableStatement)

variable {σ : Type}

/-- What requests that read keep. -/
structure ReadFrame (http : IHttpClient σ) (keeps : σ → σ → Prop) : Prop where
  refl : ∀ state, keeps state state
  trans : ∀ state between after, keeps state between → keeps between after → keeps state after
  reads : ∀ request state, request.method = .get → keeps state (http.execute request state).2

/-- What requests keep that read, or that are about the events of a calendar. -/
structure Frame (http : IHttpClient σ) (calendarId : String) (keeps : σ → σ → Prop) : Prop extends
    ReadFrame http keeps where
  writes : ∀ request state,
    (request.path = .events calendarId ∨ ∃ id, request.path = .event calendarId id) →
    keeps state (http.execute request state).2

variable (engine : Engine) (client : GoogleCalendarClient σ) (calendarId : String)
  (keeps : σ → σ → Prop)

/-- A record beside the state changes nothing of it. -/
theorem recording_frame (http : IHttpClient σ) (frame : Frame http calendarId keeps) :
    Frame (recording http) calendarId (fun before after => keeps before.1 after.1) where
  refl state := frame.refl state.1
  trans state between after := frame.trans state.1 between.1 after.1
  reads request state := frame.reads request state.1
  writes request state := frame.writes request state.1

/-! ## The scan -/

section Scan

variable (bindData : CalendarScanBindData) (vectorSize fuel : Nat)
  (frame : ReadFrame client.http keeps)

include frame

/-- One call of the scan keeps what its GETs keep. -/
theorem scan_keeps (gstate : CalendarScanGlobalState) (state after : σ)
    (result : Except Exception (List (List Value) × CalendarScanGlobalState))
    (scanned : calendarScan engine client bindData vectorSize fuel gstate state =
      some (result, after)) : keeps state after :=
  SharedListing.scan_loop_keeps engine client bindData keeps frame.refl frame.trans
    frame.reads vectorSize fuel [] gstate state after result scanned

/-- Opening the scan keeps it too, also when it fails. -/
theorem init_keeps (defaults : DefaultWindow) (now : Int) (columnIds : List ColumnId)
    (state : σ) :
    keeps state (calendarScanInitGlobal engine client bindData defaults now columnIds state).2 := by
  simp only [calendarScanInitGlobal]
  split
  · exact frame.refl state
  · exact SharedListing.fetch_page_keeps engine client bindData keeps
      frame.reads _ state

/-- Any number of calls keep it, by induction on that number. -/
theorem scan_calls_keep (calls : Nat) (gstate : CalendarScanGlobalState) (state after : σ)
    (result : Except Exception (List (List (List Value)) × CalendarScanGlobalState))
    (called : ScanPages.scanCalls engine client bindData vectorSize fuel calls gstate state =
      some (result, after)) : keeps state after := by
  induction calls generalizing gstate state result with
  | zero =>
    obtain ⟨-, rfl⟩ := Prod.mk.inj (Option.some.inj called)
    exact frame.refl state
  | succ calls ih =>
    simp only [ScanPages.scanCalls] at called
    split at called
    · cases called
    · rename_i error between scanned
      obtain ⟨-, rfl⟩ := Prod.mk.inj (Option.some.inj called)
      exact scan_keeps engine client keeps bindData vectorSize fuel frame gstate state
        between _ scanned
    · rename_i rows next between scanned
      apply frame.trans state between after
      · exact scan_keeps engine client keeps bindData vectorSize fuel frame gstate state
          between _ scanned
      · split at called
        · rename_i chunks last final rest
          obtain ⟨-, rfl⟩ := Prod.mk.inj (Option.some.inj called)
          exact ih next between _ rest
        · exact ih next between _ called

end Scan

/-! ## The sinks -/

section Write

variable (frame : Frame client.http calendarId keeps)

include frame

/-- A request about an event keeps it. -/
theorem event_kept (method : HttpMethod) (id : String) (body : Option Json) (state : σ) :
    keeps state (client.http.execute (client.request method (.event calendarId id) body) state).2 :=
  frame.writes _ state (.inr ⟨id, rfl⟩)

/-- Sending a body keeps it, whether or not the body can be serialised. -/
theorem sent_kept (method : HttpMethod) (path : ResourcePath)
    (about : path = .events calendarId ∨ ∃ id, path = .event calendarId id) (body : Json)
    (state : σ) : keeps state (client.send method path body state).2 := by
  rcases client.send_cases method path body state with ⟨error, -, failed⟩ | ⟨-, sent⟩
  · rw [failed]
    exact frame.refl state
  · rw [sent]
    exact frame.writes _ state about

/-- Creating an event keeps it, with the PUT on a conflict and without. -/
theorem create_keeps (operator : CalendarInsert) (here : operator.calendarId = calendarId)
    (event : Json) (state : σ) :
    keeps state (CalendarInsert.createEvent engine client operator event state).2 := by
  subst here
  have posted : keeps state
      (EventsResource.insert engine client operator.calendarId event state).2 :=
    sent_kept client operator.calendarId keeps frame .post _ (.inl rfl) event state
  simp only [CalendarInsert.createEvent]
  split
  · rename_i answered
    rwa [answered] at posted
  · rename_i message between answered
    rw [answered] at posted
    split
    · split
      · rename_i text read
        apply frame.trans state between _ posted
        exact sent_kept client operator.calendarId keeps frame .put _ (.inr ⟨text, rfl⟩) event
          between
      · exact posted
    · exact posted
  · rename_i answered
    rwa [answered] at posted

/-- A row of an INSERT keeps it. -/
theorem insert_row_keeps (operator : CalendarInsert) (here : operator.calendarId = calendarId)
    (row : List Value) (gstate : CalendarInsertGlobalSinkState) (state : σ) :
    keeps state (CalendarInsert.sinkRow engine client operator row gstate state).2.2 := by
  simp only [CalendarInsert.sinkRow]
  split
  · exact frame.refl state
  · rename_i event built
    have created := create_keeps engine client calendarId keeps frame operator here event state
    split <;> rename_i ended <;> rwa [ended] at created

/-- The rows of an INSERT keep it, by induction on them. -/
theorem insert_sink_keeps (operator : CalendarInsert) (here : operator.calendarId = calendarId)
    (rows : List (List Value)) (gstate : CalendarInsertGlobalSinkState) (state : σ) :
    keeps state (CalendarInsert.sink engine client operator rows gstate state).2.2 := by
  induction rows generalizing gstate state with
  | nil => exact frame.refl state
  | cons row rest ih =>
    have one := insert_row_keeps engine client calendarId keeps frame operator here row gstate state
    simp only [CalendarInsert.sink]
    split
    · rename_i ended
      rwa [ended] at one
    · rename_i next after ended
      rw [ended] at one
      exact frame.trans state after _ one (ih next after)

/-- A row of an UPDATE keeps it: a GET, and a PUT if one is sent. -/
theorem update_row_keeps (operator : CalendarUpdate) (here : operator.calendarId = calendarId)
    (row : List Value) (gstate : CalendarUpdateGlobalSinkState) (state : σ) :
    keeps state (CalendarUpdate.sinkRow engine client operator row gstate state).2 := by
  subst here
  simp only [CalendarUpdate.sinkRow]
  split
  · exact frame.refl state
  · let id := (CalendarUpdate.rowId row).toText engine
    have read : keeps state
        (EventsResource.get engine client operator.calendarId id state).2 :=
      event_kept client operator.calendarId keeps frame .get id none state
    split
    · rename_i answered
      rwa [answered] at read
    · rename_i event between answered
      rw [answered] at read
      split
      · exact read
      · rename_i body made
        have put : keeps between
            (EventsResource.update engine client operator.calendarId id body between).2 :=
          sent_kept client operator.calendarId keeps frame .put _ (.inr ⟨id, rfl⟩) body between
        simp only [CalendarUpdate.sinkBody]
        split <;> rename_i ended <;> rw [ended] at put <;> exact frame.trans _ _ _ read put

/-- The rows of an UPDATE keep it, by induction on them. -/
theorem update_sink_keeps (operator : CalendarUpdate) (here : operator.calendarId = calendarId)
    (rows : List (List Value)) (gstate : CalendarUpdateGlobalSinkState) (state : σ) :
    keeps state (CalendarUpdate.sink engine client operator rows gstate state).2 := by
  induction rows generalizing gstate state with
  | nil => exact frame.refl state
  | cons row rest ih =>
    have one := update_row_keeps engine client calendarId keeps frame operator here row gstate state
    simp only [CalendarUpdate.sink]
    split
    · rename_i ended
      rwa [ended] at one
    · rename_i next after ended
      rw [ended] at one
      exact frame.trans state after _ one (ih next after)

/-- A deletion keeps it. -/
theorem deletion_keeps (operator : CalendarDelete) (here : operator.calendarId = calendarId)
    (id : String) (gstate : CalendarDeleteGlobalSinkState) (state : σ) :
    keeps state (CalendarDelete.deleteEvent client operator id gstate state).2.2 := by
  subst here
  have deleted : keeps state (EventsResource.delete client operator.calendarId id state).2 :=
    event_kept client operator.calendarId keeps frame .del id none state
  simp only [CalendarDelete.deleteEvent]
  split <;> rename_i ended <;> rwa [ended] at deleted

/-- A row of a DELETE keeps it, with the GET that RETURNING needs and without. -/
theorem delete_row_keeps (operator : CalendarDelete) (here : operator.calendarId = calendarId)
    (row : List Value) (gstate : CalendarDeleteGlobalSinkState) (state : σ) :
    keeps state (CalendarDelete.sinkRow engine client operator row gstate state).2.2 := by
  simp only [CalendarDelete.sinkRow]
  split
  · exact frame.refl state
  · split
    · have read : keeps state (EventsResource.get engine client operator.calendarId
          ((row.getD operator.rowIdIndex .null).toText engine) state).2 :=
        frame.reads _ state rfl
      split
      · rename_i answered
        rwa [answered] at read
      · rename_i event between answered
        rw [answered] at read
        exact frame.trans _ _ _ read
          (deletion_keeps client calendarId keeps frame operator here _ _ between)
    · exact deletion_keeps client calendarId keeps frame operator here _ gstate state

/-- The rows of a DELETE keep it, by induction on them. -/
theorem delete_sink_keeps (operator : CalendarDelete) (here : operator.calendarId = calendarId)
    (rows : List (List Value)) (gstate : CalendarDeleteGlobalSinkState) (state : σ) :
    keeps state (CalendarDelete.sink engine client operator rows gstate state).2.2 := by
  induction rows generalizing gstate state with
  | nil => exact frame.refl state
  | cons row rest ih =>
    have one := delete_row_keeps engine client calendarId keeps frame operator here row gstate state
    simp only [CalendarDelete.sink]
    split
    · rename_i ended
      rwa [ended] at one
    · rename_i next after ended
      rw [ended] at one
      exact frame.trans state after _ one (ih next after)

/-! ## Whole statements -/

variable (bindData : CalendarScanBindData) (vectorSize fuel : Nat)

/-- The chunks of an UPDATE keep it: each is read and then sunk. Induct on the calls. -/
theorem update_drain_keeps (operator : CalendarUpdate) (here : operator.calendarId = calendarId)
    (statement : UpdateStatement) (calls : Nat) (gstate : CalendarScanGlobalState)
    (sinkState : CalendarUpdateGlobalSinkState) (state after : σ)
    (result : Except Exception CalendarUpdateGlobalSinkState)
    (drained : statement.drain engine client bindData operator vectorSize fuel calls gstate
      sinkState state = some (result, after)) : keeps state after := by
  induction calls generalizing gstate sinkState state with
  | zero => cases drained
  | succ calls ih =>
    simp only [UpdateStatement.drain] at drained
    split at drained
    · cases drained
    · rename_i error between scanned
      obtain ⟨-, rfl⟩ := Prod.mk.inj (Option.some.inj drained)
      exact scan_keeps engine client keeps bindData vectorSize fuel frame.toReadFrame gstate state
        between _ scanned
    · rename_i next between scanned
      obtain ⟨-, rfl⟩ := Prod.mk.inj (Option.some.inj drained)
      exact scan_keeps engine client keeps bindData vectorSize fuel frame.toReadFrame gstate state
        between _ scanned
    · rename_i rows next between nonempty scanned
      have read := scan_keeps engine client keeps bindData vectorSize fuel frame.toReadFrame gstate
        state between _ scanned
      have wrote := update_sink_keeps engine client calendarId keeps frame operator here
        (rows.filterMap statement.project) sinkState between
      apply frame.trans state between after read
      split at drained
      · rename_i error final ended
        obtain ⟨-, rfl⟩ := Prod.mk.inj (Option.some.inj drained)
        rwa [ended] at wrote
      · rename_i sunk final ended
        rw [ended] at wrote
        exact frame.trans between final after wrote (ih next sunk final drained)

/-- An UPDATE keeps it from its first page on. -/
theorem update_run_keeps (operator : CalendarUpdate) (here : operator.calendarId = calendarId)
    (statement : UpdateStatement) (defaults : DefaultWindow) (now : Int) (calls : Nat)
    (state after : σ) (result : Except Exception CalendarUpdateGlobalSinkState)
    (ran : statement.run engine client bindData operator defaults now vectorSize fuel calls state =
      some (result, after)) : keeps state after := by
  have opened := init_keeps engine client keeps bindData frame.toReadFrame defaults now
    statement.scanned state
  simp only [UpdateStatement.run] at ran
  split at ran
  · rename_i error between initialised
    obtain ⟨-, rfl⟩ := Prod.mk.inj (Option.some.inj ran)
    rwa [initialised] at opened
  · rename_i gstate first initialised
    rw [initialised] at opened
    exact frame.trans state first after opened (update_drain_keeps engine client calendarId keeps
      frame bindData vectorSize fuel operator here statement calls gstate {} first after result ran)

/-- The chunks of a DELETE keep it. Induct on the calls. -/
theorem delete_drain_keeps (operator : CalendarDelete) (here : operator.calendarId = calendarId)
    (statement : DeleteStatement) (calls : Nat) (gstate : CalendarScanGlobalState)
    (sinkState sunk : CalendarDeleteGlobalSinkState) (state after : σ)
    (result : Except Exception Unit)
    (drained : statement.drain engine client bindData operator vectorSize fuel calls gstate
      sinkState state = some (result, sunk, after)) : keeps state after := by
  induction calls generalizing gstate sinkState state with
  | zero => cases drained
  | succ calls ih =>
    simp only [DeleteStatement.drain] at drained
    split at drained
    · cases drained
    · rename_i error between scanned
      obtain ⟨-, same⟩ := Prod.mk.inj (Option.some.inj drained)
      obtain ⟨-, rfl⟩ := Prod.mk.inj same
      exact scan_keeps engine client keeps bindData vectorSize fuel frame.toReadFrame gstate state
        between _ scanned
    · rename_i next between scanned
      obtain ⟨-, same⟩ := Prod.mk.inj (Option.some.inj drained)
      obtain ⟨-, rfl⟩ := Prod.mk.inj same
      exact scan_keeps engine client keeps bindData vectorSize fuel frame.toReadFrame gstate state
        between _ scanned
    · rename_i rows next between nonempty scanned
      have read := scan_keeps engine client keeps bindData vectorSize fuel frame.toReadFrame gstate
        state between _ scanned
      have wrote := delete_sink_keeps engine client calendarId keeps frame operator here
        (rows.filterMap statement.project) sinkState between
      apply frame.trans state between after read
      split at drained
      · rename_i error stopped final ended
        obtain ⟨-, same⟩ := Prod.mk.inj (Option.some.inj drained)
        obtain ⟨-, rfl⟩ := Prod.mk.inj same
        rwa [ended] at wrote
      · rename_i further final ended
        rw [ended] at wrote
        exact frame.trans between final after wrote (ih next further final drained)

/-- A DELETE keeps it from its first page on. -/
theorem delete_run_keeps (operator : CalendarDelete) (here : operator.calendarId = calendarId)
    (statement : DeleteStatement) (defaults : DefaultWindow) (now : Int) (calls : Nat)
    (state after : σ) (sunk : CalendarDeleteGlobalSinkState) (result : Except Exception Unit)
    (ran : statement.run engine client bindData operator defaults now vectorSize fuel calls state =
      some (result, sunk, after)) : keeps state after := by
  have opened := init_keeps engine client keeps bindData frame.toReadFrame defaults now
    statement.scanned state
  simp only [DeleteStatement.run] at ran
  split at ran
  · rename_i error between initialised
    obtain ⟨-, same⟩ := Prod.mk.inj (Option.some.inj ran)
    obtain ⟨-, rfl⟩ := Prod.mk.inj same
    rwa [initialised] at opened
  · rename_i gstate first initialised
    rw [initialised] at opened
    exact frame.trans state first after opened (delete_drain_keeps engine client calendarId keeps
      frame bindData vectorSize fuel operator here statement calls gstate {} sunk first after result
      ran)

end Write

section Statement

variable (http : IHttpClient σ) (headers : HttpHeaders) (baseUrl : String)
  (defaults : DefaultWindow) (vectorSize fuel : Nat)

/-- A SELECT keeps what its requests keep, however it ends. -/
theorem select_keeps (read : ReadFrame http keeps) (now : Int) (bindData : CalendarScanBindData)
    (columnIds : List ColumnId) (calls : Nat) (state after : σ)
    (result : Except Exception CalendarTable.Report)
    (performed : (TableStatement.select now bindData columnIds).perform engine http headers baseUrl
      defaults vectorSize fuel calls state = some (result, after)) : keeps state after := by
  have opened := init_keeps engine ⟨http, headers, baseUrl⟩ keeps bindData read defaults now
    columnIds state
  simp only [TableStatement.perform] at performed
  split at performed
  · rename_i error between initialised
    obtain ⟨-, rfl⟩ := Prod.mk.inj (Option.some.inj performed)
    rwa [initialised] at opened
  · rename_i gstate first initialised
    rw [initialised] at opened
    apply read.trans state first after opened
    split at performed
    · cases performed
    · rename_i error between called
      obtain ⟨-, rfl⟩ := Prod.mk.inj (Option.some.inj performed)
      exact scan_calls_keep engine ⟨http, headers, baseUrl⟩ keeps bindData vectorSize fuel read
        calls gstate first between _ called
    · rename_i chunks last between called
      split at performed
      · obtain ⟨-, rfl⟩ := Prod.mk.inj (Option.some.inj performed)
        exact scan_calls_keep engine ⟨http, headers, baseUrl⟩ keeps bindData vectorSize fuel read
          calls gstate first between _ called
      · cases performed

/-- The statements that write to the events of a calendar, if they write at all. -/
def WritesTo (calendarId : String) : TableStatement → Prop
  | .select _ _ _ => True
  | .insert operator _ => operator.calendarId = calendarId
  | .update _ _ operator _ => operator.calendarId = calendarId
  | .delete _ _ operator _ => operator.calendarId = calendarId

/-- A statement keeps what its requests keep, however it ends and whatever it writes. -/
theorem statement_keeps (framed : Frame http calendarId keeps) (calls : Nat)
    (statement : TableStatement) (here : WritesTo calendarId statement) (state after : σ)
    (result : Except Exception CalendarTable.Report)
    (performed : statement.perform engine http headers baseUrl defaults vectorSize fuel calls
      state = some (result, after)) : keeps state after := by
  have recorded := recording_frame calendarId keeps http framed
  cases statement with
  | select now bindData columnIds =>
    exact select_keeps engine keeps http headers baseUrl defaults vectorSize fuel
      framed.toReadFrame now bindData columnIds calls state after result performed
  | insert operator rows =>
    have wrote := insert_sink_keeps engine ⟨http, headers, baseUrl⟩ calendarId keeps framed operator
      here rows {} state
    simp only [TableStatement.perform] at performed
    split at performed <;> rename_i ended <;> rw [ended] at wrote <;>
      obtain ⟨-, rfl⟩ := Prod.mk.inj (Option.some.inj performed) <;> exact wrote
  | update now bindData operator statement =>
    have runs := update_run_keeps engine ⟨recording http, headers, baseUrl⟩ calendarId _ recorded
      bindData vectorSize fuel operator here statement defaults now calls (state, [])
    simp only [TableStatement.perform] at performed
    split at performed
    · cases performed
    · rename_i ran
      obtain ⟨-, rfl⟩ := Prod.mk.inj (Option.some.inj performed)
      exact runs _ _ ran
    · rename_i ran
      obtain ⟨-, rfl⟩ := Prod.mk.inj (Option.some.inj performed)
      exact runs _ _ ran
  | delete now bindData operator statement =>
    have runs := delete_run_keeps engine ⟨recording http, headers, baseUrl⟩ calendarId _ recorded
      bindData vectorSize fuel operator here statement defaults now calls (state, [])
    simp only [TableStatement.perform] at performed
    split at performed
    · cases performed
    · rename_i ran
      obtain ⟨-, rfl⟩ := Prod.mk.inj (Option.some.inj performed)
      exact runs _ _ _ ran
    · rename_i ran
      obtain ⟨-, rfl⟩ := Prod.mk.inj (Option.some.inj performed)
      exact runs _ _ _ ran

end Statement

end GoogleCalendar.StatementFrames
