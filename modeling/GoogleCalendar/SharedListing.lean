import GoogleCalendar.UpdateOnce
import GoogleCalendar.ScanPages
import GoogleCalendar.Library.SharedScan

/-!
# Scanning a calendar that others write to

Other programs change the calendar between the requests of a scan, and so between
its pages. Some of the events are owned: nobody else writes to them while the scan
runs. Whatever happens to the others, an owned event of the window is put out once,
with the body it has, and the rows come in the order of start and id.

The service answers each page from the state it has then. A page token stands for
the place where the listing goes on, not for a state that is kept.
-/

namespace GoogleCalendar.SharedListing

open Library CalendarScan CursorScan EventListing SharedScan

section Service

variable {σ : Type} (engine : Engine) (http : IHttpClient σ) (bindData : CalendarScanBindData)
  (base : QueryBuilder) (stored : σ → String → Option Json) (instant : Option Json → Int)
  (window : Json → Bool) (resume : String → WithBot Position) (owned : String → Prop)

/-- The service as far as a scan needs it, with other writers at work while it handles a
request. A GET writes nothing, so that the owned events stay as they are. A list request is
answered with a page of a state that the owned events have not changed in. -/
structure SharedService : Prop where
  starts : resume "" = ⊥
  reads : ∀ request state, request.method = .get →
    Agrees owned (stored state) (stored (http.execute request state).2)
  lists : ∀ request token state response after json following, request.method = .get →
    request.path = .listEvents bindData.calendarId ⟨base, token⟩ →
    http.execute request state = (.ok response, after) → response.statusCode = 200 →
    engine.parse response.body = some json →
    json.valueOr "nextPageToken" "" Json.getString = .ok following →
    ∃ seen, Agrees owned (stored state) seen ∧ Agrees owned seen (stored after) ∧
      (∀ id body, seen id = some body → Identified id body) ∧
      ∃ page, responseItems json = page.map Prod.snd ∧
        Page (position instant) window seen (resume token) page (following ≠ "") ∧
        (following ≠ "" → resume following = cursorAfter (position instant) (resume token) page)

end Service

/-! ## What a scan asks -/

section Reads

variable {σ : Type} (engine : Engine) (client : GoogleCalendarClient σ)
  (bindData : CalendarScanBindData) (keeps : σ → σ → Prop)

/-- A page that is fetched keeps what its GET keeps. -/
theorem fetch_page_keeps
    (reads : ∀ request state, request.method = .get →
      keeps state (client.http.execute request state).2)
    (gstate : CalendarScanGlobalState) (state : σ) :
    keeps state (fetchPage engine client bindData gstate state).2 := by
  let request := client.request .get
    (.listEvents bindData.calendarId ⟨gstate.baseQuery, gstate.nextPageToken⟩) none
  have left : (fetchPage engine client bindData gstate state).2 =
      (client.http.execute request state).2 := by
    simp only [fetchPage]
    split
    · rename_i listed
      exact (congrArg Prod.snd listed).symm
    · rename_i listed
      split <;> exact (congrArg Prod.snd listed).symm
  rw [left]
  exact reads request state rfl

/-- A scan sends GET requests only: what they keep, it keeps, however it ends. -/
theorem scan_loop_keeps (refl : ∀ state, keeps state state)
    (trans : ∀ state between after, keeps state between → keeps between after → keeps state after)
    (reads : ∀ request state, request.method = .get →
      keeps state (client.http.execute request state).2)
    (vectorSize fuel : Nat) (rows : List (List Value)) (gstate : CalendarScanGlobalState)
    (state after : σ) (result : Except Exception (List (List Value) × CalendarScanGlobalState))
    (loop : scanLoop engine client bindData vectorSize fuel rows gstate state =
      some (result, after)) : keeps state after := by
  induction fuel generalizing rows gstate state with
  | zero => simp [scanLoop] at loop
  | succ fuel ih =>
    rw [scanLoop] at loop
    split at loop
    · split at loop
      · split at loop
        · cases loop
          exact refl _
        · have first := fetch_page_keeps engine client bindData keeps reads gstate state
          split at loop
          · rename_i error between page
            rw [page] at first
            cases loop
            exact first
          · rename_i fetched between page
            rw [page] at first
            exact trans state between after first (ih rows fetched between loop)
      · exact ih _ _ state loop
    · cases loop
      exact refl _

end Reads

/-! ## The scan as a run of the cursor -/

section Scan

variable {σ : Type} (engine : Engine) (http : IHttpClient σ) (headers : HttpHeaders)
  (baseUrl : String) (bindData : CalendarScanBindData) (columnIds : List ColumnId)
  (passes : Json → Bool) (base : QueryBuilder) (stored : σ → String → Option Json)
  (instant : Option Json → Int) (window : Json → Bool) (resume : String → WithBot Position)
  (owned : String → Prop)

/-- How a scan state and the events of the chunk not yet consumed stand for a cursor in the
collection. -/
structure Stands (scan : Scan String Json Position) (chunk : List Json)
    (gstate : CalendarScanGlobalState) (state : σ) : Prop where
  held : scan.held = stored state
  more : scan.more = decide (gstate.nextPageToken ≠ "")
  cursor : gstate.nextPageToken ≠ "" → scan.cursor = resume gstate.nextPageToken
  queue : scan.queue.map Prod.snd = chunk ++ gstate.items.drop gstate.itemIndex
  identified : ∀ entry ∈ scan.queue, Identified entry.1 entry.2
  query : gstate.baseQuery = base
  columns : gstate.columnIds = columnIds
  ended : gstate.finished = true →
    gstate.nextPageToken = "" ∧ gstate.items.drop gstate.itemIndex = []

/-- A fetch from where a cursor stands is a page of the collection, with the work of others
before and after it. -/
theorem fetch_page_run
    (service : SharedService engine http bindData base stored instant window resume owned)
    (scan : Scan String Json Position) (chunk : List Json)
    (gstate fetched : CalendarScanGlobalState) (state after : σ)
    (held : scan.held = stored state) (more : scan.more = true)
    (cursor : scan.cursor = resume gstate.nextPageToken)
    (queue : scan.queue.map Prod.snd = chunk)
    (identified : ∀ entry ∈ scan.queue, Identified entry.1 entry.2)
    (query : gstate.baseQuery = base) (columns : gstate.columnIds = columnIds)
    (unfinished : gstate.finished = false)
    (page : fetchPage engine ⟨http, headers, baseUrl⟩ bindData gstate state =
      (.ok fetched, after)) :
    ∃ next, SharedScan.Run (position instant) window passes owned scan [] next ∧
      Stands columnIds base stored resume next chunk fetched after := by
  simp only [fetchPage] at page
  split at page
  · exact absurd page (by simp)
  · rename_i response between listed
    split at page
    · exact absurd page (by simp)
    · rename_i following tokened
      obtain ⟨same, rfl⟩ := Prod.mk.inj page
      obtain rfl := Except.ok.inj same
      obtain ⟨answer, json, executed, status, parsed, read⟩ :=
        read_ok engine .ok _ response _ listed
      obtain rfl := Except.ok.inj read
      rw [query] at executed
      obtain ⟨seen, before, later, named, entries, items, isPage, resumes⟩ :=
        service.lists _ gstate.nextPageToken state answer _ json following rfl rfl executed status
          parsed tokened
      rw [← held] at before
      rw [← cursor] at isPage resumes
      let shown : Scan String Json Position := { scan with held := seen }
      let paged : Scan String Json Position :=
        { shown with queue := scan.queue ++ entries, more := decide (following ≠ ""),
                     cursor := cursorAfter (position instant) scan.cursor entries }
      have first : SharedScan.Step (position instant) window passes owned scan none shown :=
        .elsewhere scan seen before
      have second : SharedScan.Step (position instant) window passes owned shown none paged :=
        .fetch shown entries (decide (following ≠ "")) more (by simpa using isPage)
      have third : SharedScan.Step (position instant) window passes owned paged none
          { paged with held := stored between } := .elsewhere paged (stored between) later
      refine ⟨{ paged with held := stored between }, ?_, ?_⟩
      · exact .step scan shown _ none [] first (.step shown paged _ none [] second
          (run_step (position instant) window passes owned paged _ none third))
      · refine ⟨rfl, rfl, fun pending => (resumes pending).symm, by simp [paged, queue, items], ?_,
          query, columns, fun finished => absurd finished (by simp [unfinished])⟩
        intro entry member
        rcases List.mem_append.mp member with waits | comes
        · exact identified entry waits
        · exact named entry.1 entry.2 (isPage.ahead entry comes).1

/-- One call of the scan fetches pages and moves events from the page into the chunk. It falls
short of a vector only when the scan has finished. -/
theorem scan_loop_run
    (service : SharedService engine http bindData base stored instant window resume owned)
    (vectorSize fuel : Nat) (scan : Scan String Json Position) (chunk : List Json)
    (rows : List (List Value)) (gstate last : CalendarScanGlobalState) (state after : σ)
    (stands : Stands columnIds base stored resume scan chunk gstate state)
    (loop : scanLoop engine ⟨http, headers, baseUrl⟩ bindData vectorSize fuel
      (chunk.map (scanRow engine bindData columnIds)) gstate state =
        some (.ok (rows, last), after)) :
    ∃ next full, SharedScan.Run (position instant) window passes owned scan [] next ∧
      Stands columnIds base stored resume next full last after ∧
      rows = full.map (scanRow engine bindData columnIds) ∧
      (rows.length < vectorSize → last.finished = true) := by
  -- as the loop goes: an event of the page joins the chunk, past the last one a page is fetched
  induction fuel generalizing scan chunk gstate state with
  | zero => simp [scanLoop] at loop
  | succ fuel ih =>
    rw [scanLoop] at loop
    split at loop
    · rename_i running
      split at loop
      · rename_i item
        have exhausted : gstate.items.drop gstate.itemIndex = [] :=
          List.drop_eq_nil_of_le (List.getElem?_eq_none_iff.mp item)
        split at loop
        · rename_i empty
          simp only [Option.some.injEq, Prod.mk.injEq, Except.ok.injEq] at loop
          obtain ⟨⟨rfl, rfl⟩, rfl⟩ := loop
          exact ⟨scan, chunk, .done scan, { stands with ended := fun _ => ⟨empty, exhausted⟩ }, rfl,
            fun _ => rfl⟩
        · rename_i pending
          split at loop
          · exact absurd loop (by simp)
          · rename_i fetched between page
            have queue : scan.queue.map Prod.snd = chunk := by
              rw [stands.queue, exhausted, List.append_nil]
            obtain ⟨next, run, moved⟩ := fetch_page_run engine http headers baseUrl bindData
              columnIds passes base stored instant window resume owned service scan chunk gstate
              fetched state between stands.held (by simp [stands.more, pending])
              (stands.cursor pending) queue stands.identified stands.query stands.columns running.2
              page
            obtain ⟨final, full, later, stood, made, short⟩ :=
              ih next chunk fetched between moved loop
            exact ⟨final, full, run_trans _ window passes owned scan next final [] [] run later,
              stood, made, short⟩
      · rename_i event item
        have inside : gstate.itemIndex < gstate.items.length :=
          (List.getElem?_eq_some_iff.mp item).1
        have first : gstate.items.drop gstate.itemIndex =
            event :: gstate.items.drop (gstate.itemIndex + 1) := by
          rw [List.drop_eq_getElem_cons inside, (List.getElem?_eq_some_iff.mp item).2]
        have joined : chunk.map (scanRow engine bindData columnIds) ++
            [scanRow engine bindData gstate.columnIds event] =
            (chunk ++ [event]).map (scanRow engine bindData columnIds) := by
          simp [stands.columns]
        rw [joined] at loop
        have moved : Stands columnIds base stored resume scan (chunk ++ [event])
            { gstate with itemIndex := gstate.itemIndex + 1 } state :=
          { stands with
            queue := by rw [stands.queue, first]; simp
            ended := fun finished => absurd finished (by simp [running.2]) }
        exact ih scan (chunk ++ [event]) _ state moved loop
    · rename_i stopped
      simp only [Option.some.injEq, Prod.mk.injEq, Except.ok.injEq] at loop
      obtain ⟨⟨rfl, rfl⟩, rfl⟩ := loop
      refine ⟨scan, chunk, .done scan, stands, rfl, ?_⟩
      intro short
      by_contra unfinished
      exact stopped ⟨short, by simpa using unfinished⟩

/-- The first page, from before the collection. -/
theorem init_run
    (service : SharedService engine http bindData base stored instant window resume owned)
    (defaults : DefaultWindow) (now : Int) (timeMin timeMax : Option String)
    (bounds : effectiveBounds engine bindData defaults now = .ok (timeMin, timeMax))
    (query : baseQuery timeMin timeMax = base) (state after : σ) (gstate : CalendarScanGlobalState)
    (initialised : calendarScanInitGlobal engine ⟨http, headers, baseUrl⟩ bindData defaults now
      columnIds state = (.ok gstate, after)) :
    ∃ scan, SharedScan.Run (position instant) window passes owned (opening (stored state)) [] scan ∧
      Stands columnIds base stored resume scan [] gstate after := by
  simp only [calendarScanInitGlobal, bounds] at initialised
  exact fetch_page_run engine http headers baseUrl bindData columnIds passes base stored instant
    window resume owned service (opening (stored state)) []
    { baseQuery := baseQuery timeMin timeMax, columnIds := columnIds } gstate state after rfl rfl
    service.starts.symm rfl (by simp [opening]) query rfl rfl initialised

/-- The engine takes the rows of a chunk: every event of it is put out, and none changes. -/
theorem emit_run (everything : ∀ body, passes body = true) (chunk : List Json)
    (scan : Scan String Json Position) (gstate : CalendarScanGlobalState) (state : σ)
    (stands : Stands columnIds base stored resume scan chunk gstate state) :
    ∃ next handled, SharedScan.Run (position instant) window passes owned scan handled next ∧
      Stands columnIds base stored resume next [] gstate state ∧
      handled.map Handled.value = chunk ∧
      ∀ made ∈ handled, made.removed = false ∧ Identified made.item made.value := by
  induction chunk generalizing scan with
  | nil => exact ⟨scan, [], .done scan, stands, rfl, by simp⟩
  | cons body chunk ih =>
    obtain ⟨⟨id, body⟩, rest, whole, rfl, others⟩ := List.map_eq_cons_iff.mp stands.queue
    have named := stands.identified (id, body) (by simp [whole])
    have step : SharedScan.Step (position instant) window passes owned scan
        (some ⟨id, body, false⟩) { scan with queue := rest } :=
      .handle scan id body false rest whole (everything body)
    have stood : Stands columnIds base stored resume { scan with queue := rest } chunk gstate
        state :=
      { stands with
        queue := others
        identified := fun entry member => stands.identified entry (by simp [whole, member]) }
    obtain ⟨next, handled, run, ended, values, kept⟩ := ih _ stood
    refine ⟨next, ⟨id, body, false⟩ :: handled, .step scan _ next _ handled step run, ended,
      by simp [values], ?_⟩
    intro made member
    rcases List.mem_cons.mp member with rfl | later
    · exact ⟨rfl, named⟩
    · exact kept made later

/-- Calls of the scan, one after another, put out the events that the cursor comes to. -/
theorem calls_run
    (service : SharedService engine http bindData base stored instant window resume owned)
    (everything : ∀ body, passes body = true) (vectorSize fuel calls : Nat)
    (scan : Scan String Json Position) (gstate last : CalendarScanGlobalState) (state after : σ)
    (chunks : List (List (List Value)))
    (stands : Stands columnIds base stored resume scan [] gstate state)
    (called : ScanPages.scanCalls engine ⟨http, headers, baseUrl⟩ bindData vectorSize fuel calls
      gstate state = some (.ok (chunks, last), after)) :
    ∃ next handled, SharedScan.Run (position instant) window passes owned scan handled next ∧
      Stands columnIds base stored resume next [] last after ∧
      chunks.flatten = handled.map (fun made => scanRow engine bindData columnIds made.value) ∧
      ∀ made ∈ handled, made.removed = false ∧ Identified made.item made.value := by
  induction calls generalizing scan gstate state chunks with
  | zero =>
    simp only [ScanPages.scanCalls, Option.some.injEq, Prod.mk.injEq, Except.ok.injEq] at called
    obtain ⟨⟨rfl, rfl⟩, rfl⟩ := called
    exact ⟨scan, [], .done scan, stands, rfl, by simp⟩
  | succ calls ih =>
    simp only [ScanPages.scanCalls, calendarScan] at called
    split at called
    · cases called
    · cases called
    · rename_i rows gstate' between loop
      obtain ⟨next, full, fetching, stood, rfl, -⟩ := scan_loop_run engine http headers baseUrl
        bindData columnIds passes base stored instant window resume owned service vectorSize fuel
        scan [] _ gstate gstate' state between stands loop
      obtain ⟨emitted, early, emitting, emptied, values, kept⟩ := emit_run columnIds passes base
        stored instant window resume owned everything full next gstate' between stood
      split at called
      · rename_i rest final finish later
        simp only [Option.some.injEq, Prod.mk.injEq, Except.ok.injEq] at called
        obtain ⟨⟨rfl, rfl⟩, rfl⟩ := called
        obtain ⟨ending, late, run, ended, made, keptLater⟩ :=
          ih emitted gstate' between rest emptied later
        refine ⟨ending, early ++ late, ?_, ended, ?_, ?_⟩
        · exact run_trans _ window passes owned scan next ending [] _ fetching
            (run_trans _ window passes owned next emitted ending early late emitting run)
        · rw [List.flatten_cons, made, List.map_append, ← values, List.map_map]
          rfl
        · intro one member
          rcases List.mem_append.mp member with here | there
          · exact kept one here
          · exact keptLater one there
      · rename_i other
        exact absurd called (other _ _ _)

/-- A scan puts out rows of events in the order of start and id, so that no event is put out
twice at one place, whatever others write meanwhile. An event that nobody else writes to is put
out at most once, only when it is in the window and with the body it has, and it has been put out
when the scan has finished. -/
theorem scan_emits_owned_once
    (service : SharedService engine http bindData base stored instant window resume owned)
    (defaults : DefaultWindow) (now : Int) (timeMin timeMax : Option String)
    (bounds : effectiveBounds engine bindData defaults now = .ok (timeMin, timeMax))
    (query : baseQuery timeMin timeMax = base) (vectorSize fuel calls : Nat)
    (state first after : σ) (gstate last : CalendarScanGlobalState)
    (chunks : List (List (List Value)))
    (initialised : calendarScanInitGlobal engine ⟨http, headers, baseUrl⟩ bindData defaults now
      columnIds state = (.ok gstate, first))
    (called : ScanPages.scanCalls engine ⟨http, headers, baseUrl⟩ bindData vectorSize fuel calls
      gstate first = some (.ok (chunks, last), after)) :
    ∃ emitted : List (String × Json),
      chunks.flatten = emitted.map (fun entry => scanRow engine bindData columnIds entry.2) ∧
      (∀ entry ∈ emitted, Identified entry.1 entry.2) ∧
      emitted.Pairwise (fun left right =>
        position instant left.1 left.2 < position instant right.1 right.2) ∧
      ∀ id, owned id →
        (emitted.filter (fun entry => decide (entry.1 = id)) = [] ∨ ∃ body,
          stored state id = some body ∧ window body = true ∧
          emitted.filter (fun entry => decide (entry.1 = id)) = [(id, body)]) ∧
        (last.finished = true → ∀ body, stored state id = some body → window body = true →
          emitted.filter (fun entry => decide (entry.1 = id)) = [(id, body)]) := by
  obtain ⟨scan, opened, stood⟩ := init_run engine http headers baseUrl bindData columnIds
    (fun _ => true) base stored instant window resume owned service defaults now timeMin timeMax
    bounds query state first gstate initialised
  obtain ⟨final, handled, run, ended, made, kept⟩ := calls_run engine http headers baseUrl bindData
    columnIds (fun _ => true) base stored instant window resume owned service (fun _ => rfl)
    vectorSize fuel calls scan gstate last first after chunks stood called
  have whole : SharedScan.Run (position instant) window (fun _ => true) owned
      (opening (stored state)) handled final :=
    run_trans _ window _ owned _ scan final [] handled opened run
  have times : ∀ id, (handled.map Handled.entry).filter (fun entry => decide (entry.1 = id)) =
      (timesOf handled id).map Handled.entry := by
    intro id
    rw [List.filter_map]
    rfl
  refine ⟨handled.map Handled.entry, ?_, ?_, ?_, ?_⟩
  · rw [made, List.map_map]
    rfl
  · intro entry member
    obtain ⟨one, inside, rfl⟩ := List.mem_map.mp member
    exact (kept one inside).2
  · exact List.pairwise_map.mpr (handled_increase (position instant) window _ owned _ final handled
      whole)
  · intro id mine
    rw [times id]
    rcases owned_handled (position instant) window _ owned _ final handled whole id mine with
      ⟨unseen, -, complete⟩ | ⟨body, removed, held, within, -, once, -⟩
    · refine ⟨.inl (by rw [unseen]; rfl), ?_⟩
      intro finished body held within
      obtain ⟨token, exhausted⟩ := ended.ended finished
      have drained : final.queue = [] := by
        have queue := ended.queue
        rwa [exhausted, List.append_nil, List.map_eq_nil_iff] at queue
      have lastPage : final.more = false := by simp [ended.more, token]
      exact absurd ⟨within, rfl⟩ (complete drained lastPage body held)
    · refine ⟨.inr ⟨body, held, within, by rw [once]; rfl⟩, ?_⟩
      intro _ other found _
      obtain rfl := Option.some.inj (held.symm.trans found)
      rw [once]
      rfl

end Scan

/-! ## A small service with another writer -/

/-- A write of another program, which leaves the owned events alone. -/
structure ForeignWrite (owned : String → Prop) where
  id : String
  body : Json
  foreign : ¬ owned id
  identified : Identified id body

variable {owned : String → Prop}

/-- A shelf without an event. -/
def erased (shelf : Shelf) (id : String) : Shelf :=
  ⟨shelf.1.erase id, by
    intro other body found
    rw [OrderedMap.find_erase] at found
    split at found
    · cases found
    · exact shelf.2 other body found⟩

/-- What is left of the shelf when the next of the other writes has been made. -/
def written : Shelf → List (ForeignWrite owned) → Shelf × List (ForeignWrite owned)
  | shelf, [] => (shelf, [])
  | shelf, write :: rest => (ListingService.store shelf write.id write.body write.identified, rest)

/-- What others write leaves the owned events as they are. -/
theorem written_agrees (shelf : Shelf) (writes : List (ForeignWrite owned)) :
    Agrees owned (ListingService.held shelf) (ListingService.held (written shelf writes).1) := by
  intro id mine
  cases writes with
  | nil => rfl
  | cons write rest =>
    have apart : id ≠ write.id := fun same => write.foreign (same ▸ mine)
    simp only [written, ListingService.held, ListingService.store, OrderedMap.find_insert,
      if_neg apart]

variable (owned) in
/-- A listing service that also deletes, with one write of another program after each request. -/
def sharedHttp (service : ListingService) : IHttpClient (Shelf × List (ForeignWrite owned)) where
  execute request state :=
    let answered := match request.method, request.path with
      | .del, .event _ id =>
        if (ListingService.held state.1 id).isSome then
          ((.ok ⟨204, ""⟩ : Except Exception HttpResponse), erased state.1 id)
        else (.ok ⟨404, ""⟩, state.1)
      | _, _ => service.http.execute request state.1
    (answered.1, written answered.2 state.2)

/-- A GET leaves the shelf as it is. -/
theorem get_unchanged (service : ListingService) (request : HttpRequest) (shelf : Shelf)
    (method : request.method = .get) : (service.http.execute request shelf).2 = shelf := by
  simp only [ListingService.http, method]
  split
  · rfl
  · split <;> rfl
  · rename_i put _ _
    cases put
  · rfl

variable (owned) in
/-- The small service is a shared one, whatever its page size and the other writes. -/
theorem small_service_shared (service : ListingService) (engine : Engine)
    (parses : ∀ text, engine.parse text = service.documents.lookup text)
    (bindData : CalendarScanBindData) (base : QueryBuilder) :
    SharedService engine (sharedHttp owned service) bindData base
      (fun state => ListingService.held state.1) service.instant service.window service.resume
      owned where
  starts := (service.ordered engine parses bindData base).starts
  reads request state method := by
    have same : (sharedHttp owned service).execute request state =
        ((service.http.execute request state.1).1,
          written (service.http.execute request state.1).2 state.2) := by
      simp only [sharedHttp, method]
    rw [same, get_unchanged service request state.1 method]
    exact written_agrees state.1 state.2
  lists request token state response after json following method path executed status parsed
      tokened := by
    have ordered := service.ordered engine parses bindData base
    have same : (sharedHttp owned service).execute request state =
        ((service.http.execute request state.1).1,
          written (service.http.execute request state.1).2 state.2) := by
      simp only [sharedHttp, method]
    rw [same, get_unchanged service request state.1 method, Prod.mk.injEq] at executed
    obtain ⟨answered, rfl⟩ := executed
    obtain ⟨-, listed⟩ := ordered.lists request token state.1 response state.1 json following method
      path (Prod.ext answered (get_unchanged service request state.1 method)) status parsed tokened
    exact ⟨ListingService.held state.1, agrees_refl owned _, written_agrees state.1 state.2,
      fun id body found => ordered.identified state.1 id body found, listed⟩

/-! An event moves from before a second one to behind it, while they are scanned. -/

open UpdateOnce in
/-- A service of pages of one event. -/
def movedService : ListingService where
  size := 1
  instant := startHour
  window _ := true
  documents :=
    [("[b1]", onePage (eventAt "b" "01" none) "after b1"),
      ("[a2]", onePage (eventAt "a" "02" none) "after a2"),
      ("[b3]", onePage (eventAt "b" "03" none) "")]
  tokens := [("after b1", ⟨1, "b"⟩), ("after a2", ⟨2, "a"⟩)]
  documentsDistinct := by decide
  tokensDistinct := by decide
  tokensNonempty := by decide

/-- The event that is moved is not the owned one. -/
theorem moved_foreign : ¬ (fun id : String => id = "a") "b" := by decide

open UpdateOnce in
/-- The events of the example carry their ids. -/
theorem bare_identified (id hour : String) : Identified id (eventAt id hour none) := by
  refine ⟨(OrderedMap.empty.insert "id" (.string id)).insert "start"
    (startNode ("1970-01-01T" ++ hour ++ ":00:00Z")), ?_, ?_⟩
  · rfl
  · simp [OrderedMap.find_insert]

open UpdateOnce in
/-- The events, and what another client writes between the pages. -/
def movedStart : Shelf × List (ForeignWrite (fun id => id = "a")) :=
  (ListingService.store (ListingService.store ⟨.empty, empty_identified⟩ "a"
    (eventAt "a" "02" none) (bare_identified "a" "02")) "b" (eventAt "b" "01" none)
    (bare_identified "b" "01"),
    [⟨"b", eventAt "b" "03" none, moved_foreign, bare_identified "b" "03"⟩])

/-- The engine that reads what the service writes. -/
def movedEngine : Engine := .reading [] movedService.documents

/-- The scan of the example. -/
def movedScan : CalendarScanBindData :=
  { calendarId := "work", names := ["id"], timeMin := "1970-01-01T00:00:00Z", hasLower := true }

/-- The client of the example. -/
abbrev movedClient : GoogleCalendarClient (Shelf × List (ForeignWrite (fun id => id = "a"))) :=
  ⟨sharedHttp _ movedService, [], ""⟩

/-- The rows of a scan, when it has finished. -/
def movedRows : Option (List (List Value)) :=
  match calendarScanInitGlobal movedEngine movedClient movedScan {} 0 [.rowId] movedStart with
  | (.ok gstate, first) =>
    match ScanPages.scanCalls movedEngine movedClient movedScan 2 9 2 gstate first with
    | some (.ok (chunks, last), _) => if last.finished then some chunks.flatten else none
    | _ => none
  | _ => none

/-- The event that others move is put out twice, and the owned one once. -/
theorem moved_scan_emits : ∃ gstate first chunks last after,
    calendarScanInitGlobal movedEngine movedClient movedScan {} 0 [.rowId] movedStart =
      (.ok gstate, first) ∧
    ScanPages.scanCalls movedEngine movedClient movedScan 2 9 2 gstate first =
      some (.ok (chunks, last), after) ∧
    chunks.flatten = [[.varchar "b"], [.varchar "a"], [.varchar "b"]] ∧
    ∃ emitted : List (String × Json),
      chunks.flatten = emitted.map (fun entry => scanRow movedEngine movedScan [.rowId] entry.2) ∧
      emitted.filter (fun entry => decide (entry.1 = "a")) =
        [("a", UpdateOnce.eventAt "a" "02" none)] := by
  have rows : movedRows = some [[.varchar "b"], [.varchar "a"], [.varchar "b"]] := by
    decide +kernel
  have service := small_service_shared (fun id => id = "a") movedService movedEngine
    (fun _ => rfl) movedScan (baseQuery (some "1970-01-01T00:00:00Z") none)
  simp only [movedRows] at rows
  split at rows
  · rename_i gstate first initialised
    split at rows
    · rename_i chunks last after called
      split at rows
      · rename_i finished
        obtain ⟨emitted, whole, -, -, owns⟩ := scan_emits_owned_once movedEngine
          (sharedHttp _ movedService) [] "" movedScan [.rowId] _ _ _ _ _ _ service {} 0
          (some "1970-01-01T00:00:00Z") none rfl rfl 2 9 2 movedStart first after gstate last chunks
          initialised called
        refine ⟨gstate, first, chunks, last, after, initialised, called, Option.some.inj rows,
          emitted, whole, ?_⟩
        exact (owns "a" rfl).2 finished _ (by decide +kernel) rfl
      · cases rows
    · cases rows
  · cases rows

end GoogleCalendar.SharedListing
