import GoogleCalendar.CalendarScan
import GoogleCalendar.Library.Pieces

/-!
# The paginated scan puts out every event once

Two cursors run through the events of a scan: the page token across pages and
the item index inside one. Chunk boundaries fall anywhere between them. The
invariant that carries the proof says what is left to put out: the items of the
current page from the index on, followed by the pages that the chain of
responses still holds. One call puts out the first vector of what is left and
leaves the rest.

The chain speaks of the actual responses to the actual list requests. Servers
may answer with empty pages, and with a token that was used before; the chain
is finite because its derivation is.
-/

namespace GoogleCalendar.ScanPages

open Library EventMapping CalendarScan

variable {σ : Type} (engine : Engine) (client : GoogleCalendarClient σ)
  (bindData : CalendarScanBindData)

/-- The pages that follow a token: none after the empty token, and else the page
that the request with the token is answered with and those that follow its own
token. -/
inductive Chain (base : QueryBuilder) : String → σ → List (List Json) → Prop where
  | last (state : σ) : Chain base "" state []
  | next (token : String) (state after : σ) (response : Json) (following : String)
      (pages : List (List Json)) (pending : token ≠ "")
      (answered : EventsResource.list engine client bindData.calendarId ⟨base, token⟩ state =
        (.ok response, after))
      (tokened : response.valueOr "nextPageToken" "" Json.getString = .ok following)
      (rest : Chain base following after pages) :
      Chain base token state (responseItems response :: pages)

/-- The pages of a whole listing: the page that the request without a token is
answered with, and the chain behind its token. -/
inductive Listing (base : QueryBuilder) (state : σ) : List (List Json) → Prop where
  | first (after : σ) (response : Json) (following : String) (pages : List (List Json))
      (answered : EventsResource.list engine client bindData.calendarId ⟨base, ""⟩ state =
        (.ok response, after))
      (tokened : response.valueOr "nextPageToken" "" Json.getString = .ok following)
      (rest : Chain engine client bindData base following after pages) :
      Listing base state (responseItems response :: pages)

/-- What a scan state still has to put out, with the pages not yet fetched. -/
structure Remaining (base : QueryBuilder) (columnIds : List ColumnId)
    (gstate : CalendarScanGlobalState) (state : σ) (pages : List (List Json))
    (rest : List Json) : Prop where
  query : gstate.baseQuery = base
  columns : gstate.columnIds = columnIds
  split : rest = gstate.items.drop gstate.itemIndex ++ pages.flatten
  chained : gstate.finished = false →
    Chain engine client bindData base gstate.nextPageToken state pages
  ended : gstate.finished = true → rest = []

/-- A fetch whose request is answered stores the page and its token. -/
theorem fetch_page_answered (gstate : CalendarScanGlobalState) (state after : σ) (response : Json)
    (following : String)
    (answered : EventsResource.list engine client bindData.calendarId
      ⟨gstate.baseQuery, gstate.nextPageToken⟩ state = (.ok response, after))
    (tokened : response.valueOr "nextPageToken" "" Json.getString = .ok following) :
    fetchPage engine client bindData gstate state =
      (.ok { gstate with nextPageToken := following, items := responseItems response,
                         itemIndex := 0 }, after) := by
  simp only [fetchPage, answered, tokened]

/-- A pass over an item of the page puts out its row. -/
theorem loop_emits (vectorSize fuel : Nat) (rows : List (List Value))
    (gstate : CalendarScanGlobalState) (state : σ) (event : Json)
    (running : rows.length < vectorSize ∧ gstate.finished = false)
    (item : gstate.items[gstate.itemIndex]? = some event) :
    scanLoop engine client bindData vectorSize (fuel + 1) rows gstate state =
      scanLoop engine client bindData vectorSize fuel
        (rows ++ [scanRow engine bindData gstate.columnIds event])
        { gstate with itemIndex := gstate.itemIndex + 1 } state := by
  rw [scanLoop, if_pos running, item]

/-- A pass past the last item with a token fetches the next page. -/
theorem loop_fetches (vectorSize fuel : Nat) (rows : List (List Value))
    (gstate fetched : CalendarScanGlobalState) (state after : σ)
    (running : rows.length < vectorSize ∧ gstate.finished = false)
    (item : gstate.items[gstate.itemIndex]? = none) (pending : gstate.nextPageToken ≠ "")
    (page : fetchPage engine client bindData gstate state = (.ok fetched, after)) :
    scanLoop engine client bindData vectorSize (fuel + 1) rows gstate state =
      scanLoop engine client bindData vectorSize fuel rows fetched after := by
  rw [scanLoop, if_pos running, item]
  simp only [if_neg pending, page]

/-- A pass past the last item without a token finishes the scan. -/
theorem loop_finishes (vectorSize fuel : Nat) (rows : List (List Value))
    (gstate : CalendarScanGlobalState) (state : σ)
    (running : rows.length < vectorSize ∧ gstate.finished = false)
    (item : gstate.items[gstate.itemIndex]? = none) (empty : gstate.nextPageToken = "") :
    scanLoop engine client bindData vectorSize (fuel + 1) rows gstate state =
      some (.ok (rows, { gstate with finished := true }), state) := by
  rw [scanLoop, if_pos running, item]
  simp only [if_pos empty]

/-- An item at the index is the first of what is left. -/
theorem remaining_item (base : QueryBuilder) (columnIds : List ColumnId)
    (gstate : CalendarScanGlobalState) (state : σ) (pages : List (List Json)) (rest : List Json)
    (remaining : Remaining engine client bindData base columnIds gstate state pages rest)
    (unfinished : gstate.finished = false) (event : Json)
    (item : gstate.items[gstate.itemIndex]? = some event) :
    ∃ later, rest = event :: later ∧ Remaining engine client bindData base columnIds
      { gstate with itemIndex := gstate.itemIndex + 1 } state pages later := by
  obtain ⟨inside, held⟩ := List.getElem?_eq_some_iff.mp item
  have first : gstate.items.drop gstate.itemIndex =
      event :: gstate.items.drop (gstate.itemIndex + 1) := by
    rw [List.drop_eq_getElem_cons inside, held]
  refine ⟨gstate.items.drop (gstate.itemIndex + 1) ++ pages.flatten, ?_, ?_⟩
  · rw [remaining.split, first, List.cons_append]
  · exact ⟨remaining.query, remaining.columns, rfl, fun _ => remaining.chained unfinished,
      fun finished => absurd finished (by simp [unfinished])⟩

/-- Past the last item, the empty token means that nothing is left. -/
theorem remaining_nothing (base : QueryBuilder) (columnIds : List ColumnId)
    (gstate : CalendarScanGlobalState) (state : σ) (pages : List (List Json)) (rest : List Json)
    (remaining : Remaining engine client bindData base columnIds gstate state pages rest)
    (unfinished : gstate.finished = false)
    (item : gstate.items[gstate.itemIndex]? = none) (empty : gstate.nextPageToken = "") :
    rest = [] ∧ Remaining engine client bindData base columnIds
      { gstate with finished := true } state [] [] := by
  have exhausted : gstate.items.drop gstate.itemIndex = [] :=
    List.drop_eq_nil_of_le (List.getElem?_eq_none_iff.mp item)
  have chain := remaining.chained unfinished
  rw [empty] at chain
  cases chain with
  | last =>
    refine ⟨by simpa [exhausted] using remaining.split, ?_⟩
    exact ⟨remaining.query, remaining.columns, by simp [exhausted], by simp, by simp⟩
  | next _ _ after response following pages pending => exact absurd rfl pending

/-- Past the last item, any other token brings the next page of the chain. -/
theorem remaining_page (base : QueryBuilder) (columnIds : List ColumnId)
    (gstate : CalendarScanGlobalState) (state : σ) (pages : List (List Json)) (rest : List Json)
    (remaining : Remaining engine client bindData base columnIds gstate state pages rest)
    (unfinished : gstate.finished = false)
    (item : gstate.items[gstate.itemIndex]? = none) (pending : gstate.nextPageToken ≠ "") :
    ∃ fetched after later,
      fetchPage engine client bindData gstate state = (.ok fetched, after) ∧
      Remaining engine client bindData base columnIds fetched after later rest ∧
      pages.length = later.length + 1 := by
  have exhausted : gstate.items.drop gstate.itemIndex = [] :=
    List.drop_eq_nil_of_le (List.getElem?_eq_none_iff.mp item)
  have split := remaining.split
  rw [exhausted, List.nil_append] at split
  have chain := remaining.chained unfinished
  generalize tokenEq : gstate.nextPageToken = token at chain pending
  cases chain with
  | last => exact absurd rfl pending
  | next _ _ after response following later _ answered tokened chained =>
    have fetched := fetch_page_answered engine client bindData gstate state after response following
      (by rw [remaining.query, tokenEq]; exact answered) tokened
    refine ⟨_, after, later, fetched, ?_, rfl⟩
    exact ⟨remaining.query, remaining.columns, by simpa using split, fun _ => chained,
      fun finished => absurd finished (by simp [unfinished])⟩

/-- Where the loop stops, the vector is full or nothing is left. -/
theorem remaining_stopped (base : QueryBuilder) (columnIds : List ColumnId) (vectorSize : Nat)
    (rows : List (List Value)) (gstate : CalendarScanGlobalState) (state : σ)
    (pages : List (List Json)) (rest : List Json)
    (remaining : Remaining engine client bindData base columnIds gstate state pages rest)
    (stopped : ¬ (rows.length < vectorSize ∧ gstate.finished = false)) :
    rest.take (vectorSize - rows.length) = [] ∧ rest.drop (vectorSize - rows.length) = rest := by
  by_cases full : rows.length < vectorSize
  · have finished : gstate.finished = true := by
      by_contra unfinished
      exact stopped ⟨full, by simpa using unfinished⟩
    simp [remaining.ended finished]
  · simp [show vectorSize - rows.length = 0 by omega]

/-- The loop puts out the first rows of what is left, up to the vector size, and
leaves the rest. Fuel for the rows that still fit and the pages not yet fetched
is enough.

Induct on the fuel. A full vector and a finished scan stop at once. An item at
the index is put out; past the last item the empty token means that nothing is
left, and any other token brings the next page of the chain. -/
theorem loop_exact (base : QueryBuilder) (columnIds : List ColumnId) (vectorSize fuel : Nat)
    (rows : List (List Value)) (gstate : CalendarScanGlobalState) (state : σ)
    (pages : List (List Json)) (rest : List Json)
    (remaining : Remaining engine client bindData base columnIds gstate state pages rest)
    (room : rows.length ≤ vectorSize)
    (enough : vectorSize - rows.length + pages.length < fuel) :
    ∃ gstate' state' pages',
      scanLoop engine client bindData vectorSize fuel rows gstate state =
        some (.ok (rows ++ (rest.take (vectorSize - rows.length)).map
          (scanRow engine bindData columnIds), gstate'), state') ∧
      Remaining engine client bindData base columnIds gstate' state' pages'
        (rest.drop (vectorSize - rows.length)) ∧
      pages'.length ≤ pages.length := by
  induction fuel generalizing rows gstate state pages rest with
  | zero => omega
  | succ fuel ih =>
    by_cases running : rows.length < vectorSize ∧ gstate.finished = false
    · cases item : gstate.items[gstate.itemIndex]? with
      | none =>
        by_cases empty : gstate.nextPageToken = ""
        · obtain ⟨rfl, left⟩ := remaining_nothing engine client bindData base columnIds gstate state
            pages rest remaining running.2 item empty
          refine ⟨{ gstate with finished := true }, state, [], ?_, by simpa using left, by simp⟩
          rw [loop_finishes engine client bindData vectorSize fuel rows gstate state running item
            empty]
          simp
        · obtain ⟨fetched, after, later, page, next, fewer⟩ := remaining_page engine client bindData
            base columnIds gstate state pages rest remaining running.2 item empty
          obtain ⟨gstate', state', pages', run, left, kept⟩ :=
            ih rows fetched after later rest next room (by omega)
          refine ⟨gstate', state', pages', ?_, left, by omega⟩
          rw [loop_fetches engine client bindData vectorSize fuel rows gstate fetched state after
            running item empty page]
          exact run
      | some event =>
        obtain ⟨later, rfl, next⟩ := remaining_item engine client bindData base columnIds gstate
          state pages rest remaining running.2 event item
        obtain ⟨gstate', state', pages', run, left, fewer⟩ :=
          ih (rows ++ [scanRow engine bindData gstate.columnIds event]) _ state pages later next
            (by simp only [List.length_append, List.length_singleton]; omega)
            (by simp only [List.length_append, List.length_singleton]; omega)
        have one : vectorSize - rows.length = vectorSize - (rows.length + 1) + 1 := by omega
        simp only [List.length_append, List.length_singleton] at run left
        refine ⟨gstate', state', pages', ?_, ?_, fewer⟩
        · rw [loop_emits engine client bindData vectorSize fuel rows gstate state event running
            item, run, one, List.take_succ_cons, List.map_cons, remaining.columns,
            List.append_assoc, List.singleton_append]
        · rw [one, List.drop_succ_cons]
          exact left
    · obtain ⟨nothing, same⟩ := remaining_stopped engine client bindData base columnIds vectorSize
        rows gstate state pages rest remaining running
      refine ⟨gstate, state, pages, ?_, by rw [same]; exact remaining, Nat.le_refl _⟩
      simp [scanLoop, running, nothing]

/-- One call puts out the first vector of what is left. -/
theorem call_exact (base : QueryBuilder) (columnIds : List ColumnId) (vectorSize fuel : Nat)
    (gstate : CalendarScanGlobalState) (state : σ) (pages : List (List Json)) (rest : List Json)
    (remaining : Remaining engine client bindData base columnIds gstate state pages rest)
    (enough : vectorSize + pages.length < fuel) :
    ∃ gstate' state' pages',
      calendarScan engine client bindData vectorSize fuel gstate state =
        some (.ok ((rest.take vectorSize).map (scanRow engine bindData columnIds), gstate'),
          state') ∧
      Remaining engine client bindData base columnIds gstate' state' pages'
        (rest.drop vectorSize) ∧
      pages'.length ≤ pages.length := by
  simpa [calendarScan] using loop_exact engine client bindData base columnIds vectorSize fuel []
    gstate state pages rest remaining (Nat.zero_le _) (by simpa using enough)

/-- Repeated calls of the scan, as the engine makes them: the chunks put out. -/
def scanCalls (vectorSize fuel : Nat) : Nat → CalendarScanGlobalState → σ →
    Option (Except Exception (List (List (List Value)) × CalendarScanGlobalState) × σ)
  | 0, gstate, state => some (.ok ([], gstate), state)
  | calls + 1, gstate, state =>
    match calendarScan engine client bindData vectorSize fuel gstate state with
    | none => none
    | some (.error error, after) => some (.error error, after)
    | some (.ok (rows, gstate'), after) =>
      match scanCalls vectorSize fuel calls gstate' after with
      | some (.ok (chunks, last), final) => some (.ok (rows :: chunks, last), final)
      | other => other

/-- Any number of calls puts out the pieces of what was left, in order. -/
theorem calls_exact (base : QueryBuilder) (columnIds : List ColumnId) (vectorSize fuel calls : Nat)
    (gstate : CalendarScanGlobalState) (state : σ) (pages : List (List Json)) (rest : List Json)
    (remaining : Remaining engine client bindData base columnIds gstate state pages rest)
    (enough : vectorSize + pages.length < fuel) :
    ∃ gstate' state', scanCalls engine client bindData vectorSize fuel calls gstate state =
      some (.ok (pieces vectorSize calls (rest.map (scanRow engine bindData columnIds)), gstate'),
        state') := by
  induction calls generalizing gstate state pages rest with
  | zero => exact ⟨gstate, state, by simp [scanCalls, pieces]⟩
  | succ calls ih =>
    obtain ⟨gstate', state', pages', call, left, fewer⟩ := call_exact engine client bindData base
      columnIds vectorSize fuel gstate state pages rest remaining enough
    obtain ⟨last, final, later⟩ := ih gstate' state' pages' _ left (by omega)
    refine ⟨last, final, ?_⟩
    simp only [scanCalls, call, later]
    rw [pieces_succ, List.map_take, List.map_drop]

/-- After the first page the scan has the whole listing left. -/
theorem init_remaining (window : DefaultWindow) (now : Int) (columnIds : List ColumnId)
    (state : σ) (timeMin timeMax : Option String) (pages : List (List Json))
    (bounds : effectiveBounds engine bindData window now = .ok (timeMin, timeMax))
    (listing : Listing engine client bindData (baseQuery timeMin timeMax) state pages) :
    ∃ gstate after later,
      calendarScanInitGlobal engine client bindData window now columnIds state =
        (.ok gstate, after) ∧
      Remaining engine client bindData (baseQuery timeMin timeMax) columnIds gstate after later
        pages.flatten ∧
      later.length < pages.length := by
  cases listing with
  | first after response following later answered tokened rest =>
    let opened : CalendarScanGlobalState :=
      { baseQuery := baseQuery timeMin timeMax, columnIds := columnIds }
    have fetched := fetch_page_answered engine client bindData opened state after response
      following answered tokened
    refine ⟨{ opened with nextPageToken := following, items := responseItems response },
      after, later, ?_, ?_, by simp⟩
    · simp only [calendarScanInitGlobal, bounds]
      exact fetched
    · exact ⟨rfl, rfl, by simp [opened], fun _ => rest,
        fun finished => absurd finished (by simp [opened])⟩

/-- A scanned row holds the event's full row at its schema columns and the
event's id at the row id. -/
theorem scan_row_agrees (columnIds : List ColumnId) (event : Json) (column : Nat) :
    (columnIds[column]? = some .rowId →
      (scanRow engine bindData columnIds event)[column]? = some (jsonString event "id")) ∧
    ∀ index < bindData.names.length, columnIds[column]? = some (.schema index) →
      (scanRow engine bindData columnIds event)[column]? =
        (eventToRow engine event bindData.names bindData.calendarId)[index]? := by
  constructor
  · intro rowId
    simp [scanRow, rowId, scanValue]
  · intro index inside schema
    simp [scanRow, schema, scanValue, eventToRow, List.getElem?_eq_getElem inside, List.getD]

/-- Every call ends, and the calls put out one row for each item of the
concatenated pages, in page order. The chunks are the pieces of the rows: full
ones while rows last, so a chunk that is not full ends the rows and an empty one
is followed by empty ones only. -/
theorem scan_emits_every_event (window : DefaultWindow) (now : Int) (columnIds : List ColumnId)
    (vectorSize : Nat) (state : σ) (timeMin timeMax : Option String) (pages : List (List Json))
    (positive : 0 < vectorSize)
    (bounds : effectiveBounds engine bindData window now = .ok (timeMin, timeMax))
    (listing : Listing engine client bindData (baseQuery timeMin timeMax) state pages) :
    ∃ gstate first enough,
      calendarScanInitGlobal engine client bindData window now columnIds state =
        (.ok gstate, first) ∧
      let rows := pages.flatten.map (scanRow engine bindData columnIds)
      (∀ fuel calls, enough ≤ fuel → ∃ gstate' last,
        scanCalls engine client bindData vectorSize fuel calls gstate first =
          some (.ok (pieces vectorSize calls rows, gstate'), last)) ∧
      (∀ calls, rows.length ≤ calls → (pieces vectorSize calls rows).flatten = rows) ∧
      (∀ call, (piece vectorSize call rows).length ≤ vectorSize) ∧
      (∀ call, (piece vectorSize call rows).length < vectorSize →
        (pieces vectorSize (call + 1) rows).flatten = rows) ∧
      (∀ call, piece vectorSize call rows = [] → (pieces vectorSize call rows).flatten = rows ∧
        ∀ later, call ≤ later → piece vectorSize later rows = []) ∧
      (∀ event ∈ pages.flatten, ∀ column : Nat,
        (columnIds[column]? = some .rowId →
          (scanRow engine bindData columnIds event)[column]? =
            some (jsonString event "id")) ∧
        ∀ index < bindData.names.length, columnIds[column]? = some (.schema index) →
          (scanRow engine bindData columnIds event)[column]? =
            (eventToRow engine event bindData.names bindData.calendarId)[index]?) := by
  obtain ⟨gstate, first, later, initialised, remaining, fewer⟩ := init_remaining engine client
    bindData window now columnIds state timeMin timeMax pages bounds listing
  refine ⟨gstate, first, vectorSize + pages.length, initialised, ?_, ?_, ?_, ?_, ?_, ?_⟩
  · intro fuel calls enough
    exact calls_exact engine client bindData _ columnIds vectorSize fuel calls gstate first later
      _ remaining (by omega)
  · intro calls enough
    exact pieces_complete vectorSize calls _ positive enough
  · intro call
    rw [piece_length]
    exact Nat.min_le_left _ _
  · intro call short
    exact pieces_end vectorSize call _ short
  · intro call empty
    exact piece_empty vectorSize call _ positive empty
  · intro event _ column
    exact scan_row_agrees engine bindData columnIds event column

/-- A page of two events, a page without items and a last page of one. -/
def threePages : List (String × Json) :=
  [("\x7b\"items\":[\x7b\"id\":\"a\"\x7d,\x7b\"id\":\"b\"\x7d],\"nextPageToken\":\"t\"\x7d",
      .object [("items", .array [.object [("id", .string "a")], .object [("id", .string "b")]]),
        ("nextPageToken", .string "t")]),
    ("\x7b\"nextPageToken\":\"u\"\x7d", .object [("nextPageToken", .string "u")]),
    ("\x7b\"items\":[\x7b\"id\":\"c\"\x7d]\x7d",
      .object [("items", .array [.object [("id", .string "c")]])])]

/-- The three events come out two and one, and then nothing. -/
theorem scan_emits_three_events :
    let engine := Engine.reading [] threePages
    let client : GoogleCalendarClient (List HttpResponse) := ⟨mockHttpClient, [], ""⟩
    let bound : CalendarScanBindData :=
      { calendarId := "work", names := ["calendar_id"], timeMin := "2026-01-01T00:00:00Z",
        hasLower := true }
    let queue := threePages.map (fun page => (⟨200, page.1⟩ : HttpResponse))
    ∃ gstate first fuel,
      calendarScanInitGlobal engine client bound {} 0 [.schema 0, .rowId] queue =
        (.ok gstate, first) ∧
      ∃ gstate' last, scanCalls engine client bound 2 fuel 3 gstate first =
        some (.ok ([[[.varchar "work", .varchar "a"], [.varchar "work", .varchar "b"]],
          [[.varchar "work", .varchar "c"]], []], gstate'), last) := by
  intro engine client bound queue
  let base := baseQuery (some "2026-01-01T00:00:00Z") none
  let page (index : Nat) : Json := ((threePages[index]?).map Prod.snd).getD .null
  have last : Chain engine client bound base "u" (queue.drop 2) [responseItems (page 2)] :=
    .next "u" _ (queue.drop 3) (page 2) "" [] (by decide) rfl rfl (.last _)
  have middle : Chain engine client bound base "t" (queue.drop 1)
      [responseItems (page 1), responseItems (page 2)] :=
    .next "t" _ (queue.drop 2) (page 1) "u" _ (by decide) rfl rfl last
  have listing : Listing engine client bound base queue
      [responseItems (page 0), responseItems (page 1), responseItems (page 2)] :=
    .first (queue.drop 1) (page 0) "t" _ rfl rfl middle
  obtain ⟨gstate, first, enough, initialised, calls, -⟩ :=
    scan_emits_every_event engine client bound {} 0 [.schema 0, .rowId] 2 queue
      (some "2026-01-01T00:00:00Z") none _ (by decide) rfl listing
  obtain ⟨gstate', last, chunks⟩ := calls enough 3 (Nat.le_refl _)
  exact ⟨gstate, first, enough, initialised, gstate', last, chunks⟩

end GoogleCalendar.ScanPages
