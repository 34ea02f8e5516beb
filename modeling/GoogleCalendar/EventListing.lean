import GoogleCalendar.CalendarScan
import GoogleCalendar.Library.CursorScan
import Mathlib.Data.Prod.Lex
import Mathlib.Data.Set.Finite.Basic

/-!
# The listing of the service

The scan asks for events ordered by start. What a statement relies on when it
writes to the events it is still listing is stated here of any service: pages
come in the order of start and id over the current state, a page token stands
for the position where the next page goes on, and a PUT changes one event.

A small service shows that these go together, for every page size. It keeps its
events by id and answers with documents and page tokens from two tables; what is
in neither it does not answer with success.
-/

namespace GoogleCalendar.EventListing

open Library CalendarScan CursorScan

/-- A place in the listing, which is ordered by start, and by id for equal starts. -/
structure Position where
  start : Int
  id : String
  deriving DecidableEq

/-- A place as a pair that is ordered lexicographically. -/
def Position.key (place : Position) : Int ×ₗ String := toLex (place.start, place.id)

/-- Two positions with one key are one. -/
theorem Position.key_injective : Function.Injective Position.key := by
  rintro ⟨start, id⟩ ⟨other, twin⟩ same
  obtain ⟨rfl, rfl⟩ := Prod.mk.inj same
  rfl

instance : LinearOrder Position :=
  @LinearOrder.lift' _ _
    (@Prod.Lex.instLinearOrder Int String Int.instLinearOrder String.instLinearOrder)
    Position.key Position.key_injective

/-- The position of an event, given the instants that `start` members stand for. -/
def position (instant : Option Json → Int) (id : String) (body : Json) : Position :=
  ⟨instant (body.find "start"), id⟩

section Service

variable {σ : Type} (engine : Engine) (http : IHttpClient σ) (bindData : CalendarScanBindData)
  (base : QueryBuilder) (stored : σ → String → Option Json) (instant : Option Json → Int)
  (window : Json → Bool) (resume : String → WithBot Position)

/-- Whether a body is an object that carries an id. -/
def Identified (id : String) (body : Json) : Prop :=
  ∃ members : OrderedMap String Json, body = .ofMembers members ∧
    members.find "id" = some (.string id)

/-- Each page that promises another has an item. A token stands for the place of the last one. -/
def FullPages : Prop :=
  ∀ request token state response after json following, request.method = .get →
    request.path = .listEvents bindData.calendarId ⟨base, token⟩ →
    http.execute request state = (.ok response, after) → response.statusCode = 200 →
    engine.parse response.body = some json →
    json.valueOr "nextPageToken" "" Json.getString = .ok following → following ≠ "" →
    responseItems json ≠ []

/-- The service as far as a statement needs it. It lists the events of the
window by position over its current state, in pages of any size, and a page
token stands for the position of the last item listed. A GET answers with what
is stored, and a PUT that is answered with 200 has stored its body and changed no
other event. -/
structure OrderedService : Prop where
  identified : ∀ state id body, stored state id = some body → Identified id body
  starts : resume "" = ⊥
  lists : ∀ request token state response after json following, request.method = .get →
    request.path = .listEvents bindData.calendarId ⟨base, token⟩ →
    http.execute request state = (.ok response, after) → response.statusCode = 200 →
    engine.parse response.body = some json →
    json.valueOr "nextPageToken" "" Json.getString = .ok following →
    stored after = stored state ∧ ∃ page, responseItems json = page.map Prod.snd ∧
      Page (position instant) window (stored state) (resume token) page (following ≠ "") ∧
      (following ≠ "" → resume following = cursorAfter (position instant) (resume token) page)
  gets : ∀ request id state response after json, request.method = .get →
    request.path = .event bindData.calendarId id →
    http.execute request state = (.ok response, after) → response.statusCode = 200 →
    engine.parse response.body = some json →
    stored after = stored state ∧ stored state id = some json
  puts : ∀ request id body state response after, request.method = .put →
    request.path = .event bindData.calendarId id → request.body = some body →
    body.find "id" = some (.string id) →
    http.execute request state = (.ok response, after) → response.statusCode = 200 →
    stored after = Function.update (stored state) id (some body)

/-- What a fetch leaves of the scan state: the same query, not yet finished, and an item unless
the listing ends with the page. -/
theorem fetched_full (headers : HttpHeaders) (baseUrl : String)
    (full : FullPages engine http bindData base) (gstate fetched : CalendarScanGlobalState)
    (state after : σ) (query : gstate.baseQuery = base)
    (page : fetchPage engine ⟨http, headers, baseUrl⟩ bindData gstate state =
      (.ok fetched, after)) :
    fetched.baseQuery = base ∧ fetched.finished = gstate.finished ∧
      (fetched.items[fetched.itemIndex]? = none → fetched.nextPageToken = "") := by
  simp only [fetchPage] at page
  split at page
  · cases page
  · rename_i listing between listed
    split at page
    · cases page
    · rename_i following tokened
      obtain ⟨same, rfl⟩ := Prod.mk.inj page
      obtain rfl := Except.ok.inj same
      obtain ⟨answer, json, executed, status, parsed, read⟩ := read_ok engine .ok _ _ _ listed
      obtain rfl := Except.ok.inj read
      refine ⟨query, rfl, fun nothing => ?_⟩
      by_contra pending
      refine full _ gstate.nextPageToken state answer between json following rfl ?_ executed status
        parsed tokened pending (by simpa using nothing)
      rw [← query]
      rfl

/-- One call of the scan returns, whatever the service holds: each pass puts an event out, or
fetches a page that has one or is the last.

Induct on the room that is left in the vector. -/
theorem scan_loop_returns (headers : HttpHeaders) (baseUrl : String)
    (full : FullPages engine http bindData base) (vectorSize room : Nat) :
    ∀ (fuel : Nat) (rows : List (List Value)) (gstate : CalendarScanGlobalState) (state : σ),
      vectorSize - rows.length ≤ room → 2 * room + 1 ≤ fuel → gstate.baseQuery = base →
      ∃ outcome after, scanLoop engine ⟨http, headers, baseUrl⟩ bindData vectorSize fuel rows gstate
        state = some (outcome, after) := by
  induction room with
  | zero =>
    intro fuel rows gstate state short enough query
    obtain ⟨fuel, rfl⟩ : ∃ less, fuel = less + 1 := ⟨fuel - 1, by omega⟩
    rw [scanLoop, if_neg (by omega)]
    exact ⟨_, _, rfl⟩
  | succ room ih =>
    -- An event is put out, and the room for the others is smaller.
    have puts : ∀ (fuel : Nat) (rows : List (List Value)) (gstate : CalendarScanGlobalState)
        (state : σ) (event : Json), vectorSize - rows.length ≤ room + 1 → 2 * room + 2 ≤ fuel →
        gstate.baseQuery = base → gstate.items[gstate.itemIndex]? = some event →
        ∃ outcome after, scanLoop engine ⟨http, headers, baseUrl⟩ bindData vectorSize fuel rows
          gstate state = some (outcome, after) := by
      intro fuel rows gstate state event short enough query item
      obtain ⟨fuel, rfl⟩ : ∃ less, fuel = less + 1 := ⟨fuel - 1, by omega⟩
      rw [scanLoop]
      split
      · simp only [item]
        refine ih fuel _ _ state ?_ (by omega) query
        rw [List.length_append, List.length_singleton]
        omega
      · exact ⟨_, _, rfl⟩
    intro fuel rows gstate state short enough query
    obtain ⟨fuel, rfl⟩ : ∃ less, fuel = less + 1 := ⟨fuel - 1, by omega⟩
    cases item : gstate.items[gstate.itemIndex]? with
    | some event => exact puts (fuel + 1) rows gstate state event short (by omega) query item
    | none =>
      rw [scanLoop]
      split
      · rename_i running
        simp only [item]
        split
        · exact ⟨_, _, rfl⟩
        · split
          · exact ⟨_, _, rfl⟩
          · rename_i fetched after page
            obtain ⟨same, unfinished, last⟩ := fetched_full engine http bindData base headers
              baseUrl full gstate fetched state after query page
            cases next : fetched.items[fetched.itemIndex]? with
            | some event => exact puts fuel rows fetched after event short (by omega) same next
            | none =>
              obtain ⟨fuel, rfl⟩ : ∃ less, fuel = less + 1 := ⟨fuel - 1, by omega⟩
              rw [scanLoop, if_pos ⟨running.1, unfinished.trans running.2⟩]
              simp only [next, last next, if_true]
              exact ⟨_, _, rfl⟩
      · exact ⟨_, _, rfl⟩

end Service

instance (id : String) (body : Json) : Decidable (Identified id body) :=
  match body with
  | .object members =>
    decidable_of_iff (SortedEntries.Sorted members ∧
        SortedEntries.find "id" members = some (.string id)) (by
      constructor
      · rintro ⟨sorted, found⟩
        exact ⟨⟨members, sorted⟩, rfl, found⟩
      · rintro ⟨⟨_, sorted⟩, same, found⟩
        obtain rfl := Json.object.inj same
        exact ⟨sorted, found⟩)
  | .null | .boolean _ | .integer _ | .float _ | .string _ | .array _ => isFalse (by
      rintro ⟨members, same, -⟩
      simp [Json.ofMembers] at same)

/-- The text under which a table has a value. -/
def textOf {V : Type} [DecidableEq V] (table : List (String × V)) (value : V) : Option String :=
  (table.find? (fun entry => decide (entry.2 = value))).map Prod.fst

/-- A text that is found for a value is listed with it. -/
theorem text_of_listed {V : Type} [DecidableEq V] (table : List (String × V)) (value : V)
    (text : String) (found : textOf table value = some text) : (text, value) ∈ table := by
  obtain ⟨⟨key, held⟩, first, rfl⟩ := Option.map_eq_some_iff.mp found
  have same : held = value := by simpa using List.find?_some first
  exact same ▸ List.mem_of_find?_eq_some first

/-- With distinct texts, a text that stands for a value is read back as it. -/
theorem lookup_of_listed {V : Type} (table : List (String × V)) (value : V) (text : String)
    (distinct : (table.map Prod.fst).Nodup) (listed : (text, value) ∈ table) :
    table.lookup text = some value := by
  induction table with
  | nil => simp at listed
  | cons entry rest ih =>
    obtain ⟨absent, others⟩ := List.nodup_cons.mp distinct
    rcases List.mem_cons.mp listed with rfl | later
    · simp
    · obtain ⟨key, held⟩ := entry
      have apart : text ≠ key := fun same =>
        absent (List.mem_map.mpr ⟨(text, value), later, same⟩)
      rw [List.lookup_cons, beq_eq_false_iff_ne.mpr apart]
      exact ih others later

/-- What a small service is made of: its page size, the instants and the window
of its calendar, and the texts of its documents and page tokens. -/
structure ListingService where
  size : Nat
  instant : Option Json → Int
  window : Json → Bool
  documents : List (String × Json)
  tokens : List (String × Position)
  documentsDistinct : (documents.map Prod.fst).Nodup
  tokensDistinct : (tokens.map Prod.fst).Nodup
  tokensNonempty : "" ∉ tokens.map Prod.fst

/-- Events by their ids. -/
abbrev Shelf :=
  { events : OrderedMap String Json // ∀ id body, events.find id = some body → Identified id body }

/-- No event is stored under an id that is not its own. -/
theorem empty_identified (id : String) (body : Json)
    (found : (.empty : OrderedMap String Json).find id = some body) : Identified id body := by
  simp at found

namespace ListingService

variable (service : ListingService)

/-- The event of an id. -/
def held (shelf : Shelf) (id : String) : Option Json := shelf.1.find id

/-- The shelf with an event stored under its id. -/
def store (shelf : Shelf) (id : String) (body : Json) (identified : Identified id body) : Shelf :=
  ⟨shelf.1.insert id body, by
    intro other value found
    rw [OrderedMap.find_insert] at found
    split at found
    · rename_i same
      obtain rfl := Option.some.inj found
      exact same ▸ identified
    · exact shelf.2 other value found⟩

/-- The position that a token stands for. -/
def resume (token : String) : WithBot Position := service.tokens.lookup token

/-- The answer with a body. -/
def answer (json : Json) : HttpResponse :=
  match textOf service.documents json with
  | some text => ⟨200, text⟩
  | none => ⟨500, ""⟩

/-- A page of events, with its token. -/
def pageJson (page : List (String × Json)) (token : String) : Json :=
  .object (("items", .array (page.map Prod.snd)) ::
    if token = "" then [] else [("nextPageToken", .string token)])

/-- The page that follows a token. -/
def listPage (shelf : Shelf) (token : String) : HttpResponse :=
  let ahead := aheadOf (position service.instant) service.window shelf.1.entries
    (service.resume token)
  let page := ahead.take service.size
  if ahead.length ≤ service.size then service.answer (pageJson page "")
  else
    match page.getLast? with
    | none => ⟨500, ""⟩
    | some last =>
      match textOf service.tokens (position service.instant last.1 last.2) with
      | none => ⟨500, ""⟩
      | some following => service.answer (pageJson page following)

/-- The requests that the service answers, and what they leave. -/
def http : IHttpClient Shelf where
  execute request shelf :=
    match request.method, request.path, request.body with
    | .get, .listEvents _ query, _ => (.ok (service.listPage shelf query.pageToken), shelf)
    | .get, .event _ id, _ =>
      match held shelf id with
      | some body => (.ok (service.answer body), shelf)
      | none => (.ok ⟨404, ""⟩, shelf)
    | .put, .event _ id, some body =>
      if identified : Identified id body then
        (.ok (service.answer body), store shelf id body identified)
      else (.ok ⟨400, ""⟩, shelf)
    | _, _, _ => (.ok ⟨400, ""⟩, shelf)

/-- What is answered with success is read back. -/
theorem answer_parsed (json parsed : Json) (accepted : (service.answer json).statusCode = 200)
    (read : service.documents.lookup (service.answer json).body = some parsed) :
    parsed = json := by
  simp only [answer] at accepted read
  split at accepted
  · rename_i text found
    simp only [found] at read
    rw [lookup_of_listed _ json text service.documentsDistinct (text_of_listed _ json text found)]
      at read
    exact (Option.some.inj read).symm
  · simp at accepted

/-- A page of the service is one of the events ahead, and more are to come when they exceed it.
-/
theorem shelf_page (shelf : Shelf) (cursor : WithBot Position) :
    let ahead := aheadOf (position service.instant) service.window shelf.1.entries cursor
    Page (position service.instant) service.window (held shelf) cursor (ahead.take service.size)
      (service.size < ahead.length) := by
  refine page_of_entries _ _ shelf.1.entries (held shelf) cursor service.size ?_ ?_ ?_
  · exact List.pairwise_map.mpr (shelf.1.sorted.imp (fun below => ne_of_lt below))
  · intro entry
    exact ⟨SortedEntries.find_of_mem entry shelf.1.entries shelf.1.sorted,
      SortedEntries.find_mem entry.1 entry.2 shelf.1.entries⟩
  · intro item other value twin same
    exact congrArg Position.id same

/-- A page that is answered with success is one of the collection, and its token
stands for its last position. -/
theorem list_page_exact (shelf : Shelf) (token following : String) (json : Json)
    (accepted : (service.listPage shelf token).statusCode = 200)
    (read : service.documents.lookup (service.listPage shelf token).body = some json)
    (tokened : json.valueOr "nextPageToken" "" Json.getString = .ok following) :
    ∃ page, responseItems json = page.map Prod.snd ∧
      Page (position service.instant) service.window (held shelf) (service.resume token) page
        (following ≠ "") ∧
      (following ≠ "" → service.resume following =
        cursorAfter (position service.instant) (service.resume token) page) := by
  have isPage := service.shelf_page shelf (service.resume token)
  simp only [listPage] at accepted read
  split at accepted
  · rename_i whole
    rw [if_pos whole] at read
    obtain rfl := service.answer_parsed _ json accepted read
    obtain rfl : "" = following := by
      simpa [pageJson, Json.valueOr, SortedEntries.find] using tokened
    refine ⟨_, rfl, ?_, by simp⟩
    simpa [Nat.not_lt.mpr whole] using isPage
  · rename_i partly
    rw [if_neg partly] at read
    split at accepted
    · simp at accepted
    · rename_i last ends
      split at accepted
      · simp at accepted
      · rename_i next found
        have listed := text_of_listed _ _ next found
        have nonempty : next ≠ "" := fun empty =>
          service.tokensNonempty (List.mem_map.mpr ⟨_, listed, empty⟩)
        simp only [ends, found] at read
        obtain rfl := service.answer_parsed _ json accepted read
        obtain rfl : next = following := by
          simpa [pageJson, nonempty, Json.valueOr, SortedEntries.find, Json.getString] using tokened
        refine ⟨_, rfl, ?_, fun _ => ?_⟩
        · simpa [Nat.not_le.mp partly, nonempty] using isPage
        · rw [resume, lookup_of_listed _ _ next service.tokensDistinct listed, cursorAfter, ends]
          rfl

/-- The small service is an ordered service, whatever its page size. -/
theorem ordered (engine : Engine)
    (parses : ∀ text, engine.parse text = service.documents.lookup text)
    (bindData : CalendarScanBindData) (base : QueryBuilder) :
    OrderedService engine service.http bindData base held service.instant service.window
      service.resume where
  identified shelf id body found := shelf.2 id body found
  starts := by
    have absent : service.tokens.lookup "" = none := by
      refine List.lookup_eq_none_iff.mpr (fun entry member => ?_)
      have apart : "" ≠ entry.1 := fun same =>
        service.tokensNonempty (List.mem_map.mpr ⟨entry, member, same.symm⟩)
      simpa using apart
    simp only [resume, absent]
    rfl
  lists request token shelf response after json following method path executed status parsed
      tokened := by
    simp only [http, method, path, Prod.mk.injEq, Except.ok.injEq] at executed
    obtain ⟨rfl, rfl⟩ := executed
    rw [parses] at parsed
    exact ⟨rfl, service.list_page_exact shelf token following json status parsed tokened⟩
  gets request id shelf response after json method path executed status parsed := by
    simp only [http, method, path] at executed
    rw [parses] at parsed
    split at executed
    · rename_i body found
      simp only [Prod.mk.injEq, Except.ok.injEq] at executed
      obtain ⟨rfl, rfl⟩ := executed
      obtain rfl := service.answer_parsed _ json status parsed
      exact ⟨rfl, found⟩
    · simp only [Prod.mk.injEq, Except.ok.injEq] at executed
      obtain ⟨rfl, -⟩ := executed
      simp at status
  puts request id body shelf response after method path sent carries executed status := by
    simp only [http, method, path, sent] at executed
    split at executed
    · simp only [Prod.mk.injEq, Except.ok.injEq] at executed
      obtain ⟨-, rfl⟩ := executed
      funext other
      simp only [held, store, OrderedMap.find_insert, Function.update_apply]
    · simp only [Prod.mk.injEq, Except.ok.injEq] at executed
      obtain ⟨rfl, -⟩ := executed
      simp at status

/-- A page that promises another has an item, whatever the page size. -/
theorem pages_full (engine : Engine)
    (parses : ∀ text, engine.parse text = service.documents.lookup text)
    (bindData : CalendarScanBindData) (base : QueryBuilder) :
    FullPages engine service.http bindData base := by
  intro request token shelf response after json following method path executed status parsed tokened
    pending
  simp only [http, method, path, Prod.mk.injEq, Except.ok.injEq] at executed
  obtain ⟨rfl, rfl⟩ := executed
  rw [parses] at parsed
  simp only [listPage] at status parsed
  split at status
  · rename_i whole
    rw [if_pos whole] at parsed
    obtain rfl := service.answer_parsed _ json status parsed
    exact absurd tokened (by simpa [pageJson, Json.valueOr, SortedEntries.find] using pending.symm)
  · rename_i partly
    rw [if_neg partly] at parsed
    split at status
    · simp at status
    · rename_i last ends
      split at status
      · simp at status
      · rename_i next found
        simp only [ends, found] at parsed
        obtain rfl := service.answer_parsed _ json status parsed
        have nonempty := List.ne_nil_of_mem (List.mem_of_getLast? ends)
        simpa [pageJson, responseItems, Json.find, SortedEntries.find] using nonempty

/-- A shelf holds finitely many events. -/
theorem held_finite (shelf : Shelf) : {id | held shelf id ≠ none}.Finite := by
  refine (shelf.1.entries.map Prod.fst).finite_toSet.subset (fun id there => ?_)
  obtain ⟨body, found⟩ := Option.ne_none_iff_exists'.mp there
  exact List.mem_map.mpr ⟨(id, body), SortedEntries.find_mem id body shelf.1.entries found, rfl⟩

end ListingService

end GoogleCalendar.EventListing
