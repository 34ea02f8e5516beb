import GoogleCalendar.CalendarCatalog

/-!
# ATTACH

The options of an attachment name a secret, which gives the client, and may give
aliases and a default window. Here the aliases are read and the catalog is loaded
with them; the window is kept for scans and plays no part in it.

An alias whose calendar id is NULL is skipped with a warning. The others are
assigned one after another to a map that compares names without letter case, so
that of two aliases with one name the later replaces the id of the earlier.
-/

namespace GoogleCalendar

open Library CalendarCatalog

/-- The value of the option `calendar_aliases`: a MAP(VARCHAR, VARCHAR), with
entries in order, or a value of another type. -/
inductive AliasOption where
  | map (entries : List (String × Option String))
  | otherType
  deriving DecidableEq, Repr

namespace CalendarAttach

/-- The aliases with an id. -/
def named (entries : List (String × Option String)) : List (String × String) :=
  entries.filterMap (fun entry => entry.2.map (fun calendarId => (entry.1, calendarId)))

/-- `calendar_aliases[alias] = id` for one entry of the MAP. -/
def addAlias (aliases : CaseInsensitiveMap String) (entry : String × Option String) :
    CaseInsensitiveMap String :=
  match entry.2 with
  | none => aliases
  | some calendarId => aliases.assign entry.1 calendarId

/-- The option `calendar_aliases`. -/
def readAliases : Option AliasOption → Except Exception (CaseInsensitiveMap String)
  | none => .ok .empty
  | some .otherType => .error (.binder
      "calendar_aliases must be a MAP(VARCHAR, VARCHAR) of alias -> calendar ID")
  | some (.map entries) => .ok (entries.foldl addAlias .empty)

variable {σ : Type} (engine : Engine) (client : GoogleCalendarClient σ)

/-- `CalendarAttach`. -/
def calendarAttach (fuel : Nat) (aliases : Option AliasOption) (state : σ) :
    Option (Except Exception CalendarCatalog × σ) :=
  match readAliases aliases with
  | .error error => some (.error error, state)
  | .ok calendarAliases => loadCatalog engine client fuel ⟨calendarAliases, .empty, .empty⟩ state

/-- The pages of the calendar list, read one after another from a token to the
page without a next one. -/
inductive PageChain : String → σ → List CalendarListResponse → σ → Prop where
  | last (pageToken : String) (state after : σ) (response : CalendarListResponse)
      (read : CalendarListResource.list engine client pageToken state = (.ok response, after))
      (final : response.nextPageToken = "") : PageChain pageToken state [response] after
  | more (pageToken : String) (state between after : σ) (response : CalendarListResponse)
      (rest : List CalendarListResponse)
      (read : CalendarListResource.list engine client pageToken state = (.ok response, between))
      (pending : response.nextPageToken ≠ "")
      (chain : PageChain response.nextPageToken between rest after) :
      PageChain pageToken state (response :: rest) after

/-- The ids on the pages of a chain. -/
def listedIds (pages : List CalendarListResponse) : List String :=
  pages.flatMap (fun page => page.items.map CalendarListEntry.id)

/-- The loop over the pages ends after the chain, with every calendar mounted. -/
theorem load_pages_chain (pageToken : String) (state after : σ) (pages : List CalendarListResponse)
    (chain : PageChain engine client pageToken state pages after) (fuel : Nat)
    (enough : pages.length ≤ fuel) (seenIds : List String) (catalog : CalendarCatalog) :
    loadPages engine client fuel pageToken seenIds catalog state =
      some (.ok (seenIds ++ listedIds pages,
        (pages.flatMap CalendarListResponse.items).foldl mountCalendar catalog), after) := by
  induction chain generalizing fuel seenIds catalog with
  | last pageToken state after response read final =>
    cases fuel with
    | zero => simp at enough
    | succ fuel => simp [loadPages, read, final, listedIds]
  | more pageToken state between after response rest read pending chain ih =>
    cases fuel with
    | zero => simp at enough
    | succ fuel =>
      have later := ih fuel (by simpa using enough)
      simp [loadPages, read, pending, later, listedIds, List.foldl_append]

end CalendarAttach

end GoogleCalendar
