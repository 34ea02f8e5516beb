import GoogleCalendar.DisjointStatements
import GoogleCalendar.Library.Costs

/-!
# What a statement asks of the service at most

A row is at most two calls of the service and a call at most `maxAttempts`
requests, with a pause that doubles between any two of them. So the requests of a
statement, the milliseconds that it sleeps and the turns that it takes are bounded
by its rows and the settings of its retries. The bounds hold whatever the service
answers, an answer that is never right included, and whatever other statements do
in between.
-/

namespace GoogleCalendar

open Library EventMapping

/-- What is charged for a request, and for a pause of a length. -/
structure Tariff where
  request : Nat
  pause : Nat → Nat

namespace Tariff

/-- What a question of a session is charged. -/
def price (tariff : Tariff) : Ask → Nat
  | .send _ => tariff.request
  | .pause bound => tariff.pause bound

/-- Every request costs one, and a pause nothing. -/
def requests : Tariff := ⟨1, fun _ => 0⟩

/-- A pause costs its length, and a request nothing. -/
def milliseconds : Tariff := ⟨0, fun bound => bound⟩

/-- Every question costs one. -/
def turns : Tariff := ⟨1, fun _ => 1⟩

/-- A turn is charged for whatever the session asks. -/
theorem turns_price : turns.price = fun _ => 1 := by
  funext question
  cases question <;> rfl

variable (tariff : Tariff) (config : RetryConfig)

/-- The dearest course of the attempts that are left: each is made, with a pause
before the next. -/
def attempts : Nat → Nat → Nat
  | 0, _ => 0
  | remaining + 1, number => tariff.request +
      if remaining = 0 then 0
      else (if config.zeroSleep then 0 else tariff.pause (config.baseDelayMs * 2 ^ number)) +
        attempts remaining (number + 1)

/-- The dearest course of a call. -/
def call : Nat := tariff.attempts config config.maxAttempts 0

end Tariff

namespace Session

variable (tariff : Tariff) (config : RetryConfig)

/-- A backoff costs its pause before what follows it. -/
theorem backoff_costs {R : Type} (number budget : Nat) (next : Session R)
    (costs : next.CostsAtMost tariff.price budget) :
    (backoff config number next).CostsAtMost tariff.price
      ((if config.zeroSleep then 0 else tariff.pause (config.baseDelayMs * 2 ^ number)) +
        budget) := by
  rw [backoff]
  split
  · rwa [Nat.zero_add]
  · exact ⟨budget, Nat.le_refl _, fun _ => costs⟩

/-- The attempts that are left cost at most their dearest course. -/
theorem attempts_costs (request : HttpRequest) (remaining number : Nat) :
    (attempts config request remaining number).CostsAtMost tariff.price
      (tariff.attempts config remaining number) := by
  induction remaining generalizing number with
  | zero => trivial
  | succ remaining ih =>
    refine ⟨_, Nat.le_refl _, fun answer => ?_⟩
    by_cases last : remaining = 0
    · simp only [last, decide_true, Bool.or_true, if_true]
      trivial
    · simp only [if_neg last]
      split
      · trivial
      · apply backoff_costs
        exact ih (number + 1)

/-- A call costs at most the dearest course of its attempts. -/
theorem call_costs {α : Type} (read : HttpResponse → Except Exception α) (request : HttpRequest) :
    (call config read request).CostsAtMost tariff.price (tariff.call config) :=
  Process.costs_bind _ _ _ _ 0 (attempts_costs tariff config request _ _) (fun _ => trivial)

/-- A body that cannot be serialised costs nothing, and another one a call. -/
theorem call_with_costs {α : Type} (link : Link) (read : HttpResponse → Except Exception α)
    (method : HttpMethod) (path : ResourcePath) (body : Json) :
    (callWith link read method path body).CostsAtMost tariff.price (tariff.call link.config) := by
  rw [callWith]
  split
  · trivial
  · exact call_costs tariff link.config read _

/-- A call, and what follows it. -/
theorem then_costs {T R : Type} (first : Session T) (next : T → Session R) (calls : Nat)
    (costs : first.CostsAtMost tariff.price (tariff.call config))
    (later : ∀ result, (next result).CostsAtMost tariff.price (calls * tariff.call config)) :
    (first.bind next).CostsAtMost tariff.price ((calls + 1) * tariff.call config) := by
  rw [Nat.succ_mul, Nat.add_comm]
  exact Process.costs_bind _ _ _ _ _ costs later

/-- The calls of the rows of a chunk. -/
def callsOf (calls : List Value → Nat) : List (List Value) → Nat
  | [] => 0
  | first :: rest => calls first + callsOf calls rest

/-- A chunk costs at most the calls of its rows. -/
theorem rows_costs {G O : Type} (row : List Value → G → Session O) (ended : G → O)
    (left : O → Option G) (calls : List Value → Nat)
    (each : ∀ first gstate,
      (row first gstate).CostsAtMost tariff.price (calls first * tariff.call config))
    (chunk : List (List Value)) (gstate : G) :
    (rows row ended left chunk gstate).CostsAtMost tariff.price
      (callsOf calls chunk * tariff.call config) := by
  induction chunk generalizing gstate with
  | nil => trivial
  | cons first rest ih =>
    rw [callsOf, Nat.add_mul]
    apply Process.costs_bind _ _ _ _ _ (each first gstate)
    intro outcome
    split
    · exact ih _
    · trivial

end Session

/-! The calls of a row. -/

namespace CalendarInsert

variable (engine : Engine) (link : Link) (operator : CalendarInsert) (tariff : Tariff)

/-- A POST, and a PUT where the row gives an id that may be taken. -/
def rowCalls (row : List Value) : Nat :=
  match rowToEvent engine operator.names row with
  | .error _ => 0
  | .ok event => if (event.find "id").isSome then 2 else 1

/-- An event is posted, and put again where it has an id. -/
theorem event_session_costs (event : Json) :
    (eventSession engine link operator event).CostsAtMost tariff.price
      ((if (event.find "id").isSome then 2 else 1) * tariff.call link.config) := by
  have whole : (if (event.find "id").isSome then 2 else 1) =
      (if (event.find "id").isSome then 1 else 0) + 1 := by
    split <;> rfl
  rw [whole]
  apply Session.then_costs tariff link.config _ _ _
    (Session.call_with_costs tariff link _ _ _ event)
  intro inserted
  split
  · trivial
  · split
    · rename_i id given
      rw [given, Option.isSome_some, if_pos rfl, Nat.one_mul]
      split
      · exact Session.call_with_costs tariff link _ _ _ event
      · trivial
    · trivial
  · trivial

/-- A row that is refused costs nothing, and another what its event costs. -/
theorem row_session_costs (row : List Value) (gstate : CalendarInsertGlobalSinkState) :
    (rowSession engine link operator row gstate).CostsAtMost tariff.price
      (rowCalls engine operator row * tariff.call link.config) := by
  simp only [rowSession, rowCalls]
  cases rowToEvent engine operator.names row with
  | error error => trivial
  | ok event =>
    apply Process.costs_bind _ _ _ _ 0 (event_session_costs engine link operator tariff event)
    intro made
    cases made <;> trivial

end CalendarInsert

namespace CalendarUpdate

variable (engine : Engine) (link : Link) (operator : CalendarUpdate) (tariff : Tariff)

/-- A GET and a PUT. -/
def rowCalls (row : List Value) : Nat := if (rowId row).isNull then 0 else 2

/-- A row without an id costs nothing, and another its GET and its PUT. -/
theorem row_session_costs (row : List Value) (gstate : CalendarUpdateGlobalSinkState) :
    (rowSession engine link operator row gstate).CostsAtMost tariff.price
      (rowCalls row * tariff.call link.config) := by
  simp only [rowSession, rowCalls]
  split
  · trivial
  · apply Session.then_costs tariff link.config _ _ _ (Session.call_costs tariff link.config _ _)
    intro got
    cases got with
    | error error => trivial
    | ok event =>
      simp only
      split
      · trivial
      · apply Session.then_costs tariff link.config _ _ 0
          (Session.call_with_costs tariff link _ _ _ _)
        intro put
        cases put <;> trivial

end CalendarUpdate

namespace CalendarDelete

variable (engine : Engine) (link : Link) (operator : CalendarDelete) (tariff : Tariff)

/-- A DELETE, after a GET where the rows are returned. -/
def rowCalls (row : List Value) : Nat :=
  if (row.getD operator.rowIdIndex .null).isNull then 0
  else if operator.returnChunk then 2 else 1

/-- A deletion is one call. -/
theorem deletion_session_costs (id : String) (gstate : CalendarDeleteGlobalSinkState) :
    (deletionSession link operator id gstate).CostsAtMost tariff.price
      (1 * tariff.call link.config) := by
  apply Session.then_costs tariff link.config _ _ 0 (Session.call_costs tariff link.config _ _)
  intro deleted
  cases deleted <;> trivial

/-- A row costs its deletion, and its GET where rows are returned. -/
theorem row_session_costs (row : List Value) (gstate : CalendarDeleteGlobalSinkState) :
    (rowSession engine link operator row gstate).CostsAtMost tariff.price
      (rowCalls operator row * tariff.call link.config) := by
  simp only [rowSession, rowCalls]
  split
  · trivial
  · split
    · apply Session.then_costs tariff link.config _ _ _ (Session.call_costs tariff link.config _ _)
      intro got
      cases got with
      | error error => trivial
      | ok event => exact deletion_session_costs link operator tariff _ _
    · exact deletion_session_costs link operator tariff _ gstate

end CalendarDelete

namespace EventStatement

variable (engine : Engine)

/-- The calls that the rows of a statement can take. -/
def calls : EventStatement → Nat
  | insert operator chunk => Session.callsOf (CalendarInsert.rowCalls engine operator) chunk
  | update _ chunk => Session.callsOf CalendarUpdate.rowCalls chunk
  | delete operator chunk => Session.callsOf (CalendarDelete.rowCalls operator) chunk

/-- A statement costs at most the calls of its rows. -/
theorem session_costs (link : Link) (tariff : Tariff) (statement : EventStatement) :
    (session engine link statement).CostsAtMost tariff.price
      (calls engine statement * tariff.call link.config) := by
  cases statement with
  | insert operator chunk =>
    apply Process.costs_bind _ _ _ _ 0
    · exact Session.rows_costs tariff link.config _ _ _ _
        (CalendarInsert.row_session_costs engine link operator tariff) chunk {}
    · exact fun _ => trivial
  | update operator chunk =>
    apply Process.costs_bind _ _ _ _ 0
    · exact Session.rows_costs tariff link.config _ _ _ _
        (CalendarUpdate.row_session_costs engine link operator tariff) chunk {}
    · exact fun _ => trivial
  | delete operator chunk =>
    apply Process.costs_bind _ _ _ _ 0
    · exact Session.rows_costs tariff link.config _ _ _ _
        (CalendarDelete.row_session_costs engine link operator tariff) chunk {}
    · exact fun _ => trivial

end EventStatement

/-! The three tariffs. -/

namespace Tariff

variable (config : RetryConfig)

/-- The attempts that are left are as many requests. -/
theorem requests_of_attempts (remaining number : Nat) :
    requests.attempts config remaining number = remaining := by
  induction remaining generalizing number with
  | zero => rfl
  | succ remaining ih =>
    rw [attempts]
    split
    · rename_i last
      rw [last, requests]
    · simp only [requests, ite_self, Nat.zero_add]
      rw [← requests, ih, Nat.add_comm]

/-- The pauses double, and there is one less than attempts. -/
theorem milliseconds_of_attempts (remaining number : Nat) :
    milliseconds.attempts config remaining number ≤
      config.baseDelayMs * (2 ^ (number + (remaining - 1)) - 2 ^ number) := by
  induction remaining generalizing number with
  | zero => exact Nat.zero_le _
  | succ remaining ih =>
    rw [attempts]
    split
    · exact Nat.zero_le _
    · rename_i more
      have rest := ih (number + 1)
      have shifted : number + 1 + (remaining - 1) = number + (remaining + 1 - 1) := by omega
      rw [shifted] at rest
      have pause : (if config.zeroSleep then 0 else config.baseDelayMs * 2 ^ number) ≤
          config.baseDelayMs * 2 ^ number := by
        split
        · exact Nat.zero_le _
        · exact Nat.le_refl _
      have doubled : 2 ^ (number + 1) ≤ 2 ^ (number + (remaining + 1 - 1)) :=
        Nat.pow_le_pow_right (by decide) (by omega)
      calc milliseconds.request + ((if config.zeroSleep then 0
              else milliseconds.pause (config.baseDelayMs * 2 ^ number)) +
            milliseconds.attempts config remaining (number + 1))
          ≤ config.baseDelayMs * 2 ^ number + config.baseDelayMs *
              (2 ^ (number + (remaining + 1 - 1)) - 2 ^ (number + 1)) := by
            rw [show milliseconds.request = 0 from rfl, Nat.zero_add]
            exact Nat.add_le_add pause rest
        _ = config.baseDelayMs * (2 ^ (number + (remaining + 1 - 1)) - 2 ^ number) := by
            rw [← Nat.mul_add]
            congr 1
            rw [Nat.pow_succ] at doubled ⊢
            omega

/-- Between any two of the attempts that are left there is a pause at most. -/
theorem turns_of_attempts (remaining number : Nat) :
    turns.attempts config remaining number ≤ 2 * remaining - 1 := by
  induction remaining generalizing number with
  | zero => exact Nat.zero_le _
  | succ remaining ih =>
    have rest := ih (number + 1)
    rw [attempts]
    split
    · simp only [turns]
      omega
    · simp only [turns] at rest ⊢
      split <;> omega

end Tariff

namespace EventStatement

variable {N S : Type} [DecidableEq N]
  (serve : Process.Server N Ask (Except Exception HttpResponse) S) (engine : Engine)

/-- A service that is overloaded, then reports a conflict, then is overloaded again. -/
def stubbornAnswers : List HttpResponse :=
  List.replicate 4 ⟨503, ""⟩ ++ [⟨409, ""⟩] ++ List.replicate 4 ⟨503, ""⟩ ++ [⟨200, "[]"⟩]

/-- A service that refuses every request for now. -/
def stubborn : Process.Server Unit Ask (Except Exception HttpResponse) (List HttpResponse) :=
  fun _ => Session.serving mockHttpClient (fun _ answers => answers)

/-- An engine that reads an empty list. -/
def stubbornEngine : Engine := .reading [] [("[]", .array [])]

/-- A row with an id, which is posted and may be put. -/
def lunchInsert : EventStatement :=
  .insert ⟨"work", ["event_id", "summary"], false⟩ [[.varchar "lunch", .varchar "Lunch"]]

/-- The insert, and the answers that are left. -/
abbrev StubbornWorld := Process.World Unit Ask (Except Exception HttpResponse) Outcome
  (List HttpResponse)

/-- The insert alone, before its first turn. -/
def stubbornStart : StubbornWorld :=
  ⟨fun _ => lunchInsert.session stubbornEngine ⟨{}, [], ""⟩, stubbornAnswers⟩

/-- Whether the insert has ended. -/
def ended (world : StubbornWorld) : Bool :=
  match world.process () with
  | .done _ => true
  | .ask _ _ => false

end EventStatement

end GoogleCalendar
