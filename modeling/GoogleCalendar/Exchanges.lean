import GoogleCalendar.Client
import GoogleCalendar.Library.Traces

/-!
# What goes over the wire

Results about which requests are issued need a record of them. The client here
is the retry decorator over an inner client that keeps each attempt with its
answer beside the state; it answers as the inner client does. One request then
adds to the record a run of attempts whose answers asked for a repetition, and
the attempt whose answer is returned.
-/

namespace GoogleCalendar

open Library

/-- One attempt: what was sent and what came back. -/
structure Exchange where
  request : HttpRequest
  answer : Except Exception HttpResponse

namespace Exchange

/-- Whether an attempt was repeated. -/
def Refused (exchange : Exchange) : Prop :=
  ∃ response, exchange.answer = .ok response ∧ isRetryable response = true

/-- Whether an attempt was answered with status 200. -/
def accepted (exchange : Exchange) : Bool :=
  match exchange.answer with
  | .ok response => response.statusCode = 200
  | .error _ => false

/-- No answer that asks for a repetition has status 200 or 204. -/
theorem refused_status (response : HttpResponse) (again : isRetryable response = true) :
    response.statusCode ≠ 200 ∧ response.statusCode ≠ 204 := by
  simp only [isRetryable, Bool.or_eq_true, Bool.and_eq_true, decide_eq_true_eq] at again
  omega

/-- An attempt that was repeated was not accepted. -/
theorem refused_unaccepted (exchange : Exchange) (refused : exchange.Refused) :
    exchange.accepted = false := by
  obtain ⟨response, answered, again⟩ := refused
  have status := (refused_status response again).1
  simp [accepted, answered, status]

end Exchange

namespace Exchanges

variable {σ : Type}

/-- A client that keeps every attempt of another beside its state. -/
def recording (http : IHttpClient σ) : IHttpClient (σ × List Exchange) where
  execute request state :=
    let outcome := http.execute request state.1
    (outcome.1, outcome.2, state.2 ++ [⟨request, outcome.1⟩])

/-- The retry decorator over the recording client. Sleeping is not recorded. -/
def recorded (retrying : RetryingHttpClient σ) : RetryingHttpClient (σ × List Exchange) :=
  ⟨recording retrying.inner, retrying.config,
    fun bound state => (retrying.sleep bound state.1, state.2)⟩

/-- The client whose attempts are recorded. -/
def recordedClient (retrying : RetryingHttpClient σ) (headers : HttpHeaders) (baseUrl : String) :
    GoogleCalendarClient (σ × List Exchange) :=
  ⟨(recorded retrying).toHttpClient, headers, baseUrl⟩

/-- The attempts of one request and the outcome it returns: refused attempts and
a last one, or none when no attempt is allowed. -/
inductive Tries (request : HttpRequest) :
    Except Exception HttpResponse → List Exchange → Prop where
  | unset : Tries request (.ok ⟨0, ""⟩) []
  | answered (refused : List Exchange) (answer : Except Exception HttpResponse)
      (repeated : ∀ exchange ∈ refused, exchange.request = request ∧ exchange.Refused) :
      Tries request answer (refused ++ [⟨request, answer⟩])

/-- The record grows by the attempts that the retry loop lists. -/
theorem recorded_attempts (retrying : RetryingHttpClient σ) (request : HttpRequest)
    (state : σ × List Exchange) :
    ((recorded retrying).execute request state).2.2 = state.2 ++
      ((recorded retrying).attempts request state).map (fun made => ⟨request, made.answer⟩) := by
  have history := BoundedRetry.loop_history ((recorded retrying).inner.execute request) isRetryable
    (recorded retrying).sleepBackoff ⟨0, ""⟩
    (fun history current => current.2 =
      state.2 ++ history.map (fun made => (⟨request, made.answer⟩ : Exchange)))
    (by
      intro history current grown
      simp [recorded, recording, grown])
    (by
      intro history number current grown
      simp only [RetryingHttpClient.sleepBackoff]
      split
      · exact grown
      · exact grown)
    [] retrying.config.maxAttempts 0 state (by simp)
  rwa [List.nil_append] at history

/-- What one request adds to the record. -/
theorem execute_tries (retrying : RetryingHttpClient σ) (request : HttpRequest)
    (state : σ × List Exchange) :
    ∃ more, ((recorded retrying).execute request state).2.2 = state.2 ++ more ∧
      Tries request ((recorded retrying).execute request state).1 more := by
  have grown := recorded_attempts retrying request state
  cases Nat.eq_zero_or_pos retrying.config.maxAttempts with
  | inl none =>
    refine ⟨[], ?_, ?_⟩
    · simpa [RetryingHttpClient.attempts, recorded, none, BoundedRetry.attempts] using grown
    · have unset : (recorded retrying).execute request state = (.ok ⟨0, ""⟩, state) := by
        simp [RetryingHttpClient.execute, recorded, none, BoundedRetry.loop]
      rw [unset]
      exact .unset
  | inr allowed =>
    obtain ⟨before, last, same⟩ := BoundedRetry.attempts_last
      ((recorded retrying).inner.execute request) isRetryable (recorded retrying).sleepBackoff
      ⟨0, ""⟩ retrying.config.maxAttempts 0 state allowed
    have executed : (recorded retrying).inner.execute request before =
        (recorded retrying).execute request state := same
    have repeated := BoundedRetry.attempts_repeat ((recorded retrying).inner.execute request)
      isRetryable (recorded retrying).sleepBackoff retrying.config.maxAttempts 0 state
    obtain ⟨refused, listed⟩ := List.getLast?_eq_some_iff.mp last
    have listed' : (recorded retrying).attempts request state = refused ++
        [⟨before, ((recorded retrying).execute request state).1,
          ((recorded retrying).execute request state).2⟩] := by
      rw [← executed]
      exact listed
    refine ⟨_, grown, ?_⟩
    rw [listed', List.map_append, List.map_singleton]
    refine .answered _ _ ?_
    intro exchange member
    obtain ⟨made, tried, rfl⟩ := List.mem_map.mp member
    have again := repeated made (by simpa [listed] using tried)
    refine ⟨rfl, ?_⟩
    cases answer : made.answer with
    | error error => simp [answer, BoundedRetry.repeats] at again
    | ok response =>
      exact ⟨response, rfl, by simpa [answer, BoundedRetry.repeats] using again⟩

/-- A record that grew by attempts at one request. -/
def Sends (request : HttpRequest) (before after : List Exchange) : Prop :=
  ∃ more, more ≠ [] ∧ after = before ++ more ∧ ∀ exchange ∈ more, exchange.request = request

/-- A record that stays the same has no attempt more. -/
theorem not_sends_same (request : HttpRequest) (record : List Exchange) :
    ¬ Sends request record record := by
  rintro ⟨more, present, grown, -⟩
  exact present (List.self_eq_append_right.mp grown)

/-- What was attempted is told by the record. -/
theorem sends_unique (first second : HttpRequest) (before after : List Exchange)
    (one : Sends first before after) (other : Sends second before after) : first = second := by
  obtain ⟨more, present, rfl, requested⟩ := one
  obtain ⟨again, -, grown, requestedAgain⟩ := other
  obtain rfl := List.append_cancel_left grown
  obtain ⟨exchange, rest, rfl⟩ := List.exists_cons_of_ne_nil present
  rw [← requested exchange (List.mem_cons_self ..), requestedAgain exchange (List.mem_cons_self ..)]

/-- Where attempts are allowed a request is attempted. -/
theorem execute_sends (retrying : RetryingHttpClient σ) (request : HttpRequest)
    (state : σ × List Exchange) (allowed : 0 < retrying.config.maxAttempts) :
    Sends request state.2 ((recorded retrying).execute request state).2.2 := by
  obtain ⟨before, last, -⟩ := BoundedRetry.attempts_last
    ((recorded retrying).inner.execute request) isRetryable (recorded retrying).sleepBackoff
    ⟨0, ""⟩ retrying.config.maxAttempts 0 state allowed
  refine ⟨_, ?_, recorded_attempts retrying request state, ?_⟩
  · rw [Ne, List.map_eq_nil_iff]
    intro none
    have final : ((recorded retrying).attempts request state).getLast? = some _ := last
    rw [none] at final
    cases final
  · intro exchange member
    obtain ⟨made, -, rfl⟩ := List.mem_map.mp member
    rfl

/-- Only where attempts are allowed a value is read from an answer. -/
theorem read_allowed {α : Type} (engine : Engine) (get : Json → Except JsonError α)
    (retrying : RetryingHttpClient σ) (request : HttpRequest) (state after : σ × List Exchange)
    (value : α) (answered : readResponse (parseResponse engine get)
      ((recorded retrying).execute request state) = (.ok value, after)) :
    0 < retrying.config.maxAttempts := by
  obtain ⟨response, -, executed, status, -, -⟩ := read_ok engine get _ value after answered
  by_contra none
  have unset : (recorded retrying).execute request state = (.ok ⟨0, ""⟩, state) := by
    simp [RetryingHttpClient.execute, recorded, Nat.eq_zero_of_not_pos none, BoundedRetry.loop]
  rw [unset] at executed
  obtain ⟨same, -⟩ := Prod.mk.inj executed
  obtain rfl := Except.ok.inj same
  exact absurd status (by decide)

/-- A client that keeps a record: what is answered with 200 adds the attempt that was answered so,
and before it attempts at the same request that were refused. -/
def KeepsRecord (http : IHttpClient (σ × List Exchange)) : Prop :=
  ∀ request state response after, http.execute request state = (.ok response, after) →
    response.statusCode = 200 →
    ∃ refused, after.2 = state.2 ++ (refused ++ [⟨request, .ok response⟩]) ∧
      ∀ exchange ∈ refused, exchange.request = request ∧ exchange.Refused

/-- Recording each call keeps a record. -/
theorem recording_keeps (http : IHttpClient σ) : KeepsRecord (recording http) := by
  intro request state response after executed status
  obtain ⟨answered, rfl⟩ := Prod.mk.inj executed
  refine ⟨[], ?_, by simp⟩
  simp only [answered, List.nil_append]

/-- Recording each attempt keeps a record. -/
theorem recorded_keeps (retrying : RetryingHttpClient σ) :
    KeepsRecord (recorded retrying).toHttpClient := by
  intro request state response after executed status
  have executed : (recorded retrying).execute request state = (.ok response, after) := executed
  obtain ⟨more, grown, tried⟩ := execute_tries retrying request state
  rw [executed] at grown tried
  cases tried with
  | unset => exact absurd status (by simp)
  | answered refused _ repeated => exact ⟨refused, grown, repeated⟩

/-- A record in which each request was repeated until it was accepted. -/
inductive Settled : List Exchange → Prop where
  | none : Settled []
  | call (record refused : List Exchange) (exchange : Exchange) (earlier : Settled record)
      (repeated : ∀ attempt ∈ refused, attempt.request = exchange.request ∧ attempt.Refused)
      (accepted : exchange.accepted = true) : Settled (record ++ (refused ++ [exchange]))

/-- The attempts of a call send one request. -/
theorem tries_request (request : HttpRequest) (answer : Except Exception HttpResponse)
    (tries : List Exchange) (tried : Tries request answer tries) :
    ∀ exchange ∈ tries, exchange.request = request := by
  cases tried with
  | unset => simp
  | answered refused _ repeated =>
    intro exchange member
    cases List.mem_append.mp member with
    | inl early => exact (repeated exchange early).1
    | inr last => simp [List.mem_singleton.mp last]

/-- A reading of responses that takes none that asks for a repetition, and not
the one that is left when no attempt is allowed. -/
def Strict {α : Type} (read : HttpResponse → Except Exception α) : Prop :=
  ∀ response, isRetryable response = true ∨ response.statusCode = 0 →
    ∀ value, read response ≠ .ok value

/-- A response that is parsed was accepted. -/
theorem parse_strict {α : Type} (engine : Engine) (get : Json → Except JsonError α) :
    Strict (parseResponse engine get) := by
  intro response unusable value
  have status : response.statusCode ≠ 200 := by
    cases unusable with
    | inl again => exact (Exchange.refused_status response again).1
    | inr unset => omega
  simp [parseResponse, status]

/-- A response that is read as a deletion was accepted. -/
theorem delete_strict : Strict readDeleted := by
  intro response unusable value
  have status : response.statusCode ≠ 200 ∧ response.statusCode ≠ 204 := by
    cases unusable with
    | inl again => exact Exchange.refused_status response again
    | inr unset => omega
  simp [readDeleted, status]

/-- No value is read from a refused attempt. -/
theorem refused_unread {α : Type} (read : HttpResponse → Except Exception α) (strict : Strict read)
    (exchange : Exchange) (refused : exchange.Refused) (value : α) :
    exchange.answer.bind read ≠ .ok value := by
  obtain ⟨response, answered, again⟩ := refused
  rw [answered]
  exact strict response (Or.inl again) value

/-- When a value is read, the attempts are refused ones and the one it is read
from. -/
theorem read_ok_tries {α : Type} (retrying : RetryingHttpClient σ)
    (read : HttpResponse → Except Exception α) (strict : Strict read) (request : HttpRequest)
    (state after : σ × List Exchange) (value : α)
    (outcome : readResponse read ((recorded retrying).execute request state) =
      (.ok value, after)) :
    ∃ refused answer, after.2 = state.2 ++ (refused ++ [⟨request, answer⟩]) ∧
      (∀ exchange ∈ refused, exchange.request = request ∧ exchange.Refused) ∧
      answer.bind read = .ok value := by
  obtain ⟨more, grown, tried⟩ := execute_tries retrying request state
  obtain ⟨taken, left⟩ := Prod.mk.inj outcome
  rw [left] at grown
  generalize ((recorded retrying).execute request state).1 = answer at tried taken
  cases tried with
  | unset => exact absurd taken (strict _ (Or.inr rfl) value)
  | answered refused _ repeated => exact ⟨refused, answer, grown, repeated, taken⟩

/-- When no value is read, none could be read from any attempt. -/
theorem read_error_tries {α : Type} (retrying : RetryingHttpClient σ)
    (read : HttpResponse → Except Exception α) (strict : Strict read) (request : HttpRequest)
    (state after : σ × List Exchange) (error : Exception)
    (outcome : readResponse read ((recorded retrying).execute request state) =
      (.error error, after)) :
    ∃ more, after.2 = state.2 ++ more ∧
      ∀ exchange ∈ more, exchange.request = request ∧
        ∀ value, exchange.answer.bind read ≠ .ok value := by
  obtain ⟨more, grown, tried⟩ := execute_tries retrying request state
  obtain ⟨failed, left⟩ := Prod.mk.inj outcome
  rw [left] at grown
  refine ⟨more, grown, ?_⟩
  generalize ((recorded retrying).execute request state).1 = answer at tried failed
  cases tried with
  | unset => simp
  | answered refused _ repeated =>
    intro exchange member
    cases List.mem_append.mp member with
    | inl early =>
      exact ⟨(repeated exchange early).1, refused_unread read strict exchange
        (repeated exchange early).2⟩
    | inr last =>
      obtain rfl := List.mem_singleton.mp last
      exact ⟨rfl, fun value taken => by simp [failed] at taken⟩

end Exchanges

end GoogleCalendar
