import GoogleCalendar.Transport

/-!
# Where the retry loop stops

The decorator numbers its attempts from zero and backs off after each answer that
it does not return. What the inner client would answer at every attempt, were all
before it repeated, is a sequence that depends on the client and its state alone;
the loop ends at the first answer in it that is final, or at the last attempt
allowed. A watched decorator also keeps what it sends and how long it may sleep.
-/

namespace GoogleCalendar.RetryStops

open Library BoundedRetry

/-- Searching a text for another finds it as a piece. -/
theorem contains_text_iff (needle text : List Char) :
    containsText needle text = true ↔ needle <:+: text := by
  induction text with
  | nil => simp [containsText]
  | cons char rest ih =>
    rw [containsText, Bool.or_eq_true, ih, List.infix_cons_iff, List.isPrefixOf_iff_prefix]

/-- The answers of the service after which a request may be repeated. -/
def Retryable (response : HttpResponse) : Prop :=
  response.statusCode = 429 ∨ (500 ≤ response.statusCode ∧ response.statusCode ≤ 599) ∨
    (response.statusCode = 403 ∧
      ("rateLimitExceeded".toList <:+: response.body.toList ∨
        "userRateLimitExceeded".toList <:+: response.body.toList))

/-- The code repeats what it is meant to repeat. -/
theorem is_retryable_iff (response : HttpResponse) :
    isRetryable response = true ↔ Retryable response := by
  simp only [isRetryable, Retryable, Bool.or_eq_true, Bool.and_eq_true, decide_eq_true_eq,
    contains_text_iff, or_assoc]

/-- Whether an outcome is followed by another attempt while one is allowed. -/
def Asks (outcome : Except Exception HttpResponse) : Prop :=
  ∃ response, outcome = .ok response ∧ Retryable response

/-- The loop goes on after an answer that asks for it. -/
theorem repeats_iff (outcome : Except Exception HttpResponse) :
    repeats isRetryable outcome = true ↔ Asks outcome := by
  cases outcome with
  | error error => simp [repeats, Asks]
  | ok response => simp [repeats, Asks, is_retryable_iff]

/-- What a decorator does, in order. -/
inductive RetryStep where
  | sent (request : HttpRequest) (outcome : Except Exception HttpResponse)
  | slept (bound : Nat)

namespace RetryStep

/-- Whether a step is a request. -/
@[simp] def isSent : RetryStep → Bool
  | sent _ _ => true
  | slept _ => false

/-- Whether a step is a pause. -/
@[simp] def isSlept : RetryStep → Bool
  | sent _ _ => false
  | slept _ => true

end RetryStep

variable {σ : Type} (client : RetryingHttpClient σ) (request : HttpRequest) (state : σ)

/-- The decorator with a record of its steps beside the state. -/
def watched : RetryingHttpClient (σ × List RetryStep) where
  inner := ⟨fun request state =>
    let outcome := client.inner.execute request state.1
    (outcome.1, outcome.2, state.2 ++ [.sent request outcome.1])⟩
  config := client.config
  sleep bound state := (client.sleep bound state.1, state.2 ++ [.slept bound])

/-- The state in which the attempt with a number is made: `SleepBackoff` has been
called once after each attempt before it. -/
def stateBefore (number : Nat) : σ :=
  beforeAttempt (client.inner.execute request) client.sleepBackoff 0 state number

/-- The outcome of the attempt with a number. -/
def outcomeOf (number : Nat) : Except Exception HttpResponse :=
  (client.inner.execute request (stateBefore client request state number)).1

/-- What backing off adds to the record. -/
def backoffSteps (attempt : Nat) : List RetryStep :=
  if client.config.zeroSleep then [] else [.slept (client.config.baseDelayMs * 2 ^ attempt)]

/-- The record before the attempt with a number. -/
def stepsBefore : Nat → List RetryStep
  | 0 => []
  | number + 1 => stepsBefore number ++ [.sent request (outcomeOf client request state number)] ++
      backoffSteps client number

/-- Watching changes neither the states nor the outcomes. -/
theorem watched_before (number : Nat) :
    stateBefore (watched client) request (state, []) number =
      (stateBefore client request state number, stepsBefore client request state number) := by
  induction number with
  | zero => rfl
  | succ number ih =>
    simp only [stateBefore, beforeAttempt, Nat.zero_add] at ih ⊢
    rw [ih]
    cases zero : client.config.zeroSleep <;>
      simp [watched, RetryingHttpClient.sleepBackoff, stepsBefore, backoffSteps, zero, outcomeOf,
        stateBefore]

/-- To watch a client does not change its outcomes. -/
theorem watched_outcome (number : Nat) :
    outcomeOf (watched client) request (state, []) number =
      outcomeOf client request state number := by
  rw [outcomeOf, watched_before]
  rfl

/-- Each attempt sends one request and is followed by one back-off, which sleeps
unless the decorator is configured not to. -/
theorem steps_counted (number : Nat) :
    (stepsBefore client request state number).countP RetryStep.isSent = number ∧
      (stepsBefore client request state number).countP RetryStep.isSlept =
        if client.config.zeroSleep then 0 else number := by
  induction number with
  | zero => simp [stepsBefore]
  | succ number ih =>
    obtain ⟨sent, slept⟩ := ih
    cases zero : client.config.zeroSleep with
    | true =>
      rw [zero, if_pos rfl] at slept
      simp [stepsBefore, backoffSteps, zero, sent, slept]
    | false =>
      rw [zero, if_neg (by simp)] at slept
      simp [stepsBefore, backoffSteps, zero, sent, slept, List.countP_cons]

/-- Every request sent is the one given. -/
theorem steps_same_request (number : Nat) :
    ∀ other outcome, .sent other outcome ∈ stepsBefore client request state number →
      other = request := by
  induction number with
  | zero => simp [stepsBefore]
  | succ number ih =>
    intro other outcome member
    simp only [stepsBefore, backoffSteps, List.mem_append, List.mem_singleton] at member
    rcases member with (earlier | here) | backoff
    · exact ih other outcome earlier
    · exact (RetryStep.sent.inj here).1
    · split at backoff <;> simp at backoff

/-- The loop ends at the first answer that is final, or at the last attempt allowed,
and returns that answer. It sends the one request once for each attempt up to
there and backs off after each of them but the last. -/
theorem execute_stops_right (allowed : 1 ≤ client.config.maxAttempts) :
    ∃ last log,
      client.execute request state =
        client.inner.execute request (stateBefore client request state last) ∧
      (watched client).execute request (state, []) =
        ((client.execute request state).1, (client.execute request state).2, log) ∧
      log.countP RetryStep.isSent = last + 1 ∧
      (∀ other outcome, .sent other outcome ∈ log → other = request) ∧
      log.countP RetryStep.isSlept = (if client.config.zeroSleep then 0 else last) ∧
      log.getLast? = some (.sent request (client.execute request state).1) ∧
      (∀ earlier < last, Asks (outcomeOf client request state earlier)) ∧
      (∀ first, (∀ earlier < first, Asks (outcomeOf client request state earlier)) →
        ¬ Asks (outcomeOf client request state first) →
        last + 1 = min client.config.maxAttempts (first + 1)) ∧
      ((∀ number, Asks (outcomeOf client request state number)) →
        last + 1 = client.config.maxAttempts) := by
  obtain ⟨last, ended⟩ := ends_somewhere isRetryable (outcomeOf client request state)
    client.config.maxAttempts allowed
  have stopped : client.execute request state =
      client.inner.execute request (stateBefore client request state last) :=
    loop_stops (client.inner.execute request) isRetryable client.sleepBackoff ⟨0, ""⟩ _ 0 last
      state ended
  have watchedEnd : EndsAt isRetryable (outcomeOf (watched client) request (state, []))
      client.config.maxAttempts last := by
    have same : outcomeOf (watched client) request (state, []) =
        outcomeOf client request state := funext (watched_outcome client request state)
    rw [same]
    exact ended
  have watchedStop : (watched client).execute request (state, []) =
      (watched client).inner.execute request
        (stateBefore (watched client) request (state, []) last) :=
    loop_stops ((watched client).inner.execute request) isRetryable (watched client).sleepBackoff
      ⟨0, ""⟩ _ 0 last (state, []) watchedEnd
  obtain ⟨sent, slept⟩ := steps_counted client request state last
  refine ⟨last, stepsBefore client request state last ++
    [.sent request (outcomeOf client request state last)], stopped, ?_, ?_, ?_, ?_, ?_, ?_, ?_, ?_⟩
  · rw [watchedStop, watched_before, stopped]
    rfl
  · simp [sent]
  · intro other outcome member
    rcases List.mem_append.mp member with earlier | here
    · exact steps_same_request client request state last other outcome earlier
    · exact (RetryStep.sent.inj (List.mem_singleton.mp here)).1
  · simp [slept]
  · rw [List.getLast?_append, stopped]
    rfl
  · intro earlier before
    exact (repeats_iff _).mp (ended.asked earlier before)
  · intro first asked final
    apply ends_at_first isRetryable _ _ last first ended
    · exact fun earlier before => (repeats_iff _).mpr (asked earlier before)
    · rw [← repeats_iff] at final
      simpa using final
  · intro asked
    exact ends_at_last isRetryable _ _ last ended (fun number => (repeats_iff _).mpr (asked number))

/-- A client that is told to slow down twice before it is answered. -/
def busyTwice : RetryingHttpClient (List HttpResponse) :=
  ⟨mockHttpClient, { maxAttempts := 5, baseDelayMs := 10 }, fun _ responses => responses⟩

/-- A request of no interest here. -/
def busyRequest : HttpRequest := ⟨.get, "", .calendars, [], none⟩

/-- Its third answer is returned. -/
theorem busy_twice_answered :
    ∃ log, (watched busyTwice).execute busyRequest ([⟨429, ""⟩, ⟨503, ""⟩, ⟨200, "a"⟩], []) =
        (.ok ⟨200, "a"⟩, [], log) ∧
      log.countP RetryStep.isSent = 3 ∧ log.countP RetryStep.isSlept = 2 := by
  obtain ⟨last, log, -, watchedRun, sent, -, slept, -, -, first, -⟩ := execute_stops_right busyTwice
    busyRequest [⟨429, ""⟩, ⟨503, ""⟩, ⟨200, "a"⟩] (by decide)
  have refused : ∀ earlier < 2, repeats isRetryable (outcomeOf busyTwice busyRequest
      [⟨429, ""⟩, ⟨503, ""⟩, ⟨200, "a"⟩] earlier) = true := by decide
  have ends := first 2 (fun earlier before => (repeats_iff _).mp (refused earlier before))
    (by
      rw [← repeats_iff]
      decide)
  have place : last = 2 := Nat.succ.inj ends
  subst place
  exact ⟨log, watchedRun, sent, slept⟩

end GoogleCalendar.RetryStops
