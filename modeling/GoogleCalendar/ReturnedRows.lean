import GoogleCalendar.CalendarInsert
import GoogleCalendar.CalendarUpdate
import GoogleCalendar.CalendarDelete

/-!
# The source phase of the DML operators

With RETURNING an operator hands out the rows it collected, at most one vector in
each call, and a cursor in the state of the source says how many are out. It
answers FINISHED together with the last of them. Without RETURNING it hands out
the count of its rows, once. The three operators do this alike.

The count of rows left is an unsigned difference, so a cursor behind the last row
would make it wrap; that the cursor never gets there is an invariant of the calls.
-/

namespace GoogleCalendar

/-- `SourceResultType`. -/
inductive SourceResultType where
  | haveMoreOutput
  | finished
  deriving DecidableEq, Repr

/-- The state of a source: how many rows have been returned. -/
structure CalendarSourceState where
  finished : Bool := false
  offset : Nat := 0
  deriving DecidableEq, Repr

/-- What one call hands out: the rows of the chunk, the answer and the state left. -/
structure SourceCall where
  chunk : List (List Value)
  result : SourceResultType
  state : CalendarSourceState
  deriving DecidableEq, Repr

/-- The difference of two `idx_t`, which wraps. -/
def idxDifference (left right : Nat) : Nat :=
  if right ≤ left then left - right else left + 2 ^ 64 - right

/-- `EmitReturnedRows`: the next rows and the cursor behind them. -/
def emitReturnedRows (vectorSize : Nat) (returned : List (List Value)) (offset : Nat) :
    List (List Value) × Nat :=
  let count := min vectorSize (idxDifference returned.length offset)
  ((List.range count).map (fun i => returned.getD (offset + i) []), offset + count)

/-- `GetDataInternal` over what the three sinks have in common. -/
def getDataInternal (vectorSize : Nat) (returnChunk : Bool) (returned : List (List Value))
    (count : Nat) (state : CalendarSourceState) : SourceCall :=
  if returnChunk then
    let emitted := emitReturnedRows vectorSize returned state.offset
    ⟨emitted.1, if returned.length ≤ emitted.2 then .finished else .haveMoreOutput,
      { state with offset := emitted.2 }⟩
  else if state.finished then ⟨[], .finished, state⟩
  else ⟨[[.bigint (int64 count)]], .finished, { state with finished := true }⟩

/-- `CalendarInsert::GetDataInternal`. -/
def CalendarInsert.getDataInternal (operator : CalendarInsert) (vectorSize : Nat)
    (sink : CalendarInsertGlobalSinkState) : CalendarSourceState → SourceCall :=
  GoogleCalendar.getDataInternal vectorSize operator.returnChunk sink.returned sink.insertCount

/-- `CalendarUpdate::GetDataInternal`. -/
def CalendarUpdate.getDataInternal (operator : CalendarUpdate) (vectorSize : Nat)
    (sink : CalendarUpdateGlobalSinkState) : CalendarSourceState → SourceCall :=
  GoogleCalendar.getDataInternal vectorSize operator.returnChunk sink.returned sink.updateCount

/-- `CalendarDelete::GetDataInternal`. -/
def CalendarDelete.getDataInternal (operator : CalendarDelete) (vectorSize : Nat)
    (sink : CalendarDeleteGlobalSinkState) : CalendarSourceState → SourceCall :=
  GoogleCalendar.getDataInternal vectorSize operator.returnChunk sink.returned sink.deleteCount

namespace ReturnedRows

/-- The calls up to the first that answers FINISHED. -/
def drain (call : CalendarSourceState → SourceCall) :
    Nat → CalendarSourceState → Option (List SourceCall)
  | 0, _ => none
  | fuel + 1, state =>
    match (call state).result with
    | .finished => some [call state]
    | .haveMoreOutput => (drain call fuel (call state).state).map (call state :: ·)

/-- Draining ends after some calls, which hand out the rows in order and once each.
The cursor stays within the rows, and only the last call may be empty. -/
def DrainsExactly (call : CalendarSourceState → SourceCall) (rows : List (List Value)) : Prop :=
  ∃ calls, (∀ fuel, rows.length < fuel → drain call fuel {} = some calls) ∧
    (calls.map SourceCall.chunk).flatten = rows ∧
    ∀ made ∈ calls, made.state.offset ≤ rows.length ∧
      (made.result = .haveMoreOutput → made.chunk ≠ [])

/-- With the cursor within the rows a call hands out the next of them. -/
theorem emit_next (vectorSize : Nat) (returned : List (List Value)) (offset : Nat)
    (inside : offset ≤ returned.length) :
    emitReturnedRows vectorSize returned offset =
      ((returned.drop offset).take vectorSize,
        offset + min vectorSize (returned.length - offset)) := by
  simp only [emitReturnedRows, idxDifference, if_pos inside, Prod.mk.injEq, and_true]
  apply List.ext_getElem
  · simp
  · intro place here there
    simp only [List.length_map, List.length_range] at here
    simp only [List.getElem_map, List.getElem_range, List.getElem_take, List.getElem_drop]
    rw [List.getD_eq_getElem?_getD, List.getElem?_eq_getElem (by omega), Option.getD_some]

/-- From a cursor within the rows the calls hand out what is left. Each call that
does not end the run moves the cursor on, so the rows left bound the calls. -/
theorem drain_rest (vectorSize : Nat) (positive : 0 < vectorSize) (returned : List (List Value))
    (count fuel : Nat) (state : CalendarSourceState) (inside : state.offset ≤ returned.length)
    (enough : returned.length - state.offset < fuel) :
    ∃ calls, drain (getDataInternal vectorSize true returned count) fuel state = some calls ∧
      (calls.map SourceCall.chunk).flatten = returned.drop state.offset ∧
      ∀ made ∈ calls, made.state.offset ≤ returned.length ∧
        (made.result = .haveMoreOutput → made.chunk ≠ []) := by
  induction fuel generalizing state with
  | zero => omega
  | succ fuel ih =>
    have call : getDataInternal vectorSize true returned count state =
        ⟨(returned.drop state.offset).take vectorSize,
          if returned.length ≤ state.offset + min vectorSize (returned.length - state.offset) then
            .finished else .haveMoreOutput,
          { state with
            offset := state.offset + min vectorSize (returned.length - state.offset) }⟩ := by
      simp only [getDataInternal, if_true, emit_next vectorSize returned state.offset inside]
    by_cases last : returned.length ≤ state.offset + min vectorSize (returned.length - state.offset)
    · rw [if_pos last] at call
      refine ⟨[getDataInternal vectorSize true returned count state], ?_, ?_, ?_⟩
      · simp only [drain, call]
      · have whole : (returned.drop state.offset).length ≤ vectorSize := by
          rw [List.length_drop]
          omega
        simp only [List.map_singleton, List.flatten_singleton, call, List.take_of_length_le whole]
      · intro made member
        rw [List.mem_singleton.mp member, call]
        exact ⟨by simp only; omega, by simp⟩
    · rw [if_neg last] at call
      obtain ⟨calls, drained, handed, kept⟩ := ih
        { state with offset := state.offset + min vectorSize (returned.length - state.offset) }
        (by simp only; omega) (by simp only; omega)
      refine ⟨getDataInternal vectorSize true returned count state :: calls, ?_, ?_, ?_⟩
      · simp only [drain, call, drained, Option.map_some]
      · have full : min vectorSize (returned.length - state.offset) = vectorSize := by omega
        rw [List.map_cons, List.flatten_cons, handed, call]
        simp only [full]
        rw [← List.drop_drop, List.take_append_drop]
      · intro made member
        rcases List.mem_cons.mp member with rfl | later
        · rw [call]
          refine ⟨by simp only; omega, fun _ none => ?_⟩
          have length := congrArg List.length none
          simp only [List.length_take, List.length_drop, List.length_nil] at length
          omega
        · exact kept made later

/-- More fuel changes nothing once a drain has ended. -/
theorem drain_extend (call : CalendarSourceState → SourceCall) (fuel more : Nat)
    (state : CalendarSourceState) (calls : List SourceCall)
    (drained : drain call fuel state = some calls) :
    drain call (fuel + more) state = some calls := by
  induction fuel generalizing state calls with
  | zero => simp [drain] at drained
  | succ fuel ih =>
    rw [show fuel + 1 + more = (fuel + more) + 1 by omega]
    simp only [drain] at drained ⊢
    cases result : (call state).result with
    | finished =>
      simp only [result] at drained
      exact drained
    | haveMoreOutput =>
      simp only [result] at drained
      obtain ⟨rest, restDrained, rfl⟩ := Option.map_eq_some_iff.mp drained
      simp only [ih (call state).state rest restDrained, Option.map_some]

/-- A source with rows to return returns exactly these, in vectors. -/
theorem drains_exactly (vectorSize : Nat) (positive : 0 < vectorSize)
    (returned : List (List Value)) (count : Nat) :
    DrainsExactly (getDataInternal vectorSize true returned count) returned := by
  obtain ⟨calls, drained, handed, kept⟩ := drain_rest vectorSize positive returned count
    (returned.length + 1) {} (Nat.zero_le _) (by simp)
  refine ⟨calls, ?_, handed, kept⟩
  intro fuel enough
  rw [show fuel = returned.length + 1 + (fuel - (returned.length + 1)) by omega]
  exact drain_extend _ _ _ _ _ drained

/-- Without RETURNING there is one call, with the count of the rows. -/
theorem count_handed_once (vectorSize : Nat) (returned : List (List Value)) (count fuel : Nat) :
    ∃ made, drain (getDataInternal vectorSize false returned count) (fuel + 1) {} = some [made] ∧
      made.chunk = [[.bigint (int64 count)]] :=
  ⟨_, rfl, rfl⟩

/-- Draining the rows that RETURNING collected is exact for each of the three
operators, for every vector size. -/
theorem returned_rows_drained (vectorSize : Nat) (positive : 1 ≤ vectorSize) :
    (∀ (operator : CalendarInsert) (sink : CalendarInsertGlobalSinkState),
      operator.returnChunk = true →
        DrainsExactly (operator.getDataInternal vectorSize sink) sink.returned) ∧
    (∀ (operator : CalendarUpdate) (sink : CalendarUpdateGlobalSinkState),
      operator.returnChunk = true →
        DrainsExactly (operator.getDataInternal vectorSize sink) sink.returned) ∧
    (∀ (operator : CalendarDelete) (sink : CalendarDeleteGlobalSinkState),
      operator.returnChunk = true →
        DrainsExactly (operator.getDataInternal vectorSize sink) sink.returned) := by
  refine ⟨?_, ?_, ?_⟩
  · intro operator sink mode
    rw [CalendarInsert.getDataInternal, mode]
    exact drains_exactly vectorSize positive sink.returned sink.insertCount
  · intro operator sink mode
    rw [CalendarUpdate.getDataInternal, mode]
    exact drains_exactly vectorSize positive sink.returned sink.updateCount
  · intro operator sink mode
    rw [CalendarDelete.getDataInternal, mode]
    exact drains_exactly vectorSize positive sink.returned sink.deleteCount

/-- Three rows leave in two vectors of two. -/
theorem three_rows_drained :
    DrainsExactly ((CalendarDelete.mk "work" ["summary"] 0 true).getDataInternal 2
        ⟨3, [[.varchar "a"], [.varchar "b"], [.varchar "c"]]⟩)
      [[.varchar "a"], [.varchar "b"], [.varchar "c"]] :=
  (returned_rows_drained 2 (by decide)).2.2 _ ⟨3, [[.varchar "a"], [.varchar "b"], [.varchar "c"]]⟩
    rfl

end ReturnedRows

end GoogleCalendar
