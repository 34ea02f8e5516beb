import GoogleCalendar.Library.SharedScan
import GoogleCalendar.Library.KeyedTable
import Mathlib.Data.List.Dedup

/-!
# What a run of the cursor leaves

A collection seen through a view is a table, and a run of the cursor to its end is a
command on it. A run that touches items changes what is seen of each in one way. An
item that a touch leaves where it will be listed again is touched again; when a second
change adds nothing to what is seen, the run leaves the collection as if each item that
was due had been changed once. A run that handles items, while nobody else writes to
any, handles each that is listed and passes once.
-/

namespace GoogleCalendar.Library.CursorScan

universe u v w x
variable {I : Type u} {B : Type v} {P : Type w} {R : Type x} [LinearOrder P] [DecidableEq I]

variable (position : I → B → P) (listed passes : B → Bool) (view : B → R) (change : R → R)

/-- A touched item waited, with the value it had. -/
theorem touched_held (scan next : Scan I B P) (made : Touch I B P)
    (step : Step position listed passes scan (some made) next) (waiting : Waiting position scan) :
    scan.held made.item = some made.before ∧ passes made.before = true ∧
      next.held = Function.update scan.held made.item (some made.after) := by
  cases step with
  | touch item value after rest first passed =>
    exact ⟨(waiting.current (item, value) (by simp [first])).1, passed, rfl⟩

/-- What a run touches has passed. -/
theorem touched_passed (scan final : Scan I B P) (touches : List (Touch I B P))
    (run : Run position listed passes scan touches final) :
    ∀ made ∈ touches, passes made.before = true := by
  induction run with
  | done => simp
  | step scan next final touch touches step rest ih =>
    intro made member
    cases List.mem_append.mp member with
    | inl here =>
      cases step with
      | fetch => simp at here
      | skip => simp at here
      | touch item value after queue first passed =>
        obtain rfl := by simpa using here
        exact passed
    | inr later => exact ih made later

/-- A step without a touch leaves the collection. -/
theorem untouched_held (scan next : Scan I B P)
    (step : Step position listed passes scan none next) : next.held = scan.held := by
  cases step <;> rfl

/-- A run to the end changes what is seen of each item that was due, as one touch does, and
leaves the others. -/
theorem run_changes (scan final : Scan I B P) (touches : List (Touch I B P))
    (run : Run position listed passes scan touches final) (waiting : Waiting position scan)
    (drained : final.queue = []) (ended : final.more = false)
    (changes : ∀ made ∈ touches, view made.after = change (view made.before))
    (settled : ∀ made ∈ touches, passes made.after = true →
      change (view made.after) = view made.after) (item : I) :
    (Due position listed passes scan item →
      (final.held item).map view = (scan.held item).map (fun value => change (view value))) ∧
    (¬ Due position listed passes scan item → final.held item = scan.held item) := by
  induction run with
  | done scan =>
    refine ⟨?_, fun _ => rfl⟩
    rintro ⟨value, -, -, waits | ⟨more, -⟩⟩
    · simp [drained] at waits
    · simp [ended] at more
  | step scan next final touch touches step rest ih =>
    have later := ih (step_waiting position listed passes scan next touch step waiting) drained
      ended (fun made member => changes made (List.mem_append_right _ member))
      (fun made member => settled made (List.mem_append_right _ member))
    cases touch with
    | none =>
      have same := step_due_other position listed passes scan next none step item (by simp)
      rw [untouched_held position listed passes scan next step, same] at later
      exact later
    | some made =>
      obtain ⟨held, passed, replaced⟩ :=
        touched_held position listed passes scan next made step waiting
      by_cases here : made.item = item
      · subst here
        obtain ⟨due, -⟩ := step_due_touched position listed passes scan next made step waiting
        have changed := changes made (by simp)
        refine ⟨fun _ => ?_, fun undue => absurd due undue⟩
        rw [replaced, Function.update_self] at later
        by_cases again : Due position listed passes next made.item
        · -- it is touched again, and the second change is seen no more
          have twice := later.1 again
          obtain ⟨value, kept, passed, -⟩ := again
          rw [replaced, Function.update_self, Option.some.injEq] at kept
          subst kept
          rw [twice, held, Option.map_some, Option.map_some, settled made (by simp) passed, changed]
        · rw [later.2 again, held, Option.map_some, Option.map_some, changed]
      · have same := step_due_other position listed passes scan next (some made) step item
          (by simpa using here)
        rw [replaced, Function.update_of_ne (Ne.symm here), same] at later
        exact later

/-- The touched items are those that were due. -/
theorem touched_iff_due (scan final : Scan I B P) (touches : List (Touch I B P))
    (run : Run position listed passes scan touches final) (waiting : Waiting position scan)
    (drained : final.queue = []) (ended : final.more = false) (item : I) :
    item ∈ touches.map Touch.item ↔ Due position listed passes scan item := by
  obtain ⟨absent, present⟩ := touches_counted position listed passes scan final touches run waiting
    drained ended item
  have counted : item ∈ touches.map Touch.item ↔ 0 < touchCount touches item := by
    rw [touchCount, List.countP_pos_iff]
    simp [List.mem_map]
  rw [counted]
  constructor
  · intro touched
    by_contra undue
    rw [absent undue] at touched
    exact absurd touched (lt_irrefl 0)
  · intro due
    rw [present due]
    omega

open KeyedTable

/-- The rows that a run from the beginning is about. -/
def touchedRows (held : I → Option B) (touches : List (Touch I B P)) : List (I × R) :=
  (touches.map Touch.item).dedup.filterMap
    (fun item => (held item).map (fun value => (item, view value)))

/-- A run from the beginning to the end of a collection is about the rows that are listed and
pass. There are no more of them than touches, and as many when no touch leaves its item due. -/
theorem touched_enumerates (held : I → Option B) (final : Scan I B P) (touches : List (Touch I B P))
    (run : Run position listed passes (opening held) touches final)
    (drained : final.queue = []) (ended : final.more = false) (wanted : R → Bool)
    (wants : ∀ value, wanted (view value) = (listed value && passes value)) :
    Enumerates (seen view held) wanted (touchedRows view held touches) ∧
      (touchedRows view held touches).length ≤ touches.length ∧
      ((∀ made ∈ touches, leavesDue position listed passes made = false) →
        (touchedRows view held touches).length = touches.length) := by
  have idle : Waiting position (opening held) := opening_waiting position held
  have due : ∀ item, item ∈ (touches.map Touch.item).dedup ↔
      ∃ value, held item = some value ∧ listed value = true ∧ passes value = true := by
    intro item
    rw [List.mem_dedup, touched_iff_due position listed passes _ final touches run idle drained
      ended, opening_due]
  have keys : (touchedRows view held touches).map Prod.fst = (touches.map Touch.item).dedup := by
    rw [touchedRows, List.map_filterMap]
    refine Eq.trans (List.filterMap_congr ?_) List.filterMap_some
    intro item member
    obtain ⟨value, kept, -⟩ := (due item).mp member
    simp [kept]
  have size : (touchedRows view held touches).length = (touches.map Touch.item).dedup.length := by
    rw [← keys, List.length_map]
  refine ⟨⟨by rw [keys]; exact List.nodup_dedup _, ?_⟩, ?_, ?_⟩
  · intro item row
    simp only [touchedRows, List.mem_filterMap, Option.map_eq_some_iff, Prod.mk.injEq, seen]
    constructor
    · rintro ⟨other, member, value, kept, rfl, rfl⟩
      obtain ⟨twin, same, within, passed⟩ := (due other).mp member
      obtain rfl := Option.some.inj (kept.symm.trans same)
      exact ⟨⟨value, kept, rfl⟩, by rw [wants, within, passed]; rfl⟩
    · rintro ⟨⟨value, kept, rfl⟩, chosen⟩
      rw [wants, Bool.and_eq_true] at chosen
      exact ⟨item, (due item).mpr ⟨value, kept, chosen.1, chosen.2⟩, value, kept, rfl, rfl⟩
  · rw [size]
    have shorter := (List.dedup_sublist (touches.map Touch.item)).length_le
    simpa using shorter
  · intro settled
    have once : (touches.map Touch.item).Nodup := by
      rw [List.nodup_iff_count_le_one]
      intro item
      have counted : (touches.map Touch.item).count item = touchCount touches item := by
        simp [touchCount, List.count, List.countP_map, Function.comp_def]
        rfl
      rw [counted]
      obtain ⟨absent, present⟩ := touches_counted position listed passes _ final touches run idle
        drained ended item
      by_cases isDue : Due position listed passes (opening held) item
      · have nothing : dueCount position listed passes touches item = 0 := by
          rw [dueCount, List.countP_eq_zero]
          intro made member
          simp [settled made member]
        rw [present isDue, nothing]
      · rw [absent isDue]
        exact Nat.zero_le 1
    rw [size, once.dedup, List.length_map]

/-- A run from the beginning to the end of a collection is an UPDATE of what is seen of it. -/
theorem run_updates (held : I → Option B) (final : Scan I B P) (touches : List (Touch I B P))
    (run : Run position listed passes (opening held) touches final)
    (drained : final.queue = []) (ended : final.more = false)
    (changes : ∀ made ∈ touches, view made.after = change (view made.before))
    (settled : ∀ made ∈ touches, passes made.after = true →
      change (view made.after) = view made.after) (wanted : R → Bool)
    (wants : ∀ value, wanted (view value) = (listed value && passes value)) :
    seen view final.held = (Command.update wanted change).leaves (seen view held) := by
  funext item
  obtain ⟨changed, left⟩ := run_changes position listed passes view change _ final touches run
    (opening_waiting position held) drained ended changes settled item
  rw [opening_due] at changed left
  simp only [seen, Command.leaves]
  cases found : held item with
  | none =>
    rw [left (fun due => by rw [found] at due; obtain ⟨value, kept, -⟩ := due; cases kept)]
    simp [opening, found]
  | some value =>
    simp only [Option.map_some, wants]
    by_cases chosen : listed value = true ∧ passes value = true
    · rw [changed ⟨value, found, chosen⟩]
      simp [opening, found, chosen]
    · have spared : (listed value && passes value) = false := by simpa using chosen
      rw [left (fun due => by
        obtain ⟨other, kept, within⟩ := due
        obtain rfl := Option.some.inj (found.symm.trans kept)
        exact chosen within), spared]
      simp [opening, found]

end GoogleCalendar.Library.CursorScan

namespace GoogleCalendar.Library.SharedScan

open CursorScan KeyedTable

universe u v w x
variable {I : Type u} {B : Type v} {P : Type w} {R : Type x} [LinearOrder P] [DecidableEq I]

variable (position : I → B → P) (listed passes : B → Bool) (view : B → R) (wanted : R → Bool)
  (wants : ∀ value, wanted (view value) = (listed value && passes value)) (held : I → Option B)
  (final : Scan I B P) (handled : List (Handled I B))
  (run : Run position listed passes (fun _ => True) (opening held) handled final)
  (drained : final.queue = []) (ended : final.more = false)

include wants run drained ended

/-- A run to the end, with nobody else at work, handles the rows that are listed and pass. -/
theorem handled_enumerates : Enumerates (seen view held) wanted
    (handled.map (fun made => (made.item, view made.value))) := by
  have stands := fun item => owned_handled position listed passes (fun _ => True) held final handled
    run item trivial
  constructor
  · rw [List.map_map, List.nodup_iff_count_le_one]
    intro item
    have counted := count_handled handled item
    change (handled.map Handled.item).count item ≤ 1
    rw [counted]
    rcases stands item with ⟨unseen, -⟩ | ⟨value, removed, -, -, -, once, -⟩
    · simp [unseen]
    · simp [once]
  · intro item row
    simp only [List.mem_map, Prod.mk.injEq, seen, Option.map_eq_some_iff]
    constructor
    · rintro ⟨made, member, rfl, rfl⟩
      have inside : made ∈ timesOf handled made.item :=
        List.mem_filter.mpr ⟨member, decide_eq_true rfl⟩
      rcases stands made.item with ⟨unseen, -⟩ | ⟨value, removed, kept, within, passed, once, -⟩
      · simp [unseen] at inside
      · rw [once, List.mem_singleton] at inside
        have same : made.value = value := congrArg Handled.value inside
        rw [same, wants, within, passed]
        exact ⟨⟨value, kept, rfl⟩, rfl⟩
    · rintro ⟨⟨value, kept, rfl⟩, chosen⟩
      rw [wants, Bool.and_eq_true] at chosen
      rcases stands item with ⟨-, -, complete⟩ | ⟨other, removed, same, -, -, once, -⟩
      · exact absurd chosen (complete drained ended value kept)
      · obtain rfl := Option.some.inj (kept.symm.trans same)
        have inside : (⟨item, value, removed⟩ : Handled I B) ∈ timesOf handled item := by
          simp [once]
        exact ⟨_, (List.mem_filter.mp inside).1, rfl, rfl⟩

/-- When all of them are removed, the run is a DELETE of what is seen. -/
theorem handled_deleted (removed : ∀ made ∈ handled, made.removed = true) :
    seen view final.held = (Command.delete wanted).leaves (seen view held) := by
  have stands := fun item => owned_handled position listed passes (fun _ => True) held final handled
    run item trivial
  apply seen_deleted
  · intro item value kept chosen
    rw [wants, Bool.and_eq_true] at chosen
    rcases stands item with ⟨-, -, complete⟩ | ⟨other, gone, -, -, -, once, left⟩
    · exact absurd chosen (complete drained ended value kept)
    · have inside : (⟨item, other, gone⟩ : Handled I B) ∈ timesOf handled item := by simp [once]
      have isGone : gone = true := removed _ (List.mem_filter.mp inside).1
      rw [left, isGone, if_pos rfl]
  · intro item spared
    rcases stands item with ⟨-, same, -⟩ | ⟨other, gone, kept, within, passed, -⟩
    · exact same
    · have chosen := spared other kept
      rw [wants, within, passed] at chosen
      cases chosen

omit wants drained ended in
/-- What is handled was held at first. -/
theorem handled_held (made : Handled I B) (member : made ∈ handled) :
    held made.item = some made.value := by
  have inside : made ∈ timesOf handled made.item :=
    List.mem_filter.mpr ⟨member, decide_eq_true rfl⟩
  rcases owned_handled position listed passes (fun _ => True) held final handled run made.item
    trivial with ⟨unseen, -⟩ | ⟨value, removed, kept, -, -, once, -⟩
  · simp [unseen] at inside
  · rw [once, List.mem_singleton] at inside
    rw [kept, congrArg Handled.value inside]

omit wants drained ended in
/-- When none is removed, the run leaves the collection. -/
theorem handled_left (left : ∀ made ∈ handled, made.removed = false) : final.held = held := by
  funext item
  rcases owned_handled position listed passes (fun _ => True) held final handled run item trivial
    with ⟨-, same, -⟩ | ⟨other, gone, kept, -, -, once, after⟩
  · exact same
  · have inside : (⟨item, other, gone⟩ : Handled I B) ∈ timesOf handled item := by simp [once]
    have stays : gone = false := left _ (List.mem_filter.mp inside).1
    rw [after, stays, kept]
    rfl

end GoogleCalendar.Library.SharedScan
