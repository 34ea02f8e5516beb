import Mathlib.Order.WithBot
import Mathlib.Data.List.Sort
import Mathlib.Data.List.Nodup
import Mathlib.Logic.Function.Basic
import Mathlib.Algebra.Order.BigOperators.Group.Finset
import Mathlib.Algebra.Order.Group.Nat

/-!
# A cursor through a collection that changes

The items of a collection are listed page by page in the order of their
positions; the next page begins after the last position listed. What was listed
waits in a queue. An item that passes when its turn comes is touched: it gets a
new value in the collection and with it perhaps another position.

An item is due while it passes and either waits in the queue or lies after the
cursor with pages to come. A touch needs an item that is due and leaves it due
only when its new value passes and lies after the cursor; nothing else changes
what is due. So the touches of an item can be counted: one when it is due at
first, and one for each touch that leaves it due.

A run ends when only finitely many touches put their items ahead of the cursor
again. Give every item a height that falls whenever a touch does so: the heights of
the items that wait or lie ahead then bound the work that is left.
-/

namespace GoogleCalendar.Library.CursorScan

universe u v w
variable {I : Type u} {B : Type v} {P : Type w} [LinearOrder P]

variable (position : I → B → P) (listed passes : B → Bool)

/-- Whether an item is held with a value that is listed after a cursor. -/
def Ahead (held : I → Option B) (cursor : WithBot P) (item : I) (value : B) : Prop :=
  held item = some value ∧ listed value = true ∧ cursor < position item value

/-- A page: in order, the first of the items that lie ahead, and all of them when
no more pages are to come. -/
structure Page (held : I → Option B) (cursor : WithBot P) (page : List (I × B)) (more : Bool) :
    Prop where
  ahead : ∀ entry ∈ page, Ahead position listed held cursor entry.1 entry.2
  ordered : page.Pairwise (fun left right => position left.1 left.2 < position right.1 right.2)
  complete : ∀ item value, Ahead position listed held cursor item value → (item, value) ∈ page ∨
    (more = true ∧ ∀ entry ∈ page, position entry.1 entry.2 < position item value)

/-- The cursor after a page: its last position, if it has one. -/
def cursorAfter (cursor : WithBot P) (page : List (I × B)) : WithBot P :=
  match page.getLast? with
  | some entry => position entry.1 entry.2
  | none => cursor

/-- The cursor moves on, to or past every entry of the page. -/
theorem cursor_after_page (held : I → Option B) (cursor : WithBot P) (page : List (I × B))
    (more : Bool) (isPage : Page position listed held cursor page more) :
    cursor ≤ cursorAfter position cursor page ∧
      ∀ entry ∈ page, position entry.1 entry.2 ≤ cursorAfter position cursor page := by
  rcases List.eq_nil_or_concat page with rfl | ⟨front, last, whole⟩
  · simp [cursorAfter]
  · rw [List.concat_eq_append] at whole
    subst whole
    have final : cursorAfter position cursor (front ++ [last]) = position last.1 last.2 := by
      simp [cursorAfter]
    rw [final]
    refine ⟨(isPage.ahead last (by simp)).2.2.le, ?_⟩
    intro entry member
    cases List.mem_append.mp member with
    | inl early =>
      have below := (List.pairwise_append.mp isPage.ordered).2.2 entry early last (by simp)
      exact WithBot.coe_le_coe.mpr below.le
    | inr here => rw [List.mem_singleton.mp here]

/-- Entries of a page with one item would have one position. -/
theorem page_distinct (held : I → Option B) (cursor : WithBot P) (page : List (I × B))
    (more : Bool) (isPage : Page position listed held cursor page more) :
    (page.map Prod.fst).Nodup := by
  refine List.pairwise_map.mpr (isPage.ordered.imp_of_mem ?_)
  intro left right leftIn rightIn below same
  have one : left.2 = right.2 := by
    have kept := (isPage.ahead left leftIn).1
    rw [same, (isPage.ahead right rightIn).1] at kept
    exact (Option.some.inj kept).symm
  rw [same, one] at below
  exact lt_irrefl _ below

/-! Pages of any size from a finite collection. -/

/-- The entries that lie ahead, in order. -/
def aheadOf (entries : List (I × B)) (cursor : WithBot P) : List (I × B) :=
  (entries.filter (fun entry =>
    listed entry.2 && decide (cursor < position entry.1 entry.2))).insertionSort
    (fun left right => position left.1 left.2 ≤ position right.1 right.2)

/-- What is ahead of a cursor are the listed entries of later positions. -/
theorem mem_ahead_of (entries : List (I × B)) (cursor : WithBot P) (entry : I × B) :
    entry ∈ aheadOf position listed entries cursor ↔
      entry ∈ entries ∧ listed entry.2 = true ∧ cursor < position entry.1 entry.2 := by
  simp [aheadOf, List.mem_insertionSort]

/-- Entries of distinct items have distinct positions, so their order is strict. -/
theorem ahead_of_ordered (entries : List (I × B)) (cursor : WithBot P)
    (distinct : (entries.map Prod.fst).Nodup)
    (separates : ∀ item other value twin, position item value = position other twin →
      item = other) :
    (aheadOf position listed entries cursor).Pairwise
      (fun left right => position left.1 left.2 < position right.1 right.2) := by
  have sorted := List.pairwise_insertionSort
    (fun left right : I × B => position left.1 left.2 ≤ position right.1 right.2)
    (entries.filter (fun entry => listed entry.2 && decide (cursor < position entry.1 entry.2)))
  have apart : (aheadOf position listed entries cursor).Pairwise
      (fun left right => left.1 ≠ right.1) := by
    refine List.Pairwise.perm (List.Pairwise.filter _ (List.pairwise_map.mp distinct))
      (List.perm_insertionSort _ _).symm ?_
    exact fun unlike same => unlike same.symm
  apply (sorted.and apart).imp
  rintro left right ⟨below, unlike⟩
  exact lt_of_le_of_ne below (fun same => unlike (separates _ _ _ _ same))

/-- The first entries ahead are a page, and more are to come when some are left. -/
theorem page_of_entries (entries : List (I × B)) (held : I → Option B) (cursor : WithBot P)
    (size : Nat) (distinct : (entries.map Prod.fst).Nodup)
    (holds : ∀ entry, entry ∈ entries ↔ held entry.1 = some entry.2)
    (separates : ∀ item other value twin, position item value = position other twin →
      item = other) :
    let ahead := aheadOf position listed entries cursor
    Page position listed held cursor (ahead.take size) (size < ahead.length) := by
  intro ahead
  have ordered : ahead.Pairwise
      (fun left right => position left.1 left.2 < position right.1 right.2) :=
    ahead_of_ordered position listed entries cursor distinct separates
  refine ⟨?_, ordered.sublist (List.take_sublist size ahead), ?_⟩
  · intro entry member
    obtain ⟨listedIn, within, front⟩ := (mem_ahead_of position listed entries cursor entry).mp
      (List.mem_of_mem_take member)
    exact ⟨(holds entry).mp listedIn, within, front⟩
  · rintro item value ⟨kept, within, front⟩
    have member : (item, value) ∈ ahead := (mem_ahead_of position listed entries cursor _).mpr
      ⟨(holds (item, value)).mpr kept, within, front⟩
    rw [← List.take_append_drop size ahead] at member ordered
    cases List.mem_append.mp member with
    | inl here => exact Or.inl here
    | inr later =>
      refine Or.inr ⟨?_, ?_⟩
      · have left : size < ahead.length := by
          by_contra short
          rw [List.drop_eq_nil_of_le (by omega)] at later
          simp at later
        exact decide_eq_true left
      · exact fun entry first => (List.pairwise_append.mp ordered).2.2 entry first _ later

/-! The cursor at work. -/

/-- The collection, the last position listed, whether pages are to come, and the
listed items that wait. -/
structure Scan (I : Type u) (B : Type v) (P : Type w) where
  held : I → Option B
  cursor : WithBot P
  more : Bool
  queue : List (I × B)

/-- A touch: the item with its values before and after, and the cursor then. -/
structure Touch (I : Type u) (B : Type v) (P : Type w) where
  item : I
  before : B
  after : B
  cursor : WithBot P
  more : Bool

/-- The items that wait are distinct, as they are in the collection, and not
after the cursor. -/
structure Waiting (scan : Scan I B P) : Prop where
  distinct : (scan.queue.map Prod.fst).Nodup
  current : ∀ entry ∈ scan.queue, scan.held entry.1 = some entry.2 ∧
    position entry.1 entry.2 ≤ scan.cursor

/-- An item passes, and waits or lies among the pages to come. -/
def Due (scan : Scan I B P) (item : I) : Prop :=
  ∃ value, scan.held item = some value ∧ passes value = true ∧
    ((item, value) ∈ scan.queue ∨
      (scan.more = true ∧ listed value = true ∧ scan.cursor < position item value))

/-- Whether a touch leaves its item due. -/
def leavesDue (touch : Touch I B P) : Bool :=
  touch.more && listed touch.after && passes touch.after &&
    decide (touch.cursor < position touch.item touch.after)

/-- A collection before its first page. -/
def opening (held : I → Option B) : Scan I B P := ⟨held, ⊥, true, []⟩

/-- A scan that opens waits for nothing. -/
theorem opening_waiting (held : I → Option B) : Waiting position (opening held) :=
  ⟨List.nodup_nil, fun _ member => absurd member List.not_mem_nil⟩

/-- At first every listed item that passes is due. -/
theorem opening_due (held : I → Option B) (item : I) :
    Due position listed passes (opening held) item ↔
      ∃ value, held item = some value ∧ listed value = true ∧ passes value = true := by
  simp only [Due, opening, List.not_mem_nil, false_or, true_and, WithBot.bot_lt_coe, and_true]
  exact exists_congr (fun value => and_congr_right (fun _ => and_comm))

variable [DecidableEq I]

/-- One step, with the touch it makes. -/
inductive Step : Scan I B P → Option (Touch I B P) → Scan I B P → Prop where
  | fetch (scan : Scan I B P) (page : List (I × B)) (more : Bool) (pending : scan.more = true)
      (isPage : Page position listed scan.held scan.cursor page more) :
      Step scan none { scan with queue := scan.queue ++ page, more := more,
                                 cursor := cursorAfter position scan.cursor page }
  | skip (scan : Scan I B P) (item : I) (value : B) (rest : List (I × B))
      (next : scan.queue = (item, value) :: rest) (fails : passes value = false) :
      Step scan none { scan with queue := rest }
  | touch (scan : Scan I B P) (item : I) (value after : B) (rest : List (I × B))
      (next : scan.queue = (item, value) :: rest) (passed : passes value = true) :
      Step scan (some ⟨item, value, after, scan.cursor, scan.more⟩)
        { scan with queue := rest, held := Function.update scan.held item (some after) }

/-- Steps in sequence, with the touches they make. -/
inductive Run : Scan I B P → List (Touch I B P) → Scan I B P → Prop where
  | done (scan : Scan I B P) : Run scan [] scan
  | step (scan next final : Scan I B P) (touch : Option (Touch I B P))
      (touches : List (Touch I B P)) (first : Step position listed passes scan touch next)
      (rest : Run next touches final) : Run scan (touch.toList ++ touches) final

/-- A run goes on where another stops. -/
theorem run_trans (scan between final : Scan I B P) (early late : List (Touch I B P))
    (first : Run position listed passes scan early between)
    (second : Run position listed passes between late final) :
    Run position listed passes scan (early ++ late) final := by
  induction first with
  | done => exact second
  | step scan next _ touch touches step _ ih =>
    rw [List.append_assoc]
    exact .step scan next final touch (touches ++ late) step (ih second)

/-- After a step the items that wait are still behind the cursor, as they are held. -/
theorem step_waiting (scan next : Scan I B P) (touch : Option (Touch I B P))
    (step : Step position listed passes scan touch next) (waiting : Waiting position scan) :
    Waiting position next := by
  cases step with
  | fetch page more pending isPage =>
    obtain ⟨onward, reached⟩ := cursor_after_page position listed scan.held scan.cursor page more
      isPage
    have distinct := page_distinct position listed scan.held scan.cursor page more isPage
    constructor
    · rw [List.map_append]
      refine List.nodup_append.mpr ⟨waiting.distinct, distinct, ?_⟩
      intro item waits other comes same
      obtain ⟨old, oldIn, rfl⟩ := List.mem_map.mp waits
      obtain ⟨new, newIn, rfl⟩ := List.mem_map.mp comes
      obtain ⟨oldHeld, behind⟩ := waiting.current old oldIn
      obtain ⟨newHeld, -, front⟩ := isPage.ahead new newIn
      have one : old.2 = new.2 := by
        rw [same, newHeld] at oldHeld
        exact (Option.some.inj oldHeld).symm
      rw [same, one] at behind
      exact absurd (lt_of_lt_of_le front behind) (lt_irrefl _)
    · intro entry member
      cases List.mem_append.mp member with
      | inl waits =>
        exact ⟨(waiting.current entry waits).1, (waiting.current entry waits).2.trans onward⟩
      | inr comes => exact ⟨(isPage.ahead entry comes).1, reached entry comes⟩
  | skip item value rest next fails =>
    have whole := waiting.distinct
    rw [next] at whole
    exact ⟨(List.nodup_cons.mp whole).2, fun entry member =>
      waiting.current entry (by simp [next, member])⟩
  | touch item value after rest next passed =>
    have whole := waiting.distinct
    rw [next] at whole
    obtain ⟨absent, others⟩ := List.nodup_cons.mp whole
    refine ⟨others, ?_⟩
    intro entry member
    have apart : entry.1 ≠ item := fun same =>
      absent (List.mem_map.mpr ⟨entry, member, same⟩)
    simp only [Function.update_of_ne apart]
    exact waiting.current entry (by simp [next, member])

/-- A step that does not touch an item leaves open whether it is due. -/
theorem step_due_other (scan next : Scan I B P) (touch : Option (Touch I B P))
    (step : Step position listed passes scan touch next) (item : I)
    (untouched : ∀ made ∈ touch, made.item ≠ item) :
    Due position listed passes next item ↔ Due position listed passes scan item := by
  cases step with
  | fetch page more pending isPage =>
    obtain ⟨onward, reached⟩ := cursor_after_page position listed scan.held scan.cursor page more
      isPage
    obtain ⟨ahead, ordered, complete⟩ := isPage
    refine exists_congr (fun value =>
      and_congr_right (fun held => and_congr_right (fun passed => ?_)))
    constructor
    · rintro (waits | ⟨-, within, front⟩)
      · cases List.mem_append.mp waits with
        | inl old => exact Or.inl old
        | inr new => exact Or.inr ⟨pending, (ahead _ new).2⟩
      · exact Or.inr ⟨pending, within, lt_of_le_of_lt onward front⟩
    · rintro (waits | ⟨-, within, front⟩)
      · exact Or.inl (List.mem_append_left page waits)
      · rcases complete item value ⟨held, within, front⟩ with here | ⟨later, after⟩
        · exact Or.inl (List.mem_append_right scan.queue here)
        · refine Or.inr ⟨later, within, ?_⟩
          simp only [cursorAfter]
          split
          · rename_i last ends
            exact WithBot.coe_lt_coe.mpr (after last (List.mem_of_getLast? ends))
          · exact front
  | skip other value rest next fails =>
    refine exists_congr (fun held => and_congr_right (fun _ => and_congr_right (fun passed => ?_)))
    apply or_congr_left
    simp only [next, List.mem_cons, Prod.mk.injEq]
    constructor
    · exact Or.inr
    · rintro (⟨-, rfl⟩ | later)
      · simp [fails] at passed
      · exact later
  | touch other value after rest next passed =>
    have apart : item ≠ other := fun same => untouched _ rfl same.symm
    simp only [Due, Function.update_of_ne apart, next, List.mem_cons, Prod.mk.injEq, apart,
      false_and, false_or]

/-- A touched item was due, and is due again just when its touch leaves it so. -/
theorem step_due_touched (scan next : Scan I B P) (made : Touch I B P)
    (step : Step position listed passes scan (some made) next) (waiting : Waiting position scan) :
    Due position listed passes scan made.item ∧
      (Due position listed passes next made.item ↔
        leavesDue position listed passes made = true) := by
  cases step with
  | touch item value after rest next passed =>
    have first : (item, value) ∈ scan.queue := by simp [next]
    have whole := waiting.distinct
    rw [next] at whole
    have gone : ∀ other, (item, other) ∉ rest := fun other member =>
      (List.nodup_cons.mp whole).1 (List.mem_map.mpr ⟨_, member, rfl⟩)
    refine ⟨⟨value, (waiting.current _ first).1, passed, Or.inl first⟩, ?_⟩
    simp only [Due, leavesDue, Function.update_self, Option.some.injEq, gone, false_or,
      Bool.and_eq_true, decide_eq_true_eq]
    constructor
    · rintro ⟨_, rfl, again, more, within, front⟩
      exact ⟨⟨⟨more, within⟩, again⟩, front⟩
    · rintro ⟨⟨⟨more, within⟩, again⟩, front⟩
      exact ⟨after, rfl, again, more, within, front⟩

/-- How often a run touches an item, and how often it leaves it due. -/
def touchCount (touches : List (Touch I B P)) (item : I) : Nat :=
  touches.countP (fun made => decide (made.item = item))

def dueCount (touches : List (Touch I B P)) (item : I) : Nat :=
  touches.countP (fun made => decide (made.item = item) && leavesDue position listed passes made)

/-- In a run to the end an item that is not due is never touched, and one that is
due is touched once, and once more for each touch that leaves it due.

Induct on the run: a step that touches another item, or none, changes nothing; a
touch of the item spends what was due and may make it due again. -/
theorem touches_counted (scan final : Scan I B P) (touches : List (Touch I B P))
    (run : Run position listed passes scan touches final) (waiting : Waiting position scan)
    (drained : final.queue = []) (ended : final.more = false) (item : I) :
    (¬ Due position listed passes scan item → touchCount touches item = 0) ∧
    (Due position listed passes scan item →
      touchCount touches item = 1 + dueCount position listed passes touches item) := by
  induction run with
  | done scan =>
    have nothing : ¬ Due position listed passes scan item := by
      rintro ⟨value, -, -, waits | ⟨more, -⟩⟩
      · simp [drained] at waits
      · simp [ended] at more
    exact ⟨fun _ => rfl, fun due => absurd due nothing⟩
  | step scan next final touch touches step rest ih =>
    obtain ⟨absent, present⟩ :=
      ih (step_waiting position listed passes scan next touch step waiting)
      drained ended
    cases touch with
    | none =>
      have same := step_due_other position listed passes scan next none step item (by simp)
      rw [← same]
      exact ⟨absent, present⟩
    | some made =>
      by_cases here : made.item = item
      · subst here
        obtain ⟨due, again⟩ := step_due_touched position listed passes scan next made step waiting
        refine ⟨fun undue => absurd due undue, fun _ => ?_⟩
        simp only [touchCount, dueCount, Option.toList_some, List.singleton_append,
          List.countP_cons, decide_true, if_true, Bool.true_and] at absent present ⊢
        by_cases left : leavesDue position listed passes made = true
        · have counted := present (again.mpr left)
          simp only [left, if_true]
          omega
        · have counted := absent (fun due => left (again.mp due))
          have none_left : touches.countP (fun other => decide (other.item = made.item) &&
              leavesDue position listed passes other) = 0 := by
            refine Nat.eq_zero_of_le_zero (counted ▸ List.countP_mono_left ?_)
            intro other _ both
            exact (Bool.and_eq_true _ _ ▸ both).1
          simp only [left, none_left, counted]
          simp
      · have same := step_due_other position listed passes scan next (some made) step item
          (by simpa using here)
        rw [← same]
        simpa [touchCount, dueCount, here] using And.intro absent present

/-- Every touched item was at or before the cursor. -/
theorem touched_behind (scan final : Scan I B P) (touches : List (Touch I B P))
    (run : Run position listed passes scan touches final) (waiting : Waiting position scan) :
    ∀ made ∈ touches, position made.item made.before ≤ made.cursor := by
  induction run with
  | done => simp
  | step scan next final touch touches step rest ih =>
    intro made member
    cases List.mem_append.mp member with
    | inl here =>
      cases step with
      | fetch => simp at here
      | skip => simp at here
      | touch item value after rest next passed =>
        obtain rfl := by simpa using here
        exact (waiting.current (item, value) (by simp [next])).2
    | inr later =>
      exact ih (step_waiting position listed passes scan next touch step waiting) made later

/-- Touches that leave positions as they are leave nothing due. -/
theorem none_due_of_kept (scan final : Scan I B P) (touches : List (Touch I B P))
    (run : Run position listed passes scan touches final) (waiting : Waiting position scan)
    (kept : ∀ made ∈ touches, position made.item made.after = position made.item made.before) :
    ∀ made ∈ touches, leavesDue position listed passes made = false := by
  intro made member
  have behind := touched_behind position listed passes scan final touches run waiting made member
  rw [← kept made member] at behind
  simp [leavesDue, not_lt.mpr behind]

/-! ## How much work is left -/

variable (height : I → B → Nat)

/-- What an item adds to the work that is left: nothing unless it waits or lies ahead of the
cursor, and then its height and one. -/
def itemWork (scan : Scan I B P) (item : I) : Nat :=
  match scan.held item with
  | none => 0
  | some value =>
      if item ∈ scan.queue.map Prod.fst ∨ (listed value = true ∧ scan.cursor < position item value)
      then height item value + 1
      else 0

/-- The work that is left of a collection whose items are among the given ones. -/
def work (items : Finset I) (scan : Scan I B P) : Nat :=
  ∑ item ∈ items, itemWork position listed height scan item

/-- The items that a collection holds are among the given ones. -/
def Supports (items : Finset I) (scan : Scan I B P) : Prop :=
  ∀ item value, scan.held item = some value → item ∈ items

/-- A touch that puts its item ahead again lowers its height. -/
def Falls (made : Touch I B P) : Prop :=
  listed made.after = true → position made.item made.before < position made.item made.after →
    height made.item made.after < height made.item made.before

/-- Steps neither add items to a collection nor take any away. -/
theorem step_supports (items : Finset I) (scan next : Scan I B P) (touch : Option (Touch I B P))
    (step : Step position listed passes scan touch next) (waiting : Waiting position scan)
    (supports : Supports items scan) : Supports items next := by
  cases step with
  | fetch page more pending isPage => exact supports
  | skip item value rest next fails => exact supports
  | touch item value after rest next passed =>
    intro other held kept
    by_cases same : other = item
    · subst same
      exact supports other value (waiting.current (other, value) (by simp [next])).1
    · exact supports other held ((Function.update_of_ne same _ _).symm.trans kept)

/-- A fetch adds no work: what it lists lay ahead before. -/
theorem fetch_work (items : Finset I) (scan : Scan I B P) (page : List (I × B)) (more : Bool)
    (isPage : Page position listed scan.held scan.cursor page more) :
    work position listed height items { scan with
      queue := scan.queue ++ page, more := more,
      cursor := cursorAfter position scan.cursor page } ≤
      work position listed height items scan := by
  obtain ⟨onward, -⟩ := cursor_after_page position listed scan.held scan.cursor page more isPage
  refine Finset.sum_le_sum (fun item _ => ?_)
  simp only [itemWork]
  cases held : scan.held item with
  | none => exact le_refl _
  | some value =>
    simp only
    split
    · rename_i pending
      have before : item ∈ scan.queue.map Prod.fst ∨
          (listed value = true ∧ scan.cursor < position item value) := by
        rcases pending with waits | ⟨within, front⟩
        · rw [List.map_append] at waits
          rcases List.mem_append.mp waits with old | new
          · exact .inl old
          · obtain ⟨⟨item, other⟩, entry, rfl⟩ := List.mem_map.mp new
            obtain ⟨kept, within, front⟩ := isPage.ahead _ entry
            obtain rfl := Option.some.inj (held.symm.trans kept)
            exact .inr ⟨within, front⟩
        · exact .inr ⟨within, lt_of_le_of_lt onward front⟩
      rw [if_pos before]
    · exact Nat.zero_le _

/-- Taking an item from the queue takes work away, when what is done to the item lowers its own
and leaves all others. -/
theorem taken_work (items : Finset I) (scan : Scan I B P) (item : I) (value : B)
    (rest : List (I × B)) (held : I → Option B) (next : scan.queue = (item, value) :: rest)
    (member : item ∈ items) (others : ∀ other, other ≠ item → held other = scan.held other)
    (lower : itemWork position listed height { scan with queue := rest, held := held } item <
      itemWork position listed height scan item) :
    work position listed height items { scan with queue := rest, held := held } <
      work position listed height items scan := by
  refine Finset.sum_lt_sum (fun other _ => ?_) ⟨item, member, lower⟩
  by_cases same : other = item
  · exact same ▸ lower.le
  · simp only [itemWork, others other same]
    cases kept : scan.held other with
    | none => exact le_refl _
    | some current =>
      simp only
      split
      · rename_i pending
        have before : other ∈ scan.queue.map Prod.fst ∨
            (listed current = true ∧ scan.cursor < position other current) := by
          rcases pending with waits | ahead
          · exact .inl (by rw [next, List.map_cons]; exact List.mem_cons_of_mem item waits)
          · exact .inr ahead
        rw [if_pos before]
      · exact Nat.zero_le _

/-- An item that waits for its turn is work. -/
theorem waiting_work (scan : Scan I B P) (item : I) (value : B) (rest : List (I × B))
    (next : scan.queue = (item, value) :: rest) (waiting : Waiting position scan) :
    itemWork position listed height scan item = height item value + 1 := by
  have held := (waiting.current (item, value) (by simp [next])).1
  simp [itemWork, held, next]

/-- A skip takes work away. -/
theorem skip_work (items : Finset I) (scan : Scan I B P) (item : I) (value : B)
    (rest : List (I × B)) (next : scan.queue = (item, value) :: rest)
    (waiting : Waiting position scan) (supports : Supports items scan) :
    work position listed height items { scan with queue := rest } <
      work position listed height items scan := by
  obtain ⟨held, behind⟩ := waiting.current (item, value) (by simp [next])
  have distinct := waiting.distinct
  rw [next, List.map_cons, List.nodup_cons] at distinct
  refine taken_work position listed height items scan item value rest scan.held next
    (supports item value held) (fun _ _ => rfl) ?_
  rw [waiting_work position listed height scan item value rest next waiting]
  have nothing : itemWork position listed height { scan with queue := rest } item = 0 := by
    simp [itemWork, held, distinct.1, not_lt.mpr behind]
  rw [nothing]
  exact Nat.succ_pos _

/-- A touch that lowers the height of what it puts ahead again takes work away. -/
theorem touch_work (items : Finset I) (scan : Scan I B P) (item : I) (value after : B)
    (rest : List (I × B)) (next : scan.queue = (item, value) :: rest)
    (waiting : Waiting position scan) (supports : Supports items scan)
    (falls : Falls position listed height ⟨item, value, after, scan.cursor, scan.more⟩) :
    work position listed height items
        { scan with queue := rest, held := Function.update scan.held item (some after) } <
      work position listed height items scan := by
  obtain ⟨held, behind⟩ := waiting.current (item, value) (by simp [next])
  have distinct := waiting.distinct
  rw [next, List.map_cons, List.nodup_cons] at distinct
  refine taken_work position listed height items scan item value rest _ next
    (supports item value held) (fun other apart => Function.update_of_ne apart _ _) ?_
  rw [waiting_work position listed height scan item value rest next waiting]
  simp only [itemWork, Function.update_self, distinct.1, false_or]
  split
  · rename_i ahead
    have raised : position item value < position item after :=
      WithBot.coe_lt_coe.mp (lt_of_le_of_lt behind ahead.2)
    exact Nat.succ_lt_succ (falls ahead.1 raised)
  · exact Nat.succ_pos _

/-- A step adds no work, when the touch that it makes falls. -/
theorem step_work (items : Finset I) (scan next : Scan I B P) (touch : Option (Touch I B P))
    (step : Step position listed passes scan touch next) (waiting : Waiting position scan)
    (supports : Supports items scan)
    (falls : ∀ made ∈ touch, Falls position listed height made) :
    work position listed height items next ≤ work position listed height items scan := by
  cases step with
  | fetch page more pending isPage =>
    exact fetch_work position listed height items scan page more isPage
  | skip item value rest next fails =>
    exact (skip_work position listed height items scan item value rest next waiting supports).le
  | touch item value after rest next passed =>
    exact (touch_work position listed height items scan item value after rest next waiting supports
      (falls _ rfl)).le

/-- Steps that each take an item from the queue, with their number and the touches they make. -/
inductive Serves : Nat → Scan I B P → List (Touch I B P) → Scan I B P → Prop where
  | done (scan : Scan I B P) : Serves 0 scan [] scan
  | step (scan next final : Scan I B P) (touch : Option (Touch I B P)) (number : Nat)
      (touches : List (Touch I B P)) (first : Step position listed passes scan touch next)
      (shorter : next.queue.length < scan.queue.length)
      (rest : Serves number next touches final) :
      Serves (number + 1) scan (touch.toList ++ touches) final

/-- Serving the queue is a run. -/
theorem serves_run (number : Nat) (scan final : Scan I B P) (touches : List (Touch I B P))
    (serves : Serves position listed passes number scan touches final) :
    Run position listed passes scan touches final := by
  induction serves with
  | done scan => exact .done scan
  | step scan next final touch number touches first _ _ ih =>
    exact .step scan next final touch touches first ih

/-- A step that takes an item from the queue takes work away. -/
theorem served_work (items : Finset I) (scan next : Scan I B P) (touch : Option (Touch I B P))
    (step : Step position listed passes scan touch next)
    (shorter : next.queue.length < scan.queue.length) (waiting : Waiting position scan)
    (supports : Supports items scan)
    (falls : ∀ made ∈ touch, Falls position listed height made) :
    work position listed height items next < work position listed height items scan := by
  cases step with
  | fetch page more pending isPage =>
    rw [List.length_append] at shorter
    exact absurd shorter (Nat.not_lt.mpr (Nat.le_add_right _ _))
  | skip item value rest next fails =>
    exact skip_work position listed height items scan item value rest next waiting supports
  | touch item value after rest next passed =>
    exact touch_work position listed height items scan item value after rest next waiting supports
      (falls _ rfl)

/-- Serving the queue takes work away with each of its steps. -/
theorem serves_work (items : Finset I) (number : Nat) (scan final : Scan I B P)
    (touches : List (Touch I B P))
    (serves : Serves position listed passes number scan touches final)
    (waiting : Waiting position scan) (supports : Supports items scan)
    (falls : ∀ made ∈ touches, Falls position listed height made) :
    work position listed height items final + number ≤ work position listed height items scan := by
  induction serves with
  | done scan => exact le_refl _
  | step scan next final touch number touches step shorter rest ih =>
    have first := served_work position listed passes height items scan next touch step shorter
      waiting supports
      (fun made member => falls made (List.mem_append_left _ (Option.mem_toList.mpr member)))
    have others := ih (step_waiting position listed passes scan next touch step waiting)
      (step_supports position listed passes items scan next touch step waiting supports)
      (fun made member => falls made (List.mem_append_right _ member))
    omega

/-- What a run leaves of the work, and of the conditions on it. -/
theorem run_work (items : Finset I) (scan final : Scan I B P) (touches : List (Touch I B P))
    (run : Run position listed passes scan touches final) (waiting : Waiting position scan)
    (supports : Supports items scan)
    (falls : ∀ made ∈ touches, Falls position listed height made) :
    work position listed height items final ≤ work position listed height items scan ∧
      Supports items final := by
  induction run with
  | done scan => exact ⟨le_refl _, supports⟩
  | step scan next final touch touches step rest ih =>
    have first := step_work position listed passes height items scan next touch step waiting
      supports
      (fun made member => falls made (List.mem_append_left _ (Option.mem_toList.mpr member)))
    obtain ⟨less, among⟩ := ih (step_waiting position listed passes scan next touch step waiting)
      (step_supports position listed passes items scan next touch step waiting supports)
      (fun made member => falls made (List.mem_append_right _ member))
    exact ⟨less.trans first, among⟩

end GoogleCalendar.Library.CursorScan
