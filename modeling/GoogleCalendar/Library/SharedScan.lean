import GoogleCalendar.Library.CursorScan

/-!
# A cursor through a collection that others change too

The pages of a collection are listed as before, but between any two steps others
may change it, except the items that are owned: those are left to the scan. An
item whose turn comes and that passes is handled, and handling removes it or
leaves it as it is.

An owned item stands in one of three ways: ahead of the cursor, waiting in the
queue, or over. It goes through them in this order, so that it is handled once
when it is listed and passes at first, and otherwise never, whatever others do.
Nothing is said of the number of times that other items are handled: others may
move them behind the cursor or in front of it. But the positions that are handled
increase, so that no item is seen twice at one position.
-/

namespace GoogleCalendar.Library.SharedScan

open CursorScan

universe u v w
variable {I : Type u} {B : Type v} {P : Type w} [LinearOrder P]

variable (position : I → B → P) (listed passes : B → Bool) (owned : I → Prop)

/-- Whether two states of a collection agree on the items that are owned. -/
def Agrees (held later : I → Option B) : Prop := ∀ item, owned item → later item = held item

/-- What is held agrees with itself. -/
theorem agrees_refl (held : I → Option B) : Agrees owned held held := fun _ _ => rfl

/-- Agreement carries over. -/
theorem agrees_trans (held between later : I → Option B) (first : Agrees owned held between)
    (second : Agrees owned between later) : Agrees owned held later :=
  fun item mine => (second item mine).trans (first item mine)

/-- A page from a cursor that an item is not after does not list it. -/
theorem page_without (scan : Scan I B P) (page : List (I × B)) (more : Bool)
    (isPage : Page position listed scan.held scan.cursor page more) (item : I)
    (hidden : ∀ value, scan.held item = some value →
      ¬ (listed value = true ∧ scan.cursor < position item value)) :
    item ∉ page.map Prod.fst := by
  intro member
  obtain ⟨entry, within, rfl⟩ := List.mem_map.mp member
  obtain ⟨kept, shown, front⟩ := isPage.ahead entry within
  exact hidden entry.2 kept ⟨shown, front⟩

/-- A handled item with the value it was listed with, and whether it was removed. -/
structure Handled (I : Type u) (B : Type v) where
  item : I
  value : B
  removed : Bool

/-- The item and the value it was handled with. -/
def Handled.entry (made : Handled I B) : I × B := (made.item, made.value)

variable [DecidableEq I]

/-- The steps of a scan: a page is read, or an item of it is passed or handled. -/
inductive Step : Scan I B P → Option (Handled I B) → Scan I B P → Prop where
  | elsewhere (scan : Scan I B P) (later : I → Option B) (agrees : Agrees owned scan.held later) :
      Step scan none { scan with held := later }
  | fetch (scan : Scan I B P) (page : List (I × B)) (more : Bool) (pending : scan.more = true)
      (isPage : Page position listed scan.held scan.cursor page more) :
      Step scan none { scan with queue := scan.queue ++ page, more := more,
                                 cursor := cursorAfter position scan.cursor page }
  | skip (scan : Scan I B P) (item : I) (value : B) (rest : List (I × B))
      (next : scan.queue = (item, value) :: rest) (fails : passes value = false) :
      Step scan none { scan with queue := rest }
  | handle (scan : Scan I B P) (item : I) (value : B) (removed : Bool) (rest : List (I × B))
      (next : scan.queue = (item, value) :: rest) (passed : passes value = true) :
      Step scan (some ⟨item, value, removed⟩)
        { scan with queue := rest,
                    held := if removed then Function.update scan.held item none else scan.held }

/-- Steps in sequence, with the items they handle. -/
inductive Run : Scan I B P → List (Handled I B) → Scan I B P → Prop where
  | done (scan : Scan I B P) : Run scan [] scan
  | step (scan next final : Scan I B P) (made : Option (Handled I B)) (handled : List (Handled I B))
      (first : Step position listed passes owned scan made next) (rest : Run next handled final) :
      Run scan (made.toList ++ handled) final

/-- A run goes on where another stops. -/
theorem run_trans (scan between final : Scan I B P) (early late : List (Handled I B))
    (first : Run position listed passes owned scan early between)
    (second : Run position listed passes owned between late final) :
    Run position listed passes owned scan (early ++ late) final := by
  induction first with
  | done => exact second
  | step scan next _ made handled step _ ih =>
    rw [List.append_assoc]
    exact .step scan next final made (handled ++ late) step (ih second)

/-- A step is a run. -/
theorem run_step (scan next : Scan I B P) (made : Option (Handled I B))
    (step : Step position listed passes owned scan made next) :
    Run position listed passes owned scan made.toList next := by
  simpa using Run.step scan next next made [] step (.done next)

/-! ## The order of what is handled -/

/-- What was handled and what waits, in the order of positions, none of it after the
cursor. -/
def InOrder (handled : List (Handled I B)) (scan : Scan I B P) : Prop :=
  let entries := handled.map Handled.entry ++ scan.queue
  entries.Pairwise (fun left right => position left.1 left.2 < position right.1 right.2) ∧
    ∀ entry ∈ entries, position entry.1 entry.2 ≤ scan.cursor

/-- A step handles items in their order. -/
theorem step_in_order (scan next : Scan I B P) (handled : List (Handled I B))
    (made : Option (Handled I B)) (step : Step position listed passes owned scan made next)
    (order : InOrder position handled scan) : InOrder position (handled ++ made.toList) next := by
  obtain ⟨increasing, behind⟩ := order
  cases step with
  | elsewhere later agrees =>
    simp only [Option.toList_none, List.append_nil]
    exact ⟨increasing, behind⟩
  | fetch page more pending isPage =>
    obtain ⟨onward, reached⟩ := cursor_after_page position listed scan.held scan.cursor page more
      isPage
    simp only [Option.toList_none, List.append_nil]
    constructor
    · rw [← List.append_assoc]
      refine List.pairwise_append.mpr ⟨increasing, isPage.ordered, ?_⟩
      intro old seen new fresh
      have ahead := (isPage.ahead new fresh).2.2
      exact WithBot.coe_lt_coe.mp (lt_of_le_of_lt (behind old seen) ahead)
    · intro entry member
      rw [← List.append_assoc] at member
      rcases List.mem_append.mp member with seen | fresh
      · exact (behind entry seen).trans onward
      · exact reached entry fresh
  | skip item value rest following fails =>
    have fewer : (handled.map Handled.entry ++ rest).Sublist
        (handled.map Handled.entry ++ scan.queue) := by
      rw [following]
      exact (List.sublist_cons_self _ rest).append_left _
    simp only [Option.toList_none, List.append_nil]
    exact ⟨increasing.sublist fewer, fun entry member => behind entry (fewer.subset member)⟩
  | handle item value removed rest following passed =>
    have same : (handled ++ [(⟨item, value, removed⟩ : Handled I B)]).map Handled.entry ++ rest =
        handled.map Handled.entry ++ scan.queue := by
      simp [following, Handled.entry]
    simp only [InOrder, Option.toList_some, same]
    exact ⟨increasing, behind⟩

/-- So does a run. -/
theorem run_in_order (scan final : Scan I B P) (earlier handled : List (Handled I B))
    (run : Run position listed passes owned scan handled final)
    (order : InOrder position earlier scan) : InOrder position (earlier ++ handled) final := by
  induction run generalizing earlier with
  | done => simpa using order
  | step scan next final made handled step _ ih =>
    rw [← List.append_assoc]
    exact ih _ (step_in_order position listed passes owned scan next earlier made step order)

/-- The positions that a scan handles increase strictly. -/
theorem handled_increase (held : I → Option B) (final : Scan I B P) (handled : List (Handled I B))
    (run : Run position listed passes owned (opening held) handled final) :
    handled.Pairwise (fun left right =>
      position left.item left.value < position right.item right.value) := by
  have order := run_in_order position listed passes owned _ final [] handled run
    (by simp [InOrder, opening])
  have whole := (List.pairwise_append.mp order.1).1
  rw [List.nil_append, List.pairwise_map] at whole
  exact whole

/-- What waits is in the order of positions and not after the cursor, and an owned item waits
with the value that it has. -/
structure Waiting (scan : Scan I B P) : Prop where
  ordered : scan.queue.Pairwise
    (fun left right => position left.1 left.2 < position right.1 right.2)
  behind : ∀ entry ∈ scan.queue, position entry.1 entry.2 ≤ scan.cursor
  current : ∀ entry ∈ scan.queue, owned entry.1 → scan.held entry.1 = some entry.2

omit [DecidableEq I] in
/-- A scan that opens waits for nothing. -/
theorem opening_waiting (held : I → Option B) : Waiting position owned (opening held) :=
  ⟨List.Pairwise.nil, by simp [opening], by simp [opening]⟩

/-- After a step the items that wait are still behind the cursor, as they are held. -/
theorem step_waiting (scan next : Scan I B P) (made : Option (Handled I B))
    (step : Step position listed passes owned scan made next)
    (waiting : Waiting position owned scan) : Waiting position owned next := by
  have inOrder : InOrder position [] scan := ⟨waiting.ordered, waiting.behind⟩
  have later := step_in_order position listed passes owned scan next [] made step inOrder
  have ordered := (List.pairwise_append.mp later.1).2.1
  refine ⟨ordered, fun entry member => later.2 entry (List.mem_append_right _ member), ?_⟩
  intro entry member mine
  cases step with
  | elsewhere other agrees => exact (agrees entry.1 mine).trans (waiting.current entry member mine)
  | fetch page more pending isPage =>
    rcases List.mem_append.mp member with old | new
    · exact waiting.current entry old mine
    · exact (isPage.ahead entry new).1
  | skip item value rest following fails =>
    exact waiting.current entry (by simp [following, member]) mine
  | handle item value removed rest following passed =>
    have kept := waiting.current entry (by simp [following, member]) mine
    have apart : entry.1 ≠ item := by
      rintro rfl
      have first := waiting.current (entry.1, value) (by simp [following]) mine
      have same : entry.2 = value := Option.some.inj (kept.symm.trans first)
      have order := waiting.ordered
      rw [following] at order
      have below := (List.pairwise_cons.mp order).1 entry member
      rw [← same] at below
      exact lt_irrefl _ below
    cases removed with
    | true => simpa [Function.update_of_ne apart] using kept
    | false => exact kept

/-- So does a run. -/
theorem run_waiting (scan final : Scan I B P) (handled : List (Handled I B))
    (run : Run position listed passes owned scan handled final)
    (waiting : Waiting position owned scan) : Waiting position owned final := by
  induction run with
  | done => exact waiting
  | step scan next final made handled step _ ih =>
    exact ih (step_waiting position listed passes owned scan next made step waiting)

/-! ## Owned items -/

/-- The times that an item was handled. -/
def timesOf (handled : List (Handled I B)) (item : I) : List (Handled I B) :=
  handled.filter (fun made => decide (made.item = item))

/-- An item is handled in one part and in the other. -/
theorem times_of_append (earlier later : List (Handled I B)) (item : I) :
    timesOf (earlier ++ later) item = timesOf earlier item ++ timesOf later item :=
  List.filter_append _ _

/-- An item is counted as often as it is handled. -/
theorem count_handled (handled : List (Handled I B)) (item : I) :
    (handled.map Handled.item).count item = (timesOf handled item).length := by
  rw [List.count, List.countP_map, timesOf, List.countP_eq_length_filter]
  rfl

/-- An owned item with its first value: ahead of the cursor, waiting, or over. Over means
that nothing lists it again; it was handled when it was to be, and else is as it was. -/
inductive Standing (item : I) (value : B) (handled : List (Handled I B)) (scan : Scan I B P) :
    Prop where
  | ahead (unseen : timesOf handled item = []) (absent : item ∉ scan.queue.map Prod.fst)
      (kept : scan.held item = some value) (more : scan.more = true)
      (within : listed value = true) (front : scan.cursor < position item value)
  | waits (unseen : timesOf handled item = []) (earlier later : List (I × B))
      (queue : scan.queue = earlier ++ (item, value) :: later)
      (before : item ∉ earlier.map Prod.fst) (after : item ∉ later.map Prod.fst)
      (kept : scan.held item = some value) (within : listed value = true)
      (reached : position item value ≤ scan.cursor)
  | passedBy (unseen : timesOf handled item = []) (absent : item ∉ scan.queue.map Prod.fst)
      (kept : scan.held item = some value)
      (behind : ¬ (scan.more = true ∧ listed value = true ∧ scan.cursor < position item value))
      (spared : ¬ (listed value = true ∧ passes value = true))
  | handled (removed : Bool) (once : timesOf handled item = [⟨item, value, removed⟩])
      (absent : item ∉ scan.queue.map Prod.fst)
      (left : scan.held item = if removed then none else some value)
      (reached : position item value ≤ scan.cursor)
      (due : listed value = true ∧ passes value = true)

/-- Before the first page an owned item lies ahead, or is not listed. -/
theorem opening_standing (held : I → Option B) (item : I) (value : B)
    (kept : held item = some value) :
    Standing position listed passes item value [] (opening held) := by
  by_cases within : listed value = true
  · exact .ahead rfl (by simp [opening]) kept rfl within (WithBot.bot_lt_coe _)
  · exact .passedBy rfl (by simp [opening]) kept (fun front => within front.2.1)
      (fun due => within due.1)

/-- A page takes an item that lies ahead into the queue, once, or leaves it ahead. -/
theorem fetch_ahead (scan : Scan I B P) (handled : List (Handled I B)) (page : List (I × B))
    (more : Bool) (isPage : Page position listed scan.held scan.cursor page more) (item : I)
    (value : B) (unseen : timesOf handled item = []) (absent : item ∉ scan.queue.map Prod.fst)
    (kept : scan.held item = some value) (within : listed value = true)
    (front : scan.cursor < position item value) :
    Standing position listed passes item value handled
      { scan with queue := scan.queue ++ page, more := more,
                  cursor := cursorAfter position scan.cursor page } := by
  have only : ∀ entry ∈ page, entry.1 = item → entry = (item, value) := by
    rintro ⟨other, twin⟩ member rfl
    have held := (isPage.ahead _ member).1
    rw [kept] at held
    rw [Option.some.inj held]
  rcases isPage.complete item value ⟨kept, within, front⟩ with here | ⟨later, beyond⟩
  · obtain ⟨earlier, following, split⟩ := List.append_of_mem here
    have distinct := page_distinct position listed scan.held scan.cursor page more isPage
    rw [split, List.map_append, List.map_cons, List.nodup_append] at distinct
    obtain ⟨-, rest, apart⟩ := distinct
    refine .waits unseen (scan.queue ++ earlier) following (by simp [split]) ?_
      (List.nodup_cons.mp rest).1 kept within ?_
    · rw [List.map_append, List.mem_append, not_or]
      exact ⟨absent, fun member => apart item member item (by simp) rfl⟩
    · exact (cursor_after_page position listed scan.held scan.cursor page more isPage).2 _ here
  · have missing : item ∉ page.map Prod.fst := by
      intro member
      obtain ⟨entry, inPage, same⟩ := List.mem_map.mp member
      have below := beyond entry inPage
      rw [only entry inPage same] at below
      exact lt_irrefl _ below
    refine .ahead unseen ?_ kept later within ?_
    · rw [List.map_append, List.mem_append, not_or]
      exact ⟨absent, missing⟩
    · simp only [cursorAfter]
      split
      · rename_i last ends
        exact WithBot.coe_lt_coe.mpr (beyond last (List.mem_of_getLast? ends))
      · exact front

/-- A page leaves every item that does not lie ahead standing as it did. -/
theorem fetch_standing (scan : Scan I B P) (handled : List (Handled I B)) (page : List (I × B))
    (more : Bool) (pending : scan.more = true)
    (isPage : Page position listed scan.held scan.cursor page more) (item : I) (value : B)
    (standing : Standing position listed passes item value handled scan) :
    Standing position listed passes item value handled
      { scan with queue := scan.queue ++ page, more := more,
                  cursor := cursorAfter position scan.cursor page } := by
  have onward := (cursor_after_page position listed scan.held scan.cursor page more isPage).1
  cases standing with
  | ahead unseen absent kept _ within front =>
    exact fetch_ahead position listed passes scan handled page more isPage item value unseen absent
      kept within front
  | waits unseen earlier later queue before after kept within reached =>
    have missing : item ∉ page.map Prod.fst := by
      apply page_without position listed scan page more isPage item
      rintro other held ⟨-, front⟩
      rw [kept] at held
      obtain rfl := Option.some.inj held
      exact absurd (lt_of_lt_of_le front reached) (lt_irrefl _)
    refine .waits unseen earlier (later ++ page) (by simp [queue]) before ?_ kept within
      (reached.trans onward)
    rw [List.map_append, List.mem_append, not_or]
    exact ⟨after, missing⟩
  | passedBy unseen absent kept behind spared =>
    have missing : item ∉ page.map Prod.fst := by
      apply page_without position listed scan page more isPage item
      rintro other held ⟨within, front⟩
      rw [kept] at held
      obtain rfl := Option.some.inj held
      exact behind ⟨pending, within, front⟩
    refine .passedBy unseen ?_ kept ?_ spared
    · rw [List.map_append, List.mem_append, not_or]
      exact ⟨absent, missing⟩
    · rintro ⟨-, within, front⟩
      exact behind ⟨pending, within, lt_of_le_of_lt onward front⟩
  | handled removed once absent left reached due =>
    have missing : item ∉ page.map Prod.fst := by
      apply page_without position listed scan page more isPage item
      rintro other held ⟨-, front⟩
      rw [left] at held
      split at held
      · cases held
      · obtain rfl := Option.some.inj held
        exact absurd (lt_of_lt_of_le front reached) (lt_irrefl _)
    refine .handled removed once ?_ left (reached.trans onward) due
    rw [List.map_append, List.mem_append, not_or]
    exact ⟨absent, missing⟩

/-- Others leave an owned item standing as it did. -/
theorem elsewhere_standing (scan : Scan I B P) (handled : List (Handled I B))
    (later : I → Option B) (item : I) (value : B) (same : later item = scan.held item)
    (standing : Standing position listed passes item value handled scan) :
    Standing position listed passes item value handled { scan with held := later } := by
  cases standing with
  | ahead unseen absent kept more within front =>
    exact .ahead unseen absent (same.trans kept) more within front
  | waits unseen earlier later queue before after kept within reached =>
    exact .waits unseen earlier later queue before after (same.trans kept) within reached
  | passedBy unseen absent kept behind spared =>
    exact .passedBy unseen absent (same.trans kept) behind spared
  | handled removed once absent left reached due =>
    exact .handled removed once absent (same.trans left) reached due

/-- Taking another item from the queue leaves an item standing as it did. -/
theorem take_other (scan : Scan I B P) (handled more : List (Handled I B)) (later : I → Option B)
    (item other : I) (value twin : B) (rest : List (I × B))
    (next : scan.queue = (other, twin) :: rest) (apart : other ≠ item)
    (unrelated : timesOf more item = []) (same : later item = scan.held item)
    (standing : Standing position listed passes item value handled scan) :
    Standing position listed passes item value (handled ++ more)
      { scan with queue := rest, held := later } := by
  have times : timesOf (handled ++ more) item = timesOf handled item := by
    rw [times_of_append, unrelated, List.append_nil]
  have fewer : item ∉ scan.queue.map Prod.fst → item ∉ rest.map Prod.fst := by
    rw [next]
    exact fun absent member => absent (List.mem_cons_of_mem _ member)
  cases standing with
  | ahead unseen absent kept more within front =>
    exact .ahead (times.trans unseen) (fewer absent) (same.trans kept) more within front
  | waits unseen earlier after queue before beyond kept within reached =>
    cases earlier with
    | nil =>
      rw [next] at queue
      exact absurd (congrArg Prod.fst (List.cons.inj queue).1) apart
    | cons entry earlier =>
      rw [next] at queue
      refine .waits (times.trans unseen) earlier after (List.cons.inj queue).2 ?_ beyond
        (same.trans kept) within reached
      exact fun member => before (List.mem_cons_of_mem _ member)
  | passedBy unseen absent kept behind spared =>
    exact .passedBy (times.trans unseen) (fewer absent) (same.trans kept) behind spared
  | handled removed once absent left reached due =>
    exact .handled removed (times.trans once) (fewer absent) (same.trans left) reached due

/-- An item at the head of the queue waits there, with its first value. -/
theorem head_waits (scan : Scan I B P) (handled : List (Handled I B)) (item : I) (value twin : B)
    (rest : List (I × B)) (next : scan.queue = (item, twin) :: rest)
    (standing : Standing position listed passes item value handled scan) :
    twin = value ∧ timesOf handled item = [] ∧ item ∉ rest.map Prod.fst ∧
      scan.held item = some value ∧ listed value = true ∧ position item value ≤ scan.cursor := by
  cases standing with
  | ahead _ absent => simp [next] at absent
  | passedBy _ absent => simp [next] at absent
  | handled _ _ absent => simp [next] at absent
  | waits unseen earlier later queue before after kept within reached =>
    rw [next] at queue
    cases earlier with
    | nil =>
      obtain ⟨same, rfl⟩ := List.cons.inj queue
      exact ⟨congrArg Prod.snd same, unseen, after, kept, within, reached⟩
    | cons entry earlier =>
      have same := congrArg Prod.fst (List.cons.inj queue).1
      exact absurd (List.mem_map.mpr ⟨entry, List.mem_cons_self, same.symm⟩) before

/-- A step keeps where an owned item stands. -/
theorem step_standing (scan next : Scan I B P) (handled : List (Handled I B))
    (made : Option (Handled I B)) (step : Step position listed passes owned scan made next)
    (item : I) (mine : owned item) (value : B)
    (standing : Standing position listed passes item value handled scan) :
    Standing position listed passes item value (handled ++ made.toList) next := by
  cases step with
  | elsewhere later agrees =>
    rw [Option.toList_none, List.append_nil]
    exact elsewhere_standing position listed passes scan handled later item value
      (agrees item mine) standing
  | fetch page more pending isPage =>
    rw [Option.toList_none, List.append_nil]
    exact fetch_standing position listed passes scan handled page more pending isPage item value
      standing
  | skip other twin rest following fails =>
    by_cases here : other = item
    · subst here
      obtain ⟨rfl, unseen, absent, kept, within, reached⟩ :=
        head_waits position listed passes scan handled other value twin rest following standing
      refine .passedBy (by simpa using unseen) absent kept ?_ (by simp [fails])
      rintro ⟨-, -, front⟩
      exact absurd (lt_of_lt_of_le front reached) (lt_irrefl _)
    · exact take_other position listed passes scan handled [] scan.held item other value twin rest
        following here rfl rfl standing
  | handle other twin removed rest following passed =>
    by_cases here : other = item
    · subst here
      obtain ⟨rfl, unseen, absent, kept, within, reached⟩ :=
        head_waits position listed passes scan handled other value twin rest following standing
      refine .handled removed ?_ absent ?_ reached ⟨within, passed⟩
      · rw [times_of_append, unseen]
        simp [timesOf]
      · cases removed with
        | true => simp
        | false => simpa using kept
    · refine take_other position listed passes scan handled [⟨other, twin, removed⟩] _ item other
        value twin rest following here (by simp [timesOf, here]) ?_ standing
      cases removed with
      | true => exact Function.update_of_ne (Ne.symm here) none scan.held
      | false => rfl

/-- So does a run. -/
theorem run_standing (scan final : Scan I B P) (earlier handled : List (Handled I B))
    (run : Run position listed passes owned scan handled final) (item : I) (mine : owned item)
    (value : B) (standing : Standing position listed passes item value earlier scan) :
    Standing position listed passes item value (earlier ++ handled) final := by
  induction run generalizing earlier with
  | done => simpa using standing
  | step scan next final made handled step _ ih =>
    rw [← List.append_assoc]
    exact ih _ (step_standing position listed passes owned scan next earlier made step item mine
      value standing)

/-- An owned item that is not in the collection at first is never listed. -/
theorem run_absent (scan final : Scan I B P) (handled : List (Handled I B))
    (run : Run position listed passes owned scan handled final) (item : I) (mine : owned item)
    (missing : scan.held item = none) (absent : item ∉ scan.queue.map Prod.fst) :
    timesOf handled item = [] ∧ final.held item = none := by
  induction run with
  | done => exact ⟨rfl, missing⟩
  | step scan next final made handled step _ ih =>
    cases step with
    | elsewhere later agrees => exact ih ((agrees item mine).trans missing) absent
    | fetch page more pending isPage =>
      have fresh := page_without position listed scan page more isPage item
        (fun value held => by simp [missing] at held)
      refine ih missing ?_
      rw [List.map_append, List.mem_append, not_or]
      exact ⟨absent, fresh⟩
    | skip other value rest following fails =>
      refine ih missing ?_
      rw [following] at absent
      exact fun member => absent (List.mem_cons_of_mem _ member)
    | handle other value removed rest following passed =>
      rw [following, List.map_cons, List.mem_cons, not_or] at absent
      have still : (if removed then Function.update scan.held other none else scan.held) item =
          none := by
        cases removed with
        | true => simpa [Function.update_of_ne absent.1] using missing
        | false => exact missing
      obtain ⟨unseen, left⟩ := ih still absent.2
      refine ⟨?_, left⟩
      rw [times_of_append, unseen, List.append_nil]
      simp [timesOf, Ne.symm absent.1]

/-- What a scan, begun before the first page, has done to an owned item: at most once, and
only when it was listed and passed at first; then it is removed or left. When the scan has gone
through the whole collection, each such item was handled. -/
theorem owned_handled (held : I → Option B) (final : Scan I B P) (handled : List (Handled I B))
    (run : Run position listed passes owned (opening held) handled final) (item : I)
    (mine : owned item) :
    (timesOf handled item = [] ∧ final.held item = held item ∧
      (final.queue = [] → final.more = false →
        ∀ value, held item = some value → ¬ (listed value = true ∧ passes value = true))) ∨
    ∃ value removed, held item = some value ∧ listed value = true ∧ passes value = true ∧
      timesOf handled item = [⟨item, value, removed⟩] ∧
      final.held item = if removed then none else some value := by
  cases kept : held item with
  | none =>
    obtain ⟨unseen, left⟩ := run_absent position listed passes owned _ final handled run item mine
      kept (by simp [opening])
    exact .inl ⟨unseen, left, fun _ _ value found => by cases found⟩
  | some value =>
    have standing := run_standing position listed passes owned _ final [] handled run item mine
      value (opening_standing position listed passes held item value kept)
    rw [List.nil_append] at standing
    cases standing with
    | ahead unseen _ same more =>
      exact .inl ⟨unseen, same, fun _ ended => by simp [more] at ended⟩
    | waits unseen earlier later queue _ _ same =>
      exact .inl ⟨unseen, same, fun drained => by simp [queue] at drained⟩
    | passedBy unseen _ same _ spared =>
      refine .inl ⟨unseen, same, fun _ _ other found => ?_⟩
      obtain rfl := Option.some.inj found
      exact spared
    | handled removed once _ left _ due =>
      exact .inr ⟨value, removed, rfl, due.1, due.2, once, left⟩

/-! ## How much work is left

When every item is owned, nobody else changes the collection, and the work that is left
falls with each item that is taken from the queue. -/

section Alone

variable (alone : ∀ item, owned item) (height : I → B → Nat) (items : Finset I)

include alone

omit [DecidableEq I] in
/-- The items that wait are distinct, as each has the position of the value it has. -/
theorem waiting_alone (scan : Scan I B P) (waiting : Waiting position owned scan) :
    CursorScan.Waiting position scan where
  distinct := by
    refine List.pairwise_map.mpr (List.Pairwise.imp_of_mem ?_ waiting.ordered)
    rintro ⟨item, value⟩ ⟨other, current⟩ first second below rfl
    have same : some value = some current := (waiting.current _ first (alone item)).symm.trans
      (waiting.current _ second (alone item))
    obtain rfl := Option.some.inj same
    exact lt_irrefl _ below
  current entry member :=
    ⟨waiting.current entry member (alone entry.1), waiting.behind entry member⟩

/-- A step adds no work, and takes some away when it shortens the queue. -/
theorem step_takes_work (scan next : Scan I B P) (made : Option (Handled I B))
    (step : Step position listed passes owned scan made next)
    (waiting : Waiting position owned scan) (supports : Supports items scan) :
    work position listed height items next + (scan.queue.length - next.queue.length) ≤
        work position listed height items scan ∧ Supports items next := by
  have waits := waiting_alone position owned alone scan waiting
  cases step with
  | elsewhere later agrees =>
    obtain rfl : later = scan.held := funext (fun item => agrees item (alone item))
    exact ⟨by simp, supports⟩
  | fetch page more pending isPage =>
    have less := fetch_work position listed height items scan page more isPage
    refine ⟨?_, supports⟩
    simp only [List.length_append]
    omega
  | skip item value rest following fails =>
    have less := skip_work position listed height items scan item value rest following waits
      supports
    refine ⟨?_, supports⟩
    simp only [following, List.length_cons]
    omega
  | handle item value removed rest following passed =>
    cases removed with
    | false =>
      have less :=
        skip_work position listed height items scan item value rest following waits supports
      refine ⟨?_, supports⟩
      simp only [Bool.false_eq_true, if_false, following, List.length_cons]
      omega
    | true =>
      have kept := (waits.current (item, value) (by simp [following])).1
      have less := taken_work position listed height items scan item value rest
        (Function.update scan.held item none) following (supports item value kept)
        (fun other apart => Function.update_of_ne apart _ _) (by
          rw [waiting_work position listed height scan item value rest following waits]
          simp [itemWork])
      simp only [if_true, following, List.length_cons]
      refine ⟨by omega, fun other current held => ?_⟩
      by_cases same : other = item
      · subst same
        simp at held
      · exact supports other current ((Function.update_of_ne same _ _).symm.trans held)

/-- A run adds no work, and takes away at least as much as it shortens the queue by. -/
theorem run_takes_work (scan final : Scan I B P) (handled : List (Handled I B))
    (run : Run position listed passes owned scan handled final)
    (waiting : Waiting position owned scan) (supports : Supports items scan) :
    work position listed height items final + (scan.queue.length - final.queue.length) ≤
        work position listed height items scan ∧ Supports items final := by
  induction run with
  | done scan => exact ⟨by simp, supports⟩
  | step scan next final made handled step rest ih =>
    obtain ⟨first, among⟩ := step_takes_work position listed passes owned alone height items scan
      next made step waiting supports
    obtain ⟨others, last⟩ :=
      ih (step_waiting position listed passes owned scan next made step waiting) among
    exact ⟨by omega, last⟩

end Alone

end GoogleCalendar.Library.SharedScan
