import GoogleCalendar.CalendarAttach
import GoogleCalendar.MountedTables

/-!
# The names of an attachment's tables

An attachment is to have a table for each alias, with the calendar the alias
names, and one under its own id for each calendar that no alias names. Ids and
names compare without letter case, as the catalog compares them.

The code keeps one entry for each name, in the alias map and in the table map,
and a later one replaces an earlier one. It meets the intention just when no
name is wanted for two calendars; and where some alias names no listed calendar,
just when such an alias is still in the map, so that the load is refused. Both
are conditions on the aliases and the listed ids alone.
-/

namespace GoogleCalendar.AttachedNames

open Library CalendarCatalog CalendarAttach CatalogRuns MountedTables

/-- Whether an alias names a calendar that is not listed. -/
def Unlisted (listed : List String) (pair : String × String) : Prop :=
  ∀ calendarId ∈ listed, lowerCase calendarId ≠ lowerCase pair.2

instance (listed : List String) (pair : String × String) : Decidable (Unlisted listed pair) :=
  inferInstanceAs (Decidable (∀ calendarId ∈ listed, _))

/-- The tables wanted: a listed calendar under each alias that names it, and under
its own id when none does. -/
def Wanted (aliases : List (String × String)) (listed : List String) (name calendarId : String) :
    Prop :=
  calendarId ∈ listed ∧
    ((∃ pair ∈ aliases, pair.1 = name ∧ lowerCase pair.2 = lowerCase calendarId) ∨
      (name = calendarId ∧ ∀ pair ∈ aliases, lowerCase pair.2 ≠ lowerCase calendarId))

/-- A table map with each wanted table under its name, and no other. -/
structure RightTables (aliases : List (String × String)) (listed : List String)
    (tables : CaseInsensitiveMap CalendarTableEntry) : Prop where
  found : ∀ name calendarId, Wanted aliases listed name calendarId →
    ∃ entry, tables.find name = some entry ∧ entry.calendarId = calendarId
  wanted : ∀ name entry, tables.find name = some entry →
    ∃ spelling, lowerCase spelling = lowerCase name ∧
      Wanted aliases listed spelling entry.calendarId

/-- An attachment that throws just when some alias names no listed calendar, and
ends with the right tables otherwise. -/
def RightlyAttached (aliases : List (String × String)) (listed : List String) :
    Except Exception CalendarCatalog → Prop
  | .error _ => ∃ pair ∈ aliases, Unlisted listed pair
  | .ok catalog => (∀ pair ∈ aliases, ¬ Unlisted listed pair) ∧
      RightTables aliases listed catalog.tables

/-- An alias that no later one of its name replaces. -/
def Standing (aliases : List (String × String)) (pair : String × String) : Prop :=
  FoldedMap.lastNamed lowerCase aliases pair.1 = some pair

/-- The aliases and ids that are told apart by their names: either an alias that
is not replaced names no listed calendar, or all do and no name is wanted for two
calendars. -/
def ToldApart (aliases : List (String × String)) (listed : List String) : Prop :=
  (∃ pair, Standing aliases pair ∧ Unlisted listed pair) ∨
    ((∀ pair ∈ aliases, ¬ Unlisted listed pair) ∧
      ∀ name calendarId other otherId, Wanted aliases listed name calendarId →
        Wanted aliases listed other otherId → lowerCase name = lowerCase other →
        calendarId = otherId)

/-- Where the aliases spell the ids as the listing does and no two listed ids differ
in letter case only, the tables wanted are those with the very ids. -/
theorem wanted_exact (aliases : List (String × String)) (listed : List String)
    (spelled : ∀ pair ∈ aliases, pair.2 ∈ listed)
    (apart : ∀ calendarId ∈ listed, ∀ other ∈ listed,
      lowerCase calendarId = lowerCase other → calendarId = other)
    (name calendarId : String) :
    Wanted aliases listed name calendarId ↔ calendarId ∈ listed ∧
      ((name, calendarId) ∈ aliases ∨
        (name = calendarId ∧ ∀ pair ∈ aliases, pair.2 ≠ calendarId)) := by
  constructor
  · rintro ⟨inListing, ⟨pair, given, rfl, same⟩ | ⟨rfl, unnamed⟩⟩
    · have spelling := apart pair.2 (spelled pair given) calendarId inListing same
      exact ⟨inListing, Or.inl (spelling ▸ given)⟩
    · refine ⟨inListing, Or.inr ⟨rfl, ?_⟩⟩
      rintro pair given rfl
      exact unnamed pair given rfl
  · rintro ⟨inListing, given | ⟨rfl, unnamed⟩⟩
    · exact ⟨inListing, Or.inl ⟨(name, calendarId), given, rfl, rfl⟩⟩
    · refine ⟨inListing, Or.inr ⟨rfl, ?_⟩⟩
      intro pair given same
      exact unnamed pair given (apart pair.2 (spelled pair given) name inListing same)

/-- The right tables resolve every name alike, whatever the order of the ids. -/
theorem right_tables_determined (aliases : List (String × String)) (listed others : List String)
    (tables twins : CaseInsensitiveMap CalendarTableEntry)
    (right : RightTables aliases listed tables) (twin : RightTables aliases others twins)
    (same : ∀ calendarId, calendarId ∈ listed ↔ calendarId ∈ others) (name : String) :
    (tables.find name).map CalendarTableEntry.calendarId =
      (twins.find name).map CalendarTableEntry.calendarId := by
  have carried : ∀ first second (left right : CaseInsensitiveMap CalendarTableEntry),
      RightTables aliases first left → RightTables aliases second right →
      (∀ calendarId, calendarId ∈ first ↔ calendarId ∈ second) → ∀ entry,
      left.find name = some entry →
        ∃ other, right.find name = some other ∧ other.calendarId = entry.calendarId := by
    intro first second left right rightLeft rightRight same entry found
    obtain ⟨spelling, folded, wanted⟩ := rightLeft.wanted name entry found
    obtain ⟨other, there, calendar⟩ := rightRight.found spelling entry.calendarId
      ⟨(same _).mp wanted.1, wanted.2⟩
    exact ⟨other, by rw [← there]; exact FoldedMap.find_congr _ name spelling folded.symm,
      calendar⟩
  cases found : tables.find name with
  | some entry =>
    obtain ⟨other, there, calendar⟩ := carried listed others tables twins right twin
      same entry found
    simp [there, calendar]
  | none =>
    cases there : twins.find name with
    | none => rfl
    | some entry =>
      obtain ⟨other, back, -⟩ := carried others listed twins tables twin right
        (fun calendarId => (same calendarId).symm) entry there
      simp [found] at back

/-- With the right tables every listed calendar is reached. -/
theorem right_tables_reach (aliases : List (String × String)) (listed : List String)
    (tables : CaseInsensitiveMap CalendarTableEntry) (right : RightTables aliases listed tables)
    (calendarId : String) (member : calendarId ∈ listed) :
    ∃ name entry, tables.find name = some entry ∧ entry.calendarId = calendarId := by
  by_cases aliased : ∃ pair ∈ aliases, lowerCase pair.2 = lowerCase calendarId
  · obtain ⟨pair, given, names⟩ := aliased
    exact ⟨pair.1, right.found pair.1 calendarId ⟨member, Or.inl ⟨pair, given, rfl, names⟩⟩⟩
  · have unaliased : ∀ pair ∈ aliases, lowerCase pair.2 ≠ lowerCase calendarId :=
      fun pair given names => aliased ⟨pair, given, names⟩
    exact ⟨calendarId, right.found calendarId calendarId ⟨member, Or.inr ⟨rfl, unaliased⟩⟩⟩

/-- The alias map is built from the aliases with an id. -/
theorem read_named (entries : List (String × Option String)) (map : CaseInsensitiveMap String) :
    entries.foldl addAlias map =
      (named entries).foldl (fun map pair => map.assign pair.1 pair.2) map := by
  induction entries generalizing map with
  | nil => rfl
  | cons entry rest ih =>
    obtain ⟨name, calendarId⟩ := entry
    cases calendarId with
    | none => exact ih map
    | some calendarId => exact ih (map.assign name calendarId)

/-- The aliases in the map are those that stand, up to the spelling of a name. -/
theorem map_entries (aliases : List (String × String)) (map : CaseInsensitiveMap String)
    (built : map = aliases.foldl (fun map pair => map.assign pair.1 pair.2) .empty) :
    (∀ entry ∈ map.entries, ∃ pair ∈ aliases, Standing aliases pair ∧
      lowerCase pair.1 = lowerCase entry.1 ∧ pair.2 = entry.2) ∧
    ∀ pair, Standing aliases pair →
      ∃ name, lowerCase name = lowerCase pair.1 ∧ (name, pair.2) ∈ map.entries := by
  have found : ∀ name, map.find name =
      (FoldedMap.lastNamed lowerCase aliases name).map Prod.snd := by
    intro name
    rw [built, FoldedMap.find_assign_all]
    simp
  constructor
  · intro entry member
    have there : map.find entry.1 = some entry.2 :=
      FoldedEntries.find_of_mem lowerCase entry map.entries map.distinct member
    rw [found, Option.map_eq_some_iff] at there
    obtain ⟨pair, last, same⟩ := there
    have folded : lowerCase pair.1 = lowerCase entry.1 := by
      simpa using List.find?_some last
    have listed : pair ∈ aliases := List.mem_reverse.mp (List.mem_of_find?_eq_some last)
    refine ⟨pair, listed, ?_, folded, same⟩
    simpa [Standing, FoldedMap.lastNamed, folded] using last
  · intro pair standing
    have there : map.find pair.1 = some pair.2 := by
      rw [found, standing]
      rfl
    exact FoldedEntries.mem_of_find lowerCase pair.1 pair.2 map.entries there

/-- Of the aliases with the name of a given one the last stands. -/
theorem standing_of_mem (aliases : List (String × String)) (pair : String × String)
    (member : pair ∈ aliases) :
    ∃ last ∈ aliases, Standing aliases last ∧ lowerCase last.1 = lowerCase pair.1 := by
  have some_found : (aliases.reverse.find? (fun entry => lowerCase entry.1 =
      lowerCase pair.1)).isSome
      = true := by
    rw [List.find?_isSome]
    exact ⟨pair, List.mem_reverse.mpr member, by simp⟩
  obtain ⟨last, found⟩ := Option.isSome_iff_exists.mp some_found
  have folded : lowerCase last.1 = lowerCase pair.1 := by simpa using List.find?_some found
  refine ⟨last, List.mem_reverse.mp (List.mem_of_find?_eq_some found), ?_, folded⟩
  simpa [Standing, FoldedMap.lastNamed, folded] using found

/-- The names under which the code mounts a calendar. -/
theorem mem_table_names (catalog : CalendarCatalog) (calendarId name : String) :
    name ∈ catalog.tableNames calendarId ↔
      (∃ entry ∈ catalog.calendarAliases.entries, entry.1 = name ∧
        lowerCase entry.2 = lowerCase calendarId) ∨
      (name = calendarId ∧ ∀ entry ∈ catalog.calendarAliases.entries,
        lowerCase entry.2 ≠ lowerCase calendarId) := by
  have filtered : ∀ entry, entry ∈ catalog.calendarAliases.entries.filter
      (fun entry => lowerCase entry.2 = lowerCase calendarId) ↔
      entry ∈ catalog.calendarAliases.entries ∧ lowerCase entry.2 = lowerCase calendarId := by
    simp
  simp only [tableNames]
  split
  · rename_i none
    rw [none] at filtered
    have unaliased : ∀ entry ∈ catalog.calendarAliases.entries,
        lowerCase entry.2 ≠ lowerCase calendarId :=
      fun entry member same => absurd ((filtered entry).mpr ⟨member, same⟩) (by simp)
    constructor
    · intro member
      exact Or.inr ⟨List.mem_singleton.mp member, unaliased⟩
    · rintro (⟨entry, member, -, same⟩ | ⟨rfl, -⟩)
      · exact absurd same (unaliased entry member)
      · exact List.mem_singleton.mpr rfl
  · rename_i entries some
    constructor
    · intro member
      obtain ⟨entry, listed, rfl⟩ := List.mem_map.mp member
      obtain ⟨held, same⟩ := (filtered entry).mp listed
      exact Or.inl ⟨entry, held, rfl, same⟩
    · rintro (⟨entry, held, rfl, same⟩ | ⟨-, unaliased⟩)
      · exact List.mem_map.mpr ⟨entry, (filtered entry).mpr ⟨held, same⟩, rfl⟩
      · exfalso
        apply some
        apply List.eq_nil_iff_forall_not_mem.mpr
        intro entry listed
        obtain ⟨held, same⟩ := (filtered entry).mp listed
        exact unaliased entry held same

/-- A mount is a name that a listed calendar is mounted under. -/
theorem mem_mounts (catalog : CalendarCatalog) (listed : List String) (mount : String × String) :
    mount ∈ mounts catalog listed ↔
      mount.2 ∈ listed ∧ mount.1 ∈ catalog.tableNames mount.2 := by
  simp only [mounts, List.mem_flatMap, List.mem_map]
  constructor
  · rintro ⟨calendarId, member, name, named, rfl⟩
    exact ⟨member, named⟩
  · rintro ⟨member, named⟩
    exact ⟨mount.2, member, mount.1, named, rfl⟩

section Mounting

variable (aliases : List (String × String)) (listed : List String)
  (map : CaseInsensitiveMap String)
  (built : map = aliases.foldl (fun map pair => map.assign pair.1 pair.2) .empty)

include built

/-- With names that are told apart, each alias of a calendar has an entry in the
map that names that calendar: the entry of the last alias with its name. -/
theorem entry_of_alias (known : ∀ pair ∈ aliases, ¬ Unlisted listed pair)
    (apart : ∀ name calendarId other otherId, Wanted aliases listed name calendarId →
      Wanted aliases listed other otherId → lowerCase name = lowerCase other →
      calendarId = otherId)
    (pair : String × String) (member : pair ∈ aliases) (calendarId : String)
    (inList : calendarId ∈ listed) (names : lowerCase pair.2 = lowerCase calendarId) :
    ∃ entry ∈ map.entries, lowerCase entry.1 = lowerCase pair.1 ∧
      lowerCase entry.2 = lowerCase calendarId := by
  obtain ⟨last, given, standing, folded⟩ := standing_of_mem aliases pair member
  obtain ⟨otherId, otherListed, otherNames⟩ : ∃ otherId ∈ listed,
      lowerCase otherId = lowerCase last.2 := by
    by_contra none
    exact known last given (fun otherId inside same => none ⟨otherId, inside, same⟩)
  have same : calendarId = otherId :=
    apart pair.1 calendarId last.1 otherId ⟨inList, Or.inl ⟨pair, member, rfl, names⟩⟩
      ⟨otherListed, Or.inl ⟨last, given, rfl, otherNames.symm⟩⟩ folded.symm
  obtain ⟨name, spelled, held⟩ := (map_entries aliases map built).2 last standing
  exact ⟨(name, last.2), held, spelled.trans folded, by rw [same, ← otherNames]⟩

/-- Told apart, the tables mounted are those wanted, up to the spelling of a
name. -/
theorem mounts_wanted (known : ∀ pair ∈ aliases, ¬ Unlisted listed pair)
    (apart : ∀ name calendarId other otherId, Wanted aliases listed name calendarId →
      Wanted aliases listed other otherId → lowerCase name = lowerCase other →
      calendarId = otherId) :
    (∀ mount ∈ mounts ⟨map, .empty, .empty⟩ listed, ∃ spelling,
      lowerCase spelling = lowerCase mount.1 ∧ Wanted aliases listed spelling mount.2) ∧
    ∀ name calendarId, Wanted aliases listed name calendarId →
      ∃ mount ∈ mounts ⟨map, .empty, .empty⟩ listed,
        lowerCase mount.1 = lowerCase name ∧ mount.2 = calendarId := by
  constructor
  · intro mount mounted
    obtain ⟨inList, under⟩ := (mem_mounts _ listed mount).mp mounted
    rcases (mem_table_names _ mount.2 mount.1).mp under with
      ⟨entry, held, spelled, names⟩ | ⟨own, unaliased⟩
    · obtain ⟨pair, given, -, folded, same⟩ := (map_entries aliases map built).1 entry held
      refine ⟨pair.1, folded.trans (congrArg lowerCase spelled), inList, Or.inl ?_⟩
      exact ⟨pair, given, rfl, same ▸ names⟩
    · refine ⟨mount.2, congrArg lowerCase own.symm, inList, Or.inr ⟨rfl, ?_⟩⟩
      intro pair given names
      obtain ⟨entry, held, -, same⟩ :=
        entry_of_alias aliases listed map built known apart pair given mount.2 inList names
      exact unaliased entry held same
  · rintro name calendarId ⟨inList, ⟨pair, given, rfl, names⟩ | ⟨rfl, unaliased⟩⟩
    · obtain ⟨entry, held, folded, same⟩ :=
        entry_of_alias aliases listed map built known apart pair given calendarId inList names
      refine ⟨(entry.1, calendarId), (mem_mounts _ listed _).mpr ⟨inList, ?_⟩, folded, rfl⟩
      exact (mem_table_names _ calendarId entry.1).mpr (Or.inl ⟨entry, held, rfl, same⟩)
    · refine ⟨(name, name), (mem_mounts _ listed _).mpr ⟨inList, ?_⟩, rfl, rfl⟩
      apply (mem_table_names _ name name).mpr
      refine Or.inr ⟨rfl, ?_⟩
      intro entry held names
      obtain ⟨pair, given, -, -, same⟩ := (map_entries aliases map built).1 entry held
      exact unaliased pair given (same ▸ names)

/-- The tables are right just when no name is wanted for two calendars. -/
theorem right_tables_iff (known : ∀ pair ∈ aliases, ¬ Unlisted listed pair) :
    RightTables aliases listed (mountAll (mounts ⟨map, .empty, .empty⟩ listed)
      ⟨map, .empty, .empty⟩).tables ↔
    ∀ name calendarId other otherId, Wanted aliases listed name calendarId →
      Wanted aliases listed other otherId → lowerCase name = lowerCase other →
      calendarId = otherId := by
  constructor
  · intro right name calendarId other otherId wanted also folded
    obtain ⟨entry, found, calendar⟩ := right.found name calendarId wanted
    obtain ⟨twin, foundTwin, calendarTwin⟩ := right.found other otherId also
    rw [FoldedMap.find_congr _ name other folded, foundTwin] at found
    obtain rfl := Option.some.inj found
    rw [← calendar, ← calendarTwin]
  · intro apart
    obtain ⟨origin, there⟩ := mounts_wanted aliases listed map built known apart
    have unambiguous : Unambiguous (mounts ⟨map, .empty, .empty⟩ listed) := by
      intro mount mounted other also folded
      obtain ⟨spelling, spelled, wanted⟩ := origin mount mounted
      obtain ⟨otherSpelling, otherSpelled, otherWanted⟩ := origin other also
      exact apart spelling mount.2 otherSpelling other.2 wanted otherWanted
        (spelled.trans (folded.trans otherSpelled.symm))
    have held := (mounted_iff_unambiguous (mounts ⟨map, .empty, .empty⟩ listed) map).mpr unambiguous
    constructor
    · intro name calendarId wanted
      obtain ⟨mount, mounted, folded, rfl⟩ := there name calendarId wanted
      obtain ⟨entry, found, calendar⟩ := held.mounted mount mounted
      refine ⟨entry, ?_, calendar⟩
      rw [← found]
      exact FoldedMap.find_congr _ name mount.1 folded.symm
    · intro name entry found
      rcases mount_all_origin _ _ name entry found with ⟨mount, mounted, folded, calendar⟩ | none
      · obtain ⟨spelling, spelled, wanted⟩ := origin mount mounted
        exact ⟨spelling, spelled.trans folded, calendar ▸ wanted⟩
      · simp at none

end Mounting

/-- Whether an entry of the alias map names a listed calendar, as the load tests
it. -/
theorem unlisted_iff (listed : List String) (entry : String × String) :
    lowerCase entry.2 ∉ listed.map lowerCase ↔ Unlisted listed entry := by
  simp [Unlisted]

variable {σ : Type} (engine : Engine) (client : GoogleCalendarClient σ)

/-- What the load ends with: the refusal of an alias that stands and names no
listed calendar, or the catalog with everything mounted when there is none. -/
theorem load_outcome (aliases : List (String × String)) (map : CaseInsensitiveMap String)
    (built : map = aliases.foldl (fun map pair => map.assign pair.1 pair.2) .empty)
    (state after : σ) (pages : List CalendarListResponse)
    (chain : PageChain engine client "" state pages after) (fuel : Nat)
    (enough : pages.length ≤ fuel) :
    (∃ error, loadCatalog engine client fuel ⟨map, .empty, .empty⟩ state =
        some (.error error, after) ∧
      ∃ pair ∈ aliases, Standing aliases pair ∧ Unlisted (listedIds pages) pair) ∨
    (loadCatalog engine client fuel ⟨map, .empty, .empty⟩ state =
        some (.ok (mountAll (mounts ⟨map, .empty, .empty⟩ (listedIds pages))
          ⟨map, .empty, .empty⟩), after) ∧
      ∀ pair, Standing aliases pair → ¬ Unlisted (listedIds pages) pair) := by
  have loaded := load_pages_chain engine client "" state after pages chain fuel enough []
    ⟨map, .empty, .empty⟩
  have ids : (pages.flatMap CalendarListResponse.items).map CalendarListEntry.id =
      listedIds pages := by
    simp [listedIds, List.map_flatMap]
  rw [mount_calendars, ids, List.nil_append] at loaded
  simp only [loadCatalog, loaded]
  cases refused : map.entries.find?
      (fun entry => lowerCase entry.2 ∉ (listedIds pages).map lowerCase) with
  | some entry =>
    left
    have held := List.mem_of_find?_eq_some refused
    have unlisted : Unlisted (listedIds pages) entry := by
      have tested := List.find?_some refused
      exact (unlisted_iff _ entry).mp (by simpa only [decide_eq_true_eq] using tested)
    obtain ⟨pair, given, standing, -, same⟩ := (map_entries aliases map built).1 entry held
    refine ⟨_, rfl, pair, given, standing, ?_⟩
    intro calendarId listed
    rw [same]
    exact unlisted calendarId listed
  | none =>
    right
    refine ⟨rfl, ?_⟩
    intro pair standing unlisted
    obtain ⟨name, -, held⟩ := (map_entries aliases map built).2 pair standing
    have tested := List.find?_eq_none.mp refused (name, pair.2) held
    exact tested (by simpa only [decide_eq_true_eq] using
      (unlisted_iff _ (name, pair.2)).mpr unlisted)

/-- An attachment refuses the aliases of unlisted calendars and mounts every
calendar under its right names, just when the aliases and ids are told apart by
their names. Then every listed calendar is reached, and what each name resolves
to depends neither on the order of the calendars nor on their pages. -/
theorem attached_right_iff_told_apart (entries : List (String × Option String)) (state after : σ)
    (pages : List CalendarListResponse) (chain : PageChain engine client "" state pages after)
    (fuel : Nat) (enough : pages.length ≤ fuel) :
    ∃ outcome, calendarAttach engine client fuel (some (.map entries)) state =
        some (outcome, after) ∧
      (RightlyAttached (named entries) (listedIds pages) outcome ↔
        ToldApart (named entries) (listedIds pages)) ∧
      ∀ catalog, outcome = .ok catalog → ToldApart (named entries) (listedIds pages) →
        (∀ calendarId ∈ listedIds pages, ∃ name entry,
          catalog.tables.find name = some entry ∧ entry.calendarId = calendarId) ∧
        ∀ others twin, (∀ calendarId, calendarId ∈ listedIds pages ↔ calendarId ∈ others) →
          RightlyAttached (named entries) others (.ok twin) → ∀ name,
            (catalog.tables.find name).map CalendarTableEntry.calendarId =
              (twin.tables.find name).map CalendarTableEntry.calendarId := by
  have built := read_named entries .empty
  have attach : calendarAttach engine client fuel (some (.map entries)) state =
      loadCatalog engine client fuel ⟨entries.foldl addAlias .empty, .empty, .empty⟩ state := rfl
  rw [attach]
  generalize entries.foldl addAlias .empty = map at built
  rcases load_outcome engine client (named entries) map built state after pages chain fuel enough
    with ⟨error, refused, pair, given, standing, unlisted⟩ | ⟨loaded, listed⟩
  · refine ⟨.error error, refused, ?_, fun catalog same => by simp at same⟩
    constructor
    · intro _
      exact Or.inl ⟨pair, standing, unlisted⟩
    · intro _
      exact ⟨pair, given, unlisted⟩
  · have iff : RightlyAttached (named entries) (listedIds pages) (.ok (mountAll
        (mounts ⟨map, .empty, .empty⟩ (listedIds pages)) ⟨map, .empty, .empty⟩)) ↔
        ToldApart (named entries) (listedIds pages) := by
      constructor
      · rintro ⟨known, right⟩
        exact Or.inr ⟨known, (right_tables_iff (named entries) (listedIds pages) map built
          known).mp right⟩
      · rintro (⟨pair, standing, unlisted⟩ | ⟨known, apart⟩)
        · exact absurd unlisted (listed pair standing)
        · exact ⟨known, (right_tables_iff (named entries) (listedIds pages) map built known).mpr
            apart⟩
    refine ⟨_, loaded, iff, ?_⟩
    rintro catalog same told
    obtain rfl := Except.ok.inj same
    have right := (iff.mpr told).2
    refine ⟨right_tables_reach (named entries) _ _ right, ?_⟩
    intro others twin sameIds twinRight name
    exact right_tables_determined (named entries) _ others _ _ right twinRight.2 sameIds name

/-- A page that lists the calendars a and b. -/
def twoCalendars : CalendarListResponse := ⟨[{ id := "a" }, { id := "b" }], ""⟩

/-- Two calendars on one page. -/
def twoEngine : Engine := .reading []
  [("page", .object [("items", .array [.object [("id", .string "a")],
    .object [("id", .string "b")]])])]

def twoClient : GoogleCalendarClient (List HttpResponse) := ⟨mockHttpClient, [], ""⟩

/-- The calendar list is the one page. -/
theorem two_calendars_chain :
    PageChain twoEngine twoClient "" [⟨200, "page"⟩] [twoCalendars] [] :=
  .last "" _ _ twoCalendars rfl rfl

/-- Aliases for a and b that are told apart. -/
theorem two_aliases_right :
    ∃ outcome, calendarAttach twoEngine twoClient 1
        (some (.map [("work", some "a"), ("Team", some "A"), ("old", none)])) [⟨200, "page"⟩] =
        some (outcome, []) ∧
      RightlyAttached [("work", "a"), ("Team", "A")] ["a", "b"] outcome := by
  obtain ⟨outcome, attached, iff, -⟩ := attached_right_iff_told_apart twoEngine twoClient
    [("work", some "a"), ("Team", some "A"), ("old", none)] [⟨200, "page"⟩] []
    [twoCalendars] two_calendars_chain 1 (by decide)
  refine ⟨outcome, attached, iff.mpr (Or.inr ⟨by decide, ?_⟩)⟩
  have tables : ∀ name calendarId,
      Wanted [("work", "a"), ("Team", "A")] ["a", "b"] name calendarId →
      (name, calendarId) ∈ [("work", "a"), ("Team", "a"), ("b", "b")] := by
    have aliased : ∀ calendarId ∈ ["a", "b"], ∀ pair ∈ [("work", "a"), ("Team", "A")],
        lowerCase pair.2 = lowerCase calendarId →
        (pair.1, calendarId) ∈ [("work", "a"), ("Team", "a"), ("b", "b")] := by decide
    have unaliased : ∀ calendarId ∈ ["a", "b"],
        (∀ pair ∈ [("work", "a"), ("Team", "A")], lowerCase pair.2 ≠ lowerCase calendarId) →
        (calendarId, calendarId) ∈ [("work", "a"), ("Team", "a"), ("b", "b")] := by decide
    rintro name calendarId ⟨listed, ⟨pair, given, rfl, names⟩ | ⟨rfl, none⟩⟩
    · exact aliased calendarId listed pair given names
    · exact unaliased name listed none
  have apart : ∀ mount ∈ [("work", "a"), ("Team", "a"), ("b", "b")],
      ∀ other ∈ [("work", "a"), ("Team", "a"), ("b", "b")],
      lowerCase mount.1 = lowerCase other.1 → mount.2 = other.2 := by decide
  intro name calendarId other otherId wanted also folded
  exact apart (name, calendarId) (tables name calendarId wanted) (other, otherId)
    (tables other otherId also) folded

/-- The alias b of the calendar a is taken over by the calendar b itself. -/
theorem alias_resolves_to_another :
    ∃ outcome, calendarAttach twoEngine twoClient 1 (some (.map [("b", some "a")]))
        [⟨200, "page"⟩] = some (outcome, []) ∧
      ¬ RightlyAttached [("b", "a")] ["a", "b"] outcome := by
  refine ⟨_, rfl, ?_⟩
  rintro ⟨-, right⟩
  obtain ⟨entry, found, calendar⟩ := right.found "b" "a" ⟨by decide, Or.inl (by decide)⟩
  have there : some entry = some ⟨"b", "b"⟩ := found.symm
  obtain rfl := Option.some.inj there
  exact absurd calendar (by decide)

end GoogleCalendar.AttachedNames
