import GoogleCalendar.CalendarTransaction
import GoogleCalendar.Library.CriticalSections

/-!
# The client of a transaction, asked for by many threads

The threads of a statement share the client of their transaction, which the first
of them builds under `client_lock`: an HTTP client, a provider that refers to it
and a client that refers to both. An object is known by its serial, and assigning
a member destroys the object that it held, so that a reference dangles as soon as
its serial is no longer the member's.

Other threads run between the stages of a construction, and other statements may
change the secrets, the settings and the service there.
-/

namespace GoogleCalendar

open Library.CriticalSections

variable {T σ : Type}

/-- A provider of tokens, as an object of its own. -/
structure AuthObject where
  serial : Nat
  /-- The HTTP client that the provider refers to. -/
  http : Option Nat
  provider : AuthProvider

/-- A client, as an object of its own. -/
structure ClientObject (σ : Type) where
  serial : Nat
  /-- The HTTP client that the client refers to. -/
  http : Option Nat
  value : GoogleCalendarClient σ

/-- The members that `client_lock` guards, and the serial of the next object. -/
structure ClientMembers (σ : Type) where
  http : Option Nat := none
  auth : Option AuthObject := none
  client : Option (ClientObject σ) := none
  serial : Nat := 0

/-- Where a thread stands in `GetClient`: at the check of the member, before the
provider is made, or before the client is. -/
inductive GetClientPlace where
  | checking
  | connected
  | authorizing
  deriving DecidableEq, Repr

/-- What building a client takes from the world: the settings of the proxy, the secret of
the catalog, and the service that answers the exchange of a token. -/
structure ClientSources (σ : Type) where
  engine : Engine
  library : TokenLibrary
  http : TransactionHttp σ
  version : String
  /-- `CreateHttpClient`, which fails for a proxy that cannot be read. -/
  connect : σ → Except Exception Unit
  secret : σ → Except Exception (Option KeyValueSecret)

namespace ClientSources

variable (sources : ClientSources σ)

/-- What a call answers when no secret is found. -/
def noSecret : Exception :=
  .invalidInput ("No google_calendar secret found. Create one with CREATE SECRET " ++
    "(TYPE google_calendar, ...) or pass SECRET <name> to ATTACH.")

/-- The provider of the secret that is found now, if one is. -/
def createAuthFromSecret (http : Option Nat) (serial : Nat) (world : σ) :
    Except Exception (Option AuthObject) :=
  match sources.secret world with
  | .error error => .error error
  | .ok none => .ok none
  | .ok (some kv) => (buildProvider kv).map (fun provider => some ⟨serial, http, provider⟩)

/-- One stage of `GetClient` under the lock. An exception ends the call, and the guard
releases the lock. -/
def getClientStage (place : GetClientPlace) (members : ClientMembers σ) (world : σ) :
    Stage GetClientPlace (Except Exception (ClientObject σ)) × ClientMembers σ × σ :=
  match place with
  | .checking =>
    match members.client with
    | some client => (.done (.ok client), members, world)
    | none =>
      match sources.connect world with
      | .error error => (.done (.error error), members, world)
      | .ok () => (.more .connected,
          { members with http := some members.serial, serial := members.serial + 1 }, world)
  | .connected =>
    match sources.createAuthFromSecret members.http members.serial world with
    | .error error => (.done (.error error), members, world)
    | .ok auth => (.more .authorizing,
        { members with auth := auth, serial := members.serial + 1 }, world)
  | .authorizing =>
    match members.auth with
    | none => (.done (.error noSecret), members, world)
    | some auth =>
      match auth.provider.getAuthorizationHeader sources.engine sources.library sources.http
        world with
      | (.error error, asked, after) =>
          (.done (.error error),
            { members with auth := some { auth with provider := asked } }, after)
      | (.ok authorization, asked, after) =>
          let client : ClientObject σ :=
            ⟨members.serial, members.http,
              { http := sources.http.retrying.toHttpClient,
                headers := buildHeaders authorization sources.version }⟩
          (.done (.ok client),
            { members with auth := some { auth with provider := asked }, client := some client,
                           serial := members.serial + 1 }, after)

/-- `GetClient`. -/
def getClientBody :
    Body GetClientPlace (ClientMembers σ) σ (Except Exception (ClientObject σ)) where
  start := .checking
  stage := sources.getClientStage

/-- The stages that are left at a place. -/
def stagesLeft : GetClientPlace → Nat
  | .checking => 2
  | .connected => 1
  | .authorizing => 0

/-- A stage that does not end leaves fewer to come. -/
theorem stages_shrink (place : GetClientPlace) (members : ClientMembers σ) (world : σ)
    (further : GetClientPlace) (left : ClientMembers σ) (after : σ)
    (staged : sources.getClientBody.stage place members world = (.more further, left, after)) :
    stagesLeft further < stagesLeft place := by
  cases place with
  | checking =>
    simp only [getClientBody, getClientStage] at staged
    split at staged
    · cases staged
    · split at staged
      · cases staged
      · cases staged
        decide
  | connected =>
    simp only [getClientBody, getClientStage] at staged
    split at staged
    · cases staged
    · cases staged
      decide
  | authorizing =>
    simp only [getClientBody, getClientStage] at staged
    split at staged
    · cases staged
    · split at staged <;> cases staged

/-! ## References -/

/-- Every client that a call has returned is the one that the transaction owns, and refers
to the HTTP client that it owns. While a client is being built there is none. -/
def Owned (place : Option GetClientPlace) (members : ClientMembers σ)
    (ended : List (T × Except Exception (ClientObject σ))) : Prop :=
  (∀ thread client, (thread, .ok client) ∈ ended → members.client = some client) ∧
  (∀ client, members.client = some client → client.http = members.http ∧ members.http.isSome) ∧
  (place = some .connected ∨ place = some .authorizing →
    members.client = none ∧ members.http.isSome)

/-- A call that fails returns no reference. -/
theorem owned_failed (members left : ClientMembers σ) (thread : T) (error : Exception)
    (ended : List (T × Except Exception (ClientObject σ)))
    (returned : ∀ thread client, (thread, Except.ok client) ∈ ended → members.client = some client)
    (kept : ∀ client, left.client = some client → client.http = left.http ∧ left.http.isSome)
    (same : left.client = members.client) :
    Owned none left (ended ++ [(thread, .error error)]) := by
  refine ⟨?_, kept, by simp⟩
  intro other client member
  have earlier : (other, Except.ok client) ∈ ended := by simpa using member
  rw [same]
  exact returned other client earlier

/-- Every stage leaves the client with the objects that it was built from. -/
theorem owned_keeps : Keeps (T := T) sources.getClientBody Owned where
  taken members ended owned := ⟨owned.1, owned.2.1, by simp [getClientBody]⟩
  more place members world ended further left after owned staged := by
    obtain ⟨returned, kept, building⟩ := owned
    cases place with
    | checking =>
      simp only [getClientBody, getClientStage] at staged
      split at staged
      · cases staged
      · rename_i missing
        split at staged
        · cases staged
        · cases staged
          exact ⟨returned, by simp [missing], fun _ => ⟨missing, rfl⟩⟩
    | connected =>
      obtain ⟨missing, connected⟩ := building (.inl rfl)
      simp only [getClientBody, getClientStage] at staged
      split at staged
      · cases staged
      · cases staged
        exact ⟨returned, by simp [missing], fun _ => ⟨missing, connected⟩⟩
    | authorizing =>
      simp only [getClientBody, getClientStage] at staged
      split at staged
      · cases staged
      · split at staged <;> cases staged
  done place members world ended answer left after thread owned staged := by
    obtain ⟨returned, kept, building⟩ := owned
    cases place with
    | checking =>
      simp only [getClientBody, getClientStage] at staged
      split at staged
      · rename_i client found
        cases staged
        refine ⟨?_, kept, by simp⟩
        intro other reference member
        rcases List.mem_append.mp member with earlier | now
        · exact returned other reference earlier
        · simp only [List.mem_singleton, Prod.mk.injEq, Except.ok.injEq] at now
          rw [found, now.2]
      · split at staged
        · cases staged
          exact owned_failed members members thread _ ended returned kept rfl
        · cases staged
    | connected =>
      simp only [getClientBody, getClientStage] at staged
      split at staged
      · cases staged
        exact owned_failed members members thread _ ended returned kept rfl
      · cases staged
    | authorizing =>
      obtain ⟨missing, connected⟩ := building (.inr rfl)
      simp only [getClientBody, getClientStage] at staged
      split at staged
      · cases staged
        exact owned_failed members members thread _ ended returned kept rfl
      · split at staged
        · cases staged
          exact owned_failed members _ thread _ ended returned (by simp [missing]) rfl
        · cases staged
          refine ⟨?_, by simp [connected], by simp⟩
          intro other reference member
          rcases List.mem_append.mp member with earlier | now
          · have built := returned other reference earlier
            simp [missing] at built
          · simp only [List.mem_singleton, Prod.mk.injEq, Except.ok.injEq] at now
            rw [now.2]

/-! ## The same calls, one after another -/

/-- A whole call that finds a client or none: its HTTP client could not be created, or it
answers as `getClient` does alone. The provider that an earlier call left is not read. -/
def Answers (client : Option (GoogleCalendarClient σ))
    (answer : Except Exception (GoogleCalendarClient σ))
    (left : Option (GoogleCalendarClient σ)) : Prop :=
  (∃ world error, sources.connect world = .error error ∧
    client = none ∧ answer = .error error ∧ left = none) ∨
  ∃ auth looked asked kept after,
    CalendarTransaction.getClient sources.engine sources.library sources.http sources.version
      (sources.secret looked) ⟨auth, client⟩ asked = (answer, kept, after) ∧ kept.client = left

/-- Calls made one after another, from the client that the first of them finds. -/
inductive AnswersInTurn (client : Option (GoogleCalendarClient σ)) :
    List (Except Exception (GoogleCalendarClient σ)) → Option (GoogleCalendarClient σ) → Prop where
  | none : AnswersInTurn client [] client
  | next {answers : List (Except Exception (GoogleCalendarClient σ))}
      {between left : Option (GoogleCalendarClient σ)}
      {answer : Except Exception (GoogleCalendarClient σ)} :
      AnswersInTurn client answers between → sources.Answers between answer left →
      AnswersInTurn client (answers ++ [answer]) left

/-- The client that the members hold, apart from which object it is. -/
def known (members : ClientMembers σ) : Option (GoogleCalendarClient σ) :=
  members.client.map ClientObject.value

/-- What the stages before a place have made of the members. -/
def Standing (origin : ClientMembers σ) : GetClientPlace → ClientMembers σ → Prop
  | .checking, members => members = origin
  | .connected, members => origin.client = none ∧ members.client = none
  | .authorizing, members => origin.client = none ∧ members.client = none ∧
      ∃ looked, sources.createAuthFromSecret members.http (members.serial - 1) looked =
        .ok members.auth

/-- A call that is under way stands at its stage. -/
theorem reaches_standing (origin : ClientMembers σ) (place : GetClientPlace)
    (members : ClientMembers σ) (reached : Reaches sources.getClientBody origin place members) :
    sources.Standing origin place members := by
  induction reached with
  | start => rfl
  | @further place next shared left world after _ staged ih =>
    cases place with
    | checking =>
      have same : shared = origin := ih
      subst same
      simp only [getClientBody, getClientStage] at staged
      split at staged
      · cases staged
      · rename_i missing
        split at staged
        · cases staged
        · cases staged
          exact ⟨missing, missing⟩
    | connected =>
      obtain ⟨missing, still⟩ := ih
      simp only [getClientBody, getClientStage] at staged
      split at staged
      · cases staged
      · rename_i auth created
        cases staged
        exact ⟨missing, still, world, by simpa using created⟩
    | authorizing =>
      simp only [getClientBody, getClientStage] at staged
      split at staged
      · cases staged
      · split at staged <;> cases staged

/-- The secret that a provider was made from. -/
theorem created_cases (http : Option Nat) (serial : Nat) (world : σ) (auth : Option AuthObject)
    (created : sources.createAuthFromSecret http serial world = .ok auth) :
    (sources.secret world = .ok none ∧ auth = none) ∨
    ∃ kv provider, sources.secret world = .ok (some kv) ∧ buildProvider kv = .ok provider ∧
      auth = some ⟨serial, http, provider⟩ := by
  simp only [createAuthFromSecret] at created
  split at created
  · cases created
  · rename_i found
    cases created
    exact .inl ⟨found, rfl⟩
  · rename_i kv found
    cases built : buildProvider kv with
    | error error =>
      rw [built] at created
      cases created
    | ok provider =>
      rw [built] at created
      cases created
      exact .inr ⟨kv, provider, found, built, rfl⟩

/-- A provider that cannot be made ends `getClient` alone with the same error. -/
theorem refused_alone (http : Option Nat) (serial : Nat) (world : σ) (error : Exception)
    (refused : sources.createAuthFromSecret http serial world = .error error)
    (transaction : CalendarTransaction σ) (missing : transaction.client = none) :
    CalendarTransaction.getClient sources.engine sources.library sources.http sources.version
      (sources.secret world) transaction world = (.error error, transaction, world) := by
  simp only [createAuthFromSecret] at refused
  split at refused
  · rename_i failed
    cases refused
    simp [CalendarTransaction.getClient, missing, failed]
  · cases refused
  · rename_i kv found
    cases built : buildProvider kv with
    | error other =>
      rw [built] at refused
      cases refused
      simp [CalendarTransaction.getClient, missing, found, built]
    | ok provider =>
      rw [built] at refused
      cases refused

/-- A call that runs alone answers as the members it found say. -/
theorem whole_answers (origin left : ClientMembers σ) (answer : Except Exception (ClientObject σ))
    (whole : Whole sources.getClientBody origin answer left) :
    sources.Answers (known origin) (answer.map ClientObject.value) (known left) := by
  obtain ⟨place, members, world, after, reached, staged⟩ := whole
  have standing := sources.reaches_standing origin place members reached
  cases place with
  | checking =>
    have same : members = origin := standing
    subst same
    simp only [getClientBody, getClientStage] at staged
    split at staged
    · rename_i client found
      cases staged
      right
      exact ⟨none, world, world, ⟨none, some client.value⟩, world,
        by simp [CalendarTransaction.getClient, known, found, Except.map], by simp [known, found]⟩
    · rename_i missing
      split at staged
      · rename_i error refused
        cases staged
        left
        exact ⟨world, error, refused, by simp [known, missing], rfl, by simp [known, missing]⟩
      · cases staged
  | connected =>
    obtain ⟨missing, still⟩ := standing
    simp only [getClientBody, getClientStage] at staged
    split at staged
    · rename_i error refused
      cases staged
      right
      refine ⟨none, world, world, ⟨none, none⟩, world, ?_, by simp [known, still]⟩
      rw [show known origin = none by simp [known, missing]]
      exact sources.refused_alone _ _ _ _ refused ⟨none, none⟩ rfl
    · cases staged
  | authorizing =>
    obtain ⟨missing, still, looked, created⟩ := standing
    right
    rw [show known origin = none by simp [known, missing]]
    rcases sources.created_cases _ _ _ _ created with ⟨found, absent⟩ |
      ⟨kv, provider, found, built, made⟩
    · simp only [getClientBody, getClientStage, absent] at staged
      cases staged
      refine ⟨none, looked, world, ⟨none, none⟩, world, ?_, by simp [known, still]⟩
      simp [CalendarTransaction.getClient, found, noSecret, Except.map]
    · simp only [getClientBody, getClientStage, made] at staged
      split at staged
      · rename_i error asked later failed
        cases staged
        refine ⟨none, looked, world, ⟨some asked, none⟩, after, ?_, by simp [known, still]⟩
        simp [CalendarTransaction.getClient, CalendarTransaction.buildClient, found, built, failed,
          Except.map]
      · rename_i authorization asked later answered
        cases staged
        let client : GoogleCalendarClient σ :=
          { http := sources.http.retrying.toHttpClient,
            headers := buildHeaders authorization sources.version }
        refine ⟨none, looked, world, ⟨some asked, some client⟩, after, ?_, by simp [known, client]⟩
        simp [CalendarTransaction.getClient, CalendarTransaction.buildClient, found, built,
          answered, Except.map, client]

/-- Calls that run one after another answer in turn. -/
theorem sequence_answers (origin left : ClientMembers σ)
    (answers : List (Except Exception (ClientObject σ)))
    (sequence : Sequence sources.getClientBody origin answers left) :
    sources.AnswersInTurn (known origin) (answers.map (Except.map ClientObject.value))
      (known left) := by
  induction sequence with
  | none => exact .none
  | next _ whole ih =>
    rw [List.map_append]
    exact .next ih (sources.whole_answers _ _ _ whole)

end ClientSources

open ClientSources

/-- Threads that ask for the client of a fresh transaction, in any order and whatever changes
between their stages. Every client that a call has returned is the one that the transaction owns
and refers to the HTTP client that it owns, so that no reference dangles; the calls that have
ended answer as `getClient` does when they are made one after another, in the order in which they
ended; and whoever waits for the lock can get through. -/
theorem CalendarTransaction.concurrent_calls [DecidableEq T] (sources : ClientSources σ)
    (world : σ) (acts : List (Act T σ))
    (scene : Scene T GetClientPlace (ClientMembers σ) σ (Except Exception (ClientObject σ)))
    (followed : follow sources.getClientBody ⟨{}, world, none, [], []⟩ acts = some scene) :
    (∀ thread client, (thread, .ok client) ∈ scene.ended →
      scene.shared.client = some client ∧
        client.http = scene.shared.http ∧ scene.shared.http.isSome) ∧
    (∃ left, sources.AnswersInTurn none
        (scene.ended.map (fun call => call.2.map ClientObject.value)) left ∧
      (scene.holder = none → left = scene.shared.client.map ClientObject.value)) ∧
    (∀ thread ∈ scene.waiting, ∃ more later earlier answer,
      follow sources.getClientBody scene more = some later ∧
      later.ended = scene.ended ++ earlier ++ [(thread, answer)]) := by
  have owned := follow_keeps sources.owned_keeps _ _ acts followed (by simp [Owned])
  have fresh : Sequential (T := T) sources.getClientBody ({} : ClientMembers σ) none {} [] :=
    ⟨{}, .none, rfl⟩
  have sequential :=
    follow_keeps (sequential_keeps sources.getClientBody {}) _ _ acts followed fresh
  refine ⟨?_, ?_, ?_⟩
  · intro thread client returned
    have holds := owned.1 thread client returned
    exact ⟨holds, owned.2.1 client holds⟩
  · obtain ⟨settled, sequence, reached⟩ := sequential
    refine ⟨known settled, ?_, ?_⟩
    · simpa [known, List.map_map, Function.comp_def] using sources.sequence_answers _ _ _ sequence
    · intro free
      have same : scene.shared = settled := by simpa [free] using reached
      rw [same]
      rfl
  · intro thread waits
    exact gets_through sources.getClientBody stagesLeft sources.stages_shrink scene thread waits

/-! Three threads ask while no secret is there; it is created after the first of them failed. -/

/-- Sources whose world says whether there is a secret. -/
def tokenSources : ClientSources Bool where
  engine := .reading [] []
  library := ⟨fun _ _ => .ok [], fun _ => 0⟩
  http := ⟨⟨⟨fun _ there => (.ok ⟨200, "event"⟩, there)⟩, {}, fun _ there => there⟩,
    fun _ _ there => (.ok ⟨200, "token"⟩, there), fun _ => 0⟩
  version := ""
  connect := fun _ => .ok ()
  secret := fun there => .ok (if there then some ⟨"access_token", none, none, some "t"⟩ else none)

/-- Three threads that ask for the client, with their stages interleaved. -/
def threeAsk : List (Act Nat Bool) :=
  [.arrive 1, .enter 1, .arrive 2, .proceed, .arrive 3, .proceed, .proceed, .elsewhere true,
    .enter 3, .proceed, .proceed, .proceed, .enter 2, .proceed]

/-- All three calls end, and each that gets a client gets the one that is held, with its objects. -/
theorem CalendarTransaction.three_share_client : ∃ scene,
    follow tokenSources.getClientBody ⟨{}, false, none, [], []⟩ threeAsk = some scene ∧
    scene.ended.map Prod.fst = [1, 3, 2] ∧ scene.shared.client.isSome ∧
    ∀ thread client, (thread, .ok client) ∈ scene.ended →
      scene.shared.client = some client ∧
        client.http = scene.shared.http ∧ scene.shared.http.isSome :=
  ⟨_, rfl, rfl, rfl, (concurrent_calls tokenSources false threeAsk _ rfl).1⟩

end GoogleCalendar
