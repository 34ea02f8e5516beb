import GoogleCalendar.OAuthProvider
import GoogleCalendar.OAuthCapture
import GoogleCalendar.Library.Histories

/-!
# Runs of the OAuth provider

Secrets are created again and again, with one OAuth client or with several, and each
run finds what earlier ones have filed in the keychain. A run reads and writes the item
of its own client id only, so the runs of one client go as if no other client had run,
and a refresh token is only ever sent with the client id that it was granted to.
-/

namespace GoogleCalendar.OAuthRuns

open Library Histories OAuthCapture

/-! ## The keychain -/

section Store

variable {κ ω : Type} (items : SecItems κ ω) (held : κ → String → String → Option String)

/-- An operation on the item of one account: it leaves the items of the others, and what it makes
of its own goes by that item only. -/
structure OnItem (service account : String) (operation : κ → κ) : Prop where
  others : ∀ keychain other, other ≠ account →
    held (operation keychain) service other = held keychain service other
  own : ∀ keychain twin, held twin service account = held keychain service account →
    held (operation twin) service account = held (operation keychain) service account

/-- What the platform documents of generic passwords. An item is handed out as it is held, or not
at all; a deletion takes it away, or fails; an addition leaves the value, or fails. All three are
about the item of the given account. -/
structure Documented : Prop where
  copies : ∀ occasion service account keychain value,
    items.copyMatching occasion service account keychain = some value →
    held keychain service account = some value
  copiesOwn : ∀ occasion service account keychain twin,
    held twin service account = held keychain service account →
    items.copyMatching occasion service account twin =
      items.copyMatching occasion service account keychain
  deletes : ∀ occasion service account keychain,
    held (items.delete occasion service account keychain) service account = none ∨
      held (items.delete occasion service account keychain) service account =
        held keychain service account
  deletesOn : ∀ occasion service account,
    OnItem held service account (items.delete occasion service account)
  adds : ∀ occasion service account value keychain,
    held (items.add occasion service account value keychain) service account = some value ∨
      held (items.add occasion service account value keychain) service account =
        held keychain service account
  addsOn : ∀ occasion service account value,
    OnItem held service account (items.add occasion service account value)

variable {items held} (documented : Documented items held) (apple : Bool) (occasion : ω)
  (service account value : String)

include documented

/-- A save is about the item of its account. -/
theorem set_on_item :
    OnItem held service account (keychainSet items apple occasion service account value) := by
  have deletes := documented.deletesOn occasion service account
  have adds := documented.addsOn occasion service account value
  cases apple with
  | false => exact ⟨fun _ _ _ => rfl, fun _ _ same => same⟩
  | true =>
    constructor
    · intro keychain other apart
      exact (adds.others _ other apart).trans (deletes.others keychain other apart)
    · intro keychain twin same
      exact adds.own _ _ (deletes.own keychain twin same)

/-- What a save leaves is its value, or was there. -/
theorem set_source (keychain : κ) (token : String)
    (left : held (keychainSet items apple occasion service account value keychain) service account =
      some token) : token = value ∨ held keychain service account = some token := by
  cases apple with
  | false => exact .inr left
  | true =>
    simp only [keychainSet, if_true] at left
    rcases documented.adds occasion service account value
      (items.delete occasion service account keychain) with added | kept
    · exact .inl (Option.some.inj (left.symm.trans added))
    · rcases documented.deletes occasion service account keychain with gone | stays
      · rw [kept, gone] at left
        cases left
      · exact .inr (by rw [← stays, ← kept, left])

end Store

/-! ## A run and the item of its client -/

variable {κ ω : Type} (engine : Engine) (crypto : OAuthCrypto) (items : SecItems κ ω)
  (held : κ → String → String → Option String) (apple : Bool)

/-- The refresh token that comes with the answer to a code. -/
def granted (run : OAuthRun ω) : Option String :=
  match readTokenResponse engine run.exchangeAnswer with
  | .error _ => none
  | .ok json => (json.find "refresh_token").bind (fun token => token.getString.toOption)

/-- The keychain that a run leaves which has exchanged its code. -/
def filed (run : OAuthRun ω) (clientId : String) (keychain : κ) : κ :=
  match granted engine run with
  | none => keychain
  | some token =>
      keychainSet items apple run.keychainOccasion keychainService clientId token keychain

/-- Filing the tokens of an answer saves the one that is granted, and reads the other whatever
the keychain holds. -/
theorem file_effect (run : OAuthRun ω) (clientId : String) :
    ∃ result, ∀ keychain, fileTokens engine items apple run clientId keychain =
      (result, filed engine items apple run clientId keychain) := by
  simp only [fileTokens, filed, granted]
  cases readTokenResponse engine run.exchangeAnswer with
  | error error => exact ⟨_, fun keychain => rfl⟩
  | ok json =>
    let access := ((json.find "access_token").getD .null).getString.mapError Exception.json
    cases found : json.find "refresh_token" with
    | none => exact ⟨access, fun keychain => by simp [found, access]⟩
    | some token =>
      cases read : token.getString with
      | error error =>
        exact ⟨.error (.json error), fun keychain => by simp [found, read, Except.toOption]⟩
      | ok text =>
        exact ⟨access, fun keychain => by simp [found, read, access, Except.toOption]⟩

/-- The browser flow either does not exchange a code and leaves the keychain as it is, or
sends the form of its session and files what is granted. Which one, and with what
result, does not depend on the keychain. -/
theorem browser_cases (run : OAuthRun ω) (clientId : String) :
    (∀ keychain, authorizeInBrowser engine crypto items apple run clientId keychain = none) ∨
    (∃ error visited, ∀ keychain,
      authorizeInBrowser engine crypto items apple run clientId keychain =
        some (⟨.error error, [], visited⟩, keychain)) ∨
    ∃ drawn port flow params result,
      run.verifierBytes = some drawn ∧ bindListener run = .ok port ∧
      OAuthFlow.run {} run.actions = some flow ∧
      (sessionOf run clientId (String.ofList (base64UrlEncode drawn.toList)) port).tokenExchange
        flow = some (.ok params) ∧
      ∀ keychain, authorizeInBrowser engine crypto items apple run clientId keychain =
        some (⟨result, [params], some (authRequestUrl crypto
            (sessionOf run clientId (String.ofList (base64UrlEncode drawn.toList)) port))⟩,
          filed engine items apple run clientId keychain) := by
  simp only [authorizeInBrowser]
  cases drew : run.verifierBytes with
  | none => exact .inr (.inl ⟨_, _, fun keychain => rfl⟩)
  | some drawn =>
    simp only [generatePkceVerifier]
    cases bound : bindListener run with
    | error error => exact .inr (.inl ⟨_, _, fun keychain => rfl⟩)
    | ok port =>
      simp only
      cases ran : OAuthFlow.run {} run.actions with
      | none => exact .inl (fun keychain => rfl)
      | some flow =>
        simp only [Option.bind_some]
        cases sent : (sessionOf run clientId (String.ofList (base64UrlEncode drawn.toList))
            port).tokenExchange flow with
        | none => exact .inl (fun keychain => rfl)
        | some exchange =>
          cases exchange with
          | error error => exact .inr (.inl ⟨_, _, fun keychain => rfl⟩)
          | ok params =>
            obtain ⟨result, files⟩ := file_effect engine items apple run clientId
            refine .inr (.inr ⟨drawn, port, flow, params, result, rfl, rfl, rfl, sent, ?_⟩)
            intro keychain
            simp only [files]

/-- The form of a refresh that a run sends first, when it finds a token. -/
def refreshForm (run : OAuthRun ω) (clientId : String) (token : String) :
    OrderedMap String String :=
  refreshParams clientId ((setVariable run.environment.clientSecret).getD "") token

/-- A run with a client id sends the token that it finds. If no access token comes back, it goes
on to the browser. -/
theorem run_cases (run : OAuthRun ω) (clientId : String)
    (named : setVariable run.environment.clientId = some clientId) (keychain : κ) :
    (∃ token access, cachedRefresh items apple run clientId keychain = some token ∧
      initiateOAuthFlow engine crypto items apple run keychain =
        some (⟨.ok access, [refreshForm run clientId token], none⟩, keychain)) ∨
    initiateOAuthFlow engine crypto items apple run keychain =
      (authorizeInBrowser engine crypto items apple run clientId keychain).map (fun ended =>
        (⟨ended.1.result, (cachedRefresh items apple run clientId keychain).toList.map
          (refreshForm run clientId) ++ ended.1.requests, ended.1.visited⟩, ended.2)) := by
  simp only [initiateOAuthFlow, named]
  cases cachedRefresh items apple run clientId keychain with
  | none => exact .inr (by simp)
  | some token =>
    cases refreshAccessToken engine run.refreshAnswer with
    | ok access => exact .inl ⟨token, access, rfl, rfl⟩
    | error error => exact .inr rfl

section Item

variable {items held} (documented : Documented items held)

include documented

/-- What a run finds is the item of its client, or nothing. -/
theorem cached_item (run : OAuthRun ω) (clientId : String) (keychain : κ) (token : String)
    (found : cachedRefresh items apple run clientId keychain = some token) :
    held keychain keychainService clientId = some token ∧ token ≠ "" := by
  simp only [cachedRefresh, keychainGet, Option.filter_eq_some_iff, decide_eq_true_eq] at found
  obtain ⟨item, present⟩ := found
  split at item
  · exact ⟨documented.copies _ _ _ keychain token item, present⟩
  · cases item

/-- Filing is about the item of the client. -/
theorem filed_on_item (run : OAuthRun ω) (clientId : String) :
    OnItem held keychainService clientId (filed engine items apple run clientId) := by
  cases grants : granted engine run with
  | none => exact ⟨fun _ _ _ => by simp [filed, grants], fun _ _ same => by simpa [filed, grants]⟩
  | some token =>
    have sets := set_on_item documented apple run.keychainOccasion keychainService clientId token
    exact ⟨fun keychain => by simpa only [filed, grants] using sets.others keychain,
      fun keychain => by simpa only [filed, grants] using sets.own keychain⟩

/-- What an exchange files was granted by it, or was there. -/
theorem filed_source (run : OAuthRun ω) (clientId : String) (keychain : κ) (token : String)
    (left : held (filed engine items apple run clientId keychain) keychainService clientId =
      some token) :
    held keychain keychainService clientId = some token ∨ granted engine run = some token := by
  simp only [filed] at left
  cases grants : granted engine run with
  | none =>
    rw [grants] at left
    exact .inl left
  | some value =>
    rw [grants] at left
    rcases set_source documented apple run.keychainOccasion keychainService clientId value keychain
      token left with rfl | kept
    · exact .inr rfl
    · exact .inl kept

variable (run : OAuthRun ω) (clientId : String) (keychain twin : κ)
  (same : held twin keychainService clientId = held keychain keychainService clientId)

include same

/-- A run finds the same on every keychain with the same item of its client. -/
theorem cached_same : cachedRefresh items apple run clientId twin =
    cachedRefresh items apple run clientId keychain := by
  simp only [cachedRefresh, keychainGet,
    documented.copiesOwn run.keychainOccasion keychainService clientId keychain twin same]

/-- The browser flow is the same on every keychain with the same item of its client, and
writes that item only. -/
theorem browser_local (outcome : OAuthOutcome) (after : κ)
    (ran : authorizeInBrowser engine crypto items apple run clientId keychain =
      some (outcome, after)) :
    (∃ left, authorizeInBrowser engine crypto items apple run clientId twin = some (outcome, left) ∧
      held left keychainService clientId = held after keychainService clientId) ∧
    ∀ other, other ≠ clientId →
      held after keychainService other = held keychain keychainService other := by
  rcases browser_cases engine crypto items apple run clientId with waits |
    ⟨error, visited, fails⟩ | ⟨drawn, port, flow, params, result, -, -, -, -, exchanges⟩
  · rw [waits keychain] at ran
    cases ran
  · rw [fails keychain] at ran
    obtain ⟨rfl, rfl⟩ := Prod.mk.inj (Option.some.inj ran)
    exact ⟨⟨twin, fails twin, same⟩, fun _ _ => rfl⟩
  · rw [exchanges keychain] at ran
    obtain ⟨rfl, rfl⟩ := Prod.mk.inj (Option.some.inj ran)
    have files := filed_on_item engine apple documented run clientId
    exact ⟨⟨_, exchanges twin, files.own keychain twin same⟩, files.others keychain⟩

/-- So is the whole run. -/
theorem run_local (named : setVariable run.environment.clientId = some clientId)
    (outcome : OAuthOutcome) (after : κ)
    (ran : initiateOAuthFlow engine crypto items apple run keychain = some (outcome, after)) :
    (∃ left, initiateOAuthFlow engine crypto items apple run twin = some (outcome, left) ∧
      held left keychainService clientId = held after keychainService clientId) ∧
    ∀ other, other ≠ clientId →
      held after keychainService other = held keychain keychainService other := by
  simp only [initiateOAuthFlow, named,
    cached_same apple documented run clientId keychain twin same] at ran ⊢
  cases found : cachedRefresh items apple run clientId keychain with
  | none =>
    rw [found] at ran
    exact browser_local engine crypto apple documented run clientId keychain twin same outcome after
      ran
  | some token =>
    rw [found] at ran
    cases answered : refreshAccessToken engine run.refreshAnswer with
    | ok access =>
      rw [answered] at ran
      obtain ⟨rfl, rfl⟩ := Prod.mk.inj (Option.some.inj ran)
      exact ⟨⟨twin, rfl, same⟩, fun _ _ => rfl⟩
    | error error =>
      rw [answered] at ran
      obtain ⟨⟨ended, left⟩, flowed, rest⟩ := Option.map_eq_some_iff.mp ran
      obtain ⟨rfl, rfl⟩ := Prod.mk.inj rest
      obtain ⟨⟨left, again, ends⟩, others⟩ := browser_local engine crypto apple documented run
        clientId keychain twin same ended _ flowed
      exact ⟨⟨left, by simp only [again, Option.map_some], ends⟩, others⟩

end Item

/-! ## Histories of runs -/

/-- A run of the provider, or the deletion of an item with the tool of the keychain. -/
inductive KeychainStep (ω : Type) where
  | initiate (run : OAuthRun ω)
  | forget (occasion : ω) (clientId : String)

/-- The client whose item a step is about. A run without a client id has none. -/
def KeychainStep.client : KeychainStep ω → Option String
  | .initiate run => setVariable run.environment.clientId
  | .forget _ clientId => some clientId

/-- A step on the keychain, and what it sends and answers. -/
def takeStep : KeychainStep ω → κ → Option (Option OAuthOutcome × κ)
  | .initiate run, keychain =>
    (initiateOAuthFlow engine crypto items apple run keychain).map (fun ended =>
      (some ended.1, ended.2))
  | .forget occasion clientId, keychain =>
      some (none, items.delete occasion keychainService clientId keychain)

/-- A step that initiates is a run of the provider. -/
theorem run_taken (run : OAuthRun ω) (keychain after : κ) (outcome : Option OAuthOutcome)
    (took : takeStep engine crypto items apple (.initiate run) keychain = some (outcome, after)) :
    ∃ ended, outcome = some ended ∧
      initiateOAuthFlow engine crypto items apple run keychain = some (ended, after) := by
  obtain ⟨⟨ended, left⟩, ran, rest⟩ := Option.map_eq_some_iff.mp took
  obtain ⟨rfl, rfl⟩ := Prod.mk.inj rest
  exact ⟨ended, rfl, ran⟩

/-- A run without a client id leaves the keychain as it is. -/
theorem unnamed_step (step : KeychainStep ω) (unnamed : step.client = none) (keychain : κ)
    (outcome : Option OAuthOutcome) (after : κ)
    (took : takeStep engine crypto items apple step keychain = some (outcome, after)) :
    after = keychain := by
  cases step with
  | initiate run =>
    obtain ⟨ended, rfl, ran⟩ := run_taken engine crypto items apple run keychain after outcome took
    simp only [initiateOAuthFlow, show setVariable run.environment.clientId = none from unnamed]
      at ran
    exact (Prod.mk.inj (Option.some.inj ran)).2.symm
  | forget occasion account => cases unnamed

section Step

variable {items held} (documented : Documented items held)

include documented

/-- A step writes the item of its client only, by what that item was. -/
theorem step_local (step : KeychainStep ω) (clientId : String)
    (named : step.client = some clientId) (keychain twin : κ)
    (same : held twin keychainService clientId = held keychain keychainService clientId)
    (outcome : Option OAuthOutcome) (after : κ)
    (took : takeStep engine crypto items apple step keychain = some (outcome, after)) :
    (∃ left, takeStep engine crypto items apple step twin = some (outcome, left) ∧
      held left keychainService clientId = held after keychainService clientId) ∧
    ∀ other, other ≠ clientId →
      held after keychainService other = held keychain keychainService other := by
  cases step with
  | initiate run =>
    obtain ⟨ended, rfl, ran⟩ := run_taken engine crypto items apple run keychain after outcome took
    obtain ⟨⟨left, again, ends⟩, others⟩ := run_local engine crypto apple documented run clientId
      keychain twin same named ended after ran
    exact ⟨⟨left, by simp only [takeStep, again, Option.map_some], ends⟩, others⟩
  | forget occasion account =>
    obtain rfl := Option.some.inj named
    obtain ⟨rfl, rfl⟩ := Prod.mk.inj (Option.some.inj took)
    have deletes := documented.deletesOn occasion keychainService account
    exact ⟨⟨_, rfl, deletes.own keychain twin same⟩, deletes.others keychain⟩

/-- The steps of others leave the item of a client as it is. -/
theorem step_frame (clientId : String) (step : KeychainStep ω) (keychain : κ)
    (outcome : Option OAuthOutcome) (after : κ) (foreign : step.client ≠ some clientId)
    (took : takeStep engine crypto items apple step keychain = some (outcome, after)) :
    held after keychainService clientId = held keychain keychainService clientId := by
  cases named : step.client with
  | none => rw [unnamed_step engine crypto items apple step named keychain outcome after took]
  | some account =>
    obtain ⟨-, others⟩ := step_local engine crypto apple documented step account named keychain
      keychain rfl outcome after took
    apply others
    intro same
    exact foreign (by rw [named, same])

end Step

/-! ## Where a refresh token comes from -/

/-- An exchange sends a code, its client id and no refresh token. -/
theorem exchange_form (session : OAuthSession) (code : String) :
    (session.exchangeParams code).find "code" = some code ∧
      (session.exchangeParams code).find "client_id" = some session.clientId ∧
      (session.exchangeParams code).find "refresh_token" = none := by
  refine ⟨params_code session code, ?_, ?_⟩
  · simp only [OAuthSession.exchangeParams]
    split <;> simp [OrderedMap.find_insert]
  · simp only [OAuthSession.exchangeParams]
    split <;> simp [OrderedMap.find_insert]

/-- A refresh sends the token with the client id, and no code. -/
theorem refresh_form (clientId clientSecret token : String) :
    (refreshParams clientId clientSecret token).find "client_id" = some clientId ∧
      (refreshParams clientId clientSecret token).find "refresh_token" = some token ∧
      (refreshParams clientId clientSecret token).find "code" = none := by
  simp only [refreshParams]
  refine ⟨?_, ?_, ?_⟩ <;> split <;> simp [OrderedMap.find_insert]

/-- A form that is sent is that of a code which has passed the checks. -/
theorem form_of_exchange (session : OAuthSession) (flow : OAuthFlow)
    (params : OrderedMap String String) (sent : session.tokenExchange flow = some (.ok params)) :
    params = session.exchangeParams flow.captured.code := by
  simp only [OAuthSession.tokenExchange] at sent
  split at sent
  · cases sent
  · cases sent
  · simp only [OAuthSession.checkCaptured] at sent
    split at sent
    · cases sent
    · split at sent
      · cases sent
      · split at sent
        · cases sent
        · exact (Except.ok.inj (Option.some.inj sent)).symm
  · cases sent

/-- A run has exchanged a code. -/
def Exchanges (outcome : OAuthOutcome) : Prop :=
  ∃ form ∈ outcome.requests, form.find "code" ≠ none

/-- The forms of a run: the token it finds, and the code of its session. The item of its client
is changed only by an exchange, which files what it was granted. -/
theorem run_sends {items : SecItems κ ω} {held : κ → String → String → Option String}
    (documented : Documented items held) (run : OAuthRun ω) (clientId : String)
    (named : setVariable run.environment.clientId = some clientId) (keychain : κ)
    (outcome : OAuthOutcome) (after : κ)
    (ran : initiateOAuthFlow engine crypto items apple run keychain = some (outcome, after)) :
    (∀ form ∈ outcome.requests, form.find "client_id" = some clientId ∧
      ∀ token, form.find "refresh_token" = some token →
        held keychain keychainService clientId = some token) ∧
    (after = keychain ∨
      Exchanges outcome ∧ after = filed engine items apple run clientId keychain) := by
  have refreshes : ∀ form ∈ (cachedRefresh items apple run clientId keychain).toList.map
      (refreshForm run clientId), form.find "client_id" = some clientId ∧
        ∀ token, form.find "refresh_token" = some token →
          held keychain keychainService clientId = some token := by
    intro form member
    obtain ⟨found, among, rfl⟩ := List.mem_map.mp member
    obtain ⟨client, carried, -⟩ :=
      refresh_form clientId ((setVariable run.environment.clientSecret).getD "") found
    refine ⟨client, fun token sends => ?_⟩
    obtain rfl := Option.some.inj (carried.symm.trans sends)
    exact (cached_item apple documented run clientId keychain found (by simpa using among)).1
  rcases run_cases engine crypto items apple run clientId named keychain with
    ⟨token, access, found, silent⟩ | browser
  · rw [silent] at ran
    obtain ⟨rfl, rfl⟩ := Prod.mk.inj (Option.some.inj ran)
    rw [found] at refreshes
    exact ⟨refreshes, .inl rfl⟩
  · rw [browser] at ran
    obtain ⟨⟨ended, left⟩, flowed, rest⟩ := Option.map_eq_some_iff.mp ran
    obtain ⟨rfl, rfl⟩ := Prod.mk.inj rest
    rcases browser_cases engine crypto items apple run clientId with waits |
      ⟨error, visited, fails⟩ | ⟨drawn, port, flow, params, result, -, -, -, sent, exchanges⟩
    · rw [waits] at flowed
      cases flowed
    · rw [fails] at flowed
      obtain ⟨rfl, rfl⟩ := Prod.mk.inj (Option.some.inj flowed)
      exact ⟨by simpa using refreshes, .inl rfl⟩
    · rw [exchanges] at flowed
      obtain ⟨rfl, rfl⟩ := Prod.mk.inj (Option.some.inj flowed)
      have shape := form_of_exchange _ flow params sent
      obtain ⟨code, client, refreshless⟩ := exchange_form (sessionOf run clientId
        (String.ofList (base64UrlEncode drawn.toList)) port) flow.captured.code
      rw [← shape] at code client refreshless
      refine ⟨?_, .inr ⟨⟨params, by simp, by simp [code]⟩, rfl⟩⟩
      intro form member
      rcases List.mem_append.mp member with early | late
      · exact refreshes form early
      · obtain rfl := List.mem_singleton.mp late
        refine ⟨client, fun token sends => ?_⟩
        rw [refreshless] at sends
        cases sends

/-- A run among the past ones with this client id has exchanged a code and was granted the
token. -/
def Granted (past : List (KeychainStep ω × Option OAuthOutcome)) (clientId token : String) : Prop :=
  ∃ run outcome, (KeychainStep.initiate run, some outcome) ∈ past ∧
    setVariable run.environment.clientId = some clientId ∧ Exchanges outcome ∧
    granted engine run = some token

/-- Every item of the keychain was there at first or was granted to its client. -/
def Sourced (first : κ) (past : List (KeychainStep ω × Option OAuthOutcome)) (keychain : κ) :
    Prop :=
  ∀ clientId token, held keychain keychainService clientId = some token →
    held first keychainService clientId = some token ∨ Granted engine past clientId token

/-- A token that was granted stays granted. -/
theorem granted_later (past : List (KeychainStep ω × Option OAuthOutcome))
    (entry : KeychainStep ω × Option OAuthOutcome) (clientId token : String)
    (before : Granted engine past clientId token) :
    Granted engine (past ++ [entry]) clientId token := by
  obtain ⟨run, outcome, member, rest⟩ := before
  exact ⟨run, outcome, List.mem_append_left _ member, rest⟩

/-- A step keeps the items sourced. -/
theorem step_sourced {items : SecItems κ ω} {held : κ → String → String → Option String}
    (documented : Documented items held) (first : κ)
    (past : List (KeychainStep ω × Option OAuthOutcome)) (keychain after : κ)
    (step : KeychainStep ω) (outcome : Option OAuthOutcome)
    (sourced : Sourced engine held first past keychain)
    (took : takeStep engine crypto items apple step keychain = some (outcome, after)) :
    Sourced engine held first (past ++ [(step, outcome)]) after := by
  intro clientId token left
  have before : held keychain keychainService clientId = some token →
      held first keychainService clientId = some token ∨
        Granted engine (past ++ [(step, outcome)]) clientId token := by
    intro kept
    apply (sourced clientId token kept).imp_right
    exact granted_later engine past (step, outcome) clientId token
  by_cases mine : step.client = some clientId
  · cases step with
    | initiate run =>
      obtain ⟨ended, rfl, ran⟩ := run_taken engine crypto items apple run keychain after outcome
        took
      obtain ⟨-, rfl | ⟨exchanged, rfl⟩⟩ :=
        run_sends engine crypto apple documented run clientId mine keychain ended after ran
      · exact before left
      · rcases filed_source engine apple documented run clientId keychain token left with
          kept | grants
        · exact before kept
        · exact .inr ⟨run, ended, by simp, mine, exchanged, grants⟩
    | forget occasion account =>
      obtain rfl := Option.some.inj mine
      obtain ⟨-, rfl⟩ := Prod.mk.inj (Option.some.inj took)
      rcases documented.deletes occasion keychainService account keychain with gone | stays
      · rw [gone] at left
        cases left
      · exact before (stays.symm.trans left)
  · rw [step_frame engine crypto apple documented clientId step keychain outcome after mine took]
      at left
    exact before left

/-! ## Two clients on one keychain -/

/-- A keychain in memory whose functions always succeed. An item that is there is not replaced. -/
def memoryItems : SecItems (String → String → Option String) Unit where
  copyMatching _ service account keychain := keychain service account
  delete _ service account keychain :=
    Function.update keychain service (Function.update (keychain service) account none)
  add _ service account value keychain :=
    if keychain service account = none then
      Function.update keychain service (Function.update (keychain service) account (some value))
    else keychain

/-- A keychain in memory behaves as documented. -/
theorem memory_documented : Documented memoryItems (fun keychain => keychain) where
  copies _ _ _ _ _ found := found
  copiesOwn _ _ _ _ _ same := same
  deletes _ service account keychain := .inl (by simp [memoryItems])
  deletesOn _ service account :=
    ⟨fun keychain other apart => by simp [memoryItems, apart],
      fun keychain twin same => by simp [memoryItems]⟩
  adds _ service account value keychain := by
    by_cases absent : keychain service account = none
    · exact .inl (by simp [memoryItems, absent])
    · exact .inr (by simp [memoryItems, absent])
  addsOn _ service account value := by
    constructor
    · intro keychain other apart
      by_cases absent : keychain service account = none
      · simp [memoryItems, absent, apart]
      · simp [memoryItems, absent]
    · intro keychain twin same
      by_cases absent : keychain service account = none
      · simp [memoryItems, same, absent]
      · simp [memoryItems, same, absent]

/-- A run whose browser comes back with a code at once. -/
def redirectedRun (clientId : String) (answer : String) : OAuthRun Unit where
  environment := ⟨some clientId, none, none⟩
  keychainOccasion := ()
  refreshAnswer := .ok ⟨200, "again"⟩
  exchangeAnswer := .ok ⟨200, answer⟩
  verifierBytes := some (Vector.replicate 32 0)
  stateDraws := Vector.replicate 32 0
  bindToPort := true
  bindToAnyPort := 8085
  actions := [.serve redirect, .wake, .stop]

/-- The answer to a token request. -/
def tokenDocument (access : String) (refresh : Option String) : Json :=
  .object (("access_token", .string access) ::
    refresh.toList.map (fun token => ("refresh_token", .string token)))

/-- An engine that reads the answers of the example. -/
def tokenEngine : Engine :=
  .reading [] [("work tokens", tokenDocument "work 1" (some "work refresh")),
    ("home tokens", tokenDocument "home 1" (some "home refresh")),
    ("again", tokenDocument "work 2" none)]

/-- A keychain without items. -/
def emptyKeychain : String → String → Option String := fun _ _ => none

/-- A digest of zeros. -/
def zeroDigest : OAuthCrypto := ⟨fun _ => List.replicate 32 0⟩

/-- The client for work runs, then the one for home, and the one for work again. -/
def workAndHome : List (KeychainStep Unit) :=
  [.initiate (redirectedRun "work" "work tokens"), .initiate (redirectedRun "home" "home tokens"),
    .initiate (redirectedRun "work" "work tokens")]

/-- The steps of one client end as if no other client had run, on any keychain that holds the
same item of that client. -/
theorem apps_do_not_collide (documented : Documented items held) (clientId : String)
    (steps : List (KeychainStep ω)) (keychain other final : κ)
    (outcomes : List (KeychainStep ω × Option OAuthOutcome))
    (same : held other keychainService clientId = held keychain keychainService clientId)
    (ran : history (takeStep engine crypto items apple) steps keychain = some (outcomes, final)) :
    ∃ last,
      history (takeStep engine crypto items apple)
          (steps.filter (fun step => step.client = some clientId)) other =
        some (outcomes.filter (fun entry => entry.1.client = some clientId), last) ∧
      held last keychainService clientId = held final keychainService clientId := by
  apply history_owned (takeStep engine crypto items apple)
    (fun step => step.client = some clientId)
    (fun keychain => held keychain keychainService clientId)
    _ _ steps keychain other final outcomes same ran
  · intro step state outcome next foreign took
    exact step_frame engine crypto apple documented clientId step state outcome next
      (by simpa using foreign) took
  · intro step state twin outcome next owned equal took
    exact (step_local engine crypto apple documented step clientId (by simpa using owned) state twin
      equal outcome next took).1

/-- The second run for work uses its refresh token, whether home runs between or not. -/
theorem work_beside_home : ∃ outcomes final last,
    history (takeStep tokenEngine zeroDigest memoryItems true) workAndHome emptyKeychain =
      some (outcomes, final) ∧
    final keychainService "work" = some "work refresh" ∧
    final keychainService "home" = some "home refresh" ∧
    history (takeStep tokenEngine zeroDigest memoryItems true)
        (workAndHome.filter (fun step => step.client = some "work")) emptyKeychain =
      some (outcomes.filter (fun entry => entry.1.client = some "work"), last) ∧
    last keychainService "work" = final keychainService "work" := by
  have ran : ∃ outcomes final,
      history (takeStep tokenEngine zeroDigest memoryItems true) workAndHome emptyKeychain =
        some (outcomes, final) ∧ final keychainService "work" = some "work refresh" ∧
      final keychainService "home" = some "home refresh" := ⟨_, _, rfl, rfl, rfl⟩
  obtain ⟨outcomes, final, went, work, home⟩ := ran
  obtain ⟨last, alone, same⟩ := apps_do_not_collide tokenEngine zeroDigest memoryItems
    (fun keychain => keychain) true memory_documented "work" workAndHome emptyKeychain emptyKeychain
    final outcomes rfl went
  exact ⟨outcomes, final, last, went, work, home, alone, same⟩

/-- A refresh token is sent with the client id of its run, and was filed for this client at
first or granted to it by an exchange of an earlier run. -/
theorem refresh_tokens_stay_with_client (documented : Documented items held)
    (steps : List (KeychainStep ω)) (keychain final : κ)
    (outcomes : List (KeychainStep ω × Option OAuthOutcome))
    (ran : history (takeStep engine crypto items apple) steps keychain = some (outcomes, final))
    (earlier later : List (KeychainStep ω × Option OAuthOutcome)) (run : OAuthRun ω)
    (outcome : OAuthOutcome)
    (split : outcomes = earlier ++ (.initiate run, some outcome) :: later)
    (form : OrderedMap String String) (sent : form ∈ outcome.requests) (token : String)
    (carried : form.find "refresh_token" = some token) :
    ∃ clientId, setVariable run.environment.clientId = some clientId ∧
      form.find "client_id" = some clientId ∧
      (held keychain keychainService clientId = some token ∨
        Granted engine earlier clientId token) := by
  have gives := history_gives (takeStep engine crypto items apple) (Sourced engine held keychain)
    (fun past action ended => ∀ run outcome, action = .initiate run → ended = some outcome →
      ∀ form ∈ outcome.requests, ∀ token, form.find "refresh_token" = some token →
        ∃ clientId, setVariable run.environment.clientId = some clientId ∧
          form.find "client_id" = some clientId ∧
          (held keychain keychainService clientId = some token ∨
            Granted engine past clientId token))
    (by
      intro past state action ended next sourced took
      refine ⟨?_, step_sourced engine crypto apple documented keychain past state next action ended
        sourced took⟩
      rintro run outcome rfl rfl form member token carries
      obtain ⟨ended, same, went⟩ :=
        run_taken engine crypto items apple run state next (some outcome) took
      obtain rfl := Option.some.inj same
      cases named : setVariable run.environment.clientId with
      | none =>
        simp only [initiateOAuthFlow, named] at went
        obtain ⟨rfl, -⟩ := Prod.mk.inj (Option.some.inj went)
        cases member
      | some clientId =>
        obtain ⟨client, found⟩ := (run_sends engine crypto apple documented run clientId named state
          outcome next went).1 form member
        exact ⟨clientId, rfl, client, sourced clientId token (found token carries)⟩)
    steps [] keychain final outcomes (fun _ _ found => .inl found) ran
  exact gives earlier (.initiate run) (some outcome) later split run outcome rfl rfl form sent token
    carried

/-- The token that the second run for work refreshes with was granted to its first run. -/
theorem work_refresh_granted : ∃ earlier run outcome form final,
    history (takeStep tokenEngine zeroDigest memoryItems true) workAndHome emptyKeychain =
      some (earlier ++ [(.initiate run, some outcome)], final) ∧
    form ∈ outcome.requests ∧ form.find "refresh_token" = some "work refresh" ∧
    Granted tokenEngine earlier "work" "work refresh" := by
  have ran : ∃ earlier run outcome form final,
      history (takeStep tokenEngine zeroDigest memoryItems true) workAndHome emptyKeychain =
        some (earlier ++ [(.initiate run, some outcome)], final) ∧
      form ∈ outcome.requests ∧ form.find "refresh_token" = some "work refresh" ∧
      setVariable run.environment.clientId = some "work" :=
    ⟨[_, _], _, _, _, _, rfl, List.mem_singleton_self _, rfl, rfl⟩
  obtain ⟨earlier, run, outcome, form, final, went, sent, carried, work⟩ := ran
  obtain ⟨clientId, named, -, source⟩ := refresh_tokens_stay_with_client tokenEngine zeroDigest
    memoryItems (fun keychain => keychain) true memory_documented workAndHome emptyKeychain final _
    went earlier [] run outcome rfl form sent "work refresh" carried
  obtain rfl := Option.some.inj (work.symm.trans named)
  refine ⟨earlier, run, outcome, form, final, went, sent, carried, ?_⟩
  cases source with
  | inl found => cases found
  | inr grants => exact grants

end GoogleCalendar.OAuthRuns
