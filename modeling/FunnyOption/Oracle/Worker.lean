import FunnyOption.Foundation.Run
import FunnyOption.Oracle.Contract
import FunnyOption.Settlement.Processor

/-!
# The oracle worker

The worker polls the markets that are due. For each it asks a provider for a price, writes what came of it to
`market_resolutions`, and publishes a `RESOLVED` event if the price gave an outcome. After that it writes the row
again, to note that the event is out. The event makes the settlement service resolve the market, which writes the
same row.

## The model

`World` has the tables, where the worker is in its poll, and a log. A step of the worker is one call: a read, an
upsert, a publish, or the question to the provider together with what the worker makes of the answer. The
transaction of the settlement service is one step. A store call can fail, also after the statement has run, and so
can a publish. The log has what an operator goes by: terminal errors that the worker stored, events that reached the
topic, and writes of others to a row.
-/

open Foundation

namespace FunnyOption.Oracle

open Settlement (ResolutionRecord)

/-! ## Processing one market -/

/-- The columns of a market and its category that only the worker reads. -/
structure MarketInfo where
  resolveAt : ℤ
  categoryKey : String
  metadata : String
  optionSchema : String
  deriving DecidableEq, Repr

/-- `EligibleMarket`. A market without a row has the empty one. -/
structure EligibleMarket where
  marketID : ℤ
  info : MarketInfo
  resolution : ResolutionRecord
  deriving DecidableEq, Repr

/-- `ResolutionUpdate`. -/
structure ResolutionUpdate where
  marketID : ℤ
  record : ResolutionRecord
  deriving DecidableEq, Repr

/-- What the provider answers. -/
inductive Answer where
  | failed (code : ErrorCode) (retryable : Bool)
  | nothing
  | observed (observation : Observation)

/-- The settings of a worker. -/
structure Config where
  codec : Codec
  /-- The signature of an observation, if the worker has a key and signing succeeds. -/
  attest : Contract → Observation → Option EvidenceAttestation
  /-- In nanoseconds. -/
  pollInterval : ℤ

/-- What is to be done for a market. -/
inductive Decision where
  | skip
  /-- Write an error. -/
  | report (update : ResolutionUpdate)
  /-- Write an observation and publish its outcome. -/
  | observe (update : ResolutionUpdate)
  /-- Publish the outcome of the observation that is in the row. -/
  | dispatch (update : ResolutionUpdate)

namespace Config

variable (cfg : Config)

/-- `retryDelaySeconds`. -/
def retryDelaySeconds : ℤ :=
  if cfg.pollInterval ≤ 0 then 5
  else if cfg.pollInterval / 1000000000 ≤ 0 then 1
  else cfg.pollInterval / 1000000000

/-- `resolverRefForMarket`. -/
def resolverRefForMarket (contract : Option Contract) (resolveAt : ℤ) : String :=
  match contract with
  | none => ""
  | some contract => contract.resolverRef resolveAt

/-- The row of an error. -/
def errorUpdate (nowUnix : ℤ) (market : EligibleMarket) (contract : Option Contract) (status : String)
    (nextRetryAt : ℤ) (code : ErrorCode) : ResolutionUpdate :=
  ⟨market.marketID, status, "", "ORACLE_PRICE", resolverRefForMarket contract market.info.resolveAt,
    match contract with
    | none => market.resolution.evidence
    | some contract =>
      buildErrorEvidence cfg.codec nowUnix contract market.info.resolveAt market.resolution.evidence nextRetryAt
        code⟩

/-- `writeTerminalResolution`. -/
def writeTerminalResolution (nowUnix : ℤ) (market : EligibleMarket) (contract : Option Contract)
    (code : ErrorCode) : Decision :=
  .report (cfg.errorUpdate nowUnix market contract "TERMINAL_ERROR" 0 code)

/-- `writeObservationError`. -/
def writeObservationError (nowUnix now : ℤ) (market : EligibleMarket) (contract : Contract) (code : ErrorCode)
    (retryable : Bool) : Decision :=
  if retryable ∧ now ≤ market.info.resolveAt + contract.metadata.oracle.window.afterSec then
    .report (cfg.errorUpdate nowUnix market (some contract) "RETRYABLE_ERROR" (now + cfg.retryDelaySeconds) code)
  else .report (cfg.errorUpdate nowUnix market (some contract) "TERMINAL_ERROR" 0 code)

/-- The row belongs to the contract and has an outcome. -/
def Owned (market : EligibleMarket) (contract : Contract) : Prop :=
  normalizeUpper market.resolution.resolverType = "ORACLE_PRICE" ∧
    trimSpace market.resolution.resolverRef = contract.resolverRef market.info.resolveAt ∧
    normalizeUpper market.resolution.resolvedOutcome ≠ ""

instance (market : EligibleMarket) (contract : Contract) : Decidable (Owned market contract) :=
  inferInstanceAs (Decidable (_ ∧ _ ∧ _))

/-- The part of `processMarket` that asks the provider. -/
def observeMarket (nowUnix now : ℤ) (market : EligibleMarket) (contract : Contract) : Answer → Decision
  | .failed code retryable => cfg.writeObservationError nowUnix now market contract code retryable
  | .nothing => cfg.writeObservationError nowUnix now market contract .sourceUnavailable true
  | .observed observation =>
    match contract.validateObservationTiming market.info.resolveAt observation with
    | some code =>
      cfg.writeObservationError nowUnix now market contract code (code = .priceNotInWindow ∨ code = .stalePrice)
    | none =>
      match contract.resolveOutcome observation.observedScaled with
      | none => cfg.writeTerminalResolution nowUnix market (some contract) .unsupportedRule
      | some outcome =>
        .observe ⟨market.marketID, "OBSERVED", outcome, "ORACLE_PRICE", contract.resolverRef market.info.resolveAt,
          buildObservationEvidence cfg.codec contract market.info.resolveAt observation market.resolution.evidence
            outcome (cfg.attest contract observation)⟩

/-- `processMarket`, up to its first write or publish. -/
def processMarket (nowUnix now : ℤ) (market : EligibleMarket) (answer : Answer) : Decision :=
  match cfg.codec.optionKeys market.info.optionSchema with
  | none => cfg.writeTerminalResolution nowUnix market none .invalidMetadata
  | some optionKeys =>
    match parseContract cfg.codec market.info.categoryKey optionKeys market.info.resolveAt market.info.metadata with
    | .error _ => cfg.writeTerminalResolution nowUnix market none .invalidMetadata
    | .ok none => .skip
    | .ok (some contract) =>
      if normalizeUpper market.resolution.status = "RESOLVED" then
        if Owned market contract then .skip
        else cfg.writeTerminalResolution nowUnix market (some contract) .conflictingObservation
      else if normalizeUpper market.resolution.status = "OBSERVED" then
        if Owned market contract then
          if dispatchPending cfg.codec market.resolution.evidence then
            .dispatch ⟨market.marketID, "OBSERVED", normalizeUpper market.resolution.resolvedOutcome,
              "ORACLE_PRICE", contract.resolverRef market.info.resolveAt, market.resolution.evidence⟩
          else .skip
        else cfg.writeTerminalResolution nowUnix market (some contract) .conflictingObservation
      else cfg.observeMarket nowUnix now market contract answer

/-- The provider's answer gives an outcome. -/
def Usable (market : EligibleMarket) (answer : Answer) : Prop := ∃ optionKeys contract observation outcome,
    cfg.codec.optionKeys market.info.optionSchema = some optionKeys ∧
    parseContract cfg.codec market.info.categoryKey optionKeys market.info.resolveAt market.info.metadata =
      .ok (some contract) ∧
    answer = .observed observation ∧
    contract.validateObservationTiming market.info.resolveAt observation = none ∧
    contract.resolveOutcome observation.observedScaled = some outcome

/-- A row with an error. -/
def Troubled (record : ResolutionRecord) : Prop :=
  record.status = "TERMINAL_ERROR" ∨ record.status = "RETRYABLE_ERROR"

/-- What can be decided for a market. -/
inductive Decided (market : EligibleMarket) (answer : Answer) : Decision → Prop
  | skip : Decided market answer .skip
  | report (update : ResolutionUpdate) (id : update.marketID = market.marketID) (status : Troubled update.record) :
    Decided market answer (.report update)
  | observe (update : ResolutionUpdate) (id : update.marketID = market.marketID)
    (status : update.record.status = "OBSERVED") (usable : cfg.Usable market answer) :
    Decided market answer (.observe update)
  | dispatch (update : ResolutionUpdate) (id : update.marketID = market.marketID)
    (status : update.record.status = "OBSERVED")
    (observed : normalizeUpper market.resolution.status = "OBSERVED") :
    Decided market answer (.dispatch update)

variable {cfg} {market : EligibleMarket} {answer : Answer}

theorem decided_writeTerminalResolution (nowUnix : ℤ) (contract : Option Contract) (code : ErrorCode) :
    cfg.Decided market answer (cfg.writeTerminalResolution nowUnix market contract code) :=
  .report _ rfl (.inl rfl)

theorem decided_writeObservationError (nowUnix now : ℤ) (contract : Contract) (code : ErrorCode) (retryable : Bool) :
    cfg.Decided market answer (cfg.writeObservationError nowUnix now market contract code retryable) := by
  rw [writeObservationError]
  split_ifs
  · exact .report _ rfl (.inr rfl)
  · exact .report _ rfl (.inl rfl)

/-- **What is decided for a market.** -/
theorem decided_processMarket (nowUnix now : ℤ) :
    cfg.Decided market answer (cfg.processMarket nowUnix now market answer) := by
  rw [processMarket]
  split
  · exact decided_writeTerminalResolution ..
  next optionKeys hkeys =>
  split
  · exact decided_writeTerminalResolution ..
  · exact .skip
  next contract hcontract =>
  split_ifs with _ _ hobserved
  · exact .skip
  · exact decided_writeTerminalResolution ..
  · exact .dispatch _ rfl rfl hobserved
  · exact .skip
  · exact decided_writeTerminalResolution ..
  · rw [observeMarket.eq_def]
    split
    · exact decided_writeObservationError ..
    · exact decided_writeObservationError ..
    next observation =>
    split
    · exact decided_writeObservationError ..
    next htiming =>
    split
    · exact decided_writeTerminalResolution ..
    next outcome houtcome =>
    exact .observe _ rfl rfl ⟨optionKeys, contract, observation, outcome, hkeys, hcontract, rfl, htiming, houtcome⟩

end Config

/-! ## The poll -/

/-- Where the worker is in its poll. -/
inductive WorkerState where
  | idle
  | listing
  | processing (now : ℤ) (rest : List EligibleMarket)
  /-- Before the first write for a market, after which its outcome may have to be published. -/
  | writing (now : ℤ) (update : ResolutionUpdate) (publish : Bool) (rest : List EligibleMarket)
  | publishing (now : ℤ) (update : ResolutionUpdate) (rest : List EligibleMarket)
  /-- Before the write that follows the publish. -/
  | marking (now : ℤ) (update : ResolutionUpdate) (published : Bool) (rest : List EligibleMarket)

/-- What becomes of a statement. -/
inductive StoreResult where
  | done
  | failed
  /-- The statement has run, but an error is returned. -/
  | lost
  deriving DecidableEq

/-- The statement has run. -/
def StoreResult.ran (result : StoreResult) : Bool := result ≠ .failed

/-- What becomes of a publish. -/
inductive PublishResult where
  | done
  | failed (error : String)
  /-- The event is on the topic, but an error is returned. -/
  | lost (error : String)

/-- The log. -/
inductive Entry where
  | terminal (marketID : ℤ)
  | published (marketID : ℤ) (outcome : String)
  | rewritten (marketID : ℤ)
  deriving DecidableEq

/-- The tables, the worker and the log. -/
structure World where
  store : Settlement.Store
  infos : Table ℤ MarketInfo
  worker : WorkerState
  log : List Entry

namespace World

/-- The row of a market, or the empty one. -/
def resolution (store : Settlement.Store) (marketID : ℤ) : ResolutionRecord :=
  (store.resolutions.get marketID).getD ⟨"", "", "", "", "\x7b\x7d"⟩

/-- The conditions of `ListEligibleMarkets` on a market, its category and its row. -/
def Eligible (cfg : Config) (w : World) (now : ℤ) (marketID : ℤ) (info : MarketInfo) : Prop :=
  0 < info.resolveAt ∧ info.resolveAt ≤ now ∧
    (∃ market ∈ w.store.markets.get marketID, market.status ≠ "RESOLVED") ∧ info.categoryKey = "CRYPTO" ∧
    cfg.codec.mode info.metadata = "ORACLE_PRICE" ∧
    (resolution w.store marketID).status ∈ ["", "PENDING", "RETRYABLE_ERROR", "TERMINAL_ERROR", "OBSERVED"]

instance (cfg : Config) (w : World) (now : ℤ) (marketID : ℤ) (info : MarketInfo) :
    Decidable (w.Eligible cfg now marketID info) :=
  inferInstanceAs (Decidable (_ ∧ _ ∧ (∃ market ∈ w.store.markets.get marketID, _) ∧ _ ∧ _ ∧ _))

/-- `ListEligibleMarkets`. -/
def listEligibleMarkets (cfg : Config) (w : World) (now : ℤ) (limit : ℕ) : List EligibleMarket :=
  (((w.infos.rows.filter fun p ↦ w.Eligible cfg now p.1 p.2).insertionSort fun p q ↦
      p.2.resolveAt < q.2.resolveAt ∨ p.2.resolveAt = q.2.resolveAt ∧ p.1 ≤ q.1).take limit).map
    fun p ↦ ⟨p.1, p.2, resolution w.store p.1⟩

/-- A poll lists a market once. -/
theorem nodup_listEligibleMarkets (cfg : Config) (w : World) (now : ℤ) (limit : ℕ) :
    ((w.listEligibleMarkets cfg now limit).map (·.marketID)).Nodup := by
  rw [listEligibleMarkets, List.map_map]
  have hkeys : (((w.infos.rows.filter fun p ↦ w.Eligible cfg now p.1 p.2).insertionSort fun p q ↦
      p.2.resolveAt < q.2.resolveAt ∨ p.2.resolveAt = q.2.resolveAt ∧ p.1 ≤ q.1).map Prod.fst).Nodup := by
    refine (List.Perm.map _ (List.perm_insertionSort ..)).nodup_iff.mpr ?_
    exact w.infos.nodup.sublist (List.filter_sublist.map _)
  exact hkeys.sublist ((List.take_sublist ..).map _)

/-- A listed market comes with its columns and its row. -/
theorem of_mem_listEligibleMarkets {cfg : Config} {w : World} {now : ℤ} {limit : ℕ} {entry : EligibleMarket}
    (h : entry ∈ w.listEligibleMarkets cfg now limit) :
    w.infos.get entry.marketID = some entry.info ∧ entry.resolution = resolution w.store entry.marketID := by
  obtain ⟨p, hp, rfl⟩ := List.mem_map.mp h
  have hsorted := List.mem_of_mem_take hp
  rw [List.mem_insertionSort] at hsorted
  exact ⟨Table.mem_rows.mp (List.mem_filter.mp hsorted).1, rfl⟩

/-- `UpsertResolution`. -/
def upsertResolution (w : World) (update : ResolutionUpdate) : World :=
  { w with
    store := { w.store with
      resolutions := w.store.resolutions.insert update.marketID
        { update.record with evidence := Settlement.normalizeResolutionEvidence update.record.evidence } }
    log := if update.record.status = "TERMINAL_ERROR" then w.log ++ [.terminal update.marketID] else w.log }

/-- An upsert that may fail. -/
def tryUpsert (w : World) (result : StoreResult) (update : ResolutionUpdate) : World :=
  if result.ran then w.upsertResolution update else w

/-- Where the worker is after a decision. -/
def decided (now : ℤ) (rest : List EligibleMarket) : Decision → WorkerState
  | .skip => .processing now rest
  | .report update => .writing now update false rest
  | .observe update => .writing now update true rest
  | .dispatch update => .publishing now update rest

/-- The update after a publish. -/
def attempted (cfg : Config) (nowUnix : ℤ) (update : ResolutionUpdate) (published : Bool) (error : String) :
    ResolutionUpdate :=
  { update with record := { update.record with
      evidence := recordDispatchAttempt cfg.codec nowUnix update.record.evidence published nowUnix error } }

/-- An event reaches the topic. -/
def publish (w : World) (update : ResolutionUpdate) : World :=
  { w with log := w.log ++ [.published update.marketID (normalizeUpper update.record.resolvedOutcome)] }

/-- What can happen. -/
inductive Event where
  /-- The poll begins with `RollupFrozen`. -/
  | poll (result : StoreResult)
  | list (now : ℤ) (result : StoreResult)
  | consider (nowUnix : ℤ) (answer : Answer)
  | upsert (result : StoreResult)
  | publish (nowUnix : ℤ) (result : PublishResult)
  | mark (result : StoreResult)
  | crash
  /-- `ResolveMarket` of the settlement service. -/
  | resolve (marketID : ℤ) (outcome : String)
  /-- Some other write to a row. -/
  | rewrite (marketID : ℤ) (record : ResolutionRecord)
  /-- A market is created or changed, but for its status. -/
  | describe (marketID : ℤ) (info : MarketInfo)

/-- Another service has written the row of a market. -/
def logRewrite (w : World) (marketID : ℤ) (store : Settlement.Store) : World :=
  { w with store := store, log := w.log ++ [.rewritten marketID] }

/-- `ResolveMarket`. It leaves a market alone that is resolved already. -/
def resolve (w : World) (marketID : ℤ) (outcome : String) : World :=
  let ensured := w.store.ensureMarket marketID
  match ensured.resolveMarket marketID outcome with
  | (store, some true) => w.logRewrite marketID store
  | (store, _) => { w with store := store }

/-- One event. -/
def step (cfg : Config) (w : World) : Event → Option World
  | .poll result =>
    match w.worker with
    | .idle => some { w with worker := if result = .done ∧ w.store.frozen = false then .listing else .idle }
    | _ => none
  | .list now result =>
    match w.worker with
    | .listing =>
      some { w with
        worker := if result = .done then .processing now (w.listEligibleMarkets cfg now 20) else .idle }
    | _ => none
  | .consider nowUnix answer =>
    match w.worker with
    | .processing _ [] => some { w with worker := .idle }
    | .processing now (market :: rest) =>
      some { w with worker := decided now rest (cfg.processMarket nowUnix now market answer) }
    | _ => none
  | .upsert result =>
    match w.worker with
    | .writing now update publish rest =>
      some { w.tryUpsert result update with
        worker :=
          if result ≠ .done then .idle
          else if publish then .publishing now update rest
          else .processing now rest }
    | _ => none
  | .publish nowUnix result =>
    match w.worker with
    | .publishing now update rest =>
      match result with
      | .done =>
        some { w.publish update with worker := .marking now (attempted cfg nowUnix update true "") true rest }
      | .failed error =>
        some { w with worker := .marking now (attempted cfg nowUnix update false error) false rest }
      | .lost error =>
        some { w.publish update with worker := .marking now (attempted cfg nowUnix update false error) false rest }
    | _ => none
  | .mark result =>
    match w.worker with
    | .marking now update published rest =>
      some { w.tryUpsert result update with
        worker := if result = .done ∧ published then .processing now rest else .idle }
    | _ => none
  | .crash => some { w with worker := .idle }
  | .resolve marketID outcome => some (w.resolve marketID outcome)
  | .rewrite marketID record =>
    some (w.logRewrite marketID { w.store with resolutions := w.store.resolutions.insert marketID record })
  | .describe marketID info => some { w with infos := w.infos.insert marketID info }

/-! ## What a step can do -/

/-- What the worker writes at an event. -/
def writes (w : World) : Event → Option ResolutionUpdate
  | .upsert result =>
    match w.worker with
    | .writing _ update _ _ => if result.ran then some update else none
    | _ => none
  | .mark result =>
    match w.worker with
    | .marking _ update _ _ => if result.ran then some update else none
    | _ => none
  | _ => none

/-- What a step can do. -/
inductive Moved (cfg : Config) (w : World) : Event → World → Prop
  /-- A poll begins, or ends without a write. -/
  | halt (e : Event) (state : WorkerState) (at_rest : state = .idle ∨ state = .listing)
    (writes : w.writes e = none) : Moved cfg w e { w with worker := state }
  | list (now : ℤ) (worker : w.worker = .listing) :
    Moved cfg w (.list now .done) { w with worker := .processing now (w.listEligibleMarkets cfg now 20) }
  | consider (nowUnix : ℤ) (answer : Answer) (now : ℤ) (market : EligibleMarket) (rest : List EligibleMarket)
    (worker : w.worker = .processing now (market :: rest)) :
    Moved cfg w (.consider nowUnix answer)
      { w with worker := decided now rest (cfg.processMarket nowUnix now market answer) }
  | write (result : StoreResult) (now : ℤ) (update : ResolutionUpdate) (publish : Bool)
    (rest : List EligibleMarket) (worker : w.worker = .writing now update publish rest) (ran : result.ran = true)
    (state : WorkerState)
    (next : state = .idle ∨ publish = true ∧ state = .publishing now update rest ∨ state = .processing now rest) :
    Moved cfg w (.upsert result) { w.upsertResolution update with worker := state }
  | publish (nowUnix : ℤ) (result : PublishResult) (now : ℤ) (update : ResolutionUpdate)
    (rest : List EligibleMarket) (worker : w.worker = .publishing now update rest) (published : Bool)
    (error : String) (w₁ : World) (next : w₁ = w ∨ w₁ = w.publish update) :
    Moved cfg w (.publish nowUnix result)
      { w₁ with worker := .marking now (attempted cfg nowUnix update published error) published rest }
  | mark (result : StoreResult) (now : ℤ) (update : ResolutionUpdate) (published : Bool)
    (rest : List EligibleMarket) (worker : w.worker = .marking now update published rest) (ran : result.ran = true)
    (state : WorkerState) (next : state = .idle ∨ state = .processing now rest) :
    Moved cfg w (.mark result) { w.upsertResolution update with worker := state }
  | resolve (marketID : ℤ) (outcome : String) : Moved cfg w (.resolve marketID outcome) (w.resolve marketID outcome)
  | rewrite (marketID : ℤ) (record : ResolutionRecord) : Moved cfg w (.rewrite marketID record)
      (w.logRewrite marketID { w.store with resolutions := w.store.resolutions.insert marketID record })
  | describe (marketID : ℤ) (info : MarketInfo) :
    Moved cfg w (.describe marketID info) { w with infos := w.infos.insert marketID info }

variable {result : StoreResult}

theorem tryUpsert_of_ran {w : World} {update : ResolutionUpdate} (h : result.ran = true) :
    w.tryUpsert result update = w.upsertResolution update := if_pos h

theorem tryUpsert_of_not_ran {w : World} {update : ResolutionUpdate} (h : result.ran ≠ true) :
    w.tryUpsert result update = w := if_neg h

private theorem ne_done_of_not_ran (h : result.ran ≠ true) : result ≠ .done := by
  rintro rfl
  exact h rfl

/-- **What a step can do.** -/
theorem moved_of_step {cfg : Config} {w w' : World} {e : Event} (hstep : w.step cfg e = some w') :
    Moved cfg w e w' := by
  cases e with
  | poll result =>
    rw [step] at hstep
    split at hstep
    · obtain rfl := Option.some_inj.mp hstep
      exact .halt _ _ (by split_ifs <;> simp) rfl
    · cases hstep
  | list now result =>
    rw [step] at hstep
    split at hstep
    · next hworker =>
      obtain rfl := Option.some_inj.mp hstep
      by_cases hdone : result = .done
      · rw [hdone, if_pos rfl]
        exact .list now hworker
      · rw [if_neg hdone]
        exact .halt _ _ (.inl rfl) rfl
    · cases hstep
  | consider nowUnix answer =>
    rw [step] at hstep
    split at hstep
    · obtain rfl := Option.some_inj.mp hstep
      exact .halt _ _ (.inl rfl) rfl
    · next now market rest hworker =>
      obtain rfl := Option.some_inj.mp hstep
      exact .consider nowUnix answer now market rest hworker
    · cases hstep
  | upsert result =>
    rw [step] at hstep
    split at hstep
    · next now update publish rest hworker =>
      obtain rfl := Option.some_inj.mp hstep
      by_cases hran : result.ran = true
      · rw [tryUpsert_of_ran hran]
        refine .write result now update publish rest hworker hran _ ?_
        split_ifs with hdone hpublish
        · exact .inl rfl
        · exact .inr (.inl ⟨hpublish, rfl⟩)
        · exact .inr (.inr rfl)
      · rw [tryUpsert_of_not_ran hran, if_pos (ne_done_of_not_ran hran)]
        exact .halt _ _ (.inl rfl) (by rw [writes, hworker]; exact if_neg hran)
    · cases hstep
  | publish nowUnix result =>
    rw [step] at hstep
    split at hstep
    · next now update rest hworker =>
      cases result with
      | done =>
        obtain rfl := Option.some_inj.mp hstep
        exact .publish nowUnix _ now update rest hworker true "" _ (.inr rfl)
      | failed error =>
        obtain rfl := Option.some_inj.mp hstep
        exact .publish nowUnix _ now update rest hworker false error _ (.inl rfl)
      | lost error =>
        obtain rfl := Option.some_inj.mp hstep
        exact .publish nowUnix _ now update rest hworker false error _ (.inr rfl)
    · cases hstep
  | mark result =>
    rw [step] at hstep
    split at hstep
    · next now update published rest hworker =>
      obtain rfl := Option.some_inj.mp hstep
      by_cases hran : result.ran = true
      · rw [tryUpsert_of_ran hran]
        refine .mark result now update published rest hworker hran _ ?_
        split_ifs
        · exact .inr rfl
        · exact .inl rfl
      · rw [tryUpsert_of_not_ran hran, if_neg fun h ↦ ne_done_of_not_ran hran h.1]
        exact .halt _ _ (.inl rfl) (by rw [writes, hworker]; exact if_neg hran)
    · cases hstep
  | crash =>
    obtain rfl := Option.some_inj.mp hstep
    exact .halt _ _ (.inl rfl) rfl
  | resolve marketID outcome =>
    obtain rfl := Option.some_inj.mp hstep
    exact .resolve marketID outcome
  | rewrite marketID record =>
    obtain rfl := Option.some_inj.mp hstep
    exact .rewrite marketID record
  | describe marketID info =>
    obtain rfl := Option.some_inj.mp hstep
    exact .describe marketID info

theorem worker_resolve (w : World) (id : ℤ) (outcome : String) : (w.resolve id outcome).worker = w.worker := by
  dsimp only [resolve]
  split <;> rfl

/-- `ResolveMarket` leaves a resolved market and its row alone, and resolves another one with its row. -/
theorem resolve_cases (w : World) (id : ℤ) (outcome : String) :
    ((w.resolve id outcome).log = w.log ∧ (w.resolve id outcome).store.resolutions = w.store.resolutions ∧
        ∀ m market, w.store.markets.get m = some market → (w.resolve id outcome).store.markets.get m = some market) ∨
      ((w.resolve id outcome).log = w.log ++ [.rewritten id] ∧
        (∀ market, w.store.markets.get id = some market → market.status ≠ "RESOLVED") ∧
        ∃ record : ResolutionRecord, record.status = "RESOLVED" ∧
          (w.resolve id outcome).store.resolutions = w.store.resolutions.insert id record ∧
          ∀ m, (w.resolve id outcome).store.markets.get m =
            if m = id then some ⟨"RESOLVED", outcome⟩ else w.store.markets.get m) := by
  have hensure : (w.store.ensureMarket id).resolutions = w.store.resolutions := by
    rw [Settlement.Store.ensureMarket]
    split_ifs <;> rfl
  have hmarkets : ∀ m market, w.store.markets.get m = some market →
      (w.store.ensureMarket id).markets.get m = some market := by
    intro m market hm
    rw [Settlement.Store.ensureMarket]
    split_ifs with hsome
    · exact hm
    · rw [Table.get_insert, if_neg]
      · exact hm
      · rintro rfl
        exact hsome (by rw [hm]; rfl)
  have hother : ∀ m, m ≠ id → (w.store.ensureMarket id).markets.get m = w.store.markets.get m := by
    intro m hm
    rw [Settlement.Store.ensureMarket]
    split_ifs
    · rfl
    · rw [Table.get_insert, if_neg hm]
  have hfinal : ∀ current : ResolutionRecord,
      (Settlement.finalizeResolutionRecord current outcome).status = "RESOLVED" := by
    intro current
    rw [Settlement.finalizeResolutionRecord]
    split_ifs <;> rfl
  rw [resolve]
  cases hget : (w.store.ensureMarket id).markets.get id with
  | none =>
    rw [Settlement.Store.resolveMarket, hget]
    exact .inl ⟨rfl, hensure, hmarkets⟩
  | some market =>
    by_cases hstatus : market.status = "RESOLVED"
    · refine .inl ?_
      rw [Settlement.Store.resolveMarket, hget]
      dsimp only
      rw [if_pos hstatus]
      split_ifs
      · exact ⟨rfl, hensure, hmarkets⟩
      · exact ⟨rfl, hensure, hmarkets⟩
    · have hopen : ∀ other, w.store.markets.get id = some other → other.status ≠ "RESOLVED" := by
        intro other hother heq
        rw [hmarkets id other hother] at hget
        exact hstatus (Option.some_inj.mp hget ▸ heq)
      rw [Settlement.Store.resolveMarket, hget]
      dsimp only
      rw [if_neg hstatus]
      refine .inr ⟨rfl, hopen, _, hfinal _, by rw [← hensure]; rfl, fun m ↦ ?_⟩
      dsimp only [logRewrite]
      rw [Table.get_insert]
      split_ifs with hm
      · rfl
      · exact hother m hm

/-! ## A market -/

/-- A market on the price of bitcoin that is due at `10`. -/
def sampleMetadata : ResolutionMetadata := ⟨1, "ORACLE_PRICE", "CRYPTO_PRICE_THRESHOLD", true,
    ⟨"HTTP_JSON", "BINANCE", ⟨"SPOT", "BTC", "USDT", "BTCUSDT"⟩, ⟨"LAST_PRICE", 0, "ROUND_HALF_UP", 60⟩,
      ⟨"RESOLVE_AT", 5, 5⟩, ⟨"PRICE_THRESHOLD", "GT", "100"⟩⟩⟩

/-- A codec that knows one text of each kind. -/
def sampleConfig : Config where
  codec :=
    { optionKeys := fun _ ↦ some ["YES", "NO"]
      resolution := fun _ ↦ .object sampleMetadata
      mode := fun _ ↦ "ORACLE_PRICE"
      parseStoredEvidence := fun _ ↦ none
      parseEvidence := fun _ ↦ none
      marshal := fun _ ↦ "evidence"
      parseRat := fun _ ↦ some 100 }
  attest := fun _ _ ↦ none
  pollInterval := 5000000000

/-- The market is open, and nothing was observed yet. -/
def sampleWorld : World where
  store := ⟨false, .insert .empty 1 ⟨"OPEN", ""⟩, .empty, .empty, .empty, .empty⟩
  infos := .insert .empty 1 ⟨10, "CRYPTO", "metadata", "options"⟩
  worker := .idle
  log := []

/-- A price above the threshold, at the time of the resolution. -/
def sampleObservation : Observation := ⟨11, 10, "101", some 101, "payload", "hash"⟩

end World

end FunnyOption.Oracle
