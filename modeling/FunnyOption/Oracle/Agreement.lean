import FunnyOption.Oracle.Finality

/-!
# The outcome that is published

The worker observes, stores and publishes in separate steps, and each of them can fail. What keeps the events of a
market together is its row: an outcome is published only when the row has it, and a row that has one is never
observed again. This rests on the worker recognising its own row, so on the resolver reference being the same text
after `TrimSpace`.

## The invariant

`Agreed` says that every outcome published so far is the one in the row. A poll works on copies of the rows, so the
invariant also says that the copy of this market is still the row (`Tracked`), which holds because a poll lists a
market once and nobody else writes its row.

## Main results

* `World.published_one_outcome`: all events of a market carry one outcome, which a timely observation gave.
-/

open Foundation

namespace FunnyOption.Oracle

open Settlement (ResolutionRecord)

/-! ## Timely observations -/

/-- The price took effect in the window, and was not too old when it was fetched. -/
def Contract.Timely (contract : Contract) (resolveAt : ℤ) (observation : Observation) : Prop :=
  resolveAt - contract.metadata.oracle.window.beforeSec ≤ observation.effectiveAt ∧
    observation.effectiveAt ≤ resolveAt + contract.metadata.oracle.window.afterSec ∧
    observation.fetchedAt - observation.effectiveAt ≤ contract.metadata.oracle.price.maxDataAgeSec

variable {contract : Contract}

theorem Contract.timely_of_validate {resolveAt : ℤ} {observation : Observation}
    (h : contract.validateObservationTiming resolveAt observation = none) :
    contract.Timely resolveAt observation := by
  dsimp only [validateObservationTiming] at h
  split_ifs at h with hwindow hage
  rw [not_or, not_lt, not_lt] at hwindow
  exact ⟨hwindow.1, hwindow.2, not_lt.mp hage⟩

/-- The worker recognises its own reference. -/
theorem Contract.trimSpace_resolverRef (contract : Contract) (resolveAt : ℤ) :
    trimSpace (contract.resolverRef resolveAt) = contract.resolverRef resolveAt := by
  have htail : ∀ c ∈ (":" ++ toString resolveAt).toList, isSpace c = false := by
    intro c hc
    rw [String.toList_append, List.mem_append] at hc
    rcases hc with hc | hc
    · rw [List.mem_singleton.mp hc]
      decide
    · exact isSpace_of_mem_toString_int hc
  have hne : ":" ++ toString resolveAt ≠ "" := by
    intro h
    have hlist := congrArg String.toList h
    rw [String.toList_append] at hlist
    cases hlist
  have hfront : ∀ c ∈ "oracle_price:".toList, isSpace c = false := by
    intro c hc
    have hall : ("oracle_price:".toList.all fun c ↦ !isSpace c) = true := by decide
    simpa using List.all_eq_true.mp hall c hc
  have hbetween := trimSpace_between
    (contract.metadata.oracle.providerKey ++ ":" ++ contract.metadata.oracle.instrument.symbol) hfront (by decide)
    htail hne
  have href : contract.resolverRef resolveAt = "oracle_price:" ++ (contract.metadata.oracle.providerKey ++ ":" ++
      contract.metadata.oracle.instrument.symbol) ++ (":" ++ toString resolveAt) := by
    unfold resolverRef
    simp only [String.append_assoc]
  rw [href, hbetween]

theorem Contract.resolveOutcome_mem {observed : Option ℤ} {outcome : String}
    (h : contract.resolveOutcome observed = some outcome) : outcome = "YES" ∨ outcome = "NO" := by
  obtain ⟨price, -, h⟩ := Option.bind_eq_some_iff.mp h
  have hyes : ∀ holds : Bool, some (if holds then "YES" else "NO") = some outcome →
      outcome = "YES" ∨ outcome = "NO" := by
    rintro (_ | _) h
    · exact .inr (Option.some_inj.mp h).symm
    · exact .inl (Option.some_inj.mp h).symm
  dsimp only at h
  split at h
  · exact hyes _ h
  · exact hyes _ h
  · exact hyes _ h
  · exact hyes _ h
  · cases h

theorem normalizeUpper_outcome {outcome : String} (h : outcome = "YES" ∨ outcome = "NO") :
    normalizeUpper outcome = outcome ∧ outcome ≠ "" := by
  rcases h with rfl | rfl <;> decide

/-! ## Rows that have an outcome -/

/-- The contract of a market. -/
def Config.contractOf (cfg : Config) (info : MarketInfo) : Option Contract :=
  (cfg.codec.optionKeys info.optionSchema).bind fun optionKeys ↦
    match parseContract cfg.codec info.categoryKey optionKeys info.resolveAt info.metadata with
    | .ok contract => contract
    | .error _ => none

section Market

variable (cfg : Config) (marketID : ℤ) (info : MarketInfo) (seen : Observation → Prop)

/-- The outcome comes from a timely observation. -/
structure Grounded (contract : Contract) (observation : Observation) (outcome : String) : Prop where
  contract_eq : cfg.contractOf info = some contract
  seen : seen observation
  timely : contract.Timely info.resolveAt observation
  outcome_eq : contract.resolveOutcome observation.observedScaled = some outcome

/-- A row that the worker wrote for an observation. -/
def Justified (record : ResolutionRecord) : Prop :=
  ∃ contract observation, Grounded cfg info seen contract observation record.resolvedOutcome ∧
    record.status = "OBSERVED" ∧ record.resolverType = "ORACLE_PRICE" ∧
    record.resolverRef = contract.resolverRef info.resolveAt

/-- The row has the outcome. -/
def Holds (row : Option ResolutionRecord) (outcome : String) : Prop :=
  ∃ record ∈ row, Justified cfg info seen record ∧ record.resolvedOutcome = outcome

/-- The copy of the row that a poll has is still the row. -/
structure Tracked (row : Option ResolutionRecord) (rest : List EligibleMarket) : Prop where
  nodup : (rest.map (·.marketID)).Nodup
  entries : ∀ entry ∈ rest, entry.marketID = marketID →
    entry.info = info ∧ entry.resolution = row.getD ⟨"", "", "", "", "\x7b\x7d"⟩

/-- What the worker has in hand for the market agrees with the row. -/
def Ready (row : Option ResolutionRecord) : WorkerState → Prop
  | .idle | .listing => True
  | .processing _ rest => Tracked marketID info row rest
  | .writing _ update publish rest =>
    Tracked marketID info row rest ∧ update.marketID ∉ rest.map (·.marketID) ∧
      (update.marketID = marketID → (∀ outcome, ¬ Holds cfg info seen row outcome) ∧
        if publish then Justified cfg info seen update.record else Config.Troubled update.record)
  | .publishing _ update rest | .marking _ update _ rest =>
    Tracked marketID info row rest ∧ update.marketID ∉ rest.map (·.marketID) ∧ (update.marketID = marketID →
        Justified cfg info seen update.record ∧ Holds cfg info seen row update.record.resolvedOutcome)

/-- Every outcome published for the market is the one in its row. -/
structure Agreed (w : World) : Prop where
  infos : ∀ info' ∈ w.infos.get marketID, info' = info
  rows : ∀ record ∈ w.store.resolutions.get marketID, Justified cfg info seen record ∨ Config.Troubled record
  published : ∀ outcome, .published marketID outcome ∈ w.log →
    Holds cfg info seen (w.store.resolutions.get marketID) outcome
  worker : Ready cfg marketID info seen (w.store.resolutions.get marketID) w.worker

variable {cfg marketID info seen} {row : Option ResolutionRecord} {rest : List EligibleMarket}

theorem Justified.normalizeUpper_eq {record : ResolutionRecord} (h : Justified cfg info seen record) :
    normalizeUpper record.resolvedOutcome = record.resolvedOutcome ∧ record.resolvedOutcome ≠ "" := by
  obtain ⟨contract, observation, hground, -⟩ := h
  exact normalizeUpper_outcome (Contract.resolveOutcome_mem hground.outcome_eq)

variable {market : EligibleMarket}

/-- The worker recognises a row that it has written. -/
theorem Justified.owned (h : Justified cfg info seen market.resolution) (hinfo : market.info = info)
    (hcontract : cfg.contractOf info = some contract) : Config.Owned market contract := by
  have houtcome := h.normalizeUpper_eq
  obtain ⟨contract', observation, hground, -, htype, href⟩ := h
  obtain rfl : contract' = contract := Option.some_inj.mp (hground.contract_eq.symm.trans hcontract)
  refine ⟨by rw [htype]; decide, ?_, ?_⟩
  · rw [href, hinfo, Contract.trimSpace_resolverRef]
  · rw [houtcome.1]
    exact houtcome.2

theorem Tracked.of_cons (h : Tracked marketID info row (market :: rest)) :
    Tracked marketID info row rest ∧ market.marketID ∉ rest.map (·.marketID) := by
  have hnodup := List.nodup_cons.mp h.nodup
  exact ⟨⟨hnodup.2, fun entry hentry ↦ h.entries entry (List.mem_cons_of_mem _ hentry)⟩, hnodup.1⟩

/-- A market that is not listed any more may have any row. -/
theorem Tracked.of_notMem (h : Tracked marketID info row rest) (hnot : marketID ∉ rest.map (·.marketID))
    (row' : Option ResolutionRecord) : Tracked marketID info row' rest :=
  ⟨h.nodup, fun _ hentry hid ↦ absurd (List.mem_map.mpr ⟨_, hentry, hid⟩) hnot⟩

/-! ## What is decided -/

/-- For a row with an outcome, that outcome is published or nothing is done. -/
theorem processMarket_of_justified (nowUnix now : ℤ) (answer : Answer)
    (h : Justified cfg info seen market.resolution) (hinfo : market.info = info) :
    cfg.processMarket nowUnix now market answer = .skip ∨
      ∃ update, cfg.processMarket nowUnix now market answer = .dispatch update ∧
        Justified cfg info seen update.record ∧
        update.record.resolvedOutcome = market.resolution.resolvedOutcome := by
  obtain ⟨contract, observation, hground, hstatus, htype, href⟩ := id h
  have howned := h.owned hinfo hground.contract_eq
  obtain ⟨optionKeys, hkeys, hparse⟩ := Option.bind_eq_some_iff.mp hground.contract_eq
  have hok : parseContract cfg.codec info.categoryKey optionKeys info.resolveAt info.metadata =
      .ok (some contract) := by
    split at hparse
    next hok => rw [hok, hparse]
    · cases hparse
  rw [Config.processMarket, hinfo, hkeys]
  dsimp only
  rw [hok]
  dsimp only
  have hresolved : normalizeUpper market.resolution.status ≠ "RESOLVED" := by rw [hstatus]; decide
  have hobserved : normalizeUpper market.resolution.status = "OBSERVED" := by rw [hstatus]; decide
  rw [if_neg hresolved, if_pos hobserved, if_pos howned]
  split_ifs
  · refine .inr ⟨_, rfl, ⟨contract, observation, ?_, rfl, rfl, rfl⟩, h.normalizeUpper_eq.1⟩
    rw [h.normalizeUpper_eq.1]
    exact hground
  · exact .inl rfl

/-- For a row without one, an error is reported or the outcome of a timely observation is. -/
theorem processMarket_of_open (nowUnix now : ℤ) {answer : Answer} (hinfo : market.info = info)
    (hopen : normalizeUpper market.resolution.status ≠ "RESOLVED")
    (hopen' : normalizeUpper market.resolution.status ≠ "OBSERVED")
    (hseen : ∀ observation, answer = .observed observation → seen observation) :
    (∃ update, cfg.processMarket nowUnix now market answer = .report update ∧ Config.Troubled update.record) ∨
      (∃ update, cfg.processMarket nowUnix now market answer = .observe update ∧
        Justified cfg info seen update.record) ∨ cfg.processMarket nowUnix now market answer = .skip := by
  have hdecided : cfg.Decided market answer (cfg.processMarket nowUnix now market answer) :=
    Config.decided_processMarket nowUnix now
  generalize hdecision : cfg.processMarket nowUnix now market answer = decision at hdecided
  cases hdecided with
  | skip => exact .inr (.inr rfl)
  | report update _ htroubled => exact .inl ⟨update, rfl, htroubled⟩
  | dispatch update _ _ hobserved => exact absurd hobserved hopen'
  | observe update _ _ husable =>
    refine .inr (.inl ⟨update, rfl, ?_⟩)
    obtain ⟨optionKeys, contract, observation, outcome, hkeys, hparse, rfl, htiming, houtcome⟩ := husable
    rw [Config.processMarket, hkeys] at hdecision
    dsimp only at hdecision
    rw [hparse] at hdecision
    dsimp only at hdecision
    rw [if_neg hopen, if_neg hopen', Config.observeMarket, htiming] at hdecision
    dsimp only at hdecision
    rw [houtcome] at hdecision
    cases hdecision
    refine ⟨contract, observation, ⟨?_, hseen observation rfl, ?_, houtcome⟩, rfl, rfl, by rw [hinfo]⟩
    · rw [Config.contractOf, ← hinfo, hkeys, Option.bind_some, hparse]
    · exact hinfo ▸ Contract.timely_of_validate htiming

/-! ## Steps -/

/-- Nothing that belongs to the market changes. -/
theorem Agreed.frame {w w' : World} (h : Agreed cfg marketID info seen w)
    (hinfos : ∀ info' ∈ w'.infos.get marketID, info' = info)
    (hrow : w'.store.resolutions.get marketID = w.store.resolutions.get marketID)
    (hlog : ∀ outcome, .published marketID outcome ∈ w'.log → .published marketID outcome ∈ w.log)
    (hworker : Ready cfg marketID info seen (w.store.resolutions.get marketID) w'.worker) :
    Agreed cfg marketID info seen w' := by
  refine ⟨hinfos, ?_, ?_, ?_⟩
  · rw [hrow]
    exact h.rows
  · rw [hrow]
    exact fun outcome hmem ↦ h.published outcome (hlog outcome hmem)
  · rw [hrow]
    exact hworker

variable {update : ResolutionUpdate} {w : World}

theorem published_mem_upsertResolution {outcome : String}
    (h : .published marketID outcome ∈ (w.upsertResolution update).log) : .published marketID outcome ∈ w.log := by
  dsimp only [World.upsertResolution] at h
  split_ifs at h with hterminal
  · rcases List.mem_append.mp h with h | h
    · exact h
    · cases List.mem_singleton.mp h
  · exact h

variable {state : WorkerState}

/-- The worker writes an error where there is no outcome yet. -/
theorem Agreed.write_troubled (h : Agreed cfg marketID info seen w) (hid : update.marketID = marketID)
    (htroubled : Config.Troubled update.record)
    (hnone : ∀ outcome, ¬ Holds cfg info seen (w.store.resolutions.get marketID) outcome)
    (hstate : ∀ row, Ready cfg marketID info seen row state) :
    Agreed cfg marketID info seen { w.upsertResolution update with worker := state } := by
  refine ⟨h.infos, fun record hrecord ↦ ?_, fun outcome hmem ↦ ?_, hstate _⟩
  · rw [World.get_upsertResolution, if_pos hid.symm] at hrecord
    cases hrecord
    exact .inr htroubled
  · exact absurd (h.published outcome (published_mem_upsertResolution hmem)) (hnone outcome)

/-- The worker writes an outcome that agrees with what was published. -/
theorem Agreed.write_justified (h : Agreed cfg marketID info seen w) (hid : update.marketID = marketID)
    (hjustified : Justified cfg info seen update.record)
    (hsame : ∀ outcome, Holds cfg info seen (w.store.resolutions.get marketID) outcome →
      outcome = update.record.resolvedOutcome)
    (hstate : ∀ row, Holds cfg info seen row update.record.resolvedOutcome → Ready cfg marketID info seen row state) :
    Agreed cfg marketID info seen { w.upsertResolution update with worker := state } := by
  have hholds : Holds cfg info seen ((w.upsertResolution update).store.resolutions.get marketID)
      update.record.resolvedOutcome := by
    rw [World.get_upsertResolution, if_pos hid.symm]
    exact ⟨_, rfl, hjustified, rfl⟩
  refine ⟨h.infos, fun record hrecord ↦ ?_, fun outcome hmem ↦ ?_, hstate _ hholds⟩
  · rw [World.get_upsertResolution, if_pos hid.symm] at hrecord
    cases hrecord
    exact .inl hjustified
  · rw [hsame outcome (h.published outcome (published_mem_upsertResolution hmem))]
    exact hholds

theorem Holds.unique {o₁ o₂ : String} (h₁ : Holds cfg info seen row o₁) (h₂ : Holds cfg info seen row o₂) :
    o₁ = o₂ := by
  obtain ⟨record, hrecord, -, rfl⟩ := h₁
  obtain ⟨record', hrecord', -, rfl⟩ := h₂
  rw [Option.mem_unique hrecord hrecord']

/-- The worker decides on the market it is at. -/
theorem Agreed.decided (h : Agreed cfg marketID info seen w) {answer : Answer}
    (htracked : Tracked marketID info (w.store.resolutions.get marketID) (market :: rest))
    (hseen : market.marketID = marketID → ∀ observation, answer = .observed observation → seen observation)
    (nowUnix now : ℤ) :
    Ready cfg marketID info seen (w.store.resolutions.get marketID)
      (World.decided now rest (cfg.processMarket nowUnix now market answer)) := by
  obtain ⟨hrest, hnot⟩ := htracked.of_cons
  have hdecided : cfg.Decided market answer (cfg.processMarket nowUnix now market answer) :=
    Config.decided_processMarket nowUnix now
  by_cases hid : market.marketID = marketID
  · obtain ⟨hinfo, hcopy⟩ := htracked.entries market List.mem_cons_self hid
    by_cases hjustified : Justified cfg info seen market.resolution
    · rcases processMarket_of_justified nowUnix now answer hjustified hinfo with
        hskip | ⟨update, hdispatch, hupdate, hsame⟩
      · rw [hskip]
        exact hrest
      · rw [hdispatch] at hdecided ⊢
        cases hdecided with
        | dispatch _ hupdateID =>
        refine ⟨hrest, hupdateID ▸ hnot, fun _ ↦ ⟨hupdate, ?_⟩⟩
        -- the copy has a status, so it is the row
        cases hrow : w.store.resolutions.get marketID with
        | none =>
          rw [hrow] at hcopy
          obtain ⟨_, _, -, hstatus, -⟩ := hjustified
          rw [hcopy] at hstatus
          exact absurd hstatus (by decide)
        | some record =>
          rw [hrow, Option.getD_some] at hcopy
          exact ⟨record, rfl, hcopy ▸ hjustified, by rw [hsame, hcopy]⟩
    · -- no outcome yet: the copy is the empty row or an error
      have hopen : ∀ outcome, ¬ Holds cfg info seen (w.store.resolutions.get marketID) outcome := by
        rintro outcome ⟨record, hrecord, hrecord', -⟩
        rw [Option.mem_def.mp hrecord] at hcopy
        exact hjustified (hcopy ▸ hrecord')
      have hstatus : normalizeUpper market.resolution.status ≠ "RESOLVED" ∧
          normalizeUpper market.resolution.status ≠ "OBSERVED" := by
        rw [hcopy]
        cases hrow : w.store.resolutions.get marketID with
        | none => decide
        | some record =>
          rw [hrow, Option.getD_some] at hcopy
          rcases h.rows record hrow with hrecord | htroubled | htroubled
          · exact absurd (hcopy ▸ hrecord) hjustified
          · rw [Option.getD_some, htroubled]
            decide
          · rw [Option.getD_some, htroubled]
            decide
      rcases processMarket_of_open nowUnix now hinfo hstatus.1 hstatus.2 (hseen hid) with
        ⟨update, hreport, htroubled⟩ | ⟨update, hobserve, hupdate⟩ | hskip
      · rw [hreport] at hdecided ⊢
        cases hdecided with
        | report _ hupdateID => exact ⟨hrest, hupdateID ▸ hnot, fun _ ↦ ⟨hopen, htroubled⟩⟩
      · rw [hobserve] at hdecided ⊢
        cases hdecided with
        | observe _ hupdateID => exact ⟨hrest, hupdateID ▸ hnot, fun _ ↦ ⟨hopen, hupdate⟩⟩
      · rw [hskip]
        exact hrest
  · generalize cfg.processMarket nowUnix now market answer = decision at hdecided
    cases hdecided with
    | skip => exact hrest
    | report update hupdateID => exact ⟨hrest, hupdateID ▸ hnot, fun h ↦ absurd (hupdateID ▸ h) hid⟩
    | observe update hupdateID => exact ⟨hrest, hupdateID ▸ hnot, fun h ↦ absurd (hupdateID ▸ h) hid⟩
    | dispatch update hupdateID => exact ⟨hrest, hupdateID ▸ hnot, fun h ↦ absurd (hupdateID ▸ h) hid⟩

/-- A write of the worker, for the market or for another one. -/
theorem Agreed.upsert (h : Agreed cfg marketID info seen w) (hother : update.marketID ≠ marketID →
      Ready cfg marketID info seen (w.store.resolutions.get marketID) state) (hown : update.marketID = marketID →
      Agreed cfg marketID info seen { w.upsertResolution update with worker := state }) :
    Agreed cfg marketID info seen { w.upsertResolution update with worker := state } := by
  by_cases hid : update.marketID = marketID
  · exact hown hid
  · refine h.frame h.infos ?_ (fun outcome ↦ published_mem_upsertResolution) (hother hid)
    exact (World.get_upsertResolution ..).trans (if_neg (Ne.symm hid))

end Market

/-! ## Runs -/

namespace World

/-- The worker is at the market. -/
def Considers (w : World) (marketID : ℤ) : Prop :=
  ∃ now market rest, w.worker = .processing now (market :: rest) ∧ market.marketID = marketID

/-- The provider gave the observation for the market in the run. -/
def Observes (cfg : Config) (w : World) (events : List Event) (marketID : ℤ) (observation : Observation) : Prop :=
  ∃ t nowUnix t', Takes (step cfg) w events t (.consider nowUnix (.observed observation)) t' ∧ t.Considers marketID

/-- Only the worker writes the row of the market, and what is known of the market stays as it is. -/
def Event.Leaves (marketID : ℤ) (info : MarketInfo) : Event → Prop
  | .resolve id _ | .rewrite id _ => id ≠ marketID
  | .describe id info' => id = marketID → info' = info
  | _ => True

variable {cfg : Config} {marketID : ℤ} {info : MarketInfo} {seen : Observation → Prop} {w w' : World}

theorem infos_resolve (w : World) (id : ℤ) (outcome : String) : (w.resolve id outcome).infos = w.infos := by
  dsimp only [resolve]
  split <;> rfl

/-- `ResolveMarket` of another market changes nothing that belongs to this one. -/
theorem Agreed.resolve (h : Agreed cfg marketID info seen w) {id : ℤ} (hid : id ≠ marketID) (outcome : String) :
    Agreed cfg marketID info seen (w.resolve id outcome) := by
  refine h.frame (by rw [infos_resolve]; exact h.infos) ?_ ?_ (by rw [worker_resolve]; exact h.worker)
  · rcases resolve_cases w id outcome with ⟨-, hrows, -⟩ | ⟨-, -, record, -, hrows, -⟩
    · rw [hrows]
    · rw [hrows, Table.get_insert, if_neg hid.symm]
  · intro outcome' hmem
    rcases resolve_cases w id outcome with ⟨hlog, -⟩ | ⟨hlog, -⟩
    · rwa [hlog] at hmem
    · rw [hlog, List.mem_append] at hmem
      rcases hmem with hmem | hmem
      · exact hmem
      · cases List.mem_singleton.mp hmem

/-- **What one step preserves.** -/
theorem Agreed.step (h : Agreed cfg marketID info seen w) {e : Event} (he : e.Leaves marketID info)
    (hseen : ∀ nowUnix observation, e = .consider nowUnix (.observed observation) → w.Considers marketID →
      seen observation) (hmove : Moved cfg w e w') : Agreed cfg marketID info seen w' := by
  have hready := h.worker
  cases hmove with
  | halt e state hrest =>
    refine h.frame h.infos rfl (fun _ hmem ↦ hmem) ?_
    rcases hrest with rfl | rfl <;> trivial
  | list now =>
    refine h.frame h.infos rfl (fun _ hmem ↦ hmem) ⟨nodup_listEligibleMarkets .., fun entry hentry hid ↦ ?_⟩
    obtain ⟨hinfo, hcopy⟩ := of_mem_listEligibleMarkets hentry
    rw [hid] at hinfo hcopy
    exact ⟨h.infos _ hinfo, hcopy⟩
  | consider nowUnix answer now market rest hworker =>
    rw [hworker] at hready
    refine h.frame h.infos rfl (fun _ hmem ↦ hmem) (h.decided hready ?_ nowUnix now)
    rintro hid observation rfl
    exact hseen nowUnix observation rfl ⟨now, market, rest, hworker, hid⟩
  | write result now update publish rest hworker _ state hnext =>
    rw [hworker] at hready
    obtain ⟨htracked, hnot, hupdate⟩ := hready
    refine h.upsert (fun hid ↦ ?_) fun hid ↦ ?_
    · rcases hnext with rfl | ⟨-, rfl⟩ | rfl
      · trivial
      · exact ⟨htracked, hnot, fun h ↦ absurd h hid⟩
      · exact htracked
    · obtain ⟨hnone, hrecord⟩ := hupdate hid
      have htracked' := htracked.of_notMem (hid ▸ hnot)
      cases publish with
      | false =>
        refine h.write_troubled hid hrecord hnone fun row ↦ ?_
        rcases hnext with rfl | ⟨hfalse, -⟩ | rfl
        · trivial
        · cases hfalse
        · exact htracked' row
      | true =>
        refine h.write_justified hid hrecord (fun outcome hholds ↦ absurd hholds (hnone outcome)) fun row hrow ↦ ?_
        rcases hnext with rfl | ⟨-, rfl⟩ | rfl
        · trivial
        · exact ⟨htracked' row, hnot, fun _ ↦ ⟨hrecord, hrow⟩⟩
        · exact htracked' row
  | publish nowUnix result now update rest hworker published error w₁ hw₁ =>
    rw [hworker] at hready
    rcases hw₁ with rfl | rfl
    · exact h.frame h.infos rfl (fun _ hmem ↦ hmem) hready
    · refine ⟨h.infos, h.rows, fun outcome hmem ↦ ?_, hready⟩
      rcases List.mem_append.mp hmem with hmem | hmem
      · exact h.published outcome hmem
      · obtain ⟨hid, houtcome⟩ := Entry.published.inj (List.mem_singleton.mp hmem)
        obtain ⟨hjustified, hholds⟩ := hready.2.2 hid.symm
        rw [houtcome, hjustified.normalizeUpper_eq.1]
        exact hholds
  | mark result now update published rest hworker _ state hnext =>
    rw [hworker] at hready
    obtain ⟨htracked, hnot, hupdate⟩ := hready
    refine h.upsert (fun hid ↦ ?_) fun hid ↦ ?_
    · rcases hnext with rfl | rfl
      · trivial
      · exact htracked
    · obtain ⟨hjustified, hholds⟩ := hupdate hid
      refine h.write_justified hid hjustified (fun outcome h ↦ h.unique hholds) fun row _ ↦ ?_
      rcases hnext with rfl | rfl
      · trivial
      · exact htracked.of_notMem (hid ▸ hnot) row
  | resolve id outcome => exact Agreed.resolve h he outcome
  | rewrite id record =>
    refine h.frame h.infos ?_ (fun outcome hmem ↦ ?_) hready
    · exact (Table.get_insert ..).trans (if_neg (Ne.symm he))
    · rcases List.mem_append.mp hmem with hmem | hmem
      · exact hmem
      · cases List.mem_singleton.mp hmem
  | describe id info' =>
    refine h.frame (fun other hother ↦ ?_) rfl (fun _ hmem ↦ hmem) hready
    rw [Table.get_insert] at hother
    split_ifs at hother with hid
    · exact Option.some_inj.mp hother ▸ he hid.symm
    · exact h.infos other hother

/-- **One justified outcome.** If only the worker writes the row of a market, all `RESOLVED` events of the market
carry the same outcome, in every run. A price that the provider gave in the run, in the window and not too old,
gave that outcome. -/
theorem published_one_outcome (cfg : Config) (w : World) (marketID : ℤ) (info : MarketInfo) (events : List Event)
    (hidle : w.worker = .idle) (hrow : w.store.resolutions.get marketID = none)
    (hlog : ∀ outcome, .published marketID outcome ∉ w.log) (hinfo : ∀ info' ∈ w.infos.get marketID, info' = info)
    (hevents : ∀ e ∈ events, e.Leaves marketID info) (t : World) (hvisit : Visits (step cfg) w events t) :
    (∀ o₁ o₂, .published marketID o₁ ∈ t.log → .published marketID o₂ ∈ t.log → o₁ = o₂) ∧
      ∀ outcome, .published marketID outcome ∈ t.log →
        ∃ contract observation, cfg.contractOf info = some contract ∧ w.Observes cfg events marketID observation ∧
          contract.Timely info.resolveAt observation ∧
          contract.resolveOutcome observation.observedScaled = some outcome := by
  have hstart : Agreed cfg marketID info (w.Observes cfg events marketID) w := by
    refine ⟨hinfo, ?_, fun outcome hmem ↦ absurd hmem (hlog outcome), by rw [hidle]; trivial⟩
    rw [hrow]
    exact nofun
  have hagreed : Agreed cfg marketID info (w.Observes cfg events marketID) t := by
    refine visits_induction hstart (fun u e u' htake hu ↦ ?_) t hvisit
    refine Agreed.step hu (hevents e htake.mem) ?_ (moved_of_step htake.step_eq)
    rintro nowUnix observation rfl hconsiders
    exact ⟨u, nowUnix, u', htake, hconsiders⟩
  refine ⟨fun o₁ o₂ h₁ h₂ ↦ (hagreed.published o₁ h₁).unique (hagreed.published o₂ h₂), fun outcome hmem ↦ ?_⟩
  obtain ⟨record, -, ⟨contract, observation, hground, -⟩, rfl⟩ := hagreed.published outcome hmem
  exact ⟨contract, observation, hground.contract_eq, hground.seen, hground.timely, hground.outcome_eq⟩

/-- The note that the event is out is lost, and the event is published again. -/
theorem published_again_one_outcome :
    ∃ t, exec (step sampleConfig) sampleWorld (observeAndPublish ++ [.mark .failed, .poll .done, .list 12 .done,
        .consider 12 .nothing, .publish 12 .done]) = some t ∧
      t.log = [.published 1 "YES", .published 1 "YES"] ∧
      ∀ outcome, .published 1 outcome ∈ t.log →
        ∃ contract observation, sampleConfig.contractOf ⟨10, "CRYPTO", "metadata", "options"⟩ = some contract ∧
          contract.Timely 10 observation ∧ contract.resolveOutcome observation.observedScaled = some outcome := by
  refine exists_exec (by decide +kernel) fun t ht _ outcome hmem ↦ ?_
  obtain ⟨contract, observation, hcontract, -, htimely, houtcome⟩ :=
    (published_one_outcome sampleConfig sampleWorld 1 ⟨10, "CRYPTO", "metadata", "options"⟩ _ rfl rfl
      (by simp [sampleWorld]) (by rintro _ ⟨⟩; rfl) (by simp [observeAndPublish, Event.Leaves]) t
      (visits_of_exec ht)).2 outcome hmem
  exact ⟨contract, observation, hcontract, htimely, houtcome⟩

end World

end FunnyOption.Oracle
