import FunnyOption.Oracle.Worker

/-!
# Terminal errors

A terminal error is to end what the worker does for a market, until an operator steps in. The worker reads the row
of the error like any other: `ListEligibleMarkets` returns the market on every poll, and `processMarket` asks the
provider again. Its silence is therefore up to the provider: while every later answer is as useless as the one
before, the row goes from one error to the next, and nothing is published.

## Main results

* `World.terminal_error_silent`: no event follows a terminal error in the log, unless another service rewrote the
  row in between, along every run in which no such market gets a usable answer.
* `World.published_after_terminal_error`: a market gets a usable answer after a terminal error.
-/

open Foundation

namespace FunnyOption.Oracle

open Config (Troubled Usable)

/-! ## Logs -/

/-- The worker has stored a terminal error, and nobody else has written the row since. -/
def Stopped (log : List Entry) (marketID : ℤ) : Prop :=
  ∃ pre post, log = pre ++ .terminal marketID :: post ∧ .rewritten marketID ∉ post

/-- No event is published for a market that is stopped. -/
def Silent (log : List Entry) : Prop :=
  ∀ pre marketID outcome post, log = pre ++ .published marketID outcome :: post → ¬ Stopped pre marketID

variable {log : List Entry} {entry : Entry} {m : ℤ}

theorem stopped_concat_iff :
    Stopped (log ++ [entry]) m ↔ entry = .terminal m ∨ Stopped log m ∧ entry ≠ .rewritten m := by
  constructor
  · rintro ⟨pre, post, heq, hpost⟩
    rcases List.eq_nil_or_concat post with rfl | ⟨post, last, rfl⟩
    · obtain ⟨-, hentry⟩ := List.append_inj' heq rfl
      exact .inl (List.singleton_inj.mp hentry)
    · rw [List.concat_eq_append, ← List.cons_append, ← List.append_assoc] at heq
      obtain ⟨rfl, hentry⟩ := List.append_inj' heq rfl
      rw [List.concat_eq_append, List.mem_append, not_or] at hpost
      refine .inr ⟨⟨pre, post, rfl, hpost.1⟩, ?_⟩
      rintro rfl
      exact hpost.2 (List.mem_singleton.mpr (List.singleton_inj.mp hentry))
  · rintro (rfl | ⟨⟨pre, post, rfl, hpost⟩, hentry⟩)
    · exact ⟨log, [], rfl, List.not_mem_nil⟩
    · refine ⟨pre, post ++ [entry], by simp, ?_⟩
      rw [List.mem_append, List.mem_singleton, not_or]
      exact ⟨hpost, hentry.symm⟩

theorem silent_concat_iff :
    Silent (log ++ [entry]) ↔ Silent log ∧ ∀ m outcome, entry = .published m outcome → ¬ Stopped log m := by
  constructor
  · refine fun h ↦ ⟨fun pre m outcome post heq ↦ ?_, fun m outcome heq ↦ ?_⟩
    · exact h pre m outcome (post ++ [entry]) (by simp [heq])
    · exact h log m outcome [] (by rw [heq])
  · rintro ⟨h, hlast⟩ pre m outcome post heq
    rcases List.eq_nil_or_concat post with rfl | ⟨post, last, rfl⟩
    · obtain ⟨rfl, hentry⟩ := List.append_inj' heq rfl
      exact hlast m outcome (List.singleton_inj.mp hentry)
    · rw [List.concat_eq_append, ← List.cons_append, ← List.append_assoc] at heq
      obtain ⟨rfl, -⟩ := List.append_inj' heq rfl
      exact h pre m outcome post rfl

/-! ## The invariant -/

/-- The markets that a poll still has to process are different, and stopped ones were read with an error. -/
structure Listed (log : List Entry) (rest : List EligibleMarket) : Prop where
  nodup : (rest.map EligibleMarket.marketID).Nodup
  troubled : ∀ market ∈ rest, Stopped log market.marketID → Troubled market.resolution

/-- The worker has nothing in hand that is published for a stopped market. -/
def WorkerState.Held (log : List Entry) : WorkerState → Prop
  | .idle | .listing => True
  | .processing _ rest => Listed log rest
  | .writing _ update publish rest =>
    Listed log rest ∧ update.marketID ∉ rest.map EligibleMarket.marketID ∧
      if publish then update.record.status = "OBSERVED" ∧ ¬ Stopped log update.marketID else Troubled update.record
  | .publishing _ update rest | .marking _ update _ rest =>
    Listed log rest ∧ update.record.status = "OBSERVED" ∧ ¬ Stopped log update.marketID

variable {rest : List EligibleMarket}

theorem Listed.mono {log' : List Entry} (h : Listed log rest) (hlog : ∀ m, Stopped log' m → Stopped log m) :
    Listed log' rest :=
  ⟨h.nodup, fun market hmem hstopped ↦ h.troubled market hmem (hlog _ hstopped)⟩

/-- If fewer markets are stopped, less is asked. -/
theorem WorkerState.Held.mono {log' : List Entry} {state : WorkerState} (h : state.Held log)
    (hlog : ∀ m, Stopped log' m → Stopped log m) : state.Held log' := by
  cases state with
  | idle | listing => trivial
  | processing => exact Listed.mono h hlog
  | writing now update publish rest =>
    obtain ⟨hlisted, hmem, hupdate⟩ := h
    refine ⟨hlisted.mono hlog, hmem, ?_⟩
    split_ifs at hupdate ⊢
    · exact ⟨hupdate.1, fun hstopped ↦ hupdate.2 (hlog _ hstopped)⟩
    · exact hupdate
  | publishing | marking =>
    obtain ⟨hlisted, hstatus, hupdate⟩ := h
    exact ⟨hlisted.mono hlog, hstatus, fun hstopped ↦ hupdate (hlog _ hstopped)⟩

namespace World

variable {cfg : Config} {w w' : World}

/-- Nothing was published for a stopped market, whose row has an error. -/
structure Quieted (w : World) : Prop where
  silent : Silent w.log
  rows : ∀ m, Stopped w.log m → Troubled (resolution w.store m)
  worker : w.worker.Held w.log

/-- A market that is stopped gets no usable answer. -/
def Unanswered (cfg : Config) (w : World) : Event → Prop
  | .consider _ answer =>
    ∀ now market rest, w.worker = .processing now (market :: rest) → Stopped w.log market.marketID →
      ¬ cfg.Usable market answer
  | _ => True

/-! ### Writes of the worker -/

theorem resolution_upsertResolution (w : World) (update : ResolutionUpdate) (m : ℤ) :
    resolution (w.upsertResolution update).store m =
      if m = update.marketID then
        { update.record with evidence := Settlement.normalizeResolutionEvidence update.record.evidence }
      else resolution w.store m := by
  rw [resolution, upsertResolution, Table.get_insert]
  split_ifs <;> rfl

variable {update : ResolutionUpdate}

theorem stopped_upsertResolution_iff : Stopped (w.upsertResolution update).log m ↔
      Stopped w.log m ∨ m = update.marketID ∧ update.record.status = "TERMINAL_ERROR" := by
  rw [upsertResolution]
  dsimp only
  split_ifs with hterminal
  · rw [stopped_concat_iff]
    constructor
    · rintro (heq | ⟨h, -⟩)
      · exact .inr ⟨(Entry.terminal.inj heq).symm, hterminal⟩
      · exact .inl h
    · rintro (h | ⟨rfl, -⟩)
      · exact .inr ⟨h, nofun⟩
      · exact .inl rfl
  · simp [hterminal]

theorem silent_upsertResolution (h : Silent w.log) : Silent (w.upsertResolution update).log := by
  rw [upsertResolution]
  dsimp only
  split_ifs
  · exact silent_concat_iff.mpr ⟨h, nofun⟩
  · exact h

/-- The rows after a write: an error, or an observation of a market that is not stopped. -/
theorem Quieted.rows_upsertResolution (h : w.Quieted)
    (hupdate : Troubled update.record ∨ update.record.status = "OBSERVED" ∧ ¬ Stopped w.log update.marketID) :
    ∀ m, Stopped (w.upsertResolution update).log m → Troubled (resolution (w.upsertResolution update).store m) := by
  intro m hm
  rw [resolution_upsertResolution]
  split_ifs with heq
  · rcases hupdate with hupdate | ⟨hstatus, hfree⟩
    · exact hupdate
    · rcases stopped_upsertResolution_iff.mp hm with hm | ⟨-, hterminal⟩
      · exact absurd (heq ▸ hm) hfree
      · exact absurd (hstatus.symm.trans hterminal) (by decide)
  · rcases stopped_upsertResolution_iff.mp hm with hm | ⟨rfl, -⟩
    · exact h.rows m hm
    · exact absurd rfl heq

/-- A write leaves the rest of the list as it is: it has another market. -/
theorem Listed.upsertResolution (h : Listed w.log rest) (hmem : update.marketID ∉ rest.map EligibleMarket.marketID) :
    Listed (w.upsertResolution update).log rest := by
  refine ⟨h.nodup, fun market hmarket hstopped ↦ ?_⟩
  rcases stopped_upsertResolution_iff.mp hstopped with hstopped | ⟨heq, -⟩
  · exact h.troubled market hmarket hstopped
  · exact absurd (heq ▸ List.mem_map_of_mem hmarket) hmem

theorem stopped_upsertResolution_of_observed (h : update.record.status = "OBSERVED") :
    ∀ m, Stopped (w.upsertResolution update).log m → Stopped w.log m := by
  intro m hm
  rcases stopped_upsertResolution_iff.mp hm with hm | ⟨-, hterminal⟩
  · exact hm
  · exact absurd (h.symm.trans hterminal) (by decide)

/-! ### Reads and decisions -/

/-- The list of a poll has every market once, with the row it has then. -/
theorem Quieted.listed (h : w.Quieted) (now : ℤ) (limit : ℕ) :
    Listed w.log (w.listEligibleMarkets cfg now limit) := by
  constructor
  · exact nodup_listEligibleMarkets ..
  · rintro market hmarket hstopped
    obtain ⟨p, -, rfl⟩ := List.mem_map.mp hmarket
    exact h.rows _ hstopped

/-- A row with an error is not observed. -/
theorem Troubled.ne_observed {record : Settlement.ResolutionRecord} (h : Troubled record) :
    normalizeUpper record.status ≠ "OBSERVED" := by
  rcases h with h | h <;> rw [h] <;> decide

/-- What is decided for the next market of the list. -/
theorem Listed.decided {market : EligibleMarket} {answer : Answer} {decision : Decision}
    (h : Listed w.log (market :: rest)) (hdecided : cfg.Decided market answer decision)
    (hanswer : Stopped w.log market.marketID → ¬ cfg.Usable market answer) (now : ℤ) :
    (decided now rest decision).Held w.log := by
  obtain ⟨hmem, hnodup⟩ := List.nodup_cons.mp (List.map_cons ▸ h.nodup)
  have hrest : Listed w.log rest := ⟨hnodup, fun market' hmem' ↦ h.troubled market' (List.mem_cons_of_mem _ hmem')⟩
  cases hdecided with
  | skip => exact hrest
  | report update hid hstatus => exact ⟨hrest, hid ▸ hmem, hstatus⟩
  | observe update hid hstatus husable =>
    exact ⟨hrest, hid ▸ hmem, hstatus, fun hstopped ↦ hanswer (hid ▸ hstopped) husable⟩
  | dispatch update hid hstatus hobserved =>
    refine ⟨hrest, hstatus, fun hstopped ↦ ?_⟩
    exact Troubled.ne_observed (h.troubled market List.mem_cons_self (hid ▸ hstopped)) hobserved

/-! ### Steps -/

/-- Another service has written a row. -/
theorem Quieted.rewritten (h : w.Quieted) {id : ℤ} (hlog : w'.log = w.log ++ [.rewritten id])
    (hrows : ∀ m, m ≠ id → w'.store.resolutions.get m = w.store.resolutions.get m) (hworker : w'.worker = w.worker) :
    w'.Quieted := by
  have hstopped : ∀ m, Stopped w'.log m → Stopped w.log m ∧ m ≠ id := by
    intro m hm
    rw [hlog, stopped_concat_iff] at hm
    rcases hm with heq | ⟨hm, hne⟩
    · cases heq
    · refine ⟨hm, ?_⟩
      rintro rfl
      exact hne rfl
  refine ⟨?_, fun m hm ↦ ?_, ?_⟩
  · rw [hlog]
    exact silent_concat_iff.mpr ⟨h.silent, nofun⟩
  · rw [resolution, hrows m (hstopped m hm).2]
    exact h.rows m (hstopped m hm).1
  · rw [hworker]
    exact h.worker.mono fun m hm ↦ (hstopped m hm).1

theorem Quieted.step (h : w.Quieted) {e : Event} (hanswer : w.Unanswered cfg e) (hmove : Moved cfg w e w') :
    w'.Quieted := by
  cases hmove with
  | halt e state hrest =>
    refine ⟨h.silent, h.rows, ?_⟩
    rcases hrest with rfl | rfl <;> trivial
  | list now => exact ⟨h.silent, h.rows, h.listed now 20⟩
  | consider nowUnix answer now market rest hworker =>
    have hlisted : Listed w.log (market :: rest) := by
      have hheld := h.worker
      rwa [hworker] at hheld
    exact ⟨h.silent, h.rows, Listed.decided hlisted (Config.decided_processMarket nowUnix now)
      (hanswer now market rest hworker) now⟩
  | write result now update publish rest hworker _ state hnext =>
    obtain ⟨hlisted, hmem, hupdate⟩ : WorkerState.Held w.log (.writing now update publish rest) := hworker ▸ h.worker
    refine ⟨silent_upsertResolution h.silent, h.rows_upsertResolution ?_, ?_⟩
    · split_ifs at hupdate
      · exact .inr hupdate
      · exact .inl hupdate
    · rcases hnext with rfl | ⟨hpublish, rfl⟩ | rfl
      · trivial
      · rw [if_pos hpublish] at hupdate
        refine ⟨Listed.upsertResolution hlisted hmem, hupdate.1, fun hstopped ↦ hupdate.2 ?_⟩
        exact stopped_upsertResolution_of_observed hupdate.1 _ hstopped
      · exact Listed.upsertResolution hlisted hmem
  | publish nowUnix result now update rest hworker published error w₁ hw₁ =>
    obtain ⟨hlisted, hstatus, hfree⟩ : WorkerState.Held w.log (.publishing now update rest) := hworker ▸ h.worker
    rcases hw₁ with rfl | rfl
    · exact ⟨h.silent, h.rows, hlisted, hstatus, hfree⟩
    · have hlog : ∀ m, Stopped (w.publish update).log m → Stopped w.log m := by
        intro m hm
        rcases stopped_concat_iff.mp hm with heq | ⟨hm, -⟩
        · cases heq
        · exact hm
      refine ⟨silent_concat_iff.mpr ⟨h.silent, ?_⟩, fun m hm ↦ h.rows m (hlog m hm), hlisted.mono hlog, hstatus,
        fun hstopped ↦ hfree (hlog _ hstopped)⟩
      rintro m outcome heq
      obtain ⟨rfl, -⟩ := Entry.published.inj heq
      exact hfree
  | mark result now update published rest hworker _ state hnext =>
    obtain ⟨hlisted, hstatus, hfree⟩ : WorkerState.Held w.log (.marking now update published rest) :=
      hworker ▸ h.worker
    refine ⟨silent_upsertResolution h.silent, h.rows_upsertResolution (.inr ⟨hstatus, hfree⟩), ?_⟩
    rcases hnext with rfl | rfl
    · trivial
    · exact hlisted.mono (stopped_upsertResolution_of_observed hstatus)
  | resolve id outcome =>
    rcases resolve_cases w id outcome with ⟨hlog, hrows, -⟩ | ⟨hlog, -, record, -, hrows, -⟩
    · refine ⟨hlog ▸ h.silent, fun m hm ↦ ?_, ?_⟩
      · rw [resolution, hrows]
        exact h.rows m (hlog ▸ hm)
      · rw [worker_resolve, hlog]
        exact h.worker
    · exact h.rewritten hlog (fun m hm ↦ by rw [hrows, Table.get_insert, if_neg hm]) (worker_resolve w id outcome)
  | rewrite id record =>
    exact h.rewritten rfl (fun m hm ↦ by rw [logRewrite, Table.get_insert, if_neg hm]) rfl
  | describe id info => exact { h with }

/-! ## Runs -/

/-- **A terminal error is followed by silence** if no market with one gets a usable answer later. -/
theorem terminal_error_silent (cfg : Config) (w : World) (hidle : w.worker = .idle) (hlog : w.log = [])
    (events : List Event)
    (hanswers : ∀ t e t', Takes (World.step cfg) w events t e t' → t.Unanswered cfg e) :
    ∀ t, Visits (World.step cfg) w events t → Silent t.log := by
  have hstart : w.Quieted := by
    refine ⟨?_, ?_, by rw [hidle]; trivial⟩
    · rintro pre m outcome post heq
      rw [hlog] at heq
      simp at heq
    · rintro m ⟨pre, post, heq, -⟩
      rw [hlog] at heq
      simp at heq
  have hquieted : ∀ t, Visits (World.step cfg) w events t → t.Quieted := by
    refine visits_induction hstart fun t e t' htake ht ↦ ?_
    exact ht.step (hanswers t e t' htake) (moved_of_step htake.step_eq)
  exact fun t ht ↦ (hquieted t ht).silent

/-- The condition cannot be dropped anywhere: a usable answer for a market with a terminal error leads to an event,
unless a call fails. -/
theorem not_silent_of_usable {market : EligibleMarket} {now : ℤ} {answer : Answer}
    (hworker : w.worker = .processing now (market :: rest)) (hstopped : Stopped w.log market.marketID)
    (htroubled : Troubled market.resolution) (husable : cfg.Usable market answer) (nowUnix : ℤ) :
    ∃ t, exec (World.step cfg) w [.consider nowUnix answer, .upsert .done, .publish nowUnix .done] = some t ∧
      ¬ Silent t.log := by
  obtain ⟨optionKeys, contract, observation, outcome, hkeys, hcontract, rfl, htiming, houtcome⟩ := husable
  have hresolved : normalizeUpper market.resolution.status ≠ "RESOLVED" := by
    rcases htroubled with h | h <;> rw [h] <;> decide
  obtain ⟨update, hid, hstatus, hobserve⟩ : ∃ update, update.marketID = market.marketID ∧
      update.record.status = "OBSERVED" ∧
      cfg.processMarket nowUnix now market (.observed observation) = .observe update := by
    simp only [Config.processMarket, hkeys, hcontract, if_neg hresolved, if_neg (Troubled.ne_observed htroubled),
      Config.observeMarket, htiming, houtcome]
    exact ⟨_, rfl, rfl, rfl⟩
  have hconsider : w.step cfg (.consider nowUnix (.observed observation)) =
      some { w with worker := .writing now update true rest } := by
    rw [World.step, hworker]
    dsimp only
    rw [hobserve]
    rfl
  rw [exec, List.foldlM_cons, hconsider]
  refine ⟨_, rfl, fun hsilent ↦ ?_⟩
  refine (silent_concat_iff.mp hsilent).2 update.marketID _ rfl ?_
  exact stopped_upsertResolution_iff.mpr (.inl (hid ▸ hstopped))

/-- An answer without an observation is not usable. -/
theorem unanswered_of_ne_observed {nowUnix : ℤ} {answer : Answer} (h : ∀ observation, answer ≠ .observed observation) :
    w.Unanswered cfg (.consider nowUnix answer) := by
  rintro now market rest - - ⟨-, -, observation, -, -, -, heq, -⟩
  exact h observation heq

/-- The provider does not know the symbol, which is a terminal error. -/
def unknownSymbol : List Event :=
  [.poll .done, .list 11 .done, .consider 11 (.failed .unsupportedSymbol false), .upsert .done,
    .consider 11 .nothing, .poll .done, .list 12 .done]

/-- It has no answer at the next poll. -/
theorem silent_after_unknownSymbol : Along (step sampleConfig) (Unanswered sampleConfig) sampleWorld
        (unknownSymbol ++ [.consider 12 .nothing, .upsert .done]) ∧
      ∀ t, Visits (step sampleConfig) sampleWorld (unknownSymbol ++ [.consider 12 .nothing, .upsert .done]) t →
        Silent t.log := by
  have hanswers : Along (step sampleConfig) (Unanswered sampleConfig) sampleWorld
      (unknownSymbol ++ [.consider 12 .nothing, .upsert .done]) := by
    refine ⟨trivial, fun _ _ ↦ ⟨trivial, fun _ _ ↦ ⟨?_, fun _ _ ↦ ⟨trivial, fun _ _ ↦ ⟨?_, fun _ _ ↦ ⟨trivial,
      fun _ _ ↦ ⟨trivial, fun _ _ ↦ ⟨?_, fun _ _ ↦ ⟨trivial, fun _ _ ↦ trivial⟩⟩⟩⟩⟩⟩⟩⟩⟩
    · exact unanswered_of_ne_observed nofun
    · exact unanswered_of_ne_observed nofun
    · exact unanswered_of_ne_observed nofun
  exact ⟨hanswers, terminal_error_silent sampleConfig sampleWorld rfl rfl _ fun t e t' ↦ hanswers.of_takes⟩

/-- It has a price at the next poll, and the worker publishes the outcome. -/
theorem published_after_terminal_error : ∃ t, exec (step sampleConfig) sampleWorld
        (unknownSymbol ++ [.consider 12 (.observed sampleObservation), .upsert .done, .publish 12 .done]) = some t ∧
      t.log = [.terminal 1, .published 1 "YES"] ∧ ¬ Silent t.log := by
  refine exists_exec (by decide +kernel) fun t ht hlog hsilent ↦ ?_
  exact hsilent [.terminal 1] 1 "YES" [] hlog ⟨[], [], rfl, List.not_mem_nil⟩

end World

end FunnyOption.Oracle
