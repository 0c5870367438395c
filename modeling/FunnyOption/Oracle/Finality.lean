import FunnyOption.Oracle.Worker

/-!
# Whether a resolution is final

The settlement service writes `RESOLVED` to the row of a market in the transaction that resolves the market, and
not again after that. The worker writes the row without looking at it. What it writes is never `RESOLVED`: so a
resolution stays exactly if no write of the worker meets one.

## Main results

* `World.resolved_final_iff`: along a run of the worker and the settlement service, resolved rows stay as they are
  if and only if the worker writes none of them.
* `World.resolved_overwritten`: the write after the publish overwrites the resolution that the event has brought
  about.
-/

open Foundation

namespace FunnyOption.Oracle

open Settlement (ResolutionRecord)

variable {cfg : Config} {w w' : World} {marketID : ℤ}

/-! ## What the worker writes -/

/-- The update of a decision. -/
def Decision.update : Decision → Option ResolutionUpdate
  | .skip => none
  | .report update | .observe update | .dispatch update => some update

/-- The update that the worker has in hand. -/
def WorkerState.pending : WorkerState → Option ResolutionUpdate
  | .writing _ update _ _ | .publishing _ update _ | .marking _ update _ _ => some update
  | _ => none

/-- A status that the worker writes. -/
def Written (record : ResolutionRecord) : Prop :=
  record.status = "OBSERVED" ∨ record.status = "TERMINAL_ERROR" ∨ record.status = "RETRYABLE_ERROR"

theorem Written.ne_resolved {record : ResolutionRecord} (h : Written record) : record.status ≠ "RESOLVED" := by
  rcases h with h | h | h <;> rw [h] <;> decide

/-- The worker never decides to write `RESOLVED`. -/
theorem Config.Decided.written {market : EligibleMarket} {answer : Answer} {decision : Decision}
    (h : cfg.Decided market answer decision) : ∀ update ∈ decision.update, Written update.record := by
  intro update hupdate
  cases h with
  | skip => cases hupdate
  | report _ _ hstatus =>
    cases hupdate
    exact .inr hstatus
  | observe _ _ hstatus =>
    cases hupdate
    exact .inl hstatus
  | dispatch _ _ hstatus =>
    cases hupdate
    exact .inl hstatus

namespace World

theorem pending_decided (now : ℤ) (rest : List EligibleMarket) (decision : Decision) :
    (decided now rest decision).pending = decision.update := by
  cases decision <;> rfl

/-! ## The rows -/

/-- The row of a market is resolved. -/
def ResolvedWith (w : World) (marketID : ℤ) (outcome : String) : Prop :=
  ∃ row, w.store.resolutions.get marketID = some row ∧ row.status = "RESOLVED" ∧ row.resolvedOutcome = outcome

/-- Resolved rows stay as they are. -/
def Final (w w' : World) : Prop :=
  ∀ marketID outcome, w.ResolvedWith marketID outcome → w'.ResolvedWith marketID outcome

/-- The market of a resolved row is resolved. -/
def Consistent (w : World) : Prop := ∀ marketID outcome, w.ResolvedWith marketID outcome →
    ∃ market, w.store.markets.get marketID = some market ∧ market.status = "RESOLVED"

/-- The worker writes a row that is resolved. -/
def Overwrites (w : World) (e : Event) : Prop :=
  ∃ update ∈ w.writes e, ∃ row ∈ w.store.resolutions.get update.marketID, row.status = "RESOLVED"

instance (w : World) (e : Event) : Decidable (w.Overwrites e) :=
  inferInstanceAs (Decidable (∃ update ∈ w.writes e, ∃ row ∈ w.store.resolutions.get update.marketID, _))

theorem get_upsertResolution (w : World) (update : ResolutionUpdate) (marketID : ℤ) :
    (w.upsertResolution update).store.resolutions.get marketID =
      if marketID = update.marketID then
        some { update.record with evidence := Settlement.normalizeResolutionEvidence update.record.evidence }
      else w.store.resolutions.get marketID :=
  Table.get_insert ..

/-! ## The invariant -/

/-- The market of a resolved row is resolved, and the worker has no resolution in hand. -/
structure Sound (w : World) : Prop where
  consistent : w.Consistent
  written : ∀ update ∈ w.worker.pending, Written update.record

variable {update : ResolutionUpdate}

/-- A write of the worker changes one row, to one that is not resolved. -/
theorem resolvedWith_upsertResolution (h : Written update.record) {m : ℤ} {outcome : String} :
    (w.upsertResolution update).ResolvedWith m outcome ↔ m ≠ update.marketID ∧ w.ResolvedWith m outcome := by
  by_cases hm : m = update.marketID
  · refine iff_of_false ?_ fun h ↦ h.1 hm
    rintro ⟨row, hrow, hstatus, -⟩
    rw [get_upsertResolution, if_pos hm, Option.some_inj] at hrow
    subst hrow
    exact h.ne_resolved hstatus
  · rw [ResolvedWith, get_upsertResolution, if_neg hm]
    exact (and_iff_right hm).symm

theorem Consistent.upsertResolution (h : w.Consistent) (hwritten : Written update.record) :
    (w.upsertResolution update).Consistent := fun m outcome hm ↦
  h m outcome ((resolvedWith_upsertResolution hwritten).mp hm).2

theorem Consistent.resolve (h : w.Consistent) (id : ℤ) (outcome : String) : (w.resolve id outcome).Consistent := by
  intro m outcome' hm
  rcases resolve_cases w id outcome with ⟨-, hrows, hmarkets⟩ | ⟨-, -, record, -, hrows, hmarkets⟩
  · obtain ⟨market, hmarket, hstatus⟩ := h m outcome' (by rwa [ResolvedWith, hrows] at hm)
    exact ⟨market, hmarkets m market hmarket, hstatus⟩
  · rw [hmarkets]
    split_ifs with hid
    · exact ⟨_, rfl, rfl⟩
    · rw [ResolvedWith, hrows, Table.get_insert, if_neg hid] at hm
      exact h m outcome' hm

theorem Sound.step (h : w.Sound) {e : Event} (he : ∀ marketID record, e ≠ .rewrite marketID record)
    (hmove : Moved cfg w e w') : w'.Sound := by
  cases hmove with
  | halt e state hrest =>
    refine ⟨h.consistent, fun update hupdate ↦ ?_⟩
    rcases hrest with rfl | rfl <;> cases hupdate
  | list now => exact ⟨h.consistent, nofun⟩
  | consider nowUnix answer now market rest =>
    refine ⟨h.consistent, fun update hupdate ↦ ?_⟩
    rw [pending_decided] at hupdate
    exact (Config.decided_processMarket nowUnix now).written update hupdate
  | write result now update publish rest hworker _ state hnext =>
    have hwritten : Written update.record := h.written update (by rw [hworker]; rfl)
    refine ⟨h.consistent.upsertResolution hwritten, fun update' hupdate ↦ ?_⟩
    rcases hnext with rfl | ⟨-, rfl⟩ | rfl
    · cases hupdate
    · exact Option.some_inj.mp hupdate ▸ hwritten
    · cases hupdate
  | publish nowUnix result now update rest hworker published error w₁ hw₁ =>
    have hwritten : Written update.record := h.written update (by rw [hworker]; rfl)
    have hattempted : ∀ update' ∈ some (attempted cfg nowUnix update published error), Written update'.record := by
      rintro _ ⟨⟩
      exact hwritten
    rcases hw₁ with rfl | rfl
    · exact ⟨h.consistent, hattempted⟩
    · exact ⟨h.consistent, hattempted⟩
  | mark result now update published rest hworker _ state hnext =>
    have hwritten : Written update.record := h.written update (by rw [hworker]; rfl)
    refine ⟨h.consistent.upsertResolution hwritten, fun update' hupdate ↦ ?_⟩
    rcases hnext with rfl | rfl <;> cases hupdate
  | resolve id outcome =>
    refine ⟨h.consistent.resolve id outcome, fun update hupdate ↦ h.written update ?_⟩
    rwa [worker_resolve] at hupdate
  | rewrite id record => exact absurd rfl (he id record)
  | describe id info => exact ⟨h.consistent, h.written⟩

/-! ## Steps and runs -/

/-- A write of the worker is final for resolved rows exactly if its row is not one. -/
theorem final_upsertResolution_iff {e : Event} (hwrites : w.writes e = some update)
    (hwritten : Written update.record) {state : WorkerState} :
    w.Final { w.upsertResolution update with worker := state } ↔ ¬ w.Overwrites e := by
  rw [Overwrites, hwrites]
  constructor
  · rintro hfinal ⟨_, ⟨⟩, row, hrow, hstatus⟩
    exact ((resolvedWith_upsertResolution hwritten).mp (hfinal _ _ ⟨row, hrow, hstatus, rfl⟩)).1 rfl
  · intro hfree m outcome hm
    refine (resolvedWith_upsertResolution hwritten).mpr ⟨?_, hm⟩
    rintro rfl
    obtain ⟨row, hrow, hstatus, -⟩ := hm
    exact hfree ⟨update, rfl, row, hrow, hstatus⟩

theorem final_resolve (h : w.Consistent) (id : ℤ) (outcome : String) : w.Final (w.resolve id outcome) := by
  intro m outcome' hm
  rcases resolve_cases w id outcome with ⟨-, hrows, -⟩ | ⟨-, hopen, record, -, hrows, -⟩
  · rwa [ResolvedWith, hrows]
  · -- the market is not resolved, so its row is not, and another row is left alone
    have hne : m ≠ id := by
      rintro rfl
      obtain ⟨market, hmarket, hstatus⟩ := h m outcome' hm
      exact hopen market hmarket hstatus
    rwa [ResolvedWith, hrows, Table.get_insert, if_neg hne]

theorem final_iff_of_moved (h : w.Sound) {e : Event} (he : ∀ marketID record, e ≠ .rewrite marketID record)
    (hmove : Moved cfg w e w') : w.Final w' ↔ ¬ w.Overwrites e := by
  have hquiet : w.writes e = none → ¬ w.Overwrites e := by
    rintro hnone ⟨update, hupdate, -⟩
    rw [hnone] at hupdate
    cases hupdate
  cases hmove with
  | halt e state _ hnone => exact iff_of_true (fun _ _ hm ↦ hm) (hquiet hnone)
  | list now => exact iff_of_true (fun _ _ hm ↦ hm) (hquiet rfl)
  | consider nowUnix answer now market rest => exact iff_of_true (fun _ _ hm ↦ hm) (hquiet rfl)
  | write result now update publish rest hworker hran state =>
    have hwrites : w.writes (.upsert result) = some update := by
      rw [writes, hworker]
      exact if_pos hran
    exact final_upsertResolution_iff hwrites (h.written update (by rw [hworker]; rfl))
  | publish nowUnix result now update rest hworker published error w₁ hw₁ =>
    refine iff_of_true (fun m outcome hm ↦ ?_) (hquiet rfl)
    rcases hw₁ with rfl | rfl
    · exact hm
    · exact hm
  | mark result now update published rest hworker hran state =>
    have hwrites : w.writes (.mark result) = some update := by
      rw [writes, hworker]
      exact if_pos hran
    exact final_upsertResolution_iff hwrites (h.written update (by rw [hworker]; rfl))
  | resolve id outcome => exact iff_of_true (final_resolve h.consistent id outcome) (hquiet rfl)
  | rewrite id record => exact absurd rfl (he id record)
  | describe id info => exact iff_of_true (fun _ _ hm ↦ hm) (hquiet rfl)

/-- **Resolved rows stay as they are if and only if the worker writes none of them**, along every run of the worker
and the settlement service. -/
theorem resolved_final_iff (cfg : Config) (w : World) (hidle : w.worker = .idle) (hconsistent : w.Consistent)
    (events : List Event) (hevents : ∀ marketID record, .rewrite marketID record ∉ events) :
    (∀ t e t', Takes (World.step cfg) w events t e t' → t.Final t') ↔
      ∀ t e t', Takes (World.step cfg) w events t e t' → ¬ t.Overwrites e := by
  have hother : ∀ t e t', Takes (World.step cfg) w events t e t' → ∀ id record, e ≠ .rewrite id record := by
    rintro t e t' htake id record rfl
    exact hevents id record htake.mem
  have hstart : w.Sound := by
    refine ⟨hconsistent, fun update hupdate ↦ ?_⟩
    rw [hidle] at hupdate
    cases hupdate
  have hsound : ∀ t, Visits (World.step cfg) w events t → t.Sound := by
    refine visits_induction hstart fun t e t' htake ht ↦ ?_
    exact ht.step (hother t e t' htake) (moved_of_step htake.step_eq)
  refine forall₄_congr fun t e t' htake ↦ ?_
  exact final_iff_of_moved (hsound t htake.visits) (hother t e t' htake) (moved_of_step htake.step_eq)

/-! ## The event and its resolution -/

/-- The worker observes a price and publishes the outcome. -/
def observeAndPublish : List Event :=
  [.poll .done, .list 11 .done, .consider 11 (.observed sampleObservation), .upsert .done, .publish 11 .done]

private theorem rewrite_notMem {events : List Event} (h : ∀ e ∈ events, ∀ id record, e ≠ .rewrite id record) :
    ∀ id record, .rewrite id record ∉ events := fun id record hmem ↦ h _ hmem id record rfl

/-- The settlement service takes the event after the worker has noted that it is out. -/
theorem resolved_after_mark : Along (step sampleConfig) (fun t e ↦ ¬ t.Overwrites e) sampleWorld
        (observeAndPublish ++ [.mark .done, .resolve 1 "YES"]) ∧
      ∀ t e t', Takes (step sampleConfig) sampleWorld (observeAndPublish ++ [.mark .done, .resolve 1 "YES"]) t e t' →
        t.Final t' := by
  have hfree : Along (step sampleConfig) (fun t e ↦ ¬ t.Overwrites e) sampleWorld
      (observeAndPublish ++ [.mark .done, .resolve 1 "YES"]) := by
    decide +kernel
  refine ⟨hfree, (resolved_final_iff sampleConfig sampleWorld rfl ?_ _ ?_).mpr fun t e t' ↦ hfree.of_takes⟩
  · rintro m outcome ⟨row, hrow, -⟩
    cases hrow
  · exact rewrite_notMem (by simp [observeAndPublish])

/-- The settlement service takes the event first, and the worker overwrites the resolution. -/
theorem resolved_overwritten :
    ∃ t t', exec (step sampleConfig) sampleWorld (observeAndPublish ++ [.resolve 1 "YES"]) = some t ∧
      t.step sampleConfig (.mark .done) = some t' ∧
      (t.store.resolutions.get 1).map (·.status) = some "RESOLVED" ∧
      (t'.store.resolutions.get 1).map (·.status) = some "OBSERVED" := by
  obtain ⟨t, ht, t', hrest⟩ : ∃ t ∈ exec (step sampleConfig) sampleWorld (observeAndPublish ++ [.resolve 1 "YES"]),
      ∃ t' ∈ t.step sampleConfig (.mark .done), (t.store.resolutions.get 1).map (·.status) = some "RESOLVED" ∧
        (t'.store.resolutions.get 1).map (·.status) = some "OBSERVED" := by
    decide +kernel
  exact ⟨t, t', ht, hrest⟩

end World

end FunnyOption.Oracle
