import FunnyOption.Contracts.AcceptedChain

/-!
# Freezing is final

Once a forced withdrawal was not served by its deadline, anyone can freeze the rollup contract. From then on
the batches and the escape roots are what wallets rely on to leave, and no function of the contract that
would change them passes its checks.

An acceptance that has passed its checks before the freeze does not check again. So a verifier that freezes
the contract, as anyone may, returns into an acceptance that writes to the frozen contract.

## Main results

* `freeze_final`: the contract freezes over an open request that is due, and for good. As long as it is not
  frozen while an acceptance waits for its verifier, nothing of the batches and the escape roots changes
  afterwards, and no request is made.
* `accepted_after_freeze`: a verifier freezes the contract, and a batch is accepted after that.
-/

open Foundation

namespace FunnyOption.Contracts

open Rollup

/-! ## What stays when the contract is frozen -/

/-- The batches, the escape roots and the number of requests are the same. -/
structure SameSnapshot (core core' : FunnyRollupCore) : Prop where
  latestBatchId : core'.latestBatchId = core.latestBatchId
  latestStateRoot : core'.latestStateRoot = core.latestStateRoot
  latestAcceptedBatchId : core'.latestAcceptedBatchId = core.latestAcceptedBatchId
  latestAcceptedStateRoot : core'.latestAcceptedStateRoot = core.latestAcceptedStateRoot
  batchMetadata : core'.batchMetadata = core.batchMetadata
  batchDataPublished : core'.batchDataPublished = core.batchDataPublished
  acceptedBatches : core'.acceptedBatches = core.acceptedBatches
  acceptedWithdrawalRoots : core'.acceptedWithdrawalRoots = core.acceptedWithdrawalRoots
  latestEscapeCollateralBatchId : core'.latestEscapeCollateralBatchId = core.latestEscapeCollateralBatchId
  latestEscapeCollateralRoot : core'.latestEscapeCollateralRoot = core.latestEscapeCollateralRoot
  escapeCollateralRoots : core'.escapeCollateralRoots = core.escapeCollateralRoots
  forcedWithdrawalRequestCount : core'.forcedWithdrawalRequestCount = core.forcedWithdrawalRequestCount
  noNewRequest : ∀ requestId, (core.forcedWithdrawalRequests requestId).status = .none →
    core'.forcedWithdrawalRequests requestId = core.forcedWithdrawalRequests requestId

theorem SameSnapshot.refl (core : FunnyRollupCore) : SameSnapshot core core := by
  constructor <;> intros <;> rfl

variable {keccak256 : Bytes → Bytes32} {core core' : FunnyRollupCore} {now : ℕ} {call : CoreCall}

/-- A call that is not an acceptance leaves the snapshot of a frozen contract. -/
theorem sameSnapshot_of_change (h : Change now core call core') (hfrozen : core.frozen = true) :
    SameSnapshot core core' := by
  have hnot (unfrozen : core.frozen = false) : SameSnapshot core core' := by
    rw [hfrozen] at unfrozen
    cases unfrozen
  cases h with
  | record metadata unfrozen => exact hnot unfrozen
  | publish batchId unfrozen => exact hnot unfrozen
  | request requestId request unfrozen => exact hnot unfrozen
  | freeze requestId freezes unfrozen => exact hnot unfrozen
  | anchor batchId root unfrozen => exact hnot unfrozen
  | setVerifier => constructor <;> intros <;> rfl
  | setVault => constructor <;> intros <;> rfl
  | setForcedWithdrawalGracePeriod => constructor <;> intros <;> rfl
  | pay => exact .refl core
  | satisfy requestId claimId pending =>
    refine ⟨rfl, rfl, rfl, rfl, rfl, rfl, rfl, rfl, rfl, rfl, rfl, rfl, fun other hnone ↦ ?_⟩
    have hne : other ≠ requestId := by
      rintro rfl
      rw [pending] at hnone
      cases hnone
    exact Function.update_of_ne hne _ _

/-- The request over which a call freezes the contract. -/
theorem due_of_change (h : Change now core call core') (hbefore : core.frozen = false) (hafter : core'.frozen = true) :
    ∃ requestId, call = .freezeForMissedForcedWithdrawal requestId ∧
      (core.forcedWithdrawalRequests requestId).status = .requested ∧
      (core.forcedWithdrawalRequests requestId).deadlineAt ≤ toUint64 now := by
  have hnot (hsame : core'.frozen = core.frozen) : False := by
    rw [hsame, hbefore] at hafter
    cases hafter
  cases h with
  | freeze requestId freezes unfrozen pending due => exact ⟨requestId, freezes, pending, due⟩
  | _ => exact absurd rfl hnot

theorem frozen_of_change (h : Change now core call core') (hfrozen : core.frozen = true) : core'.frozen = true := by
  cases h with
  | freeze => rfl
  | _ => exact hfrozen

/-! ## Runs -/

/-- The contract is not frozen while an acceptance waits for its verifier. -/
def FreezesAlone (w : Execution) : Event → Prop
  | .call _ _ _ (.freezeForMissedForcedWithdrawal _) => w.pending.length = 0
  | _ => True

instance (w : Execution) (e : Event) : Decidable (FreezesAlone w e) := by
  unfold FreezesAlone
  split <;> infer_instance

variable {w w' : Execution} {e : Event}

/-- The request over which an event freezes the contract. -/
theorem due_of_step (hstep : w.step keccak256 e = some w') (hbefore : w.core.frozen = false)
    (hafter : w'.core.frozen = true) :
    ∃ sender now answers requestId, e = .call sender now answers (.freezeForMissedForcedWithdrawal requestId) ∧
      (w.core.forcedWithdrawalRequests requestId).status = .requested ∧
      (w.core.forcedWithdrawalRequests requestId).deadlineAt ≤ toUint64 now := by
  have hnot (hsame : w'.core.frozen = w.core.frozen) : False := by
    rw [hsame, hbefore] at hafter
    cases hafter
  cases Execution.step_cases hstep with
  | call sender now answers call core' change =>
    obtain ⟨requestId, rfl, hpending, hdue⟩ := due_of_change change hbefore hafter
    exact ⟨sender, now, answers, requestId, rfl, hpending, hdue⟩
  | check => exact absurd rfl hnot
  | accept => exact absurd rfl hnot

theorem frozen_step (hstep : w.step keccak256 e = some w') (hfrozen : w.core.frozen = true) :
    w'.core.frozen = true := by
  cases Execution.step_cases hstep with
  | call sender now answers call core' change => exact frozen_of_change change hfrozen
  | check => exact hfrozen
  | accept => exact hfrozen

/-- No acceptance waits for its verifier once the contract is frozen. -/
theorem pending_step (h : w.core.frozen = true → w.pending = []) (halone : FreezesAlone w e)
    (hstep : w.step keccak256 e = some w') (hfrozen : w'.core.frozen = true) : w'.pending = [] := by
  by_cases hbefore : w.core.frozen = true
  · -- a frozen contract lets no acceptance begin
    cases Execution.step_cases hstep with
    | call => exact h hbefore
    | check sender inputs metadataSubset authStatuses context passed =>
      have hunfrozen := passed.unfrozen
      rw [hbefore] at hunfrozen
      cases hunfrozen
    | accept p pending innermost =>
      rw [h hbefore] at innermost
      cases innermost
  · rw [Bool.not_eq_true] at hbefore
    obtain ⟨sender, now, answers, requestId, rfl, -, -⟩ := due_of_step hstep hbefore hfrozen
    cases Execution.step_cases hstep with
    | call => exact List.length_eq_zero_iff.mp halone

theorem sameSnapshot_step (hpending : w.pending = []) (hstep : w.step keccak256 e = some w')
    (hfrozen : w.core.frozen = true) : SameSnapshot w.core w'.core := by
  cases Execution.step_cases hstep with
  | call sender now answers call core' change => exact sameSnapshot_of_change change hfrozen
  | check => exact .refl w.core
  | accept p pending innermost =>
    rw [hpending] at innermost
    cases innermost

/-- **Freezing is final and justified.** In every run in which the contract is not frozen while an acceptance
waits for its verifier, it is frozen only by a call that names an open request that is due, it stays frozen,
and from then on no step changes the batches and the escape roots or makes a request. -/
theorem freeze_final (keccak256 : Bytes → Bytes32) (operator : Address) (genesisStateRoot : Bytes32)
    (events : List Event)
    (halone : ∀ w e w', Takes (Execution.step keccak256) (.start operator genesisStateRoot) events w e w' →
      FreezesAlone w e) :
    ∀ w e w', Takes (Execution.step keccak256) (.start operator genesisStateRoot) events w e w' →
      (w.core.frozen = false → w'.core.frozen = true → ∃ sender now answers requestId,
          e = .call sender now answers (.freezeForMissedForcedWithdrawal requestId) ∧
          (w.core.forcedWithdrawalRequests requestId).status = .requested ∧
          (w.core.forcedWithdrawalRequests requestId).deadlineAt ≤ toUint64 now) ∧
      (w.core.frozen = true → w'.core.frozen = true ∧ SameSnapshot w.core w'.core) := by
  have hpending : ∀ w, Visits (Execution.step keccak256) (.start operator genesisStateRoot) events w →
      w.core.frozen = true → w.pending = [] := by
    apply visits_induction
    · intro _
      rfl
    · intro w e w' htakes h
      exact pending_step h (halone w e w' htakes) htakes.step_eq
  intro w e w' htakes
  have hstep := htakes.step_eq
  exact ⟨due_of_step hstep, fun hfrozen ↦
    ⟨frozen_step hstep hfrozen, sameSnapshot_step (hpending w htakes.visits hfrozen) hstep hfrozen⟩⟩

/-! ## A verifier that freezes -/

/-- A wallet requests a withdrawal that is due at once, and two batches are recorded and published. -/
def requestedAndPublished (operator wallet : Address) : List Event :=
  .call wallet 0 .transferring (.requestForcedWithdrawal wallet 1) :: twoPublished operator

/-- The contract is frozen, and the operator then changes the vault. -/
def frozenAlone (operator wallet : Address) : List Event := requestedAndPublished operator wallet ++
    [.call wallet 1 .transferring (.freezeForMissedForcedWithdrawal 1),
      .call operator 1 .transferring (.setVault operator)]

theorem freeze_final_frozenAlone :
    Along (Execution.step fun _ ↦ constBytes32 7) FreezesAlone (.start (constAddress 3) (constBytes32 1))
      (frozenAlone (constAddress 3) (constAddress 4)) ∧
    ∃ w e w', Takes (Execution.step fun _ ↦ constBytes32 7) (.start (constAddress 3) (constBytes32 1))
        (frozenAlone (constAddress 3) (constAddress 4)) w e w' ∧
      w.core.frozen = true ∧ w'.core.frozen = true ∧ SameSnapshot w.core w'.core := by
  have halong : Along (Execution.step fun _ ↦ constBytes32 7) FreezesAlone
      (.start (constAddress 3) (constBytes32 1)) (frozenAlone (constAddress 3) (constAddress 4)) := by
    decide
  have htakes : Takes (Execution.step fun _ ↦ constBytes32 7) (.start (constAddress 3) (constBytes32 1))
      (frozenAlone (constAddress 3) (constAddress 4)) _
      (.call (constAddress 3) 1 .transferring (.setVault (constAddress 3))) _ :=
    ⟨requestedAndPublished (constAddress 3) (constAddress 4) ++
      [.call (constAddress 4) 1 .transferring (.freezeForMissedForcedWithdrawal 1)], List.prefix_rfl, rfl, rfl⟩
  obtain ⟨-, hfinal⟩ := freeze_final (fun _ ↦ constBytes32 7) (constAddress 3) (constBytes32 1)
    (frozenAlone (constAddress 3) (constAddress 4)) (fun w e w' h ↦ halong.of_takes h) _ _ _ htakes
  exact ⟨halong, _, _, _, htakes, rfl, hfinal rfl⟩

/-- While the first batch is verified, the verifier freezes the contract. -/
def frozenByVerifier (operator wallet verifier : Address) : List Event := requestedAndPublished operator wallet ++
    [checkBatch operator (sampleInputs 1 (constBytes32 1) (constBytes32 2) zeroBytes32),
      .call verifier 1 .transferring (.freezeForMissedForcedWithdrawal 1)]

/-- **A batch is accepted after the freeze.** The acceptance that called the verifier writes to the frozen
contract. -/
theorem accepted_after_freeze :
    ∃ w w', Takes (Execution.step fun _ ↦ constBytes32 7) (.start (constAddress 3) (constBytes32 1))
        (frozenByVerifier (constAddress 3) (constAddress 4) (constAddress 5) ++ [.accept]) w .accept w' ∧
      w.core.frozen = true ∧ w.core.latestAcceptedBatchId = 0 ∧ w'.core.latestAcceptedBatchId = 1 ∧
      w'.core.latestAcceptedStateRoot ≠ w.core.latestAcceptedStateRoot ∧
      ¬ IsAccepted w.core 1 ∧ IsAccepted w'.core 1 := by
  exact ⟨_, _, ⟨frozenByVerifier (constAddress 3) (constAddress 4) (constAddress 5), List.prefix_rfl, rfl, rfl⟩,
    rfl, rfl, rfl, by decide, by decide, by decide⟩

end FunnyOption.Contracts
