import FunnyOption.Contracts.System

/-!
# Claims through the escape hatch

Once the rollup contract is frozen, each wallet claims its leaf of the latest escape root. The claim is paid
by the vault, under an id that anybody can compute beforehand from the leaf. None of the operator's settings
at the vault applies to a claim that the rollup contract asks for: neither the cap for a day nor the
threshold for the delay. But the vault keeps one queue for all claims, and the operator can put any id into
it. A claim with a queued id is paid only if it is the claim that was queued, after the delay, and never
once it is cancelled. So the operator decides which leaves can be claimed.

## Main results

* `System.claimEscapeCollateral_iff`: when a leaf can be claimed, in any state that can be reached.
* `System.operator_cancels_escape`: an escape claim that the operator has cancelled.
-/

open Foundation

namespace FunnyOption.Contracts

open Rollup

namespace System

variable {keccak256 : Bytes → Bytes32} {d : Deployment} {s s' : System} {tx : Transaction}

/-! ## The invariant -/

/-- What holds in every reachable state: the latest escape root is recorded, and a vault that points to the
rollup contract is operated by somebody else. -/
structure Linked (d : Deployment) (s : System) : Prop where
  recorded : s.core.latestEscapeCollateralBatchId ≠ 0 →
    (s.core.escapeCollateralRoots s.core.latestEscapeCollateralBatchId).merkleRoot ≠ zeroBytes32
  operated : s.vault.rollupCore = d.coreAddress → s.vault.operator ≠ d.coreAddress

theorem linked_start (d : Deployment) : (start d).Linked d where
  recorded hlatest := absurd rfl hlatest
  operated hcore := absurd hcore.symm d.coreAddress_ne

/-- The rollup contract has changed, and its escape roots have not. -/
theorem Linked.core {core' : FunnyRollupCore} {madeAt : ℕ → ℕ} (h : s.Linked d)
    (hlatest : core'.latestEscapeCollateralBatchId = s.core.latestEscapeCollateralBatchId)
    (hroots : core'.escapeCollateralRoots = s.core.escapeCollateralRoots) :
    Linked d { s with core := core', madeAt := madeAt } where
  recorded := by
    dsimp only
    rw [hlatest, hroots]
    exact h.recorded
  operated := h.operated

theorem Linked.step (h : s.Linked d) (hstep : s.step keccak256 d tx = some s') : s'.Linked d := by
  obtain ⟨hsender, moved, -, heffect, rfl⟩ := effect_step hstep
  suffices hmoved : moved.Linked d from ⟨hmoved.recorded, hmoved.operated⟩
  cases heffect with
  | vault vault' hsame hpointer =>
    refine ⟨h.recorded, fun hcore ↦ ?_⟩
    change vault'.operator ≠ d.coreAddress
    rw [hsame.operator]
    rcases hpointer with hkept | hoperator
    · exact h.operated (hkept.symm.trans hcore)
    · exact hoperator ▸ hsender
  | payment claimId claim vault' hpays =>
    refine ⟨h.recorded, fun hcore ↦ ?_⟩
    change vault'.operator ≠ d.coreAddress
    rw [hpays.operator]
    exact h.operated (hpays.rollupCore.symm.trans hcore)
  | elsewhere => exact h
  | service core' _ hlatest hroots => exact h.core hlatest hroots
  | request requestId request core' _ _ hlatest hroots => exact h.core hlatest hroots
  | satisfaction requestId claimId processed record core' _ _ hsatisfy =>
    rw [FunnyRollupCore.satisfyForcedWithdrawal_eq_ok_iff] at hsatisfy
    obtain ⟨-, -, -, -, rfl⟩ := hsatisfy
    exact h.core rfl rfl
  | freeze requestId request core' _ _ hlatest hroots => exact h.core hlatest hroots
  | anchor batchId root core' hnonzero _ hlatest hroots =>
    refine ⟨fun _ ↦ ?_, h.operated⟩
    dsimp only
    rw [hlatest, hroots, Function.update_self]
    exact hnonzero

theorem linked_of_visits {txs : List Transaction} : ∀ s, Visits (step keccak256 d) (start d) txs s → s.Linked d :=
  visits_induction (linked_start d) fun _ _ _ htake ht ↦ ht.step htake.step_eq

/-! ## Claims -/

/-- The proof shows that the wallet owns the amount at a place of the latest escape root. -/
structure EscapeLeaf (keccak256 : Bytes → Bytes32) (s : System) (batchId leafIndex : ℕ) (wallet : Address)
    (amount : ℕ) (proof : List Bytes32) : Prop where
  recorded : batchId ≠ 0
  latest : batchId = s.core.latestEscapeCollateralBatchId
  valid : FunnyRollupCore.verifyEscapeCollateralProof keccak256
    (s.core.escapeCollateralRoots batchId).merkleRoot
    (FunnyRollupCore.hashEscapeCollateralLeaf keccak256 batchId leafIndex wallet amount) leafIndex proof = true

/-- What the operator has left of the claim of a leaf: the root was recorded with enough leaves, the leaf
has an amount, and the id of the claim is not in the queue of the vault, or in a way that lets this claim
through. -/
def Unblocked (keccak256 : Bytes → Bytes32) (s : System) (now batchId leafIndex : ℕ) (wallet : Address)
    (amount : ℕ) (recipient : Address) : Prop :=
  leafIndex < (s.core.escapeCollateralRoots batchId).leafCount ∧ amount ≠ 0 ∧
    s.vault.Open now (FunnyRollupCore.escapeClaimId keccak256 batchId leafIndex wallet amount)
      ⟨wallet, amount, recipient⟩

variable {batchId leafIndex amount now : ℕ} {wallet recipient : Address} {proof : List Bytes32}

/-- A leaf of the latest root passes the checks of the rollup contract, but for those of its index and its
amount. -/
theorem EscapeLeaf.claim_eq_ok_iff (hleaf : s.EscapeLeaf keccak256 batchId leafIndex wallet amount proof)
    (hlinked : s.Linked d) (hfrozen : s.core.frozen = true) (hvault : s.core.vault = d.vaultAddress)
    (hrecipient : recipient ≠ zeroAddress) (claim : Bytes32 × ClaimRecord) :
    s.core.claimEscapeCollateral keccak256 wallet batchId leafIndex amount recipient proof = .ok claim ↔
      leafIndex < (s.core.escapeCollateralRoots batchId).leafCount ∧ amount ≠ 0 ∧
        (FunnyRollupCore.escapeClaimId keccak256 batchId leafIndex wallet amount,
          ⟨wallet, amount, recipient⟩) = claim := by
  have hbatch : ¬(batchId = 0 ∨ batchId ≠ s.core.latestEscapeCollateralBatchId) := by
    rintro (hzero | hother)
    · exact hleaf.recorded hzero
    · exact hother hleaf.latest
  have hroot : (s.core.escapeCollateralRoots batchId).merkleRoot ≠ zeroBytes32 := by
    rw [hleaf.latest]
    exact hlinked.recorded (hleaf.latest ▸ hleaf.recorded)
  have hnonzero : s.core.vault ≠ zeroAddress := hvault ▸ d.vaultAddress_ne
  dsimp only [FunnyRollupCore.claimEscapeCollateral]
  rw [if_neg (by simp [hfrozen]), if_neg hnonzero, if_neg hrecipient, if_neg hbatch, if_neg hroot, hleaf.valid]
  split_ifs with hindex hamount hproof
  · exact iff_of_false nofun fun h ↦ Nat.not_lt_of_le hindex h.1
  · exact iff_of_false nofun fun h ↦ h.2.1 hamount
  · exact hproof.elim
  · rw [Except.ok.injEq]
    exact ⟨fun h ↦ ⟨Nat.lt_of_not_le hindex, hamount, h⟩, fun h ↦ h.2.2⟩

/-- **Claims through the escape hatch.** In a frozen state that can be reached, a leaf of the latest escape
root that was not claimed yet can be claimed exactly if the operator has not blocked it. -/
theorem claimEscapeCollateral_iff {txs : List Transaction}
    (hs : Visits (step keccak256 d) (start d) txs s) (hfrozen : s.core.frozen = true)
    (hcore : s.vault.rollupCore = d.coreAddress) (hvault : s.core.vault = d.vaultAddress)
    (hleaf : s.EscapeLeaf keccak256 batchId leafIndex wallet amount proof)
    (hunpaid : s.vault.processedClaims
      (FunnyRollupCore.escapeClaimId keccak256 batchId leafIndex wallet amount) = false)
    (hrecipient : recipient ≠ zeroAddress) {answers : Answers} (htransfers : answers.transfers = true) :
    (∃ s', s.transact keccak256 d
        ⟨wallet, now, .core (.claimEscapeCollateral batchId leafIndex amount recipient proof), answers⟩ = .ok s') ↔
      s.Unblocked keccak256 now batchId leafIndex wallet amount recipient := by
  have hlinked := linked_of_visits s hs
  have hiff := hleaf.claim_eq_ok_iff hlinked hfrozen hvault hrecipient
  have hpaid : (∃ vault', s.vault.processClaim d.coreAddress now
      (FunnyRollupCore.escapeClaimId keccak256 batchId leafIndex wallet amount)
      ⟨wallet, amount, recipient⟩ true = .ok vault') ↔ _ :=
    FunnyVault.processClaim_rollupCore_iff hcore.symm (hlinked.operated hcore).symm hunpaid
  dsimp only [transact, callCore]
  cases hclaim : s.core.claimEscapeCollateral keccak256 wallet batchId leafIndex amount recipient proof with
  | error revert =>
    refine iff_of_false nofun fun hopen ↦ ?_
    rw [hclaim] at hiff
    cases (hiff _).mpr ⟨hopen.1, hopen.2.1, rfl⟩
  | ok claim =>
    obtain ⟨hindex, hamount, rfl⟩ := (hiff claim).mp hclaim
    have hopen : s.Unblocked keccak256 now batchId leafIndex wallet amount recipient ↔ _ :=
      (and_iff_right hindex).trans hpaid.symm
    rw [hopen, pay, if_pos hvault, callVault, FunnyVault.call, htransfers]
    cases s.vault.processClaim d.coreAddress now
        (FunnyRollupCore.escapeClaimId keccak256 batchId leafIndex wallet amount)
        ⟨wallet, amount, recipient⟩ true with
    | error revert => simp
    | ok vault' => simp

/-! ## Runs -/

/-- The metadata of the first batch. -/
private def firstMetadata : BatchMetadata := ⟨constBytes32 2, constBytes32 1, constBytes32 3⟩

/-- The contracts are linked, a batch is accepted, its escape root with one leaf is recorded, and the
rollup contract is frozen over a request of the wallet that owns the leaf. -/
def acceptThenFreeze : List Transaction :=
  [⟨constAddress 3, 1, .vault (.setRollupCore (constAddress 1)), .transferring⟩,
    ⟨constAddress 3, 1, .core (.setVault (constAddress 2)), .transferring⟩,
    ⟨constAddress 3, 1, .core (.setVerifier (some fun _ _ ↦ true)), .transferring⟩,
    ⟨constAddress 3, 2, .core (.recordBatchMetadata 1 firstMetadata), .transferring⟩,
    ⟨constAddress 3, 2, .core (.publishBatchDataByOperator 1 (constBytes32 2)), .transferring⟩,
    ⟨constAddress 3, 3, .core (.acceptVerifiedBatch
      { VerifierPublicInputs.zero with
        batchId := 1, batchDataHash := constBytes32 2, prevStateRoot := constBytes32 1,
        nextStateRoot := constBytes32 3 } ⟨firstMetadata, 1⟩ [] []), .transferring⟩,
    ⟨constAddress 3, 4, .core (.recordEscapeCollateralRoot 1 (constBytes32 0xff) 1 5), .transferring⟩,
    ⟨constAddress 4, 5, .core (.requestForcedWithdrawal (constAddress 4) 5), .transferring⟩,
    ⟨constAddress 9, 6, .core (.freezeForMissedForcedWithdrawal 1), .transferring⟩]

/-- The operator queues the claim of the leaf at the vault, and cancels it. -/
def queueThenCancel : List Transaction :=
  [⟨constAddress 3, 7, .vault (.queueClaim (constBytes32 0xff) ⟨constAddress 4, 5, constAddress 4⟩), .transferring⟩,
    ⟨constAddress 3, 7, .vault (.cancelQueuedClaim (constBytes32 0xff)), .transferring⟩]

private theorem isSome_acceptThenFreeze :
    (exec (step halfHash deployed) (start deployed) acceptThenFreeze).isSome = true := by
  decide

private theorem isSome_queueThenCancel :
    (exec (step halfHash deployed) (start deployed) (acceptThenFreeze ++ queueThenCancel)).isSome =
      true := by
  decide

private def frozenState : System := Option.get _ isSome_acceptThenFreeze

private def cancelledState : System := Option.get _ isSome_queueThenCancel

private theorem escapeLeaf_frozenState : frozenState.EscapeLeaf halfHash 1 0 (constAddress 4) 5 [] :=
  ⟨by decide, by decide, by decide⟩

private theorem escapeLeaf_cancelledState : cancelledState.EscapeLeaf halfHash 1 0 (constAddress 4) 5 [] :=
  ⟨by decide, by decide, by decide⟩

/-- The operator lets the claim be. -/
theorem claimEscapeCollateral_succeeds : ∃ s s', Visits (step halfHash deployed) (start deployed) acceptThenFreeze s ∧
      s.core.frozen = true ∧
      s.transact halfHash deployed
        ⟨constAddress 4, 8, .core (.claimEscapeCollateral 1 0 5 (constAddress 4) []), .transferring⟩ =
          .ok s' := by
  have hvisit : Visits (step halfHash deployed) (start deployed) acceptThenFreeze frozenState :=
    visits_of_exec (Option.some_get isSome_acceptThenFreeze).symm
  have hunblocked : frozenState.Unblocked halfHash 8 1 0 (constAddress 4) 5 (constAddress 4) :=
    ⟨by decide, by decide, .inl (by decide)⟩
  have htransfers : Answers.transferring.transfers = true := rfl
  obtain ⟨s', hs'⟩ := (claimEscapeCollateral_iff hvisit (by decide) (by decide)
    (by decide) escapeLeaf_frozenState (by decide) (by decide) htransfers).mpr hunblocked
  exact ⟨frozenState, s', hvisit, by decide, hs'⟩

/-- **A claim that the operator has cancelled.** The contracts are linked, the proof is valid, the claim is
not processed, and it reverts, at any time. -/
theorem operator_cancels_escape :
    ∃ s, Visits (step halfHash deployed) (start deployed) (acceptThenFreeze ++ queueThenCancel) s ∧
      s.core.frozen = true ∧ s.vault.rollupCore = deployed.coreAddress ∧
      s.core.vault = deployed.vaultAddress ∧ s.EscapeLeaf halfHash 1 0 (constAddress 4) 5 [] ∧
      s.vault.processedClaims (FunnyRollupCore.escapeClaimId halfHash 1 0 (constAddress 4) 5) = false ∧
      ∀ now, s.transact halfHash deployed
        ⟨constAddress 4, now, .core (.claimEscapeCollateral 1 0 5 (constAddress 4) []), .transferring⟩ =
          .error (.vault .claimCancelled) := by
  refine ⟨cancelledState, visits_of_exec (Option.some_get isSome_queueThenCancel).symm,
    by decide, by decide, by decide, escapeLeaf_cancelledState,
    by decide, fun _ ↦ rfl⟩

end System

end FunnyOption.Contracts
