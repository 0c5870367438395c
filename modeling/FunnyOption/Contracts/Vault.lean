import FunnyOption.Rollup.Core

/-!
# The vault contract

`FunnyVault` holds the collateral. A claim is paid once: the operator or the rollup contract asks for it
under an id, and the vault remembers the id and what it paid. The operator is bound by a cap for each day
and, above a threshold, by a delay: a claim has to be queued first, and a queued claim can be cancelled.

As in the model of the rollup contract, a function that reverts has no effect and mappings are total
functions. The token is another contract: whether its transfer succeeds is an argument. Deposits of the
native currency and their price feed, the guard against reentrancy and the emitted events are left out.
-/

open Foundation

namespace FunnyOption.Contracts

open Rollup

/-! ## State -/

/-- Addition of the compiler's checked unsigned integers of `width` bits. -/
def checkedAdd (width a b : ℕ) : Option ℕ := if a + b < 2 ^ width then some (a + b) else none

/-- `ClaimRecord`. -/
structure ClaimRecord where
  wallet : Address
  amount : ℕ
  recipient : Address
  deriving DecidableEq

/-- `PendingClaim`. -/
structure PendingClaim extends ClaimRecord where
  executeAfter : ℕ
  cancelled : Bool
  deriving DecidableEq

/-- The record that a missing claim reads as. -/
def ClaimRecord.zero : ClaimRecord := ⟨zeroAddress, 0, zeroAddress⟩

/-- The storage of the contract. -/
structure FunnyVault where
  operator : Address
  rollupCore : Address
  operatorEpochClaimCap : ℕ
  currentEpochStart : ℕ
  currentEpochClaimed : ℕ
  timelockDelay : ℕ
  timelockThreshold : ℕ
  depositedBalance : Address → ℕ
  processedClaims : Bytes32 → Bool
  processedClaimRecords : Bytes32 → ClaimRecord
  pendingClaims : Bytes32 → PendingClaim

/-- The errors of the contract. The last three are a checked addition that overflows and a failed
`require` on the token. -/
inductive VaultRevert where
  | onlyOperator
  | onlyAuthorizedClaimer
  | invalidAmount
  | claimAlreadyProcessed
  | invalidRollupCore
  | operatorEpochCapExceeded
  | claimTimelocked
  | claimNotReady
  | claimNotQueued
  | claimCancelled
  | arithmeticOverflow
  | transferFromFailed
  | transferFailed
  deriving DecidableEq

/-- `EPOCH_DURATION`, one day. -/
def epochDuration : ℕ := 86400

namespace FunnyVault

/-- The constructor. -/
def new (operator : Address) : FunnyVault where
  operator := operator
  rollupCore := zeroAddress
  operatorEpochClaimCap := 0
  currentEpochStart := 0
  currentEpochClaimed := 0
  timelockDelay := 0
  timelockThreshold := 0
  depositedBalance _ := 0
  processedClaims _ := false
  processedClaimRecords _ := .zero
  pendingClaims _ := ⟨.zero, 0, false⟩

variable (vault : FunnyVault) (sender : Address) (now : ℕ)

/-! ## Settings -/

/-- `setRollupCore`. -/
def setRollupCore (rollupCore : Address) : Except VaultRevert FunnyVault :=
  if sender ≠ vault.operator then .error .onlyOperator
  else if rollupCore = zeroAddress then .error .invalidRollupCore
  else .ok { vault with rollupCore := rollupCore }

/-- `setOperatorEpochClaimCap`. -/
def setOperatorEpochClaimCap (cap : ℕ) : Except VaultRevert FunnyVault :=
  if sender ≠ vault.operator then .error .onlyOperator
  else .ok { vault with operatorEpochClaimCap := cap }

/-- `setTimelockConfig`. -/
def setTimelockConfig (threshold delay : ℕ) : Except VaultRevert FunnyVault :=
  if sender ≠ vault.operator then .error .onlyOperator
  else .ok { vault with timelockThreshold := threshold, timelockDelay := delay }

/-! ## Balances -/

/-- `deposit`. -/
def deposit (amount : ℕ) (transfers : Bool) : Except VaultRevert FunnyVault :=
  if amount = 0 then .error .invalidAmount
  else if transfers = false then .error .transferFromFailed
  else
    match checkedAdd 256 (vault.depositedBalance sender) amount with
    | none => .error .arithmeticOverflow
    | some balance =>
      .ok { vault with depositedBalance := Function.update vault.depositedBalance sender balance }

/-- `queueWithdrawal`. -/
def queueWithdrawal (amount : ℕ) : Except VaultRevert FunnyVault :=
  if amount = 0 then .error .invalidAmount
  else if vault.depositedBalance sender < amount then .error .invalidAmount
  else
    .ok { vault with
      depositedBalance := Function.update vault.depositedBalance sender
        (vault.depositedBalance sender - amount) }

/-! ## Claims -/

/-- What an operator's claim counts for in the current day. -/
def chargeEpoch (amount : ℕ) : Except VaultRevert FunnyVault :=
  if vault.operatorEpochClaimCap = 0 then .ok vault
  else
    let epochStart := now / epochDuration * epochDuration
    let claimed := if epochStart ≠ vault.currentEpochStart then 0 else vault.currentEpochClaimed
    match checkedAdd 256 claimed amount with
    | none => .error .arithmeticOverflow
    | some total =>
      if total > vault.operatorEpochClaimCap then .error .operatorEpochCapExceeded
      else .ok { vault with currentEpochStart := epochStart, currentEpochClaimed := total }

/-- The checks that are made of the operator only. -/
def chargeOperator (claimId : Bytes32) (amount : ℕ) : Except VaultRevert FunnyVault :=
  match vault.chargeEpoch now amount with
  | .error revert => .error revert
  | .ok vault =>
    if 0 < vault.timelockThreshold ∧ vault.timelockThreshold ≤ amount ∧ 0 < vault.timelockDelay ∧
        (vault.pendingClaims claimId).executeAfter = 0 then
      .error .claimTimelocked
    else .ok vault

/-- What a queued claim asks of the claim that executes it. -/
def checkPending (pending : PendingClaim) (claim : ClaimRecord) : Option VaultRevert :=
  if pending.executeAfter = 0 then none
  else if pending.cancelled then some .claimCancelled
  else if now < pending.executeAfter then some .claimNotReady
  else if pending.toClaimRecord ≠ claim then some .invalidAmount
  else none

/-- `processClaim` after the checks of the caller. -/
def payClaim (claimId : Bytes32) (claim : ClaimRecord) (transfers : Bool) : Except VaultRevert FunnyVault :=
  match checkPending now (vault.pendingClaims claimId) claim with
  | some revert => .error revert
  | none =>
    if transfers = false then .error .transferFailed
    else
      .ok { vault with
        processedClaims := Function.update vault.processedClaims claimId true
        processedClaimRecords := Function.update vault.processedClaimRecords claimId claim }

/-- `processClaim`. -/
def processClaim (claimId : Bytes32) (claim : ClaimRecord) (transfers : Bool) : Except VaultRevert FunnyVault :=
  if sender ≠ vault.operator ∧ sender ≠ vault.rollupCore then .error .onlyAuthorizedClaimer
  else if vault.processedClaims claimId then .error .claimAlreadyProcessed
  else if claim.amount = 0 then .error .invalidAmount
  else if sender = vault.operator then
    match vault.chargeOperator now claimId claim.amount with
    | .error revert => .error revert
    | .ok vault => vault.payClaim now claimId claim transfers
  else vault.payClaim now claimId claim transfers

/-- `queueClaim`. -/
def queueClaim (claimId : Bytes32) (claim : ClaimRecord) : Except VaultRevert FunnyVault :=
  if sender ≠ vault.operator then .error .onlyOperator
  else if vault.processedClaims claimId then .error .claimAlreadyProcessed
  else if claim.amount = 0 then .error .invalidAmount
  else if 0 < (vault.pendingClaims claimId).executeAfter then .error .claimAlreadyProcessed
  else
    match checkedAdd 256 now vault.timelockDelay with
    | none => .error .arithmeticOverflow
    | some executeAfter =>
      .ok { vault with
        pendingClaims := Function.update vault.pendingClaims claimId ⟨claim, executeAfter, false⟩ }

/-- `cancelQueuedClaim`. -/
def cancelQueuedClaim (claimId : Bytes32) : Except VaultRevert FunnyVault :=
  if sender ≠ vault.operator then .error .onlyOperator
  else if (vault.pendingClaims claimId).executeAfter = 0 then .error .claimNotQueued
  else
    .ok { vault with
      pendingClaims := Function.update vault.pendingClaims claimId
        { vault.pendingClaims claimId with cancelled := true } }

end FunnyVault

/-! ## Calls -/

/-- A call of the contract. -/
inductive VaultCall where
  | setRollupCore (rollupCore : Address)
  | setOperatorEpochClaimCap (cap : ℕ)
  | setTimelockConfig (threshold delay : ℕ)
  | deposit (amount : ℕ) (transfers : Bool)
  | queueWithdrawal (amount : ℕ)
  | processClaim (claimId : Bytes32) (claim : ClaimRecord) (transfers : Bool)
  | queueClaim (claimId : Bytes32) (claim : ClaimRecord)
  | cancelQueuedClaim (claimId : Bytes32)
  deriving DecidableEq

/-- The id of the claim that a call pays. -/
def VaultCall.pays : VaultCall → Option Bytes32
  | .processClaim claimId _ _ => some claimId
  | _ => none

namespace FunnyVault

/-- The contract is called by `sender` in a block of the time `now`. -/
def call (vault : FunnyVault) (sender : Address) (now : ℕ) : VaultCall → Except VaultRevert FunnyVault
  | .setRollupCore rollupCore => vault.setRollupCore sender rollupCore
  | .setOperatorEpochClaimCap cap => vault.setOperatorEpochClaimCap sender cap
  | .setTimelockConfig threshold delay => vault.setTimelockConfig sender threshold delay
  | .deposit amount transfers => vault.deposit sender amount transfers
  | .queueWithdrawal amount => vault.queueWithdrawal sender amount
  | .processClaim claimId claim transfers => vault.processClaim sender now claimId claim transfers
  | .queueClaim claimId claim => vault.queueClaim sender now claimId claim
  | .cancelQueuedClaim claimId => vault.cancelQueuedClaim sender claimId

/-! ## What a call does to the paid claims -/

/-- A vault that has paid what another one has, and has the same owner. -/
structure SamePaid (vault vault' : FunnyVault) : Prop where
  operator : vault'.operator = vault.operator
  processed : vault'.processedClaims = vault.processedClaims
  records : vault'.processedClaimRecords = vault.processedClaimRecords

/-- A vault that has paid one claim more than another one. -/
structure Pays (vault : FunnyVault) (claimId : Bytes32) (claim : ClaimRecord) (vault' : FunnyVault) : Prop where
  operator : vault'.operator = vault.operator
  rollupCore : vault'.rollupCore = vault.rollupCore
  unpaid : vault.processedClaims claimId = false
  processed : vault'.processedClaims = Function.update vault.processedClaims claimId true
  records : vault'.processedClaimRecords = Function.update vault.processedClaimRecords claimId claim

variable {vault vault' : FunnyVault} {sender : Address} {now : ℕ} {claimId : Bytes32}
  {claim : ClaimRecord} {transfers : Bool} {amount : ℕ}

theorem chargeEpoch_keeps (h : vault.chargeEpoch now amount = .ok vault') :
    vault.SamePaid vault' ∧ vault'.rollupCore = vault.rollupCore := by
  rw [chargeEpoch] at h
  split at h
  · cases h
    exact ⟨⟨rfl, rfl, rfl⟩, rfl⟩
  · dsimp only at h
    generalize checkedAdd 256 _ amount = total at h
    cases total with
    | none => cases h
    | some total =>
      dsimp only at h
      split at h
      · cases h
      · cases h
        exact ⟨⟨rfl, rfl, rfl⟩, rfl⟩

theorem chargeOperator_keeps (h : vault.chargeOperator now claimId amount = .ok vault') :
    vault.SamePaid vault' ∧ vault'.rollupCore = vault.rollupCore := by
  rw [chargeOperator] at h
  cases hcharge : vault.chargeEpoch now amount with
  | error revert =>
    rw [hcharge] at h
    cases h
  | ok charged =>
    rw [hcharge] at h
    dsimp only at h
    split at h
    · cases h
    · cases h
      exact chargeEpoch_keeps hcharge

theorem payClaim_pays (hunpaid : vault.processedClaims claimId = false)
    (h : vault.payClaim now claimId claim transfers = .ok vault') : vault.Pays claimId claim vault' := by
  rw [payClaim] at h
  cases hpending : checkPending now (vault.pendingClaims claimId) claim with
  | some revert =>
    rw [hpending] at h
    cases h
  | none =>
    rw [hpending] at h
    dsimp only at h
    split at h
    · cases h
    · cases h
      exact ⟨rfl, rfl, hunpaid, rfl, rfl⟩

/-- A claim that is processed had not been paid before. -/
theorem processClaim_pays (h : vault.processClaim sender now claimId claim transfers = .ok vault') :
    vault.Pays claimId claim vault' := by
  rw [processClaim] at h
  split_ifs at h with hclaimer hpaid hamount hoperator
  · cases hcharge : vault.chargeOperator now claimId claim.amount with
    | error revert =>
      rw [hcharge] at h
      cases h
    | ok charged =>
      rw [hcharge] at h
      obtain ⟨hsame, hcore⟩ := chargeOperator_keeps hcharge
      have hunpaid : charged.processedClaims claimId = false := by
        rw [hsame.processed]
        exact Bool.eq_false_iff.mpr hpaid
      have hpays := payClaim_pays hunpaid h
      exact ⟨hpays.operator.trans hsame.operator, hpays.rollupCore.trans hcore,
        Bool.eq_false_iff.mpr hpaid, hsame.processed ▸ hpays.processed, hsame.records ▸ hpays.records⟩
  · exact payClaim_pays (Bool.eq_false_iff.mpr hpaid) h

/-- **What a call can do.** It pays one claim, or it leaves the paid claims as they are; then only the
operator can turn the vault to another rollup contract. -/
theorem call_cases {c : VaultCall} (h : vault.call sender now c = .ok vault') :
    (∃ claimId claim transfers, c = .processClaim claimId claim transfers ∧ vault.Pays claimId claim vault') ∨
    (c.pays = none ∧ vault.SamePaid vault' ∧
      (vault'.rollupCore = vault.rollupCore ∨ sender = vault.operator)) := by
  cases c with
  | processClaim claimId claim transfers =>
    exact .inl ⟨claimId, claim, transfers, rfl, processClaim_pays h⟩
  | setRollupCore rollupCore =>
    rw [call, setRollupCore] at h
    split_ifs at h with hsender
    cases h
    exact .inr ⟨rfl, ⟨rfl, rfl, rfl⟩, .inr (not_ne_iff.mp hsender)⟩
  | setOperatorEpochClaimCap cap =>
    rw [call, setOperatorEpochClaimCap] at h
    split_ifs at h
    cases h
    exact .inr ⟨rfl, ⟨rfl, rfl, rfl⟩, .inl rfl⟩
  | setTimelockConfig threshold delay =>
    rw [call, setTimelockConfig] at h
    split_ifs at h
    cases h
    exact .inr ⟨rfl, ⟨rfl, rfl, rfl⟩, .inl rfl⟩
  | deposit amount transfers =>
    rw [call, deposit] at h
    generalize checkedAdd 256 (vault.depositedBalance sender) amount = balance at h
    split_ifs at h
    cases balance with
    | none => cases h
    | some balance =>
      cases h
      exact .inr ⟨rfl, ⟨rfl, rfl, rfl⟩, .inl rfl⟩
  | queueWithdrawal amount =>
    rw [call, queueWithdrawal] at h
    split_ifs at h
    cases h
    exact .inr ⟨rfl, ⟨rfl, rfl, rfl⟩, .inl rfl⟩
  | queueClaim claimId claim =>
    rw [call, queueClaim] at h
    generalize checkedAdd 256 now vault.timelockDelay = executeAfter at h
    split_ifs at h
    cases executeAfter with
    | none => cases h
    | some executeAfter =>
      cases h
      exact .inr ⟨rfl, ⟨rfl, rfl, rfl⟩, .inl rfl⟩
  | cancelQueuedClaim claimId =>
    rw [call, cancelQueuedClaim] at h
    split_ifs at h
    cases h
    exact .inr ⟨rfl, ⟨rfl, rfl, rfl⟩, .inl rfl⟩

/-! ## Claims of the rollup contract -/

/-- What the operator has left of a claim: it never queued the id, or it queued this very claim, did not
cancel it, and the delay is over. -/
def Open (vault : FunnyVault) (now : ℕ) (claimId : Bytes32) (claim : ClaimRecord) : Prop :=
  let pending := vault.pendingClaims claimId
  pending.executeAfter = 0 ∨ (pending.cancelled = false ∧ pending.executeAfter ≤ now ∧ pending.toClaimRecord = claim)

instance (vault : FunnyVault) (now : ℕ) (claimId : Bytes32) (claim : ClaimRecord) :
    Decidable (vault.Open now claimId claim) :=
  inferInstanceAs (Decidable (_ ∨ _))

theorem checkPending_eq_none_iff :
    checkPending now (vault.pendingClaims claimId) claim = none ↔ vault.Open now claimId claim := by
  unfold Open
  generalize vault.pendingClaims claimId = pending
  dsimp only [checkPending]
  split_ifs with hqueued hcancelled hearly hother
  · exact iff_of_true rfl (.inl hqueued)
  · exact iff_of_false nofun (by simp [hqueued, hcancelled])
  · exact iff_of_false nofun (by simp [hqueued, hearly])
  · exact iff_of_false nofun (by simp [hqueued, hother])
  · exact iff_of_true rfl
      (.inr ⟨Bool.eq_false_iff.mpr hcancelled, Nat.le_of_not_lt hearly, not_ne_iff.mp hother⟩)

/-- **Claims of the rollup contract.** Neither the cap nor the threshold of the operator stands in the
way of a claim that the rollup contract asks for. What does is the queue. -/
theorem processClaim_rollupCore_iff (hsender : sender = vault.rollupCore) (hother : sender ≠ vault.operator)
    (hunpaid : vault.processedClaims claimId = false) :
    (∃ vault', vault.processClaim sender now claimId claim true = .ok vault') ↔
      claim.amount ≠ 0 ∧ vault.Open now claimId claim := by
  have hclaimer : ¬(sender ≠ vault.operator ∧ sender ≠ vault.rollupCore) := fun h ↦ h.2 hsender
  rw [processClaim, if_neg hclaimer, hunpaid, if_neg Bool.false_ne_true, ← checkPending_eq_none_iff]
  split_ifs with hamount
  · exact iff_of_false nofun (fun h ↦ h.1 hamount)
  · rw [payClaim]
    cases checkPending now (vault.pendingClaims claimId) claim with
    | none => simp [hamount]
    | some revert => simp

end FunnyVault

end FunnyOption.Contracts
