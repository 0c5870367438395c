import FunnyOption.Contracts.Vault

/-!
# Forced withdrawals and the escape hatch

The part of `FunnyRollupCore` that does not serve batches. A wallet asks for a forced withdrawal. Anyone can
satisfy the request by pointing to a claim that the vault has paid; a request that is still open at its
deadline lets anyone freeze the contract. The operator records a Merkle root of the collateral of an
accepted batch, and once the contract is frozen each leaf of the latest root can be claimed at the vault.

The functions that serve batches are those of `RollupCore`. Where a function calls the vault, the model
stops at the call: it returns the claim that the vault is asked for, or takes the vault's answers.
-/

open Foundation

namespace FunnyOption.Contracts

open Rollup

/-! ## State -/

/-- `ForcedWithdrawalStatus`. -/
inductive ForcedWithdrawalStatus where
  | none
  | requested
  | satisfied
  | frozen
  deriving DecidableEq

/-- `ForcedWithdrawalRequest`. -/
structure ForcedWithdrawalRequest where
  wallet : Address
  recipient : Address
  amount : ℕ
  requestedAt : ℕ
  deadlineAt : ℕ
  satisfiedClaimId : Bytes32
  satisfiedAt : ℕ
  frozenAt : ℕ
  status : ForcedWithdrawalStatus
  deriving DecidableEq

/-- The request that a missing one reads as. -/
def ForcedWithdrawalRequest.zero : ForcedWithdrawalRequest :=
  ⟨zeroAddress, zeroAddress, 0, 0, 0, zeroBytes32, 0, 0, .none⟩

/-- The payment that a request asks for. -/
def ForcedWithdrawalRequest.claim (request : ForcedWithdrawalRequest) : ClaimRecord :=
  ⟨request.wallet, request.amount, request.recipient⟩

/-- `EscapeCollateralRoot`. -/
structure EscapeCollateralRoot where
  merkleRoot : Bytes32
  leafCount : ℕ
  totalAmount : ℕ
  anchoredAt : ℕ
  deriving DecidableEq

/-- The storage of the contract. -/
structure FunnyRollupCore extends RollupCore where
  forcedWithdrawalGracePeriod : ℕ
  frozenAt : ℕ
  freezeRequestId : ℕ
  forcedWithdrawalRequestCount : ℕ
  latestEscapeCollateralBatchId : ℕ
  latestEscapeCollateralRoot : Bytes32
  forcedWithdrawalRequests : ℕ → ForcedWithdrawalRequest
  escapeCollateralRoots : ℕ → EscapeCollateralRoot

/-- The errors of the contract: those that the functions for batches also have, the others, and the
errors of the vault it calls. -/
inductive CoreRevert where
  | batch (revert : Revert)
  | invalidVerifier
  | invalidVault
  | invalidForcedWithdrawalRequest
  | forcedWithdrawalRequestNotPending
  | forcedWithdrawalClaimNotProcessed
  | forcedWithdrawalClaimMismatch
  | forcedWithdrawalDeadlineNotReached
  | alreadyFrozen
  | invalidEscapeCollateralRoot
  | escapeCollateralBatchNotAccepted
  | escapeCollateralBatchOutOfOrder
  | escapeCollateralRootNotAnchored
  | invalidEscapeCollateralProof
  | escapeCollateralLeafIndexOutOfRange
  | arithmeticOverflow
  | vault (revert : VaultRevert)
  | otherVault
  deriving DecidableEq

/-- `uint64(block.timestamp)`. -/
def toUint64 (now : ℕ) : ℕ := now % 2 ^ 64

namespace FunnyRollupCore

/-- The constructor. -/
def new (operator : Address) (genesisStateRoot : Bytes32) : FunnyRollupCore where
  toRollupCore := .new operator genesisStateRoot
  forcedWithdrawalGracePeriod := 0
  frozenAt := 0
  freezeRequestId := 0
  forcedWithdrawalRequestCount := 0
  latestEscapeCollateralBatchId := 0
  latestEscapeCollateralRoot := zeroBytes32
  forcedWithdrawalRequests _ := .zero
  escapeCollateralRoots _ := ⟨zeroBytes32, 0, 0, 0⟩

variable (keccak256 : Bytes → Bytes32) (core : FunnyRollupCore) (sender : Address) (now : ℕ)

/-- A function that serves batches leaves the rest of the storage alone. -/
def serveBatch : Except Revert RollupCore → Except CoreRevert FunnyRollupCore
  | .error revert => .error (.batch revert)
  | .ok served => .ok { core with toRollupCore := served }

/-! ## Settings -/

/-- `setVerifier`. There is no contract at the zero address. -/
def setVerifier (verifier : Option BatchVerifier) : Except CoreRevert FunnyRollupCore :=
  if sender ≠ core.operator then .error (.batch .onlyOperator)
  else if verifier.isNone then .error .invalidVerifier
  else .ok { core with verifier := verifier }

/-- `setVault`. -/
def setVault (vault : Address) : Except CoreRevert FunnyRollupCore :=
  if sender ≠ core.operator then .error (.batch .onlyOperator)
  else if vault = zeroAddress then .error .invalidVault
  else .ok { core with vault := vault }

/-- `setForcedWithdrawalGracePeriod`. -/
def setForcedWithdrawalGracePeriod (gracePeriod : ℕ) : Except CoreRevert FunnyRollupCore :=
  if sender ≠ core.operator then .error (.batch .onlyOperator)
  else .ok { core with forcedWithdrawalGracePeriod := gracePeriod }

/-! ## Forced withdrawals -/

/-- `requestForcedWithdrawal`. -/
def requestForcedWithdrawal (recipient : Address) (amount : ℕ) : Except CoreRevert FunnyRollupCore :=
  if core.frozen then .error (.batch .rollupIsFrozen)
  else if recipient = zeroAddress then .error (.batch .invalidRecipient)
  else if amount = 0 then .error (.batch .invalidAmount)
  else
    match checkedAdd 64 core.forcedWithdrawalRequestCount 1,
        checkedAdd 64 (toUint64 now) core.forcedWithdrawalGracePeriod with
    | some requestId, some deadlineAt =>
      .ok { core with
        forcedWithdrawalRequestCount := requestId
        forcedWithdrawalRequests := Function.update core.forcedWithdrawalRequests requestId
          ⟨sender, recipient, amount, toUint64 now, deadlineAt, zeroBytes32, 0, 0, .requested⟩ }
    | _, _ => .error .arithmeticOverflow

/-- What `satisfyForcedWithdrawal` writes. -/
def satisfy (requestId : ℕ) (claimId : Bytes32) : FunnyRollupCore :=
  { core with
    forcedWithdrawalRequests := Function.update core.forcedWithdrawalRequests requestId
      { core.forcedWithdrawalRequests requestId with
        satisfiedClaimId := claimId, satisfiedAt := toUint64 now, status := .satisfied } }

/-- `satisfyForcedWithdrawal`, which asks the vault for `processedClaims` and `processedClaimRecords` of
the claim. -/
def satisfyForcedWithdrawal (requestId : ℕ) (claimId : Bytes32) (processed : Bool)
    (record : ClaimRecord) : Except CoreRevert FunnyRollupCore :=
  let request := core.forcedWithdrawalRequests requestId
  if core.vault = zeroAddress then .error (.batch .vaultNotConfigured)
  else if request.status = .none then .error .invalidForcedWithdrawalRequest
  else if request.status ≠ .requested then .error .forcedWithdrawalRequestNotPending
  else if processed = false then .error .forcedWithdrawalClaimNotProcessed
  else if record ≠ request.claim then .error .forcedWithdrawalClaimMismatch
  else .ok (core.satisfy now requestId claimId)

theorem satisfyForcedWithdrawal_eq_ok_iff {requestId : ℕ} {claimId : Bytes32} {processed : Bool}
    {record : ClaimRecord} {core' : FunnyRollupCore} :
    core.satisfyForcedWithdrawal now requestId claimId processed record = .ok core' ↔
      core.vault ≠ zeroAddress ∧ (core.forcedWithdrawalRequests requestId).status = .requested ∧
        processed = true ∧ record = (core.forcedWithdrawalRequests requestId).claim ∧
        core.satisfy now requestId claimId = core' := by
  dsimp only [satisfyForcedWithdrawal]
  split_ifs with hvault hnone hpending hprocessed hrecord
  · exact iff_of_false nofun (fun h ↦ h.1 hvault)
  · exact iff_of_false nofun (fun h ↦ by simp [hnone] at h)
  · exact iff_of_false nofun (fun h ↦ hpending h.2.1)
  · exact iff_of_false nofun (fun h ↦ by simp [hprocessed] at h)
  · exact iff_of_false nofun (fun h ↦ hrecord h.2.2.2.1)
  · rw [Except.ok.injEq]
    exact ⟨fun h ↦ ⟨hvault, not_ne_iff.mp hpending, Bool.not_eq_false _ ▸ hprocessed,
      not_ne_iff.mp hrecord, h⟩, fun h ↦ h.2.2.2.2⟩

/-- `freezeForMissedForcedWithdrawal`. -/
def freezeForMissedForcedWithdrawal (requestId : ℕ) : Except CoreRevert FunnyRollupCore :=
  let request := core.forcedWithdrawalRequests requestId
  if core.frozen then .error .alreadyFrozen
  else if request.status = .none then .error .invalidForcedWithdrawalRequest
  else if request.status ≠ .requested then .error .forcedWithdrawalRequestNotPending
  else if toUint64 now < request.deadlineAt then .error .forcedWithdrawalDeadlineNotReached
  else
    .ok { core with
      frozen := true
      frozenAt := toUint64 now
      freezeRequestId := requestId
      forcedWithdrawalRequests := Function.update core.forcedWithdrawalRequests requestId
        { request with frozenAt := toUint64 now, status := .frozen } }

/-! ## The escape hatch -/

/-- `recordEscapeCollateralRoot`. -/
def recordEscapeCollateralRoot (batchId : ℕ) (merkleRoot : Bytes32) (leafCount totalAmount : ℕ) :
    Except CoreRevert FunnyRollupCore :=
  if sender ≠ core.operator then .error (.batch .onlyOperator)
  else if core.frozen then .error (.batch .rollupIsFrozen)
  else if batchId = 0 ∨ core.latestAcceptedBatchId < batchId then
    .error .escapeCollateralBatchNotAccepted
  else if (core.acceptedBatches batchId).inputs.nextStateRoot = zeroBytes32 then
    .error .escapeCollateralBatchNotAccepted
  else if core.latestEscapeCollateralBatchId ≠ 0 ∧ batchId < core.latestEscapeCollateralBatchId then
    .error .escapeCollateralBatchOutOfOrder
  else if merkleRoot = zeroBytes32 then .error .invalidEscapeCollateralRoot
  else
    .ok { core with
      escapeCollateralRoots := Function.update core.escapeCollateralRoots batchId
        ⟨merkleRoot, leafCount, totalAmount, toUint64 now⟩
      latestEscapeCollateralBatchId := batchId
      latestEscapeCollateralRoot := merkleRoot }

/-- What `_hashEscapeCollateralLeaf` hashes. -/
def escapeLeafMessage (batchId leafIndex : ℕ) (wallet : Address) (amount : ℕ) : Bytes :=
  stringBytes "funny-rollup-escape-collateral-v1" ++ uintBytes 8 batchId ++ uintBytes 8 leafIndex ++
    wallet.1 ++ uintBytes 32 amount

/-- `_hashEscapeCollateralLeaf`. -/
def hashEscapeCollateralLeaf (batchId leafIndex : ℕ) (wallet : Address) (amount : ℕ) : Bytes32 :=
  keccak256 (escapeLeafMessage batchId leafIndex wallet amount)

/-- `_verifyEscapeCollateralProof`. -/
def verifyEscapeCollateralProof (root leaf : Bytes32) (leafIndex : ℕ) (proof : List Bytes32) : Bool :=
  contractVerifyMerkleProof keccak256 root leaf leafIndex proof

/-- The message whose hash is the id of an escape claim at the vault. -/
def escapeClaimMessage (batchId leafIndex : ℕ) (wallet : Address) (amount : ℕ) : Bytes :=
  stringBytes "funny-rollup-escape-claim-v1" ++ uintBytes 8 batchId ++ uintBytes 8 leafIndex ++
    wallet.1 ++ uintBytes 32 amount

/-- The id of an escape claim at the vault. -/
def escapeClaimId (batchId leafIndex : ℕ) (wallet : Address) (amount : ℕ) : Bytes32 :=
  keccak256 (escapeClaimMessage batchId leafIndex wallet amount)

/-- `claimEscapeCollateral`, up to the call of the vault: the claim it is called with. -/
def claimEscapeCollateral (batchId leafIndex amount : ℕ) (recipient : Address)
    (proof : List Bytes32) : Except CoreRevert (Bytes32 × ClaimRecord) :=
  let anchored := core.escapeCollateralRoots batchId
  if core.frozen = false then .error (.batch .rollupIsFrozen)
  else if core.vault = zeroAddress then .error (.batch .vaultNotConfigured)
  else if recipient = zeroAddress then .error (.batch .invalidRecipient)
  else if batchId = 0 ∨ batchId ≠ core.latestEscapeCollateralBatchId then
    .error .escapeCollateralRootNotAnchored
  else if anchored.merkleRoot = zeroBytes32 then .error .escapeCollateralRootNotAnchored
  else if anchored.leafCount ≤ leafIndex then .error .escapeCollateralLeafIndexOutOfRange
  else if amount = 0 then .error (.batch .invalidAmount)
  else if verifyEscapeCollateralProof keccak256 anchored.merkleRoot
      (hashEscapeCollateralLeaf keccak256 batchId leafIndex sender amount) leafIndex proof = false then
    .error .invalidEscapeCollateralProof
  else .ok (escapeClaimId keccak256 batchId leafIndex sender amount, ⟨sender, amount, recipient⟩)

end FunnyRollupCore

end FunnyOption.Contracts
