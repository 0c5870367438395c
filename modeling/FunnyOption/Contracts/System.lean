import FunnyOption.Contracts.Core
import FunnyOption.Foundation.Run

/-!
# The two contracts together

The rollup contract and the vault are deployed side by side and called by anyone, in any order. The rollup
contract reads the vault's paid claims and asks the vault for payments; each of the two keeps a pointer to
the other that its operator can change. While the rollup contract points elsewhere, what it calls is a
contract of its operator's choice, so the answers of that contract are part of the transaction.

A transaction is one call. It carries the time of its block, which never decreases, and its caller is
neither of the two contracts: they have no code that makes other calls than those of the model. Two
mappings record the history that the contracts do not store: the time of the block in which each request was
made and the one in which each claim was paid.

## Main results

* `System.effect_transact`: everything a transaction can do to requests, claims and escape roots.
-/

open Foundation

namespace FunnyOption.Contracts

open Rollup

/-! ## Transactions -/

/-- The addresses and constructor arguments of the two contracts. -/
structure Deployment where
  coreAddress : Address
  vaultAddress : Address
  coreOperator : Address
  vaultOperator : Address
  genesisStateRoot : Bytes32
  coreAddress_ne : coreAddress ≠ zeroAddress
  vaultAddress_ne : vaultAddress ≠ zeroAddress
  coreOperator_ne : coreOperator ≠ zeroAddress
  genesisStateRoot_ne : genesisStateRoot ≠ zeroBytes32

/-- A call of the rollup contract. -/
inductive CoreCall where
  | setVerifier (verifier : Option BatchVerifier)
  | setVault (vault : Address)
  | setForcedWithdrawalGracePeriod (gracePeriod : ℕ)
  | recordBatchMetadata (batchId : ℕ) (metadata : BatchMetadata)
  | publishBatchData (batchId : ℕ) (batchData : Bytes)
  | publishBatchDataByOperator (batchId : ℕ) (dataHash : Bytes32)
  | acceptVerifiedBatch (inputs : VerifierPublicInputs) (metadataSubset : L1BatchMetadata)
      (authStatuses : List AuthJoinStatus) (verifierProof : Bytes)
  | claimAcceptedWithdrawal (batchId leafIndex : ℕ) (withdrawalId : Bytes32) (amount : ℕ)
      (recipient : Address) (proof : List Bytes32)
  | requestForcedWithdrawal (recipient : Address) (amount : ℕ)
  | satisfyForcedWithdrawal (requestId : ℕ) (claimId : Bytes32)
  | freezeForMissedForcedWithdrawal (requestId : ℕ)
  | recordEscapeCollateralRoot (batchId : ℕ) (merkleRoot : Bytes32) (leafCount totalAmount : ℕ)
  | claimEscapeCollateral (batchId leafIndex amount : ℕ) (recipient : Address) (proof : List Bytes32)

/-- A call of one of the two contracts. -/
inductive Call where
  | vault (call : VaultCall)
  | core (call : CoreCall)

/-- What other contracts answer to the calls that a transaction makes: the token, and the contract that
the rollup contract takes for the vault. -/
structure Answers where
  transfers : Bool
  pays : Bool
  processed : Bool
  record : ClaimRecord

/-- A transaction. -/
structure Transaction where
  sender : Address
  now : ℕ
  call : Call
  answers : Answers

/-- The two contracts, the time of the latest block, and when requests were made and claims paid. -/
structure System where
  core : FunnyRollupCore
  vault : FunnyVault
  now : ℕ
  madeAt : ℕ → ℕ
  paidAt : Bytes32 → ℕ

namespace System

/-- Both contracts have just been deployed. -/
def start (d : Deployment) : System where
  core := .new d.coreOperator d.genesisStateRoot
  vault := .new d.vaultOperator
  now := 0
  madeAt _ := 0
  paidAt _ := 0

variable (keccak256 : Bytes → Bytes32) (d : Deployment) (s : System)

/-- A call of the vault, by anyone. -/
def callVault (sender : Address) (now : ℕ) (call : VaultCall) : Except CoreRevert System :=
  match s.vault.call sender now call with
  | .error revert => .error (.vault revert)
  | .ok vault =>
    .ok { s with
      vault := vault
      paidAt :=
        match call.pays with
        | some claimId => Function.update s.paidAt claimId now
        | none => s.paidAt }

/-- The rollup contract asks what it takes for the vault to pay a claim. -/
def pay (now : ℕ) (answers : Answers) : Except CoreRevert (Bytes32 × ClaimRecord) → Except CoreRevert System
  | .error revert => .error revert
  | .ok (claimId, claim) =>
    if s.core.vault = d.vaultAddress then
      s.callVault d.coreAddress now (.processClaim claimId claim answers.transfers)
    else if answers.pays then .ok s
    else .error .otherVault

/-- The rollup contract has changed its own storage. -/
def setCore : Except CoreRevert FunnyRollupCore → Except CoreRevert System
  | .error revert => .error revert
  | .ok core => .ok { s with core := core }

/-- A call of the rollup contract. -/
def callCore (sender : Address) (now : ℕ) (answers : Answers) : CoreCall → Except CoreRevert System
  | .setVerifier verifier => s.setCore (s.core.setVerifier sender verifier)
  | .setVault vault => s.setCore (s.core.setVault sender vault)
  | .setForcedWithdrawalGracePeriod gracePeriod =>
    s.setCore (s.core.setForcedWithdrawalGracePeriod sender gracePeriod)
  | .recordBatchMetadata batchId metadata =>
    s.setCore (s.core.serveBatch (s.core.toRollupCore.recordBatchMetadata sender batchId metadata))
  | .publishBatchData batchId batchData =>
    s.setCore (s.core.serveBatch (s.core.toRollupCore.publishBatchData keccak256 sender batchId batchData))
  | .publishBatchDataByOperator batchId dataHash =>
    s.setCore (s.core.serveBatch (s.core.toRollupCore.publishBatchDataByOperator sender batchId dataHash))
  | .acceptVerifiedBatch inputs metadataSubset authStatuses verifierProof =>
    s.setCore (s.core.serveBatch (s.core.toRollupCore.acceptVerifiedBatch keccak256 sender inputs
      metadataSubset authStatuses verifierProof))
  | .claimAcceptedWithdrawal batchId leafIndex withdrawalId amount recipient proof =>
    s.pay d now answers
      (match s.core.toRollupCore.claimAcceptedWithdrawal keccak256 sender batchId leafIndex withdrawalId
          amount recipient proof with
        | .error revert => .error (.batch revert)
        | .ok claimId => .ok (claimId, ⟨sender, amount, recipient⟩))
  | .requestForcedWithdrawal recipient amount =>
    match s.setCore (s.core.requestForcedWithdrawal sender now recipient amount) with
    | .error revert => .error revert
    | .ok s' =>
      .ok { s' with madeAt := Function.update s.madeAt s'.core.forcedWithdrawalRequestCount now }
  | .satisfyForcedWithdrawal requestId claimId =>
    if s.core.vault = d.vaultAddress then
      s.setCore (s.core.satisfyForcedWithdrawal now requestId claimId (s.vault.processedClaims claimId)
        (s.vault.processedClaimRecords claimId))
    else
      s.setCore (s.core.satisfyForcedWithdrawal now requestId claimId answers.processed answers.record)
  | .freezeForMissedForcedWithdrawal requestId =>
    s.setCore (s.core.freezeForMissedForcedWithdrawal now requestId)
  | .recordEscapeCollateralRoot batchId merkleRoot leafCount totalAmount =>
    s.setCore (s.core.recordEscapeCollateralRoot sender now batchId merkleRoot leafCount totalAmount)
  | .claimEscapeCollateral batchId leafIndex amount recipient proof =>
    s.pay d now answers
      (s.core.claimEscapeCollateral keccak256 sender batchId leafIndex amount recipient proof)

/-- The effect of a transaction on the contracts, or the error it reverts with. -/
def transact (tx : Transaction) : Except CoreRevert System :=
  match tx.call with
  | .vault call => s.callVault tx.sender tx.now call
  | .core call => s.callCore keccak256 d tx.sender tx.now tx.answers call

/-- A transaction that does not revert, by a caller that is neither of the contracts, in a block that is
not older than the one before. -/
def step (tx : Transaction) : Option System :=
  if tx.sender = d.coreAddress ∨ tx.sender = d.vaultAddress ∨ tx.now < s.now then none
  else
    match s.transact keccak256 d tx with
    | .error _ => none
    | .ok s' => some { s' with now := tx.now }

/-! ## What a transaction does -/

/-- Everything a transaction can do to the requests, the claims and the escape roots. -/
inductive Effect (d : Deployment) (s : System) (tx : Transaction) : System → Prop where
  /-- The vault is called and pays nothing. -/
  | vault (vault' : FunnyVault) (same : s.vault.SamePaid vault')
      (pointer : vault'.rollupCore = s.vault.rollupCore ∨ tx.sender = s.vault.operator) :
      Effect d s tx { s with vault := vault' }
  /-- The vault pays a claim, for whoever called it. -/
  | payment (claimId : Bytes32) (claim : ClaimRecord) (vault' : FunnyVault)
      (pays : s.vault.Pays claimId claim vault') :
      Effect d s tx { s with vault := vault', paidAt := Function.update s.paidAt claimId tx.now }
  /-- Another contract pays. -/
  | elsewhere : Effect d s tx s
  /-- The settings change, or a batch is served. -/
  | service (core' : FunnyRollupCore)
      (requests : core'.forcedWithdrawalRequests = s.core.forcedWithdrawalRequests)
      (latest : core'.latestEscapeCollateralBatchId = s.core.latestEscapeCollateralBatchId)
      (roots : core'.escapeCollateralRoots = s.core.escapeCollateralRoots) :
      Effect d s tx { s with core := core' }
  /-- A forced withdrawal is requested. -/
  | request (requestId : ℕ) (request : ForcedWithdrawalRequest) (core' : FunnyRollupCore)
      (status : request.status = .requested)
      (requests : core'.forcedWithdrawalRequests = Function.update s.core.forcedWithdrawalRequests requestId request)
      (latest : core'.latestEscapeCollateralBatchId = s.core.latestEscapeCollateralBatchId)
      (roots : core'.escapeCollateralRoots = s.core.escapeCollateralRoots) :
      Effect d s tx { s with core := core', madeAt := Function.update s.madeAt requestId tx.now }
  /-- A request is satisfied with a claim. -/
  | satisfaction (requestId : ℕ) (claimId : Bytes32) (processed : Bool) (record : ClaimRecord)
      (core' : FunnyRollupCore)
      (call : tx.call = .core (.satisfyForcedWithdrawal requestId claimId))
      (answers : s.core.vault = d.vaultAddress →
        processed = s.vault.processedClaims claimId ∧ record = s.vault.processedClaimRecords claimId)
      (satisfy : s.core.satisfyForcedWithdrawal tx.now requestId claimId processed record = .ok core') :
      Effect d s tx { s with core := core' }
  /-- The contract freezes over a request. -/
  | freeze (requestId : ℕ) (request : ForcedWithdrawalRequest) (core' : FunnyRollupCore)
      (status : request.status = .frozen)
      (requests : core'.forcedWithdrawalRequests = Function.update s.core.forcedWithdrawalRequests requestId request)
      (latest : core'.latestEscapeCollateralBatchId = s.core.latestEscapeCollateralBatchId)
      (roots : core'.escapeCollateralRoots = s.core.escapeCollateralRoots) :
      Effect d s tx { s with core := core' }
  /-- An escape root is recorded. -/
  | anchor (batchId : ℕ) (root : EscapeCollateralRoot) (core' : FunnyRollupCore)
      (nonzero : root.merkleRoot ≠ zeroBytes32)
      (requests : core'.forcedWithdrawalRequests = s.core.forcedWithdrawalRequests)
      (latest : core'.latestEscapeCollateralBatchId = batchId)
      (roots : core'.escapeCollateralRoots = Function.update s.core.escapeCollateralRoots batchId root) :
      Effect d s tx { s with core := core' }

variable {keccak256 d s} {s' : System} {tx : Transaction} {sender : Address} {now : ℕ}
  {answers : Answers} {served : Except Revert RollupCore} {changed : Except CoreRevert FunnyRollupCore}

theorem exists_of_setCore (h : s.setCore changed = .ok s') :
    ∃ core', changed = .ok core' ∧ s' = { s with core := core' } := by
  cases changed with
  | error revert => cases h
  | ok core' => exact ⟨core', rfl, (Except.ok.inj h).symm⟩

/-- Calls that pay can come from the rollup contract, the others only from the sender. -/
theorem effect_callVault {call : VaultCall} (hsender : call.pays = none → sender = tx.sender)
    (h : s.callVault sender tx.now call = .ok s') : s.Effect d tx s' := by
  rw [callVault] at h
  cases hcall : s.vault.call sender tx.now call with
  | error revert =>
    rw [hcall] at h
    cases h
  | ok vault' =>
    rw [hcall] at h
    dsimp only at h
    rcases FunnyVault.call_cases hcall with ⟨claimId, claim, transfers, rfl, hpays⟩ | ⟨hpays, hsame, hcore⟩
    · cases h
      exact .payment claimId claim vault' hpays
    · rw [hpays] at h
      cases h
      exact .vault vault' hsame (hsender hpays ▸ hcore)

theorem effect_pay {claim : Except CoreRevert (Bytes32 × ClaimRecord)} (h : s.pay d tx.now answers claim = .ok s') :
    s.Effect d tx s' := by
  cases claim with
  | error revert => cases h
  | ok claim =>
    rw [pay] at h
    split_ifs at h
    · exact effect_callVault (by simp [VaultCall.pays]) h
    · cases h
      exact .elsewhere

theorem effect_serveBatch (h : s.setCore (s.core.serveBatch served) = .ok s') : s.Effect d tx s' := by
  obtain ⟨core', hserved, rfl⟩ := exists_of_setCore h
  cases served with
  | error revert => cases hserved
  | ok served =>
    cases hserved
    exact .service _ rfl rfl rfl

theorem effect_requestForcedWithdrawal {recipient : Address} {amount : ℕ}
    (h : s.callCore keccak256 d tx.sender tx.now answers (.requestForcedWithdrawal recipient amount) =
      .ok s') : s.Effect d tx s' := by
  rw [callCore] at h
  cases hcore : s.core.requestForcedWithdrawal tx.sender tx.now recipient amount with
  | error revert =>
    rw [hcore] at h
    cases h
  | ok core' =>
    rw [hcore] at h
    cases h
    rw [FunnyRollupCore.requestForcedWithdrawal] at hcore
    generalize checkedAdd 64 s.core.forcedWithdrawalRequestCount 1 = requestId,
      checkedAdd 64 (toUint64 tx.now) s.core.forcedWithdrawalGracePeriod = deadlineAt at hcore
    split_ifs at hcore
    cases requestId with
    | none => cases hcore
    | some requestId =>
      cases deadlineAt with
      | none => cases hcore
      | some deadlineAt =>
        cases hcore
        exact .request requestId _ _ rfl rfl rfl rfl

theorem effect_freeze {requestId : ℕ}
    (h : s.setCore (s.core.freezeForMissedForcedWithdrawal tx.now requestId) = .ok s') : s.Effect d tx s' := by
  obtain ⟨core', hcore, rfl⟩ := exists_of_setCore h
  dsimp only [FunnyRollupCore.freezeForMissedForcedWithdrawal] at hcore
  split_ifs at hcore
  cases hcore
  exact .freeze requestId _ _ rfl rfl rfl rfl

theorem effect_recordEscapeCollateralRoot {batchId : ℕ} {merkleRoot : Bytes32} {leafCount totalAmount : ℕ}
    (h : s.setCore (s.core.recordEscapeCollateralRoot tx.sender tx.now batchId merkleRoot leafCount
      totalAmount) = .ok s') : s.Effect d tx s' := by
  obtain ⟨core', hcore, rfl⟩ := exists_of_setCore h
  rw [FunnyRollupCore.recordEscapeCollateralRoot] at hcore
  split_ifs at hcore with hoperator hfrozen hbatch haccepted horder hzero
  cases hcore
  exact .anchor batchId _ _ hzero rfl rfl rfl

theorem effect_callCore {call : CoreCall} (hcall : tx.call = .core call)
    (h : s.callCore keccak256 d tx.sender tx.now answers call = .ok s') : s.Effect d tx s' := by
  cases call with
  | setVerifier verifier =>
    obtain ⟨core', hcore, rfl⟩ := exists_of_setCore h
    rw [FunnyRollupCore.setVerifier] at hcore
    split_ifs at hcore
    cases hcore
    exact .service _ rfl rfl rfl
  | setVault vault =>
    obtain ⟨core', hcore, rfl⟩ := exists_of_setCore h
    rw [FunnyRollupCore.setVault] at hcore
    split_ifs at hcore
    cases hcore
    exact .service _ rfl rfl rfl
  | setForcedWithdrawalGracePeriod gracePeriod =>
    obtain ⟨core', hcore, rfl⟩ := exists_of_setCore h
    rw [FunnyRollupCore.setForcedWithdrawalGracePeriod] at hcore
    split_ifs at hcore
    cases hcore
    exact .service _ rfl rfl rfl
  | recordBatchMetadata => exact effect_serveBatch h
  | publishBatchData => exact effect_serveBatch h
  | publishBatchDataByOperator => exact effect_serveBatch h
  | acceptVerifiedBatch => exact effect_serveBatch h
  | claimAcceptedWithdrawal => exact effect_pay h
  | requestForcedWithdrawal => exact effect_requestForcedWithdrawal h
  | satisfyForcedWithdrawal requestId claimId =>
    rw [callCore] at h
    split_ifs at h with hvault
    · obtain ⟨core', hcore, rfl⟩ := exists_of_setCore h
      exact .satisfaction requestId claimId _ _ core' hcall (fun _ ↦ ⟨rfl, rfl⟩) hcore
    · obtain ⟨core', hcore, rfl⟩ := exists_of_setCore h
      exact .satisfaction requestId claimId _ _ core' hcall (fun h ↦ absurd h hvault) hcore
  | freezeForMissedForcedWithdrawal => exact effect_freeze h
  | recordEscapeCollateralRoot => exact effect_recordEscapeCollateralRoot h
  | claimEscapeCollateral => exact effect_pay h

/-- **What a transaction can do.** -/
theorem effect_transact (h : s.transact keccak256 d tx = .ok s') : s.Effect d tx s' := by
  rw [transact] at h
  cases hcall : tx.call with
  | vault call =>
    rw [hcall] at h
    exact effect_callVault (fun _ ↦ rfl) h
  | core call =>
    rw [hcall] at h
    exact effect_callCore hcall h

/-- A taken step is a transaction of somebody else than the contracts, and moves the clock. -/
theorem effect_step (h : s.step keccak256 d tx = some s') :
    tx.sender ≠ d.coreAddress ∧ ∃ moved, s.transact keccak256 d tx = .ok moved ∧ s.Effect d tx moved ∧
      s' = { moved with now := tx.now } := by
  rw [step] at h
  split_ifs at h with hguard
  cases htransact : s.transact keccak256 d tx with
  | error revert =>
    rw [htransact] at h
    cases h
  | ok moved =>
    rw [htransact] at h
    exact ⟨fun hsender ↦ hguard (.inl hsender), moved, rfl, effect_transact htransact, (Option.some.inj h).symm⟩

end System

/-! ## A deployment -/

/-- The address that repeats a byte. -/
def constAddress (b : UInt8) : Address := ⟨List.replicate 20 b, List.length_replicate⟩

/-- Both contracts with one operator. -/
def deployed : Deployment where
  coreAddress := constAddress 1
  vaultAddress := constAddress 2
  coreOperator := constAddress 3
  vaultOperator := constAddress 3
  genesisStateRoot := constBytes32 1
  coreAddress_ne := by decide
  vaultAddress_ne := by decide
  coreOperator_ne := by decide
  genesisStateRoot_ne := by decide

/-- The token transfers what it is asked to. -/
def Answers.transferring : Answers := ⟨true, false, false, .zero⟩

end FunnyOption.Contracts
