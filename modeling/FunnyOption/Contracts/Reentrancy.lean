import FunnyOption.Contracts.System

/-!
# Calls inside calls

`acceptVerifiedBatch` checks a batch, calls the verifier and then writes. The interface of the verifier does
not declare `verifyBatch` to be a view, so the verifier runs with the right to call back: between the checks
of an acceptance and its writes, anyone whom the verifier reaches can call the rollup contract, and can even
start another acceptance. The calls that `satisfyForcedWithdrawal` makes are views, and the two functions
that call the vault for a payment write nothing after that call, so there a call that comes back is the
same as a call that comes next.

An execution is therefore the storage of the contract with a stack of the acceptances that wait for their
verifier. An acceptance is two events, the checks and the writes, and whatever the verifier does stands
between them. A call that reverts takes with it everything that happened inside, so the events of a run are
those of calls that return.

## Main results

* `change_call`, `Execution.step_cases`: everything a call, or an event, can do.
-/

open Foundation

namespace FunnyOption.Contracts

open Rollup

/-! ## The two halves of an acceptance -/

/-- `acceptVerifiedBatch` up to the call of the verifier: what the verifier is called with. -/
def checkAcceptance (keccak256 : Bytes → Bytes32) (core : RollupCore) (sender : Address)
    (inputs : VerifierPublicInputs) (metadataSubset : L1BatchMetadata)
    (authStatuses : List AuthJoinStatus) : Except Revert VerifierContext :=
  if sender ≠ core.operator then .error .onlyOperator
  else if core.frozen then .error .rollupIsFrozen
  else if core.verifier.isNone then .error .verifierNotConfigured
  else if inputs.batchId = 0 ∨ inputs.batchId ≠ core.latestAcceptedBatchId + 1 then .error .invalidBatchId
  else if inputs.nextStateRoot = zeroBytes32 then .error .invalidStateRoot
  else if inputs.prevStateRoot ≠ core.latestAcceptedStateRoot then .error .prevStateRootMismatch
  else if metadataSubset ≠ ⟨RollupCore.metadataOf inputs, inputs.batchId⟩ then .error .metadataMismatch
  else if inputs.batchId > core.latestBatchId ∨
      (core.batchMetadata inputs.batchId).nextStateRoot = zeroBytes32 then
    .error .batchMetadataNotRecorded
  else if core.batchMetadata inputs.batchId ≠ RollupCore.metadataOf inputs then .error .metadataMismatch
  else if core.batchDataPublished inputs.batchId = false then .error .dataNotPublished
  else
    match RollupCore.firstNotJoined 0 authStatuses with
    | some (index, status) => .error (.authProofNotFullyJoined index status)
    | none =>
      .ok (RollupCore.buildVerifierContext keccak256 inputs
        (RollupCore.hashAuthStatuses keccak256 authStatuses))

/-- What the checks of an acceptance have found. -/
structure Passed (core : RollupCore) (inputs : VerifierPublicInputs) : Prop where
  unfrozen : core.frozen = false
  next : inputs.batchId = core.latestAcceptedBatchId + 1
  nonzero : inputs.nextStateRoot ≠ zeroBytes32
  prev : inputs.prevStateRoot = core.latestAcceptedStateRoot
  le : inputs.batchId ≤ core.latestBatchId
  recorded : core.batchMetadata inputs.batchId = RollupCore.metadataOf inputs
  published : core.batchDataPublished inputs.batchId = true

variable {keccak256 : Bytes → Bytes32} {sender : Address} {now : ℕ}

theorem passed_of_checkAcceptance {core : RollupCore} {inputs : VerifierPublicInputs}
    {metadataSubset : L1BatchMetadata} {authStatuses : List AuthJoinStatus} {context : VerifierContext}
    (h : checkAcceptance keccak256 core sender inputs metadataSubset authStatuses = .ok context) :
    Passed core inputs := by
  rw [checkAcceptance] at h
  split_ifs at h with hsender hfrozen hverifier hid hnext hprev hsubset hrecorded hmetadata hpublished
  rw [not_or, not_not] at hid
  rw [not_or, not_lt] at hrecorded
  exact ⟨Bool.not_eq_true _ ▸ hfrozen, hid.2, hnext, not_not.mp hprev, hrecorded.1, not_not.mp hmetadata,
    Bool.not_eq_false _ ▸ hpublished⟩

/-! ## Executions -/

/-- An acceptance that waits for its verifier. -/
structure Pending where
  inputs : VerifierPublicInputs
  context : VerifierContext

/-- The storage of the contract and the acceptances that are under way, the innermost one first. -/
structure Execution where
  core : FunnyRollupCore
  pending : List Pending

/-- What happens to the contract: a call that is not an acceptance, the checks of an acceptance, and the
writes of the innermost acceptance, after its verifier has returned `true`. -/
inductive Event where
  | call (sender : Address) (now : ℕ) (answers : Answers) (call : CoreCall)
  | check (sender : Address) (inputs : VerifierPublicInputs) (metadataSubset : L1BatchMetadata)
      (authStatuses : List AuthJoinStatus)
  | accept

/-- A call of the contract that is not an acceptance. -/
def FunnyRollupCore.call (keccak256 : Bytes → Bytes32) (core : FunnyRollupCore) (sender : Address) (now : ℕ)
    (answers : Answers) : CoreCall → Option FunnyRollupCore
  | .setVerifier verifier => (core.setVerifier sender verifier).toOption
  | .setVault vault => (core.setVault sender vault).toOption
  | .setForcedWithdrawalGracePeriod gracePeriod =>
    (core.setForcedWithdrawalGracePeriod sender gracePeriod).toOption
  | .recordBatchMetadata batchId metadata =>
    (core.serveBatch (core.toRollupCore.recordBatchMetadata sender batchId metadata)).toOption
  | .publishBatchData batchId batchData =>
    (core.serveBatch (core.toRollupCore.publishBatchData keccak256 sender batchId batchData)).toOption
  | .publishBatchDataByOperator batchId dataHash =>
    (core.serveBatch (core.toRollupCore.publishBatchDataByOperator sender batchId dataHash)).toOption
  | .acceptVerifiedBatch .. => none
  | .claimAcceptedWithdrawal batchId leafIndex withdrawalId amount recipient proof =>
    match core.toRollupCore.claimAcceptedWithdrawal keccak256 sender batchId leafIndex withdrawalId amount
        recipient proof with
    | .error _ => none
    | .ok _ => if answers.pays then some core else none
  | .requestForcedWithdrawal recipient amount =>
    (core.requestForcedWithdrawal sender now recipient amount).toOption
  | .satisfyForcedWithdrawal requestId claimId =>
    (core.satisfyForcedWithdrawal now requestId claimId answers.processed answers.record).toOption
  | .freezeForMissedForcedWithdrawal requestId => (core.freezeForMissedForcedWithdrawal now requestId).toOption
  | .recordEscapeCollateralRoot batchId merkleRoot leafCount totalAmount =>
    (core.recordEscapeCollateralRoot sender now batchId merkleRoot leafCount totalAmount).toOption
  | .claimEscapeCollateral batchId leafIndex amount recipient proof =>
    match core.claimEscapeCollateral keccak256 sender batchId leafIndex amount recipient proof with
    | .error _ => none
    | .ok _ => if answers.pays then some core else none

namespace Execution

/-- The contract has just been deployed. -/
def start (operator : Address) (genesisStateRoot : Bytes32) : Execution := ⟨.new operator genesisStateRoot, []⟩

/-- One event. -/
def step (keccak256 : Bytes → Bytes32) (w : Execution) : Event → Option Execution
  | .call sender now answers call =>
    (w.core.call keccak256 sender now answers call).map fun core ↦ { w with core := core }
  | .check sender inputs metadataSubset authStatuses =>
    match checkAcceptance keccak256 w.core.toRollupCore sender inputs metadataSubset authStatuses with
    | .error _ => none
    | .ok context => some { w with pending := ⟨inputs, context⟩ :: w.pending }
  | .accept =>
    match w.pending with
    | [] => none
    | p :: pending =>
      some ⟨{ w.core with toRollupCore := w.core.toRollupCore.accept p.inputs p.context }, pending⟩

end Execution

/-! ## What an event does -/

/-- Everything a call that is not an acceptance can do to the storage. -/
inductive Change (now : ℕ) (core : FunnyRollupCore) (call : CoreCall) : FunnyRollupCore → Prop where
  | setVerifier (verifier : Option BatchVerifier) : Change now core call { core with verifier := verifier }
  | setVault (vault : Address) : Change now core call { core with vault := vault }
  | setForcedWithdrawalGracePeriod (gracePeriod : ℕ) :
      Change now core call { core with forcedWithdrawalGracePeriod := gracePeriod }
  | record (metadata : BatchMetadata) (unfrozen : core.frozen = false) :
      Change now core call { core with
        batchMetadata := Function.update core.batchMetadata (core.latestBatchId + 1) metadata
        latestBatchId := core.latestBatchId + 1
        latestStateRoot := metadata.nextStateRoot }
  | publish (batchId : ℕ) (unfrozen : core.frozen = false) :
      Change now core call { core with
        batchDataPublished := Function.update core.batchDataPublished batchId true }
  | request (requestId : ℕ) (request : ForcedWithdrawalRequest) (unfrozen : core.frozen = false) :
      Change now core call { core with
        forcedWithdrawalRequestCount := requestId
        forcedWithdrawalRequests := Function.update core.forcedWithdrawalRequests requestId request }
  | satisfy (requestId : ℕ) (claimId : Bytes32)
      (pending : (core.forcedWithdrawalRequests requestId).status = .requested) :
      Change now core call (core.satisfy now requestId claimId)
  | freeze (requestId : ℕ) (freezes : call = .freezeForMissedForcedWithdrawal requestId)
      (unfrozen : core.frozen = false)
      (pending : (core.forcedWithdrawalRequests requestId).status = .requested)
      (due : (core.forcedWithdrawalRequests requestId).deadlineAt ≤ toUint64 now) :
      Change now core call { core with
        frozen := true
        frozenAt := toUint64 now
        freezeRequestId := requestId
        forcedWithdrawalRequests := Function.update core.forcedWithdrawalRequests requestId
          { core.forcedWithdrawalRequests requestId with frozenAt := toUint64 now, status := .frozen } }
  | anchor (batchId : ℕ) (root : EscapeCollateralRoot) (unfrozen : core.frozen = false) :
      Change now core call { core with
        escapeCollateralRoots := Function.update core.escapeCollateralRoots batchId root
        latestEscapeCollateralBatchId := batchId
        latestEscapeCollateralRoot := root.merkleRoot }
  | pay : Change now core call core

variable {core core' : FunnyRollupCore} {answers : Answers} {call : CoreCall}

theorem eq_ok_of_toOption {α ε : Type} {x : Except ε α} {a : α} (h : x.toOption = some a) : x = .ok a := by
  cases x with
  | error e => cases h
  | ok b => exact congrArg Except.ok (Option.some.inj h)

theorem ok_of_serveBatch {served : Except Revert RollupCore} (h : core.serveBatch served = .ok core') :
    ∃ core'', served = .ok core'' ∧ core' = { core with toRollupCore := core'' } := by
  cases served with
  | error revert => cases h
  | ok core'' => exact ⟨core'', rfl, (Except.ok.inj h).symm⟩

theorem change_recordBatchMetadata {batchId : ℕ} {metadata : BatchMetadata}
    (h : core.serveBatch (core.toRollupCore.recordBatchMetadata sender batchId metadata) = .ok core') :
    Change now core call core' := by
  obtain ⟨served, hserved, rfl⟩ := ok_of_serveBatch h
  rw [RollupCore.recordBatchMetadata] at hserved
  split_ifs at hserved with hsender hfrozen hid hnext hprev
  rw [not_or, not_not] at hid
  cases hserved
  rw [hid.2]
  exact .record metadata (Bool.not_eq_true _ ▸ hfrozen)

theorem change_publishBatchDataByOperator {batchId : ℕ} {dataHash : Bytes32}
    (h : core.serveBatch (core.toRollupCore.publishBatchDataByOperator sender batchId dataHash) = .ok core') :
    Change now core call core' := by
  obtain ⟨served, hserved, rfl⟩ := ok_of_serveBatch h
  rw [RollupCore.publishBatchDataByOperator] at hserved
  split_ifs at hserved with hsender hfrozen
  cases hserved
  exact .publish batchId (Bool.not_eq_true _ ▸ hfrozen)

theorem change_requestForcedWithdrawal {recipient : Address} {amount : ℕ}
    (h : core.requestForcedWithdrawal sender now recipient amount = .ok core') : Change now core call core' := by
  rw [FunnyRollupCore.requestForcedWithdrawal] at h
  generalize checkedAdd 64 core.forcedWithdrawalRequestCount 1 = requestId,
    checkedAdd 64 (toUint64 now) core.forcedWithdrawalGracePeriod = deadlineAt at h
  split_ifs at h with hfrozen
  cases requestId with
  | none => cases h
  | some requestId =>
    cases deadlineAt with
    | none => cases h
    | some deadlineAt =>
      cases h
      exact .request requestId _ (Bool.not_eq_true _ ▸ hfrozen)

theorem change_freeze {requestId : ℕ} (h : core.freezeForMissedForcedWithdrawal now requestId = .ok core') :
    Change now core (.freezeForMissedForcedWithdrawal requestId) core' := by
  dsimp only [FunnyRollupCore.freezeForMissedForcedWithdrawal] at h
  split_ifs at h with hfrozen hnone hpending hdue
  cases h
  exact .freeze requestId rfl (Bool.not_eq_true _ ▸ hfrozen) (not_not.mp hpending) (not_lt.mp hdue)

theorem change_recordEscapeCollateralRoot {batchId : ℕ} {merkleRoot : Bytes32} {leafCount totalAmount : ℕ}
    (h : core.recordEscapeCollateralRoot sender now batchId merkleRoot leafCount totalAmount = .ok core') :
    Change now core call core' := by
  rw [FunnyRollupCore.recordEscapeCollateralRoot] at h
  split_ifs at h with hsender hfrozen
  cases h
  exact .anchor batchId ⟨merkleRoot, leafCount, totalAmount, toUint64 now⟩ (Bool.not_eq_true _ ▸ hfrozen)

/-- **What a call can do** that is not an acceptance. -/
theorem change_call (h : core.call keccak256 sender now answers call = some core') : Change now core call core' := by
  cases call with
  | setVerifier verifier =>
    have hset := eq_ok_of_toOption h
    rw [FunnyRollupCore.setVerifier] at hset
    split_ifs at hset
    cases hset
    exact .setVerifier verifier
  | setVault vault =>
    have hset := eq_ok_of_toOption h
    rw [FunnyRollupCore.setVault] at hset
    split_ifs at hset
    cases hset
    exact .setVault vault
  | setForcedWithdrawalGracePeriod gracePeriod =>
    have hset := eq_ok_of_toOption h
    rw [FunnyRollupCore.setForcedWithdrawalGracePeriod] at hset
    split_ifs at hset
    cases hset
    exact .setForcedWithdrawalGracePeriod gracePeriod
  | recordBatchMetadata => exact change_recordBatchMetadata (eq_ok_of_toOption h)
  | publishBatchData => exact change_publishBatchDataByOperator (eq_ok_of_toOption h)
  | publishBatchDataByOperator => exact change_publishBatchDataByOperator (eq_ok_of_toOption h)
  | acceptVerifiedBatch => cases h
  | claimAcceptedWithdrawal =>
    rw [FunnyRollupCore.call] at h
    split at h
    · cases h
    · split_ifs at h
      cases h
      exact .pay
  | requestForcedWithdrawal => exact change_requestForcedWithdrawal (eq_ok_of_toOption h)
  | satisfyForcedWithdrawal requestId claimId =>
    obtain ⟨-, hpending, -, -, rfl⟩ := (core.satisfyForcedWithdrawal_eq_ok_iff now).mp (eq_ok_of_toOption h)
    exact .satisfy requestId claimId hpending
  | freezeForMissedForcedWithdrawal => exact change_freeze (eq_ok_of_toOption h)
  | recordEscapeCollateralRoot => exact change_recordEscapeCollateralRoot (eq_ok_of_toOption h)
  | claimEscapeCollateral =>
    rw [FunnyRollupCore.call] at h
    split at h
    · cases h
    · split_ifs at h
      cases h
      exact .pay

namespace Execution

/-- Everything an event can do. -/
inductive Effect (w : Execution) : Event → Execution → Prop where
  | call (sender : Address) (now : ℕ) (answers : Answers) (call : CoreCall) (core' : FunnyRollupCore)
      (change : Change now w.core call core') :
      Effect w (.call sender now answers call) { w with core := core' }
  | check (sender : Address) (inputs : VerifierPublicInputs) (metadataSubset : L1BatchMetadata)
      (authStatuses : List AuthJoinStatus) (context : VerifierContext)
      (passed : Passed w.core.toRollupCore inputs) :
      Effect w (.check sender inputs metadataSubset authStatuses)
        { w with pending := ⟨inputs, context⟩ :: w.pending }
  | accept (p : Pending) (pending : List Pending) (innermost : w.pending = p :: pending) : Effect w .accept
        ⟨{ w.core with toRollupCore := w.core.toRollupCore.accept p.inputs p.context }, pending⟩

/-- **What an event can do.** -/
theorem step_cases {w w' : Execution} {e : Event} (h : w.step keccak256 e = some w') : w.Effect e w' := by
  cases e with
  | call sender now answers call =>
    obtain ⟨core', hcall, rfl⟩ := Option.map_eq_some_iff.mp h
    exact .call sender now answers call core' (change_call hcall)
  | check sender inputs metadataSubset authStatuses =>
    rw [step] at h
    cases hcheck : checkAcceptance keccak256 w.core.toRollupCore sender inputs metadataSubset authStatuses with
    | error revert =>
      rw [hcheck] at h
      cases h
    | ok context =>
      rw [hcheck] at h
      cases h
      exact .check sender inputs metadataSubset authStatuses context (passed_of_checkAcceptance hcheck)
  | accept =>
    rw [step] at h
    cases hpending : w.pending with
    | nil =>
      rw [hpending] at h
      cases h
    | cons p pending =>
      rw [hpending] at h
      cases h
      exact .accept p pending hpending

end Execution

end FunnyOption.Contracts
