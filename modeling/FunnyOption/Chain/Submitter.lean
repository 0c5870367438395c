import FunnyOption.Rollup.Core

/-!
# The rollup submitter

`RollupSubmissionProcessor` brings a batch to the contract. Each `PollOnce` looks at the status of the
submission and sends the next transaction, or looks for the receipt of the last one it stored. A transaction
is sent whether or not it will revert, since a failed estimate of its gas is ignored. A reverted transaction
marks the submission as failed, and the next poll prepares it again: it resumes at a status that depends on
which transaction hashes are stored.

The chain mines transactions in the order of their nonces, so a transaction is named by its position.
Transactions of the operator that belong to other batches are left out, and so is the anchoring of escape
roots, which `PollOnce` looks at first.

## Faults

A poll sends first and stores the hash afterwards. If it stops in between, the transaction is on its way and
the submission does not know it. A failed submission is prepared again in two updates, of which the first
makes it ready and the second sets the status at which it resumes.
-/

open Foundation

namespace FunnyOption.Chain

open Rollup

/-! ## Submissions -/

/-- The three transactions of a submission. -/
inductive Leg where
  | record
  | publish
  | accept
  deriving DecidableEq, Repr

/-- The status of a submission. -/
inductive SubmissionStatus where
  | ready
  | blockedAuth
  | recordSubmitted
  | publishSubmitted
  | dataPublished
  | acceptSubmitted
  | accepted
  | failed
  deriving DecidableEq, Repr

/-- The calldata of the three transactions. -/
structure Bundle where
  inputs : VerifierPublicInputs
  metadata : BatchMetadata
  dataHash : Bytes32
  metadataSubset : L1BatchMetadata
  authStatuses : List AuthJoinStatus
  verifierProof : Bytes

/-- `StoredSubmission`: the status and the hashes that are stored. -/
structure StoredSubmission where
  status : SubmissionStatus
  recordTxHash : Option ℕ
  publishTxHash : Option ℕ
  acceptTxHash : Option ℕ
  deriving DecidableEq, Repr

/-- The contract, the transactions that were sent, and the receipts of those that were mined. -/
structure ChainState where
  core : RollupCore
  sent : List Leg
  mined : List Bool

/-- A submission and the chain. -/
structure World where
  row : StoredSubmission
  chain : ChainState

section Model

variable (keccak256 : Bytes → Bytes32) (operator : Address) (b : Bundle)

/-- Run a transaction. -/
def execute (core : RollupCore) : Leg → Except Revert RollupCore
  | .record => core.recordBatchMetadata operator b.inputs.batchId b.metadata
  | .publish => core.publishBatchDataByOperator operator b.inputs.batchId b.dataHash
  | .accept => core.acceptVerifiedBatch keccak256 operator b.inputs b.metadataSubset b.authStatuses
      b.verifierProof

namespace ChainState

/-- `submitCalldata`. -/
def send (c : ChainState) (leg : Leg) : ChainState := { c with sent := c.sent ++ [leg] }

/-- `lookupReceipt`: whether a transaction that was mined succeeded. -/
def receipt (c : ChainState) (tx : ℕ) : Option Bool := c.mined[tx]?

/-- The next transaction is mined. -/
def mine (c : ChainState) : ChainState :=
  match c.sent[c.mined.length]? with
  | none => c
  | some leg =>
    match execute keccak256 operator b c.core leg with
    | .ok core => ⟨core, c.sent, c.mined ++ [true]⟩
    | .error _ => { c with mined := c.mined ++ [false] }

/-- The next transaction is mined and reverts, whatever the contract says. -/
def revert (c : ChainState) : ChainState :=
  match c.sent[c.mined.length]? with
  | none => c
  | some _ => { c with mined := c.mined ++ [false] }

/-- The transactions that are not mined yet. -/
def pending (c : ChainState) : ℕ := c.sent.length - c.mined.length

/-- Everything that was sent is mined. -/
def settle (c : ChainState) : ChainState := (mine keccak256 operator b)^[c.pending] c

end ChainState

/-- `reconcileRecordSubmissionState`. -/
def recordReconciled (core : RollupCore) : Prop :=
  core.latestBatchId = b.inputs.batchId ∧ core.latestStateRoot = b.inputs.nextStateRoot ∧
    core.batchMetadata b.inputs.batchId = RollupCore.metadataOf b.inputs

/-- `reconcilePublishDataState`. -/
def publishReconciled (core : RollupCore) : Prop := core.batchDataPublished b.inputs.batchId = true

/-- The record of the accepted batch that the submission expects. -/
def expectedBatch : AcceptedBatch :=
  let authProofHash := RollupCore.hashAuthStatuses keccak256 b.authStatuses
  ⟨b.inputs, authProofHash, RollupCore.hashVerifierGateBatch keccak256 b.inputs authProofHash⟩

/-- `reconcileAcceptedSubmissionState`. -/
def acceptReconciled (core : RollupCore) : Prop := core.latestAcceptedBatchId = b.inputs.batchId ∧
    core.latestAcceptedStateRoot = b.inputs.nextStateRoot ∧
    core.acceptedBatches b.inputs.batchId = expectedBatch keccak256 b

instance (core : RollupCore) : Decidable (recordReconciled b core) := inferInstanceAs (Decidable (_ ∧ _ ∧ _))

instance (core : RollupCore) : Decidable (publishReconciled b core) := inferInstanceAs (Decidable (_ = _))

instance (core : RollupCore) : Decidable (acceptReconciled keccak256 b core) :=
  inferInstanceAs (Decidable (_ ∧ _ ∧ _))

/-- Where a poll stops. -/
inductive Fault where
  | beforeSend
  | beforeMark
  deriving DecidableEq

namespace World

/-- `MarkSubmissionFailed`. -/
def markFailed (w : World) : World := ⟨{ w.row with status := .failed }, w.chain⟩

/-- Send a transaction, and store that it was sent. -/
def submit (fault : Option Fault) (leg : Leg) (mark : ℕ → StoredSubmission) (w : World) : World :=
  match fault with
  | some .beforeSend => w
  | some .beforeMark => ⟨w.row, w.chain.send leg⟩
  | none => ⟨mark w.chain.sent.length, w.chain.send leg⟩

/-- `submitRecordLeg`. -/
def submitRecordLeg (fault : Option Fault) (w : World) : World :=
  w.submit fault .record fun tx ↦ { w.row with status := .recordSubmitted, recordTxHash := some tx }

/-- `submitPublishDataLeg`. -/
def submitPublishDataLeg (fault : Option Fault) (w : World) : World :=
  w.submit fault .publish fun tx ↦ { w.row with status := .publishSubmitted, publishTxHash := some tx }

/-- `submitAcceptLeg`. -/
def submitAcceptLeg (fault : Option Fault) (w : World) : World :=
  w.submit fault .accept fun tx ↦ { w.row with status := .acceptSubmitted, acceptTxHash := some tx }

/-- `advanceAfterRecordReceipt`. -/
def advanceAfterRecordReceipt (fault : Option Fault) (w : World) : World :=
  match w.row.recordTxHash.bind w.chain.receipt with
  | none => w
  | some false => w.markFailed
  | some true => if recordReconciled b w.chain.core then w.submitPublishDataLeg fault else w

/-- `advanceAfterPublishReceipt`. -/
def advanceAfterPublishReceipt (fault : Option Fault) (w : World) : World :=
  match w.row.publishTxHash.bind w.chain.receipt with
  | none => w
  | some false => w.markFailed
  | some true =>
    if publishReconciled b w.chain.core then
      submitAcceptLeg fault ⟨{ w.row with status := .dataPublished }, w.chain⟩
    else w

/-- `advanceAfterAcceptReceipt`. -/
def advanceAfterAcceptReceipt (w : World) : World :=
  match w.row.acceptTxHash.bind w.chain.receipt with
  | none => w
  | some false => w.markFailed
  | some true =>
    if acceptReconciled keccak256 b w.chain.core then ⟨{ w.row with status := .accepted }, w.chain⟩
    else w

/-- The status at which `ReprepareFailedSubmission` resumes. -/
def resumeStatus (row : StoredSubmission) : SubmissionStatus :=
  if row.recordTxHash.isSome ∧ row.publishTxHash.isSome then .dataPublished
  else if row.recordTxHash.isSome then .recordSubmitted
  else .ready

/-- `ReprepareFailedSubmission`. The calldata are built from the same batch again. -/
def reprepareFailedSubmission (fault : Option Fault) (w : World) : World :=
  match fault with
  | some .beforeSend => w
  | some .beforeMark => ⟨{ w.row with status := .ready }, w.chain⟩
  | none => ⟨{ w.row with status := resumeStatus w.row, acceptTxHash := none }, w.chain⟩

/-- `PollOnce`, once no escape root is waiting to be anchored. -/
def pollOnce (fault : Option Fault) (w : World) : World :=
  match w.row.status with
  | .ready => w.submitRecordLeg fault
  | .recordSubmitted => w.advanceAfterRecordReceipt b fault
  | .publishSubmitted => w.advanceAfterPublishReceipt b fault
  | .dataPublished => w.submitAcceptLeg fault
  | .acceptSubmitted => w.advanceAfterAcceptReceipt keccak256 b
  | .failed => w.reprepareFailedSubmission fault
  | .accepted | .blockedAuth => w

end World

/-- What happens when nothing goes wrong. -/
inductive Turn where
  | poll
  | mine
  deriving DecidableEq

/-- What can happen. -/
inductive WorldEvent where
  | turn (turn : Turn)
  | stop (fault : Fault)
  | revert
  deriving DecidableEq

namespace World

/-- One turn. -/
def turn (w : World) : Turn → World
  | .poll => w.pollOnce keccak256 b none
  | .mine => ⟨w.row, w.chain.mine keccak256 operator b⟩

/-- One event. -/
def step (w : World) : WorldEvent → World
  | .turn t => w.turn keccak256 operator b t
  | .stop fault => w.pollOnce keccak256 b (some fault)
  | .revert => ⟨w.row, w.chain.revert⟩

/-- A submission that was just prepared. -/
def start (core : RollupCore) : World := ⟨⟨.ready, none, none, none⟩, ⟨core, [], []⟩⟩

end World

end Model

end FunnyOption.Chain
