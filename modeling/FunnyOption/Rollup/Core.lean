import FunnyOption.Rollup.MerkleTree

/-!
# The rollup contract

`FunnyRollupCore` takes a batch in three transactions of the operator: its metadata are recorded, its data
are published, and it is accepted with a proof. A wallet may then claim the withdrawals of the batch.

A function of the contract that reverts has no effect, so it returns the new state or the error it reverts
with. Mappings are total functions whose default is zero, as on chain. Emitted events are left out. The hash
is a parameter, and so is the verifier, which is another contract.
-/

open Foundation

namespace FunnyOption.Rollup

/-! ## Values -/

/-- A value of 20 bytes, Solidity's `address`. -/
abbrev Address := {b : Bytes // b.length = 20}

/-- `bytes32(0)`. -/
def zeroBytes32 : Bytes32 := ⟨List.replicate 32 0, List.length_replicate⟩

/-- `address(0)`. -/
def zeroAddress : Address := ⟨List.replicate 20 0, List.length_replicate⟩

/-- An unsigned integer in big-endian order. -/
def uintBytes (width n : ℕ) : Bytes := (List.range width).map fun i ↦ UInt8.ofNat (n / 256 ^ (width - 1 - i))

@[simp]
theorem length_uintBytes (width n : ℕ) : (uintBytes width n).length = width := by
  rw [uintBytes, List.length_map, List.length_range]

/-- The bytes of a string. -/
def stringBytes (s : String) : Bytes := s.toList.flatMap String.utf8EncodeChar

theorem length_le_length_stringBytes (s : String) : s.toList.length ≤ (stringBytes s).length := by
  rw [stringBytes]
  induction s.toList with
  | nil => exact Nat.zero_le _
  | cons c l ih =>
    rw [List.flatMap_cons, List.length_append, List.length_cons, String.length_utf8EncodeChar]
    have hpos := c.utf8Size_pos
    omega

/-- `AuthJoinStatus`. -/
inductive AuthJoinStatus where
  | unspecified
  | joined
  | missingTradingKeyAuthorized
  | nonVerifierEligible
  deriving DecidableEq

/-- The value that an `AuthJoinStatus` is encoded as. -/
def AuthJoinStatus.value : AuthJoinStatus → ℕ
  | .unspecified => 0
  | .joined => 1
  | .missingTradingKeyAuthorized => 2
  | .nonVerifierEligible => 3

/-- `BatchMetadata`. -/
structure BatchMetadata where
  batchDataHash : Bytes32
  prevStateRoot : Bytes32
  nextStateRoot : Bytes32
  deriving DecidableEq

/-- `VerifierPublicInputs`. -/
structure VerifierPublicInputs where
  batchId : ℕ
  firstSequenceNo : ℕ
  lastSequenceNo : ℕ
  entryCount : ℕ
  batchDataHash : Bytes32
  prevStateRoot : Bytes32
  balancesRoot : Bytes32
  ordersRoot : Bytes32
  positionsFundingRoot : Bytes32
  withdrawalsRoot : Bytes32
  nextStateRoot : Bytes32
  conservationHash : Bytes32
  deriving DecidableEq

/-- `L1BatchMetadata`. -/
structure L1BatchMetadata extends BatchMetadata where
  batchId : ℕ
  deriving DecidableEq

/-- `AcceptedBatch`. -/
structure AcceptedBatch where
  inputs : VerifierPublicInputs
  authProofHash : Bytes32
  verifierGateHash : Bytes32
  deriving DecidableEq

/-- `VerifierContext`, without the constant that names the encoding. -/
structure VerifierContext where
  publicInputs : VerifierPublicInputs
  authProofHash : Bytes32
  verifierGateHash : Bytes32
  deriving DecidableEq

/-- `IFunnyRollupBatchVerifier.verifyBatch`. -/
abbrev BatchVerifier := VerifierContext → Bytes → Bool

/-- The errors of the contract. -/
inductive Revert where
  | onlyOperator
  | rollupIsFrozen
  | invalidBatchId
  | invalidStateRoot
  | prevStateRootMismatch
  | verifierNotConfigured
  | batchMetadataNotRecorded
  | metadataMismatch
  | authProofNotFullyJoined (index : ℕ) (status : AuthJoinStatus)
  | invalidVerifierVerdict
  | dataAlreadyPublished
  | dataHashMismatch
  | dataNotPublished
  | vaultNotConfigured
  | invalidRecipient
  | invalidAmount
  | batchNotAccepted
  | noWithdrawalRoot
  | invalidWithdrawalProof
  deriving DecidableEq

/-! ## State -/

/-- The storage of the contract. -/
structure RollupCore where
  operator : Address
  verifier : Option BatchVerifier
  vault : Address
  frozen : Bool
  latestBatchId : ℕ
  latestStateRoot : Bytes32
  latestAcceptedBatchId : ℕ
  latestAcceptedStateRoot : Bytes32
  batchMetadata : ℕ → BatchMetadata
  batchDataPublished : ℕ → Bool
  acceptedBatches : ℕ → AcceptedBatch
  acceptedWithdrawalRoots : ℕ → Bytes32

/-- The public inputs that a missing batch reads as. -/
def VerifierPublicInputs.zero : VerifierPublicInputs where
  batchId := 0
  firstSequenceNo := 0
  lastSequenceNo := 0
  entryCount := 0
  batchDataHash := zeroBytes32
  prevStateRoot := zeroBytes32
  balancesRoot := zeroBytes32
  ordersRoot := zeroBytes32
  positionsFundingRoot := zeroBytes32
  withdrawalsRoot := zeroBytes32
  nextStateRoot := zeroBytes32
  conservationHash := zeroBytes32

namespace RollupCore

/-- The constructor. -/
def new (operator : Address) (genesisStateRoot : Bytes32) : RollupCore where
  operator := operator
  verifier := none
  vault := zeroAddress
  frozen := false
  latestBatchId := 0
  latestStateRoot := genesisStateRoot
  latestAcceptedBatchId := 0
  latestAcceptedStateRoot := genesisStateRoot
  batchMetadata _ := ⟨zeroBytes32, zeroBytes32, zeroBytes32⟩
  batchDataPublished _ := false
  acceptedBatches _ := ⟨.zero, zeroBytes32, zeroBytes32⟩
  acceptedWithdrawalRoots _ := zeroBytes32

variable (keccak256 : Bytes → Bytes32) (core : RollupCore) (sender : Address)

/-! ## The three legs of a batch -/

/-- `recordBatchMetadata`. -/
def recordBatchMetadata (batchId : ℕ) (metadata : BatchMetadata) : Except Revert RollupCore :=
  if sender ≠ core.operator then .error .onlyOperator
  else if core.frozen then .error .rollupIsFrozen
  else if batchId = 0 ∨ batchId ≠ core.latestBatchId + 1 then .error .invalidBatchId
  else if metadata.nextStateRoot = zeroBytes32 then .error .invalidStateRoot
  else if metadata.prevStateRoot ≠ core.latestStateRoot then .error .prevStateRootMismatch
  else
    .ok { core with
      batchMetadata := Function.update core.batchMetadata batchId metadata
      latestBatchId := batchId
      latestStateRoot := metadata.nextStateRoot }

/-- `publishBatchDataByOperator`, which `publishBatchData` is for the hash of its data. -/
def publishBatchDataByOperator (batchId : ℕ) (dataHash : Bytes32) : Except Revert RollupCore :=
  if sender ≠ core.operator then .error .onlyOperator
  else if core.frozen then .error .rollupIsFrozen
  else if (core.batchMetadata batchId).batchDataHash = zeroBytes32 then
    .error .batchMetadataNotRecorded
  else if core.batchDataPublished batchId then .error .dataAlreadyPublished
  else if dataHash ≠ (core.batchMetadata batchId).batchDataHash then .error .dataHashMismatch
  else .ok { core with batchDataPublished := Function.update core.batchDataPublished batchId true }

/-- `publishBatchData`. -/
def publishBatchData (batchId : ℕ) (batchData : Bytes) : Except Revert RollupCore :=
  core.publishBatchDataByOperator sender batchId (keccak256 batchData)

/-- The metadata that public inputs state. -/
def metadataOf (inputs : VerifierPublicInputs) : BatchMetadata :=
  ⟨inputs.batchDataHash, inputs.prevStateRoot, inputs.nextStateRoot⟩

/-- `hashAuthStatuses`: the ABI encoding of an array is an offset, a length and the elements. -/
def hashAuthStatuses (statuses : List AuthJoinStatus) : Bytes32 :=
  keccak256 (uintBytes 32 32 ++ uintBytes 32 statuses.length ++
    statuses.flatMap fun status ↦ uintBytes 32 status.value)

/-- `hashVerifierGateBatch`. -/
def hashVerifierGateBatch (inputs : VerifierPublicInputs) (authProofHash : Bytes32) : Bytes32 :=
  keccak256 ((keccak256 (stringBytes "shadow-batch-v1")).1 ++ uintBytes 32 inputs.batchId ++
    uintBytes 32 inputs.firstSequenceNo ++ uintBytes 32 inputs.lastSequenceNo ++
    uintBytes 32 inputs.entryCount ++ inputs.batchDataHash.1 ++ inputs.prevStateRoot.1 ++
    inputs.balancesRoot.1 ++ inputs.ordersRoot.1 ++ inputs.positionsFundingRoot.1 ++
    inputs.withdrawalsRoot.1 ++ inputs.nextStateRoot.1 ++ inputs.conservationHash.1 ++ authProofHash.1)

/-- `buildVerifierContext`. -/
def buildVerifierContext (inputs : VerifierPublicInputs) (authProofHash : Bytes32) : VerifierContext :=
  ⟨inputs, authProofHash, hashVerifierGateBatch keccak256 inputs authProofHash⟩

/-- The first status that is not joined. -/
def firstNotJoined : ℕ → List AuthJoinStatus → Option (ℕ × AuthJoinStatus)
  | _, [] => none
  | index, status :: statuses =>
    if status ≠ .joined then some (index, status) else firstNotJoined (index + 1) statuses

/-- What acceptance writes. -/
def accept (inputs : VerifierPublicInputs) (context : VerifierContext) : RollupCore :=
  { core with
    acceptedBatches := Function.update core.acceptedBatches inputs.batchId
      ⟨inputs, context.authProofHash, context.verifierGateHash⟩
    latestAcceptedBatchId := inputs.batchId
    latestAcceptedStateRoot := inputs.nextStateRoot
    acceptedWithdrawalRoots :=
      if inputs.withdrawalsRoot ≠ zeroBytes32 then
        Function.update core.acceptedWithdrawalRoots inputs.batchId inputs.withdrawalsRoot
      else core.acceptedWithdrawalRoots }

/-- `acceptVerifiedBatch`. -/
def acceptVerifiedBatch (inputs : VerifierPublicInputs) (metadataSubset : L1BatchMetadata)
    (authStatuses : List AuthJoinStatus) (verifierProof : Bytes) : Except Revert RollupCore :=
  if sender ≠ core.operator then .error .onlyOperator
  else if core.frozen then .error .rollupIsFrozen
  else
    match core.verifier with
    | none => .error .verifierNotConfigured
    | some verifyBatch =>
      if inputs.batchId = 0 ∨ inputs.batchId ≠ core.latestAcceptedBatchId + 1 then
        .error .invalidBatchId
      else if inputs.nextStateRoot = zeroBytes32 then .error .invalidStateRoot
      else if inputs.prevStateRoot ≠ core.latestAcceptedStateRoot then .error .prevStateRootMismatch
      else if metadataSubset ≠ ⟨metadataOf inputs, inputs.batchId⟩ then .error .metadataMismatch
      else if inputs.batchId > core.latestBatchId ∨
          (core.batchMetadata inputs.batchId).nextStateRoot = zeroBytes32 then
        .error .batchMetadataNotRecorded
      else if core.batchMetadata inputs.batchId ≠ metadataOf inputs then .error .metadataMismatch
      else if core.batchDataPublished inputs.batchId = false then .error .dataNotPublished
      else
        match firstNotJoined 0 authStatuses with
        | some (index, status) => .error (.authProofNotFullyJoined index status)
        | none =>
          let context := buildVerifierContext keccak256 inputs (hashAuthStatuses keccak256 authStatuses)
          if verifyBatch context verifierProof = false then .error .invalidVerifierVerdict
          else .ok (core.accept inputs context)

/-! ## Claims -/

/-- What `_hashWithdrawalLeaf` hashes. -/
def leafMessage (batchId leafIndex : ℕ) (withdrawalId : Bytes32) (wallet : Address) (amount : ℕ)
    (recipient : Address) : Bytes :=
  stringBytes "funny-rollup-withdrawal-leaf-v1" ++ uintBytes 8 batchId ++ uintBytes 8 leafIndex ++
    withdrawalId.1 ++ wallet.1 ++ uintBytes 32 amount ++ recipient.1

/-- `_hashWithdrawalLeaf`. -/
def hashWithdrawalLeaf (batchId leafIndex : ℕ) (withdrawalId : Bytes32) (wallet : Address)
    (amount : ℕ) (recipient : Address) : Bytes32 :=
  keccak256 (leafMessage batchId leafIndex withdrawalId wallet amount recipient)

/-- The message whose hash is the id of a claim at the vault. -/
def claimMessage (batchId leafIndex : ℕ) (withdrawalId : Bytes32) (wallet : Address) : Bytes :=
  stringBytes "funny-rollup-withdrawal-claim-v1" ++ uintBytes 8 batchId ++ uintBytes 8 leafIndex ++
    withdrawalId.1 ++ wallet.1

/-- `claimAcceptedWithdrawal`, up to the call of the vault: the id it is called with. -/
def claimAcceptedWithdrawal (batchId leafIndex : ℕ) (withdrawalId : Bytes32) (amount : ℕ)
    (recipient : Address) (proof : List Bytes32) : Except Revert Bytes32 :=
  if core.vault = zeroAddress then .error .vaultNotConfigured
  else if recipient = zeroAddress then .error .invalidRecipient
  else if amount = 0 then .error .invalidAmount
  else if (core.acceptedBatches batchId).inputs.nextStateRoot = zeroBytes32 then
    .error .batchNotAccepted
  else if core.acceptedWithdrawalRoots batchId = zeroBytes32 then .error .noWithdrawalRoot
  else if contractVerifyMerkleProof keccak256 (core.acceptedWithdrawalRoots batchId)
      (hashWithdrawalLeaf keccak256 batchId leafIndex withdrawalId sender amount recipient) leafIndex
      proof = false then
    .error .invalidWithdrawalProof
  else .ok (keccak256 (claimMessage batchId leafIndex withdrawalId sender))

end RollupCore

end FunnyOption.Rollup
