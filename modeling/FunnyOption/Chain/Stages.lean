import FunnyOption.Chain.Submitter

/-!
# The stages of a batch

The contract takes the three transactions of the next batch in one order only, so its state is one of four
*stages*, and a transaction succeeds at one stage and reverts at the others. Transactions are mined in the
order in which they were sent. So the stage that the contract has once everything is mined is known from
what was sent, and mining does not change it.
-/

open Foundation

namespace FunnyOption.Chain

open Rollup

variable {keccak256 : Bytes → Bytes32} {operator : Address} {b : Bundle} {core : RollupCore}
  {c : ChainState} {leg : Leg} {tx k : ℕ}

/-! ## The stages of the contract -/

/-- The batch is the next one, the contract is not frozen, and the proof verifies. -/
structure NextBatch (keccak256 : Bytes → Bytes32) (operator : Address) (b : Bundle)
    (core : RollupCore) : Prop where
  sender : operator = core.operator
  running : core.frozen = false
  verifies : ∃ verifyBatch, core.verifier = some verifyBatch ∧
    verifyBatch (RollupCore.buildVerifierContext keccak256 b.inputs
      (RollupCore.hashAuthStatuses keccak256 b.authStatuses)) b.verifierProof = true
  next : b.inputs.batchId = core.latestBatchId + 1
  nextAccepted : b.inputs.batchId = core.latestAcceptedBatchId + 1
  prevStateRoot : b.inputs.prevStateRoot = core.latestStateRoot
  prevAcceptedStateRoot : b.inputs.prevStateRoot = core.latestAcceptedStateRoot
  nextStateRoot : b.inputs.nextStateRoot ≠ zeroBytes32
  batchDataHash : b.inputs.batchDataHash ≠ zeroBytes32
  metadata : b.metadata = RollupCore.metadataOf b.inputs
  dataHash : b.dataHash = b.inputs.batchDataHash
  metadataSubset : b.metadataSubset = ⟨RollupCore.metadataOf b.inputs, b.inputs.batchId⟩
  joined : RollupCore.firstNotJoined 0 b.authStatuses = none
  notRecorded : (core.batchMetadata b.inputs.batchId).batchDataHash = zeroBytes32
  notPublished : core.batchDataPublished b.inputs.batchId = false

/-- The stage at which a transaction succeeds. -/
def Leg.stage : Leg → ℕ
  | .record => 0
  | .publish => 1
  | .accept => 2

/-- The contract once the batch is recorded. -/
def recorded (b : Bundle) (core : RollupCore) : RollupCore :=
  { core with
    batchMetadata := Function.update core.batchMetadata b.inputs.batchId b.metadata
    latestBatchId := b.inputs.batchId
    latestStateRoot := b.metadata.nextStateRoot }

/-- The contract once its data are published as well. -/
def published (b : Bundle) (core : RollupCore) : RollupCore :=
  { recorded b core with
    batchDataPublished := Function.update core.batchDataPublished b.inputs.batchId true }

/-- The contract at a stage of the batch. -/
def coreAt (keccak256 : Bytes → Bytes32) (b : Bundle) (core : RollupCore) : ℕ → RollupCore
  | 0 => core
  | 1 => recorded b core
  | 2 => published b core
  | _ => (published b core).accept b.inputs (RollupCore.buildVerifierContext keccak256 b.inputs
      (RollupCore.hashAuthStatuses keccak256 b.authStatuses))

theorem acceptReconciled_coreAt : acceptReconciled keccak256 b (coreAt keccak256 b core 3) := by
  simp [acceptReconciled, coreAt, RollupCore.accept, expectedBatch, RollupCore.buildVerifierContext]

namespace NextBatch

variable (h : NextBatch keccak256 operator b core)
include h

theorem execute_record (hk : k ≤ 3) : execute keccak256 operator b (coreAt keccak256 b core k) .record =
      if k = 0 then .ok (coreAt keccak256 b core 1) else .error .invalidBatchId := by
  have hid := h.next
  match k with
  | 0 =>
    simp [execute, RollupCore.recordBatchMetadata, coreAt, recorded, h.sender, h.running, h.metadata,
      RollupCore.metadataOf, h.nextStateRoot, ← h.prevStateRoot, ← hid]
    omega
  | 1 | 2 | 3 =>
    simp [execute, RollupCore.recordBatchMetadata, coreAt, published, recorded, RollupCore.accept, h.sender, h.running]

theorem execute_publish (hk : k ≤ 3) : execute keccak256 operator b (coreAt keccak256 b core k) .publish =
      if k = 1 then .ok (coreAt keccak256 b core 2)
      else if k = 0 then .error .batchMetadataNotRecorded
      else .error .dataAlreadyPublished := by
  match k with
  | 0 =>
    simp [execute, RollupCore.publishBatchDataByOperator, coreAt, h.sender, h.running, h.notRecorded]
  | 1 =>
    simp [execute, RollupCore.publishBatchDataByOperator, coreAt, published, recorded, h.sender, h.running, h.metadata,
      RollupCore.metadataOf, h.batchDataHash, h.dataHash, h.notPublished]
  | 2 | 3 =>
    simp [execute, RollupCore.publishBatchDataByOperator, coreAt, published, recorded, RollupCore.accept, h.sender,
      h.running, h.metadata, RollupCore.metadataOf, h.batchDataHash]

theorem execute_accept (hk : k ≤ 3) : execute keccak256 operator b (coreAt keccak256 b core k) .accept =
      if k = 2 then .ok (coreAt keccak256 b core 3)
      else if k = 0 then .error .batchMetadataNotRecorded
      else if k = 1 then .error .dataNotPublished
      else .error .invalidBatchId := by
  obtain ⟨verifyBatch, hverifier, hverdict⟩ := h.verifies
  have hid := h.next
  have hroot := h.prevAcceptedStateRoot
  have haccepted := h.nextAccepted
  match k with
  | 0 =>
    have hlt : core.latestBatchId < b.inputs.batchId := by omega
    simp [execute, RollupCore.acceptVerifiedBatch, coreAt, h.sender, h.running, hverifier,
      ← haccepted, h.nextStateRoot, ← hroot, h.metadataSubset, hlt]
    omega
  | 1 =>
    simp [execute, RollupCore.acceptVerifiedBatch, coreAt, recorded, h.sender, h.running, hverifier,
      ← haccepted, h.nextStateRoot, ← hroot, h.metadataSubset, h.metadata, h.notPublished,
      RollupCore.metadataOf]
    omega
  | 2 =>
    simp [execute, RollupCore.acceptVerifiedBatch, coreAt, published, recorded, h.sender, h.running, hverifier,
      ← haccepted, h.nextStateRoot, ← hroot, h.metadataSubset, h.metadata, h.joined, hverdict,
      RollupCore.metadataOf]
    omega
  | 3 =>
    simp [execute, RollupCore.acceptVerifiedBatch, coreAt, published, recorded, RollupCore.accept, h.sender, h.running,
      hverifier]

/-- A transaction succeeds at its own stage. -/
theorem execute_of_eq : execute keccak256 operator b (coreAt keccak256 b core leg.stage) leg =
    .ok (coreAt keccak256 b core (leg.stage + 1)) := by
  cases leg with
  | record => exact h.execute_record (by decide)
  | publish => exact h.execute_publish (by decide)
  | accept => exact h.execute_accept (by decide)

/-- A transaction reverts at the other stages. -/
theorem execute_of_ne (hk : k ≤ 3) (hne : k ≠ leg.stage) :
    ∃ e, execute keccak256 operator b (coreAt keccak256 b core k) leg = .error e := by
  cases leg with
  | record => exact ⟨_, (h.execute_record hk).trans (if_neg hne)⟩
  | publish =>
    rw [h.execute_publish hk, if_neg (show k ≠ 1 from hne)]
    split <;> exact ⟨_, rfl⟩
  | accept =>
    rw [h.execute_accept hk, if_neg (show k ≠ 2 from hne)]
    repeat' split
    all_goals exact ⟨_, rfl⟩

theorem recordReconciled_iff (hk : k ≤ 3) : recordReconciled b (coreAt keccak256 b core k) ↔ 1 ≤ k := by
  have hid := h.next
  match k with
  | 0 =>
    refine ⟨fun hrec ↦ ?_, fun hle ↦ absurd hle (by decide)⟩
    have heq : core.latestBatchId = b.inputs.batchId := hrec.1
    omega
  | 1 | 2 | 3 =>
    simp [recordReconciled, coreAt, published, recorded, RollupCore.accept, h.metadata, RollupCore.metadataOf]

theorem publishReconciled_iff (hk : k ≤ 3) : publishReconciled b (coreAt keccak256 b core k) ↔ 2 ≤ k := by
  match k with
  | 0 | 1 => simp [publishReconciled, coreAt, recorded, h.notPublished]
  | 2 | 3 => simp [publishReconciled, coreAt, published, RollupCore.accept]

theorem latestBatchId_eq_iff (hk : k ≤ 3) :
    (coreAt keccak256 b core k).latestBatchId = b.inputs.batchId ↔ 1 ≤ k := by
  have hid := h.next
  match k with
  | 0 => simp only [coreAt]; omega
  | 1 | 2 | 3 => simp [coreAt, published, recorded, RollupCore.accept]

theorem latestAcceptedBatchId_eq_iff (hk : k ≤ 3) :
    (coreAt keccak256 b core k).latestAcceptedBatchId = b.inputs.batchId ↔ k = 3 := by
  have hid := h.nextAccepted
  match k with
  | 0 | 1 | 2 => simp only [coreAt, published, recorded]; omega
  | 3 => simp [coreAt, RollupCore.accept]

end NextBatch

/-! ## Mining -/

namespace ChainState

/-- The contract is at a stage of the batch, and the transactions that succeeded brought it there. -/
structure At (keccak256 : Bytes → Bytes32) (b : Bundle) (core : RollupCore) (c : ChainState) (k : ℕ) : Prop where
  stage_le : k ≤ 3
  core_eq : c.core = coreAt keccak256 b core k
  mined_le : c.mined.length ≤ c.sent.length
  succeeded : ∀ tx leg, c.receipt tx = some true → c.sent[tx]? = some leg → leg.stage < k

theorem mine_of_pending (h : NextBatch keccak256 operator b core) (hc : c.At keccak256 b core k)
    (hleg : c.sent[c.mined.length]? = some leg) : c.mine keccak256 operator b =
      ⟨coreAt keccak256 b core (if k = leg.stage then k + 1 else k), c.sent,
        c.mined ++ [decide (k = leg.stage)]⟩ := by
  rw [mine, hleg]
  by_cases hk : k = leg.stage
  · simp only [hc.core_eq, if_pos hk, decide_eq_true hk]
    rw [hk, h.execute_of_eq]
  · obtain ⟨e, he⟩ := h.execute_of_ne hc.stage_le hk
    simp only [hc.core_eq, if_neg hk, decide_eq_false hk, he]

theorem mine_of_not_pending (hleg : c.sent[c.mined.length]? = none) : c.mine keccak256 operator b = c := by
  rw [mine, hleg]

@[simp]
theorem sent_send : (c.send leg).sent = c.sent ++ [leg] := rfl

@[simp]
theorem mined_send : (c.send leg).mined = c.mined := rfl

/-- What one more receipt does to a chain at a stage. -/
theorem At.append (hc : c.At keccak256 b core k) (hleg : c.sent[c.mined.length]? = some leg) {r : Bool} {k' : ℕ}
    (hk' : k ≤ k') (hle : k' ≤ 3) (hr : r = true → leg.stage < k') :
    At keccak256 b core ⟨coreAt keccak256 b core k', c.sent, c.mined ++ [r]⟩ k' where
  stage_le := hle
  core_eq := rfl
  mined_le := by
    have hlt := (List.getElem?_eq_some_iff.mp hleg).1
    rw [List.length_append, List.length_singleton]
    exact hlt
  succeeded tx leg' hreceipt hsent := by
    rw [receipt, List.getElem?_append] at hreceipt
    split at hreceipt
    · exact (hc.succeeded tx leg' hreceipt hsent).trans_le hk'
    · -- the new receipt is the one of the transaction that was mined
      obtain ⟨hlt, heq⟩ := List.getElem?_eq_some_iff.mp hreceipt
      rw [List.length_singleton] at hlt
      have htx : tx = c.mined.length := by omega
      subst htx
      rw [hleg, Option.some.injEq] at hsent
      rw [List.getElem_singleton] at heq
      exact hsent ▸ hr heq

theorem At.mine (h : NextBatch keccak256 operator b core) (hc : c.At keccak256 b core k)
    (hleg : c.sent[c.mined.length]? = some leg) :
    (c.mine keccak256 operator b).At keccak256 b core (if k = leg.stage then k + 1 else k) := by
  rw [mine_of_pending h hc hleg]
  have hstage : leg.stage ≤ 2 := by cases leg <;> decide
  have hle := hc.stage_le
  by_cases hk : k = leg.stage
  · rw [if_pos hk]
    exact hc.append hleg (by omega) (by omega) (fun _ ↦ by omega)
  · rw [if_neg hk]
    exact hc.append hleg le_rfl hle (fun hr ↦ absurd (of_decide_eq_true hr) hk)

theorem At.revert (hc : c.At keccak256 b core k) : c.revert.At keccak256 b core k := by
  rw [ChainState.revert]
  cases hleg : c.sent[c.mined.length]? with
  | none => exact hc
  | some leg =>
    have happend := hc.append hleg (r := false) le_rfl hc.stage_le (fun hr ↦ absurd hr (by decide))
    rwa [← hc.core_eq] at happend

theorem At.send (hc : c.At keccak256 b core k) (leg : Leg) : (c.send leg).At keccak256 b core k where
  stage_le := hc.stage_le
  core_eq := hc.core_eq
  mined_le := by
    rw [mined_send, sent_send, List.length_append]
    exact hc.mined_le.trans (Nat.le_add_right _ _)
  succeeded tx leg' hreceipt hsent := by
    -- a receipt belongs to a transaction that was sent before
    have hlt : tx < c.sent.length := ((List.getElem?_eq_some_iff.mp hreceipt).1).trans_le hc.mined_le
    rw [sent_send, List.getElem?_append_left hlt] at hsent
    exact hc.succeeded tx leg' hreceipt hsent

theorem getElem?_mined_eq_none (hpending : c.pending = 0) : c.sent[c.mined.length]? = none :=
  List.getElem?_eq_none (Nat.sub_eq_zero_iff_le.mp hpending)

theorem exists_leg_of_pending (hpending : c.pending ≠ 0) : ∃ leg, c.sent[c.mined.length]? = some leg := by
  have hlt : c.mined.length < c.sent.length := by rw [pending] at hpending; omega
  exact ⟨_, List.getElem?_eq_getElem hlt⟩

@[simp]
theorem sent_mine : (c.mine keccak256 operator b).sent = c.sent := by
  rw [mine]
  repeat' split
  all_goals rfl

theorem exists_mined_mine (keccak256 : Bytes → Bytes32) (operator : Address) (b : Bundle)
    (hleg : c.sent[c.mined.length]? = some leg) : ∃ r, (c.mine keccak256 operator b).mined = c.mined ++ [r] := by
  rw [mine, hleg]
  dsimp only
  split
  · exact ⟨true, rfl⟩
  · exact ⟨false, rfl⟩

theorem pending_mine : (c.mine keccak256 operator b).pending = c.pending - 1 := by
  by_cases hpending : c.pending = 0
  · rw [mine_of_not_pending (getElem?_mined_eq_none hpending), hpending]
  · obtain ⟨leg, hleg⟩ := exists_leg_of_pending hpending
    obtain ⟨r, hr⟩ := exists_mined_mine keccak256 operator b hleg
    rw [pending, sent_mine, hr, List.length_append, List.length_singleton, pending]
    omega

theorem receipt_mine {r : Bool} (hr : c.receipt tx = some r) :
    (c.mine keccak256 operator b).receipt tx = some r := by
  by_cases hpending : c.pending = 0
  · rw [mine_of_not_pending (getElem?_mined_eq_none hpending)]
    exact hr
  · obtain ⟨leg, hleg⟩ := exists_leg_of_pending hpending
    obtain ⟨r', hr'⟩ := exists_mined_mine keccak256 operator b hleg
    rw [receipt, hr', List.getElem?_append_left (List.getElem?_eq_some_iff.mp hr).1]
    exact hr

@[simp]
theorem sent_revert : c.revert.sent = c.sent := by
  rw [revert]
  split <;> rfl

theorem receipt_revert {r : Bool} (hr : c.receipt tx = some r) : c.revert.receipt tx = some r := by
  rw [revert]
  split
  · exact hr
  · rw [receipt, List.getElem?_append_left (List.getElem?_eq_some_iff.mp hr).1]
    exact hr

/-! ## Once everything is mined -/

theorem settle_of_not_pending (hpending : c.pending = 0) : c.settle keccak256 operator b = c := by
  rw [settle, hpending, Function.iterate_zero, id_eq]

/-- Mining changes nothing about what there will be in the end. -/
theorem settle_mine : (c.mine keccak256 operator b).settle keccak256 operator b =
    c.settle keccak256 operator b := by
  by_cases hpending : c.pending = 0
  · rw [mine_of_not_pending (getElem?_mined_eq_none hpending)]
  · obtain ⟨n, hn⟩ := Nat.exists_eq_succ_of_ne_zero hpending
    rw [settle, settle, pending_mine, hn, Nat.succ_sub_one, Function.iterate_succ_apply]

/-- What mining preserves holds in the end. -/
theorem settle_induction {P : ChainState → Prop} (hmine : ∀ c, P c → P (c.mine keccak256 operator b)) (hc : P c) :
    P (c.settle keccak256 operator b) := by
  rw [settle]
  induction c.pending with
  | zero => exact hc
  | succ n ih =>
    rw [Function.iterate_succ_apply']
    exact hmine _ ih

@[simp]
theorem sent_settle : (c.settle keccak256 operator b).sent = c.sent :=
  settle_induction (P := fun c' ↦ c'.sent = c.sent) (fun _ hc ↦ sent_mine.trans hc) rfl

theorem pending_settle : (c.settle keccak256 operator b).pending = 0 := by
  induction hn : c.pending generalizing c with
  | zero => rw [settle_of_not_pending hn, hn]
  | succ n ih =>
    rw [← settle_mine]
    exact ih (by rw [pending_mine, hn, Nat.succ_sub_one])

/-- A receipt stays. -/
theorem receipt_settle {r : Bool} (hr : c.receipt tx = some r) :
    (c.settle keccak256 operator b).receipt tx = some r :=
  settle_induction (P := fun c ↦ c.receipt tx = some r) (fun _ ↦ receipt_mine) hr

theorem At.exists_settle (h : NextBatch keccak256 operator b core) (hc : c.At keccak256 b core k) :
    ∃ k', k ≤ k' ∧ (c.settle keccak256 operator b).At keccak256 b core k' := by
  refine settle_induction (P := fun c ↦ ∃ k', k ≤ k' ∧ c.At keccak256 b core k') ?_ ⟨k, le_rfl, hc⟩
  rintro c ⟨k', hle, hat⟩
  by_cases hpending : c.pending = 0
  · rw [mine_of_not_pending (getElem?_mined_eq_none hpending)]
    exact ⟨k', hle, hat⟩
  · obtain ⟨leg, hleg⟩ := exists_leg_of_pending hpending
    exact ⟨_, by split <;> omega, hat.mine h hleg⟩

theorem mine_send (hlt : c.mined.length < c.sent.length) :
    (c.send leg).mine keccak256 operator b = (c.mine keccak256 operator b).send leg := by
  have hleg : (c.send leg).sent[(c.send leg).mined.length]? = c.sent[c.mined.length]? := List.getElem?_append_left hlt
  have hcore : (c.send leg).core = c.core := rfl
  rw [mine, mine, hleg, List.getElem?_eq_getElem hlt]
  dsimp only
  rw [hcore]
  cases execute keccak256 operator b c.core c.sent[c.mined.length] <;> rfl

/-- A transaction that is sent now is mined last. -/
theorem settle_send (hle : c.mined.length ≤ c.sent.length) : (c.send leg).settle keccak256 operator b =
      ((c.settle keccak256 operator b).send leg).mine keccak256 operator b := by
  induction hn : c.pending generalizing c with
  | zero =>
    have hone : (c.send leg).pending = 1 := by
      rw [pending] at hn
      rw [pending, mined_send, sent_send, List.length_append, List.length_singleton]
      omega
    rw [settle_of_not_pending hn, settle, hone, Function.iterate_one]
  | succ n ih =>
    have hlt : c.mined.length < c.sent.length := by rw [pending] at hn; omega
    have hpending : (c.mine keccak256 operator b).pending = n := by
      rw [pending_mine, hn, Nat.succ_sub_one]
    have hle' : (c.mine keccak256 operator b).mined.length ≤
        (c.mine keccak256 operator b).sent.length := by
      obtain ⟨r, hr⟩ := exists_mined_mine keccak256 operator b
        (List.getElem?_eq_getElem hlt)
      rw [hr, sent_mine, List.length_append, List.length_singleton]
      exact hlt
    rw [← settle_mine, mine_send hlt, ih hle' hpending, settle_mine]

/-- What there will be in the end, with one more transaction. -/
theorem At.settle_send (h : NextBatch keccak256 operator b core) (hle : c.mined.length ≤ c.sent.length)
    (hat : (c.settle keccak256 operator b).At keccak256 b core k) (leg : Leg) :
    ((c.send leg).settle keccak256 operator b).At keccak256 b core
        (if k = leg.stage then k + 1 else k) ∧
      ((c.send leg).settle keccak256 operator b).receipt c.sent.length =
        some (decide (k = leg.stage)) := by
  have hlength : (c.settle keccak256 operator b).mined.length = c.sent.length := by
    have hzero : (c.settle keccak256 operator b).pending = 0 := pending_settle
    have hmined := hat.mined_le
    rw [pending] at hzero
    rw [sent_settle] at hzero hmined
    omega
  have hleg : ((c.settle keccak256 operator b).send leg).sent[
      ((c.settle keccak256 operator b).send leg).mined.length]? = some leg := by
    rw [mined_send, sent_send, hlength, sent_settle, List.getElem?_concat_length]
  rw [ChainState.settle_send hle]
  refine ⟨(hat.send leg).mine h hleg, ?_⟩
  rw [mine_of_pending h (hat.send leg) hleg]
  change ((c.settle keccak256 operator b).mined ++ _)[c.sent.length]? = _
  rw [← hlength, List.getElem?_concat_length]

end ChainState

end FunnyOption.Chain
