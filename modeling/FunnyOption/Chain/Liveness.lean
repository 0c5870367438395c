import FunnyOption.Chain.Stages
import FunnyOption.Foundation.Fair

/-!
# Submissions are accepted

What becomes of a submission depends on the stage that the contract has once everything that was sent is
mined, and on whether the transaction the submission waits for succeeds.

## Resuming

A failed submission resumes at its record transaction as long as no publish transaction is stored. If that
record transaction reverted, it is looked at again, and the submission fails again. With a publish
transaction stored it resumes at acceptance, whether or not the data were published, and whether or not the
batch was accepted already by a transaction that the submission does not know.

## Main results

* `accepted_iff`: from every state of submission and contract that can be reached, a fair schedule brings the
  submission to acceptance exactly if `World.Recoverable` holds.
* `record_repeated`: the batch is recorded, the submission does not know it, and it is never accepted.
-/

open Foundation

namespace FunnyOption.Chain

open Rollup

variable {keccak256 : Bytes → Bytes32} {operator : Address} {b : Bundle} {core : RollupCore}
  {c : ChainState} {w : World} {leg : Leg} {fault : Option Fault} {tx k : ℕ}

/-! ## What a submission knows -/

/-- A stored hash is that of a transaction of the leg. -/
def ChainState.Knows (c : ChainState) (hash : Option ℕ) (leg : Leg) : Prop :=
  ∀ tx, hash = some tx → c.sent[tx]? = some leg

variable {hash : Option ℕ}

theorem ChainState.Knows.send (h : c.Knows hash leg) (leg' : Leg) : (c.send leg').Knows hash leg := by
  intro tx htx
  rw [sent_send, List.getElem?_append_left (List.getElem?_eq_some_iff.mp (h tx htx)).1]
  exact h tx htx

theorem ChainState.knows_send : (c.send leg).Knows (some c.sent.length) leg := by
  rintro tx ⟨⟩
  rw [sent_send, List.getElem?_concat_length]

theorem ChainState.Knows.settle (h : c.Knows hash leg) : (c.settle keccak256 operator b).Knows hash leg := by
  intro tx htx
  rw [sent_settle]
  exact h tx htx

/-- A transaction that succeeded brought the contract past its stage. -/
theorem ChainState.At.stage_lt (hat : c.At keccak256 b core k) (hknows : c.Knows hash leg)
    (hreceipt : hash.bind c.receipt = some true) : leg.stage < k := by
  obtain ⟨tx, htx, htrue⟩ := Option.bind_eq_some_iff.mp hreceipt
  exact hat.succeeded tx leg htrue (hknows tx htx)

theorem ChainState.bind_receipt_settle {r : Bool} (h : hash.bind c.receipt = some r) :
    hash.bind (c.settle keccak256 operator b).receipt = some r := by
  obtain ⟨tx, htx, hr⟩ := Option.bind_eq_some_iff.mp h
  exact Option.bind_eq_some_iff.mpr ⟨tx, htx, receipt_settle hr⟩

/-- The hashes that are stored at each status. -/
def StoredSubmission.Complete (row : StoredSubmission) (c : ChainState) : Prop :=
  match row.status with
  | .ready | .accepted => True
  | .recordSubmitted => row.recordTxHash.isSome
  | .publishSubmitted | .dataPublished => row.recordTxHash.isSome ∧ row.publishTxHash.isSome
  | .acceptSubmitted =>
    row.recordTxHash.isSome ∧ row.publishTxHash.isSome ∧ row.acceptTxHash.isSome
  | .failed => row.recordTxHash.isSome ∧ (row.publishTxHash = none → row.recordTxHash.bind c.receipt = some false)
  | .blockedAuth => False

/-- What holds of a submission and the chain after any events. -/
structure World.Valid (keccak256 : Bytes → Bytes32) (b : Bundle) (core : RollupCore) (w : World) : Prop where
  stage : ∃ k, w.chain.At keccak256 b core k
  record : w.chain.Knows w.row.recordTxHash .record
  publish : w.chain.Knows w.row.publishTxHash .publish
  accept : w.chain.Knows w.row.acceptTxHash .accept
  complete : w.row.Complete w.chain

namespace World.Valid

variable (h : NextBatch keccak256 operator b core) (hw : w.Valid keccak256 b core)

include hw in
theorem complete_of {status : SubmissionStatus} (hstatus : w.row.status = status) :
    StoredSubmission.Complete { w.row with status } w.chain := by
  rw [← hstatus]
  exact hw.complete

theorem start : (World.start core).Valid keccak256 b core where
  stage := ⟨0, by decide, rfl, le_rfl, fun _ _ hreceipt ↦ by cases hreceipt⟩
  record := fun _ htx ↦ by cases htx
  publish := fun _ htx ↦ by cases htx
  accept := fun _ htx ↦ by cases htx
  complete := trivial

include hw in
/-- A chain that only got more receipts. -/
theorem of_receipts (hc : ∃ k, c.At keccak256 b core k) (hsent : c.sent = w.chain.sent)
    (hreceipt : ∀ tx r, w.chain.receipt tx = some r → c.receipt tx = some r) :
    Valid keccak256 b core ⟨w.row, c⟩ where
  stage := hc
  record tx htx := (congrArg (·[tx]?) hsent).trans (hw.record tx htx)
  publish tx htx := (congrArg (·[tx]?) hsent).trans (hw.publish tx htx)
  accept tx htx := (congrArg (·[tx]?) hsent).trans (hw.accept tx htx)
  complete := by
    have hcomplete := hw.complete
    rw [StoredSubmission.Complete] at hcomplete ⊢
    cases hstatus : w.row.status with
    | failed =>
      rw [hstatus] at hcomplete
      refine ⟨hcomplete.1, fun hnone ↦ ?_⟩
      obtain ⟨tx, htx, hfalse⟩ := Option.bind_eq_some_iff.mp (hcomplete.2 hnone)
      exact Option.bind_eq_some_iff.mpr ⟨tx, htx, hreceipt tx _ hfalse⟩
    | _ =>
      rw [hstatus] at hcomplete
      exact hcomplete

include h hw in
theorem mine : Valid keccak256 b core ⟨w.row, w.chain.mine keccak256 operator b⟩ := by
  refine hw.of_receipts ?_ ChainState.sent_mine fun _ _ ↦ ChainState.receipt_mine
  obtain ⟨k, hat⟩ := hw.stage
  by_cases hpending : w.chain.pending = 0
  · rw [ChainState.mine_of_not_pending (ChainState.getElem?_mined_eq_none hpending)]
    exact ⟨k, hat⟩
  · obtain ⟨leg, hleg⟩ := ChainState.exists_leg_of_pending hpending
    exact ⟨_, hat.mine h hleg⟩

include hw in
theorem revert : Valid keccak256 b core ⟨w.row, w.chain.revert⟩ := by
  obtain ⟨k, hat⟩ := hw.stage
  exact hw.of_receipts ⟨k, hat.revert⟩ ChainState.sent_revert fun _ _ ↦ ChainState.receipt_revert

include hw in
/-- A transaction is sent and not stored. -/
theorem send (leg : Leg) : Valid keccak256 b core ⟨w.row, w.chain.send leg⟩ where
  stage := hw.stage.imp fun _ hat ↦ hat.send leg
  record := hw.record.send leg
  publish := hw.publish.send leg
  accept := hw.accept.send leg
  complete := hw.complete

include hw in
/-- A submission that changes its status only. -/
theorem setStatus (status : SubmissionStatus)
    (hcomplete : StoredSubmission.Complete { w.row with status := status } w.chain) :
    Valid keccak256 b core ⟨{ w.row with status := status }, w.chain⟩ :=
  ⟨hw.stage, hw.record, hw.publish, hw.accept, hcomplete⟩

include hw in
theorem submitRecordLeg : (w.submitRecordLeg fault).Valid keccak256 b core := by
  match fault with
  | some .beforeSend => exact hw
  | some .beforeMark => exact hw.send .record
  | none =>
    exact ⟨hw.stage.imp fun _ hat ↦ hat.send .record, ChainState.knows_send, hw.publish.send .record,
      hw.accept.send .record, rfl⟩

include hw in
theorem submitPublishDataLeg (hrecord : w.row.recordTxHash.isSome) :
    (w.submitPublishDataLeg fault).Valid keccak256 b core := by
  match fault with
  | some .beforeSend => exact hw
  | some .beforeMark => exact hw.send .publish
  | none =>
    exact ⟨hw.stage.imp fun _ hat ↦ hat.send .publish, hw.record.send .publish, ChainState.knows_send,
      hw.accept.send .publish, hrecord, rfl⟩

include hw in
theorem submitAcceptLeg (hrecord : w.row.recordTxHash.isSome) (hpublish : w.row.publishTxHash.isSome) :
    (w.submitAcceptLeg fault).Valid keccak256 b core := by
  match fault with
  | some .beforeSend => exact hw
  | some .beforeMark => exact hw.send .accept
  | none =>
    exact ⟨hw.stage.imp fun _ hat ↦ hat.send .accept, hw.record.send .accept, hw.publish.send .accept,
      ChainState.knows_send, hrecord, hpublish, rfl⟩

include hw in
theorem markFailed (hrecord : w.row.recordTxHash.isSome)
    (hpublish : w.row.publishTxHash = none → w.row.recordTxHash.bind w.chain.receipt = some false) :
    w.markFailed.Valid keccak256 b core :=
  hw.setStatus .failed ⟨hrecord, hpublish⟩

include hw in
theorem reprepareFailedSubmission : (w.reprepareFailedSubmission fault).Valid keccak256 b core := by
  match fault with
  | some .beforeSend => exact hw
  | some .beforeMark => exact hw.setStatus .ready trivial
  | none =>
    refine ⟨hw.stage, hw.record, hw.publish, (fun _ htx ↦ by cases htx), ?_⟩
    simp only [World.reprepareFailedSubmission, StoredSubmission.Complete, resumeStatus]
    split_ifs with hboth hrecord
    · exact hboth
    · exact hrecord
    · trivial

include hw in
theorem pollOnce : (w.pollOnce keccak256 b fault).Valid keccak256 b core := by
  rw [World.pollOnce]
  cases hstatus : w.row.status with
  | ready => exact hw.submitRecordLeg
  | recordSubmitted =>
    have hcomplete := hw.complete_of hstatus
    dsimp only
    rw [advanceAfterRecordReceipt]
    split
    · exact hw
    · rename_i hreceipt
      exact hw.markFailed hcomplete fun _ ↦ hreceipt
    · split_ifs
      · exact hw.submitPublishDataLeg hcomplete
      · exact hw
  | publishSubmitted =>
    have hcomplete := hw.complete_of hstatus
    dsimp only
    rw [advanceAfterPublishReceipt]
    have hsome : w.row.publishTxHash ≠ none := Option.isSome_iff_ne_none.mp hcomplete.2
    split
    · exact hw
    · exact hw.markFailed hcomplete.1 fun hnone ↦ absurd hnone hsome
    · split_ifs
      · exact (hw.setStatus .dataPublished hcomplete).submitAcceptLeg hcomplete.1 hcomplete.2
      · exact hw
  | dataPublished =>
    have hcomplete := hw.complete_of hstatus
    exact hw.submitAcceptLeg hcomplete.1 hcomplete.2
  | acceptSubmitted =>
    have hcomplete := hw.complete_of hstatus
    dsimp only
    rw [advanceAfterAcceptReceipt]
    have hsome : w.row.publishTxHash ≠ none := Option.isSome_iff_ne_none.mp hcomplete.2.1
    split
    · exact hw
    · exact hw.markFailed hcomplete.1 fun hnone ↦ absurd hnone hsome
    · split_ifs
      · exact hw.setStatus .accepted trivial
      · exact hw
  | failed => exact hw.reprepareFailedSubmission
  | accepted => exact hw
  | blockedAuth => exact hw

include h hw in
theorem turn (t : Turn) : (w.turn keccak256 operator b t).Valid keccak256 b core := by
  cases t with
  | poll => exact hw.pollOnce
  | mine => exact hw.mine h

include h hw in
theorem step (event : WorldEvent) : (w.step keccak256 operator b event).Valid keccak256 b core := by
  cases event with
  | turn t => exact hw.turn h t
  | stop fault => exact hw.pollOnce
  | revert => exact hw.revert

end World.Valid

/-! ## Submissions that can still be accepted -/

/-- The data of the batch are published, and it is not accepted yet. -/
def Acceptable (b : Bundle) (core : RollupCore) : Prop :=
  publishReconciled b core ∧ core.latestAcceptedBatchId ≠ b.inputs.batchId

instance (b : Bundle) (core : RollupCore) : Decidable (Acceptable b core) := inferInstanceAs (Decidable (_ ∧ _))

namespace World

/-- The submission and the contract fit together once everything that was sent is mined. -/
def Recoverable (keccak256 : Bytes → Bytes32) (operator : Address) (b : Bundle) (w : World) : Prop :=
  let c := w.chain.settle keccak256 operator b
  match w.row.status with
  | .ready =>
    c.core.latestBatchId ≠ b.inputs.batchId ∨ w.row.publishTxHash.isSome ∧ Acceptable b c.core
  | .recordSubmitted =>
    w.row.recordTxHash.bind c.receipt = some true ∧ c.core.latestAcceptedBatchId ≠ b.inputs.batchId ∨
      w.row.publishTxHash.isSome ∧ Acceptable b c.core
  | .publishSubmitted | .dataPublished => Acceptable b c.core
  | .acceptSubmitted => w.row.acceptTxHash.bind c.receipt = some true ∨ Acceptable b c.core
  | .failed => w.row.publishTxHash.isSome ∧ Acceptable b c.core
  | .accepted => True
  | .blockedAuth => False

/-- How far a submission is from acceptance. -/
def rank (keccak256 : Bytes → Bytes32) (operator : Address) (b : Bundle) (w : World) : ℕ :=
  match w.row.status with
  | .accepted => 0
  | .dataPublished => 2
  | .failed => 3
  | .acceptSubmitted =>
    if w.row.acceptTxHash.bind (w.chain.settle keccak256 operator b).receipt = some true then 1 else 4
  | .publishSubmitted => 5
  | .recordSubmitted => 6
  | .ready | .blockedAuth => 7

end World

theorem NextBatch.acceptable_iff (h : NextBatch keccak256 operator b core) (hk : k ≤ 3) :
    Acceptable b (coreAt keccak256 b core k) ↔ k = 2 := by
  rw [Acceptable, h.publishReconciled_iff hk, Ne, h.latestAcceptedBatchId_eq_iff hk]
  omega

/-- `World.Recoverable` in terms of the stage. -/
theorem World.recoverable_iff (h : NextBatch keccak256 operator b core)
    (hat : (w.chain.settle keccak256 operator b).At keccak256 b core k) {status : SubmissionStatus} :
    w.row.status = status → (w.Recoverable keccak256 operator b ↔
      match status with
      | .ready => k = 0 ∨ w.row.publishTxHash.isSome ∧ k = 2
      | .recordSubmitted =>
        w.row.recordTxHash.bind (w.chain.settle keccak256 operator b).receipt = some true ∧ k ≠ 3 ∨
          w.row.publishTxHash.isSome ∧ k = 2
      | .publishSubmitted | .dataPublished => k = 2
      | .acceptSubmitted =>
        w.row.acceptTxHash.bind (w.chain.settle keccak256 operator b).receipt = some true ∨ k = 2
      | .failed => w.row.publishTxHash.isSome ∧ k = 2
      | .accepted => True
      | .blockedAuth => False) := by
  rintro rfl
  have hrecorded := h.latestBatchId_eq_iff hat.stage_le
  have hzero : ¬ 1 ≤ k ↔ k = 0 := by omega
  rw [Recoverable, hat.core_eq]
  simp only [h.acceptable_iff hat.stage_le, Ne, h.latestAcceptedBatchId_eq_iff hat.stage_le, hrecorded, hzero]

theorem World.recoverable_markFailed (h : NextBatch keccak256 operator b core)
    (hat : (w.chain.settle keccak256 operator b).At keccak256 b core k) :
    w.markFailed.Recoverable keccak256 operator b ↔ w.row.publishTxHash.isSome ∧ k = 2 :=
  World.recoverable_iff (w := w.markFailed) h hat rfl

/-- What a poll does about acceptance: the outlook stays, and if it is good, the submission gets closer. -/
structure World.Progress (keccak256 : Bytes → Bytes32) (operator : Address) (b : Bundle)
    (w w' : World) : Prop where
  recoverable_iff : w'.Recoverable keccak256 operator b ↔ w.Recoverable keccak256 operator b
  rank_lt : w.Recoverable keccak256 operator b → w'.rank keccak256 operator b < w.rank keccak256 operator b

namespace World.Valid

variable (h : NextBatch keccak256 operator b core) (hw : w.Valid keccak256 b core) {r : Bool}
include h hw

theorem exists_settle_at : ∃ k, (w.chain.settle keccak256 operator b).At keccak256 b core k := by
  obtain ⟨k, hat⟩ := hw.stage
  obtain ⟨k', -, hat'⟩ := hat.exists_settle h
  exact ⟨k', hat'⟩

/-- A transaction that is sent now is mined last. -/
theorem settle_send (hat : (w.chain.settle keccak256 operator b).At keccak256 b core k) (leg : Leg) :
    ((w.chain.send leg).settle keccak256 operator b).At keccak256 b core
        (if k = leg.stage then k + 1 else k) ∧
      ((w.chain.send leg).settle keccak256 operator b).receipt w.chain.sent.length =
        some (decide (k = leg.stage)) := by
  obtain ⟨j, hj⟩ := hw.stage
  exact hat.settle_send h hj.mined_le leg

theorem progress_ready (hstatus : w.row.status = .ready) :
    w.Progress keccak256 operator b (w.submitRecordLeg none) := by
  obtain ⟨k, hat⟩ := hw.exists_settle_at h
  obtain ⟨hat', hreceipt⟩ := hw.settle_send h hat .record
  have hbefore := World.recoverable_iff h hat hstatus
  have hafter : (w.submitRecordLeg none).Recoverable keccak256 operator b ↔
      ((w.chain.send .record).settle keccak256 operator b).receipt w.chain.sent.length = some true ∧
          (if k = 0 then k + 1 else k) ≠ 3 ∨
        w.row.publishTxHash.isSome ∧ (if k = 0 then k + 1 else k) = 2 :=
    World.recoverable_iff h hat' rfl
  rw [hreceipt] at hafter
  refine ⟨hafter.trans (Iff.trans ?_ hbefore.symm), fun _ ↦ ?_⟩
  · by_cases hk : k = 0 <;> simp [hk, Leg.stage]
  · rw [rank, rank, hstatus]
    exact (by decide : 6 < 7)

theorem progress_recordSubmitted (hstatus : w.row.status = .recordSubmitted)
    (hreceipt : w.row.recordTxHash.bind w.chain.receipt = some r) :
    w.Progress keccak256 operator b (w.advanceAfterRecordReceipt b none) := by
  obtain ⟨j, hj⟩ := hw.stage
  obtain ⟨k, hat⟩ := hw.exists_settle_at h
  have hbefore := World.recoverable_iff h hat hstatus
  have hsettled : w.row.recordTxHash.bind (w.chain.settle keccak256 operator b).receipt = some r :=
    ChainState.bind_receipt_settle hreceipt
  simp only [hsettled] at hbefore
  rw [advanceAfterRecordReceipt, hreceipt]
  cases r with
  | false =>
    refine ⟨(World.recoverable_markFailed h hat).trans (Iff.trans ?_ hbefore.symm), fun _ ↦ ?_⟩
    · simp
    · rw [rank, rank, hstatus]
      exact (by decide : 3 < 6)
  | true =>
    -- the contract shows the batch, so the next transaction is sent
    have hone : 0 < k := hat.stage_lt hw.record.settle hsettled
    have hle := hat.stage_le
    rw [if_pos (hj.core_eq ▸ (h.recordReconciled_iff hj.stage_le).mpr (hj.stage_lt hw.record hreceipt))]
    have hafter : (w.submitPublishDataLeg none).Recoverable keccak256 operator b ↔
        (if k = 1 then k + 1 else k) = 2 :=
      World.recoverable_iff h (hw.settle_send h hat .publish).1 rfl
    refine ⟨hafter.trans (Iff.trans ?_ hbefore.symm), fun _ ↦ ?_⟩
    · simp only [true_and]
      split <;> omega
    · rw [rank, rank, hstatus]
      exact (by decide : 5 < 6)

/-- The last transaction succeeds if the batch waits for it. -/
theorem submitAcceptLeg_iff (hat : (w.chain.settle keccak256 operator b).At keccak256 b core k) :
    ((w.submitAcceptLeg none).Recoverable keccak256 operator b ↔ k = 2) ∧
      (k = 2 → (w.submitAcceptLeg none).rank keccak256 operator b = 1) := by
  obtain ⟨hat', hreceipt⟩ := hw.settle_send h hat .accept
  have hafter : (w.submitAcceptLeg none).Recoverable keccak256 operator b ↔
      ((w.chain.send .accept).settle keccak256 operator b).receipt w.chain.sent.length = some true ∨
        (if k = 2 then k + 1 else k) = 2 :=
    World.recoverable_iff h hat' rfl
  rw [hreceipt] at hafter
  constructor
  · rw [hafter]
    by_cases hk : k = 2 <;> simp [hk, Leg.stage]
  · intro hk
    rw [rank]
    exact if_pos (hreceipt.trans (by rw [hk]; rfl))

theorem progress_publishSubmitted (hstatus : w.row.status = .publishSubmitted)
    (hreceipt : w.row.publishTxHash.bind w.chain.receipt = some r) :
    w.Progress keccak256 operator b (w.advanceAfterPublishReceipt b none) := by
  obtain ⟨j, hj⟩ := hw.stage
  obtain ⟨k, hat⟩ := hw.exists_settle_at h
  have hcomplete := hw.complete_of hstatus
  have hbefore := World.recoverable_iff h hat hstatus
  rw [advanceAfterPublishReceipt, hreceipt]
  cases r with
  | false =>
    refine ⟨(World.recoverable_markFailed h hat).trans (Iff.trans ?_ hbefore.symm), fun _ ↦ ?_⟩
    · exact and_iff_right hcomplete.2
    · rw [rank, rank, hstatus]
      exact (by decide : 3 < 5)
  | true =>
    have hpublished := (h.publishReconciled_iff hj.stage_le).mpr (hj.stage_lt hw.publish hreceipt)
    rw [if_pos (hj.core_eq ▸ hpublished)]
    have hset := hw.setStatus .dataPublished hcomplete
    obtain ⟨hiff, hrank⟩ := hset.submitAcceptLeg_iff h hat
    refine ⟨hiff.trans hbefore.symm, fun hgood ↦ ?_⟩
    rw [hrank (hbefore.mp hgood), rank, hstatus]
    exact (by decide : 1 < 5)

theorem progress_dataPublished (hstatus : w.row.status = .dataPublished) :
    w.Progress keccak256 operator b (w.submitAcceptLeg none) := by
  obtain ⟨k, hat⟩ := hw.exists_settle_at h
  have hbefore := World.recoverable_iff h hat hstatus
  obtain ⟨hiff, hrank⟩ := hw.submitAcceptLeg_iff h hat
  refine ⟨hiff.trans hbefore.symm, fun hgood ↦ ?_⟩
  rw [hrank (hbefore.mp hgood), rank, hstatus]
  exact (by decide : 1 < 2)

theorem progress_acceptSubmitted (hstatus : w.row.status = .acceptSubmitted)
    (hreceipt : w.row.acceptTxHash.bind w.chain.receipt = some r) :
    w.Progress keccak256 operator b (w.advanceAfterAcceptReceipt keccak256 b) := by
  obtain ⟨j, hj⟩ := hw.stage
  obtain ⟨k, hat⟩ := hw.exists_settle_at h
  have hcomplete := hw.complete_of hstatus
  have hbefore := World.recoverable_iff h hat hstatus
  have hsettled : w.row.acceptTxHash.bind (w.chain.settle keccak256 operator b).receipt = some r :=
    ChainState.bind_receipt_settle hreceipt
  simp only [hsettled] at hbefore
  rw [advanceAfterAcceptReceipt, hreceipt]
  cases r with
  | false =>
    refine ⟨(World.recoverable_markFailed h hat).trans (Iff.trans ?_ hbefore.symm), fun _ ↦ ?_⟩
    · simp [hcomplete.2.1]
    · have hrank : w.rank keccak256 operator b = 4 := by
        rw [rank, hstatus]
        exact if_neg (by rw [hsettled]; decide)
      rw [hrank]
      exact (by decide : 3 < 4)
  | true =>
    -- the contract accepted the batch
    have hthree : j = 3 := by
      have hlt : 2 < j := hj.stage_lt hw.accept hreceipt
      have hle := hj.stage_le
      omega
    have haccepted : acceptReconciled keccak256 b w.chain.core := by
      rw [hj.core_eq, hthree]
      exact acceptReconciled_coreAt
    dsimp only
    rw [if_pos haccepted]
    refine ⟨⟨fun _ ↦ hbefore.mpr (.inl rfl), fun _ ↦ trivial⟩, fun _ ↦ ?_⟩
    rw [rank, rank, hstatus]
    simp [hsettled]

theorem progress_failed (hstatus : w.row.status = .failed) :
    w.Progress keccak256 operator b (w.reprepareFailedSubmission none) := by
  obtain ⟨k, hat⟩ := hw.exists_settle_at h
  have hcomplete := hw.complete_of hstatus
  have hbefore := World.recoverable_iff h hat hstatus
  cases hpublish : w.row.publishTxHash with
  | some tx =>
    have hresume : (w.reprepareFailedSubmission none).row.status = .dataPublished := by
      simp [World.reprepareFailedSubmission, resumeStatus, hcomplete.1, hpublish]
    have hafter := World.recoverable_iff (w := w.reprepareFailedSubmission none) h hat hresume
    refine ⟨hafter.trans (Iff.trans ?_ hbefore.symm), fun _ ↦ ?_⟩
    · simp [hpublish]
    · rw [rank, rank, hresume, hstatus]
      exact (by decide : 2 < 3)
  | none =>
    -- it looks again at a record transaction that reverted
    have hresume : (w.reprepareFailedSubmission none).row.status = .recordSubmitted := by
      simp [World.reprepareFailedSubmission, resumeStatus, hcomplete.1, hpublish]
    have hsettled : w.row.recordTxHash.bind (w.chain.settle keccak256 operator b).receipt = some false :=
      ChainState.bind_receipt_settle (hcomplete.2 hpublish)
    have hbad : ¬ w.Recoverable keccak256 operator b := by
      rw [hbefore]
      simp [hpublish]
    have hafter := World.recoverable_iff (w := w.reprepareFailedSubmission none) h hat hresume
    refine ⟨hafter.trans (Iff.trans ?_ hbefore.symm), fun hgood ↦ absurd hgood hbad⟩
    simp [World.reprepareFailedSubmission, hsettled, hpublish]

end World.Valid

/-! ## Schedules -/

namespace World

/-- The transaction that the submission waits for is not mined yet. -/
def Waits (w : World) : Prop :=
  match w.row.status with
  | .recordSubmitted => w.row.recordTxHash.bind w.chain.receipt = none
  | .publishSubmitted => w.row.publishTxHash.bind w.chain.receipt = none
  | .acceptSubmitted => w.row.acceptTxHash.bind w.chain.receipt = none
  | _ => False

/-- A poll that waits changes nothing. -/
theorem pollOnce_of_waits (hwaits : w.Waits) : w.pollOnce keccak256 b none = w := by
  rw [Waits] at hwaits
  rw [pollOnce]
  cases hstatus : w.row.status with
  | recordSubmitted =>
    rw [hstatus] at hwaits
    rw [advanceAfterRecordReceipt, hwaits]
  | publishSubmitted =>
    rw [hstatus] at hwaits
    rw [advanceAfterPublishReceipt, hwaits]
  | acceptSubmitted =>
    rw [hstatus] at hwaits
    rw [advanceAfterAcceptReceipt, hwaits]
  | accepted | blockedAuth => rfl
  | ready | dataPublished | failed =>
    rw [hstatus] at hwaits
    exact hwaits.elim

theorem recoverable_mine : Recoverable keccak256 operator b ⟨w.row, w.chain.mine keccak256 operator b⟩ ↔
    w.Recoverable keccak256 operator b := by
  rw [Recoverable, Recoverable]
  dsimp only
  rw [ChainState.settle_mine]

theorem rank_mine : rank keccak256 operator b ⟨w.row, w.chain.mine keccak256 operator b⟩ =
    w.rank keccak256 operator b := by
  rw [rank, rank]
  dsimp only
  rw [ChainState.settle_mine]

end World

namespace World.Valid

variable (hw : w.Valid keccak256 b core)
include hw

/-- What a submission waits for was sent. -/
theorem pending_of_waits (hwaits : w.Waits) : w.chain.pending ≠ 0 := by
  -- a hash that is stored names a transaction that was sent
  have key : ∀ {hash : Option ℕ} {leg : Leg}, w.chain.Knows hash leg → hash.isSome →
      hash.bind w.chain.receipt = none → w.chain.pending ≠ 0 := by
    intro hash leg hknows hsome hnone
    obtain ⟨tx, rfl⟩ := Option.isSome_iff_exists.mp hsome
    have hlt := (List.getElem?_eq_some_iff.mp (hknows tx rfl)).1
    have hle : w.chain.mined.length ≤ tx := List.getElem?_eq_none_iff.mp hnone
    rw [ChainState.pending]
    omega
  rw [Waits] at hwaits
  split at hwaits
  next hstatus => exact key hw.record (hw.complete_of hstatus) hwaits
  next hstatus => exact key hw.publish (hw.complete_of hstatus).2 hwaits
  next hstatus => exact key hw.accept (hw.complete_of hstatus).2.2 hwaits
  next => exact hwaits.elim

/-- **A poll that does not wait makes progress.** -/
theorem progress (h : NextBatch keccak256 operator b core) (hwaits : ¬ w.Waits)
    (haccepted : w.row.status ≠ .accepted) : w.Progress keccak256 operator b (w.pollOnce keccak256 b none) := by
  rw [Waits] at hwaits
  rw [World.pollOnce]
  cases hstatus : w.row.status with
  | ready => exact hw.progress_ready h hstatus
  | recordSubmitted =>
    rw [hstatus] at hwaits
    obtain ⟨r, hreceipt⟩ := Option.ne_none_iff_exists'.mp hwaits
    exact hw.progress_recordSubmitted h hstatus hreceipt
  | publishSubmitted =>
    rw [hstatus] at hwaits
    obtain ⟨r, hreceipt⟩ := Option.ne_none_iff_exists'.mp hwaits
    exact hw.progress_publishSubmitted h hstatus hreceipt
  | dataPublished => exact hw.progress_dataPublished h hstatus
  | acceptSubmitted =>
    rw [hstatus] at hwaits
    obtain ⟨r, hreceipt⟩ := Option.ne_none_iff_exists'.mp hwaits
    exact hw.progress_acceptSubmitted h hstatus hreceipt
  | failed => exact hw.progress_failed h hstatus
  | accepted => exact absurd hstatus haccepted
  | blockedAuth => exact (hw.complete_of hstatus).elim

/-- No turn changes the outlook. -/
theorem recoverable_turn (h : NextBatch keccak256 operator b core) (t : Turn) :
    (w.turn keccak256 operator b t).Recoverable keccak256 operator b ↔
      w.Recoverable keccak256 operator b := by
  cases t with
  | mine => exact recoverable_mine
  | poll =>
    by_cases haccepted : w.row.status = .accepted
    · rw [World.turn, World.pollOnce, haccepted]
    by_cases hwaits : w.Waits
    · rw [World.turn, pollOnce_of_waits hwaits]
    · exact (hw.progress h hwaits haccepted).recoverable_iff

end World.Valid

namespace World

/-- Any events, one after another. -/
def run (keccak256 : Bytes → Bytes32) (operator : Address) (b : Bundle) (w : World)
    (events : List WorldEvent) : World :=
  events.foldl (step keccak256 operator b) w

theorem Valid.run (h : NextBatch keccak256 operator b core) (hw : w.Valid keccak256 b core)
    (events : List WorldEvent) : (w.run keccak256 operator b events).Valid keccak256 b core := by
  induction events generalizing w with
  | nil => exact hw
  | cons event events ih => exact ih (hw.step h event)

/-- A submission that is not recoverable is never accepted. -/
theorem Valid.not_accepted (h : NextBatch keccak256 operator b core) (hw : w.Valid keccak256 b core)
    (hbad : ¬ w.Recoverable keccak256 operator b) (schedule : ℕ → Turn) (n : ℕ) :
    (trace (World.turn keccak256 operator b) w schedule n).row.status ≠ .accepted := by
  have hinv : (trace (World.turn keccak256 operator b) w schedule n).Valid keccak256 b core ∧
      ¬ (trace (World.turn keccak256 operator b) w schedule n).Recoverable keccak256 operator b :=
    trace_induction (P := fun w : World ↦ w.Valid keccak256 b core ∧ ¬ w.Recoverable keccak256 operator b)
      ⟨hw, hbad⟩
      (fun w t hw ↦ ⟨hw.1.turn h t, fun hgood ↦ hw.2 ((hw.1.recoverable_turn h t).mp hgood)⟩) n
  intro haccepted
  refine hinv.2 ?_
  rw [Recoverable, haccepted]
  trivial

/-- A submission that is recoverable is accepted under every fair schedule. -/
theorem Valid.eventually_accepted (h : NextBatch keccak256 operator b core) (hw : w.Valid keccak256 b core)
    (hgood : w.Recoverable keccak256 operator b) {schedule : ℕ → Turn} (hfair : Fair schedule) :
    ∃ n, (trace (World.turn keccak256 operator b) w schedule n).row.status = .accepted := by
  classical
  -- the rank first, and then what is left to mine
  let μ : World → ℕ ×ₗ ℕ := fun w ↦ toLex (w.rank keccak256 operator b, w.chain.pending)
  have hpoll : ∀ w : World, w.Valid keccak256 b core → w.Recoverable keccak256 operator b →
      w.row.status ≠ .accepted → ¬ w.Waits → μ (w.turn keccak256 operator b .poll) < μ w := by
    intro w hw hgood haccepted hwaits
    exact Prod.Lex.toLex_lt_toLex.mpr (.inl ((hw.progress h hwaits haccepted).rank_lt hgood))
  have hmine : ∀ w : World, w.chain.pending ≠ 0 → μ (w.turn keccak256 operator b .mine) < μ w := by
    intro w hpending
    refine Prod.Lex.toLex_lt_toLex.mpr (.inr ⟨rank_mine, ?_⟩)
    change (w.chain.mine keccak256 operator b).pending < w.chain.pending
    rw [ChainState.pending_mine]
    omega
  refine hfair.eventually (P := fun w : World ↦ w.Valid keccak256 b core ∧ w.Recoverable keccak256 operator b)
    μ (fun w ↦ w.row.status = .accepted) (fun w ↦ if w.Waits then .mine else .poll) ⟨hw, hgood⟩
    (fun w t hw ↦ ⟨hw.1.turn h t, (hw.1.recoverable_turn h t).mpr hw.2⟩) ?_ ?_
  · rintro w ⟨hw, hgood⟩ haccepted
    by_cases hwaits : w.Waits
    · rw [if_pos hwaits]
      exact hmine w (hw.pending_of_waits hwaits)
    · rw [if_neg hwaits]
      exact hpoll w hw hgood haccepted hwaits
  · rintro w t ⟨hw, hgood⟩ haccepted
    cases t with
    | poll =>
      by_cases hwaits : w.Waits
      · exact .inr (pollOnce_of_waits hwaits)
      · exact .inl (hpoll w hw hgood haccepted hwaits)
    | mine =>
      by_cases hpending : w.chain.pending = 0
      · refine .inr ?_
        rw [World.turn, ChainState.mine_of_not_pending (ChainState.getElem?_mined_eq_none hpending)]
      · exact .inl (hmine w hpending)

end World

/-- **When a submission is accepted.** After any polls, stops, blocks and reverted transactions, a schedule of
polls and blocks that is fair brings the submission to acceptance exactly if it is recoverable. -/
theorem accepted_iff (h : NextBatch keccak256 operator b core) (events : List WorldEvent)
    (schedule : ℕ → Turn) (hfair : Fair schedule) :
    (∃ n, (trace (World.turn keccak256 operator b)
        ((World.start core).run keccak256 operator b events) schedule n).row.status = .accepted) ↔
      ((World.start core).run keccak256 operator b events).Recoverable keccak256 operator b := by
  have hstart : (World.start core).Valid keccak256 b core := .start
  have hw := hstart.run h events
  constructor
  · rintro ⟨n, hn⟩
    by_contra hbad
    exact hw.not_accepted h hbad schedule n hn
  · intro hgood
    exact hw.eventually_accepted h hgood hfair

/-! A batch whose record transaction is not known to the submission, or reverts once. -/

def constHash : Bytes → Bytes32 := fun _ ↦ ⟨List.replicate 32 1, List.length_replicate⟩

def firstInputs : VerifierPublicInputs :=
  { VerifierPublicInputs.zero with
    batchId := 1
    batchDataHash := constHash []
    nextStateRoot := constHash [] }

def firstBundle : Bundle where
  inputs := firstInputs
  metadata := RollupCore.metadataOf firstInputs
  dataHash := constHash []
  metadataSubset := ⟨RollupCore.metadataOf firstInputs, 1⟩
  authStatuses := [.joined]
  verifierProof := []

def freshCore : RollupCore := { RollupCore.new zeroAddress zeroBytes32 with verifier := some fun _ _ ↦ true }

private theorem nextBatch_first : NextBatch constHash zeroAddress firstBundle freshCore where
  sender := rfl
  running := rfl
  verifies := ⟨_, rfl, rfl⟩
  next := rfl
  nextAccepted := rfl
  prevStateRoot := rfl
  prevAcceptedStateRoot := rfl
  nextStateRoot := by decide
  batchDataHash := by decide
  metadata := rfl
  dataHash := rfl
  metadataSubset := rfl
  joined := rfl
  notRecorded := rfl
  notPublished := rfl

/-- A poll that stops between sending the record transaction and storing its hash is enough for a submission
that is never accepted, and so is one record transaction that reverts. -/
theorem record_repeated : NextBatch constHash zeroAddress firstBundle freshCore ∧
      ∀ events ∈ [[.stop .beforeMark, .turn .mine], [.turn .poll, .revert]], ∀ (schedule : ℕ → Turn) (n : ℕ),
          (trace (World.turn constHash zeroAddress firstBundle)
            ((World.start freshCore).run constHash zeroAddress firstBundle events)
            schedule n).row.status ≠ .accepted := by
  refine ⟨nextBatch_first, fun events hevents schedule n ↦ ?_⟩
  have hstart : (World.start freshCore).Valid constHash firstBundle freshCore := .start
  refine (hstart.run nextBatch_first events).not_accepted nextBatch_first ?_ schedule n
  rcases List.mem_pair.mp hevents with rfl | rfl
  · rintro (hrecorded | ⟨hpublish, -⟩)
    · exact hrecorded rfl
    · exact Bool.false_ne_true hpublish
  · rintro (⟨hreceipt, -⟩ | ⟨hpublish, -⟩)
    · cases hreceipt
    · exact Bool.false_ne_true hpublish

private def alternate (n : ℕ) : Turn := if n % 2 = 0 then .poll else .mine

private theorem fair_alternate : Fair alternate := by
  intro t n
  cases t with
  | poll => exact ⟨2 * n, by omega, if_pos (by omega)⟩
  | mine => exact ⟨2 * n + 1, by omega, if_neg (by omega)⟩

theorem accepted_of_fresh : ∃ n, (trace (World.turn constHash zeroAddress firstBundle)
      ((World.start freshCore).run constHash zeroAddress firstBundle []) alternate n).row.status = .accepted :=
  (accepted_iff nextBatch_first [] alternate fair_alternate).mpr
    (.inl (by decide : (0 : ℕ) ≠ 1))

end FunnyOption.Chain
