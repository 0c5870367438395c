import FunnyOption.Chain.Liveness

/-!
# What an accepted submission says

The submissions of all batches, and the transactions that the operator sends for them. A submission becomes accepted in
one place only: its accept transaction has a receipt, and the contract, as it was at the block of the receipt, has the
batch with all that the submission expects. The stored hash may be that of an earlier attempt. That does not matter,
since it is the batch that is compared, and since an accepted batch is never written again: acceptance takes the
next batch id each time.

## The model

A poll may look at any submission, not only at the first one that is not accepted, and may read the contract as it was
at any time. There are no reorganisations, and only the operator records, publishes and accepts.

## Main result

* `Fleet.accepted_truthful`: an accepted submission is an accepted batch of the contract, with the same inputs.
-/

open Foundation

namespace FunnyOption.Chain

open Rollup

/-- All submissions and the chain. -/
structure Fleet where
  rows : List (Bundle × StoredSubmission)
  core : RollupCore
  /-- The contract as it was before, latest first. -/
  past : List RollupCore
  sent : List (Bundle × Leg)
  mined : List Bool

/-- What can happen. -/
inductive FleetEvent where
  /-- `PrepareNextSubmission`. -/
  | prepare (b : Bundle) (blocked : Bool)
  /-- `PollOnce` at a submission, with the contract as it was some transactions ago. -/
  | poll (i ago : ℕ) (fault : Option Fault)
  | mine
  | revert
  /-- A transaction that does not belong to a batch. -/
  | configure (operator vault : Address) (verifier : Option BatchVerifier) (frozen : Bool)

namespace Fleet

variable (keccak256 : Bytes → Bytes32) (operator : Address)

/-- The next transaction is mined. -/
def mine (s : Fleet) : Fleet :=
  match s.sent[s.mined.length]? with
  | none => s
  | some (b, leg) =>
    match execute keccak256 operator b s.core leg with
    | .ok core => { s with core := core, past := s.core :: s.past, mined := s.mined ++ [true] }
    | .error _ => { s with mined := s.mined ++ [false] }

/-- A poll, by what it does to one submission. -/
def poll (s : Fleet) (i ago : ℕ) (fault : Option Fault) : Fleet :=
  match s.rows[i]?, (s.core :: s.past)[ago]? with
  | some (b, row), some core =>
    let w := World.pollOnce keccak256 b fault ⟨row, ⟨core, s.sent.map Prod.snd, s.mined⟩⟩
    { s with
      rows := s.rows.set i (b, w.row)
      sent := s.sent ++ (w.chain.sent.drop s.sent.length).map (b, ·) }
  | _, _ => s

/-- One event. -/
def step (s : Fleet) : FleetEvent → Fleet
  | .prepare b blocked =>
    { s with rows := s.rows ++ [(b, ⟨if blocked then .blockedAuth else .ready, none, none, none⟩)] }
  | .poll i ago fault => s.poll keccak256 i ago fault
  | .mine => s.mine keccak256 operator
  | .revert => if s.mined.length < s.sent.length then { s with mined := s.mined ++ [false] } else s
  | .configure operator vault verifier frozen =>
    { s with core := { s.core with operator, vault, verifier, frozen }, past := s.core :: s.past }

/-- Any events, with nothing submitted before. -/
def run (core : RollupCore) (events : List FleetEvent) : Fleet :=
  events.foldl (step keccak256 operator) ⟨[], core, [], [], []⟩

end Fleet

/-! ## Accepted batches -/

variable {keccak256 : Bytes → Bytes32} {operator : Address} {b : Bundle} {core core' : RollupCore} {s : Fleet}

/-- The contract has accepted a batch as it is expected. -/
def Accepted (keccak256 : Bytes → Bytes32) (b : Bundle) (core : RollupCore) : Prop :=
  b.inputs.batchId ≤ core.latestAcceptedBatchId ∧ core.acceptedBatches b.inputs.batchId = expectedBatch keccak256 b

theorem Accepted.of_reconciled (h : acceptReconciled keccak256 b core) : Accepted keccak256 b core := ⟨h.1.ge, h.2.2⟩

/-- What acceptance writes, if it succeeds, is the next batch. -/
theorem acceptVerifiedBatch_ok {inputs : VerifierPublicInputs} {metadataSubset : L1BatchMetadata}
    {authStatuses : List AuthJoinStatus} {verifierProof : Bytes}
    (h : core.acceptVerifiedBatch keccak256 operator inputs metadataSubset authStatuses verifierProof = .ok core') :
    inputs.batchId = core.latestAcceptedBatchId + 1 ∧ ∃ context, core' = core.accept inputs context := by
  rw [RollupCore.acceptVerifiedBatch] at h
  iterate 3
    split at h
    · cases h
  split at h
  · cases h
  rename_i hid
  iterate 7
    split at h
    · cases h
  dsimp only at h
  split at h
  · cases h
  exact ⟨not_not.mp (not_or.mp hid).2, _, (Except.ok.inj h).symm⟩

/-- **An accepted batch stays as it is.** -/
theorem Accepted.execute (h : Accepted keccak256 b core) {b' : Bundle} {leg : Leg}
    (hok : execute keccak256 operator b' core leg = .ok core') : Accepted keccak256 b core' := by
  cases leg with
  | record =>
    rw [Chain.execute, RollupCore.recordBatchMetadata] at hok
    split_ifs at hok
    obtain rfl := Except.ok.inj hok
    exact h
  | publish =>
    rw [Chain.execute, RollupCore.publishBatchDataByOperator] at hok
    split_ifs at hok
    obtain rfl := Except.ok.inj hok
    exact h
  | accept =>
    obtain ⟨hnext, context, rfl⟩ := acceptVerifiedBatch_ok hok
    have hle := h.1
    constructor
    · change b.inputs.batchId ≤ b'.inputs.batchId
      omega
    · rw [RollupCore.accept]
      dsimp only
      rw [Function.update_of_ne (by omega), h.2]

/-! ## Runs -/

/-- A poll makes a submission accepted only if the contract has the batch. -/
theorem World.accepted_of_pollOnce {w : World} {fault : Option Fault}
    (h : (w.pollOnce keccak256 b fault).row.status = .accepted) :
    w.row.status = .accepted ∨ acceptReconciled keccak256 b w.chain.core := by
  have hsubmit : ∀ {leg mark} {w' : World}, (∀ tx, (mark tx).status ≠ .accepted) →
      (w'.submit fault leg mark).row.status = .accepted → w'.row.status = .accepted := by
    intro leg mark w' hmark h
    rcases fault with _ | _ | _
    · exact absurd h (hmark _)
    · exact h
    · exact h
  simp only [pollOnce, submitRecordLeg, advanceAfterRecordReceipt, submitPublishDataLeg, advanceAfterPublishReceipt,
    submitAcceptLeg, advanceAfterAcceptReceipt, markFailed] at h
  split at h
  · exact .inl (hsubmit (by simp) h)
  · grind
  · grind
  · exact .inl (hsubmit (by simp) h)
  · grind
  · rcases fault with _ | _ | _ <;> grind [reprepareFailedSubmission, resumeStatus]
  · exact .inl h
  · exact .inl h

namespace Fleet

/-- What holds in every run. -/
structure Truthful (keccak256 : Bytes → Bytes32) (s : Fleet) : Prop where
  rows : ∀ row ∈ s.rows, row.2.status = .accepted → Accepted keccak256 row.1 s.core
  past : ∀ core ∈ s.past, ∀ b, Accepted keccak256 b core → Accepted keccak256 b s.core

theorem Truthful.step (h : s.Truthful keccak256) (e : FleetEvent) :
    (s.step keccak256 operator e).Truthful keccak256 := by
  cases e with
  | prepare b blocked =>
    refine { h with rows := List.forall_mem_append.mpr ⟨h.rows, List.forall_mem_singleton.mpr fun hstatus ↦ ?_⟩ }
    cases blocked <;> cases hstatus
  | poll i ago fault =>
    rw [Fleet.step, poll]
    split
    · next b row core hrow hcore =>
      refine { h with rows := fun r hr hstatus ↦ ?_ }
      rcases List.mem_or_eq_of_mem_set hr with hr | rfl
      · exact h.rows r hr hstatus
      · rcases World.accepted_of_pollOnce hstatus with hbefore | hreconciled
        · exact h.rows (b, row) (List.mem_of_getElem? hrow) hbefore
        · rcases List.mem_cons.mp (List.mem_of_getElem? hcore) with rfl | hpast
          · exact .of_reconciled hreconciled
          · exact h.past core hpast b (.of_reconciled hreconciled)
    · exact h
  | mine =>
    rw [Fleet.step, mine]
    split
    · exact h
    · split
      · next hok =>
        refine ⟨fun row hrow hstatus ↦ (h.rows row hrow hstatus).execute hok, List.forall_mem_cons.mpr ⟨?_, ?_⟩⟩
        · exact fun b hb ↦ hb.execute hok
        · exact fun core hcore b hb ↦ (h.past core hcore b hb).execute hok
      · exact { h with }
  | revert =>
    rw [Fleet.step]
    split_ifs
    · exact { h with }
    · exact h
  | configure => exact ⟨h.rows, List.forall_mem_cons.mpr ⟨fun _ ↦ id, h.past⟩⟩

theorem Truthful.foldl (h : s.Truthful keccak256) (events : List FleetEvent) :
    (events.foldl (Fleet.step keccak256 operator) s).Truthful keccak256 := by
  induction events generalizing s with
  | nil => exact h
  | cons e events ih => exact ih (h.step e)

/-- **ACCEPTED is true.** After any events, a submission with this status is a batch that the contract has accepted, with
the inputs of the submission: its data hash and its two state roots among them. -/
theorem accepted_truthful (core : RollupCore) (events : List FleetEvent) {row : Bundle × StoredSubmission}
    (hrow : row ∈ (run keccak256 operator core events).rows) (hstatus : row.2.status = .accepted) :
    row.1.inputs.batchId ≤ (run keccak256 operator core events).core.latestAcceptedBatchId ∧
      ((run keccak256 operator core events).core.acceptedBatches row.1.inputs.batchId).inputs = row.1.inputs := by
  obtain ⟨hle, heq⟩ := (Truthful.foldl ⟨by simp, by simp⟩ events).rows row hrow hstatus
  exact ⟨hle, congrArg AcceptedBatch.inputs heq⟩

/-- A batch that is recorded, published and accepted. -/
theorem accepted_truthful_first :
    ∃ row ∈ (run constHash zeroAddress freshCore ([.prepare firstBundle false] ++ (List.replicate 4
      [.poll 0 0 none, .mine]).flatten)).rows, row.2.status = .accepted ∧ ((run constHash zeroAddress freshCore
        ([.prepare firstBundle false] ++ (List.replicate 4 [.poll 0 0 none, .mine]).flatten)).core.acceptedBatches
          row.1.inputs.batchId).inputs = row.1.inputs := by
  obtain ⟨row, hrow, hstatus⟩ : ∃ row ∈ (run constHash zeroAddress freshCore ([.prepare firstBundle false] ++
      (List.replicate 4 [.poll 0 0 none, .mine]).flatten)).rows, row.2.status = .accepted := by decide
  exact ⟨row, hrow, hstatus, (accepted_truthful freshCore _ hrow hstatus).2⟩

end Fleet

end FunnyOption.Chain
