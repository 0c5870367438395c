import FunnyOption.Contracts.Reentrancy

/-!
# The chain of accepted batches

The contract keeps two chains of batches, those whose metadata are recorded and those that are accepted. The
accepted chain follows the recorded one: its batches are numbered from one without gaps, each starts from the
state root that the one before it leads to, and each is recorded and published as it was accepted.

The checks of an acceptance see to it that the batch is the next one, and its writes rely on that. In between
the verifier runs. If another batch is accepted meanwhile, the writes bring back an older number: they replace
the record of a batch that is accepted, and leave the accepted batches after it above the latest one.

## Main results

* `accepted_chain_continuous`: as long as no batch is accepted between the checks and the writes of another
  acceptance, every state that a run reaches has a continuous chain, and records of accepted batches stay.
* `chain_rewound_by_verifier`: a verifier that calls back breaks the chain.
-/

open Foundation

namespace FunnyOption.Contracts

open Rollup

/-! ## ContinuousChain chains -/

/-- The state root that the first batches of the accepted chain lead to. -/
def rootAfter (genesisStateRoot : Bytes32) (core : FunnyRollupCore) : ℕ → Bytes32
  | 0 => genesisStateRoot
  | batchId + 1 => (core.acceptedBatches (batchId + 1)).inputs.nextStateRoot

/-- The contract takes a batch for accepted, as `claimAcceptedWithdrawal` and `recordEscapeCollateralRoot`
see it. -/
def IsAccepted (core : FunnyRollupCore) (batchId : ℕ) : Prop :=
  (core.acceptedBatches batchId).inputs.nextStateRoot ≠ zeroBytes32

instance (core : FunnyRollupCore) (batchId : ℕ) : Decidable (IsAccepted core batchId) :=
  inferInstanceAs (Decidable (¬ _))

/-- The accepted chain has no gaps and follows the recorded one. -/
structure ContinuousChain (genesisStateRoot : Bytes32) (core : FunnyRollupCore) : Prop where
  latest_le : core.latestAcceptedBatchId ≤ core.latestBatchId
  accepted_iff : ∀ batchId, IsAccepted core batchId ↔ 1 ≤ batchId ∧ batchId ≤ core.latestAcceptedBatchId
  linked : ∀ batchId, IsAccepted core (batchId + 1) →
    (core.acceptedBatches (batchId + 1)).inputs.prevStateRoot = rootAfter genesisStateRoot core batchId
  latestRoot : core.latestAcceptedStateRoot = rootAfter genesisStateRoot core core.latestAcceptedBatchId
  recorded : ∀ batchId, IsAccepted core batchId →
    core.batchMetadata batchId = RollupCore.metadataOf (core.acceptedBatches batchId).inputs
  published : ∀ batchId, IsAccepted core batchId → core.batchDataPublished batchId = true

variable {keccak256 : Bytes → Bytes32} {genesis : Bytes32} {core core' : FunnyRollupCore} {now : ℕ}
  {call : CoreCall}

/-- What a call that is not an acceptance keeps: the accepted chain, and what is recorded and published. -/
structure Keeps (core core' : FunnyRollupCore) : Prop where
  accepted : core'.acceptedBatches = core.acceptedBatches
  latest : core'.latestAcceptedBatchId = core.latestAcceptedBatchId
  root : core'.latestAcceptedStateRoot = core.latestAcceptedStateRoot
  le : core.latestBatchId ≤ core'.latestBatchId
  metadata : ∀ batchId ≤ core.latestBatchId, core'.batchMetadata batchId = core.batchMetadata batchId
  published : ∀ batchId, core.batchDataPublished batchId = true → core'.batchDataPublished batchId = true

theorem keeps_of_change (h : Change now core call core') : Keeps core core' := by
  cases h with
  | record metadata unfrozen =>
    refine ⟨rfl, rfl, rfl, Nat.le_succ _, fun batchId hle ↦ ?_, fun _ h ↦ h⟩
    exact Function.update_of_ne (by omega) _ _
  | publish batchId unfrozen =>
    refine ⟨rfl, rfl, rfl, le_rfl, fun _ _ ↦ rfl, fun batchId h ↦ ?_⟩
    dsimp only
    rw [Function.update_apply]
    split_ifs
    · rfl
    · exact h
  | _ => exact ⟨rfl, rfl, rfl, le_rfl, fun _ _ ↦ rfl, fun _ h ↦ h⟩

theorem ContinuousChain.of_keeps (h : ContinuousChain genesis core) (hkeeps : Keeps core core') :
    ContinuousChain genesis core' := by
  have hsame (batchId : ℕ) : IsAccepted core' batchId ↔ IsAccepted core batchId := by
    rw [IsAccepted, IsAccepted, hkeeps.accepted]
  have hafter (batchId : ℕ) : rootAfter genesis core' batchId = rootAfter genesis core batchId := by
    cases batchId with
    | zero => rfl
    | succ batchId => rw [rootAfter, rootAfter, hkeeps.accepted]
  refine ⟨?_, fun batchId ↦ ?_, fun batchId haccepted ↦ ?_, ?_, fun batchId haccepted ↦ ?_,
    fun batchId haccepted ↦ ?_⟩
  · rw [hkeeps.latest]
    exact h.latest_le.trans hkeeps.le
  · rw [hsame, hkeeps.latest, h.accepted_iff]
  · rw [hkeeps.accepted, hafter]
    exact h.linked batchId ((hsame _).mp haccepted)
  · rw [hkeeps.root, hkeeps.latest, hafter, h.latestRoot]
  · rw [hsame] at haccepted
    rw [hkeeps.accepted, hkeeps.metadata batchId (((h.accepted_iff batchId).mp haccepted).2.trans h.latest_le)]
    exact h.recorded batchId haccepted
  · rw [hsame] at haccepted
    exact hkeeps.published batchId (h.published batchId haccepted)

theorem continuous_new (operator : Address) : ContinuousChain genesis (.new operator genesis) := by
  have hnone (batchId : ℕ) : ¬ IsAccepted (.new operator genesis) batchId := fun h ↦ h rfl
  refine ⟨le_rfl, fun batchId ↦ ?_, fun batchId h ↦ absurd h (hnone _), rfl,
    fun batchId h ↦ absurd h (hnone _), fun batchId h ↦ absurd h (hnone _)⟩
  have hlatest : (FunnyRollupCore.new operator genesis).latestAcceptedBatchId = 0 := rfl
  rw [hlatest]
  exact iff_of_false (hnone _) (by omega)

/-! ## Acceptances -/

/-- What is true of an acceptance that waits for its verifier: its batch is recorded and published, it is no
later than the next one, and if it is the next one it starts from the latest root. -/
structure Awaits (core : FunnyRollupCore) (p : Pending) : Prop where
  nonzero : p.inputs.nextStateRoot ≠ zeroBytes32
  le_succ : p.inputs.batchId ≤ core.latestAcceptedBatchId + 1
  prev : p.inputs.batchId = core.latestAcceptedBatchId + 1 → p.inputs.prevStateRoot = core.latestAcceptedStateRoot
  le : p.inputs.batchId ≤ core.latestBatchId
  recorded : core.batchMetadata p.inputs.batchId = RollupCore.metadataOf p.inputs
  published : core.batchDataPublished p.inputs.batchId = true

variable {p q : Pending}

theorem Passed.awaits {inputs : VerifierPublicInputs} (h : Passed core.toRollupCore inputs)
    (context : VerifierContext) : Awaits core ⟨inputs, context⟩ :=
  ⟨h.nonzero, h.next.le, fun _ ↦ h.prev, h.le, h.recorded, h.published⟩

theorem Awaits.of_keeps (h : Awaits core p) (hkeeps : Keeps core core') : Awaits core' p := by
  refine ⟨h.nonzero, ?_, fun hnext ↦ ?_, h.le.trans hkeeps.le, ?_, hkeeps.published _ h.published⟩
  · rw [hkeeps.latest]
    exact h.le_succ
  · rw [hkeeps.latest] at hnext
    rw [hkeeps.root]
    exact h.prev hnext
  · rw [hkeeps.metadata _ h.le]
    exact h.recorded

/-- The storage after the writes of an acceptance. -/
def FunnyRollupCore.accepting (core : FunnyRollupCore) (p : Pending) : FunnyRollupCore :=
  { core with toRollupCore := core.toRollupCore.accept p.inputs p.context }

theorem acceptedBatches_accepting_self :
    ((core.accepting p).acceptedBatches p.inputs.batchId).inputs = p.inputs := by
  have hself := Function.update_self p.inputs.batchId
    ⟨p.inputs, p.context.authProofHash, p.context.verifierGateHash⟩ core.acceptedBatches
  exact congrArg AcceptedBatch.inputs hself

theorem acceptedBatches_accepting_of_ne {batchId : ℕ} (h : batchId ≠ p.inputs.batchId) :
    (core.accepting p).acceptedBatches batchId = core.acceptedBatches batchId :=
  Function.update_of_ne h ..

/-- Another acceptance that waits is no longer the next one. -/
theorem Awaits.accepting (h : Awaits core q) (hnext : p.inputs.batchId = core.latestAcceptedBatchId + 1) :
    Awaits (core.accepting p) q := by
  have hlatest : (core.accepting p).latestAcceptedBatchId = core.latestAcceptedBatchId + 1 := hnext
  have hle := h.le_succ
  refine ⟨h.nonzero, by omega, fun hq ↦ ?_, h.le, h.recorded, h.published⟩
  omega

/-- The writes of an acceptance extend the chain, if its batch is still the next one. -/
theorem ContinuousChain.accepting (h : ContinuousChain genesis core) (hp : Awaits core p)
    (hnext : p.inputs.batchId = core.latestAcceptedBatchId + 1) : ContinuousChain genesis (core.accepting p) := by
  have hlatest : (core.accepting p).latestAcceptedBatchId = core.latestAcceptedBatchId + 1 := hnext
  have hnew : IsAccepted (core.accepting p) p.inputs.batchId := by
    rw [IsAccepted, acceptedBatches_accepting_self]
    exact hp.nonzero
  have hold {batchId : ℕ} (hne : batchId ≠ p.inputs.batchId) :
      IsAccepted (core.accepting p) batchId ↔ IsAccepted core batchId := by
    rw [IsAccepted, IsAccepted, acceptedBatches_accepting_of_ne hne]
  have hafter {batchId : ℕ} (hle : batchId ≤ core.latestAcceptedBatchId) :
      rootAfter genesis (core.accepting p) batchId = rootAfter genesis core batchId := by
    cases batchId with
    | zero => rfl
    | succ batchId => rw [rootAfter, rootAfter, acceptedBatches_accepting_of_ne (by omega)]
  refine ⟨?_, fun batchId ↦ ?_, fun batchId haccepted ↦ ?_, ?_, fun batchId haccepted ↦ ?_,
    fun batchId haccepted ↦ ?_⟩
  · rw [hlatest, ← hnext]
    exact hp.le
  · rw [hlatest]
    by_cases hid : batchId = p.inputs.batchId
    · rw [hid]
      exact iff_of_true hnew (by omega)
    · rw [hold hid, h.accepted_iff]
      omega
  · by_cases hid : batchId + 1 = p.inputs.batchId
    · obtain rfl : batchId = core.latestAcceptedBatchId := by omega
      rw [hid, acceptedBatches_accepting_self, hp.prev hnext, hafter le_rfl, h.latestRoot]
    · rw [hold hid] at haccepted
      have hle := ((h.accepted_iff _).mp haccepted).2
      rw [acceptedBatches_accepting_of_ne hid, hafter (by omega)]
      exact h.linked batchId haccepted
  · rw [hlatest, rootAfter, ← hnext, acceptedBatches_accepting_self]
    rfl
  · by_cases hid : batchId = p.inputs.batchId
    · rw [hid, acceptedBatches_accepting_self]
      exact hp.recorded
    · rw [hold hid] at haccepted
      rw [acceptedBatches_accepting_of_ne hid]
      exact h.recorded batchId haccepted
  · by_cases hid : batchId = p.inputs.batchId
    · rw [hid]
      exact hp.published
    · rw [hold hid] at haccepted
      exact h.published batchId haccepted

/-! ## Runs -/

/-- The batch whose acceptance is about to be written is still the next one: no batch was accepted since its
checks. -/
def Undisturbed (w : Execution) : Event → Prop
  | .accept => ∀ p ∈ w.pending.head?, p.inputs.batchId = w.core.latestAcceptedBatchId + 1
  | _ => True

instance (w : Execution) (e : Event) : Decidable (Undisturbed w e) :=
  match e with
  | .accept => inferInstanceAs (Decidable (∀ p ∈ w.pending.head?, _))
  | .call .. => .isTrue trivial
  | .check .. => .isTrue trivial

/-- A continuous chain, and acceptances under way that fit it. -/
def Sound (genesisStateRoot : Bytes32) (w : Execution) : Prop :=
  ContinuousChain genesisStateRoot w.core ∧ ∀ p ∈ w.pending, Awaits w.core p

variable {w w' : Execution} {e : Event}

theorem Sound.step (h : Sound genesis w) (hnext : Undisturbed w e) (hstep : w.step keccak256 e = some w') :
    Sound genesis w' := by
  obtain ⟨hchain, hpending⟩ := h
  cases Execution.step_cases hstep with
  | call sender now answers call core' change =>
    have hkeeps := keeps_of_change change
    exact ⟨hchain.of_keeps hkeeps, fun p hp ↦ (hpending p hp).of_keeps hkeeps⟩
  | check sender inputs metadataSubset authStatuses context passed =>
    refine ⟨hchain, fun p hp ↦ ?_⟩
    rcases List.mem_cons.mp hp with rfl | hp
    · exact passed.awaits context
    · exact hpending p hp
  | accept p pending innermost =>
    have hp : p.inputs.batchId = w.core.latestAcceptedBatchId + 1 := hnext p (by rw [innermost]; rfl)
    rw [innermost] at hpending
    exact ⟨hchain.accepting (hpending p List.mem_cons_self) hp,
      fun q hq ↦ (hpending q (List.mem_cons_of_mem p hq)).accepting hp⟩

theorem acceptedBatches_step (h : Sound genesis w) (hnext : Undisturbed w e) (hstep : w.step keccak256 e = some w')
    {batchId : ℕ} (haccepted : IsAccepted w.core batchId) :
    w'.core.acceptedBatches batchId = w.core.acceptedBatches batchId := by
  cases Execution.step_cases hstep with
  | call sender now answers call core' change => rw [(keeps_of_change change).accepted]
  | check => rfl
  | accept p pending innermost =>
    have hp : p.inputs.batchId = w.core.latestAcceptedBatchId + 1 := hnext p (by rw [innermost]; rfl)
    have hle := ((h.1.accepted_iff batchId).mp haccepted).2
    exact acceptedBatches_accepting_of_ne (by omega)

/-- **The accepted chain is continuous.** Callers, verifiers and the nesting of their calls are arbitrary, but
for this: whenever an acceptance is written, no batch was accepted since its checks. Then in every state that
a run reaches the chain is continuous, and no step changes the record of an accepted batch. -/
theorem accepted_chain_continuous (keccak256 : Bytes → Bytes32) (operator : Address) (genesisStateRoot : Bytes32)
    (events : List Event)
    (hnext : ∀ w e w', Takes (Execution.step keccak256) (.start operator genesisStateRoot) events w e w' →
      Undisturbed w e) :
    (∀ w, Visits (Execution.step keccak256) (.start operator genesisStateRoot) events w →
      ContinuousChain genesisStateRoot w.core) ∧
    ∀ w e w', Takes (Execution.step keccak256) (.start operator genesisStateRoot) events w e w' →
      ∀ batchId, IsAccepted w.core batchId →
        w'.core.acceptedBatches batchId = w.core.acceptedBatches batchId := by
  have hsound : ∀ w, Visits (Execution.step keccak256) (.start operator genesisStateRoot) events w →
      Sound genesisStateRoot w := by
    apply visits_induction
    · exact ⟨continuous_new operator, fun p hp ↦ absurd hp List.not_mem_nil⟩
    · intro w e w' htakes h
      exact h.step (hnext w e w' htakes) htakes.step_eq
  exact ⟨fun w hvisits ↦ (hsound w hvisits).1, fun w e w' htakes batchId haccepted ↦
    acceptedBatches_step (hsound w htakes.visits) (hnext w e w' htakes) htakes.step_eq haccepted⟩

/-! ## A verifier that calls back -/

/-- A batch from one state root to another. -/
def sampleInputs (batchId : ℕ) (prevStateRoot nextStateRoot withdrawalsRoot : Bytes32) : VerifierPublicInputs :=
  { VerifierPublicInputs.zero with
    batchId := batchId
    batchDataHash := constBytes32 9
    prevStateRoot := prevStateRoot
    nextStateRoot := nextStateRoot
    withdrawalsRoot := withdrawalsRoot }

/-- The operator records a batch and publishes its data. -/
def recordAndPublish (operator : Address) (inputs : VerifierPublicInputs) : List Event :=
  [.call operator 0 .transferring (.recordBatchMetadata inputs.batchId (RollupCore.metadataOf inputs)),
    .call operator 0 .transferring (.publishBatchDataByOperator inputs.batchId inputs.batchDataHash)]

/-- The operator starts the acceptance of a batch. -/
def checkBatch (operator : Address) (inputs : VerifierPublicInputs) : Event :=
  .check operator inputs ⟨RollupCore.metadataOf inputs, inputs.batchId⟩ []

/-- The operator sets a verifier, and two batches are recorded and published. -/
def twoPublished (operator : Address) : List Event :=
  .call operator 0 .transferring (.setVerifier (some fun _ _ ↦ true)) ::
    (recordAndPublish operator (sampleInputs 1 (constBytes32 1) (constBytes32 2) zeroBytes32) ++
      recordAndPublish operator (sampleInputs 2 (constBytes32 2) (constBytes32 3) zeroBytes32))

/-- Two batches are accepted one after the other. -/
def twoAccepted (operator : Address) : List Event := twoPublished operator ++
    [checkBatch operator (sampleInputs 1 (constBytes32 1) (constBytes32 2) zeroBytes32), .accept,
      checkBatch operator (sampleInputs 2 (constBytes32 2) (constBytes32 3) zeroBytes32), .accept]

theorem accepted_chain_continuous_twoAccepted :
    Along (Execution.step fun _ ↦ constBytes32 7) Undisturbed (.start (constAddress 3) (constBytes32 1))
      (twoAccepted (constAddress 3)) ∧
    ∃ w, Visits (Execution.step fun _ ↦ constBytes32 7) (.start (constAddress 3) (constBytes32 1))
        (twoAccepted (constAddress 3)) w ∧
      w.core.latestAcceptedBatchId = 2 ∧ ContinuousChain (constBytes32 1) w.core := by
  have halong : Along (Execution.step fun _ ↦ constBytes32 7) Undisturbed
      (.start (constAddress 3) (constBytes32 1)) (twoAccepted (constAddress 3)) := by decide
  obtain ⟨hchain, -⟩ := accepted_chain_continuous (fun _ ↦ constBytes32 7) (constAddress 3) (constBytes32 1)
    (twoAccepted (constAddress 3)) fun w e w' htakes ↦ halong.of_takes htakes
  have hvisits : Visits (Execution.step fun _ ↦ constBytes32 7) (.start (constAddress 3) (constBytes32 1))
      (twoAccepted (constAddress 3)) _ := visits_of_exec rfl
  exact ⟨halong, _, hvisits, rfl, hchain _ hvisits⟩

/-- The operator is a contract that the verifier reaches. While the first batch is verified, the operator has
the same batch accepted, with other withdrawals, and the batch after it. -/
def calledBack (operator : Address) : List Event := twoPublished operator ++
    [checkBatch operator (sampleInputs 1 (constBytes32 1) (constBytes32 2) (constBytes32 5)),
      checkBatch operator (sampleInputs 1 (constBytes32 1) (constBytes32 2) zeroBytes32), .accept,
      checkBatch operator (sampleInputs 2 (constBytes32 2) (constBytes32 3) zeroBytes32), .accept]

/-- **The chain is rewound.** The writes of the outer acceptance replace the record of the first batch and
leave the second batch accepted above the latest one. -/
theorem chain_rewound_by_verifier :
    ∃ w w', Takes (Execution.step fun _ ↦ constBytes32 7) (.start (constAddress 3) (constBytes32 1))
        (calledBack (constAddress 3) ++ [.accept]) w .accept w' ∧
      IsAccepted w.core 1 ∧ w'.core.acceptedBatches 1 ≠ w.core.acceptedBatches 1 ∧
      w'.core.latestAcceptedBatchId = 1 ∧ IsAccepted w'.core 2 ∧ ¬ ContinuousChain (constBytes32 1) w'.core := by
  refine ⟨_, _, ⟨calledBack (constAddress 3), List.prefix_rfl, rfl, rfl⟩, by decide, by decide,
    rfl, by decide, fun h ↦ ?_⟩
  have hle := ((h.accepted_iff 2).mp (by decide)).2
  exact absurd hle (by decide)

end FunnyOption.Contracts
