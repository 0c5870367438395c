import FunnyOption.Rollup.AcceptedSnapshot

/-!
# The store of accepted batches

When the submission of a batch is accepted on chain, `MaterializeAcceptedSubmission` writes what users claim
from: a tree of the withdrawals of the batch, and a tree of the collateral of all accounts. Every poll of the
submitter does this again for every accepted submission.

One call works with two batches. Withdrawals are those of the submission's own batch. Balances are those after
all accepted batches, and everything is written under the latest accepted batch: `Materialization.batchID`.

A call is one transaction. `Store.plan` is what it reads and computes, where the constraints of the tables can
make it fail, and `Store.write` is what it writes.

## Leaves

The leaves of the batch are deleted and written again. What happened to a leaf since, its `ClaimRuntime`, is
carried over to the new leaf with the same claim id.
-/

open Foundation

namespace FunnyOption.Rollup

/-! ## Leaves and what happens to them -/

/-- The status of a claim. -/
inductive ClaimStatus where
  | claimable
  | claimSubmitted
  | claimed
  | claimFailed
  deriving DecidableEq, Repr

/-- The columns of a leaf that change after it is built. -/
structure ClaimRuntime where
  claimStatus : ClaimStatus
  claimTxHash : String
  claimSubmittedAt : ℤ
  claimedAt : ℤ
  lastError : String
  lastErrorAt : ℤ
  deriving DecidableEq, Repr

/-- A leaf that was just built. -/
def ClaimRuntime.fresh : ClaimRuntime := ⟨.claimable, "", 0, 0, "", 0⟩

/-- A row of a table of leaves. -/
structure LeafRow (Leaf : Type) where
  leaf : Leaf
  runtime : ClaimRuntime
  deriving DecidableEq

section Leaves

variable {Leaf : Type} (claimID : Leaf → String)

/-- The map of the rows by their claim id, in which a later row comes over an earlier one. -/
def loadLeavesByClaimID (rows : List (LeafRow Leaf)) (id : String) : Option (LeafRow Leaf) :=
  rows.reverse.find? fun row ↦ claimID row.leaf = id

/-- `preserveAcceptedEscapeClaimRuntime` and `preserveAcceptedWithdrawalClaimRuntime`. -/
def preserveClaimRuntime (existing : Option (LeafRow Leaf)) (next : Leaf) : LeafRow Leaf :=
  match existing with
  | none => ⟨next, .fresh⟩
  | some row =>
    if claimID row.leaf = "" ∨ claimID row.leaf ≠ claimID next then ⟨next, .fresh⟩
    else ⟨next, row.runtime⟩

/-- `replaceAcceptedEscapeLeaves` and `replaceAcceptedWithdrawalLeaves`, on the rows of the batch. -/
def replaceLeaves (rows : List (LeafRow Leaf)) (leaves : List Leaf) : List (LeafRow Leaf) :=
  leaves.map fun leaf ↦ preserveClaimRuntime claimID (loadLeavesByClaimID claimID rows (claimID leaf)) leaf

/-- Rows with the same claim id have the same runtime. -/
def Uniform (rows : List (LeafRow Leaf)) : Prop :=
  ∀ row ∈ rows, ∀ row' ∈ rows, claimID row.leaf = claimID row'.leaf → row.runtime = row'.runtime

variable {claimID} {rows : List (LeafRow Leaf)} {leaves : List Leaf}

theorem leaf_preserveClaimRuntime (existing : Option (LeafRow Leaf)) (next : Leaf) :
    (preserveClaimRuntime claimID existing next).leaf = next := by
  cases existing with
  | none => rfl
  | some row =>
    rw [preserveClaimRuntime]
    split_ifs <;> rfl

theorem map_leaf_replaceLeaves : (replaceLeaves claimID rows leaves).map LeafRow.leaf = leaves := by
  rw [replaceLeaves, List.map_map]
  conv_rhs => rw [← List.map_id leaves]
  exact List.map_congr_left fun leaf _ ↦ leaf_preserveClaimRuntime _ leaf

theorem uniform_nil : Uniform claimID [] := fun _ h ↦ absurd h List.not_mem_nil

/-- What is carried over depends on the claim id. -/
theorem runtime_preserveClaimRuntime {leaf leaf' : Leaf} (h : claimID leaf = claimID leaf') :
    (preserveClaimRuntime claimID (loadLeavesByClaimID claimID rows (claimID leaf)) leaf).runtime =
      (preserveClaimRuntime claimID (loadLeavesByClaimID claimID rows (claimID leaf')) leaf').runtime := by
  rw [h]
  cases loadLeavesByClaimID claimID rows (claimID leaf') with
  | none => rfl
  | some row =>
    simp only [preserveClaimRuntime, h]
    split_ifs <;> rfl

theorem uniform_replaceLeaves : Uniform claimID (replaceLeaves claimID rows leaves) := by
  intro row hrow row' hrow' heq
  obtain ⟨leaf, -, rfl⟩ := List.mem_map.mp hrow
  obtain ⟨leaf', -, rfl⟩ := List.mem_map.mp hrow'
  rw [leaf_preserveClaimRuntime, leaf_preserveClaimRuntime] at heq
  exact runtime_preserveClaimRuntime heq

/-- **Leaves that are written again keep their runtime.** -/
theorem mem_replaceLeaves (huniform : Uniform claimID rows) (hid : ∀ leaf ∈ leaves, claimID leaf ≠ "")
    {row : LeafRow Leaf} (hrow : row ∈ rows) (hleaf : row.leaf ∈ leaves) :
    row ∈ replaceLeaves claimID rows leaves := by
  refine List.mem_map.mpr ⟨row.leaf, hleaf, ?_⟩
  cases hload : loadLeavesByClaimID claimID rows (claimID row.leaf) with
  | none =>
    have habsent := List.find?_eq_none.mp hload row (List.mem_reverse.mpr hrow)
    exact absurd (decide_eq_true rfl) habsent
  | some found =>
    have hfound : claimID found.leaf = claimID row.leaf := by
      simpa using List.find?_some hload
    have hmem : found ∈ rows := List.mem_reverse.mp (List.mem_of_find?_eq_some hload)
    have hruntime := huniform found hmem row hrow hfound
    rw [preserveClaimRuntime, if_neg, hruntime]
    rw [not_or, not_ne_iff]
    exact ⟨hfound ▸ hid row.leaf hleaf, hfound⟩

end Leaves

/-! ## The tables -/

/-- The status of an escape root. -/
inductive AnchorStatus where
  | ready
  | submitted
  | anchored
  | failed
  deriving DecidableEq, Repr

/-- `AcceptedEscapeCollateralRootRecord`. A transaction is named by its position among those that were
sent. -/
structure EscapeRootRow where
  root : AcceptedEscapeRoot
  anchorStatus : AnchorStatus
  anchorTxHash : Option ℕ
  deriving DecidableEq

/-- `AcceptedWithdrawalRootRecord`, under its batch. -/
structure WithdrawalRootRow where
  merkleRoot : Option Bytes32
  leafCount : ℕ
  deriving DecidableEq

/-- The tables of batches, accepted submissions, accepted batches, wallets, roots and leaves. -/
structure Store where
  batches : List RootedBatch
  /-- The batches whose submission has status `ACCEPTED`. -/
  submissions : List ℕ
  /-- The batches in `rollup_accepted_batches`. -/
  acceptedBatches : List ℕ
  wallets : ℤ → String
  escapeRoots : ℕ → Option EscapeRootRow
  escapeLeaves : ℕ → List (LeafRow AcceptedEscapeLeaf)
  withdrawalRoots : ℕ → Option WithdrawalRootRow
  withdrawalLeaves : ℕ → List (LeafRow AcceptedWithdrawalLeaf)

/-! ## Withdrawals of a batch -/

/-- The record of a requested withdrawal. -/
def acceptedWithdrawal (sequence : ℕ) (p : WithdrawalRequestedPayload) : AcceptedWithdrawal :=
  ⟨trimSpace p.withdrawalID, p.accountID, trimSpace p.walletAddress, trimSpace p.recipientAddress,
    normalize p.asset, p.amount, sequence⟩

/-- A record takes the place of an earlier one with its id. -/
def putWithdrawal (found : List AcceptedWithdrawal) (w : AcceptedWithdrawal) : List AcceptedWithdrawal :=
  if w.withdrawalID ∈ found.map AcceptedWithdrawal.withdrawalID then
    found.map fun v ↦ if v.withdrawalID = w.withdrawalID then w else v
  else found ++ [w]

/-- The loop of `ExtractAcceptedWithdrawals`. -/
def extractFrom : List AcceptedWithdrawal → List (JournalRow FullEntry) → Option (List AcceptedWithdrawal)
  | found, [] => some found
  | found, row :: rows =>
    match row.entry with
    | .withdrawalRequested p =>
      if trimSpace p.withdrawalID = "" then none
      else extractFrom (putWithdrawal found (acceptedWithdrawal row.sequence p)) rows
    | _ => extractFrom found rows

/-- `ExtractAcceptedWithdrawals`. -/
def extractAcceptedWithdrawals (batch : RootedBatch) : Option (List AcceptedWithdrawal) :=
  extractFrom [] batch.entries

/-! ## Materialisation -/

/-- `AcceptedSubmissionMaterialization`: what a call computes, with the batch that it writes to. -/
structure Materialization where
  accepted : List ℕ
  batchID : ℕ
  escapeRoot : AcceptedEscapeRoot
  escapeLeaves : List AcceptedEscapeLeaf
  withdrawalRoot : Option Bytes32
  withdrawalLeaves : List AcceptedWithdrawalLeaf

/-- `upsertAcceptedEscapeRoot`: the anchor columns of a row that exists are kept. -/
def upsertAcceptedEscapeRoot (existing : Option EscapeRootRow) (root : AcceptedEscapeRoot) : EscapeRootRow :=
  match existing with
  | none => ⟨root, .ready, none⟩
  | some row => { row with root := root }

namespace Store

/-- `loadBatchByID`. -/
def batch (s : Store) (id : ℕ) : Option RootedBatch := s.batches.find? fun batch ↦ batch.batchID = id

/-- `upsertAcceptedBatch`. -/
def upsertAcceptedBatch (s : Store) (id : ℕ) : List ℕ :=
  if id ∈ s.acceptedBatches then s.acceptedBatches else s.acceptedBatches ++ [id]

/-- `listAcceptedBatchesForReplay`. -/
def listAcceptedBatchesForReplay (s : Store) (accepted : List ℕ) : List RootedBatch :=
  (accepted.insertionSort (· ≤ ·)).filterMap s.batch

/-- The keys of the table of escape leaves: one leaf for an account, and no claim id twice. -/
def Insertable (s : Store) (batchID : ℕ) (leaves : List AcceptedEscapeLeaf) : Prop :=
  (leaves.map AcceptedEscapeLeaf.accountID).Nodup ∧ (leaves.map AcceptedEscapeLeaf.claimID).Nodup ∧
    ∀ other ∈ s.acceptedBatches, other ≠ batchID →
      ∀ row ∈ s.escapeLeaves other, row.leaf.claimID ∉ leaves.map AcceptedEscapeLeaf.claimID

instance (s : Store) (batchID : ℕ) (leaves : List AcceptedEscapeLeaf) : Decidable (s.Insertable batchID leaves) :=
  inferInstanceAs (Decidable (_ ∧ _ ∧ _))

section Calls

variable (keccak256 : Bytes → Bytes32) (hexToAddress : String → Address) (stateRoot : FullState → String)

/-- The latest of accepted batches, and the snapshot that it has to agree with. -/
def latestSnapshot (s : Store) (accepted : List ℕ) : Option (RootedBatch × AcceptedReplaySnapshot) := do
  let latest ← accepted.max?.bind s.batch
  let snapshot ← buildAcceptedReplaySnapshot stateRoot (s.listAcceptedBatchesForReplay accepted)
  guard (snapshot.batchID = latest.batchID ∧ snapshot.stateRoot = latest.stateRoot)
  pure (latest, snapshot)

/-- The escape tree of accepted batches: the latest of them, the root and the leaves. -/
def escapeSnapshot (s : Store) (accepted : List ℕ) : Option (ℕ × AcceptedEscapeRoot × List AcceptedEscapeLeaf) :=
  (s.latestSnapshot stateRoot accepted).bind fun p ↦
    (buildAcceptedEscapeCollateralSnapshot keccak256 hexToAddress p.1.batchID p.1.stateRoot p.2.balances
      s.wallets).map fun tree ↦ (p.1.batchID, tree)

/-- What `MaterializeAcceptedSubmission` computes. -/
def plan (s : Store) (id : ℕ) : Option Materialization := do
  guard (id ∈ s.submissions)
  let batch ← s.batch id
  let withdrawals ← extractAcceptedWithdrawals batch
  let (batchID, escapeRoot, escapeLeaves) ←
    s.escapeSnapshot keccak256 hexToAddress stateRoot (s.upsertAcceptedBatch id)
  guard (s.Insertable batchID escapeLeaves)
  let (withdrawalRoot, withdrawalLeaves) ← buildAcceptedWithdrawalMerkleTree keccak256 batchID withdrawals
  pure ⟨s.upsertAcceptedBatch id, batchID, escapeRoot, escapeLeaves, withdrawalRoot, withdrawalLeaves⟩

/-- What it writes. -/
def write (s : Store) (m : Materialization) : Store :=
  { s with
    acceptedBatches := m.accepted
    escapeRoots := Function.update s.escapeRoots m.batchID
      (some (upsertAcceptedEscapeRoot (s.escapeRoots m.batchID) m.escapeRoot))
    escapeLeaves := Function.update s.escapeLeaves m.batchID
      (replaceLeaves AcceptedEscapeLeaf.claimID (s.escapeLeaves m.batchID) m.escapeLeaves)
    withdrawalRoots := Function.update s.withdrawalRoots m.batchID
      (some ⟨m.withdrawalRoot, m.withdrawalLeaves.length⟩)
    withdrawalLeaves := Function.update s.withdrawalLeaves m.batchID
      (replaceLeaves AcceptedWithdrawalLeaf.claimID (s.withdrawalLeaves m.batchID) m.withdrawalLeaves) }

/-- `MaterializeAcceptedSubmission`. A call that fails is rolled back. -/
def materializeAcceptedSubmission (s : Store) (id : ℕ) : Option Store :=
  (s.plan keccak256 hexToAddress stateRoot id).map s.write

/-- The loop of `MaterializeAcceptedSubmissions`: the store, and whether all calls succeeded. -/
def materializeEach : Store → List ℕ → Store × Bool
  | s, [] => (s, true)
  | s, id :: ids =>
    match s.materializeAcceptedSubmission keccak256 hexToAddress stateRoot id with
    | none => (s, false)
    | some s' => materializeEach s' ids

/-- `MaterializeAcceptedSubmissions`. -/
def materializeAcceptedSubmissions (s : Store) : Store × Bool :=
  s.materializeEach keccak256 hexToAddress stateRoot (s.submissions.insertionSort (· ≤ ·))

end Calls

/-! ### What a call computes -/

variable {keccak256 : Bytes → Bytes32} {hexToAddress : String → Address} {stateRoot : FullState → String}
  {s s' : Store} {id : ℕ} {m : Materialization}

/-- What a call that succeeds has computed. -/
structure Planned (keccak256 : Bytes → Bytes32) (hexToAddress : String → Address)
    (stateRoot : FullState → String) (s : Store) (id : ℕ) (m : Materialization) : Prop where
  submitted : id ∈ s.submissions
  accepted : m.accepted = s.upsertAcceptedBatch id
  snapshot : s.escapeSnapshot keccak256 hexToAddress stateRoot m.accepted =
    some (m.batchID, m.escapeRoot, m.escapeLeaves)
  insertable : s.Insertable m.batchID m.escapeLeaves
  withdrawals : ((s.batch id).bind extractAcceptedWithdrawals).bind
    (buildAcceptedWithdrawalMerkleTree keccak256 m.batchID) = some (m.withdrawalRoot, m.withdrawalLeaves)

theorem planned_of_plan (h : s.plan keccak256 hexToAddress stateRoot id = some m) :
    s.Planned keccak256 hexToAddress stateRoot id m := by
  simp only [plan, guard, Option.bind_eq_bind, Option.bind_eq_some_iff, Option.pure_def] at h
  obtain ⟨_, hguard, batch, hbatch, withdrawals, hwithdrawals, ⟨batchID, escapeRoot, escapeLeaves⟩, hsnapshot,
    _, hinsert, ⟨withdrawalRoot, withdrawalLeaves⟩, hbuild, hm⟩ := h
  obtain rfl := Option.some.inj hm
  split_ifs at hguard with hsubmitted
  split_ifs at hinsert with hinsertable
  refine ⟨hsubmitted, rfl, hsnapshot, hinsertable, ?_⟩
  rw [hbatch, Option.bind_some, hwithdrawals, Option.bind_some, hbuild]

theorem materialize_eq_some (h : s.materializeAcceptedSubmission keccak256 hexToAddress stateRoot id = some s') :
    ∃ m, s.Planned keccak256 hexToAddress stateRoot id m ∧ s' = s.write m := by
  obtain ⟨m, hplan, rfl⟩ := Option.map_eq_some_iff.mp h
  exact ⟨m, planned_of_plan hplan, rfl⟩

theorem batchID_of_batch {batch : RootedBatch} (h : s.batch id = some batch) : batch.batchID = id := by
  simpa using List.find?_some h

variable {accepted : List ℕ}

theorem max?_of_latestSnapshot {latest : RootedBatch} {snapshot : AcceptedReplaySnapshot}
    (h : s.latestSnapshot stateRoot accepted = some (latest, snapshot)) : accepted.max? = some latest.batchID := by
  simp only [latestSnapshot, guard, Option.bind_eq_bind, Option.bind_eq_some_iff, Option.pure_def,
    Option.some.injEq, Prod.mk.injEq] at h
  obtain ⟨latest', ⟨id, hmax, hbatch⟩, snapshot', -, -, -, rfl, -⟩ := h
  rw [hmax, batchID_of_batch hbatch]

variable {tree : AcceptedEscapeRoot × List AcceptedEscapeLeaf}

theorem escapeSnapshot_eq_some {batchID : ℕ}
    (h : s.escapeSnapshot keccak256 hexToAddress stateRoot accepted = some (batchID, tree)) :
    ∃ latest snapshot, s.latestSnapshot stateRoot accepted = some (latest, snapshot) ∧ latest.batchID = batchID ∧
      buildAcceptedEscapeCollateralSnapshot keccak256 hexToAddress batchID latest.stateRoot snapshot.balances
        s.wallets = some tree := by
  obtain ⟨⟨latest, snapshot⟩, hlatest, hmap⟩ := Option.bind_eq_some_iff.mp h
  obtain ⟨tree', hbuild, heq⟩ := Option.map_eq_some_iff.mp hmap
  obtain ⟨rfl, rfl⟩ := Prod.mk.inj heq
  exact ⟨latest, snapshot, hlatest, rfl, hbuild⟩

/-- The snapshot is that of the latest batch. -/
theorem max?_of_escapeSnapshot {batchID : ℕ}
    (h : s.escapeSnapshot keccak256 hexToAddress stateRoot accepted = some (batchID, tree)) :
    accepted.max? = some batchID := by
  obtain ⟨latest, snapshot, hlatest, rfl, -⟩ := escapeSnapshot_eq_some h
  exact max?_of_latestSnapshot hlatest

end Store

end FunnyOption.Rollup
