import FunnyOption.Foundation.Run
import FunnyOption.Rollup.Materialize

/-!
# Materialising accepted batches again and again

The submitter materialises every accepted submission at every poll. This file is about what that does to the
trees that are stored, between new acceptances, profile changes and updates of claims.

Two things go wrong. A call for a submission that is not the latest one writes its withdrawals under the latest
batch, over the tree that belongs there; the call for the latest submission writes that tree again, but by then
the rows of its leaves are gone, and with them what was claimed. And a profile change gives leaves of the escape
tree other claim ids, so that the next call does not find what was claimed under the old ones.

## Main results

* `materialization_idempotent`: runs in which calls are for the latest batch, or for one with the same tree, and
  profile changes do not concern accounts with collateral.
* `materialized_under_latest`: two batches, and a second call for the first of them.
-/

open Foundation

namespace FunnyOption.Rollup

/-! ## Updates of claims -/

/-- `normalizeSubmissionTxHash`. -/
def normalizeSubmissionTxHash (txHash : String) : String := trimPrefix (toLower (trimSpace txHash)) "0x"

/-- An update of the claim columns of a leaf: `MarkEscapeCollateralClaimSubmitted`,
`MarkEscapeCollateralClaimFailed` and `MarkEscapeCollateralClaimClaimed`. -/
inductive ClaimUpdate where
  | submitted (txHash : String)
  | failed (errMsg : String)
  | claimed (txHash : String)
  deriving DecidableEq

/-- The columns after an update. -/
def ClaimUpdate.apply (now : ℤ) (runtime : ClaimRuntime) : ClaimUpdate → ClaimRuntime
  | .submitted txHash =>
    { runtime with
      claimStatus := .claimSubmitted
      claimTxHash := normalizeSubmissionTxHash txHash
      claimSubmittedAt := now
      lastError := ""
      lastErrorAt := 0 }
  | .failed errMsg =>
    { runtime with
      claimStatus := .claimFailed
      lastError := trimSpace errMsg
      lastErrorAt := now }
  | .claimed txHash =>
    { runtime with
      claimStatus := .claimed
      claimTxHash := normalizeSubmissionTxHash txHash
      claimedAt := now
      lastError := ""
      lastErrorAt := 0 }

section Updates

variable {Leaf : Type} (claimID : Leaf → String)

/-- `updateEscapeCollateralClaim`: the rows with a claim id. -/
def updateClaims (id : String) (now : ℤ) (update : ClaimUpdate) (rows : List (LeafRow Leaf)) : List (LeafRow Leaf) :=
  rows.map fun row ↦ if claimID row.leaf = id then ⟨row.leaf, update.apply now row.runtime⟩ else row

/-- What is claimed stays claimed, with its transaction and time. -/
def KeepsClaimed (rows rows' : List (LeafRow Leaf)) : Prop := ∀ row ∈ rows, row.runtime.claimStatus = .claimed →
    ∃ row' ∈ rows', row'.leaf = row.leaf ∧ row'.runtime.claimStatus = .claimed ∧
      row'.runtime.claimTxHash = row.runtime.claimTxHash ∧ row'.runtime.claimedAt = row.runtime.claimedAt

variable {claimID} {rows rows' : List (LeafRow Leaf)} {id : String} {now : ℤ} {update : ClaimUpdate}

theorem KeepsClaimed.of_subset (h : ∀ row ∈ rows, row.runtime.claimStatus = .claimed → row ∈ rows') :
    KeepsClaimed rows rows' :=
  fun row hrow hclaimed ↦ ⟨row, h row hrow hclaimed, rfl, hclaimed, rfl, rfl⟩

theorem KeepsClaimed.refl (rows : List (LeafRow Leaf)) : KeepsClaimed rows rows := .of_subset fun _ hrow _ ↦ hrow

theorem leaf_updateClaims (row : LeafRow Leaf) :
    (if claimID row.leaf = id then (⟨row.leaf, update.apply now row.runtime⟩ : LeafRow Leaf) else row).leaf =
      row.leaf := by
  split_ifs <;> rfl

theorem map_leaf_updateClaims :
    (updateClaims claimID id now update rows).map LeafRow.leaf = rows.map LeafRow.leaf := by
  rw [updateClaims, List.map_map]
  exact List.map_congr_left fun row _ ↦ leaf_updateClaims row

theorem Uniform.updateClaims (h : Uniform claimID rows) :
    Uniform claimID (updateClaims claimID id now update rows) := by
  intro row hrow row' hrow' heq
  obtain ⟨old, hold, rfl⟩ := List.mem_map.mp hrow
  obtain ⟨old', hold', rfl⟩ := List.mem_map.mp hrow'
  rw [leaf_updateClaims, leaf_updateClaims] at heq
  have hruntime := h old hold old' hold' heq
  -- one id, so both rows are updated or none is
  rw [heq]
  split_ifs
  · dsimp only
    rw [hruntime]
  · exact hruntime

theorem keepsClaimed_updateClaims (h : ∀ row ∈ rows, claimID row.leaf = id → row.runtime.claimStatus ≠ .claimed) :
    KeepsClaimed rows (updateClaims claimID id now update rows) := by
  refine .of_subset fun row hrow hclaimed ↦ List.mem_map.mpr ⟨row, hrow, ?_⟩
  rw [if_neg fun hid ↦ h row hrow hid hclaimed]

/-- Leaves that are all written again keep what was claimed. -/
theorem keepsClaimed_replaceLeaves {leaves : List Leaf} (huniform : Uniform claimID rows)
    (hid : ∀ leaf ∈ leaves, claimID leaf ≠ "") (hleaves : rows.map LeafRow.leaf = leaves) :
    KeepsClaimed rows (replaceLeaves claimID rows leaves) := by
  refine .of_subset fun row hrow _ ↦ mem_replaceLeaves huniform hid hrow ?_
  rw [← hleaves]
  exact List.mem_map_of_mem hrow

/-- One batch is written. -/
theorem KeepsClaimed.overwrite {table : ℕ → List (LeafRow Leaf)} {batchID : ℕ}
    (h : KeepsClaimed (table batchID) rows') (b : ℕ) :
    KeepsClaimed (table b) (Function.update table batchID rows' b) := by
  rcases eq_or_ne b batchID with rfl | hb
  · rw [Function.update_self]
    exact h
  · rw [Function.update_of_ne hb]
    exact .refl _

theorem Uniform.overwrite {table : ℕ → List (LeafRow Leaf)} (h : ∀ b, Uniform claimID (table b)) {batchID : ℕ}
    (hrows : Uniform claimID rows') (b : ℕ) : Uniform claimID (Function.update table batchID rows' b) := by
  rcases eq_or_ne b batchID with rfl | hb
  · rw [Function.update_self]
    exact hrows
  · rw [Function.update_of_ne hb]
    exact h b

end Updates

/-! ## Runs of the store -/

/-- What happens to the store. No function of the repository updates the claims of withdrawal leaves yet; such
updates are allowed here. -/
inductive StoreEvent where
  | accept (id : ℕ)
  | materialize (id : ℕ)
  | setWallet (accountID : ℤ) (wallet : String)
  | updateEscapeClaim (claimID : String) (now : ℤ) (update : ClaimUpdate)
  | updateWithdrawalClaim (claimID : String) (now : ℤ) (update : ClaimUpdate)
  deriving DecidableEq

namespace Store

section Model

variable (keccak256 : Bytes → Bytes32) (hexToAddress : String → Address) (stateRoot : FullState → String)

/-- The store before the first acceptance. -/
def start (batches : List RootedBatch) (wallets : ℤ → String) : Store :=
  ⟨batches, [], [], wallets, fun _ ↦ none, fun _ ↦ [], fun _ ↦ none, fun _ ↦ []⟩

/-- `MarkSubmissionAccepted`. -/
def markSubmissionAccepted (s : Store) (id : ℕ) : Store :=
  if (s.batch id).isSome ∧ id ∉ s.submissions then { s with submissions := s.submissions ++ [id] } else s

/-- One event. -/
def step (s : Store) : StoreEvent → Option Store
  | .accept id => some (s.markSubmissionAccepted id)
  | .materialize id =>
    some ((s.materializeAcceptedSubmission keccak256 hexToAddress stateRoot id).getD s)
  | .setWallet accountID wallet => some { s with wallets := Function.update s.wallets accountID wallet }
  | .updateEscapeClaim claimID now update =>
    some { s with
      escapeLeaves := fun b ↦
        updateClaims AcceptedEscapeLeaf.claimID (trimSpace claimID) now update (s.escapeLeaves b) }
  | .updateWithdrawalClaim claimID now update =>
    some { s with
      withdrawalLeaves := fun b ↦
        updateClaims AcceptedWithdrawalLeaf.claimID (trimSpace claimID) now update (s.withdrawalLeaves b) }

/-- The tree of the withdrawals of a batch, under the id of a batch. -/
def withdrawalTree (s : Store) (batchID id : ℕ) : Option (Option Bytes32 × List AcceptedWithdrawalLeaf) :=
  ((s.batch id).bind extractAcceptedWithdrawals).bind (buildAcceptedWithdrawalMerkleTree keccak256 batchID)

/-- The root and the leaves that are stored for a batch are those of its own withdrawals. -/
def Own (s : Store) (id : ℕ) : Prop := ∃ root leaves, s.withdrawalTree keccak256 id id = some (root, leaves) ∧
    s.withdrawalRoots id = some ⟨root, leaves.length⟩ ∧ (s.withdrawalLeaves id).map LeafRow.leaf = leaves

/-- The accepted batches have their own trees. -/
def Right (s : Store) : Prop := ∀ id ∈ s.acceptedBatches, s.Own keccak256 id

/-- The balances after the accepted batches. -/
def acceptedBalances (s : Store) : List AcceptedBalance :=
  ((s.latestSnapshot stateRoot s.acceptedBatches).map fun p ↦ p.2.balances).getD []

/-- The account has no collateral after the accepted batches. -/
def Bare (s : Store) (accountID : ℤ) : Prop :=
  ∀ balance ∈ s.acceptedBalances stateRoot, balance.accountID = accountID → IsCollateral balance.asset →
    balance.available + balance.frozen ≤ 0

/-- The condition on an event. A call is for the latest accepted batch, or for an accepted batch whose
withdrawals have the same tree there. A profile change is about an account without collateral, or it leaves the
wallet as it is. A claim that is updated is not claimed yet. -/
def Orderly (s : Store) : StoreEvent → Prop
  | .accept _ => True
  | .materialize id =>
    (∀ b ∈ s.acceptedBatches, b ≤ id) ∨ id ∈ s.acceptedBatches ∧ ∀ latest ∈ s.acceptedBatches.max?,
        s.withdrawalTree keccak256 latest id = s.withdrawalTree keccak256 latest latest
  | .setWallet accountID wallet =>
    s.Bare stateRoot accountID ∨ Auth.normalizeHex wallet = Auth.normalizeHex (s.wallets accountID)
  | .updateEscapeClaim claimID _ _ =>
    ∀ b ∈ s.acceptedBatches, ∀ row ∈ s.escapeLeaves b, row.leaf.claimID = trimSpace claimID →
      row.runtime.claimStatus ≠ .claimed
  | .updateWithdrawalClaim claimID _ _ =>
    ∀ b ∈ s.acceptedBatches, ∀ row ∈ s.withdrawalLeaves b, row.leaf.claimID = trimSpace claimID →
      row.runtime.claimStatus ≠ .claimed

instance (s : Store) (accountID : ℤ) : Decidable (s.Bare stateRoot accountID) :=
  inferInstanceAs (Decidable (∀ balance ∈ _, _))

instance (s : Store) : ∀ event, Decidable (s.Orderly keccak256 stateRoot event)
  | .accept _ => .isTrue trivial
  | .materialize _ => inferInstanceAs (Decidable (_ ∨ _))
  | .setWallet _ _ => inferInstanceAs (Decidable (_ ∨ _))
  | .updateEscapeClaim _ _ _ => inferInstanceAs (Decidable (∀ b ∈ s.acceptedBatches, _))
  | .updateWithdrawalClaim _ _ _ => inferInstanceAs (Decidable (∀ b ∈ s.acceptedBatches, _))

end Model

/-- What is claimed stays claimed, for both kinds of leaves. -/
structure Keeps (s s' : Store) : Prop where
  withdrawals : ∀ b, KeepsClaimed (s.withdrawalLeaves b) (s'.withdrawalLeaves b)
  escapes : ∀ b, KeepsClaimed (s.escapeLeaves b) (s'.escapeLeaves b)

/-! ## Ids are not empty -/

variable {keccak256 : Bytes → Bytes32} {hexToAddress : String → Address} {stateRoot : FullState → String}
  {s s' : Store} {id : ℕ} {m : Materialization}

theorem claimID_ne_empty_of_mem_withdrawalTree {batchID : ℕ} {root : Option Bytes32}
    {leaves : List AcceptedWithdrawalLeaf} (h : s.withdrawalTree keccak256 batchID id = some (root, leaves)) :
    ∀ leaf ∈ leaves, leaf.claimID ≠ "" := by
  intro leaf hleaf
  obtain ⟨withdrawals, -, hbuild⟩ := Option.bind_eq_some_iff.mp h
  rw [(stated_of_mem hbuild hleaf).claimID]
  exact encodeHex0x_ne_empty _

theorem claimID_ne_empty_of_mem_escapeTree {batchID : ℕ} {inputs : List EscapeLeafInput} {leaf : AcceptedEscapeLeaf}
    (hleaf : leaf ∈ (escapeTree keccak256 hexToAddress batchID inputs).2) : leaf.claimID ≠ "" := by
  rw [escapeTree, List.zipWith_eq_zipWith_take_min, ← List.map_uncurry_zip_eq_zipWith] at hleaf
  obtain ⟨⟨bare, proof⟩, hmem, rfl⟩ := List.mem_map.mp hleaf
  obtain ⟨pair, -, rfl⟩ := List.mem_map.mp (List.mem_of_mem_take (List.of_mem_zip hmem).1)
  exact encodeHex0x_ne_empty _

theorem claimID_ne_empty_of_escapeSnapshot {accepted : List ℕ} {batchID : ℕ} {root : AcceptedEscapeRoot}
    {leaves : List AcceptedEscapeLeaf}
    (h : s.escapeSnapshot keccak256 hexToAddress stateRoot accepted = some (batchID, root, leaves)) :
    ∀ leaf ∈ leaves, leaf.claimID ≠ "" := by
  intro leaf hleaf
  obtain ⟨latest, snapshot, -, -, hbuild⟩ := escapeSnapshot_eq_some h
  obtain ⟨found, -, heq⟩ := Option.map_eq_some_iff.mp hbuild
  obtain ⟨-, rfl⟩ := Prod.mk.inj heq
  exact claimID_ne_empty_of_mem_escapeTree hleaf

/-! ## The invariant -/

variable (keccak256 hexToAddress stateRoot) in
/-- Rows belong to accepted batches and agree where they have one id, and the escape leaves of the latest batch
are those of the present wallets. -/
structure Consistent (s : Store) : Prop where
  uniformWithdrawals : ∀ b, Uniform AcceptedWithdrawalLeaf.claimID (s.withdrawalLeaves b)
  uniformEscapes : ∀ b, Uniform AcceptedEscapeLeaf.claimID (s.escapeLeaves b)
  listed : ∀ b, b ∉ s.acceptedBatches → s.withdrawalLeaves b = [] ∧ s.escapeLeaves b = []
  current : s.acceptedBatches ≠ [] → ∃ batchID root leaves,
    s.escapeSnapshot keccak256 hexToAddress stateRoot s.acceptedBatches = some (batchID, root, leaves) ∧
      (s.escapeLeaves batchID).map LeafRow.leaf = leaves
  right : s.Right keccak256

theorem Consistent.mem_of_escapeLeaf (h : s.Consistent keccak256 hexToAddress stateRoot) {b : ℕ}
    {row : LeafRow AcceptedEscapeLeaf} (hrow : row ∈ s.escapeLeaves b) : b ∈ s.acceptedBatches := by
  by_contra hb
  rw [(h.listed b hb).2] at hrow
  exact absurd hrow List.not_mem_nil

theorem Consistent.mem_of_withdrawalLeaf (h : s.Consistent keccak256 hexToAddress stateRoot) {b : ℕ}
    {row : LeafRow AcceptedWithdrawalLeaf} (hrow : row ∈ s.withdrawalLeaves b) : b ∈ s.acceptedBatches := by
  by_contra hb
  rw [(h.listed b hb).1] at hrow
  exact absurd hrow List.not_mem_nil

theorem consistent_start (batches : List RootedBatch) (wallets : ℤ → String) :
    (start batches wallets).Consistent keccak256 hexToAddress stateRoot where
  uniformWithdrawals _ := uniform_nil
  uniformEscapes _ := uniform_nil
  listed _ _ := ⟨rfl, rfl⟩
  current h := absurd rfl h
  right _ h := absurd h List.not_mem_nil

/-! ### Calls -/

/-- What an orderly call writes is the tree of the latest batch. -/
structure Latest (keccak256 : Bytes → Bytes32) (s : Store) (m : Materialization) : Prop where
  tree : s.withdrawalTree keccak256 m.batchID m.batchID = some (m.withdrawalRoot, m.withdrawalLeaves)
  accepted_of_mem : m.batchID ∈ s.acceptedBatches → m.accepted = s.acceptedBatches
  mem_of_ne : ∀ b ∈ m.accepted, b ≠ m.batchID → b ∈ s.acceptedBatches

theorem Planned.latest (hm : s.Planned keccak256 hexToAddress stateRoot id m)
    (horderly : s.Orderly keccak256 stateRoot (.materialize id)) : s.Latest keccak256 m := by
  have hmax : m.accepted.max? = some m.batchID := max?_of_escapeSnapshot hm.snapshot
  have haccepted := hm.accepted
  by_cases hmem : id ∈ s.acceptedBatches
  · -- the accepted batches stay the same
    have hsame : m.accepted = s.acceptedBatches := by rw [haccepted, upsertAcceptedBatch, if_pos hmem]
    refine ⟨?_, fun _ ↦ hsame, fun b hb _ ↦ hsame ▸ hb⟩
    rw [hsame] at hmax
    rcases horderly with hle | ⟨-, htree⟩
    · have hid : m.batchID = id :=
        le_antisymm (hle _ (List.max?_mem hmax)) ((List.max?_eq_some_iff.mp hmax).2 id hmem)
      rw [hid]
      exact hid ▸ hm.withdrawals
    · rw [← htree m.batchID hmax]
      exact hm.withdrawals
  · have happend : m.accepted = s.acceptedBatches ++ [id] := by
      rw [haccepted, upsertAcceptedBatch, if_neg hmem]
    have hle : ∀ b ∈ s.acceptedBatches, b ≤ id := horderly.resolve_right fun h ↦ hmem h.1
    have hid : m.batchID = id := by
      have hin : m.batchID ∈ s.acceptedBatches ++ [id] := happend ▸ List.max?_mem hmax
      have hge : id ≤ m.batchID := (List.max?_eq_some_iff.mp hmax).2 id (happend ▸ by simp)
      rcases List.mem_append.mp hin with hin | hin
      · exact le_antisymm (hle _ hin) hge
      · exact List.mem_singleton.mp hin
    refine ⟨?_, fun h ↦ absurd (hid ▸ h) hmem, fun b hb hne ↦ ?_⟩
    · rw [hid]
      exact hid ▸ hm.withdrawals
    · rw [happend] at hb
      rcases List.mem_append.mp hb with hb | hb
      · exact hb
      · exact absurd (List.mem_singleton.mp hb) (hid ▸ hne)

theorem Consistent.keeps_write (h : s.Consistent keccak256 hexToAddress stateRoot)
    (hm : s.Planned keccak256 hexToAddress stateRoot id m) (hlatest : s.Latest keccak256 m) :
    s.Keeps (s.write m) := by
  constructor
  · refine KeepsClaimed.overwrite ?_
    by_cases hmem : m.batchID ∈ s.acceptedBatches
    · -- the tree that is there is the one that is written again
      obtain ⟨root, leaves, htree, -, hleaves⟩ := h.right m.batchID hmem
      obtain ⟨-, rfl⟩ := Prod.mk.inj (Option.some.inj (hlatest.tree.symm.trans htree))
      exact keepsClaimed_replaceLeaves (h.uniformWithdrawals _)
        (claimID_ne_empty_of_mem_withdrawalTree htree) hleaves
    · exact fun row hrow ↦ absurd (h.mem_of_withdrawalLeaf hrow) hmem
  · refine KeepsClaimed.overwrite ?_
    by_cases hmem : m.batchID ∈ s.acceptedBatches
    · obtain ⟨batchID, root, leaves, hsnapshot, hleaves⟩ := h.current (List.ne_nil_of_mem hmem)
      have hplanned := hm.snapshot
      rw [hlatest.accepted_of_mem hmem, hsnapshot, Option.some.injEq, Prod.mk.injEq, Prod.mk.injEq] at hplanned
      obtain ⟨hid, -, hsame⟩ := hplanned
      rw [hid, hsame] at hleaves
      exact keepsClaimed_replaceLeaves (h.uniformEscapes _) (claimID_ne_empty_of_escapeSnapshot hm.snapshot)
        hleaves
    · exact fun row hrow ↦ absurd (h.mem_of_escapeLeaf hrow) hmem

theorem mem_upsertAcceptedBatch {b : ℕ} (h : b ∈ s.acceptedBatches) : b ∈ s.upsertAcceptedBatch id := by
  rw [upsertAcceptedBatch]
  split_ifs
  · exact h
  · exact List.mem_append_left _ h

theorem Consistent.write (h : s.Consistent keccak256 hexToAddress stateRoot)
    (hm : s.Planned keccak256 hexToAddress stateRoot id m) (hlatest : s.Latest keccak256 m) :
    (s.write m).Consistent keccak256 hexToAddress stateRoot where
  uniformWithdrawals := .overwrite h.uniformWithdrawals uniform_replaceLeaves
  uniformEscapes := .overwrite h.uniformEscapes uniform_replaceLeaves
  listed b hb := by
    have hb : b ∉ m.accepted := hb
    have hne : b ≠ m.batchID := by
      rintro rfl
      exact hb (List.max?_mem (max?_of_escapeSnapshot hm.snapshot))
    have hbefore : b ∉ s.acceptedBatches := by
      rw [hm.accepted] at hb
      exact fun hmem ↦ hb (mem_upsertAcceptedBatch hmem)
    rw [Store.write]
    dsimp only
    rw [Function.update_of_ne hne, Function.update_of_ne hne]
    exact h.listed b hbefore
  current _ := by
    refine ⟨m.batchID, m.escapeRoot, m.escapeLeaves, hm.snapshot, ?_⟩
    rw [Store.write]
    dsimp only
    rw [Function.update_self]
    exact map_leaf_replaceLeaves
  right b hb := by
    rcases eq_or_ne b m.batchID with rfl | hne
    · refine ⟨m.withdrawalRoot, m.withdrawalLeaves, hlatest.tree, ?_, ?_⟩
      · exact Function.update_self _ _ _
      · rw [Store.write]
        dsimp only
        rw [Function.update_self]
        exact map_leaf_replaceLeaves
    · obtain ⟨root, leaves, htree, hroot, hleaves⟩ := h.right b (hlatest.mem_of_ne b hb hne)
      refine ⟨root, leaves, htree, ?_, ?_⟩
      · exact (Function.update_of_ne hne _ _).trans hroot
      · rw [Store.write]
        dsimp only
        rw [Function.update_of_ne hne]
        exact hleaves

/-! ### Profile changes -/

/-- A profile change that gives each balance the same input as before. -/
theorem escapeLeafInput_update {wallets : ℤ → String} {accountID : ℤ} {wallet : String} {balance : AcceptedBalance}
    (h : balance.accountID = accountID → IsCollateral balance.asset → balance.available + balance.frozen ≤ 0 ∨
        Auth.normalizeHex wallet = Auth.normalizeHex (wallets accountID)) :
    escapeLeafInput (Function.update wallets accountID wallet) balance = escapeLeafInput wallets balance := by
  by_cases haccount : balance.accountID = accountID
  · rw [escapeLeafInput, escapeLeafInput]
    split_ifs with hasset hempty
    · rfl
    · have hsame := (h haccount hasset).resolve_left hempty
      dsimp only
      rw [haccount, Function.update_self, hsame]
    · rfl
  · rw [escapeLeafInput, escapeLeafInput, Function.update_of_ne haccount]

theorem mapM_congr {α β : Type*} {f g : α → Option β} {l : List α} (h : ∀ a ∈ l, f a = g a) :
    l.mapM f = l.mapM g := by
  induction l with
  | nil => rfl
  | cons a l ih =>
    rw [List.mapM_cons, List.mapM_cons, h a List.mem_cons_self, ih fun b hb ↦ h b (List.mem_cons_of_mem a hb)]

theorem escapeSnapshot_setWallet {accountID : ℤ} {wallet : String}
    (h : s.Bare stateRoot accountID ∨ Auth.normalizeHex wallet = Auth.normalizeHex (s.wallets accountID)) :
    escapeSnapshot keccak256 hexToAddress stateRoot
        { s with wallets := Function.update s.wallets accountID wallet } s.acceptedBatches =
      s.escapeSnapshot keccak256 hexToAddress stateRoot s.acceptedBatches := by
  have hsame : latestSnapshot stateRoot { s with wallets := Function.update s.wallets accountID wallet }
      s.acceptedBatches = s.latestSnapshot stateRoot s.acceptedBatches := rfl
  rw [escapeSnapshot, escapeSnapshot, hsame]
  refine Option.bind_congr fun ⟨latest, snapshot⟩ hlatest ↦ congrArg _ ?_
  have hbalances : s.acceptedBalances stateRoot = snapshot.balances := by
    rw [acceptedBalances, hlatest, Option.map_some, Option.getD_some]
  rw [buildAcceptedEscapeCollateralSnapshot, buildAcceptedEscapeCollateralSnapshot]
  refine congrArg _ (mapM_congr fun balance hbalance ↦ escapeLeafInput_update fun haccount hasset ↦ ?_)
  exact h.imp (fun hbare ↦ hbare balance (hbalances ▸ hbalance) haccount hasset) fun h ↦ h

/-! ### Steps -/

theorem Keeps.refl (s : Store) : s.Keeps s := ⟨fun _ ↦ .refl _, fun _ ↦ .refl _⟩

/-- **One event.** -/
theorem Consistent.step (h : s.Consistent keccak256 hexToAddress stateRoot) {event : StoreEvent}
    (horderly : s.Orderly keccak256 stateRoot event)
    (hstep : s.step keccak256 hexToAddress stateRoot event = some s') :
    s'.Consistent keccak256 hexToAddress stateRoot ∧ s.Keeps s' := by
  cases event with
  | accept id =>
    obtain rfl := Option.some.inj hstep
    rw [markSubmissionAccepted]
    split_ifs
    · exact ⟨{ h with }, ⟨fun _ ↦ .refl _, fun _ ↦ .refl _⟩⟩
    · exact ⟨h, .refl s⟩
  | materialize id =>
    obtain rfl := Option.some.inj hstep
    cases hcall : s.materializeAcceptedSubmission keccak256 hexToAddress stateRoot id with
    | none => exact ⟨h, .refl s⟩
    | some t =>
      obtain ⟨m, hm, rfl⟩ := materialize_eq_some hcall
      have hlatest := hm.latest horderly
      exact ⟨h.write hm hlatest, h.keeps_write hm hlatest⟩
  | setWallet accountID wallet =>
    obtain rfl := Option.some.inj hstep
    refine ⟨{ h with current := fun hne ↦ ?_ }, ⟨fun _ ↦ .refl _, fun _ ↦ .refl _⟩⟩
    obtain ⟨batchID, root, leaves, hsnapshot, hleaves⟩ := h.current hne
    exact ⟨batchID, root, leaves, (escapeSnapshot_setWallet horderly).trans hsnapshot, hleaves⟩
  | updateEscapeClaim claimID now update =>
    obtain rfl := Option.some.inj hstep
    refine ⟨⟨h.uniformWithdrawals, fun b ↦ (h.uniformEscapes b).updateClaims, fun b hb ↦ ?_, fun hne ↦ ?_,
      h.right⟩, ⟨fun _ ↦ .refl _, fun b ↦ keepsClaimed_updateClaims fun row hrow ↦ ?_⟩⟩
    · obtain ⟨hwithdrawals, hescapes⟩ := h.listed b hb
      refine ⟨hwithdrawals, ?_⟩
      dsimp only
      rw [hescapes]
      rfl
    · obtain ⟨batchID, root, leaves, hsnapshot, hleaves⟩ := h.current hne
      exact ⟨batchID, root, leaves, hsnapshot, map_leaf_updateClaims.trans hleaves⟩
    · exact horderly b (h.mem_of_escapeLeaf hrow) row hrow
  | updateWithdrawalClaim claimID now update =>
    obtain rfl := Option.some.inj hstep
    refine ⟨⟨fun b ↦ (h.uniformWithdrawals b).updateClaims, h.uniformEscapes, fun b hb ↦ ?_, h.current,
      fun b hb ↦ ?_⟩, ⟨fun b ↦ keepsClaimed_updateClaims fun row hrow ↦ ?_, fun _ ↦ .refl _⟩⟩
    · obtain ⟨hwithdrawals, hescapes⟩ := h.listed b hb
      refine ⟨?_, hescapes⟩
      dsimp only
      rw [hwithdrawals]
      rfl
    · obtain ⟨root, leaves, htree, hroot, hleaves⟩ := h.right b hb
      exact ⟨root, leaves, htree, hroot, map_leaf_updateClaims.trans hleaves⟩
    · exact horderly b (h.mem_of_withdrawalLeaf hrow) row hrow

/-- **Materialising is idempotent.** In a run of orderly events, every accepted batch has the root and the
leaves of its own withdrawals in each state, and no step changes what was claimed. -/
theorem materialization_idempotent {batches : List RootedBatch} {wallets : ℤ → String} {events : List StoreEvent}
    (horderly : ∀ t event t',
      Takes (step keccak256 hexToAddress stateRoot) (start batches wallets) events t event t' →
        t.Orderly keccak256 stateRoot event) :
    (∀ t, Visits (step keccak256 hexToAddress stateRoot) (start batches wallets) events t → t.Right keccak256) ∧
      ∀ t event t', Takes (step keccak256 hexToAddress stateRoot) (start batches wallets) events t event t' →
          t.Keeps t' := by
  have hconsistent := visits_induction (P := fun t : Store ↦ t.Consistent keccak256 hexToAddress stateRoot)
    (consistent_start batches wallets)
    fun t event t' htakes ht ↦ (ht.step (horderly t event t' htakes) htakes.step_eq).1
  refine ⟨fun t hvisits ↦ (hconsistent t hvisits).right, fun t event t' htakes ↦ ?_⟩
  exact ((hconsistent t htakes.visits).step (horderly t event t' htakes) htakes.step_eq).2

/-- `MaterializeAcceptedSubmissions` is a sequence of calls. -/
theorem materializeEach_eq_exec (s : Store) (ids : List ℕ) :
    ∃ called, called <+: ids ∧ exec (step keccak256 hexToAddress stateRoot) s (called.map .materialize) =
      some (s.materializeEach keccak256 hexToAddress stateRoot ids).1 := by
  induction ids generalizing s with
  | nil => exact ⟨[], List.prefix_rfl, rfl⟩
  | cons id ids ih =>
    rw [materializeEach]
    cases hcall : s.materializeAcceptedSubmission keccak256 hexToAddress stateRoot id with
    | none => exact ⟨[], List.nil_prefix, rfl⟩
    | some t =>
      obtain ⟨called, hprefix, hexec⟩ := ih t
      refine ⟨id :: called, List.cons_prefix_cons.mpr ⟨rfl, hprefix⟩, ?_⟩
      have hstep : s.step keccak256 hexToAddress stateRoot (.materialize id) = some t := by
        rw [step, hcall, Option.getD_some]
      rw [List.map_cons, exec, List.foldlM_cons, hstep]
      exact hexec

/-! ## Samples -/

section Samples

/-- A hash that adds up the bytes. -/
def sumHash (x : Bytes) : Bytes32 := constBytes32 (UInt8.ofNat (x.map UInt8.toNat).sum)

/-- An address from the bytes of its text. -/
def sumAddress (text : String) : Address :=
  ⟨List.replicate 20 (UInt8.ofNat ((stringBytes text).map UInt8.toNat).sum), List.length_replicate⟩

/-- A deposit and a withdrawal, and another withdrawal in the next batch. -/
def twoBatches : List RootedBatch := [⟨1, [⟨1, .depositCredited ⟨7, "USDT", 20⟩⟩,
      ⟨2, .withdrawalRequested ⟨"w1", 7, "0xaa", "0xaa", "USDT", 5, ""⟩⟩], "", "r"⟩,
    ⟨2, [⟨3, .withdrawalRequested ⟨"w2", 7, "0xaa", "0xaa", "USDT", 6, ""⟩⟩], "r", "r"⟩]

/-- Before the first acceptance. -/
def twoBatchesStored : Store := start twoBatches fun account ↦ if account = 7 then "0xaa" else ""

/-- The state after events. -/
def after (events : List StoreEvent) : Option Store :=
  exec (step sumHash sumAddress fun _ ↦ "r") twoBatchesStored events

/-- Both batches are accepted, and the withdrawal of the second is claimed. -/
def claimedOnce : List StoreEvent := [.accept 1, .materialize 1, .accept 2, .materialize 2,
    .updateWithdrawalClaim (((after [.accept 1, .materialize 1, .accept 2, .materialize 2]).bind fun s ↦
      ((s.withdrawalLeaves 2).map fun row ↦ row.leaf.claimID).head?).getD "") 100 (.claimed "0x77")]

/-- The collateral after the first batch is claimed. -/
def escapedOnce : List StoreEvent := [.accept 1, .materialize 1,
    .updateEscapeClaim (((after [.accept 1, .materialize 1]).bind fun s ↦
      ((s.escapeLeaves 1).map fun row ↦ row.leaf.claimID).head?).getD "") 100 (.claimed "0x77")]

/-- Another call for the latest submission, and a profile that is of no account with collateral. -/
theorem claimedOnce_idempotent :
    (after (claimedOnce ++ [.materialize 2, .setWallet 3 "0xcc", .materialize 2])).map (fun s ↦
        (s.withdrawalLeaves 2).map fun row ↦ (row.leaf.withdrawalID, row.runtime.claimStatus)) =
          some [("w2", .claimed)] ∧
      (∀ t, Visits (step sumHash sumAddress fun _ ↦ "r") twoBatchesStored
        (claimedOnce ++ [.materialize 2, .setWallet 3 "0xcc", .materialize 2]) t → t.Right sumHash) ∧
      ∀ t event t', Takes (step sumHash sumAddress fun _ ↦ "r") twoBatchesStored
        (claimedOnce ++ [.materialize 2, .setWallet 3 "0xcc", .materialize 2]) t event t' → t.Keeps t' := by
  have horderly : Along (step sumHash sumAddress fun _ ↦ "r") (Orderly sumHash fun _ ↦ "r") twoBatchesStored
      (claimedOnce ++ [.materialize 2, .setWallet 3 "0xcc", .materialize 2]) := by decide +kernel
  exact ⟨by decide +kernel, materialization_idempotent fun t event t' htakes ↦ horderly.of_takes htakes⟩

/-- **A tree under the wrong batch.** After another call for the first submission, the leaf of the second batch
is that of the first withdrawal. After another call for the second submission it is its own again, but no longer
claimed. And the claim of an escape leaf is lost in the call after the wallet of its account has changed. -/
theorem materialized_under_latest :
    (after claimedOnce).map (fun s ↦ (s.withdrawalLeaves 2).map fun row ↦
        (row.leaf.withdrawalID, row.runtime.claimStatus)) = some [("w2", .claimed)] ∧
      (after (claimedOnce ++ [.materialize 1])).map (fun s ↦ (s.withdrawalLeaves 2).map fun row ↦
        (row.leaf.withdrawalID, row.runtime.claimStatus)) = some [("w1", .claimable)] ∧
      (after (claimedOnce ++ [.materialize 1, .materialize 2])).map (fun s ↦ (s.withdrawalLeaves 2).map
        fun row ↦ (row.leaf.withdrawalID, row.runtime.claimStatus)) = some [("w2", .claimable)] ∧
      (after escapedOnce).map (fun s ↦ (s.escapeLeaves 1).map fun row ↦
        (row.leaf.accountID, row.runtime.claimStatus)) = some [(7, .claimed)] ∧
      (after (escapedOnce ++ [.setWallet 7 "0xbb", .materialize 1])).map (fun s ↦ (s.escapeLeaves 1).map
        fun row ↦ (row.leaf.accountID, row.runtime.claimStatus)) = some [(7, .claimable)] := by
  decide +kernel

end Samples

end Store

end FunnyOption.Rollup
