import FunnyOption.Rollup.Entries
import FunnyOption.Rollup.EscapeTree

/-!
# The snapshot of the accepted batches

`BuildAcceptedReplaySnapshot` replays the accepted batches from the empty state and exports the balances that
they lead to. A batch is replayed only if it starts from the state that the batches before it lead to, and if
it leads to the state that it states; both are compared by their roots. How the root of a state is computed is
a parameter.

Balances are exported in the order of their keys as texts. The replayed state is a function of keys here, so
the keys come from the journal: only keys that some entry posts to have a balance.
-/

open Foundation

namespace FunnyOption.Rollup

open ShadowState

/-! ## Exported balances -/

/-- `balanceKey`, as a text. -/
def balanceKeyText (key : ℤ × String) : String := toString key.1 ++ ":" ++ key.2

/-- The keys of the balances, in the order of their texts. -/
structure Listing (s : ShadowState) where
  keys : List (ℤ × String)
  sorted : keys.Pairwise fun a b ↦ balanceKeyText a ≤ balanceKeyText b
  nodup : keys.Nodup
  complete : ∀ key, s.balances key ≠ none → key ∈ keys

/-- The record of a leaf. -/
def acceptedBalance (batchID : ℕ) (leaf : BalanceLeaf) : AcceptedBalance :=
  ⟨batchID, leaf.accountID, leaf.assetID, leaf.freeBalance, leaf.lockedBalance, leaf.lastAppliedSequence⟩

/-- `exportAcceptedBalances`. -/
def exportAcceptedBalances (batchID : ℕ) (s : ShadowState) (listing : Listing s) : List AcceptedBalance :=
  listing.keys.filterMap fun key ↦ (s.balances key).map (acceptedBalance batchID)

/-! ## Batches -/

/-- `StoredBatch`: the entries and the roots before and after them. -/
structure RootedBatch where
  batchID : ℕ
  entries : List (JournalRow FullEntry)
  prevStateRoot : String
  stateRoot : String
  deriving DecidableEq

/-- `AcceptedReplaySnapshot`, as far as the escape claims use it. -/
structure AcceptedReplaySnapshot where
  batchID : ℕ
  stateRoot : String
  balances : List AcceptedBalance
  deriving DecidableEq

/-- The keys of the balances that a journal writes, in the order of their texts. -/
def balanceKeys (rows : List (JournalRow FullEntry)) : List (ℤ × String) :=
  (writtenKeys .empty rows).dedup.insertionSort fun a b ↦ balanceKeyText a ≤ balanceKeyText b

section Snapshot

variable (stateRoot : FullState → String)

/-- The root that a batch starts from. -/
def RootedBatch.expectedPrev (batch : RootedBatch) : String :=
  if trimSpace batch.prevStateRoot = "" then stateRoot .empty else trimSpace batch.prevStateRoot

/-- The loop of `BuildAcceptedReplaySnapshot`. -/
def replayBatches : FullState → List RootedBatch → Option FullState
  | s, [] => some s
  | s, batch :: batches =>
    if stateRoot s ≠ batch.expectedPrev stateRoot then none
    else
      match fullReplayer.run s batch.entries with
      | .error _ => none
      | .ok t =>
        if trimSpace batch.stateRoot ≠ "" ∧ stateRoot t ≠ batch.stateRoot then none
        else replayBatches t batches

/-- `BuildAcceptedReplaySnapshot`. -/
def buildAcceptedReplaySnapshot (batches : List RootedBatch) : Option AcceptedReplaySnapshot :=
  (replayBatches stateRoot .empty batches).map fun s ↦
    let batchID := (batches.getLast?.map RootedBatch.batchID).getD 0
    { batchID := batchID
      stateRoot := stateRoot s
      balances := (balanceKeys (batches.flatMap RootedBatch.entries)).filterMap fun key ↦
        (s.balances key).map (acceptedBalance batchID) }

end Snapshot

/-! ## The journal of the batches -/

variable {stateRoot : FullState → String}

/-- The balances after a journal. -/
def listingOf {rows : List (JournalRow FullEntry)} {t : FullState} (h : fullReplayer.run .empty rows = .ok t) :
    Listing t.toShadowState where
  keys := balanceKeys rows
  sorted := by
    have : Std.Total fun a b : ℤ × String ↦ balanceKeyText a ≤ balanceKeyText b := ⟨fun _ _ ↦ le_total _ _⟩
    have : IsTrans (ℤ × String) fun a b ↦ balanceKeyText a ≤ balanceKeyText b := ⟨fun _ _ _ ↦ le_trans⟩
    exact List.pairwise_insertionSort _ _
  nodup := (List.perm_insertionSort _ _).nodup_iff.mpr (List.nodup_dedup _)
  complete key hkey := by
    rw [balanceKeys, List.mem_insertionSort, List.mem_dedup]
    by_contra hmem
    exact hkey (balances_run_of_notMem h hmem)

end FunnyOption.Rollup
