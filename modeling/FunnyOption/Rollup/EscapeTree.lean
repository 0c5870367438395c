import FunnyOption.Rollup.WithdrawalTree

/-!
# The tree of escape claims

When a batch is accepted, the store builds a tree over the collateral of all accounts, so that each wallet can
claim its part if the contract is ever frozen. An account has a leaf if its collateral, free and locked
together, is positive and its wallet is known.

The hash is a parameter, and so is the parser of addresses, `common.HexToAddress`.
-/

open Foundation

namespace FunnyOption.Rollup

/-- `AcceptedBalanceRecord`, without its times. -/
structure AcceptedBalance where
  batchID : ℕ
  accountID : ℤ
  asset : String
  available : ℤ
  frozen : ℤ
  sequenceNo : ℕ
  deriving DecidableEq

/-- `acceptedEscapeLeafInput`. -/
structure EscapeLeafInput where
  accountID : ℤ
  walletAddress : String
  collateralAsset : String
  claimAmount : ℤ
  deriving DecidableEq

/-- `AcceptedEscapeCollateralLeafRecord`, without what happens to it later. -/
structure AcceptedEscapeLeaf where
  batchID : ℕ
  accountID : ℤ
  walletAddress : String
  collateralAsset : String
  claimAmount : ℤ
  leafIndex : ℕ
  leafHash : String
  proofHashes : List String
  claimID : String
  deriving DecidableEq

/-- `AcceptedEscapeCollateralRootRecord`, without what happens to it later. -/
structure AcceptedEscapeRoot where
  batchID : ℕ
  stateRoot : String
  collateralAsset : String
  merkleRoot : Option Bytes32
  leafCount : ℕ
  totalAmount : ℤ
  deriving DecidableEq

/-- `normalizeHex32`. -/
def normalizeHex32 (value : String) : String :=
  let trimmed := trimSpace (toLower value)
  if trimmed = "" then "" else if "0x".toList.isPrefixOf trimmed.toList then trimmed else "0x" ++ trimmed

/-- The balance counts as collateral. -/
def IsCollateral (asset : String) : Prop := Assets.normalizeAsset asset = Assets.defaultCollateralAsset

instance (asset : String) : Decidable (IsCollateral asset) := inferInstanceAs (Decidable (_ = _))

section Tree

variable (keccak256 : Bytes → Bytes32) (hexToAddress : String → Address) (batchID : ℕ)

/-- The input that a balance gives, if any. The outer option is the error of the conversion. -/
def escapeLeafInput (walletByAccount : ℤ → String) (balance : AcceptedBalance) : Option (Option EscapeLeafInput) :=
  if ¬IsCollateral balance.asset then some none
  else if balance.available + balance.frozen ≤ 0 then some none
  else
    (Assets.accountingToAssetChainAmount Assets.defaultCollateralAsset
      (balance.available + balance.frozen)).map fun claimAmount ↦
        let walletAddress := Auth.normalizeHex (walletByAccount balance.accountID)
        if claimAmount ≤ 0 ∨ walletAddress = "" then none
        else some ⟨balance.accountID, walletAddress, Assets.defaultCollateralAsset, claimAmount⟩

/-- `hashAcceptedEscapeCollateralLeaf`. -/
def hashAcceptedEscapeCollateralLeaf (leafIndex : ℕ) (input : EscapeLeafInput) : Bytes32 :=
  keccak256 (stringBytes "funny-rollup-escape-collateral-v1" ++ uintBytes 8 batchID ++
    uintBytes 8 leafIndex ++ (hexToAddress (Auth.normalizeHex input.walletAddress)).1 ++
    int64ToBytes input.claimAmount)

/-- `buildEscapeCollateralClaimID`. -/
def buildEscapeCollateralClaimID (leafIndex : ℕ) (walletAddress : String) (amount : ℤ) : String :=
  encodeHex0x (keccak256 (stringBytes "funny-rollup-escape-claim-v1" ++ uintBytes 8 batchID ++
    uintBytes 8 leafIndex ++ (hexToAddress (Auth.normalizeHex walletAddress)).1 ++ int64ToBytes amount)).1

/-- The leaf of an input, without its proof. -/
def escapeLeaf (input : EscapeLeafInput) (leafIndex : ℕ) : AcceptedEscapeLeaf where
  batchID := batchID
  accountID := input.accountID
  walletAddress := input.walletAddress
  collateralAsset := input.collateralAsset
  claimAmount := input.claimAmount
  leafIndex := leafIndex
  leafHash := encodeHex0x (hashAcceptedEscapeCollateralLeaf keccak256 hexToAddress batchID leafIndex input).1
  proofHashes := []
  claimID := buildEscapeCollateralClaimID keccak256 hexToAddress batchID leafIndex input.walletAddress
    input.claimAmount

/-- The order of the leaves: by account, then by wallet. -/
def EscapeLeafInput.le (a b : EscapeLeafInput) : Prop :=
  a.accountID < b.accountID ∨ a.accountID = b.accountID ∧ a.walletAddress ≤ b.walletAddress

instance (a b : EscapeLeafInput) : Decidable (a.le b) := inferInstanceAs (Decidable (_ ∨ _))

/-- The leaves of sorted inputs, and the root. -/
def escapeTree (inputs : List EscapeLeafInput) : Option Bytes32 × List AcceptedEscapeLeaf :=
  let tree := buildAcceptedEscapeMerkleTree keccak256 (inputs.zipIdx.map fun p ↦
    hashAcceptedEscapeCollateralLeaf keccak256 hexToAddress batchID p.2 p.1)
  (tree.1, (inputs.zipIdx.map fun p ↦ escapeLeaf keccak256 hexToAddress batchID p.1 p.2).zipWith
    (fun leaf proof ↦ { leaf with proofHashes := proof }) tree.2)

/-- `BuildAcceptedEscapeCollateralSnapshot`: the root and the leaves. -/
def buildAcceptedEscapeCollateralSnapshot (stateRoot : String) (balances : List AcceptedBalance)
    (walletByAccount : ℤ → String) : Option (AcceptedEscapeRoot × List AcceptedEscapeLeaf) :=
  (balances.mapM (escapeLeafInput walletByAccount)).map fun found ↦
    let inputs := found.reduceOption.insertionSort EscapeLeafInput.le
    let tree := escapeTree keccak256 hexToAddress batchID inputs
    (⟨batchID, normalizeHex32 stateRoot, Assets.defaultCollateralAsset, tree.1, inputs.length,
      (inputs.map EscapeLeafInput.claimAmount).sum⟩, tree.2)

end Tree

/-! ## The leaves -/

variable (keccak256 : Bytes → Bytes32) (hexToAddress : String → Address) (batchID : ℕ)

/-- There is a proof for each leaf. -/
theorem length_le_length_proofs (leaves : List Bytes32) :
    leaves.length ≤ (buildAcceptedEscapeMerkleTree keccak256 leaves).2.length := by
  by_contra hlt
  have hsome := getElem?_buildMerkleTree keccak256 "funny-rollup-empty-escape-collateral-root"
    (not_le.mp hlt)
  rw [← buildAcceptedEscapeMerkleTree, List.getElem?_eq_none (le_refl _)] at hsome
  cases hsome

private theorem zipWith_of_le {α β γ : Type*} (f : α → γ) {l : List α} {l' : List β} (h : l.length ≤ l'.length) :
    List.zipWith (fun a _ ↦ f a) l l' = l.map f := by
  induction l generalizing l' with
  | nil => rfl
  | cons a l ih =>
    cases l' with
    | nil => exact absurd h (Nat.not_succ_le_zero _)
    | cons b l' => rw [List.zipWith_cons_cons, List.map_cons, ih (Nat.le_of_succ_le_succ h)]

theorem claimAmounts_escapeTree (inputs : List EscapeLeafInput) :
    (escapeTree keccak256 hexToAddress batchID inputs).2.map AcceptedEscapeLeaf.claimAmount =
      inputs.map EscapeLeafInput.claimAmount := by
  have hlength := length_le_length_proofs keccak256 (inputs.zipIdx.map fun p ↦
    hashAcceptedEscapeCollateralLeaf keccak256 hexToAddress batchID p.2 p.1)
  rw [List.length_map, ← List.length_map (escapeLeaf keccak256 hexToAddress batchID).uncurry] at hlength
  rw [escapeTree, List.map_zipWith]
  refine (zipWith_of_le AcceptedEscapeLeaf.claimAmount hlength).trans ?_
  rw [List.map_map]
  exact (List.map_map (f := Prod.fst) (g := EscapeLeafInput.claimAmount)).symm.trans
    (congrArg _ (List.zipIdx_map_fst 0 inputs))

/-- The factor between accounting and chain units of the collateral. -/
def collateralScale : ℤ := 10000

theorem accountingToAssetChainAmount_collateral {amount value : ℤ}
    (h : Assets.accountingToAssetChainAmount Assets.defaultCollateralAsset amount = some value) :
    0 ≤ amount ∧ value = collateralScale * amount ∧ value ≤ maxInt64 := by
  have hchain : Assets.chainDecimals Assets.defaultCollateralAsset = 6 := by decide
  have hdigits : Assets.accountingDigits Assets.defaultCollateralAsset = 2 := by decide
  have hfactor : Assets.pow10Int64 (6 - 2) = some 10000 := by decide
  rw [Assets.accountingToAssetChainAmount, hchain, hdigits, Assets.accountingToChainAmount] at h
  split_ifs at h with hneg hrange hsame
  · cases hsame
  · dsimp only at h
    rw [if_pos (by decide), hfactor, Option.bind_some] at h
    split_ifs at h with hlarge
    obtain rfl := Option.some.inj h
    refine ⟨not_lt.mp hneg, mul_comm _ _, ?_⟩
    exact (Int.le_ediv_iff_mul_le (by decide)).mp (not_lt.mp hlarge)

/-- What a balance is worth in chain units, as collateral. -/
def AcceptedBalance.worth (balance : AcceptedBalance) : ℤ :=
  if IsCollateral balance.asset then collateralScale * max (balance.available + balance.frozen) 0 else 0

variable {walletByAccount : ℤ → String}

/-- A balance gives at most what it is worth. -/
theorem claimAmount_escapeLeafInput_le {balance : AcceptedBalance} {found : Option EscapeLeafInput}
    (h : escapeLeafInput walletByAccount balance = some found) :
    (found.map EscapeLeafInput.claimAmount).getD 0 ≤ balance.worth := by
  have hscale : 0 ≤ collateralScale * max (balance.available + balance.frozen) 0 :=
    mul_nonneg (by decide) (le_max_right _ _)
  rw [escapeLeafInput] at h
  rw [AcceptedBalance.worth]
  split_ifs at h with hasset hpos
  · obtain rfl := Option.some.inj h
    rw [if_pos hasset]
    exact hscale
  · rw [if_pos hasset]
    obtain ⟨value, hvalue, rfl⟩ := Option.map_eq_some_iff.mp h
    obtain ⟨-, hscaled, -⟩ := accountingToAssetChainAmount_collateral hvalue
    dsimp only
    split_ifs
    · exact hscale
    · rw [Option.map_some, Option.getD_some, hscaled, max_eq_left (not_le.mp hpos).le]
  · obtain rfl := Option.some.inj h
    rw [if_neg hasset]
    exact le_refl _

theorem sum_found_le {balances : List AcceptedBalance} {found : List (Option EscapeLeafInput)}
    (h : balances.mapM (escapeLeafInput walletByAccount) = some found) :
    (found.reduceOption.map EscapeLeafInput.claimAmount).sum ≤ (balances.map AcceptedBalance.worth).sum := by
  induction balances generalizing found with
  | nil =>
    obtain rfl : [] = found := by simpa using h
    exact le_refl _
  | cons balance balances ih =>
    rw [List.mapM_cons] at h
    obtain ⟨first, hfirst, hrest⟩ := Option.bind_eq_some_iff.mp h
    obtain ⟨rest, hmap, hfound⟩ := Option.bind_eq_some_iff.mp hrest
    obtain rfl := Option.some.inj hfound
    have hle := claimAmount_escapeLeafInput_le hfirst
    have hih := ih hmap
    rw [List.map_cons, List.sum_cons]
    cases first with
    | none =>
      rw [List.reduceOption_cons_of_none]
      exact le_add_of_nonneg_of_le hle hih
    | some input =>
      rw [List.reduceOption_cons_of_some, List.map_cons, List.sum_cons]
      exact add_le_add hle hih

/-- **What the leaves add up to.** At most what the balances are worth. -/
theorem sum_claimAmounts_le {stateRoot : String} {balances : List AcceptedBalance} {root : AcceptedEscapeRoot}
    {leaves : List AcceptedEscapeLeaf}
    (h : buildAcceptedEscapeCollateralSnapshot keccak256 hexToAddress batchID stateRoot balances
      walletByAccount = some (root, leaves)) :
    (leaves.map AcceptedEscapeLeaf.claimAmount).sum ≤ (balances.map AcceptedBalance.worth).sum := by
  obtain ⟨found, hfound, hbuilt⟩ := Option.map_eq_some_iff.mp h
  have hleaves : (escapeTree keccak256 hexToAddress batchID
      (found.reduceOption.insertionSort EscapeLeafInput.le)).2 = leaves := congrArg Prod.snd hbuilt
  rw [← hleaves, claimAmounts_escapeTree,
    ((List.perm_insertionSort EscapeLeafInput.le found.reduceOption).map _).sum_eq]
  exact sum_found_le hfound

end FunnyOption.Rollup
