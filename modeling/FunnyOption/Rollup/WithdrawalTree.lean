import FunnyOption.Rollup.Core
import FunnyOption.Shared.Assets
import FunnyOption.Shared.Auth

/-!
# Claims of accepted withdrawals

When a batch is accepted, the store builds a tree over its withdrawals and keeps a leaf for each of them,
with the proof and the id under which the withdrawal can be claimed at the contract.

The store and the contract do not agree on what they hash. The store hashes the text of an address, the
contract its 20 bytes, in the leaf and in the id of the claim. And the root that the contract holds is not
the root of the tree: it is the commitment of the replayed state, a hash of the JSON of its withdrawals. So
no leaf can be claimed under its id: `withdrawal_unclaimable`.
-/

open Foundation

namespace FunnyOption.Rollup

/-! ## The tree -/

/-- `AcceptedWithdrawalRecord`, as far as the tree uses it. -/
structure AcceptedWithdrawal where
  withdrawalID : String
  accountID : ℤ
  walletAddress : String
  recipientAddress : String
  asset : String
  amount : ℤ
  requestSequence : ℕ
  deriving DecidableEq

/-- `AcceptedWithdrawalLeafRecord`, without what happens to it later. -/
structure AcceptedWithdrawalLeaf where
  batchID : ℕ
  withdrawalID : String
  accountID : ℤ
  walletAddress : String
  recipientAddress : String
  amount : ℤ
  leafIndex : ℕ
  leafHash : String
  proofHashes : List String
  claimID : String
  deriving DecidableEq

section Tree

variable (keccak256 : Bytes → Bytes32)

/-- `int64ToBytes`. -/
def int64ToBytes (value : ℤ) : Bytes := List.replicate 24 0 ++ uintBytes 8 value.toNat

/-- What `hashWithdrawalLeaf` hashes. -/
def leafMessage (batchID leafIndex : ℕ) (withdrawalID walletAddress : String) (amount : ℤ)
    (recipientAddress : String) : Bytes :=
  stringBytes "funny-rollup-withdrawal-leaf-v1" ++ uintBytes 8 batchID ++ uintBytes 8 leafIndex ++
    (keccak256 (stringBytes withdrawalID)).1 ++ stringBytes (Auth.normalizeHex walletAddress) ++
    int64ToBytes amount ++ stringBytes (Auth.normalizeHex recipientAddress)

/-- What `buildWithdrawalClaimID` hashes. -/
def claimIDMessage (batchID leafIndex : ℕ) (withdrawalID walletAddress : String) : Bytes :=
  stringBytes "funny-rollup-withdrawal-claim-v1" ++ uintBytes 8 batchID ++ uintBytes 8 leafIndex ++
    (keccak256 (stringBytes withdrawalID)).1 ++ stringBytes (Auth.normalizeHex walletAddress)

/-- The leaf of a withdrawal, without its proof, and the hash of the leaf. -/
def buildLeaf (batchID : ℕ) (w : AcceptedWithdrawal) (index : ℕ) : Option (AcceptedWithdrawalLeaf × Bytes32) :=
  (Assets.accountingToAssetChainAmount (Assets.normalizeAsset w.asset) w.amount).map fun amount ↦
    let wallet := Auth.normalizeHex w.walletAddress
    let recipient := Auth.normalizeHex w.recipientAddress
    let hash := keccak256 (leafMessage keccak256 batchID index w.withdrawalID wallet amount recipient)
    (⟨batchID, w.withdrawalID, w.accountID, wallet, recipient, amount, index, encodeHex0x hash.1, [],
      encodeHex0x (keccak256 (claimIDMessage keccak256 batchID index w.withdrawalID wallet)).1⟩, hash)

/-- `BuildAcceptedWithdrawalMerkleTree`: the root and the leaves. -/
def buildAcceptedWithdrawalMerkleTree (batchID : ℕ) (withdrawals : List AcceptedWithdrawal) :
    Option (Option Bytes32 × List AcceptedWithdrawalLeaf) :=
  let sorted := withdrawals.insertionSort fun a b ↦ a.requestSequence ≤ b.requestSequence
  (sorted.zipIdx.mapM fun p ↦ buildLeaf keccak256 batchID p.1 p.2).map fun leaves ↦
    let tree := buildWithdrawalMerkleTree keccak256 (leaves.map Prod.snd)
    (tree.1, (leaves.map Prod.fst).zipWith (fun leaf proof ↦ { leaf with proofHashes := proof }) tree.2)

end Tree

/-! ## The root on chain -/

/-- `hashStrings`, as the bytes that its text writes out. -/
def hashStrings (sha256 : Bytes → Bytes32) (parts : List String) : Bytes32 :=
  sha256 (parts.flatMap fun part ↦ uintBytes 8 (stringBytes part).length ++ stringBytes part)

/-- The `WithdrawalsRoot` of `roots`, which the submitter sends as a public input. The withdrawals of the
replayed state are given by their id and the JSON of their leaf. -/
def withdrawalsRoot (sha256 : Bytes → Bytes32) (withdrawals : List (String × String)) : Bytes32 :=
  if withdrawals = [] then hashStrings sha256 ["shadow", "withdrawals", "empty"]
  else
    let sorted := withdrawals.insertionSort fun a b ↦ a.1 ≤ b.1
    hashStrings sha256 ("shadow" :: "withdrawals" :: sorted.map fun w ↦
      encodeHex (hashStrings sha256 ["withdrawals", w.1, w.2]).1)

/-! ## Claims -/

variable {keccak256 : Bytes → Bytes32}

/-- The wallet of a leaf claims it with the data of the leaf, and the vault is called with the id that the
leaf states. -/
def Claimable (keccak256 : Bytes → Bytes32) (core : RollupCore) (leaf : AcceptedWithdrawalLeaf)
    (wallet recipient : Address) : Prop :=
  ∃ (proof : List Bytes32) (claimID : Bytes32), leaf.proofHashes = proof.map (fun item ↦ encodeHex0x item.1) ∧
    core.claimAcceptedWithdrawal keccak256 wallet leaf.batchID leaf.leafIndex
      (keccak256 (stringBytes leaf.withdrawalID)) leaf.amount.toNat recipient proof = .ok claimID ∧
    encodeHex0x claimID.1 = leaf.claimID

theorem length_of_decodeHexList {l : List Char} {b : Bytes} (h : decodeHexList l = some b) :
    l.length = 2 * b.length := by
  induction l using decodeHexList.induct generalizing b with
  | case1 =>
    obtain rfl : [] = b := Option.some.inj h
    rfl
  | case2 c => exact absurd h (by simp [decodeHexList])
  | case3 c d l ih =>
    simp only [decodeHexList, Option.bind_eq_bind, Option.bind_eq_some_iff, pure, Option.some.injEq] at h
    obtain ⟨hi, -, lo, -, rest, hrest, rfl⟩ := h
    have hlength := ih hrest
    simp only [List.length_cons, hlength]
    omega

theorem length_trimSpace_le (s : String) : (trimSpace s).toList.length ≤ s.toList.length := by
  rw [trimSpace, String.toList_ofList, List.length_reverse]
  calc ((s.toList.dropWhile isSpace).reverse.dropWhile isSpace).length
      ≤ (s.toList.dropWhile isSpace).reverse.length := (List.dropWhile_sublist _).length_le
    _ = (s.toList.dropWhile isSpace).length := List.length_reverse
    _ ≤ s.toList.length := (List.dropWhile_sublist _).length_le

theorem length_trimPrefix_le (s p : String) : (trimPrefix s p).toList.length ≤ s.toList.length := by
  rw [trimPrefix]
  split_ifs
  · rw [String.toList_ofList, List.length_drop]
    exact Nat.sub_le _ _
  · exact le_rfl

/-- The text of an address is longer than the address. -/
theorem le_length_stringBytes_of_decode {text : String} {address : Address}
    (h : decodeTrimmedHex text = some address.1) : 40 ≤ (stringBytes text).length := by
  have hdigits := length_of_decodeHexList h
  rw [address.2] at hdigits
  calc 40 = (trimPrefix (trimSpace text) "0x").toList.length := hdigits.symm
    _ ≤ (trimSpace text).toList.length := length_trimPrefix_le _ _
    _ ≤ text.toList.length := length_trimSpace_le text
    _ ≤ (stringBytes text).length := length_le_length_stringBytes text

/-! ### What a leaf states -/

/-- The hash and the id of a leaf are those of the data it states. -/
structure Stated (keccak256 : Bytes → Bytes32) (leaf : AcceptedWithdrawalLeaf) : Prop where
  leafHash : leaf.leafHash = encodeHex0x (keccak256 (leafMessage keccak256 leaf.batchID leaf.leafIndex
    leaf.withdrawalID leaf.walletAddress leaf.amount leaf.recipientAddress)).1
  claimID : leaf.claimID = encodeHex0x (keccak256 (claimIDMessage keccak256 leaf.batchID leaf.leafIndex
    leaf.withdrawalID leaf.walletAddress)).1
  wallet : Auth.normalizeHex leaf.walletAddress = leaf.walletAddress
  recipient : Auth.normalizeHex leaf.recipientAddress = leaf.recipientAddress

theorem normalizeHex_normalizeHex (value : String) :
    Auth.normalizeHex (Auth.normalizeHex value) = Auth.normalizeHex value := by
  rw [Auth.normalizeHex, Auth.normalizeHex, trimSpace_toLower, trimSpace_trimSpace, toLower_toLower]

theorem stated_buildLeaf {batchID index : ℕ} {w : AcceptedWithdrawal} {built : AcceptedWithdrawalLeaf × Bytes32}
    (h : buildLeaf keccak256 batchID w index = some built) : Stated keccak256 built.1 := by
  obtain ⟨amount, -, rfl⟩ := Option.map_eq_some_iff.mp h
  exact ⟨rfl, rfl, normalizeHex_normalizeHex _, normalizeHex_normalizeHex _⟩

theorem exists_of_mem_mapM {α β : Type*} {f : α → Option β} {l : List α} {ys : List β} {y : β}
    (h : l.mapM f = some ys) (hy : y ∈ ys) : ∃ a ∈ l, f a = some y := by
  induction l generalizing ys with
  | nil =>
    obtain rfl : [] = ys := by simpa using h
    exact absurd hy List.not_mem_nil
  | cons a l ih =>
    simp only [List.mapM_cons, Option.bind_eq_bind, Option.bind_eq_some_iff, pure, Option.some.injEq] at h
    obtain ⟨b, hb, rest, hrest, rfl⟩ := h
    rcases List.mem_cons.mp hy with rfl | hy
    · exact ⟨a, List.mem_cons_self, hb⟩
    · obtain ⟨a', ha', hfa'⟩ := ih hrest hy
      exact ⟨a', List.mem_cons_of_mem a ha', hfa'⟩

/-- Every leaf of the tree states its own hash and id. -/
theorem stated_of_mem {batchID : ℕ} {withdrawals : List AcceptedWithdrawal} {root : Option Bytes32}
    {leaves : List AcceptedWithdrawalLeaf} {leaf : AcceptedWithdrawalLeaf}
    (hbuild : buildAcceptedWithdrawalMerkleTree keccak256 batchID withdrawals = some (root, leaves))
    (hleaf : leaf ∈ leaves) : Stated keccak256 leaf := by
  obtain ⟨built, hbuilt, heq⟩ := Option.map_eq_some_iff.mp hbuild
  obtain ⟨-, rfl⟩ := Prod.mk.inj heq
  rw [List.zipWith_eq_zipWith_take_min, ← List.map_uncurry_zip_eq_zipWith] at hleaf
  obtain ⟨⟨bare, proof⟩, hmem, rfl⟩ := List.mem_map.mp hleaf
  obtain ⟨pair, hpair, rfl⟩ := List.mem_map.mp (List.mem_of_mem_take (List.of_mem_zip hmem).1)
  obtain ⟨w, -, hw⟩ := exists_of_mem_mapM hbuilt hpair
  have h := stated_buildLeaf hw
  exact ⟨h.leafHash, h.claimID, h.wallet, h.recipient⟩

/-- The messages that the store and the contract hash for one leaf. -/
def messages (keccak256 : Bytes → Bytes32) (leaf : AcceptedWithdrawalLeaf)
    (wallet recipient : Address) : Set Bytes :=
  {claimIDMessage keccak256 leaf.batchID leaf.leafIndex leaf.withdrawalID leaf.walletAddress,
    RollupCore.claimMessage leaf.batchID leaf.leafIndex (keccak256 (stringBytes leaf.withdrawalID))
      wallet,
    leafMessage keccak256 leaf.batchID leaf.leafIndex leaf.withdrawalID leaf.walletAddress leaf.amount
      leaf.recipientAddress,
    RollupCore.leafMessage leaf.batchID leaf.leafIndex (keccak256 (stringBytes leaf.withdrawalID)) wallet
      leaf.amount.toNat recipient}

theorem RollupCore.claimAcceptedWithdrawal_ok {core : RollupCore} {sender recipient : Address}
    {batchId leafIndex amount : ℕ} {withdrawalId claimID : Bytes32} {proof : List Bytes32}
    (h : core.claimAcceptedWithdrawal keccak256 sender batchId leafIndex withdrawalId amount recipient
      proof = .ok claimID) : claimID = keccak256 (claimMessage batchId leafIndex withdrawalId sender) := by
  unfold claimAcceptedWithdrawal at h
  split_ifs at h
  exact (Except.ok.inj h).symm

/-- **No withdrawal can be claimed under the id of its leaf.** The id that the contract computes is
another one, whatever root it holds, and so is the hash it computes for the leaf. -/
theorem withdrawal_unclaimable (core : RollupCore) {batchID : ℕ}
    {withdrawals : List AcceptedWithdrawal} {root : Option Bytes32}
    {leaves : List AcceptedWithdrawalLeaf} {leaf : AcceptedWithdrawalLeaf} {wallet recipient : Address}
    (hbuild : buildAcceptedWithdrawalMerkleTree keccak256 batchID withdrawals = some (root, leaves))
    (hleaf : leaf ∈ leaves) (hwallet : decodeTrimmedHex leaf.walletAddress = some wallet.1)
    (hrecipient : decodeTrimmedHex leaf.recipientAddress = some recipient.1)
    (hfree : Set.InjOn keccak256 (messages keccak256 leaf wallet recipient)) :
    ¬ Claimable keccak256 core leaf wallet recipient ∧
      encodeHex0x (RollupCore.hashWithdrawalLeaf keccak256 leaf.batchID leaf.leafIndex
        (keccak256 (stringBytes leaf.withdrawalID)) wallet leaf.amount.toNat recipient).1 ≠
          leaf.leafHash := by
  have hstated := stated_of_mem hbuild hleaf
  have hwalletText := le_length_stringBytes_of_decode hwallet
  have hrecipientText := le_length_stringBytes_of_decode hrecipient
  constructor
  · rintro ⟨proof, claimID, -, hclaim, hid⟩
    rw [hstated.claimID, RollupCore.claimAcceptedWithdrawal_ok hclaim] at hid
    have hmessage := hfree (by simp [messages]) (by simp [messages])
      (Subtype.ext (encodeHex0x_injective hid))
    have hlength := congrArg List.length hmessage
    simp only [RollupCore.claimMessage, claimIDMessage, hstated.wallet, List.length_append, wallet.2] at hlength
    omega
  · intro hhash
    rw [hstated.leafHash, RollupCore.hashWithdrawalLeaf] at hhash
    have hmessage := hfree (by simp [messages]) (by simp [messages])
      (Subtype.ext (encodeHex0x_injective hhash))
    have hlength := congrArg List.length hmessage
    simp only [RollupCore.leafMessage, leafMessage, hstated.wallet, hstated.recipient,
      int64ToBytes, List.length_append, length_uintBytes, List.length_replicate, wallet.2,
      recipient.2] at hlength
    omega

/-! ### Samples -/

section Samples

/-- A hash that tells messages of different length apart. -/
private def lengthHash (x : Bytes) : Bytes32 := constBytes32 (UInt8.ofNat x.length)

private def sampleAddress : Address := ⟨List.replicate 20 17, List.length_replicate⟩

/-- The text of the address. -/
private def sampleText : String := "0x1111111111111111111111111111111111111111"

private def sampleWithdrawal : AcceptedWithdrawal := ⟨"w", 7, sampleText, sampleText, "USDT", 5, 3⟩

private def sampleLeaf : AcceptedWithdrawalLeaf where
  batchID := 1
  withdrawalID := "w"
  accountID := 7
  walletAddress := sampleText
  recipientAddress := sampleText
  amount := 50000
  leafIndex := 0
  leafHash := encodeHex0x (List.replicate 32 195)
  proofHashes := []
  claimID := encodeHex0x (List.replicate 32 122)

/-- The public inputs of the batch. The state after it has one withdrawal. -/
private def sampleInputs : VerifierPublicInputs :=
  { VerifierPublicInputs.zero with
    batchId := 1
    withdrawalsRoot := withdrawalsRoot lengthHash [("w", "j")]
    nextStateRoot := constBytes32 2 }

/-- The contract after the batch was accepted. -/
private def sampleCore : RollupCore :=
  RollupCore.accept { RollupCore.new sampleAddress (constBytes32 1) with vault := sampleAddress }
    sampleInputs ⟨sampleInputs, constBytes32 3, constBytes32 4⟩

private theorem build_sample : buildAcceptedWithdrawalMerkleTree lengthHash 1 [sampleWithdrawal] =
      some (some (constBytes32 195), [sampleLeaf]) := by
  decide +kernel

private theorem length_of_lengthHash_eq {x y : Bytes} (h : lengthHash x = lengthHash y) :
    x.length % 256 = y.length % 256 := by
  have hhead := congrArg (fun v : Bytes32 ↦ v.1.head?.map UInt8.toNat) h
  simpa [lengthHash, constBytes32] using hhead

private def sampleMessages : List Bytes :=
  [claimIDMessage lengthHash 1 0 "w" sampleText,
    RollupCore.claimMessage 1 0 (lengthHash (stringBytes "w")) sampleAddress,
    leafMessage lengthHash 1 0 "w" sampleText 50000 sampleText,
    RollupCore.leafMessage 1 0 (lengthHash (stringBytes "w")) sampleAddress 50000 sampleAddress]

/-- The four messages have different lengths. -/
private theorem messages_sample :
    Set.InjOn lengthHash (messages lengthHash sampleLeaf sampleAddress sampleAddress) := by
  have hlengths : ∀ x ∈ sampleMessages, ∀ y ∈ sampleMessages, x.length % 256 = y.length % 256 → x = y := by
    decide +kernel
  have hmem : ∀ x ∈ messages lengthHash sampleLeaf sampleAddress sampleAddress, x ∈ sampleMessages := by
    rintro x (rfl | rfl | rfl | rfl)
    · exact List.mem_cons_self
    · exact List.mem_cons_of_mem _ List.mem_cons_self
    · exact List.mem_cons_of_mem _ (List.mem_cons_of_mem _ List.mem_cons_self)
    · exact List.mem_cons_of_mem _ (List.mem_cons_of_mem _ (List.mem_cons_of_mem _ List.mem_cons_self))
  intro x hx y hy hxy
  exact hlengths x (hmem x hx) y (hmem y hy) (length_of_lengthHash_eq hxy)

/-- A batch with one withdrawal. The proof of its leaf is refused, and the id of the claim is not the one
that the leaf states. -/
theorem claim_refused : buildAcceptedWithdrawalMerkleTree lengthHash 1 [sampleWithdrawal] =
      some (some (constBytes32 195), [sampleLeaf]) ∧
    decodeTrimmedHex sampleLeaf.walletAddress = some sampleAddress.1 ∧
    Set.InjOn lengthHash (messages lengthHash sampleLeaf sampleAddress sampleAddress) ∧
    sampleCore.acceptedWithdrawalRoots 1 = withdrawalsRoot lengthHash [("w", "j")] ∧
    sampleCore.claimAcceptedWithdrawal lengthHash sampleAddress 1 0 (lengthHash (stringBytes "w")) 50000
      sampleAddress [] = .error .invalidWithdrawalProof ∧
    encodeHex0x (lengthHash (RollupCore.claimMessage 1 0 (lengthHash (stringBytes "w"))
      sampleAddress)).1 ≠ sampleLeaf.claimID :=
  ⟨build_sample, by decide +kernel, messages_sample, by decide +kernel, by decide +kernel, by decide +kernel⟩

theorem withdrawal_unclaimable_sample : ¬ Claimable lengthHash sampleCore sampleLeaf sampleAddress sampleAddress :=
  (withdrawal_unclaimable sampleCore build_sample List.mem_cons_self (by decide +kernel)
    (by decide +kernel) messages_sample).1

end Samples

end FunnyOption.Rollup
