import FunnyOption.Foundation.HashTree
import FunnyOption.Foundation.Text

/-!
# The accepted-batch Merkle trees

After a batch is accepted, two trees are published: one over the collateral every account may
escape with (`escape_collateral.go`) and one over the withdrawals of the batch
(`withdrawal_tree.go`). Both files contain the same builder, up to the tag hashed for an empty
tree, and the same verifier; the contract `FunnyRollupCore` repeats the verifier's fold on
`bytes32` values.

The hash is an arbitrary function to 32 bytes. The two arrays `level` and `indexes`, which the
builder keeps in step, are one list of pairs here.

## What the builder emits

Beside each node the builder carries one leaf index, the smaller one of the two below it. A sibling
is therefore appended to the proof of that single leaf, and a leaf stops receiving siblings as soon
as it is a right child. In the terms of the hash tree the emitted proof is the left path of the
leaf, written in hexadecimal (`getElem?_buildMerkleTree`), and the trees in which it reaches the
root are known from there.
-/

open Foundation

namespace FunnyOption

/-- A byte string. -/
abbrev Bytes := List UInt8

/-- A value of 32 bytes, the output of `crypto.Keccak256` and Solidity's `bytes32`. -/
abbrev Bytes32 := {b : Bytes // b.length = 32}

section Model

variable (keccak256 : Bytes → Bytes32)

/-- `crypto.Keccak256(left, right)`: the arguments are hashed one after the other. -/
def hashPair (left right : Bytes32) : Bytes32 := keccak256 (left.1 ++ right.1)

/-! ## The builder -/

/-- `proofs[index] = append(proofs[index], item)` under the guard `index < len(proofs)`. -/
def appendProof (proofs : List (List String)) (index : ℕ) (item : Bytes32) : List (List String) :=
  if index < proofs.length then proofs.modify index (· ++ [encodeHex0x item.1]) else proofs

/-- The inner loop: take the nodes two by two, hand each its sibling, and collect the level above
with the smaller index of each pair. -/
def pairLoop : List (Bytes32 × ℕ) → List (List String) → List (Bytes32 × ℕ) × List (List String)
  | (left, leftIndex) :: (right, rightIndex) :: nodes, proofs =>
    let proofs := appendProof proofs leftIndex right
    let proofs := if rightIndex ≠ leftIndex then appendProof proofs rightIndex left else proofs
    let next := pairLoop nodes proofs
    ((hashPair keccak256 left right, min leftIndex rightIndex) :: next.1, next.2)
  | _, proofs => ([], proofs)

/-- A level of odd length gets its last node a second time. -/
def padOdd {α : Type*} (nodes : List α) : List α :=
  if nodes.length % 2 = 1 then nodes ++ nodes.getLast?.toList else nodes

theorem length_pairLoop : ∀ (nodes : List (Bytes32 × ℕ)) (proofs : List (List String)),
    (pairLoop keccak256 nodes proofs).1.length = nodes.length / 2
  | [], _ => by simp [pairLoop]
  | [_], _ => by simp [pairLoop]
  | _ :: _ :: nodes, proofs => by
    simp only [pairLoop, List.length_cons, length_pairLoop nodes]
    omega

theorem length_padOdd {α : Type*} (nodes : List α) : (padOdd nodes).length / 2 = (nodes.length + 1) / 2 := by
  rw [padOdd]
  split_ifs with hodd
  · cases nodes with
    | nil => simp at hodd
    | cons a l => simp [List.getLast?_cons]
  · omega

/-- The outer loop, until one node is left. -/
def levelLoop (nodes : List (Bytes32 × ℕ)) (proofs : List (List String)) : List (Bytes32 × ℕ) × List (List String) :=
  if 1 < nodes.length then
    let next := pairLoop keccak256 (padOdd nodes) proofs
    levelLoop next.1 next.2
  else (nodes, proofs)
termination_by nodes.length
decreasing_by
  rw [length_pairLoop, length_padOdd]
  omega

/-- The body shared by the two builders. `emptyTag` is what is hashed for an empty tree. The root
is absent only if the loop ends on an empty level, which it does not
(`buildMerkleTree_root`). -/
def buildMerkleTree (emptyTag : String) (leaves : List Bytes32) : Option Bytes32 × List (List String) :=
  if leaves = [] then (some (keccak256 emptyTag.toUTF8.toList), [])
  else
    let final := levelLoop keccak256 leaves.zipIdx (List.replicate leaves.length [])
    (final.1.head?.map Prod.fst, final.2)

/-- `buildAcceptedEscapeMerkleTree` of `escape_collateral.go`. -/
def buildAcceptedEscapeMerkleTree : List Bytes32 → Option Bytes32 × List (List String) :=
  buildMerkleTree keccak256 "funny-rollup-empty-escape-collateral-root"

/-- `buildWithdrawalMerkleTree` of `withdrawal_tree.go`. -/
def buildWithdrawalMerkleTree : List Bytes32 → Option Bytes32 × List (List String) :=
  buildMerkleTree keccak256 "funny-rollup-empty-withdrawal-root"

/-! ## The verifiers -/

/-- The loop of the Go verifiers. The index is an `int64`, whose `%` and `/` truncate. -/
def verifyFold : ℤ → Bytes → List Bytes → Bytes
  | _, current, [] => current
  | index, current, sibling :: proof =>
    verifyFold (index.tdiv 2)
      (if index.tmod 2 = 0 then keccak256 (current ++ sibling) else keccak256 (sibling ++ current))
      proof

/-- `DecodeEscapeProofHex`: the first item that does not decode is an error. -/
def decodeEscapeProofHex (proof : List String) : Option (List Bytes) := proof.mapM decodeTrimmedHex

/-- The body shared by the two Go verifiers. A text that does not decode is rejected. -/
def verifyProof (rootHex leafHex : String) (proof : List String) (leafIndex : ℤ) : Bool :=
  match decodeTrimmedHex rootHex, decodeTrimmedHex leafHex, decodeEscapeProofHex proof with
  | some root, some current, some siblings =>
    verifyFold keccak256 leafIndex current siblings == root
  | _, _, _ => false

/-- `VerifyAcceptedEscapeCollateralProof` of `escape_collateral.go`. -/
def verifyAcceptedEscapeCollateralProof : String → String → List String → ℤ → Bool := verifyProof keccak256

/-- `VerifyAcceptedWithdrawalProof` of `withdrawal_tree.go`. -/
def verifyAcceptedWithdrawalProof : String → String → List String → ℤ → Bool := verifyProof keccak256

/-- The loop of `_verifyMerkleProof` in `FunnyRollupCore.sol`. -/
def contractFold : ℕ → Bytes32 → List Bytes32 → Bytes32
  | _, computed, [] => computed
  | index, computed, sibling :: proof =>
    contractFold (index / 2)
      (if index % 2 = 0 then keccak256 (computed.1 ++ sibling.1)
        else keccak256 (sibling.1 ++ computed.1))
      proof

/-- `_verifyMerkleProof` in `FunnyRollupCore.sol`. -/
def contractVerifyMerkleProof (root leaf : Bytes32) (leafIndex : ℕ) (proof : List Bytes32) : Bool :=
  contractFold keccak256 leafIndex leaf proof == root

end Model

section Refinement

variable (keccak256 : Bytes → Bytes32)

/-! ## One level

On its way up the builder meets a node of the level `w = 2 ^ t` with the index `j * w` of the
leftmost leaf below it. `label` states that form, from a starting position for the inner loop. -/

/-- A level whose nodes carry the indexes `s * w, (s + 1) * w, …`. -/
def label (w s : ℕ) (l : List Bytes32) : List (Bytes32 × ℕ) := (l.zipIdx s).map fun p ↦ (p.1, p.2 * w)

@[simp]
theorem label_nil (w s : ℕ) : label w s [] = [] := rfl

@[simp]
theorem label_cons (w s : ℕ) (a : Bytes32) (l : List Bytes32) :
    label w s (a :: l) = (a, s * w) :: label w (s + 1) l := rfl

@[simp]
theorem length_label (w s : ℕ) (l : List Bytes32) : (label w s l).length = l.length := by
  simp [label]

theorem le_of_mem_label {w s : ℕ} {l : List Bytes32} {p : Bytes32 × ℕ} (hp : p ∈ label w s l) : s * w ≤ p.2 := by
  induction l generalizing s with
  | nil => simp at hp
  | cons a l ih =>
    rcases List.mem_cons.mp (label_cons w s a l ▸ hp) with rfl | hp
    · exact le_rfl
    · exact (Nat.mul_le_mul_right w (Nat.le_succ s)).trans (ih hp)

theorem dvd_of_mem_label {w s : ℕ} {l : List Bytes32} {p : Bytes32 × ℕ} (hp : p ∈ label w s l) : w ∣ p.2 := by
  simp only [label, List.mem_map] at hp
  obtain ⟨q, -, rfl⟩ := hp
  exact dvd_mul_left _ _

theorem padOdd_cons_cons {α : Type*} (a b : α) (l : List α) : padOdd (a :: b :: l) = a :: b :: padOdd l := by
  have hparity : (a :: b :: l).length % 2 = l.length % 2 := by
    simp only [List.length_cons]
    omega
  rw [padOdd, padOdd, hparity]
  split_ifs with hodd
  · cases l with
    | nil => simp at hodd
    | cons c l => simp [List.getLast?_cons]
  · rfl

theorem mem_padOdd {α : Type*} {a : α} {l : List α} : a ∈ padOdd l ↔ a ∈ l := by
  rw [padOdd]
  split_ifs
  · rw [List.mem_append, Option.mem_toList]
    exact or_iff_left_of_imp List.mem_of_getLast?
  · rfl

theorem getElem?_appendProof (proofs : List (List String)) (index x : ℕ) (item : Bytes32) :
    (appendProof proofs index item)[x]? =
      proofs[x]?.map fun p ↦ if index = x then p ++ [encodeHex0x item.1] else p := by
  rw [appendProof]
  by_cases hindex : index < proofs.length
  · rw [if_pos hindex, List.getElem?_modify]
    rfl
  · rw [if_neg hindex]
    cases hx : proofs[x]? with
    | none => rfl
    | some p =>
      obtain ⟨hlt, -⟩ := List.getElem?_eq_some_iff.mp hx
      rw [Option.map_some, if_neg (by omega)]

theorem getElem?_appendProof_of_ne {proofs : List (List String)} {index x : ℕ} {item : Bytes32} (hx : index ≠ x) :
    (appendProof proofs index item)[x]? = proofs[x]? := by
  rw [getElem?_appendProof]
  simp [hx]

/-- The inner loop leaves the proofs of other leaves alone. -/
theorem getElem?_pairLoop_of_forall_ne {x : ℕ} :
    ∀ (nodes : List (Bytes32 × ℕ)) (proofs : List (List String)), (∀ p ∈ nodes, p.2 ≠ x) →
      (pairLoop keccak256 nodes proofs).2[x]? = proofs[x]?
  | [], _, _ => by simp [pairLoop]
  | [_], _, _ => by simp [pairLoop]
  | (left, leftIndex) :: (right, rightIndex) :: nodes, proofs, hx => by
    simp only [List.forall_mem_cons] at hx
    obtain ⟨hleft, hright, hnodes⟩ := hx
    rw [pairLoop]
    simp only
    rw [getElem?_pairLoop_of_forall_ne nodes _ hnodes]
    split_ifs
    · rw [getElem?_appendProof_of_ne hright, getElem?_appendProof_of_ne hleft]
    · rw [getElem?_appendProof_of_ne hleft]

/-- The inner loop builds the level above, with the labels of that level. -/
theorem pairLoop_label_fst (w : ℕ) : ∀ (l : List Bytes32) (s : ℕ) (proofs : List (List String)),
      (pairLoop keccak256 (padOdd (label w (2 * s) l)) proofs).1 = label (2 * w) s (nextLevel (hashPair keccak256) l)
  | [], s, _ => by simp [padOdd, pairLoop, nextLevel]
  | [a], s, _ => by
    simp only [label_cons, label_nil, padOdd, List.length_singleton, List.getLast?_singleton,
      Option.toList_some, List.singleton_append, pairLoop, nextLevel, if_pos, min_self]
    rw [Nat.mul_assoc, Nat.mul_left_comm]
  | a :: b :: l, s, proofs => by
    have hmin : min (2 * s * w) ((2 * s + 1) * w) = s * (2 * w) := by
      rw [min_eq_left (Nat.mul_le_mul_right w (Nat.le_succ _)), Nat.mul_assoc, Nat.mul_left_comm]
    rw [label_cons, label_cons, padOdd_cons_cons, pairLoop, nextLevel, label_cons, hmin]
    exact congrArg _ (pairLoop_label_fst w l (s + 1) _)

/-- The inner loop hands every leaf it names the sibling of its node, and nothing else. -/
theorem getElem?_pairLoop_label {w : ℕ} (hw : 0 < w) :
    ∀ (l : List Bytes32) (s : ℕ) (proofs : List (List String)) (j : ℕ) (t : Bytes32),
      j < l.length → sibling l j = some t →
      (pairLoop keccak256 (padOdd (label w (2 * s) l)) proofs).2[(2 * s + j) * w]? =
        proofs[(2 * s + j) * w]?.map (· ++ [encodeHex0x t.1])
  | [], _, _, _, _, hj, _ => by simp at hj
  | [a], s, proofs, j, t, hj, ht => by
    obtain rfl : j = 0 := by simpa using hj
    obtain rfl : a = t := by simpa [sibling] using ht
    simp [padOdd, pairLoop, getElem?_appendProof]
  | a :: b :: l, s, proofs, j, t, hj, ht => by
    have hlater : ∀ p ∈ padOdd (label w (2 * (s + 1)) l), (2 * s + 2) * w ≤ p.2 :=
      fun p hp ↦ le_of_mem_label (mem_padOdd.mp hp)
    have hlt₀ : 2 * s * w < (2 * s + 1) * w := Nat.mul_lt_mul_of_pos_right (by omega) hw
    have hlt₁ : (2 * s + 1) * w < (2 * s + 2) * w := Nat.mul_lt_mul_of_pos_right (by omega) hw
    rw [label_cons, label_cons, padOdd_cons_cons, pairLoop]
    simp only
    rw [if_pos hlt₀.ne']
    rcases j with _ | _ | j
    · obtain rfl : b = t := by simpa [sibling] using ht
      rw [Nat.add_zero (2 * s), getElem?_pairLoop_of_forall_ne keccak256 _ _ fun p hp ↦ by
        have := hlater p hp
        omega]
      rw [getElem?_appendProof_of_ne hlt₀.ne', getElem?_appendProof]
      simp
    · obtain rfl : a = t := by simpa [sibling] using ht
      rw [Nat.zero_add, getElem?_pairLoop_of_forall_ne keccak256 _ _ fun p hp ↦ by
        have := hlater p hp
        omega]
      rw [getElem?_appendProof, getElem?_appendProof_of_ne hlt₀.ne]
      simp
    · have hle : (2 * s + 2) * w ≤ (2 * s + (j + 2)) * w := Nat.mul_le_mul_right w (by omega)
      have hpos : 2 * s + (j + 2) = 2 * (s + 1) + j := by omega
      rw [sibling_cons_cons] at ht
      have ih := getElem?_pairLoop_label hw l (s + 1)
        (appendProof (appendProof proofs (2 * s * w) b) ((2 * s + 1) * w) a) j t
        (by simpa using hj) ht
      rw [hpos] at hle ⊢
      rw [getElem?_appendProof_of_ne (by omega), getElem?_appendProof_of_ne (by omega)] at ih
      exact ih

/-! ## The whole tree -/

theorem levelLoop_of_one_lt {w : ℕ} {l : List Bytes32} {proofs : List (List String)} (hl : 1 < l.length) :
    levelLoop keccak256 (label w 0 l) proofs =
      levelLoop keccak256 (label (2 * w) 0 (nextLevel (hashPair keccak256) l))
        (pairLoop keccak256 (padOdd (label w 0 l)) proofs).2 := by
  rw [levelLoop, if_pos (by simpa using hl)]
  simp only
  rw [← pairLoop_label_fst keccak256 w l 0 proofs]

theorem levelLoop_of_le_one {w : ℕ} {l : List Bytes32} {proofs : List (List String)} (hl : l.length ≤ 1) :
    levelLoop keccak256 (label w 0 l) proofs = (label w 0 l, proofs) := by
  rw [levelLoop, if_neg (by simpa using hl)]

/-- The loop ends on the root of the tree. -/
theorem levelLoop_root (w : ℕ) (l : List Bytes32) (proofs : List (List String)) :
    (levelLoop keccak256 (label w 0 l) proofs).1.head?.map Prod.fst =
      treeRoot (hashPair keccak256) l := by
  rcases Nat.lt_or_ge 1 l.length with hl | hl
  · rw [levelLoop_of_one_lt keccak256 hl, treeRoot_of_one_lt _ hl]
    exact levelLoop_root (2 * w) (nextLevel (hashPair keccak256) l) _
  · rw [levelLoop_of_le_one keccak256 hl, treeRoot_of_le_one _ hl]
    cases l with
    | nil => rfl
    | cons a l => rfl
termination_by l.length
decreasing_by
  rw [length_nextLevel]
  omega

/-- A leaf that is not leftmost below a node of the current level gets nothing more. -/
theorem getElem?_levelLoop_of_not_dvd {w x : ℕ} (hx : ¬ w ∣ x) (l : List Bytes32) (proofs : List (List String)) :
    (levelLoop keccak256 (label w 0 l) proofs).2[x]? = proofs[x]? := by
  rcases Nat.lt_or_ge 1 l.length with hl | hl
  · have hx' : ¬ 2 * w ∣ x := fun hd ↦ hx ((dvd_mul_left w 2).trans hd)
    rw [levelLoop_of_one_lt keccak256 hl, getElem?_levelLoop_of_not_dvd hx' (nextLevel (hashPair keccak256) l)]
    refine getElem?_pairLoop_of_forall_ne keccak256 _ _ fun p hp hpx ↦ hx ?_
    exact hpx ▸ dvd_of_mem_label (mem_padOdd.mp hp)
  · rw [levelLoop_of_le_one keccak256 hl]
termination_by l.length
decreasing_by
  rw [length_nextLevel]
  omega

/-- Every leaf that is leftmost below a node of the current level gets the left path of that
node. -/
theorem getElem?_levelLoop {w : ℕ} (hw : 0 < w) {l : List Bytes32} {j : ℕ} (hj : j < l.length)
    (proofs : List (List String)) :
    (levelLoop keccak256 (label w 0 l) proofs).2[j * w]? = proofs[j * w]?.map
        (· ++ (leftPath (hashPair keccak256) l j).map fun t ↦ encodeHex0x t.1) := by
  rcases Nat.lt_or_ge 1 l.length with hl | hl
  · obtain ⟨t, ht⟩ := exists_sibling hj
    have hround := getElem?_pairLoop_label keccak256 hw l 0 proofs j t hj ht
    rw [Nat.mul_zero, Nat.zero_add] at hround
    rw [levelLoop_of_one_lt keccak256 hl]
    rcases Nat.mod_two_eq_zero_or_one j with heven | hodd
    -- a left child: the same leaf stands for the node above
    · have hpos : j * w = j / 2 * (2 * w) := by
        rw [← Nat.mul_assoc, Nat.div_mul_cancel (Nat.dvd_of_mod_eq_zero heven)]
      have hj' : j / 2 < (nextLevel (hashPair keccak256) l).length := by
        rw [length_nextLevel]
        omega
      rw [hpos, getElem?_levelLoop (by omega) hj', ← hpos, hround, Option.map_map, leftPath_of_even _ hl heven, ht]
      simp [Function.comp_def]
    -- a right child: no later level names this leaf
    · have hpos : ¬ 2 * w ∣ j * w := by
        rw [Nat.mul_dvd_mul_iff_right hw]
        omega
      rw [getElem?_levelLoop_of_not_dvd keccak256 hpos, hround, leftPath_of_odd _ hl hodd, ht]
      rfl
  · rw [levelLoop_of_le_one keccak256 hl, leftPath_of_le_one _ hl]
    simp
termination_by l.length
decreasing_by
  rw [length_nextLevel]
  omega

theorem zipIdx_eq_label (l : List Bytes32) : l.zipIdx = label 1 0 l := by
  simp [label]

theorem buildMerkleTree_root {emptyTag : String} {leaves : List Bytes32} (hne : leaves ≠ []) :
    (buildMerkleTree keccak256 emptyTag leaves).1 = treeRoot (hashPair keccak256) leaves := by
  rw [buildMerkleTree, if_neg hne, zipIdx_eq_label]
  exact levelLoop_root keccak256 1 leaves _

/-- **What is emitted.** The proof of leaf `i` is its left path. -/
theorem getElem?_buildMerkleTree (emptyTag : String) {leaves : List Bytes32} {i : ℕ} (hi : i < leaves.length) :
    (buildMerkleTree keccak256 emptyTag leaves).2[i]? =
      some ((leftPath (hashPair keccak256) leaves i).map fun t ↦ encodeHex0x t.1) := by
  have hne : leaves ≠ [] := List.ne_nil_of_length_pos (by omega)
  have hloop := getElem?_levelLoop keccak256 Nat.one_pos hi (List.replicate leaves.length [])
  rw [Nat.mul_one, List.getElem?_replicate, if_pos hi] at hloop
  rw [buildMerkleTree, if_neg hne, zipIdx_eq_label]
  simpa using hloop

/-! ## The verifiers fold the path -/

theorem decodeEscapeProofHex_map (p : List Bytes32) :
    decodeEscapeProofHex (p.map fun t ↦ encodeHex0x t.1) = some (p.map Subtype.val) := by
  induction p with
  | nil => rfl
  | cons t p ih =>
    rw [decodeEscapeProofHex] at ih ⊢
    simp only [List.map_cons, List.mapM_cons, decodeTrimmedHex_encodeHex0x, ih, Option.bind_eq_bind,
      Option.bind_some, pure]

theorem verifyFold_eq (j : ℕ) (a : Bytes32) (p : List Bytes32) :
    verifyFold keccak256 j a.1 (p.map Subtype.val) = (foldPath (hashPair keccak256) j a p).1 := by
  induction p generalizing j a with
  | nil => rfl
  | cons t p ih =>
    have hdiv : (j : ℤ).tdiv 2 = ((j / 2 : ℕ) : ℤ) := rfl
    have hmod : (j : ℤ).tmod 2 = ((j % 2 : ℕ) : ℤ) := rfl
    rw [List.map_cons, verifyFold, foldPath, ← ih, hdiv, hmod, combineAt]
    simp only [Int.natCast_eq_zero]
    split_ifs <;> rfl

theorem contractFold_eq (j : ℕ) (a : Bytes32) (p : List Bytes32) :
    contractFold keccak256 j a p = foldPath (hashPair keccak256) j a p := by
  induction p generalizing j a with
  | nil => rfl
  | cons t p ih => rw [contractFold, ih, foldPath, combineAt, hashPair, hashPair]

theorem verifyProof_eq_true_iff (root leaf : Bytes32) (p : List Bytes32) (i : ℕ) :
    verifyProof keccak256 (encodeHex0x root.1) (encodeHex0x leaf.1)
        (p.map fun t ↦ encodeHex0x t.1) i = true ↔
      foldPath (hashPair keccak256) i leaf p = root := by
  rw [verifyProof, decodeTrimmedHex_encodeHex0x, decodeTrimmedHex_encodeHex0x, decodeEscapeProofHex_map]
  simp only [verifyFold_eq, beq_iff_eq, Subtype.ext_iff]

end Refinement

/-! ## Which emitted proofs are accepted -/

/-- The proof that a builder emits for leaf `i` is accepted against the emitted root, by the Go
verifier and, on the decoded items, by the contract. -/
def ProofAccepted (build : List Bytes32 → Option Bytes32 × List (List String))
    (verify : String → String → List String → ℤ → Bool)
    (contractVerify : Bytes32 → Bytes32 → ℕ → List Bytes32 → Bool)
    (leaves : List Bytes32) (i : ℕ) : Prop :=
  ∃ root leaf proof items, (build leaves).1 = some root ∧ leaves[i]? = some leaf ∧ (build leaves).2[i]? = some proof ∧
    verify (encodeHex0x root.1) (encodeHex0x leaf.1) proof i = true ∧
    decodeEscapeProofHex proof = some (items.map Subtype.val) ∧
    contractVerify root leaf i items = true

/-- The emitted escape-collateral proof of leaf `i` is accepted. -/
def EscapeProofAccepted (keccak256 : Bytes → Bytes32) : List Bytes32 → ℕ → Prop :=
  ProofAccepted (buildAcceptedEscapeMerkleTree keccak256)
    (verifyAcceptedEscapeCollateralProof keccak256) (contractVerifyMerkleProof keccak256)

/-- The emitted withdrawal proof of leaf `i` is accepted. -/
def WithdrawalProofAccepted (keccak256 : Bytes → Bytes32) : List Bytes32 → ℕ → Prop :=
  ProofAccepted (buildWithdrawalMerkleTree keccak256)
    (verifyAcceptedWithdrawalProof keccak256) (contractVerifyMerkleProof keccak256)

/-- Acceptance is a statement about the left path alone. -/
theorem proofAccepted_iff (keccak256 : Bytes → Bytes32) (emptyTag : String) {leaves : List Bytes32} {i : ℕ}
    {leaf : Bytes32} (hleaf : leaves[i]? = some leaf) :
    ProofAccepted (buildMerkleTree keccak256 emptyTag) (verifyProof keccak256)
        (contractVerifyMerkleProof keccak256) leaves i ↔
      treeRoot (hashPair keccak256) leaves =
        some (foldPath (hashPair keccak256) i leaf (leftPath (hashPair keccak256) leaves i)) := by
  obtain ⟨hi, -⟩ := List.getElem?_eq_some_iff.mp hleaf
  have hne : leaves ≠ [] := List.ne_nil_of_length_pos (by omega)
  rw [ProofAccepted, buildMerkleTree_root keccak256 hne, getElem?_buildMerkleTree keccak256 _ hi]
  constructor
  · rintro ⟨root, leaf', proof, items, hroot, hleaf', hproof, hverify, -, -⟩
    obtain rfl : leaf = leaf' := Option.some_inj.mp (hleaf.symm.trans hleaf')
    obtain rfl := Option.some_inj.mp hproof
    rw [hroot, (verifyProof_eq_true_iff keccak256 root leaf _ i).mp hverify]
  · intro hroot
    refine ⟨_, leaf, _, leftPath (hashPair keccak256) leaves i, hroot, hleaf, rfl,
      (verifyProof_eq_true_iff keccak256 _ leaf _ i).mpr rfl, decodeEscapeProofHex_map _, ?_⟩
    rw [contractVerifyMerkleProof, contractFold_eq, beq_self_eq_true]

/-- The 32 bytes `b, b, …, b`. -/
def constBytes32 (b : UInt8) : Bytes32 := ⟨List.replicate 32 b, List.length_replicate⟩

/-- A hash that returns the half of its input if the two halves agree, and a fixed value
otherwise. -/
def halfHash (x : Bytes) : Bytes32 :=
  if h : x.length = 64 ∧ x.take 32 = x.drop 32 then ⟨x.take 32, by rw [List.length_take, h.1]; rfl⟩
  else constBytes32 0xff

theorem hashPair_halfHash (a b : Bytes32) : hashPair halfHash a b = if a = b then a else constBytes32 0xff := by
  obtain ⟨a, ha⟩ := a
  obtain ⟨b, hb⟩ := b
  have htake : (a ++ b).take 32 = a := List.take_left' ha
  have hdrop : (a ++ b).drop 32 = b := List.drop_left' ha
  have hlen : (a ++ b).length = 64 := by rw [List.length_append, ha, hb]
  simp only [hashPair, halfHash, htake, hdrop, hlen, true_and, Subtype.mk.injEq]
  split_ifs <;> rfl

private theorem accepted_forall_iff (emptyTag : String) {n i : ℕ} (hi : i < n) :
    (∀ (keccak256 : Bytes → Bytes32) (leaves : List Bytes32), leaves.length = n →
        ProofAccepted (buildMerkleTree keccak256 emptyTag) (verifyProof keccak256)
          (contractVerifyMerkleProof keccak256) leaves i) ↔
      2 ^ (Nat.clog 2 n - 1) ∣ i := by
  constructor
  · intro hall
    by_contra hd
    have hidem : ∀ a, hashPair halfHash a a = a := fun a ↦ by rw [hashPair_halfHash, if_pos rfl]
    have hleft : ∀ a, hashPair halfHash (constBytes32 0xff) a = constBytes32 0xff := by
      intro a
      rw [hashPair_halfHash, ite_self]
    have hright : ∀ a, hashPair halfHash a (constBytes32 0xff) = constBytes32 0xff := by
      intro a
      rw [hashPair_halfHash]
      split_ifs with h
      · exact h
      · rfl
    obtain ⟨l, a, hlen, ha, hroot, hfold⟩ := exists_foldPath_leftPath hidem hleft hright (constBytes32 0) hi hd
    have hacc := (proofAccepted_iff halfHash emptyTag ha).mp (hall halfHash l hlen)
    rw [hroot, hfold, Option.some_inj] at hacc
    exact absurd hacc (by decide)
  · intro hd keccak256 leaves hlen
    have hleaf := List.getElem?_eq_getElem (hlen.symm ▸ hi : i < leaves.length)
    exact (proofAccepted_iff keccak256 emptyTag hleaf).mpr
      (foldPath_leftPath _ hleaf (by rwa [hlen]))

/-- **Proof completeness.** In trees of `n` leaves the emitted proof of leaf `i` is accepted,
whatever the hash and the leaves are, exactly if `i` is divisible by `2 ^ (⌈log₂ n⌉ - 1)`: in a
tree of three leaves or more, only for the leftmost leaf below the root's left child and the
leftmost below its right child. -/
theorem emitted_proofs_accepted_iff {n i : ℕ} (hi : i < n) :
    ((∀ (keccak256 : Bytes → Bytes32) (leaves : List Bytes32), leaves.length = n →
        EscapeProofAccepted keccak256 leaves i) ↔ 2 ^ (Nat.clog 2 n - 1) ∣ i) ∧
      ((∀ (keccak256 : Bytes → Bytes32) (leaves : List Bytes32), leaves.length = n →
        WithdrawalProofAccepted keccak256 leaves i) ↔ 2 ^ (Nat.clog 2 n - 1) ∣ i) :=
  ⟨accepted_forall_iff "funny-rollup-empty-escape-collateral-root" hi,
    accepted_forall_iff "funny-rollup-empty-withdrawal-root" hi⟩

/-- The condition singles out leaf 2 of three. -/
theorem emitted_proofs_accepted_third :
    2 < 3 ∧ ∀ (keccak256 : Bytes → Bytes32) (leaves : List Bytes32), leaves.length = 3 →
      EscapeProofAccepted keccak256 leaves 2 ∧ WithdrawalProofAccepted keccak256 leaves 2 := by
  have hd : 2 ^ (Nat.clog 2 3 - 1) ∣ 2 := by
    rw [Nat.clog_of_two_le (by decide) (by decide), Nat.clog_of_two_le (by decide) (by decide)]
    norm_num
  have hiff := emitted_proofs_accepted_iff (n := 3) (i := 2) (by decide)
  exact ⟨by decide, fun keccak256 leaves hlen ↦
    ⟨hiff.1.mpr hd keccak256 leaves hlen, hiff.2.mpr hd keccak256 leaves hlen⟩⟩

/-- With three leaves the middle one gets the single sibling of its own level, and its proof stops
one level short of the root. -/
theorem middle_of_three_rejected :
    ¬ EscapeProofAccepted halfHash [constBytes32 0, constBytes32 0, constBytes32 0xff] 1 ∧
      ¬ WithdrawalProofAccepted halfHash [constBytes32 0, constBytes32 0, constBytes32 0xff] 1 := by
  have hroot : treeRoot (hashPair halfHash) [constBytes32 0, constBytes32 0, constBytes32 0xff] =
      some (constBytes32 0xff) := by
    rw [treeRoot_of_one_lt _ (by simp), treeRoot_of_one_lt _ (by simp [nextLevel]),
      treeRoot_of_le_one _ (by simp [nextLevel])]
    decide
  have hfold : foldPath (hashPair halfHash) 1 (constBytes32 0) (leftPath (hashPair halfHash)
      [constBytes32 0, constBytes32 0, constBytes32 0xff] 1) = constBytes32 0 := by
    rw [leftPath_of_odd _ (by simp) rfl]
    decide
  have hne : constBytes32 0xff ≠ constBytes32 0 := by decide
  constructor <;> intro hacc
  all_goals
    have hiff := (proofAccepted_iff halfHash _ rfl).mp hacc
    rw [hroot, hfold, Option.some_inj] at hiff
    exact hne hiff

end FunnyOption
