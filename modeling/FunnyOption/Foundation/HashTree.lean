import Mathlib

/-!
# Hash trees over a list of leaves

A hash tree is climbed level by level: neighbours are combined, and the last node of an odd level
is combined with itself. The combining function is arbitrary, so nothing here depends on a
particular hash.

## Left paths

The usual proof for a leaf lists its sibling on every level. A *left path* lists them only as long
as the node above the leaf is a left child, and ends with the sibling of the first right child it
meets. It is what a builder emits that keeps, for each node, one leaf below it — the leftmost — and
hands every sibling to that leaf alone.

Such a path is complete for some leaves and not for others. `foldPath_leftPath` and
`exists_foldPath_leftPath` together say for which: in a tree of `n` leaves, those whose position is
divisible by `2 ^ (⌈log₂ n⌉ - 1)`. The refutation does not search for a collision. It takes a
combining function that is idempotent and has an absorbing element, for which a tree can be grown
downwards from any level by doubling every node.
-/

namespace Foundation

variable {α : Type*} (h : α → α → α)

/-! ## Levels -/

/-- The level above: neighbours combined, a last single node combined with itself. -/
def nextLevel : List α → List α
  | [] => []
  | [a] => [h a a]
  | a :: b :: l => h a b :: nextLevel l

theorem length_nextLevel (l : List α) : (nextLevel h l).length = (l.length + 1) / 2 := by
  induction l using nextLevel.induct with
  | case1 => simp [nextLevel]
  | case2 a => simp [nextLevel]
  | case3 a b l ih =>
    simp only [nextLevel, List.length_cons, ih]
    omega

/-- The node next to position `j`. The last node of an odd level stands next to itself. -/
def sibling (l : List α) (j : ℕ) : Option α :=
  if j % 2 = 0 then l[j + 1]?.or l[j]? else l[j - 1]?

/-- A node combined with its sibling, in the order in which they stand. -/
def combineAt (j : ℕ) (a s : α) : α := if j % 2 = 0 then h a s else h s a

theorem exists_sibling {l : List α} {j : ℕ} (hj : j < l.length) : ∃ s, sibling l j = some s := by
  rcases Nat.mod_two_eq_zero_or_one j with heven | hodd
  · rw [sibling, if_pos heven, List.getElem?_eq_getElem hj]
    cases l[j + 1]? with
    | none => exact ⟨_, rfl⟩
    | some s => exact ⟨s, rfl⟩
  · rw [sibling, if_neg (by omega), List.getElem?_eq_getElem (by omega)]
    exact ⟨_, rfl⟩

theorem sibling_cons_cons (a b : α) (l : List α) (j : ℕ) : sibling (a :: b :: l) (j + 2) = sibling l j := by
  rcases Nat.mod_two_eq_zero_or_one j with heven | hodd
  · rw [sibling, sibling, if_pos (by omega), if_pos heven]
    rfl
  · obtain ⟨k, rfl⟩ : ∃ k, j = k + 1 := ⟨j - 1, by omega⟩
    rw [sibling, sibling, if_neg (by omega), if_neg (by omega)]
    rfl

/-- **One level up.** A node and its sibling combine to the node above them. -/
theorem getElem?_nextLevel {l : List α} {j : ℕ} {a s : α} (ha : l[j]? = some a) (hs : sibling l j = some s) :
    (nextLevel h l)[j / 2]? = some (combineAt h j a s) := by
  induction l using nextLevel.induct generalizing j with
  | case1 => simp at ha
  | case2 b =>
    obtain ⟨rfl, rfl⟩ : j = 0 ∧ b = a := by
      cases j with
      | zero => simpa using ha
      | succ j => simp at ha
    obtain rfl : b = s := by simpa [sibling] using hs
    rfl
  | case3 b c l ih =>
    match j with
    | 0 =>
      obtain rfl : b = a := by simpa using ha
      obtain rfl : c = s := by simpa [sibling] using hs
      rfl
    | 1 =>
      obtain rfl : c = a := by simpa using ha
      obtain rfl : b = s := by simpa [sibling] using hs
      rfl
    | j + 2 =>
      rw [sibling_cons_cons] at hs
      have hpos : (j + 2) / 2 = j / 2 + 1 := by omega
      have hparity : (j + 2) % 2 = j % 2 := by omega
      rw [nextLevel, hpos, List.getElem?_cons_succ, ih (by simpa using ha) hs, combineAt, combineAt, hparity]

/-- The root: climb until one node is left. -/
def treeRoot (l : List α) : Option α :=
  if 1 < l.length then treeRoot (nextLevel h l) else l.head?
termination_by l.length
decreasing_by
  rw [length_nextLevel]
  omega

theorem treeRoot_of_one_lt {l : List α} (hl : 1 < l.length) : treeRoot h l = treeRoot h (nextLevel h l) := by
  rw [treeRoot, if_pos hl]

theorem treeRoot_of_le_one {l : List α} (hl : l.length ≤ 1) : treeRoot h l = l.head? := by
  rw [treeRoot, if_neg (by omega)]

/-! ## Paths -/

/-- The fold a verifier runs: combine with each sibling on the side the position says. -/
def foldPath : ℕ → α → List α → α
  | _, a, [] => a
  | j, a, s :: p => foldPath (j / 2) (combineAt h j a s) p

/-- The siblings above position `j`, up to and including that of the first right child. -/
def leftPath (l : List α) (j : ℕ) : List α :=
  if 1 < l.length then
    (sibling l j).toList ++ if j % 2 = 0 then leftPath (nextLevel h l) (j / 2) else []
  else []
termination_by l.length
decreasing_by
  rw [length_nextLevel]
  omega

theorem leftPath_of_le_one {l : List α} {j : ℕ} (hl : l.length ≤ 1) : leftPath h l j = [] := by
  rw [leftPath, if_neg (by omega)]

theorem leftPath_of_even {l : List α} {j : ℕ} (hl : 1 < l.length) (hj : j % 2 = 0) :
    leftPath h l j = (sibling l j).toList ++ leftPath h (nextLevel h l) (j / 2) := by
  rw [leftPath, if_pos hl, if_pos hj]

theorem leftPath_of_odd {l : List α} {j : ℕ} (hl : 1 < l.length) (hj : j % 2 = 1) :
    leftPath h l j = (sibling l j).toList := by
  rw [leftPath, if_pos hl, if_neg (by omega), List.append_nil]

/-- The divisibility condition, one level up. Below three nodes it holds of every position. -/
theorem pow_clog_dvd_iff {m j : ℕ} (hm : 2 < m) :
    2 ^ (Nat.clog 2 m - 1) ∣ j ↔ j % 2 = 0 ∧ 2 ^ (Nat.clog 2 ((m + 1) / 2) - 1) ∣ j / 2 := by
  have hclog : Nat.clog 2 m = Nat.clog 2 ((m + 1) / 2) + 1 := Nat.clog_of_two_le (by decide) (by omega)
  have hpos : 0 < Nat.clog 2 ((m + 1) / 2) := Nat.clog_pos (by decide) (by omega)
  obtain ⟨k, hk⟩ : ∃ k, Nat.clog 2 ((m + 1) / 2) = k + 1 := ⟨_, (Nat.sub_add_cancel hpos).symm⟩
  rw [hclog, hk, Nat.add_sub_cancel, Nat.add_sub_cancel, pow_succ']
  constructor
  · rintro ⟨c, rfl⟩
    rw [Nat.mul_assoc]
    exact ⟨Nat.mul_mod_right _ _, by rw [Nat.mul_div_cancel_left _ (by decide)]; exact ⟨c, rfl⟩⟩
  · rintro ⟨heven, c, hc⟩
    exact ⟨c, by rw [Nat.mul_assoc, ← hc]; omega⟩

/-- **Complete left paths.** At a position the condition admits, folding the left path from the
leaf gives the root. -/
theorem foldPath_leftPath {l : List α} {j : ℕ} {a : α} (ha : l[j]? = some a) (hd : 2 ^ (Nat.clog 2 l.length - 1) ∣ j) :
    treeRoot h l = some (foldPath h j a (leftPath h l j)) := by
  obtain ⟨hj, -⟩ := List.getElem?_eq_some_iff.mp ha
  rcases Nat.lt_or_ge 1 l.length with hl | hl
  · obtain ⟨s, hs⟩ := exists_sibling hj
    have hup := getElem?_nextLevel h ha hs
    rw [treeRoot_of_one_lt h hl]
    rcases Nat.lt_or_ge 2 l.length with hl2 | hl2
    -- three nodes or more: the position is even, and the path goes on one level up
    · obtain ⟨heven, hd'⟩ := (pow_clog_dvd_iff hl2).mp hd
      rw [leftPath_of_even h hl heven, hs]
      exact foldPath_leftPath hup (by rwa [length_nextLevel])
    -- two nodes: either one has the other as its whole proof
    · have hlen : (nextLevel h l).length = 1 := by
        rw [length_nextLevel]
        omega
      obtain ⟨r, hr⟩ := List.length_eq_one_iff.mp hlen
      have hpath : leftPath h l j = [s] := by
        rcases Nat.mod_two_eq_zero_or_one j with heven | hodd
        · rw [leftPath_of_even h hl heven, hs, leftPath_of_le_one h hlen.le]
          rfl
        · rw [leftPath_of_odd h hl hodd, hs]
          rfl
      have hpos : j / 2 = 0 := by omega
      rw [hr, hpos] at hup
      rw [treeRoot_of_le_one h hlen.le, hr, hpath]
      simpa [foldPath] using hup
  · have hpos : j = 0 := by omega
    subst hpos
    rw [treeRoot_of_le_one h hl, leftPath_of_le_one h hl, List.head?_eq_getElem?, ha]
    rfl
termination_by l.length
decreasing_by
  rw [length_nextLevel]
  omega

/-! ## Incomplete paths -/

section Absorbing

variable {h} {m : α}

/-- An absorbing element among the leaves reaches the root. -/
theorem treeRoot_of_mem_absorbing (hleft : ∀ a, h m a = m) (hright : ∀ a, h a m = m) {l : List α} (hm : m ∈ l) :
    treeRoot h l = some m := by
  rcases Nat.lt_or_ge 1 l.length with hl | hl
  · have hup : m ∈ nextLevel h l := by
      clear hl
      induction l using nextLevel.induct with
      | case1 => simp at hm
      | case2 a =>
        obtain rfl : m = a := by simpa using hm
        simp [nextLevel, hleft]
      | case3 a b l ih =>
        rw [nextLevel, List.mem_cons]
        rcases List.mem_cons.mp hm with rfl | hm
        · exact .inl (hleft b).symm
        rcases List.mem_cons.mp hm with rfl | hm
        · exact .inl (hright a).symm
        · exact .inr (ih hm)
    rw [treeRoot_of_one_lt h hl]
    exact treeRoot_of_mem_absorbing hleft hright hup
  · rw [treeRoot_of_le_one h hl]
    match l, hl with
    | [a], _ => simpa [eq_comm] using hm
    | [], _ => simp at hm
termination_by l.length
decreasing_by
  rw [length_nextLevel]
  omega

/-- With an idempotent combining function every list is a level above some list, of either of the
two possible lengths. -/
private theorem nextLevel_take_double (hidem : ∀ a, h a a = a) (l : List α) :
    ∀ n, (n + 1) / 2 = l.length → nextLevel h ((l.flatMap fun a ↦ [a, a]).take n) = l := by
  induction l with
  | nil =>
    intro n hn
    simp [nextLevel]
  | cons a l ih =>
    intro n hn
    rw [List.length_cons] at hn
    match n with
    | 0 => omega
    | 1 =>
      obtain rfl : l = [] := List.length_eq_zero_iff.mp (by omega)
      simp [nextLevel, hidem]
    | n + 2 =>
      simp only [List.flatMap_cons, List.cons_append, List.nil_append, List.take_succ_cons, nextLevel, hidem]
      rw [ih n (by omega)]

/-- **Incomplete left paths.** At any other position some tree of the given size has the absorbing
element as its root, while the fold of the left path gives another one. -/
theorem exists_foldPath_leftPath (hidem : ∀ a, h a a = a) (hleft : ∀ a, h m a = m) (hright : ∀ a, h a m = m) (z : α)
    {n j : ℕ} (hj : j < n) (hd : ¬ 2 ^ (Nat.clog 2 n - 1) ∣ j) :
    ∃ l : List α, ∃ a, l.length = n ∧ l[j]? = some a ∧ treeRoot h l = some m ∧
      foldPath h j a (leftPath h l j) = z := by
  have hn : 2 < n := by
    by_contra hn
    have hclog : Nat.clog 2 n ≤ 1 := Nat.clog_le_of_le_pow (by omega)
    rw [Nat.sub_eq_zero_of_le hclog] at hd
    exact hd (one_dvd j)
  rcases Nat.mod_two_eq_zero_or_one j with heven | hodd
  -- a left child: grow the tree downwards from the one for the level above
  · obtain ⟨l, a, hlen, ha, hroot, hfold⟩ := exists_foldPath_leftPath hidem hleft hright z
      (n := (n + 1) / 2) (j := j / 2) (by omega) fun hd' ↦ hd ((pow_clog_dvd_iff hn).mpr ⟨heven, hd'⟩)
    have hup := nextLevel_take_double hidem l n hlen.symm
    have hlen' : ((l.flatMap fun a ↦ [a, a]).take n).length = n := by
      rw [List.length_take, List.length_flatMap]
      simp only [List.length_cons, List.length_nil, List.map_const', List.sum_replicate]
      rw [hlen, smul_eq_mul]
      omega
    generalize (l.flatMap fun a ↦ [a, a]).take n = l' at hup hlen'
    have hj' : j < l'.length := by omega
    obtain ⟨s, hs⟩ := exists_sibling hj'
    have ha' := getElem?_nextLevel h (List.getElem?_eq_getElem hj') hs
    rw [hup, ha, Option.some_inj] at ha'
    refine ⟨l', l'[j], hlen', List.getElem?_eq_getElem hj', ?_, ?_⟩
    · rw [treeRoot_of_one_lt h (by omega), hup, hroot]
    · rw [leftPath_of_even h (by omega) heven, hs, hup, Option.toList_some, List.cons_append,
        List.nil_append, foldPath, ← ha', hfold]
  -- a right child: the path ends here, and a third leaf keeps it from the root
  · let l := (List.range n).map fun k ↦ if k = j ∨ k + 1 = j then z else m
    have hlen : l.length = n := by simp [l]
    have hget : ∀ k < n, l[k]? = some (if k = j ∨ k + 1 = j then z else m) := by
      intro k hk
      simp [l, List.getElem?_range hk]
    have hm : m ∈ l := by
      refine List.mem_iff_getElem?.mpr ⟨if j = 1 then 2 else 0, ?_⟩
      rw [hget _ (by split_ifs <;> omega), if_neg (by split_ifs <;> omega)]
    have hs : sibling l j = some z := by
      rw [sibling, if_neg (by omega), hget _ (by omega), if_pos (by omega)]
    refine ⟨l, z, hlen, ?_, treeRoot_of_mem_absorbing hleft hright hm, ?_⟩
    · rw [hget j hj, if_pos (.inl rfl)]
    · rw [leftPath_of_odd h (by omega) hodd, hs, Option.toList_some, foldPath, foldPath, combineAt,
        if_neg (by omega), hidem]
termination_by n

end Absorbing

end Foundation
