import FunnyOption.Rollup.AcceptedSnapshot

/-!
# Can every escape leaf be paid?

The vault holds what was deposited and not withdrawn. The escape leaves claim what the replayed state says that
accounts hold. The replay does not keep the two together: it lets a balance go below zero, and only positive
balances become leaves; it credits payouts, for which no collateral comes in; and it credits the seller of a
trade whatever the orders of the trade had reserved.

An entry is `Backed` if it posts no more collateral than it brings in and overdraws no account. In a journal of
backed entries, all leaves together are worth at most what was deposited and not withdrawn.

## Main results

* `escape_solvent`: journals of backed entries.
* `payout_claimed_twice`: a payout, after which the leaves claim more than was deposited.
-/

open Foundation

namespace FunnyOption.Rollup

open ShadowState

/-! ## Collateral -/

/-- The keys of collateral. -/
def CollateralKey (key : ℤ × String) : Prop := IsCollateral key.2

instance (key : ℤ × String) : Decidable (CollateralKey key) := inferInstanceAs (Decidable (IsCollateral _))

/-- The collateral that an entry brings to the vault, or takes from it. -/
def FullEntry.funds : FullEntry → ℤ
  | .depositCredited p => if IsCollateral p.asset then p.amount else 0
  | .withdrawalRequested p => if IsCollateral p.asset then -p.amount else 0
  | .nonceAdvanced _ => 0
  | .tradingKeyAuthorized _ => 0
  | .orderAccepted _ => 0
  | .orderCancelled _ => 0
  | .tradeMatched _ => 0
  | .marketResolved _ => 0
  | .settlementPayout _ => 0

/-- What was deposited and not withdrawn. -/
def fundsOf (rows : List (JournalRow FullEntry)) : ℤ := (rows.map fun row ↦ row.entry.funds).sum

/-- An entry that posts no more collateral than it brings in, and overdraws nobody. -/
@[mk_iff]
structure FullState.Backed (s : FullState) (entry : FullEntry) : Prop where
  funded : movedWhere CollateralKey (s.postings entry) ≤ entry.funds
  covered : ∀ key ∈ (s.postings entry).map Prod.fst, CollateralKey key → 0 ≤ s.held key + moved (s.postings entry) key

instance (s : FullState) (entry : FullEntry) : Decidable (s.Backed entry) :=
  decidable_of_iff' _ (FullState.backed_iff s entry)

/-! ## The invariant -/

/-- The collateral is what came in, and no account is overdrawn. -/
structure FullState.Solvent (s : FullState) (funds : ℤ) : Prop where
  keyed : s.Keyed
  total : s.heldWhere CollateralKey ≤ funds
  covered : ∀ key, CollateralKey key → 0 ≤ s.held key

theorem held_of_balances {s s' : ShadowState} {key : ℤ × String} (h : s'.balances key = s.balances key) :
    s'.held key = s.held key := by
  rw [held, free, locked, h, held, free, locked]

theorem solvent_empty : FullState.empty.Solvent 0 where
  keyed := keyed_empty
  total := le_of_eq (finsum_eq_zero_of_forall_eq_zero fun _ ↦ ite_self 0)
  covered _ _ := le_refl 0

theorem FullState.Solvent.step {s s' : FullState} {funds : ℤ} {sequence : ℕ} {entry : FullEntry}
    (h : s.Solvent funds) (hbacked : s.Backed entry) (happly : s.apply sequence entry = .ok s') :
    s'.Solvent (funds + entry.funds) := by
  have hposts := FullState.posts_apply happly
  refine ⟨hposts.keyed h.keyed, ?_, fun key hkey ↦ ?_⟩
  · rw [hposts.heldWhere (finitelyHeld_of_finitelyMany h.keyed.finite)]
    exact add_le_add h.total hbacked.funded
  · by_cases hmem : key ∈ (s.postings entry).map Prod.fst
    · rw [hposts.held]
      exact hbacked.covered key hmem hkey
    · rw [held_of_balances (hposts.frame key hmem)]
      exact h.covered key hkey

/-- A journal of backed entries keeps the collateral backed. -/
theorem solvent_run {rows : List (JournalRow FullEntry)} {t : FullState}
    (hrun : fullReplayer.run .empty rows = .ok t)
    (hbacked : ∀ pre row u, pre ++ [row] <+: rows → fullReplayer.run .empty pre = .ok u →
      u.Backed row.entry) : t.Solvent (fundsOf rows) := by
  induction rows using List.reverseRecOn generalizing t with
  | nil =>
    obtain rfl := Except.ok.inj hrun
    exact solvent_empty
  | append_singleton rows row ih =>
    obtain ⟨u, hu, happly⟩ := Replayer.run_concat_eq_ok.mp hrun
    have hbefore : u.Solvent (fundsOf rows) := by
      refine ih hu fun pre row' v hpre hv ↦ ?_
      exact hbacked pre row' v (hpre.trans (List.prefix_append rows [row])) hv
    have hafter := hbefore.step (hbacked rows row u List.prefix_rfl hu) happly
    have hfunds : fundsOf (rows ++ [row]) = fundsOf rows + row.entry.funds := by
      rw [fundsOf, List.map_append, List.sum_append, fundsOf]
      exact congrArg _ (add_zero _)
    rw [hfunds]
    exact hafter

/-! ## What the leaves are worth -/

theorem worth_acceptedBalance {s : ShadowState} (hkeyed : s.Keyed) (batchID : ℕ) {key : ℤ × String}
    {leaf : BalanceLeaf} (hleaf : s.balances key = some leaf) (hcovered : CollateralKey key → 0 ≤ s.held key) :
    (acceptedBalance batchID leaf).worth =
      if CollateralKey key then collateralScale * s.held key else 0 := by
  have hasset : (acceptedBalance batchID leaf).asset = key.2 := (hkeyed.named key leaf hleaf).2
  have hheld : leaf.freeBalance + leaf.lockedBalance = s.held key := by
    rw [held, free, locked, hleaf]
    rfl
  rw [AcceptedBalance.worth, hasset]
  change (if CollateralKey key then
    collateralScale * max (leaf.freeBalance + leaf.lockedBalance) 0 else 0) = _
  split_ifs with hkey
  · rw [hheld, max_eq_left (hcovered hkey)]
  · rfl

theorem sum_worth_filterMap {s : ShadowState} (hkeyed : s.Keyed) (batchID : ℕ)
    (hcovered : ∀ key, CollateralKey key → 0 ≤ s.held key) (keys : List (ℤ × String)) :
    ((keys.filterMap fun key ↦ (s.balances key).map (acceptedBalance batchID)).map
      AcceptedBalance.worth).sum =
      (keys.map fun key ↦ if CollateralKey key then collateralScale * s.held key else 0).sum := by
  induction keys with
  | nil => rfl
  | cons key keys ih =>
    rw [List.map_cons, List.sum_cons, ← ih]
    cases hleaf : s.balances key with
    | none =>
      have hheld : s.held key = 0 := by
        rw [held, free, locked, hleaf]
        rfl
      rw [List.filterMap_cons_none (by rw [hleaf]; rfl), hheld, mul_zero, ite_self, zero_add]
    | some leaf =>
      rw [List.filterMap_cons_some (by rw [hleaf]; rfl), List.map_cons, List.sum_cons,
        worth_acceptedBalance hkeyed batchID hleaf (hcovered key)]

/-- **What the balances are worth.** It is what is held of collateral, in chain units. -/
theorem sum_worth_export {s : ShadowState} (hkeyed : s.Keyed) (batchID : ℕ)
    (hcovered : ∀ key, CollateralKey key → 0 ≤ s.held key) (listing : Listing s) :
    ((exportAcceptedBalances batchID s listing).map AcceptedBalance.worth).sum =
      collateralScale * s.heldWhere CollateralKey := by
  have hfinite := finitelyHeld_of_finitelyMany hkeyed.finite
  have hsupport : Function.support (fun key ↦ if CollateralKey key then s.held key else 0) ⊆
      listing.keys.toFinset := by
    intro key hkey
    rw [List.coe_toFinset]
    refine listing.complete key fun hnone ↦ hkey ?_
    dsimp only
    rw [held, free, locked, hnone]
    exact ite_self 0
  rw [exportAcceptedBalances, sum_worth_filterMap hkeyed batchID hcovered, heldWhere,
    finsum_eq_sum_of_support_subset _ hsupport, List.sum_toFinset _ listing.nodup, ← List.sum_map_mul_left]
  simp only [mul_ite, mul_zero]

/-! ## Solvency -/

/-- **Escape solvency.** After a journal of backed entries, the escape leaves add up to at most what was
deposited and not withdrawn, in chain units, whoever has a wallet. -/
theorem escape_solvent {keccak256 : Bytes → Bytes32} {hexToAddress : String → Address}
    {rows : List (JournalRow FullEntry)} {t : FullState} (hrun : fullReplayer.run .empty rows = .ok t)
    (hbacked : ∀ pre row u, pre ++ [row] <+: rows → fullReplayer.run .empty pre = .ok u → u.Backed row.entry)
    {batchID : ℕ} {stateRoot : String} {listing : Listing t.toShadowState} {walletByAccount : ℤ → String}
    {root : AcceptedEscapeRoot} {leaves : List AcceptedEscapeLeaf}
    (hbuild : buildAcceptedEscapeCollateralSnapshot keccak256 hexToAddress batchID stateRoot
      (exportAcceptedBalances batchID t.toShadowState listing) walletByAccount = some (root, leaves)) :
    (leaves.map AcceptedEscapeLeaf.claimAmount).sum ≤ collateralScale * fundsOf rows := by
  have hsolvent := solvent_run hrun hbacked
  calc (leaves.map AcceptedEscapeLeaf.claimAmount).sum
    _ ≤ ((exportAcceptedBalances batchID t.toShadowState listing).map AcceptedBalance.worth).sum :=
        sum_claimAmounts_le keccak256 hexToAddress batchID hbuild
    _ = collateralScale * t.heldWhere CollateralKey :=
        sum_worth_export hsolvent.keyed batchID hsolvent.covered listing
    _ ≤ collateralScale * fundsOf rows := mul_le_mul_of_nonneg_left hsolvent.total (by decide)

/-! ## Two journals -/

/-- The balances after the share is sold. -/
def soldListing : Listing (stateAfter shareSold).toShadowState :=
  listingOf (run_of_isOk (by decide : (fullReplayer.run .empty shareSold).isOk = true))

/-- The balances after it is paid out. -/
def paidListing : Listing (stateAfter (shareSold ++ [sharePaid])).toShadowState := listingOf (run_of_isOk
    (by decide +kernel : (fullReplayer.run .empty (shareSold ++ [sharePaid])).isOk = true))

/-- After the share is sold, its seller can claim the deposit of 60, and no more can be claimed. -/
theorem share_sold_solvent :
    ∃ root leaves, buildAcceptedEscapeCollateralSnapshot (fun _ ↦ constBytes32 0) (fun _ ↦ zeroAddress) 1 ""
        (exportAcceptedBalances 1 (stateAfter shareSold).toShadowState soldListing) (fun _ ↦ "0xaa") =
          some (root, leaves) ∧
      (leaves.map AcceptedEscapeLeaf.claimAmount).sum = 600000 ∧
      (leaves.map AcceptedEscapeLeaf.claimAmount).sum ≤ collateralScale * fundsOf shareSold := by
  have hsum : (buildAcceptedEscapeCollateralSnapshot (fun _ ↦ constBytes32 0) (fun _ ↦ zeroAddress) 1 ""
      (exportAcceptedBalances 1 (stateAfter shareSold).toShadowState soldListing) (fun _ ↦ "0xaa")).map
        (fun built ↦ (built.2.map AcceptedEscapeLeaf.claimAmount).sum) = some 600000 := by decide +kernel
  obtain ⟨⟨root, leaves⟩, hbuild, hsum⟩ := Option.map_eq_some_iff.mp hsum
  refine ⟨root, leaves, hbuild, hsum, escape_solvent (run_of_isOk (by decide)) ?_ hbuild⟩
  intro pre row u hpre hu
  refine forall_rows_of_forall_take (P := fun u row ↦ u.Backed row.entry) (fun k row u hrow hu ↦ ?_) hpre hu
  have hlength : k < 4 := (List.getElem?_eq_some_iff.mp hrow).1
  interval_cases k <;> cases hrow <;> rw [run_of_isOk (by decide)] at hu <;> cases hu <;>
    decide +kernel

/-- **A payout that nothing backs.** Of a deposit of 60, the seller of a share and the winner who bought it can
claim 160. -/
theorem payout_claimed_twice : ∃ root leaves, fullReplayer.run .empty (shareSold ++ [sharePaid]) =
        .ok (stateAfter (shareSold ++ [sharePaid])) ∧
      buildAcceptedEscapeCollateralSnapshot (fun _ ↦ constBytes32 0) (fun _ ↦ zeroAddress) 1 ""
        (exportAcceptedBalances 1 (stateAfter (shareSold ++ [sharePaid])).toShadowState paidListing)
        (fun _ ↦ "0xaa") = some (root, leaves) ∧
      collateralScale * fundsOf (shareSold ++ [sharePaid]) = 600000 ∧
      (leaves.map AcceptedEscapeLeaf.claimAmount).sum = 1600000 := by
  have hsum : (buildAcceptedEscapeCollateralSnapshot (fun _ ↦ constBytes32 0) (fun _ ↦ zeroAddress) 1 ""
      (exportAcceptedBalances 1 (stateAfter (shareSold ++ [sharePaid])).toShadowState paidListing)
      (fun _ ↦ "0xaa")).map (fun built ↦ (built.2.map AcceptedEscapeLeaf.claimAmount).sum) =
        some 1600000 := by decide +kernel
  obtain ⟨⟨root, leaves⟩, hbuild, hsum⟩ := Option.map_eq_some_iff.mp hsum
  exact ⟨root, leaves, run_of_isOk (by decide +kernel), hbuild, by decide, hsum⟩

end FunnyOption.Rollup
