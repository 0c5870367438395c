import FunnyOption.Foundation.Ledger
import FunnyOption.Rollup.Shared

/-!
# Locked balances and reserves

The locked balance of an account is meant to be what its open orders reserve. Acceptances, fills and
cancellations of open orders keep it so. A cancellation of an order that is not open does not: the replay
makes up the order from the entry and releases what such an order would reserve. An order that is cancelled by
settlement and by matching is released twice.

## The gap

`gap` is the locked balance minus what open orders reserve, and `drift` is what an entry adds to it. Only
cancellations have a drift: `gap_apply`.

## Main results

* `reserves_kept_iff`: locked balances are reserves all along a journal, exactly if every cancellation finds its
  order open, or has nothing to release.
* `released_twice`: an order that both services cancel.
-/

open Foundation

namespace FunnyOption.Rollup

open Matching ShadowState

/-! ## Balances -/

namespace ShadowState

variable {s : ShadowState}

theorem balances_adjustBalance (s : ShadowState) (sequence : ℕ) {accountID : ℤ} (h : 0 < accountID) (asset : String)
    (freeDelta lockedDelta : ℤ) :
    (s.adjustBalance sequence accountID asset freeDelta lockedDelta).balances =
      Function.update s.balances (accountID, normalize asset)
        (if s.free (accountID, normalize asset) + freeDelta = 0 ∧
            s.locked (accountID, normalize asset) + lockedDelta = 0 then none
          else some ⟨accountID, normalize asset, s.free (accountID, normalize asset) + freeDelta,
            s.locked (accountID, normalize asset) + lockedDelta, sequence⟩) := by
  rw [adjustBalance, if_neg (not_le.mpr h)]
  cases hleaf : s.balances (accountID, normalize asset) with
  | none => simp [free, locked, hleaf]
  | some leaf => simp [free, locked, hleaf]

/-- An account without a positive id has no balance. -/
theorem adjustBalance_of_nonpos (s : ShadowState) (sequence : ℕ) {accountID : ℤ} (h : accountID ≤ 0) (asset : String)
    (freeDelta lockedDelta : ℤ) :
    s.adjustBalance sequence accountID asset freeDelta lockedDelta = s := if_pos h

/-- What is free and what is locked under a key. -/
theorem amounts_adjustBalance (s : ShadowState) (sequence : ℕ) (accountID : ℤ) (asset : String)
    (freeDelta lockedDelta : ℤ) {key : ℤ × String} (hkey : 0 < key.1) :
    (s.adjustBalance sequence accountID asset freeDelta lockedDelta).free key =
        s.free key + (if (accountID, normalize asset) = key then freeDelta else 0) ∧
      (s.adjustBalance sequence accountID asset freeDelta lockedDelta).locked key =
        s.locked key + if (accountID, normalize asset) = key then lockedDelta else 0 := by
  by_cases haccount : 0 < accountID
  · rw [free, locked, balances_adjustBalance s sequence haccount]
    by_cases heq : (accountID, normalize asset) = key
    · rw [heq, Function.update_self, if_pos rfl, if_pos rfl]
      split_ifs with hzero
      · exact ⟨hzero.1.symm, hzero.2.symm⟩
      · exact ⟨rfl, rfl⟩
    · rw [Function.update_of_ne (Ne.symm heq), if_neg heq, if_neg heq, add_zero, add_zero]
      exact ⟨rfl, rfl⟩
  · have heq : (accountID, normalize asset) ≠ key := by
      rintro rfl
      exact haccount hkey
    rw [adjustBalance_of_nonpos s sequence (not_lt.mp haccount), if_neg heq, if_neg heq, add_zero, add_zero]
    exact ⟨rfl, rfl⟩

@[simp]
theorem balances_adjustPosition (s : ShadowState) (sequence : ℕ) (accountID marketID : ℤ) (outcome : String)
    (delta : ℤ) : (s.adjustPosition sequence accountID marketID outcome delta).balances = s.balances := by
  rw [adjustPosition]
  split_ifs <;> rfl

@[simp]
theorem balances_setOrder (s : ShadowState) (orderID : String) (order : Option OrderLeaf) :
    (s.setOrder orderID order).balances = s.balances := rfl

theorem locked_congr {s s' : ShadowState} (h : s'.balances = s.balances) : s'.locked = s.locked := by
  funext key
  rw [locked, locked, h]

theorem free_congr {s s' : ShadowState} (h : s'.balances = s.balances) : s'.free = s.free := by
  funext key
  rw [free, free, h]

end ShadowState

/-! ## Reserves -/

/-- What an order reserves of an account's asset. -/
def OrderLeaf.reserves (key : ℤ × String) (order : OrderLeaf) : ℤ :=
  if (order.accountID, order.reserveAsset) = key then order.reservedCollateral else 0

namespace ShadowState

/-- What the open orders reserve of an account's asset. -/
noncomputable def reserved (s : ShadowState) (key : ℤ × String) : ℤ := total (OrderLeaf.reserves key) s.openOrders

/-- **The invariant.** What is locked is what open orders reserve. -/
def Balanced (s : ShadowState) : Prop := ∀ key : ℤ × String, 0 < key.1 → s.locked key = s.reserved key

/-- How far the locked balance is off. -/
noncomputable def gap (s : ShadowState) (key : ℤ × String) : ℤ := s.locked key - s.reserved key

theorem balanced_iff {s : ShadowState} : s.Balanced ↔ ∀ key : ℤ × String, 0 < key.1 → s.gap key = 0 :=
  forall₂_congr fun _ _ ↦ sub_eq_zero.symm

/-- A cancellation that finds its order open, with a reserve, or that has nothing to release. -/
def Releases (s : ShadowState) (p : OrderCancelledPayload) : Prop :=
  match s.openOrders p.orderID with
  | some order => order.accountID ≤ 0 ∨ 0 ≤ order.reservedCollateral
  | none => p.accountID ≤ 0 ∨ (syntheticOrder p).reservedCollateral ≤ 0

/-- What a cancellation adds to the gap. -/
def drift (s : ShadowState) (p : OrderCancelledPayload) (key : ℤ × String) : ℤ :=
  match s.openOrders p.orderID with
  | some order => if (order.accountID, order.reserveAsset) = key then min order.reservedCollateral 0 else 0
  | none =>
    if (p.accountID, normalize (syntheticOrder p).reserveAsset) = key then
      -max (syntheticOrder p).reservedCollateral 0 else 0

theorem forall_ite_eq_zero_iff (key₀ : ℤ × String) (x : ℤ) :
    (∀ key : ℤ × String, 0 < key.1 → (if key₀ = key then x else 0) = 0) ↔ key₀.1 ≤ 0 ∨ x = 0 := by
  constructor
  · intro h
    refine or_iff_not_imp_left.mpr fun hpos ↦ ?_
    simpa using h key₀ (not_le.mp hpos)
  · rintro (hnonpos | rfl) key hkey
    · refine if_neg fun heq ↦ ?_
      rw [heq] at hnonpos
      omega
    · exact ite_self 0

theorem releases_iff {s : ShadowState} {p : OrderCancelledPayload} :
    s.Releases p ↔ ∀ key : ℤ × String, 0 < key.1 → s.drift p key = 0 := by
  rw [Releases]
  simp only [drift]
  cases s.openOrders p.orderID with
  | none => rw [forall_ite_eq_zero_iff, neg_eq_zero, max_eq_right_iff]
  | some order => rw [forall_ite_eq_zero_iff, min_eq_right_iff]

/-! ## What an entry does to the gap -/

/-- What a replay keeps of the open orders. -/
structure Kept (s : ShadowState) : Prop where
  finite : FinitelyMany s.openOrders
  normal : ∀ orderID order, s.openOrders orderID = some order → normalize order.reserveAsset = order.reserveAsset

theorem normalize_normalize (text : String) : normalize (normalize text) = normalize text := by
  rw [normalize, normalize, trimSpace_toUpper, trimSpace_trimSpace, toUpper_toUpper]

theorem normalize_reserveAsset (p : OrderAcceptedPayload) : normalize (reserveAsset p) = reserveAsset p := by
  rw [reserveAsset]
  split_ifs
  · exact normalize_normalize _
  · exact normalize_normalize _

variable {s s' : ShadowState} {sequence : ℕ} {key : ℤ × String}

theorem Kept.setOrder (h : s.Kept) (orderID : String) {order : Option OrderLeaf}
    (hnormal : ∀ o ∈ order, normalize o.reserveAsset = o.reserveAsset) : (s.setOrder orderID order).Kept where
  finite := h.finite.update orderID order
  normal id o ho := by
    by_cases hid : id = orderID
    · rw [hid, openOrders_setOrder, Function.update_self] at ho
      exact hnormal o ho
    · rw [openOrders_setOrder, Function.update_of_ne hid] at ho
      exact h.normal id o ho

theorem Kept.of_openOrders (h : s.Kept) (heq : s'.openOrders = s.openOrders) : s'.Kept :=
  ⟨heq ▸ h.finite, heq ▸ h.normal⟩

/-- An order is written, and the locked balance moves with it. -/
theorem gap_setOrder (h : s.Kept) (orderID : String) (order : Option OrderLeaf) :
    (s.setOrder orderID order).gap key =
      s.gap key + weigh (OrderLeaf.reserves key) (s.openOrders orderID) -
        weigh (OrderLeaf.reserves key) order := by
  have hlocked : (s.setOrder orderID order).locked key = s.locked key := rfl
  rw [gap, gap, reserved, openOrders_setOrder, total_update _ h.finite, hlocked, reserved]
  omega

theorem gap_adjustBalance (s : ShadowState) (sequence : ℕ) (accountID : ℤ) (asset : String)
    (freeDelta lockedDelta : ℤ) (hkey : 0 < key.1) :
    (s.adjustBalance sequence accountID asset freeDelta lockedDelta).gap key =
      s.gap key + if (accountID, normalize asset) = key then lockedDelta else 0 := by
  rw [gap, gap, (amounts_adjustBalance _ _ _ _ _ _ hkey).2, reserved, openOrders_adjustBalance, reserved]
  omega

theorem gap_congr (hbalances : s'.balances = s.balances) (horders : s'.openOrders = s.openOrders) :
    s'.gap key = s.gap key := by
  rw [gap, gap, locked_congr hbalances, reserved, reserved, horders]

/-- **An acceptance keeps the gap.** -/
theorem gap_applyOrderAccepted (h : s.Kept) (p : OrderAcceptedPayload) (hnew : s.openOrders p.orderID = none)
    (hkey : 0 < key.1) : (s.applyOrderAccepted sequence p).gap key = s.gap key := by
  rw [applyOrderAccepted, gap_setOrder (h.of_openOrders (openOrders_adjustBalance ..)),
    gap_adjustBalance _ _ _ _ _ _ hkey, openOrders_adjustBalance, hnew, weigh_none, weigh_some,
    OrderLeaf.reserves, normalize_reserveAsset, add_zero]
  dsimp only
  rw [add_sub_cancel_right]

theorem kept_applyOrderAccepted (h : s.Kept) (p : OrderAcceptedPayload) :
    (s.applyOrderAccepted sequence p).Kept := by
  rw [applyOrderAccepted]
  refine (h.of_openOrders (openOrders_adjustBalance ..)).setOrder _ fun o ho ↦ ?_
  rw [Option.mem_some_iff] at ho
  rw [← ho]
  dsimp only
  rw [normalize_reserveAsset]

theorem kept_applyOrderCancelled (h : s.Kept) (p : OrderCancelledPayload) :
    (s.applyOrderCancelled sequence p).Kept := by
  have hdeleted : (s.setOrder p.orderID none).Kept :=
    h.setOrder p.orderID fun o ho ↦ absurd ho (Option.not_mem_none o)
  refine hdeleted.of_openOrders ?_
  rw [openOrders_applyOrderCancelled, openOrders_setOrder]

/-- **What a cancellation does to the gap.** -/
theorem gap_applyOrderCancelled (h : s.Kept) (p : OrderCancelledPayload) (hkey : 0 < key.1) :
    (s.applyOrderCancelled sequence p).gap key = s.gap key + s.drift p key := by
  have hreleased : ∀ order : OrderLeaf, (if order.reservedCollateral > 0 then
      s.adjustBalance sequence order.accountID order.reserveAsset order.reservedCollateral
        (-order.reservedCollateral) else s).gap key =
      s.gap key - if (order.accountID, normalize order.reserveAsset) = key then
        max order.reservedCollateral 0 else 0 := by
    intro order
    split_ifs with hpos heq heq
    · rw [gap_adjustBalance _ _ _ _ _ _ hkey, if_pos heq, max_eq_left hpos.le, sub_eq_add_neg]
    · rw [gap_adjustBalance _ _ _ _ _ _ hkey, if_neg heq, add_zero, sub_zero]
    · rw [max_eq_right (not_lt.mp hpos), sub_zero]
    · rw [sub_zero]
  have horders : ∀ order : OrderLeaf, (if order.reservedCollateral > 0 then
      s.adjustBalance sequence order.accountID order.reserveAsset order.reservedCollateral
        (-order.reservedCollateral) else s).openOrders = s.openOrders := by
    intro order
    split_ifs
    · exact openOrders_adjustBalance ..
    · rfl
  rw [applyOrderCancelled, gap_setOrder (h.of_openOrders (horders _)), hreleased, horders, weigh_none, drift]
  cases hopen : s.openOrders p.orderID with
  | none =>
    rw [Option.getD_none, weigh_none]
    dsimp only
    have haccount : (syntheticOrder p).accountID = p.accountID := rfl
    rw [haccount]
    split_ifs <;> omega
  | some order =>
    rw [Option.getD_some, weigh_some, OrderLeaf.reserves, h.normal _ _ hopen]
    dsimp only
    split_ifs <;> omega

/-- What is left of the reserve of an order after a fill. -/
def restReserve (order : OrderLeaf) (fillQuantity : ℤ) : ℤ :=
  expectedReserveAmount order.side order.price (order.remainingQuantity - fillQuantity)

/-- A fill that succeeds: the amount is drawn, and what is no longer needed is released. -/
structure Filled (s : ShadowState) (sequence : ℕ) (orderID : String) (fillQuantity executionPrice : ℤ)
    (order : OrderLeaf) (amount : ℤ) (s' : ShadowState) : Prop where
  opened : s.openOrders orderID = some order
  covers : Covers order fillQuantity executionPrice amount
  openOrders : s'.openOrders = Function.update s.openOrders orderID
    (if order.remainingQuantity = fillQuantity then none
      else some (filledOrder sequence order fillQuantity))
  positions : s'.positions = s.positions
  locked : ∀ key : ℤ × String, 0 < key.1 → s'.locked key = s.locked key -
    if (order.accountID, normalize order.reserveAsset) = key then
      order.reservedCollateral - restReserve order fillQuantity else 0
  free : ∀ key : ℤ × String, 0 < key.1 → s'.free key = s.free key +
    if (order.accountID, normalize order.reserveAsset) = key then
      order.reservedCollateral - amount - restReserve order fillQuantity else 0

@[simp]
theorem positions_adjustBalance (s : ShadowState) (sequence : ℕ) (accountID : ℤ) (asset : String)
    (freeDelta lockedDelta : ℤ) :
    (s.adjustBalance sequence accountID asset freeDelta lockedDelta).positions = s.positions := by
  rw [adjustBalance]
  split_ifs <;> rfl

/-- **Inversion of a fill.** -/
theorem filled_of_ok {orderID : String} {fillQuantity executionPrice : ℤ}
    (h : s.fillOrder sequence orderID fillQuantity executionPrice = .ok s') :
    ∃ order amount, Filled s sequence orderID fillQuantity executionPrice order amount s' := by
  cases hopen : s.openOrders orderID with
  | none => simp only [fillOrder, hopen, reduceCtorEq] at h
  | some order =>
    cases hdrawn : drawnAmount order fillQuantity executionPrice with
    | error e =>
      simp only [fillOrder, hopen, hdrawn] at h
      split_ifs at h
    | ok amount =>
      simp only [fillOrder, hopen, hdrawn] at h
      split at h
      · cases h
      rename_i hpos
      split at h
      · cases h
      rename_i hremaining
      split at h
      · cases h
      rename_i hreleased
      have hrest : (filledOrder sequence order fillQuantity).reservedCollateral =
          restReserve order fillQuantity := rfl
      have hleft : (filledOrder sequence order fillQuantity).remainingQuantity =
          order.remainingQuantity - fillQuantity := rfl
      rw [hrest] at h hreleased
      rw [hleft] at h
      have hzero : order.remainingQuantity - fillQuantity = 0 ↔ order.remainingQuantity = fillQuantity := sub_eq_zero
      obtain rfl := Except.ok.inj h
      refine ⟨order, amount, hopen, ⟨not_le.mp hpos, not_lt.mp hremaining, hdrawn, ?_⟩, ?_, ?_, ?_, ?_⟩
      · rw [restReserve] at hreleased
        omega
      · rw [openOrders_setOrder]
        simp only [hzero]
        split_ifs <;> simp only [openOrders_adjustBalance]
      · rw [setOrder]
        dsimp only
        split_ifs <;> simp only [positions_adjustBalance]
      · intro key hkey
        rw [locked_congr (balances_setOrder _ _ _)]
        split
        · rw [(amounts_adjustBalance _ _ _ _ _ _ hkey).2, (amounts_adjustBalance _ _ _ _ _ _ hkey).2]
          split_ifs <;> omega
        · rw [(amounts_adjustBalance _ _ _ _ _ _ hkey).2]
          split_ifs <;> omega
      · intro key hkey
        rw [free_congr (balances_setOrder _ _ _)]
        split
        · rw [(amounts_adjustBalance _ _ _ _ _ _ hkey).1, (amounts_adjustBalance _ _ _ _ _ _ hkey).1]
          split_ifs <;> omega
        · rw [(amounts_adjustBalance _ _ _ _ _ _ hkey).1]
          split_ifs <;> omega

theorem expectedReserveAmount_of_nonpos (side : String) (price : ℤ) {quantity : ℤ} (h : quantity ≤ 0) :
    expectedReserveAmount side price quantity = 0 := if_pos h

section Filled

variable {orderID : String} {fillQuantity executionPrice amount : ℤ} {order : OrderLeaf}

theorem Filled.kept (hfilled : Filled s sequence orderID fillQuantity executionPrice order amount s') (h : s.Kept) :
    s'.Kept := by
  refine ((h.setOrder orderID ?_).of_openOrders hfilled.openOrders : s'.Kept)
  intro o ho
  split_ifs at ho
  · cases ho
  · obtain rfl := Option.some.inj ho
    have hnormal : normalize order.reserveAsset = order.reserveAsset := h.normal _ _ hfilled.opened
    exact hnormal

/-- **A fill keeps the gap.** -/
theorem Filled.gap (hfilled : Filled s sequence orderID fillQuantity executionPrice order amount s') (h : s.Kept)
    (hkey : 0 < key.1) : s'.gap key = s.gap key := by
  have hrest : weigh (OrderLeaf.reserves key) (if order.remainingQuantity = fillQuantity then none
      else some (filledOrder sequence order fillQuantity)) =
      if (order.accountID, order.reserveAsset) = key then restReserve order fillQuantity else 0 := by
    split_ifs with hzero heq heq
    · rw [weigh_none, restReserve, expectedReserveAmount_of_nonpos _ _ (by omega)]
    · rfl
    · exact if_pos heq
    · exact if_neg heq
  rw [ShadowState.gap, ShadowState.gap, hfilled.locked key hkey, reserved, hfilled.openOrders,
    total_update _ h.finite, hrest, hfilled.opened, weigh_some, OrderLeaf.reserves,
    h.normal _ _ hfilled.opened, reserved]
  split_ifs <;> omega

end Filled

/-- Crediting the two accounts of a trade locks nothing. -/
theorem gap_creditTrade (s : ShadowState) (sequence : ℕ) (p : TradeMatchedPayload) (notional : ℤ) (hkey : 0 < key.1) :
    (s.creditTrade sequence p notional).gap key = s.gap key := by
  have hposition : ∀ (s : ShadowState) accountID delta,
      (s.adjustPosition sequence accountID p.marketID p.outcome delta).gap key = s.gap key :=
    fun s _ _ ↦ gap_congr (balances_adjustPosition ..) (openOrders_adjustPosition ..)
  rw [creditTrade]
  split_ifs <;> simp only [hposition, gap_adjustBalance _ _ _ _ _ _ hkey, ite_self, add_zero]

/-- A computation that succeeds, step by step. -/
theorem bind_eq_ok {ε α β : Type} {x : Except ε α} {k : α → Except ε β} {b : β} (h : (x >>= k) = .ok b) :
    ∃ a, x = .ok a ∧ k a = .ok b := by
  cases x with
  | error e => cases h
  | ok a => exact ⟨a, rfl, h⟩

/-- The steps of a trade that succeeds. -/
theorem applyTradeMatched_eq_ok {p : TradeMatchedPayload} (h : s.applyTradeMatched sequence p = .ok s') :
    ∃ notional s₁ s₂, multiply p.price p.quantity = .ok notional ∧
      s.fillOrder sequence p.takerOrderID p.quantity p.price = .ok s₁ ∧
      s₁.fillOrder sequence p.makerOrderID p.quantity p.price = .ok s₂ ∧
      s' = s₂.creditTrade sequence p notional := by
  obtain ⟨notional, hnotional, h⟩ := bind_eq_ok h
  obtain ⟨s₁, htaker, h⟩ := bind_eq_ok h
  obtain ⟨s₂, hmaker, h⟩ := bind_eq_ok h
  exact ⟨notional, s₁, s₂, hnotional, htaker, hmaker, (Except.ok.inj h).symm⟩

/-- **A trade keeps the gap.** -/
theorem gap_applyTradeMatched (h : s.Kept) {p : TradeMatchedPayload}
    (happly : s.applyTradeMatched sequence p = .ok s') :
    s'.Kept ∧ ∀ key : ℤ × String, 0 < key.1 → s'.gap key = s.gap key := by
  obtain ⟨notional, s₁, s₂, -, htaker, hmaker, hs'⟩ := applyTradeMatched_eq_ok happly
  rw [hs']
  obtain ⟨_, _, htaker⟩ := filled_of_ok htaker
  obtain ⟨_, _, hmaker⟩ := filled_of_ok hmaker
  have hkept := hmaker.kept (htaker.kept h)
  refine ⟨hkept.of_openOrders (openOrders_creditTrade ..), fun key hkey ↦ ?_⟩
  rw [gap_creditTrade _ _ _ _ hkey, hmaker.gap (htaker.kept h) hkey, htaker.gap h hkey]

variable {p : SettlementPayoutPayload}

/-- The steps of a payout that succeeds. -/
theorem applySettlementPayout_eq_ok (h : s.applySettlementPayout sequence p = .ok s') :
    ∃ s₁, (s.adjustBalance sequence p.accountID (payoutPositionAsset p) (-p.settledQuantity) 0).settlePosition
        sequence p.accountID p.marketID p.winningOutcome p.settledQuantity = .ok s₁ ∧
      s' = if p.payoutAmount > 0 then
        s₁.adjustBalance sequence p.accountID (payoutAsset p) p.payoutAmount 0 else s₁ := by
  rw [applySettlementPayout] at h
  iterate 5
    split at h
    · cases h
  cases hsettle : (s.adjustBalance sequence p.accountID (payoutPositionAsset p) (-p.settledQuantity)
      0).settlePosition sequence p.accountID p.marketID p.winningOutcome p.settledQuantity with
  | error e => simp only [hsettle] at h; cases h
  | ok s₁ =>
    simp only [hsettle] at h
    have hdone : (Except.ok (if p.payoutAmount > 0 then
        s₁.adjustBalance sequence p.accountID (payoutAsset p) p.payoutAmount 0 else s₁) :
          Except String ShadowState) = .ok s' := h
    exact ⟨s₁, rfl, (Except.ok.inj hdone).symm⟩

theorem settlePosition_eq_ok {accountID marketID : ℤ} {outcome : String} {settledQuantity : ℤ}
    (h : s.settlePosition sequence accountID marketID outcome settledQuantity = .ok s') :
    s'.balances = s.balances ∧ s'.openOrders = s.openOrders := by
  rw [settlePosition] at h
  dsimp only at h
  split at h
  · cases h
  · split at h
    · cases h
    · obtain rfl := Except.ok.inj h
      exact ⟨rfl, rfl⟩

theorem openOrders_applySettlementPayout (h : s.applySettlementPayout sequence p = .ok s') :
    s'.openOrders = s.openOrders := by
  obtain ⟨s₁, hsettle, hs'⟩ := applySettlementPayout_eq_ok h
  obtain ⟨-, horders⟩ := settlePosition_eq_ok hsettle
  rw [hs']
  split_ifs
  · rw [openOrders_adjustBalance, horders, openOrders_adjustBalance]
  · rw [horders, openOrders_adjustBalance]

/-- **A payout keeps the gap.** -/
theorem gap_applySettlementPayout (h : s.Kept) (happly : s.applySettlementPayout sequence p = .ok s') :
    s'.Kept ∧ ∀ key : ℤ × String, 0 < key.1 → s'.gap key = s.gap key := by
  obtain ⟨s₁, hsettle, rfl⟩ := applySettlementPayout_eq_ok happly
  obtain ⟨hbalances, horders⟩ := settlePosition_eq_ok hsettle
  have hgap : ∀ key : ℤ × String, 0 < key.1 → s₁.gap key = s.gap key := fun key hkey ↦ by
    rw [gap_congr hbalances horders, gap_adjustBalance _ _ _ _ _ _ hkey, ite_self, add_zero]
  have hkept : s₁.Kept := h.of_openOrders (horders.trans (openOrders_adjustBalance ..))
  split_ifs
  · refine ⟨hkept.of_openOrders (openOrders_adjustBalance ..), fun key hkey ↦ ?_⟩
    rw [gap_adjustBalance _ _ _ _ _ _ hkey, ite_self, add_zero, hgap key hkey]
  · exact ⟨hkept, hgap⟩

end ShadowState

/-! ## Entries of both services -/

/-- The acceptance that an entry records. -/
def SharedEntry.acceptance : SharedEntry → Option OrderAcceptedPayload
  | .matching entry =>
    match entry.payload with
    | .orderAccepted p => some p
    | .orderCancelled _ => none
    | .tradeMatched _ => none
  | .cancelled _ _ => none
  | .resolved _ _ => none
  | .payout _ _ => none

namespace SharedState

variable {s s' : SharedState} {sequence : ℕ} {entry : SharedEntry}

/-- What an entry adds to the gap. -/
def entryDrift (s : SharedState) (entry : SharedEntry) (key : ℤ × String) : ℤ :=
  (entry.cancellation.map fun p ↦ s.drift p key).getD 0

/-- What an entry does, by its kind. -/
inductive Applies (s : SharedState) (sequence : ℕ) (entry : SharedEntry) (s' : SharedState) : Prop
  | accepted (p : OrderAcceptedPayload) (haccepts : entry.acceptance = some p)
      (hcancels : entry.cancellation = none)
      (hnext : s'.toShadowState = s.applyOrderAccepted sequence p)
  | cancelled (p : OrderCancelledPayload) (haccepts : entry.acceptance = none)
      (hcancels : entry.cancellation = some p)
      (hnext : s'.toShadowState = s.applyOrderCancelled sequence p)
  | traded (p : TradeMatchedPayload) (haccepts : entry.acceptance = none)
      (hcancels : entry.cancellation = none)
      (hnext : s.applyTradeMatched sequence p = .ok s'.toShadowState)
  | resolved (haccepts : entry.acceptance = none) (hcancels : entry.cancellation = none)
      (hnext : s'.toShadowState = s.toShadowState)
  | paid (p : SettlementPayoutPayload) (haccepts : entry.acceptance = none)
      (hcancels : entry.cancellation = none)
      (hnext : s.applySettlementPayout sequence p = .ok s'.toShadowState)

theorem onShadow_eq_ok {result : Except String ShadowState} (h : s.onShadow result = .ok s') :
    result = .ok s'.toShadowState := by
  cases result with
  | error e => cases h
  | ok shadow =>
    obtain rfl : { s with toShadowState := shadow } = s' := Except.ok.inj h
    rfl

theorem applies_of_ok (h : s.apply sequence entry = .ok s') : Applies s sequence entry s' := by
  cases entry with
  | matching entry =>
    obtain ⟨sourceType, sourceRef, occurredAtMillis, payload⟩ := entry
    have hnext := onShadow_eq_ok h
    cases payload with
    | orderAccepted p => exact .accepted p rfl rfl (Except.ok.inj hnext).symm
    | orderCancelled p => exact .cancelled p rfl rfl (Except.ok.inj hnext).symm
    | tradeMatched p => exact .traded p rfl rfl hnext
  | cancelled sourceRef p => exact .cancelled p rfl rfl (Except.ok.inj (onShadow_eq_ok h)).symm
  | resolved sourceRef p =>
    rw [apply, applyMarketResolved] at h
    split_ifs at h
    obtain rfl := Except.ok.inj h
    exact .resolved rfl rfl rfl
  | payout sourceRef p => exact .paid p rfl rfl (onShadow_eq_ok h)

/-- **What an entry does to the gap**, if it accepts no order that is open. -/
theorem gap_apply (h : s.Kept) (hnew : ∀ p ∈ entry.acceptance, s.openOrders p.orderID = none)
    (happly : s.apply sequence entry = .ok s') :
    s'.Kept ∧ ∀ key : ℤ × String, 0 < key.1 → s'.gap key = s.gap key + s.entryDrift entry key := by
  have hnone : entry.cancellation = none → ∀ key, s.entryDrift entry key = 0 := by
    intro hcancels key
    rw [entryDrift, hcancels]
    rfl
  cases applies_of_ok happly with
  | accepted p haccepts hcancels hnext =>
    rw [hnext]
    refine ⟨kept_applyOrderAccepted h p, fun key hkey ↦ ?_⟩
    rw [hnone hcancels, gap_applyOrderAccepted h p (hnew p haccepts) hkey, add_zero]
  | cancelled p haccepts hcancels hnext =>
    rw [hnext]
    refine ⟨kept_applyOrderCancelled h p, fun key hkey ↦ ?_⟩
    rw [gap_applyOrderCancelled h p hkey, entryDrift, hcancels]
    rfl
  | traded p haccepts hcancels hnext =>
    obtain ⟨hkept, hgap⟩ := gap_applyTradeMatched h hnext
    exact ⟨hkept, fun key hkey ↦ by rw [hgap key hkey, hnone hcancels, add_zero]⟩
  | resolved haccepts hcancels hnext =>
    rw [hnext]
    exact ⟨h, fun key _ ↦ by rw [hnone hcancels, add_zero]⟩
  | paid p haccepts hcancels hnext =>
    obtain ⟨hkept, hgap⟩ := gap_applySettlementPayout h hnext
    exact ⟨hkept, fun key hkey ↦ by rw [hgap key hkey, hnone hcancels, add_zero]⟩

end SharedState

/-! ### Open orders come from acceptances -/

/-- An open order has account, side and asset of an acceptance. -/
structure LeafOf (order : OrderLeaf) (a : OrderAcceptedPayload) : Prop where
  account : order.accountID = a.accountID
  side : order.side = normalize a.side
  reserve : order.reserveAsset = reserveAsset a

/-- Every open order was accepted by one of the entries. -/
def Listed (entries : List SharedEntry) (s : ShadowState) : Prop :=
  ∀ orderID order, s.openOrders orderID = some order →
    ∃ entry ∈ entries, ∃ a ∈ entry.acceptance, a.orderID = orderID ∧ LeafOf order a

namespace Listed

variable {entries : List SharedEntry} {s s' : ShadowState}

theorem of_openOrders (h : Listed entries s) (heq : s'.openOrders = s.openOrders) : Listed entries s' := by
  intro orderID order horder
  rw [heq] at horder
  exact h orderID order horder

theorem append (h : Listed entries s) (entry : SharedEntry) : Listed (entries ++ [entry]) s := by
  intro orderID order horder
  obtain ⟨accepted, haccepted, hrest⟩ := h orderID order horder
  exact ⟨accepted, List.mem_append_left _ haccepted, hrest⟩

/-- One order is written or deleted. -/
theorem update (h : Listed entries s) {id : String} {written : Option OrderLeaf}
    (heq : s'.openOrders = Function.update s.openOrders id written)
    (hwritten : ∀ order ∈ written, ∃ entry ∈ entries, ∃ a ∈ entry.acceptance, a.orderID = id ∧ LeafOf order a) :
    Listed entries s' := by
  intro orderID order horder
  rw [heq] at horder
  by_cases hid : orderID = id
  · subst hid
    rw [Function.update_self] at horder
    exact hwritten order horder
  · rw [Function.update_of_ne hid] at horder
    exact h orderID order horder

/-- A fill changes quantities, and nothing that an order is known by. -/
theorem filled (h : Listed entries s) {sequence : ℕ} {orderID : String} {fillQuantity executionPrice : ℤ}
    {order : OrderLeaf} {amount : ℤ}
    (hfilled : Filled s sequence orderID fillQuantity executionPrice order amount s') : Listed entries s' := by
  refine h.update hfilled.openOrders fun written hwritten ↦ ?_
  split_ifs at hwritten
  · cases hwritten
  · obtain rfl := Option.some.inj hwritten
    obtain ⟨entry, hentry, a, ha, hid, hof⟩ := h orderID order hfilled.opened
    exact ⟨entry, hentry, a, ha, hid, hof.account, hof.side, hof.reserve⟩

end Listed

/-- **Open orders stay known** when an entry is applied. -/
theorem SharedState.listed_apply {s s' : SharedState} {sequence : ℕ} {entries : List SharedEntry}
    {entry : SharedEntry} (h : Listed entries s.toShadowState) (happly : s.apply sequence entry = .ok s') :
    Listed (entries ++ [entry]) s'.toShadowState := by
  have hold := h.append entry
  cases applies_of_ok happly with
  | accepted p haccepts _ hnext =>
    rw [hnext]
    refine hold.update (openOrders_applyOrderAccepted ..) fun order horder ↦ ?_
    obtain rfl := Option.mem_some_iff.mp horder
    refine ⟨entry, List.mem_append_right _ List.mem_cons_self, p, haccepts, rfl, ?_⟩
    constructor <;> dsimp only
  | cancelled p _ _ hnext =>
    rw [hnext]
    exact hold.update (openOrders_applyOrderCancelled ..) fun order horder ↦ nomatch horder
  | traded p _ _ hnext =>
    obtain ⟨notional, s₁, s₂, -, htaker, hmaker, hs'⟩ := applyTradeMatched_eq_ok hnext
    obtain ⟨_, _, htaker⟩ := filled_of_ok htaker
    obtain ⟨_, _, hmaker⟩ := filled_of_ok hmaker
    rw [hs']
    exact ((hold.filled htaker).filled hmaker).of_openOrders (openOrders_creditTrade ..)
  | resolved _ _ hnext =>
    rw [hnext]
    exact hold
  | paid p _ _ hnext => exact hold.of_openOrders (openOrders_applySettlementPayout hnext)

/-! ## Journals -/

/-- What builders and unique keys give a journal: no key twice, and acceptances under the order's id. -/
structure WellBuilt (journal : List SharedEntry) : Prop where
  keys : (journal.map SharedEntry.key).Nodup
  acceptances : ∀ entry ∈ journal, ∀ p ∈ entry.acceptance, entry.key = .matching (acceptedKey p.orderID)

theorem WellBuilt.of_prefix {journal pre : List SharedEntry} (h : WellBuilt journal) (hpre : pre <+: journal) :
    WellBuilt pre where
  keys := h.keys.sublist (hpre.sublist.map _)
  acceptances entry hentry := h.acceptances entry (hpre.subset hentry)

theorem acceptance_buildRollupEntries {command : MatchCommand} {result : Result} {entry : JournalAppend}
    (hentry : entry ∈ buildRollupEntries command result) {p : OrderAcceptedPayload}
    (haccepts : entry.payload = .orderAccepted p) : entry.key = acceptedKey p.orderID := by
  rcases cases_buildRollupEntries hentry with
    ⟨order, -, -, rfl | rfl⟩ | ⟨order, -, rfl⟩ | ⟨trade, -, rfl⟩
  · obtain rfl := Payload.orderAccepted.inj haccepts
    rfl
  · cases haccepts
  · cases haccepts
  · cases haccepts

variable {entry : SharedEntry}

theorem acceptance_entries {write : JournalWrite} (hentry : entry ∈ write.entries) :
    ∀ p ∈ entry.acceptance, entry.key = .matching (acceptedKey p.orderID) := by
  intro p haccepts
  cases write with
  | matching command result =>
    obtain ⟨built, hbuilt, rfl⟩ := List.mem_map.mp hentry
    have hpayload : built.payload = .orderAccepted p := by
      rw [SharedEntry.acceptance] at haccepts
      split at haccepts
      · rename_i p' heq
        rw [heq, Option.some.inj haccepts]
      · cases haccepts
      · cases haccepts
    rw [SharedEntry.key, acceptance_buildRollupEntries hbuilt hpayload]
  | cancelled orders =>
    obtain ⟨order, -, rfl⟩ := List.mem_map.mp hentry
    cases haccepts
  | resolved marketID outcome record =>
    obtain rfl := List.mem_singleton.mp hentry
    cases haccepts
  | payout event =>
    obtain rfl := List.mem_singleton.mp hentry
    cases haccepts

theorem WellBuilt.append {journal : List SharedEntry} (h : WellBuilt journal)
    (hentry : ∀ p ∈ entry.acceptance, entry.key = .matching (acceptedKey p.orderID)) :
    WellBuilt (appendShared journal entry) := by
  rw [appendShared]
  split_ifs with hknown
  · exact h
  · refine ⟨?_, List.forall_mem_append.mpr ⟨h.acceptances, List.forall_mem_singleton.mpr hentry⟩⟩
    rw [List.map_append, List.map_singleton, ← List.concat_eq_append]
    exact h.keys.concat hknown

theorem WellBuilt.appendAll {journal : List SharedEntry} (h : WellBuilt journal) {entries : List SharedEntry}
    (hentries : ∀ entry ∈ entries, ∀ p ∈ entry.acceptance, entry.key = .matching (acceptedKey p.orderID)) :
    WellBuilt (entries.foldl appendShared journal) := by
  induction entries generalizing journal with
  | nil => exact h
  | cons entry entries ih =>
    exact ih (h.append (hentries entry List.mem_cons_self))
      fun e he ↦ hentries e (List.mem_cons_of_mem entry he)

theorem wellBuilt_journalOf (writes : List JournalWrite) : WellBuilt (journalOf writes) := by
  induction writes using List.reverseRecOn with
  | nil => exact ⟨List.nodup_nil, fun e he ↦ absurd he List.not_mem_nil⟩
  | append_singleton writes write ih =>
    rw [journalOf, List.foldl_append]
    exact ih.appendAll fun entry hentry ↦ acceptance_entries hentry

/-! ## Replays -/

/-- Rows replay to a state. -/
def Replays (rows : List (JournalRow SharedEntry)) (s : SharedState) : Prop :=
  sharedReplayer.run sharedReplayer.zero rows = .ok s

section Run

variable {α σ : Type*} {replayer : Replayer α σ} {s t : σ} {row : JournalRow α} {rows rows' : List (JournalRow α)}

theorem Replayer.run_cons_eq_ok : replayer.run s (row :: rows) = .ok t ↔
    ∃ u, replayer.apply s row.sequence row.entry = .ok u ∧ replayer.run u rows = .ok t := by
  rw [Replayer.run]
  cases replayer.apply s row.sequence row.entry with
  | error e => simp
  | ok u => simp

theorem Replayer.run_append_eq_ok : replayer.run s (rows ++ rows') = .ok t ↔
    ∃ u, replayer.run s rows = .ok u ∧ replayer.run u rows' = .ok t := by
  induction rows generalizing s with
  | nil => simp [Replayer.run]
  | cons row rows ih =>
    simp only [List.cons_append, run_cons_eq_ok, ih]
    grind

theorem Replayer.run_concat_eq_ok : replayer.run s (rows ++ [row]) = .ok t ↔
    ∃ u, replayer.run s rows = .ok u ∧ replayer.apply u row.sequence row.entry = .ok t := by
  have hnil : ∀ u, replayer.run u [] = .ok u := fun _ ↦ rfl
  simp [run_append_eq_ok, run_cons_eq_ok, hnil]

end Run

/-- Every open order of a replay was accepted by one of its entries. -/
theorem listed_of_replays {rows : List (JournalRow SharedEntry)} {s : SharedState} (h : Replays rows s) :
    Listed (rows.map JournalRow.entry) s.toShadowState := by
  induction rows using List.reverseRecOn generalizing s with
  | nil =>
    obtain rfl : SharedState.empty = s := Except.ok.inj h
    exact fun _ _ horder ↦ nomatch horder
  | append_singleton rows row ih =>
    obtain ⟨t, ht, happly⟩ := Replayer.run_concat_eq_ok.mp h
    rw [List.map_append, List.map_singleton]
    exact SharedState.listed_apply (ih ht) happly

/-- An order that is accepted is not open. -/
theorem Listed.fresh {entries : List SharedEntry} {s : ShadowState} (h : Listed entries s)
    (hbuilt : WellBuilt (entries ++ [entry])) : ∀ p ∈ entry.acceptance, s.openOrders p.orderID = none := by
  intro p haccepts
  have hkey := hbuilt.acceptances entry (List.mem_append_right _ List.mem_cons_self) p haccepts
  have hkeys := hbuilt.keys
  rw [List.map_append, List.map_singleton] at hkeys
  cases hopen : s.openOrders p.orderID with
  | none => rfl
  | some order =>
    obtain ⟨accepted, hmem, a, ha, hid, -⟩ := h _ _ hopen
    have hkey' := hbuilt.acceptances accepted (List.mem_append_left _ hmem) a ha
    rw [hid, ← hkey] at hkey'
    exact absurd (List.mem_singleton.mpr hkey') (List.disjoint_of_nodup_append hkeys (List.mem_map_of_mem hmem))

theorem kept_of_replays {rows : List (JournalRow SharedEntry)} {s : SharedState}
    (hbuilt : WellBuilt (rows.map JournalRow.entry)) (h : Replays rows s) : s.Kept := by
  induction rows using List.reverseRecOn generalizing s with
  | nil =>
    obtain rfl : SharedState.empty = s := Except.ok.inj h
    exact ⟨finitelyMany_none, fun _ _ ho ↦ nomatch ho⟩
  | append_singleton rows row ih =>
    obtain ⟨t, ht, happly⟩ := Replayer.run_concat_eq_ok.mp h
    rw [List.map_append, List.map_singleton] at hbuilt
    have hold := ih (hbuilt.of_prefix (List.prefix_append _ _)) ht
    exact (SharedState.gap_apply hold ((listed_of_replays ht).fresh hbuilt) happly).1

/-! ## Main result -/

/-- **What is wanted of a journal.** After every part of it that replays, what is locked is what open
orders reserve, and a cancellation of an order that is not open changes no balance. -/
structure ReservesKept (journal : List SharedEntry) : Prop where
  balanced : ∀ rows s, rows.map JournalRow.entry <+: journal → Replays rows s → s.Balanced
  idle : ∀ rows s entry p sequence, rows.map JournalRow.entry ++ [entry] <+: journal → Replays rows s →
    entry.cancellation = some p → s.openOrders p.orderID = none →
      (s.applyOrderCancelled sequence p).balances = s.balances

/-- Every cancellation of a journal finds its order open, or has nothing to release. -/
def CancelsOpen (journal : List SharedEntry) : Prop :=
  ∀ rows s entry p, rows.map JournalRow.entry ++ [entry] <+: journal → Replays rows s →
    entry.cancellation = some p → s.Releases p

/-- A cancellation that has nothing to release changes no balance. -/
theorem ShadowState.Releases.balances {s : ShadowState} {p : OrderCancelledPayload} (h : s.Releases p)
    (hclosed : s.openOrders p.orderID = none) (sequence : ℕ) :
    (s.applyOrderCancelled sequence p).balances = s.balances := by
  rw [Releases, hclosed] at h
  rw [applyOrderCancelled, hclosed, Option.getD_none, balances_setOrder]
  split_ifs with hpos
  · rcases h with haccount | hnone
    · rw [adjustBalance_of_nonpos _ _ (show (syntheticOrder p).accountID ≤ 0 from haccount)]
    · exact absurd hpos (not_lt.mpr hnone)
  · rfl

/-- Along a journal whose cancellations find their orders open, the gap stays closed. -/
theorem balanced_of_cancelsOpen {rows : List (JournalRow SharedEntry)} {s : SharedState}
    (hbuilt : WellBuilt (rows.map JournalRow.entry)) (hcancels : CancelsOpen (rows.map JournalRow.entry))
    (h : Replays rows s) : s.Balanced := by
  rw [balanced_iff]
  induction rows using List.reverseRecOn generalizing s with
  | nil =>
    obtain rfl : SharedState.empty = s := Except.ok.inj h
    intro key _
    have hreserved : ShadowState.reserved SharedState.empty.toShadowState key = 0 := total_of_none _ fun _ ↦ rfl
    rw [gap, hreserved, sub_zero]
    rfl
  | append_singleton rows row ih =>
    obtain ⟨t, ht, happly⟩ := Replayer.run_concat_eq_ok.mp h
    rw [List.map_append, List.map_singleton] at hbuilt hcancels
    have hpre := List.prefix_append (rows.map JournalRow.entry) [row.entry]
    have hkept := kept_of_replays (hbuilt.of_prefix hpre) ht
    have hbefore := ih (hbuilt.of_prefix hpre)
      (fun rows' s' entry p hrows' ↦ hcancels rows' s' entry p (hrows'.trans hpre)) ht
    intro key hkey
    have hfresh := (listed_of_replays ht).fresh hbuilt
    rw [(SharedState.gap_apply hkept hfresh happly).2 key hkey, hbefore key hkey, zero_add,
      SharedState.entryDrift]
    cases hcancellation : row.entry.cancellation with
    | none => rfl
    | some p => exact releases_iff.mp (hcancels rows t row.entry p List.prefix_rfl ht hcancellation) key hkey

/-- **Locked balances are reserves, exactly if every cancellation finds its order open or has nothing to
release.** -/
theorem reserves_kept_iff (writes : List JournalWrite) :
    ReservesKept (journalOf writes) ↔ CancelsOpen (journalOf writes) := by
  have hbuilt := wellBuilt_journalOf writes
  constructor
  · intro h rows s entry p hprefix hreplays hcancels
    rw [releases_iff]
    have hrows := (List.prefix_append (rows.map JournalRow.entry) [entry]).trans hprefix
    -- the entry applies, and there is no gap before it and after it
    obtain ⟨s', happly⟩ : ∃ s', s.apply 0 entry = .ok s' := by
      cases entry with
      | matching entry =>
        obtain ⟨sourceType, sourceRef, occurredAtMillis, payload⟩ := entry
        cases payload with
        | orderAccepted | tradeMatched => cases hcancels
        | orderCancelled => exact ⟨_, rfl⟩
      | cancelled => exact ⟨_, rfl⟩
      | resolved | payout => cases hcancels
    have hnext : Replays (rows ++ [⟨0, entry⟩]) s' := Replayer.run_concat_eq_ok.mpr ⟨s, hreplays, happly⟩
    have hbefore := balanced_iff.mp (h.balanced rows s hrows hreplays)
    have hafter := balanced_iff.mp (h.balanced _ s' (by rwa [List.map_append, List.map_singleton]) hnext)
    have hkept := kept_of_replays (hbuilt.of_prefix hrows) hreplays
    have hfresh := (listed_of_replays hreplays).fresh (hbuilt.of_prefix hprefix)
    intro key hkey
    have hgap := (SharedState.gap_apply hkept hfresh happly).2 key hkey
    rw [hbefore key hkey, hafter key hkey, SharedState.entryDrift, hcancels, zero_add] at hgap
    exact hgap.symm
  · intro h
    refine ⟨fun rows s hrows hreplays ↦ ?_, fun rows s entry p sequence hprefix hreplays hcancels hclosed ↦ ?_⟩
    · exact balanced_of_cancelsOpen (hbuilt.of_prefix hrows)
        (fun rows' s' entry p hpre ↦ h rows' s' entry p (hpre.trans hrows)) hreplays
    · exact (h rows s entry p hprefix hreplays hcancels).balances hclosed sequence

/-- An order to buy for 50, and the command that cancels it. -/
private def buyOrder : MatchCommand := sampleCommand "a" 1 .buy 1

private def placed : Engine × List MatchResult := (Engine.new 0).handle (fun _ ↦ 0) buyOrder 0 0

private def cancelled : Engine × List MatchResult :=
  placed.1.handle (fun _ ↦ 0) { buyOrder with action := .cancel } 0 0

/-- The row of the order, as settlement cancels it. -/
private def cancelledRow : Settlement.OrderRow :=
  ⟨"", "", 1, 1, "YES", "BUY", "LIMIT", "GTC", "USDT", "frz_a", "USDT", 50, 50, 1, 0, 1, "CANCELLED",
    "MARKET_RESOLVED"⟩

private def bothCancel : List JournalWrite :=
  placed.2.map (fun m ↦ .matching m.command m.result) ++ [.cancelled [("a", cancelledRow)]] ++
    cancelled.2.map fun m ↦ .matching m.command m.result

private def lastCancellation : OrderCancelledPayload := ⟨"a", 1, 1, "YES", "BUY", "USDT", 50, 1, "NONE"⟩

private def lastEntry : SharedEntry := .matching ⟨.matchingOrder, "a", 0, .orderCancelled lastCancellation⟩

/-- **Settlement cancels an order, and then its user does.** The reserve of 50 is released twice, and the
locked balance is 50 below zero. -/
theorem released_twice : ¬ ReservesKept (journalOf bothCancel) ∧
    ∃ s, Replays ((journalOf bothCancel).map (JournalRow.mk 0)) s ∧ s.locked (1, "USDT") = -50 := by
  refine ⟨fun h ↦ ?_, _, rfl, by decide⟩
  have hlast : (journalOf bothCancel).take 2 ++ [lastEntry] = journalOf bothCancel := by decide
  obtain ⟨s, hreplays, hclosed, hchanged⟩ : ∃ s,
      Replays (((journalOf bothCancel).take 2).map (JournalRow.mk 0)) s ∧ s.openOrders "a" = none ∧
        (s.applyOrderCancelled 0 lastCancellation).balances (1, "USDT") ≠ s.balances (1, "USDT") :=
    ⟨_, rfl, rfl, by decide⟩
  refine hchanged (congrFun (h.idle _ s lastEntry lastCancellation 0 ?_ hreplays rfl hclosed) _)
  rw [List.map_map, show JournalRow.entry ∘ JournalRow.mk 0 = (id : SharedEntry → _) from rfl, List.map_id, hlast]

end FunnyOption.Rollup
