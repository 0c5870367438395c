import FunnyOption.Shared.Assets

/-!
# Replaying the journal

`shadowState` of `internal/rollup` is the state that the journal describes: balances, open orders and
positions. `apply` runs one entry. The entries of the matching engine are three: an order was
accepted, an order was cancelled, a trade was matched. Payloads travel as JSON, which does not change
them; here an entry carries its payload.

Balances and positions are keyed by texts like `7:USDT`; here the key is the tuple it is rendered
from. An entry that fails leaves a state nobody reads, so a failure is only its error text.

## Open orders

Whether a replay fails is decided by the open orders alone. Each operation has one lemma that says
when it succeeds and what it does to them.
-/

open Foundation

namespace FunnyOption.Rollup

/-! ## Entries -/

/-- The entry types of the matching engine. -/
inductive EntryType where
  | orderAccepted
  | orderCancelled
  | tradeMatched
  deriving DecidableEq, Repr

/-- The source types of the matching engine. -/
inductive SourceType where
  | matchingOrder
  | matchingTrade
  deriving DecidableEq, Repr

/-- `OrderAcceptedPayload`. -/
structure OrderAcceptedPayload where
  orderID : String
  commandID : String
  clientOrderID : String
  accountID : ℤ
  marketID : ℤ
  outcome : String
  side : String
  orderType : String
  timeInForce : String
  collateralAsset : String
  reserveAsset : String
  reserveAmount : ℤ
  price : ℤ
  quantity : ℤ
  requestedAtMillis : ℤ
  deriving DecidableEq, Repr

/-- `OrderCancelledPayload`. -/
structure OrderCancelledPayload where
  orderID : String
  accountID : ℤ
  marketID : ℤ
  outcome : String
  side : String
  reserveAsset : String
  price : ℤ
  remainingQuantity : ℤ
  cancelReason : String
  deriving DecidableEq, Repr

/-- `TradeMatchedPayload`. -/
structure TradeMatchedPayload where
  tradeID : String
  sequence : ℕ
  collateralAsset : String
  marketID : ℤ
  outcome : String
  price : ℤ
  quantity : ℤ
  takerOrderID : String
  makerOrderID : String
  takerAccountID : ℤ
  makerAccountID : ℤ
  takerSide : String
  makerSide : String
  occurredAtMillis : ℤ
  deriving DecidableEq, Repr

/-- The payload of an entry, which decides its entry type. -/
inductive Payload where
  | orderAccepted (p : OrderAcceptedPayload)
  | orderCancelled (p : OrderCancelledPayload)
  | tradeMatched (p : TradeMatchedPayload)
  deriving DecidableEq, Repr

/-- The entry type that goes with a payload. -/
def Payload.entryType : Payload → EntryType
  | .orderAccepted _ => .orderAccepted
  | .orderCancelled _ => .orderCancelled
  | .tradeMatched _ => .tradeMatched

/-- `JournalAppend`. -/
structure JournalAppend where
  sourceType : SourceType
  sourceRef : String
  occurredAtMillis : ℤ
  payload : Payload
  deriving DecidableEq, Repr

/-! ## The shadow state -/

/-- `balanceLeaf`. -/
structure BalanceLeaf where
  accountID : ℤ
  assetID : String
  freeBalance : ℤ
  lockedBalance : ℤ
  lastAppliedSequence : ℕ
  deriving DecidableEq, Repr

/-- `orderLeaf`. -/
structure OrderLeaf where
  orderID : String
  accountID : ℤ
  marketID : ℤ
  outcome : String
  side : String
  price : ℤ
  originalQuantity : ℤ
  filledQuantity : ℤ
  remainingQuantity : ℤ
  reserveAsset : String
  reservedCollateral : ℤ
  status : String
  lastAppliedSequence : ℕ
  deriving DecidableEq, Repr

/-- `positionLeaf`. -/
structure PositionLeaf where
  accountID : ℤ
  marketID : ℤ
  outcome : String
  quantity : ℤ
  costBasis : ℤ
  realizedPnL : ℤ
  fundingSnapshot : ℤ
  settlementStatus : String
  lastAppliedSequence : ℕ
  deriving DecidableEq, Repr

/-- `shadowState`, as far as the entries of the matching engine touch it. -/
structure ShadowState where
  balances : ℤ × String → Option BalanceLeaf
  openOrders : String → Option OrderLeaf
  positions : ℤ × ℤ × String → Option PositionLeaf

/-- The empty state. -/
def ShadowState.empty : ShadowState := ⟨fun _ ↦ none, fun _ ↦ none, fun _ ↦ none⟩

/-- `normalizeAsset`, `normalizeOutcome` and `normalizeSide`, which are the same. -/
def normalize (text : String) : String := toUpper (trimSpace text)

/-- `reserveAsset`. -/
def reserveAsset (p : OrderAcceptedPayload) : String :=
  if normalize p.reserveAsset ≠ "" then normalize p.reserveAsset else normalize p.collateralAsset

/-- `reserveAssetFromCancellation`. -/
def reserveAssetFromCancellation (p : OrderCancelledPayload) : String :=
  if normalize p.reserveAsset ≠ "" then normalize p.reserveAsset
  else if normalize p.side = "SELL" then Assets.positionAsset p.marketID p.outcome
  else Assets.defaultCollateralAsset

/-- `multiply`. -/
def multiply (left right : ℤ) : Except String ℤ :=
  if left < 0 ∨ right < 0 then .error "negative multiply is not supported"
  else if left = 0 ∨ right = 0 then .ok 0
  else if left > maxInt64 / right then .error "multiply overflow"
  else .ok (left * right)

/-- `expectedReserveAmount`. -/
def expectedReserveAmount (side : String) (price quantity : ℤ) : ℤ :=
  if quantity ≤ 0 then 0
  else if normalize side = "SELL" then quantity
  else
    match multiply price quantity with
    | .error _ => 0
    | .ok value => value

/-- `buyerSellerAccounts`. -/
def buyerSellerAccounts (p : TradeMatchedPayload) : ℤ × ℤ :=
  if normalize p.takerSide = "BUY" then (p.takerAccountID, p.makerAccountID)
  else (p.makerAccountID, p.takerAccountID)

namespace ShadowState

variable (s : ShadowState) (sequence : ℕ)

/-- `adjustBalance`. -/
def adjustBalance (accountID : ℤ) (asset : String) (freeDelta lockedDelta : ℤ) : ShadowState :=
  if accountID ≤ 0 then s
  else
    let key := (accountID, normalize asset)
    let leaf := (s.balances key).getD ⟨0, "", 0, 0, 0⟩
    let leaf : BalanceLeaf := ⟨accountID, normalize asset, leaf.freeBalance + freeDelta,
      leaf.lockedBalance + lockedDelta, sequence⟩
    { s with
      balances := Function.update s.balances key
        (if leaf.freeBalance = 0 ∧ leaf.lockedBalance = 0 then none else some leaf) }

/-- `adjustPosition`. -/
def adjustPosition (accountID marketID : ℤ) (outcome : String) (delta : ℤ) : ShadowState :=
  if accountID ≤ 0 ∨ delta = 0 then s
  else
    let key := (accountID, marketID, normalize outcome)
    let quantity := ((s.positions key).map PositionLeaf.quantity).getD 0 + delta
    let leaf : PositionLeaf := ⟨accountID, marketID, normalize outcome, quantity, 0, 0, 0, "OPEN", sequence⟩
    { s with
      positions := Function.update s.positions key (if quantity = 0 then none else some leaf) }

/-- Write or delete an open order. -/
def setOrder (orderID : String) (order : Option OrderLeaf) : ShadowState :=
  { s with openOrders := Function.update s.openOrders orderID order }

/-! ## Applying an entry -/

/-- `applyOrderAccepted`. -/
def applyOrderAccepted (p : OrderAcceptedPayload) : ShadowState :=
  let asset := reserveAsset p
  (s.adjustBalance sequence p.accountID asset (-p.reserveAmount) p.reserveAmount).setOrder p.orderID
    (some ⟨p.orderID, p.accountID, p.marketID, normalize p.outcome, normalize p.side, p.price,
      p.quantity, 0, p.quantity, asset, p.reserveAmount, "OPEN", sequence⟩)

/-- The order that `applyOrderCancelled` makes up for one that is not open. -/
def syntheticOrder (p : OrderCancelledPayload) : OrderLeaf :=
  let remaining := if p.remainingQuantity < 0 then 0 else p.remainingQuantity
  ⟨p.orderID, p.accountID, p.marketID, normalize p.outcome, normalize p.side, p.price, 0, 0, remaining,
    reserveAssetFromCancellation p, expectedReserveAmount p.side p.price remaining, "", 0⟩

/-- `applyOrderCancelled`. -/
def applyOrderCancelled (p : OrderCancelledPayload) : ShadowState :=
  let order := (s.openOrders p.orderID).getD (syntheticOrder p)
  let s := if order.reservedCollateral > 0 then
    s.adjustBalance sequence order.accountID order.reserveAsset order.reservedCollateral
      (-order.reservedCollateral) else s
  s.setOrder p.orderID none

/-- What a fill takes out of the reserve of an order. -/
def drawnAmount (order : OrderLeaf) (fillQuantity executionPrice : ℤ) : Except String ℤ :=
  if order.side = "BUY" then multiply executionPrice fillQuantity
  else if order.side = "SELL" then .ok fillQuantity
  else .error ("unsupported order side " ++ order.side)

/-- The order after a fill. -/
def filledOrder (order : OrderLeaf) (fillQuantity : ℤ) : OrderLeaf :=
  { order with
    filledQuantity := order.filledQuantity + fillQuantity
    remainingQuantity := order.remainingQuantity - fillQuantity
    reservedCollateral := expectedReserveAmount order.side order.price (order.remainingQuantity - fillQuantity)
    status := "OPEN"
    lastAppliedSequence := sequence }

/-- `fillOrder`. The two sides differ in what is drawn and in a word of an error text. -/
def fillOrder (orderID : String) (fillQuantity executionPrice : ℤ) : Except String ShadowState :=
  match s.openOrders orderID with
  | none => .error ("rollup trade references unknown order: " ++ orderID)
  | some order =>
    if fillQuantity ≤ 0 then .error "fill quantity must be positive"
    else if order.remainingQuantity < fillQuantity then
      .error ("fill quantity exceeds remaining quantity for order " ++ orderID)
    else
      match drawnAmount order fillQuantity executionPrice with
      | .error e => .error e
      | .ok amount =>
        let filled := filledOrder sequence order fillQuantity
        let releasedFree := order.reservedCollateral - amount - filled.reservedCollateral
        if releasedFree < 0 then
          .error ("negative reserve release for " ++ toLower order.side ++ " order " ++ order.orderID)
        else
          let s := s.adjustBalance sequence order.accountID order.reserveAsset 0 (-amount)
          let s := if releasedFree > 0 then
            s.adjustBalance sequence order.accountID order.reserveAsset releasedFree (-releasedFree)
            else s
          .ok (s.setOrder orderID (if filled.remainingQuantity = 0 then none else some filled))

/-- The balances and positions of the two accounts of a trade. -/
def creditTrade (p : TradeMatchedPayload) (notional : ℤ) : ShadowState :=
  let accounts := buyerSellerAccounts p
  let s := if accounts.1 > 0 then
    (s.adjustBalance sequence accounts.1 (Assets.positionAsset p.marketID p.outcome) p.quantity
      0).adjustPosition sequence accounts.1 p.marketID p.outcome p.quantity else s
  if accounts.2 > 0 then
    (s.adjustBalance sequence accounts.2 p.collateralAsset notional 0).adjustPosition sequence accounts.2
      p.marketID p.outcome (-p.quantity) else s

/-- `applyTradeMatched`. -/
def applyTradeMatched (p : TradeMatchedPayload) : Except String ShadowState := do
  let notional ← multiply p.price p.quantity
  let s ← s.fillOrder sequence p.takerOrderID p.quantity p.price
  let s ← s.fillOrder sequence p.makerOrderID p.quantity p.price
  return s.creditTrade sequence p notional

/-- `apply`, for the entries of the matching engine. -/
def apply : Payload → Except String ShadowState
  | .orderAccepted p => .ok (s.applyOrderAccepted sequence p)
  | .orderCancelled p => .ok (s.applyOrderCancelled sequence p)
  | .tradeMatched p => s.applyTradeMatched sequence p

/-- Apply entries in order, the first with the given sequence number. -/
def applyAll (s : ShadowState) (sequence : ℕ) : List JournalAppend → Except String ShadowState
  | [] => .ok s
  | entry :: entries =>
    match s.apply sequence entry.payload with
    | .error e => .error e
    | .ok s => s.applyAll (sequence + 1) entries

end ShadowState

/-- Replay a journal from the empty state. -/
def replay (journal : List JournalAppend) : Except String ShadowState := ShadowState.empty.applyAll 1 journal

/-! ## What entries do to the open orders -/

namespace ShadowState

variable {s : ShadowState}

@[simp]
theorem openOrders_adjustBalance (s : ShadowState) (sequence : ℕ) (accountID : ℤ) (asset : String)
    (freeDelta lockedDelta : ℤ) :
    (s.adjustBalance sequence accountID asset freeDelta lockedDelta).openOrders = s.openOrders := by
  rw [adjustBalance]
  split_ifs <;> rfl

@[simp]
theorem openOrders_adjustPosition (s : ShadowState) (sequence : ℕ) (accountID marketID : ℤ) (outcome : String)
    (delta : ℤ) : (s.adjustPosition sequence accountID marketID outcome delta).openOrders = s.openOrders := by
  rw [adjustPosition]
  split_ifs <;> rfl

@[simp]
theorem openOrders_setOrder (s : ShadowState) (orderID : String) (order : Option OrderLeaf) :
    (s.setOrder orderID order).openOrders = Function.update s.openOrders orderID order := rfl

theorem openOrders_applyOrderAccepted (s : ShadowState) (sequence : ℕ) (p : OrderAcceptedPayload) :
    (s.applyOrderAccepted sequence p).openOrders = Function.update s.openOrders p.orderID
      (some ⟨p.orderID, p.accountID, p.marketID, normalize p.outcome, normalize p.side, p.price,
        p.quantity, 0, p.quantity, reserveAsset p, p.reserveAmount, "OPEN", sequence⟩) := by
  simp only [applyOrderAccepted, openOrders_setOrder, openOrders_adjustBalance]

theorem openOrders_applyOrderCancelled (s : ShadowState) (sequence : ℕ) (p : OrderCancelledPayload) :
    (s.applyOrderCancelled sequence p).openOrders =
      Function.update s.openOrders p.orderID none := by
  simp only [applyOrderCancelled, openOrders_setOrder]
  split_ifs
  · rw [openOrders_adjustBalance]
  · rfl

@[simp]
theorem openOrders_creditTrade (s : ShadowState) (sequence : ℕ) (p : TradeMatchedPayload) (notional : ℤ) :
    (s.creditTrade sequence p notional).openOrders = s.openOrders := by
  simp only [creditTrade]
  split_ifs <;> simp

/-- A fill that the order and its reserve cover. -/
structure Covers (order : OrderLeaf) (fillQuantity executionPrice amount : ℤ) : Prop where
  pos : 0 < fillQuantity
  remaining : fillQuantity ≤ order.remainingQuantity
  drawn : drawnAmount order fillQuantity executionPrice = .ok amount
  reserve : expectedReserveAmount order.side order.price (order.remainingQuantity - fillQuantity) ≤
    order.reservedCollateral - amount

/-- **A covered fill succeeds.** -/
theorem fillOrder_of_covers (sequence : ℕ) {orderID : String} {order : OrderLeaf}
    {fillQuantity executionPrice amount : ℤ} (horder : s.openOrders orderID = some order)
    (h : Covers order fillQuantity executionPrice amount) :
    ∃ s', s.fillOrder sequence orderID fillQuantity executionPrice = .ok s' ∧
      s'.openOrders = Function.update s.openOrders orderID
        (if order.remainingQuantity = fillQuantity then none
          else some (filledOrder sequence order fillQuantity)) := by
  have hreleased : ¬ order.reservedCollateral - amount -
      (filledOrder sequence order fillQuantity).reservedCollateral < 0 := by
    have := h.reserve
    simp only [filledOrder]
    omega
  have hzero : (filledOrder sequence order fillQuantity).remainingQuantity = 0 ↔
      order.remainingQuantity = fillQuantity := by
    simp only [filledOrder]
    omega
  simp only [fillOrder, horder, if_neg (not_le.mpr h.pos), if_neg (not_lt.mpr h.remaining), h.drawn, if_neg hreleased]
  refine ⟨_, rfl, ?_⟩
  simp only [openOrders_setOrder, hzero]
  split_ifs <;> simp

/-- A trade between two orders that both cover it. -/
theorem applyTradeMatched_of_covers (sequence : ℕ) {p : TradeMatchedPayload} {taker maker : OrderLeaf}
    {notional takerAmount makerAmount : ℤ} (hnotional : multiply p.price p.quantity = .ok notional)
    (hne : p.takerOrderID ≠ p.makerOrderID) (htaker : s.openOrders p.takerOrderID = some taker)
    (hmaker : s.openOrders p.makerOrderID = some maker) (htakerCovers : Covers taker p.quantity p.price takerAmount)
    (hmakerCovers : Covers maker p.quantity p.price makerAmount) :
    ∃ s', s.applyTradeMatched sequence p = .ok s' ∧
      s'.openOrders = Function.update (Function.update s.openOrders p.takerOrderID
        (if taker.remainingQuantity = p.quantity then none
          else some (filledOrder sequence taker p.quantity))) p.makerOrderID
        (if maker.remainingQuantity = p.quantity then none
          else some (filledOrder sequence maker p.quantity)) := by
  obtain ⟨s₁, hs₁, horders₁⟩ := fillOrder_of_covers sequence htaker htakerCovers
  have hmaker₁ : s₁.openOrders p.makerOrderID = some maker := by
    rw [horders₁, Function.update_of_ne hne.symm, hmaker]
  obtain ⟨s₂, hs₂, horders₂⟩ := fillOrder_of_covers sequence hmaker₁ hmakerCovers
  refine ⟨s₂.creditTrade sequence p notional, ?_, ?_⟩
  · rw [applyTradeMatched, hnotional, hs₁]
    change (s₁.fillOrder sequence p.makerOrderID p.quantity p.price >>= fun s ↦
      pure (s.creditTrade sequence p notional)) = _
    rw [hs₂]
    rfl
  · rw [openOrders_creditTrade, horders₂, horders₁]

theorem applyAll_append (s : ShadowState) (sequence : ℕ) (entries entries' : List JournalAppend) :
    s.applyAll sequence (entries ++ entries') =
      match s.applyAll sequence entries with
      | .error e => .error e
      | .ok s => s.applyAll (sequence + entries.length) entries' := by
  induction entries generalizing s sequence with
  | nil => rfl
  | cons entry entries ih =>
    rw [List.cons_append, applyAll, applyAll]
    cases s.apply sequence entry.payload with
    | error e => rfl
    | ok s =>
      simp only [ih, List.length_cons]
      rw [show sequence + 1 + entries.length = sequence + (entries.length + 1) by omega]

end ShadowState

/-! ### Amounts -/

theorem multiply_eq_ok {left right : ℤ} (hleft : 0 ≤ left) (hright : 0 ≤ right) (hle : left * right ≤ maxInt64) :
    multiply left right = .ok (left * right) := by
  have hneg : ¬ (left < 0 ∨ right < 0) := by omega
  rw [multiply, if_neg hneg]
  split_ifs with hzero hover
  · rcases hzero with rfl | rfl <;> simp
  · push Not at hzero
    have hpos : 0 < right := lt_of_le_of_ne hright (Ne.symm hzero.2)
    exact absurd ((Int.le_ediv_iff_mul_le hpos).mpr hle) (not_le.mpr hover)
  · rfl

end FunnyOption.Rollup
