import FunnyOption.Account.EventProcessor
import FunnyOption.Foundation.Program
import FunnyOption.Foundation.Table

/-!
# The settlement service

The settlement service adds up positions from `position.changed` events. When a market is resolved, it cancels
the active orders of the market and tells the other services about it, and then it pays the winning positions:
for each it publishes a `settlement.done` event and marks the position as settled.

A handler is a program of calls. Every transaction of the store is one call, and so is every publish, since a
failure between two of them leaves the first one behind. The times of events and the random ids of order
events are left out. The keys of messages follow from their content and are left out as well.

The entries that the transactions add to the rollup journal are not part of this module.
-/

open Foundation

namespace FunnyOption.Settlement

open Account (OrderEvent)

/-! ## Rows -/

/-- A row of `markets`. -/
structure Market where
  status : String
  resolvedOutcome : String
  deriving DecidableEq, Repr

/-- `resolutionRecord`, a row of `market_resolutions`. The evidence is JSON text. -/
structure ResolutionRecord where
  status : String
  resolvedOutcome : String
  resolverType : String
  resolverRef : String
  evidence : String
  deriving DecidableEq, Repr

/-- A row of `orders`, without its id. -/
structure OrderRow where
  commandID : String
  clientOrderID : String
  userID : ℤ
  marketID : ℤ
  outcome : String
  side : String
  orderType : String
  timeInForce : String
  collateralAsset : String
  freezeID : String
  freezeAsset : String
  freezeAmount : ℤ
  price : ℤ
  quantity : ℤ
  filledQuantity : ℤ
  remainingQuantity : ℤ
  status : String
  cancelReason : String
  deriving DecidableEq, Repr

/-- The key of a position: market, user and outcome. -/
abbrev PositionKey := ℤ × ℤ × String

/-- A row of `positions`. -/
structure PositionRow where
  positionAsset : String
  quantity : ℤ
  settledQuantity : ℤ
  deriving DecidableEq, Repr

/-- A row of `settlement_payouts`, without its event id. -/
structure PayoutRow where
  marketID : ℤ
  userID : ℤ
  winningOutcome : String
  positionAsset : String
  settledQuantity : ℤ
  payoutAsset : String
  payoutAmount : ℤ
  deriving DecidableEq, Repr

/-! ## Messages -/

/-- `MarketEvent`. -/
structure MarketEvent where
  traceID : String
  marketID : ℤ
  status : String
  resolvedOutcome : String
  deriving DecidableEq, Repr

/-- `PositionChangedEvent`, as far as the handler reads it, and its id. -/
structure PositionChangedEvent where
  eventID : String
  marketID : ℤ
  userID : ℤ
  outcome : String
  positionAsset : String
  deltaQuantity : ℤ
  deriving DecidableEq, Repr

/-- `SettlementCompletedEvent`. -/
structure SettlementCompletedEvent where
  eventID : String
  marketID : ℤ
  userID : ℤ
  winningOutcome : String
  positionAsset : String
  settledQuantity : ℤ
  payoutAsset : String
  payoutAmount : ℤ
  deriving DecidableEq, Repr

/-- The messages that the service publishes. -/
inductive Message where
  | order (event : OrderEvent)
  | settlement (event : SettlementCompletedEvent)
  deriving DecidableEq, Repr

/-! ## The store -/

/-- The tables of the service. -/
structure Store where
  frozen : Bool
  markets : Table ℤ Market
  resolutions : Table ℤ ResolutionRecord
  orders : Table String OrderRow
  positions : Table PositionKey PositionRow
  payouts : Table String PayoutRow

/-- `shouldPreserveOracleOwnership`. -/
def shouldPreserveOracleOwnership (current : ResolutionRecord) (outcome : String) : Bool :=
  if toUpper (trimSpace current.resolverType) ≠ "ORACLE_PRICE" then false
  else if toUpper (trimSpace current.status) ≠ "OBSERVED" ∧ toUpper (trimSpace current.status) ≠ "RESOLVED" then false
  else toUpper (trimSpace current.resolvedOutcome) ≠ "" ∧
    toUpper (trimSpace current.resolvedOutcome) = toUpper (trimSpace outcome)

/-- `normalizeResolutionEvidence`. -/
def normalizeResolutionEvidence (raw : String) : String := if raw = "" then "\x7b\x7d" else raw

/-- `finalizeResolutionRecord`. -/
def finalizeResolutionRecord (current : ResolutionRecord) (outcome : String) : ResolutionRecord :=
  if shouldPreserveOracleOwnership current outcome then
    ⟨"RESOLVED", outcome, current.resolverType, current.resolverRef, normalizeResolutionEvidence current.evidence⟩
  else ⟨"RESOLVED", outcome, "ADMIN", "", "\x7b\x7d"⟩

/-- An order that a resolution cancels. -/
def OrderRow.active (marketID : ℤ) (row : OrderRow) : Bool :=
  row.marketID = marketID ∧ (row.status = "NEW" ∨ row.status = "PARTIALLY_FILLED") ∧ 0 < row.remainingQuantity

/-- A cancelled order. -/
def OrderRow.cancel (reason : String) (row : OrderRow) : OrderRow :=
  { row with status := "CANCELLED", cancelReason := toUpper (trimSpace reason) }

/-- `winningPosition`. -/
structure WinningPosition where
  marketID : ℤ
  userID : ℤ
  outcome : String
  quantity : ℤ
  deriving DecidableEq, Repr

namespace Store

variable (store : Store)

/-- `ensureMarket`. -/
def ensureMarket (marketID : ℤ) : Store :=
  if (store.markets.get marketID).isSome then store
  else { store with markets := store.markets.insert marketID ⟨"OPEN", ""⟩ }

/-- `ApplyDelta`: an upsert that adds to the quantity. -/
def applyDelta (marketID userID : ℤ) (outcome positionAsset : String) (delta : ℤ) : Store :=
  let store := store.ensureMarket marketID
  let key := (marketID, userID, outcome)
  let row : PositionRow :=
    match store.positions.get key with
    | none => ⟨positionAsset, delta, 0⟩
    | some row => { row with positionAsset, quantity := row.quantity + delta }
  { store with positions := store.positions.insert key row }

/-- The transaction of `ResolveMarket`, which comes after `ensureMarket`. The result says whether the market is
resolved now; there is none if the market was resolved with another outcome. -/
def resolveMarket (marketID : ℤ) (outcome : String) : Store × Option Bool :=
  match store.markets.get marketID with
  | none => (store, none)
  | some market =>
    if market.status = "RESOLVED" then
      if toUpper (trimSpace market.resolvedOutcome) = toUpper (trimSpace outcome) then
        (store, some false)
      else (store, none)
    else
      let current := (store.resolutions.get marketID).getD ⟨"", "", "", "", ""⟩
      ({ store with
          markets := store.markets.insert marketID ⟨"RESOLVED", outcome⟩
          resolutions := store.resolutions.insert marketID (finalizeResolutionRecord current outcome) },
        some true)

/-- The orders that `CancelActiveOrders` returns. -/
def cancelledOrders (marketID : ℤ) (reason : String) : List (String × OrderRow) :=
  (store.orders.rows.filter (·.2.active marketID)).map fun order ↦ (order.1, order.2.cancel reason)

/-- `CancelActiveOrders`. -/
def cancelActiveOrders (marketID : ℤ) (reason : String) : Store :=
  { store with
    orders := store.orders.update fun _ row ↦ if row.active marketID then row.cancel reason else row }

/-- The position that a row has left to settle. -/
def winningPosition (marketID : ℤ) (outcome : String) (row : PositionKey × PositionRow) : Option WinningPosition :=
  if row.1.1 = marketID ∧ row.1.2.2 = outcome ∧ row.2.settledQuantity < row.2.quantity then
    some ⟨marketID, row.1.2.1, outcome, row.2.quantity - row.2.settledQuantity⟩
  else none

/-- `WinningPositions`, in the order of users. -/
def winningPositions (marketID : ℤ) (outcome : String) : List WinningPosition :=
  (store.positions.rows.filterMap (winningPosition marketID outcome)).insertionSort
    fun p q ↦ p.userID ≤ q.userID

/-- The asset that `MarkSettled` stores. -/
def settledAsset (event : SettlementCompletedEvent) : String :=
  if toUpper (trimSpace event.positionAsset) = "" then
    "POSITION:" ++ toString event.marketID ++ ":" ++ toUpper (trimSpace event.winningOutcome)
  else toUpper (trimSpace event.positionAsset)

/-- `MarkSettled`: an event id that has a payout already changes nothing. -/
def markSettled (event : SettlementCompletedEvent) : Store :=
  if (store.payouts.get (trimSpace event.eventID)).isSome then store
  else
    let outcome := toUpper (trimSpace event.winningOutcome)
    { store with
      payouts := store.payouts.insert (trimSpace event.eventID)
        ⟨event.marketID, event.userID, outcome, settledAsset event, event.settledQuantity,
          toUpper (trimSpace event.payoutAsset), event.payoutAmount⟩
      positions := store.positions.update fun key row ↦
        if key = (event.marketID, event.userID, outcome) then
          { row with settledQuantity := row.settledQuantity + event.settledQuantity }
        else row }

end Store

/-! ## Handlers -/

/-- The store, and what was published. -/
structure World where
  store : Store
  published : List Message

namespace World

/-- `PublishJSON`. -/
def publish (message : Message) (w : World) : World := { w with published := w.published ++ [message] }

/-- A transaction of the store. -/
def onStore (f : Store → Store) (w : World) : World := { w with store := f w.store }

end World

/-- `settlementEventID`. -/
def settlementEventID (marketID userID : ℤ) (outcome : String) : String :=
  "evt_settlement_" ++ toString marketID ++ "_" ++ toString userID ++ "_" ++ toUpper (trimSpace outcome)

/-- `WinningPayoutAmount`, with no result where it is an error. -/
def winningPayoutAmount (quantity : ℤ) : Option ℤ :=
  if quantity ≤ 0 then none else if quantity > maxInt64 / 100 then none else some (quantity * 100)

/-- The event for a position that is settled. -/
def settlementEvent (position : WinningPosition) (payoutAmount : ℤ) : SettlementCompletedEvent where
  eventID := settlementEventID position.marketID position.userID position.outcome
  marketID := position.marketID
  userID := position.userID
  winningOutcome := position.outcome
  positionAsset := Assets.positionAsset position.marketID position.outcome
  settledQuantity := position.quantity
  payoutAsset := Assets.defaultCollateralAsset
  payoutAmount := payoutAmount

/-- The loop of `settleWinningPositions`. -/
def settlePositions : List WinningPosition → Program World
  | [] => .done true
  | position :: positions =>
    match winningPayoutAmount position.quantity with
    | none => .done false
    | some payoutAmount =>
      .call (World.publish (.settlement (settlementEvent position payoutAmount))) fun _ ↦
        .call (World.onStore (·.markSettled (settlementEvent position payoutAmount))) fun _ ↦
          settlePositions positions

/-- `settleWinningPositions`. -/
def settleWinningPositions (marketID : ℤ) (outcome : String) : Program World :=
  .call id fun w ↦ settlePositions (w.store.winningPositions marketID outcome)

/-- The event for an order that is cancelled. -/
def cancelledOrderEvent (traceID : String) (order : String × OrderRow) : OrderEvent where
  commandID := order.2.commandID
  traceID := traceID
  orderID := order.1
  clientOrderID := order.2.clientOrderID
  freezeID := order.2.freezeID
  freezeAsset := order.2.freezeAsset
  freezeAmount := order.2.freezeAmount
  collateralAsset := order.2.collateralAsset
  userID := order.2.userID
  marketID := order.2.marketID
  outcome := order.2.outcome
  side := order.2.side
  type := order.2.orderType
  timeInForce := order.2.timeInForce
  status := order.2.status
  cancelReason := order.2.cancelReason
  price := order.2.price
  quantity := order.2.quantity
  filledQuantity := order.2.filledQuantity
  remainingQuantity := order.2.remainingQuantity

/-- The loop of `HandleMarketEvent` over the cancelled orders, and what comes after it. -/
def publishOrders (traceID : String) (next : Program World) : List (String × OrderRow) → Program World
  | [] => next
  | order :: orders =>
    .call (World.publish (.order (cancelledOrderEvent traceID order))) fun _ ↦
      publishOrders traceID next orders

/-- The reason with which a resolution cancels orders. -/
def marketResolved : String := "MARKET_RESOLVED"

/-- What `HandleMarketEvent` does for a resolution, from `ResolveMarket` on. -/
def resolve (event : MarketEvent) (outcome : String) : Program World :=
  .call (World.onStore (·.ensureMarket event.marketID)) fun _ ↦
    .call (World.onStore fun store ↦ (store.resolveMarket event.marketID outcome).1) fun w ↦
      match (w.store.resolveMarket event.marketID outcome).2 with
      | none => .done false
      | some false => settleWinningPositions event.marketID outcome
      | some true =>
        .call (World.onStore (·.cancelActiveOrders event.marketID marketResolved)) fun w ↦
          publishOrders event.traceID (settleWinningPositions event.marketID outcome)
            (w.store.cancelledOrders event.marketID marketResolved)

/-- The outcome of a resolution, in the form in which it is stored. -/
def MarketEvent.outcome (event : MarketEvent) : String := toUpper (trimSpace event.resolvedOutcome)

/-- `HandleMarketEvent`. -/
def handleMarketEvent (event : MarketEvent) : Program World :=
  .call id fun w ↦
    if w.store.frozen then .done true
    else if toUpper (trimSpace event.status) ≠ "RESOLVED" then .done true
    else if event.outcome = "" then .done true
    else resolve event event.outcome

/-- `HandlePositionChanged`. -/
def handlePositionChanged (event : PositionChangedEvent) (store : Store) : Store :=
  if store.frozen then store
  else store.applyDelta event.marketID event.userID (toUpper (trimSpace event.outcome))
    event.positionAsset event.deltaQuantity

end FunnyOption.Settlement
