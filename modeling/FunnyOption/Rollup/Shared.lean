import FunnyOption.Rollup.Batches
import FunnyOption.Rollup.Journal
import FunnyOption.Settlement.Processor

/-!
# The journal of both services

The matching service and the settlement service append to one journal. Settlement adds three kinds of
entries: orders that it cancelled, a market that was resolved, a payout. The cancellations have the entry
type of those of the matching service, but another source type. So an order can be cancelled twice in the
journal, once by each service.

`SharedState` is the shadow state with the markets. `sharedReplayer` applies the entries of both services; the
sequence number of a row is only written into the leaves.
-/

open Foundation

namespace FunnyOption.Rollup

open Matching

/-! ## Entries of the settlement service -/

/-- `MarketResolvedPayload`, as far as the replay reads it. -/
structure MarketResolvedPayload where
  marketID : ℤ
  resolvedOutcome : String
  resolverType : String
  resolverRef : String
  deriving DecidableEq, Repr

/-- `SettlementPayoutPayload`, as far as the replay reads it. -/
structure SettlementPayoutPayload where
  eventID : String
  marketID : ℤ
  accountID : ℤ
  winningOutcome : String
  positionAsset : String
  settledQuantity : ℤ
  payoutAsset : String
  payoutAmount : ℤ
  deriving DecidableEq, Repr

/-- An entry of one of the services. The entries of settlement have the source types
`SETTLEMENT_ORDER`, `SETTLEMENT_MARKET` and `SETTLEMENT_PAYOUT`. -/
inductive SharedEntry where
  | matching (entry : JournalAppend)
  | cancelled (sourceRef : String) (p : OrderCancelledPayload)
  | resolved (sourceRef : String) (p : MarketResolvedPayload)
  | payout (sourceRef : String) (p : SettlementPayoutPayload)
  deriving DecidableEq, Repr

/-- The unique key of an entry. -/
inductive SharedKey where
  | matching (key : EntryKey)
  | cancelled (ref : String)
  | resolved (ref : String)
  | payout (ref : String)
  deriving DecidableEq, Repr

/-- The unique key of an entry; references are stored trimmed. -/
def SharedEntry.key : SharedEntry → SharedKey
  | .matching entry => .matching entry.key
  | .cancelled sourceRef _ => .cancelled (trimSpace sourceRef)
  | .resolved sourceRef _ => .resolved (trimSpace sourceRef)
  | .payout sourceRef _ => .payout (trimSpace sourceRef)

/-- The cancellation that an entry of either service records. -/
def SharedEntry.cancellation : SharedEntry → Option OrderCancelledPayload
  | .matching entry =>
    match entry.payload with
    | .orderCancelled p => some p
    | .orderAccepted _ => none
    | .tradeMatched _ => none
  | .cancelled _ p => some p
  | .resolved _ _ => none
  | .payout _ _ => none

/-! ### Building entries -/

open Settlement (OrderRow ResolutionRecord SettlementCompletedEvent)

/-- `settlementReserveAsset`. -/
def settlementReserveAsset (order : OrderRow) : String :=
  if toUpper (trimSpace order.side) = "SELL" then
    "POSITION:" ++ toString order.marketID ++ ":" ++ toUpper (trimSpace order.outcome)
  else if toUpper (trimSpace order.freezeAsset) ≠ "" then toUpper (trimSpace order.freezeAsset)
  else if toUpper (trimSpace order.collateralAsset) ≠ "" then toUpper (trimSpace order.collateralAsset)
  else "USDT"

/-- The entry for an order that settlement cancelled. -/
def settlementCancellationEntry (order : String × OrderRow) : SharedEntry := .cancelled order.1
    { orderID := order.1
      accountID := order.2.userID
      marketID := order.2.marketID
      outcome := order.2.outcome
      side := order.2.side
      reserveAsset := settlementReserveAsset order.2
      price := order.2.price
      remainingQuantity := order.2.remainingQuantity
      cancelReason := order.2.cancelReason }

/-- `buildSettlementCancellationEntries`. -/
def buildSettlementCancellationEntries (cancelled : List (String × OrderRow)) : List SharedEntry :=
  cancelled.map settlementCancellationEntry

/-- `buildMarketResolvedEntry`. -/
def buildMarketResolvedEntry (marketID : ℤ) (outcome : String) (record : ResolutionRecord) : SharedEntry :=
  .resolved (toString marketID)
    { marketID
      resolvedOutcome := outcome
      resolverType := toUpper (trimSpace record.resolverType)
      resolverRef := trimSpace record.resolverRef }

/-- `normalizeSettlementEvent`, with the asset that `MarkSettled` stores. -/
def normalizeSettlementEvent (event : SettlementCompletedEvent) : SettlementCompletedEvent :=
  { event with
    eventID := trimSpace event.eventID
    winningOutcome := toUpper (trimSpace event.winningOutcome)
    positionAsset := Settlement.Store.settledAsset event
    payoutAsset :=
      if toUpper (trimSpace event.payoutAsset) = "" then "USDT" else toUpper (trimSpace event.payoutAsset) }

/-- `buildSettlementPayoutEntry`. -/
def buildSettlementPayoutEntry (event : SettlementCompletedEvent) : SharedEntry := .payout (trimSpace event.eventID)
    { eventID := event.eventID
      marketID := event.marketID
      accountID := event.userID
      winningOutcome := event.winningOutcome
      positionAsset := event.positionAsset
      settledQuantity := event.settledQuantity
      payoutAsset := event.payoutAsset
      payoutAmount := event.payoutAmount }

/-! ### Appending -/

/-- `appendEntry`, with the entries of both services. -/
def appendShared (journal : List SharedEntry) (entry : SharedEntry) : List SharedEntry :=
  if entry.key ∈ journal.map SharedEntry.key then journal else journal ++ [entry]

/-- What a transaction of one of the services appends. -/
inductive JournalWrite where
  | matching (command : MatchCommand) (result : Result)
  | cancelled (orders : List (String × OrderRow))
  | resolved (marketID : ℤ) (outcome : String) (record : ResolutionRecord)
  | payout (event : SettlementCompletedEvent)

/-- The entries of a transaction. -/
def JournalWrite.entries : JournalWrite → List SharedEntry
  | .matching command result => (buildRollupEntries command result).map .matching
  | .cancelled orders => buildSettlementCancellationEntries orders
  | .resolved marketID outcome record =>
    [buildMarketResolvedEntry marketID (toUpper (trimSpace outcome)) record]
  | .payout event => [buildSettlementPayoutEntry (normalizeSettlementEvent event)]

/-- The journal after a transaction. -/
def appendWrite (journal : List SharedEntry) (write : JournalWrite) : List SharedEntry :=
  write.entries.foldl appendShared journal

/-- The journal after transactions of the two services, in the order of their commits. -/
def journalOf (writes : List JournalWrite) : List SharedEntry := writes.foldl appendWrite []

/-! ## The shadow state with markets -/

/-- `marketFundingLeaf`. -/
structure MarketFundingLeaf where
  marketID : ℤ
  cumulativeFundingIndex : ℤ
  lastOracleRef : String
  marketSettlementState : String
  resolvedOutcome : String
  lastAppliedSequence : ℕ
  deriving DecidableEq, Repr

/-- `shadowState`, as far as the two services touch it. -/
structure SharedState extends ShadowState where
  marketFunding : ℤ → Option MarketFundingLeaf

/-- The empty state. -/
def SharedState.empty : SharedState := ⟨.empty, fun _ ↦ none⟩

/-- `resolutionRef`. -/
def resolutionRef (p : MarketResolvedPayload) : String :=
  if trimSpace p.resolverRef ≠ "" ∧ trimSpace p.resolverType ≠ "" then
    toUpper (trimSpace p.resolverType) ++ ":" ++ trimSpace p.resolverRef
  else if trimSpace p.resolverRef ≠ "" then trimSpace p.resolverRef
  else toUpper (trimSpace p.resolverType)

/-- `positionKey`, as it stands in error texts. -/
def positionKeyText (accountID marketID : ℤ) (outcome : String) : String :=
  toString accountID ++ ":" ++ toString marketID ++ ":" ++ normalize outcome

namespace ShadowState

variable (s : ShadowState) (sequence : ℕ)

/-- `settlePosition`. -/
def settlePosition (accountID marketID : ℤ) (outcome : String) (settledQuantity : ℤ) : Except String ShadowState :=
  let key := (accountID, marketID, normalize outcome)
  match s.positions key with
  | none => .error ("settlement payout references unknown position " ++ positionKeyText accountID marketID outcome)
  | some leaf =>
    if leaf.quantity < settledQuantity then
      .error ("settlement quantity exceeds position quantity for " ++ positionKeyText accountID marketID outcome)
    else
      let leaf' : PositionLeaf := { leaf with
        quantity := leaf.quantity - settledQuantity
        settlementStatus := "PARTIALLY_SETTLED"
        lastAppliedSequence := sequence }
      .ok { s with
        positions := Function.update s.positions key
          (if leaf.quantity - settledQuantity = 0 then none else some leaf') }

/-- The asset of the position that a payout settles. -/
def payoutPositionAsset (p : SettlementPayoutPayload) : String :=
  if normalize p.positionAsset = "" then Assets.positionAsset p.marketID p.winningOutcome
  else normalize p.positionAsset

/-- The asset that a payout is made in. -/
def payoutAsset (p : SettlementPayoutPayload) : String :=
  if normalize p.payoutAsset = "" then Assets.defaultCollateralAsset else normalize p.payoutAsset

/-- The free balance of an account. -/
def free (key : ℤ × String) : ℤ := ((s.balances key).map BalanceLeaf.freeBalance).getD 0

/-- The locked balance of an account. -/
def locked (key : ℤ × String) : ℤ := ((s.balances key).map BalanceLeaf.lockedBalance).getD 0

/-- `applySettlementPayout`. -/
def applySettlementPayout (p : SettlementPayoutPayload) : Except String ShadowState :=
  if p.accountID ≤ 0 then .error "account_id is required for settlement payout"
  else if p.marketID ≤ 0 then .error "market_id is required for settlement payout"
  else if p.settledQuantity ≤ 0 then .error "settled_quantity must be positive"
  else if p.payoutAmount < 0 then .error "payout_amount cannot be negative"
  else if s.free (p.accountID, normalize (payoutPositionAsset p)) < p.settledQuantity then
    .error ("settlement payout exceeds shadow position balance for account " ++ toString p.accountID ++
      " market " ++ toString p.marketID)
  else do
    let s := s.adjustBalance sequence p.accountID (payoutPositionAsset p) (-p.settledQuantity) 0
    let s ← s.settlePosition sequence p.accountID p.marketID p.winningOutcome p.settledQuantity
    return if p.payoutAmount > 0 then
      s.adjustBalance sequence p.accountID (payoutAsset p) p.payoutAmount 0 else s

end ShadowState

namespace SharedState

variable (s : SharedState) (sequence : ℕ)

/-- `applyMarketResolved`. -/
def applyMarketResolved (p : MarketResolvedPayload) : Except String SharedState :=
  if p.marketID ≤ 0 then .error "market_id is required for market resolution"
  else if normalize p.resolvedOutcome = "" then
    .error "resolved_outcome is required for market resolution"
  else
    .ok { s with
      marketFunding := Function.update s.marketFunding p.marketID
        (some ⟨p.marketID, 0, resolutionRef p, "RESOLVED", normalize p.resolvedOutcome, sequence⟩) }

/-- What an entry does to balances, orders and positions. -/
def onShadow (result : Except String ShadowState) : Except String SharedState :=
  result.map fun shadow ↦ { s with toShadowState := shadow }

/-- `apply`. -/
def apply : SharedEntry → Except String SharedState
  | .matching entry => s.onShadow (s.toShadowState.apply sequence entry.payload)
  | .cancelled _ p => s.onShadow (.ok (s.applyOrderCancelled sequence p))
  | .resolved _ p => s.applyMarketResolved sequence p
  | .payout _ p => s.onShadow (s.applySettlementPayout sequence p)

end SharedState

/-- How the journal of both services is replayed. -/
def sharedReplayer : Replayer SharedEntry SharedState := ⟨.empty, SharedState.apply⟩

end FunnyOption.Rollup
