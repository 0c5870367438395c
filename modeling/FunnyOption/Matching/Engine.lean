import FunnyOption.Matching.OrderBook

/-!
# The matching engine

`Engine` of `internal/matching/engine`: the books by their key, a counter of trades shared with the
other engines, and one of its own. Its methods take an order and return the order as they leave it,
so an order that is changed in place in the source is returned here.

The two nested loops of `match` go over the buckets of the opposite side and over the orders of a
bucket. Orders that are filled or cancelled by it are removed from the book after the loops; the walk
does not come back to an order, so here it leaves them out as it passes them, and `toRemove` only
adjusts the volumes.
-/

open Foundation

namespace FunnyOption.Matching

/-! ## Results -/

/-- `Result`. -/
structure Result where
  order : Option Order
  affected : List Order
  trades : List Trade
  book : BookSnapshot
  deriving DecidableEq, Repr

/-- `CancelResult`. -/
structure CancelResult where
  orders : List Order
  books : List BookSnapshot
  deriving DecidableEq, Repr

/-- `Engine`. -/
structure Engine where
  books : AList fun _ : String ↦ OrderBookDirect
  sequence : ℕ
  localSeq : ℕ

/-! ## The match -/

/-- The state of the loops of `match`. -/
structure Sweep where
  /-- The incoming order. -/
  order : Order
  takerDone : Bool
  sequence : ℕ
  localSeq : ℕ
  trades : List Trade
  affected : List Order
  toRemove : List Order

namespace Sweep

variable (clock : ℕ → ℤ) (bookKey : String)

/-- The trade of the incoming order with a maker. The clock is read once for each trade. -/
def tradeWith (sw : Sweep) (maker : Order) (tradeQty : ℤ) : Trade where
  sequence := sw.sequence + 1
  tradeID := deterministicTradeID bookKey (sw.localSeq + 1)
  marketID := sw.order.marketID
  outcome := sw.order.outcome
  bookKey := bookKey
  price := maker.price
  quantity := tradeQty
  takerOrderID := sw.order.orderID
  makerOrderID := maker.orderID
  takerUserID := sw.order.userID
  makerUserID := maker.userID
  takerSide := sw.order.side
  makerSide := maker.side
  matchedAtMillis := clock (sw.sequence + 1)
  epochID := 0

/-- A trade with a maker is recorded: both orders are filled, the counters go up. -/
def recordTrade (sw : Sweep) (maker : Order) (tradeQty : ℤ) : Sweep :=
  { sw with
    order := sw.order.applyFill tradeQty
    sequence := sw.sequence + 1
    localSeq := sw.localSeq + 1
    trades := sw.trades ++ [sw.tradeWith clock bookKey maker tradeQty]
    affected := sw.affected ++ [maker.applyFill tradeQty] }

/-- A maker is cancelled and will be removed. -/
def cancelMaker (sw : Sweep) (maker : Order) (reason : CancelReason) : Sweep :=
  { sw with
    affected := sw.affected ++ [maker.cancel reason]
    toRemove := sw.toRemove ++ [maker.cancel reason] }

/-- The incoming order is cancelled, which ends the walk. -/
def cancelTaker (sw : Sweep) (reason : CancelReason) : Sweep :=
  { sw with order := sw.order.cancel reason, takerDone := true }

/-- A filled maker will be removed. -/
def removeFilled (sw : Sweep) (maker : Order) : Sweep := { sw with toRemove := sw.toRemove ++ [maker] }

/-- Self-trade prevention: the state after meeting an order of the same user, and that order if it
stays. -/
def meetOwn (sw : Sweep) (maker : Order) : Sweep × Option Order :=
  match sw.order.stpStrategy with
  | .none => (sw, some maker)
  | .cancelTaker => (sw.cancelTaker .stpTaker, some maker)
  | .cancelMaker => (sw.cancelMaker maker .stpMaker, none)
  | .cancelBoth => ((sw.cancelTaker .stpBoth).cancelMaker maker .stpBoth, none)

/-- The body of the inner loop: the state after meeting an order, and that order if it stays. -/
def meetMaker (sw : Sweep) (maker : Order) : Sweep × Option Order :=
  if sw.order.userID = maker.userID then sw.meetOwn maker
  else
    let tradeQty := min sw.order.remainingQuantity maker.remainingQuantity
    if tradeQty ≤ 0 then (sw, some maker)
    else
      let filled := maker.applyFill tradeQty
      let sw := sw.recordTrade clock bookKey maker tradeQty
      if filled.remainingQuantity = 0 then (sw.removeFilled filled, none) else (sw, some filled)

/-- Replace the incoming order. -/
def withOrder (sw : Sweep) (order : Order) : Sweep := { sw with order := order }

/-- The condition of both loops. -/
def active (sw : Sweep) : Bool := sw.order.remainingQuantity > 0 && !sw.takerDone

/-- The inner loop, over the orders of a bucket; it returns the orders that stay. -/
def sweepBucket (sw : Sweep) : List Order → Sweep × List Order
  | [] => (sw, [])
  | maker :: rest =>
    if sw.active then
      let met := sw.meetMaker clock bookKey maker
      let after := sweepBucket met.1 rest
      (after.1, met.2.toList ++ after.2)
    else (sw, maker :: rest)

/-- The outer loop, over the buckets of a side; it returns the buckets that stay. -/
def sweepBuckets (sw : Sweep) : List Bucket → Sweep × List Bucket
  | [] => (sw, [])
  | bucket :: rest =>
    if sw.active && sw.order.crosses bucket.price then
      let swept := sw.sweepBucket clock bookKey bucket.orders
      let after := sweepBuckets swept.1 rest
      match swept.2 with
      | [] => after
      | orders => (after.1, { bucket with orders := orders } :: after.2)
    else (sw, bucket :: rest)

end Sweep

namespace Engine

/-- `New`, for an engine that starts with the given counter of trades. -/
def new (sequence : ℕ) : Engine := ⟨∅, sequence, 0⟩

variable (clock : ℕ → ℤ) (e : Engine)

/-- `getOrCreateBook`. -/
def getOrCreateBook (key : String) : OrderBookDirect := (e.books.lookup key).getD (.new key)

/-- The engine with a book for the key. -/
def openBook (key : String) : Engine := { e with books := e.books.insert key (e.getOrCreateBook key) }

/-- The loops of `match` start here. -/
def sweepStart (order : Order) : Sweep := ⟨order, false, e.sequence, e.localSeq, [], [], []⟩

/-- `match`. -/
def matchOrder (order : Order) (book : OrderBookDirect) : Sweep × OrderBookDirect :=
  if !book.isCross order then (e.sweepStart order, book)
  else
    let makers := book.side order.side.opposite
    let swept := (e.sweepStart order).sweepBuckets clock order.bookKey makers.buckets
    (swept.1, book.setSide order.side.opposite
      ⟨swept.2, swept.1.toRemove.foldl BookSide.dropVolume makers.volume⟩)

/-! ## Placing an order -/

/-- `stpWouldCancelTaker`. -/
def stpWouldCancelTaker (taker maker : Order) : Bool := taker.userID = maker.userID &&
    (taker.stpStrategy = .cancelTaker || taker.stpStrategy = .cancelBoth)

/-- `stpWouldSkipMaker`. -/
def stpWouldSkipMaker (taker maker : Order) : Bool := taker.userID = maker.userID &&
    (taker.stpStrategy = .cancelMaker || taker.stpStrategy = .cancelBoth)

/-- The inner loop of `fokCanFill`: the quantity left after the orders of a bucket, unless the order
would be cancelled. -/
def fokBucket (order : Order) (remaining : ℤ) : List Order → Option ℤ
  | [] => some remaining
  | maker :: rest =>
    if remaining > 0 then
      if stpWouldCancelTaker order maker then none
      else if stpWouldSkipMaker order maker then fokBucket order remaining rest
      else
        let qty := min remaining maker.remainingQuantity
        fokBucket order (if qty > 0 then remaining - qty else remaining) rest
    else some remaining

/-- The outer loop of `fokCanFill`. -/
def fokBuckets (order : Order) (remaining : ℤ) : List Bucket → Option ℤ
  | [] => some remaining
  | bucket :: rest =>
    if remaining > 0 && order.crosses bucket.price then
      match fokBucket order remaining bucket.orders with
      | none => none
      | some remaining => fokBuckets order remaining rest
    else some remaining

/-- `fokCanFill`. -/
def fokCanFill (order : Order) (book : OrderBookDirect) : Bool :=
  fokBuckets order order.remainingQuantity (book.side order.side.opposite).buckets = some 0

/-- `processPostOnly`. -/
def processPostOnly (order : Order) (book : OrderBookDirect) : Sweep × OrderBookDirect :=
  if book.isCross order then (e.sweepStart (order.cancel .postOnlyCross), book)
  else (e.sweepStart { order with status := .new }, book.addOrder order)

/-- `processFOK`. -/
def processFOK (order : Order) (book : OrderBookDirect) : Sweep × OrderBookDirect :=
  if !book.isCross order then (e.sweepStart (order.cancel .fokNotFilled), book)
  else if !fokCanFill order book then (e.sweepStart (order.cancel .fokNotFilled), book)
  else e.matchOrder clock order book

/-- `processGTCOrIOC`. -/
def processGTCOrIOC (order : Order) (book : OrderBookDirect) : Sweep × OrderBookDirect :=
  let matched := e.matchOrder clock order book
  let sw := matched.1
  if sw.order.remainingQuantity = 0 then matched
  -- cancelled by self-trade prevention
  else if sw.order.status = .cancelled then matched
  else if sw.order.timeInForce = .ioc then
    let reason := if sw.trades = [] then .iocNoLiquidity else .iocPartialFill
    (sw.withOrder (sw.order.cancel reason), matched.2)
  else (sw.withOrder sw.order.rested, matched.2.addOrder sw.order)

/-- `processLimitOrder`. -/
def processLimitOrder (order : Order) (book : OrderBookDirect) : Sweep × OrderBookDirect :=
  match order.timeInForce with
  | .postOnly => e.processPostOnly order book
  | .fok => e.processFOK clock order book
  | _ => e.processGTCOrIOC clock order book

/-- A rejected order. -/
def rejection (order : Order) : Result := ⟨some (order.reject .validationFailed), [], [], .zero⟩

/-- The part of `PlaceOrder` that processes an order. -/
def acceptOrder (order : Order) : Engine × Result :=
  let processed := e.processLimitOrder clock order (e.getOrCreateBook order.bookKey)
  let sw := processed.1
  (⟨e.books.insert order.bookKey processed.2, sw.sequence, sw.localSeq⟩,
    ⟨some sw.order, sw.affected, sw.trades, processed.2.snapshot 5⟩)

/-- `PlaceOrder`: the engine, the result, and the error text if there is an error. -/
def placeOrder (order : Order) : Engine × Result × Option String :=
  match order.validate with
  | some error => (e, rejection order, some error)
  | none =>
    if (e.getOrCreateBook order.bookKey).hasOrder order.orderID then
      (e.openBook order.bookKey, rejection order.opened, some ("assert: duplicate order id: " ++ order.orderID))
    else
      match order.type with
      | .market =>
        (e.openBook order.bookKey, rejection order.opened,
          some ("assert: unsupported order type: " ++ order.type.text ++
            " (MARKET should be converted upstream to LIMIT IOC)"))
      | .limit =>
        let placed := e.acceptOrder clock order.opened
        (placed.1, placed.2, none)

/-! ## Cancelling and restoring -/

/-- The state of the loop of `CancelOrders`: the engine, the cancelled orders and the keys of their
books. -/
structure Cancelling where
  engine : Engine
  cancelled : List Order
  bookKeys : List String

/-- The body of the loop of `CancelOrders`. -/
def cancelOne (reason : CancelReason) (nowMillis : ℤ) (c : Cancelling) (candidate : Order) : Cancelling :=
  match c.engine.books.lookup candidate.bookKey with
  | none => c
  | some book =>
    match book.getDirectOrder candidate.orderID with
    | none => c
    | some existing =>
      if existing.remainingQuantity ≤ 0 then c
      else
        let result := { existing.cancel reason with updatedAtMillis := nowMillis }
        { engine := { c.engine with
            books := c.engine.books.insert candidate.bookKey (book.removeDirectOrder result) }
          cancelled := c.cancelled ++ [result]
          bookKeys := if book.key ∈ c.bookKeys then c.bookKeys else c.bookKeys ++ [book.key] }

/-- The second loop of `CancelOrders`: the snapshot of a book, which goes if it is empty. -/
def closeBook (c : Engine × List BookSnapshot) (key : String) : Engine × List BookSnapshot :=
  match c.1.books.lookup key with
  | none => c
  | some book =>
    (if book.orderCount = 0 then { c.1 with books := c.1.books.erase key } else c.1, c.2 ++ [book.snapshot 5])

/-- `CancelOrders`. -/
def cancelOrders (orders : List Order) (reason : CancelReason) (nowMillis : ℤ) :
    Engine × CancelResult × Option String :=
  if orders = [] then (e, ⟨[], []⟩, none)
  else if reason = .unset then (e, ⟨[], []⟩, some "assert: cancel reason is required")
  else
    let c := orders.foldl (cancelOne reason nowMillis) ⟨e, [], []⟩
    let closed := c.bookKeys.foldl closeBook (c.engine, [])
    (closed.1, ⟨c.cancelled, closed.2⟩, none)

/-- The order that `AmendOrder` places instead of the one it has cancelled. -/
def amendedOrder (cancelled : Order) (newPrice newQty : ℤ) : Order :=
  { cancelled with
    status := .new
    cancelReason := .unset
    filledQuantity := 0
    price := if newPrice > 0 then newPrice else cancelled.price
    quantity := if newQty > 0 then newQty else cancelled.quantity }

/-- `AmendOrder`. A book that is left without orders stays, and so does the cancellation if the new
order is rejected. -/
def amendOrder (original : Order) (newPrice newQty nowMillis : ℤ) : Engine × Result × Option String :=
  match e.books.lookup original.bookKey with
  | none => (e, ⟨none, [], [], .zero⟩, some ("book not found: " ++ original.bookKey))
  | some book =>
    match book.getDirectOrder original.orderID with
    | none =>
      (e, ⟨none, [], [], .zero⟩, some ("order not found or already filled: " ++ original.orderID))
    | some existing =>
      if existing.remainingQuantity ≤ 0 then
        (e, ⟨none, [], [], .zero⟩, some ("order not found or already filled: " ++ original.orderID))
      else
        let cancelled := { existing.cancel .amended with updatedAtMillis := nowMillis }
        let removed := { e with
          books := e.books.insert original.bookKey (book.removeDirectOrder cancelled) }
        let placed := removed.placeOrder clock (amendedOrder cancelled newPrice newQty)
        (placed.1, { placed.2.1 with affected := cancelled :: placed.2.1.affected }, placed.2.2)

/-- `RestoreOrder`. -/
def restoreOrder (order : Order) : Engine × Option String :=
  match order.validate with
  | some error => (e, some ("restore order " ++ order.orderID ++ ": " ++ error))
  | none =>
    if order.remainingQuantity ≤ 0 then (e, none)
    else
      let book := e.getOrCreateBook order.bookKey
      if book.hasOrder order.orderID then (e.openBook order.bookKey, none)
      else
        let restored := { order with
          status :=
            if order.status = .unset then
              if order.filledQuantity > 0 then .partiallyFilled else .new
            else order.status }
        ({ e with books := e.books.insert order.bookKey (book.addOrder restored) }, none)

end Engine

end FunnyOption.Matching
