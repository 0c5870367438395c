import FunnyOption.Orders.Submission

/-!
# What is published of a match result

`ProcessResult` of the post-trade service turns a result of the engine into events: one event of the
incoming order, with the freeze of its command; one event of each affected order, without; and one
event of each trade, with the fees of the schedule. The events of orders and those of trades go to
two topics.

The events of positions, candles and quotes are not modelled here, nor is what is stored. The id of
an event and the time of an order event are read by no consumer that is modelled; the id of the event
of a trade is an argument.
-/

open Foundation

namespace FunnyOption.PostTrade

open Account Matching

/-! ## Fees -/

/-- `fee.Schedule`. -/
structure Schedule where
  takerFeeBps : ℤ
  makerFeeBps : ℤ

/-- `fee.FeeResult`. -/
structure FeeResult where
  takerFee : ℤ
  makerFee : ℤ

/-- `applyBps`. -/
def applyBps (amount bps : ℤ) : Option ℤ :=
  if bps = 0 then some 0
  else if amount > maxInt64 / |bps| then none
  else some ((amount * bps).tdiv 10000)

/-- `Compute`. -/
def Schedule.compute (s : Schedule) (notional : ℤ) : Option FeeResult :=
  if notional ≤ 0 then some ⟨0, 0⟩
  else
    (applyBps notional s.takerFeeBps).bind fun takerFee ↦
      (applyBps notional s.makerFeeBps).map fun makerFee ↦ ⟨takerFee, makerFee⟩

/-- The schedule without fees. -/
def Schedule.free : Schedule := ⟨0, 0⟩

theorem Schedule.compute_free (notional : ℤ) : Schedule.free.compute notional = some ⟨0, 0⟩ := by
  simp [compute, free, applyBps]

/-! ## Events -/

/-- The event of an order, without a command and a freeze: `buildPassiveOrderEvent`. -/
def buildPassiveOrderEvent (traceID collateralAsset : String) (order : Order) : OrderEvent where
  commandID := ""
  traceID := traceID
  orderID := order.orderID
  clientOrderID := order.clientOrderID
  freezeID := ""
  freezeAsset := ""
  freezeAmount := 0
  collateralAsset := collateralAsset
  userID := order.userID
  marketID := order.marketID
  outcome := order.outcome
  side := order.side.text
  type := order.type.text
  timeInForce := order.timeInForce.text
  status := order.status.text
  cancelReason := order.cancelReason.text
  price := order.price
  quantity := order.quantity
  filledQuantity := order.filledQuantity
  remainingQuantity := order.remainingQuantity

/-- `buildOrderEvent`: the same with the command and its freeze. -/
def buildOrderEvent (command : MatchCommand) (order : Order) : OrderEvent :=
  { buildPassiveOrderEvent command.traceID command.collateralAsset order with
    commandID := command.commandID
    freezeID := command.freezeID
    freezeAsset := command.freezeAsset
    freezeAmount := command.freezeAmount }

/-- `buildTradeEvent`. Fees that cannot be computed are zero. -/
def buildTradeEvent (schedule : Schedule) (eventID traceID collateralAsset : String) (trade : Trade) :
    TradeMatchedEvent :=
  let fees := (schedule.compute (trade.price * trade.quantity)).getD ⟨0, 0⟩
  { eventID := eventID
    tradeID := trade.tradeID
    sequence := trade.sequence
    epochID := trade.epochID
    traceID := traceID
    collateralAsset := collateralAsset
    marketID := trade.marketID
    outcome := trade.outcome
    bookKey := trade.bookKey
    price := trade.price
    quantity := trade.quantity
    takerOrderID := trade.takerOrderID
    makerOrderID := trade.makerOrderID
    takerUserID := trade.takerUserID
    makerUserID := trade.makerUserID
    takerSide := trade.takerSide.text
    makerSide := trade.makerSide.text
    takerFeeBps := schedule.takerFeeBps
    makerFeeBps := schedule.makerFeeBps
    takerFee := fees.takerFee
    makerFee := fees.makerFee
    occurredAtMillis := trade.matchedAtMillis }

/-- The events that `ProcessResult` publishes to the topic of orders. -/
def orderEvents (m : MatchResult) : List OrderEvent := (m.result.order.map (buildOrderEvent m.command)).toList ++
    m.result.affected.map (buildPassiveOrderEvent m.command.traceID m.command.collateralAsset)

/-- The events that `ProcessResult` publishes to the topic of trades. -/
def tradeEvents (schedule : Schedule) (eventID : Trade → String) (m : MatchResult) : List TradeMatchedEvent :=
  m.result.trades.map fun trade ↦
    buildTradeEvent schedule (eventID trade) m.command.traceID m.command.collateralAsset trade

/-! ## Where the events come from -/

/-- The terms on which the account service knows the order of a command. -/
def terms (c : MatchCommand) : Processor.OrderTerms := ⟨c.side.text, c.price, c.freezeID, c.quantity⟩

theorem side_terms_ne (c : MatchCommand) : (terms c).side ≠ "" := by
  have htext : ∀ side : OrderSide, side.text ≠ "" := by
    intro side
    cases side <;> decide
  exact htext c.side

/-- The order is a later state of the order of a command. -/
def Stems (c : MatchCommand) (o : Order) : Prop := ∃ nowMillis, Derives (c.toOrder nowMillis) o

theorem Stems.trans {c : MatchCommand} {o o' : Order} (h : Stems c o) (h' : Derives o o') : Stems c o' := by
  obtain ⟨nowMillis, h⟩ := h
  exact ⟨nowMillis, h.trans h'⟩

/-- An event of an order fits the command the order stems from. -/
structure EventOf (c : MatchCommand) (event : OrderEvent) : Prop where
  orderID : event.orderID = c.orderID
  fits : Processor.Fits (terms c) (Processor.stateOf event)

theorem eventOf_buildPassiveOrderEvent {c : MatchCommand} {o : Order} (h : Stems c o) (hquantity : 0 ≤ c.quantity)
    (traceID collateralAsset : String) : EventOf c (buildPassiveOrderEvent traceID collateralAsset o) := by
  obtain ⟨nowMillis, h⟩ := h
  have hfilled : 0 ≤ o.filledQuantity := h.filled
  have hsame : o.quantity = c.quantity := h.terms.quantity
  refine ⟨h.terms.orderID, congrArg OrderSide.text h.terms.side, h.terms.price, .inl rfl,
    o.remainingQuantity_nonneg, ?_⟩
  have hle : o.remainingQuantity ≤ c.quantity := by
    rw [Order.remainingQuantity]
    split_ifs <;> omega
  exact hle

theorem eventOf_buildOrderEvent {c command : MatchCommand} {o : Order} (h : Stems c o) (hquantity : 0 ≤ c.quantity)
    (hfreeze : command.freezeID = c.freezeID) : EventOf c (buildOrderEvent command o) := by
  have hpassive := eventOf_buildPassiveOrderEvent h hquantity command.traceID command.collateralAsset
  exact ⟨hpassive.orderID, hpassive.fits.side, hpassive.fits.price, .inr hfreeze, hpassive.fits.remaining⟩

/-- An event of a trade between the orders of two commands, without fees. -/
structure TradeBetween (buyer seller : MatchCommand) (event : TradeMatchedEvent) : Prop where
  buys : buyer.side = .buy
  sells : seller.side = .sell
  buyerID : buyer.orderID ≠ ""
  sellerID : seller.orderID ≠ ""
  differ : seller.orderID ≠ buyer.orderID
  settlement : event.settlementSides = (buyer.orderID, seller.userID)
  position : event.positionSides = (seller.orderID, buyer.userID)
  fees : event.tradeFees = (0, 0)
  collateralAsset : event.collateralAsset = Assets.defaultCollateralAsset
  price : 0 < event.price
  quantity : 0 < event.quantity
  key : trimSpace event.idempotencyKey ≠ ""

theorem bySide_text {α : Type*} {event : TradeMatchedEvent} {side : OrderSide} (h : event.takerSide = side.text)
    (buy sell none : α) : event.bySide buy sell none = if side = .buy then buy else sell := by
  rw [TradeMatchedEvent.bySide, h]
  cases side with
  | buy => rw [if_pos (by decide), if_pos rfl]
  | sell => rw [if_neg (by decide), if_pos (by decide), if_neg (by decide)]

/-- A trade is between a buyer and a seller, one of them the taker. -/
theorem tradeBetween_buildTradeEvent {taker makerCommand : MatchCommand} {order maker : Order} {trade : Trade}
    (h : TradesWith order maker trade) (htaker : Stems taker order) (hmaker : Stems makerCommand maker)
    (hside : maker.side = order.side.opposite) (htakerID : taker.orderID ≠ "") (hmakerID : makerCommand.orderID ≠ "")
    (hdiffer : taker.orderID ≠ makerCommand.orderID) (hprice : 0 < maker.price) (eventID traceID : String) :
    ∃ buyer seller, (buyer = taker ∧ seller = makerCommand ∨ buyer = makerCommand ∧ seller = taker) ∧
      TradeBetween buyer seller
        (buildTradeEvent .free eventID traceID Assets.defaultCollateralAsset trade) := by
  obtain ⟨now, htaker⟩ := htaker
  obtain ⟨now', hmaker⟩ := hmaker
  set event := buildTradeEvent .free eventID traceID Assets.defaultCollateralAsset trade with hevent
  have hby : ∀ {α : Type} (buy sell none : α),
      event.bySide buy sell none = if order.side = .buy then buy else sell := fun buy sell none ↦
    bySide_text (congrArg OrderSide.text h.takerSide) buy sell none
  have hfree : event.takerFee = 0 ∧ event.makerFee = 0 := by
    simp only [hevent, buildTradeEvent, Schedule.compute_free, Option.getD_some, and_self]
  have hfees : event.tradeFees = (0, 0) := by
    rw [TradeMatchedEvent.tradeFees, hby, hfree.1, hfree.2, ite_self]
  have hkey : trimSpace event.idempotencyKey ≠ "" := by
    obtain ⟨n, hn⟩ := h.tradeID
    have hid : event.tradeID = trade.bookKey ++ ":" ++ padDecimal 8 n := hn
    have hmem : ':' ∈ event.tradeID.toList := by simp [hid]
    have hne : event.tradeID ≠ "" := by
      intro hempty
      rw [hempty] at hmem
      exact absurd hmem List.not_mem_nil
    rw [TradeMatchedEvent.idempotencyKey, if_neg hne]
    exact trimSpace_ne_empty hmem (by decide)
  have hprice' : 0 < event.price := lt_of_lt_of_eq hprice h.price.symm
  have htakerOrder : event.takerOrderID = taker.orderID := h.takerOrderID.trans htaker.terms.orderID
  have hmakerOrder : event.makerOrderID = makerCommand.orderID := h.makerOrderID.trans hmaker.terms.orderID
  have htakerUser : event.takerUserID = taker.userID := h.takerUserID.trans htaker.terms.userID
  have hmakerUser : event.makerUserID = makerCommand.userID := h.makerUserID.trans hmaker.terms.userID
  have htakerSide : order.side = taker.side := htaker.terms.side
  have hmakerSide : maker.side = makerCommand.side := hmaker.terms.side
  cases hbuy : order.side with
  | buy =>
    rw [hbuy] at hside htakerSide hby
    refine ⟨taker, makerCommand, .inl ⟨rfl, rfl⟩, htakerSide.symm, hmakerSide.symm.trans hside, htakerID,
      hmakerID, hdiffer.symm, ?_, ?_, hfees, rfl, hprice', h.quantity, hkey⟩
    · rw [TradeMatchedEvent.settlementSides, hby, if_pos rfl, htakerOrder, hmakerUser]
    · rw [TradeMatchedEvent.positionSides, hby, if_pos rfl, hmakerOrder, htakerUser]
  | sell =>
    rw [hbuy] at hside htakerSide hby
    refine ⟨makerCommand, taker, .inr ⟨rfl, rfl⟩, hmakerSide.symm.trans hside, htakerSide.symm, hmakerID,
      htakerID, hdiffer, ?_, ?_, hfees, rfl, hprice', h.quantity, hkey⟩
    · rw [TradeMatchedEvent.settlementSides, hby, if_neg (by decide), hmakerOrder, htakerUser]
    · rw [TradeMatchedEvent.positionSides, hby, if_neg (by decide), htakerOrder, hmakerUser]

end FunnyOption.PostTrade
