import FunnyOption.Foundation.Text

/-!
# Orders and trades

The records of `internal/matching/model`. Quantities and prices are integers, the sequence counters
are natural numbers. A text that the source restricts to a few constants is an inductive type with a
`text`; the zero value of such a field is `unset`.

`DirectOrder` holds the fields of `Order` again next to its list pointers, and `FromOrder` and
`ToOrder` copy them; a resting order is therefore an `Order` here.
-/

open Foundation

namespace FunnyOption.Matching

/-! ## Constants -/

/-- `OrderSide`. -/
inductive OrderSide where
  | buy
  | sell
  deriving DecidableEq, Repr

/-- The text of a side. -/
def OrderSide.text : OrderSide → String
  | .buy => "BUY"
  | .sell => "SELL"

/-- The side an order trades with. -/
def OrderSide.opposite : OrderSide → OrderSide
  | .buy => .sell
  | .sell => .buy

/-- `OrderType`. -/
inductive OrderType where
  | limit
  | market
  deriving DecidableEq, Repr

/-- The text of an order type. -/
def OrderType.text : OrderType → String
  | .limit => "LIMIT"
  | .market => "MARKET"

/-- `TimeInForce`. -/
inductive TimeInForce where
  | gtc
  | ioc
  | fok
  | postOnly
  deriving DecidableEq, Repr

/-- The text of a time in force. -/
def TimeInForce.text : TimeInForce → String
  | .gtc => "GTC"
  | .ioc => "IOC"
  | .fok => "FOK"
  | .postOnly => "POST_ONLY"

/-- `STPStrategy`: what happens when an order meets one of the same user. -/
inductive STPStrategy where
  | none
  | cancelTaker
  | cancelMaker
  | cancelBoth
  deriving DecidableEq, Repr

/-- `OrderStatus`. -/
inductive OrderStatus where
  | unset
  | new
  | partiallyFilled
  | filled
  | cancelled
  | rejected
  deriving DecidableEq, Repr

/-- The text of a status. -/
def OrderStatus.text : OrderStatus → String
  | .unset => ""
  | .new => "NEW"
  | .partiallyFilled => "PARTIALLY_FILLED"
  | .filled => "FILLED"
  | .cancelled => "CANCELLED"
  | .rejected => "REJECTED"

/-- `CancelReason`, as far as the engine sets it. -/
inductive CancelReason where
  | unset
  | none
  | iocNoLiquidity
  | iocPartialFill
  | marketClosed
  | validationFailed
  | stpTaker
  | stpMaker
  | stpBoth
  | fokNotFilled
  | postOnlyCross
  | amended
  deriving DecidableEq, Repr

/-- The text of a cancel reason. -/
def CancelReason.text : CancelReason → String
  | .unset => ""
  | .none => "NONE"
  | .iocNoLiquidity => "IOC_NO_LIQUIDITY"
  | .iocPartialFill => "IOC_PARTIAL_FILL"
  | .marketClosed => "MARKET_CLOSED"
  | .validationFailed => "VALIDATION_FAILED"
  | .stpTaker => "STP_CANCEL_TAKER"
  | .stpMaker => "STP_CANCEL_MAKER"
  | .stpBoth => "STP_CANCEL_BOTH"
  | .fokNotFilled => "FOK_NOT_FILLED"
  | .postOnlyCross => "POST_ONLY_CROSS"
  | .amended => "AMENDED"

/-! ## Orders -/

/-- `BuildBookKey`. -/
def buildBookKey (marketID : ℤ) (outcome : String) : String := toString marketID ++ ":" ++ toUpper (trimSpace outcome)

/-- `Order`. -/
structure Order where
  orderID : String
  clientOrderID : String
  userID : ℤ
  marketID : ℤ
  outcome : String
  side : OrderSide
  type : OrderType
  timeInForce : TimeInForce
  stpStrategy : STPStrategy
  price : ℤ
  quantity : ℤ
  filledQuantity : ℤ
  status : OrderStatus
  cancelReason : CancelReason
  createdAtMillis : ℤ
  updatedAtMillis : ℤ
  deriving DecidableEq, Repr

namespace Order

/-- `Validate`: the error text, if there is an error. -/
def validate (o : Order) : Option String :=
  if o.orderID = "" then some "assert: order_id is required"
  else if o.quantity ≤ 0 then some "assert: quantity must be positive"
  else if o.price < 1 ∨ o.price > 9999 then some "assert: price out of range [1, 9999]"
  else none

/-- `BookKey`. -/
def bookKey (o : Order) : String := buildBookKey o.marketID o.outcome

/-- `RemainingQuantity`. -/
def remainingQuantity (o : Order) : ℤ :=
  if o.quantity - o.filledQuantity < 0 then 0 else o.quantity - o.filledQuantity

/-- `ApplyFill`. -/
def applyFill (o : Order) (quantity : ℤ) : Order :=
  { o with
    filledQuantity := o.filledQuantity + quantity
    status :=
      if o.filledQuantity + quantity ≥ o.quantity then .filled
      else if o.filledQuantity + quantity > 0 then .partiallyFilled
      else o.status }

/-- `Cancel`. -/
def cancel (o : Order) (reason : CancelReason) : Order := { o with cancelReason := reason, status := .cancelled }

/-- `Reject`. -/
def reject (o : Order) (reason : CancelReason) : Order := { o with cancelReason := reason, status := .rejected }

/-- The order with the status that `PlaceOrder` gives to one without. -/
def opened (o : Order) : Order := { o with status := if o.status = .unset then .new else o.status }

/-- The order with the status of a resting order. -/
def rested (o : Order) : Order := { o with status := if o.filledQuantity > 0 then .partiallyFilled else .new }

/-- Whether a price on the other side is good enough for the order. -/
def crosses (o : Order) (price : ℤ) : Bool :=
  match o.side with
  | .buy => o.price ≥ price
  | .sell => o.price ≤ price

theorem remainingQuantity_nonneg (o : Order) : 0 ≤ o.remainingQuantity := by
  rw [remainingQuantity]
  split_ifs <;> omega

/-- What a valid order has. -/
theorem validate_eq_none {o : Order} (h : o.validate = none) : o.orderID ≠ "" ∧ 0 < o.price ∧ 0 < o.quantity := by
  rw [validate] at h
  split_ifs at h with hid
  exact ⟨hid, by omega, by omega⟩

/-- A fill of at most the remaining quantity takes exactly that much off it. -/
theorem remainingQuantity_applyFill (o : Order) {quantity : ℤ} (hpos : 0 < quantity)
    (hle : quantity ≤ o.remainingQuantity) :
    (o.applyFill quantity).remainingQuantity = o.remainingQuantity - quantity := by
  simp only [remainingQuantity, applyFill] at hle ⊢
  split_ifs at hle ⊢ <;> omega

end Order

/-! ## Trades -/

/-- `DeterministicTradeID`. -/
def deterministicTradeID (bookKey : String) (localSeq : ℕ) : String := bookKey ++ ":" ++ padDecimal 8 localSeq

/-- `Trade`. -/
structure Trade where
  sequence : ℕ
  tradeID : String
  marketID : ℤ
  outcome : String
  bookKey : String
  price : ℤ
  quantity : ℤ
  takerOrderID : String
  makerOrderID : String
  takerUserID : ℤ
  makerUserID : ℤ
  takerSide : OrderSide
  makerSide : OrderSide
  matchedAtMillis : ℤ
  epochID : ℕ
  deriving DecidableEq, Repr

/-- The ids of one book differ if their numbers do. -/
theorem deterministicTradeID_injective (bookKey : String) : Function.Injective (deterministicTradeID bookKey) := by
  intro m n h
  have htail : padDecimal 8 m = padDecimal 8 n := by
    have h' := congrArg String.toList h
    simp only [deterministicTradeID, String.toList_append, List.append_cancel_left_eq] at h'
    exact String.toList_injective h'
  exact padDecimal_injective 8 htail

end FunnyOption.Matching
