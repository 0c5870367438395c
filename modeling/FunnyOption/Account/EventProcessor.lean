import FunnyOption.Account.BalanceBook
import FunnyOption.Shared.Assets

/-!
# The event processor of the account service

`EventProcessor` applies the events of orders and of trades to the balance book. It keeps a registry
of orders: which freeze belongs to an order, and how much of the order is left according to the last
event about it. Orders that are not in the registry are looked up in the table of orders; what the
table answers is an argument here, as is the answer to whether the rollup is frozen.

A handler that fails returns an error and leaves what it did before the error in place, so handlers
return the account together with an error or nothing.

## What the handlers do to totals

An event of an order only freezes and releases: `total_handleOrderEvent`. An event of a trade draws on
the two freezes, and releases what it believes to be in excess, before it pays: `drawFreeze` is that
part for one of the two orders.
-/

open Foundation

namespace FunnyOption.Account

/-! ## Events -/

/-- `OrderEvent`. -/
structure OrderEvent where
  commandID : String
  traceID : String
  orderID : String
  clientOrderID : String
  freezeID : String
  freezeAsset : String
  freezeAmount : ℤ
  collateralAsset : String
  userID : ℤ
  marketID : ℤ
  outcome : String
  side : String
  type : String
  timeInForce : String
  status : String
  cancelReason : String
  price : ℤ
  quantity : ℤ
  filledQuantity : ℤ
  remainingQuantity : ℤ
  deriving DecidableEq, Repr

/-- `TradeMatchedEvent`. -/
structure TradeMatchedEvent where
  eventID : String
  tradeID : String
  sequence : ℕ
  epochID : ℕ
  traceID : String
  collateralAsset : String
  marketID : ℤ
  outcome : String
  bookKey : String
  price : ℤ
  quantity : ℤ
  takerOrderID : String
  makerOrderID : String
  takerUserID : ℤ
  makerUserID : ℤ
  takerSide : String
  makerSide : String
  takerFeeBps : ℤ
  makerFeeBps : ℤ
  takerFee : ℤ
  makerFee : ℤ
  occurredAtMillis : ℤ
  deriving DecidableEq, Repr

/-! ## The registry -/

/-- `OrderState`. -/
structure OrderState where
  orderID : String
  userID : ℤ
  side : String
  price : ℤ
  freezeID : String
  freezeAsset : String
  freezeApplied : Bool
  status : String
  remainingQuantity : ℤ
  deriving DecidableEq, Repr

/-- `OrderRegistry`. -/
abbrev OrderRegistry := String → Option OrderState

/-- The fields of `state` written over those of `existing`, except where they are empty. -/
def OrderState.overwrite (existing state : OrderState) : OrderState where
  orderID := existing.orderID
  userID := if state.userID ≠ 0 then state.userID else existing.userID
  side := if state.side ≠ "" then state.side else existing.side
  price := if state.price ≠ 0 then state.price else existing.price
  freezeID := if state.freezeID ≠ "" then state.freezeID else existing.freezeID
  freezeAsset := if state.freezeAsset ≠ "" then state.freezeAsset else existing.freezeAsset
  freezeApplied := existing.freezeApplied || state.freezeApplied
  status := if state.status ≠ "" then state.status else existing.status
  remainingQuantity := state.remainingQuantity

/-- `Get`: the registry, where an order that was loaded is kept, and the order. -/
def OrderRegistry.get (registry : OrderRegistry) (loaded : Option OrderState) (orderID : String) :
    OrderRegistry × Option OrderState :=
  match registry orderID with
  | some state => (registry, some state)
  | none =>
    match loaded with
    | some state => (Function.update registry orderID (some state), some state)
    | none => (registry, none)

/-- The order that `Upsert` writes over. -/
def OrderRegistry.existing (registry : OrderRegistry) (persisted : Option OrderState)
    (orderID : String) : OrderState :=
  (registry orderID).getD ((if orderID ≠ "" then persisted else none).getD
    ⟨orderID, 0, "", 0, "", "", false, "", 0⟩)

/-- `Upsert`. -/
def OrderRegistry.upsert (registry : OrderRegistry) (persisted : Option OrderState)
    (state : OrderState) : OrderRegistry × OrderState :=
  let merged := (registry.existing persisted state.orderID).overwrite state
  (Function.update registry state.orderID (some merged), merged)

/-! ## Handlers -/

/-- The errors of a handler. -/
inductive EventError where
  /-- The state of the rollup could not be read. -/
  | store
  | book (error : BookError)
  | message (text : String)
  deriving DecidableEq

/-- `EventProcessor`. -/
structure Processor where
  book : BalanceBook
  registry : OrderRegistry

/-- What a handler returns. -/
abbrev Handled := Processor × Except EventError Unit

/-- Go on with what comes next, unless there was an error. -/
def Handled.andThen (h : Handled) (next : Processor → Handled) : Handled :=
  match h with
  | (p, .error e) => (p, .error e)
  | (p, .ok ()) => next p

theorem Handled.andThen_of_ok {h : Handled} (hok : h.2 = .ok ()) (next : Processor → Handled) :
    h.andThen next = next h.1 := by
  rcases h with ⟨p, e | ⟨⟩⟩
  · exact absurd hok (by simp)
  · rfl

/-- `collateralAsset`. -/
def collateralAsset (asset : String) : String := Assets.normalizeAsset asset

/-- `freezeAsset`. -/
def freezeAsset (event : OrderEvent) : String :=
  if trimSpace event.freezeAsset ≠ "" then collateralAsset event.freezeAsset
  else collateralAsset event.collateralAsset

/-- `freezeAssetFromOrderEvent`. -/
def freezeAssetFromOrderEvent (event : OrderEvent) : String :=
  if trimSpace event.freezeID = "" then "" else freezeAsset event

/-- `shouldReleaseFreeze`. -/
def shouldReleaseFreeze (status : String) (remainingQuantity : ℤ) : Bool :=
  (toUpper (trimSpace status) = "CANCELLED" || toUpper (trimSpace status) = "REJECTED") && remainingQuantity > 0

/-- `expectedFreezeAmount`. -/
def expectedFreezeAmount (state : OrderState) : Except EventError ℤ :=
  if state.remainingQuantity < 0 then .error (.message "remaining quantity must not be negative")
  else if toUpper (trimSpace state.side) = "BUY" then
    if state.remainingQuantity = 0 then .ok 0
    else if state.price < 0 then .error (.message "price must not be negative")
    else if state.price > 0 ∧ state.remainingQuantity > maxInt64 / state.price then
      .error (.message "freeze reserve overflow")
    else .ok (state.price * state.remainingQuantity)
  else if toUpper (trimSpace state.side) = "SELL" then .ok state.remainingQuantity
  else .error (.message ("unsupported side: " ++ state.side))

/-- `tradeNotional`. -/
def tradeNotional (price quantity : ℤ) : Except EventError ℤ :=
  if price ≤ 0 ∨ quantity ≤ 0 then
    .error (.message "trade notional requires positive price and quantity")
  else if price > maxInt64 / quantity then .error (.message "trade notional overflow")
  else .ok (price * quantity)

namespace TradeMatchedEvent

variable (event : TradeMatchedEvent)

/-- The value that the side of the taker selects. -/
def bySide {α : Type*} (buy sell none : α) : α :=
  if toUpper (trimSpace event.takerSide) = "BUY" then buy
  else if toUpper (trimSpace event.takerSide) = "SELL" then sell
  else none

/-- `settlementSides`: the order that pays and the user who receives. -/
def settlementSides : String × ℤ :=
  event.bySide (event.takerOrderID, event.makerUserID) (event.makerOrderID, event.takerUserID) ("", 0)

/-- `positionSides`: the order that sells and the user who buys. -/
def positionSides : String × ℤ :=
  event.bySide (event.makerOrderID, event.takerUserID) (event.takerOrderID, event.makerUserID) ("", 0)

/-- `tradeFees`: the fee of the receiver and that of the payer. -/
def tradeFees : ℤ × ℤ := event.bySide (event.makerFee, event.takerFee) (event.takerFee, event.makerFee) (0, 0)

/-- The key that makes the credits of a trade idempotent. -/
def idempotencyKey : String := if event.tradeID = "" then event.eventID else event.tradeID

/-- `PlatformFeeUserID`. -/
def platformFeeUserID : ℤ := 0

/-- The credit of the receiver. -/
def collateralCredit (notional : ℤ) : RefRequest :=
  ⟨event.settlementSides.2, Account.collateralAsset event.collateralAsset, notional - event.tradeFees.1,
    "TRADE_COLLATERAL", event.idempotencyKey⟩

/-- The credit of the buyer. -/
def positionCredit : RefRequest :=
  ⟨event.positionSides.2, Assets.positionAsset event.marketID event.outcome, event.quantity,
    "TRADE_POSITION", event.idempotencyKey⟩

/-- The credit of the platform. -/
def feeCredit : RefRequest := ⟨platformFeeUserID, Account.collateralAsset event.collateralAsset,
    event.tradeFees.1 + event.tradeFees.2,
    "TRADE_FEE", event.idempotencyKey⟩

end TradeMatchedEvent

namespace Processor

variable (p : Processor)

/-- The order as an event states it. -/
def stateOf (event : OrderEvent) : OrderState where
  orderID := event.orderID
  userID := event.userID
  side := event.side
  price := event.price
  freezeID := event.freezeID
  freezeAsset := freezeAssetFromOrderEvent event
  freezeApplied := false
  status := event.status
  remainingQuantity := event.remainingQuantity

/-- The request for the freeze that an event carries. -/
def freezeRequest (event : OrderEvent) : FreezeRequest :=
  ⟨event.freezeID, event.userID, freezeAsset event, "ORDER", event.orderID, event.freezeAmount⟩

/-- The second part of `HandleOrderEvent`: take the freeze, if the event carries one that was not
applied yet. -/
def applyFreeze (event : OrderEvent) (state : OrderState) : Processor × Except EventError OrderState :=
  if event.freezeID ≠ "" ∧ state.freezeApplied = false ∧ event.freezeAmount > 0 then
    let frozen := p.book.applyExternalFreeze "" (freezeRequest event)
    let upserted := p.registry.upsert none
      { state with
        orderID := event.orderID
        freezeID := event.freezeID
        freezeAsset := freezeAssetFromOrderEvent event
        freezeApplied := true }
    match frozen.2 with
    | .ok _ => (⟨frozen.1, upserted.1⟩, .ok upserted.2)
    | .error .freezeAlreadyExists => (⟨frozen.1, upserted.1⟩, .ok upserted.2)
    | .error e => (⟨frozen.1, p.registry⟩, .error (.book e))
  else (p, .ok state)

/-- The third part of `HandleOrderEvent`: release what an order that ended has left. -/
def releaseEnded (event : OrderEvent) (state : OrderState) : Handled :=
  if shouldReleaseFreeze event.status event.remainingQuantity ∧ state.freezeID ≠ "" ∧
      (p.book.freezeAmount state.freezeID).isSome then
    let released := p.book.releaseFreeze state.freezeID
    match released.2 with
    | .ok () => (⟨released.1, p.registry⟩, .ok ())
    | .error .freezeAlreadyClosed => (⟨released.1, p.registry⟩, .ok ())
    | .error e => (⟨released.1, p.registry⟩, .error (.book e))
  else (p, .ok ())

/-- `HandleOrderEvent`. -/
def handleOrderEvent (rollupFrozen : Option Bool) (persisted : Option OrderState)
    (event : OrderEvent) : Handled :=
  match rollupFrozen with
  | none => (p, .error .store)
  | some true => (p, .ok ())
  | some false =>
    let upserted := p.registry.upsert persisted (stateOf event)
    match applyFreeze ⟨p.book, upserted.1⟩ event upserted.2 with
    | (p, .error e) => (p, .error e)
    | (p, .ok state) => p.releaseEnded event state

/-- `releaseExcessFreeze`. -/
def releaseExcessFreeze (state : OrderState) : Handled :=
  match p.book.freezeAmount state.freezeID with
  | none => (p, .ok ())
  | some current =>
    match expectedFreezeAmount state with
    | .error e => (p, .error e)
    | .ok expected =>
      if current ≤ expected then (p, .ok ())
      else
        let released := p.book.releaseFreezeAmount state.freezeID (current - expected)
        (⟨released.1, p.registry⟩, released.2.mapError EventError.book)

/-- The part of `HandleTradeMatched` for one of the two orders: draw an amount on its freeze, and
release what is in excess. -/
def drawFreeze (loaded : Option OrderState) (orderID : String) (amount : ℤ) : Handled :=
  if orderID = "" then (p, .ok ())
  else
    let found := p.registry.get loaded orderID
    match found.2 with
    | none => (⟨p.book, found.1⟩, .ok ())
    | some state =>
      if state.freezeID = "" then (⟨p.book, found.1⟩, .ok ())
      else
        let consumed := p.book.consumeFreeze state.freezeID amount
        match consumed.2 with
        | .ok () => releaseExcessFreeze ⟨consumed.1, found.1⟩ state
        | .error .freezeAlreadyClosed => releaseExcessFreeze ⟨consumed.1, found.1⟩ state
        | .error e => (⟨consumed.1, found.1⟩, .error (.book e))

/-- A credit of `HandleTradeMatched`, made under a condition. -/
def creditIf (condition : Prop) [Decidable condition] (req : RefRequest) : Handled :=
  if condition then
    let credited := p.book.creditAvailableWithRef req
    (⟨credited.1, p.registry⟩, (credited.2.mapError EventError.book).map fun _ ↦ ())
  else (p, .ok ())

/-- The credits of `HandleTradeMatched`. -/
def creditTrade (event : TradeMatchedEvent) (notional : ℤ) : Handled :=
  (p.creditIf (event.settlementSides.2 > 0 ∧ notional - event.tradeFees.1 > 0)
      (event.collateralCredit notional)).andThen fun p ↦
    (p.creditIf (event.positionSides.2 > 0) event.positionCredit).andThen fun p ↦
      p.creditIf (event.tradeFees.1 + event.tradeFees.2 > 0) event.feeCredit

/-- `HandleTradeMatched`. -/
def handleTradeMatched (rollupFrozen : Option Bool) (payer seller : Option OrderState)
    (event : TradeMatchedEvent) : Handled :=
  match rollupFrozen with
  | none => (p, .error .store)
  | some true => (p, .ok ())
  | some false =>
    match tradeNotional event.price event.quantity with
    | .error e => (p, .error e)
    | .ok notional =>
      (p.drawFreeze payer event.settlementSides.1 notional).andThen fun p ↦
        (p.drawFreeze seller event.positionSides.1 event.quantity).andThen fun p ↦
          p.creditTrade event notional

/-! ## Events of orders -/

variable {p} {event : OrderEvent} {persisted : Option OrderState} {rollupFrozen : Option Bool}

/-- A handler that moves money between the available and the frozen amount of users at most. -/
structure Shifts (p p' : Processor) : Prop where
  total : ∀ k, p'.book.total k = p.book.total k
  ages : p.book.Ages p'.book
  rows : ∀ k, (p.book.balances k).isSome → (p'.book.balances k).isSome

theorem Shifts.of_book_eq {p p' : Processor} (h : p'.book = p.book) : Shifts p p' :=
  ⟨fun k ↦ by rw [h], .of_freezes_eq (by rw [h]), fun k hk ↦ by rw [h]; exact hk⟩

theorem Shifts.trans {p p' p'' : Processor} (h : Shifts p p') (h' : Shifts p' p'') : Shifts p p'' :=
  ⟨fun k ↦ (h'.total k).trans (h.total k), h.ages.trans h'.ages, fun k hk ↦ h'.rows k (h.rows k hk)⟩

theorem shifts_preFreeze (p : Processor) (newID : String) (req : FreezeRequest) (registry : OrderRegistry) :
    Shifts p ⟨(p.book.preFreeze newID req).1, registry⟩ :=
  ⟨p.book.total_preFreeze newID req, p.book.run_ages (.preFreeze newID req),
    (p.book.run_keeps (.preFreeze newID req)).rows⟩

theorem shifts_applyFreeze (p : Processor) (event : OrderEvent) (state : OrderState) :
    Shifts p (p.applyFreeze event state).1 := by
  have hfrozen : ∀ registry,
      Shifts p ⟨(p.book.applyExternalFreeze "" (freezeRequest event)).1, registry⟩ := by
    intro registry
    rw [BalanceBook.applyExternalFreeze]
    split_ifs
    · exact .of_book_eq rfl
    · exact p.shifts_preFreeze _ _ _
  simp only [applyFreeze]
  split_ifs
  · split <;> exact hfrozen _
  · exact .of_book_eq rfl

theorem shifts_releaseEnded (p : Processor) (event : OrderEvent) (state : OrderState) :
    Shifts p (p.releaseEnded event state).1 := by
  have hreleased : Shifts p ⟨(p.book.releaseFreeze state.freezeID).1, p.registry⟩ :=
    ⟨p.book.total_releaseFreeze state.freezeID, p.book.run_ages (.releaseFreeze state.freezeID),
      (p.book.run_keeps (.releaseFreeze state.freezeID)).rows⟩
  simp only [releaseEnded]
  split_ifs
  · split <;> exact hreleased
  · exact .of_book_eq rfl

/-- **An event of an order never changes what a user has.** -/
theorem shifts_handleOrderEvent (p : Processor) (rollupFrozen : Option Bool) (persisted : Option OrderState)
    (event : OrderEvent) : Shifts p (p.handleOrderEvent rollupFrozen persisted event).1 := by
  rcases rollupFrozen with _ | _ | _
  · exact .of_book_eq rfl
  · have happly := shifts_applyFreeze
      ⟨p.book, (p.registry.upsert persisted (stateOf event)).1⟩ event
      (p.registry.upsert persisted (stateOf event)).2
    have hstart : Shifts p ⟨p.book, (p.registry.upsert persisted (stateOf event)).1⟩ := .of_book_eq rfl
    simp only [handleOrderEvent]
    split
    · next p' e heq =>
      rw [heq] at happly
      exact hstart.trans happly
    · next p' state heq =>
      rw [heq] at happly
      exact (hstart.trans happly).trans (p'.shifts_releaseEnded event state)
  · exact .of_book_eq rfl

/-- **A stream of order events changes no user's total of any asset and loses no freeze**, whichever events repeat or
fail. -/
theorem shifts_orderEvents (p : Processor) (events : List (Option Bool × Option OrderState × OrderEvent)) :
    Shifts p (events.foldl (fun p e ↦ (p.handleOrderEvent e.1 e.2.1 e.2.2).1) p) := by
  induction events generalizing p with
  | nil => exact .of_book_eq rfl
  | cons e events ih => exact (p.shifts_handleOrderEvent e.1 e.2.1 e.2.2).trans (ih _)

/-! ### The registry -/

/-- The terms of an order, as far as its registered state depends on them. -/
structure OrderTerms where
  side : String
  price : ℤ
  freezeID : String
  quantity : ℤ

/-- The registered state of an order with the given terms. -/
@[mk_iff]
structure Fits (terms : OrderTerms) (state : OrderState) : Prop where
  side : state.side = terms.side
  price : state.price = terms.price
  freezeID : state.freezeID = "" ∨ state.freezeID = terms.freezeID
  remaining : 0 ≤ state.remainingQuantity ∧ state.remainingQuantity ≤ terms.quantity

instance (terms : OrderTerms) (state : OrderState) : Decidable (Fits terms state) :=
  decidable_of_iff' _ (fits_iff terms state)

variable {terms : OrderTerms}

/-- A state written over nothing, or over a state of the same order. -/
theorem Fits.overwrite {existing state : OrderState} (h : Fits terms state) (hside : terms.side ≠ "")
    (hexisting : Fits terms existing ∨ existing.price = 0 ∧ existing.freezeID = "") :
    Fits terms (existing.overwrite state) := by
  refine ⟨?_, ?_, ?_, h.remaining⟩
  · simp only [OrderState.overwrite]
    rw [if_pos (h.side ▸ hside), h.side]
  · simp only [OrderState.overwrite]
    split_ifs with hprice
    · exact h.price
    · rw [not_not] at hprice
      rcases hexisting with hexisting | ⟨hzero, -⟩
      · exact hexisting.price
      · rw [hzero, ← hprice, h.price]
  · simp only [OrderState.overwrite]
    split_ifs
    · exact h.freezeID
    · rcases hexisting with hexisting | ⟨-, hempty⟩
      · exact hexisting.freezeID
      · exact .inl hempty

/-- An order is written into the registry. -/
theorem registry_upsert (registry : OrderRegistry) (persisted : Option OrderState) (state : OrderState)
    (hstate : Fits terms state) (hside : terms.side ≠ "") (hold : ∀ old ∈ registry state.orderID, Fits terms old)
    (hrow : ∀ row ∈ persisted, Fits terms row) :
    Fits terms (registry.upsert persisted state).2 ∧ (registry.upsert persisted state).1 =
        Function.update registry state.orderID (some (registry.upsert persisted state).2) := by
  refine ⟨hstate.overwrite hside ?_, rfl⟩
  rw [OrderRegistry.existing]
  cases hreg : registry state.orderID with
  | some existing => exact .inl (hold existing hreg)
  | none =>
    rw [Option.getD_none]
    split_ifs
    · cases hload : persisted with
      | some row => exact .inl (hrow row hload)
      | none => exact .inr ⟨rfl, rfl⟩
    · exact .inr ⟨rfl, rfl⟩

/-- The registry differs at most at one order, whose state fits the terms. -/
def Registers (terms : OrderTerms) (orderID : String) (registry registry' : OrderRegistry) : Prop :=
  ∀ id state, registry' id = some state → registry id = some state ∨ id = orderID ∧ Fits terms state

variable {state : OrderState}

theorem Registers.update (orderID : String) (registry : OrderRegistry) (h : Fits terms state) :
    Registers terms orderID registry (Function.update registry orderID (some state)) := by
  intro id st hid
  by_cases heq : id = orderID
  · rw [heq, Function.update_self] at hid
    obtain rfl := Option.some_inj.mp hid
    exact .inr ⟨heq, h⟩
  · rw [Function.update_of_ne heq] at hid
    exact .inl hid

theorem Registers.trans {orderID : String} {r r' r'' : OrderRegistry} (h : Registers terms orderID r r')
    (h' : Registers terms orderID r' r'') : Registers terms orderID r r'' := by
  intro id state hid
  rcases h' id state hid with hid | hid
  · exact h id state hid
  · exact .inr hid

theorem registers_applyFreeze (p : Processor) (hstate : Fits terms state) (hevent : Fits terms (stateOf event))
    (hside : terms.side ≠ "") (hold : ∀ old ∈ p.registry event.orderID, Fits terms old) :
    Registers terms event.orderID p.registry (p.applyFreeze event state).1.registry := by
  have hsame : Registers terms event.orderID p.registry p.registry := fun _ _ h ↦ .inl h
  obtain ⟨hfits, hregistry⟩ := registry_upsert p.registry none
    { state with
      orderID := event.orderID
      freezeID := event.freezeID
      freezeAsset := freezeAssetFromOrderEvent event
      freezeApplied := true }
    ⟨hstate.side, hstate.price, hevent.freezeID, hstate.remaining⟩ hside hold nofun
  have hwrite := Registers.update event.orderID p.registry hfits
  rw [← hregistry] at hwrite
  simp only [applyFreeze]
  split_ifs
  · split
    · exact hwrite
    · exact hwrite
    · exact hsame
  · exact hsame

theorem registry_releaseEnded (p : Processor) (event : OrderEvent) (state : OrderState) :
    (p.releaseEnded event state).1.registry = p.registry := by
  simp only [releaseEnded]
  split_ifs
  · split <;> rfl
  · rfl

/-- **An event leaves a state that fits its order in the registry.** -/
theorem registers_handleOrderEvent (hevent : Fits terms (stateOf event)) (hside : terms.side ≠ "")
    (hold : ∀ old ∈ p.registry event.orderID, Fits terms old) (hrow : ∀ row ∈ persisted, Fits terms row) :
    Registers terms event.orderID p.registry
      (p.handleOrderEvent rollupFrozen persisted event).1.registry := by
  rcases rollupFrozen with _ | _ | _
  · exact fun _ _ h ↦ .inl h
  · obtain ⟨hfits, hregistry⟩ := registry_upsert p.registry persisted _ hevent hside hold hrow
    have hfirst := Registers.update event.orderID p.registry hfits
    have hself : ∀ old ∈ (p.registry.upsert persisted (stateOf event)).1 event.orderID,
        Fits terms old := by
      intro old hmem
      have hupdate : Function.update p.registry event.orderID (some _) event.orderID = some old := hmem
      rw [Function.update_self] at hupdate
      obtain rfl := Option.some_inj.mp hupdate
      exact hfits
    have hsecond := registers_applyFreeze ⟨p.book, (p.registry.upsert persisted (stateOf event)).1⟩
      hfits hevent hside hself
    simp only [handleOrderEvent]
    split
    · next q e heq =>
      rw [heq] at hsecond
      exact hfirst.trans hsecond
    · next q state heq =>
      rw [heq] at hsecond
      rw [registry_releaseEnded]
      exact hfirst.trans hsecond
  · exact fun _ _ h ↦ .inl h

/-! ## Events of trades -/

theorem get_cases {registry : OrderRegistry} {loaded : Option OrderState} {orderID : String}
    (h : (registry.get loaded orderID).2 = some state) : registry orderID = some state ∨ loaded = some state := by
  unfold OrderRegistry.get at h
  split at h
  · next st hst => exact .inl (hst.trans h)
  · split at h
    · exact .inr h
    · exact absurd h (by simp)

/-- Looking up one order does not change what is found for another. -/
theorem get_get_of_ne (registry : OrderRegistry) (loaded loaded' : Option OrderState) {orderID orderID' : String}
    (hne : orderID' ≠ orderID) :
    ((registry.get loaded orderID).1.get loaded' orderID').2 = (registry.get loaded' orderID').2 := by
  have hsame : (registry.get loaded orderID).1 orderID' = registry orderID' := by
    unfold OrderRegistry.get
    cases registry orderID with
    | some state => rfl
    | none =>
      cases loaded with
      | some row => exact Function.update_of_ne hne ..
      | none => rfl
  generalize (registry.get loaded orderID).1 = registry' at hsame ⊢
  unfold OrderRegistry.get
  rw [hsame]
  cases registry orderID' with
  | some state => rfl
  | none => cases loaded' <;> rfl

/-- Terms for which the reserve of what is left can always be computed. -/
structure OrderTerms.Reservable (terms : OrderTerms) : Prop where
  side : terms.side = "BUY" ∨ terms.side = "SELL"
  price : terms.side = "BUY" → 0 < terms.price ∧ terms.price * terms.quantity ≤ maxInt64

theorem expectedFreezeAmount_of_fits (h : Fits terms state) (hterms : terms.Reservable) :
    ∃ expected, expectedFreezeAmount state = .ok expected ∧
      0 ≤ expected := by
  obtain ⟨hnonneg, hle⟩ := h.remaining
  rw [expectedFreezeAmount, if_neg (not_lt.mpr hnonneg), h.side, h.price]
  rcases hterms.side with hside | hside
  · obtain ⟨hprice, hbound⟩ := hterms.price hside
    rw [hside, if_pos (by rfl)]
    split_ifs with hzero hneg hover
    · exact ⟨0, rfl, le_refl 0⟩
    · exact absurd hprice (not_lt.mpr hneg.le)
    · -- less is left than the quantity, whose reserve is in range
      refine absurd hover.2 (not_lt.mpr ((Int.le_ediv_iff_mul_le hprice).mpr ?_))
      calc state.remainingQuantity * terms.price
          ≤ terms.quantity * terms.price := mul_le_mul_of_nonneg_right hle hprice.le
        _ = terms.price * terms.quantity := mul_comm _ _
        _ ≤ maxInt64 := hbound
    · exact ⟨_, rfl, mul_nonneg hprice.le hnonneg⟩
  · rw [hside, if_neg (by decide), if_pos (by rfl)]
    exact ⟨_, rfl, hnonneg⟩

theorem normalizeAsset_collateralAsset (asset : String) : normalizeAsset (collateralAsset asset) ≠ "" := by
  rw [collateralAsset, Assets.normalizeAsset, normalizeAsset]
  split_ifs with h
  · decide
  · rwa [trimSpace_toUpper, trimSpace_trimSpace, toUpper_toUpper]

theorem tradeNotional_of_pos {price quantity : ℤ} (hprice : 0 < price) (hquantity : 0 < quantity)
    (hbound : price * quantity ≤ maxInt64) : tradeNotional price quantity = .ok (price * quantity) := by
  have hover : ¬ price > maxInt64 / quantity := not_lt.mpr ((Int.le_ediv_iff_mul_le hquantity).mpr hbound)
  rw [tradeNotional, if_neg (by omega), if_neg hover]

end Processor

end FunnyOption.Account
