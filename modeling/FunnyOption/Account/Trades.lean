import FunnyOption.Account.Draw

/-!
# A trade between two open freezes

What `HandleTradeMatched` does to a trade without a fee of the receiver that finds the freezes of both of its
orders open and sufficient. A `Leg` is one of the two orders, with its freeze and with the reserve that the registry
gives for the order. The theorem `handleTradeMatched_spec` gives what every user has after the trade.
-/

open Foundation

namespace FunnyOption.Account

open BalanceBook

/-! ## Credits -/

theorem BalanceBook.refKey_ne {refType refType' : String} (refID : String)
    (h : (toUpper (trimSpace refType)).length ≠ (toUpper (trimSpace refType')).length) :
    refKey refType refID ≠ refKey refType' refID := by
  intro heq
  have hlength := congrArg String.length heq
  simp only [refKey, String.length_append] at hlength
  omega

namespace Processor

variable {p : Processor}

/-- A reference is new, and an amount became available under it. -/
structure Credited (book : BalanceBook) (key : BalanceKey) (amount : ℤ) (ref : String)
    (book' : BalanceBook) : Prop where
  moves : Moves book book' key amount 0
  refs : book'.processedRefs = ref :: book.processedRefs

/-- A credit that passes its checks and was not made before. -/
theorem creditIf_spec {condition : Prop} [Decidable condition] (hcondition : condition) {userID amount : ℤ}
    {asset refType refID : String} (huser : 0 < userID) (hamount : 0 < amount) (hasset : normalizeAsset asset ≠ "")
    (htype : trimSpace refType ≠ "") (hid : trimSpace refID ≠ "")
    (hfresh : refKey refType refID ∉ p.book.processedRefs) :
    (p.creditIf condition ⟨userID, asset, amount, refType, refID⟩).2 = .ok () ∧
      Credited p.book (balanceKey userID asset) amount (refKey refType refID)
        (p.creditIf condition ⟨userID, asset, amount, refType, refID⟩).1.book := by
  have hvalid : RefRequest.Valid ⟨userID, asset, amount, refType, refID⟩ := ⟨⟨huser, hamount⟩, hasset, htype, hid⟩
  obtain ⟨hok, happlied⟩ := creditAvailableWithRef_of_valid hvalid hfresh
  simp only [creditIf, if_pos hcondition, hok]
  exact ⟨rfl, happlied.moves, happlied.processedRefs⟩

theorem creditIf_of_not {condition : Prop} [Decidable condition] (hcondition : ¬ condition) (req : RefRequest) :
    p.creditIf condition req = (p, .ok ()) := by
  simp only [creditIf, if_neg hcondition]

/-- The platform is never credited. -/
theorem creditIf_feeCredit (event : TradeMatchedEvent) :
    (p.creditIf (event.tradeFees.1 + event.tradeFees.2 > 0) event.feeCredit).1 = p := by
  have hrefused : p.book.creditAvailableWithRef event.feeCredit = (p.book, .error .invalidAmount) := by
    rw [creditAvailableWithRef, withRef, if_pos (.inl le_rfl)]
  rw [creditIf]
  split_ifs
  · rw [hrefused]
  · rfl

/-! ## Legs -/

/-- An order of a trade that finds its freeze open, with at least the amount in it. -/
structure Leg (p : Processor) (loaded : Option OrderState) (orderID : String) (amount : ℤ) where
  state : OrderState
  record : FreezeRecord
  /-- The reserve of what is left of the order. -/
  expected : ℤ
  orderID_ne : orderID ≠ ""
  found : (p.registry.get loaded orderID).2 = some state
  freezeID_ne : state.freezeID ≠ ""
  isOpen : p.book.Open state.freezeID record
  pos : 0 < amount
  covered : amount ≤ record.amount
  reserve : expectedFreezeAmount state = .ok expected
  nonneg : 0 ≤ expected

namespace Leg

variable {loaded loaded' : Option OrderState} {orderID orderID' : String} {amount amount' : ℤ}

/-- The balance that the freeze is taken from. -/
def key (leg : Leg p loaded orderID amount) : BalanceKey := balanceKey leg.record.userID leg.record.asset

theorem draws (leg : Leg p loaded orderID amount) :
    Draws p.book leg.state.freezeID leg.key amount (p.drawFreeze loaded orderID amount) ∧
      (p.drawFreeze loaded orderID amount).1.registry = (p.registry.get loaded orderID).1 :=
  draws_of_open leg.orderID_ne leg.found leg.freezeID_ne leg.isOpen ⟨leg.expected, leg.reserve, leg.nonneg⟩
    leg.pos leg.covered

/-- The second leg is drawn on after the first. -/
theorem draws_after (leg : Leg p loaded orderID amount) (first : Leg p loaded' orderID' amount')
    (hne : orderID ≠ orderID') (hfreeze : leg.state.freezeID ≠ first.state.freezeID) :
    Draws (p.drawFreeze loaded' orderID' amount').1.book leg.state.freezeID leg.key amount
      ((p.drawFreeze loaded' orderID' amount').1.drawFreeze loaded orderID amount) := by
  obtain ⟨hfirst, hregistry⟩ := first.draws
  have hfound := leg.found
  rw [← get_get_of_ne p.registry loaded' loaded hne, ← hregistry] at hfound
  have hopen := leg.isOpen
  exact (draws_of_open leg.orderID_ne hfound leg.freezeID_ne
    ⟨(hfirst.freezes _ hfreeze).trans hopen.lookup, hopen.active, hfirst.rows _ hopen.row⟩
    ⟨leg.expected, leg.reserve, leg.nonneg⟩ leg.pos leg.covered).1

end Leg

/-! ## Trades -/

/-- A trade between two open freezes. -/
structure Settles (p : Processor) (payer seller : Option OrderState) (event : TradeMatchedEvent) where
  buy : Leg p payer event.settlementSides.1 (event.price * event.quantity)
  sell : Leg p seller event.positionSides.1 event.quantity
  price : 0 < event.price
  bound : event.price * event.quantity ≤ maxInt64
  orders : event.positionSides.1 ≠ event.settlementSides.1
  freezes : sell.state.freezeID ≠ buy.state.freezeID
  users : 0 < event.settlementSides.2 ∧ 0 < event.positionSides.2
  key : trimSpace event.idempotencyKey ≠ ""
  collateralRef : refKey "TRADE_COLLATERAL" event.idempotencyKey ∉ p.book.processedRefs
  positionRef : refKey "TRADE_POSITION" event.idempotencyKey ∉ p.book.processedRefs

variable {event : TradeMatchedEvent} {payer seller : Option OrderState}

theorem trimSpace_tradeCollateral : trimSpace "TRADE_COLLATERAL" ≠ "" :=
  trimSpace_ne_empty (c := 'T') (by simp) (by decide)

theorem trimSpace_tradePosition : trimSpace "TRADE_POSITION" ≠ "" :=
  trimSpace_ne_empty (c := 'T') (by simp) (by decide)

theorem normalizeAsset_positionAsset_ne (marketID : ℤ) (outcome : String) :
    normalizeAsset (Assets.positionAsset marketID outcome) ≠ "" :=
  Assets.positionAsset_ne (by decide) marketID outcome

theorem refKey_position_ne (refID : String) : refKey "TRADE_POSITION" refID ≠ refKey "TRADE_COLLATERAL" refID :=
  refKey_ne refID (by decide +kernel)

/-- The credits of a trade that takes no fee from the receiver. It fails if there is a fee of the other side. -/
theorem creditTrade_spec {notional : ℤ} (hnotional : 0 < notional) (hquantity : 0 < event.quantity)
    (husers : 0 < event.settlementSides.2 ∧ 0 < event.positionSides.2) (hfee : event.tradeFees.1 = 0)
    (hkey : trimSpace event.idempotencyKey ≠ "")
    (hcollateral : refKey "TRADE_COLLATERAL" event.idempotencyKey ∉ p.book.processedRefs)
    (hposition : refKey "TRADE_POSITION" event.idempotencyKey ∉ p.book.processedRefs) :
    (event.tradeFees.1 + event.tradeFees.2 = 0 → (p.creditTrade event notional).2 = .ok ()) ∧
      ∀ k, (p.creditTrade event notional).1.book.total k = p.book.total k +
        (if k = balanceKey event.settlementSides.2 (collateralAsset event.collateralAsset) then notional else 0) +
        (if k = balanceKey event.positionSides.2 (Assets.positionAsset event.marketID event.outcome) then
          event.quantity else 0) := by
  have hpaid : event.settlementSides.2 > 0 ∧ notional - event.tradeFees.1 > 0 := ⟨husers.1, by omega⟩
  obtain ⟨hok, hcredited⟩ := creditIf_spec hpaid husers.1 hnotional
    (normalizeAsset_collateralAsset event.collateralAsset) trimSpace_tradeCollateral hkey hcollateral
  have hcredit : event.collateralCredit notional = ⟨event.settlementSides.2,
      collateralAsset event.collateralAsset, notional, "TRADE_COLLATERAL", event.idempotencyKey⟩ := by
    rw [TradeMatchedEvent.collateralCredit, hfee, sub_zero]
  rw [creditTrade, hcredit, Handled.andThen_of_ok hok, TradeMatchedEvent.positionCredit]
  generalize p.creditIf (event.settlementSides.2 > 0 ∧ notional - event.tradeFees.1 > 0) _ = first
    at hok hcredited ⊢
  have hfresh : refKey "TRADE_POSITION" event.idempotencyKey ∉ first.1.book.processedRefs := by
    rw [hcredited.refs, List.mem_cons, not_or]
    exact ⟨refKey_position_ne event.idempotencyKey, hposition⟩
  have hbuyer : event.positionSides.2 > 0 := husers.2
  obtain ⟨hok', hcredited'⟩ := creditIf_spec (p := first.1) hbuyer husers.2 hquantity
    (normalizeAsset_positionAsset_ne event.marketID event.outcome) trimSpace_tradePosition hkey hfresh
  rw [Handled.andThen_of_ok hok', creditIf_feeCredit]
  refine ⟨fun hzero ↦ ?_, fun k ↦ ?_⟩
  · rw [creditIf_of_not (by rw [hzero]; exact lt_irrefl 0)]
  · rw [hcredited'.moves.total, hcredited.moves.total, add_zero, add_zero]

/-- **A trade between two open freezes** that takes no fee from the receiver. -/
theorem handleTradeMatched_spec (h : Settles p payer seller event) (hfee : event.tradeFees.1 = 0) :
    (event.tradeFees.1 + event.tradeFees.2 = 0 → (p.handleTradeMatched (some false) payer seller event).2 = .ok ()) ∧
      ∀ k, (p.handleTradeMatched (some false) payer seller event).1.book.total k = p.book.total k -
        (if k = h.buy.key then event.price * event.quantity else 0) -
        (if k = h.sell.key then event.quantity else 0) +
        (if k = balanceKey event.settlementSides.2 (collateralAsset event.collateralAsset) then
          event.price * event.quantity else 0) +
        (if k = balanceKey event.positionSides.2 (Assets.positionAsset event.marketID event.outcome) then
          event.quantity else 0) := by
  obtain ⟨hbuy, -⟩ := h.buy.draws
  have hsell := h.sell.draws_after h.buy h.orders h.freezes
  obtain ⟨hok, htotal⟩ := creditTrade_spec h.buy.pos h.sell.pos h.users hfee h.key
    (by rw [hsell.refs, hbuy.refs]; exact h.collateralRef) (by rw [hsell.refs, hbuy.refs]; exact h.positionRef)
  simp only [handleTradeMatched, tradeNotional_of_pos h.price h.sell.pos h.bound]
  rw [Handled.andThen_of_ok hbuy.ok, Handled.andThen_of_ok hsell.ok]
  refine ⟨hok, fun k ↦ ?_⟩
  rw [htotal, hsell.total, hbuy.total]

/-! ## Trades of which only one freeze is open -/

/-- The second state has lost no freeze, no row and no order of the first. -/
structure Continues (p p' : Processor) : Prop where
  ages : p.book.Ages p'.book
  rows : ∀ k, (p.book.balances k).isSome → (p'.book.balances k).isSome
  registry : p'.registry = p.registry

theorem Continues.refl (p : Processor) : Continues p p := ⟨.of_freezes_eq rfl, fun _ h ↦ h, rfl⟩

theorem Continues.trans {p p' p'' : Processor} (h : Continues p p') (h' : Continues p' p'') : Continues p p'' :=
  ⟨h.ages.trans h'.ages, fun k hk ↦ h'.rows k (h.rows k hk), h'.registry.trans h.registry⟩

theorem continues_creditIf (p : Processor) (condition : Prop) [Decidable condition] (req : RefRequest) :
    Continues p (p.creditIf condition req).1 := by
  simp only [creditIf]
  split_ifs
  · exact ⟨p.book.run_ages (.credit req), (p.book.run_keeps (.credit req)).rows, rfl⟩
  · exact .refl p

/-- A credit that is not made, or made to another key, leaves a total. -/
theorem total_creditIf_of_ne (p : Processor) (condition : Prop) [Decidable condition] (req : RefRequest)
    {k : BalanceKey} (hk : condition → k ≠ balanceKey req.userID req.asset) :
    (p.creditIf condition req).1.book.total k = p.book.total k := by
  simp only [creditIf]
  split_ifs with hcondition
  · rcases p.book.creditAvailableWithRef_cases req with ⟨h, -⟩ | ⟨-, h⟩
    · simp only [h]
    · simp only [h.moves.total k, if_neg (hk hcondition), add_zero]
  · rfl

theorem Continues.andThen {h : Handled} {next : Processor → Handled} (hfirst : Continues p h.1)
    (hnext : ∀ q, Continues q (next q).1) : Continues p (h.andThen next).1 := by
  rcases h with ⟨q, e | ⟨⟩⟩
  · exact hfirst
  · exact hfirst.trans (hnext q)

theorem total_andThen {h : Handled} {next : Processor → Handled} {k : BalanceKey}
    (hnext : ∀ q, (next q).1.book.total k = q.book.total k) :
    (h.andThen next).1.book.total k = h.1.book.total k := by
  rcases h with ⟨q, e | ⟨⟩⟩
  · rfl
  · exact hnext q

theorem continues_creditTrade (p : Processor) (event : TradeMatchedEvent) (notional : ℤ) :
    Continues p (p.creditTrade event notional).1 :=
  (p.continues_creditIf _ _).andThen fun q ↦
    (q.continues_creditIf _ _).andThen fun q' ↦ q'.continues_creditIf _ _

/-- **The collateral of a trade without fees is credited to the receiver.** -/
theorem creditTrade_pays {notional : ℤ} (hfees : event.tradeFees = (0, 0)) (hreceiver : 0 < event.settlementSides.2)
    (hnotional : 0 < notional) (hkey : trimSpace event.idempotencyKey ≠ "")
    (hfresh : BalanceBook.refKey "TRADE_COLLATERAL" event.idempotencyKey ∉ p.book.processedRefs) {k : BalanceKey}
    (hk : k ≠ balanceKey event.positionCredit.userID event.positionCredit.asset) :
    (p.creditTrade event notional).1.book.total k = p.book.total k +
      if k = balanceKey event.settlementSides.2 (collateralAsset event.collateralAsset) then notional
        else 0 := by
  have hcredit : event.collateralCredit notional = ⟨event.settlementSides.2,
      collateralAsset event.collateralAsset, notional, "TRADE_COLLATERAL", event.idempotencyKey⟩ := by
    rw [TradeMatchedEvent.collateralCredit, hfees, sub_zero]
  have hcondition : event.settlementSides.2 > 0 ∧ notional - event.tradeFees.1 > 0 := by
    rw [hfees]
    exact ⟨hreceiver, by omega⟩
  -- the credits that follow are of another asset, or are not made
  have hrest : ∀ q : Processor,
      ((q.creditIf (event.positionSides.2 > 0) event.positionCredit).andThen fun q' ↦
        q'.creditIf (event.tradeFees.1 + event.tradeFees.2 > 0) event.feeCredit).1.book.total k =
      q.book.total k := by
    intro q
    rw [total_andThen]
    · exact q.total_creditIf_of_ne _ _ fun _ ↦ hk
    · intro q'
      refine q'.total_creditIf_of_ne _ _ fun hfee ↦ ?_
      rw [hfees] at hfee
      exact absurd hfee (by decide)
  obtain ⟨-, hcredited⟩ := creditIf_spec hcondition hreceiver hnotional
    (normalizeAsset_collateralAsset event.collateralAsset) trimSpace_tradeCollateral hkey hfresh
  rw [creditTrade, total_andThen hrest, hcredit, hcredited.moves.total k, add_zero]

/-- The freeze of the seller can still be drawn on after that of the payer was. -/
theorem Drawable.after {q : Processor} {loaded loaded' : Option OrderState} {orderID orderID' : String}
    {amount drawn : ℤ} {key key' : BalanceKey} {freezeID : String} {result : Except EventError Unit}
    (h : Drawable p loaded' orderID' amount terms key) (hdraws : Draws p.book freezeID key' drawn (q, result))
    (hregistry : q.registry = (p.registry.get loaded orderID).1) (hne : orderID' ≠ orderID)
    (hother : ∀ state, (p.registry.get loaded' orderID').2 = some state → state.freezeID ≠ freezeID) :
    Drawable q loaded' orderID' amount terms key := by
  have hget : (q.registry.get loaded' orderID').2 = (p.registry.get loaded' orderID').2 := by
    rw [hregistry, get_get_of_ne _ _ _ hne]
  refine ⟨h.reservable, fun state hfound ↦ h.fits state (hget ▸ hfound), fun state hfound hfreeze ↦ ?_⟩
  rw [hget] at hfound
  obtain ⟨record, hbacked, hkey, hcovered⟩ := h.backed state hfound hfreeze
  have hsame := hdraws.freezes state.freezeID (hother state hfound)
  refine ⟨record, ⟨hsame.trans hbacked.lookup, hdraws.rows _ hbacked.row⟩, hkey, fun hopen ↦ ?_⟩
  exact hcovered ⟨hbacked.lookup, hopen.active, hbacked.row⟩

/-- **A trade without fees whose buyer's freeze covers it moves its notional from the buyer to the
seller.** -/
theorem handleTradeMatched_pays {payerTerms sellerTerms : OrderTerms} {state : OrderState} {record : FreezeRecord}
    {key : BalanceKey} (hprice : 0 < event.price) (hquantity : 0 < event.quantity)
    (hbound : event.price * event.quantity ≤ maxInt64) (hfees : event.tradeFees = (0, 0))
    (hreceiver : 0 < event.settlementSides.2) (hkey : trimSpace event.idempotencyKey ≠ "")
    (hfresh : BalanceBook.refKey "TRADE_COLLATERAL" event.idempotencyKey ∉ p.book.processedRefs)
    (hpayerID : event.settlementSides.1 ≠ "") (hsellerID : event.positionSides.1 ≠ "")
    (hne : event.positionSides.1 ≠ event.settlementSides.1)
    (hfound : (p.registry.get payer event.settlementSides.1).2 = some state) (hfreeze : state.freezeID ≠ "")
    (hopen : p.book.Open state.freezeID record) (hcovered : event.price * event.quantity ≤ record.amount)
    (hfits : Fits payerTerms state) (hterms : payerTerms.Reservable)
    (hseller : Drawable p seller event.positionSides.1 event.quantity sellerTerms key)
    (hother : ∀ st, (p.registry.get seller event.positionSides.1).2 = some st → st.freezeID ≠ state.freezeID) :
    (∀ k, k ≠ key → k ≠ balanceKey event.positionCredit.userID event.positionCredit.asset →
      (p.handleTradeMatched (some false) payer seller event).1.book.total k = p.book.total k -
          (if k = balanceKey record.userID record.asset then event.price * event.quantity else 0) +
          if k = balanceKey event.settlementSides.2 (collateralAsset event.collateralAsset) then
            event.price * event.quantity else 0) ∧
      p.book.Ages (p.handleTradeMatched (some false) payer seller event).1.book ∧
      (∀ k, (p.book.balances k).isSome →
        ((p.handleTradeMatched (some false) payer seller event).1.book.balances k).isSome) ∧
      (p.handleTradeMatched (some false) payer seller event).1.registry =
        ((p.registry.get payer event.settlementSides.1).1.get seller event.positionSides.1).1 := by
  have hpos : 0 < event.price * event.quantity := mul_pos hprice hquantity
  obtain ⟨hdraws, hregistry⟩ := draws_of_open hpayerID hfound hfreeze hopen
    (expectedFreezeAmount_of_fits hfits hterms) hpos hcovered
  simp only [handleTradeMatched, tradeNotional_of_pos hprice hquantity hbound]
  rw [Handled.andThen_of_ok hdraws.ok]
  generalize p.drawFreeze payer event.settlementSides.1 (event.price * event.quantity) = first at *
  have hseller' := hseller.after hdraws hregistry hne hother
  obtain ⟨freezeID, drawn, hdraws', hregistry'⟩ := hseller'.exists_draws hsellerID hquantity
  rw [Handled.andThen_of_ok hdraws'.ok]
  generalize first.1.drawFreeze seller event.positionSides.1 event.quantity = second at *
  have hcontinues := second.1.continues_creditTrade event (event.price * event.quantity)
  refine ⟨fun k hk hposition ↦ ?_, (hdraws.ages.trans hdraws'.ages).trans hcontinues.ages,
    fun k hk ↦ hcontinues.rows k (hdraws'.rows k (hdraws.rows k hk)), ?_⟩
  · rw [← hdraws.refs, ← hdraws'.refs] at hfresh
    rw [creditTrade_pays hfees hreceiver hpos hkey hfresh hposition, hdraws'.total k, if_neg hk, sub_zero,
      hdraws.total k]
  · rw [hcontinues.registry, hregistry', hregistry]

end Processor

end FunnyOption.Account
