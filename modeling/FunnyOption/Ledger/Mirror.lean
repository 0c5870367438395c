import FunnyOption.Account.Fees
import FunnyOption.Ledger.Journal

/-!
# The ledger mirrors the account service

The account service and the ledger read the same events of trades and settlements. Each of them has its own account
of what a user has: the book has an available and a frozen amount, and the journal has the accounts of the user.

They agree on a trade if the account service finds both freezes and takes no fee from the receiver. A fee of the
receiver is kept back by the account service, while the ledger has no posting for it; and an order without an open
freeze is passed over by the account service, while the ledger debits its user. They agree on a settlement if it has
a quantity and an amount, and if the account service can take the position.

## Main results

* `Services.changes_agree`: along every run whose events meet these conditions, the changes are the same for all
  users and assets.
* `Services.fee_not_in_ledger`: a trade with a fee of the receiver.
-/

open Foundation

namespace FunnyOption

/-! ## The account service -/

namespace Account.Processor

open BalanceBook

variable {p : Processor}

/-- The order of a trade has an open freeze of a balance, which has the amount and of which the reserve is known. -/
def Covered (p : Processor) (loaded : Option OrderState) (orderID : String) (amount : ℤ) (key : BalanceKey) : Prop :=
  orderID ≠ "" ∧ ∃ state ∈ (p.registry.get loaded orderID).2, state.freezeID ≠ "" ∧
    (∃ record ∈ p.book.freezes state.freezeID, p.book.Open state.freezeID record ∧ amount ≤ record.amount ∧
      balanceKey record.userID record.asset = key) ∧
    ∃ expected ∈ (expectedFreezeAmount state).toOption, 0 ≤ expected

instance (p : Processor) (loaded : Option OrderState) (orderID : String) (amount : ℤ) (key : BalanceKey) :
    Decidable (p.Covered loaded orderID amount key) := by
  unfold Covered
  infer_instance

/-- The freeze of an order. -/
def freezeOf (p : Processor) (loaded : Option OrderState) (orderID : String) : Option String :=
  (p.registry.get loaded orderID).2.map OrderState.freezeID

theorem Covered.exists_leg {loaded : Option OrderState} {orderID : String} {amount : ℤ} {key : BalanceKey}
    (h : p.Covered loaded orderID amount key) (hpos : 0 < amount) :
    ∃ leg : Leg p loaded orderID amount, leg.key = key ∧ p.freezeOf loaded orderID = some leg.state.freezeID := by
  obtain ⟨hid, state, hstate, hfreeze, ⟨record, -, hopen, hcovered, hkey⟩, expected, hexpected, hnonneg⟩ := h
  have hreserve : expectedFreezeAmount state = .ok expected := by
    cases hresult : expectedFreezeAmount state with
    | error e =>
      rw [hresult] at hexpected
      cases hexpected
    | ok value =>
      rw [hresult] at hexpected
      obtain rfl := Option.some_inj.mp hexpected
      rfl
  refine ⟨⟨state, record, expected, hid, hstate, hfreeze, hopen, hpos, hcovered, hreserve, hnonneg⟩, hkey, ?_⟩
  rw [freezeOf, hstate]
  rfl

variable {event : Settlement.SettlementCompletedEvent}

/-- **A settlement whose position is there.** -/
theorem total_handleSettlementCompleted (huser : 0 < event.userID) (hquantity : 0 < event.settledQuantity)
    (hamount : 0 < event.payoutAmount) (hasset : normalizeAsset event.positionAsset ≠ "")
    (hid : trimSpace event.eventID ≠ "") (hdebit : refKey "SETTLEMENT_DEBIT" event.eventID ∉ p.book.processedRefs)
    (hcredit : refKey "SETTLEMENT_CREDIT" event.eventID ∉ p.book.processedRefs)
    (hcovered : event.settledQuantity ≤ p.book.available (balanceKey event.userID event.positionAsset))
    (k : BalanceKey) :
    (p.handleSettlementCompleted (some false) event).1.book.total k = p.book.total k -
      (if k = balanceKey event.userID event.positionAsset then event.settledQuantity else 0) +
      (if k = balanceKey event.userID (collateralAsset event.payoutAsset) then event.payoutAmount else 0) := by
  have hdebitType : trimSpace "SETTLEMENT_DEBIT" ≠ "" := trimSpace_ne_empty (c := 'S') (by simp) (by decide)
  have hcreditType : trimSpace "SETTLEMENT_CREDIT" ≠ "" := trimSpace_ne_empty (c := 'S') (by simp) (by decide)
  have hvalid : RefRequest.Valid (settlementDebit event) := ⟨⟨huser, hquantity⟩, hasset, hdebitType, hid⟩
  obtain ⟨hok, happlied⟩ := debitAvailableWithRef_of_valid hvalid hdebit hcovered
  rw [handleSettlementCompleted, debitIf, if_pos hquantity]
  dsimp only
  rw [hok]
  generalize p.book.debitAvailableWithRef (settlementDebit event) = debited at happlied ⊢
  have hfresh : refKey "SETTLEMENT_CREDIT" event.eventID ∉ debited.1.processedRefs := by
    rw [happlied.processedRefs, List.mem_cons, not_or]
    exact ⟨(refKey_debit_ne_credit event.eventID event.eventID).symm, hcredit⟩
  obtain ⟨-, hcredited⟩ := creditIf_spec (p := ⟨debited.1, p.registry⟩) hamount huser hamount
    (normalizeAsset_collateralAsset event.payoutAsset) hcreditType hid hfresh
  refine (hcredited.moves.total k).trans ?_
  rw [happlied.moves.total, settlementDebit]
  split_ifs <;> ring

theorem handleSettlementCompleted_idle {rollupFrozen : Option Bool} (hquantity : ¬ 0 < event.settledQuantity)
    (hamount : ¬ 0 < event.payoutAmount) : (p.handleSettlementCompleted rollupFrozen event).1 = p := by
  rcases rollupFrozen with _ | _ | _
  · rfl
  · have hdebit : p.debitIf (event.settledQuantity > 0) (settlementDebit event) = (p, .ok ()) := by
      rw [debitIf, if_neg hquantity]
    rw [handleSettlementCompleted, hdebit, Handled.andThen_of_ok rfl, creditIf_of_not hamount]
  · rfl

/-- A trade that is refused because of its price, its quantity or its side. -/
theorem handleTradeMatched_of_refused (p : Processor) (rollupFrozen : Option Bool) (payer seller : Option OrderState)
    {event : TradeMatchedEvent}
    (h : (0 < event.price ∧ 0 < event.quantity ∧ event.price * event.quantity ≤ maxInt64) →
      toUpper (trimSpace event.takerSide) ≠ "BUY" ∧ toUpper (trimSpace event.takerSide) ≠ "SELL") :
    (p.handleTradeMatched rollupFrozen payer seller event).1 = p := by
  rcases rollupFrozen with _ | _ | _
  · rfl
  · by_cases hvalid : 0 < event.price ∧ 0 < event.quantity ∧ event.price * event.quantity ≤ maxInt64
    · -- nobody pays and nobody is paid
      have hside : ∀ {α : Type} (buy sell none : α), event.bySide buy sell none = none := by
        intro α buy sell none
        rw [TradeMatchedEvent.bySide, if_neg (h hvalid).1, if_neg (h hvalid).2]
      have hsettlement : event.settlementSides = ("", 0) := hside _ _ _
      have hposition : event.positionSides = ("", 0) := hside _ _ _
      have hfees : event.tradeFees = (0, 0) := hside _ _ _
      obtain ⟨hprice, hquantity, hbound⟩ := hvalid
      simp only [handleTradeMatched, tradeNotional_of_pos hprice hquantity hbound, hsettlement, hposition]
      rw [drawFreeze, if_pos rfl, Handled.andThen_of_ok rfl, drawFreeze, if_pos rfl, Handled.andThen_of_ok rfl,
        creditTrade, hsettlement, hposition, hfees, creditIf_of_not (by simp), Handled.andThen_of_ok rfl,
        creditIf_of_not (by simp), Handled.andThen_of_ok rfl, creditIf_of_not (by simp)]
    · rw [handleTradeMatched]
      split
      · rfl
      · next notional hnotional =>
        rw [tradeNotional] at hnotional
        split_ifs at hnotional with hpos hover
        rw [not_or, not_le, not_le] at hpos
        refine absurd ⟨hpos.1, hpos.2, ?_⟩ hvalid
        exact (Int.le_ediv_iff_mul_le hpos.2).mp (not_lt.mp hover)
  · rfl

end Account.Processor

/-! ## The ledger -/

namespace Ledger

open Account (TradeMatchedEvent BalanceKey balanceKey OrderEvent OrderState Processor)
open Account.BalanceBook (refKey)
open Settlement (SettlementCompletedEvent)

theorem normalizeAccount_ne_empty {account : String} (h : ':' ∈ account.toList) : normalizeAccount account ≠ "" := by
  have hmem : ':' ∈ (trimSpace account).toList := mem_trimSpace h (by decide)
  intro hempty
  rw [normalizeAccount, toLower] at hempty
  have hnil : (trimSpace account).toList.map Char.toLower = [] := by
    rw [← String.toList_ofList (l := List.map _ _), hempty]
    rfl
  rw [List.map_eq_nil_iff.mp hnil] at hmem
  cases hmem

theorem Posting.invalid_normalize {p : Posting} (h : p.amount ≤ 0) : p.normalize.Invalid := by
  simp only [Posting.Invalid, Posting.normalize]
  exact .inr (.inr h)

/-- A posting to an account of a user, at the key of the account service. -/
theorem Posting.userEffect_of_owner {account : String} {owner : ℤ}
    (h : ∀ userID, BelongsTo userID (normalizeAccount account) ↔ userID = owner) (userID : ℤ) (asset asset' : String)
    (direction : Direction) (amount : ℤ) :
    Posting.userEffect userID asset ⟨account, asset', direction, amount⟩ =
      if balanceKey userID asset = balanceKey owner asset' then
        match direction with
        | .credit => amount
        | .debit => -amount
      else 0 := by
  have hkey : (BelongsTo userID (normalizeAccount account) ∧ normalizeAsset asset' = normalizeAsset asset) ↔
      balanceKey userID asset = balanceKey owner asset' := by
    rw [h, balanceKey, balanceKey, Prod.mk_inj, eq_comm (a := normalizeAsset asset')]
    rfl
  rw [Posting.userEffect]
  exact if_congr hkey rfl rfl

theorem Posting.userEffect_market (userID : ℤ) (rest asset asset' : String) (direction : Direction) (amount : ℤ) :
    Posting.userEffect userID asset ⟨"market:" ++ rest, asset', direction, amount⟩ = 0 := by
  rw [Posting.userEffect, if_neg fun h ↦ not_belongsTo_market userID rest h.1]

/-- Two transfers, each in one asset. -/
def twoTransfers (debited credited asset : String) (amount : ℤ) (debited' credited' asset' : String) (amount' : ℤ) :
    List Posting :=
  [⟨debited, asset, .debit, amount⟩, ⟨credited, asset, .credit, amount⟩,
    ⟨debited', asset', .debit, amount'⟩, ⟨credited', asset', .credit, amount'⟩]

/-- An entry of two transfers is accepted. -/
theorem Journal.accepts_twoTransfers {j : Journal} {newID : String} {stored : Bool} {entry : Entry}
    {a b a' b' asset asset' : String} {amount amount' : ℤ}
    (hpostings : entry.postings = twoTransfers a b asset amount a' b' asset' amount') (hid : entry.entryID = "")
    (haccounts : ∀ account ∈ [a, b, a', b'], ':' ∈ account.toList) (hasset : normalizeAsset asset ≠ "")
    (hasset' : normalizeAsset asset' ≠ "") (hpos : 0 < amount) (hpos' : 0 < amount') (hfresh : newID ∉ j.entrySeen)
    (hstored : stored = true) : j.Accepts newID stored entry := by
  simp only [List.forall_mem_cons, List.not_mem_nil, false_imp_iff, implies_true, and_true] at haccounts
  obtain ⟨ha, hb, ha', hb'⟩ := haccounts
  refine ⟨?_, ?_, fun x ↦ ?_, hid, hfresh, hstored⟩
  · rw [hpostings]
    exact List.cons_ne_nil _ _
  · rw [hpostings]
    simp only [twoTransfers, List.forall_mem_cons, List.not_mem_nil, false_imp_iff, implies_true, and_true,
      Posting.Invalid, Posting.normalize, not_or, not_le]
    exact ⟨⟨normalizeAccount_ne_empty ha, hasset, hpos⟩, ⟨normalizeAccount_ne_empty hb, hasset, hpos⟩,
      ⟨normalizeAccount_ne_empty ha', hasset', hpos'⟩, normalizeAccount_ne_empty hb', hasset', hpos'⟩
  · rw [hpostings]
    by_cases hx : normalizeAsset asset = x
    · by_cases hx' : normalizeAsset asset' = x <;> simp [sumBy, exactSum, twoTransfers, Posting.normalize, hx, hx']
    · by_cases hx' : normalizeAsset asset' = x <;> simp [sumBy, exactSum, twoTransfers, Posting.normalize, hx, hx']

/-- A trade that is not refused because of its own fields. -/
def Tradable (event : TradeMatchedEvent) : Prop :=
  (0 < event.price ∧ 0 < event.quantity ∧ event.price * event.quantity ≤ maxInt64) ∧
    (toUpper (trimSpace event.takerSide) = "BUY" ∨ toUpper (trimSpace event.takerSide) = "SELL")

instance (event : TradeMatchedEvent) : Decidable (Tradable event) := inferInstanceAs (Decidable (_ ∧ _))

variable {event : TradeMatchedEvent}

/-- The buyer and the seller as the account service knows them. -/
theorem parties_of_tradable (h : Tradable event) :
    parties event = .ok (event.positionSides.2, event.settlementSides.2) := by
  simp only [parties, TradeMatchedEvent.positionSides, TradeMatchedEvent.settlementSides, TradeMatchedEvent.bySide]
  split_ifs with hbuy hsell
  · rfl
  · rfl
  · exact absurd h.2 (not_or.mpr ⟨hbuy, hsell⟩)

theorem tradeNotional_of_tradable (h : Tradable event) :
    tradeNotional event.price event.quantity = .ok (event.price * event.quantity) := by
  obtain ⟨⟨hprice, hquantity, hbound⟩, -⟩ := h
  have hover : ¬ event.price > maxInt64 / event.quantity := not_lt.mpr ((Int.le_ediv_iff_mul_le hquantity).mpr hbound)
  rw [tradeNotional, if_neg (by omega), if_neg hover]

namespace Journal

variable {j : Journal} {newID : String} {stored : Bool}

/-- **The entry of a trade.** -/
theorem userBalance_handleTradeMatched (h : Tradable event) (hfresh : newID ∉ j.entrySeen) (hstored : stored = true)
    (userID : ℤ) (asset : String) :
    (j.handleTradeMatched newID stored event).1.userBalance userID asset = j.userBalance userID asset -
      (if balanceKey userID asset =
        balanceKey event.positionSides.2 (Account.collateralAsset event.collateralAsset) then
          event.price * event.quantity else 0) -
      (if balanceKey userID asset =
        balanceKey event.settlementSides.2 (Assets.positionAsset event.marketID event.outcome) then
          event.quantity else 0) +
      (if balanceKey userID asset =
        balanceKey event.settlementSides.2 (Account.collateralAsset event.collateralAsset) then
          event.price * event.quantity else 0) +
      (if balanceKey userID asset =
        balanceKey event.positionSides.2 (Assets.positionAsset event.marketID event.outcome) then
          event.quantity else 0) := by
  have hcollateral : tradeAsset event = Account.collateralAsset event.collateralAsset := rfl
  have haccepts : j.Accepts newID stored (tradeEntry event (event.price * event.quantity) event.positionSides.2
      event.settlementSides.2 event.positionSides.2 event.settlementSides.2) := by
    refine accepts_twoTransfers rfl rfl ?_ (Account.Processor.normalizeAsset_collateralAsset event.collateralAsset)
      (Account.Processor.normalizeAsset_positionAsset_ne event.marketID event.outcome)
      (mul_pos h.1.1 h.1.2.1) h.1.2.1 hfresh hstored
    simp [availableAccount, positionAccount]
  simp only [handleTradeMatched, tradeNotional_of_tradable h, transferParties, positionParties, parties_of_tradable h]
  rw [userBalance_append haccepts]
  simp only [tradeEntry, List.map_cons, List.map_nil, List.sum_cons, List.sum_nil, hcollateral,
    Posting.userEffect_of_owner (belongsTo_availableAccount · _),
    Posting.userEffect_of_owner (belongsTo_positionAccount · _ _ _)]
  split_ifs <;> ring

/-- **The entry of a settlement.** -/
theorem userBalance_handleSettlementCompleted {event : SettlementCompletedEvent}
    (hquantity : 0 < event.settledQuantity) (hamount : 0 < event.payoutAmount)
    (hposition : normalizeAsset event.positionAsset ≠ "") (hpayout : normalizeAsset event.payoutAsset ≠ "")
    (hfresh : newID ∉ j.entrySeen) (hstored : stored = true) (userID : ℤ) (asset : String) :
    (j.handleSettlementCompleted newID stored event).1.userBalance userID asset = j.userBalance userID asset -
      (if balanceKey userID asset = balanceKey event.userID event.positionAsset then
        event.settledQuantity else 0) +
      (if balanceKey userID asset = balanceKey event.userID event.payoutAsset then
        event.payoutAmount else 0) := by
  have haccepts : j.Accepts newID stored (settlementEntry event) := by
    refine accepts_twoTransfers rfl rfl ?_ hposition hpayout hquantity hamount hfresh hstored
    simp [availableAccount, positionAccount, resolvedPoolAccount, marketTreasuryAccount]
  have hpool : resolvedPoolAccount event.marketID event.winningOutcome =
      "market:" ++ (toString event.marketID ++ ":resolved:" ++ event.winningOutcome) := by
    simp only [resolvedPoolAccount, String.append_assoc]
  have htreasury : marketTreasuryAccount event.marketID = "market:" ++ (toString event.marketID ++ ":treasury") := by
    rw [marketTreasuryAccount, String.append_assoc]
  rw [handleSettlementCompleted, userBalance_append haccepts]
  simp only [settlementEntry, List.map_cons, List.map_nil, List.sum_cons, List.sum_nil, hpool, htreasury,
    Posting.userEffect_of_owner (belongsTo_availableAccount · _),
    Posting.userEffect_of_owner (belongsTo_positionAccount · _ _ _), Posting.userEffect_market]
  split_ifs <;> ring

theorem handleSettlementCompleted_idle {event : SettlementCompletedEvent} (h : ¬ 0 < event.settledQuantity) :
    (j.handleSettlementCompleted newID stored event).1 = j := by
  have hmem : ⟨positionAccount event.userID event.marketID event.winningOutcome, event.positionAsset, .debit,
      event.settledQuantity⟩ ∈ (settlementEntry event).postings := by
    rw [settlementEntry]
    exact List.mem_cons_self
  rcases append_cases j newID stored (settlementEntry event) with ⟨hrefused, -⟩ | ⟨normalized, hok, -⟩
  · rw [handleSettlementCompleted, hrefused]
  · exact absurd (Posting.invalid_normalize (not_lt.mp h)) ((normalizeEntry_eq_ok_iff.mp hok).1.2.1 _ hmem)

end Journal

theorem Journal.handleTradeMatched_of_not_tradable (j : Journal) (newID : String) (stored : Bool)
    (h : ¬ Tradable event) : (j.handleTradeMatched newID stored event).1 = j := by
  rw [handleTradeMatched]
  split
  · rfl
  · next notional hnotional =>
    rw [tradeNotional] at hnotional
    split_ifs at hnotional with hpos hover
    rw [not_or, not_le, not_le] at hpos
    have hbound := (Int.le_ediv_iff_mul_le hpos.2).mp (not_lt.mp hover)
    have hside := not_or.mp fun hside ↦ h ⟨⟨hpos.1, hpos.2, hbound⟩, hside⟩
    have hparties : transferParties event =
        .error (.message ("unsupported taker side: " ++ event.takerSide)) := by
      rw [transferParties, parties, TradeMatchedEvent.bySide, if_neg hside.1, if_neg hside.2]
    rw [hparties]

/-! ## Both services -/

/-- The account service and the ledger. -/
structure Services where
  account : Processor
  ledger : Journal

/-- An event, as both services handle it. Events of orders are for the account service only. -/
inductive Event where
  | order (rollupFrozen : Option Bool) (persisted : Option OrderState) (event : OrderEvent)
  | trade (rollupFrozen : Option Bool) (payer seller : Option OrderState) (newID : String) (stored : Bool)
    (event : TradeMatchedEvent)
  | settlement (rollupFrozen : Option Bool) (newID : String) (stored : Bool) (event : SettlementCompletedEvent)

namespace Services

/-- One event. -/
def step (s : Services) : Event → Option Services
  | .order rollupFrozen persisted event =>
    some { s with account := (s.account.handleOrderEvent rollupFrozen persisted event).1 }
  | .trade rollupFrozen payer seller newID stored event =>
    some
      { account := (s.account.handleTradeMatched rollupFrozen payer seller event).1
        ledger := (s.ledger.handleTradeMatched newID stored event).1 }
  | .settlement rollupFrozen newID stored event =>
    some
      { account := (s.account.handleSettlementCompleted rollupFrozen event).1
        ledger := (s.ledger.handleSettlementCompleted newID stored event).1 }

/-- The changes of the book and of the journal between two states are the same. -/
def Agrees (s s' : Services) : Prop :=
  ∀ userID asset, s'.account.book.total (balanceKey userID asset) - s.account.book.total (balanceKey userID asset) =
    s'.ledger.userBalance userID asset - s.ledger.userBalance userID asset

/-- A trade that the account service makes in full: without a fee of the receiver, with open freezes of the buyer
and of the seller, and under references that are new. -/
def MadeInFull (p : Processor) (payer seller : Option OrderState) (event : TradeMatchedEvent) : Prop :=
  event.tradeFees.1 = 0 ∧ p.Covered payer event.settlementSides.1 (event.price * event.quantity)
      (balanceKey event.positionSides.2 (Account.collateralAsset event.collateralAsset)) ∧
    p.Covered seller event.positionSides.1 event.quantity
      (balanceKey event.settlementSides.2 (Assets.positionAsset event.marketID event.outcome)) ∧
    event.positionSides.1 ≠ event.settlementSides.1 ∧
    p.freezeOf seller event.positionSides.1 ≠ p.freezeOf payer event.settlementSides.1 ∧
    (0 < event.settlementSides.2 ∧ 0 < event.positionSides.2) ∧ trimSpace event.idempotencyKey ≠ "" ∧
    refKey "TRADE_COLLATERAL" event.idempotencyKey ∉ p.book.processedRefs ∧
    refKey "TRADE_POSITION" event.idempotencyKey ∉ p.book.processedRefs

instance (p : Processor) (payer seller : Option OrderState) (event : TradeMatchedEvent) :
    Decidable (MadeInFull p payer seller event) := by
  unfold MadeInFull
  infer_instance

/-- A settlement that both services make in full: with a quantity and an amount, of assets that are named, from a
balance that has the position, and under references that are new. -/
def PaidInFull (p : Processor) (event : SettlementCompletedEvent) : Prop :=
  0 < event.userID ∧ 0 < event.settledQuantity ∧ 0 < event.payoutAmount ∧
    normalizeAsset event.positionAsset ≠ "" ∧ normalizeAsset event.payoutAsset ≠ "" ∧
    trimSpace event.eventID ≠ "" ∧
    refKey "SETTLEMENT_DEBIT" event.eventID ∉ p.book.processedRefs ∧
    refKey "SETTLEMENT_CREDIT" event.eventID ∉ p.book.processedRefs ∧
    event.settledQuantity ≤ p.book.available (balanceKey event.userID event.positionAsset)

instance (p : Processor) (event : SettlementCompletedEvent) : Decidable (PaidInFull p event) := by
  unfold PaidInFull
  infer_instance

/-- The rollup is not frozen and the ledger can store an entry under its new id, and the event is made in full. An
event without effect meets the condition. -/
def Mirrored (s : Services) : Event → Prop
  | .order .. => True
  | .trade rollupFrozen payer seller newID stored event =>
    Tradable event → rollupFrozen = some false ∧ newID ∉ s.ledger.entrySeen ∧ stored = true ∧
      MadeInFull s.account payer seller event
  | .settlement rollupFrozen newID stored event =>
    0 < event.settledQuantity ∨ 0 < event.payoutAmount → rollupFrozen = some false ∧
      newID ∉ s.ledger.entrySeen ∧ stored = true ∧ PaidInFull s.account event

instance : DecidableRel Mirrored := fun s e ↦ by
  cases e <;> unfold Mirrored <;> infer_instance

variable {s s' s'' : Services}

theorem Agrees.refl (s : Services) : s.Agrees s := by
  intro userID asset
  rw [sub_self, sub_self]

theorem Agrees.trans (h : s.Agrees s') (h' : s'.Agrees s'') : s.Agrees s'' := by
  intro userID asset
  have h₁ := h userID asset
  have h₂ := h' userID asset
  omega

/-- An asset that is named is not replaced by the default. -/
theorem balanceKey_collateralAsset (userID : ℤ) {asset : String} (h : normalizeAsset asset ≠ "") :
    balanceKey userID (Account.collateralAsset asset) = balanceKey userID asset := by
  have hcollateral : Account.collateralAsset asset = Account.normalizeAsset asset := by
    rw [Account.collateralAsset, Assets.normalizeAsset]
    exact if_neg h
  rw [hcollateral, Account.balanceKey_normalizeAsset]

/-- A settlement without a quantity and an amount. -/
theorem agrees_idle {event : SettlementCompletedEvent} (h : ¬ (0 < event.settledQuantity ∨ 0 < event.payoutAmount))
    (rollupFrozen : Option Bool) (newID : String) (stored : Bool) :
    s.Agrees
      { account := (s.account.handleSettlementCompleted rollupFrozen event).1
        ledger := (s.ledger.handleSettlementCompleted newID stored event).1 } := by
  rw [not_or] at h
  rw [Processor.handleSettlementCompleted_idle h.1 h.2, Journal.handleSettlementCompleted_idle h.1]
  exact .refl s

theorem agrees_of_step {e : Event} (h : s.Mirrored e) (hstep : s.step e = some s') : s.Agrees s' := by
  cases e with
  | order rollupFrozen persisted event =>
    obtain rfl := Option.some_inj.mp hstep
    intro userID asset
    rw [(s.account.shifts_handleOrderEvent rollupFrozen persisted event).total, sub_self, sub_self]
  | trade rollupFrozen payer seller newID stored event =>
    obtain rfl := Option.some_inj.mp hstep
    by_cases htradable : Tradable event
    · obtain ⟨rfl, hfresh, hstored, hfee, hbuy, hsell, horders, hfreezes, husers, hkey, hcollateral, hposition⟩ :=
        h htradable
      obtain ⟨⟨hprice, hquantity, hbound⟩, -⟩ := id htradable
      obtain ⟨buy, hbuyKey, hbuyFreeze⟩ := hbuy.exists_leg (mul_pos hprice hquantity)
      obtain ⟨sell, hsellKey, hsellFreeze⟩ := hsell.exists_leg hquantity
      rw [hbuyFreeze, hsellFreeze] at hfreezes
      obtain ⟨hsettles, hsettlesBuy, hsettlesSell⟩ : ∃ settles : Processor.Settles s.account payer seller event,
          settles.buy.key = buy.key ∧ settles.sell.key = sell.key :=
        ⟨⟨buy, sell, hprice, hbound, horders, fun heq ↦ hfreezes (congrArg some heq), husers, hkey, hcollateral,
          hposition⟩, rfl, rfl⟩
      intro userID asset
      rw [(Processor.handleTradeMatched_spec hsettles hfee).2, hsettlesBuy, hsettlesSell, hbuyKey, hsellKey,
        Journal.userBalance_handleTradeMatched htradable hfresh hstored]
      ring
    · have hrefused : (s.account.handleTradeMatched rollupFrozen payer seller event).1 = s.account :=
        s.account.handleTradeMatched_of_refused rollupFrozen payer seller
          fun hvalid ↦ not_or.mp fun hside ↦ htradable ⟨hvalid, hside⟩
      rw [hrefused, s.ledger.handleTradeMatched_of_not_tradable newID stored htradable]
      exact .refl s
  | settlement rollupFrozen newID stored event =>
    obtain rfl := Option.some_inj.mp hstep
    by_cases heffect : 0 < event.settledQuantity ∨ 0 < event.payoutAmount
    · obtain ⟨rfl, hfresh, hstored, huser, hquantity, hamount, hposition, hpayout, hid, hdebit, hcredit, hcovered⟩ :=
        h heffect
      intro userID asset
      rw [Processor.total_handleSettlementCompleted huser hquantity hamount hposition hid hdebit hcredit hcovered,
        Journal.userBalance_handleSettlementCompleted hquantity hamount hposition hpayout hfresh hstored,
        balanceKey_collateralAsset event.userID hpayout]
      ring
    · exact agrees_idle heffect rollupFrozen newID stored

/-- **The ledger mirrors the account service.** Along a run whose events all meet the condition, what the journal
records for a user and an asset is what the account service has changed. -/
theorem changes_agree (s : Services) (es : List Event) (h : Along step Mirrored s es) (hs : Visits step s es s') :
    s.Agrees s' := by
  refine visits_induction (P := s.Agrees) (.refl s) ?_ s' hs
  intro t e t' htakes ht
  exact ht.trans (agrees_of_step (h.of_takes htakes) htakes.step_eq)

section Sample

open Account (sampleProcessor sampleTrade)

/-- A buyer and a seller, each with a freeze, and an empty journal. -/
def sampleServices : Services := ⟨sampleProcessor, .empty⟩

/-- A trade between the two. -/
def sampleTraded (charged : Bool) : Event := .trade (some false) none none "led_1" true (sampleTrade charged)

/-- A settlement of the position that was bought. -/
def sampleSettled : Event :=
  .settlement (some false) "led_2" true ⟨"stl", 1, 1, "YES", "POSITION:1:YES", 10, "USDT", 1000⟩

/-- A trade without fees and the settlement of the position. -/
theorem changes_agree_without_fees : Along step Mirrored sampleServices [sampleTraded false, sampleSettled] ∧
      ∀ s, Visits step sampleServices [sampleTraded false, sampleSettled] s → sampleServices.Agrees s := by
  have hmirrored : Along step Mirrored sampleServices [sampleTraded false, sampleSettled] := by decide +kernel
  exact ⟨hmirrored, fun s ↦ changes_agree sampleServices _ hmirrored⟩

/-- **A fee that is not in the ledger.** The account service credits the seller with the notional less the fee, and
the ledger with the notional. -/
theorem fee_not_in_ledger :
    ∃ s, exec step sampleServices [sampleTraded true] = some s ∧ ¬ sampleServices.Agrees s := by
  have hrun : ∃ s ∈ exec step sampleServices [sampleTraded true],
      s.account.book.total (balanceKey 2 "USDT") - sampleServices.account.book.total (balanceKey 2 "USDT") = 499 ∧
        s.ledger.userBalance 2 "USDT" - sampleServices.ledger.userBalance 2 "USDT" = 500 := by
    decide +kernel
  obtain ⟨s, hs, haccount, hledger⟩ := hrun
  refine ⟨s, hs, fun hagrees ↦ ?_⟩
  have hsame := hagrees 2 "USDT"
  rw [haccount, hledger] at hsame
  exact absurd hsame (by decide)

end Sample

end Services

end Ledger

end FunnyOption
