import FunnyOption.PostTrade.Exchange

/-!
# Conservation of collateral

A trade pays its notional out of the buyer's freeze and credits it to the seller. If every trade finds
the freeze of its buyer open, with the notional still in it, collateral moves between users and is
neither made nor lost: `collateral_conserved`.

A freeze need not be open when its trade arrives. `releaseExcessFreeze` compares what is left in a
freeze with what is left of the order according to the last event of the order, and the topic of orders
may be ahead. A buy order that two trades fill is known as filled when the first of them arrives; that
trade releases everything that is left, the freeze is closed, the second trade finds it closed, which is
not an error, and its seller is paid all the same: `collateral_created`.
-/

open Foundation

namespace FunnyOption.PostTrade

open Account Matching Orders

/-! ## What is to be conserved -/

/-- What a user has of the collateral, available and frozen. -/
def collateral (book : BalanceBook) (u : ℤ) : ℤ := book.total (balanceKey u Assets.defaultCollateralAsset)

/-- The notional of the trades in which a user is the given party. -/
def volume (party : TradeMatchedEvent → ℤ) (trades : List TradeMatchedEvent) (u : ℤ) : ℤ :=
  (trades.map fun t ↦ if party t = u then t.price * t.quantity else 0).sum

/-- What a user has bought for. -/
def bought : List TradeMatchedEvent → ℤ → ℤ := volume fun t ↦ t.positionSides.2

/-- What a user has sold for. -/
def sold : List TradeMatchedEvent → ℤ → ℤ := volume fun t ↦ t.settlementSides.2

/-- The collateral of every user is what it was in `book` but for the trades that were delivered, and
all users that take part in them have together what they had. -/
structure Conserved (book : BalanceBook) (s : Exchange) : Prop where
  user : ∀ u, collateral s.account.book u = collateral book u - bought s.settled u + sold s.settled u
  all : ∀ users : Finset ℤ, (∀ t ∈ s.settled, t.positionSides.2 ∈ users ∧ t.settlementSides.2 ∈ users) →
      ∑ u ∈ users, collateral s.account.book u = ∑ u ∈ users, collateral book u

theorem volume_append_singleton (party : TradeMatchedEvent → ℤ) (trades : List TradeMatchedEvent)
    (t : TradeMatchedEvent) (u : ℤ) :
    volume party (trades ++ [t]) u =
      volume party trades u + if party t = u then t.price * t.quantity else 0 := by
  simp [volume]

/-- Every trade is counted for one user. -/
theorem sum_volume (party : TradeMatchedEvent → ℤ) (trades : List TradeMatchedEvent) (users : Finset ℤ)
    (h : ∀ t ∈ trades, party t ∈ users) :
    ∑ u ∈ users, volume party trades u = (trades.map fun t ↦ t.price * t.quantity).sum := by
  induction trades with
  | nil => simp [volume]
  | cons t trades ih =>
    have htail := ih fun t' ht' ↦ h t' (List.mem_cons_of_mem t ht')
    have hhead : ∑ u ∈ users, (if party t = u then t.price * t.quantity else 0) =
        t.price * t.quantity := by
      rw [Finset.sum_ite_eq, if_pos (h t List.mem_cons_self)]
    simp only [volume, List.map_cons, List.sum_cons, Finset.sum_add_distrib] at htail ⊢
    rw [hhead, htail]

/-- What is bought is sold. -/
theorem Conserved.of_user {book : BalanceBook} {s : Exchange} (h : ∀ u, collateral s.account.book u =
      collateral book u - bought s.settled u + sold s.settled u) : Conserved book s := by
  refine ⟨h, fun users husers ↦ ?_⟩
  have hbought := sum_volume (fun t ↦ t.positionSides.2) s.settled users fun t ht ↦ (husers t ht).1
  have hsold := sum_volume (fun t ↦ t.settlementSides.2) s.settled users fun t ht ↦ (husers t ht).2
  simp only [h, Finset.sum_add_distrib, Finset.sum_sub_distrib, bought, sold, hbought, hsold]
  ring

/-! ## Trades that are paid -/

/-- A trade finds the freeze of its buyer open and sufficient, that of its seller sufficient if it is
open, and has not been delivered before. -/
@[mk_iff]
structure Settleable (p : Processor) (payer seller : Option OrderState) (event : TradeMatchedEvent) : Prop where
  payer : ∃ state ∈ (p.registry.get payer event.settlementSides.1).2, state.freezeID ≠ "" ∧
    ∃ record ∈ p.book.freezes state.freezeID, p.book.Open state.freezeID record ∧
      event.price * event.quantity ≤ record.amount
  seller : ∀ state ∈ (p.registry.get seller event.positionSides.1).2,
    ∀ record ∈ p.book.freezes state.freezeID, p.book.Open state.freezeID record → event.quantity ≤ record.amount
  fresh : BalanceBook.refKey "TRADE_COLLATERAL" event.idempotencyKey ∉ p.book.processedRefs

instance (p : Processor) (payer seller : Option OrderState) (event : TradeMatchedEvent) :
    Decidable (Settleable p payer seller event) :=
  decidable_of_iff' _ (settleable_iff p payer seller event)

/-- An order is placed under a new id; a trade is delivered while the rollup is not frozen, and can be
settled. -/
def Covered (s : Exchange) : Event → Prop
  | .place command _ _ => command.orderID ∉ s.placed.map MatchCommand.orderID
  | .deliverTrade rollupFrozen payer seller =>
    rollupFrozen = some false ∧ ∀ event ∈ s.trades.head?, Settleable s.account payer seller event
  | _ => True

instance (s : Exchange) : ∀ e, Decidable (Covered s e)
  | .place _ _ _ => inferInstanceAs (Decidable (_ ∉ _))
  | .deliverTrade _ _ _ => inferInstanceAs (Decidable (_ ∧ _))
  | .submit _ _ | .cancel _ _ | .deliverOrder _ _ => .isTrue trivial

theorem reservable_terms {c : MatchCommand} (h : Sound c) : (terms c).Reservable := by
  cases hside : c.side with
  | buy =>
    obtain ⟨-, hprice, hbound⟩ := h.buys hside
    exact ⟨.inl (congrArg OrderSide.text hside), fun _ ↦ ⟨hprice, hbound⟩⟩
  | sell =>
    have htext : (terms c).side = "SELL" := congrArg OrderSide.text hside
    exact ⟨.inr htext, fun hbuy ↦ absurd (htext.symm.trans hbuy) (by decide)⟩

variable {s : Exchange} {event : TradeMatchedEvent} {buyer seller : MatchCommand}
  {payerRow sellerRow : Option OrderState}

/-- Whatever freeze of the seller is found can be drawn on, and is none of the collateral. -/
theorem Tracked.drawable (h : Tracked s) (hs : seller ∈ s.placed) (hrow : RowOf s.placed seller.orderID sellerRow)
    (hcovered : ∀ state ∈ (s.account.registry.get sellerRow seller.orderID).2,
      ∀ record ∈ s.account.book.freezes state.freezeID, s.account.book.Open state.freezeID record →
        event.quantity ≤ record.amount) :
    s.account.Drawable sellerRow seller.orderID event.quantity (terms seller)
      (balanceKey seller.userID seller.freezeAsset) := by
  obtain ⟨hsound, record, hbacked, huser, hasset, -⟩ := h.placed seller hs
  refine ⟨reservable_terms hsound, fun state ↦ h.fits_of_found hs hrow, fun state hfound hne ↦ ?_⟩
  have hid : state.freezeID = seller.freezeID := (h.fits_of_found hs hrow hfound).freezeID.resolve_left hne
  rw [← hid] at hbacked
  exact ⟨record, hbacked, by rw [huser, hasset], hcovered state hfound record hbacked.lookup⟩

/-- The freezes of a buyer and of a seller are two. -/
theorem Tracked.freezeID_ne (h : Tracked s) (hb : buyer ∈ s.placed) (hs : seller ∈ s.placed)
    (hbuys : buyer.side = .buy) (hsells : seller.side = .sell) : seller.freezeID ≠ buyer.freezeID := by
  intro heq
  obtain ⟨hsound, record, hbacked, -, hasset, -⟩ := h.placed buyer hb
  obtain ⟨hsound', record', hbacked', -, hasset', -⟩ := h.placed seller hs
  rw [heq] at hbacked'
  obtain rfl : record = record' := Option.some_inj.mp (hbacked.lookup.symm.trans hbacked'.lookup)
  refine hsound'.sells hsells ?_
  rw [← hasset', hasset]
  exact (hsound.buys hbuys).1

theorem balanceKey_collateral_eq {u v : ℤ} {asset : String}
    (hasset : normalizeAsset asset = Assets.defaultCollateralAsset) :
    balanceKey u Assets.defaultCollateralAsset = balanceKey v asset ↔ v = u := by
  have hnormal : normalizeAsset Assets.defaultCollateralAsset = Assets.defaultCollateralAsset := by decide
  rw [balanceKey, balanceKey, hasset, hnormal, Prod.mk.injEq, and_iff_left rfl, eq_comm]

theorem balanceKey_collateral_ne {u v : ℤ} {asset : String}
    (hasset : normalizeAsset asset ≠ Assets.defaultCollateralAsset) :
    balanceKey u Assets.defaultCollateralAsset ≠ balanceKey v asset := by
  have hnormal : normalizeAsset Assets.defaultCollateralAsset = Assets.defaultCollateralAsset := by decide
  intro h
  rw [balanceKey, balanceKey, hnormal, Prod.mk.injEq] at h
  exact hasset h.2.symm

/-- What the delivery of a trade comes to. -/
structure Paid (p : Processor) (event : TradeMatchedEvent) (payer seller : Option OrderState)
    (p' : Processor) : Prop where
  collateral : ∀ u, collateral p'.book u = collateral p.book u -
    (if event.positionSides.2 = u then event.price * event.quantity else 0) +
    if event.settlementSides.2 = u then event.price * event.quantity else 0
  ages : p.book.Ages p'.book
  rows : ∀ k, (p.book.balances k).isSome → (p'.book.balances k).isSome
  registry : p'.registry = ((p.registry.get payer event.settlementSides.1).1.get seller event.positionSides.1).1

/-- **A trade that can be settled is paid by its buyer to its seller.** -/
theorem Tracked.paid (h : Tracked s) (hb : buyer ∈ s.placed) (hs : seller ∈ s.placed)
    (ht : TradeBetween buyer seller event) (hpayer : RowOf s.placed event.settlementSides.1 payerRow)
    (hseller : RowOf s.placed event.positionSides.1 sellerRow)
    (hsettle : Settleable s.account payerRow sellerRow event) :
    Paid s.account event payerRow sellerRow
      (s.account.handleTradeMatched (some false) payerRow sellerRow event).1 := by
  have hpayerID : event.settlementSides.1 = buyer.orderID := by rw [ht.settlement]
  have hsellerID : event.positionSides.1 = seller.orderID := by rw [ht.position]
  have hreceiver : event.settlementSides.2 = seller.userID := by rw [ht.settlement]
  have hbuyer : event.positionSides.2 = buyer.userID := by rw [ht.position]
  obtain ⟨state, hfound, hfreeze, record, -, hopen, hcovered⟩ := hsettle.payer
  obtain ⟨hsound, record', hbacked, huser, hasset, hamount⟩ := h.placed buyer hb
  have hfits : Processor.Fits (terms buyer) state := by
    rw [hpayerID] at hpayer hfound
    exact h.fits_of_found hb hpayer hfound
  have hid : state.freezeID = buyer.freezeID := hfits.freezeID.resolve_left hfreeze
  obtain rfl : record = record' := by
    have hlookup := hopen.lookup
    rw [hid, hbacked.lookup] at hlookup
    exact (Option.some_inj.mp hlookup).symm
  have hbuys := hsound.buys ht.buys
  have hdraw : s.account.Drawable sellerRow event.positionSides.1 event.quantity (terms seller)
      (balanceKey seller.userID seller.freezeAsset) := by
    have hseller' := hseller
    have hsellers := hsettle.seller
    rw [hsellerID] at hseller' hsellers ⊢
    exact h.drawable hs hseller' hsellers
  have hother : ∀ st, (s.account.registry.get sellerRow event.positionSides.1).2 = some st →
      st.freezeID ≠ state.freezeID := by
    intro st hst
    rcases (hdraw.fits st hst).freezeID with hempty | hst
    · exact hempty ▸ hfreeze.symm
    · rw [hst, hid]
      exact h.freezeID_ne hb hs ht.buys ht.sells
  obtain ⟨htotal, hages, hrows, hregistry⟩ := Processor.handleTradeMatched_pays ht.price ht.quantity
    (hcovered.trans (hamount ht.buys)) ht.fees (hreceiver ▸ (h.placed seller hs).1.userID) ht.key
    hsettle.fresh (hpayerID ▸ ht.buyerID) (hsellerID ▸ ht.sellerID)
    (by rw [hpayerID, hsellerID]; exact ht.differ) hfound hfreeze hopen hcovered hfits
    (reservable_terms hsound) hdraw hother
  refine ⟨fun u ↦ ?_, hages, hrows, hregistry⟩
  have hposition : normalizeAsset event.positionCredit.asset ≠ Assets.defaultCollateralAsset :=
    normalizeAsset_positionAsset event.marketID event.outcome
  have hcredit : normalizeAsset (collateralAsset event.collateralAsset) =
      Assets.defaultCollateralAsset := by
    rw [ht.collateralAsset]
    decide
  have hdebit : normalizeAsset record.asset = Assets.defaultCollateralAsset := hasset ▸ hbuys.1
  rw [PostTrade.collateral, htotal _
    (balanceKey_collateral_ne ((h.placed seller hs).1.sells ht.sells))
    (balanceKey_collateral_ne hposition)]
  simp only [balanceKey_collateral_eq hdebit, balanceKey_collateral_eq hcredit, huser, hbuyer, PostTrade.collateral]

/-- The delivery of a trade that can be settled. -/
theorem Tracked.deliverTrade {schedule : Schedule} {eventID : Trade → String} {clock : ℕ → ℤ} {s' : Exchange}
    (h : Tracked s) (hcovered : Covered s (.deliverTrade (some false) payerRow sellerRow))
    (hstep : s.step schedule eventID clock (.deliverTrade (some false) payerRow sellerRow) = some s') :
    Tracked s' ∧ ∃ event, s'.settled = s.settled ++ [event] ∧
      Paid s.account event payerRow sellerRow s'.account := by
  simp only [Exchange.step] at hstep
  split at hstep
  · exact absurd hstep (by simp)
  · next event trades heq =>
    split_ifs at hstep with hrows
    obtain rfl := Option.some_inj.mp hstep
    obtain ⟨buyer, hb, seller, hs, ht⟩ := h.trades event (by simp [heq])
    have hpaid := h.paid hb hs ht hrows.1 hrows.2 (hcovered.2 event (by simp [heq]))
    refine ⟨?_, event, rfl, hpaid⟩
    have haged := h.age hpaid.ages hpaid.rows
      (by rw [hpaid.registry]; exact rowOf_get (rowOf_get h.registry hrows.1) hrows.2)
    exact { haged with trades := fun e he ↦ h.trades e (by simp [heq, he]) }

/-! ## Runs -/

/-- What holds in every state of a run that meets the condition. -/
structure Sustained (book : BalanceBook) (s : Exchange) : Prop where
  tracked : Tracked s
  user : ∀ u, collateral s.account.book u = collateral book u - bought s.settled u + sold s.settled u

theorem Sustained.step {book : BalanceBook} {eventID : Trade → String} {clock : ℕ → ℤ} {s' : Exchange} {e : Event}
    (h : Sustained book s) (hcovered : Covered s e) (hstep : s.step .free eventID clock e = some s') :
    Sustained book s' := by
  cases e with
  | submit req suffix =>
    refine ⟨h.tracked.submit req suffix hstep, fun u ↦ ?_⟩
    obtain rfl := Option.some_inj.mp hstep
    exact ((submits_submitOrder s.account.book (newID_ne_empty "frz" suffix) req).total _).trans (h.user u)
  | place command nowMillis epochID =>
    refine ⟨h.tracked.place hcovered hstep, ?_⟩
    simp only [Exchange.step] at hstep
    split_ifs at hstep
    obtain rfl := Option.some_inj.mp hstep
    exact h.user
  | cancel command nowMillis =>
    refine ⟨h.tracked.cancel hstep, ?_⟩
    simp only [Exchange.step] at hstep
    split_ifs at hstep
    obtain rfl := Option.some_inj.mp hstep
    exact h.user
  | deliverOrder rollupFrozen row =>
    refine ⟨h.tracked.deliverOrder hstep, fun u ↦ ?_⟩
    simp only [Exchange.step] at hstep
    split at hstep
    · exact absurd hstep (by simp)
    · next event orders heq =>
      split_ifs at hstep
      obtain rfl := Option.some_inj.mp hstep
      exact ((s.account.shifts_handleOrderEvent rollupFrozen row event).total _).trans (h.user u)
  | deliverTrade rollupFrozen payer seller =>
    have hfrozen := hcovered.1
    subst hfrozen
    obtain ⟨htracked, event, hsettled, hpaid⟩ := h.tracked.deliverTrade hcovered hstep
    refine ⟨htracked, fun u ↦ ?_⟩
    rw [hpaid.collateral u, h.user u, hsettled, bought, sold, volume_append_singleton, volume_append_singleton]
    ring

/-- **Collateral is conserved** in every run whose orders have new ids and whose trades find the
freezes they are to be paid from. -/
theorem collateral_conserved (eventID : Trade → String) (clock : ℕ → ℤ) (book : BalanceBook)
    (sequence : ℕ) (events : List Event)
    (hcovered : ∀ t e t', Takes (Exchange.step .free eventID clock) (.start book sequence) events t e t' →
      Covered t e) :
    ∀ s, Visits (Exchange.step .free eventID clock) (.start book sequence) events s →
      Conserved book s := by
  intro s hs
  have hsustained := visits_induction (P := Sustained book)
    ⟨.start book sequence, fun u ↦ by simp [Exchange.start, bought, sold, volume]⟩
    (fun t e t' htake h ↦ h.step (hcovered t e t' htake) htake.step_eq) s hs
  exact .of_user hsustained.user

/-! ## Two runs of three orders -/

/-- Two users with two shares each, and one with 300 of the collateral. -/
def sampleBook : BalanceBook where
  balances key :=
    if key = (1, "POSITION:7:YES") then some ⟨1, "POSITION:7:YES", 2, 0⟩
    else if key = (2, "POSITION:7:YES") then some ⟨2, "POSITION:7:YES", 2, 0⟩
    else if key = (3, "USDT") then some ⟨3, "USDT", 300, 0⟩
    else none
  freezes _ := none
  processedRefs := []

/-- A request for an order at 50 in one book. -/
def sampleRequest (userID : ℤ) (side : OrderSide) (quantity : ℤ) (orderID : String) : SubmitRequest :=
  ⟨userID, 7, "YES", side, .limit, .gtc, .none, 50, quantity, orderID, "", "", "", 0⟩

/-- The freeze of such an order. -/
def sampleFreeze (userID : ℤ) (asset : String) (amount : ℤ) (orderID : String) : FreezeRecord :=
  ⟨"frz_" ++ orderID, userID, asset, "ORDER", orderID, amount, amount, false, false⟩

/-- User `u` sells one share. -/
def sampleSell (u : ℤ) (orderID : String) : List Event := [.submit (sampleRequest u .sell 1 orderID) orderID,
    .place ((sampleRequest u .sell 1 orderID).toCommand (sampleFreeze u "POSITION:7:YES" 1 orderID)) 0 0]

/-- User 3 buys. -/
def sampleBuy (quantity : ℤ) (orderID : String) : List Event :=
  [.submit (sampleRequest 3 .buy quantity orderID) orderID, .place ((sampleRequest 3 .buy quantity orderID).toCommand
      (sampleFreeze 3 "USDT" (50 * quantity) orderID)) 0 0]

def sampleOrderEvent : Event := .deliverOrder (some false) none

def sampleTradeEvent : Event := .deliverTrade (some false) none none

/-- The step function of the sample runs. -/
def sampleStep : Exchange → Event → Option Exchange := Exchange.step .free (fun _ ↦ "") (fun _ ↦ 0)

/-- An order is filled by two others, and every event is delivered before the next order is placed. -/
def tradesInTime : List Event :=
  sampleBuy 2 "c" ++ sampleSell 1 "a" ++ List.replicate 3 sampleOrderEvent ++ [sampleTradeEvent] ++
    sampleSell 2 "b" ++ List.replicate 2 sampleOrderEvent ++ [sampleTradeEvent]

theorem conserved_tradesInTime : ∃ s, Visits sampleStep (.start sampleBook 0) tradesInTime s ∧ s.settled.length = 2 ∧
      Conserved sampleBook s := by
  have hcovered : ∀ t e t', Takes sampleStep (.start sampleBook 0) tradesInTime t e t' → Covered t e :=
    fun t e t' ↦ Along.of_takes (C := Covered) (by decide +kernel)
  obtain ⟨s, hs, hlength⟩ : ∃ s ∈ exec sampleStep (.start sampleBook 0) tradesInTime, s.settled.length = 2 := by
    decide +kernel
  exact ⟨s, visits_of_exec hs, hlength,
    collateral_conserved _ _ sampleBook 0 tradesInTime hcovered s (visits_of_exec hs)⟩

/-- An order is filled by two others, and all events of orders are delivered before those of trades. -/
def ordersFirst : List Event :=
  sampleSell 1 "a" ++ sampleSell 2 "b" ++ sampleBuy 2 "c" ++ List.replicate 5 sampleOrderEvent ++
    List.replicate 2 sampleTradeEvent

/-- The users 1, 2 and 3 trade among themselves only, and have more at the end than before. -/
theorem collateral_created :
    ∃ s, Visits sampleStep (.start sampleBook 0) ordersFirst s ∧ s.orders = [] ∧ s.trades = [] ∧
      ¬ Conserved sampleBook s := by
  obtain ⟨s, hs, horders, htrades, hparties, hafter, hbefore⟩ : ∃ s ∈ exec sampleStep (.start sampleBook 0) ordersFirst,
      s.orders = [] ∧ s.trades = [] ∧ (∀ t ∈ s.settled, t.positionSides.2 ∈ ({1, 2, 3} : Finset ℤ) ∧
          t.settlementSides.2 ∈ ({1, 2, 3} : Finset ℤ)) ∧
        ∑ u ∈ {1, 2, 3}, collateral s.account.book u = 350 ∧ ∑ u ∈ {1, 2, 3}, collateral sampleBook u = 300 := by
    decide +kernel
  refine ⟨s, visits_of_exec hs, horders, htrades, fun hconserved ↦ ?_⟩
  have hsame := hconserved.all {1, 2, 3} hparties
  rw [hafter, hbefore] at hsame
  exact absurd hsame (by decide)

end FunnyOption.PostTrade
