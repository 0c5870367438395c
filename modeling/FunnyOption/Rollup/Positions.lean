import FunnyOption.Rollup.Entries

/-!
# Positions and position balances

The replay keeps the shares of an account twice: as the quantity of a position, and as the balance of the asset
that is named after the position. A trade writes both for its buyer. For its seller it writes the position, and
the balance goes down by what the fill draws from the reserve of the selling order. The fill takes account and
asset from the order that is open under the id, and does not compare them with the trade.

So the two agree as long as the ids of a trade stand for its own orders. A second order under a known id breaks
this: its acceptance has the unique key of the first one and is dropped, and its trades draw on the first one.

## The proof

`ShadowState.Posts` says what an entry does to balances. `shares_applyTradeMatched` and
`shares_applySettlementPayout` say what it does to positions. The orders that are open are known from the
acceptances in the journal, by `Listed`, so that the draws of a trade are known too.

## Main results

* `positions_agree`: along every journal whose trades and acceptances agree, positions and their balances do.
* `positions_drift`: a journal with an id that is used twice.
-/

open Foundation

namespace FunnyOption.Rollup

open Matching ShadowState

/-! ## Shares -/

namespace ShadowState

variable {s s' : ShadowState} {sequence : ℕ}

/-- The quantity of a position. -/
def shares (s : ShadowState) (key : ℤ × ℤ × String) : ℤ := ((s.positions key).map PositionLeaf.quantity).getD 0

/-- Every position is the balance of its asset. -/
def PositionsAgree (s : ShadowState) : Prop :=
  ∀ accountID marketID outcome, s.shares (accountID, marketID, normalize outcome) =
    s.held (accountID, normalize (Assets.positionAsset marketID outcome))

theorem shares_congr (h : s'.positions = s.positions) : s'.shares = s.shares := by
  funext key
  rw [shares, shares, h]

@[simp]
theorem shares_adjustBalance (s : ShadowState) (sequence : ℕ) (accountID : ℤ) (asset : String)
    (freeDelta lockedDelta : ℤ) :
    (s.adjustBalance sequence accountID asset freeDelta lockedDelta).shares = s.shares :=
  shares_congr (positions_adjustBalance ..)

theorem shares_update (s : ShadowState) (key : ℤ × ℤ × String) (leaf : Option PositionLeaf) (key' : ℤ × ℤ × String) :
    shares { s with positions := Function.update s.positions key leaf } key' =
      if key = key' then (leaf.map PositionLeaf.quantity).getD 0 else s.shares key' := by
  change ((Function.update s.positions key leaf key').map PositionLeaf.quantity).getD 0 = _
  split_ifs with heq
  · rw [heq, Function.update_self]
  · rw [Function.update_of_ne (Ne.symm heq), shares]

/-- What a change of a position adds to another one: something if they are the same. -/
def sharesMoved (accountID marketID : ℤ) (outcome : String) (delta : ℤ) (key : ℤ × ℤ × String) : ℤ :=
  if 0 < accountID ∧ (accountID, marketID, normalize outcome) = key then delta else 0

theorem sharesMoved_of_pos {accountID : ℤ} (h : 0 < accountID) (marketID : ℤ) (outcome : String) (delta : ℤ)
    (key : ℤ × ℤ × String) :
    sharesMoved accountID marketID outcome delta key =
      if (accountID, marketID, normalize outcome) = key then delta else 0 := by
  simp only [sharesMoved, h, true_and]

theorem sharesMoved_of_nonpos {accountID : ℤ} (h : accountID ≤ 0) (marketID : ℤ) (outcome : String) (delta : ℤ)
    (key : ℤ × ℤ × String) : sharesMoved accountID marketID outcome delta key = 0 :=
  if_neg fun hmoved ↦ not_le.mpr hmoved.1 h

theorem shares_adjustPosition (s : ShadowState) (sequence : ℕ) (accountID marketID : ℤ) (outcome : String)
    (delta : ℤ) (key : ℤ × ℤ × String) :
    (s.adjustPosition sequence accountID marketID outcome delta).shares key =
      s.shares key + sharesMoved accountID marketID outcome delta key := by
  rw [adjustPosition]
  split_ifs with hnone
  · rcases hnone with haccount | rfl
    · rw [sharesMoved_of_nonpos haccount, add_zero]
    · rw [sharesMoved, ite_self, add_zero]
  · have haccount : 0 < accountID := not_le.mp (not_or.mp hnone).1
    rw [sharesMoved_of_pos haccount]
    refine (shares_update s _ _ key).trans ?_
    -- a position of quantity zero is deleted
    split_ifs with heq hzero
    · rw [← heq]
      exact hzero.symm
    · rw [← heq]
      rfl
    · rw [add_zero]

/-- One of the two accounts of a trade. -/
theorem shares_credit (s : ShadowState) (sequence : ℕ) (accountID marketID : ℤ) (asset outcome : String)
    (amount delta : ℤ) (key : ℤ × ℤ × String) :
    (if accountID > 0 then
      (s.adjustBalance sequence accountID asset amount 0).adjustPosition sequence accountID marketID outcome delta
      else s).shares key = s.shares key + sharesMoved accountID marketID outcome delta key := by
  split_ifs with haccount
  · rw [shares_adjustPosition, shares_adjustBalance]
  · rw [sharesMoved_of_nonpos (not_lt.mp haccount), add_zero]

theorem shares_creditTrade (s : ShadowState) (sequence : ℕ) (p : TradeMatchedPayload) (notional : ℤ)
    (key : ℤ × ℤ × String) :
    (s.creditTrade sequence p notional).shares key = s.shares key +
      sharesMoved (buyerSellerAccounts p).1 p.marketID p.outcome p.quantity key +
      sharesMoved (buyerSellerAccounts p).2 p.marketID p.outcome (-p.quantity) key := by
  have hbuyer := shares_credit s sequence (buyerSellerAccounts p).1 p.marketID
    (Assets.positionAsset p.marketID p.outcome) p.outcome p.quantity p.quantity key
  rw [creditTrade, ← hbuyer]
  exact shares_credit _ sequence (buyerSellerAccounts p).2 p.marketID p.collateralAsset p.outcome notional
    (-p.quantity) key

/-- **What a trade does to positions.** -/
theorem shares_applyTradeMatched {p : TradeMatchedPayload} (h : s.applyTradeMatched sequence p = .ok s')
    (key : ℤ × ℤ × String) :
    s'.shares key = s.shares key + sharesMoved (buyerSellerAccounts p).1 p.marketID p.outcome p.quantity key +
      sharesMoved (buyerSellerAccounts p).2 p.marketID p.outcome (-p.quantity) key := by
  obtain ⟨notional, s₁, s₂, -, htaker, hmaker, hs'⟩ := applyTradeMatched_eq_ok h
  obtain ⟨_, _, htaker⟩ := filled_of_ok htaker
  obtain ⟨_, _, hmaker⟩ := filled_of_ok hmaker
  have hsame : s₂.shares = s.shares := shares_congr (hmaker.positions.trans htaker.positions)
  rw [hs', shares_creditTrade, hsame]

theorem shares_settlePosition {accountID marketID : ℤ} {outcome : String} {settledQuantity : ℤ}
    (haccount : 0 < accountID) (h : s.settlePosition sequence accountID marketID outcome settledQuantity = .ok s')
    (key : ℤ × ℤ × String) :
    s'.shares key = s.shares key + sharesMoved accountID marketID outcome (-settledQuantity) key := by
  rw [settlePosition] at h
  dsimp only at h
  split at h
  · cases h
  next leaf hleaf =>
    split at h
    · cases h
    obtain rfl := Except.ok.inj h
    have hquantity : s.shares (accountID, marketID, normalize outcome) = leaf.quantity := by
      rw [shares, hleaf]
      rfl
    rw [shares_update, sharesMoved_of_pos haccount]
    split_ifs with heq hzero
    · rw [← heq, hquantity, ← sub_eq_add_neg, hzero]
      rfl
    · rw [← heq, hquantity, ← sub_eq_add_neg]
      rfl
    · rw [add_zero]

/-- **What a payout does to positions.** -/
theorem shares_applySettlementPayout {p : SettlementPayoutPayload} (h : s.applySettlementPayout sequence p = .ok s')
    (key : ℤ × ℤ × String) :
    s'.shares key = s.shares key +
      sharesMoved p.accountID p.marketID p.winningOutcome (-p.settledQuantity) key := by
  obtain ⟨haccount, -, -⟩ := payout_checked h
  obtain ⟨s₁, hsettle, rfl⟩ := applySettlementPayout_eq_ok h
  have hsettled := shares_settlePosition haccount hsettle key
  rw [shares_adjustBalance] at hsettled
  split_ifs
  · rw [shares_adjustBalance, hsettled]
  · exact hsettled

end ShadowState

/-! ## Positions as assets -/

theorem normalize_positionAsset (marketID : ℤ) (outcome : String) :
    normalize (Assets.positionAsset marketID outcome) = Assets.positionAsset marketID outcome :=
  Assets.toUpper_trimSpace_positionAsset marketID outcome

/-- An asset is named like a position. -/
def NamesPosition (asset : String) : Prop := "POSITION:".toList <+: (normalize asset).toList

instance : DecidablePred NamesPosition := fun asset ↦
  inferInstanceAs (Decidable ("POSITION:".toList <+: (normalize asset).toList))

theorem namesPosition_positionAsset (marketID : ℤ) (outcome : String) :
    NamesPosition (Assets.positionAsset marketID outcome) := by
  rw [NamesPosition, normalize_positionAsset, Assets.positionAsset]
  simp only [String.toList_append, List.append_assoc]
  exact List.prefix_append _ _

/-- A posting to a position moves as much as a change of the position. -/
theorem moved_post_positionAsset (accountID marketID : ℤ) (outcome : String) (amount accountID' marketID' : ℤ)
    (outcome' : String) :
    moved (post accountID (Assets.positionAsset marketID outcome) amount)
        (accountID', normalize (Assets.positionAsset marketID' outcome')) =
      sharesMoved accountID marketID outcome amount (accountID', marketID', normalize outcome') := by
  have hkeys : (accountID, normalize (Assets.positionAsset marketID outcome)) =
        (accountID', normalize (Assets.positionAsset marketID' outcome')) ↔
      (accountID, marketID, normalize outcome) = (accountID', marketID', normalize outcome') := by
    rw [normalize_positionAsset, normalize_positionAsset]
    simp only [Prod.mk.injEq, Assets.positionAsset_inj, normalize]
  rw [post]
  split_ifs with haccount
  · rw [sharesMoved_of_pos haccount, moved_cons, moved_nil, add_zero]
    simp only [hkeys]
  · rw [sharesMoved_of_nonpos (not_lt.mp haccount), moved_nil]

/-- A posting to another asset moves no position. -/
theorem moved_post_of_not_namesPosition {asset : String} (h : ¬ NamesPosition asset) (accountID amount : ℤ)
    (accountID' marketID' : ℤ) (outcome' : String) :
    moved (post accountID asset amount) (accountID', normalize (Assets.positionAsset marketID' outcome')) = 0 := by
  have hne : normalize asset ≠ normalize (Assets.positionAsset marketID' outcome') := by
    intro heq
    have hnames := namesPosition_positionAsset marketID' outcome'
    rw [NamesPosition, ← heq] at hnames
    exact h hnames
  rw [post]
  split_ifs
  · rw [moved_cons, moved_nil, add_zero, if_neg fun heq ↦ hne (Prod.mk.inj heq).2]
  · exact moved_nil _

/-! ## Trades and their orders -/

/-- The trade that an entry records. -/
def SharedEntry.trade : SharedEntry → Option TradeMatchedPayload
  | .matching entry =>
    match entry.payload with
    | .orderAccepted _ => none
    | .orderCancelled _ => none
    | .tradeMatched p => some p
  | .cancelled _ _ => none
  | .resolved _ _ => none
  | .payout _ _ => none

/-- The payout that an entry records. -/
def SharedEntry.payment : SharedEntry → Option SettlementPayoutPayload
  | .matching _ => none
  | .cancelled _ _ => none
  | .resolved _ _ => none
  | .payout _ p => some p

/-- The orders of the two accounts of a trade. -/
def buyerSellerOrders (p : TradeMatchedPayload) : String × String :=
  if normalize p.takerSide = "BUY" then (p.takerOrderID, p.makerOrderID)
  else (p.makerOrderID, p.takerOrderID)

/-- An order buys, and reserves no position for it. -/
@[mk_iff]
structure Buys (a : OrderAcceptedPayload) : Prop where
  side : normalize a.side = "BUY"
  reserve : ¬ NamesPosition (reserveAsset a)

/-- An order sells for the seller of a trade, and reserves the position that is traded. -/
@[mk_iff]
structure Sells (p : TradeMatchedPayload) (a : OrderAcceptedPayload) : Prop where
  side : normalize a.side = "SELL"
  account : a.accountID = (buyerSellerAccounts p).2
  reserve : reserveAsset a = Assets.positionAsset p.marketID p.outcome

/-- An order that is accepted under an id of a trade is the order of the trade. -/
@[mk_iff]
structure OwnOrder (p : TradeMatchedPayload) (a : OrderAcceptedPayload) : Prop where
  buys : a.orderID = (buyerSellerOrders p).1 → Buys a
  sells : a.orderID = (buyerSellerOrders p).2 → Sells p a

/-- **Trades are between their own orders.** The ids of every trade stand for its own orders, and positions are
paid for in another asset; a payout is for the position that it settles. -/
structure OwnOrders (journal : List SharedEntry) : Prop where
  orders : ∀ entry ∈ journal, ∀ p ∈ entry.trade, ∀ accepted ∈ journal, ∀ a ∈ accepted.acceptance, OwnOrder p a
  collateral : ∀ entry ∈ journal, ∀ p ∈ entry.trade, ¬ NamesPosition p.collateralAsset
  settled : ∀ entry ∈ journal, ∀ p ∈ entry.payment,
    payoutPositionAsset p = Assets.positionAsset p.marketID p.winningOutcome
  paid : ∀ entry ∈ journal, ∀ p ∈ entry.payment, ¬ NamesPosition (payoutAsset p)

/-! ## Entries keep the two in step -/

namespace ShadowState

variable {s s' : ShadowState} {sequence : ℕ} {entries : List SharedEntry}

/-- What a trade draws does not depend on which of its orders came last. -/
theorem moved_draws (s : ShadowState) (p : TradeMatchedPayload) (key : ℤ × String) :
    moved (s.drawPostings p p.takerOrderID ++ s.drawPostings p p.makerOrderID) key =
      moved (s.drawPostings p (buyerSellerOrders p).1) key +
        moved (s.drawPostings p (buyerSellerOrders p).2) key := by
  rw [moved_append, buyerSellerOrders]
  split_ifs
  · rfl
  · exact add_comm _ _

variable {p : TradeMatchedPayload}

/-- The buying order pays in an asset that is no position. -/
theorem moved_draw_of_buys {orderID : String} {order : OrderLeaf} (hopen : s.openOrders orderID = some order)
    {a : OrderAcceptedPayload} (hof : LeafOf order a) (hbuys : Buys a) (accountID marketID : ℤ) (outcome : String) :
    moved (s.drawPostings p orderID) (accountID, normalize (Assets.positionAsset marketID outcome)) = 0 := by
  cases hdrawn : drawnAmount order p.quantity p.price with
  | error e => simp only [drawPostings, hopen, hdrawn, moved_nil]
  | ok amount =>
    rw [drawPostings_eq hopen hdrawn, hof.reserve]
    exact moved_post_of_not_namesPosition hbuys.reserve ..

/-- The selling order pays the shares. -/
theorem moved_draw_of_sells {orderID : String} {order : OrderLeaf} (hopen : s.openOrders orderID = some order)
    {a : OrderAcceptedPayload} (hof : LeafOf order a) (hsells : Sells p a) (accountID marketID : ℤ)
    (outcome : String) :
    moved (s.drawPostings p orderID) (accountID, normalize (Assets.positionAsset marketID outcome)) =
      sharesMoved (buyerSellerAccounts p).2 p.marketID p.outcome (-p.quantity)
        (accountID, marketID, normalize outcome) := by
  have hside : order.side = "SELL" := hof.side.trans hsells.side
  have hdrawn : drawnAmount order p.quantity p.price = .ok p.quantity := by
    rw [drawnAmount, hside, if_neg (by decide), if_pos rfl]
  rw [drawPostings_eq hopen hdrawn, hof.reserve, hsells.reserve, hof.account, hsells.account]
  exact moved_post_positionAsset ..

/-- **A trade between its own orders keeps positions and balances in step.** -/
theorem positionsAgree_applyTradeMatched (h : s.PositionsAgree) (hlisted : Listed entries s)
    (hown : ∀ entry ∈ entries, ∀ a ∈ entry.acceptance, OwnOrder p a)
    (hcollateral : ¬ NamesPosition p.collateralAsset) (happly : s.applyTradeMatched sequence p = .ok s') :
    s'.PositionsAgree := by
  have hopened : ∀ orderID, orderID = p.takerOrderID ∨ orderID = p.makerOrderID →
      ∃ order, s.openOrders orderID = some order := by
    obtain ⟨notional, s₁, s₂, -, htaker, hmaker, -⟩ := applyTradeMatched_eq_ok happly
    obtain ⟨taker, _, htaker⟩ := filled_of_ok htaker
    obtain ⟨maker, _, hmaker⟩ := filled_of_ok hmaker
    rintro orderID (rfl | rfl)
    · exact ⟨taker, htaker.opened⟩
    · have hmakerOpen := hmaker.opened
      rw [htaker.openOrders] at hmakerOpen
      by_cases heq : p.makerOrderID = p.takerOrderID
      · exact ⟨taker, heq ▸ htaker.opened⟩
      · exact ⟨maker, by rwa [Function.update_of_ne heq] at hmakerOpen⟩
  have hids : ((buyerSellerOrders p).1 = p.takerOrderID ∨ (buyerSellerOrders p).1 = p.makerOrderID) ∧
      ((buyerSellerOrders p).2 = p.takerOrderID ∨ (buyerSellerOrders p).2 = p.makerOrderID) := by
    rw [buyerSellerOrders]
    split_ifs
    · exact ⟨.inl rfl, .inr rfl⟩
    · exact ⟨.inr rfl, .inl rfl⟩
  obtain ⟨buyer, hbuyer⟩ := hopened _ hids.1
  obtain ⟨seller, hseller⟩ := hopened _ hids.2
  obtain ⟨entry, hentry, a, ha, hid, hof⟩ := hlisted _ _ hbuyer
  obtain ⟨entry', hentry', a', ha', hid', hof'⟩ := hlisted _ _ hseller
  have hbuys := (hown entry hentry a ha).buys hid
  have hsells := (hown entry' hentry' a' ha').sells hid'
  intro accountID marketID outcome
  rw [shares_applyTradeMatched happly, (posts_applyTradeMatched happly).held, moved_append, moved_draws,
    moved_draw_of_buys hbuyer hof hbuys, moved_draw_of_sells hseller hof' hsells, creditPostings, moved_append,
    moved_post_positionAsset, moved_post_of_not_namesPosition hcollateral, h]
  ring

/-- **A payout for its own position keeps positions and balances in step.** -/
theorem positionsAgree_applySettlementPayout (h : s.PositionsAgree) {p : SettlementPayoutPayload}
    (hsettled : payoutPositionAsset p = Assets.positionAsset p.marketID p.winningOutcome)
    (hpaid : ¬ NamesPosition (payoutAsset p)) (happly : s.applySettlementPayout sequence p = .ok s') :
    s'.PositionsAgree := by
  intro accountID marketID outcome
  rw [shares_applySettlementPayout happly, (posts_applySettlementPayout happly).held, payoutPostings,
    moved_append, hsettled, moved_post_positionAsset, moved_post_of_not_namesPosition hpaid, h]
  ring

/-- Reserving moves nothing between accounts. -/
theorem positionsAgree_applyOrderAccepted (h : s.PositionsAgree) (p : OrderAcceptedPayload) :
    (s.applyOrderAccepted sequence p).PositionsAgree := by
  intro accountID marketID outcome
  have hshares : (s.applyOrderAccepted sequence p).shares = s.shares := shares_congr (positions_adjustBalance ..)
  rw [hshares, (posts_applyOrderAccepted s sequence p).held, moved_post_zero, add_zero, h]

/-- Releasing moves nothing between accounts, also for an order that is made up. -/
theorem positionsAgree_applyOrderCancelled (h : s.PositionsAgree) (p : OrderCancelledPayload) :
    (s.applyOrderCancelled sequence p).PositionsAgree := by
  intro accountID marketID outcome
  have hshares : (s.applyOrderCancelled sequence p).shares = s.shares := by
    refine shares_congr ?_
    rw [applyOrderCancelled]
    split_ifs
    · exact positions_adjustBalance ..
    · rfl
  rw [hshares, (posts_applyOrderCancelled s sequence p).held, releasePostings, moved_post_zero, add_zero, h]

end ShadowState

/-- **One entry keeps positions and balances in step.** -/
theorem SharedState.positionsAgree_apply {s s' : SharedState} {sequence : ℕ} {entries : List SharedEntry}
    {entry : SharedEntry} (hown : OwnOrders (entries ++ [entry])) (hlisted : Listed entries s.toShadowState)
    (h : s.PositionsAgree) (happly : s.apply sequence entry = .ok s') : s'.PositionsAgree := by
  have hlast : entry ∈ entries ++ [entry] := List.mem_append_right _ List.mem_cons_self
  cases entry with
  | matching entry =>
    obtain ⟨sourceType, sourceRef, occurredAtMillis, payload⟩ := entry
    have hnext := onShadow_eq_ok happly
    cases payload with
    | orderAccepted p =>
      rw [← Except.ok.inj hnext]
      exact positionsAgree_applyOrderAccepted h p
    | orderCancelled p =>
      rw [← Except.ok.inj hnext]
      exact positionsAgree_applyOrderCancelled h p
    | tradeMatched p =>
      refine positionsAgree_applyTradeMatched h hlisted (fun accepted haccepted a ha ↦ ?_)
        (hown.collateral _ hlast p rfl) hnext
      exact hown.orders _ hlast p rfl accepted (List.mem_append_left _ haccepted) a ha
  | cancelled sourceRef p =>
    rw [← Except.ok.inj (onShadow_eq_ok happly)]
    exact positionsAgree_applyOrderCancelled h p
  | resolved sourceRef p =>
    rw [apply, applyMarketResolved] at happly
    split_ifs at happly
    obtain rfl := Except.ok.inj happly
    exact h
  | payout sourceRef p =>
    exact positionsAgree_applySettlementPayout h (hown.settled _ hlast p rfl) (hown.paid _ hlast p rfl)
      (onShadow_eq_ok happly)

/-! ## Main result -/

theorem OwnOrders.of_prefix {journal pre : List SharedEntry} (h : OwnOrders journal) (hpre : pre <+: journal) :
    OwnOrders pre where
  orders entry hentry p hp accepted haccepted :=
    h.orders entry (hpre.subset hentry) p hp accepted (hpre.subset haccepted)
  collateral entry hentry := h.collateral entry (hpre.subset hentry)
  settled entry hentry := h.settled entry (hpre.subset hentry)
  paid entry hentry := h.paid entry (hpre.subset hentry)

/-- Positions agree along a replay. -/
theorem positionsAgree_of_replays {rows : List (JournalRow SharedEntry)} {s : SharedState}
    (hown : OwnOrders (rows.map JournalRow.entry)) (h : Replays rows s) : s.PositionsAgree := by
  induction rows using List.reverseRecOn generalizing s with
  | nil =>
    obtain rfl : SharedState.empty = s := Except.ok.inj h
    exact fun _ _ _ ↦ rfl
  | append_singleton rows row ih =>
    obtain ⟨t, ht, happly⟩ := Replayer.run_concat_eq_ok.mp h
    rw [List.map_append, List.map_singleton] at hown
    have hagree := ih (hown.of_prefix (List.prefix_append _ _)) ht
    exact SharedState.positionsAgree_apply hown (listed_of_replays ht) hagree happly

/-- **Positions are the balances of their assets**, after every part of a journal that replays, if the trades of
the journal are between their own orders. -/
theorem positions_agree (journal : List SharedEntry) (hown : OwnOrders journal)
    (rows : List (JournalRow SharedEntry)) (s : SharedState) (hrows : rows.map JournalRow.entry <+: journal)
    (h : Replays rows s) : s.PositionsAgree :=
  positionsAgree_of_replays (hown.of_prefix hrows) h

/-! ### Examples -/

instance : DecidablePred Buys := fun a ↦ decidable_of_iff' _ (buys_iff a)

instance (p : TradeMatchedPayload) : DecidablePred (Sells p) := fun a ↦ decidable_of_iff' _ (sells_iff p a)

instance (p : TradeMatchedPayload) : DecidablePred (OwnOrder p) := fun a ↦ decidable_of_iff' _ (ownOrder_iff p a)

/-- What the engine of one book has the matching service write. -/
private def bookWrites (e : Engine) : List MatchCommand → List JournalWrite
  | [] => []
  | cmd :: cmds =>
    let handled := e.handle (fun _ ↦ 0) cmd 0 0
    handled.2.map (fun m ↦ .matching m.command m.result) ++ bookWrites handled.1 cmds

/-- An order to sell in the market, which reserves the shares. -/
private def sellIn (marketID : ℤ) (orderID : String) (userID quantity : ℤ) : MatchCommand :=
  { sampleCommand orderID userID .sell quantity with
    marketID
    bookKey := toString marketID ++ ":YES"
    freezeAsset := Assets.positionAsset marketID "YES"
    freezeAmount := quantity }

private def buyIn (marketID : ℤ) (orderID : String) (userID quantity : ℤ) : MatchCommand :=
  { sampleCommand orderID userID .buy quantity with
    marketID
    bookKey := toString marketID ++ ":YES"
    freezeAsset := "USDT" }

/-- A trade, and a payout to its buyer. -/
private def tradeAndPay : List JournalWrite := bookWrites (.new 0) [sellIn 1 "a" 1 2, buyIn 1 "b" 2 1] ++
    [.payout (Settlement.settlementEvent ⟨1, 2, "YES", 1⟩ 100)]

/-- The journal of the trade and the payout replays, and positions and balances agree all along. -/
theorem positions_agree_tradeAndPay : (journalOf tradeAndPay).length = 4 ∧
    (∃ s, Replays ((journalOf tradeAndPay).map (JournalRow.mk 0)) s) ∧
    ∀ rows s, rows.map JournalRow.entry <+: journalOf tradeAndPay → Replays rows s → s.PositionsAgree := by
  have hown : OwnOrders (journalOf tradeAndPay) := by
    constructor <;> decide +kernel
  have hreplays : (sharedReplayer.run sharedReplayer.zero
      ((journalOf tradeAndPay).map (JournalRow.mk 0))).toBool = true := by decide +kernel
  refine ⟨by decide, ?_, positions_agree _ hown⟩
  cases hrun : sharedReplayer.run sharedReplayer.zero ((journalOf tradeAndPay).map (JournalRow.mk 0)) with
  | error e =>
    rw [hrun] at hreplays
    cases hreplays
  | ok s => exact ⟨s, hrun⟩

/-- The id of an order in one market is used again for an order in another one. -/
private def reusedID : List JournalWrite :=
  bookWrites (.new 0) [sellIn 1 "x" 1 2] ++ bookWrites (.new 0) [sellIn 2 "x" 2 1, buyIn 2 "b" 3 1]

/-- **A second order under a known id.** Account 2 sells a share of market 2, and its position goes down. The
balance that goes down is the one of account 1 in market 1. -/
theorem positions_drift : ∃ s, Replays ((journalOf reusedID).map (JournalRow.mk 0)) s ∧
    s.shares (2, 2, "YES") = -1 ∧ s.held (2, "POSITION:2:YES") = 0 ∧
    s.shares (1, 1, "YES") = 0 ∧ s.held (1, "POSITION:1:YES") = -1 ∧ ¬ s.PositionsAgree := by
  refine ⟨_, rfl, by decide, by decide, by decide, by decide +kernel, fun h ↦ ?_⟩
  exact absurd (h 2 2 "YES") (by decide)

end FunnyOption.Rollup
