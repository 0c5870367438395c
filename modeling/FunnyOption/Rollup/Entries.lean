import FunnyOption.Rollup.Reserves

/-!
# All entries of the journal

Besides the matching and the settlement service, the API and the chain listener append to the journal: keys
and nonces, deposits and withdrawals. This file has the replay of all entry types, `FullState.apply`, and what
an entry does to balances.

## Postings

An account holds of an asset what is free and what is locked. What changes it is a short list of postings for
each entry, `FullState.postings`: a deposit, a withdrawal, what a trade draws from its two orders and credits
to its two accounts, what a payout takes and pays. Reserving and releasing is a posting of zero: the balance
is written, and the account holds as much as before. `FullState.posts_apply` says that an entry changes what
is held by its postings, and that it writes no other balance.
-/

open Foundation

namespace FunnyOption.Rollup

open ShadowState

/-! ## Entries -/

/-- `NonceAdvancedPayload`, as far as the replay reads it. -/
structure NonceAdvancedPayload where
  accountID : ℤ
  authKeyID : String
  scope : String
  keyStatus : String
  acceptedNonce : ℕ
  nextNonce : ℕ
  deriving DecidableEq, Repr

/-- The authorization witness of `TradingKeyAuthorizedPayload`, as far as the replay reads it. -/
structure TradingKeyAuthorizedPayload where
  tradingKeyID : String
  authorizationRef : String
  accountID : ℤ
  walletAddress : String
  chainID : ℤ
  vaultAddress : String
  tradingPublicKey : String
  walletSignature : String
  deriving DecidableEq, Repr

/-- `DepositCreditedPayload`, as far as the replay reads it. -/
structure DepositCreditedPayload where
  accountID : ℤ
  asset : String
  amount : ℤ
  deriving DecidableEq, Repr

/-- `WithdrawalRequestedPayload`, as far as the replay and the accepted withdrawals read it. -/
structure WithdrawalRequestedPayload where
  withdrawalID : String
  accountID : ℤ
  walletAddress : String
  recipientAddress : String
  asset : String
  amount : ℤ
  lane : String
  deriving DecidableEq, Repr

/-- The payload of an entry, which decides its entry type. -/
inductive FullEntry where
  | nonceAdvanced (p : NonceAdvancedPayload)
  | tradingKeyAuthorized (p : TradingKeyAuthorizedPayload)
  | orderAccepted (p : OrderAcceptedPayload)
  | orderCancelled (p : OrderCancelledPayload)
  | tradeMatched (p : TradeMatchedPayload)
  | depositCredited (p : DepositCreditedPayload)
  | withdrawalRequested (p : WithdrawalRequestedPayload)
  | marketResolved (p : MarketResolvedPayload)
  | settlementPayout (p : SettlementPayoutPayload)
  deriving DecidableEq, Repr

/-! ## The state -/

/-- `nonceLeaf`. -/
structure NonceLeaf where
  accountID : ℤ
  authKeyID : String
  nextNonce : ℕ
  keyStatus : String
  scope : String
  lastAppliedSequence : ℕ
  deriving DecidableEq, Repr

/-- `withdrawalLeaf`. -/
structure WithdrawalLeaf where
  withdrawalID : String
  accountID : ℤ
  assetID : String
  amount : ℤ
  recipient : String
  lane : String
  status : String
  beneficiary : String
  requestSequence : ℕ
  claimNullifier : String
  deriving DecidableEq, Repr

/-- `shadowState`. -/
structure FullState extends SharedState where
  nonces : ℤ × String → Option NonceLeaf
  withdrawals : String → Option WithdrawalLeaf

/-- The empty state. -/
def FullState.empty : FullState := ⟨.empty, fun _ ↦ none, fun _ ↦ none⟩

/-- `normalizeScope` and `normalizeStatus`, which differ in the default. -/
def normalizeOr (default text : String) : String := if normalize text = "" then default else normalize text

/-- `validateTradingKeyAuthorizedPayload`: the field that is missing. -/
def missingField (p : TradingKeyAuthorizedPayload) : Option String :=
  if trimSpace p.tradingKeyID = "" then some "trading_key_id"
  else if trimSpace p.authorizationRef = "" then some "authorization_ref"
  else if p.accountID ≤ 0 then some "account_id"
  else if trimSpace p.walletAddress = "" then some "wallet_address"
  else if p.chainID ≤ 0 then some "chain_id"
  else if trimSpace p.vaultAddress = "" then some "vault_address"
  else if trimSpace p.tradingPublicKey = "" then some "trading_public_key"
  else if trimSpace p.walletSignature = "" then some "wallet_signature"
  else none

namespace FullState

variable (s : FullState) (sequence : ℕ)

/-- `applyNonceAdvanced`. -/
def applyNonceAdvanced (p : NonceAdvancedPayload) : Except String FullState :=
  let authKeyID := trimSpace p.authKeyID
  let key := (p.accountID, authKeyID)
  if p.accountID ≤ 0 then .error "account_id is required for nonce advance"
  else if authKeyID = "" then .error "auth_key_id is required for nonce advance"
  else if p.acceptedNonce = 0 then .error "accepted_nonce must be positive"
  else if p.nextNonce = 0 ∨ p.nextNonce ≠ p.acceptedNonce + 1 then
    .error "next_nonce must equal accepted_nonce + 1"
  else if ∃ current ∈ s.nonces key, p.acceptedNonce < current.nextNonce then
    .error ("nonce advance regressed for account " ++ toString p.accountID ++ " auth_key " ++ authKeyID)
  else
    .ok { s with
      nonces := Function.update s.nonces key
        (some ⟨p.accountID, authKeyID, p.nextNonce, normalizeOr "ACTIVE" p.keyStatus,
          normalizeOr "TRADE" p.scope, sequence⟩) }

/-- The validation of an authorized trading key, which changes nothing. -/
def applyTradingKeyAuthorized (p : TradingKeyAuthorizedPayload) : Except String FullState :=
  match missingField p with
  | some field => .error (field ++ " is required for trading key auth witness")
  | none => .ok s

/-- An entry that changes balances, orders and positions only. -/
def onShadow (result : Except String ShadowState) : Except String FullState :=
  result.map fun shadow ↦ { s with toShadowState := shadow }

/-- The leaf of a requested withdrawal. -/
def withdrawalLeaf (p : WithdrawalRequestedPayload) : WithdrawalLeaf :=
  ⟨p.withdrawalID, p.accountID, normalize p.asset, p.amount, trimSpace p.recipientAddress,
    trimSpace p.lane, "REQUESTED", "USER", sequence, ""⟩

/-- `apply`. -/
def apply : FullEntry → Except String FullState
  | .nonceAdvanced p => s.applyNonceAdvanced sequence p
  | .tradingKeyAuthorized p => s.applyTradingKeyAuthorized p
  | .orderAccepted p => s.onShadow (.ok (s.applyOrderAccepted sequence p))
  | .orderCancelled p => s.onShadow (.ok (s.applyOrderCancelled sequence p))
  | .tradeMatched p => s.onShadow (s.applyTradeMatched sequence p)
  | .depositCredited p =>
    s.onShadow (.ok (s.adjustBalance sequence p.accountID p.asset p.amount 0))
  | .withdrawalRequested p =>
    .ok { s with
      toShadowState := s.adjustBalance sequence p.accountID p.asset (-p.amount) 0
      withdrawals := Function.update s.withdrawals p.withdrawalID (some (withdrawalLeaf sequence p)) }
  | .marketResolved p =>
    (s.toSharedState.applyMarketResolved sequence p).map fun shared ↦ { s with toSharedState := shared }
  | .settlementPayout p => s.onShadow (s.applySettlementPayout sequence p)

end FullState

/-- How the journal is replayed. -/
def fullReplayer : Replayer FullEntry FullState := ⟨.empty, FullState.apply⟩

/-! ## Postings -/

/-- An amount that is added to what an account holds of an asset. -/
abbrev Posting := (ℤ × String) × ℤ

/-- The posting of an amount. An account without a positive id has no balance. -/
def post (accountID : ℤ) (asset : String) (amount : ℤ) : List Posting :=
  if 0 < accountID then [((accountID, normalize asset), amount)] else []

namespace ShadowState

variable (s : ShadowState)

/-- What an account holds of an asset, free or locked. -/
def held (key : ℤ × String) : ℤ := s.free key + s.locked key

/-- What a trade draws from one of its orders. -/
def drawPostings (p : TradeMatchedPayload) (orderID : String) : List Posting :=
  match s.openOrders orderID with
  | none => []
  | some order =>
    match drawnAmount order p.quantity p.price with
    | .error _ => []
    | .ok amount => post order.accountID order.reserveAsset (-amount)

/-- What a trade credits: the shares to the buyer, their price to the seller. -/
def creditPostings (p : TradeMatchedPayload) : List Posting :=
  post (buyerSellerAccounts p).1 (Assets.positionAsset p.marketID p.outcome) p.quantity ++
    post (buyerSellerAccounts p).2 p.collateralAsset (p.price * p.quantity)

/-- What a cancelled order releases stays with its account. -/
def releasePostings (p : OrderCancelledPayload) : List Posting :=
  let order := (s.openOrders p.orderID).getD (syntheticOrder p)
  post order.accountID order.reserveAsset 0

/-- What a payout takes and pays. -/
def payoutPostings (p : SettlementPayoutPayload) : List Posting :=
  post p.accountID (payoutPositionAsset p) (-p.settledQuantity) ++ post p.accountID (payoutAsset p) p.payoutAmount

end ShadowState

/-- The postings of an entry. -/
def FullState.postings (s : FullState) : FullEntry → List Posting
  | .nonceAdvanced _ => []
  | .tradingKeyAuthorized _ => []
  | .orderAccepted p => post p.accountID (reserveAsset p) 0
  | .orderCancelled p => s.releasePostings p
  | .tradeMatched p =>
    s.drawPostings p p.takerOrderID ++ s.drawPostings p p.makerOrderID ++ creditPostings p
  | .depositCredited p => post p.accountID p.asset p.amount
  | .withdrawalRequested p => post p.accountID p.asset (-p.amount)
  | .marketResolved _ => []
  | .settlementPayout p => payoutPostings p

/-! ### What operations post -/

namespace ShadowState

variable {s s' : ShadowState} {sequence : ℕ} {key : ℤ × String}

theorem held_congr (h : s'.balances = s.balances) : s'.held = s.held := by
  funext key
  rw [held, held, free_congr h, locked_congr h]

/-- The leaves are finitely many, and each one names its key. -/
structure Keyed (s : ShadowState) : Prop where
  finite : FinitelyMany s.balances
  named : ∀ key leaf, s.balances key = some leaf → leaf.accountID = key.1 ∧ leaf.assetID = key.2

theorem keyed_empty : ShadowState.empty.Keyed := ⟨finitelyMany_none, fun _ _ h ↦ nomatch h⟩

/-- A state whose balances are those of another one after postings. -/
structure Posts (s : ShadowState) (postings : List Posting) (s' : ShadowState) : Prop where
  held : ∀ key, s'.held key = s.held key + moved postings key
  frame : ∀ key, key ∉ postings.map Prod.fst → s'.balances key = s.balances key
  keyed : s.Keyed → s'.Keyed

theorem Keyed.congr (h : s.Keyed) (hbalances : s'.balances = s.balances) : s'.Keyed :=
  ⟨hbalances ▸ h.finite, hbalances ▸ h.named⟩

theorem Posts.of_balances (h : s'.balances = s.balances) : s.Posts [] s' where
  held key := by rw [held_congr h, moved_nil, add_zero]
  frame key _ := congrFun h key
  keyed hkeyed := hkeyed.congr h

theorem Posts.trans {s₁ : ShadowState} {postings postings₁ : List Posting} (h : s.Posts postings s₁)
    (h₁ : s₁.Posts postings₁ s') : s.Posts (postings ++ postings₁) s' where
  held key := by rw [h₁.held key, h.held key, moved_append, add_assoc]
  frame key hkey := by
    rw [List.map_append, List.mem_append, not_or] at hkey
    rw [h₁.frame key hkey.2, h.frame key hkey.1]
  keyed hkeyed := h₁.keyed (h.keyed hkeyed)

/-- The balances matter, and only them. -/
theorem Posts.congr {s₁ : ShadowState} {postings : List Posting} (h : s.Posts postings s')
    (hbalances : s₁.balances = s'.balances) : s.Posts postings s₁ where
  held key := by rw [held_congr hbalances, h.held key]
  frame key hkey := by rw [hbalances, h.frame key hkey]
  keyed hkeyed := (h.keyed hkeyed).congr hbalances

/-- Postings that move the same, and write at least as much. -/
theorem Posts.congr_postings {postings postings' : List Posting} (h : s.Posts postings s')
    (hmoved : ∀ key, moved postings key = moved postings' key)
    (hkeys : postings.map Prod.fst ⊆ postings'.map Prod.fst) : s.Posts postings' s' where
  held key := by rw [h.held key, hmoved key]
  frame key hkey := h.frame key fun hmem ↦ hkey (hkeys hmem)
  keyed := h.keyed

theorem keyed_adjustBalance (h : s.Keyed) (sequence : ℕ) (accountID : ℤ) (asset : String) (freeDelta lockedDelta : ℤ) :
    (s.adjustBalance sequence accountID asset freeDelta lockedDelta).Keyed := by
  by_cases haccount : 0 < accountID
  · have hbalances := balances_adjustBalance s sequence haccount asset freeDelta lockedDelta
    refine ⟨hbalances ▸ h.finite.update _ _, fun key leaf hleaf ↦ ?_⟩
    rw [hbalances] at hleaf
    by_cases heq : key = (accountID, normalize asset)
    · subst heq
      rw [Function.update_self] at hleaf
      split_ifs at hleaf
      obtain rfl := Option.some.inj hleaf
      exact ⟨rfl, rfl⟩
    · rw [Function.update_of_ne heq] at hleaf
      exact h.named key leaf hleaf
  · rw [adjustBalance_of_nonpos s sequence (not_lt.mp haccount)]
    exact h

theorem posts_adjustBalance (s : ShadowState) (sequence : ℕ) (accountID : ℤ) (asset : String)
    (freeDelta lockedDelta : ℤ) :
    s.Posts (post accountID asset (freeDelta + lockedDelta))
      (s.adjustBalance sequence accountID asset freeDelta lockedDelta) := by
  rw [post]
  split_ifs with haccount
  · have hbalances := balances_adjustBalance s sequence haccount asset freeDelta lockedDelta
    refine ⟨fun key ↦ ?_, fun key hkey ↦ ?_, fun h ↦ keyed_adjustBalance h ..⟩
    · rw [moved_cons, moved_nil, add_zero]
      by_cases heq : (accountID, normalize asset) = key
      · subst heq
        rw [held, held, (amounts_adjustBalance _ _ _ _ _ _ haccount).1, (amounts_adjustBalance _ _ _ _ _ _ haccount).2]
        simp only [if_true]
        omega
      · rw [if_neg heq, held, held, free, free, locked, locked, hbalances,
          Function.update_of_ne (Ne.symm heq), add_zero]
    · rw [List.map_singleton, List.mem_singleton] at hkey
      rw [hbalances, Function.update_of_ne hkey]
  · rw [adjustBalance_of_nonpos s sequence (not_lt.mp haccount)]
    exact Posts.of_balances rfl

theorem posts_adjustBalance_free (s : ShadowState) (sequence : ℕ) (accountID : ℤ) (asset : String) (delta : ℤ) :
    s.Posts (post accountID asset delta) (s.adjustBalance sequence accountID asset delta 0) := by
  have hposts := posts_adjustBalance s sequence accountID asset delta 0
  rwa [add_zero] at hposts

/-- What is moved between the free and the locked balance is posted as zero. -/
theorem posts_adjustBalance_of_neg (s : ShadowState) (sequence : ℕ) (accountID : ℤ) (asset : String) (delta : ℤ) :
    s.Posts (post accountID asset 0) (s.adjustBalance sequence accountID asset delta (-delta)) := by
  have hposts := posts_adjustBalance s sequence accountID asset delta (-delta)
  rwa [add_neg_cancel] at hposts

theorem moved_post_zero (accountID : ℤ) (asset : String) (key : ℤ × String) :
    moved (post accountID asset 0) key = 0 := by
  rw [post]
  split_ifs
  · rw [moved_cons, ite_self, moved_nil, add_zero]
  · rfl

/-- Nothing happens, which posts zero. -/
theorem posts_zero (accountID : ℤ) (asset : String) (h : s'.balances = s.balances) :
    s.Posts (post accountID asset 0) s' := by
  refine (Posts.of_balances h).congr_postings (fun key ↦ ?_) (List.nil_subset _)
  rw [moved_nil, moved_post_zero]

theorem posts_applyOrderAccepted (s : ShadowState) (sequence : ℕ) (p : OrderAcceptedPayload) :
    s.Posts (post p.accountID (reserveAsset p) 0) (s.applyOrderAccepted sequence p) := by
  have hneg : p.reserveAmount = -(-p.reserveAmount) := (neg_neg _).symm
  refine Posts.congr (posts_adjustBalance_of_neg s sequence p.accountID (reserveAsset p)
    (-p.reserveAmount)) ?_
  rw [applyOrderAccepted, balances_setOrder, ← hneg]

theorem posts_applyOrderCancelled (s : ShadowState) (sequence : ℕ) (p : OrderCancelledPayload) :
    s.Posts (s.releasePostings p) (s.applyOrderCancelled sequence p) := by
  rw [applyOrderCancelled, releasePostings]
  split_ifs
  · exact (posts_adjustBalance_of_neg s sequence _ _ _).congr (balances_setOrder ..)
  · exact posts_zero _ _ (balances_setOrder ..)

variable {p : TradeMatchedPayload}

theorem drawPostings_eq {orderID : String} {order : OrderLeaf} {amount : ℤ}
    (hopen : s.openOrders orderID = some order) (hdrawn : drawnAmount order p.quantity p.price = .ok amount) :
    s.drawPostings p orderID = post order.accountID order.reserveAsset (-amount) := by
  simp only [drawPostings, hopen, hdrawn]

theorem map_fst_post (accountID : ℤ) (asset : String) (amount : ℤ) : (post accountID asset amount).map Prod.fst =
      if 0 < accountID then [(accountID, normalize asset)] else [] := by
  rw [post]
  split_ifs <;> rfl

/-- A fill posts what it draws; what it releases stays with the account. -/
theorem posts_fillOrder {orderID : String} (h : s.fillOrder sequence orderID p.quantity p.price = .ok s') :
    s.Posts (s.drawPostings p orderID) s' := by
  obtain ⟨order, amount, hfilled⟩ := filled_of_ok h
  have hopen := hfilled.opened
  have hdrawn := hfilled.covers.drawn
  rw [drawPostings_eq hopen hdrawn]
  have hdraw := posts_adjustBalance s sequence order.accountID order.reserveAsset 0 (-amount)
  rw [zero_add] at hdraw
  simp only [fillOrder, hopen, hdrawn, if_neg (not_le.mpr hfilled.covers.pos),
    if_neg (not_lt.mpr hfilled.covers.remaining)] at h
  split at h
  · cases h
  · obtain rfl := Except.ok.inj h
    refine Posts.congr ?_ (balances_setOrder _ _ _)
    split_ifs
    · refine (hdraw.trans (posts_adjustBalance_of_neg _ _ _ _ _)).congr_postings (fun key ↦ ?_) ?_
      · rw [moved_append, moved_post_zero, add_zero]
      · simp only [List.map_append, map_fst_post]
        exact List.append_subset_of_subset_of_subset (List.Subset.refl _) (List.Subset.refl _)
    · exact hdraw

/-- The second fill of a trade draws what it would have drawn first. -/
theorem drawPostings_of_filled {first second : String} {order order' : OrderLeaf} {amount amount' : ℤ}
    (h : Filled s sequence first p.quantity p.price order amount s') (hopen : s'.openOrders second = some order')
    (hdrawn : drawnAmount order' p.quantity p.price = .ok amount') :
    s'.drawPostings p second = s.drawPostings p second := by
  rw [drawPostings_eq hopen hdrawn]
  rw [h.openOrders] at hopen
  by_cases heq : second = first
  · -- the order trades with itself: it is the same but for its quantities
    subst heq
    rw [Function.update_self] at hopen
    split_ifs at hopen with hdone
    obtain rfl := Option.some.inj hopen
    exact (drawPostings_eq h.opened hdrawn).symm
  · rw [Function.update_of_ne heq] at hopen
    exact (drawPostings_eq hopen hdrawn).symm

/-- One of the two accounts of a trade is credited. -/
theorem posts_credit (s : ShadowState) (sequence : ℕ) (accountID marketID : ℤ) (asset outcome : String)
    (amount delta : ℤ) :
    s.Posts (post accountID asset amount) (if accountID > 0 then
      (s.adjustBalance sequence accountID asset amount 0).adjustPosition sequence accountID marketID
        outcome delta else s) := by
  split_ifs with haccount
  · exact (posts_adjustBalance_free s sequence accountID asset amount).congr (balances_adjustPosition ..)
  · rw [post, if_neg haccount]
    exact Posts.of_balances rfl

theorem posts_creditTrade (s : ShadowState) (sequence : ℕ) {notional : ℤ}
    (hnotional : notional = p.price * p.quantity) :
    s.Posts (creditPostings p) (s.creditTrade sequence p notional) := by
  rw [creditTrade, creditPostings, hnotional]
  exact (posts_credit s sequence (buyerSellerAccounts p).1 p.marketID
    (Assets.positionAsset p.marketID p.outcome) p.outcome p.quantity p.quantity).trans
    (posts_credit _ sequence (buyerSellerAccounts p).2 p.marketID p.collateralAsset p.outcome
      (p.price * p.quantity) (-p.quantity))

theorem multiply_eq {left right value : ℤ} (h : multiply left right = .ok value) : value = left * right := by
  rw [multiply] at h
  split_ifs at h with hneg hzero hover
  · obtain rfl := Except.ok.inj h
    rcases hzero with rfl | rfl <;> simp
  · exact (Except.ok.inj h).symm

theorem posts_applyTradeMatched (h : s.applyTradeMatched sequence p = .ok s') :
    s.Posts (s.drawPostings p p.takerOrderID ++ s.drawPostings p p.makerOrderID ++ creditPostings p) s' := by
  obtain ⟨notional, s₁, s₂, hnotional, htaker, hmaker, hs'⟩ := applyTradeMatched_eq_ok h
  obtain ⟨taker, takerAmount, hfilled⟩ := filled_of_ok htaker
  obtain ⟨maker, makerAmount, hfilled'⟩ := filled_of_ok hmaker
  rw [hs', ← drawPostings_of_filled hfilled hfilled'.opened hfilled'.covers.drawn]
  exact ((posts_fillOrder htaker).trans (posts_fillOrder hmaker)).trans
    (posts_creditTrade s₂ sequence (multiply_eq hnotional))

/-- What a payout that succeeds has checked of its amounts. -/
theorem payout_checked {p : SettlementPayoutPayload} (h : s.applySettlementPayout sequence p = .ok s') :
    0 < p.accountID ∧ 0 < p.settledQuantity ∧ 0 ≤ p.payoutAmount := by
  rw [applySettlementPayout] at h
  split_ifs at h with haccount hmarket hsettled hpayout
  all_goals exact ⟨not_le.mp haccount, not_le.mp hsettled, not_lt.mp hpayout⟩

theorem posts_applySettlementPayout {p : SettlementPayoutPayload} (h : s.applySettlementPayout sequence p = .ok s') :
    s.Posts (payoutPostings p) s' := by
  obtain ⟨-, -, hpayout⟩ := payout_checked h
  obtain ⟨s₁, hsettle, hs'⟩ := applySettlementPayout_eq_ok h
  obtain ⟨hbalances, -⟩ := settlePosition_eq_ok hsettle
  rw [hs', payoutPostings]
  refine ((posts_adjustBalance_free s sequence p.accountID (payoutPositionAsset p)
    (-p.settledQuantity)).congr hbalances).trans ?_
  split_ifs with hpays
  · exact posts_adjustBalance_free s₁ sequence p.accountID (payoutAsset p) p.payoutAmount
  · have hzero : p.payoutAmount = 0 := le_antisymm (not_lt.mp hpays) hpayout
    rw [hzero]
    exact posts_zero _ _ rfl

end ShadowState

/-! ### What entries post -/

namespace FullState

variable {s s' : FullState} {sequence : ℕ} {entry : FullEntry}

theorem onShadow_eq_ok {result : Except String ShadowState} (h : s.onShadow result = .ok s') :
    result = .ok s'.toShadowState := by
  cases result with
  | error e => cases h
  | ok shadow =>
    obtain rfl := Except.ok.inj h
    rfl

/-- **What an entry does to balances.** It changes what is held by its postings. -/
theorem posts_apply (h : s.apply sequence entry = .ok s') :
    s.toShadowState.Posts (s.postings entry) s'.toShadowState := by
  cases entry with
  | nonceAdvanced p =>
    simp only [apply, applyNonceAdvanced] at h
    split_ifs at h
    obtain rfl := Except.ok.inj h
    exact Posts.of_balances rfl
  | tradingKeyAuthorized p =>
    simp only [apply, applyTradingKeyAuthorized] at h
    cases hfield : missingField p with
    | some field =>
      rw [hfield] at h
      cases h
    | none =>
      rw [hfield] at h
      obtain rfl := Except.ok.inj h
      exact Posts.of_balances rfl
  | orderAccepted p =>
    rw [← Except.ok.inj (onShadow_eq_ok h)]
    exact posts_applyOrderAccepted _ sequence p
  | orderCancelled p =>
    rw [← Except.ok.inj (onShadow_eq_ok h)]
    exact posts_applyOrderCancelled _ sequence p
  | tradeMatched p => exact posts_applyTradeMatched (onShadow_eq_ok h)
  | depositCredited p =>
    rw [← Except.ok.inj (onShadow_eq_ok h)]
    exact posts_adjustBalance_free _ sequence _ _ _
  | withdrawalRequested p =>
    obtain rfl := Except.ok.inj h
    exact posts_adjustBalance_free _ sequence _ _ _
  | marketResolved p =>
    rw [apply, SharedState.applyMarketResolved] at h
    split_ifs at h
    · cases h
    · cases h
    · obtain rfl := Except.ok.inj h
      exact Posts.of_balances rfl
  | settlementPayout p => exact posts_applySettlementPayout (onShadow_eq_ok h)

end FullState

/-! ## Supplies -/

namespace ShadowState

variable {s s' : ShadowState} {postings : List Posting}

/-- What is held under the keys with a property. -/
noncomputable def heldWhere (s : ShadowState) (P : ℤ × String → Prop) [DecidablePred P] : ℤ :=
  finsum fun key ↦ if P key then s.held key else 0

/-- What all accounts hold of an asset. -/
noncomputable def supply (s : ShadowState) (asset : String) : ℤ := s.heldWhere fun key ↦ key.2 = asset

/-- Something is held under finitely many keys. -/
def FinitelyHeld (s : ShadowState) : Prop := (Function.support s.held).Finite

theorem finitelyHeld_of_finitelyMany (h : FinitelyMany s.balances) : s.FinitelyHeld := by
  refine h.subset fun key hkey hnone ↦ hkey ?_
  rw [held, free, locked, hnone]
  rfl

theorem finitelyHeld_empty : ShadowState.empty.FinitelyHeld := finitelyHeld_of_finitelyMany finitelyMany_none

theorem Posts.finitelyHeld (h : s.Posts postings s') (hfinite : s.FinitelyHeld) : s'.FinitelyHeld := by
  refine (hfinite.union (finite_support_moved postings)).subset fun key hkey ↦ ?_
  by_contra hout
  rw [Set.mem_union, Function.mem_support, Function.mem_support, not_or, not_ne_iff, not_ne_iff] at hout
  rw [Function.mem_support, h.held, hout.1, hout.2, add_zero] at hkey
  exact hkey rfl

/-- **Postings and supplies.** What is held under some keys changes by what is posted there. -/
theorem Posts.heldWhere (h : s.Posts postings s') (hfinite : s.FinitelyHeld) (P : ℤ × String → Prop)
    [DecidablePred P] : s'.heldWhere P = s.heldWhere P + movedWhere P postings := by
  have hsplit : ∀ key, (if P key then s'.held key else 0) =
      (if P key then s.held key else 0) + if P key then moved postings key else 0 := by
    intro key
    rw [h.held key]
    split_ifs
    · rfl
    · exact (add_zero 0).symm
  rw [ShadowState.heldWhere, finsum_congr hsplit, finsum_add_distrib (finite_support_ite P hfinite)
    (finite_support_ite P (finite_support_moved postings)), finsum_moved, ← ShadowState.heldWhere]

end ShadowState

/-- What postings add to the supply of an asset. -/
def movedIn (postings : List Posting) (asset : String) : ℤ := movedWhere (fun key ↦ key.2 = asset) postings

theorem movedIn_append (postings postings' : List Posting) (asset : String) :
    movedIn (postings ++ postings') asset = movedIn postings asset + movedIn postings' asset :=
  movedWhere_append _ postings postings'

theorem movedIn_cons (posting : Posting) (postings : List Posting) (asset : String) :
    movedIn (posting :: postings) asset = (if posting.1.2 = asset then posting.2 else 0) + movedIn postings asset :=
  movedWhere_cons _ posting postings

@[simp]
theorem movedIn_nil (asset : String) : movedIn [] asset = 0 := rfl

/-! ## Runs -/

section Runs

variable {s t : FullState} {rows : List (JournalRow FullEntry)}

/-- A run that succeeds has succeeded at each of its entries. -/
theorem run_of_prefix {pre : List (JournalRow FullEntry)} (hpre : pre <+: rows) (h : fullReplayer.run s rows = .ok t) :
    ∃ u, fullReplayer.run s pre = .ok u := by
  obtain ⟨rest, rfl⟩ := hpre
  obtain ⟨u, hu, -⟩ := Replayer.run_append_eq_ok.mp h
  exact ⟨u, hu⟩

/-- What holds at each position of a journal holds of each row in the state that it is applied to. -/
theorem forall_rows_of_forall_take {P : FullState → JournalRow FullEntry → Prop}
    (h : ∀ k row u, rows[k]? = some row → fullReplayer.run s (rows.take k) = .ok u → P u row)
    {pre : List (JournalRow FullEntry)} {row : JournalRow FullEntry} {u : FullState} (hpre : pre ++ [row] <+: rows)
    (hrun : fullReplayer.run s pre = .ok u) : P u row := by
  have htake : pre = rows.take pre.length := List.prefix_iff_eq_take.mp ((List.prefix_append pre [row]).trans hpre)
  have hrow : rows[pre.length]? = some row := by
    obtain ⟨rest, hrest⟩ := hpre
    rw [← hrest]
    simp
  rw [htake] at hrun
  exact h pre.length row u hrow hrun

/-- The keys that the entries of a journal post to. -/
def writtenKeys : FullState → List (JournalRow FullEntry) → List (ℤ × String)
  | _, [] => []
  | s, row :: rows =>
    (s.postings row.entry).map Prod.fst ++
      match s.apply row.sequence row.entry with
      | .error _ => []
      | .ok s => writtenKeys s rows

/-- A journal leaves the other balances alone. -/
theorem balances_run_of_notMem {key : ℤ × String} (h : fullReplayer.run s rows = .ok t)
    (hkey : key ∉ writtenKeys s rows) : t.balances key = s.balances key := by
  induction rows generalizing s with
  | nil =>
    obtain rfl := Except.ok.inj h
    rfl
  | cons row rows ih =>
    obtain ⟨u, happly, h⟩ := Replayer.run_cons_eq_ok.mp h
    rw [writtenKeys, show s.apply row.sequence row.entry = .ok u from happly, List.mem_append, not_or] at hkey
    rw [ih h hkey.2, (FullState.posts_apply happly).frame key hkey.1]

end Runs

/-- A deposit of 60, and a share that is sold for it. -/
def shareSold : List (JournalRow FullEntry) := [⟨1, .depositCredited ⟨1, "USDT", 60⟩⟩,
    ⟨2, .orderAccepted ⟨"s", "", "", 2, 1, "YES", "SELL", "LIMIT", "GTC", "USDT", "POSITION:1:YES", 1, 60, 1, 0⟩⟩,
    ⟨3, .orderAccepted ⟨"b", "", "", 1, 1, "YES", "BUY", "LIMIT", "GTC", "USDT", "USDT", 60, 60, 1, 0⟩⟩,
    ⟨4, .tradeMatched ⟨"trd_1", 1, "USDT", 1, "YES", 60, 1, "b", "s", 1, 2, "BUY", "SELL", 0⟩⟩]

/-- The payout of the share. -/
def sharePaid : JournalRow FullEntry := ⟨5, .settlementPayout ⟨"e", 1, 1, "YES", "POSITION:1:YES", 1, "USDT", 100⟩⟩

/-- The state after rows that replay. -/
def stateAfter (rows : List (JournalRow FullEntry)) : FullState := (fullReplayer.run .empty rows).toOption.getD .empty

theorem run_of_isOk {rows : List (JournalRow FullEntry)} (h : (fullReplayer.run .empty rows).isOk = true) :
    fullReplayer.run .empty rows = .ok (stateAfter rows) := by
  rw [stateAfter]
  cases hrun : fullReplayer.run .empty rows with
  | error e => rw [hrun] at h; cases h
  | ok t => rfl

end FunnyOption.Rollup
