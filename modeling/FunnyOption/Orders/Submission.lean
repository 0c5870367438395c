import FunnyOption.Account.Draw
import FunnyOption.Matching.Descent

/-!
# Submitting an order

`SubmitOrder` computes what an order may cost, freezes that much of the user's balance, and publishes
a command for the engine that carries the freeze. It is modelled from the computation of the freeze
on. The checks before it only refuse orders, and what is proved of a submitted order here does not
need them: any time in force is allowed, and so is any strategy against trades with oneself, a field
of the command that `SubmitOrder` leaves empty.

A command that comes out is `Sound`, and the book it came out of has its freeze: `Funded`. The second
stays true as long as no freeze is forgotten.
-/

open Foundation

namespace FunnyOption.Orders

open Account Matching

/-- `NewID`. The suffix is made of the time and of random digits. -/
def newID (kind suffix : String) : String := kind ++ "_" ++ suffix

theorem newID_ne_empty (kind suffix : String) : newID kind suffix ≠ "" := by
  intro h
  have hlist := congrArg String.toList h
  simp [newID] at hlist

/-- `SubmitRequest`, with its texts parsed and the ids that `SubmitOrder` makes up for the order and
for the command. -/
structure SubmitRequest where
  userID : ℤ
  marketID : ℤ
  outcome : String
  side : OrderSide
  type : Matching.OrderType
  timeInForce : TimeInForce
  stp : STPStrategy
  price : ℤ
  quantity : ℤ
  orderID : String
  clientOrderID : String
  commandID : String
  traceID : String
  requestedAt : ℤ
  deriving DecidableEq, Repr

/-- `CalculateFreeze`: the asset and the amount to freeze, or an error text. -/
def calculateFreeze (side : OrderSide) (type : Matching.OrderType) (marketID : ℤ) (outcome : String)
    (price quantity : ℤ) : Except String (String × ℤ) :=
  if quantity ≤ 0 then .error "quantity must be positive"
  else
    match side, type with
    | .buy, .limit =>
      if price ≤ 0 then .error "limit order requires positive price"
      else if price > maxInt64 / quantity then .error "freeze amount overflow"
      else .ok (Assets.defaultCollateralAsset, price * quantity)
    | .buy, .market =>
      if 100 > maxInt64 / quantity then .error "freeze amount overflow"
      else .ok (Assets.defaultCollateralAsset, 100 * quantity)
    | .sell, _ =>
      if trimSpace outcome = "" then .error "sell order requires outcome"
      else .ok (Assets.positionAsset marketID outcome, quantity)

namespace SubmitRequest

variable (req : SubmitRequest)

/-- The price of the command: a market order becomes a limit order at the worst price. -/
def commandPrice : ℤ :=
  match req.type, req.side with
  | .limit, _ => req.price
  | .market, .buy => 99
  | .market, .sell => 1

/-- The command of a request whose freeze was taken. -/
def toCommand (record : FreezeRecord) : MatchCommand where
  userID := req.userID
  marketID := req.marketID
  price := req.commandPrice
  quantity := req.quantity
  freezeAmount := record.amount
  requestedAtMillis := req.requestedAt
  orderID := req.orderID
  clientOrderID := trimSpace req.clientOrderID
  outcome := req.outcome
  bookKey := toString req.marketID ++ ":" ++ req.outcome
  commandID := req.commandID
  traceID := trimSpace req.traceID
  freezeID := record.freezeID
  freezeAsset := record.asset
  collateralAsset := Assets.defaultCollateralAsset
  action := .place
  side := req.side
  type := .limit
  timeInForce :=
    match req.type with
    | .limit => req.timeInForce
    | .market => .ioc
  stp := req.stp
  cancelReason := .other

/-- The freeze a request asks for. -/
def freezeRequest (asset : String) (amount : ℤ) : FreezeRequest :=
  ⟨"", req.userID, asset, "ORDER", req.orderID, amount⟩

end SubmitRequest

/-- `SubmitOrder`, from the freeze on: the book, and the command if there is no error. -/
def submitOrder (book : BalanceBook) (freezeID : String) (req : SubmitRequest) : BalanceBook × Option MatchCommand :=
  match calculateFreeze req.side req.type req.marketID req.outcome req.price req.quantity with
  | .error _ => (book, none)
  | .ok (asset, amount) =>
    let frozen := book.preFreeze freezeID (req.freezeRequest asset amount)
    match frozen.2 with
    | .error _ => (frozen.1, none)
    | .ok record => (frozen.1, some (req.toCommand record))

/-! ## What is known of a submitted order -/

/-- Positions are another asset than the collateral. -/
theorem normalizeAsset_positionAsset (marketID : ℤ) (outcome : String) :
    normalizeAsset (Assets.positionAsset marketID outcome) ≠ Assets.defaultCollateralAsset :=
  Assets.positionAsset_ne (by decide) marketID outcome

/-- What a submitted command says. -/
structure Sound (c : MatchCommand) : Prop where
  userID : 0 < c.userID
  quantity : 0 < c.quantity
  freezeID : c.freezeID ≠ ""
  collateralAsset : c.collateralAsset = Assets.defaultCollateralAsset
  buys : c.side = .buy → normalizeAsset c.freezeAsset = Assets.defaultCollateralAsset ∧ 0 < c.price ∧
    c.price * c.quantity ≤ maxInt64
  sells : c.side = .sell → normalizeAsset c.freezeAsset ≠ Assets.defaultCollateralAsset

/-- The book has the freeze of a command. -/
def Funded (book : BalanceBook) (c : MatchCommand) : Prop :=
  ∃ record, Processor.Backed book c.freezeID record ∧ record.userID = c.userID ∧
    record.asset = c.freezeAsset ∧ (c.side = .buy → record.amount ≤ maxInt64)

theorem Funded.of_ages {book book' : BalanceBook} {c : MatchCommand} (h : Funded book c) (hages : book.Ages book')
    (hrows : ∀ k, (book.balances k).isSome → (book'.balances k).isSome) : Funded book' c := by
  obtain ⟨record, hbacked, huser, hasset, hamount⟩ := h
  obtain ⟨record', hrecord', hlater⟩ := hages c.freezeID record hbacked.lookup
  refine ⟨record', ⟨hrecord', ?_⟩, hlater.userID.trans huser, hlater.asset.trans hasset, ?_⟩
  · rw [hlater.userID, hlater.asset]
    exact hrows _ hbacked.row
  · exact fun hbuy ↦ hlater.amount.trans (max_le (hamount hbuy) (by decide))

/-- What the freeze of an order comes to. -/
theorem calculateFreeze_spec {side : OrderSide} {type : Matching.OrderType} {marketID price quantity : ℤ}
    {outcome asset : String} {amount : ℤ}
    (h : calculateFreeze side type marketID outcome price quantity = .ok (asset, amount)) :
    0 < quantity ∧ (side = .buy → asset = Assets.defaultCollateralAsset ∧
        amount = (if type = .limit then price else 100) * quantity ∧ amount ≤ maxInt64 ∧
        (type = .limit → 0 < price)) ∧
      (side = .sell → asset = Assets.positionAsset marketID outcome ∧ amount = quantity) := by
  by_cases hquantity : quantity ≤ 0
  · rw [calculateFreeze.eq_def, if_pos hquantity] at h
    cases h
  rw [calculateFreeze.eq_def, if_neg hquantity] at h
  have hpos : 0 < quantity := not_le.mp hquantity
  have hbound : ∀ price : ℤ, ¬ price > maxInt64 / quantity → price * quantity ≤ maxInt64 :=
    fun price hp ↦ (Int.le_ediv_iff_mul_le hpos).mp (not_lt.mp hp)
  refine ⟨hpos, ?_⟩
  cases side with
  | buy =>
    refine ⟨fun _ ↦ ?_, nofun⟩
    cases type with
    | limit =>
      simp only at h
      split_ifs at h with hprice hover
      cases h
      exact ⟨rfl, by simp, hbound price hover, fun _ ↦ not_le.mp hprice⟩
    | market =>
      simp only at h
      split_ifs at h with hover
      cases h
      exact ⟨rfl, by simp, hbound 100 hover, nofun⟩
  | sell =>
    refine ⟨nofun, fun _ ↦ ?_⟩
    simp only at h
    split_ifs at h
    cases h
    exact ⟨rfl, rfl⟩

/-- What a submission does to the book. -/
structure Submits (book : BalanceBook) (submitted : BalanceBook × Option MatchCommand) : Prop where
  total : ∀ k, submitted.1.total k = book.total k
  ages : book.Ages submitted.1
  rows : ∀ k, (book.balances k).isSome → (submitted.1.balances k).isSome
  command : ∀ c ∈ submitted.2, Sound c ∧ Funded submitted.1 c

/-- The command of a request is sound, whatever the freeze was taken for. -/
theorem SubmitRequest.sound_toCommand {book book' : BalanceBook} {req : SubmitRequest} {asset freezeID : String}
    {amount : ℤ} {record : FreezeRecord} (hid : freezeID ≠ "")
    (hfreeze : calculateFreeze req.side req.type req.marketID req.outcome req.price req.quantity =
      .ok (asset, amount)) (hfrozen : book.Frozen freezeID (req.freezeRequest asset amount) book' record) :
    Sound (req.toCommand record) ∧ Funded book' (req.toCommand record) := by
  obtain ⟨hquantity, hbuy, hsell⟩ := calculateFreeze_spec hfreeze
  have hrecord := hfrozen.record_eq
  have hasset : record.asset = normalizeAsset asset := by rw [hrecord]; rfl
  have hfreezeID : record.freezeID = freezeID := by rw [hrecord]; rfl
  have hnormal : normalizeAsset record.asset = normalizeAsset asset := by
    rw [hasset, normalizeAsset, normalizeAsset, trimSpace_toUpper, trimSpace_trimSpace, toUpper_toUpper]
  refine ⟨⟨hfrozen.pos.1, hquantity, ne_of_eq_of_ne hfreezeID hid, rfl, fun hside ↦ ?_, fun hside ↦ ?_⟩, record,
    ⟨hfrozen.isOpen.lookup, hfrozen.isOpen.row⟩, by rw [hrecord]; rfl, rfl, fun hside ↦ ?_⟩
  · obtain ⟨hcollateral, hamount, hbound, hprice⟩ := hbuy hside
    refine ⟨hnormal.trans (by rw [hcollateral]; decide), ?_⟩
    have hbuys : req.side = .buy := hside
    cases htype : req.type with
    | limit =>
      rw [htype, if_pos rfl] at hamount
      simp only [toCommand, commandPrice, htype]
      exact ⟨hprice htype, hamount ▸ hbound⟩
    | market =>
      -- a market order is frozen at 100 and placed at 99
      rw [htype, if_neg (by decide)] at hamount
      simp only [toCommand, commandPrice, htype, hbuys]
      omega
  · exact fun hcollateral ↦ normalizeAsset_positionAsset req.marketID req.outcome
      (by rw [← (hsell hside).1, ← hnormal]; exact hcollateral)
  · have hamount : record.amount = amount := by rw [hrecord]; rfl
    exact hamount ▸ (hbuy hside).2.2.1

/-- **A submission moves no money, and its command is sound and funded.** -/
theorem submits_submitOrder (book : BalanceBook) {freezeID : String} (hid : freezeID ≠ "") (req : SubmitRequest) :
    Submits book (submitOrder book freezeID req) := by
  unfold submitOrder
  split
  · exact ⟨fun _ ↦ rfl, .of_freezes_eq rfl, fun _ h ↦ h, by simp⟩
  · next asset amount hfreeze =>
    have htotal := book.total_preFreeze freezeID (req.freezeRequest asset amount)
    have hages := book.run_ages (.preFreeze freezeID (req.freezeRequest asset amount))
    have hrows := (book.run_keeps (.preFreeze freezeID (req.freezeRequest asset amount))).rows
    rcases book.preFreeze_cases freezeID (req.freezeRequest asset amount) with
      ⟨e, he, -⟩ | ⟨record, hrecord, hfrozen⟩
    · simp only [he]
      exact ⟨htotal, hages, hrows, by simp⟩
    · simp only [hrecord]
      refine ⟨htotal, hages, hrows, fun c hc ↦ ?_⟩
      obtain rfl := Option.mem_some_iff.mp hc
      exact SubmitRequest.sound_toCommand hid hfreeze hfrozen

end FunnyOption.Orders
