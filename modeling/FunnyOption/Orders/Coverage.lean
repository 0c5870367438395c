import FunnyOption.Matching.Budget
import FunnyOption.Orders.Submission

/-!
# What a freeze covers

`CalculateFreeze` freezes the cost of an order at its own price, or its quantity, before the order reaches the
engine. A market order is frozen at 100 and sent to the engine as a limit order at 99 or 1. The trades of the order
then stay within its quantity and its limit, `Matching.within_orderTrades`, so they take no more than was frozen.

## Main results

* `fills_within_freeze`: the trades of a submitted order take at most what was frozen, and of the asset that was
  frozen, whatever else the book engine is told.
-/

open Foundation

namespace FunnyOption.Orders

open Account Matching

/-- What the trades of an order take from its owner: their cost for a buyer, their quantity for a seller. -/
def consumed (side : OrderSide) (trades : List Trade) : ℤ :=
  (trades.map fun trade ↦
    match side with
    | .buy => trade.price * trade.quantity
    | .sell => trade.quantity).sum

/-- Trades at no more than a price cost no more than their quantity at that price. -/
theorem consumed_buy_le {trades : List Trade} {price : ℤ}
    (h : ∀ trade ∈ trades, 0 < trade.quantity ∧ trade.price ≤ price) :
    consumed .buy trades ≤ price * (trades.map Trade.quantity).sum := by
  rw [consumed, ← List.sum_map_mul_left]
  refine List.sum_le_sum fun trade htrade ↦ ?_
  obtain ⟨hpos, hle⟩ := h trade htrade
  exact Int.mul_le_mul_of_nonneg_right hle hpos.le

/-- What a submitted command has of its request and of the freeze. -/
theorem freeze_of_submitOrder {book : BalanceBook} {freezeID : String} {req : SubmitRequest} {cmd : MatchCommand}
    (h : (submitOrder book freezeID req).2 = some cmd) :
    ∃ asset amount record,
      calculateFreeze req.side req.type req.marketID req.outcome req.price req.quantity = .ok (asset, amount) ∧
      record.amount = amount ∧ cmd = req.toCommand record := by
  unfold submitOrder at h
  split at h
  · cases h
  · next asset amount hfreeze =>
    rcases book.preFreeze_cases freezeID (req.freezeRequest asset amount) with
      ⟨e, he, -⟩ | ⟨record, hrecord, hfrozen⟩
    · simp only [he] at h
      cases h
    · simp only [hrecord] at h
      refine ⟨asset, amount, record, hfreeze, ?_, (Option.some.inj h).symm⟩
      rw [hfrozen.record_eq]
      rfl

/-- A position is named after the book it is traded in. -/
theorem positionAsset_eq (marketID : ℤ) (outcome : String) :
    Assets.positionAsset marketID outcome = "POSITION:" ++ buildBookKey marketID outcome := by
  simp only [Assets.positionAsset, buildBookKey, String.append_assoc]

/-- The trades of an order take at most what was frozen for it, and of the asset that was frozen. -/
structure Covered (asset : String) (amount : ℤ) (cmd : MatchCommand) (trades : List Trade) : Prop where
  amount : consumed cmd.side trades ≤ amount
  asset : ∀ trade ∈ trades, asset =
    match cmd.side with
    | .buy => cmd.collateralAsset
    | .sell => Assets.positionAsset trade.marketID trade.outcome

theorem covered_of_fillsWithin {req : SubmitRequest} {record : FreezeRecord} {asset : String} {amount nowMillis : ℤ}
    {trades : List Trade}
    (hfreeze : calculateFreeze req.side req.type req.marketID req.outcome req.price req.quantity =
      .ok (asset, amount)) (hfills : FillsWithin ((req.toCommand record).toOrder nowMillis) trades) :
    Covered asset amount (req.toCommand record) trades := by
  obtain ⟨hquantity, hbuy, hsell⟩ := calculateFreeze_spec hfreeze
  have hside : (req.toCommand record).side = req.side := rfl
  cases hreq : req.side with
  | buy =>
    obtain ⟨hasset, hamount, -, hprice⟩ := hbuy hreq
    -- every trade is at the price of the command or below
    have hlimit : ∀ trade ∈ trades, 0 < trade.quantity ∧ trade.price ≤ req.commandPrice := by
      intro trade htrade
      obtain ⟨hpos, hcrosses, -⟩ := hfills.limits trade htrade
      have hle : (req.toCommand record).price ≥ trade.price := by
        simpa only [Order.crosses, MatchCommand.toOrder, hside, hreq, decide_eq_true_iff] using hcrosses
      exact ⟨hpos, hle⟩
    have hcommand : 0 ≤ req.commandPrice ∧ req.commandPrice * req.quantity ≤ amount := by
      cases htype : req.type with
      | limit =>
        rw [htype, if_pos rfl] at hamount
        simp only [SubmitRequest.commandPrice, htype]
        exact ⟨(hprice htype).le, hamount.ge⟩
      | market =>
        rw [htype, if_neg (by decide)] at hamount
        simp only [SubmitRequest.commandPrice, htype, hreq]
        omega
    refine ⟨?_, fun trade htrade ↦ ?_⟩
    · rw [hside, hreq]
      calc consumed .buy trades
          ≤ req.commandPrice * (trades.map Trade.quantity).sum := consumed_buy_le hlimit
        _ ≤ req.commandPrice * req.quantity := Int.mul_le_mul_of_nonneg_left hfills.quantity hcommand.1
        _ ≤ amount := hcommand.2
    · rw [hside, hreq]
      exact hasset
  | sell =>
    obtain ⟨hasset, hamount⟩ := hsell hreq
    refine ⟨?_, fun trade htrade ↦ ?_⟩
    · rw [hside, hreq, hamount]
      exact hfills.quantity
    · rw [hside, hreq, hasset, positionAsset_eq, positionAsset_eq, (hfills.limits trade htrade).2.2]
      rfl

/-- **The freeze covers every fill.** A command that `SubmitOrder` has published is handled in a run of any other
commands and restarts. The trades of the order take at most what `CalculateFreeze` froze for it, and of the asset
that it froze. If no other order is placed under its id, these are all the trades that name it. -/
theorem fills_within_freeze (clock : ℕ → ℤ) (sequence : ℕ) (book : BalanceBook) (freezeID : String)
    (req : SubmitRequest) (cmd : MatchCommand) (hsubmit : (submitOrder book freezeID req).2 = some cmd)
    (before after : List BookEvent) (nowMillis : ℤ) (epochID : ℕ) (h h₁ h₂ : BookHistory)
    (hbefore : exec (BookHistory.step clock) (.start sequence) before = some h)
    (hplace : h.step clock (.command cmd nowMillis epochID) = some h₁)
    (hafter : exec (BookHistory.step clock) h₁ after = some h₂) :
    ∃ asset amount,
      calculateFreeze req.side req.type req.marketID req.outcome req.price req.quantity = .ok (asset, amount) ∧
      cmd.freezeAmount = amount ∧
      Covered asset amount cmd (orderTrades clock cmd nowMillis epochID h after) ∧
      ((∀ e ∈ before ++ after, BookEvent.Spares cmd.orderID e) →
        orderTrades clock cmd nowMillis epochID h after = h₂.emitted.filter (·.Names cmd.orderID)) := by
  obtain ⟨asset, amount, record, hfreeze, hamount, rfl⟩ := freeze_of_submitOrder hsubmit
  have hquantity := (calculateFreeze_spec hfreeze).1
  refine ⟨asset, amount, hfreeze, hamount, ?_, fun honce ↦ orderTrades_eq_filter rfl honce hbefore hplace hafter⟩
  have hfills : FillsWithin ((req.toCommand record).toOrder nowMillis)
      (orderTrades clock (req.toCommand record) nowMillis epochID h after) :=
    within_orderTrades clock (filed_of_exec hbefore) rfl hquantity nowMillis epochID after
  exact covered_of_fillsWithin hfreeze hfills

/-- A request for ten shares. -/
def sampleRequest (userID : ℤ) (side : OrderSide) (type : Matching.OrderType) (price : ℤ) (orderID : String) :
    SubmitRequest :=
  ⟨userID, 7, "YES", side, type, .gtc, .none, price, 10, orderID, "", "cmd", "", 0⟩

/-- A user with enough collateral for a market order. -/
def sampleBook : BalanceBook := BalanceBook.empty.setRow (1, "USDT") ⟨1, "USDT", 1000, 0⟩

/-- The command of a seller, at a price. -/
def sampleSell (orderID : String) (price : ℤ) : BookEvent :=
  .command ((sampleRequest 2 .sell .limit price orderID).toCommand
    ⟨"frz", 2, "POSITION:7:YES", "ORDER", orderID, 10, 10, false, false⟩) 0 0

/-- The command of a market buy that is frozen in the sample book. -/
def sampleBuy : MatchCommand :=
  (sampleRequest 1 .buy .market 0 "o1").toCommand ⟨"frz_1", 1, "USDT", "ORDER", "o1", 1000, 1000, false, false⟩

theorem fills_within_freeze_sampleBuy :
    (submitOrder sampleBook "frz_1" (sampleRequest 1 .buy .market 0 "o1")).2 = some sampleBuy ∧
    ∃ h h₁ h₂, exec (BookHistory.step fun _ ↦ 0) (.start 0) [sampleSell "o2" 60] = some h ∧
      h.step (fun _ ↦ 0) (.command sampleBuy 0 0) = some h₁ ∧
      exec (BookHistory.step fun _ ↦ 0) h₁ [sampleSell "o3" 50] = some h₂ ∧
      consumed .buy (orderTrades (fun _ ↦ 0) sampleBuy 0 0 h [sampleSell "o3" 50]) = 600 ∧
      ∃ asset amount, sampleBuy.freezeAmount = amount ∧
        Covered asset amount sampleBuy (orderTrades (fun _ ↦ 0) sampleBuy 0 0 h [sampleSell "o3" 50]) := by
  have hsubmit : (submitOrder sampleBook "frz_1" (sampleRequest 1 .buy .market 0 "o1")).2 = some sampleBuy := by
    decide
  obtain ⟨asset, amount, -, hamount, hcovered, -⟩ := fills_within_freeze (fun _ ↦ 0) 0 sampleBook "frz_1"
    (sampleRequest 1 .buy .market 0 "o1") sampleBuy hsubmit [sampleSell "o2" 60] [sampleSell "o3" 50] 0 0 _ _ _
    rfl rfl rfl
  exact ⟨hsubmit, _, _, _, rfl, rfl, rfl, by decide, asset, amount, hamount, hcovered⟩

end FunnyOption.Orders
