import FunnyOption.Account.Trades

/-!
# Fees

A trade can carry a fee for each of its two sides. The receiver's fee is kept back from the credit of the
receiver, and both fees are credited to the platform. Nothing takes the payer's fee from the payer.

It does not come to that. The account of the platform is user `0`, and `CreditAvailableWithRef` refuses
every user that is not positive. So a trade with a positive fee ends in an error after it has drawn on
both freezes and made the other two credits, and the promise about fees is kept exactly by the trades that
have none: `fees_conserved_iff`.
-/

open Foundation

namespace FunnyOption.Account

open BalanceBook Processor

/-- The balance of a user in the collateral of a trade. -/
def TradeMatchedEvent.collateralKey (event : TradeMatchedEvent) (u : ℤ) : BalanceKey :=
  balanceKey u (Account.collateralAsset event.collateralAsset)

/-- The trade succeeds, every user and the platform have what the notional and the fees give them, and
nothing is made or lost. -/
structure FeesConserved (book : BalanceBook) (event : TradeMatchedEvent) (h : Handled) : Prop where
  ok : h.2 = .ok ()
  user : ∀ u, h.1.book.total (event.collateralKey u) = book.total (event.collateralKey u) -
    (if u = event.positionSides.2 then event.price * event.quantity + event.tradeFees.2 else 0) +
    (if u = event.settlementSides.2 then event.price * event.quantity - event.tradeFees.1 else 0) +
    (if u = TradeMatchedEvent.platformFeeUserID then event.takerFee + event.makerFee else 0)
  all : ∀ users : Finset ℤ, event.positionSides.2 ∈ users → event.settlementSides.2 ∈ users →
    TradeMatchedEvent.platformFeeUserID ∈ users → ∑ u ∈ users, h.1.book.total (event.collateralKey u) =
        ∑ u ∈ users, book.total (event.collateralKey u)

theorem Handled.ok_of_andThen {h : Handled} {next : Processor → Handled} (hok : (h.andThen next).2 = .ok ()) :
    ∃ p, (next p).2 = .ok () := by
  rcases h with ⟨p, e | ⟨⟩⟩
  · exact nomatch hok
  · exact ⟨p, hok⟩

variable {event : TradeMatchedEvent}

/-- Whatever is credited to the platform fails. -/
theorem Processor.not_ok_of_fee (p : Processor) (hfee : event.tradeFees.1 + event.tradeFees.2 > 0) :
    (p.creditIf (event.tradeFees.1 + event.tradeFees.2 > 0) event.feeCredit).2 ≠ .ok () := by
  have hrefused : p.book.creditAvailableWithRef event.feeCredit = (p.book, .error .invalidAmount) := by
    rw [creditAvailableWithRef, withRef, if_pos (.inl le_rfl)]
  rw [creditIf, if_pos hfee, hrefused]
  intro h
  cases h

/-- A trade that succeeds has no fee. -/
theorem Processor.fee_of_ok {p : Processor} {payer seller : Option OrderState}
    (hok : (p.handleTradeMatched (some false) payer seller event).2 = .ok ()) :
    event.tradeFees.1 + event.tradeFees.2 ≤ 0 := by
  rw [handleTradeMatched] at hok
  split at hok
  · cases hok
  next notional hnotional =>
  by_contra hfee
  obtain ⟨p₁, hok⟩ := Handled.ok_of_andThen hok
  obtain ⟨p₂, hok⟩ := Handled.ok_of_andThen hok
  obtain ⟨p₃, hok⟩ := Handled.ok_of_andThen hok
  obtain ⟨p₄, hok⟩ := Handled.ok_of_andThen hok
  exact p₄.not_ok_of_fee (not_le.mp hfee) hok

/-- The two fees are those of the taker and of the maker. -/
theorem TradeMatchedEvent.tradeFees_eq
    (hside : toUpper (trimSpace event.takerSide) = "BUY" ∨ toUpper (trimSpace event.takerSide) = "SELL") :
    event.tradeFees = (event.makerFee, event.takerFee) ∨
      event.tradeFees = (event.takerFee, event.makerFee) := by
  rw [tradeFees, bySide]
  rcases hside with hside | hside
  · exact .inl (if_pos hside)
  · rw [hside, if_neg (by decide), if_pos rfl]
    exact .inr rfl

/-- **Fees.** A trade between two open freezes, with fees that are not negative and not larger than the
notional, conserves the collateral if and only if it has no fees. -/
theorem fees_conserved_iff {p : Processor} {payer seller : Option OrderState} {event : TradeMatchedEvent}
    (h : Settles p payer seller event)
    (hside : toUpper (trimSpace event.takerSide) = "BUY" ∨ toUpper (trimSpace event.takerSide) = "SELL")
    (hbuyer : h.buy.key = event.collateralKey event.positionSides.2)
    (hseller : ∀ u, event.collateralKey u ≠ h.sell.key)
    (hposition : ∀ u, event.collateralKey u ≠ balanceKey event.positionSides.2
      (Assets.positionAsset event.marketID event.outcome))
    (htaker : 0 ≤ event.takerFee ∧ event.takerFee ≤ event.price * event.quantity)
    (hmaker : 0 ≤ event.makerFee ∧ event.makerFee ≤ event.price * event.quantity) :
    FeesConserved p.book event (p.handleTradeMatched (some false) payer seller event) ↔
      event.takerFee = 0 ∧ event.makerFee = 0 := by
  constructor
  · intro hconserved
    have hfee := fee_of_ok hconserved.ok
    rcases TradeMatchedEvent.tradeFees_eq hside with hfees | hfees
    · rw [hfees] at hfee
      exact ⟨by omega, by omega⟩
    · rw [hfees] at hfee
      exact ⟨by omega, by omega⟩
  · rintro ⟨htaker, hmaker⟩
    have hfees : event.tradeFees = (0, 0) := by
      rcases TradeMatchedEvent.tradeFees_eq hside with hfees | hfees <;> rw [hfees, htaker, hmaker]
    obtain ⟨hok, hsettled⟩ := handleTradeMatched_spec h (congrArg Prod.fst hfees)
    replace hok := hok (by rw [hfees]; rfl)
    generalize p.handleTradeMatched (some false) payer seller event = result at hok hsettled
    have huser : ∀ u, result.1.book.total (event.collateralKey u) = p.book.total (event.collateralKey u) -
          (if u = event.positionSides.2 then event.price * event.quantity else 0) +
          (if u = event.settlementSides.2 then event.price * event.quantity else 0) := by
      intro u
      have hkey : ∀ v, event.collateralKey u = event.collateralKey v ↔ u = v := by
        intro v
        simp [TradeMatchedEvent.collateralKey, balanceKey]
      have hreceiver : (event.collateralKey u = balanceKey event.settlementSides.2
          (collateralAsset event.collateralAsset)) ↔ u = event.settlementSides.2 := hkey _
      rw [hsettled, hbuyer]
      simp only [if_neg (hseller u), if_neg (hposition u), hkey, hreceiver, sub_zero, add_zero]
    refine ⟨hok, fun u ↦ ?_, fun users hpayer hreceiver _ ↦ ?_⟩
    · rw [huser, hfees, htaker, hmaker]
      simp only [add_zero, sub_zero, ite_self]
    · simp only [huser, Finset.sum_add_distrib, Finset.sum_sub_distrib, Finset.sum_ite_eq', hpayer,
        hreceiver, if_true, sub_add_cancel]

section Samples

/-- A buy order of user `1` and a sell order of user `2`, each with its freeze. -/
def sampleProcessor : Processor where
  book := ((((BalanceBook.empty.setRow (1, "USDT") ⟨1, "USDT", 0, 600⟩).setRow
      (2, "POSITION:1:YES") ⟨2, "POSITION:1:YES", 0, 10⟩).setFreeze "frz_b"
        ⟨"frz_b", 1, "USDT", "ORDER", "b", 600, 600, false, false⟩).setFreeze "frz_s"
        ⟨"frz_s", 2, "POSITION:1:YES", "ORDER", "s", 10, 10, false, false⟩)
  registry := Function.update (Function.update (fun _ ↦ none)
    "b" (some ⟨"b", 1, "BUY", 60, "frz_b", "USDT", true, "FILLED", 0⟩))
    "s" (some ⟨"s", 2, "SELL", 50, "frz_s", "POSITION:1:YES", true, "FILLED", 0⟩)

/-- A trade between the two orders, with a fee of one for each side if it is charged. -/
def sampleTrade (charged : Bool) : TradeMatchedEvent :=
  ⟨"evt", "trd", 1, 1, "", "USDT", 1, "YES", "1:YES", 50, 10, "b", "s", 1, 2, "BUY", "SELL", 0, 0,
    if charged then 1 else 0, if charged then 1 else 0, 0⟩

/-- The trade finds both freezes. -/
def sampleSettles (charged : Bool) : Settles sampleProcessor none none (sampleTrade charged) where
  buy :=
    { state := ⟨"b", 1, "BUY", 60, "frz_b", "USDT", true, "FILLED", 0⟩
      record := ⟨"frz_b", 1, "USDT", "ORDER", "b", 600, 600, false, false⟩
      expected := 0
      orderID_ne := by cases charged <;> decide
      found := by cases charged <;> decide
      freezeID_ne := by decide
      isOpen := by decide
      pos := by cases charged <;> decide
      covered := by cases charged <;> decide
      reserve := rfl
      nonneg := le_rfl }
  sell :=
    { state := ⟨"s", 2, "SELL", 50, "frz_s", "POSITION:1:YES", true, "FILLED", 0⟩
      record := ⟨"frz_s", 2, "POSITION:1:YES", "ORDER", "s", 10, 10, false, false⟩
      expected := 0
      orderID_ne := by cases charged <;> decide
      found := by cases charged <;> decide
      freezeID_ne := by decide
      isOpen := by decide
      pos := by cases charged <;> decide
      covered := by cases charged <;> decide
      reserve := rfl
      nonneg := le_rfl }
  price := by cases charged <;> decide
  bound := by cases charged <;> decide
  orders := by cases charged <;> decide
  freezes := (by decide : "frz_s" ≠ "frz_b")
  users := by cases charged <;> decide
  key := by cases charged <;> decide
  collateralRef := List.not_mem_nil
  positionRef := List.not_mem_nil

private theorem collateralKey_sampleTrade (charged : Bool) (u : ℤ) :
    (sampleTrade charged).collateralKey u = (u, "USDT") := by
  have hasset : normalizeAsset (collateralAsset "USDT") = "USDT" := by decide
  exact congrArg (Prod.mk u) hasset

theorem fees_conserved_without : FeesConserved sampleProcessor.book (sampleTrade false)
    (sampleProcessor.handleTradeMatched (some false) none none (sampleTrade false)) := by
  have hne : ∀ (u : ℤ) (k : BalanceKey), k.2 = "POSITION:1:YES" →
      (sampleTrade false).collateralKey u ≠ k := by
    intro u k hk heq
    rw [collateralKey_sampleTrade] at heq
    have hasset : "USDT" = "POSITION:1:YES" := (congrArg Prod.snd heq).trans hk
    exact absurd hasset (by decide)
  exact (fees_conserved_iff (sampleSettles false) (.inl (by decide)) (by decide)
    (fun u ↦ hne u _ (by decide)) (fun u ↦ hne u _ (by decide)) (by decide)
    (by decide)).mpr ⟨rfl, rfl⟩

/-- With fees the same trade ends in an error. The receiver has been paid less than the payer has paid,
and the platform has nothing. -/
theorem fees_refused : Nonempty (Settles sampleProcessor none none (sampleTrade true)) ∧
    (sampleTrade true).takerFee = 1 ∧ (sampleTrade true).makerFee = 1 ∧
    (sampleProcessor.handleTradeMatched (some false) none none (sampleTrade true)).2 = .error (.book .invalidAmount) ∧
    ∑ u ∈ {0, 1, 2}, sampleProcessor.book.total (u, "USDT") = 600 ∧
    ∑ u ∈ {0, 1, 2}, (sampleProcessor.handleTradeMatched (some false) none none
      (sampleTrade true)).1.book.total (u, "USDT") = 599 := by
  refine ⟨⟨sampleSettles true⟩, rfl, rfl, by decide +kernel, by decide +kernel, by decide +kernel⟩

end Samples

end FunnyOption.Account
