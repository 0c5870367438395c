import FunnyOption.Settlement.Payments

/-!
# Redelivered resolutions

A resolution is a sequence of transactions and publishes, and it may stop between any two of them. The message
is delivered again until the handler returns without an error, and each delivery finds what the last one left.

The payments can be taken up again at any point. The cancellations cannot: only the delivery that finds the
market unresolved cancels orders and publishes them, and the market is resolved in a transaction of its own,
before any order is cancelled. A delivery that stops later than that transaction and earlier than the last
cancelled order leaves orders active, or cancelled orders that no other service hears of.

## Main results

* `redelivery_same_iff`: redelivery ends as a run without failure does, exactly if no delivery stops there.
* `cancellation_lost`: one that does.
-/

open Foundation

namespace FunnyOption.Settlement

variable {marketID : ℤ} {outcome : String} {event : MarketEvent} {w w' : World} {n : ℕ}

/-! ## What redelivery should preserve -/

/-- The same orders, positions and payouts, and the same messages up to repetition. -/
structure World.Same (w w' : World) : Prop where
  orders : ∀ id, w'.store.orders.get id = w.store.orders.get id
  positions : ∀ key, w'.store.positions.get key = w.store.positions.get key
  payouts : ∀ id, w'.store.payouts.get id = w.store.payouts.get id
  published : ∀ message, message ∈ w'.published ↔ message ∈ w.published

theorem World.Same.refl (w : World) : w.Same w := ⟨fun _ ↦ rfl, fun _ ↦ rfl, fun _ ↦ rfl, fun _ ↦ Iff.rfl⟩

theorem World.Same.trans {w'' : World} (h : w.Same w') (h' : w'.Same w'') : w.Same w'' where
  orders id := (h'.orders id).trans (h.orders id)
  positions key := (h'.positions key).trans (h.positions key)
  payouts id := (h'.payouts id).trans (h.payouts id)
  published message := (h'.published message).trans (h.published message)

theorem World.Same.symm (h : w.Same w') : w'.Same w where
  orders id := (h.orders id).symm
  positions key := (h.positions key).symm
  payouts id := (h.payouts id).symm
  published message := (h.published message).symm

theorem World.SameElsewhere.symm (h : w.SameElsewhere marketID outcome w') :
    w'.SameElsewhere marketID outcome w where
  frozen := h.frozen.symm
  markets := h.markets.symm
  orders := h.orders.symm
  positions key hkey := (h.positions key hkey).symm
  payouts id hid := (h.payouts id hid).symm
  published message hmessage := (h.published message hmessage).symm

/-- Worlds with the same holdings that are the same elsewhere. -/
theorem World.SameElsewhere.same (h : w.SameElsewhere marketID outcome w')
    (hholding : ∀ userID, w'.holding marketID outcome userID = w.holding marketID outcome userID) : w.Same w' where
  orders id := by rw [h.orders]
  positions key := by
    by_cases hkey : ∃ userID, key = (marketID, userID, outcome)
    · obtain ⟨userID, rfl⟩ := hkey
      exact congrArg Holding.row (hholding userID)
    · exact h.positions key (not_exists.mp hkey)
  payouts id := by
    by_cases hid : ∃ userID, id = settlementEventID marketID userID outcome
    · obtain ⟨userID, rfl⟩ := hid
      exact congrArg Holding.payout (hholding userID)
    · exact h.payouts id (not_exists.mp hid)
  published message := by
    by_cases hmessage : ∃ event userID, message = .settlement event ∧
        event.eventID = settlementEventID marketID userID outcome
    · obtain ⟨event, userID, rfl, hid⟩ := hmessage
      have hevents := Set.ext_iff.mp (congrArg Holding.events (hholding userID)) event
      exact ⟨fun hmem ↦ (hevents.mp ⟨hmem, hid⟩).1, fun hmem ↦ (hevents.mpr ⟨hmem, hid⟩).1⟩
    · exact h.published message fun event userID heq hid ↦ hmessage ⟨event, userID, heq, hid⟩

/-! ## Payments can be taken up again -/

theorem settleWinningPositions_resume (hout : Normalized outcome) (h : w.Payable marketID outcome) (n : ℕ) :
    ((settleWinningPositions marketID outcome).after n w).Payable marketID outcome ∧
      ((settleWinningPositions marketID outcome).run w).1.Same
        ((settleWinningPositions marketID outcome).run
          ((settleWinningPositions marketID outcome).after n w)).1 := by
  obtain ⟨hafter, hpart⟩ := settleWinningPositions_after marketID w hout n
  have hpayable : ((settleWinningPositions marketID outcome).after n w).Payable marketID outcome :=
    fun userID row hrow hlt ↦ h userID row ((hpart userID).row_eq hrow hlt) hlt
  obtain ⟨hrun, hpaid⟩ := settleWinningPositions_run hout h
  obtain ⟨hrun', hpaid'⟩ := settleWinningPositions_run hout hpayable
  refine ⟨hpayable, ((hrun.symm.trans hafter).trans hrun').same fun userID ↦ ?_⟩
  rw [hpaid', hpaid, Holding.pay_of_partial (hpart userID)]

/-! ## The deliveries of a resolution -/

/-- A delivery that the handler acknowledges without an effect. -/
def Skips (event : MarketEvent) (w : World) : Prop :=
  w.store.frozen = true ∨ toUpper (trimSpace event.status) ≠ "RESOLVED" ∨ event.outcome = ""

/-- The market of a resolution is not resolved yet. -/
def Unresolved (event : MarketEvent) (w : World) : Prop :=
  ∀ market, w.store.markets.get event.marketID = some market → market.status ≠ "RESOLVED"

/-- The market of a resolution is resolved with its outcome. -/
def Agrees (event : MarketEvent) (w : World) : Prop :=
  ∃ market, w.store.markets.get event.marketID = some market ∧ market.status = "RESOLVED" ∧
    toUpper (trimSpace market.resolvedOutcome) = event.outcome

theorem MarketEvent.normalized_outcome (event : MarketEvent) : Normalized event.outcome := normalized_toUpper _

/-- What the handler does after its first call. -/
def afterFrozen (event : MarketEvent) (w : World) : Program World :=
  if w.store.frozen then .done true
  else if toUpper (trimSpace event.status) ≠ "RESOLVED" then .done true
  else if event.outcome = "" then .done true
  else resolve event event.outcome

theorem handleMarketEvent_eq (event : MarketEvent) : handleMarketEvent event = .call id (afterFrozen event) := rfl

theorem afterFrozen_of_skips (h : Skips event w) : afterFrozen event w = .done true := by
  rw [afterFrozen]
  rcases h with hfrozen | hstatus | hempty
  · rw [if_pos hfrozen]
  · rw [if_pos hstatus, ite_self]
  · rw [if_pos hempty, ite_self, ite_self]

theorem afterFrozen_of_not_skips (h : ¬ Skips event w) : afterFrozen event w = resolve event event.outcome := by
  rw [Skips, not_or, not_or] at h
  rw [afterFrozen, if_neg h.1, if_neg h.2.1, if_neg h.2.2]

theorem after_succ (h : ¬ Skips event w) (n : ℕ) :
    (handleMarketEvent event).after (n + 1) w = (resolve event event.outcome).after n w := by
  rw [handleMarketEvent_eq, Program.after, id, afterFrozen_of_not_skips h]

/-- The market has a row. -/
def ensured (event : MarketEvent) (w : World) : World := w.onStore (·.ensureMarket event.marketID)

/-- The market is resolved. -/
def resolved (event : MarketEvent) (w : World) : World :=
  (ensured event w).onStore fun store ↦ (store.resolveMarket event.marketID event.outcome).1

/-- The orders of the market are cancelled, and the first of them are published. -/
def announced (event : MarketEvent) (w : World) (n : ℕ) : World where
  store := (resolved event w).store.cancelActiveOrders event.marketID marketResolved
  published := w.published ++ ((w.store.cancelledOrders event.marketID marketResolved).take n).map
    fun order ↦ .order (cancelledOrderEvent event.traceID order)

theorem publishOrders_run (traceID : String) (next : Program World) (orders : List (String × OrderRow)) (w : World) :
    (publishOrders traceID next orders).run w =
      next.run ⟨w.store, w.published ++ orders.map fun order ↦
        .order (cancelledOrderEvent traceID order)⟩ := by
  induction orders generalizing w with
  | nil => simp [publishOrders]
  | cons order orders ih =>
    rw [publishOrders, Program.run, ih]
    simp [World.publish]

theorem publishOrders_after (traceID : String) (next : Program World) (orders : List (String × OrderRow)) (w : World)
    (n : ℕ) :
    (publishOrders traceID next orders).after n w =
      next.after (n - orders.length) ⟨w.store, w.published ++ (orders.take n).map fun order ↦
        .order (cancelledOrderEvent traceID order)⟩ := by
  induction orders generalizing w n with
  | nil => simp [publishOrders]
  | cons order orders ih =>
    cases n with
    | zero => simp
    | succ n =>
      rw [publishOrders, Program.after, ih]
      simp [World.publish]

/-! ## A market that is resolved already -/

theorem ensureMarket_of_some {store : Store} {market : Market} (h : store.markets.get marketID = some market) :
    store.ensureMarket marketID = store := by
  rw [Store.ensureMarket, h]
  rfl

theorem ensured_of_agrees (h : Agrees event w) : ensured event w = w := by
  obtain ⟨market, hmarket, -⟩ := h
  rw [ensured, World.onStore, ensureMarket_of_some hmarket]

theorem resolveMarket_of_agrees (h : Agrees event w) :
    w.store.resolveMarket event.marketID event.outcome = (w.store, some false) := by
  obtain ⟨market, hmarket, hstatus, houtcome⟩ := h
  have hsame : toUpper (trimSpace market.resolvedOutcome) = toUpper (trimSpace event.outcome) :=
    houtcome.trans (event.normalized_outcome).symm
  rw [Store.resolveMarket, hmarket]
  dsimp only
  rw [if_pos hstatus, if_pos hsame]

/-- Only the payments are left. -/
theorem run_of_agrees (hskips : ¬ Skips event w) (h : Agrees event w) :
    (handleMarketEvent event).run w = (settleWinningPositions event.marketID event.outcome).run w := by
  have hensured : w.onStore (·.ensureMarket event.marketID) = w := ensured_of_agrees h
  rw [handleMarketEvent_eq, Program.run, id, afterFrozen_of_not_skips hskips, resolve, Program.run,
    hensured, Program.run, World.onStore, resolveMarket_of_agrees h]

theorem after_of_agrees (hskips : ¬ Skips event w) (h : Agrees event w) (n : ℕ) :
    (handleMarketEvent event).after n w =
      (settleWinningPositions event.marketID event.outcome).after (n - 3) w := by
  have hensured : w.onStore (·.ensureMarket event.marketID) = w := ensured_of_agrees h
  match n with
  | 0 => rw [Program.after_zero, Program.after_zero]
  | 1 => rw [handleMarketEvent_eq, Program.after, Program.after_zero, Program.after_zero, id]
  | 2 => rw [after_succ hskips, resolve, Program.after, hensured, Program.after_zero, Program.after_zero]
  | n + 3 =>
    rw [after_succ hskips, resolve, Program.after, hensured, Program.after, World.onStore, resolveMarket_of_agrees h]
    rfl

/-! ## A market that is not resolved -/

theorem get_ensureMarket (store : Store) (marketID : ℤ) : (store.ensureMarket marketID).markets.get marketID =
      some ((store.markets.get marketID).getD ⟨"OPEN", ""⟩) := by
  cases hmarket : store.markets.get marketID with
  | some market => rw [ensureMarket_of_some hmarket, hmarket]; rfl
  | none =>
    rw [Store.ensureMarket, hmarket, if_neg (by simp)]
    dsimp only
    rw [Table.get_insert, if_pos rfl]
    rfl

theorem Unresolved.ensured (h : Unresolved event w) : Unresolved event (ensured event w) := by
  intro market hmarket
  have hget := get_ensureMarket w.store event.marketID
  rw [show (Settlement.ensured event w).store.markets.get event.marketID = _ from hget] at hmarket
  obtain rfl := Option.some.inj hmarket
  cases hsome : w.store.markets.get event.marketID with
  | none => decide
  | some market => exact h market hsome

/-- The transaction that resolves a market. -/
theorem resolveMarket_of_unresolved (h : Unresolved event w) :
    ∃ resolutions, (ensured event w).store.resolveMarket event.marketID event.outcome =
      ({ (ensured event w).store with
          markets := (ensured event w).store.markets.insert event.marketID ⟨"RESOLVED", event.outcome⟩
          resolutions := resolutions }, some true) := by
  have hget := get_ensureMarket w.store event.marketID
  have hstatus := h.ensured _ hget
  rw [Store.resolveMarket, show (ensured event w).store.markets.get event.marketID = _ from hget]
  dsimp only
  rw [if_neg hstatus]
  exact ⟨_, rfl⟩

theorem store_ensured : (ensured event w).store = { w.store with markets := (ensured event w).store.markets } := by
  rw [ensured, World.onStore, Store.ensureMarket]
  split_ifs <;> rfl

theorem orders_ensured : (ensured event w).store.orders = w.store.orders := by rw [store_ensured]

theorem ensured_ensured : ensured event (ensured event w) = ensured event w := by
  have hget := get_ensureMarket w.store event.marketID
  rw [ensured, World.onStore, ensureMarket_of_some (show (ensured event w).store.markets.get _ = _ from hget)]

/-- What the transaction that resolves the market leaves alone. -/
theorem resolved_of_unresolved (h : Unresolved event w) :
    (resolved event w).store.frozen = w.store.frozen ∧ (resolved event w).store.orders = w.store.orders ∧
      (resolved event w).published = w.published ∧
      (resolved event w).store.markets.get event.marketID = some ⟨"RESOLVED", event.outcome⟩ := by
  obtain ⟨resolutions, hresolve⟩ := resolveMarket_of_unresolved h
  rw [resolved, World.onStore, hresolve]
  refine ⟨by rw [store_ensured], orders_ensured, rfl, ?_⟩
  dsimp only
  rw [Table.get_insert, if_pos rfl]

/-- The cancelled orders of a delivery that finds the market unresolved. -/
def cancelled (event : MarketEvent) (w : World) : List (String × OrderRow) :=
  w.store.cancelledOrders event.marketID marketResolved

theorem cancelled_resolved (h : Unresolved event w) :
    (resolved event w).store.cancelledOrders event.marketID marketResolved = cancelled event w := by
  rw [cancelled, Store.cancelledOrders, Store.cancelledOrders, (resolved_of_unresolved h).2.1]

theorem run_of_unresolved (hskips : ¬ Skips event w) (h : Unresolved event w) :
    (handleMarketEvent event).run w = (settleWinningPositions event.marketID event.outcome).run
      (announced event w (cancelled event w).length) := by
  obtain ⟨resolutions, hresolve⟩ := resolveMarket_of_unresolved h
  have hcancelled := cancelled_resolved h
  rw [handleMarketEvent_eq, Program.run, id, afterFrozen_of_not_skips hskips, resolve, Program.run, Program.run]
  rw [← ensured, ← resolved, hresolve]
  dsimp only
  rw [Program.run, hcancelled, publishOrders_run]
  have hall : announced event w (cancelled event w).length =
      ⟨(resolved event w).store.cancelActiveOrders event.marketID marketResolved,
        (resolved event w).published ++ (cancelled event w).map fun order ↦
          .order (cancelledOrderEvent event.traceID order)⟩ := by
    rw [announced, (resolved_of_unresolved h).2.2.1, ← cancelled, List.take_length]
  rw [hall]
  rfl

/-- How far a first delivery gets with a number of effects. -/
def interrupted (event : MarketEvent) (w : World) : ℕ → World
  | 0 | 1 => w
  | 2 => ensured event w
  | 3 => resolved event w
  | n + 4 => (settleWinningPositions event.marketID event.outcome).after
      (n - (cancelled event w).length) (announced event w n)

theorem after_of_unresolved (hskips : ¬ Skips event w) (h : Unresolved event w) (n : ℕ) :
    (handleMarketEvent event).after n w = interrupted event w n := by
  obtain ⟨resolutions, hresolve⟩ := resolveMarket_of_unresolved h
  have hcancelled := cancelled_resolved h
  rcases n with _ | _ | _ | _ | n
  · rw [Program.after_zero, interrupted]
  · rw [handleMarketEvent_eq, Program.after, Program.after_zero, id, interrupted]
  · rw [after_succ hskips, resolve, Program.after, Program.after_zero]
    rfl
  · rw [after_succ hskips, resolve, Program.after, Program.after, Program.after_zero]
    rfl
  · rw [after_succ hskips, resolve, Program.after, Program.after, ← ensured, ← resolved, hresolve]
    dsimp only
    rw [Program.after, hcancelled, publishOrders_after]
    rw [interrupted, announced, ← cancelled, ← (resolved_of_unresolved h).2.2.1]
    rfl

/-! ## Deliveries that can be repeated -/

theorem payable_of_positions (hpositions : w'.store.positions = w.store.positions) (h : w.Payable marketID outcome) :
    w'.Payable marketID outcome := by
  intro userID row hrow
  refine h userID row ?_
  rw [← hrow, World.holding, World.holding, hpositions]

theorem positions_resolved (h : Unresolved event w) : (resolved event w).store.positions = w.store.positions := by
  obtain ⟨resolutions, hresolve⟩ := resolveMarket_of_unresolved h
  rw [resolved, World.onStore, hresolve, store_ensured]

/-- A market that is resolved stays as it is. -/
theorem Agrees.of_same (h : Agrees event w) (hsame : w.SameElsewhere marketID outcome w') : Agrees event w' := by
  rw [Agrees, hsame.markets]
  exact h

theorem not_skips_of_frozen (h : ¬ Skips event w) (hfrozen : w'.store.frozen = w.store.frozen) :
    ¬ Skips event w' := by
  rw [Skips, hfrozen]
  exact h

/-- A delivery that finds only the payments to be made. -/
structure Paying (event : MarketEvent) (w : World) : Prop where
  skips : ¬ Skips event w
  agrees : Agrees event w
  payable : w.Payable event.marketID event.outcome

theorem paying_resolved (hskips : ¬ Skips event w) (h : Unresolved event w)
    (hpayable : w.Payable event.marketID event.outcome) : Paying event (resolved event w) where
  skips := not_skips_of_frozen hskips (resolved_of_unresolved h).1
  agrees := ⟨_, (resolved_of_unresolved h).2.2.2, rfl, event.normalized_outcome⟩
  payable := payable_of_positions (positions_resolved h) hpayable

/-- Cancelling the orders changes neither the market nor the positions. -/
theorem Paying.announced (h : Paying event (resolved event w)) (n : ℕ) : Paying event (announced event w n) :=
  ⟨h.skips, h.agrees, h.payable⟩

theorem run_ensured (hskips : ¬ Skips event w) (h : Unresolved event w) :
    (handleMarketEvent event).run (ensured event w) = (handleMarketEvent event).run w := by
  have hcancelled : cancelled event (ensured event w) = cancelled event w := by
    rw [cancelled, cancelled, Store.cancelledOrders, Store.cancelledOrders, orders_ensured]
  have hresolved : resolved event (ensured event w) = resolved event w := by
    rw [resolved, ensured_ensured, resolved]
  rw [run_of_unresolved (not_skips_of_frozen hskips (by rw [store_ensured])) h.ensured,
    run_of_unresolved hskips h, hcancelled, announced, announced, hresolved, ← cancelled, hcancelled,
    ← cancelled]
  rfl

/-- The deliveries that return without an error. -/
inductive Delivers (event : MarketEvent) (w : World) : Prop
  | skips (h : Skips event w)
  | pays (hskips : ¬ Skips event w) (h : Agrees event w)
      (hpayable : w.Payable event.marketID event.outcome)
  | cancels (hskips : ¬ Skips event w) (h : Unresolved event w)
      (hpayable : w.Payable event.marketID event.outcome)

theorem Delivers.payable (h : Delivers event w) (hskips : ¬ Skips event w) :
    w.Payable event.marketID event.outcome := by
  cases h with
  | skips h => exact absurd h hskips
  | pays _ _ h | cancels _ _ h => exact h

theorem after_of_skips (h : Skips event w) (n : ℕ) : (handleMarketEvent event).after n w = w := by
  cases n with
  | zero => exact Program.after_zero _ _
  | succ n =>
    rw [handleMarketEvent_eq, Program.after, id, afterFrozen_of_skips h]
    rfl

theorem delivers_iff : ((handleMarketEvent event).run w).2 = true ↔ Delivers event w := by
  by_cases hskips : Skips event w
  · refine ⟨fun _ ↦ .skips hskips, fun _ ↦ ?_⟩
    rw [handleMarketEvent_eq, Program.run, id, afterFrozen_of_skips hskips]
    rfl
  by_cases hunresolved : Unresolved event w
  · have hpositions : (announced event w (cancelled event w).length).store.positions =
        w.store.positions := positions_resolved hunresolved
    rw [run_of_unresolved hskips hunresolved, settleWinningPositions_ok]
    exact ⟨fun h ↦ .cancels hskips hunresolved (payable_of_positions hpositions.symm h),
      fun h ↦ payable_of_positions hpositions (h.payable hskips)⟩
  by_cases hagrees : Agrees event w
  · rw [run_of_agrees hskips hagrees, settleWinningPositions_ok]
    exact ⟨fun h ↦ .pays hskips hagrees h, fun h ↦ h.payable hskips⟩
  · -- another outcome is an error
    refine ⟨fun h ↦ ?_, fun h ↦ ?_⟩
    · rw [Unresolved] at hunresolved
      push Not at hunresolved
      obtain ⟨market, hmarket, hstatus⟩ := hunresolved
      have hother : toUpper (trimSpace market.resolvedOutcome) ≠ toUpper (trimSpace event.outcome) :=
        fun heq ↦ hagrees ⟨market, hmarket, hstatus, heq.trans event.normalized_outcome⟩
      have hresolve : (w.store.resolveMarket event.marketID event.outcome) = (w.store, none) := by
        rw [Store.resolveMarket, hmarket]
        dsimp only
        rw [if_pos hstatus, if_neg hother]
      have hensured : w.onStore (·.ensureMarket event.marketID) = w := by
        rw [World.onStore, ensureMarket_of_some hmarket]
      rw [handleMarketEvent_eq, Program.run, id, afterFrozen_of_not_skips hskips, resolve,
        Program.run, hensured, Program.run, hresolve] at h
      cases h
    · cases h with
      | skips h => exact absurd h hskips
      | pays _ h _ => exact absurd h hagrees
      | cancels _ h _ => exact absurd h hunresolved

/-- A delivery of payments that stops, and the next one. -/
theorem Paying.resume (h : Paying event w) (n : ℕ) :
    Paying event ((settleWinningPositions event.marketID event.outcome).after n w) ∧
      ((settleWinningPositions event.marketID event.outcome).run w).1.Same
        ((handleMarketEvent event).run
          ((settleWinningPositions event.marketID event.outcome).after n w)).1 := by
  obtain ⟨hsame, -⟩ := settleWinningPositions_after event.marketID w event.normalized_outcome n
  obtain ⟨hpayable, hrun⟩ := settleWinningPositions_resume event.normalized_outcome h.payable n
  have hnext : Paying event ((settleWinningPositions event.marketID event.outcome).after n w) :=
    ⟨not_skips_of_frozen h.skips hsame.frozen, h.agrees.of_same hsame, hpayable⟩
  rw [run_of_agrees hnext.skips hnext.agrees]
  exact ⟨hnext, hrun⟩

theorem Paying.delivers (h : Paying event w) : Delivers event w := .pays h.skips h.agrees h.payable

/-- How a delivery that stops leaves a market: as it was, with a row, or with only the payments left. -/
theorem Delivers.after_cases (h : Delivers event w) (n : ℕ) : (handleMarketEvent event).after n w = w ∨
      (¬ Skips event w ∧ Unresolved event w ∧ (handleMarketEvent event).after n w = ensured event w) ∨
      Paying event ((handleMarketEvent event).after n w) := by
  cases h with
  | skips h => exact .inl (after_of_skips h n)
  | pays hskips h hpayable =>
    rw [after_of_agrees hskips h]
    exact .inr (.inr (Paying.resume ⟨hskips, h, hpayable⟩ _).1)
  | cancels hskips h hpayable =>
    have hpaying := paying_resolved hskips h hpayable
    rw [after_of_unresolved hskips h]
    rcases n with _ | _ | _ | _ | n
    · exact .inl rfl
    · exact .inl rfl
    · exact .inr (.inl ⟨hskips, h, rfl⟩)
    · exact .inr (.inr hpaying)
    · exact .inr (.inr ((hpaying.announced n).resume _).1)

/-- Redelivery ends without an error. -/
theorem Delivers.after (h : Delivers event w) (n : ℕ) : Delivers event ((handleMarketEvent event).after n w) := by
  obtain hsame | ⟨hskips, hunresolved, hensured⟩ | hpaying := h.after_cases n
  · rwa [hsame]
  · rwa [hensured, ← delivers_iff, run_ensured hskips hunresolved, delivers_iff]
  · exact hpaying.delivers

/-- Without orders to cancel there is nothing to announce. -/
theorem announced_of_nil (h : Unresolved event w) (hnil : cancelled event w = []) (n : ℕ) :
    announced event w n = resolved event w := by
  have hactive : ∀ order ∈ (resolved event w).store.orders.rows,
      ¬ order.2.active event.marketID = true := by
    rw [(resolved_of_unresolved h).2.1]
    rw [cancelled, Store.cancelledOrders, List.map_eq_nil_iff, List.filter_eq_nil_iff] at hnil
    exact hnil
  have horders : (resolved event w).store.orders.update (fun _ row ↦
      if row.active event.marketID then row.cancel marketResolved else row) =
        (resolved event w).store.orders := by
    refine Table.update_of_eq fun order horder ↦ ?_
    rw [if_neg (hactive order horder)]
  rw [announced, ← cancelled, hnil, List.take_nil, List.map_nil, List.append_nil,
    ← (resolved_of_unresolved h).2.2.1, Store.cancelActiveOrders, horders]

/-- A delivery that does not stop between the resolution and the last cancelled order. -/
def Uninterrupted (event : MarketEvent) (w : World) (fault : Fault) : Prop :=
  ¬ Skips event w → Unresolved event w → cancelled event w = [] ∨ fault.effects < 3 ∨
    4 + (cancelled event w).length ≤ fault.effects

/-- **Such a delivery can be repeated.** -/
theorem same_of_uninterrupted {fault : Fault} (h : Delivers event w) (hfault : Uninterrupted event w fault) :
    ((handleMarketEvent event).run w).1.Same
      ((handleMarketEvent event).run ((handleMarketEvent event).after fault.effects w)).1 := by
  rw [Uninterrupted] at hfault
  generalize fault.effects = n at hfault ⊢
  cases h with
  | skips h =>
    rw [after_of_skips h]
    exact .refl _
  | pays hskips h hpayable =>
    rw [after_of_agrees hskips h, run_of_agrees hskips h]
    exact (Paying.resume ⟨hskips, h, hpayable⟩ _).2
  | cancels hskips h hpayable =>
    -- past the announcement only payments are left
    have hlate : ∀ k, ((handleMarketEvent event).run w).1.Same ((handleMarketEvent event).run
        ((settleWinningPositions event.marketID event.outcome).after k
          (announced event w (cancelled event w).length))).1 := by
      intro k
      rw [run_of_unresolved hskips h]
      exact (((paying_resolved hskips h hpayable).announced _).resume k).2
    rw [after_of_unresolved hskips h]
    rcases n with _ | _ | _ | _ | n
    · exact .refl _
    · exact .refl _
    · rw [interrupted, run_ensured hskips h]
      exact .refl _
    · rcases hfault hskips h with hnil | hlt | hle
      · have hzero := hlate 0
        rwa [Program.after_zero, announced_of_nil h hnil] at hzero
      · omega
      · omega
    · have hall : announced event w n = announced event w (cancelled event w).length := by
        rcases hfault hskips h with hnil | hlt | hle
        · rw [announced_of_nil h hnil, announced_of_nil h hnil]
        · omega
        · rw [announced, announced, ← cancelled, List.take_length, List.take_of_length_le (by omega)]
      rw [interrupted, hall]
      exact hlate _

/-! ## Deliveries that cannot be repeated -/

/-- The message for a cancelled order. -/
def orderMessage (event : MarketEvent) (order : String × OrderRow) : Message :=
  .order (cancelledOrderEvent event.traceID order)

theorem nodup_cancelled (event : MarketEvent) (w : World) : ((cancelled event w).map Prod.fst).Nodup := by
  rw [cancelled, Store.cancelledOrders, List.map_map]
  exact w.store.orders.nodup.sublist (List.filter_sublist.map _)

/-- The last cancelled order is not among the first ones. -/
theorem orderMessage_getLast_notMem (hne : cancelled event w ≠ []) (hn : n < (cancelled event w).length) :
    orderMessage event ((cancelled event w).getLast hne) ∉
      ((cancelled event w).take n).map (orderMessage event) := by
  intro hmem
  obtain ⟨order, horder, heq⟩ := List.mem_map.mp hmem
  have hid : order.1 = ((cancelled event w).getLast hne).1 := by
    rw [orderMessage, orderMessage, Message.order.injEq] at heq
    exact congrArg Account.OrderEvent.orderID heq
  have hlast : (cancelled event w).getLast hne ∈ (cancelled event w).drop n := by
    have hdrop : (cancelled event w).drop n ≠ [] := fun hnil ↦
      absurd (List.drop_eq_nil_iff.mp hnil) (by omega)
    rw [← List.getLast_drop hdrop]
    exact List.getLast_mem _
  have hnodup := nodup_cancelled event w
  rw [← List.take_append_drop n (cancelled event w), List.map_append] at hnodup
  exact List.disjoint_of_nodup_append hnodup (List.mem_map_of_mem horder)
    (hid ▸ List.mem_map_of_mem hlast)

/-- A market that is resolved publishes no order any more. -/
theorem Paying.order_notMem_redeliver {e : Account.OrderEvent} (h : Paying event w) (hmem : .order e ∉ w.published)
    (faults : List Fault) : .order e ∉ ((handleMarketEvent event).redeliver faults w).1.published := by
  have hother : ∀ (settlement : SettlementCompletedEvent) (userID : ℤ), Message.order e = .settlement settlement →
        settlement.eventID ≠ settlementEventID event.marketID userID event.outcome :=
    fun _ _ heq ↦ by cases heq
  refine Program.redeliver_induction (C := fun _ _ ↦ True) (I := fun w ↦ Paying event w ∧ .order e ∉ w.published)
    (Q := fun r ↦ .order e ∉ r.1.published) ⟨h, hmem⟩ ?_ ?_ ?_
  · rintro w fault ⟨h, hmem⟩ -
    rw [after_of_agrees h.skips h.agrees]
    obtain ⟨hsame, -⟩ := settleWinningPositions_after event.marketID w event.normalized_outcome (fault.effects - 3)
    exact ⟨(h.resume _).1, fun hin ↦ hmem ((hsame.published _ hother).mp hin)⟩
  · rintro w ⟨h, hmem⟩
    rw [run_of_agrees h.skips h.agrees]
    obtain ⟨hsame, -⟩ := settleWinningPositions_run event.normalized_outcome h.payable
    exact fun hin ↦ hmem ((hsame.published _ hother).mp hin)
  · exact Program.meets_true faults w

/-- No cancelled order was published before a delivery that finds the market unresolved. -/
def Unannounced (event : MarketEvent) (w : World) : Prop :=
  Unresolved event w → ∀ order ∈ cancelled event w, orderMessage event order ∉ w.published

theorem Agrees.not_unresolved (h : Agrees event w) : ¬ Unresolved event w := by
  obtain ⟨market, hmarket, hstatus, -⟩ := h
  exact fun hunresolved ↦ hunresolved market hmarket hstatus

theorem Unannounced.after (hdelivers : Delivers event w) (h : Unannounced event w) (n : ℕ) :
    Unannounced event ((handleMarketEvent event).after n w) := by
  obtain hsame | ⟨-, hunresolved, hensured⟩ | hpaying := hdelivers.after_cases n
  · rwa [hsame]
  · intro _ order horder
    rw [hensured, cancelled, Store.cancelledOrders, orders_ensured] at horder
    rw [hensured]
    exact h hunresolved order horder
  · exact fun hagain ↦ absurd hagain hpaying.agrees.not_unresolved

/-- **A delivery that stops in between loses an order.** -/
theorem not_same_of_interrupted {fault : Fault} (hdelivers : Delivers event w) (h : Unannounced event w)
    (hfault : ¬ Uninterrupted event w fault) (faults : List Fault) :
    ¬ ((handleMarketEvent event).run w).1.Same ((handleMarketEvent event).redeliver faults
      ((handleMarketEvent event).after fault.effects w)).1 := by
  rw [Uninterrupted] at hfault
  push Not at hfault
  obtain ⟨hskips, hunresolved, hne, hge, hlt⟩ := hfault
  obtain ⟨n, hn⟩ : ∃ n, fault.effects = n + 3 := ⟨fault.effects - 3, by omega⟩
  have hpaying := paying_resolved hskips hunresolved (hdelivers.payable hskips)
  let last := (cancelled event w).getLast hne
  have hlast : orderMessage event last ∉ w.published := h hunresolved last (List.getLast_mem hne)
  -- a run without failure publishes the last order
  have hrun : orderMessage event last ∈ ((handleMarketEvent event).run w).1.published := by
    rw [run_of_unresolved hskips hunresolved]
    obtain ⟨hsame, -⟩ := settleWinningPositions_run event.normalized_outcome
      (hpaying.announced (cancelled event w).length).payable
    refine (hsame.published _ fun _ _ heq ↦ by cases heq).mpr (List.mem_append_right _ ?_)
    rw [← cancelled, List.take_length]
    exact List.mem_map_of_mem (List.getLast_mem hne)
  -- a delivery that stops in between does not, and no later one does
  have hlost : orderMessage event last ∉ ((handleMarketEvent event).redeliver faults
      ((handleMarketEvent event).after fault.effects w)).1.published := by
    rw [hn, after_of_unresolved hskips hunresolved]
    rcases n with _ | n
    · refine hpaying.order_notMem_redeliver ?_ faults
      rw [(resolved_of_unresolved hunresolved).2.2.1]
      exact hlast
    · have hzero : n - (cancelled event w).length = 0 := by omega
      rw [interrupted, hzero, Program.after_zero]
      refine (hpaying.announced n).order_notMem_redeliver ?_ faults
      rw [announced, List.mem_append, not_or]
      exact ⟨hlast, orderMessage_getLast_notMem hne (by omega)⟩
  exact fun hsame ↦ hlost ((hsame.published _).mpr hrun)

theorem redeliver_same_iff (hdelivers : Delivers event w) (h : Unannounced event w) (faults : List Fault) :
    ((handleMarketEvent event).run w).1.Same ((handleMarketEvent event).redeliver faults w).1 ↔
      (handleMarketEvent event).Meets (Uninterrupted event) faults w := by
  induction faults generalizing w with
  | nil => exact ⟨fun _ ↦ trivial, fun _ ↦ .refl _⟩
  | cons fault faults ih =>
    rw [Program.redeliver, Program.Meets]
    split_ifs with hok
    · rw [Program.attempt_eq_run hok]
      rw [Program.attempt_eq_run hok] at hok
      exact ⟨fun _ hfail ↦ absurd (hok.symm.trans hfail) (by decide), fun _ ↦ .refl _⟩
    · simp only [Bool.eq_false_iff.mpr hok, true_implies]
      rw [Program.attempt_state]
      by_cases hfault : Uninterrupted event w fault
      · have hsame := same_of_uninterrupted hdelivers hfault
        rw [and_iff_right hfault, ← ih (hdelivers.after _) (h.after hdelivers _)]
        exact ⟨fun hend ↦ hsame.symm.trans hend, fun hend ↦ hsame.trans hend⟩
      · exact ⟨fun hend ↦ absurd hend (not_same_of_interrupted hdelivers h hfault faults),
          fun hmeets ↦ absurd hmeets.1 hfault⟩

/-- **Redelivered resolutions.** A resolution that is redelivered until it returns without an error does so,
and it ends as one run without failure, exactly if no delivery that finds the market unresolved stops between
the transaction that resolves it and the last of its cancelled orders. -/
theorem redelivery_same_iff (event : MarketEvent) (store : Store) (faults : List Fault)
    (hok : ((handleMarketEvent event).run ⟨store, []⟩).2 = true) :
    ((handleMarketEvent event).redeliver faults ⟨store, []⟩).2 = true ∧
      (((handleMarketEvent event).run ⟨store, []⟩).1.Same
          ((handleMarketEvent event).redeliver faults ⟨store, []⟩).1 ↔
        (handleMarketEvent event).Meets (Uninterrupted event) faults ⟨store, []⟩) := by
  have hdelivers := delivers_iff.mp hok
  refine ⟨?_, redeliver_same_iff hdelivers (fun _ _ _ ↦ List.not_mem_nil) faults⟩
  exact Program.redeliver_induction (C := fun _ _ ↦ True) (I := Delivers event)
    (Q := fun r ↦ r.2 = true) hdelivers (fun _ _ h _ ↦ h.after _) (fun _ ↦ delivers_iff.mpr)
    (Program.meets_true faults _)

/-! A market with an active order and a winning position. -/

private def restingOrder : OrderRow where
  commandID := "c"
  clientOrderID := ""
  userID := 1
  marketID := 7
  outcome := "NO"
  side := "BUY"
  orderType := "LIMIT"
  timeInForce := "GTC"
  collateralAsset := "USDT"
  freezeID := "f"
  freezeAsset := "USDT"
  freezeAmount := 50
  price := 10
  quantity := 5
  filledQuantity := 0
  remainingQuantity := 5
  status := "NEW"
  cancelReason := ""

private def openStore : Store where
  frozen := false
  markets := ⟨[(7, ⟨"OPEN", ""⟩)], List.nodup_singleton _⟩
  resolutions := .empty
  orders := ⟨[("o", restingOrder)], List.nodup_singleton _⟩
  positions := ⟨[((7, 2, "YES"), ⟨"POSITION:7:YES", 3, 0⟩)], List.nodup_singleton _⟩
  payouts := .empty

private def resolvedYes : MarketEvent := ⟨"", 7, "RESOLVED", "YES"⟩

private theorem handle_resolvedYes : ((handleMarketEvent resolvedYes).run ⟨openStore, []⟩).2 = true := by
  decide

/-- `CancelActiveOrders` fails once, and the order stays active. -/
theorem cancellation_lost : ((handleMarketEvent resolvedYes).run ⟨openStore, []⟩).2 = true ∧
      ¬ ((handleMarketEvent resolvedYes).run ⟨openStore, []⟩).1.Same
        ((handleMarketEvent resolvedYes).redeliver [⟨3, false⟩] ⟨openStore, []⟩).1 := by
  refine ⟨handle_resolvedYes, fun hsame ↦ ?_⟩
  have horder := congrArg (Option.map OrderRow.status) (hsame.orders "o")
  revert horder
  decide

theorem redelivery_same_payment : ((handleMarketEvent resolvedYes).run ⟨openStore, []⟩).1.Same
      ((handleMarketEvent resolvedYes).redeliver [⟨7, false⟩, ⟨1, true⟩] ⟨openStore, []⟩).1 :=
  (redelivery_same_iff resolvedYes openStore [⟨7, false⟩, ⟨1, true⟩] handle_resolvedYes).2.mpr
    fun _ ↦ ⟨fun _ _ ↦ .inr (.inr (by decide)), fun _ ↦ ⟨fun _ _ ↦ .inr (.inl (by decide)), trivial⟩⟩

end FunnyOption.Settlement
