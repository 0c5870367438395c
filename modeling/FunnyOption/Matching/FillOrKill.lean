import FunnyOption.Matching.Fills
import FunnyOption.Matching.Liquidity
import FunnyOption.Matching.Uncrossed

/-!
# Fill or kill

An order to fill or kill is first tried out by `fokCanFill`, which changes nothing, and is then matched. The two
loops agree on what self-trade prevention does under a strategy. Without a strategy they do not: the match skips the
own orders of the user, and `fokCanFill` counts them.

## Main results

* `Session.fill_or_kill_iff`: in every state a session reaches, an order to fill or kill is filled or leaves
  everything as it was, exactly if it does not need its user's own orders.
* `Session.killed_half_filled`: an order that counts on an own order is filled in part.
-/

open Foundation

namespace FunnyOption.Matching

/-! ## One order -/

namespace Engine

variable {clock : ℕ → ℤ} {e : Engine} {order : Order}

/-- The order is filled, or it is cancelled without a trade and the resting orders are what they were. -/
def AllOrNothing (clock : ℕ → ℤ) (e : Engine) (order : Order) : Prop :=
  let placed := e.placeOrder clock order
  ∃ final, placed.2.1.order = some final ∧ (final.remainingQuantity = 0 ∨
      placed.2.1.trades = [] ∧ final.status = .cancelled ∧ placed.1.restingOrders.Perm e.restingOrders)

/-- An order without a strategy that its user's own orders would complete is completed by the others alone. An
order that comes in cancelled and finds nothing stays cancelled. -/
def NeedsNoOwn (e : Engine) (order : Order) : Prop :=
  order.stpStrategy = .none → order.remainingQuantity ≤ quantityOf (crossing order (e.makers order)) →
    order.remainingQuantity ≤ offered order (e.makers order) ∨
      order.status = .cancelled ∧ offered order (e.makers order) = 0

/-- Without a strategy, a walk that finds nothing changes nothing. -/
theorem walk_of_offered_eq_zero {bookKey : String} (makers : List Order) (sw : Sweep)
    (hstp : sw.order.stpStrategy = .none) (hzero : offered sw.order makers = 0) :
    sw.walk clock bookKey makers = (sw, makers) := by
  induction makers with
  | nil => rfl
  | cons maker makers ih =>
    by_cases hmeets : sw.Meets maker = true
    swap
    · exact Sweep.walk_cons_of_not_meets (Bool.eq_false_iff.mpr hmeets) makers
    have hcross : sw.order.crosses maker.price = true := (Bool.and_eq_true_iff.mp hmeets).2
    have hnonneg := quantityOf_nonneg (reachable sw.order makers)
    have hmaker := maker.remainingQuantity_nonneg
    rw [Sweep.walk_cons_of_meets hmeets]
    have hmet := Sweep.met_meetMaker clock bookKey sw maker
    generalize (sw.meetMaker clock bookKey maker).1 = sw' at hmet ⊢
    generalize (sw.meetMaker clock bookKey maker).2 = stays at hmet ⊢
    have hother : ∀ {qty : ℤ}, sw.order.userID ≠ maker.userID → 0 < qty →
        qty = min sw.order.remainingQuantity maker.remainingQuantity → False := by
      intro qty hne hqty hmin
      rw [(offered_of_other makers hcross hne.symm).1, offered] at hzero
      omega
    cases hmet with
    | skip hown =>
      rw [(offered_of_own makers hcross hown.symm (by simp [stopsTaker, hstp])).1] at hzero
      rw [ih hzero]
      rfl
    | pass hne =>
      rw [(offered_of_other makers hcross hne.symm).1, offered] at hzero
      rw [ih (by rw [offered]; omega)]
      rfl
    | stop _ h => exact absurd (h.symm.trans hstp) (by decide)
    | drop _ h => exact absurd (h.symm.trans hstp) (by decide)
    | both _ h => exact absurd (h.symm.trans hstp) (by decide)
    | trade qty hne hqty hmin => exact (hother hne hqty hmin).elim
    | fill qty hne hqty hmin => exact (hother hne hqty hmin).elim

theorem opened_status_iff (order : Order) : order.opened.status = .cancelled ↔ order.status = .cancelled := by
  rw [Order.opened]
  dsimp only
  split_ifs with hunset
  · simp [hunset]
  · rfl

/-- What an order to fill or kill is returned as: cancelled at once, or as the match leaves it. -/
theorem placeOrder_fok (clock : ℕ → ℤ) (h : e.WellFormed) (hfok : order.timeInForce = .fok)
    (haccepts : e.Accepts order) :
    let placed := e.placeOrder clock order
    let sw := e.swept clock order.opened
    ((¬ order.remainingQuantity ≤ fokOffered order (e.makers order) ∨
        (e.getOrCreateBook order.bookKey).isCross order = false) ∧
      placed.2.1.order = some (order.opened.cancel .fokNotFilled) ∧ placed.2.1.trades = [] ∧
      placed.1.restingOrders.Perm e.restingOrders) ∨
    (order.remainingQuantity ≤ fokOffered order (e.makers order) ∧ placed.2.1.order = some sw.order ∧
      placed.2.1.trades = sw.trades ∧
      placed.1.restingOrders.Perm ((e.walked clock order.opened (e.makers order)).2 ++
        ((e.getOrCreateBook order.bookKey).side order.side).orders ++ e.otherOrders order.bookKey)) := by
  have hplaced : e.placeOrder clock order =
      ((e.acceptOrder clock order.opened).1, (e.acceptOrder clock order.opened).2, none) := by
    rw [placeOrder, haccepts.valid]
    simp only [haccepts.fresh, haccepts.limit, Bool.false_eq_true, if_false]
  have hprocess : e.processLimitOrder clock order.opened (e.getOrCreateBook order.opened.bookKey) =
      e.processFOK clock order.opened (e.getOrCreateBook order.opened.bookKey) := by
    have htif : order.opened.timeInForce = .fok := hfok
    rw [processLimitOrder, htif]
  have hcan : fokCanFill order.opened (e.getOrCreateBook order.opened.bookKey) = true ↔
      order.opened.remainingQuantity ≤ fokOffered order.opened (e.makers order.opened) := fokCanFill_iff h
  have hmatch := matchedBook clock e order.opened (h.getOrCreateBook order.opened.bookKey).1
  dsimp only
  rw [hplaced, acceptOrder, hprocess, processFOK]
  split_ifs with hcross hfill
  · rw [Bool.not_eq_true'] at hcross
    exact .inl ⟨.inr hcross, rfl, rfl, perm_restingOrders_openBook e _⟩
  · refine .inl ⟨.inl fun hle ↦ ?_, rfl, rfl, perm_restingOrders_openBook e _⟩
    rw [Bool.not_eq_true', ← Bool.not_eq_true, hcan] at hfill
    exact hfill hle
  · rw [Bool.not_eq_true', Bool.not_eq_false, hcan] at hfill
    refine .inr ⟨hfill, by rw [hmatch.sweep]; rfl, by rw [hmatch.sweep]; rfl, ?_⟩
    rw [restingOrders_insert]
    exact hmatch.orders.append_right _

/-- **Fill or kill.** An accepted order is filled or leaves everything as it was, exactly if it does not need its
user's own orders. -/
theorem allOrNothing_iff (h : e.WellFormed) (hfok : order.timeInForce = .fok) (haccepts : e.Accepts order) :
    AllOrNothing clock e order ↔ NeedsNoOwn e order := by
  have hoffered : 0 ≤ offered order (e.makers order) := quantityOf_nonneg _
  rcases placeOrder_fok clock h hfok haccepts with
    ⟨hkilled, horder, htrades, hperm⟩ | ⟨hfill, horder, htrades, hperm⟩
  · refine iff_of_true ⟨_, horder, .inr ⟨htrades, rfl, hperm⟩⟩ fun hnone hle ↦ .inl ?_
    rcases hkilled with hshort | hcross
    · rw [fokOffered, if_pos hnone] at hshort
      exact absurd hle hshort
    · -- no order crosses, so there is nothing to fill
      have hnil : crossing order (e.makers order) = [] := by
        have hnot := (h.getOrCreateBook order.bookKey).1.not_crosses hcross
        rw [crossing, List.takeWhile_eq_nil_iff]
        intro hlen
        exact Bool.eq_false_iff.mp (hnot _ (List.get_mem (e.makers order) ⟨0, hlen⟩))
      rw [hnil] at hle
      exact hle.trans hoffered
  · have hreached : 0 < order.remainingQuantity →
        Sweep.Reached (e.sweepStart order.opened) (e.makers order) (e.swept clock order.opened) := fun hpos ↦
      Sweep.walk_reached _ _ (Sweep.active_iff.mpr ⟨hpos, rfl⟩)
    by_cases henough : order.remainingQuantity ≤ offered order (e.makers order)
    · refine iff_of_true ⟨_, horder, .inl ?_⟩ fun _ _ ↦ .inl henough
      rcases order.remainingQuantity_nonneg.eq_or_lt with hzero | hpos
      · have hidle : (e.sweepStart order.opened).active = false := by
          rw [← Bool.not_eq_true, Sweep.active_iff]
          exact fun hactive ↦ absurd hactive.1 (by rw [hzero]; exact lt_irrefl _)
        rw [swept, walked, Sweep.walk_of_not_active hidle]
        exact hzero.symm
      · rw [(hreached hpos).remaining]
        exact sub_eq_zero.mpr (min_eq_left henough).symm
    · have hpos : 0 < order.remainingQuantity := by omega
      have hleft : (e.swept clock order.opened).order.remainingQuantity ≠ 0 := by
        have hremaining : _ = order.remainingQuantity - min order.remainingQuantity (offered order (e.makers order)) :=
          (hreached hpos).remaining
        omega
      have hnone : order.stpStrategy = .none := by
        by_contra hstp
        rw [fokOffered, if_neg hstp] at hfill
        exact henough hfill
      rw [fokOffered, if_pos hnone] at hfill
      -- what is left is an order that finds nothing, which stays as it came
      have hzero : offered order (e.makers order) = 0 →
          e.walked clock order.opened (e.makers order) = (e.sweepStart order.opened, e.makers order) :=
        walk_of_offered_eq_zero (e.makers order) (e.sweepStart order.opened) hnone
      have hswept : offered order (e.makers order) = 0 → e.swept clock order.opened = e.sweepStart order.opened :=
        fun hnothing ↦ congrArg Prod.fst (hzero hnothing)
      constructor
      · rintro ⟨final, hfinal, hfilled | ⟨hempty, hcancelled, -⟩⟩
        · obtain rfl := Option.some_inj.mp (horder.symm.trans hfinal)
          exact absurd hfilled hleft
        · obtain rfl := Option.some_inj.mp (horder.symm.trans hfinal)
          have hnothing := (hreached hpos).trades.mp (htrades.symm.trans hempty)
          refine fun _ _ ↦ .inr ⟨(opened_status_iff order).mp ?_, hnothing⟩
          rwa [hswept hnothing] at hcancelled
      · intro hneeds
        rcases hneeds hnone hfill with hle | ⟨hcancelled, hnothing⟩
        · exact absurd hle henough
        · rw [hswept hnothing] at horder htrades
          rw [hzero hnothing] at hperm
          refine ⟨_, horder, .inr ⟨htrades, (opened_status_iff order).mpr hcancelled, hperm.trans ?_⟩⟩
          refine List.Perm.trans ?_ (perm_restingOrders e order.bookKey).symm
          refine List.Perm.append_right _ ?_
          exact List.perm_append_comm.trans (OrderBookDirect.perm_orders _ order.side).symm

end Engine

/-! ## Sessions -/

namespace Session

/-- **Fill or kill is all or nothing** in every state that calls reach from an empty engine, exactly for the orders
that do not need their user's own orders. -/
theorem fill_or_kill_iff (clock : ℕ → ℤ) (sequence : ℕ) (run : List Call) (t : Session)
    (hvisit : Visits (step clock) (start sequence) run t) (order : Order) (hfok : order.timeInForce = .fok)
    (haccepts : t.engine.Accepts order) :
    t.engine.AllOrNothing clock order ↔ t.engine.NeedsNoOwn order :=
  Engine.allOrNothing_iff (filed_of_visits hvisit).wellFormed hfok haccepts

/-- The user 1 and the user 2 offer at 50. -/
def twoAsks : List Call := [.place (sampleOrder "1" 1 .sell 50 6), .place (sampleOrder "2" 2 .sell 50 4)]

/-- An order of the user 1 to fill or kill. -/
def killOrder (quantity : ℤ) : Order := { sampleOrder "3" 1 .buy 50 quantity with timeInForce := .fok }

/-- What the other user offers is enough. -/
theorem fill_or_kill_four :
    ∃ t, Visits (step fun _ ↦ 0) (start 0) twoAsks t ∧ t.engine.AllOrNothing (fun _ ↦ 0) (killOrder 4) := by
  refine ⟨_, visits_of_exec rfl, (fill_or_kill_iff _ 0 twoAsks _ (visits_of_exec rfl) (killOrder 4) rfl ?_).mpr ?_⟩
  · exact ⟨by decide, by decide, rfl⟩
  · exact fun _ _ ↦ .inl (by decide)

/-- **An order that is filled in part.** `fokCanFill` counts the ask of the same user, which the match skips. -/
theorem killed_half_filled : ∃ t, Visits (step fun _ ↦ 0) (start 0) twoAsks t ∧ t.engine.Accepts (killOrder 10) ∧
      (t.engine.placeOrder (fun _ ↦ 0) (killOrder 10)).2.1.trades.map Trade.quantity = [4] ∧
      ¬ t.engine.AllOrNothing (fun _ ↦ 0) (killOrder 10) := by
  refine ⟨_, visits_of_exec rfl, ⟨by decide, by decide, rfl⟩, by decide, ?_⟩
  rintro ⟨final, hfinal, hfilled | ⟨hnone, -⟩⟩
  · obtain rfl := Option.some_inj.mp hfinal
    exact absurd hfilled (by decide)
  · exact absurd hnone (by decide)

end Session

end FunnyOption.Matching
