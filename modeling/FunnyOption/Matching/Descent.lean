import FunnyOption.Matching.Resting

/-!
# Where orders and trades come from

Everything that the engine returns and everything that rests in it descends from an order that was
placed: it has the terms of that order, and no less of it is filled. Every trade is between the
incoming order and a resting order of the other side.

These are the facts that the services behind the engine rely on. They are stated for a placed order,
`descent_placeOrder`, whether it is accepted or not, and for a cancel command,
`descent_handleCancel`.
-/

open Foundation

namespace FunnyOption.Matching

/-- The second order is a later state of the first. -/
structure Derives (o o' : Order) : Prop where
  terms : Sweep.SameTerms o o'
  filled : o.filledQuantity ≤ o'.filledQuantity

namespace Derives

variable {o o' o'' : Order}

theorem refl (o : Order) : Derives o o := ⟨.refl o, le_refl _⟩

theorem trans (h : Derives o o') (h' : Derives o' o'') : Derives o o'' :=
  ⟨h.terms.trans h'.terms, h.filled.trans h'.filled⟩

theorem cancel (o : Order) (reason : CancelReason) : Derives o (o.cancel reason) :=
  ⟨Sweep.sameTerms_cancel o reason, le_refl _⟩

theorem reject (o : Order) (reason : CancelReason) : Derives o (o.reject reason) :=
  ⟨by constructor <;> rfl, le_refl _⟩

theorem opened (o : Order) : Derives o o.opened := ⟨by constructor <;> rfl, le_refl _⟩

theorem rested (o : Order) : Derives o o.rested := ⟨by constructor <;> rfl, le_refl _⟩

theorem applyFill (o : Order) {qty : ℤ} (h : 0 < qty) : Derives o (o.applyFill qty) :=
  ⟨Sweep.sameTerms_applyFill o qty, le_add_of_nonneg_right h.le⟩

end Derives

/-- A trade of an incoming order with a resting one. -/
structure TradesWith (order maker : Order) (trade : Trade) : Prop where
  takerOrderID : trade.takerOrderID = order.orderID
  makerOrderID : trade.makerOrderID = maker.orderID
  takerUserID : trade.takerUserID = order.userID
  makerUserID : trade.makerUserID = maker.userID
  takerSide : trade.takerSide = order.side
  tradeID : ∃ n, trade.tradeID = deterministicTradeID trade.bookKey n
  price : trade.price = maker.price
  quantity : 0 < trade.quantity

/-! ## The walk -/

namespace Sweep

variable {clock : ℕ → ℤ} {bookKey : String}

/-- What a walk over `makers` has returned so far. -/
structure Descends (order : Order) (makers : List Order) (sw : Sweep) (left : List Order) : Prop where
  incoming : Derives order sw.order
  affected : ∀ o ∈ sw.affected, ∃ maker ∈ makers, Derives maker o
  trades : ∀ trade ∈ sw.trades, ∃ maker ∈ makers, TradesWith order maker trade
  left : ∀ o ∈ left, ∃ maker ∈ makers, Derives maker o

variable {order maker : Order} {makers kept : List Order} {sw : Sweep}

theorem Descends.recordTrade (h : Descends order makers sw kept) (hmaker : maker ∈ makers) {qty : ℤ} (hqty : 0 < qty)
    {left : List Order} (hleft : ∀ o ∈ left, ∃ maker ∈ makers, Derives maker o) :
    Descends order makers (sw.recordTrade clock bookKey maker qty) left := by
  have hterms := h.incoming.terms
  refine ⟨h.incoming.trans (.applyFill _ hqty), List.forall_mem_append.mpr ⟨h.affected, ?_⟩,
    List.forall_mem_append.mpr ⟨h.trades, ?_⟩, hleft⟩
  · exact List.forall_mem_singleton.mpr ⟨maker, hmaker, .applyFill maker hqty⟩
  · exact List.forall_mem_singleton.mpr
      ⟨maker, hmaker, hterms.orderID, rfl, hterms.userID, rfl, hterms.side, ⟨_, rfl⟩, rfl, hqty⟩

theorem Descends.cancelMaker (h : Descends order makers sw kept) (hmaker : maker ∈ makers) (reason : CancelReason) :
    Descends order makers (sw.cancelMaker maker reason) kept := by
  refine { h with affected := List.forall_mem_append.mpr ⟨h.affected, List.forall_mem_singleton.mpr ?_⟩ }
  exact ⟨maker, hmaker, .cancel maker reason⟩

theorem Descends.cancelTaker (h : Descends order makers sw kept) (reason : CancelReason) :
    Descends order makers (sw.cancelTaker reason) kept :=
  { h with incoming := h.incoming.trans (.cancel _ reason) }

/-- One more order stays. -/
theorem Descends.keep (h : Descends order makers sw kept) {o : Order} (ho : ∃ maker ∈ makers, Derives maker o) :
    Descends order makers sw (kept ++ [o]) :=
  { h with left := List.forall_mem_append.mpr ⟨h.left, List.forall_mem_singleton.mpr ho⟩ }

/-- **What a walk returns descends from the orders it started with.** -/
theorem descends_walk (clock : ℕ → ℤ) (bookKey : String) (makers : List Order) (sw : Sweep)
    (haffected : sw.affected = []) (htrades : sw.trades = []) :
    Descends sw.order makers (sw.walk clock bookKey makers).1 (sw.walk clock bookKey makers).2 := by
  have hstart : Descends sw.order makers sw [] := ⟨.refl _, by simp [haffected], by simp [htrades], by simp⟩
  have hkept : KeptByWalk clock bookKey fun sw' kept rest ↦
      (∀ maker ∈ rest, maker ∈ makers) ∧ Descends sw.order makers sw' kept := by
    refine ⟨fun ⟨hrest, h⟩ ↦ ?_, fun reason ⟨hrest, h⟩ ↦ ⟨hrest, h.cancelTaker reason⟩, fun reason ⟨hrest, h⟩ ↦ ?_,
      fun ⟨hrest, h⟩ _ _ hqty _ hstays ↦ ?_, fun _ ⟨hrest, h⟩ ↦ ⟨hrest, { h with }⟩⟩
    all_goals obtain ⟨hmaker, hrest⟩ := List.forall_mem_cons.mp hrest
    · exact ⟨hrest, h.keep ⟨_, hmaker, .refl _⟩⟩
    · exact ⟨hrest, h.cancelMaker hmaker reason⟩
    · refine ⟨hrest, h.recordTrade hmaker hqty (List.forall_mem_append.mpr ⟨h.left, fun o ho ↦ ⟨_, hmaker, ?_⟩⟩)⟩
      rw [hstays o (Option.mem_toList.mp ho)]
      exact .applyFill _ hqty
  exact (hkept.walk makers sw ⟨fun _ hm ↦ hm, hstart⟩).2

/-- A walk takes orders out of a list, and changes no id. -/
theorem walk_orderIDs (clock : ℕ → ℤ) (bookKey : String) (makers : List Order) (sw : Sweep) :
    ((sw.walk clock bookKey makers).2.map Order.orderID).Sublist (makers.map Order.orderID) := by
  induction makers generalizing sw with
  | nil => exact .slnil
  | cons maker rest ih =>
    cases hmeets : sw.Meets maker with
    | false =>
      rw [walk_cons_of_not_meets hmeets]
    | true =>
      have hkept := (met_meetMaker clock bookKey sw maker).kept_terms
      rw [walk_cons_of_meets hmeets, List.map_append, List.map_cons]
      rcases hstays : (sw.meetMaker clock bookKey maker).2 with _ | o
      · exact (ih _).cons _
      · rw [Option.toList_some, List.map_singleton, (hkept o hstays).orderID]
        exact (ih _).cons_cons _

end Sweep

/-! ## Commands -/

namespace Engine

variable {clock : ℕ → ℤ} {e e' : Engine} {order : Order}

/-- What a command with the incoming order `order` leaves behind. -/
structure Descent (e : Engine) (order : Order) (e' : Engine) (result : Result) : Prop where
  incoming : ∀ o ∈ result.order, Derives order o
  affected : ∀ o ∈ result.affected, ∃ maker ∈ e.restingOrders, Derives maker o
  trades : ∀ trade ∈ result.trades, order.validate = none ∧ ∃ maker ∈ e.restingOrders,
    maker.side = order.side.opposite ∧ TradesWith order maker trade
  resting : ∀ o ∈ e'.restingOrders, (order.validate = none ∧ Derives order o) ∨
    ∃ maker ∈ e.restingOrders, Derives maker o
  orderIDs : order.orderID ∉ e.restingOrders.map Order.orderID →
    (e.restingOrders.map Order.orderID).Nodup → (e'.restingOrders.map Order.orderID).Nodup
  wellFormed : e'.WellFormed

variable {met rest : List Order} {final : Order} {rests : Bool} {result : Result}

/-- However an order ends, it is returned as a later state of what the walk leaves of it. -/
theorem derives_of_outcome (h : Outcome clock e order met final rests) :
    Derives (e.walked clock order met).1.order final := by
  cases h with
  | refused reason => exact .cancel order reason
  | posted => exact ⟨by constructor <;> rfl, le_refl _⟩
  | filled | prevented | stranded => exact .refl _
  | expired reason => exact .cancel _ reason
  | rests => exact .rested _

/-- A walk and the incoming order, if it rests, bring no id twice. -/
theorem nodup_walked (clock : ℕ → ℤ) (e : Engine) {order : Order} {met rest : List Order} (rests : Bool)
    (hids : ((met ++ rest).map Order.orderID).Nodup) (hfresh : order.orderID ∉ (met ++ rest).map Order.orderID) :
    (((e.walked clock order met).2 ++ rest ++
      if rests then [(e.walked clock order met).1.order] else []).map Order.orderID).Nodup := by
  have hterms := (Sweep.descends_walk clock order.bookKey met (e.sweepStart order) rfl rfl).incoming.terms
  have hsub : ((e.walked clock order met).2.map Order.orderID ++ rest.map Order.orderID).Sublist
      (met.map Order.orderID ++ rest.map Order.orderID) :=
    (Sweep.walk_orderIDs clock order.bookKey met (e.sweepStart order)).append_right _
  rw [List.map_append] at hids hfresh
  rw [List.map_append, List.map_append]
  refine List.Nodup.append (hids.sublist hsub) ?_ ?_
  · cases rests <;> simp
  · cases rests with
    | false => simp
    | true =>
      rintro id hid hself
      rw [if_pos rfl, List.map_singleton] at hself
      rw [(List.mem_singleton.mp hself).trans hterms.orderID] at hid
      exact hfresh (hsub.subset hid)

/-- The orders that rest after a placement are new at most by the incoming one. -/
theorem nodup_of_placement (h : Placement clock e order met rest final rests e' result)
    (hfresh : order.orderID ∉ e.restingOrders.map Order.orderID) (hids : (e.restingOrders.map Order.orderID).Nodup) :
    (e'.restingOrders.map Order.orderID).Nodup := by
  have hbefore := h.before.map Order.orderID
  refine (h.after.map Order.orderID).nodup_iff.mpr ?_
  exact nodup_walked clock e rests (hbefore.nodup_iff.mp hids) fun hmem ↦ hfresh (hbefore.mem_iff.mpr hmem)

theorem Placement.descent (h : e.WellFormed) (hvalid : order.validate = none)
    (hp : Placement clock e order met rest final rests e' result) : Descent e order e' result := by
  have hwalk := Sweep.descends_walk clock order.bookKey met (e.sweepStart order) rfl rfl
  have hmet : ∀ maker ∈ met, maker ∈ e.restingOrders := fun maker hm ↦
    hp.before.mem_iff.mpr (List.mem_append_left rest hm)
  refine ⟨fun o ho ↦ ?_, fun o ho ↦ ?_, fun trade htrade ↦ ?_, fun o ho ↦ ?_, nodup_of_placement hp, hp.wellFormed⟩
  · rw [hp.returned] at ho
    obtain rfl := Option.mem_some_iff.mp ho
    exact hwalk.incoming.trans (derives_of_outcome hp.outcome)
  · rw [hp.affected] at ho
    obtain ⟨maker, hm, hd⟩ := hwalk.affected o ho
    exact ⟨maker, hmet maker hm, hd⟩
  · rw [hp.trades] at htrade
    obtain ⟨maker, hm, ht⟩ := hwalk.trades trade htrade
    exact ⟨hvalid, maker, hmet maker hm, side_of_outcome h hp.outcome maker hm, ht⟩
  · rcases resting_cases (hp.after.mem_iff.mp ho) with ho | ho | rfl
    · obtain ⟨maker, hm, hd⟩ := hwalk.left o ho
      exact .inr ⟨maker, hmet maker hm, hd⟩
    · exact .inr ⟨o, hp.before.mem_iff.mpr (List.mem_append_right met ho), .refl o⟩
    · exact .inl ⟨hvalid, hwalk.incoming⟩

/-- **What `PlaceOrder` returns and leaves resting descends from the orders placed.** -/
theorem descent_placeOrder (clock : ℕ → ℤ) (h : e.WellFormed) (order : Order) :
    Descent e order (e.placeOrder clock order).1 (e.placeOrder clock order).2.1 := by
  rcases placeOrder_cases clock h order with
    ⟨-, -, ⟨o, ho, hresult⟩, hperm, -, hwf⟩ | ⟨haccepts, met, rest, final, rests, hp⟩
  · have hderives : Derives order o := by
      rcases List.mem_pair.mp ho with rfl | rfl
      · exact .refl _
      · exact .opened order
    rw [hresult]
    refine ⟨fun o' ho' ↦ ?_, by simp [rejection], by simp [rejection], fun o' ho' ↦ ?_,
      fun _ hids ↦ (hperm.map _).nodup_iff.mpr hids, hwf⟩
    · obtain rfl := Option.mem_some_iff.mp ho'
      exact hderives.trans (.reject o _)
    · exact .inr ⟨o', hperm.mem_iff.mp ho', .refl o'⟩
  · have hvalid : order.opened.validate = none := haccepts.valid
    have hd := hp.descent h hvalid
    exact { hd with
      incoming := fun o ho ↦ (Derives.opened order).trans (hd.incoming o ho)
      trades := fun trade htrade ↦ have ⟨_, maker, hm, hside, ht⟩ := hd.trades trade htrade
        ⟨haccepts.valid, maker, hm, hside, { ht with }⟩
      resting := fun o ho ↦ (hd.resting o ho).imp_left
        fun ⟨_, hd⟩ ↦ ⟨haccepts.valid, (Derives.opened order).trans hd⟩ }

/-- **What `handleCancel` returns and leaves resting descends from the orders resting.** -/
theorem descent_handleCancel (h : e.WellFormed) (hids : (e.restingOrders.map Order.orderID).Nodup)
    (cmd : MatchCommand) (nowMillis : ℤ) :
    (∀ m ∈ (e.handleCancel cmd nowMillis).2, m.command = cmd ∧ m.result.trades = [] ∧
      (∀ o ∈ m.result.order, o.orderID = cmd.orderID ∧ ∃ maker ∈ e.restingOrders, Derives maker o) ∧
      ∀ o ∈ m.result.affected, ∃ maker ∈ e.restingOrders, Derives maker o) ∧
    (e.handleCancel cmd nowMillis).1.restingOrders.Subperm e.restingOrders ∧
    (e.handleCancel cmd nowMillis).1.WellFormed := by
  obtain ⟨cancelled, hc⟩ := exists_cancellation h hids cmd nowMillis
  obtain ⟨books, hresults⟩ := hc.results
  have hderives : ∀ p ∈ cancelled, ∃ maker ∈ e.restingOrders, Derives maker p.2 := by
    rintro p hp
    obtain ⟨hterms, -, hfilled⟩ := hc.terms p hp
    refine ⟨p.1, hc.before.mem_iff.mpr ?_, hterms, hfilled.ge⟩
    rw [Option.mem_def.mp hp]
    simp
  refine ⟨fun m hm ↦ ?_, ?_, hc.wellFormed⟩
  · rw [hresults] at hm
    rcases List.mem_append.mp hm with hm | hm
    · obtain ⟨p, hp, rfl⟩ := List.mem_map.mp hm
      have hd := hderives p (Option.mem_toList.mp hp)
      refine ⟨rfl, rfl, fun o ho ↦ ?_, fun o ho ↦ ?_⟩
      · obtain rfl := Option.mem_some_iff.mp ho
        exact ⟨hc.orderID p (Option.mem_toList.mp hp), hd⟩
      · rw [List.mem_singleton.mp ho]
        exact hd
    · obtain ⟨book, -, rfl⟩ := List.mem_map.mp hm
      exact ⟨rfl, rfl, by simp, by simp⟩
  · exact (List.sublist_append_right _ _).subperm.trans hc.before.symm.subperm

end Engine

end FunnyOption.Matching
