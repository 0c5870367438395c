import FunnyOption.Matching.Fills
import FunnyOption.Matching.Liquidity

/-!
# Published depth

`Snapshot` publishes the `Volume` of each bucket. `Append` adds to it what is left of an order, and `Remove` takes
off what is left of the order by then. A fill changes the order alone. So what was traded stays in the volume: the
rest of an order that is filled in part counts with its first quantity, and an order that is filled is removed with
nothing left.

## Main results

* `Session.depth_real`: while no accepted order comes to a quantity of another user, every published level is the sum
  of what is left of the orders that rest there.
* `Session.depth_of_filled`: an ask for 10 of which 4 are bought is published as 10.
-/

open Foundation

namespace FunnyOption.Matching

/-! ## Depth -/

/-- What is left of the orders at a price. -/
def depth (price : ℤ) (orders : List Order) : ℤ := quantityOf (orders.filter (·.price = price))

variable {price : ℤ} {o order : Order} {orders orders' : List Order} {book : OrderBookDirect}

theorem depth_append (price : ℤ) (orders orders' : List Order) :
    depth price (orders ++ orders') = depth price orders + depth price orders' := by
  simp only [depth, quantityOf, List.filter_append, List.map_append, List.sum_append]

theorem depth_cons (price : ℤ) (o : Order) (orders : List Order) :
    depth price (o :: orders) = (if o.price = price then o.remainingQuantity else 0) + depth price orders := by
  by_cases h : o.price = price <;> simp [depth, quantityOf, h]

theorem depth_perm (price : ℤ) (h : orders.Perm orders') : depth price orders = depth price orders' :=
  ((h.filter _).map _).sum_eq

theorem addOrder_volume (s : BookSide) (o : Order) (price : ℤ) :
    (s.addOrder o).volume price = s.volume price + if o.price = price then o.remainingQuantity else 0 := by
  by_cases h : o.price = price
  · simp [BookSide.addOrder, h]
  · simp [BookSide.addOrder, h, Function.update_of_ne (Ne.symm h)]

theorem dropVolume_apply (volume : ℤ → ℤ) (o : Order) (price : ℤ) :
    BookSide.dropVolume volume o price = volume price - if o.price = price then o.remainingQuantity else 0 := by
  by_cases h : o.price = price
  · rw [BookSide.dropVolume, h, Function.update_self, if_pos rfl]
  · rw [BookSide.dropVolume, Function.update_of_ne (Ne.symm h), if_neg h, sub_zero]

theorem foldl_dropVolume (removed : List Order) (volume : ℤ → ℤ) (price : ℤ) :
    removed.foldl BookSide.dropVolume volume price = volume price - depth price removed := by
  induction removed generalizing volume with
  | nil => exact (sub_zero _).symm
  | cons o removed ih => rw [List.foldl_cons, ih, dropVolume_apply, depth_cons, sub_sub]

/-- The walk of an order that comes to no quantity of another user: what does not stay is removed. -/
theorem Sweep.depth_walk (clock : ℕ → ℤ) (bookKey : String) (price : ℤ) (makers : List Order) (sw : Sweep)
    (hnone : ∀ maker ∈ makers, sw.order.crosses maker.price = true → maker.userID ≠ sw.order.userID →
      maker.remainingQuantity = 0) :
    depth price (sw.walk clock bookKey makers).2 + depth price (sw.walk clock bookKey makers).1.toRemove =
      depth price makers + depth price sw.toRemove := by
  induction makers generalizing sw with
  | nil => rfl
  | cons maker makers ih =>
    by_cases hmeets : sw.Meets maker = true
    swap
    · rw [walk_cons_of_not_meets (Bool.eq_false_iff.mpr hmeets)]
    have hcross : sw.order.crosses maker.price = true := (Bool.and_eq_true_iff.mp hmeets).2
    have hmet := met_meetMaker clock bookKey sw maker
    have hterms := hmet.order_terms
    have hrest := ih (sw.meetMaker clock bookKey maker).1 fun m hm ↦ by
      rw [hterms.crosses, hterms.userID]
      exact hnone m (List.mem_cons_of_mem maker hm)
    have hnothing : ∀ {qty : ℤ}, sw.order.userID ≠ maker.userID → 0 < qty →
        qty = min sw.order.remainingQuantity maker.remainingQuantity → False := by
      intro qty hother hpos hmin
      have hzero := hnone maker List.mem_cons_self hcross (Ne.symm hother)
      omega
    have hcancelled : ∀ reason, depth price (sw.toRemove ++ [maker.cancel reason]) =
        depth price [maker] + depth price sw.toRemove := by
      intro reason
      rw [depth_append, add_comm, depth_cons, depth_cons]
      rfl
    have hone : depth price (sw.meetMaker clock bookKey maker).2.toList +
        depth price (sw.meetMaker clock bookKey maker).1.toRemove =
        depth price [maker] + depth price sw.toRemove := by
      generalize (sw.meetMaker clock bookKey maker).1 = sw' at hmet ⊢
      generalize (sw.meetMaker clock bookKey maker).2 = stays at hmet ⊢
      cases hmet with
      | skip | stop | pass => rfl
      | drop => exact (zero_add _).trans (hcancelled _)
      | both => exact (zero_add _).trans (hcancelled _)
      | trade qty hother hpos hmin => exact (hnothing hother hpos hmin).elim
      | fill qty hother hpos hmin => exact (hnothing hother hpos hmin).elim
    have hcons : depth price (maker :: makers) = depth price [maker] + depth price makers :=
      depth_append price [maker] makers
    rw [walk_cons_of_meets hmeets]
    dsimp only
    rw [depth_append, hcons]
    linarith

/-! ## Books -/

namespace OrderBookDirect

/-- Every published level is what is left of the orders at its price and side. -/
def DepthReal (book : OrderBookDirect) : Prop :=
  ∀ limit, (∀ level ∈ (book.snapshot limit).bids, level.quantity = depth level.price book.bids.orders) ∧
    ∀ level ∈ (book.snapshot limit).asks, level.quantity = depth level.price book.asks.orders

/-- A well-formed book of different orders whose volumes are what is left of them. -/
structure Measured (book : OrderBookDirect) : Prop where
  wellFormed : book.WellFormed
  distinct : (book.orders.map Order.orderID).Nodup
  volume : ∀ s price, (book.side s).volume price = depth price (book.side s).orders

theorem Measured.new (key : String) : (OrderBookDirect.new key).Measured := by
  refine ⟨.new key, List.nodup_nil, fun s price ↦ ?_⟩
  cases s <;> rfl

theorem Measured.depthReal (h : book.Measured) : book.DepthReal := by
  intro limit
  constructor
  · intro level hlevel
    obtain ⟨b, -, rfl⟩ := List.mem_map.mp hlevel
    exact h.volume .buy b.price
  · intro level hlevel
    obtain ⟨b, -, rfl⟩ := List.mem_map.mp hlevel
    exact h.volume .sell b.price

theorem Measured.addOrder (h : book.Measured) (hfresh : order.orderID ∉ book.orders.map Order.orderID) :
    (book.addOrder order).Measured := by
  refine ⟨h.wellFormed.addOrder, ?_, fun s price ↦ ?_⟩
  · rw [((perm_addOrder book order).map _).nodup_iff]
    exact List.nodup_cons.mpr ⟨hfresh, h.distinct⟩
  · by_cases hs : s = order.side
    · subst hs
      have hperm := BookSide.perm_insertOrder order.side order (book.side order.side).buckets
      rw [OrderBookDirect.addOrder, side_setSide_self]
      refine Eq.trans ?_ ((depth_perm price hperm).trans (depth_cons _ _ _)).symm
      rw [addOrder_volume, h.volume, add_comm]
      rfl
    · rw [OrderBookDirect.addOrder, side_setSide_of_ne book _ hs]
      exact h.volume s price

theorem Measured.removeDirectOrder (h : book.Measured) {copy : Order} (hmem : o ∈ book.orders)
    (hcopy : Sweep.SameTerms o copy) (hfilled : copy.filledQuantity = o.filledQuantity) :
    (book.removeDirectOrder copy).Measured := by
  refine ⟨h.wellFormed.removeDirectOrder, ?_, fun s price ↦ ?_⟩
  · have hperm := (perm_removeDirectOrder h.wellFormed hmem h.distinct hcopy).map Order.orderID
    exact (List.nodup_cons.mp (hperm.nodup_iff.mp h.distinct)).2
  · by_cases hs : s = o.side
    · subst hs
      have hperm := perm_removeOrder h.wellFormed (h.wellFormed.mem_side hmem) h.distinct hcopy
      have hbefore := depth_perm price hperm
      have hleft : copy.remainingQuantity = o.remainingQuantity := by
        rw [Order.remainingQuantity, Order.remainingQuantity, hcopy.quantity, hfilled]
      rw [depth_cons, ← h.volume] at hbefore
      rw [OrderBookDirect.removeDirectOrder, hcopy.side, side_setSide_self]
      change BookSide.dropVolume _ copy price = _
      rw [dropVolume_apply, hbefore, hcopy.price, hleft, add_sub_cancel_left]
    · rw [OrderBookDirect.removeDirectOrder, hcopy.side, side_setSide_of_ne book _ hs]
      exact h.volume s price

theorem hasOrder_eq_false_iff {orderID : String} :
    book.hasOrder orderID = false ↔ orderID ∉ book.orders.map Order.orderID := by
  simp [hasOrder, getDirectOrder]

end OrderBookDirect

/-! ## Processing an order -/

namespace Engine

variable {clock : ℕ → ℤ} {e : Engine}

/-- The orders of other users that the order comes to have nothing left. -/
def TakesNothing (e : Engine) (order : Order) : Prop :=
  ∀ maker ∈ e.makers order, order.crosses maker.price = true → maker.userID ≠ order.userID →
    maker.remainingQuantity = 0

instance (e : Engine) (order : Order) : Decidable (e.TakesNothing order) :=
  inferInstanceAs (Decidable (∀ maker ∈ e.makers order, _ → _ → _))

/-- **Processing an order that takes nothing keeps the volumes.** -/
theorem measured_processLimitOrder (h : (e.getOrCreateBook order.bookKey).Measured)
    (hfresh : order.orderID ∉ (e.getOrCreateBook order.bookKey).orders.map Order.orderID)
    (hnone : e.TakesNothing order) :
    (e.processLimitOrder clock order (e.getOrCreateBook order.bookKey)).2.Measured := by
  generalize hbook : e.getOrCreateBook order.bookKey = book at h hfresh ⊢
  have hmatch := matchedBook clock e order h.wellFormed
  have hids : ((e.matchOrder clock order book).2.orders.map Order.orderID).Subperm
      (book.orders.map Order.orderID) := by
    refine ((hmatch.orders.trans List.perm_append_comm).map _).subperm.trans ?_
    refine List.Subperm.trans ?_ ((OrderBookDirect.perm_orders book order.side).map _).symm.subperm
    rw [List.map_append, List.map_append]
    exact ((Sweep.walk_orderIDs clock order.bookKey _ (e.sweepStart order)).append_left _).subperm
  have hmatched : (e.matchOrder clock order book).2.Measured := by
    refine ⟨hmatch.wellFormed, ?_, fun s price ↦ ?_⟩
    · obtain ⟨l, hperm, hsub⟩ := hids
      exact hperm.nodup_iff.mp (h.distinct.sublist hsub)
    · by_cases hs : s = order.side
      · rw [hs, hmatch.own]
        exact h.volume _ price
      · obtain rfl : s = order.side.opposite := by
          revert hs
          cases s <;> cases order.side <;> simp [OrderSide.opposite]
        have hwalk := Sweep.depth_walk clock order.bookKey price (book.side order.side.opposite).orders
          (e.sweepStart order) (by rw [← hbook]; exact hnone)
        have hempty : depth price (e.sweepStart order).toRemove = 0 := rfl
        rw [hmatch.volume, foldl_dropVolume, h.volume, hmatch.other, hmatch.sweep]
        exact sub_eq_of_eq_add (hwalk.trans (by rw [hempty, add_zero])).symm
  refine processLimitOrder_rule h (fun _ _ ↦ h.addOrder hfresh) hmatched fun _ _ ↦ hmatched.addOrder ?_
  have hid : (e.matchOrder clock order book).1.order.orderID = order.orderID := by
    rw [hmatch.sweep]
    exact (Sweep.walk_terms _ (e.sweepStart order)).1.orderID
  rw [hid]
  exact fun hmem ↦ hfresh (hids.subset hmem)

theorem EachBook.measured_placeOrder (clock : ℕ → ℤ) (h : e.EachBook fun _ book ↦ book.Measured)
    (hnone : e.Accepts order → e.TakesNothing order) :
    (e.placeOrder clock order).1.EachBook fun _ book ↦ book.Measured := by
  refine h.placeOrder .new order fun haccepts hbook ↦ ?_
  have hfresh := OrderBookDirect.hasOrder_eq_false_iff.mp haccepts.fresh
  have hopened : e.TakesNothing order.opened := hnone haccepts
  exact measured_processLimitOrder hbook hfresh hopened

end Engine

/-! ## Sessions -/

/-- No order that is placed or amended by the call, and accepted, comes to a quantity of another user. -/
def Call.TakesNothing (e : Engine) : Call → Prop
  | .place order => e.Accepts order → e.TakesNothing order
  | .amend original newPrice newQty _ => ∀ e' order, e.Amends original newPrice newQty e' order →
      e'.Accepts order → e'.TakesNothing order
  | .cancel .. => True
  | .restore _ => True

namespace Session

/-- **Published depth is real depth** in every state that calls reach from an empty engine, if none of them makes an
order come to a quantity of another user. -/
theorem depth_real (clock : ℕ → ℤ) (sequence : ℕ) (run : List Call)
    (hnone : ∀ t call t', Takes (step clock) (start sequence) run t call t' → call.TakesNothing t.engine) :
    ∀ t, Visits (step clock) (start sequence) run t → t.engine.EachBook fun _ book ↦ book.DepthReal := by
  have hremove : Engine.EachBook.KeptByRemoval fun _ book ↦ book.Measured :=
    fun _ book o copy hbook hmem hterms hfilled ↦ hbook.removeDirectOrder hmem hterms hfilled
  have hmeasured : ∀ t, Visits (step clock) (start sequence) run t →
      t.engine.EachBook fun _ book ↦ book.Measured := by
    refine visits_induction (.new _ sequence) fun t call t' htake h ↦ ?_
    have hstep := htake.step_eq
    have hcall := hnone t call t' htake
    cases call with
    | place order =>
      obtain rfl := Option.some_inj.mp hstep
      exact h.measured_placeOrder clock hcall
    | cancel orders reason nowMillis =>
      obtain rfl := Option.some_inj.mp hstep
      exact h.cancelOrders hremove orders reason nowMillis
    | amend original newPrice newQty nowMillis =>
      obtain rfl := Option.some_inj.mp hstep
      refine h.amendOrder hremove original newPrice newQty nowMillis fun e' order hamends h' ↦ ?_
      exact h'.measured_placeOrder clock (hcall e' order hamends)
    | restore order =>
      obtain rfl := Option.some_inj.mp hstep
      refine h.restoreOrder .new order fun status hfresh hbook ↦ hbook.addOrder ?_
      exact OrderBookDirect.hasOrder_eq_false_iff.mp hfresh
  exact fun t ht key book hbook ↦ (hmeasured t ht key book hbook).depthReal

/-- An ask, a lower bid of another user, and the ask again with a larger quantity. -/
def quotes : List Call := [.place (sampleOrder "1" 1 .sell 50 10), .place (sampleOrder "2" 2 .buy 40 4),
    .cancel [sampleOrder "1" 1 .sell 50 10] .marketClosed 0, .place (sampleOrder "3" 1 .sell 50 12)]

/-- Nothing is traded, and the depth is real to the end. -/
theorem depth_real_quotes :
    ∃ t, exec (step fun _ ↦ 0) (start 0) quotes = some t ∧ t.engine.EachBook fun _ book ↦ book.DepthReal := by
  have hnone : Along (step fun _ ↦ 0) (fun t call ↦ call.TakesNothing t.engine) (start 0) quotes := by
    refine ⟨fun _ ↦ by decide, fun s hs ↦ ?_⟩
    obtain rfl := Option.some_inj.mp hs
    refine ⟨fun _ ↦ by decide, fun s hs ↦ ?_⟩
    obtain rfl := Option.some_inj.mp hs
    refine ⟨trivial, fun s hs ↦ ?_⟩
    obtain rfl := Option.some_inj.mp hs
    exact ⟨fun _ ↦ by decide, fun s _ ↦ trivial⟩
  refine ⟨_, rfl, depth_real _ 0 quotes (fun t call t' htake ↦ hnone.of_takes htake) _ (visits_of_exec rfl)⟩

/-- **A fill that the depth does not show.** -/
theorem depth_of_filled : ∃ t book, exec (step fun _ ↦ 0) (start 0)
        [.place (sampleOrder "1" 1 .sell 50 10), .place (sampleOrder "2" 2 .buy 50 4)] = some t ∧
      t.engine.books.lookup "7:YES" = some book ∧ (book.snapshot 5).asks = [⟨50, 10⟩] ∧
      depth 50 book.asks.orders = 6 ∧ ¬ book.DepthReal := by
  refine ⟨_, _, rfl, rfl, by decide, by decide, fun h ↦ ?_⟩
  have hlevel := (h 5).2 ⟨50, 10⟩ (by decide)
  exact absurd hlevel (by decide)

end Session

end FunnyOption.Matching
