import FunnyOption.Matching.Calls
import FunnyOption.Matching.Descent

/-!
# What trades fill

The filled quantity of an order is kept in two places: in the incoming order, which the match changes
and returns, and in the resting orders, which it changes in the book and returns copies of. The trades
are a third record. `Filled` connects them: an order is what trades have made of an earlier version of
it if its terms are the same and exactly the quantities of the trades that name it were added.

Versions compose, `Filled.trans`: a version after some trades and a version of that after others give
a version after all of them. So it is enough to know what one operation does. For `PlaceOrder` that is
`fills_placeOrder`, which rests on the loop invariant `Sweep.Filling`; the orders that a match has
not reached are not named by its trades.
-/

open Foundation

namespace FunnyOption.Matching

/-! ## Trades that name an order -/

/-- A trade names an order. -/
def Trade.Names (trade : Trade) (orderID : String) : Prop :=
  trade.takerOrderID = orderID ∨ trade.makerOrderID = orderID

instance (trade : Trade) (orderID : String) : Decidable (trade.Names orderID) := inferInstanceAs (Decidable (_ ∨ _))

/-- The quantity of the trades that name an order. -/
def filledBy (trades : List Trade) (orderID : String) : ℤ :=
  ((trades.filter (·.Names orderID)).map Trade.quantity).sum

theorem filledBy_append (trades trades' : List Trade) (orderID : String) :
    filledBy (trades ++ trades') orderID = filledBy trades orderID + filledBy trades' orderID := by
  simp only [filledBy, List.filter_append, List.map_append, List.sum_append]

theorem filledBy_singleton {trade : Trade} {orderID : String} (h : trade.Names orderID) :
    filledBy [trade] orderID = trade.quantity := by
  simp [filledBy, h]

theorem filledBy_eq_zero {trades : List Trade} {orderID : String} (h : ∀ trade ∈ trades, ¬ trade.Names orderID) :
    filledBy trades orderID = 0 := by
  have hnil : trades.filter (·.Names orderID) = [] := by simpa [List.filter_eq_nil_iff] using h
  rw [filledBy, hnil, List.map_nil, List.sum_nil]

/-- The second order is what the trades have made of the first. -/
structure Filled (trades : List Trade) (o o' : Order) : Prop where
  terms : Sweep.SameTerms o o'
  filled : o'.filledQuantity = o.filledQuantity + filledBy trades o.orderID
  bounded : o.filledQuantity ≤ o.quantity → o'.filledQuantity ≤ o.quantity

namespace Filled

variable {trades trades' : List Trade} {o o' o'' : Order}

theorem refl (h : ∀ trade ∈ trades, ¬ trade.Names o.orderID) : Filled trades o o :=
  ⟨.refl o, by rw [filledBy_eq_zero h, add_zero], id⟩

/-- A change that fills nothing. -/
theorem after (h : Filled trades o o') (hterms : Sweep.SameTerms o' o'')
    (hfilled : o''.filledQuantity = o'.filledQuantity) : Filled trades o o'' :=
  ⟨h.terms.trans hterms, hfilled.trans h.filled, fun hle ↦ hfilled.trans_le (h.bounded hle)⟩

/-- The same, before the trades. -/
theorem before (hterms : Sweep.SameTerms o o') (hfilled : o'.filledQuantity = o.filledQuantity)
    (h : Filled trades o' o'') : Filled trades o o'' := by
  refine ⟨hterms.trans h.terms, ?_, fun hle ↦ ?_⟩
  · rw [h.filled, hfilled, hterms.orderID]
  · rw [← hterms.quantity]
    exact h.bounded (by rwa [hfilled, hterms.quantity])

theorem trans (h : Filled trades o o') (h' : Filled trades' o' o'') : Filled (trades ++ trades') o o'' := by
  refine ⟨h.terms.trans h'.terms, ?_, fun hle ↦ ?_⟩
  · rw [h'.filled, h.filled, filledBy_append, h.terms.orderID, add_assoc]
  · rw [← h.terms.quantity]
    exact h'.bounded (by rw [h.terms.quantity]; exact h.bounded hle)

/-- Trades that do not name the order. -/
theorem append (h : Filled trades o o') (hnew : ∀ trade ∈ trades', ¬ trade.Names o.orderID) :
    Filled (trades ++ trades') o o' :=
  h.trans (.refl fun trade htrade ↦ by rw [h.terms.orderID]; exact hnew trade htrade)

/-- One more trade, of at most the remaining quantity. -/
theorem applyFill (h : Filled trades o o') {trade : Trade} (hnames : trade.Names o.orderID)
    (hpos : 0 < trade.quantity) (hle : trade.quantity ≤ o'.remainingQuantity) :
    Filled (trades ++ [trade]) o (o'.applyFill trade.quantity) := by
  refine ⟨h.terms.trans (Sweep.sameTerms_applyFill _ _), ?_, fun _ ↦ ?_⟩
  · rw [filledBy_append, filledBy_singleton hnames, ← add_assoc, ← h.filled]
    rfl
  · rw [← h.terms.quantity]
    simp only [Order.remainingQuantity] at hle
    simp only [Order.applyFill]
    split_ifs at hle <;> omega

end Filled

/-! ## The walk -/

/-- A trade of an incoming order with a resting order of another user, at a price that both accept. -/
structure Deals (bookKey : String) (order maker : Order) (trade : Trade) : Prop
    extends TradesWith order maker trade where
  bookKey : trade.bookKey = bookKey
  users : order.userID ≠ maker.userID
  crosses : order.crosses maker.price = true

theorem Deals.of_terms {bookKey : String} {order order' maker maker' : Order} {trade : Trade}
    (h : Deals bookKey order' maker' trade) (hterms : Sweep.SameTerms order order')
    (hmaker : Sweep.SameTerms maker maker') : Deals bookKey order maker trade where
  takerOrderID := h.takerOrderID.trans hterms.orderID
  makerOrderID := h.makerOrderID.trans hmaker.orderID
  takerUserID := h.takerUserID.trans hterms.userID
  makerUserID := h.makerUserID.trans hmaker.userID
  takerSide := h.takerSide.trans hterms.side
  tradeID := h.tradeID
  price := h.price.trans hmaker.price
  quantity := h.quantity
  bookKey := h.bookKey
  users := by
    rw [← hterms.userID, ← hmaker.userID]
    exact h.users
  crosses := by
    rw [← hterms.crosses, ← hmaker.price]
    exact h.crosses

namespace Sweep

variable {clock : ℕ → ℤ} {bookKey : String} {order maker : Order} {makers kept rest : List Order}
  {sw : Sweep} {stays : Option Order}

/-- What a walk over `makers` has filled so far: the trades make the versions of the orders it has
passed, and do not name those to come. -/
structure Filling (bookKey : String) (order : Order) (makers : List Order) (sw : Sweep)
    (kept rest : List Order) : Prop where
  incoming : Filled sw.trades order sw.order
  left : ∀ o ∈ kept, ∃ maker ∈ makers, Filled sw.trades maker o
  affected : ∀ o ∈ sw.affected, ∃ maker ∈ makers, Filled sw.trades maker o
  trades : ∀ trade ∈ sw.trades, ∃ maker ∈ makers, Deals bookKey order maker trade ∧
    ∃ o ∈ sw.affected, o.orderID = maker.orderID
  fresh : ∀ maker ∈ rest, maker ∈ makers ∧ ∀ o ∈ sw.affected, o.orderID ≠ maker.orderID
  others : ∀ maker ∈ makers, maker.orderID ≠ order.orderID
  ahead : ∀ maker ∈ rest, ∀ o ∈ kept, o.orderID ≠ maker.orderID
  apart : (rest.map Order.orderID).Nodup

namespace Filling

/-- The trades so far do not name the next order. -/
theorem not_names (h : Filling bookKey order makers sw kept (maker :: rest)) :
    ∀ trade ∈ sw.trades, ¬ trade.Names maker.orderID := by
  obtain ⟨hmem, hfresh⟩ := h.fresh maker List.mem_cons_self
  intro trade htrade hnames
  obtain ⟨m, hm, hdeals, o, ho, heq⟩ := h.trades trade htrade
  rcases hnames with hname | hname
  · exact h.others maker hmem (hname.symm.trans hdeals.takerOrderID)
  · exact hfresh o ho (heq.trans (hdeals.makerOrderID.symm.trans hname))

/-- The orders to come are other orders than the next one. -/
theorem ne_of_mem (h : Filling bookKey order makers sw kept (maker :: rest)) :
    ∀ m ∈ rest, maker.orderID ≠ m.orderID := by
  intro m hm heq
  have hapart := h.apart
  rw [List.map_cons, List.nodup_cons] at hapart
  exact hapart.1 (heq ▸ List.mem_map_of_mem hm)

/-- The next order is returned, and the orders to come are still others. -/
theorem fresh_next (h : Filling bookKey order makers sw kept (maker :: rest)) {o : Order}
    (ho : o.orderID = maker.orderID) : ∀ m ∈ rest, m ∈ makers ∧ ∀ x ∈ sw.affected ++ [o], x.orderID ≠ m.orderID := by
  intro m hm
  obtain ⟨hmem, hfresh⟩ := h.fresh m (List.mem_cons_of_mem maker hm)
  exact ⟨hmem, List.forall_mem_append.mpr ⟨hfresh, List.forall_mem_singleton.mpr (ho ▸ h.ne_of_mem m hm)⟩⟩

/-- The next order is passed. -/
theorem pass (h : Filling bookKey order makers sw kept (maker :: rest)) :
    Filling bookKey order makers sw (kept ++ [maker]) rest := by
  refine { h with
    left := List.forall_mem_append.mpr ⟨h.left, List.forall_mem_singleton.mpr ?_⟩
    fresh := (List.forall_mem_cons.mp h.fresh).2
    ahead := fun m hm ↦ List.forall_mem_append.mpr
      ⟨h.ahead m (List.mem_cons_of_mem maker hm), List.forall_mem_singleton.mpr (h.ne_of_mem m hm)⟩
    apart := (List.nodup_cons.mp h.apart).2 }
  exact ⟨maker, (h.fresh maker List.mem_cons_self).1, .refl h.not_names⟩

theorem cancelTaker (h : Filling bookKey order makers sw kept rest) (reason : CancelReason) :
    Filling bookKey order makers (sw.cancelTaker reason) kept rest :=
  { h with incoming := h.incoming.after (sameTerms_cancel _ _) rfl }

/-- The next order is cancelled. -/
theorem cancelMaker (h : Filling bookKey order makers sw kept (maker :: rest)) (reason : CancelReason) :
    Filling bookKey order makers (sw.cancelMaker maker reason) kept rest := by
  refine { h with
    affected := List.forall_mem_append.mpr ⟨h.affected, List.forall_mem_singleton.mpr ?_⟩
    trades := fun trade htrade ↦ ?_
    fresh := h.fresh_next rfl
    ahead := (List.forall_mem_cons.mp h.ahead).2
    apart := (List.nodup_cons.mp h.apart).2 }
  · exact ⟨maker, (h.fresh maker List.mem_cons_self).1, (Filled.refl h.not_names).after (sameTerms_cancel _ _) rfl⟩
  · obtain ⟨m, hm, hdeals, o, ho, heq⟩ := h.trades trade htrade
    exact ⟨m, hm, hdeals, o, List.mem_append_left _ ho, heq⟩

/-- The next order is traded with, and stays or goes. -/
theorem recordTrade (h : Filling bookKey order makers sw kept (maker :: rest))
    (hcross : sw.order.crosses maker.price = true) (hother : sw.order.userID ≠ maker.userID) {qty : ℤ}
    (hpos : 0 < qty) (hqty : qty = min sw.order.remainingQuantity maker.remainingQuantity) 
    (hstays : ∀ o ∈ stays, o = maker.applyFill qty) :
    Filling bookKey order makers (sw.recordTrade clock bookKey maker qty) (kept ++ stays.toList) rest := by
  obtain ⟨hmem, hfresh⟩ := h.fresh maker List.mem_cons_self
  have hterms := h.incoming.terms
  have hle : qty ≤ sw.order.remainingQuantity ∧ qty ≤ maker.remainingQuantity := by omega
  have hmaker : Filled (sw.trades ++ [sw.tradeWith clock bookKey maker qty]) maker (maker.applyFill qty) :=
    (Filled.refl h.not_names).applyFill (.inr rfl) hpos hle.2
  -- the new trade names no order that was passed before
  have hold : ∀ o m, m ∈ makers → o.orderID ≠ maker.orderID → Filled sw.trades m o →
      Filled (sw.trades ++ [sw.tradeWith clock bookKey maker qty]) m o := by
    intro o m hm hne hfilled
    refine hfilled.append fun trade htrade hnames ↦ ?_
    rw [List.mem_singleton.mp htrade] at hnames
    rcases hnames with hname | hname
    · exact h.others m hm (hname.symm.trans hterms.orderID)
    · exact hne (hfilled.terms.orderID.trans hname.symm)
  refine { h with
    incoming := h.incoming.applyFill (.inl hterms.orderID) hpos hle.1
    left := List.forall_mem_append.mpr ⟨fun o ho ↦ ?_, fun o ho ↦ ?_⟩
    affected := List.forall_mem_append.mpr ⟨fun o ho ↦ ?_, List.forall_mem_singleton.mpr ⟨maker, hmem, hmaker⟩⟩
    trades := List.forall_mem_append.mpr ⟨fun trade htrade ↦ ?_, List.forall_mem_singleton.mpr ?_⟩
    fresh := h.fresh_next rfl
    ahead := fun m hm ↦ List.forall_mem_append.mpr ⟨h.ahead m (List.mem_cons_of_mem maker hm), fun o ho ↦ ?_⟩
    apart := (List.nodup_cons.mp h.apart).2 }
  · obtain ⟨m, hm, hfilled⟩ := h.left o ho
    exact ⟨m, hm, hold o m hm (h.ahead maker List.mem_cons_self o ho) hfilled⟩
  · rw [hstays o (Option.mem_toList.mp ho)]
    exact ⟨maker, hmem, hmaker⟩
  · obtain ⟨m, hm, hfilled⟩ := h.affected o ho
    exact ⟨m, hm, hold o m hm (hfresh o ho) hfilled⟩
  · obtain ⟨m, hm, hdeals, o, ho, heq⟩ := h.trades trade htrade
    exact ⟨m, hm, hdeals, o, List.mem_append_left _ ho, heq⟩
  · refine ⟨maker, hmem, ⟨⟨hterms.orderID, rfl, hterms.userID, rfl, hterms.side, ⟨_, rfl⟩, rfl, hpos⟩, rfl,
      ?_, ?_⟩, maker.applyFill qty, List.mem_append_right _ List.mem_cons_self, rfl⟩
    · rwa [← hterms.userID]
    · rwa [← hterms.crosses]
  · rw [hstays o (Option.mem_toList.mp ho)]
    exact h.ne_of_mem m hm

end Filling

/-- **What a walk fills.** -/
theorem filling_walk (clock : ℕ → ℤ) (bookKey : String) (makers : List Order) (sw : Sweep)
    (haffected : sw.affected = []) (htrades : sw.trades = []) (hids : (makers.map Order.orderID).Nodup)
    (hothers : ∀ maker ∈ makers, maker.orderID ≠ sw.order.orderID) :
    Filling bookKey sw.order makers (sw.walk clock bookKey makers).1 (sw.walk clock bookKey makers).2 [] := by
  have hstart : Filling bookKey sw.order makers sw [] makers :=
    ⟨.refl (by simp [htrades]), by simp, by simp [haffected], by simp [htrades],
      fun maker hm ↦ ⟨hm, by simp [haffected]⟩, hothers, by simp, hids⟩
  have hkept : KeptByWalk clock bookKey (Filling bookKey sw.order makers) :=
    ⟨.pass, fun reason h ↦ h.cancelTaker reason, fun reason h ↦ h.cancelMaker reason,
      fun h hcross hother ↦ h.recordTrade hcross hother, fun _ h ↦ { h with }⟩
  exact hkept.walk makers sw hstart

end Sweep

/-! ## The books -/

/-- A well-formed book of orders that belong into it. -/
structure Filed (key : String) (book : OrderBookDirect) : Prop where
  wellFormed : book.WellFormed
  key_eq : book.key = key
  orders : ∀ o ∈ book.orders, o.bookKey = key

variable {order : Order} {key : String} {book : OrderBookDirect}

theorem Filed.new (key : String) : Filed key (.new key) :=
  ⟨.new key, rfl, by simp [OrderBookDirect.new, OrderBookDirect.orders, BookSide.orders, BookSide.empty]⟩

theorem Filed.removeDirectOrder (h : Filed key book) (order : Order) : Filed key (book.removeDirectOrder order) := by
  refine ⟨h.wellFormed.removeDirectOrder, ?_, fun o ho ↦ ?_⟩
  · rw [OrderBookDirect.removeDirectOrder, OrderBookDirect.key_setSide]
    exact h.key_eq
  · exact h.orders o ((book.removeDirectOrder_subperm order).subset ho)

theorem Filed.addOrder (h : Filed key book) (hkey : order.bookKey = key) : Filed key (book.addOrder order) := by
  refine ⟨h.wellFormed.addOrder, ?_, fun o ho ↦ ?_⟩
  · rw [OrderBookDirect.addOrder, OrderBookDirect.key_setSide]
    exact h.key_eq
  · rcases List.mem_cons.mp ((OrderBookDirect.perm_addOrder book order).mem_iff.mp ho) with rfl | ho
    · exact hkey
    · exact h.orders o ho

namespace Engine

variable {clock : ℕ → ℤ} {e e' : Engine}

theorem EachBook.wellFormed (h : e.EachBook Filed) : e.WellFormed :=
  fun key book hbook ↦ ⟨(h key book hbook).wellFormed, (h key book hbook).key_eq⟩

/-- Processing an order files it under its key, if it rests. -/
theorem EachBook.filed_processLimitOrder (clock : ℕ → ℤ) (h : e.EachBook Filed) (order : Order) : Filed order.bookKey
      (e.processLimitOrder clock order.opened (e.getOrCreateBook order.bookKey)).2 := by
  have hbook := h.getOrCreateBook .new order.bookKey
  obtain ⟨met, rest, final, rests, hp⟩ := exists_processedBook clock h.wellFormed order.opened
  refine ⟨hp.wellFormed, hp.key, fun o ho ↦ ?_⟩
  have hwalk : Sweep.SameTerms order.opened (e.walked clock order.opened met).1.order ∧
      ∀ o ∈ (e.walked clock order.opened met).2, ∃ maker ∈ met, Sweep.SameTerms maker o :=
    Sweep.walk_terms met (e.sweepStart order.opened)
  have hbefore : ∀ o ∈ met ++ rest, o.bookKey = order.bookKey :=
    fun o ho ↦ hbook.orders o (hp.before.mem_iff.mpr ho)
  rcases resting_cases (hp.after.mem_iff.mp ho) with ho | ho | rfl
  · obtain ⟨maker, hmaker, hterms⟩ := hwalk.2 o ho
    rw [hterms.bookKey_eq]
    exact hbefore maker (List.mem_append_left _ hmaker)
  · exact hbefore o (List.mem_append_right _ ho)
  · exact hwalk.1.bookKey_eq

theorem EachBook.filed_placeOrder (clock : ℕ → ℤ) (h : e.EachBook Filed) (order : Order) :
    (e.placeOrder clock order).1.EachBook Filed :=
  h.placeOrder .new order fun _ _ ↦ h.filed_processLimitOrder clock order

theorem EachBook.filed_cancelOrders (h : e.EachBook Filed) (orders : List Order) (reason : CancelReason)
    (nowMillis : ℤ) : (e.cancelOrders orders reason nowMillis).1.EachBook Filed :=
  h.cancelOrders (fun _ _ _ copy hbook _ _ _ ↦ hbook.removeDirectOrder copy) orders reason nowMillis

theorem EachBook.filed_restoreOrder (h : e.EachBook Filed) (order : Order) :
    (e.restoreOrder order).1.EachBook Filed :=
  h.restoreOrder .new order fun _ _ hbook ↦ hbook.addOrder rfl

/-- A resting order that an incoming order can meet is in the book of that order. -/
theorem EachBook.mem_makers (h : e.EachBook Filed) {maker : Order} (hmaker : maker ∈ e.makers order) :
    maker ∈ e.restingOrders ∧ maker.bookKey = order.bookKey := by
  have hbook := h.getOrCreateBook .new order.bookKey
  have hmem : maker ∈ (e.getOrCreateBook order.bookKey).orders :=
    (OrderBookDirect.perm_orders _ order.side).mem_iff.mpr (List.mem_append_right _ hmaker)
  exact ⟨(perm_restingOrders e order.bookKey).mem_iff.mpr (List.mem_append_left _ hmem), hbook.orders maker hmem⟩

/-! ## Placing an order -/

/-- What an operation with the incoming order `order` fills. -/
structure Fills (e : Engine) (order : Order) (e' : Engine) (result : Result) : Prop where
  incoming : ∃ o, result.order = some o ∧ Filled result.trades order o
  affected : ∀ o ∈ result.affected, ∃ maker ∈ e.restingOrders, Filled result.trades maker o
  resting : ∀ o ∈ e'.restingOrders, Filled result.trades order o ∨
    ∃ maker ∈ e.restingOrders, Filled result.trades maker o
  trades : ∀ trade ∈ result.trades, ∃ maker ∈ e.makers order, Deals order.bookKey order maker trade ∧
    ∃ o ∈ result.affected, o.orderID = maker.orderID

variable {met rest : List Order} {final : Order} {rests : Bool} {result : Result}

theorem met_subset_makers (h : Outcome clock e order met final rests) : ∀ maker ∈ met, maker ∈ e.makers order := by
  cases h with
  | refused | posted => simp
  | filled | prevented | expired | rests | stranded => exact fun _ h ↦ h

/-- However an order ends, nothing is filled after the walk. -/
theorem filledQuantity_of_outcome (h : Outcome clock e order met final rests) :
    final.filledQuantity = (e.walked clock order met).1.order.filledQuantity := by
  cases h <;> rfl

theorem Placement.fills (h : Placement clock e order met rest final rests e' result)
    (hids : (e.restingOrders.map Order.orderID).Nodup) (hfresh : order.orderID ∉ e.restingOrders.map Order.orderID) :
    Fills e order e' result := by
  have hmem : ∀ o ∈ met ++ rest, o ∈ e.restingOrders := fun o ho ↦ h.before.mem_iff.mpr ho
  have hids' : ((met ++ rest).map Order.orderID).Nodup := (h.before.map _).nodup_iff.mp hids
  rw [List.map_append, List.nodup_append] at hids'
  have hothers : ∀ o ∈ met ++ rest, o.orderID ≠ order.orderID :=
    fun o ho heq ↦ hfresh (heq ▸ List.mem_map_of_mem (hmem o ho))
  have hwalk := Sweep.filling_walk clock order.bookKey met (e.sweepStart order) rfl rfl hids'.1
    fun maker hm ↦ hothers maker (List.mem_append_left _ hm)
  -- the trades name the incoming order and orders it met
  have hrest : ∀ o ∈ rest, Filled result.trades o o := by
    intro o ho
    refine .refl fun trade htrade hnames ↦ ?_
    rw [h.trades] at htrade
    obtain ⟨maker, hmaker, hdeals, -⟩ := hwalk.trades trade htrade
    rcases hnames with hname | hname
    · exact hothers o (List.mem_append_right _ ho) (hname.symm.trans hdeals.takerOrderID)
    · exact hids'.2.2 _ (List.mem_map_of_mem hmaker) _ (List.mem_map_of_mem ho)
        (hdeals.makerOrderID.symm.trans hname)
  refine ⟨⟨final, h.returned, ?_⟩, fun o ho ↦ ?_, fun o ho ↦ ?_, fun trade htrade ↦ ?_⟩
  · rw [h.trades]
    exact hwalk.incoming.after (derives_of_outcome h.outcome).terms (filledQuantity_of_outcome h.outcome)
  · rw [h.affected] at ho
    obtain ⟨maker, hmaker, hfilled⟩ := hwalk.affected o ho
    rw [h.trades]
    exact ⟨maker, hmem maker (List.mem_append_left _ hmaker), hfilled⟩
  · rcases resting_cases (h.after.mem_iff.mp ho) with ho | ho | rfl
    · obtain ⟨maker, hmaker, hfilled⟩ := hwalk.left o ho
      rw [h.trades]
      exact .inr ⟨maker, hmem maker (List.mem_append_left _ hmaker), hfilled⟩
    · exact .inr ⟨o, hmem o (List.mem_append_right _ ho), hrest o ho⟩
    · rw [h.trades]
      exact .inl hwalk.incoming
  · rw [h.trades] at htrade
    obtain ⟨maker, hmaker, hdeals, hreturned⟩ := hwalk.trades trade htrade
    rw [h.affected]
    exact ⟨maker, met_subset_makers h.outcome maker hmaker, hdeals, hreturned⟩

/-- **What `PlaceOrder` fills.** -/
theorem fills_placeOrder (clock : ℕ → ℤ) (h : e.WellFormed) (hids : (e.restingOrders.map Order.orderID).Nodup)
    (hfresh : order.orderID ∉ e.restingOrders.map Order.orderID) :
    Fills e order (e.placeOrder clock order).1 (e.placeOrder clock order).2.1 := by
  rcases placeOrder_cases clock h order with
    ⟨-, -, ⟨o, ho, hresult⟩, hperm, -, -⟩ | ⟨-, met, rest, final, rests, hp⟩
  · have hsame : Filled [] order (o.reject .validationFailed) := by
      rcases List.mem_pair.mp ho with rfl | rfl
      · exact ⟨by constructor <;> rfl, by simp [filledBy, Order.reject], id⟩
      · exact ⟨by constructor <;> rfl, by simp [filledBy, Order.reject, Order.opened], id⟩
    rw [hresult]
    refine ⟨⟨_, rfl, hsame⟩, by simp [rejection], fun o' ho' ↦ ?_, by simp [rejection]⟩
    exact .inr ⟨o', hperm.mem_iff.mp ho', .refl (by simp [rejection])⟩
  · obtain ⟨⟨o, hreturned, hfilled⟩, haffected, hresting, htrades⟩ := hp.fills hids hfresh
    have hopened : ∀ {o}, Filled _ order.opened o → Filled (e.placeOrder clock order).2.1.trades order o :=
      fun hfilled ↦ hfilled.before (Derives.opened order).terms rfl
    refine ⟨⟨o, hreturned, hopened hfilled⟩, haffected, fun o ho ↦ (hresting o ho).imp_left hopened,
      fun trade htrade ↦ ?_⟩
    obtain ⟨maker, hmaker, hdeals, hreturned⟩ := htrades trade htrade
    exact ⟨maker, hmaker, hdeals.of_terms (Derives.opened order).terms (.refl maker), hreturned⟩

end Engine

/-- The books of a session are filed under their keys. -/
theorem Session.filed_of_visits {clock : ℕ → ℤ} {sequence : ℕ} {run : List Call} {t : Session}
    (h : Visits (step clock) (start sequence) run t) : t.engine.EachBook Filed := by
  refine visits_induction (P := fun t : Session ↦ t.engine.EachBook Filed) (.new Filed sequence)
    (fun s call s' htake hs ↦ ?_) t h
  have hstep := htake.step_eq
  cases call with
  | place order =>
    obtain rfl := Option.some_inj.mp hstep
    exact hs.filed_placeOrder clock order
  | cancel orders reason nowMillis =>
    obtain rfl := Option.some_inj.mp hstep
    exact hs.filed_cancelOrders orders reason nowMillis
  | amend original newPrice newQty nowMillis =>
    obtain rfl := Option.some_inj.mp hstep
    refine hs.amendOrder (fun _ _ _ copy hbook _ _ _ ↦ hbook.removeDirectOrder copy) original newPrice newQty
      nowMillis fun e' order _ h' ↦ ?_
    exact h'.filed_placeOrder clock order
  | restore order =>
    obtain rfl := Option.some_inj.mp hstep
    exact hs.filed_restoreOrder order

/-! ## Self-trades -/

/-- A trade of some quantity between two users. -/
def Trade.Apart (trade : Trade) : Prop := trade.takerUserID ≠ trade.makerUserID ∧ 0 < trade.quantity

theorem Engine.EachBook.apart_placeOrder {e : Engine} (h : e.EachBook Filed) (clock : ℕ → ℤ) (order : Order) :
    ∀ trade ∈ (e.placeOrder clock order).2.1.trades, trade.Apart := by
  rcases placeOrder_cases clock h.wellFormed order with ⟨-, -, ⟨o, -, heq⟩, -⟩ | ⟨-, met, rest, final, rests, hp⟩
  · simp [heq, rejection]
  · have hkept : Sweep.KeptByWalk clock order.bookKey fun sw _ _ ↦ ∀ trade ∈ sw.trades, trade.Apart :=
      ⟨id, fun _ h ↦ h, fun _ h ↦ h, fun h _ hother hpos _ _ ↦
        List.forall_mem_append.mpr ⟨h, List.forall_mem_singleton.mpr ⟨hother, hpos⟩⟩, fun _ h ↦ h⟩
    rw [hp.trades]
    exact hkept.walk met _ (by simp [sweepStart])

/-- **No user trades with themselves**, whatever orders are placed, cancelled, amended and restored, and whatever ids
are used again. -/
theorem Session.users_apart (clock : ℕ → ℤ) (sequence : ℕ) (run : List Call) :
    ∃ t, exec (step clock) (start sequence) run = some t ∧ ∀ trade ∈ t.trades, trade.Apart := by
  induction run using List.reverseRecOn with
  | nil => exact ⟨_, rfl, by simp [start]⟩
  | append_singleton run call ih =>
    obtain ⟨s, hs, htrades⟩ := ih
    have hfiled := filed_of_visits (visits_of_exec hs)
    rw [exec_append_singleton, hs, Option.bind_some]
    cases call with
    | place order => exact ⟨_, rfl, List.forall_mem_append.mpr ⟨htrades, hfiled.apart_placeOrder clock order⟩⟩
    | cancel | restore => exact ⟨_, rfl, htrades⟩
    | amend original newPrice newQty nowMillis =>
      refine ⟨_, rfl, List.forall_mem_append.mpr ⟨htrades, ?_⟩⟩
      rw [Engine.amendOrder]
      split
      · simp
      · next book hbook =>
        split
        · simp
        · split_ifs
          · simp
          · have hremoved := (hfiled _ book hbook).removeDirectOrder
            exact (hfiled.insert (hremoved _) _ _).apart_placeOrder clock _

end FunnyOption.Matching
