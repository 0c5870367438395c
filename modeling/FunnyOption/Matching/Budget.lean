import FunnyOption.Matching.FillAccounting

/-!
# The budget of an order

What is left to fill of an order, in the incoming order and in the resting orders of its book, goes down by every
trade that names the order, and nothing but a placement brings it up. Other orders may do what they like. The engine
knows an order by its book and its id; an id can come again in another book, and in the same book once the order that
had it has left.

The budget is kept by the walk over the resting orders (`Sweep.budget_walk`), so by a placed order
(`Engine.spends_placeOrder`). `BookHistory.effect_step` says what an event does to the resting orders and the
trades of a book engine, and `Within.step` that it keeps the budget of an order that rests.

## Main results

* `within_orderTrades`: the trades of a placed order fill at most its quantity, at prices within its limit and in
  its book, whatever else the book engine is told.
* `orderTrades_eq_filter`: if no other order is placed under its id, they are all trades that name it.
-/

open Foundation

namespace FunnyOption.Matching

/-! ## Orders of a book -/

/-- What the engine knows an order by: the key of its book, and its id. -/
abbrev OrderRef := String × String

/-- What the engine knows an order by. -/
def Order.ref (o : Order) : OrderRef := (o.bookKey, o.orderID)

/-- A trade names an order. -/
def Trade.NamesIn (trade : Trade) (ref : OrderRef) : Prop := trade.bookKey = ref.1 ∧ trade.Names ref.2

instance (trade : Trade) (ref : OrderRef) : Decidable (trade.NamesIn ref) := inferInstanceAs (Decidable (_ ∧ _))

theorem Sweep.SameTerms.ref_eq {o o' : Order} (h : SameTerms o o') :
    o'.ref = o.ref := Prod.ext h.bookKey_eq h.orderID

/-- The quantity of the trades that name an order. -/
def filledIn (trades : List Trade) (ref : OrderRef) : ℤ := ((trades.filter (·.NamesIn ref)).map Trade.quantity).sum

theorem filledIn_append (trades trades' : List Trade) (ref : OrderRef) :
    filledIn (trades ++ trades') ref = filledIn trades ref + filledIn trades' ref := by
  simp only [filledIn, List.filter_append, List.map_append, List.sum_append]

/-- What is left to fill of an order among some orders. -/
def openQuantity (ref : OrderRef) (orders : List Order) : ℤ :=
  ((orders.filter (·.ref = ref)).map Order.remainingQuantity).sum

variable {ref : OrderRef} {orders orders' : List Order} {o : Order}

theorem openQuantity_append (ref : OrderRef) (orders orders' : List Order) :
    openQuantity ref (orders ++ orders') = openQuantity ref orders + openQuantity ref orders' := by
  simp only [openQuantity, List.filter_append, List.map_append, List.sum_append]

theorem openQuantity_cons (ref : OrderRef) (o : Order) (orders : List Order) :
    openQuantity ref (o :: orders) = openQuantity ref [o] + openQuantity ref orders :=
  openQuantity_append ref [o] orders

theorem openQuantity_of_ne (h : o.ref ≠ ref) : openQuantity ref [o] = 0 := by
  simp [openQuantity, h]

theorem openQuantity_of_eq (h : o.ref = ref) : openQuantity ref [o] = o.remainingQuantity := by
  simp [openQuantity, h]

theorem openQuantity_nonneg (ref : OrderRef) (orders : List Order) : 0 ≤ openQuantity ref orders := by
  refine List.sum_nonneg fun q hq ↦ ?_
  obtain ⟨o, -, rfl⟩ := List.mem_map.mp hq
  exact o.remainingQuantity_nonneg

theorem openQuantity_perm (ref : OrderRef) (h : orders.Perm orders') :
    openQuantity ref orders = openQuantity ref orders' :=
  ((h.filter _).map _).sum_eq

theorem openQuantity_eq_zero (h : ∀ o ∈ orders, o.ref ≠ ref) : openQuantity ref orders = 0 := by
  have hnil : orders.filter (·.ref = ref) = [] := by simpa [List.filter_eq_nil_iff] using h
  rw [openQuantity, hnil, List.map_nil, List.sum_nil]

/-- Fewer orders have less to fill. -/
theorem openQuantity_subperm (ref : OrderRef) (h : orders.Subperm orders') :
    openQuantity ref orders ≤ openQuantity ref orders' := by
  obtain ⟨l, hperm, hsub⟩ := h
  rw [← openQuantity_perm ref hperm]
  refine List.Sublist.sum_le_sum ((hsub.filter _).map _) fun q hq ↦ ?_
  obtain ⟨o, -, rfl⟩ := List.mem_map.mp hq
  exact o.remainingQuantity_nonneg

/-- An order with the same id and no more to fill. -/
theorem openQuantity_singleton_le {o' : Order} (href : o'.ref = o.ref)
    (hle : o'.remainingQuantity ≤ o.remainingQuantity) : openQuantity ref [o'] ≤ openQuantity ref [o] := by
  by_cases heq : o.ref = ref
  · rw [openQuantity_of_eq heq, openQuantity_of_eq (href.trans heq)]
    exact hle
  · rw [openQuantity_of_ne heq, openQuantity_of_ne (href ▸ heq)]

/-- A trade takes what it fills off an order that it names. -/
theorem openQuantity_applyFill {qty : ℤ} (hpos : 0 < qty) (hle : qty ≤ o.remainingQuantity) (ref : OrderRef) :
    openQuantity ref [o.applyFill qty] = openQuantity ref [o] - if o.ref = ref then qty else 0 := by
  by_cases heq : o.ref = ref
  · rw [openQuantity_of_eq heq, openQuantity_of_eq (show (o.applyFill qty).ref = ref from heq), if_pos heq,
      o.remainingQuantity_applyFill hpos hle]
  · rw [openQuantity_of_ne heq, openQuantity_of_ne (show (o.applyFill qty).ref ≠ ref from heq), if_neg heq, sub_zero]

/-! ## The walk -/

/-- What the trades of an incoming order say: whom it trades with, at a price that it accepts, in its book. -/
structure Dealt (bookKey : String) (order maker : Order) (trade : Trade) : Prop where
  takerOrderID : trade.takerOrderID = order.orderID
  makerOrderID : trade.makerOrderID = maker.orderID
  marketID : trade.marketID = order.marketID
  outcome : trade.outcome = order.outcome
  bookKey : trade.bookKey = bookKey
  price : trade.price = maker.price
  crosses : order.crosses maker.price = true
  quantity : 0 < trade.quantity

namespace Sweep

variable {clock : ℕ → ℤ} {bookKey : String} {order maker : Order} {makers kept rest : List Order}
  {sw : Sweep} {stays : Option Order}

/-- What a trade fills is what it takes off the two orders, if both are in the book. -/
theorem filledIn_tradeWith (clock : ℕ → ℤ) (sw : Sweep) (maker : Order) {qty : ℤ} (hpos : 0 < qty)
    (htaker : sw.order.bookKey = bookKey) (hmaker : maker.bookKey = bookKey) (ref : OrderRef) :
    filledIn [sw.tradeWith clock bookKey maker qty] ref ≤
      (if sw.order.ref = ref then qty else 0) + if maker.ref = ref then qty else 0 := by
  have hnonneg (r : OrderRef) : 0 ≤ if r = ref then qty else 0 := by split_ifs <;> omega
  by_cases hnames : (sw.tradeWith clock bookKey maker qty).NamesIn ref
  · have hone : filledIn [sw.tradeWith clock bookKey maker qty] ref = qty := by
      simp only [filledIn, List.filter_cons, List.filter_nil, hnames, decide_true, if_true, List.map_cons,
        List.map_nil, List.sum_cons, List.sum_nil, add_zero]
      rfl
    rw [hone]
    obtain ⟨hkey, hname | hname⟩ := hnames
    · have href : sw.order.ref = ref := Prod.ext (htaker.trans hkey) hname
      rw [if_pos href]
      exact le_add_of_nonneg_right (hnonneg _)
    · have href : maker.ref = ref := Prod.ext (hmaker.trans hkey) hname
      rw [if_pos href]
      exact le_add_of_nonneg_left (hnonneg _)
  · have hnone : filledIn [sw.tradeWith clock bookKey maker qty] ref = 0 := by
      simp [filledIn, hnames]
    rw [hnone]
    exact add_nonneg (hnonneg _) (hnonneg _)

/-- What the trades of a walk have taken so far comes off what is left of an order id. -/
structure Budget (bookKey : String) (ref : OrderRef) (order : Order) (makers : List Order) (sw : Sweep)
    (kept rest : List Order) : Prop where
  terms : SameTerms order sw.order
  taker : order.bookKey = bookKey
  sameBook : ∀ maker ∈ makers, maker.bookKey = bookKey
  ahead : ∀ maker ∈ rest, maker ∈ makers
  spent : filledIn sw.trades ref + openQuantity ref (sw.order :: (kept ++ rest)) ≤ openQuantity ref (order :: makers)
  trades : ∀ trade ∈ sw.trades, ∃ maker ∈ makers, Dealt bookKey order maker trade

namespace Budget

theorem cancelTaker (h : Budget bookKey ref order makers sw kept rest) (reason : CancelReason) :
    Budget bookKey ref order makers (sw.cancelTaker reason) kept rest := by
  have hsame : openQuantity ref [sw.order.cancel reason] ≤ openQuantity ref [sw.order] :=
    openQuantity_singleton_le rfl le_rfl
  have hspent := h.spent
  rw [openQuantity_cons] at hspent
  refine { h with terms := h.terms.trans (sameTerms_cancel _ _), spent := ?_ }
  change filledIn sw.trades ref + openQuantity ref (sw.order.cancel reason :: (kept ++ rest)) ≤ _
  rw [openQuantity_cons]
  linarith

/-- The next order is passed. -/
theorem pass (h : Budget bookKey ref order makers sw kept (maker :: rest)) :
    Budget bookKey ref order makers sw (kept ++ [maker]) rest := by
  refine { h with ahead := (List.forall_mem_cons.mp h.ahead).2, spent := ?_ }
  rw [List.append_assoc, List.singleton_append]
  exact h.spent

/-- The next order is cancelled. -/
theorem cancelMaker (h : Budget bookKey ref order makers sw kept (maker :: rest)) (reason : CancelReason) :
    Budget bookKey ref order makers (sw.cancelMaker maker reason) kept rest := by
  refine { h with ahead := (List.forall_mem_cons.mp h.ahead).2, spent := ?_ }
  refine le_trans (add_le_add_right ?_ _) h.spent
  exact openQuantity_subperm ref
    (((List.sublist_cons_self maker rest).append_left kept).cons_cons sw.order).subperm

/-- The next order is traded with, and stays or goes. -/
theorem recordTrade (h : Budget bookKey ref order makers sw kept (maker :: rest))
    (hcross : sw.order.crosses maker.price = true) {qty : ℤ} (hpos : 0 < qty)
    (hqty : qty = min sw.order.remainingQuantity maker.remainingQuantity) 
    (hstays : ∀ o ∈ stays, o = maker.applyFill qty) :
    Budget bookKey ref order makers (sw.recordTrade clock bookKey maker qty) (kept ++ stays.toList) rest := by
  have hle : qty ≤ sw.order.remainingQuantity ∧ qty ≤ maker.remainingQuantity := by omega
  have hmem := h.ahead maker List.mem_cons_self
  refine { h with
    terms := h.terms.trans (sameTerms_applyFill _ _), ahead := (List.forall_mem_cons.mp h.ahead).2, spent := ?_,
    trades := List.forall_mem_append.mpr ⟨h.trades, List.forall_mem_singleton.mpr ?_⟩ }
  · have hspent := h.spent
    have hstayed : openQuantity ref stays.toList ≤ openQuantity ref [maker.applyFill qty] := by
      rcases stays with _ | o
      · exact openQuantity_nonneg ref _
      · rw [Option.toList_some, hstays o rfl]
    have htaker := openQuantity_applyFill hpos hle.1 ref
    have hmaker := openQuantity_applyFill hpos hle.2 ref
    have htrade := filledIn_tradeWith clock sw maker hpos (h.terms.bookKey_eq.trans h.taker) (h.sameBook maker hmem) ref
    change filledIn (sw.trades ++ [sw.tradeWith clock bookKey maker qty]) ref +
      openQuantity ref (sw.order.applyFill qty :: (kept ++ stays.toList ++ rest)) ≤ _
    rw [openQuantity_cons, openQuantity_append, openQuantity_cons ref maker rest] at hspent
    rw [filledIn_append, openQuantity_cons, openQuantity_append, openQuantity_append]
    linarith
  · refine ⟨maker, hmem, h.terms.orderID, rfl, h.terms.marketID, h.terms.outcome, rfl, rfl, ?_, hpos⟩
    rwa [← h.terms.crosses]

end Budget

/-- **A walk keeps the budget.** -/
theorem budget_walk (clock : ℕ → ℤ) (bookKey : String) (ref : OrderRef) (makers : List Order) (sw : Sweep)
    (htrades : sw.trades = []) (htaker : sw.order.bookKey = bookKey)
    (hmakers : ∀ maker ∈ makers, maker.bookKey = bookKey) :
    Budget bookKey ref sw.order makers (sw.walk clock bookKey makers).1 (sw.walk clock bookKey makers).2 [] := by
  have hstart : Budget bookKey ref sw.order makers sw [] makers :=
    ⟨.refl _, htaker, hmakers, fun _ hm ↦ hm, by simp [htrades, filledIn], by simp [htrades]⟩
  have hkept : KeptByWalk clock bookKey (Budget bookKey ref sw.order makers) :=
    ⟨.pass, fun reason h ↦ h.cancelTaker reason, fun reason h ↦ h.cancelMaker reason,
      fun h hcross _ ↦ h.recordTrade hcross, fun _ h ↦ { h with }⟩
  exact hkept.walk makers sw hstart

end Sweep

/-! ## Commands -/

namespace Engine

variable {clock : ℕ → ℤ} {e : Engine} {order : Order}

/-- A resting order is in the book of its key. -/
theorem EachBook.mem_book (h : e.EachBook Filed) {o : Order} (ho : o ∈ e.restingOrders) :
    o ∈ (e.getOrCreateBook o.bookKey).orders := by
  obtain ⟨entry, hentry, hmem⟩ := List.mem_flatMap.mp ho
  have hlookup : e.books.lookup entry.1 = some entry.2 := AList.mem_lookup_iff.mpr hentry
  rw [(h _ _ hlookup).orders o hmem, Engine.getOrCreateBook, hlookup]
  exact hmem

/-- What an accepted order does to the resting orders, and what its trades say. -/
structure Spends (e : Engine) (order : Order) (e' : Engine) (trades : List Trade) : Prop where
  fresh : ∀ o ∈ e.restingOrders, o.ref ≠ order.ref
  spent : ∀ ref, filledIn trades ref + openQuantity ref e'.restingOrders ≤ openQuantity ref (order :: e.restingOrders)
  resting : ∀ o ∈ e'.restingOrders, Sweep.SameTerms order o ∨ ∃ maker ∈ e.restingOrders, Sweep.SameTerms maker o
  deals : ∀ trade ∈ trades, ∃ maker ∈ e.restingOrders, maker.bookKey = order.bookKey ∧
    Dealt order.bookKey order maker trade

theorem Placement.spent {met rest : List Order} {final : Order} {rests : Bool} {e' : Engine} {result : Result}
    (h : Placement clock e order met rest final rests e' result) (hfiled : e.EachBook Filed) (ref : OrderRef) :
    filledIn result.trades ref + openQuantity ref e'.restingOrders ≤ openQuantity ref (order :: e.restingOrders) ∧
    ∀ trade ∈ result.trades, ∃ maker ∈ e.restingOrders, maker.bookKey = order.bookKey ∧
      Dealt order.bookKey order maker trade := by
  have hmet : ∀ maker ∈ met, maker ∈ e.restingOrders ∧ maker.bookKey = order.bookKey :=
    fun maker hm ↦ hfiled.mem_makers (met_subset_makers h.outcome maker hm)
  have hbudget := Sweep.budget_walk clock order.bookKey ref met (e.sweepStart order) rfl rfl
    fun maker hm ↦ (hmet maker hm).2
  refine ⟨?_, fun trade htrade ↦ ?_⟩
  · have hspent := hbudget.spent
    have hjoins : openQuantity ref (if rests then [(e.walked clock order met).1.order] else []) ≤
        openQuantity ref [(e.walked clock order met).1.order] := by
      cases rests with
      | false => exact openQuantity_nonneg ref _
      | true => exact le_refl _
    change filledIn (e.walked clock order met).1.trades ref +
      openQuantity ref ((e.walked clock order met).1.order :: ((e.walked clock order met).2 ++ [])) ≤
      openQuantity ref (order :: met) at hspent
    rw [h.trades, openQuantity_perm ref h.after, openQuantity_cons, openQuantity_perm ref h.before]
    rw [List.append_nil, openQuantity_cons, openQuantity_cons ref order] at hspent
    rw [openQuantity_append, openQuantity_append, openQuantity_append]
    linarith
  · rw [h.trades] at htrade
    obtain ⟨maker, hmaker, hdealt⟩ := hbudget.trades trade htrade
    obtain ⟨hresting, hkey⟩ := hmet maker hmaker
    exact ⟨maker, hresting, hkey, hdealt⟩

/-- **A placed order is rejected and changes nothing, or it keeps the budget of every order.** -/
theorem spends_placeOrder (clock : ℕ → ℤ) (h : e.EachBook Filed) (order : Order) :
    ((∃ error, (e.placeOrder clock order).2.2 = some error) ∧ (e.placeOrder clock order).2.1.trades = [] ∧
      (e.placeOrder clock order).1.restingOrders.Perm e.restingOrders) ∨
    ((e.placeOrder clock order).2.2 = none ∧
      Spends e order (e.placeOrder clock order).1 (e.placeOrder clock order).2.1.trades) := by
  have hdescent := descent_placeOrder clock h.wellFormed order
  rcases placeOrder_cases clock h.wellFormed order with
    ⟨-, herror, ⟨o, -, hresult⟩, hperm, -, -⟩ | ⟨haccepts, met, rest, final, rests, hp⟩
  · refine .inl ⟨herror, ?_, hperm⟩
    rw [hresult]
    rfl
  · -- the status that the order is opened with does not matter
    have hspends := fun ref ↦ hp.spent h ref
    have haccepted : (e.placeOrder clock order).2.2 = none := by
      simp only [placeOrder, haccepts.valid, haccepts.fresh, haccepts.limit, Bool.false_eq_true, if_false]
    refine .inr ⟨haccepted, fun o ho href ↦ ?_, fun ref ↦ ?_, fun o ho ↦ ?_, fun trade htrade ↦ ?_⟩
    · have hmem := h.mem_book ho
      rw [show o.bookKey = order.bookKey from congrArg Prod.fst href] at hmem
      have hhas : (e.getOrCreateBook order.bookKey).hasOrder order.orderID = true := by
        rw [OrderBookDirect.hasOrder, OrderBookDirect.getDirectOrder, List.find?_isSome]
        exact ⟨o, hmem, beq_iff_eq.mpr (congrArg Prod.snd href)⟩
      rw [haccepts.fresh] at hhas
      cases hhas
    · have hopened : openQuantity ref [order.opened] ≤ openQuantity ref [order] :=
        openQuantity_singleton_le rfl le_rfl
      refine (hspends ref).1.trans ?_
      rw [openQuantity_cons, openQuantity_cons ref order]
      linarith
    · rcases hdescent.resting o ho with hd | ⟨maker, hm, hd⟩
      · exact .inl hd.2.terms
      · exact .inr ⟨maker, hm, hd.terms⟩
    · obtain ⟨maker, hmaker, hkey, hdealt⟩ := (hspends order.ref).2 trade htrade
      exact ⟨maker, hmaker, hkey, { hdealt with }⟩

/-- What `Restore` brings back. -/
theorem EachBook.restore (h : e.EachBook Filed) (orders : List Order) : (e.restore orders).EachBook Filed ∧
    (∀ o ∈ (e.restore orders).restingOrders, o ∈ e.restingOrders ∨ ∃ o' ∈ orders, Sweep.SameTerms o' o) ∧
    ∀ ref, openQuantity ref (e.restore orders).restingOrders ≤
      openQuantity ref e.restingOrders + openQuantity ref orders := by
  induction orders generalizing e with
  | nil => exact ⟨h, fun o ho ↦ .inl ho, fun ref ↦ le_add_of_nonneg_right (openQuantity_nonneg ref _)⟩
  | cons order orders ih =>
    have hfiled := h.filed_restoreOrder order
    have hone : (∀ o ∈ (e.restoreOrder order).1.restingOrders, o ∈ e.restingOrders ∨ Sweep.SameTerms order o) ∧
        ∀ ref, openQuantity ref (e.restoreOrder order).1.restingOrders ≤
          openQuantity ref e.restingOrders + openQuantity ref [order] := by
      rcases resting_restoreOrder e order with hperm | ⟨status, hperm⟩
      · refine ⟨fun o ho ↦ .inl (hperm.mem_iff.mp ho), fun ref ↦ ?_⟩
        rw [openQuantity_perm ref hperm]
        exact le_add_of_nonneg_right (openQuantity_nonneg ref _)
      · refine ⟨fun o ho ↦ ?_, fun ref ↦ ?_⟩
        · rcases List.mem_cons.mp (hperm.mem_iff.mp ho) with rfl | ho
          · exact .inr (by constructor <;> rfl)
          · exact .inl ho
        · have hsame : openQuantity ref [{ order with status := status }] ≤ openQuantity ref [order] :=
            openQuantity_singleton_le rfl le_rfl
          rw [openQuantity_perm ref hperm, openQuantity_cons]
          linarith
    have hterms : ∀ o ∈ (e.restoreOrder order).1.restingOrders,
        o ∈ e.restingOrders ∨ ∃ o' ∈ order :: orders, Sweep.SameTerms o' o :=
      fun o ho ↦ (hone.1 o ho).imp_right fun hterms ↦ ⟨order, List.mem_cons_self, hterms⟩
    rw [Engine.restore]
    split
    · next e' hrestored =>
      rw [hrestored] at hfiled hone hterms
      obtain ⟨hfiled', hmem, hquantity⟩ := ih hfiled
      refine ⟨hfiled', fun o ho ↦ ?_, fun ref ↦ ?_⟩
      · rcases hmem o ho with ho | ⟨o', ho', hterms⟩
        · exact hterms o ho
        · exact .inr ⟨o', List.mem_cons_of_mem order ho', hterms⟩
      · linarith [hone.2 ref, hquantity ref, openQuantity_cons ref order orders]
    · next e' error hrestored =>
      rw [hrestored] at hfiled hone hterms
      refine ⟨hfiled, hterms, fun ref ↦ ?_⟩
      · linarith [hone.2 ref, openQuantity_nonneg ref orders, openQuantity_cons ref order orders]

/-- A command to cancel takes resting orders away and trades nothing. -/
theorem EachBook.handleCancel (h : e.EachBook Filed) (cmd : MatchCommand) (nowMillis : ℤ) :
    (e.handleCancel cmd nowMillis).1.EachBook Filed ∧
      (e.handleCancel cmd nowMillis).1.restingOrders.Subperm e.restingOrders ∧
      (e.handleCancel cmd nowMillis).2.flatMap (fun r ↦ r.result.trades) = [] := by
  refine ⟨h.filed_cancelOrders _ _ _, (cancels_cancelOrders h _ _ _).1, ?_⟩
  rw [Engine.handleCancel, List.flatMap_eq_nil_iff]
  intro r hr
  rcases List.mem_append.mp hr with hr | hr
  · obtain ⟨o, -, rfl⟩ := List.mem_map.mp hr
    rfl
  · obtain ⟨book, -, rfl⟩ := List.mem_map.mp hr
    rfl

end Engine

/-! ## Events -/

/-- The epoch that is written into the trades does not matter. -/
theorem Engine.Spends.map_epochID {e e' : Engine} {order : Order} {trades : List Trade}
    (h : Spends e order e' trades) (epochID : ℕ) :
    Spends e order e' (trades.map fun trade ↦ { trade with epochID := epochID }) := by
  refine { h with spent := fun ref ↦ ?_, deals := fun trade htrade ↦ ?_ }
  · have hsame : filledIn (trades.map fun trade ↦ { trade with epochID := epochID }) ref = filledIn trades ref := by
      rw [filledIn, List.filter_map, List.map_map]
      rfl
    rw [hsame]
    exact h.spent ref
  · obtain ⟨dealt, hmem, rfl⟩ := List.mem_map.mp htrade
    obtain ⟨maker, hmaker, hkey, hdealt⟩ := h.deals dealt hmem
    exact ⟨maker, hmaker, hkey, { hdealt with }⟩

namespace BookHistory

/-- What an event does to the resting orders and the trades of a book engine. -/
inductive Effect (h : BookHistory) : BookEvent → BookHistory → Prop
  /-- Nothing is traded, and no order has more left to fill. -/
  | quiet (e : BookEvent) (h' : BookHistory) (emitted : h'.emitted = h.emitted)
    (resting : ∀ o ∈ h'.engine.restingOrders, ∃ o' ∈ h.engine.restingOrders, Sweep.SameTerms o' o)
    (less : ∀ ref, openQuantity ref h'.engine.restingOrders ≤ openQuantity ref h.engine.restingOrders) :
    Effect h e h'
  /-- An order is accepted. -/
  | place (cmd : MatchCommand) (nowMillis : ℤ) (epochID : ℕ) (h' : BookHistory) (trades : List Trade)
    (placed : cmd.action = .place) (emitted : h'.emitted = h.emitted ++ trades)
    (spends : Engine.Spends h.engine (cmd.toOrder nowMillis) h'.engine trades) :
    Effect h (.command cmd nowMillis epochID) h'

variable {clock : ℕ → ℤ} {h h' : BookHistory} {e : BookEvent}

/-- **What an event can do.** -/
theorem effect_step (hfiled : h.engine.EachBook Filed) (hstep : h.step clock e = some h') :
    h'.engine.EachBook Filed ∧ Effect h e h' := by
  have hself : ∀ o ∈ h.engine.restingOrders, ∃ o' ∈ h.engine.restingOrders, Sweep.SameTerms o' o :=
    fun o ho ↦ ⟨o, ho, .refl o⟩
  cases e with
  | command cmd nowMillis epochID =>
    cases haction : cmd.action with
    | place =>
      obtain rfl := Option.some.inj hstep
      have hplaced := hfiled.filed_placeOrder clock (cmd.toOrder nowMillis)
      simp only [Engine.handle, haction, Engine.handlePlace, List.flatMap_cons, List.flatMap_nil, List.append_nil]
      rcases Engine.spends_placeOrder clock hfiled (cmd.toOrder nowMillis) with ⟨-, hnone, hperm⟩ | ⟨-, hspends⟩
      · refine ⟨hplaced, .quiet _ _ ?_ (fun o ho ↦ hself o (hperm.mem_iff.mp ho)) fun ref ↦ ?_⟩
        · rw [hnone, List.map_nil, List.append_nil]
        · exact (openQuantity_perm ref hperm).le
      · exact ⟨hplaced, .place cmd nowMillis epochID _ _ haction rfl (hspends.map_epochID epochID)⟩
    | cancel =>
      obtain rfl := Option.some.inj hstep
      obtain ⟨hcancelled, hsub, hnone⟩ := hfiled.handleCancel cmd nowMillis
      simp only [Engine.handle, haction, hnone, List.append_nil]
      exact ⟨hcancelled, .quiet _ _ rfl (fun o ho ↦ hself o (hsub.subset ho))
        fun ref ↦ openQuantity_subperm ref hsub⟩
  | others trades =>
    obtain rfl := Option.some.inj hstep
    exact ⟨hfiled, .quiet _ _ rfl hself fun _ ↦ le_rfl⟩
  | restart sequence orders =>
    rw [step] at hstep
    split_ifs at hstep with hperm
    obtain rfl := Option.some.inj hstep
    have hnew : (Engine.new sequence).restingOrders = [] := rfl
    obtain ⟨hrestored, hmem, hless⟩ := (Engine.EachBook.new Filed sequence).restore orders
    refine ⟨hrestored, .quiet _ _ rfl (fun o ho ↦ ?_) fun ref ↦ ?_⟩
    · rcases hmem o ho with ho | ⟨o', ho', hterms⟩
      · cases ho
      · exact ⟨o', hperm.mem_iff.mp ho', hterms⟩
    · have hnone : openQuantity ref [] = 0 := rfl
      have hall := hless ref
      rw [hnew, hnone, openQuantity_perm ref hperm, zero_add] at hall
      exact hall

/-- The trades that an event has added. -/
def newTrades (h h' : BookHistory) : List Trade := h'.emitted.drop h.emitted.length

theorem newTrades_eq {trades : List Trade} (hemitted : h'.emitted = h.emitted ++ trades) :
    h.newTrades h' = trades := by
  rw [newTrades, hemitted, List.drop_left]

end BookHistory

/-! ## The trades of an order -/

/-- The trades of a resting order in a run: those of its book that name it, until it has left the book. -/
def restingTrades (clock : ℕ → ℤ) (ref : OrderRef) : BookHistory → List BookEvent → List Trade
  | _, [] => []
  | h, e :: events =>
    if h.engine.restingOrders.any (·.ref = ref) then
      match h.step clock e with
      | none => []
      | some h' => (h.newTrades h').filter (·.NamesIn ref) ++ restingTrades clock ref h' events
    else []

/-- The trades of an order that a command places: those of the command, and those of the order as it rests. A
rejected order has none. -/
def orderTrades (clock : ℕ → ℤ) (cmd : MatchCommand) (nowMillis : ℤ) (epochID : ℕ) (h : BookHistory)
    (events : List BookEvent) : List Trade :=
  if (h.engine.placeOrder clock (cmd.toOrder nowMillis)).2.2.isSome then []
  else
    match h.step clock (.command cmd nowMillis epochID) with
    | none => []
    | some h' => h.newTrades h' ++ restingTrades clock (cmd.toOrder nowMillis).ref h' events

/-- What is true of an order and its trades so far. -/
structure Within (order : Order) (trades : List Trade) (h : BookHistory) : Prop where
  filed : h.engine.EachBook Filed
  resting : ∀ o ∈ h.engine.restingOrders, o.ref = order.ref → Sweep.SameTerms order o
  spent : (trades.map Trade.quantity).sum + openQuantity order.ref h.engine.restingOrders ≤ order.quantity
  limits : ∀ trade ∈ trades, 0 < trade.quantity ∧ order.crosses trade.price = true ∧
    buildBookKey trade.marketID trade.outcome = order.bookKey

variable {clock : ℕ → ℤ} {order : Order} {trades : List Trade} {h h' : BookHistory} {e : BookEvent}
  {cmd : MatchCommand} {nowMillis : ℤ} {epochID : ℕ}

/-- **An event keeps the budget of a resting order.** -/
theorem Within.step (hw : Within order trades h) (hrests : ∃ o ∈ h.engine.restingOrders, o.ref = order.ref)
    (hstep : h.step clock e = some h') :
    Within order (trades ++ (h.newTrades h').filter (·.NamesIn order.ref)) h' := by
  obtain ⟨hfiled, heffect⟩ := BookHistory.effect_step hw.filed hstep
  cases heffect with
  | quiet e h' emitted resting less =>
    have hnone : h.newTrades h' = [] := BookHistory.newTrades_eq (by rw [emitted, List.append_nil])
    rw [hnone, List.filter_nil, List.append_nil]
    refine ⟨hfiled, fun o ho href ↦ ?_, ?_, hw.limits⟩
    · obtain ⟨o', ho', hterms⟩ := resting o ho
      exact (hw.resting o' ho' (hterms.ref_eq.symm.trans href)).trans hterms
    · linarith [hw.spent, less order.ref]
  | place cmd nowMillis epochID h' new placed emitted spends =>
    rw [BookHistory.newTrades_eq emitted]
    -- the engine rejects an order that is known as one that rests
    obtain ⟨own, hown, hownref⟩ := hrests
    have hne : (cmd.toOrder nowMillis).ref ≠ order.ref := fun heq ↦ spends.fresh own hown (hownref.trans heq.symm)
    refine ⟨hfiled, fun o ho href ↦ ?_, ?_, List.forall_mem_append.mpr ⟨hw.limits, fun trade htrade ↦ ?_⟩⟩
    · rcases spends.resting o ho with hterms | ⟨maker, hmaker, hterms⟩
      · exact absurd (hterms.ref_eq.symm.trans href) hne
      · exact (hw.resting maker hmaker (hterms.ref_eq.symm.trans href)).trans hterms
    · have hspent := spends.spent order.ref
      rw [openQuantity_cons, openQuantity_of_ne hne, zero_add, filledIn] at hspent
      rw [List.map_append, List.sum_append]
      linarith [hw.spent]
    · -- the order is the resting one of the two
      obtain ⟨hnew, hnames⟩ := List.mem_filter.mp htrade
      obtain ⟨maker, hmaker, hkey, hdealt⟩ := spends.deals trade hnew
      obtain ⟨hbook, hnames⟩ := of_decide_eq_true hnames
      have hbookKey : (cmd.toOrder nowMillis).bookKey = order.bookKey := hdealt.bookKey.symm.trans hbook
      have hmakerID : maker.orderID = order.orderID := by
        rcases hnames with hname | hname
        · exact absurd (Prod.ext hbookKey (hdealt.takerOrderID.symm.trans hname)) hne
        · exact hdealt.makerOrderID.symm.trans hname
      have hterms := hw.resting maker hmaker (Prod.ext (hkey.trans hbookKey) hmakerID)
      refine ⟨hdealt.quantity, ?_, ?_⟩
      · rw [hdealt.price, hterms.price]
        exact order.crosses_price
      · rw [hdealt.marketID, hdealt.outcome]
        exact hbookKey

/-- What handling a command to place an order comes to. -/
theorem BookHistory.step_place (clock : ℕ → ℤ) (h : BookHistory) (nowMillis : ℤ) (epochID : ℕ)
    (hplace : cmd.action = .place) :
    h.step clock (.command cmd nowMillis epochID) = some ⟨(h.engine.placeOrder clock (cmd.toOrder nowMillis)).1,
        h.emitted ++ (h.engine.placeOrder clock (cmd.toOrder nowMillis)).2.1.trades.map
          fun trade ↦ { trade with epochID := epochID }⟩ := by
  simp only [step, Engine.handle, hplace, Engine.handlePlace, List.flatMap_cons, List.flatMap_nil, List.append_nil]

/-- Everything that an accepted order trades at once names it. -/
theorem Engine.Spends.namesIn {e e' : Engine} (h : Engine.Spends e order e' trades) :
    ∀ trade ∈ trades, trade.NamesIn order.ref := by
  intro trade htrade
  obtain ⟨maker, -, -, hdealt⟩ := h.deals trade htrade
  exact ⟨hdealt.bookKey, .inl hdealt.takerOrderID⟩

/-- An accepted order has its whole quantity to trade. -/
theorem Within.of_spends {e' : Engine} {emitted : List Trade} (hfiled : e'.EachBook Filed)
    (hspends : Engine.Spends h.engine order e' trades) (hleft : order.remainingQuantity ≤ order.quantity) :
    Within order trades ⟨e', emitted⟩ := by
  refine ⟨hfiled, fun o ho href ↦ ?_, ?_, fun trade htrade ↦ ?_⟩
  · rcases hspends.resting o ho with hterms | ⟨maker, hmaker, hterms⟩
    · exact hterms
    · exact absurd (hterms.ref_eq.symm.trans href) (hspends.fresh maker hmaker)
  · have hspent := hspends.spent order.ref
    have hall : trades.filter (·.NamesIn order.ref) = trades :=
      List.filter_eq_self.mpr fun trade htrade ↦ decide_eq_true (hspends.namesIn trade htrade)
    rw [openQuantity_cons, openQuantity_of_eq rfl, openQuantity_eq_zero hspends.fresh, add_zero, filledIn,
      hall] at hspent
    exact hspent.trans hleft
  · obtain ⟨maker, -, -, hdealt⟩ := hspends.deals trade htrade
    refine ⟨hdealt.quantity, ?_, ?_⟩
    · rw [hdealt.price]
      exact hdealt.crosses
    · rw [hdealt.marketID, hdealt.outcome]
      rfl

/-- Trades that fill at most the quantity of an order, within its limit and in its book. -/
structure FillsWithin (order : Order) (trades : List Trade) : Prop where
  quantity : (trades.map Trade.quantity).sum ≤ order.quantity
  limits : ∀ trade ∈ trades, 0 < trade.quantity ∧ order.crosses trade.price = true ∧
    buildBookKey trade.marketID trade.outcome = order.bookKey

theorem Within.fillsWithin (hw : Within order trades h) : FillsWithin order trades :=
  ⟨(le_add_of_nonneg_right (openQuantity_nonneg _ _)).trans hw.spent, hw.limits⟩

/-- **A run keeps the budget of a resting order.** -/
theorem Within.run (hw : Within order trades h) (events : List BookEvent) :
    FillsWithin order (trades ++ restingTrades clock order.ref h events) := by
  induction events generalizing trades h with
  | nil =>
    rw [restingTrades, List.append_nil]
    exact hw.fillsWithin
  | cons e events ih =>
    rw [restingTrades]
    split_ifs with hrests
    · cases hstep : h.step clock e with
      | none =>
        rw [List.append_nil]
        exact hw.fillsWithin
      | some h' =>
        obtain ⟨o, ho, href⟩ := List.any_eq_true.mp hrests
        rw [← List.append_assoc]
        exact ih (hw.step ⟨o, ho, of_decide_eq_true href⟩ hstep)
    · rw [List.append_nil]
      exact hw.fillsWithin

/-- **The trades of a placed order stay within its terms**, whatever else the book engine is told. -/
theorem within_orderTrades (clock : ℕ → ℤ) (hfiled : h.engine.EachBook Filed) (hplace : cmd.action = .place)
    (hquantity : 0 < cmd.quantity) (nowMillis : ℤ) (epochID : ℕ) (events : List BookEvent) :
    FillsWithin (cmd.toOrder nowMillis) (orderTrades clock cmd nowMillis epochID h events) := by
  have hnone : FillsWithin (cmd.toOrder nowMillis) [] := ⟨hquantity.le, fun trade ht ↦ absurd ht List.not_mem_nil⟩
  have hleft : (cmd.toOrder nowMillis).remainingQuantity ≤ (cmd.toOrder nowMillis).quantity :=
    (cmd.remainingQuantity_opened nowMillis hquantity).le
  rw [orderTrades]
  split_ifs with hrejected
  · exact hnone
  · rw [BookHistory.step_place clock h nowMillis epochID hplace]
    rcases Engine.spends_placeOrder clock hfiled (cmd.toOrder nowMillis) with ⟨⟨error, herror⟩, -, -⟩ | ⟨-, hspends⟩
    · rw [herror] at hrejected
      exact absurd rfl hrejected
    · dsimp only
      rw [BookHistory.newTrades_eq rfl]
      exact (Within.of_spends (hfiled.filed_placeOrder clock _) (hspends.map_epochID epochID) hleft).run events

theorem filed_of_exec {sequence : ℕ} {events : List BookEvent}
    (hexec : exec (BookHistory.step clock) (.start sequence) events = some h) : h.engine.EachBook Filed := by
  refine visits_induction (P := fun h : BookHistory ↦ h.engine.EachBook Filed) (.new Filed sequence)
    (fun t e t' htakes ht ↦ ?_) h (visits_of_exec hexec)
  exact (BookHistory.effect_step ht htakes.step_eq).1

/-! ## An id that is placed once -/

/-- An event places no order under an id. -/
def BookEvent.Spares (orderID : String) : BookEvent → Prop
  | .command cmd _ _ => cmd.action = .place → cmd.orderID ≠ orderID
  | _ => True

/-- Every order under the id of an order rests in its book, and the trades are all that name the id. -/
structure Sole (order : Order) (trades : List Trade) (h : BookHistory) : Prop where
  filed : h.engine.EachBook Filed
  resting : ∀ o ∈ h.engine.restingOrders, o.orderID = order.orderID → o.ref = order.ref
  trades : h.emitted.filter (·.Names order.orderID) = trades

theorem Sole.step (hs : Sole order trades h) (hspares : e.Spares order.orderID) (hstep : h.step clock e = some h') :
    Sole order (trades ++ (h.newTrades h').filter (·.NamesIn order.ref)) h' ∧
      ((∀ o ∈ h.engine.restingOrders, o.ref ≠ order.ref) →
        (h.newTrades h').filter (·.NamesIn order.ref) = [] ∧ ∀ o ∈ h'.engine.restingOrders, o.ref ≠ order.ref) := by
  obtain ⟨hfiled, heffect⟩ := BookHistory.effect_step hs.filed hstep
  cases heffect with
  | quiet e h' emitted resting less =>
    have hnone : h.newTrades h' = [] := BookHistory.newTrades_eq (by rw [emitted, List.append_nil])
    rw [hnone, List.filter_nil, List.append_nil]
    refine ⟨⟨hfiled, fun o ho hid ↦ ?_, by rw [emitted]; exact hs.trades⟩, fun hgone ↦ ⟨rfl, fun o ho ↦ ?_⟩⟩
    · obtain ⟨o', ho', hterms⟩ := resting o ho
      rw [hterms.ref_eq]
      exact hs.resting o' ho' (hterms.orderID.symm.trans hid)
    · obtain ⟨o', ho', hterms⟩ := resting o ho
      rw [hterms.ref_eq]
      exact hgone o' ho'
  | place cmd nowMillis epochID h' new placed emitted spends =>
    have hne : (cmd.toOrder nowMillis).orderID ≠ order.orderID := hspares placed
    -- a new trade that names the id is with the order as it rests
    have hnamed : ∀ trade ∈ new, trade.Names order.orderID → trade.NamesIn order.ref ∧
        ∃ o ∈ h.engine.restingOrders, o.ref = order.ref := by
      intro trade htrade hnames
      obtain ⟨maker, hmaker, hkey, hdealt⟩ := spends.deals trade htrade
      have hmakerID : maker.orderID = order.orderID := by
        rcases hnames with hname | hname
        · exact absurd (hdealt.takerOrderID.symm.trans hname) hne
        · exact hdealt.makerOrderID.symm.trans hname
      have href := hs.resting maker hmaker hmakerID
      refine ⟨⟨?_, hnames⟩, maker, hmaker, href⟩
      rw [hdealt.bookKey, ← hkey]
      exact congrArg Prod.fst href
    have hfilter : new.filter (·.Names order.orderID) = new.filter (·.NamesIn order.ref) := by
      refine List.filter_congr fun trade htrade ↦ ?_
      rw [decide_eq_decide]
      exact ⟨fun hnames ↦ (hnamed trade htrade hnames).1, fun hnames ↦ hnames.2⟩
    have hresting : ∀ o ∈ h'.engine.restingOrders, o.orderID = order.orderID →
        ∃ maker ∈ h.engine.restingOrders, Sweep.SameTerms maker o := by
      intro o ho hid
      rcases spends.resting o ho with hterms | hmaker
      · exact absurd (hterms.orderID.symm.trans hid) hne
      · exact hmaker
    rw [BookHistory.newTrades_eq emitted]
    refine ⟨⟨hfiled, fun o ho hid ↦ ?_, ?_⟩, fun hgone ↦ ⟨?_, fun o ho href ↦ ?_⟩⟩
    · obtain ⟨maker, hmaker, hterms⟩ := hresting o ho hid
      rw [hterms.ref_eq]
      exact hs.resting maker hmaker (hterms.orderID.symm.trans hid)
    · rw [emitted, List.filter_append, hs.trades, hfilter]
    · refine List.filter_eq_nil_iff.mpr fun trade htrade hnames ↦ ?_
      obtain ⟨-, o, ho, href⟩ := hnamed trade htrade (of_decide_eq_true hnames).2
      exact hgone o ho href
    · obtain ⟨maker, hmaker, hterms⟩ := hresting o ho (congrArg Prod.snd href)
      exact hgone maker hmaker (hterms.ref_eq.symm.trans href)

/-- An order that has left its book does not trade. -/
theorem restingTrades_of_gone {ref : OrderRef} (hgone : ∀ o ∈ h.engine.restingOrders, o.ref ≠ ref)
    (events : List BookEvent) : restingTrades clock ref h events = [] := by
  cases events with
  | nil => rfl
  | cons e events =>
    rw [restingTrades, if_neg]
    simpa using hgone

theorem Sole.run (hs : Sole order trades h) {events : List BookEvent}
    (hspares : ∀ e ∈ events, e.Spares order.orderID) (hexec : exec (BookHistory.step clock) h events = some h') :
    h'.emitted.filter (·.Names order.orderID) = trades ++ restingTrades clock order.ref h events := by
  induction events generalizing trades h with
  | nil =>
    obtain rfl := Option.some.inj hexec
    rw [restingTrades, List.append_nil]
    exact hs.trades
  | cons e events ih =>
    rw [exec_cons, Option.bind_eq_some_iff] at hexec
    obtain ⟨h₁, hstep, hexec⟩ := hexec
    obtain ⟨hs₁, hgone⟩ := hs.step (hspares e List.mem_cons_self) hstep
    have hrest := ih hs₁ (fun e' he' ↦ hspares e' (List.mem_cons_of_mem e he')) hexec
    by_cases hrests : h.engine.restingOrders.any (·.ref = order.ref) = true
    · rw [restingTrades, if_pos hrests, hstep, hrest, List.append_assoc]
    · have hnone : ∀ o ∈ h.engine.restingOrders, o.ref ≠ order.ref := by simpa using hrests
      obtain ⟨hnew, hnone₁⟩ := hgone hnone
      rw [hrest, hnew, restingTrades_of_gone hnone₁, restingTrades_of_gone hnone, List.append_nil]

/-- The order is accepted, and nothing under its id rested or was traded before. -/
theorem Sole.place {e' : Engine} {new : List Trade} (hs : Sole order [] h) (hfiled : e'.EachBook Filed)
    (hspends : Engine.Spends h.engine order e' new) : Sole order new ⟨e', h.emitted ++ new⟩ := by
  refine ⟨hfiled, fun o ho hid ↦ ?_, ?_⟩
  · rcases hspends.resting o ho with hterms | ⟨maker, hmaker, hterms⟩
    · exact hterms.ref_eq
    · rw [hterms.ref_eq]
      exact hs.resting maker hmaker (hterms.orderID.symm.trans hid)
  · rw [List.filter_append, hs.trades, List.nil_append]
    exact List.filter_eq_self.mpr fun trade htrade ↦ decide_eq_true (hspends.namesIn trade htrade).2

/-- **The trades of an order are all that name it**, if no other order is placed under its id. -/
theorem orderTrades_eq_filter {sequence : ℕ} {before after : List BookEvent} {h₁ : BookHistory}
    (hplace : cmd.action = .place) (honce : ∀ e ∈ before ++ after, e.Spares cmd.orderID)
    (hbefore : exec (BookHistory.step clock) (.start sequence) before = some h)
    (hstep : h.step clock (.command cmd nowMillis epochID) = some h₁)
    (hafter : exec (BookHistory.step clock) h₁ after = some h') :
    orderTrades clock cmd nowMillis epochID h after = h'.emitted.filter (·.Names cmd.orderID) := by
  set order := cmd.toOrder nowMillis with horder
  have hlater : ∀ e ∈ after, e.Spares order.orderID := fun e he ↦ honce e (List.mem_append_right _ he)
  -- nothing rests or was traded under the id before
  have hclear : Sole order [] h ∧ ∀ o ∈ h.engine.restingOrders, o.ref ≠ order.ref := by
    have hstart : Sole order [] (.start sequence) ∧
        ∀ o ∈ (BookHistory.start sequence).engine.restingOrders, o.ref ≠ order.ref :=
      ⟨⟨.new Filed sequence, fun o ho ↦ absurd ho List.not_mem_nil, rfl⟩, fun o ho ↦ absurd ho List.not_mem_nil⟩
    refine visits_induction (P := fun h ↦ Sole order [] h ∧ ∀ o ∈ h.engine.restingOrders, o.ref ≠ order.ref)
      hstart (fun t e t' htakes ht ↦ ?_) h (visits_of_exec hbefore)
    obtain ⟨hs, hgone⟩ := ht.1.step (honce e (List.mem_append_left _ htakes.mem)) htakes.step_eq
    obtain ⟨hnone, hgone⟩ := hgone ht.2
    rw [hnone, List.append_nil] at hs
    exact ⟨hs, hgone⟩
  obtain ⟨hs, hgone⟩ := hclear
  have hfiled := hs.filed.filed_placeOrder clock order
  rw [BookHistory.step_place clock h nowMillis epochID hplace] at hstep
  obtain rfl := Option.some.inj hstep
  rw [orderTrades, BookHistory.step_place clock h nowMillis epochID hplace]
  rcases Engine.spends_placeOrder clock hs.filed order with
    ⟨⟨error, herror⟩, hnone, hperm⟩ | ⟨haccepted, hspends⟩
  · rw [herror, Option.isSome_some, if_pos rfl]
    rw [← horder, hnone, List.map_nil, List.append_nil] at hafter
    have hsole : Sole order [] ⟨(h.engine.placeOrder clock order).1, h.emitted⟩ :=
      ⟨hfiled, fun o ho ↦ hs.resting o (hperm.mem_iff.mp ho), hs.trades⟩
    have hall := hsole.run hlater hafter
    rw [restingTrades_of_gone (fun o ho ↦ hgone o (hperm.mem_iff.mp ho)), List.append_nil] at hall
    exact hall.symm
  · rw [haccepted, Option.isSome_none, if_neg Bool.false_ne_true]
    dsimp only
    rw [BookHistory.newTrades_eq rfl]
    exact ((hs.place hfiled (hspends.map_epochID epochID)).run hlater hafter).symm

end FunnyOption.Matching
