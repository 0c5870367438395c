import FunnyOption.Matching.BookEngine

/-!
# What a command does to the resting orders

The resting orders of an engine are spread over books, sides and buckets. For everything that is
proved about runs of the engine only the collection of them matters, so the effect of a command is
stated on the list of all resting orders, up to its order.

`Placement` is the one statement about accepted orders. The resting orders are those the incoming
order `met` and the `rest`; the walk over the first returns what stays of them; and the incoming order
joins or does not. `Outcome` says which of the exits of `processLimitOrder` was taken.
-/

open Foundation

namespace FunnyOption.Matching

/-! ## Books -/

namespace OrderBookDirect

/-- Both sides are well formed. -/
structure WellFormed (book : OrderBookDirect) : Prop where
  bids : BookSide.WellFormed .buy book.bids.buckets
  asks : BookSide.WellFormed .sell book.asks.buckets

variable {book : OrderBookDirect} {order : Order}

theorem WellFormed.new (key : String) : (OrderBookDirect.new key).WellFormed := ⟨.nil, .nil⟩

theorem WellFormed.side (h : book.WellFormed) (s : OrderSide) : BookSide.WellFormed s (book.side s).buckets := by
  cases s with
  | buy => exact h.bids
  | sell => exact h.asks

/-- A resting order is on its own side. -/
theorem WellFormed.mem_side (h : book.WellFormed) (hmem : order ∈ book.orders) :
    order ∈ (book.side order.side).orders := by
  have hside : ∀ s, order ∈ (book.side s).orders → order.side = s := by
    intro s hs
    obtain ⟨b, hb, ho⟩ := List.mem_flatMap.mp hs
    exact ((h.side s).order b hb order ho).2
  rcases List.mem_append.mp hmem with hbid | hask
  · rw [hside .buy hbid]
    exact hbid
  · rw [hside .sell hask]
    exact hask

theorem WellFormed.setSide (h : book.WellFormed) {s : OrderSide} {side : BookSide}
    (hside : BookSide.WellFormed s side.buckets) : (book.setSide s side).WellFormed := by
  cases s with
  | buy => exact ⟨hside, h.asks⟩
  | sell => exact ⟨h.bids, hside⟩

@[simp]
theorem key_setSide (book : OrderBookDirect) (s : OrderSide) (side : BookSide) :
    (book.setSide s side).key = book.key := by
  cases s <;> rfl

theorem side_setSide_self (book : OrderBookDirect) (s : OrderSide) (side : BookSide) :
    (book.setSide s side).side s = side := by
  cases s <;> rfl

theorem side_setSide_of_ne (book : OrderBookDirect) {s s' : OrderSide} (side : BookSide) (h : s' ≠ s) :
    (book.setSide s side).side s' = book.side s' := by
  cases s <;> cases s' <;> first | rfl | exact absurd rfl h

/-- The orders of a book are those of one side and those of the other. -/
theorem perm_orders (book : OrderBookDirect) (s : OrderSide) :
    book.orders.Perm ((book.side s).orders ++ (book.side s.opposite).orders) := by
  cases s with
  | buy => exact .refl _
  | sell => exact List.perm_append_comm

theorem perm_orders_setSide (book : OrderBookDirect) (s : OrderSide) (side : BookSide) :
    (book.setSide s side).orders.Perm (side.orders ++ (book.side s.opposite).orders) := by
  cases s with
  | buy => exact .refl _
  | sell => exact List.perm_append_comm

theorem WellFormed.addOrder (h : book.WellFormed) : (book.addOrder order).WellFormed :=
  h.setSide ((h.side order.side).insertOrder rfl)

theorem perm_addOrder (book : OrderBookDirect) (order : Order) :
    (book.addOrder order).orders.Perm (order :: book.orders) := by
  refine (perm_orders_setSide book order.side _).trans ?_
  refine ((BookSide.perm_insertOrder order.side order _).append_right _).trans ?_
  exact ((perm_orders book order.side).symm).cons order

theorem WellFormed.removeDirectOrder (h : book.WellFormed) : (book.removeDirectOrder order).WellFormed :=
  h.setSide (h.side order.side).eraseOrder

/-- Removing an order leaves a part of the orders. -/
theorem removeDirectOrder_subperm (book : OrderBookDirect) (order : Order) :
    (book.removeDirectOrder order).orders.Subperm book.orders := by
  refine (perm_orders_setSide book order.side _).subperm.trans ?_
  refine List.Subperm.trans ?_ (perm_orders book order.side).symm.subperm
  exact ((BookSide.eraseOrder_sublist order _).append_right _).subperm

/-- Removing a resting order, given by a copy with the same terms, on its side. -/
theorem perm_removeOrder (h : book.WellFormed) {copy : Order} (hmem : order ∈ (book.side order.side).orders)
    (hids : (book.orders.map Order.orderID).Nodup) (hcopy : Sweep.SameTerms order copy) :
    (book.side order.side).orders.Perm (order :: ((book.side order.side).removeOrder copy).orders) := by
  have herase : ∀ buckets, BookSide.eraseOrder copy buckets = BookSide.eraseOrder order buckets := by
    intro buckets
    induction buckets with
    | nil => rfl
    | cons b bs ih => simp only [BookSide.eraseOrder, hcopy.price, hcopy.orderID, ih]
  have hside : ((book.side order.side).orders.map Order.orderID).Nodup := by
    have hperm := ((perm_orders book order.side).map Order.orderID).nodup_iff.mp hids
    rw [List.map_append] at hperm
    exact (List.nodup_append.mp hperm).1
  rw [BookSide.removeOrder, herase]
  exact BookSide.perm_eraseOrder (h.side order.side) hmem hside

/-- The same in the book. -/
theorem perm_removeDirectOrder (h : book.WellFormed) {copy : Order} (hmem : order ∈ book.orders)
    (hids : (book.orders.map Order.orderID).Nodup) (hcopy : Sweep.SameTerms order copy) :
    book.orders.Perm (order :: (book.removeDirectOrder copy).orders) := by
  refine (perm_orders book order.side).trans ?_
  refine ((perm_removeOrder h (h.mem_side hmem) hids hcopy).append_right _).trans ?_
  rw [List.cons_append, OrderBookDirect.removeDirectOrder, hcopy.side]
  exact ((perm_orders_setSide book order.side _).symm).cons order

end OrderBookDirect

/-! ## Engines -/

namespace Engine

variable {clock : ℕ → ℤ} {e : Engine} {order : Order} {book : OrderBookDirect} {key : String}

/-- Every book is well formed and filed under its key. -/
def WellFormed (e : Engine) : Prop := ∀ key book, e.books.lookup key = some book → book.WellFormed ∧ book.key = key

/-- The resting orders of the books with another key. -/
def otherOrders (e : Engine) (key : String) : List Order :=
  (e.books.entries.kerase key).flatMap fun entry ↦ entry.2.orders

theorem WellFormed.new (sequence : ℕ) : (Engine.new sequence).WellFormed := by
  intro key book h
  exact absurd h (by simp [Engine.new])

theorem WellFormed.getOrCreateBook (h : e.WellFormed) (key : String) :
    (e.getOrCreateBook key).WellFormed ∧ (e.getOrCreateBook key).key = key := by
  rw [Engine.getOrCreateBook]
  cases hbook : e.books.lookup key with
  | none => exact ⟨.new key, rfl⟩
  | some book => exact h key book hbook

theorem WellFormed.insert (h : e.WellFormed) (hbook : book.WellFormed) (hkey : book.key = key)
    (sequence localSeq : ℕ) : (Engine.mk (e.books.insert key book) sequence localSeq).WellFormed := by
  intro key' book' hlookup
  by_cases hk : key' = key
  · subst hk
    rw [AList.lookup_insert] at hlookup
    obtain rfl := Option.some_inj.mp hlookup
    exact ⟨hbook, hkey⟩
  · rw [AList.lookup_insert_ne hk] at hlookup
    exact h key' book' hlookup

theorem restingOrders_insert (e : Engine) (key : String) (book : OrderBookDirect) (sequence localSeq : ℕ) :
    (Engine.mk (e.books.insert key book) sequence localSeq).restingOrders = book.orders ++ e.otherOrders key := rfl

/-- The resting orders are those of one book and those of the others. -/
theorem perm_restingOrders (e : Engine) (key : String) :
    e.restingOrders.Perm ((e.getOrCreateBook key).orders ++ e.otherOrders key) := by
  rw [restingOrders, otherOrders, Engine.getOrCreateBook]
  by_cases hmem : key ∈ e.books
  · obtain ⟨book, l₁, l₂, -, hentries, herase⟩ := List.exists_of_kerase hmem
    have hlookup : e.books.lookup key = some book := by
      refine AList.mem_lookup_iff.mpr ?_
      rw [hentries]
      simp
    rw [hlookup, herase, hentries, Option.getD_some]
    simp only [List.flatMap_append, List.flatMap_cons]
    rw [← List.append_assoc, ← List.append_assoc]
    exact List.perm_append_comm.append_right _
  · have hnone : e.books.lookup key = none := AList.lookup_eq_none.mpr hmem
    rw [hnone, List.kerase_of_notMem_keys hmem, Option.getD_none]
    exact .refl _

theorem perm_restingOrders_openBook (e : Engine) (key : String) :
    (e.openBook key).restingOrders.Perm e.restingOrders :=
  (perm_restingOrders e key).symm

/-! ### The match -/

/-- The orders an incoming order can meet: the opposite side of its book. -/
def makers (e : Engine) (order : Order) : List Order :=
  ((e.getOrCreateBook order.bookKey).side order.side.opposite).orders

/-- The walk of an incoming order over resting orders. -/
def walked (clock : ℕ → ℤ) (e : Engine) (order : Order) (met : List Order) : Sweep × List Order :=
  (e.sweepStart order).walk clock order.bookKey met

/-- The loop state after a match. -/
def swept (clock : ℕ → ℤ) (e : Engine) (order : Order) : Sweep := (e.walked clock order (e.makers order)).1

/-- What a match leaves of a book. -/
structure MatchedBook (clock : ℕ → ℤ) (e : Engine) (order : Order) (book : OrderBookDirect)
    (matched : Sweep × OrderBookDirect) : Prop where
  sweep : matched.1 = (e.walked clock order (book.side order.side.opposite).orders).1
  other : (matched.2.side order.side.opposite).orders =
    (e.walked clock order (book.side order.side.opposite).orders).2
  volume : (matched.2.side order.side.opposite).volume =
    matched.1.toRemove.foldl BookSide.dropVolume (book.side order.side.opposite).volume
  own : matched.2.side order.side = book.side order.side
  wellFormed : matched.2.WellFormed
  key : matched.2.key = book.key

/-- **A match is the walk over the opposite side.** -/
theorem matchedBook (clock : ℕ → ℤ) (e : Engine) (order : Order) (h : book.WellFormed) :
    MatchedBook clock e order book (e.matchOrder clock order book) := by
  have hside := h.side order.side.opposite
  by_cases hcross : book.isCross order = true
  · have hswept := Sweep.sweepBuckets_eq_walk clock order.bookKey _
      (e.sweepStart order) hside
    simp only [matchOrder, hcross, Bool.not_true, Bool.false_eq_true, if_false]
    refine ⟨hswept.sweep, ?_, ?_, ?_, h.setSide hswept.wellFormed, by simp⟩
    · rw [OrderBookDirect.side_setSide_self, BookSide.orders, hswept.orders]
      rfl
    · rw [OrderBookDirect.side_setSide_self]
    · exact OrderBookDirect.side_setSide_of_ne _ _ (by cases order.side <;> simp [OrderSide.opposite])
  · -- the best order of the other side does not cross, so the walk stops at once
    have hwalk : e.walked clock order (book.side order.side.opposite).orders =
        (e.sweepStart order, (book.side order.side.opposite).orders) := by
      rw [walked, BookSide.orders]
      cases hbuckets : (book.side order.side.opposite).buckets with
      | nil => rfl
      | cons b bs =>
        rw [hbuckets] at hside
        obtain ⟨hne, ho, -, -⟩ := BookSide.wellFormed_cons.mp hside
        obtain ⟨maker, rest, hmaker⟩ := List.exists_cons_of_ne_nil hne
        rw [List.flatMap_cons, hmaker, List.cons_append]
        refine Sweep.walk_cons_of_not_meets ?_ _
        rw [Sweep.Meets, (ho maker (by simp [hmaker])).1]
        have hbest : book.isCross order = order.crosses b.price := by
          simp only [OrderBookDirect.isCross, BookSide.best, hbuckets, List.head?_cons, Option.map_some]
        rw [hbest] at hcross
        simp [sweepStart, hcross]
    simp only [matchOrder, hcross, Bool.not_false, if_true]
    exact ⟨by rw [hwalk], by rw [hwalk], rfl, rfl, h, rfl⟩

theorem MatchedBook.orders {matched : Sweep × OrderBookDirect} (h : MatchedBook clock e order book matched) :
    matched.2.orders.Perm ((e.walked clock order (book.side order.side.opposite).orders).2 ++
      (book.side order.side).orders) := by
  rw [← h.other, ← h.own]
  exact (OrderBookDirect.perm_orders _ order.side).trans List.perm_append_comm

/-! ### Placing an order -/

/-- The exits of `processLimitOrder`, by the incoming order as the walk leaves it and as it is
returned. -/
inductive Outcome (clock : ℕ → ℤ) (e : Engine) (order : Order) : List Order → Order → Bool → Prop
  /-- Cancelled without a walk. -/
  | refused (reason : CancelReason) : Outcome clock e order [] (order.cancel reason) false
  /-- Rests without a walk. -/
  | posted : Outcome clock e order [] { order with status := .new } true
  /-- Nothing is left of it. -/
  | filled (none : (e.swept clock order).order.remainingQuantity = 0) :
    Outcome clock e order (e.makers order) (e.swept clock order).order false
  /-- Self-trade prevention has cancelled it. -/
  | prevented (walks : order.timeInForce ≠ .postOnly)
    (can : order.timeInForce = .fok → fokCanFill order (e.getOrCreateBook order.bookKey) = true)
    (some : (e.swept clock order).order.remainingQuantity ≠ 0)
    (status : (e.swept clock order).order.status = .cancelled) :
    Outcome clock e order (e.makers order) (e.swept clock order).order false
  /-- The rest of an immediate order is cancelled. -/
  | expired (reason : CancelReason) (ioc : order.timeInForce = .ioc)
    (some : (e.swept clock order).order.remainingQuantity ≠ 0)
    (status : (e.swept clock order).order.status ≠ .cancelled) :
    Outcome clock e order (e.makers order)
      ((e.swept clock order).order.cancel reason) false
  /-- The rest of the order rests. -/
  | rests (gtc : order.timeInForce = .gtc)
    (some : (e.swept clock order).order.remainingQuantity ≠ 0)
    (status : (e.swept clock order).order.status ≠ .cancelled) :
    Outcome clock e order (e.makers order) (e.swept clock order).order.rested true
  /-- An order to fill or kill that was found fillable but was not filled. -/
  | stranded (fok : order.timeInForce = .fok)
    (can : fokCanFill order (e.getOrCreateBook order.bookKey) = true)
    (some : (e.swept clock order).order.remainingQuantity ≠ 0)
    (status : (e.swept clock order).order.status ≠ .cancelled) :
    Outcome clock e order (e.makers order) (e.swept clock order).order false

/-- What an accepted order does: it meets the orders `met`, not the `rest`, it is returned as `final`,
and it rests or not. -/
structure Placement (clock : ℕ → ℤ) (e : Engine) (order : Order) (met rest : List Order)
    (final : Order) (rests : Bool) (e' : Engine) (result : Result) : Prop where
  outcome : Outcome clock e order met final rests
  before : e.restingOrders.Perm (met ++ rest)
  after : e'.restingOrders.Perm
    ((e.walked clock order met).2 ++ rest ++ if rests then [(e.walked clock order met).1.order] else [])
  returned : result.order = some final
  trades : result.trades = (e.walked clock order met).1.trades
  affected : result.affected = (e.walked clock order met).1.affected
  sequence : e'.sequence = (e.walked clock order met).1.sequence
  wellFormed : e'.WellFormed

/-- An order that rests after a placement was left by the walk, was not met, or is the incoming one. -/
theorem resting_cases {o own : Order} {kept rest : List Order} {rests : Bool}
    (h : o ∈ kept ++ rest ++ if rests then [own] else []) : o ∈ kept ∨ o ∈ rest ∨ o = own := by
  rw [List.append_assoc, List.mem_append, List.mem_append] at h
  cases rests with
  | false => exact h.imp_right (Or.imp_right (by simp))
  | true => exact h.imp_right (Or.imp_right List.mem_singleton.mp)

/-- The book and the loop state after processing, for some exit. -/
structure ProcessedBook (clock : ℕ → ℤ) (e : Engine) (order : Order) (met rest : List Order)
    (final : Order) (rests : Bool) (processed : Sweep × OrderBookDirect) : Prop where
  outcome : Outcome clock e order met final rests
  before : (e.getOrCreateBook order.bookKey).orders.Perm (met ++ rest)
  after : processed.2.orders.Perm
    ((e.walked clock order met).2 ++ rest ++ if rests then [(e.walked clock order met).1.order] else [])
  sweep : processed.1 = (e.walked clock order met).1.withOrder final
  wellFormed : processed.2.WellFormed
  key : processed.2.key = order.bookKey

/-- A match, followed by what does not touch the book. -/
theorem processedBook_match (h : e.WellFormed) {final : Order}
    (houtcome : Outcome clock e order (e.makers order) final false) :
    ProcessedBook clock e order (e.makers order)
      ((e.getOrCreateBook order.bookKey).side order.side).orders final false
      ((e.matchOrder clock order (e.getOrCreateBook order.bookKey)).1.withOrder final,
        (e.matchOrder clock order (e.getOrCreateBook order.bookKey)).2) := by
  obtain ⟨hwf, hkey⟩ := h.getOrCreateBook order.bookKey
  have hmatch := matchedBook clock e order hwf
  refine ⟨houtcome, ?_, ?_, ?_, hmatch.wellFormed, hmatch.key.trans hkey⟩
  · exact (OrderBookDirect.perm_orders _ order.side).trans List.perm_append_comm
  · rw [if_neg Bool.false_ne_true, List.append_nil]
    exact hmatch.orders
  · rw [hmatch.sweep]
    rfl

/-- No match. -/
theorem processedBook_refused (h : e.WellFormed) (reason : CancelReason) :
    ProcessedBook clock e order [] (e.getOrCreateBook order.bookKey).orders (order.cancel reason) false
      (e.sweepStart (order.cancel reason), e.getOrCreateBook order.bookKey) := by
  obtain ⟨hwf, hkey⟩ := h.getOrCreateBook order.bookKey
  exact ⟨.refused reason, .refl _, by simp [walked, Sweep.walk], rfl, hwf, hkey⟩

theorem withOrder_self (sw : Sweep) : sw.withOrder sw.order = sw := rfl

/-- **What processing does**, for every time in force. -/
theorem exists_processedBook (clock : ℕ → ℤ) (h : e.WellFormed) (order : Order) :
    ∃ met rest final rests, ProcessedBook clock e order met rest final rests
      (e.processLimitOrder clock order (e.getOrCreateBook order.bookKey)) := by
  obtain ⟨hwf, hkey⟩ := h.getOrCreateBook order.bookKey
  have hmatch := matchedBook clock e order hwf
  have hterms : Sweep.SameTerms order (e.swept clock order).order :=
    (Sweep.walk_terms (e.makers order) (e.sweepStart order)).1
  have hsweep : (e.matchOrder clock order (e.getOrCreateBook order.bookKey)).1 = e.swept clock order := hmatch.sweep
  -- an exit that returns the order as the match leaves it
  have hkept : Outcome clock e order (e.makers order) (e.swept clock order).order false →
      ∃ met rest final rests, ProcessedBook clock e order met rest final rests
        (e.matchOrder clock order (e.getOrCreateBook order.bookKey)) := by
    intro houtcome
    have hproc := processedBook_match h houtcome
    rw [← hsweep, withOrder_self] at hproc
    exact ⟨_, _, _, _, hproc⟩
  rw [processLimitOrder]
  split
  · -- post only
    rw [processPostOnly]
    split_ifs
    · exact ⟨_, _, _, _, processedBook_refused h _⟩
    · refine ⟨[], (e.getOrCreateBook order.bookKey).orders, _, true, .posted, .refl _, ?_, rfl, hwf.addOrder, ?_⟩
      · refine (OrderBookDirect.perm_addOrder _ order).trans ?_
        exact (List.perm_append_singleton order _).symm
      · rw [OrderBookDirect.addOrder, OrderBookDirect.key_setSide]
        exact hkey
  · -- fill or kill
    next hfok =>
    rw [processFOK]
    split_ifs with hcross hcan
    · exact ⟨_, _, _, _, processedBook_refused h _⟩
    · exact ⟨_, _, _, _, processedBook_refused h _⟩
    · have hcan' : fokCanFill order (e.getOrCreateBook order.bookKey) = true := by simpa using hcan
      by_cases hnone : (e.swept clock order).order.remainingQuantity = 0
      · exact hkept (.filled hnone)
      · by_cases hstatus : (e.swept clock order).order.status = .cancelled
        · exact hkept (.prevented (by simp [hfok]) (fun _ ↦ hcan') hnone hstatus)
        · exact hkept (.stranded hfok hcan' hnone hstatus)
  · -- good till cancelled, or immediate
    next hpost hfok =>
    simp only [processGTCOrIOC, hsweep]
    by_cases hnone : (e.swept clock order).order.remainingQuantity = 0
    · rw [if_pos hnone]
      exact hkept (.filled hnone)
    by_cases hstatus : (e.swept clock order).order.status = .cancelled
    · rw [if_neg hnone, if_pos hstatus]
      exact hkept (.prevented hpost (fun heq ↦ absurd heq hfok) hnone hstatus)
    by_cases hioc : (e.swept clock order).order.timeInForce = .ioc
    · have hproc := processedBook_match h (.expired
        (if (e.swept clock order).trades = [] then .iocNoLiquidity else .iocPartialFill)
        (hterms.timeInForce.symm.trans hioc) hnone hstatus)
      rw [hsweep] at hproc
      rw [if_neg hnone, if_neg hstatus, if_pos hioc]
      exact ⟨_, _, _, _, hproc⟩
    · have hgtc : order.timeInForce = .gtc := by
        have hne : order.timeInForce ≠ .ioc := fun heq ↦ hioc (hterms.timeInForce.trans heq)
        cases htif : order.timeInForce with
        | gtc => rfl
        | ioc => exact absurd htif hne
        | fok => exact absurd htif hfok
        | postOnly => exact absurd htif hpost
      rw [if_neg hnone, if_neg hstatus, if_neg hioc]
      refine ⟨_, ((e.getOrCreateBook order.bookKey).side order.side).orders, _, true,
        .rests hgtc hnone hstatus, ?_, ?_, rfl, hmatch.wellFormed.addOrder, ?_⟩
      · exact (OrderBookDirect.perm_orders _ order.side).trans List.perm_append_comm
      · refine (OrderBookDirect.perm_addOrder _ _).trans ?_
        refine (hmatch.orders.cons _).trans ?_
        exact (List.perm_append_singleton _ _).symm
      · rw [OrderBookDirect.addOrder, OrderBookDirect.key_setSide]
        exact hmatch.key.trans hkey

/-- A property of the book after processing, from what adding the order and the match do to the book. -/
theorem processLimitOrder_rule {P : OrderBookDirect → Prop} (hbook : P book)
    (hpost : order.timeInForce = .postOnly → book.isCross order = false → P (book.addOrder order))
    (hmatch : P (e.matchOrder clock order book).2)
    (hrest : (e.matchOrder clock order book).1.order.remainingQuantity ≠ 0 →
      (e.matchOrder clock order book).1.order.status ≠ .cancelled →
      P ((e.matchOrder clock order book).2.addOrder (e.matchOrder clock order book).1.order)) :
    P (e.processLimitOrder clock order book).2 := by
  rw [processLimitOrder]
  split
  · next htif =>
    rw [processPostOnly]
    split_ifs with hcross
    · exact hbook
    · exact hpost htif (Bool.eq_false_iff.mpr hcross)
  · rw [processFOK]
    split_ifs
    · exact hbook
    · exact hbook
    · exact hmatch
  · simp only [processGTCOrIOC]
    split_ifs with hnone hcancelled
    · exact hmatch
    · exact hmatch
    · exact hmatch
    · exact hmatch
    · exact hrest hnone hcancelled

/-- **What an accepted order does.** -/
theorem exists_placement (clock : ℕ → ℤ) (h : e.WellFormed) (order : Order) :
    ∃ met rest final rests, Placement clock e order met rest final rests
      (e.acceptOrder clock order).1 (e.acceptOrder clock order).2 := by
  obtain ⟨met, rest, final, rests, hproc⟩ := exists_processedBook clock h order
  refine ⟨met, rest ++ e.otherOrders order.bookKey, final, rests, hproc.outcome, ?_, ?_, ?_, ?_, ?_, ?_, ?_⟩
  · rw [← List.append_assoc]
    exact (perm_restingOrders e order.bookKey).trans (hproc.before.append_right _)
  · rw [acceptOrder, restingOrders_insert]
    refine (hproc.after.append_right _).trans ?_
    simp only [List.append_assoc]
    exact (List.perm_append_comm.append_left _).append_left _
  · simp only [acceptOrder, hproc.sweep, Sweep.withOrder]
  · simp only [acceptOrder, hproc.sweep, Sweep.withOrder]
  · simp only [acceptOrder, hproc.sweep, Sweep.withOrder]
  · simp only [acceptOrder, hproc.sweep, Sweep.withOrder]
  · exact h.insert hproc.wellFormed hproc.key _ _

/-- An order that the engine accepts. -/
structure Accepts (e : Engine) (order : Order) : Prop where
  valid : order.validate = none
  fresh : (e.getOrCreateBook order.bookKey).hasOrder order.orderID = false
  limit : order.type = .limit

/-- **`PlaceOrder` rejects an order and leaves the resting orders alone, or accepts it.** -/
theorem placeOrder_cases (clock : ℕ → ℤ) (h : e.WellFormed) (order : Order) :
    (¬ e.Accepts order ∧ (∃ error, (e.placeOrder clock order).2.2 = some error) ∧
      (∃ o ∈ [order, order.opened], (e.placeOrder clock order).2.1 = rejection o) ∧
      (e.placeOrder clock order).1.restingOrders.Perm e.restingOrders ∧
      (e.placeOrder clock order).1.sequence = e.sequence ∧ (e.placeOrder clock order).1.WellFormed) ∨
    (e.Accepts order ∧ ∃ met rest final rests, Placement clock e order.opened met rest final rests
      (e.placeOrder clock order).1 (e.placeOrder clock order).2.1) := by
  obtain ⟨hwf, hkey⟩ := h.getOrCreateBook order.bookKey
  have hopen : (e.openBook order.bookKey).WellFormed := h.insert hwf hkey _ _
  rw [placeOrder]
  split
  · next error hvalid =>
    refine .inl ⟨fun ha ↦ ?_, ⟨_, rfl⟩, ⟨order, by simp, rfl⟩, .refl _, rfl, h⟩
    exact absurd (hvalid.symm.trans ha.valid) (by simp)
  · next hvalid =>
    split_ifs with hfresh
    · refine .inl ⟨fun ha ↦ ?_, ⟨_, rfl⟩, ⟨order.opened, by simp, rfl⟩, perm_restingOrders_openBook e _, rfl, hopen⟩
      exact absurd (hfresh.symm.trans ha.fresh) (by simp)
    · split
      · next hmarket =>
        refine .inl ⟨fun ha ↦ ?_, ⟨_, rfl⟩, ⟨order.opened, by simp, rfl⟩,
        perm_restingOrders_openBook e _, rfl, hopen⟩
        exact absurd (hmarket.symm.trans ha.limit) (by simp)
      · next hlimit =>
        exact .inr ⟨⟨hvalid, by simpa using hfresh, hlimit⟩, exists_placement clock h order.opened⟩

/-- The orders an incoming order meets are on the other side. -/
theorem side_of_outcome (hwf : e.WellFormed) {met : List Order} {final : Order} {rests : Bool}
    (h : Outcome clock e order met final rests) : ∀ maker ∈ met, maker.side = order.side.opposite := by
  have hmakers : ∀ maker ∈ e.makers order, maker.side = order.side.opposite := by
    intro maker hmaker
    obtain ⟨bucket, hbucket, hmem⟩ := List.mem_flatMap.mp hmaker
    exact (((hwf.getOrCreateBook order.bookKey).1.side _).order bucket hbucket maker hmem).2
  cases h with
  | refused | posted => simp
  | filled | prevented | expired | rests | stranded => exact hmakers

/-! ### Cancelling an order -/

/-- A closed book held no orders. -/
theorem closeBook_spec (h : e.WellFormed) (snapshots : List BookSnapshot) (key : String) :
    (closeBook (e, snapshots) key).1.restingOrders.Perm e.restingOrders ∧
      (closeBook (e, snapshots) key).1.sequence = e.sequence ∧
      (closeBook (e, snapshots) key).1.WellFormed := by
  rw [closeBook]
  split
  · exact ⟨.refl _, rfl, h⟩
  · next book hbook =>
    by_cases hcount : book.orderCount = 0
    · simp only [if_pos hcount, true_and]
      have horders : (e.getOrCreateBook key).orders = [] := by
        rw [Engine.getOrCreateBook, hbook]
        exact List.length_eq_zero_iff.mp hcount
      refine ⟨?_, fun key' book' hlookup ↦ ?_⟩
      · have hperm := perm_restingOrders e key
        rw [horders, List.nil_append] at hperm
        exact hperm.symm
      · by_cases hk : key' = key
        · rw [hk, AList.lookup_erase] at hlookup
          exact absurd hlookup (by simp)
        · rw [AList.lookup_erase_ne hk] at hlookup
          exact h key' book' hlookup
    · simp only [if_neg hcount, true_and]
      exact ⟨.refl _, h⟩

/-- The results of a cancellation: those of the books carry no orders and no trades. -/
structure Cancellation (e : Engine) (cmd : MatchCommand) (cancelled : Option (Order × Order))
    (handled : Engine × List MatchResult) : Prop where
  sequence : handled.1.sequence = e.sequence
  wellFormed : handled.1.WellFormed
  before : e.restingOrders.Perm ((cancelled.map Prod.fst).toList ++ handled.1.restingOrders)
  terms : ∀ p ∈ cancelled, Sweep.SameTerms p.1 p.2 ∧ p.2.status = .cancelled ∧ p.2.filledQuantity = p.1.filledQuantity
  orderID : ∀ p ∈ cancelled, p.2.orderID = cmd.orderID
  results : ∃ books : List BookSnapshot, handled.2 =
    (cancelled.toList.map fun p ↦ ⟨cmd, ⟨some p.2, [p.2], [], .zero⟩, false, 0⟩) ++
      books.map fun book ↦ ⟨cmd, ⟨none, [], [], book⟩, false, 0⟩

/-- **What a cancel command does**: nothing, or one resting order goes. -/
theorem exists_cancellation (h : e.WellFormed) (hids : (e.restingOrders.map Order.orderID).Nodup)
    (cmd : MatchCommand) (nowMillis : ℤ) :
    ∃ cancelled, Cancellation e cmd cancelled (e.handleCancel cmd nowMillis) := by
  have hreason : cmd.cancelReason.toModel ≠ .unset := by
    cases cmd.cancelReason <;> exact CancelReason.noConfusion
  have hnone : cancelOne cmd.cancelReason.toModel nowMillis ⟨e, [], []⟩ cmd.toCandidate =
      ⟨e, [], []⟩ → ∃ cancelled, Cancellation e cmd cancelled (e.handleCancel cmd nowMillis) := by
    intro hc
    refine ⟨none, ?_⟩
    simp only [handleCancel, cancelOrders, List.cons_ne_self, if_false, if_neg hreason, List.foldl_cons,
      List.foldl_nil, hc]
    exact ⟨rfl, h, .refl _, by simp, by simp, [], rfl⟩
  rcases hlookup : e.books.lookup cmd.toCandidate.bookKey with _ | book
  · exact hnone (by rw [cancelOne, hlookup])
  rcases hexisting : book.getDirectOrder cmd.toCandidate.orderID with _ | existing
  · exact hnone (by rw [cancelOne, hlookup]; simp only [hexisting])
  by_cases hleft : existing.remainingQuantity ≤ 0
  · exact hnone (by rw [cancelOne, hlookup]; simp only [hexisting, if_pos hleft])
  obtain ⟨hwf, hkey⟩ := h _ book hlookup
  have hbook : e.getOrCreateBook cmd.toCandidate.bookKey = book := by
    rw [Engine.getOrCreateBook, hlookup, Option.getD_some]
  have hresting := perm_restingOrders e cmd.toCandidate.bookKey
  rw [hbook] at hresting
  have hmem : existing ∈ book.orders := List.mem_of_find?_eq_some hexisting
  have hids' : (book.orders.map Order.orderID).Nodup := by
    have hall := (hresting.map Order.orderID).nodup_iff.mp hids
    rw [List.map_append] at hall
    exact (List.nodup_append.mp hall).1
  set result : Order := { existing.cancel cmd.cancelReason.toModel with updatedAtMillis := nowMillis }
    with hresult
  have hterms : Sweep.SameTerms existing result := by constructor <;> rfl
  have hremove := OrderBookDirect.perm_removeDirectOrder hwf hmem hids' hterms
  have hkey' : (book.removeDirectOrder result).key = cmd.toCandidate.bookKey := by
    rw [OrderBookDirect.removeDirectOrder, OrderBookDirect.key_setSide, hkey]
  have hcancel : cancelOne cmd.cancelReason.toModel nowMillis ⟨e, [], []⟩ cmd.toCandidate =
      ⟨⟨e.books.insert cmd.toCandidate.bookKey (book.removeDirectOrder result), e.sequence, e.localSeq⟩,
        [result], [book.key]⟩ := by
    rw [cancelOne, hlookup]
    simp only [hexisting, if_neg hleft, List.not_mem_nil, if_false, List.nil_append, ← hresult]
  obtain ⟨hperm, hseq, hwf'⟩ := closeBook_spec
    (h.insert hwf.removeDirectOrder hkey' e.sequence e.localSeq) [] book.key
  refine ⟨some (existing, result), ?_⟩
  simp only [handleCancel, cancelOrders, List.cons_ne_self, if_false, if_neg hreason, List.foldl_cons,
    List.foldl_nil, hcancel]
  refine ⟨hseq, hwf', ?_, ?_, ?_, _, rfl⟩
  · refine hresting.trans ((hremove.append_right _).trans ?_)
    exact (hperm.symm).cons existing
  · rintro p ⟨⟩
    exact ⟨hterms, rfl, rfl⟩
  · rintro p ⟨⟩
    have hid := List.find?_some hexisting
    exact hterms.orderID.trans (beq_iff_eq.mp hid)

end Engine

end FunnyOption.Matching
