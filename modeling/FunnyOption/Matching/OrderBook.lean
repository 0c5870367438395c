import FunnyOption.Matching.Order

/-!
# The order book

`OrderBookDirect` keeps an array of buckets for each side, one for every price, a bitmap of the
buckets that are not empty, and the best price of the side. Walking a side means going from the best
bucket to the next set bit and so on, and inside a bucket from its head to its tail. Here a side is
the list of its non-empty buckets in that order, from the best price on; a bucket is the list of its
orders from head to tail. The index of orders by their id is a search of these lists.

The volume of a bucket is stored beside its orders and is not recomputed from them: it grows when an
order is appended and shrinks by the remaining quantity an order has when it is removed. It outlives
the orders, so it is kept for every price.
-/

open Foundation

namespace FunnyOption.Matching

/-- `Bucket`: the orders of one price, oldest first. -/
structure Bucket where
  price : ℤ
  orders : List Order
  deriving DecidableEq, Repr

/-! ## One side -/

/-- One side of a book. -/
structure BookSide where
  /-- The non-empty buckets, from the best price on. -/
  buckets : List Bucket
  /-- `Volume` of the bucket of each price. -/
  volume : ℤ → ℤ

namespace BookSide

/-- A side without orders. -/
def empty : BookSide := ⟨[], fun _ ↦ 0⟩

/-- Whether a price comes before another in the walk of a side: asks go up, bids go down. -/
def better (side : OrderSide) (price price' : ℤ) : Bool :=
  match side with
  | .buy => price > price'
  | .sell => price < price'

/-- Append an order to the bucket of its price. -/
def insertOrder (side : OrderSide) (order : Order) : List Bucket → List Bucket
  | [] => [⟨order.price, [order]⟩]
  | b :: bs =>
    if order.price = b.price then { b with orders := b.orders ++ [order] } :: bs
    else if better side order.price b.price then ⟨order.price, [order]⟩ :: b :: bs
    else b :: insertOrder side order bs

/-- Take an order out of the bucket of its price. -/
def eraseOrder (order : Order) : List Bucket → List Bucket
  | [] => []
  | b :: bs =>
    if order.price = b.price then
      match b.orders.eraseP (·.orderID == order.orderID) with
      | [] => bs
      | orders => { b with orders := orders } :: bs
    else b :: eraseOrder order bs

/-- All orders of a side, in the order of the walk. -/
def orders (s : BookSide) : List Order := s.buckets.flatMap Bucket.orders

/-- The effect of `AddOrder` on the side of the order. -/
def addOrder (s : BookSide) (order : Order) : BookSide := ⟨insertOrder order.side order s.buckets,
    Function.update s.volume order.price (s.volume order.price + order.remainingQuantity)⟩

/-- The volume after an order was removed. -/
def dropVolume (volume : ℤ → ℤ) (order : Order) : ℤ → ℤ :=
  Function.update volume order.price (volume order.price - order.remainingQuantity)

/-- The effect of `RemoveDirectOrder` on the side of the order. -/
def removeOrder (s : BookSide) (order : Order) : BookSide := ⟨eraseOrder order s.buckets, dropVolume s.volume order⟩

/-- The best price, if there is one. -/
def best (s : BookSide) : Option ℤ := s.buckets.head?.map Bucket.price

end BookSide

/-! ## The book -/

/-- `OrderBookDirect`. -/
structure OrderBookDirect where
  key : String
  asks : BookSide
  bids : BookSide

/-- `BookLevel`. -/
structure BookLevel where
  price : ℤ
  quantity : ℤ
  deriving DecidableEq, Repr

/-- `BookSnapshot`; a best price of zero means that the side is empty. -/
structure BookSnapshot where
  key : String
  bids : List BookLevel
  asks : List BookLevel
  bestBid : ℤ
  bestAsk : ℤ
  deriving DecidableEq, Repr

/-- The zero value of a snapshot. -/
def BookSnapshot.zero : BookSnapshot := ⟨"", [], [], 0, 0⟩

namespace OrderBookDirect

/-- `NewOrderBookDirect`. -/
def new (key : String) : OrderBookDirect := ⟨key, .empty, .empty⟩

/-- The side that holds orders of a side. -/
def side (book : OrderBookDirect) : OrderSide → BookSide
  | .buy => book.bids
  | .sell => book.asks

/-- Replace a side. -/
def setSide (book : OrderBookDirect) : OrderSide → BookSide → OrderBookDirect
  | .buy, s => { book with bids := s }
  | .sell, s => { book with asks := s }

/-- All resting orders. -/
def orders (book : OrderBookDirect) : List Order := book.bids.orders ++ book.asks.orders

/-- `GetDirectOrder`. -/
def getDirectOrder (book : OrderBookDirect) (orderID : String) : Option Order :=
  book.orders.find? (·.orderID == orderID)

/-- `HasOrder`. -/
def hasOrder (book : OrderBookDirect) (orderID : String) : Bool := (book.getDirectOrder orderID).isSome

/-- `AddOrder`. -/
def addOrder (book : OrderBookDirect) (order : Order) : OrderBookDirect :=
  book.setSide order.side ((book.side order.side).addOrder order)

/-- `RemoveDirectOrder`. -/
def removeDirectOrder (book : OrderBookDirect) (order : Order) : OrderBookDirect :=
  book.setSide order.side ((book.side order.side).removeOrder order)

/-- `OrderCount`. -/
def orderCount (book : OrderBookDirect) : ℕ := book.orders.length

/-- `IsCross`. -/
def isCross (book : OrderBookDirect) (order : Order) : Bool :=
  match (book.side order.side.opposite).best with
  | none => false
  | some price => order.crosses price

/-- `Snapshot`. -/
def snapshot (book : OrderBookDirect) (limit : ℕ) : BookSnapshot :=
  let limit := if limit = 0 then 5 else limit
  let levels (s : BookSide) := (s.buckets.take limit).map fun b ↦ ⟨b.price, s.volume b.price⟩
  ⟨book.key, levels book.bids, levels book.asks, book.bids.best.getD 0, book.asks.best.getD 0⟩

end OrderBookDirect

/-! ## Well-formed sides -/

namespace BookSide

theorem better_trans {side : OrderSide} {p q r : ℤ} (hpq : better side p q) (hqr : better side q r) :
    better side p r := by
  cases side <;> simp only [better, decide_eq_true_eq] at * <;> omega

theorem better_of_not_better {side : OrderSide} {p q : ℤ} (hne : p ≠ q) (h : ¬ better side p q) :
    better side q p := by
  cases side <;> simp only [better, decide_eq_true_eq] at * <;> omega

theorem ne_of_better {side : OrderSide} {p q : ℤ} (h : better side p q) : p ≠ q := by
  cases side <;> simp only [better, decide_eq_true_eq] at h <;> omega

/-- The buckets of a side go from the best price to the worst, and each holds orders of its price and
of the side, at least one. -/
structure WellFormed (side : OrderSide) (buckets : List Bucket) : Prop where
  nonempty : ∀ b ∈ buckets, b.orders ≠ []
  order : ∀ b ∈ buckets, ∀ o ∈ b.orders, o.price = b.price ∧ o.side = side
  sorted : buckets.Pairwise fun b b' ↦ better side b.price b'.price

variable {side : OrderSide} {b : Bucket} {bs buckets : List Bucket} {order : Order}

theorem WellFormed.nil : WellFormed side [] := ⟨nofun, nofun, .nil⟩

theorem wellFormed_cons : WellFormed side (b :: bs) ↔
      b.orders ≠ [] ∧ (∀ o ∈ b.orders, o.price = b.price ∧ o.side = side) ∧
        (∀ b' ∈ bs, better side b.price b'.price) ∧ WellFormed side bs := by
  constructor
  · rintro ⟨hne, ho, hsort⟩
    rw [List.forall_mem_cons] at hne ho
    rw [List.pairwise_cons] at hsort
    exact ⟨hne.1, ho.1, hsort.1, hne.2, ho.2, hsort.2⟩
  · rintro ⟨hne, ho, hbest, hbs⟩
    exact ⟨List.forall_mem_cons.mpr ⟨hne, hbs.nonempty⟩, List.forall_mem_cons.mpr ⟨ho, hbs.order⟩,
      List.pairwise_cons.mpr ⟨hbest, hbs.sorted⟩⟩

/-- The prices of a side after an insertion. -/
theorem price_of_mem_insertOrder {b' : Bucket} (h : b' ∈ insertOrder side order buckets) :
    b'.price = order.price ∨ ∃ b ∈ buckets, b.price = b'.price := by
  induction buckets with
  | nil =>
    obtain rfl := List.mem_singleton.mp h
    exact .inl rfl
  | cons b bs ih =>
    rw [insertOrder] at h
    split_ifs at h with hprice hbetter
    · rcases List.mem_cons.mp h with rfl | h
      · exact .inl hprice.symm
      · exact .inr ⟨b', List.mem_cons_of_mem b h, rfl⟩
    · rcases List.mem_cons.mp h with rfl | h
      · exact .inl rfl
      · exact .inr ⟨b', h, rfl⟩
    · rcases List.mem_cons.mp h with rfl | h
      · exact .inr ⟨b', List.mem_cons_self, rfl⟩
      · rcases ih h with h | ⟨c, hc, heq⟩
        · exact .inl h
        · exact .inr ⟨c, List.mem_cons_of_mem b hc, heq⟩

theorem WellFormed.insertOrder (h : WellFormed side buckets) (hside : order.side = side) :
    WellFormed side (insertOrder side order buckets) := by
  induction buckets with
  | nil => exact wellFormed_cons.mpr ⟨by simp, by simpa using hside, nofun, .nil⟩
  | cons b bs ih =>
    obtain ⟨hne, ho, hbest, hbs⟩ := wellFormed_cons.mp h
    rw [BookSide.insertOrder]
    split_ifs with hprice hbetter
    · refine wellFormed_cons.mpr ⟨by simp, List.forall_mem_append.mpr ⟨ho, ?_⟩, hbest, hbs⟩
      exact List.forall_mem_singleton.mpr ⟨hprice, hside⟩
    · refine wellFormed_cons.mpr ⟨by simp, by simpa using hside, List.forall_mem_cons.mpr ⟨hbetter, ?_⟩, h⟩
      exact fun b' hb' ↦ better_trans hbetter (hbest b' hb')
    · refine wellFormed_cons.mpr ⟨hne, ho, fun b' hb' ↦ ?_, ih hbs⟩
      rcases price_of_mem_insertOrder hb' with heq | ⟨c, hc, heq⟩
      · rw [heq]
        exact better_of_not_better hprice hbetter
      · rw [← heq]
        exact hbest c hc

/-- An inserted order joins the others. -/
theorem perm_insertOrder (side : OrderSide) (order : Order) (buckets : List Bucket) :
    ((insertOrder side order buckets).flatMap Bucket.orders).Perm
      (order :: buckets.flatMap Bucket.orders) := by
  induction buckets with
  | nil => simp [insertOrder]
  | cons b bs ih =>
    rw [insertOrder]
    split_ifs
    · simp only [List.flatMap_cons, List.append_assoc, List.singleton_append]
      exact List.perm_middle
    · simp
    · simp only [List.flatMap_cons]
      exact (ih.append_left b.orders).trans List.perm_middle

theorem price_of_mem_eraseOrder {b' : Bucket} (h : b' ∈ eraseOrder order buckets) :
    ∃ b ∈ buckets, b.price = b'.price := by
  induction buckets with
  | nil => exact absurd h (by simp [eraseOrder])
  | cons b bs ih =>
    rw [eraseOrder] at h
    split_ifs at h
    · split at h
      · exact ⟨b', List.mem_cons_of_mem b h, rfl⟩
      · rcases List.mem_cons.mp h with rfl | h
        · exact ⟨b, List.mem_cons_self, rfl⟩
        · exact ⟨b', List.mem_cons_of_mem b h, rfl⟩
    · rcases List.mem_cons.mp h with rfl | h
      · exact ⟨b', List.mem_cons_self, rfl⟩
      · obtain ⟨c, hc, heq⟩ := ih h
        exact ⟨c, List.mem_cons_of_mem b hc, heq⟩

/-- Taking an order out adds none. -/
theorem eraseOrder_sublist (order : Order) (buckets : List Bucket) :
    ((eraseOrder order buckets).flatMap Bucket.orders).Sublist (buckets.flatMap Bucket.orders) := by
  induction buckets with
  | nil => exact .slnil
  | cons b bs ih =>
    rw [eraseOrder, List.flatMap_cons]
    split_ifs
    · split
      · exact List.sublist_append_right _ _
      · rw [List.flatMap_cons]
        exact List.eraseP_sublist.append_right _
    · rw [List.flatMap_cons]
      exact ih.append_left _

theorem WellFormed.eraseOrder (h : WellFormed side buckets) : WellFormed side (eraseOrder order buckets) := by
  induction buckets with
  | nil => exact .nil
  | cons b bs ih =>
    obtain ⟨hne, ho, hbest, hbs⟩ := wellFormed_cons.mp h
    rw [BookSide.eraseOrder]
    split_ifs
    · split
      · exact hbs
      · next hsome =>
        refine wellFormed_cons.mpr ⟨hsome, fun o hmem ↦ ?_, hbest, hbs⟩
        exact ho o (List.mem_of_mem_eraseP hmem)
    · refine wellFormed_cons.mpr ⟨hne, ho, fun b' hb' ↦ ?_, ih hbs⟩
      obtain ⟨c, hc, heq⟩ := price_of_mem_eraseOrder hb'
      rw [← heq]
      exact hbest c hc

private theorem perm_eraseP_of_mem {l : List Order} (hmem : order ∈ l) (hids : (l.map Order.orderID).Nodup) :
    l.Perm (order :: l.eraseP (·.orderID == order.orderID)) := by
  obtain ⟨o, l₁, l₂, -, hid, hl, herase⟩ := List.exists_of_eraseP (p := (·.orderID == order.orderID)) hmem (by simp)
  have ho : o ∈ l := by simp [hl]
  obtain rfl : o = order := List.inj_on_of_nodup_map hids ho hmem (by simpa using hid)
  rw [herase, hl]
  exact List.perm_middle

/-- An order that is taken out leaves the others. -/
theorem perm_eraseOrder (h : WellFormed side buckets) (hmem : order ∈ buckets.flatMap Bucket.orders)
    (hids : ((buckets.flatMap Bucket.orders).map Order.orderID).Nodup) :
    (buckets.flatMap Bucket.orders).Perm
      (order :: (eraseOrder order buckets).flatMap Bucket.orders) := by
  induction buckets with
  | nil => exact absurd hmem (by simp)
  | cons b bs ih =>
    obtain ⟨hne, ho, hbest, hbs⟩ := wellFormed_cons.mp h
    simp only [List.flatMap_cons, List.map_append, List.nodup_append] at hids
    rw [List.flatMap_cons, List.mem_append] at hmem
    rw [eraseOrder, List.flatMap_cons]
    rcases hmem with hmem | hmem
    · rw [if_pos (ho order hmem).1]
      have hperm := (perm_eraseP_of_mem hmem hids.1).append_right (bs.flatMap Bucket.orders)
      split
      · next hnil =>
        rw [hnil] at hperm
        simpa using hperm
      · simpa [List.flatMap_cons] using hperm
    · -- the order is in a later bucket, whose price is not the one of `b`
      obtain ⟨c, hc, hmemc⟩ := List.mem_flatMap.mp hmem
      have hne : order.price ≠ b.price := by
        rw [(hbs.order c hc order hmemc).1]
        exact (ne_of_better (hbest c hc)).symm
      rw [if_neg hne, List.flatMap_cons]
      exact ((ih hbs hmem hids.2.1).append_left b.orders).trans List.perm_middle

end BookSide

end FunnyOption.Matching
