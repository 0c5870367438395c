import FunnyOption.Foundation.Run
import FunnyOption.Matching.Resting

/-!
# Sequences of calls to the engine

`Engine` has four operations that change its books: `PlaceOrder`, `CancelOrders`, `AmendOrder` and
`RestoreOrder`. A session is an engine together with everything it has returned, and a call takes a
session to the next one. Unlike the commands of a book engine, which are built from messages, the
calls carry orders as they are: with any status and any quantity filled.

What all books of an engine have in common is proved one book at a time. `EachBook` says that every
book has a property, and the rules below reduce each operation to what it does to one book.
-/

open Foundation

namespace FunnyOption.Matching

/-! ## Sessions -/

/-- A call of an operation of the engine. Those that read the clock once carry what it shows. -/
inductive Call where
  | place (order : Order)
  | cancel (orders : List Order) (reason : CancelReason) (nowMillis : ℤ)
  | amend (original : Order) (newPrice newQty nowMillis : ℤ)
  | restore (order : Order)
  deriving DecidableEq, Repr

/-- An engine, the trades it has returned and the orders it has returned, oldest first. -/
structure Session where
  engine : Engine
  trades : List Trade
  returned : List Order

namespace Session

/-- A session with a new engine. -/
def start (sequence : ℕ) : Session := ⟨.new sequence, [], []⟩

/-- The session after an operation that returns a result. -/
def record (s : Session) (answer : Engine × Result × Option String) : Session :=
  ⟨answer.1, s.trades ++ answer.2.1.trades, s.returned ++ (answer.2.1.order.toList ++ answer.2.1.affected)⟩

/-- A call. -/
def step (clock : ℕ → ℤ) (s : Session) : Call → Option Session
  | .place order => some (s.record (s.engine.placeOrder clock order))
  | .cancel orders reason nowMillis =>
    let answer := s.engine.cancelOrders orders reason nowMillis
    some ⟨answer.1, s.trades, s.returned ++ answer.2.1.orders⟩
  | .amend original newPrice newQty nowMillis =>
    some (s.record (s.engine.amendOrder clock original newPrice newQty nowMillis))
  | .restore order => some { s with engine := (s.engine.restoreOrder order).1 }

/-- An order of a user for the market 7. -/
def sampleOrder (orderID : String) (userID : ℤ) (side : OrderSide) (price quantity : ℤ) : Order :=
  ⟨orderID, "", userID, 7, "YES", side, .limit, .gtc, .none, price, quantity, 0, .unset, .unset, 0, 0⟩

end Session

/-! ## Restoring an order -/

namespace Engine

/-- **What `RestoreOrder` leaves.** -/
theorem resting_restoreOrder (e : Engine) (order : Order) :
    (e.restoreOrder order).1.restingOrders.Perm e.restingOrders ∨
      ∃ status, (e.restoreOrder order).1.restingOrders.Perm
        ({ order with status := status } :: e.restingOrders) := by
  rw [restoreOrder]
  split
  · exact .inl (.refl _)
  · by_cases hleft : order.remainingQuantity ≤ 0
    · rw [if_pos hleft]
      exact .inl (.refl _)
    · rw [if_neg hleft]
      by_cases hhas : (e.getOrCreateBook order.bookKey).hasOrder order.orderID = true
      · simp only [if_pos hhas]
        exact .inl (perm_restingOrders_openBook e _)
      · simp only [if_neg hhas]
        refine .inr ⟨if order.status = .unset then
          if order.filledQuantity > 0 then .partiallyFilled else .new else order.status, ?_⟩
        rw [restingOrders_insert]
        refine ((OrderBookDirect.perm_addOrder _ _).append_right _).trans ?_
        exact (perm_restingOrders e order.bookKey).symm.cons _

/-! ## Amending an order -/

/-- The engine and the order that `AmendOrder` comes to place: a copy of the original is removed, and its terms
are those of the new order but for the price and the quantity. -/
inductive Amends (e : Engine) (original : Order) (newPrice newQty : ℤ) : Engine → Order → Prop
  | intro {book : OrderBookDirect} {existing copy : Order} (book_eq : e.books.lookup original.bookKey = some book)
    (found : book.getDirectOrder original.orderID = some existing) (terms : Sweep.SameTerms existing copy) :
    Amends e original newPrice newQty
      { e with books := e.books.insert original.bookKey (book.removeDirectOrder copy) }
      (amendedOrder copy newPrice newQty)

/-! ## One book at a time -/

/-- Every book has a property, which may depend on its key. -/
def EachBook (P : String → OrderBookDirect → Prop) (e : Engine) : Prop :=
  ∀ key book, e.books.lookup key = some book → P key book

namespace EachBook

variable {P : String → OrderBookDirect → Prop} {clock : ℕ → ℤ} {e : Engine} {book : OrderBookDirect}
  {key : String}

theorem new (P : String → OrderBookDirect → Prop) (sequence : ℕ) : EachBook P (Engine.new sequence) := by
  intro key book h
  exact absurd h (by simp [Engine.new])

theorem getOrCreateBook (h : EachBook P e) (hnew : ∀ key, P key (.new key)) (key : String) :
    P key (e.getOrCreateBook key) := by
  rw [Engine.getOrCreateBook]
  cases hbook : e.books.lookup key with
  | none => exact hnew key
  | some book => exact h key book hbook

theorem insert (h : EachBook P e) (hbook : P key book) (sequence localSeq : ℕ) :
    EachBook P ⟨e.books.insert key book, sequence, localSeq⟩ := by
  intro key' book' hlookup
  by_cases hk : key' = key
  · subst hk
    rw [AList.lookup_insert] at hlookup
    obtain rfl := Option.some_inj.mp hlookup
    exact hbook
  · rw [AList.lookup_insert_ne hk] at hlookup
    exact h key' book' hlookup

theorem openBook (h : EachBook P e) (hnew : ∀ key, P key (.new key)) (key : String) : EachBook P (e.openBook key) :=
  h.insert (h.getOrCreateBook hnew key) _ _

/-- Placing an order, given what processing it does to its book. -/
theorem placeOrder (h : EachBook P e) (hnew : ∀ key, P key (.new key)) (order : Order)
    (hprocess : e.Accepts order → P order.bookKey (e.getOrCreateBook order.bookKey) → P order.bookKey
        (e.processLimitOrder clock order.opened (e.getOrCreateBook order.bookKey)).2) :
    EachBook P (e.placeOrder clock order).1 := by
  rw [Engine.placeOrder]
  split
  · exact h
  · next hvalid =>
    split_ifs with hhas
    · exact h.openBook hnew _
    · split
      · exact h.openBook hnew _
      · next hlimit =>
        have haccepts : e.Accepts order := ⟨hvalid, Bool.eq_false_iff.mpr hhas, hlimit⟩
        exact h.insert (hprocess haccepts (h.getOrCreateBook hnew _)) _ _

/-- Restoring an order, given what adding it does to its book. -/
theorem restoreOrder (h : EachBook P e) (hnew : ∀ key, P key (.new key)) (order : Order)
    (hadd : ∀ status, (e.getOrCreateBook order.bookKey).hasOrder order.orderID = false →
      P order.bookKey (e.getOrCreateBook order.bookKey) →
      P order.bookKey ((e.getOrCreateBook order.bookKey).addOrder { order with status := status })) :
    EachBook P (e.restoreOrder order).1 := by
  rw [Engine.restoreOrder]
  split
  · exact h
  · by_cases hleft : order.remainingQuantity ≤ 0
    · rw [if_pos hleft]
      exact h
    · rw [if_neg hleft]
      by_cases hhas : (e.getOrCreateBook order.bookKey).hasOrder order.orderID = true
      · simp only [if_pos hhas]
        exact h.openBook hnew _
      · simp only [if_neg hhas]
        exact h.insert (hadd _ (Bool.eq_false_iff.mpr hhas) (h.getOrCreateBook hnew _)) _ _

/-! ### Cancelling -/

theorem closeBook (h : EachBook P e) (snapshots : List BookSnapshot) (key : String) :
    EachBook P (closeBook (e, snapshots) key).1 := by
  rw [Engine.closeBook]
  split
  · exact h
  · dsimp only
    split_ifs
    · intro key' book' hlookup
      by_cases hk : key' = key
      · rw [hk, AList.lookup_erase] at hlookup
        exact absurd hlookup (by simp)
      · rw [AList.lookup_erase_ne hk] at hlookup
        exact h key' book' hlookup
    · exact h

theorem closeBooks (keys : List String) (closed : Engine × List BookSnapshot) (h : EachBook P closed.1) :
    EachBook P (keys.foldl Engine.closeBook closed).1 := by
  induction keys generalizing closed with
  | nil => exact h
  | cons key keys ih => exact ih _ (h.closeBook closed.2 key)

/-- Taking a resting order out keeps a property of a book. The order is given by a copy that may have another
status. -/
def KeptByRemoval (P : String → OrderBookDirect → Prop) : Prop :=
  ∀ key book o copy, P key book → o ∈ book.orders → Sweep.SameTerms o copy →
    copy.filledQuantity = o.filledQuantity → P key (book.removeDirectOrder copy)

/-- The body of the first loop of `CancelOrders`, given what removing an order does to a book. -/
theorem cancelOne (hremove : KeptByRemoval P) (reason : CancelReason) (nowMillis : ℤ) {c : Cancelling}
    (h : EachBook P c.engine) (candidate : Order) : EachBook P (cancelOne reason nowMillis c candidate).engine := by
  rw [Engine.cancelOne]
  split
  · exact h
  · next book hbook =>
    split
    · exact h
    · next existing hexisting =>
      by_cases hleft : existing.remainingQuantity ≤ 0
      · rw [if_pos hleft]
        exact h
      · rw [if_neg hleft]
        refine h.insert (hremove _ book existing _ (h _ book hbook) (List.mem_of_find?_eq_some hexisting) ?_ ?_) _ _
        · constructor <;> rfl
        · rfl

theorem cancelAll (hremove : KeptByRemoval P) (reason : CancelReason) (nowMillis : ℤ) (orders : List Order)
    (c : Cancelling) (h : EachBook P c.engine) :
    EachBook P (orders.foldl (Engine.cancelOne reason nowMillis) c).engine := by
  induction orders generalizing c with
  | nil => exact h
  | cons order orders ih => exact ih _ (cancelOne hremove reason nowMillis h order)

theorem cancelOrders (h : EachBook P e) (hremove : KeptByRemoval P) (orders : List Order) (reason : CancelReason)
    (nowMillis : ℤ) : EachBook P (e.cancelOrders orders reason nowMillis).1 := by
  rw [Engine.cancelOrders]
  split_ifs
  · exact h
  · exact h
  · exact closeBooks _ _ (cancelAll hremove reason nowMillis orders ⟨e, [], []⟩ h)

/-! ### Amending -/

/-- Amending an order is removing one and placing another, given what placing it does. -/
theorem amendOrder (h : EachBook P e) (hremove : KeptByRemoval P) (original : Order) (newPrice newQty nowMillis : ℤ)
    (hplace : ∀ e' order, Amends e original newPrice newQty e' order → EachBook P e' →
      EachBook P (e'.placeOrder clock order).1) :
    EachBook P (e.amendOrder clock original newPrice newQty nowMillis).1 := by
  rw [Engine.amendOrder]
  split
  · exact h
  · next book hbook =>
    split
    · exact h
    · next existing hexisting =>
      split_ifs
      · exact h
      · have hterms : Sweep.SameTerms existing { existing.cancel .amended with updatedAtMillis := nowMillis } := by
          constructor <;> rfl
        refine hplace _ _ (.intro hbook hexisting hterms) (h.insert ?_ _ _)
        exact hremove _ book existing _ (h _ book hbook) (List.mem_of_find?_eq_some hexisting) hterms rfl

end EachBook

end Engine

end FunnyOption.Matching
