import FunnyOption.Rollup.Journal

/-!
# The journal follows the book

`Synced` relates a journal to the orders that rest: the journal replays, its open orders are these
orders, and the keys in it are those of what has happened to them. It is the simulation relation
between the engine and the replay, and it is kept entry by entry: there is one lemma for each kind of
entry, which says what has to be true of the orders when the entry is appended.

An open order carries a reserve. `Mirrors` says that the reserve covers what is left of the order at
its own price; a fill at that price or a better one then never asks for more than there is.
-/

open Foundation

namespace FunnyOption.Rollup

open Matching ShadowState

/-! ## Reserves -/

/-- What an order of a side has to reserve. -/
def requiredReserve : OrderSide → ℤ → ℤ → ℤ
  | .buy, price, quantity => price * quantity
  | .sell, _, quantity => quantity

theorem normalize_text (side : OrderSide) : normalize side.text = side.text := by
  cases side <;> rfl

theorem expectedReserveAmount_text {side : OrderSide} {price quantity : ℤ} (hprice : 0 ≤ price)
    (hquantity : 0 ≤ quantity) (hbound : requiredReserve side price quantity ≤ maxInt64) :
    expectedReserveAmount side.text price quantity = requiredReserve side price quantity := by
  rw [expectedReserveAmount, normalize_text]
  by_cases hzero : quantity ≤ 0
  · obtain rfl : quantity = 0 := le_antisymm hzero hquantity
    cases side <;> simp [requiredReserve]
  · rw [if_neg hzero]
    cases side with
    | buy =>
      rw [if_neg (by decide), multiply_eq_ok hprice hquantity hbound]
      rfl
    | sell => exact if_pos rfl

theorem requiredReserve_nonneg {side : OrderSide} {price quantity : ℤ} (hprice : 0 ≤ price)
    (hquantity : 0 ≤ quantity) : 0 ≤ requiredReserve side price quantity := by
  cases side with
  | buy => exact mul_nonneg hprice hquantity
  | sell => exact hquantity

/-- What a fill draws and what is required after it fit into what is required before. -/
theorem requiredReserve_fill {side : OrderSide} {price limit qty : ℤ} (hpos : 0 < qty)
    (hbuy : side = .buy → price ≤ limit) (quantity : ℤ) :
    requiredReserve side price qty + requiredReserve side limit (quantity - qty) ≤
      requiredReserve side limit quantity := by
  cases side with
  | buy =>
    have hdraw : price * qty ≤ limit * qty := mul_le_mul_of_nonneg_right (hbuy rfl) hpos.le
    simp only [requiredReserve, mul_sub]
    omega
  | sell =>
    simp only [requiredReserve]
    omega

/-! ## Open orders -/

/-- An open order of the replay stands for a resting order. -/
structure Mirrors (leaf : OrderLeaf) (o : Order) : Prop where
  side : leaf.side = o.side.text
  price : leaf.price = o.price
  remaining : leaf.remainingQuantity = o.remainingQuantity
  reserve : requiredReserve o.side o.price o.remainingQuantity ≤ leaf.reservedCollateral
  bound : requiredReserve o.side o.price o.remainingQuantity ≤ maxInt64
  price_pos : 0 < o.price
  left : 0 < o.remainingQuantity
  started : 0 ≤ o.filledQuantity

namespace Mirrors

variable {leaf : OrderLeaf} {o : Order} {qty price : ℤ}

/-- **A fill at the price of the order or a better one is covered.** -/
theorem covers (h : Mirrors leaf o) (hpos : 0 < qty) (hle : qty ≤ o.remainingQuantity) (hprice : 0 ≤ price)
    (hbuy : o.side = .buy → price ≤ o.price) : Covers leaf qty price (requiredReserve o.side price qty) := by
  have hfill := requiredReserve_fill hpos hbuy o.remainingQuantity
  have hrest : 0 ≤ requiredReserve o.side o.price (o.remainingQuantity - qty) :=
    requiredReserve_nonneg h.price_pos.le (sub_nonneg.mpr hle)
  have hdraw : 0 ≤ requiredReserve o.side price qty := requiredReserve_nonneg hprice hpos.le
  have hbound := h.bound
  refine ⟨hpos, h.remaining ▸ hle, ?_, ?_⟩
  · rw [drawnAmount, h.side]
    cases hside : o.side with
    | buy =>
      rw [hside] at hfill hrest hbound
      exact (if_pos rfl).trans (multiply_eq_ok hprice hpos.le
        (show requiredReserve .buy price qty ≤ maxInt64 by omega))
    | sell => rfl
  · rw [h.side, h.price, h.remaining, expectedReserveAmount_text h.price_pos.le (sub_nonneg.mpr hle)
      (by omega)]
    have hreserve := h.reserve
    omega

/-- What is left after a fill is still mirrored. -/
theorem applyFill (h : Mirrors leaf o) (hpos : 0 < qty) (hlt : qty < o.remainingQuantity) (sequence : ℕ) :
    Mirrors (filledOrder sequence leaf qty) (o.applyFill qty) := by
  have hrem := o.remainingQuantity_applyFill hpos hlt.le
  have hfill := requiredReserve_fill hpos (fun _ : o.side = .buy ↦ le_refl o.price)
    o.remainingQuantity
  have hdraw : 0 ≤ requiredReserve o.side o.price qty := requiredReserve_nonneg h.price_pos.le hpos.le
  have hbound : requiredReserve o.side o.price (o.remainingQuantity - qty) ≤ maxInt64 := by
    have := h.bound
    omega
  refine ⟨h.side, h.price, ?_, ?_, ?_, h.price_pos, ?_, ?_⟩
  · rw [hrem, ← h.remaining]
    rfl
  · rw [hrem]
    simp only [filledOrder, h.side, h.price, h.remaining]
    rw [expectedReserveAmount_text h.price_pos.le (by omega) hbound]
    exact le_refl _
  · rw [hrem]
    exact hbound
  · omega
  · exact add_nonneg h.started hpos.le

theorem congr {o' : Order} (h : Mirrors leaf o) (hterms : Sweep.SameTerms o o')
    (hfilled : o'.filledQuantity = o.filledQuantity) : Mirrors leaf o' := by
  have hrem : o'.remainingQuantity = o.remainingQuantity := by
    rw [Order.remainingQuantity, Order.remainingQuantity, hterms.quantity, hfilled]
  constructor
  · rw [hterms.side, h.side]
  · rw [hterms.price, h.price]
  · rw [hrem, h.remaining]
  · rw [hterms.side, hterms.price, hrem]
    exact h.reserve
  · rw [hterms.side, hterms.price, hrem]
    exact h.bound
  · rw [hterms.price]
    exact h.price_pos
  · rw [hrem]
    exact h.left
  · rw [hfilled]
    exact h.started

end Mirrors

/-- The reference of an order in the journal. -/
def ref (o : Order) : String := trimSpace o.orderID

/-- An order, if something is left of it. -/
def live (o : Order) : List Order := if o.remainingQuantity = 0 then [] else [o]

/-- The open orders of the replay are the given ones. -/
structure Reflects (leaves : String → Option OrderLeaf) (orders : List Order) : Prop where
  refs : (orders.map ref).Nodup
  mirrored : ∀ o ∈ orders, ∃ leaf, leaves o.orderID = some leaf ∧ Mirrors leaf o
  only : ∀ id leaf, leaves id = some leaf → ∃ o ∈ orders, o.orderID = id

namespace Reflects

variable {leaves : String → Option OrderLeaf} {orders rest : List Order} {o o' : Order}
  {leaf : OrderLeaf}

theorem perm (h : Reflects leaves orders) {orders' : List Order} (hperm : orders.Perm orders') :
    Reflects leaves orders' where
  refs := (hperm.map ref).nodup_iff.mp h.refs
  mirrored := fun o ho ↦ h.mirrored o (hperm.mem_iff.mpr ho)
  only := fun id leaf hleaf ↦ by
    obtain ⟨o, ho, hid⟩ := h.only id leaf hleaf
    exact ⟨o, hperm.mem_iff.mp ho, hid⟩

theorem ref_ne (h : Reflects leaves (o :: rest)) {x : Order} (hx : x ∈ rest) : ref x ≠ ref o := by
  have hnodup := h.refs
  rw [List.map_cons, List.nodup_cons] at hnodup
  intro heq
  exact hnodup.1 (heq ▸ List.mem_map_of_mem hx)

theorem orderID_ne (h : Reflects leaves (o :: rest)) {x : Order} (hx : x ∈ rest) : x.orderID ≠ o.orderID :=
  fun heq ↦ h.ref_ne hx (by rw [ref, ref, heq])

/-- An order is deleted. -/
theorem delete (h : Reflects leaves (o :: rest)) : Reflects (Function.update leaves o.orderID none) rest where
  refs := by
    have hnodup := h.refs
    rw [List.map_cons, List.nodup_cons] at hnodup
    exact hnodup.2
  mirrored := fun x hx ↦ by
    rw [Function.update_of_ne (h.orderID_ne hx)]
    exact h.mirrored x (List.mem_cons_of_mem o hx)
  only := fun id leaf hleaf ↦ by
    by_cases hid : id = o.orderID
    · rw [hid, Function.update_self] at hleaf
      exact absurd hleaf (by simp)
    · rw [Function.update_of_ne hid] at hleaf
      obtain ⟨x, hx, hxid⟩ := h.only id leaf hleaf
      rcases List.mem_cons.mp hx with rfl | hx
      · exact absurd hxid.symm hid
      · exact ⟨x, hx, hxid⟩

/-- An order is written that is not there yet. -/
theorem insert (h : Reflects leaves orders) (o : Order) (hnew : ref o ∉ orders.map ref) (hleaf : Mirrors leaf o) :
    Reflects (Function.update leaves o.orderID (some leaf)) (o :: orders) where
  refs := by
    rw [List.map_cons]
    exact List.nodup_cons.mpr ⟨hnew, h.refs⟩
  mirrored := fun x hx ↦ by
    rcases List.mem_cons.mp hx with rfl | hx
    · exact ⟨leaf, Function.update_self .., hleaf⟩
    · have hne : x.orderID ≠ o.orderID := by
        intro heq
        exact hnew (List.mem_map.mpr ⟨x, hx, by rw [ref, ref, heq]⟩)
      rw [Function.update_of_ne hne]
      exact h.mirrored x hx
  only := fun id leaf' hleaf' ↦ by
    by_cases hid : id = o.orderID
    · exact ⟨o, List.mem_cons_self, hid.symm⟩
    · rw [Function.update_of_ne hid] at hleaf'
      obtain ⟨x, hx, hxid⟩ := h.only id leaf' hleaf'
      exact ⟨x, List.mem_cons_of_mem o hx, hxid⟩

/-- An order is overwritten, or deleted if nothing is left of it. -/
theorem set (h : Reflects leaves (o :: rest)) (o' : Order) (hid : o'.orderID = o.orderID)
    (hleaf : o'.remainingQuantity ≠ 0 → Mirrors leaf o') :
    Reflects (Function.update leaves o.orderID
      (if o'.remainingQuantity = 0 then none else some leaf)) (live o' ++ rest) := by
  by_cases hzero : o'.remainingQuantity = 0
  · rw [if_pos hzero, live, if_pos hzero]
    exact h.delete
  · have hnew : ref o' ∉ rest.map ref := by
      have hnodup := h.refs
      rw [List.map_cons, List.nodup_cons] at hnodup
      rw [ref, hid]
      exact hnodup.1
    rw [if_neg hzero, live, if_neg hzero]
    have hinsert := h.delete.insert o' hnew (hleaf hzero)
    rwa [hid, Function.update_idem] at hinsert

/-- **A trade between two open orders.** The entry applies, and both orders are filled. -/
theorem trade {s : ShadowState} {taker maker : Order} (h : Reflects s.openOrders (taker :: maker :: rest))
    (sequence : ℕ) (p : TradeMatchedPayload) (htakerID : p.takerOrderID = taker.orderID)
    (hmakerID : p.makerOrderID = maker.orderID) (hprice : p.price = maker.price)
    (hside : maker.side = taker.side.opposite) (hcross : taker.crosses maker.price = true) (hpos : 0 < p.quantity)
    (htaker : p.quantity ≤ taker.remainingQuantity) (hmaker : p.quantity ≤ maker.remainingQuantity) :
    ∃ s', s.applyTradeMatched sequence p = .ok s' ∧ Reflects s'.openOrders
      (live (taker.applyFill p.quantity) ++ (live (maker.applyFill p.quantity) ++ rest)) := by
  obtain ⟨takerLeaf, htakerLeaf, htakerMirrors⟩ := h.mirrored taker (by simp)
  obtain ⟨makerLeaf, hmakerLeaf, hmakerMirrors⟩ := h.mirrored maker (by simp)
  have hp : 0 ≤ p.price := hprice ▸ hmakerMirrors.price_pos.le
  have htakerCovers := htakerMirrors.covers hpos htaker hp fun hbuy ↦ by
    simpa [Order.crosses, hbuy, hprice] using hcross
  have hmakerCovers := hmakerMirrors.covers hpos hmaker hp fun _ ↦ hprice.le
  -- the notional is what the buyer draws
  have hnotional : multiply p.price p.quantity = .ok (p.price * p.quantity) := by
    cases hbuyer : taker.side with
    | buy =>
      have hdrawn := htakerCovers.drawn
      rw [drawnAmount, htakerMirrors.side, hbuyer] at hdrawn
      exact hdrawn
    | sell =>
      have hdrawn := hmakerCovers.drawn
      rw [drawnAmount, hmakerMirrors.side, hside, hbuyer] at hdrawn
      exact hdrawn
  have hne : p.takerOrderID ≠ p.makerOrderID := by
    rw [htakerID, hmakerID]
    exact (h.orderID_ne List.mem_cons_self).symm
  obtain ⟨s', hs', horders⟩ := applyTradeMatched_of_covers sequence hnotional hne
    (by rw [htakerID, htakerLeaf]) (by rw [hmakerID, hmakerLeaf]) htakerCovers hmakerCovers
  refine ⟨s', hs', ?_⟩
  have hzero : ∀ {o : Order} {leaf : OrderLeaf}, Mirrors leaf o → p.quantity ≤ o.remainingQuantity →
      (leaf.remainingQuantity = p.quantity ↔ (o.applyFill p.quantity).remainingQuantity = 0) := by
    intro o leaf hleaf hle
    rw [hleaf.remaining, o.remainingQuantity_applyFill hpos hle]
    omega
  have hfilled : ∀ {o : Order} {leaf : OrderLeaf}, Mirrors leaf o → p.quantity ≤ o.remainingQuantity →
      (o.applyFill p.quantity).remainingQuantity ≠ 0 →
      Mirrors (filledOrder sequence leaf p.quantity) (o.applyFill p.quantity) := by
    intro o leaf hleaf hle hleft
    rw [o.remainingQuantity_applyFill hpos hle] at hleft
    exact hleaf.applyFill hpos (by omega) sequence
  simp only [horders, hzero htakerMirrors htaker, hzero hmakerMirrors hmaker, htakerID, hmakerID]
  have hfirst := h.set (taker.applyFill p.quantity) rfl (hfilled htakerMirrors htaker)
  have hsecond := (hfirst.perm List.perm_middle).set (maker.applyFill p.quantity) rfl
    (hfilled hmakerMirrors hmaker)
  exact hsecond.perm (List.perm_append_comm_assoc _ _ _)

end Reflects

/-! ## Keys -/

/-- The keys in a journal are those of what happened to the given orders and others. -/
structure Keyed (keys : List EntryKey) (orders : List Order) (sequence : ℕ) : Prop where
  accepted : ∀ o ∈ orders, acceptedKey o.orderID ∈ keys
  uncancelled : ∀ o ∈ orders, cancelledKey o.orderID ∉ keys
  cancelled : ∀ id, cancelledKey id ∈ keys → acceptedKey id ∈ keys
  trades : ∀ n > sequence, tradeKey n ∉ keys

theorem Keyed.perm {keys : List EntryKey} {orders orders' : List Order} {sequence : ℕ}
    (h : Keyed keys orders sequence) (hperm : orders.Perm orders') : Keyed keys orders' sequence where
  accepted := fun o ho ↦ h.accepted o (hperm.mem_iff.mpr ho)
  uncancelled := fun o ho ↦ h.uncancelled o (hperm.mem_iff.mpr ho)
  cancelled := h.cancelled
  trades := h.trades

/-! ## The simulation relation -/

/-- **The journal is in step with the orders.** -/
structure Synced (journal : List JournalAppend) (orders : List Order) (sequence : ℕ) : Prop where
  replays : ∃ s, replay journal = .ok s ∧ Reflects s.openOrders orders
  keyed : Keyed (journal.map JournalAppend.key) orders sequence

theorem replay_append_singleton {journal : List JournalAppend} {entry : JournalAppend} {s s' : ShadowState}
    (hreplay : replay journal = .ok s) (happly : s.apply (1 + journal.length) entry.payload = .ok s') :
    replay (journal ++ [entry]) = .ok s' := by
  rw [replay] at hreplay ⊢
  rw [applyAll_append, hreplay]
  simp only [applyAll, happly]

namespace Synced

variable {journal : List JournalAppend} {orders rest : List Order} {sequence : ℕ} {o o' : Order}

theorem start : Synced [] [] 0 := by
  refine ⟨⟨.empty, rfl, List.nodup_nil, by simp, fun id leaf h ↦ ?_⟩, ?_⟩
  · exact absurd h (by simp [ShadowState.empty])
  · constructor <;> simp

theorem perm (h : Synced journal orders sequence) {orders' : List Order} (hperm : orders.Perm orders') :
    Synced journal orders' sequence := by
  obtain ⟨s, hs, hreflects⟩ := h.replays
  exact ⟨⟨s, hs, hreflects.perm hperm⟩, h.keyed.perm hperm⟩

/-- An order is replaced by one with the same terms. -/
theorem congr (h : Synced journal (o :: rest) sequence) (hterms : Sweep.SameTerms o o')
    (hfilled : o'.filledQuantity = o.filledQuantity) : Synced journal (o' :: rest) sequence := by
  obtain ⟨s, hs, hreflects⟩ := h.replays
  have href : ref o' = ref o := by rw [ref, ref, hterms.orderID]
  refine ⟨⟨s, hs, ?_, ?_, ?_⟩, ?_, ?_, h.keyed.cancelled, h.keyed.trades⟩
  · rw [List.map_cons, href]
    exact hreflects.refs
  · rintro x hx
    rcases List.mem_cons.mp hx with rfl | hx
    · obtain ⟨leaf, hleaf, hmirrors⟩ := hreflects.mirrored o List.mem_cons_self
      exact ⟨leaf, hterms.orderID ▸ hleaf, hmirrors.congr hterms hfilled⟩
    · exact hreflects.mirrored x (List.mem_cons_of_mem o hx)
  · intro id leaf hleaf
    obtain ⟨x, hx, hid⟩ := hreflects.only id leaf hleaf
    rcases List.mem_cons.mp hx with rfl | hx
    · exact ⟨o', List.mem_cons_self, hterms.orderID.trans hid⟩
    · exact ⟨x, List.mem_cons_of_mem o' hx, hid⟩
  · rintro x hx
    rcases List.mem_cons.mp hx with rfl | hx
    · rw [hterms.orderID]
      exact h.keyed.accepted o List.mem_cons_self
    · exact h.keyed.accepted x (List.mem_cons_of_mem o hx)
  · rintro x hx
    rcases List.mem_cons.mp hx with rfl | hx
    · rw [hterms.orderID]
      exact h.keyed.uncancelled o List.mem_cons_self
    · exact h.keyed.uncancelled x (List.mem_cons_of_mem o hx)

/-- An accepted order is recorded. -/
theorem accept (h : Synced journal orders sequence) {command : MatchCommand} (nowMillis : ℤ)
    (hkey : acceptedKey command.orderID ∉ journal.map JournalAppend.key) (hprice : 0 < command.price)
    (hquantity : 0 < command.quantity)
    (hreserve : requiredReserve command.side command.price command.quantity ≤ command.freezeAmount)
    (hbound : command.freezeAmount ≤ maxInt64) (hid : o.orderID = command.orderID) :
    Synced (appendEntry journal (acceptanceEntry command o))
      ((command.toOrder nowMillis).opened :: orders) sequence := by
  obtain ⟨s, hs, hreflects⟩ := h.replays
  rw [appendEntry_of_fresh (by rwa [key_acceptanceEntry, hid])]
  have hrem := command.remainingQuantity_opened nowMillis hquantity
  have hnew : ref (command.toOrder nowMillis).opened ∉ orders.map ref := by
    intro hmem
    obtain ⟨x, hx, href⟩ := List.mem_map.mp hmem
    have haccepted := h.keyed.accepted x hx
    rw [acceptedKey, show trimSpace x.orderID = trimSpace command.orderID from href] at haccepted
    exact hkey haccepted
  refine ⟨⟨_, replay_append_singleton hs rfl, ?_⟩, ?_⟩
  · rw [openOrders_applyOrderAccepted]
    simp only [hid]
    refine hreflects.insert (command.toOrder nowMillis).opened hnew ?_
    refine ⟨normalize_text command.side, rfl, hrem.symm, ?_, ?_, hprice, ?_, le_refl 0⟩
    · rwa [hrem]
    · rw [hrem]
      exact hreserve.trans hbound
    · rwa [hrem]
  · rw [List.map_append, List.map_singleton, key_acceptanceEntry, hid]
    refine ⟨fun x hx ↦ ?_, fun x hx ↦ ?_, fun id hmem ↦ ?_, fun n hn ↦ ?_⟩
    · rcases List.mem_cons.mp hx with rfl | hx
      · exact List.mem_append_right _ List.mem_cons_self
      · exact List.mem_append_left _ (h.keyed.accepted x hx)
    · have hold : cancelledKey x.orderID ∉ journal.map JournalAppend.key := by
        rcases List.mem_cons.mp hx with rfl | hx
        · exact fun hmem ↦ hkey (h.keyed.cancelled _ hmem)
        · exact h.keyed.uncancelled x hx
      simpa [cancelledKey, acceptedKey] using hold
    · have hold : cancelledKey id ∈ journal.map JournalAppend.key := by
        simpa [cancelledKey, acceptedKey] using hmem
      exact List.mem_append_left _ (h.keyed.cancelled id hold)
    · simpa [tradeKey, acceptedKey] using h.keyed.trades n hn

/-- The cancellation of an order is recorded. -/
theorem cancel (h : Synced journal (o :: rest) sequence) (hid : o'.orderID = o.orderID) :
    Synced (appendEntry journal (cancellationEntry o')) rest sequence := by
  obtain ⟨s, hs, hreflects⟩ := h.replays
  have hkey := h.keyed.uncancelled o List.mem_cons_self
  rw [appendEntry_of_fresh (by rwa [key_cancellationEntry, hid])]
  refine ⟨⟨_, replay_append_singleton hs rfl, ?_⟩, ?_⟩
  · rw [openOrders_applyOrderCancelled]
    simp only [hid]
    exact hreflects.delete
  · rw [List.map_append, List.map_singleton, key_cancellationEntry, hid]
    refine ⟨fun x hx ↦ ?_, fun x hx ↦ ?_, fun id hmem ↦ ?_, fun n hn ↦ ?_⟩
    · exact List.mem_append_left _ (h.keyed.accepted x (List.mem_cons_of_mem o hx))
    · have hold := h.keyed.uncancelled x (List.mem_cons_of_mem o hx)
      have hne : cancelledKey x.orderID ≠ cancelledKey o.orderID := fun heq ↦
        hreflects.ref_ne hx (Prod.ext_iff.mp (Prod.ext_iff.mp heq).2).2
      rw [List.mem_append, List.mem_singleton, not_or]
      exact ⟨hold, hne⟩
    · rcases List.mem_append.mp hmem with hmem | hmem
      · exact List.mem_append_left _ (h.keyed.cancelled id hmem)
      · have href : trimSpace id = trimSpace o.orderID :=
          (Prod.ext_iff.mp (Prod.ext_iff.mp (List.mem_singleton.mp hmem)).2).2
        rw [acceptedKey, href]
        exact List.mem_append_left _ (h.keyed.accepted o List.mem_cons_self)
    · simpa [tradeKey, cancelledKey] using h.keyed.trades n hn

/-- The cancellations of several orders are recorded. -/
theorem cancelAll {dropped cancelled : List Order} (h : Synced journal (dropped ++ rest) sequence)
    (hids : cancelled.map Order.orderID = dropped.map Order.orderID) :
    Synced (appendEntries journal (cancelled.map cancellationEntry)) rest sequence := by
  induction dropped generalizing journal cancelled with
  | nil =>
    obtain rfl : cancelled = [] := List.map_eq_nil_iff.mp hids
    exact h
  | cons o dropped ih =>
    obtain ⟨c, cancelled', rfl, hid, hids'⟩ := List.map_eq_cons_iff.mp hids
    rw [List.map_cons, appendEntries_cons]
    exact ih (h.cancel hid) hids'

/-- The acceptance and the cancellation of an order are recorded only once. -/
theorem appendEntry_accepted (h : Synced journal (o :: rest) sequence) (command : MatchCommand)
    (hid : o'.orderID = o.orderID) : appendEntry journal (acceptanceEntry command o') = journal := by
  refine appendEntry_of_known ?_
  rw [key_acceptanceEntry, hid]
  exact h.keyed.accepted o List.mem_cons_self

theorem mem_live {x : Order} (hx : x ∈ live o) : x = o := by
  rw [live] at hx
  split_ifs at hx
  · exact absurd hx (by simp)
  · exact List.mem_singleton.mp hx

/-- A trade is recorded. -/
theorem trade {taker maker : Order} {t : Trade} (h : Synced journal (taker :: maker :: rest) sequence)
    (command : MatchCommand) (hsequence : t.sequence = sequence + 1) (htakerID : t.takerOrderID = taker.orderID)
    (hmakerID : t.makerOrderID = maker.orderID) (hprice : t.price = maker.price)
    (hside : maker.side = taker.side.opposite) (hcross : taker.crosses maker.price = true) (hpos : 0 < t.quantity)
    (htaker : t.quantity ≤ taker.remainingQuantity) (hmaker : t.quantity ≤ maker.remainingQuantity) :
    Synced (appendEntry journal (tradeEntry command t))
      (live (taker.applyFill t.quantity) ++ (live (maker.applyFill t.quantity) ++ rest))
      (sequence + 1) := by
  obtain ⟨s, hs, hreflects⟩ := h.replays
  have hfresh := h.keyed.trades (sequence + 1) (Nat.lt_succ_self sequence)
  rw [appendEntry_of_fresh (by rwa [key_tradeEntry, hsequence])]
  obtain ⟨s', hs', hreflects'⟩ := hreflects.trade (1 + journal.length) (tradePayload command t) htakerID
    hmakerID hprice hside hcross hpos htaker hmaker
  have hold : ∀ x ∈ live (taker.applyFill t.quantity) ++ (live (maker.applyFill t.quantity) ++ rest),
      ∃ y ∈ taker :: maker :: rest, y.orderID = x.orderID := by
    intro x hx
    rcases List.mem_append.mp hx with hx | hx
    · exact ⟨taker, by simp, by rw [mem_live hx]; rfl⟩
    rcases List.mem_append.mp hx with hx | hx
    · exact ⟨maker, by simp, by rw [mem_live hx]; rfl⟩
    · exact ⟨x, by simp [hx], rfl⟩
  refine ⟨⟨s', replay_append_singleton hs hs', hreflects'⟩, ?_⟩
  rw [List.map_append, List.map_singleton, key_tradeEntry, hsequence]
  refine ⟨fun x hx ↦ ?_, fun x hx ↦ ?_, fun id hmem ↦ ?_, fun n hn ↦ ?_⟩
  · obtain ⟨y, hy, hid⟩ := hold x hx
    exact List.mem_append_left _ (hid ▸ h.keyed.accepted y hy)
  · obtain ⟨y, hy, hid⟩ := hold x hx
    simpa [cancelledKey, tradeKey, hid] using h.keyed.uncancelled y hy
  · have hmem' : cancelledKey id ∈ journal.map JournalAppend.key := by
      simpa [cancelledKey, tradeKey] using hmem
    exact List.mem_append_left _ (h.keyed.cancelled id hmem')
  · rw [List.mem_append, List.mem_singleton, not_or]
    refine ⟨h.keyed.trades n (by omega), fun heq ↦ ?_⟩
    have hn' := tradeKey_injective heq
    omega

end Synced

end FunnyOption.Rollup
