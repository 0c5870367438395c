import FunnyOption.Matching.Resting

/-!
# What an incoming order can reach

How far an incoming order is filled, and how it ends, depends on what other users offer before the
walk is stopped. The offers that count are `reachable`: among the orders that cross, those of other
users, up to the first own order if self-trade prevention would cancel the incoming order there.

`walk_reached` says that the walk fills exactly what is offered in this sense. `fokCanFill` counts
something else: without a strategy it also counts own orders, which the walk skips.
-/

open Foundation

namespace FunnyOption.Matching

/-! ## Definitions -/

/-- The orders whose price the incoming order accepts. -/
def crossing (order : Order) (makers : List Order) : List Order :=
  makers.takeWhile fun maker ↦ order.crosses maker.price

/-- Whether self-trade prevention cancels the incoming order. -/
def stopsTaker (order : Order) : Bool := order.stpStrategy = .cancelTaker || order.stpStrategy = .cancelBoth

/-- The orders of other users that the incoming order can come to. -/
def reachable (order : Order) (makers : List Order) : List Order :=
  if stopsTaker order then (crossing order makers).takeWhile fun maker ↦ maker.userID ≠ order.userID
  else (crossing order makers).filter fun maker ↦ maker.userID ≠ order.userID

/-- The remaining quantity of a list of orders. -/
def quantityOf (orders : List Order) : ℤ := (orders.map Order.remainingQuantity).sum

/-- The quantity that other users offer to the incoming order. -/
def offered (order : Order) (makers : List Order) : ℤ := quantityOf (reachable order makers)

/-- The walk comes to an own order that cancels the incoming one, unless it is filled before. -/
def Stopped (order : Order) (makers : List Order) : Prop :=
  stopsTaker order = true ∧ ∃ maker ∈ crossing order makers, maker.userID = order.userID

/-! ## One order more -/

variable {order : Order} {maker : Order} {makers : List Order}

theorem quantityOf_nonneg (orders : List Order) : 0 ≤ quantityOf orders := by
  refine List.sum_nonneg fun q hq ↦ ?_
  obtain ⟨o, -, rfl⟩ := List.mem_map.mp hq
  exact o.remainingQuantity_nonneg

theorem offered_of_not_crosses (makers : List Order) (h : order.crosses maker.price = false) :
    offered order (maker :: makers) = 0 ∧ ¬ Stopped order (maker :: makers) := by
  have hnil : crossing order (maker :: makers) = [] := by simp [crossing, h]
  constructor
  · simp [offered, reachable, hnil, quantityOf]
  · rintro ⟨-, m, hm, -⟩
    rw [hnil] at hm
    exact absurd hm (by simp)

theorem crossing_cons (h : order.crosses maker.price = true) :
    crossing order (maker :: makers) = maker :: crossing order makers := by
  simp [crossing, h]

theorem offered_of_other (makers : List Order) (h : order.crosses maker.price = true)
    (hother : maker.userID ≠ order.userID) :
    offered order (maker :: makers) = maker.remainingQuantity + offered order makers ∧
      (Stopped order (maker :: makers) ↔ Stopped order makers) := by
  constructor
  · simp only [offered, reachable, crossing_cons h]
    split_ifs
    · simp [hother, quantityOf]
    · simp [hother, quantityOf]
  · simp only [Stopped, crossing_cons h, List.mem_cons, exists_eq_or_imp, hother, false_or]

theorem offered_of_own (makers : List Order) (h : order.crosses maker.price = true)
    (hown : maker.userID = order.userID) (hstop : stopsTaker order = false) :
    offered order (maker :: makers) = offered order makers ∧
      ¬ Stopped order (maker :: makers) ∧ ¬ Stopped order makers := by
  refine ⟨?_, fun hs ↦ ?_, fun hs ↦ ?_⟩
  · simp only [offered, reachable, crossing_cons h, hstop, Bool.false_eq_true, if_false]
    simp [hown]
  · exact absurd (hs.1.symm.trans hstop) (by simp)
  · exact absurd (hs.1.symm.trans hstop) (by simp)

theorem offered_of_stop (makers : List Order) (h : order.crosses maker.price = true)
    (hown : maker.userID = order.userID) (hstop : stopsTaker order = true) :
    offered order (maker :: makers) = 0 ∧ Stopped order (maker :: makers) := by
  constructor
  · simp only [offered, reachable, crossing_cons h, hstop, if_true]
    simp [hown, quantityOf]
  · exact ⟨hstop, maker, by rw [crossing_cons h]; exact List.mem_cons_self, hown⟩

/-- What is offered depends on the terms of the order only. -/
theorem Sweep.SameTerms.offered_eq {order' : Order} (h : SameTerms order order') (makers : List Order) :
    offered order' makers = offered order makers ∧
      (Stopped order' makers ↔ Stopped order makers) := by
  have hcross : crossing order' makers = crossing order makers := by rw [crossing, crossing, h.crosses]
  have hstop : stopsTaker order' = stopsTaker order := by rw [stopsTaker, stopsTaker, h.stpStrategy]
  constructor
  · rw [offered, offered, reachable, reachable, hcross, hstop, h.userID]
  · rw [Stopped, Stopped, hcross, hstop, h.userID]

/-! ## The walk -/

namespace Sweep

variable {clock : ℕ → ℤ} {bookKey : String} {sw : Sweep}

/-- The state of the loop after a walk, by what was offered. -/
structure Reached (sw : Sweep) (makers : List Order) (after : Sweep) : Prop where
  remaining : after.order.remainingQuantity =
    sw.order.remainingQuantity - min sw.order.remainingQuantity (offered sw.order makers)
  done : after.takerDone = true ↔ Stopped sw.order makers ∧ offered sw.order makers < sw.order.remainingQuantity
  trades : after.trades = sw.trades ↔ offered sw.order makers = 0

theorem active_iff : sw.active = true ↔ 0 < sw.order.remainingQuantity ∧ sw.takerDone = false := by
  simp [active]

theorem recordTrade_trades_ne (sw : Sweep) (maker : Order) (qty : ℤ) (trades : List Trade) :
    (sw.recordTrade clock bookKey maker qty).trades ++ trades ≠ sw.trades := by
  intro h
  have hlen := congrArg List.length h
  simp [recordTrade] at hlen

/-- Trades are only ever added. -/
theorem trades_prefix_walk (clock : ℕ → ℤ) (bookKey : String) (makers : List Order) (sw : Sweep) :
    sw.trades <+: (sw.walk clock bookKey makers).1.trades := by
  obtain ⟨-, -, -, h, -⟩ := walk_invariant
    (I := fun sw' _ _ ↦ sw.trades <+: sw'.trades)
    (fun sw' _ maker _ _ _ hpre _ hmet ↦ by
      cases hmet with
      | skip | stop | drop | both | pass => exact hpre
      | trade | fill => exact hpre.trans (List.prefix_append _ _))
    makers sw [] List.prefix_rfl
  exact h

/-- A trade takes its part of what is offered, and the walk goes on unless the order is filled. -/
theorem reached_of_trade {sw' : Sweep} {qty : ℤ} (hactive : sw.active = true)
    (hcross : sw.order.crosses maker.price = true) (hother : maker.userID ≠ sw.order.userID) (hqty : 0 < qty)
    (hmin : qty = min sw.order.remainingQuantity maker.remainingQuantity)
    (horder : sw'.order = sw.order.applyFill qty) (hdone' : sw'.takerDone = sw.takerDone)
    (htrades : sw'.trades = sw.trades ++ [sw.tradeWith clock bookKey maker qty])
    (ih : sw'.active = true → Reached sw' makers (sw'.walk clock bookKey makers).1) :
    Reached sw (maker :: makers) (sw'.walk clock bookKey makers).1 := by
  obtain ⟨hrem, hdone⟩ := active_iff.mp hactive
  obtain ⟨heq, hstop⟩ := offered_of_other makers hcross hother
  have hterms : SameTerms sw.order sw'.order := horder ▸ sameTerms_applyFill _ _
  obtain ⟨heq', hstop'⟩ := hterms.offered_eq makers
  have hle : qty ≤ sw.order.remainingQuantity := hmin ▸ min_le_left _ _
  have hrem' : sw'.order.remainingQuantity = sw.order.remainingQuantity - qty := by
    rw [horder]
    exact sw.order.remainingQuantity_applyFill hqty hle
  have hoffer : 0 ≤ offered sw.order makers := quantityOf_nonneg _
  have hgrown : (sw'.walk clock bookKey makers).1.trades ≠ sw.trades := by
    obtain ⟨more, hmore⟩ := trades_prefix_walk clock bookKey makers sw'
    rw [← hmore, htrades]
    exact recordTrade_trades_ne sw maker qty more
  by_cases hactive' : sw'.active = true
  · -- the resting order is used up, and the rest is as for the smaller order
    obtain ⟨hpos', -⟩ := active_iff.mp hactive'
    have hqty' : qty = maker.remainingQuantity := by omega
    have hreach := ih hactive'
    refine ⟨?_, ?_, iff_of_false hgrown (by omega)⟩
    · rw [hreach.remaining, heq', hrem', heq, hqty']
      omega
    · rw [hreach.done, heq', hrem', hstop', heq, hstop, hqty']
      exact and_congr_right fun _ ↦ by omega
  · -- the incoming order is filled
    have hzero : sw'.order.remainingQuantity = 0 := by
      have hle' := sw'.order.remainingQuantity_nonneg
      rw [active_iff, hdone', hdone] at hactive'
      simp only [and_true, not_lt] at hactive'
      omega
    rw [walk_of_not_active (Bool.eq_false_iff.mpr hactive')] at hgrown ⊢
    refine ⟨?_, ?_, iff_of_false hgrown (by omega)⟩
    · rw [hzero, heq]
      omega
    · rw [hdone', hdone]
      refine iff_of_false Bool.false_ne_true fun h ↦ ?_
      have hlt := h.2
      rw [heq] at hlt
      omega

/-- **The walk fills exactly what is offered.** -/
theorem walk_reached (makers : List Order) (sw : Sweep) (hactive : sw.active = true) :
    Reached sw makers (sw.walk clock bookKey makers).1 := by
  induction makers generalizing sw with
  | nil =>
    obtain ⟨hrem, hdone⟩ := active_iff.mp hactive
    have hzero : offered sw.order [] = 0 := by simp [offered, reachable, crossing, quantityOf]
    refine ⟨?_, ?_, ?_⟩
    · rw [hzero, min_eq_right hrem.le, sub_zero]
      rfl
    · rw [walk, hdone]
      simp [Stopped, crossing]
    · simp [walk, hzero]
  | cons maker makers ih =>
    obtain ⟨hrem, hdone⟩ := active_iff.mp hactive
    by_cases hcross : sw.order.crosses maker.price = true
    swap
    · -- the walk ends in front of the order
      have hcross' : sw.order.crosses maker.price = false := Bool.eq_false_iff.mpr hcross
      obtain ⟨hzero, hstop⟩ := offered_of_not_crosses makers hcross'
      rw [walk_cons_of_not_meets (by simp [Meets, hcross'])]
      exact ⟨by rw [hzero, min_eq_right hrem.le, sub_zero], by simp [hdone, hstop], by simp [hzero]⟩
    have hmeets : sw.Meets maker = true := by simp [Meets, hactive, hcross]
    rw [walk_cons_of_meets hmeets]
    have hmet := met_meetMaker clock bookKey sw maker
    generalize (sw.meetMaker clock bookKey maker).1 = sw' at hmet ⊢
    generalize (sw.meetMaker clock bookKey maker).2 = stays at hmet
    cases hmet with
    | skip hown hstp =>
      obtain ⟨heq, hstop, hstop'⟩ := offered_of_own makers hcross hown.symm
        (by simp [stopsTaker, hstp])
      have hreach := ih sw hactive
      exact ⟨by rw [heq]; exact hreach.remaining, by simpa [hstop, hstop'] using hreach.done,
        by rw [heq]; exact hreach.trades⟩
    | drop hown hstp =>
      obtain ⟨heq, hstop, hstop'⟩ := offered_of_own makers hcross hown.symm
        (by simp [stopsTaker, hstp])
      have hreach := ih (sw.cancelMaker maker .stpMaker) hactive
      have hdone' := hreach.done
      rw [show (sw.cancelMaker maker .stpMaker).order = sw.order from rfl] at hdone'
      exact ⟨by rw [heq]; exact hreach.remaining, by simpa [hstop, hstop'] using hdone',
        by rw [heq]; exact hreach.trades⟩
    | stop hown hstp =>
      obtain ⟨hzero, hstop⟩ := offered_of_stop makers hcross hown.symm
        (by simp [stopsTaker, hstp])
      rw [walk_of_not_active (by simp [active, cancelTaker])]
      refine ⟨?_, ?_, ?_⟩
      · rw [hzero, min_eq_right hrem.le, sub_zero]
        rfl
      · simp [cancelTaker, hstop, hzero, hrem]
      · simp [cancelTaker, hzero]
    | both hown hstp =>
      obtain ⟨hzero, hstop⟩ := offered_of_stop makers hcross hown.symm
        (by simp [stopsTaker, hstp])
      rw [walk_of_not_active (by simp [active, cancelTaker, cancelMaker])]
      refine ⟨?_, ?_, ?_⟩
      · rw [hzero, min_eq_right hrem.le, sub_zero]
        rfl
      · simp [cancelTaker, cancelMaker, hstop, hzero, hrem]
      · simp [cancelTaker, cancelMaker, hzero]
    | pass hother hnone =>
      -- nothing is left of the resting order, so it offers nothing
      obtain ⟨heq, hstop⟩ := offered_of_other makers hcross (Ne.symm hother)
      have hnonneg := maker.remainingQuantity_nonneg
      have hzero : maker.remainingQuantity = 0 := by omega
      rw [hzero, zero_add] at heq
      have hreach := ih sw hactive
      exact ⟨by rw [heq]; exact hreach.remaining, by rw [heq, hstop]; exact hreach.done,
        by rw [heq]; exact hreach.trades⟩
    | trade qty hother hqty hmin hleft =>
      exact reached_of_trade hactive hcross (Ne.symm hother) hqty hmin rfl rfl rfl (ih _)
    | fill qty hother hqty hmin hfilled =>
      exact reached_of_trade hactive hcross (Ne.symm hother) hqty hmin rfl rfl rfl (ih _)

/-- How the status of the incoming order tells whether the walk was stopped. -/
structure TakerStatus (sw : Sweep) : Prop where
  cancelled : sw.order.status = .cancelled ↔ sw.takerDone = true
  rejected : sw.order.status ≠ .rejected

theorem TakerStatus.applyFill {o : Order} (hcancelled : o.status ≠ .cancelled) (hrejected : o.status ≠ .rejected)
    (qty : ℤ) : (o.applyFill qty).status ≠ .cancelled ∧ (o.applyFill qty).status ≠ .rejected := by
  simp only [Order.applyFill]
  split_ifs
  · exact ⟨OrderStatus.noConfusion, OrderStatus.noConfusion⟩
  · exact ⟨OrderStatus.noConfusion, OrderStatus.noConfusion⟩
  · exact ⟨hcancelled, hrejected⟩

theorem TakerStatus.met {sw' : Sweep} {stays : Option Order} (h : TakerStatus sw) (hmeets : sw.Meets maker = true)
    (hmet : Met clock bookKey sw maker sw' stays) : TakerStatus sw' := by
  have hdone : sw.takerDone = false := (active_iff.mp (Bool.and_eq_true_iff.mp hmeets).1).2
  have hstatus : sw.order.status ≠ .cancelled := by
    rw [Ne, h.cancelled, hdone]
    exact Bool.false_ne_true
  cases hmet with
  | skip | drop | pass => exact ⟨h.cancelled, h.rejected⟩
  | stop | both => exact ⟨by simp [cancelTaker, cancelMaker, Order.cancel], OrderStatus.noConfusion⟩
  | trade qty =>
    obtain ⟨hc, hr⟩ := TakerStatus.applyFill hstatus h.rejected qty
    exact ⟨iff_of_false hc (by simp [recordTrade, hdone]), hr⟩
  | fill qty =>
    obtain ⟨hc, hr⟩ := TakerStatus.applyFill hstatus h.rejected qty
    exact ⟨iff_of_false hc (by simp [recordTrade, removeFilled, hdone]), hr⟩

theorem takerStatus_walk (makers : List Order) (sw : Sweep) (h : TakerStatus sw) :
    TakerStatus (sw.walk clock bookKey makers).1 := by
  obtain ⟨passed, rest, -, hafter, -⟩ := walk_invariant (I := fun sw _ _ ↦ TakerStatus sw)
    (fun _ _ _ _ _ _ h hmeets hmet ↦ h.met hmeets hmet) makers sw [] h
  exact hafter

end Sweep

/-! ## Fill or kill -/

namespace Engine

/-- What `fokCanFill` counts. -/
def fokOffered (order : Order) (makers : List Order) : ℤ :=
  if order.stpStrategy = .none then quantityOf (crossing order makers) else offered order makers

theorem fokOffered_nonneg (order : Order) (makers : List Order) : 0 ≤ fokOffered order makers := by
  rw [fokOffered]
  split_ifs
  · exact quantityOf_nonneg _
  · exact quantityOf_nonneg _

theorem fokOffered_cons (hcross : order.crosses maker.price = true)
    (hcount : stpWouldCancelTaker order maker = false ∧ stpWouldSkipMaker order maker = false) :
    fokOffered order (maker :: makers) = maker.remainingQuantity + fokOffered order makers := by
  rw [fokOffered, fokOffered]
  split_ifs with hnone
  · rw [crossing_cons hcross]
    simp [quantityOf]
  · refine (offered_of_other _ hcross fun hown ↦ ?_).1
    -- an own order under a strategy is not counted
    obtain ⟨hstop, hskip⟩ := hcount
    cases hstp : order.stpStrategy with
    | none => exact hnone hstp
    | cancelTaker => simp [stpWouldCancelTaker, hown, hstp] at hstop
    | cancelMaker => simp [stpWouldSkipMaker, hown, hstp] at hskip
    | cancelBoth => simp [stpWouldCancelTaker, hown, hstp] at hstop

theorem fokOffered_of_not_crosses (makers : List Order) (h : order.crosses maker.price = false) :
    fokOffered order (maker :: makers) = 0 := by
  rw [fokOffered, (offered_of_not_crosses makers h).1, ite_eq_right_iff]
  intro _
  simp [crossing, h, quantityOf]

theorem fokBucket_nonneg {remaining left : ℤ} (hnonneg : 0 ≤ remaining)
    (h : fokBucket order remaining makers = some left) : 0 ≤ left := by
  induction makers generalizing remaining with
  | nil => exact Option.some_inj.mp h ▸ hnonneg
  | cons maker makers ih =>
    rw [fokBucket] at h
    split_ifs at h
    · exact ih hnonneg h
    · refine ih ?_ h
      split_ifs <;> omega
    · exact Option.some_inj.mp h ▸ hnonneg

/-- What the inner loop leaves is on offer behind it exactly if all was on offer before it. -/
theorem fokBucket_iff {rest : List Order} {remaining : ℤ} (hnonneg : 0 ≤ remaining)
    (hcross : ∀ maker ∈ makers, order.crosses maker.price = true) :
    (∃ left, fokBucket order remaining makers = some left ∧ left ≤ fokOffered order rest) ↔
      remaining ≤ fokOffered order (makers ++ rest) := by
  induction makers generalizing remaining with
  | nil => simp [fokBucket]
  | cons maker makers ih =>
    have hmaker : order.crosses maker.price = true := hcross maker List.mem_cons_self
    have hcross' : ∀ m ∈ makers, order.crosses m.price = true :=
      fun m hm ↦ hcross m (List.mem_cons_of_mem maker hm)
    have hoffered := fokOffered_nonneg order (makers ++ rest)
    rw [fokBucket, List.cons_append]
    split_ifs with hpos hstop hskip
    · -- the order would be cancelled here, where nothing more is offered
      rw [stpWouldCancelTaker, Bool.and_eq_true, decide_eq_true_eq] at hstop
      have hnone : order.stpStrategy ≠ .none := by
        intro hnone
        simp [hnone] at hstop
      have hzero : fokOffered order (maker :: (makers ++ rest)) = 0 := by
        rw [fokOffered, if_neg hnone, (offered_of_stop _ hmaker hstop.1.symm hstop.2).1]
      exact iff_of_false (by simp) (by omega)
    · -- an own order that will be cancelled does not count
      rw [stpWouldSkipMaker, Bool.and_eq_true, decide_eq_true_eq] at hskip
      have hmakerOnly : order.stpStrategy = .cancelMaker := by
        cases hstp : order.stpStrategy with
        | cancelMaker => rfl
        | none => simp [hstp] at hskip
        | cancelTaker => simp [hstp] at hskip
        | cancelBoth => simp [stpWouldCancelTaker, hskip.1, hstp] at hstop
      have heq := (offered_of_own (makers ++ rest) hmaker hskip.1.symm
        (by simp [stopsTaker, hmakerOnly])).1
      rw [ih hnonneg hcross', fokOffered, fokOffered, if_neg (by simp [hmakerOnly]),
        if_neg (by simp [hmakerOnly]), heq]
    · have hmakerNonneg := maker.remainingQuantity_nonneg
      rw [fokOffered_cons hmaker ⟨Bool.eq_false_iff.mpr hstop, Bool.eq_false_iff.mpr hskip⟩]
      dsimp only
      split_ifs with hqty
      · rw [ih (by omega) hcross']
        omega
      · rw [ih hnonneg hcross']
        omega
    · have hnonneg' := fokOffered_nonneg order rest
      have hcons := fokOffered_nonneg order (maker :: (makers ++ rest))
      exact iff_of_true ⟨remaining, rfl, by omega⟩ (by omega)

theorem fokBuckets_iff {side : OrderSide} {buckets : List Bucket} {remaining : ℤ} (hnonneg : 0 ≤ remaining)
    (hwf : BookSide.WellFormed side buckets) :
    fokBuckets order remaining buckets = some 0 ↔
      remaining ≤ fokOffered order (buckets.flatMap Bucket.orders) := by
  induction buckets generalizing remaining with
  | nil =>
    have hzero : fokOffered order [] = 0 := by simp [fokOffered, offered, reachable, crossing, quantityOf]
    rw [fokBuckets, List.flatMap_nil, hzero, Option.some_inj]
    omega
  | cons bucket rest ih =>
    obtain ⟨hne, ho, -, hrest⟩ := BookSide.wellFormed_cons.mp hwf
    rw [fokBuckets, List.flatMap_cons]
    split_ifs with hmeets
    · rw [← fokBucket_iff hnonneg fun maker hmaker ↦ by
        rw [(ho maker hmaker).1]
        exact (Bool.and_eq_true_iff.mp hmeets).2]
      cases hleft : fokBucket order remaining bucket.orders with
      | none => simp
      | some left =>
        rw [ih (fokBucket_nonneg hnonneg hleft) hrest]
        simp
    · -- nothing is asked for, or the bucket does not cross and nothing is on offer
      obtain ⟨maker, makers, horders⟩ := List.exists_cons_of_ne_nil hne
      have hoffered := fokOffered_nonneg order (bucket.orders ++ rest.flatMap Bucket.orders)
      rw [Option.some_inj]
      by_cases hpos : remaining > 0
      · have hcross : order.crosses maker.price = false := by
          rw [(ho maker (by simp [horders])).1]
          simpa [hpos] using hmeets
        rw [horders, List.cons_append, fokOffered_of_not_crosses _ hcross]
        omega
      · omega

/-- **An order is found fillable exactly if enough is on offer, with own orders counted.** -/
theorem fokCanFill_iff {e : Engine} (h : e.WellFormed) : fokCanFill order (e.getOrCreateBook order.bookKey) = true ↔
      order.remainingQuantity ≤ fokOffered order (e.makers order) := by
  rw [fokCanFill, decide_eq_true_eq]
  exact fokBuckets_iff order.remainingQuantity_nonneg ((h.getOrCreateBook _).1.side _)

end Engine

end FunnyOption.Matching
