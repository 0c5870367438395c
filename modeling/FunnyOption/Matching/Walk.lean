import FunnyOption.Matching.Engine

/-!
# Reasoning about a match

The nested loops of `match` go over the orders of a side in the order in which the side lists them.
`walk` is that walk over one list of orders, and `sweepBuckets_eq_walk` says that the nested loops of
a well-formed side compute it.

Whatever is proved about a match is proved by `walk_invariant`. An invariant relates the state of the
loop, the orders that were passed and stayed, and the orders to come; the rule asks that meeting one
order preserves it. What can happen when an order is met is said once, by `Met`.
-/

open Foundation

namespace FunnyOption.Matching

namespace Sweep

variable (clock : ℕ → ℤ) (bookKey : String)

/-- The walk meets an order. -/
def Meets (sw : Sweep) (maker : Order) : Bool := sw.active && sw.order.crosses maker.price

/-- The walk over a list of orders; it returns the orders that stay. -/
def walk (sw : Sweep) : List Order → Sweep × List Order
  | [] => (sw, [])
  | maker :: rest =>
    if sw.Meets maker then
      let met := sw.meetMaker clock bookKey maker
      let after := walk met.1 rest
      (after.1, met.2.toList ++ after.2)
    else (sw, maker :: rest)

variable {clock bookKey} in
theorem walk_cons_of_meets {sw : Sweep} {maker : Order} (h : sw.Meets maker = true) (rest : List Order) :
    sw.walk clock bookKey (maker :: rest) = (((sw.meetMaker clock bookKey maker).1.walk clock bookKey rest).1,
        (sw.meetMaker clock bookKey maker).2.toList ++
          ((sw.meetMaker clock bookKey maker).1.walk clock bookKey rest).2) := by
  simp only [walk, h, if_true]

variable {clock bookKey} in
theorem walk_cons_of_not_meets {sw : Sweep} {maker : Order} (h : sw.Meets maker = false) (rest : List Order) :
    sw.walk clock bookKey (maker :: rest) = (sw, maker :: rest) := by
  simp only [walk, h, Bool.false_eq_true, if_false]

/-! ## Meeting one order -/

/-- What can happen when an active walk meets an order. -/
inductive Met (sw : Sweep) (maker : Order) : Sweep → Option Order → Prop
  /-- An order of the same user is skipped without a strategy. -/
  | skip (own : sw.order.userID = maker.userID) (stp : sw.order.stpStrategy = .none) : Met sw maker sw (some maker)
  /-- Self-trade prevention cancels the incoming order. -/
  | stop (own : sw.order.userID = maker.userID) (stp : sw.order.stpStrategy = .cancelTaker) :
    Met sw maker (sw.cancelTaker .stpTaker) (some maker)
  /-- Self-trade prevention cancels the resting order. -/
  | drop (own : sw.order.userID = maker.userID) (stp : sw.order.stpStrategy = .cancelMaker) :
    Met sw maker (sw.cancelMaker maker .stpMaker) none
  /-- Self-trade prevention cancels both. -/
  | both (own : sw.order.userID = maker.userID) (stp : sw.order.stpStrategy = .cancelBoth) :
    Met sw maker ((sw.cancelTaker .stpBoth).cancelMaker maker .stpBoth) none
  /-- A resting order with nothing left is passed. -/
  | pass (other : sw.order.userID ≠ maker.userID)
    (none : min sw.order.remainingQuantity maker.remainingQuantity ≤ 0) : Met sw maker sw (some maker)
  /-- A trade that leaves some of the resting order. -/
  | trade (qty : ℤ) (other : sw.order.userID ≠ maker.userID) (pos : 0 < qty)
    (min : qty = min sw.order.remainingQuantity maker.remainingQuantity)
    (left : (maker.applyFill qty).remainingQuantity ≠ 0) :
    Met sw maker (sw.recordTrade clock bookKey maker qty) (some (maker.applyFill qty))
  /-- A trade that fills the resting order. -/
  | fill (qty : ℤ) (other : sw.order.userID ≠ maker.userID) (pos : 0 < qty)
    (min : qty = min sw.order.remainingQuantity maker.remainingQuantity)
    (filled : (maker.applyFill qty).remainingQuantity = 0) :
    Met sw maker ((sw.recordTrade clock bookKey maker qty).removeFilled (maker.applyFill qty)) none

variable {clock bookKey} {sw sw' : Sweep} {maker : Order} {kept : Option Order}

theorem met_meetMaker (clock : ℕ → ℤ) (bookKey : String) (sw : Sweep) (maker : Order) :
    Met clock bookKey sw maker (sw.meetMaker clock bookKey maker).1
      (sw.meetMaker clock bookKey maker).2 := by
  by_cases hown : sw.order.userID = maker.userID
  · simp only [meetMaker, if_pos hown, meetOwn]
    cases hstp : sw.order.stpStrategy with
    | none => exact .skip hown hstp
    | cancelTaker => exact .stop hown hstp
    | cancelMaker => exact .drop hown hstp
    | cancelBoth => exact .both hown hstp
  · by_cases hqty : min sw.order.remainingQuantity maker.remainingQuantity ≤ 0
    · simp only [meetMaker, if_neg hown, if_pos hqty]
      exact .pass hown hqty
    · simp only [meetMaker, if_neg hown, if_neg hqty]
      split_ifs with hleft
      · exact .fill _ hown (not_le.mp hqty) rfl hleft
      · exact .trade _ hown (not_le.mp hqty) rfl hleft

/-- The fields of an order that a match never changes. -/
structure SameTerms (o o' : Order) : Prop where
  orderID : o'.orderID = o.orderID
  userID : o'.userID = o.userID
  marketID : o'.marketID = o.marketID
  outcome : o'.outcome = o.outcome
  side : o'.side = o.side
  type : o'.type = o.type
  timeInForce : o'.timeInForce = o.timeInForce
  stpStrategy : o'.stpStrategy = o.stpStrategy
  price : o'.price = o.price
  quantity : o'.quantity = o.quantity

theorem SameTerms.refl (o : Order) : SameTerms o o := by constructor <;> rfl

theorem SameTerms.bookKey_eq {o o' : Order} (h : SameTerms o o') : o'.bookKey = o.bookKey := by
  rw [Order.bookKey, Order.bookKey, h.marketID, h.outcome]

theorem SameTerms.trans {o o' o'' : Order} (h : SameTerms o o') (h' : SameTerms o' o'') : SameTerms o o'' where
  orderID := h'.orderID.trans h.orderID
  userID := h'.userID.trans h.userID
  marketID := h'.marketID.trans h.marketID
  outcome := h'.outcome.trans h.outcome
  side := h'.side.trans h.side
  type := h'.type.trans h.type
  timeInForce := h'.timeInForce.trans h.timeInForce
  stpStrategy := h'.stpStrategy.trans h.stpStrategy
  price := h'.price.trans h.price
  quantity := h'.quantity.trans h.quantity

theorem SameTerms.crosses {o o' : Order} (h : SameTerms o o') : o'.crosses = o.crosses := by
  funext price
  simp only [Order.crosses, h.side, h.price]

theorem sameTerms_cancel (o : Order) (reason : CancelReason) : SameTerms o (o.cancel reason) := by
  constructor <;> rfl

theorem sameTerms_applyFill (o : Order) (qty : ℤ) : SameTerms o (o.applyFill qty) := by
  constructor <;> rfl

theorem Met.order_terms (h : Met clock bookKey sw maker sw' kept) : SameTerms sw.order sw'.order := by
  cases h with
  | skip | drop | pass => exact .refl _
  | stop | both => exact sameTerms_cancel _ _
  | trade | fill => exact sameTerms_applyFill _ _

theorem Met.kept_terms (h : Met clock bookKey sw maker sw' kept) : ∀ o ∈ kept, SameTerms maker o := by
  intro o ho
  cases h with
  | skip | stop | pass =>
    obtain rfl := Option.some_inj.mp ho
    exact .refl _
  | trade =>
    obtain rfl := Option.some_inj.mp ho
    exact sameTerms_applyFill _ _
  | drop | both | fill => exact absurd ho (by simp)

/-! ## The loop rule -/

/-- **The loop rule.** The walk stops in front of an order it does not meet, or at the end, and the
invariant holds there. -/
theorem walk_invariant {I : Sweep → List Order → List Order → Prop}
    (hstep : ∀ sw kept maker rest sw' stays, I sw kept (maker :: rest) → sw.Meets maker = true →
      Met clock bookKey sw maker sw' stays → I sw' (kept ++ stays.toList) rest) (makers : List Order) (sw : Sweep)
    (kept : List Order) (hinv : I sw kept makers) :
    ∃ passed rest, (sw.walk clock bookKey makers).2 = passed ++ rest ∧
      I (sw.walk clock bookKey makers).1 (kept ++ passed) rest ∧
      ∀ maker ∈ rest.head?, (sw.walk clock bookKey makers).1.Meets maker = false := by
  induction makers generalizing sw kept with
  | nil => exact ⟨[], [], rfl, by simpa [walk] using hinv, by simp⟩
  | cons maker rest ih =>
    cases hmeets : sw.Meets maker with
    | true =>
      have hmet := met_meetMaker clock bookKey sw maker
      obtain ⟨passed, left, heq, hinv', hstop⟩ := ih _ _ (hstep sw kept maker rest _ _ hinv hmeets hmet)
      rw [walk_cons_of_meets hmeets]
      refine ⟨(sw.meetMaker clock bookKey maker).2.toList ++ passed, left, ?_, ?_, hstop⟩
      · rw [heq, List.append_assoc]
      · rwa [← List.append_assoc]
    | false =>
      rw [walk_cons_of_not_meets hmeets]
      refine ⟨[], maker :: rest, rfl, by simpa using hinv, fun m hm ↦ ?_⟩
      obtain rfl : maker = m := by simpa using hm
      exact hmeets

/-- An invariant, by what a walk can do: pass the next order, cancel the incoming or the next one, or trade with
the next one, of which something stays or nothing. -/
structure KeptByWalk (clock : ℕ → ℤ) (bookKey : String) (I : Sweep → List Order → List Order → Prop) : Prop where
  pass : ∀ {sw kept maker rest}, I sw kept (maker :: rest) → I sw (kept ++ [maker]) rest
  cancelTaker : ∀ {sw kept rest} reason, I sw kept rest → I (sw.cancelTaker reason) kept rest
  cancelMaker : ∀ {sw kept maker rest} reason, I sw kept (maker :: rest) → I (sw.cancelMaker maker reason) kept rest
  recordTrade : ∀ {sw : Sweep} {kept maker rest} {qty : ℤ} {stays : Option Order}, I sw kept (maker :: rest) →
    sw.order.crosses maker.price = true → sw.order.userID ≠ maker.userID → 0 < qty →
    qty = min sw.order.remainingQuantity maker.remainingQuantity → (∀ o ∈ stays, o = maker.applyFill qty) →
    I (sw.recordTrade clock bookKey maker qty) (kept ++ stays.toList) rest
  removeFilled : ∀ {sw kept rest} maker, I sw kept rest → I (sw.removeFilled maker) kept rest

/-- The loop rule for such invariants. -/
theorem KeptByWalk.walk {I : Sweep → List Order → List Order → Prop} (h : KeptByWalk clock bookKey I)
    (makers : List Order) (sw : Sweep) (hstart : I sw [] makers) :
    I (sw.walk clock bookKey makers).1 (sw.walk clock bookKey makers).2 [] := by
  have hstep : ∀ sw kept maker rest sw' stays, I sw kept (maker :: rest) → sw.Meets maker = true →
      Met clock bookKey sw maker sw' stays → I sw' (kept ++ stays.toList) rest := by
    intro sw kept maker rest sw' stays hinv hmeets hmet
    have hcross : sw.order.crosses maker.price = true := (Bool.and_eq_true_iff.mp hmeets).2
    cases hmet with
    | skip | pass => exact h.pass hinv
    | stop => exact h.cancelTaker _ (h.pass hinv)
    | drop =>
      rw [Option.toList_none, List.append_nil]
      exact h.cancelMaker _ hinv
    | both =>
      rw [Option.toList_none, List.append_nil]
      exact h.cancelMaker _ (h.cancelTaker _ hinv)
    | trade qty hother hpos hqty => exact h.recordTrade hinv hcross hother hpos hqty (by simp)
    | fill qty hother hpos hqty =>
      exact h.removeFilled _ (h.recordTrade hinv hcross hother hpos hqty (by simp))
  obtain ⟨passed, rest, heq, hafter, -⟩ := walk_invariant hstep makers sw [] hstart
  rw [heq]
  -- what the walk has not reached stays as it is
  clear heq
  rw [List.nil_append] at hafter
  induction rest generalizing passed with
  | nil => simpa using hafter
  | cons maker rest ih =>
    have hpass := ih (passed ++ [maker]) (h.pass hafter)
    rwa [List.append_assoc, List.singleton_append] at hpass

/-- A property of the state of the loops that meeting an order preserves, in the inner loop. -/
theorem sweepBucket_preserves {P : Sweep → Prop}
    (hstep : ∀ sw maker sw' stays, P sw → Met clock bookKey sw maker sw' stays → P sw') (makers : List Order)
    (sw : Sweep) (h : P sw) : P (sw.sweepBucket clock bookKey makers).1 := by
  induction makers generalizing sw with
  | nil => exact h
  | cons maker rest ih =>
    simp only [sweepBucket]
    split_ifs
    · exact ih _ (hstep sw maker _ _ h (met_meetMaker clock bookKey sw maker))
    · exact h

/-- The same for both loops, also where the side is not well formed. -/
theorem sweepBuckets_preserves {P : Sweep → Prop}
    (hstep : ∀ sw maker sw' stays, P sw → Met clock bookKey sw maker sw' stays → P sw') (buckets : List Bucket)
    (sw : Sweep) (h : P sw) : P (sw.sweepBuckets clock bookKey buckets).1 := by
  induction buckets generalizing sw with
  | nil => exact h
  | cons bucket rest ih =>
    have hnext := ih _ (sweepBucket_preserves hstep bucket.orders sw h)
    simp only [sweepBuckets]
    split_ifs
    · split
      · exact hnext
      · exact hnext
    · exact h

/-! ## The nested loops -/

theorem walk_of_not_active (h : sw.active = false) (makers : List Order) :
    sw.walk clock bookKey makers = (sw, makers) := by
  cases makers with
  | nil => rfl
  | cons maker rest => simp [walk, Meets, h]

/-- The inner loop is the walk over orders that all cross. -/
theorem sweepBucket_eq_walk (clock : ℕ → ℤ) (bookKey : String) (makers : List Order) (sw : Sweep)
    (hcross : ∀ maker ∈ makers, sw.order.crosses maker.price = true) :
    sw.sweepBucket clock bookKey makers = sw.walk clock bookKey makers := by
  induction makers generalizing sw with
  | nil => rfl
  | cons maker rest ih =>
    have hmaker : sw.order.crosses maker.price = true := hcross maker List.mem_cons_self
    have hterms := (met_meetMaker clock bookKey sw maker).order_terms
    have hrest : ∀ o ∈ rest,
        (sw.meetMaker clock bookKey maker).1.order.crosses o.price = true := by
      intro o ho
      rw [hterms.crosses]
      exact hcross o (List.mem_cons_of_mem maker ho)
    simp only [sweepBucket, walk, Meets, hmaker, Bool.and_true, ih _ hrest]

/-- A walk over orders that all cross goes on with what comes after them. -/
theorem walk_append (clock : ℕ → ℤ) (bookKey : String) (makers rest : List Order) (sw : Sweep)
    (hcross : ∀ maker ∈ makers, sw.order.crosses maker.price = true) :
    sw.walk clock bookKey (makers ++ rest) = (((sw.walk clock bookKey makers).1.walk clock bookKey rest).1,
        (sw.walk clock bookKey makers).2 ++
          ((sw.walk clock bookKey makers).1.walk clock bookKey rest).2) := by
  induction makers generalizing sw with
  | nil => rfl
  | cons maker makers ih =>
    have hmaker : sw.order.crosses maker.price = true := hcross maker List.mem_cons_self
    have hterms := (met_meetMaker clock bookKey sw maker).order_terms
    rw [List.cons_append]
    cases hmeets : sw.Meets maker with
    | true =>
      rw [walk_cons_of_meets hmeets, walk_cons_of_meets hmeets, ih]
      · simp only [List.append_assoc]
      · intro o ho
        rw [hterms.crosses]
        exact hcross o (List.mem_cons_of_mem maker ho)
    | false =>
      have hstop : sw.active = false := by rwa [Meets, hmaker, Bool.and_true] at hmeets
      rw [walk_cons_of_not_meets hmeets, walk_cons_of_not_meets hmeets, walk_of_not_active hstop, List.cons_append]

/-- What the walk keeps of its orders and of the incoming one. -/
theorem walk_terms (makers : List Order) (sw : Sweep) : SameTerms sw.order (sw.walk clock bookKey makers).1.order ∧
      ∀ o ∈ (sw.walk clock bookKey makers).2, ∃ maker ∈ makers, SameTerms maker o := by
  induction makers generalizing sw with
  | nil => exact ⟨.refl _, by simp [walk]⟩
  | cons maker rest ih =>
    cases hmeets : sw.Meets maker with
    | true =>
      have hmet := met_meetMaker clock bookKey sw maker
      obtain ⟨horder, hkept⟩ := ih (sw.meetMaker clock bookKey maker).1
      rw [walk_cons_of_meets hmeets]
      refine ⟨hmet.order_terms.trans horder, fun o ho ↦ ?_⟩
      rcases List.mem_append.mp ho with ho | ho
      · exact ⟨maker, List.mem_cons_self, hmet.kept_terms o (Option.mem_toList.mp ho)⟩
      · obtain ⟨m, hm, hterms⟩ := hkept o ho
        exact ⟨m, List.mem_cons_of_mem maker hm, hterms⟩
    | false =>
      rw [walk_cons_of_not_meets hmeets]
      exact ⟨.refl _, fun o ho ↦ ⟨o, ho, .refl o⟩⟩

/-- What the outer loop leaves of a side. -/
structure SweptSide (side : OrderSide) (clock : ℕ → ℤ) (bookKey : String) (sw : Sweep)
    (buckets : List Bucket) (swept : Sweep × List Bucket) : Prop where
  sweep : swept.1 = (sw.walk clock bookKey (buckets.flatMap Bucket.orders)).1
  orders : swept.2.flatMap Bucket.orders = (sw.walk clock bookKey (buckets.flatMap Bucket.orders)).2
  wellFormed : BookSide.WellFormed side swept.2
  prices : ∀ b ∈ swept.2, ∃ b' ∈ buckets, b'.price = b.price

/-- **The nested loops are the walk.** -/
theorem sweepBuckets_eq_walk {side : OrderSide} (clock : ℕ → ℤ) (bookKey : String) (buckets : List Bucket)
    (sw : Sweep) (h : BookSide.WellFormed side buckets) :
    SweptSide side clock bookKey sw buckets (sw.sweepBuckets clock bookKey buckets) := by
  induction buckets generalizing sw with
  | nil => exact ⟨rfl, rfl, .nil, nofun⟩
  | cons bucket rest ih =>
    obtain ⟨hne, ho, hbest, hrest⟩ := BookSide.wellFormed_cons.mp h
    by_cases hmeets : (sw.active && sw.order.crosses bucket.price) = true
    · have hcross : ∀ maker ∈ bucket.orders, sw.order.crosses maker.price = true := by
        intro maker hmaker
        rw [(ho maker hmaker).1]
        exact (Bool.and_eq_true_iff.mp hmeets).2
      have hbucket := sweepBucket_eq_walk clock bookKey _ sw hcross
      have happend := walk_append clock bookKey bucket.orders (rest.flatMap Bucket.orders) sw hcross
      obtain ⟨hsweep, horders, hwf, hprices⟩ := ih (sw.walk clock bookKey bucket.orders).1 hrest
      have hprices' : ∀ b ∈ ((sw.walk clock bookKey bucket.orders).1.sweepBuckets clock bookKey
          rest).2, ∃ b' ∈ bucket :: rest, b'.price = b.price := by
        intro b hb
        obtain ⟨b', hb', heq⟩ := hprices b hb
        exact ⟨b', List.mem_cons_of_mem bucket hb', heq⟩
      simp only [sweepBuckets, if_pos hmeets, hbucket]
      split
      · next hnil =>
        -- the bucket is used up
        refine ⟨?_, ?_, hwf, hprices'⟩
        · rw [List.flatMap_cons, happend, hsweep]
        · rw [List.flatMap_cons, happend, horders, hnil, List.nil_append]
      · next hsome =>
        refine ⟨?_, ?_, ?_, ?_⟩
        · rw [List.flatMap_cons, happend, hsweep]
        · rw [List.flatMap_cons, List.flatMap_cons, happend, horders]
        · refine BookSide.wellFormed_cons.mpr ⟨hsome, fun o hmem ↦ ?_, fun b hb ↦ ?_, hwf⟩
          · obtain ⟨maker, hmaker, hterms⟩ := (walk_terms bucket.orders sw).2 o hmem
            rw [hterms.price, hterms.side]
            exact ho maker hmaker
          · obtain ⟨b', hb', heq⟩ := hprices b hb
            rw [← heq]
            exact hbest b' hb'
        · intro b hb
          rcases List.mem_cons.mp hb with rfl | hb
          · exact ⟨bucket, List.mem_cons_self, rfl⟩
          · exact hprices' b hb
    · -- the walk stops in front of the first order of the bucket
      obtain ⟨maker, makers, hmaker⟩ := List.exists_cons_of_ne_nil hne
      have hstop : sw.Meets maker = false := by
        rw [Meets, (ho maker (by simp [hmaker])).1]
        exact Bool.eq_false_iff.mpr hmeets
      have hwalk : sw.walk clock bookKey ((bucket :: rest).flatMap Bucket.orders) =
          (sw, (bucket :: rest).flatMap Bucket.orders) := by
        rw [List.flatMap_cons, hmaker, List.cons_append, walk_cons_of_not_meets hstop]
      rw [sweepBuckets, if_neg hmeets]
      exact ⟨by rw [hwalk], by rw [hwalk], h, fun b hb ↦ ⟨b, hb, rfl⟩⟩

end Sweep

end FunnyOption.Matching
