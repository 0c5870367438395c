import FunnyOption.Rollup.Synced

/-!
# Which runs leave a journal that replays

The recorder keeps `Synced` from command to command, under conditions on the orders that are placed.
They are conditions on the command and on the state before it.

* The reference of the order is new in the journal: otherwise its acceptance is dropped.
* Its freeze covers it: otherwise its first fill draws more than was reserved.
* It does not trade and end cancelled, and it is not left over: `Settles`. An immediate order that is
  filled in part, or an order that self-trade prevention cancels after a trade, is cancelled in the
  journal before its trades. An order to fill or kill that counts own orders is neither filled nor
  cancelled nor resting.

The walk over the resting orders is followed in two passes, as the journal does it: first the own
orders that it cancels, then the trades with the orders of others. `Parted` splits it.
-/

open Foundation

namespace FunnyOption.Rollup

open Matching

/-! ## Own orders and those of others -/

/-- The orders of other users. -/
def othersOf (userID : ℤ) (orders : List Order) : List Order := orders.filter fun o ↦ o.userID ≠ userID

/-- The orders of a user. -/
def ownOf (userID : ℤ) (orders : List Order) : List Order := orders.filter fun o ↦ !decide (o.userID ≠ userID)

variable {userID : ℤ} {orders kept rest : List Order} {maker : Order}

theorem perm_others_own (userID : ℤ) (orders : List Order) :
    (othersOf userID orders ++ ownOf userID orders).Perm orders :=
  List.filter_append_perm _ orders

theorem othersOf_split (hother : maker.userID ≠ userID) :
    othersOf userID (kept ++ maker :: rest) = othersOf userID kept ++ maker :: othersOf userID rest := by
  simp [othersOf, hother]

theorem othersOf_split_own (hown : maker.userID = userID) :
    othersOf userID (kept ++ maker :: rest) = othersOf userID (kept ++ rest) := by
  simp [othersOf, hown]

theorem ownOf_split (hown : maker.userID = userID) :
    ownOf userID (kept ++ maker :: rest) = ownOf userID kept ++ maker :: ownOf userID rest := by
  simp [ownOf, hown]

theorem ownOf_split_other (hother : maker.userID ≠ userID) :
    ownOf userID (kept ++ maker :: rest) = ownOf userID (kept ++ rest) := by
  simp [ownOf, hother]

/-! ## The walk, in two passes -/

/-- What a walk of a user's order over `makers` has done when `left` is left of them: it has dropped
own orders, and changed those of others only by trades. -/
structure Parted (start : Sweep) (makers : List Order) (sw : Sweep) (left dropped : List Order) : Prop where
  terms : Sweep.SameTerms start.order sw.order
  own : (ownOf start.order.userID makers).Perm (dropped ++ ownOf start.order.userID left)
  cancelled : (sw.affected.filter fun o ↦ o.status = .cancelled).map Order.orderID = dropped.map Order.orderID
  others : sw.trades = [] →
    othersOf start.order.userID left = othersOf start.order.userID makers ∧ sw.sequence = start.sequence

namespace Parted

variable {start sw sw' : Sweep} {makers left dropped : List Order} {stays : Option Order}
  {clock : ℕ → ℤ} {bookKey : String}

theorem status_applyFill {o : Order} {qty : ℤ} (hfilled : 0 ≤ o.filledQuantity) (hqty : 0 < qty) :
    (o.applyFill qty).status ≠ .cancelled := by
  simp only [Order.applyFill]
  split_ifs with hall hsome
  · exact OrderStatus.noConfusion
  · exact OrderStatus.noConfusion
  · omega

/-- An own order is dropped. -/
theorem drop (h : Parted start makers sw (kept ++ maker :: rest) dropped) (hown : maker.userID = start.order.userID)
    (reason : CancelReason) :
    Parted start makers (sw.cancelMaker maker reason) (kept ++ rest) (dropped ++ [maker]) := by
  refine ⟨h.terms, ?_, ?_, ?_⟩
  · have hperm := h.own
    rw [ownOf_split hown] at hperm
    refine hperm.trans ?_
    rw [List.append_assoc, List.singleton_append]
    refine List.Perm.append_left dropped (List.perm_middle.trans ?_)
    rw [ownOf, ownOf, ownOf, List.filter_append]
  · rw [Sweep.cancelMaker, List.filter_append, List.map_append, h.cancelled, List.map_append]
    simp [Order.cancel]
  · intro htrades
    have hothers := h.others htrades
    rwa [othersOf_split_own hown] at hothers

/-- An order of another user trades. -/
theorem trade (clock : ℕ → ℤ) (bookKey : String) {qty : ℤ}
    (h : Parted start makers sw (kept ++ maker :: rest) dropped) (hother : maker.userID ≠ start.order.userID)
    (hfilled : 0 ≤ maker.filledQuantity) (hqty : 0 < qty) (left : List Order)
    (hleft : ownOf start.order.userID left = ownOf start.order.userID (kept ++ rest)) :
    Parted start makers (sw.recordTrade clock bookKey maker qty) left dropped := by
  refine ⟨h.terms.trans (Sweep.sameTerms_applyFill _ _), ?_, ?_, fun htrades ↦ ?_⟩
  · rw [hleft, ← ownOf_split_other hother]
    exact h.own
  · rw [Sweep.recordTrade, List.filter_append, List.map_append, h.cancelled]
    simp [status_applyFill hfilled hqty]
  · exact absurd htrades (by simp [Sweep.recordTrade])

theorem met (h : Parted start makers sw (kept ++ maker :: rest) dropped) (hfilled : 0 ≤ maker.filledQuantity)
    (hmet : Sweep.Met clock bookKey sw maker sw' stays) :
    ∃ dropped', Parted start makers sw' (kept ++ stays.toList ++ rest) dropped' := by
  have huser := h.terms.userID
  cases hmet with
  | skip | pass =>
    refine ⟨dropped, ?_⟩
    rwa [Option.toList_some, List.append_assoc, List.singleton_append]
  | stop =>
    refine ⟨dropped, ?_⟩
    rw [Option.toList_some, List.append_assoc, List.singleton_append]
    exact { h with terms := h.terms.trans (Sweep.sameTerms_cancel _ _) }
  | drop hown =>
    rw [Option.toList_none, List.append_nil]
    exact ⟨_, h.drop (hown.symm.trans huser) _⟩
  | both hown =>
    rw [Option.toList_none, List.append_nil]
    have hdrop := h.drop (hown.symm.trans huser) .stpBoth
    exact ⟨_, { hdrop with terms := hdrop.terms.trans (Sweep.sameTerms_cancel _ _) }⟩
  | trade qty hother hqty =>
    rw [huser] at hother
    refine ⟨dropped, h.trade clock bookKey hother.symm hfilled hqty _ ?_⟩
    rw [Option.toList_some, List.append_assoc, List.singleton_append]
    exact ownOf_split_other hother.symm
  | fill qty hother hqty =>
    rw [huser] at hother
    rw [Option.toList_none, List.append_nil]
    have htrade := h.trade clock bookKey hother.symm hfilled hqty _ rfl
    exact ⟨dropped, { htrade with }⟩

end Parted

/-- **The first pass**: the own orders that a walk drops. -/
theorem exists_parted (clock : ℕ → ℤ) (bookKey : String) (makers : List Order) (start : Sweep)
    (haffected : start.affected = []) (hfilled : ∀ maker ∈ makers, 0 ≤ maker.filledQuantity) :
    ∃ dropped, Parted start makers (start.walk clock bookKey makers).1
      (start.walk clock bookKey makers).2 dropped := by
  have hstart : Parted start makers start makers [] := ⟨.refl _, .refl _, by simp [haffected], fun _ ↦ ⟨rfl, rfl⟩⟩
  obtain ⟨passed, rest, heq, ⟨-, dropped, hparted⟩, -⟩ := Sweep.walk_invariant
    (I := fun sw kept rest ↦ (∀ maker ∈ rest, 0 ≤ maker.filledQuantity) ∧
      ∃ dropped, Parted start makers sw (kept ++ rest) dropped)
    (fun sw kept maker rest sw' stays ⟨hpos, dropped, h⟩ _ hmet ↦
      ⟨fun m hm ↦ hpos m (List.mem_cons_of_mem maker hm), h.met (hpos maker List.mem_cons_self) hmet⟩)
    makers start [] ⟨hfilled, [], hstart⟩
  refine ⟨dropped, ?_⟩
  rw [heq]
  exact hparted

/-- The second pass, in the middle of the walk: the trades so far are recorded. -/
structure Traded (command : MatchCommand) (journal : List JournalAppend) (start : Sweep)
    (still : List Order) (sw : Sweep) (left : List Order) : Prop where
  terms : Sweep.SameTerms start.order sw.order
  synced : Synced (appendEntries journal (sw.trades.map (tradeEntry command)))
    (live sw.order ++ (othersOf start.order.userID left ++ still)) sw.sequence

namespace Traded

variable {command : MatchCommand} {journal : List JournalAppend} {start sw sw' : Sweep}
  {still : List Order} {stays : Option Order} {clock : ℕ → ℤ} {bookKey : String}

theorem live_eq {o : Order} (h : 0 < o.remainingQuantity) : live o = [o] := if_neg h.ne'

/-- A trade with an order of another user. -/
theorem trade (clock : ℕ → ℤ) (bookKey : String) (h : Traded command journal start still sw (kept ++ maker :: rest))
    (hmeets : sw.Meets maker = true) (hother : sw.order.userID ≠ maker.userID)
    (hside : maker.side = start.order.side.opposite) {qty : ℤ} (hqty : 0 < qty)
    (hmin : qty = min sw.order.remainingQuantity maker.remainingQuantity) :
    Traded command journal start still (sw.recordTrade clock bookKey maker qty)
      (kept ++ live (maker.applyFill qty) ++ rest) := by
  obtain ⟨hactive, hcross⟩ := Bool.and_eq_true_iff.mp hmeets
  have hother' : maker.userID ≠ start.order.userID := fun heq ↦
    hother (h.terms.userID.trans heq.symm)
  refine ⟨h.terms.trans (Sweep.sameTerms_applyFill _ _), ?_⟩
  have hsynced := h.synced
  rw [live_eq (Sweep.active_iff.mp hactive).1, othersOf_split hother', List.singleton_append,
    List.append_assoc, List.cons_append] at hsynced
  have hrecorded := (hsynced.perm (List.perm_middle.cons _)).trade
    (t := sw.tradeWith clock bookKey maker qty) command rfl rfl rfl rfl
    (by rw [hside, h.terms.side]) hcross hqty (hmin ▸ min_le_left _ _) (hmin ▸ min_le_right _ _)
  have hothers : othersOf start.order.userID (kept ++ live (maker.applyFill qty) ++ rest) =
      othersOf start.order.userID kept ++ (live (maker.applyFill qty) ++
        othersOf start.order.userID rest) := by
    have hlive : othersOf start.order.userID (live (maker.applyFill qty)) =
        live (maker.applyFill qty) := by
      refine List.filter_eq_self.mpr fun o ho ↦ ?_
      rw [Synced.mem_live ho]
      exact decide_eq_true hother'
    rw [List.append_assoc, othersOf, List.filter_append, List.filter_append]
    exact congrArg _ (congrArg (· ++ _) hlive)
  rw [Sweep.recordTrade, List.map_append, appendEntries_append, hothers]
  refine hrecorded.perm (List.Perm.append_left _ ?_)
  simp only [List.append_assoc]
  exact List.perm_append_comm_assoc _ _ _

/-- Nothing but the status of the incoming order changes. -/
theorem cancelTaker (h : Traded command journal start still sw rest) (hactive : sw.active = true)
    (reason : CancelReason) : Traded command journal start still (sw.cancelTaker reason) rest := by
  have hpos := (Sweep.active_iff.mp hactive).1
  refine ⟨h.terms.trans (Sweep.sameTerms_cancel _ _), ?_⟩
  have hsynced := h.synced
  rw [live_eq hpos] at hsynced
  have hlive : live (sw.cancelTaker reason).order = [sw.order.cancel reason] := live_eq hpos
  rw [hlive]
  exact hsynced.congr (Sweep.sameTerms_cancel _ _) rfl

theorem met (h : Traded command journal start still sw (kept ++ maker :: rest)) (hmeets : sw.Meets maker = true)
    (hside : maker.side = start.order.side.opposite) (hmet : Sweep.Met clock bookKey sw maker sw' stays) :
    Traded command journal start still sw' (kept ++ stays.toList ++ rest) := by
  obtain ⟨hactive, -⟩ := Bool.and_eq_true_iff.mp hmeets
  have huser := h.terms.userID
  have hback : kept ++ (some maker).toList ++ rest = kept ++ maker :: rest := by simp
  cases hmet with
  | skip | pass => rwa [hback]
  | stop =>
    rw [hback]
    exact h.cancelTaker hactive _
  | drop hown =>
    rw [Option.toList_none, List.append_nil]
    refine ⟨h.terms, ?_⟩
    rw [← othersOf_split_own (hown.symm.trans huser)]
    exact h.synced
  | both hown =>
    rw [Option.toList_none, List.append_nil]
    have hcancel := h.cancelTaker hactive .stpBoth
    refine ⟨hcancel.terms, ?_⟩
    rw [← othersOf_split_own (hown.symm.trans huser)]
    exact hcancel.synced
  | trade qty hother hqty hmin hleft =>
    have htrade := h.trade clock bookKey hmeets hother hside hqty hmin
    rwa [live, if_neg hleft] at htrade
  | fill qty hother hqty hmin hfilled =>
    have htrade := h.trade clock bookKey hmeets hother hside hqty hmin
    rw [live, if_pos hfilled] at htrade
    exact ⟨htrade.terms, htrade.synced⟩

end Traded

variable {journal : List JournalAppend}

/-- **The second pass**: the trades of a walk are recorded. -/
theorem Synced.walk (clock : ℕ → ℤ) (bookKey : String) (command : MatchCommand) {start : Sweep}
    {makers still : List Order}
    (h : Synced journal (live start.order ++ (othersOf start.order.userID makers ++ still))
      start.sequence) (htrades : start.trades = [])
    (hside : ∀ maker ∈ makers, maker.side = start.order.side.opposite) :
    Synced (appendEntries journal
        ((start.walk clock bookKey makers).1.trades.map (tradeEntry command)))
      (live (start.walk clock bookKey makers).1.order ++
        (othersOf start.order.userID (start.walk clock bookKey makers).2 ++ still))
      (start.walk clock bookKey makers).1.sequence := by
  have hstart : Traded command journal start still start makers := by
    refine ⟨.refl _, ?_⟩
    rw [htrades, List.map_nil, appendEntries_nil]
    exact h
  obtain ⟨passed, rest, heq, ⟨-, htraded⟩, -⟩ := Sweep.walk_invariant
    (I := fun sw kept rest ↦ (∀ maker ∈ rest, maker.side = start.order.side.opposite) ∧
      Traded command journal start still sw (kept ++ rest))
    (fun sw kept maker rest sw' stays ⟨hside, h⟩ hmeets hmet ↦
      ⟨fun m hm ↦ hside m (List.mem_cons_of_mem maker hm), h.met hmeets (hside maker List.mem_cons_self) hmet⟩)
    makers start [] ⟨hside, hstart⟩
  rw [heq]
  exact htraded.synced

/-! ## Placing an order -/

/-- **An order that does not trade and end cancelled, and is not left over.** -/
structure Settles (order : Order) (makers : List Order) : Prop where
  /-- An order whose rest would be cancelled finds nothing or enough. -/
  rest : order.timeInForce = .ioc ∨ order.timeInForce = .gtc ∧ Stopped order makers →
    offered order makers = 0 ∨ order.quantity ≤ offered order makers
  /-- An order to fill or kill without a strategy does not need its user's own orders. -/
  kill : order.timeInForce = .fok → order.stpStrategy = .none →
    order.quantity ≤ quantityOf (crossing order makers) → order.quantity ≤ offered order makers

section Place

variable {clock : ℕ → ℤ} {e e' : Engine} {order final : Order} {met others : List Order} {rests : Bool}
  {result : Result}

/-- How an order ends: cancelled without a trade, or live exactly if it rests. -/
inductive Ends (sw : Sweep) (final : Order) (rests : Bool) : Prop
  | cancelled (status : final.status = .cancelled) (trades : sw.trades = []) (out : rests = false)
  | settled (cancelled : final.status ≠ .cancelled) (rejected : final.status ≠ .rejected)
    (live : live sw.order = if rests then [sw.order] else [])

/-- What the walk of a fresh order over all makers comes to. -/
theorem reached_makers (clock : ℕ → ℤ) (hrem : order.remainingQuantity = order.quantity)
    (hquantity : 0 < order.quantity) :
    (e.swept clock order).order.remainingQuantity =
        order.quantity - min order.quantity (offered order (e.makers order)) ∧
      ((e.swept clock order).takerDone = true ↔
        Stopped order (e.makers order) ∧ offered order (e.makers order) < order.quantity) ∧
      ((e.swept clock order).trades = [] ↔ offered order (e.makers order) = 0) := by
  have hactive : (e.sweepStart order).active = true := Sweep.active_iff.mpr ⟨hrem.symm ▸ hquantity, rfl⟩
  have h : Sweep.Reached (e.sweepStart order) (e.makers order) (e.swept clock order) := Sweep.walk_reached _ _ hactive
  refine ⟨?_, ?_, h.trades⟩
  · rw [← hrem]
    exact h.remaining
  · rw [← hrem]
    exact h.done

/-- **An order that settles ends properly.** -/
theorem ends_of_outcome (hwf : e.WellFormed) (hsettles : Settles order (e.makers order))
    (hstatus : order.status = .new) (hrem : order.remainingQuantity = order.quantity)
    (hquantity : 0 < order.quantity) (h : Engine.Outcome clock e order met final rests) :
    Ends (e.walked clock order met).1 final rests := by
  have htaker : Sweep.TakerStatus (e.swept clock order) := Sweep.takerStatus_walk _ _
    ⟨by simp [Engine.sweepStart, hstatus], by simp [Engine.sweepStart, hstatus]⟩
  have hfok : order.timeInForce = .fok → Engine.fokCanFill order (e.getOrCreateBook order.bookKey) = true →
      order.quantity ≤ offered order (e.makers order) := by
    intro htif hcan
    have hle := (Engine.fokCanFill_iff hwf).mp hcan
    rw [hrem, Engine.fokOffered] at hle
    split_ifs at hle with hnone
    · exact hsettles.kill htif hnone hle
    · exact hle
  cases h with
  | refused reason => exact .cancelled rfl rfl rfl
  | posted =>
    refine .settled OrderStatus.noConfusion OrderStatus.noConfusion ?_
    exact Traded.live_eq (hrem.symm ▸ hquantity)
  | filled hnone =>
    obtain ⟨hremaining, hdone, -⟩ := reached_makers (e := e) clock hrem hquantity
    refine .settled ?_ htaker.rejected (if_pos hnone)
    rw [Ne, htaker.cancelled, hdone]
    omega
  | prevented hwalks hcan hsome hcancelled =>
    obtain ⟨-, hdone, htrades⟩ := reached_makers (e := e) clock hrem hquantity
    obtain ⟨hstopped, hlt⟩ := hdone.mp (htaker.cancelled.mp hcancelled)
    refine .cancelled hcancelled (htrades.mpr ?_) rfl
    -- the order was stopped short of its quantity
    have hzero : order.timeInForce = .ioc ∨ order.timeInForce = .gtc →
        offered order (e.makers order) = 0 := by
      intro htif
      rcases hsettles.rest (htif.imp_right (⟨·, hstopped⟩)) with hzero | hle
      · exact hzero
      · exact absurd hlt (not_lt.mpr hle)
    cases htif : order.timeInForce with
    | gtc => exact hzero (.inr htif)
    | ioc => exact hzero (.inl htif)
    | fok => exact absurd hlt (not_lt.mpr (hfok htif (hcan htif)))
    | postOnly => exact absurd htif hwalks
  | expired reason hioc hsome =>
    obtain ⟨hremaining, -, htrades⟩ := reached_makers (e := e) clock hrem hquantity
    refine .cancelled rfl (htrades.mpr ?_) rfl
    rcases hsettles.rest (.inl hioc) with hzero | hle
    · exact hzero
    · omega
  | rests hgtc hsome =>
    refine .settled ?_ ?_ (if_neg hsome)
    · simp only [Order.rested]
      split_ifs <;> exact OrderStatus.noConfusion
    · simp only [Order.rested]
      split_ifs <;> exact OrderStatus.noConfusion
  | stranded htif hcan hsome =>
    obtain ⟨hremaining, -, -⟩ := reached_makers (e := e) clock hrem hquantity
    have hle := hfok htif hcan
    omega

theorem orderID_of_outcome (h : Engine.Outcome clock e order met final rests) : final.orderID = order.orderID := by
  have hid : (e.swept clock order).order.orderID = order.orderID :=
    (Sweep.walk_terms (e.makers order) (e.sweepStart order)).1.orderID
  cases h with
  | refused | posted => rfl
  | filled | prevented | expired | rests | stranded => exact hid

/-- What is met, grouped as the journal goes over it: what is dropped, the orders of others, and the
own orders that stay. -/
theorem Parted.regroup {start sw : Sweep} {left dropped : List Order} (h : Parted start met sw left dropped) :
    (met ++ others).Perm (dropped ++ (othersOf start.order.userID met ++
      (ownOf start.order.userID left ++ others))) := by
  have hparts := (perm_others_own start.order.userID met).symm.trans (h.own.append_left _)
  refine (hparts.append_right others).trans ?_
  simp only [List.append_assoc]
  exact List.perm_append_comm_assoc _ _ _

/-- The entries of an order that ends cancelled, after its acceptance. -/
theorem Synced.cancelled_order (start : Sweep) {sw : Sweep} {left dropped : List Order}
    (h : Synced journal (start.order :: (met ++ others)) start.sequence) (hparted : Parted start met sw left dropped)
    (htrades : sw.trades = []) (hid : final.orderID = start.order.orderID) :
    Synced (appendEntries journal (cancellationEntry final :: affectedEntries sw.affected))
      (left ++ others) sw.sequence := by
  have hdropped := ((h.cancel hid).perm hparted.regroup).cancelAll hparted.cancelled
  obtain ⟨hothers, hsequence⟩ := hparted.others htrades
  rw [appendEntries_cons, hsequence]
  refine hdropped.perm ?_
  rw [← hothers, ← List.append_assoc]
  exact (perm_others_own _ left).append_right others

/-- The entries of an order that ends otherwise, after its acceptance. -/
theorem Synced.settled_order (clock : ℕ → ℤ) (bookKey : String) (command : MatchCommand) (start : Sweep)
    {dropped : List Order} (h : Synced journal (start.order :: (met ++ others)) start.sequence)
    (hpos : 0 < start.order.remainingQuantity) (htrades : start.trades = [])
    (hside : ∀ maker ∈ met, maker.side = start.order.side.opposite)
    (hparted : Parted start met (start.walk clock bookKey met).1 (start.walk clock bookKey met).2
      dropped) :
    Synced (appendEntries journal (affectedEntries (start.walk clock bookKey met).1.affected ++
        (start.walk clock bookKey met).1.trades.map (tradeEntry command)))
      ((start.walk clock bookKey met).2 ++ others ++ live (start.walk clock bookKey met).1.order)
      (start.walk clock bookKey met).1.sequence := by
  have hgrouped := (h.perm (hparted.regroup.cons start.order)).perm List.perm_middle.symm
  have hdropped := hgrouped.cancelAll hparted.cancelled
  rw [← List.singleton_append, ← Traded.live_eq hpos] at hdropped
  have hwalk := hdropped.walk clock bookKey command htrades hside
  rw [appendEntries_append]
  refine hwalk.perm (List.perm_append_comm.trans (List.Perm.append_right _ ?_))
  rw [← List.append_assoc]
  exact (perm_others_own _ _).append_right others

/-- **Placing an order that settles keeps the journal in step.** -/
theorem Synced.place {command : MatchCommand} {nowMillis : ℤ} (h : Synced journal e.restingOrders e.sequence)
    (hwf : e.WellFormed) (hprice : 0 < command.price) (hquantity : 0 < command.quantity)
    (hfresh : acceptedKey command.orderID ∉ journal.map JournalAppend.key)
    (hreserve : requiredReserve command.side command.price command.quantity ≤ command.freezeAmount)
    (hbound : command.freezeAmount ≤ maxInt64) (hsettles : Settles (command.toOrder nowMillis).opened
      (e.makers (command.toOrder nowMillis).opened))
    (hp : Engine.Placement clock e (command.toOrder nowMillis).opened met others final rests e'
      result) :
    Synced (appendEntries journal (buildRollupEntries command result)) e'.restingOrders
      e'.sequence := by
  have hsynced := h.perm hp.before
  obtain ⟨s, -, hreflects⟩ := hsynced.replays
  have hmirrored : ∀ maker ∈ met, ∃ leaf, Mirrors leaf maker := fun maker hmaker ↦ by
    obtain ⟨leaf, -, hleaf⟩ := hreflects.mirrored maker (List.mem_append_left _ hmaker)
    exact ⟨leaf, hleaf⟩
  have hrem := command.remainingQuantity_opened nowMillis hquantity
  have hid : final.orderID = command.orderID := orderID_of_outcome hp.outcome
  have haccept := hsynced.accept nowMillis hfresh hprice hquantity hreserve hbound hid
  obtain ⟨dropped, hparted⟩ := exists_parted clock (command.toOrder nowMillis).opened.bookKey met
    (e.sweepStart (command.toOrder nowMillis).opened) rfl
    (fun maker hmaker ↦ (hmirrored maker hmaker).elim fun _ hleaf ↦ hleaf.started)
  have hends := ends_of_outcome hwf hsettles rfl hrem hquantity hp.outcome
  rw [hp.sequence, buildRollupEntries, hp.returned, hp.trades, hp.affected, Option.map_some, Option.getD_some]
  cases hends with
  | cancelled hstatus htrades hout =>
    have horder : orderEntries command final =
        [acceptanceEntry command final, cancellationEntry final] := by
      simp [orderEntries, hstatus]
    rw [horder, htrades, List.map_nil, List.append_nil]
    have hcancelled := Synced.cancelled_order (e.sweepStart _) haccept hparted htrades hid
    refine hcancelled.perm (List.Perm.trans ?_ hp.after.symm)
    rw [hout, if_neg Bool.false_ne_true, List.append_nil]
    exact .refl _
  | settled hcancelled hrejected hlive =>
    have horder : orderEntries command final = [acceptanceEntry command final] := by
      simp [orderEntries, hcancelled, hrejected]
    rw [horder, List.append_assoc]
    have hsettled := Synced.settled_order clock (command.toOrder nowMillis).opened.bookKey command
      (e.sweepStart _) haccept (hrem.symm ▸ hquantity) rfl
      (Engine.side_of_outcome hwf hp.outcome) hparted
    refine hsettled.perm (List.Perm.trans ?_ hp.after.symm)
    rw [← hlive]
    exact .refl _

end Place

/-! ## Cancelling an order -/

/-- **A cancel command keeps the journal in step.** Its entries come doubled, and the journal drops
the doubles. -/
theorem Synced.handleCancel {e : Engine} {command : MatchCommand} {cancelled : Option (Order × Order)}
    {handled : Engine × List MatchResult} (h : Synced journal e.restingOrders e.sequence)
    (hc : Engine.Cancellation e command cancelled handled) :
    Synced (appendEntries journal
        (handled.2.flatMap fun m ↦ buildRollupEntries m.command m.result))
      handled.1.restingOrders handled.1.sequence := by
  have hsynced := h.perm hc.before
  obtain ⟨books, hresults⟩ := hc.results
  have hbooks : (books.map fun book ↦ (⟨command, ⟨none, [], [], book⟩, false, 0⟩ : MatchResult)).flatMap
      (fun m ↦ buildRollupEntries m.command m.result) = [] := by
    simp [List.flatMap_map, buildRollupEntries, affectedEntries]
  rw [hresults, hc.sequence, List.flatMap_append, hbooks, List.append_nil]
  rcases cancelled with _ | ⟨o, c⟩
  · exact hsynced
  · obtain ⟨hterms, -⟩ := hc.terms (o, c) rfl
    have hstatus : c.status = .cancelled := (hc.terms (o, c) rfl).2.1
    have hentries : buildRollupEntries command ⟨some c, [c], [], .zero⟩ =
        [acceptanceEntry command c, cancellationEntry c, cancellationEntry c] := by
      simp [buildRollupEntries, orderEntries, affectedEntries, hstatus]
    simp only [Option.toList_some, List.map_cons, List.map_nil, List.flatMap_cons, List.flatMap_nil,
      List.append_nil, hentries, appendEntries_cons, appendEntries_nil]
    rw [hsynced.appendEntry_accepted command hterms.orderID, appendEntry_appendEntry]
    exact hsynced.cancel hterms.orderID

/-! ## Runs -/

/-- An order that is placed in a state where it can be recorded. -/
structure Recordable (r : Recorder) (command : MatchCommand) (nowMillis : ℤ) : Prop where
  fresh : acceptedKey command.orderID ∉ r.journal.map JournalAppend.key
  reserve : requiredReserve command.side command.price command.quantity ≤ command.freezeAmount
  bound : command.freezeAmount ≤ maxInt64
  settles : Settles (command.toOrder nowMillis).opened
    (r.engine.makers (command.toOrder nowMillis).opened)

/-- Every order that the engine accepts can be recorded. -/
def PlacesRecordable (r : Recorder) (event : Handled) : Prop :=
  event.cmd.action = .place → r.engine.Accepts (event.cmd.toOrder event.nowMillis) →
    Recordable r event.cmd event.nowMillis

/-- The invariant of the recorder. -/
structure Recorder.InStep (r : Recorder) : Prop where
  wellFormed : r.engine.WellFormed
  synced : Synced r.journal r.engine.restingOrders r.engine.sequence

theorem Recorder.InStep.replays {r : Recorder} (h : r.InStep) : r.Replays := by
  obtain ⟨s, hs, hreflects⟩ := h.synced.replays
  refine ⟨s, hs, fun id remaining ↦ ⟨fun hopen ↦ ?_, ?_⟩⟩
  · obtain ⟨leaf, hleaf, hremaining⟩ := Option.map_eq_some_iff.mp hopen
    obtain ⟨o, ho, rfl⟩ := hreflects.only id leaf hleaf
    obtain ⟨leaf', hleaf', hmirrors⟩ := hreflects.mirrored o ho
    obtain rfl : leaf' = leaf := Option.some_inj.mp (hleaf'.symm.trans hleaf)
    exact ⟨o, ho, rfl, hmirrors.remaining.symm.trans hremaining⟩
  · rintro ⟨o, ho, rfl, rfl⟩
    obtain ⟨leaf, hleaf, hmirrors⟩ := hreflects.mirrored o ho
    rw [hleaf, Option.map_some, hmirrors.remaining]

theorem Recorder.InStep.nodup_orderIDs {r : Recorder} (h : r.InStep) :
    (r.engine.restingOrders.map Order.orderID).Nodup := by
  obtain ⟨s, -, hreflects⟩ := h.synced.replays
  have hrefs : ((r.engine.restingOrders.map Order.orderID).map trimSpace).Nodup := by
    rw [List.map_map]
    exact hreflects.refs
  exact hrefs.of_map

theorem Recorder.InStep.step {clock : ℕ → ℤ} {r r' : Recorder} {event : Handled} (h : r.InStep)
    (hplaces : PlacesRecordable r event) (hstep : r.step clock event = some r') : r'.InStep := by
  obtain rfl : _ = r' := Option.some_inj.mp hstep
  cases haction : event.cmd.action with
  | place =>
    simp only [Engine.handle, haction, Engine.handlePlace, List.flatMap_cons, List.flatMap_nil, List.append_nil]
    -- the epoch of a trade is not recorded
    have hepoch : ∀ result : Result, buildRollupEntries event.cmd
        { result with trades := result.trades.map fun t ↦ { t with epochID := event.epochID } } =
        buildRollupEntries event.cmd result := by
      intro result
      simp only [buildRollupEntries, List.map_map]
      rfl
    rw [hepoch]
    rcases Engine.placeOrder_cases clock h.wellFormed (event.cmd.toOrder event.nowMillis) with
      ⟨-, -, ⟨o, -, hreject⟩, hperm, hsequence, hwf⟩ | ⟨haccepts, met, rest, final, rests, hp⟩
    · refine ⟨hwf, ?_⟩
      have hentries : buildRollupEntries event.cmd (Engine.rejection o) = [] := by
        simp [buildRollupEntries, Engine.rejection, orderEntries, affectedEntries, Order.reject]
      rw [hreject, hentries, hsequence]
      exact h.synced.perm hperm.symm
    · obtain ⟨-, hprice, hquantity⟩ := Order.validate_eq_none haccepts.valid
      have hrec := hplaces haction haccepts
      exact ⟨hp.wellFormed, h.synced.place h.wellFormed hprice hquantity hrec.fresh hrec.reserve
        hrec.bound hrec.settles hp⟩
  | cancel =>
    simp only [Engine.handle, haction]
    obtain ⟨cancelled, hc⟩ := Engine.exists_cancellation h.wellFormed h.nodup_orderIDs event.cmd
      event.nowMillis
    exact ⟨hc.wellFormed, h.synced.handleCancel hc⟩

/-- **The journal of a run replays to the resting orders**, if the orders that are placed can be
recorded. -/
theorem journal_replays (clock : ℕ → ℤ) (events : List Handled)
    (hplaces : ∀ r event r', Takes (Recorder.step clock) .start events r event r' → PlacesRecordable r event) :
    ∀ r, Visits (Recorder.step clock) .start events r → r.Replays := by
  intro r hvisit
  have hstart : Recorder.start.InStep := ⟨.new 0, .start⟩
  have hstep : r.InStep := by
    refine visits_induction hstart (fun u event u' htake hu ↦ ?_) r hvisit
    exact hu.step (hplaces u event u' htake) htake.step_eq
  exact hstep.replays

/-- Two orders that trade: the first rests, and the second takes a part of it. -/
def twoOrders : List Handled := [⟨sampleCommand "a" 1 .sell 2, 0, 0⟩, ⟨sampleCommand "b" 2 .buy 1, 0, 0⟩]

theorem journal_replays_after_trade : Along (Recorder.step fun _ ↦ 0) PlacesRecordable .start twoOrders ∧
      ∀ r, Visits (Recorder.step fun _ ↦ 0) .start twoOrders r → r.Replays := by
  have hgtc : ∀ (orderID : String) (userID : ℤ) (side : OrderSide) (quantity : ℤ) (makers : List Order),
      Settles ((sampleCommand orderID userID side quantity).toOrder 0).opened makers := by
    intro orderID userID side quantity makers
    refine ⟨?_, nofun⟩
    rintro (⟨⟨⟩⟩ | ⟨-, hstops, -⟩)
    exact absurd hstops Bool.false_ne_true
  have hplaces : Along (Recorder.step fun _ ↦ 0) PlacesRecordable .start twoOrders := by
    refine ⟨fun _ _ ↦ ⟨by decide, by decide, by decide, hgtc ..⟩, fun r₁ hr₁ ↦ ?_⟩
    obtain rfl := Option.some_inj.mp hr₁
    exact ⟨fun _ _ ↦ ⟨by decide, by decide, by decide, hgtc ..⟩, fun _ _ ↦ trivial⟩
  exact ⟨hplaces, journal_replays _ _ fun r event r' htake ↦ hplaces.of_takes htake⟩

/-- An immediate order for two meets an offer of one: it is cancelled in the journal before its
trade. -/
theorem journal_cancels_before_trade : ∃ r, Visits (Recorder.step fun _ ↦ 0) .start
        [⟨sampleCommand "a" 1 .sell 1, 0, 0⟩,
          ⟨{ sampleCommand "b" 2 .buy 2 with timeInForce := .ioc }, 0, 0⟩] r ∧ ¬ r.Replays := by
  refine ⟨_, visits_of_exec rfl, ?_⟩
  rintro ⟨s, hs, -⟩
  have hfails : (replay _).toOption.isSome = true := congrArg (fun outcome ↦ outcome.toOption.isSome) hs
  exact absurd hfails (by decide)

end FunnyOption.Rollup
