import FunnyOption.Account.Trades
import FunnyOption.Foundation.Run

/-!
# Delivering a trade again

`HandleTradeMatched` makes up to seven calls on the balance book, and each of them is stored by itself. A
call that cannot be stored is undone, and the handler returns its error with the earlier calls in place;
the event is then delivered again.

The credits remember the trade they belong to. The draws on the two freezes do not: a second delivery draws
again unless the freeze is closed by then. So a delivery that follows an earlier one makes exactly the calls
that are missing if the freezes that the earlier one drew on are closed: `redelivery_completes`.

## The calls

`TradeCall` names the calls, and `handleTradeMatched_eq_runCalls` takes the handler apart into them.
`attempt` runs them with a fault at one of them, and returns the account with the calls that are missing.
-/

open Foundation

namespace FunnyOption.Account

open BalanceBook

/-! ## Handlers in sequence -/

theorem Handled.andThen_assoc (h : Handled) (f g : Processor → Handled) :
    (h.andThen f).andThen g = h.andThen fun p ↦ (f p).andThen g := by
  rcases h with ⟨p, e | ⟨⟩⟩ <;> rfl

theorem Handled.andThen_done (h : Handled) : (h.andThen fun p ↦ (p, .ok ())) = h := by
  rcases h with ⟨p, e | ⟨⟩⟩ <;> rfl

/-- The lookup of an order: the registry, where an order that was loaded is kept, and the order. -/
def OrderRegistry.lookup (registry : OrderRegistry) (table : String → Option OrderState)
    (orderID : String) : OrderRegistry × Option OrderState :=
  if orderID = "" then (registry, none) else registry.get (table orderID) orderID

/-- An order that was found is in the registry from then on. -/
theorem OrderRegistry.get_get (registry : OrderRegistry) (loaded : Option OrderState) (orderID : String) :
    (registry.get loaded orderID).1.get loaded orderID = registry.get loaded orderID := by
  cases hstate : registry orderID with
  | some state => simp [OrderRegistry.get, hstate]
  | none =>
    cases loaded with
    | some row => simp [OrderRegistry.get, hstate]
    | none => simp [OrderRegistry.get, hstate]

/-- Looking up an order changes nothing about what is found later. -/
theorem OrderRegistry.lookup_lookup (registry : OrderRegistry) (table : String → Option OrderState)
    (orderID orderID' : String) :
    ((registry.lookup table orderID).1.lookup table orderID').2 =
      (registry.lookup table orderID').2 := by
  by_cases hid : orderID = ""
  · simp [OrderRegistry.lookup, hid]
  by_cases hid' : orderID' = ""
  · simp [OrderRegistry.lookup, hid']
  simp only [OrderRegistry.lookup, if_neg hid, if_neg hid']
  by_cases heq : orderID' = orderID
  · rw [heq, OrderRegistry.get_get]
  · exact Processor.get_get_of_ne registry _ _ heq

/-! ## References -/

/-- No call forgets a reference. -/
theorem BalanceBook.run_refs (book : BalanceBook) (op : Operation) :
    book.processedRefs ⊆ (book.run op).processedRefs := by
  cases run_cases book op with
  | applied req a h =>
    rw [h.processedRefs]
    exact List.subset_cons_self _ _
  | untouched h => simp [h.processedRefs]
  | frozen newID req record call h => simp [h.processedRefs]
  | drawn freezeID record record' a f named isOpen h later => simp [h.processedRefs]

namespace Processor

/-! ## The calls of a trade -/

/-- The calls of `HandleTradeMatched` on the book. -/
inductive TradeCall where
  | consumePayer
  | releasePayer
  | consumeSeller
  | releaseSeller
  | creditReceiver
  | creditBuyer
  | creditPlatform
  deriving DecidableEq

/-- The calls in their order. -/
def TradeCall.all : List TradeCall :=
  [.consumePayer, .releasePayer, .consumeSeller, .releaseSeller, .creditReceiver, .creditBuyer, .creditPlatform]

variable (p : Processor) (table : String → Option OrderState)

/-- Consume a part of the freeze of an order. -/
def consumeFor (orderID : String) (amount : ℤ) : Handled :=
  let found := p.registry.lookup table orderID
  match found.2 with
  | none => (⟨p.book, found.1⟩, .ok ())
  | some state =>
    if state.freezeID = "" then (⟨p.book, found.1⟩, .ok ())
    else
      let consumed := p.book.consumeFreeze state.freezeID amount
      match consumed.2 with
      | .ok () => (⟨consumed.1, found.1⟩, .ok ())
      | .error .freezeAlreadyClosed => (⟨consumed.1, found.1⟩, .ok ())
      | .error e => (⟨consumed.1, found.1⟩, .error (.book e))

/-- Release what the freeze of an order holds in excess. -/
def releaseFor (orderID : String) : Handled :=
  let found := p.registry.lookup table orderID
  match found.2 with
  | none => (⟨p.book, found.1⟩, .ok ())
  | some state =>
    if state.freezeID = "" then (⟨p.book, found.1⟩, .ok ())
    else releaseExcessFreeze ⟨p.book, found.1⟩ state

/-- The draw on the freeze of an order is two calls. -/
theorem drawFreeze_eq (orderID : String) (amount : ℤ) : p.drawFreeze (table orderID) orderID amount =
      (p.consumeFor table orderID amount).andThen fun p ↦ p.releaseFor table orderID := by
  by_cases hid : orderID = ""
  · simp [drawFreeze, consumeFor, releaseFor, OrderRegistry.lookup, hid, Handled.andThen]
  have hlookup : ∀ registry : OrderRegistry, registry.lookup table orderID = registry.get (table orderID) orderID :=
    fun registry ↦ if_neg hid
  have hagain := p.registry.get_get (table orderID) orderID
  simp only [drawFreeze, consumeFor, if_neg hid, hlookup]
  cases hfound : (p.registry.get (table orderID) orderID).2 with
  | none =>
    simp only [Handled.andThen, releaseFor, hlookup, hagain, hfound]
  | some state =>
    by_cases hfreeze : state.freezeID = ""
    · simp only [if_pos hfreeze, Handled.andThen, releaseFor, hlookup, hagain, hfound]
    · have hrelease : ∀ book, releaseFor ⟨book, (p.registry.get (table orderID) orderID).1⟩ table
          orderID = releaseExcessFreeze ⟨book, (p.registry.get (table orderID) orderID).1⟩ state := by
        intro book
        simp only [releaseFor, hlookup, hagain, hfound, if_neg hfreeze]
      simp only [if_neg hfreeze]
      rcases (p.book.consumeFreeze state.freezeID amount).2 with e | ⟨⟩
      · cases e <;> simp only [Handled.andThen, hrelease]
      · simp only [Handled.andThen, hrelease]

/-- What a call does. -/
def TradeCall.run (event : TradeMatchedEvent) (p : Processor) : TradeCall → Handled
  | .consumePayer => p.consumeFor table event.settlementSides.1 (event.price * event.quantity)
  | .releasePayer => p.releaseFor table event.settlementSides.1
  | .consumeSeller => p.consumeFor table event.positionSides.1 event.quantity
  | .releaseSeller => p.releaseFor table event.positionSides.1
  | .creditReceiver => p.creditIf (event.settlementSides.2 > 0 ∧ event.price * event.quantity - event.tradeFees.1 > 0)
      (event.collateralCredit (event.price * event.quantity))
  | .creditBuyer => p.creditIf (event.positionSides.2 > 0) event.positionCredit
  | .creditPlatform => p.creditIf (event.tradeFees.1 + event.tradeFees.2 > 0) event.feeCredit

/-- Calls one after the other, up to the first error. -/
def runCalls (event : TradeMatchedEvent) : List TradeCall → Processor → Handled
  | [], p => (p, .ok ())
  | call :: calls, p => (call.run table event p).andThen (runCalls event calls)

variable {p table} {event : TradeMatchedEvent}

/-- A notional that can be computed is the product of two positive numbers. -/
theorem tradeNotional_ok {price quantity notional : ℤ} (h : tradeNotional price quantity = .ok notional) :
    notional = price * quantity ∧ 0 < price ∧ 0 < quantity := by
  unfold tradeNotional at h
  split at h
  · exact absurd h (by simp)
  · next hpos =>
    split at h
    · exact absurd h (by simp)
    · push Not at hpos
      exact ⟨(Except.ok.inj h).symm, hpos⟩

/-- **The handler is its seven calls.** -/
theorem handleTradeMatched_eq_runCalls {notional : ℤ}
    (hnotional : tradeNotional event.price event.quantity = .ok notional) :
    p.handleTradeMatched (some false) (table event.settlementSides.1) (table event.positionSides.1)
      event = runCalls table event TradeCall.all p := by
  obtain ⟨rfl, -⟩ := tradeNotional_ok hnotional
  simp only [handleTradeMatched, hnotional, drawFreeze_eq, creditTrade, TradeCall.all, runCalls,
    TradeCall.run, Handled.andThen_assoc, Handled.andThen_done]

/-! ## Calls that were made before -/

/-- An order whose freeze is closed, or that has none. A delivery that finds the freeze closed still
computes the reserve of the order. -/
def Closed (book : BalanceBook) (found : Option OrderState) : Prop := ∀ state ∈ found, state.freezeID ≠ "" →
    (∃ record ∈ book.freezes state.freezeID, (record.released || record.consumed) = true) ∧
      ∃ reserve ∈ (expectedFreezeAmount state).toOption, 0 ≤ reserve

theorem consumeFor_of_closed {orderID : String} {amount : ℤ} (hpos : 0 < amount)
    (h : Closed p.book (p.registry.lookup table orderID).2) :
    p.consumeFor table orderID amount =
      (⟨p.book, (p.registry.lookup table orderID).1⟩, .ok ()) := by
  simp only [consumeFor]
  cases hfound : (p.registry.lookup table orderID).2 with
  | none => rfl
  | some state =>
    by_cases hfreeze : state.freezeID = ""
    · simp only [if_pos hfreeze]
    · obtain ⟨⟨record, hrecord, hclosed⟩, -⟩ := h state hfound hfreeze
      have hconsume : p.book.consumeFreeze state.freezeID amount =
          (p.book, .error .freezeAlreadyClosed) := by
        simp only [consumeFreeze, if_neg (not_le.mpr hpos), getActiveFreeze, Option.mem_def.mp hrecord,
          hclosed, if_true]
      simp only [if_neg hfreeze, hconsume]

theorem releaseFor_of_closed {orderID : String} (h : Closed p.book (p.registry.lookup table orderID).2) :
    p.releaseFor table orderID = (⟨p.book, (p.registry.lookup table orderID).1⟩, .ok ()) := by
  simp only [releaseFor]
  cases hfound : (p.registry.lookup table orderID).2 with
  | none => rfl
  | some state =>
    by_cases hfreeze : state.freezeID = ""
    · simp only [if_pos hfreeze]
    · obtain ⟨⟨record, hrecord, hclosed⟩, reserve, hreserve, hnonneg⟩ := h state hfound hfreeze
      have hamount : p.book.freezeAmount state.freezeID = some 0 := by
        simp only [freezeAmount, Option.mem_def.mp hrecord, Option.map_some, hclosed, if_true]
      have hexpected : expectedFreezeAmount state = .ok reserve := by
        cases he : expectedFreezeAmount state with
        | error e => exact absurd hreserve (by simp [he, Except.toOption])
        | ok r =>
          rw [he] at hreserve
          exact congrArg Except.ok (Option.some.inj hreserve)
      simp only [if_neg hfreeze, releaseExcessFreeze, hamount, hexpected, if_pos hnonneg]

/-- A credit that is not due, or whose reference has been applied. -/
def Recorded (p : Processor) (condition : Prop) (req : RefRequest) : Prop :=
  condition → RefRequest.Valid req ∧ refKey req.refType req.refID ∈ p.book.processedRefs

variable {condition : Prop} {req : RefRequest}

/-- A credit that went through is recorded. -/
theorem recorded_of_ok [Decidable condition] (h : (p.creditIf condition req).2 = .ok ()) :
    Recorded (p.creditIf condition req).1 condition req := by
  intro hcondition
  simp only [creditIf, if_pos hcondition] at h ⊢
  by_cases hvalid : RefRequest.Valid req
  · refine ⟨hvalid, ?_⟩
    by_cases hfresh : refKey req.refType req.refID ∈ p.book.processedRefs
    · rw [creditAvailableWithRef, (withRef_of_not fun _ ↦ hfresh).1]
      exact hfresh
    · rw [(creditAvailableWithRef_of_valid hvalid hfresh).2.processedRefs]
      exact List.mem_cons_self
  · have hfails : ∀ applied, (p.book.creditAvailableWithRef req).2 ≠ .ok applied := by
      intro applied hok
      refine hvalid ?_
      rw [creditAvailableWithRef, withRef] at hok
      split_ifs at hok with hpos hasset href
      all_goals push Not at hpos href; exact ⟨hpos, hasset, href⟩
    cases hresult : (p.book.creditAvailableWithRef req).2 with
    | error e => rw [hresult] at h; exact absurd h (by simp [Except.mapError, Except.map])
    | ok applied => exact absurd hresult (hfails applied)

/-- A credit that is recorded is answered without effect. -/
theorem creditIf_of_recorded [Decidable condition] (h : Recorded p condition req) :
    p.creditIf condition req = (p, .ok ()) := by
  by_cases hcondition : condition
  · obtain ⟨hvalid, hseen⟩ := h hcondition
    simp only [creditIf, if_pos hcondition, creditAvailableWithRef, withRef, if_neg hvalid.not_nonpos,
      if_neg hvalid.asset, if_neg (not_or.mpr hvalid.ref), if_pos hseen]
    rfl
  · exact creditIf_of_not hcondition req

/-! ## The second delivery -/

/-- The freeze that a call draws on is closed. -/
def TradeCall.Drained (table : String → Option OrderState) (event : TradeMatchedEvent)
    (p : Processor) : TradeCall → Prop
  | .consumePayer | .releasePayer => Closed p.book (p.registry.lookup table event.settlementSides.1).2
  | .consumeSeller | .releaseSeller => Closed p.book (p.registry.lookup table event.positionSides.1).2
  | .creditReceiver | .creditBuyer | .creditPlatform => True

/-- The credit that a call makes is recorded. -/
def TradeCall.Remembered (event : TradeMatchedEvent) (p : Processor) : TradeCall → Prop
  | .consumePayer | .releasePayer | .consumeSeller | .releaseSeller => True
  | .creditReceiver => Recorded p (event.settlementSides.2 > 0 ∧ event.price * event.quantity - event.tradeFees.1 > 0)
      (event.collateralCredit (event.price * event.quantity))
  | .creditBuyer => Recorded p (event.positionSides.2 > 0) event.positionCredit
  | .creditPlatform => Recorded p (event.tradeFees.1 + event.tradeFees.2 > 0) event.feeCredit

/-- A call that the book would answer without effect. -/
structure TradeCall.Idle (table : String → Option OrderState) (event : TradeMatchedEvent)
    (p : Processor) (call : TradeCall) : Prop where
  drained : call.Drained table event p
  remembered : call.Remembered event p

/-- Two accounts with one book that find the same orders. -/
structure SameOrders (table : String → Option OrderState) (p q : Processor) : Prop where
  book : q.book = p.book
  found : ∀ orderID, (q.registry.lookup table orderID).2 = (p.registry.lookup table orderID).2

theorem SameOrders.refl (p : Processor) : SameOrders table p p := ⟨rfl, fun _ ↦ rfl⟩

theorem SameOrders.trans {p q r : Processor} (h : SameOrders table p q) (h' : SameOrders table q r) :
    SameOrders table p r :=
  ⟨h'.book.trans h.book, fun id ↦ (h'.found id).trans (h.found id)⟩

theorem sameOrders_lookup (p : Processor) (orderID : String) :
    SameOrders table p ⟨p.book, (p.registry.lookup table orderID).1⟩ :=
  ⟨rfl, fun id ↦ p.registry.lookup_lookup table orderID id⟩

variable {call : TradeCall}

theorem TradeCall.Idle.of_sameOrders {p q : Processor} (h : SameOrders table p q) (hidle : call.Idle table event p) :
    call.Idle table event q := by
  obtain ⟨hdrained, hremembered⟩ := hidle
  constructor
  · cases call with
    | consumePayer | releasePayer | consumeSeller | releaseSeller =>
      simpa only [TradeCall.Drained, h.book, h.found] using hdrained
    | creditReceiver | creditBuyer | creditPlatform => trivial
  · cases call with
    | consumePayer | releasePayer | consumeSeller | releaseSeller => trivial
    | creditReceiver | creditBuyer | creditPlatform =>
      simpa only [TradeCall.Remembered, Recorded, h.book] using hremembered

/-- An idle call loads an order at most. -/
theorem TradeCall.Idle.run (hprice : 0 < event.price) (hquantity : 0 < event.quantity)
    (hidle : call.Idle table event p) : ∃ q, SameOrders table p q ∧ call.run table event p = (q, .ok ()) := by
  cases call with
  | consumePayer =>
    have hrun := consumeFor_of_closed (mul_pos hprice hquantity) hidle.drained
    exact ⟨_, sameOrders_lookup p event.settlementSides.1, by rw [TradeCall.run, hrun]⟩
  | releasePayer =>
    have hrun := releaseFor_of_closed hidle.drained
    exact ⟨_, sameOrders_lookup p event.settlementSides.1, by rw [TradeCall.run, hrun]⟩
  | consumeSeller =>
    have hrun := consumeFor_of_closed hquantity hidle.drained
    exact ⟨_, sameOrders_lookup p event.positionSides.1, by rw [TradeCall.run, hrun]⟩
  | releaseSeller =>
    have hrun := releaseFor_of_closed hidle.drained
    exact ⟨_, sameOrders_lookup p event.positionSides.1, by rw [TradeCall.run, hrun]⟩
  | creditReceiver | creditBuyer | creditPlatform =>
    have hrecorded := hidle.remembered
    rw [TradeCall.Remembered] at hrecorded
    exact ⟨p, .refl p, by rw [TradeCall.run, creditIf_of_recorded hrecorded]⟩

/-- Idle calls ahead of others can be left out. -/
theorem runCalls_append_of_idle (hprice : 0 < event.price) (hquantity : 0 < event.quantity) (rest : List TradeCall)
    {calls : List TradeCall} (hidle : ∀ call ∈ calls, call.Idle table event p) :
    ∃ q, SameOrders table p q ∧
      runCalls table event (calls ++ rest) p = runCalls table event rest q := by
  induction calls generalizing p with
  | nil => exact ⟨p, .refl p, rfl⟩
  | cons call calls ih =>
    obtain ⟨q, hq, hrun⟩ := (hidle call List.mem_cons_self).run hprice hquantity
    obtain ⟨r, hr, hrest⟩ := ih (p := q) fun c hc ↦
      (hidle c (List.mem_cons_of_mem _ hc)).of_sameOrders hq
    refine ⟨r, hq.trans hr, ?_⟩
    rw [List.cons_append, runCalls, hrun]
    exact hrest

/-! ## The first delivery -/

/-- Calls with a fault at one of them, which is undone: the account, and the calls that are missing. -/
def attempt (table : String → Option OrderState) (event : TradeMatchedEvent)
    (fault : Option TradeCall) : List TradeCall → Processor → Processor × List TradeCall
  | [], p => (p, [])
  | call :: calls, p =>
    if fault = some call then (⟨p.book, (call.run table event p).1.registry⟩, call :: calls)
    else
      match call.run table event p with
      | (p, .ok ()) => attempt table event fault calls p
      | (p, .error _) => (p, call :: calls)

/-- The delivery of a trade while the rollup is not frozen: the account, and the calls that are
missing. -/
def deliverTrade (p : Processor) (table : String → Option OrderState) (event : TradeMatchedEvent)
    (fault : Option TradeCall) : Processor × List TradeCall :=
  match tradeNotional event.price event.quantity with
  | .error _ => (p, [])
  | .ok _ => attempt table event fault TradeCall.all p

/-! ### What a delivery remembers -/

theorem refs_consumeFor (p : Processor) (orderID : String) (amount : ℤ) :
    p.book.processedRefs ⊆ (p.consumeFor table orderID amount).1.book.processedRefs := by
  simp only [consumeFor]
  split
  · exact List.Subset.refl _
  · next state _ =>
    have hconsume := p.book.run_refs (.consumeFreeze state.freezeID amount)
    split_ifs
    · exact List.Subset.refl _
    · split <;> exact hconsume

theorem refs_releaseFor (p : Processor) (orderID : String) :
    p.book.processedRefs ⊆ (p.releaseFor table orderID).1.book.processedRefs := by
  simp only [releaseFor]
  split
  · exact List.Subset.refl _
  · next state _ =>
    split_ifs
    · exact List.Subset.refl _
    · simp only [releaseExcessFreeze]
      split
      · exact List.Subset.refl _
      · next current _ =>
        split
        · exact List.Subset.refl _
        · next expected _ =>
          split_ifs
          · exact List.Subset.refl _
          · exact p.book.run_refs (.releaseFreezeAmount state.freezeID (current - expected))

theorem refs_creditIf (p : Processor) [Decidable condition] :
    p.book.processedRefs ⊆ (p.creditIf condition req).1.book.processedRefs := by
  simp only [creditIf]
  split_ifs
  · exact p.book.run_refs (.credit req)
  · exact List.Subset.refl _

theorem TradeCall.refs_run (p : Processor) (call : TradeCall) :
    p.book.processedRefs ⊆ (call.run table event p).1.book.processedRefs := by
  cases call with
  | consumePayer | consumeSeller => rw [TradeCall.run]; exact refs_consumeFor p _ _
  | releasePayer | releaseSeller => rw [TradeCall.run]; exact refs_releaseFor p _
  | creditReceiver | creditBuyer | creditPlatform => rw [TradeCall.run]; exact refs_creditIf p

theorem refs_attempt (p : Processor) (fault : Option TradeCall) (calls : List TradeCall) :
    p.book.processedRefs ⊆ (attempt table event fault calls p).1.book.processedRefs := by
  induction calls generalizing p with
  | nil => exact List.Subset.refl _
  | cons call calls ih =>
    have hrun : p.book.processedRefs ⊆ (call.run table event p).1.book.processedRefs := call.refs_run p
    rw [attempt]
    split_ifs
    · exact List.Subset.refl _
    · generalize call.run table event p = handled at hrun ⊢
      rcases handled with ⟨q, e | ⟨⟩⟩
      · exact hrun
      · exact List.Subset.trans hrun (ih q)

theorem Recorded.mono {q : Processor} (h : Recorded p condition req)
    (hrefs : p.book.processedRefs ⊆ q.book.processedRefs) : Recorded q condition req :=
  fun hcondition ↦ ⟨(h hcondition).1, hrefs (h hcondition).2⟩

theorem TradeCall.Remembered.mono {q : Processor} (h : call.Remembered event p)
    (hrefs : p.book.processedRefs ⊆ q.book.processedRefs) : call.Remembered event q := by
  cases call with
  | consumePayer | releasePayer | consumeSeller | releaseSeller => trivial
  | creditReceiver | creditBuyer | creditPlatform =>
    rw [TradeCall.Remembered] at h ⊢
    exact h.mono hrefs

theorem TradeCall.remembered_of_ok (h : (call.run table event p).2 = .ok ()) :
    call.Remembered event (call.run table event p).1 := by
  cases call with
  | consumePayer | releasePayer | consumeSeller | releaseSeller => trivial
  | creditReceiver | creditBuyer | creditPlatform =>
    rw [TradeCall.run] at h ⊢
    rw [TradeCall.Remembered]
    exact recorded_of_ok h

/-- The calls that are not missing have been made, and their credits are remembered. -/
theorem attempt_split (fault : Option TradeCall) (calls : List TradeCall) :
    ∃ made, calls = made ++ (attempt table event fault calls p).2 ∧
      ∀ call ∈ made, call.Remembered event (attempt table event fault calls p).1 := by
  induction calls generalizing p with
  | nil => exact ⟨[], rfl, fun _ h ↦ absurd h List.not_mem_nil⟩
  | cons call calls ih =>
    have hremembered : (call.run table event p).2 = .ok () →
        call.Remembered event (call.run table event p).1 := TradeCall.remembered_of_ok
    rw [attempt]
    split_ifs
    · exact ⟨[], rfl, fun _ h ↦ absurd h List.not_mem_nil⟩
    · generalize call.run table event p = handled at hremembered ⊢
      rcases handled with ⟨q, e | ⟨⟩⟩
      · exact ⟨[], rfl, fun _ h ↦ absurd h List.not_mem_nil⟩
      · obtain ⟨made, hsplit, hmade⟩ := ih (p := q)
        refine ⟨call :: made, congrArg (List.cons call) hsplit, ?_⟩
        intro c hc
        rcases List.mem_cons.mp hc with rfl | hc
        · exact (hremembered rfl).mono (refs_attempt q fault calls)
        · exact hmade c hc

/-! ## Events in between -/

/-- The calls of `HandleOrderEvent` on the book. -/
inductive OrderCall where
  | freeze
  | release
  deriving DecidableEq

/-- The delivery of an event of an order while the rollup is not frozen, with a fault at one of its
calls. -/
def deliverOrder (p : Processor) (persisted : Option OrderState) (event : OrderEvent)
    (fault : Option OrderCall) : Processor :=
  let upserted := p.registry.upsert persisted (stateOf event)
  if fault = some .freeze then ⟨p.book, upserted.1⟩
  else
    match applyFreeze ⟨p.book, upserted.1⟩ event upserted.2 with
    | (p, .error _) => p
    | (p, .ok state) => if fault = some .release then p else (p.releaseEnded event state).1

/-- What happens to an account: events of orders and of trades, and calls on the book by others. -/
inductive AccountEvent where
  | order (persisted : Option OrderState) (event : OrderEvent) (fault : Option OrderCall)
  | trade (table : String → Option OrderState) (event : TradeMatchedEvent) (fault : Option TradeCall)
  | call (op : Operation)

/-- One event. -/
def step (p : Processor) : AccountEvent → Processor
  | .order persisted event fault => p.deliverOrder persisted event fault
  | .trade table event fault => (p.deliverTrade table event fault).1
  | .call op => ⟨p.book.run op, p.registry⟩

theorem refs_applyFreeze (p : Processor) (event : OrderEvent) (state : OrderState) :
    p.book.processedRefs ⊆ (p.applyFreeze event state).1.book.processedRefs := by
  have hfrozen : p.book.processedRefs ⊆
      (p.book.applyExternalFreeze "" (freezeRequest event)).1.processedRefs := by
    rw [applyExternalFreeze]
    split_ifs
    · exact List.Subset.refl _
    · exact p.book.run_refs (.preFreeze "" (freezeRequest event))
  simp only [applyFreeze]
  generalize p.book.applyExternalFreeze "" (freezeRequest event) = frozen at hfrozen ⊢
  split_ifs
  · split <;> exact hfrozen
  · exact List.Subset.refl _

theorem refs_releaseEnded (p : Processor) (event : OrderEvent) (state : OrderState) :
    p.book.processedRefs ⊆ (p.releaseEnded event state).1.book.processedRefs := by
  have hreleased := p.book.run_refs (.releaseFreeze state.freezeID)
  simp only [releaseEnded]
  split_ifs
  · split <;> exact hreleased
  · exact List.Subset.refl _

theorem refs_deliverOrder (p : Processor) (persisted : Option OrderState) (event : OrderEvent)
    (fault : Option OrderCall) :
    p.book.processedRefs ⊆ (p.deliverOrder persisted event fault).book.processedRefs := by
  simp only [deliverOrder]
  generalize p.registry.upsert persisted (stateOf event) = upserted
  have hfrozen := refs_applyFreeze ⟨p.book, upserted.1⟩ event upserted.2
  split
  · exact List.Subset.refl _
  · split
    · next q e heq =>
      rw [heq] at hfrozen
      exact hfrozen
    · next q state heq =>
      rw [heq] at hfrozen
      split
      · exact hfrozen
      · exact List.Subset.trans hfrozen (refs_releaseEnded q event state)

/-- No event makes the account forget a reference. -/
theorem refs_step (p : Processor) (e : AccountEvent) : p.book.processedRefs ⊆ (p.step e).book.processedRefs := by
  cases e with
  | order persisted event fault => exact refs_deliverOrder p persisted event fault
  | trade table event fault =>
    simp only [step, deliverTrade]
    split
    · exact List.Subset.refl _
    · exact refs_attempt p fault _
  | call op => exact p.book.run_refs op

theorem refs_run (p : Processor) (events : List AccountEvent) :
    p.book.processedRefs ⊆ (events.foldl step p).book.processedRefs := by
  induction events generalizing p with
  | nil => exact List.Subset.refl _
  | cons e events ih => exact List.Subset.trans (refs_step p e) (ih _)

/-- **A second delivery completes the first.** If the freezes that the first delivery drew on are closed
when the second arrives, the second makes exactly the calls that are missing. -/
theorem redelivery_completes (p : Processor) (table table' : String → Option OrderState)
    (event : TradeMatchedEvent) (fault : Option TradeCall) (others : List AccountEvent)
    (hdrained : ∀ call ∈ TradeCall.all, call ∉ (p.deliverTrade table event fault).2 →
      call.Drained table' event (others.foldl step (p.deliverTrade table event fault).1)) :
    ∃ q, SameOrders table' (others.foldl step (p.deliverTrade table event fault).1) q ∧
      ((others.foldl step (p.deliverTrade table event fault).1).handleTradeMatched (some false)
        (table' event.settlementSides.1) (table' event.positionSides.1) event).1 =
      (runCalls table' event (p.deliverTrade table event fault).2 q).1 := by
  have hlater := refs_run (p.deliverTrade table event fault).1 others
  cases hnotional : tradeNotional event.price event.quantity with
  | error e =>
    refine ⟨_, .refl _, ?_⟩
    simp only [deliverTrade, handleTradeMatched, hnotional, runCalls]
  | ok notional =>
    obtain ⟨-, hprice, hquantity⟩ := tradeNotional_ok hnotional
    have hdeliver : p.deliverTrade table event fault = attempt table event fault TradeCall.all p := by
      rw [deliverTrade, hnotional]
    rw [handleTradeMatched_eq_runCalls hnotional]
    rw [hdeliver] at hdrained hlater ⊢
    obtain ⟨made, hsplit, hmade⟩ : ∃ made, TradeCall.all = made ++ _ ∧
        ∀ call ∈ made, call.Remembered event (attempt table event fault TradeCall.all p).1 :=
      attempt_split fault TradeCall.all
    generalize attempt table event fault TradeCall.all p = first at *
    have hnodup : (made ++ first.2).Nodup := hsplit ▸ (by decide : TradeCall.all.Nodup)
    have hidle : ∀ call ∈ made, call.Idle table' event (others.foldl step first.1) := fun call hcall ↦
      ⟨hdrained call (hsplit ▸ List.mem_append_left _ hcall)
          (List.disjoint_of_nodup_append hnodup hcall),
        (hmade call hcall).mono hlater⟩
    obtain ⟨q, hq, hrun⟩ := runCalls_append_of_idle hprice hquantity first.2 hidle
    exact ⟨q, hq, by rw [hsplit, hrun]⟩

/-! ## Samples -/

section Samples

instance (book : BalanceBook) (found : Option OrderState) : Decidable (Closed book found) :=
  inferInstanceAs (Decidable (∀ state ∈ found, state.freezeID ≠ "" →
    (∃ record ∈ book.freezes state.freezeID, (record.released || record.consumed) = true) ∧
      ∃ reserve ∈ (expectedFreezeAmount state).toOption, 0 ≤ reserve))

instance (call : TradeCall) : Decidable (call.Drained table event p) :=
  match call with
  | .consumePayer | .releasePayer =>
    inferInstanceAs (Decidable (Closed p.book (p.registry.lookup table event.settlementSides.1).2))
  | .consumeSeller | .releaseSeller =>
    inferInstanceAs (Decidable (Closed p.book (p.registry.lookup table event.positionSides.1).2))
  | .creditReceiver | .creditBuyer | .creditPlatform => inferInstanceAs (Decidable True)

/-- An order of ten to buy at 60, or one of four to sell, as its last event states it. -/
private def orderEvent (buy : Bool) (filled : ℤ) : OrderEvent :=
  { commandID := "", traceID := "", orderID := if buy then "b" else "s", clientOrderID := ""
    freezeID := if buy then "fb" else "fs", freezeAsset := if buy then "USDT" else "P:1"
    freezeAmount := if buy then 600 else filled, collateralAsset := "USDT"
    userID := if buy then 1 else 2, marketID := 1, outcome := "Y"
    side := if buy then "BUY" else "SELL", type := "LIMIT", timeInForce := "GTC", status := "OPEN"
    cancelReason := "", price := 60, quantity := if buy then 10 else filled
    filledQuantity := filled, remainingQuantity := if buy then 10 - filled else 0 }

/-- The trade between the two orders. -/
private def trade (quantity : ℤ) : TradeMatchedEvent :=
  { eventID := "e", tradeID := "t", sequence := 1, epochID := 1, traceID := ""
    collateralAsset := "USDT", marketID := 1, outcome := "Y", bookKey := "1:Y", price := 60
    quantity := quantity, takerOrderID := "b", makerOrderID := "s", takerUserID := 1
    makerUserID := 2, takerSide := "BUY", makerSide := "SELL", takerFeeBps := 0, makerFeeBps := 0
    takerFee := 0, makerFee := 0, occurredAtMillis := 0 }

/-- Two deposits and the events of the two orders. -/
private def beforeTrade (quantity : ℤ) : List AccountEvent :=
  [.call (.credit ⟨1, "USDT", 600, "DEPOSIT", "d1"⟩), .call (.credit ⟨2, "P:1", 10, "DEPOSIT", "d2"⟩),
    .order none (orderEvent true quantity) none, .order none (orderEvent false quantity) none]

private def start : Processor := ⟨.empty, fun _ ↦ none⟩

/-- Four of ten are traded and the event is delivered twice: 240 are paid, and 480 leave the freeze of the
buyer. -/
theorem trade_drawn_twice :
    let p := (beforeTrade 4).foldl step start
    let once := p.handleTradeMatched (some false) none none (trade 4)
    let twice := once.1.handleTradeMatched (some false) none none (trade 4)
    once.2 = .ok () ∧ twice.2 = .ok () ∧ p.book.frozen (1, "USDT") = 600 ∧ once.1.book.frozen (1, "USDT") = 360 ∧
      twice.1.book.frozen (1, "USDT") = 120 ∧
      once.1.book.available (2, "USDT") = 240 ∧ twice.1.book.available (2, "USDT") = 240 := by
  decide +kernel

/-- All ten are traded, the credit of the seller cannot be stored at first, and the event is delivered
again. -/
theorem redelivery_completes_filled :
    let p := (beforeTrade 10).foldl step start
    let first := p.deliverTrade (fun _ ↦ none) (trade 10) (some .creditReceiver)
    first.2 = [.creditReceiver, .creditBuyer, .creditPlatform] ∧ ∃ q, SameOrders (fun _ ↦ none) first.1 q ∧
        (first.1.handleTradeMatched (some false) none none (trade 10)).1 =
          (runCalls (fun _ ↦ none) (trade 10) first.2 q).1 := by
  refine ⟨by decide +kernel, ?_⟩
  exact redelivery_completes ((beforeTrade 10).foldl step start) (fun _ ↦ none) (fun _ ↦ none) (trade 10)
    (some .creditReceiver) [] (by decide +kernel)

end Samples

end Processor

end FunnyOption.Account
