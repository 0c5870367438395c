import FunnyOption.Account.Trades
import FunnyOption.Foundation.Run
import FunnyOption.PostTrade.Events

/-!
# The exchange: engine, post-trade service and account service

An order is submitted, which freezes what it may cost; its command is placed with the engine; what the
engine returns is published to two topics; and the account service consumes both. A topic keeps the
order of its events and each event is delivered once, but nothing relates the progress on the one topic
to the progress on the other: a run may deliver from either whenever there is something to deliver, also
while the engine is still at work.

## What the account service finds

The account service knows an order from its events, or from the table of orders. What the table answers
is not computed here: a step is given an answer, and it is enabled if the answer fits a command that was
placed under the id that is asked for.

Everything in such a run stems from commands that were submitted: `Tracked` says so of the resting
orders, of the events on both topics, and of the orders that the account service knows.
-/

open Foundation

namespace FunnyOption.PostTrade

open Account Matching Orders

/-! ## The system -/

/-- The state of the three services and of the two topics. -/
structure Exchange where
  engine : Engine
  account : Processor
  /-- Commands whose freeze was taken. -/
  submitted : List MatchCommand
  /-- Commands that were placed with the engine. -/
  placed : List MatchCommand
  /-- The topic of orders, as far as it is not consumed. -/
  orders : List OrderEvent
  /-- The topic of trades, as far as it is not consumed. -/
  trades : List TradeMatchedEvent
  /-- The topic of trades, as far as it is consumed. -/
  settled : List TradeMatchedEvent

/-- What can happen. -/
inductive Event where
  | submit (req : SubmitRequest) (suffix : String)
  | place (command : MatchCommand) (nowMillis : ℤ) (epochID : ℕ)
  | cancel (command : MatchCommand) (nowMillis : ℤ)
  | deliverOrder (rollupFrozen : Option Bool) (row : Option OrderState)
  | deliverTrade (rollupFrozen : Option Bool) (payer seller : Option OrderState)

/-- The command by which `sweepOnce` cancels the order of a command when its market closes. -/
def cancelCommand (c : MatchCommand) : MatchCommand where
  userID := 0
  marketID := c.marketID
  price := c.price
  quantity := 0
  freezeAmount := c.freezeAmount
  requestedAtMillis := 0
  orderID := c.orderID
  clientOrderID := ""
  outcome := c.outcome
  bookKey := buildBookKey c.marketID c.outcome
  commandID := c.commandID
  traceID := "market_close_sweep"
  freezeID := c.freezeID
  freezeAsset := c.freezeAsset
  collateralAsset := c.collateralAsset
  action := .cancel
  side := c.side
  type := .limit
  timeInForce := .gtc
  stp := .none
  cancelReason := .marketClosed

/-- An answer of the table of orders: nothing, or a row of the order of a placed command. -/
def RowOf (placed : List MatchCommand) (orderID : String) (row : Option OrderState) : Prop :=
  ∀ state ∈ row, ∃ c ∈ placed, c.orderID = orderID ∧ Processor.Fits (terms c) state

variable {row : Option OrderState}

/-- An answer that is kept in the registry. -/
theorem rowOf_get {placed : List MatchCommand} {registry : OrderRegistry} {orderID : String}
    (h : ∀ id, RowOf placed id (registry id)) (hrow : RowOf placed orderID row) (id : String) :
    RowOf placed id ((registry.get row orderID).1 id) := by
  unfold OrderRegistry.get
  split
  · exact h id
  · split
    · next state =>
      dsimp only
      by_cases hid : id = orderID
      · rw [hid, Function.update_self]
        exact hrow
      · rw [Function.update_of_ne hid]
        exact h id
    · exact h id

instance (placed : List MatchCommand) (orderID : String) (row : Option OrderState) :
    Decidable (RowOf placed orderID row) :=
  inferInstanceAs (Decidable
    (∀ state ∈ row, ∃ c ∈ placed, c.orderID = orderID ∧ Processor.Fits (terms c) state))

namespace Exchange

/-- Nothing was submitted. -/
def start (book : BalanceBook) (sequence : ℕ) : Exchange := ⟨.new sequence, ⟨book, fun _ ↦ none⟩, [], [], [], [], []⟩

variable (schedule : Schedule) (eventID : Trade → String) (clock : ℕ → ℤ) (s : Exchange)

/-- Publish what the engine returns. -/
def publish (results : List MatchResult) : Exchange :=
  { s with
    orders := s.orders ++ results.flatMap orderEvents
    trades := s.trades ++ results.flatMap (tradeEvents schedule eventID) }

/-- One step. -/
def step : Event → Option Exchange
  | .submit req suffix =>
    let submitted := submitOrder s.account.book (newID "frz" suffix) req
    some { s with
      account := ⟨submitted.1, s.account.registry⟩
      submitted := submitted.2.toList ++ s.submitted }
  | .place command nowMillis epochID =>
    if command ∈ s.submitted then
      let handled := s.engine.handlePlace clock command nowMillis epochID
      some (publish schedule eventID
        { s with
          engine := handled.1
          submitted := s.submitted.erase command
          placed := command :: s.placed } handled.2)
    else none
  | .cancel command nowMillis =>
    if command ∈ s.placed then
      let handled := s.engine.handleCancel (cancelCommand command) nowMillis
      some (publish schedule eventID { s with engine := handled.1 } handled.2)
    else none
  | .deliverOrder rollupFrozen row =>
    match s.orders with
    | [] => none
    | event :: orders =>
      if RowOf s.placed event.orderID row then
        some { s with
          account := (s.account.handleOrderEvent rollupFrozen row event).1
          orders := orders }
      else none
  | .deliverTrade rollupFrozen payer seller =>
    match s.trades with
    | [] => none
    | event :: trades =>
      if RowOf s.placed event.settlementSides.1 payer ∧ RowOf s.placed event.positionSides.1 seller then
        some { s with
          account := (s.account.handleTradeMatched rollupFrozen payer seller event).1
          trades := trades
          settled := s.settled ++ [event] }
      else none

end Exchange

/-! ## Where everything stems from -/

/-- Everything in the system stems from commands with a freeze. -/
structure Tracked (s : Exchange) : Prop where
  wellFormed : s.engine.WellFormed
  restingIDs : (s.engine.restingOrders.map Order.orderID).Nodup
  resting : ∀ o ∈ s.engine.restingOrders, o.orderID ≠ "" ∧ 0 < o.price ∧ ∃ c ∈ s.placed, Stems c o
  placedIDs : (s.placed.map MatchCommand.orderID).Nodup
  submitted : ∀ c ∈ s.submitted, Sound c ∧ Funded s.account.book c
  placed : ∀ c ∈ s.placed, Sound c ∧ Funded s.account.book c
  registry : ∀ id, RowOf s.placed id (s.account.registry id)
  orders : ∀ event ∈ s.orders, ∃ c ∈ s.placed, EventOf c event
  trades : ∀ event ∈ s.trades, ∃ buyer ∈ s.placed, ∃ seller ∈ s.placed, TradeBetween buyer seller event

namespace Tracked

variable {s : Exchange} {schedule : Schedule} {eventID : Trade → String} {clock : ℕ → ℤ}

theorem start (book : BalanceBook) (sequence : ℕ) : Tracked (.start book sequence) :=
  ⟨.new sequence, .nil, by simp [Exchange.start, Engine.new, Engine.restingOrders], .nil,
    by simp [Exchange.start], by simp [Exchange.start], fun _ _ h ↦ absurd h (by simp [Exchange.start]),
    by simp [Exchange.start], by simp [Exchange.start]⟩

/-- An order id belongs to one command. -/
theorem unique (h : Tracked s) {c c' : MatchCommand} (hc : c ∈ s.placed) (hc' : c' ∈ s.placed)
    (hid : c.orderID = c'.orderID) : c = c' :=
  List.inj_on_of_nodup_map h.placedIDs hc hc' hid

/-- What the account service knows of an order fits the command of the order. -/
theorem fits_of_found (h : Tracked s) {c : MatchCommand} (hc : c ∈ s.placed) (hrow : RowOf s.placed c.orderID row)
    {state : OrderState} (hfound : (s.account.registry.get row c.orderID).2 = some state) :
    Processor.Fits (terms c) state := by
  have hplaced : ∃ c' ∈ s.placed, c'.orderID = c.orderID ∧ Processor.Fits (terms c') state := by
    rcases Processor.get_cases hfound with hknown | rfl
    · exact h.registry c.orderID state hknown
    · exact hrow state rfl
  obtain ⟨c', hc', hid, hfits⟩ := hplaced
  rwa [h.unique hc' hc hid] at hfits

/-- The freezes stay, as far as the book only ages. -/
theorem age (h : Tracked s) {account : Processor} (hages : s.account.book.Ages account.book)
    (hrows : ∀ k, (s.account.book.balances k).isSome → (account.book.balances k).isSome)
    (hregistry : ∀ id, RowOf s.placed id (account.registry id)) : Tracked { s with account := account } :=
  { h with
    submitted := fun c hc ↦ (h.submitted c hc).imp_right fun hf ↦ hf.of_ages hages hrows
    placed := fun c hc ↦ (h.placed c hc).imp_right fun hf ↦ hf.of_ages hages hrows
    registry := hregistry }

/-- A registry that differs at the order of one command. -/
theorem registry_of_registers (h : Tracked s) {c : MatchCommand} (hc : c ∈ s.placed) {id : String}
    (hid : c.orderID = id) {registry : OrderRegistry}
    (hregisters : Processor.Registers (terms c) id s.account.registry registry) :
    ∀ id, RowOf s.placed id (registry id) := by
  intro id' state hstate
  rcases hregisters id' state hstate with hold | ⟨rfl, hfits⟩
  · exact h.registry id' state hold
  · exact ⟨c, hc, hid, hfits⟩

variable {s' : Exchange}

theorem submit (h : Tracked s) (req : SubmitRequest) (suffix : String)
    (hstep : s.step schedule eventID clock (.submit req suffix) = some s') : Tracked s' := by
  obtain rfl := Option.some_inj.mp hstep
  have hs := submits_submitOrder s.account.book (newID_ne_empty "frz" suffix) req
  have haged : Tracked { s with account := ⟨(submitOrder s.account.book (newID "frz" suffix) req).1,
    s.account.registry⟩ } := h.age hs.ages hs.rows h.registry
  have hnew : ∀ c ∈ (submitOrder s.account.book (newID "frz" suffix) req).2.toList, Sound c ∧ Funded _ c :=
    fun c hc ↦ hs.command c (Option.mem_toList.mp hc)
  exact { haged with submitted := List.forall_mem_append.mpr ⟨hnew, haged.submitted⟩ }

/-- Publishing events that stem from placed commands. -/
theorem publish (h : Tracked s) {results : List MatchResult}
    (horders : ∀ m ∈ results, ∀ event ∈ orderEvents m, ∃ c ∈ s.placed, EventOf c event)
    (htrades : ∀ m ∈ results, ∀ event ∈ tradeEvents schedule eventID m,
      ∃ buyer ∈ s.placed, ∃ seller ∈ s.placed, TradeBetween buyer seller event) :
    Tracked (s.publish schedule eventID results) := by
  refine { h with
    orders := List.forall_mem_append.mpr ⟨h.orders, fun event hevent ↦ ?_⟩
    trades := List.forall_mem_append.mpr ⟨h.trades, fun event hevent ↦ ?_⟩ }
  · obtain ⟨m, hm, hevent⟩ := List.mem_flatMap.mp hevent
    exact horders m hm event hevent
  · obtain ⟨m, hm, hevent⟩ := List.mem_flatMap.mp hevent
    exact htrades m hm event hevent

/-- The order events of a result, by the orders in it. -/
theorem eventOf_orderEvents (h : Tracked s) {m : MatchResult}
    (horder : ∀ o ∈ m.result.order, ∃ c ∈ s.placed, m.command.freezeID = c.freezeID ∧ Stems c o)
    (haffected : ∀ o ∈ m.result.affected, ∃ c ∈ s.placed, Stems c o) :
    ∀ event ∈ orderEvents m, ∃ c ∈ s.placed, EventOf c event := by
  intro event hevent
  rcases List.mem_append.mp hevent with hevent | hevent
  · obtain ⟨o, ho, rfl⟩ := Option.map_eq_some_iff.mp (Option.mem_toList.mp hevent)
    obtain ⟨c, hc, hfreeze, hstems⟩ := horder o ho
    exact ⟨c, hc, eventOf_buildOrderEvent hstems (h.placed c hc).1.quantity.le hfreeze⟩
  · obtain ⟨o, ho, rfl⟩ := List.mem_map.mp hevent
    obtain ⟨c, hc, hstems⟩ := haffected o ho
    exact ⟨c, hc, eventOf_buildPassiveOrderEvent hstems (h.placed c hc).1.quantity.le _ _⟩

variable {command : MatchCommand}

/-- A command is handed to the engine under a new order id. -/
theorem accept (h : Tracked s) (clock : ℕ → ℤ) (hc : command ∈ s.submitted)
    (hnew : command.orderID ∉ s.placed.map MatchCommand.orderID) (nowMillis : ℤ) :
    Tracked
      { s with
        engine := (s.engine.placeOrder clock (command.toOrder nowMillis)).1
        submitted := s.submitted.erase command
        placed := command :: s.placed } := by
  have hd := Engine.descent_placeOrder clock h.wellFormed (command.toOrder nowMillis)
  have hfresh : command.orderID ∉ s.engine.restingOrders.map Order.orderID := by
    intro hmem
    obtain ⟨o, ho, hid⟩ := List.mem_map.mp hmem
    obtain ⟨-, -, c, hplaced, now, hstems⟩ := h.resting o ho
    exact hnew (List.mem_map.mpr ⟨c, hplaced, hstems.terms.orderID.symm.trans hid⟩)
  refine ⟨hd.wellFormed, hd.orderIDs hfresh h.restingIDs, fun o ho ↦ ?_, ?_, fun c hmem ↦ ?_,
    List.forall_mem_cons.mpr ⟨h.submitted command hc, h.placed⟩, fun id state hstate ↦ ?_, fun event hevent ↦ ?_,
    fun event hevent ↦ ?_⟩
  · rcases hd.resting o ho with ⟨hvalid, hderives⟩ | ⟨maker, hmaker, hderives⟩
    · obtain ⟨hid, hprice, -⟩ := Order.validate_eq_none hvalid
      refine ⟨ne_of_eq_of_ne hderives.terms.orderID hid, lt_of_lt_of_eq hprice hderives.terms.price.symm,
        command, List.mem_cons_self, nowMillis, hderives⟩
    · obtain ⟨hid, hprice, c, hplaced, hstems⟩ := h.resting maker hmaker
      exact ⟨ne_of_eq_of_ne hderives.terms.orderID hid, lt_of_lt_of_eq hprice hderives.terms.price.symm,
        c, List.mem_cons_of_mem _ hplaced, hstems.trans hderives⟩
  · exact List.nodup_cons.mpr ⟨hnew, h.placedIDs⟩
  · exact h.submitted c (List.mem_of_mem_erase hmem)
  · obtain ⟨c, hplaced, hrest⟩ := h.registry id state hstate
    exact ⟨c, List.mem_cons_of_mem _ hplaced, hrest⟩
  · obtain ⟨c, hplaced, hrest⟩ := h.orders event hevent
    exact ⟨c, List.mem_cons_of_mem _ hplaced, hrest⟩
  · obtain ⟨buyer, hbuyer, seller, hseller, hrest⟩ := h.trades event hevent
    exact ⟨buyer, List.mem_cons_of_mem _ hbuyer, seller, List.mem_cons_of_mem _ hseller, hrest⟩

/-- The trades of a new order are between it and placed ones. -/
theorem tradeBetween_of_placed (h : Tracked s) (hc : command ∈ s.submitted)
    (hnew : command.orderID ∉ s.placed.map MatchCommand.orderID) {nowMillis : ℤ} {trade : Trade}
    (htrade : trade ∈ (s.engine.placeOrder clock (command.toOrder nowMillis)).2.1.trades) (epochID : ℕ) (id : String) :
    ∃ buyer ∈ command :: s.placed, ∃ seller ∈ command :: s.placed, TradeBetween buyer seller
      (buildTradeEvent .free id command.traceID command.collateralAsset
        { trade with epochID := epochID }) := by
  have hd := Engine.descent_placeOrder clock h.wellFormed (command.toOrder nowMillis)
  obtain ⟨hvalid, maker, hmaker, hside, ht⟩ := hd.trades trade htrade
  obtain ⟨hmakerID, hprice, c, hplaced, hstems⟩ := h.resting maker hmaker
  have hid : c.orderID = maker.orderID := by
    obtain ⟨now, hstems⟩ := hstems
    exact hstems.terms.orderID.symm
  have hdiffer : command.orderID ≠ c.orderID := fun heq ↦ hnew (heq ▸ List.mem_map_of_mem hplaced)
  have ht' : TradesWith (command.toOrder nowMillis) maker { trade with epochID := epochID } := { ht with }
  obtain ⟨buyer, seller, hparties, hbetween⟩ := tradeBetween_buildTradeEvent ht'
    ⟨nowMillis, .refl _⟩ hstems hside (Order.validate_eq_none hvalid).1 (ne_of_eq_of_ne hid hmakerID)
    hdiffer hprice id command.traceID
  rw [← (h.submitted command hc).1.collateralAsset] at hbetween
  have hplaced' : c ∈ command :: s.placed := List.mem_cons_of_mem _ hplaced
  rcases hparties with ⟨rfl, rfl⟩ | ⟨rfl, rfl⟩
  · exact ⟨_, List.mem_cons_self, _, hplaced', hbetween⟩
  · exact ⟨_, hplaced', _, List.mem_cons_self, hbetween⟩

theorem place (h : Tracked s) {nowMillis : ℤ} {epochID : ℕ}
    (hnew : command.orderID ∉ s.placed.map MatchCommand.orderID)
    (hstep : s.step .free eventID clock (.place command nowMillis epochID) = some s') : Tracked s' := by
  simp only [Exchange.step] at hstep
  split_ifs at hstep with hc
  obtain rfl := Option.some_inj.mp hstep
  have haccepted := h.accept clock hc hnew nowMillis
  have hd := Engine.descent_placeOrder clock h.wellFormed (command.toOrder nowMillis)
  refine haccepted.publish (fun m hm ↦ ?_) fun m hm event hevent ↦ ?_
  · obtain rfl := List.mem_singleton.mp hm
    refine haccepted.eventOf_orderEvents (fun o ho ↦ ?_) fun o ho ↦ ?_
    · exact ⟨command, List.mem_cons_self, rfl, nowMillis, hd.incoming o ho⟩
    · obtain ⟨maker, hmaker, hderives⟩ := hd.affected o ho
      obtain ⟨-, -, c, hc', hstems⟩ := h.resting maker hmaker
      exact ⟨c, List.mem_cons_of_mem _ hc', hstems.trans hderives⟩
  · obtain rfl := List.mem_singleton.mp hm
    obtain ⟨t, ht, rfl⟩ := List.mem_map.mp hevent
    obtain ⟨trade, htrade, rfl⟩ := List.mem_map.mp ht
    exact h.tradeBetween_of_placed hc hnew htrade epochID _

theorem cancel (h : Tracked s) {nowMillis : ℤ}
    (hstep : s.step schedule eventID clock (.cancel command nowMillis) = some s') : Tracked s' := by
  simp only [Exchange.step] at hstep
  split_ifs at hstep with hc
  obtain rfl := Option.some_inj.mp hstep
  obtain ⟨hresults, hsub, hwf⟩ := Engine.descent_handleCancel h.wellFormed h.restingIDs
    (cancelCommand command) nowMillis
  have hstems : ∀ {o}, (∃ maker ∈ s.engine.restingOrders, Derives maker o) →
      ∃ c ∈ s.placed, Stems c o := by
    rintro o ⟨maker, hmaker, hderives⟩
    obtain ⟨-, -, c, hplaced, hstems⟩ := h.resting maker hmaker
    exact ⟨c, hplaced, hstems.trans hderives⟩
  have hids : ((s.engine.handleCancel (cancelCommand command) nowMillis).1.restingOrders.map
      Order.orderID).Nodup := by
    obtain ⟨l, hperm, hsublist⟩ := hsub
    exact (hperm.map _).nodup_iff.mp (h.restingIDs.sublist (hsublist.map _))
  have hcancelled : Tracked
      { s with engine := (s.engine.handleCancel (cancelCommand command) nowMillis).1 } :=
    { h with wellFormed := hwf, restingIDs := hids, resting := fun o ho ↦ h.resting o (hsub.subset ho) }
  refine hcancelled.publish (fun m hm ↦ ?_) fun m hm event hevent ↦ ?_
  · obtain ⟨hcommand, -, horder, haffected⟩ := hresults m hm
    refine hcancelled.eventOf_orderEvents (fun o ho ↦ ?_) fun o ho ↦ hstems (haffected o ho)
    -- the cancelled order is that of the command
    obtain ⟨hid, hmaker⟩ := horder o ho
    obtain ⟨c, hplaced, now, hderives⟩ := hstems hmaker
    have hsame : c = command := h.unique hplaced hc (hderives.terms.orderID.symm.trans hid)
    refine ⟨command, hc, by rw [hcommand]; rfl, now, hsame ▸ hderives⟩
  · obtain ⟨-, htrades, -⟩ := hresults m hm
    rw [tradeEvents, htrades] at hevent
    exact absurd hevent List.not_mem_nil

theorem deliverOrder (h : Tracked s) {rollupFrozen : Option Bool}
    (hstep : s.step schedule eventID clock (.deliverOrder rollupFrozen row) = some s') : Tracked s' := by
  simp only [Exchange.step] at hstep
  split at hstep
  · exact absurd hstep (by simp)
  · next event orders heq =>
    split_ifs at hstep with hrow
    obtain rfl := Option.some_inj.mp hstep
    obtain ⟨c, hc, hevent⟩ := h.orders event (by simp [heq])
    have hknown : ∀ state, (∃ c' ∈ s.placed, c'.orderID = event.orderID ∧
        Processor.Fits (terms c') state) → Processor.Fits (terms c) state := by
      rintro state ⟨c', hc', hid, hfits⟩
      rwa [h.unique hc' hc (hid.trans hevent.orderID)] at hfits
    have hshifts := s.account.shifts_handleOrderEvent rollupFrozen row event
    have hregisters : Processor.Registers (terms c) event.orderID s.account.registry
        (s.account.handleOrderEvent rollupFrozen row event).1.registry :=
      Processor.registers_handleOrderEvent hevent.fits (side_terms_ne c)
        (fun old hold ↦ hknown old (h.registry event.orderID old hold))
        fun state hstate ↦ hknown state (hrow state hstate)
    have haged := h.age hshifts.ages hshifts.rows
      (h.registry_of_registers hc hevent.orderID.symm hregisters)
    exact { haged with orders := fun e he ↦ h.orders e (by simp [heq, he]) }

end Tracked

end FunnyOption.PostTrade
