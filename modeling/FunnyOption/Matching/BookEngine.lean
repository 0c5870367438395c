import FunnyOption.Foundation.Run
import FunnyOption.Matching.Walk

/-!
# Book engines and the ids of trades

A `BookEngine` of the pipeline owns one engine and handles the commands of one book. A trade carries
an id made of the key of its book and of the engine's own counter, `localSeq`.

A history of a book engine is a sequence of commands and restarts. After a restart there is a new
engine, and the orders that were resting are restored into it. The global counter of trades is
restored too, but `localSeq` starts again from zero: the ids of the first life are given out again.
`trade_ids_unique` says that this is the only way in which an id comes back.
-/

open Foundation

namespace FunnyOption.Matching

/-! ## Commands -/

/-- `ActionFlag`. -/
inductive Action where
  | place
  | cancel
  deriving DecidableEq, Repr

/-- `CancelReasonFlag`. -/
inductive CancelReasonFlag where
  | marketClosed
  | other
  deriving DecidableEq, Repr

/-- `CancelReasonFlag.ToModel`. -/
def CancelReasonFlag.toModel : CancelReasonFlag → CancelReason
  | .marketClosed => .marketClosed
  | .other => .none

/-- `MatchCommand`. -/
structure MatchCommand where
  userID : ℤ
  marketID : ℤ
  price : ℤ
  quantity : ℤ
  freezeAmount : ℤ
  requestedAtMillis : ℤ
  orderID : String
  clientOrderID : String
  outcome : String
  bookKey : String
  commandID : String
  traceID : String
  freezeID : String
  freezeAsset : String
  collateralAsset : String
  action : Action
  side : OrderSide
  type : OrderType
  timeInForce : TimeInForce
  stp : STPStrategy
  cancelReason : CancelReasonFlag
  deriving DecidableEq, Repr

/-- `ToOrder`. -/
def MatchCommand.toOrder (c : MatchCommand) (nowMillis : ℤ) : Order where
  orderID := c.orderID
  clientOrderID := c.clientOrderID
  userID := c.userID
  marketID := c.marketID
  outcome := c.outcome
  side := c.side
  type := c.type
  timeInForce := c.timeInForce
  stpStrategy := c.stp
  price := c.price
  quantity := c.quantity
  filledQuantity := 0
  status := .unset
  cancelReason := .unset
  createdAtMillis := c.requestedAtMillis
  updatedAtMillis := nowMillis

/-- Nothing is filled of an order that comes in. -/
theorem MatchCommand.remainingQuantity_opened (c : MatchCommand) (nowMillis : ℤ) (h : 0 < c.quantity) :
    (c.toOrder nowMillis).opened.remainingQuantity = c.quantity := by
  simp only [Order.remainingQuantity, Order.opened, MatchCommand.toOrder]
  rw [if_neg (by omega), sub_zero]

/-- The order by which `handleCancel` names the order to cancel. -/
def MatchCommand.toCandidate (c : MatchCommand) : Order where
  orderID := c.orderID
  clientOrderID := ""
  userID := 0
  marketID := c.marketID
  outcome := c.outcome
  side := c.side
  type := .limit
  timeInForce := .gtc
  stpStrategy := .none
  price := c.price
  quantity := 0
  filledQuantity := 0
  status := .unset
  cancelReason := .unset
  createdAtMillis := 0
  updatedAtMillis := 0

/-- `MatchResult`. -/
structure MatchResult where
  command : MatchCommand
  result : Result
  rejected : Bool
  epochID : ℕ
  deriving DecidableEq, Repr

/-! ## The book engine -/

namespace Engine

variable (clock : ℕ → ℤ) (e : Engine)

/-- `handlePlace`, on the engine of a book engine. -/
def handlePlace (cmd : MatchCommand) (nowMillis : ℤ) (epochID : ℕ) : Engine × List MatchResult :=
  let placed := e.placeOrder clock (cmd.toOrder nowMillis)
  let result := placed.2.1
  (placed.1, [⟨cmd, { result with trades := result.trades.map fun trade ↦ { trade with epochID := epochID } },
    placed.2.2.isSome, epochID⟩])

/-- `handleCancel`: a result for each cancelled order and one for each book. -/
def handleCancel (cmd : MatchCommand) (nowMillis : ℤ) : Engine × List MatchResult :=
  let cancelled := e.cancelOrders [cmd.toCandidate] cmd.cancelReason.toModel nowMillis
  (cancelled.1, cancelled.2.1.orders.map (fun order ↦ ⟨cmd, ⟨some order, [order], [], .zero⟩, false, 0⟩) ++
      cancelled.2.1.books.map (fun book ↦ ⟨cmd, ⟨none, [], [], book⟩, false, 0⟩))

/-- The body of the loop of `Run`: one command. -/
def handle (cmd : MatchCommand) (nowMillis : ℤ) (epochID : ℕ) : Engine × List MatchResult :=
  match cmd.action with
  | .place => e.handlePlace clock cmd nowMillis epochID
  | .cancel => e.handleCancel cmd nowMillis

/-- All orders that rest in the engine. -/
def restingOrders : List Order := e.books.entries.flatMap fun entry ↦ entry.2.orders

/-- `Restore` of the supervisor, for the orders of one book engine: the engine stays as it is from
the first error on. -/
def restore (e : Engine) : List Order → Engine
  | [] => e
  | order :: rest =>
    match e.restoreOrder order with
    | (e, none) => e.restore rest
    | (e, some _) => e

end Engine

/-! ## Histories -/

/-- A book engine and all trades it has emitted in its lives. -/
structure BookHistory where
  engine : Engine
  emitted : List Trade

/-- What happens to a book engine. -/
inductive BookEvent where
  /-- A command is handled. -/
  | command (cmd : MatchCommand) (nowMillis : ℤ) (epochID : ℕ)
  /-- The engines of other books have moved the shared counter. -/
  | others (trades : ℕ)
  /-- The process restarts: `sequence` and `orders` come from the database. -/
  | restart (sequence : ℕ) (orders : List Order)

/-- One event. The orders that a restart restores are those still resting, in any order. -/
def BookHistory.step (clock : ℕ → ℤ) (h : BookHistory) : BookEvent → Option BookHistory
  | .command cmd nowMillis epochID =>
    let handled := h.engine.handle clock cmd nowMillis epochID
    some ⟨handled.1, h.emitted ++ handled.2.flatMap fun r ↦ r.result.trades⟩
  | .others trades => some { h with engine := { h.engine with sequence := h.engine.sequence + trades } }
  | .restart sequence orders =>
    if orders.Perm h.engine.restingOrders then
      some { h with engine := (Engine.new sequence).restore orders }
    else none

/-- A book engine before its first command. -/
def BookHistory.start (sequence : ℕ) : BookHistory := ⟨.new sequence, []⟩

/-- No two trades of one book carry the same id. -/
def BookHistory.TradeIDsUnique (h : BookHistory) : Prop :=
  h.emitted.Pairwise fun trade trade' ↦
    trade.bookKey = trade'.bookKey → trade.tradeID ≠ trade'.tradeID

instance (h : BookHistory) : Decidable h.TradeIDsUnique := inferInstanceAs (Decidable (h.emitted.Pairwise _))

/-- A restart that loses no count: the engine has not traded yet. -/
def RestartsUncounted (h : BookHistory) : BookEvent → Prop
  | .restart _ _ => h.engine.localSeq = 0
  | _ => True

/-! ## Numbered trades -/

/-- Trades whose ids are numbered on from `n`. -/
def Numbered : ℕ → List Trade → Prop
  | _, [] => True
  | n, trade :: trades =>
    trade.tradeID = deterministicTradeID trade.bookKey (n + 1) ∧ Numbered (n + 1) trades

theorem numbered_append {n : ℕ} {trades trades' : List Trade} :
    Numbered n (trades ++ trades') ↔ Numbered n trades ∧ Numbered (n + trades.length) trades' := by
  induction trades generalizing n with
  | nil => simp [Numbered]
  | cons trade trades ih =>
    simp only [List.cons_append, Numbered, ih, List.length_cons, and_assoc]
    rw [show n + 1 + trades.length = n + (trades.length + 1) by omega]

variable {trades : List Trade}

theorem Numbered.map {n : ℕ} (h : Numbered n trades) (epochID : ℕ) :
    Numbered n (trades.map fun trade ↦ { trade with epochID := epochID }) := by
  induction trades generalizing n with
  | nil => trivial
  | cons trade trades ih => exact ⟨h.1, ih h.2⟩

theorem Numbered.exists_of_mem {n : ℕ} (h : Numbered n trades) {trade : Trade} (hmem : trade ∈ trades) :
    ∃ m > n, trade.tradeID = deterministicTradeID trade.bookKey m := by
  induction trades generalizing n with
  | nil => exact absurd hmem (by simp)
  | cons head trades ih =>
    rcases List.mem_cons.mp hmem with rfl | hmem
    · exact ⟨n + 1, n.lt_succ_self, h.1⟩
    · obtain ⟨m, hm, hid⟩ := ih h.2 hmem
      exact ⟨m, by omega, hid⟩

/-- Numbered trades of one book have different ids. -/
theorem Numbered.pairwise {n : ℕ} (h : Numbered n trades) :
    trades.Pairwise fun trade trade' ↦
      trade.bookKey = trade'.bookKey → trade.tradeID ≠ trade'.tradeID := by
  induction trades generalizing n with
  | nil => exact .nil
  | cons trade trades ih =>
    refine List.pairwise_cons.mpr ⟨fun trade' hmem hkey heq ↦ ?_, ih h.2⟩
    obtain ⟨m, hm, hid⟩ := h.2.exists_of_mem hmem
    rw [h.1, hid, hkey] at heq
    have hnum := deterministicTradeID_injective _ heq
    omega

/-! ## The count of an engine -/

/-- The trades of a loop state are numbered on from `n`, and `localSeq` counts them. -/
structure Counted (n : ℕ) (sw : Sweep) : Prop where
  numbered : Numbered n sw.trades
  localSeq : sw.localSeq = n + sw.trades.length

variable {clock : ℕ → ℤ} {e : Engine} {order : Order} {book : OrderBookDirect}

theorem Counted.met {n : ℕ} {bookKey : String} {sw sw' : Sweep} {maker : Order} {stays : Option Order}
    (h : Counted n sw) (hmet : Sweep.Met clock bookKey sw maker sw' stays) : Counted n sw' := by
  have htrade : ∀ qty, Counted n (sw.recordTrade clock bookKey maker qty) := by
    intro qty
    refine ⟨numbered_append.mpr ⟨h.numbered, ?_, trivial⟩, ?_⟩
    · simp only [Sweep.tradeWith, h.localSeq]
    · simp only [Sweep.recordTrade, h.localSeq, List.length_append, List.length_singleton]
      omega
  cases hmet with
  | skip | stop | drop | both | pass => exact ⟨h.numbered, h.localSeq⟩
  | trade qty => exact htrade qty
  | fill qty => exact ⟨(htrade qty).numbered, (htrade qty).localSeq⟩

theorem Engine.counted_sweepStart (e : Engine) (order : Order) : Counted e.localSeq (e.sweepStart order) :=
  ⟨trivial, rfl⟩

theorem Engine.counted_matchOrder (clock : ℕ → ℤ) (e : Engine) (order : Order) (book : OrderBookDirect) :
    Counted e.localSeq (e.matchOrder clock order book).1 := by
  simp only [Engine.matchOrder]
  split_ifs
  · exact e.counted_sweepStart order
  · exact Sweep.sweepBuckets_preserves (fun _ _ _ _ h hmet ↦ h.met hmet) _ _
      (e.counted_sweepStart order)

theorem Engine.counted_processLimitOrder (clock : ℕ → ℤ) (e : Engine) (order : Order) (book : OrderBookDirect) :
    Counted e.localSeq (e.processLimitOrder clock order book).1 := by
  have hmatch := counted_matchOrder clock e order book
  simp only [Engine.processLimitOrder]
  split
  · rw [Engine.processPostOnly]
    split_ifs
    · exact e.counted_sweepStart _
    · exact e.counted_sweepStart _
  · rw [Engine.processFOK]
    split_ifs
    · exact e.counted_sweepStart _
    · exact e.counted_sweepStart _
    · exact hmatch
  · -- what follows the match changes the order only
    simp only [Engine.processGTCOrIOC]
    split_ifs
    · exact hmatch
    · exact hmatch
    · exact ⟨hmatch.numbered, hmatch.localSeq⟩
    · exact ⟨hmatch.numbered, hmatch.localSeq⟩
    · exact ⟨hmatch.numbered, hmatch.localSeq⟩

/-- The trades of a placed order are numbered on from the engine's count. -/
theorem Engine.placeOrder_counts (clock : ℕ → ℤ) (e : Engine) (order : Order) :
    Numbered e.localSeq (e.placeOrder clock order).2.1.trades ∧ (e.placeOrder clock order).1.localSeq =
        e.localSeq + (e.placeOrder clock order).2.1.trades.length := by
  rw [Engine.placeOrder]
  split
  · exact ⟨trivial, rfl⟩
  · split_ifs
    · exact ⟨trivial, rfl⟩
    · split
      · exact ⟨trivial, rfl⟩
      · have h := counted_processLimitOrder clock e order.opened
          (e.getOrCreateBook order.opened.bookKey)
        exact ⟨h.numbered, h.localSeq⟩

theorem Engine.cancelOrders_localSeq (e : Engine) (orders : List Order) (reason : CancelReason) (nowMillis : ℤ) :
    (e.cancelOrders orders reason nowMillis).1.localSeq = e.localSeq := by
  have hcancel : (orders.foldl (cancelOne reason nowMillis) ⟨e, [], []⟩).engine.localSeq =
      e.localSeq := by
    refine List.foldlRecOn (motive := fun c : Cancelling ↦ c.engine.localSeq = e.localSeq)
      orders (cancelOne reason nowMillis) rfl ?_
    intro c hc candidate _
    simp only [cancelOne]
    split
    · exact hc
    · split
      · exact hc
      · split_ifs <;> exact hc
  simp only [cancelOrders]
  split_ifs
  · rfl
  · rfl
  · refine List.foldlRecOn (motive := fun c : Engine × List BookSnapshot ↦ c.1.localSeq = e.localSeq)
      _ closeBook (b := (_, [])) hcancel ?_
    intro c hc key _
    simp only [closeBook]
    split
    · exact hc
    · split_ifs <;> exact hc

theorem Engine.restore_localSeq (e : Engine) (orders : List Order) : (e.restore orders).localSeq = e.localSeq := by
  have hone : ∀ (e : Engine) (order : Order), (e.restoreOrder order).1.localSeq = e.localSeq := by
    intro e order
    simp only [restoreOrder]
    split
    · rfl
    · split_ifs <;> rfl
  induction orders generalizing e with
  | nil => rfl
  | cons order rest ih =>
    rw [restore]
    have hfirst := hone e order
    split
    · next e' he =>
      rw [he] at hfirst
      rw [ih, hfirst]
    · next e' error he =>
      rw [he] at hfirst
      exact hfirst

/-- The trades of a handled command are numbered on from the engine's count. -/
theorem Engine.handle_counts (clock : ℕ → ℤ) (e : Engine) (cmd : MatchCommand) (nowMillis : ℤ) (epochID : ℕ) :
    Numbered e.localSeq ((e.handle clock cmd nowMillis epochID).2.flatMap fun r ↦ r.result.trades) ∧
      (e.handle clock cmd nowMillis epochID).1.localSeq = e.localSeq +
        ((e.handle clock cmd nowMillis epochID).2.flatMap fun r ↦ r.result.trades).length := by
  rw [handle]
  split
  · obtain ⟨hnum, hseq⟩ := e.placeOrder_counts clock (cmd.toOrder nowMillis)
    simp only [handlePlace, List.flatMap_cons, List.flatMap_nil, List.append_nil, List.length_map]
    exact ⟨hnum.map epochID, hseq⟩
  · -- a cancellation makes no trades
    have hnone : ((e.handleCancel cmd nowMillis).2.flatMap fun r ↦ r.result.trades) = [] := by
      simp [handleCancel, List.flatMap_map]
    rw [hnone]
    exact ⟨trivial, e.cancelOrders_localSeq _ _ _⟩

/-! ## Uniqueness -/

/-- All trades ever emitted are numbered, and the engine counts them all. -/
structure BookHistory.Numbered (h : BookHistory) : Prop where
  emitted : Matching.Numbered 0 h.emitted
  localSeq : h.engine.localSeq = h.emitted.length

theorem BookHistory.Numbered.step {h h' : BookHistory} {event : BookEvent} (hnum : h.Numbered)
    (hrestart : RestartsUncounted h event) (hstep : h.step clock event = some h') : h'.Numbered := by
  cases event with
  | command cmd nowMillis epochID =>
    obtain rfl : _ = h' := Option.some_inj.mp hstep
    obtain ⟨htrades, hseq⟩ := h.engine.handle_counts clock cmd nowMillis epochID
    refine ⟨numbered_append.mpr ⟨hnum.emitted, ?_⟩, ?_⟩
    · rwa [Nat.zero_add, ← hnum.localSeq]
    · rw [List.length_append, ← hnum.localSeq, hseq]
  | others trades =>
    obtain rfl : _ = h' := Option.some_inj.mp hstep
    exact ⟨hnum.emitted, hnum.localSeq⟩
  | restart sequence orders =>
    simp only [BookHistory.step] at hstep
    split_ifs at hstep
    obtain rfl := Option.some_inj.mp hstep
    -- nothing was emitted yet, so a count of zero is right
    have hzero : h.emitted.length = 0 := hnum.localSeq.symm.trans hrestart
    refine ⟨hnum.emitted, ?_⟩
    rw [Engine.restore_localSeq, hzero]
    rfl

/-- **Trade ids stay unique as long as no restart loses a count.** -/
theorem trade_ids_unique (clock : ℕ → ℤ) (sequence : ℕ) (events : List BookEvent)
    (hrestart : ∀ h event h', Takes (BookHistory.step clock) (.start sequence) events h event h' →
      RestartsUncounted h event) :
    ∀ h, Visits (BookHistory.step clock) (.start sequence) events h → h.TradeIDsUnique := by
  intro h hvisit
  have hstart : (BookHistory.start sequence).Numbered := ⟨trivial, rfl⟩
  have hnum : h.Numbered := by
    refine visits_induction hstart (fun u event u' htake hu ↦ ?_) h hvisit
    exact hu.step (hrestart u event u' htake) htake.step_eq
  exact hnum.emitted.pairwise

/-! ### A book with one resting order -/

/-- A command for one contract or more at the price 50 in the book `1:YES`. -/
def sampleCommand (orderID : String) (userID : ℤ) (side : OrderSide) (quantity : ℤ) : MatchCommand :=
  ⟨userID, 1, 50, quantity, 50 * quantity, 0, orderID, "", "YES", "1:YES", "", "", "frz_" ++ orderID, "",
    "USDT", .place, side, .limit, .gtc, .none, .other⟩

/-- Restarting before the first trade is harmless. -/
def earlyRestart : List BookEvent :=
  [.restart 0 [], .command (sampleCommand "a" 1 .sell 2) 0 0, .command (sampleCommand "b" 2 .buy 1) 0 0]

theorem trade_ids_unique_after_early_restart :
    Along (BookHistory.step fun _ ↦ 0) RestartsUncounted (.start 0) earlyRestart ∧
      ∀ h, Visits (BookHistory.step fun _ ↦ 0) (.start 0) earlyRestart h → h.TradeIDsUnique := by
  have huncounted : Along (BookHistory.step fun _ ↦ 0) RestartsUncounted (.start 0) earlyRestart :=
    ⟨rfl, fun _ _ ↦ ⟨trivial, fun _ _ ↦ ⟨trivial, fun _ _ ↦ trivial⟩⟩⟩
  exact ⟨huncounted, trade_ids_unique _ 0 _ fun h event h' htake ↦ huncounted.of_takes htake⟩

/-- An order for two trades once, rests through a restart, and trades again: both trades are number
one of the book. -/
theorem trade_id_reused_after_restart : ∃ h, Visits (BookHistory.step fun _ ↦ 0) (.start 0)
        [.command (sampleCommand "a" 1 .sell 2) 0 0, .command (sampleCommand "b" 2 .buy 1) 0 0,
          .restart 1 [⟨"a", "", 1, 1, "YES", .sell, .limit, .gtc, .none, 50, 2, 1, .partiallyFilled, .unset, 0, 0⟩],
          .command (sampleCommand "c" 3 .buy 1) 0 0] h ∧ ¬ h.TradeIDsUnique :=
  ⟨_, visits_of_exec rfl, by decide⟩

end FunnyOption.Matching
