import FunnyOption.Foundation.Run
import FunnyOption.Matching.Liquidity
import FunnyOption.Rollup.Replay

/-!
# The journal of the matching engine

For every result of the engine, `buildRollupEntries` makes the entries that describe it, and the store
appends those whose entry type, source type and source reference are new. This file joins the engine,
the builder and the journal into one machine, `Recorder`, whose steps are the commands of a book
engine.

A result of a placed order is written as: accepted; cancelled, if it ended so; the resting orders that
were cancelled; the trades. An order that trades and is then cancelled is therefore cancelled in the
journal before it trades, and the replay does not know it any more when its trades come.
-/

open Foundation

namespace FunnyOption.Rollup

open Matching

/-! ## Building entries -/

/-- `reserveAsset` of the matching service. -/
def commandReserveAsset (command : MatchCommand) : String :=
  if trimSpace command.freezeAsset ≠ "" then command.freezeAsset else command.collateralAsset

/-- `cancellationReserveAsset`. -/
def cancellationReserveAsset (order : Order) : String :=
  match order.side with
  | .sell => "POSITION:" ++ toString order.marketID ++ ":" ++ toUpper (trimSpace order.outcome)
  | .buy => Assets.defaultCollateralAsset

/-- The entry for an accepted order. -/
def acceptanceEntry (command : MatchCommand) (order : Order) : JournalAppend where
  sourceType := .matchingOrder
  sourceRef := order.orderID
  occurredAtMillis := command.requestedAtMillis
  payload := .orderAccepted
    { orderID := order.orderID
      commandID := command.commandID
      clientOrderID := command.clientOrderID
      accountID := command.userID
      marketID := command.marketID
      outcome := command.outcome
      side := command.side.text
      orderType := command.type.text
      timeInForce := command.timeInForce.text
      collateralAsset := command.collateralAsset
      reserveAsset := commandReserveAsset command
      reserveAmount := command.freezeAmount
      price := command.price
      quantity := command.quantity
      requestedAtMillis := command.requestedAtMillis }

/-- `cancellationEntry`. -/
def cancellationEntry (order : Order) : JournalAppend where
  sourceType := .matchingOrder
  sourceRef := order.orderID
  occurredAtMillis := order.updatedAtMillis
  payload := .orderCancelled
    { orderID := order.orderID
      accountID := order.userID
      marketID := order.marketID
      outcome := order.outcome
      side := order.side.text
      reserveAsset := cancellationReserveAsset order
      price := order.price
      remainingQuantity := order.remainingQuantity
      cancelReason := order.cancelReason.text }

/-- The payload of the entry for a trade. -/
def tradePayload (command : MatchCommand) (trade : Trade) : TradeMatchedPayload where
  tradeID := "trd_" ++ toString trade.sequence
  sequence := trade.sequence
  collateralAsset := command.collateralAsset
  marketID := trade.marketID
  outcome := trade.outcome
  price := trade.price
  quantity := trade.quantity
  takerOrderID := trade.takerOrderID
  makerOrderID := trade.makerOrderID
  takerAccountID := trade.takerUserID
  makerAccountID := trade.makerUserID
  takerSide := trade.takerSide.text
  makerSide := trade.makerSide.text
  occurredAtMillis := trade.matchedAtMillis

/-- The entry for a trade. -/
def tradeEntry (command : MatchCommand) (trade : Trade) : JournalAppend where
  sourceType := .matchingTrade
  sourceRef := toString trade.sequence
  occurredAtMillis := trade.matchedAtMillis
  payload := .tradeMatched (tradePayload command trade)

/-- The entries for the order of a result. -/
def orderEntries (command : MatchCommand) (order : Order) : List JournalAppend :=
  if order.status = .rejected then []
  else acceptanceEntry command order ::
    if order.status = .cancelled then [cancellationEntry order] else []

/-- The entries for the affected orders of a result. -/
def affectedEntries (affected : List Order) : List JournalAppend :=
  (affected.filter fun order ↦ order.status = .cancelled).map cancellationEntry

/-- `buildRollupEntries`. -/
def buildRollupEntries (command : MatchCommand) (result : Result) : List JournalAppend :=
  (result.order.map (orderEntries command)).getD [] ++ affectedEntries result.affected ++
    result.trades.map (tradeEntry command)

variable {entry : JournalAppend}

/-- What an entry of a result is about. -/
theorem cases_buildRollupEntries {command : MatchCommand} {result : Result}
    (h : entry ∈ buildRollupEntries command result) :
    (∃ order ∈ result.order, order.status ≠ .rejected ∧
        (entry = acceptanceEntry command order ∨ entry = cancellationEntry order)) ∨
      (∃ order ∈ result.affected, entry = cancellationEntry order) ∨
        ∃ trade ∈ result.trades, entry = tradeEntry command trade := by
  rw [buildRollupEntries, List.mem_append, List.mem_append] at h
  rcases h with (horder | haffected) | htrade
  · cases horderOpt : result.order with
    | none => rw [horderOpt] at horder; exact absurd horder List.not_mem_nil
    | some order =>
      rw [horderOpt, Option.map_some, Option.getD_some, orderEntries] at horder
      split_ifs at horder with hrejected hcancelled
      · exact absurd horder List.not_mem_nil
      · refine .inl ⟨order, rfl, hrejected, (List.mem_cons.mp horder).imp_right ?_⟩
        exact List.mem_singleton.mp
      · exact .inl ⟨order, rfl, hrejected, .inl (List.mem_singleton.mp horder)⟩
  · obtain ⟨order, horder, rfl⟩ := List.mem_map.mp haffected
    exact .inr (.inl ⟨order, List.mem_of_mem_filter horder, rfl⟩)
  · obtain ⟨trade, hmem, rfl⟩ := List.mem_map.mp htrade
    exact .inr (.inr ⟨trade, hmem, rfl⟩)

/-! ## Appending -/

/-- The unique key of the journal. -/
abbrev EntryKey := EntryType × SourceType × String

/-- The unique key of an entry; the reference is stored trimmed. -/
def JournalAppend.key (entry : JournalAppend) : EntryKey :=
  (entry.payload.entryType, entry.sourceType, trimSpace entry.sourceRef)

/-- `appendEntry`: an entry whose key is known is dropped. -/
def appendEntry (journal : List JournalAppend) (entry : JournalAppend) : List JournalAppend :=
  if entry.key ∈ journal.map JournalAppend.key then journal else journal ++ [entry]

/-- `AppendEntriesTx`. -/
def appendEntries (journal entries : List JournalAppend) : List JournalAppend := entries.foldl appendEntry journal

theorem appendEntry_of_known {journal : List JournalAppend} (h : entry.key ∈ journal.map JournalAppend.key) :
    appendEntry journal entry = journal :=
  if_pos h

theorem appendEntry_of_fresh {journal : List JournalAppend} (h : entry.key ∉ journal.map JournalAppend.key) :
    appendEntry journal entry = journal ++ [entry] :=
  if_neg h

/-- An entry that comes twice is appended once. -/
theorem appendEntry_appendEntry (journal : List JournalAppend) (entry : JournalAppend) :
    appendEntry (appendEntry journal entry) entry = appendEntry journal entry := by
  refine appendEntry_of_known ?_
  rw [appendEntry]
  split_ifs with h
  · exact h
  · simp

theorem appendEntries_append (journal entries entries' : List JournalAppend) :
    appendEntries journal (entries ++ entries') = appendEntries (appendEntries journal entries) entries' :=
  List.foldl_append

theorem appendEntries_cons (journal entries : List JournalAppend) (entry : JournalAppend) :
    appendEntries journal (entry :: entries) = appendEntries (appendEntry journal entry) entries :=
  rfl

@[simp]
theorem appendEntries_nil (journal : List JournalAppend) : appendEntries journal [] = journal := rfl

/-- The key of the acceptance of an order. -/
def acceptedKey (orderID : String) : EntryKey := (.orderAccepted, .matchingOrder, trimSpace orderID)

/-- The key of the cancellation of an order. -/
def cancelledKey (orderID : String) : EntryKey := (.orderCancelled, .matchingOrder, trimSpace orderID)

/-- The key of a trade. -/
def tradeKey (sequence : ℕ) : EntryKey := (.tradeMatched, .matchingTrade, toString sequence)

@[simp]
theorem key_acceptanceEntry (command : MatchCommand) (order : Order) :
    (acceptanceEntry command order).key = acceptedKey order.orderID := rfl

@[simp]
theorem key_cancellationEntry (order : Order) : (cancellationEntry order).key = cancelledKey order.orderID := rfl

@[simp]
theorem key_tradeEntry (command : MatchCommand) (trade : Trade) :
    (tradeEntry command trade).key = tradeKey trade.sequence := by
  rw [JournalAppend.key, tradeKey, tradeEntry, trimSpace_toString]
  rfl

theorem tradeKey_injective : Function.Injective tradeKey := by
  intro m n h
  exact toString_injective (Prod.ext_iff.mp (Prod.ext_iff.mp h).2).2

/-! ## The recorder -/

/-- An engine and the journal of its results. -/
structure Recorder where
  engine : Engine
  journal : List JournalAppend

/-- A command and the readings of the clock and of the epoch. -/
structure Handled where
  cmd : MatchCommand
  nowMillis : ℤ
  epochID : ℕ

namespace Recorder

/-- Nothing has happened yet. -/
def start : Recorder := ⟨.new 0, []⟩

/-- One command: the engine handles it, and the entries of all its results are appended. -/
def step (clock : ℕ → ℤ) (r : Recorder) (event : Handled) : Option Recorder :=
  let handled := r.engine.handle clock event.cmd event.nowMillis event.epochID
  some ⟨handled.1, appendEntries r.journal
    (handled.2.flatMap fun m ↦ buildRollupEntries m.command m.result)⟩

/-- **What the journal is for.** It replays, and the orders it leaves open are the resting orders, with
their remaining quantity. -/
def Replays (r : Recorder) : Prop := ∃ s, replay r.journal = .ok s ∧ ∀ id remaining,
    (s.openOrders id).map OrderLeaf.remainingQuantity = some remaining ↔
      ∃ o ∈ r.engine.restingOrders, o.orderID = id ∧ o.remainingQuantity = remaining

end Recorder

end FunnyOption.Rollup
