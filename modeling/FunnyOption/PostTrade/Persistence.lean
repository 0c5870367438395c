import FunnyOption.Foundation.Upsert
import FunnyOption.Rollup.Journal

/-!
# Storing results of the engine

The post-trade service stores results of the engine: the orders that a result names, its trades, and its entries of
the journal. `PersistResult` stores one result, `PersistBatch` stores several of them with one statement for each
table.

An upsert of an order leaves some columns as they are if the new row has nothing for them. The order of a command has
the freeze and the id of the command; an order that the command has met has neither. The batch keeps the last row
of each order only. So if an order is placed by one result of a batch and met by a later one, its freeze is not stored.
The asset of a freeze is normalised before it is stored, and the empty one becomes `USDT`. So a result that only meets
an order does have an asset for its row.

## The model

Every statement succeeds. Of the columns, the time of the last update is left out, and so is the table of markets, to
which both functions add the markets that are missing. A statement that inserts several rows and does nothing on
a conflict is the same as one statement for each row, so that trades and entries are inserted one by one.

## Main results

* `persistBatch_eq_iff`: on all tables the two leave the same, if and only if the last row of each order of the
  batch has every column that an earlier one has, and its time of creation.
* `freeze_lost_in_batch`: two results of a run of the engine.
* `freeze_kept_iff`: results that only meet an order keep its freeze, if and only if the freeze is of `USDT`.
-/

open Foundation

namespace FunnyOption.PostTrade

open Matching Rollup

/-! ## Rows -/

/-- A row of `orders`, without its id. -/
structure OrderRow where
  clientOrderID : String
  commandID : String
  userID : ℤ
  marketID : ℤ
  outcome : String
  side : OrderSide
  orderType : Matching.OrderType
  timeInForce : TimeInForce
  collateralAsset : String
  freezeID : String
  freezeAsset : String
  freezeAmount : ℤ
  price : ℤ
  quantity : ℤ
  filledQuantity : ℤ
  remainingQuantity : ℤ
  status : OrderStatus
  cancelReason : CancelReason
  createdAt : ℤ
  deriving DecidableEq

/-- A row of `trades`, without its id. -/
structure TradeRow where
  sequence : ℕ
  marketID : ℤ
  outcome : String
  collateralAsset : String
  price : ℤ
  quantity : ℤ
  takerOrderID : String
  makerOrderID : String
  takerUserID : ℤ
  makerUserID : ℤ
  takerSide : OrderSide
  makerSide : OrderSide
  occurredAt : ℤ
  deriving DecidableEq

/-- `PersistItem`. -/
structure PersistItem where
  command : MatchCommand
  result : Result

/-- The tables. -/
structure Database where
  orders : Table String OrderRow
  trades : Table String TradeRow
  /-- The entries of the journal, by their number. -/
  journal : List JournalAppend

/-- `normalizeAsset` of the matching service. -/
def normalizeAsset (asset : String) : String :=
  if trimSpace asset = "" then "USDT" else toUpper (trimSpace asset)

/-- The arguments of `upsertOrder`, and a row of `bulkUpsertOrders`. -/
def orderArgs (command : MatchCommand) (isCommandOrder : Bool) (order : Order) : String × OrderRow := (order.orderID,
    { clientOrderID := order.clientOrderID
      commandID := if isCommandOrder then command.commandID else ""
      userID := order.userID
      marketID := order.marketID
      outcome := toUpper (trimSpace order.outcome)
      side := order.side
      orderType := order.type
      timeInForce := order.timeInForce
      collateralAsset := normalizeAsset command.collateralAsset
      freezeID := if isCommandOrder then command.freezeID else ""
      freezeAsset := normalizeAsset (if isCommandOrder then command.freezeAsset else "")
      freezeAmount := if isCommandOrder then command.freezeAmount else 0
      price := order.price
      quantity := order.quantity
      filledQuantity := order.filledQuantity
      remainingQuantity := order.remainingQuantity
      status := order.status
      cancelReason := order.cancelReason
      createdAt := order.createdAtMillis.tdiv 1000 })

/-- The arguments of `insertTrade`, and a row of `bulkInsertTrades`. -/
def tradeArgs (command : MatchCommand) (trade : Trade) : String × TradeRow := ("trd_" ++ toString trade.sequence,
    { sequence := trade.sequence
      marketID := trade.marketID
      outcome := toUpper (trimSpace trade.outcome)
      collateralAsset := normalizeAsset command.collateralAsset
      price := trade.price
      quantity := trade.quantity
      takerOrderID := trade.takerOrderID
      makerOrderID := trade.makerOrderID
      takerUserID := trade.takerUserID
      makerUserID := trade.makerUserID
      takerSide := trade.takerSide
      makerSide := trade.makerSide
      occurredAt := trade.matchedAtMillis.tdiv 1000 })

/-- The new value of a column, or the old one if there is no new one. -/
def coalesce {α : Type*} [DecidableEq α] (empty new old : α) : α := if new ≠ empty then new else old

/-- The row after an upsert. -/
def OrderRow.merge : Option OrderRow → OrderRow → OrderRow
  | none, row => row
  | some old, row =>
    { row with
      clientOrderID := coalesce "" row.clientOrderID old.clientOrderID
      commandID := coalesce "" row.commandID old.commandID
      freezeID := coalesce "" row.freezeID old.freezeID
      freezeAsset := coalesce "" row.freezeAsset old.freezeAsset
      freezeAmount := coalesce 0 row.freezeAmount old.freezeAmount
      cancelReason := coalesce .unset row.cancelReason old.cancelReason
      createdAt := old.createdAt }

/-- The row after an insert that does nothing on a conflict. -/
def TradeRow.keep (old : Option TradeRow) (row : TradeRow) : TradeRow := old.getD row

/-! ## Storing -/

namespace PersistItem

/-- The rows of the orders that a result names. -/
def orderRows (item : PersistItem) : List (String × OrderRow) :=
  (item.result.order.map (orderArgs item.command true)).toList ++
    item.result.affected.map (orderArgs item.command false)

/-- The rows of the trades of a result. -/
def tradeRows (item : PersistItem) : List (String × TradeRow) := item.result.trades.map (tradeArgs item.command)

/-- The entries of a result. -/
def entries (item : PersistItem) : List JournalAppend := buildRollupEntries item.command item.result

end PersistItem

namespace Database

variable (db : Database)

/-- `PersistResult`. -/
def persistResult (item : PersistItem) : Database where
  orders := db.orders.upsertAll OrderRow.merge item.orderRows
  trades := db.trades.upsertAll TradeRow.keep item.tradeRows
  journal := appendEntries db.journal item.entries

/-- `PersistBatch`. -/
def persistBatch : List PersistItem → Database
  | [] => db
  | [item] => db.persistResult item
  | items =>
    { orders := db.orders.upsertAll OrderRow.merge (Table.keepLast (items.flatMap PersistItem.orderRows))
      trades := db.trades.upsertAll TradeRow.keep (items.flatMap PersistItem.tradeRows)
      journal := appendEntries db.journal (items.flatMap PersistItem.entries) }

/-- The tables have the same rows. -/
def Same (db db' : Database) : Prop :=
  (∀ id, db.orders.get id = db'.orders.get id) ∧ (∀ id, db.trades.get id = db'.trades.get id) ∧
    db.journal = db'.journal

/-- The results are stored one after the other. -/
theorem foldl_persistResult (items : List PersistItem) : items.foldl persistResult db =
      { orders := db.orders.upsertAll OrderRow.merge (items.flatMap PersistItem.orderRows)
        trades := db.trades.upsertAll TradeRow.keep (items.flatMap PersistItem.tradeRows)
        journal := appendEntries db.journal (items.flatMap PersistItem.entries) } := by
  induction items generalizing db with
  | nil => rfl
  | cons item items ih =>
    rw [List.foldl_cons, ih]
    simp only [persistResult, Table.upsertAll, appendEntries, List.flatMap_cons, List.foldl_append]

end Database

/-! ## Columns -/

/-- The columns that an upsert may leave as they are. -/
inductive Column where
  | clientOrderID
  | commandID
  | freezeID
  | freezeAsset
  | freezeAmount
  | cancelReason

namespace OrderRow

/-- A row has a value for a column. -/
def Sets (row : OrderRow) : Column → Prop
  | .clientOrderID => row.clientOrderID ≠ ""
  | .commandID => row.commandID ≠ ""
  | .freezeID => row.freezeID ≠ ""
  | .freezeAsset => row.freezeAsset ≠ ""
  | .freezeAmount => row.freezeAmount ≠ 0
  | .cancelReason => row.cancelReason ≠ .unset

/-- A row has all columns that an earlier row of the same order has. -/
def RestatedBy (row last : OrderRow) : Prop := ∀ column, row.Sets column → last.Sets column

end OrderRow

section Coalesce

variable {α : Type*} [DecidableEq α] {empty new old : α}

theorem coalesce_ne_empty : coalesce empty new old ≠ empty ↔ new ≠ empty ∨ old ≠ empty := by
  rw [coalesce]
  split_ifs with h
  · exact ⟨.inl, fun _ ↦ h⟩
  · rw [or_iff_right h]

theorem coalesce_eq_left (h : old ≠ empty → new ≠ empty) : coalesce empty new old = new := by
  rw [coalesce]
  split_ifs with hnew
  · rfl
  · rw [not_not] at hnew
    rw [not_not.mp fun hold ↦ h hold hnew, hnew]

theorem coalesce_coalesce {last : α} (h : new ≠ empty → last ≠ empty) :
    coalesce empty last (coalesce empty new old) = coalesce empty last old := by
  rw [coalesce, coalesce, coalesce]
  split_ifs with hlast hnew
  · rfl
  · exact absurd (h hnew) hlast
  · rfl

end Coalesce

namespace OrderRow

theorem sets_merge (old row : OrderRow) (column : Column) :
    (merge (some old) row).Sets column ↔ row.Sets column ∨ old.Sets column := by
  cases column <;> exact coalesce_ne_empty

/-- A row that is restated leaves no trace, unless it is the first one and has another time of creation. -/
theorem merge_merge {old : Option OrderRow} {row last : OrderRow} (h : row.RestatedBy last)
    (htime : old = none → row.createdAt = last.createdAt) : merge (some (merge old row)) last = merge old last := by
  cases old with
  | none =>
    simp only [merge, coalesce_eq_left (h .clientOrderID), coalesce_eq_left (h .commandID),
      coalesce_eq_left (h .freezeID), coalesce_eq_left (h .freezeAsset), coalesce_eq_left (h .freezeAmount),
      coalesce_eq_left (h .cancelReason), htime rfl]
  | some old =>
    simp only [merge, coalesce_coalesce (h .clientOrderID), coalesce_coalesce (h .commandID),
      coalesce_coalesce (h .freezeID), coalesce_coalesce (h .freezeAsset), coalesce_coalesce (h .freezeAmount),
      coalesce_coalesce (h .cancelReason)]

/-- Rows merged into one have the columns of all of them, and the first time of creation. -/
theorem mergeAll_some (old : OrderRow) (rows : List OrderRow) :
    ∃ row, Table.mergeAll merge (some old) rows = some row ∧ row.createdAt = old.createdAt ∧
      ∀ column, row.Sets column ↔ old.Sets column ∨ ∃ r ∈ rows, r.Sets column := by
  induction rows generalizing old with
  | nil => exact ⟨old, rfl, rfl, by simp⟩
  | cons r rows ih =>
    obtain ⟨row, hrow, htime, hsets⟩ := ih (merge (some old) r)
    refine ⟨row, hrow, htime, fun column ↦ ?_⟩
    rw [hsets, sets_merge, List.exists_mem_cons_iff, or_comm (a := r.Sets column), or_assoc]

/-- Rows that the last one restates. -/
theorem merge_mergeAll {rows : List OrderRow} {last : OrderRow} (h : ∀ row ∈ rows, row.RestatedBy last)
    (old : Option OrderRow) (htime : old = none → ∀ first ∈ rows.head?, first.createdAt = last.createdAt) :
    merge (Table.mergeAll merge old rows) last = merge old last := by
  induction rows generalizing old with
  | nil => rfl
  | cons row rows ih =>
    obtain ⟨hrow, hrows⟩ := List.forall_mem_cons.mp h
    have hrest := ih hrows (some (merge old row)) fun hnone ↦ by cases hnone
    exact hrest.trans (merge_merge hrow fun hnone ↦ htime hnone row rfl)

/-- **When the last row of an order is enough.** -/
theorem mergeAll_eq_last_iff {rows : List OrderRow} {first last : OrderRow} (hfirst : rows.head? = some first)
    (hlast : rows.getLast? = some last) :
    (∀ old, Table.mergeAll merge old rows = some (merge old last)) ↔
      first.createdAt = last.createdAt ∧ ∀ row ∈ rows, row.RestatedBy last := by
  constructor
  · intro h
    -- without an old row
    obtain ⟨tail, rfl⟩ : ∃ tail, rows = first :: tail := List.head?_eq_some_iff.mp hfirst
    obtain ⟨row, hrow, htime, hsets⟩ := mergeAll_some first tail
    obtain rfl : row = last := Option.some_inj.mp (hrow.symm.trans (h none))
    refine ⟨htime.symm, fun r hr column hcolumn ↦ (hsets column).mpr ?_⟩
    rcases List.mem_cons.mp hr with rfl | hr
    · exact .inl hcolumn
    · exact .inr ⟨r, hr, hcolumn⟩
  · rintro ⟨htime, hrestated⟩ old
    obtain ⟨init, rfl⟩ : ∃ init, rows = init ++ [last] := List.getLast?_eq_some_iff.mp hlast
    have hmerge : merge (Table.mergeAll merge old init) last = merge old last := by
      refine merge_mergeAll (fun row hrow ↦ hrestated row (List.mem_append_left _ hrow)) old fun _ head hhead ↦ ?_
      rw [List.head?_append, Option.mem_def.mp hhead, Option.some_or] at hfirst
      obtain rfl := Option.some_inj.mp hfirst
      exact htime
    rw [Table.mergeAll, List.foldl_append]
    exact congrArg some hmerge

end OrderRow

/-! ## The batch -/

/-- The last row of each order has every column that a row of the order has, and the time of creation of the first. -/
def Restated (items : List PersistItem) : Prop :=
  ∀ orderID, ∀ first ∈ (Table.under (items.flatMap PersistItem.orderRows) orderID).head?,
    ∀ last ∈ (Table.under (items.flatMap PersistItem.orderRows) orderID).getLast?, first.createdAt = last.createdAt ∧
        ∀ row ∈ Table.under (items.flatMap PersistItem.orderRows) orderID, row.RestatedBy last

/-- **A batch and its results one by one.** They leave the same on all tables if and only if there is at most one
result, or the last row of each order has everything that its earlier rows have. -/
theorem persistBatch_eq_iff (items : List PersistItem) :
    (∀ db : Database, (db.persistBatch items).Same (items.foldl Database.persistResult db)) ↔
      items.length ≤ 1 ∨ Restated items := by
  rcases items with _ | ⟨item, _ | ⟨item', items⟩⟩
  · exact ⟨fun _ ↦ .inl (Nat.zero_le 1), fun _ db ↦ ⟨fun _ ↦ rfl, fun _ ↦ rfl, rfl⟩⟩
  · exact ⟨fun _ ↦ .inl le_rfl, fun _ db ↦ ⟨fun _ ↦ rfl, fun _ ↦ rfl, rfl⟩⟩
  have hlength : ¬ (item :: item' :: items).length ≤ 1 := by simp
  rw [or_iff_right hlength]
  generalize hitems : item :: item' :: items = all
  have hbatch : ∀ db : Database, db.persistBatch all =
      { orders := db.orders.upsertAll OrderRow.merge (Table.keepLast (all.flatMap PersistItem.orderRows))
        trades := db.trades.upsertAll TradeRow.keep (all.flatMap PersistItem.tradeRows)
        journal := appendEntries db.journal (all.flatMap PersistItem.entries) } := by
    intro db
    rw [← hitems]
    rfl
  have horders := @Table.upsertAll_keepLast_iff _ _ _ OrderRow.merge (all.flatMap PersistItem.orderRows)
  constructor
  · intro h orderID first hfirst last hlast
    refine (OrderRow.mergeAll_eq_last_iff hfirst hlast).mp (horders.mp (fun t k ↦ ?_) orderID last hlast)
    -- the other two tables do not matter
    obtain ⟨hsame, -⟩ := h ⟨t, .empty, []⟩
    rw [hbatch, Database.foldl_persistResult] at hsame
    exact hsame k
  · intro h db
    rw [hbatch, Database.foldl_persistResult]
    refine ⟨horders.mpr (fun k last hlast ↦ ?_) db.orders, fun _ ↦ rfl, rfl⟩
    obtain ⟨first, hfirst⟩ : ∃ first, (Table.under (all.flatMap PersistItem.orderRows) k).head? = some first := by
      have hne : Table.under (all.flatMap PersistItem.orderRows) k ≠ [] := by
        intro hnil
        rw [hnil] at hlast
        cases hlast
      exact ⟨_, List.head?_eq_some_head hne⟩
    exact (OrderRow.mergeAll_eq_last_iff hfirst hlast).mpr (h k first hfirst last hlast)

section Sample

/-- The results of commands that an engine handles one after the other. -/
def resultsOf (clock : ℕ → ℤ) (e : Engine) : List MatchCommand → List PersistItem
  | [] => []
  | cmd :: cmds =>
    let handled := e.handle clock cmd 0 0
    handled.2.map (fun r ↦ ⟨r.command, r.result⟩) ++ resultsOf clock handled.1 cmds

/-- An order to sell rests, and an order to buy meets it. -/
def sampleItems : List PersistItem :=
  resultsOf (fun _ ↦ 0) (.new 0) [sampleCommand "a" 1 .sell 2, sampleCommand "b" 2 .buy 1]

/-- **A freeze that is not stored.** Stored in one batch, the order that rests has no freeze. -/
theorem freeze_lost_in_batch :
    ∃ db : Database, ¬ (db.persistBatch sampleItems).Same (sampleItems.foldl Database.persistResult db) := by
  refine ⟨⟨.empty, .empty, []⟩, fun ⟨hsame, _⟩ ↦ ?_⟩
  have hfreeze := congrArg (Option.map OrderRow.freezeID) (hsame "a")
  have hbatch : ((Database.persistBatch ⟨.empty, .empty, []⟩ sampleItems).orders.get "a").map OrderRow.freezeID =
      some "" := by
    decide
  have hone : ((sampleItems.foldl Database.persistResult ⟨.empty, .empty, []⟩).orders.get "a").map
      OrderRow.freezeID = some "frz_a" := by
    decide
  rw [hbatch, hone] at hfreeze
  exact absurd hfreeze (by decide)

end Sample

/-! ## The freeze of a resting order -/

/-- What a row says about the freeze and the command of its order. -/
def OrderRow.freeze (row : OrderRow) : String × String × ℤ × String :=
  (row.freezeID, row.freezeAsset, row.freezeAmount, row.commandID)

/-- What the row of an affected order says: `normalizeAsset` makes an asset of the empty one. -/
def passiveFreeze : String × String × ℤ × String := ("", "USDT", 0, "")

namespace OrderRow

theorem freeze_merge {row : OrderRow} (h : row.freeze = passiveFreeze) (old : OrderRow) :
    (merge (some old) row).freeze = (old.freezeID, "USDT", old.freezeAmount, old.commandID) := by
  simp only [freeze, passiveFreeze, Prod.mk.injEq] at h
  obtain ⟨hid, hasset, hamount, hcommand⟩ := h
  simp [freeze, merge, coalesce, hid, hasset, hamount, hcommand]

/-- Rows of an affected order replace the asset of the freeze, and leave the rest of it. -/
theorem freeze_mergeAll {rows : List OrderRow} (h : ∀ row ∈ rows, row.freeze = passiveFreeze) (old : OrderRow) :
    (Table.mergeAll merge (some old) rows).map freeze =
      some (if rows = [] then old.freeze else (old.freezeID, "USDT", old.freezeAmount, old.commandID)) := by
  induction rows generalizing old with
  | nil => rfl
  | cons row rows ih =>
    obtain ⟨hrow, hrows⟩ := List.forall_mem_cons.mp h
    have hmerge := freeze_merge hrow old
    have hrest := ih hrows (merge (some old) row)
    simp only [freeze, Prod.mk.injEq] at hmerge
    rw [if_neg (List.cons_ne_nil row rows)]
    refine hrest.trans (congrArg some ?_)
    split_ifs <;> simp [freeze, hmerge]

end OrderRow

/-- A result does not have an order as that of its command. -/
def PersistItem.Passive (orderID : String) (item : PersistItem) : Prop :=
  ∀ order ∈ item.result.order, order.orderID ≠ orderID

instance (orderID : String) (item : PersistItem) : Decidable (item.Passive orderID) :=
  inferInstanceAs (Decidable (∀ order ∈ item.result.order, order.orderID ≠ orderID))

theorem PersistItem.Passive.mem_affected {orderID : String} {item : PersistItem} (h : item.Passive orderID)
    {row : OrderRow} (hrow : (orderID, row) ∈ item.orderRows) :
    ∃ order ∈ item.result.affected, orderArgs item.command false order = (orderID, row) := by
  refine (List.mem_append.mp hrow).elim (fun hrow ↦ ?_) List.mem_map.mp
  obtain ⟨order, horder, heq⟩ := Option.map_eq_some_iff.mp (Option.mem_toList.mp hrow)
  exact absurd (congrArg Prod.fst heq) (h order horder)

theorem PersistItem.Passive.freeze_eq {orderID : String} {item : PersistItem} (h : item.Passive orderID)
    {row : OrderRow} (hrow : (orderID, row) ∈ item.orderRows) : row.freeze = passiveFreeze := by
  obtain ⟨order, -, heq⟩ := h.mem_affected hrow
  obtain rfl : (orderArgs item.command false order).2 = row := congrArg Prod.snd heq
  rfl

/-- A batch writes rows of an order, at least one if there are any. -/
theorem Database.get_persistBatch (db : Database) (items : List PersistItem) (orderID : String) :
    ∃ rows, (∀ row ∈ rows, row ∈ Table.under (items.flatMap PersistItem.orderRows) orderID) ∧
      (rows = [] → Table.under (items.flatMap PersistItem.orderRows) orderID = []) ∧
      (db.persistBatch items).orders.get orderID = Table.mergeAll OrderRow.merge (db.orders.get orderID) rows := by
  rcases items with _ | ⟨item, _ | ⟨item', items⟩⟩
  · exact ⟨[], by simp, fun _ ↦ rfl, rfl⟩
  · rw [List.flatMap_singleton]
    exact ⟨_, fun _ hrow ↦ hrow, id, Table.get_upsertAll _ item.orderRows orderID⟩
  · refine ⟨_, fun row hrow ↦ ?_, fun hnil ↦ ?_, Table.get_upsertAll _ (Table.keepLast _) orderID⟩
    · rw [Table.under_keepLast] at hrow
      exact List.mem_of_getLast? (Option.mem_toList.mp hrow)
    · rw [Table.under_keepLast] at hnil
      simpa using hnil

theorem Database.get_persistBatches (db : Database) (batches : List (List PersistItem)) (orderID : String) :
    ∃ rows, (∀ row ∈ rows, row ∈ Table.under (batches.flatten.flatMap PersistItem.orderRows) orderID) ∧
      (rows = [] → Table.under (batches.flatten.flatMap PersistItem.orderRows) orderID = []) ∧
      (batches.foldl persistBatch db).orders.get orderID =
        Table.mergeAll OrderRow.merge (db.orders.get orderID) rows := by
  induction batches generalizing db with
  | nil => exact ⟨[], by simp, fun _ ↦ rfl, rfl⟩
  | cons items batches ih =>
    obtain ⟨rows, hmem, hnil, hget⟩ := db.get_persistBatch items orderID
    obtain ⟨rows', hmem', hnil', hget'⟩ := ih (db.persistBatch items)
    rw [List.flatten_cons, List.flatMap_append, Table.under_append]
    refine ⟨rows ++ rows', List.forall_mem_append.mpr ⟨fun row hrow ↦ ?_, fun row hrow ↦ ?_⟩, fun hboth ↦ ?_, ?_⟩
    · exact List.mem_append_left _ (hmem row hrow)
    · exact List.mem_append_right _ (hmem' row hrow)
    · obtain ⟨hrows, hrows'⟩ := List.append_eq_nil_iff.mp hboth
      rw [hnil hrows, hnil' hrows', List.append_nil]
    · rw [List.foldl_cons, hget', hget, Table.mergeAll, Table.mergeAll, Table.mergeAll, List.foldl_append]

/-- **When the freeze of a resting order is kept.** A row of an order and any batches of results that name the order
as affected only: the four columns stay if and only if the freeze is of `USDT`, or no result names the order. -/
theorem freeze_kept_iff (db : Database) {orderID : String} {row : OrderRow} (hrow : db.orders.get orderID = some row)
    (batches : List (List PersistItem)) (hpassive : ∀ item ∈ batches.flatten, item.Passive orderID) :
    ((batches.foldl Database.persistBatch db).orders.get orderID).map OrderRow.freeze = some row.freeze ↔
      row.freezeAsset = "USDT" ∨
        ∀ item ∈ batches.flatten, ∀ order ∈ item.result.affected, order.orderID ≠ orderID := by
  obtain ⟨rows, hmem, hnil, hget⟩ := db.get_persistBatches batches orderID
  have hpassive' : ∀ r ∈ rows, r.freeze = passiveFreeze := by
    intro r hr
    obtain ⟨item, hitem, hr⟩ := List.mem_flatMap.mp (Table.mem_under.mp (hmem r hr))
    exact (hpassive item hitem).freeze_eq hr
  -- nothing is written if and only if no result names the order
  have hnone : rows = [] ↔ ∀ item ∈ batches.flatten, ∀ order ∈ item.result.affected, order.orderID ≠ orderID := by
    constructor
    · rintro rfl item hitem order horder rfl
      refine Table.under_eq_nil.mp (hnil rfl) (List.mem_map.mpr ⟨orderArgs item.command false order, ?_, rfl⟩)
      exact List.mem_flatMap.mpr ⟨item, hitem, List.mem_append_right _ (List.mem_map_of_mem horder)⟩
    · intro hothers
      refine List.eq_nil_iff_forall_not_mem.mpr fun r hr ↦ ?_
      obtain ⟨item, hitem, hr⟩ := List.mem_flatMap.mp (Table.mem_under.mp (hmem r hr))
      obtain ⟨order, horder, heq⟩ := (hpassive item hitem).mem_affected hr
      exact hothers item hitem order horder (congrArg Prod.fst heq)
  rw [hget, hrow, OrderRow.freeze_mergeAll hpassive', Option.some_inj, ← hnone]
  split_ifs with hrows
  · simp [hrows]
  · simp [hrows, OrderRow.freeze, eq_comm]

/-- An order to sell with a freeze of shares rests, and an order to buy meets it. -/
def sellCommand : List PersistItem :=
  resultsOf (fun _ ↦ 0) (.new 0)
    [{ sampleCommand "a" 1 .sell 2 with freezeAsset := "POSITION:1:YES" }, sampleCommand "b" 2 .buy 1]

/-- The tables with the order to sell. -/
def sampleRested : Database := Database.persistBatch ⟨.empty, .empty, []⟩ (sellCommand.take 1)

/-- **A freeze of shares becomes one of collateral.** -/
theorem freezeAsset_overwritten :
    (sampleRested.orders.get "a").map OrderRow.freeze = some ("frz_a", "POSITION:1:YES", 100, "") ∧
      (∀ item ∈ sellCommand.drop 1, item.Passive "a") ∧
      ((sampleRested.persistBatch (sellCommand.drop 1)).orders.get "a").map OrderRow.freeze =
        some ("frz_a", "USDT", 100, "") := by
  decide +kernel

theorem freeze_kept_iff_sample :
    ∃ row, sampleRested.orders.get "a" = some row ∧
      (([resultsOf (fun _ ↦ 0) (.new 0) [sampleCommand "b" 2 .buy 1]].foldl Database.persistBatch
        sampleRested).orders.get "a").map OrderRow.freeze = some row.freeze := by
  obtain ⟨row, hrow⟩ := Option.isSome_iff_exists.mp (by decide : (sampleRested.orders.get "a").isSome)
  exact ⟨row, hrow, (freeze_kept_iff _ hrow _ (by decide)).mpr (.inr (by decide))⟩

end FunnyOption.PostTrade
