import FunnyOption.Account.BalanceBook
import FunnyOption.Foundation.Ledger

/-!
# The balance book and its store

With a store behind it, `BalanceBook` keeps each balance and each freeze record twice: in memory and as a row
of a table. The four methods that work on freezes change memory first, persist a snapshot of the balance and of
the record, and take the change in memory back if that fails. They take it back in two ways: `PreFreeze` adds
the amount back and deletes the record, the others write the old balance and the old record. Credits and debits
go the other way round. The store applies them, and the row it answers replaces the one in memory.

Here calls come one after the other, and each is told whether its call of the store succeeds. A failing call of
the store has no effect on the tables.

## Main results

Next to book and store there is a log of what has been credited, debited, released and consumed. A book is
`Correct` if what it holds is what the log says, nothing is overdrawn, the frozen amounts are covered by open
freezes, and memory and store say the same. `LiveBook.correct_calls` is that every sequence of calls ends in such a
book. A missing row counts as a zero row: a `PreFreeze` that is refused, and a credit whose reference is
known, may leave a row of zeros in memory that the table does not have.
-/

open Foundation

namespace FunnyOption.Account

open BalanceBook

/-! ## The store -/

/-- The columns `available` and `frozen` of `account_balances`. -/
structure Holding where
  available : ℤ
  frozen : ℤ
  deriving DecidableEq

/-- The column `status` of `freeze_records`. -/
inductive FreezeStatus where
  | active
  | released
  | consumed
  deriving DecidableEq

/-- A row of `freeze_records`, without its key. -/
structure FreezeRow where
  userID : ℤ
  asset : String
  refType : String
  refID : String
  originalAmount : ℤ
  remainingAmount : ℤ
  status : FreezeStatus
  deriving DecidableEq

/-- The status that a record is stored with. -/
def FreezeRecord.status (record : FreezeRecord) : FreezeStatus :=
  if record.consumed then .consumed else if record.released then .released else .active

/-- The row that a record is inserted as. -/
def FreezeRecord.toRow (record : FreezeRecord) : FreezeRow :=
  ⟨record.userID, record.asset, record.refType, record.refID,
    if record.originalAmount ≤ 0 then record.amount else record.originalAmount, record.amount, record.status⟩

/-- The tables behind `SQLStore`. -/
structure BalanceStore where
  /-- `account_balances` by user and asset. -/
  balances : BalanceKey → Option Holding
  /-- `freeze_records` by `freeze_id`. -/
  freezes : String → Option FreezeRow
  /-- The pairs `(event_type, ref_id)` of `account_balance_events`. -/
  events : List (String × String)

/-- Tables without rows. -/
def BalanceStore.empty : BalanceStore := ⟨fun _ ↦ none, fun _ ↦ none, []⟩

namespace BalanceStore

variable (store : BalanceStore)

/-- What the table has for a key, with zeros for a missing row. -/
def holding (key : BalanceKey) : Holding := (store.balances key).getD ⟨0, 0⟩

/-- `loadBalanceTx`. -/
def loadBalance (userID : ℤ) (asset : String) : Balance :=
  ⟨userID, asset, (store.holding (userID, asset)).available, (store.holding (userID, asset)).frozen⟩

/-- `ON CONFLICT (freeze_id)`: a row that has its original amount keeps it. -/
def mergeFreeze (row : FreezeRow) : Option FreezeRow → FreezeRow
  | none => row
  | some old => { row with
      originalAmount := if old.originalAmount > 0 then old.originalAmount else row.originalAmount }

/-- `UpsertBalanceAndFreeze`. -/
def upsertBalanceAndFreeze (balance : Balance) (freeze : FreezeRecord) : BalanceStore :=
  { store with
    balances := Function.update store.balances (balance.userID, balance.asset)
      (some ⟨balance.available, balance.frozen⟩)
    freezes := Function.update store.freezes freeze.freezeID
      (some (mergeFreeze freeze.toRow (store.freezes freeze.freezeID))) }

/-- The tables after an event has been recorded and a row of `account_balances` has been written. -/
def applyEvent (req : RefRequest) (holding : Holding) : BalanceStore :=
  { store with
    balances := Function.update store.balances (req.userID, req.asset) (some holding)
    events := (req.refType, req.refID) :: store.events }

/-- `ApplyCreditEvent`: the row after it, and whether it was applied now. -/
def applyCreditEvent (req : RefRequest) : BalanceStore × Except BookError (Balance × Bool) :=
  if (req.refType, req.refID) ∈ store.events then
    (store, .ok (store.loadBalance req.userID req.asset, false))
  else
    let old := store.holding (req.userID, req.asset)
    let store := store.applyEvent req ⟨old.available + req.amount, old.frozen⟩
    (store, .ok (store.loadBalance req.userID req.asset, true))

/-- `ApplyDebitEvent`: the row after it, and whether it was applied now. -/
def applyDebitEvent (req : RefRequest) : BalanceStore × Except BookError (Balance × Bool) :=
  if (req.refType, req.refID) ∈ store.events then
    (store, .ok (store.loadBalance req.userID req.asset, false))
  -- the transaction is rolled back, with the event
  else if (store.loadBalance req.userID req.asset).available < req.amount then
    (store, .error .insufficientBalance)
  else
    match store.balances (req.userID, req.asset) with
    | none => (store, .error .insufficientBalance)
    | some old =>
      let store := store.applyEvent req ⟨old.available - req.amount, old.frozen⟩
      (store, .ok (store.loadBalance req.userID req.asset, true))

end BalanceStore

/-! ## Calls -/

/-- What a call did to the money of a user or to a freeze. -/
inductive Effect where
  | credited (key : BalanceKey) (amount : ℤ)
  | debited (key : BalanceKey) (amount : ℤ)
  | released (freezeID : String) (amount : ℤ)
  | consumed (freezeID : String) (key : BalanceKey) (amount : ℤ)

/-- A balance book with its store, and what its calls have done so far, latest first. -/
structure LiveBook where
  book : BalanceBook
  store : BalanceStore
  log : List Effect

/-- A new book over empty tables. -/
def LiveBook.empty : LiveBook := ⟨.empty, .empty, []⟩

/-- Why a call failed. -/
inductive CallError where
  | book (e : BookError)
  | store
  deriving DecidableEq

namespace LiveBook

variable (l : LiveBook)

/-- `PreFreeze`. The flag says whether the rows can be persisted. -/
def preFreeze (newID : String) (req : FreezeRequest) (stored : Bool) : LiveBook × Except CallError FreezeRecord :=
  match l.book.preFreeze newID req with
  | (book, .error e) => ({ l with book := book }, .error (.book e))
  | (book, .ok record) =>
    let balance := book.row req.userID req.asset
    if stored then
      ({ l with book := book, store := l.store.upsertBalanceAndFreeze balance record }, .ok record)
    else
      let balance := { balance with
        available := balance.available + req.amount, frozen := balance.frozen - req.amount }
      let book := book.setRow (balanceKey req.userID req.asset) balance
      ({ l with book := { book with freezes := Function.update book.freezes record.freezeID none } }, .error .store)

/-- The body shared by the three methods that draw on a freeze: the change in memory, the snapshot that is
persisted, and the old rows that are written back if that fails. -/
def draw (freezeID : String) (change : BalanceBook × Except BookError Unit) (effect : FreezeRecord → Effect)
    (stored : Bool) : LiveBook × Except CallError Unit :=
  match change, l.book.getActiveFreeze freezeID with
  | (_, .error e), _ => (l, .error (.book e))
  -- the change has looked the freeze up before
  | (_, .ok ()), .error e => (l, .error (.book e))
  | (book, .ok ()), .ok (oldRecord, oldBalance) =>
    if stored then
      let balance := book.row oldRecord.userID oldRecord.asset
      let record := (book.freezes freezeID).getD oldRecord
      (⟨book, l.store.upsertBalanceAndFreeze balance record, effect oldRecord :: l.log⟩, .ok ())
    else
      let book := book.setRow (balanceKey oldRecord.userID oldRecord.asset) oldBalance
      ({ l with book := book.setFreeze freezeID oldRecord }, .error .store)

/-- `ReleaseFreeze`. -/
def releaseFreeze (freezeID : String) (stored : Bool) : LiveBook × Except CallError Unit :=
  l.draw freezeID (l.book.releaseFreeze freezeID) (fun record ↦ .released freezeID record.amount) stored

/-- `ReleaseFreezeAmount`. -/
def releaseFreezeAmount (freezeID : String) (amount : ℤ) (stored : Bool) : LiveBook × Except CallError Unit :=
  l.draw freezeID (l.book.releaseFreezeAmount freezeID amount) (fun _ ↦ .released freezeID amount) stored

/-- `ConsumeFreeze`. -/
def consumeFreeze (freezeID : String) (amount : ℤ) (stored : Bool) : LiveBook × Except CallError Unit :=
  l.draw freezeID (l.book.consumeFreeze freezeID amount)
    (fun record ↦ .consumed freezeID (balanceKey record.userID record.asset) amount) stored

/-- The request that the two methods with a reference hand to the store. -/
def normalizeRequest (req : RefRequest) : RefRequest :=
  { req with
    asset := normalizeAsset req.asset
    refType := toUpper (trimSpace req.refType)
    refID := trimSpace req.refID }

/-- The body shared by the two methods with a reference: the store applies the event, and the row it answers
replaces the one in memory. -/
def withStore (apply : BalanceStore → RefRequest → BalanceStore × Except BookError (Balance × Bool))
    (effect : BalanceKey → ℤ → Effect) (req : RefRequest) (stored : Bool) :
    LiveBook × Except CallError (Balance × Bool) :=
  if req.userID ≤ 0 ∨ req.amount ≤ 0 then (l, .error (.book .invalidAmount))
  else if normalizeAsset req.asset = "" then (l, .error (.book .invalidAsset))
  else if trimSpace req.refType = "" ∨ trimSpace req.refID = "" then (l, .error (.book .invalidAmount))
  else if !stored then (l, .error .store)
  else
    match apply l.store (normalizeRequest req) with
    | (_, .error e) => (l, .error (.book e))
    | (store, .ok (balance, applied)) =>
      (⟨l.book.setRow (balanceKey balance.userID balance.asset) balance, store,
        if applied then effect (balanceKey req.userID req.asset) req.amount :: l.log else l.log⟩,
        .ok (balance, applied))

/-- `CreditAvailableWithRef`. -/
def creditAvailableWithRef (req : RefRequest) (stored : Bool) : LiveBook × Except CallError (Balance × Bool) :=
  l.withStore BalanceStore.applyCreditEvent .credited req stored

/-- `DebitAvailableWithRef`. -/
def debitAvailableWithRef (req : RefRequest) (stored : Bool) : LiveBook × Except CallError (Balance × Bool) :=
  l.withStore BalanceStore.applyDebitEvent .debited req stored

/-- The state after a call. The flag says whether its call of the store succeeds. -/
def call (l : LiveBook) : Operation × Bool → LiveBook
  | (.preFreeze newID req, stored) => (l.preFreeze newID req stored).1
  | (.releaseFreeze freezeID, stored) => (l.releaseFreeze freezeID stored).1
  | (.releaseFreezeAmount freezeID amount, stored) => (l.releaseFreezeAmount freezeID amount stored).1
  | (.consumeFreeze freezeID amount, stored) => (l.consumeFreeze freezeID amount stored).1
  | (.credit req, stored) => (l.creditAvailableWithRef req stored).1
  | (.debit req, stored) => (l.debitAvailableWithRef req stored).1

/-- The state after calls one after the other. -/
def calls (l : LiveBook) (ops : List (Operation × Bool)) : LiveBook := ops.foldl call l

end LiveBook

/-! ## Correctness -/

/-- What a freeze is still good for, at the key it was taken from. -/
def FreezeRecord.openAmount (key : BalanceKey) (record : FreezeRecord) : ℤ :=
  if balanceKey record.userID record.asset = key ∧ record.released = false ∧ record.consumed = false then
    record.amount
  else 0

namespace Effect

/-- What an effect released from a freeze. -/
def releasedFrom (freezeID : String) : Effect → ℤ
  | .released id amount => if id = freezeID then amount else 0
  | _ => 0

/-- What an effect consumed from a freeze. -/
def consumedFrom (freezeID : String) : Effect → ℤ
  | .consumed id _ amount => if id = freezeID then amount else 0
  | _ => 0

/-- What an effect added to all that a user has of an asset. -/
def gain (key : BalanceKey) : Effect → ℤ
  | .credited k amount => if k = key then amount else 0
  | .debited k amount => if k = key then -amount else 0
  | .released _ _ => 0
  | .consumed _ k amount => if k = key then -amount else 0

end Effect

namespace LiveBook

/-- What is meant by a correct book. -/
structure Correct (l : LiveBook) : Prop where
  /-- No balance is overdrawn. -/
  available_nonneg : ∀ key, 0 ≤ l.book.available key
  /-- What is frozen is what the open freezes are good for. -/
  frozen_eq : ∀ key, l.book.frozen key = Foundation.total (FreezeRecord.openAmount key) l.book.freezes
  /-- What a freeze was taken for is left, released or consumed. -/
  original_eq : ∀ id record, l.book.freezes id = some record →
    record.originalAmount = record.amount + (l.log.map (Effect.releasedFrom id)).sum +
      (l.log.map (Effect.consumedFrom id)).sum
  /-- What a user has is what was credited, less what was debited and consumed. -/
  total_eq : ∀ key, l.book.total key = (l.log.map (Effect.gain key)).sum
  /-- The balances in memory are the stored ones. -/
  balances_eq : ∀ key, l.store.holding key = ⟨l.book.available key, l.book.frozen key⟩
  /-- Every stored balance is in memory. -/
  rows : ∀ key, (l.store.balances key).isSome → (l.book.balances key).isSome
  /-- The freeze records in memory are the stored ones. -/
  freezes_eq : ∀ id, l.store.freezes id = (l.book.freezes id).map fun record ↦
    ⟨record.userID, record.asset, record.refType, record.refID, record.originalAmount, record.amount, record.status⟩

end LiveBook

namespace LiveBook

variable {l l' : LiveBook}

/-! ## What a call does -/

/-- A freeze was drawn on: an amount left it, and a part `a` of that became available. -/
structure Draws (l : LiveBook) (freezeID : String) (record record' : FreezeRecord) (a amount : ℤ)
    (effect : Effect) (l' : LiveBook) : Prop where
  isOpen : Open l.book freezeID record
  drawn : Drawn l.book freezeID record record' a (-amount) l'.book
  store : l'.store = l.store.upsertBalanceAndFreeze (l'.book.row record.userID record.asset) record'
  log : l'.log = effect :: l.log
  /-- The record keeps all but its amount and its flags. -/
  record_eq : record' = { record with
    amount := record.amount - amount, released := record'.released, consumed := record'.consumed }
  /-- It is closed when nothing is left. -/
  active : record'.released = false ∧ record'.consumed = false ↔ record'.amount ≠ 0
  le : amount ≤ record.amount
  pos : 0 < record.amount → 0 < amount
  effect_eq : a = amount ∧ effect = .released freezeID amount ∨
    a = 0 ∧ effect = .consumed freezeID (balanceKey record.userID record.asset) amount

/-- A credit or a debit was applied. -/
structure Applies (l : LiveBook) (key : BalanceKey) (a : ℤ) (effect : Effect) (l' : LiveBook) : Prop where
  moves : Moves l.book l'.book key a 0
  freezes : l'.book.freezes = l.book.freezes
  holding : ∀ k, l'.store.holding k = ⟨l'.book.available k, l'.book.frozen k⟩
  rows : ∀ k, (l'.store.balances k).isSome → k = key ∨ (l.store.balances k).isSome
  row : (l'.book.balances key).isSome
  storeFreezes : l'.store.freezes = l.store.freezes
  log : l'.log = effect :: l.log
  covered : -a ≤ l.book.available key
  effect_eq : a > 0 ∧ effect = .credited key a ∨ effect = .debited key (-a)

/-- All that a call can do. -/
inductive Step (l l' : LiveBook) : Prop where
  | idle (book : Untouched l.book l'.book) (store : l'.store = l.store) (log : l'.log = l.log)
  | froze (newID : String) (req : FreezeRequest) (record : FreezeRecord)
      (book : Frozen l.book newID req l'.book record)
      (store : l'.store = l.store.upsertBalanceAndFreeze (l'.book.row req.userID req.asset) record)
      (log : l'.log = l.log)
  | drew (freezeID : String) (record record' : FreezeRecord) (a amount : ℤ) (effect : Effect)
      (draws : Draws l freezeID record record' a amount effect l')
  | applied (key : BalanceKey) (a : ℤ) (effect : Effect) (applies : Applies l key a effect l')

/-- A record that `PreFreeze` cannot persist is taken back. -/
theorem untouched_undo {book book' : BalanceBook} {newID : String} {req : FreezeRequest} {record : FreezeRecord}
    (h : Frozen book newID req book' record) :
    Untouched book
      { book'.setRow (balanceKey req.userID req.asset)
          { book'.row req.userID req.asset with
            available := (book'.row req.userID req.asset).available + req.amount
            frozen := (book'.row req.userID req.asset).frozen - req.amount } with
        freezes := Function.update book'.freezes record.freezeID none } := by
  have hset := moves_setRow { book'.row req.userID req.asset with
    available := (book'.row req.userID req.asset).available + req.amount
    frozen := (book'.row req.userID req.asset).frozen - req.amount } fun h ↦ h.row req.userID req.asset
  simp only [row_available, row_frozen, add_sub_cancel_left, sub_sub_cancel_left] at hset
  have hback := h.moves.trans hset
  rw [neg_add_cancel, add_neg_cancel] at hback
  refine ⟨(hback.of_balances_eq ?_).zero, ?_, h.processedRefs⟩
  · simp only [row_available, row_frozen]
  · dsimp only
    rw [h.freezes, Function.update_idem, ← h.fresh, Function.update_eq_self]

theorem step_preFreeze (l : LiveBook) (newID : String) (req : FreezeRequest) (stored : Bool) :
    Step l (l.preFreeze newID req stored).1 := by
  rcases preFreeze_cases l.book newID req with ⟨e, he, hidle⟩ | ⟨record, hok, hfrozen⟩
  · have heq : l.book.preFreeze newID req = ((l.book.preFreeze newID req).1, .error e) := Prod.ext rfl he
    rw [preFreeze, heq]
    exact .idle hidle rfl rfl
  · have heq : l.book.preFreeze newID req = ((l.book.preFreeze newID req).1, .ok record) := Prod.ext rfl hok
    rw [preFreeze, heq]
    cases stored with
    | true => exact .froze newID req record hfrozen rfl rfl
    | false => exact .idle (untouched_undo hfrozen) rfl rfl

section Draw

variable {freezeID : String} {record record' : FreezeRecord} {a amount : ℤ}
  {change : BalanceBook × Except BookError Unit} {effect : FreezeRecord → Effect}

/-- The old rows are written back after a failed call of the store. -/
theorem untouched_restore {book : BalanceBook} {balance : Balance} (hn : l.book.Named)
    (hopen : Open l.book freezeID record)
    (hbalance : l.book.balances (balanceKey record.userID record.asset) = some balance)
    (h : Drawn l.book freezeID record record' a amount book) :
    Untouched l.book ((book.setRow (balanceKey record.userID record.asset) balance).setFreeze freezeID
      record) := by
  have hset := moves_setRow balance fun _ : book.Named ↦ hn _ _ hbalance
  rw [h.moves.available, h.moves.frozen, available_of_some hbalance, frozen_of_some hbalance, if_pos rfl, if_pos rfl,
    sub_add_cancel_left, sub_add_cancel_left] at hset
  have hback := h.moves.trans hset
  rw [add_neg_cancel, add_neg_cancel] at hback
  refine ⟨(hback.of_balances_eq ?_).zero, ?_, h.processedRefs⟩
  · rfl
  · simp only [setFreeze, BalanceBook.setRow]
    rw [h.freezes, Function.update_idem, ← hopen.lookup, Function.update_eq_self]

theorem step_draw_refused (h : ∃ e, change.2 = .error e) (stored : Bool) :
    Step l (l.draw freezeID change effect stored).1 := by
  obtain ⟨e, he⟩ := h
  have heq : change = (change.1, .error e) := Prod.ext rfl he
  rw [heq]
  exact .idle (.refl l.book) rfl rfl

/-- A draw that memory grants is persisted or taken back. -/
theorem step_draw (hn : l.book.Named) (hopen : Open l.book freezeID record) (hok : change.2 = .ok ())
    (h : Drawn l.book freezeID record record' a (-amount) change.1) (hrecord : record' = { record with
      amount := record.amount - amount, released := record'.released, consumed := record'.consumed })
    (hactive : record'.released = false ∧ record'.consumed = false ↔ record'.amount ≠ 0)
    (hle : amount ≤ record.amount) (hpos : 0 < record.amount → 0 < amount)
    (heffect : a = amount ∧ effect record = .released freezeID amount ∨
      a = 0 ∧ effect record = .consumed freezeID (balanceKey record.userID record.asset) amount) (stored : Bool) :
    Step l (l.draw freezeID change effect stored).1 := by
  obtain ⟨balance, hbalance, hget⟩ := getActiveFreeze_of_open hopen
  have heq : change = (change.1, .ok ()) := Prod.ext rfl hok
  have hlookup : change.1.freezes freezeID = some record' := by rw [h.freezes, Function.update_self]
  rw [heq]
  simp only [draw, hget, hlookup, Option.getD_some]
  cases stored with
  | true =>
    exact .drew freezeID record record' a amount _ ⟨hopen, h, rfl, rfl, hrecord, hactive, hle, hpos, heffect⟩
  | false => exact .idle (untouched_restore hn hopen hbalance h) rfl rfl

end Draw

theorem step_releaseFreeze (hn : l.book.Named) (freezeID : String) (stored : Bool) :
    Step l (l.releaseFreeze freezeID stored).1 := by
  by_cases hopen : ∃ record, Open l.book freezeID record
  · obtain ⟨record, hopen⟩ := hopen
    obtain ⟨hok, hdrawn⟩ := releaseFreeze_of_open hopen
    refine step_draw hn hopen hok hdrawn ?_ (by simp) le_rfl id (.inl ⟨rfl, rfl⟩) stored
    rw [sub_self]
  · obtain ⟨e, he⟩ := releaseFreeze_of_not_open (not_exists.mp hopen)
    exact step_draw_refused ⟨e, by rw [he]⟩ stored

theorem step_releaseFreezeAmount (hn : l.book.Named) (freezeID : String) (amount : ℤ) (stored : Bool) :
    Step l (l.releaseFreezeAmount freezeID amount stored).1 := by
  by_cases hopen : ∃ record, Open l.book freezeID record ∧ 0 < amount ∧ amount ≤ record.amount
  · obtain ⟨record, hopen, hpos, hle⟩ := hopen
    obtain ⟨hok, hdrawn⟩ := releaseFreezeAmount_of_open hopen hpos hle
    exact step_draw hn hopen hok hdrawn rfl (by simp [hopen.active]) hle (fun _ ↦ hpos) (.inl ⟨rfl, rfl⟩) stored
  · obtain ⟨e, he⟩ := (draw_of_not fun record ho hpos hle ↦ hopen ⟨record, ho, hpos, hle⟩).1
    exact step_draw_refused ⟨e, by rw [he]⟩ stored

theorem step_consumeFreeze (hn : l.book.Named) (freezeID : String) (amount : ℤ) (stored : Bool) :
    Step l (l.consumeFreeze freezeID amount stored).1 := by
  by_cases hopen : ∃ record, Open l.book freezeID record ∧ 0 < amount ∧ amount ≤ record.amount
  · obtain ⟨record, hopen, hpos, hle⟩ := hopen
    obtain ⟨hok, hdrawn⟩ := consumeFreeze_of_open hopen hpos hle
    exact step_draw hn hopen hok hdrawn rfl (by simp [hopen.active]) hle (fun _ ↦ hpos) (.inr ⟨rfl, rfl⟩) stored
  · obtain ⟨e, he⟩ := (draw_of_not fun record ho hpos hle ↦ hopen ⟨record, ho, hpos, hle⟩).2
    exact step_draw_refused ⟨e, by rw [he]⟩ stored

end LiveBook

/-! ### Credits and debits -/

/-- What the store answers to a request that would add `a`. -/
inductive Answer (store : BalanceStore) (req : RefRequest) (a : ℤ) :
    BalanceStore × Except BookError (Balance × Bool) → Prop where
  | refused (e : BookError) : Answer store req a (store, .error e)
  | known : Answer store req a (store, .ok (store.loadBalance req.userID req.asset, false))
  | applied (holding : Holding) (hstored : store.holding (req.userID, req.asset) = holding)
      (covered : -a ≤ holding.available) :
    Answer store req a
      (store.applyEvent req ⟨holding.available + a, holding.frozen⟩,
        .ok (⟨req.userID, req.asset, holding.available + a, holding.frozen⟩, true))

variable {req : RefRequest} {a : ℤ}

namespace BalanceStore

variable (store : BalanceStore) (req : RefRequest)

theorem holding_applyEvent (holding : Holding) (key : BalanceKey) : (store.applyEvent req holding).holding key =
      if key = (req.userID, req.asset) then holding else store.holding key := by
  simp only [BalanceStore.holding, applyEvent, Function.update_apply]
  split_ifs
  · rfl
  · rfl

theorem loadBalance_applyEvent (holding : Holding) :
    (store.applyEvent req holding).loadBalance req.userID req.asset =
      ⟨req.userID, req.asset, holding.available, holding.frozen⟩ := by
  rw [loadBalance, holding_applyEvent, if_pos rfl]

theorem applyCreditEvent_answer (hamount : 0 < req.amount)
    (hnonneg : 0 ≤ (store.holding (req.userID, req.asset)).available) :
    Answer store req req.amount (store.applyCreditEvent req) := by
  rw [applyCreditEvent]
  split_ifs
  · exact .known
  · dsimp only
    rw [loadBalance_applyEvent]
    exact .applied _ rfl (by omega)

theorem applyDebitEvent_answer : Answer store req (-req.amount) (store.applyDebitEvent req) := by
  rw [applyDebitEvent]
  split_ifs with hknown hshort
  · exact .known
  · exact .refused _
  · split
    · exact .refused _
    · next old hold =>
      have hholding : store.holding (req.userID, req.asset) = old := by
        rw [holding, hold]
        rfl
      dsimp only
      rw [loadBalance_applyEvent, sub_eq_add_neg]
      refine .applied old hholding ?_
      rw [loadBalance, hholding] at hshort
      dsimp only at hshort
      omega

end BalanceStore

namespace LiveBook

variable {l l' : LiveBook}

/-- A row that is replaced by one with `a` more. -/
theorem moves_replace {book : BalanceBook} {key key' : BalanceKey} {balance : Balance} (hkey : key' = key)
    (hnamed : (balance.userID, balance.asset) = key) (havailable : balance.available = book.available key + a) (hfrozen : balance.frozen = book.frozen key) :
    Moves book (book.setRow key' balance) key a 0 := by
  have hset := moves_setRow balance fun _ : book.Named ↦ hnamed
  rw [havailable, hfrozen, add_sub_cancel_left, sub_self] at hset
  rwa [hkey]

/-- A request that passes the checks is answered by the store. -/
theorem withStore_cases (apply : BalanceStore → RefRequest → BalanceStore × Except BookError (Balance × Bool))
    (effect : BalanceKey → ℤ → Effect) (req : RefRequest) (stored : Bool) :
    (l.withStore apply effect req stored).1 = l ∨ 0 < req.amount ∧ ∃ store balance applied,
        apply l.store (normalizeRequest req) = (store, .ok (balance, applied)) ∧
        (l.withStore apply effect req stored).1 =
          ⟨l.book.setRow (balanceKey balance.userID balance.asset) balance, store,
            if applied then effect (balanceKey req.userID req.asset) req.amount :: l.log else l.log⟩ := by
  rw [withStore]
  split_ifs with hinvalid
  · exact .inl rfl
  · exact .inl rfl
  · exact .inl rfl
  · exact .inl rfl
  · split
    · exact .inl rfl
    · next store balance applied heq =>
      exact .inr ⟨not_le.mp fun h ↦ hinvalid (.inr h), store, balance, applied, heq, rfl⟩

theorem normalizeRequest_amount (req : RefRequest) : (normalizeRequest req).amount = req.amount := by
  rw [normalizeRequest]

theorem normalizeRequest_key (req : RefRequest) :
    ((normalizeRequest req).userID, (normalizeRequest req).asset) = balanceKey req.userID req.asset := by
  rw [normalizeRequest, balanceKey]

theorem normalizeRequest_balanceKey (req : RefRequest) :
    balanceKey (normalizeRequest req).userID (normalizeRequest req).asset = balanceKey req.userID req.asset := by
  rw [normalizeRequest, balanceKey_normalizeAsset]

variable {store : BalanceStore}

/-- The row in memory after the store has answered. -/
theorem step_replace {key : BalanceKey} {balance : Balance} {applied : Bool} {effect : Effect}
    (hagree : ∀ key, l.store.holding key = ⟨l.book.available key, l.book.frozen key⟩)
    (hanswer : Answer l.store req a (store, .ok (balance, applied))) (hpair : (req.userID, req.asset) = key)
    (hkey : balanceKey req.userID req.asset = key)
    (heffect : a > 0 ∧ effect = .credited key a ∨ effect = .debited key (-a)) :
    Step l ⟨l.book.setRow (balanceKey balance.userID balance.asset) balance, store,
      if applied then effect :: l.log else l.log⟩ := by
  have hholding := hagree key
  rw [← hpair] at hholding
  cases hanswer with
  | known =>
    have hmoves : Moves l.book (l.book.setRow (balanceKey req.userID req.asset)
        (l.store.loadBalance req.userID req.asset)) key 0 0 := by
      refine moves_replace hkey hpair ?_ ?_
      · rw [BalanceStore.loadBalance, hholding, hpair, add_zero]
      · rw [BalanceStore.loadBalance, hholding, hpair]
    exact .idle ⟨hmoves.zero, rfl, rfl⟩ rfl rfl
  | applied holding hstored covered =>
    rw [hholding, hpair] at hstored
    subst hstored
    have hmoves : Moves l.book (l.book.setRow (balanceKey req.userID req.asset)
        ⟨req.userID, req.asset, l.book.available key + a, l.book.frozen key⟩) key a 0 :=
      moves_replace hkey hpair rfl rfl
    refine .applied key a effect ⟨hmoves, rfl, fun k ↦ ?_, fun k hk ↦ ?_, ?_, rfl, rfl, covered, heffect⟩
    · rw [BalanceStore.holding_applyEvent, hpair, hmoves.available, hmoves.frozen]
      split_ifs with hk
      · rw [hk, add_zero]
      · rw [hagree k, add_zero, add_zero]
    · by_cases heq : k = key
      · exact .inl heq
      · rw [BalanceStore.applyEvent, hpair] at hk
        dsimp only at hk
        rw [Function.update_of_ne heq] at hk
        exact .inr hk
    · simp [BalanceBook.setRow, hkey]

variable {apply : BalanceStore → RefRequest → BalanceStore × Except BookError (Balance × Bool)}
  {effect : BalanceKey → ℤ → Effect}

theorem step_withStore (hagree : ∀ key, l.store.holding key = ⟨l.book.available key, l.book.frozen key⟩)
    (hanswer : 0 < req.amount → Answer l.store (normalizeRequest req) a (apply l.store (normalizeRequest req)))
    (heffect : ∀ key, 0 < req.amount →
      a > 0 ∧ effect key req.amount = .credited key a ∨ effect key req.amount = .debited key (-a)) (stored : Bool) :
    Step l (l.withStore apply effect req stored).1 := by
  rcases withStore_cases apply effect req stored with heq | ⟨hamount, store, balance, applied, happly, heq⟩
  · rw [heq]
    exact .idle (.refl l.book) rfl rfl
  · rw [heq]
    have hans := hanswer hamount
    rw [happly] at hans
    exact step_replace hagree hans (normalizeRequest_key req) (normalizeRequest_balanceKey req)
      (heffect _ hamount)

theorem step_call (l : LiveBook) (hagree : ∀ key, l.store.holding key = ⟨l.book.available key, l.book.frozen key⟩)
    (hnonneg : ∀ key, 0 ≤ l.book.available key) (hn : l.book.Named) (op : Operation × Bool) : Step l (l.call op) := by
  obtain ⟨op, stored⟩ := op
  cases op with
  | preFreeze newID req => exact step_preFreeze l newID req stored
  | releaseFreeze freezeID => exact step_releaseFreeze hn freezeID stored
  | releaseFreezeAmount freezeID amount => exact step_releaseFreezeAmount hn freezeID amount stored
  | consumeFreeze freezeID amount => exact step_consumeFreeze hn freezeID amount stored
  | credit req =>
    refine step_withStore (a := req.amount) hagree (fun hamount ↦ ?_)
      (fun key hamount ↦ .inl ⟨hamount, rfl⟩) stored
    rw [← normalizeRequest_amount]
    refine BalanceStore.applyCreditEvent_answer _ _ ?_ ?_
    · rwa [normalizeRequest_amount]
    · rw [hagree]
      exact hnonneg _
  | debit req =>
    refine step_withStore (a := -req.amount) hagree (fun _ ↦ ?_) (fun key _ ↦ .inr ?_) stored
    · rw [← normalizeRequest_amount]
      exact BalanceStore.applyDebitEvent_answer _ _
    · rw [neg_neg]

/-! ## The invariant -/

/-- A record as it is kept under an id. -/
structure Kept (id : String) (record : FreezeRecord) : Prop where
  freezeID : record.freezeID = id
  original : 0 < record.originalAmount
  nonneg : 0 ≤ record.amount
  active : record.released = false ∧ record.consumed = false ↔ record.amount ≠ 0

/-- What calls keep: correctness, and what it needs to be kept. -/
structure Sound (l : LiveBook) : Prop extends Correct l where
  named : l.book.Named
  finite : FinitelyMany l.book.freezes
  records : ∀ id record, l.book.freezes id = some record → Kept id record
  /-- The balance a freeze was taken from has a row. -/
  backed : ∀ id record, l.book.freezes id = some record →
    (l.book.balances (balanceKey record.userID record.asset)).isSome
  /-- Nothing was drawn from a freeze that does not exist. -/
  unused : ∀ id, l.book.freezes id = none →
    (l.log.map (Effect.releasedFrom id)).sum + (l.log.map (Effect.consumedFrom id)).sum = 0

theorem sound_empty : Sound .empty where
  available_nonneg _ := le_rfl
  frozen_eq _ := (total_of_none _ fun _ ↦ rfl).symm
  original_eq _ _ h := nomatch h
  total_eq _ := rfl
  balances_eq _ := rfl
  rows _ h := h
  freezes_eq _ := rfl
  named _ _ h := nomatch h
  finite := finitelyMany_none
  records _ _ h := nomatch h
  backed _ _ h := nomatch h
  unused _ _ := rfl

variable {record : FreezeRecord}

theorem Kept.openAmount {id : String} (h : Kept id record) (key : BalanceKey) :
    record.openAmount key = if balanceKey record.userID record.asset = key then record.amount else 0 := by
  rw [FreezeRecord.openAmount]
  by_cases hkey : balanceKey record.userID record.asset = key
  · by_cases hactive : record.amount = 0
    · rw [hactive, ite_self, ite_self]
    · rw [if_pos ⟨hkey, h.active.mpr hactive⟩, if_pos hkey]
  · rw [if_neg fun h ↦ hkey h.1, if_neg hkey]

theorem Kept.toRow {id : String} (h : Kept id record) :
    record.toRow = ⟨record.userID, record.asset, record.refType, record.refID, record.originalAmount,
      record.amount, record.status⟩ := by
  rw [FreezeRecord.toRow, if_neg (not_le.mpr h.original)]

/-- The stored balances after the rows of a changed key have been persisted. -/
theorem holding_upsert {book book' : BalanceBook} {userID : ℤ} {asset : String} {a f : ℤ}
    (hagree : ∀ key, store.holding key = ⟨book.available key, book.frozen key⟩)
    (hmoves : Moves book book' (balanceKey userID asset) a f) (hnamed : book'.Named) (freeze : FreezeRecord)
    (key : BalanceKey) :
    (store.upsertBalanceAndFreeze (book'.row userID asset) freeze).holding key =
      ⟨book'.available key, book'.frozen key⟩ := by
  simp only [BalanceStore.holding, BalanceStore.upsertBalanceAndFreeze, hnamed.row, Function.update_apply]
  split_ifs with hkey
  · rw [hkey, Option.getD_some, row_available, row_frozen]
  · rw [hmoves.available, hmoves.frozen, if_neg hkey, if_neg hkey, add_zero, add_zero]
    exact hagree key

theorem rows_upsert {book book' : BalanceBook} {userID : ℤ} {asset : String} {a f : ℤ}
    (hrows : ∀ key, (store.balances key).isSome → (book.balances key).isSome)
    (hmoves : Moves book book' (balanceKey userID asset) a f) (hnamed : book'.Named)
    (hrow : (book'.balances (balanceKey userID asset)).isSome) (freeze : FreezeRecord) {key : BalanceKey}
    (hkey : ((store.upsertBalanceAndFreeze (book'.row userID asset) freeze).balances key).isSome) :
    (book'.balances key).isSome := by
  by_cases heq : key = balanceKey userID asset
  · rwa [heq]
  · simp only [BalanceStore.upsertBalanceAndFreeze, hnamed.row, Function.update_of_ne heq] at hkey
    exact hmoves.rows key (hrows key hkey)

theorem Sound.idle (h : l.Sound) (hbook : Untouched l.book l'.book)
    (hstore : l'.store = l.store) (hlog : l'.log = l.log) : l'.Sound := by
  have havailable : ∀ key, l'.book.available key = l.book.available key := fun key ↦ by
    simpa using (hbook.moves key).available key
  have hfrozen : ∀ key, l'.book.frozen key = l.book.frozen key := fun key ↦ by
    simpa using (hbook.moves key).frozen key
  refine ⟨⟨?_, ?_, ?_, ?_, ?_, fun key hkey ↦ ?_, ?_⟩, (hbook.moves (0, "")).named h.named, ?_, ?_,
    fun id record hr ↦ ?_, ?_⟩
  · simpa only [havailable] using h.available_nonneg
  · simpa only [hfrozen, hbook.freezes] using h.frozen_eq
  · simpa only [hbook.freezes, hlog] using h.original_eq
  · simpa only [BalanceBook.total, havailable, hfrozen, hlog] using h.total_eq
  · simpa only [hstore, havailable, hfrozen] using h.balances_eq
  · rw [hstore] at hkey
    exact (hbook.moves key).rows key (h.rows key hkey)
  · simpa only [hstore, hbook.freezes] using h.freezes_eq
  · simpa only [hbook.freezes] using h.finite
  · simpa only [hbook.freezes] using h.records
  · rw [hbook.freezes] at hr
    exact (hbook.moves (0, "")).rows _ (h.backed id record hr)
  · simpa only [hbook.freezes, hlog] using h.unused

theorem Sound.applied (h : l.Sound) {key : BalanceKey} {effect : Effect}
    (happlies : Applies l key a effect l') : l'.Sound := by
  have hgain : ∀ k, effect.gain k = if k = key then a else 0 := by
    intro k
    rcases happlies.effect_eq with ⟨-, rfl⟩ | rfl
    · simp only [Effect.gain, eq_comm]
    · simp only [Effect.gain, neg_neg, eq_comm]
  have hreleased : ∀ id, effect.releasedFrom id = 0 ∧ effect.consumedFrom id = 0 := by
    intro id
    rcases happlies.effect_eq with ⟨-, rfl⟩ | rfl
    · exact ⟨rfl, rfl⟩
    · exact ⟨rfl, rfl⟩
  have hfrozen : ∀ k, l'.book.frozen k = l.book.frozen k := fun k ↦ by
    simpa using happlies.moves.frozen k
  refine ⟨⟨fun k ↦ ?_, ?_, ?_, fun k ↦ ?_, happlies.holding, fun k hk ↦ ?_, ?_⟩,
    happlies.moves.named h.named, ?_, ?_, fun id record hr ↦ ?_, ?_⟩
  · rw [happlies.moves.available]
    have hcovered := happlies.covered
    have hnonneg := h.available_nonneg k
    split_ifs with hk
    · subst hk
      omega
    · omega
  · simpa only [hfrozen, happlies.freezes] using h.frozen_eq
  · simpa only [happlies.freezes, happlies.log, List.map_cons, List.sum_cons, hreleased, zero_add]
      using h.original_eq
  · rw [happlies.moves.total, h.total_eq, happlies.log, List.map_cons, List.sum_cons, hgain, add_zero, add_comm]
  · rcases happlies.rows k hk with rfl | hk
    · exact happlies.row
    · exact happlies.moves.rows k (h.rows k hk)
  · simpa only [happlies.storeFreezes, happlies.freezes] using h.freezes_eq
  · simpa only [happlies.freezes] using h.finite
  · simpa only [happlies.freezes] using h.records
  · rw [happlies.freezes] at hr
    exact happlies.moves.rows _ (h.backed id record hr)
  · simpa only [happlies.freezes, happlies.log, List.map_cons, List.sum_cons, hreleased, zero_add]
      using h.unused

/-- A record after one was written is the new one or an old one. -/
theorem update_eq_some {freezes freezes' : String → Option FreezeRecord} {freezeID id : String}
    {record r : FreezeRecord} (h : freezes' = Function.update freezes freezeID (some record))
    (hr : freezes' id = some r) : id = freezeID ∧ r = record ∨ id ≠ freezeID ∧ freezes id = some r := by
  rw [h, Function.update_apply] at hr
  split_ifs at hr with hid
  · exact .inl ⟨hid, (Option.some_inj.mp hr).symm⟩
  · exact .inr ⟨hid, hr⟩

theorem Sound.froze (h : l.Sound) {newID : String} {req : FreezeRequest}
    (hbook : Frozen l.book newID req l'.book record)
    (hstore : l'.store = l.store.upsertBalanceAndFreeze (l'.book.row req.userID req.asset) record)
    (hlog : l'.log = l.log) : l'.Sound := by
  have hnamed := hbook.moves.named h.named
  have hkept : Kept record.freezeID record := by
    rw [hbook.record_eq]
    exact ⟨rfl, hbook.pos.2, hbook.pos.2.le, by simpa using hbook.pos.2.ne'⟩
  have hkey : balanceKey record.userID record.asset = balanceKey req.userID req.asset := by
    rw [hbook.record_eq, balanceKey_normalizeAsset]
  have hamount : record.amount = req.amount ∧ record.originalAmount = req.amount := by
    rw [hbook.record_eq]
    exact ⟨rfl, rfl⟩
  refine ⟨⟨fun k ↦ ?_, fun k ↦ ?_, fun id r hr ↦ ?_, fun k ↦ ?_, fun k ↦ ?_, fun k hk ↦ ?_, fun id ↦ ?_⟩,
    hnamed, ?_, fun id r hr ↦ ?_, fun id r hr ↦ ?_, fun id hid ↦ ?_⟩
  · rw [hbook.moves.available]
    have hcovered := hbook.covered
    have hnonneg := h.available_nonneg k
    split_ifs with hk
    · subst hk
      omega
    · omega
  · rw [hbook.moves.frozen, hbook.freezes, total_update _ h.finite, h.frozen_eq, hbook.fresh, weigh_none,
      weigh_some, hkept.openAmount, hkey, hamount.1, sub_zero]
    simp only [eq_comm]
  · rw [hlog]
    rcases update_eq_some hbook.freezes hr with ⟨rfl, rfl⟩ | ⟨-, hold⟩
    · rw [hamount.1, hamount.2, add_assoc, h.unused _ hbook.fresh, add_zero]
    · exact h.original_eq id r hold
  · rw [hbook.moves.total, h.total_eq, hlog, neg_add_cancel, ite_self, add_zero]
  · rw [hstore]
    exact holding_upsert h.balances_eq hbook.moves hnamed record k
  · rw [hstore] at hk
    exact rows_upsert h.rows hbook.moves hnamed hbook.row record hk
  · rw [hstore, BalanceStore.upsertBalanceAndFreeze, hbook.freezes]
    dsimp only
    rw [Function.update_apply, Function.update_apply]
    split_ifs with hid
    · rw [h.freezes_eq, hbook.fresh, Option.map_none, BalanceStore.mergeFreeze, hkept.toRow, Option.map_some]
    · exact h.freezes_eq id
  · rw [hbook.freezes]
    exact h.finite.update _ _
  · rcases update_eq_some hbook.freezes hr with ⟨rfl, rfl⟩ | ⟨-, hold⟩
    · exact hkept
    · exact h.records id r hold
  · rcases update_eq_some hbook.freezes hr with ⟨-, rfl⟩ | ⟨-, hold⟩
    · rw [hkey]
      exact hbook.row
    · exact hbook.moves.rows _ (h.backed id r hold)
  · rw [hlog]
    refine h.unused id ?_
    rw [hbook.freezes, Function.update_apply] at hid
    split_ifs at hid with heq
    exact hid

theorem Sound.drew (h : l.Sound) {freezeID : String} {record record' : FreezeRecord}
    {a amount : ℤ} {effect : Effect} (hdraws : Draws l freezeID record record' a amount effect l') : l'.Sound := by
  obtain ⟨hopen, hdrawn, hstore, hlog, hrecord, hactive, hle, hpos, heffect⟩ := hdraws
  have hnamed := hdrawn.moves.named h.named
  have hold := h.records freezeID record hopen.lookup
  have hamount : 0 < amount := hpos (lt_of_le_of_ne hold.nonneg (hold.active.mp hopen.active).symm)
  have hnew : record'.amount = record.amount - amount := by rw [hrecord]
  have horiginal : record'.originalAmount = record.originalAmount := by rw [hrecord]
  have hkey : balanceKey record'.userID record'.asset = balanceKey record.userID record.asset := by rw [hrecord]
  have hid' : record'.freezeID = freezeID := by
    rw [hrecord]
    exact hold.freezeID
  have hkept : Kept freezeID record' := by
    refine ⟨hid', ?_, ?_, hactive⟩
    · rw [horiginal]
      exact hold.original
    · rw [hnew]
      omega
  -- what the effect says about the freeze and about what the user has
  have hdrawnFrom : ∀ id, effect.releasedFrom id + effect.consumedFrom id =
      if id = freezeID then amount else 0 := by
    intro id
    rcases heffect with ⟨-, rfl⟩ | ⟨-, rfl⟩
    · simp only [Effect.releasedFrom, Effect.consumedFrom, add_zero, eq_comm]
    · simp only [Effect.releasedFrom, Effect.consumedFrom, zero_add, eq_comm]
  have hgain : ∀ k, effect.gain k = if k = balanceKey record.userID record.asset then a - amount else 0 := by
    intro k
    rcases heffect with ⟨rfl, rfl⟩ | ⟨rfl, rfl⟩
    · rw [Effect.gain, sub_self, ite_self]
    · simp only [Effect.gain, zero_sub, eq_comm]
  have ha : 0 ≤ a := by
    rcases heffect with ⟨rfl, -⟩ | ⟨rfl, -⟩
    · exact hamount.le
    · exact le_rfl
  refine ⟨⟨fun k ↦ ?_, fun k ↦ ?_, fun id r hr ↦ ?_, fun k ↦ ?_, fun k ↦ ?_, fun k hk ↦ ?_, fun id ↦ ?_⟩,
    hnamed, ?_, fun id r hr ↦ ?_, fun id r hr ↦ ?_, fun id hid ↦ ?_⟩
  · rw [hdrawn.moves.available]
    have hnonneg := h.available_nonneg k
    split_ifs <;> omega
  · rw [hdrawn.moves.frozen, hdrawn.freezes, total_update _ h.finite, h.frozen_eq, hopen.lookup, weigh_some,
      weigh_some, hkept.openAmount, hold.openAmount, hkey, hnew]
    simp only [eq_comm (a := k)]
    split_ifs <;> ring
  · have hsum := hdrawnFrom id
    rw [hlog, List.map_cons, List.sum_cons, List.map_cons, List.sum_cons]
    rcases update_eq_some hdrawn.freezes hr with ⟨rfl, rfl⟩ | ⟨hne, hold⟩
    · rw [if_pos rfl] at hsum
      have hbefore := h.original_eq id record hopen.lookup
      omega
    · rw [if_neg hne] at hsum
      have hbefore := h.original_eq id r hold
      omega
  · rw [hdrawn.moves.total, h.total_eq, hlog, List.map_cons, List.sum_cons, hgain, ← sub_eq_add_neg, add_comm]
  · rw [hstore]
    exact holding_upsert h.balances_eq hdrawn.moves hnamed record' k
  · rw [hstore] at hk
    exact rows_upsert h.rows hdrawn.moves hnamed (hdrawn.moves.rows _ hopen.row) record' hk
  · rw [hstore, BalanceStore.upsertBalanceAndFreeze, hdrawn.freezes]
    dsimp only
    rw [hid', Function.update_apply, Function.update_apply]
    split_ifs with hid
    · rw [h.freezes_eq, hopen.lookup, Option.map_some, BalanceStore.mergeFreeze, hkept.toRow, Option.map_some,
        if_pos hold.original, horiginal]
    · exact h.freezes_eq id
  · rw [hdrawn.freezes]
    exact h.finite.update _ _
  · rcases update_eq_some hdrawn.freezes hr with ⟨rfl, rfl⟩ | ⟨-, hold⟩
    · exact hkept
    · exact h.records id r hold
  · rcases update_eq_some hdrawn.freezes hr with ⟨-, rfl⟩ | ⟨-, hold⟩
    · rw [hkey]
      exact hdrawn.moves.rows _ hopen.row
    · exact hdrawn.moves.rows _ (h.backed id r hold)
  · rw [hdrawn.freezes, Function.update_apply] at hid
    split_ifs at hid with hne
    have hsum := hdrawnFrom id
    rw [if_neg hne] at hsum
    have hbefore := h.unused id hid
    rw [hlog, List.map_cons, List.sum_cons, List.map_cons, List.sum_cons]
    omega

/-- One call keeps the book sound. -/
theorem Sound.call (h : l.Sound) (op : Operation × Bool) : (l.call op).Sound := by
  cases step_call l h.balances_eq h.available_nonneg h.named op with
  | idle book store log => exact h.idle book store log
  | froze newID req record book store log => exact h.froze book store log
  | drew freezeID record record' a amount effect draws => exact h.drew draws
  | applied key a effect applies => exact h.applied applies

theorem Sound.calls (h : l.Sound) (ops : List (Operation × Bool)) : (l.calls ops).Sound := by
  induction ops generalizing l with
  | nil => exact h
  | cons op ops ih => exact ih (h.call op)

/-- **A sequential book is correct.** Whatever is called, with whatever arguments, and whichever calls of the
store fail. -/
theorem correct_calls (ops : List (Operation × Bool)) : (LiveBook.empty.calls ops).Correct :=
  (sound_empty.calls ops).toCorrect

end LiveBook

end FunnyOption.Account
