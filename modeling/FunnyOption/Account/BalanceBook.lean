import FunnyOption.Foundation.Text

/-!
# The balance book

`BalanceBook` of the account service holds what every user has available and frozen, the freeze
records, and the references that have been applied. Its methods take the lock for their whole
effect, so each is one function from a book to a book. They return a book also when they fail:
`PreFreeze` creates the balance row it looks at before it checks it.

Balances are keyed by the text `user:ASSET`; here the key is the pair it is rendered from. Amounts
are integers. The store behind the book mirrors each change and undoes it if that fails, which
leaves the book as it was.

## Moves

What a method does to the money is a *move*: it adds to the available and to the frozen amount of
one key and leaves every other key alone. Each method has one lemma that states its move together
with what it does to freezes and references, and no later proof unfolds a method again.
-/

open Foundation

namespace FunnyOption.Account

/-! ## Data -/

/-- The errors of the balance book. -/
inductive BookError where
  | invalidAsset
  | invalidAmount
  | insufficientBalance
  | freezeNotFound
  | freezeAlreadyClosed
  | freezeAlreadyExists
  | releaseExceedsFrozen
  | consumeExceedsFrozen
  deriving DecidableEq

/-- `model.Balance`. -/
structure Balance where
  userID : ℤ
  asset : String
  available : ℤ
  frozen : ℤ
  deriving DecidableEq

/-- `model.FreezeRecord`. -/
structure FreezeRecord where
  freezeID : String
  userID : ℤ
  asset : String
  refType : String
  refID : String
  originalAmount : ℤ
  amount : ℤ
  released : Bool
  consumed : Bool
  deriving DecidableEq

/-- `FreezeRequest`. -/
structure FreezeRequest where
  freezeID : String
  userID : ℤ
  asset : String
  refType : String
  refID : String
  amount : ℤ

/-- `CreditRequest`, and `DebitRequest`, which has the same fields. -/
structure RefRequest where
  userID : ℤ
  asset : String
  amount : ℤ
  refType : String
  refID : String

/-- `normalizeAsset` of the account service. -/
def normalizeAsset (asset : String) : String := toUpper (trimSpace asset)

/-- The key of a balance: a user and a normalised asset. -/
abbrev BalanceKey := ℤ × String

/-- `balanceKey`. -/
def balanceKey (userID : ℤ) (asset : String) : BalanceKey := (userID, normalizeAsset asset)

@[simp]
theorem balanceKey_normalizeAsset (userID : ℤ) (asset : String) :
    balanceKey userID (normalizeAsset asset) = balanceKey userID asset := by
  simp only [balanceKey, normalizeAsset, trimSpace_toUpper, trimSpace_trimSpace, toUpper_toUpper]

/-- `BalanceBook`. -/
structure BalanceBook where
  /-- The balance rows. -/
  balances : BalanceKey → Option Balance
  /-- The freeze records by their id. -/
  freezes : String → Option FreezeRecord
  /-- The keys of the references applied so far. -/
  processedRefs : List String

/-- `NewBalanceBook`. -/
def BalanceBook.empty : BalanceBook := ⟨fun _ ↦ none, fun _ ↦ none, []⟩

namespace BalanceBook

variable (book : BalanceBook)

/-- The row of a key, with the zero row that `GetBalance` and the writers use for a missing one. -/
def row (userID : ℤ) (asset : String) : Balance :=
  (book.balances (balanceKey userID asset)).getD ⟨userID, normalizeAsset asset, 0, 0⟩

/-- Write a balance row. -/
def setRow (key : BalanceKey) (balance : Balance) : BalanceBook :=
  { book with balances := Function.update book.balances key (some balance) }

/-- Write a freeze record. -/
def setFreeze (freezeID : String) (record : FreezeRecord) : BalanceBook :=
  { book with freezes := Function.update book.freezes freezeID (some record) }

/-! ## Methods -/

/-- The id of a new freeze: the requested one, or `newID`, which `NewID` makes up. -/
def freezeIDFor (newID : String) (req : FreezeRequest) : String :=
  if trimSpace req.freezeID = "" then newID else trimSpace req.freezeID

/-- `PreFreeze`. -/
def preFreeze (newID : String) (req : FreezeRequest) : BalanceBook × Except BookError FreezeRecord :=
  if req.userID ≤ 0 then (book, .error .invalidAmount)
  else if req.amount ≤ 0 then (book, .error .invalidAmount)
  else if normalizeAsset req.asset = "" then (book, .error .invalidAsset)
  else
    let key := balanceKey req.userID req.asset
    let balance := book.row req.userID req.asset
    -- a missing row is created before the check
    let book := book.setRow key balance
    if balance.available < req.amount then (book, .error .insufficientBalance)
    else
      let freezeID := freezeIDFor newID req
      if (book.freezes freezeID).isSome then (book, .error .freezeAlreadyExists)
      else
        let record : FreezeRecord :=
          ⟨freezeID, req.userID, normalizeAsset req.asset, req.refType, req.refID, req.amount,
            req.amount, false, false⟩
        let balance := { balance with
          available := balance.available - req.amount, frozen := balance.frozen + req.amount }
        ((book.setRow key balance).setFreeze freezeID record, .ok record)

/-- `ApplyExternalFreeze`. -/
def applyExternalFreeze (newID : String) (req : FreezeRequest) : BalanceBook × Except BookError FreezeRecord :=
  if trimSpace req.freezeID = "" then (book, .error .freezeNotFound) else book.preFreeze newID req

/-- `getActiveFreezeLocked`. -/
def getActiveFreeze (freezeID : String) : Except BookError (FreezeRecord × Balance) :=
  match book.freezes freezeID with
  | none => .error .freezeNotFound
  | some record =>
    if record.released || record.consumed then .error .freezeAlreadyClosed
    else
      match book.balances (balanceKey record.userID record.asset) with
      | none => .error .freezeNotFound
      | some balance => .ok (record, balance)

/-- `ReleaseFreeze`: everything that is left of a freeze becomes available. -/
def releaseFreeze (freezeID : String) : BalanceBook × Except BookError Unit :=
  match book.getActiveFreeze freezeID with
  | .error e => (book, .error e)
  | .ok (record, balance) =>
    let balance := { balance with
      frozen := balance.frozen - record.amount, available := balance.available + record.amount }
    ((book.setRow (balanceKey record.userID record.asset) balance).setFreeze freezeID
      { record with amount := 0, released := true }, .ok ())

/-- `ReleaseFreezeAmount`: a part of a freeze becomes available. -/
def releaseFreezeAmount (freezeID : String) (amount : ℤ) : BalanceBook × Except BookError Unit :=
  if amount ≤ 0 then (book, .error .invalidAmount)
  else
    match book.getActiveFreeze freezeID with
    | .error e => (book, .error e)
    | .ok (record, balance) =>
      if amount > record.amount then (book, .error .releaseExceedsFrozen)
      else
        let balance := { balance with
          frozen := balance.frozen - amount, available := balance.available + amount }
        ((book.setRow (balanceKey record.userID record.asset) balance).setFreeze freezeID
          { record with
            amount := record.amount - amount
            released := record.released || record.amount - amount == 0 }, .ok ())

/-- `ConsumeFreeze`: a part of a freeze leaves the user. -/
def consumeFreeze (freezeID : String) (amount : ℤ) : BalanceBook × Except BookError Unit :=
  if amount ≤ 0 then (book, .error .invalidAmount)
  else
    match book.getActiveFreeze freezeID with
    | .error e => (book, .error e)
    | .ok (record, balance) =>
      if amount > record.amount then (book, .error .consumeExceedsFrozen)
      else
        let balance := { balance with frozen := balance.frozen - amount }
        ((book.setRow (balanceKey record.userID record.asset) balance).setFreeze freezeID
          { record with
            amount := record.amount - amount
            consumed := record.consumed || record.amount - amount == 0 }, .ok ())

/-- `FreezeAmount`: what is left of a freeze, if there is such a freeze. -/
def freezeAmount (freezeID : String) : Option ℤ :=
  (book.freezes freezeID).map fun record ↦
    if record.released || record.consumed then 0 else record.amount

/-- `CreditAvailable`. -/
def creditAvailable (userID : ℤ) (asset : String) (amount : ℤ) : BalanceBook × Except BookError Unit :=
  if userID ≤ 0 ∨ amount ≤ 0 then (book, .error .invalidAmount)
  else if normalizeAsset asset = "" then (book, .error .invalidAsset)
  else
    let balance := book.row userID asset
    (book.setRow (balanceKey userID asset) { balance with available := balance.available + amount }, .ok ())

/-- `DebitAvailable`. -/
def debitAvailable (userID : ℤ) (asset : String) (amount : ℤ) : BalanceBook × Except BookError Unit :=
  if userID ≤ 0 ∨ amount ≤ 0 then (book, .error .invalidAmount)
  else if normalizeAsset asset = "" then (book, .error .invalidAsset)
  else
    match book.balances (balanceKey userID asset) with
    | none => (book, .error .insufficientBalance)
    | some balance =>
      if balance.available < amount then (book, .error .insufficientBalance)
      else (book.setRow (balanceKey userID asset)
        { balance with available := balance.available - amount }, .ok ())

/-- The key under which a reference is remembered. -/
def refKey (refType refID : String) : String := toUpper (trimSpace refType) ++ ":" ++ trimSpace refID

/-- The body shared by the two methods with a reference: a reference that was applied before is
answered without effect. -/
def withRef (apply : BalanceBook → ℤ → String → ℤ → BalanceBook × Except BookError Unit)
    (req : RefRequest) : BalanceBook × Except BookError Bool :=
  if req.userID ≤ 0 ∨ req.amount ≤ 0 then (book, .error .invalidAmount)
  else if normalizeAsset req.asset = "" then (book, .error .invalidAsset)
  else if trimSpace req.refType = "" ∨ trimSpace req.refID = "" then (book, .error .invalidAmount)
  else
    let key := refKey req.refType req.refID
    if key ∈ book.processedRefs then (book, .ok false)
    else
      match apply book req.userID req.asset req.amount with
      | (book, .error e) => (book, .error e)
      | (book, .ok ()) => ({ book with processedRefs := key :: book.processedRefs }, .ok true)

/-- `CreditAvailableWithRef`; the result says whether it was applied now. -/
def creditAvailableWithRef (req : RefRequest) : BalanceBook × Except BookError Bool :=
  book.withRef creditAvailable req

/-- `DebitAvailableWithRef`; the result says whether it was applied now. -/
def debitAvailableWithRef (req : RefRequest) : BalanceBook × Except BookError Bool := book.withRef debitAvailable req

/-! ## Moves -/

/-- The available amount of a key. -/
def available (key : BalanceKey) : ℤ := ((book.balances key).map Balance.available).getD 0

/-- The frozen amount of a key. -/
def frozen (key : BalanceKey) : ℤ := ((book.balances key).map Balance.frozen).getD 0

/-- All a user has of an asset. -/
def total (key : BalanceKey) : ℤ := book.available key + book.frozen key

/-- Each row has the user and the asset it is kept under. -/
def Named : Prop := ∀ key balance, book.balances key = some balance → (balance.userID, balance.asset) = key

/-- The second book has `a` more available and `f` more frozen at one key, and the same elsewhere. -/
structure Moves (book book' : BalanceBook) (key : BalanceKey) (a f : ℤ) : Prop where
  available : ∀ k, book'.available k = book.available k + if k = key then a else 0
  frozen : ∀ k, book'.frozen k = book.frozen k + if k = key then f else 0
  /-- Rows are never deleted. -/
  rows : ∀ k, (book.balances k).isSome → (book'.balances k).isSome
  named : book.Named → book'.Named

variable {book} {book' book'' : BalanceBook} {key : BalanceKey} {a f a' f' : ℤ}

theorem Moves.refl (book : BalanceBook) (key : BalanceKey) : Moves book book key 0 0 where
  available k := by simp
  frozen k := by simp
  rows _ h := h
  named h := h

theorem Moves.trans (h : Moves book book' key a f) (h' : Moves book' book'' key a' f') :
    Moves book book'' key (a + a') (f + f') where
  available k := by
    rw [h'.available, h.available]
    split_ifs <;> ring
  frozen k := by
    rw [h'.frozen, h.frozen]
    split_ifs <;> ring
  rows k hk := h'.rows k (h.rows k hk)
  named := h'.named ∘ h.named

/-- A move of nothing is one at any key. -/
theorem Moves.zero (h : Moves book book' key 0 0) (key' : BalanceKey) : Moves book book' key' 0 0 where
  available k := by simpa using h.available k
  frozen k := by simpa using h.frozen k
  rows := h.rows
  named := h.named

theorem Moves.total (h : Moves book book' key a f) (k : BalanceKey) :
    book'.total k = book.total k + if k = key then a + f else 0 := by
  rw [BalanceBook.total, BalanceBook.total, h.available, h.frozen]
  split_ifs <;> ring

/-- Writing a row moves the difference. -/
theorem moves_setRow (balance : Balance) (hnamed : book.Named → (balance.userID, balance.asset) = key) :
    Moves book (book.setRow key balance) key (balance.available - book.available key)
      (balance.frozen - book.frozen key) where
  available k := by
    simp only [BalanceBook.available, setRow, Function.update_apply]
    split_ifs with hk
    · simp [hk]
    · simp
  frozen k := by
    simp only [BalanceBook.frozen, setRow, Function.update_apply]
    split_ifs with hk
    · simp [hk]
    · simp
  rows k hk := by
    simp only [setRow, Function.update_apply]
    split_ifs
    · rfl
    · exact hk
  named h k b hb := by
    simp only [setRow, Function.update_apply] at hb
    split_ifs at hb with hk
    · rw [← Option.some_inj.mp hb, hk]
      exact hnamed h
    · exact h k b hb

/-- Freeze records and references carry no money. -/
theorem Moves.of_balances_eq (h : Moves book book' key a f) (heq : book''.balances = book'.balances) :
    Moves book book'' key a f where
  available k := by rw [BalanceBook.available, heq]; exact h.available k
  frozen k := by rw [BalanceBook.frozen, heq]; exact h.frozen k
  rows k hk := by rw [heq]; exact h.rows k hk
  named hn := by rw [Named, heq]; exact h.named hn

theorem Named.row (h : book.Named) (userID : ℤ) (asset : String) :
    ((book.row userID asset).userID, (book.row userID asset).asset) = balanceKey userID asset := by
  rw [BalanceBook.row]
  cases hb : book.balances (balanceKey userID asset) with
  | none => rfl
  | some balance => exact h _ balance hb

theorem row_available (book : BalanceBook) (userID : ℤ) (asset : String) :
    (book.row userID asset).available = book.available (balanceKey userID asset) := by
  rw [row, available]
  cases book.balances (balanceKey userID asset) <;> rfl

theorem row_frozen (book : BalanceBook) (userID : ℤ) (asset : String) :
    (book.row userID asset).frozen = book.frozen (balanceKey userID asset) := by
  rw [row, frozen]
  cases book.balances (balanceKey userID asset) <;> rfl

theorem available_of_some {balance : Balance} (h : book.balances key = some balance) :
    book.available key = balance.available := by
  rw [available, h]
  rfl

theorem frozen_of_some {balance : Balance} (h : book.balances key = some balance) :
    book.frozen key = balance.frozen := by
  rw [frozen, h]
  rfl

/-- A failed `PreFreeze`: at most a zero row is new. -/
structure Untouched (book book' : BalanceBook) : Prop where
  moves : ∀ key, Moves book book' key 0 0
  freezes : book'.freezes = book.freezes
  processedRefs : book'.processedRefs = book.processedRefs

theorem Untouched.refl (book : BalanceBook) : Untouched book book := ⟨Moves.refl book, rfl, rfl⟩

/-- A record taken by `PreFreeze`. -/
structure Frozen (book : BalanceBook) (newID : String) (req : FreezeRequest) (book' : BalanceBook)
    (record : FreezeRecord) : Prop where
  moves : Moves book book' (balanceKey req.userID req.asset) (-req.amount) req.amount
  record_eq : record = ⟨freezeIDFor newID req, req.userID, normalizeAsset req.asset, req.refType,
    req.refID, req.amount, req.amount, false, false⟩
  fresh : book.freezes record.freezeID = none
  freezes : book'.freezes = Function.update book.freezes record.freezeID (some record)
  processedRefs : book'.processedRefs = book.processedRefs
  pos : 0 < req.userID ∧ 0 < req.amount
  asset : normalizeAsset req.asset ≠ ""
  covered : req.amount ≤ book.available (balanceKey req.userID req.asset)
  row : (book'.balances (balanceKey req.userID req.asset)).isSome

/-- What `PreFreeze` does. -/
theorem preFreeze_cases (book : BalanceBook) (newID : String) (req : FreezeRequest) :
    (∃ e, (book.preFreeze newID req).2 = .error e ∧ Untouched book (book.preFreeze newID req).1) ∨
      ∃ record, (book.preFreeze newID req).2 = .ok record ∧
        Frozen book newID req (book.preFreeze newID req).1 record := by
  have hrow : Untouched book
      (book.setRow (balanceKey req.userID req.asset) (book.row req.userID req.asset)) := by
    have h := moves_setRow _ fun h : book.Named ↦ h.row req.userID req.asset
    rw [row_available, row_frozen, sub_self, sub_self] at h
    exact ⟨h.zero, rfl, rfl⟩
  simp only [preFreeze]
  split_ifs with huser hamount hasset hcovered hexists
  · exact .inl ⟨_, rfl, .refl book⟩
  · exact .inl ⟨_, rfl, .refl book⟩
  · exact .inl ⟨_, rfl, .refl book⟩
  · exact .inl ⟨_, rfl, hrow⟩
  · exact .inl ⟨_, rfl, hrow⟩
  · refine .inr ⟨_, rfl, ?_, rfl, ?_, ?_, ?_, ⟨not_le.mp huser, not_le.mp hamount⟩, hasset, ?_, ?_⟩
    · have h := moves_setRow { book.row req.userID req.asset with
        available := (book.row req.userID req.asset).available - req.amount
        frozen := (book.row req.userID req.asset).frozen + req.amount } fun h ↦ h.row req.userID req.asset
      simp only [row_available, row_frozen, sub_sub_cancel_left, add_sub_cancel_left] at h
      refine h.of_balances_eq ?_
      simp [setRow, setFreeze, row_available, row_frozen]
    · simpa [setRow] using hexists
    · simp only [setRow, setFreeze]
    · simp only [setRow, setFreeze]
    · rw [← row_available]
      exact not_lt.mp hcovered
    · simp [setRow, setFreeze]

/-- A request that `PreFreeze` grants. -/
structure Grants (book : BalanceBook) (newID : String) (req : FreezeRequest) : Prop where
  pos : 0 < req.userID ∧ 0 < req.amount
  asset : normalizeAsset req.asset ≠ ""
  covered : req.amount ≤ book.available (balanceKey req.userID req.asset)
  fresh : book.freezes (freezeIDFor newID req) = none

variable {req : FreezeRequest}

theorem Frozen.grants {newID : String} {record : FreezeRecord} (h : Frozen book newID req book' record) :
    Grants book newID req := by
  refine ⟨h.pos, h.asset, h.covered, ?_⟩
  have hfresh := h.fresh
  rw [h.record_eq] at hfresh
  exact hfresh

/-- The converse: a request that can be granted is granted. -/
theorem preFreeze_of_grants {newID : String} (h : Grants book newID req) :
    ∃ record, (book.preFreeze newID req).2 = .ok record := by
  have hcovered : ¬ (book.row req.userID req.asset).available < req.amount := by
    rw [row_available]
    exact not_lt.mpr h.covered
  have hfresh : ¬ ((book.setRow (balanceKey req.userID req.asset)
      (book.row req.userID req.asset)).freezes (freezeIDFor newID req)).isSome := by
    simp only [setRow, h.fresh, Option.isSome_none, Bool.false_eq_true, not_false_eq_true]
  simp only [preFreeze, if_neg (not_le.mpr h.pos.1), if_neg (not_le.mpr h.pos.2), if_neg h.asset,
    if_neg hcovered, if_neg hfresh]
  exact ⟨_, rfl⟩

/-! ### Drawing on a freeze -/

/-- A freeze that can still be drawn on. -/
@[mk_iff]
structure Open (book : BalanceBook) (freezeID : String) (record : FreezeRecord) : Prop where
  lookup : book.freezes freezeID = some record
  active : record.released = false ∧ record.consumed = false
  row : (book.balances (balanceKey record.userID record.asset)).isSome

instance (book : BalanceBook) (freezeID : String) (record : FreezeRecord) : Decidable (Open book freezeID record) :=
  decidable_of_iff' _ (open_iff book freezeID record)

/-- A freeze that was just taken is open. -/
theorem Frozen.isOpen {newID : String} {record : FreezeRecord} (h : Frozen book newID req book' record) :
    Open book' record.freezeID record := by
  refine ⟨by rw [h.freezes, Function.update_self], ?_, ?_⟩
  · rw [h.record_eq]
    exact ⟨rfl, rfl⟩
  · rw [h.record_eq, balanceKey_normalizeAsset]
    exact h.row

/-- An open freeze was replaced by `record'`, while `a` became available and the frozen amount
changed by `f`. -/
structure Drawn (book : BalanceBook) (freezeID : String) (record record' : FreezeRecord) (a f : ℤ)
    (book' : BalanceBook) : Prop where
  moves : Moves book book' (balanceKey record.userID record.asset) a f
  freezes : book'.freezes = Function.update book.freezes freezeID (some record')
  processedRefs : book'.processedRefs = book.processedRefs

variable {freezeID : String} {record : FreezeRecord}

theorem getActiveFreeze_of_open (h : Open book freezeID record) :
    ∃ balance, book.balances (balanceKey record.userID record.asset) = some balance ∧
      book.getActiveFreeze freezeID = .ok (record, balance) := by
  obtain ⟨balance, hbalance⟩ := Option.isSome_iff_exists.mp h.row
  refine ⟨balance, hbalance, ?_⟩
  simp [getActiveFreeze, h.lookup, h.active, hbalance]

theorem getActiveFreeze_of_not_open (h : ∀ record, ¬ Open book freezeID record) :
    ∃ e, book.getActiveFreeze freezeID = .error e := by
  rw [getActiveFreeze]
  split
  · exact ⟨_, rfl⟩
  · next record hlookup =>
    split_ifs with hactive
    · exact ⟨_, rfl⟩
    · split
      · exact ⟨_, rfl⟩
      · next balance hbalance =>
        simp only [Bool.or_eq_true, not_or, Bool.not_eq_true] at hactive
        exact absurd ⟨hlookup, hactive, by rw [hbalance]; rfl⟩ (h record)

/-- Writing the row and the record of an open freeze. -/
theorem drawn_setRow_setFreeze (freezeID : String) {balance : Balance}
    (hbalance : book.balances (balanceKey record.userID record.asset) = some balance) (record' : FreezeRecord)
    (a f : ℤ) :
    Drawn book freezeID record record' a f
      ((book.setRow (balanceKey record.userID record.asset)
        ⟨balance.userID, balance.asset, balance.available + a, balance.frozen + f⟩).setFreeze freezeID
          record') := by
  refine ⟨?_, by simp only [setRow, setFreeze], by simp only [setRow, setFreeze]⟩
  have h := moves_setRow ⟨balance.userID, balance.asset, balance.available + a, balance.frozen + f⟩
    fun h ↦ h _ balance hbalance
  rw [available_of_some hbalance, frozen_of_some hbalance] at h
  simp only [add_sub_cancel_left] at h
  exact h.of_balances_eq (by simp only [setRow, setFreeze])

theorem releaseFreeze_of_open (h : Open book freezeID record) : (book.releaseFreeze freezeID).2 = .ok () ∧
      Drawn book freezeID record { record with amount := 0, released := true } record.amount
        (-record.amount) (book.releaseFreeze freezeID).1 := by
  obtain ⟨balance, hbalance, hactive⟩ := getActiveFreeze_of_open h
  simp only [releaseFreeze, hactive, sub_eq_add_neg, true_and]
  exact drawn_setRow_setFreeze freezeID hbalance _ _ _

theorem releaseFreeze_of_not_open (h : ∀ record, ¬ Open book freezeID record) :
    ∃ e, book.releaseFreeze freezeID = (book, .error e) := by
  obtain ⟨e, he⟩ := getActiveFreeze_of_not_open h
  exact ⟨e, by rw [releaseFreeze, he]⟩

theorem releaseFreezeAmount_of_open (h : Open book freezeID record) {amount : ℤ} (hpos : 0 < amount)
    (hle : amount ≤ record.amount) :
    (book.releaseFreezeAmount freezeID amount).2 = .ok () ∧ Drawn book freezeID record
        { record with
          amount := record.amount - amount
          released := record.released || record.amount - amount == 0 } amount (-amount)
        (book.releaseFreezeAmount freezeID amount).1 := by
  obtain ⟨balance, hbalance, hactive⟩ := getActiveFreeze_of_open h
  simp only [releaseFreezeAmount, if_neg (not_le.mpr hpos), hactive, if_neg (not_lt.mpr hle),
    gt_iff_lt, sub_eq_add_neg, true_and]
  exact drawn_setRow_setFreeze freezeID hbalance _ _ _

theorem consumeFreeze_of_open (h : Open book freezeID record) {amount : ℤ} (hpos : 0 < amount)
    (hle : amount ≤ record.amount) :
    (book.consumeFreeze freezeID amount).2 = .ok () ∧ Drawn book freezeID record
        { record with
          amount := record.amount - amount
          consumed := record.consumed || record.amount - amount == 0 } 0 (-amount)
        (book.consumeFreeze freezeID amount).1 := by
  obtain ⟨balance, hbalance, hactive⟩ := getActiveFreeze_of_open h
  have hdraw := drawn_setRow_setFreeze freezeID hbalance
    { record with
      amount := record.amount - amount
      consumed := record.consumed || record.amount - amount == 0 } 0 (-amount)
  rw [add_zero, ← sub_eq_add_neg] at hdraw
  simp only [consumeFreeze, if_neg (not_le.mpr hpos), hactive, if_neg (not_lt.mpr hle), gt_iff_lt, true_and]
  exact hdraw

/-- Drawing more than is open is refused. -/
theorem draw_of_not {amount : ℤ} (h : ∀ record, Open book freezeID record → 0 < amount → ¬ amount ≤ record.amount) :
    (∃ e, book.releaseFreezeAmount freezeID amount = (book, .error e)) ∧
      ∃ e, book.consumeFreeze freezeID amount = (book, .error e) := by
  rw [releaseFreezeAmount, consumeFreeze]
  by_cases hpos : amount ≤ 0
  · rw [if_pos hpos, if_pos hpos]
    exact ⟨⟨_, rfl⟩, _, rfl⟩
  rw [if_neg hpos, if_neg hpos]
  by_cases hopen : ∃ record, Open book freezeID record
  · obtain ⟨record, hopen⟩ := hopen
    obtain ⟨balance, -, hactive⟩ := getActiveFreeze_of_open hopen
    have hgt : amount > record.amount := not_le.mp (h record hopen (not_le.mp hpos))
    simp only [hactive, if_pos hgt]
    exact ⟨⟨_, rfl⟩, _, rfl⟩
  · obtain ⟨e, he⟩ := getActiveFreeze_of_not_open (not_exists.mp hopen)
    rw [he]
    exact ⟨⟨e, rfl⟩, e, rfl⟩

/-! ### Credits and debits -/

/-- A request with a reference was applied: it moved `a` and remembered its reference. -/
structure Applied (book : BalanceBook) (req : RefRequest) (a : ℤ) (book' : BalanceBook) : Prop where
  moves : Moves book book' (balanceKey req.userID req.asset) a 0
  freezes : book'.freezes = book.freezes
  processedRefs : book'.processedRefs = refKey req.refType req.refID :: book.processedRefs
  fresh : refKey req.refType req.refID ∉ book.processedRefs

/-- A request that passes the checks of the two methods with a reference. -/
structure RefRequest.Valid (req : RefRequest) : Prop where
  pos : 0 < req.userID ∧ 0 < req.amount
  asset : normalizeAsset req.asset ≠ ""
  ref : trimSpace req.refType ≠ "" ∧ trimSpace req.refID ≠ ""

variable {req : RefRequest}

theorem RefRequest.Valid.not_nonpos (h : RefRequest.Valid req) : ¬ (req.userID ≤ 0 ∨ req.amount ≤ 0) :=
  not_or.mpr ⟨not_le.mpr h.pos.1, not_le.mpr h.pos.2⟩

variable {apply : BalanceBook → ℤ → String → ℤ → BalanceBook × Except BookError Unit}

theorem withRef_of_valid (h : RefRequest.Valid req) (hfresh : refKey req.refType req.refID ∉ book.processedRefs) :
    book.withRef apply req =
      match apply book req.userID req.asset req.amount with
      | (book, .error e) => (book, .error e)
      | (book, .ok ()) =>
        ({ book with processedRefs := refKey req.refType req.refID :: book.processedRefs },
          .ok true) := by
  simp only [withRef, if_neg h.not_nonpos, if_neg h.asset, if_neg (not_or.mpr h.ref), if_neg hfresh]

theorem withRef_of_not (h : RefRequest.Valid req → refKey req.refType req.refID ∈ book.processedRefs) :
    (book.withRef apply req).1 = book ∧ (book.withRef apply req).2 ≠ .ok true := by
  rw [withRef]
  split_ifs with hpos hasset href
  · simp
  · simp
  · simp
  · push Not at hpos href
    simp [h ⟨hpos, hasset, href⟩]

theorem creditAvailableWithRef_of_valid (h : RefRequest.Valid req)
    (hfresh : refKey req.refType req.refID ∉ book.processedRefs) :
    (book.creditAvailableWithRef req).2 = .ok true ∧
      Applied book req req.amount (book.creditAvailableWithRef req).1 := by
  rw [creditAvailableWithRef, withRef_of_valid h hfresh]
  simp only [creditAvailable, if_neg h.not_nonpos, if_neg h.asset, true_and]
  have hmove := moves_setRow { book.row req.userID req.asset with
    available := (book.row req.userID req.asset).available + req.amount } fun h ↦ h.row req.userID req.asset
  simp only [row_available, row_frozen, add_sub_cancel_left, sub_self] at hmove
  exact ⟨hmove.of_balances_eq (by simp only [setRow, row_available, row_frozen]), by simp only [setRow],
    by simp only [setRow], hfresh⟩

/-- A credit fails without effect, finds its reference applied, or applies. -/
theorem creditAvailableWithRef_cases (book : BalanceBook) (req : RefRequest) :
    ((book.creditAvailableWithRef req).1 = book ∧ (book.creditAvailableWithRef req).2 ≠ .ok true) ∨
      (book.creditAvailableWithRef req).2 = .ok true ∧
        Applied book req req.amount (book.creditAvailableWithRef req).1 := by
  by_cases h : RefRequest.Valid req ∧ refKey req.refType req.refID ∉ book.processedRefs
  · exact .inr (creditAvailableWithRef_of_valid h.1 h.2)
  · exact .inl (withRef_of_not fun hv ↦ by_contra fun hfresh ↦ h ⟨hv, hfresh⟩)

theorem debitAvailableWithRef_of_valid (h : RefRequest.Valid req)
    (hfresh : refKey req.refType req.refID ∉ book.processedRefs)
    (hcovered : req.amount ≤ book.available (balanceKey req.userID req.asset)) :
    (book.debitAvailableWithRef req).2 = .ok true ∧
      Applied book req (-req.amount) (book.debitAvailableWithRef req).1 := by
  rw [debitAvailableWithRef, withRef_of_valid h hfresh]
  cases hbalance : book.balances (balanceKey req.userID req.asset) with
  | none =>
    rw [available, hbalance] at hcovered
    exact absurd h.pos.2 (not_lt.mpr hcovered)
  | some balance =>
    rw [available_of_some hbalance] at hcovered
    simp only [debitAvailable, if_neg h.not_nonpos, if_neg h.asset, hbalance, if_neg (not_lt.mpr hcovered), true_and]
    have hmove := moves_setRow { balance with available := balance.available - req.amount }
      fun h ↦ h _ balance hbalance
    simp only [available_of_some hbalance, frozen_of_some hbalance, sub_sub_cancel_left, sub_self] at hmove
    exact ⟨hmove.of_balances_eq (by simp only [setRow]), by simp only [setRow], by simp only [setRow], hfresh⟩

theorem debitAvailableWithRef_of_not_covered
    (hcovered : ¬ req.amount ≤ book.available (balanceKey req.userID req.asset)) :
    (book.debitAvailableWithRef req).1 = book ∧ (book.debitAvailableWithRef req).2 ≠ .ok true := by
  by_cases hv : RefRequest.Valid req ∧ refKey req.refType req.refID ∉ book.processedRefs
  · obtain ⟨hv, hfresh⟩ := hv
    rw [debitAvailableWithRef, withRef_of_valid hv hfresh]
    cases hbalance : book.balances (balanceKey req.userID req.asset) with
    | none => simp [debitAvailable, if_neg hv.not_nonpos, hv.asset, hbalance]
    | some balance =>
      rw [available_of_some hbalance, not_le] at hcovered
      simp [debitAvailable, if_neg hv.not_nonpos, hv.asset, hbalance, hcovered]
  · exact withRef_of_not fun h ↦ by_contra fun hfresh ↦ hv ⟨h, hfresh⟩

/-- A debit fails without effect, finds its reference applied, or applies. -/
theorem debitAvailableWithRef_cases (book : BalanceBook) (req : RefRequest) :
    ((book.debitAvailableWithRef req).1 = book ∧ (book.debitAvailableWithRef req).2 ≠ .ok true) ∨
      (book.debitAvailableWithRef req).2 = .ok true ∧
        Applied book req (-req.amount) (book.debitAvailableWithRef req).1 := by
  by_cases hcovered : req.amount ≤ book.available (balanceKey req.userID req.asset)
  · by_cases h : RefRequest.Valid req ∧ refKey req.refType req.refID ∉ book.processedRefs
    · exact .inr (debitAvailableWithRef_of_valid h.1 h.2 hcovered)
    · exact .inl (withRef_of_not fun hv ↦ by_contra fun hfresh ↦ h ⟨hv, hfresh⟩)
  · exact .inl (debitAvailableWithRef_of_not_covered hcovered)

/-! ### Any operation -/

/-- A call of one of the methods that change the book. -/
inductive Operation where
  | preFreeze (newID : String) (req : FreezeRequest)
  | releaseFreeze (freezeID : String)
  | releaseFreezeAmount (freezeID : String) (amount : ℤ)
  | consumeFreeze (freezeID : String) (amount : ℤ)
  | credit (req : RefRequest)
  | debit (req : RefRequest)

/-- The book after a call. -/
def run (book : BalanceBook) : Operation → BalanceBook
  | .preFreeze newID req => (book.preFreeze newID req).1
  | .releaseFreeze freezeID => (book.releaseFreeze freezeID).1
  | .releaseFreezeAmount freezeID amount => (book.releaseFreezeAmount freezeID amount).1
  | .consumeFreeze freezeID amount => (book.consumeFreeze freezeID amount).1
  | .credit req => (book.creditAvailableWithRef req).1
  | .debit req => (book.debitAvailableWithRef req).1

/-- The freeze a call names. -/
def Operation.namedFreeze : Operation → Option String
  | .preFreeze newID req => some (freezeIDFor newID req)
  | .releaseFreeze freezeID => some freezeID
  | .releaseFreezeAmount freezeID _ => some freezeID
  | .consumeFreeze freezeID _ => some freezeID
  | .credit _ => none
  | .debit _ => none

/-- What every call keeps: rows, and the freezes it does not name. -/
structure Keeps (book : BalanceBook) (freezeID : Option String) (book' : BalanceBook) : Prop where
  rows : ∀ key, (book.balances key).isSome → (book'.balances key).isSome
  freezes : ∀ id, freezeID ≠ some id → book'.freezes id = book.freezes id

/-- A later state of a freeze record. -/
structure Later (record record' : FreezeRecord) : Prop where
  userID : record'.userID = record.userID
  asset : record'.asset = record.asset
  amount : record'.amount ≤ max record.amount 0

/-- What a call does to the book. -/
inductive Ran (book : BalanceBook) (op : Operation) (book' : BalanceBook) : Prop
  | untouched (h : Untouched book book')
  | frozen (newID : String) (req : FreezeRequest) (record : FreezeRecord) (call : op = .preFreeze newID req)
    (h : Frozen book newID req book' record)
  | drawn (freezeID : String) (record record' : FreezeRecord) (a f : ℤ) (named : op.namedFreeze = some freezeID)
    (isOpen : Open book freezeID record) (h : Drawn book freezeID record record' a f book')
    (later : Later record record')
  | applied (req : RefRequest) (a : ℤ) (h : Applied book req a book')

theorem run_cases (book : BalanceBook) (op : Operation) : Ran book op (book.run op) := by
  cases op with
  | preFreeze newID req =>
    rcases preFreeze_cases book newID req with ⟨e, -, h⟩ | ⟨record, -, h⟩
    · exact .untouched h
    · exact .frozen newID req record rfl h
  | releaseFreeze freezeID =>
    by_cases hopen : ∃ record, Open book freezeID record
    · obtain ⟨record, hopen⟩ := hopen
      exact .drawn _ _ _ _ _ rfl hopen (releaseFreeze_of_open hopen).2 ⟨rfl, rfl, le_max_right _ _⟩
    · obtain ⟨e, he⟩ := releaseFreeze_of_not_open (not_exists.mp hopen)
      rw [run, he]
      exact .untouched (.refl book)
  | releaseFreezeAmount freezeID amount =>
    by_cases hopen : ∃ record, Open book freezeID record ∧ 0 < amount ∧ amount ≤ record.amount
    · obtain ⟨record, hopen, hpos, hle⟩ := hopen
      refine .drawn _ _ _ _ _ rfl hopen (releaseFreezeAmount_of_open hopen hpos hle).2 ⟨rfl, rfl, ?_⟩
      exact (sub_le_self _ hpos.le).trans (le_max_left _ _)
    · obtain ⟨e, he⟩ := (draw_of_not fun record ho hpos hle ↦ hopen ⟨record, ho, hpos, hle⟩).1
      rw [run, he]
      exact .untouched (.refl book)
  | consumeFreeze freezeID amount =>
    by_cases hopen : ∃ record, Open book freezeID record ∧ 0 < amount ∧ amount ≤ record.amount
    · obtain ⟨record, hopen, hpos, hle⟩ := hopen
      refine .drawn _ _ _ _ _ rfl hopen (consumeFreeze_of_open hopen hpos hle).2 ⟨rfl, rfl, ?_⟩
      exact (sub_le_self _ hpos.le).trans (le_max_left _ _)
    · obtain ⟨e, he⟩ := (draw_of_not fun record ho hpos hle ↦ hopen ⟨record, ho, hpos, hle⟩).2
      rw [run, he]
      exact .untouched (.refl book)
  | credit req =>
    rcases creditAvailableWithRef_cases book req with ⟨h, -⟩ | ⟨-, h⟩
    · rw [run, h]
      exact .untouched (.refl book)
    · exact .applied req _ h
  | debit req =>
    rcases debitAvailableWithRef_cases book req with ⟨h, -⟩ | ⟨-, h⟩
    · rw [run, h]
      exact .untouched (.refl book)
    · exact .applied req _ h

/-- No call deletes a row or changes a freeze it does not name. -/
theorem run_keeps (book : BalanceBook) (op : Operation) : Keeps book op.namedFreeze (book.run op) := by
  have hupdate : ∀ {id freezeID : String} (record : FreezeRecord), some freezeID ≠ some id →
      Function.update book.freezes freezeID (some record) id = book.freezes id :=
    fun record hid ↦ Function.update_of_ne (fun heq ↦ hid (congrArg some heq.symm)) _ _
  cases run_cases book op with
  | untouched h => exact ⟨(h.moves (0, "")).rows, fun id _ ↦ congrFun h.freezes id⟩
  | frozen newID req record call h =>
    refine ⟨h.moves.rows, fun id hid ↦ ?_⟩
    rw [h.freezes, h.record_eq]
    rw [call] at hid
    exact hupdate _ hid
  | drawn freezeID record record' a f named isOpen h later =>
    rw [named]
    exact ⟨h.moves.rows, fun id hid ↦ by rw [h.freezes]; exact hupdate record' hid⟩
  | applied req a h => exact ⟨h.moves.rows, fun id _ ↦ congrFun h.freezes id⟩

/-- An open freeze stays open under calls that do not name it. -/
theorem Open.run (h : Open book freezeID record) {op : Operation} (hop : op.namedFreeze ≠ some freezeID) :
    Open (book.run op) freezeID record :=
  have hkeeps := run_keeps book op
  ⟨(hkeeps.freezes freezeID hop).trans h.lookup, h.active, hkeeps.rows _ h.row⟩

/-! ### Freezes over time -/

/-- The second book comes after the first: no freeze record is lost. -/
def Ages (book book' : BalanceBook) : Prop := ∀ id record, book.freezes id = some record →
    ∃ record', book'.freezes id = some record' ∧ Later record record'

theorem Later.refl (record : FreezeRecord) : Later record record := ⟨rfl, rfl, le_max_left _ _⟩

theorem Ages.of_freezes_eq (h : book'.freezes = book.freezes) : Ages book book' :=
  fun _ record hrecord ↦ ⟨record, h ▸ hrecord, .refl record⟩

theorem Ages.trans {book'' : BalanceBook} (h : Ages book book') (h' : Ages book' book'') : Ages book book'' := by
  intro id record hrecord
  obtain ⟨record', hrecord', hlater⟩ := h id record hrecord
  obtain ⟨record'', hrecord'', hlater'⟩ := h' id record' hrecord'
  refine ⟨record'', hrecord'', hlater'.userID.trans hlater.userID, hlater'.asset.trans hlater.asset, ?_⟩
  have hle := hlater.amount
  have hle' := hlater'.amount
  omega

theorem Drawn.ages {record' : FreezeRecord} (h : Drawn book freezeID record record' a f book')
    (hopen : Open book freezeID record) (hlater : Later record record') : Ages book book' := by
  intro id r hr
  by_cases hid : id = freezeID
  · subst hid
    obtain rfl : record = r := Option.some_inj.mp (hopen.lookup.symm.trans hr)
    exact ⟨record', by rw [h.freezes, Function.update_self], hlater⟩
  · exact ⟨r, by rw [h.freezes, Function.update_of_ne hid, hr], .refl r⟩

/-- Every call ages the book. -/
theorem run_ages (book : BalanceBook) (op : Operation) : Ages book (book.run op) := by
  cases run_cases book op with
  | untouched h => exact .of_freezes_eq h.freezes
  | frozen newID req record call h =>
    intro id r hr
    have hne : id ≠ record.freezeID := by
      rintro rfl
      exact absurd (h.fresh.symm.trans hr) (by simp)
    exact ⟨r, by rw [h.freezes, Function.update_of_ne hne, hr], .refl r⟩
  | drawn freezeID record record' a f named isOpen h later => exact h.ages isOpen later
  | applied req a h => exact .of_freezes_eq h.freezes

/-! ### Totals -/

/-- Freezing and releasing move money of a user, and leave what the user has. -/
theorem total_preFreeze (book : BalanceBook) (newID : String) (req : FreezeRequest) (k : BalanceKey) :
    (book.preFreeze newID req).1.total k = book.total k := by
  rcases preFreeze_cases book newID req with ⟨e, -, h⟩ | ⟨record, -, h⟩
  · simpa using (h.moves k).total k
  · rw [h.moves.total k]
    simp

theorem total_releaseFreeze (book : BalanceBook) (freezeID : String) (k : BalanceKey) :
    (book.releaseFreeze freezeID).1.total k = book.total k := by
  by_cases hopen : ∃ record, Open book freezeID record
  · obtain ⟨record, hopen⟩ := hopen
    rw [(releaseFreeze_of_open hopen).2.moves.total k]
    simp
  · obtain ⟨e, he⟩ := releaseFreeze_of_not_open (not_exists.mp hopen)
    rw [he]

/-- **What is frozen can be released in full**, whatever calls that do not name the freeze are made in between. -/
theorem releaseFreeze_after (book : BalanceBook) (newID : String) (req : FreezeRequest) (record : FreezeRecord)
    (h : (book.preFreeze newID req).2 = .ok record) (ops : List Operation)
    (hops : ∀ op ∈ ops, op.namedFreeze ≠ some record.freezeID) :
    let after := ops.foldl run (book.preFreeze newID req).1
    (after.releaseFreeze record.freezeID).2 = .ok () ∧ Moves after (after.releaseFreeze record.freezeID).1
      (balanceKey req.userID req.asset) req.amount (-req.amount) := by
  rcases preFreeze_cases book newID req with ⟨e, he, -⟩ | ⟨record', hok, hfrozen⟩
  · exact absurd (he.symm.trans h) (by simp)
  · obtain rfl := Except.ok.inj (hok.symm.trans h)
    have hopen : Open (ops.foldl run (book.preFreeze newID req).1) record'.freezeID record' :=
      List.foldlRecOn (motive := (Open · _ _)) ops run hfrozen.isOpen fun _ hopen op hop ↦ hopen.run (hops op hop)
    obtain ⟨hreleased, hdrawn⟩ := releaseFreeze_of_open hopen
    have hmoves := hdrawn.moves
    refine ⟨hreleased, ?_⟩
    simpa only [hfrozen.record_eq, balanceKey_normalizeAsset] using hmoves

/-- A freeze of 60, with a debit of the rest before its release. -/
theorem releaseFreeze_after_debit :
    let book := BalanceBook.empty.run (.credit ⟨1, "USDT", 100, "DEPOSIT", "d"⟩)
    let after := (book.preFreeze "f" ⟨"", 1, "USDT", "ORDER", "o", 60⟩).1.run (.debit ⟨1, "USDT", 40, "WITHDRAW", "w"⟩)
    after.total (1, "USDT") = 60 ∧ (after.releaseFreeze "f").2 = .ok () := by
  intro book after
  exact ⟨by decide, (releaseFreeze_after book "f" _ ⟨"f", 1, "USDT", "ORDER", "o", 60, 60, false, false⟩
    (by decide) [.debit _] (by simp [Operation.namedFreeze])).1⟩

end BalanceBook

end FunnyOption.Account
