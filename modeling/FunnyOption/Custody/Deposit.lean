import FunnyOption.Account.BalanceBook
import FunnyOption.Foundation.Run
import FunnyOption.Shared.Assets

/-!
# Deposit notifications

The wallet service calls `DepositNotify` when a deposit is confirmed, and calls it again until it
gets an answer it likes. A request makes four calls, each atomic: `IsDepositProcessed`,
`LookupUserByAddress`, `CreditBalance` and `InsertDeposit`. Several deliveries run at once, so a run
is an interleaving of their calls, and any of the calls may fail. A delivery that never takes its
next step is one whose process died there.

## Idempotency

`CreditBalance` applies a reference once, but the reference of a deposit is an id made up by the
request itself (`NewID("cdep")`), so a second delivery of the same `biz_id` has another one. What
keeps a deposit from being credited twice is the row that `InsertDeposit` writes, which the check at
the beginning of a request reads. The row comes last, and a failure to write it is only logged.

## Prices

A coin other than the collateral is converted with a quoted price in floating point. The quote of a
request is part of the event that uses it, and the arithmetic is a parameter.
-/

open Foundation

namespace FunnyOption.Custody

open Account Assets

/-! ## Amounts -/

/-- `DepositCoinConfig`. -/
structure DepositCoinConfig where
  coin : String
  chainDecimals : ℕ

/-- The configuration of `Handler` that `DepositNotify` reads. -/
structure DepositConfig where
  /-- The expected `x-deposit-token`; empty if none is required. -/
  depositToken : String
  chainDecimals : ℕ
  accountingDigits : ℕ
  depositCoins : List DepositCoinConfig

/-- `findDepositCoin`. -/
def findDepositCoin (cfg : DepositConfig) (asset : String) : Option DepositCoinConfig :=
  cfg.depositCoins.find? fun c ↦ c.coin == toUpper (trimSpace asset)

section Model

variable {Price : Type*} (cfg : DepositConfig) (nativeCredit : ℕ → ℕ → ℤ → Price → ℤ)

/-- `convertDepositToCollateral`: the credited amount and asset, or an error. `quote` is the answer
of the price provider, and `nativeCredit` the conversion of a chain amount with it. -/
def convertDepositToCollateral (quote : Option Price) (assetName rawAmount : String) : Option (ℤ × String) :=
  let rawAmount := trimSpace rawAmount
  if rawAmount = "" then none
  else
    match parseBigInt rawAmount with
    | none => none
    | some amount =>
      if amount ≤ 0 then some (0, "")
      else
        let normalized := toUpper (trimSpace assetName)
        let coin := findDepositCoin cfg normalized
        if normalized = defaultCollateralAsset then
          let chainDecimals := (coin.map (·.chainDecimals)).getD cfg.chainDecimals
          let diff := chainDecimals - cfg.accountingDigits
          let amount := if 0 < diff then amount / 10 ^ diff else amount
          if isInt64 amount then some (amount, defaultCollateralAsset) else none
        else
          match coin, quote with
          | some coin, some price =>
            some (nativeCredit coin.chainDecimals cfg.accountingDigits amount price, defaultCollateralAsset)
          | _, _ => none

/-! ## Requests -/

/-- `DepositNotifyRequest`. -/
structure DepositNotifyRequest where
  bizID : String
  chainID : ℤ
  txHash : String
  txIndex : ℤ
  address : String
  asset : String
  amount : String

/-- `DepositRecord`, a row of `custody_deposits`. -/
structure DepositRecord where
  bizID : String
  userID : ℤ
  address : String
  asset : String
  creditAsset : String
  chainAmount : String
  creditAmount : ℤ
  chainID : ℤ
  txHash : String
  txIndex : ℤ

/-- A credit a request has decided on. -/
structure DepositCredit (Price : Type*) where
  request : DepositNotifyRequest
  userID : ℤ
  amount : ℤ
  asset : String
  depositID : String
  /-- The quote the amount was converted with. -/
  quote : Option Price

/-- The HTTP status with `NotifyResponse`. -/
structure NotifyAnswer where
  status : ℕ
  code : ℕ
  message : String

/-- Where a delivery stands. -/
inductive DeliveryPhase (Price : Type*) where
  /-- Not received yet. -/
  | idle
  /-- Before `IsDepositProcessed`. -/
  | checking (req : DepositNotifyRequest)
  /-- Before `LookupUserByAddress`. -/
  | lookingUp (req : DepositNotifyRequest)
  /-- Before `CreditBalance`. -/
  | crediting (credit : DepositCredit Price)
  /-- Before `InsertDeposit`. -/
  | recording (credit : DepositCredit Price)
  /-- Answered. -/
  | answered (answer : NotifyAnswer)

/-- The deliveries, the custody tables and the balance book. -/
structure DepositState (Price : Type*) where
  /-- The deliveries, by number. -/
  deliveries : ℕ → DeliveryPhase Price
  /-- `custody_address_mapping` for the handler's chain and network; zero for no row. -/
  addressOwner : String → ℤ
  /-- `custody_deposits`. -/
  deposits : List DepositRecord
  /-- The balance book behind `CreditBalance`. -/
  book : BalanceBook
  /-- The credits applied so far. -/
  credited : List (DepositCredit Price)

/-- What can happen. -/
inductive DepositEvent (Price : Type*) where
  /-- A request arrives, with its token and its body, or the decoder's error text. -/
  | receive (d : ℕ) (token : String) (body : Except String DepositNotifyRequest)
  /-- `IsDepositProcessed` returns. -/
  | check (d : ℕ) (ok : Bool)
  /-- `LookupUserByAddress` returns, the amount is converted and an id made up. -/
  | lookup (d : ℕ) (ok : Bool) (quote : Option Price) (depositID : String)
  /-- `CreditBalance` returns; a call that fails has no effect. -/
  | credit (d : ℕ) (ok : Bool)
  /-- `InsertDeposit` returns; a call that fails has no effect. -/
  | insert (d : ℕ) (ok : Bool)
  /-- `SaveAddressMapping` of another request. -/
  | mapAddress (address : String) (userID : ℤ)

namespace DepositState

/-- Move one delivery. -/
def setDelivery (s : DepositState Price) (d : ℕ) (phase : DeliveryPhase Price) : DepositState Price :=
  { s with deliveries := Function.update s.deliveries d phase }

/-- A `biz_id` with a row. -/
def isDepositProcessed (s : DepositState Price) (bizID : String) : Prop := ∃ r ∈ s.deposits, r.bizID = bizID

instance (s : DepositState Price) (bizID : String) : Decidable (s.isDepositProcessed bizID) :=
  inferInstanceAs (Decidable (∃ r ∈ s.deposits, r.bizID = bizID))

end DepositState

/-- `norm` of the custody store. -/
def norm (s : String) : String := toLower (trimSpace s)

/-- The request `CreditBalance` gets. -/
def creditRequest (c : DepositCredit Price) : RefRequest :=
  ⟨c.userID, c.asset, c.amount, "CUSTODY_DEPOSIT", c.depositID⟩

/-- The row `InsertDeposit` writes. -/
def depositRecord (c : DepositCredit Price) : DepositRecord where
  bizID := c.request.bizID
  userID := c.userID
  address := norm c.request.address
  asset := toUpper (trimSpace c.request.asset)
  creditAsset := if toUpper (trimSpace c.asset) = "" then toUpper (trimSpace c.request.asset)
    else toUpper (trimSpace c.asset)
  chainAmount := c.request.amount
  creditAmount := c.amount
  chainID := c.request.chainID
  txHash := c.request.txHash
  txIndex := c.request.txIndex

/-- What a request does with the user it found. -/
def decideCredit (req : DepositNotifyRequest) (userID : ℤ) (quote : Option Price)
    (depositID : String) : DeliveryPhase Price :=
  if userID = 0 then .answered ⟨200, 10000, "address not mapped"⟩
  else
    match convertDepositToCollateral cfg nativeCredit quote req.asset req.amount with
    | none => .answered ⟨400, 400, "invalid amount"⟩
    | some (amount, asset) =>
      if amount ≤ 0 then .answered ⟨200, 0, "dust deposit ignored"⟩
      else .crediting ⟨req, userID, amount, asset, depositID, quote⟩

/-- One step of the deliveries. -/
def depositStep (s : DepositState Price) : DepositEvent Price → Option (DepositState Price)
  | .receive d token body =>
    match s.deliveries d with
    | .idle =>
      if cfg.depositToken ≠ "" ∧ token ≠ cfg.depositToken then
        some (s.setDelivery d (.answered ⟨401, 401, "unauthorized"⟩))
      else
        match body with
        | .error text => some (s.setDelivery d (.answered ⟨400, 400, text⟩))
        | .ok req =>
          if req.bizID = "" ∨ req.address = "" ∨ req.amount = "" then
            some (s.setDelivery d (.answered ⟨400, 400, "biz_id, address, amount required"⟩))
          else some (s.setDelivery d (.checking req))
    | _ => none
  | .check d ok =>
    match s.deliveries d with
    | .checking req =>
      if !ok then some (s.setDelivery d (.answered ⟨500, 500, "internal error"⟩))
      else if s.isDepositProcessed req.bizID then
        some (s.setDelivery d (.answered ⟨200, 0, "already processed"⟩))
      else some (s.setDelivery d (.lookingUp req))
    | _ => none
  | .lookup d ok quote depositID =>
    match s.deliveries d with
    | .lookingUp req =>
      if !ok then some (s.setDelivery d (.answered ⟨500, 500, "internal error"⟩))
      else some (s.setDelivery d
        (decideCredit cfg nativeCredit req (s.addressOwner (norm req.address)) quote depositID))
    | _ => none
  | .credit d ok =>
    match s.deliveries d with
    | .crediting c =>
      if !ok then some (s.setDelivery d (.answered ⟨500, 500, "credit failed"⟩))
      else
        match s.book.creditAvailableWithRef (creditRequest c) with
        | (book, .error _) =>
          some { s.setDelivery d (.answered ⟨500, 500, "credit failed"⟩) with book := book }
        | (book, .ok applied) =>
          some { s.setDelivery d (.recording c) with
            book := book, credited := if applied then c :: s.credited else s.credited }
    | _ => none
  | .insert d ok =>
    match s.deliveries d with
    | .recording c =>
      -- a failed insert is logged, and the answer is the same
      let s' := s.setDelivery d (.answered ⟨200, 0, "ok"⟩)
      if ok ∧ ¬ s.isDepositProcessed c.request.bizID then
        some { s' with deposits := depositRecord c :: s.deposits }
      else some s'
    | _ => none
  | .mapAddress address userID =>
    some { s with addressOwner := Function.update s.addressOwner (norm address) userID }

end Model

/-! ## What has been credited -/

section Credited

variable {Price : Type*} {cfg : DepositConfig} {nativeCredit : ℕ → ℕ → ℤ → Price → ℤ}

/-- No delivery yet, over given tables and balances. -/
def DepositState.initial (addressOwner : String → ℤ) (deposits : List DepositRecord)
    (book : BalanceBook) : DepositState Price :=
  ⟨fun _ ↦ .idle, addressOwner, deposits, book, []⟩

/-- The `biz_id` of a delivery between its check and its record. -/
def DeliveryPhase.pastCheck : DeliveryPhase Price → Option String
  | .lookingUp req => some req.bizID
  | .crediting c => some c.request.bizID
  | .recording c => some c.request.bizID
  | _ => none

/-- The `biz_id` of a delivery between its check and its credit. -/
def DeliveryPhase.unpaid : DeliveryPhase Price → Option String
  | .lookingUp req => some req.bizID
  | .crediting c => some c.request.bizID
  | _ => none

/-- The `biz_id`s credited so far, one for each credit. -/
def DepositState.creditedIDs (s : DepositState Price) : List String := s.credited.map (·.request.bizID)

/-- What the credits add to a key. -/
def creditSum (credits : List (DepositCredit Price)) (key : BalanceKey) : ℤ :=
  (credits.map fun c ↦ if key = balanceKey c.userID c.asset then c.amount else 0).sum

/-- Every `biz_id` has raised a balance at most once, by its converted amount, and nothing else has
changed a balance. -/
structure CreditedOnce (cfg : DepositConfig) (nativeCredit : ℕ → ℕ → ℤ → Price → ℤ)
    (book₀ : BalanceBook) (s : DepositState Price) : Prop where
  once : s.creditedIDs.Nodup
  converted : ∀ c ∈ s.credited, convertDepositToCollateral cfg nativeCredit c.quote c.request.asset
    c.request.amount = some (c.amount, c.asset)
  balance : ∀ key, s.book.total key = book₀.total key + creditSum s.credited key

/-- A delivery checks its `biz_id` only while no other delivery of it is between its check and its
record, and while it has not been credited without being recorded. -/
def ChecksSettled (s : DepositState Price) (e : DepositEvent Price) : Prop :=
  ∀ d req, e = .check d true → s.deliveries d = .checking req → (∀ d', (s.deliveries d').pastCheck ≠ some req.bizID) ∧
      (req.bizID ∈ s.creditedIDs → s.isDepositProcessed req.bizID)

/-- What every step keeps, however deliveries overlap. -/
structure CreditInv (cfg : DepositConfig) (nativeCredit : ℕ → ℕ → ℤ → Price → ℤ)
    (book₀ : BalanceBook) (s : DepositState Price) : Prop where
  crediting : ∀ d c, s.deliveries d = .crediting c → convertDepositToCollateral cfg nativeCredit
    c.quote c.request.asset c.request.amount = some (c.amount, c.asset)
  converted : ∀ c ∈ s.credited, convertDepositToCollateral cfg nativeCredit c.quote c.request.asset
    c.request.amount = some (c.amount, c.asset)
  balance : ∀ key, s.book.total key = book₀.total key + creditSum s.credited key

/-- What a run keeps whose checks are settled. -/
structure OnceInv (s : DepositState Price) : Prop where
  single : ∀ d d' b, (s.deliveries d).pastCheck = some b → (s.deliveries d').pastCheck = some b → d = d'
  unpaid : ∀ d b, (s.deliveries d).unpaid = some b → b ∉ s.creditedIDs
  once : s.creditedIDs.Nodup

variable {s s' : DepositState Price} {e : DepositEvent Price} {book₀ : BalanceBook} {phase : DeliveryPhase Price}

theorem DeliveryPhase.pastCheck_of_unpaid {b : String} (h : phase.unpaid = some b) : phase.pastCheck = some b := by
  cases phase <;> simp_all [DeliveryPhase.unpaid, DeliveryPhase.pastCheck]

theorem setDelivery_deliveries (d d' : ℕ) (phase : DeliveryPhase Price) :
    (s.setDelivery d phase).deliveries d' = if d' = d then phase else s.deliveries d' :=
  Function.update_apply ..

theorem decideCredit_cases (cfg : DepositConfig) (nativeCredit : ℕ → ℕ → ℤ → Price → ℤ) (req : DepositNotifyRequest)
    (userID : ℤ) (quote : Option Price) (depositID : String) :
    (∃ a, decideCredit cfg nativeCredit req userID quote depositID = .answered a) ∨
      ∃ c : DepositCredit Price, decideCredit cfg nativeCredit req userID quote depositID = .crediting c ∧
        c.request = req ∧ convertDepositToCollateral cfg nativeCredit c.quote c.request.asset
          c.request.amount = some (c.amount, c.asset) := by
  rw [decideCredit]
  split_ifs
  · exact .inl ⟨_, rfl⟩
  · split
    · exact .inl ⟨_, rfl⟩
    · next amount asset hconvert =>
      split_ifs
      · exact .inl ⟨_, rfl⟩
      · exact .inr ⟨_, rfl, rfl, hconvert⟩

/-- Everything a step can do to the deliveries, the credits and the deposits. -/
theorem depositStep_cases (h : depositStep cfg nativeCredit s e = some s') :
    (∃ d phase, s' = s.setDelivery d phase ∧ phase.pastCheck = none ∧ ∀ c, phase ≠ .crediting c) ∨
    (∃ d req, e = .check d true ∧ s.deliveries d = .checking req ∧
      ¬ s.isDepositProcessed req.bizID ∧ s' = s.setDelivery d (.lookingUp req)) ∨
    (∃ d c, s.deliveries d = .lookingUp c.request ∧
      convertDepositToCollateral cfg nativeCredit c.quote c.request.asset c.request.amount =
        some (c.amount, c.asset) ∧ s' = s.setDelivery d (.crediting c)) ∨
    (∃ d c, s.deliveries d = .crediting c ∧ s' = s.setDelivery d (.recording c)) ∨
    (∃ d c book, s.deliveries d = .crediting c ∧ BalanceBook.Applied s.book (creditRequest c) c.amount book ∧
      s' = { s.setDelivery d (.recording c) with book := book, credited := c :: s.credited }) ∨
    (∃ d c a, s.deliveries d = .recording c ∧ s' = { s.setDelivery d (.answered a) with
      deposits := depositRecord c :: s.deposits }) ∨
    (∃ owner, s' = { s with addressOwner := owner }) := by
  cases e with
  | receive d token body =>
    simp only [depositStep] at h
    split at h
    · split_ifs at h
      · cases h
        exact .inl ⟨d, _, rfl, rfl, by simp⟩
      · split at h
        · cases h
          exact .inl ⟨d, _, rfl, rfl, by simp⟩
        · split_ifs at h
          all_goals
            cases h
            exact .inl ⟨d, _, rfl, rfl, by simp⟩
    · cases h
  | check d ok =>
    simp only [depositStep] at h
    split at h
    · next req hreq =>
      cases ok with
      | false =>
        cases h
        exact .inl ⟨d, _, rfl, rfl, by simp⟩
      | true =>
        simp only [Bool.not_true, Bool.false_eq_true, if_false] at h
        split_ifs at h with hprocessed
        · cases h
          exact .inl ⟨d, _, rfl, rfl, by simp⟩
        · cases h
          exact .inr (.inl ⟨d, req, rfl, hreq, hprocessed, rfl⟩)
    · cases h
  | lookup d ok quote depositID =>
    simp only [depositStep] at h
    split at h
    · next req hreq =>
      split_ifs at h
      · cases h
        exact .inl ⟨d, _, rfl, rfl, by simp⟩
      · cases h
        rcases decideCredit_cases cfg nativeCredit req (s.addressOwner (norm req.address)) quote
          depositID with ⟨a, ha⟩ | ⟨c, hc, rfl, hconvert⟩
        · rw [ha]
          exact .inl ⟨d, _, rfl, rfl, by simp⟩
        · rw [hc]
          exact .inr (.inr (.inl ⟨d, c, hreq, hconvert, rfl⟩))
    · cases h
  | credit d ok =>
    simp only [depositStep] at h
    split at h
    · next c hc =>
      split_ifs at h
      · cases h
        exact .inl ⟨d, _, rfl, rfl, by simp⟩
      · have hcases := s.book.creditAvailableWithRef_cases (creditRequest c)
        rcases hcredit : s.book.creditAvailableWithRef (creditRequest c) with ⟨book, result⟩
        simp only [hcredit] at h hcases
        rcases hcases with ⟨rfl, hne⟩ | ⟨rfl, happ⟩
        · cases result with
          | error err =>
            cases h
            exact .inl ⟨d, _, rfl, rfl, by simp⟩
          | ok applied =>
            cases h
            obtain rfl : applied = false := by simpa using hne
            exact .inr (.inr (.inr (.inl ⟨d, c, hc, rfl⟩)))
        · cases h
          exact .inr (.inr (.inr (.inr (.inl ⟨d, c, book, hc, happ, rfl⟩))))
    · cases h
  | insert d ok =>
    simp only [depositStep] at h
    split at h
    · next c hc =>
      split_ifs at h
      · cases h
        exact .inr (.inr (.inr (.inr (.inr (.inl ⟨d, c, _, hc, rfl⟩)))))
      · cases h
        exact .inl ⟨d, _, rfl, rfl, by simp⟩
    · cases h
  | mapAddress address userID =>
    cases h
    exact .inr (.inr (.inr (.inr (.inr (.inr ⟨_, rfl⟩)))))

/-- One step keeps the conversions and the balance equation. -/
theorem CreditInv.step (hi : CreditInv cfg nativeCredit book₀ s) (h : depositStep cfg nativeCredit s e = some s') :
    CreditInv cfg nativeCredit book₀ s' := by
  -- a delivery moved to a phase that is not `crediting`, or to one with a converted credit
  have hmove : ∀ d (phase : DeliveryPhase Price), (∀ c, phase = .crediting c →
      convertDepositToCollateral cfg nativeCredit c.quote c.request.asset c.request.amount =
        some (c.amount, c.asset)) → ∀ d' c, (s.setDelivery d phase).deliveries d' = .crediting c →
      convertDepositToCollateral cfg nativeCredit c.quote c.request.asset c.request.amount =
        some (c.amount, c.asset) := by
    intro d phase hphase d' c hc
    rw [setDelivery_deliveries] at hc
    split_ifs at hc
    · exact hphase c hc
    · exact hi.crediting d' c hc
  rcases depositStep_cases h with ⟨d, phase, rfl, -, hphase⟩ | ⟨d, req, -, -, -, rfl⟩ |
    ⟨d, c, -, hconvert, rfl⟩ | ⟨d, c, -, rfl⟩ | ⟨d, c, book, hc, happ, rfl⟩ | ⟨d, c, a, -, rfl⟩ |
    ⟨owner, rfl⟩
  · exact ⟨hmove d phase fun c hc ↦ absurd hc (hphase c), hi.converted, hi.balance⟩
  · exact ⟨hmove d _ (fun c hc ↦ nomatch hc), hi.converted, hi.balance⟩
  · refine ⟨hmove d _ fun c' hc' ↦ ?_, hi.converted, hi.balance⟩
    cases hc'
    exact hconvert
  · exact ⟨hmove d _ (fun c hc ↦ nomatch hc), hi.converted, hi.balance⟩
  · refine ⟨hmove d _ (fun c hc ↦ nomatch hc), List.forall_mem_cons.mpr ⟨hi.crediting d c hc, hi.converted⟩,
      fun key ↦ ?_⟩
    · have htotal := happ.moves.total key
      have hkey : balanceKey (creditRequest c).userID (creditRequest c).asset = balanceKey c.userID c.asset := rfl
      rw [add_zero, hkey] at htotal
      simp only [htotal, hi.balance key, creditSum, List.map_cons, List.sum_cons]
      ring
  · exact { hi with crediting := hmove d _ (fun c hc ↦ nomatch hc) }
  · exact { hi with }

/-- A delivery may enter a phase if no other one is past the check of its `biz_id`, and a phase
before the credit only if that is still to come. -/
theorem OnceInv.setDelivery (hi : OnceInv s) {d : ℕ}
    (hpast : ∀ b, phase.pastCheck = some b → ∀ d' ≠ d, (s.deliveries d').pastCheck ≠ some b)
    (hunpaid : ∀ b, phase.unpaid = some b → b ∉ s.creditedIDs) : OnceInv (s.setDelivery d phase) := by
  refine ⟨fun d₁ d₂ b h₁ h₂ ↦ ?_, fun d' b h ↦ ?_, hi.once⟩
  · rw [setDelivery_deliveries] at h₁ h₂
    split_ifs at h₁ h₂ with hd₁ hd₂ hd₂
    · exact hd₁.trans hd₂.symm
    · exact absurd h₂ (hpast b h₁ d₂ hd₂)
    · exact absurd h₁ (hpast b h₂ d₁ hd₁)
    · exact hi.single d₁ d₂ b h₁ h₂
  · rw [setDelivery_deliveries] at h
    split_ifs at h
    · exact hunpaid b h
    · exact hi.unpaid d' b h

/-- A delivery goes on with its `biz_id`. -/
theorem OnceInv.advance (hi : OnceInv s) {d : ℕ}
    (hpast : ∀ b, phase.pastCheck = some b → (s.deliveries d).pastCheck = some b)
    (hunpaid : ∀ b, phase.unpaid = some b → (s.deliveries d).unpaid = some b) : OnceInv (s.setDelivery d phase) :=
  hi.setDelivery (fun b hb d' hd' hother ↦ hd' (hi.single d' d b hother (hpast b hb)))
    fun b hb ↦ hi.unpaid d b (hunpaid b hb)

/-- A step of a run whose checks are settled credits no `biz_id` twice. -/
theorem OnceInv.step (hi : OnceInv s) (hc : ChecksSettled s e) (h : depositStep cfg nativeCredit s e = some s') :
    OnceInv s' := by
  rcases depositStep_cases h with ⟨d, phase, rfl, hphase, -⟩ | ⟨d, req, rfl, hd, hproc, rfl⟩ |
    ⟨d, c, hd, -, rfl⟩ | ⟨d, c, hd, rfl⟩ | ⟨d, c, book, hd, -, rfl⟩ | ⟨d, c, a, hd, rfl⟩ | ⟨owner, rfl⟩
  · refine hi.setDelivery (fun b hb ↦ ?_) fun b hb ↦ ?_
    · rw [hphase] at hb
      cases hb
    · rw [DeliveryPhase.pastCheck_of_unpaid hb] at hphase
      cases hphase
  · obtain ⟨hothers, hcredited⟩ := hc d req rfl hd
    refine hi.setDelivery ?_ ?_
    · rintro b hb d' -
      obtain rfl : req.bizID = b := Option.some_inj.mp hb
      exact hothers d'
    · rintro b hb
      obtain rfl : req.bizID = b := Option.some_inj.mp hb
      exact fun hmem ↦ hproc (hcredited hmem)
  · exact hi.advance (fun b hb ↦ by rw [hd]; exact hb) fun b hb ↦ by rw [hd]; exact hb
  · exact hi.advance (fun b hb ↦ by rw [hd]; exact hb) fun b hb ↦ by cases hb
  · -- the credit: no other delivery of this `biz_id` is waiting for one
    have hfresh : c.request.bizID ∉ s.creditedIDs := hi.unpaid d _ (by rw [hd]; rfl)
    have hset : OnceInv (s.setDelivery d (.recording c)) :=
      hi.advance (fun b hb ↦ by rw [hd]; exact hb) fun b hb ↦ by cases hb
    refine ⟨hset.single, fun d' b hb ↦ ?_, List.nodup_cons.mpr ⟨hfresh, hi.once⟩⟩
    refine List.not_mem_cons_of_ne_of_not_mem ?_ (hset.unpaid d' b hb)
    rintro rfl
    have hd' : d' = d := hset.single d' d _ (DeliveryPhase.pastCheck_of_unpaid hb)
      (by rw [setDelivery_deliveries, if_pos rfl]; rfl)
    rw [hd', show ({ s.setDelivery d (.recording c) with
      book := book, credited := c :: s.credited } : DepositState Price).deliveries d =
        .recording c by simp [DepositState.setDelivery]] at hb
    cases hb
  · have hset : OnceInv (s.setDelivery d (.answered a)) :=
      hi.advance (fun b hb ↦ by cases hb) fun b hb ↦ by cases hb
    exact { hset with }
  · exact { hi with }

/-- **Exactly-once deposits.** In every run in which each check of a `biz_id` finds its earlier
deliveries settled, each `biz_id` raises a balance at most once, by its converted amount, in every
state reached. -/
theorem deposits_credited_once (addressOwner : String → ℤ) (deposits : List DepositRecord)
    (book₀ : BalanceBook) (es : List (DepositEvent Price))
    (hc : ∀ t e t', Takes (depositStep cfg nativeCredit) (.initial addressOwner deposits book₀) es
      t e t' → ChecksSettled t e) :
    ∀ t, Visits (depositStep cfg nativeCredit) (.initial addressOwner deposits book₀) es t →
      CreditedOnce cfg nativeCredit book₀ t := by
  intro t ht
  have hcredit : CreditInv cfg nativeCredit book₀ t := by
    refine visits_induction ⟨?_, ?_, ?_⟩ (fun u e u' hu hi ↦ hi.step hu.step_eq) t ht
    · intro d c hd
      cases hd
    · intro c hmem
      cases hmem
    · intro key
      simp [DepositState.initial, creditSum]
  have honce : OnceInv t := by
    refine visits_induction ⟨?_, ?_, ?_⟩ (fun u e u' hu hi ↦ hi.step (hc u e u' hu) hu.step_eq) t ht
    · intro d d' b hd
      cases hd
    · intro d b hd
      cases hd
    · exact List.nodup_nil
  exact ⟨honce.once, hcredit.converted, hcredit.balance⟩

end Credited

/-! ### One deposit of 100 USDT -/

/-- USDT with 18 decimals on chain and two in the books. -/
def usdtConfig : DepositConfig := ⟨"", 18, 2, [⟨"USDT", 18⟩]⟩

/-- The notification of one deposit. -/
def usdtNotification : DepositNotifyRequest := ⟨"biz-1", 56, "0xf00d", 0, "0xabc", "USDT", "100000000000000000000"⟩

/-- No balances, and every address belongs to user 7. -/
def usdtInitial : DepositState Unit := .initial (fun _ ↦ 7) [] .empty

/-- One delivery up to and including its credit. -/
def deliverAndCredit (d : ℕ) (depositID : String) : List (DepositEvent Unit) :=
  [.receive d "" (.ok usdtNotification), .check d true, .lookup d true none depositID, .credit d true]

/-- A delivery that runs alone is credited, once. -/
theorem deposit_alone_credited_once : (exec (depositStep usdtConfig fun _ _ _ _ ↦ 0) usdtInitial
        (deliverAndCredit 0 "cdep_1" ++ [.insert 0 true])).map DepositState.creditedIDs =
      some ["biz-1"] ∧
    ∀ t, Visits (depositStep usdtConfig fun _ _ _ _ ↦ 0) usdtInitial
        (deliverAndCredit 0 "cdep_1" ++ [.insert 0 true]) t →
      CreditedOnce usdtConfig (fun _ _ _ _ ↦ 0) .empty t := by
  refine ⟨rfl, deposits_credited_once _ _ _ _ fun t e t' htake ↦ ?_⟩
  refine Along.of_takes (C := ChecksSettled) ?_ htake
  simp only [deliverAndCredit, List.cons_append, List.nil_append, Along]
  refine ⟨by rintro _ _ ⟨⟩, fun s hs ↦ ⟨?_, fun _ _ ↦ ⟨by rintro _ _ ⟨⟩, fun _ _ ↦
    ⟨by rintro _ _ ⟨⟩, fun _ _ ↦ ⟨by rintro _ _ ⟨⟩, fun _ _ ↦ trivial⟩⟩⟩⟩⟩
  -- the only check finds a single delivery, and that one before its check
  have hreceive : depositStep usdtConfig (fun _ _ _ _ ↦ 0) usdtInitial
      (.receive 0 "" (.ok usdtNotification)) = some (usdtInitial.setDelivery 0 (.checking usdtNotification)) := rfl
  obtain rfl := Option.some_inj.mp (hreceive.symm.trans hs)
  rintro d req - -
  refine ⟨fun d' ↦ ?_, fun hmem ↦ nomatch hmem⟩
  rw [setDelivery_deliveries]
  split_ifs <;> exact nofun

/-- The first delivery is credited but not recorded, and the retry is credited again. -/
theorem deposit_credited_twice : ∃ t, Visits (depositStep usdtConfig fun _ _ _ _ ↦ 0) usdtInitial
        (deliverAndCredit 0 "cdep_1" ++ [.insert 0 false] ++ deliverAndCredit 1 "cdep_2") t ∧
      ¬ CreditedOnce usdtConfig (fun _ _ _ _ ↦ 0) .empty t := by
  refine ⟨_, visits_of_exec rfl, fun h ↦ ?_⟩
  exact absurd h.once (by decide)

end FunnyOption.Custody
