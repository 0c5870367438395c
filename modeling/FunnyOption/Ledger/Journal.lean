import FunnyOption.Settlement.Payouts

/-!
# The ledger

The ledger is a journal of entries. An entry has postings, each of which debits or credits an account in an asset,
and the debits of an entry are equal to its credits in every asset. The balance of an account is read off the
whole journal. An event of a trade becomes an entry of four postings: the collateral goes from the buyer to the
seller, and the position from the seller to the buyer. An event of a settlement takes the position from the user
into a pool, and pays the user from the treasury of the market.

Accounts are texts. Those of a user begin with `user:` and the number of the user, see `BelongsTo`. What a user has
of an asset is the sum of the balances of these accounts.

## The model

An entry has no id before it is appended, so that it is given a new one; the id that `NewID` makes up is an argument.
Whether the store took the entry is an argument as well. The time and the status of an entry are left out. A
posting has one of the two directions, so that the branch for an unknown direction is empty. The sums that `Append`
compares are sums of 64 bits, which wrap around; balances are exact.

## Main results

* `Journal.userBalance_append`: an entry changes what a user has by its postings.
-/

open Foundation

namespace FunnyOption.Ledger

open Account (TradeMatchedEvent)
open Settlement (SettlementCompletedEvent)

/-! ## Data -/

/-- The errors of the ledger. -/
inductive LedgerError where
  | emptyEntry
  | invalidPosting
  | unbalancedEntry (asset : String) (debit credit : ℤ)
  | duplicateEntryID
  | store
  | message (text : String)
  deriving DecidableEq

/-- `BizType`. -/
inductive BizType where
  | trade
  | fee
  | deposit
  | withdraw
  | transfer
  | settlement
  deriving DecidableEq

/-- `Direction`. -/
inductive Direction where
  | debit
  | credit
  deriving DecidableEq

/-- `Posting`. -/
structure Posting where
  account : String
  asset : String
  direction : Direction
  amount : ℤ
  deriving DecidableEq

/-- `Entry`. -/
structure Entry where
  entryID : String
  bizType : BizType
  refID : String
  postings : List Posting
  deriving DecidableEq

/-- `Journal`. -/
structure Journal where
  entries : List Entry
  entrySeen : List String

/-! ## Entries -/

/-- `normalizeAsset`. -/
def normalizeAsset (asset : String) : String := toUpper (trimSpace asset)

/-- `normalizeAccount`. -/
def normalizeAccount (account : String) : String := toLower (trimSpace account)

/-- A posting with its account and its asset normalised. -/
def Posting.normalize (p : Posting) : Posting :=
  { p with account := normalizeAccount p.account, asset := normalizeAsset p.asset }

/-- A posting that is refused. -/
def Posting.Invalid (p : Posting) : Prop := p.account = "" ∨ p.asset = "" ∨ p.amount ≤ 0

instance (p : Posting) : Decidable p.Invalid := inferInstanceAs (Decidable (_ ∨ _ ∨ _))

/-- What the postings of a direction add up to in an asset. -/
def exactSum (postings : List Posting) (direction : Direction) (asset : String) : ℤ :=
  ((postings.filter fun p ↦ p.direction = direction ∧ p.asset = asset).map Posting.amount).sum

/-- `debitByAsset` and `creditByAsset`: the sum as the loop computes it in an `int64`. -/
def sumBy (postings : List Posting) (direction : Direction) (asset : String) : ℤ :=
  (exactSum postings direction asset).bmod (2 ^ 64)

/-- An asset whose debits are not its credits. The loop of the source goes through a map, in any order. -/
def unbalanced (postings : List Posting) : Option String :=
  (postings.map Posting.asset).find? fun asset ↦ sumBy postings .debit asset ≠ sumBy postings .credit asset

/-- `normalizeEntry`. -/
def normalizeEntry (newID : String) (entry : Entry) : Except LedgerError Entry :=
  if entry.postings = [] then .error .emptyEntry
  else
    let postings := entry.postings.map Posting.normalize
    if ∃ p ∈ postings, p.Invalid then .error .invalidPosting
    else
      match unbalanced postings with
      | some asset => .error (.unbalancedEntry asset (sumBy postings .debit asset) (sumBy postings .credit asset))
      | none =>
        .ok
          { entryID := if trimSpace entry.entryID = "" then newID else entry.entryID
            bizType := entry.bizType
            refID := trimSpace entry.refID
            postings := postings }

theorem exactSum_of_not_mem {postings : List Posting} {asset : String} (h : asset ∉ postings.map Posting.asset)
    (direction : Direction) : exactSum postings direction asset = 0 := by
  have hnone : postings.filter (fun p ↦ p.direction = direction ∧ p.asset = asset) = [] := by
    rw [List.filter_eq_nil_iff]
    intro p hp hasset
    exact h (List.mem_map.mpr ⟨p, hp, (of_decide_eq_true hasset).2⟩)
  rw [exactSum, hnone, List.map_nil, List.sum_nil]

theorem unbalanced_eq_none_iff {postings : List Posting} :
    unbalanced postings = none ↔ ∀ asset, sumBy postings .debit asset = sumBy postings .credit asset := by
  simp only [unbalanced, List.find?_eq_none, decide_eq_true_eq, not_not]
  refine ⟨fun h asset ↦ ?_, fun h asset _ ↦ h asset⟩
  by_cases hmem : asset ∈ postings.map Posting.asset
  · exact h asset hmem
  · rw [sumBy, sumBy, exactSum_of_not_mem hmem, exactSum_of_not_mem hmem]

/-- The entries that are accepted, and what becomes of them. -/
theorem normalizeEntry_eq_ok_iff {newID : String} {entry normalized : Entry} :
    normalizeEntry newID entry = .ok normalized ↔
      (entry.postings ≠ [] ∧ (∀ p ∈ entry.postings, ¬ p.normalize.Invalid) ∧
        ∀ asset, sumBy (entry.postings.map Posting.normalize) .debit asset =
          sumBy (entry.postings.map Posting.normalize) .credit asset) ∧
      normalized =
        { entryID := if trimSpace entry.entryID = "" then newID else entry.entryID
          bizType := entry.bizType
          refID := trimSpace entry.refID
          postings := entry.postings.map Posting.normalize } := by
  have hvalid : (∀ p ∈ entry.postings, ¬ p.normalize.Invalid) ↔
      ¬ ∃ p ∈ entry.postings.map Posting.normalize, p.Invalid := by simp
  rw [← unbalanced_eq_none_iff, hvalid, normalizeEntry]
  by_cases hnil : entry.postings = []
  · simp [hnil]
  by_cases hinvalid : ∃ p ∈ entry.postings.map Posting.normalize, p.Invalid
  · simp only [if_neg hnil, hinvalid, if_true, not_true_eq_false, false_and, and_false, reduceCtorEq]
  · rw [if_neg hnil]
    dsimp only
    rw [if_neg hinvalid]
    cases unbalanced (entry.postings.map Posting.normalize) with
    | none => simp only [hnil, hinvalid, not_false_eq_true, ne_eq, and_self, true_and, Except.ok.injEq, eq_comm]
    | some asset => simp only [and_false, false_and, reduceCtorEq]

namespace Journal

variable (j : Journal)

/-- `NewJournal`. -/
def empty : Journal := ⟨[], []⟩

/-- `Append`. -/
def append (newID : String) (stored : Bool) (entry : Entry) : Journal × Except LedgerError Entry :=
  match normalizeEntry newID entry with
  | .error e => (j, .error e)
  | .ok normalized =>
    if normalized.entryID ∈ j.entrySeen then (j, .error .duplicateEntryID)
    else if ¬ stored then (j, .error .store)
    else (⟨j.entries ++ [normalized], normalized.entryID :: j.entrySeen⟩, .ok normalized)

/-- What a posting adds to a balance. -/
def effect (account asset : String) (p : Posting) : ℤ :=
  if normalizeAccount p.account ≠ account ∨ normalizeAsset p.asset ≠ asset then 0
  else
    match p.direction with
    | .credit => p.amount
    | .debit => -p.amount

/-- `BalanceOf`. -/
def balanceOf (account asset : String) : ℤ :=
  (j.entries.map fun entry ↦
    (entry.postings.map (effect (normalizeAccount account) (normalizeAsset asset))).sum).sum

end Journal

/-! ## Events -/

/-- `availableAccount`. -/
def availableAccount (userID : ℤ) : String := "user:" ++ toString userID ++ ":" ++ "available"

/-- `positionAccount`. -/
def positionAccount (userID marketID : ℤ) (outcome : String) : String :=
  "user:" ++ toString userID ++ ":" ++ ("position:" ++ toString marketID ++ ":" ++ toUpper (trimSpace outcome))

/-- `marketTreasuryAccount`. -/
def marketTreasuryAccount (marketID : ℤ) : String := "market:" ++ toString marketID ++ ":treasury"

/-- `resolvedPoolAccount`. -/
def resolvedPoolAccount (marketID : ℤ) (outcome : String) : String :=
  "market:" ++ toString marketID ++ ":resolved:" ++ outcome

/-- `tradeNotional`. -/
def tradeNotional (price quantity : ℤ) : Except LedgerError ℤ :=
  if price ≤ 0 ∨ quantity ≤ 0 then .error (.message "trade notional requires positive price and quantity")
  else if price > maxInt64 / quantity then .error (.message "trade notional overflow")
  else .ok (price * quantity)

/-- The user who buys and the one who sells. -/
def parties (event : TradeMatchedEvent) : Except LedgerError (ℤ × ℤ) :=
  event.bySide (.ok (event.takerUserID, event.makerUserID)) (.ok (event.makerUserID, event.takerUserID))
    (.error (.message ("unsupported taker side: " ++ event.takerSide)))

/-- `transferParties`: who pays and who receives. -/
def transferParties (event : TradeMatchedEvent) : Except LedgerError (ℤ × ℤ) := parties event

/-- `positionParties`: who buys and who sells. -/
def positionParties (event : TradeMatchedEvent) : Except LedgerError (ℤ × ℤ) := parties event

/-- The collateral of a trade. -/
def tradeAsset (event : TradeMatchedEvent) : String :=
  if toUpper (trimSpace event.collateralAsset) = "" then "USDT" else toUpper (trimSpace event.collateralAsset)

/-- The entry of a trade. -/
def tradeEntry (event : TradeMatchedEvent) (notional payer receiver buyer seller : ℤ) : Entry where
  entryID := ""
  bizType := .trade
  refID := event.eventID
  postings := [⟨availableAccount payer, tradeAsset event, .debit, notional⟩,
      ⟨availableAccount receiver, tradeAsset event, .credit, notional⟩,
      ⟨positionAccount seller event.marketID event.outcome, Assets.positionAsset event.marketID event.outcome,
        .debit, event.quantity⟩,
      ⟨positionAccount buyer event.marketID event.outcome, Assets.positionAsset event.marketID event.outcome,
        .credit, event.quantity⟩]

/-- The entry of a settlement. -/
def settlementEntry (event : SettlementCompletedEvent) : Entry where
  entryID := ""
  bizType := .settlement
  refID := event.eventID
  postings := [⟨positionAccount event.userID event.marketID event.winningOutcome, event.positionAsset, .debit,
        event.settledQuantity⟩,
      ⟨resolvedPoolAccount event.marketID event.winningOutcome, event.positionAsset, .credit, event.settledQuantity⟩,
      ⟨marketTreasuryAccount event.marketID, event.payoutAsset, .debit, event.payoutAmount⟩,
      ⟨availableAccount event.userID, event.payoutAsset, .credit, event.payoutAmount⟩]

namespace Journal

variable (j : Journal)

/-- `TradeProcessor.HandleTradeMatched`. -/
def handleTradeMatched (newID : String) (stored : Bool) (event : TradeMatchedEvent) :
    Journal × Except LedgerError Unit :=
  match tradeNotional event.price event.quantity with
  | .error e => (j, .error e)
  | .ok notional =>
    match transferParties event with
    | .error e => (j, .error e)
    | .ok (payer, receiver) =>
      match positionParties event with
      | .error e => (j, .error e)
      | .ok (buyer, seller) =>
        let appended := j.append newID stored (tradeEntry event notional payer receiver buyer seller)
        (appended.1, appended.2.map fun _ ↦ ())

/-- `SettlementProcessor.HandleSettlementCompleted`. -/
def handleSettlementCompleted (newID : String) (stored : Bool) (event : SettlementCompletedEvent) :
    Journal × Except LedgerError Unit :=
  let appended := j.append newID stored (settlementEntry event)
  (appended.1, appended.2.map fun _ ↦ ())

end Journal

/-! ## What a user has -/

/-- The accounts of a user. -/
def BelongsTo (userID : ℤ) (account : String) : Prop := ("user:" ++ toString userID ++ ":").toList <+: account.toList

instance (userID : ℤ) (account : String) : Decidable (BelongsTo userID account) :=
  inferInstanceAs (Decidable (_ <+: _))

namespace Journal

/-- All postings. -/
def postings (j : Journal) : List Posting := j.entries.flatMap Entry.postings

/-- The accounts that the journal names. -/
def accounts (j : Journal) : Finset String := (j.postings.map fun p ↦ normalizeAccount p.account).toFinset

/-- The balance of a user in an asset, over all accounts of the user. -/
def userBalance (j : Journal) (userID : ℤ) (asset : String) : ℤ :=
  ∑ account ∈ j.accounts with BelongsTo userID account, j.balanceOf account asset

end Journal

theorem normalizeAsset_normalizeAsset (asset : String) :
    normalizeAsset (normalizeAsset asset) = normalizeAsset asset := by
  simp only [normalizeAsset, trimSpace_toUpper, trimSpace_trimSpace, toUpper_toUpper]

theorem normalizeAccount_normalizeAccount (account : String) :
    normalizeAccount (normalizeAccount account) = normalizeAccount account := by
  simp only [normalizeAccount, trimSpace_toLower, trimSpace_trimSpace, toLower_toLower]

/-- The amount of a posting, with its sign. -/
def Posting.signed (p : Posting) : ℤ :=
  match p.direction with
  | .credit => p.amount
  | .debit => -p.amount

/-- What a posting adds to the balance of a user. -/
def Posting.userEffect (userID : ℤ) (asset : String) (p : Posting) : ℤ :=
  if BelongsTo userID (normalizeAccount p.account) ∧ normalizeAsset p.asset = normalizeAsset asset then
    match p.direction with
    | .credit => p.amount
    | .debit => -p.amount
  else 0

theorem Posting.userEffect_normalize (userID : ℤ) (asset : String) (p : Posting) :
    p.normalize.userEffect userID asset = p.userEffect userID asset := by
  simp only [Posting.userEffect, Posting.normalize, normalizeAccount_normalizeAccount, normalizeAsset_normalizeAsset]

namespace Journal

variable {j : Journal}

theorem balanceOf_eq (account asset : String) : j.balanceOf account asset =
      (j.postings.map (effect (normalizeAccount account) (normalizeAsset asset))).sum := by
  rw [balanceOf, postings, List.map_flatMap, List.flatMap_def, List.sum_flatten, List.map_map]
  rfl

/-- A posting is counted for its account, and for no other. -/
theorem sum_effect {accounts : Finset String} (P : String → Prop) [DecidablePred P] (asset : String) {p : Posting}
    (hp : normalizeAccount p.account ∈ accounts) (hnormal : ∀ a ∈ accounts, normalizeAccount a = a) :
    ∑ a ∈ accounts with P a, effect (normalizeAccount a) (normalizeAsset asset) p =
      if P (normalizeAccount p.account) ∧ normalizeAsset p.asset = normalizeAsset asset then p.signed else 0 := by
  have heffect : ∀ a ∈ accounts.filter P, effect (normalizeAccount a) (normalizeAsset asset) p =
      if normalizeAccount p.account = a then
        if normalizeAsset p.asset = normalizeAsset asset then p.signed else 0 else 0 := by
    intro a ha
    rw [hnormal a (Finset.mem_filter.mp ha).1, effect]
    by_cases heq : normalizeAccount p.account = a
    · simp only [heq, ne_eq, not_true_eq_false, false_or, if_true, ite_not]
      rfl
    · rw [if_pos (.inl heq), if_neg heq]
  rw [Finset.sum_congr rfl heffect, Finset.sum_ite_eq]
  simp only [Finset.mem_filter, hp, true_and, ite_and]

/-- **Sums of balances.** What some of the accounts have is what the postings to them add up to. -/
theorem sum_balanceOf (P : String → Prop) [DecidablePred P] (asset : String) :
    ∑ account ∈ j.accounts with P account, j.balanceOf account asset =
      (j.postings.map fun p ↦
        if P (normalizeAccount p.account) ∧ normalizeAsset p.asset = normalizeAsset asset then p.signed
        else 0).sum := by
  have hnormal : ∀ a ∈ j.accounts, normalizeAccount a = a := by
    intro a ha
    obtain ⟨p, -, rfl⟩ := List.mem_map.mp (List.mem_toFinset.mp ha)
    exact normalizeAccount_normalizeAccount p.account
  have hmem : ∀ p ∈ j.postings, normalizeAccount p.account ∈ j.accounts :=
    fun p hp ↦ List.mem_toFinset.mpr (List.mem_map_of_mem hp)
  simp only [balanceOf_eq]
  generalize j.accounts = accounts at hnormal hmem ⊢
  generalize j.postings = ps at hmem ⊢
  -- the sum over accounts goes into the sum over postings
  induction ps with
  | nil => simp
  | cons p ps ih =>
    simp only [List.map_cons, List.sum_cons, Finset.sum_add_distrib]
    rw [sum_effect P asset (hmem p List.mem_cons_self) hnormal, ih fun q hq ↦ hmem q (List.mem_cons_of_mem p hq)]

/-- What a user has is what the postings add up to. -/
theorem userBalance_eq (userID : ℤ) (asset : String) :
    j.userBalance userID asset = (j.postings.map (Posting.userEffect userID asset)).sum :=
  sum_balanceOf (BelongsTo userID) asset

/-- An entry that passes all checks. -/
structure Accepts (j : Journal) (newID : String) (stored : Bool) (entry : Entry) : Prop where
  nonempty : entry.postings ≠ []
  valid : ∀ p ∈ entry.postings, ¬ p.normalize.Invalid
  balanced : ∀ asset, sumBy (entry.postings.map Posting.normalize) .debit asset =
    sumBy (entry.postings.map Posting.normalize) .credit asset
  entryID : entry.entryID = ""
  fresh : newID ∉ j.entrySeen
  stored : stored = true

/-- **What `Append` does.** It refuses, or it adds the normalised entry. -/
theorem append_cases (j : Journal) (newID : String) (stored : Bool) (entry : Entry) :
    ((j.append newID stored entry).1 = j ∧ ∃ e, (j.append newID stored entry).2 = .error e) ∨
    ∃ normalized, normalizeEntry newID entry = .ok normalized ∧ (j.append newID stored entry).2 = .ok normalized ∧
      (j.append newID stored entry).1.entries = j.entries ++ [normalized] := by
  rw [append]
  split
  · exact .inl ⟨rfl, _, rfl⟩
  · next normalized hnormalized =>
    split_ifs with hseen hstored
    · exact .inl ⟨rfl, _, rfl⟩
    · exact .inr ⟨normalized, hnormalized, rfl, rfl⟩
    · exact .inl ⟨rfl, _, rfl⟩

/-- **An entry changes what a user has by its postings.** -/
theorem userBalance_append {newID : String} {stored : Bool} {entry : Entry} (h : j.Accepts newID stored entry)
    (userID : ℤ) (asset : String) :
    (j.append newID stored entry).1.userBalance userID asset =
      j.userBalance userID asset + (entry.postings.map (Posting.userEffect userID asset)).sum := by
  have hid : trimSpace "" = "" := rfl
  rw [append, normalizeEntry_eq_ok_iff.mpr ⟨⟨h.nonempty, h.valid, h.balanced⟩, rfl⟩, h.entryID, if_pos hid]
  dsimp only
  rw [if_neg h.fresh, if_neg (by simp [h.stored]), userBalance_eq, userBalance_eq]
  have hpostings : (entry.postings.map Posting.normalize).map (Posting.userEffect userID asset) =
      entry.postings.map (Posting.userEffect userID asset) := by
    rw [List.map_map]
    exact List.map_congr_left fun p _ ↦ p.userEffect_normalize userID asset
  rw [postings, List.flatMap_append, List.map_append, List.sum_append]
  simp only [List.flatMap_cons, List.flatMap_nil, List.append_nil]
  rw [hpostings]
  rfl

end Journal

/-! ## Accounts -/

/-- What an account of a user looks like when it is normalised. -/
theorem normalizeAccount_user (userID : ℤ) {rest : String} (hrest : trimSpace rest = rest) :
    normalizeAccount ("user:" ++ toString userID ++ ":" ++ rest) =
      "user:" ++ toString userID ++ ":" ++ toLower rest := by
  have huser : toLower "user:" = "user:" := by decide
  have hcolon : toLower ":" = ":" := by decide
  rw [normalizeAccount, trimSpace_numbered userID (by decide) hrest, toLower_append, toLower_append,
    toLower_append, toLower_toString, huser, hcolon]

/-- **The accounts of different users are different.** -/
theorem belongsTo_user (userID owner : ℤ) (rest : String) :
    BelongsTo userID ("user:" ++ toString owner ++ ":" ++ rest) ↔ userID = owner := by
  constructor
  · rintro ⟨tail, htail⟩
    simp only [String.toList_append, List.append_assoc, List.append_cancel_left_eq] at htail
    have hcons : (toString userID).toList ++ ':' :: tail = (toString owner).toList ++ ':' :: rest.toList := htail
    have htext := (append_cons_inj (colon_notMem_toString _) (colon_notMem_toString _) hcons).1
    exact toString_int_injective (String.toList_inj.mp htext)
  · rintro rfl
    exact ⟨rest.toList, by rw [← String.toList_append]⟩

theorem belongsTo_availableAccount (userID owner : ℤ) :
    BelongsTo userID (normalizeAccount (availableAccount owner)) ↔ userID = owner := by
  rw [availableAccount, normalizeAccount_user owner (by decide)]
  exact belongsTo_user userID owner _

theorem belongsTo_positionAccount (userID owner marketID : ℤ) (outcome : String) :
    BelongsTo userID (normalizeAccount (positionAccount owner marketID outcome)) ↔ userID = owner := by
  have houtcome : trimSpace (toUpper (trimSpace outcome)) = toUpper (trimSpace outcome) := by
    rw [trimSpace_toUpper, trimSpace_trimSpace]
  rw [positionAccount, normalizeAccount_user owner (trimSpace_numbered marketID (by decide) houtcome)]
  exact belongsTo_user userID owner _

/-- An account of a market belongs to no user. -/
theorem not_belongsTo_market (userID : ℤ) (rest : String) :
    ¬ BelongsTo userID (normalizeAccount ("market:" ++ rest)) := by
  rintro ⟨tail, htail⟩
  have htext : ("market:" ++ rest).toList = 'm' :: ("arket:".toList ++ rest.toList) := by
    rw [String.toList_append]
    rfl
  -- what is left of the text when it is trimmed begins as the text does
  have htrim : (trimSpace ("market:" ++ rest)).toList <+: 'm' :: ("arket:".toList ++ rest.toList) := by
    rw [trimSpace, String.toList_ofList, htext, List.dropWhile_cons_of_neg (by decide)]
    exact List.rdropWhile_prefix isSpace _
  have hlower : 'u' :: ("ser:" ++ toString userID ++ ":").toList ++ tail =
      (trimSpace ("market:" ++ rest)).toList.map Char.toLower := by
    rw [← String.toList_ofList (l := List.map _ _), ← toLower, ← normalizeAccount, ← htail]
    simp
  cases hchars : (trimSpace ("market:" ++ rest)).toList with
  | nil =>
    rw [hchars] at hlower
    cases hlower
  | cons c cs =>
    rw [hchars] at htrim hlower
    obtain rfl : c = 'm' := (List.cons_prefix_cons.mp htrim).1
    exact absurd (List.cons.inj hlower).1 (by decide)

end FunnyOption.Ledger
