import FunnyOption.Rollup.Core
import FunnyOption.Rollup.Entries

/-!
# The conservation record of a batch

`BuildConservationRecord` books the entries of a batch by asset, as credits and debits, and commits to the
net amounts; its hash is a public input of the proof for the batch. The replay of the batch is another reading
of the same entries, which changes what accounts hold. This file compares the two.

They differ in three places. A payout is booked as a credit and a debit of what it pays, but it takes shares
from the account and pays collateral to it: both supplies change, and the record has neither. A deposit or a
withdrawal of an account without a positive id is booked and does not reach a balance. And a trade is booked
as if the buyer paid the seller, while the replay draws on the reserves of its two orders: those may be in
other assets than what the trade credits, or on the same side.

An entry is `Balanced` if it is none of these. The record tells the truth after each entry of a batch exactly
if all entries are balanced.

## Main results

* `netDelta_truthful_iff`: when the record tells the truth.
* `payout_not_recorded`: a payout that the record does not see.
-/

open Foundation

namespace FunnyOption.Rollup

open ShadowState

/-! ## The record -/

/-- `ConservationAssetDelta`. -/
structure ConservationAssetDelta where
  asset : String
  totalDebit : ℤ
  totalCredit : ℤ
  netDelta : ℤ
  deriving DecidableEq, Repr

/-- `ConservationRecord`. -/
structure ConservationRecord where
  version : String
  batchID : ℕ
  assetDeltas : List ConservationAssetDelta
  conservationHash : String
  conserved : Bool
  deriving DecidableEq, Repr

/-- `ConservationVersion`. -/
def conservationVersion : String := "funny-rollup-conservation-v1"

/-- The maps `credits` and `debits`, with the assets that are in one of them. -/
structure BookedTotals where
  credits : String → ℤ
  debits : String → ℤ
  assets : List String

namespace BookedTotals

/-- Nothing is booked. -/
def empty : BookedTotals := ⟨fun _ ↦ 0, fun _ ↦ 0, []⟩

variable (totals : BookedTotals)

/-- Book amounts of an asset. -/
def book (asset : String) (credit debit : ℤ) : BookedTotals where
  credits := Function.update totals.credits asset (totals.credits asset + credit)
  debits := Function.update totals.debits asset (totals.debits asset + debit)
  assets := if asset ∈ totals.assets then totals.assets else totals.assets ++ [asset]

/-- Book an entry. -/
def add : FullEntry → BookedTotals
  | .depositCredited p => totals.book (normalize p.asset) p.amount 0
  | .withdrawalRequested p => totals.book (normalize p.asset) 0 p.amount
  | .tradeMatched p =>
    totals.book (normalize p.collateralAsset) (p.price * p.quantity) (p.price * p.quantity)
  | .settlementPayout p => totals.book (normalize p.payoutAsset) p.payoutAmount p.payoutAmount
  | .nonceAdvanced _ => totals
  | .tradingKeyAuthorized _ => totals
  | .orderAccepted _ => totals
  | .orderCancelled _ => totals
  | .marketResolved _ => totals

/-- The line of an asset in the record. -/
def delta (asset : String) : ConservationAssetDelta where
  asset := asset
  totalDebit := totals.debits asset
  totalCredit := totals.credits asset
  netDelta := totals.credits asset - totals.debits asset

/-- The lines of the record, sorted by asset. -/
def deltas : List ConservationAssetDelta := (totals.assets.insertionSort (· ≤ ·)).map totals.delta

end BookedTotals

/-- The 32 bytes of a net amount. -/
def netBytes (net : ℤ) : Bytes := List.replicate 24 (if 0 ≤ net then 0 else 0xff) ++ uintBytes 8 (net % 2 ^ 64).toNat

/-- `computeConservationHash`. -/
def computeConservationHash (keccak256 : Bytes → Bytes32) (batchID : ℕ)
    (deltas : List ConservationAssetDelta) : String :=
  encodeHex0x (keccak256 (stringBytes conservationVersion ++ uintBytes 8 batchID ++
    uintBytes 4 deltas.length ++ deltas.flatMap fun delta ↦
      (keccak256 (stringBytes delta.asset)).1 ++ netBytes delta.netDelta)).1

/-- `BuildConservationRecord`. -/
def buildConservationRecord (keccak256 : Bytes → Bytes32) (batchID : ℕ) (entries : List FullEntry) :
    ConservationRecord :=
  let deltas := (entries.foldl BookedTotals.add .empty).deltas
  { version := conservationVersion
    batchID := batchID
    assetDeltas := deltas
    conservationHash := computeConservationHash keccak256 batchID deltas
    conserved := deltas.all fun delta ↦ delta.netDelta = 0 }

/-- The net amount that a record reports for an asset, zero if there is no line for it. -/
def ConservationRecord.netDeltaOf (record : ConservationRecord) (asset : String) : ℤ :=
  ((record.assetDeltas.find? fun delta ↦ delta.asset = asset).map ConservationAssetDelta.netDelta).getD 0

/-! ### What is booked -/

/-- The net amount that an entry is booked with. -/
def FullEntry.booked (asset : String) : FullEntry → ℤ
  | .depositCredited p => if normalize p.asset = asset then p.amount else 0
  | .withdrawalRequested p => if normalize p.asset = asset then -p.amount else 0
  | _ => 0

namespace BookedTotals

variable {totals : BookedTotals} {asset : String}

/-- The net amount of an asset. -/
def net (totals : BookedTotals) (asset : String) : ℤ := totals.credits asset - totals.debits asset

/-- Only assets with a line have an amount. -/
def Listed (totals : BookedTotals) : Prop :=
  ∀ asset, asset ∉ totals.assets → totals.credits asset = 0 ∧ totals.debits asset = 0

theorem listed_empty : empty.Listed := fun _ _ ↦ ⟨rfl, rfl⟩

theorem Listed.book (h : totals.Listed) (asset : String) (credit debit : ℤ) :
    (totals.book asset credit debit).Listed := by
  intro a ha
  have hne : a ≠ asset := by
    rintro rfl
    apply ha
    simp only [BookedTotals.book]
    split_ifs with hmem
    · exact hmem
    · simp
  have hout : a ∉ totals.assets := by
    intro hmem
    apply ha
    simp only [BookedTotals.book]
    split_ifs
    · exact hmem
    · exact List.mem_append_left _ hmem
  simp only [BookedTotals.book, Function.update_of_ne hne]
  exact h a hout

theorem net_book (totals : BookedTotals) (asset a : String) (credit debit : ℤ) :
    (totals.book asset credit debit).net a = totals.net a + if asset = a then credit - debit else 0 := by
  by_cases heq : asset = a
  · subst heq
    simp only [net, book, Function.update_self, if_true]
    omega
  · simp only [net, book, Function.update_of_ne (Ne.symm heq), if_neg heq, add_zero]

theorem add_spec (h : totals.Listed) (entry : FullEntry) :
    (totals.add entry).Listed ∧ ∀ asset, (totals.add entry).net asset = totals.net asset + entry.booked asset := by
  cases entry with
  | depositCredited p => exact ⟨h.book _ _ _, fun a ↦ by simp [add, net_book, FullEntry.booked]⟩
  | withdrawalRequested p => exact ⟨h.book _ _ _, fun a ↦ by simp [add, net_book, FullEntry.booked]⟩
  | tradeMatched p => exact ⟨h.book _ _ _, fun a ↦ by simp [add, net_book, FullEntry.booked]⟩
  | settlementPayout p => exact ⟨h.book _ _ _, fun a ↦ by simp [add, net_book, FullEntry.booked]⟩
  | nonceAdvanced p => exact ⟨h, fun _ ↦ (add_zero _).symm⟩
  | tradingKeyAuthorized p => exact ⟨h, fun _ ↦ (add_zero _).symm⟩
  | orderAccepted p => exact ⟨h, fun _ ↦ (add_zero _).symm⟩
  | orderCancelled p => exact ⟨h, fun _ ↦ (add_zero _).symm⟩
  | marketResolved p => exact ⟨h, fun _ ↦ (add_zero _).symm⟩

theorem foldl_add_spec (h : totals.Listed) (entries : List FullEntry) : (entries.foldl add totals).Listed ∧
      ∀ asset, (entries.foldl add totals).net asset =
        totals.net asset + (entries.map (FullEntry.booked asset)).sum := by
  induction entries generalizing totals with
  | nil => exact ⟨h, fun asset ↦ by simp⟩
  | cons entry entries ih =>
    obtain ⟨hlisted, hnet⟩ := add_spec h entry
    obtain ⟨hlisted', hnet'⟩ := ih hlisted
    refine ⟨hlisted', fun asset ↦ ?_⟩
    rw [List.foldl_cons, hnet', hnet, List.map_cons, List.sum_cons, add_assoc]

/-- The line of an asset has its net amount. -/
theorem find?_deltas (h : totals.Listed) (asset : String) :
    ((totals.deltas.find? fun delta ↦ delta.asset = asset).map ConservationAssetDelta.netDelta).getD 0 =
      totals.net asset := by
  have hfind : ∀ assets : List String, (assets.map totals.delta).find? (fun delta ↦ delta.asset = asset) =
      if asset ∈ assets then some (totals.delta asset) else none := by
    intro assets
    induction assets with
    | nil => rfl
    | cons a assets ih =>
      by_cases heq : a = asset
      · subst heq
        simp [delta]
      · rw [List.map_cons, List.find?_cons_of_neg, ih]
        · simp [List.mem_cons, Ne.symm heq]
        · exact fun h ↦ heq (of_decide_eq_true h)
  rw [deltas, hfind]
  split_ifs with hmem
  · rfl
  · rw [List.mem_insertionSort] at hmem
    obtain ⟨hcredit, hdebit⟩ := h asset hmem
    rw [Option.map_none, Option.getD_none, net, hcredit, hdebit, sub_zero]

end BookedTotals

/-- **What the record reports.** -/
theorem netDeltaOf_buildConservationRecord (keccak256 : Bytes → Bytes32) (batchID : ℕ) (entries : List FullEntry)
    (asset : String) :
    (buildConservationRecord keccak256 batchID entries).netDeltaOf asset =
      (entries.map (FullEntry.booked asset)).sum := by
  obtain ⟨hlisted, hnet⟩ := BookedTotals.foldl_add_spec BookedTotals.listed_empty entries
  rw [ConservationRecord.netDeltaOf, buildConservationRecord, BookedTotals.find?_deltas hlisted, hnet]
  exact zero_add _

/-! ## Balanced entries -/

namespace FullState

/-- An entry that changes the supply of each asset by what it is booked with: a deposit or withdrawal of an
account, a trade that credits what it draws, a payout in the asset that it settles, unit for unit. -/
def Balanced (s : FullState) : FullEntry → Prop
  | .depositCredited p => 0 < p.accountID ∨ p.amount = 0
  | .withdrawalRequested p => 0 < p.accountID ∨ p.amount = 0
  | .tradeMatched p => ∀ asset,
    movedIn (s.drawPostings p p.takerOrderID) asset + movedIn (s.drawPostings p p.makerOrderID) asset +
      movedIn (creditPostings p) asset = 0
  | .settlementPayout p =>
    normalize (payoutPositionAsset p) = normalize (payoutAsset p) ∧ p.settledQuantity = p.payoutAmount
  | .nonceAdvanced _ => True
  | .tradingKeyAuthorized _ => True
  | .orderAccepted _ => True
  | .orderCancelled _ => True
  | .marketResolved _ => True

end FullState

theorem movedIn_post (accountID : ℤ) (name asset : String) (amount : ℤ) :
    movedIn (post accountID name amount) asset =
      if 0 < accountID ∧ normalize name = asset then amount else 0 := by
  rw [post]
  split_ifs with haccount heq heq
  · rw [movedIn_cons, if_pos heq.2, movedIn_nil, add_zero]
  · rw [movedIn_cons, if_neg fun h ↦ heq ⟨haccount, h⟩, movedIn_nil, add_zero]
  · exact absurd heq.1 haccount
  · rfl

theorem movedIn_post_zero (accountID : ℤ) (name asset : String) : movedIn (post accountID name 0) asset = 0 := by
  rw [movedIn_post, ite_self]

/-- A deposit or a withdrawal reaches a balance, or it is nothing. -/
theorem movedIn_post_eq_iff (accountID : ℤ) (name : String) (amount : ℤ) :
    (∀ asset, movedIn (post accountID name amount) asset = if normalize name = asset then amount else 0) ↔
      0 < accountID ∨ amount = 0 := by
  simp only [movedIn_post]
  constructor
  · intro h
    by_cases haccount : 0 < accountID
    · exact .inl haccount
    · have hself := h (normalize name)
      rw [if_neg fun h ↦ haccount h.1, if_pos rfl] at hself
      exact .inr hself.symm
  · rintro (haccount | rfl) asset
    · simp only [haccount, true_and]
    · simp only [ite_self]

theorem movedIn_payoutPostings_eq_iff {p : SettlementPayoutPayload} (haccount : 0 < p.accountID)
    (hsettled : 0 < p.settledQuantity) :
    (∀ asset, movedIn (payoutPostings p) asset = 0) ↔
      normalize (payoutPositionAsset p) = normalize (payoutAsset p) ∧ p.settledQuantity = p.payoutAmount := by
  simp only [payoutPostings, movedIn_append, movedIn_post, haccount, true_and]
  constructor
  · intro h
    have hself := h (normalize (payoutPositionAsset p))
    rw [if_pos rfl] at hself
    split_ifs at hself with heq
    · exact ⟨heq.symm, by omega⟩
    · omega
  · rintro ⟨heq, hamount⟩ asset
    rw [heq, hamount]
    split_ifs
    · exact neg_add_cancel _
    · rfl

/-- **Balanced entries.** They are those that are booked as they are posted. -/
theorem balanced_iff {s s' : FullState} {sequence : ℕ} {entry : FullEntry} (h : s.apply sequence entry = .ok s') :
    s.Balanced entry ↔ ∀ asset, movedIn (s.postings entry) asset = entry.booked asset := by
  cases entry with
  | depositCredited p => exact (movedIn_post_eq_iff p.accountID p.asset p.amount).symm
  | withdrawalRequested p =>
    refine Iff.trans ?_ (movedIn_post_eq_iff p.accountID p.asset (-p.amount)).symm
    rw [neg_eq_zero]
    rfl
  | tradeMatched p =>
    refine forall_congr' fun asset ↦ ?_
    rw [FullState.postings, movedIn_append, movedIn_append]
    rfl
  | settlementPayout p =>
    obtain ⟨haccount, hsettled, -⟩ := payout_checked (FullState.onShadow_eq_ok h)
    exact (movedIn_payoutPostings_eq_iff haccount hsettled).symm
  | nonceAdvanced p => exact iff_of_true trivial fun _ ↦ rfl
  | tradingKeyAuthorized p => exact iff_of_true trivial fun _ ↦ rfl
  | orderAccepted p => exact iff_of_true trivial fun asset ↦ movedIn_post_zero _ _ asset
  | orderCancelled p => exact iff_of_true trivial fun asset ↦ movedIn_post_zero _ _ asset
  | marketResolved p => exact iff_of_true trivial fun _ ↦ rfl

/-! ## The record and the replay -/

variable {keccak256 : Bytes → Bytes32} {batchID : ℕ} {s t : FullState} {rows : List (JournalRow FullEntry)}

theorem finitelyHeld_run (hfinite : s.FinitelyHeld) (h : fullReplayer.run s rows = .ok t) : t.FinitelyHeld := by
  induction rows using List.reverseRecOn generalizing t with
  | nil =>
    obtain rfl := Except.ok.inj h
    exact hfinite
  | append_singleton rows row ih =>
    obtain ⟨u, hrun, happly⟩ := Replayer.run_concat_eq_ok.mp h
    exact (FullState.posts_apply happly).finitelyHeld (ih hrun)

/-- What the entries post in an asset as they are replayed. -/
def posted (asset : String) : FullState → List (JournalRow FullEntry) → ℤ
  | _, [] => 0
  | s, row :: rows =>
    movedIn (s.postings row.entry) asset +
      match s.apply row.sequence row.entry with
      | .error _ => 0
      | .ok s => posted asset s rows

/-- The supply of an asset changes by what is posted. -/
theorem supply_run (hfinite : s.FinitelyHeld) (h : fullReplayer.run s rows = .ok t) (asset : String) :
    t.supply asset = s.supply asset + posted asset s rows := by
  induction rows generalizing s with
  | nil =>
    obtain rfl := Except.ok.inj h
    rw [posted, add_zero]
  | cons row rows ih =>
    obtain ⟨u, happly, h⟩ := Replayer.run_cons_eq_ok.mp h
    have hposts := FullState.posts_apply happly
    rw [ih (hposts.finitelyHeld hfinite) h, posted, show s.apply row.sequence row.entry = .ok u from happly, supply,
      hposts.heldWhere hfinite, supply, add_assoc]
    rfl

/-- What the record of entries reports for each asset is the change of its supply. -/
def Truthful (keccak256 : Bytes → Bytes32) (batchID : ℕ) (s : FullState) (rows : List (JournalRow FullEntry))
    (t : FullState) : Prop :=
  ∀ asset, (buildConservationRecord keccak256 batchID (rows.map JournalRow.entry)).netDeltaOf asset =
    t.supply asset - s.supply asset

/-- One more entry leaves a record truthful if it is balanced. -/
theorem truthful_append_singleton_iff (hfinite : s.FinitelyHeld) {row : JournalRow FullEntry} {u : FullState}
    (hrun : fullReplayer.run s rows = .ok u) (happly : u.apply row.sequence row.entry = .ok t)
    (htruthful : Truthful keccak256 batchID s rows u) :
    Truthful keccak256 batchID s (rows ++ [row]) t ↔ u.Balanced row.entry := by
  rw [balanced_iff happly]
  refine forall_congr' fun asset ↦ ?_
  have hsupply : t.supply asset = u.supply asset + movedIn (u.postings row.entry) asset :=
    (FullState.posts_apply happly).heldWhere (finitelyHeld_run hfinite hrun) _
  have hrecord := htruthful asset
  rw [netDeltaOf_buildConservationRecord] at hrecord
  rw [netDeltaOf_buildConservationRecord, List.map_append, List.map_append, List.sum_append, hrecord, hsupply]
  simp only [List.map_cons, List.map_nil, List.sum_cons, List.sum_nil]
  omega

/-- **When the record tells the truth.** Of a batch that replays, the record of the entries so far reports
the changes of all supplies, after each entry, exactly if every entry is balanced in the state that it is
applied to. -/
theorem netDelta_truthful_iff (hfinite : FinitelyMany s.balances)
    (hrun : fullReplayer.run s rows = .ok t) :
    (∀ pre u, pre <+: rows → fullReplayer.run s pre = .ok u → Truthful keccak256 batchID s pre u) ↔
      ∀ pre row u, pre ++ [row] <+: rows → fullReplayer.run s pre = .ok u → u.Balanced row.entry := by
  have hheld : s.FinitelyHeld := finitelyHeld_of_finitelyMany hfinite
  constructor
  · intro h pre row u hpre hu
    obtain ⟨v, hv⟩ := run_of_prefix hpre hrun
    obtain ⟨u', hu', happly⟩ := Replayer.run_concat_eq_ok.mp hv
    obtain rfl : u' = u := Except.ok.inj (hu'.symm.trans hu)
    have hbefore := h pre u' ((List.prefix_append pre [row]).trans hpre) hu
    exact (truthful_append_singleton_iff hheld hu happly hbefore).mp (h _ v hpre hv)
  · intro h pre u hpre hu
    induction pre using List.reverseRecOn generalizing u with
    | nil =>
      obtain rfl := Except.ok.inj hu
      intro asset
      rw [netDeltaOf_buildConservationRecord, sub_self]
      rfl
    | append_singleton pre row ih =>
      obtain ⟨v, hv, happly⟩ := Replayer.run_concat_eq_ok.mp hu
      have hbefore := ih v ((List.prefix_append pre [row]).trans hpre) hv
      exact (truthful_append_singleton_iff hheld hv happly hbefore).mpr (h pre row v hpre hv)

/-! ## Batches -/

private def beforeTrade : FullState := stateAfter (shareSold.take 3)

private theorem balanced_beforeTrade : beforeTrade.Balanced
    (.tradeMatched ⟨"trd_1", 1, "USDT", 1, "YES", 60, 1, "b", "s", 1, 2, "BUY", "SELL", 0⟩) := by
  have htaker : beforeTrade.drawPostings
      ⟨"trd_1", 1, "USDT", 1, "YES", 60, 1, "b", "s", 1, 2, "BUY", "SELL", 0⟩ "b" =
      [((1, "USDT"), -60)] := by decide
  have hmaker : beforeTrade.drawPostings
      ⟨"trd_1", 1, "USDT", 1, "YES", 60, 1, "b", "s", 1, 2, "BUY", "SELL", 0⟩ "s" =
      [((2, "POSITION:1:YES"), -1)] := by decide
  have hcredit : creditPostings ⟨"trd_1", 1, "USDT", 1, "YES", 60, 1, "b", "s", 1, 2, "BUY", "SELL", 0⟩ =
      [((1, "POSITION:1:YES"), 1), ((2, "USDT"), 60)] := by decide
  intro asset
  rw [htaker, hmaker, hcredit]
  simp only [movedIn_cons, movedIn_nil]
  split_ifs <;> omega

/-- The record of the deposit and of the sold share is truthful. -/
theorem shareSold_truthful :
    ∃ t, fullReplayer.run .empty shareSold = .ok t ∧ Truthful halfHash 1 .empty shareSold t := by
  have ht := run_of_isOk (by decide : (fullReplayer.run .empty shareSold).isOk = true)
  refine ⟨_, ht, (netDelta_truthful_iff finitelyMany_none ht).mpr ?_ shareSold _ List.prefix_rfl ht⟩
  intro pre row u hpre hu
  refine forall_rows_of_forall_take (P := fun u row ↦ u.Balanced row.entry) (fun k row u hrow hu ↦ ?_) hpre hu
  have hlength : k < 4 := (List.getElem?_eq_some_iff.mp hrow).1
  interval_cases k
  · cases hrow
    exact .inl (by decide)
  · cases hrow
    trivial
  · cases hrow
    trivial
  · cases hrow
    rw [run_of_isOk (by decide)] at hu
    cases hu
    exact balanced_beforeTrade

/-- **A payout that the record does not see.** It reports 60 for the collateral, and the accounts hold 160. -/
theorem payout_not_recorded : ∃ t, fullReplayer.run .empty (shareSold ++ [sharePaid]) = .ok t ∧
      (buildConservationRecord halfHash 1 ((shareSold ++ [sharePaid]).map JournalRow.entry)).netDeltaOf
        "USDT" = 60 ∧
      t.supply "USDT" - FullState.empty.supply "USDT" = 160 := by
  have ht := run_of_isOk
    (by decide +kernel : (fullReplayer.run .empty (shareSold ++ [sharePaid])).isOk = true)
  refine ⟨_, ht, ?_, ?_⟩
  · rw [netDeltaOf_buildConservationRecord]
    decide
  · rw [supply_run finitelyHeld_empty ht, add_sub_cancel_left]
    decide +kernel

end FunnyOption.Rollup
