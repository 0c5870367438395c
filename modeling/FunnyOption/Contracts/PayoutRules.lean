import FunnyOption.Contracts.Vault
import FunnyOption.Foundation.Run

/-!
# The payout rules of the vault

The vault keeps three rules over whole histories of calls: a claim is paid once, the operator's payments of a day
stay under the cap, and a large payment of the operator was queued long enough before. It stores less than the
history: a flag and a record for each claim, the total of one day, and the latest state of each queued claim. The
invariant says what these fields mean in terms of the calls so far.

The history has the newest call first, so that what came before a call is the rest of the list behind it.

## Main results

* `VaultHistory.payout_rules`: every history with fixed settings keeps the rules.
-/

open Foundation

namespace FunnyOption.Contracts

open Rollup

/-! ## Histories -/

/-- Settings under which the cap and the delay are in force. -/
structure PayoutSettings where
  operator : Address
  rollupCore : Address
  cap : ℕ
  threshold : ℕ
  delay : ℕ
  cap_pos : 0 < cap
  threshold_pos : 0 < threshold
  delay_pos : 0 < delay

/-- A call that was made. -/
structure VaultTransaction where
  sender : Address
  now : ℕ
  call : VaultCall

/-- The vault, the time of the latest block and the calls that did not revert, the newest first. -/
structure VaultHistory where
  vault : FunnyVault
  now : ℕ
  calls : List VaultTransaction

/-- The vault has these settings. -/
structure FunnyVault.Follows (vault : FunnyVault) (c : PayoutSettings) : Prop where
  operator : vault.operator = c.operator
  rollupCore : vault.rollupCore = c.rollupCore
  cap : vault.operatorEpochClaimCap = c.cap
  threshold : vault.timelockThreshold = c.threshold
  delay : vault.timelockDelay = c.delay

/-- The call does not change the settings. -/
def VaultCall.Keeps (c : PayoutSettings) : VaultCall → Prop
  | .setRollupCore rollupCore => rollupCore = c.rollupCore
  | .setOperatorEpochClaimCap cap => cap = c.cap
  | .setTimelockConfig threshold delay => threshold = c.threshold ∧ delay = c.delay
  | _ => True

/-- The claim that a call pays, with its id. -/
def VaultTransaction.paid (tx : VaultTransaction) : Option (Bytes32 × ClaimRecord) :=
  match tx.call with
  | .processClaim claimId claim _ => some (claimId, claim)
  | _ => none

/-- What a call counts for in a day of the operator. -/
def VaultTransaction.spent (operator : Address) (epoch : ℕ) (tx : VaultTransaction) : ℕ :=
  match tx.paid with
  | some (_, claim) => if tx.sender = operator ∧ tx.now / epochDuration = epoch then claim.amount else 0
  | none => 0

/-- The payment was queued, the delay has passed, and it was not cancelled since. -/
def QueuedBefore (delay now : ℕ) (claimId : Bytes32) (claim : ClaimRecord) (earlier : List VaultTransaction) : Prop :=
  ∃ between queued before, earlier = between ++ queued :: before ∧ queued.call = .queueClaim claimId claim ∧
    queued.now + delay ≤ now ∧ ∀ tx ∈ between, tx.call ≠ .cancelQueuedClaim claimId

namespace VaultHistory

/-- A vault with these settings that was not called yet. -/
def start (c : PayoutSettings) : VaultHistory where
  vault := { FunnyVault.new c.operator with
    rollupCore := c.rollupCore
    operatorEpochClaimCap := c.cap
    timelockThreshold := c.threshold
    timelockDelay := c.delay }
  now := 0
  calls := []

/-- One call, in a block that is not older than the latest one. -/
def step (s : VaultHistory) (tx : VaultTransaction) : Option VaultHistory :=
  if s.now ≤ tx.now then
    match s.vault.call tx.sender tx.now tx.call with
    | .ok vault => some ⟨vault, tx.now, tx :: s.calls⟩
    | .error _ => some { s with now := tx.now }
  else none

/-- The claims that were paid. -/
def paid (s : VaultHistory) : List (Bytes32 × ClaimRecord) := s.calls.filterMap (·.paid)

/-- The total of the operator's payments of a day. -/
def spent (c : PayoutSettings) (s : VaultHistory) (epoch : ℕ) : ℕ := (s.calls.map (·.spent c.operator epoch)).sum

/-- The rules. -/
structure PayoutRules (c : PayoutSettings) (s : VaultHistory) : Prop where
  once : (s.paid.map Prod.fst).Nodup
  recorded : ∀ p ∈ s.paid, s.vault.processedClaims p.1 = true ∧ s.vault.processedClaimRecords p.1 = p.2
  capped : ∀ epoch, s.spent c epoch ≤ c.cap
  delayed : ∀ later tx earlier, s.calls = later ++ tx :: earlier → tx.sender = c.operator →
    ∀ claimId claim, tx.paid = some (claimId, claim) → c.threshold ≤ claim.amount →
      QueuedBefore c.delay tx.now claimId claim earlier

/-- What the fields of the vault say about the history. -/
structure Reflects (c : PayoutSettings) (s : VaultHistory) : Prop extends PayoutRules c s where
  follows : s.vault.Follows c
  unpaid : ∀ claimId, s.vault.processedClaims claimId = false → claimId ∉ s.paid.map Prod.fst
  today : ∀ epoch, epoch * epochDuration = s.vault.currentEpochStart → s.spent c epoch = s.vault.currentEpochClaimed
  future : ∀ epoch, s.vault.currentEpochStart < epoch * epochDuration → s.spent c epoch = 0
  day : ∃ day, s.vault.currentEpochStart = day * epochDuration ∧ day * epochDuration ≤ s.now
  queued : ∀ claimId, (s.vault.pendingClaims claimId).executeAfter ≠ 0 →
    (s.vault.pendingClaims claimId).cancelled = false →
      QueuedBefore c.delay (s.vault.pendingClaims claimId).executeAfter claimId
        (s.vault.pendingClaims claimId).toClaimRecord s.calls

end VaultHistory

/-! ## What a call does to the queue and the day -/

namespace FunnyVault

variable {c : PayoutSettings} {vault vault' : FunnyVault} {sender : Address} {now : ℕ} {claimId : Bytes32}
  {claim : ClaimRecord} {transfers : Bool} {amount : ℕ}

/-- The total of the day of a block. -/
def claimedAt (vault : FunnyVault) (now : ℕ) : ℕ :=
  if now / epochDuration * epochDuration ≠ vault.currentEpochStart then 0 else vault.currentEpochClaimed

theorem chargeEpoch_eq (hcap : 0 < vault.operatorEpochClaimCap) (h : vault.chargeEpoch now amount = .ok vault') :
    vault.claimedAt now + amount ≤ vault.operatorEpochClaimCap ∧
      vault' = { vault with
        currentEpochStart := now / epochDuration * epochDuration
        currentEpochClaimed := vault.claimedAt now + amount } := by
  rw [chargeEpoch, if_neg hcap.ne'] at h
  dsimp only at h
  rw [← claimedAt, checkedAdd] at h
  split_ifs at h
  · dsimp only at h
    split_ifs at h with hover
    cases h
    exact ⟨Nat.le_of_not_lt hover, rfl⟩

theorem payClaim_eq (h : vault.payClaim now claimId claim transfers = .ok vault') : vault.Open now claimId claim ∧
      vault' = { vault with
        processedClaims := Function.update vault.processedClaims claimId true
        processedClaimRecords := Function.update vault.processedClaimRecords claimId claim } := by
  rw [← checkPending_eq_none_iff]
  rw [payClaim] at h
  split at h
  · cases h
  · next hnone =>
    split_ifs at h
    cases h
    exact ⟨hnone, rfl⟩

/-- What a payment asks of the queue, and what it does to the day: nothing, unless the operator makes it. -/
structure Charged (c : PayoutSettings) (vault : FunnyVault) (sender : Address) (now : ℕ) (claimId : Bytes32)
    (claim : ClaimRecord) (vault' : FunnyVault) : Prop where
  follows : vault'.Follows c
  pending : vault'.pendingClaims = vault.pendingClaims
  isOpen : vault.Open now claimId claim
  operator : sender = c.operator → vault'.currentEpochStart = now / epochDuration * epochDuration ∧
    vault'.currentEpochClaimed = vault.claimedAt now + claim.amount ∧ vault.claimedAt now + claim.amount ≤ c.cap ∧
    (c.threshold ≤ claim.amount → (vault.pendingClaims claimId).executeAfter ≠ 0)
  other : sender ≠ c.operator → vault'.currentEpochStart = vault.currentEpochStart ∧
    vault'.currentEpochClaimed = vault.currentEpochClaimed

theorem processClaim_charged (hf : vault.Follows c)
    (h : vault.processClaim sender now claimId claim transfers = .ok vault') :
    Charged c vault sender now claimId claim vault' := by
  have hcap : 0 < vault.operatorEpochClaimCap := by rw [hf.cap]; exact c.cap_pos
  rw [processClaim] at h
  split_ifs at h with _ _ _ hoperator
  · rw [hf.operator] at hoperator
    rw [chargeOperator] at h
    cases hcharge : vault.chargeEpoch now claim.amount with
    | error revert =>
      rw [hcharge] at h
      cases h
    | ok charged =>
      rw [hcharge] at h
      obtain ⟨hle, rfl⟩ := chargeEpoch_eq hcap hcharge
      dsimp only at h
      split_ifs at h with hlocked
      obtain ⟨hopen, rfl⟩ := payClaim_eq h
      refine ⟨{ hf with }, rfl, hopen, fun _ ↦ ?_,
        fun hne ↦ absurd hoperator hne⟩
      refine ⟨rfl, rfl, hf.cap ▸ hle, fun hlarge hzero ↦ hlocked ?_⟩
      rw [hf.threshold, hf.delay]
      exact ⟨c.threshold_pos, hlarge, c.delay_pos, hzero⟩
  · rw [hf.operator] at hoperator
    obtain ⟨hopen, rfl⟩ := payClaim_eq h
    exact ⟨{ hf with }, rfl, hopen,
      fun heq ↦ absurd heq hoperator, fun _ ↦ ⟨rfl, rfl⟩⟩

/-- What a call that pays nothing does to the queue and the day. -/
structure Quiet (c : PayoutSettings) (vault : FunnyVault) (now : ℕ) (call : VaultCall) (vault' : FunnyVault) :
    Prop where
  follows : vault'.Follows c
  epochStart : vault'.currentEpochStart = vault.currentEpochStart
  epochClaimed : vault'.currentEpochClaimed = vault.currentEpochClaimed
  pending : ∀ claimId, vault'.pendingClaims claimId = vault.pendingClaims claimId ∧
      call ≠ .cancelQueuedClaim claimId ∨
    (vault'.pendingClaims claimId).cancelled = true ∨
    ∃ claim, call = .queueClaim claimId claim ∧ vault'.pendingClaims claimId = ⟨claim, now + c.delay, false⟩

theorem call_quiet {call : VaultCall} (hf : vault.Follows c) (hkeeps : call.Keeps c) (hpays : call.pays = none)
    (h : vault.call sender now call = .ok vault') : Quiet c vault now call vault' := by
  cases call with
  | processClaim => cases hpays
  | setRollupCore rollupCore =>
    rw [FunnyVault.call, setRollupCore] at h
    split_ifs at h
    cases h
    exact ⟨{ hf with rollupCore := hkeeps }, rfl, rfl, fun _ ↦ .inl ⟨rfl, by simp⟩⟩
  | setOperatorEpochClaimCap cap =>
    rw [FunnyVault.call, setOperatorEpochClaimCap] at h
    split_ifs at h
    cases h
    exact ⟨{ hf with cap := hkeeps }, rfl, rfl, fun _ ↦ .inl ⟨rfl, by simp⟩⟩
  | setTimelockConfig threshold delay =>
    rw [FunnyVault.call, setTimelockConfig] at h
    split_ifs at h
    cases h
    exact ⟨{ hf with threshold := hkeeps.1, delay := hkeeps.2 }, rfl, rfl, fun _ ↦ .inl ⟨rfl, by simp⟩⟩
  | deposit | queueWithdrawal =>
    simp only [FunnyVault.call, deposit, checkedAdd, queueWithdrawal] at h
    split_ifs at h
    cases h
    exact ⟨{ hf with }, rfl, rfl, fun _ ↦ .inl ⟨rfl, by simp⟩⟩
  | queueClaim queuedId claim =>
    rw [FunnyVault.call, queueClaim, checkedAdd] at h
    split_ifs at h
    cases h
    refine ⟨{ hf with }, rfl, rfl, fun claimId ↦ ?_⟩
    by_cases hid : claimId = queuedId
    · subst hid
      exact .inr (.inr ⟨claim, rfl, by rw [← hf.delay]; exact Function.update_self ..⟩)
    · exact .inl ⟨Function.update_of_ne hid .., by simp⟩
  | cancelQueuedClaim cancelledId =>
    rw [FunnyVault.call, cancelQueuedClaim] at h
    split_ifs at h
    cases h
    refine ⟨{ hf with }, rfl, rfl, fun claimId ↦ ?_⟩
    by_cases hid : claimId = cancelledId
    · subst hid
      exact .inr (.inl (by dsimp only; rw [Function.update_self]))
    · refine .inl ⟨Function.update_of_ne hid .., fun heq ↦ hid ?_⟩
      exact (VaultCall.cancelQueuedClaim.inj heq).symm

end FunnyVault

/-! ## Steps -/

variable {claim : ClaimRecord}

theorem QueuedBefore.cons {delay now : ℕ} {claimId : Bytes32} {calls : List VaultTransaction} {tx : VaultTransaction}
    (h : QueuedBefore delay now claimId claim calls) (htx : tx.call ≠ .cancelQueuedClaim claimId) :
    QueuedBefore delay now claimId claim (tx :: calls) := by
  obtain ⟨between, queued, before, rfl, hcall, hnow, hbetween⟩ := h
  exact ⟨tx :: between, queued, before, rfl, hcall, hnow, List.forall_mem_cons.mpr ⟨htx, hbetween⟩⟩

theorem QueuedBefore.mono {delay now now' : ℕ} {claimId : Bytes32} {calls : List VaultTransaction}
    (h : QueuedBefore delay now claimId claim calls) (hle : now ≤ now') :
    QueuedBefore delay now' claimId claim calls := by
  obtain ⟨between, queued, before, rfl, hcall, hnow, hbetween⟩ := h
  exact ⟨between, queued, before, rfl, hcall, hnow.trans hle, hbetween⟩

namespace VaultHistory

variable {c : PayoutSettings} {s : VaultHistory} {tx : VaultTransaction} {vault' : FunnyVault}

theorem reflects_start (c : PayoutSettings) : (start c).Reflects c where
  once := List.nodup_nil
  recorded := nofun
  capped _ := c.cap_pos.le
  delayed later tx earlier h := by simp [start] at h
  follows := ⟨rfl, rfl, rfl, rfl, rfl⟩
  unpaid _ _ := List.not_mem_nil
  today _ _ := rfl
  future _ _ := rfl
  day := ⟨0, rfl, le_rfl⟩
  queued claimId h := absurd rfl h

/-- The delay rule, for one call more. -/
theorem delayed_cons (h : s.PayoutRules c) (htx : tx.sender = c.operator → ∀ claimId claim,
      tx.paid = some (claimId, claim) → c.threshold ≤ claim.amount →
        QueuedBefore c.delay tx.now claimId claim s.calls) :
    ∀ later tx' earlier, tx :: s.calls = later ++ tx' :: earlier → tx'.sender = c.operator →
      ∀ claimId claim, tx'.paid = some (claimId, claim) → c.threshold ≤ claim.amount →
        QueuedBefore c.delay tx'.now claimId claim earlier := by
  intro later tx' earlier hcalls
  rcases List.cons_eq_append_iff.mp hcalls with ⟨rfl, heq⟩ | ⟨later, rfl, heq⟩
  · obtain ⟨rfl, rfl⟩ := List.cons.inj heq
    exact htx
  · exact h.delayed later tx' earlier heq

theorem spent_cons (epoch : ℕ) :
    spent c ⟨vault', tx.now, tx :: s.calls⟩ epoch = tx.spent c.operator epoch + s.spent c epoch := by
  rw [spent, List.map_cons, List.sum_cons, spent]

/-- A call that pays nothing. -/
theorem Reflects.quiet (h : s.Reflects c) (hnow : s.now ≤ tx.now) (hnone : tx.paid = none)
    (hsame : s.vault.SamePaid vault') (hquiet : s.vault.Quiet c tx.now tx.call vault') :
    Reflects c ⟨vault', tx.now, tx :: s.calls⟩ := by
  have hpaid : paid ⟨vault', tx.now, tx :: s.calls⟩ = s.paid := List.filterMap_cons_none hnone
  have hspent : ∀ epoch, spent c ⟨vault', tx.now, tx :: s.calls⟩ epoch = s.spent c epoch := by
    intro epoch
    have hzero : tx.spent c.operator epoch = 0 := by rw [VaultTransaction.spent, hnone]
    rw [spent_cons, hzero, zero_add]
  refine ⟨⟨hpaid ▸ h.once, ?_, fun epoch ↦ hspent epoch ▸ h.capped epoch, ?_⟩, hquiet.follows, ?_, ?_, ?_, ?_, ?_⟩
  · rw [hpaid, hsame.processed, hsame.records]
    exact h.recorded
  · refine delayed_cons h.toPayoutRules fun _ claimId claim hpays ↦ ?_
    rw [hnone] at hpays
    cases hpays
  · rw [hpaid, hsame.processed]
    exact h.unpaid
  · intro epoch
    rw [hspent, hquiet.epochStart, hquiet.epochClaimed]
    exact h.today epoch
  · intro epoch
    rw [hspent, hquiet.epochStart]
    exact h.future epoch
  · obtain ⟨day, hday, hle⟩ := h.day
    exact ⟨day, hquiet.epochStart.trans hday, hle.trans hnow⟩
  · intro claimId hqueued hcancelled
    rcases hquiet.pending claimId with ⟨hpending, hother⟩ | hpending | ⟨claim, hcall, hpending⟩
    · rw [hpending] at hqueued hcancelled ⊢
      exact (h.queued claimId hqueued hcancelled).cons hother
    · exact absurd (hpending.symm.trans hcancelled) (by decide)
    · rw [hpending]
      exact ⟨[], tx, s.calls, rfl, hcall, le_rfl, nofun⟩

/-- The stored total is that of the day of the block, also if the day has just begun. -/
theorem Reflects.claimedAt_eq (h : s.Reflects c) {now : ℕ} (hnow : s.now ≤ now) :
    s.vault.claimedAt now = s.spent c (now / epochDuration) := by
  rw [FunnyVault.claimedAt]
  split_ifs with hstart
  · refine (h.future _ ?_).symm
    obtain ⟨day, hday, hle⟩ := h.day
    rw [hday] at hstart ⊢
    have hpos : 0 < epochDuration := by decide
    have hle' : day ≤ now / epochDuration := (Nat.le_div_iff_mul_le hpos).mpr (hle.trans hnow)
    have hne : day ≠ now / epochDuration := by
      rintro rfl
      exact hstart rfl
    exact Nat.mul_lt_mul_of_pos_right (lt_of_le_of_ne hle' hne) hpos
  · exact (h.today _ (not_ne_iff.mp hstart)).symm

/-- A payment. -/
theorem Reflects.pay (h : s.Reflects c) (hnow : s.now ≤ tx.now) {claimId : Bytes32}
    (htx : tx.paid = some (claimId, claim)) (hpays : s.vault.Pays claimId claim vault')
    (hcharged : s.vault.Charged c tx.sender tx.now claimId claim vault') :
    Reflects c ⟨vault', tx.now, tx :: s.calls⟩ := by
  have hpaid : paid ⟨vault', tx.now, tx :: s.calls⟩ = (claimId, claim) :: s.paid := List.filterMap_cons_some htx
  have hnew := h.unpaid claimId hpays.unpaid
  have hspent : ∀ epoch, tx.spent c.operator epoch =
      if tx.sender = c.operator ∧ tx.now / epochDuration = epoch then claim.amount else 0 := by
    intro epoch
    rw [VaultTransaction.spent, htx]
  have hqueued : ∀ id, (s.vault.pendingClaims id).executeAfter ≠ 0 → (s.vault.pendingClaims id).cancelled = false →
      QueuedBefore c.delay (s.vault.pendingClaims id).executeAfter id (s.vault.pendingClaims id).toClaimRecord
        (tx :: s.calls) := by
    intro id hid hcancelled
    refine (h.queued id hid hcancelled).cons fun hcall ↦ ?_
    rw [VaultTransaction.paid, hcall] at htx
    cases htx
  -- the two fields of the day and the total of each day, whoever asks for the payment
  have hday : (∃ day, vault'.currentEpochStart = day * epochDuration ∧ day * epochDuration ≤ tx.now) ∧
      ∀ epoch, spent c ⟨vault', tx.now, tx :: s.calls⟩ epoch ≤ c.cap ∧
        (epoch * epochDuration = vault'.currentEpochStart →
          spent c ⟨vault', tx.now, tx :: s.calls⟩ epoch = vault'.currentEpochClaimed) ∧
        (vault'.currentEpochStart < epoch * epochDuration →
          spent c ⟨vault', tx.now, tx :: s.calls⟩ epoch = 0) := by
    obtain ⟨day, hstart, hle⟩ := h.day
    by_cases hoperator : tx.sender = c.operator
    · obtain ⟨hstart', hclaimed, hcap, -⟩ := hcharged.operator hoperator
      rw [h.claimedAt_eq hnow] at hclaimed hcap
      refine ⟨⟨_, hstart', Nat.div_mul_le_self ..⟩, fun epoch ↦ ?_⟩
      rw [spent_cons, hspent, hstart', hclaimed]
      by_cases hepoch : tx.now / epochDuration = epoch
      · subst hepoch
        rw [if_pos ⟨hoperator, rfl⟩, add_comm]
        exact ⟨hcap, fun _ ↦ rfl, fun hlt ↦ absurd hlt (lt_irrefl _)⟩
      · rw [if_neg fun hboth ↦ hepoch hboth.2, zero_add]
        refine ⟨h.capped epoch, fun heq ↦ ?_, fun hlt ↦ h.future epoch ?_⟩
        · exact absurd (Nat.eq_of_mul_eq_mul_right (by decide) heq).symm hepoch
        · refine lt_of_le_of_lt ?_ hlt
          rw [hstart]
          exact Nat.mul_le_mul_right _ ((Nat.le_div_iff_mul_le (by decide)).mpr (hle.trans hnow))
    · obtain ⟨hstart', hclaimed⟩ := hcharged.other hoperator
      refine ⟨⟨day, hstart'.trans hstart, hle.trans hnow⟩, fun epoch ↦ ?_⟩
      rw [spent_cons, hspent, if_neg fun hboth ↦ hoperator hboth.1, zero_add, hstart', hclaimed]
      exact ⟨h.capped epoch, h.today epoch, h.future epoch⟩
  refine ⟨⟨?_, ?_, fun epoch ↦ (hday.2 epoch).1, ?_⟩, hcharged.follows, ?_, fun epoch ↦ (hday.2 epoch).2.1,
    fun epoch ↦ (hday.2 epoch).2.2, hday.1, ?_⟩
  · rw [hpaid]
    exact List.nodup_cons.mpr ⟨hnew, h.once⟩
  · rw [hpaid, hpays.processed, hpays.records]
    refine List.forall_mem_cons.mpr ⟨⟨Function.update_self .., Function.update_self ..⟩, fun p hp ↦ ?_⟩
    have hne : p.1 ≠ claimId := fun heq ↦ hnew (heq ▸ List.mem_map_of_mem hp)
    rw [Function.update_of_ne hne, Function.update_of_ne hne]
    exact h.recorded p hp
  · refine delayed_cons h.toPayoutRules fun hoperator id claim' htx' hlarge ↦ ?_
    obtain ⟨rfl, rfl⟩ := Prod.mk.inj (Option.some_inj.mp (htx.symm.trans htx'))
    have hexecute := (hcharged.operator hoperator).2.2.2 hlarge
    -- the queue lets the payment pass, so the queued claim is this one and was not cancelled
    rcases hcharged.isOpen with hzero | ⟨hcancelled, hready, hclaim⟩
    · exact absurd hzero hexecute
    · rw [← hclaim]
      exact (h.queued claimId hexecute hcancelled).mono hready
  · rw [hpaid, hpays.processed]
    intro id hid hmem
    have hne : id ≠ claimId := by
      rintro rfl
      rw [Function.update_self] at hid
      cases hid
    rw [Function.update_of_ne hne] at hid
    rcases List.mem_cons.mp hmem with heq | hmem
    · exact hne heq
    · exact h.unpaid id hid hmem
  · rw [hcharged.pending]
    exact hqueued

/-- **What one call preserves.** -/
theorem Reflects.step {s' : VaultHistory} (h : s.Reflects c) (hkeeps : tx.call.Keeps c) (hstep : s.step tx = some s') :
    s'.Reflects c := by
  rw [VaultHistory.step] at hstep
  split_ifs at hstep with hnow
  cases hcall : s.vault.call tx.sender tx.now tx.call with
  | error revert =>
    rw [hcall] at hstep
    obtain rfl := Option.some_inj.mp hstep
    obtain ⟨day, hday, hle⟩ := h.day
    exact { h with day := ⟨day, hday, hle.trans hnow⟩ }
  | ok vault' =>
    rw [hcall] at hstep
    obtain rfl := Option.some_inj.mp hstep
    rcases FunnyVault.call_cases hcall with ⟨claimId, claim, transfers, heq, hpays⟩ | ⟨hnone, hsame, -⟩
    · have htx : tx.paid = some (claimId, claim) := by rw [VaultTransaction.paid, heq]
      rw [heq] at hcall
      exact h.pay hnow htx hpays (FunnyVault.processClaim_charged h.follows hcall)
    · have htx : tx.paid = none := by
        rw [VaultTransaction.paid]
        split
        · next heq =>
          rw [heq] at hnone
          cases hnone
        · rfl
      exact h.quiet hnow htx hsame (FunnyVault.call_quiet h.follows hkeeps hnone hcall)

/-- **The payout rules.** Whoever calls the vault, while its settings stay as they are and blocks do not go back in
time: each claim is paid once and its record is what was paid; the operator's payments of a day stay under the cap;
and the operator pays the threshold or more only if that very claim was queued long enough before and not cancelled
in between. -/
theorem payout_rules (c : PayoutSettings) (txs : List VaultTransaction) (hkeeps : ∀ tx ∈ txs, tx.call.Keeps c)
    (s : VaultHistory) (hvisit : Visits step (start c) txs s) : s.PayoutRules c := by
  have hreflects : s.Reflects c := by
    refine visits_induction (reflects_start c) (fun t tx t' htake ht ↦ ?_) s hvisit
    exact ht.step (hkeeps tx htake.mem) htake.step_eq
  exact hreflects.toPayoutRules

/-- A cap of 1000, and a delay of 70 from an amount of 130 on. -/
def sampleSettings : PayoutSettings where
  operator := ⟨List.replicate 20 1, List.length_replicate⟩
  rollupCore := zeroAddress
  cap := 1000
  threshold := 130
  delay := 70
  cap_pos := by decide
  threshold_pos := by decide
  delay_pos := by decide

/-- A payment of 600. -/
def sampleClaim : ClaimRecord := ⟨zeroAddress, 600, zeroAddress⟩

/-- The operator queues a payment and makes it. -/
theorem payout_rules_sampleSettings : ∃ s, exec step (start sampleSettings)
        [⟨sampleSettings.operator, 5, .queueClaim zeroBytes32 sampleClaim⟩,
          ⟨sampleSettings.operator, 75, .processClaim zeroBytes32 sampleClaim true⟩] = some s ∧
      s.paid = [(zeroBytes32, sampleClaim)] ∧ s.PayoutRules sampleSettings := by
  refine exists_exec (by decide) fun s hs _ ↦ ?_
  exact payout_rules sampleSettings _ (by simp [VaultCall.Keeps]) s (visits_of_exec hs)

end VaultHistory

end FunnyOption.Contracts
