import FunnyOption.Contracts.System

/-!
# Payments for forced withdrawals

A forced withdrawal is satisfied by a claim that the vault has paid to the wallet and the recipient of the
request, in the amount of the request. `satisfyForcedWithdrawal` checks nothing else about the claim: it
may have been paid before the request was made, and it may satisfy another request already. Both happen
as soon as a wallet asks twice for the same payment.

What one payment for each request needs is that payments can be told apart. A request is `Unambiguous` when
no satisfied request asks for the same payment and when no such payment was made before it. While only
unambiguous requests are satisfied, and only with claims of the vault, each satisfied request has a payment
of its own that was made no earlier than the request. An open request that is ambiguous can be satisfied
without one.

## Main results

* `System.one_payment_each`: what holds in a run that satisfies unambiguous requests only, and that nothing
  weaker does.
* `System.one_payment_for_two_requests`: one payment, made before both of them, satisfies two requests.
-/

open Foundation

namespace FunnyOption.Contracts

open Rollup

namespace System

/-! ## One payment for each request -/

/-- The request with the id has been satisfied. -/
def Satisfied (s : System) (requestId : ℕ) : Prop := (s.core.forcedWithdrawalRequests requestId).status = .satisfied

instance (s : System) (requestId : ℕ) : Decidable (s.Satisfied requestId) := inferInstanceAs (Decidable (_ = _))

/-- The claim that has satisfied a request. -/
def claimOf (s : System) (requestId : ℕ) : Bytes32 := (s.core.forcedWithdrawalRequests requestId).satisfiedClaimId

/-- The payment that a request asks for. -/
def paymentOf (s : System) (requestId : ℕ) : ClaimRecord := (s.core.forcedWithdrawalRequests requestId).claim

/-- Different satisfied requests have different claims, and each one is a claim that the vault has paid at
or after the time of the request. -/
structure OnePaymentEach (s : System) : Prop where
  different : ∀ i j, i ≠ j → s.Satisfied i → s.Satisfied j → s.claimOf i ≠ s.claimOf j
  paid : ∀ i, s.Satisfied i → s.vault.processedClaims (s.claimOf i) = true
  inTime : ∀ i, s.Satisfied i → s.madeAt i ≤ s.paidAt (s.claimOf i)

/-- No other request that is satisfied asks for the payment that this one asks for, and no such payment
was made before this request. -/
structure Unambiguous (s : System) (requestId : ℕ) : Prop where
  alone : ∀ i, i ≠ requestId → s.Satisfied i → s.paymentOf i ≠ s.paymentOf requestId
  later : ∀ claimId, s.vault.processedClaims claimId = true →
    s.vault.processedClaimRecords claimId = s.paymentOf requestId → s.madeAt requestId ≤ s.paidAt claimId

/-- The transaction satisfies, if anything, an unambiguous request, and with a claim of the vault. -/
def TellsApart (d : Deployment) (s : System) (tx : Transaction) : Prop :=
  ∀ requestId claimId, tx.call = .core (.satisfyForcedWithdrawal requestId claimId) →
    s.core.vault = d.vaultAddress ∧ s.Unambiguous requestId

/-! ## The invariant -/

/-- What is kept: the claim of a satisfied request is the payment it asks for, and no two satisfied
requests ask for the same. -/
structure Matched (s : System) : Prop where
  paid : ∀ i, s.Satisfied i → s.vault.processedClaims (s.claimOf i) = true
  record : ∀ i, s.Satisfied i → s.vault.processedClaimRecords (s.claimOf i) = s.paymentOf i
  inTime : ∀ i, s.Satisfied i → s.madeAt i ≤ s.paidAt (s.claimOf i)
  different : ∀ i j, i ≠ j → s.Satisfied i → s.Satisfied j → s.paymentOf i ≠ s.paymentOf j

theorem Matched.onePaymentEach {s : System} (h : s.Matched) : s.OnePaymentEach where
  different i j hij hi hj hclaim := by
    apply h.different i j hij hi hj
    rw [← h.record i hi, ← h.record j hj, hclaim]
  paid := h.paid
  inTime := h.inTime

theorem matched_start (d : Deployment) : (start d).Matched where
  paid _ hi := nomatch hi
  record _ hi := nomatch hi
  inTime _ hi := nomatch hi
  different _ _ _ hi := nomatch hi

variable {keccak256 : Bytes → Bytes32} {d : Deployment} {s s' : System} {tx : Transaction}

/-- What is read of the storage is the same. -/
theorem Matched.congr (h : s.Matched)
    (hrequests : s'.core.forcedWithdrawalRequests = s.core.forcedWithdrawalRequests)
    (hpaid : s'.vault.processedClaims = s.vault.processedClaims)
    (hrecords : s'.vault.processedClaimRecords = s.vault.processedClaimRecords) (hmade : s'.madeAt = s.madeAt)
    (hpaidAt : s'.paidAt = s.paidAt) : s'.Matched := by
  constructor
  all_goals simp only [Satisfied, claimOf, paymentOf, hrequests, hpaid, hrecords, hmade, hpaidAt]
  · exact h.paid
  · exact h.record
  · exact h.inTime
  · exact h.different

/-- A payment is one that no satisfied request has. -/
theorem Matched.payment {claimId : Bytes32} {claim : ClaimRecord} {vault' : FunnyVault} {now : ℕ} (h : s.Matched)
    (hpays : s.vault.Pays claimId claim vault') :
    Matched { s with vault := vault', paidAt := Function.update s.paidAt claimId now } := by
  have hother : ∀ i, s.Satisfied i → s.claimOf i ≠ claimId := by
    rintro i hi rfl
    exact Bool.false_ne_true (hpays.unpaid.symm.trans (h.paid i hi))
  refine ⟨fun i hi ↦ ?_, fun i hi ↦ ?_, fun i hi ↦ ?_, h.different⟩
  · change vault'.processedClaims (s.claimOf i) = true
    rw [hpays.processed, Function.update_of_ne (hother i hi)]
    exact h.paid i hi
  · change vault'.processedClaimRecords (s.claimOf i) = s.paymentOf i
    rw [hpays.records, Function.update_of_ne (hother i hi)]
    exact h.record i hi
  · change s.madeAt i ≤ Function.update s.paidAt claimId now (s.claimOf i)
    rw [Function.update_of_ne (hother i hi)]
    exact h.inTime i hi

/-- A request is written that is not satisfied. -/
theorem Matched.write {requestId : ℕ} {request : ForcedWithdrawalRequest} {core' : FunnyRollupCore} {madeAt : ℕ → ℕ}
    (h : s.Matched) (hstatus : request.status ≠ .satisfied)
    (hrequests : core'.forcedWithdrawalRequests = Function.update s.core.forcedWithdrawalRequests requestId request)
    (hmade : ∀ i, i ≠ requestId → madeAt i = s.madeAt i) : Matched { s with core := core', madeAt := madeAt } := by
  let t : System := { s with core := core', madeAt := madeAt }
  have hne : ∀ i, t.Satisfied i → i ≠ requestId := by
    rintro i hi rfl
    apply hstatus
    rwa [Satisfied, hrequests, Function.update_self] at hi
  have hsame : ∀ i, t.Satisfied i →
      core'.forcedWithdrawalRequests i = s.core.forcedWithdrawalRequests i := by
    intro i hi
    rw [hrequests, Function.update_of_ne (hne i hi)]
  have hold : ∀ i, t.Satisfied i → s.Satisfied i := by
    intro i hi
    rw [Satisfied, ← hsame i hi]
    exact hi
  have hclaim : ∀ i, t.Satisfied i → t.claimOf i = s.claimOf i :=
    fun i hi ↦ congrArg ForcedWithdrawalRequest.satisfiedClaimId (hsame i hi)
  have hpayment : ∀ i, t.Satisfied i → t.paymentOf i = s.paymentOf i :=
    fun i hi ↦ congrArg ForcedWithdrawalRequest.claim (hsame i hi)
  refine ⟨fun i hi ↦ ?_, fun i hi ↦ ?_, fun i hi ↦ ?_, fun i j hij hi hj ↦ ?_⟩
  · rw [hclaim i hi]
    exact h.paid i (hold i hi)
  · rw [hclaim i hi, hpayment i hi]
    exact h.record i (hold i hi)
  · rw [hclaim i hi]
    change madeAt i ≤ s.paidAt (s.claimOf i)
    rw [hmade i (hne i hi)]
    exact h.inTime i (hold i hi)
  · rw [hpayment i hi, hpayment j hj]
    exact h.different i j hij (hold i hi) (hold j hj)

/-! ## A request is satisfied -/

section Satisfy

variable (s) (now requestId : ℕ) (claimId : Bytes32)

/-- The state after a request is satisfied with a claim. -/
def satisfy : System := { s with core := s.core.satisfy now requestId claimId }

theorem requests_satisfy : (s.satisfy now requestId claimId).core.forcedWithdrawalRequests =
      Function.update s.core.forcedWithdrawalRequests requestId
        { s.core.forcedWithdrawalRequests requestId with
          satisfiedClaimId := claimId, satisfiedAt := toUint64 now, status := .satisfied } := rfl

theorem satisfied_satisfy_self : (s.satisfy now requestId claimId).Satisfied requestId := by
  rw [Satisfied, requests_satisfy, Function.update_self]

theorem claimOf_satisfy_self : (s.satisfy now requestId claimId).claimOf requestId = claimId := by
  rw [claimOf, requests_satisfy, Function.update_self]

theorem request_satisfy_of_ne {i : ℕ} (hi : i ≠ requestId) :
    (s.satisfy now requestId claimId).core.forcedWithdrawalRequests i =
      s.core.forcedWithdrawalRequests i := by
  rw [requests_satisfy, Function.update_of_ne hi]

theorem paymentOf_satisfy (i : ℕ) : (s.satisfy now requestId claimId).paymentOf i = s.paymentOf i := by
  by_cases hi : i = requestId
  · subst hi
    rw [paymentOf, requests_satisfy, Function.update_self]
    rfl
  · rw [paymentOf, request_satisfy_of_ne s now requestId claimId hi]
    rfl

theorem satisfied_satisfy_of_ne {i : ℕ} (hi : i ≠ requestId) :
    (s.satisfy now requestId claimId).Satisfied i ↔ s.Satisfied i := by
  rw [Satisfied, request_satisfy_of_ne s now requestId claimId hi, Satisfied]

theorem claimOf_satisfy_of_ne {i : ℕ} (hi : i ≠ requestId) :
    (s.satisfy now requestId claimId).claimOf i = s.claimOf i := by
  rw [claimOf, request_satisfy_of_ne s now requestId claimId hi, claimOf]

end Satisfy

/-- The claim that satisfies an unambiguous request is a payment of its own. -/
theorem Matched.satisfy {now requestId : ℕ} {claimId : Bytes32} (h : s.Matched) (hrequest : s.Unambiguous requestId)
    (hpaid : s.vault.processedClaims claimId = true)
    (hrecord : s.vault.processedClaimRecords claimId = s.paymentOf requestId) :
    (s.satisfy now requestId claimId).Matched := by
  refine ⟨fun i hi ↦ ?_, fun i hi ↦ ?_, fun i hi ↦ ?_, fun i j hij hi hj ↦ ?_⟩
  · by_cases hself : i = requestId
    · rw [hself, claimOf_satisfy_self]
      exact hpaid
    · rw [claimOf_satisfy_of_ne s now requestId claimId hself]
      exact h.paid i ((satisfied_satisfy_of_ne s now requestId claimId hself).mp hi)
  · rw [paymentOf_satisfy]
    by_cases hself : i = requestId
    · rw [hself, claimOf_satisfy_self]
      exact hrecord
    · rw [claimOf_satisfy_of_ne s now requestId claimId hself]
      exact h.record i ((satisfied_satisfy_of_ne s now requestId claimId hself).mp hi)
  · by_cases hself : i = requestId
    · rw [hself, claimOf_satisfy_self]
      exact hrequest.later claimId hpaid hrecord
    · rw [claimOf_satisfy_of_ne s now requestId claimId hself]
      exact h.inTime i ((satisfied_satisfy_of_ne s now requestId claimId hself).mp hi)
  · rw [paymentOf_satisfy, paymentOf_satisfy]
    by_cases hself : i = requestId
    · subst hself
      exact (hrequest.alone j hij.symm
        ((satisfied_satisfy_of_ne s now i claimId hij.symm).mp hj)).symm
    · have hi' := (satisfied_satisfy_of_ne s now requestId claimId hself).mp hi
      by_cases hself' : j = requestId
      · subst hself'
        exact hrequest.alone i hij hi'
      · exact h.different i j hij hi' ((satisfied_satisfy_of_ne s now requestId claimId hself').mp hj)

/-- A step that satisfies unambiguous requests only keeps the payments apart. -/
theorem Matched.step (h : s.Matched) (htells : s.TellsApart d tx) (hstep : s.step keccak256 d tx = some s') :
    s'.Matched := by
  obtain ⟨-, moved, -, heffect, rfl⟩ := effect_step hstep
  suffices hmoved : moved.Matched from hmoved.congr rfl rfl rfl rfl rfl
  cases heffect with
  | vault vault' hsame _ => exact h.congr rfl hsame.processed hsame.records rfl rfl
  | payment claimId claim vault' hpays => exact h.payment hpays
  | elsewhere => exact h
  | service core' hrequests _ _ => exact h.congr hrequests rfl rfl rfl rfl
  | request requestId request core' hstatus hrequests _ _ =>
    have hrequest : request.status ≠ .satisfied := by simp [hstatus]
    exact h.write hrequest hrequests fun i hi ↦ Function.update_of_ne hi _ _
  | satisfaction requestId claimId processed record core' hcall hanswers hsatisfy =>
    obtain ⟨hvault, hrequest⟩ := htells requestId claimId hcall
    obtain ⟨rfl, rfl⟩ := hanswers hvault
    rw [FunnyRollupCore.satisfyForcedWithdrawal_eq_ok_iff] at hsatisfy
    obtain ⟨-, -, hpaid, hrecord, rfl⟩ := hsatisfy
    exact h.satisfy hrequest hpaid hrecord
  | freeze requestId request core' hstatus hrequests _ _ =>
    have hrequest : request.status ≠ .satisfied := by simp [hstatus]
    exact h.write hrequest hrequests fun _ _ ↦ rfl
  | anchor batchId root core' _ hrequests _ _ => exact h.congr hrequests rfl rfl rfl rfl

theorem matched_of_visits {txs : List Transaction}
    (htells : ∀ t tx t', Takes (step keccak256 d) (start d) txs t tx t' → t.TellsApart d tx) :
    ∀ s, Visits (step keccak256 d) (start d) txs s → s.Matched :=
  visits_induction (matched_start d) fun t tx t' htake ht ↦
    ht.step (htells t tx t' htake) htake.step_eq

/-! ## The main results -/

/-- Anybody can satisfy an open request with any claim that paid what it asks for. -/
theorem transact_satisfy_iff {sender : Address} {now requestId : ℕ} {answers : Answers} {claimId : Bytes32}
    (hvault : s.core.vault = d.vaultAddress)
    (hopen : (s.core.forcedWithdrawalRequests requestId).status = .requested) :
    s.transact keccak256 d ⟨sender, now, .core (.satisfyForcedWithdrawal requestId claimId), answers⟩ = .ok s' ↔
      s.vault.processedClaims claimId = true ∧ s.vault.processedClaimRecords claimId = s.paymentOf requestId ∧
        s.satisfy now requestId claimId = s' := by
  dsimp only [transact, callCore]
  rw [if_pos hvault]
  constructor
  · intro h
    obtain ⟨core', hcore, rfl⟩ := exists_of_setCore h
    rw [FunnyRollupCore.satisfyForcedWithdrawal_eq_ok_iff] at hcore
    obtain ⟨-, -, hpaid, hrecord, rfl⟩ := hcore
    exact ⟨hpaid, hrecord, rfl⟩
  · rintro ⟨hpaid, hrecord, rfl⟩
    have hsatisfy : s.core.satisfyForcedWithdrawal now requestId claimId
        (s.vault.processedClaims claimId) (s.vault.processedClaimRecords claimId) =
        .ok (s.core.satisfy now requestId claimId) := by
      rw [FunnyRollupCore.satisfyForcedWithdrawal_eq_ok_iff]
      exact ⟨hvault ▸ d.vaultAddress_ne, hopen, hpaid, hrecord, rfl⟩
    rw [hsatisfy]
    rfl

/-- **One payment for each request.** In a run that satisfies unambiguous requests only, and with claims
of the vault, each satisfied request has a payment of its own, made no earlier than the request. An open
request that is not unambiguous can at once be satisfied in a way that breaks this. -/
theorem one_payment_each {txs : List Transaction}
    (htells : ∀ t tx t', Takes (step keccak256 d) (start d) txs t tx t' → t.TellsApart d tx) :
    ∀ s, Visits (step keccak256 d) (start d) txs s → s.OnePaymentEach ∧ ∀ requestId, s.core.vault = d.vaultAddress →
        (s.core.forcedWithdrawalRequests requestId).status = .requested →
        (s.Unambiguous requestId ↔ ∀ sender now answers claimId s', s.transact keccak256 d
              ⟨sender, now, .core (.satisfyForcedWithdrawal requestId claimId), answers⟩ = .ok s' →
            s'.OnePaymentEach) := by
  intro s hs
  have hmatched := matched_of_visits htells s hs
  refine ⟨hmatched.onePaymentEach, fun requestId hvault hopen ↦ ⟨?_, ?_⟩⟩
  · intro hrequest sender now answers claimId s' htransact
    obtain ⟨hpaid, hrecord, rfl⟩ := (transact_satisfy_iff hvault hopen).mp htransact
    exact (hmatched.satisfy hrequest hpaid hrecord).onePaymentEach
  · intro hsafe
    have hafter : ∀ claimId, s.vault.processedClaims claimId = true →
        s.vault.processedClaimRecords claimId = s.paymentOf requestId →
        (s.satisfy 0 requestId claimId).OnePaymentEach := fun claimId hpaid hrecord ↦
      hsafe zeroAddress 0 ⟨false, false, false, .zero⟩ claimId _
        ((transact_satisfy_iff hvault hopen).mpr ⟨hpaid, hrecord, rfl⟩)
    constructor
    · -- the claim of the other request would satisfy this one too
      intro i hi hsatisfied hpayment
      have hrecord := (hmatched.record i hsatisfied).trans hpayment
      apply (hafter _ (hmatched.paid i hsatisfied) hrecord).different i requestId hi
      · exact (satisfied_satisfy_of_ne s 0 requestId _ hi).mpr hsatisfied
      · exact satisfied_satisfy_self s 0 requestId _
      · rw [claimOf_satisfy_of_ne s 0 requestId _ hi, claimOf_satisfy_self]
    · intro claimId hpaid hrecord
      have htime := (hafter claimId hpaid hrecord).inTime requestId (satisfied_satisfy_self s 0 requestId _)
      rwa [claimOf_satisfy_self] at htime

/-! ## Runs -/

/-- The operator points the rollup contract to the vault; a wallet makes a request, and is paid. -/
def requestThenPayment : List Transaction := [⟨constAddress 3, 10, .core (.setVault (constAddress 2)), .transferring⟩,
    ⟨constAddress 4, 10, .core (.requestForcedWithdrawal (constAddress 4) 5), .transferring⟩,
    ⟨constAddress 3, 11, .vault (.processClaim (constBytes32 7) ⟨constAddress 4, 5, constAddress 4⟩ true),
      .transferring⟩]

private theorem isSome_requestThenPayment :
    (exec (step halfHash deployed) (start deployed) requestThenPayment).isSome = true := by
  decide

private def paidRequest : System := Option.get _ isSome_requestThenPayment

private theorem requests_paidRequest : paidRequest.core.forcedWithdrawalRequests = Function.update (fun _ ↦ .zero) 1
      ⟨constAddress 4, constAddress 4, 5, 10, 10, zeroBytes32, 0, 0, .requested⟩ := rfl

private theorem processedClaims_paidRequest :
    paidRequest.vault.processedClaims = Function.update (fun _ ↦ false) (constBytes32 7) true := rfl

private theorem unambiguous_paidRequest : paidRequest.Unambiguous 1 where
  alone i hi hsatisfied := by
    rw [Satisfied, requests_paidRequest, Function.update_of_ne hi] at hsatisfied
    cases hsatisfied
  later claimId hpaid _ := by
    rw [processedClaims_paidRequest] at hpaid
    by_cases hclaim : claimId = constBytes32 7
    · rw [hclaim]
      decide
    · rw [Function.update_of_ne hclaim] at hpaid
      cases hpaid

/-- The request is satisfied by the payment that was made for it. -/
theorem payment_after_request : ∃ s, exec (step halfHash deployed) (start deployed) (requestThenPayment ++
        [⟨constAddress 9, 12, .core (.satisfyForcedWithdrawal 1 (constBytes32 7)), .transferring⟩]) =
          some s ∧ s.Satisfied 1 ∧ s.OnePaymentEach := by
  have hpaid : exec (step halfHash deployed) (start deployed) requestThenPayment = some paidRequest :=
    (Option.some_get isSome_requestThenPayment).symm
  have hsome : (step halfHash deployed paidRequest
      ⟨constAddress 9, 12, .core (.satisfyForcedWithdrawal 1 (constBytes32 7)), .transferring⟩).isSome =
      true := by decide
  obtain ⟨s, hs⟩ := Option.isSome_iff_exists.mp hsome
  have hexec := exec_append_singleton (step halfHash deployed) (start deployed) requestThenPayment
    ⟨constAddress 9, 12, .core (.satisfyForcedWithdrawal 1 (constBytes32 7)), .transferring⟩
  rw [hpaid, Option.bind_some, hs] at hexec
  refine ⟨s, hexec, ?_, ?_⟩
  · obtain ⟨-, moved, htransact, -, rfl⟩ := effect_step hs
    obtain ⟨-, -, rfl⟩ := (transact_satisfy_iff rfl rfl).mp htransact
    exact satisfied_satisfy_self _ _ _ _
  · refine (one_payment_each ?_ s (visits_of_exec hexec)).1
    refine (forall_takes_append_singleton hpaid hs).mpr ⟨?_, ?_⟩
    · -- nothing is satisfied before the last transaction
      intro t tx t' htake requestId claimId hcall
      have hmem := htake.mem
      simp only [requestThenPayment, List.mem_cons, List.not_mem_nil, or_false] at hmem
      rcases hmem with rfl | rfl | rfl <;> cases hcall
    · intro requestId claimId hcall
      cases hcall
      exact ⟨rfl, unambiguous_paidRequest⟩

/-- A wallet is paid, and then makes two requests for what it was paid. -/
def paymentThenRequests : List Transaction :=
  [⟨constAddress 3, 10, .core (.setVault (constAddress 2)), .transferring⟩,
    ⟨constAddress 3, 10, .vault (.processClaim (constBytes32 7) ⟨constAddress 4, 5, constAddress 4⟩ true),
      .transferring⟩,
    ⟨constAddress 4, 20, .core (.requestForcedWithdrawal (constAddress 4) 5), .transferring⟩,
    ⟨constAddress 4, 20, .core (.requestForcedWithdrawal (constAddress 4) 5), .transferring⟩,
    ⟨constAddress 9, 21, .core (.satisfyForcedWithdrawal 1 (constBytes32 7)), .transferring⟩,
    ⟨constAddress 9, 21, .core (.satisfyForcedWithdrawal 2 (constBytes32 7)), .transferring⟩]

private theorem isSome_paymentThenRequests :
    (exec (step halfHash deployed) (start deployed) paymentThenRequests).isSome = true := by
  decide

/-- **One payment for two requests.** The payment was made before either of them. -/
theorem one_payment_for_two_requests : ∃ s, Visits (step halfHash deployed) (start deployed) paymentThenRequests s ∧
      s.Satisfied 1 ∧ s.Satisfied 2 ∧ s.claimOf 1 = s.claimOf 2 ∧
      s.paidAt (s.claimOf 1) < s.madeAt 1 ∧ ¬s.OnePaymentEach := by
  have hexec := (Option.some_get isSome_paymentThenRequests).symm
  have hsame : (Option.get _ isSome_paymentThenRequests).claimOf 1 =
      (Option.get _ isSome_paymentThenRequests).claimOf 2 := by decide
  refine ⟨_, visits_of_exec hexec, by decide, by decide, hsame, by decide, ?_⟩
  intro h
  exact h.different 1 2 (by decide) (by decide) (by decide) hsame

end System

end FunnyOption.Contracts
