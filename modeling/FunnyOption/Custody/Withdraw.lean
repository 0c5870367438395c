import FunnyOption.Account.BalanceBook
import FunnyOption.Foundation.Run
import FunnyOption.Shared.Assets

/-!
# Withdrawal requests

`RequestWithdraw` freezes the amount, submits the withdrawal to the wallet service, and then releases
the freeze and debits the amount. Each account call is atomic on the balance book and may fail;
between two of them any other operation on the book may run, by the same user or by another.

What this request has done to the user's balance is kept apart from what others do: `ownAvailable`
and `ownFrozen` sum the changes of its own calls. The promise is about these: once the withdrawal is
submitted the request has taken the amount from the user, and a request that answers an error has
changed nothing.

## The exits

Four answers come after a freeze has been taken. With no wallet client configured the freeze is never
released. After a failed conversion or submission it is, but the result of the release is ignored.
After a submission so is the result of the debit, which also fails if another operation has used up
what the release made available. `withdraw_sound_iff` says that nothing else goes wrong.
-/

open Foundation

namespace FunnyOption.Custody

open Account Account.BalanceBook

/-- `WithdrawRequest`, with what its binding tags make `ShouldBindJSON` check. -/
structure WithdrawRequest where
  toAddress : String
  amount : ℤ
  asset : String
  toAddress_ne : toAddress ≠ ""
  amount_pos : 0 < amount

/-- One call of `RequestWithdraw`, with the ids that are made up for it. -/
structure WithdrawCall where
  /-- Whether `h.saas` is configured. -/
  saas : Bool
  /-- The authenticated user, if the middleware found one. -/
  user : Option ℤ
  /-- What `ShouldBindJSON` returns: the request, or the text of its error. -/
  body : Except String WithdrawRequest
  /-- `NewID("cwdr")`. -/
  withdrawID : String
  /-- The id the account service makes up for the freeze. -/
  freezeID : String
  /-- Made-up ids start with their prefix. -/
  withdrawID_ne : trimSpace withdrawID ≠ ""

namespace WithdrawCall

variable (call : WithdrawCall)

/-- The authenticated user id. -/
def userID : ℤ := call.user.getD 0

/-- The requested amount. -/
def amount : ℤ :=
  match call.body with
  | .ok req => req.amount
  | .error _ => 0

/-- The asset that is withdrawn. -/
def asset : String :=
  let asset := Assets.normalizeAsset
    (match call.body with
    | .ok req => req.asset
    | .error _ => "")
  if asset = "" then Assets.defaultCollateralAsset else asset

/-- The balance the request is about. -/
def key : BalanceKey := balanceKey call.userID call.asset

/-- What `PreFreeze` is asked for. -/
def freezeRequest : FreezeRequest := ⟨"", call.userID, call.asset, "CUSTODY_WITHDRAW", call.withdrawID, call.amount⟩

/-- What `DebitBalance` is asked for. -/
def debitRequest : RefRequest := ⟨call.userID, call.asset, call.amount, "CUSTODY_WITHDRAW", call.withdrawID⟩

theorem key_freezeRequest : balanceKey call.freezeRequest.userID call.freezeRequest.asset = call.key := by
  simp only [key, freezeRequest]

theorem key_debitRequest : balanceKey call.debitRequest.userID call.debitRequest.asset = call.key := by
  simp only [key, debitRequest]

theorem freezeIDFor_freezeRequest : freezeIDFor call.freezeID call.freezeRequest = call.freezeID := by
  simp [freezeIDFor, freezeRequest, trimSpace]

end WithdrawCall

/-- An HTTP status and the error of the body, empty for a success. -/
structure WithdrawAnswer where
  status : ℕ
  error : String
  deriving DecidableEq

/-- Where a request stands. -/
inductive WithdrawPhase where
  /-- Before the body is read. -/
  | start
  /-- Before `PreFreeze`. -/
  | freezing
  /-- Before `SubmitWithdraw`. -/
  | submitting
  /-- Before the `ReleaseFreeze` of a failure, which is answered whatever it returns. -/
  | releasing (answer : WithdrawAnswer)
  /-- Before the `ReleaseFreeze` of a submitted withdrawal. -/
  | unfreezing
  /-- Before `DebitBalance`. -/
  | debiting
  /-- Answered. -/
  | answered (answer : WithdrawAnswer)
  deriving DecidableEq

/-- A request and the balance book. -/
structure WithdrawState where
  book : BalanceBook
  phase : WithdrawPhase
  /-- Whether `SubmitWithdraw` has succeeded. -/
  submitted : Bool
  /-- What the request's own calls have added to the available amount. -/
  ownAvailable : ℤ
  /-- What the request's own calls have added to the frozen amount. -/
  ownFrozen : ℤ

/-- What can happen. -/
inductive WithdrawEvent where
  /-- The user and the body are checked. -/
  | start
  /-- `PreFreeze` returns; a call that fails has no effect. -/
  | freeze (ok : Bool)
  /-- `SubmitWithdraw` returns. -/
  | submit (ok : Bool)
  /-- `ReleaseFreeze` returns; a call that fails has no effect. -/
  | release (ok : Bool)
  /-- `DebitBalance` returns; a call that fails has no effect. -/
  | debit (ok : Bool)
  /-- Another operation on the balance book. -/
  | other (op : Operation)

namespace WithdrawState

/-- A request that has done nothing yet. -/
def initial (book : BalanceBook) : WithdrawState := ⟨book, .start, false, 0, 0⟩

/-- The state after one of the request's own calls. -/
def own (s : WithdrawState) (call : WithdrawCall) (book : BalanceBook) (phase : WithdrawPhase) : WithdrawState :=
  { s with
    book := book
    phase := phase
    ownAvailable := s.ownAvailable + (book.available call.key - s.book.available call.key)
    ownFrozen := s.ownFrozen + (book.frozen call.key - s.book.frozen call.key) }

end WithdrawState

/-- What follows a freeze that was taken. -/
def afterFreeze (call : WithdrawCall) : WithdrawPhase :=
  if !call.saas then .answered ⟨503, "custody service not configured"⟩
  else
    match Assets.accountingToAssetChainAmount call.asset call.amount with
    | none => .releasing ⟨500, "amount conversion failed"⟩
    | some _ => .submitting

/-- One step of `RequestWithdraw`. Other operations do not know the freeze id. -/
def withdrawStep (call : WithdrawCall) (s : WithdrawState) : WithdrawEvent → Option WithdrawState
  | .start =>
    match s.phase with
    | .start =>
      match call.user, call.body with
      | none, _ => some { s with phase := .answered ⟨401, "unauthorized"⟩ }
      | some _, .error text => some { s with phase := .answered ⟨400, text⟩ }
      | some _, .ok _ => some { s with phase := .freezing }
    | _ => none
  | .freeze ok =>
    match s.phase with
    | .freezing =>
      if !ok then some { s with phase := .answered ⟨400, "insufficient balance"⟩ }
      else
        match s.book.preFreeze call.freezeID call.freezeRequest with
        | (book, .error _) => some (s.own call book (.answered ⟨400, "insufficient balance"⟩))
        | (book, .ok _) => some (s.own call book (afterFreeze call))
    | _ => none
  | .submit ok =>
    match s.phase with
    | .submitting =>
      if ok then some { s with phase := .unfreezing, submitted := true }
      else some { s with phase := .releasing ⟨502, "withdrawal submission failed"⟩ }
    | _ => none
  | .release ok =>
    let book := if ok then (s.book.releaseFreeze call.freezeID).1 else s.book
    match s.phase with
    | .releasing answer => some (s.own call book (.answered answer))
    | .unfreezing => some (s.own call book .debiting)
    | _ => none
  | .debit ok =>
    let book := if ok then (s.book.debitAvailableWithRef call.debitRequest).1 else s.book
    match s.phase with
    | .debiting => some (s.own call book (.answered ⟨200, ""⟩))
    | _ => none
  | .other op =>
    if op.namedFreeze = some call.freezeID then none else some { s with book := s.book.run op }

/-! ## The promise -/

/-- What an answered request promises. -/
structure WithdrawSound (call : WithdrawCall) (s : WithdrawState) (answer : WithdrawAnswer) : Prop where
  /-- A submitted withdrawal has taken the amount from the user. -/
  submitted : s.submitted = true → s.ownAvailable + s.ownFrozen = -call.amount
  /-- An error leaves the balance alone. -/
  failed : answer.status ≠ 200 → s.ownAvailable = 0 ∧ s.ownFrozen = 0

/-- When the calls of a request settle it: it takes no freeze without a wallet client, the release of
a failed request does not fail, and at the debit the call does not fail, the amount is available and
the reference is new. -/
def CallsSettle (call : WithdrawCall) (s : WithdrawState) : WithdrawEvent → Prop
  | .freeze ok => ok = true → s.book.Grants call.freezeID call.freezeRequest → call.saas = true
  | .release ok => (∃ answer, s.phase = .releasing answer) → ok = true
  | .debit ok => ok = true ∧ call.amount ≤ s.book.available call.key ∧
    refKey call.debitRequest.refType call.debitRequest.refID ∉ s.book.processedRefs
  | _ => True

/-! ## What each call does -/

section Steps

variable {call : WithdrawCall} {s s' : WithdrawState} {C : Prop}

/-- The freeze of the request is open and holds the amount. -/
structure HoldsFreeze (call : WithdrawCall) (s : WithdrawState) : Prop where
  ownAvailable : s.ownAvailable = -call.amount
  ownFrozen : s.ownFrozen = call.amount
  freeze : ∃ record, Open s.book call.freezeID record ∧ record.amount = call.amount ∧
    balanceKey record.userID record.asset = call.key
  valid : RefRequest.Valid call.debitRequest

/-- What is known in each phase of a request, where `C` says that its calls have settled it so far.
Before the answer they have; the answer is sound exactly if they have. -/
def Tracks (call : WithdrawCall) (s : WithdrawState) (C : Prop) : Prop :=
  match s.phase with
  | .start | .freezing => C ∧ s.submitted = false ∧ s.ownAvailable = 0 ∧ s.ownFrozen = 0
  | .submitting => C ∧ s.submitted = false ∧ HoldsFreeze call s
  | .releasing answer => C ∧ s.submitted = false ∧ answer.status ≠ 200 ∧ HoldsFreeze call s
  | .unfreezing => C ∧ s.submitted = true ∧ HoldsFreeze call s
  | .debiting => C ∧ s.submitted = true ∧ s.ownAvailable + s.ownFrozen = 0 ∧ RefRequest.Valid call.debitRequest
  | .answered answer => WithdrawSound call s answer ↔ C

variable {book : BalanceBook}

theorem WithdrawState.own_moves {phase : WithdrawPhase} {a f : ℤ} (h : Moves s.book book call.key a f) :
    s.own call book phase = ⟨book, phase, s.submitted, s.ownAvailable + a, s.ownFrozen + f⟩ := by
  simp only [WithdrawState.own, h.available, h.frozen, if_true, add_sub_cancel_left]

theorem withdrawSound_of_unchanged {answer : WithdrawAnswer} (hsub : s.submitted = false) (ha : s.ownAvailable = 0)
    (hf : s.ownFrozen = 0) : WithdrawSound call s answer :=
  ⟨fun h ↦ absurd h (by rw [hsub]; exact Bool.false_ne_true), fun _ ↦ ⟨ha, hf⟩⟩

/-- The checks before the freeze touch nothing. -/
theorem Tracks.start (h : Tracks call s C) (hstep : withdrawStep call s .start = some s') :
    Tracks call s' (C ∧ CallsSettle call s .start) := by
  rw [withdrawStep] at hstep
  split at hstep
  · next hphase =>
    simp only [Tracks, hphase] at h
    obtain ⟨hC, hsub, ha, hf⟩ := h
    split at hstep
    · obtain rfl := Option.some_inj.mp hstep
      exact iff_of_true (withdrawSound_of_unchanged hsub ha hf) ⟨hC, trivial⟩
    · obtain rfl := Option.some_inj.mp hstep
      exact iff_of_true (withdrawSound_of_unchanged hsub ha hf) ⟨hC, trivial⟩
    · obtain rfl := Option.some_inj.mp hstep
      exact ⟨⟨hC, trivial⟩, hsub, ha, hf⟩
  · exact absurd hstep (by simp)

theorem HoldsFreeze.of_frozen {record : FreezeRecord} {phase : WithdrawPhase} (ha : s.ownAvailable = 0)
    (hf : s.ownFrozen = 0) (h : Frozen s.book call.freezeID call.freezeRequest book record) :
    HoldsFreeze call (s.own call book phase) := by
  have hmoves := h.moves
  rw [call.key_freezeRequest] at hmoves
  rw [WithdrawState.own_moves hmoves]
  have hid : record.freezeID = call.freezeID := by
    simp only [h.record_eq, call.freezeIDFor_freezeRequest]
  refine ⟨?_, ?_, ⟨record, ?_, ?_, ?_⟩, ⟨h.pos, h.asset, ?_⟩⟩
  · rw [ha, zero_add, WithdrawCall.freezeRequest]
  · rw [hf, zero_add, WithdrawCall.freezeRequest]
  · rw [← hid]
    exact h.isOpen
  · simp only [h.record_eq, WithdrawCall.freezeRequest]
  · simp only [h.record_eq, balanceKey_normalizeAsset, call.key_freezeRequest]
  · refine ⟨?_, call.withdrawID_ne⟩
    simp only [WithdrawCall.debitRequest]
    decide

/-- A granted freeze stays behind without a wallet client. -/
theorem Tracks.freeze {ok : Bool} (h : Tracks call s C) (hstep : withdrawStep call s (.freeze ok) = some s') :
    Tracks call s' (C ∧ CallsSettle call s (.freeze ok)) := by
  rw [withdrawStep] at hstep
  split at hstep
  · next hphase =>
    simp only [Tracks, hphase] at h
    obtain ⟨hC, hsub, ha, hf⟩ := h
    cases ok with
    | false =>
      obtain rfl : _ = s' := Option.some_inj.mp hstep
      exact iff_of_true (withdrawSound_of_unchanged hsub ha hf) ⟨hC, fun h ↦ absurd h (by simp)⟩
    | true =>
      rcases preFreeze_cases s.book call.freezeID call.freezeRequest with ⟨e, he, hbook⟩ |
        ⟨record, hrecord, hbook⟩
      · have hpair : s.book.preFreeze call.freezeID call.freezeRequest = (_, .error e) := Prod.ext rfl he
        rw [hpair] at hstep
        obtain rfl : _ = s' := Option.some_inj.mp hstep
        rw [WithdrawState.own_moves (hbook.moves call.key)]
        refine iff_of_true (withdrawSound_of_unchanged hsub (by simp [ha]) (by simp [hf])) ⟨hC, ?_⟩
        intro _ hgrants
        obtain ⟨record, hrecord⟩ := preFreeze_of_grants hgrants
        exact absurd (he.symm.trans hrecord) (by simp)
      · have hpair : s.book.preFreeze call.freezeID call.freezeRequest = (_, .ok record) := Prod.ext rfl hrecord
        rw [hpair] at hstep
        obtain rfl : _ = s' := Option.some_inj.mp hstep
        have hholds : ∀ phase, HoldsFreeze call
            (s.own call (s.book.preFreeze call.freezeID call.freezeRequest).1 phase) :=
          fun phase ↦ .of_frozen ha hf hbook
        by_cases hsaas : call.saas = true
        · have hsettle : CallsSettle call s (.freeze true) := fun _ _ ↦ hsaas
          simp only [afterFreeze, hsaas, Bool.not_true, Bool.false_eq_true, if_false]
          split
          · exact ⟨⟨hC, hsettle⟩, hsub, by decide, hholds _⟩
          · exact ⟨⟨hC, hsettle⟩, hsub, hholds _⟩
        · simp only [afterFreeze, hsaas, Bool.not_false, if_true]
          refine iff_of_false (fun hsound ↦ ?_) fun hsettle ↦ hsaas (hsettle.2 rfl hbook.grants)
          have hzero := (hsound.failed (by decide)).2
          rw [(hholds _).ownFrozen] at hzero
          exact hbook.pos.2.ne' hzero
  · exact absurd hstep (by simp)

/-- The submission is the only call that does not touch the book. -/
theorem Tracks.submit {ok : Bool} (h : Tracks call s C) (hstep : withdrawStep call s (.submit ok) = some s') :
    Tracks call s' (C ∧ CallsSettle call s (.submit ok)) := by
  rw [withdrawStep] at hstep
  split at hstep
  · next hphase =>
    simp only [Tracks, hphase] at h
    obtain ⟨hC, hsub, hholds⟩ := h
    cases ok with
    | false =>
      obtain rfl : _ = s' := Option.some_inj.mp hstep
      exact ⟨⟨hC, trivial⟩, hsub, (by decide), ⟨hholds.1, hholds.2, hholds.3, hholds.4⟩⟩
    | true =>
      obtain rfl : _ = s' := Option.some_inj.mp hstep
      exact ⟨⟨hC, trivial⟩, rfl, ⟨hholds.1, hholds.2, hholds.3, hholds.4⟩⟩
  · exact absurd hstep (by simp)

/-- A release that does not fail gives the whole amount back. -/
theorem HoldsFreeze.release (h : HoldsFreeze call s) :
    Moves s.book (s.book.releaseFreeze call.freezeID).1 call.key call.amount (-call.amount) := by
  obtain ⟨record, hopen, hamount, hkey⟩ := h.freeze
  have hmoves := (releaseFreeze_of_open hopen).2.moves
  rwa [hkey, hamount] at hmoves

theorem Tracks.release {ok : Bool} (h : Tracks call s C) (hstep : withdrawStep call s (.release ok) = some s') :
    Tracks call s' (C ∧ CallsSettle call s (.release ok)) := by
  simp only [withdrawStep] at hstep
  split at hstep
  · next answer hphase =>
    simp only [Tracks, hphase] at h
    obtain ⟨hC, hsub, hstatus, hholds⟩ := h
    obtain rfl : _ = s' := Option.some_inj.mp hstep
    cases ok with
    | false =>
      -- the answer is an error, and the amount is still frozen
      rw [if_neg Bool.false_ne_true, WithdrawState.own_moves (.refl s.book call.key)]
      refine iff_of_false (fun hsound ↦ ?_) fun hsettle ↦ absurd (hsettle.2 ⟨answer, hphase⟩) (by simp)
      have hzero := (hsound.failed hstatus).2
      simp only [hholds.ownFrozen, add_zero] at hzero
      exact hholds.valid.pos.2.ne' hzero
    | true =>
      rw [if_pos rfl, WithdrawState.own_moves hholds.release]
      refine iff_of_true (withdrawSound_of_unchanged hsub ?_ ?_) ⟨hC, fun _ ↦ rfl⟩
      · rw [hholds.ownAvailable, neg_add_cancel]
      · rw [hholds.ownFrozen, add_neg_cancel]
  · next hphase =>
    simp only [Tracks, hphase] at h
    obtain ⟨hC, hsub, hholds⟩ := h
    obtain rfl : _ = s' := Option.some_inj.mp hstep
    have hsettle : CallsSettle call s (.release ok) := by
      rintro ⟨answer, hanswer⟩
      exact absurd (hphase.symm.trans hanswer) (by simp)
    -- released or not, the total is as it was
    cases ok with
    | false =>
      rw [if_neg Bool.false_ne_true, WithdrawState.own_moves (.refl s.book call.key)]
      refine ⟨⟨hC, hsettle⟩, hsub, ?_, hholds.valid⟩
      simp only [hholds.ownAvailable, hholds.ownFrozen]
      ring
    | true =>
      rw [if_pos rfl, WithdrawState.own_moves hholds.release]
      refine ⟨⟨hC, hsettle⟩, hsub, ?_, hholds.valid⟩
      simp only [hholds.ownAvailable, hholds.ownFrozen]
      ring
  · exact absurd hstep (by simp)

/-- What the debit of a valid request moves: the amount, if the call does not fail, it is available
and the reference is new; otherwise nothing. -/
theorem debit_moves (hvalid : RefRequest.Valid call.debitRequest) (ok : Bool) : (CallsSettle call s (.debit ok) ∧
      Moves s.book (if ok then (s.book.debitAvailableWithRef call.debitRequest).1 else s.book) call.key
        (-call.amount) 0) ∨
    (¬ CallsSettle call s (.debit ok) ∧
      (if ok then (s.book.debitAvailableWithRef call.debitRequest).1 else s.book) = s.book) := by
  cases ok with
  | false => exact .inr ⟨fun h ↦ Bool.false_ne_true h.1, rfl⟩
  | true =>
    rw [if_pos rfl]
    by_cases hcovered : call.amount ≤ s.book.available call.key
    · by_cases hfresh : refKey call.debitRequest.refType call.debitRequest.refID ∉
          s.book.processedRefs
      · refine .inl ⟨⟨rfl, hcovered, hfresh⟩, ?_⟩
        rw [← call.key_debitRequest] at hcovered
        have hmoves := (debitAvailableWithRef_of_valid hvalid hfresh hcovered).2.moves
        rwa [call.key_debitRequest] at hmoves
      · exact .inr ⟨fun h ↦ hfresh h.2.2, (withRef_of_not fun _ ↦ not_not.mp hfresh).1⟩
    · refine .inr ⟨fun h ↦ hcovered h.2.1, ?_⟩
      rw [← call.key_debitRequest] at hcovered
      exact (debitAvailableWithRef_of_not_covered hcovered).1

theorem Tracks.debit {ok : Bool} (h : Tracks call s C) (hstep : withdrawStep call s (.debit ok) = some s') :
    Tracks call s' (C ∧ CallsSettle call s (.debit ok)) := by
  simp only [withdrawStep] at hstep
  split at hstep
  · next hphase =>
    simp only [Tracks, hphase] at h
    obtain ⟨hC, hsub, htotal, hvalid⟩ := h
    obtain rfl : _ = s' := Option.some_inj.mp hstep
    rcases debit_moves hvalid ok with ⟨hsettle, hmoves⟩ | ⟨hsettle, hbook⟩
    · rw [WithdrawState.own_moves hmoves]
      refine iff_of_true ⟨fun _ ↦ ?_, fun h ↦ absurd rfl h⟩ ⟨hC, hsettle⟩
      simp only
      linarith
    · rw [hbook, WithdrawState.own_moves (.refl s.book call.key)]
      refine iff_of_false (fun hsound ↦ ?_) fun h ↦ hsettle h.2
      have hdropped := hsound.submitted hsub
      simp only [add_zero] at hdropped
      have hpos : 0 < call.amount := hvalid.pos.2
      linarith
  · exact absurd hstep (by simp)

/-- Other operations leave the freeze of the request, and what it has done, alone. -/
theorem Tracks.other {op : Operation} (h : Tracks call s C) (hstep : withdrawStep call s (.other op) = some s') :
    Tracks call s' (C ∧ CallsSettle call s (.other op)) := by
  rw [withdrawStep] at hstep
  split_ifs at hstep with hop
  obtain rfl := Option.some_inj.mp hstep
  have hholds : HoldsFreeze call s →
      ∀ phase, HoldsFreeze call { s with book := s.book.run op, phase := phase } := by
    rintro ⟨ha, hf, ⟨record, hopen, hrecord⟩, hvalid⟩ phase
    exact ⟨ha, hf, ⟨record, hopen.run hop, hrecord⟩, hvalid⟩
  have hC : C ∧ CallsSettle call s (.other op) ↔ C := and_iff_left trivial
  rw [hC]
  cases hphase : s.phase with
  | start | freezing | debiting =>
    simp only [Tracks, hphase] at h ⊢
    exact h
  | submitting | unfreezing =>
    simp only [Tracks, hphase] at h ⊢
    exact ⟨h.1, h.2.1, hholds h.2.2 _⟩
  | releasing answer =>
    simp only [Tracks, hphase] at h ⊢
    exact ⟨h.1, h.2.1, h.2.2.1, hholds h.2.2.2 _⟩
  | answered answer =>
    simp only [Tracks, hphase] at h ⊢
    exact ⟨fun hs ↦ h.mp ⟨hs.1, hs.2⟩, fun hC ↦ ⟨(h.mpr hC).1, (h.mpr hC).2⟩⟩

/-- **One step.** -/
theorem Tracks.step {e : WithdrawEvent} (h : Tracks call s C) (hstep : withdrawStep call s e = some s') :
    Tracks call s' (C ∧ CallsSettle call s e) := by
  cases e with
  | start => exact h.start hstep
  | freeze ok => exact h.freeze hstep
  | submit ok => exact h.submit hstep
  | release ok => exact h.release hstep
  | debit ok => exact h.debit hstep
  | other op => exact h.other hstep

/-- **A whole run.** -/
theorem tracks_of_exec {es : List WithdrawEvent} (h : exec (withdrawStep call) (.initial book) es = some s) :
    Tracks call s
      (∀ t e t', Takes (withdrawStep call) (.initial book) es t e t' → CallsSettle call t e) := by
  induction es using List.reverseRecOn generalizing s with
  | nil =>
    obtain rfl : WithdrawState.initial book = s := by simpa using h
    refine ⟨?_, rfl, rfl, rfl⟩
    rintro t e t' ⟨pre, hpre, -⟩
    exact absurd (List.prefix_nil.mp hpre) (by simp)
  | append_singleton es e ih =>
    rw [exec_append_singleton, Option.bind_eq_some_iff] at h
    obtain ⟨t, ht, hstep⟩ := h
    have htracks := (ih ht).step hstep
    rwa [← forall_takes_append_singleton ht hstep] at htracks

end Steps

/-- **A withdrawal request is sound exactly if its calls settle it.** In every run of a request that
has been answered, amid any other operations. -/
theorem withdraw_sound_iff (call : WithdrawCall) (book : BalanceBook) (es : List WithdrawEvent)
    (t : WithdrawState) (answer : WithdrawAnswer)
    (hrun : exec (withdrawStep call) (.initial book) es = some t)
    (hanswer : t.phase = .answered answer) :
    WithdrawSound call t answer ↔
      ∀ u e u', Takes (withdrawStep call) (.initial book) es u e u' → CallsSettle call u e := by
  have htracks := tracks_of_exec hrun
  simp only [Tracks, hanswer] at htracks
  exact htracks

/-! ### Two requests -/

/-- User 7 withdraws their 100 USDT. -/
def sampleWithdraw : WithdrawCall :=
  ⟨true, some 7, .ok ⟨"0xabc", 100, "USDT", by decide, by decide⟩, "cwdr_1", "frz_1", by decide⟩

/-- A book in which user 7 has 100 USDT. -/
def sampleBook : BalanceBook := BalanceBook.empty.setRow (7, "USDT") ⟨7, "USDT", 100, 0⟩

/-- Undisturbed, the request is sound. -/
theorem withdraw_sound_undisturbed : ∃ t, exec (withdrawStep sampleWithdraw) (.initial sampleBook)
        [.start, .freeze true, .submit true, .release true, .debit true] = some t ∧
      WithdrawSound sampleWithdraw t ⟨200, ""⟩ := by
  refine ⟨_, rfl, (withdraw_sound_iff sampleWithdraw sampleBook
    [.start, .freeze true, .submit true, .release true, .debit true] _ _ rfl rfl).mpr ?_⟩
  intro u e u' htake
  refine Along.of_takes (C := CallsSettle sampleWithdraw) ?_ htake
  refine ⟨trivial, ?_⟩
  rintro _ ⟨⟩
  refine ⟨fun _ _ ↦ rfl, ?_⟩
  rintro _ ⟨⟩
  refine ⟨trivial, ?_⟩
  rintro _ ⟨⟩
  refine ⟨fun _ ↦ rfl, ?_⟩
  rintro _ ⟨⟩
  exact ⟨⟨rfl, by decide, by decide⟩, fun _ _ ↦ trivial⟩

/-- An order that is placed between the release and the debit uses up the released balance. The debit
fails, its error is ignored, and the withdrawal goes out without a charge. -/
theorem withdraw_submitted_uncharged : ∃ t, exec (withdrawStep sampleWithdraw) (.initial sampleBook)
        [.start, .freeze true, .submit true, .release true,
          .other (.preFreeze "frz_2" ⟨"", 7, "USDT", "ORDER", "ord_1", 60⟩), .debit true] = some t ∧
      t.phase = .answered ⟨200, ""⟩ ∧ ¬ WithdrawSound sampleWithdraw t ⟨200, ""⟩ :=
  ⟨_, rfl, rfl, fun h ↦ absurd (h.submitted rfl) (by decide)⟩

end FunnyOption.Custody
