import FunnyOption.Api.Rotation

/-!
# One active key for each wallet, chain and vault

A transaction that retires keys does not see the key that another one is about to insert. Two transactions for the
same wallet, chain and vault therefore leave two active keys if both begin to retire before either has ended. If
they come one after the other, at most one key is active at any time.

The invariant follows a transaction from the beginning of the statement that retires keys to its end. Every other
active key is still on the list of the statement or has been retired by the transaction, unseen by others: so when
it commits, its key is the only one.

## Main results

* `Registrations.one_active_key`: at most one active key, along every run in which the transactions of one wallet,
  chain and vault do not overlap.
* `Registrations.two_active_keys`: two transactions that overlap.
-/

open Foundation

namespace FunnyOption.Api

/-- The rows that a transaction still has to retire, once it has begun to. -/
def Phase.rest : Phase → Option (List String)
  | .rotating _ rest => some rest
  | .insert _ | .ensureProfile _ | .commit => some []
  | _ => none

namespace Registrations

open Versions

variable {s s' : Registrations} {t : ℕ} {r : Registration}

/-! ## What a step can do -/

/-- What a step can do to keys and transactions. -/
inductive Moved (s : Registrations) : Event → Registrations → Prop
  | begin (r : Registration) (s' : Registrations) (sessions : s'.sessions = s.sessions)
    (transactions : s'.transactions = s.transactions ++ [(r, .readSession)]) : Moved s (.begin r) s'
  /-- A statement leaves the keys alone. -/
  | go (t : ℕ) (r : Registration) (phase phase' : Phase) (s' : Registrations)
    (tx : s.transactions[t]? = some (r, phase)) (sessions : s'.sessions = s.sessions)
    (transactions : s'.transactions = s.transactions.set t (r, phase')) (rest : phase'.rest = phase.rest) :
    Moved s (.run t) s'
  /-- The statement that retires keys takes its list. -/
  | list (t : ℕ) (r : Registration) (userID : ℤ) (s' : Registrations)
    (tx : s.transactions[t]? = some (r, .rotate userID)) (sessions : s'.sessions = s.sessions)
    (transactions : s'.transactions = s.transactions.set t (r, .rotating userID (s.candidates t r))) :
    Moved s (.run t) s'
  /-- A key of the list is not to be retired any more. -/
  | pass (t : ℕ) (r : Registration) (userID : ℤ) (id : String) (rest : List String) (s' : Registrations)
    (tx : s.transactions[t]? = some (r, .rotating userID (id :: rest))) (free : s.sessions.Free t id)
    (other : ∀ session, s.sessions.view t id = some session → ¬ r.Retires id session)
    (sessions : s'.sessions = s.sessions)
    (transactions : s'.transactions = s.transactions.set t (r, .rotating userID rest)) : Moved s (.run t) s'
  /-- A key of the list is retired. -/
  | retire (t : ℕ) (r : Registration) (userID : ℤ) (id : String) (rest : List String) (session : Session)
    (s' : Registrations) (tx : s.transactions[t]? = some (r, .rotating userID (id :: rest)))
    (free : s.sessions.Free t id) (sessions : s'.sessions = s.sessions.write t id (r.retire session))
    (transactions : s'.transactions = s.transactions.set t (r, .rotating userID rest)) : Moved s (.run t) s'
  /-- The new key is inserted. -/
  | insert (t : ℕ) (r : Registration) (userID : ℤ) (row : Session) (s' : Registrations)
    (tx : s.transactions[t]? = some (r, .insert userID)) (free : s.sessions.Free t r.sessionID)
    (place : row.place = r.place) (sessions : s'.sessions = s.sessions.write t r.sessionID row)
    (transactions : s'.transactions = s.transactions.set t (r, .ensureProfile row)) : Moved s (.run t) s'
  /-- A transaction commits that has not written keys, or has come to its end. -/
  | commit (t : ℕ) (r : Registration) (phase : Phase) (tx : s.transactions[t]? = some (r, phase))
    (rest : phase.rest = none ∨ phase.rest = some []) : Moved s (.run t) (s.commit t r)
  | abort (e : Event) (t : ℕ) (r : Registration) (phase : Phase) (tx : s.transactions[t]? = some (r, phase)) :
    Moved s e (s.abort t r)

variable {phase : Phase}

theorem moved_retryOr (htx : s.transactions[t]? = some (r, phase)) (hrest : phase.rest = none)
    (existing : Option Session) : Moved s (.run t) (s.retryOr t r existing) := by
  rw [retryOr]
  split_ifs
  · exact .commit t r phase htx (.inl hrest)
  · exact .abort _ t r phase htx

theorem moved_of_statement (htx : s.transactions[t]? = some (r, phase)) (h : s.statement t r phase = some s') :
    Moved s (.run t) s' := by
  have hnext : ∀ {s₁}, some s₁ = some s' → Moved s (.run t) s₁ → Moved s (.run t) s' := by
    rintro s₁ ⟨⟩ hmoved
    exact hmoved
  cases phase with
  | readSession =>
    exact hnext h (.go t r _ _ _ htx rfl rfl rfl)
  | readChallenge existing =>
    rw [statement] at h
    split at h
    · exact hnext h (moved_retryOr htx rfl existing)
    · split_ifs at h
      · exact hnext h (.abort _ t r _ htx)
      · exact hnext h (moved_retryOr htx rfl existing)
      · exact hnext h (moved_retryOr htx rfl existing)
      · exact hnext h (.go t r _ _ _ htx rfl rfl rfl)
  | consume existing =>
    rw [statement] at h
    split_ifs at h
    split at h
    · exact hnext h (moved_retryOr htx rfl existing)
    · exact hnext h (.go t r _ _ _ htx rfl rfl rfl)
  | readProfile =>
    rw [statement] at h
    split_ifs at h
    · exact hnext h (.abort _ t r _ htx)
    · split at h
      · exact hnext h (.go t r _ _ _ htx rfl rfl rfl)
      · exact hnext h (.go t r _ _ _ htx rfl rfl rfl)
  | lockProfiles =>
    rw [statement] at h
    split_ifs at h
    exact hnext h (.go t r _ _ _ htx rfl rfl rfl)
  | createProfile =>
    rw [statement] at h
    split at h
    · exact hnext h (.go t r _ _ _ htx rfl rfl rfl)
    · exact hnext h (.go t r _ _ _ htx rfl rfl rfl)
  | readActive userID =>
    rw [statement] at h
    split at h
    · exact hnext h (.commit t r _ htx (.inl rfl))
    · exact hnext h (.go t r _ _ _ htx rfl rfl rfl)
  | rotate userID =>
    exact hnext h (.list t r userID _ htx rfl rfl)
  | rotating userID rest =>
    cases rest with
    | nil =>
      exact hnext h (.go t r _ _ _ htx rfl rfl rfl)
    | cons id rest =>
      rw [statement] at h
      split_ifs at h with hfree
      split at h
      · next hnone =>
        obtain rfl := Option.some_inj.mp h
        refine .pass t r userID id rest _ htx hfree (fun session hsession hretires ↦ ?_) rfl rfl
        rw [hsession, Option.filter_eq_none_iff] at hnone
        exact hnone session rfl (by simpa using hretires)
      · next session _ =>
        exact hnext h (.retire t r userID id rest session _ htx hfree rfl rfl)
  | insert userID =>
    rw [statement] at h
    dsimp only at h
    split_ifs at h with hwait hclash
    · exact hnext h (.abort _ t r _ htx)
    · obtain rfl := Option.some_inj.mp h
      rw [not_or, not_not] at hwait
      exact .insert t r userID (r.row userID (s.sessions.view t r.sessionID)) _ htx hwait.1 (r.place_row _ _) rfl rfl
  | ensureProfile session =>
    rw [statement] at h
    dsimp only at h
    split_ifs at h
    · exact hnext h (.go t r _ _ _ htx rfl rfl rfl)
    · exact hnext h (.abort _ t r _ htx)
    · exact hnext h (.go t r _ _ _ htx rfl rfl rfl)
  | commit =>
    exact hnext h (.commit t r _ htx (.inr rfl))
  | ended => cases h

/-- **What a step can do.** -/
theorem moved_of_step {e : Event} (h : s.step e = some s') : Moved s e s' := by
  cases e with
  | begin r =>
    obtain rfl := Option.some_inj.mp h
    exact .begin r _ rfl rfl
  | run t =>
    rw [step] at h
    split at h
    · cases h
    · next r phase htx => exact moved_of_statement htx h
  | abort t =>
    rw [step] at h
    split at h
    · cases h
    · cases h
    · next r phase _ htx =>
      obtain rfl := Option.some_inj.mp h
      exact .abort _ t r phase htx

/-! ## The invariant -/

/-- At most one key is active for each wallet, chain and vault. -/
def OneActive (s : Registrations) : Prop :=
  ∀ id id' row row', s.sessions.committed id = some row → s.sessions.committed id' = some row' →
    row.status = .active → row'.status = .active → row.place = row'.place → row.vaultAddress ≠ "" → id = id'

/-- The keys that a transaction is to retire are on its list, or it has retired them. -/
def Listed (s : Registrations) (t : ℕ) (r : Registration) (rest : List String) : Prop :=
  ∀ id row, s.sessions.committed id = some row → r.Retires id row →
    id ∈ rest ∨ ∃ row', s.sessions.written id = some (t, row') ∧ row'.status ≠ .active

/-- A transaction has begun to retire keys and has not ended. -/
def Rotates (s : Registrations) (t : ℕ) (r : Registration) : Prop :=
  ∃ phase, s.transactions[t]? = some (r, phase) ∧ phase.rest ≠ none

/-- What holds between statements. -/
structure Sound (s : Registrations) : Prop where
  one : s.OneActive
  /-- Only transactions that rotate have written keys. -/
  written : ∀ id t row, s.sessions.written id = some (t, row) →
    ∃ r, s.Rotates t r ∧ (row.status ≠ .active ∨ id = r.sessionID ∧ row.place = r.place)
  listed : ∀ t r phase rest, s.transactions[t]? = some (r, phase) → phase.rest = some rest → s.Listed t r rest
  /-- Those for one wallet, chain and vault have one key. -/
  alone : ∀ t t' r r', s.Rotates t r → s.Rotates t' r' → r.place = r'.place → r.sessionID = r'.sessionID

/-- No other transaction for the same wallet, chain and vault, but with another key, rotates when a transaction
begins to. -/
def Apart (s : Registrations) : Event → Prop
  | .run t =>
    match s.transactions[t]? with
    | some (r, .rotate _) =>
      ∀ other ∈ s.transactions, other.2.rest ≠ none → r.place = other.1.place → r.sessionID = other.1.sessionID
    | _ => True
  | _ => True

instance : DecidableRel Apart := fun s e ↦ by
  unfold Apart
  split
  · split <;> infer_instance
  · infer_instance

/-! ### Transactions -/

section Set

variable {x : Registration × Phase} {t' : ℕ} {r' : Registration} {phase phase' : Phase}

theorem getElem?_set_of_ne (h : t' ≠ t) : (s.transactions.set t x)[t']? = s.transactions[t']? :=
  List.getElem?_set_ne h.symm

theorem getElem?_set_self {y : Registration × Phase} (h : s.transactions[t]? = some y) :
    (s.transactions.set t x)[t]? = some x := by
  obtain ⟨hlt, -⟩ := List.getElem?_eq_some_iff.mp h
  rw [List.getElem?_set_self (by simpa using hlt)]

/-- A transaction after a statement: the one that made it, or another one as it was. -/
theorem transaction_of_set (htransactions : s'.transactions = s.transactions.set t (r, phase))
    (h : s'.transactions[t']? = some (r', phase')) :
    t' = t ∧ r' = r ∧ phase' = phase ∨ t' ≠ t ∧ s.transactions[t']? = some (r', phase') := by
  rw [htransactions, List.getElem?_set] at h
  split_ifs at h with ht
  · obtain ⟨rfl, rfl⟩ := Prod.mk.inj (Option.some_inj.mp h)
    exact .inl ⟨ht.symm, rfl, rfl⟩
  · exact .inr ⟨Ne.symm ht, h⟩

end Set

/-- A transaction goes on to rotate, or begins to. -/
theorem rotates_of_set {t' : ℕ} {r' : Registration}
    (htransactions : s'.transactions = s.transactions.set t (r, phase)) (h : s'.Rotates t' r') :
    t' ≠ t ∧ s.Rotates t' r' ∨ t' = t ∧ r' = r ∧ phase.rest ≠ none := by
  obtain ⟨phase', htx, hrest⟩ := h
  rcases transaction_of_set htransactions htx with ⟨ht, hr, rfl⟩ | ⟨ht, htx⟩
  · exact .inr ⟨ht, hr, hrest⟩
  · exact .inl ⟨ht, phase', htx, hrest⟩

variable {phase' : Phase}

/-- A transaction that goes on rotates as before. -/
theorem Rotates.set {t' : ℕ} {r' : Registration} (h : s.Rotates t' r') (htx : s.transactions[t]? = some (r, phase))
    (htransactions : s'.transactions = s.transactions.set t (r, phase'))
    (hrest : phase.rest ≠ none → phase'.rest ≠ none) : s'.Rotates t' r' := by
  obtain ⟨phase'', htx', hrest'⟩ := h
  by_cases ht : t' = t
  · subst ht
    obtain ⟨rfl, rfl⟩ := Prod.mk.inj (Option.some_inj.mp (htx.symm.trans htx'))
    exact ⟨phase', by rw [htransactions]; exact getElem?_set_self htx, hrest hrest'⟩
  · exact ⟨phase'', by rw [htransactions, getElem?_set_of_ne ht]; exact htx', hrest'⟩

/-- The transactions that rotate after a step are those before it. -/
theorem Sound.alone_set (h : s.Sound) (htx : s.transactions[t]? = some (r, phase))
    (htransactions : s'.transactions = s.transactions.set t (r, phase'))
    (hrest : phase'.rest ≠ none → phase.rest ≠ none) :
    ∀ t₁ t₂ r₁ r₂, s'.Rotates t₁ r₁ → s'.Rotates t₂ r₂ → r₁.place = r₂.place → r₁.sessionID = r₂.sessionID := by
  have hbefore : ∀ t' r', s'.Rotates t' r' → s.Rotates t' r' := by
    intro t' r' hrotates
    rcases rotates_of_set htransactions hrotates with ⟨-, h⟩ | ⟨rfl, rfl, hphase⟩
    · exact h
    · exact ⟨phase, htx, hrest hphase⟩
  intro t₁ t₂ r₁ r₂ h₁ h₂
  exact h.alone t₁ t₂ r₁ r₂ (hbefore t₁ r₁ h₁) (hbefore t₂ r₂ h₂)

/-! ### Statements -/

/-- A transaction that has not begun to rotate has written no key. -/
theorem Sound.not_written (h : s.Sound) (htx : s.transactions[t]? = some (r, phase)) (hrest : phase.rest = none)
    (id : String) (row : Session) : s.sessions.written id ≠ some (t, row) := by
  intro hwritten
  obtain ⟨r', ⟨phase', htx', hrest'⟩, -⟩ := h.written id t row hwritten
  obtain ⟨-, rfl⟩ := Prod.mk.inj (Option.some_inj.mp (htx.symm.trans htx'))
  exact hrest' hrest

variable {id : String}

/-- What a transaction has written: a retired key, or its own. -/
theorem Sound.written_by (h : s.Sound) (htx : s.transactions[t]? = some (r, phase)) {row : Session}
    (hwritten : s.sessions.written id = some (t, row)) :
    phase.rest ≠ none ∧ (row.status ≠ .active ∨ id = r.sessionID ∧ row.place = r.place) := by
  obtain ⟨r', ⟨phase', htx', hrest'⟩, hrow⟩ := h.written id t row hwritten
  obtain ⟨rfl, rfl⟩ := Prod.mk.inj (Option.some_inj.mp (htx.symm.trans htx'))
  exact ⟨hrest', hrow⟩

/-- A statement that leaves the keys alone. -/
theorem Sound.go (h : s.Sound) (htx : s.transactions[t]? = some (r, phase)) (hsessions : s'.sessions = s.sessions)
    (htransactions : s'.transactions = s.transactions.set t (r, phase'))
    (hkeep : phase.rest ≠ none → phase'.rest ≠ none)
    (halone : ∀ t₁ t₂ r₁ r₂, s'.Rotates t₁ r₁ → s'.Rotates t₂ r₂ → r₁.place = r₂.place → r₁.sessionID = r₂.sessionID)
    (hlisted : ∀ rest, phase'.rest = some rest → s.Listed t r rest) : s'.Sound := by
  refine ⟨?_, fun id t' row hwritten ↦ ?_, fun t' r' phase'' rest htx' hrest ↦ ?_, halone⟩
  · rw [OneActive, hsessions]
    exact h.one
  · rw [hsessions] at hwritten
    obtain ⟨r', hrotates, hrow⟩ := h.written id t' row hwritten
    exact ⟨r', hrotates.set htx htransactions hkeep, hrow⟩
  · rw [Listed, hsessions]
    rcases transaction_of_set htransactions htx' with ⟨rfl, rfl, rfl⟩ | ⟨-, htx'⟩
    · exact hlisted rest hrest
    · exact h.listed t' r' phase'' rest htx' hrest

/-- A statement that writes a key. -/
theorem Sound.write (h : s.Sound) {row : Session} {rest : List String} (htx : s.transactions[t]? = some (r, phase))
    (hfree : s.sessions.Free t id) (hsessions : s'.sessions = s.sessions.write t id row)
    (htransactions : s'.transactions = s.transactions.set t (r, phase')) (hphase : phase.rest ≠ none)
    (hphase' : phase'.rest = some rest) (hrow : row.status ≠ .active ∨ id = r.sessionID ∧ row.place = r.place)
    (hlisted : s'.Listed t r rest) : s'.Sound := by
  have hkeep : phase.rest ≠ none → phase'.rest ≠ none := fun _ hnone ↦ by rw [hphase'] at hnone; cases hnone
  have hwrites : ∀ id', s'.sessions.written id' = if id' = id then some (t, row) else s.sessions.written id' := by
    intro id'
    rw [hsessions, written_write]
  have hcommitted : ∀ id', s'.sessions.committed id' = s.sessions.committed id' := by
    intro id'
    rw [hsessions, committed_write]
  refine ⟨?_, fun id' t' row' hwritten ↦ ?_, fun t' r' phase'' rest' htx' hrest ↦ ?_,
    h.alone_set htx htransactions fun _ ↦ hphase⟩
  · intro id₁ id₂ row₁ row₂ h₁ h₂
    rw [hcommitted] at h₁ h₂
    exact h.one id₁ id₂ row₁ row₂ h₁ h₂
  · rw [hwrites] at hwritten
    split_ifs at hwritten with hid
    · obtain ⟨rfl, rfl⟩ := Prod.mk.inj (Option.some_inj.mp hwritten)
      exact ⟨r, Rotates.set ⟨phase, htx, hphase⟩ htx htransactions hkeep, hid ▸ hrow⟩
    · obtain ⟨r', hrotates, hrow'⟩ := h.written id' t' row' hwritten
      exact ⟨r', hrotates.set htx htransactions hkeep, hrow'⟩
  · rcases transaction_of_set htransactions htx' with ⟨rfl, rfl, rfl⟩ | ⟨ht, htx'⟩
    · obtain rfl := Option.some_inj.mp (hphase'.symm.trans hrest)
      exact hlisted
    · intro id' row' hrow' hretires
      rw [hcommitted] at hrow'
      refine (h.listed t' r' phase'' rest' htx' hrest id' row' hrow' hretires).imp_right ?_
      rintro ⟨old, hold, hstatus⟩
      refine ⟨old, ?_, hstatus⟩
      rw [hwrites, if_neg]
      · exact hold
      · -- the row is not locked by another transaction
        rintro rfl
        exact ht (hfree _ hold)

/-- A transaction that ends. What it has written is gone from the uncommitted rows, and a row that it has committed is
retired or its own. -/
theorem Sound.ends (h : s.Sound) (htx : s.transactions[t]? = some (r, phase))
    (hwritten : ∀ id, s'.sessions.written id = (s.sessions.written id).filter (·.1 ≠ t))
    (hcommitted : ∀ id row, s'.sessions.committed id = some row →
      s.sessions.committed id = some row ∨ s.sessions.written id = some (t, row))
    (htransactions : s'.transactions = s.transactions.set t (r, .ended)) (hone : s'.OneActive) : s'.Sound := by
  refine ⟨hone, fun id t' row hrow ↦ ?_, fun t' r' phase' rest htx' hrest ↦ ?_,
    h.alone_set htx htransactions fun hnone ↦ absurd rfl hnone⟩
  · rw [hwritten, Option.filter_eq_some_iff] at hrow
    obtain ⟨hrow, ht⟩ := hrow
    obtain ⟨r', ⟨phase', htx', hrest⟩, hstatus⟩ := h.written id t' row hrow
    refine ⟨r', ⟨phase', ?_, hrest⟩, hstatus⟩
    rw [htransactions, getElem?_set_of_ne (by simpa using ht)]
    exact htx'
  · rcases transaction_of_set htransactions htx' with ⟨rfl, rfl, rfl⟩ | ⟨ht, htx'⟩
    · cases hrest
    intro id row hrow hretires
    rcases hcommitted id row hrow with hold | hmine
    · refine (h.listed t' r' phase' rest htx' hrest id row hold hretires).imp_right ?_
      rintro ⟨row', hrow', hstatus⟩
      refine ⟨row', ?_, hstatus⟩
      rw [hwritten, hrow', Option.filter_some, if_pos (by simpa using ht)]
    · -- an active key that was committed is the one of a rotation with the same place, so of the same key
      obtain ⟨hrotates, hstatus | ⟨rfl, hplace⟩⟩ := h.written_by htx hmine
      · exact absurd hretires.2.1 hstatus
      · refine absurd ?_ hretires.2.2
        exact h.alone t t' r r' ⟨phase, htx, hrotates⟩ ⟨phase', htx', by rw [hrest]; simp⟩
          (hplace.symm.trans hretires.1)

/-- What a transaction commits: a row as it was, and not written by it, or one that it has written. -/
theorem committed_of_commit {row : Session} (hrow : (s.commit t r).sessions.committed id = some row) :
    s.sessions.written id = some (t, row) ∨
      s.sessions.committed id = some row ∧ ∀ row', s.sessions.written id ≠ some (t, row') := by
  change (s.sessions.commit t).committed id = some row at hrow
  rw [committed_commit] at hrow
  by_cases hmine : ∃ row', s.sessions.written id = some (t, row')
  · obtain ⟨row', hrow'⟩ := hmine
    rw [view_of_written hrow'] at hrow
    obtain rfl := Option.some_inj.mp hrow
    exact .inl hrow'
  · rw [not_exists] at hmine
    rw [view_of_not_written hmine] at hrow
    exact .inr ⟨hrow, hmine⟩

/-- The key of a transaction that commits is the only active one. -/
theorem Sound.eq_of_commit (h : s.Sound) (htx : s.transactions[t]? = some (r, phase))
    (hend : phase.rest = none ∨ phase.rest = some []) {id id' : String} {row row' : Session}
    (hmine : s.sessions.written id = some (t, row)) (hactive : row.status = .active)
    (hrow' : (s.commit t r).sessions.committed id' = some row') (hactive' : row'.status = .active)
    (hplace : row.place = row'.place) : id = id' := by
  obtain ⟨hrotates, hstatus | ⟨rfl, hrow⟩⟩ := h.written_by htx hmine
  · exact absurd hactive hstatus
  by_contra hne
  rcases committed_of_commit hrow' with hmine' | ⟨hold, hnot⟩
  · obtain ⟨-, hstatus | ⟨rfl, -⟩⟩ := h.written_by htx hmine'
    · exact hstatus hactive'
    · exact hne rfl
  · have hretires : r.Retires id' row' := ⟨hplace.symm.trans hrow, hactive', fun heq ↦ hne heq.symm⟩
    rcases h.listed t r phase [] htx (hend.resolve_left hrotates) id' row' hold hretires with hmem | ⟨row'', hw, -⟩
    · cases hmem
    · exact hnot row'' hw

theorem Sound.commit (h : s.Sound) (htx : s.transactions[t]? = some (r, phase))
    (hend : phase.rest = none ∨ phase.rest = some []) : (s.commit t r).Sound := by
  refine h.ends htx (fun id ↦ written_commit id) (fun id row hrow ↦ ?_) rfl ?_
  · exact (committed_of_commit hrow).symm.imp_left And.left
  · intro id id' row row' hrow hrow' hactive hactive' hplace hvault
    rcases committed_of_commit hrow with hmine | ⟨hold, -⟩
    · exact h.eq_of_commit htx hend hmine hactive hrow' hactive' hplace
    rcases committed_of_commit hrow' with hmine' | ⟨hold', -⟩
    · exact (h.eq_of_commit htx hend hmine' hactive' hrow hactive hplace.symm).symm
    · exact h.one id id' row row' hold hold' hactive hactive' hplace hvault

theorem Sound.abort (h : s.Sound) (htx : s.transactions[t]? = some (r, phase)) : (s.abort t r).Sound := by
  have hcommitted : ∀ id, (s.abort t r).sessions.committed id = s.sessions.committed id :=
    fun id ↦ committed_abort id
  refine h.ends htx (fun id ↦ written_abort id) (fun id row hrow ↦ ?_) rfl ?_
  · exact .inl (by rw [← hcommitted id]; exact hrow)
  · intro id id' row row' hrow hrow'
    rw [hcommitted] at hrow hrow'
    exact h.one id id' row row' hrow hrow'

/-- What another statement sees of a row that it passes over. -/
theorem Sound.listed_pass (h : s.Sound) {userID : ℤ} {rest : List String}
    (htx : s.transactions[t]? = some (r, .rotating userID (id :: rest)))
    (hother : ∀ session, s.sessions.view t id = some session → ¬ r.Retires id session) : s.Listed t r rest := by
  intro id' row hrow hretires
  rcases h.listed t r _ _ htx rfl id' row hrow hretires with hmem | hwritten
  · rcases List.mem_cons.mp hmem with rfl | hmem
    · by_cases hmine : ∃ row', s.sessions.written id' = some (t, row')
      · obtain ⟨row', hrow'⟩ := hmine
        obtain ⟨-, hstatus | ⟨hid, -⟩⟩ := h.written_by htx hrow'
        · exact .inr ⟨row', hrow', hstatus⟩
        · exact absurd hid hretires.2.2
      · rw [not_exists] at hmine
        refine absurd hretires (hother row ?_)
        rw [view_of_not_written hmine, hrow]
    · exact .inl hmem
  · exact .inr hwritten

/-- The list of a statement has every key that is to be retired. -/
theorem Sound.listed_candidates (h : s.Sound) {userID : ℤ} (htx : s.transactions[t]? = some (r, .rotate userID)) :
    s.Listed t r (s.candidates t r) := by
  intro id row hrow hretires
  refine .inl (List.mem_map.mpr ⟨(id, row), List.mem_filter.mpr ⟨mem_visible.mpr ?_, by simpa using hretires⟩, rfl⟩)
  rw [view_of_not_written (h.not_written htx rfl id), hrow]

/-- A transaction that begins to rotate is alone for its wallet, chain and vault. -/
theorem Sound.alone_list (h : s.Sound) (htransactions : s'.transactions = s.transactions.set t (r, phase))
    (hapart : ∀ t' r', s.Rotates t' r' → r.place = r'.place → r.sessionID = r'.sessionID) :
    ∀ t₁ t₂ r₁ r₂, s'.Rotates t₁ r₁ → s'.Rotates t₂ r₂ → r₁.place = r₂.place → r₁.sessionID = r₂.sessionID := by
  intro t₁ t₂ r₁ r₂ h₁ h₂ hplace
  rcases rotates_of_set htransactions h₁ with ⟨-, h₁⟩ | ⟨rfl, rfl, -⟩
  · rcases rotates_of_set htransactions h₂ with ⟨-, h₂⟩ | ⟨rfl, rfl, -⟩
    · exact h.alone t₁ t₂ r₁ r₂ h₁ h₂ hplace
    · exact (hapart t₁ r₁ h₁ hplace.symm).symm
  · rcases rotates_of_set htransactions h₂ with ⟨-, h₂⟩ | ⟨rfl, rfl, -⟩
    · exact hapart t₂ r₂ h₂ hplace
    · rfl

theorem Sound.step (h : s.Sound) {e : Event} (hapart : s.Apart e) (hstep : s.step e = some s') : s'.Sound := by
  cases moved_of_step hstep with
  | begin r _ hsessions htransactions =>
    have hbefore : ∀ (t : ℕ) r' (phase : Phase), s'.transactions[t]? = some (r', phase) → phase.rest ≠ none →
        s.transactions[t]? = some (r', phase) := by
      intro t r' phase htx hrest
      rw [htransactions, List.getElem?_append] at htx
      split_ifs at htx
      · exact htx
      · obtain ⟨-, rfl⟩ := Prod.mk.inj (List.mem_singleton.mp (List.mem_of_getElem? htx))
        exact absurd rfl hrest
    refine ⟨?_, fun id t row hwritten ↦ ?_, fun t r' phase rest htx hrest ↦ ?_, ?_⟩
    · rw [OneActive, hsessions]
      exact h.one
    · rw [hsessions] at hwritten
      obtain ⟨r', ⟨phase, htx, hrest⟩, hrow⟩ := h.written id t row hwritten
      refine ⟨r', ⟨phase, ?_, hrest⟩, hrow⟩
      rw [htransactions, List.getElem?_append_left (List.getElem?_eq_some_iff.mp htx).1]
      exact htx
    · rw [Listed, hsessions]
      exact h.listed t r' phase rest (hbefore t r' phase htx (by rw [hrest]; simp)) hrest
    · rintro t₁ t₂ r₁ r₂ ⟨phase₁, htx₁, hrest₁⟩ ⟨phase₂, htx₂, hrest₂⟩
      exact h.alone t₁ t₂ r₁ r₂ ⟨phase₁, hbefore _ _ _ htx₁ hrest₁, hrest₁⟩ ⟨phase₂, hbefore _ _ _ htx₂ hrest₂, hrest₂⟩
  | go t r phase phase' _ htx hsessions htransactions hrest =>
    refine h.go htx hsessions htransactions (by rw [hrest]; exact id)
      (h.alone_set htx htransactions (by rw [hrest]; exact id)) fun rest hphase ↦ ?_
    exact h.listed t r phase rest htx (hrest.symm.trans hphase)
  | list t r userID _ htx hsessions htransactions =>
    refine h.go htx hsessions htransactions (fun hnone ↦ absurd rfl hnone) (h.alone_list htransactions ?_) ?_
    · rw [Apart, htx] at hapart
      rintro t' r' ⟨phase, htx', hrest⟩
      exact hapart (r', phase) (List.mem_of_getElem? htx') hrest
    · intro rest hrest
      obtain rfl := Option.some_inj.mp hrest
      exact h.listed_candidates htx
  | pass t r userID id rest _ htx hfree hother hsessions htransactions =>
    refine h.go htx hsessions htransactions (fun _ hnone ↦ by cases hnone)
      (h.alone_set htx htransactions fun _ hnone ↦ by cases hnone) fun rest' hrest' ↦ ?_
    obtain rfl := Option.some_inj.mp hrest'
    exact h.listed_pass htx hother
  | retire t r userID id rest session _ htx hfree hsessions htransactions =>
    have hretired : (r.retire session).status ≠ .active := by
      intro heq
      cases heq
    refine h.write htx hfree hsessions htransactions (fun hnone ↦ by cases hnone) rfl (.inl hretired) ?_
    intro id' row hrow hretires
    rw [hsessions, committed_write] at hrow
    rw [hsessions, written_write]
    split_ifs with hid
    · exact .inr ⟨_, rfl, hretired⟩
    · exact (h.listed t r _ _ htx rfl id' row hrow hretires).imp_left fun hmem ↦
        (List.mem_cons.mp hmem).resolve_left hid
  | insert t r userID row _ htx hfree hplace hsessions htransactions =>
    refine h.write htx hfree hsessions htransactions (fun hnone ↦ by cases hnone) rfl (.inr ⟨rfl, hplace⟩) ?_
    intro id' row' hrow' hretires
    rw [hsessions, committed_write] at hrow'
    rw [hsessions, written_write, if_neg hretires.2.2]
    exact h.listed t r _ _ htx rfl id' row' hrow' hretires
  | commit t r phase htx hend => exact h.commit htx hend
  | abort _ t r phase htx => exact h.abort htx

theorem sound_start (db : Database) (hone : (start db).OneActive) : (start db).Sound where
  one := hone
  written id t row hwritten := by
    rw [start, written_ofTable] at hwritten
    cases hwritten
  listed t r phase rest htx := by cases htx
  alone t t' r r' hrotates := by
    obtain ⟨phase, htx, -⟩ := hrotates
    cases htx

/-- **At most one active key.** If no two transactions for one wallet, chain and vault with different keys are between
the beginning of the statement that retires keys and their end, then at most one key is active for each wallet,
chain and vault: at any time, and in particular when all transactions have ended. -/
theorem one_active_key (db : Database) (es : List Event) (hone : (start db).OneActive)
    (hapart : Along step Apart (start db) es) (hs : Visits step (start db) es s) : s.OneActive := by
  refine (visits_induction (sound_start db hone) ?_ s hs).one
  intro t e t' htakes ht
  exact ht.step (hapart.of_takes htakes) htakes.step_eq

section Sample

/-- A wallet with a profile and two challenges. -/
def sampleDatabase : Database where
  sessions := .empty
  profiles := ⟨[(1001, "w")], by decide⟩
  challenges := ⟨[("c1", ⟨"w", 1, "v", "a", 100, 0⟩), ("c2", ⟨"w", 1, "v", "b", 100, 0⟩)], by decide⟩

/-- A registration with one of the challenges. -/
def sampleRegistration (sessionID challengeID challenge tradingPublicKey : String) : Registration where
  nowMillis := 50
  sessionID := sessionID
  req :=
    { walletAddress := "w"
      chainID := 1
      vaultAddress := "v"
      challengeID := challengeID
      challenge := challenge
      challengeExpiresAtMillis := 100
      tradingPublicKey := tradingPublicKey
      tradingKeyScheme := ""
      scope := "s"
      keyExpiresAtMillis := 200
      walletSignatureStandard := ""
      walletSignature := "" }

def firstKey : Event := .begin (sampleRegistration "1" "c1" "a" "k1")

def secondKey : Event := .begin (sampleRegistration "2" "c2" "b" "k2")

/-- One transaction after the other: the second one retires the key of the first. -/
def oneByOne : List Event := firstKey :: List.replicate 10 (.run 0) ++ secondKey :: List.replicate 11 (.run 1)

/-- Both transactions begin to retire keys before either has inserted its own. -/
def overlapping : List Event := firstKey :: secondKey ::
    List.replicate 6 (.run 0) ++ List.replicate 6 (.run 1) ++ List.replicate 4 (.run 0) ++ List.replicate 4 (.run 1)

theorem oneActive_sampleDatabase : (start sampleDatabase).OneActive := by
  intro id id' row row' hrow
  cases hrow

/-- A second key that is registered after the first one. -/
theorem one_active_key_oneByOne :
    (exec step (start sampleDatabase) oneByOne).isSome ∧ Along step Apart (start sampleDatabase) oneByOne ∧
      ∀ s, Visits step (start sampleDatabase) oneByOne s → s.OneActive := by
  have hapart : Along step Apart (start sampleDatabase) oneByOne := by decide
  exact ⟨by decide, hapart, fun s ↦ one_active_key sampleDatabase oneByOne oneActive_sampleDatabase hapart⟩

/-- **Two active keys.** Two transactions that both look for keys to retire before either has inserted its own. -/
theorem two_active_keys : (start sampleDatabase).OneActive ∧
      ∃ s, exec step (start sampleDatabase) overlapping = some s ∧ (∀ p ∈ s.transactions, p.2 = .ended) ∧
        ¬ s.OneActive := by
  have hrun : ∃ s ∈ exec step (start sampleDatabase) overlapping, (∀ p ∈ s.transactions, p.2 = .ended) ∧
      ∀ id ∈ ["1", "2"], ∃ row ∈ s.sessions.committed id, row.status = .active ∧ row.place = ("w", 1, "v") := by
    decide +kernel
  obtain ⟨s, hs, hended, hkeys⟩ := hrun
  obtain ⟨row, hrow, hstatus, hplace⟩ := hkeys "1" (by simp)
  obtain ⟨row', hrow', hstatus', hplace'⟩ := hkeys "2" (by simp)
  have hvault : row.vaultAddress = "v" := congrArg (fun place ↦ place.2.2) hplace
  refine ⟨oneActive_sampleDatabase, s, hs, hended, fun hone ↦ ?_⟩
  have hid := hone "1" "2" row row' hrow hrow' hstatus hstatus' (hplace.trans hplace'.symm) (by simp [hvault])
  exact absurd hid (by decide)

end Sample

end Registrations

end FunnyOption.Api
