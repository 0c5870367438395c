import FunnyOption.Api.Store
import FunnyOption.Foundation.Run
import FunnyOption.Foundation.Versions

/-!
# Rotating trading keys

`RegisterTradingKey` retires the active keys of a wallet for a chain and a vault, and inserts the new one. It does so
in a transaction of several statements at the isolation level `READ COMMITTED`, and other transactions run between
them. A statement that meets a row which another transaction has written waits until that transaction ends.

## The model

A step is one statement of one transaction. A statement that has to wait is not enabled. The statement that retires
keys takes its list of rows when it begins, and goes through them one at a time: a row that has become visible since
is not among them, and a row that was changed while the statement waited is looked at again.

The statements that create a profile are one step. They run with the table locked, so that nobody could come in
between. The entries of the rollup journal are left out; they are written last.
-/

open Foundation

namespace FunnyOption.Api

open Auth

/-- Wallet, chain and vault of a key. -/
def Session.place (s : Session) : String × ℤ × String := (s.walletAddress, s.chainID, s.vaultAddress)

/-- A call of `RegisterTradingKey`. -/
structure Registration where
  nowMillis : ℤ
  sessionID : String
  req : RegisterTradingKeyRequest

namespace Registration

variable (r : Registration)

/-- Wallet, chain and vault of the new key. -/
def place : String × ℤ × String :=
  (normalizeAddress r.req.walletAddress, r.req.chainID, normalizeAddress r.req.vaultAddress)

/-- A key that is retired. -/
def Retires (id : String) (session : Session) : Prop :=
  session.place = r.place ∧ session.status = .active ∧ id ≠ r.sessionID

instance (id : String) (session : Session) : Decidable (r.Retires id session) :=
  inferInstanceAs (Decidable (_ ∧ _ ∧ _))

/-- A retired key. -/
def retire (session : Session) : Session := { session with status := .rotated, revokedAtMillis := r.nowMillis }

/-- The row of the new key. On a conflict of ids the nonce of the last order and the time of creation stay. -/
def row (userID : ℤ) (old : Option Session) : Session where
  userID := userID
  walletAddress := normalizeAddress r.req.walletAddress
  sessionPublicKey := normalizeAddress r.req.tradingPublicKey
  scope := normalizeScope r.req.scope
  chainID := r.req.chainID
  vaultAddress := normalizeAddress r.req.vaultAddress
  sessionNonce := normalizeChallengeValue r.req.challenge
  lastOrderNonce := (old.map Session.lastOrderNonce).getD 0
  status := .active
  issuedAtMillis := r.nowMillis
  expiresAtMillis := r.req.keyExpiresAtMillis
  revokedAtMillis := 0
  createdAt := (old.map Session.createdAt).getD (r.nowMillis / 1000)

theorem place_row (userID : ℤ) (old : Option Session) : (r.row userID old).place = r.place := rfl

end Registration

/-- The statement that a transaction comes to next. -/
inductive Phase where
  | readSession
  | readChallenge (existing : Option Session)
  | consume (existing : Option Session)
  | readProfile
  | lockProfiles
  | createProfile
  | readActive (userID : ℤ)
  | rotate (userID : ℤ)
  /-- In the statement that retires keys, with the rows that are left of its list. -/
  | rotating (userID : ℤ) (rest : List String)
  | insert (userID : ℤ)
  | ensureProfile (session : Session)
  | commit
  | ended
  deriving DecidableEq

/-- The tables and the transactions. A transaction is known by its number. -/
structure Registrations where
  sessions : Versions ℕ String Session
  profiles : Versions ℕ ℤ String
  challenges : Versions ℕ String Challenge
  /-- The transaction that has locked the table of profiles. -/
  profileLock : Option ℕ
  transactions : List (Registration × Phase)

namespace Registrations

/-- The tables before any transaction. -/
def start (db : Database) : Registrations where
  sessions := .ofTable db.sessions
  profiles := .ofTable db.profiles
  challenges := .ofTable db.challenges
  profileLock := none
  transactions := []

variable (s : Registrations) (t : ℕ) (r : Registration)

/-- A transaction comes to its next statement. -/
def goto (phase : Phase) : Registrations := { s with transactions := s.transactions.set t (r, phase) }

/-- `Commit`. -/
def commit : Registrations where
  sessions := s.sessions.commit t
  profiles := s.profiles.commit t
  challenges := s.challenges.commit t
  profileLock := if s.profileLock = some t then none else s.profileLock
  transactions := s.transactions.set t (r, .ended)

/-- `Rollback`. -/
def abort : Registrations where
  sessions := s.sessions.abort t
  profiles := s.profiles.abort t
  challenges := s.challenges.abort t
  profileLock := if s.profileLock = some t then none else s.profileLock
  transactions := s.transactions.set t (r, .ended)

/-- An error, or the end of a request that was served before. -/
def retryOr (existing : Option Session) : Registrations :=
  if existing.any (isIdempotentTradingKeyRetry · r.req) then s.commit t r else s.abort t r

/-- The user of a wallet. -/
def findUser (wallet : String) : Option ℤ := ((s.profiles.visible t).find? (·.2 = wallet)).map Prod.fst

section Unique

variable {κ α β : Type*} [DecidableEq κ] [DecidableEq β] (vs : Versions ℕ κ α) (t : ℕ) (column : α → β) (k : κ)
  (value : β)

/-- A row of another transaction that is not committed yet and that a unique column clashes with. -/
def Awaited : Prop :=
  ∃ row ∈ vs.rows, row.1 ≠ k ∧ ∃ p ∈ row.2.written, p.1 ≠ t ∧ column p.2 = value

instance : Decidable (Awaited vs t column k value) :=
  inferInstanceAs (Decidable (∃ row ∈ vs.rows, row.1 ≠ k ∧ ∃ p ∈ row.2.written, _))

/-- A row that a unique column clashes with. -/
def Clashes : Prop :=
  ∃ row ∈ vs.visible t, row.1 ≠ k ∧ column row.2 = value

instance : Decidable (Clashes vs t column k value) := inferInstanceAs (Decidable (∃ row ∈ vs.visible t, _))

end Unique

/-- The rows that the statement which retires keys begins with. -/
def candidates : List String := ((s.sessions.visible t).filter fun p ↦ r.Retires p.1 p.2).map Prod.fst

/-- The next statement of a transaction; there is none if it has to wait or has ended. -/
def statement : Phase → Option Registrations
  | .readSession => some (s.goto t r (.readChallenge (s.sessions.view t (trimSpace r.sessionID))))
  | .readChallenge existing =>
    match s.challenges.view t (trimSpace r.req.challengeID) with
    | none => some (s.retryOr t r existing)
    | some c =>
      if c.walletAddress ≠ normalizeAddress r.req.walletAddress ∨ c.chainID ≠ r.req.chainID ∨
          c.vaultAddress ≠ normalizeAddress r.req.vaultAddress ∨
          c.challenge ≠ normalizeChallengeValue r.req.challenge then some (s.abort t r)
      else if c.expiresAt < r.nowMillis then some (s.retryOr t r existing)
      else if c.consumedAt > 0 then some (s.retryOr t r existing)
      else some (s.goto t r (.consume existing))
  | .consume existing =>
    if ¬ s.challenges.Free t (trimSpace r.req.challengeID) then none
    else
      match (s.challenges.view t (trimSpace r.req.challengeID)).filter (·.consumedAt = 0) with
      | none => some (s.retryOr t r existing)
      | some c =>
        some { s.goto t r .readProfile with
          challenges := s.challenges.write t (trimSpace r.req.challengeID) { c with consumedAt := r.nowMillis } }
  | .readProfile =>
    if normalizeAddress r.req.walletAddress = "" then some (s.abort t r)
    else
      match s.findUser t (normalizeAddress r.req.walletAddress) with
      | some userID => some (s.goto t r (.readActive userID))
      | none => some (s.goto t r .lockProfiles)
  | .lockProfiles =>
    if (∃ holder ∈ s.profileLock, holder ≠ t) ∨ ∃ row ∈ s.profiles.rows, ∃ p ∈ row.2.written, p.1 ≠ t then none
    else some { s.goto t r .createProfile with profileLock := some t }
  | .createProfile =>
    match s.findUser t (normalizeAddress r.req.walletAddress) with
    | some userID => some (s.goto t r (.readActive userID))
    | none =>
      let userID := ((s.profiles.visible t).map Prod.fst).max?.getD 1000 + 1
      some { s.goto t r (.readActive userID) with
        profiles := s.profiles.write t userID (normalizeAddress r.req.walletAddress) }
  | .readActive userID =>
    match (s.sessions.view t (trimSpace r.sessionID)).filter (Database.isSameActive · r.nowMillis r.req) with
    | some _ => some (s.commit t r)
    | none => some (s.goto t r (.rotate userID))
  | .rotate userID => some (s.goto t r (.rotating userID (s.candidates t r)))
  | .rotating userID [] => some (s.goto t r (.insert userID))
  | .rotating userID (id :: rest) =>
    if ¬ s.sessions.Free t id then none
    else
      match (s.sessions.view t id).filter (r.Retires id ·) with
      | none => some (s.goto t r (.rotating userID rest))
      | some session =>
        some { s.goto t r (.rotating userID rest) with sessions := s.sessions.write t id (r.retire session) }
  | .insert userID =>
    let row := r.row userID (s.sessions.view t r.sessionID)
    if ¬ s.sessions.Free t r.sessionID ∨ Awaited s.sessions t Session.scopeKey r.sessionID row.scopeKey then none
    else if Clashes s.sessions t Session.scopeKey r.sessionID row.scopeKey then some (s.abort t r)
    else some { s.goto t r (.ensureProfile row) with sessions := s.sessions.write t r.sessionID row }
  | .ensureProfile session =>
    if session.userID ≤ 0 ∨ trimSpace session.walletAddress = "" then some (s.goto t r .commit)
    else
      let wallet := normalizeAddress session.walletAddress
      if (∃ holder ∈ s.profileLock, holder ≠ t) ∨ ¬ s.profiles.Free t session.userID ∨
          Awaited s.profiles t id session.userID wallet then none
      else if Clashes s.profiles t id session.userID wallet then some (s.abort t r)
      else some { s.goto t r .commit with profiles := s.profiles.write t session.userID wallet }
  | .commit => some (s.commit t r)
  | .ended => none

/-- What can happen. -/
inductive Event where
  | begin (r : Registration)
  | run (t : ℕ)
  /-- A transaction is given up. -/
  | abort (t : ℕ)

/-- One event. -/
def step (s : Registrations) : Event → Option Registrations
  | .begin r => some { s with transactions := s.transactions ++ [(r, .readSession)] }
  | .run t =>
    match s.transactions[t]? with
    | none => none
    | some (r, phase) => s.statement t r phase
  | .abort t =>
    match s.transactions[t]? with
    | none | some (_, .ended) => none
    | some (r, _) => some (s.abort t r)

end Registrations

end FunnyOption.Api
