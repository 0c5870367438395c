import FunnyOption.Foundation.Table
import FunnyOption.Shared.Auth

/-!
# Sessions, trading keys and profiles in the store

The tables `wallet_sessions`, `user_profiles` and `trading_key_challenges`, and the methods of `SQLStore`
that write them. A method runs in one transaction: it returns the new tables, or an error and the tables
are as they were. An upsert fails on a row that breaks a unique constraint.

A trading key is a row of the table of sessions, like a session. Of the profile of a user only the wallet
is modelled. The times of creation are in seconds, all other times in milliseconds.
-/

open Foundation

namespace FunnyOption.Api

open Auth

/-! ## Tables -/

/-- The values of `wallet_sessions.status`. -/
inductive SessionStatus where
  | active
  | revoked
  | rotated
  deriving DecidableEq

/-- A row of `wallet_sessions`, without the id it is filed under. -/
structure Session where
  userID : ℤ
  walletAddress : String
  sessionPublicKey : String
  scope : String
  chainID : ℤ
  vaultAddress : String
  sessionNonce : String
  lastOrderNonce : ℤ
  status : SessionStatus
  issuedAtMillis : ℤ
  expiresAtMillis : ℤ
  revokedAtMillis : ℤ
  createdAt : ℤ
  deriving DecidableEq

/-- A row of `trading_key_challenges`, without its id. -/
structure Challenge where
  walletAddress : String
  chainID : ℤ
  vaultAddress : String
  challenge : String
  expiresAt : ℤ
  consumedAt : ℤ

/-- The tables. -/
structure Database where
  sessions : Table String Session
  /-- The wallets of the users. -/
  profiles : Table ℤ String
  challenges : Table String Challenge

/-- `normalizeWalletAddress`, `normalizeVaultAddress` and `normalizePublicKey`. -/
def normalizeAddress (address : String) : String := toLower (trimSpace address)

theorem normalizeAddress_normalizeAddress (address : String) :
    normalizeAddress (normalizeAddress address) = normalizeAddress address := by
  simp only [normalizeAddress, trimSpace_toLower, trimSpace_trimSpace, toLower_toLower]

theorem trimSpace_normalizeAddress (address : String) :
    trimSpace (normalizeAddress address) = normalizeAddress address := by
  rw [normalizeAddress, trimSpace_toLower, trimSpace_trimSpace]

/-- `normalizeChallengeValue`. -/
def normalizeChallengeValue (challenge : String) : String := trimPrefix (toLower (trimSpace challenge)) "0x"

/-- `strings.EqualFold`, on the letters of ASCII. -/
def equalFold (a b : String) : Bool := toLower a = toLower b

/-- The columns of a unique constraint of `wallet_sessions`. -/
def Session.scopeKey (s : Session) : String × ℤ × String × String :=
  (s.walletAddress, s.chainID, s.vaultAddress, s.sessionPublicKey)

namespace Database

variable (db : Database)

/-- `GetSession`. -/
def getSession (sessionID : String) : Option Session := db.sessions.get (trimSpace sessionID)

/-- Write a session row. On a conflict of ids the nonce of the last order and the time of creation
stay. -/
def upsertSession (sessionID : String) (session : Session) : Option (Database × Session) :=
  if ∃ r ∈ db.sessions.rows, r.1 ≠ sessionID ∧ r.2.scopeKey = session.scopeKey then none
  else
    let row :=
      match db.sessions.get sessionID with
      | some old => { session with lastOrderNonce := old.lastOrderNonce, createdAt := old.createdAt }
      | none => session
    some ({ db with sessions := db.sessions.insert sessionID row }, row)

/-- Write the wallet of a user. A wallet belongs to one user. -/
def upsertProfile (userID : ℤ) (wallet : String) : Option Database :=
  if ∃ r ∈ db.profiles.rows, r.1 ≠ userID ∧ r.2 = wallet then none
  else some { db with profiles := db.profiles.insert userID wallet }

/-- `ensureUserProfileTx`. -/
def ensureUserProfile (userID : ℤ) (walletAddress : String) : Option Database :=
  if userID ≤ 0 ∨ trimSpace walletAddress = "" then some db
  else db.upsertProfile userID (normalizeAddress walletAddress)

/-- `resolveOrCreateUserIDTx`: the user of a wallet, with a new one for an unknown wallet. -/
def resolveOrCreateUserID (walletAddress : String) : Option (Database × ℤ) :=
  let wallet := normalizeAddress walletAddress
  if wallet = "" then none
  else
    match db.profiles.rows.find? (·.2 = wallet) with
    | some r => some (db, r.1)
    | none =>
      let userID := (db.profiles.rows.map Prod.fst).max?.getD 1000 + 1
      some ({ db with profiles := db.profiles.insert userID wallet }, userID)

end Database

/-! ## Sessions -/

/-- `CreateSessionRequest`. -/
structure CreateSessionRequest where
  userID : ℤ
  walletAddress : String
  sessionPublicKey : String
  scope : String
  chainID : ℤ
  nonce : String
  issuedAtMillis : ℤ
  expiresAtMillis : ℤ
  walletSignature : String

/-- `SQLStore.CreateSession`. -/
def Database.createSession (db : Database) (nowMillis : ℤ) (sessionID : String)
    (req : CreateSessionRequest) : Option (Database × Session) :=
  (db.upsertSession sessionID
    { userID := req.userID
      walletAddress := normalizeAddress req.walletAddress
      sessionPublicKey := normalizeAddress req.sessionPublicKey
      scope := normalizeScope req.scope
      chainID := req.chainID
      vaultAddress := ""
      sessionNonce := trimSpace req.nonce
      lastOrderNonce := 0
      status := .active
      issuedAtMillis := req.issuedAtMillis
      expiresAtMillis := req.expiresAtMillis
      revokedAtMillis := 0
      createdAt := nowMillis / 1000 }).bind fun (db, session) ↦
    (db.ensureUserProfile session.userID session.walletAddress).map fun db ↦ (db, session)

/-- `SQLStore.RevokeSession`. -/
def Database.revokeSession (db : Database) (nowMillis : ℤ) (sessionID : String) : Option (Database × Session) :=
  (db.getSession sessionID).map fun session ↦
    let row := { session with status := .revoked, revokedAtMillis := nowMillis / 1000 * 1000 }
    ({ db with sessions := db.sessions.insert (trimSpace sessionID) row }, row)

/-- The errors of `AdvanceSessionNonce`. -/
inductive NonceError where
  | notFound
  | conflict
  | range

/-- `SQLStore.AdvanceSessionNonce`. -/
def Database.advanceSessionNonce (db : Database) (sessionID : String) (nonce : ℕ) :
    Except NonceError (Database × Session) :=
  if nonce > 2 ^ 63 - 1 then .error .range
  else
    match db.getSession sessionID with
    | none => .error .notFound
    | some session =>
      if session.status = .active ∧ session.lastOrderNonce < nonce then
        let row := { session with lastOrderNonce := nonce }
        .ok ({ db with sessions := db.sessions.insert (trimSpace sessionID) row }, row)
      else .error .conflict

/-! ## Trading keys -/

/-- `RegisterTradingKeyRequest`. -/
structure RegisterTradingKeyRequest where
  walletAddress : String
  chainID : ℤ
  vaultAddress : String
  challengeID : String
  challenge : String
  challengeExpiresAtMillis : ℤ
  tradingPublicKey : String
  tradingKeyScheme : String
  scope : String
  keyExpiresAtMillis : ℤ
  walletSignatureStandard : String
  walletSignature : String

/-- The errors of `RegisterTradingKey`. -/
inductive RegisterError where
  | notFound
  | challengeExpired
  | challengeConsumed
  | store

/-- `isIdempotentTradingKeyRetry`. -/
def isIdempotentTradingKeyRetry (existing : Session) (req : RegisterTradingKeyRequest) : Bool :=
  existing.status = .active && existing.walletAddress = normalizeAddress req.walletAddress &&
    existing.chainID = req.chainID && existing.vaultAddress = normalizeAddress req.vaultAddress &&
    equalFold existing.sessionPublicKey (normalizeAddress req.tradingPublicKey) &&
    equalFold existing.sessionNonce (normalizeChallengeValue req.challenge)

namespace Database

variable (db : Database)

/-- An error of `RegisterTradingKey`, or the row that the same request has written before. -/
def retryOr (sessionID : String) (req : RegisterTradingKeyRequest) (e : RegisterError) :
    Except RegisterError (Database × Session) :=
  match db.getSession sessionID with
  | none => .error e
  | some existing =>
    if isIdempotentTradingKeyRetry existing req then .ok (db, existing) else .error e

/-- Whether an active row is the key that is to be registered. -/
def isSameActive (session : Session) (nowMillis : ℤ) (req : RegisterTradingKeyRequest) : Bool :=
  session.status = .active && session.walletAddress = normalizeAddress req.walletAddress &&
    session.chainID = req.chainID && session.vaultAddress = normalizeAddress req.vaultAddress &&
    (session.expiresAtMillis = 0 || session.expiresAtMillis ≥ nowMillis) &&
    equalFold session.sessionPublicKey (normalizeAddress req.tradingPublicKey)

/-- Retire the other active keys of a wallet for a chain and a vault. -/
def rotate (sessionID : String) (nowMillis : ℤ) (req : RegisterTradingKeyRequest) : Database :=
  { db with
    sessions := db.sessions.update fun id session ↦
      if session.walletAddress = normalizeAddress req.walletAddress ∧ session.chainID = req.chainID ∧
          session.vaultAddress = normalizeAddress req.vaultAddress ∧ session.status = .active ∧
          id ≠ sessionID then
        { session with status := .rotated, revokedAtMillis := nowMillis }
      else session }

/-- The part of `RegisterTradingKey` after the challenge is consumed. -/
def authorizeTradingKey (nowMillis : ℤ) (sessionID : String) (req : RegisterTradingKeyRequest) :
    Except RegisterError (Database × Session) :=
  match db.resolveOrCreateUserID req.walletAddress with
  | none => .error .notFound
  | some (db, userID) =>
    match (db.getSession sessionID).filter (isSameActive · nowMillis req) with
    | some session => .ok (db, session)
    | none =>
      let written := ((db.rotate sessionID nowMillis req).upsertSession sessionID
        { userID := userID
          walletAddress := normalizeAddress req.walletAddress
          sessionPublicKey := normalizeAddress req.tradingPublicKey
          scope := normalizeScope req.scope
          chainID := req.chainID
          vaultAddress := normalizeAddress req.vaultAddress
          sessionNonce := normalizeChallengeValue req.challenge
          lastOrderNonce := 0
          status := .active
          issuedAtMillis := nowMillis
          expiresAtMillis := req.keyExpiresAtMillis
          revokedAtMillis := 0
          createdAt := nowMillis / 1000 }).bind fun (db, session) ↦
        (db.ensureUserProfile session.userID session.walletAddress).map fun db ↦ (db, session)
      match written with
      | none => .error .store
      | some result => .ok result

/-- `SQLStore.RegisterTradingKey`. -/
def registerTradingKey (nowMillis : ℤ) (sessionID : String) (req : RegisterTradingKeyRequest) :
    Except RegisterError (Database × Session) :=
  match db.challenges.get (trimSpace req.challengeID) with
  | none => db.retryOr sessionID req .notFound
  | some c =>
    if c.walletAddress ≠ normalizeAddress req.walletAddress ∨ c.chainID ≠ req.chainID ∨
        c.vaultAddress ≠ normalizeAddress req.vaultAddress ∨
        c.challenge ≠ normalizeChallengeValue req.challenge then .error .notFound
    else if c.expiresAt < nowMillis then db.retryOr sessionID req .challengeExpired
    else if c.consumedAt > 0 then db.retryOr sessionID req .challengeConsumed
    -- the statement that consumes the challenge finds no row
    else if c.consumedAt ≠ 0 then db.retryOr sessionID req .challengeConsumed
    else
      authorizeTradingKey
        { db with
          challenges := db.challenges.insert (trimSpace req.challengeID)
            { c with consumedAt := nowMillis } }
        nowMillis sessionID req

/-- `SQLStore.CreateTradingKeyChallenge`. A challenge is issued once for a wallet, a chain and a vault. -/
def createTradingKeyChallenge (challengeID : String) (row : Challenge) : Option Database :=
  if ∃ r ∈ db.challenges.rows, r.1 = challengeID ∨
      (r.2.walletAddress = row.walletAddress ∧ r.2.chainID = row.chainID ∧
        r.2.vaultAddress = row.vaultAddress ∧ r.2.challenge = row.challenge) then none
  else some { db with challenges := db.challenges.insert challengeID row }

end Database

/-! ## Listing sessions -/

/-- The text of a status. -/
def SessionStatus.text : SessionStatus → String
  | .active => "ACTIVE"
  | .revoked => "REVOKED"
  | .rotated => "ROTATED"

/-- `ListSessionsRequest`. -/
structure ListSessionsRequest where
  userID : ℤ
  walletAddress : String
  vaultAddress : String
  status : String
  limit : ℤ

/-- `normalizeLimit`. -/
def normalizeLimit (limit : ℤ) : ℕ :=
  if limit ≤ 0 then 50 else if limit > 200 then 200 else limit.toNat

/-- The filters of `SQLStore.ListSessions`: a field that is not set filters nothing. -/
def ListSessionsRequest.selects (req : ListSessionsRequest) (session : Session) : Bool :=
  (req.userID ≤ 0 || session.userID = req.userID) && (normalizeAddress req.walletAddress = "" ||
      session.walletAddress = normalizeAddress req.walletAddress) &&
    (normalizeAddress req.vaultAddress = "" || session.vaultAddress = normalizeAddress req.vaultAddress) &&
    (toUpper (trimSpace req.status) = "" || session.status.text = toUpper (trimSpace req.status))

/-- `SQLStore.ListSessions`: the newest rows come first. -/
def Database.listSessions (db : Database) (req : ListSessionsRequest) : List (String × Session) :=
  ((db.sessions.rows.filter fun r ↦ req.selects r.2).insertionSort fun r r' ↦
    r'.2.createdAt < r.2.createdAt ∨ (r'.2.createdAt = r.2.createdAt ∧ r'.1 ≤ r.1)).take
      (normalizeLimit req.limit)

/-! ## What the statements write -/

namespace Database

variable {db db' : Database} {sessionID : String} {session row : Session} {userID : ℤ} {wallet : String}

theorem upsertSession_spec (h : db.upsertSession sessionID session = some (db', row)) :
    row.userID = session.userID ∧ row.walletAddress = session.walletAddress ∧ db'.profiles = db.profiles ∧
      ∀ id, db'.sessions.get id = if id = sessionID then some row else db.sessions.get id := by
  rw [upsertSession] at h
  split_ifs at h with hunique
  cases hold : db.sessions.get sessionID with
  | none =>
    simp only [hold, Option.some.injEq, Prod.mk.injEq] at h
    obtain ⟨rfl, rfl⟩ := h
    exact ⟨rfl, rfl, rfl, Table.get_insert db.sessions sessionID session⟩
  | some old =>
    simp only [hold, Option.some.injEq, Prod.mk.injEq] at h
    obtain ⟨rfl, rfl⟩ := h
    exact ⟨rfl, rfl, rfl, Table.get_insert db.sessions sessionID _⟩

theorem upsertProfile_spec (h : db.upsertProfile userID wallet = some db') : db'.sessions = db.sessions ∧
      ∀ u, db'.profiles.get u = if u = userID then some wallet else db.profiles.get u := by
  rw [upsertProfile] at h
  split_ifs at h
  obtain rfl := Option.some_inj.mp h
  exact ⟨rfl, Table.get_insert db.profiles userID wallet⟩

/-- The profiles of other users are left alone. -/
theorem ensureUserProfile_spec (h : db.ensureUserProfile userID wallet = some db') :
    db'.sessions = db.sessions ∧ ∀ u, u ≠ userID → db'.profiles.get u = db.profiles.get u := by
  rw [ensureUserProfile] at h
  split_ifs at h
  · obtain rfl := Option.some_inj.mp h
    exact ⟨rfl, fun _ _ ↦ rfl⟩
  · obtain ⟨hsessions, hprofiles⟩ := upsertProfile_spec h
    exact ⟨hsessions, fun u hu ↦ by rw [hprofiles, if_neg hu]⟩

/-- A wallet is never resolved to a user with another wallet. -/
theorem resolveOrCreateUserID_spec (h : db.resolveOrCreateUserID wallet = some (db', userID)) {u : ℤ} {w : String}
    (hprofile : db.profiles.get u = some w) (hne : normalizeAddress wallet ≠ w) :
    userID ≠ u ∧ db'.profiles.get u = some w ∧ db'.sessions = db.sessions := by
  rw [resolveOrCreateUserID] at h
  split_ifs at h with hempty
  split at h
  · next r hfound =>
    simp only [Option.some.injEq, Prod.mk.injEq] at h
    obtain ⟨rfl, rfl⟩ := h
    refine ⟨?_, hprofile, rfl⟩
    -- the row that was found is in the table with another wallet
    rintro rfl
    have hwallet : r.2 = normalizeAddress wallet := by simpa using List.find?_some hfound
    have hrow : db.profiles.get r.1 = some r.2 := Table.mem_rows.mp (List.mem_of_find?_eq_some hfound)
    exact hne (hwallet.symm.trans (Option.some_inj.mp (hrow.symm.trans hprofile)))
  · simp only [Option.some.injEq, Prod.mk.injEq] at h
    obtain ⟨rfl, rfl⟩ := h
    -- a new id is larger than that of any user
    have hmem : u ∈ db.profiles.rows.map Prod.fst := List.mem_map.mpr ⟨(u, w), Table.mem_rows.mpr hprofile, rfl⟩
    have hlt : u < (db.profiles.rows.map Prod.fst).max?.getD 1000 + 1 := by
      cases hmax : (db.profiles.rows.map Prod.fst).max? with
      | none =>
        rw [List.max?_eq_none_iff.mp hmax] at hmem
        exact absurd hmem List.not_mem_nil
      | some m => exact Int.lt_add_one_of_le ((List.max?_le_iff hmax).mp le_rfl u hmem)
    refine ⟨hlt.ne', ?_, rfl⟩
    rw [Table.get_insert, if_neg hlt.ne, hprofile]

end Database

end FunnyOption.Api
