import FunnyOption.Api.Server

/-!
# Who may trade for a user

A session acts for a user if its row is active: who holds its key trades as that user. The promise is
that nobody comes to act for a user without a signature of the user's wallet.

Every statement that writes a session row takes the user of the row from somewhere. For a trading key it
is the user whose profile has the wallet that signed. For a session of `CreateSession` it is a field of
the request, which the signature does not cover: any wallet can make a session for any user, and the
profile of the user is bound to that wallet on the way. `UpdateProfile` also binds a profile to the wallet
of a session, and asks for no signature.

`Proper` excludes the two, and under it no request that is not signed by the wallet of a user adds to
those who act for the user.
-/

open Foundation

namespace FunnyOption.Api

open Auth

/-! ## Acting for a user -/

/-- Under the session `id`, the holder of `key` acts for the user `u` by the leave of `wallet`. -/
def Database.Authority (db : Database) (u : ℤ) (id wallet key : String) : Prop :=
  ∃ row, db.sessions.get id = some row ∧ row.userID = u ∧ row.status = .active ∧
    row.walletAddress = wallet ∧ row.sessionPublicKey = key

/-- Nobody comes to act for `u` from `db` to `db'`, and the wallet of `u` stays `w`. -/
structure Database.Keeps (u : ℤ) (w : String) (db db' : Database) : Prop where
  authority : ∀ id wallet key, db'.Authority u id wallet key → db.Authority u id wallet key
  profile : db.profiles.get u = some w → db'.profiles.get u = some w

namespace Database

variable {u : ℤ} {w : String} {db db' db'' : Database} {sessionID : String} {row : Session}

theorem Keeps.refl (u : ℤ) (w : String) (db : Database) : Keeps u w db db := ⟨fun _ _ _ h ↦ h, fun h ↦ h⟩

theorem Keeps.trans (h : Keeps u w db db') (h' : Keeps u w db' db'') : Keeps u w db db'' :=
  ⟨fun id wallet key hauth ↦ h.authority id wallet key (h'.authority id wallet key hauth),
    fun hprofile ↦ h'.profile (h.profile hprofile)⟩

/-- Tables with the same sessions. -/
theorem Keeps.of_sessions (hsessions : db'.sessions = db.sessions)
    (hprofile : db.profiles.get u = some w → db'.profiles.get u = some w) : Keeps u w db db' := by
  refine ⟨fun id wallet key ⟨row, hrow, hacts⟩ ↦ ⟨row, ?_, hacts⟩, hprofile⟩
  rw [← hsessions, hrow]

/-- One row is written, and if it acts for `u` it did so before. -/
theorem Keeps.of_write (hget : ∀ id, db'.sessions.get id = if id = sessionID then some row else db.sessions.get id)
    (hrow : row.userID = u → row.status = .active → db.Authority u sessionID row.walletAddress row.sessionPublicKey)
    (hprofile : db.profiles.get u = some w → db'.profiles.get u = some w) : Keeps u w db db' := by
  refine ⟨fun id wallet key ⟨r, hr, huser, hactive, hwallet, hkey⟩ ↦ ?_, hprofile⟩
  rw [hget] at hr
  split_ifs at hr with hid
  · obtain rfl := Option.some_inj.mp hr
    rw [hid, ← hwallet, ← hkey]
    exact hrow huser hactive
  · exact ⟨r, hr, huser, hactive, hwallet, hkey⟩

/-! ## The methods of the store -/

variable {session : Session} {nowMillis : ℤ}

theorem keeps_revokeSession (h : db.revokeSession nowMillis sessionID = some (db', session)) : Keeps u w db db' := by
  rw [revokeSession, Option.map_eq_some_iff] at h
  obtain ⟨old, -, h⟩ := h
  simp only [Prod.mk.injEq] at h
  obtain ⟨rfl, rfl⟩ := h
  exact .of_write (Table.get_insert _ _ _) (fun _ hactive ↦ nomatch hactive) id

theorem keeps_advanceSessionNonce {nonce : ℕ} (h : db.advanceSessionNonce sessionID nonce = .ok (db', session)) :
    Keeps u w db db' := by
  rw [advanceSessionNonce] at h
  split_ifs at h with hrange
  cases hold : db.getSession sessionID with
  | none => simp only [hold, reduceCtorEq] at h
  | some old =>
    simp only [hold] at h
    split_ifs at h with hfresh
    simp only [Except.ok.injEq, Prod.mk.injEq] at h
    obtain ⟨rfl, rfl⟩ := h
    exact .of_write (Table.get_insert _ _ _)
      (fun huser hactive ↦ ⟨old, hold, huser, hactive, rfl, rfl⟩) id

theorem keeps_upsertProfile {userID : ℤ} {wallet : String} (h : db.upsertProfile userID wallet = some db')
    (huser : userID = u → wallet = w) : Keeps u w db db' := by
  obtain ⟨hsessions, hprofiles⟩ := upsertProfile_spec h
  refine .of_sessions hsessions fun hprofile ↦ ?_
  rw [hprofiles]
  split_ifs with hu
  · rw [huser hu.symm]
  · exact hprofile

/-- A row for another user is written, and that user gets a profile. -/
theorem keeps_upsertSession (h : ((db.upsertSession sessionID session).bind fun (db, session) ↦
      (db.ensureUserProfile session.userID session.walletAddress).map fun db ↦ (db, session)) =
        some (db', row)) (huser : session.userID ≠ u) : Keeps u w db db' := by
  obtain ⟨⟨mid, written⟩, hwrite, h⟩ := Option.bind_eq_some_iff.mp h
  obtain ⟨last, hensure, h⟩ := Option.map_eq_some_iff.mp h
  simp only [Prod.mk.injEq] at h
  obtain ⟨rfl, rfl⟩ := h
  obtain ⟨hrow, -, hprofiles, hget⟩ := upsertSession_spec hwrite
  obtain ⟨hsessions, hothers⟩ := ensureUserProfile_spec hensure
  have hne : written.userID ≠ u := by rwa [hrow]
  have hmid : Keeps u w db mid := .of_write hget (fun heq ↦ absurd heq hne) fun hprofile ↦ hprofiles ▸ hprofile
  exact hmid.trans (.of_sessions hsessions fun hprofile ↦ (hothers u hne.symm).trans hprofile)

/-- A session for another user. -/
theorem keeps_createSession {req : CreateSessionRequest}
    (h : db.createSession nowMillis sessionID req = some (db', row)) (huser : req.userID ≠ u) : Keeps u w db db' :=
  keeps_upsertSession h huser

/-- A session is not created for the wallet of another user. -/
theorem createSession_eq_none {req : CreateSessionRequest} (huser : 0 < req.userID)
    (hwallet : trimSpace (normalizeAddress req.walletAddress) ≠ "")
    (hother : ∃ r ∈ db.profiles.rows, r.1 ≠ req.userID ∧
      r.2 = normalizeAddress (normalizeAddress req.walletAddress)) :
    db.createSession nowMillis sessionID req = none := by
  rw [createSession, Option.bind_eq_none_iff]
  rintro ⟨mid, row⟩ hwrite
  obtain ⟨hrow, hrowWallet, hprofiles, -⟩ := upsertSession_spec hwrite
  have hguard : ¬ (row.userID ≤ 0 ∨ trimSpace row.walletAddress = "") := by
    rw [hrow, hrowWallet]
    exact not_or.mpr ⟨not_le.mpr huser, hwallet⟩
  rw [Option.map_eq_none_iff, ensureUserProfile, if_neg hguard, upsertProfile, hprofiles, hrow,
    hrowWallet, if_pos hother]

variable {req : RegisterTradingKeyRequest}

theorem keeps_retryOr {e : RegisterError} (h : db.retryOr sessionID req e = .ok (db', session)) :
    Keeps u w db db' := by
  rw [retryOr] at h
  cases hold : db.getSession sessionID with
  | none => simp only [hold, reduceCtorEq] at h
  | some old =>
    simp only [hold] at h
    split_ifs at h
    simp only [Except.ok.injEq, Prod.mk.injEq] at h
    rw [← h.1]
    exact .refl u w db

theorem keeps_rotate (nowMillis : ℤ) (req : RegisterTradingKeyRequest) :
    Keeps u w db (db.rotate sessionID nowMillis req) := by
  refine ⟨fun id wallet key ⟨row, hrow, huser, hactive, hwallet, hkey⟩ ↦ ?_, fun h ↦ h⟩
  rw [rotate, Table.get_update, Option.map_eq_some_iff] at hrow
  obtain ⟨old, hold, hrow⟩ := hrow
  split_ifs at hrow
  · rw [← hrow] at hactive
    exact nomatch hactive
  · exact ⟨old, hold, hrow ▸ huser, hrow ▸ hactive, hrow ▸ hwallet, hrow ▸ hkey⟩

/-- A trading key of another wallet. -/
theorem keeps_authorizeTradingKey (h : db.authorizeTradingKey nowMillis sessionID req = .ok (db', session))
    (hprofile : db.profiles.get u = some w) (hne : normalizeAddress req.walletAddress ≠ w) : Keeps u w db db' := by
  rw [authorizeTradingKey] at h
  cases hresolve : db.resolveOrCreateUserID req.walletAddress with
  | none => simp only [hresolve, reduceCtorEq] at h
  | some found =>
    obtain ⟨mid, userID⟩ := found
    obtain ⟨huser, hmid, hsessions⟩ := resolveOrCreateUserID_spec hresolve hprofile hne
    have hkeep : Keeps u w db mid := .of_sessions hsessions fun _ ↦ hmid
    simp only [hresolve] at h
    split at h
    · simp only [Except.ok.injEq, Prod.mk.injEq] at h
      exact h.1 ▸ hkeep
    · split at h
      · exact nomatch h
      · next result hwritten =>
        obtain rfl := Except.ok.inj h
        exact (hkeep.trans (keeps_rotate nowMillis req)).trans (keeps_upsertSession hwritten huser)

theorem keeps_registerTradingKey (h : db.registerTradingKey nowMillis sessionID req = .ok (db', session))
    (hprofile : db.profiles.get u = some w) (hne : normalizeAddress req.walletAddress ≠ w) : Keeps u w db db' := by
  rw [registerTradingKey] at h
  cases hchallenge : db.challenges.get (trimSpace req.challengeID) with
  | none =>
    simp only [hchallenge] at h
    exact keeps_retryOr h
  | some c =>
    simp only [hchallenge] at h
    split_ifs at h
    · exact keeps_retryOr h
    · exact keeps_retryOr h
    · exact keeps_retryOr h
    · have hconsume : Keeps u w db { db with
          challenges := db.challenges.insert (trimSpace req.challengeID)
            { c with consumedAt := nowMillis } } := .of_sessions rfl fun hp ↦ hp
      exact hconsume.trans (keeps_authorizeTradingKey h hprofile hne)

end Database

/-! ## Requests -/

/-- What is asked of the requests for the user `u` with the wallet `w`. A session that names `u` is made
for a wallet that another user has, which the store refuses; the profile of `u` is updated under a
session of `w`. -/
def Request.Proper (u : ℤ) (w : String) (db : Database) : Request → Prop
  | .createSession req => req.userID = u → ∃ r ∈ db.profiles.rows, r.1 ≠ u ∧ r.2 = req.grant.normalize.walletAddress
  | .updateProfile req => req.userID = u →
    ∀ session ∈ db.getSession req.sessionID, normalizeAddress session.walletAddress = w
  | _ => True

instance Request.Proper.decidable (u : ℤ) (w : String) (db : Database) : ∀ r : Request, Decidable (r.Proper u w db)
  | .createSession req => inferInstanceAs (Decidable (req.userID = u →
    ∃ r ∈ db.profiles.rows, r.1 ≠ u ∧ r.2 = req.grant.normalize.walletAddress))
  | .updateProfile req => inferInstanceAs (Decidable (req.userID = u →
    ∀ session ∈ db.getSession req.sessionID, normalizeAddress session.walletAddress = w))
  | .createTradingKeyChallenge .. | .registerTradingKey _ | .revokeSession _ | .createOrder _
  | .listSessions _ | .withdraw .. => .isTrue trivial

section Handlers

open Database

variable {config : Config} {nowMillis u : ℤ} {w : String} {db : Database}

theorem keeps_createSession (req : CreateSessionRequest) (hproper : (Request.createSession req).Proper u w db) :
    Keeps u w db (createSession config nowMillis db req).1 := by
  rcases createSession_cases req with heq | ⟨huser, hvalid, -, session, hwritten⟩
  · rw [heq]
    exact .refl u w db
  refine Database.keeps_createSession hwritten fun hu ↦ ?_
  rw [CreateSessionRequest.userID_normalized] at hu
  -- the store refuses the wallet of another user
  have hnormal : normalizeAddress req.normalized.walletAddress =
      req.grant.normalize.walletAddress := normalizeAddress_normalizeAddress req.walletAddress
  have hwallet : trimSpace (normalizeAddress req.normalized.walletAddress) ≠ "" := by
    rw [SessionGrant.validate] at hvalid
    rw [trimSpace_normalizeAddress, hnormal]
    intro hempty
    rw [if_pos hempty] at hvalid
    exact nomatch hvalid
  have hother : ∃ r ∈ db.profiles.rows, r.1 ≠ req.normalized.userID ∧
      r.2 = normalizeAddress (normalizeAddress req.normalized.walletAddress) := by
    rw [normalizeAddress_normalizeAddress, hnormal, CreateSessionRequest.userID_normalized]
    obtain ⟨r, hr, hne, hwallet⟩ := hproper hu
    exact ⟨r, hr, fun h ↦ hne (h.trans hu), hwallet⟩
  have hpos : 0 < req.normalized.userID := by rwa [CreateSessionRequest.userID_normalized]
  rw [createSession_eq_none hpos hwallet hother] at hwritten
  exact Option.some_ne_none _ hwritten.symm

theorem keeps_registerTradingKey (req : RegisterTradingKeyRequest) (hprofile : db.profiles.get u = some w)
    (hunsigned : ¬ (Request.registerTradingKey req).SignedBy config.crypto w) :
    Keeps u w db (registerTradingKey config nowMillis db req).1 := by
  rcases registerTradingKey_cases req with heq | ⟨hverified, session, hwritten⟩
  · rw [heq]
    exact .refl u w db
  refine Database.keeps_registerTradingKey hwritten hprofile fun hwallet ↦ hunsigned ?_
  -- the wallet of the request has signed it
  have hnormal : normalizeAddress req.normalized.walletAddress =
      req.authorization.normalize.walletAddress := normalizeAddress_normalizeAddress req.walletAddress
  rw [hnormal] at hwallet
  exact hwallet ▸ TradingKeyAuthorization.signer_of_verifySignature hverified

/-- **One request.** -/
theorem keeps_handle (r : Request) (hprofile : db.profiles.get u = some w) (hunsigned : r.Unsigned config.crypto w)
    (hproper : r.Proper u w db) : Keeps u w db (handle config nowMillis db r).1 := by
  cases r with
  | createTradingKeyChallenge walletAddress vaultAddress chainID challengeID challenge =>
    rw [handle, createTradingKeyChallenge]
    split
    · exact .refl u w db
    split
    · exact .refl u w db
    split
    · exact .refl u w db
    split
    · exact .refl u w db
    next written hwritten =>
    rw [Database.createTradingKeyChallenge] at hwritten
    split_ifs at hwritten
    obtain rfl := Option.some_inj.mp hwritten
    exact .of_sessions rfl id
  | registerTradingKey req =>
    rw [handle]
    exact keeps_registerTradingKey req hprofile hunsigned.1
  | createSession req =>
    rw [handle]
    exact keeps_createSession req hproper
  | revokeSession sessionID =>
    rw [handle]
    rcases revokeSession_cases sessionID with heq | ⟨session, hwritten⟩
    · rw [heq]
      exact .refl u w db
    · exact keeps_revokeSession hwritten
  | updateProfile req =>
    rw [handle]
    rcases updateProfile_cases req with heq | ⟨session, hsession, hwritten⟩
    · rw [heq]
      exact .refl u w db
    · exact keeps_upsertProfile hwritten fun hu ↦ hproper hu session hsession
  | createOrder req =>
    rw [handle]
    rcases createOrder_cases req (Option.not_isSome_iff_eq_none.mp hunsigned.2) with
      ⟨heq, -⟩ | ⟨session, row, -, -, hwritten, -⟩
    · rw [heq]
      exact .refl u w db
    · exact keeps_advanceSessionNonce hwritten
  | listSessions req => exact .refl u w db
  | withdraw header query call =>
    rw [handle]
    split <;> exact .refl u w db

/-- An order is accepted under a session that acts for its user. -/
theorem authority_of_acceptance {r : Request} (hunsigned : r.Unsigned config.crypto w) {id : String}
    (h : (u, id) ∈ acceptance r (handle config nowMillis db r).2) : ∃ wallet key, db.Authority u id wallet key := by
  cases r with
  | createOrder req =>
    have hoperator : req.operator = none := Option.not_isSome_iff_eq_none.mp hunsigned.2
    cases hresponse : (createOrder config nowMillis db req).2 with
    | queued userID =>
      rw [handle, hresponse, acceptance, List.mem_singleton, Prod.mk.injEq] at h
      obtain ⟨rfl, rfl⟩ := h
      rcases createOrder_cases req hoperator with ⟨-, hnot⟩ | ⟨session, row, hsession, hactive, -, huser⟩
      · exact absurd hresponse (hnot u)
      · exact ⟨_, _, session, hsession, huser u hresponse, hactive, rfl, rfl⟩
    | _ =>
      rw [handle, hresponse] at h
      exact absurd h List.not_mem_nil
  | _ => exact absurd h List.not_mem_nil

end Handlers

/-! ## Runs -/

/-- Nobody has come to act for `u` since `db`. -/
structure Server.Guarded (u : ℤ) (w : String) (db : Database) (s : Server) : Prop where
  keeps : db.Keeps u w s.db
  profile : s.db.profiles.get u = some w
  accepted : ∀ id, (u, id) ∈ s.accepted → ∃ wallet key, db.Authority u id wallet key

theorem Server.Guarded.step {config : Config} {u : ℤ} {w : String} {db : Database} {s s' : Server} {e : Event}
    (h : s.Guarded u w db) (hstep : s.step config e = some s') (hunsigned : e.request.Unsigned config.crypto w)
    (hproper : e.request.Proper u w s.db) : s'.Guarded u w db := by
  obtain rfl := Option.some_inj.mp hstep
  have hkeeps : s.db.Keeps u w (handle config e.nowMillis s.db e.request).1 :=
    keeps_handle e.request h.profile hunsigned hproper
  refine ⟨h.keeps.trans hkeeps, hkeeps.profile h.profile, fun id hid ↦ ?_⟩
  rcases List.mem_append.mp hid with hid | hid
  · exact h.accepted id hid
  · obtain ⟨wallet, key, hauth⟩ := authority_of_acceptance hunsigned hid
    exact ⟨wallet, key, h.keeps.authority id wallet key hauth⟩

theorem guarded_of_visits {config : Config} {u : ℤ} {w : String} {db : Database}
    (hprofile : db.profiles.get u = some w) {events : List Event}
    (hunsigned : ∀ e ∈ events, e.request.Unsigned config.crypto w)
    (hproper : ∀ s e s', Takes (Server.step config) (Server.start db) events s e s' → e.request.Proper u w s.db) :
    ∀ s, Visits (Server.step config) (Server.start db) events s → s.Guarded u w db := by
  refine visits_induction ⟨.refl u w db, hprofile, fun _ h ↦ absurd h List.not_mem_nil⟩ ?_
  intro s e s' htake hs
  exact hs.step htake.step_eq (hunsigned e htake.mem) (hproper s e s' htake)

/-- **Trading authority.** Whatever is requested without a signature of the wallet of `u` and without an
operator proof, if the requests are proper then who acts for `u` did so at the start, orders for `u` are
accepted only under sessions that acted for `u` at the start, and the wallet of `u` is the same. -/
theorem authority_unchanged (config : Config) (u : ℤ) (w : String) (db : Database)
    (hprofile : db.profiles.get u = some w) (events : List Event)
    (hunsigned : ∀ e ∈ events, e.request.Unsigned config.crypto w)
    (hproper : ∀ s e s', Takes (Server.step config) (Server.start db) events s e s' → e.request.Proper u w s.db) :
    ∀ s, Visits (Server.step config) (Server.start db) events s →
      (∀ id wallet key, s.db.Authority u id wallet key → db.Authority u id wallet key) ∧
        (∀ id, (u, id) ∈ s.accepted → ∃ wallet key, db.Authority u id wallet key) ∧
        s.db.profiles.get u = some w := by
  intro s hvisit
  have hguarded := guarded_of_visits hprofile hunsigned hproper s hvisit
  exact ⟨hguarded.keeps.authority, hguarded.accepted, hguarded.profile⟩

section Samples

/-- Cryptography in which a signature by a wallet is the address of the wallet, and one with a session
key is the key written twice. -/
def sampleConfig : Config where
  crypto :=
    { sha256 := fun text ↦ text.toList.map fun c ↦ UInt8.ofNat c.toNat
      recoverPersonalSign := fun _ signature ↦ .ok signature
      recoverTypedData := fun _ signature ↦ .ok signature
      verifyEd25519 := fun publicKey _ signature ↦ signature = publicKey ++ publicKey }
  expectedChainID := 97

/-- The wallet of user `7`. -/
def sampleWallet : String := "0xa1"

/-- The wallet of user `8`. -/
def otherWallet : String := "0xb2"

/-- A wallet without a profile. -/
def strangerWallet : String := "0xc3"

/-- Tables with two users and no session. -/
def sampleDatabase : Database where
  sessions := .empty
  profiles := (Table.empty.insert 7 sampleWallet).insert 8 otherWallet
  challenges := .empty

/-- A session for a user that is signed by a wallet. -/
def sampleGrant (userID : ℤ) (wallet : String) : Event where
  nowMillis := 2000
  request := .createSession
    { userID := userID
      walletAddress := wallet
      sessionPublicKey := "0x" ++ String.ofList (List.replicate 64 '4')
      scope := "TRADE"
      chainID := 97
      nonce := "n"
      issuedAtMillis := 1000
      expiresAtMillis := 9000
      walletSignature := wallet }

/-- The id of the session that the stranger signs. -/
def sampleSessionID : String := "sess_307863333a3078343434343434343434"

/-- An order under a session. -/
def sampleOrder (sessionID : String) : Event where
  nowMillis := 3000
  request := .createOrder
    { userID := 0
      sessionID := sessionID
      sessionSignature := "0x" ++ String.ofList (List.replicate 128 '4')
      operator := none
      orderNonce := 1
      requestedAtMillis := 2500
      marketID := 1
      outcome := "YES"
      side := "BUY"
      type := "LIMIT"
      timeInForce := "GTC"
      price := 60
      quantity := 10
      clientOrderID := ""
      serviceError := none }

/-- The table of sessions with one more row, for user `7`. -/
def sampleSession (sessionID wallet : String) : Table String Session := Table.empty.insert sessionID
    { userID := 7
      walletAddress := wallet
      sessionPublicKey := "0x" ++ String.ofList (List.replicate 64 '4')
      scope := "TRADE"
      chainID := 97
      vaultAddress := ""
      sessionNonce := "n"
      lastOrderNonce := 0
      status := .active
      issuedAtMillis := 1000
      expiresAtMillis := 9000
      revokedAtMillis := 0
      createdAt := 1 }

/-- Requests for user `8`, and one for user `7` with the wallet of user `8`. -/
def otherUsers : List Event := [sampleGrant 8 otherWallet, sampleGrant 7 otherWallet]

theorem authority_unchanged_otherUser :
    Along (Server.step sampleConfig) (fun s e ↦ e.request.Proper 7 sampleWallet s.db) (Server.start sampleDatabase)
        otherUsers ∧
      ∀ s, Visits (Server.step sampleConfig) (Server.start sampleDatabase) otherUsers s →
        (∀ id wallet key, s.db.Authority 7 id wallet key → sampleDatabase.Authority 7 id wallet key) ∧
          (∀ id, (7, id) ∈ s.accepted → ∃ wallet key, sampleDatabase.Authority 7 id wallet key) ∧
          s.db.profiles.get 7 = some sampleWallet := by
  have hproper : Along (Server.step sampleConfig) (fun s e ↦ e.request.Proper 7 sampleWallet s.db)
      (Server.start sampleDatabase) otherUsers := by
    decide +kernel
  refine ⟨hproper, authority_unchanged sampleConfig 7 sampleWallet sampleDatabase (by decide) _ ?_
    fun s e s' htake ↦ hproper.of_takes htake⟩
  intro e he
  rcases List.mem_pair.mp he with rfl | rfl
  · exact ⟨by simp [Request.SignedBy, sampleGrant, sampleConfig, otherWallet, sampleWallet], id⟩
  · exact ⟨by simp [Request.SignedBy, sampleGrant, sampleConfig, otherWallet, sampleWallet], id⟩

/-- A stranger signs a session for user `7` and trades as user `7`, whose wallet becomes that of the
stranger. With an active session of an earlier wallet of user `7`, its id is enough to give the user
that wallet again. -/
theorem authority_taken : (∃ s, Visits (Server.step sampleConfig) (Server.start sampleDatabase)
        [sampleGrant 7 strangerWallet, sampleOrder sampleSessionID] s ∧
      sampleDatabase.profiles.get 7 = some sampleWallet ∧
      (∀ e ∈ [sampleGrant 7 strangerWallet, sampleOrder sampleSessionID],
        e.request.Unsigned sampleConfig.crypto sampleWallet) ∧
      sampleDatabase.sessions.get sampleSessionID = none ∧
      (∃ key, s.db.Authority 7 sampleSessionID strangerWallet key) ∧
      (7, sampleSessionID) ∈ s.accepted ∧ s.db.profiles.get 7 = some strangerWallet) ∧
    ∃ s, Visits (Server.step sampleConfig)
        (Server.start { sampleDatabase with sessions := sampleSession "sess_old" strangerWallet })
        [⟨2000, .updateProfile ⟨7, "sess_old", "aurora"⟩⟩] s ∧
      s.db.profiles.get 7 = some strangerWallet := by
  have hunsigned : ∀ e ∈ [sampleGrant 7 strangerWallet, sampleOrder sampleSessionID],
      e.request.Unsigned sampleConfig.crypto sampleWallet := by
    intro e he
    rcases List.mem_pair.mp he with rfl | rfl
    · exact ⟨by simp [Request.SignedBy, sampleGrant, sampleConfig, strangerWallet, sampleWallet], id⟩
    · exact ⟨id, by simp [Request.HasOperatorProof, sampleOrder]⟩
  constructor
  · obtain ⟨s, hs, haccepted, hprofile, row, hrow, huser, hactive, hwallet⟩ :
        ∃ s ∈ exec (Server.step sampleConfig) (Server.start sampleDatabase)
          [sampleGrant 7 strangerWallet, sampleOrder sampleSessionID], (7, sampleSessionID) ∈ s.accepted ∧
        s.db.profiles.get 7 = some strangerWallet ∧ ∃ row ∈ s.db.sessions.get sampleSessionID, row.userID = 7 ∧
          row.status = .active ∧ row.walletAddress = strangerWallet := by
      decide +kernel
    exact ⟨s, visits_of_exec hs, by decide, hunsigned, by decide,
      ⟨row.sessionPublicKey, row, hrow, huser, hactive, hwallet, rfl⟩, haccepted, hprofile⟩
  · obtain ⟨s, hs, hprofile⟩ : ∃ s ∈ exec (Server.step sampleConfig)
        (Server.start { sampleDatabase with sessions := sampleSession "sess_old" strangerWallet })
        [⟨2000, .updateProfile ⟨7, "sess_old", "aurora"⟩⟩], s.db.profiles.get 7 = some strangerWallet := by
      decide
    exact ⟨s, visits_of_exec hs, hprofile⟩

end Samples

end FunnyOption.Api
