import FunnyOption.Api.Store

/-!
# The handlers of sessions, trading keys, profiles and orders

The requests of `OrderHandler` that decide who may act for a user, over the tables of the store. A handler
returns the new tables and a response. The checks are made in the order of the source, and each error has
its status and its text.

What the JSON binding and the limits of a route refuse is left out. How an operator proof is checked and
what the order service does is not modelled here: their answers are given with the request.
-/

open Foundation

namespace FunnyOption.Api

open Auth

/-- What a handler answers. -/
inductive Response where
  | error (status : ℕ) (text : String)
  | challenge (challengeID challenge : String)
  | session (sessionID : String) (session : Session)
  | sessions (items : List (String × Session))
  | profile (userID : ℤ) (walletAddress : String)
  /-- An order was accepted for a user. -/
  | queued (userID : ℤ)
  /-- `RequestWithdraw` is executed as a user. -/
  | withdrawing (userID : ℤ)

/-- The configuration of the handlers. -/
structure Config where
  crypto : Crypto
  expectedChainID : ℤ

namespace CreateSessionRequest

/-- The grant of a request. The user of the request is no part of it. -/
def grant (req : CreateSessionRequest) : SessionGrant :=
  ⟨req.walletAddress, req.sessionPublicKey, req.scope, req.chainID, req.nonce, req.issuedAtMillis,
    req.expiresAtMillis⟩

/-- The request with the normalised fields of its grant. -/
def normalized (req : CreateSessionRequest) : CreateSessionRequest :=
  { req with
    walletAddress := req.grant.normalize.walletAddress
    sessionPublicKey := req.grant.normalize.sessionPublicKey
    scope := req.grant.normalize.scope
    nonce := req.grant.normalize.nonce }

theorem userID_normalized (req : CreateSessionRequest) : req.normalized.userID = req.userID := by
  rw [normalized]

end CreateSessionRequest

namespace RegisterTradingKeyRequest

/-- The authorization of a request. -/
def authorization (req : RegisterTradingKeyRequest) : TradingKeyAuthorization :=
  ⟨req.walletAddress, req.tradingPublicKey, req.tradingKeyScheme, req.scope, req.challenge,
    req.challengeExpiresAtMillis, req.keyExpiresAtMillis, req.chainID, req.vaultAddress⟩

/-- The request with the normalised fields of its authorization. -/
def normalized (req : RegisterTradingKeyRequest) : RegisterTradingKeyRequest :=
  { req with
    walletAddress := req.authorization.normalize.walletAddress
    vaultAddress := req.authorization.normalize.vaultAddress
    tradingPublicKey := req.authorization.normalize.tradingPublicKey
    tradingKeyScheme := req.authorization.normalize.tradingKeyScheme
    scope := req.authorization.normalize.scope
    challenge := req.authorization.normalize.challenge
    walletSignatureStandard := "EIP712_V4" }

end RegisterTradingKeyRequest

/-- `UpdateUserProfileRequest`. -/
structure UpdateProfileRequest where
  userID : ℤ
  sessionID : String
  avatarPreset : String

/-- `allowedAvatarPresets`. -/
def allowedAvatarPresets : List String := ["aurora", "ember", "ocean", "violet", "mono", "forest"]

/-- An operator proof, with what is answered after it is checked. -/
structure OperatorAction where
  requestedAt : ℤ
  /-- The error of `requirePrivilegedOperator` or of the check for a replay. -/
  refusal : Option (ℕ × String)

/-- `CreateOrderRequest`, with the answer of the order service. -/
structure CreateOrderRequest where
  userID : ℤ
  sessionID : String
  sessionSignature : String
  operator : Option OperatorAction
  orderNonce : ℕ
  requestedAtMillis : ℤ
  marketID : ℤ
  outcome : String
  side : String
  type : String
  timeInForce : String
  price : ℤ
  quantity : ℤ
  clientOrderID : String
  /-- The error with which `SubmitOrder` fails, as it is answered. -/
  serviceError : Option (ℕ × String)

/-- The intent that the signature of an order is checked for. A market order is one to fill at once at
any price. -/
def CreateOrderRequest.intent (req : CreateOrderRequest) (session : Session) : OrderIntent :=
  let orderType := toUpper (trimSpace req.type)
  { sessionID := trimSpace req.sessionID
    walletAddress := session.walletAddress
    userID := session.userID
    marketID := req.marketID
    outcome := toUpper (trimSpace req.outcome)
    side := toUpper (trimSpace req.side)
    orderType := orderType
    timeInForce := if orderType = "MARKET" then "IOC" else toUpper (trimSpace req.timeInForce)
    price := if orderType = "MARKET" then 100 else req.price
    quantity := req.quantity
    clientOrderID := trimSpace req.clientOrderID
    nonce := req.orderNonce
    requestedAtMillis := req.requestedAtMillis }

variable (config : Config) (nowMillis : ℤ) (db : Database)

/-- `CreateTradingKeyChallenge`, with the id and the challenge that are made up. A challenge is good for
five minutes. -/
def createTradingKeyChallenge (walletAddress vaultAddress : String) (chainID : ℤ)
    (challengeID : String) (challenge : List UInt8) : Database × Response :=
  if config.expectedChainID ≤ 0 then (db, .error 500 "trading key auth is not configured")
  else if !isHexAddress (normalizeHex walletAddress) then
    (db, .error 400 "wallet_address is invalid")
  else if chainID ≠ config.expectedChainID then
    (db, .error 400 "chain_id does not match target chain")
  else
    match db.createTradingKeyChallenge (trimSpace challengeID)
        { walletAddress := normalizeAddress (normalizeHex walletAddress)
          chainID := chainID
          vaultAddress := normalizeAddress (normalizeHex vaultAddress)
          challenge := normalizeChallengeValue ("0x" ++ encodeHex challenge)
          expiresAt := nowMillis + 300000
          consumedAt := 0 } with
    | none => (db, .error 502 "create trading key challenge failed")
    | some db => (db, .challenge (trimSpace challengeID) ("0x" ++ encodeHex challenge))

/-- `RegisterTradingKey`. -/
def registerTradingKey (req : RegisterTradingKeyRequest) : Database × Response :=
  if config.expectedChainID ≤ 0 then (db, .error 500 "trading key auth is not configured")
  else if toUpper (trimSpace req.walletSignatureStandard) ≠ "EIP712_V4" then
    (db, .error 400 "wallet_signature_standard must be EIP712_V4")
  else
    match req.authorization.validate nowMillis with
    | some e => (db, .error 400 e)
    | none =>
      if req.authorization.normalize.chainID ≠ config.expectedChainID then
        (db, .error 400 "chain_id does not match target chain")
      else
        match req.authorization.verifySignature config.crypto req.walletSignature with
        | some e => (db, .error 400 e)
        | none =>
          let sessionID := req.authorization.tradingKeyID config.crypto
          match db.registerTradingKey nowMillis sessionID req.normalized with
          | .error .challengeConsumed => (db, .error 409 "trading key challenge already used")
          | .error .challengeExpired => (db, .error 410 "trading key challenge expired")
          | .error .notFound => (db, .error 400 "trading key challenge is invalid")
          | .error .store => (db, .error 502 "register trading key failed")
          | .ok (db, session) => (db, .session sessionID session)

/-- `CreateSession`. -/
def createSession (req : CreateSessionRequest) : Database × Response :=
  if req.userID ≤ 0 then (db, .error 400 "user_id must be positive")
  else
    match req.grant.validate nowMillis with
    | some e => (db, .error 400 e)
    | none =>
      match req.grant.verifySignature config.crypto req.walletSignature with
      | some e => (db, .error 400 e)
      | none =>
        let sessionID := req.grant.sessionID config.crypto
        match db.createSession nowMillis sessionID req.normalized with
        | none => (db, .error 502 "create session failed")
        | some (db, session) => (db, .session sessionID session)

/-- `RevokeSession`. Nothing is asked of the caller. -/
def revokeSession (sessionID : String) : Database × Response :=
  if trimSpace sessionID = "" then (db, .error 400 "session_id is required")
  else
    match db.revokeSession nowMillis (trimSpace sessionID) with
    | none => (db, .error 404 "session not found")
    | some (db, session) => (db, .session (trimSpace sessionID) session)

/-- `UpdateProfile`. The wallet of the profile becomes that of the session. -/
def updateProfile (req : UpdateProfileRequest) : Database × Response :=
  if toLower (trimSpace req.avatarPreset) ∉ allowedAvatarPresets then
    (db, .error 400 "avatar_preset is invalid")
  else
    match db.getSession req.sessionID with
    | none => (db, .error 401 "active session is required")
    | some session =>
      if session.userID ≠ req.userID ∨ session.status ≠ .active then
        (db, .error 401 "active session is required")
      else if session.expiresAtMillis > 0 ∧ session.expiresAtMillis < nowMillis then
        (db, .error 401 "session is expired")
      else
        match db.upsertProfile req.userID (normalizeAddress session.walletAddress) with
        | none => (db, .error 502 "profile update failed")
        | some db => (db, .profile req.userID (normalizeAddress session.walletAddress))

/-- The end of `CreateOrder`: the order goes to the order service. -/
def submitOrder (userID : ℤ) (req : CreateOrderRequest) : Database × Response :=
  if userID ≤ 0 then (db, .error 400 "user_id or trading key id is required")
  else
    match req.serviceError with
    | some (status, text) => (db, .error status text)
    | none => (db, .queued userID)

/-- The part of `CreateOrder` for an order that is signed with the key of a session. -/
def createSessionOrder (req : CreateOrderRequest) : Database × Response :=
  if req.requestedAtMillis ≤ 0 then
    (db, .error 400 "requested_at is required for trading-key orders")
  else
    match db.getSession req.sessionID with
    | none => (db, .error 404 "trading key not found")
    | some session =>
      if session.status ≠ .active then (db, .error 409 "trading key is not active")
      else if session.expiresAtMillis > 0 ∧ nowMillis > session.expiresAtMillis then
        (db, .error 409 "trading key expired")
      else if req.userID > 0 ∧ req.userID ≠ session.userID then
        (db, .error 400 "user_id does not match trading key")
      else
        match (req.intent session).validate nowMillis with
        | some e => (db, .error 400 e)
        | none =>
          match (req.intent session).verifySignature config.crypto session.sessionPublicKey
              req.sessionSignature with
          | some e => (db, .error 400 e)
          | none =>
            match db.advanceSessionNonce (trimSpace req.sessionID) req.orderNonce with
            | .error .conflict => (db, .error 409 "trading key nonce conflict")
            | .error .notFound => (db, .error 404 "trading key not found")
            | .error .range => (db, .error 502 "advance trading key nonce failed")
            | .ok (db, _) => submitOrder db session.userID req

/-- The part of `CreateOrder` for an order with an operator proof. -/
def createOperatorOrder (operator : OperatorAction) (req : CreateOrderRequest) : Database × Response :=
  if req.userID ≤ 0 then
    (db, .error 400 "user_id is required for operator-authenticated bootstrap orders")
  else if toUpper (trimSpace req.side) ≠ "SELL" ∨ toUpper (trimSpace req.type) ≠ "LIMIT" ∨
      toUpper (trimSpace req.timeInForce) ≠ "GTC" then
    (db, .error 400 "operator-authenticated orders only support bootstrap sell limit GTC orders")
  else if req.requestedAtMillis > 0 ∧ req.requestedAtMillis ≠ operator.requestedAt then
    (db, .error 400 "requested_at must match operator.requested_at")
  else
    match operator.refusal with
    | some (status, text) => (db, .error status text)
    | none => submitOrder db req.userID req

/-- `CreateOrder`. -/
def createOrder (req : CreateOrderRequest) : Database × Response :=
  if req.marketID ≤ 0 ∨ req.quantity ≤ 0 then
    (db, .error 400 "market_id and quantity must be positive")
  else if toUpper (trimSpace req.type) ∉ ["LIMIT", "MARKET"] then
    (db, .error 400 "order type must be LIMIT or MARKET")
  else if trimSpace req.sessionID ≠ "" then createSessionOrder config nowMillis db req
  else
    match req.operator with
    | some operator => createOperatorOrder db operator req
    | none => (db, .error 401 "trading-key-backed trade authorization or operator proof is required")

/-! ## What the handlers write

A handler leaves the tables alone, or every check has passed and it stores what its store method wrote. -/

variable {config nowMillis db}

theorem createSession_cases (req : CreateSessionRequest) : (createSession config nowMillis db req).1 = db ∨
      0 < req.userID ∧ req.grant.validate nowMillis = none ∧
        req.grant.verifySignature config.crypto req.walletSignature = none ∧
        ∃ session, db.createSession nowMillis (req.grant.sessionID config.crypto) req.normalized =
          some ((createSession config nowMillis db req).1, session) := by
  rw [createSession]
  split
  · exact .inl rfl
  next huser =>
  split
  · exact .inl rfl
  next hvalid =>
  split
  · exact .inl rfl
  next hverified =>
  dsimp only
  split
  · exact .inl rfl
  next written session hwritten => exact .inr ⟨not_le.mp huser, hvalid, hverified, session, hwritten⟩

theorem registerTradingKey_cases (req : RegisterTradingKeyRequest) :
    (registerTradingKey config nowMillis db req).1 = db ∨
      req.authorization.verifySignature config.crypto req.walletSignature = none ∧
        ∃ session, db.registerTradingKey nowMillis (req.authorization.tradingKeyID config.crypto)
          req.normalized = .ok ((registerTradingKey config nowMillis db req).1, session) := by
  rw [registerTradingKey]
  iterate 4
    split
    · exact .inl rfl
  split
  · exact .inl rfl
  next hverified =>
  dsimp only
  split
  iterate 4 · exact .inl rfl
  next written session hwritten => exact .inr ⟨hverified, session, hwritten⟩

theorem revokeSession_cases (sessionID : String) : (revokeSession nowMillis db sessionID).1 = db ∨
      ∃ session, db.revokeSession nowMillis (trimSpace sessionID) =
        some ((revokeSession nowMillis db sessionID).1, session) := by
  rw [revokeSession]
  split
  · exact .inl rfl
  split
  · exact .inl rfl
  next written session hwritten => exact .inr ⟨session, hwritten⟩

theorem updateProfile_cases (req : UpdateProfileRequest) : (updateProfile nowMillis db req).1 = db ∨
      ∃ session, db.getSession req.sessionID = some session ∧
        db.upsertProfile req.userID (normalizeAddress session.walletAddress) =
          some (updateProfile nowMillis db req).1 := by
  rw [updateProfile]
  split
  · exact .inl rfl
  split
  · exact .inl rfl
  next session hsession =>
  split
  · exact .inl rfl
  split
  · exact .inl rfl
  split
  · exact .inl rfl
  next written hwritten => exact .inr ⟨session, hsession, hwritten⟩

theorem submitOrder_fst (userID : ℤ) (req : CreateOrderRequest) : (submitOrder db userID req).1 = db := by
  rw [submitOrder]
  split
  · rfl
  · split <;> rfl

/-- An order is accepted for the user it is submitted for. -/
theorem eq_of_submitOrder {userID v : ℤ} {req : CreateOrderRequest} (h : (submitOrder db userID req).2 = .queued v) :
    userID = v := by
  rw [submitOrder] at h
  split at h
  · exact nomatch h
  split at h
  · exact nomatch h
  · exact Response.queued.inj h

/-- An order without an operator proof leaves the tables alone, or it uses a nonce of an active session
and is submitted for the user of that session. -/
theorem createOrder_cases (req : CreateOrderRequest) (hoperator : req.operator = none) :
    ((createOrder config nowMillis db req).1 = db ∧
      ∀ userID, (createOrder config nowMillis db req).2 ≠ .queued userID) ∨
      ∃ session row, db.getSession req.sessionID = some session ∧ session.status = .active ∧
        db.advanceSessionNonce (trimSpace req.sessionID) req.orderNonce =
          .ok ((createOrder config nowMillis db req).1, row) ∧
        ∀ userID, (createOrder config nowMillis db req).2 = .queued userID → session.userID = userID := by
  have hrefused : ∀ status text userID, Response.error status text ≠ .queued userID := fun _ _ _ h ↦ nomatch h
  rw [createOrder]
  iterate 2
    split
    · exact .inl ⟨rfl, hrefused _ _⟩
  split
  swap
  · rw [hoperator]
    exact .inl ⟨rfl, hrefused _ _⟩
  rw [createSessionOrder]
  split
  · exact .inl ⟨rfl, hrefused _ _⟩
  split
  · exact .inl ⟨rfl, hrefused _ _⟩
  next session hsession =>
  split
  · exact .inl ⟨rfl, hrefused _ _⟩
  next hactive =>
  iterate 4
    split
    · exact .inl ⟨rfl, hrefused _ _⟩
  split
  iterate 3 · exact .inl ⟨rfl, hrefused _ _⟩
  next advanced row hadvanced =>
  refine .inr ⟨session, row, hsession, not_not.mp hactive, ?_, fun userID h ↦ eq_of_submitOrder h⟩
  rw [submitOrder_fst, hadvanced]

end FunnyOption.Api
