import FunnyOption.Foundation.Text

/-!
# Signed authorizations

The three kinds of signed text of `internal/shared/auth`: the grant of a session, signed by a wallet; the
authorization of a trading key, signed by a wallet as typed data; and the intent of an order, signed with
the key of a session. Each is normalised before it is checked, rendered and hashed.

Hashing and signatures come from libraries. They are the fields of `Crypto`, and nothing is assumed of
them: who signed is a function of what was signed and of the signature.

A grant does not say for which user it is. The id of a session is a hash of a wallet and of a public key.
-/

open Foundation

namespace FunnyOption.Auth

/-- `NormalizeHex`. -/
def normalizeHex (value : String) : String := toLower (trimSpace value)

/-- `decodeHexBytes`: an error text, or the bytes. -/
def decodeHexBytes (value : String) : Except String (List UInt8) :=
  let digits := trimPrefix (trimSpace value) "0x"
  if trimSpace value = "" then .error "hex value is required"
  else if digits.toList.any fun c ↦ (hexValue c).isNone then .error "invalid hex string"
  else
    match decodeHex digits with
    | none => .error "hex string of odd length"
    | some bytes => .ok bytes

/-- `validateFixedHex`: the error text, if there is an error. -/
def validateFixedHex (label value : String) (size : ℕ) : Option String :=
  match decodeHexBytes value with
  | .error e => some ("decode " ++ label ++ ": " ++ e)
  | .ok raw => if raw.length ≠ size then some ("invalid " ++ label ++ " length") else none

/-- `common.IsHexAddress`: forty digits, with or without `0x`. -/
def isHexAddress (s : String) : Bool :=
  let digits := if s.toList.take 2 ∈ [['0', 'x'], ['0', 'X']] then s.toList.drop 2 else s.toList
  digits.length = 40 && digits.all fun c ↦ (hexValue c).isSome

/-! ## Typed data -/

/-- What varies in the `TypedData` of an authorization. -/
structure TypedData where
  chainID : ℤ
  verifyingContract : String
  wallet : String
  tradingPublicKey : String
  tradingKeyScheme : String
  scope : String
  challenge : String
  challengeExpiresAt : ℤ
  keyExpiresAt : ℤ
  deriving DecidableEq

/-- The functions of the cryptographic libraries. -/
structure Crypto where
  /-- SHA-256 of the bytes of a text. -/
  sha256 : String → List UInt8
  /-- `RecoverPersonalSignAddress`: an error text, or the address of the signer. -/
  recoverPersonalSign : String → String → Except String String
  /-- `RecoverTypedDataAddress`: an error text, or the address of the signer. -/
  recoverTypedData : TypedData → String → Except String String
  /-- `ed25519.Verify`: public key, message, signature. -/
  verifyEd25519 : List UInt8 → String → List UInt8 → Bool

/-- `hex.EncodeToString(sum[:16])` for the hash of a text. -/
def Crypto.shortHash (crypto : Crypto) (text : String) : String := encodeHex ((crypto.sha256 text).take 16)

/-! ## Grants of sessions -/

/-- `SessionGrant`. -/
structure SessionGrant where
  walletAddress : String
  sessionPublicKey : String
  scope : String
  chainID : ℤ
  nonce : String
  issuedAtMillis : ℤ
  expiresAtMillis : ℤ

/-- The scope, with the default for an empty one. -/
def normalizeScope (scope : String) : String :=
  if toUpper (trimSpace scope) = "" then "TRADE" else toUpper (trimSpace scope)

namespace SessionGrant

variable (g : SessionGrant)

/-- `Normalize`. -/
def normalize : SessionGrant :=
  { g with
    walletAddress := normalizeHex g.walletAddress
    sessionPublicKey := normalizeHex g.sessionPublicKey
    scope := normalizeScope g.scope
    nonce := trimSpace g.nonce }

/-- `Validate`: the error text, if there is an error. -/
def validate (nowMillis : ℤ) : Option String :=
  let g := g.normalize
  if g.walletAddress = "" then some "wallet address is required"
  else if g.sessionPublicKey = "" then some "session public key is required"
  else if g.chainID ≤ 0 then some "chain_id must be positive"
  else if g.nonce = "" then some "nonce is required"
  else if g.issuedAtMillis ≤ 0 ∨ g.expiresAtMillis ≤ 0 then
    some "issued_at and expires_at are required"
  else if g.expiresAtMillis ≤ g.issuedAtMillis then
    some "expires_at must be greater than issued_at"
  else if nowMillis > g.expiresAtMillis then some "session grant expired"
  else none

/-- `SessionID`. -/
def sessionID (crypto : Crypto) : String :=
  "sess_" ++ crypto.shortHash (g.normalize.walletAddress ++ ":" ++ g.normalize.sessionPublicKey)

/-- `Message`. -/
def message : String :=
  let g := g.normalize
  "FunnyOption Session Authorization\n\nwallet: " ++ g.walletAddress ++
    "\nsession_public_key: " ++ g.sessionPublicKey ++ "\nscope: " ++ g.scope ++
    "\nchain_id: " ++ toString g.chainID ++ "\nissued_at: " ++ toString g.issuedAtMillis ++
    "\nexpires_at: " ++ toString g.expiresAtMillis ++ "\nnonce: " ++ g.nonce ++ "\n"

/-- `VerifyGrantSignature`: the error text, if there is an error. -/
def verifySignature (crypto : Crypto) (signature : String) : Option String :=
  match crypto.recoverPersonalSign g.normalize.message signature with
  | .error e => some e
  | .ok recovered =>
    if recovered ≠ g.normalize.walletAddress then
      some "wallet signature does not match wallet address"
    else none

variable {g} {k : SessionGrant}

/-- **The text a session is granted with is unambiguous**, the wallet and the key without a line break. The nonce may
hold anything. -/
theorem grant_message_eq_iff (hg : '\n' ∉ g.walletAddress.toList ∧ '\n' ∉ g.sessionPublicKey.toList)
    (hk : '\n' ∉ k.walletAddress.toList ∧ '\n' ∉ k.sessionPublicKey.toList) :
    g.message = k.message ↔ g.normalize = k.normalize := by
  have hhex : ∀ {s : String}, '\n' ∉ s.toList → '\n' ∉ (normalizeHex s).toList :=
    fun hs hmem ↦ hs (mem_of_mem_trimSpace (mem_of_mem_toLower (by decide) hmem))
  have hnumeral : ∀ {n : ℤ}, '\n' ∉ (toString n).toList :=
    fun hmem ↦ absurd (isSpace_of_mem_toString_int hmem) (by decide)
  have hscope : ∀ g : SessionGrant, 'c' ∉ g.normalize.scope.toList := by
    intro g
    simp only [normalize, normalizeScope]
    split_ifs
    · decide
    · exact notMem_toUpper (by decide)
  refine ⟨fun h ↦ ?_, fun h ↦ by unfold message; rw [h]⟩
  unfold message at h
  simp only [String.append_assoc] at h
  obtain ⟨hwallet, h⟩ := label_inj '\n' (by decide) (hhex hg.1) (hhex hk.1) ((String.append_right_inj _).mp h)
  obtain ⟨hkey, h⟩ := label_inj '\n' (by decide) (hhex hg.2) (hhex hk.2) h
  obtain ⟨hscope, h⟩ := label_inj 'c' (by decide) (hscope _) (hscope _) h
  obtain ⟨hchain, h⟩ := label_inj '\n' (by decide) hnumeral hnumeral h
  obtain ⟨hissued, h⟩ := label_inj '\n' (by decide) hnumeral hnumeral h
  obtain ⟨hexpires, h⟩ := label_inj '\n' (by decide) hnumeral hnumeral h
  simp only [normalize, mk.injEq] at *
  exact ⟨hwallet, hkey, hscope, toString_int_injective hchain, (String.append_left_inj _).mp h,
    toString_int_injective hissued, toString_int_injective hexpires⟩

theorem grant_message_ne : (SessionGrant.mk "0xab" "0xcd" "" 1 "1\n" 1 2).message ≠
    (SessionGrant.mk "0xab" "0xcd" "" 1 "1\n2" 1 2).message :=
  (grant_message_eq_iff (by decide) (by decide)).not.mpr fun h ↦ absurd (congrArg nonce h) (by decide)

end SessionGrant

/-! ## Authorizations of trading keys -/

/-- `TradingKeyAuthorization`. -/
structure TradingKeyAuthorization where
  walletAddress : String
  tradingPublicKey : String
  tradingKeyScheme : String
  scope : String
  challenge : String
  challengeExpiresAtMillis : ℤ
  keyExpiresAtMillis : ℤ
  chainID : ℤ
  vaultAddress : String

namespace TradingKeyAuthorization

variable (a : TradingKeyAuthorization)

/-- `Normalize`. -/
def normalize : TradingKeyAuthorization :=
  { a with
    walletAddress := normalizeHex a.walletAddress
    tradingPublicKey := normalizeHex a.tradingPublicKey
    tradingKeyScheme :=
      if toUpper (trimSpace a.tradingKeyScheme) = "" then "ED25519"
      else toUpper (trimSpace a.tradingKeyScheme)
    scope := normalizeScope a.scope
    challenge := normalizeHex a.challenge
    vaultAddress := normalizeHex a.vaultAddress }

/-- `Validate`: the error text, if there is an error. -/
def validate (nowMillis : ℤ) : Option String :=
  let a := a.normalize
  if !isHexAddress a.walletAddress then some "wallet address is invalid"
  else if !isHexAddress a.vaultAddress then some "vault address is invalid"
  else if a.chainID ≤ 0 then some "chain_id must be positive"
  else if a.tradingKeyScheme ≠ "ED25519" then some "trading_key_scheme must be ED25519"
  else if a.scope = "" then some "scope is required"
  else
    match validateFixedHex "trading public key" a.tradingPublicKey 32 with
    | some e => some e
    | none =>
      match validateFixedHex "challenge" a.challenge 32 with
      | some e => some e
      | none =>
        if a.challengeExpiresAtMillis ≤ 0 then some "challenge_expires_at is required"
        else if nowMillis > a.challengeExpiresAtMillis then some "challenge expired"
        else if a.keyExpiresAtMillis < 0 then some "key_expires_at must be zero or positive"
        else if a.keyExpiresAtMillis > 0 ∧ a.keyExpiresAtMillis ≤ nowMillis then
          some "key authorization expired"
        else none

/-- `TradingKeyID`. -/
def tradingKeyID (crypto : Crypto) : String :=
  let a := a.normalize
  "tk_" ++ crypto.shortHash (a.walletAddress ++ ":" ++ toString a.chainID ++ ":" ++ a.vaultAddress ++
    ":" ++ a.tradingPublicKey)

/-- `TypedData`. -/
def typedData : TypedData :=
  let a := a.normalize
  ⟨a.chainID, a.vaultAddress, a.walletAddress, a.tradingPublicKey, a.tradingKeyScheme, a.scope,
    a.challenge, a.challengeExpiresAtMillis, a.keyExpiresAtMillis⟩

/-- `VerifyTradingKeyAuthorizationSignature`: the error text, if there is an error. -/
def verifySignature (crypto : Crypto) (signature : String) : Option String :=
  match crypto.recoverTypedData a.normalize.typedData signature with
  | .error e => some e
  | .ok recovered =>
    if recovered ≠ a.normalize.walletAddress then
      some "wallet signature does not match wallet address"
    else none

end TradingKeyAuthorization

/-! ## Intents of orders -/

/-- `OrderIntent`. -/
structure OrderIntent where
  sessionID : String
  walletAddress : String
  userID : ℤ
  marketID : ℤ
  outcome : String
  side : String
  orderType : String
  timeInForce : String
  price : ℤ
  quantity : ℤ
  clientOrderID : String
  nonce : ℕ
  requestedAtMillis : ℤ

namespace OrderIntent

variable (i : OrderIntent)

/-- `Normalize`. -/
def normalize : OrderIntent :=
  { i with
    sessionID := trimSpace i.sessionID
    walletAddress := normalizeHex i.walletAddress
    outcome := toUpper (trimSpace i.outcome)
    side := toUpper (trimSpace i.side)
    orderType := toUpper (trimSpace i.orderType)
    timeInForce := toUpper (trimSpace i.timeInForce)
    clientOrderID := trimSpace i.clientOrderID }

/-- `Validate`: the error text, if there is an error. An intent is good for five minutes. -/
def validate (nowMillis : ℤ) : Option String :=
  let i := i.normalize
  if i.sessionID = "" then some "session_id is required"
  else if i.walletAddress = "" then some "wallet address is required"
  else if i.userID ≤ 0 then some "user_id must be positive"
  else if i.marketID ≤ 0 then some "market_id must be positive"
  else if i.outcome = "" ∨ i.side = "" then some "outcome and side are required"
  else if i.orderType = "" ∨ i.timeInForce = "" then some "order_type and time_in_force are required"
  else if i.quantity ≤ 0 then some "quantity must be positive"
  else if i.nonce = 0 then some "order nonce must be positive"
  else if i.requestedAtMillis ≤ 0 then some "requested_at is required"
  else if nowMillis - i.requestedAtMillis > 300000 then some "order intent expired"
  else none

/-- `Message`. -/
def message : String :=
  let i := i.normalize
  "FunnyOption Order Authorization\n\nsession_id: " ++ i.sessionID ++ "\nwallet: " ++ i.walletAddress ++
    "\nuser_id: " ++ toString i.userID ++ "\nmarket_id: " ++ toString i.marketID ++
    "\noutcome: " ++ i.outcome ++ "\nside: " ++ i.side ++ "\norder_type: " ++ i.orderType ++
    "\ntime_in_force: " ++ i.timeInForce ++ "\nprice: " ++ toString i.price ++
    "\nquantity: " ++ toString i.quantity ++ "\nclient_order_id: " ++ i.clientOrderID ++
    "\nnonce: " ++ toString i.nonce ++ "\nrequested_at: " ++ toString i.requestedAtMillis ++ "\n"

/-- `VerifyOrderIntentSignature`: the error text, if there is an error. -/
def verifySignature (crypto : Crypto) (sessionPublicKey signature : String) : Option String :=
  match decodeHexBytes sessionPublicKey with
  | .error e => some ("decode session public key: " ++ e)
  | .ok publicKey =>
    if publicKey.length ≠ 32 then some "invalid session public key length"
    else
      match decodeHexBytes signature with
      | .error e => some ("decode order signature: " ++ e)
      | .ok sig =>
        if sig.length ≠ 64 then some "invalid order signature length"
        else if !crypto.verifyEd25519 publicKey i.message sig then some "invalid session signature"
        else none

/-! ### The text of an intent

A field is read back at the label behind it: a number and the wallet have no line break, a raised text has
no small letter, and the text the client chooses is what the last two numbers leave. -/

variable {i} {j : OrderIntent}

/-- **The text an order is signed with is unambiguous.** The session id and the wallet without a line break,
two intents have the same text just when they are the same after normalising. -/
theorem message_eq_iff_normalize_eq (hi : '\n' ∉ i.sessionID.toList ∧ '\n' ∉ i.walletAddress.toList)
    (hj : '\n' ∉ j.sessionID.toList ∧ '\n' ∉ j.walletAddress.toList) :
    i.message = j.message ↔ i.normalize = j.normalize := by
  have hhex : ∀ {s : String}, '\n' ∉ s.toList → '\n' ∉ (normalizeHex s).toList :=
    fun hs hmem ↦ hs (mem_of_mem_trimSpace (mem_of_mem_toLower (by decide) hmem))
  have hnumeral : ∀ {c : Char} {n : ℤ}, isSpace c = true → c ∉ (toString n).toList :=
    fun hc hmem ↦ absurd (isSpace_of_mem_toString_int hmem) (by rw [hc]; decide)
  constructor
  · intro h
    unfold message at h
    simp only [String.append_assoc] at h
    -- from the front up to the quantity
    obtain ⟨hsession, h⟩ := label_inj '\n' (by decide) (mt mem_of_mem_trimSpace hi.1) (mt mem_of_mem_trimSpace hj.1)
      ((String.append_right_inj _).mp h)
    obtain ⟨hwallet, h⟩ := label_inj '\n' (by decide) (hhex hi.2) (hhex hj.2) h
    obtain ⟨huser, h⟩ := label_inj '\n' (by decide) (hnumeral rfl) (hnumeral rfl) h
    obtain ⟨hmarket, h⟩ := label_inj '\n' (by decide) (hnumeral rfl) (hnumeral rfl) h
    obtain ⟨houtcome, h⟩ := label_inj 's' (by decide) (notMem_toUpper (by decide)) (notMem_toUpper (by decide)) h
    obtain ⟨hside, h⟩ := label_inj 'o' (by decide) (notMem_toUpper (by decide)) (notMem_toUpper (by decide)) h
    obtain ⟨htype, h⟩ := label_inj 't' (by decide) (notMem_toUpper (by decide)) (notMem_toUpper (by decide)) h
    obtain ⟨htif, h⟩ := label_inj 'p' (by decide) (notMem_toUpper (by decide)) (notMem_toUpper (by decide)) h
    obtain ⟨hprice, h⟩ := label_inj '\n' (by decide) (hnumeral rfl) (hnumeral rfl) h
    obtain ⟨hquantity, h⟩ := label_inj '\n' (by decide) (hnumeral rfl) (hnumeral rfl) h
    -- the rest from the end, since the client's own id may hold anything
    simp only [← String.append_assoc, String.append_left_inj] at h
    obtain ⟨h, hrequested⟩ := label_inj_last ' ' (by decide) (hnumeral rfl) (hnumeral rfl) h
    obtain ⟨hclient, hnonce⟩ := label_inj_last ' ' (by decide) (hnumeral (n := i.nonce) rfl)
      (hnumeral (n := j.nonce) rfl) h
    exact (OrderIntent.mk.injEq ..).mpr ⟨hsession, hwallet, toString_int_injective huser, toString_int_injective hmarket,
      houtcome, hside, htype, htif, toString_int_injective hprice, toString_int_injective hquantity, hclient,
      toString_injective hnonce, toString_int_injective hrequested⟩
  · intro h
    unfold message
    rw [h]

/-- Two texts, of which one may hold the label of the other. -/
def labelled (outcome side : String) : OrderIntent :=
  ⟨"session-1", "0xab", 7, 11, outcome, side, "LIMIT", "GTC", 55, 10, "", 1, 1000⟩

theorem labelled_message_ne :
    (labelled "YES\nside: BUY" "SELL").message ≠ (labelled "YES" "BUY\nside: SELL").message :=
  (message_eq_iff_normalize_eq (by decide) (by decide)).not.mpr fun h ↦ absurd (congrArg side h) (by decide)

end OrderIntent

/-! ## Who has signed -/

/-- An authorization that verifies is signed by its wallet. -/
theorem TradingKeyAuthorization.signer_of_verifySignature {crypto : Crypto} {a : TradingKeyAuthorization}
    {signature : String} (h : a.verifySignature crypto signature = none) :
    crypto.recoverTypedData a.normalize.typedData signature = .ok a.normalize.walletAddress := by
  rw [verifySignature] at h
  split at h
  · exact absurd h (by simp)
  · next recovered hrecovered =>
    split_ifs at h with hne
    rw [hrecovered, not_not.mp hne]

end FunnyOption.Auth
