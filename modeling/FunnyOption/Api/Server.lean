import FunnyOption.Api.Handlers
import FunnyOption.Custody.Withdraw
import FunnyOption.Foundation.Run

/-!
# The server

The routes of the API that read or write sessions and profiles, as a state machine over the tables. One
request is one step; any client may send any request at any time.

Most routes are open: what they check is in the request. The custody routes are not. They stand behind
`requireSessionAuth`, which takes the id of a session as the proof of who is calling, and behind
`enforceUserScope`. The ids are in the answers of open routes.

Beside the tables the server keeps two records. `accepted` are the orders that were accepted, each with
its user and session. `shown` are the session ids that answers of open routes have contained.
-/

open Foundation

namespace FunnyOption.Api

open Auth

/-! ## Session authentication -/

/-- `LookupActiveSession`. The time at which a session expires is not looked at. -/
def lookupActiveSession (db : Database) (sessionID : String) : Except String ℤ :=
  match db.getSession sessionID with
  | none => .error "not found"
  | some session =>
    if session.status ≠ .active then .error "session is not active" else .ok session.userID

/-- The session id in an `Authorization` header. -/
def bearer (header : String) : Option String :=
  let authHeader := trimSpace header
  if !"Bearer ".toList.isPrefixOf authHeader.toList then none
  else
    let sessionID := trimSpace (trimPrefix authHeader "Bearer ")
    if sessionID = "" then none else some sessionID

/-- `requireSessionAuth`: the authenticated user, or an error. -/
def requireSessionAuth (db : Database) (header : String) : Except (ℕ × String) ℤ :=
  match bearer header with
  | none => .error (401, "authorization required")
  | some sessionID =>
    match lookupActiveSession db sessionID with
    | .error _ => .error (401, "invalid or expired session")
    | .ok userID => if userID ≤ 0 then .error (401, "invalid or expired session") else .ok userID

/-- `enforceUserScope`: the error, if there is an error. `query` is the `user_id` of the URL. -/
def enforceUserScope (authUserID : ℤ) (query : String) : Option (ℕ × String) :=
  if trimSpace query ≠ "" ∧ parseInt (trimSpace query) ≠ some authUserID then
    some (403, "access denied")
  else none

/-- The route of `RequestWithdraw` up to its handler: an error, or the call that is executed. -/
def requestWithdraw (db : Database) (header query : String) (call : Custody.WithdrawCall) :
    Except (ℕ × String) Custody.WithdrawCall :=
  match requireSessionAuth db header with
  | .error e => .error e
  | .ok userID =>
    match enforceUserScope userID query with
    | some e => .error e
    | none => .ok { call with user := some userID }

/-! ## Requests -/

/-- The requests. -/
inductive Request where
  | createTradingKeyChallenge (walletAddress vaultAddress : String) (chainID : ℤ)
      (challengeID : String) (challenge : List UInt8)
  | registerTradingKey (req : RegisterTradingKeyRequest)
  | createSession (req : CreateSessionRequest)
  | revokeSession (sessionID : String)
  | updateProfile (req : UpdateProfileRequest)
  | createOrder (req : CreateOrderRequest)
  | listSessions (req : ListSessionsRequest)
  | withdraw (header query : String) (call : Custody.WithdrawCall)

/-- A request and the time it is handled at. -/
structure Event where
  nowMillis : ℤ
  request : Request

/-- The dispatch of a request to its handler. -/
def handle (config : Config) (nowMillis : ℤ) (db : Database) : Request → Database × Response
  | .createTradingKeyChallenge walletAddress vaultAddress chainID challengeID challenge =>
    createTradingKeyChallenge config nowMillis db walletAddress vaultAddress chainID challengeID
      challenge
  | .registerTradingKey req => registerTradingKey config nowMillis db req
  | .createSession req => createSession config nowMillis db req
  | .revokeSession sessionID => revokeSession nowMillis db sessionID
  | .updateProfile req => updateProfile nowMillis db req
  | .createOrder req => createOrder config nowMillis db req
  | .listSessions req => (db, .sessions (db.listSessions req))
  | .withdraw header query call =>
    match requestWithdraw db header query call with
    | .error (status, text) => (db, .error status text)
    | .ok call => (db, .withdrawing call.userID)

/-- The session ids in an answer. -/
def Response.sessionIDs : Response → List String
  | .session sessionID _ => [sessionID]
  | .sessions items => items.map Prod.fst
  | _ => []

/-- The user and the session of an order, if one was accepted. -/
def acceptance : Request → Response → List (ℤ × String)
  | .createOrder req, .queued userID => [(userID, trimSpace req.sessionID)]
  | _, _ => []

/-- The tables, and what the clients have got. -/
structure Server where
  db : Database
  accepted : List (ℤ × String)
  shown : List String

namespace Server

/-- A server before the first request. -/
def start (db : Database) : Server := ⟨db, [], []⟩

/-- One request. -/
def step (config : Config) (s : Server) (e : Event) : Option Server :=
  let answer := handle config e.nowMillis s.db e.request
  some
    { db := answer.1
      accepted := s.accepted ++ acceptance e.request answer.2
      shown := s.shown ++ answer.2.sessionIDs }

end Server

/-! ## Who has made a request -/

/-- The request carries a signature of the wallet `w`: the signer that is recovered from what was signed
and from the signature is `w`. -/
def Request.SignedBy (crypto : Crypto) (w : String) : Request → Prop
  | .registerTradingKey req =>
    crypto.recoverTypedData req.authorization.normalize.typedData req.walletSignature = .ok w
  | .createSession req =>
    crypto.recoverPersonalSign req.grant.normalize.message req.walletSignature = .ok w
  | _ => False

/-- The request carries an operator proof. -/
def Request.HasOperatorProof : Request → Prop
  | .createOrder req => req.operator.isSome
  | _ => False

/-- A request that needs neither the key of `w` nor an operator. -/
def Request.Unsigned (crypto : Crypto) (w : String) (r : Request) : Prop :=
  ¬ r.SignedBy crypto w ∧ ¬ r.HasOperatorProof

end FunnyOption.Api
