import FunnyOption.Foundation.Text

/-!
# Markets that a price settles

The metadata of a market names a price source, a window around the time of its resolution and a threshold. If it
is complete it is a *contract*, from which an observed price gives the outcome. What was observed, and how often
it was tried, is kept as evidence in the row of the resolution.

Metadata and evidence are JSON text in the database. How `encoding/json` reads and writes such text is a
parameter, `Codec`, as is the reading of decimals by `math/big`.
-/

open Foundation

namespace FunnyOption.Oracle

/-- `normalizeUpper`. -/
def normalizeUpper (value : String) : String := toUpper (trimSpace value)

/-! ## Metadata -/

/-- `ResolutionInstrument`. -/
structure ResolutionInstrument where
  kind : String
  baseAsset : String
  quoteAsset : String
  symbol : String
  deriving DecidableEq, Repr

/-- `ResolutionPriceConfig`. -/
structure ResolutionPriceConfig where
  field : String
  scale : ℤ
  roundingMode : String
  maxDataAgeSec : ℤ
  deriving DecidableEq, Repr

/-- `ResolutionWindow`. -/
structure ResolutionWindow where
  anchor : String
  beforeSec : ℤ
  afterSec : ℤ
  deriving DecidableEq, Repr

/-- `ResolutionRule`. -/
structure ResolutionRule where
  type : String
  comparator : String
  thresholdPrice : String
  deriving DecidableEq, Repr

/-- `ResolutionOracleConfig`. -/
structure ResolutionOracleConfig where
  sourceKind : String
  providerKey : String
  instrument : ResolutionInstrument
  price : ResolutionPriceConfig
  window : ResolutionWindow
  rule : ResolutionRule
  deriving DecidableEq, Repr

/-- `ResolutionMetadata`. -/
structure ResolutionMetadata where
  version : ℤ
  mode : String
  marketKind : String
  manualFallbackAllowed : Bool
  oracle : ResolutionOracleConfig
  deriving DecidableEq, Repr

/-- `Contract`. -/
structure Contract where
  metadata : ResolutionMetadata
  thresholdScaled : ℤ
  deriving DecidableEq, Repr

/-! ## Evidence -/

/-- The error codes of the worker and the provider. -/
inductive ErrorCode where
  | sourceTimeout
  | sourceUnavailable
  | stalePrice
  | priceNotInWindow
  | unsupportedSymbol
  | unsupportedRule
  | conflictingObservation
  | invalidMetadata
  deriving DecidableEq, Repr

/-- The text of an error code. -/
def ErrorCode.text : ErrorCode → String
  | .sourceTimeout => "SOURCE_TIMEOUT"
  | .sourceUnavailable => "SOURCE_UNAVAILABLE"
  | .stalePrice => "STALE_PRICE"
  | .priceNotInWindow => "PRICE_NOT_IN_WINDOW"
  | .unsupportedSymbol => "UNSUPPORTED_SYMBOL"
  | .unsupportedRule => "UNSUPPORTED_RULE"
  | .conflictingObservation => "CONFLICTING_OBSERVATION"
  | .invalidMetadata => "INVALID_METADATA"

/-- `Observation`. The price is missing if the provider did not scale it; the payload is its text. -/
structure Observation where
  fetchedAt : ℤ
  effectiveAt : ℤ
  observedPrice : String
  observedScaled : Option ℤ
  rawPayload : String
  rawPayloadHash : String
  deriving DecidableEq, Repr

/-- `EvidenceObservation`. -/
structure EvidenceObservation where
  observationID : String
  fetchedAt : ℤ
  effectiveAt : ℤ
  observedPrice : String
  resolvedOutcome : String
  rawPayloadHash : String
  rawPayload : String
  deriving DecidableEq, Repr

/-- `EvidenceAttestation`. -/
structure EvidenceAttestation where
  version : ℤ
  assetPair : String
  price : String
  timestamp : ℤ
  provider : String
  signature : String
  signerAddress : String
  deriving DecidableEq, Repr

/-- `EvidenceRetry`. -/
structure EvidenceRetry where
  attemptCount : ℤ
  lastAttemptAt : ℤ
  nextRetryAt : ℤ
  lastErrorCode : String
  deriving DecidableEq, Repr

/-- `EvidenceDispatch`. -/
structure EvidenceDispatch where
  status : String
  attemptCount : ℤ
  lastAttemptAt : ℤ
  dispatchedAt : ℤ
  lastError : String
  deriving DecidableEq, Repr

/-- `Evidence`. The parts that are copied from the contract are kept as the contract and the time of the
resolution. -/
structure Evidence where
  metadata : ResolutionMetadata
  resolveAt : ℤ
  observation : Option EvidenceObservation
  attestation : Option EvidenceAttestation
  retry : EvidenceRetry
  dispatch : Option EvidenceDispatch
  deriving DecidableEq, Repr

/-- `StoredEvidence`, as far as it is read. -/
structure StoredEvidence where
  retry : EvidenceRetry
  dispatch : Option EvidenceDispatch
  deriving DecidableEq, Repr

/-- What the metadata of a market has under `resolution`. -/
inductive ResolutionField where
  | absent
  | malformed
  | object (metadata : ResolutionMetadata)

/-- How texts are read and written. -/
structure Codec where
  /-- The keys of an option schema. -/
  optionKeys : String → Option (List String)
  resolution : String → ResolutionField
  /-- The text under `resolution` and `mode`, as the database reads it, or the empty text. -/
  mode : String → String
  parseStoredEvidence : String → Option StoredEvidence
  parseEvidence : String → Option Evidence
  marshal : Evidence → String
  /-- `SetString` of a `big.Rat`. -/
  parseRat : String → Option ℚ

/-! ## Contracts -/

/-- `formatScaled`. -/
def formatScaled (value : ℕ) (scale : ℕ) : String :=
  if scale = 0 then toString value
  else
    let digits := padDecimal (scale + 1) value
    let cut := digits.length - scale
    String.ofList (digits.toList.take cut) ++ "." ++ String.ofList (digits.toList.drop cut)

section Codec

variable (codec : Codec)

/-- `normalizeDecimal`, which rounds half up. -/
def normalizeDecimal (value : String) (scale : ℕ) : Option (ℕ × String) :=
  if trimSpace value = "" then none
  else
    (codec.parseRat (trimSpace value)).bind fun rat ↦
      if rat < 0 then none
      else
        let scaled := rat * (10 ^ scale : ℕ)
        let quotient := scaled.num.toNat / scaled.den
        let remainder := scaled.num.toNat % scaled.den
        let rounded := if remainder ≠ 0 ∧ scaled.den ≤ remainder * 2 then quotient + 1 else quotient
        some (rounded, formatScaled rounded scale)

/-- `normalizeContract`. -/
def normalizeContract (m : ResolutionMetadata) : ResolutionMetadata :=
  { m with
    mode := normalizeUpper m.mode
    marketKind := normalizeUpper m.marketKind
    oracle :=
      { sourceKind := normalizeUpper m.oracle.sourceKind
        providerKey := normalizeUpper m.oracle.providerKey
        instrument := ⟨normalizeUpper m.oracle.instrument.kind, normalizeUpper m.oracle.instrument.baseAsset,
          normalizeUpper m.oracle.instrument.quoteAsset, normalizeUpper m.oracle.instrument.symbol⟩
        price := { m.oracle.price with
          field := normalizeUpper m.oracle.price.field
          roundingMode := normalizeUpper m.oracle.price.roundingMode }
        window := { m.oracle.window with anchor := normalizeUpper m.oracle.window.anchor }
        rule := ⟨normalizeUpper m.oracle.rule.type, normalizeUpper m.oracle.rule.comparator,
          trimSpace m.oracle.rule.thresholdPrice⟩ } }

/-- `isBinaryOptionKeys`. -/
def isBinaryOptionKeys (optionKeys : List String) : Bool :=
  optionKeys.length = 2 && (optionKeys.map normalizeUpper).contains "YES" &&
    (optionKeys.map normalizeUpper).contains "NO"

/-- The checks of `validateContract` before the threshold is read, each with the text of its error. -/
def contractChecks (categoryKey : String) (optionKeys : List String) (resolveAt : ℤ) (m : ResolutionMetadata) :
    List (Bool × String) :=
  [(m.mode = "ORACLE_PRICE", "metadata.resolution.mode must be ORACLE_PRICE"),
    (normalizeUpper categoryKey = "CRYPTO", "oracle-settled markets must use category_key = CRYPTO"),
    (isBinaryOptionKeys optionKeys, "oracle-settled markets must use YES/NO binary options"),
    (0 < resolveAt, "oracle-settled markets require resolve_at > 0"),
    (m.version = 1, "metadata.resolution.version must be 1"),
    (m.marketKind = "CRYPTO_PRICE_THRESHOLD", "metadata.resolution.market_kind must be CRYPTO_PRICE_THRESHOLD"),
    (m.manualFallbackAllowed, "metadata.resolution.manual_fallback_allowed must be true"),
    (m.oracle.sourceKind = "HTTP_JSON", "metadata.resolution.oracle.source_kind must be HTTP_JSON"),
    (m.oracle.providerKey = "BINANCE", "metadata.resolution.oracle.provider_key must be BINANCE"),
    (m.oracle.instrument.kind = "SPOT", "metadata.resolution.oracle.instrument.kind must be SPOT"),
    (m.oracle.instrument.symbol ≠ "", "metadata.resolution.oracle.instrument.symbol is required"),
    (m.oracle.price.field = "LAST_PRICE", "metadata.resolution.oracle.price.field must be LAST_PRICE"),
    (0 ≤ m.oracle.price.scale ∧ m.oracle.price.scale ≤ 18,
      "metadata.resolution.oracle.price.scale must be between 0 and 18"),
    (m.oracle.price.roundingMode = "ROUND_HALF_UP",
      "metadata.resolution.oracle.price.rounding_mode must be ROUND_HALF_UP"),
    (0 < m.oracle.price.maxDataAgeSec, "metadata.resolution.oracle.price.max_data_age_sec must be greater than 0"),
    (m.oracle.window.anchor = "RESOLVE_AT", "metadata.resolution.oracle.window.anchor must be RESOLVE_AT"),
    (0 ≤ m.oracle.window.beforeSec ∧ 0 ≤ m.oracle.window.afterSec,
      "metadata.resolution.oracle.window.before_sec and after_sec must be non-negative"),
    (m.oracle.rule.type = "PRICE_THRESHOLD", "metadata.resolution.oracle.rule.type must be PRICE_THRESHOLD"),
    (m.oracle.rule.comparator ∈ ["GT", "GTE", "LT", "LTE"],
      "metadata.resolution.oracle.rule.comparator must be GT, GTE, LT, or LTE")]

/-- `invalidMetadataMessage`. -/
def invalidMetadataMessage (detail : String) : String := ErrorCode.invalidMetadata.text ++ ": " ++ detail

/-- `validateContract`. -/
def validateContract (categoryKey : String) (optionKeys : List String) (resolveAt : ℤ) (m : ResolutionMetadata) :
    Except String Contract :=
  match (contractChecks categoryKey optionKeys resolveAt m).find? fun check ↦ !check.1 with
  | some check => .error (invalidMetadataMessage check.2)
  | none =>
    match normalizeDecimal codec m.oracle.rule.thresholdPrice m.oracle.price.scale.toNat with
    | none =>
      .error (invalidMetadataMessage
        "metadata.resolution.oracle.rule.threshold_price must be a decimal string compatible with price.scale")
    | some (scaled, text) =>
      .ok ⟨{ m with oracle := { m.oracle with rule := { m.oracle.rule with thresholdPrice := text } } }, scaled⟩

/-- `ParseContract`: no contract is a market that is not for the oracle. -/
def parseContract (categoryKey : String) (optionKeys : List String) (resolveAt : ℤ) (raw : String) :
    Except String (Option Contract) :=
  match codec.resolution raw with
  | .absent => .ok none
  | .malformed => .error (invalidMetadataMessage "metadata.resolution must be an object")
  | .object metadata =>
    (validateContract codec categoryKey optionKeys resolveAt (normalizeContract metadata)).map some

end Codec

namespace Contract

variable (contract : Contract) (resolveAt : ℤ)

/-- `ResolverRef`. -/
def resolverRef : String :=
  "oracle_price:" ++ contract.metadata.oracle.providerKey ++ ":" ++ contract.metadata.oracle.instrument.symbol ++
    ":" ++ toString resolveAt

/-- `ResolveOutcome`. -/
def resolveOutcome (observed : Option ℤ) : Option String :=
  observed.bind fun observed ↦
    let yes (holds : Bool) := some (if holds then "YES" else "NO")
    match normalizeUpper contract.metadata.oracle.rule.comparator with
    | "GT" => yes (observed > contract.thresholdScaled)
    | "GTE" => yes (observed ≥ contract.thresholdScaled)
    | "LT" => yes (observed < contract.thresholdScaled)
    | "LTE" => yes (observed ≤ contract.thresholdScaled)
    | _ => none

/-- `validateObservationTiming`. -/
def validateObservationTiming (observation : Observation) : Option ErrorCode :=
  let window := contract.metadata.oracle.window
  if observation.effectiveAt < resolveAt - window.beforeSec ∨
      observation.effectiveAt > resolveAt + window.afterSec then
    some .priceNotInWindow
  else if observation.fetchedAt - observation.effectiveAt > contract.metadata.oracle.price.maxDataAgeSec then
    some .stalePrice
  else none

end Contract

/-! ## Building evidence -/

section Evidence

variable (codec : Codec) (nowUnix : ℤ)

/-- `nextAttemptCount`. -/
def nextAttemptCount (raw : String) : ℤ :=
  match codec.parseStoredEvidence raw with
  | none => 1
  | some stored => if stored.retry.attemptCount ≤ 0 then 1 else stored.retry.attemptCount + 1

/-- `BuildEvidence` with an error. -/
def buildErrorEvidence (contract : Contract) (resolveAt : ℤ) (previous : String) (nextRetryAt : ℤ)
    (code : ErrorCode) : String :=
  codec.marshal ⟨contract.metadata, resolveAt, none, none,
    ⟨nextAttemptCount codec previous, nowUnix, nextRetryAt, code.text⟩, none⟩

/-- `BuildEvidence` with an observation, whose event is still to be sent. -/
def buildObservationEvidence (contract : Contract) (resolveAt : ℤ) (observation : Observation) (previous : String)
    (outcome : String) (attestation : Option EvidenceAttestation) : String :=
  codec.marshal ⟨contract.metadata, resolveAt,
    some ⟨contract.resolverRef resolveAt, observation.fetchedAt, observation.effectiveAt, observation.observedPrice,
      outcome, observation.rawPayloadHash, observation.rawPayload⟩,
    attestation, ⟨nextAttemptCount codec previous, observation.fetchedAt, 0, ""⟩, some ⟨"PENDING", 0, 0, 0, ""⟩⟩

/-- `dispatchPending`. -/
def dispatchPending (raw : String) : Bool :=
  match codec.parseStoredEvidence raw with
  | none => true
  | some stored => (stored.dispatch.map fun d ↦ normalizeUpper d.status) ≠ some "DISPATCHED"

/-- `recordDispatchAttempt`. -/
def recordDispatchAttempt (raw : String) (dispatched : Bool) (attemptedAt : ℤ) (lastError : String) : String :=
  match codec.parseEvidence raw with
  | none => raw
  | some evidence =>
    let attemptedAt := if attemptedAt ≤ 0 then nowUnix else attemptedAt
    let attempts := (evidence.dispatch.map EvidenceDispatch.attemptCount).getD 0
    let attemptCount := if attempts > 0 then attempts + 1 else 1
    codec.marshal { evidence with
      dispatch := some (if dispatched then ⟨"DISPATCHED", attemptCount, attemptedAt, attemptedAt, ""⟩
        else ⟨"PENDING", attemptCount, attemptedAt, 0, trimSpace lastError⟩) }

end Evidence

end FunnyOption.Oracle
