import FunnyOption.Foundation.Text

/-!
# Assets and units

The names of assets and the conversion of accounting amounts to chain amounts, from
`internal/shared/assets`. Conversions are checked against the range of `int64`; the error texts are
only logged by their callers, so an error is `none`.
-/

open Foundation

namespace FunnyOption

/-- `math.MaxInt64`. -/
def maxInt64 : ℤ := 2 ^ 63 - 1

namespace Assets

/-- `DefaultCollateralAsset`. -/
def defaultCollateralAsset : String := "USDT"

/-- `NormalizeAsset`: upper case, with the collateral for an empty name. -/
def normalizeAsset (asset : String) : String :=
  if toUpper (trimSpace asset) = "" then defaultCollateralAsset else toUpper (trimSpace asset)

/-- `PositionAsset`. -/
def positionAsset (marketID : ℤ) (outcome : String) : String :=
  "POSITION:" ++ toString marketID ++ ":" ++ toUpper (trimSpace outcome)

/-- `AccountingDigits`. -/
def accountingDigits (asset : String) : ℤ :=
  if normalizeAsset asset = defaultCollateralAsset then 2 else 0

/-- `ChainDecimals`. -/
def chainDecimals (asset : String) : ℤ :=
  if normalizeAsset asset = defaultCollateralAsset then 6 else accountingDigits asset

/-- The loop of `pow10Int64`. -/
def pow10Loop : ℕ → Option ℤ
  | 0 => some 1
  | n + 1 => (pow10Loop n).bind fun value ↦ if value > maxInt64 / 10 then none else some (value * 10)

/-- `pow10Int64`. -/
def pow10Int64 (exp : ℤ) : Option ℤ := if exp < 0 then none else pow10Loop exp.toNat

/-- `AccountingToChainAmount`. -/
def accountingToChainAmount (accountingAmount chainDecimals accountingDigits : ℤ) : Option ℤ :=
  if accountingAmount < 0 then none
  else if chainDecimals < 0 ∨ accountingDigits < 0 then none
  else if chainDecimals = accountingDigits then some accountingAmount
  else
    let diff := chainDecimals - accountingDigits
    if 0 < diff then
      (pow10Int64 diff).bind fun factor ↦
        if accountingAmount > maxInt64 / factor then none else some (accountingAmount * factor)
    else
      (pow10Int64 (-diff)).bind fun factor ↦
        if accountingAmount % factor ≠ 0 then none else some (accountingAmount / factor)

/-- `AccountingToAssetChainAmount`. -/
def accountingToAssetChainAmount (asset : String) (accountingAmount : ℤ) : Option ℤ :=
  accountingToChainAmount accountingAmount (chainDecimals asset) (accountingDigits asset)

/-! ### Names of positions -/

/-- The name of a position is in normal form. -/
theorem toUpper_trimSpace_positionAsset (marketID : ℤ) (outcome : String) :
    toUpper (trimSpace (positionAsset marketID outcome)) = positionAsset marketID outcome := by
  have htrimmed : trimSpace (toUpper (trimSpace outcome)) = toUpper (trimSpace outcome) := by
    rw [trimSpace_toUpper, trimSpace_trimSpace]
  rw [positionAsset, trimSpace_numbered marketID (by decide) htrimmed]
  simp only [toUpper_append, toUpper_toString, toUpper_toUpper]
  rfl

/-- Only the name of a position has a colon. -/
theorem positionAsset_ne {name : String} (hname : ':' ∉ name.toList) (marketID : ℤ) (outcome : String) :
    toUpper (trimSpace (positionAsset marketID outcome)) ≠ name := by
  rintro rfl
  rw [toUpper_trimSpace_positionAsset] at hname
  exact hname (by simp [positionAsset])

/-- Positions of different markets or outcomes have different names. -/
theorem positionAsset_inj {marketID marketID' : ℤ} {outcome outcome' : String} :
    positionAsset marketID outcome = positionAsset marketID' outcome' ↔
      marketID = marketID' ∧ toUpper (trimSpace outcome) = toUpper (trimSpace outcome') := by
  simp only [positionAsset, String.append_assoc, String.append_right_inj]
  simp only [← String.append_assoc, toString_colon_inj]

end Assets

end FunnyOption
