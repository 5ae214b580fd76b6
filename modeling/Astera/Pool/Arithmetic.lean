import Astera.Pool.Types

/-!
# Interest, rates and fees

The pool's pure arithmetic: interest, the amount due, the rate curve, fees, collateral, loyalty
tiers and the value of shares.  Every multiplication left unchecked traps when it leaves its width.
-/

namespace Astera.Pool

open Fallible Machine

/-- The loop of `fixed_point_pow`.  A `u64` exponent has at most 64 bits, which bounds the number of
iterations; `base` is squared in the last iteration too, as in the contract. -/
def fixedPointPowLoop (precision : ℕ) : ℕ → ℕ → ℕ → ℕ → Res ℕ
  | 0, _, _, result => return result
  | fuel + 1, base, exp, result =>
    if exp = 0 then return result
    else do
      let result ←
        if exp % 2 = 1 then do
          let product ← okOr (fitU 128 (result * base)) overflowTrap
          pure (product / precision)
        else pure result
      let square ← okOr (fitU 128 (base * base)) overflowTrap
      fixedPointPowLoop precision fuel (square / precision) (exp / 2) result

def fixedPointPow (base exp precision : ℕ) : Res ℕ :=
  fixedPointPowLoop precision 64 base exp precision

def divRoundHalfUp (numerator denominator : ℕ) : Res ℕ := do
  require (denominator ≠ 0) overflowErr
  let rounded ← okOr (fitU 128 (numerator + denominator / 2)) overflowErr
  return rounded / denominator

def interestDenominator : ℕ := bpsDenom * secsPerYear

def calculateInterest (principal yieldBps elapsedSecs : ℕ) (isCompound : Bool) : Res ℕ := do
  if isCompound = false then
    let rate ← okOr (fitU 128 (principal * yieldBps)) overflowErr
    let numerator ← okOr (fitU 128 (rate * elapsedSecs)) overflowErr
    divRoundHalfUp numerator interestDenominator
  else
    let elapsedDays := elapsedSecs / secsPerDay
    let principalNumerator ← okOr (fitU 128 (principal * interestDenominator)) overflowErr
    let amountNumerator ←
      if 0 < elapsedDays then do
        let num ← okOr (fitU 128 (interestDenominator + yieldBps * secsPerDay)) overflowErr
        let growthFactor ← fixedPointPow num elapsedDays interestDenominator
        okOr (fitU 128 (principal * growthFactor)) overflowErr
      else pure principalNumerator
    let remainingSecs := elapsedSecs % secsPerDay
    let amountNumerator ←
      if 0 < remainingSecs then do
        let remainingRateNum ← okOr (fitU 128 (yieldBps * remainingSecs)) overflowErr
        let accrued ← okOr (fitU 128 (amountNumerator * remainingRateNum)) overflowErr
        okOr (fitU 128 (amountNumerator + accrued / interestDenominator)) overflowErr
      else pure amountNumerator
    require (principalNumerator ≤ amountNumerator) overflowErr
    divRoundHalfUp (amountNumerator - principalNumerator) interestDenominator

def u128ToI128 (value : ℕ) : Res ℤ := do
  require (value < 2 ^ 127) overflowErr
  return value

/-- When interest stops accruing on a funded invoice. -/
def accrualEnd (record : FundedInvoice) (now : ℕ) : ℕ :=
  if record.dueDate < now then record.dueDate else now

/-- `calculate_total_due`: the interest accrued by `now` and the whole amount due. -/
def calculateTotalDue (record : FundedInvoice) (compound : Bool) (now : ℕ) : Res (ℤ × ℤ) := do
  require (record.fundedAt ≤ accrualEnd record now) overflowErr
  let totalInterest ← calculateInterest (toU 128 record.principal) record.lockedYieldBps
    (accrualEnd record now - record.fundedAt) compound
  let interest ← u128ToI128 totalInterest
  let sum ← okOr (checkedAdd record.principal interest) overflowErr
  let totalDue ← okOr (checkedAdd sum record.factoringFee) overflowErr
  return (interest, totalDue)

/-- `a * b / denom` in `u128`, saturating on overflow and on a zero divisor. -/
def mulDivSaturating (a b denom : ℕ) : ℕ :=
  if a * b < 2 ^ 128 ∧ denom ≠ 0 then a * b / denom else 2 ^ 128 - 1

/-- `u128::saturating_add`. -/
def saturatingAddU (a b : ℕ) : ℕ := min (a + b) (2 ^ 128 - 1)

def computeCurrentRate (utilizationBps : ℕ) (config : RateModelConfig) : ℕ :=
  let util := min utilizationBps bpsDenom
  let optimal := config.optimalUtilizationBps
  let rate := saturatingAddU config.baseRateBps
    (mulDivSaturating (min util optimal) config.slope1Bps optimal)
  let rate :=
    if optimal < util then
      saturatingAddU rate (mulDivSaturating (util - optimal) config.slope2Bps (bpsDenom - optimal))
    else rate
  min (min rate config.maxRateBps) (2 ^ 32 - 1)

/-- The share of `deployed` in `value` in basis points, as `u128` arithmetic computes it. -/
def shareBps (deployed value : ℤ) : Res ℕ := do
  let scaled ← okOr (fitU 128 (toU 128 deployed * 10000)) overflowTrap
  require (toU 128 value ≠ 0) overflowTrap
  return truncU 32 (scaled / toU 128 value)

def utilizationBps (tt : PoolTokenTotals) : Res ℕ :=
  if tt.poolValue ≤ 0 then return 0 else shareBps tt.totalDeployed tt.poolValue

def availableLiquidity (tt : PoolTokenTotals) : Res ℤ :=
  okOr (checkedSub tt.poolValue tt.totalDeployed) overflowErr

/-! ## Fees, collateral, loyalty and shares -/

def calculateFactoringFee (principal : ℤ) (factoringFeeBps : ℕ) : Res ℤ := do
  let numerator ← okOr (fitU 128 (toU 128 principal * factoringFeeBps)) overflowErr
  u128ToI128 ((numerator + (bpsDenom - 1)) / bpsDenom)

def normalizeToStroops (amount : ℤ) (tokenDecimals : ℕ) : Res ℤ :=
  if expectedDecimals ≤ tokenDecimals then do
    let scale ← okOr (fit (10 ^ (tokenDecimals - expectedDecimals))) overflowTrap
    return amount.tdiv scale
  else okOr (checkedMul amount (10 ^ (expectedDecimals - tokenDecimals))) overflowTrap

def denormalizeFromStroops (amount : ℤ) (tokenDecimals : ℕ) : Res ℤ :=
  if expectedDecimals ≤ tokenDecimals then do
    let scale ← okOr (fit (10 ^ (tokenDecimals - expectedDecimals))) overflowTrap
    okOr (checkedMul amount scale) overflowTrap
  else return amount.tdiv (10 ^ (expectedDecimals - tokenDecimals))

def feeTierMatches (tier : FeeTier) (principal : ℤ) (score : ℕ) : Bool :=
  decide (tier.minAmount ≤ principal) && decide (principal ≤ tier.maxAmount) &&
    decide (tier.minCreditScore ≤ score)

def requiredCollateral (principal : ℤ) (config : CollateralConfig) : Res ℤ :=
  if principal < config.threshold then return 0
  else do
    let product ← okOr (fitU 128 (toU 128 principal * config.collateralBps)) overflowTrap
    return toI128 (product / bpsDenom)

def calculateRewardDelta (totalInterest totalShares : ℤ) : Res ℤ := do
  let scaled ← okOr (checkedMul totalInterest rewardPrecision) overflowErr
  okOr (checkedDiv scaled totalShares) overflowErr

/-- `withdrawal_amount`: the value of `shares` at `poolValue` for `totalShares`. -/
def withdrawalAmount (shares poolValue totalShares : ℤ) : Res ℤ := do
  require (0 < totalShares) (.err .InvalidAmount)
  let product ← okOr (checkedMul shares poolValue) overflowErr
  okOr (checkedDiv product totalShares) overflowErr

/-- `resolve_loyalty_tier`, restricted to the bonus (the claim reads nothing else of it). -/
def resolveLoyaltyBonus (tiers : List LoyaltyTier) (daysActive : ℕ) : ℕ :=
  tiers.foldl (fun bonus tier => if tier.minDays ≤ daysActive then tier.bonusBps else bonus) 0

def defaultLoyaltyTiers : List LoyaltyTier :=
  [⟨0, 0⟩, ⟨31, 50⟩, ⟨91, 150⟩, ⟨366, 300⟩]

end Astera.Pool
