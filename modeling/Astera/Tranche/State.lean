import Astera.Share.Token

/-!
# The state of the tranche contract

The records of the contract and its arithmetic: the waterfall, the allocation of a loss, and the
headroom under the advance rate.  The release profile checks every `+`, `-` and `*`.  `ValidConfig`
carries what `validate_config` checked.
-/

namespace Astera.Tranche

open Fallible Machine

inductive TrancheError
  | AlreadyInitialized | Unauthorized | PoolNotFound | InvalidAmount | InsufficientBalance
  | AdvanceRateExceeded | ReentrancyDetected | NotInitialized | ExposureNotFound
  | InvalidShareTokens | ContractPaused
  deriving DecidableEq, Repr

inductive TrancheTrap
  /-- `panic_with_error!`. -/
  | error (e : TrancheError)
  /-- An arithmetic operation left its range, or a division by zero. -/
  | overflow
  | auth
  /-- A call of another contract failed. -/
  | call
  deriving DecidableEq, Repr

abbrev Res := Except TrancheTrap

/-! ## Checked arithmetic -/

/-- `a + b` on `i128`. -/
def add (a b : ℤ) : Res ℤ := okOr (checkedAdd a b) .overflow

/-- `a - b` on `i128`. -/
def sub (a b : ℤ) : Res ℤ := okOr (checkedSub a b) .overflow

/-- `a * b` on `i128`. -/
def mul (a b : ℤ) : Res ℤ := okOr (checkedMul a b) .overflow

/-- `a / b` on `i128`. -/
def div (a b : ℤ) : Res ℤ := okOr (checkedDiv a b) .overflow

/-- `a - b` on `u128`. -/
def subU (a b : ℕ) : Res ℕ := okOr (if b ≤ a then some (a - b) else none) .overflow

/-- `a * b` on `u128`. -/
def mulU (a b : ℕ) : Res ℕ := okOr (fitU 128 (a * b)) .overflow

/-- `u128::saturating_mul`. -/
def saturatingMulU (a b : ℕ) : ℕ := min (a * b) (2 ^ 128 - 1)

section Arithmetic

variable {a b c : ℤ} {m n k : ℕ}

@[simp]
theorem add_eq_ok : add a b = .ok c ↔ c = a + b ∧ InI128 (a + b) := by simp [add]

@[simp]
theorem sub_eq_ok : sub a b = .ok c ↔ c = a - b ∧ InI128 (a - b) := by simp [sub]

@[simp]
theorem mul_eq_ok : mul a b = .ok c ↔ c = a * b ∧ InI128 (a * b) := by simp [mul]

@[simp]
theorem subU_eq_ok : subU m n = .ok k ↔ n ≤ m ∧ k = m - n := by
  unfold subU
  rw [okOr_eq_ok]
  split_ifs with h
  · simp [h, eq_comm]
  · simp [h]

@[simp]
theorem mulU_eq_ok : mulU m n = .ok k ↔ k = m * n ∧ m * n < 2 ^ 128 := by
  simp [mulU, fitU_eq_some]

theorem toI128_of_lt {m : ℕ} (h : m < 2 ^ 127) : toI128 m = m := by
  unfold toI128
  rw [if_pos h]

end Arithmetic

/-! ## Records -/

inductive TrancheClass
  | Senior | Junior
  deriving DecidableEq, Repr

structure TrancheConfig where
  seniorTargetYieldBps : ℕ
  seniorAdvanceRateBps : ℕ
  juniorFirstLossBps : ℕ
  deriving DecidableEq, Repr

def TrancheConfig.Valid (c : TrancheConfig) : Prop :=
  c.seniorTargetYieldBps ≤ 10000 ∧ c.seniorAdvanceRateBps ≤ 10000 ∧ c.juniorFirstLossBps ≤ 10000

instance (c : TrancheConfig) : Decidable c.Valid := inferInstanceAs (Decidable (_ ∧ _))

abbrev ValidConfig := { c : TrancheConfig // c.Valid }

def validateConfig (c : TrancheConfig) : Res ValidConfig :=
  if h : c.Valid then .ok ⟨c, h⟩ else .error (.error .InvalidAmount)

structure TrancheAccounting where
  deposited : ℤ := 0
  available : ℤ := 0
  deployed : ℤ := 0
  earned : ℤ := 0
  losses : ℤ := 0
  totalShares : ℤ := 0
  deriving DecidableEq, Repr

/-- `TranchePool`, stored under its token. -/
structure TranchePool where
  seniorShareToken : Address
  juniorShareToken : Address
  config : ValidConfig
  senior : TrancheAccounting := {}
  junior : TrancheAccounting := {}

namespace TranchePool

def accounting (p : TranchePool) : TrancheClass → TrancheAccounting
  | .Senior => p.senior
  | .Junior => p.junior

def setAccounting (p : TranchePool) (tranche : TrancheClass) (a : TrancheAccounting) :
    TranchePool :=
  match tranche with
  | .Senior => { p with senior := a }
  | .Junior => { p with junior := a }

def shareToken (p : TranchePool) : TrancheClass → Address
  | .Senior => p.seniorShareToken
  | .Junior => p.juniorShareToken

/-- The advance rate, as the `i128` it is cast to. -/
def rate (p : TranchePool) : ℤ := p.config.1.seniorAdvanceRateBps

theorem rate_nonneg (p : TranchePool) : 0 ≤ p.rate := Int.natCast_nonneg _

theorem rate_le (p : TranchePool) : p.rate ≤ 10000 := by
  have := p.config.2.2.1
  unfold rate
  omega

theorem accounting_setAccounting (p : TranchePool) (tranche tranche' : TrancheClass)
    (a : TrancheAccounting) :
    (p.setAccounting tranche a).accounting tranche' =
      if tranche' = tranche then a else p.accounting tranche' := by
  cases tranche <;> cases tranche' <;> rfl

end TranchePool

structure InvestorPosition where
  deposited : ℤ := 0
  shares : ℤ := 0
  earned : ℤ := 0
  losses : ℤ := 0
  deriving DecidableEq, Repr

/-- `InvoiceTrancheExposure`, stored under its invoice. -/
structure InvoiceTrancheExposure where
  seniorDeployed : ℤ
  juniorDeployed : ℤ
  deriving DecidableEq, Repr

def InvoiceTrancheExposure.deployed (e : InvoiceTrancheExposure) : TrancheClass → ℤ
  | .Senior => e.seniorDeployed
  | .Junior => e.juniorDeployed

/-- `calculate_waterfall_split`; the first-loss rate it is given is not read. -/
def calculateWaterfallSplit (totalDue seniorPrincipal : ℤ) (seniorTargetYieldBps elapsedSecs : ℕ) :
    Res (ℤ × ℤ) := do
  let yearly := 365 * 24 * 60 * 60
  let interest := toI128 (saturatingMulU
    (saturatingMulU (toU 128 seniorPrincipal) seniorTargetYieldBps) elapsedSecs / 10000 / yearly)
  let seniorCap ← add seniorPrincipal interest
  let seniorAmount := if seniorCap ≤ totalDue then seniorCap else totalDue
  let juniorAmount ← sub totalDue seniorAmount
  return (seniorAmount, juniorAmount)

/-- `calculate_loss_allocation`: the loss of the junior class and that of the senior class. -/
def calculateLossAllocation (shortfall juniorRemaining : ℤ) (juniorFirstLossBps : ℕ) :
    Res (ℤ × ℤ) := do
  let maxJuniorLoss :=
    toI128 (saturatingMulU (toU 128 juniorRemaining) juniorFirstLossBps / 10000)
  if shortfall ≤ maxJuniorLoss then return (shortfall, 0)
  else
    let seniorLoss ← sub shortfall maxJuniorLoss
    return (maxJuniorLoss, seniorLoss)

def calculateSharesToMint (amount poolValue totalShares : ℤ) : ℤ :=
  if totalShares = 0 ∨ poolValue = 0 then amount
  else if poolValue ≤ 0 then amount
  else toI128 (saturatingMulU (toU 128 amount) (toU 128 totalShares) / toU 128 poolValue)

/-- The check of `deposit` that the senior class keeps to its share of the pool. -/
def checkAdvanceRate (p : TranchePool) (amount : ℤ) : Res Unit := do
  let newTotalDeposited ← add (← add p.junior.deposited p.senior.deposited) amount
  let product ← mul p.rate newTotalDeposited
  let seniorTarget := product.tdiv 10000
  let newSenior ← add p.senior.deposited amount
  require (newSenior ≤ seniorTarget) (.error .AdvanceRateExceeded)

def getAdvanceRateHeadroom (p : TranchePool) : ℤ :=
  if 10000 ≤ p.rate then 2 ^ 127 - 1
  else
    match checkedMul p.rate p.junior.deposited with
    | none => 2 ^ 127 - 1
    | some juniorTerm =>
      match checkedMul (10000 - p.rate) p.senior.deposited with
      | none => 2 ^ 127 - 1
      | some seniorTerm =>
        match checkedSub juniorTerm seniorTerm with
        | none => 0
        | some numerator => if numerator ≤ 0 then 0 else numerator.tdiv (10000 - p.rate)

end Astera.Tranche
