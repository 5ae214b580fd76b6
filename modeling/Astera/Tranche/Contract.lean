import Astera.Lib.Transition
import Astera.Tranche.State

/-!
# The tranche contract as a machine

The asset and share tokens are other contracts, of whose calls only success and failure matter.  The
public entrypoints of `distribute_waterfall_repayment` and `allocate_loss` add guards; they are run
here without any, by anybody.
-/

namespace Astera.Tranche

open Fallible Machine Transition

variable {W : Type}

/-- The contracts that the tranche contract calls; a call that traps returns nothing. -/
structure Neighbours (W : Type) where
  self : Address
  /-- `transfer` of an asset token: the token, the sender, the receiver and the amount. -/
  transfer : W → Address → Address → Address → ℤ → Option W
  /-- `mint` of a share token: the token, the receiver and the amount. -/
  mint : W → Address → Address → ℤ → Option W
  /-- `burn` of a share token: the token, the holder and the amount. -/
  burn : W → Address → Address → ℤ → Option W

/-- The storage of the tranche contract, and the other contracts. -/
structure State (W : Type) where
  admin : Address
  paused : Bool := false
  pools : Address → Option TranchePool
  positions : Store (Address × Address × TrancheClass) InvestorPosition := ∅
  exposures : Store ℕ InvoiceTrancheExposure := ∅
  world : W

namespace State

def getPool (s : State W) (token : Address) : Res TranchePool :=
  okOr (s.pools token) (.error .PoolNotFound)

def setPool (s : State W) (token : Address) (p : TranchePool) : State W :=
  { s with pools := Function.update s.pools token (some p) }

def position (s : State W) (investor token : Address) (tranche : TrancheClass) :
    InvestorPosition :=
  (s.positions.get (investor, token, tranche)).getD {}

def setPosition (s : State W) (investor token : Address) (tranche : TrancheClass)
    (position : InvestorPosition) : State W :=
  { s with positions := s.positions.set (investor, token, tranche) position }

def getExposure (s : State W) (invoiceId : ℕ) : Res InvoiceTrancheExposure :=
  okOr (s.exposures.get invoiceId) (.error .ExposureNotFound)

end State

def requireAuth (signers : List Address) (a : Address) : Res Unit := require (a ∈ signers) .auth

def requireNotPaused (s : State W) : Res Unit :=
  require (s.paused = false) (.error .ContractPaused)

/-! ## Deposits and withdrawals -/

def poolValue (a : TrancheAccounting) : Res ℤ := do
  sub (← add a.deposited a.earned) a.losses

/-- `update_accounting` of `deposit`. -/
def depositAccounting (a : TrancheAccounting) (amount : ℤ) : Res TrancheAccounting := do
  let deposited ← add a.deposited amount
  let available ← add a.available amount
  return { a with deposited := deposited, available := available }

/-- Only a senior deposit is held to the advance rate. -/
def checkDeposit (p : TranchePool) (tranche : TrancheClass) (amount : ℤ) : Res Unit :=
  match tranche with
  | .Senior => checkAdvanceRate p amount
  | .Junior => .ok ()

def deposit (n : Neighbours W) (signers : List Address) (s : State W) (investor token : Address)
    (tranche : TrancheClass) (amount : ℤ) : Res (State W) := do
  require (0 < amount) (.error .InvalidAmount)
  requireAuth signers investor
  let world ← okOr (n.transfer s.world token investor n.self amount) .call
  let pool ← s.getPool token
  let position := s.position investor token tranche
  checkDeposit pool tranche amount
  let accounting ← depositAccounting (pool.accounting tranche) amount
  let deposited ← add position.deposited amount
  let value ← poolValue accounting
  let sharesToMint := calculateSharesToMint amount value accounting.totalShares
  let shares ← add position.shares sharesToMint
  let totalShares ← add accounting.totalShares sharesToMint
  let pool := pool.setAccounting tranche { accounting with totalShares := totalShares }
  let s := s.setPosition investor token tranche
    { position with deposited := deposited, shares := shares }
  let world ← okOr (n.mint world (pool.shareToken tranche) investor sharesToMint) .call
  return { s.setPool token pool with world := world }

def depositTranche (n : Neighbours W) (signers : List Address) (s : State W)
    (investor token : Address) (tranche : TrancheClass) (amount : ℤ) : Res (State W) := do
  requireNotPaused s
  deposit n signers s investor token tranche amount

/-- `update_accounting` of `withdraw`. -/
def withdrawAccounting (a : TrancheAccounting) (amount : ℤ) : Res TrancheAccounting := do
  require (amount ≤ a.available) (.error .InsufficientBalance)
  let available ← sub a.available amount
  let deposited ← sub a.deposited amount
  return { a with available := available, deposited := deposited }

/-- The check of `withdraw` that the senior class still keeps to its share of the pool. -/
def checkJuniorWithdrawal (p : TranchePool) : Res Unit := do
  let newTotalDeposited ← add p.junior.deposited p.senior.deposited
  if 0 < newTotalDeposited then
    let product ← mul p.rate newTotalDeposited
    let seniorTarget := product.tdiv 10000
    require (p.senior.deposited ≤ seniorTarget) (.error .AdvanceRateExceeded)

/-- Only a junior withdrawal is held to the advance rate. -/
def checkWithdrawal (p : TranchePool) (tranche : TrancheClass) : Res Unit :=
  match tranche with
  | .Senior => .ok ()
  | .Junior => checkJuniorWithdrawal p

/-- Book a profit, or a loss when it is negative. -/
def bookPnl (position : InvestorPosition) (pnl : ℤ) : Res InvestorPosition := do
  if 0 ≤ pnl then
    let earned ← add position.earned pnl
    return { position with earned := earned }
  else
    let losses ← add position.losses (← sub 0 pnl)
    return { position with losses := losses }

/-- The position after a withdrawal: the part of the cost basis that the shares stand for is
realized. -/
def realizePosition (position : InvestorPosition) (amount sharesToBurn : ℤ) :
    Res InvestorPosition := do
  let costBasis ← div (← mul position.deposited sharesToBurn) position.shares
  let pnl ← sub amount costBasis
  let position ← bookPnl position pnl
  let shares ← sub position.shares sharesToBurn
  let deposited ← sub position.deposited amount
  return { position with shares := shares, deposited := deposited }

def withdraw (n : Neighbours W) (signers : List Address) (s : State W) (investor token : Address)
    (tranche : TrancheClass) (amount : ℤ) : Res (State W) := do
  require (0 < amount) (.error .InvalidAmount)
  requireAuth signers investor
  let pool ← s.getPool token
  let position := s.position investor token tranche
  require (amount ≤ position.deposited) (.error .InsufficientBalance)
  let value ← poolValue (pool.accounting tranche)
  let sharesToBurn := calculateSharesToMint amount value (pool.accounting tranche).totalShares
  require (sharesToBurn ≤ position.shares) (.error .InsufficientBalance)
  let accounting ← withdrawAccounting (pool.accounting tranche) amount
  let totalShares ← sub accounting.totalShares sharesToBurn
  let pool := pool.setAccounting tranche { accounting with totalShares := totalShares }
  checkWithdrawal pool tranche
  let position ← realizePosition position amount sharesToBurn
  let world ← okOr (n.transfer s.world token n.self investor amount) .call
  let s := s.setPosition investor token tranche position
  let world ← okOr (n.burn world (pool.shareToken tranche) investor sharesToBurn) .call
  return { s.setPool token pool with world := world }

def withdrawTranche (n : Neighbours W) (signers : List Address) (s : State W)
    (investor token : Address) (tranche : TrancheClass) (amount : ℤ) : Res (State W) := do
  requireNotPaused s
  withdraw n signers s investor token tranche amount

/-! ## Invoices -/

/-- Move an amount from the available to the deployed capital. -/
def deploy (a : TrancheAccounting) (amount : ℤ) : Res TrancheAccounting := do
  let available ← sub a.available amount
  let deployed ← add a.deployed amount
  return { a with available := available, deployed := deployed }

/-- The senior and the junior part of a funding. -/
def fundingSplit (p : TranchePool) (totalAmount : ℤ) : Res (ℤ × ℤ) := do
  let product ← mul totalAmount p.rate
  let seniorAmount := product.tdiv 10000
  let juniorAmount ← sub totalAmount seniorAmount
  return (seniorAmount, juniorAmount)

def fundInvoiceFromTranches (signers : List Address) (s : State W) (token : Address)
    (invoiceId : ℕ) (totalAmount : ℤ) : Res (State W) := do
  requireNotPaused s
  requireAuth signers s.admin
  require (0 < totalAmount) (.error .InvalidAmount)
  require (s.exposures.get invoiceId = none) (.error .AlreadyInitialized)
  let pool ← s.getPool token
  let (seniorAmount, juniorAmount) ← fundingSplit pool totalAmount
  require (seniorAmount ≤ pool.senior.available) (.error .InsufficientBalance)
  require (juniorAmount ≤ pool.junior.available) (.error .InsufficientBalance)
  let senior ← deploy pool.senior seniorAmount
  let junior ← deploy pool.junior juniorAmount
  let s := { s with exposures := s.exposures.set invoiceId ⟨seniorAmount, juniorAmount⟩ }
  return s.setPool token { pool with senior := senior, junior := junior }

/-- The accounting after a repayment: the exposure is released, and all that was paid is earned. -/
def bookRepayment (a : TrancheAccounting) (exposure amount : ℤ) : Res TrancheAccounting := do
  let deployed ← sub a.deployed exposure
  let earned ← add a.earned amount
  let available ← add a.available amount
  return { a with deployed := deployed, earned := earned, available := available }

def distributeWaterfallRepayment (s : State W) (token : Address) (invoiceId : ℕ) (totalDue : ℤ)
    (elapsedSecs : ℕ) : Res (State W) := do
  require (0 < totalDue) (.error .InvalidAmount)
  let pool ← s.getPool token
  let exposure ← s.getExposure invoiceId
  let (seniorAmount, juniorAmount) ← calculateWaterfallSplit totalDue exposure.seniorDeployed
    pool.config.1.seniorTargetYieldBps elapsedSecs
  let senior ← bookRepayment pool.senior exposure.seniorDeployed seniorAmount
  let junior ← bookRepayment pool.junior exposure.juniorDeployed juniorAmount
  let s := s.setPool token { pool with senior := senior, junior := junior }
  return { s with exposures := s.exposures.remove invoiceId }

/-- The part of a loss that is charged to the available capital. -/
def availableLoss (a : TrancheAccounting) (total loss : ℤ) : Res ℤ := do
  let scaled ← mulU (toU 128 a.deployed) 10000
  let deployedRatio := scaled / toU 128 total
  let rest ← subU 10000 deployedRatio
  let product ← mulU (toU 128 loss) rest
  return toI128 (product / 10000)

/-- Charge a loss to a class, in proportion to its deployed and its available capital. -/
def chargeLoss (a : TrancheAccounting) (loss : ℤ) : Res TrancheAccounting := do
  if 0 < loss then
    let losses ← add a.losses loss
    let total ← add a.deployed a.available
    if 0 < total then
      let availableLoss ← availableLoss a total loss
      let deployedLoss ← sub loss availableLoss
      let deployed ← sub a.deployed deployedLoss
      let available ← sub a.available availableLoss
      return { a with losses := losses, deployed := deployed, available := available }
    else return { a with losses := losses }
  else return a

/-- Without a loss the exposure is taken off the deployed capital. -/
def releaseExposure (a : TrancheAccounting) (loss exposure : ℤ) : Res TrancheAccounting := do
  if loss = 0 then
    let deployed ← sub a.deployed exposure
    return { a with deployed := deployed }
  else return a

def allocateLoss (s : State W) (token : Address) (invoiceId : ℕ) (shortfall : ℤ) :
    Res (State W) := do
  let pool ← s.getPool token
  let exposure ← s.getExposure invoiceId
  let juniorRemaining ← add pool.junior.deployed pool.junior.available
  let (juniorLoss, seniorLoss) ←
    calculateLossAllocation shortfall juniorRemaining pool.config.1.juniorFirstLossBps
  let junior ← chargeLoss pool.junior juniorLoss
  let senior ← chargeLoss pool.senior seniorLoss
  let junior ← releaseExposure junior juniorLoss exposure.juniorDeployed
  let senior ← releaseExposure senior seniorLoss exposure.seniorDeployed
  let s := s.setPool token { pool with senior := senior, junior := junior }
  return { s with exposures := s.exposures.remove invoiceId }

def requireAdmin (signers : List Address) (s : State W) (admin : Address) : Res Unit := do
  requireAuth signers admin
  require (admin = s.admin) (.error .Unauthorized)

def setTrancheConfig (signers : List Address) (s : State W) (admin token : Address)
    (config : TrancheConfig) : Res (State W) := do
  requireAdmin signers s admin
  let config ← validateConfig config
  let pool ← s.getPool token
  return s.setPool token { pool with config := config }

def openTrancheForToken (signers : List Address) (s : State W)
    (admin token seniorShareToken juniorShareToken : Address) (config : TrancheConfig) :
    Res (State W) := do
  requireAdmin signers s admin
  let config ← validateConfig config
  require (seniorShareToken ≠ juniorShareToken) (.error .InvalidShareTokens)
  match s.pools token with
  | some existing =>
    return s.setPool token { existing with
      seniorShareToken := seniorShareToken
      juniorShareToken := juniorShareToken
      config := config }
  | none =>
    return s.setPool token
      { seniorShareToken := seniorShareToken
        juniorShareToken := juniorShareToken
        config := config }

def initialState (world : W) (admin token seniorShareToken juniorShareToken : Address)
    (config : ValidConfig) : State W where
  admin := admin
  pools := Function.update (fun _ => none) token (some
    { seniorShareToken := seniorShareToken
      juniorShareToken := juniorShareToken
      config := config })
  world := world

inductive Call (W : Type)
  | depositTranche (investor token : Address) (tranche : TrancheClass) (amount : ℤ)
  | withdrawTranche (investor token : Address) (tranche : TrancheClass) (amount : ℤ)
  | fundInvoiceFromTranches (token : Address) (invoiceId : ℕ) (totalAmount : ℤ)
  | distributeWaterfallRepayment (token : Address) (invoiceId : ℕ) (totalDue : ℤ)
      (elapsedSecs : ℕ)
  | allocateLoss (token : Address) (invoiceId : ℕ) (shortfall : ℤ)
  | setTrancheConfig (admin token : Address) (config : TrancheConfig)
  | openTrancheForToken (admin token seniorShareToken juniorShareToken : Address)
      (config : TrancheConfig)
  | setPaused (paused : Bool)
  | neighbours (world : W)

structure Tx (W : Type) where
  signers : List Address
  call : Call W

def exec (n : Neighbours W) (s : State W) (tx : Tx W) : Res (State W) :=
  let signers := tx.signers
  match tx.call with
  | .depositTranche investor token tranche amount =>
    depositTranche n signers s investor token tranche amount
  | .withdrawTranche investor token tranche amount =>
    withdrawTranche n signers s investor token tranche amount
  | .fundInvoiceFromTranches token invoiceId totalAmount =>
    fundInvoiceFromTranches signers s token invoiceId totalAmount
  | .distributeWaterfallRepayment token invoiceId totalDue elapsedSecs =>
    distributeWaterfallRepayment s token invoiceId totalDue elapsedSecs
  | .allocateLoss token invoiceId shortfall => allocateLoss s token invoiceId shortfall
  | .setTrancheConfig admin token config => setTrancheConfig signers s admin token config
  | .openTrancheForToken admin token seniorShareToken juniorShareToken config =>
    openTrancheForToken signers s admin token seniorShareToken juniorShareToken config
  | .setPaused paused => .ok { s with paused := paused }
  | .neighbours world => .ok { s with world := world }

/-! ## What the operations do -/

def TranchePool.withAccounts (p : TranchePool) (accounts : TrancheClass → TrancheAccounting) :
    TranchePool :=
  { p with senior := accounts .Senior, junior := accounts .Junior }

@[simp]
theorem TranchePool.accounting_withAccounts (p : TranchePool)
    (accounts : TrancheClass → TrancheAccounting) (c : TrancheClass) :
    (p.withAccounts accounts).accounting c = accounts c := by
  cases c <;> rfl

def perClass {α : Type} (senior junior : α) : TrancheClass → α
  | .Senior => senior
  | .Junior => junior

section Results

variable {n : Neighbours W} {signers : List Address} {s s' : State W} {investor token : Address}
  {tranche : TrancheClass} {amount : ℤ} {invoiceId : ℕ}

@[simp]
theorem requireAuth_eq_ok {a : Address} {u : Unit} :
    requireAuth signers a = .ok u ↔ a ∈ signers := require_eq_ok _ _ _

@[simp]
theorem getPool_eq_ok {p : TranchePool} : s.getPool token = .ok p ↔ s.pools token = some p :=
  okOr_eq_ok _ _ _

@[simp]
theorem getExposure_eq_ok {e : InvoiceTrancheExposure} :
    s.getExposure invoiceId = .ok e ↔ s.exposures.get invoiceId = some e := okOr_eq_ok _ _ _

/-- The account after a deposit of `amount`, or after a withdrawal when it is negative. -/
def TrancheAccounting.moved (a : TrancheAccounting) (amount totalShares : ℤ) :
    TrancheAccounting :=
  { a with
    deposited := a.deposited + amount
    available := a.available + amount
    totalShares := totalShares }

/-- A deposit or a withdrawal changes the position of the investor and the account of the class. -/
def Moved (s : State W) (investor token : Address) (tranche : TrancheClass) (amount : ℤ)
    (pool : TranchePool) (s' : State W) : Prop :=
  ∃ totalShares position world,
    position.deposited = (s.position investor token tranche).deposited + amount ∧
    s' = { (s.setPosition investor token tranche position).setPool token
      (pool.setAccounting tranche ((pool.accounting tranche).moved amount totalShares)) with
        world := world }

theorem depositTranche_eq_ok
    (h : depositTranche n signers s investor token tranche amount = .ok s') :
    0 < amount ∧ ∃ pool, s.pools token = some pool ∧
      checkDeposit pool tranche amount = .ok () ∧
      Moved s investor token tranche amount pool s' := by
  unfold depositTranche deposit depositAccounting at h
  simp only [bind_eq_ok, require_eq_ok, requireAuth_eq_ok, getPool_eq_ok, okOr_eq_ok, add_eq_ok,
    exists_unit, pure_eq_ok] at h
  obtain ⟨-, hpos, -, world, -, pool, hpool, hrate, _, ⟨_, ⟨rfl, -⟩, _, ⟨rfl, -⟩, rfl⟩, _,
    ⟨rfl, -⟩, value, -, shares, -, _, -, world', -, rfl⟩ := h
  exact ⟨hpos, pool, hpool, hrate, _, _, _, rfl, rfl⟩

theorem realizePosition_eq_ok {position position' : InvestorPosition} {shares : ℤ}
    (h : realizePosition position amount shares = .ok position') :
    position'.deposited = position.deposited - amount := by
  unfold realizePosition at h
  simp only [bind_eq_ok, sub_eq_ok, pure_eq_ok] at h
  obtain ⟨-, -, -, -, pnl, -, realized, hrealized, _, -, _, ⟨rfl, -⟩, rfl⟩ := h
  have hdeposited : realized.deposited = position.deposited := by
    unfold bookPnl at hrealized
    split_ifs at hrealized
    · simp only [bind_eq_ok, pure_eq_ok] at hrealized
      obtain ⟨_, -, rfl⟩ := hrealized
      rfl
    · simp only [bind_eq_ok, pure_eq_ok] at hrealized
      obtain ⟨_, -, _, -, rfl⟩ := hrealized
      rfl
  show realized.deposited - amount = _
  rw [hdeposited]

theorem withdrawTranche_eq_ok
    (h : withdrawTranche n signers s investor token tranche amount = .ok s') :
    0 < amount ∧ amount ≤ (s.position investor token tranche).deposited ∧
    ∃ pool pool', s.pools token = some pool ∧ s'.pools token = some pool' ∧
      amount ≤ (pool.accounting tranche).available ∧ checkWithdrawal pool' tranche = .ok () ∧
      Moved s investor token tranche (-amount) pool s' := by
  unfold withdrawTranche withdraw withdrawAccounting at h
  simp only [bind_eq_ok, require_eq_ok, requireAuth_eq_ok, getPool_eq_ok, okOr_eq_ok, sub_eq_ok,
    exists_unit, pure_eq_ok] at h
  obtain ⟨-, hpos, -, pool, hpool, hdeposited, value, -, -, _,
    ⟨havailable, _, ⟨rfl, -⟩, _, ⟨rfl, -⟩, rfl⟩, totalShares, -, hcheck, position, hposition,
    world, -, world', -, rfl⟩ := h
  refine ⟨hpos, hdeposited, pool, _, hpool, Function.update_self _ _ _, havailable, hcheck,
    totalShares, position, world', realizePosition_eq_ok hposition, ?_⟩
  rfl

theorem fundInvoiceFromTranches_eq_ok {totalAmount : ℤ}
    (h : fundInvoiceFromTranches signers s token invoiceId totalAmount = .ok s') :
    0 < totalAmount ∧ s.exposures.get invoiceId = none ∧ ∃ pool e, s.pools token = some pool ∧
      fundingSplit pool totalAmount = .ok (e.seniorDeployed, e.juniorDeployed) ∧
      (∀ c, e.deployed c ≤ (pool.accounting c).available) ∧
      s' = { s with
        exposures := s.exposures.set invoiceId e
        pools := Function.update s.pools token (some (pool.withAccounts fun c =>
          { pool.accounting c with
            available := (pool.accounting c).available - e.deployed c
            deployed := (pool.accounting c).deployed + e.deployed c })) } := by
  unfold fundInvoiceFromTranches deploy at h
  simp only [bind_eq_ok, require_eq_ok, requireAuth_eq_ok, getPool_eq_ok, sub_eq_ok, add_eq_ok,
    exists_unit, pure_eq_ok, Prod.exists] at h
  obtain ⟨-, -, hpos, hnone, pool, hpool, senior, junior, hsplit, hsenior, hjunior, _,
    ⟨_, ⟨rfl, -⟩, _, ⟨rfl, -⟩, rfl⟩, _, ⟨_, ⟨rfl, -⟩, _, ⟨rfl, -⟩, rfl⟩, rfl⟩ := h
  refine ⟨hpos, hnone, pool, ⟨senior, junior⟩, hpool, hsplit, fun c => ?_, rfl⟩
  cases c
  · exact hsenior
  · exact hjunior

theorem bookRepayment_eq_ok {a a' : TrancheAccounting} {exposure : ℤ}
    (h : bookRepayment a exposure amount = .ok a') :
    a' = { a with
      deployed := a.deployed - exposure
      earned := a.earned + amount
      available := a.available + amount } := by
  unfold bookRepayment at h
  simp only [bind_eq_ok, sub_eq_ok, add_eq_ok, pure_eq_ok] at h
  obtain ⟨_, ⟨rfl, -⟩, _, ⟨rfl, -⟩, _, ⟨rfl, -⟩, rfl⟩ := h
  rfl

theorem distributeWaterfallRepayment_eq_ok {totalDue : ℤ} {elapsedSecs : ℕ}
    (h : distributeWaterfallRepayment s token invoiceId totalDue elapsedSecs = .ok s') :
    0 < totalDue ∧ ∃ (pool : TranchePool) (e : InvoiceTrancheExposure) (paid : TrancheClass → ℤ),
      s.pools token = some pool ∧ s.exposures.get invoiceId = some e ∧
      calculateWaterfallSplit totalDue e.seniorDeployed pool.config.1.seniorTargetYieldBps
        elapsedSecs = .ok (paid .Senior, paid .Junior) ∧
      s' = { s with
        exposures := s.exposures.remove invoiceId
        pools := Function.update s.pools token (some (pool.withAccounts fun c =>
          { pool.accounting c with
            deployed := (pool.accounting c).deployed - e.deployed c
            earned := (pool.accounting c).earned + paid c
            available := (pool.accounting c).available + paid c })) } := by
  unfold distributeWaterfallRepayment at h
  simp only [bind_eq_ok, require_eq_ok, getPool_eq_ok, getExposure_eq_ok, exists_unit, pure_eq_ok,
    Prod.exists] at h
  obtain ⟨hpos, pool, hpool, e, he, senior, junior, hsplit, _, hsenior, _, hjunior, rfl⟩ := h
  obtain rfl := bookRepayment_eq_ok hsenior
  obtain rfl := bookRepayment_eq_ok hjunior
  exact ⟨hpos, pool, e, perClass senior junior, hpool, he, hsplit, rfl⟩

def lossOn (a : TrancheAccounting) (loss exposure : ℤ) : Res TrancheAccounting := do
  releaseExposure (← chargeLoss a loss) loss exposure

theorem allocateLoss_eq_ok {shortfall : ℤ} (h : allocateLoss s token invoiceId shortfall = .ok s') :
    ∃ (pool : TranchePool) (e : InvoiceTrancheExposure) (loss : TrancheClass → ℤ)
      (accounts : TrancheClass → TrancheAccounting),
      s.pools token = some pool ∧ s.exposures.get invoiceId = some e ∧
      calculateLossAllocation shortfall (pool.junior.deployed + pool.junior.available)
        pool.config.1.juniorFirstLossBps = .ok (loss .Junior, loss .Senior) ∧
      (∀ c, lossOn (pool.accounting c) (loss c) (e.deployed c) = .ok (accounts c)) ∧
      s' = { s with
        exposures := s.exposures.remove invoiceId
        pools := Function.update s.pools token (some (pool.withAccounts accounts)) } := by
  unfold allocateLoss at h
  simp only [bind_eq_ok, getPool_eq_ok, getExposure_eq_ok, add_eq_ok, pure_eq_ok, Prod.exists] at h
  obtain ⟨pool, hpool, e, he, _, ⟨rfl, -⟩, juniorLoss, seniorLoss, hsplit, junior₁, hjunior₁,
    senior₁, hsenior₁, junior, hjunior, senior, hsenior, rfl⟩ := h
  refine ⟨pool, e, perClass seniorLoss juniorLoss, perClass senior junior, hpool, he, hsplit,
    fun c => ?_, rfl⟩
  cases c
  · exact (bind_eq_ok _ _ _).2 ⟨senior₁, hsenior₁, hsenior⟩
  · exact (bind_eq_ok _ _ _).2 ⟨junior₁, hjunior₁, hjunior⟩

theorem setTrancheConfig_eq_ok {admin : Address} {config : TrancheConfig}
    (h : setTrancheConfig signers s admin token config = .ok s') :
    ∃ pool valid, s.pools token = some pool ∧
      s' = s.setPool token { pool with config := valid } := by
  unfold setTrancheConfig at h
  simp only [bind_eq_ok, getPool_eq_ok, pure_eq_ok] at h
  obtain ⟨-, -, valid, -, pool, hpool, rfl⟩ := h
  exact ⟨pool, valid, hpool, rfl⟩

theorem openTrancheForToken_eq_ok {admin seniorShareToken juniorShareToken : Address}
    {config : TrancheConfig}
    (h : openTrancheForToken signers s admin token seniorShareToken juniorShareToken config =
      .ok s') :
    ∃ pool, s' = s.setPool token pool ∧
      ∀ c, pool.accounting c = ((s.pools token).map fun p => p.accounting c).getD {} := by
  unfold openTrancheForToken at h
  simp only [bind_eq_ok, exists_unit, require_eq_ok] at h
  obtain ⟨-, valid, -, -, h⟩ := h
  cases hpool : s.pools token with
  | some existing =>
    simp only [hpool, pure_eq_ok] at h
    exact ⟨_, h.symm, fun c => by cases c <;> rfl⟩
  | none =>
    simp only [hpool, pure_eq_ok] at h
    exact ⟨_, h.symm, fun c => by cases c <;> rfl⟩

end Results

/-! ## A sample contract -/

def quietNeighbours : Neighbours Unit where
  self := 0
  transfer := fun _ _ _ _ _ => some ()
  mint := fun _ _ _ _ => some ()
  burn := fun _ _ _ _ => some ()

/-- A pool for the token 10 with an advance rate of 80%, whose junior class bears losses first. -/
def samplePool : State Unit :=
  initialState () 1 10 20 21 ⟨⟨1000, 8000, 10000⟩, by decide⟩

end Astera.Tranche
