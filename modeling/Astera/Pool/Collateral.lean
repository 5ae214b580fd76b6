import Astera.Pool.Repayment

/-!
# Collateral

Posting, topping up and seizing the collateral of an invoice.
-/

namespace Astera.Pool

open Fallible Machine

variable {W : Type}
variable {h : Host W} {signers : List Address} {s s' : State W} {invoiceId : ℕ}

/-- `deposit_collateral`: the collateral configuration in force is stored with the deposit. -/
def depositCollateral (h : Host W) (signers : List Address) (s : State W) (invoiceId : ℕ)
    (depositor token : Address) (amount : ℤ) : Res (State W) := do
  requireAuth signers depositor
  s.requireNotPaused
  s.assertAcceptedToken token
  require (0 < amount) (.err .InvalidAmount)
  require (s.funded.get invoiceId = none) (.err .StorageCorrupted)
  require (s.collateral.get invoiceId = none) (.err .StorageCorrupted)
  let s ← s.transfer token depositor h.self amount
  let config := s.params.collateralConfig
  let record : CollateralDeposit :=
    { invoiceId := invoiceId, depositor := depositor, token := token, amount := amount
      settled := false, postedAt := s.now, releasedAt := 0, seizedAt := 0
      collateralBpsAtDeposit := config.collateralBps, thresholdAtDeposit := config.threshold }
  return { s with collateral := s.collateral.set invoiceId record }

def topUpCollateral (h : Host W) (signers : List Address) (s : State W) (invoiceId : ℕ)
    (depositor token : Address) (amount : ℤ) : Res (State W) := do
  requireAuth signers depositor
  s.requireNotPaused
  s.assertAcceptedToken token
  require (0 < amount) (.err .InvalidAmount)
  let record ← okOr (s.collateral.get invoiceId) (.err .CollateralNotFound)
  require (record.settled = false ∧ record.depositor = depositor ∧ record.token = token)
    (.err .StorageCorrupted)
  let s ← s.transfer token depositor h.self amount
  let amount ← okOr (checkedAdd record.amount amount) overflowErr
  return { s with collateral := s.collateral.set invoiceId { record with amount := amount } }

/-- `risk_liquidate_collateral`: the seized amount is added to the pool value and then sent to the
risk contract. -/
def riskLiquidateCollateral (h : Host W) (signers : List Address) (s : State W) (caller : Address)
    (invoiceId : ℕ) : Res (State W) := do
  requireAuth signers caller
  let trusted ← okOr s.params.riskContract (.err .NotInitialized)
  require (caller = trusted) (.err .Unauthorized)
  s.requireNotPaused
  let deposit ← okOr (s.collateral.get invoiceId) (.err .CollateralNotFound)
  require (deposit.settled = false) (.err .CollateralAlreadySettled)
  let tt := s.tt deposit.token
  let poolValue ← okOr (checkedAdd tt.poolValue deposit.amount) overflowErr
  let s := { s.setTotals deposit.token { tt with poolValue := poolValue } with
    collateral := s.collateral.set invoiceId { deposit with settled := true, seizedAt := s.now } }
  s.transfer deposit.token h.self caller deposit.amount

/-- `seize_collateral_core`: write the principal off the loan token's totals and credit the
collateral to the collateral token's totals. -/
def seizeCollateralCore (h : Host W) (s : State W) (invoiceId : ℕ) : Res (State W) := do
  let record ← okOr (s.funded.get invoiceId) (.err .InvoiceNotFound)
  let (_, totalDue) ← calculateTotalDue record s.params.config.compoundInterest s.now
  require (record.repaidAmount < totalDue) (.err .AlreadyFullyRepaid)
  require (h.isInvoiceDefaulted s.world s.params.config.invoiceContract invoiceId = some true)
    (.err .NotDefaulted)
  let col ← okOr (s.collateral.get invoiceId) (.err .CollateralNotFound)
  require (col.settled = false) (.err .CollateralAlreadySettled)
  let loanTt := s.tt record.token
  let poolValue ← okOr (checkedSub loanTt.poolValue record.principal) overflowErr
  let totalDeployed ← okOr (checkedSub loanTt.totalDeployed record.principal) overflowErr
  let s := s.setTotals record.token
    { loanTt with poolValue := poolValue, totalDeployed := totalDeployed }
  let colTt := s.tt col.token
  let poolValue ← okOr (checkedAdd colTt.poolValue col.amount) overflowErr
  return { s.setTotals col.token { colTt with poolValue := poolValue } with
    collateral := s.collateral.set invoiceId { col with settled := true, seizedAt := s.now } }

def liquidateInvoice (h : Host W) (signers : List Address) (s : State W) (caller : Address)
    (invoiceId : ℕ) : Res (State W) := do
  requireAuth signers caller
  s.requireNotPaused
  seizeCollateralCore h s invoiceId

theorem depositCollateral_eq_ok {depositor token : Address} {amount : ℤ}
    (hd : depositCollateral h signers s invoiceId depositor token amount = .ok s') :
    depositor ∈ signers ∧ 0 < amount ∧ s.funded.get invoiceId = none ∧
    s.collateral.get invoiceId = none ∧
    s' = { s with
      cash := State.moveCash s.cash token depositor h.self amount
      collateral := s.collateral.set invoiceId
        { invoiceId := invoiceId, depositor := depositor, token := token, amount := amount
          settled := false, postedAt := s.now, releasedAt := 0, seizedAt := 0
          collateralBpsAtDeposit := s.params.collateralConfig.collateralBps
          thresholdAtDeposit := s.params.collateralConfig.threshold } } := by
  unfold depositCollateral at hd
  simp only [bind_eq_ok, requireAuth_eq_ok, require_eq_ok, exists_unit, State.transfer_eq_ok,
    pure_eq_ok] at hd
  obtain ⟨hauth, -, -, hpos, hfunded, hcol, _, ⟨-, -, rfl⟩, rfl⟩ := hd
  exact ⟨hauth, hpos, hfunded, hcol, rfl⟩

theorem topUpCollateral_eq_ok {depositor token : Address} {amount : ℤ}
    (hd : topUpCollateral h signers s invoiceId depositor token amount = .ok s') :
    ∃ record, depositor ∈ signers ∧ 0 < amount ∧ s.collateral.get invoiceId = some record ∧
      record.settled = false ∧ record.token = token ∧
      s' = { s with
        cash := State.moveCash s.cash token depositor h.self amount
        collateral := s.collateral.set invoiceId
          { record with amount := record.amount + amount } } := by
  unfold topUpCollateral at hd
  simp only [bind_eq_ok, requireAuth_eq_ok, require_eq_ok, exists_unit, okOr_eq_ok,
    State.transfer_eq_ok, checkedAdd_eq_some, pure_eq_ok] at hd
  obtain ⟨hauth, -, -, hpos, record, hrecord, ⟨hset, -, htok⟩, _, ⟨-, -, rfl⟩, _, ⟨rfl, -⟩, rfl⟩ := hd
  exact ⟨record, hauth, hpos, hrecord, hset, htok, rfl⟩

theorem riskLiquidateCollateral_eq_ok {caller : Address}
    (hr : riskLiquidateCollateral h signers s caller invoiceId = .ok s') :
    ∃ col, s.collateral.get invoiceId = some col ∧ col.settled = false ∧ 0 ≤ col.amount ∧
      InI128 ((s.tt col.token).poolValue + col.amount) ∧
      s' = { s with
        totals := Function.update s.totals col.token
          (some { s.tt col.token with poolValue := (s.tt col.token).poolValue + col.amount })
        collateral := s.collateral.set invoiceId { col with settled := true, seizedAt := s.now }
        cash := State.moveCash s.cash col.token h.self caller col.amount } := by
  unfold riskLiquidateCollateral at hr
  simp only [bind_eq_ok, require_eq_ok, exists_unit, okOr_eq_ok, checkedAdd_eq_some,
    State.transfer_eq_ok] at hr
  obtain ⟨-, _, -, -, -, col, hcol, hset, _, ⟨rfl, hrange⟩, hnn, -, rfl⟩ := hr
  exact ⟨col, hcol, hset, hnn, hrange, rfl⟩

theorem seizeCollateralCore_eq_ok (hs : seizeCollateralCore h s invoiceId = .ok s') :
    ∃ record col loan, s.funded.get invoiceId = some record ∧
      s.collateral.get invoiceId = some col ∧ col.settled = false ∧
      InI128 ((s.tt record.token).poolValue - record.principal) ∧
      loan = { s.tt record.token with
        poolValue := (s.tt record.token).poolValue - record.principal
        totalDeployed := (s.tt record.token).totalDeployed - record.principal } ∧
      InI128 (((s.setTotals record.token loan).tt col.token).poolValue + col.amount) ∧
      s' = { s with
        totals := Function.update (Function.update s.totals record.token (some loan)) col.token
          (some { (s.setTotals record.token loan).tt col.token with
            poolValue := ((s.setTotals record.token loan).tt col.token).poolValue + col.amount })
        collateral := s.collateral.set invoiceId
          { col with settled := true, seizedAt := s.now } } := by
  unfold seizeCollateralCore at hs
  simp only [bind_eq_ok, require_eq_ok, exists_unit, okOr_eq_ok, checkedAdd_eq_some,
    checkedSub_eq_some, pure_eq_ok] at hs
  obtain ⟨record, hrecord, ⟨_, _⟩, -, -, -, col, hcol, hset, _, ⟨rfl, hpv⟩, _, ⟨rfl, -⟩, _,
    ⟨rfl, hcolRange⟩, rfl⟩ := hs
  exact ⟨record, col, _, hrecord, hcol, hset, hpv, rfl, hcolRange, rfl⟩

theorem liquidateInvoice_eq_ok {caller : Address}
    (hl : liquidateInvoice h signers s caller invoiceId = .ok s') :
    seizeCollateralCore h s invoiceId = .ok s' := by
  unfold liquidateInvoice at hl
  simp only [bind_eq_ok, exists_unit] at hl
  exact hl.2.2

end Astera.Pool
