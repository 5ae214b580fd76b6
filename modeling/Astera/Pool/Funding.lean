import Astera.Pool.CoFunding

/-!
# Funding invoices

`fund_invoice` and `fund_multiple_invoices` share `fund_invoice_request`; the checks that only the
single entrypoint makes are collected in `fundInvoiceGuards`.
-/

namespace Astera.Pool

open Fallible Machine

variable {W : Type}
variable {h : Host W} {request : FundingRequest} {s s' : State W}

/-! ## The shared helper -/

/-- The fee rate of `resolve_factoring_fee`: that of the first tier that matches the borrower's
score, or the configured one. -/
def State.factoringFeeBps (h : Host W) (s : State W) (principal : ℤ) (sme : Address) : Res ℕ :=
  match s.params.creditScoreContract with
  | none => return s.params.config.factoringFeeBps
  | some contract => do
      let score ← okOr (h.getCreditScore s.world contract sme) (.trap .neighbour)
      let tier := s.params.feeTiers.find? fun tier => feeTierMatches tier principal score
      return (tier.map (·.feeBps)).getD s.params.config.factoringFeeBps

def State.resolveFactoringFee (h : Host W) (s : State W) (principal : ℤ) (sme token : Address) :
    Res ℤ := do
  let feeBps ← s.factoringFeeBps h principal sme
  let tokenConfig ← okOr (s.tokenConfig token) (.err .StorageCorrupted)
  let normalized ← normalizeToStroops principal tokenConfig.decimals
  let fee ← calculateFactoringFee normalized feeBps
  denormalizeFromStroops fee tokenConfig.decimals

/-- The rate an invoice locks in when it is funded: the curve at the utilization after this
funding, or the static yield. -/
def State.lockedYield (s : State W) (token : Address) (tt : PoolTokenTotals) : Res ℕ :=
  match s.params.rateModel token with
  | some model => do
      let utilization ← utilizationBps tt
      return computeCurrentRate utilization model
  | none => return s.params.config.yieldBps

/-- The utilization limit after a deployment; the utilization before it is computed for the warning
event only, but may trap. -/
def State.requireUtilization (s : State W) (tt : PoolTokenTotals) (prevDeployed : ℤ) : Res Unit :=
  if 0 < tt.poolValue then do
    let utilization ← shareBps tt.totalDeployed tt.poolValue
    require (utilization ≤ s.params.config.maxUtilizationBps) (.err .UtilizationLimitExceeded)
    let _ ← shareBps prevDeployed tt.poolValue
    return ()
  else return ()

/-- The record of a funded invoice after a request: a further funding only adds principal. -/
def fundedRecord (existing : Option FundedInvoice) (request : FundingRequest) (now : ℕ)
    (factoringFee : ℤ) (lockedYieldBps : ℕ) : Res FundedInvoice :=
  match existing with
  | some record => do
      let principal ← okOr (checkedAdd record.principal request.principal) overflowErr
      return { record with principal := principal }
  | none => return {
      invoiceId := request.invoiceId, sme := request.sme, token := request.token
      principal := request.principal, fundedAt := now, factoringFee := factoringFee
      dueDate := request.dueDate, repaidAmount := 0, coFundingRoundId := none
      lockedYieldBps := lockedYieldBps }

/-- The statistics after a request: only a new record counts. -/
def fundedStats (existing : Option FundedInvoice) (stats : PoolStorageStats) :
    Res PoolStorageStats :=
  if existing.isNone then stats.addFunded else return stats

/-- The insurance purchase at the end of a funding.  Its failure is ignored; a premium leaves the
pool's balance and is subtracted from the protocol revenue and from the pool value. -/
def State.purchaseInsurance (h : Host W) (s : State W) (request : FundingRequest) : State W :=
  match s.params.insuranceContract with
  | none => s
  | some contract =>
    match h.purchaseCoverage s.world contract request with
    | none => s
    | some (premium, world) =>
      match s.transfer request.token h.self contract premium with
      | .error _ => s
      | .ok paid =>
        let tt := paid.tt request.token
        { paid.setTotals request.token { tt with
            protocolRevenue := saturatingSub tt.protocolRevenue premium
            poolValue := saturatingSub tt.poolValue premium } with world := world }

/-- The effects of `fund_invoice_request` on the pool's books, up to the transfer of the principal.
The invoice contract is told about the funding twice. -/
def fundBooks (h : Host W) (s : State W) (request : FundingRequest) : Res (State W) := do
  let tt := s.tt request.token
  let totalDeployed ← okOr (checkedAdd tt.totalDeployed request.principal) overflowErr
  let newTt := { tt with totalDeployed := totalDeployed }
  let lockedYieldBps ← s.lockedYield request.token newTt
  let factoringFee ← s.resolveFactoringFee h request.principal request.sme request.token
  let existing := s.funded.get request.invoiceId
  let record ← fundedRecord existing request s.now factoringFee lockedYieldBps
  s.requireUtilization newTt tt.totalDeployed
  let stats ← fundedStats existing s.stats
  let ids := s.tokenInvoiceIds request.token
  let ids := if existing.isNone then ids ++ [request.invoiceId] else ids
  let contract := s.params.config.invoiceContract
  let world := h.recordFunding s.world contract request.invoiceId request.principal
  let world := h.recordFunding world contract request.invoiceId request.principal
  return { s with
    totals := Function.update s.totals request.token (some newTt)
    funded := s.funded.set request.invoiceId record
    tokenInvoiceIds := Function.update s.tokenInvoiceIds request.token ids
    stats := stats
    world := world }

/-- `fund_invoice_request` up to the insurance purchase. -/
def fundLoan (h : Host W) (s : State W) (request : FundingRequest) : Res (State W) := do
  require (0 < request.principal) (.err .InvalidAmount)
  let liquidity ← availableLiquidity (s.tt request.token)
  require (request.principal ≤ liquidity) (.err .InsufficientLiquidity)
  require (request.token ∈ s.acceptedTokens) (.err .TokenNotAccepted)
  require (s.now < request.dueDate) (.err .InvoiceExpired)
  let s ← fundBooks h s request
  let s ← s.transfer request.token h.self request.sme request.principal
  let s ← s.recordRateSnapshot request.token
  return s.notifyCreditScore h request.invoiceId request.sme request.principal

def fundInvoiceRequest (h : Host W) (s : State W) (request : FundingRequest) : Res (State W) := do
  let s ← fundLoan h s request
  return s.purchaseInsurance h request

/-- The collateral check of `fund_invoice`: a deposit is held against the configuration it was
posted under, and an invoice without a deposit against the present one. -/
def State.requireCollateral (h : Host W) (s : State W) (request : FundingRequest) : Res Unit :=
  match s.collateral.get request.invoiceId with
  | none => do
      let required ← requiredCollateral request.principal s.params.collateralConfig
      require (¬ 0 < required) (.err .CollateralNotFound)
  | some d => do
      let required ← requiredCollateral request.principal
        ⟨d.thresholdAtDeposit, d.collateralBpsAtDeposit⟩
      if 0 < required then do
        require (d.settled = false) (.err .CollateralAlreadySettled)
        if d.token = request.token then
          require (required ≤ d.amount) (.err .InvalidAmount)
        else do
          let collateralPrice ← s.getAssetPrice h d.token
          let fundingPrice ← s.getAssetPrice h request.token
          let collateralValue ← okOr (checkedMul d.amount collateralPrice) overflowErr
          let requiredValue ← okOr (checkedMul required fundingPrice) overflowErr
          require (¬ (0 < requiredValue ∧ collateralValue < requiredValue)) (.err .InvalidAmount)
      else return ()

/-- The checks that `fund_invoice` makes for a request and `fund_multiple_invoices` does not. -/
def fundInvoiceGuards (h : Host W) (s : State W) (request : FundingRequest) : Res Unit := do
  require (h.getAuthorizedPool s.world s.params.config.invoiceContract = some h.self)
    (.err .InvoicePoolMismatch)
  s.requireCollateral h request
  s.requireComplianceCleared h request.sme

/-- The checks both entrypoints make on their caller. -/
def fundCaller (signers : List Address) (s : State W) (admin : Address) : Res Unit := do
  requireAuth signers admin
  s.requireNotPaused
  s.requireAdmin admin

def fundInvoice (h : Host W) (signers : List Address) (s : State W) (admin : Address)
    (request : FundingRequest) : Res (State W) := do
  fundCaller signers s admin
  fundInvoiceGuards h s request
  fundInvoiceRequest h s request

/-- `fund_multiple_invoices`, and `fund_invoices_batch`, which only calls it. -/
def fundMultipleInvoices (h : Host W) (signers : List Address) (s : State W) (admin : Address)
    (requests : List FundingRequest) : Res (State W) := do
  fundCaller signers s admin
  require (requests ≠ []) (.err .InvalidAmount)
  require (requests.length ≤ maxBatchSize) (.err .BatchTooLarge)
  requests.foldlM (fundInvoiceRequest h) s

/-! ## What a successful call did -/

theorem calculateFactoringFee_nonneg {principal fee : ℤ} {bps : ℕ}
    (hf : calculateFactoringFee principal bps = .ok fee) : 0 ≤ fee := by
  unfold calculateFactoringFee u128ToI128 at hf
  simp only [bind_eq_ok, okOr_eq_ok, require_eq_ok, exists_unit, pure_eq_ok] at hf
  obtain ⟨_, -, -, rfl⟩ := hf
  positivity

theorem denormalizeFromStroops_nonneg {amount fee : ℤ} {decimals : ℕ} (ha : 0 ≤ amount)
    (hd : denormalizeFromStroops amount decimals = .ok fee) : 0 ≤ fee := by
  unfold denormalizeFromStroops at hd
  split_ifs at hd
  · simp only [bind_eq_ok, okOr_eq_ok, fit_eq_some, checkedMul_eq_some] at hd
    obtain ⟨_, ⟨rfl, -⟩, rfl, -⟩ := hd
    positivity
  · rw [← (pure_eq_ok _ _).1 hd]
    exact Int.tdiv_nonneg ha (by positivity)

theorem resolveFactoringFee_nonneg {principal fee : ℤ} {sme token : Address}
    (hf : s.resolveFactoringFee h principal sme token = .ok fee) :
    0 ≤ fee := by
  unfold State.resolveFactoringFee at hf
  simp only [bind_eq_ok] at hf
  obtain ⟨_, -, _, -, _, -, _, hcalc, hden⟩ := hf
  exact denormalizeFromStroops_nonneg (calculateFactoringFee_nonneg hcalc) hden

theorem fundedRecord_eq_ok {existing : Option FundedInvoice} {now : ℕ} {fee : ℤ}
    {lockedYieldBps : ℕ} {record : FundedInvoice}
    (hr : fundedRecord existing request now fee lockedYieldBps = .ok record) :
    (∃ old, existing = some old ∧
      record = { old with principal := old.principal + request.principal }) ∨
    (existing = none ∧ record =
      { invoiceId := request.invoiceId, sme := request.sme, token := request.token
        principal := request.principal, fundedAt := now, factoringFee := fee
        dueDate := request.dueDate, repaidAmount := 0, coFundingRoundId := none
        lockedYieldBps := lockedYieldBps }) := by
  unfold fundedRecord at hr
  split at hr
  · simp only [bind_eq_ok, okOr_eq_ok, checkedAdd_eq_some, pure_eq_ok] at hr
    obtain ⟨_, ⟨rfl, -⟩, rfl⟩ := hr
    exact .inl ⟨_, rfl, rfl⟩
  · exact .inr ⟨rfl, ((pure_eq_ok _ _).1 hr).symm⟩

theorem fundBooks_eq_ok (hf : fundBooks h s request = .ok s') :
    ∃ lockedYieldBps fee record stats ids w,
      InI128 ((s.tt request.token).totalDeployed + request.principal) ∧ 0 ≤ fee ∧
      fundedRecord (s.funded.get request.invoiceId) request s.now fee lockedYieldBps =
        .ok record ∧
      s' = { s with
        totals := Function.update s.totals request.token (some { s.tt request.token with
          totalDeployed := (s.tt request.token).totalDeployed + request.principal })
        funded := s.funded.set request.invoiceId record
        tokenInvoiceIds := ids
        stats := stats
        world := w } := by
  unfold fundBooks at hf
  simp only [bind_eq_ok, okOr_eq_ok, checkedAdd_eq_some, exists_unit, pure_eq_ok] at hf
  obtain ⟨_, ⟨rfl, hrange⟩, lockedYieldBps, -, fee, hfee, record, hrecord, -, stats, -, rfl⟩ := hf
  exact ⟨lockedYieldBps, fee, record, stats, _, _, hrange, resolveFactoringFee_nonneg hfee, hrecord,
    rfl⟩

theorem purchaseInsurance_eq (h : Host W) (s : State W) (request : FundingRequest) :
    s.purchaseInsurance h request = s ∨
    ∃ contract premium w, s.params.insuranceContract = some contract ∧
      h.purchaseCoverage s.world contract request = some (premium, w) ∧
      0 ≤ premium ∧ premium ≤ s.cash request.token h.self ∧
      s.purchaseInsurance h request = { s with
        cash := State.moveCash s.cash request.token h.self contract premium
        totals := Function.update s.totals request.token (some { s.tt request.token with
          protocolRevenue := saturatingSub (s.tt request.token).protocolRevenue premium
          poolValue := saturatingSub (s.tt request.token).poolValue premium })
        world := w } := by
  unfold State.purchaseInsurance
  split
  · exact .inl rfl
  · rename_i contract hcontract
    split
    · exact .inl rfl
    · rename_i premium w hcover
      split
      · exact .inl rfl
      · rename_i paid hpaid
        obtain ⟨hnn, hle, rfl⟩ := State.transfer_eq_ok.1 hpaid
        exact .inr ⟨contract, premium, w, hcontract, hcover, hnn, hle, rfl⟩

theorem fundLoan_eq_ok (hf : fundLoan h s request = .ok s') :
    ∃ lockedYieldBps fee record stats ids w history, 0 < request.principal ∧
      request.principal ≤
        (s.tt request.token).poolValue - (s.tt request.token).totalDeployed ∧
      s.now < request.dueDate ∧
      InI128 ((s.tt request.token).totalDeployed + request.principal) ∧ 0 ≤ fee ∧
      fundedRecord (s.funded.get request.invoiceId) request s.now fee lockedYieldBps =
        .ok record ∧
      s' = { s with
        totals := Function.update s.totals request.token (some { s.tt request.token with
          totalDeployed := (s.tt request.token).totalDeployed + request.principal })
        funded := s.funded.set request.invoiceId record
        tokenInvoiceIds := ids
        stats := stats
        world := w
        cash := State.moveCash s.cash request.token h.self request.sme request.principal
        rateHistory := history } := by
  unfold fundLoan availableLiquidity at hf
  simp only [bind_eq_ok, require_eq_ok, exists_unit, okOr_eq_ok, checkedSub_eq_some,
    State.transfer_eq_ok, pure_eq_ok] at hf
  obtain ⟨hpos, _, ⟨rfl, -⟩, hliq, -, hdue, s₁, hbooks, _, ⟨-, -, rfl⟩, s₂, hsnap, rfl⟩ := hf
  obtain ⟨lockedYieldBps, fee, record, stats, ids, w, hrange, hfee, hrecord, rfl⟩ :=
    fundBooks_eq_ok hbooks
  obtain ⟨history, rfl⟩ := State.recordRateSnapshot_eq_ok hsnap
  obtain ⟨w', hw'⟩ := notifyCreditScore_eq h _ request.invoiceId request.sme request.principal
  exact ⟨lockedYieldBps, fee, record, stats, ids, w', history, hpos, hliq, hdue, hrange, hfee,
    hrecord, hw'⟩

theorem fundInvoiceRequest_eq_ok (hf : fundInvoiceRequest h s request = .ok s') :
    ∃ s₁, fundLoan h s request = .ok s₁ ∧ s' = s₁.purchaseInsurance h request := by
  unfold fundInvoiceRequest at hf
  simp only [bind_eq_ok, pure_eq_ok] at hf
  obtain ⟨s₁, hs₁, rfl⟩ := hf
  exact ⟨s₁, hs₁, rfl⟩

theorem fundInvoiceRequest_frame (hf : fundInvoiceRequest h s request = .ok s') :
    ∃ lockedYieldBps fee record, 0 ≤ fee ∧
      fundedRecord (s.funded.get request.invoiceId) request s.now fee lockedYieldBps =
        .ok record ∧
      s' = { s with
        totals := s'.totals
        funded := s.funded.set request.invoiceId record
        tokenInvoiceIds := s'.tokenInvoiceIds
        stats := s'.stats
        world := s'.world
        cash := s'.cash
        rateHistory := s'.rateHistory } := by
  obtain ⟨s₁, hloan, rfl⟩ := fundInvoiceRequest_eq_ok hf
  obtain ⟨lockedYieldBps, fee, record, _, _, _, _, -, -, -, -, hfee, hrecord, rfl⟩ :=
    fundLoan_eq_ok hloan
  refine ⟨lockedYieldBps, fee, record, hfee, hrecord, ?_⟩
  rcases purchaseInsurance_eq h _ request with heq | ⟨_, _, _, -, -, -, -, heq⟩ <;> rw [heq]

/-- What the reports of a funding to the invoice contract leave true of the neighbours, and the
report to the credit score contract and the insurance keep, holds after the funding. -/
theorem fundInvoiceRequest_world {P : W → Prop}
    (hcredit : ∀ w contract, P w → P (h.recordCreditFunding w contract request.invoiceId request.sme
      request.principal))
    (hcover : ∀ w contract premium w', P w → h.purchaseCoverage w contract request = some (premium,
      w') → P w')
    (hf : fundInvoiceRequest h s request = .ok s')
    (hreport : P (h.recordFunding (h.recordFunding s.world s.params.config.invoiceContract
      request.invoiceId request.principal) s.params.config.invoiceContract request.invoiceId
      request.principal)) :
    P s'.world := by
  obtain ⟨s₁, hloan, rfl⟩ := fundInvoiceRequest_eq_ok hf
  have hloaned : P s₁.world := by
    unfold fundLoan fundBooks at hloan
    simp only [bind_eq_ok, State.transfer_eq_ok, pure_eq_ok] at hloan
    obtain ⟨-, -, _, -, -, -, -, -, -, -, _, ⟨_, -, _, -, _, -, _, -, -, -, _, -, rfl⟩, _,
      ⟨-, -, rfl⟩, s₂, hsnap, rfl⟩ := hloan
    obtain ⟨history, rfl⟩ := State.recordRateSnapshot_eq_ok hsnap
    unfold State.notifyCreditScore
    split
    · exact hreport
    · exact hcredit _ _ hreport
  rcases purchaseInsurance_eq h s₁ request with heq | ⟨contract, premium, w, -, hw, -, -, heq⟩
  · rw [heq]
    exact hloaned
  · rw [heq]
    exact hcover _ contract premium w hloaned hw

theorem fundInvoice_eq_ok {signers : List Address} {admin : Address} :
    fundInvoice h signers s admin request = .ok s' ↔
      fundCaller signers s admin = .ok () ∧ fundInvoiceGuards h s request = .ok () ∧
        fundInvoiceRequest h s request = .ok s' := by
  simp only [fundInvoice, bind_eq_ok, exists_unit]

theorem fundMultipleInvoices_eq_ok {signers : List Address} {admin : Address}
    {requests : List FundingRequest} :
    fundMultipleInvoices h signers s admin requests = .ok s' ↔
      fundCaller signers s admin = .ok () ∧ requests ≠ [] ∧ requests.length ≤ maxBatchSize ∧
        requests.foldlM (fundInvoiceRequest h) s = .ok s' := by
  simp only [fundMultipleInvoices, bind_eq_ok, require_eq_ok, exists_unit]

end Astera.Pool
