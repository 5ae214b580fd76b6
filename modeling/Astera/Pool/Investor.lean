import Astera.Pool.Queue

/-!
# Investor entrypoints

Deposits, immediate and queued withdrawals, draining the queue, and claiming yield.
-/

namespace Astera.Pool

open Fallible Machine

variable {W : Type}
variable {h : Host W} {investor token : Address} {signers : List Address} {s s' : State W}
  {amount shares usdc : ℤ}

/-- The value of a token amount in USDC terms at the stored exchange rate, where `f` is how the
caller's arithmetic fails. -/
def State.usdcValue (s : State W) (f : Fault) (token : Address) (amount : ℤ) : Res ℤ := do
  let scaled ← okOr (checkedMul amount (s.params.exchangeRate token)) f
  okOr (checkedDiv scaled 10000) f

/-- The shares a value of `usdc` buys, rounding down. -/
def sharesToMint (f : Fault) (usdc totalShares poolValue : ℤ) : Res ℤ :=
  if totalShares = 0 ∨ poolValue = 0 then return usdc
  else do
    let product ← okOr (checkedMul usdc totalShares) f
    okOr (checkedDiv product poolValue) f

def State.requireDepositConcentration (s : State W) (investor token : Address) (usdc : ℤ) :
    Res Unit :=
  if s.params.config.maxSingleInvestorBps < 10000 then do
    let newInvestorTotal ←
      okOr (checkedAdd (s.position investor token).deposited usdc) overflowTrap
    let newPoolTotal ← okOr (checkedAdd (s.tt token).poolValue usdc) overflowTrap
    if 0 < newPoolTotal then do
      let bps ← shareBps newInvestorTotal newPoolTotal
      require (bps ≤ s.params.config.maxSingleInvestorBps) (.err .ConcentrationLimitExceeded)
    else return ()
  else return ()

/-- The optional slippage guard of `deposit`. -/
def State.requireMinRate (s : State W) (token : Address) : Option ℕ → Res Unit
  | none => return ()
  | some minRate => do
      let currentRate ← s.currentRateForToken token
      require (minRate ≤ currentRate) (.err .RateBelowMinimum)

/-- The checks of `deposit` before any effect, and the USDC value deposited. -/
def depositGuards (h : Host W) (signers : List Address) (s : State W) (investor token : Address)
    (amount : ℤ) (minRate : Option ℕ) : Res ℤ := do
  requireAuth signers investor
  s.requireNotPaused
  require (amount ≠ 0) (.err .ZeroAmount)
  require (0 ≤ amount) (.err .NegativeAmount)
  s.assertAcceptedToken token
  require (¬ (0 < s.params.config.minDepositAmount ∧ amount < s.params.config.minDepositAmount))
    (.err .DepositBelowMinimum)
  s.requireMinRate token minRate
  s.requireKycApproved investor
  s.requireComplianceCleared h investor
  let usdcReceived ← s.usdcValue overflowTrap token amount
  s.requireDepositConcentration investor token usdcReceived
  return usdcReceived

/-- The effects of `deposit` up to the referral call: totals, minted shares, position, the received
tokens and the inflow record. -/
def depositEffects (h : Host W) (signers : List Address) (s : State W) (investor token : Address)
    (amount usdcReceived : ℤ) : Res (State W) := do
  let share ← s.shareTokenOf token
  let tt := s.tt token
  let minted ← sharesToMint overflowTrap usdcReceived (s.supply share) tt.poolValue
  let poolValue ← okOr (checkedAdd tt.poolValue usdcReceived) overflowTrap
  let s ← (s.setTotals token { tt with poolValue := poolValue }).mint h signers share investor minted
  let position := s.position investor token
  let deposited ← okOr (checkedAdd position.deposited usdcReceived) overflowTrap
  let available ← okOr (checkedAdd position.available minted) overflowErr
  let depositCount ← okOr (fitU 32 (position.depositCount + 1)) overflowTrap
  let loyaltyStartAt := if position.available = 0 then s.now else position.loyaltyStartAt
  let position := { position with
    deposited := deposited, available := available, depositCount := depositCount
    loyaltyStartAt := loyaltyStartAt }
  let balanceBefore := s.cash token h.self
  let s ← { s with position := set₂ s.position investor token position }.transfer
    token investor h.self amount
  require (s.cash token h.self - balanceBefore = amount) (.err .TransferMismatch)
  return s.recordInflowEvent token usdcReceived

def deposit (h : Host W) (signers : List Address) (s : State W) (investor token : Address)
    (amount : ℤ) (minRate : Option ℕ) : Res (State W) := do
  let usdcReceived ← depositGuards h signers s investor token amount minRate
  let s ← depositEffects h signers s investor token amount usdcReceived
  let liquidity := (checkedSub (s.tt token).poolValue (s.tt token).totalDeployed).getD 0
  let s ← s.recordReferralActivity h investor .deposit 0 token
  -- an `Err` of the queue pass is discarded, whatever it did before
  let (s, _) ← processWithdrawalQueue h signers s token liquidity
  return s

/-! ## Withdrawals -/

/-- The withdrawal cooldown, from which the admin is exempt. -/
def State.requireCooldown (s : State W) (investor token : Address) : Res Unit :=
  let config := s.params.config
  require (config.admin = investor ∨ config.withdrawalCooldownSecs = 0 ∨
    min (s.lastWithdrawal investor token + config.withdrawalCooldownSecs) (2 ^ 64 - 1) ≤ s.now)
    (.err .WithdrawalCooldownActive)

/-- The single-withdrawal cap, from which the admin is exempt. -/
def State.requireWithdrawalCap (s : State W) (investor : Address) (poolValue usdc : ℤ) : Res Unit :=
  let config := s.params.config
  if config.admin ≠ investor ∧ config.maxSingleWithdrawalBps < bpsDenom then do
    let scaled ← okOr (checkedMul poolValue config.maxSingleWithdrawalBps) overflowTrap
    require (usdc ≤ scaled.tdiv bpsDenom) (.err .WithdrawalExceedsLimit)
  else return ()

def withdraw (h : Host W) (signers : List Address) (s : State W) (investor token : Address)
    (shares : ℤ) : Res (State W) := do
  requireAuth signers investor
  s.requireNotPaused
  require (0 < shares) (.err .InvalidAmount)
  s.assertAcceptedToken token
  s.requireComplianceCleared h investor
  s.requireCooldown investor token
  let share ← s.shareTokenOf token
  let tt := s.tt token
  require (shares ≤ s.shares share investor) (.err .InvalidAmount)
  let product ← okOr (checkedMul shares tt.poolValue) overflowErr
  let usdcAmount ← okOr (checkedDiv product (s.supply share)) overflowErr
  let scaled ← okOr (checkedMul usdcAmount 10000) overflowErr
  let amount ← okOr (checkedDiv scaled (s.params.exchangeRate token)) overflowErr
  let liquidity ← okOr (checkedSub tt.poolValue tt.totalDeployed) overflowTrap
  require (usdcAmount ≤ liquidity) (.err .InsufficientLiquidity)
  s.requireWithdrawalCap investor tt.poolValue usdcAmount
  let s ← s.burn h signers share investor shares
  let s ← s.updateInvestorAvailable investor token (-shares)
  let poolValue ← okOr (checkedSub tt.poolValue usdcAmount) overflowTrap
  let s := s.setTotals token { tt with poolValue := poolValue }
  let lastWithdrawal :=
    if 0 < s.params.config.withdrawalCooldownSecs then
      set₂ s.lastWithdrawal investor token s.now
    else s.lastWithdrawal
  let s := { s with lastWithdrawal := lastWithdrawal }
  require (amount ≤ s.cash token h.self) (.err .InsufficientPoolFunds)
  s.transfer token h.self investor amount

def processImmediateWithdrawal (h : Host W) (signers : List Address) (s : State W)
    (investor token : Address) (shares amount : ℤ) (tt : PoolTokenTotals) (share : Address) :
    Res (State W) := do
  let s ← s.burn h signers share investor shares
  let s ← s.updateInvestorAvailable investor token (-shares)
  let poolValue ← okOr (checkedSub tt.poolValue amount) overflowTrap
  (s.setTotals token { tt with poolValue := poolValue }).transfer token h.self investor amount

/-- The branch of `request_withdrawal` that queues the request. -/
def enqueueWithdrawal (s : State W) (investor token : Address) (shares : ℤ) :
    Res (State W × ℕ) := do
  let depth := s.params.config.maxWithdrawalQueueDepth
  require (¬ (0 < depth ∧ depth ≤ (s.queue token).length)) (.err .WithdrawalQueueFull)
  let s ← s.updateInvestorAvailable investor token (-shares)
  let requestId ← okOr (fitU 64 (s.queueCounter token + 1)) overflowTrap
  let request : WithdrawalRequest := ⟨investor, token, shares, s.now, requestId⟩
  return ({ s with
    queueCounter := Function.update s.queueCounter token requestId
    queue := Function.update s.queue token (s.queue token ++ [request])
    withdrawalRequests := set₂ s.withdrawalRequests investor requestId (some request) }, requestId)

/-- `request_withdrawal`; the returned identifier is 0 when the request was paid at once. -/
def requestWithdrawal (h : Host W) (signers : List Address) (s : State W)
    (investor token : Address) (shares : ℤ) : Res (State W × ℕ) := do
  requireAuth signers investor
  s.requireNotPaused
  require (0 < shares) (.err .ZeroAmount)
  s.assertAcceptedToken token
  s.requireComplianceCleared h investor
  require (∀ r ∈ s.queue token, r.investor ≠ investor) (.err .AlreadyQueuedForWithdrawal)
  require (shares ≤ (s.position investor token).available) (.err .WithdrawalExceedsLimit)
  let share ← s.shareTokenOf token
  let tt := s.tt token
  require (shares ≤ s.shares share investor) (.err .InvalidAmount)
  require (0 < s.supply share) (.err .InvalidAmount)
  let amount ← withdrawalAmount shares tt.poolValue (s.supply share)
  let liquidity ← availableLiquidity tt
  if amount ≤ liquidity then do
    let s ← processImmediateWithdrawal h signers s investor token shares amount tt share
    return (s, 0)
  else enqueueWithdrawal s investor token shares

def cancelWithdrawalRequest (signers : List Address) (s : State W) (investor token : Address) :
    Res (State W) := do
  requireAuth signers investor
  let mine := (s.queue token).filter fun r => r.investor = investor
  let others := (s.queue token).filter fun r => r.investor ≠ investor
  let request ← okOr mine.getLast? (.err .WithdrawalRequestNotFound)
  require (request.requestId ≠ 0) (.err .WithdrawalRequestNotFound)
  let s := { s with
    queue := Function.update s.queue token others
    withdrawalRequests := set₂ s.withdrawalRequests investor request.requestId none }
  s.updateInvestorAvailable investor token request.shares

def adjustWithdrawalRequest (signers : List Address) (s : State W) (investor token : Address)
    (newShares : ℤ) : Res (State W) := do
  requireAuth signers investor
  require (0 < newShares) (.err .ZeroAmount)
  let idx ← okOr ((s.queue token).findIdx? fun r => r.investor = investor)
    (.err .WithdrawalRequestNotFound)
  let request ← okOr (s.queue token)[idx]? (.err .WithdrawalRequestNotFound)
  let delta ← okOr (checkedSub newShares request.shares) overflowTrap
  require (¬ (0 < delta ∧ (s.position investor token).available < delta))
    (.err .WithdrawalExceedsLimit)
  let s ← s.updateInvestorAvailable investor token (-delta)
  let request := { request with shares := newShares }
  return { s with
    queue := Function.update s.queue token ((s.queue token).set idx request)
    withdrawalRequests :=
      set₂ s.withdrawalRequests investor request.requestId (some request) }

def drainWithdrawalQueue (h : Host W) (signers : List Address) (s : State W)
    (caller token : Address) : Res (State W) := do
  requireAuth signers caller
  s.requireNotPaused
  s.assertAcceptedToken token
  let liquid ← availableLiquidity (s.tt token)
  match ← processWithdrawalQueue h signers s token liquid with
  | (s, none) => return s
  | (_, some e) => .error (.err e)

def loyaltyDaysActive (now loyaltyStartAt : ℕ) : ℕ :=
  if loyaltyStartAt = 0 then 0 else (now - loyaltyStartAt) / secsPerDay

/-- The base yield of an investor since its last claim, without loyalty bonus. -/
def State.claimableYield (s : State W) (investor token : Address) : Res ℤ := do
  let lastRps := s.rewardSnapshot investor token
  let share ← s.shareTokenOf token
  let investorShares := s.shares share investor
  let rps := (s.tt token).rewardPerShare
  if 0 < investorShares ∧ lastRps < rps then do
    let growth ← okOr (checkedSub rps lastRps) overflowTrap
    let product ← okOr (checkedMul growth investorShares) overflowErr
    okOr (checkedDiv product rewardPrecision) overflowErr
  else return 0

/-- The loyalty bonus on a claim, capped by the protocol revenue. -/
def State.loyaltyBonus (s : State W) (investor token : Address) (claimable : ℤ) : Res ℤ :=
  if 0 < claimable ∧ 0 < s.params.config.yieldBps then
    let days := loyaltyDaysActive s.now (s.position investor token).loyaltyStartAt
    let bonusBps := resolveLoyaltyBonus s.params.loyaltyTiers days
    if 0 < bonusBps then do
      let product ← okOr (checkedMul claimable bonusBps) overflowErr
      let bonus ← okOr (checkedDiv product s.params.config.yieldBps) overflowErr
      return max 0 (min bonus (s.tt token).protocolRevenue)
    else return 0
  else return 0

def State.calculatePendingYield (s : State W) (investor token : Address) : Res (ℤ × ℤ) := do
  let claimable ← s.claimableYield investor token
  let bonus ← s.loyaltyBonus investor token claimable
  return (claimable, bonus)

def claimYield (h : Host W) (signers : List Address) (s : State W) (investor token : Address) :
    Res (State W) := do
  requireAuth signers investor
  s.requireNotPaused
  let (claimable, bonus) ← s.calculatePendingYield investor token
  let totalClaim ← okOr (checkedAdd claimable bonus) overflowErr
  let tt := s.tt token
  let settled := { s with
    rewardSnapshot := set₂ s.rewardSnapshot investor token tt.rewardPerShare }
  if 0 < totalClaim then do
    -- a refused `try_transfer` is turned into an error
    require (totalClaim ≤ s.cash token h.self) (.err .TransferMismatch)
    let paid ← settled.transfer token h.self investor totalClaim
    if 0 < bonus then do
      let protocolRevenue ← okOr (checkedSub tt.protocolRevenue bonus) overflowErr
      return paid.setTotals token { tt with protocolRevenue := protocolRevenue }
    else return paid
  else return settled

/-! ## What a successful call did -/

@[simp]
theorem requireAuth_eq_ok {a : Address} {u : Unit} :
    requireAuth signers a = .ok u ↔ a ∈ signers := by
  simp [requireAuth]

theorem usdcValue_at_par {f : Fault} (hrate : s.params.exchangeRate token = 10000)
    (hu : s.usdcValue f token amount = .ok usdc) :
    usdc = amount := by
  unfold State.usdcValue at hu
  simp only [bind_eq_ok, okOr_eq_ok, checkedMul_eq_some, checkedDiv_eq_some, hrate] at hu
  obtain ⟨_, ⟨rfl, -⟩, -, rfl, -⟩ := hu
  exact Int.mul_tdiv_cancel _ (by norm_num)

theorem sharesToMint_eq_ok {f : Fault} {usdc totalShares poolValue minted : ℤ}
    (hm : sharesToMint f usdc totalShares poolValue = .ok minted) :
    ((totalShares = 0 ∨ poolValue = 0) ∧ minted = usdc) ∨
      (totalShares ≠ 0 ∧ poolValue ≠ 0 ∧ minted = (usdc * totalShares).tdiv poolValue) := by
  unfold sharesToMint at hm
  split_ifs at hm with hz
  · exact .inl ⟨hz, ((pure_eq_ok _ _).1 hm).symm⟩
  · simp only [bind_eq_ok, okOr_eq_ok, checkedMul_eq_some, checkedDiv_eq_some] at hm
    obtain ⟨_, ⟨rfl, -⟩, hpv, rfl, -⟩ := hm
    exact .inr ⟨fun h => hz (.inl h), hpv, rfl⟩

theorem depositGuards_eq_ok {minRate : Option ℕ}
    (hd : depositGuards h signers s investor token amount minRate = .ok usdc) :
    investor ∈ signers ∧ 0 < amount ∧ s.usdcValue overflowTrap token amount = .ok usdc := by
  unfold depositGuards at hd
  simp only [bind_eq_ok, requireAuth_eq_ok, require_eq_ok, exists_unit, pure_eq_ok] at hd
  obtain ⟨hauth, -, hne, hnn, -, -, -, -, -, u, hu, -, rfl⟩ := hd
  exact ⟨hauth, by omega, hu⟩

theorem depositEffects_eq_ok (hd : depositEffects h signers s investor token amount usdc = .ok s') :
    ∃ share minted st position inflow, s.shareToken token = some share ∧
      sharesToMint overflowTrap usdc (s.supply share) (s.tt token).poolValue = .ok minted ∧
      0 < minted ∧ InI128 ((s.tt token).poolValue + usdc) ∧
      State.Moved s.shareTokens st share investor minted ∧
      position.available = (s.position investor token).available + minted ∧
      InI128 position.available ∧
      State.moveCash s.cash token investor h.self amount token h.self =
        s.cash token h.self + amount ∧
      s' = { s with
        totals := Function.update s.totals token
          (some { s.tt token with poolValue := (s.tt token).poolValue + usdc })
        shareTokens := st
        position := set₂ s.position investor token position
        cash := State.moveCash s.cash token investor h.self amount
        inflow := inflow } := by
  unfold depositEffects at hd
  simp only [bind_eq_ok, State.shareTokenOf, okOr_eq_ok, checkedAdd_eq_some, require_eq_ok,
    exists_unit, pure_eq_ok, State.transfer_eq_ok] at hd
  obtain ⟨share, hshare, minted, hminted, _, ⟨rfl, hpv⟩, s₁, hmint, hd⟩ := hd
  obtain ⟨hpos, st, hmoved, rfl⟩ := State.mint_eq_ok hmint
  obtain ⟨_, ⟨rfl, -⟩, _, ⟨rfl, havail⟩, _, -, _, ⟨-, -, rfl⟩, hcash, rfl⟩ := hd
  refine ⟨share, minted, st, _, _, hshare, hminted, hpos, hpv, hmoved, rfl, havail, ?_, rfl⟩
  simp only [State.setTotals] at hcash
  linarith

/-- The state of a deposit before its pass over the queue. -/
def DepositReaches (h : Host W) (signers : List Address) (s : State W) (investor token : Address)
    (amount : ℤ) (s₁ s₂ : State W) : Prop :=
  ∃ usdc, s.usdcValue overflowTrap token amount = .ok usdc ∧
    depositEffects h signers s investor token amount usdc = .ok s₁ ∧
    s₁.recordReferralActivity h investor .deposit 0 token = .ok s₂

def liquidAfter (s₁ : State W) (token : Address) : ℤ :=
  (checkedSub (s₁.tt token).poolValue (s₁.tt token).totalDeployed).getD 0

theorem DepositReaches.queue {s s₁ s₂ : State W}
    (hd : DepositReaches h signers s investor token amount s₁ s₂) : s₂.queue = s.queue := by
  obtain ⟨usdc, -, heff, href⟩ := hd
  obtain ⟨_, _, _, _, _, -, -, -, -, -, -, -, -, rfl⟩ := depositEffects_eq_ok heff
  obtain ⟨_, rfl⟩ | ⟨_, _, _, -, -, -, rfl⟩ := State.recordReferralActivity_eq_ok href <;> rfl

theorem deposit_eq_ok {minRate : Option ℕ}
    (hd : deposit h signers s investor token amount minRate = .ok s') :
    ∃ usdc s₁ s₂ o, investor ∈ signers ∧ 0 < amount ∧
      s.usdcValue overflowTrap token amount = .ok usdc ∧
      depositEffects h signers s investor token amount usdc = .ok s₁ ∧
      s₁.recordReferralActivity h investor .deposit 0 token = .ok s₂ ∧
      processWithdrawalQueue h signers s₂ token
        ((checkedSub (s₁.tt token).poolValue (s₁.tt token).totalDeployed).getD 0) = .ok (s', o) := by
  unfold deposit at hd
  simp only [bind_eq_ok, pure_eq_ok] at hd
  obtain ⟨usdc, hg, s₁, he, s₂, hr, ⟨s₃, o⟩, hq, rfl⟩ := hd
  obtain ⟨hauth, hpos, hu⟩ := depositGuards_eq_ok hg
  exact ⟨usdc, s₁, s₂, o, hauth, hpos, hu, he, hr, hq⟩

theorem withdraw_eq_ok (hw : withdraw h signers s investor token shares = .ok s') :
    ∃ share usdc amount st position lastWithdrawal, s.shareToken token = some share ∧
      0 < shares ∧ s.supply share ≠ 0 ∧
      usdc = (shares * (s.tt token).poolValue).tdiv (s.supply share) ∧
      amount = (usdc * 10000).tdiv (s.params.exchangeRate token) ∧
      usdc ≤ (s.tt token).poolValue - (s.tt token).totalDeployed ∧
      InI128 ((s.tt token).poolValue - usdc) ∧ 0 ≤ amount ∧
      State.Moved s.shareTokens st share investor (-shares) ∧
      position.available = saturatingSub (s.position investor token).available shares ∧
      s' = { s with
        shareTokens := st
        position := set₂ s.position investor token position
        totals := Function.update s.totals token
          (some { s.tt token with poolValue := (s.tt token).poolValue - usdc })
        lastWithdrawal := lastWithdrawal
        cash := State.moveCash s.cash token h.self investor amount } := by
  unfold withdraw at hw
  simp only [bind_eq_ok, State.shareTokenOf, okOr_eq_ok, checkedMul_eq_some, checkedDiv_eq_some,
    checkedSub_eq_some, require_eq_ok, exists_unit, State.transfer_eq_ok] at hw
  obtain ⟨-, -, hpos, -, -, -, share, hshare, -, _, ⟨rfl, -⟩, usdc, ⟨hsup, rfl, -⟩,
    _, ⟨rfl, -⟩, amount, ⟨-, rfl, -⟩, _, ⟨rfl, -⟩, hliq, -, s₁, hburn, s₂, hupd, _, ⟨rfl, hpv⟩,
    -, hamount, -, rfl⟩ := hw
  obtain ⟨-, -, st, hmoved, rfl⟩ := State.burn_eq_ok hburn
  obtain ⟨position, -, hneg, -, rfl⟩ := State.updateInvestorAvailable_eq_ok hupd
  refine ⟨share, _, _, st, position, _, hshare, hpos, hsup, rfl, rfl, hliq, hpv, hamount, hmoved,
    ?_, rfl⟩
  rw [hneg (by omega), neg_neg]

theorem processImmediateWithdrawal_eq_ok {investor token share : Address} {tt : PoolTokenTotals}
    (hw : processImmediateWithdrawal h signers s investor token shares amount tt share = .ok s') :
    ∃ st position, State.Moved s.shareTokens st share investor (-shares) ∧
      position.available = saturatingSub (s.position investor token).available shares ∧
      InI128 (tt.poolValue - amount) ∧ 0 ≤ amount ∧
      s' = { s with
        shareTokens := st
        position := set₂ s.position investor token position
        totals := Function.update s.totals token (some { tt with poolValue := tt.poolValue - amount })
        cash := State.moveCash s.cash token h.self investor amount } := by
  unfold processImmediateWithdrawal at hw
  simp only [bind_eq_ok, okOr_eq_ok, checkedSub_eq_some, State.transfer_eq_ok] at hw
  obtain ⟨s₁, hburn, s₂, hupd, _, ⟨rfl, hpv⟩, hamount, -, rfl⟩ := hw
  obtain ⟨hpos, -, st, hmoved, rfl⟩ := State.burn_eq_ok hburn
  obtain ⟨position, -, hneg, -, rfl⟩ := State.updateInvestorAvailable_eq_ok hupd
  refine ⟨st, position, hmoved, ?_, hpv, hamount, rfl⟩
  rw [hneg (by omega), neg_neg]

theorem enqueueWithdrawal_eq_ok {r : State W × ℕ} (hshares : 0 < shares)
    (hw : enqueueWithdrawal s investor token shares = .ok r) :
    ∃ position requestId,
      position.available = saturatingSub (s.position investor token).available shares ∧
      requestId = s.queueCounter token + 1 ∧
      r.1 = { s with
        position := set₂ s.position investor token position
        queueCounter := Function.update s.queueCounter token requestId
        queue := Function.update s.queue token
          (s.queue token ++ [⟨investor, token, shares, s.now, requestId⟩])
        withdrawalRequests := set₂ s.withdrawalRequests investor requestId
          (some ⟨investor, token, shares, s.now, requestId⟩) } := by
  unfold enqueueWithdrawal at hw
  simp only [bind_eq_ok, okOr_eq_ok, require_eq_ok, exists_unit, fitU_eq_some, pure_eq_ok] at hw
  obtain ⟨-, s₁, hupd, requestId, ⟨rfl, -⟩, rfl⟩ := hw
  obtain ⟨position, -, hneg, -, rfl⟩ := State.updateInvestorAvailable_eq_ok hupd
  refine ⟨position, _, ?_, rfl, rfl⟩
  rw [hneg (by omega), neg_neg]

theorem requestWithdrawal_eq_ok {r : State W × ℕ}
    (hw : requestWithdrawal h signers s investor token shares = .ok r) :
    ∃ share amount, s.shareToken token = some share ∧ 0 < shares ∧ 0 < s.supply share ∧
      shares ≤ (s.position investor token).available ∧
      (∀ q ∈ s.queue token, q.investor ≠ investor) ∧
      amount = (shares * (s.tt token).poolValue).tdiv (s.supply share) ∧
      ((amount ≤ (s.tt token).poolValue - (s.tt token).totalDeployed ∧
          processImmediateWithdrawal h signers s investor token shares amount (s.tt token) share =
            .ok r.1) ∨
        enqueueWithdrawal s investor token shares = .ok r) := by
  unfold requestWithdrawal withdrawalAmount availableLiquidity at hw
  simp only [bind_eq_ok, State.shareTokenOf, okOr_eq_ok, checkedMul_eq_some, checkedDiv_eq_some,
    checkedSub_eq_some, require_eq_ok, exists_unit] at hw
  obtain ⟨-, -, hpos, -, -, hnew, havail, share, hshare, -, hsup, amount,
    ⟨-, _, ⟨rfl, -⟩, -, rfl, -⟩, _, ⟨rfl, -⟩, hw⟩ := hw
  refine ⟨share, _, hshare, hpos, hsup, havail, hnew, rfl, ?_⟩
  split_ifs at hw with hle
  · simp only [bind_eq_ok, pure_eq_ok] at hw
    obtain ⟨s₁, hs₁, rfl⟩ := hw
    exact .inl ⟨hle, hs₁⟩
  · exact .inr hw

theorem cancelWithdrawalRequest_eq_ok
    (hc : cancelWithdrawalRequest signers s investor token = .ok s') :
    ∃ request position requests,
      ((s.queue token).filter fun r => r.investor = investor).getLast? = some request ∧
      (0 ≤ request.shares → position.available =
        (s.position investor token).available + request.shares ∧ InI128 position.available) ∧
      s' = { s with
        queue := Function.update s.queue token
          ((s.queue token).filter fun r => r.investor ≠ investor)
        withdrawalRequests := requests
        position := set₂ s.position investor token position } := by
  unfold cancelWithdrawalRequest at hc
  simp only [bind_eq_ok, okOr_eq_ok, require_eq_ok, exists_unit] at hc
  obtain ⟨-, request, hreq, -, hupd⟩ := hc
  obtain ⟨position, hpos, -, -, rfl⟩ := State.updateInvestorAvailable_eq_ok hupd
  exact ⟨request, position, _, hreq, hpos, rfl⟩

theorem adjustWithdrawalRequest_eq_ok {newShares : ℤ}
    (ha : adjustWithdrawalRequest signers s investor token newShares = .ok s') :
    ∃ idx request position requests,
      (s.queue token).findIdx? (fun r => r.investor = investor) = some idx ∧
      (s.queue token)[idx]? = some request ∧ 0 < newShares ∧
      (0 < newShares - request.shares →
        newShares - request.shares ≤ (s.position investor token).available) ∧
      (newShares - request.shares ≤ 0 → position.available =
        (s.position investor token).available - (newShares - request.shares) ∧
        InI128 position.available) ∧
      (0 < newShares - request.shares → position.available =
        saturatingSub (s.position investor token).available (newShares - request.shares)) ∧
      s' = { s with
        position := set₂ s.position investor token position
        queue := Function.update s.queue token
          ((s.queue token).set idx { request with shares := newShares })
        withdrawalRequests := requests } := by
  unfold adjustWithdrawalRequest at ha
  simp only [bind_eq_ok, okOr_eq_ok, require_eq_ok, exists_unit, checkedSub_eq_some,
    pure_eq_ok] at ha
  obtain ⟨-, hpos, idx, hidx, request, hreq, _, ⟨rfl, -⟩, hlim, s₁, hupd, rfl⟩ := ha
  obtain ⟨position, hup, hdown, -, rfl⟩ := State.updateInvestorAvailable_eq_ok hupd
  refine ⟨idx, request, position, _, hidx, hreq, hpos, fun hd => by omega, fun hd => ?_,
    fun hd => ?_, rfl⟩
  · obtain ⟨havail, hrange⟩ := hup (by omega)
    exact ⟨by omega, hrange⟩
  · rw [hdown (by omega), neg_neg]

theorem drainWithdrawalQueue_eq_ok {caller token : Address}
    (hd : drainWithdrawalQueue h signers s caller token = .ok s') :
    ∃ liquid, liquid = (s.tt token).poolValue - (s.tt token).totalDeployed ∧
      processWithdrawalQueue h signers s token liquid = .ok (s', none) := by
  unfold drainWithdrawalQueue availableLiquidity at hd
  simp only [bind_eq_ok, exists_unit, okOr_eq_ok, checkedSub_eq_some] at hd
  obtain ⟨-, -, -, liquid, ⟨rfl, -⟩, ⟨s₁, o⟩, hq, hd⟩ := hd
  cases o with
  | none =>
    obtain rfl := (pure_eq_ok _ _).1 hd
    exact ⟨_, rfl, hq⟩
  | some e => cases hd

theorem claimYield_eq_ok (hc : claimYield h signers s investor token = .ok s') :
    ∃ claimable bonus, investor ∈ signers ∧ s.claimableYield investor token = .ok claimable ∧
      s.loyaltyBonus investor token claimable = .ok bonus ∧
      ((claimable + bonus ≤ 0 ∧ s' = { s with
          rewardSnapshot := set₂ s.rewardSnapshot investor token (s.tt token).rewardPerShare }) ∨
        (0 < claimable + bonus ∧ bonus ≤ 0 ∧ s' = { s with
          rewardSnapshot := set₂ s.rewardSnapshot investor token (s.tt token).rewardPerShare
          cash := State.moveCash s.cash token h.self investor (claimable + bonus) }) ∨
        (0 < claimable + bonus ∧ 0 < bonus ∧ s' = { s with
          rewardSnapshot := set₂ s.rewardSnapshot investor token (s.tt token).rewardPerShare
          cash := State.moveCash s.cash token h.self investor (claimable + bonus)
          totals := Function.update s.totals token (some { s.tt token with
            protocolRevenue := (s.tt token).protocolRevenue - bonus }) })) := by
  unfold claimYield State.calculatePendingYield at hc
  simp only [bind_eq_ok, requireAuth_eq_ok, exists_unit, okOr_eq_ok, checkedAdd_eq_some,
    pure_eq_ok] at hc
  obtain ⟨hauth, -, _, ⟨claimable, hcl, bonus, hbonus, rfl⟩, _, ⟨rfl, -⟩, hc⟩ := hc
  refine ⟨claimable, bonus, hauth, hcl, hbonus, ?_⟩
  dsimp only at hc
  by_cases hpos : 0 < claimable + bonus
  · simp only [if_pos hpos, bind_eq_ok, require_eq_ok, exists_unit, State.transfer_eq_ok] at hc
    obtain ⟨-, _, ⟨-, -, rfl⟩, hc⟩ := hc
    by_cases hb : 0 < bonus
    · simp only [if_pos hb, bind_eq_ok, okOr_eq_ok, checkedSub_eq_some, pure_eq_ok] at hc
      obtain ⟨_, ⟨rfl, -⟩, rfl⟩ := hc
      exact .inr (.inr ⟨hpos, hb, rfl⟩)
    · rw [if_neg hb] at hc
      obtain rfl := (pure_eq_ok _ _).1 hc
      exact .inr (.inl ⟨hpos, by omega, rfl⟩)
  · rw [if_neg hpos] at hc
    obtain rfl := (pure_eq_ok _ _).1 hc
    exact .inl ⟨by omega, rfl⟩

theorem claimableYield_eq_ok {claimable : ℤ} (hc : s.claimableYield investor token = .ok claimable) :
    ∃ share, s.shareToken token = some share ∧
      claimable =
        if 0 < s.shares share investor ∧
            s.rewardSnapshot investor token < (s.tt token).rewardPerShare then
          (((s.tt token).rewardPerShare - s.rewardSnapshot investor token) *
            s.shares share investor).tdiv rewardPrecision
        else 0 := by
  unfold State.claimableYield at hc
  simp only [bind_eq_ok, State.shareTokenOf, okOr_eq_ok] at hc
  obtain ⟨share, hshare, hc⟩ := hc
  refine ⟨share, hshare, ?_⟩
  split_ifs at hc ⊢ with hpos
  · simp only [bind_eq_ok, okOr_eq_ok, checkedSub_eq_some, checkedMul_eq_some,
      checkedDiv_eq_some] at hc
    obtain ⟨_, ⟨rfl, -⟩, _, ⟨rfl, -⟩, -, rfl, -⟩ := hc
    rfl
  · exact ((pure_eq_ok _ _).1 hc).symm

theorem loyaltyBonus_eq_ok {claimable bonus : ℤ}
    (hb : s.loyaltyBonus investor token claimable = .ok bonus) :
    0 ≤ bonus ∧ bonus ≤ max 0 (s.tt token).protocolRevenue := by
  unfold State.loyaltyBonus at hb
  dsimp only at hb
  split at hb
  · split at hb
    · simp only [bind_eq_ok, pure_eq_ok] at hb
      obtain ⟨_, -, _, -, rfl⟩ := hb
      omega
    · have := (pure_eq_ok _ _).1 hb
      omega
  · have := (pure_eq_ok _ _).1 hb
    omega

end Astera.Pool
