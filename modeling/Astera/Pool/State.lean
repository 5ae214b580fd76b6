import Astera.Pool.Arithmetic

/-!
# The chain around the pool

`State W` is everything a pool call reads or writes: the pool's storage, the balances of the asset
tokens, the share contracts, the ledger time, and a value of `W` for all other contracts.  `Host W`
says who the pool is and what those answer.

Storage time-to-live, events and the reentrancy flag are left out: a call that does not fail clears
the flag, and the host forbids re-entering a contract, so it is never found set.
-/

namespace Astera.Pool

open Fallible Machine Share

/-- The contracts the pool calls.  A call made with `try_` answers `none` when it fails; a state
change it makes is part of its answer. -/
structure Host (W : Type) where
  self : Address
  getAuthorizedPool : W → Address → Option Address
  isInvoiceDefaulted : W → Address → ℕ → Option Bool
  recordFunding : W → Address → ℕ → ℤ → W
  markCancelled : W → Address → ℕ → Option W
  isCleared : W → Address → Address → Option Bool
  getCreditScore : W → Address → Address → Option ℕ
  recordCreditFunding : W → Address → ℕ → Address → ℤ → W
  purchaseCoverage : W → Address → FundingRequest → Option (ℤ × W)
  /-- The referral reward for an activity of a referee with a fee. -/
  recordActivity : W → Address → Address → ActivityKind → ℤ → Address → Option (ℤ × W)
  /-- The oracle's last price and its timestamp; the outer `none` is a trap. -/
  lastPrice : W → Address → Address → Option (Option (ℤ × ℕ))
  decimals : W → Address → Option ℕ

/-- What the admin, access-control and governance setters write. -/
structure Params where
  config : PoolConfig
  paused : Bool := false
  kycRequired : Bool := false
  investorKyc : Address → KycStatus := fun _ => .NotRequested
  complianceGate : Option ComplianceGateConfig := none
  storedExchangeRate : Address → Option ℕ := fun _ => none
  rateBounds : Address → Option ExchangeRateBounds := fun _ => none
  collateralConfig : CollateralConfig := {}
  treasury : Option Address := none
  creditScoreContract : Option Address := none
  feeTierIds : List ℕ := []
  feeTier : ℕ → Option FeeTier := fun _ => none
  rateModel : Address → Option RateModelConfig := fun _ => none
  pendingRateModel : Address → Option RateModelProposal := fun _ => none
  rateModelChangedAt : Address → ℕ := fun _ => 0
  loyaltyTiers : List LoyaltyTier := defaultLoyaltyTiers
  insuranceContract : Option Address := none
  referralRegistry : Option Address := none
  oracleContract : Option Address := none
  oracleStaleSecs : ℕ := defaultOracleStaleSecs
  fallbackPrice : Address → Option (ℤ × ℕ) := fun _ => none
  accessControl : Option Address := none
  riskContract : Option Address := none
  secondaryMarket : Option Address := none
  operationDelay : ℕ := operationDelaySecs
  governance : Option Address := none
  pendingAdmin : Option Address := none
  adminChangeScheduledAt : Option ℕ := none

def Params.exchangeRate (p : Params) (token : Address) : ℕ :=
  (p.storedExchangeRate token).getD 10000

def Params.feeTiers (p : Params) : List FeeTier := p.feeTierIds.filterMap p.feeTier

structure State (W : Type) where
  now : ℕ
  world : W
  /-- Balances of the asset tokens: token, then holder. -/
  cash : Address → Address → ℤ
  shareTokens : Address → ShareToken
  params : Params
  acceptedTokens : List Address
  shareToken : Address → Option Address
  tokenConfig : Address → Option TokenConfig
  totals : Address → Option PoolTokenTotals
  funded : Store ℕ FundedInvoice
  tokenInvoiceIds : Address → List ℕ
  stats : PoolStorageStats
  collateral : Store ℕ CollateralDeposit
  rewardSnapshot : Address → Address → ℤ
  lastWithdrawal : Address → Address → ℕ
  position : Address → Address → InvestorPosition
  queue : Address → List WithdrawalRequest
  queueCounter : Address → ℕ
  withdrawalRequests : Address → ℕ → Option WithdrawalRequest
  rounds : Store ℕ CoFundingRound
  roundIds : List ℕ
  coFundShare : ℕ → Address → ℕ
  coFundCommitted : ℕ → Address → ℤ
  proposals : ℕ → Option Proposal
  nextProposalId : ℕ
  inflow : Address → Ring InflowEvent
  rateHistory : Address → Ring RateSnapshot

/-- The state that `initialize` leaves, on a ledger with the given balances and share contracts. -/
def initialState {W : Type} (now : ℕ) (world : W) (cash : Address → Address → ℤ)
    (shareTokens : Address → ShareToken) (admin token share invoiceContract : Address) :
    State W where
  now := now
  world := world
  cash := cash
  shareTokens := shareTokens
  params := { config :=
    { invoiceContract := invoiceContract, admin := admin, lastYieldChangeAt := now } }
  acceptedTokens := [token]
  shareToken := Function.update (fun _ => none) token (some share)
  tokenConfig := Function.update (fun _ => none) token (some ⟨token, share, expectedDecimals⟩)
  totals := Function.update (fun _ => none) token (some {})
  funded := ∅
  tokenInvoiceIds := fun _ => []
  stats := {}
  collateral := ∅
  rewardSnapshot := fun _ _ => 0
  lastWithdrawal := fun _ _ => 0
  position := fun _ _ => {}
  queue := fun _ => []
  queueCounter := fun _ => 0
  withdrawalRequests := fun _ _ => none
  rounds := ∅
  roundIds := []
  coFundShare := fun _ _ => 0
  coFundCommitted := fun _ _ => 0
  proposals := fun _ => none
  nextProposalId := 1
  inflow := fun _ => {}
  rateHistory := fun _ => {}

/-- Write one entry of a table with two keys. -/
def set₂ {α β γ : Type} [DecidableEq α] [DecidableEq β] (f : α → β → γ) (a : α) (b : β) (c : γ) :
    α → β → γ :=
  Function.update f a (Function.update (f a) b c)

theorem set₂_apply {α β γ : Type} [DecidableEq α] [DecidableEq β] (f : α → β → γ) (a a' : α)
    (b b' : β) (c : γ) : set₂ f a b c a' b' = if a' = a ∧ b' = b then c else f a' b' := by
  unfold set₂
  by_cases ha : a' = a
  · subst ha
    by_cases hb : b' = b <;> simp [hb]
  · simp [ha]

@[simp]
theorem set₂_self {α β γ : Type} [DecidableEq α] [DecidableEq β] (f : α → β → γ) (a : α) (b : β)
    (c : γ) : set₂ f a b c a b = c := by
  rw [set₂_apply, if_pos ⟨rfl, rfl⟩]

theorem set₂_row {α β γ : Type} [DecidableEq α] [DecidableEq β] (f : α → β → γ) (a : α) (b : β)
    (c : γ) : set₂ f a b c a = Function.update (f a) b c := by
  simp [set₂]

theorem set₂_row_of_ne {α β γ : Type} [DecidableEq α] [DecidableEq β] (f : α → β → γ) {a a' : α}
    (b : β) (c : γ) (h : a' ≠ a) : set₂ f a b c a' = f a' := by
  simp [set₂, h]

variable {W : Type}

/-! ## Authorization and shared guards -/

/-- Whether a `require_auth` of `a` in a call made by the pool succeeds: the pool itself is the
invoker, every other address has to be among the signers of the transaction. -/
def Host.authorized (h : Host W) (signers : List Address) (a : Address) : Bool :=
  decide (a = h.self) || signers.contains a

/-- `require_auth` at the entry of a pool call. -/
def requireAuth (signers : List Address) (a : Address) : Res Unit :=
  require (signers.contains a = true) (.trap .auth)

namespace State

def requireNotPaused (s : State W) : Res Unit :=
  require (s.params.paused = false) (.trap (.panicked .ContractPaused))

def requireAdmin (s : State W) (admin : Address) : Res Unit :=
  require (admin = s.params.config.admin) (.err .Unauthorized)

def assertAcceptedToken (s : State W) (token : Address) : Res Unit :=
  require (token ∈ s.acceptedTokens) (.err .TokenNotAccepted)

def requireKycApproved (s : State W) (investor : Address) : Res Unit :=
  if s.params.kycRequired then
    match s.params.investorKyc investor with
    | .Approved => return ()
    | .NotRequested => .error (.err .KycNotRequested)
    | .Rejected => .error (.err .KycRejected)
  else return ()

def requireComplianceCleared (h : Host W) (s : State W) (address : Address) : Res Unit :=
  match s.params.complianceGate with
  | none => return ()
  | some gate =>
    if gate.required = false then return ()
    else
      match h.isCleared s.world gate.registry address with
      | some true => return ()
      | some false => .error (.err .ComplianceNotCleared)
      | none => .error (.err .ComplianceCheckFailed)

def tt (s : State W) (token : Address) : PoolTokenTotals := (s.totals token).getD {}

def setTotals (s : State W) (token : Address) (tt : PoolTokenTotals) : State W :=
  { s with totals := Function.update s.totals token (some tt) }

def shareTokenOf (s : State W) (token : Address) : Res Address :=
  okOr (s.shareToken token) (.err .ShareTokenNotConfigured)

def supply (s : State W) (share : Address) : ℤ := (s.shareTokens share).totalSupply

def shares (s : State W) (share holder : Address) : ℤ := (s.shareTokens share).balance holder

/-- `mint` of a share contract. -/
def mint (h : Host W) (signers : List Address) (s : State W) (share receiver : Address)
    (amount : ℤ) : Res (State W) :=
  match (s.shareTokens share).mint (h.authorized signers) s.now receiver amount with
  | .ok t => .ok { s with shareTokens := Function.update s.shareTokens share t }
  | .error e => .error (.trap (.share e))

/-- `burn` of a share contract. -/
def burn (h : Host W) (signers : List Address) (s : State W) (share holder : Address)
    (amount : ℤ) : Res (State W) :=
  match (s.shareTokens share).burn (h.authorized signers) s.now holder amount with
  | .ok t => .ok { s with shareTokens := Function.update s.shareTokens share t }
  | .error e => .error (.trap (.share e))

/-- Asset balances after `amount` moved; the receiver's balance is read after the sender's was
written. -/
def moveCash (cash : Address → Address → ℤ) (token sender receiver : Address) (amount : ℤ) :
    Address → Address → ℤ :=
  let debited := set₂ cash token sender (cash token sender - amount)
  set₂ debited token receiver (debited token receiver + amount)

/-- `transfer` of a standard asset token: it moves exactly `amount` or traps.  Reasons for a trap
other than the balance are not listed; a trapping call leaves no trace. -/
def transfer (s : State W) (token sender receiver : Address) (amount : ℤ) : Res (State W) := do
  require (0 ≤ amount ∧ amount ≤ s.cash token sender) (.trap .token)
  return { s with cash := moveCash s.cash token sender receiver amount }

/-! ## Bookkeeping helpers -/

def updateInvestorAvailable (s : State W) (investor token : Address) (delta : ℤ) :
    Res (State W) :=
  let position := s.position investor token
  if 0 ≤ delta then do
    let available ← okOr (checkedAdd position.available delta) overflowErr
    return { s with
      position := set₂ s.position investor token { position with available := available } }
  else
    let available := saturatingSub position.available (-delta)
    let loyaltyStartAt := if available = 0 then 0 else position.loyaltyStartAt
    .ok { s with
      position := set₂ s.position investor token
        { position with available := available, loyaltyStartAt := loyaltyStartAt } }

/-- The ring buffers of the inflow and rate histories: append, and overwrite the oldest slot once
`capacity` is reached. -/
def pushRing {α : Type} (capacity : ℕ) (r : Ring α) (a : α) : Ring α :=
  if r.len < capacity then
    { r with slot := Function.update r.slot r.len (some a), len := r.len + 1 }
  else
    { r with slot := Function.update r.slot r.start (some a), start := (r.start + 1) % capacity }

def recordInflowEvent (s : State W) (token : Address) (amount : ℤ) : State W :=
  let history := pushRing maxInflowHistory (s.inflow token) ⟨amount, s.now⟩
  { s with inflow := Function.update s.inflow token history }

def currentRateForToken (s : State W) (token : Address) : Res ℕ :=
  match s.params.rateModel token with
  | some model => do
      let utilization ← utilizationBps (s.tt token)
      return computeCurrentRate utilization model
  | none => return s.params.config.yieldBps

def recordRateSnapshot (s : State W) (token : Address) : Res (State W) :=
  match s.params.rateModel token with
  | none => return s
  | some model => do
      let util ← utilizationBps (s.tt token)
      let rate := computeCurrentRate util model
      let history := s.rateHistory token
      let newest := history.slot ((history.start + history.len - 1) % maxRateHistory)
      -- consecutive duplicates collapse into one sample
      if 0 < history.len ∧ newest.any (fun last => last.utilizationBps = util ∧
          last.rateBps = rate) then return s
      else
        let history := pushRing maxRateHistory history ⟨s.now, util, rate⟩
        return { s with rateHistory := Function.update s.rateHistory token history }

def getAssetPrice (h : Host W) (s : State W) (token : Address) : Res ℤ := do
  let fallback : Res ℤ :=
    match s.params.fallbackPrice token with
    | some (price, setAt) =>
      if s.now - setAt ≤ s.params.oracleStaleSecs then return price
      else .error (.err .OraclePriceUnavailable)
    | none => .error (.err .OraclePriceUnavailable)
  match s.params.oracleContract with
  | none => fallback
  | some oracle =>
    let answer ← okOr (h.lastPrice s.world oracle token) (.trap .neighbour)
    match answer with
    | some (price, timestamp) =>
      if s.now - timestamp ≤ s.params.oracleStaleSecs then return price else fallback
    | none => fallback

/-- `record_referral_activity`.  Its call to the registry may fail without consequence; a positive
reward is taken from the protocol revenue and paid out. -/
def recordReferralActivity (h : Host W) (s : State W) (referee : Address) (kind : ActivityKind)
    (feeAmount : ℤ) (token : Address) : Res (State W) :=
  if feeAmount < 0 then return s
  else
    match s.params.referralRegistry with
    | none => return s
    | some registry =>
      match h.recordActivity s.world registry referee kind feeAmount token with
      | none => return s
      | some (reward, world) =>
        let s := { s with world := world }
        if reward ≤ 0 then return s
        else
          let tt := s.tt token
          (s.setTotals token
            { tt with protocolRevenue := saturatingSub tt.protocolRevenue reward }).transfer
            token h.self registry reward

theorem tt_self {s s' : State W} {token : Address} {totals : PoolTokenTotals}
    (hs : s'.totals = Function.update s.totals token (some totals)) : s'.tt token = totals := by
  simp [tt, hs]

theorem tt_of_ne {s s' : State W} {token t : Address} {totals : PoolTokenTotals}
    (hs : s'.totals = Function.update s.totals token (some totals)) (ht : t ≠ token) :
    s'.tt t = s.tt t := by
  simp [tt, hs, ht]

theorem tt_of_eq {s s' : State W} (hs : s'.totals = s.totals) (t : Address) : s'.tt t = s.tt t := by
  simp [tt, hs]

/-! ## What the token calls do -/

theorem moveCash_apply (cash : Address → Address → ℤ) (token sender receiver : Address)
    (amount : ℤ) (t a : Address) :
    moveCash cash token sender receiver amount t a =
      cash t a - (if t = token ∧ a = sender then amount else 0) +
        (if t = token ∧ a = receiver then amount else 0) := by
  unfold moveCash
  simp only [set₂_apply]
  by_cases ht : t = token
  · subst ht
    by_cases hs : a = sender
    · subst hs
      by_cases hr : a = receiver
      · subst hr
        simp
      · simp [hr]
    · by_cases hr : a = receiver
      · subst hr
        simp [hs]
      · simp [hs, hr]
  · simp [ht]

@[simp]
theorem transfer_eq_ok {s s' : State W} {token sender receiver : Address} {amount : ℤ} :
    s.transfer token sender receiver amount = .ok s' ↔
      0 ≤ amount ∧ amount ≤ s.cash token sender ∧
        { s with cash := moveCash s.cash token sender receiver amount } = s' := by
  simp only [transfer, bind_eq_ok, require_eq_ok, exists_const, pure_eq_ok, and_assoc]

/-- `st'` is `st` with `delta` added to the balance of `holder` in the contract `share`. -/
structure Moved (st st' : Address → ShareToken) (share holder : Address) (delta : ℤ) : Prop where
  supply : ∀ sh, (st' sh).totalSupply = (st sh).totalSupply + if sh = share then delta else 0
  balance : ∀ sh a, (st' sh).balance a =
    (st sh).balance a + if sh = share ∧ a = holder then delta else 0
  weighted : ∀ sh (w : Address → ℤ), (st' sh).balances.total (fun a b => w a * b) =
    (st sh).balances.total (fun a b => w a * b) + if sh = share then w holder * delta else 0

theorem supply_of_moved {s s' : State W} {st : Address → ShareToken} {share holder : Address}
    {delta : ℤ} (hm : Moved s.shareTokens st share holder delta) (hst : s'.shareTokens = st) :
    s'.supply share = s.supply share + delta := by
  unfold supply
  rw [hst, hm.supply share, if_pos rfl]

theorem moved_adjust {st : Address → ShareToken} {share : Address} {t : ShareToken}
    (ht : st share = t) (holder : Address) (delta : ℤ) (hb : 0 ≤ t.balance holder + delta)
    (hs : t.totalSupply + delta < 2 ^ 127) (now : ℕ) :
    Moved st (Function.update st share (t.adjust holder delta hb hs now)) share holder delta where
  supply := by
    intro sh
    by_cases h : sh = share
    · subst h
      simp [ht]
    · simp [h]
  balance := by
    intro sh a
    by_cases h : sh = share
    · subst h
      simp [ShareToken.balance_adjust, ht]
    · simp [h]
  weighted := by
    intro sh w
    by_cases h : sh = share
    · subst h
      simp [ShareToken.total_adjust, ht]
    · simp [h]

theorem mint_eq_ok {h : Host W} {signers : List Address} {s s' : State W}
    {share receiver : Address} {amount : ℤ} (hm : s.mint h signers share receiver amount = .ok s') :
    0 < amount ∧ ∃ st, Moved s.shareTokens st share receiver amount ∧
      s' = { s with shareTokens := st } := by
  unfold mint at hm
  split at hm
  · rename_i t ht
    obtain ⟨hpos, hb, hs, rfl⟩ := ShareToken.mint_eq_ok ht
    exact ⟨hpos, _, moved_adjust rfl _ _ hb hs _, (Except.ok.inj hm).symm⟩
  · cases hm

theorem burn_eq_ok {h : Host W} {signers : List Address} {s s' : State W}
    {share holder : Address} {amount : ℤ} (hb : s.burn h signers share holder amount = .ok s') :
    0 < amount ∧ amount ≤ s.shares share holder ∧ ∃ st,
      Moved s.shareTokens st share holder (-amount) ∧ s' = { s with shareTokens := st } := by
  unfold burn at hb
  split at hb
  · rename_i t ht
    obtain ⟨-, -, hpos, hle, hb', hs, rfl⟩ := ShareToken.burn_eq_ok_iff.1 ht
    exact ⟨hpos, hle, _, moved_adjust rfl _ _ hb' hs _, (Except.ok.inj hb).symm⟩
  · cases hb

theorem updateInvestorAvailable_eq_ok {s s' : State W} {investor token : Address} {delta : ℤ}
    (h : s.updateInvestorAvailable investor token delta = .ok s') :
    ∃ position : InvestorPosition,
      (0 ≤ delta → position.available = (s.position investor token).available + delta ∧
        InI128 position.available) ∧
      (delta < 0 → position.available =
        saturatingSub (s.position investor token).available (-delta)) ∧
      position.deposited = (s.position investor token).deposited ∧
      s' = { s with position := set₂ s.position investor token position } := by
  unfold updateInvestorAvailable at h
  simp only at h
  by_cases hd : 0 ≤ delta
  · simp only [if_pos hd, bind_eq_ok, okOr_eq_ok, checkedAdd_eq_some, pure_eq_ok] at h
    obtain ⟨available, ⟨rfl, hr⟩, rfl⟩ := h
    refine ⟨_, fun _ => ⟨rfl, hr⟩, fun h => absurd hd (by omega), ?_, rfl⟩
    rfl
  · rw [if_neg hd] at h
    refine ⟨_, fun h => absurd h hd, fun _ => ?_, ?_, (Except.ok.inj h).symm⟩ <;> rfl

theorem recordRateSnapshot_eq_ok {s s' : State W} {token : Address}
    (h : s.recordRateSnapshot token = .ok s') :
    ∃ history, s' = { s with rateHistory := history } := by
  unfold recordRateSnapshot at h
  split at h
  · exact ⟨s.rateHistory, ((pure_eq_ok _ _).1 h).symm⟩
  · simp only [bind_eq_ok] at h
    obtain ⟨util, -, h⟩ := h
    split_ifs at h
    · exact ⟨s.rateHistory, ((pure_eq_ok _ _).1 h).symm⟩
    · exact ⟨_, ((pure_eq_ok _ _).1 h).symm⟩

theorem recordReferralActivity_eq_ok {h : Host W} {s s' : State W} {referee : Address}
    {kind : ActivityKind} {fee : ℤ} {token : Address}
    (hr : s.recordReferralActivity h referee kind fee token = .ok s') :
    (∃ w, s' = { s with world := w }) ∨
    ∃ registry reward w, h.recordActivity s.world registry referee kind fee token =
        some (reward, w) ∧
      0 < reward ∧ reward ≤ s.cash token h.self ∧
      s' = { s with
        world := w
        totals := Function.update s.totals token (some { s.tt token with
          protocolRevenue := saturatingSub (s.tt token).protocolRevenue reward })
        cash := moveCash s.cash token h.self registry reward } := by
  unfold recordReferralActivity at hr
  split_ifs at hr
  · exact .inl ⟨s.world, ((pure_eq_ok _ _).1 hr).symm⟩
  · split at hr
    · exact .inl ⟨s.world, ((pure_eq_ok _ _).1 hr).symm⟩
    · split at hr
      · exact .inl ⟨s.world, ((pure_eq_ok _ _).1 hr).symm⟩
      · rename_i registry _ _ reward w hact
        simp only at hr
        split_ifs at hr with hpos
        · exact .inl ⟨w, ((pure_eq_ok _ _).1 hr).symm⟩
        · obtain ⟨-, hle, rfl⟩ := transfer_eq_ok.1 hr
          exact .inr ⟨registry, reward, w, hact, by omega, hle, rfl⟩

end State

theorem supply_nonneg (s : State W) (share : Address) : 0 ≤ s.supply share := by
  unfold State.supply
  rw [(s.shareTokens share).supply_eq]
  exact Store.total_nonneg fun a b hb => (s.shareTokens share).nonneg a b hb

/-! ## Reading the pool

Entry points that answer from the stored state and change nothing: the amount that would settle an
invoice, the recorded samples of the rate, and the share of an investor in the pool. -/

/-- `estimate_repayment`: what is left to pay at the present time or at a later one. -/
def estimateRepayment (s : State W) (invoiceId : ℕ) (asOfTimestamp : Option ℕ) : Res ℤ := do
  let record ← okOr (s.funded.get invoiceId) (.err .InvoiceNotFound)
  if record.fundedAt = 0 then return record.principal
  else do
    let asOf := asOfTimestamp.getD s.now
    require (s.now ≤ asOf) (.err .TimestampInPast)
    let (_, totalDue) ← calculateTotalDue record s.params.config.compoundInterest asOf
    let remaining ← okOr (checkedSub totalDue record.repaidAmount) overflowTrap
    return if remaining < 0 then 0 else remaining

/-- `get_rate_history`: the newest `limit` samples of a token, oldest first. -/
def getRateHistory (s : State W) (token : Address) (limit : ℕ) : List RateSnapshot :=
  let history := s.rateHistory token
  if history.len = 0 ∨ limit = 0 then []
  else
    let take := min history.len limit
    let skip := history.len - take
    (List.range' skip take).filterMap fun offset =>
      history.slot ((history.start + offset) % maxRateHistory)

def getInvestorConcentration (s : State W) (investor token : Address) : Res ℕ :=
  let tt := s.tt token
  if tt.poolValue ≤ 0 then return 0 else shareBps (s.position investor token).deposited tt.poolValue

end Astera.Pool
