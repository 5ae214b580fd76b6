import Astera.Pool.Collateral

/-!
# Administration and satellite entrypoints

Registering tokens, the two-step critical operations, protocol revenue, insurance payouts, and the
settlement of secondary-market listings.
-/

namespace Astera.Pool

open Fallible Machine

variable {W : Type}
variable {h : Host W} {admin : Address} {signers : List Address} {s s' : State W} {proposalId : ℕ}
  {amount : ℤ}

/-- `add_token`: a token that already has totals keeps its share contract. -/
def addToken (h : Host W) (signers : List Address) (s : State W) (admin token share : Address) :
    Res (State W) := do
  requireAuth signers admin
  s.requireNotPaused
  s.requireAdmin admin
  let decimals ← okOr (h.decimals s.world token) (.trap .neighbour)
  require (decimals = expectedDecimals) (.err .UnsupportedTokenDecimals)
  require ((h.decimals s.world share).isSome = true) (.err .InvalidShareToken)
  require (token ∉ s.acceptedTokens) (.err .TokenAlreadyAccepted)
  let s := { s with acceptedTokens := s.acceptedTokens ++ [token] }
  if s.totals token = none then
    return { s with
      totals := Function.update s.totals token (some {})
      shareToken := Function.update s.shareToken token (some share)
      tokenConfig := Function.update s.tokenConfig token (some ⟨token, share, decimals⟩) }
  else return s

def executeRemoveToken (s : State W) (token : Address) : Res (State W) := do
  require (token ∈ s.acceptedTokens) (.err .TokenNotWhitelisted)
  require ((s.tt token).totalDeployed ≤ 0) (.err .TokenHasDeployedCapital)
  require (s.queue token = []) (.err .TokenHasPendingWithdrawals)
  let share ← s.shareTokenOf token
  require (s.supply share ≤ 0) (.err .TokenHasActiveBalances)
  require (∀ id ∈ s.tokenInvoiceIds token, ¬ (s.funded.get id).any (fun r => r.token = token) = true)
    (.err .TokenHasActiveCofundingCommitments)
  return { s with acceptedTokens := s.acceptedTokens.filter fun t => t ≠ token }

/-! ## Critical operations -/

def validateCollateralConfig (threshold : ℤ) (collateralBps : ℕ) : Res Unit := do
  require (0 ≤ threshold) (.err .InvalidCollateralThreshold)
  require (collateralBps ≤ bpsDenom) (.err .InvalidCollateralBps)
  require (¬ (collateralBps = 0 ∧ 0 < threshold)) (.err .InvalidCollateralBps)

def executeSetCollateralConfig (s : State W) (threshold : ℤ) (collateralBps : ℕ) :
    Res (State W) := do
  validateCollateralConfig threshold collateralBps
  return { s with params := { s.params with collateralConfig := ⟨threshold, collateralBps⟩ } }

/-- The parameter check of `propose_operation`. -/
def validateOperation : AdminOperation → Res Unit
  | .SetCollateralConfig threshold collateralBps => validateCollateralConfig threshold collateralBps
  | .RemoveToken _ => return ()
  | .SeizeCollateral _ => return ()

def proposeOperation (signers : List Address) (s : State W) (admin : Address)
    (operation : AdminOperation) : Res (State W) := do
  requireAuth signers admin
  s.requireNotPaused
  s.requireAdmin admin
  validateOperation operation
  let executeAfter ← okOr (fitU 64 (s.now + s.params.operationDelay)) overflowErr
  let next ← okOr (fitU 64 (s.nextProposalId + 1)) overflowTrap
  return { s with
    nextProposalId := next
    proposals := Function.update s.proposals s.nextProposalId
      (some ⟨operation, executeAfter, s.now, admin, false, false⟩) }

/-- The dispatch of `execute_operation`. -/
def executeAdminOperation (h : Host W) (s : State W) : AdminOperation → Res (State W)
  | .RemoveToken token => executeRemoveToken s token
  | .SetCollateralConfig threshold collateralBps =>
    executeSetCollateralConfig s threshold collateralBps
  | .SeizeCollateral invoiceId => seizeCollateralCore h s invoiceId

def executeOperation (h : Host W) (signers : List Address) (s : State W) (admin : Address)
    (proposalId : ℕ) : Res (State W) := do
  requireAuth signers admin
  s.requireNotPaused
  s.requireAdmin admin
  let proposal ← okOr (s.proposals proposalId) (.err .ProposalNotFound)
  require (proposal.executed = false) (.err .ProposalAlreadyExecuted)
  require (proposal.cancelled = false) (.err .ProposalAlreadyCancelled)
  require (proposal.executeAfter ≤ s.now) (.err .ProposalNotReady)
  let s := { s with
    proposals := Function.update s.proposals proposalId (some { proposal with executed := true }) }
  executeAdminOperation h s proposal.operation

def cancelOperation (signers : List Address) (s : State W) (admin : Address) (proposalId : ℕ) :
    Res (State W) := do
  requireAuth signers admin
  s.requireAdmin admin
  let proposal ← okOr (s.proposals proposalId) (.err .ProposalNotFound)
  require (proposal.executed = false) (.err .ProposalAlreadyExecuted)
  require (proposal.cancelled = false) (.err .ProposalAlreadyCancelled)
  return { s with
    proposals := Function.update s.proposals proposalId (some { proposal with cancelled := true }) }

def setMaxInvestorConcentration (signers : List Address) (s : State W) (admin : Address)
    (maxBps : ℕ) : Res (State W) := do
  requireAuth signers admin
  s.requireAdmin admin
  require (maxBps ≤ bpsDenom) (.err .InvalidAmount)
  return { s with
    params := { s.params with
      config := { s.params.config with maxSingleInvestorBps := maxBps } } }

/-- The body shared by `withdraw_revenue` and `withdraw_revenue_via_ac`. -/
def payRevenue (h : Host W) (s : State W) (token : Address) (amount : ℤ) : Res (State W) := do
  require (0 < amount) (.err .InvalidAmount)
  let treasury ← okOr s.params.treasury (.err .TreasuryNotConfigured)
  let tt := s.tt token
  require (amount ≤ tt.protocolRevenue) (.err .InsufficientRevenue)
  (s.setTotals token { tt with protocolRevenue := tt.protocolRevenue - amount }).transfer
    token h.self treasury amount

def withdrawRevenue (h : Host W) (signers : List Address) (s : State W) (admin token : Address)
    (amount : ℤ) : Res (State W) := do
  requireAuth signers admin
  s.requireNotPaused
  s.requireAdmin admin
  payRevenue h s token amount

def withdrawRevenueViaAc (h : Host W) (signers : List Address) (s : State W)
    (accessControl token : Address) (amount : ℤ) : Res (State W) := do
  requireAuth signers accessControl
  let configured ← okOr s.params.accessControl (.err .AccessControlNotConfigured)
  require (accessControl = configured) (.err .Unauthorized)
  s.requireNotPaused
  payRevenue h s token amount

def receiveInsurancePayout (signers : List Address) (s : State W) (insurance token : Address)
    (amount : ℤ) : Res (State W) := do
  requireAuth signers insurance
  let configured ← okOr s.params.insuranceContract (.err .Unauthorized)
  require (insurance = configured) (.err .Unauthorized)
  require (0 < amount) (.err .InvalidAmount)
  let tt := s.tt token
  let poolValue ← okOr (checkedAdd tt.poolValue amount) overflowErr
  return s.setTotals token { tt with poolValue := poolValue }

/-- The concentration limit of `market_settle_listing`. -/
def State.requireBuyerConcentration (s : State W) (buyerDeployed price poolValue : ℤ) :
    Res Unit :=
  if s.params.config.maxSingleInvestorBps < bpsDenom then do
    let newDeployed ← okOr (checkedAdd buyerDeployed price) overflowErr
    let bps ← shareBps newDeployed (max poolValue 1)
    require (bps ≤ s.params.config.maxSingleInvestorBps) (.err .ConcentrationLimitExceeded)
  else return ()

/-- The transfer of co-funding basis points in `market_settle_listing`. -/
def State.moveCoFundShare (s : State W) (record : FundedInvoice) (isCoFunding : Bool)
    (seller buyer : Address) (amountOrBps : ℕ) : Res (State W) := do
  if isCoFunding = false then return s
  let roundId ← okOr record.coFundingRoundId (.err .InvalidAmount)
  let fromBps := s.coFundShare roundId seller
  let transferBps := truncU 32 amountOrBps
  require (transferBps ≤ fromBps) (.err .InsufficientListingBalance)
  let toBps := s.coFundShare roundId buyer
  let newFrom := fromBps - transferBps
  let newTo ← okOr (fitU 32 (toBps + transferBps)) overflowErr
  let s := { s with
    coFundShare := set₂ (set₂ s.coFundShare roundId seller newFrom) roundId buyer newTo }
  s.syncParticipants roundId seller buyer newFrom toBps

/-- `market_settle_listing`: the price moves between the `available` entries of the two positions;
no share tokens move. -/
def marketSettleListing (h : Host W) (signers : List Address) (s : State W) (market : Address)
    (l : ListingSettlement) : Res (State W) := do
  requireAuth signers market
  let authorizedMarket ← okOr s.params.secondaryMarket (.err .NotInitialized)
  require (market = authorizedMarket) (.err .Unauthorized)
  s.requireNotPaused
  s.requireComplianceCleared h l.buyer
  s.requireComplianceCleared h l.seller
  require (l.seller ≠ l.buyer) (.err .Unauthorized)
  s.requireKycApproved l.buyer
  s.requireKycApproved l.seller
  let record ← okOr (s.funded.get l.invoiceId) (.err .InvoiceNotFound)
  let token := record.token
  let buyerPos := s.position l.buyer token
  require (l.price ≤ buyerPos.available) (.err .InvalidAmount)
  s.requireBuyerConcentration buyerPos.deployed l.price (s.tt token).poolValue
  let s ← s.moveCoFundShare record l.isCoFunding l.seller l.buyer l.amountOrBps
  let sellerPos := s.position l.seller token
  let moved : ℤ := if l.isCoFunding then 0 else l.amountOrBps
  require (l.isCoFunding = true ∨ moved ≤ sellerPos.deployed) (.err .InsufficientListingBalance)
  let sellerDeployed ← okOr (checkedSub sellerPos.deployed moved) overflowErr
  let buyerDeployed ← okOr (checkedAdd buyerPos.deployed moved) overflowErr
  let buyerAvailable ← okOr (checkedSub buyerPos.available l.price) overflowErr
  let sellerAvailable ← okOr (checkedAdd sellerPos.available l.price) overflowErr
  let position := set₂ s.position l.buyer token
    { buyerPos with available := buyerAvailable, deployed := buyerDeployed }
  return { s with
    position := set₂ position l.seller token
      { sellerPos with available := sellerAvailable, deployed := sellerDeployed } }

/-! ## What a successful call did -/

theorem addToken_eq_ok {admin token share : Address}
    (ha : addToken h signers s admin token share = .ok s') :
    ∃ accepted,
      (s.totals token = none ∧ ∃ config, s' = { s with
        acceptedTokens := accepted
        totals := Function.update s.totals token (some {})
        shareToken := Function.update s.shareToken token (some share)
        tokenConfig := config }) ∨
      s' = { s with acceptedTokens := accepted } := by
  unfold addToken at ha
  simp only [bind_eq_ok, require_eq_ok, exists_unit, okOr_eq_ok] at ha
  obtain ⟨-, -, -, _, -, -, -, -, ha⟩ := ha
  refine ⟨s.acceptedTokens ++ [token], ?_⟩
  split_ifs at ha with hnone
  · exact .inl ⟨hnone, _, ((pure_eq_ok _ _).1 ha).symm⟩
  · exact .inr ((pure_eq_ok _ _).1 ha).symm

theorem proposeOperation_eq_ok {operation : AdminOperation}
    (hp : proposeOperation signers s admin operation = .ok s') :
    ∃ next proposals, s' = { s with nextProposalId := next, proposals := proposals } := by
  unfold proposeOperation at hp
  simp only [bind_eq_ok, exists_unit, okOr_eq_ok, pure_eq_ok] at hp
  obtain ⟨-, -, -, -, _, -, _, -, rfl⟩ := hp
  exact ⟨_, _, rfl⟩

/-- The invoice whose collateral a proposal is to seize. -/
def State.proposedSeizure (s : State W) (proposalId : ℕ) : Option ℕ :=
  match (s.proposals proposalId).map Proposal.operation with
  | some (.SeizeCollateral invoiceId) => some invoiceId
  | _ => none

theorem executeAdminOperation_eq_ok {operation : AdminOperation}
    (he : executeAdminOperation h s operation = .ok s') :
    (∃ token accepted, operation = .RemoveToken token ∧
      s' = { s with acceptedTokens := accepted }) ∨
    (∃ threshold bps, operation = .SetCollateralConfig threshold bps ∧
      validateCollateralConfig threshold bps = .ok () ∧
      s' = { s with params := { s.params with collateralConfig := ⟨threshold, bps⟩ } }) ∨
    ∃ invoiceId, operation = .SeizeCollateral invoiceId ∧
      seizeCollateralCore h s invoiceId = .ok s' := by
  cases operation with
  | RemoveToken token =>
    simp only [executeAdminOperation, executeRemoveToken, bind_eq_ok, exists_unit,
      pure_eq_ok] at he
    obtain ⟨-, -, -, _, -, -, -, rfl⟩ := he
    exact .inl ⟨token, _, rfl, rfl⟩
  | SetCollateralConfig threshold bps =>
    simp only [executeAdminOperation, executeSetCollateralConfig, bind_eq_ok, exists_unit,
      pure_eq_ok] at he
    obtain ⟨hvalid, rfl⟩ := he
    exact .inr (.inl ⟨threshold, bps, rfl, hvalid, rfl⟩)
  | SeizeCollateral invoiceId => exact .inr (.inr ⟨invoiceId, rfl, he⟩)

theorem executeOperation_dispatch (he : executeOperation h signers s admin proposalId = .ok s') :
    ∃ proposal, s.proposals proposalId = some proposal ∧ proposal.executed = false ∧
      proposal.cancelled = false ∧ proposal.executeAfter ≤ s.now ∧
      executeAdminOperation h { s with
        proposals := Function.update s.proposals proposalId
          (some { proposal with executed := true }) } proposal.operation = .ok s' := by
  unfold executeOperation at he
  simp only [bind_eq_ok, require_eq_ok, exists_unit, okOr_eq_ok] at he
  obtain ⟨-, -, -, proposal, hproposal, hexecuted, hcancelled, hready, he⟩ := he
  exact ⟨proposal, hproposal, hexecuted, hcancelled, hready, he⟩

theorem executeOperation_eq_ok (he : executeOperation h signers s admin proposalId = .ok s') :
    ∃ proposals,
      (s.proposedSeizure proposalId = none ∧ ∃ accepted config, s' = { s with
        proposals := proposals
        acceptedTokens := accepted
        params := { s.params with collateralConfig := config } }) ∨
      ∃ invoiceId, s.proposedSeizure proposalId = some invoiceId ∧
        seizeCollateralCore h { s with proposals := proposals } invoiceId = .ok s' := by
  obtain ⟨proposal, hproposal, -, -, -, he⟩ := executeOperation_dispatch he
  refine ⟨Function.update s.proposals proposalId (some { proposal with executed := true }), ?_⟩
  rcases executeAdminOperation_eq_ok he with ⟨token, accepted, hop, rfl⟩ |
    ⟨threshold, bps, hop, -, rfl⟩ | ⟨invoiceId, hop, hseize⟩
  · exact .inl ⟨by simp [State.proposedSeizure, hproposal, hop], _, _, rfl⟩
  · exact .inl ⟨by simp [State.proposedSeizure, hproposal, hop], _, _, rfl⟩
  · exact .inr ⟨invoiceId, by simp [State.proposedSeizure, hproposal, hop], hseize⟩

theorem cancelOperation_eq_ok (hc : cancelOperation signers s admin proposalId = .ok s') :
    ∃ proposals, s' = { s with proposals := proposals } := by
  unfold cancelOperation at hc
  simp only [bind_eq_ok, exists_unit, okOr_eq_ok, pure_eq_ok] at hc
  obtain ⟨-, -, _, -, -, -, rfl⟩ := hc
  exact ⟨_, rfl⟩

theorem setMaxInvestorConcentration_eq_ok {maxBps : ℕ}
    (hs : setMaxInvestorConcentration signers s admin maxBps = .ok s') :
    s' = { s with
      params := { s.params with
        config := { s.params.config with maxSingleInvestorBps := maxBps } } } := by
  unfold setMaxInvestorConcentration at hs
  simp only [bind_eq_ok, exists_unit, pure_eq_ok] at hs
  exact hs.2.2.2.symm

theorem payRevenue_eq_ok {token : Address} (hp : payRevenue h s token amount = .ok s') :
    ∃ treasury, 0 < amount ∧ amount ≤ (s.tt token).protocolRevenue ∧
      s' = { s with
        totals := Function.update s.totals token
          (some { s.tt token with protocolRevenue := (s.tt token).protocolRevenue - amount })
        cash := State.moveCash s.cash token h.self treasury amount } := by
  unfold payRevenue at hp
  simp only [bind_eq_ok, require_eq_ok, exists_unit, okOr_eq_ok, State.transfer_eq_ok] at hp
  obtain ⟨hpos, treasury, -, hle, -, -, rfl⟩ := hp
  exact ⟨treasury, hpos, hle, rfl⟩

theorem withdrawRevenue_eq_ok {admin token : Address}
    (hw : withdrawRevenue h signers s admin token amount = .ok s') :
    payRevenue h s token amount = .ok s' := by
  unfold withdrawRevenue at hw
  simp only [bind_eq_ok, exists_unit] at hw
  exact hw.2.2.2

theorem withdrawRevenueViaAc_eq_ok {accessControl token : Address}
    (hw : withdrawRevenueViaAc h signers s accessControl token amount = .ok s') :
    payRevenue h s token amount = .ok s' := by
  unfold withdrawRevenueViaAc at hw
  simp only [bind_eq_ok, exists_unit] at hw
  obtain ⟨-, _, -, -, -, hw⟩ := hw
  exact hw

theorem receiveInsurancePayout_eq_ok {insurance token : Address}
    (hr : receiveInsurancePayout signers s insurance token amount = .ok s') :
    0 < amount ∧ InI128 ((s.tt token).poolValue + amount) ∧
      s' = { s with
        totals := Function.update s.totals token
          (some { s.tt token with poolValue := (s.tt token).poolValue + amount }) } := by
  unfold receiveInsurancePayout at hr
  simp only [bind_eq_ok, require_eq_ok, exists_unit, okOr_eq_ok, checkedAdd_eq_some,
    pure_eq_ok] at hr
  obtain ⟨-, _, -, -, hpos, _, ⟨rfl, hrange⟩, rfl⟩ := hr
  exact ⟨hpos, hrange, rfl⟩

theorem moveCoFundShare_eq_ok {record : FundedInvoice} {isCoFunding : Bool} {seller buyer : Address}
    {amountOrBps : ℕ} (hm : s.moveCoFundShare record isCoFunding seller buyer amountOrBps = .ok s') :
    ∃ coFundShare, s' = { s with coFundShare := coFundShare } ∨
      ∃ roundId round participants, record.coFundingRoundId = some roundId ∧
        s.rounds.get roundId = some round ∧
        s' = { s with
          coFundShare := coFundShare
          rounds := s.rounds.set roundId { round with participants := participants } } := by
  unfold State.moveCoFundShare at hm
  split_ifs at hm with hco
  · exact ⟨s.coFundShare, .inl ((pure_eq_ok _ _).1 hm).symm⟩
  · simp only [bind_eq_ok, exists_unit, okOr_eq_ok] at hm
    obtain ⟨roundId, hid, -, _, -, hm⟩ := hm
    rcases syncParticipants_eq_ok hm with rfl | ⟨round, participants, hround, rfl⟩
    · exact ⟨_, .inl rfl⟩
    · exact ⟨_, .inr ⟨roundId, round, participants, hid, hround, rfl⟩⟩

theorem marketSettleListing_eq_ok {market : Address} {l : ListingSettlement}
    (hm : marketSettleListing h signers s market l = .ok s') :
    ∃ record s₁ buyerPos sellerPos, l.seller ≠ l.buyer ∧
      s.funded.get l.invoiceId = some record ∧
      s.moveCoFundShare record l.isCoFunding l.seller l.buyer l.amountOrBps = .ok s₁ ∧
      buyerPos.available = (s.position l.buyer record.token).available - l.price ∧
      sellerPos.available = (s₁.position l.seller record.token).available + l.price ∧
      s' = { s₁ with
        position := set₂ (set₂ s₁.position l.buyer record.token buyerPos) l.seller record.token
          sellerPos } := by
  unfold marketSettleListing at hm
  simp only [bind_eq_ok, require_eq_ok, exists_unit, okOr_eq_ok, checkedSub_eq_some,
    checkedAdd_eq_some, pure_eq_ok] at hm
  obtain ⟨-, _, -, -, -, -, -, hne, -, -, record, hrecord, -, -, s₁, hmove, -, _, ⟨rfl, -⟩, _,
    ⟨rfl, -⟩, _, ⟨rfl, -⟩, _, ⟨rfl, -⟩, rfl⟩ := hm
  exact ⟨record, s₁, _, _, hne, hrecord, hmove, rfl, rfl, rfl⟩

end Astera.Pool
