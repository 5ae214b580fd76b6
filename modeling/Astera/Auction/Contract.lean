import Astera.Auction.Types
import Astera.Pool.Collateral

/-!
# The auction contract

The storage of the contract and its writing entrypoints.  It stands beside the pool: `ledger` is the
pool's state, and a call into the pool is a call of its model.  Time-to-live extensions, events, the
views and the clearing of funding rounds are left out.
-/

namespace Astera.Auction

open Fallible Machine

variable {W : Type}

structure Host (W : Type) where
  /-- The pool's neighbours; its `self` is the pool that `initialize` names. -/
  pool : Pool.Host W
  self : Address
  self_ne_pool : self ≠ pool.self
  /-- Whether the contract's own authorization counts when one of its functions calls another one of
  them, as `liquidate_collateral` does with `open_collateral_sale`. -/
  selfAuthorizes : Bool

structure State (W : Type) where
  ledger : Pool.State W
  admin : Address
  riskConfig : Option CollateralRiskConfig := none
  sales : Store ℕ CollateralSale := ∅
  nextSaleId : ℕ := 1
  atRiskSince : ℕ → Option ℕ := fun _ => none
  auctions : Store ℕ InvoiceAuction := ∅
  nextAuctionId : ℕ := 1
  bids : ℕ → List InvestorBid := fun _ => []
  escrow : Store (Address × ℕ) ℤ := ∅

/-- `initialize`, which checks no authorization. -/
def initializeAuction (ledger : Pool.State W) (admin : Address) : State W :=
  { ledger := ledger, admin := admin }

def requireAuth (signers : List Address) (a : Address) : Res Unit := require (a ∈ signers) .auth

namespace State

variable (s : State W)

/-- `transfer` of a standard token. -/
def transfer (token sender receiver : Address) (amount : ℤ) : Res (State W) := do
  let ledger ← (s.ledger.transfer token sender receiver amount).mapError fun _ => .token
  return { s with ledger := ledger }

def loadSale (saleId : ℕ) : Res CollateralSale := okOr (s.sales.get saleId) (.error .SaleNotFound)

def setSale (saleId : ℕ) (sale : CollateralSale) : State W :=
  { s with sales := s.sales.set saleId sale }

def loadAuction (auctionId : ℕ) : Res InvoiceAuction :=
  okOr (s.auctions.get auctionId) (.error .AuctionNotFound)

def setAuction (auctionId : ℕ) (auction : InvoiceAuction) : State W :=
  { s with auctions := s.auctions.set auctionId auction }

def getCollateralRiskConfig : CollateralRiskConfig :=
  s.riskConfig.getD ⟨defaultDangerBps, defaultGracePeriodSecs⟩

def clearRisk (invoiceId : ℕ) : State W :=
  { s with atRiskSince := Function.update s.atRiskSince invoiceId none }

end State

section Sales

variable (h : Host W) (signers : List Address) (s : State W)

def State.newSale (saleId : ℕ) (params : CollateralSaleParams) : CollateralSale where
  saleId := saleId
  seller := params.seller
  token := params.token
  amount := params.amount
  proceedsToken := params.proceedsToken
  proceedsRecipient := params.proceedsRecipient
  startPrice := params.startPrice
  floorPrice := params.floorPrice
  openedAt := s.ledger.now
  durationSecs := params.durationSecs
  status := .Open
  taker := none
  settledPrice := none

/-- `open_collateral_sale`, after its authorization. -/
def openSale (params : CollateralSaleParams) : Res (State W × ℕ) := do
  require (¬ (params.amount ≤ 0 ∨ params.startPrice ≤ 0 ∨ params.floorPrice < 0 ∨
    params.startPrice < params.floorPrice ∨ params.durationSecs = 0)) (.error .InvalidSaleParams)
  let s ← s.transfer params.token params.seller h.self params.amount
  let saleId := s.nextSaleId
  let next ← okOr (fitU 64 (saleId + 1)) .overflow
  return ({ s.setSale saleId (s.newSale saleId params) with nextSaleId := next }, saleId)

def openCollateralSale (params : CollateralSaleParams) : Res (State W × ℕ) := do
  requireAuth signers params.seller
  openSale h s params

def CollateralSale.priceAt (sale : CollateralSale) (now : ℕ) : Res ℤ := do
  let elapsed := min (now - sale.openedAt) sale.durationSecs
  let spread ← okOr (checkedSub sale.startPrice sale.floorPrice) .overflow
  let decay ← okOr ((checkedMul spread elapsed).bind fun v => checkedDiv v sale.durationSecs)
    (.error .InvalidSaleParams)
  okOr (checkedSub sale.startPrice decay) .overflow

def takeCollateralSale (taker : Address) (saleId : ℕ) : Res (State W) := do
  requireAuth signers taker
  let sale ← s.loadSale saleId
  require (sale.status = .Open) (.error .SaleNotOpen)
  require (s.ledger.now ≤ windowEnd sale.openedAt sale.durationSecs) (.error .SaleExpired)
  let price ← sale.priceAt s.ledger.now
  let s := s.setSale saleId
    { sale with status := .Settled, taker := some taker, settledPrice := some price }
  let s ← s.transfer sale.proceedsToken taker sale.proceedsRecipient price
  s.transfer sale.token h.self taker sale.amount

def reclaimExpiredSale (caller : Address) (saleId : ℕ) : Res (State W) := do
  requireAuth signers caller
  let sale ← s.loadSale saleId
  require (sale.status = .Open) (.error .SaleNotOpen)
  require (windowEnd sale.openedAt sale.durationSecs < s.ledger.now) (.error .SaleNotExpired)
  let s := s.setSale saleId { sale with status := .Expired }
  s.transfer sale.token h.self sale.seller sale.amount

def cancelCollateralSale (seller : Address) (saleId : ℕ) : Res (State W) := do
  requireAuth signers seller
  let sale ← s.loadSale saleId
  require (sale.status = .Open) (.error .SaleNotOpen)
  require (sale.seller = seller) (.error .Unauthorized)
  let s := s.setSale saleId { sale with status := .Cancelled }
  s.transfer sale.token h.self sale.seller sale.amount

end Sales

section Auctions

variable (h : Host W) (signers : List Address) (s : State W)

def State.newAuction (auctionId invoiceId : ℕ) (sme token : Address) (principal : ℤ)
    (targetDiscountBps durationSecs : ℕ) : InvoiceAuction where
  auctionId := auctionId
  invoiceId := invoiceId
  sme := sme
  token := token
  principal := principal
  targetDiscountBps := targetDiscountBps
  openedAt := s.ledger.now
  durationSecs := durationSecs
  status := .Open
  winningBid := none
  winningDiscountBps := none

def openInvoiceAuction (caller : Address) (invoiceId : ℕ) (sme token : Address) (principal : ℤ)
    (targetDiscountBps durationSecs : ℕ) : Res (State W × ℕ) := do
  requireAuth signers caller
  require (¬ (principal ≤ 0 ∨ 10000 < targetDiscountBps ∨ durationSecs = 0))
    (.error .InvalidSaleParams)
  let auctionId := s.nextAuctionId
  let next ← okOr (fitU 64 (auctionId + 1)) .overflow
  return ({ s.setAuction auctionId
      (s.newAuction auctionId invoiceId sme token principal targetDiscountBps durationSecs) with
    nextAuctionId := next }, auctionId)

def placeBid (investor : Address) (auctionId : ℕ) (bidAmount : ℤ) (discountBps : ℕ) :
    Res (State W) := do
  requireAuth signers investor
  let auction ← s.loadAuction auctionId
  require (auction.status = .Open) (.error .AuctionNotOpen)
  require (s.ledger.now ≤ windowEnd auction.openedAt auction.durationSecs) (.error .AuctionExpired)
  require (¬ (bidAmount ≤ 0 ∨ 10000 < discountBps)) (.error .InvalidSaleParams)
  let s ← s.transfer auction.token investor h.self bidAmount
  let existing := (s.escrow.get (investor, auctionId)).getD 0
  let escrowed ← okOr (checkedAdd existing bidAmount) .overflow
  return { s with
    escrow := s.escrow.set (investor, auctionId) escrowed
    bids := Function.update s.bids auctionId
      (s.bids auctionId ++ [⟨auctionId, investor, bidAmount, discountBps⟩]) }

def withdrawBid (investor : Address) (auctionId : ℕ) : Res (State W) := do
  requireAuth signers investor
  let auction ← s.loadAuction auctionId
  require (auction.status ≠ .Open) (.error .AuctionNotOpen)
  let escrowed ← okOr (s.escrow.get (investor, auctionId)) (.error .BidWithdrawFailed)
  require (escrowed ≠ 0) (.error .BidWithdrawFailed)
  require (auction.winningBid ≠ some investor) (.error .Unauthorized)
  let s := { s with escrow := s.escrow.remove (investor, auctionId) }
  s.transfer auction.token h.self investor escrowed

/-- One turn of the loop that looks for the winning bid. -/
def betterBid (best : InvestorBid × ℕ) (bid : InvestorBid) : InvestorBid × ℕ :=
  if bid.discountBps < best.2 then (bid, bid.discountBps) else best

/-- The first of the bids with the lowest discount. -/
def winningBid : List InvestorBid → Option InvestorBid
  | [] => none
  | first :: rest => some ((first :: rest).foldl betterBid (first, 10001)).1

/-- `settle_invoice_auction`.  The caller is compared with the pool and not authenticated; a call
without bids returns an error, which undoes its cancellation. -/
def settleInvoiceAuction (caller : Address) (auctionId : ℕ) : Res (State W × Address) := do
  require (caller = h.pool.self) (.error .UnauthorizedSettlement)
  let auction ← s.loadAuction auctionId
  require (auction.status = .Open) (.error .AuctionNotOpen)
  let winner ← okOr (winningBid (s.bids auctionId)) (.error .NoBids)
  return (s.setAuction auctionId
    { auction with
      winningBid := some winner.investor
      winningDiscountBps := some winner.discountBps
      status := .Settled }, winner.investor)

def expireInvoiceAuction (caller : Address) (auctionId : ℕ) : Res (State W) := do
  requireAuth signers caller
  let auction ← s.loadAuction auctionId
  require (auction.status = .Open) (.error .AuctionNotOpen)
  require (windowEnd auction.openedAt auction.durationSecs < s.ledger.now)
    (.error .AuctionNotExpired)
  return s.setAuction auctionId { auction with status := .Cancelled }

end Auctions

/-! ## Collateral risk -/

section Risk

variable (h : Host W) (signers : List Address) (s : State W)

def setAdmin (admin newAdmin : Address) : Res (State W) := do
  requireAuth signers admin
  require (admin = s.admin) (.error .Unauthorized)
  return { s with admin := newAdmin }

def setCollateralRiskConfig (admin : Address) (dangerBps gracePeriodSecs : ℕ) : Res (State W) := do
  requireAuth signers admin
  require (admin = s.admin) (.error .Unauthorized)
  require (¬ ((dangerBps : ℤ) ≤ bpsDenom ∨ maxDangerBps < dangerBps ∨ gracePeriodSecs = 0 ∨
    maxGracePeriodSecs < gracePeriodSecs)) (.error .InvalidRiskConfig)
  return { s with riskConfig := some ⟨dangerBps, gracePeriodSecs⟩ }

def State.fetchPrice (token : Address) : Res ℤ :=
  match s.ledger.getAssetPrice h.pool token with
  | .ok price => if 0 < price then .ok price else .error (.error .OraclePriceUnavailable)
  | .error _ => .error (.error .OraclePriceUnavailable)

def requiredCollateral (principal threshold : ℤ) (collateralBps : ℕ) : Res ℤ :=
  if principal < threshold then return 0
  else do
    let scaled ← okOr (fitU 128 (toU 128 principal * collateralBps)) .overflow
    return toI128 (scaled / 10000)

def State.computeLiveRatio (invoiceId : ℕ) : Res ℕ := do
  let deposit ← okOr (s.ledger.collateral.get invoiceId) (.error .DepositNotFound)
  require (deposit.settled = false) (.error .CollateralAlreadySettled)
  let funded ← okOr (s.ledger.funded.get invoiceId) (.error .InvoiceNotFound)
  let required ← requiredCollateral funded.principal deposit.thresholdAtDeposit
    deposit.collateralBpsAtDeposit
  if required ≤ 0 then return 10000
  else do
    let collateralPrice ← s.fetchPrice h deposit.token
    let fundingPrice ← s.fetchPrice h funded.token
    let collateralValue ← okOr (checkedMul deposit.amount collateralPrice) (.error .AmountOverflow)
    let requiredValue ← okOr (checkedMul required fundingPrice) (.error .AmountOverflow)
    if requiredValue ≤ 0 then return 10000
    else do
      let scaled ← okOr (checkedMul collateralValue bpsDenom) .overflow
      return toU 32 (scaled.tdiv requiredValue)

def checkCollateralRisk (caller : Address) (invoiceId : ℕ) : Res (State W × Bool) := do
  requireAuth signers caller
  let ratioBps ← s.computeLiveRatio h invoiceId
  if ratioBps < s.getCollateralRiskConfig.dangerBps then
    match s.atRiskSince invoiceId with
    | none =>
      return ({ s with
        atRiskSince := Function.update s.atRiskSince invoiceId (some s.ledger.now) }, true)
    | some _ => return (s, true)
  else return (s.clearRisk invoiceId, false)

/-- The sale of a seized deposit: from its value at the current prices to half of it, over the grace
period, for the pool. -/
def liquidationSale (deposit : Pool.CollateralDeposit) (funded : Pool.FundedInvoice)
    (startPrice : ℤ) (gracePeriodSecs : ℕ) : CollateralSaleParams where
  seller := h.self
  token := deposit.token
  amount := deposit.amount
  proceedsToken := funded.token
  proceedsRecipient := h.pool.self
  startPrice := startPrice
  floorPrice := startPrice.tdiv 2
  durationSecs := gracePeriodSecs

/-- The part of `liquidate_collateral` that seizes the deposit and puts it up for sale. -/
def State.seize (invoiceId : ℕ) : Res (State W) := do
  let deposit ← okOr (s.ledger.collateral.get invoiceId) .decode
  let funded ← okOr (s.ledger.funded.get invoiceId) .decode
  let ledger ← (Pool.riskLiquidateCollateral h.pool [h.self] s.ledger h.self invoiceId).mapError
    fun _ => .error .PoolCallFailed
  let seized := { s with ledger := ledger }
  let collateralPrice ← seized.fetchPrice h deposit.token
  let fundingPrice ← seized.fetchPrice h funded.token
  let startPrice ← okOr
    ((checkedMul deposit.amount collateralPrice).bind fun v => checkedDiv v fundingPrice)
    (.error .AmountOverflow)
  require (h.selfAuthorizes = true) .auth
  let (sold, _) ← openSale h seized
    (liquidationSale h deposit funded startPrice s.getCollateralRiskConfig.gracePeriodSecs)
  return sold

def liquidateCollateral (caller : Address) (invoiceId : ℕ) : Res (State W × Bool) := do
  requireAuth signers caller
  let ratioBps ← s.computeLiveRatio h invoiceId
  let atRiskSince ← okOr (s.atRiskSince invoiceId) (.error .NotAtRisk)
  let config := s.getCollateralRiskConfig
  require (config.gracePeriodSecs ≤ s.ledger.now - atRiskSince) (.error .GracePeriodNotElapsed)
  if config.dangerBps ≤ ratioBps then return (s.clearRisk invoiceId, false)
  else do
    let sold ← s.seize h invoiceId
    return (sold.clearRisk invoiceId, true)

end Risk

end Astera.Auction
