import Astera.Auction.Contract
import Astera.Pool.System

/-!
# The auction contract as a machine

`Call` lists the entrypoints of the auction contract and everything that can happen to the pool, the
passing of time and the token transfers of others among it.  A run is a run of `exec h`
(`Transition.Reaches`).
-/

namespace Astera.Auction

open Fallible Machine Transition

variable {W : Type}
variable {caller : Address} {auctionId invoiceId saleId : ℕ}

/-- What can happen on the ledger. -/
inductive Call (W : Type)
  | openCollateralSale (params : CollateralSaleParams)
  | takeCollateralSale (taker : Address) (saleId : ℕ)
  | reclaimExpiredSale (caller : Address) (saleId : ℕ)
  | cancelCollateralSale (seller : Address) (saleId : ℕ)
  | openInvoiceAuction (caller : Address) (invoiceId : ℕ) (sme token : Address) (principal : ℤ)
      (targetDiscountBps durationSecs : ℕ)
  | placeBid (investor : Address) (auctionId : ℕ) (bidAmount : ℤ) (discountBps : ℕ)
  | withdrawBid (investor : Address) (auctionId : ℕ)
  | settleInvoiceAuction (caller : Address) (auctionId : ℕ)
  | expireInvoiceAuction (caller : Address) (auctionId : ℕ)
  | setAdmin (admin newAdmin : Address)
  | setCollateralRiskConfig (admin : Address) (dangerBps gracePeriodSecs : ℕ)
  | checkCollateralRisk (caller : Address) (invoiceId : ℕ)
  | liquidateCollateral (caller : Address) (invoiceId : ℕ)
  /-- A call of the pool, or a move of the ledger around it. -/
  | pool (call : Pool.Call W)

/-- A call and the addresses that authorize it.  The auction contract cannot sign; the pool
authorizes the calls that it makes itself. -/
structure Tx (h : Host W) where
  signers : List Address
  self_not_mem : h.self ∉ signers
  call : Call W

/-- A step of the pool; the pool is not among those who authorize it. -/
def poolStep (h : Host W) (signers : List Address) (s : State W) (call : Pool.Call W) :
    Res (State W) :=
  if hmem : h.pool.self ∈ signers then .error .auth
  else do
    let ledger ← (Pool.exec h.pool s.ledger ⟨signers, hmem, call⟩).mapError .pool
    return { s with ledger := ledger }

def exec (h : Host W) (s : State W) (tx : Tx h) : Res (State W) :=
  let signers := tx.signers
  match tx.call with
  | .openCollateralSale params => (openCollateralSale h signers s params).map Prod.fst
  | .takeCollateralSale taker saleId => takeCollateralSale h signers s taker saleId
  | .reclaimExpiredSale caller saleId => reclaimExpiredSale h signers s caller saleId
  | .cancelCollateralSale seller saleId => cancelCollateralSale h signers s seller saleId
  | .openInvoiceAuction caller invoiceId sme token principal targetDiscountBps durationSecs =>
    (openInvoiceAuction signers s caller invoiceId sme token principal targetDiscountBps
      durationSecs).map Prod.fst
  | .placeBid investor auctionId bidAmount discountBps =>
    placeBid h signers s investor auctionId bidAmount discountBps
  | .withdrawBid investor auctionId => withdrawBid h signers s investor auctionId
  | .settleInvoiceAuction caller auctionId => (settleInvoiceAuction h s caller auctionId).map Prod.fst
  | .expireInvoiceAuction caller auctionId => expireInvoiceAuction signers s caller auctionId
  | .setAdmin admin newAdmin => setAdmin signers s admin newAdmin
  | .setCollateralRiskConfig admin dangerBps gracePeriodSecs =>
    setCollateralRiskConfig signers s admin dangerBps gracePeriodSecs
  | .checkCollateralRisk caller invoiceId =>
    (checkCollateralRisk h signers s caller invoiceId).map Prod.fst
  | .liquidateCollateral caller invoiceId =>
    (liquidateCollateral h signers s caller invoiceId).map Prod.fst
  | .pool call => poolStep h signers s call

/-! ## A sample ledger -/

/-- The contract at address 50 beside the pool at address 0. -/
def sampleHost : Host Unit where
  pool := Pool.quietHost
  self := 50
  self_ne_pool := by decide
  selfAuthorizes := true

theorem self_ne_one : sampleHost.self ∉ [1] := by decide
theorem self_ne_three : sampleHost.self ∉ [3] := by decide
theorem self_ne_four : sampleHost.self ∉ [4] := by decide
theorem self_ne_five : sampleHost.self ∉ [5] := by decide
theorem self_ne_six : sampleHost.self ∉ [6] := by decide
theorem self_ne_eight : sampleHost.self ∉ [8] := by decide
theorem self_ne_nine : sampleHost.self ∉ [9] := by decide
theorem self_notMem_nil : sampleHost.self ∉ [] := by decide

/-- The ledger of the sample pool, with an auction contract that holds nothing; its admin is 1. -/
def sampleStart : State Unit :=
  initializeAuction
    { Pool.sampleState with cash := fun _ a => if a = 0 ∨ a = 50 then 0 else 1000000000000 } 1

/-- The pool's parameters with the contract as its risk contract and prices of a given age. -/
def sampleParams (setAt : ℕ) : Pool.Params :=
  { Pool.sampleState.params with
    collateralConfig := ⟨1000, 2000⟩
    fallbackPrice := fun _ => some (1, setAt)
    riskContract := some 50 }

/-- A loan with collateral that just covers the requirement is flagged at once and seized when the
grace period is over. -/
def seizure : List (Tx sampleHost) :=
  [⟨[1], by decide, .pool (.setMaxInvestorConcentration 1 10000)⟩,
    ⟨[3], by decide, .pool (.deposit 3 10 1000 none)⟩,
    ⟨[1], by decide, .pool (.setParams (sampleParams 1))⟩,
    ⟨[4], by decide, .pool (.depositCollateral 7 4 10 200)⟩,
    ⟨[1], by decide, .pool (.fundInvoice 1 ⟨7, 1000, 4, 31536001, 10⟩)⟩,
    ⟨[9], by decide, .checkCollateralRisk 9 7⟩,
    ⟨[], by decide, .pool (.advance 259201)⟩,
    ⟨[1], by decide, .pool (.setParams (sampleParams 259201))⟩,
    ⟨[9], by decide, .liquidateCollateral 9 7⟩]

/-!
# What a call of the auction contract does

One lemma for each entrypoint that reads a successful call backwards: what was checked, and the
state it leaves.
-/

variable {h : Host W} {signers : List Address} {s s' : State W}

def State.moved (s : State W) (token sender receiver : Address) (amount : ℤ) : State W :=
  { s with ledger :=
    { s.ledger with cash := Pool.State.moveCash s.ledger.cash token sender receiver amount } }

@[simp]
theorem requireAuth_eq_ok {a : Address} {u : Unit} : requireAuth signers a = .ok u ↔ a ∈ signers := by
  simp [requireAuth]

@[simp]
theorem transfer_eq_ok {token sender receiver : Address} {amount : ℤ} :
    s.transfer token sender receiver amount = .ok s' ↔
      0 ≤ amount ∧ amount ≤ s.ledger.cash token sender ∧
        s' = s.moved token sender receiver amount := by
  simp only [State.transfer, bind_eq_ok, mapError_eq_ok, Pool.State.transfer_eq_ok, pure_eq_ok]
  constructor
  · rintro ⟨ledger, ⟨hnn, hle, rfl⟩, rfl⟩
    exact ⟨hnn, hle, rfl⟩
  · rintro ⟨hnn, hle, rfl⟩
    exact ⟨_, ⟨hnn, hle, rfl⟩, rfl⟩

@[simp]
theorem loadSale_eq_ok {sale : CollateralSale} :
    s.loadSale saleId = .ok sale ↔ s.sales.get saleId = some sale := okOr_eq_ok _ _ _

@[simp]
theorem loadAuction_eq_ok {auction : InvoiceAuction} :
    s.loadAuction auctionId = .ok auction ↔ s.auctions.get auctionId = some auction :=
  okOr_eq_ok _ _ _

/-- A sale opens under the next id, and the seller's tokens move to the contract. -/
structure Opened (h : Host W) (s : State W) (params : CollateralSaleParams) (s' : State W) :
    Prop where
  amount : 0 < params.amount
  startPrice : 0 < params.startPrice
  floorPrice : 0 ≤ params.floorPrice ∧ params.floorPrice ≤ params.startPrice
  durationSecs : params.durationSecs ≠ 0
  covered : params.amount ≤ s.ledger.cash params.token params.seller
  opened : s' = { (s.moved params.token params.seller h.self params.amount).setSale s.nextSaleId
      (s.newSale s.nextSaleId params) with nextSaleId := s.nextSaleId + 1 }

theorem openSale_eq_ok {params : CollateralSaleParams} {id : ℕ}
    (hx : openSale h s params = .ok (s', id)) : Opened h s params s' := by
  simp only [openSale, bind_eq_ok, exists_unit, require_eq_ok, transfer_eq_ok, okOr_eq_ok,
    fitU_eq_some, pure_eq_ok, Prod.mk.injEq] at hx
  obtain ⟨hparams, _, ⟨-, hcovered, rfl⟩, _, ⟨rfl, -⟩, rfl, -⟩ := hx
  simp only [not_or, not_le, not_lt] at hparams
  obtain ⟨hamount, hstart, hfloor, hle, hduration⟩ := hparams
  exact ⟨hamount, hstart, ⟨hfloor, hle⟩, hduration, hcovered, rfl⟩

theorem openCollateralSale_eq_ok {params : CollateralSaleParams} {id : ℕ}
    (hx : openCollateralSale h signers s params = .ok (s', id)) :
    params.seller ∈ signers ∧ Opened h s params s' := by
  simp only [openCollateralSale, bind_eq_ok, exists_unit, requireAuth_eq_ok] at hx
  exact ⟨hx.1, openSale_eq_ok hx.2⟩

theorem takeCollateralSale_eq_ok {taker : Address}
    (hx : takeCollateralSale h signers s taker saleId = .ok s') :
    ∃ sale price, taker ∈ signers ∧ s.sales.get saleId = some sale ∧ sale.status = .Open ∧
      s.ledger.now ≤ windowEnd sale.openedAt sale.durationSecs ∧
      sale.priceAt s.ledger.now = .ok price ∧ 0 ≤ price ∧
      s' = ((s.setSale saleId { sale with
          status := .Settled, taker := some taker, settledPrice := some price }).moved
        sale.proceedsToken taker sale.proceedsRecipient price).moved sale.token h.self taker
          sale.amount := by
  simp only [takeCollateralSale, bind_eq_ok, exists_unit, requireAuth_eq_ok, loadSale_eq_ok,
    require_eq_ok, transfer_eq_ok] at hx
  obtain ⟨hauth, sale, hget, hopen, hwindow, price, hprice, _, ⟨hnn, -, rfl⟩, -, -, rfl⟩ := hx
  exact ⟨sale, price, hauth, hget, hopen, hwindow, hprice, hnn, rfl⟩

theorem reclaimExpiredSale_eq_ok (hx : reclaimExpiredSale h signers s caller saleId = .ok s') :
    ∃ sale, s.sales.get saleId = some sale ∧ sale.status = .Open ∧
      windowEnd sale.openedAt sale.durationSecs < s.ledger.now ∧
      s' = (s.setSale saleId { sale with status := .Expired }).moved sale.token h.self sale.seller
        sale.amount := by
  simp only [reclaimExpiredSale, bind_eq_ok, exists_unit, requireAuth_eq_ok, loadSale_eq_ok,
    require_eq_ok, transfer_eq_ok] at hx
  obtain ⟨-, sale, hget, hopen, hwindow, -, -, rfl⟩ := hx
  exact ⟨sale, hget, hopen, hwindow, rfl⟩

theorem cancelCollateralSale_eq_ok {seller : Address}
    (hx : cancelCollateralSale h signers s seller saleId = .ok s') :
    ∃ sale, seller ∈ signers ∧ s.sales.get saleId = some sale ∧ sale.status = .Open ∧
      sale.seller = seller ∧
      s' = (s.setSale saleId { sale with status := .Cancelled }).moved sale.token h.self sale.seller
        sale.amount := by
  simp only [cancelCollateralSale, bind_eq_ok, exists_unit, requireAuth_eq_ok, loadSale_eq_ok,
    require_eq_ok, transfer_eq_ok] at hx
  obtain ⟨hauth, sale, hget, hopen, hseller, -, -, rfl⟩ := hx
  exact ⟨sale, hauth, hget, hopen, hseller, rfl⟩

theorem openInvoiceAuction_eq_ok {sme token : Address} {principal : ℤ}
    {targetDiscountBps durationSecs id : ℕ}
    (hx : openInvoiceAuction signers s caller invoiceId sme token principal targetDiscountBps
      durationSecs = .ok (s', id)) :
    0 < principal ∧
      s' = { s.setAuction s.nextAuctionId (s.newAuction s.nextAuctionId invoiceId sme token principal
        targetDiscountBps durationSecs) with nextAuctionId := s.nextAuctionId + 1 } := by
  simp only [openInvoiceAuction, bind_eq_ok, exists_unit, requireAuth_eq_ok, require_eq_ok,
    okOr_eq_ok, fitU_eq_some, pure_eq_ok, Prod.mk.injEq] at hx
  obtain ⟨-, hparams, _, ⟨rfl, -⟩, rfl, -⟩ := hx
  simp only [not_or, not_le, not_lt] at hparams
  exact ⟨hparams.1, rfl⟩

def State.bid (h : Host W) (s : State W) (auction : InvoiceAuction) (bid : InvestorBid) : State W :=
  { s.moved auction.token bid.investor h.self bid.bidAmount with
    escrow := s.escrow.set (bid.investor, bid.auctionId)
      ((s.escrow.get (bid.investor, bid.auctionId)).getD 0 + bid.bidAmount)
    bids := Function.update s.bids bid.auctionId (s.bids bid.auctionId ++ [bid]) }

theorem placeBid_eq_ok {investor : Address} {bidAmount : ℤ} {discountBps : ℕ}
    (hx : placeBid h signers s investor auctionId bidAmount discountBps = .ok s') :
    ∃ auction, investor ∈ signers ∧ s.auctions.get auctionId = some auction ∧
      auction.status = .Open ∧ s.ledger.now ≤ windowEnd auction.openedAt auction.durationSecs ∧
      0 < bidAmount ∧ discountBps ≤ 10000 ∧
      s' = s.bid h auction ⟨auctionId, investor, bidAmount, discountBps⟩ := by
  simp only [placeBid, bind_eq_ok, exists_unit, requireAuth_eq_ok, loadAuction_eq_ok, require_eq_ok,
    transfer_eq_ok, okOr_eq_ok, checkedAdd_eq_some, pure_eq_ok] at hx
  obtain ⟨hauth, auction, hget, hopen, hwindow, hparams, _, ⟨-, -, rfl⟩, _, ⟨rfl, -⟩, rfl⟩ := hx
  simp only [not_or, not_le, not_lt] at hparams
  exact ⟨auction, hauth, hget, hopen, hwindow, hparams.1, hparams.2, rfl⟩

/-- The state after a withdrawal of what an investor escrowed in an auction. -/
def State.withdrawn (h : Host W) (s : State W) (token investor : Address) (auctionId : ℕ)
    (escrowed : ℤ) : State W :=
  { s with escrow := s.escrow.remove (investor, auctionId) }.moved token h.self investor escrowed

theorem withdrawBid_eq_ok {investor : Address} :
    withdrawBid h signers s investor auctionId = .ok s' ↔
      ∃ auction escrowed, investor ∈ signers ∧ s.auctions.get auctionId = some auction ∧
        auction.status ≠ .Open ∧ s.escrow.get (investor, auctionId) = some escrowed ∧
        escrowed ≠ 0 ∧ auction.winningBid ≠ some investor ∧ 0 ≤ escrowed ∧
        escrowed ≤ s.ledger.cash auction.token h.self ∧
        s' = s.withdrawn h auction.token investor auctionId escrowed := by
  simp only [withdrawBid, bind_eq_ok, exists_unit, requireAuth_eq_ok, loadAuction_eq_ok,
    require_eq_ok, okOr_eq_ok, transfer_eq_ok]
  constructor
  · rintro ⟨hauth, auction, hget, hclosed, escrowed, hescrow, hne, hloser, hnn, hle, hs⟩
    exact ⟨auction, escrowed, hauth, hget, hclosed, hescrow, hne, hloser, hnn, hle, hs⟩
  · rintro ⟨auction, escrowed, hauth, hget, hclosed, hescrow, hne, hloser, hnn, hle, hs⟩
    exact ⟨hauth, auction, hget, hclosed, escrowed, hescrow, hne, hloser, hnn, hle, hs⟩

def InvoiceAuction.settledWith (auction : InvoiceAuction) (winner : InvestorBid) : InvoiceAuction :=
  { auction with
    winningBid := some winner.investor
    winningDiscountBps := some winner.discountBps
    status := .Settled }

theorem settleInvoiceAuction_eq_ok {winner : Address}
    (hx : settleInvoiceAuction h s caller auctionId = .ok (s', winner)) :
    ∃ auction best, caller = h.pool.self ∧ s.auctions.get auctionId = some auction ∧
      auction.status = .Open ∧ winningBid (s.bids auctionId) = some best ∧
      s' = s.setAuction auctionId (auction.settledWith best) := by
  simp only [settleInvoiceAuction, bind_eq_ok, exists_unit, loadAuction_eq_ok, require_eq_ok,
    okOr_eq_ok, pure_eq_ok, Prod.mk.injEq] at hx
  obtain ⟨hcaller, auction, hget, hopen, best, hbest, rfl, -⟩ := hx
  exact ⟨auction, best, hcaller, hget, hopen, hbest, rfl⟩

theorem expireInvoiceAuction_eq_ok (hx : expireInvoiceAuction signers s caller auctionId = .ok s') :
    ∃ auction, s.auctions.get auctionId = some auction ∧ auction.status = .Open ∧
      s' = s.setAuction auctionId { auction with status := .Cancelled } := by
  simp only [expireInvoiceAuction, bind_eq_ok, exists_unit, requireAuth_eq_ok, loadAuction_eq_ok,
    require_eq_ok, pure_eq_ok] at hx
  obtain ⟨-, auction, hget, hopen, -, rfl⟩ := hx
  exact ⟨auction, hget, hopen, rfl⟩

/-! ## Collateral risk -/

theorem setAdmin_eq_ok {admin newAdmin : Address} (hx : setAdmin signers s admin newAdmin = .ok s') :
    s' = { s with admin := newAdmin } := by
  simp only [setAdmin, bind_eq_ok, exists_unit, pure_eq_ok] at hx
  exact hx.2.2.symm

theorem setCollateralRiskConfig_eq_ok {admin : Address} {dangerBps gracePeriodSecs : ℕ}
    (hx : setCollateralRiskConfig signers s admin dangerBps gracePeriodSecs = .ok s') :
    s' = { s with riskConfig := some ⟨dangerBps, gracePeriodSecs⟩ } := by
  simp only [setCollateralRiskConfig, bind_eq_ok, exists_unit, pure_eq_ok] at hx
  exact hx.2.2.2.symm

theorem checkCollateralRisk_eq_ok {atRisk : Bool}
    (hx : checkCollateralRisk h signers s caller invoiceId = .ok (s', atRisk)) :
    (atRisk = true ∧ (s.atRiskSince invoiceId = none ∧
        s' = { s with
          atRiskSince := Function.update s.atRiskSince invoiceId (some s.ledger.now) } ∨
      (∃ since, s.atRiskSince invoiceId = some since) ∧ s' = s)) ∨
    (atRisk = false ∧ s' = s.clearRisk invoiceId) := by
  simp only [checkCollateralRisk, bind_eq_ok, exists_unit, requireAuth_eq_ok] at hx
  obtain ⟨-, ratioBps, -, hx⟩ := hx
  split_ifs at hx with hdanger
  · cases hflag : s.atRiskSince invoiceId with
    | none =>
      simp only [hflag, pure_eq_ok, Prod.mk.injEq] at hx
      exact .inl ⟨hx.2.symm, .inl ⟨rfl, hx.1.symm⟩⟩
    | some since =>
      simp only [hflag, pure_eq_ok, Prod.mk.injEq] at hx
      exact .inl ⟨hx.2.symm, .inr ⟨⟨since, rfl⟩, hx.1.symm⟩⟩
  · rw [pure_eq_ok, Prod.mk.injEq] at hx
    exact .inr ⟨hx.2.symm, hx.1.symm⟩

/-- A deposit is seized: the pool sends it to the contract, which puts it up for sale. -/
structure Seized (h : Host W) (s : State W) (invoiceId : ℕ) (s' : State W) : Prop where
  seized : ∃ deposit funded ledger startPrice,
    s.ledger.collateral.get invoiceId = some deposit ∧
    s.ledger.funded.get invoiceId = some funded ∧
    Pool.riskLiquidateCollateral h.pool [h.self] s.ledger h.self invoiceId = .ok ledger ∧
    Opened h { s with ledger := ledger }
      (liquidationSale h deposit funded startPrice s.getCollateralRiskConfig.gracePeriodSecs) s'

theorem seize_eq_ok (hx : s.seize h invoiceId = .ok s') : Seized h s invoiceId s' := by
  simp only [State.seize, bind_eq_ok, exists_unit, okOr_eq_ok, mapError_eq_ok, require_eq_ok,
    Prod.exists, pure_eq_ok] at hx
  obtain ⟨deposit, hdeposit, funded, hfunded, ledger, hledger, _, -, _, -, startPrice, -, -, sold, id,
    hopen, rfl⟩ := hx
  exact ⟨deposit, funded, ledger, startPrice, hdeposit, hfunded, hledger, openSale_eq_ok hopen⟩

theorem liquidateCollateral_eq_ok {seized : Bool}
    (hx : liquidateCollateral h signers s caller invoiceId = .ok (s', seized)) :
    ∃ since, s.atRiskSince invoiceId = some since ∧
      s.getCollateralRiskConfig.gracePeriodSecs ≤ s.ledger.now - since ∧
      ((seized = false ∧ s' = s.clearRisk invoiceId) ∨
        (seized = true ∧ ∃ sold, Seized h s invoiceId sold ∧ s' = sold.clearRisk invoiceId)) := by
  simp only [liquidateCollateral, bind_eq_ok, exists_unit, requireAuth_eq_ok, okOr_eq_ok,
    require_eq_ok] at hx
  obtain ⟨-, ratioBps, -, since, hsince, hgrace, hx⟩ := hx
  refine ⟨since, hsince, hgrace, ?_⟩
  split_ifs at hx with hsafe
  · rw [pure_eq_ok, Prod.mk.injEq] at hx
    exact .inl ⟨hx.2.symm, hx.1.symm⟩
  · simp only [bind_eq_ok, pure_eq_ok, Prod.mk.injEq] at hx
    obtain ⟨sold, hsold, rfl, rfl⟩ := hx
    exact .inr ⟨rfl, sold, seize_eq_ok hsold, rfl⟩

theorem poolStep_eq_ok {call : Pool.Call W} (hx : poolStep h signers s call = .ok s') :
    ∃ (hmem : h.pool.self ∉ signers) (ledger : Pool.State W),
      Pool.exec h.pool s.ledger ⟨signers, hmem, call⟩ = .ok ledger ∧
      s' = { s with ledger := ledger } := by
  unfold poolStep at hx
  split_ifs at hx with hmem
  simp only [bind_eq_ok, mapError_eq_ok, pure_eq_ok] at hx
  obtain ⟨ledger, hexec, rfl⟩ := hx
  exact ⟨hmem, ledger, hexec, rfl⟩

inductive Effect (h : Host W) (s : State W) (tx : Tx h) : State W → Prop
  | opened {params : CollateralSaleParams} {s' : State W}
      (hcall : tx.call = .openCollateralSale params) (hauth : params.seller ∈ tx.signers)
      (hopened : Opened h s params s') : Effect h s tx s'
  | taken {taker : Address} {saleId : ℕ} {sale : CollateralSale} {price : ℤ}
      (hcall : tx.call = .takeCollateralSale taker saleId) (hauth : taker ∈ tx.signers)
      (hget : s.sales.get saleId = some sale) (hopen : sale.status = .Open)
      (hprice : sale.priceAt s.ledger.now = .ok price) (hnn : 0 ≤ price) :
      Effect h s tx (((s.setSale saleId { sale with
          status := .Settled, taker := some taker, settledPrice := some price }).moved
        sale.proceedsToken taker sale.proceedsRecipient price).moved sale.token h.self taker
          sale.amount)
  | reclaimed {caller : Address} {saleId : ℕ} {sale : CollateralSale}
      (hcall : tx.call = .reclaimExpiredSale caller saleId)
      (hget : s.sales.get saleId = some sale) (hopen : sale.status = .Open) :
      Effect h s tx ((s.setSale saleId { sale with status := .Expired }).moved sale.token h.self
        sale.seller sale.amount)
  | cancelled {saleId : ℕ} {sale : CollateralSale}
      (hcall : tx.call = .cancelCollateralSale sale.seller saleId) (hauth : sale.seller ∈ tx.signers)
      (hget : s.sales.get saleId = some sale) (hopen : sale.status = .Open) :
      Effect h s tx ((s.setSale saleId { sale with status := .Cancelled }).moved sale.token h.self
        sale.seller sale.amount)
  | auctioned {caller : Address} {invoiceId : ℕ} {sme token : Address} {principal : ℤ}
      {targetDiscountBps durationSecs : ℕ}
      (hcall : tx.call = .openInvoiceAuction caller invoiceId sme token principal targetDiscountBps
        durationSecs) :
      Effect h s tx { s.setAuction s.nextAuctionId (s.newAuction s.nextAuctionId invoiceId sme token
        principal targetDiscountBps durationSecs) with nextAuctionId := s.nextAuctionId + 1 }
  | bade {auction : InvoiceAuction} {bid : InvestorBid}
      (hcall : tx.call = .placeBid bid.investor bid.auctionId bid.bidAmount bid.discountBps)
      (hauth : bid.investor ∈ tx.signers) (hget : s.auctions.get bid.auctionId = some auction)
      (hopen : auction.status = .Open) (hpos : 0 < bid.bidAmount)
      (hdiscount : bid.discountBps ≤ 10000) : Effect h s tx (s.bid h auction bid)
  | withdrew {investor : Address} {auctionId : ℕ} {auction : InvoiceAuction} {escrowed : ℤ}
      (hcall : tx.call = .withdrawBid investor auctionId) (hauth : investor ∈ tx.signers)
      (hget : s.auctions.get auctionId = some auction) (hclosed : auction.status ≠ .Open)
      (hescrow : s.escrow.get (investor, auctionId) = some escrowed)
      (hloser : auction.winningBid ≠ some investor) :
      Effect h s tx (s.withdrawn h auction.token investor auctionId escrowed)
  | settled {caller : Address} {auctionId : ℕ} {auction : InvoiceAuction} {best : InvestorBid}
      (hcall : tx.call = .settleInvoiceAuction caller auctionId)
      (hget : s.auctions.get auctionId = some auction) (hopen : auction.status = .Open)
      (hbest : winningBid (s.bids auctionId) = some best) :
      Effect h s tx (s.setAuction auctionId (auction.settledWith best))
  | expired {caller : Address} {auctionId : ℕ} {auction : InvoiceAuction}
      (hcall : tx.call = .expireInvoiceAuction caller auctionId)
      (hget : s.auctions.get auctionId = some auction) (hopen : auction.status = .Open) :
      Effect h s tx (s.setAuction auctionId { auction with status := .Cancelled })
  | configured (admin : Address) (riskConfig : Option CollateralRiskConfig)
      (hcall : (∃ caller newAdmin, tx.call = .setAdmin caller newAdmin) ∨
        ∃ caller danger grace, tx.call = .setCollateralRiskConfig caller danger grace) :
      Effect h s tx { s with admin := admin, riskConfig := riskConfig }
  /-- A check finds the invoice at risk. -/
  | flagged {caller : Address} {invoiceId : ℕ}
      (hcall : tx.call = .checkCollateralRisk caller invoiceId)
      (hresult : ∃ s', checkCollateralRisk h tx.signers s caller invoiceId = .ok (s', true)) :
      Effect h s tx { s with
        atRiskSince := Function.update s.atRiskSince invoiceId
          (some ((s.atRiskSince invoiceId).getD s.ledger.now)) }
  /-- A check or a liquidation finds the invoice safe. -/
  | cleared {caller : Address} {invoiceId : ℕ}
      (hcall : (tx.call = .checkCollateralRisk caller invoiceId ∧
          ∃ s', checkCollateralRisk h tx.signers s caller invoiceId = .ok (s', false)) ∨
        (tx.call = .liquidateCollateral caller invoiceId ∧
          ∃ s', liquidateCollateral h tx.signers s caller invoiceId = .ok (s', false))) :
      Effect h s tx (s.clearRisk invoiceId)
  | seized {caller : Address} {invoiceId since : ℕ} {sold : State W}
      (hcall : tx.call = .liquidateCollateral caller invoiceId)
      (hresult : ∃ s', liquidateCollateral h tx.signers s caller invoiceId = .ok (s', true))
      (hsince : s.atRiskSince invoiceId = some since)
      (hgrace : s.getCollateralRiskConfig.gracePeriodSecs ≤ s.ledger.now - since)
      (hseized : Seized h s invoiceId sold) : Effect h s tx (sold.clearRisk invoiceId)
  | pool {call : Pool.Call W} {ledger : Pool.State W} (hcall : tx.call = .pool call)
      (hmem : h.pool.self ∉ tx.signers)
      (hexec : Pool.exec h.pool s.ledger ⟨tx.signers, hmem, call⟩ = .ok ledger) :
      Effect h s tx { s with ledger := ledger }

theorem exec_effect {tx : Tx h} (hx : exec h s tx = .ok s') : Effect h s tx s' := by
  obtain ⟨signers, hself, call⟩ := tx
  cases call with
  | openCollateralSale params =>
    obtain ⟨⟨_, id⟩, hcall, rfl⟩ := (map_eq_ok _ _ _).1 hx
    obtain ⟨hauth, hopened⟩ := openCollateralSale_eq_ok hcall
    exact .opened rfl hauth hopened
  | takeCollateralSale taker saleId =>
    obtain ⟨sale, price, hauth, hget, hopen, -, hprice, hnn, rfl⟩ := takeCollateralSale_eq_ok hx
    exact .taken rfl hauth hget hopen hprice hnn
  | reclaimExpiredSale caller saleId =>
    obtain ⟨sale, hget, hopen, -, rfl⟩ := reclaimExpiredSale_eq_ok hx
    exact .reclaimed rfl hget hopen
  | cancelCollateralSale seller saleId =>
    obtain ⟨sale, hauth, hget, hopen, rfl, rfl⟩ := cancelCollateralSale_eq_ok hx
    exact .cancelled rfl hauth hget hopen
  | openInvoiceAuction caller invoiceId sme token principal targetDiscountBps durationSecs =>
    obtain ⟨⟨_, id⟩, hcall, rfl⟩ := (map_eq_ok _ _ _).1 hx
    obtain ⟨-, rfl⟩ := openInvoiceAuction_eq_ok hcall
    exact .auctioned rfl
  | placeBid investor auctionId bidAmount discountBps =>
    obtain ⟨auction, hauth, hget, hopen, -, hpos, hdiscount, rfl⟩ := placeBid_eq_ok hx
    exact .bade rfl hauth hget hopen hpos hdiscount
  | withdrawBid investor auctionId =>
    obtain ⟨auction, escrowed, hauth, hget, hclosed, hescrow, -, hloser, -, -, rfl⟩ :=
      withdrawBid_eq_ok.1 hx
    exact .withdrew rfl hauth hget hclosed hescrow hloser
  | settleInvoiceAuction caller auctionId =>
    obtain ⟨⟨_, winner⟩, hcall, rfl⟩ := (map_eq_ok _ _ _).1 hx
    obtain ⟨auction, best, -, hget, hopen, hbest, rfl⟩ := settleInvoiceAuction_eq_ok hcall
    exact .settled rfl hget hopen hbest
  | expireInvoiceAuction caller auctionId =>
    obtain ⟨auction, hget, hopen, rfl⟩ := expireInvoiceAuction_eq_ok hx
    exact .expired rfl hget hopen
  | setAdmin admin newAdmin =>
    rw [setAdmin_eq_ok hx]
    exact .configured newAdmin s.riskConfig (.inl ⟨admin, newAdmin, rfl⟩)
  | setCollateralRiskConfig admin dangerBps gracePeriodSecs =>
    rw [setCollateralRiskConfig_eq_ok hx]
    exact .configured s.admin _ (.inr ⟨admin, dangerBps, gracePeriodSecs, rfl⟩)
  | checkCollateralRisk caller invoiceId =>
    obtain ⟨⟨s₁, atRisk⟩, hcall, rfl⟩ := (map_eq_ok _ _ _).1 hx
    rcases checkCollateralRisk_eq_ok hcall with
      ⟨rfl, ⟨hflag, rfl⟩ | ⟨⟨since, hflag⟩, rfl⟩⟩ | ⟨rfl, rfl⟩
    · have heffect : Effect h s ⟨signers, hself, .checkCollateralRisk caller invoiceId⟩ _ :=
        .flagged rfl ⟨_, hcall⟩
      rw [hflag] at heffect
      exact heffect
    · have heffect : Effect h s₁ ⟨signers, hself, .checkCollateralRisk caller invoiceId⟩ _ :=
        .flagged rfl ⟨_, hcall⟩
      rw [hflag, Option.getD_some, ← hflag, Function.update_eq_self] at heffect
      exact heffect
    · exact .cleared (.inl ⟨rfl, _, hcall⟩)
  | liquidateCollateral caller invoiceId =>
    obtain ⟨⟨s₁, seized⟩, hcall, rfl⟩ := (map_eq_ok _ _ _).1 hx
    obtain ⟨since, hsince, hgrace, ⟨rfl, rfl⟩ | ⟨rfl, sold, hseized, rfl⟩⟩ :=
      liquidateCollateral_eq_ok hcall
    · exact .cleared (.inr ⟨rfl, _, hcall⟩)
    · exact .seized rfl ⟨_, hcall⟩ hsince hgrace hseized
  | pool call =>
    obtain ⟨hmem, ledger, hexec, rfl⟩ := poolStep_eq_ok hx
    exact .pool rfl hmem hexec

end Astera.Auction
