import Astera.Pool.Holdings
import Astera.Proof.Deployed

/-!
# Liquidity

What is deployed in a token stays between zero and the pool value, in every run in which commitments
and premiums, which do not check the liquidity, leave the bound alone and in which the ledger of
deployed capital covers the open loans.
-/

namespace Astera.Pool

open Fallible Machine Transition

variable {W : Type}

/-- What is deployed is within the pool value, which fits its type. -/
def Liquid (tt : PoolTokenTotals) : Prop :=
  tt.totalDeployed ≤ tt.poolValue ∧ tt.poolValue < 2 ^ 127

/-- The premium for a loan is within what the loan leaves liquid. -/
def PremiumLiquid (h : Host W) (s : State W) (request : FundingRequest) : Prop :=
  ∀ s₁ contract premium w, fundLoan h s request = .ok s₁ →
    s₁.params.insuranceContract = some contract →
    h.purchaseCoverage s₁.world contract request = some (premium, w) →
    premium ≤ (s₁.tt request.token).poolValue - (s₁.tt request.token).totalDeployed

/-- The liquidity that a call does not check suffices. -/
def UsesLiquidity (h : Host W) (s : State W) (tx : Tx h) : Prop :=
  match tx.call with
  | .fundInvoice _ request => PremiumLiquid h s request
  | .fundMultipleInvoices _ requests => Along (fundInvoiceRequest h) (PremiumLiquid h) s requests
  | .commitToInvoice investor invoiceId amount => ∀ round c,
      s.rounds.get invoiceId = some round →
      commitGuards tx.signers s investor amount round = .ok c →
      c.usdc ≤ (s.tt round.token).poolValue - (s.tt round.token).totalDeployed
  | _ => True

def LiquidityOk (h : Host W) (x : State W × Marks) (tx : Tx h) : Prop :=
  LedgerOk False h x tx ∧ UsesLiquidity h x.1 tx

/-! ## The invariant -/

/-- Every token is liquid and no collateral is negative. -/
structure Solid (s : State W) : Prop where
  totals : ∀ t, Liquid (s.tt t)
  collateral : ∀ id col, s.collateral.get id = some col → 0 ≤ col.amount

section Step

variable {h : Host W} {signers : List Address} {s s' : State W} {token : Address}

theorem liquid_update {tt : PoolTokenTotals} (hs : ∀ t, Liquid (s.tt t))
    (htotals : s'.totals = Function.update s.totals token (some tt)) (htt : Liquid tt)
    (t : Address) : Liquid (s'.tt t) := by
  by_cases ht : t = token
  · rw [ht, State.tt_self htotals]
    exact htt
  · rw [State.tt_of_ne htotals ht]
    exact hs t

theorem Solid.of_update {tt : PoolTokenTotals} (hs : Solid s)
    (htotals : s'.totals = Function.update s.totals token (some tt)) (htt : Liquid tt)
    (hcol : s'.collateral = s.collateral) : Solid s' :=
  ⟨liquid_update hs.totals htotals htt, hcol ▸ hs.collateral⟩

theorem Solid.of_totals (hs : Solid s) (htotals : s'.totals = s.totals)
    (hcol : s'.collateral = s.collateral) : Solid s' :=
  ⟨fun t => by rw [State.tt_of_eq htotals]; exact hs.totals t, hcol ▸ hs.collateral⟩

theorem Solid.of_collateral {invoiceId : ℕ} {col : CollateralDeposit} (hs : Solid s)
    (htotals : ∀ t, Liquid (s'.tt t)) (hset : s'.collateral = s.collateral.set invoiceId col)
    (hnn : 0 ≤ col.amount) : Solid s' := by
  refine ⟨htotals, fun id col' hget => ?_⟩
  rw [hset, Store.get_set] at hget
  split_ifs at hget with hid
  · obtain rfl := Option.some.inj hget
    exact hnn
  · exact hs.collateral id col' hget

theorem solid_pass {availableAmount : ℤ} {o : Option PoolError} (hs : Solid s) (hq : Queued s)
    (hpass : processWithdrawalQueue h signers s token availableAmount = .ok (s', o)) :
    Solid s' := by
  cases o with
  | none =>
    rcases processWithdrawalQueue_eq_none hpass with rfl |
      ⟨share, p, st, cash, requests, -, hsound, -, rfl⟩
    · exact hs
    · obtain ⟨amount, -, hliq, hp, hrem⟩ := hsound.amount
      have hpaid := totalPayout_nonneg fun m hm => (hp.priced m hm).2.1
      have hleft := hrem (hq.positive token)
      have hpv := hp.poolValue_eq
      rw [hp.remainingAmount_eq] at hleft
      have hbefore := hs.totals token
      refine hs.of_update rfl ?_ rfl
      unfold Liquid at hbefore ⊢
      simp only
      omega
  | some e =>
    rcases processWithdrawalQueue_eq_some hpass with ⟨-, rfl⟩ |
      ⟨share, made, st, cash, requests, -, -, -, rfl⟩
    · exact hs
    · exact hs.of_totals rfl rfl

theorem solid_recordReferralActivity {referee : Address} {kind : ActivityKind} {fee : ℤ}
    (hs : Solid s) (hr : s.recordReferralActivity h referee kind fee token = .ok s') :
    Solid s' := by
  rcases State.recordReferralActivity_eq_ok hr with ⟨w, rfl⟩ | ⟨_, _, w, -, -, -, rfl⟩
  · exact hs.of_totals rfl rfl
  · exact hs.of_update rfl (hs.totals token) rfl

theorem Credits.liquid {tt tt' : PoolTokenTotals} (hc : Credits token s s' tt tt')
    (hnn : 0 ≤ tt.totalDeployed) (htt : Liquid tt) : Liquid tt' := by
  have hmono := hc.mono
  have hdep := hc.deployed
  have hrange : InI128 tt.poolValue := by
    unfold Liquid at htt
    unfold InI128
    omega
  have hrange' := hc.range hrange
  unfold InI128 at hrange'
  unfold Liquid at htt ⊢
  omega

theorem Credits.solid {tt tt' : PoolTokenTotals} (hc : Credits token s s' tt tt')
    (hs : Solid s) : Solid s' := by
  rw [hc.rest]
  exact hs.of_totals rfl rfl

theorem solid_depositEffects {investor : Address} {amount usdc : ℤ} (hs : Solid s)
    (hnn : 0 ≤ usdc) (hd : depositEffects h signers s investor token amount usdc = .ok s') :
    Solid s' := by
  obtain ⟨_, _, _, _, _, -, -, -, hrange, -, -, -, -, rfl⟩ := depositEffects_eq_ok hd
  refine hs.of_update rfl ?_ rfl
  have hbefore := hs.totals token
  unfold Liquid InI128 at *
  simp only
  omega

theorem solid_fund {request : FundingRequest} (hs : Solid s) (hok : PremiumLiquid h s request)
    (hf : fundInvoiceRequest h s request = .ok s') : Solid s' := by
  obtain ⟨s₁, hloan, rfl⟩ := fundInvoiceRequest_eq_ok hf
  have hpremium := hok s₁
  obtain ⟨_, _, _, _, _, _, _, hpos, hliq, -, hrange, -, -, hs₁⟩ := fundLoan_eq_ok hloan
  have htt : s₁.tt request.token = { s.tt request.token with
      totalDeployed := (s.tt request.token).totalDeployed + request.principal } := by
    rw [hs₁]
    exact State.tt_self rfl
  have hbefore := hs.totals request.token
  have hsolid : Solid s₁ := by
    rw [hs₁]
    refine hs.of_update rfl ?_ rfl
    unfold Liquid at *
    simp only
    omega
  rcases purchaseInsurance_eq h s₁ request with heq | ⟨contract, premium, w, hc, hcover, hnn, -, heq⟩
  · rw [heq]
    exact hsolid
  · rw [heq]
    refine hsolid.of_update rfl ?_ rfl
    have hle := hpremium contract premium w hloan hc hcover
    rw [htt] at hle ⊢
    unfold Liquid saturatingSub InI128 at *
    simp only at hle ⊢
    omega

theorem solid_repay {payer : Address} {request : RepaymentRequest}
    (hdep : ∀ t, 0 ≤ (s.tt t).totalDeployed)
    (hprincipal : ∀ id record, s.funded.get id = some record → 0 ≤ record.principal)
    (hs : Solid s) (hq : Queued s)
    (hr : repayInvoiceRequest h signers payer s request = .ok s') : Solid s' := by
  obtain ⟨q, s₁, history, hquote, hb, hr⟩ := repayInvoiceRequest_eq_ok hr
  obtain ⟨-, hrecord, hdue, -, hpay, -, -, -⟩ := quoteRepayment_eq_ok hquote
  have hqueue := bookRepayment_queue hb
  have hinterest := (calculateTotalDue_eq_ok hdue).1
  have hp := hprincipal _ _ hrecord
  obtain ⟨s₂, tt, stats, s₃, halloc, -, hs₃, hb⟩ := bookRepayment_eq_ok hb
  have hbefore := hs.totals q.record.token
  -- the totals that the allocation of the payment leaves
  have htt : Liquid tt ∧ Solid s₂ := by
    rcases allocateRepayment_eq_ok halloc with ⟨roundId, -, hd⟩ | ⟨-, -, rfl, hset⟩ |
      ⟨-, -, rfl, rfl⟩
    · obtain ⟨round, tt₁, distributed, -, hfold, hdust⟩ := distributePariPassuRepayment_eq_ok hd
      have hc := credits_of_distribute hfold
      have hliquid := hc.liquid (hdep _) hbefore
      refine ⟨?_, hc.solid hs⟩
      obtain ⟨hd, -, ⟨hpos, hpv, hrange, -⟩ | ⟨-, hpv, -⟩⟩ := bookDust_eq_ok hdust
      · unfold Liquid InI128 at *
        omega
      · unfold Liquid at *
        omega
    · obtain ⟨_, -, hd, -, hpv, hrange, -, -⟩ := settledTotals_eq_ok hset
      refine ⟨?_, hs⟩
      unfold Liquid InI128 at *
      omega
    · exact ⟨hbefore, hs⟩
  have hsolid₃ : Solid s₃ := by
    rw [hs₃]
    exact htt.2.of_update rfl htt.1 rfl
  have hsolid₁ : Solid s₁ := by
    rcases hb with ⟨-, hrel⟩ | ⟨-, rfl⟩
    · rcases releaseCollateral_eq_ok hrel with rfl | ⟨col, hcol, -, -, rfl⟩
      · exact hsolid₃
      · have hnn := hsolid₃.collateral _ col hcol
        exact hsolid₃.of_collateral hsolid₃.totals rfl hnn
    · exact hsolid₃
  have hhistory : Solid { s₁ with rateHistory := history } := hsolid₁.of_totals rfl rfl
  rcases hr with ⟨-, s₄, o, hpass, href⟩ | ⟨-, rfl⟩
  · exact solid_recordReferralActivity (solid_pass hhistory (hq.of_eq hqueue) hpass) href
  · exact hhistory

theorem solid_seize {invoiceId : ℕ} (hs : Solid s)
    (hz : seizeCollateralCore h s invoiceId = .ok s') : Solid s' := by
  obtain ⟨record, col, loan, hrecord, hcol, -, hrange, hloan, hcolRange, rfl⟩ :=
    seizeCollateralCore_eq_ok hz
  have hbefore := hs.totals record.token
  have hamount := hs.collateral _ col hcol
  have hloanLiquid : Liquid loan := by
    rw [hloan]
    unfold Liquid InI128 at *
    simp only
    omega
  have hafter : ∀ t, Liquid ((s.setTotals record.token loan).tt t) :=
    liquid_update hs.totals rfl hloanLiquid
  refine hs.of_collateral (liquid_update hafter rfl ?_) rfl hamount
  have := hafter col.token
  unfold Liquid InI128 at *
  simp only
  omega

theorem solid_finalize {caller : Address} {invoiceId : ℕ}
    (hdep : ∀ t, 0 ≤ (s.tt t).totalDeployed) (hs : Solid s)
    (hf : finalizeCoFunding h signers s caller invoiceId = .ok s') : Solid s' := by
  obtain ⟨round, -, -, hfill | hexpire⟩ := finalizeCoFunding_eq_ok hf
  · obtain ⟨_, _, _, -, -, rfl⟩ := fillRound_eq_ok hfill
    exact hs.of_totals rfl rfl
  · obtain ⟨s₁, tt, total, hfold, rfl⟩ := expireRound_eq_ok hexpire
    have hc := credits_of_expire hfold
    exact (hc.solid hs).of_update rfl (hc.liquid (hdep _) (hs.totals _)) rfl

theorem solid_request {investor : Address} {shares : ℤ} {r : State W × ℕ} (hs : Solid s)
    (hr : requestWithdrawal h signers s investor token shares = .ok r) : Solid r.1 := by
  obtain ⟨share, amount, -, hpos, -, -, -, -, ⟨hliq, hnow⟩ | hqueue⟩ := requestWithdrawal_eq_ok hr
  · obtain ⟨st, position, -, -, hrange, hnn, hr⟩ := processImmediateWithdrawal_eq_ok hnow
    rw [hr]
    refine hs.of_update rfl ?_ rfl
    unfold Liquid InI128 at *
    simp only
    omega
  · obtain ⟨_, requestId, -, -, hr⟩ := enqueueWithdrawal_eq_ok hpos hqueue
    rw [hr]
    exact hs.of_totals rfl rfl

theorem solid_exec {g : Marks} {tx : Tx h} (hb : Booked False (s, g)) (hs : Solid s) (hq : Queued s)
    (hledger : LedgerOk False h (s, g) tx) (huses : UsesLiquidity h s tx)
    (hstep : exec h s tx = .ok s') : Solid s' := by
  obtain ⟨signers, hself, call⟩ := tx
  have hdep := hb.deployed_nonneg
  cases call with
  | deposit investor token amount minRate =>
    obtain ⟨usdc, s₁, s₂, o, -, hpos, husdc, heff, href, hpass⟩ := deposit_eq_ok hstep
    have hs₁ := solid_depositEffects hs (usdcValue_nonneg hpos.le husdc) heff
    have hqueue := DepositReaches.queue ⟨usdc, husdc, heff, href⟩
    exact solid_pass (solid_recordReferralActivity hs₁ href) (hq.of_eq hqueue) hpass
  | withdraw investor token shares =>
    obtain ⟨share, usdc, amount, _, _, _, -, -, -, -, -, hliq, hrange, hamount, -, -, rfl⟩ :=
      withdraw_eq_ok hstep
    refine hs.of_update rfl ?_ rfl
    unfold Liquid InI128 at *
    simp only
    omega
  | requestWithdrawal investor token shares =>
    obtain ⟨r, hr, rfl⟩ := (map_eq_ok _ _ _).1 hstep
    exact solid_request hs hr
  | drainWithdrawalQueue caller token =>
    obtain ⟨_, -, hpass⟩ := drainWithdrawalQueue_eq_ok hstep
    exact solid_pass hs hq hpass
  | claimYield investor token =>
    obtain ⟨_, _, -, -, -, ⟨-, rfl⟩ | ⟨-, -, rfl⟩ | ⟨-, -, rfl⟩⟩ := claimYield_eq_ok hstep
    · exact hs.of_totals rfl rfl
    · exact hs.of_totals rfl rfl
    · exact hs.of_update rfl (hs.totals token) rfl
  | fundInvoice admin request => exact solid_fund hs huses (fundInvoice_eq_ok.1 hstep).2.2
  | fundMultipleInvoices admin requests =>
    obtain ⟨-, -, -, hfold⟩ := fundMultipleInvoices_eq_ok.1 hstep
    exact foldlM_along (fun _ _ _ hs hr hf => solid_fund hs hr hf) huses hs hfold
  | repayInvoice payer request =>
    exact solid_repay hdep hb.nonneg hs hq (repayInvoice_eq_ok.1 hstep).2
  | repayInvoicesBatch payer requests =>
    -- the ledger has to be carried along, because it keeps the totals from falling below zero
    have hfold := note_repayInvoicesBatch hself g (repayInvoicesBatch_eq_ok hstep).2
    refine (foldlM_along (P := fun x => Booked False x ∧ Solid x.1 ∧ Queued x.1) ?_ hledger
      ⟨hb, hs, hq⟩ hfold).2.1
    rintro ⟨s, g⟩ request ⟨s', g'⟩ ⟨hb, hs, hq⟩ hr hf
    obtain ⟨hrepay, rfl⟩ := markedRepayment_eq_ok.1 hf
    exact ⟨booked_repay hb hr hrepay, solid_repay hb.deployed_nonneg hb.nonneg hs hq hrepay,
      queued_repay hq hrepay⟩
  | cancelFundedInvoice admin invoiceId =>
    obtain ⟨record, w, stats, hrecord, ⟨-, rfl⟩ | ⟨-, history, rfl⟩⟩ :=
      cancelFundedInvoice_eq_ok hstep
    · exact hs.of_totals rfl rfl
    · have hp : 0 ≤ record.principal := hb.nonneg _ _ hrecord
      have hbefore := hs.totals record.token
      refine hs.of_update rfl ?_ rfl
      unfold Liquid at *
      simp only
      omega
  | commitToInvoice investor invoiceId amount =>
    obtain ⟨round, c, _, _, _, _, hround, hguards, -, -, hrange, -, -, -, rfl⟩ :=
      commitToInvoice_eq_ok hstep
    have hle := huses round c hround hguards
    refine hs.of_update rfl ?_ rfl
    unfold Liquid InI128 at *
    simp only at hle ⊢
    omega
  | withdrawCoFundingCommitment investor invoiceId =>
    obtain ⟨round, s₁, tt, _, -, -, hrefund, -, rfl⟩ := withdrawCoFundingCommitment_eq_ok hstep
    have hc := credits_of_refundCoFundingInvestor hrefund
    exact (hc.solid hs).of_update rfl (hc.liquid (hdep _) (hs.totals _)) rfl
  | finalizeCoFunding caller invoiceId => exact solid_finalize hdep hs hstep
  | depositCollateral invoiceId depositor token amount =>
    obtain ⟨-, hpos, -, -, rfl⟩ := depositCollateral_eq_ok hstep
    exact hs.of_collateral hs.totals rfl hpos.le
  | topUpCollateral invoiceId depositor token amount =>
    obtain ⟨col, -, hpos, hcol, -, -, rfl⟩ := topUpCollateral_eq_ok hstep
    have := hs.collateral _ col hcol
    exact hs.of_collateral hs.totals rfl (by simp only; omega)
  | riskLiquidateCollateral caller invoiceId =>
    obtain ⟨col, hcol, -, hnn, hrange, rfl⟩ := riskLiquidateCollateral_eq_ok hstep
    refine hs.of_collateral (liquid_update hs.totals rfl ?_) rfl hnn
    have := hs.totals col.token
    unfold Liquid InI128 at *
    simp only
    omega
  | liquidateInvoice caller invoiceId => exact solid_seize hs (liquidateInvoice_eq_ok hstep)
  | addToken admin token share =>
    obtain ⟨_, ⟨hnone, _, rfl⟩ | rfl⟩ := addToken_eq_ok hstep
    · exact hs.of_update rfl (by unfold Liquid; decide) rfl
    · exact hs.of_totals rfl rfl
  | executeOperation admin proposalId =>
    obtain ⟨proposals, ⟨-, _, _, rfl⟩ | ⟨invoiceId, -, hseize⟩⟩ := executeOperation_eq_ok hstep
    · exact hs.of_totals rfl rfl
    · have hs' : Solid { s with proposals := proposals } := hs.of_totals rfl rfl
      exact solid_seize hs' hseize
  | withdrawRevenue admin token amount =>
    obtain ⟨_, -, -, rfl⟩ := payRevenue_eq_ok (withdrawRevenue_eq_ok hstep)
    exact hs.of_update rfl (hs.totals token) rfl
  | withdrawRevenueViaAc accessControl token amount =>
    obtain ⟨_, -, -, rfl⟩ := payRevenue_eq_ok (withdrawRevenueViaAc_eq_ok hstep)
    exact hs.of_update rfl (hs.totals token) rfl
  | receiveInsurancePayout insurance token amount =>
    obtain ⟨hpos, hrange, rfl⟩ := receiveInsurancePayout_eq_ok hstep
    have := hs.totals token
    refine hs.of_update rfl ?_ rfl
    unfold Liquid InI128 at *
    simp only
    omega
  | cancelWithdrawalRequest | adjustWithdrawalRequest | cleanupFundedInvoice |
  updateInvoiceDueDate | setCompoundInterest | openCoFunding | cancelCoFundingRound |
  transferCoFundShare | proposeOperation | cancelOperation | setMaxInvestorConcentration |
  marketSettleListing | setParams | neighbours | advance | assetTransfer | shareTransfer =>
      exact hs.of_totals (exec_kept .totals rfl hstep) (exec_kept .collateral rfl hstep)

end Step

theorem solid_initial (now : ℕ) (world : W) (cash : Address → Address → ℤ)
    (shareTokens : Address → Share.ShareToken) (admin token share invoiceContract : Address) :
    Solid (initialState now world cash shareTokens admin token share invoiceContract) := by
  refine ⟨fun t => ?_, fun id col hget => ?_⟩
  · by_cases ht : t = token
    · simp [initialState, State.tt, ht, Liquid]
    · simp [initialState, State.tt, ht, Liquid]
  · cases hget

theorem utilizationBps_le {tt : PoolTokenTotals} (hnn : 0 ≤ tt.totalDeployed) (htt : Liquid tt)
    {bps : ℕ} (hu : utilizationBps tt = .ok bps) : bps ≤ 10000 := by
  unfold utilizationBps at hu
  split_ifs at hu with hpv
  · rw [← (pure_eq_ok _ _).1 hu]
    omega
  · unfold shareBps at hu
    simp only [bind_eq_ok, okOr_eq_ok, fitU_eq_some, require_eq_ok, exists_unit, pure_eq_ok] at hu
    obtain ⟨_, ⟨rfl, -⟩, hne, rfl⟩ := hu
    have hd := toU_of_nonneg 128 tt.totalDeployed hnn (by unfold Liquid at htt; omega)
    have hv := toU_of_nonneg 128 tt.poolValue (by omega) (by unfold Liquid at htt; omega)
    have hle : toU 128 tt.totalDeployed ≤ toU 128 tt.poolValue := by
      unfold Liquid at htt
      omega
    calc truncU 32 (toU 128 tt.totalDeployed * 10000 / toU 128 tt.poolValue)
        ≤ toU 128 tt.totalDeployed * 10000 / toU 128 tt.poolValue := Nat.mod_le _ _
      _ ≤ toU 128 tt.poolValue * 10000 / toU 128 tt.poolValue :=
          Nat.div_le_div_right (Nat.mul_le_mul_right _ hle)
      _ = 10000 := Nat.mul_div_cancel_left _ (Nat.pos_of_ne_zero hne)

/-- In every run from `initialize` whose calls keep the ledger of deployed capital, commit no more
than the available liquidity and pay no premium beyond it, the capital deployed in a token is
between zero and its pool value; so the available liquidity is not negative and the utilization at
most 10000 basis points. -/
theorem liquidity_kept (h : Host W) (now : ℕ) (world : W) (cash : Address → Address → ℤ)
    (shareTokens : Address → Share.ShareToken) (admin token share invoiceContract : Address)
    (x : State W × Marks)
    (hrun : Reaches (marked h) (LiquidityOk h)
      (initialState now world cash shareTokens admin token share invoiceContract, {}) x)
    (t : Address) :
    0 ≤ (x.1.tt t).totalDeployed ∧ (x.1.tt t).totalDeployed ≤ (x.1.tt t).poolValue ∧
    (∀ liquidity, availableLiquidity (x.1.tt t) = .ok liquidity → 0 ≤ liquidity) ∧
    ∀ bps, utilizationBps (x.1.tt t) = .ok bps → bps ≤ 10000 := by
  have hinv : Booked False x ∧ Solid x.1 ∧ Queued x.1 := by
    refine hrun.invariant (P := fun x => Booked False x ∧ Solid x.1 ∧ Queued x.1)
      ⟨booked_initial False now world cash shareTokens admin token share invoiceContract,
        solid_initial now world cash shareTokens admin token share invoiceContract,
        queued_initial now world cash shareTokens admin token share invoiceContract⟩ ?_
    rintro ⟨s, g⟩ tx ⟨s', g'⟩ ⟨hb, hs, hq⟩ ⟨hledger, huses⟩ hstep
    obtain ⟨hexec, rfl⟩ := marked_eq_ok.1 hstep
    exact ⟨booked_exec hb hledger hexec, solid_exec hb hs hq hledger huses hexec,
      queued_exec hq hexec⟩
  obtain ⟨hb, hs, -⟩ := hinv
  have hnn := hb.deployed_nonneg t
  have hliquid := hs.totals t
  refine ⟨hnn, hliquid.1, fun liquidity hl => ?_, fun bps hu => utilizationBps_le hnn hliquid hu⟩
  unfold availableLiquidity at hl
  simp only [okOr_eq_ok, checkedSub_eq_some] at hl
  have := hliquid.1
  omega

theorem liquidity_kept_lending :
    ∃ x, lending.foldlM (marked quietHost) (sampleState, {}) = .ok x ∧
      Reaches (marked quietHost) (LiquidityOk quietHost) (sampleState, {}) x ∧
      0 ≤ (x.1.tt 10).totalDeployed ∧ (x.1.tt 10).totalDeployed ≤ (x.1.tt 10).poolValue := by
  obtain ⟨x, hx, -⟩ := exists_of_check
    (x := lending.foldlM (marked quietHost) (sampleState, {})) (p := fun _ => true)
    (by decide)
  have halong : Along (marked quietHost) (LiquidityOk quietHost) (sampleState, {}) lending := by
    refine ⟨⟨trivial, trivial⟩, fun x₁ h₁ => ⟨⟨trivial, trivial⟩,
      fun x₂ h₂ => ⟨⟨?_, ?_⟩, fun _ _ => trivial⟩⟩⟩
    · have f₁ := exec_loanFrame rfl rfl (marked_eq_ok.1 h₁).1
      have f₂ := exec_loanFrame rfl rfl (marked_eq_ok.1 h₂).1
      intro record hrecord
      rw [f₂.funded, f₁.funded] at hrecord
      cases hrecord
    · -- the host sells no coverage
      intro s₁ contract premium w _ _ hcover
      cases hcover
  have hrun := reaches_of_along .refl halong hx
  have hkept := liquidity_kept quietHost 1 () _ _ 1 10 20 2 x hrun 10
  exact ⟨x, hx, hrun, hkept.1, hkept.2.1⟩

/-- Half of the pool is lent out and all of it is committed to a round. -/
def overcommitted : List (Tx quietHost) :=
  [⟨[1], self_ne_one, .setMaxInvestorConcentration 1 10000⟩,
    ⟨[3], self_ne_three, .deposit 3 10 1000 none⟩,
    ⟨[1], self_ne_one, .fundInvoice 1 ⟨7, 500, 4, 31536001, 10⟩⟩,
    ⟨[1], self_ne_one, .openCoFunding 1 ⟨8, 10, 1000, 4, 50000000, 40000000, 0, 0⟩⟩,
    ⟨[3], self_ne_three, .commitToInvoice 3 8 900⟩]

/-- More is deployed than the pool is worth. -/
theorem commitment_exceeds_liquidity :
    ∃ s, execAll quietHost sampleState overcommitted = .ok s ∧
      (s.tt 10).poolValue = 100 ∧ (s.tt 10).totalDeployed = 500 := by
  obtain ⟨s, hs, hp⟩ := exists_of_check (x := execAll quietHost sampleState overcommitted)
    (p := fun s => decide ((s.tt 10).poolValue = 100 ∧ (s.tt 10).totalDeployed = 500))
    (by decide)
  exact ⟨s, hs, of_decide_eq_true hp⟩

end Astera.Pool
