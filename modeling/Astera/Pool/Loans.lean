import Astera.Pool.Writes

/-!
# The loan book

Loans live in the funding records and, per token, in `total_deployed`.  Most calls touch neither
(`exec_loanFrame`); every other call changes one record and at most one total.
-/

namespace Astera.Pool

open Fallible Machine Transition

variable {W : Type}
variable {h : Host W} {token : Address} {tt : PoolTokenTotals} {invoiceId : ℕ}

/-- The loan book, the time and the compounding flag are the same in both states. -/
structure LoanFrame (s s' : State W) : Prop where
  now : s'.now = s.now
  compound : s'.params.config.compoundInterest = s.params.config.compoundInterest
  funded : s'.funded = s.funded
  deployed : ∀ t, (s'.tt t).totalDeployed = (s.tt t).totalDeployed

theorem LoanFrame.refl (s : State W) : LoanFrame s s := ⟨rfl, rfl, rfl, fun _ => rfl⟩

theorem LoanFrame.trans {s s₁ s₂ : State W} (h₁ : LoanFrame s s₁) (h₂ : LoanFrame s₁ s₂) :
    LoanFrame s s₂ :=
  ⟨h₂.now.trans h₁.now, h₂.compound.trans h₁.compound, h₂.funded.trans h₁.funded,
    fun t => (h₂.deployed t).trans (h₁.deployed t)⟩

section Frames

variable {s s' : State W}

theorem loanFrame_of_totals (hnow : s'.now = s.now) (hparams : s'.params.config.compoundInterest =
    s.params.config.compoundInterest) (hfunded : s'.funded = s.funded)
    (htotals : s'.totals = s.totals) : LoanFrame s s' :=
  ⟨hnow, hparams, hfunded, fun t => by rw [State.tt_of_eq htotals]⟩

theorem loanFrame_of_update (hnow : s'.now = s.now)
    (hparams : s'.params.config.compoundInterest = s.params.config.compoundInterest)
    (hfunded : s'.funded = s.funded)
    (htotals : s'.totals = Function.update s.totals token (some tt))
    (hdep : tt.totalDeployed = (s.tt token).totalDeployed) : LoanFrame s s' := by
  refine ⟨hnow, hparams, hfunded, fun t => ?_⟩
  by_cases ht : t = token
  · subst ht
    rw [State.tt_self htotals, hdep]
  · rw [State.tt_of_ne htotals ht]

theorem PassFrame.loanFrame (hp : PassFrame s s') : LoanFrame s s' := by
  refine ⟨?_, ?_, ?_, fun t => ?_⟩
  · rw [hp.rest]
  · rw [hp.rest]
  · rw [hp.rest]
  · rw [hp.tt t]

theorem Credits.loanFrame {tt tt' : PoolTokenTotals} (hc : Credits token s s' tt tt') :
    LoanFrame s s' := by
  rw [hc.rest]
  exact loanFrame_of_totals rfl rfl rfl rfl

theorem Credits.deployed {tt tt' : PoolTokenTotals} (hc : Credits token s s' tt tt') :
    tt'.totalDeployed = tt.totalDeployed := by
  rw [hc.tt_eq]

theorem loanFrame_recordReferralActivity {referee token : Address} {kind : ActivityKind} {fee : ℤ}
    (hr : s.recordReferralActivity h referee kind fee token = .ok s') : LoanFrame s s' := by
  rcases State.recordReferralActivity_eq_ok hr with ⟨w, rfl⟩ | ⟨_, _, w, -, -, -, rfl⟩
  · exact loanFrame_of_totals rfl rfl rfl rfl
  · exact loanFrame_of_update rfl rfl rfl rfl rfl

theorem loanFrame_depositEffects {signers : List Address} {investor token : Address}
    {amount usdc : ℤ} (hd : depositEffects h signers s investor token amount usdc = .ok s') :
    LoanFrame s s' := by
  obtain ⟨_, _, _, _, _, -, -, -, -, -, -, -, -, rfl⟩ := depositEffects_eq_ok hd
  exact loanFrame_of_update rfl rfl rfl rfl rfl

theorem loanFrame_purchaseInsurance (h : Host W) (s : State W) (request : FundingRequest) :
    LoanFrame s (s.purchaseInsurance h request) := by
  rcases purchaseInsurance_eq h s request with heq | ⟨_, _, _, -, -, -, -, heq⟩
  · rw [heq]
    exact LoanFrame.refl _
  · rw [heq]
    exact loanFrame_of_update rfl rfl rfl rfl rfl

end Frames

def Call.isLoan : Call W → Bool
  | .fundInvoice .. | .fundMultipleInvoices .. | .repayInvoice .. | .repayInvoicesBatch ..
  | .cleanupFundedInvoice .. | .cancelFundedInvoice .. | .updateInvoiceDueDate ..
  | .finalizeCoFunding .. | .liquidateInvoice .. | .executeOperation .. => true
  | _ => false

/-- The calls that may change the time or the compounding flag. -/
def Call.isClock : Call W → Bool
  | .setCompoundInterest .. | .setParams .. | .advance .. => true
  | _ => false

theorem exec_loanFrame {s s' : State W} {tx : Tx h} (hloan : tx.call.isLoan = false)
    (hclock : tx.call.isClock = false) (hstep : exec h s tx = .ok s') : LoanFrame s s' := by
  obtain ⟨signers, hself, call⟩ := tx
  cases call with
  | deposit investor token amount minRate =>
    obtain ⟨usdc, s₁, s₂, o, -, -, -, heff, href, hq⟩ := deposit_eq_ok hstep
    exact ((loanFrame_depositEffects heff).trans (loanFrame_recordReferralActivity href)).trans
      (processWithdrawalQueue_frame hq).loanFrame
  | withdraw investor token shares =>
    obtain ⟨_, _, _, _, _, _, -, -, -, -, -, -, -, -, -, -, rfl⟩ := withdraw_eq_ok hstep
    exact loanFrame_of_update rfl rfl rfl rfl rfl
  | requestWithdrawal investor token shares =>
    obtain ⟨r, hr, rfl⟩ := (map_eq_ok _ _ _).1 hstep
    obtain ⟨share, amount, -, hpos, -, -, -, -, ⟨-, hnow⟩ | hqueue⟩ := requestWithdrawal_eq_ok hr
    · obtain ⟨st, position, -, -, -, -, hr⟩ := processImmediateWithdrawal_eq_ok hnow
      rw [hr]
      exact loanFrame_of_update rfl rfl rfl rfl rfl
    · obtain ⟨_, _, -, -, hr⟩ := enqueueWithdrawal_eq_ok hpos hqueue
      rw [hr]
      exact loanFrame_of_totals rfl rfl rfl rfl
  | drainWithdrawalQueue caller token =>
    obtain ⟨_, -, hq⟩ := drainWithdrawalQueue_eq_ok hstep
    exact (processWithdrawalQueue_frame hq).loanFrame
  | claimYield investor token =>
    obtain ⟨_, _, -, -, -, ⟨-, rfl⟩ | ⟨-, -, rfl⟩ | ⟨-, -, rfl⟩⟩ := claimYield_eq_ok hstep
    · exact loanFrame_of_totals rfl rfl rfl rfl
    · exact loanFrame_of_totals rfl rfl rfl rfl
    · exact loanFrame_of_update rfl rfl rfl rfl rfl
  | commitToInvoice investor invoiceId amount =>
    obtain ⟨_, _, _, _, _, _, -, -, -, -, -, -, -, -, rfl⟩ := commitToInvoice_eq_ok hstep
    exact loanFrame_of_update rfl rfl rfl rfl rfl
  | withdrawCoFundingCommitment investor invoiceId =>
    obtain ⟨round, s₁, tt, _, -, -, hrefund, -, rfl⟩ := withdrawCoFundingCommitment_eq_ok hstep
    have hc := credits_of_refundCoFundingInvestor hrefund
    refine hc.loanFrame.trans (loanFrame_of_update rfl rfl rfl rfl ?_)
    rw [hc.deployed, hc.loanFrame.deployed]
  | riskLiquidateCollateral caller invoiceId =>
    obtain ⟨_, -, -, -, -, rfl⟩ := riskLiquidateCollateral_eq_ok hstep
    exact loanFrame_of_update rfl rfl rfl rfl rfl
  | addToken admin token share =>
    obtain ⟨_, ⟨hnone, _, rfl⟩ | rfl⟩ := addToken_eq_ok hstep
    · refine loanFrame_of_update rfl rfl rfl rfl ?_
      simp [State.tt, hnone]
    · exact loanFrame_of_totals rfl rfl rfl rfl
  | setMaxInvestorConcentration admin maxBps =>
    rw [setMaxInvestorConcentration_eq_ok hstep]
    exact loanFrame_of_totals rfl rfl rfl rfl
  | withdrawRevenue admin token amount =>
    obtain ⟨_, -, -, rfl⟩ := payRevenue_eq_ok (withdrawRevenue_eq_ok hstep)
    exact loanFrame_of_update rfl rfl rfl rfl rfl
  | withdrawRevenueViaAc accessControl token amount =>
    obtain ⟨_, -, -, rfl⟩ := payRevenue_eq_ok (withdrawRevenueViaAc_eq_ok hstep)
    exact loanFrame_of_update rfl rfl rfl rfl rfl
  | receiveInsurancePayout insurance token amount =>
    obtain ⟨-, -, rfl⟩ := receiveInsurancePayout_eq_ok hstep
    exact loanFrame_of_update rfl rfl rfl rfl rfl
  | fundInvoice | fundMultipleInvoices | repayInvoice | repayInvoicesBatch | cleanupFundedInvoice
  | cancelFundedInvoice | updateInvoiceDueDate | finalizeCoFunding | liquidateInvoice
  | executeOperation => cases hloan
  | setCompoundInterest | setParams | advance => cases hclock
  | cancelWithdrawalRequest | adjustWithdrawalRequest | openCoFunding | cancelCoFundingRound |
  transferCoFundShare | depositCollateral | topUpCollateral | proposeOperation | cancelOperation
  | marketSettleListing | neighbours | assetTransfer | shareTransfer =>
    have hparams : s'.params = s.params := exec_kept .params rfl hstep
    exact loanFrame_of_totals (exec_kept .now rfl hstep) (by rw [hparams])
      (exec_kept .funded rfl hstep) (exec_kept .totals rfl hstep)

theorem exec_clock {s s' : State W} {tx : Tx h} (hclock : tx.call.isClock = true)
    (hstep : exec h s tx = .ok s') : s'.funded = s.funded ∧ s'.totals = s.totals := by
  obtain ⟨signers, hself, call⟩ := tx
  cases call with
  | setCompoundInterest | setParams | advance =>
    exact ⟨exec_kept .funded rfl hstep, exec_kept .totals rfl hstep⟩
  | _ => cases hclock

/-! ## Calls on the loan book -/

/-- The loan book has the records `funded`, and `delta` more is deployed in `token`. -/
structure LoanChange (s s' : State W) (funded : Store ℕ FundedInvoice) (token : Address)
    (delta : ℤ) : Prop where
  now : s'.now = s.now
  compound : s'.params.config.compoundInterest = s.params.config.compoundInterest
  funded : s'.funded = funded
  deployed : ∀ t, (s'.tt t).totalDeployed =
    (s.tt t).totalDeployed + if t = token then delta else 0

section Changes

variable {h : Host W} {signers : List Address} {s s₁ s' : State W}
  {funded : Store ℕ FundedInvoice} {token : Address} {delta : ℤ}

theorem LoanChange.trans_frame (hc : LoanChange s s₁ funded token delta)
    (hf : LoanFrame s₁ s') : LoanChange s s' funded token delta :=
  ⟨hf.now.trans hc.now, hf.compound.trans hc.compound, hf.funded.trans hc.funded,
    fun t => (hf.deployed t).trans (hc.deployed t)⟩

theorem LoanFrame.trans_change (hf : LoanFrame s s₁) (hc : LoanChange s₁ s' funded token delta) :
    LoanChange s s' funded token delta :=
  ⟨hc.now.trans hf.now, hc.compound.trans hf.compound, hc.funded,
    fun t => by rw [hc.deployed t, hf.deployed t]⟩

theorem loanChange_of_update (hnow : s'.now = s.now)
    (hparams : s'.params.config.compoundInterest = s.params.config.compoundInterest)
    (hfunded : s'.funded = funded) (htotals : s'.totals = Function.update s.totals token (some tt))
    (hdep : tt.totalDeployed = (s.tt token).totalDeployed + delta) :
    LoanChange s s' funded token delta := by
  refine ⟨hnow, hparams, hfunded, fun t => ?_⟩
  by_cases ht : t = token
  · subst ht
    rw [State.tt_self htotals, hdep, if_pos rfl]
  · rw [State.tt_of_ne htotals ht, if_neg ht, add_zero]

theorem loanChange_of_totals (token : Address) (hnow : s'.now = s.now)
    (hparams : s'.params.config.compoundInterest = s.params.config.compoundInterest)
    (hfunded : s'.funded = funded) (htotals : s'.totals = s.totals) :
    LoanChange s s' funded token 0 :=
  ⟨hnow, hparams, hfunded, fun t => by rw [State.tt_of_eq htotals, ite_self, add_zero]⟩

theorem fundInvoiceRequest_loans {request : FundingRequest}
    (hf : fundInvoiceRequest h s request = .ok s') :
    ∃ lockedYieldBps fee record, 0 < request.principal ∧ 0 ≤ fee ∧
      fundedRecord (s.funded.get request.invoiceId) request s.now fee lockedYieldBps = .ok record ∧
      LoanChange s s' (s.funded.set request.invoiceId record) request.token request.principal := by
  obtain ⟨s₁, hloan, rfl⟩ := fundInvoiceRequest_eq_ok hf
  obtain ⟨lockedYieldBps, fee, record, _, _, _, _, hpos, -, -, -, hfee, hrecord, rfl⟩ :=
    fundLoan_eq_ok hloan
  refine ⟨lockedYieldBps, fee, record, hpos, hfee, hrecord, ?_⟩
  refine LoanChange.trans_frame ?_ (loanFrame_purchaseInsurance h _ request)
  exact loanChange_of_update rfl rfl rfl rfl rfl

/-- What a repayment takes off `total_deployed`. -/
def RepaymentQuote.undeployed (q : RepaymentQuote) : ℤ :=
  if q.record.coFundingRoundId = none ∧ q.full = true then q.record.principal else 0

theorem allocateRepayment_loans {q : RepaymentQuote}
    (ha : allocateRepayment h signers s q = .ok (s₁, tt)) :
    LoanFrame s s₁ ∧
      tt.totalDeployed = (s.tt q.record.token).totalDeployed - q.undeployed := by
  unfold RepaymentQuote.undeployed
  rcases allocateRepayment_eq_ok ha with ⟨roundId, hid, hd⟩ | ⟨hid, hfull, rfl, hset⟩ |
    ⟨hid, hfull, rfl, rfl⟩
  · obtain ⟨round, tt₁, distributed, -, hfold, hdust⟩ := distributePariPassuRepayment_eq_ok hd
    have hc := credits_of_distribute hfold
    refine ⟨hc.loanFrame, ?_⟩
    rw [(bookDust_eq_ok hdust).1, hc.deployed]
    simp [hid]
  · obtain ⟨_, -, hdep, -⟩ := settledTotals_eq_ok hset
    exact ⟨LoanFrame.refl _, by simp [hdep, hid, hfull]⟩
  · exact ⟨LoanFrame.refl _, by simp [hfull]⟩

theorem bookRepayment_loans {payer : Address} {q : RepaymentQuote}
    (hb : bookRepayment h signers s invoiceId payer q = .ok s') :
    LoanChange s s' (s.funded.set invoiceId { q.record with repaidAmount := q.newRepaid })
      q.record.token (-q.undeployed) := by
  obtain ⟨s₁, tt, stats, s₂, halloc, -, hs₂, hb⟩ := bookRepayment_eq_ok hb
  obtain ⟨hframe, hdep⟩ := allocateRepayment_loans halloc
  have hchange : LoanChange s s₂ (s.funded.set invoiceId
      { q.record with repaidAmount := q.newRepaid }) q.record.token (-q.undeployed) := by
    refine hframe.trans_change ?_
    rw [hs₂]
    refine loanChange_of_update rfl rfl (by rw [hframe.funded]) rfl ?_
    rw [hdep, hframe.deployed]
    ring
  rcases hb with ⟨-, hr⟩ | ⟨-, rfl⟩
  · refine hchange.trans_frame ?_
    rcases releaseCollateral_eq_ok hr with rfl | ⟨_, -, -, -, rfl⟩
    · exact LoanFrame.refl _
    · exact loanFrame_of_totals rfl rfl rfl rfl
  · exact hchange

theorem repayInvoiceRequest_loans {payer : Address} {request : RepaymentRequest}
    (hr : repayInvoiceRequest h signers payer s request = .ok s') :
    ∃ q, quoteRepayment s request.invoiceId payer request.amount = .ok q ∧
      LoanChange s s' (s.funded.set request.invoiceId
        { q.record with repaidAmount := q.newRepaid }) q.record.token (-q.undeployed) := by
  obtain ⟨q, s₁, history, hq, hb, hr⟩ := repayInvoiceRequest_eq_ok hr
  have hchange := bookRepayment_loans hb
  have hhistory : LoanFrame s₁ { s₁ with rateHistory := history } :=
    loanFrame_of_totals rfl rfl rfl rfl
  refine ⟨q, hq, hchange.trans_frame ?_⟩
  rcases hr with ⟨-, s₂, o, hpass, href⟩ | ⟨-, rfl⟩
  · exact (hhistory.trans (processWithdrawalQueue_frame hpass).loanFrame).trans
      (loanFrame_recordReferralActivity href)
  · exact hhistory

theorem seizeCollateralCore_loans (hs : seizeCollateralCore h s invoiceId = .ok s') :
    ∃ record, s.funded.get invoiceId = some record ∧
      LoanChange s s' s.funded record.token (-record.principal) := by
  obtain ⟨record, col, loan, hrecord, -, -, -, hloan, -, rfl⟩ := seizeCollateralCore_eq_ok hs
  refine ⟨record, hrecord, ?_⟩
  have hchange : LoanChange s (s.setTotals record.token loan) s.funded record.token
      (-record.principal) := by
    refine loanChange_of_update rfl rfl rfl rfl ?_
    rw [hloan]
    rfl
  exact hchange.trans_frame (loanFrame_of_update rfl rfl rfl rfl rfl)

theorem cancelFundedInvoice_loans {admin : Address}
    (hc : cancelFundedInvoice h signers s admin invoiceId = .ok s') :
    ∃ record, s.funded.get invoiceId = some record ∧
      LoanChange s s' (s.funded.remove invoiceId) record.token
        (if record.coFundingRoundId = none then -record.principal else 0) := by
  obtain ⟨record, w, stats, hrecord, ⟨hco, rfl⟩ | ⟨hnone, history, rfl⟩⟩ :=
    cancelFundedInvoice_eq_ok hc
  · refine ⟨record, hrecord, ?_⟩
    rw [if_neg (Option.isSome_iff_ne_none.1 hco)]
    exact loanChange_of_totals _ rfl rfl rfl rfl
  · refine ⟨record, hrecord, ?_⟩
    rw [if_pos hnone]
    exact loanChange_of_update rfl rfl rfl rfl rfl

theorem finalizeCoFunding_loans {caller : Address}
    (hf : finalizeCoFunding h signers s caller invoiceId = .ok s') :
    LoanFrame s s' ∨ ∃ record, s.funded.get invoiceId = none ∧
      record.coFundingRoundId.isSome = true ∧ 0 ≤ record.principal ∧
      LoanChange s s' (s.funded.set invoiceId record) record.token 0 := by
  obtain ⟨round, -, -, hfill | hexpire⟩ := finalizeCoFunding_eq_ok hf
  · obtain ⟨_, _, _, hnone, hnn, rfl⟩ := fillRound_eq_ok hfill
    exact .inr ⟨_, hnone, rfl, hnn, loanChange_of_totals _ rfl rfl rfl rfl⟩
  · obtain ⟨s₁, tt, total, hfold, rfl⟩ := expireRound_eq_ok hexpire
    have hc := credits_of_expire hfold
    refine .inl (hc.loanFrame.trans (loanFrame_of_update rfl rfl rfl rfl ?_))
    rw [hc.deployed, hc.loanFrame.deployed]

theorem executeOperation_loans {admin : Address} {proposalId : ℕ}
    (he : executeOperation h signers s admin proposalId = .ok s') :
    (s.proposedSeizure proposalId = none ∧ LoanFrame s s') ∨
    ∃ invoiceId record, s.proposedSeizure proposalId = some invoiceId ∧
      s.funded.get invoiceId = some record ∧
      LoanChange s s' s.funded record.token (-record.principal) := by
  obtain ⟨proposals, ⟨hnone, _, _, rfl⟩ | ⟨invoiceId, hid, hseize⟩⟩ := executeOperation_eq_ok he
  · exact .inl ⟨hnone, loanFrame_of_totals rfl rfl rfl rfl⟩
  · obtain ⟨record, hrecord, hchange⟩ := seizeCollateralCore_loans hseize
    have hframe : LoanFrame s { s with proposals := proposals } :=
      loanFrame_of_totals rfl rfl rfl rfl
    exact .inr ⟨invoiceId, record, hid, hrecord, hframe.trans_change hchange⟩

end Changes

end Astera.Pool
