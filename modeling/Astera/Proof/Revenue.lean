import Astera.Pool.Rounds
import Astera.Proof.Backing

/-!
# Protocol revenue

A premium is subtracted from the protocol revenue and from the pool value, each time in full, and
the subtraction stops at the least `i128`, not at zero.  In every run that buys coverage only at no
premium the revenue stays at least zero.
-/

namespace Astera.Pool

open Fallible Machine Transition

variable {W : Type}

/-- Funding the request buys coverage for the given premium. -/
def BuysCoverage (h : Host W) (s : State W) (request : FundingRequest) (premium : ℤ) : Prop :=
  ∃ s₁ contract w, fundLoan h s request = .ok s₁ ∧ s₁.params.insuranceContract = some contract ∧
    h.purchaseCoverage s₁.world contract request = some (premium, w) ∧
    0 ≤ premium ∧ premium ≤ s₁.cash request.token h.self

def CoverageFree (h : Host W) (s : State W) (request : FundingRequest) : Prop :=
  ∀ premium, BuysCoverage h s request premium → premium = 0

def RevenueOk (h : Host W) (s : State W) (tx : Tx h) : Prop :=
  match tx.call with
  | .fundInvoice _ request => CoverageFree h s request
  | .fundMultipleInvoices _ requests => Along (fundInvoiceRequest h) (CoverageFree h) s requests
  | _ => True

/-- What the pool is worth to its investors and to the protocol. -/
def State.worth (s : State W) (token : Address) : ℤ :=
  (s.tt token).poolValue + (s.tt token).protocolRevenue

/-! ## The invariant -/

/-- No revenue is negative, no fee is negative, and co-funded loans have no fee. -/
structure Earned (s : State W) : Prop where
  revenue : ∀ t, 0 ≤ (s.tt t).protocolRevenue
  fees : ∀ id record, s.funded.get id = some record → 0 ≤ record.factoringFee ∧
    (record.coFundingRoundId ≠ none → record.factoringFee = 0)

section Step

variable {h : Host W} {signers : List Address} {s s₁ s' : State W} {token : Address}

theorem Earned.of_same (he : Earned s) (hsame : SameLoans s s')
    (hrev : ∀ t, (s.tt t).protocolRevenue ≤ (s'.tt t).protocolRevenue) : Earned s' := by
  refine ⟨fun t => (he.revenue t).trans (hrev t), fun id record hget => ?_⟩
  obtain ⟨old, hold, -, hround, hfee⟩ := hsame id record hget
  rw [← hround, ← hfee]
  exact he.fees id old hold

theorem Earned.of_update {tt : PoolTokenTotals} (he : Earned s) (hsame : SameLoans s s')
    (htotals : s'.totals = Function.update s.totals token (some tt))
    (hrev : 0 ≤ tt.protocolRevenue) : Earned s' := by
  have hkept : Earned { s with funded := s'.funded } := he.of_same hsame fun _ => le_rfl
  refine ⟨fun t => ?_, hkept.fees⟩
  by_cases ht : t = token
  · rw [ht, State.tt_self htotals]
    exact hrev
  · rw [State.tt_of_ne htotals ht]
    exact he.revenue t

theorem revenue_of_update {tt : PoolTokenTotals}
    (htotals : s'.totals = Function.update s.totals token (some tt))
    (hrev : tt.protocolRevenue = (s.tt token).protocolRevenue) (t : Address) :
    (s.tt t).protocolRevenue ≤ (s'.tt t).protocolRevenue := by
  by_cases ht : t = token
  · subst ht
    rw [State.tt_self htotals, hrev]
  · rw [State.tt_of_ne htotals ht]

theorem PassFrame.revenue (hp : PassFrame s s') (t : Address) :
    (s'.tt t).protocolRevenue = (s.tt t).protocolRevenue := by
  rw [hp.tt t]

theorem earned_referral {referee : Address} {kind : ActivityKind} {fee : ℤ}
    (hreward : RewardsWithinFee h) (he : Earned s)
    (hfee : max fee 0 ≤ (s.tt token).protocolRevenue)
    (hr : s.recordReferralActivity h referee kind fee token = .ok s') : Earned s' := by
  rcases State.recordReferralActivity_eq_ok hr with ⟨w, rfl⟩ |
    ⟨registry, reward, w, hact, hpos, -, rfl⟩
  · exact he.of_same (sameLoans_of_eq rfl) fun _ => le_rfl
  · have hle := hreward _ _ _ _ _ _ _ _ hact
    refine he.of_update (sameLoans_of_eq rfl) rfl ?_
    show 0 ≤ saturatingSub (s.tt token).protocolRevenue reward
    unfold saturatingSub
    omega

theorem fundLoan_totals {request : FundingRequest} (hf : fundLoan h s request = .ok s') :
    s'.totals = Function.update s.totals request.token (some { s.tt request.token with
      totalDeployed := (s.tt request.token).totalDeployed + request.principal }) := by
  obtain ⟨_, _, _, _, _, _, _, -, -, -, -, -, -, rfl⟩ := fundLoan_eq_ok hf
  rfl

theorem earned_fund {request : FundingRequest} (he : Earned s) (hfree : CoverageFree h s request)
    (hf : fundInvoiceRequest h s request = .ok s') : Earned s' := by
  refine ⟨fun t => ?_, fun id record hget => ?_⟩
  · obtain ⟨s₁, hloan, rfl⟩ := fundInvoiceRequest_eq_ok hf
    have hrev : ∀ t, 0 ≤ (s₁.tt t).protocolRevenue := fun t =>
      (he.revenue t).trans (revenue_of_update (fundLoan_totals hloan) rfl t)
    rcases purchaseInsurance_eq h s₁ request with heq |
      ⟨contract, premium, w, hcontract, hcover, hnn, hle, heq⟩
    · rw [heq]
      exact hrev t
    · have hzero := hfree premium ⟨s₁, contract, w, hloan, hcontract, hcover, hnn, hle⟩
      have hself := hrev request.token
      rw [heq]
      by_cases ht : t = request.token
      · rw [ht, State.tt_self rfl, hzero]
        show 0 ≤ saturatingSub (s₁.tt request.token).protocolRevenue 0
        unfold saturatingSub
        omega
      · rw [State.tt_of_ne rfl ht]
        exact hrev t
  · rcases fundInvoiceRequest_indexed hf with ⟨hsame, -⟩ | ⟨new, -, hnone, hfee, hfunded, -⟩
    · obtain ⟨old, hold, -, hround, hfee⟩ := hsame id record hget
      rw [← hround, ← hfee]
      exact he.fees id old hold
    · rw [hfunded, Store.get_set] at hget
      split_ifs at hget with hid
      · obtain rfl := Option.some.inj hget
        exact ⟨hfee, fun hround => absurd hnone hround⟩
      · exact he.fees id record hget

theorem bookRepayment_revenue {invoiceId : ℕ} {payer : Address} {q : RepaymentQuote}
    (hfee : 0 ≤ q.record.factoringFee ∧
      (q.record.coFundingRoundId ≠ none → q.record.factoringFee = 0))
    (hb : bookRepayment h signers s invoiceId payer q = .ok s') :
    (∀ t, (s.tt t).protocolRevenue ≤ (s'.tt t).protocolRevenue) ∧
      (q.full = true → (s.tt q.record.token).protocolRevenue + q.record.factoringFee ≤
        (s'.tt q.record.token).protocolRevenue) := by
  obtain ⟨s₁, tt, stats, s₂, halloc, -, hs₂, hb⟩ := bookRepayment_eq_ok hb
  have halloc' : s₁.totals = s.totals ∧
      (s.tt q.record.token).protocolRevenue ≤ tt.protocolRevenue ∧
      (q.full = true →
        (s.tt q.record.token).protocolRevenue + q.record.factoringFee ≤ tt.protocolRevenue) := by
    rcases allocateRepayment_eq_ok halloc with ⟨roundId, hid, hd⟩ | ⟨-, -, rfl, hset⟩ |
      ⟨-, hfull, rfl, rfl⟩
    · obtain ⟨round, tt₁, distributed, -, hfold, hdust⟩ := distributePariPassuRepayment_eq_ok hd
      have hc := credits_of_distribute hfold
      have htt : tt₁.protocolRevenue = (s.tt q.record.token).protocolRevenue := by rw [hc.tt_eq]
      have hzero := hfee.2 (by simp [hid])
      obtain ⟨-, -, ⟨hpos, -, -, hrev⟩ | ⟨-, -, hrev⟩⟩ := bookDust_eq_ok hdust
      · exact ⟨by rw [hc.rest], by omega, fun _ => by omega⟩
      · exact ⟨by rw [hc.rest], by omega, fun _ => by omega⟩
    · obtain ⟨_, -, -, -, -, -, hrev, -⟩ := settledTotals_eq_ok hset
      exact ⟨rfl, by omega, fun _ => by omega⟩
    · refine ⟨rfl, le_rfl, fun h => ?_⟩
      rw [hfull] at h
      cases h
  obtain ⟨hsame, hrev, hsettled⟩ := halloc'
  have htotals : s'.totals = Function.update s.totals q.record.token (some tt) := by
    rw [← hsame]
    rcases hb with ⟨-, hr⟩ | ⟨-, rfl⟩
    · rcases releaseCollateral_eq_ok hr with rfl | ⟨_, -, -, -, rfl⟩ <;> rw [hs₂]
    · rw [hs₂]
  refine ⟨fun t => ?_, fun hfull => ?_⟩
  · by_cases ht : t = q.record.token
    · rw [ht, State.tt_self htotals]
      exact hrev
    · rw [State.tt_of_ne htotals ht]
  · rw [State.tt_self htotals]
    exact hsettled hfull

theorem earned_repay {payer : Address} {request : RepaymentRequest} (hreward : RewardsWithinFee h)
    (he : Earned s) (hr : repayInvoiceRequest h signers payer s request = .ok s') :
    Earned s' := by
  have hsame := sameLoans_repay hr
  obtain ⟨q, s₁, history, hq, hb, hr⟩ := repayInvoiceRequest_eq_ok hr
  obtain ⟨-, hrecord, -⟩ := quoteRepayment_eq_ok hq
  have hfee := he.fees _ _ hrecord
  obtain ⟨hrev, hsettled⟩ := bookRepayment_revenue hfee hb
  have hbooked : Earned { s₁ with rateHistory := history } := by
    refine he.of_same ?_ hrev
    have hchange := bookRepayment_loans hb
    exact sameLoans_of_set hrecord hchange.funded rfl rfl rfl
  rcases hr with ⟨hfull, s₂, o, hpass, href⟩ | ⟨-, rfl⟩
  · have hframe := processWithdrawalQueue_frame hpass
    have hpassed : Earned s₂ := by
      refine hbooked.of_same (sameLoans_of_eq hframe.loanFrame.funded) fun t => ?_
      rw [hframe.revenue t]
    refine earned_referral hreward hpassed ?_ href
    have hcover := hsettled hfull
    have hnn := he.revenue q.record.token
    rw [hframe.revenue]
    show max q.record.factoringFee 0 ≤ (s₁.tt q.record.token).protocolRevenue
    omega
  · exact hbooked

theorem earned_claim {investor : Address} (he : Earned s)
    (hc : claimYield h signers s investor token = .ok s') : Earned s' := by
  obtain ⟨claimable, bonus, -, -, hbonus, ⟨-, rfl⟩ | ⟨-, -, rfl⟩ | ⟨-, -, rfl⟩⟩ :=
    claimYield_eq_ok hc
  · exact he.of_same (sameLoans_of_eq rfl) fun _ => le_rfl
  · exact he.of_same (sameLoans_of_eq rfl) fun _ => le_rfl
  · obtain ⟨-, hle⟩ := loyaltyBonus_eq_ok hbonus
    have hnn := he.revenue token
    refine he.of_update (sameLoans_of_eq rfl) rfl ?_
    show 0 ≤ (s.tt token).protocolRevenue - bonus
    omega

theorem earned_payRevenue {amount : ℤ} (he : Earned s)
    (hp : payRevenue h s token amount = .ok s') : Earned s' := by
  obtain ⟨_, -, hle, rfl⟩ := payRevenue_eq_ok hp
  refine he.of_update (sameLoans_of_eq rfl) rfl ?_
  show 0 ≤ (s.tt token).protocolRevenue - amount
  omega

theorem earned_seize {invoiceId : ℕ} (he : Earned s)
    (hz : seizeCollateralCore h s invoiceId = .ok s') : Earned s' := by
  obtain ⟨record, col, loan, -, -, -, -, hloan, -, rfl⟩ := seizeCollateralCore_eq_ok hz
  have hwritten : Earned (s.setTotals record.token loan) := by
    refine he.of_update (sameLoans_of_eq rfl) rfl ?_
    rw [hloan]
    exact he.revenue record.token
  exact hwritten.of_same (sameLoans_of_eq rfl) (revenue_of_update rfl rfl)

theorem earned_finalize {caller : Address} {invoiceId : ℕ} (he : Earned s)
    (hf : finalizeCoFunding h signers s caller invoiceId = .ok s') : Earned s' := by
  obtain ⟨round, -, -, hfill | hexpire⟩ := finalizeCoFunding_eq_ok hf
  · obtain ⟨_, _, _, -, -, rfl⟩ := fillRound_eq_ok hfill
    refine ⟨he.revenue, fun id record hget => ?_⟩
    rw [Store.get_set] at hget
    split_ifs at hget with hid
    · rw [← Option.some.inj hget]
      exact ⟨le_rfl, fun _ => rfl⟩
    · exact he.fees id record hget
  · obtain ⟨s₁, tt, _, hfold, rfl⟩ := expireRound_eq_ok hexpire
    have hc := credits_of_expire hfold
    have htotals : Function.update s₁.totals round.token (some tt) =
        Function.update s.totals round.token (some tt) := by rw [hc.rest]
    refine he.of_update (sameLoans_of_eq ?_) htotals ?_
    · rw [hc.rest]
    · rw [hc.tt_eq]
      exact he.revenue round.token

end Step

theorem earned_exec {h : Host W} {s s' : State W} {tx : Tx h} (hreward : RewardsWithinFee h)
    (he : Earned s) (hok : RevenueOk h s tx) (hstep : exec h s tx = .ok s') : Earned s' := by
  obtain ⟨signers, hself, call⟩ := tx
  cases call with
  | deposit investor token amount minRate =>
    obtain ⟨usdc, s₁, s₂, o, -, -, -, heff, href, hq⟩ := deposit_eq_ok hstep
    have hbooked : Earned s₁ := by
      obtain ⟨_, _, _, _, _, -, -, -, -, -, -, -, -, rfl⟩ := depositEffects_eq_ok heff
      exact he.of_same (sameLoans_of_eq rfl) (revenue_of_update rfl rfl)
    have hpaid := earned_referral hreward hbooked (by simpa using hbooked.revenue token) href
    have hframe := processWithdrawalQueue_frame hq
    exact hpaid.of_same (sameLoans_of_eq hframe.loanFrame.funded) fun t => (hframe.revenue t).ge
  | withdraw investor token shares =>
    obtain ⟨_, _, _, _, _, _, -, -, -, -, -, -, -, -, -, -, rfl⟩ := withdraw_eq_ok hstep
    exact he.of_same (sameLoans_of_eq rfl) (revenue_of_update rfl rfl)
  | requestWithdrawal investor token shares =>
    obtain ⟨r, hr, rfl⟩ := (map_eq_ok _ _ _).1 hstep
    obtain ⟨share, amount, -, hpos, -, -, -, -, ⟨-, hnow⟩ | hqueue⟩ := requestWithdrawal_eq_ok hr
    · obtain ⟨_, _, -, -, -, -, hr⟩ := processImmediateWithdrawal_eq_ok hnow
      rw [hr]
      exact he.of_same (sameLoans_of_eq rfl) (revenue_of_update rfl rfl)
    · obtain ⟨_, _, -, -, hr⟩ := enqueueWithdrawal_eq_ok hpos hqueue
      rw [hr]
      exact he.of_same (sameLoans_of_eq rfl) fun _ => le_rfl
  | drainWithdrawalQueue caller token =>
    obtain ⟨_, -, hq⟩ := drainWithdrawalQueue_eq_ok hstep
    have hframe := processWithdrawalQueue_frame hq
    exact he.of_same (sameLoans_of_eq hframe.loanFrame.funded) fun t => (hframe.revenue t).ge
  | claimYield investor token => exact earned_claim he hstep
  | fundInvoice admin request => exact earned_fund he hok (fundInvoice_eq_ok.1 hstep).2.2
  | fundMultipleInvoices admin requests =>
    obtain ⟨-, -, -, hfold⟩ := fundMultipleInvoices_eq_ok.1 hstep
    exact foldlM_along (fun _ _ _ he hok hf => earned_fund he hok hf) hok he hfold
  | repayInvoice payer request => exact earned_repay hreward he (repayInvoice_eq_ok.1 hstep).2
  | repayInvoicesBatch payer requests =>
    exact foldlM_invariant (fun _ _ _ _ he hr => earned_repay hreward he hr) he
      (repayInvoicesBatch_eq_ok hstep).2
  | cancelFundedInvoice admin invoiceId =>
    have hsame := exec_sameLoans rfl hstep
    obtain ⟨_, _, _, -, ⟨-, rfl⟩ | ⟨-, _, rfl⟩⟩ := cancelFundedInvoice_eq_ok hstep
    · exact he.of_same hsame fun _ => le_rfl
    · exact he.of_same hsame (revenue_of_update rfl rfl)
  | commitToInvoice investor invoiceId amount =>
    obtain ⟨_, _, _, _, _, _, -, -, -, -, -, -, -, -, rfl⟩ := commitToInvoice_eq_ok hstep
    exact he.of_same (sameLoans_of_eq rfl) (revenue_of_update rfl rfl)
  | withdrawCoFundingCommitment investor invoiceId =>
    have hsame := exec_sameLoans rfl hstep
    obtain ⟨round, s₁, tt, _, -, -, hrefund, -, rfl⟩ := withdrawCoFundingCommitment_eq_ok hstep
    have hc := credits_of_refundCoFundingInvestor hrefund
    have htotals : Function.update s₁.totals round.token (some tt) =
        Function.update s.totals round.token (some tt) := by rw [hc.rest]
    refine he.of_same hsame (revenue_of_update htotals ?_)
    rw [hc.tt_eq]
  | finalizeCoFunding caller invoiceId => exact earned_finalize he hstep
  | riskLiquidateCollateral caller invoiceId =>
    obtain ⟨_, -, -, -, -, rfl⟩ := riskLiquidateCollateral_eq_ok hstep
    exact he.of_same (sameLoans_of_eq rfl) (revenue_of_update rfl rfl)
  | liquidateInvoice caller invoiceId => exact earned_seize he (liquidateInvoice_eq_ok hstep)
  | addToken admin token share =>
    obtain ⟨_, ⟨hnone, _, rfl⟩ | rfl⟩ := addToken_eq_ok hstep
    · refine he.of_same (sameLoans_of_eq rfl) (revenue_of_update rfl ?_)
      simp [State.tt, hnone]
    · exact he.of_same (sameLoans_of_eq rfl) fun _ => le_rfl
  | executeOperation admin proposalId =>
    obtain ⟨proposals, ⟨-, _, _, rfl⟩ | ⟨invoiceId, -, hseize⟩⟩ := executeOperation_eq_ok hstep
    · exact he.of_same (sameLoans_of_eq rfl) fun _ => le_rfl
    · have hproposed : Earned { s with proposals := proposals } :=
        he.of_same (sameLoans_of_eq rfl) fun _ => le_rfl
      exact earned_seize hproposed hseize
  | withdrawRevenue admin token amount => exact earned_payRevenue he (withdrawRevenue_eq_ok hstep)
  | withdrawRevenueViaAc accessControl token amount =>
    exact earned_payRevenue he (withdrawRevenueViaAc_eq_ok hstep)
  | receiveInsurancePayout insurance token amount =>
    obtain ⟨-, -, rfl⟩ := receiveInsurancePayout_eq_ok hstep
    exact he.of_same (sameLoans_of_eq rfl) (revenue_of_update rfl rfl)
  | _ =>
    refine he.of_same (exec_sameLoans rfl hstep) fun t => ?_
    rw [State.tt_of_eq (exec_kept .totals rfl hstep)]

theorem earned_initial (now : ℕ) (world : W) (cash : Address → Address → ℤ)
    (shareTokens : Address → Share.ShareToken) (admin token share invoiceContract : Address) :
    Earned (initialState now world cash shareTokens admin token share invoiceContract) := by
  refine ⟨fun t => ?_, fun id record hget => ?_⟩
  · by_cases ht : t = token
    · simp [initialState, State.tt, ht]
    · simp [initialState, State.tt, ht]
  · cases hget

theorem worth_of_coverage {h : Host W} {s s' : State W} {request : FundingRequest} {premium : ℤ}
    (hbuys : BuysCoverage h s request premium) (hf : fundInvoiceRequest h s request = .ok s') :
    s'.worth request.token = saturatingSub (s.tt request.token).poolValue premium +
      saturatingSub (s.tt request.token).protocolRevenue premium := by
  obtain ⟨s₁, contract, w, hloan, hcontract, hcover, hnn, hle⟩ := hbuys
  obtain ⟨s₂, hloan', rfl⟩ := fundInvoiceRequest_eq_ok hf
  obtain rfl : s₁ = s₂ := Except.ok.inj (hloan.symm.trans hloan')
  have htt := State.tt_self (fundLoan_totals hloan)
  have hpaid : s₁.transfer request.token h.self contract premium = .ok
      { s₁ with cash := State.moveCash s₁.cash request.token h.self contract premium } :=
    State.transfer_eq_ok.2 ⟨hnn, hle, rfl⟩
  unfold State.purchaseInsurance
  simp only [hcontract, hcover, hpaid]
  unfold State.worth
  rw [State.tt_self rfl]
  show saturatingSub (s₁.tt request.token).poolValue premium +
      saturatingSub (s₁.tt request.token).protocolRevenue premium = _
  rw [htt]

/-- In every run from `initialize` in which coverage is free no revenue is negative, and in every
state of such a run a funding that buys coverage charges its premium once exactly when there is
none.  The totals and the premium are `i128` values. -/
theorem premium_charged_once_iff (h : Host W) (hreward : RewardsWithinFee h) (now : ℕ) (world : W)
    (cash : Address → Address → ℤ) (shareTokens : Address → Share.ShareToken)
    (admin token share invoiceContract : Address) (s : State W)
    (hrun : Reaches (exec h) (RevenueOk h)
      (initialState now world cash shareTokens admin token share invoiceContract) s) :
    (∀ t, 0 ≤ (s.tt t).protocolRevenue) ∧
    ∀ request premium s', BuysCoverage h s request premium →
      fundInvoiceRequest h s request = .ok s' → InI128 premium →
      InI128 (s.tt request.token).poolValue → InI128 (s.tt request.token).totalDeployed →
      InI128 (s.tt request.token).protocolRevenue →
      (s'.worth request.token = s.worth request.token - premium ↔ premium = 0) := by
  have he : Earned s := by
    refine hrun.invariant (P := Earned)
      (earned_initial now world cash shareTokens admin token share invoiceContract) ?_
    intro s tx s' he hok hstep
    exact earned_exec hreward he hok hstep
  refine ⟨he.revenue, fun request premium s' hbuys hf hp hpv hdep hrev => ?_⟩
  have hnn := he.revenue request.token
  obtain ⟨s₁, _, _, hloan, -, -, hpos, -⟩ := id hbuys
  obtain ⟨_, _, _, _, _, _, _, hprincipal, hliq, -⟩ := fundLoan_eq_ok hloan
  -- the loan went through, so the pool value is above the least `i128`
  have hworth := worth_of_coverage hbuys hf
  rw [hworth]
  unfold InI128 at hp hpv hdep hrev
  unfold State.worth saturatingSub
  constructor
  · intro honce
    omega
  · intro hzero
    omega

/-- A pool at address 0 that insures its loans at a fixed premium. -/
def insuredHost (premium : ℤ) : Host Unit :=
  { quietHost with purchaseCoverage := fun _ _ _ => some (premium, ()) }

/-- A deposit, and an insurance contract at address 9. -/
def insuredPool (premium : ℤ) : List (Tx (insuredHost premium)) :=
  [⟨[3], by simp [insuredHost, quietHost], .setParams { sampleState.params with
      config := { sampleState.params.config with maxSingleInvestorBps := 10000 }
      insuranceContract := some 9 }⟩,
    ⟨[3], by simp [insuredHost, quietHost], .deposit 3 10 1000 none⟩]

def insuredLoan : FundingRequest := ⟨7, 500, 4, 31536001, 10⟩

theorem rewardsWithinFee_insuredHost (premium : ℤ) : RewardsWithinFee (insuredHost premium) := by
  intro w registry referee kind fee token reward w' hact
  cases hact

theorem premium_charged_once_free :
    ∃ s s', execAll (insuredHost 0) sampleState (insuredPool 0) = .ok s ∧
      BuysCoverage (insuredHost 0) s insuredLoan 0 ∧
      fundInvoiceRequest (insuredHost 0) s insuredLoan = .ok s' ∧
      0 ≤ (s.tt 10).protocolRevenue ∧ s'.worth 10 = s.worth 10 - 0 := by
  obtain ⟨s, hs, hp⟩ := exists_of_check
    (x := execAll (insuredHost 0) sampleState (insuredPool 0))
    (p := fun s => decide (InI128 (s.tt 10).poolValue ∧ InI128 (s.tt 10).totalDeployed ∧
        InI128 (s.tt 10).protocolRevenue) &&
      check (fundLoan (insuredHost 0) s insuredLoan) (fun s₁ =>
        decide (s₁.params.insuranceContract = some 9 ∧ 0 ≤ s₁.cash 10 0)) &&
      (fundInvoiceRequest (insuredHost 0) s insuredLoan).isOk) (by decide)
  simp only [Bool.and_eq_true, decide_eq_true_eq] at hp
  obtain ⟨⟨⟨hpv, hdep, hrev⟩, hloan⟩, hok⟩ := hp
  obtain ⟨s₁, hloan, hs₁⟩ := exists_of_check hloan
  obtain ⟨hcontract, hcash⟩ := of_decide_eq_true hs₁
  obtain ⟨s', hs'⟩ := isOk_iff.1 hok
  have hbuys : BuysCoverage (insuredHost 0) s insuredLoan 0 :=
    ⟨s₁, 9, (), hloan, hcontract, rfl, le_rfl, hcash⟩
  have halong : Along (exec (insuredHost 0)) (RevenueOk (insuredHost 0)) sampleState
      (insuredPool 0) := ⟨trivial, fun _ _ => ⟨trivial, fun _ _ => trivial⟩⟩
  have hrun := reaches_of_along .refl halong hs
  obtain ⟨hnn, hiff⟩ := premium_charged_once_iff (insuredHost 0) (rewardsWithinFee_insuredHost 0)
    1 () _ _ 1 10 20 2 s hrun
  exact ⟨s, s', hs, hbuys, hs', hnn 10,
    (hiff insuredLoan 0 s' hbuys hs' (by decide) hpv hdep hrev).2 rfl⟩

/-- A premium of 10 lowers what the pool is worth by 20 and leaves a negative revenue. -/
theorem premium_charged_twice :
    ∃ s s', execAll (insuredHost 10) sampleState (insuredPool 10) = .ok s ∧
      BuysCoverage (insuredHost 10) s insuredLoan 10 ∧
      fundInvoice (insuredHost 10) [1] s 1 insuredLoan = .ok s' ∧
      s'.worth 10 = s.worth 10 - 20 ∧ (s'.tt 10).protocolRevenue = -10 := by
  obtain ⟨s, hs, hp⟩ := exists_of_check
    (x := execAll (insuredHost 10) sampleState (insuredPool 10))
    (p := fun s => check (fundLoan (insuredHost 10) s insuredLoan) (fun s₁ =>
        decide (s₁.params.insuranceContract = some 9 ∧ 10 ≤ s₁.cash 10 0)) &&
      check (fundInvoice (insuredHost 10) [1] s 1 insuredLoan) (fun s' =>
        decide (s'.worth 10 = s.worth 10 - 20 ∧ (s'.tt 10).protocolRevenue = -10)))
    (by decide)
  simp only [Bool.and_eq_true] at hp
  obtain ⟨s₁, hloan, hs₁⟩ := exists_of_check hp.1
  obtain ⟨hcontract, hcash⟩ := of_decide_eq_true hs₁
  obtain ⟨s', hs', hfall⟩ := exists_of_check hp.2
  exact ⟨s, s', hs, ⟨s₁, 9, (), hloan, hcontract, rfl, by decide, hcash⟩, hs',
    of_decide_eq_true hfall⟩

end Astera.Pool
