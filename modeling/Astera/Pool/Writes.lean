import Astera.Pool.QueueBooks
import Astera.Pool.System

/-!
# What a call writes

Every call writes some of the tables of the ledger.  `Call.writes` lists them, and `exec_keeps` says
that nothing else changes.
-/

namespace Astera.Pool

open Fallible Machine

variable {W : Type}

inductive Table
  | now | world | cash | shareTokens | params | acceptedTokens | shareToken | tokenConfig | totals
  | funded | tokenInvoiceIds | stats | collateral | rewardSnapshot | lastWithdrawal | position
  | queue | queueCounter | withdrawalRequests | rounds | roundIds | coFundShare | coFundCommitted
  | proposals | nextProposalId | inflow | rateHistory
  deriving DecidableEq, Repr

def Table.Content (W : Type) : Table → Type
  | .now => ℕ
  | .world => W
  | .cash => Address → Address → ℤ
  | .shareTokens => Address → Share.ShareToken
  | .params => Params
  | .acceptedTokens => List Address
  | .shareToken => Address → Option Address
  | .tokenConfig => Address → Option TokenConfig
  | .totals => Address → Option PoolTokenTotals
  | .funded => Store ℕ FundedInvoice
  | .tokenInvoiceIds => Address → List ℕ
  | .stats => PoolStorageStats
  | .collateral => Store ℕ CollateralDeposit
  | .rewardSnapshot => Address → Address → ℤ
  | .lastWithdrawal => Address → Address → ℕ
  | .position => Address → Address → InvestorPosition
  | .queue => Address → List WithdrawalRequest
  | .queueCounter => Address → ℕ
  | .withdrawalRequests => Address → ℕ → Option WithdrawalRequest
  | .rounds => Store ℕ CoFundingRound
  | .roundIds => List ℕ
  | .coFundShare => ℕ → Address → ℕ
  | .coFundCommitted => ℕ → Address → ℤ
  | .proposals => ℕ → Option Proposal
  | .nextProposalId => ℕ
  | .inflow => Address → Ring InflowEvent
  | .rateHistory => Address → Ring RateSnapshot

def State.read (s : State W) : (f : Table) → f.Content W
  | .now => s.now
  | .world => s.world
  | .cash => s.cash
  | .shareTokens => s.shareTokens
  | .params => s.params
  | .acceptedTokens => s.acceptedTokens
  | .shareToken => s.shareToken
  | .tokenConfig => s.tokenConfig
  | .totals => s.totals
  | .funded => s.funded
  | .tokenInvoiceIds => s.tokenInvoiceIds
  | .stats => s.stats
  | .collateral => s.collateral
  | .rewardSnapshot => s.rewardSnapshot
  | .lastWithdrawal => s.lastWithdrawal
  | .position => s.position
  | .queue => s.queue
  | .queueCounter => s.queueCounter
  | .withdrawalRequests => s.withdrawalRequests
  | .rounds => s.rounds
  | .roundIds => s.roundIds
  | .coFundShare => s.coFundShare
  | .coFundCommitted => s.coFundCommitted
  | .proposals => s.proposals
  | .nextProposalId => s.nextProposalId
  | .inflow => s.inflow
  | .rateHistory => s.rateHistory

/-- Two states agree on every table that is not listed. -/
def Keeps (writes : List Table) (s s' : State W) : Prop := ∀ f, f ∉ writes → s'.read f = s.read f

section Keeping

variable {h : Host W} {signers : List Address} {writes writes' : List Table} {s s₁ s' : State W}

theorem Keeps.refl (s : State W) : Keeps writes s s := fun _ _ => rfl

theorem Keeps.trans (h₁ : Keeps writes s s₁) (h₂ : Keeps writes s₁ s') : Keeps writes s s' :=
  fun f hf => (h₂ f hf).trans (h₁ f hf)

theorem Keeps.mono (hk : Keeps writes s s') (hsub : writes ⊆ writes') : Keeps writes' s s' :=
  fun f hf => hk f fun hin => hf (hsub hin)

/-! ## Parts of calls -/

theorem keeps_referral {referee token : Address} {kind : ActivityKind} {fee : ℤ}
    (hr : s.recordReferralActivity h referee kind fee token = .ok s') :
    Keeps [.world, .totals, .cash] s s' := by
  intro f hf
  rcases State.recordReferralActivity_eq_ok hr with ⟨_, rfl⟩ | ⟨_, _, _, -, -, -, rfl⟩ <;>
    cases f <;> first | rfl | exact absurd (by decide) hf

theorem PassFrame.keeps (hp : PassFrame s s') :
    Keeps [.shareTokens, .cash, .withdrawalRequests, .queue, .totals] s s' := by
  intro f hf
  rw [hp.rest]
  cases f <;> first | rfl | exact absurd (by decide) hf

theorem keeps_fund {request : FundingRequest} (hf : fundInvoiceRequest h s request = .ok s') :
    Keeps [.totals, .funded, .tokenInvoiceIds, .stats, .world, .cash, .rateHistory] s s' := by
  intro f hw
  obtain ⟨_, _, _, -, -, hs'⟩ := fundInvoiceRequest_frame hf
  rw [hs']
  cases f <;> first | rfl | exact absurd (by decide) hw

theorem keeps_credit {token investor : Address} {amount : ℤ} {tt tt' : PoolTokenTotals}
    (hc : creditInvestorValue h signers s token investor amount tt = .ok (s', tt')) :
    Keeps [.shareTokens, .position] s s' := by
  intro f hf
  rcases creditInvestorValue_eq_ok hc with ⟨-, hr⟩ |
    ⟨-, _, _, _, _, _, -, -, -, -, -, -, -, -, -, -, hr⟩ <;>
  · obtain ⟨rfl, -⟩ := Prod.mk.inj hr
    cases f <;> first | rfl | exact absurd (by decide) hf

theorem keeps_distribute {round : CoFundingRound} {roundId : ℕ} {payment : ℤ}
    {holders : List Address} {acc acc' : State W × PoolTokenTotals × ℤ}
    (hf : holders.foldlM (distributeStep h signers round roundId payment) acc = .ok acc') :
    Keeps [.shareTokens, .position] acc.1 acc'.1 := by
  refine foldlM_invariant (P := fun b => Keeps [.shareTokens, .position] acc.1 b.1) ?_
    (Keeps.refl acc.1) hf
  intro b holder b' _ hb hstep
  rcases distributeStep_eq_ok hstep with rfl | ⟨amount, -, -, -, hcredit⟩
  · exact hb
  · exact hb.trans (keeps_credit hcredit)

def repaymentWrites : List Table :=
  [.shareTokens, .position, .totals, .funded, .stats, .cash, .collateral]

theorem keeps_bookRepayment {invoiceId : ℕ} {payer : Address} {q : RepaymentQuote}
    (hb : bookRepayment h signers s invoiceId payer q = .ok s') : Keeps repaymentWrites s s' := by
  obtain ⟨s₁, tt, stats, s₂, halloc, -, rfl, hb⟩ := bookRepayment_eq_ok hb
  have h₁ : Keeps [.shareTokens, .position] s s₁ := by
    rcases allocateRepayment_eq_ok halloc with ⟨roundId, -, hd⟩ | ⟨-, -, rfl, -⟩ | ⟨-, -, rfl, -⟩
    · obtain ⟨_, _, _, -, hfold, -⟩ := distributePariPassuRepayment_eq_ok hd
      exact keeps_distribute hfold
    · exact Keeps.refl _
    · exact Keeps.refl _
  refine (h₁.mono (by decide)).trans fun f hf => ?_
  rcases hb with ⟨-, hr⟩ | ⟨-, rfl⟩
  · rcases releaseCollateral_eq_ok hr with rfl | ⟨_, -, -, -, rfl⟩ <;>
      cases f <;> first | rfl | exact absurd (by decide) hf
  · cases f <;> first | rfl | exact absurd (by decide) hf

/-- The tables of a repayment: those of the booking, and those of the queue pass, the rate history
and the referral call that may follow it. -/
def repayWrites : List Table :=
  repaymentWrites ++ [.rateHistory, .withdrawalRequests, .queue, .world]

theorem keeps_repay {payer : Address} {request : RepaymentRequest}
    (hr : repayInvoiceRequest h signers payer s request = .ok s') : Keeps repayWrites s s' := by
  obtain ⟨q, s₁, history, -, hb, hr⟩ := repayInvoiceRequest_eq_ok hr
  have hbooked : Keeps repayWrites s s₁ := (keeps_bookRepayment hb).mono (by decide)
  have hhistory : Keeps repayWrites s { s₁ with rateHistory := history } := by
    refine hbooked.trans fun f hf => ?_
    cases f <;> first | rfl | exact absurd (by decide) hf
  rcases hr with ⟨-, s₂, o, hpass, href⟩ | ⟨-, rfl⟩
  · exact (hhistory.trans ((processWithdrawalQueue_frame hpass).keeps.mono (by decide))).trans
      ((keeps_referral href).mono (by decide))
  · exact hhistory

theorem keeps_seize {invoiceId : ℕ} (hz : seizeCollateralCore h s invoiceId = .ok s') :
    Keeps [.totals, .collateral] s s' := by
  intro f hf
  obtain ⟨_, _, _, -, -, -, -, -, -, rfl⟩ := seizeCollateralCore_eq_ok hz
  cases f <;> first | rfl | exact absurd (by decide) hf

theorem Credits.keeps {token : Address} {tt tt' : PoolTokenTotals}
    (hc : Credits token s s' tt tt') :
    Keeps [.shareTokens, .position, .coFundShare, .coFundCommitted] s s' := by
  intro f hf
  rw [hc.rest]
  cases f <;> first | rfl | exact absurd (by decide) hf

end Keeping

def Call.writes : Call W → List Table
  | .deposit .. => [.shareTokens, .cash, .position, .totals, .rewardSnapshot, .inflow, .rateHistory,
      .world, .withdrawalRequests, .queue]
  | .withdraw .. => [.shareTokens, .cash, .position, .totals, .lastWithdrawal, .rateHistory]
  | .requestWithdrawal .. => [.shareTokens, .cash, .position, .totals, .queue, .queueCounter,
      .withdrawalRequests]
  | .cancelWithdrawalRequest .. | .adjustWithdrawalRequest .. =>
    [.position, .queue, .withdrawalRequests]
  | .drainWithdrawalQueue .. => [.shareTokens, .cash, .withdrawalRequests, .queue, .totals]
  | .claimYield .. => [.rewardSnapshot, .totals, .cash, .position]
  | .fundInvoice .. | .fundMultipleInvoices .. =>
    [.totals, .funded, .tokenInvoiceIds, .stats, .world, .cash, .rateHistory]
  | .repayInvoice .. | .repayInvoicesBatch .. => repayWrites
  | .cleanupFundedInvoice .. => [.funded, .stats]
  | .cancelFundedInvoice .. => [.funded, .stats, .totals, .world, .rateHistory]
  | .updateInvoiceDueDate .. => [.funded]
  | .setCompoundInterest .. | .setMaxInvestorConcentration .. | .setParams .. => [.params]
  | .openCoFunding .. => [.rounds, .roundIds]
  | .commitToInvoice .. =>
    [.shareTokens, .position, .totals, .coFundShare, .coFundCommitted, .rounds]
  | .withdrawCoFundingCommitment .. =>
    [.shareTokens, .position, .coFundShare, .coFundCommitted, .totals, .rounds]
  | .cancelCoFundingRound .. => [.rounds]
  | .finalizeCoFunding .. => [.shareTokens, .position, .coFundShare, .coFundCommitted, .totals,
      .rounds, .funded, .stats, .cash, .world]
  | .transferCoFundShare .. => [.coFundShare, .rounds]
  | .depositCollateral .. | .topUpCollateral .. => [.cash, .collateral]
  | .riskLiquidateCollateral .. => [.cash, .totals, .collateral]
  | .liquidateInvoice .. => [.totals, .collateral]
  | .addToken .. => [.acceptedTokens, .totals, .shareToken, .tokenConfig]
  | .proposeOperation .. => [.proposals, .nextProposalId]
  | .executeOperation .. => [.proposals, .acceptedTokens, .params, .totals, .collateral]
  | .cancelOperation .. => [.proposals]
  | .withdrawRevenue .. | .withdrawRevenueViaAc .. => [.totals, .cash]
  | .receiveInsurancePayout .. => [.totals]
  | .marketSettleListing .. => [.coFundShare, .rounds, .position]
  | .neighbours .. => [.world]
  | .advance .. => [.now]
  | .assetTransfer .. => [.cash]
  | .shareTransfer .. => [.shareTokens]

theorem exec_keeps {h : Host W} {s s' : State W} {tx : Tx h} (hstep : exec h s tx = .ok s') :
    Keeps tx.call.writes s s' := by
  obtain ⟨signers, hself, call⟩ := tx
  cases call <;> dsimp only [Call.writes]
  case deposit investor token amount minRate =>
    obtain ⟨usdc, s₁, s₂, o, -, -, -, heff, href, hq⟩ := deposit_eq_ok hstep
    have heffects : Keeps [.shareTokens, .cash, .position, .totals, .rewardSnapshot, .inflow,
        .rateHistory] s s₁ := by
      intro f hf
      obtain ⟨_, _, _, _, _, -, -, -, -, -, -, -, -, rfl⟩ := depositEffects_eq_ok heff
      cases f <;> first | rfl | exact absurd (by decide) hf
    exact ((heffects.mono (by decide)).trans ((keeps_referral href).mono (by decide))).trans
      ((processWithdrawalQueue_frame hq).keeps.mono (by decide))
  case withdraw investor token shares =>
    intro f hf
    obtain ⟨_, _, _, _, _, _, -, -, -, -, -, -, -, -, -, -, rfl⟩ := withdraw_eq_ok hstep
    cases f <;> first | rfl | exact absurd (by decide) hf
  case requestWithdrawal investor token shares =>
    intro f hf
    obtain ⟨r, hr, rfl⟩ := (map_eq_ok _ _ _).1 hstep
    obtain ⟨share, amount, -, hpos, -, -, -, -, ⟨-, hnow⟩ | hqueue⟩ := requestWithdrawal_eq_ok hr
    · obtain ⟨_, _, -, -, -, -, hr⟩ := processImmediateWithdrawal_eq_ok hnow
      rw [hr]
      cases f <;> first | rfl | exact absurd (by decide) hf
    · obtain ⟨_, _, -, -, hr⟩ := enqueueWithdrawal_eq_ok hpos hqueue
      rw [hr]
      cases f <;> first | rfl | exact absurd (by decide) hf
  case cancelWithdrawalRequest investor token =>
    intro f hf
    obtain ⟨_, _, _, -, -, rfl⟩ := cancelWithdrawalRequest_eq_ok hstep
    cases f <;> first | rfl | exact absurd (by decide) hf
  case adjustWithdrawalRequest investor token newShares =>
    intro f hf
    obtain ⟨_, _, _, _, -, -, -, -, -, -, rfl⟩ := adjustWithdrawalRequest_eq_ok hstep
    cases f <;> first | rfl | exact absurd (by decide) hf
  case drainWithdrawalQueue caller token =>
    obtain ⟨_, -, hq⟩ := drainWithdrawalQueue_eq_ok hstep
    exact (processWithdrawalQueue_frame hq).keeps
  case claimYield investor token =>
    intro f hf
    obtain ⟨_, _, -, -, -, ⟨-, rfl⟩ | ⟨-, -, rfl⟩ | ⟨-, -, rfl⟩⟩ := claimYield_eq_ok hstep <;>
      cases f <;> first | rfl | exact absurd (by decide) hf
  case fundInvoice admin request => exact keeps_fund (fundInvoice_eq_ok.1 hstep).2.2
  case fundMultipleInvoices admin requests =>
    obtain ⟨-, -, -, hfold⟩ := fundMultipleInvoices_eq_ok.1 hstep
    exact foldlM_invariant (fun _ _ _ _ hs hf => hs.trans (keeps_fund hf)) (Keeps.refl s) hfold
  case repayInvoice payer request => exact keeps_repay (repayInvoice_eq_ok.1 hstep).2
  case repayInvoicesBatch payer requests =>
    exact foldlM_invariant (P := Keeps repayWrites s)
      (fun _ _ _ _ hs hr => hs.trans (keeps_repay hr)) (Keeps.refl s)
      (repayInvoicesBatch_eq_ok hstep).2
  case withdrawCoFundingCommitment investor invoiceId =>
    obtain ⟨round, s₁, tt, _, -, -, hrefund, -, rfl⟩ := withdrawCoFundingCommitment_eq_ok hstep
    have hc := (credits_of_refundCoFundingInvestor hrefund).keeps
    refine (hc.mono (by decide)).trans fun f hf => ?_
    cases f <;> first | rfl | exact absurd (by decide) hf
  case finalizeCoFunding caller invoiceId =>
    obtain ⟨round, -, -, hfill | hexpire⟩ := finalizeCoFunding_eq_ok hstep
    · intro f hf
      obtain ⟨_, _, _, -, -, rfl⟩ := fillRound_eq_ok hfill
      cases f <;> first | rfl | exact absurd (by decide) hf
    · obtain ⟨s₁, tt, total, hfold, rfl⟩ := expireRound_eq_ok hexpire
      have hc := (credits_of_expire hfold).keeps
      refine (hc.mono (by decide)).trans fun f hf => ?_
      cases f <;> first | rfl | exact absurd (by decide) hf
  case liquidateInvoice caller invoiceId => exact keeps_seize (liquidateInvoice_eq_ok hstep)
  case executeOperation admin proposalId =>
    obtain ⟨proposals, ⟨-, _, _, rfl⟩ | ⟨invoiceId, -, hseize⟩⟩ := executeOperation_eq_ok hstep
    · intro f hf
      cases f <;> first | rfl | exact absurd (by decide) hf
    · refine Keeps.trans (fun f hf => ?_) ((keeps_seize hseize).mono (by decide))
      cases f <;> first | rfl | exact absurd (by decide) hf
  case marketSettleListing market listing =>
    intro f hf
    obtain ⟨_, s₁, _, _, -, -, hmove, -, -, rfl⟩ := marketSettleListing_eq_ok hstep
    obtain ⟨_, rfl | ⟨_, _, _, -, -, rfl⟩⟩ := moveCoFundShare_eq_ok hmove <;>
      cases f <;> first | rfl | exact absurd (by decide) hf
  case cleanupFundedInvoice admin invoiceId =>
    intro f hf
    obtain ⟨_, -, rfl⟩ := cleanupFundedInvoice_eq_ok hstep
    cases f <;> first | rfl | exact absurd (by decide) hf
  case cancelFundedInvoice admin invoiceId =>
    intro f hf
    obtain ⟨_, _, _, -, ⟨-, rfl⟩ | ⟨-, _, rfl⟩⟩ := cancelFundedInvoice_eq_ok hstep <;>
      cases f <;> first | rfl | exact absurd (by decide) hf
  case updateInvoiceDueDate invoiceContract invoiceId newDueDate =>
    intro f hf
    obtain ⟨_, -, -, rfl⟩ := updateInvoiceDueDate_eq_ok hstep
    cases f <;> first | rfl | exact absurd (by decide) hf
  case setCompoundInterest admin compound =>
    intro f hf
    rw [setCompoundInterest_eq_ok hstep]
    cases f <;> first | rfl | exact absurd (by decide) hf
  case openCoFunding admin request =>
    intro f hf
    obtain ⟨-, -, rfl⟩ := openCoFunding_eq_ok hstep
    cases f <;> first | rfl | exact absurd (by decide) hf
  case commitToInvoice investor invoiceId amount =>
    intro f hf
    obtain ⟨_, _, _, _, _, _, -, -, -, -, -, -, -, -, rfl⟩ := commitToInvoice_eq_ok hstep
    cases f <;> first | rfl | exact absurd (by decide) hf
  case cancelCoFundingRound admin invoiceId =>
    intro f hf
    obtain ⟨_, -, -, -, rfl⟩ := cancelCoFundingRound_eq_ok hstep
    cases f <;> first | rfl | exact absurd (by decide) hf
  case transferCoFundShare sender invoiceId token receiver bps =>
    intro f hf
    obtain ⟨_, _, -, -, rfl | ⟨_, _, _, -, -, rfl⟩⟩ := transferCoFundShare_eq_ok hstep <;>
      cases f <;> first | rfl | exact absurd (by decide) hf
  case depositCollateral invoiceId depositor token amount =>
    intro f hf
    obtain ⟨-, -, -, -, rfl⟩ := depositCollateral_eq_ok hstep
    cases f <;> first | rfl | exact absurd (by decide) hf
  case topUpCollateral invoiceId depositor token amount =>
    intro f hf
    obtain ⟨_, -, -, -, -, -, rfl⟩ := topUpCollateral_eq_ok hstep
    cases f <;> first | rfl | exact absurd (by decide) hf
  case riskLiquidateCollateral caller invoiceId =>
    intro f hf
    obtain ⟨_, -, -, -, -, rfl⟩ := riskLiquidateCollateral_eq_ok hstep
    cases f <;> first | rfl | exact absurd (by decide) hf
  case addToken admin token share =>
    intro f hf
    obtain ⟨_, ⟨-, _, rfl⟩ | rfl⟩ := addToken_eq_ok hstep <;>
      cases f <;> first | rfl | exact absurd (by decide) hf
  case proposeOperation admin operation =>
    intro f hf
    obtain ⟨_, _, rfl⟩ := proposeOperation_eq_ok hstep
    cases f <;> first | rfl | exact absurd (by decide) hf
  case cancelOperation admin proposalId =>
    intro f hf
    obtain ⟨_, rfl⟩ := cancelOperation_eq_ok hstep
    cases f <;> first | rfl | exact absurd (by decide) hf
  case setMaxInvestorConcentration admin maxBps =>
    intro f hf
    rw [setMaxInvestorConcentration_eq_ok hstep]
    cases f <;> first | rfl | exact absurd (by decide) hf
  case withdrawRevenue admin token amount =>
    intro f hf
    obtain ⟨_, -, -, rfl⟩ := payRevenue_eq_ok (withdrawRevenue_eq_ok hstep)
    cases f <;> first | rfl | exact absurd (by decide) hf
  case withdrawRevenueViaAc accessControl token amount =>
    intro f hf
    obtain ⟨_, -, -, rfl⟩ := payRevenue_eq_ok (withdrawRevenueViaAc_eq_ok hstep)
    cases f <;> first | rfl | exact absurd (by decide) hf
  case receiveInsurancePayout insurance token amount =>
    intro f hf
    obtain ⟨-, -, rfl⟩ := receiveInsurancePayout_eq_ok hstep
    cases f <;> first | rfl | exact absurd (by decide) hf
  case setParams params =>
    intro f hf
    obtain rfl := Except.ok.inj hstep
    cases f <;> first | rfl | exact absurd (by decide) hf
  case neighbours world =>
    intro f hf
    obtain rfl := Except.ok.inj hstep
    cases f <;> first | rfl | exact absurd (by decide) hf
  case advance now =>
    intro f hf
    obtain ⟨-, rfl⟩ := advance_eq_ok hstep
    cases f <;> first | rfl | exact absurd (by decide) hf
  case assetTransfer token sender receiver amount =>
    intro f hf
    obtain ⟨-, -, rfl⟩ := assetTransfer_eq_ok hstep
    cases f <;> first | rfl | exact absurd (by decide) hf
  case shareTransfer share sender receiver amount =>
    intro f hf
    obtain ⟨-, _, _, -, -, rfl⟩ := shareTransfer_eq_ok hstep
    cases f <;> first | rfl | exact absurd (by decide) hf

theorem exec_kept {h : Host W} {s s' : State W} {tx : Tx h} (f : Table)
    (hf : tx.call.writes.contains f = false) (hstep : exec h s tx = .ok s') :
    s'.read f = s.read f := by
  apply exec_keeps hstep f
  simpa using hf

end Astera.Pool
