import Astera.Auction.System
import Astera.CreditScore.System
import Astera.Insurance.System
import Astera.Lib.HostCall
import Astera.Market.Contract

/-!
# What the callers make of an answer

The answers of the pool and of the credit score contract travel as maps from the names of their
fields.  The insurance, auction and secondary market contracts read them back as records of their
own; every record here has the names and the types of its contract.
-/

namespace Astera.Messages

open HostCall HostCall.Codec

variable {W : Type}

def fundedInvoice : Fields Pool.FundedInvoice :=
  ((Fields.one "invoice_id" u64).and ((Fields.one "sme" address).and
    ((Fields.one "token" address).and ((Fields.one "principal" i128).and
    ((Fields.one "funded_at" u64).and ((Fields.one "factoring_fee" i128).and
    ((Fields.one "due_date" u64).and ((Fields.one "repaid_amount" i128).and
    ((Fields.one "co_funding_round_id" (option u64 nofun)).and
      (Fields.one "locked_yield_bps" u32)))))))))).convert
    (fun (invoiceId, sme, token, principal, fundedAt, factoringFee, dueDate, repaidAmount,
        coFundingRoundId, lockedYieldBps) =>
      ⟨invoiceId, sme, token, principal, fundedAt, factoringFee, dueDate, repaidAmount,
        coFundingRoundId, lockedYieldBps⟩)
    (fun r => (r.invoiceId, r.sme, r.token, r.principal, r.fundedAt, r.factoringFee, r.dueDate,
      r.repaidAmount, r.coFundingRoundId, r.lockedYieldBps)) fun _ => rfl

def collateralDeposit : Fields Pool.CollateralDeposit :=
  ((Fields.one "invoice_id" u64).and ((Fields.one "depositor" address).and
    ((Fields.one "token" address).and ((Fields.one "amount" i128).and
    ((Fields.one "settled" bool).and ((Fields.one "posted_at" u64).and
    ((Fields.one "released_at" u64).and ((Fields.one "seized_at" u64).and
    ((Fields.one "collateral_bps_at_deposit" u32).and
      (Fields.one "threshold_at_deposit" i128)))))))))).convert
    (fun (invoiceId, depositor, token, amount, settled, postedAt, releasedAt, seizedAt,
        collateralBpsAtDeposit, thresholdAtDeposit) =>
      ⟨invoiceId, depositor, token, amount, settled, postedAt, releasedAt, seizedAt,
        collateralBpsAtDeposit, thresholdAtDeposit⟩)
    (fun d => (d.invoiceId, d.depositor, d.token, d.amount, d.settled, d.postedAt, d.releasedAt,
      d.seizedAt, d.collateralBpsAtDeposit, d.thresholdAtDeposit)) fun _ => rfl

def creditScoreResponse : Fields CreditScore.CreditScoreResponse :=
  ((Fields.one "sme" address).and ((Fields.one "score" u32).and
    ((Fields.one "total_invoices" u32).and ((Fields.one "paid_on_time" u32).and
    ((Fields.one "paid_late" u32).and ((Fields.one "defaulted" u32).and
    ((Fields.one "total_volume" i128).and ((Fields.one "average_payment_days" i64).and
    ((Fields.one "last_updated" u64).and ((Fields.one "score_version" u32).and
    ((Fields.one "config_version" u32).and ((Fields.one "is_stale" bool).and
    ((Fields.one "blended_score" u32).and ((Fields.one "risk_adjustment_pts" i32).and
    ((Fields.one "trend_adjustment_pts" i32).and
      (Fields.one "final_score" u32)))))))))))))))).convert
    (fun (sme, score, totalInvoices, paidOnTime, paidLate, defaulted, totalVolume,
        averagePaymentDays, lastUpdated, scoreVersion, configVersion, isStale, blendedScore,
        riskAdjustmentPts, trendAdjustmentPts, finalScore) =>
      ⟨sme, score, totalInvoices, paidOnTime, paidLate, defaulted, totalVolume, averagePaymentDays,
        lastUpdated, scoreVersion, configVersion, isStale, blendedScore, riskAdjustmentPts,
        trendAdjustmentPts, finalScore⟩)
    (fun r => (r.sme, r.score, r.totalInvoices, r.paidOnTime, r.paidLate, r.defaulted,
      r.totalVolume, r.averagePaymentDays, r.lastUpdated, r.scoreVersion, r.configVersion,
      r.isStale, r.blendedScore, r.riskAdjustmentPts, r.trendAdjustmentPts, r.finalScore))
    fun _ => rfl

namespace InsuranceMirror

structure CreditScoreData where
  sme : Address
  score : ℕ
  totalInvoices : ℕ
  paidOnTime : ℕ
  paidLate : ℕ
  defaulted : ℕ
  totalVolume : ℤ
  averagePaymentDays : ℤ
  lastUpdated : ℕ
  scoreVersion : ℕ
  configVersion : ℕ
  isStale : Bool
  blendedScore : ℕ

structure FundedInvoiceView where
  invoiceId : ℕ
  sme : Address
  token : Address
  principal : ℤ
  fundedAt : ℕ
  factoringFee : ℤ
  dueDate : ℕ
  repaidAmount : ℤ

structure CollateralDepositView where
  invoiceId : ℕ
  depositor : Address
  token : Address
  amount : ℤ
  settled : Bool
  postedAt : ℕ
  releasedAt : ℕ
  seizedAt : ℕ
  settledPrice : ℤ

def creditScoreData : Fields CreditScoreData :=
  ((Fields.one "sme" address).and ((Fields.one "score" u32).and
    ((Fields.one "total_invoices" u32).and ((Fields.one "paid_on_time" u32).and
    ((Fields.one "paid_late" u32).and ((Fields.one "defaulted" u32).and
    ((Fields.one "total_volume" i128).and ((Fields.one "average_payment_days" i64).and
    ((Fields.one "last_updated" u64).and ((Fields.one "score_version" u32).and
    ((Fields.one "config_version" u32).and ((Fields.one "is_stale" bool).and
      (Fields.one "blended_score" u32))))))))))))).convert
    (fun (sme, score, totalInvoices, paidOnTime, paidLate, defaulted, totalVolume,
        averagePaymentDays, lastUpdated, scoreVersion, configVersion, isStale, blendedScore) =>
      ⟨sme, score, totalInvoices, paidOnTime, paidLate, defaulted, totalVolume, averagePaymentDays,
        lastUpdated, scoreVersion, configVersion, isStale, blendedScore⟩)
    (fun d => (d.sme, d.score, d.totalInvoices, d.paidOnTime, d.paidLate, d.defaulted,
      d.totalVolume, d.averagePaymentDays, d.lastUpdated, d.scoreVersion, d.configVersion,
      d.isStale, d.blendedScore)) fun _ => rfl

def fundedInvoiceView : Fields FundedInvoiceView :=
  ((Fields.one "invoice_id" u64).and ((Fields.one "sme" address).and
    ((Fields.one "token" address).and ((Fields.one "principal" i128).and
    ((Fields.one "funded_at" u64).and ((Fields.one "factoring_fee" i128).and
    ((Fields.one "due_date" u64).and (Fields.one "repaid_amount" i128)))))))).convert
    (fun (invoiceId, sme, token, principal, fundedAt, factoringFee, dueDate, repaidAmount) =>
      ⟨invoiceId, sme, token, principal, fundedAt, factoringFee, dueDate, repaidAmount⟩)
    (fun v => (v.invoiceId, v.sme, v.token, v.principal, v.fundedAt, v.factoringFee, v.dueDate,
      v.repaidAmount)) fun _ => rfl

def collateralDepositView : Fields CollateralDepositView :=
  ((Fields.one "invoice_id" u64).and ((Fields.one "depositor" address).and
    ((Fields.one "token" address).and ((Fields.one "amount" i128).and
    ((Fields.one "settled" bool).and ((Fields.one "posted_at" u64).and
    ((Fields.one "released_at" u64).and ((Fields.one "seized_at" u64).and
      (Fields.one "settled_price" i128))))))))).convert
    (fun (invoiceId, depositor, token, amount, settled, postedAt, releasedAt, seizedAt,
        settledPrice) =>
      ⟨invoiceId, depositor, token, amount, settled, postedAt, releasedAt, seizedAt, settledPrice⟩)
    (fun v => (v.invoiceId, v.depositor, v.token, v.amount, v.settled, v.postedAt, v.releasedAt,
      v.seizedAt, v.settledPrice)) fun _ => rfl

end InsuranceMirror

namespace AuctionMirror

structure CollateralDepositView where
  invoiceId : ℕ
  depositor : Address
  token : Address
  amount : ℤ
  settled : Bool
  postedAt : ℕ
  releasedAt : ℕ
  seizedAt : ℕ
  collateralBpsAtDeposit : ℕ
  thresholdAtDeposit : ℤ

structure FundedInvoiceView where
  invoiceId : ℕ
  sme : Address
  token : Address
  principal : ℤ
  fundedAt : ℕ
  factoringFee : ℤ
  dueDate : ℕ
  repaidAmount : ℤ
  coFundingRoundId : Option ℕ
  lockedYieldBps : ℕ

def collateralDepositView : Fields CollateralDepositView :=
  ((Fields.one "invoice_id" u64).and ((Fields.one "depositor" address).and
    ((Fields.one "token" address).and ((Fields.one "amount" i128).and
    ((Fields.one "settled" bool).and ((Fields.one "posted_at" u64).and
    ((Fields.one "released_at" u64).and ((Fields.one "seized_at" u64).and
    ((Fields.one "collateral_bps_at_deposit" u32).and
      (Fields.one "threshold_at_deposit" i128)))))))))).convert
    (fun (invoiceId, depositor, token, amount, settled, postedAt, releasedAt, seizedAt,
        collateralBpsAtDeposit, thresholdAtDeposit) =>
      ⟨invoiceId, depositor, token, amount, settled, postedAt, releasedAt, seizedAt,
        collateralBpsAtDeposit, thresholdAtDeposit⟩)
    (fun v => (v.invoiceId, v.depositor, v.token, v.amount, v.settled, v.postedAt, v.releasedAt,
      v.seizedAt, v.collateralBpsAtDeposit, v.thresholdAtDeposit)) fun _ => rfl

def fundedInvoiceView : Fields FundedInvoiceView :=
  ((Fields.one "invoice_id" u64).and ((Fields.one "sme" address).and
    ((Fields.one "token" address).and ((Fields.one "principal" i128).and
    ((Fields.one "funded_at" u64).and ((Fields.one "factoring_fee" i128).and
    ((Fields.one "due_date" u64).and ((Fields.one "repaid_amount" i128).and
    ((Fields.one "co_funding_round_id" (option u64 nofun)).and
      (Fields.one "locked_yield_bps" u32)))))))))).convert
    (fun (invoiceId, sme, token, principal, fundedAt, factoringFee, dueDate, repaidAmount,
        coFundingRoundId, lockedYieldBps) =>
      ⟨invoiceId, sme, token, principal, fundedAt, factoringFee, dueDate, repaidAmount,
        coFundingRoundId, lockedYieldBps⟩)
    (fun v => (v.invoiceId, v.sme, v.token, v.principal, v.fundedAt, v.factoringFee, v.dueDate,
      v.repaidAmount, v.coFundingRoundId, v.lockedYieldBps)) fun _ => rfl

end AuctionMirror

namespace MarketMirror

structure FundedInvoiceView where
  invoiceId : ℕ
  sme : Address
  token : Address
  principal : ℤ
  fundedAt : ℕ
  factoringFee : ℤ
  dueDate : ℕ
  repaidAmount : ℤ
  coFundingRoundId : Option ℕ
  lockedYieldBps : ℕ

def fundedInvoiceView : Fields FundedInvoiceView :=
  ((Fields.one "invoice_id" u64).and ((Fields.one "sme" address).and
    ((Fields.one "token" address).and ((Fields.one "principal" i128).and
    ((Fields.one "funded_at" u64).and ((Fields.one "factoring_fee" i128).and
    ((Fields.one "due_date" u64).and ((Fields.one "repaid_amount" i128).and
    ((Fields.one "co_funding_round_id" (option u64 nofun)).and
      (Fields.one "locked_yield_bps" u32)))))))))).convert
    (fun (invoiceId, sme, token, principal, fundedAt, factoringFee, dueDate, repaidAmount,
        coFundingRoundId, lockedYieldBps) =>
      ⟨invoiceId, sme, token, principal, fundedAt, factoringFee, dueDate, repaidAmount,
        coFundingRoundId, lockedYieldBps⟩)
    (fun v => (v.invoiceId, v.sme, v.token, v.principal, v.fundedAt, v.factoringFee, v.dueDate,
      v.repaidAmount, v.coFundingRoundId, v.lockedYieldBps)) fun _ => rfl

end MarketMirror

/-- The contracts that read the answers. -/
inductive Reader
  | insurance | auction | secondaryMarket
  deriving DecidableEq, Repr

/-- A record of an answer and the record that a contract reads it as. -/
structure Mirror where
  reader : Reader
  Answer : Type
  View : Type
  answer : Fields Answer
  view : Fields View
  answer_nodup : answer.names.Nodup
  view_nodup : view.names.Nodup

def mirrors : List Mirror :=
  [⟨.insurance, _, _, creditScoreResponse, InsuranceMirror.creditScoreData, by decide, by decide⟩,
    ⟨.insurance, _, _, fundedInvoice, InsuranceMirror.fundedInvoiceView, by decide, by decide⟩,
    ⟨.insurance, _, _, collateralDeposit, InsuranceMirror.collateralDepositView, by decide,
      by decide⟩,
    ⟨.auction, _, _, collateralDeposit, AuctionMirror.collateralDepositView, by decide, by decide⟩,
    ⟨.auction, _, _, fundedInvoice, AuctionMirror.fundedInvoiceView, by decide, by decide⟩,
    ⟨.secondaryMarket, _, _, fundedInvoice, MarketMirror.fundedInvoiceView, by decide, by decide⟩]

/-- What a contract reads of an answer. -/
def Mirror.read (m : Mirror) (a : m.Answer) : Option m.View :=
  (record m.view m.view_nodup).decode ((record m.answer m.answer_nodup).encode a)

/-- Every answer is read, and the fields that both records have keep their values. -/
def Mirror.Faithful (m : Mirror) : Prop :=
  ∀ a, ∃ v, m.read a = some v ∧ ∀ name ∈ m.answer.names, name ∈ m.view.names →
    m.view.value v name = m.answer.value a name

/-- What the pool and the credit score contract answer; `none` is a failed call. -/
structure Answers (W : Type) where
  getCreditScore : W → Address → Address → Option CreditScore.CreditScoreResponse
  getFundedInvoice : W → Address → ℕ → Option (Option Pool.FundedInvoice)
  getCollateralDeposit : W → Address → ℕ → Option (Option Pool.CollateralDeposit)

/-- An answer of the credit score contract as the insurance contract reads it. -/
def readCreditScore (r : CreditScore.CreditScoreResponse) : Option Insurance.CreditScoreData :=
  ((record InsuranceMirror.creditScoreData (by decide)).decode
    ((record creditScoreResponse (by decide)).encode r)).map fun d => ⟨d.score, d.blendedScore⟩

/-- An answer of `get_funded_invoice` as the insurance contract reads it. -/
def readFundedInvoice (r : Option Pool.FundedInvoice) :
    Option (Option Insurance.FundedInvoiceView) :=
  ((option (record InsuranceMirror.fundedInvoiceView (by decide)) nofun).decode
    ((option (record fundedInvoice (by decide)) nofun).encode r)).map
      (Option.map fun v => ⟨v.principal, v.repaidAmount⟩)

/-- An answer of `get_collateral_deposit` as the insurance contract reads it. -/
def readCollateralDeposit (d : Option Pool.CollateralDeposit) :
    Option (Option Insurance.CollateralDepositView) :=
  ((option (record InsuranceMirror.collateralDepositView (by decide)) nofun).decode
    ((option (record collateralDeposit (by decide)) nofun).encode d)).map
      (Option.map fun v => ⟨v.settled, v.settledPrice⟩)

/-- The neighbours of the insurance contract, with these answers. -/
def Answers.host (answers : Answers W) (h : Insurance.Host W) : Insurance.Host W :=
  { h with
    getCreditScore := fun w contract sme => (answers.getCreditScore w contract sme).bind
      readCreditScore
    getFundedInvoice := fun w contract invoiceId =>
      (answers.getFundedInvoice w contract invoiceId).bind readFundedInvoice
    getCollateralDeposit := fun w contract invoiceId =>
      (answers.getCollateralDeposit w contract invoiceId).bind readCollateralDeposit }

end Astera.Messages
