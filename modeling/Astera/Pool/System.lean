import Astera.Lib.Transition
import Astera.Pool.Operations

/-!
# The pool as a machine

`Call W` lists the pool entrypoints, transfers of asset and share tokens, the passing of time and
moves of the other contracts; a run of the pool is a run of `exec` (`Transition.Reaches`).
-/

namespace Astera.Pool

open Fallible Machine Transition

variable {W : Type}

inductive Call (W : Type)
  | deposit (investor token : Address) (amount : ℤ) (minRate : Option ℕ)
  | withdraw (investor token : Address) (shares : ℤ)
  | requestWithdrawal (investor token : Address) (shares : ℤ)
  | cancelWithdrawalRequest (investor token : Address)
  | adjustWithdrawalRequest (investor token : Address) (newShares : ℤ)
  | drainWithdrawalQueue (caller token : Address)
  | claimYield (investor token : Address)
  | fundInvoice (admin : Address) (request : FundingRequest)
  | fundMultipleInvoices (admin : Address) (requests : List FundingRequest)
  | repayInvoice (payer : Address) (request : RepaymentRequest)
  | repayInvoicesBatch (payer : Address) (requests : List RepaymentRequest)
  | cleanupFundedInvoice (admin : Address) (invoiceId : ℕ)
  | cancelFundedInvoice (admin : Address) (invoiceId : ℕ)
  | updateInvoiceDueDate (invoiceContract : Address) (invoiceId newDueDate : ℕ)
  | setCompoundInterest (admin : Address) (compound : Bool)
  | openCoFunding (admin : Address) (request : OpenCoFundingRequest)
  | commitToInvoice (investor : Address) (invoiceId : ℕ) (amount : ℤ)
  | withdrawCoFundingCommitment (investor : Address) (invoiceId : ℕ)
  | cancelCoFundingRound (admin : Address) (invoiceId : ℕ)
  | finalizeCoFunding (caller : Address) (invoiceId : ℕ)
  | transferCoFundShare (sender : Address) (invoiceId : ℕ) (token receiver : Address) (bps : ℕ)
  | depositCollateral (invoiceId : ℕ) (depositor token : Address) (amount : ℤ)
  | topUpCollateral (invoiceId : ℕ) (depositor token : Address) (amount : ℤ)
  | riskLiquidateCollateral (caller : Address) (invoiceId : ℕ)
  | liquidateInvoice (caller : Address) (invoiceId : ℕ)
  | addToken (admin token share : Address)
  | proposeOperation (admin : Address) (operation : AdminOperation)
  | executeOperation (admin : Address) (proposalId : ℕ)
  | cancelOperation (admin : Address) (proposalId : ℕ)
  | setMaxInvestorConcentration (admin : Address) (maxBps : ℕ)
  | withdrawRevenue (admin token : Address) (amount : ℤ)
  | withdrawRevenueViaAc (accessControl token : Address) (amount : ℤ)
  | receiveInsurancePayout (insurance token : Address) (amount : ℤ)
  | marketSettleListing (market : Address) (listing : ListingSettlement)
  /-- Any of the remaining setters.  Each writes some of the parameters; which values it accepts is
  not modelled. -/
  | setParams (params : Params)
  | neighbours (world : W)
  | advance (now : ℕ)
  | assetTransfer (token sender receiver : Address) (amount : ℤ)
  /-- A holder moves share tokens. -/
  | shareTransfer (share sender receiver : Address) (amount : ℤ)

/-- A call and the addresses that authorize it.  A contract cannot sign, so the pool is not among
them. -/
structure Tx (h : Host W) where
  signers : List Address
  self_not_mem : h.self ∉ signers
  call : Call W

def shareTransfer (signers : List Address) (s : State W) (share sender receiver : Address)
    (amount : ℤ) : Res (State W) :=
  match (s.shareTokens share).transfer (fun a => signers.contains a) s.now sender receiver amount with
  | .ok t => .ok { s with shareTokens := Function.update s.shareTokens share t }
  | .error e => .error (.trap (.share e))

def assetTransfer (signers : List Address) (s : State W) (token sender receiver : Address)
    (amount : ℤ) : Res (State W) := do
  requireAuth signers sender
  s.transfer token sender receiver amount

def advance (s : State W) (now : ℕ) : Res (State W) := do
  require (s.now ≤ now) overflowTrap
  return { s with now := now }

def exec (h : Host W) (s : State W) (tx : Tx h) : Res (State W) :=
  let signers := tx.signers
  match tx.call with
  | .deposit investor token amount minRate => deposit h signers s investor token amount minRate
  | .withdraw investor token shares => withdraw h signers s investor token shares
  | .requestWithdrawal investor token shares =>
    (requestWithdrawal h signers s investor token shares).map Prod.fst
  | .cancelWithdrawalRequest investor token => cancelWithdrawalRequest signers s investor token
  | .adjustWithdrawalRequest investor token newShares =>
    adjustWithdrawalRequest signers s investor token newShares
  | .drainWithdrawalQueue caller token => drainWithdrawalQueue h signers s caller token
  | .claimYield investor token => claimYield h signers s investor token
  | .fundInvoice admin request => fundInvoice h signers s admin request
  | .fundMultipleInvoices admin requests => fundMultipleInvoices h signers s admin requests
  | .repayInvoice payer request => repayInvoice h signers s payer request
  | .repayInvoicesBatch payer requests => repayInvoicesBatch h signers s payer requests
  | .cleanupFundedInvoice admin invoiceId => cleanupFundedInvoice signers s admin invoiceId
  | .cancelFundedInvoice admin invoiceId => cancelFundedInvoice h signers s admin invoiceId
  | .updateInvoiceDueDate invoiceContract invoiceId newDueDate =>
    updateInvoiceDueDate signers s invoiceContract invoiceId newDueDate
  | .setCompoundInterest admin compound => setCompoundInterest signers s admin compound
  | .openCoFunding admin request => openCoFunding signers s admin request
  | .commitToInvoice investor invoiceId amount =>
    commitToInvoice h signers s investor invoiceId amount
  | .withdrawCoFundingCommitment investor invoiceId =>
    withdrawCoFundingCommitment h signers s investor invoiceId
  | .cancelCoFundingRound admin invoiceId => cancelCoFundingRound signers s admin invoiceId
  | .finalizeCoFunding caller invoiceId => finalizeCoFunding h signers s caller invoiceId
  | .transferCoFundShare sender invoiceId token receiver bps =>
    transferCoFundShare signers s sender invoiceId token receiver bps
  | .depositCollateral invoiceId depositor token amount =>
    depositCollateral h signers s invoiceId depositor token amount
  | .topUpCollateral invoiceId depositor token amount =>
    topUpCollateral h signers s invoiceId depositor token amount
  | .riskLiquidateCollateral caller invoiceId =>
    riskLiquidateCollateral h signers s caller invoiceId
  | .liquidateInvoice caller invoiceId => liquidateInvoice h signers s caller invoiceId
  | .addToken admin token share => addToken h signers s admin token share
  | .proposeOperation admin operation => proposeOperation signers s admin operation
  | .executeOperation admin proposalId => executeOperation h signers s admin proposalId
  | .cancelOperation admin proposalId => cancelOperation signers s admin proposalId
  | .setMaxInvestorConcentration admin maxBps => setMaxInvestorConcentration signers s admin maxBps
  | .withdrawRevenue admin token amount => withdrawRevenue h signers s admin token amount
  | .withdrawRevenueViaAc accessControl token amount =>
    withdrawRevenueViaAc h signers s accessControl token amount
  | .receiveInsurancePayout insurance token amount =>
    receiveInsurancePayout signers s insurance token amount
  | .marketSettleListing market listing => marketSettleListing h signers s market listing
  | .setParams params => .ok { s with params := params }
  | .neighbours world => .ok { s with world := world }
  | .advance now => advance s now
  | .assetTransfer token sender receiver amount =>
    assetTransfer signers s token sender receiver amount
  | .shareTransfer share sender receiver amount =>
    shareTransfer signers s share sender receiver amount

def execAll (h : Host W) (s : State W) (txs : List (Tx h)) : Res (State W) := txs.foldlM (exec h) s

theorem shareTransfer_eq_ok {signers : List Address} {s s' : State W}
    {share sender receiver : Address} {amount : ℤ}
    (ht : shareTransfer signers s share sender receiver amount = .ok s') :
    0 < amount ∧ ∃ st₁ st, State.Moved s.shareTokens st₁ share sender (-amount) ∧
      State.Moved st₁ st share receiver amount ∧ s' = { s with shareTokens := st } := by
  unfold shareTransfer at ht
  split at ht
  · rename_i t htr
    obtain ⟨hpos, hb, hs, hb', hs', rfl⟩ := Share.ShareToken.transfer_eq_ok htr
    have h₁ := State.moved_adjust (rfl : s.shareTokens share = _) sender (-amount) hb hs s.now
    have h₂ := State.moved_adjust (Function.update_self share _ s.shareTokens) receiver amount hb'
      hs' s.now
    rw [Function.update_idem] at h₂
    exact ⟨hpos, _, _, h₁, h₂, (Except.ok.inj ht).symm⟩
  · cases ht

theorem assetTransfer_eq_ok {signers : List Address} {s s' : State W}
    {token sender receiver : Address} {amount : ℤ}
    (ht : assetTransfer signers s token sender receiver amount = .ok s') :
    sender ∈ signers ∧ 0 ≤ amount ∧
      s' = { s with cash := State.moveCash s.cash token sender receiver amount } := by
  unfold assetTransfer at ht
  simp only [bind_eq_ok, requireAuth_eq_ok, exists_unit, State.transfer_eq_ok] at ht
  obtain ⟨hauth, hnn, -, rfl⟩ := ht
  exact ⟨hauth, hnn, rfl⟩

theorem advance_eq_ok {s s' : State W} {now : ℕ} (ha : advance s now = .ok s') :
    s.now ≤ now ∧ s' = { s with now := now } := by
  unfold advance at ha
  simp only [bind_eq_ok, require_eq_ok, exists_unit, pure_eq_ok] at ha
  exact ⟨ha.1, ha.2.symm⟩

/-! ## A sample ledger -/

/-- A pool at address 0 among contracts that accept everything and pay nothing. -/
def quietHost : Host Unit where
  self := 0
  getAuthorizedPool := fun _ _ => some 0
  isInvoiceDefaulted := fun _ _ _ => some true
  recordFunding := fun w _ _ _ => w
  markCancelled := fun w _ _ => some w
  isCleared := fun _ _ _ => some true
  getCreditScore := fun _ _ _ => none
  recordCreditFunding := fun w _ _ _ _ => w
  purchaseCoverage := fun _ _ _ => none
  recordActivity := fun _ _ _ _ _ _ => none
  lastPrice := fun _ _ _ => none
  decimals := fun _ _ => some 7

theorem self_ne_one : quietHost.self ∉ [1] := by decide
theorem self_ne_three : quietHost.self ∉ [3] := by decide
theorem self_ne_four : quietHost.self ∉ [4] := by decide
theorem self_ne_five : quietHost.self ∉ [5] := by decide
theorem self_notMem_nil : quietHost.self ∉ [] := by decide

/-- The ledger after `initialize`: the admin is 1, the invoice contract 2, the token 10 and its
share contract 20; every account but the pool holds the same amount of every token. -/
def sampleState : State Unit :=
  initialState 1 () (fun _ a => if a = 0 then 0 else 1000000000000)
    (fun _ => Share.ShareToken.fresh 0) 1 10 20 2

/-- A loan of all that an investor deposited, with one year to run. -/
def yearLoan : List (Tx quietHost) :=
  [⟨[1], by decide, .setMaxInvestorConcentration 1 10000⟩,
    ⟨[3], by decide, .deposit 3 10 1000 none⟩,
    ⟨[1], by decide, .fundInvoice 1 ⟨7, 1000, 4, 31536001, 10⟩⟩,
    ⟨[], by decide, .advance 31536001⟩]

def settlement : Tx quietHost := ⟨[4], by decide, .repayInvoice 4 ⟨7, 2000⟩⟩

end Astera.Pool
