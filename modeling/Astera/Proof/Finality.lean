import Astera.Pool.Loans

/-!
# Full repayment

`is_invoice_repaid` compares the repaid amount with what is due at the present time.  A settled
invoice stays repaid as long as the due date and the compounding flag give no more interest than was
paid.
-/

namespace Astera.Pool

open Fallible Machine Transition

variable {W : Type}

/-- The interest on a settled loan, for a compounding flag and a time, is within what was paid. -/
def InterestPaid (record : FundedInvoice) (compound : Bool) (now : ℕ) : Prop :=
  ∃ interest totalDue, calculateTotalDue record compound now = .ok (interest, totalDue) ∧
    interest ≤ record.repaidAmount - record.principal - record.factoringFee

theorem InterestPaid.of_matured {record : FundedInvoice} {compound : Bool} {now now' : ℕ}
    (hpaid : InterestPaid record compound now) (hdue : record.dueDate ≤ now) (hle : now ≤ now') :
    InterestPaid record compound now' := by
  have hend : accrualEnd record now' = accrualEnd record now := by
    unfold accrualEnd
    split_ifs <;> omega
  unfold InterestPaid calculateTotalDue
  rw [hend]
  exact hpaid

/-- A call on the clock or the terms of the loan leaves the interest within what was paid, and no
call funds the invoice again or drops its record. -/
def KeepsInterest (invoiceId : ℕ) (s : State W) : Call W → Prop
  | .advance now => ∀ record, s.funded.get invoiceId = some record →
      InterestPaid record s.params.config.compoundInterest now
  | .setCompoundInterest _ compound => ∀ record, s.funded.get invoiceId = some record →
      InterestPaid record compound s.now
  | .setParams params => ∀ record, s.funded.get invoiceId = some record →
      InterestPaid record params.config.compoundInterest s.now
  | .updateInvoiceDueDate _ id newDueDate => id = invoiceId →
      ∀ record, s.funded.get invoiceId = some record →
        InterestPaid { record with dueDate := newDueDate } s.params.config.compoundInterest s.now
  | .fundInvoice _ request => request.invoiceId ≠ invoiceId
  | .fundMultipleInvoices _ requests => ∀ r ∈ requests, r.invoiceId ≠ invoiceId
  | .cancelFundedInvoice _ id | .cleanupFundedInvoice _ id => id ≠ invoiceId
  | _ => True

/-- The calls that change the terms on which interest is computed: the passing of time, the
compounding flag and the due date of the invoice. -/
def Call.setsTerms (invoiceId : ℕ) : Call W → Prop
  | .advance _ | .setCompoundInterest _ _ | .setParams _ => True
  | .updateInvoiceDueDate _ id _ => id = invoiceId
  | _ => False

/-! ## One step -/

section Step

variable {h : Host W} {signers : List Address} {s s' : State W} {invoiceId : ℕ}

theorem isInvoiceRepaid_iff : isInvoiceRepaid s invoiceId = .ok true ↔
    ∃ record, s.funded.get invoiceId = some record ∧
      InterestPaid record s.params.config.compoundInterest s.now := by
  rw [isInvoiceRepaid_eq_ok]
  constructor
  · rintro ⟨record, interest, totalDue, hrecord, hdue, hle⟩
    obtain ⟨-, rfl, -⟩ := calculateTotalDue_eq_ok hdue
    have := of_decide_eq_true hle
    exact ⟨record, hrecord, interest, _, hdue, by omega⟩
  · rintro ⟨record, hrecord, interest, totalDue, hdue, hle⟩
    obtain ⟨-, rfl, -⟩ := calculateTotalDue_eq_ok hdue
    exact ⟨record, interest, _, hrecord, hdue, decide_eq_true (by omega)⟩

theorem isInvoiceRepaid_of_get (hrepaid : isInvoiceRepaid s invoiceId = .ok true)
    (hnow : s'.now = s.now)
    (hcompound : s'.params.config.compoundInterest = s.params.config.compoundInterest)
    (hget : s'.funded.get invoiceId = s.funded.get invoiceId) :
    isInvoiceRepaid s' invoiceId = .ok true := by
  rw [isInvoiceRepaid_iff] at hrepaid ⊢
  rwa [hnow, hcompound, hget]

theorem isInvoiceRepaid_of_frame (hrepaid : isInvoiceRepaid s invoiceId = .ok true)
    (hf : LoanFrame s s') : isInvoiceRepaid s' invoiceId = .ok true :=
  isInvoiceRepaid_of_get hrepaid hf.now hf.compound (by rw [hf.funded])

theorem isInvoiceRepaid_of_change {funded : Store ℕ FundedInvoice} {token : Address} {delta : ℤ}
    (hrepaid : isInvoiceRepaid s invoiceId = .ok true) (hc : LoanChange s s' funded token delta)
    (hget : funded.get invoiceId = s.funded.get invoiceId) :
    isInvoiceRepaid s' invoiceId = .ok true :=
  isInvoiceRepaid_of_get hrepaid hc.now hc.compound (by rw [hc.funded, hget])

theorem not_repayInvoiceRequest (hrepaid : isInvoiceRepaid s invoiceId = .ok true)
    {payer : Address} {amount : ℤ} :
    repayInvoiceRequest h signers payer s ⟨invoiceId, amount⟩ ≠ .ok s' := by
  intro hr
  obtain ⟨q, hq, -⟩ := repayInvoiceRequest_loans hr
  obtain ⟨-, hrecord, hdue, hlt, -⟩ := quoteRepayment_eq_ok hq
  obtain ⟨record, hrecord', interest, totalDue, hdue', hle⟩ := isInvoiceRepaid_iff.1 hrepaid
  obtain rfl : q.record = record := Option.some.inj (hrecord.symm.trans hrecord')
  obtain ⟨rfl, rfl⟩ := Prod.mk.inj (Except.ok.inj (hdue.symm.trans hdue'))
  obtain ⟨-, htotal, -⟩ := calculateTotalDue_eq_ok hdue
  omega

theorem isInvoiceRepaid_repay {payer : Address} {request : RepaymentRequest}
    (hrepaid : isInvoiceRepaid s invoiceId = .ok true)
    (hr : repayInvoiceRequest h signers payer s request = .ok s') :
    isInvoiceRepaid s' invoiceId = .ok true := by
  by_cases hid : request.invoiceId = invoiceId
  · subst hid
    exact absurd hr (not_repayInvoiceRequest hrepaid)
  · obtain ⟨q, -, hchange⟩ := repayInvoiceRequest_loans hr
    exact isInvoiceRepaid_of_change hrepaid hchange (Store.get_set_of_ne _ _ (Ne.symm hid))

theorem isInvoiceRepaid_fund {request : FundingRequest} (hne : request.invoiceId ≠ invoiceId)
    (hrepaid : isInvoiceRepaid s invoiceId = .ok true)
    (hf : fundInvoiceRequest h s request = .ok s') : isInvoiceRepaid s' invoiceId = .ok true := by
  obtain ⟨_, _, record, -, -, -, hchange⟩ := fundInvoiceRequest_loans hf
  exact isInvoiceRepaid_of_change hrepaid hchange (Store.get_set_of_ne _ _ (Ne.symm hne))

theorem isInvoiceRepaid_seize {id : ℕ} (hrepaid : isInvoiceRepaid s invoiceId = .ok true)
    (hs : seizeCollateralCore h s id = .ok s') : isInvoiceRepaid s' invoiceId = .ok true := by
  obtain ⟨record, -, hchange⟩ := seizeCollateralCore_loans hs
  exact isInvoiceRepaid_of_change hrepaid hchange rfl

theorem isInvoiceRepaid_setsTerms {tx : Tx h} (hterms : tx.call.setsTerms invoiceId)
    (hrepaid : isInvoiceRepaid s invoiceId = .ok true) (hstep : exec h s tx = .ok s') :
    isInvoiceRepaid s' invoiceId = .ok true ↔ KeepsInterest invoiceId s tx.call := by
  obtain ⟨signers, hself, call⟩ := tx
  obtain ⟨record, hrecord, -⟩ := isInvoiceRepaid_iff.1 hrepaid
  rw [isInvoiceRepaid_iff]
  cases call with
  | advance now =>
    obtain ⟨-, rfl⟩ := advance_eq_ok hstep
    simp [KeepsInterest, hrecord]
  | setCompoundInterest admin compound =>
    rw [setCompoundInterest_eq_ok hstep]
    simp [KeepsInterest, hrecord]
  | setParams params =>
    obtain rfl := Except.ok.inj hstep
    simp [KeepsInterest, hrecord]
  | updateInvoiceDueDate invoiceContract id newDueDate =>
    obtain rfl : id = invoiceId := hterms
    obtain ⟨record', hrecord', -, rfl⟩ := updateInvoiceDueDate_eq_ok hstep
    obtain rfl : record' = record := Option.some.inj (hrecord'.symm.trans hrecord)
    simp [KeepsInterest, hrecord]
  | _ => cases hterms

theorem isInvoiceRepaid_exec {tx : Tx h} (hrepaid : isInvoiceRepaid s invoiceId = .ok true)
    (hkeeps : KeepsInterest invoiceId s tx.call) (hstep : exec h s tx = .ok s') :
    isInvoiceRepaid s' invoiceId = .ok true := by
  by_cases hterms : tx.call.setsTerms invoiceId
  · exact (isInvoiceRepaid_setsTerms hterms hrepaid hstep).2 hkeeps
  by_cases hloan : tx.call.isLoan = true
  · obtain ⟨signers, hself, call⟩ := tx
    cases call with
    | fundInvoice admin request =>
      exact isInvoiceRepaid_fund hkeeps hrepaid (fundInvoice_eq_ok.1 hstep).2.2
    | fundMultipleInvoices admin requests =>
      obtain ⟨-, -, -, hfold⟩ := fundMultipleInvoices_eq_ok.1 hstep
      exact foldlM_invariant (P := fun s => isInvoiceRepaid s invoiceId = .ok true)
        (fun _ r _ hr hs hf => isInvoiceRepaid_fund (hkeeps r hr) hs hf) hrepaid hfold
    | repayInvoice payer request =>
      exact isInvoiceRepaid_repay hrepaid (repayInvoice_eq_ok.1 hstep).2
    | repayInvoicesBatch payer requests =>
      exact foldlM_invariant (P := fun s => isInvoiceRepaid s invoiceId = .ok true)
        (fun _ r _ _ hs hf => isInvoiceRepaid_repay hs hf) hrepaid
        (repayInvoicesBatch_eq_ok hstep).2
    | cleanupFundedInvoice admin id =>
      obtain ⟨_, -, rfl⟩ := cleanupFundedInvoice_eq_ok hstep
      exact isInvoiceRepaid_of_get hrepaid rfl rfl
        (by rw [Store.get_remove, if_neg (Ne.symm hkeeps)])
    | cancelFundedInvoice admin id =>
      obtain ⟨record, -, hchange⟩ := cancelFundedInvoice_loans hstep
      exact isInvoiceRepaid_of_change hrepaid hchange
        (by rw [Store.get_remove, if_neg (Ne.symm hkeeps)])
    | updateInvoiceDueDate invoiceContract id newDueDate =>
      obtain ⟨record, -, -, rfl⟩ := updateInvoiceDueDate_eq_ok hstep
      exact isInvoiceRepaid_of_get hrepaid rfl rfl (Store.get_set_of_ne _ _ (Ne.symm hterms))
    | finalizeCoFunding caller id =>
      rcases finalizeCoFunding_loans hstep with hframe | ⟨record, hnone, -, -, hchange⟩
      · exact isInvoiceRepaid_of_frame hrepaid hframe
      · obtain ⟨old, hold, -⟩ := isInvoiceRepaid_iff.1 hrepaid
        have hne : invoiceId ≠ id := by
          rintro rfl
          rw [hnone] at hold
          cases hold
        exact isInvoiceRepaid_of_change hrepaid hchange (Store.get_set_of_ne _ _ hne)
    | liquidateInvoice caller id =>
      exact isInvoiceRepaid_seize hrepaid (liquidateInvoice_eq_ok hstep)
    | executeOperation admin proposalId =>
      rcases executeOperation_loans hstep with ⟨-, hframe⟩ | ⟨_, _, -, -, hchange⟩
      · exact isInvoiceRepaid_of_frame hrepaid hframe
      · exact isInvoiceRepaid_of_change hrepaid hchange rfl
    | _ => cases hloan
  · refine isInvoiceRepaid_of_frame hrepaid (exec_loanFrame (by simpa using hloan) ?_ hstep)
    obtain ⟨signers, hself, call⟩ := tx
    cases call <;> first | rfl | exact absurd trivial hterms

end Step

/-- From a state in which the invoice is repaid: in every run whose calls keep the interest within
what was paid it stays repaid and every further repayment fails, so that it changes nothing; and the
first call on the terms of the loan that lets the interest grow makes the invoice unpaid again. -/
theorem repayment_final (h : Host W) (invoiceId : ℕ) (s₁ : State W)
    (hrepaid : isInvoiceRepaid s₁ invoiceId = .ok true) (s : State W)
    (hrun : Reaches (exec h) (fun s tx => KeepsInterest invoiceId s tx.call) s₁ s) :
    isInvoiceRepaid s invoiceId = .ok true ∧
    (∀ signers payer amount s', repayInvoice h signers s payer ⟨invoiceId, amount⟩ ≠ .ok s') ∧
    ∀ tx s', tx.call.setsTerms invoiceId → exec h s tx = .ok s' →
      (isInvoiceRepaid s' invoiceId = .ok true ↔ KeepsInterest invoiceId s tx.call) := by
  have hnow : isInvoiceRepaid s invoiceId = .ok true :=
    hrun.invariant (P := fun s => isInvoiceRepaid s invoiceId = .ok true) hrepaid
      fun _ _ _ hs hkeeps hstep => isInvoiceRepaid_exec hs hkeeps hstep
  refine ⟨hnow, ?_, ?_⟩
  · intro signers payer amount s' hr
    exact not_repayInvoiceRequest hnow (repayInvoice_eq_ok.1 hr).2
  · intro tx s' hterms hstep
    exact isInvoiceRepaid_setsTerms hterms hnow hstep

/-- A year after the loan was settled at its due date. -/
def nextYear : Tx quietHost := ⟨[], self_notMem_nil, .advance 63072001⟩

theorem repayment_final_matured :
    ∃ s₁ s, execAll quietHost sampleState (yearLoan ++ [settlement]) = .ok s₁ ∧
      exec quietHost s₁ nextYear = .ok s ∧
      Reaches (exec quietHost) (fun s tx => KeepsInterest 7 s tx.call) s₁ s ∧
      isInvoiceRepaid s 7 = .ok true ∧
      ∀ signers payer amount s', repayInvoice quietHost signers s payer ⟨7, amount⟩ ≠ .ok s' := by
  obtain ⟨s₁, hs₁, hp⟩ := exists_of_check
    (x := execAll quietHost sampleState (yearLoan ++ [settlement]))
    (p := fun s => check (isInvoiceRepaid s 7) id && decide (s.now = 31536001 ∧
      (s.funded.get 7).map FundedInvoice.dueDate = some 31536001) &&
      check (exec quietHost s nextYear) fun _ => true) (by decide)
  obtain ⟨hp, hnext⟩ := Bool.and_eq_true_iff.1 hp
  obtain ⟨hp, hterms⟩ := Bool.and_eq_true_iff.1 hp
  obtain ⟨_, hrepaid, rfl⟩ := exists_of_check hp
  obtain ⟨hnow, hdue⟩ := of_decide_eq_true hterms
  obtain ⟨s, hs, -⟩ := exists_of_check hnext
  have hkeeps : KeepsInterest 7 s₁ nextYear.call := by
    intro record hget
    obtain ⟨record', hget', hpaid⟩ := isInvoiceRepaid_iff.1 hrepaid
    obtain rfl : record = record' := Option.some.inj (hget.symm.trans hget')
    rw [hget, Option.map_some] at hdue
    have hmatured := Option.some.inj hdue
    exact hpaid.of_matured (by omega) (by omega)
  have hrun : Reaches (exec quietHost) (fun s tx => KeepsInterest 7 s tx.call) s₁ s :=
    .next .refl hkeeps hs
  have hfinal := repayment_final quietHost 7 s₁ hrepaid s hrun
  exact ⟨s₁, s, hs₁, hs, hrun, hfinal.1, hfinal.2.1⟩

/-- A loan of 1000 for a year, settled after half of it. -/
def settledEarly : List (Tx quietHost) :=
  [⟨[1], self_ne_one, .setMaxInvestorConcentration 1 10000⟩,
    ⟨[3], self_ne_three, .deposit 3 10 1000 none⟩,
    ⟨[1], self_ne_one, .fundInvoice 1 ⟨7, 1000, 4, 31536001, 10⟩⟩,
    ⟨[], self_notMem_nil, .advance 15768001⟩,
    ⟨[4], self_ne_four, .repayInvoice 4 ⟨7, 2000⟩⟩]

/-- Time passes up to the due date and the settled invoice is unpaid; repaying it once more takes
the principal off `total_deployed` a second time. -/
theorem settled_invoice_reopens :
    ∃ s₁ s₂ s₃, execAll quietHost sampleState settledEarly = .ok s₁ ∧
      isInvoiceRepaid s₁ 7 = .ok true ∧
      exec quietHost s₁ ⟨[], by decide, .advance 31536001⟩ = .ok s₂ ∧
      isInvoiceRepaid s₂ 7 = .ok false ∧
      exec quietHost s₂ ⟨[4], by decide, .repayInvoice 4 ⟨7, 2000⟩⟩ = .ok s₃ ∧
      (s₂.tt 10).totalDeployed = 0 ∧ (s₃.tt 10).totalDeployed = -1000 := by
  obtain ⟨s₁, hs₁, hp⟩ := exists_of_check (x := execAll quietHost sampleState settledEarly)
    (p := fun s₁ => check (isInvoiceRepaid s₁ 7) id &&
      check (exec quietHost s₁ ⟨[], by decide, .advance 31536001⟩) fun s₂ =>
        check (isInvoiceRepaid s₂ 7) not &&
        check (exec quietHost s₂ ⟨[4], by decide, .repayInvoice 4 ⟨7, 2000⟩⟩) fun s₃ =>
          decide ((s₂.tt 10).totalDeployed = 0 ∧ (s₃.tt 10).totalDeployed = -1000))
    (by decide)
  obtain ⟨h₁, hp⟩ := Bool.and_eq_true_iff.1 hp
  obtain ⟨_, hrepaid, rfl⟩ := exists_of_check h₁
  obtain ⟨s₂, hs₂, hp⟩ := exists_of_check hp
  obtain ⟨h₂, hp⟩ := Bool.and_eq_true_iff.1 hp
  obtain ⟨b, hunpaid, hb⟩ := exists_of_check h₂
  obtain ⟨s₃, hs₃, hp⟩ := exists_of_check hp
  obtain rfl : b = false := by simpa using hb
  exact ⟨s₁, s₂, s₃, hs₁, hrepaid, hs₂, hunpaid, hs₃, of_decide_eq_true hp⟩

end Astera.Pool
