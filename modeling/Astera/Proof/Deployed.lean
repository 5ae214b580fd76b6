import Astera.Pool.History

/-!
# The ledger of deployed capital

`total_deployed` is meant to be the principal of the pool's own open loans.  It is as long as a loan
is funded further in its own token and only while it is open, and settled, seized or cancelled at
most once.
-/

namespace Astera.Pool

open Fallible Machine Transition

variable {W : Type}

/-- A loan of the pool alone that was neither settled nor written off. -/
def IsOpen (g : Marks) (invoiceId : ℕ) (record : FundedInvoice) : Prop :=
  record.coFundingRoundId = none ∧ g.closed invoiceId = false

instance (g : Marks) (invoiceId : ℕ) (record : FundedInvoice) :
    Decidable (IsOpen g invoiceId record) :=
  inferInstanceAs (Decidable (_ ∧ _))

def openPrincipal (g : Marks) (token : Address) (invoiceId : ℕ) (record : FundedInvoice) : ℤ :=
  if record.token = token ∧ IsOpen g invoiceId record then record.principal else 0

/-- The principal of all open loans in a token. -/
def State.outstanding (s : State W) (g : Marks) (token : Address) : ℤ :=
  s.funded.total (openPrincipal g token)

/-- A loan that has a record is funded further in its own token, and only while it is open; the
second part is asked for when the ledger is to be exact. -/
def FundsOpen (exact : Prop) (g : Marks) (s : State W) (request : FundingRequest) : Prop :=
  ∀ record, s.funded.get request.invoiceId = some record →
    (IsOpen g request.invoiceId record → record.token = request.token) ∧
    (exact → IsOpen g request.invoiceId record)

/-- A repayment settles a loan of the pool only while it is open. -/
def SettlesOpen (payer : Address) (x : State W × Marks) (request : RepaymentRequest) : Prop :=
  ∀ q, quoteRepayment x.1 request.invoiceId payer request.amount = .ok q → q.full = true →
    q.record.coFundingRoundId = none → x.2.closed request.invoiceId = false

/-- Collateral is seized for an open loan of the pool. -/
def SeizesOpen (x : State W × Marks) (invoiceId : ℕ) : Prop :=
  ∀ record, x.1.funded.get invoiceId = some record → IsOpen x.2 invoiceId record

def LedgerOk (exact : Prop) (h : Host W) (x : State W × Marks) (tx : Tx h) : Prop :=
  match tx.call with
  | .fundInvoice _ request => FundsOpen exact x.2 x.1 request
  | .fundMultipleInvoices _ requests =>
    Along (fundInvoiceRequest h) (FundsOpen exact x.2) x.1 requests
  | .repayInvoice payer request => SettlesOpen payer x request
  | .repayInvoicesBatch payer requests =>
    Along (markedRepayment h tx.signers payer) (SettlesOpen payer) x requests
  | .liquidateInvoice _ invoiceId => SeizesOpen x invoiceId
  | .executeOperation _ proposalId => ∀ invoiceId,
      x.1.proposedSeizure proposalId = some invoiceId → SeizesOpen x invoiceId
  | .cancelFundedInvoice _ invoiceId => ∀ record, x.1.funded.get invoiceId = some record →
      record.coFundingRoundId = none → x.2.closed invoiceId = false
  | .cleanupFundedInvoice _ invoiceId => exact → ∀ record,
      x.1.funded.get invoiceId = some record → ¬ IsOpen x.2 invoiceId record
  | _ => True

/-- The ledger covers the open loans, and is exact if that is asked for; an invoice without a record
has no marks, and no principal is negative. -/
structure Booked (exact : Prop) (x : State W × Marks) : Prop where
  covers : ∀ t, x.1.outstanding x.2 t ≤ (x.1.tt t).totalDeployed
  eq : exact → ∀ t, (x.1.tt t).totalDeployed = x.1.outstanding x.2 t
  fresh : ∀ id, x.1.funded.get id = none → x.2.closed id = false
  nonneg : ∀ id record, x.1.funded.get id = some record → 0 ≤ record.principal

section Step

variable {exact : Prop} {h : Host W} {signers : List Address} {s s' : State W} {g g' : Marks}
  {token : Address} {delta : ℤ} {invoiceId : ℕ}

theorem openPrincipal_nonneg {record : FundedInvoice} (hr : 0 ≤ record.principal) (t : Address)
    (id : ℕ) : 0 ≤ openPrincipal g t id record := by
  unfold openPrincipal
  split_ifs
  · exact hr
  · exact le_rfl

theorem Booked.deployed_nonneg (hb : Booked exact (s, g)) (t : Address) :
    0 ≤ (s.tt t).totalDeployed :=
  (Store.total_nonneg fun id _ hr => openPrincipal_nonneg (hb.nonneg id _ hr) t id).trans
    (hb.covers t)

theorem openPrincipal_congr {id : ℕ} (hclosed : g'.closed id = g.closed id) (t : Address)
    (record : FundedInvoice) : openPrincipal g' t id record = openPrincipal g t id record := by
  have hopen : IsOpen g' id record ↔ IsOpen g id record := by
    unfold IsOpen
    rw [hclosed]
  simp only [openPrincipal, hopen]

theorem Booked.of_frame (hb : Booked exact (s, g)) (hf : LoanFrame s s') :
    Booked exact (s', g) := by
  refine ⟨fun t => ?_, fun he t => ?_, ?_, ?_⟩
  · have := hb.covers t
    simpa only [State.outstanding, hf.funded, hf.deployed] using this
  · have := hb.eq he t
    simpa only [State.outstanding, hf.funded, hf.deployed] using this
  · simpa only [hf.funded] using hb.fresh
  · simpa only [hf.funded] using hb.nonneg

theorem Booked.of_change {funded : Store ℕ FundedInvoice} (hb : Booked exact (s, g))
    (hc : LoanChange s s' funded token delta)
    (hle : ∀ t, funded.total (openPrincipal g' t) ≤
      s.funded.total (openPrincipal g t) + if t = token then delta else 0)
    (heq : exact → ∀ t, funded.total (openPrincipal g' t) =
      s.funded.total (openPrincipal g t) + if t = token then delta else 0)
    (hfresh : ∀ id, funded.get id = none → g'.closed id = false)
    (hnonneg : ∀ id record, funded.get id = some record → 0 ≤ record.principal) :
    Booked exact (s', g') := by
  refine ⟨fun t => ?_, fun he t => ?_, ?_, ?_⟩
  · have hcov := hb.covers t
    have hstep := hle t
    simp only [State.outstanding, hc.funded, hc.deployed] at hcov ⊢
    omega
  · have hcov := hb.eq he t
    have hstep := heq he t
    simp only [State.outstanding, hc.funded, hc.deployed] at hcov ⊢
    omega
  · simpa only [hc.funded] using hfresh
  · simpa only [hc.funded] using hnonneg

theorem Booked.of_set {record : FundedInvoice} (hb : Booked exact (s, g))
    (hc : LoanChange s s' (s.funded.set invoiceId record) token delta)
    (hclosed : ∀ id, id ≠ invoiceId → g'.closed id = g.closed id)
    (hle : ∀ t, openPrincipal g' t invoiceId record ≤
      s.funded.part (openPrincipal g t) invoiceId + if t = token then delta else 0)
    (heq : exact → ∀ t, openPrincipal g' t invoiceId record =
      s.funded.part (openPrincipal g t) invoiceId + if t = token then delta else 0)
    (hnn : 0 ≤ record.principal) : Booked exact (s', g') := by
  have htotal : ∀ t, (s.funded.set invoiceId record).total (openPrincipal g' t) =
      s.funded.total (openPrincipal g t) - s.funded.part (openPrincipal g t) invoiceId +
        openPrincipal g' t invoiceId record := fun t =>
    Store.total_set_of_agree record fun id r hid _ => openPrincipal_congr (hclosed id hid) t r
  refine hb.of_change hc (fun t => ?_) (fun he t => ?_) (fun id hget => ?_) (fun id r hget => ?_)
  · have := hle t
    rw [htotal]
    omega
  · have := heq he t
    rw [htotal]
    omega
  · rw [Store.get_set] at hget
    split_ifs at hget with hid
    rw [hclosed id hid]
    exact hb.fresh id hget
  · rw [Store.get_set] at hget
    split_ifs at hget with hid
    · exact Option.some.inj hget ▸ hnn
    · exact hb.nonneg id r hget

theorem Booked.of_remove (hb : Booked exact (s, g))
    (hc : LoanChange s s' (s.funded.remove invoiceId) token delta)
    (hle : ∀ t, 0 ≤ s.funded.part (openPrincipal g t) invoiceId + if t = token then delta else 0)
    (heq : exact → ∀ t,
      0 = s.funded.part (openPrincipal g t) invoiceId + if t = token then delta else 0) :
    Booked exact (s', g.forget invoiceId) := by
  have htotal : ∀ t, (s.funded.remove invoiceId).total (openPrincipal (g.forget invoiceId) t) =
      s.funded.total (openPrincipal g t) - s.funded.part (openPrincipal g t) invoiceId := fun t =>
    Store.total_remove_of_agree fun id r hid _ =>
      openPrincipal_congr (g.closed_forget_of_ne hid) t r
  refine hb.of_change hc (fun t => ?_) (fun he t => ?_) (fun id hget => ?_) (fun id r hget => ?_)
  · have := hle t
    rw [htotal]
    omega
  · have := heq he t
    rw [htotal]
    omega
  · rw [Store.get_remove] at hget
    split_ifs at hget with hid
    · rw [hid]
      exact g.closed_forget
    · rw [g.closed_forget_of_ne hid]
      exact hb.fresh id hget
  · exact hb.nonneg id r (Store.get_of_get_remove hget)

theorem booked_fund {request : FundingRequest} (hb : Booked exact (s, g))
    (hok : FundsOpen exact g s request) (hf : fundInvoiceRequest h s request = .ok s') :
    Booked exact (s', g) := by
  obtain ⟨_, _, record, hpos, -, hrecord, hchange⟩ := fundInvoiceRequest_loans hf
  rcases fundedRecord_eq_ok hrecord with ⟨old, hold, rfl⟩ | ⟨hnone, hnew⟩
  · obtain ⟨htoken, hexact⟩ := hok old hold
    have hnn := hb.nonneg _ old hold
    refine hb.of_set hchange (fun _ _ => rfl) (fun t => ?_) (fun he t => ?_) ?_
    · rw [Store.part_of_get hold]
      by_cases hopen : IsOpen g request.invoiceId old
      · have heq := htoken hopen
        unfold openPrincipal
        by_cases ht : t = request.token
        · simp [ht, heq, IsOpen, hopen.1, hopen.2]
        · simp [ht, heq, Ne.symm ht]
      · have hopen' : ∀ p, ¬ IsOpen g request.invoiceId { old with principal := p } := fun _ => hopen
        simp only [openPrincipal, hopen, hopen', and_false, if_false]
        split_ifs <;> omega
    · have hopen := hexact he
      have heq := htoken hopen
      rw [Store.part_of_get hold]
      unfold openPrincipal
      by_cases ht : t = request.token
      · simp [ht, heq, IsOpen, hopen.1, hopen.2]
      · simp [ht, heq, Ne.symm ht]
    · simp only
      omega
  · have hclosed := hb.fresh _ hnone
    have hpart : ∀ t, openPrincipal g t request.invoiceId record =
        s.funded.part (openPrincipal g t) request.invoiceId +
          if t = request.token then request.principal else 0 := by
      intro t
      rw [Store.part_of_get_none hnone, hnew]
      simp [openPrincipal, IsOpen, hclosed, eq_comm]
    refine hb.of_set hchange (fun _ _ => rfl) (fun t => (hpart t).le) (fun _ => hpart) ?_
    rw [hnew]
    exact hpos.le

theorem booked_repay {payer : Address} {request : RepaymentRequest} (hb : Booked exact (s, g))
    (hok : SettlesOpen payer (s, g) request)
    (hr : repayInvoiceRequest h signers payer s request = .ok s') :
    Booked exact (s', noteRepayment payer s request s' g) := by
  obtain ⟨q, hq, hchange⟩ := repayInvoiceRequest_loans hr
  obtain ⟨-, hrecord, -⟩ := quoteRepayment_eq_ok hq
  have hsettle := hok q hq
  have hnn : 0 ≤ q.record.principal := hb.nonneg _ _ hrecord
  rw [noteRepayment_eq hq]
  by_cases hfull : q.full = true
  · -- the settled loan leaves the sum, and its principal leaves the total if it was the pool's own
    rw [if_pos hfull]
    have hpart : ∀ t, openPrincipal (g.settle request.invoiceId) t request.invoiceId
        { q.record with repaidAmount := q.newRepaid } =
        s.funded.part (openPrincipal g t) request.invoiceId +
          if t = q.record.token then -q.undeployed else 0 := by
      intro t
      rw [Store.part_of_get hrecord]
      unfold RepaymentQuote.undeployed
      by_cases hco : q.record.coFundingRoundId = none
      · have hopen := hsettle hfull hco
        by_cases ht : t = q.record.token
        · simp [openPrincipal, IsOpen, hco, hopen, hfull, ht]
        · simp [openPrincipal, IsOpen, ht, Ne.symm ht]
      · simp [openPrincipal, IsOpen, hco]
    exact hb.of_set hchange (fun _ hid => g.closed_settle_of_ne hid) (fun t => (hpart t).le)
      (fun _ => hpart) hnn
  · rw [if_neg hfull]
    have hzero : q.undeployed = 0 := if_neg fun hset => hfull hset.2
    rw [hzero, neg_zero] at hchange
    have hpart : ∀ t, openPrincipal g t request.invoiceId
        { q.record with repaidAmount := q.newRepaid } =
        s.funded.part (openPrincipal g t) request.invoiceId +
          if t = q.record.token then 0 else 0 := by
      intro t
      rw [Store.part_of_get hrecord, ite_self, add_zero]
      rfl
    exact hb.of_set hchange (fun _ _ => rfl) (fun t => (hpart t).le) (fun _ => hpart) hnn

theorem booked_seize {record : FundedInvoice} (hb : Booked exact (s, g))
    (hok : SeizesOpen (s, g) invoiceId) (hrecord : s.funded.get invoiceId = some record)
    (hchange : LoanChange s s' s.funded record.token (-record.principal)) :
    Booked exact (s', g.writeOff invoiceId) := by
  have hopen := hok record hrecord
  have htotal : ∀ t, s.funded.total (openPrincipal (g.writeOff invoiceId) t) =
      s.funded.total (openPrincipal g t) + if t = record.token then -record.principal else 0 := by
    intro t
    rw [Store.total_of_agree (f := openPrincipal g t) (k := invoiceId) fun id r hid _ =>
      openPrincipal_congr (g.closed_writeOff_of_ne hid) t r, Store.part_of_get hrecord,
      Store.part_of_get hrecord]
    by_cases ht : t = record.token
    · simp [openPrincipal, IsOpen, hopen.1, hopen.2, ht]
      ring
    · simp [openPrincipal, ht, Ne.symm ht]
  refine hb.of_change hchange (fun t => (htotal t).le) (fun _ => htotal) (fun id hget => ?_)
    hb.nonneg
  have hid : id ≠ invoiceId := by
    rintro rfl
    rw [hrecord] at hget
    cases hget
  rw [g.closed_writeOff_of_ne hid]
  exact hb.fresh id hget

theorem booked_cancel {admin : Address} (hb : Booked exact (s, g))
    (hok : ∀ record, s.funded.get invoiceId = some record → record.coFundingRoundId = none →
      g.closed invoiceId = false)
    (hc : cancelFundedInvoice h signers s admin invoiceId = .ok s') :
    Booked exact (s', g.forget invoiceId) := by
  obtain ⟨record, hrecord, hchange⟩ := cancelFundedInvoice_loans hc
  have hpart : ∀ t, 0 = s.funded.part (openPrincipal g t) invoiceId + if t = record.token then
      (if record.coFundingRoundId = none then -record.principal else 0) else 0 := by
    intro t
    rw [Store.part_of_get hrecord]
    by_cases hco : record.coFundingRoundId = none
    · have hopen := hok record hrecord hco
      by_cases ht : t = record.token
      · simp [openPrincipal, IsOpen, hco, hopen, ht]
      · simp [openPrincipal, ht, Ne.symm ht]
    · simp [openPrincipal, IsOpen, hco]
  exact hb.of_remove hchange (fun t => (hpart t).le) fun _ => hpart

theorem booked_cleanup {admin : Address} (hb : Booked exact (s, g))
    (hok : exact → ∀ record, s.funded.get invoiceId = some record → ¬ IsOpen g invoiceId record)
    (hc : cleanupFundedInvoice signers s admin invoiceId = .ok s') :
    Booked exact (s', g.forget invoiceId) := by
  obtain ⟨_, hrepaid, rfl⟩ := cleanupFundedInvoice_eq_ok hc
  obtain ⟨record, _, _, hrecord, -⟩ := isInvoiceRepaid_eq_ok.1 hrepaid
  refine hb.of_remove (loanChange_of_totals 0 rfl rfl rfl rfl) (fun t => ?_) (fun he t => ?_)
  · rw [Store.part_of_get hrecord, ite_self, add_zero]
    exact openPrincipal_nonneg (hb.nonneg _ _ hrecord) t _
  · rw [Store.part_of_get hrecord, ite_self, add_zero]
    simp [openPrincipal, hok he record hrecord]

theorem booked_reschedule {invoiceContract : Address} {newDueDate : ℕ} (hb : Booked exact (s, g))
    (hu : updateInvoiceDueDate signers s invoiceContract invoiceId newDueDate = .ok s') :
    Booked exact (s', g) := by
  obtain ⟨record, hrecord, -, rfl⟩ := updateInvoiceDueDate_eq_ok hu
  have hpart : ∀ t, openPrincipal g t invoiceId { record with dueDate := newDueDate } =
      s.funded.part (openPrincipal g t) invoiceId + if t = record.token then 0 else 0 := by
    intro t
    rw [Store.part_of_get hrecord, ite_self, add_zero]
    rfl
  have hnn : 0 ≤ record.principal := hb.nonneg _ _ hrecord
  exact hb.of_set (loanChange_of_totals record.token rfl rfl rfl rfl) (fun _ _ => rfl)
    (fun t => (hpart t).le) (fun _ => hpart) hnn

theorem booked_finalize {caller : Address} (hb : Booked exact (s, g))
    (hf : finalizeCoFunding h signers s caller invoiceId = .ok s') : Booked exact (s', g) := by
  rcases finalizeCoFunding_loans hf with hframe | ⟨record, hnone, hco, hnn, hchange⟩
  · exact hb.of_frame hframe
  · have hpart : ∀ t, openPrincipal g t invoiceId record =
        s.funded.part (openPrincipal g t) invoiceId + if t = record.token then 0 else 0 := by
      intro t
      rw [Store.part_of_get_none hnone, ite_self, add_zero]
      simp [openPrincipal, IsOpen, Option.isSome_iff_ne_none.1 hco]
    exact hb.of_set hchange (fun _ _ => rfl) (fun t => (hpart t).le) (fun _ => hpart) hnn

theorem booked_exec {tx : Tx h} (hb : Booked exact (s, g)) (hok : LedgerOk exact h (s, g) tx)
    (hstep : exec h s tx = .ok s') : Booked exact (s', note h s tx s' g) := by
  by_cases hloan : tx.call.isLoan = true
  · obtain ⟨signers, hself, call⟩ := tx
    cases call with
    | fundInvoice admin request => exact booked_fund hb hok (fundInvoice_eq_ok.1 hstep).2.2
    | fundMultipleInvoices admin requests =>
      obtain ⟨-, -, -, hfold⟩ := fundMultipleInvoices_eq_ok.1 hstep
      exact foldlM_along (P := fun s => Booked exact (s, g))
        (fun _ _ _ hs hr hf => booked_fund hs hr hf) hok hb hfold
    | repayInvoice payer request => exact booked_repay hb hok (repayInvoice_eq_ok.1 hstep).2
    | repayInvoicesBatch payer requests =>
      have hfold := note_repayInvoicesBatch hself g (repayInvoicesBatch_eq_ok hstep).2
      refine foldlM_along (P := Booked exact) ?_ hok hb hfold
      rintro ⟨s, g⟩ request ⟨s', g'⟩ hs hr hf
      obtain ⟨hrepay, rfl⟩ := markedRepayment_eq_ok.1 hf
      exact booked_repay hs hr hrepay
    | cleanupFundedInvoice admin id => exact booked_cleanup hb hok hstep
    | cancelFundedInvoice admin id => exact booked_cancel hb hok hstep
    | updateInvoiceDueDate invoiceContract id newDueDate => exact booked_reschedule hb hstep
    | finalizeCoFunding caller id => exact booked_finalize hb hstep
    | liquidateInvoice caller id =>
      obtain ⟨record, hrecord, hchange⟩ :=
        seizeCollateralCore_loans (liquidateInvoice_eq_ok hstep)
      exact booked_seize hb hok hrecord hchange
    | executeOperation admin proposalId =>
      rcases executeOperation_loans hstep with ⟨hnone, hframe⟩ |
        ⟨id, record, hid, hrecord, hchange⟩
      · simpa [note, hnone] using hb.of_frame hframe
      · simpa [note, hid] using booked_seize hb (hok id hid) hrecord hchange
    | _ => cases hloan
  · rw [note_of_not_loan g (by simpa using hloan)]
    by_cases hclock : tx.call.isClock = true
    · obtain ⟨hfunded, htotals⟩ := exec_clock hclock hstep
      refine ⟨?_, ?_, ?_, ?_⟩
      · simpa only [State.outstanding, State.tt, hfunded, htotals] using hb.covers
      · simpa only [State.outstanding, State.tt, hfunded, htotals] using hb.eq
      · simpa only [hfunded] using hb.fresh
      · simpa only [hfunded] using hb.nonneg
    · exact hb.of_frame (exec_loanFrame (by simpa using hloan) (by simpa using hclock) hstep)

end Step

theorem booked_initial (exact : Prop) (now : ℕ) (world : W) (cash : Address → Address → ℤ)
    (shareTokens : Address → Share.ShareToken) (admin token share invoiceContract : Address) :
    Booked exact
      (initialState now world cash shareTokens admin token share invoiceContract, {}) := by
  have hzero : ∀ t, ((initialState now world cash shareTokens admin token share
      invoiceContract).tt t).totalDeployed = 0 := by
    intro t
    by_cases ht : t = token
    · simp [initialState, State.tt, ht]
    · simp [initialState, State.tt, ht]
  refine ⟨fun t => ?_, fun _ t => ?_, fun _ _ => rfl, fun id record hget => ?_⟩
  · rw [hzero]
    rfl
  · rw [hzero]
    rfl
  · cases hget

theorem booked_of_reaches {exact : Prop} {h : Host W} {x₀ x : State W × Marks}
    (hinit : Booked exact x₀) (hrun : Reaches (marked h) (LedgerOk exact h) x₀ x) :
    Booked exact x := by
  refine hrun.invariant hinit ?_
  rintro ⟨s, g⟩ tx ⟨s', g'⟩ hb hok hstep
  obtain ⟨hexec, rfl⟩ := marked_eq_ok.1 hstep
  exact booked_exec hb hok hexec

/-- In every run from `initialize` in which loans are funded further in their own token and only
while they are open, and are settled, seized or cancelled at most once, `total_deployed` of every
token is the principal of the open loans in it, and never negative. -/
theorem deployed_eq_outstanding (h : Host W) (now : ℕ) (world : W)
    (cash : Address → Address → ℤ) (shareTokens : Address → Share.ShareToken)
    (admin token share invoiceContract : Address) (x : State W × Marks)
    (hrun : Reaches (marked h) (LedgerOk True h)
      (initialState now world cash shareTokens admin token share invoiceContract, {}) x)
    (t : Address) :
    (x.1.tt t).totalDeployed = x.1.outstanding x.2 t ∧ 0 ≤ (x.1.tt t).totalDeployed := by
  have hb := booked_of_reaches (booked_initial True now world cash shareTokens admin token share
    invoiceContract) hrun
  exact ⟨hb.eq trivial t, hb.deployed_nonneg t⟩

def lending : List (Tx quietHost) :=
  [⟨[1], self_ne_one, .setMaxInvestorConcentration 1 10000⟩,
    ⟨[3], self_ne_three, .deposit 3 10 1000 none⟩,
    ⟨[1], self_ne_one, .fundInvoice 1 ⟨7, 1000, 4, 31536001, 10⟩⟩]

theorem deployed_eq_outstanding_lending :
    ∃ x, lending.foldlM (marked quietHost) (sampleState, {}) = .ok x ∧
      Reaches (marked quietHost) (LedgerOk True quietHost) (sampleState, {}) x ∧
      (x.1.tt 10).totalDeployed = 1000 ∧ (x.1.tt 10).totalDeployed = x.1.outstanding x.2 10 := by
  obtain ⟨x, hx, hp⟩ := exists_of_check
    (x := lending.foldlM (marked quietHost) (sampleState, {}))
    (p := fun x => decide ((x.1.tt 10).totalDeployed = 1000)) (by decide)
  have halong : Along (marked quietHost) (LedgerOk True quietHost) (sampleState, {}) lending := by
    refine ⟨trivial, fun x₁ h₁ => ⟨trivial, fun x₂ h₂ => ⟨?_, fun _ _ => trivial⟩⟩⟩
    -- neither the setter nor the deposit makes a record, so the loan is a new one
    have f₁ := exec_loanFrame rfl rfl (marked_eq_ok.1 h₁).1
    have f₂ := exec_loanFrame rfl rfl (marked_eq_ok.1 h₂).1
    intro record hrecord
    rw [f₂.funded, f₁.funded] at hrecord
    cases hrecord
  have hrun := reaches_of_along .refl halong hx
  exact ⟨x, hx, hrun, of_decide_eq_true hp,
    (deployed_eq_outstanding quietHost 1 () _ _ 1 10 20 2 x hrun 10).1⟩

/-- A defaulted loan whose collateral was seized is repaid after all. -/
def seizedThenRepaid : List (Tx quietHost) :=
  [⟨[1], self_ne_one, .setMaxInvestorConcentration 1 10000⟩,
    ⟨[3], self_ne_three, .deposit 3 10 2000 none⟩,
    ⟨[4], self_ne_four, .depositCollateral 7 4 10 100⟩,
    ⟨[1], self_ne_one, .fundInvoice 1 ⟨7, 1000, 4, 31536001, 10⟩⟩,
    ⟨[5], self_ne_five, .liquidateInvoice 5 7⟩,
    ⟨[4], self_ne_four, .repayInvoice 4 ⟨7, 1000⟩⟩]

/-- No loan is open, and `total_deployed` is negative: the principal left it twice. -/
theorem seized_loan_undeployed_twice :
    ∃ x, seizedThenRepaid.foldlM (marked quietHost) (sampleState, {}) = .ok x ∧
      x.1.outstanding x.2 10 = 0 ∧ (x.1.tt 10).totalDeployed = -1000 := by
  obtain ⟨x, hx, hp⟩ := exists_of_check
    (x := seizedThenRepaid.foldlM (marked quietHost) (sampleState, {}))
    (p := fun x => decide (x.1.outstanding x.2 10 = 0 ∧ (x.1.tt 10).totalDeployed = -1000))
    (by decide)
  exact ⟨x, hx, of_decide_eq_true hp⟩

end Astera.Pool
