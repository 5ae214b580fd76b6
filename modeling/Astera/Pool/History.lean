import Astera.Pool.Loans

/-!
# What has become of the loans

The contract does not store whether a loan was settled or written off.  `Marks` records it on the
side: a mark is set when a repayment settles an invoice or a seizure writes it off, and forgotten
when the record is dropped.
-/

namespace Astera.Pool

open Fallible Transition

variable {W : Type}

/-- The invoices that a repayment settled, and those that a seizure wrote off. -/
structure Marks where
  settled : ℕ → Bool := fun _ => false
  writtenOff : ℕ → Bool := fun _ => false

namespace Marks

def settle (g : Marks) (invoiceId : ℕ) : Marks :=
  { g with settled := Function.update g.settled invoiceId true }

def writeOff (g : Marks) (invoiceId : ℕ) : Marks :=
  { g with writtenOff := Function.update g.writtenOff invoiceId true }

def forget (g : Marks) (invoiceId : ℕ) : Marks :=
  { settled := Function.update g.settled invoiceId false
    writtenOff := Function.update g.writtenOff invoiceId false }

/-- The loan was settled or written off. -/
def closed (g : Marks) (invoiceId : ℕ) : Bool := g.settled invoiceId || g.writtenOff invoiceId

variable (g : Marks) {invoiceId id : ℕ}

@[simp]
theorem settled_settle : (g.settle invoiceId).settled invoiceId = true := by simp [settle]

theorem settled_settle_of_ne (h : id ≠ invoiceId) :
    (g.settle invoiceId).settled id = g.settled id := by
  simp [settle, h]

@[simp]
theorem settled_forget : (g.forget invoiceId).settled invoiceId = false := by simp [forget]

theorem settled_forget_of_ne (h : id ≠ invoiceId) :
    (g.forget invoiceId).settled id = g.settled id := by
  simp [forget, h]

@[simp]
theorem closed_settle : (g.settle invoiceId).closed invoiceId = true := by simp [closed]

theorem closed_settle_of_ne (h : id ≠ invoiceId) : (g.settle invoiceId).closed id = g.closed id := by
  simp [closed, settle, h]

@[simp]
theorem closed_writeOff : (g.writeOff invoiceId).closed invoiceId = true := by
  simp [closed, writeOff]

theorem closed_writeOff_of_ne (h : id ≠ invoiceId) :
    (g.writeOff invoiceId).closed id = g.closed id := by
  simp [closed, writeOff, h]

@[simp]
theorem closed_forget : (g.forget invoiceId).closed invoiceId = false := by simp [closed, forget]

theorem closed_forget_of_ne (h : id ≠ invoiceId) : (g.forget invoiceId).closed id = g.closed id := by
  simp [closed, forget, h]

end Marks

/-- A repayment that covers what is due settles the invoice. -/
def noteRepayment (payer : Address) (s : State W) (request : RepaymentRequest) (_ : State W)
    (g : Marks) : Marks :=
  match quoteRepayment s request.invoiceId payer request.amount with
  | .ok q => if q.full = true then g.settle request.invoiceId else g
  | .error _ => g

theorem noteRepayment_eq {payer : Address} {s s' : State W} {request : RepaymentRequest}
    {q : RepaymentQuote} (hq : quoteRepayment s request.invoiceId payer request.amount = .ok q)
    (g : Marks) : noteRepayment payer s request s' g =
      if q.full = true then g.settle request.invoiceId else g := by
  simp [noteRepayment, hq]

def markedRepayment (h : Host W) (signers : List Address) (payer : Address) :
    State W × Marks → RepaymentRequest → Res (State W × Marks) :=
  track (repayInvoiceRequest h signers payer) (noteRepayment payer)

theorem markedRepayment_eq_ok {h : Host W} {signers : List Address} {payer : Address}
    {s s' : State W} {g g' : Marks} {request : RepaymentRequest} :
    markedRepayment h signers payer (s, g) request = .ok (s', g') ↔
      repayInvoiceRequest h signers payer s request = .ok s' ∧
        g' = noteRepayment payer s request s' g :=
  track_eq_ok _ _ _ _ _

def note (h : Host W) (s : State W) (tx : Tx h) (s' : State W) (g : Marks) : Marks :=
  match tx.call with
  | .repayInvoice payer request => noteRepayment payer s request s' g
  | .repayInvoicesBatch payer requests =>
    match requests.foldlM (markedRepayment h tx.signers payer) (s, g) with
    | .ok x => x.2
    | .error _ => g
  | .liquidateInvoice _ invoiceId => g.writeOff invoiceId
  | .executeOperation _ proposalId => ((s.proposedSeizure proposalId).map g.writeOff).getD g
  | .cancelFundedInvoice _ invoiceId | .cleanupFundedInvoice _ invoiceId => g.forget invoiceId
  | _ => g

def marked (h : Host W) : State W × Marks → Tx h → Res (State W × Marks) :=
  track (exec h) (note h)

theorem marked_eq_ok {h : Host W} {s s' : State W} {g g' : Marks} {tx : Tx h} :
    marked h (s, g) tx = .ok (s', g') ↔ exec h s tx = .ok s' ∧ g' = note h s tx s' g :=
  track_eq_ok _ _ _ _ _

theorem note_repayInvoicesBatch {h : Host W} {signers : List Address} {s s' : State W}
    {payer : Address} {requests : List RepaymentRequest} (hself : h.self ∉ signers) (g : Marks)
    (hr : requests.foldlM (repayInvoiceRequest h signers payer) s = .ok s') :
    requests.foldlM (markedRepayment h signers payer) (s, g) =
      .ok (s', note h s ⟨signers, hself, .repayInvoicesBatch payer requests⟩ s' g) := by
  obtain ⟨g', hg'⟩ := foldlM_track (repayInvoiceRequest h signers payer) (noteRepayment payer)
    requests s s' g hr
  change requests.foldlM (markedRepayment h signers payer) (s, g) = _ at hg'
  simp [note, hg']

theorem note_of_not_loan {h : Host W} {s s' : State W} {tx : Tx h} (g : Marks)
    (hloan : tx.call.isLoan = false) : note h s tx s' g = g := by
  obtain ⟨signers, hself, call⟩ := tx
  cases call <;> first | rfl | cases hloan

end Astera.Pool
