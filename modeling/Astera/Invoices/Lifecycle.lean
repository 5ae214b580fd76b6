import Astera.Invoices.System

/-!
# The life of an invoice

Every call changes the books by a chain of changes, most of them actions on one invoice.  The tables
after `Action` say from which statuses an action starts, what it writes, and what it does to the
exposures, the indexes and the disputes.  `Makes` says which call makes which action.
-/

namespace Astera.Invoices

open Fallible Machine

variable {W : Type}

inductive Action
  | approve
  | reject (reason : Bytes)
  /-- `resolve_dispute` for the owner. -/
  | uphold
  /-- `resolve_dispute` for the debtor. -/
  | dismiss
  | timeOut
  | fund (pool : Address) (paid : ℤ)
  | topUp (paid : ℤ)
  | pay
  | default
  | returnFunds
  | contest (evidenceHash : Bytes)
  /-- A default is taken back. -/
  | reinstate (dueDate : ℕ)
  | confirmDefault
  | requestExtension (newDueDate : ℕ)
  | extend (newDueDate : ℕ)
  | setGracePeriod (days : ℕ)
  | cancel
  | expire
  deriving DecidableEq

namespace Action

def starts : Action → InvoiceStatus → Bool
  | approve, .AwaitingVerification | reject _, .AwaitingVerification
  | timeOut, .AwaitingVerification => true
  | uphold, .Disputed | dismiss, .Disputed | reinstate _, .Disputed
  | confirmDefault, .Disputed => true
  | fund _ _, .Pending | fund _ _, .Verified => true
  | topUp _, .Funded | pay, .Funded | default, .Funded | returnFunds, .Funded
  | requestExtension _, .Funded | extend _, .Funded | setGracePeriod _, .Funded => true
  | contest _, .Defaulted => true
  | cancel, .Pending | cancel, .AwaitingVerification | cancel, .Verified
  | cancel, .Disputed => true
  | expire, .Pending => true
  | _, _ => false

def target : Action → InvoiceStatus
  | approve | uphold => .Verified
  | reject _ | contest _ => .Disputed
  | dismiss | timeOut | returnFunds | cancel => .Cancelled
  | fund _ _ | topUp _ | reinstate _ | requestExtension _ | extend _ | setGracePeriod _ => .Funded
  | pay => .Paid
  | default | confirmDefault => .Defaulted
  | expire => .Expired

def rewrite (now : ℕ) (inv : Invoice) : Action → Invoice
  | approve => { inv with status := .Verified, oracleVerified := true }
  | reject reason => { inv with status := .Disputed, disputeReason := reason, disputedAt := now }
  | uphold => { inv with status := .Verified, oracleVerified := true, disputeReason := [] }
  | dismiss | timeOut | returnFunds | cancel => { inv with status := .Cancelled }
  | fund pool paid =>
    { inv with
      status := .Funded
      fundedAt := now
      poolContract := pool
      fundedAmount := inv.fundedAmount + paid }
  | topUp paid => { inv with fundedAmount := inv.fundedAmount + paid }
  | pay => { inv with status := .Paid, paidAt := now }
  | default | confirmDefault => { inv with status := .Defaulted }
  | contest _ => { inv with status := .Disputed, disputedAt := now }
  | reinstate dueDate => { inv with status := .Funded, dueDate := dueDate }
  | requestExtension newDueDate => { inv with pendingDueDate := some newDueDate }
  | extend newDueDate => { inv with dueDate := newDueDate, pendingDueDate := none }
  | setGracePeriod days => { inv with gracePeriodOverride := some days }
  | expire => { inv with status := .Expired }

/-! ## Effects on the other tables -/

/-- The exposure of the owner after an action on an invoice of this amount. -/
def outstanding (amount before : ℤ) : Action → ℤ
  | fund _ _ => before + amount
  | dismiss | pay | default | returnFunds => saturatingSub before amount
  | _ => before

/-- The actions that give the exposure of the debtor back. -/
def releasesDebtor : Action → Bool
  | dismiss | timeOut | pay | default | returnFunds | expire => true
  | _ => false

/-- The actions that take the invoice off the index of its owner. -/
def leavesOwner : Action → Bool
  | timeOut | cancel | expire => true
  | _ => false

/-- The actions that take the invoice off the index of its debtor. -/
def leavesDebtor : Action → Bool
  | timeOut | pay | default | cancel | expire => true
  | _ => false

def debtorRecord (a : Action) (amount : ℤ) (before : Option DebtorRecord) : Option DebtorRecord :=
  if a.releasesDebtor then
    before.map fun record =>
      { record with currentExposure := saturatingSub record.currentExposure amount }
  else before

def index (leaves : Bool) (id : ℕ) (before : List ℕ) : List ℕ :=
  if leaves then before.filter fun i => i ≠ id else before

def dispute (now : ℕ) (before : Option DisputeRecord) : Action → Option DisputeRecord
  | contest evidenceHash => some ⟨evidenceHash, now, 0, .Pending⟩
  | reinstate _ =>
    before.map fun record => { record with resolvedAt := now, outcome := .InFavorOfDebtor }
  | confirmDefault =>
    before.map fun record => { record with resolvedAt := now, outcome := .InFavorOfSME }
  | _ => before

def apply (a : Action) (now : ℕ) (b : Books) (id : ℕ) (inv : Invoice) : Books :=
  { b with
    invoices := b.invoices.set id (a.rewrite now inv)
    smeOutstanding := Function.update b.smeOutstanding inv.owner
      (a.outstanding inv.amount (b.smeOutstanding inv.owner))
    debtorRecord := Function.update b.debtorRecord inv.debtor
      (a.debtorRecord inv.amount (b.debtorRecord inv.debtor))
    smeInvoices := Function.update b.smeInvoices inv.owner
      (index a.leavesOwner id (b.smeInvoices inv.owner))
    debtorInvoices := Function.update b.debtorInvoices inv.debtor
      (index a.leavesDebtor id (b.debtorInvoices inv.debtor))
    disputes := Function.update b.disputes id (a.dispute now (b.disputes id)) }

theorem apply_eq_setInvoice {a : Action} {now : ℕ} {b : Books} {id : ℕ} {inv : Invoice}
    (houtstanding : ∀ amount before, a.outstanding amount before = before)
    (hdebtor : a.releasesDebtor = false) (howner : a.leavesOwner = false)
    (hindex : a.leavesDebtor = false) (hdispute : ∀ before, a.dispute now before = before) :
    a.apply now b id inv = b.setInvoice id (a.rewrite now inv) := by
  simp [apply, debtorRecord, index, Books.setInvoice, houtstanding, hdebtor, howner, hindex,
    hdispute]

end Action

/-- The actions that a call makes, and what it has checked. -/
inductive Makes (s : State W) (b : Books) : Call W → ℕ → Invoice → Action → Prop
  | approved {id : ℕ} {oracle : Address} {reason hash : Bytes} {inv : Invoice}
      (hst : inv.status = .AwaitingVerification) :
      Makes s b (.verifyInvoice id oracle true reason hash) id inv .approve
  | rejected {id : ℕ} {oracle : Address} {reason hash : Bytes} {inv : Invoice}
      (hst : inv.status = .AwaitingVerification) :
      Makes s b (.verifyInvoice id oracle false reason hash) id inv (.reject reason)
  | consensusApproved {id : ℕ} {registry : Address} {reason hash : Bytes} {inv : Invoice}
      (hst : inv.status = .AwaitingVerification) :
      Makes s b (.consensusVerify id registry true reason hash) id inv .approve
  | consensusRejected {id : ℕ} {registry : Address} {reason hash : Bytes} {inv : Invoice}
      (hst : inv.status = .AwaitingVerification) :
      Makes s b (.consensusVerify id registry false reason hash) id inv (.reject reason)
  | timedOut {caller : Address} {id : ℕ} {inv : Invoice}
      (hst : inv.status = .AwaitingVerification) :
      Makes s b (.timeoutVerification caller id) id inv .timeOut
  | upheld {id : ℕ} {caller : Address} {inv : Invoice} (hst : inv.status = .Disputed)
      (harb : ¬ s.arbitrated inv) :
      Makes s b (.resolveDispute id caller .InFavorOfSME) id inv .uphold
  | dismissed {id : ℕ} {caller : Address} {inv : Invoice} (hst : inv.status = .Disputed)
      (harb : ¬ s.arbitrated inv) :
      Makes s b (.resolveDispute id caller .InFavorOfDebtor) id inv .dismiss
  | contested {id : ℕ} {borrower respondent : Address} {evidenceHash : Bytes} {inv : Invoice}
      (hst : inv.status = .Defaulted) (hnone : b.disputes id = none) :
      Makes s b (.raiseDispute id borrower evidenceHash respondent) id inv (.contest evidenceHash)
  | reinstated {id : ℕ} {admin : Address} {inv : Invoice} (hst : inv.status = .Disputed)
      (hrecord : (b.disputes id).isSome = true)
      (harb : s.arbitrated inv →
        saturatingAdd64 inv.disputedAt arbitrationStalledOverrideSecs ≤ s.now) :
      Makes s b (.resolveDefaultDispute id admin .InFavorOfDebtor) id inv
        (.reinstate (s.renewedDueDate inv))
  | confirmed {id : ℕ} {admin : Address} {inv : Invoice} (hst : inv.status = .Disputed)
      (hrecord : (b.disputes id).isSome = true)
      (harb : s.arbitrated inv →
        saturatingAdd64 inv.disputedAt arbitrationStalledOverrideSecs ≤ s.now) :
      Makes s b (.resolveDefaultDispute id admin .InFavorOfSME) id inv .confirmDefault
  | juryReinstated {arbitration : Address} {id : ℕ} {inv : Invoice} (hst : inv.status = .Disputed)
      (hrecord : (b.disputes id).isSome = true)
      (harb : s.config.arbitrationContract = some arbitration) :
      Makes s b (.arbitrationResolveDispute arbitration id .InFavorOfDebtor) id inv
        (.reinstate (s.renewedDueDate inv))
  | juryConfirmed {arbitration : Address} {id : ℕ} {inv : Invoice} (hst : inv.status = .Disputed)
      (hrecord : (b.disputes id).isSome = true)
      (harb : s.config.arbitrationContract = some arbitration) :
      Makes s b (.arbitrationResolveDispute arbitration id .InFavorOfSME) id inv .confirmDefault
  | markedFunded {id : ℕ} {pool : Address} {inv : Invoice}
      (hst : inv.status = .Pending ∨ inv.status = .Verified) (htime : s.overdue inv = false)
      (horacle : s.config.requireOracleVerification = true → inv.oracleVerified = true)
      (hfit : InI128 (b.smeOutstanding inv.owner + inv.amount))
      (hcap : b.smeOutstanding inv.owner + inv.amount ≤ s.config.maxOutstandingPerSme) :
      Makes s b (.markFunded id pool) id inv (.fund pool inv.amount)
  | recordedFunding {id : ℕ} {amount : ℤ} {pool : Address} {inv : Invoice}
      (hst : inv.status = .Pending ∨ inv.status = .Verified)
      (horacle : s.config.requireOracleVerification = true → inv.oracleVerified = true)
      (hfit : InI128 (b.smeOutstanding inv.owner + inv.amount))
      (hcap : b.smeOutstanding inv.owner + inv.amount ≤ s.config.maxOutstandingPerSme) :
      Makes s b (.recordFunding id amount pool) id inv (.fund pool amount)
  | toppedUp {id : ℕ} {amount : ℤ} {pool : Address} {inv : Invoice} (hst : inv.status = .Funded) :
      Makes s b (.recordFunding id amount pool) id inv (.topUp amount)
  | paid {id : ℕ} {pool : Address} {inv : Invoice} (hst : inv.status = .Funded) :
      Makes s b (.markPaid id pool) id inv .pay
  | defaulted {id : ℕ} {pool : Address} {inv : Invoice} (hst : inv.status = .Funded) :
      Makes s b (.markDefaulted id pool) id inv .default
  | returned {id : ℕ} {pool : Address} {inv : Invoice} (hst : inv.status = .Funded) :
      Makes s b (.markCancelled id pool) id inv .returnFunds
  | extensionRequested {id newDueDate : ℕ} {owner : Address} {inv : Invoice}
      (hst : inv.status = .Funded) (hmax : newDueDate ≤ maxExtensionDueDate inv) :
      Makes s b (.requestExtension id owner newDueDate) id inv (.requestExtension newDueDate)
  | extended {id newDueDate : ℕ} {approver : Address} {inv : Invoice}
      (hst : inv.status = .Funded) (hmax : newDueDate ≤ maxExtensionDueDate inv) :
      Makes s b (.approveExtension id approver) id inv (.extend newDueDate)
  | graceSet {admin : Address} {id days : ℕ} {inv : Invoice} (hst : inv.status = .Funded) :
      Makes s b (.setInvoiceGracePeriod admin id days) id inv (.setGracePeriod days)
  | cancelled {id : ℕ} {caller : Address} {inv : Invoice}
      (hst : Action.cancel.starts inv.status = true) (htime : s.overdue inv = false) :
      Makes s b (.cancelInvoice id caller) id inv .cancel
  | expired {id : ℕ} {inv : Invoice} (htime : s.overdue inv = true) :
      Makes s b (.checkExpiration id) id inv .expire
  | expiredInBatch {ids : List ℕ} {id : ℕ} {inv : Invoice} (htime : s.overdue inv = true) :
      Makes s b (.batchCheckExpiration ids) id inv .expire

def Call.creates : Call W → Bool
  | .createInvoice .. | .createInvoiceWithMetadata .. => true
  | _ => false

def Books.enter (b : Books) (registered : Bool) (inv : Invoice) : Books :=
  { b with
    invoices := b.invoices.set inv.id inv
    invoiceCount := inv.id
    debtorRecord :=
      if registered then
        Function.update b.debtorRecord inv.debtor ((b.debtorRecord inv.debtor).map fun record =>
          { record with currentExposure := record.currentExposure + inv.amount })
      else b.debtorRecord
    smeInvoices := Function.update b.smeInvoices inv.owner (b.smeInvoices inv.owner ++ [inv.id])
    debtorInvoices := Function.update b.debtorInvoices inv.debtor
      (if inv.id ∈ b.debtorInvoices inv.debtor then b.debtorInvoices inv.debtor
        else b.debtorInvoices inv.debtor ++ [inv.id]) }

/-- The exposure of a debtor; one that is not registered has none. -/
def Books.exposure (b : Books) (debtor : Bytes) : ℤ :=
  ((b.debtorRecord debtor).map (·.currentExposure)).getD 0

/-- One change of the books in a call that started in `s`. -/
inductive Change (s : State W) (call : Call W) (b : Books) : Books → Prop
  /-- An action on an invoice that the call has not touched before. -/
  | move {id : ℕ} {inv : Invoice} {a : Action} (hget : b.invoices.get id = some inv)
      (hbefore : s.invoices.get id = some inv) (hdisputes : b.disputes = s.disputes)
      (hmakes : Makes s b call id inv a) : Change s call b (a.apply s.now b id inv)
  | create {owner : Address} {debtor : Bytes} {amount : ℤ} {dueDate : ℕ}
      {description verificationHash : Bytes} {metadataUri : Option Bytes}
      (hcall : call.creates = true) (hpos : 0 < amount)
      (hnew : b.invoices.get (b.invoiceCount + 1) = none)
      (hdebtor : s.config.requireRegisteredDebtor = true →
        (b.debtorRecord debtor).isSome = true ∧ InI128 (b.exposure debtor + amount)) :
      Change s call b (b.enter s.config.requireRegisteredDebtor
        (s.newInvoice (b.invoiceCount + 1) owner debtor amount dueDate description
          verificationHash metadataUri))
  /-- The record of a debtor is written; the exposure stays. -/
  | enrol {debtorId : Bytes} {record : DebtorRecord}
      (hexposure : record.currentExposure = b.exposure debtorId) :
      Change s call b (b.setDebtorRecord debtorId record)
  /-- `cleanup_invoice`. -/
  | wipe {id : ℕ} {inv : Invoice} (hget : b.invoices.get id = some inv)
      (hcompleted : inv.status.completed = true) :
      Change s call b
        (((b.removeInvoiceFromDebtor inv.debtor id).removeInvoiceFromOwner inv.owner id).removeInvoice
          id)
  /-- `cleanup_expired_storage`, which has not touched the indexes. -/
  | drop {caller : Address} {ids : List ℕ} {id : ℕ} {inv : Invoice}
      (hcall : call = .cleanupExpiredStorage caller ids) (hmem : id ∈ ids)
      (hget : b.invoices.get id = some inv) (hbefore : s.invoices.get id = some inv)
      (hcompleted : inv.status.completed = true) (howner : b.smeInvoices = s.smeInvoices)
      (hdebtor : b.debtorInvoices = s.debtorInvoices) :
      Change s call b (b.removeInvoice id)

abbrev Changes (s : State W) (call : Call W) : Books → Books → Prop :=
  Relation.ReflTransGen (Change s call)

theorem Makes.starts {s : State W} {b : Books} {call : Call W} {id : ℕ} {inv : Invoice}
    {a : Action} (hmakes : Makes s b call id inv a) : a.starts inv.status = true := by
  cases hmakes with
  | markedFunded hst | recordedFunding hst => cases hst <;> simp_all [Action.starts]
  | cancelled hst => exact hst
  | expired htime | expiredInBatch htime =>
    simp only [State.overdue, Bool.and_eq_true, decide_eq_true_eq] at htime
    simp [htime.1, Action.starts]
  | _ => simp_all [Action.starts]

theorem Action.rewrite_status {a : Action} {inv : Invoice} (now : ℕ)
    (hstarts : a.starts inv.status = true) : (a.rewrite now inv).status = a.target := by
  cases a <;> simp only [Action.rewrite, Action.target] <;>
    cases hst : inv.status <;> simp_all [Action.starts]

/-! The fields that no action writes. -/

@[simp]
theorem Action.rewrite_owner (a : Action) (now : ℕ) (inv : Invoice) :
    (a.rewrite now inv).owner = inv.owner := by
  cases a <;> rfl

@[simp]
theorem Action.rewrite_debtor (a : Action) (now : ℕ) (inv : Invoice) :
    (a.rewrite now inv).debtor = inv.debtor := by
  cases a <;> rfl

@[simp]
theorem Action.rewrite_amount (a : Action) (now : ℕ) (inv : Invoice) :
    (a.rewrite now inv).amount = inv.amount := by
  cases a <;> rfl

@[simp]
theorem Action.rewrite_originalDueDate (a : Action) (now : ℕ) (inv : Invoice) :
    (a.rewrite now inv).originalDueDate = inv.originalDueDate := by
  cases a <;> rfl

end Astera.Invoices
