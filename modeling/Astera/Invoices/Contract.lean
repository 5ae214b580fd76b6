import Astera.Invoices.Settings

/-!
# The entrypoints of the invoice contract

The entrypoints that write the books; one that returns a value returns it beside the state.
`cleanup_invoice` compares the stored admin with a name that the source does not bind; it is read as
the caller, who must be the admin.
-/

namespace Astera.Invoices

open Fallible Machine

variable {W : Type}

section Entrypoints

variable (h : Host W) (signers : List Address) (s : State W)

/-! ## Creation -/

/-- The exposure of a registered debtor grows with a new invoice. -/
def State.raiseDebtorExposure (debtor : Bytes) (amount : ℤ) : Res Books :=
  if s.config.requireRegisteredDebtor then do
    let record ← okOr (s.debtorRecord debtor) (.error .InvoiceNotFound)
    require (record.isActive = true) (.error .InvalidStatusTransition)
    let exposure ← okOr (checkedAdd record.currentExposure amount) .overflow
    require (exposure ≤ record.maxExposure) (.error .SmeExposureLimitExceeded)
    return s.toBooks.setDebtorRecord debtor { record with currentExposure := exposure }
  else return s.toBooks

/-- The invoices of an owner within the last day. -/
def State.freshTimestamps (owner : Address) : List ℕ :=
  (s.invoiceTimestamps owner).filter fun ts => s.now - secsPerDay < ts

def State.newInvoice (id : ℕ) (owner : Address) (debtor : Bytes) (amount : ℤ) (dueDate : ℕ)
    (description verificationHash : Bytes) (metadataUri : Option Bytes) : Invoice where
  id := id
  owner := owner
  debtor := debtor
  amount := amount
  originalDueDate := dueDate
  dueDate := dueDate
  pendingDueDate := none
  description := description
  status := if s.config.oracle.isSome then .AwaitingVerification else .Pending
  createdAt := s.now
  fundedAt := 0
  paidAt := 0
  poolContract := s.config.pool
  verificationHash := verificationHash
  metadataUri := metadataUri
  oracleVerified := false
  disputeReason := []
  disputedAt := 0
  gracePeriodOverride := none
  verificationDeadline := s.now + verificationTimeoutSecs
  fundedAmount := 0

def createInvoiceWithMetadata (owner : Address) (debtor : Bytes) (amount : ℤ) (dueDate : ℕ)
    (description verificationHash : Bytes) (metadataUri : Option Bytes) :
    Res (State W × ℕ) := do
  requireAuth signers owner
  s.requireNotPaused
  validateInvoiceStrings debtor description verificationHash
  s.requireComplianceCleared h owner
  require (∀ uri ∈ metadataUri, isValidMetadataUri uri = true) (.error .InvalidMetadata)
  require (0 < amount) (.error .InvalidAmount)
  require (amount ≤ s.config.maxInvoiceAmount) (.error .AmountOverflow)
  require (s.now < dueDate) (.error .InvalidDueDate)
  s.validateMinDueDateWindow dueDate
  s.validateDueDate dueDate
  require (saturatingAdd (s.smeOutstanding owner) amount ≤ s.config.maxOutstandingPerSme)
    (.error .SmeExposureLimitExceeded)
  let books ← s.raiseDebtorExposure debtor amount
  let fresh := s.freshTimestamps owner
  require (fresh.length < s.config.dailyInvoiceLimit) (.error .RateLimitExceeded)
  let id ← okOr (fitU 64 (s.invoiceCount + 1)) .overflow
  let _ ← okOr (fitU 64 (s.now + verificationTimeoutSecs)) (.error .ArithmeticOverflow)
  require (s.invoices.get id = none) (.error .IDCollision)
  let total ← okOr (fitU 64 (s.stats.totalInvoices + 1)) .overflow
  let active ← okOr (fitU 64 (s.stats.activeInvoices + 1)) .overflow
  let invoice :=
    s.newInvoice id owner debtor amount dueDate description verificationHash metadataUri
  let books := { books.setInvoice id invoice with invoiceCount := id }
  let s' := s.withBooks ((books.addInvoiceToOwner owner id).addInvoiceToDebtor debtor id)
  return ({ s' with
    invoiceTimestamps := Function.update s.invoiceTimestamps owner (fresh ++ [s.now])
    stats := { s.stats with totalInvoices := total, activeInvoices := active } }, id)

def createInvoice (owner : Address) (debtor : Bytes) (amount : ℤ) (dueDate : ℕ)
    (description verificationHash metadataUrl : Bytes) : Res (State W × ℕ) := do
  require (metadataUrl ≠ []) (.error .InvalidMetadata)
  require (isValidMetadataUri metadataUrl = true) (.error .InvalidMetadata)
  createInvoiceWithMetadata h signers s owner debtor amount dueDate description verificationHash
    (some metadataUrl)

/-- The checks that a new due date passes when it is requested and when it is approved. -/
def State.checkExtension (inv : Invoice) (newDueDate : ℕ) : Res Unit := do
  require (s.now < newDueDate ∧ inv.dueDate < newDueDate) (.error .InvalidDueDateExtension)
  require (newDueDate ≤ maxExtensionDueDate inv) (.error .ExtensionTooLarge)

def requestExtension (id : ℕ) (owner : Address) (newDueDate : ℕ) : Res (State W) := do
  requireAuth signers owner
  s.requireNotPaused
  let inv ← s.loadInvoice id
  require (owner = inv.owner) (.error .Unauthorized)
  require (inv.status = .Funded) (.error .InvalidStatusTransition)
  require (inv.pendingDueDate = none) (.error .ExtensionAlreadyPending)
  s.checkExtension inv newDueDate
  return s.withBooks (s.toBooks.setInvoice id { inv with pendingDueDate := some newDueDate })

def approveExtension (id : ℕ) (approver : Address) : Res (State W) := do
  requireAuth signers approver
  s.requireNotPaused
  require (approver = s.config.admin ∨ s.config.oracle = some approver) (.error .Unauthorized)
  let inv ← s.loadInvoice id
  require (inv.status = .Funded) (.error .InvalidStatusTransition)
  let newDueDate ← okOr inv.pendingDueDate (.error .NoPendingExtension)
  s.checkExtension inv newDueDate
  let world ← okOr (h.updateInvoiceDueDate s.world inv.poolContract id newDueDate) .neighbour
  let books :=
    s.toBooks.setInvoice id { inv with dueDate := newDueDate, pendingDueDate := none }
  return { s.withBooks books with world := world }

def applyVerificationOutcome (id : ℕ) (approved : Bool) (reason oracleHash : Bytes) :
    Res (State W) := do
  let inv ← s.loadInvoice id
  require (inv.status = .AwaitingVerification) (.error .InvalidStatusTransition)
  require (inv.verificationHash = oracleHash) (.error .HashMismatch)
  let inv' :=
    if approved then { inv with status := .Verified, oracleVerified := true }
    else { inv with status := .Disputed, disputeReason := reason, disputedAt := s.now }
  return s.withBooks (s.toBooks.setInvoice id inv')

def verifyInvoice (id : ℕ) (oracle : Address) (approved : Bool) (reason oracleHash : Bytes) :
    Res (State W) := do
  requireAuth signers oracle
  s.requireNotPaused
  require (s.config.requireConsensusVerification = false) (.error .ConsensusVerificationRequired)
  let storedOracle ← okOr s.config.oracle (.error .OracleRegistryNotConfigured)
  let secondaryOracle ← s.secondaryOracle
  require (oracle = storedOracle ∨ secondaryOracle = some oracle) (.error .Unauthorized)
  applyVerificationOutcome s id approved reason oracleHash

def consensusVerify (id : ℕ) (registry : Address) (approved : Bool) (reason oracleHash : Bytes) :
    Res (State W) := do
  requireAuth signers registry
  s.requireNotPaused
  let storedRegistry ← okOr s.config.oracleRegistry (.error .OracleRegistryNotConfigured)
  require (registry = storedRegistry) (.error .UnauthorizedRegistry)
  applyVerificationOutcome s id approved reason oracleHash

def timeoutVerification (caller : Address) (id : ℕ) : Res (State W) := do
  requireAuth signers caller
  s.requireNotPaused
  let inv ← s.loadInvoice id
  require (caller = inv.owner ∨ caller = s.config.admin) (.error .Unauthorized)
  require (inv.status = .AwaitingVerification) (.error .InvalidStatusTransition)
  require (inv.verificationDeadline ≤ s.now) (.error .VerificationDeadlineNotPassed)
  let books := s.toBooks.removeInvoiceFromOwner inv.owner id
  let books := books.decreaseDebtorExposure inv.debtor inv.amount
  let books := books.removeInvoiceFromDebtor inv.debtor id
  return (s.withBooks (books.setInvoice id { inv with status := .Cancelled })).lessActive

/-! ## Disputes -/

/-- Disputes that belong to the arbitration contract. -/
def State.arbitrated (inv : Invoice) : Prop :=
  s.config.disputeValueThreshold ≤ inv.amount ∧ s.config.arbitrationContract.isSome = true

instance (s : State W) (inv : Invoice) : Decidable (s.arbitrated inv) :=
  inferInstanceAs (Decidable (_ ∧ _))

/-- Who may call `resolve_dispute`: the oracle, and the admin once the window has passed. -/
def State.checkResolver (inv : Invoice) (caller : Address) : Res Unit := do
  let oracle ← okOr s.config.oracle (.error .OracleRegistryNotConfigured)
  if caller = oracle then return ()
  else do
    require (caller = s.config.admin) (.error .Unauthorized)
    require (saturatingAdd64 inv.disputedAt s.config.disputeResolutionWindow ≤ s.now)
      (.error .DisputeWindowClosed)

def resolveDispute (id : ℕ) (caller : Address) (resolution : DisputeResolution) :
    Res (State W) := do
  requireAuth signers caller
  s.requireNotPaused
  let inv ← s.loadInvoice id
  require (inv.status = .Disputed) (.error .InvalidStatusTransition)
  require (¬ s.arbitrated inv) (.error .ArbitrationRequired)
  s.checkResolver inv caller
  match resolution with
  | .InFavorOfSME =>
    return s.withBooks (s.toBooks.setInvoice id
      { inv with status := .Verified, oracleVerified := true, disputeReason := [] })
  | .InFavorOfDebtor =>
    let books := s.toBooks.decreaseSmeOutstanding inv.owner inv.amount
    let books := books.decreaseDebtorExposure inv.debtor inv.amount
    return (s.withBooks (books.setInvoice id { inv with status := .Cancelled })).lessActive
  | .Pending => .error (.error .InvalidStatusTransition)

def raiseDispute (id : ℕ) (borrower : Address) (evidenceHash : Bytes) (respondent : Address) :
    Res (State W) := do
  requireAuth signers borrower
  s.requireNotPaused
  let inv ← s.loadInvoice id
  require (inv.status = .Defaulted) (.error .InvalidStatusTransition)
  require (inv.owner = borrower) (.error .Unauthorized)
  require (respondent ≠ borrower) (.error .InvalidRespondent)
  let defaultAt ← checkedDefaultDeadline inv.dueDate (s.resolveInvoiceGracePeriodDays inv)
  require (s.now ≤ saturatingAdd64 defaultAt s.config.disputeResolutionWindow)
    (.error .DisputeWindowClosed)
  require (s.disputes id = none) (.error .HashMismatch)
  let books := s.toBooks.setInvoice id { inv with status := .Disputed, disputedAt := s.now }
  let s' := s.withBooks (books.setDispute id ⟨evidenceHash, s.now, 0, .Pending⟩)
  -- A case is opened for what is above the threshold; a failure there is ignored.
  if s.config.disputeValueThreshold ≤ inv.amount then
    match s.config.arbitrationContract with
    | some arbitration =>
      return { s' with
        world := h.openCase s.world arbitration id borrower respondent inv.amount }
    | none => return s'
  else return s'

/-- The due date of an invoice whose default is taken back: a grace period from now. -/
def State.renewedDueDate (inv : Invoice) : ℕ :=
  let graceSecs := min (s.resolveInvoiceGracePeriodDays inv * secsPerDay) (2 ^ 64 - 1)
  saturatingAdd64 s.now graceSecs

def applyDisputeResolution (id : ℕ) (inv : Invoice) (record : DisputeRecord)
    (outcome : DisputeResolution) : Res (State W) := do
  let inv' ← match outcome with
    | .InFavorOfDebtor => pure { inv with status := .Funded, dueDate := s.renewedDueDate inv }
    | .InFavorOfSME => pure { inv with status := .Defaulted }
    | .Pending => Except.error (.error .InvalidStatusTransition)
  let record' := { record with resolvedAt := s.now, outcome := outcome }
  return s.withBooks ((s.toBooks.setInvoice id inv').setDispute id record')

def resolveDefaultDispute (id : ℕ) (admin : Address) (outcome : DisputeResolution) :
    Res (State W) := do
  requireAuth signers admin
  s.requireNotPaused
  s.requireAdmin admin
  let inv ← s.loadInvoice id
  require (inv.status = .Disputed) (.error .InvalidStatusTransition)
  let record ← okOr (s.disputes id) (.error .DisputeNotFound)
  require (record.outcome = .Pending) (.error .DisputeAlreadyResolved)
  require (s.arbitrated inv → saturatingAdd64 inv.disputedAt arbitrationStalledOverrideSecs ≤ s.now)
    (.error .ArbitrationRequired)
  applyDisputeResolution s id inv record outcome

def arbitrationResolveDispute (arbitration : Address) (id : ℕ) (outcome : DisputeResolution) :
    Res (State W) := do
  requireAuth signers arbitration
  s.requireNotPaused
  let storedArbitration ← okOr s.config.arbitrationContract (.error .UnauthorizedArbitration)
  require (arbitration = storedArbitration) (.error .UnauthorizedArbitration)
  let inv ← s.loadInvoice id
  require (inv.status = .Disputed) (.error .InvalidStatusTransition)
  let record ← okOr (s.disputes id) (.error .DisputeNotFound)
  require (record.outcome = .Pending) (.error .DisputeAlreadyResolved)
  applyDisputeResolution s id inv record outcome

/-- The exposure of an owner grows when an invoice is funded. -/
def State.raiseSmeOutstanding (sme : Address) (amount : ℤ) : Res Books := do
  let outstanding ← okOr (checkedAdd (s.smeOutstanding sme) amount) (.error .AmountOverflow)
  require (outstanding ≤ s.config.maxOutstandingPerSme) (.error .SmeExposureLimitExceeded)
  return s.toBooks.setSmeOutstanding sme outstanding

def markFunded (id : ℕ) (pool : Address) : Res (State W) := do
  requireAuth signers pool
  s.requireNotPaused
  s.requirePool pool
  let inv ← s.loadInvoice id
  let (s', inv) := s.maybeExpirePendingInvoice inv
  require (inv.status ≠ .Expired) (.error .InvalidStatusTransition)
  require (inv.status = .Pending ∨ inv.status = .Verified) (.error .InvalidStatusTransition)
  require (s'.config.requireOracleVerification = true → inv.oracleVerified = true)
    (.error .Unauthorized)
  let funded ← okOr (checkedAdd inv.fundedAmount inv.amount) (.error .AmountOverflow)
  let books ← s'.raiseSmeOutstanding inv.owner inv.amount
  return s'.withBooks (books.setInvoice id
    { inv with
      status := .Funded
      fundedAt := s'.now
      poolContract := pool
      fundedAmount := funded })

/-- `record_funding`: unlike `mark_funded` it does not look whether the invoice has expired. -/
def recordFunding (id : ℕ) (amount : ℤ) (pool : Address) : Res (State W) := do
  requireAuth signers pool
  s.requireNotPaused
  s.requirePool pool
  require (0 < amount) (.error .InvalidAmount)
  let inv ← s.loadInvoice id
  require (inv.status = .Pending ∨ inv.status = .Verified ∨ inv.status = .Funded)
    (.error .InvalidStatusTransition)
  if inv.status = .Funded then do
    let funded ← okOr (checkedAdd inv.fundedAmount amount) (.error .AmountOverflow)
    return s.withBooks (s.toBooks.setInvoice id { inv with fundedAmount := funded })
  else do
    require (s.config.requireOracleVerification = true → inv.oracleVerified = true)
      (.error .Unauthorized)
    let books ← s.raiseSmeOutstanding inv.owner inv.amount
    let funded ← okOr (checkedAdd inv.fundedAmount amount) (.error .AmountOverflow)
    return s.withBooks (books.setInvoice id
      { inv with
        status := .Funded
        fundedAt := s.now
        poolContract := pool
        fundedAmount := funded })

/-- `add_funding`: a second account of partial funding that no other entrypoint reads. -/
def addFunding (id : ℕ) (amount : ℤ) (pool : Address) : Res (State W × ℤ) := do
  requireAuth signers pool
  s.requireNotPaused
  require (0 < amount) (.error .InvalidAmount)
  s.requirePool pool
  let inv ← s.loadInvoice id
  require (inv.status = .Pending ∨ inv.status = .Verified) (.error .InvalidStatusTransition)
  let funded ← okOr (checkedAdd (s.invoiceFunding id) amount) (.error .AmountOverflow)
  require (funded ≤ inv.amount) (.error .AmountOverflow)
  return ({ s with invoiceFunding := Function.update s.invoiceFunding id funded }, funded)

def markPaid (id : ℕ) (pool : Address) : Res (State W) := do
  requireAuth signers pool
  s.requireNotPaused
  s.requirePool pool
  let inv ← s.loadInvoice id
  require (inv.status = .Funded) (.error .InvalidStatusTransition)
  let repaid ← okOr (h.isInvoiceRepaid s.world pool id) (.error .PoolCallFailed)
  require (repaid = true) (.error .InvalidStatusTransition)
  let books := s.toBooks.decreaseSmeOutstanding inv.owner inv.amount
  let books := books.decreaseDebtorExposure inv.debtor inv.amount
  let books := books.removeInvoiceFromDebtor inv.debtor id
  return (s.withBooks (books.setInvoice id { inv with status := .Paid, paidAt := s.now })).lessActive

def markDefaulted (id : ℕ) (pool : Address) : Res (State W) := do
  requireAuth signers pool
  s.requireNotPaused
  require (pool = s.config.pool ∨ s.isKeeper pool = true) (.error .Unauthorized)
  let inv ← s.loadInvoice id
  require (inv.status = .Funded) (.error .InvalidStatusTransition)
  let defaultAt ← checkedDefaultDeadline inv.dueDate (s.resolveInvoiceGracePeriodDays inv)
  require (defaultAt ≤ s.now) (.error .InvalidStatusTransition)
  let books := s.toBooks.decreaseSmeOutstanding inv.owner inv.amount
  let books := books.decreaseDebtorExposure inv.debtor inv.amount
  let books := books.removeInvoiceFromDebtor inv.debtor id
  return (s.withBooks (books.setInvoice id { inv with status := .Defaulted })).lessActive

/-- `mark_cancelled`: the indexes keep the invoice. -/
def markCancelled (id : ℕ) (pool : Address) : Res (State W) := do
  requireAuth signers pool
  s.requireNotPaused
  s.requirePool pool
  let inv ← s.loadInvoice id
  require (inv.status = .Funded) (.error .InvalidStatusTransition)
  let books := s.toBooks.decreaseSmeOutstanding inv.owner inv.amount
  let books := books.decreaseDebtorExposure inv.debtor inv.amount
  return (s.withBooks (books.setInvoice id { inv with status := .Cancelled })).lessActive

def setInvoiceGracePeriod (admin : Address) (id days : ℕ) : Res (State W) := do
  s.asActiveAdmin signers admin
  require (days ≤ maxGracePeriodOverrideDays) (.error .InvalidConfig)
  let inv ← s.loadInvoice id
  require (inv.status = .Funded) (.error .InvalidStatusTransition)
  return s.withBooks (s.toBooks.setInvoice id { inv with gracePeriodOverride := some days })

def InvoiceStatus.cancellable : InvoiceStatus → Bool
  | .Pending | .AwaitingVerification | .Verified => true
  | _ => false

def State.canCancel (inv : Invoice) (caller : Address) : Bool :=
  if caller = inv.owner then inv.status.cancellable
  else if caller = s.config.admin then inv.status.cancellable || inv.status = .Disputed
  else false

def cancelInvoice (id : ℕ) (caller : Address) : Res (State W) := do
  requireAuth signers caller
  s.requireNotPaused
  let inv ← s.loadInvoice id
  let (s', inv) := s.maybeExpirePendingInvoice inv
  require (s'.canCancel inv caller = true)
    (if caller ≠ inv.owner ∧ caller ≠ s'.config.admin then .error .Unauthorized
      else .error .InvalidStatusTransition)
  let books := s'.toBooks.removeInvoiceFromOwner inv.owner id
  let books :=
    if inv.status = .Funded then
      (books.decreaseSmeOutstanding inv.owner inv.amount).decreaseDebtorExposure inv.debtor
        inv.amount
    else books
  let books := books.removeInvoiceFromDebtor inv.debtor id
  return (s'.withBooks (books.setInvoice id { inv with status := .Cancelled })).lessActive

def checkExpiration (id : ℕ) : Res (State W × Bool) := do
  let inv ← s.loadInvoice id
  if s.overdue inv then
    let books := s.toBooks.removeInvoiceFromOwner inv.owner id
    let books := books.decreaseDebtorExposure inv.debtor inv.amount
    let books := books.removeInvoiceFromDebtor inv.debtor id
    return ((s.withBooks (books.setInvoice id { inv with status := .Expired })).lessActive, true)
  else return (s, false)

def batchCheckExpiration (ids : List ℕ) : Res (State W × ℕ) := do
  require (ids.length ≤ 20) (.error .InvalidAmount)
  ids.foldlM (fun x id => do
    let (s', expired) ← checkExpiration x.1 id
    return (s', if expired then x.2 + 1 else x.2)) (s, 0)

def cleanupInvoice (id : ℕ) (caller : Address) : Res (State W) := do
  requireAuth signers caller
  s.requireNotPaused
  s.requireAdmin caller
  let inv ← s.loadInvoice id
  require (inv.status.completed = true) (.error .InvalidStatusTransition)
  let cleaned ← okOr (fitU 64 (s.stats.cleanedInvoices + 1)) .overflow
  let books := s.toBooks.removeInvoiceFromDebtor inv.debtor id
  let books := books.removeInvoiceFromOwner inv.owner id
  let s' := s.withBooks (books.removeInvoice id)
  return { s' with stats := { s.stats with cleanedInvoices := cleaned } }

/-- One id of `cleanup_expired_storage`: what is completed is removed, and only from the invoices. -/
def Books.cleanup (x : Books × ℕ) (id : ℕ) : Books × ℕ :=
  match x.1.invoices.get id with
  | none => x
  | some inv => if inv.status.completed then (x.1.removeInvoice id, x.2 + 1) else x

def cleanupExpiredStorage (caller : Address) (ids : List ℕ) : Res (State W × ℕ) := do
  requireAuth signers caller
  s.requireNotPaused
  require (ids.length ≤ maxCleanupBatch) (.error .InvalidAmount)
  let (books, removed) := ids.foldl Books.cleanup (s.toBooks, 0)
  let s' := s.withBooks books
  if 0 < removed then
    let cleaned := saturatingAdd64 s.stats.cleanedInvoices removed
    return ({ s' with stats := { s.stats with cleanedInvoices := cleaned } }, removed)
  else return (s', removed)

/-! ## Debtors and privacy -/

/-- The record of a debtor, new or renewed.  A debtor that is known keeps its exposure. -/
def State.enrolDebtor (debtorId debtorName : Bytes) (maxExposure : ℤ) : State W :=
  let record : DebtorRecord :=
    { debtorId := debtorId
      debtorName := debtorName
      maxExposure := maxExposure
      currentExposure := ((s.debtorRecord debtorId).map (·.currentExposure)).getD 0
      isActive := true }
  { s.withBooks (s.toBooks.setDebtorRecord debtorId record) with
    debtorIds := if debtorId ∈ s.debtorIds then s.debtorIds else s.debtorIds ++ [debtorId] }

def registerDebtor (admin : Address) (debtorId debtorName : Bytes) (maxExposure : ℤ) :
    Res (State W) := do
  s.asAdmin signers admin
  require (0 < maxExposure) (.error .InvalidConfig)
  return s.enrolDebtor debtorId debtorName maxExposure

def registerDebtorViaAc (accessControl : Address) (debtorId debtorName : Bytes)
    (maxExposure : ℤ) : Res (State W) := do
  s.asAccessControl signers accessControl
  require (0 < maxExposure) (.error .InvalidAmount)
  return s.enrolDebtor debtorId debtorName maxExposure

/-- A debtor for whom no invoice is accepted any more. -/
def State.retireDebtor (debtorId : Bytes) : Res (State W) := do
  let record ← okOr (s.debtorRecord debtorId) (.error .InvoiceNotFound)
  return s.withBooks (s.toBooks.setDebtorRecord debtorId { record with isActive := false })

def deactivateDebtor (admin : Address) (debtorId : Bytes) : Res (State W) := do
  s.asAdmin signers admin
  s.retireDebtor debtorId

def deactivateDebtorViaAc (accessControl : Address) (debtorId : Bytes) : Res (State W) := do
  s.asAccessControl signers accessControl
  s.retireDebtor debtorId

def setInvoicePrivate (id : ℕ) (owner : Address) (isPrivate : Bool) : Res (State W) := do
  requireAuth signers owner
  s.requireNotPaused
  let inv ← s.loadInvoice id
  require (inv.owner = owner) (.error .Unauthorized)
  return { s with isPrivate := Function.update s.isPrivate id isPrivate }

def getMultipleInvoices (ids : List ℕ) : Res (List Invoice) := ids.mapM s.loadInvoice

def getInvoicesByOwner (owner : Address) : List ℕ := s.smeInvoices owner

def getInvoicesByDebtor (debtor : Bytes) : List ℕ := s.debtorInvoices debtor

def isInvoiceDefaulted (id : ℕ) : Bool :=
  match s.invoices.get id with
  | some inv => inv.status = .Defaulted
  | none => false

end Entrypoints

end Astera.Invoices
