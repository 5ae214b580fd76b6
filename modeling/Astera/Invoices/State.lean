import Astera.Invoices.Types

/-!
# The storage of the invoice contract

`Books` holds the tables that the life of an invoice touches; `Storage` adds the configuration and
the remaining tables, and `State W` the ledger time and a value of `W` for the other contracts,
which answer through `Host W`.  Time-to-live extensions, events and the upgrade are left out.
-/

namespace Astera.Invoices

open Fallible Machine

/-- The contracts that the invoice contract calls; a call made with `try_` that fails answers
`none`. -/
structure Host (W : Type) where
  self : Address
  isInvoiceRepaid : W → Address → ℕ → Option Bool
  /-- `update_invoice_due_date` of a pool: the pool, the invoice and the new date; `none` is a
  trap. -/
  updateInvoiceDueDate : W → Address → ℕ → ℕ → Option W
  /-- `open_case` of an arbitration contract: the contract, the invoice, the claimant, the
  respondent and the amount.  Its failure is ignored. -/
  openCase : W → Address → ℕ → Address → Address → ℤ → W
  isCleared : W → Address → Address → Option Bool

/-- The tables that the life of an invoice touches. -/
structure Books where
  invoices : Store ℕ Invoice := ∅
  invoiceCount : ℕ := 0
  smeOutstanding : Address → ℤ := fun _ => 0
  debtorRecord : Bytes → Option DebtorRecord := fun _ => none
  /-- `SmeInvoices`; an index without entries is not stored. -/
  smeInvoices : Address → List ℕ := fun _ => []
  /-- `DebtorInvoices`; an index without entries is not stored. -/
  debtorInvoices : Bytes → List ℕ := fun _ => []
  disputes : ℕ → Option DisputeRecord := fun _ => none

structure Storage extends Books where
  config : Config
  stats : StorageStats := {}
  invoiceTimestamps : Address → List ℕ := fun _ => []
  debtorIds : List Bytes := []
  invoiceFunding : ℕ → ℤ := fun _ => 0
  isPrivate : ℕ → Bool := fun _ => false

structure State (W : Type) extends Storage where
  now : ℕ
  world : W

/-- The state that `initialize` leaves. -/
def initialState {W : Type} (now : ℕ) (world : W) (admin pool : Address) (maxInvoiceAmount : ℤ)
    (expirationDurationSecs gracePeriodDays : ℕ) : State W where
  now := now
  world := world
  config :=
    { admin := admin
      pool := pool
      maxInvoiceAmount := maxInvoiceAmount
      expirationDurationSecs := expirationDurationSecs
      gracePeriodDays := gracePeriodDays }

/-! ## Writes to the books -/

namespace Books

def setInvoice (b : Books) (id : ℕ) (inv : Invoice) : Books :=
  { b with invoices := b.invoices.set id inv }

def removeInvoice (b : Books) (id : ℕ) : Books := { b with invoices := b.invoices.remove id }

def setSmeOutstanding (b : Books) (sme : Address) (value : ℤ) : Books :=
  { b with smeOutstanding := Function.update b.smeOutstanding sme value }

def decreaseSmeOutstanding (b : Books) (sme : Address) (amount : ℤ) : Books :=
  b.setSmeOutstanding sme (saturatingSub (b.smeOutstanding sme) amount)

def setDebtorRecord (b : Books) (debtor : Bytes) (record : DebtorRecord) : Books :=
  { b with debtorRecord := Function.update b.debtorRecord debtor (some record) }

def decreaseDebtorExposure (b : Books) (debtor : Bytes) (amount : ℤ) : Books :=
  match b.debtorRecord debtor with
  | none => b
  | some record =>
    b.setDebtorRecord debtor
      { record with currentExposure := saturatingSub record.currentExposure amount }

def addInvoiceToOwner (b : Books) (owner : Address) (invoiceId : ℕ) : Books :=
  { b with
    smeInvoices := Function.update b.smeInvoices owner (b.smeInvoices owner ++ [invoiceId]) }

def removeInvoiceFromOwner (b : Books) (owner : Address) (invoiceId : ℕ) : Books :=
  { b with
    smeInvoices := Function.update b.smeInvoices owner
      ((b.smeInvoices owner).filter fun id => id ≠ invoiceId) }

def addInvoiceToDebtor (b : Books) (debtor : Bytes) (invoiceId : ℕ) : Books :=
  if invoiceId ∈ b.debtorInvoices debtor then b
  else
    { b with
      debtorInvoices := Function.update b.debtorInvoices debtor
        (b.debtorInvoices debtor ++ [invoiceId]) }

def removeInvoiceFromDebtor (b : Books) (debtor : Bytes) (invoiceId : ℕ) : Books :=
  { b with
    debtorInvoices := Function.update b.debtorInvoices debtor
      ((b.debtorInvoices debtor).filter fun id => id ≠ invoiceId) }

def setDispute (b : Books) (id : ℕ) (record : DisputeRecord) : Books :=
  { b with disputes := Function.update b.disputes id (some record) }

end Books

/-! ## Guards -/

def requireAuth (signers : List Address) (a : Address) : Res Unit := require (a ∈ signers) .auth

namespace State

variable {W : Type}

def withBooks (s : State W) (b : Books) : State W := { s with toBooks := b }

def requireNotPaused (s : State W) : Res Unit :=
  require (s.config.paused = false) (.error .ContractPaused)

def requireAdmin (s : State W) (admin : Address) : Res Unit :=
  require (admin = s.config.admin) (.error .Unauthorized)

def requirePool (s : State W) (pool : Address) : Res Unit :=
  require (pool = s.config.pool) (.error .Unauthorized)

def requireComplianceCleared (h : Host W) (s : State W) (address : Address) : Res Unit :=
  if s.config.requireComplianceCheck = false then return ()
  else do
    let registry ← okOr s.config.complianceRegistry (.error .ComplianceRegistryNotConfigured)
    match h.isCleared s.world registry address with
    | some true => return ()
    | some false => .error (.error .ComplianceNotCleared)
    | none => .error (.error .ComplianceCheckFailed)

def loadInvoice (s : State W) (id : ℕ) : Res Invoice :=
  okOr (s.invoices.get id) (.error .InvoiceNotFound)

def isKeeper (s : State W) (address : Address) : Bool := s.config.keeperIds.contains address

def resolveInvoiceGracePeriodDays (s : State W) (inv : Invoice) : ℕ :=
  inv.gracePeriodOverride.getD s.config.gracePeriodDays

def validateDueDate (s : State W) (dueDate : ℕ) : Res Unit := do
  let maxDueDate ← okOr (fitU 64 (s.now + maxDueDateAheadSecs)) (.error .DateOverflow)
  require (dueDate ≤ maxDueDate) (.error .DateOverflow)

def validateMinDueDateWindow (s : State W) (dueDate : ℕ) : Res Unit := do
  let minDueDate ← okOr (fitU 64 (s.now + s.config.minDueDateWindowSecs)) (.error .DateOverflow)
  require (minDueDate ≤ dueDate) (.error .DueDateTooSoon)

/-- A pending invoice whose time is up.  A time beyond the range of `u64` never comes. -/
def overdue (s : State W) (inv : Invoice) : Bool :=
  inv.status = .Pending &&
    match fitU 64 (inv.createdAt + s.config.expirationDurationSecs) with
    | none => false
    | some expiresAt => expiresAt < s.now

def lessActive (s : State W) : State W :=
  { s with stats := { s.stats with activeInvoices := s.stats.activeInvoices - 1 } }

/-- `maybe_expire_pending_invoice`.  The index of the debtor is not touched. -/
def maybeExpirePendingInvoice (s : State W) (inv : Invoice) : State W × Invoice :=
  if s.overdue inv then
    let expired := { inv with status := .Expired }
    ((s.withBooks
      (((s.toBooks.removeInvoiceFromOwner inv.owner inv.id).decreaseDebtorExposure inv.debtor
        inv.amount).setInvoice inv.id expired)).lessActive, expired)
  else (s, inv)

end State

end Astera.Invoices
