import Astera.Lib.Transition
import Astera.Invoices.Contract

/-!
# The invoice contract as a machine

`Call W` lists the entrypoints, the passing of time and moves of the other contracts; a run is a run
of `exec` (`Transition.Reaches`).
-/

namespace Astera.Invoices

open Fallible Machine Transition

variable {W : Type}

inductive Call (W : Type)
  | createInvoice (owner : Address) (debtor : Bytes) (amount : ℤ) (dueDate : ℕ)
      (description verificationHash metadataUrl : Bytes)
  | createInvoiceWithMetadata (owner : Address) (debtor : Bytes) (amount : ℤ) (dueDate : ℕ)
      (description verificationHash : Bytes) (metadataUri : Option Bytes)
  | requestExtension (id : ℕ) (owner : Address) (newDueDate : ℕ)
  | approveExtension (id : ℕ) (approver : Address)
  | verifyInvoice (id : ℕ) (oracle : Address) (approved : Bool) (reason oracleHash : Bytes)
  | consensusVerify (id : ℕ) (registry : Address) (approved : Bool) (reason oracleHash : Bytes)
  | timeoutVerification (caller : Address) (id : ℕ)
  | resolveDispute (id : ℕ) (caller : Address) (resolution : DisputeResolution)
  | raiseDispute (id : ℕ) (borrower : Address) (evidenceHash : Bytes) (respondent : Address)
  | resolveDefaultDispute (id : ℕ) (admin : Address) (outcome : DisputeResolution)
  | arbitrationResolveDispute (arbitration : Address) (id : ℕ) (outcome : DisputeResolution)
  | markFunded (id : ℕ) (pool : Address)
  | recordFunding (id : ℕ) (amount : ℤ) (pool : Address)
  | addFunding (id : ℕ) (amount : ℤ) (pool : Address)
  | markPaid (id : ℕ) (pool : Address)
  | markDefaulted (id : ℕ) (pool : Address)
  | markCancelled (id : ℕ) (pool : Address)
  | setInvoiceGracePeriod (admin : Address) (id days : ℕ)
  | cancelInvoice (id : ℕ) (caller : Address)
  | checkExpiration (id : ℕ)
  | batchCheckExpiration (ids : List ℕ)
  | cleanupInvoice (id : ℕ) (caller : Address)
  | cleanupExpiredStorage (caller : Address) (ids : List ℕ)
  | registerDebtor (admin : Address) (debtorId debtorName : Bytes) (maxExposure : ℤ)
  | registerDebtorViaAc (accessControl : Address) (debtorId debtorName : Bytes) (maxExposure : ℤ)
  | deactivateDebtor (admin : Address) (debtorId : Bytes)
  | deactivateDebtorViaAc (accessControl : Address) (debtorId : Bytes)
  | setInvoicePrivate (id : ℕ) (owner : Address) (isPrivate : Bool)
  | set (setting : Setting)
  | neighbours (world : W)
  | advance (now : ℕ)

structure Tx (W : Type) where
  signers : List Address
  call : Call W

def advance (s : State W) (now : ℕ) : Res (State W) := do
  require (s.now ≤ now ∧ now < 2 ^ 64) .overflow
  return { s with now := now }

def exec (h : Host W) (s : State W) (tx : Tx W) : Res (State W) :=
  let signers := tx.signers
  match tx.call with
  | .createInvoice owner debtor amount dueDate description verificationHash metadataUrl =>
    (createInvoice h signers s owner debtor amount dueDate description verificationHash
      metadataUrl).map Prod.fst
  | .createInvoiceWithMetadata owner debtor amount dueDate description verificationHash
      metadataUri =>
    (createInvoiceWithMetadata h signers s owner debtor amount dueDate description
      verificationHash metadataUri).map Prod.fst
  | .requestExtension id owner newDueDate => requestExtension signers s id owner newDueDate
  | .approveExtension id approver => approveExtension h signers s id approver
  | .verifyInvoice id oracle approved reason oracleHash =>
    verifyInvoice signers s id oracle approved reason oracleHash
  | .consensusVerify id registry approved reason oracleHash =>
    consensusVerify signers s id registry approved reason oracleHash
  | .timeoutVerification caller id => timeoutVerification signers s caller id
  | .resolveDispute id caller resolution => resolveDispute signers s id caller resolution
  | .raiseDispute id borrower evidenceHash respondent =>
    raiseDispute h signers s id borrower evidenceHash respondent
  | .resolveDefaultDispute id admin outcome => resolveDefaultDispute signers s id admin outcome
  | .arbitrationResolveDispute arbitration id outcome =>
    arbitrationResolveDispute signers s arbitration id outcome
  | .markFunded id pool => markFunded signers s id pool
  | .recordFunding id amount pool => recordFunding signers s id amount pool
  | .addFunding id amount pool => (addFunding signers s id amount pool).map Prod.fst
  | .markPaid id pool => markPaid h signers s id pool
  | .markDefaulted id pool => markDefaulted signers s id pool
  | .markCancelled id pool => markCancelled signers s id pool
  | .setInvoiceGracePeriod admin id days => setInvoiceGracePeriod signers s admin id days
  | .cancelInvoice id caller => cancelInvoice signers s id caller
  | .checkExpiration id => (checkExpiration s id).map Prod.fst
  | .batchCheckExpiration ids => (batchCheckExpiration s ids).map Prod.fst
  | .cleanupInvoice id caller => cleanupInvoice signers s id caller
  | .cleanupExpiredStorage caller ids => (cleanupExpiredStorage signers s caller ids).map Prod.fst
  | .registerDebtor admin debtorId debtorName maxExposure =>
    registerDebtor signers s admin debtorId debtorName maxExposure
  | .registerDebtorViaAc accessControl debtorId debtorName maxExposure =>
    registerDebtorViaAc signers s accessControl debtorId debtorName maxExposure
  | .deactivateDebtor admin debtorId => deactivateDebtor signers s admin debtorId
  | .deactivateDebtorViaAc accessControl debtorId =>
    deactivateDebtorViaAc signers s accessControl debtorId
  | .setInvoicePrivate id owner isPrivate => setInvoicePrivate signers s id owner isPrivate
  | .set setting => (applySetting signers s setting).map fun config => { s with config := config }
  | .neighbours world => .ok { s with world := world }
  | .advance now => advance s now

/-! ## A sample contract -/

/-- An invoice contract at address 2 among contracts that agree to everything. -/
def quietHost : Host Unit where
  self := 2
  isInvoiceRepaid := fun _ _ _ => some true
  updateInvoiceDueDate := fun w _ _ _ => some w
  openCase := fun w _ _ _ _ _ => w
  isCleared := fun _ _ _ => some true

theorem self_ne_one : quietHost.self ∉ [1] := by decide
theorem self_ne_three : quietHost.self ∉ [3] := by decide

/-- The contract after `initialize`: the admin is 1 and the pool 9; invoices expire after 30 days and
the grace period is 7 days. -/
def sampleState : State Unit := initialState 1000 () 1 9 1000000 2592000 7

/-- Account 3 bills a debtor for 1000, due in 30 days. -/
def billing : Tx Unit :=
  ⟨[3], .createInvoiceWithMetadata 3 (bytes "Acme") 1000 2593000 (bytes "goods") (bytes "0a1b") none⟩

end Astera.Invoices
