import Astera.Lib.Transition
import Astera.Share.Token

/-!
# The share contract as a machine

`Contract` adds to the share token the allowance entries and the ledger's sequence number and time.
An entry decodes only as the type it was written with, and a read with another type traps.
-/

namespace Astera.Share

open Fallible Machine Transition

structure AllowanceRecord where
  amount : ℤ
  expirationLedger : ℕ
  deriving DecidableEq, Repr

namespace AllowanceRecord

/-- The record that is read where none is stored. -/
def absent : AllowanceRecord := ⟨0, 2 ^ 32 - 1⟩

/-- What is left of the allowance at a ledger sequence number. -/
def unexpired (r : AllowanceRecord) (sequence : ℕ) : ℤ :=
  if r.expirationLedger ≤ sequence then 0 else r.amount

end AllowanceRecord

/-- An allowance entry in storage, with the type it was written with. -/
inductive AllowanceEntry
  | record (r : AllowanceRecord)
  /-- A bare `i128`. -/
  | bare (amount : ℤ)
  deriving DecidableEq, Repr

/-- The storage of a share contract, and the ledger it runs on. -/
structure Contract where
  token : ShareToken
  allowances : Address → Address → Option AllowanceEntry := fun _ _ => none
  sequence : ℕ := 0
  timestamp : ℕ := 0

namespace Contract

/-- The contract after `initialize`. -/
def fresh (admin : Address) (sequence timestamp : ℕ) : Contract :=
  { token := .fresh admin, sequence := sequence, timestamp := timestamp }

/-! ## Allowances -/

/-- Read an entry as an `AllowanceRecord`. -/
def readAllowance (c : Contract) (owner spender : Address) :
    Except ShareTrap (Option AllowanceRecord) :=
  match c.allowances owner spender with
  | none => .ok none
  | some (.record r) => .ok (some r)
  | some (.bare _) => .error .decode

def writeAllowance (c : Contract) (owner spender : Address) (entry : Option AllowanceEntry) :
    Contract :=
  { c with
    allowances :=
      Function.update c.allowances owner (Function.update (c.allowances owner) spender entry) }

def allowance (c : Contract) (owner spender : Address) : Except ShareTrap ℤ := do
  let record ← c.readAllowance owner spender
  return (record.map fun r => r.unexpired c.sequence).getD 0

def approve (signers : List Address) (c : Contract) (owner spender : Address) (amount : ℤ)
    (expirationLedger : ℕ) : Except ShareTrap Contract := do
  require (c.token.paused = false) (.error .ContractPaused)
  require (owner ∈ signers) .auth
  require (0 ≤ amount) (.error .InvalidAmount)
  return c.writeAllowance owner spender (some (.record ⟨amount, expirationLedger⟩))

def increaseAllowance (signers : List Address) (c : Contract) (owner spender : Address)
    (addedAmount : ℤ) : Except ShareTrap Contract := do
  require (c.token.paused = false) (.error .ContractPaused)
  require (owner ∈ signers) .auth
  require (0 < addedAmount) (.error .InvalidAmount)
  let record ← c.readAllowance owner spender
  let record := record.getD .absent
  let newAmount ← okOr (checkedAdd record.amount addedAmount) (.error .AllowanceOverflow)
  return c.writeAllowance owner spender (some (.record ⟨newAmount, record.expirationLedger⟩))

def decreaseAllowance (signers : List Address) (c : Contract) (owner spender : Address)
    (subtractedAmount : ℤ) : Except ShareTrap Contract := do
  require (c.token.paused = false) (.error .ContractPaused)
  require (owner ∈ signers) .auth
  require (0 < subtractedAmount) (.error .InvalidAmount)
  let record ← c.readAllowance owner spender
  let record := record.getD .absent
  require (subtractedAmount ≤ record.amount) (.error .AllowanceUnderflow)
  let newAmount := record.amount - subtractedAmount
  return c.writeAllowance owner spender
    (if newAmount = 0 then none else some (.record ⟨newAmount, record.expirationLedger⟩))

/-- The check of `burn_from` and `transfer_from`; it returns the allowance that is left. -/
def checkAllowance (c : Contract) (owner spender : Address) (amount : ℤ) : Except ShareTrap ℤ := do
  let record ← c.readAllowance owner spender
  let allowed := (record.getD .absent).unexpired c.sequence
  require (amount ≤ allowed) (.error .AllowanceExceeded)
  return allowed - amount

/-- The entry that `burn_from` and `transfer_from` leave: the bare number, without an expiration. -/
def leftover (newAllowance : ℤ) : Option AllowanceEntry :=
  if newAllowance = 0 then none else some (.bare newAllowance)

def burnFrom (signers : List Address) (c : Contract) (spender owner : Address) (amount : ℤ) :
    Except ShareTrap Contract := do
  require (c.token.paused = false) (.error .ContractPaused)
  require (spender ∈ signers) .auth
  require (0 < amount) (.error .InvalidAmount)
  let newAllowance ← c.checkAllowance owner spender amount
  let token ← c.token.burn (fun _ => true) c.timestamp owner amount
  return { c with token := token }.writeAllowance owner spender (leftover newAllowance)

def transferFrom (signers : List Address) (c : Contract) (spender owner receiver : Address)
    (amount : ℤ) : Except ShareTrap Contract := do
  require (c.token.paused = false) (.error .ContractPaused)
  require (spender ∈ signers) .auth
  require (0 < amount) (.error .InvalidAmount)
  let newAllowance ← c.checkAllowance owner spender amount
  let token ← c.token.transfer (fun _ => true) c.timestamp owner receiver amount
  return { c with token := token }.writeAllowance owner spender (leftover newAllowance)

/-- `pause` and `unpause`. -/
def setPaused (paused : Bool) (signers : List Address) (c : Contract) (admin : Address) :
    Except ShareTrap Contract := do
  require (admin ∈ signers) .auth
  require (admin = c.token.admin) (.error .Unauthorized)
  return { c with token := { c.token with paused := paused } }

def pause : List Address → Contract → Address → Except ShareTrap Contract := setPaused true

def unpause : List Address → Contract → Address → Except ShareTrap Contract := setPaused false

def setAdmin (signers : List Address) (c : Contract) (newAdmin : Address) :
    Except ShareTrap Contract := do
  require (c.token.paused = false) (.error .ContractPaused)
  require (c.token.admin ∈ signers) .auth
  return { c with token := { c.token with admin := newAdmin } }

end Contract

/-- The entrypoints that write, and the passing of time. -/
inductive Call
  | mint (receiver : Address) (amount : ℤ)
  | burn (holder : Address) (amount : ℤ)
  | burnFrom (spender owner : Address) (amount : ℤ)
  | transfer (sender receiver : Address) (amount : ℤ)
  | transferFrom (spender owner receiver : Address) (amount : ℤ)
  | approve (owner spender : Address) (amount : ℤ) (expirationLedger : ℕ)
  | increaseAllowance (owner spender : Address) (addedAmount : ℤ)
  | decreaseAllowance (owner spender : Address) (subtractedAmount : ℤ)
  | pause (admin : Address)
  | unpause (admin : Address)
  | setAdmin (newAdmin : Address)
  /-- The ledger closes `ledgers` times in `seconds` seconds. -/
  | advance (ledgers seconds : ℕ)

structure Tx where
  signers : List Address
  call : Call

def Contract.withToken (c : Contract) (token : Except ShareTrap ShareToken) :
    Except ShareTrap Contract :=
  token.map fun t => { c with token := t }

def exec (c : Contract) (tx : Tx) : Except ShareTrap Contract :=
  let signers := tx.signers
  let authorized := fun a => signers.contains a
  match tx.call with
  | .mint receiver amount => c.withToken (c.token.mint authorized c.timestamp receiver amount)
  | .burn holder amount => c.withToken (c.token.burn authorized c.timestamp holder amount)
  | .burnFrom spender owner amount => c.burnFrom signers spender owner amount
  | .transfer sender receiver amount =>
    c.withToken (c.token.transfer authorized c.timestamp sender receiver amount)
  | .transferFrom spender owner receiver amount =>
    c.transferFrom signers spender owner receiver amount
  | .approve owner spender amount expirationLedger =>
    c.approve signers owner spender amount expirationLedger
  | .increaseAllowance owner spender addedAmount =>
    c.increaseAllowance signers owner spender addedAmount
  | .decreaseAllowance owner spender subtractedAmount =>
    c.decreaseAllowance signers owner spender subtractedAmount
  | .pause admin => c.pause signers admin
  | .unpause admin => c.unpause signers admin
  | .setAdmin newAdmin => c.setAdmin signers newAdmin
  | .advance ledgers seconds =>
    .ok { c with sequence := c.sequence + ledgers, timestamp := c.timestamp + seconds }

section Results

variable {c c' : Contract} {signers : List Address} {owner spender receiver : Address} {amount : ℤ}

theorem withToken_eq_ok {token : Except ShareTrap ShareToken} :
    c.withToken token = .ok c' ↔ ∃ t, token = .ok t ∧ c' = { c with token := t } := by
  unfold Contract.withToken
  rw [map_eq_ok]
  simp only [eq_comm]

theorem approve_eq_ok {expirationLedger : ℕ}
    (h : c.approve signers owner spender amount expirationLedger = .ok c') :
    c' = c.writeAllowance owner spender (some (.record ⟨amount, expirationLedger⟩)) := by
  unfold Contract.approve at h
  simp only [bind_eq_ok, require_eq_ok, exists_unit, pure_eq_ok] at h
  exact h.2.2.2.symm

theorem increaseAllowance_eq_ok (h : c.increaseAllowance signers owner spender amount = .ok c') :
    ∃ record, c.readAllowance owner spender = .ok record ∧
      c' = c.writeAllowance owner spender (some (.record
        ⟨(record.getD .absent).amount + amount, (record.getD .absent).expirationLedger⟩)) := by
  unfold Contract.increaseAllowance at h
  simp only [bind_eq_ok, require_eq_ok, exists_unit, pure_eq_ok, okOr_eq_ok,
    checkedAdd_eq_some] at h
  obtain ⟨-, -, -, record, hread, newAmount, ⟨rfl, -⟩, rfl⟩ := h
  exact ⟨record, hread, rfl⟩

theorem decreaseAllowance_eq_ok (h : c.decreaseAllowance signers owner spender amount = .ok c') :
    ∃ record, c.readAllowance owner spender = .ok record ∧
      c' = c.writeAllowance owner spender
        (if (record.getD .absent).amount - amount = 0 then none
          else some (.record
            ⟨(record.getD .absent).amount - amount, (record.getD .absent).expirationLedger⟩)) := by
  unfold Contract.decreaseAllowance at h
  simp only [bind_eq_ok, require_eq_ok, exists_unit, pure_eq_ok] at h
  obtain ⟨-, -, -, record, hread, -, rfl⟩ := h
  exact ⟨record, hread, rfl⟩

theorem burnFrom_eq_ok :
    c.burnFrom signers spender owner amount = .ok c' ↔
      c.token.paused = false ∧ spender ∈ signers ∧ 0 < amount ∧
      ∃ left, c.checkAllowance owner spender amount = .ok left ∧
      ∃ token, c.token.burn (fun _ => true) c.timestamp owner amount = .ok token ∧
        c' = { c with token := token }.writeAllowance owner spender (Contract.leftover left) := by
  unfold Contract.burnFrom
  simp only [bind_eq_ok, require_eq_ok, exists_unit, pure_eq_ok]
  simp only [eq_comm]

theorem transferFrom_eq_ok :
    c.transferFrom signers spender owner receiver amount = .ok c' ↔
      c.token.paused = false ∧ spender ∈ signers ∧ 0 < amount ∧
      ∃ left, c.checkAllowance owner spender amount = .ok left ∧
      ∃ token, c.token.transfer (fun _ => true) c.timestamp owner receiver amount = .ok token ∧
        c' = { c with token := token }.writeAllowance owner spender (Contract.leftover left) := by
  unfold Contract.transferFrom
  simp only [bind_eq_ok, require_eq_ok, exists_unit, pure_eq_ok]
  simp only [eq_comm]

theorem setPaused_eq_ok {paused : Bool} {admin : Address}
    (h : Contract.setPaused paused signers c admin = .ok c') :
    c' = { c with token := { c.token with paused := paused } } := by
  unfold Contract.setPaused at h
  simp only [bind_eq_ok, require_eq_ok, exists_unit, pure_eq_ok] at h
  exact h.2.2.symm

theorem setAdmin_eq_ok {newAdmin : Address} (h : c.setAdmin signers newAdmin = .ok c') :
    c' = { c with token := { c.token with admin := newAdmin } } := by
  unfold Contract.setAdmin at h
  simp only [bind_eq_ok, require_eq_ok, exists_unit, pure_eq_ok] at h
  exact h.2.2.symm

end Results

end Astera.Share
