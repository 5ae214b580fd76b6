import Astera.Pool.Neighbours
import Astera.Invoices.Steps

/-!
# The pool and the invoice contract on one ledger

The pool reports its fundings to the invoice contract, and the invoice contract tells the pool about
extensions; here each is the other's neighbour.  A state is the pool's, whose neighbours are the
invoice contract and a value of `V`; `turned` looks at the same ledger from the invoice contract.
-/

namespace Astera

/-- The calls that are not moves of the ledger around the pool. -/
def Pool.Call.own {W : Type} : Pool.Call W → Bool
  | .neighbours _ | .advance _ => false
  | _ => true

/-- The calls that are not moves of the ledger around the invoice contract. -/
def Invoices.Call.own {W : Type} : Invoices.Call W → Bool
  | .neighbours _ | .advance _ => false
  | _ => true

def Invoices.Call.fromPool {W : Type} : Invoices.Call W → Bool
  | .recordFunding .. | .markCancelled .. => true
  | _ => false

namespace Linked

open Fallible Machine Transition

variable {V : Type}

/-- The ledger of the two contracts. -/
abbrev State (V : Type) := Pool.State (Invoices.State V)

namespace State

/-- The same ledger with the pool among the neighbours of the invoice contract. -/
def turned (p : State V) : Invoices.State (Pool.State V) :=
  { p.world with world := { p with world := p.world.world } }

def returned (i : Invoices.State (Pool.State V)) : State V :=
  { i.world with world := { i with world := i.world.world } }

end State

/-- `try_record_funding` as the pool calls it: a call that fails changes nothing. -/
def recorded (pool : Address) (w : Invoices.State V) (id : ℕ) (amount : ℤ) : Invoices.State V :=
  match Invoices.recordFunding [pool] w id amount pool with
  | .ok w' => w'
  | .error _ => w

section Hosts

variable (hp : Pool.Host V) (hi : Invoices.Host V)

/-- The neighbours of the pool: the invoice contract at its address, and what `hp` says of the
others. -/
def poolHost : Pool.Host (Invoices.State V) where
  self := hp.self
  getAuthorizedPool := fun w contract =>
    if contract = hi.self then some w.config.pool else hp.getAuthorizedPool w.world contract
  isInvoiceDefaulted := fun w contract id =>
    if contract = hi.self then some (Invoices.isInvoiceDefaulted w id)
    else hp.isInvoiceDefaulted w.world contract id
  recordFunding := fun w contract id amount =>
    if contract = hi.self then recorded hp.self w id amount
    else { w with world := hp.recordFunding w.world contract id amount }
  markCancelled := fun w contract id =>
    if contract = hi.self then
      match Invoices.markCancelled [hp.self] w id hp.self with
      | .ok w' => some w'
      | .error _ => none
    else (hp.markCancelled w.world contract id).map fun v => { w with world := v }
  isCleared := fun w => hp.isCleared w.world
  getCreditScore := fun w => hp.getCreditScore w.world
  recordCreditFunding := fun w contract id sme amount =>
    { w with world := hp.recordCreditFunding w.world contract id sme amount }
  purchaseCoverage := fun w contract request =>
    (hp.purchaseCoverage w.world contract request).map fun x => (x.1, { w with world := x.2 })
  recordActivity := fun w contract referee kind fee token =>
    (hp.recordActivity w.world contract referee kind fee token).map fun x =>
      (x.1, { w with world := x.2 })
  lastPrice := fun w => hp.lastPrice w.world
  decimals := fun w => hp.decimals w.world

/-- The neighbours of the invoice contract: the pool at its address, and what `hi` says of the
others. -/
def invoiceHost : Invoices.Host (Pool.State V) where
  self := hi.self
  isInvoiceRepaid := fun w pool id =>
    if pool = hp.self then
      match Pool.isInvoiceRepaid w id with
      | .ok repaid => some repaid
      | .error _ => none
    else hi.isInvoiceRepaid w.world pool id
  updateInvoiceDueDate := fun w pool id newDueDate =>
    if pool = hp.self then
      match Pool.updateInvoiceDueDate [hi.self] w hi.self id newDueDate with
      | .ok w' => some w'
      | .error _ => none
    else (hi.updateInvoiceDueDate w.world pool id newDueDate).map fun v => { w with world := v }
  openCase := fun w arbitration id claimant respondent amount =>
    { w with world := hi.openCase w.world arbitration id claimant respondent amount }
  isCleared := fun w => hi.isCleared w.world

end Hosts

inductive Fault
  | pool (e : Pool.Fault)
  | invoices (e : Invoices.Fault)
  | clock
  deriving DecidableEq

inductive Call (V : Type)
  | pool (call : Pool.Call (Invoices.State V)) (own : call.own = true)
  | invoices (call : Invoices.Call (Pool.State V)) (own : call.own = true)
  | neighbours (world : V)
  | advance (now : ℕ)

/-- A call and the addresses that authorize it.  A contract cannot sign, so neither of the two is
among them. -/
structure Tx (hp : Pool.Host V) (hi : Invoices.Host V) where
  signers : List Address
  pool_not_mem : hp.self ∉ signers
  invoices_not_mem : hi.self ∉ signers
  call : Call V

def advance (p : State V) (now : ℕ) : Except Fault (State V) := do
  require (p.now ≤ now ∧ now < 2 ^ 64) .clock
  return { p with now := now, world := { p.world with now := now } }

def exec (hp : Pool.Host V) (hi : Invoices.Host V) (p : State V) (tx : Tx hp hi) :
    Except Fault (State V) :=
  match tx.call with
  | .pool call _ =>
    (Pool.exec (poolHost hp hi) p ⟨tx.signers, tx.pool_not_mem, call⟩).mapError .pool
  | .invoices call _ =>
    ((Invoices.exec (invoiceHost hp hi) p.turned ⟨tx.signers, call⟩).map State.returned).mapError
      .invoices
  | .neighbours world => .ok { p with world := { p.world with world := world } }
  | .advance now => advance p now

/-- The ledger after both contracts are initialized for each other. -/
def initialState (hp : Pool.Host V) (hi : Invoices.Host V) (now : ℕ) (world : V)
    (cash : Address → Address → ℤ) (shareTokens : Address → Share.ShareToken)
    (poolAdmin token share admin : Address) (maxInvoiceAmount : ℤ)
    (expirationDurationSecs gracePeriodDays : ℕ) : State V :=
  Pool.initialState now
    (Invoices.initialState now world admin hp.self maxInvoiceAmount expirationDurationSecs
      gracePeriodDays)
    cash shareTokens poolAdmin token share hi.self

/-! ## A sample ledger -/

/-- The pool at 0 and the invoice contract at 2, both with the admin 1; the token is 10 and its share
contract 20. -/
def sampleState : State Unit :=
  initialState Pool.quietHost Invoices.quietHost 1000 ()
    (fun _ a => if a = 0 then 0 else 1000000000000) (fun _ => Share.ShareToken.fresh 0) 1 10 20 1
    1000000 2592000 7

abbrev SampleTx := Tx Pool.quietHost Invoices.quietHost

/-- An investor deposits 5000, and account 3 bills a debtor for 1000, due in 30 days. -/
def billedPool : List SampleTx :=
  [⟨[1], Pool.self_ne_one, Invoices.self_ne_one, .pool (.setMaxInvestorConcentration 1 10000) rfl⟩,
    ⟨[5], Pool.self_ne_five, by decide, .pool (.deposit 5 10 5000 none) rfl⟩,
    ⟨[3], Pool.self_ne_three, Invoices.self_ne_three, .invoices
      (.createInvoiceWithMetadata 3 (Invoices.bytes "Acme") 1000 2593000 (Invoices.bytes "goods")
        (Invoices.bytes "0a1b") none) rfl⟩]

def partFunding (principal : ℤ) : SampleTx :=
  ⟨[1], Pool.self_ne_one, Invoices.self_ne_one, .pool
    (.fundInvoice 1 ⟨1, principal, 3, 2593000, 10⟩) rfl⟩

/-!
## What a call does to the books of the invoices

A call of the linked system is one call of the invoice contract, or the ones that the pool makes.
-/

variable {hp : Pool.Host V} {hi : Invoices.Host V}

theorem poolHost_keeps {P : Invoices.Books → Prop}
    (hcall : ∀ (w w' : Invoices.State V) (call : Invoices.Call V), call.fromPool = true →
      P w.toBooks → Invoices.exec hi w ⟨[hp.self], call⟩ = .ok w' → P w'.toBooks) :
    (poolHost hp hi).Keeps fun w => P w.toBooks := by
  constructor
  · intro w contract id amount hw
    simp only [poolHost, recorded]
    split_ifs
    · split
      · rename_i w' hrun
        exact hcall w w' (.recordFunding id amount hp.self) rfl hw hrun
      · exact hw
    · exact hw
  · intro w contract id w' hw hrun
    simp only [poolHost] at hrun
    split_ifs at hrun
    · split at hrun
      · rename_i w₁ hcancel
        obtain rfl := Option.some.inj hrun
        exact hcall w w₁ (.markCancelled id hp.self) rfl hw hcancel
      · cases hrun
    · obtain ⟨v, -, rfl⟩ := Option.map_eq_some_iff.1 hrun
      exact hw
  · intro w contract id sme amount hw
    exact hw
  · intro w contract request premium w' hw hrun
    obtain ⟨x, -, hx⟩ := Option.map_eq_some_iff.1 hrun
    rw [← (Prod.mk.inj hx).2]
    exact hw
  · intro w registry referee kind fee token reward w' hw hrun
    obtain ⟨x, -, hx⟩ := Option.map_eq_some_iff.1 hrun
    rw [← (Prod.mk.inj hx).2]
    exact hw

theorem exec_books {P : Invoices.Books → Prop} {p p' : State V} {tx : Tx hp hi}
    (hx : exec hp hi p tx = .ok p') (hp₀ : P p.world.toBooks)
    (hcall : ∀ (w w' : Invoices.State V) (call : Invoices.Call V), call.fromPool = true →
      P w.toBooks → Invoices.exec hi w ⟨[hp.self], call⟩ = .ok w' → P w'.toBooks)
    (hown : ∀ call own i', tx.call = .invoices call own →
      Invoices.exec (invoiceHost hp hi) p.turned ⟨tx.signers, call⟩ = .ok i' → P i'.toBooks) :
    P p'.world.toBooks := by
  obtain ⟨signers, hpool, hinvoices, call⟩ := tx
  cases call with
  | pool call own =>
    apply Pool.exec_world (poolHost_keeps hcall) _ ((mapError_eq_ok _ _ _).1 hx) hp₀
    rintro world rfl
    cases own
  | invoices call own =>
    obtain ⟨i', hrun, rfl⟩ := (map_eq_ok _ _ _).1 ((mapError_eq_ok _ _ _).1 hx)
    exact hown call own i' rfl hrun
  | neighbours world =>
    obtain rfl := Except.ok.inj hx
    exact hp₀
  | advance now =>
    simp only [exec, advance, bind_eq_ok, exists_unit, pure_eq_ok] at hx
    obtain ⟨-, rfl⟩ := hx
    exact hp₀

end Linked

end Astera
