import Astera.Lib.Index
import Astera.Invoices.Invariants

/-!
# The indexes of the invoices

`SmeInvoices` and `DebtorInvoices` are to be indexes of the stored invoices.  `raise_dispute` makes
an invoice active that its default took off an index, and the cleanup removes completed invoices
that are still listed; in runs without these both tables are indexes.
-/

namespace Astera.Invoices

open Fallible Machine Transition Index

variable {W : Type}

/-- Something is still expected of the invoice. -/
def Invoice.active (inv : Invoice) : Bool := !inv.status.completed

/-- Both tables are indexes of the stored invoices. -/
structure Indexed (b : Books) : Prop where
  owners : IsIndex Invoice.active Invoice.owner b.invoices b.smeInvoices
  debtors : IsIndex Invoice.active Invoice.debtor b.invoices b.debtorInvoices

/-- The steps considered: no default is disputed, and the public cleanup is not used on completed
invoices that an index still lists. -/
def KeepsIndexes (s : State W) (tx : Tx W) : Prop :=
  match tx.call with
  | .raiseDispute .. => False
  | .cleanupExpiredStorage _ ids =>
    ∀ id ∈ ids, ∀ inv, s.invoices.get id = some inv → inv.status.completed = true →
      id ∉ s.smeInvoices inv.owner ∧ id ∉ s.debtorInvoices inv.debtor
  | _ => True

section Steps

variable {s : State W} {b b' : Books} {tx : Tx W} {id : ℕ} {inv : Invoice} {a : Action}

theorem Makes.index_table (hmakes : Makes s b tx.call id inv a) (hkeeps : KeepsIndexes s tx) :
    (a.leavesOwner = true → a.target.completed = true) ∧
      (a.leavesDebtor = true → a.target.completed = true) ∧ inv.status.completed = false := by
  have hstarts := hmakes.starts
  have hcontest : ∀ evidenceHash, a ≠ .contest evidenceHash := by
    rintro evidenceHash rfl
    obtain ⟨signers, call⟩ := tx
    cases hmakes
    exact hkeeps
  cases a <;> cases hst : inv.status <;>
    simp_all [Action.starts, Action.leavesOwner, Action.leavesDebtor, Action.target,
      InvoiceStatus.completed]

theorem isIndex_move {L : Type} [DecidableEq L] {label : Invoice → L} {table : L → List ℕ}
    (hindex : IsIndex Invoice.active label b.invoices table) (hget : b.invoices.get id = some inv)
    (hstarts : a.starts inv.status = true) (hactive : inv.status.completed = false)
    (hlabel : label (a.rewrite s.now inv) = label inv) {leaves : Bool}
    (hleaves : leaves = true → a.target.completed = true) :
    IsIndex Invoice.active label (b.invoices.set id (a.rewrite s.now inv))
      (Function.update table (label inv) (Action.index leaves id (table (label inv)))) := by
  cases leaves with
  | true =>
    refine hindex.leave hget hlabel ?_
    rw [Invoice.active, Action.rewrite_status s.now hstarts, hleaves rfl]
    rfl
  | false =>
    simp only [Action.index, Bool.false_eq_true, if_false, Function.update_eq_self]
    refine hindex.rewrite hget hlabel fun _ => ?_
    rw [Invoice.active, hactive]
    rfl

theorem Indexed.move (hb : Indexed b) (hget : b.invoices.get id = some inv)
    (hmakes : Makes s b tx.call id inv a) (hkeeps : KeepsIndexes s tx) :
    Indexed (a.apply s.now b id inv) := by
  obtain ⟨howner, hdebtor, hactive⟩ := hmakes.index_table hkeeps
  exact ⟨isIndex_move hb.owners hget hmakes.starts hactive (by simp) howner,
    isIndex_move hb.debtors hget hmakes.starts hactive (by simp) hdebtor⟩

theorem Indexed.enter (hb : Indexed b) {registered : Bool}
    (hnew : b.invoices.get inv.id = none) : Indexed (b.enter registered inv) := by
  have hout : inv.id ∉ b.debtorInvoices inv.debtor := by
    intro hmem
    obtain ⟨inv', hget, -⟩ := hb.debtors.stored _ _ hmem
    simp [hnew] at hget
  constructor
  · exact hb.owners.join hnew inv
  · have hjoin := hb.debtors.join hnew inv
    simp only [Books.enter, hout, if_false]
    exact hjoin

theorem Indexed.change (hb : Indexed b) (hkeeps : KeepsIndexes s tx)
    (hchange : Change s tx.call b b') : Indexed b' := by
  cases hchange with
  | move hget _ _ hmakes => exact hb.move hget hmakes hkeeps
  | create _ _ hnew => exact hb.enter hnew
  | enrol => exact ⟨hb.owners, hb.debtors⟩
  | @wipe id inv hget hcompleted =>
    have hdead : inv.active = false := by
      rw [Invoice.active, hcompleted]
      rfl
    exact ⟨hb.owners.leave_remove hget hdead, hb.debtors.leave_remove hget hdead⟩
  | drop hcall hmem hget hbefore hcompleted howner hdebtor =>
    obtain ⟨signers, call⟩ := tx
    subst hcall
    obtain ⟨hnotOwner, hnotDebtor⟩ := hkeeps _ hmem _ hbefore hcompleted
    rw [← howner] at hnotOwner
    rw [← hdebtor] at hnotDebtor
    exact ⟨hb.owners.remove hget hnotOwner, hb.debtors.remove hget hnotDebtor⟩

end Steps

theorem getMultipleInvoices_isOk {s : State W} :
    ∀ {ids : List ℕ}, (∀ id ∈ ids, ∃ inv, s.invoices.get id = some inv) →
      ∃ invs, getMultipleInvoices s ids = .ok invs := by
  intro ids
  induction ids with
  | nil => exact fun _ => ⟨[], rfl⟩
  | cons id ids ih =>
    intro hstored
    obtain ⟨inv, hget⟩ := hstored id (by simp)
    obtain ⟨invs, hinvs⟩ := ih fun i hi => hstored i (by simp [hi])
    refine ⟨inv :: invs, ?_⟩
    simp only [getMultipleInvoices] at hinvs
    simp only [getMultipleInvoices, List.mapM_cons, bind_eq_ok, State.loadInvoice_eq_ok]
    exact ⟨inv, hget, invs, hinvs, rfl⟩

/-- In every run whose steps keep the indexes, both tables are indexes of the stored invoices, with
every active invoice in them, and the invoices of every owner can be read. -/
theorem invoice_indexes (h : Host W) (now : ℕ) (world : W) (admin pool : Address)
    (maxInvoiceAmount : ℤ) (expirationDurationSecs gracePeriodDays : ℕ) (s : State W)
    (hrun : Reaches (exec h) KeepsIndexes
      (initialState now world admin pool maxInvoiceAmount expirationDurationSecs gracePeriodDays)
      s) :
    Indexed s.toBooks ∧
      ∀ owner, ∃ invs, getMultipleInvoices s (getInvoicesByOwner s owner) = .ok invs := by
  have hs : Indexed s.toBooks := by
    refine hrun.invariant (P := fun t => Indexed t.toBooks) ⟨isIndex_empty, isIndex_empty⟩ ?_
    intro t tx t' ht hkeeps hx
    exact exec_invariant hx ht fun _ _ hb hchange => hb.change hkeeps hchange
  refine ⟨hs, fun owner => getMultipleInvoices_isOk fun id hid => ?_⟩
  obtain ⟨inv, hget, -⟩ := hs.owners.stored owner id hid
  exact ⟨inv, hget⟩

def twoInvoices : List (Tx Unit) := [billing, billing, ⟨[3], .cancelInvoice 1 3⟩]

theorem invoice_indexes_cancelled :
    ∃ s invs, twoInvoices.foldlM (exec quietHost) sampleState = .ok s ∧
      getInvoicesByOwner s 3 = [2] ∧ Indexed s.toBooks ∧
      getMultipleInvoices s (getInvoicesByOwner s 3) = .ok invs := by
  obtain ⟨s, hs, hp⟩ := exists_of_check (x := twoInvoices.foldlM (exec quietHost) sampleState)
    (p := fun s => decide (getInvoicesByOwner s 3 = [2])) (by decide)
  have halong : Along (exec quietHost) KeepsIndexes sampleState twoInvoices :=
    ⟨trivial, fun _ _ => ⟨trivial, fun _ _ => ⟨trivial, fun _ _ => trivial⟩⟩⟩
  have hrun : Reaches (exec quietHost) KeepsIndexes sampleState s :=
    reaches_of_along .refl halong hs
  obtain ⟨hindexed, hread⟩ := invoice_indexes quietHost 1000 () 1 9 1000000 2592000 7 s hrun
  obtain ⟨invs, hinvs⟩ := hread 3
  exact ⟨s, invs, hs, of_decide_eq_true hp, hindexed, hinvs⟩

/-- An invoice is funded and paid, and then anyone removes it. -/
def paidThenRemoved : List (Tx Unit) :=
  [billing, ⟨[9], .recordFunding 1 1000 9⟩, ⟨[9], .markPaid 1 9⟩,
    ⟨[8], .cleanupExpiredStorage 8 [1]⟩]

/-- The index of the owner lists an invoice that is gone, and the owner's invoices cannot be read. -/
theorem removed_invoice_still_listed :
    ∃ s, paidThenRemoved.foldlM (exec quietHost) sampleState = .ok s ∧
      getInvoicesByOwner s 3 = [1] ∧ s.invoices.get 1 = none ∧
      getMultipleInvoices s (getInvoicesByOwner s 3) = .error (.error .InvoiceNotFound) := by
  obtain ⟨s, hs, hp⟩ := exists_of_check (x := paidThenRemoved.foldlM (exec quietHost) sampleState)
    (p := fun s => decide (getInvoicesByOwner s 3 = [1] ∧ s.invoices.get 1 = none))
    (by decide)
  obtain ⟨hlisted, hgone⟩ := of_decide_eq_true hp
  refine ⟨s, hs, hlisted, hgone, ?_⟩
  rw [hlisted]
  simp [getMultipleInvoices, State.loadInvoice, hgone, okOr, bind, Except.bind]

end Astera.Invoices
