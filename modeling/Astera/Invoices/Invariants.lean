import Astera.Invoices.Steps

/-!
# Following one invoice

A number is given to an invoice once (`Numbered`), and `Change.view` says what a change can be for
one number: nothing, an action, the removal of a completed invoice, or the creation of the invoice.
-/

namespace Astera.Invoices

open Fallible Machine Transition

variable {W : Type}

structure Numbered (b : Books) : Prop where
  invoices : ∀ {id : ℕ} {inv : Invoice}, b.invoices.get id = some inv → id ≤ b.invoiceCount
  disputes : ∀ {id : ℕ}, b.disputes id ≠ none → id ≤ b.invoiceCount

/-- What a change can be for the invoice with number `id`. -/
inductive View (s : State W) (call : Call W) (b b' : Books) (id : ℕ) : Prop
  | same (hget : b'.invoices.get id = b.invoices.get id) (hdispute : b'.disputes id = b.disputes id)
  | moved {inv : Invoice} {a : Action} (hmakes : Makes s b call id inv a)
      (hbefore : b.invoices.get id = some inv) (hfirst : s.invoices.get id = some inv)
      (hstart : b.disputes id = s.disputes id)
      (hget : b'.invoices.get id = some (a.rewrite s.now inv))
      (hdispute : b'.disputes id = a.dispute s.now (b.disputes id))
  | removed {inv : Invoice} (hcompleted : inv.status.completed = true)
      (hbefore : b.invoices.get id = some inv) (hget : b'.invoices.get id = none)
      (hdispute : b'.disputes id = b.disputes id)
  | created {owner : Address} {debtor : Bytes} {amount : ℤ} {dueDate : ℕ}
      {description verificationHash : Bytes} {metadataUri : Option Bytes}
      (hcall : call.creates = true) (hpos : 0 < amount) (hid : id = b.invoiceCount + 1)
      (hcount : b'.invoiceCount = id)
      (hget : b'.invoices.get id = some (s.newInvoice id owner debtor amount dueDate description
        verificationHash metadataUri))
      (hdispute : b'.disputes id = b.disputes id)

section Views

variable {s s' : State W} {call : Call W} {b b' : Books}

theorem Change.count_le (hchange : Change s call b b') : b.invoiceCount ≤ b'.invoiceCount := by
  cases hchange with
  | create => exact Nat.le_succ _
  | _ => exact le_rfl

theorem Change.view (hchange : Change s call b b') (id : ℕ) : View s call b b' id := by
  cases hchange with
  | @move id' inv a hget hfirst hdisputes hmakes =>
    by_cases hid : id = id'
    · subst hid
      exact .moved hmakes hget hfirst (congrFun hdisputes id) (Store.get_set_self _ _ _)
        (Function.update_self _ _ _)
    · exact .same (Store.get_set_of_ne _ _ hid) (Function.update_of_ne hid _ _)
  | create hcall hpos hnew hdebtor =>
    by_cases hid : id = b.invoiceCount + 1
    · subst hid
      exact .created hcall hpos rfl rfl (Store.get_set_self _ _ _) rfl
    · exact .same (Store.get_set_of_ne _ _ hid) rfl
  | enrol hexposure => exact .same rfl rfl
  | @wipe id' inv hget hcompleted =>
    by_cases hid : id = id'
    · subst hid
      refine .removed hcompleted hget ?_ rfl
      simp [Books.removeInvoice, Books.removeInvoiceFromOwner, Books.removeInvoiceFromDebtor,
        Store.get_remove]
    · refine .same ?_ rfl
      simp [Books.removeInvoice, Books.removeInvoiceFromOwner, Books.removeInvoiceFromDebtor,
        Store.get_remove, hid]
  | @drop caller ids id' inv hcall hmem hget hbefore hcompleted howner hdebtor =>
    by_cases hid : id = id'
    · subst hid
      exact .removed hcompleted hget (by simp [Books.removeInvoice, Store.get_remove]) rfl
    · exact .same (by simp [Books.removeInvoice, Store.get_remove, hid]) rfl

theorem Numbered.change (hb : Numbered b) (hchange : Change s call b b') : Numbered b' := by
  have hcount := hchange.count_le
  constructor
  · intro id inv hget
    cases hchange.view id with
    | same hsame => exact (hb.invoices (hsame ▸ hget)).trans hcount
    | moved _ hbefore => exact (hb.invoices hbefore).trans hcount
    | removed _ _ hnone => simp [hnone] at hget
    | created _ _ _ hlast => exact hlast.ge
  · intro id hdispute
    cases hchange.view id with
    | same _ hsame => exact (hb.disputes (hsame ▸ hdispute)).trans hcount
    | moved _ hbefore => exact (hb.invoices hbefore).trans hcount
    | removed _ hbefore => exact (hb.invoices hbefore).trans hcount
    | created _ _ _ _ _ hsame => exact (hb.disputes (hsame ▸ hdispute)).trans hcount

end Views

section Calls

variable {h : Host W} {s s' : State W} {tx : Tx W}

theorem Numbered.empty : Numbered {} :=
  ⟨fun hget => by simp at hget, fun hdispute => absurd rfl hdispute⟩

theorem Numbered.call (hs : Numbered s.toBooks) (hx : exec h s tx = .ok s') :
    Numbered s'.toBooks :=
  exec_invariant hx hs fun _ _ hb hchange => hb.change hchange

theorem Numbered.run {ok : State W → Tx W → Prop} {s₀ : State W} (hs₀ : Numbered s₀.toBooks)
    (hrun : Reaches (exec h) ok s₀ s) : Numbered s.toBooks :=
  hrun.invariant (P := fun s => Numbered s.toBooks) hs₀ fun _ _ _ hs _ hx => hs.call hx

theorem exec_follow {id : ℕ} {Q : Option Invoice → Option DisputeRecord → Prop}
    (hx : exec h s tx = .ok s') (hid : id ≤ s.invoiceCount)
    (hQ : Q (s.invoices.get id) (s.disputes id))
    (hmove : ∀ b inv a, Makes s b tx.call id inv a → s.invoices.get id = some inv →
      Q (some inv) (s.disputes id) →
      Q (some (a.rewrite s.now inv)) (a.dispute s.now (s.disputes id)))
    (hgone : ∀ inv d, inv.status.completed = true → Q (some inv) d → Q none d) :
    id ≤ s'.invoiceCount ∧ Q (s'.invoices.get id) (s'.disputes id) := by
  refine exec_invariant (P := fun b => id ≤ b.invoiceCount ∧ Q (b.invoices.get id) (b.disputes id))
    hx ⟨hid, hQ⟩ ?_
  rintro b b' ⟨hid, hQ⟩ hchange
  refine ⟨hid.trans hchange.count_le, ?_⟩
  cases hchange.view id with
  | same hget hdispute =>
    rw [hget, hdispute]
    exact hQ
  | moved hmakes hbefore hfirst hstart hget hdispute =>
    rw [hget, hdispute, hstart]
    rw [hbefore, hstart] at hQ
    exact hmove b _ _ hmakes hfirst hQ
  | removed hcompleted hbefore hget hdispute =>
    rw [hget, hdispute]
    exact hgone _ _ hcompleted (hbefore ▸ hQ)
  | created _ _ hnew => omega

theorem exec_all {R : Invoice → Option DisputeRecord → Prop} (hx : exec h s tx = .ok s')
    (hs : Numbered s.toBooks)
    (hR : ∀ id inv, s.invoices.get id = some inv → R inv (s.disputes id))
    (hmove : ∀ b id inv a, Makes s b tx.call id inv a → R inv (b.disputes id) →
      R (a.rewrite s.now inv) (a.dispute s.now (b.disputes id)))
    (hnew : ∀ id owner debtor amount dueDate description hash uri, tx.call.creates = true →
      0 < amount → R (s.newInvoice id owner debtor amount dueDate description hash uri) none) :
    ∀ id inv, s'.invoices.get id = some inv → R inv (s'.disputes id) := by
  refine (exec_invariant (P := fun b => Numbered b ∧
    ∀ id inv, b.invoices.get id = some inv → R inv (b.disputes id)) hx ⟨hs, hR⟩ ?_).2
  rintro b b' ⟨hb, hR⟩ hchange
  refine ⟨hb.change hchange, fun id inv hinv => ?_⟩
  cases hchange.view id with
  | same hget hdispute =>
    rw [hdispute]
    exact hR id inv (hget ▸ hinv)
  | moved hmakes hbefore _ _ hget hdispute =>
    obtain rfl : _ = inv := Option.some.inj (hget.symm.trans hinv)
    rw [hdispute]
    exact hmove b id _ _ hmakes (hR id _ hbefore)
  | removed _ _ hget => simp [hget] at hinv
  | created hcall hpos hid _ hget hdispute =>
    obtain rfl : _ = inv := Option.some.inj (hget.symm.trans hinv)
    -- The number is new, so it has no dispute.
    have hnone : b.disputes id = none := by
      by_contra hsome
      have hle := hb.disputes hsome
      omega
    rw [hdispute, hnone]
    exact hnew id _ _ _ _ _ _ _ hcall hpos

end Calls

end Astera.Invoices
