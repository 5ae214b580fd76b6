import Astera.Invoices.Invariants

/-!
# The exposure of the owners

`SmeOutstanding` is to be the sum of an owner's funded invoices.  A dismissed dispute lowers it for
an invoice that is not funded, and a default that is taken back funds one whose exposure was
released; in runs without these it is the sum.
-/

namespace Astera.Invoices

open Fallible Machine Transition

variable {W : Type}

/-! ## Sums over the funded invoices -/

def fundedPart (sme : Address) (_ : ℕ) (inv : Invoice) : ℤ :=
  if inv.owner = sme ∧ inv.status = .Funded then inv.amount else 0

def Books.fundedTotal (b : Books) (sme : Address) : ℤ := b.invoices.total (fundedPart sme)

/-- The exposure of every owner is the sum of its funded invoices. -/
structure Exposed (b : Books) : Prop where
  positive : ∀ {id : ℕ} {inv : Invoice}, b.invoices.get id = some inv → 0 < inv.amount
  exact : ∀ sme, b.smeOutstanding sme = b.fundedTotal sme
  fits : ∀ sme, b.smeOutstanding sme < 2 ^ 127

def Call.sidesWithDebtor : Call W → Bool
  | .resolveDispute _ _ .InFavorOfDebtor | .resolveDefaultDispute _ _ .InFavorOfDebtor
  | .arbitrationResolveDispute _ _ .InFavorOfDebtor => true
  | _ => false

/-- The actions that move the exposure with the status. -/
def Action.counted : Action → Bool
  | .dismiss | .reinstate _ => false
  | _ => true

section Steps

variable {s : State W} {call : Call W} {b b' : Books} {id : ℕ} {inv : Invoice} {a : Action}

theorem Makes.counted (hmakes : Makes s b call id inv a) (hcall : call.sidesWithDebtor = false) :
    a.counted = true := by
  cases hmakes <;> first | rfl | cases hcall

theorem Makes.fund_fits (hmakes : Makes s b call id inv a)
    (hfund : a.target = .Funded ∧ inv.status ≠ .Funded) (hcounted : a.counted = true) :
    InI128 (b.smeOutstanding inv.owner + inv.amount) ∧
      b.smeOutstanding inv.owner + inv.amount ≤ s.config.maxOutstandingPerSme := by
  cases hmakes <;> simp_all [Action.counted, Action.target]

theorem Action.outstanding_eq {amount before : ℤ} (hcounted : a.counted = true)
    (hstarts : a.starts inv.status = true) (hpos : 0 < amount) (hbefore : before < 2 ^ 127)
    (hfunded : inv.status = .Funded → amount ≤ before) :
    a.outstanding amount before =
      before - (if inv.status = .Funded then amount else 0) +
        (if a.target = .Funded then amount else 0) := by
  have hrelease : inv.status = .Funded → saturatingSub before amount = before - amount := by
    intro hst
    have hle := hfunded hst
    apply saturatingSub_eq
    unfold InI128
    omega
  cases a <;> cases hst : inv.status <;>
    simp_all [Action.counted, Action.starts, Action.target, Action.outstanding]

theorem fundedPart_nonneg (hb : Exposed b) (sme : Address) :
    ∀ id inv, b.invoices.get id = some inv → 0 ≤ fundedPart sme id inv := by
  intro id inv hget
  unfold fundedPart
  split
  · exact (hb.positive hget).le
  · exact le_rfl

theorem Exposed.nonneg (hb : Exposed b) (sme : Address) : 0 ≤ b.smeOutstanding sme := by
  rw [hb.exact]
  exact Store.total_nonneg (fundedPart_nonneg hb sme)

theorem Exposed.amount_le (hb : Exposed b) (hget : b.invoices.get id = some inv)
    (hst : inv.status = .Funded) : inv.amount ≤ b.smeOutstanding inv.owner := by
  have hpart := Store.part_le_total (fundedPart_nonneg hb inv.owner) id
  rw [Store.part_of_get hget] at hpart
  simp only [fundedPart, hst, and_self, if_true] at hpart
  rw [hb.exact]
  exact hpart

theorem Exposed.outstanding_eq (hb : Exposed b) (hget : b.invoices.get id = some inv)
    (hmakes : Makes s b call id inv a) (hcounted : a.counted = true) :
    a.outstanding inv.amount (b.smeOutstanding inv.owner) =
      b.smeOutstanding inv.owner - (if inv.status = .Funded then inv.amount else 0) +
        (if a.target = .Funded then inv.amount else 0) :=
  Action.outstanding_eq hcounted hmakes.starts (hb.positive hget) (hb.fits _) (hb.amount_le hget)

theorem Exposed.move (hb : Exposed b) (hget : b.invoices.get id = some inv)
    (hmakes : Makes s b call id inv a) (hcounted : a.counted = true) :
    Exposed (a.apply s.now b id inv) := by
  have hstatus := Action.rewrite_status s.now hmakes.starts
  have hout := hb.outstanding_eq hget hmakes hcounted
  constructor
  · intro id' inv' hget'
    have hrewritten : 0 < (a.rewrite s.now inv).amount := by simpa using hb.positive hget
    exact Store.forall_get_set (P := fun _ (i : Invoice) => 0 < i.amount)
      (fun _ _ hold => hb.positive hold) hrewritten id' inv' hget'
  · intro sme
    have htotal := Store.total_set (fundedPart sme) b.invoices id (a.rewrite s.now inv)
    rw [Store.part_of_get hget] at htotal
    simp only [Books.fundedTotal, Action.apply, htotal]
    by_cases hsme : sme = inv.owner
    · subst hsme
      rw [Function.update_self, hout, hb.exact, Books.fundedTotal]
      simp [fundedPart, hstatus]
    · have hne : inv.owner ≠ sme := Ne.symm hsme
      rw [Function.update_of_ne hsme, hb.exact, Books.fundedTotal]
      simp [fundedPart, hne]
  · intro sme
    by_cases hsme : sme = inv.owner
    · subst hsme
      simp only [Action.apply, Function.update_self, hout]
      have hfits := hb.fits inv.owner
      have hpos := hb.positive hget
      have hle := hb.amount_le hget
      by_cases hst : inv.status = .Funded <;> by_cases htarget : a.target = .Funded
      · simpa [hst, htarget] using hfits
      · simp only [hst, htarget, if_true, if_false]
        omega
      · have hfit := (hmakes.fund_fits ⟨htarget, hst⟩ hcounted).1
        simpa [hst, htarget] using hfit.2
      · simpa [hst, htarget] using hfits
    · simp only [Action.apply, Function.update_of_ne hsme]
      exact hb.fits sme

theorem Exposed.remove (hb : Exposed b) (hget : b.invoices.get id = some inv)
    (hcompleted : inv.status.completed = true) (hinvoices : b'.invoices = b.invoices.remove id)
    (houtstanding : b'.smeOutstanding = b.smeOutstanding) : Exposed b' := by
  constructor
  · intro id' inv' hget'
    rw [hinvoices] at hget'
    exact hb.positive (Store.get_of_get_remove hget')
  · intro sme
    have hpart : fundedPart sme id inv = 0 := by
      unfold fundedPart
      cases hst : inv.status <;> simp_all [InvoiceStatus.completed]
    rw [houtstanding, hb.exact, Books.fundedTotal, Books.fundedTotal, hinvoices,
      Store.total_remove, Store.part_of_get hget, hpart, sub_zero]
  · intro sme
    rw [houtstanding]
    exact hb.fits sme

theorem Exposed.enter (hb : Exposed b) {registered : Bool}
    (hnew : b.invoices.get inv.id = none) (hpos : 0 < inv.amount) (hst : inv.status ≠ .Funded) :
    Exposed (b.enter registered inv) := by
  constructor
  · intro id' inv' hget'
    exact Store.forall_get_set (P := fun _ (i : Invoice) => 0 < i.amount)
      (fun _ _ hold => hb.positive hold) hpos id' inv' hget'
  · intro sme
    have htotal := Store.total_set (fundedPart sme) b.invoices inv.id inv
    rw [Store.part_of_get_none hnew] at htotal
    simp only [Books.fundedTotal, Books.enter, htotal, hb.exact]
    simp [fundedPart, hst]
  · exact hb.fits

theorem Exposed.change (hb : Exposed b) (hcall : call.sidesWithDebtor = false)
    (hchange : Change s call b b') : Exposed b' := by
  cases hchange with
  | move hget _ _ hmakes => exact hb.move hget hmakes (hmakes.counted hcall)
  | create hcreates hpos hnew hdebtor =>
    refine hb.enter hnew hpos ?_
    unfold State.newInvoice
    split <;> simp
  | enrol hexposure => exact ⟨hb.positive, hb.exact, hb.fits⟩
  | wipe hget hcompleted => exact hb.remove hget hcompleted rfl rfl
  | drop _ _ hget _ hcompleted => exact hb.remove hget hcompleted rfl rfl

theorem Exposed.change_le_cap (hb : Exposed b) (hcall : call.sidesWithDebtor = false)
    (hcap : ∀ sme, b.smeOutstanding sme ≤ s.config.maxOutstandingPerSme)
    (hchange : Change s call b b') :
    ∀ sme, b'.smeOutstanding sme ≤ s.config.maxOutstandingPerSme := by
  cases hchange with
  | @move id inv a hget _ _ hmakes =>
    have hcounted := hmakes.counted hcall
    have hout := hb.outstanding_eq hget hmakes hcounted
    intro sme
    by_cases hsme : sme = inv.owner
    · subst hsme
      simp only [Action.apply, Function.update_self, hout]
      have hle := hcap inv.owner
      have hpos := hb.positive hget
      by_cases hst : inv.status = .Funded <;> by_cases htarget : a.target = .Funded
      · simpa [hst, htarget] using hle
      · simp only [hst, htarget, if_true, if_false]
        omega
      · have hfund := (hmakes.fund_fits ⟨htarget, hst⟩ hcounted).2
        simpa [hst, htarget] using hfund
      · simpa [hst, htarget] using hle
    · simp only [Action.apply, Function.update_of_ne hsme]
      exact hcap sme
  | _ => exact hcap

end Steps

section Runs

variable {h : Host W}

theorem Exposed.run {s₀ s : State W} (hs₀ : Exposed s₀.toBooks)
    (hrun : Reaches (exec h) (fun _ tx => tx.call.sidesWithDebtor = false) s₀ s) :
    Exposed s.toBooks :=
  hrun.invariant (P := fun s => Exposed s.toBooks) hs₀ fun _ _ _ hs hcall hx =>
    exec_invariant hx hs fun _ _ hb hchange => hb.change hcall hchange

theorem Exposed.empty : Exposed {} :=
  ⟨fun hget => by simp at hget, fun _ => by simp [Books.fundedTotal], fun _ => by norm_num⟩

/-- In every run without a resolution in favour of the debtor the exposure of every owner is the sum
of the amounts of its funded invoices; and while the cap is not changed it stays within the cap. -/
theorem smeOutstanding_eq_fundedTotal (now : ℕ) (world : W) (admin pool : Address)
    (maxInvoiceAmount : ℤ) (expirationDurationSecs gracePeriodDays : ℕ) (s : State W)
    (hrun : Reaches (exec h) (fun _ tx => tx.call.sidesWithDebtor = false)
      (initialState now world admin pool maxInvoiceAmount expirationDurationSecs gracePeriodDays)
      s) :
    (∀ sme, s.smeOutstanding sme = s.toBooks.fundedTotal sme ∧ 0 ≤ s.smeOutstanding sme) ∧
      ∀ cap s', (∀ sme, s.smeOutstanding sme ≤ cap) →
        Reaches (exec h) (fun t tx => t.config.maxOutstandingPerSme = cap ∧
          tx.call.sidesWithDebtor = false) s s' →
        ∀ sme, s'.smeOutstanding sme ≤ cap := by
  have hs : Exposed s.toBooks := Exposed.run Exposed.empty hrun
  refine ⟨fun sme => ⟨hs.exact sme, hs.nonneg sme⟩, fun cap s' hcap hrun' => ?_⟩
  refine (hrun'.invariant (P := fun t => Exposed t.toBooks ∧ ∀ sme, t.smeOutstanding sme ≤ cap)
    ⟨hs, hcap⟩ ?_).2
  rintro t tx t' ⟨ht, hle⟩ ⟨rfl, hcall⟩ hx
  refine exec_invariant (P := fun b => Exposed b ∧
    ∀ sme, b.smeOutstanding sme ≤ t.config.maxOutstandingPerSme) hx ⟨ht, hle⟩ ?_
  rintro b b' ⟨hb, hle⟩ hchange
  exact ⟨hb.change hcall hchange, hb.change_le_cap hcall hle hchange⟩

end Runs

def fundedInvoice : List (Tx Unit) := [billing, ⟨[9], .recordFunding 1 1000 9⟩]

theorem smeOutstanding_eq_fundedTotal_funded :
    ∃ s, fundedInvoice.foldlM (exec quietHost) sampleState = .ok s ∧
      s.smeOutstanding 3 = 1000 ∧ s.smeOutstanding 3 = s.toBooks.fundedTotal 3 := by
  obtain ⟨s, hs, hp⟩ := exists_of_check
    (x := fundedInvoice.foldlM (exec quietHost) sampleState)
    (p := fun s => decide (s.smeOutstanding 3 = 1000)) (by decide)
  have hrun : Reaches (exec quietHost) (fun _ tx => tx.call.sidesWithDebtor = false) sampleState s :=
    reaches_of_along .refl (by decide) hs
  exact ⟨s, hs, of_decide_eq_true hp,
    ((smeOutstanding_eq_fundedTotal 1000 () 1 9 1000000 2592000 7 s hrun).1 3).1⟩

/-- An invoice is rejected by the oracle, account 5, which then resolves the dispute for the
debtor. -/
def dismissedInvoice : List (Tx Unit) :=
  [⟨[1], .set (.setOracle 1 5)⟩, billing,
    ⟨[5], .verifyInvoice 1 5 false (bytes "forged") (bytes "0a1b")⟩,
    ⟨[5], .resolveDispute 1 5 .InFavorOfDebtor⟩]

/-- The owner was never funded, and its exposure is negative. -/
theorem dismissed_dispute_lowers_exposure :
    ∃ s, dismissedInvoice.foldlM (exec quietHost) sampleState = .ok s ∧
      s.toBooks.fundedTotal 3 = 0 ∧ s.smeOutstanding 3 = -1000 := by
  obtain ⟨s, hs, hp⟩ := exists_of_check
    (x := dismissedInvoice.foldlM (exec quietHost) sampleState)
    (p := fun s => decide (s.toBooks.fundedTotal 3 = 0 ∧ s.smeOutstanding 3 = -1000))
    (by decide)
  exact ⟨s, hs, of_decide_eq_true hp⟩

end Astera.Invoices
