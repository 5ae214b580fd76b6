import Astera.Invoices.Invariants

/-!
# The exposure of the debtors

The exposure of a debtor is to be the sum of its invoices that are not completed.  `cancel_invoice`
does not give it back and `raise_dispute` makes an invoice active again without raising it; in runs
without these it is the sum.
-/

namespace Astera.Invoices

open Fallible Machine Transition

variable {W : Type}

/-! ## Sums over the active invoices -/

def activePart (debtor : Bytes) (_ : ℕ) (inv : Invoice) : ℤ :=
  if inv.debtor = debtor ∧ inv.status.completed = false then inv.amount else 0

/-- The sum of the amounts of the invoices of a debtor that are not completed. -/
def Books.activeTotal (b : Books) (debtor : Bytes) : ℤ := b.invoices.total (activePart debtor)

/-- The exposure of every debtor is the sum of its active invoices. -/
structure Charged (b : Books) : Prop where
  positive : ∀ {id : ℕ} {inv : Invoice}, b.invoices.get id = some inv → 0 < inv.amount
  exact : ∀ debtor, b.exposure debtor = b.activeTotal debtor
  fits : ∀ debtor, b.exposure debtor < 2 ^ 127
  undisputed : ∀ id, b.disputes id = none

/-- The calls that change what is active and not the exposure. -/
def Call.losesExposure : Call W → Bool
  | .cancelInvoice _ _ | .raiseDispute _ _ _ _ => true
  | _ => false

/-- The steps considered: invoices are created with registered debtors required, and neither of those
calls is made. -/
def KeepsExposure (s : State W) (tx : Tx W) : Prop :=
  (tx.call.creates = true → s.config.requireRegisteredDebtor = true) ∧ tx.call.losesExposure = false

instance (s : State W) (tx : Tx W) : Decidable (KeepsExposure s tx) :=
  inferInstanceAs (Decidable (_ ∧ _))

/-- The actions that move the exposure of the debtor with the status. -/
def Action.charged : Action → Bool
  | .cancel | .contest _ | .confirmDefault => false
  | _ => true

section Steps

variable {s : State W} {call : Call W} {b b' : Books} {id : ℕ} {inv : Invoice} {a : Action}

theorem Makes.charged (hmakes : Makes s b call id inv a) (hcall : call.losesExposure = false)
    (hnone : b.disputes id = none) : a.charged = true := by
  cases hmakes with
  | contested | cancelled => cases hcall
  | confirmed _ hrecord | juryConfirmed _ hrecord => simp [hnone] at hrecord
  | _ => rfl

theorem Action.releasesDebtor_eq (hcharged : a.charged = true)
    (hstarts : a.starts inv.status = true) :
    inv.status.completed = false ∧ a.releasesDebtor = a.target.completed := by
  cases a <;> cases hst : inv.status <;>
    simp_all [Action.charged, Action.starts, Action.target, Action.releasesDebtor,
      InvoiceStatus.completed]

theorem Action.dispute_none (now : ℕ) (hcharged : a.charged = true) : a.dispute now none = none := by
  cases a <;> simp_all [Action.charged, Action.dispute]

theorem activePart_nonneg (hb : Charged b) (debtor : Bytes) :
    ∀ id inv, b.invoices.get id = some inv → 0 ≤ activePart debtor id inv := by
  intro id inv hget
  unfold activePart
  split
  · exact (hb.positive hget).le
  · exact le_rfl

theorem Charged.amount_le (hb : Charged b) (hget : b.invoices.get id = some inv)
    (hactive : inv.status.completed = false) : inv.amount ≤ b.exposure inv.debtor := by
  have hpart := Store.part_le_total (activePart_nonneg hb inv.debtor) id
  rw [Store.part_of_get hget] at hpart
  simp only [activePart, hactive, and_self, if_true] at hpart
  rw [hb.exact]
  exact hpart

theorem Charged.exposure_eq (hb : Charged b) (hget : b.invoices.get id = some inv)
    (hmakes : Makes s b call id inv a) (hcharged : a.charged = true) :
    (a.apply s.now b id inv).exposure inv.debtor =
      b.exposure inv.debtor - (if a.target.completed then inv.amount else 0) := by
  obtain ⟨hactive, hreleases⟩ := Action.releasesDebtor_eq hcharged hmakes.starts
  have hle := hb.amount_le hget hactive
  have hpos := hb.positive hget
  have hfits := hb.fits inv.debtor
  unfold Books.exposure at hle hfits ⊢
  simp only [Action.apply, Action.debtorRecord, hreleases, Function.update_self]
  cases hrecord : b.debtorRecord inv.debtor with
  | none =>
    -- an unregistered debtor has no exposure, and so no active invoice
    simp only [hrecord, Option.map_none, Option.getD_none] at hle
    omega
  | some record =>
    simp only [hrecord, Option.map_some, Option.getD_some] at hle hfits ⊢
    have hsub : saturatingSub record.currentExposure inv.amount =
        record.currentExposure - inv.amount := by
      apply saturatingSub_eq
      unfold InI128
      omega
    cases a.target.completed <;> simp [hsub]

theorem Books.exposure_move_of_ne {debtor : Bytes} (hne : debtor ≠ inv.debtor) :
    (a.apply s.now b id inv).exposure debtor = b.exposure debtor := by
  simp only [Books.exposure, Action.apply, Function.update_of_ne hne]

theorem Charged.move (hb : Charged b) (hget : b.invoices.get id = some inv)
    (hmakes : Makes s b call id inv a) (hcharged : a.charged = true) :
    Charged (a.apply s.now b id inv) := by
  have hstatus := Action.rewrite_status s.now hmakes.starts
  have hexposure := hb.exposure_eq hget hmakes hcharged
  obtain ⟨hactive, -⟩ := Action.releasesDebtor_eq hcharged hmakes.starts
  constructor
  · intro id' inv' hget'
    have hrewritten : 0 < (a.rewrite s.now inv).amount := by simpa using hb.positive hget
    exact Store.forall_get_set (P := fun _ (i : Invoice) => 0 < i.amount)
      (fun _ _ hold => hb.positive hold) hrewritten id' inv' hget'
  · intro debtor
    have htotal := Store.total_set (activePart debtor) b.invoices id (a.rewrite s.now inv)
    rw [Store.part_of_get hget] at htotal
    by_cases hdebtor : debtor = inv.debtor
    · subst hdebtor
      rw [hexposure, hb.exact]
      simp only [Books.activeTotal, Action.apply, htotal]
      cases hdone : a.target.completed <;> simp [activePart, hstatus, hactive, hdone]
    · have hne : inv.debtor ≠ debtor := Ne.symm hdebtor
      rw [Books.exposure_move_of_ne hdebtor, hb.exact]
      simp only [Books.activeTotal, Action.apply, htotal]
      simp [activePart, hne]
  · intro debtor
    by_cases hdebtor : debtor = inv.debtor
    · subst hdebtor
      rw [hexposure]
      have hfits := hb.fits inv.debtor
      have hpos := hb.positive hget
      split <;> omega
    · rw [Books.exposure_move_of_ne hdebtor]
      exact hb.fits debtor
  · intro id'
    by_cases hid : id' = id
    · subst hid
      simp [Action.apply, hb.undisputed, Action.dispute_none s.now hcharged]
    · simp [Action.apply, Function.update_of_ne hid, hb.undisputed]

theorem Charged.remove (hb : Charged b) (hget : b.invoices.get id = some inv)
    (hcompleted : inv.status.completed = true) (hinvoices : b'.invoices = b.invoices.remove id)
    (hrecord : b'.debtorRecord = b.debtorRecord) (hdisputes : b'.disputes = b.disputes) :
    Charged b' := by
  have hexposure : ∀ debtor, b'.exposure debtor = b.exposure debtor := by
    intro debtor
    rw [Books.exposure, Books.exposure, hrecord]
  constructor
  · intro id' inv' hget'
    rw [hinvoices] at hget'
    exact hb.positive (Store.get_of_get_remove hget')
  · intro debtor
    have hpart : activePart debtor id inv = 0 := by simp [activePart, hcompleted]
    rw [hexposure, hb.exact, Books.activeTotal, Books.activeTotal, hinvoices,
      Store.total_remove, Store.part_of_get hget, hpart, sub_zero]
  · intro debtor
    rw [hexposure]
    exact hb.fits debtor
  · rw [hdisputes]
    exact hb.undisputed

theorem Charged.enter (hb : Charged b) (hnew : b.invoices.get inv.id = none)
    (hpos : 0 < inv.amount) (hactive : inv.status.completed = false)
    (hregistered : (b.debtorRecord inv.debtor).isSome = true)
    (hfits : InI128 (b.exposure inv.debtor + inv.amount)) : Charged (b.enter true inv) := by
  obtain ⟨record, hrecord⟩ := Option.isSome_iff_exists.1 hregistered
  have hself : (b.enter true inv).exposure inv.debtor = b.exposure inv.debtor + inv.amount := by
    simp [Books.exposure, Books.enter, hrecord]
  have hother : ∀ debtor, debtor ≠ inv.debtor →
      (b.enter true inv).exposure debtor = b.exposure debtor := by
    intro debtor hne
    simp only [Books.exposure, Books.enter, if_true, Function.update_of_ne hne]
  constructor
  · intro id' inv' hget'
    exact Store.forall_get_set (P := fun _ (i : Invoice) => 0 < i.amount)
      (fun _ _ hold => hb.positive hold) hpos id' inv' hget'
  · intro debtor
    have htotal := Store.total_set (activePart debtor) b.invoices inv.id inv
    rw [Store.part_of_get_none hnew] at htotal
    by_cases hdebtor : debtor = inv.debtor
    · subst hdebtor
      rw [hself, hb.exact]
      simp only [Books.activeTotal, Books.enter, htotal]
      simp [activePart, hactive]
    · have hne : inv.debtor ≠ debtor := Ne.symm hdebtor
      rw [hother debtor hdebtor, hb.exact]
      simp only [Books.activeTotal, Books.enter, htotal]
      simp [activePart, hne]
  · intro debtor
    by_cases hdebtor : debtor = inv.debtor
    · subst hdebtor
      rw [hself]
      exact hfits.2
    · rw [hother debtor hdebtor]
      exact hb.fits debtor
  · exact hb.undisputed

theorem Charged.enrol (hb : Charged b) {debtorId : Bytes} {record : DebtorRecord}
    (hrecord : record.currentExposure = b.exposure debtorId) :
    Charged (b.setDebtorRecord debtorId record) := by
  have hexposure : ∀ debtor, (b.setDebtorRecord debtorId record).exposure debtor =
      b.exposure debtor := by
    intro debtor
    by_cases hdebtor : debtor = debtorId
    · subst hdebtor
      rw [← hrecord]
      simp [Books.exposure, Books.setDebtorRecord]
    · simp only [Books.exposure, Books.setDebtorRecord, Function.update_of_ne hdebtor]
  refine ⟨hb.positive, fun debtor => ?_, fun debtor => ?_, hb.undisputed⟩
  · rw [hexposure, hb.exact]
    rfl
  · rw [hexposure]
    exact hb.fits debtor

theorem Charged.change (hb : Charged b) (hcall : call.losesExposure = false)
    (hrequired : call.creates = true → s.config.requireRegisteredDebtor = true)
    (hchange : Change s call b b') : Charged b' := by
  cases hchange with
  | move hget _ _ hmakes => exact hb.move hget hmakes (hmakes.charged hcall (hb.undisputed _))
  | create hcreates hpos hnew hdebtor =>
    have hon := hrequired hcreates
    obtain ⟨hregistered, hfits⟩ := hdebtor hon
    rw [hon]
    refine hb.enter hnew hpos ?_ hregistered hfits
    unfold State.newInvoice
    split <;> rfl
  | enrol hexposure => exact hb.enrol hexposure
  | wipe hget hcompleted => exact hb.remove hget hcompleted rfl rfl rfl
  | drop _ _ hget _ hcompleted => exact hb.remove hget hcompleted rfl rfl rfl

end Steps

theorem Charged.empty : Charged {} :=
  ⟨fun hget => by simp at hget, fun _ => by simp [Books.activeTotal, Books.exposure],
    fun _ => by simp [Books.exposure], fun _ => rfl⟩

/-- When every invoice is created with registered debtors required, then in every run without
`cancel_invoice` and `raise_dispute` the exposure of a registered debtor is the sum of the amounts of
its invoices that are not completed. -/
theorem currentExposure_eq_activeTotal (h : Host W) (now : ℕ) (world : W) (admin pool : Address)
    (maxInvoiceAmount : ℤ) (expirationDurationSecs gracePeriodDays : ℕ) (s : State W)
    (hrun : Reaches (exec h) KeepsExposure
      (initialState now world admin pool maxInvoiceAmount expirationDurationSecs gracePeriodDays)
      s) (debtor : Bytes) (record : DebtorRecord) (hrecord : s.debtorRecord debtor = some record) :
    record.currentExposure = s.toBooks.activeTotal debtor := by
  have hs : Charged s.toBooks := by
    refine hrun.invariant (P := fun t => Charged t.toBooks) Charged.empty ?_
    rintro t tx t' ht ⟨hrequired, hcall⟩ hx
    exact exec_invariant hx ht fun _ _ hb hchange => hb.change hcall hrequired hchange
  rw [← hs.exact debtor]
  simp [Books.exposure, hrecord]

/-- Registered debtors are required, one is registered, and an invoice names it. -/
def registeredInvoice : List (Tx Unit) :=
  [⟨[1], .set (.setRequireRegisteredDebtor 1 true)⟩,
    ⟨[1], .registerDebtor 1 (bytes "Acme") (bytes "Acme Ltd") 5000⟩, billing]

theorem currentExposure_eq_activeTotal_registered :
    ∃ s record, registeredInvoice.foldlM (exec quietHost) sampleState = .ok s ∧
      s.debtorRecord (bytes "Acme") = some record ∧ record.currentExposure = 1000 ∧
      record.currentExposure = s.toBooks.activeTotal (bytes "Acme") := by
  obtain ⟨s, hs, hp⟩ := exists_of_check
    (x := registeredInvoice.foldlM (exec quietHost) sampleState)
    (p := fun s => decide (∃ record ∈ s.debtorRecord (bytes "Acme"),
      record.currentExposure = 1000)) (by decide)
  obtain ⟨record, hrecord, hexposure⟩ := of_decide_eq_true hp
  have hrun : Reaches (exec quietHost) KeepsExposure sampleState s :=
    reaches_of_along .refl (by decide) hs
  exact ⟨s, record, hs, hrecord, hexposure,
    currentExposure_eq_activeTotal quietHost 1000 () 1 9 1000000 2592000 7 s hrun _ record hrecord⟩

def cancelledInvoice : List (Tx Unit) := registeredInvoice ++ [⟨[3], .cancelInvoice 1 3⟩]

/-- The debtor owes nothing any more, and its exposure is still 1000. -/
theorem cancelled_invoice_keeps_exposure :
    ∃ s record, cancelledInvoice.foldlM (exec quietHost) sampleState = .ok s ∧
      s.debtorRecord (bytes "Acme") = some record ∧ record.currentExposure = 1000 ∧
      s.toBooks.activeTotal (bytes "Acme") = 0 := by
  obtain ⟨s, hs, hp⟩ := exists_of_check
    (x := cancelledInvoice.foldlM (exec quietHost) sampleState)
    (p := fun s => decide ((∃ record ∈ s.debtorRecord (bytes "Acme"),
      record.currentExposure = 1000) ∧ s.toBooks.activeTotal (bytes "Acme") = 0))
    (by decide)
  obtain ⟨⟨record, hrecord, hexposure⟩, htotal⟩ := of_decide_eq_true hp
  exact ⟨s, record, hs, hrecord, hexposure, htotal⟩

end Astera.Invoices
