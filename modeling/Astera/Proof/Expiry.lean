import Astera.Invoices.Invariants

/-!
# Expired invoices

The store says that an invoice is expired only when a call looks.  `mark_funded`, `cancel_invoice`
and `check_expiration` look; `record_funding` does not.
-/

namespace Astera.Invoices

open Fallible Machine Transition

variable {W : Type}

theorem State.overdue_iff {s : State W} {inv : Invoice} (hnow : s.now < 2 ^ 64) :
    s.overdue inv = true ↔
      inv.status = .Pending ∧ inv.createdAt + s.config.expirationDurationSecs < s.now := by
  unfold State.overdue fitU
  split_ifs with hfit
  · simp
  · simp only [Bool.and_false, Bool.false_eq_true, false_iff, not_and]
    omega

/-- `record_funding` is not used on the invoice while it is pending and its time is up. -/
def ChecksExpiry (id : ℕ) (s : State W) (tx : Tx W) : Prop :=
  match tx.call with
  | .recordFunding id' _ _ =>
    id' = id → ∀ inv, s.invoices.get id = some inv → s.overdue inv = false
  | _ => True

/-- The invoice has expired, or is pending since `createdAt`. -/
def Lapsed (createdAt : ℕ) (o : Option Invoice) : Prop :=
  ∀ inv, o = some inv →
    inv.status = .Expired ∨ (inv.status = .Pending ∧ inv.createdAt = createdAt)

section Steps

variable {s : State W} {b : Books} {tx : Tx W} {id createdAt : ℕ} {inv : Invoice} {a : Action}

theorem Makes.expire_of_overdue (hmakes : Makes s b tx.call id inv a)
    (hchecks : ChecksExpiry id s tx) (hget : s.invoices.get id = some inv)
    (hover : s.overdue inv = true) : a = .expire := by
  have hst : inv.status = .Pending := by
    simp only [State.overdue, Bool.and_eq_true, decide_eq_true_eq] at hover
    exact hover.1
  obtain ⟨signers, call⟩ := tx
  cases hmakes with
  | recordedFunding =>
    have hnot := hchecks rfl inv hget
    simp [hover] at hnot
  | markedFunded _ htime | cancelled _ htime => simp [hover] at htime
  | expired | expiredInBatch => rfl
  | _ => simp_all

theorem Lapsed.move (hmakes : Makes s b tx.call id inv a) (hchecks : ChecksExpiry id s tx)
    (hget : s.invoices.get id = some inv) (hnow : s.now < 2 ^ 64)
    (htime : createdAt + s.config.expirationDurationSecs < s.now)
    (hQ : Lapsed createdAt (some inv)) : Lapsed createdAt (some (a.rewrite s.now inv)) := by
  obtain hexpired | ⟨hpending, rfl⟩ := hQ inv rfl
  · have hstarts := hmakes.starts
    rw [hexpired] at hstarts
    cases a <;> simp [Action.starts] at hstarts
  · have hover := (State.overdue_iff hnow).2 ⟨hpending, htime⟩
    obtain rfl := hmakes.expire_of_overdue hchecks hget hover
    intro inv' hinv'
    obtain rfl := Option.some.inj hinv'
    exact .inl rfl

end Steps

section Runs

variable {h : Host W}

theorem exec_now_lt {s s' : State W} {tx : Tx W} (hs : s.now < 2 ^ 64)
    (hx : exec h s tx = .ok s') : s'.now < 2 ^ 64 := by
  obtain ⟨-, -, -, -, rfl⟩ | ⟨-, -, rfl⟩ | ⟨now, -, -, hlt, rfl⟩ | ⟨-, hsame, -⟩ := exec_cases hx
  · exact hs
  · exact hs
  · exact hlt
  · exact hsame.now ▸ hs

/-- An invoice that is pending when its time is up is never funded, as long as the duration stays and
`record_funding` is not used on it. -/
theorem overdue_never_funded (now : ℕ) (world : W) (admin pool : Address) (maxInvoiceAmount : ℤ)
    (expirationDurationSecs gracePeriodDays : ℕ) (hnow : now < 2 ^ 64) (s : State W)
    (hrun : Reaches (exec h) (fun _ _ => True)
      (initialState now world admin pool maxInvoiceAmount expirationDurationSecs gracePeriodDays) s)
    (id : ℕ) (inv : Invoice) (hget : s.invoices.get id = some inv) (hst : inv.status = .Pending)
    (htime : inv.createdAt + s.config.expirationDurationSecs < s.now) (s' : State W)
    (hrun' : Reaches (exec h) (fun t tx =>
      t.config.expirationDurationSecs = s.config.expirationDurationSecs ∧ ChecksExpiry id t tx) s s')
    (inv' : Invoice) (hget' : s'.invoices.get id = some inv') : inv'.status ≠ .Funded := by
  have hnum : Numbered s.toBooks := Numbered.empty.run hrun
  have hlt : s.now < 2 ^ 64 := by
    refine hrun.invariant (P := fun t => t.now < 2 ^ 64) hnow ?_
    intro t tx t' ht _ hx
    exact exec_now_lt ht hx
  have hs : Lapsed inv.createdAt (s.invoices.get id) := by
    intro i hi
    obtain rfl := Option.some.inj (hi.symm.trans hget)
    exact .inr ⟨hst, rfl⟩
  -- The time only grows, so the invoice stays overdue as long as it is pending.
  have hs' := hrun'.invariant (P := fun t => t.now < 2 ^ 64 ∧
    inv.createdAt + s.config.expirationDurationSecs < t.now ∧ id ≤ t.invoiceCount ∧
    Lapsed inv.createdAt (t.invoices.get id)) ⟨hlt, htime, hnum.invoices hget, hs⟩ ?_
  · obtain hst' | ⟨hst', -⟩ := hs'.2.2.2 inv' hget' <;> simp [hst']
  · rintro t tx t' ⟨ht, htime, hid, hQ⟩ ⟨hduration, hchecks⟩ hx
    refine ⟨exec_now_lt ht hx, htime.trans_le (exec_now_le hx), ?_⟩
    refine exec_follow (Q := fun o _ => Lapsed inv.createdAt o) hx hid hQ ?_ ?_
    · intro b i a hmakes hfirst hQ
      exact Lapsed.move hmakes hchecks hfirst ht (hduration ▸ htime) hQ
    · intro i d _ _ i' hnone
      cases hnone

end Runs

/-- The invoice is created, and a month and a second later its time is up. -/
def staleInvoice : List (Tx Unit) := [billing, ⟨[], .advance 2593001⟩]

theorem overdue_never_funded_checked :
    ∃ s s' inv inv', staleInvoice.foldlM (exec quietHost) sampleState = .ok s ∧
      exec quietHost s ⟨[], .checkExpiration 1⟩ = .ok s' ∧ s.invoices.get 1 = some inv ∧
      inv.status = .Pending ∧ s'.invoices.get 1 = some inv' ∧ inv'.status ≠ .Funded := by
  obtain ⟨s, hs, hp⟩ := exists_of_check (x := staleInvoice.foldlM (exec quietHost) sampleState)
    (p := fun s => decide (∃ inv ∈ s.invoices.get 1, inv.status = .Pending ∧
        inv.createdAt + s.config.expirationDurationSecs < s.now) &&
      check (exec quietHost s ⟨[], .checkExpiration 1⟩) fun s' => (s'.invoices.get 1).isSome)
    (by decide)
  rw [Bool.and_eq_true] at hp
  obtain ⟨inv, hget, hst, htime⟩ := of_decide_eq_true hp.1
  obtain ⟨s', hs', hsome⟩ := exists_of_check hp.2
  obtain ⟨inv', hget'⟩ := Option.isSome_iff_exists.1 hsome
  have hrun : Reaches (exec quietHost) (fun _ _ => True) sampleState s :=
    reaches_of_along .refl (by decide) hs
  have hcheck : Reaches (exec quietHost) (fun t tx =>
      t.config.expirationDurationSecs = s.config.expirationDurationSecs ∧ ChecksExpiry 1 t tx)
      s s' := .next (i := ⟨[], .checkExpiration 1⟩) .refl ⟨rfl, trivial⟩ hs'
  exact ⟨s, s', inv, inv', hs, hs', hget, hst, hget',
    overdue_never_funded 1000 () 1 9 1000000 2592000 7 (by decide) s hrun 1 inv hget hst htime s'
      hcheck inv' hget'⟩

/-- The pool records a funding of the overdue invoice. -/
theorem overdue_invoice_funded :
    ∃ s s' inv inv', staleInvoice.foldlM (exec quietHost) sampleState = .ok s ∧
      exec quietHost s ⟨[9], .recordFunding 1 1000 9⟩ = .ok s' ∧ s.invoices.get 1 = some inv ∧
      inv.status = .Pending ∧ inv.createdAt + s.config.expirationDurationSecs < s.now ∧
      s'.invoices.get 1 = some inv' ∧ inv'.status = .Funded := by
  obtain ⟨s, hs, hp⟩ := exists_of_check (x := staleInvoice.foldlM (exec quietHost) sampleState)
    (p := fun s => decide (∃ inv ∈ s.invoices.get 1, inv.status = .Pending ∧
        inv.createdAt + s.config.expirationDurationSecs < s.now) &&
      check (exec quietHost s ⟨[9], .recordFunding 1 1000 9⟩)
        fun s' => decide (∃ inv ∈ s'.invoices.get 1, inv.status = .Funded))
    (by decide)
  rw [Bool.and_eq_true] at hp
  obtain ⟨inv, hget, hst, htime⟩ := of_decide_eq_true hp.1
  obtain ⟨s', hs', hp'⟩ := exists_of_check hp.2
  obtain ⟨inv', hget', hst'⟩ := of_decide_eq_true hp'
  exact ⟨s, s', inv, inv', hs, hs', hget, hst, htime, hget', hst'⟩

end Astera.Invoices
