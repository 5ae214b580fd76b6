import Astera.Invoices.Invariants

/-!
# The course of an invoice

Paid, cancelled and expired invoices stay as they are.  A funded invoice is not pending or verified
again, unless `resolve_dispute` mistakes the dispute of its default.  When every funding happens
with oracle verification required, every funded invoice is verified by the oracles.
-/

namespace Astera.Invoices

open Fallible Machine Transition

variable {W : Type}

/-! ## The three invariants -/

def InvoiceStatus.final : InvoiceStatus → Bool
  | .Paid | .Cancelled | .Expired => true
  | _ => false

/-- The invoice was funded once: it is funded or ended, or its default is disputed. -/
def WasFunded (o : Option Invoice) (d : Option DisputeRecord) : Prop :=
  ∀ inv, o = some inv →
    inv.status = .Funded ∨ inv.status = .Paid ∨ inv.status = .Cancelled ∨
      inv.status = .Defaulted ∨ (inv.status = .Disputed ∧ d ≠ none)

/-- The invoice is verified by the oracles if it was funded. -/
def VerifiedWhenFunded (inv : Invoice) (d : Option DisputeRecord) : Prop :=
  inv.status = .Funded ∨ inv.status = .Defaulted ∨ d ≠ none → inv.oracleVerified = true

def Call.funds : Call W → Bool
  | .markFunded _ _ | .recordFunding _ _ _ => true
  | _ => false

/-- `resolve_dispute` for the owner is not used on the dispute of a default. -/
def RespectsDefaults (s : State W) (tx : Tx W) : Prop :=
  match tx.call with
  | .resolveDispute id _ .InFavorOfSME => s.disputes id = none
  | _ => True

section Steps

variable {s : State W} {call : Call W} {b : Books} {id : ℕ} {inv : Invoice} {a : Action}

theorem Makes.not_final (hmakes : Makes s b call id inv a) : inv.status.final = false := by
  have hstarts := hmakes.starts
  cases a <;> cases hst : inv.status <;> simp_all [Action.starts, InvoiceStatus.final]

theorem WasFunded.move {tx : Tx W} (hmakes : Makes s b tx.call id inv a)
    (hrespects : RespectsDefaults s tx)
    (hQ : WasFunded (some inv) (s.disputes id)) :
    WasFunded (some (a.rewrite s.now inv)) (a.dispute s.now (s.disputes id)) := by
  have hbefore := hQ inv rfl
  have hstatus := Action.rewrite_status s.now hmakes.starts
  rintro inv' hinv'
  obtain rfl := Option.some.inj hinv'
  rw [hstatus]
  obtain ⟨signers, call⟩ := tx
  cases hmakes with
  | upheld hst =>
    -- the dispute of a default is there, so the condition forbids this call
    simp only [RespectsDefaults] at hrespects
    simp [hst, hrespects] at hbefore
  | contested => simp [Action.target, Action.dispute]
  | markedFunded hst | recordedFunding hst => simp [Action.target]
  | expired htime | expiredInBatch htime =>
    simp only [State.overdue, Bool.and_eq_true, decide_eq_true_eq] at htime
    simp [htime.1] at hbefore
  | approved hst | rejected hst | consensusApproved hst | consensusRejected hst =>
    simp [hst] at hbefore
  | _ => simp [Action.target]

theorem oracleVerified_reinstate (now dueDate : ℕ) (inv : Invoice) :
    (Action.rewrite now inv (.reinstate dueDate)).oracleVerified = inv.oracleVerified := rfl

theorem VerifiedWhenFunded.move {tx : Tx W} (hmakes : Makes s b tx.call id inv a)
    (hflag : tx.call.funds = true → s.config.requireOracleVerification = true)
    (hR : VerifiedWhenFunded inv (b.disputes id)) :
    VerifiedWhenFunded (a.rewrite s.now inv) (a.dispute s.now (b.disputes id)) := by
  obtain ⟨signers, call⟩ := tx
  unfold VerifiedWhenFunded at hR ⊢
  cases hmakes with
  | markedFunded _ _ horacle | recordedFunding _ horacle =>
    intro _
    exact horacle (hflag rfl)
  | reinstated _ hrecord | juryReinstated _ hrecord =>
    intro _
    rw [oracleVerified_reinstate]
    exact hR (.inr (.inr (Option.isSome_iff_ne_none.1 hrecord)))
  | confirmed _ hrecord | juryConfirmed _ hrecord =>
    intro _
    exact hR (.inr (.inr (Option.isSome_iff_ne_none.1 hrecord)))
  | approved | consensusApproved | upheld => exact fun _ => rfl
  | contested hst => exact fun _ => hR (.inr (.inl hst))
  | toppedUp hst | paid hst | defaulted hst | returned hst | extensionRequested hst | extended hst
  | graceSet hst => exact fun _ => hR (.inl hst)
  | _ =>
    -- the status that is left is none of a funded invoice, so there is a dispute
    intro hfunded
    exact hR (.inr (.inr (by simpa [Action.rewrite, Action.dispute] using hfunded)))

end Steps

/-! ## Runs -/

section Runs

variable {h : Host W} {s s' : State W}

theorem final_of_reaches {id : ℕ} {st : InvoiceStatus} (hfinal : st.final = true)
    (hid : id ≤ s.invoiceCount) (hs : ∀ inv, s.invoices.get id = some inv → inv.status = st)
    (hrun : Reaches (exec h) (fun _ _ => True) s s') :
    ∀ inv, s'.invoices.get id = some inv → inv.status = st := by
  refine (hrun.invariant (P := fun t => id ≤ t.invoiceCount ∧
    ∀ inv, t.invoices.get id = some inv → inv.status = st) ⟨hid, hs⟩ ?_).2
  rintro t tx t' ⟨hid, ht⟩ - hx
  refine exec_follow (Q := fun o _ => ∀ inv, o = some inv → inv.status = st) hx hid ht ?_ ?_
  · intro b inv a hmakes _ hQ
    have hopen := hmakes.not_final
    rw [hQ inv rfl, hfinal] at hopen
    cases hopen
  · intro inv d _ _ inv' hnone
    cases hnone

theorem wasFunded_of_reaches {id : ℕ} (hid : id ≤ s.invoiceCount)
    (hs : WasFunded (s.invoices.get id) (s.disputes id))
    (hrun : Reaches (exec h) RespectsDefaults s s') :
    WasFunded (s'.invoices.get id) (s'.disputes id) := by
  refine (hrun.invariant (P := fun t => id ≤ t.invoiceCount ∧
    WasFunded (t.invoices.get id) (t.disputes id)) ⟨hid, hs⟩ ?_).2
  rintro t tx t' ⟨hid, ht⟩ hrespects hx
  refine exec_follow (Q := WasFunded) hx hid ht ?_ ?_
  · intro b inv a hmakes _ hQ
    exact WasFunded.move hmakes hrespects hQ
  · intro inv d _ _ inv' hnone
    cases hnone

theorem verifiedWhenFunded_of_reaches {s₀ : State W} (hs₀ : s₀.toBooks = {})
    (hrun : Reaches (exec h) (fun t tx => tx.call.funds = true →
      t.config.requireOracleVerification = true) s₀ s) :
    ∀ id inv, s.invoices.get id = some inv → VerifiedWhenFunded inv (s.disputes id) := by
  refine (hrun.invariant (P := fun t => Numbered t.toBooks ∧ ∀ id inv,
    t.invoices.get id = some inv → VerifiedWhenFunded inv (t.disputes id)) ?_ ?_).2
  · rw [hs₀]
    exact ⟨Numbered.empty, fun id inv hget => by simp at hget⟩
  · rintro t tx t' ⟨hnum, ht⟩ hflag hx
    refine ⟨hnum.call hx, exec_all hx hnum ht ?_ ?_⟩
    · intro b id inv a hmakes hR
      exact VerifiedWhenFunded.move hmakes hflag hR
    · intro id owner debtor amount dueDate description hash uri _ _
      unfold VerifiedWhenFunded State.newInvoice
      split <;> simp

/-- From every reachable state on: what is paid, cancelled or expired stays so; what is funded is not
pending or verified again, as long as `resolve_dispute` for the owner is not used on the dispute of a
default; and when every funding of the run required oracle verification, what is funded is
verified. -/
theorem invoice_lifecycle (now : ℕ) (world : W) (admin pool : Address) (maxInvoiceAmount : ℤ)
    (expirationDurationSecs gracePeriodDays : ℕ) (s : State W)
    (hrun : Reaches (exec h) (fun _ _ => True)
      (initialState now world admin pool maxInvoiceAmount expirationDurationSecs gracePeriodDays)
      s) :
    (∀ s', Reaches (exec h) (fun _ _ => True) s s' → ∀ id inv inv',
      s.invoices.get id = some inv → inv.status.final = true → s'.invoices.get id = some inv' →
        inv'.status = inv.status) ∧
    (∀ s', Reaches (exec h) RespectsDefaults s s' → ∀ id inv inv',
      s.invoices.get id = some inv → inv.status = .Funded → s'.invoices.get id = some inv' →
        inv'.status ≠ .Pending ∧ inv'.status ≠ .Verified) ∧
    (Reaches (exec h) (fun t tx => tx.call.funds = true →
        t.config.requireOracleVerification = true)
      (initialState now world admin pool maxInvoiceAmount expirationDurationSecs gracePeriodDays)
      s → ∀ id inv, s.invoices.get id = some inv → inv.status = .Funded →
        inv.oracleVerified = true) := by
  have hnum : Numbered s.toBooks := Numbered.empty.run hrun
  refine ⟨?_, ?_, ?_⟩
  · intro s' hrun' id inv inv' hget hfinal hget'
    refine final_of_reaches hfinal (hnum.invoices hget) (fun i hi => ?_) hrun' inv' hget'
    rw [Option.some.inj (hi.symm.trans hget)]
  · intro s' hrun' id inv inv' hget hst hget'
    have hs : WasFunded (s.invoices.get id) (s.disputes id) := by
      intro i hi
      rw [Option.some.inj (hi.symm.trans hget)]
      exact .inl hst
    have hs' := wasFunded_of_reaches (hnum.invoices hget) hs hrun' inv' hget'
    obtain hst' | hst' | hst' | hst' | ⟨hst', -⟩ := hs' <;> simp [hst']
  · intro hflags id inv hget hst
    exact verifiedWhenFunded_of_reaches rfl hflags id inv hget (.inl hst)

end Runs

/-- The oracle, account 5, verifies an invoice that is then funded. -/
def verifiedThenFunded : List (Tx Unit) :=
  [⟨[1], .set (.setOracle 1 5)⟩, ⟨[1], .set (.setOracleVerifiedFundingOnly 1 true)⟩, billing,
    ⟨[5], .verifyInvoice 1 5 true [] (bytes "0a1b")⟩, ⟨[9], .recordFunding 1 1000 9⟩]

theorem invoice_lifecycle_paid :
    ∃ s s' inv inv', verifiedThenFunded.foldlM (exec quietHost) sampleState = .ok s ∧
      exec quietHost s ⟨[9], .markPaid 1 9⟩ = .ok s' ∧ s.invoices.get 1 = some inv ∧
      inv.status = .Funded ∧ inv.oracleVerified = true ∧ s'.invoices.get 1 = some inv' ∧
      inv'.status ≠ .Pending ∧ inv'.status ≠ .Verified := by
  obtain ⟨s, hs, hp⟩ := exists_of_check
    (x := verifiedThenFunded.foldlM (exec quietHost) sampleState)
    (p := fun s => decide (∃ inv ∈ s.invoices.get 1, inv.status = .Funded) &&
      check (exec quietHost s ⟨[9], .markPaid 1 9⟩) fun s' => (s'.invoices.get 1).isSome)
    (by decide)
  rw [Bool.and_eq_true] at hp
  obtain ⟨inv, hget, hst⟩ := of_decide_eq_true hp.1
  obtain ⟨s', hs', hsome⟩ := exists_of_check hp.2
  obtain ⟨inv', hget'⟩ := Option.isSome_iff_exists.1 hsome
  have hrun : Reaches (exec quietHost) (fun _ _ => True) sampleState s :=
    reaches_of_along .refl (by decide) hs
  have hflags : Reaches (exec quietHost) (fun t tx => tx.call.funds = true →
      t.config.requireOracleVerification = true) sampleState s :=
    reaches_of_along .refl (by decide) hs
  have hpaid : Reaches (exec quietHost) RespectsDefaults s s' :=
    .next (i := ⟨[9], .markPaid 1 9⟩) .refl trivial hs'
  obtain ⟨-, hfunded, hverified⟩ := invoice_lifecycle 1000 () 1 9 1000000 2592000 7 s hrun
  exact ⟨s, s', inv, inv', hs, hs', hget, hst, hverified hflags 1 inv hget hst, hget',
    hfunded s' hpaid 1 inv inv' hget hst hget'⟩

/-- An invoice is funded, defaults, and its owner disputes the default. -/
def disputedDefault : List (Tx Unit) :=
  [billing, ⟨[9], .recordFunding 1 1000 9⟩, ⟨[], .advance 3197800⟩, ⟨[9], .markDefaulted 1 9⟩,
    ⟨[3], .raiseDispute 1 3 (bytes "receipt") 6⟩]

/-- The oracle resolves the dispute as one of the verification. -/
def resolvedAsVerification : List (Tx Unit) :=
  [⟨[1], .set (.setOracle 1 5)⟩, ⟨[5], .resolveDispute 1 5 .InFavorOfSME⟩]

/-- The invoice was funded, is verified again after its default, and the pool funds it a second
time. -/
theorem disputed_default_funded_again :
    ∃ s₁ s₂ s₃ inv₁ inv₂ inv₃, (disputedDefault.take 2).foldlM (exec quietHost) sampleState = .ok s₁ ∧
      (disputedDefault.drop 2 ++ resolvedAsVerification).foldlM (exec quietHost) s₁ = .ok s₂ ∧
      exec quietHost s₂ ⟨[9], .recordFunding 1 1000 9⟩ = .ok s₃ ∧
      s₁.invoices.get 1 = some inv₁ ∧ inv₁.status = .Funded ∧
      s₂.invoices.get 1 = some inv₂ ∧ inv₂.status = .Verified ∧
      s₃.invoices.get 1 = some inv₃ ∧ inv₃.status = .Funded := by
  obtain ⟨s₁, hs₁, hp⟩ := exists_of_check
    (x := (disputedDefault.take 2).foldlM (exec quietHost) sampleState)
    (p := fun s₁ => decide (∃ inv ∈ s₁.invoices.get 1, inv.status = .Funded) &&
      check ((disputedDefault.drop 2 ++ resolvedAsVerification).foldlM (exec quietHost) s₁)
        fun s₂ => decide (∃ inv ∈ s₂.invoices.get 1, inv.status = .Verified) &&
          check (exec quietHost s₂ ⟨[9], .recordFunding 1 1000 9⟩)
            fun s₃ => decide (∃ inv ∈ s₃.invoices.get 1, inv.status = .Funded))
    (by decide)
  rw [Bool.and_eq_true] at hp
  obtain ⟨inv₁, hget₁, hst₁⟩ := of_decide_eq_true hp.1
  obtain ⟨s₂, hs₂, hp₂⟩ := exists_of_check hp.2
  rw [Bool.and_eq_true] at hp₂
  obtain ⟨inv₂, hget₂, hst₂⟩ := of_decide_eq_true hp₂.1
  obtain ⟨s₃, hs₃, hp₃⟩ := exists_of_check hp₂.2
  obtain ⟨inv₃, hget₃, hst₃⟩ := of_decide_eq_true hp₃
  exact ⟨s₁, s₂, s₃, inv₁, inv₂, inv₃, hs₁, hs₂, hs₃, hget₁, hst₁, hget₂, hst₂, hget₃, hst₃⟩

end Astera.Invoices
