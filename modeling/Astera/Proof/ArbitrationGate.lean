import Astera.Invoices.Invariants

/-!
# The arbitration gate

A dispute at or above the threshold belongs to the arbitration contract, and the admin may decide it
only when the arbitration has stalled.  `cancel_invoice` does not ask, and at the end of the `u64`
times the end of the waiting time is cut off.  Apart from these two the gate holds.
-/

namespace Astera.Invoices

open Fallible Machine Transition

variable {W : Type}

/-- The steps by which a disputed invoice may leave its dispute: the decision of the arbitration
contract, and that of the admin once the arbitration has stalled. -/
def Releases (id : ℕ) (s : State W) (tx : Tx W) : Prop :=
  match tx.call with
  | .arbitrationResolveDispute arbitration id' _ =>
    id' = id ∧ s.config.arbitrationContract = some arbitration
  | .resolveDefaultDispute id' _ _ =>
    id' = id ∧ ∀ inv, s.invoices.get id = some inv →
      inv.disputedAt + arbitrationStalledOverrideSecs ≤ s.now
  | _ => False

/-- The steps that do not go around the gate. -/
def KeepsGate (id : ℕ) (s : State W) (tx : Tx W) : Prop :=
  match tx.call with
  | .cancelInvoice id' _ => id' ≠ id
  | .resolveDefaultDispute id' _ _ =>
    id' = id → ∀ inv, s.invoices.get id = some inv →
      inv.disputedAt + arbitrationStalledOverrideSecs < 2 ^ 64 ∨ s.now < 2 ^ 64 - 1
  | _ => True

/-- The dispute is about `threshold` or more. -/
def InDispute (threshold : ℤ) (o : Option Invoice) : Prop :=
  ∃ inv, o = some inv ∧ inv.status = .Disputed ∧ threshold ≤ inv.amount

section Steps

variable {s : State W} {b : Books} {tx : Tx W} {id : ℕ} {inv : Invoice} {a : Action}

theorem not_stalled (hearly : s.now < inv.disputedAt + arbitrationStalledOverrideSecs)
    (hbound : inv.disputedAt + arbitrationStalledOverrideSecs < 2 ^ 64 ∨ s.now < 2 ^ 64 - 1) :
    ¬ saturatingAdd64 inv.disputedAt arbitrationStalledOverrideSecs ≤ s.now := by
  unfold saturatingAdd64
  omega

theorem Makes.not_of_gate {threshold : ℤ} (hmakes : Makes s b tx.call id inv a)
    (hget : s.invoices.get id = some inv) (hst : inv.status = .Disputed)
    (hamount : threshold ≤ inv.amount) (hthreshold : s.config.disputeValueThreshold = threshold)
    (hconfigured : s.config.arbitrationContract.isSome = true) (hheld : ¬ Releases id s tx)
    (hkeeps : KeepsGate id s tx) : False := by
  have harbitrated : s.arbitrated inv := ⟨hthreshold ▸ hamount, hconfigured⟩
  have hstarts := hmakes.starts
  obtain ⟨signers, call⟩ := tx
  cases hmakes with
  | upheld _ harb | dismissed _ harb => exact harb harbitrated
  | reinstated _ _ harb | confirmed _ _ harb =>
    have hearly : s.now < inv.disputedAt + arbitrationStalledOverrideSecs := by
      by_contra hlate
      refine hheld ⟨rfl, fun i hi => ?_⟩
      obtain rfl := Option.some.inj (hi.symm.trans hget)
      omega
    exact not_stalled hearly (hkeeps rfl inv hget) (harb harbitrated)
  | juryReinstated _ _ harb | juryConfirmed _ _ harb => exact hheld ⟨rfl, harb⟩
  | cancelled => exact hkeeps rfl
  | _ => simp [hst, Action.starts] at hstarts

end Steps

section Runs

variable {h : Host W}

/-- A dispute about `threshold` or more that was raised stays until a step that may release it, as
long as an arbitration contract is configured, the threshold is fixed and no step goes around the
gate. -/
theorem arbitration_gate (now : ℕ) (world : W) (admin pool : Address) (maxInvoiceAmount : ℤ)
    (expirationDurationSecs gracePeriodDays : ℕ) (s : State W)
    (hrun : Reaches (exec h) (fun _ _ => True)
      (initialState now world admin pool maxInvoiceAmount expirationDurationSecs gracePeriodDays) s)
    (signers : List Address) (id : ℕ) (borrower respondent : Address) (evidenceHash : Bytes)
    (s₁ : State W)
    (hraise : exec h s ⟨signers, .raiseDispute id borrower evidenceHash respondent⟩ = .ok s₁)
    (threshold : ℤ) (inv : Invoice) (hget : s.invoices.get id = some inv)
    (hamount : threshold ≤ inv.amount) (s' : State W)
    (hrun' : Reaches (exec h) (fun t tx => t.config.disputeValueThreshold = threshold ∧
      t.config.arbitrationContract.isSome = true ∧ ¬ Releases id t tx ∧ KeepsGate id t tx) s₁ s') :
    ∃ inv', s'.invoices.get id = some inv' ∧ inv'.status = .Disputed := by
  have hnum : Numbered s.toBooks := Numbered.empty.run hrun
  obtain ⟨inv₀, world₁, hget₀, -, -, -, hs₁⟩ := raiseDispute_eq_ok hraise
  obtain rfl := Option.some.inj (hget₀.symm.trans hget)
  have hstart : InDispute threshold (s₁.invoices.get id) := by
    rw [hs₁]
    exact ⟨_, Store.get_set_self _ _ _, rfl, hamount⟩
  have hid : id ≤ s₁.invoiceCount := by
    rw [hs₁]
    exact hnum.invoices hget
  have hend := hrun'.invariant (P := fun t => id ≤ t.invoiceCount ∧
    InDispute threshold (t.invoices.get id)) ⟨hid, hstart⟩ ?_
  · obtain ⟨-, inv', hget', hst', -⟩ := hend
    exact ⟨inv', hget', hst'⟩
  · rintro t tx t' ⟨hid, hQ⟩ ⟨hthreshold, hconfigured, hheld, hkeeps⟩ hx
    refine exec_follow (Q := fun o _ => InDispute threshold o) hx hid hQ ?_ ?_
    · rintro b i a hmakes hfirst ⟨i', hi, hst, hle⟩
      obtain rfl := Option.some.inj hi
      exact (hmakes.not_of_gate hfirst hst hle hthreshold hconfigured hheld hkeeps).elim
    · rintro i d hcompleted ⟨i', hi, hst, -⟩
      obtain rfl := Option.some.inj hi
      simp [hst, InvoiceStatus.completed] at hcompleted

end Runs

/-- The arbitration contract is account 7, the threshold 500; an invoice is funded and defaults. -/
def arbitratedDefault : List (Tx Unit) :=
  [⟨[1], .set (.setArbitrationContract 1 7)⟩, ⟨[1], .set (.setDisputeValueThreshold 1 500)⟩,
    billing, ⟨[9], .recordFunding 1 1000 9⟩, ⟨[], .advance 3197800⟩, ⟨[9], .markDefaulted 1 9⟩]

def raising : Tx Unit := ⟨[3], .raiseDispute 1 3 (bytes "receipt") 6⟩

theorem arbitration_gate_waiting :
    ∃ s s₁ s' inv', arbitratedDefault.foldlM (exec quietHost) sampleState = .ok s ∧
      exec quietHost s raising = .ok s₁ ∧ exec quietHost s₁ ⟨[], .advance 5800000⟩ = .ok s' ∧
      s'.invoices.get 1 = some inv' ∧ inv'.status = .Disputed := by
  obtain ⟨s, hs, hp⟩ := exists_of_check (x := arbitratedDefault.foldlM (exec quietHost) sampleState)
    (p := fun s => decide (∃ inv ∈ s.invoices.get 1, (500 : ℤ) ≤ inv.amount) &&
      check (exec quietHost s raising) fun s₁ =>
        decide (s₁.config.disputeValueThreshold = 500 ∧
          s₁.config.arbitrationContract.isSome = true) &&
          check (exec quietHost s₁ ⟨[], .advance 5800000⟩) fun _ => true)
    (by decide)
  rw [Bool.and_eq_true] at hp
  obtain ⟨inv, hget, hamount⟩ := of_decide_eq_true hp.1
  obtain ⟨s₁, hs₁, hp₁⟩ := exists_of_check hp.2
  rw [Bool.and_eq_true] at hp₁
  obtain ⟨hthreshold, hconfigured⟩ := of_decide_eq_true hp₁.1
  obtain ⟨s', hs', -⟩ := exists_of_check hp₁.2
  have hrun : Reaches (exec quietHost) (fun _ _ => True) sampleState s :=
    reaches_of_along .refl (by decide) hs
  have hwait : Reaches (exec quietHost) (fun t tx => t.config.disputeValueThreshold = 500 ∧
      t.config.arbitrationContract.isSome = true ∧ ¬ Releases 1 t tx ∧ KeepsGate 1 t tx) s₁ s' :=
    .next (i := ⟨[], .advance 5800000⟩) .refl ⟨hthreshold, hconfigured, id, trivial⟩ hs'
  obtain ⟨inv', hget', hst'⟩ := arbitration_gate 1000 () 1 9 1000000 2592000 7 s hrun [3] 1 3 6
    (bytes "receipt") s₁ hs₁ 500 inv hget hamount s' hwait
  exact ⟨s, s₁, s', inv', hs, hs₁, hs', hget', hst'⟩

/-- The admin cancels the disputed invoice at once. -/
theorem admin_cancels_around_gate :
    ∃ s s₁ inv inv', (arbitratedDefault ++ [raising]).foldlM (exec quietHost) sampleState = .ok s ∧
      s.config.arbitrationContract = some 7 ∧ s.invoices.get 1 = some inv ∧
      inv.status = .Disputed ∧ s.config.disputeValueThreshold ≤ inv.amount ∧
      s.now < inv.disputedAt + arbitrationStalledOverrideSecs ∧
      exec quietHost s ⟨[1], .cancelInvoice 1 1⟩ = .ok s₁ ∧ s₁.invoices.get 1 = some inv' ∧
      inv'.status = .Cancelled := by
  obtain ⟨s, hs, hp⟩ := exists_of_check
    (x := (arbitratedDefault ++ [raising]).foldlM (exec quietHost) sampleState)
    (p := fun s => decide (s.config.arbitrationContract = some 7 ∧
        ∃ inv ∈ s.invoices.get 1, inv.status = .Disputed ∧
          s.config.disputeValueThreshold ≤ inv.amount ∧
          s.now < inv.disputedAt + arbitrationStalledOverrideSecs) &&
      check (exec quietHost s ⟨[1], .cancelInvoice 1 1⟩)
        fun s₁ => decide (∃ inv ∈ s₁.invoices.get 1, inv.status = .Cancelled))
    (by decide)
  rw [Bool.and_eq_true] at hp
  obtain ⟨harb, inv, hget, hst, hamount, htime⟩ := of_decide_eq_true hp.1
  obtain ⟨s₁, hs₁, hp₁⟩ := exists_of_check hp.2
  obtain ⟨inv', hget', hst'⟩ := of_decide_eq_true hp₁
  exact ⟨s, s₁, inv, inv', hs, harb, hget, hst, hamount, htime, hs₁, hget', hst'⟩

end Astera.Invoices
