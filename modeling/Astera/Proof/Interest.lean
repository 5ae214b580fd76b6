import Astera.Pool.Interest
import Astera.Pool.System

/-!
# Interest over time

Compound interest is never less than simple interest.  Within a day interest never falls.  At
midnight the growth factor of one more day replaces the linear accrual of the day that ends; the
factor is ahead by the yield, and the chain loses at most one unit in each of its squarings.

Compound interest over `days` whole days traps when the yield is above `yieldLimit days`; in every
other case it returns, or fails with `AmountOverflow`.
-/

namespace Astera.Pool

open Fallible Machine FixedPoint

variable {principal yieldBps : ℕ}

theorem simple_le_accrued (principal yieldBps : ℕ) {elapsedSecs : ℕ} (ht : elapsedSecs < 2 ^ 64) :
    principal * interestDenominator + principal * yieldBps * elapsedSecs ≤
      accrued principal yieldBps elapsedSecs := by
  have hgrowth := linear_le_growthFactor yieldBps (days_lt ht)
  have hday : interestDenominator ≤ growthFactor yieldBps (elapsedSecs / secsPerDay) :=
    interestDenominator_le_growthFactor yieldBps (days_lt ht)
  have hpart : principal * (yieldBps * (elapsedSecs % secsPerDay)) ≤
      principal * growthFactor yieldBps (elapsedSecs / secsPerDay) *
        (yieldBps * (elapsedSecs % secsPerDay)) / interestDenominator := by
    rw [Nat.le_div_iff_mul_le interestDenominator_pos]
    calc principal * (yieldBps * (elapsedSecs % secsPerDay)) * interestDenominator
        = principal * interestDenominator * (yieldBps * (elapsedSecs % secsPerDay)) := by ring
      _ ≤ _ := Nat.mul_le_mul_right _ (Nat.mul_le_mul_left _ hday)
  have hsplit : elapsedSecs = elapsedSecs / secsPerDay * secsPerDay + elapsedSecs % secsPerDay :=
    (Nat.div_add_mod' elapsedSecs secsPerDay).symm
  calc principal * interestDenominator + principal * yieldBps * elapsedSecs
      = principal * interestDenominator + principal * yieldBps *
          (elapsedSecs / secsPerDay * secsPerDay + elapsedSecs % secsPerDay) := by rw [← hsplit]
    _ = principal * (interestDenominator + elapsedSecs / secsPerDay * (yieldBps * secsPerDay)) +
          principal * (yieldBps * (elapsedSecs % secsPerDay)) := by ring
    _ ≤ accrued principal yieldBps elapsedSecs :=
        Nat.add_le_add (Nat.mul_le_mul_left _ hgrowth) hpart

/-- Compound interest is never less than simple interest. -/
theorem simple_le_compound (principal yieldBps elapsedSecs simple compound : ℕ)
    (ht : elapsedSecs < 2 ^ 64)
    (hs : calculateInterest principal yieldBps elapsedSecs false = .ok simple)
    (hc : calculateInterest principal yieldBps elapsedSecs true = .ok compound) :
    simple ≤ compound := by
  obtain rfl := calculateInterest_simple hs
  obtain ⟨-, -, rfl⟩ := calculateInterest_compound ht hc
  have hle := simple_le_accrued principal yieldBps ht
  apply Nat.div_le_div_right
  omega

theorem simple_le_compound_year :
    ∃ simple compound, calculateInterest (10 ^ 11) 800 31536000 false = .ok simple ∧
      calculateInterest (10 ^ 11) 800 31536000 true = .ok compound ∧ simple ≤ compound := by
  obtain ⟨simple, hs, -⟩ := exists_of_check (x := calculateInterest (10 ^ 11) 800 31536000 false)
    (p := fun _ => true) (by decide)
  obtain ⟨compound, hc, -⟩ := exists_of_check (x := calculateInterest (10 ^ 11) 800 31536000 true)
    (p := fun _ => true) (by decide)
  exact ⟨simple, compound, hs, hc,
    simple_le_compound (10 ^ 11) 800 31536000 simple compound (by norm_num) hs hc⟩

/-- The growth factor of one more day is not less than the accrual of the last second before it,
where the number of days has no more bits than the yield has basis points. -/
theorem growthFactor_succ {days bits : ℕ} (hbits : bits ≤ yieldBps) (hmax : bits ≤ 64)
    (hdays : days + 1 < 2 ^ bits) :
    growthFactor yieldBps days * (interestDenominator + yieldBps * (secsPerDay - 1)) ≤
      growthFactor yieldBps (days + 1) * interestDenominator := by
  have hahead : interestDenominator * (interestDenominator + yieldBps * (secsPerDay - 1)) +
      yieldBps * interestDenominator ≤ dailyGrowth yieldBps * interestDenominator := by
    apply le_of_eq
    unfold dailyGrowth secsPerDay
    ring
  have hfew : ∀ exp < 2 ^ bits, growthFactor yieldBps exp =
      powLoop interestDenominator bits (dailyGrowth yieldBps) exp interestDenominator := by
    intro exp hexp
    obtain ⟨k, hk⟩ := Nat.exists_eq_add_of_le hmax
    unfold growthFactor
    rw [hk]
    exact powLoop_add hexp k
  rw [hfew days (by omega), hfew (days + 1) hdays]
  exact powLoop_succ_ahead interestDenominator_pos (interestDenominator_le_dailyGrowth yieldBps)
    hdays hbits hahead

theorem growthFactor_mono {days days' bits : ℕ} (hbits : bits ≤ yieldBps) (hmax : bits ≤ 64)
    (hle : days ≤ days') (hdays : days' < 2 ^ bits) :
    growthFactor yieldBps days ≤ growthFactor yieldBps days' := by
  induction days', hle using Nat.le_induction with
  | base => exact le_rfl
  | succ n _ ih =>
    have hnext := growthFactor_succ hbits hmax hdays
    have hone : growthFactor yieldBps n * interestDenominator ≤
        growthFactor yieldBps n * (interestDenominator + yieldBps * (secsPerDay - 1)) :=
      Nat.mul_le_mul_left _ (Nat.le_add_right _ _)
    exact (ih (by omega)).trans
      (Nat.le_of_mul_le_mul_right (hone.trans hnext) interestDenominator_pos)

theorem Compounds.days_lt {days : ℕ} (hc : Compounds yieldBps days) (hy : 22 ≤ yieldBps) :
    days < 2 ^ 22 := by
  by_contra hdays
  have hne : days ≠ 0 := by
    rintro rfl
    exact hdays (by norm_num)
  have hlog : 22 ≤ days.log2 := (Nat.le_log2 hne).mpr (by omega)
  have hlast : 2 ^ 64 ≤ squarings interestDenominator 22 (dailyGrowth 22) := by decide
  have hmore : squarings interestDenominator 22 (dailyGrowth 22) ≤
      squarings interestDenominator days.log2 (dailyGrowth yieldBps) :=
    (squarings_mono 22 (dailyGrowth_mono hy)).trans (squarings_le_of_le interestDenominator_pos
      (interestDenominator_le_dailyGrowth yieldBps) hlog)
  exact absurd (hc.resolve_left hne) (hlast.trans hmore).not_gt

/-! ## Amounts over time -/

theorem accrued_mono_of_day {t₁ t₂ : ℕ} (hle : t₁ ≤ t₂)
    (hday : t₁ / secsPerDay = t₂ / secsPerDay) :
    accrued principal yieldBps t₁ ≤ accrued principal yieldBps t₂ := by
  have hsecs : t₁ % secsPerDay ≤ t₂ % secsPerDay := by
    have h₁ := Nat.div_add_mod t₁ secsPerDay
    have h₂ := Nat.div_add_mod t₂ secsPerDay
    rw [hday] at h₁
    omega
  unfold accrued
  rw [hday]
  apply Nat.add_le_add_left
  exact Nat.div_le_div_right (Nat.mul_le_mul_left _ (Nat.mul_le_mul_left _ hsecs))

theorem accrued_mul_le (t : ℕ) :
    accrued principal yieldBps t * interestDenominator ≤
      principal * (growthFactor yieldBps (t / secsPerDay) *
        (interestDenominator + yieldBps * (secsPerDay - 1))) := by
  have hsecs : t % secsPerDay ≤ secsPerDay - 1 :=
    Nat.le_sub_one_of_lt (Nat.mod_lt t (by decide))
  unfold accrued
  generalize growthFactor yieldBps (t / secsPerDay) = factor
  calc (principal * factor +
        principal * factor * (yieldBps * (t % secsPerDay)) / interestDenominator) *
          interestDenominator
      = principal * factor * interestDenominator + principal * factor *
          (yieldBps * (t % secsPerDay)) / interestDenominator * interestDenominator := by ring
    _ ≤ principal * factor * interestDenominator + principal * factor *
          (yieldBps * (t % secsPerDay)) := Nat.add_le_add_left (Nat.div_mul_le_self _ _) _
    _ = principal * (factor * (interestDenominator + yieldBps * (t % secsPerDay))) := by ring
    _ ≤ _ := Nat.mul_le_mul_left _ (Nat.mul_le_mul_left _
        (Nat.add_le_add_left (Nat.mul_le_mul_left _ hsecs) _))

theorem accrued_mono_of_bits {t₁ t₂ bits : ℕ} (hbits : bits ≤ yieldBps) (hmax : bits ≤ 64)
    (hlt : t₁ / secsPerDay < t₂ / secsPerDay) (hdays : t₂ / secsPerDay < 2 ^ bits) :
    accrued principal yieldBps t₁ ≤ accrued principal yieldBps t₂ := by
  have hday : t₁ / secsPerDay + 1 < 2 ^ bits := (Nat.succ_le_of_lt hlt).trans_lt hdays
  have hnext := growthFactor_succ hbits hmax hday
  have hmono := growthFactor_mono hbits hmax (Nat.succ_le_of_lt hlt) hdays
  apply Nat.le_of_mul_le_mul_right _ interestDenominator_pos
  calc accrued principal yieldBps t₁ * interestDenominator
      ≤ principal * (growthFactor yieldBps (t₁ / secsPerDay) *
          (interestDenominator + yieldBps * (secsPerDay - 1))) := accrued_mul_le t₁
    _ ≤ principal * (growthFactor yieldBps (t₁ / secsPerDay + 1) * interestDenominator) :=
        Nat.mul_le_mul_left _ hnext
    _ = principal * growthFactor yieldBps (t₁ / secsPerDay + 1) * interestDenominator := by ring
    _ ≤ accrued principal yieldBps t₂ * interestDenominator :=
        Nat.mul_le_mul_right _ ((Nat.mul_le_mul_left _ hmono).trans (Nat.le_add_right _ _))

theorem accrued_zero (t : ℕ) : accrued principal 0 t = principal * interestDenominator := by
  have hone : dailyGrowth 0 = interestDenominator := by simp [dailyGrowth]
  unfold accrued growthFactor
  rw [hone, powLoop_one interestDenominator_pos]
  simp

/-- Rounding to whole units keeps the order of two amounts exactly when the first is the greater by
no more than what its rounding drops. -/
theorem rounded_le_iff {one a b c : ℕ} (hone : 0 < one) (ha : c * one ≤ a) (hb : c * one ≤ b) :
    (a - c * one + one / 2) / one ≤ (b - c * one + one / 2) / one ↔
      a ≤ b + (a + one / 2) % one := by
  obtain ⟨a, rfl⟩ := Nat.exists_eq_add_of_le ha
  obtain ⟨b, rfl⟩ := Nat.exists_eq_add_of_le hb
  have hmod : (c * one + a + one / 2) % one = (a + one / 2) % one := by
    rw [Nat.add_assoc, Nat.add_comm, Nat.add_mul_mod_self_right]
  have hsplit := Nat.div_add_mod' (a + one / 2) one
  rw [hmod, Nat.add_sub_cancel_left, Nat.add_sub_cancel_left, Nat.le_div_iff_mul_le hone]
  omega

/-- The amounts at two times compare as the amounts in whole units do: the first is the greater by
no more than what its rounding drops. -/
def LossRoundedOff (principal yieldBps t₁ t₂ : ℕ) : Prop :=
  accrued principal yieldBps t₁ ≤ accrued principal yieldBps t₂ +
    (accrued principal yieldBps t₁ + interestDenominator / 2) % interestDenominator

/-- Interest does not fall where it is simple, within a day, without a yield, from 22 basis points
on, and over fewer than `2 ^ yieldBps` days.  Elsewhere it does not fall exactly when the loss in
the growth factor is rounded off. -/
theorem interest_mono_iff (principal yieldBps t₁ t₂ interest₁ interest₂ : ℕ) (isCompound : Bool)
    (hle : t₁ ≤ t₂) (ht : t₂ < 2 ^ 64)
    (h₁ : calculateInterest principal yieldBps t₁ isCompound = .ok interest₁)
    (h₂ : calculateInterest principal yieldBps t₂ isCompound = .ok interest₂) :
    interest₁ ≤ interest₂ ↔ isCompound = false ∨ t₁ / secsPerDay = t₂ / secsPerDay ∨
      yieldBps = 0 ∨ 22 ≤ yieldBps ∨ t₂ / secsPerDay < 2 ^ yieldBps ∨
        LossRoundedOff principal yieldBps t₁ t₂ := by
  cases isCompound with
  | false =>
    obtain rfl := calculateInterest_simple h₁
    obtain rfl := calculateInterest_simple h₂
    refine iff_of_true ?_ (.inl rfl)
    exact Nat.div_le_div_right (Nat.add_le_add_right (Nat.mul_le_mul_left _ hle) _)
  | true =>
    obtain ⟨hle₁, -, rfl⟩ := calculateInterest_compound (hle.trans_lt ht) h₁
    obtain ⟨hle₂, hcompounds, rfl⟩ := calculateInterest_compound ht h₂
    rw [rounded_le_iff interestDenominator_pos hle₁ hle₂]
    constructor
    · intro hoff
      exact .inr (.inr (.inr (.inr (.inr hoff))))
    · -- each of the conditions but the last keeps the amounts in order
      have hmono : accrued principal yieldBps t₁ ≤ accrued principal yieldBps t₂ →
          LossRoundedOff principal yieldBps t₁ t₂ := fun h => h.trans (Nat.le_add_right _ _)
      rcases (Nat.div_le_div_right hle).eq_or_lt with hday | hlt
      · exact fun _ => hmono (accrued_mono_of_day hle hday)
      · rintro (hsimple | hday | rfl | hy | hdays | hoff)
        · cases hsimple
        · exact absurd hday hlt.ne
        · apply hmono
          rw [accrued_zero, accrued_zero]
        · exact hmono (accrued_mono_of_bits hy (by norm_num) hlt (hcompounds.days_lt hy))
        · rcases Nat.le_total 22 yieldBps with hy | hy
          · exact hmono (accrued_mono_of_bits hy (by norm_num) hlt (hcompounds.days_lt hy))
          · exact hmono (accrued_mono_of_bits le_rfl (by omega) hlt hdays)
        · exact hoff

theorem interest_mono_iff_midnight :
    ∃ before after, calculateInterest (10 ^ 11) 800 86399 true = .ok before ∧
      calculateInterest (10 ^ 11) 800 86400 true = .ok after ∧ before ≤ after := by
  obtain ⟨before, h₁, -⟩ := exists_of_check (x := calculateInterest (10 ^ 11) 800 86399 true)
    (p := fun _ => true) (by decide)
  obtain ⟨after, h₂, -⟩ := exists_of_check (x := calculateInterest (10 ^ 11) 800 86400 true)
    (p := fun _ => true) (by decide)
  refine ⟨before, after, h₁, h₂, ?_⟩
  rw [interest_mono_iff (10 ^ 11) 800 86399 86400 before after true (by norm_num) (by norm_num)
    h₁ h₂]
  exact .inr (.inr (.inr (.inl (by norm_num))))

/-- One basis point on 100 000 USDC: a unit of interest is lost at the midnight after 49 days. -/
theorem interest_falls_at_midnight :
    ¬ ∀ (principal yieldBps t₁ t₂ interest₁ interest₂ : ℕ) (isCompound : Bool), t₁ ≤ t₂ →
      calculateInterest principal yieldBps t₁ isCompound = .ok interest₁ →
      calculateInterest principal yieldBps t₂ isCompound = .ok interest₂ →
      interest₁ ≤ interest₂ := by
  intro hmono
  have hle := hmono (10 ^ 12) 1 (49 * 86400 - 1) (49 * 86400) 13424725 13424724 true (by norm_num)
    (by decide) (by decide)
  omega

/-!
## When interest traps

A record that has accrued for too long is stuck: what is due on it cannot be computed, and it can
neither be repaid, nor be liquidated, nor be cleaned up.
-/

def FundedInvoice.InterestTraps (record : FundedInvoice) (compound : Bool) (now : ℕ) : Prop :=
  record.fundedAt ≤ accrualEnd record now ∧
    Pool.InterestTraps (toU 128 record.principal) record.lockedYieldBps
      (accrualEnd record now - record.fundedAt) compound

theorem accrualEnd_le (record : FundedInvoice) (now : ℕ) :
    accrualEnd record now ≤ record.dueDate := by
  unfold accrualEnd
  split_ifs <;> omega

theorem calculateTotalDue_eq_error {record : FundedInvoice} {compound : Bool} {now : ℕ} {f : Fault}
    (hyield : record.lockedYieldBps < 2 ^ 32) (hdue : record.dueDate < 2 ^ 64)
    (hd : calculateTotalDue record compound now = .error f) :
    record.InterestTraps compound now ∧ f = overflowTrap ∨
      ¬ record.InterestTraps compound now ∧ f = overflowErr := by
  have hend := accrualEnd_le record now
  have helapsed : accrualEnd record now - record.fundedAt < 2 ^ 64 := by omega
  unfold FundedInvoice.InterestTraps
  rw [← calculateInterest_traps_iff hyield helapsed]
  unfold calculateTotalDue u128ToI128 at hd
  simp only [bind_eq_error, require_eq_error, okOr_eq_error, require_eq_ok, exists_unit] at hd
  obtain ⟨hlt, rfl⟩ | ⟨hfunded, hinterest | ⟨interest, hinterest, hrest⟩⟩ := hd
  · exact .inr ⟨fun htraps => hlt htraps.1, rfl⟩
  · obtain ⟨htraps, rfl⟩ | ⟨hnot, rfl⟩ := calculateInterest_eq_error hyield helapsed hinterest
    · exact .inl ⟨⟨hfunded, hinterest⟩, rfl⟩
    · refine .inr ⟨fun htraps => ?_, rfl⟩
      exact hnot ((calculateInterest_traps_iff hyield helapsed).mp htraps.2)
  · -- what follows the interest is checked
    refine .inr ⟨fun htraps => ?_, ?_⟩
    · rw [hinterest] at htraps
      cases htraps.2
    · obtain (⟨-, rfl⟩ | ⟨-, hpure⟩) | ⟨_, -, ⟨-, rfl⟩ | ⟨_, -, ⟨-, rfl⟩ | ⟨_, -, hpure⟩⟩⟩ := hrest
      · rfl
      · cases hpure
      · rfl
      · rfl
      · cases hpure

theorem calculateTotalDue_of_traps {record : FundedInvoice} {compound : Bool} {now : ℕ}
    (hyield : record.lockedYieldBps < 2 ^ 32) (hdue : record.dueDate < 2 ^ 64)
    (htraps : record.InterestTraps compound now) :
    calculateTotalDue record compound now = .error overflowTrap := by
  have hend := accrualEnd_le record now
  have hinterest := (calculateInterest_traps_iff hyield (by omega)).mpr htraps.2
  unfold calculateTotalDue
  rw [(require_eq_ok _ _ ()).mpr htraps.1, ok_bind, hinterest]
  rfl

/-! ## Calls on a record -/

section Stuck

variable {W : Type} {h : Host W} {signers : List Address} {s : State W} {invoiceId : ℕ}
  {record : FundedInvoice}

theorem not_repaid (hrecord : s.funded.get invoiceId = some record)
    (hdue : calculateTotalDue record s.params.config.compoundInterest s.now = .error overflowTrap)
    {payer : Address} {amount : ℤ} {s' : State W} :
    repayInvoice h signers s payer ⟨invoiceId, amount⟩ ≠ .ok s' := by
  intro hr
  obtain ⟨q, -, -, hq, -⟩ := repayInvoiceRequest_eq_ok (repayInvoice_eq_ok.mp hr).2
  obtain ⟨-, hget, hdue', -⟩ := quoteRepayment_eq_ok hq
  obtain rfl : record = q.record := Option.some.inj (hrecord.symm.trans hget)
  rw [hdue] at hdue'
  cases hdue'

theorem not_liquidated (hrecord : s.funded.get invoiceId = some record)
    (hdue : calculateTotalDue record s.params.config.compoundInterest s.now = .error overflowTrap)
    {caller : Address} {s' : State W} : liquidateInvoice h signers s caller invoiceId ≠ .ok s' := by
  intro hl
  have hs := liquidateInvoice_eq_ok hl
  unfold seizeCollateralCore at hs
  simp only [bind_eq_ok, okOr_eq_ok] at hs
  obtain ⟨_, hget, _, hdue', -⟩ := hs
  obtain rfl := Option.some.inj (hrecord.symm.trans hget)
  rw [hdue] at hdue'
  cases hdue'

theorem not_cleaned_up (hrecord : s.funded.get invoiceId = some record)
    (hdue : calculateTotalDue record s.params.config.compoundInterest s.now = .error overflowTrap)
    {admin : Address} {s' : State W} :
    cleanupFundedInvoice signers s admin invoiceId ≠ .ok s' := by
  intro hc
  obtain ⟨-, hrepaid, -⟩ := cleanupFundedInvoice_eq_ok hc
  obtain ⟨_, _, _, hget, hdue', -⟩ := isInvoiceRepaid_eq_ok.mp hrepaid
  obtain rfl := Option.some.inj (hrecord.symm.trans hget)
  rw [hdue] at hdue'
  cases hdue'

theorem estimateRepayment_traps (hrecord : s.funded.get invoiceId = some record)
    (hfunded : record.fundedAt ≠ 0) {asOf : ℕ} (hasOf : s.now ≤ asOf)
    (hdue : calculateTotalDue record s.params.config.compoundInterest asOf = .error overflowTrap) :
    estimateRepayment s invoiceId (some asOf) = .error overflowTrap := by
  unfold estimateRepayment
  rw [hrecord]
  simp only [okOr, ok_bind, if_neg hfunded, Option.getD_some]
  rw [(require_eq_ok _ _ ()).mpr hasOf, ok_bind, hdue]
  rfl

theorem total_iff {α : Type} {x : Res α} {p : Prop} (htraps : p → x = .error overflowTrap)
    (herror : ∀ f, x = .error f → p ∧ f = overflowTrap ∨ ¬ p ∧ f = overflowErr) :
    ((∃ a, x = .ok a) ∨ x = .error overflowErr) ↔ ¬ p := by
  constructor
  · intro hok hp
    rw [htraps hp] at hok
    obtain ⟨_, hok⟩ | htyped := hok
    · cases hok
    · cases htyped
  · intro hp
    cases hx : x with
    | ok a => exact .inl ⟨a, rfl⟩
    | error f =>
      obtain ⟨hp', -⟩ | ⟨-, rfl⟩ := herror f hx
      · exact absurd hp' hp
      · exact .inr rfl

/-- Interest returns or fails with the typed error exactly when the yield is not above the limit of
its days, and so does what is due on a record.  Where the interest on a record traps, the record is
stuck. -/
theorem interest_total_iff {W : Type} (h : Host W) (signers : List Address) (s : State W)
    (invoiceId : ℕ) (record : FundedInvoice) (principal yieldBps elapsedSecs : ℕ)
    (isCompound : Bool) (hy : yieldBps < 2 ^ 32) (ht : elapsedSecs < 2 ^ 64)
    (hrecord : s.funded.get invoiceId = some record) (hyield : record.lockedYieldBps < 2 ^ 32)
    (hdue : record.dueDate < 2 ^ 64) :
    ((∃ interest, calculateInterest principal yieldBps elapsedSecs isCompound = .ok interest) ∨
        calculateInterest principal yieldBps elapsedSecs isCompound = .error overflowErr ↔
      ¬ InterestTraps principal yieldBps elapsedSecs isCompound) ∧
    (∀ now, (∃ due, calculateTotalDue record s.params.config.compoundInterest now = .ok due) ∨
        calculateTotalDue record s.params.config.compoundInterest now = .error overflowErr ↔
      ¬ record.InterestTraps s.params.config.compoundInterest now) ∧
    (∀ asOf, record.fundedAt ≠ 0 → s.now ≤ asOf →
      record.InterestTraps s.params.config.compoundInterest asOf →
        estimateRepayment s invoiceId (some asOf) = .error overflowTrap) ∧
    (record.InterestTraps s.params.config.compoundInterest s.now → ∀ s',
      (∀ payer amount, repayInvoice h signers s payer ⟨invoiceId, amount⟩ ≠ .ok s') ∧
      (∀ caller, liquidateInvoice h signers s caller invoiceId ≠ .ok s') ∧
      ∀ admin, cleanupFundedInvoice signers s admin invoiceId ≠ .ok s') := by
  refine ⟨?_, fun now => ?_, fun asOf hfunded hasOf htraps => ?_, fun htraps s' => ?_⟩
  · exact total_iff (calculateInterest_traps_iff hy ht).mpr
      fun _ => calculateInterest_eq_error hy ht
  · exact total_iff (calculateTotalDue_of_traps hyield hdue)
      fun _ => calculateTotalDue_eq_error hyield hdue
  · exact estimateRepayment_traps hrecord hfunded hasOf
      (calculateTotalDue_of_traps hyield hdue htraps)
  · have hstuck := calculateTotalDue_of_traps hyield hdue htraps
    exact ⟨fun _ _ => not_repaid hrecord hstuck, fun _ => not_liquidated hrecord hstuck,
      fun _ => not_cleaned_up hrecord hstuck⟩

end Stuck

/-- A loan at the default yield of 800 basis points, due after `2 ^ 17` days, at its due date. -/
def agedLoan : List (Tx quietHost) :=
  [⟨[1], self_ne_one, .setMaxInvestorConcentration 1 10000⟩,
    ⟨[1], self_ne_one, .setCompoundInterest 1 true⟩,
    ⟨[3], self_ne_three, .deposit 3 10 1000 none⟩,
    ⟨[1], self_ne_one, .fundInvoice 1 ⟨7, 1000, 4, 2 ^ 17 * 86400 + 1, 10⟩⟩,
    ⟨[], self_notMem_nil, .advance (2 ^ 17 * 86400 + 1)⟩]

theorem interest_total_iff_aged :
    ∃ s, execAll quietHost sampleState agedLoan = .ok s ∧
      ∀ s', repayInvoice quietHost [4] s 4 ⟨7, 1000⟩ ≠ .ok s' := by
  obtain ⟨s, hs, hp⟩ := exists_of_check (x := execAll quietHost sampleState agedLoan)
    (p := fun s => decide (∃ record ∈ s.funded.get 7, record.lockedYieldBps = 800 ∧
      record.principal = 1000 ∧ record.fundedAt = 1 ∧ record.dueDate = 2 ^ 17 * 86400 + 1 ∧
      s.params.config.compoundInterest = true ∧ s.now = 2 ^ 17 * 86400 + 1)) (by decide)
  obtain ⟨record, hrecord, hyield, hprincipal, hfunded, hdue, hcompound, hnow⟩ :=
    of_decide_eq_true hp
  have hend : accrualEnd record s.now = 2 ^ 17 * 86400 + 1 := by
    unfold accrualEnd
    rw [hdue, hnow, ite_self]
  refine ⟨s, hs, fun s' => ?_⟩
  refine ((interest_total_iff quietHost [4] s 7 record 0 0 0 true (by norm_num) (by norm_num)
    hrecord (by omega) (by omega)).2.2.2 ?_ s').1 4 1000
  unfold FundedInvoice.InterestTraps InterestTraps
  rw [hend, hfunded, hyield, hprincipal, hcompound]
  decide

/-- 5 000 basis points over `2 ^ 14` days, less than 45 years. -/
theorem interest_trap :
    ¬ ∀ (principal yieldBps elapsedSecs : ℕ) (isCompound : Bool), principal < 2 ^ 128 →
      yieldBps < 2 ^ 32 → elapsedSecs < 2 ^ 64 →
      (∃ interest, calculateInterest principal yieldBps elapsedSecs isCompound = .ok interest) ∨
        calculateInterest principal yieldBps elapsedSecs isCompound = .error overflowErr := by
  intro htotal
  have htraps : calculateInterest 1000 5000 (2 ^ 14 * 86400) true = .error overflowTrap := by
    decide
  obtain ⟨_, hok⟩ | herr := htotal 1000 5000 (2 ^ 14 * 86400) true (by norm_num) (by norm_num)
    (by norm_num)
  · rw [htraps] at hok
    cases hok
  · rw [htraps] at herr
    cases herr

end Astera.Pool
