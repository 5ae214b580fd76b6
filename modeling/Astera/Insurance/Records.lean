import Astera.Insurance.System

/-!
# The records of the insurance reserve

A record that is claimed has been paid in full, and nothing is ever stored among the records of the
instance, where `release_coverage` looks for them.
-/

namespace Astera.Insurance

open Fallible Machine Transition

variable {W : Type} {h : Host W} {s s' : State W}

/-- The part of a record that its payouts follow. -/
structure CoverageRecord.Valid (record : CoverageRecord) : Prop where
  principal_pos : 0 < record.principal
  paid_nonneg : 0 ≤ record.paidToDate
  insured_le : record.claimed = true → record.insured ≤ record.paidToDate

/-- The books of a reserve in order. -/
structure Sound (s : State W) : Prop where
  records : ∀ invoiceId record, s.coverageRecords.get invoiceId = some record → record.Valid
  noneInstance : ∀ invoiceId, s.instanceRecords.get invoiceId = none
  exposure_nonneg : ∀ token, 0 ≤ (s.reserveFund token).totalCoveredExposure
  exposure_lt : ∀ token, (s.reserveFund token).totalCoveredExposure < 2 ^ 127

theorem CoverageRecord.Valid.insured_nonneg {record : CoverageRecord} (hr : record.Valid) :
    0 ≤ record.insured :=
  Int.ediv_nonneg (mul_nonneg hr.principal_pos.le (Int.natCast_nonneg _)) (Int.natCast_nonneg _)

@[simp]
theorem insured_paid (record : CoverageRecord) (nominal paidToDate : ℤ) :
    (record.paid nominal paidToDate).insured = record.insured := rfl

theorem CoverageRecord.Valid.paid {record : CoverageRecord} (hr : record.Valid) {payout : ℤ}
    (hpos : 0 < payout) : (record.paid record.insured (record.paidToDate + payout)).Valid := by
  have hnn := hr.paid_nonneg
  refine ⟨hr.principal_pos, ?_, ?_⟩
  · show 0 ≤ record.paidToDate + payout
    omega
  · intro hclaimed
    show record.insured ≤ record.paidToDate + payout
    simp only [CoverageRecord.paid] at hclaimed
    split_ifs at hclaimed with hfull
    · exact hfull
    · have hle := hr.insured_le hclaimed
      omega

theorem exposure_paidOut (hs : Sound s) {invoiceId : ℕ} {record : CoverageRecord}
    {shortfall payout : ℤ} {world : W} (hnn : 0 ≤ record.insured) (hlt : record.insured < 2 ^ 127)
    (t : Address) :
    ((s.paidOut h invoiceId record shortfall payout world).reserveFund t).totalCoveredExposure =
      if t = record.token ∧ record.insured ≤ record.paidToDate + payout then
        max ((s.reserveFund t).totalCoveredExposure - record.insured) 0
      else (s.reserveFund t).totalCoveredExposure := by
  unfold State.paidOut
  dsimp only
  rw [reserveFund_setReserve]
  by_cases ht : t = record.token
  · subst ht
    simp only [if_true, true_and, ReserveFund.paid, ReserveFund.recomputeRatio]
    split_ifs
    · exact lessExposure_eq (hs.exposure_nonneg _) (hs.exposure_lt _) hnn hlt
    · rfl
  · rw [if_neg ht, if_neg fun hand => ht hand.1]
    rfl

theorem exposure_covered {payer : Address} {invoiceId : ℕ} {record : CoverageRecord} (t : Address) :
    ((s.covered h payer invoiceId record).reserveFund t).totalCoveredExposure =
      (s.reserveFund t).totalCoveredExposure + if t = record.token then record.insured else 0 := by
  unfold State.covered
  dsimp only
  rw [reserveFund_setReserve]
  split_ifs with ht
  · subst ht
    rfl
  · exact (add_zero _).symm

theorem exposure_endowed {admin token : Address} {amount : ℤ} (t : Address) :
    ((s.endowed h admin token amount).reserveFund t).totalCoveredExposure =
      (s.reserveFund t).totalCoveredExposure := by
  unfold State.endowed
  rw [reserveFund_setReserve]
  split_ifs with ht
  · subst ht
    rfl
  · rfl

theorem Sound.of_same (hs : Sound s) (hrecords : s'.coverageRecords = s.coverageRecords)
    (hinstance : s'.instanceRecords = s.instanceRecords)
    (hexposure : ∀ token, (s'.reserveFund token).totalCoveredExposure =
      (s.reserveFund token).totalCoveredExposure) : Sound s' := by
  refine ⟨?_, ?_, fun token => ?_, fun token => ?_⟩
  · rw [hrecords]
    exact hs.records
  · rw [hinstance]
    exact hs.noneInstance
  · rw [hexposure]
    exact hs.exposure_nonneg token
  · rw [hexposure]
    exact hs.exposure_lt token

theorem Sound.no_release (hs : Sound s) {invoiceId : ℕ} : releaseCoverage s invoiceId ≠ .ok s' := by
  intro hx
  simp only [releaseCoverage, bind_eq_ok, exists_unit, okOr_eq_ok] at hx
  obtain ⟨-, record, hget, -⟩ := hx
  rw [hs.noneInstance] at hget
  cases hget

def State.released (s : State W) (invoiceId : ℕ) : Bool :=
  (s.instanceRecords.get invoiceId).any CoverageRecord.claimed

theorem Sound.released_eq_false (hs : Sound s) (invoiceId : ℕ) : s.released invoiceId = false := by
  unfold State.released
  rw [hs.noneInstance]
  rfl

theorem exec_sound {tx : Tx h} (hs : Sound s) (hx : exec h s tx = .ok s') : Sound s' := by
  cases exec_effect hx with
  | endowed => exact hs.of_same rfl rfl exposure_endowed
  | covered hcall hsigned hrunning hfree htoken hprincipal hpremium hopen hpaid hinsured hfits =>
    refine ⟨?_, hs.noneInstance, fun t => ?_, fun t => ?_⟩
    · exact Store.forall_get_set hs.records
        ⟨hprincipal, hpaid.ge, fun hclaimed => absurd (hopen.symm.trans hclaimed) nofun⟩
    · have hnn := hs.exposure_nonneg t
      rw [exposure_covered]
      split_ifs <;> omega
    · have hlt := hs.exposure_lt t
      rw [exposure_covered]
      split_ifs with ht
      · rw [ht, htoken]
        exact hfits
      · omega
  | released hcall hget =>
    rw [hs.noneInstance] at hget
    cases hget
  | @paidOut invoiceId record shortfall payout world hcall hget hpool hshortfall hpayout hpos hfits =>
    have hrecord := hs.records invoiceId record hget
    refine ⟨?_, hs.noneInstance, fun t => ?_, fun t => ?_⟩
    · exact Store.forall_get_set hs.records (hrecord.paid hpos)
    · have hnn := hs.exposure_nonneg t
      rw [exposure_paidOut hs hrecord.insured_nonneg hfits]
      split_ifs <;> omega
    · have hlt := hs.exposure_lt t
      have hinsured := hrecord.insured_nonneg
      rw [exposure_paidOut hs hinsured hfits]
      split_ifs <;> omega
  | configured hcall hsame =>
    exact hs.of_same hsame.coverageRecords hsame.instanceRecords fun token =>
      (hsame.funds token).exposure
  | advanced | elsewhere | moved => exact hs.of_same rfl rfl fun _ => rfl

theorem sound_initial (now : ℕ) (world : W) (balances : Address → Address → ℤ)
    (admin poolContract invoiceContract : Address) :
    Sound (initializeInsurance now world balances admin poolContract invoiceContract) := by
  refine ⟨fun invoiceId record hget => ?_, fun _ => Store.get_empty _, fun _ => le_rfl, fun _ => ?_⟩
  · have hnone : (none : Option CoverageRecord) = some record := (Store.get_empty invoiceId).symm.trans hget
    cases hnone
  · show (0 : ℤ) < 2 ^ 127
    norm_num

end Astera.Insurance
