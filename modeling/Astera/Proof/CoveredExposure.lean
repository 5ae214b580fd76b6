import Astera.Insurance.Records

/-!
# The exposure ledger

The exposure of a token is the sum of what its open records insure.  A filing on a record that was
already taken off takes it off once more; releasing takes nothing off, since it looks for the record
where no purchase puts one.
-/

namespace Astera.Insurance

open Fallible Machine Transition

variable {W : Type} {h : Host W} {s s' : State W}

/-- What a record insures of a token while it is neither claimed nor released. -/
def State.openCover (s : State W) (token : Address) (invoiceId : ℕ) (record : CoverageRecord) : ℤ :=
  if record.token = token ∧ record.Open ∧ s.released invoiceId = false then record.insured else 0

/-- The exposure of a token is what its open records insure. -/
def State.ExposureExact (s : State W) (token : Address) : Prop :=
  (s.reserveFund token).totalCoveredExposure = s.coverageRecords.total (s.openCover token)

/-- A purchased record that is neither claimed nor released can be released, once. -/
def State.Releasable (s : State W) : Prop :=
  ∀ invoiceId record, s.coverageRecords.get invoiceId = some record → record.Open →
    s.released invoiceId = false →
      ∃ s', releaseCoverage s invoiceId = .ok s' ∧ ¬ ∃ s'', releaseCoverage s' invoiceId = .ok s''

/-- A filing on a claimed record finds no exposure of its token. -/
def TakesOffOnce (s : State W) (tx : Tx h) : Prop :=
  match tx.call with
  | .fileClaim invoiceId => ∀ record ∈ s.coverageRecords.get invoiceId, record.claimed = true →
      (s.reserveFund record.token).totalCoveredExposure = 0
  | _ => True

instance (tx : Tx h) : Decidable (TakesOffOnce s tx) :=
  match hcall : tx.call with
  | .fileClaim invoiceId =>
    decidable_of_iff (∀ record ∈ s.coverageRecords.get invoiceId, record.claimed = true →
      (s.reserveFund record.token).totalCoveredExposure = 0) (by simp only [TakesOffOnce, hcall])
  | .fundReserveFromTreasury .. | .purchaseCoverage .. | .releaseCoverage .. | .set .. | .advance ..
  | .elsewhere .. | .tokenTransfer .. => .isTrue (by simp only [TakesOffOnce, hcall])

theorem takesOffOnce_of_ne {tx : Tx h} (hcall : ∀ invoiceId, tx.call ≠ .fileClaim invoiceId) :
    TakesOffOnce s tx := by
  unfold TakesOffOnce
  split
  · rename_i invoiceId heq
    exact absurd heq (hcall invoiceId)
  · trivial

/-- What a record insures of a token while it is open. -/
def CoverageRecord.cover (token : Address) (_ : ℕ) (record : CoverageRecord) : ℤ :=
  if record.token = token ∧ record.Open then record.insured else 0

theorem cover_token (record : CoverageRecord) (invoiceId : ℕ) :
    record.cover record.token invoiceId = if record.claimed = true then 0 else record.insured := by
  unfold CoverageRecord.cover CoverageRecord.Open
  by_cases hclaimed : record.claimed = true <;> simp [hclaimed]

theorem cover_of_ne {record : CoverageRecord} {token : Address} (hne : record.token ≠ token)
    (invoiceId : ℕ) : record.cover token invoiceId = 0 := if_neg fun hand => hne hand.1

theorem Sound.openCover_eq (hs : Sound s) (token : Address) :
    s.openCover token = CoverageRecord.cover token := by
  funext invoiceId record
  simp only [State.openCover, CoverageRecord.cover, hs.released_eq_false, and_true]

theorem Sound.exposureExact_iff (hs : Sound s) (token : Address) :
    s.ExposureExact token ↔
      (s.reserveFund token).totalCoveredExposure =
        s.coverageRecords.total (CoverageRecord.cover token) := by
  unfold State.ExposureExact
  rw [hs.openCover_eq]

theorem Sound.cover_nonneg (hs : Sound s) (token : Address) :
    ∀ invoiceId record, s.coverageRecords.get invoiceId = some record →
      0 ≤ record.cover token invoiceId := by
  intro invoiceId record hget
  unfold CoverageRecord.cover
  split_ifs
  · exact (hs.records invoiceId record hget).insured_nonneg
  · exact le_rfl

/-! ## Steps -/

theorem exposureExact_covered {payer : Address} {invoiceId : ℕ} {record : CoverageRecord}
    (hfree : s.coverageRecords.get invoiceId = none) (hopen : record.Open) {token : Address}
    (hexact : (s.reserveFund token).totalCoveredExposure =
      s.coverageRecords.total (CoverageRecord.cover token)) :
    ((s.covered h payer invoiceId record).reserveFund token).totalCoveredExposure =
      (s.covered h payer invoiceId record).coverageRecords.total (CoverageRecord.cover token) := by
  show _ = (s.coverageRecords.set invoiceId record).total _
  rw [exposure_covered, Store.total_set, Store.part_of_get_none hfree, hexact, sub_zero]
  congr 1
  unfold CoverageRecord.cover
  simp only [hopen, and_true, eq_comm]

theorem exposureExact_paidOut (hs : Sound s) {invoiceId : ℕ} {record : CoverageRecord}
    {shortfall payout : ℤ} {world : W} (hget : s.coverageRecords.get invoiceId = some record)
    (hpos : 0 < payout) (hinsured : 0 < record.insured) (hfits : record.insured < 2 ^ 127)
    (token : Address)
    (hexact : (s.reserveFund token).totalCoveredExposure =
      s.coverageRecords.total (CoverageRecord.cover token)) :
    ((s.paidOut h invoiceId record shortfall payout world).reserveFund token).totalCoveredExposure =
        (s.paidOut h invoiceId record shortfall payout world).coverageRecords.total
          (CoverageRecord.cover token) ↔
      (token = record.token → record.claimed = true →
        (s.reserveFund token).totalCoveredExposure = 0) := by
  show _ = (s.coverageRecords.set invoiceId _).total _ ↔ _
  have hpart := Store.part_of_get (f := CoverageRecord.cover token) hget
  have hle := Store.part_le_total (hs.cover_nonneg token) invoiceId
  have hnn := hs.exposure_nonneg token
  have hvalid := hs.records invoiceId record hget
  rw [exposure_paidOut hs hinsured.le hfits, Store.total_set, hpart, ← hexact]
  rw [hpart, ← hexact] at hle
  by_cases ht : token = record.token
  · subst ht
    have hnew : (record.paid record.insured (record.paidToDate + payout)).cover record.token invoiceId =
        if record.insured ≤ record.paidToDate + payout ∨ record.claimed = true then 0
        else record.insured := by
      refine (cover_token (record.paid _ _) invoiceId).trans ?_
      rw [insured_paid]
      refine if_congr ?_ rfl rfl
      show (if _ then true else record.claimed) = true ↔ _
      split_ifs with hfull <;> simp [hfull]
    rw [hnew, cover_token]
    rw [cover_token] at hle
    cases hclaimed : record.claimed with
    | true =>
      have hpaid := hvalid.insured_le hclaimed
      have hfull : record.insured ≤ record.paidToDate + payout := by omega
      simp only [hfull, if_true, and_self, true_or, forall_true_left]
      omega
    | false =>
      rw [hclaimed, if_neg Bool.false_ne_true] at hle
      simp only [true_and, Bool.false_eq_true, or_false, if_false, false_implies, implies_true,
        iff_true]
      split_ifs <;> omega
  · rw [if_neg fun hand => ht hand.1, cover_of_ne (Ne.symm ht) invoiceId,
      cover_of_ne (show (record.paid _ _).token ≠ token from Ne.symm ht) invoiceId]
    simp [ht]

theorem Sound.releasable_iff (hs : Sound s) :
    s.Releasable ↔ ∀ invoiceId record, s.coverageRecords.get invoiceId = some record →
      record.claimed = true := by
  constructor
  · intro hall invoiceId record hget
    by_contra hopen
    obtain ⟨s', hs', -⟩ := hall invoiceId record hget (Bool.eq_false_of_not_eq_true hopen)
      (hs.released_eq_false invoiceId)
    exact hs.no_release hs'
  · intro hall invoiceId record hget hopen
    exact absurd (hopen.symm.trans (hall invoiceId record hget)) nofun

theorem exposureExact_step_iff {tx : Tx h} (hs : Sound s) (hexact : ∀ token, s.ExposureExact token)
    (hexec : exec h s tx = .ok s') : (∀ token, s'.ExposureExact token) ↔ TakesOffOnce s tx := by
  have hs' := exec_sound hs hexec
  simp only [hs.exposureExact_iff] at hexact
  simp only [hs'.exposureExact_iff]
  -- a call that is no filing writes no record
  have hquiet : (∀ invoiceId, tx.call ≠ .fileClaim invoiceId) →
      s'.coverageRecords = s.coverageRecords →
      (∀ token, (s'.reserveFund token).totalCoveredExposure =
        (s.reserveFund token).totalCoveredExposure) →
      ((∀ token, (s'.reserveFund token).totalCoveredExposure =
        s'.coverageRecords.total (CoverageRecord.cover token)) ↔ TakesOffOnce s tx) := by
    intro hcall hrecords hexposure
    refine iff_of_true (fun token => ?_) (takesOffOnce_of_ne hcall)
    rw [hrecords, hexposure]
    exact hexact token
  cases exec_effect hexec with
  | @paidOut invoiceId record shortfall payout world hcall hget hpool hshortfall hpayout hpos hfits =>
    have hinsured : 0 < record.insured := by omega
    have honce : TakesOffOnce s tx ↔ (record.claimed = true →
        (s.reserveFund record.token).totalCoveredExposure = 0) := by
      simp [TakesOffOnce, hcall, hget]
    rw [honce]
    constructor
    · intro hall
      exact (exposureExact_paidOut hs hget hpos hinsured hfits _ (hexact _)).1 (hall _) rfl
    · intro hzero token
      refine (exposureExact_paidOut hs hget hpos hinsured hfits _ (hexact _)).2 ?_
      rintro rfl
      exact hzero
  | covered hcall hsigned hrunning hfree htoken hprincipal hpremium hopen =>
    exact iff_of_true (fun token => exposureExact_covered hfree hopen (hexact token))
      (takesOffOnce_of_ne (by simp [hcall]))
  | released hcall hget =>
    rw [hs.noneInstance] at hget
    cases hget
  | configured hcall hsame =>
    exact hquiet (by simp [hcall]) hsame.coverageRecords fun token => (hsame.funds token).exposure
  | endowed hcall => exact hquiet (by simp [hcall]) rfl exposure_endowed
  | advanced hcall | elsewhere hcall | moved hcall =>
    exact hquiet (by simp [hcall]) rfl fun _ => rfl

/-- In every run in which no filing takes off a record a second time the exposures are exact, and one
more call keeps them exact exactly when it does not either; the open records can be released exactly
when there are none. -/
theorem exposure_follows_records {now : ℕ} {world : W} {balances : Address → Address → ℤ}
    {admin poolContract invoiceContract : Address}
    (hrun : Reaches (exec h) (fun s tx => TakesOffOnce s tx)
      (initializeInsurance now world balances admin poolContract invoiceContract) s) :
    (∀ token, s.ExposureExact token) ∧
    (∀ (tx : Tx h) (s' : State W), exec h s tx = .ok s' →
      ((∀ token, s'.ExposureExact token) ↔ TakesOffOnce s tx)) ∧
    ((s.paused = false → s.Releasable) ↔
      s.paused = true ∨ ∀ invoiceId record, s.coverageRecords.get invoiceId = some record →
        record.claimed = true) := by
  have hall : Sound s ∧ ∀ token, s.ExposureExact token := by
    refine hrun.invariant (P := fun s => Sound s ∧ ∀ token, s.ExposureExact token)
      ⟨sound_initial now world balances admin poolContract invoiceContract, fun _ => rfl⟩ ?_
    rintro s tx s' ⟨hs, hexact⟩ honce hexec
    exact ⟨exec_sound hs hexec, (exposureExact_step_iff hs hexact hexec).2 honce⟩
  obtain ⟨hs, hexact⟩ := hall
  refine ⟨hexact, fun tx s' hexec => exposureExact_step_iff hs hexact hexec, ?_⟩
  rw [hs.releasable_iff]
  cases s.paused <;> simp

/-- The pool insures two loans of 1000. -/
def twoCovers : List (Tx sampleHost) :=
  samplePurchase ++ [⟨[3], self_ne_three, .purchaseCoverage 3 8 1_000 8 900_000 9⟩]

def oneClaim : List (Tx sampleHost) := twoCovers ++ [⟨[], by decide, .fileClaim 7⟩]

theorem exposure_follows_records_claimed :
    ∃ s : State Unit, (s.reserveFund 9).totalCoveredExposure = 500 ∧ s.ExposureExact 9 := by
  obtain ⟨s, hx, hp⟩ := exists_of_check (x := oneClaim.foldlM (exec sampleHost) sampleStart)
    (p := fun s => decide ((s.reserveFund 9).totalCoveredExposure = 500)) (by decide)
  have hrun := reaches_of_along .refl (show Along _ (fun s tx => TakesOffOnce s tx) _ oneClaim
    by decide) hx
  exact ⟨s, of_decide_eq_true hp, (exposure_follows_records hrun).1 9⟩

def oneClaimTwice : List (Tx sampleHost) := oneClaim ++ [⟨[], by decide, .fileClaim 7⟩]

/-- An open record that cannot be released, and an exposure that a second claim takes off while the
record of the other loan is open. -/
theorem exposure_drifts :
    ∃ s s' : State Unit,
      Reaches (exec sampleHost) (fun _ _ => True) sampleStart s ∧ s.paused = false ∧
      ¬ s.Releasable ∧
      Reaches (exec sampleHost) (fun _ _ => True) sampleStart s' ∧ ¬ s'.ExposureExact 9 := by
  obtain ⟨s, hx, hp⟩ := exists_of_check (x := samplePurchase.foldlM (exec sampleHost) sampleStart)
    (p := fun s => decide (s.paused = false ∧
      (s.coverageRecords.get 7).map CoverageRecord.claimed = some false)) (by decide)
  obtain ⟨s', hx', hp'⟩ := exists_of_check
    (x := oneClaimTwice.foldlM (exec sampleHost) sampleStart)
    (p := fun s => decide ((s.reserveFund 9).totalCoveredExposure = 0 ∧
      s.coverageRecords.total (CoverageRecord.cover 9) = 500)) (by decide)
  obtain ⟨hrunning, hopen⟩ := of_decide_eq_true hp
  obtain ⟨hexposure, htotal⟩ := of_decide_eq_true hp'
  have hrun := reaches_of_along .refl (along_of_forall (fun _ _ => trivial) _ _) hx
  have hrun' := reaches_of_along .refl (along_of_forall (fun _ _ => trivial) _ _) hx'
  have hs : Sound s := hrun.invariant (sound_initial _ _ _ _ _ _) fun _ _ _ hs _ => exec_sound hs
  have hs' : Sound s' := hrun'.invariant (sound_initial _ _ _ _ _ _) fun _ _ _ hs _ => exec_sound hs
  refine ⟨s, s', hrun, hrunning, fun hall => ?_, hrun', fun hexact => ?_⟩
  · obtain ⟨record, hget, hclaimed⟩ := Option.map_eq_some_iff.1 hopen
    have hclosed := hs.releasable_iff.1 hall 7 record hget
    exact absurd (hclaimed.symm.trans hclosed) nofun
  · have hequal := (hs'.exposureExact_iff 9).1 hexact
    rw [hexposure, htotal] at hequal
    exact absurd hequal (by decide)

end Astera.Insurance
