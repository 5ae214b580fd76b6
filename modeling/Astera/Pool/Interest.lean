import Astera.Lib.FixedPoint
import Astera.Pool.Arithmetic

/-!
# Interest in exact terms

What `calculate_interest` returns, and when it traps.  Amounts with interest are counted in parts of
`interestDenominator`; `accrued` is the principal with compound interest before it is rounded.

`fixed_point_pow` overflows exactly when the base, squared as often as the number of days has bits
after the first, leaves 64 bits.  `yieldLimit` is the highest yield for which it does not.
-/

namespace Astera.Pool

open Fallible Machine FixedPoint

variable {isCompound : Bool} {f : Fault} {days elapsedSecs principal yieldBps : ℕ}

theorem interestDenominator_pos : 0 < interestDenominator := by decide

theorem fixedPointPowLoop_succ {precision fuel base exp result : ℕ} (hexp : exp ≠ 0)
    (hresult : result ≤ base) :
    fixedPointPowLoop precision (fuel + 1) base exp result =
      if base < 2 ^ 64 then
        fixedPointPowLoop precision fuel (mul precision base base) (exp / 2)
          (if exp % 2 = 1 then mul precision result base else result)
      else .error overflowTrap := by
  have hsquare : base < 2 ^ 64 ↔ base * base < 2 ^ 128 := by
    have hpow : 2 ^ 128 = 2 ^ 64 * 2 ^ 64 := by norm_num
    rw [hpow]
    exact Nat.mul_self_lt_mul_self_iff.symm
  have hproduct : result * base ≤ base * base := Nat.mul_le_mul_right base hresult
  rw [fixedPointPowLoop, if_neg hexp]
  by_cases hbase : base < 2 ^ 64
  · have hfits : fitU 128 (base * base) = some (base * base) := if_pos (hsquare.mp hbase)
    have hfits' : fitU 128 (result * base) = some (result * base) :=
      if_pos (hproduct.trans_lt (hsquare.mp hbase))
    rw [if_pos hbase, hfits, hfits']
    split_ifs <;> rfl
  · have hnone : fitU 128 (base * base) = none := if_neg (mt hsquare.mpr hbase)
    rw [if_neg hbase, hnone]
    unfold fitU
    split_ifs <;> rfl

theorem fixedPointPowLoop_eq {precision fuel base exp result : ℕ} (hone : 0 < precision)
    (hbase : precision ≤ base) (hresult : result ≤ base) (hfuel : exp < 2 ^ fuel) :
    fixedPointPowLoop precision fuel base exp result =
      if exp = 0 ∨ squarings precision exp.log2 base < 2 ^ 64 then
        .ok (powLoop precision fuel base exp result)
      else .error overflowTrap := by
  induction fuel generalizing base exp result with
  | zero =>
    obtain rfl : exp = 0 := by simpa using hfuel
    rfl
  | succ fuel ih =>
    by_cases hexp : exp = 0
    · subst hexp
      rfl
    · have hhalf : exp / 2 < 2 ^ fuel := by
        rw [pow_succ] at hfuel
        omega
      have hsquare : base ≤ mul precision base base := le_mul_self hone hbase
      have hnext : (if exp % 2 = 1 then mul precision result base else result) ≤
          mul precision base base := by
        split_ifs
        · exact mul_le_mul hresult le_rfl
        · exact hresult.trans hsquare
      rw [fixedPointPowLoop_succ hexp hresult, powLoop_succ hexp,
        ih (hbase.trans hsquare) hnext hhalf]
      simp only [hexp, false_or]
      by_cases htwo : 2 ≤ exp
      · have hhalf' : exp / 2 ≠ 0 := by omega
        have hlog : squarings precision exp.log2 base =
            squarings precision (exp / 2).log2 (mul precision base base) := by
          rw [Nat.log2_def exp, if_pos htwo]
          rfl
        have hle := squarings_le_of_le hone (hbase.trans hsquare) (Nat.zero_le (exp / 2).log2)
        simp only [hlog, hhalf', false_or]
        by_cases hlt : squarings precision (exp / 2).log2 (mul precision base base) < 2 ^ 64
        · rw [if_pos hlt, if_pos ((hsquare.trans hle).trans_lt hlt)]
        · rw [if_neg hlt, ite_self]
      · obtain rfl : exp = 1 := by omega
        simp only [Nat.reduceDiv, true_or, if_true]
        rfl

/-! ## Amounts -/

def dailyGrowth (yieldBps : ℕ) : ℕ := interestDenominator + yieldBps * secsPerDay

/-- What 1 grows to in `days` days. -/
def growthFactor (yieldBps days : ℕ) : ℕ :=
  powLoop interestDenominator 64 (dailyGrowth yieldBps) days interestDenominator

/-- What `principal` has become with compound interest. -/
def accrued (principal yieldBps elapsedSecs : ℕ) : ℕ :=
  principal * growthFactor yieldBps (elapsedSecs / secsPerDay) +
    principal * growthFactor yieldBps (elapsedSecs / secsPerDay) *
      (yieldBps * (elapsedSecs % secsPerDay)) / interestDenominator

/-- The base that compounds over `days` days, squared as often as `days` has bits after the first,
stays within 64 bits. -/
def Compounds (yieldBps days : ℕ) : Prop :=
  days = 0 ∨ squarings interestDenominator days.log2 (dailyGrowth yieldBps) < 2 ^ 64

instance (yieldBps days : ℕ) : Decidable (Compounds yieldBps days) :=
  inferInstanceAs (Decidable (_ ∨ _))

theorem interestDenominator_le_dailyGrowth (yieldBps : ℕ) :
    interestDenominator ≤ dailyGrowth yieldBps := Nat.le_add_right _ _

theorem growthFactor_zero (yieldBps : ℕ) : growthFactor yieldBps 0 = interestDenominator :=
  powLoop_zero _ _ _

theorem linear_le_growthFactor (yieldBps : ℕ) (hdays : days < 2 ^ 64) :
    interestDenominator + days * (yieldBps * secsPerDay) ≤ growthFactor yieldBps days := by
  have hresult : interestDenominator + 0 * (yieldBps * secsPerDay) ≤ interestDenominator := by simp
  have hbase : interestDenominator + 1 * (yieldBps * secsPerDay) ≤ dailyGrowth yieldBps := by
    simp [dailyGrowth]
  have h := linear_le_powLoop interestDenominator_pos hdays hresult hbase
  simpa [growthFactor] using h

theorem interestDenominator_le_growthFactor (yieldBps : ℕ) (hdays : days < 2 ^ 64) :
    interestDenominator ≤ growthFactor yieldBps days :=
  (Nat.le_add_right _ _).trans (linear_le_growthFactor yieldBps hdays)

theorem fixedPointPow_eq_ok {yieldBps days factor : ℕ} (hdays : days < 2 ^ 64) :
    fixedPointPow (dailyGrowth yieldBps) days interestDenominator = .ok factor ↔
      Compounds yieldBps days ∧ factor = growthFactor yieldBps days := by
  have hle := interestDenominator_le_dailyGrowth yieldBps
  unfold fixedPointPow Compounds
  rw [fixedPointPowLoop_eq interestDenominator_pos hle hle hdays]
  split_ifs with hfits
  · refine ⟨fun hok => ⟨hfits, (Except.ok.inj hok).symm⟩, ?_⟩
    rintro ⟨-, rfl⟩
    rfl
  · exact ⟨nofun, fun hok => absurd hok.1 hfits⟩

theorem fixedPointPow_eq_error (hdays : days < 2 ^ 64) :
    fixedPointPow (dailyGrowth yieldBps) days interestDenominator = .error f ↔
      ¬ Compounds yieldBps days ∧ f = overflowTrap := by
  have hle := interestDenominator_le_dailyGrowth yieldBps
  unfold fixedPointPow Compounds
  rw [fixedPointPowLoop_eq interestDenominator_pos hle hle hdays]
  split_ifs with hfits
  · exact ⟨nofun, fun herr => absurd hfits herr.1⟩
  · refine ⟨fun herr => ⟨hfits, (Except.error.inj herr).symm⟩, ?_⟩
    rintro ⟨-, rfl⟩
    rfl

def wholeDays (principal yieldBps days : ℕ) : Res ℕ :=
  if 0 < days then do
    let num ← okOr (fitU 128 (dailyGrowth yieldBps)) overflowErr
    let growthFactor ← fixedPointPow num days interestDenominator
    okOr (fitU 128 (principal * growthFactor)) overflowErr
  else return principal * interestDenominator

/-- The last day of `calculate_interest`, which is not whole. -/
def partDay (amount yieldBps remainingSecs : ℕ) : Res ℕ :=
  if 0 < remainingSecs then do
    let rate ← okOr (fitU 128 (yieldBps * remainingSecs)) overflowErr
    let interest ← okOr (fitU 128 (amount * rate)) overflowErr
    okOr (fitU 128 (amount + interest / interestDenominator)) overflowErr
  else return amount

theorem calculateInterest_true (principal yieldBps elapsedSecs : ℕ) :
    calculateInterest principal yieldBps elapsedSecs true = (do
      let principalNumerator ← okOr (fitU 128 (principal * interestDenominator)) overflowErr
      let amount ← wholeDays principal yieldBps (elapsedSecs / secsPerDay)
      let amount ← partDay amount yieldBps (elapsedSecs % secsPerDay)
      require (principalNumerator ≤ amount) overflowErr
      divRoundHalfUp (amount - principalNumerator) interestDenominator) := by
  unfold calculateInterest wholeDays partDay
  rw [if_neg (by decide)]
  by_cases hfits : principal * interestDenominator < 2 ^ 128
  · have hok : okOr (fitU 128 (principal * interestDenominator)) overflowErr =
        .ok (principal * interestDenominator) := by
      rw [okOr_eq_ok]
      exact if_pos hfits
    rw [hok, ok_bind, ok_bind]
    by_cases hdays : 0 < elapsedSecs / secsPerDay <;>
      by_cases hrem : 0 < elapsedSecs % secsPerDay <;>
        simp only [hdays, hrem, if_true, if_false, bind_assoc, pure_bind, dailyGrowth]
  · have herr : okOr (fitU 128 (principal * interestDenominator)) overflowErr =
        .error overflowErr := by
      rw [okOr_eq_error]
      exact ⟨if_neg hfits, rfl⟩
    rw [herr]
    rfl

theorem wholeDays_eq_ok {principal yieldBps days amount : ℕ} (hdays : days < 2 ^ 64)
    (hw : wholeDays principal yieldBps days = .ok amount) :
    Compounds yieldBps days ∧ amount = principal * growthFactor yieldBps days := by
  unfold wholeDays at hw
  split_ifs at hw with hpos
  · simp only [bind_eq_ok, okOr_eq_ok, fitU_eq_some] at hw
    obtain ⟨_, ⟨rfl, -⟩, factor, hpow, rfl, -⟩ := hw
    obtain ⟨hcompounds, rfl⟩ := (fixedPointPow_eq_ok hdays).mp hpow
    exact ⟨hcompounds, rfl⟩
  · obtain rfl : days = 0 := by omega
    rw [pure_eq_ok] at hw
    rw [growthFactor_zero]
    exact ⟨.inl rfl, hw.symm⟩

theorem partDay_eq_ok {amount yieldBps remainingSecs total : ℕ}
    (hp : partDay amount yieldBps remainingSecs = .ok total) :
    total = amount + amount * (yieldBps * remainingSecs) / interestDenominator := by
  unfold partDay at hp
  split_ifs at hp with hpos
  · simp only [bind_eq_ok, okOr_eq_ok, fitU_eq_some] at hp
    obtain ⟨_, ⟨rfl, -⟩, _, ⟨rfl, -⟩, rfl, -⟩ := hp
    rfl
  · obtain rfl : remainingSecs = 0 := by omega
    rw [pure_eq_ok] at hp
    rw [← hp]
    simp

theorem partDay_eq_error {amount yieldBps remainingSecs : ℕ}
    (hp : partDay amount yieldBps remainingSecs = .error f) : f = overflowErr := by
  unfold partDay at hp
  split_ifs at hp
  · simp only [bind_eq_error, okOr_eq_error] at hp
    obtain ⟨-, rfl⟩ | ⟨_, -, ⟨-, rfl⟩ | ⟨_, -, -, rfl⟩⟩ := hp <;> rfl
  · cases hp

/-- The highest yields that compound over `2 ^ k` up to `2 ^ (k + 1)` days. -/
def yieldLimits : List ℕ :=
  [4294967295, 4294967295, 315556071, 30483592, 7511882, 2732857, 1176741, 547333, 264111, 129749,
    64308, 32013, 15971, 7977, 3986, 1992, 996, 498, 249, 124, 62, 31, 15, 7, 3, 1]

/-- The highest yield that compounds over `days` days. -/
def yieldLimit (days : ℕ) : ℕ := yieldLimits.getD days.log2 0

theorem dailyGrowth_mono {y y' : ℕ} (hle : y ≤ y') : dailyGrowth y ≤ dailyGrowth y' :=
  Nat.add_le_add_left (Nat.mul_le_mul_right _ hle) _

theorem yieldLimits_exact : ∀ k < 26,
    squarings interestDenominator k (dailyGrowth (yieldLimits.getD k 0)) < 2 ^ 64 ∧
      (yieldLimits.getD k 0 = 2 ^ 32 - 1 ∨
        2 ^ 64 ≤ squarings interestDenominator k (dailyGrowth (yieldLimits.getD k 0 + 1))) := by
  decide

theorem one_outgrows {k : ℕ} (hk : 26 ≤ k) :
    2 ^ 64 ≤ squarings interestDenominator k (dailyGrowth 1) := by
  have hlast : 2 ^ 64 ≤ squarings interestDenominator 26 (dailyGrowth 1) := by decide
  exact hlast.trans
    (squarings_le_of_le interestDenominator_pos (interestDenominator_le_dailyGrowth 1) hk)

theorem squarings_one (k : ℕ) :
    squarings interestDenominator k interestDenominator = interestDenominator := by
  induction k with
  | zero => rfl
  | succ k ih =>
    rw [squarings_succ, ih]
    exact one_mul interestDenominator_pos _

theorem compounds_iff (hy : yieldBps < 2 ^ 32) (hdays : days ≠ 0) :
    Compounds yieldBps days ↔ yieldBps ≤ yieldLimit days := by
  unfold Compounds yieldLimit
  rw [or_iff_right hdays]
  rcases Nat.lt_or_ge days.log2 26 with hk | hk
  · obtain ⟨hfits, hlast⟩ := yieldLimits_exact _ hk
    constructor
    · intro hlt
      by_contra hgt
      rcases hlast with hmax | hmax
      · omega
      · exact absurd (hmax.trans (squarings_mono _ (dailyGrowth_mono (by omega)))) hlt.not_ge
    · intro hle
      exact (squarings_mono _ (dailyGrowth_mono hle)).trans_lt hfits
  · rw [List.getD_eq_getElem?_getD, List.getElem?_eq_none hk, Option.getD_none, Nat.le_zero]
    constructor
    · intro hlt
      by_contra hne
      exact absurd ((one_outgrows hk).trans
        (squarings_mono _ (dailyGrowth_mono (Nat.one_le_iff_ne_zero.mpr hne)))) hlt.not_ge
    · rintro rfl
      have hone : dailyGrowth 0 = interestDenominator := by simp [dailyGrowth]
      rw [hone, squarings_one]
      decide

theorem days_lt (ht : elapsedSecs < 2 ^ 64) : elapsedSecs / secsPerDay < 2 ^ 64 :=
  (Nat.div_le_self _ _).trans_lt ht

theorem divRoundHalfUp_eq_ok {numerator rounded : ℕ}
    (hd : divRoundHalfUp numerator interestDenominator = .ok rounded) :
    rounded = (numerator + interestDenominator / 2) / interestDenominator := by
  unfold divRoundHalfUp at hd
  simp only [bind_eq_ok, require_eq_ok, exists_unit, okOr_eq_ok, fitU_eq_some, pure_eq_ok] at hd
  obtain ⟨-, _, ⟨rfl, -⟩, rfl⟩ := hd
  rfl

theorem divRoundHalfUp_eq_error {numerator : ℕ}
    (hd : divRoundHalfUp numerator interestDenominator = .error f) : f = overflowErr := by
  unfold divRoundHalfUp at hd
  simp only [bind_eq_error, require_eq_error, okOr_eq_error] at hd
  obtain ⟨-, rfl⟩ | ⟨_, -, ⟨-, rfl⟩ | ⟨_, -, hpure⟩⟩ := hd
  · rfl
  · rfl
  · cases hpure

theorem calculateInterest_simple {principal yieldBps elapsedSecs interest : ℕ}
    (hi : calculateInterest principal yieldBps elapsedSecs false = .ok interest) :
    interest = (principal * yieldBps * elapsedSecs + interestDenominator / 2) /
      interestDenominator := by
  unfold calculateInterest at hi
  rw [if_pos rfl] at hi
  simp only [bind_eq_ok, okOr_eq_ok, fitU_eq_some] at hi
  obtain ⟨_, ⟨rfl, -⟩, _, ⟨rfl, -⟩, hround⟩ := hi
  exact divRoundHalfUp_eq_ok hround

theorem calculateInterest_compound {principal yieldBps elapsedSecs interest : ℕ}
    (ht : elapsedSecs < 2 ^ 64)
    (hi : calculateInterest principal yieldBps elapsedSecs true = .ok interest) :
    principal * interestDenominator ≤ accrued principal yieldBps elapsedSecs ∧
      Compounds yieldBps (elapsedSecs / secsPerDay) ∧
      interest = (accrued principal yieldBps elapsedSecs - principal * interestDenominator +
        interestDenominator / 2) / interestDenominator := by
  rw [calculateInterest_true] at hi
  simp only [bind_eq_ok, okOr_eq_ok, fitU_eq_some, require_eq_ok, exists_unit] at hi
  obtain ⟨_, ⟨rfl, -⟩, amount, hamount, total, htotal, hle, hround⟩ := hi
  obtain ⟨hcompounds, rfl⟩ := wholeDays_eq_ok (days_lt ht) hamount
  obtain rfl : total = accrued principal yieldBps elapsedSecs := partDay_eq_ok htotal
  exact ⟨hle, hcompounds, divRoundHalfUp_eq_ok hround⟩

/-- The base of the whole days outgrows 64 bits. -/
def InterestTraps (principal yieldBps elapsedSecs : ℕ) (isCompound : Bool) : Prop :=
  isCompound = true ∧ principal * interestDenominator < 2 ^ 128 ∧
    elapsedSecs / secsPerDay ≠ 0 ∧ yieldLimit (elapsedSecs / secsPerDay) < yieldBps

theorem interestTraps_iff (hy : yieldBps < 2 ^ 32) :
    InterestTraps principal yieldBps elapsedSecs isCompound ↔
      isCompound = true ∧ principal * interestDenominator < 2 ^ 128 ∧
        ¬ Compounds yieldBps (elapsedSecs / secsPerDay) := by
  unfold InterestTraps
  by_cases hdays : elapsedSecs / secsPerDay = 0
  · simp [hdays, Compounds]
  · rw [compounds_iff hy hdays, not_le, and_iff_right hdays]

theorem wholeDays_eq_error (hy : yieldBps < 2 ^ 32) (hdays : days < 2 ^ 64)
    (hw : wholeDays principal yieldBps days = .error f) :
    Compounds yieldBps days ∧ f = overflowErr ∨ ¬ Compounds yieldBps days ∧ f = overflowTrap := by
  have hgrowth : dailyGrowth yieldBps < 2 ^ 128 := by
    unfold dailyGrowth interestDenominator bpsDenom secsPerYear secsPerDay
    omega
  unfold wholeDays at hw
  split_ifs at hw
  · simp only [bind_eq_error, okOr_eq_error, okOr_eq_ok, fitU_eq_some] at hw
    obtain ⟨hnone, -⟩ | ⟨_, ⟨rfl, -⟩, hpow | ⟨factor, hpow, -, rfl⟩⟩ := hw
    · rw [fitU, if_pos hgrowth] at hnone
      cases hnone
    · exact .inr ((fixedPointPow_eq_error hdays).mp hpow)
    · exact .inl ⟨((fixedPointPow_eq_ok hdays).mp hpow).1, rfl⟩
  · cases hw

theorem calculateInterest_eq_error (hy : yieldBps < 2 ^ 32) (ht : elapsedSecs < 2 ^ 64)
    (hi : calculateInterest principal yieldBps elapsedSecs isCompound = .error f) :
    InterestTraps principal yieldBps elapsedSecs isCompound ∧ f = overflowTrap ∨
      ¬ InterestTraps principal yieldBps elapsedSecs isCompound ∧ f = overflowErr := by
  rw [interestTraps_iff hy]
  cases isCompound with
  | false =>
    refine .inr ⟨fun htraps => Bool.false_ne_true htraps.1, ?_⟩
    unfold calculateInterest at hi
    rw [if_pos rfl] at hi
    simp only [bind_eq_error, okOr_eq_error] at hi
    obtain ⟨-, rfl⟩ | ⟨_, -, ⟨-, rfl⟩ | ⟨_, -, hround⟩⟩ := hi
    · rfl
    · rfl
    · exact divRoundHalfUp_eq_error hround
  | true =>
    rw [calculateInterest_true] at hi
    simp only [bind_eq_error, okOr_eq_error, okOr_eq_ok, fitU_eq_some, require_eq_error] at hi
    obtain ⟨hnone, rfl⟩ | ⟨_, ⟨rfl, hfits⟩, hwhole | ⟨amount, hwhole, hlast⟩⟩ := hi
    · refine .inr ⟨fun htraps => ?_, rfl⟩
      rw [fitU, if_pos htraps.2.1] at hnone
      cases hnone
    · obtain ⟨hcompounds, rfl⟩ | ⟨hnot, rfl⟩ := wholeDays_eq_error hy (days_lt ht) hwhole
      · exact .inr ⟨fun htraps => htraps.2.2 hcompounds, rfl⟩
      · exact .inl ⟨⟨rfl, hfits, hnot⟩, rfl⟩
    · have hcompounds := (wholeDays_eq_ok (days_lt ht) hwhole).1
      refine .inr ⟨fun htraps => htraps.2.2 hcompounds, ?_⟩
      obtain hpart | ⟨_, -, ⟨-, rfl⟩ | ⟨_, -, hround⟩⟩ := hlast
      · exact partDay_eq_error hpart
      · rfl
      · exact divRoundHalfUp_eq_error hround

theorem calculateInterest_traps_iff (hy : yieldBps < 2 ^ 32) (ht : elapsedSecs < 2 ^ 64) :
    calculateInterest principal yieldBps elapsedSecs isCompound = .error overflowTrap ↔
      InterestTraps principal yieldBps elapsedSecs isCompound := by
  constructor
  · intro hi
    obtain ⟨htraps, -⟩ | ⟨-, hne⟩ := calculateInterest_eq_error hy ht hi
    · exact htraps
    · cases hne
  · intro htraps
    cases hi : calculateInterest principal yieldBps elapsedSecs isCompound with
    | ok interest =>
      obtain ⟨rfl, -, hnot⟩ := (interestTraps_iff hy).mp htraps
      exact absurd (calculateInterest_compound ht hi).2.1 hnot
    | error f =>
      obtain ⟨-, rfl⟩ | ⟨hnot, -⟩ := calculateInterest_eq_error hy ht hi
      · rfl
      · exact absurd htraps hnot

end Astera.Pool
