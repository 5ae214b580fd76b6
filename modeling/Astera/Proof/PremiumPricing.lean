import Astera.Insurance.System

/-!
# Prices of the insurance

A premium grows with the multiplier of the score, with the tenor and with the principal, and stays
in its band.  The multiplier is that of the tier of the score or the default, and the validator does
not compare multipliers: whether a better score is cheaper is left to the admin.
-/

namespace Astera.Insurance

open Fallible Machine

theorem saturatingMulU_le {a a' b b' : ℕ} (ha : a ≤ a') (hb : b ≤ b') :
    saturatingMulU 128 a b ≤ saturatingMulU 128 a' b' :=
  min_le_min_right _ (Nat.mul_le_mul ha hb)

theorem saturatingAddU_le {a a' b b' : ℕ} (ha : a ≤ a') (hb : b ≤ b') :
    saturatingAddU 128 a b ≤ saturatingAddU 128 a' b' :=
  min_le_min_right _ (Nat.add_le_add ha hb)

theorem calculatePremiumWithMultiplier_mono {config : PremiumConfig} {principal principal' : ℤ}
    {multiplier multiplier' tenor tenor' : ℕ} (hp : principal ≤ principal')
    (hm : multiplier ≤ multiplier') (ht : tenor ≤ tenor') :
    calculatePremiumWithMultiplier principal multiplier tenor config ≤
      calculatePremiumWithMultiplier principal' multiplier' tenor' config := by
  unfold calculatePremiumWithMultiplier
  by_cases hpos : principal ≤ 0
  · rw [if_pos hpos]
    exact Nat.zero_le _
  · have hpos' : ¬ principal' ≤ 0 := fun h => hpos (hp.trans h)
    rw [if_neg hpos, if_neg hpos']
    have hnat : principal.toNat ≤ principal'.toNat := Int.toNat_le_toNat hp
    have hrated : ∀ rate, saturatingMulU 128 principal.toNat rate / bpsDenom ≤
        saturatingMulU 128 principal'.toNat rate / bpsDenom := fun _ =>
      Nat.div_le_div_right (saturatingMulU_le hnat le_rfl)
    have hrisk := Nat.div_le_div_right (c := bpsDenom)
      (saturatingMulU_le (hrated config.baseRateBps) hm)
    have hbonus := Nat.div_le_div_right (c := bpsDenom) (saturatingMulU_le hrisk
      (saturatingMulU_le ht (le_refl config.tenorBpsPerDay)))
    exact min_le_min (max_le_max (saturatingAddU_le hrisk hbonus) (hrated _)) (hrated _)

theorem saturatingMulU_principal {principal : ℤ} (hpos : 0 < principal)
    (hfits : principal * 10_000 < 2 ^ 128) {rate : ℕ} (hrate : rate ≤ bpsDenom) :
    saturatingMulU 128 principal.toNat rate = principal.toNat * rate := by
  have hrate' : principal.toNat * rate ≤ principal.toNat * 10_000 := Nat.mul_le_mul_left _ hrate
  unfold saturatingMulU
  omega

/-! ## Accepted configurations -/

/-- The tiers and the default, which decide on the multiplier of a score. -/
def PremiumConfig.SameRisks (config config' : PremiumConfig) : Prop :=
  config.riskTiers = config'.riskTiers ∧
    config.defaultRiskMultiplierBps = config'.defaultRiskMultiplierBps

/-- The multiplier never rises with the score. -/
def PremiumConfig.RisksFall (config : PremiumConfig) : Prop :=
  ∀ score score', score ≤ score' → score' < 2 ^ 32 →
    resolveRiskMultiplierBps score' config ≤ resolveRiskMultiplierBps score config

/-- The premiums of a configuration never rise with the score, never fall with the tenor or the
principal, and are in their band. -/
structure PremiumConfig.PricesMonotonically (config : PremiumConfig) : Prop where
  score : ∀ principal score score' tenor, 0 < principal → principal * 10_000 < 2 ^ 128 →
    score ≤ score' → score' < 2 ^ 32 → tenor < 2 ^ 32 →
    calculatePremium principal score' tenor config ≤ calculatePremium principal score tenor config
  tenor : ∀ principal score tenor tenor', 0 < principal → principal * 10_000 < 2 ^ 128 →
    score < 2 ^ 32 → tenor ≤ tenor' → tenor' < 2 ^ 32 →
    calculatePremium principal score tenor config ≤ calculatePremium principal score tenor' config
  principal : ∀ principal principal' score tenor, 0 < principal → principal ≤ principal' →
    principal' * 10_000 < 2 ^ 128 → score < 2 ^ 32 → tenor < 2 ^ 32 →
    calculatePremium principal score tenor config ≤ calculatePremium principal' score tenor config
  band : ∀ principal score tenor, 0 < principal → principal * 10_000 < 2 ^ 128 →
    score < 2 ^ 32 → tenor < 2 ^ 32 →
    principal * config.minPremiumBps / 10_000 ≤ (calculatePremium principal score tenor config : ℤ) ∧
      (calculatePremium principal score tenor config : ℤ) ≤
        principal * config.maxPremiumBps / 10_000

theorem resolveRiskMultiplierBps_congr {config config' : PremiumConfig}
    (hsame : config.SameRisks config') (score : ℕ) :
    resolveRiskMultiplierBps score config = resolveRiskMultiplierBps score config' := by
  simp only [resolveRiskMultiplierBps, hsame.1, hsame.2]

variable {W : Type} {signers : List Address} {s s' : State W} {admin : Address}
  {config : PremiumConfig}

theorem setPremiumConfig_eq_ok :
    setPremiumConfig signers s admin config = .ok s' ↔
      s.asAdmin signers admin = .ok () ∧ validatePremiumConfig config = .ok () ∧
        (config.defaultCoverageBps ≠ 0 ∧ config.defaultCoverageBps ≤ bpsDenom) ∧
        { s with premiumConfig := some config } = s' := by
  simp only [setPremiumConfig, bind_eq_ok, exists_unit, require_eq_ok, pure_eq_ok]

theorem validatePremiumConfig_eq_ok :
    validatePremiumConfig config = .ok () ↔
      config.minPremiumBps ≤ config.maxPremiumBps ∧
      (config.baseRateBps ≤ bpsDenom ∧ config.tenorBpsPerDay ≤ bpsDenom ∧
        config.minPremiumBps ≤ bpsDenom ∧ config.maxPremiumBps ≤ bpsDenom) ∧
      (config.defaultRiskMultiplierBps ≠ 0 ∧
        config.defaultRiskMultiplierBps ≤ maxRiskMultiplierBps) ∧
      (∀ tier ∈ config.riskTiers, tier.minScore ≤ tier.maxScore ∧ tier.riskMultiplierBps ≠ 0 ∧
        tier.riskMultiplierBps ≤ maxRiskMultiplierBps) ∧
      config.riskTiers.Pairwise fun tier other =>
        ¬ (tier.minScore ≤ other.maxScore ∧ other.minScore ≤ tier.maxScore) := by
  simp only [validatePremiumConfig, bind_eq_ok, exists_unit, require_eq_ok]

theorem resolveRiskMultiplierBps_le (hvalid : validatePremiumConfig config = .ok ()) (score : ℕ) :
    resolveRiskMultiplierBps score config ≤ maxRiskMultiplierBps := by
  obtain ⟨-, -, hdefault, htiers, -⟩ := validatePremiumConfig_eq_ok.1 hvalid
  unfold resolveRiskMultiplierBps
  split
  next tier hfind => exact (htiers tier (List.mem_of_find?_eq_some hfind)).2.2
  next => exact hdefault.2

theorem calculatePremium_band (hvalid : validatePremiumConfig config = .ok ()) {principal : ℤ}
    (hpos : 0 < principal) (hfits : principal * 10_000 < 2 ^ 128) (score tenor : ℕ) :
    principal * config.minPremiumBps / 10_000 ≤ (calculatePremium principal score tenor config : ℤ) ∧
      (calculatePremium principal score tenor config : ℤ) ≤
        principal * config.maxPremiumBps / 10_000 := by
  obtain ⟨hband, ⟨-, -, hmin, hmax⟩, -⟩ := validatePremiumConfig_eq_ok.1 hvalid
  have hle : principal.toNat * config.minPremiumBps / bpsDenom ≤
      principal.toNat * config.maxPremiumBps / bpsDenom :=
    Nat.div_le_div_right (Nat.mul_le_mul_left _ hband)
  have hcast : ∀ rate : ℕ, principal * rate / 10_000 = (principal.toNat * rate / bpsDenom : ℕ) := by
    intro rate
    push_cast [bpsDenom]
    rw [Int.toNat_of_nonneg hpos.le]
  unfold calculatePremium calculatePremiumWithMultiplier
  rw [if_neg (not_le.2 hpos), hcast, hcast, Nat.cast_le, Nat.cast_le]
  dsimp only
  rw [saturatingMulU_principal hpos hfits hmin, saturatingMulU_principal hpos hfits hmax]
  exact ⟨le_min (le_max_right _ _) hle, min_le_right _ _⟩

/-- With these rates, the premium for 100000000 is the multiplier times 1000. -/
def PremiumConfig.rerated (config : PremiumConfig) : PremiumConfig :=
  { config with baseRateBps := 1000, tenorBpsPerDay := 0, minPremiumBps := 0, maxPremiumBps := 10_000 }

theorem calculatePremium_rerated (hvalid : validatePremiumConfig config = .ok ()) (score : ℕ) :
    calculatePremium 100_000_000 score 0 config.rerated =
      1000 * resolveRiskMultiplierBps score config := by
  have hle := resolveRiskMultiplierBps_le hvalid score
  have hsame : resolveRiskMultiplierBps score config.rerated =
    resolveRiskMultiplierBps score config := resolveRiskMultiplierBps_congr ⟨rfl, rfl⟩ score
  unfold calculatePremium calculatePremiumWithMultiplier
  rw [hsame, if_neg (by decide)]
  have hbase : saturatingMulU 128 (100_000_000 : ℤ).toNat 1000 / bpsDenom = 10_000_000 := by decide
  have hrisk : saturatingMulU 128 10_000_000 (resolveRiskMultiplierBps score config) / bpsDenom =
      1000 * resolveRiskMultiplierBps score config := by
    unfold maxRiskMultiplierBps at hle
    unfold saturatingMulU bpsDenom
    omega
  simp only [PremiumConfig.rerated, hbase, hrisk]
  unfold maxRiskMultiplierBps at hle
  simp [saturatingMulU, saturatingAddU, bpsDenom]
  omega

theorem setPremiumConfig_rerated (hset : setPremiumConfig signers s admin config = .ok s') :
    setPremiumConfig signers s admin config.rerated =
      .ok { s with premiumConfig := some config.rerated } := by
  obtain ⟨hadmin, hvalid, hcoverage, -⟩ := setPremiumConfig_eq_ok.1 hset
  obtain ⟨-, -, hdefault, htiers, hapart⟩ := validatePremiumConfig_eq_ok.1 hvalid
  exact setPremiumConfig_eq_ok.2 ⟨hadmin, validatePremiumConfig_eq_ok.2
    ⟨Nat.zero_le _, by simp [PremiumConfig.rerated, bpsDenom], hdefault, htiers, hapart⟩,
    hcoverage, rfl⟩

theorem PremiumConfig.RisksFall.pricesMonotonically (hfall : config.RisksFall)
    (hvalid : validatePremiumConfig config = .ok ()) : config.PricesMonotonically where
  score _ score score' _ _ _ hle hlt _ :=
    calculatePremiumWithMultiplier_mono le_rfl (hfall score score' hle hlt) le_rfl
  tenor _ _ _ _ _ _ _ hle _ := calculatePremiumWithMultiplier_mono le_rfl le_rfl hle
  principal _ _ _ _ _ hle _ _ _ := calculatePremiumWithMultiplier_mono hle le_rfl le_rfl
  band _ score tenor hpos hfits _ _ := calculatePremium_band hvalid hpos hfits score tenor

/-- All accepted configurations with the tiers and the default of an accepted one price monotonically,
whatever their rates, exactly when the multiplier never rises with the score. -/
theorem prices_monotone_iff (hset : setPremiumConfig signers s admin config = .ok s') :
    (∀ (rated : PremiumConfig) (s'' : State W),
      setPremiumConfig signers s admin rated = .ok s'' → rated.SameRisks config →
        rated.PricesMonotonically) ↔ config.RisksFall := by
  obtain ⟨-, hvalid, -⟩ := setPremiumConfig_eq_ok.1 hset
  constructor
  · intro hprices score score' hle hlt
    have hscore := (hprices config.rerated _ (setPremiumConfig_rerated hset) ⟨rfl, rfl⟩).score
      100_000_000 score score' 0 (by decide) (by decide) hle hlt (by decide)
    rw [calculatePremium_rerated hvalid, calculatePremium_rerated hvalid] at hscore
    omega
  · intro hfall rated s'' hset' hsame
    refine PremiumConfig.RisksFall.pricesMonotonically (fun score score' hle hlt => ?_)
      (setPremiumConfig_eq_ok.1 hset').2.1
    rw [resolveRiskMultiplierBps_congr hsame, resolveRiskMultiplierBps_congr hsame]
    exact hfall score score' hle hlt

theorem prices_monotone_iff_sample :
    (∀ (rated : PremiumConfig) (s'' : State Unit),
      setPremiumConfig [2] sampleStart 2 rated = .ok s'' → rated.SameRisks sampleConfig →
        rated.PricesMonotonically) ↔ sampleConfig.RisksFall :=
  prices_monotone_iff (show setPremiumConfig [2] sampleStart 2 sampleConfig =
      .ok { sampleStart with premiumConfig := some sampleConfig } from
    setPremiumConfig_eq_ok.2 ⟨rfl, validatePremiumConfig_eq_ok.2 (by decide), by decide, rfl⟩)

/-- A tier of half the default for scores up to 500: the cover of 1000000 costs 10000 at 500 and 20000
at 501. -/
theorem better_score_costs_more :
    ∃ (config : PremiumConfig) (s' : State Unit),
      setPremiumConfig [2] sampleStart 2 config = .ok s' ∧
        calculatePremium 1_000_000 500 30 config < calculatePremium 1_000_000 501 30 config :=
  ⟨{ sampleConfig with riskTiers := [⟨0, 500, 5_000⟩] }, _,
    setPremiumConfig_eq_ok.2 ⟨rfl, validatePremiumConfig_eq_ok.2 (by decide), by decide, rfl⟩,
    by decide⟩

end Astera.Insurance
