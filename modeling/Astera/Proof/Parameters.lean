import Astera.Pool.Governance

/-!
# Stored parameters

`ValidParams` collects the limits of the parameters; `Action.fits` names the inputs of three setters
that leave them: a collateral configuration without collateral, an exchange rate outside of its
bounds, and bounds that leave out the stored rate.
-/

namespace Astera.Pool

open Fallible Machine Transition

variable {W : Type}

structure ValidParams (p : Params) : Prop where
  collateral : validateCollateralConfig p.collateralConfig.threshold
    p.collateralConfig.collateralBps = .ok ()
  rate : ∀ token rate, p.storedExchangeRate token = some rate →
    0 < rate ∧ p.WithinBounds token rate
  yield : p.config.yieldBps ≤ 5000
  utilization : p.config.maxUtilizationBps ≤ 10000
  feeTier : ∀ id tier, p.feeTier id = some tier →
    0 ≤ tier.minAmount ∧ tier.minAmount ≤ tier.maxAmount ∧ tier.feeBps ≤ 10000
  loyalty_ne_nil : p.loyaltyTiers ≠ []
  loyalty_ascending : p.loyaltyTiers.Pairwise fun a b => a.minDays < b.minDays
  loyalty_capped : ∀ tier ∈ p.loyaltyTiers, tier.bonusBps ≤ 2000

/-- The parameters are valid, and so is a yield that is waiting. -/
structure InLimits (p : Params) : Prop extends ValidParams p where
  proposed : p.config.proposedYieldBps ≤ 5000

/-- The inputs of the setters whose checks leave something out. -/
def Action.fits (s : State W) : Action W → Bool
  | .set (.setCollateralConfigGov _ config) => decide (config.collateralBps ≠ 0)
  | .set (.setExchangeRateViaGovernance _ token rateBps) =>
    decide (s.params.WithinBounds token rateBps)
  | .set (.setRateBounds _ token minBps maxBps)
  | .set (.setRateBoundsViaGovernance _ token minBps maxBps) =>
    decide (∀ rate ∈ s.params.storedExchangeRate token, minBps ≤ rate ∧ rate ≤ maxBps)
  | _ => true

theorem validateCollateralConfig_eq_ok {threshold : ℤ} {collateralBps : ℕ} :
    validateCollateralConfig threshold collateralBps = .ok () ↔
      0 ≤ threshold ∧ collateralBps ≤ 10000 ∧ ¬ (collateralBps = 0 ∧ 0 < threshold) := by
  simp only [validateCollateralConfig, bind_eq_ok, require_eq_ok, exists_unit]
  rfl

/-! ## Writes of one parameter -/

section Writes

variable {p p' : Params}

theorem InLimits.of_kept (hp : InLimits p)
    (hk : ∀ f, f ≠ .yieldPolicy → f ≠ .rateModel → f ≠ .operationDelay → p'.read f = p.read f) :
    InLimits p' := by
  have hcollateral : p'.collateralConfig = p.collateralConfig :=
    hk .collateralConfig (by decide) (by decide) (by decide)
  have hrate : p'.storedExchangeRate = p.storedExchangeRate :=
    hk .exchangeRate (by decide) (by decide) (by decide)
  have hbounds : p'.rateBounds = p.rateBounds := hk .rateBounds (by decide) (by decide) (by decide)
  have hyield := Params.read_yield_eq.1 (hk .yield (by decide) (by decide) (by decide))
  have hutil : p'.config.maxUtilizationBps = p.config.maxUtilizationBps :=
    hk .maxUtilization (by decide) (by decide) (by decide)
  have htier : p'.feeTier = p.feeTier := hk .feeTiers (by decide) (by decide) (by decide)
  have hloyalty : p'.loyaltyTiers = p.loyaltyTiers :=
    hk .loyaltyTiers (by decide) (by decide) (by decide)
  refine ⟨⟨?_, ?_, ?_, ?_, ?_, ?_, ?_, ?_⟩, ?_⟩
  · rw [hcollateral]
    exact hp.collateral
  · unfold Params.WithinBounds
    rw [hrate, hbounds]
    exact hp.rate
  · rw [hyield.1]
    exact hp.yield
  · rw [hutil]
    exact hp.utilization
  · rw [htier]
    exact hp.feeTier
  · rw [hloyalty]
    exact hp.loyalty_ne_nil
  · rw [hloyalty]
    exact hp.loyalty_ascending
  · rw [hloyalty]
    exact hp.loyalty_capped
  · rw [hyield.2.2.1]
    exact hp.proposed

theorem withRateBounds_rate (hp : ValidParams p) (token : Address) (minBps maxBps : ℕ) :
    (∀ t rate, (p.withRateBounds token minBps maxBps).storedExchangeRate t = some rate →
      0 < rate ∧ (p.withRateBounds token minBps maxBps).WithinBounds t rate) ↔
    ∀ rate ∈ p.storedExchangeRate token, minBps ≤ rate ∧ rate ≤ maxBps := by
  constructor
  · intro hv rate hrate
    exact (hv token rate hrate).2 ⟨minBps, maxBps⟩ (by simp [Params.withRateBounds])
  · intro hfits t rate hrate
    refine ⟨(hp.rate t rate hrate).1, fun bounds hbounds => ?_⟩
    by_cases ht : t = token
    · subst ht
      simp only [Params.withRateBounds, Function.update_self, Option.some.injEq] at hbounds
      subst hbounds
      exact hfits rate hrate
    · simp only [Params.withRateBounds, Function.update_of_ne ht] at hbounds
      exact (hp.rate t rate hrate).2 bounds hbounds

theorem withExchangeRate_rate (hp : ValidParams p) (token : Address) {rateBps : ℕ}
    (hpos : rateBps ≠ 0) :
    (∀ t rate, (p.withExchangeRate token rateBps).storedExchangeRate t = some rate →
      0 < rate ∧ (p.withExchangeRate token rateBps).WithinBounds t rate) ↔
    p.WithinBounds token rateBps := by
  constructor
  · intro hv
    exact (hv token rateBps (by simp [Params.withExchangeRate])).2
  · intro hwithin t rate hrate
    by_cases ht : t = token
    · subst ht
      simp only [Params.withExchangeRate, Function.update_self, Option.some.injEq] at hrate
      subst hrate
      exact ⟨Nat.pos_of_ne_zero hpos, hwithin⟩
    · simp only [Params.withExchangeRate, Function.update_of_ne ht] at hrate
      exact hp.rate t rate hrate

theorem update_feeTier {tiers : ℕ → Option FeeTier} {valid : FeeTier → Prop} {tierId : ℕ}
    {entry : Option FeeTier} (hall : ∀ id tier, tiers id = some tier → valid tier)
    (hentry : ∀ tier, entry = some tier → valid tier) (id : ℕ) (tier : FeeTier)
    (hget : Function.update tiers tierId entry id = some tier) : valid tier := by
  rw [Function.update_apply] at hget
  split_ifs at hget
  · exact hentry tier hget
  · exact hall id tier hget

theorem InLimits.fits (hp : InLimits p) {fits : Bool} (hfits : fits = true) :
    (ValidParams p ↔ fits = true) ∧ p.config.proposedYieldBps ≤ 5000 :=
  ⟨⟨fun _ => hfits, fun _ => hp.toValidParams⟩, hp.proposed⟩

end Writes

theorem applySetting_valid {h : Host W} {signers : List Address} {s : State W} {x : Setting}
    {p : Params} (hs : InLimits s.params) (hx : applySetting h signers s x = .ok p) :
    (ValidParams p ↔ Action.fits s (.set x) = true) ∧ p.config.proposedYieldBps ≤ 5000 := by
  cases x
  case setYield | setYieldViaAc =>
    obtain ⟨hcap, -, -, rfl⟩ := writeYield_eq_ok hx
    refine InLimits.fits ?_ rfl
    exact { hs with yield := hcap }
  case setYieldViaGovernance =>
    obtain ⟨-, hcap, rfl⟩ := writeIf_eq_ok.1 hx
    refine InLimits.fits ?_ rfl
    exact { hs with yield := hcap }
  case proposeYieldChange =>
    obtain ⟨hcap, -, -, rfl⟩ := proposeYieldChange_eq_ok hx
    refine InLimits.fits ?_ rfl
    exact { hs with proposed := hcap }
  case executeYieldChange =>
    obtain ⟨-, rfl⟩ := executeYieldChange_eq_ok hx
    refine InLimits.fits ?_ rfl
    exact { hs with yield := hs.proposed, proposed := Nat.zero_le _ }
  case cancelYieldProposal =>
    obtain ⟨-, rfl⟩ := write_eq_ok.1 hx
    refine InLimits.fits ?_ rfl
    exact { hs with proposed := Nat.zero_le _ }
  case setMaxUtilization | setMaxUtilizationViaAc | setMaxUtilizationGov =>
    obtain ⟨-, hcap, rfl⟩ := writeIf_eq_ok.1 hx
    refine InLimits.fits ?_ rfl
    exact { hs with utilization := hcap }
  case setFeeTier | setFeeTierViaGovernance =>
    obtain ⟨-, hvalid, rfl⟩ := writeIf_eq_ok.1 hx
    refine InLimits.fits ?_ rfl
    refine { hs with feeTier := update_feeTier hs.feeTier fun tier htier => ?_ }
    obtain rfl := Option.some.inj htier
    exact hvalid
  case removeFeeTier =>
    obtain ⟨-, -, rfl⟩ := writeIf_eq_ok.1 hx
    refine InLimits.fits ?_ rfl
    exact { hs with feeTier := update_feeTier hs.feeTier fun _ hnone => nomatch hnone }
  case setLoyaltyTiers | setLoyaltyTiersViaGovernance =>
    obtain ⟨hne, hbonus, hsorted, rfl⟩ := writeLoyaltyTiers_eq_ok hx
    refine InLimits.fits ?_ rfl
    exact { hs with
      loyalty_ne_nil := hne
      loyalty_ascending := hsorted
      loyalty_capped := hbonus }
  case setExchangeRate =>
    obtain ⟨hpos, hwithin, rfl⟩ := setExchangeRate_eq_ok hx
    refine InLimits.fits ?_ rfl
    exact { hs with
      rate := (withExchangeRate_rate hs.toValidParams _ hpos).2 hwithin }
  case setExchangeRateViaGovernance governance token rateBps =>
    obtain ⟨-, hpos, rfl⟩ := writeIf_eq_ok.1 hx
    have hrate := withExchangeRate_rate hs.toValidParams token hpos
    refine ⟨⟨fun hv => decide_eq_true (hrate.1 hv.rate), fun hfits => ?_⟩, hs.proposed⟩
    exact { hs.toValidParams with rate := hrate.2 (of_decide_eq_true hfits) }
  case setRateBounds admin token minBps maxBps =>
    obtain rfl := setRateBounds_eq_ok hx
    have hrate := withRateBounds_rate hs.toValidParams token minBps maxBps
    refine ⟨⟨fun hv => decide_eq_true (hrate.1 hv.rate), fun hfits => ?_⟩, hs.proposed⟩
    exact { hs.toValidParams with rate := hrate.2 (of_decide_eq_true hfits) }
  case setRateBoundsViaGovernance governance token minBps maxBps =>
    obtain ⟨-, -, rfl⟩ := writeIf_eq_ok.1 hx
    have hrate := withRateBounds_rate hs.toValidParams token minBps maxBps
    refine ⟨⟨fun hv => decide_eq_true (hrate.1 hv.rate), fun hfits => ?_⟩, hs.proposed⟩
    exact { hs.toValidParams with rate := hrate.2 (of_decide_eq_true hfits) }
  case setCollateralConfigGov governance config =>
    obtain ⟨-, ⟨hpos, hcap⟩, rfl⟩ := writeIf_eq_ok.1 hx
    have hcollateral : validateCollateralConfig config.threshold config.collateralBps = .ok () ↔
        config.collateralBps ≠ 0 := by
      rw [validateCollateralConfig_eq_ok]
      omega
    refine ⟨⟨fun hv => decide_eq_true (hcollateral.1 hv.collateral), fun hfits => ?_⟩,
      hs.proposed⟩
    exact { hs.toValidParams with collateral := hcollateral.2 (of_decide_eq_true hfits) }
  all_goals
    refine InLimits.fits (hs.of_kept fun f h₁ h₂ h₃ => applySetting_keeps hx f ?_) rfl
    cases f <;> first | contradiction | (dsimp only [Setting.parts]; decide)

theorem valid_iff_fits {h : Host W} {s s' : State W} {step : Step h} (hs : InLimits s.params)
    (hstep : govern h s step = .ok s') :
    (ValidParams s'.params ↔ step.action.fits s = true) ∧
      s'.params.config.proposedYieldBps ≤ 5000 := by
  obtain ⟨signers, hself, action, hnamed⟩ := step
  cases action with
  | set x =>
    obtain ⟨params, history, hx, rfl⟩ := runSetting_eq_ok hstep
    exact applySetting_valid hs hx
  | call call =>
    refine InLimits.fits ?_ rfl
    cases call
    case executeOperation admin proposalId =>
      have hexec : executeOperation h signers s admin proposalId = .ok s' := hstep
      rcases executeOperation_params hexec with hp | ⟨threshold, bps, hvalid, hp⟩
      · rw [hp]
        exact hs
      · rw [hp]
        exact { hs with collateral := hvalid }
    all_goals exact hs.of_kept fun f _ _ _ => govern_keeps f rfl hstep

theorem inLimits_initial (now : ℕ) (world : W) (cash : Address → Address → ℤ)
    (shareTokens : Address → Share.ShareToken) (admin token share invoiceContract : Address) :
    InLimits (initialState now world cash shareTokens admin token share invoiceContract).params where
  collateral := rfl
  rate := fun _ _ hnone => nomatch hnone
  yield := show 800 ≤ 5000 by decide
  utilization := le_rfl
  feeTier := fun _ _ hnone => nomatch hnone
  loyalty_ne_nil := show defaultLoyaltyTiers ≠ [] by decide
  loyalty_ascending := show defaultLoyaltyTiers.Pairwise fun a b => a.minDays < b.minDays by decide
  loyalty_capped := show ∀ tier ∈ defaultLoyaltyTiers, tier.bonusBps ≤ 2000 by decide
  proposed := Nat.zero_le _

/-- In every run whose steps all fit, the parameters are valid in every state; and a further step
leaves them valid exactly when it fits as well. -/
theorem parameters_stay_valid (h : Host W) (now : ℕ) (world : W) (cash : Address → Address → ℤ)
    (shareTokens : Address → Share.ShareToken) (admin token share invoiceContract : Address)
    {s : State W}
    (hrun : Reaches (govern h) (fun s step => step.action.fits s = true)
      (initialState now world cash shareTokens admin token share invoiceContract) s) :
    ValidParams s.params ∧ ∀ step s', govern h s step = .ok s' →
      (ValidParams s'.params ↔ step.action.fits s = true) := by
  have hlimits : InLimits s.params := by
    refine hrun.invariant (P := fun s => InLimits s.params)
      (inLimits_initial now world cash shareTokens admin token share invoiceContract) ?_
    intro s step s' hs hfits hstep
    obtain ⟨hiff, hproposed⟩ := valid_iff_fits hs hstep
    exact ⟨hiff.2 hfits, hproposed⟩
  exact ⟨hlimits.toValidParams, fun step s' hstep => (valid_iff_fits hlimits hstep).1⟩

/-- The admin 1 names the governance contract 5 and bounds the exchange rate of the token 10. -/
def bounded : List (Step quietHost) :=
  [setBy 1 (.setGovernanceAddress 1 5) self_ne_one,
    setBy 1 (.setRateBounds 1 10 9000 11000) self_ne_one,
    setBy 1 (.setExchangeRate 1 10 10500) self_ne_one]

theorem parameters_stay_valid_bounded : ∃ s : State Unit,
    (bounded ++ [setBy 5 (.setCollateralConfigGov 5 ⟨1, 1000⟩) (by decide),
      setBy 5 (.setExchangeRateViaGovernance 5 10 9500) (by decide)]).foldlM (govern quietHost)
      sampleState = .ok s ∧
    s.params.storedExchangeRate 10 = some 9500 ∧ s.params.collateralConfig = ⟨1, 1000⟩ ∧
    ValidParams s.params := by
  obtain ⟨s, hs, hcheck⟩ := exists_of_check
    (p := fun s => decide (s.params.storedExchangeRate 10 = some 9500 ∧
      s.params.collateralConfig = ⟨1, 1000⟩))
    (x := (bounded ++ [setBy 5 (.setCollateralConfigGov 5 ⟨1, 1000⟩) (by decide),
      setBy 5 (.setExchangeRateViaGovernance 5 10 9500) (by decide)]).foldlM (govern quietHost)
      sampleState) (by decide)
  have hrun : Reaches (govern quietHost) (fun s step => step.action.fits s = true) sampleState s :=
    reaches_of_along .refl (by decide) hs
  obtain ⟨hrate, hcollateral⟩ := of_decide_eq_true hcheck
  exact ⟨s, hs, hrate, hcollateral,
    (parameters_stay_valid quietHost 1 () _ _ 1 10 20 2 hrun).1⟩

/-- Governance stores a collateral configuration that asks for no collateral above its threshold,
or an exchange rate outside of the bounds; the admin stores bounds that the rate does not keep. -/
theorem stored_parameters_invalid :
    (∃ s : State Unit, (bounded ++ [setBy 5 (.setCollateralConfigGov 5 ⟨1, 0⟩)
        (by decide)]).foldlM (govern quietHost) sampleState = .ok s ∧ ¬ ValidParams s.params) ∧
    (∃ s : State Unit, (bounded ++ [setBy 5 (.setExchangeRateViaGovernance 5 10 20000)
        (by decide)]).foldlM (govern quietHost) sampleState = .ok s ∧ ¬ ValidParams s.params) ∧
    ∃ s : State Unit, (bounded ++ [setBy 1 (.setRateBounds 1 10 9000 10000)
        (by decide)]).foldlM (govern quietHost) sampleState = .ok s ∧ ¬ ValidParams s.params := by
  refine ⟨?_, ?_, ?_⟩
  · obtain ⟨s, hs, hcheck⟩ := exists_of_check
      (p := fun s => decide (s.params.collateralConfig = ⟨1, 0⟩))
      (x := (bounded ++ [setBy 5 (.setCollateralConfigGov 5 ⟨1, 0⟩)
        (by decide)]).foldlM (govern quietHost) sampleState) (by decide)
    refine ⟨s, hs, fun hv => ?_⟩
    have hcollateral := hv.collateral
    rw [of_decide_eq_true hcheck] at hcollateral
    exact (validateCollateralConfig_eq_ok.1 hcollateral).2.2 ⟨rfl, by decide⟩
  · obtain ⟨s, hs, hcheck⟩ := exists_of_check
      (p := fun s => decide (s.params.storedExchangeRate 10 = some 20000 ∧
        ¬ s.params.WithinBounds 10 20000))
      (x := (bounded ++ [setBy 5 (.setExchangeRateViaGovernance 5 10 20000)
        (by decide)]).foldlM (govern quietHost) sampleState) (by decide)
    obtain ⟨hrate, hout⟩ := of_decide_eq_true hcheck
    exact ⟨s, hs, fun hv => hout (hv.rate 10 20000 hrate).2⟩
  · obtain ⟨s, hs, hcheck⟩ := exists_of_check
      (p := fun s => decide (s.params.storedExchangeRate 10 = some 10500 ∧
        ¬ s.params.WithinBounds 10 10500))
      (x := (bounded ++ [setBy 1 (.setRateBounds 1 10 9000 10000)
        (by decide)]).foldlM (govern quietHost) sampleState) (by decide)
    obtain ⟨hrate, hout⟩ := of_decide_eq_true hcheck
    exact ⟨s, hs, fun hv => hout (hv.rate 10 10500 hrate).2⟩

end Astera.Pool
