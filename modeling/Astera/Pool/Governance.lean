import Astera.Pool.Settings

/-!
# The governed pool

`govern` is the pool with its setters spelled out: a step is a call, other than `setParams`, or one
of the setters.  `Action.parts` lists the parameters that a step may write; by `govern_keeps` the
others stay.
-/

namespace Astera.Pool

open Fallible Machine

variable {W : Type}

/-- The parts of the parameters that the results about the setters are about. -/
inductive Part
  | yield | yieldPolicy | maxUtilization | collateralConfig | exchangeRate | rateBounds | feeTiers
  | loyaltyTiers | rateModel | operationDelay
  deriving DecidableEq, Repr

def Part.Content : Part → Type
  | .yield => ℕ × ℕ × ℕ × ℕ
  | .yieldPolicy => ℕ × ℕ × ℕ
  | .maxUtilization => ℕ
  | .collateralConfig => CollateralConfig
  | .exchangeRate => Address → Option ℕ
  | .rateBounds => Address → Option ExchangeRateBounds
  | .feeTiers => ℕ → Option FeeTier
  | .loyaltyTiers => List LoyaltyTier
  | .rateModel => (Address → Option RateModelConfig) × (Address → Option RateModelProposal)
  | .operationDelay => ℕ

def Params.read (p : Params) : (f : Part) → f.Content
  | .yield => (p.config.yieldBps, p.config.lastYieldChangeAt, p.config.proposedYieldBps,
      p.config.yieldProposalAt)
  | .yieldPolicy => (p.config.yieldChangeCooldownSecs, p.config.maxYieldChangeBps,
      p.config.yieldTimelockSecs)
  | .maxUtilization => p.config.maxUtilizationBps
  | .collateralConfig => p.collateralConfig
  | .exchangeRate => p.storedExchangeRate
  | .rateBounds => p.rateBounds
  | .feeTiers => p.feeTier
  | .loyaltyTiers => p.loyaltyTiers
  | .rateModel => (p.rateModel, p.pendingRateModel)
  | .operationDelay => p.operationDelay

theorem Params.read_yield_eq {p p' : Params} :
    p'.read .yield = p.read .yield ↔
      p'.config.yieldBps = p.config.yieldBps ∧
      p'.config.lastYieldChangeAt = p.config.lastYieldChangeAt ∧
      p'.config.proposedYieldBps = p.config.proposedYieldBps ∧
      p'.config.yieldProposalAt = p.config.yieldProposalAt := by
  show (_, _, _, _) = (_, _, _, _) ↔ _
  simp only [Prod.mk.injEq]

theorem Params.read_yieldPolicy_eq {p p' : Params} :
    p'.read .yieldPolicy = p.read .yieldPolicy ↔
      p'.config.yieldChangeCooldownSecs = p.config.yieldChangeCooldownSecs ∧
      p'.config.maxYieldChangeBps = p.config.maxYieldChangeBps ∧
      p'.config.yieldTimelockSecs = p.config.yieldTimelockSecs := by
  show (_, _, _) = (_, _, _) ↔ _
  simp only [Prod.mk.injEq]

theorem Params.read_rateModel_eq {p p' : Params} :
    p'.read .rateModel = p.read .rateModel ↔
      p'.rateModel = p.rateModel ∧ p'.pendingRateModel = p.pendingRateModel := by
  show (_, _) = (_, _) ↔ _
  simp only [Prod.mk.injEq]

def Setting.parts : Setting → List Part
  | .setYield .. | .setYieldViaAc .. | .setYieldViaGovernance .. | .proposeYieldChange ..
  | .executeYieldChange | .cancelYieldProposal .. => [.yield]
  | .setYieldChangePolicy .. | .setYieldChangePolicyGov .. => [.yieldPolicy]
  | .setMaxUtilization .. | .setMaxUtilizationViaAc .. | .setMaxUtilizationGov .. =>
    [.maxUtilization]
  | .setCollateralConfigGov .. => [.collateralConfig]
  | .setExchangeRate .. | .setExchangeRateViaGovernance .. => [.exchangeRate]
  | .setRateBounds .. | .setRateBoundsViaGovernance .. => [.rateBounds]
  | .setFeeTier .. | .setFeeTierViaGovernance .. | .removeFeeTier .. => [.feeTiers]
  | .setLoyaltyTiers .. | .setLoyaltyTiersViaGovernance .. => [.loyaltyTiers]
  | .proposeRateModelChange .. | .executeRateModelChange .. | .cancelRateModelChange .. =>
    [.rateModel]
  | .setOperationDelay .. | .setOperationDelayGov .. => [.operationDelay]
  | _ => []

/-! ## What the setters with more than one check do -/

section Specs

variable {signers : List Address} {s : State W} {guard : Res Unit} {p : Params}

theorem setRateBounds_eq_ok {admin token : Address} {minBps maxBps : ℕ}
    (hx : setRateBounds signers s admin token minBps maxBps = .ok p) :
    p = s.params.withRateBounds token minBps maxBps := by
  simp only [setRateBounds, bind_eq_ok, exists_unit, pure_eq_ok] at hx
  exact hx.2.2.2.2.symm

theorem setExchangeRate_eq_ok {admin token : Address} {rateBps : ℕ}
    (hx : setExchangeRate signers s admin token rateBps = .ok p) :
    rateBps ≠ 0 ∧ s.params.WithinBounds token rateBps ∧
      p = s.params.withExchangeRate token rateBps := by
  simp only [setExchangeRate, bind_eq_ok, require_eq_ok, exists_unit, pure_eq_ok] at hx
  exact ⟨hx.2.2.1, hx.2.2.2.1, hx.2.2.2.2.symm⟩

theorem validateLoyaltyTiers_eq_ok :
    ∀ {tiers : List LoyaltyTier} {prev : Option ℕ}, validateLoyaltyTiers prev tiers = .ok () →
      (∀ tier ∈ tiers, tier.bonusBps ≤ maxLoyaltyBonusBps) ∧
      (∀ days ∈ prev, ∀ tier ∈ tiers, days < tier.minDays) ∧
      tiers.Pairwise fun a b => a.minDays < b.minDays := by
  intro tiers
  induction tiers with
  | nil => simp
  | cons tier tiers ih =>
    intro prev hv
    simp only [validateLoyaltyTiers, bind_eq_ok, require_eq_ok, exists_unit] at hv
    obtain ⟨hbonus, hprev, hrest⟩ := hv
    obtain ⟨hbonuses, hafter, hsorted⟩ := ih hrest
    have hfirst : ∀ t ∈ tiers, tier.minDays < t.minDays := hafter _ rfl
    refine ⟨by simpa using ⟨hbonus, hbonuses⟩, ?_, List.pairwise_cons.2 ⟨hfirst, hsorted⟩⟩
    intro days hdays t ht
    have hhead : days < tier.minDays := hprev days hdays
    rcases List.mem_cons.1 ht with rfl | ht
    · exact hhead
    · exact hhead.trans (hfirst t ht)

theorem writeLoyaltyTiers_eq_ok {tiers : List LoyaltyTier}
    (hx : writeLoyaltyTiers s guard tiers = .ok p) :
    tiers ≠ [] ∧ (∀ tier ∈ tiers, tier.bonusBps ≤ maxLoyaltyBonusBps) ∧
      (tiers.Pairwise fun a b => a.minDays < b.minDays) ∧
      p = { s.params with loyaltyTiers := tiers } := by
  simp only [writeLoyaltyTiers, bind_eq_ok, require_eq_ok, exists_unit, pure_eq_ok] at hx
  obtain ⟨-, hne, hvalid, rfl⟩ := hx
  obtain ⟨hbonus, -, hsorted⟩ := validateLoyaltyTiers_eq_ok hvalid
  exact ⟨hne, hbonus, hsorted, rfl⟩

theorem writeYield_eq_ok {newYieldBps : ℕ} (hx : writeYield s guard newYieldBps = .ok p) :
    newYieldBps ≤ 5000 ∧
      min (s.params.config.lastYieldChangeAt + s.params.config.yieldChangeCooldownSecs)
        (2 ^ 64 - 1) ≤ s.now ∧
      absDiff newYieldBps s.params.config.yieldBps ≤ s.params.config.maxYieldChangeBps ∧
      p = s.params.updateConfigField
        ({ · with yieldBps := newYieldBps, lastYieldChangeAt := s.now }) := by
  simp only [writeYield, State.requireYieldCooldown, State.requireYieldStep, bind_eq_ok,
    require_eq_ok, exists_unit, pure_eq_ok] at hx
  obtain ⟨-, hcap, hcooldown, hstep, rfl⟩ := hx
  exact ⟨hcap, hcooldown, hstep, rfl⟩

theorem proposeYieldChange_eq_ok {admin : Address} {newYieldBps : ℕ}
    (hx : proposeYieldChange signers s admin newYieldBps = .ok p) :
    newYieldBps ≤ 5000 ∧
      min (s.params.config.lastYieldChangeAt + s.params.config.yieldChangeCooldownSecs)
        (2 ^ 64 - 1) ≤ s.now ∧
      absDiff newYieldBps s.params.config.yieldBps ≤ s.params.config.maxYieldChangeBps ∧
      p = s.params.updateConfigField
        ({ · with proposedYieldBps := newYieldBps, yieldProposalAt := s.now }) := by
  simp only [proposeYieldChange, State.requireYieldCooldown, State.requireYieldStep, bind_eq_ok,
    require_eq_ok, exists_unit, pure_eq_ok] at hx
  obtain ⟨-, hcooldown, hcap, hstep, _, -, rfl⟩ := hx
  exact ⟨hcap, hcooldown, hstep, rfl⟩

theorem executeYieldChange_eq_ok (hx : executeYieldChange s = .ok p) :
    s.params.config.yieldProposalAt ≠ 0 ∧
      p = s.params.updateConfigField fun config =>
        { config with
          yieldBps := config.proposedYieldBps
          lastYieldChangeAt := s.now
          proposedYieldBps := 0
          yieldProposalAt := 0 } := by
  simp only [executeYieldChange, bind_eq_ok, require_eq_ok, exists_unit, pure_eq_ok] at hx
  obtain ⟨hpending, _, -, -, rfl⟩ := hx
  exact ⟨hpending, rfl⟩

theorem proposeRateModelChange_eq_ok {admin token : Address} {newConfig : RateModelConfig}
    (hx : proposeRateModelChange signers s admin token newConfig = .ok p) :
    p = { s.params with
      pendingRateModel := Function.update s.params.pendingRateModel token
        (some ⟨newConfig, s.now, min (s.now + s.rateModelDelay) (2 ^ 64 - 1)⟩) } := by
  simp only [proposeRateModelChange, bind_eq_ok, exists_unit, pure_eq_ok] at hx
  exact hx.2.2.2.symm

theorem executeRateModelChange_eq_ok {token : Address}
    (hx : executeRateModelChange s token = .ok p) :
    ∃ proposal, s.params.pendingRateModel token = some proposal ∧ proposal.executeAfter ≤ s.now ∧
      p = { s.params with
        rateModel := Function.update s.params.rateModel token (some proposal.config)
        pendingRateModel := Function.update s.params.pendingRateModel token none
        rateModelChangedAt := Function.update s.params.rateModelChangedAt token s.now } := by
  simp only [executeRateModelChange, bind_eq_ok, okOr_eq_ok, require_eq_ok, exists_unit,
    pure_eq_ok] at hx
  obtain ⟨proposal, hpending, hready, rfl⟩ := hx
  exact ⟨proposal, hpending, hready, rfl⟩

end Specs

theorem applySetting_keeps {h : Host W} {signers : List Address} {s : State W} {x : Setting}
    {p : Params} (hx : applySetting h signers s x = .ok p) (f : Part) (hf : f ∉ x.parts) :
    p.read f = s.params.read f := by
  cases x <;> dsimp only [Setting.parts] at hf
  case pause | unpause | setPausedViaAc | setAccessControl | setGovernanceAddress | setTreasury |
      setTreasuryViaAc | setTreasuryViaGovernance | setOracleContract | setOracleContractViaAc |
      setOracleContractGov | setCreditScoreContract | setCreditScoreContractGov |
      setInsuranceContract | setInsuranceContractGov | setReferralRegistry |
      setReferralRegistryGov | setSecondaryMarketContract | setSecondaryMarketGov |
      setRiskContract | setRiskContractViaGovernance | setKycRequired | setKycRequiredViaAc |
      setKycRequiredViaGovernance | setComplianceRegistry | setComplianceRegistryGov |
      setCompoundInterestGov | setMaxWithdrawalQueueAge | setMaxWdQueueAgeGov |
      setMaxWithdrawalQueueDepth | setMaxWdQueueDepthGov | cancelYieldProposal |
      setYieldChangePolicyGov | cancelRateModelChange =>
      obtain ⟨-, rfl⟩ := write_eq_ok.1 hx
      cases f <;> first | rfl | exact absurd (by decide) hf
  case cancelAdminChange | setInvestorKyc | setInvestorKycViaAc | approveInvestorKyc |
      rejectInvestorKyc | setFactoringFee | setFactoringFeeViaGovernance | setMinDeposit |
      setMinDepositViaGovernance | setMaxInvestorConcGov | setMaxUtilization |
      setMaxUtilizationViaAc | setMaxUtilizationGov | setWithdrawalLimits | setWithdrawalLimitsGov
      | setOracleStaleThreshold | setOracleStaleThreshGov | setFallbackPrice | setFallbackPriceGov
      | setRateBoundsViaGovernance | setExchangeRateViaGovernance | setCollateralConfigGov |
      setFeeTier | setFeeTierViaGovernance | removeFeeTier | setYieldViaGovernance |
      setYieldChangePolicy | setOperationDelay | setOperationDelayGov =>
      obtain ⟨-, -, rfl⟩ := writeIf_eq_ok.1 hx
      cases f <;> first | rfl | exact absurd (by decide) hf
  case setRateBounds =>
    rw [setRateBounds_eq_ok hx]
    cases f <;> first | rfl | exact absurd (by decide) hf
  case setExchangeRate =>
    rw [(setExchangeRate_eq_ok hx).2.2]
    cases f <;> first | rfl | exact absurd (by decide) hf
  case setLoyaltyTiers | setLoyaltyTiersViaGovernance =>
    rw [(writeLoyaltyTiers_eq_ok hx).2.2.2]
    cases f <;> first | rfl | exact absurd (by decide) hf
  case setYield | setYieldViaAc =>
    rw [(writeYield_eq_ok hx).2.2.2]
    cases f <;> first | rfl | exact absurd (by decide) hf
  case proposeYieldChange =>
    rw [(proposeYieldChange_eq_ok hx).2.2.2]
    cases f <;> first | rfl | exact absurd (by decide) hf
  case executeYieldChange =>
    rw [(executeYieldChange_eq_ok hx).2]
    cases f <;> first | rfl | exact absurd (by decide) hf
  case proposeRateModelChange =>
    rw [proposeRateModelChange_eq_ok hx]
    cases f <;> first | rfl | exact absurd (by decide) hf
  case executeRateModelChange =>
    obtain ⟨_, -, -, rfl⟩ := executeRateModelChange_eq_ok hx
    cases f <;> first | rfl | exact absurd (by decide) hf
  case proposeAdminChange admin newAdmin =>
    simp only [applySetting, proposeAdminChange, bind_eq_ok, exists_unit, pure_eq_ok] at hx
    obtain ⟨-, _, -, rfl⟩ := hx
    cases f <;> rfl
  case finalizeAdminChange admin =>
    simp only [applySetting, finalizeAdminChange, bind_eq_ok, exists_unit, pure_eq_ok] at hx
    obtain ⟨-, _, -, _, -, -, _, -, rfl⟩ := hx
    cases f <;> rfl
  case setRequireComplianceCheck admin required =>
    simp only [applySetting, setRequireComplianceCheck, bind_eq_ok, exists_unit, pure_eq_ok] at hx
    obtain ⟨-, _, -, rfl⟩ := hx
    cases f <;> rfl
  case setRequireComplianceCheckGov governance required =>
    simp [applySetting, setRequireComplianceCheckGov] at hx
  case setCollateralConfig admin threshold collateralBps =>
    simp [applySetting, setCollateralConfig] at hx

/-! ## The machine -/

inductive Action (W : Type)
  | call (call : Call W)
  | set (setting : Setting)

/-- An action and the addresses that authorize it.  Parameters are set by the setters only. -/
structure Step (h : Host W) where
  signers : List Address
  self_not_mem : h.self ∉ signers
  action : Action W
  named : ∀ params, action ≠ .call (.setParams params)

def runSetting (h : Host W) (signers : List Address) (s : State W) (x : Setting) :
    Res (State W) := do
  let params ← applySetting h signers s x
  match x with
  | .executeRateModelChange token => State.recordRateSnapshot { s with params := params } token
  | _ => return { s with params := params }

def govern (h : Host W) (s : State W) (step : Step h) : Res (State W) :=
  match step.action with
  | .call call => exec h s ⟨step.signers, step.self_not_mem, call⟩
  | .set x => runSetting h step.signers s x

theorem runSetting_eq_ok {h : Host W} {signers : List Address} {s s' : State W} {x : Setting}
    (hx : runSetting h signers s x = .ok s') :
    ∃ params history, applySetting h signers s x = .ok params ∧
      s' = { s with params := params, rateHistory := history } := by
  unfold runSetting at hx
  obtain ⟨params, hparams, hx⟩ := (bind_eq_ok _ _ _).1 hx
  split at hx
  · obtain ⟨history, rfl⟩ := State.recordRateSnapshot_eq_ok hx
    exact ⟨params, history, hparams, rfl⟩
  · exact ⟨params, s.rateHistory, hparams, ((pure_eq_ok _ _).1 hx).symm⟩

def Action.writes : Action W → List Table
  | .call c => c.writes
  | .set _ => [.params, .rateHistory]

/-- The parts of the parameters that an action may write. -/
def Action.parts : Action W → List Part
  | .call (.executeOperation ..) => [.collateralConfig]
  | .call _ => []
  | .set x => x.parts

theorem govern_kept {h : Host W} {s s' : State W} {step : Step h} (f : Table)
    (hf : step.action.writes.contains f = false) (hstep : govern h s step = .ok s') :
    s'.read f = s.read f := by
  obtain ⟨signers, hself, action, hnamed⟩ := step
  cases action with
  | call call =>
    have hexec : exec h s ⟨signers, hself, call⟩ = .ok s' := hstep
    exact exec_keeps hexec f (by simpa [Action.writes] using hf)
  | set x =>
    obtain ⟨params, history, -, rfl⟩ := runSetting_eq_ok hstep
    dsimp only [Action.writes] at hf
    cases f <;> first | rfl | exact absurd hf (by decide)

theorem executeOperation_params {h : Host W} {signers : List Address} {s s' : State W}
    {admin : Address} {proposalId : ℕ}
    (he : executeOperation h signers s admin proposalId = .ok s') :
    s'.params = s.params ∨
    ∃ threshold bps, validateCollateralConfig threshold bps = .ok () ∧
      s'.params = { s.params with collateralConfig := ⟨threshold, bps⟩ } := by
  obtain ⟨proposal, -, -, -, -, he⟩ := executeOperation_dispatch he
  rcases executeAdminOperation_eq_ok he with ⟨-, -, -, rfl⟩ | ⟨threshold, bps, -, hvalid, rfl⟩ |
    ⟨invoiceId, -, hseize⟩
  · exact .inl rfl
  · exact .inr ⟨threshold, bps, hvalid, rfl⟩
  · exact .inl (keeps_seize hseize .params (by decide))

theorem govern_keeps {h : Host W} {s s' : State W} {step : Step h} (f : Part)
    (hf : step.action.parts.contains f = false) (hstep : govern h s step = .ok s') :
    s'.params.read f = s.params.read f := by
  obtain ⟨signers, hself, action, hnamed⟩ := step
  cases action with
  | set x =>
    obtain ⟨params, history, hx, rfl⟩ := runSetting_eq_ok hstep
    exact applySetting_keeps hx f (by simpa [Action.parts] using hf)
  | call call =>
    have hexec : exec h s ⟨signers, hself, call⟩ = .ok s' := hstep
    cases call
    case setParams params => exact absurd rfl (hnamed params)
    case setCompoundInterest admin compound =>
      rw [setCompoundInterest_eq_ok hexec]
      cases f <;> rfl
    case setMaxInvestorConcentration admin maxBps =>
      rw [setMaxInvestorConcentration_eq_ok hexec]
      cases f <;> rfl
    case executeOperation admin proposalId =>
      rcases executeOperation_params hexec with hp | ⟨threshold, bps, -, hp⟩
      · rw [hp]
      · dsimp only [Action.parts] at hf
        rw [hp]
        cases f <;> first | rfl | exact absurd hf (by decide)
    all_goals exact congrArg (Params.read · f) (exec_kept .params rfl hexec)

theorem govern_call_keeps {h : Host W} {s s' : State W} {signers : List Address}
    {hself : h.self ∉ signers} {call : Call W}
    {hnamed : ∀ params, Action.call call ≠ .call (.setParams params)} (f : Part)
    (hf : f ≠ .collateralConfig)
    (hstep : govern h s ⟨signers, hself, .call call, hnamed⟩ = .ok s') :
    s'.params.read f = s.params.read f := by
  refine govern_keeps f ?_ hstep
  cases call <;> simp [Action.parts, hf]

theorem now_le_of_govern {h : Host W} {s s' : State W} {step : Step h}
    (hstep : govern h s step = .ok s') : s.now ≤ s'.now := by
  obtain ⟨signers, hself, action, hnamed⟩ := step
  cases action with
  | set x =>
    obtain ⟨params, history, -, rfl⟩ := runSetting_eq_ok hstep
    exact le_rfl
  | call call =>
    cases call
    case advance now =>
      have hexec : advance s now = .ok s' := hstep
      obtain ⟨hle, rfl⟩ := advance_eq_ok hexec
      exact hle
    all_goals
      have hnow : s'.now = s.now := govern_kept .now rfl hstep
      exact hnow.ge

/-! ## Steps of the sample ledger -/

def setBy (caller : Address) (x : Setting) (hcaller : quietHost.self ∉ [caller]) :
    Step quietHost :=
  ⟨[caller], hcaller, .set x, fun _ => nofun⟩

def callBy (caller : Address) (call : Call Unit) (hcaller : quietHost.self ∉ [caller])
    (hnamed : ∀ params, call ≠ .setParams params) : Step quietHost :=
  ⟨[caller], hcaller, .call call, fun params h => hnamed params (Action.call.inj h)⟩

def waitUntil (now : ℕ) : Step quietHost :=
  ⟨[], self_notMem_nil, .call (.advance now), fun _ => nofun⟩

end Astera.Pool
