import Astera.Messages.Senders

/-!
# Which approved actions can be delivered

An action is delivered when the contract it is for decodes the call into the same values.  Three
kinds are not: entrypoints of the invoice contract with too long names, loyalty tiers, whose record
names a field otherwise than the pool does, and the governance configuration, with one argument too
many.
-/

namespace Astera.Messages

open HostCall HostCall.Codec
open Governance (GovernanceAction PoolAction InvoiceAction OracleRegistryAction ComplianceAction)
open AccessControl (ActionPayload Invocation)

/-! ## What the contracts should decode -/

def poolFeeTier (tier : Governance.FeeTier) : Pool.FeeTier :=
  ⟨tier.minAmount, tier.maxAmount, tier.minCreditScore, tier.feeBps⟩

def poolLoyaltyTier (tier : Governance.LoyaltyTier) : Pool.LoyaltyTier :=
  ⟨tier.daysThreshold, tier.bonusBps⟩

def poolCollateralConfig (config : Governance.CollateralConfig) : Pool.CollateralConfig :=
  ⟨config.threshold, config.collateralBps⟩

def registryQuorumTier (tier : Governance.QuorumTier) : Oracle.QuorumTier :=
  ⟨tier.minInvoiceAmount, tier.quorumBps⟩

def governanceCategory : AccessControl.ProposalCategory → Governance.ProposalCategory
  | .ParameterChange => .ParameterChange
  | .Treasury => .Treasury
  | .Critical => .Critical

def poolMeaning (governance : Address) : PoolAction → Inbound
  | .SetPoolYield newYieldBps => .pool (.setYieldViaGovernance governance newYieldBps)
  | .SetPoolYieldChangePolicy cooldownSecs => .pool (.setYieldChangePolicyGov governance cooldownSecs)
  | .SetPoolFactoringFee feeBps => .pool (.setFactoringFeeViaGovernance governance feeBps)
  | .SetPoolFeeTier tierId tier =>
    .pool (.setFeeTierViaGovernance governance tierId (poolFeeTier tier))
  | .SetPoolTreasury treasury => .pool (.setTreasuryViaGovernance governance treasury)
  | .SetPoolMaxUtilization maxBps => .pool (.setMaxUtilizationGov governance maxBps)
  | .SetPoolMinDeposit minAmount => .pool (.setMinDepositViaGovernance governance minAmount)
  | .SetPoolMaxInvestorConcentration maxBps => .pool (.setMaxInvestorConcGov governance maxBps)
  | .SetPoolLoyaltyTiers tiers =>
    .pool (.setLoyaltyTiersViaGovernance governance (tiers.map poolLoyaltyTier))
  | .SetPoolWithdrawalLimits maxBps => .pool (.setWithdrawalLimitsGov governance maxBps)
  | .SetPoolMaxWithdrawalQueueAge days => .pool (.setMaxWdQueueAgeGov governance days)
  | .SetPoolMaxWithdrawalQueueDepth depth => .pool (.setMaxWdQueueDepthGov governance depth)
  | .SetPoolOracleContract oracle => .pool (.setOracleContractGov governance oracle)
  | .SetPoolOracleStaleThreshold secs => .pool (.setOracleStaleThreshGov governance secs)
  | .SetPoolFallbackPrice token price => .pool (.setFallbackPriceGov governance token price)
  | .SetPoolRateBounds token minBps maxBps =>
    .pool (.setRateBoundsViaGovernance governance token minBps maxBps)
  | .SetPoolExchangeRate token rateBps =>
    .pool (.setExchangeRateViaGovernance governance token rateBps)
  | .SetPoolComplianceRegistry registry => .pool (.setComplianceRegistryGov governance registry)
  | .SetPoolRequireComplianceCheck required =>
    .pool (.setRequireComplianceCheckGov governance required)
  | .SetPoolReferralRegistry registry => .pool (.setReferralRegistryGov governance registry)
  | .SetPoolKycRequired required => .pool (.setKycRequiredViaGovernance governance required)
  | .SetPoolCreditScoreContract contract => .pool (.setCreditScoreContractGov governance contract)
  | .SetPoolInsuranceContract contract => .pool (.setInsuranceContractGov governance contract)
  | .SetPoolCompoundInterest compound => .pool (.setCompoundInterestGov governance compound)
  | .SetPoolSecondaryMarketContract contract => .pool (.setSecondaryMarketGov governance contract)
  | .SetPoolRiskContract contract => .pool (.setRiskContractViaGovernance governance contract)
  | .SetPoolCollateralConfig config =>
    .pool (.setCollateralConfigGov governance (poolCollateralConfig config))
  | .SetPoolUpgradeTimelock secs => .setUpgradeTimelockGov governance secs
  | .SetPoolOperationDelay secs => .pool (.setOperationDelayGov governance secs)

/-- What the invoice contract should decode. -/
def invoiceMeaning (governance : Address) : InvoiceAction → Inbound
  | .SetInvoiceGracePeriod days => .invoice (.setGracePeriodViaGovernance governance days)
  | .SetInvoiceMinDueDateWindow secs => .invoice (.setMinDueDateWindowViaGovernance governance secs)
  | .SetInvoiceMaxAmount maxAmount => .invoice (.setMaxInvoiceAmountGov governance maxAmount)
  | .SetInvoiceMaxSmeOutstanding max => .invoice (.setMaxSmeOutstandingViaGovernance governance max)
  | .SetInvoiceExpirationDuration secs =>
    .invoice (.setExpirationDurationViaGovernance governance secs)
  | .SetInvoiceCompletedTtl ttlLedgers => .setCompletedInvoiceTtlViaGovernance governance ttlLedgers
  | .SetInvoiceDailyLimit limit => .invoice (.setDailyInvoiceLimitViaGovernance governance limit)
  | .SetInvoiceDisputeWindow window => .invoice (.setDisputeWindowViaGovernance governance window)
  | .SetInvoiceOracle oracle => .invoice (.setOracleViaGovernance governance oracle)
  | .SetInvoiceSecondaryOracle oracleSecondary =>
    .invoice (.setSecondaryOracleViaGovernance governance oracleSecondary)
  | .SetInvoiceOracleRegistry registry =>
    .invoice (.setOracleRegistryViaGovernance governance registry)
  | .SetInvoiceConsensusRequired required =>
    .invoice (.setConsensusRequiredViaGovernance governance required)
  | .SetInvoiceComplianceRegistry registry =>
    .invoice (.setComplianceRegistryViaGovernance governance registry)
  | .SetInvoiceRequireComplianceCheck required =>
    .invoice (.setRequireComplianceCheckViaGovernance governance required)
  | .SetInvoiceRequireRegDebtor required =>
    .invoice (.setRequireRegisteredDebtorViaGovernance governance required)
  | .SetInvoiceVerifiedFundingOnly required =>
    .invoice (.setOracleVerifiedFundingOnlyViaGovernance governance required)
  | .SetInvoiceArbitrationContract arbitration =>
    .invoice (.setArbitrationContractViaGovernance governance arbitration)
  | .SetInvoiceDisputeValueThreshold threshold =>
    .invoice (.setDisputeValueThresholdViaGovernance governance threshold)
  | .SetInvoiceMetadataImageUri uri => .setMetadataImageUriViaGovernance governance uri

def oracleRegistryMeaning (governance : Address) : OracleRegistryAction → Inbound
  | .SetOracleRegistryInvoiceContract contract =>
    .oracleRegistry (.setInvoiceContractGov governance contract)
  | .SetOracleRegistryTreasury treasury =>
    .oracleRegistry (.setTreasuryViaGovernance governance treasury)
  | .SetOracleRegistryConfig minStake requiredVotes quorumBps duration cooldown =>
    .oracleRegistry (.setRegistryConfigGov governance minStake requiredVotes quorumBps duration
      cooldown)
  | .SetOracleRegistryQuorumTiers tiers =>
    .oracleRegistry (.setQuorumTiersViaGovernance governance (tiers.map registryQuorumTier))

/-- What the compliance registry should decode. -/
def complianceMeaning (governance : Address) : ComplianceAction → Inbound
  | .SetComplianceRescreeningInterval secs =>
    .compliance (.setRescreeningIntervalGov governance secs)
  | .SetComplianceScreenerTimelock secs => .compliance (.setScreenerTimelockGov governance secs)

/-- What the contract that an action of governance is for should decode. -/
def governanceMeaning (governance : Address) : GovernanceAction → Inbound
  | .Pool action => poolMeaning governance action
  | .Invoice action => invoiceMeaning governance action
  | .OracleRegistry action => oracleRegistryMeaning governance action
  | .Compliance action => complianceMeaning governance action

/-- What the contract that an action of access control is for should decode.  The entrypoint for the
governance configuration has nowhere to put the execution delay. -/
def payloadMeaning (accessControl : Address) : ActionPayload → Option Inbound
  | .SetPaused paused => some (.pool (.setPausedViaAc accessControl paused))
  | .SetYield bps => some (.pool (.setYieldViaAc accessControl bps))
  | .SetTreasury treasury => some (.pool (.setTreasuryViaAc accessControl treasury))
  | .WithdrawRevenue token amount => some (.withdrawRevenueViaAc accessControl token amount)
  | .SetOracleContract oracle => some (.pool (.setOracleContractViaAc accessControl oracle))
  | .SetKycRequired required => some (.pool (.setKycRequiredViaAc accessControl required))
  | .SetInvestorKyc investor approved =>
    some (.pool (.setInvestorKycViaAc accessControl investor approved))
  | .SetMaxUtilization bps => some (.pool (.setMaxUtilizationViaAc accessControl bps))
  | .SetOracle oracle => some (.invoice (.setOracleViaAc accessControl oracle))
  | .RegisterDebtor debtorId debtorName maxExposure =>
    some (.registerDebtorViaAc accessControl debtorId debtorName maxExposure)
  | .DeactivateDebtor debtorId => some (.deactivateDebtorViaAc accessControl debtorId)
  | .AddKeeper keeper => some (.invoice (.addKeeperViaAc accessControl keeper))
  | .SetLateThreshold days => some (.creditScore (.setLateThresholdViaAc accessControl days))
  | .SetScoreThresholds excellent veryGood good fair =>
    some (.creditScore (.setScoreThresholdsViaAc accessControl ⟨excellent, veryGood, good, fair⟩))
  | .RegisterAttestor attestor attestorType weightBps =>
    some (.registerAttestorViaAc accessControl attestor attestorType weightBps)
  | .SetOracleRegistryInvoiceContract contract =>
    some (.oracleRegistry (.setInvoiceContractViaAc accessControl contract))
  | .SetOracleRegistryTreasury treasury =>
    some (.oracleRegistry (.setTreasuryViaAc accessControl treasury))
  | .SetOracleRegistryConfig minStake requiredVotes quorumBps duration cooldown =>
    some (.oracleRegistry (.setRegistryConfigViaAc accessControl minStake requiredVotes quorumBps
      duration cooldown))
  | .SetOracleRegistryPaused paused => some (.oracleRegistry (.setPausedViaAc accessControl paused))
  | .SlashOracle operator bps roundId evidence =>
    some (.slashOracleViaAc accessControl operator bps roundId evidence)
  | .AdminResolveRound invoiceId approved reason =>
    some (.adminResolveRoundViaAc accessControl invoiceId approved reason)
  | .SetCompliancePaused paused => some (.compliance (.setPausedViaAc accessControl paused))
  | .RegisterScreener screener => some (.registerScreenerViaAc accessControl screener)
  | .ConfirmScreenerRegistration screener => some (.confirmScreenerViaAc accessControl screener)
  | .DeregisterScreener screener => some (.deregisterScreenerViaAc accessControl screener)
  | .SetRescreeningInterval secs =>
    some (.compliance (.setRescreeningIntervalViaAc accessControl secs))
  | .SetScreenerTimelock secs => some (.compliance (.setScreenerTimelockViaAc accessControl secs))
  | .UpdateGovernanceConfig quorumBps passBps _ =>
    some (.governance (.updateConfigViaAc accessControl quorumBps passBps))
  | .SetCategoryQuorum category quorumBps =>
    some (.governance (.setCategoryQuorumViaAc accessControl (governanceCategory category)
      quorumBps))
  | .SetReferralPaused paused => some (.referral (.setPausedViaAc accessControl paused))
  | .SetReferralPool pool => some (.referral (.setPoolViaAc accessControl pool))
  | .SetBorrowRewardBps bps => some (.referral (.setBorrowRewardBpsViaAc accessControl bps))
  | .SetDepositRewardBps bps => some (.referral (.setDepositRewardBpsViaAc accessControl bps))
  | .SetInvoiceAccessControl newAc => some (.invoice (.setAccessControlViaAc accessControl newAc))
  | .SetCreditScoreAccessControl newAc =>
    some (.creditScore (.setAccessControlViaAc accessControl newAc))
  | .SetOracleRegistryAccessControl newAc =>
    some (.oracleRegistry (.setAccessControlViaAc accessControl newAc))
  | .SetComplianceAccessControl newAc =>
    some (.compliance (.setAccessControlViaAc accessControl newAc))
  | .SetGovernanceAccessControl newAc =>
    some (.governance (.setAccessControlViaAc accessControl newAc))
  | .SetReferralAccessControl newAc => some (.referral (.setAccessControlViaAc accessControl newAc))
  | .AddSigner .. | .RemoveSigner .. | .SetThreshold .. | .SetProposalExpiry _ => none

/-- The contract that an action of governance is for decodes its call into the same values. -/
def GovernanceDelivers (governance : Address) (action : GovernanceAction) : Prop :=
  dispatch (governanceTarget action).entrypoints (governanceCall governance action) =
    some (governanceMeaning governance action)

/-- The contract that an action of access control is for decodes its call into the same values. -/
def PayloadDelivers (accessControl : Address) (action : ActionPayload) : Prop :=
  ∀ invocation, action.invocation = some invocation →
    ∃ target inbound, payloadTarget action = some target ∧
      payloadMeaning accessControl action = some inbound ∧
      dispatch target.entrypoints (invocationCall accessControl invocation) = some inbound

/-- A call of the contract at an address; `run` is what the contract itself does. -/
def send {W : Type} (contractAt : Address → Option Contract) (run : W → Address → Inbound → Option W)
    (w : W) (target : Address) (call : Call) : Option W :=
  (contractAt target).bind fun c => (dispatch c.entrypoints call).bind (run w target)

theorem send_of_delivered {W : Type} {contractAt : Address → Option Contract}
    {run : W → Address → Inbound → Option W} {target : Address} {c : Contract} {call : Call}
    {inbound : Inbound} (htarget : contractAt target = some c)
    (hdelivered : dispatch c.entrypoints call = some inbound) (w : W) :
    send contractAt run w target call = run w target inbound := by
  rw [send, htarget, Option.bind_some, hdelivered, Option.bind_some]

theorem pool_delivered_iff (governance : Address) (action : PoolAction) :
    dispatch poolEntrypoints (poolCall governance action) = some (poolMeaning governance action) ↔
      ∀ tiers, action = .SetPoolLoyaltyTiers tiers → tiers = [] := by
  cases action with
  | SetPoolFeeTier tierId tier =>
    refine iff_of_true ?_ (by simp)
    simp only [poolCall, poolEntrypoints, dispatch_of_ne, ne_eq, String.reduceEq,
      not_false_eq_true]
    rw [dispatch_of_eq rfl (by decide)]
    -- the two records have the same fields
    exact congrArg (Option.map _) ((Args.cons address (.pair u32 feeTier)).decode_encode
      (governance, tierId, poolFeeTier tier))
  | SetPoolCollateralConfig config =>
    refine iff_of_true ?_ (by simp)
    simp only [poolCall, poolEntrypoints, dispatch_of_ne, ne_eq, String.reduceEq,
      not_false_eq_true]
    rw [dispatch_of_eq rfl (by decide)]
    exact congrArg (Option.map _) ((Args.pair address collateralConfig).decode_encode
      (governance, poolCollateralConfig config))
  | SetPoolLoyaltyTiers tiers =>
    simp only [poolCall, poolEntrypoints, dispatch_of_ne, ne_eq, String.reduceEq,
      not_false_eq_true]
    rw [dispatch_of_eq rfl (by decide)]
    by_cases htiers : tiers = []
    · subst htiers
      exact iff_of_true rfl (by simp)
    · have hnone (tier : Governance.LoyaltyTier) :
          loyaltyTier.decode (govLoyaltyTier.encode tier) = none := by
        have hnames : ¬ govLoyaltyTierFields.names.Perm loyaltyTierFields.names := by decide
        rw [loyaltyTier, govLoyaltyTier, convert_encode, convert_decode,
          record_decode_eq_none hnames, Option.map_none]
      rw [Args.pair_decode_eq_none (list_decode_eq_none hnone htiers)]
      exact iff_of_false (by simp) (by simpa using htiers)
  | _ =>
    refine iff_of_true ?_ (by simp)
    simp only [poolCall, poolEntrypoints, dispatch_of_ne, ne_eq, String.reduceEq,
      not_false_eq_true]
    rw [dispatch_of_eq rfl (by decide)]
    rfl

/-- The actions on the invoice contract whose entrypoints have names that can be called. -/
def shortNamed : InvoiceAction → Bool
  | .SetInvoiceGracePeriod _ | .SetInvoiceMaxAmount _ | .SetInvoiceOracle _ => true
  | _ => false

theorem invoice_delivered_iff (governance : Address) (action : InvoiceAction) :
    dispatch invoiceEntrypoints (invoiceCall governance action) =
      some (invoiceMeaning governance action) ↔ shortNamed action = true := by
  cases action with
  | SetInvoiceGracePeriod | SetInvoiceMaxAmount | SetInvoiceOracle =>
    refine iff_of_true ?_ rfl
    simp only [invoiceCall, invoiceEntrypoints, dispatch_of_ne, ne_eq, String.reduceEq,
      not_false_eq_true]
    rw [dispatch_of_eq rfl (by decide)]
    rfl
  | _ =>
    refine iff_of_false ?_ (by simp [shortNamed])
    rw [invoiceCall, dispatch_of_long rfl (by decide)]
    simp

theorem oracleRegistry_delivered (governance : Address) (action : OracleRegistryAction) :
    dispatch oracleRegistryEntrypoints (oracleRegistryCall governance action) =
      some (oracleRegistryMeaning governance action) := by
  cases action with
  | SetOracleRegistryTreasury treasury =>
    simp only [oracleRegistryCall, oracleRegistryEntrypoints, dispatch_of_ne, ne_eq,
      String.reduceEq, not_false_eq_true]
    rw [dispatch_of_eq rfl (by decide), Args.decode_encode]
    rfl
  | SetOracleRegistryQuorumTiers tiers =>
    simp only [oracleRegistryCall, oracleRegistryEntrypoints, dispatch_of_ne, ne_eq,
      String.reduceEq, not_false_eq_true]
    rw [dispatch_of_eq rfl (by decide)]
    have hsame : (Args.pair address (list govQuorumTier)).encode (governance, tiers) =
        (Args.pair address (list quorumTier)).encode
          (governance, tiers.map registryQuorumTier) := by
      simp only [Args.pair, Args.cons, Args.one, list, List.map_map]
      rfl
    rw [hsame, Args.decode_encode]
    rfl
  | _ =>
    simp only [oracleRegistryCall, oracleRegistryEntrypoints, dispatch_of_ne, ne_eq,
      String.reduceEq, not_false_eq_true]
    rw [dispatch_of_eq rfl (by decide)]
    rfl

theorem compliance_delivered (governance : Address) (action : ComplianceAction) :
    dispatch complianceEntrypoints (complianceCall governance action) =
      some (complianceMeaning governance action) := by
  cases action <;>
    simp only [complianceCall, complianceEntrypoints, dispatch_of_ne, ne_eq, String.reduceEq,
      not_false_eq_true] <;>
    rw [dispatch_of_eq rfl (by decide)] <;> rfl

theorem updateGovernanceConfig_not_decoded (accessControl : Address)
    (quorumBps passBps executionDelaySecs : ℕ) :
    dispatch governanceEntrypoints
      (invocationCall accessControl (.updateConfigViaAc quorumBps passBps executionDelaySecs)) =
      none := by
  simp only [invocationCall, governanceEntrypoints, dispatch_of_ne, ne_eq, String.reduceEq,
    not_false_eq_true]
  rw [dispatch_of_eq rfl (by decide), Args.decode_eq_none (by decide)]
  rfl

theorem payload_delivered (accessControl : Address) (action : ActionPayload)
    (hconfig : ∀ quorumBps passBps secs, action ≠ .UpdateGovernanceConfig quorumBps passBps secs) :
    PayloadDelivers accessControl action := by
  intro invocation hinvocation
  cases action with
  | UpdateGovernanceConfig quorumBps passBps secs => exact absurd rfl (hconfig _ _ _)
  | SetCategoryQuorum category quorumBps =>
    obtain rfl := Option.some.inj hinvocation
    refine ⟨_, _, rfl, rfl, ?_⟩
    simp only [invocationCall, Contract.entrypoints, governanceEntrypoints, dispatch_of_ne, ne_eq,
      String.reduceEq, not_false_eq_true]
    rw [dispatch_of_eq rfl (by decide)]
    cases category <;> rfl
  | SetOracleRegistryTreasury treasury =>
    obtain rfl := Option.some.inj hinvocation
    refine ⟨_, _, rfl, rfl, ?_⟩
    simp only [invocationCall, Contract.entrypoints, oracleRegistryEntrypoints, dispatch_of_ne,
      ne_eq, String.reduceEq, not_false_eq_true]
    rw [dispatch_of_eq rfl (by decide), Args.decode_encode]
    rfl
  | AddSigner | RemoveSigner | SetThreshold | SetProposalExpiry => cases hinvocation
  | _ =>
    obtain rfl := Option.some.inj hinvocation
    refine ⟨_, _, rfl, rfl, ?_⟩
    simp only [invocationCall, Contract.entrypoints, poolEntrypoints, invoiceEntrypoints,
      creditScoreEntrypoints, oracleRegistryEntrypoints, complianceEntrypoints,
      governanceEntrypoints, referralEntrypoints, dispatch_of_ne, ne_eq, String.reduceEq,
      not_false_eq_true]
    rw [dispatch_of_eq rfl (by decide)]
    rfl

/-- The actions of governance but for the loyalty tiers and the long names of the invoice contract. -/
def governanceDeliverable : GovernanceAction → Bool
  | .Pool (.SetPoolLoyaltyTiers tiers) => tiers.isEmpty
  | .Invoice action => shortNamed action
  | _ => true

/-- The actions of access control but for the update of the governance configuration. -/
def payloadDeliverable : ActionPayload → Bool
  | .UpdateGovernanceConfig .. => false
  | _ => true

theorem governance_delivers_iff (governance : Address) (action : GovernanceAction) :
    GovernanceDelivers governance action ↔ governanceDeliverable action = true := by
  cases action with
  | Pool action =>
    refine (pool_delivered_iff governance action).trans ?_
    cases action <;> simp [governanceDeliverable]
  | Invoice action => exact invoice_delivered_iff governance action
  | OracleRegistry action => exact iff_of_true (oracleRegistry_delivered governance action) rfl
  | Compliance action => exact iff_of_true (compliance_delivered governance action) rfl

/-- Exactly these actions reach the contract that they are for with the values that were approved, so
that only the contract's own function can fail on them. -/
theorem actions_delivered_iff (governance accessControl : Address) :
    (∀ action, GovernanceDelivers governance action ↔ governanceDeliverable action = true) ∧
      (∀ action, PayloadDelivers accessControl action ↔ payloadDeliverable action = true) ∧
      ∀ (W : Type) (contractAt : Address → Option Contract) (run : W → Address → Inbound → Option W)
        (w : W) (target : Address) (action : GovernanceAction),
        contractAt target = some (governanceTarget action) → governanceDeliverable action = true →
        send contractAt run w target (governanceCall governance action) =
          run w target (governanceMeaning governance action) := by
  refine ⟨governance_delivers_iff governance, fun action => ?_,
    fun W contractAt run w target action htarget hdeliverable =>
      send_of_delivered htarget ((governance_delivers_iff governance action).2 hdeliverable) w⟩
  constructor
  · intro hdelivers
    cases action with
    | UpdateGovernanceConfig quorumBps passBps secs =>
      obtain ⟨target, inbound, htarget, -, hdispatch⟩ := hdelivers _ rfl
      obtain rfl := Option.some.inj htarget
      have hnone := updateGovernanceConfig_not_decoded accessControl quorumBps passBps secs
      exact absurd (hnone.symm.trans hdispatch) (by simp)
    | _ => rfl
  · intro hdeliverable
    apply payload_delivered
    rintro quorumBps passBps secs rfl
    cases hdeliverable

theorem actions_delivered_iff_yield :
    GovernanceDelivers 1 (.Pool (.SetPoolYield 500)) ∧ PayloadDelivers 2 (.SetPaused true) ∧
      send (fun a => if a = 3 then some .pool else none) (fun w _ _ => some (w + 1)) (0 : ℕ) 3
        (governanceCall 1 (.Pool (.SetPoolYield 500))) = some 1 := by
  obtain ⟨hgovernance, hpayload, hsend⟩ := actions_delivered_iff 1 2
  exact ⟨(hgovernance _).2 rfl, (hpayload _).2 rfl, hsend ℕ _ _ 0 3 _ rfl rfl⟩

/-- A limit on the invoices of a day, a list with one loyalty tier and an update of the governance
configuration are approved in vain. -/
theorem approved_in_vain :
    ¬ GovernanceDelivers 1 (.Invoice (.SetInvoiceDailyLimit 10)) ∧
      ¬ GovernanceDelivers 1 (.Pool (.SetPoolLoyaltyTiers [⟨30, 100⟩])) ∧
      ¬ PayloadDelivers 2 (.UpdateGovernanceConfig 1000 6000 3600) := by
  refine ⟨fun hdelivers => ?_, fun hdelivers => ?_, fun hdelivers => ?_⟩
  · cases (invoice_delivered_iff 1 (.SetInvoiceDailyLimit 10)).1 hdelivers
  · cases (pool_delivered_iff 1 (.SetPoolLoyaltyTiers [⟨30, 100⟩])).1 hdelivers _ rfl
  · obtain ⟨target, inbound, htarget, -, hdispatch⟩ := hdelivers _ rfl
    obtain rfl := Option.some.inj htarget
    have hnone := updateGovernanceConfig_not_decoded 2 1000 6000 3600
    exact absurd (hnone.symm.trans hdispatch) (by simp)

end Astera.Messages
