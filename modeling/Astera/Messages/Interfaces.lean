import Astera.Lib.HostCall
import Astera.Compliance.System
import Astera.CreditScore.System
import Astera.Governance.System
import Astera.Oracle.System
import Astera.Pool.Settings
import Astera.Referral.System

/-!
# The entrypoints for governance and access control

The entrypoints with the suffixes `_via_ac`, `_via_governance` and `_gov`, each under the name and
the types that its contract declares, and what they make of a call.
-/

namespace Astera.Messages

open HostCall HostCall.Codec
open Invoices (Bytes)

/-- The contracts that governance and access control call. -/
inductive Contract
  | pool | invoice | creditScore | oracleRegistry | compliance | governance | referral
  deriving DecidableEq, Repr

inductive Inbound
  | pool (setting : Pool.Setting)
  | withdrawRevenueViaAc (accessControl token : Address) (amount : ℤ)
  | setUpgradeTimelockGov (governance : Address) (secs : ℕ)
  | invoice (setting : Invoices.Setting)
  | registerDebtorViaAc (accessControl : Address) (debtorId debtorName : Bytes) (maxExposure : ℤ)
  | deactivateDebtorViaAc (accessControl : Address) (debtorId : Bytes)
  | setCompletedInvoiceTtlViaGovernance (governance : Address) (ttlLedgers : ℕ)
  | setMetadataImageUriViaGovernance (governance : Address) (uri : Bytes)
  | creditScore (setting : CreditScore.Setting)
  | registerAttestorViaAc (accessControl address : Address) (attestorType weightBps : ℕ)
  | oracleRegistry (setting : Oracle.Setting)
  | slashOracleViaAc (accessControl operator : Address) (bps roundId : ℕ) (evidence : Bytes)
  | adminResolveRoundViaAc (accessControl : Address) (invoiceId : ℕ) (approved : Bool)
      (reason : Bytes)
  | compliance (setting : Compliance.Setting)
  | registerScreenerViaAc (accessControl screener : Address)
  | confirmScreenerViaAc (accessControl screener : Address)
  | deregisterScreenerViaAc (accessControl screener : Address)
  | governance (setting : Governance.Setting)
  | referral (setting : Referral.Setting)

def feeTier : Codec Pool.FeeTier :=
  (record ((Fields.one "min_amount" i128).and ((Fields.one "max_amount" i128).and
    ((Fields.one "min_credit_score" u32).and (Fields.one "fee_bps" u32)))) (by decide)).convert
    (fun (minAmount, maxAmount, minCreditScore, feeBps) =>
      ⟨minAmount, maxAmount, minCreditScore, feeBps⟩)
    (fun tier => (tier.minAmount, tier.maxAmount, tier.minCreditScore, tier.feeBps)) fun _ => rfl

def loyaltyTierFields : Fields (ℕ × ℕ) := (Fields.one "min_days" u32).and (.one "bonus_bps" u32)

def loyaltyTier : Codec Pool.LoyaltyTier :=
  (record loyaltyTierFields (by decide)).convert (fun (minDays, bonusBps) => ⟨minDays, bonusBps⟩)
    (fun tier => (tier.minDays, tier.bonusBps)) fun _ => rfl

def collateralConfig : Codec Pool.CollateralConfig :=
  (record ((Fields.one "threshold" i128).and (.one "collateral_bps" u32)) (by decide)).convert
    (fun (threshold, collateralBps) => ⟨threshold, collateralBps⟩)
    (fun config => (config.threshold, config.collateralBps)) fun _ => rfl

def quorumTier : Codec Oracle.QuorumTier :=
  (record ((Fields.one "min_invoice_amount" i128).and (.one "quorum_bps" u32))
    (by decide)).convert (fun (minInvoiceAmount, quorumBps) => ⟨minInvoiceAmount, quorumBps⟩)
    (fun tier => (tier.minInvoiceAmount, tier.quorumBps)) fun _ => rfl

def proposalCategory : Codec Governance.ProposalCategory :=
  enum [.ParameterChange, .Treasury, .Critical]
    (fun | .ParameterChange => "ParameterChange" | .Treasury => "Treasury" | .Critical => "Critical")
    (fun category => by cases category <;> decide)
    (fun category category' h => by cases category <;> cases category' <;> first | rfl | simp at h)

def optionAddress : Codec (Option Address) := option address fun _ h => by cases h

def poolEntrypoints : List (Entrypoint Inbound) :=
  [.of "set_paused_via_ac" (.pair address bool) fun (accessControl, paused) =>
      .pool (.setPausedViaAc accessControl paused),
    .of "set_yield_via_ac" (.pair address u32) fun (accessControl, newYieldBps) =>
      .pool (.setYieldViaAc accessControl newYieldBps),
    .of "set_treasury_via_ac" (.pair address address) fun (accessControl, treasury) =>
      .pool (.setTreasuryViaAc accessControl treasury),
    .of "withdraw_revenue_via_ac" (.cons address (.pair address i128))
      fun (accessControl, token, amount) => .withdrawRevenueViaAc accessControl token amount,
    .of "set_oracle_contract_via_ac" (.pair address address) fun (accessControl, oracle) =>
      .pool (.setOracleContractViaAc accessControl oracle),
    .of "set_kyc_required_via_ac" (.pair address bool) fun (accessControl, required) =>
      .pool (.setKycRequiredViaAc accessControl required),
    .of "set_investor_kyc_via_ac" (.cons address (.pair address bool))
      fun (accessControl, investor, approved) =>
        .pool (.setInvestorKycViaAc accessControl investor approved),
    .of "set_max_utilization_via_ac" (.pair address u32) fun (accessControl, maxBps) =>
      .pool (.setMaxUtilizationViaAc accessControl maxBps),
    .of "set_yield_via_governance" (.pair address u32) fun (governance, newYieldBps) =>
      .pool (.setYieldViaGovernance governance newYieldBps),
    .of "set_treasury_via_governance" (.pair address address) fun (governance, treasury) =>
      .pool (.setTreasuryViaGovernance governance treasury),
    .of "set_max_utilization_gov" (.pair address u32) fun (governance, maxBps) =>
      .pool (.setMaxUtilizationGov governance maxBps),
    .of "set_oracle_contract_gov" (.pair address address) fun (governance, oracle) =>
      .pool (.setOracleContractGov governance oracle),
    .of "set_kyc_required_via_governance" (.pair address bool) fun (governance, required) =>
      .pool (.setKycRequiredViaGovernance governance required),
    .of "set_compliance_registry_gov" (.pair address address) fun (governance, registry) =>
      .pool (.setComplianceRegistryGov governance registry),
    .of "set_require_compliance_check_gov" (.pair address bool) fun (governance, required) =>
      .pool (.setRequireComplianceCheckGov governance required),
    .of "set_referral_registry_gov" (.pair address address) fun (governance, registry) =>
      .pool (.setReferralRegistryGov governance registry),
    .of "set_credit_score_contract_gov" (.pair address address) fun (governance, contract) =>
      .pool (.setCreditScoreContractGov governance contract),
    .of "set_insurance_contract_gov" (.pair address address) fun (governance, contract) =>
      .pool (.setInsuranceContractGov governance contract),
    .of "set_compound_interest_gov" (.pair address bool) fun (governance, compound) =>
      .pool (.setCompoundInterestGov governance compound),
    .of "set_secondary_market_gov" (.pair address address) fun (governance, contract) =>
      .pool (.setSecondaryMarketGov governance contract),
    .of "set_risk_contract_via_governance" (.pair address address) fun (governance, contract) =>
      .pool (.setRiskContractViaGovernance governance contract),
    .of "set_min_deposit_via_governance" (.pair address i128) fun (governance, minAmount) =>
      .pool (.setMinDepositViaGovernance governance minAmount),
    .of "set_max_investor_conc_gov" (.pair address u32) fun (governance, maxBps) =>
      .pool (.setMaxInvestorConcGov governance maxBps),
    .of "set_upgrade_timelock_gov" (.pair address u64) fun (governance, secs) =>
      .setUpgradeTimelockGov governance secs,
    .of "set_operation_delay_gov" (.pair address u64) fun (governance, secs) =>
      .pool (.setOperationDelayGov governance secs),
    .of "set_yield_change_policy_gov" (.pair address u64) fun (governance, cooldownSecs) =>
      .pool (.setYieldChangePolicyGov governance cooldownSecs),
    .of "set_factoring_fee_via_governance" (.pair address u32) fun (governance, factoringFeeBps) =>
      .pool (.setFactoringFeeViaGovernance governance factoringFeeBps),
    .of "set_withdrawal_limits_gov" (.pair address u32) fun (governance, maxBps) =>
      .pool (.setWithdrawalLimitsGov governance maxBps),
    .of "set_max_wd_queue_age_gov" (.pair address u32) fun (governance, days) =>
      .pool (.setMaxWdQueueAgeGov governance days),
    .of "set_max_wd_queue_depth_gov" (.pair address u32) fun (governance, depth) =>
      .pool (.setMaxWdQueueDepthGov governance depth),
    .of "set_oracle_stale_thresh_gov" (.pair address u64) fun (governance, thresholdSecs) =>
      .pool (.setOracleStaleThreshGov governance thresholdSecs),
    .of "set_fee_tier_via_governance" (.cons address (.pair u32 feeTier))
      fun (governance, tierId, tier) => .pool (.setFeeTierViaGovernance governance tierId tier),
    .of "set_loyalty_tiers_via_governance" (.pair address (list loyaltyTier))
      fun (governance, tiers) => .pool (.setLoyaltyTiersViaGovernance governance tiers),
    .of "set_fallback_price_gov" (.cons address (.pair address i128))
      fun (governance, token, price) => .pool (.setFallbackPriceGov governance token price),
    .of "set_rate_bounds_via_governance" (.cons address (.cons address (.pair u32 u32)))
      fun (governance, token, minBps, maxBps) =>
        .pool (.setRateBoundsViaGovernance governance token minBps maxBps),
    .of "set_exchange_rate_via_governance" (.cons address (.pair address u32))
      fun (governance, token, rateBps) =>
        .pool (.setExchangeRateViaGovernance governance token rateBps),
    .of "set_collateral_config_gov" (.pair address collateralConfig) fun (governance, config) =>
      .pool (.setCollateralConfigGov governance config)]

def invoiceEntrypoints : List (Entrypoint Inbound) :=
  [.of "set_access_control_via_ac" (.pair address address) fun (accessControl, newAccessControl) =>
      .invoice (.setAccessControlViaAc accessControl newAccessControl),
    .of "set_paused_via_ac" (.pair address bool) fun (accessControl, paused) =>
      .invoice (.setPausedViaAc accessControl paused),
    .of "set_oracle_via_ac" (.pair address address) fun (accessControl, oracle) =>
      .invoice (.setOracleViaAc accessControl oracle),
    .of "register_debtor_via_ac" (.cons address (.cons string (.pair string i128)))
      fun (accessControl, debtorId, debtorName, maxExposure) =>
        .registerDebtorViaAc accessControl debtorId debtorName maxExposure,
    .of "deactivate_debtor_via_ac" (.pair address string) fun (accessControl, debtorId) =>
      .deactivateDebtorViaAc accessControl debtorId,
    .of "add_keeper_via_ac" (.pair address address) fun (accessControl, keeper) =>
      .invoice (.addKeeperViaAc accessControl keeper),
    .of "set_grace_period_via_governance" (.pair address u32) fun (governance, days) =>
      .invoice (.setGracePeriodViaGovernance governance days),
    .of "set_max_invoice_amount_gov" (.pair address i128) fun (governance, maxInvoiceAmount) =>
      .invoice (.setMaxInvoiceAmountGov governance maxInvoiceAmount),
    .of "set_max_sme_outstanding_via_governance" (.pair address i128) fun (governance, max) =>
      .invoice (.setMaxSmeOutstandingViaGovernance governance max),
    .of "set_expiration_duration_via_governance" (.pair address u64) fun (governance, secs) =>
      .invoice (.setExpirationDurationViaGovernance governance secs),
    .of "set_completed_invoice_ttl_via_governance" (.pair address u32)
      fun (governance, ttlLedgers) => .setCompletedInvoiceTtlViaGovernance governance ttlLedgers,
    .of "set_daily_invoice_limit_via_governance" (.pair address u32) fun (governance, limit) =>
      .invoice (.setDailyInvoiceLimitViaGovernance governance limit),
    .of "set_dispute_window_via_governance" (.pair address u64) fun (governance, window) =>
      .invoice (.setDisputeWindowViaGovernance governance window),
    .of "set_oracle_via_governance" (.pair address address) fun (governance, oracle) =>
      .invoice (.setOracleViaGovernance governance oracle),
    .of "set_secondary_oracle_via_governance" (.pair address optionAddress)
      fun (governance, oracleSecondary) =>
        .invoice (.setSecondaryOracleViaGovernance governance oracleSecondary),
    .of "set_oracle_registry_via_governance" (.pair address address) fun (governance, registry) =>
      .invoice (.setOracleRegistryViaGovernance governance registry),
    .of "set_consensus_required_via_governance" (.pair address bool)
      fun (governance, required) => .invoice (.setConsensusRequiredViaGovernance governance required),
    .of "set_compliance_registry_via_governance" (.pair address address)
      fun (governance, registry) =>
        .invoice (.setComplianceRegistryViaGovernance governance registry),
    .of "set_require_compliance_check_via_governance" (.pair address bool)
      fun (governance, required) =>
        .invoice (.setRequireComplianceCheckViaGovernance governance required),
    .of "set_require_registered_debtor_via_governance" (.pair address bool)
      fun (governance, required) =>
        .invoice (.setRequireRegisteredDebtorViaGovernance governance required),
    .of "set_oracle_verified_funding_only_via_governance" (.pair address bool)
      fun (governance, required) =>
        .invoice (.setOracleVerifiedFundingOnlyViaGovernance governance required),
    .of "set_arbitration_contract_via_governance" (.pair address address)
      fun (governance, arbitration) =>
        .invoice (.setArbitrationContractViaGovernance governance arbitration),
    .of "set_dispute_value_threshold_via_governance" (.pair address i128)
      fun (governance, threshold) =>
        .invoice (.setDisputeValueThresholdViaGovernance governance threshold),
    .of "set_metadata_image_uri_via_governance" (.pair address string) fun (governance, uri) =>
      .setMetadataImageUriViaGovernance governance uri,
    .of "set_min_due_date_window_via_governance" (.pair address u64) fun (governance, windowSecs) =>
      .invoice (.setMinDueDateWindowViaGovernance governance windowSecs)]

def creditScoreEntrypoints : List (Entrypoint Inbound) :=
  [.of "set_access_control_via_ac" (.pair address address) fun (accessControl, newAccessControl) =>
      .creditScore (.setAccessControlViaAc accessControl newAccessControl),
    .of "set_paused_via_ac" (.pair address bool) fun (accessControl, paused) =>
      .creditScore (.setPausedViaAc accessControl paused),
    .of "set_late_threshold_via_ac" (.pair address i64) fun (accessControl, days) =>
      .creditScore (.setLateThresholdViaAc accessControl days),
    .of "set_score_thresholds_via_ac" (.cons address (.cons u32 (.cons u32 (.pair u32 u32))))
      fun (accessControl, excellent, veryGood, good, fair) =>
        .creditScore (.setScoreThresholdsViaAc accessControl ⟨excellent, veryGood, good, fair⟩),
    .of "register_attestor_via_ac" (.cons address (.cons address (.pair u32 u32)))
      fun (accessControl, attestor, attestorType, weightBps) =>
        .registerAttestorViaAc accessControl attestor attestorType weightBps]

def oracleRegistryEntrypoints : List (Entrypoint Inbound) :=
  [.of "set_access_control_via_ac" (.pair address address) fun (accessControl, newAccessControl) =>
      .oracleRegistry (.setAccessControlViaAc accessControl newAccessControl),
    .of "set_invoice_contract_via_ac" (.pair address address) fun (accessControl, contract) =>
      .oracleRegistry (.setInvoiceContractViaAc accessControl contract),
    .of "set_treasury_via_ac" (.pair address optionAddress) fun (accessControl, treasury) =>
      .oracleRegistry (.setTreasuryViaAc accessControl treasury),
    .of "set_registry_config_via_ac"
      (.cons address (.cons i128 (.cons u32 (.cons u32 (.pair u64 u64)))))
      fun (accessControl, minStake, requiredVotes, quorumBps, duration, cooldown) =>
        .oracleRegistry (.setRegistryConfigViaAc accessControl minStake requiredVotes quorumBps
          duration cooldown),
    .of "set_paused_via_ac" (.pair address bool) fun (accessControl, paused) =>
      .oracleRegistry (.setPausedViaAc accessControl paused),
    .of "slash_oracle_via_ac" (.cons address (.cons address (.cons u32 (.pair u64 string))))
      fun (accessControl, operator, bps, roundId, evidence) =>
        .slashOracleViaAc accessControl operator bps roundId evidence,
    .of "admin_resolve_round_via_ac" (.cons address (.cons u64 (.pair bool string)))
      fun (accessControl, invoiceId, approved, reason) =>
        .adminResolveRoundViaAc accessControl invoiceId approved reason,
    .of "set_invoice_contract_gov" (.pair address address) fun (governance, contract) =>
      .oracleRegistry (.setInvoiceContractGov governance contract),
    .of "set_treasury_via_governance" (.pair address optionAddress) fun (governance, treasury) =>
      .oracleRegistry (.setTreasuryViaGovernance governance treasury),
    .of "set_registry_config_gov"
      (.cons address (.cons i128 (.cons u32 (.cons u32 (.pair u64 u64)))))
      fun (governance, minStake, requiredVotes, quorumBps, duration, cooldown) =>
        .oracleRegistry (.setRegistryConfigGov governance minStake requiredVotes quorumBps duration
          cooldown),
    .of "set_quorum_tiers_via_governance" (.pair address (list quorumTier))
      fun (governance, tiers) => .oracleRegistry (.setQuorumTiersViaGovernance governance tiers)]

def complianceEntrypoints : List (Entrypoint Inbound) :=
  [.of "set_access_control_via_ac" (.pair address address) fun (accessControl, newAccessControl) =>
      .compliance (.setAccessControlViaAc accessControl newAccessControl),
    .of "set_paused_via_ac" (.pair address bool) fun (accessControl, paused) =>
      .compliance (.setPausedViaAc accessControl paused),
    .of "set_rescreening_interval_gov" (.pair address u64) fun (governance, secs) =>
      .compliance (.setRescreeningIntervalGov governance secs),
    .of "set_screener_timelock_gov" (.pair address u64) fun (governance, secs) =>
      .compliance (.setScreenerTimelockGov governance secs),
    .of "register_screener_via_ac" (.pair address address) fun (accessControl, screener) =>
      .registerScreenerViaAc accessControl screener,
    .of "confirm_screener_via_ac" (.pair address address) fun (accessControl, screener) =>
      .confirmScreenerViaAc accessControl screener,
    .of "deregister_screener_via_ac" (.pair address address) fun (accessControl, screener) =>
      .deregisterScreenerViaAc accessControl screener,
    .of "set_rescreening_interval_via_ac" (.pair address u64) fun (accessControl, secs) =>
      .compliance (.setRescreeningIntervalViaAc accessControl secs),
    .of "set_screener_timelock_via_ac" (.pair address u64) fun (accessControl, secs) =>
      .compliance (.setScreenerTimelockViaAc accessControl secs)]

def governanceEntrypoints : List (Entrypoint Inbound) :=
  [.of "set_access_control_via_ac" (.pair address address) fun (accessControl, newAccessControl) =>
      .governance (.setAccessControlViaAc accessControl newAccessControl),
    .of "update_config_via_ac" (.cons address (.pair u32 u32))
      fun (accessControl, quorumBps, passBps) =>
        .governance (.updateConfigViaAc accessControl quorumBps passBps),
    .of "update_min_share_balance_via_ac" (.pair address i128)
      fun (accessControl, minShareBalance) =>
        .governance (.updateMinShareBalanceViaAc accessControl minShareBalance),
    .of "set_category_quorum_via_ac" (.cons address (.pair proposalCategory u32))
      fun (accessControl, category, quorumBps) =>
        .governance (.setCategoryQuorumViaAc accessControl category quorumBps),
    .of "set_execution_delay_via_ac" (.pair address u64) fun (accessControl, secs) =>
      .governance (.setExecutionDelayViaAc accessControl secs)]

def referralEntrypoints : List (Entrypoint Inbound) :=
  [.of "set_access_control_via_ac" (.pair address address) fun (accessControl, newAccessControl) =>
      .referral (.setAccessControlViaAc accessControl newAccessControl),
    .of "set_paused_via_ac" (.pair address bool) fun (accessControl, paused) =>
      .referral (.setPausedViaAc accessControl paused),
    .of "set_pool_via_ac" (.pair address address) fun (accessControl, pool) =>
      .referral (.setPoolViaAc accessControl pool),
    .of "set_borrow_reward_bps_via_ac" (.pair address u32) fun (accessControl, bps) =>
      .referral (.setBorrowRewardBpsViaAc accessControl bps),
    .of "set_deposit_reward_bps_via_ac" (.pair address u32) fun (accessControl, bps) =>
      .referral (.setDepositRewardBpsViaAc accessControl bps)]

def Contract.entrypoints : Contract → List (Entrypoint Inbound)
  | .pool => poolEntrypoints
  | .invoice => invoiceEntrypoints
  | .creditScore => creditScoreEntrypoints
  | .oracleRegistry => oracleRegistryEntrypoints
  | .compliance => complianceEntrypoints
  | .governance => governanceEntrypoints
  | .referral => referralEntrypoints

end Astera.Messages
