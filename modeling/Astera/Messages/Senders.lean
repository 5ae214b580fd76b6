import Astera.AccessControl.Contract
import Astera.Messages.Interfaces

/-!
# The calls of governance and access control

The call that each action of governance and of access control makes, under the name and the types of
the sender's client, the contract that it is for, and the call that this contract should decode.
-/

namespace Astera.Messages

open HostCall HostCall.Codec
open Governance (GovernanceAction PoolAction InvoiceAction OracleRegistryAction ComplianceAction)
open AccessControl (ActionPayload Invocation)

theorem feeTier_names : ((Fields.one "min_amount" i128).and ((Fields.one "max_amount" i128).and
    ((Fields.one "min_credit_score" u32).and (Fields.one "fee_bps" u32)))).names.Nodup := by
  decide

theorem collateralConfig_names :
    ((Fields.one "threshold" i128).and (.one "collateral_bps" u32)).names.Nodup := by
  decide

theorem quorumTier_names :
    ((Fields.one "min_invoice_amount" i128).and (.one "quorum_bps" u32)).names.Nodup := by
  decide

def govFeeTier : Codec Governance.FeeTier :=
  (record ((Fields.one "min_amount" i128).and ((Fields.one "max_amount" i128).and
    ((Fields.one "min_credit_score" u32).and (Fields.one "fee_bps" u32)))) feeTier_names).convert
    (fun (minAmount, maxAmount, minCreditScore, feeBps) =>
      ⟨minAmount, maxAmount, minCreditScore, feeBps⟩)
    (fun tier => (tier.minAmount, tier.maxAmount, tier.minCreditScore, tier.feeBps)) fun _ => rfl

def govLoyaltyTierFields : Fields (ℕ × ℕ) :=
  (Fields.one "days_threshold" u32).and (.one "bonus_bps" u32)

def govLoyaltyTier : Codec Governance.LoyaltyTier :=
  (record govLoyaltyTierFields (by decide)).convert
    (fun (daysThreshold, bonusBps) => ⟨daysThreshold, bonusBps⟩)
    (fun tier => (tier.daysThreshold, tier.bonusBps)) fun _ => rfl

def govCollateralConfig : Codec Governance.CollateralConfig :=
  (record ((Fields.one "threshold" i128).and (.one "collateral_bps" u32))
    collateralConfig_names).convert
    (fun (threshold, collateralBps) => ⟨threshold, collateralBps⟩)
    (fun config => (config.threshold, config.collateralBps)) fun _ => rfl

def govQuorumTier : Codec Governance.QuorumTier :=
  (record ((Fields.one "min_invoice_amount" i128).and (.one "quorum_bps" u32))
    quorumTier_names).convert (fun (minInvoiceAmount, quorumBps) => ⟨minInvoiceAmount, quorumBps⟩)
    (fun tier => (tier.minInvoiceAmount, tier.quorumBps)) fun _ => rfl

def acProposalCategory : Codec AccessControl.ProposalCategory :=
  enum [.ParameterChange, .Treasury, .Critical]
    (fun | .ParameterChange => "ParameterChange" | .Treasury => "Treasury" | .Critical => "Critical")
    (fun category => by cases category <;> decide)
    (fun category category' h => by cases category <;> cases category' <;> first | rfl | simp at h)

def poolCall (governance : Address) : PoolAction → Call
  | .SetPoolYield newYieldBps =>
    .of "set_yield_via_governance" (.pair address u32) (governance, newYieldBps)
  | .SetPoolYieldChangePolicy cooldownSecs =>
    .of "set_yield_change_policy_gov" (.pair address u64) (governance, cooldownSecs)
  | .SetPoolFactoringFee feeBps =>
    .of "set_factoring_fee_via_governance" (.pair address u32) (governance, feeBps)
  | .SetPoolFeeTier tierId tier =>
    .of "set_fee_tier_via_governance" (.cons address (.pair u32 govFeeTier))
      (governance, tierId, tier)
  | .SetPoolTreasury treasury =>
    .of "set_treasury_via_governance" (.pair address address) (governance, treasury)
  | .SetPoolMaxUtilization maxBps =>
    .of "set_max_utilization_gov" (.pair address u32) (governance, maxBps)
  | .SetPoolMinDeposit minAmount =>
    .of "set_min_deposit_via_governance" (.pair address i128) (governance, minAmount)
  | .SetPoolMaxInvestorConcentration maxBps =>
    .of "set_max_investor_conc_gov" (.pair address u32) (governance, maxBps)
  | .SetPoolLoyaltyTiers tiers =>
    .of "set_loyalty_tiers_via_governance" (.pair address (list govLoyaltyTier))
      (governance, tiers)
  | .SetPoolWithdrawalLimits maxBps =>
    .of "set_withdrawal_limits_gov" (.pair address u32) (governance, maxBps)
  | .SetPoolMaxWithdrawalQueueAge days =>
    .of "set_max_wd_queue_age_gov" (.pair address u32) (governance, days)
  | .SetPoolMaxWithdrawalQueueDepth depth =>
    .of "set_max_wd_queue_depth_gov" (.pair address u32) (governance, depth)
  | .SetPoolOracleContract oracle =>
    .of "set_oracle_contract_gov" (.pair address address) (governance, oracle)
  | .SetPoolOracleStaleThreshold thresholdSecs =>
    .of "set_oracle_stale_thresh_gov" (.pair address u64) (governance, thresholdSecs)
  | .SetPoolFallbackPrice token price =>
    .of "set_fallback_price_gov" (.cons address (.pair address i128)) (governance, token, price)
  | .SetPoolRateBounds token minBps maxBps =>
    .of "set_rate_bounds_via_governance" (.cons address (.cons address (.pair u32 u32)))
      (governance, token, minBps, maxBps)
  | .SetPoolExchangeRate token rateBps =>
    .of "set_exchange_rate_via_governance" (.cons address (.pair address u32))
      (governance, token, rateBps)
  | .SetPoolComplianceRegistry registry =>
    .of "set_compliance_registry_gov" (.pair address address) (governance, registry)
  | .SetPoolRequireComplianceCheck required =>
    .of "set_require_compliance_check_gov" (.pair address bool) (governance, required)
  | .SetPoolReferralRegistry registry =>
    .of "set_referral_registry_gov" (.pair address address) (governance, registry)
  | .SetPoolKycRequired required =>
    .of "set_kyc_required_via_governance" (.pair address bool) (governance, required)
  | .SetPoolCreditScoreContract creditScore =>
    .of "set_credit_score_contract_gov" (.pair address address) (governance, creditScore)
  | .SetPoolInsuranceContract insurance =>
    .of "set_insurance_contract_gov" (.pair address address) (governance, insurance)
  | .SetPoolCompoundInterest compound =>
    .of "set_compound_interest_gov" (.pair address bool) (governance, compound)
  | .SetPoolSecondaryMarketContract secondaryMarket =>
    .of "set_secondary_market_gov" (.pair address address) (governance, secondaryMarket)
  | .SetPoolRiskContract risk =>
    .of "set_risk_contract_via_governance" (.pair address address) (governance, risk)
  | .SetPoolCollateralConfig config =>
    .of "set_collateral_config_gov" (.pair address govCollateralConfig) (governance, config)
  | .SetPoolUpgradeTimelock secs =>
    .of "set_upgrade_timelock_gov" (.pair address u64) (governance, secs)
  | .SetPoolOperationDelay secs =>
    .of "set_operation_delay_gov" (.pair address u64) (governance, secs)

def invoiceCall (governance : Address) : InvoiceAction → Call
  | .SetInvoiceGracePeriod days =>
    .of "set_grace_period_via_governance" (.pair address u32) (governance, days)
  | .SetInvoiceMinDueDateWindow windowSecs =>
    .of "set_min_due_date_window_via_governance" (.pair address u64) (governance, windowSecs)
  | .SetInvoiceMaxAmount maxAmount =>
    .of "set_max_invoice_amount_gov" (.pair address i128) (governance, maxAmount)
  | .SetInvoiceMaxSmeOutstanding max =>
    .of "set_max_sme_outstanding_via_governance" (.pair address i128) (governance, max)
  | .SetInvoiceExpirationDuration secs =>
    .of "set_expiration_duration_via_governance" (.pair address u64) (governance, secs)
  | .SetInvoiceCompletedTtl ttlLedgers =>
    .of "set_completed_invoice_ttl_via_governance" (.pair address u32) (governance, ttlLedgers)
  | .SetInvoiceDailyLimit limit =>
    .of "set_daily_invoice_limit_via_governance" (.pair address u32) (governance, limit)
  | .SetInvoiceDisputeWindow window =>
    .of "set_dispute_window_via_governance" (.pair address u64) (governance, window)
  | .SetInvoiceOracle oracle =>
    .of "set_oracle_via_governance" (.pair address address) (governance, oracle)
  | .SetInvoiceSecondaryOracle oracleSecondary =>
    .of "set_secondary_oracle_via_governance" (.pair address optionAddress)
      (governance, oracleSecondary)
  | .SetInvoiceOracleRegistry registry =>
    .of "set_oracle_registry_via_governance" (.pair address address) (governance, registry)
  | .SetInvoiceConsensusRequired required =>
    .of "set_consensus_required_via_governance" (.pair address bool) (governance, required)
  | .SetInvoiceComplianceRegistry registry =>
    .of "set_compliance_registry_via_governance" (.pair address address) (governance, registry)
  | .SetInvoiceRequireComplianceCheck required =>
    .of "set_require_compliance_check_via_governance" (.pair address bool) (governance, required)
  | .SetInvoiceRequireRegDebtor required =>
    .of "set_require_registered_debtor_via_governance" (.pair address bool)
      (governance, required)
  | .SetInvoiceVerifiedFundingOnly required =>
    .of "set_oracle_verified_funding_only_via_governance" (.pair address bool)
      (governance, required)
  | .SetInvoiceArbitrationContract arbitration =>
    .of "set_arbitration_contract_via_governance" (.pair address address)
      (governance, arbitration)
  | .SetInvoiceDisputeValueThreshold threshold =>
    .of "set_dispute_value_threshold_via_governance" (.pair address i128) (governance, threshold)
  | .SetInvoiceMetadataImageUri uri =>
    .of "set_metadata_image_uri_via_governance" (.pair address string) (governance, uri)

def oracleRegistryCall (governance : Address) : OracleRegistryAction → Call
  | .SetOracleRegistryInvoiceContract invoiceContract =>
    .of "set_invoice_contract_gov" (.pair address address) (governance, invoiceContract)
  | .SetOracleRegistryTreasury treasury =>
    .of "set_treasury_via_governance" (.pair address optionAddress) (governance, treasury)
  | .SetOracleRegistryConfig minStake requiredVotes quorumBps roundDurationSecs
      deregisterCooldownSecs =>
    .of "set_registry_config_gov"
      (.cons address (.cons i128 (.cons u32 (.cons u32 (.pair u64 u64)))))
      (governance, minStake, requiredVotes, quorumBps, roundDurationSecs, deregisterCooldownSecs)
  | .SetOracleRegistryQuorumTiers tiers =>
    .of "set_quorum_tiers_via_governance" (.pair address (list govQuorumTier))
      (governance, tiers)

def complianceCall (governance : Address) : ComplianceAction → Call
  | .SetComplianceRescreeningInterval secs =>
    .of "set_rescreening_interval_gov" (.pair address u64) (governance, secs)
  | .SetComplianceScreenerTimelock secs =>
    .of "set_screener_timelock_gov" (.pair address u64) (governance, secs)

/-- The call of `execute_governance_action`. -/
def governanceCall (governance : Address) : GovernanceAction → Call
  | .Pool action => poolCall governance action
  | .Invoice action => invoiceCall governance action
  | .OracleRegistry action => oracleRegistryCall governance action
  | .Compliance action => complianceCall governance action

def governanceTarget : GovernanceAction → Contract
  | .Pool _ => .pool
  | .Invoice _ => .invoice
  | .OracleRegistry _ => .oracleRegistry
  | .Compliance _ => .compliance

/-- The call of an entrypoint, under the name and the types of the client. -/
def invocationCall (accessControl : Address) : Invocation → Call
  | .setPausedViaAc paused => .of "set_paused_via_ac" (.pair address bool) (accessControl, paused)
  | .setYieldViaAc newYieldBps =>
    .of "set_yield_via_ac" (.pair address u32) (accessControl, newYieldBps)
  | .setTreasuryViaAc treasury =>
    .of "set_treasury_via_ac" (.pair address optionAddress) (accessControl, treasury)
  | .withdrawRevenueViaAc token amount =>
    .of "withdraw_revenue_via_ac" (.cons address (.pair address i128))
      (accessControl, token, amount)
  | .setOracleContractViaAc oracle =>
    .of "set_oracle_contract_via_ac" (.pair address address) (accessControl, oracle)
  | .setKycRequiredViaAc required =>
    .of "set_kyc_required_via_ac" (.pair address bool) (accessControl, required)
  | .setInvestorKycViaAc investor approved =>
    .of "set_investor_kyc_via_ac" (.cons address (.pair address bool))
      (accessControl, investor, approved)
  | .setMaxUtilizationViaAc maxBps =>
    .of "set_max_utilization_via_ac" (.pair address u32) (accessControl, maxBps)
  | .setOracleViaAc oracle => .of "set_oracle_via_ac" (.pair address address) (accessControl, oracle)
  | .registerDebtorViaAc debtorId debtorName maxExposure =>
    .of "register_debtor_via_ac" (.cons address (.cons string (.pair string i128)))
      (accessControl, debtorId, debtorName, maxExposure)
  | .deactivateDebtorViaAc debtorId =>
    .of "deactivate_debtor_via_ac" (.pair address string) (accessControl, debtorId)
  | .addKeeperViaAc keeper => .of "add_keeper_via_ac" (.pair address address) (accessControl, keeper)
  | .setLateThresholdViaAc days =>
    .of "set_late_threshold_via_ac" (.pair address i64) (accessControl, days)
  | .setScoreThresholdsViaAc excellent veryGood good fair =>
    .of "set_score_thresholds_via_ac" (.cons address (.cons u32 (.cons u32 (.pair u32 u32))))
      (accessControl, excellent, veryGood, good, fair)
  | .registerAttestorViaAc attestor attestorType weightBps =>
    .of "register_attestor_via_ac" (.cons address (.cons address (.pair u32 u32)))
      (accessControl, attestor, attestorType, weightBps)
  | .setInvoiceContractViaAc invoiceContract =>
    .of "set_invoice_contract_via_ac" (.pair address address) (accessControl, invoiceContract)
  | .setRegistryConfigViaAc minStake requiredVotes quorumBps roundDurationSecs
      deregisterCooldownSecs =>
    .of "set_registry_config_via_ac"
      (.cons address (.cons i128 (.cons u32 (.cons u32 (.pair u64 u64)))))
      (accessControl, minStake, requiredVotes, quorumBps, roundDurationSecs,
        deregisterCooldownSecs)
  | .slashOracleViaAc operator bps roundId evidence =>
    .of "slash_oracle_via_ac" (.cons address (.cons address (.cons u32 (.pair u64 string))))
      (accessControl, operator, bps, roundId, evidence)
  | .adminResolveRoundViaAc invoiceId approved reason =>
    .of "admin_resolve_round_via_ac" (.cons address (.cons u64 (.pair bool string)))
      (accessControl, invoiceId, approved, reason)
  | .registerScreenerViaAc screener =>
    .of "register_screener_via_ac" (.pair address address) (accessControl, screener)
  | .confirmScreenerViaAc screener =>
    .of "confirm_screener_via_ac" (.pair address address) (accessControl, screener)
  | .deregisterScreenerViaAc screener =>
    .of "deregister_screener_via_ac" (.pair address address) (accessControl, screener)
  | .setRescreeningIntervalViaAc secs =>
    .of "set_rescreening_interval_via_ac" (.pair address u64) (accessControl, secs)
  | .setScreenerTimelockViaAc secs =>
    .of "set_screener_timelock_via_ac" (.pair address u64) (accessControl, secs)
  | .updateConfigViaAc quorumBps passBps executionDelaySecs =>
    .of "update_config_via_ac" (.cons address (.cons u32 (.pair u32 u64)))
      (accessControl, quorumBps, passBps, executionDelaySecs)
  | .setCategoryQuorumViaAc category quorumBps =>
    .of "set_category_quorum_via_ac" (.cons address (.pair acProposalCategory u32))
      (accessControl, category, quorumBps)
  | .setPoolViaAc pool => .of "set_pool_via_ac" (.pair address address) (accessControl, pool)
  | .setBorrowRewardBpsViaAc bps =>
    .of "set_borrow_reward_bps_via_ac" (.pair address u32) (accessControl, bps)
  | .setDepositRewardBpsViaAc bps =>
    .of "set_deposit_reward_bps_via_ac" (.pair address u32) (accessControl, bps)
  | .setAccessControlViaAc newAccessControl =>
    .of "set_access_control_via_ac" (.pair address address) (accessControl, newAccessControl)

/-- The contract that an action of access control is for, other than access control itself. -/
def payloadTarget : ActionPayload → Option Contract
  | .SetPaused _ | .SetYield _ | .SetTreasury _ | .WithdrawRevenue .. | .SetOracleContract _
  | .SetKycRequired _ | .SetInvestorKyc .. | .SetMaxUtilization _ => some .pool
  | .SetOracle _ | .RegisterDebtor .. | .DeactivateDebtor _ | .AddKeeper _
  | .SetInvoiceAccessControl _ => some .invoice
  | .SetLateThreshold _ | .SetScoreThresholds .. | .RegisterAttestor ..
  | .SetCreditScoreAccessControl _ => some .creditScore
  | .SetOracleRegistryInvoiceContract _ | .SetOracleRegistryTreasury _ | .SetOracleRegistryConfig ..
  | .SetOracleRegistryPaused _ | .SlashOracle .. | .AdminResolveRound ..
  | .SetOracleRegistryAccessControl _ => some .oracleRegistry
  | .SetCompliancePaused _ | .RegisterScreener _ | .ConfirmScreenerRegistration _
  | .DeregisterScreener _ | .SetRescreeningInterval _ | .SetScreenerTimelock _
  | .SetComplianceAccessControl _ => some .compliance
  | .UpdateGovernanceConfig .. | .SetCategoryQuorum .. | .SetGovernanceAccessControl _ =>
    some .governance
  | .SetReferralPaused _ | .SetReferralPool _ | .SetBorrowRewardBps _ | .SetDepositRewardBps _
  | .SetReferralAccessControl _ => some .referral
  | .AddSigner .. | .RemoveSigner .. | .SetThreshold .. | .SetProposalExpiry _ => none

end Astera.Messages
