import Astera.Invoices.Types

/-!
# Data of the governance contract

The proposals and their actions, the configuration, error codes and constants, with the names of the
contract.  The records inside the actions are its own copies of those of the targets.
-/

namespace Astera.Governance

open Invoices (Bytes)

inductive GovernanceError
  | NotInitialized | ProposalNotFound | ProposalInactive | AlreadyVoted | InsufficientShareBalance
  | VotingPeriodActive | TimelockActive | QuorumNotMet | InvalidProposalState | Unauthorized
  | ProposalExpired | InvalidConfig | AccessControlNotConfigured | GovernanceNotConfigured
  | AlreadyInitialized | Paused
  deriving DecidableEq, Repr

inductive Fault
  | error (e : GovernanceError)
  | auth
  | overflow
  /-- A call to another contract trapped. -/
  | neighbour
  deriving DecidableEq, Repr

abbrev Res := Except Fault

def minVotingPeriodSecs : ℕ := 86400

def defaultVotingPeriodSecs : ℕ := 7 * 86400

def defaultExecutionDelaySecs : ℕ := 48 * 3600

def defaultExecutionExpirySecs : ℕ := 7 * 86400

def defaultQuorumBps : ℕ := 1000

def defaultPassBps : ℕ := 6000

def defaultTreasuryQuorumBps : ℕ := 2000

def defaultCriticalQuorumBps : ℕ := 5000

/-! ## Actions -/

structure LoyaltyTier where
  daysThreshold : ℕ
  bonusBps : ℕ
  deriving DecidableEq, Repr

structure FeeTier where
  minAmount : ℤ
  maxAmount : ℤ
  minCreditScore : ℕ
  feeBps : ℕ
  deriving DecidableEq, Repr

structure CollateralConfig where
  threshold : ℤ
  collateralBps : ℕ
  deriving DecidableEq, Repr

structure QuorumTier where
  minInvoiceAmount : ℤ
  quorumBps : ℕ
  deriving DecidableEq, Repr

inductive PoolAction
  | SetPoolYield (newYieldBps : ℕ)
  | SetPoolYieldChangePolicy (cooldownSecs : ℕ)
  | SetPoolFactoringFee (feeBps : ℕ)
  | SetPoolFeeTier (tierId : ℕ) (tier : FeeTier)
  | SetPoolTreasury (treasury : Address)
  | SetPoolMaxUtilization (maxBps : ℕ)
  | SetPoolMinDeposit (minAmount : ℤ)
  | SetPoolMaxInvestorConcentration (maxBps : ℕ)
  | SetPoolLoyaltyTiers (tiers : List LoyaltyTier)
  | SetPoolWithdrawalLimits (maxBps : ℕ)
  | SetPoolMaxWithdrawalQueueAge (days : ℕ)
  | SetPoolMaxWithdrawalQueueDepth (depth : ℕ)
  | SetPoolOracleContract (oracle : Address)
  | SetPoolOracleStaleThreshold (thresholdSecs : ℕ)
  | SetPoolFallbackPrice (token : Address) (price : ℤ)
  | SetPoolRateBounds (token : Address) (minBps maxBps : ℕ)
  | SetPoolExchangeRate (token : Address) (rateBps : ℕ)
  | SetPoolComplianceRegistry (registry : Address)
  | SetPoolRequireComplianceCheck (required : Bool)
  | SetPoolReferralRegistry (registry : Address)
  | SetPoolKycRequired (required : Bool)
  | SetPoolCreditScoreContract (creditScore : Address)
  | SetPoolInsuranceContract (insurance : Address)
  | SetPoolCompoundInterest (compound : Bool)
  | SetPoolSecondaryMarketContract (secondaryMarket : Address)
  | SetPoolRiskContract (risk : Address)
  | SetPoolCollateralConfig (config : CollateralConfig)
  | SetPoolUpgradeTimelock (secs : ℕ)
  | SetPoolOperationDelay (secs : ℕ)
  deriving DecidableEq, Repr

inductive InvoiceAction
  | SetInvoiceGracePeriod (days : ℕ)
  | SetInvoiceMinDueDateWindow (windowSecs : ℕ)
  | SetInvoiceMaxAmount (maxAmount : ℤ)
  | SetInvoiceMaxSmeOutstanding (max : ℤ)
  | SetInvoiceExpirationDuration (secs : ℕ)
  | SetInvoiceCompletedTtl (ttlLedgers : ℕ)
  | SetInvoiceDailyLimit (limit : ℕ)
  | SetInvoiceDisputeWindow (window : ℕ)
  | SetInvoiceOracle (oracle : Address)
  | SetInvoiceSecondaryOracle (oracleSecondary : Option Address)
  | SetInvoiceOracleRegistry (registry : Address)
  | SetInvoiceConsensusRequired (required : Bool)
  | SetInvoiceComplianceRegistry (registry : Address)
  | SetInvoiceRequireComplianceCheck (required : Bool)
  | SetInvoiceRequireRegDebtor (required : Bool)
  | SetInvoiceVerifiedFundingOnly (required : Bool)
  | SetInvoiceArbitrationContract (arbitration : Address)
  | SetInvoiceDisputeValueThreshold (threshold : ℤ)
  | SetInvoiceMetadataImageUri (uri : Bytes)
  deriving DecidableEq, Repr

inductive OracleRegistryAction
  | SetOracleRegistryInvoiceContract (invoiceContract : Address)
  | SetOracleRegistryTreasury (treasury : Option Address)
  | SetOracleRegistryConfig (minStake : ℤ) (requiredVotes quorumBps : ℕ)
      (roundDurationSecs deregisterCooldownSecs : ℕ)
  | SetOracleRegistryQuorumTiers (tiers : List QuorumTier)
  deriving DecidableEq, Repr

inductive ComplianceAction
  | SetComplianceRescreeningInterval (secs : ℕ)
  | SetComplianceScreenerTimelock (secs : ℕ)
  deriving DecidableEq, Repr

inductive GovernanceAction
  | Pool (action : PoolAction)
  | Invoice (action : InvoiceAction)
  | OracleRegistry (action : OracleRegistryAction)
  | Compliance (action : ComplianceAction)
  deriving DecidableEq, Repr

inductive ProposalStatus
  | Active | Passed | Rejected | Executed | Cancelled | Expired
  deriving DecidableEq, Repr

inductive ProposalCategory
  | ParameterChange | Treasury | Critical
  deriving DecidableEq, Repr

structure Proposal where
  id : ℕ
  proposer : Address
  description : Bytes
  targetContract : Address
  action : GovernanceAction
  votesFor : ℤ
  votesAgainst : ℤ
  status : ProposalStatus
  createdAt : ℕ
  votingEndsAt : ℕ
  executionDelay : ℕ
  snapshotSupply : ℤ
  passedAt : ℕ
  category : ProposalCategory
  quorumBps : ℕ
  passBps : ℕ
  deriving DecidableEq, Repr

structure VoteRecord where
  proposalId : ℕ
  inFavor : Bool
  weight : ℤ
  votedAt : ℕ
  deriving DecidableEq, Repr

structure GovernanceConfig where
  admin : Address
  shareToken : Address
  votingPeriodSecs : ℕ
  quorumBps : ℕ
  passBps : ℕ
  executionDelaySecs : ℕ
  minShareBalance : ℤ
  treasuryQuorumBps : ℕ
  criticalQuorumBps : ℕ
  deriving DecidableEq, Repr

def GovernanceConfig.quorumForCategory (config : GovernanceConfig) : ProposalCategory → ℕ
  | .ParameterChange => config.quorumBps
  | .Treasury => config.treasuryQuorumBps
  | .Critical => config.criticalQuorumBps

def GovernanceConfig.withQuorum (config : GovernanceConfig) (quorumBps : ℕ) :
    ProposalCategory → GovernanceConfig
  | .ParameterChange => { config with quorumBps := quorumBps }
  | .Treasury => { config with treasuryQuorumBps := quorumBps }
  | .Critical => { config with criticalQuorumBps := quorumBps }

end Astera.Governance
