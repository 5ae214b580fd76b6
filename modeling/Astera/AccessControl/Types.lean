import Astera.Invoices.Types

/-!
# Data of the access control contract

The roles, the actions that they can take, the proposals and the error codes of the access control
contract, with the names of the contract.
-/

namespace Astera.AccessControl

open Invoices (Bytes)

inductive AccessControlError
  | AlreadyInitialized | NotInitialized | NotASigner | AlreadyApproved | ThresholdNotMet
  | ProposalNotFound | ProposalExpired | ProposalNotPending | ProposalNotApproved
  | ProposalNotYetExecutable | InvalidThreshold | DuplicateSigner | RoleNotConfigured
  | SelfManagementRequiresSuperAdmin | InvalidExpiryWindow | SignerNotFound | NoApprovalToRevoke
  | IncoherentProposal | MaxSignersExceeded | ThresholdMustBeLoweredBeforeSignerRemoval
  | RoleNotAuthorized
  deriving DecidableEq, Repr

/-- Why a call failed.  The host undoes all that a failed call did, whether it returned an error or
trapped. -/
inductive Fault
  | error (e : AccessControlError)
  /-- A `require_auth` that the transaction does not cover. -/
  | auth
  /-- An operation left the range of its type (the release profile checks overflow). -/
  | overflow
  | neighbour
  deriving DecidableEq, Repr

abbrev Res := Except Fault

def maxSignersPerRole : ℕ := 32

inductive Role
  | SuperAdmin | RiskManager | TreasuryManager | ComplianceOfficer | OracleManager
  deriving DecidableEq, Repr

structure MultiSigConfig where
  signers : List Address
  threshold : ℕ
  deriving DecidableEq, Repr

inductive ProposalCategory
  | ParameterChange | Treasury | Critical
  deriving DecidableEq, Repr

/-! ## Actions -/

inductive ActionPayload
  -- pool
  | SetPaused (paused : Bool)
  | SetYield (bps : ℕ)
  | SetTreasury (treasury : Address)
  | WithdrawRevenue (token : Address) (amount : ℤ)
  | SetOracleContract (oracle : Address)
  | SetKycRequired (required : Bool)
  | SetInvestorKyc (investor : Address) (approved : Bool)
  | SetMaxUtilization (bps : ℕ)
  -- invoice
  | SetOracle (oracle : Address)
  | RegisterDebtor (debtorId debtorName : Bytes) (maxExposure : ℤ)
  | DeactivateDebtor (debtorId : Bytes)
  | AddKeeper (keeper : Address)
  -- credit_score
  | SetLateThreshold (days : ℤ)
  | SetScoreThresholds (excellent veryGood good fair : ℕ)
  | RegisterAttestor (address : Address) (attestorType weightBps : ℕ)
  -- oracle_registry
  | SetOracleRegistryInvoiceContract (invoiceContract : Address)
  | SetOracleRegistryTreasury (treasury : Option Address)
  | SetOracleRegistryConfig (minStake : ℤ)
      (requiredVotes quorumBps roundDurationSecs deregisterCooldownSecs : ℕ)
  | SetOracleRegistryPaused (paused : Bool)
  | SlashOracle (operator : Address) (bps roundId : ℕ) (evidence : Bytes)
  | AdminResolveRound (invoiceId : ℕ) (approved : Bool) (reason : Bytes)
  -- compliance
  | SetCompliancePaused (paused : Bool)
  | RegisterScreener (screener : Address)
  | ConfirmScreenerRegistration (screener : Address)
  | DeregisterScreener (screener : Address)
  | SetRescreeningInterval (secs : ℕ)
  | SetScreenerTimelock (secs : ℕ)
  -- governance
  | UpdateGovernanceConfig (quorumBps passBps executionDelaySecs : ℕ)
  | SetCategoryQuorum (category : ProposalCategory) (quorumBps : ℕ)
  -- referral
  | SetReferralPaused (paused : Bool)
  | SetReferralPool (pool : Address)
  | SetBorrowRewardBps (bps : ℕ)
  | SetDepositRewardBps (bps : ℕ)
  -- admin-key rotation
  | SetInvoiceAccessControl (newAc : Address)
  | SetCreditScoreAccessControl (newAc : Address)
  | SetOracleRegistryAccessControl (newAc : Address)
  | SetComplianceAccessControl (newAc : Address)
  | SetGovernanceAccessControl (newAc : Address)
  | SetReferralAccessControl (newAc : Address)
  -- self-management
  | AddSigner (role : Role) (address : Address)
  | RemoveSigner (role : Role) (address : Address)
  | SetThreshold (role : Role) (threshold : ℕ)
  | SetProposalExpiry (secs : ℕ)
  deriving DecidableEq, Repr

/-- The entrypoint of another contract and its arguments after `access_control`.  The host finds an
entrypoint by its name, and an optional argument that is there is passed like a plain one. -/
inductive Invocation
  | setPausedViaAc (paused : Bool)
  | setYieldViaAc (newYieldBps : ℕ)
  | setTreasuryViaAc (treasury : Option Address)
  | withdrawRevenueViaAc (token : Address) (amount : ℤ)
  | setOracleContractViaAc (oracle : Address)
  | setKycRequiredViaAc (required : Bool)
  | setInvestorKycViaAc (investor : Address) (approved : Bool)
  | setMaxUtilizationViaAc (maxBps : ℕ)
  | setOracleViaAc (oracle : Address)
  | registerDebtorViaAc (debtorId debtorName : Bytes) (maxExposure : ℤ)
  | deactivateDebtorViaAc (debtorId : Bytes)
  | addKeeperViaAc (keeper : Address)
  | setLateThresholdViaAc (days : ℤ)
  | setScoreThresholdsViaAc (excellent veryGood good fair : ℕ)
  | registerAttestorViaAc (address : Address) (attestorType weightBps : ℕ)
  | setInvoiceContractViaAc (invoiceContract : Address)
  | setRegistryConfigViaAc (minStake : ℤ)
      (requiredVotes quorumBps roundDurationSecs deregisterCooldownSecs : ℕ)
  | slashOracleViaAc (operator : Address) (bps roundId : ℕ) (evidence : Bytes)
  | adminResolveRoundViaAc (invoiceId : ℕ) (approved : Bool) (reason : Bytes)
  | registerScreenerViaAc (screener : Address)
  | confirmScreenerViaAc (screener : Address)
  | deregisterScreenerViaAc (screener : Address)
  | setRescreeningIntervalViaAc (secs : ℕ)
  | setScreenerTimelockViaAc (secs : ℕ)
  | updateConfigViaAc (quorumBps passBps executionDelaySecs : ℕ)
  | setCategoryQuorumViaAc (category : ProposalCategory) (quorumBps : ℕ)
  | setPoolViaAc (pool : Address)
  | setBorrowRewardBpsViaAc (bps : ℕ)
  | setDepositRewardBpsViaAc (bps : ℕ)
  | setAccessControlViaAc (newAccessControl : Address)
  deriving DecidableEq, Repr

/-- The call that `execute_cross_contract` makes for an action. -/
def ActionPayload.invocation : ActionPayload → Option Invocation
  | .SetPaused paused => some (.setPausedViaAc paused)
  | .SetYield bps => some (.setYieldViaAc bps)
  | .SetTreasury treasury => some (.setTreasuryViaAc (some treasury))
  | .WithdrawRevenue token amount => some (.withdrawRevenueViaAc token amount)
  | .SetOracleContract oracle => some (.setOracleContractViaAc oracle)
  | .SetKycRequired required => some (.setKycRequiredViaAc required)
  | .SetInvestorKyc investor approved => some (.setInvestorKycViaAc investor approved)
  | .SetMaxUtilization bps => some (.setMaxUtilizationViaAc bps)
  | .SetOracle oracle => some (.setOracleViaAc oracle)
  | .RegisterDebtor debtorId debtorName maxExposure =>
    some (.registerDebtorViaAc debtorId debtorName maxExposure)
  | .DeactivateDebtor debtorId => some (.deactivateDebtorViaAc debtorId)
  | .AddKeeper keeper => some (.addKeeperViaAc keeper)
  | .SetLateThreshold days => some (.setLateThresholdViaAc days)
  | .SetScoreThresholds excellent veryGood good fair =>
    some (.setScoreThresholdsViaAc excellent veryGood good fair)
  | .RegisterAttestor address attestorType weightBps =>
    some (.registerAttestorViaAc address attestorType weightBps)
  | .SetOracleRegistryInvoiceContract invoiceContract =>
    some (.setInvoiceContractViaAc invoiceContract)
  | .SetOracleRegistryTreasury treasury => some (.setTreasuryViaAc treasury)
  | .SetOracleRegistryConfig minStake requiredVotes quorumBps roundDurationSecs
      deregisterCooldownSecs =>
    some (.setRegistryConfigViaAc minStake requiredVotes quorumBps roundDurationSecs
      deregisterCooldownSecs)
  | .SetOracleRegistryPaused paused => some (.setPausedViaAc paused)
  | .SlashOracle operator bps roundId evidence =>
    some (.slashOracleViaAc operator bps roundId evidence)
  | .AdminResolveRound invoiceId approved reason =>
    some (.adminResolveRoundViaAc invoiceId approved reason)
  | .SetCompliancePaused paused => some (.setPausedViaAc paused)
  | .RegisterScreener screener => some (.registerScreenerViaAc screener)
  | .ConfirmScreenerRegistration screener => some (.confirmScreenerViaAc screener)
  | .DeregisterScreener screener => some (.deregisterScreenerViaAc screener)
  | .SetRescreeningInterval secs => some (.setRescreeningIntervalViaAc secs)
  | .SetScreenerTimelock secs => some (.setScreenerTimelockViaAc secs)
  | .UpdateGovernanceConfig quorumBps passBps executionDelaySecs =>
    some (.updateConfigViaAc quorumBps passBps executionDelaySecs)
  | .SetCategoryQuorum category quorumBps => some (.setCategoryQuorumViaAc category quorumBps)
  | .SetReferralPaused paused => some (.setPausedViaAc paused)
  | .SetReferralPool pool => some (.setPoolViaAc pool)
  | .SetBorrowRewardBps bps => some (.setBorrowRewardBpsViaAc bps)
  | .SetDepositRewardBps bps => some (.setDepositRewardBpsViaAc bps)
  | .SetInvoiceAccessControl newAc | .SetCreditScoreAccessControl newAc
  | .SetOracleRegistryAccessControl newAc | .SetComplianceAccessControl newAc
  | .SetGovernanceAccessControl newAc | .SetReferralAccessControl newAc =>
    some (.setAccessControlViaAc newAc)
  | .AddSigner .. | .RemoveSigner .. | .SetThreshold .. | .SetProposalExpiry .. => none

def ActionPayload.isSelfManagement : ActionPayload → Bool
  | .AddSigner .. | .RemoveSigner .. | .SetThreshold .. | .SetProposalExpiry .. => true
  | _ => false

def ActionPayload.requiresSuperAdmin (action : ActionPayload) : Bool :=
  action.isSelfManagement ||
    match action with
    | .SetInvoiceAccessControl _ | .SetCreditScoreAccessControl _
    | .SetOracleRegistryAccessControl _ | .SetComplianceAccessControl _
    | .SetGovernanceAccessControl _ | .SetReferralAccessControl _ => true
    | _ => false

/-- The role besides `SuperAdmin` that may propose an action. -/
def ActionPayload.manager : ActionPayload → Option Role
  | .SetPaused _ | .SetYield _ | .SetMaxUtilization _ | .SetLateThreshold _
  | .SetScoreThresholds .. => some .RiskManager
  | .SetTreasury _ | .WithdrawRevenue .. | .UpdateGovernanceConfig .. | .SetCategoryQuorum ..
  | .SetReferralPaused _ | .SetReferralPool _ | .SetBorrowRewardBps _ | .SetDepositRewardBps _ =>
    some .TreasuryManager
  | .SetKycRequired _ | .SetInvestorKyc .. | .RegisterDebtor .. | .DeactivateDebtor _ | .AddKeeper _
  | .SetCompliancePaused _ | .RegisterScreener _ | .ConfirmScreenerRegistration _
  | .DeregisterScreener _ | .SetRescreeningInterval _ | .SetScreenerTimelock _ =>
    some .ComplianceOfficer
  | .SetOracleContract _ | .SetOracle _ | .RegisterAttestor .. | .SetOracleRegistryInvoiceContract _
  | .SetOracleRegistryTreasury _ | .SetOracleRegistryConfig .. | .SetOracleRegistryPaused _
  | .SlashOracle .. | .AdminResolveRound .. => some .OracleManager
  | .SetInvoiceAccessControl _ | .SetCreditScoreAccessControl _ | .SetOracleRegistryAccessControl _
  | .SetComplianceAccessControl _ | .SetGovernanceAccessControl _ | .SetReferralAccessControl _
  | .AddSigner .. | .RemoveSigner .. | .SetThreshold .. | .SetProposalExpiry _ => none

def Role.canPropose (role : Role) (action : ActionPayload) : Bool :=
  role = .SuperAdmin || action.manager = some role

inductive ProposalStatus
  | Pending | Approved | Executed | Rejected
  deriving DecidableEq, Repr

structure Proposal where
  role : Role
  target : Address
  action : ActionPayload
  proposer : Address
  approvals : List Address
  createdAt : ℕ
  expiresAt : ℕ
  earliestExecutionTime : ℕ
  status : ProposalStatus
  deriving DecidableEq, Repr

end Astera.AccessControl
