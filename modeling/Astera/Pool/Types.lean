import Astera.Share.Token

/-!
# Data of the funding pool

The records, error codes and constants, with the names of the contract.  Unsigned integers are `ℕ`,
`i128` values are `ℤ`; the operations check the widths where the contract does.
-/

namespace Astera.Pool

open Share

inductive PoolError
  | AlreadyInitialized | NotInitialized | TokenNotAccepted | TokenAlreadyAccepted
  | TokenNotWhitelisted | InvoiceNotFound | AlreadyFullyRepaid | Overpayment | InvalidAmount
  | Unauthorized | StorageCorrupted | ShareTokenNotConfigured | ContractPaused
  | CollateralNotFound | CollateralAlreadySettled | DepositBelowMinimum | InsufficientRevenue
  | TreasuryNotConfigured | WithdrawalExceedsLimit | WithdrawalCooldownActive
  | InsufficientCoFundShare | WithdrawalRequestNotFound | AlreadyQueuedForWithdrawal
  | InvalidRequestId | InvalidFeeTier | FeeTierNotFound | InsufficientLiquidity
  | TokenHasActiveBalances | TokenHasDeployedCapital | TokenHasPendingWithdrawals
  | ConcentrationLimitExceeded | YieldProposalNotFound | YieldChangeNotReady
  | UtilizationLimitExceeded | AmountOverflow | BatchTooLarge | UnsupportedTokenDecimals
  | ZeroAmount | NegativeAmount | TransferMismatch | KycNotApproved | InvalidThreshold
  | NotDefaulted | InvoicePoolMismatch | InvalidShareToken | DuplicateInvoiceId
  | InvalidCollateralThreshold | InvalidCollateralBps | KycNotRequested | KycRejected
  | UpgradeTimelockNotExpired | InvalidUpgradeTimelock | InvalidWasmHash
  | InsufficientPoolFunds | AdminChangePending | AdminChangeTimelockNotExpired
  | NoAdminChangeProposed | TimestampInPast | InvoiceExpired | OperationRequiresProposal
  | ProposalNotFound | ProposalNotReady | ProposalAlreadyExecuted | ProposalAlreadyCancelled
  | InvalidOperationDelay | TokenHasActiveCofundingCommitments | CoFundingRoundNotFound
  | CoFundingRoundAlreadyExists | CoFundingRoundNotOpen | CoFundingRoundAlreadyFinalized
  | CoFundingDeadlinePassed | CoFundingDeadlineNotPassed | CoFundingBelowMinimum
  | CoFundingInvestorCapExceeded | CoFundingNoCommitment | CoFundingRoundNotFilled
  | CoFundingTooManyParticipants | InvalidCoFundingParams | WithdrawalQueueFull
  | InvalidRateModelConfig | RateModelNotConfigured | RateModelProposalNotFound
  | RateModelChangeNotReady | ComplianceNotCleared | ComplianceCheckFailed
  | OraclePriceUnavailable | InvalidLoyaltyTiers | RateBelowMinimum
  | AccessControlNotConfigured | AccessControlAlreadyConfigured | ListingNotFound
  | ListingNotOpen | ListingNotSeller | InsufficientListingBalance | TooManyListings
  | ListingPriceMismatch | InvoiceNotCancelled | GovernanceNotConfigured | ReentrantCall
  deriving DecidableEq, Repr

/-- Why an invocation trapped: the host aborts it and every effect of the transaction is lost. -/
inductive Trap
  | auth
  /-- `panic_with_error!` or an `expect`. -/
  | panicked (e : PoolError)
  | share (t : ShareTrap)
  /-- The asset token refused a transfer. -/
  | token
  | neighbour
  | overflow
  /-- The host refused a malformed value. -/
  | host
  deriving DecidableEq, Repr

/-- How an invocation fails: an `Err` value, or a trap. -/
inductive Fault
  | err (e : PoolError)
  | trap (t : Trap)
  deriving DecidableEq, Repr

/-- The result of a fallible pool function. -/
abbrev Res (α : Type) := Except Fault α

/-- The failure of a checked operation. -/
def overflowErr : Fault := .err .AmountOverflow

/-- The failure of an unchecked operation. -/
def overflowTrap : Fault := .trap .overflow

/-! ## Constants -/

def bpsDenom : ℕ := 10000
def secsPerYear : ℕ := 31536000
def secsPerDay : ℕ := 86400
def expectedDecimals : ℕ := 7
def rewardPrecision : ℤ := 1000000000000
def maxBatchSize : ℕ := 20
def maxCoFundingParticipants : ℕ := 20
def maxInflowHistory : ℕ := 50
def maxRateHistory : ℕ := 720
def defaultCollateralThreshold : ℤ := 100000000000
def defaultCollateralBps : ℕ := 2000
def operationDelaySecs : ℕ := 86400
def defaultOracleStaleSecs : ℕ := 3600
def minOperationDelaySecs : ℕ := 3600
def adminChangeTimelockSecs : ℕ := 172800
def maxRateBpsCap : ℕ := 5000
def maxLoyaltyBonusBps : ℕ := 2000

/-! ## Records -/

structure WithdrawalRequest where
  investor : Address
  token : Address
  shares : ℤ
  requestedAt : ℕ
  requestId : ℕ
  deriving DecidableEq, Repr

structure InflowEvent where
  amount : ℤ
  timestamp : ℕ
  deriving DecidableEq, Repr

structure RateModelConfig where
  baseRateBps : ℕ
  optimalUtilizationBps : ℕ
  slope1Bps : ℕ
  slope2Bps : ℕ
  maxRateBps : ℕ
  deriving DecidableEq, Repr

structure RateModelProposal where
  config : RateModelConfig
  proposedAt : ℕ
  executeAfter : ℕ
  deriving DecidableEq, Repr

structure ExchangeRateBounds where
  minBps : ℕ
  maxBps : ℕ
  deriving DecidableEq, Repr

structure RateSnapshot where
  timestamp : ℕ
  utilizationBps : ℕ
  rateBps : ℕ
  deriving DecidableEq, Repr

/-- `PoolConfig`; the defaults are those `initialize` writes. -/
structure PoolConfig where
  invoiceContract : Address
  admin : Address
  yieldBps : ℕ := 800
  factoringFeeBps : ℕ := 0
  compoundInterest : Bool := false
  lastYieldChangeAt : ℕ
  yieldChangeCooldownSecs : ℕ := 86400
  maxYieldChangeBps : ℕ := 200
  proposedYieldBps : ℕ := 0
  yieldProposalAt : ℕ := 0
  yieldTimelockSecs : ℕ := 172800
  minDepositAmount : ℤ := 0
  maxSingleInvestorBps : ℕ := 2000
  maxSingleWithdrawalBps : ℕ := 10000
  withdrawalCooldownSecs : ℕ := 0
  maxUtilizationBps : ℕ := 10000
  utilizationWarningBps : ℕ := 8000
  maxWithdrawalQueueAgeDays : ℕ := 30
  maxWithdrawalQueueDepth : ℕ := 500
  deriving DecidableEq, Repr

/-- `PoolTokenTotals`; the defaults are those of the derived `Default`. -/
structure PoolTokenTotals where
  poolValue : ℤ := 0
  totalDeployed : ℤ := 0
  totalPaidOut : ℤ := 0
  totalFeeRevenue : ℤ := 0
  rewardPerShare : ℤ := 0
  protocolRevenue : ℤ := 0
  deriving DecidableEq, Repr

structure FeeTier where
  minAmount : ℤ
  maxAmount : ℤ
  minCreditScore : ℕ
  feeBps : ℕ
  deriving DecidableEq, Repr

structure TokenConfig where
  token : Address
  shareToken : Address
  decimals : ℕ
  deriving DecidableEq, Repr

structure InvestorPosition where
  deposited : ℤ := 0
  available : ℤ := 0
  deployed : ℤ := 0
  earned : ℤ := 0
  depositCount : ℕ := 0
  loyaltyStartAt : ℕ := 0
  deriving DecidableEq, Repr

structure LoyaltyTier where
  minDays : ℕ
  bonusBps : ℕ
  deriving DecidableEq, Repr

structure FundedInvoice where
  invoiceId : ℕ
  sme : Address
  token : Address
  principal : ℤ
  fundedAt : ℕ
  factoringFee : ℤ
  dueDate : ℕ
  repaidAmount : ℤ
  coFundingRoundId : Option ℕ
  lockedYieldBps : ℕ
  deriving DecidableEq, Repr

inductive CoFundingStatus
  | Open | Filled | Cancelled | Expired
  deriving DecidableEq, Repr

structure CoFundingRound where
  invoiceId : ℕ
  token : Address
  sme : Address
  dueDate : ℕ
  targetPrincipal : ℤ
  committedPrincipal : ℤ
  fundingDeadline : ℕ
  status : CoFundingStatus
  minCommitment : ℤ
  maxInvestorBps : ℕ
  participants : List Address
  deriving DecidableEq, Repr

structure FundingRequest where
  invoiceId : ℕ
  principal : ℤ
  sme : Address
  dueDate : ℕ
  token : Address
  deriving DecidableEq, Repr

structure ListingSettlement where
  buyer : Address
  seller : Address
  invoiceId : ℕ
  isCoFunding : Bool
  amountOrBps : ℕ
  price : ℤ
  deriving DecidableEq, Repr

structure OpenCoFundingRequest where
  invoiceId : ℕ
  token : Address
  targetPrincipal : ℤ
  sme : Address
  dueDate : ℕ
  fundingDeadline : ℕ
  minCommitment : ℤ
  maxInvestorBps : ℕ
  deriving DecidableEq, Repr

structure RepaymentRequest where
  invoiceId : ℕ
  amount : ℤ
  deriving DecidableEq, Repr

structure PoolStorageStats where
  totalFundedInvoices : ℕ := 0
  activeFundedInvoices : ℕ := 0
  cleanedInvoices : ℕ := 0
  deriving DecidableEq, Repr

structure CollateralConfig where
  threshold : ℤ := defaultCollateralThreshold
  collateralBps : ℕ := defaultCollateralBps
  deriving DecidableEq, Repr

inductive AdminOperation
  | RemoveToken (token : Address)
  | SetCollateralConfig (threshold : ℤ) (collateralBps : ℕ)
  | SeizeCollateral (invoiceId : ℕ)
  deriving DecidableEq, Repr

structure Proposal where
  operation : AdminOperation
  executeAfter : ℕ
  proposedAt : ℕ
  proposer : Address
  executed : Bool
  cancelled : Bool
  deriving DecidableEq, Repr

inductive KycStatus
  | NotRequested | Approved | Rejected
  deriving DecidableEq, Repr

structure ComplianceGateConfig where
  registry : Address
  required : Bool
  deriving DecidableEq, Repr

structure CollateralDeposit where
  invoiceId : ℕ
  depositor : Address
  token : Address
  amount : ℤ
  settled : Bool
  postedAt : ℕ
  releasedAt : ℕ
  seizedAt : ℕ
  collateralBpsAtDeposit : ℕ
  thresholdAtDeposit : ℤ
  deriving DecidableEq, Repr

/-- The two activity kinds the pool reports to the referral registry. -/
inductive ActivityKind
  | deposit | borrow
  deriving DecidableEq, Repr

/-- A fixed-size ring buffer: how many slots are in use, the oldest slot, and the slots. -/
structure Ring (α : Type) where
  len : ℕ := 0
  start : ℕ := 0
  slot : ℕ → Option α := fun _ => none

end Astera.Pool
