import Astera.Share.Token

/-!
# Data of the invoice contract

The records, statuses, error codes and constants, with the names of the contract.  A host `String`
is the list of its bytes.  Unsigned integers are `ℕ`, `i128` values are `ℤ`; the operations check
the widths where the contract does.
-/

namespace Astera.Invoices

open Fallible Machine

abbrev Bytes := List UInt8

def bytes (s : String) : Bytes := s.toUTF8.data.toList

inductive InvoiceStatus
  | Pending | AwaitingVerification | Verified | Disputed | Funded | Paid | Defaulted | Cancelled
  | Expired
  deriving DecidableEq, Repr

/-- The statuses in which nothing is expected of an invoice any more. -/
def InvoiceStatus.completed : InvoiceStatus → Bool
  | .Paid | .Defaulted | .Cancelled | .Expired => true
  | _ => false

inductive InvoiceError
  | AlreadyInitialized | Unauthorized | InvalidStatusTransition | InvoiceNotFound | HashMismatch
  | SmeExposureLimitExceeded | AmountOverflow | InvalidConfig | FieldTooLong | DateOverflow
  | InvalidMetadata | DescriptionTooLong | DebtorNameTooLong | VerificationHashTooLong
  | ExtensionAlreadyPending | InvalidDueDateExtension | ExtensionTooLarge | NoPendingExtension
  | PoolCallFailed | ArithmeticOverflow | EmptyDebtorName | EmptyDescription
  | InvalidVerificationHash | DueDateTooSoon | UpgradeTimelockNotExpired | InvalidUpgradeTimelock
  | InvalidWasmHash | VerificationDeadlineNotPassed | AdminChangePending
  | AdminChangeTimelockNotExpired | NoAdminChangeProposed | ContractPaused | DisputeWindowClosed
  | DisputeNotFound | DisputeAlreadyResolved | ConsensusVerificationRequired
  | OracleRegistryNotConfigured | UnauthorizedRegistry | ComplianceNotCleared
  | ComplianceCheckFailed | ComplianceRegistryNotConfigured | RateLimitExceeded
  | InvalidDescriptionChars | InvalidAmount | InvalidDueDate | AccessControlNotConfigured
  | IDCollision | UnauthorizedArbitration | InvalidRespondent | ArbitrationRequired
  deriving DecidableEq, Repr

/-- Why a call of the invoice contract failed.  The host undoes all that a failed call did, whether
it returned an error or trapped. -/
inductive Fault
  /-- An error of the contract, returned or raised by `panic_with_error!`. -/
  | error (e : InvoiceError)
  | auth
  /-- An unchecked operation left the range of its type (the release profile checks overflow). -/
  | overflow
  /-- A storage entry that does not decode as the type it is read with. -/
  | decode
  | neighbour
  deriving DecidableEq, Repr

abbrev Res := Except Fault

/-! ## Constants -/

def secsPerDay : ℕ := 86400

def adminChangeTimelockSecs : ℕ := 172800

def maxInvoicesPerDay : ℕ := 10

def maxDailyInvoiceLimit : ℕ := 1000

def maxGracePeriodOverrideDays : ℕ := 90

def maxDueDateAheadSecs : ℕ := secsPerDay * 365 * 30

def maxExpirationDurationSecs : ℕ := secsPerDay * 365 * 10

def defaultDisputeResolutionWindow : ℕ := secsPerDay * 30

def disputeValueThresholdUnset : ℤ := 2 ^ 127 - 1

def arbitrationStalledOverrideSecs : ℕ := secsPerDay * 90

def maxDescriptionLen : ℕ := 256

def maxDebtorLen : ℕ := 64

def maxVerificationHashLen : ℕ := 256

def maxMetadataUriLen : ℕ := 256

def defaultMinDueDateWindowSecs : ℕ := secsPerDay

def maxDueDateExtensionSecs : ℕ := secsPerDay * 90

def verificationTimeoutSecs : ℕ := 72 * 60 * 60

def maxCleanupBatch : ℕ := 50

/-! ## Records -/

inductive DisputeResolution
  | Pending | InFavorOfSME | InFavorOfDebtor
  deriving DecidableEq, Repr

structure Invoice where
  id : ℕ
  owner : Address
  debtor : Bytes
  amount : ℤ
  originalDueDate : ℕ
  dueDate : ℕ
  pendingDueDate : Option ℕ
  description : Bytes
  status : InvoiceStatus
  createdAt : ℕ
  fundedAt : ℕ
  paidAt : ℕ
  poolContract : Address
  verificationHash : Bytes
  metadataUri : Option Bytes
  oracleVerified : Bool
  disputeReason : Bytes
  disputedAt : ℕ
  gracePeriodOverride : Option ℕ
  verificationDeadline : ℕ
  fundedAmount : ℤ
  deriving DecidableEq, Repr

structure DisputeRecord where
  evidenceHash : Bytes
  filedAt : ℕ
  resolvedAt : ℕ
  outcome : DisputeResolution
  deriving DecidableEq, Repr

structure StorageStats where
  totalInvoices : ℕ := 0
  activeInvoices : ℕ := 0
  cleanedInvoices : ℕ := 0
  deriving DecidableEq, Repr

structure DebtorRecord where
  debtorId : Bytes
  debtorName : Bytes
  maxExposure : ℤ
  currentExposure : ℤ
  isActive : Bool
  deriving DecidableEq, Repr

/-- What the setters of the contract write. -/
structure Config where
  admin : Address
  pool : Address
  paused : Bool := false
  oracle : Option Address := none
  /-- `OracleSecondary`: the setter stores an `Option`, and the readers expect an address. -/
  oracleSecondary : Option (Option Address) := none
  oracleRegistry : Option Address := none
  requireConsensusVerification : Bool := false
  complianceRegistry : Option Address := none
  requireComplianceCheck : Bool := false
  keeperIds : List Address := []
  gracePeriodDays : ℕ
  maxInvoiceAmount : ℤ
  maxOutstandingPerSme : ℤ := 2 ^ 127 - 1
  expirationDurationSecs : ℕ
  dailyInvoiceLimit : ℕ := maxInvoicesPerDay
  disputeResolutionWindow : ℕ := defaultDisputeResolutionWindow
  minDueDateWindowSecs : ℕ := defaultMinDueDateWindowSecs
  requireRegisteredDebtor : Bool := false
  requireOracleVerification : Bool := false
  accessControl : Option Address := none
  governance : Option Address := none
  arbitrationContract : Option Address := none
  disputeValueThreshold : ℤ := disputeValueThresholdUnset
  pendingAdmin : Option Address := none
  adminChangeScheduledAt : Option ℕ := none

/-- `is_safe_description`: printable ASCII without the characters that HTML gives a meaning. -/
def isSafeDescription (desc : Bytes) : Bool :=
  desc.all fun b => 32 ≤ b && b ≤ 126 && !(bytes "<>&\"'").contains b

def validateInvoiceStrings (debtor description verificationHash : Bytes) : Res Unit := do
  require (debtor ≠ []) (.error .EmptyDebtorName)
  require (description ≠ []) (.error .EmptyDescription)
  require (verificationHash ≠ []) (.error .InvalidVerificationHash)
  require (description.length ≤ maxDescriptionLen) (.error .DescriptionTooLong)
  require (debtor.length ≤ maxDebtorLen) (.error .DebtorNameTooLong)
  require (verificationHash.length ≤ maxVerificationHashLen) (.error .VerificationHashTooLong)
  require (isSafeDescription description = true) (.error .InvalidDescriptionChars)

def isValidMetadataUri (uri : Bytes) : Bool :=
  uri ≠ [] && uri.length ≤ maxMetadataUriLen &&
    ((bytes "ipfs://").isPrefixOf uri || (bytes "ar://").isPrefixOf uri ||
      (bytes "https://").isPrefixOf uri)

/-- `u64::saturating_add`. -/
def saturatingAdd64 (a b : ℕ) : ℕ := min (a + b) (2 ^ 64 - 1)

def maxExtensionDueDate (inv : Invoice) : ℕ :=
  saturatingAdd64 inv.originalDueDate maxDueDateExtensionSecs

def checkedDefaultDeadline (dueDate gracePeriodDays : ℕ) : Res ℕ := do
  let gracePeriodSecs ← okOr (fitU 64 (gracePeriodDays * secsPerDay)) (.error .DateOverflow)
  okOr (fitU 64 (dueDate + gracePeriodSecs)) (.error .DateOverflow)

end Astera.Invoices
