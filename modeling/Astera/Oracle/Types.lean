import Astera.Invoices.Types

/-!
# Data of the oracle registry

The oracles, the verification rounds, the configuration and the error codes of the oracle registry,
with the names of the contract.
-/

namespace Astera.Oracle

open Invoices (Bytes)

inductive OracleRegistryError
  | AlreadyInitialized | NotInitialized | Unauthorized | ContractPaused | InvalidAmount
  | InsufficientStake | AlreadyRegistered | NotRegistered | DeregisterHasPendingVotes
  | DeregisterCooldownActive | InvalidBps | NoActiveOracles | RoundAlreadyOpen | RoundNotFound
  | RoundNotOpen | RoundExpired | RoundNotExpired | AlreadyVoted | InvoiceContractNotSet
  | InvoiceCallFailed | InvalidConfig | InvoiceNotAwaitingVerification | InvalidQuorumTiers
  | InvalidEvidence | SlashRoundNotFound | AccessControlNotConfigured | GovernanceNotConfigured
  | TreasuryAlreadyConfigured | InvalidPagination
  deriving DecidableEq, Repr

inductive Fault
  | error (e : OracleRegistryError)
  | auth
  | overflow
  /-- The stake token refused a transfer. -/
  | token
  deriving DecidableEq

abbrev Res := Except Fault

def defaultRequiredVotes : ℕ := 3

def defaultQuorumBps : ℕ := 6600

def defaultRoundDurationSecs : ℕ := 259200

def defaultDeregisterCooldownSecs : ℕ := 604800

def maxOracleRoundHistory : ℕ := 100

structure OracleInfo where
  address : Address
  stakeAmount : ℤ
  stakeToken : Address
  isActive : Bool
  totalVerifications : ℕ
  totalSlashes : ℕ
  registeredAt : ℕ
  deregisterRequestedAt : Option ℕ
  deriving DecidableEq, Repr

inductive RoundStatus
  | Open | ConsensusApproved | ConsensusRejected | Expired
  deriving DecidableEq, Repr

structure VerificationRound where
  invoiceId : ℕ
  requiredVotes : ℕ
  totalRegisteredOracles : ℕ
  votes : Store Address Bool
  weightFor : ℤ
  weightAgainst : ℤ
  totalStakeSnapshot : ℤ
  quorumBps : ℕ
  status : RoundStatus
  openedAt : ℕ
  deadline : ℕ
  oracleHash : Bytes

structure RegistryConfig where
  minStake : ℤ
  stakeToken : Address
  requiredVotes : ℕ := defaultRequiredVotes
  quorumBps : ℕ := defaultQuorumBps
  roundDurationSecs : ℕ := defaultRoundDurationSecs
  deregisterCooldownSecs : ℕ := defaultDeregisterCooldownSecs
  treasury : Option Address := none
  deriving DecidableEq, Repr

structure QuorumTier where
  minInvoiceAmount : ℤ
  quorumBps : ℕ
  deriving DecidableEq, Repr

end Astera.Oracle
