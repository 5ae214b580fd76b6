import Astera.Invoices.Types

/-!
# Data of the arbitration contract

The jurors, the cases, the votes, the configuration and the error codes of the arbitration contract,
with the names of the contract.
-/

namespace Astera.Arbitration

open Invoices (Bytes DisputeResolution)

inductive ArbitrationError
  | AlreadyInitialized | NotInitialized | Unauthorized | ContractPaused | InvalidAmount
  | InsufficientStake | AlreadyRegistered | NotRegistered | DeregisterHasPendingCases
  | DeregisterCooldownActive | InvalidConfig | InvoiceContractNotSet | InvoiceCallFailed
  | CaseNotFound | InvalidCaseStatus | WindowNotClosed | WindowClosed | InvalidParty
  | NotEnoughActiveJurors | NotSelectedJuror | AlreadyCommitted | NotCommitted | AlreadyRevealed
  | RevealMismatch | RetriesNotExhausted | CaseNotEscalated | RetriesExhausted
  deriving DecidableEq, Repr

inductive Fault
  | error (e : ArbitrationError)
  | auth
  | overflow
  /-- The stake token refused a transfer. -/
  | token
  /-- The host's shuffle does not produce this order. -/
  | prng
  deriving DecidableEq

abbrev Res := Except Fault

/-! ## Constants -/

def defaultCommitteeSize : ℕ := 5

def defaultQuorumFloor : ℕ := 3

def defaultEvidenceWindowSecs : ℕ := 259200

def defaultCommitWindowSecs : ℕ := 172800

def defaultRevealWindowSecs : ℕ := 172800

def defaultDeregisterCooldownSecs : ℕ := 604800

def defaultSlashBps : ℕ := 1000

def defaultNonRevealSlashBps : ℕ := 300

def defaultLopsidedConfidenceBps : ℕ := 6600

def defaultMaxRetries : ℕ := 1

def maxJurorIds : ℕ := 512

structure JurorInfo where
  address : Address
  stakeAmount : ℤ
  stakeToken : Address
  isActive : Bool
  casesServed : ℕ
  timesSlashed : ℕ
  nonRevealStrikes : ℕ
  registeredAt : ℕ
  deregisterRequestedAt : Option ℕ
  deriving DecidableEq, Repr

inductive PartyRole
  | Claimant | Respondent
  deriving DecidableEq, Repr

structure EvidenceEntry where
  submitter : Address
  party : PartyRole
  evidenceHash : Bytes
  submittedAt : ℕ
  deriving DecidableEq, Repr

inductive CaseStatus
  | EvidenceWindow | CommitReveal | Resolved | NoQuorumEscalated
  deriving DecidableEq, Repr

structure DisputeCase where
  id : ℕ
  invoiceId : ℕ
  claimant : Address
  respondent : Address
  amount : ℤ
  openedAt : ℕ
  evidenceDeadline : ℕ
  commitDeadline : ℕ
  revealDeadline : ℕ
  jurors : List Address
  status : CaseStatus
  resolution : DisputeResolution
  retryCount : ℕ
  deriving DecidableEq, Repr

structure JurorVote where
  commitHash : Option Bytes
  revealedVote : Option Bool
  deriving DecidableEq, Repr

structure ArbitrationConfig where
  minStake : ℤ
  stakeToken : Address
  committeeSize : ℕ := defaultCommitteeSize
  quorumFloor : ℕ := defaultQuorumFloor
  evidenceWindowSecs : ℕ := defaultEvidenceWindowSecs
  commitWindowSecs : ℕ := defaultCommitWindowSecs
  revealWindowSecs : ℕ := defaultRevealWindowSecs
  deregisterCooldownSecs : ℕ := defaultDeregisterCooldownSecs
  slashBps : ℕ := defaultSlashBps
  nonRevealSlashBps : ℕ := defaultNonRevealSlashBps
  lopsidedConfidenceBps : ℕ := defaultLopsidedConfidenceBps
  maxRetries : ℕ := defaultMaxRetries
  deriving DecidableEq, Repr

end Astera.Arbitration
