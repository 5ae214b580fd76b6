import Astera.Lib.Ledger
import Astera.Oracle.Types

/-!
# The oracle registry

The storage of the registry and its writing entrypoints.  The invoice contract is reached through
`Host`; it cannot call back.  `balances` are those of the one stake token.

Time-to-live extensions, events and the views are left out, and with them the evidence hash of a
vote and the reason of a fallback.
-/

namespace Astera.Oracle

open Fallible Machine
open Invoices (Bytes bytes)

variable {W : Type}

/-- The calls into the invoice contract; `none` is an error or a trap. -/
structure Host (W : Type) where
  self : Address
  getInvoiceVerificationState : W → Address → ℕ → Option (Bool × ℤ)
  /-- `consensus_verify`, called by the registry. -/
  consensusVerify : W → Address → ℕ → Address → Bool → Bytes → Bytes → Option W

structure Settings where
  admin : Address
  config : RegistryConfig
  paused : Bool := false
  invoiceContract : Option Address := none
  quorumTiers : List QuorumTier := []
  accessControl : Option Address := none
  governance : Option Address := none
  deriving DecidableEq

structure State (W : Type) where
  now : ℕ
  world : W
  balances : Address → ℤ
  settings : Settings
  oracles : Store Address OracleInfo := ∅
  oracleIds : List Address := []
  rounds : Store ℕ VerificationRound := ∅
  openRounds : List ℕ := []
  oracleRounds : Address → List ℕ := fun _ => []
  oracleRoundCount : Address → ℕ := fun _ => 0

def initializeRegistry (now : ℕ) (world : W) (balances : Address → ℤ) (admin stakeToken : Address)
    (minStake : ℤ) : Res (State W) := do
  require (0 < minStake) (.error .InvalidAmount)
  return {
    now := now
    world := world
    balances := balances
    settings := { admin := admin, config := { minStake := minStake, stakeToken := stakeToken } } }

def requireAuth (signers : List Address) (a : Address) : Res Unit := require (a ∈ signers) .auth

namespace Settings

variable (settings : Settings)

def requireNotPaused : Res Unit := require (settings.paused = false) (.error .ContractPaused)

def requireAdmin (caller : Address) : Res Unit :=
  require (caller = settings.admin) (.error .Unauthorized)

def requireAccessControl (caller : Address) : Res Unit := do
  let configured ← okOr settings.accessControl (.error .AccessControlNotConfigured)
  require (caller = configured) (.error .Unauthorized)

def requireGovernance (caller : Address) : Res Unit := do
  let configured ← okOr settings.governance (.error .GovernanceNotConfigured)
  require (caller = configured) (.error .Unauthorized)

def asAdmin (signers : List Address) (caller : Address) : Res Unit := do
  requireAuth signers caller
  settings.requireAdmin caller

def asAccessControl (signers : List Address) (caller : Address) : Res Unit := do
  requireAuth signers caller
  settings.requireAccessControl caller

def asGovernance (signers : List Address) (caller : Address) : Res Unit := do
  requireAuth signers caller
  settings.requireGovernance caller

end Settings

/-! ## Setters -/

section Setters

variable (signers : List Address) (s : Settings)

def setInvoiceContract (admin invoiceContract : Address) : Res Settings := do
  s.asAdmin signers admin
  return { s with invoiceContract := some invoiceContract }

def setInvoiceContractViaAc (accessControl invoiceContract : Address) : Res Settings := do
  s.asAccessControl signers accessControl
  return { s with invoiceContract := some invoiceContract }

def setInvoiceContractGov (governance invoiceContract : Address) : Res Settings := do
  s.asGovernance signers governance
  return { s with invoiceContract := some invoiceContract }

def setTreasury (admin : Address) (treasury : Option Address) : Res Settings := do
  s.asAdmin signers admin
  return { s with config := { s.config with treasury := treasury } }

def setTreasuryViaAc (accessControl : Address) (treasury : Option Address) : Res Settings := do
  s.asAccessControl signers accessControl
  return { s with config := { s.config with treasury := treasury } }

def setTreasuryViaGovernance (governance : Address) (treasury : Option Address) : Res Settings := do
  s.asGovernance signers governance
  return { s with config := { s.config with treasury := treasury } }

/-- The check and the write of `set_registry_config` and its siblings. -/
def writeRegistryConfig (minStake : ℤ) (requiredVotes quorumBps roundDurationSecs
    deregisterCooldownSecs : ℕ) : Res Settings := do
  require (¬ (minStake ≤ 0 ∨ requiredVotes = 0 ∨ quorumBps = 0 ∨ 10000 < quorumBps ∨
    roundDurationSecs = 0)) (.error .InvalidConfig)
  return { s with
    config := { s.config with
      minStake := minStake
      requiredVotes := requiredVotes
      quorumBps := quorumBps
      roundDurationSecs := roundDurationSecs
      deregisterCooldownSecs := deregisterCooldownSecs } }

def setRegistryConfig (admin : Address) (minStake : ℤ) (requiredVotes quorumBps roundDurationSecs
    deregisterCooldownSecs : ℕ) : Res Settings := do
  s.asAdmin signers admin
  writeRegistryConfig s minStake requiredVotes quorumBps roundDurationSecs deregisterCooldownSecs

def setRegistryConfigViaAc (accessControl : Address) (minStake : ℤ) (requiredVotes quorumBps
    roundDurationSecs deregisterCooldownSecs : ℕ) : Res Settings := do
  s.asAccessControl signers accessControl
  writeRegistryConfig s minStake requiredVotes quorumBps roundDurationSecs deregisterCooldownSecs

def setRegistryConfigGov (governance : Address) (minStake : ℤ) (requiredVotes quorumBps
    roundDurationSecs deregisterCooldownSecs : ℕ) : Res Settings := do
  s.asGovernance signers governance
  writeRegistryConfig s minStake requiredVotes quorumBps roundDurationSecs deregisterCooldownSecs

/-- The loop over the tiers; `accepts` is the check of a single tier, `prev` the threshold before. -/
def checkTiers (accepts : QuorumTier → Bool) : Option ℤ → List QuorumTier → Res Unit
  | _, [] => return ()
  | prev, tier :: tiers => do
      require (accepts tier = true) (.error .InvalidQuorumTiers)
      require (∀ threshold ∈ prev, threshold < tier.minInvoiceAmount) (.error .InvalidQuorumTiers)
      checkTiers accepts (some tier.minInvoiceAmount) tiers

def setQuorumTiers (admin : Address) (tiers : List QuorumTier) : Res Settings := do
  s.asAdmin signers admin
  checkTiers (fun tier => ¬ (tier.minInvoiceAmount < 0 ∨ tier.quorumBps = 0 ∨ 10000 < tier.quorumBps))
    none tiers
  return { s with quorumTiers := tiers }

/-- `set_quorum_tiers_via_governance`: it refuses an empty list and accepts negative thresholds. -/
def setQuorumTiersViaGovernance (governance : Address) (tiers : List QuorumTier) : Res Settings := do
  s.asGovernance signers governance
  require (tiers ≠ []) (.error .InvalidQuorumTiers)
  checkTiers (fun tier => ¬ (tier.quorumBps = 0 ∨ 10000 < tier.quorumBps)) none tiers
  return { s with quorumTiers := tiers }

def pause (admin : Address) : Res Settings := do
  s.asAdmin signers admin
  return { s with paused := true }

def unpause (admin : Address) : Res Settings := do
  s.asAdmin signers admin
  return { s with paused := false }

def setPausedViaAc (accessControl : Address) (paused : Bool) : Res Settings := do
  s.asAccessControl signers accessControl
  return { s with paused := paused }

def setAccessControl (admin accessControl : Address) : Res Settings := do
  s.asAdmin signers admin
  return { s with accessControl := some accessControl }

def setAccessControlViaAc (accessControl newAccessControl : Address) : Res Settings := do
  s.asAccessControl signers accessControl
  return { s with accessControl := some newAccessControl }

def setGovernanceAddress (admin governance : Address) : Res Settings := do
  s.asAdmin signers admin
  return { s with governance := some governance }

end Setters

/-! ## Oracles -/

namespace State

variable (s : State W)

def transfer (sender receiver : Address) (amount : ℤ) : Res (State W) := do
  let balances ← okOr (Ledger.transfer s.balances sender receiver amount) .token
  return { s with balances := balances }

def loadOracle (operator : Address) : Res OracleInfo :=
  okOr (s.oracles.get operator) (.error .NotRegistered)

def setOracle (operator : Address) (info : OracleInfo) : State W :=
  { s with oracles := s.oracles.set operator info }

def loadRound (invoiceId : ℕ) : Res VerificationRound :=
  okOr (s.rounds.get invoiceId) (.error .RoundNotFound)

def setRound (invoiceId : ℕ) (round : VerificationRound) : State W :=
  { s with rounds := s.rounds.set invoiceId round }

def removeOpenRound (invoiceId : ℕ) : State W :=
  { s with openRounds := s.openRounds.erase invoiceId }

/-- Whether the round of an invoice is open and waits for the vote of an oracle. -/
def owesVote (operator : Address) (invoiceId : ℕ) : Bool :=
  match s.rounds.get invoiceId with
  | some round => decide (round.status = .Open ∧ round.votes.get operator = none)
  | none => false

def appendOracleRound (oracle : Address) (invoiceId : ℕ) : State W :=
  let ids := s.oracleRounds oracle
  if invoiceId ∈ ids then s
  else
    let longer := ids ++ [invoiceId]
    { s with
      oracleRounds := Function.update s.oracleRounds oracle
        (longer.drop (longer.length - maxOracleRoundHistory))
      oracleRoundCount := Function.update s.oracleRoundCount oracle
        (saturatingAddU 32 (s.oracleRoundCount oracle) 1) }

def newOracle (operator : Address) (stakeAmount : ℤ) : OracleInfo where
  address := operator
  stakeAmount := stakeAmount
  stakeToken := s.settings.config.stakeToken
  isActive := true
  totalVerifications := 0
  totalSlashes := 0
  registeredAt := s.now
  deregisterRequestedAt := none

end State

section Oracles

variable (h : Host W) (signers : List Address) (s : State W)

def registerOracle (operator : Address) (stakeAmount : ℤ) : Res (State W) := do
  requireAuth signers operator
  s.settings.requireNotPaused
  require (s.settings.config.minStake ≤ stakeAmount) (.error .InsufficientStake)
  require (s.oracles.get operator = none) (.error .AlreadyRegistered)
  let s ← s.transfer operator h.self stakeAmount
  let s := s.setOracle operator (s.newOracle operator stakeAmount)
  if operator ∈ s.oracleIds then return s
  else return { s with oracleIds := s.oracleIds ++ [operator] }

def deregisterOracle (operator : Address) : Res (State W) := do
  requireAuth signers operator
  s.settings.requireNotPaused
  let info ← s.loadOracle operator
  match info.deregisterRequestedAt with
  | none => do
      require (info.isActive = true) (.error .NotRegistered)
      require (∀ invoiceId ∈ s.openRounds, s.owesVote operator invoiceId = false)
        (.error .DeregisterHasPendingVotes)
      return s.setOracle operator { info with isActive := false, deregisterRequestedAt := some s.now }
  | some requestedAt => do
      require (saturatingAddU 64 requestedAt s.settings.config.deregisterCooldownSecs ≤ s.now)
        (.error .DeregisterCooldownActive)
      let s ← s.transfer h.self operator info.stakeAmount
      return { s with
        oracles := s.oracles.remove operator
        oracleIds := s.oracleIds.erase operator }

def slashOracleInternal (operator : Address) (bps roundId : ℕ) (evidence : Bytes) :
    Res (State W) := do
  s.settings.requireNotPaused
  require (¬ (bps = 0 ∨ 10000 < bps)) (.error .InvalidBps)
  require (evidence ≠ []) (.error .InvalidEvidence)
  require ((s.rounds.get roundId).isSome = true) (.error .SlashRoundNotFound)
  let info ← s.loadOracle operator
  let scaled ← okOr (checkedMul info.stakeAmount bps) .overflow
  let slashAmount := scaled.tdiv 10000
  let stakeAmount ← okOr (checkedSub info.stakeAmount slashAmount) .overflow
  let totalSlashes ← okOr (fitU 32 (info.totalSlashes + 1)) .overflow
  let s := s.setOracle operator
    { info with stakeAmount := stakeAmount, totalSlashes := totalSlashes }
  match s.settings.config.treasury with
  | some treasury => s.transfer h.self treasury slashAmount
  | none => return s

def slashOracle (admin operator : Address) (bps roundId : ℕ) (evidence : Bytes) :
    Res (State W) := do
  s.settings.asAdmin signers admin
  slashOracleInternal h s operator bps roundId evidence

def slashOracleViaAc (accessControl operator : Address) (bps roundId : ℕ) (evidence : Bytes) :
    Res (State W) := do
  s.settings.asAccessControl signers accessControl
  slashOracleInternal h s operator bps roundId evidence

def withdrawSlashedFunds (admin recipient : Address) (amount : ℤ) : Res (State W) := do
  s.settings.asAdmin signers admin
  s.settings.requireNotPaused
  require (s.settings.config.treasury = none) (.error .TreasuryAlreadyConfigured)
  require (0 < amount) (.error .InvalidAmount)
  s.transfer h.self recipient amount

end Oracles

/-! ## Rounds -/

/-- `resolve_quorum_bps`, along the tiers that are left. -/
def resolveQuorumBps (resolved : ℕ) (invoiceAmount : ℤ) : List QuorumTier → ℕ
  | [] => resolved
  | tier :: tiers =>
    if tier.minInvoiceAmount ≤ invoiceAmount then resolveQuorumBps tier.quorumBps invoiceAmount tiers
    else resolved

namespace VerificationRound

variable (round : VerificationRound)

/-- A vote and its weight are entered. -/
def enter (oracle : Address) (approved : Bool) (weight : ℤ) : Res VerificationRound := do
  let voted := { round with votes := round.votes.set oracle approved }
  if approved then do
    let weightFor ← okOr (checkedAdd round.weightFor weight) .overflow
    return { voted with weightFor := weightFor }
  else do
    let weightAgainst ← okOr (checkedAdd round.weightAgainst weight) .overflow
    return { voted with weightAgainst := weightAgainst }

/-- The weight that decides a round, rounded up. -/
def threshold : Res ℤ := do
  let scaled ← okOr (checkedMul round.totalStakeSnapshot round.quorumBps) .overflow
  let raised ← okOr (checkedAdd scaled 9999) .overflow
  return raised.tdiv 10000

/-- The decision of a round, once enough oracles voted: approval is tested first. -/
def verdict (threshold : ℤ) : Option Bool :=
  if round.requiredVotes ≤ round.votes.entries.length ∧ threshold ≤ round.weightFor then some true
  else if round.requiredVotes ≤ round.votes.entries.length ∧ threshold ≤ round.weightAgainst then
    some false
  else none

end VerificationRound

def decided (approved : Bool) : RoundStatus :=
  if approved then .ConsensusApproved else .ConsensusRejected

section Rounds

variable (h : Host W) (signers : List Address) (s : State W)

/-- One turn of the loop over the oracles. -/
def State.countOracle (acc : ℤ × ℕ) (id : Address) : Res (ℤ × ℕ) :=
  match s.oracles.get id with
  | some info =>
    if info.isActive then do
      let totalStake ← okOr (checkedAdd acc.1 info.stakeAmount) .overflow
      let activeCount ← okOr (fitU 32 (acc.2 + 1)) .overflow
      return (totalStake, activeCount)
    else return acc
  | none => return acc

def State.newRound (invoiceId : ℕ) (oracleHash : Bytes) (totalStake : ℤ) (activeCount quorumBps : ℕ) :
    VerificationRound where
  invoiceId := invoiceId
  requiredVotes := s.settings.config.requiredVotes
  totalRegisteredOracles := activeCount
  votes := ∅
  weightFor := 0
  weightAgainst := 0
  totalStakeSnapshot := totalStake
  quorumBps := quorumBps
  status := .Open
  openedAt := s.now
  deadline := saturatingAddU 64 s.now s.settings.config.roundDurationSecs
  oracleHash := oracleHash

def openVerificationRound (caller : Address) (invoiceId : ℕ) (oracleHash : Bytes) :
    Res (State W) := do
  requireAuth signers caller
  s.settings.requireNotPaused
  require (∀ existing ∈ s.rounds.get invoiceId, existing.status ≠ .Open) (.error .RoundAlreadyOpen)
  let invoiceContract ← okOr s.settings.invoiceContract (.error .InvoiceContractNotSet)
  let (awaiting, invoiceAmount) ← okOr
    (h.getInvoiceVerificationState s.world invoiceContract invoiceId) (.error .InvoiceCallFailed)
  require (awaiting = true) (.error .InvoiceNotAwaitingVerification)
  let (totalStake, activeCount) ← s.oracleIds.foldlM s.countOracle (0, 0)
  require (activeCount ≠ 0) (.error .NoActiveOracles)
  let quorumBps := resolveQuorumBps s.settings.config.quorumBps invoiceAmount s.settings.quorumTiers
  return { s.setRound invoiceId (s.newRound invoiceId oracleHash totalStake activeCount quorumBps) with
    openRounds := s.openRounds ++ [invoiceId] }

def finalizeOnInvoice (invoiceId : ℕ) (approved : Bool) (oracleHash : Bytes) : Res (State W) := do
  let invoiceContract ← okOr s.settings.invoiceContract (.error .InvoiceContractNotSet)
  let reason := bytes (if approved then "consensus approved" else "consensus rejected")
  let world ← okOr
    (h.consensusVerify s.world invoiceContract invoiceId h.self approved reason oracleHash)
    (.error .InvoiceCallFailed)
  return { s with world := world }

def submitVote (oracle : Address) (invoiceId : ℕ) (approved : Bool) : Res (State W) := do
  requireAuth signers oracle
  s.settings.requireNotPaused
  let info ← s.loadOracle oracle
  require (info.isActive = true) (.error .NotRegistered)
  require (info.deregisterRequestedAt = none) (.error .DeregisterCooldownActive)
  require (s.settings.config.minStake ≤ info.stakeAmount) (.error .InsufficientStake)
  let round ← s.loadRound invoiceId
  require (round.status = .Open) (.error .RoundNotOpen)
  require (s.now ≤ round.deadline) (.error .RoundExpired)
  require (round.votes.get oracle = none) (.error .AlreadyVoted)
  let round ← round.enter oracle approved info.stakeAmount
  let totalVerifications ← okOr (fitU 32 (info.totalVerifications + 1)) .overflow
  let s := (s.setOracle oracle { info with totalVerifications := totalVerifications }).appendOracleRound
    oracle invoiceId
  let threshold ← round.threshold
  match round.verdict threshold with
  | some outcome =>
    finalizeOnInvoice h
      ((s.setRound invoiceId { round with status := decided outcome }).removeOpenRound invoiceId)
      invoiceId outcome round.oracleHash
  | none => return s.setRound invoiceId round

def expireRound (invoiceId : ℕ) : Res (State W) := do
  s.settings.requireNotPaused
  let round ← s.loadRound invoiceId
  require (round.status = .Open) (.error .RoundNotOpen)
  require (round.deadline < s.now) (.error .RoundNotExpired)
  return (s.setRound invoiceId { round with status := .Expired }).removeOpenRound invoiceId

def adminResolveRoundInternal (invoiceId : ℕ) (approved : Bool) : Res (State W) := do
  let round ← s.loadRound invoiceId
  require (round.status = .Expired ∧ round.deadline < s.now) (.error .RoundNotExpired)
  finalizeOnInvoice h (s.setRound invoiceId { round with status := decided approved }) invoiceId
    approved round.oracleHash

def adminResolveRound (admin : Address) (invoiceId : ℕ) (approved : Bool) : Res (State W) := do
  s.settings.asAdmin signers admin
  adminResolveRoundInternal h s invoiceId approved

def adminResolveRoundViaAc (accessControl : Address) (invoiceId : ℕ) (approved : Bool) :
    Res (State W) := do
  s.settings.asAccessControl signers accessControl
  adminResolveRoundInternal h s invoiceId approved

end Rounds

end Astera.Oracle
