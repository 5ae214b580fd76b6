import Astera.Governance.Types

/-!
# The governance contract

The storage of the contract and its writing entrypoints.  The share token and the contracts that the
proposals act on are reached through `Host`; they cannot call back.  Time-to-live extensions, events
and the pages of proposals and votes are left out.
-/

namespace Astera.Governance

open Fallible Machine
open Invoices (Bytes)

variable {W : Type}

/-- The calls into other contracts; `none` is a trap. -/
structure Host (W : Type) where
  balanceAt : W → Address → Address → ℕ → Option ℤ
  totalSupply : W → Address → Option ℤ
  /-- The call of `execute_governance_action` that carries out an action. -/
  execute : W → Address → GovernanceAction → Option W

structure Settings where
  config : GovernanceConfig
  accessControl : Option Address := none
  executionExpirySecs : ℕ := defaultExecutionExpirySecs
  paused : Bool := false
  governanceAddress : Option Address := none
  deriving DecidableEq

structure State (W : Type) where
  now : ℕ
  world : W
  settings : Settings
  proposal : ℕ → Option Proposal := fun _ => none
  proposalCount : ℕ := 0
  voted : ℕ → Address → Bool := fun _ _ => false
  voterVoteCount : Address → ℕ := fun _ => 0
  voterVote : Address → ℕ → Option VoteRecord := fun _ _ => none

def requireAuth (signers : List Address) (a : Address) : Res Unit := require (a ∈ signers) .auth

def Settings.requireNotPaused (settings : Settings) : Res Unit :=
  require (settings.paused = false) (.error .Paused)

def Settings.requireAdmin (settings : Settings) (caller : Address) : Res Unit :=
  require (caller = settings.config.admin) (.error .Unauthorized)

def Settings.requireAccessControl (settings : Settings) (caller : Address) : Res Unit :=
  match settings.accessControl with
  | some configured => require (caller = configured) (.error .Unauthorized)
  | none => .error (.error .AccessControlNotConfigured)

def validateBps (quorumBps passBps : ℕ) : Res Unit := do
  require (quorumBps ≠ 0 ∧ quorumBps ≤ 10000) (.error .InvalidConfig)
  require (5000 < passBps ∧ passBps ≤ 10000) (.error .InvalidConfig)

/-! ## Proposals -/

/-- `finalize_proposal`: the proposal, and the error that is returned beside it. -/
def finalizeProposal (p : Proposal) : Res (Proposal × Option GovernanceError) :=
  if p.status ≠ .Active then return (p, none)
  else if p.snapshotSupply ≤ 0 then return ({ p with status := .Rejected }, none)
  else do
    let totalVotes ← okOr (checkedAdd p.votesFor p.votesAgainst) .overflow
    let scaledSupply ← okOr (checkedMul p.snapshotSupply p.quorumBps) .overflow
    let quorum := scaledSupply.tdiv 10000
    if totalVotes < quorum then return ({ p with status := .Rejected }, some .QuorumNotMet)
    else do
      let scaledFor ← okOr (checkedMul p.votesFor 10000) .overflow
      let threshold ← okOr (checkedMul totalVotes p.passBps) .overflow
      if threshold ≤ scaledFor then
        return ({ p with status := .Passed, passedAt := p.votingEndsAt }, none)
      else return ({ p with status := .Rejected }, none)

namespace State

variable (s : State W)

def loadProposal (id : ℕ) : Res Proposal := okOr (s.proposal id) (.error .ProposalNotFound)

def setProposal (id : ℕ) (p : Proposal) : State W :=
  { s with proposal := Function.update s.proposal id (some p) }

/-- `mark_expired_if_due`: the proposal, and whether it is expired. -/
def markExpiredIfDue (p : Proposal) : Proposal × Bool :=
  if p.status = .Passed ∧
      min (p.passedAt + s.settings.executionExpirySecs) (2 ^ 64 - 1) < s.now then
    ({ p with status := .Expired }, true)
  else (p, p.status = .Expired)

/-- The proposal after the lazy finalization of `cancel_proposal` and `finalize_proposal_if_due`,
and whether it is stored. -/
def finalizeIfDue (p : Proposal) : Res (Proposal × Bool) :=
  if p.status = .Active ∧ p.votingEndsAt ≤ s.now then do
    let (finalized, _) ← finalizeProposal p
    return ((s.markExpiredIfDue finalized).1, true)
  else return s.markExpiredIfDue p

def appendVoteRecord (voter : Address) (record : VoteRecord) : Res (State W) := do
  let count := s.voterVoteCount voter
  let newCount ← okOr (fitU 32 (count + 1)) .overflow
  return { s with
    voterVote := Function.update s.voterVote voter
      (Function.update (s.voterVote voter) count (some record))
    voterVoteCount := Function.update s.voterVoteCount voter newCount }

end State

section Entrypoints

variable (h : Host W) (signers : List Address) (s : State W)

def State.proposalWeight (voter : Address) (snapshotAt : ℕ) : Res ℤ :=
  okOr (h.balanceAt s.world s.settings.config.shareToken voter snapshotAt) .neighbour

def State.newProposal (id : ℕ) (proposer : Address) (description : Bytes) (targetContract : Address)
    (action : GovernanceAction) (category : ProposalCategory) (snapshotSupply : ℤ) : Proposal where
  id := id
  proposer := proposer
  description := description
  targetContract := targetContract
  action := action
  votesFor := 0
  votesAgainst := 0
  status := .Active
  createdAt := s.now
  votingEndsAt := min (s.now + s.settings.config.votingPeriodSecs) (2 ^ 64 - 1)
  executionDelay := s.settings.config.executionDelaySecs
  snapshotSupply := snapshotSupply
  passedAt := 0
  category := category
  quorumBps := s.settings.config.quorumForCategory category
  passBps := s.settings.config.passBps

def createProposal (proposer : Address) (description : Bytes) (targetContract : Address)
    (action : GovernanceAction) (category : ProposalCategory) : Res (State W × ℕ) := do
  requireAuth signers proposer
  s.settings.requireNotPaused
  let balance ← s.proposalWeight h proposer s.now
  require (s.settings.config.minShareBalance ≤ balance) (.error .InsufficientShareBalance)
  let snapshotSupply ← okOr (h.totalSupply s.world s.settings.config.shareToken) .neighbour
  require (0 < snapshotSupply ∧ 0 < balance) (.error .InsufficientShareBalance)
  let id ← okOr (fitU 64 (s.proposalCount + 1)) .overflow
  let p := s.newProposal id proposer description targetContract action category snapshotSupply
  return ({ s.setProposal id p with proposalCount := id }, id)

def Proposal.countVote (p : Proposal) (inFavor : Bool) (weight : ℤ) : Res Proposal :=
  if inFavor then do
    let votesFor ← okOr (checkedAdd p.votesFor weight) .overflow
    return { p with votesFor := votesFor }
  else do
    let votesAgainst ← okOr (checkedAdd p.votesAgainst weight) .overflow
    return { p with votesAgainst := votesAgainst }

/-- `vote`.  A vote that comes too late finalizes the proposal and fails, which undoes it. -/
def vote (proposalId : ℕ) (voter : Address) (inFavor : Bool) : Res (State W) := do
  requireAuth signers voter
  s.settings.requireNotPaused
  let p ← s.loadProposal proposalId
  require (p.status = .Active) (.error .ProposalInactive)
  require (s.voted proposalId voter = false) (.error .AlreadyVoted)
  if p.votingEndsAt ≤ s.now then do
    let _ ← finalizeProposal p
    .error (.error .VotingPeriodActive)
  else do
    let weight ← s.proposalWeight h voter p.createdAt
    require (0 < weight) (.error .InsufficientShareBalance)
    let p' ← p.countVote inFavor weight
    let s' := { s with
      voted := Function.update s.voted proposalId
        (Function.update (s.voted proposalId) voter true) }
    let s'' ← s'.appendVoteRecord voter ⟨proposalId, inFavor, weight, s.now⟩
    return s''.setProposal proposalId p'

/-- `execute_proposal`: the delay is that of the configuration, not that of the proposal. -/
def executeProposal (proposalId : ℕ) : Res (State W) := do
  s.settings.requireNotPaused
  let p ← s.loadProposal proposalId
  require (p.status ≠ .Cancelled ∧ p.status ≠ .Executed ∧ p.status ≠ .Expired)
    (.error .ProposalInactive)
  require (p.votingEndsAt < s.now) (.error .VotingPeriodActive)
  require (min (p.votingEndsAt + s.settings.config.executionDelaySecs) (2 ^ 64 - 1) ≤ s.now)
    (.error .TimelockActive)
  let (finalized, failure) ← finalizeProposal p
  match failure with
  | some e => .error (.error e)
  | none => do
      require (finalized.status = .Passed) (.error .InvalidProposalState)
      require ((s.markExpiredIfDue finalized).2 = false) (.error .ProposalExpired)
      let world ← okOr (h.execute s.world finalized.targetContract finalized.action) .neighbour
      return { s.setProposal proposalId { finalized with status := .Executed } with world := world }

def cancelProposal (proposalId : ℕ) (caller : Address) : Res (State W) := do
  requireAuth signers caller
  s.settings.requireNotPaused
  let p ← s.loadProposal proposalId
  let (p', _) ← s.finalizeIfDue p
  match p'.status with
  | .Active =>
    require (caller = p'.proposer ∨ caller = s.settings.config.admin) (.error .Unauthorized)
  | .Passed => require (caller = s.settings.config.admin) (.error .Unauthorized)
  | .Cancelled | .Executed | .Expired | .Rejected => .error (.error .InvalidProposalState)
  return s.setProposal proposalId { p' with status := .Cancelled }

def finalizeProposalIfDue (proposalId : ℕ) : Res (State W) := do
  let p ← s.loadProposal proposalId
  let (p', changed) ← s.finalizeIfDue p
  return if changed then s.setProposal proposalId p' else s

end Entrypoints

/-! ## Settings -/

section Setters

variable (signers : List Address) (s : Settings)

def setVotingPeriod (caller : Address) (votingPeriodSecs : ℕ) : Res Settings := do
  requireAuth signers caller
  s.requireNotPaused
  require (minVotingPeriodSecs ≤ votingPeriodSecs) (.error .InvalidConfig)
  s.requireAdmin caller
  return { s with config := { s.config with votingPeriodSecs := votingPeriodSecs } }

def setExecutionExpiry (caller : Address) (executionExpirySecs : ℕ) : Res Settings := do
  requireAuth signers caller
  s.requireNotPaused
  require (executionExpirySecs ≠ 0) (.error .InvalidConfig)
  s.requireAdmin caller
  return { s with executionExpirySecs := executionExpirySecs }

def setExecutionDelay (caller : Address) (executionDelaySecs : ℕ) : Res Settings := do
  requireAuth signers caller
  s.requireNotPaused
  require (executionDelaySecs ≠ 0) (.error .InvalidConfig)
  s.requireAdmin caller
  return { s with config := { s.config with executionDelaySecs := executionDelaySecs } }

def setExecutionDelayViaAc (accessControl : Address) (executionDelaySecs : ℕ) : Res Settings := do
  requireAuth signers accessControl
  s.requireNotPaused
  s.requireAccessControl accessControl
  require (executionDelaySecs ≠ 0) (.error .InvalidConfig)
  return { s with config := { s.config with executionDelaySecs := executionDelaySecs } }

def setPaused (caller : Address) (paused : Bool) : Res Settings := do
  requireAuth signers caller
  s.requireAdmin caller
  return { s with paused := paused }

def setGovernanceAddress (caller governanceAddress : Address) : Res Settings := do
  requireAuth signers caller
  s.requireAdmin caller
  return { s with governanceAddress := some governanceAddress }

def updateConfig (caller : Address) (quorumBps passBps : ℕ) : Res Settings := do
  requireAuth signers caller
  s.requireNotPaused
  s.requireAdmin caller
  validateBps quorumBps passBps
  return { s with config := { s.config with quorumBps := quorumBps, passBps := passBps } }

def updateConfigViaAc (accessControl : Address) (quorumBps passBps : ℕ) : Res Settings := do
  requireAuth signers accessControl
  s.requireNotPaused
  s.requireAccessControl accessControl
  validateBps quorumBps passBps
  return { s with config := { s.config with quorumBps := quorumBps, passBps := passBps } }

def updateMinShareBalance (caller : Address) (minShareBalance : ℤ) : Res Settings := do
  requireAuth signers caller
  s.requireAdmin caller
  require (0 < minShareBalance) (.error .InvalidConfig)
  return { s with config := { s.config with minShareBalance := minShareBalance } }

def updateMinShareBalanceViaAc (accessControl : Address) (minShareBalance : ℤ) : Res Settings := do
  requireAuth signers accessControl
  s.requireAccessControl accessControl
  require (0 < minShareBalance) (.error .InvalidConfig)
  return { s with config := { s.config with minShareBalance := minShareBalance } }

def setCategoryQuorum (caller : Address) (category : ProposalCategory) (quorumBps : ℕ) :
    Res Settings := do
  requireAuth signers caller
  s.requireNotPaused
  s.requireAdmin caller
  require (quorumBps ≠ 0 ∧ quorumBps ≤ 10000) (.error .InvalidConfig)
  return { s with config := s.config.withQuorum quorumBps category }

def setCategoryQuorumViaAc (accessControl : Address) (category : ProposalCategory)
    (quorumBps : ℕ) : Res Settings := do
  requireAuth signers accessControl
  s.requireNotPaused
  s.requireAccessControl accessControl
  require (quorumBps ≠ 0 ∧ quorumBps ≤ 10000) (.error .InvalidConfig)
  return { s with config := s.config.withQuorum quorumBps category }

def setAccessControl (caller accessControl : Address) : Res Settings := do
  requireAuth signers caller
  s.requireNotPaused
  s.requireAdmin caller
  return { s with accessControl := some accessControl }

def setAccessControlViaAc (accessControl newAccessControl : Address) : Res Settings := do
  requireAuth signers accessControl
  s.requireNotPaused
  s.requireAccessControl accessControl
  return { s with accessControl := some newAccessControl }

end Setters

def initializeGovernance (now : ℕ) (world : W) (admin shareToken : Address) (votingPeriodSecs : ℕ)
    (quorumBps passBps executionDelaySecs : ℕ) (minShareBalance : ℤ) : Res (State W) := do
  validateBps quorumBps passBps
  require (votingPeriodSecs = 0 ∨ minVotingPeriodSecs ≤ votingPeriodSecs) (.error .InvalidConfig)
  require (0 < minShareBalance) (.error .InvalidConfig)
  return {
    now := now
    world := world
    settings :=
      { config :=
          { admin := admin
            shareToken := shareToken
            votingPeriodSecs :=
              if votingPeriodSecs = 0 then defaultVotingPeriodSecs else votingPeriodSecs
            quorumBps := if quorumBps = 0 then defaultQuorumBps else quorumBps
            passBps := if passBps = 0 then defaultPassBps else passBps
            executionDelaySecs :=
              if executionDelaySecs = 0 then defaultExecutionDelaySecs else executionDelaySecs
            minShareBalance := minShareBalance
            treasuryQuorumBps := defaultTreasuryQuorumBps
            criticalQuorumBps := defaultCriticalQuorumBps } } }

end Astera.Governance
