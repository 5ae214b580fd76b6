import Astera.AccessControl.Types

/-!
# The access control contract

The storage of the contract and its writing entrypoints.  The contracts that an executed proposal
calls are reached through `Host`; they cannot call back.  Time-to-live extensions, events and views
other than those of proposals are left out.
-/

namespace Astera.AccessControl

open Fallible Machine

variable {W : Type}

structure Host (W : Type) where
  /-- `env.current_contract_address()`. -/
  self : Address
  /-- A call by the first address of an entrypoint of the second one; `none` is an error or a trap. -/
  invoke : W → Address → Address → Invocation → Option W

structure State (W : Type) where
  now : ℕ
  world : W
  roleConfig : Role → Option MultiSigConfig
  nextProposalId : ℕ := 0
  proposalExpirySecs : ℕ
  proposalTimelockSecs : ℕ
  proposals : Store ℕ Proposal := ∅
  /-- `Proposal` in instance storage, which only `list_proposals` reads. -/
  instanceProposals : Store ℕ Proposal := ∅

def requireAuth (signers : List Address) (a : Address) : Res Unit := require (a ∈ signers) .auth

/-- `validate_config`; its two loops look for a signer that stands twice. -/
def validateConfig (signers : List Address) (threshold : ℕ) : Res Unit := do
  require (signers.length ≤ maxSignersPerRole) (.error .MaxSignersExceeded)
  require (¬ (threshold = 0 ∨ signers.length < threshold)) (.error .InvalidThreshold)
  require signers.Nodup (.error .DuplicateSigner)

def initializeAccessControl (signers : List Address) (now : ℕ) (world : W)
    (superAdminSigners : List Address)
    (superAdminThreshold proposalExpirySecs proposalTimelockSecs : ℕ) : Res (State W) := do
  validateConfig superAdminSigners superAdminThreshold
  require (proposalExpirySecs ≠ 0) (.error .InvalidExpiryWindow)
  require (∀ a ∈ superAdminSigners, a ∈ signers) .auth
  return {
    now := now
    world := world
    roleConfig := fun role =>
      if role = .SuperAdmin then some ⟨superAdminSigners, superAdminThreshold⟩ else none
    proposalExpirySecs := proposalExpirySecs
    proposalTimelockSecs := proposalTimelockSecs }

namespace State

variable (s : State W)

def loadProposal (proposalId : ℕ) : Res Proposal :=
  okOr (s.proposals.get proposalId) (.error .ProposalNotFound)

def setProposal (proposalId : ℕ) (proposal : Proposal) : State W :=
  { s with proposals := s.proposals.set proposalId proposal }

def loadConfig (role : Role) : Res MultiSigConfig :=
  okOr (s.roleConfig role) (.error .RoleNotConfigured)

def setConfig (role : Role) (config : MultiSigConfig) : State W :=
  { s with roleConfig := Function.update s.roleConfig role (some config) }

def roleConfigOrDefault (role : Role) : MultiSigConfig := (s.roleConfig role).getD ⟨[], 0⟩

end State

/-- A proposal that is neither executed nor rejected. -/
def Proposal.isOpen (proposal : Proposal) : Bool :=
  proposal.status = .Pending || proposal.status = .Approved

/-! ## Proposals -/

section Proposals

variable (h : Host W) (signers : List Address) (s : State W)

def proposeAction (role : Role) (proposer target : Address) (action : ActionPayload) :
    Res (State W × ℕ) := do
  requireAuth signers proposer
  require (action.requiresSuperAdmin = true → role = .SuperAdmin)
    (.error .SelfManagementRequiresSuperAdmin)
  require (role.canPropose action = true) (.error .RoleNotAuthorized)
  require (action.isSelfManagement = true → target = h.self) (.error .IncoherentProposal)
  require (action.isSelfManagement = false → target ≠ h.self) (.error .IncoherentProposal)
  let config ← s.loadConfig role
  require (config.threshold ≠ 0) (.error .RoleNotConfigured)
  require (proposer ∈ config.signers) (.error .NotASigner)
  let expiresAt ← okOr (fitU 64 (s.now + s.proposalExpirySecs)) (.error .InvalidExpiryWindow)
  let proposalId := s.nextProposalId
  let nextProposalId ← okOr (fitU 64 (proposalId + 1)) .overflow
  let s := s.setProposal proposalId {
    role := role
    target := target
    action := action
    proposer := proposer
    approvals := [proposer]
    createdAt := s.now
    expiresAt := expiresAt
    earliestExecutionTime := 0
    status := if config.threshold ≤ 1 then .Approved else .Pending }
  return ({ s with nextProposalId := nextProposalId }, proposalId)

def approveAction (signer : Address) (proposalId : ℕ) : Res (State W) := do
  requireAuth signers signer
  let proposal ← s.loadProposal proposalId
  require (proposal.isOpen = true) (.error .ProposalNotPending)
  require (s.now ≤ proposal.expiresAt) (.error .ProposalExpired)
  let config ← s.loadConfig proposal.role
  require (signer ∈ config.signers) (.error .NotASigner)
  require (signer ∉ proposal.approvals) (.error .AlreadyApproved)
  let proposal := { proposal with approvals := proposal.approvals ++ [signer] }
  if config.threshold ≤ proposal.approvals.length then do
    let earliest ← okOr (fitU 64 (s.now + s.proposalTimelockSecs)) .overflow
    return s.setProposal proposalId
      { proposal with status := .Approved, earliestExecutionTime := earliest }
  else return s.setProposal proposalId proposal

def revokeApproval (signer : Address) (proposalId : ℕ) : Res (State W) := do
  requireAuth signers signer
  let proposal ← s.loadProposal proposalId
  require (proposal.isOpen = true) (.error .ProposalNotPending)
  require (signer ∈ proposal.approvals) (.error .NoApprovalToRevoke)
  let approvals := proposal.approvals.erase signer
  let config ← s.loadConfig proposal.role
  return s.setProposal proposalId { proposal with
    approvals := approvals
    status := if config.threshold ≤ approvals.length then .Approved else .Pending }

def rejectAction (signer : Address) (proposalId : ℕ) : Res (State W) := do
  requireAuth signers signer
  let proposal ← s.loadProposal proposalId
  require (proposal.isOpen = true) (.error .ProposalNotPending)
  let config ← s.loadConfig proposal.role
  require (signer ∈ config.signers) (.error .NotASigner)
  return s.setProposal proposalId { proposal with status := .Rejected }

def executeSelfManagement : ActionPayload → Res (State W)
  | .AddSigner role address => do
      let config := s.roleConfigOrDefault role
      require (address ∉ config.signers) (.error .DuplicateSigner)
      require (config.signers.length < maxSignersPerRole) (.error .MaxSignersExceeded)
      return s.setConfig role { config with signers := config.signers ++ [address] }
  | .RemoveSigner role address => do
      let config ← s.loadConfig role
      require (address ∈ config.signers) (.error .SignerNotFound)
      let remaining := config.signers.erase address
      require (config.threshold ≤ remaining.length)
        (.error .ThresholdMustBeLoweredBeforeSignerRemoval)
      return s.setConfig role { config with signers := remaining }
  | .SetThreshold role threshold => do
      let config := s.roleConfigOrDefault role
      validateConfig config.signers threshold
      return s.setConfig role { config with threshold := threshold }
  | .SetProposalExpiry secs => do
      require (secs ≠ 0) (.error .InvalidExpiryWindow)
      return { s with proposalExpirySecs := secs }
  | _ => return s

def executeCrossContract (target : Address) (action : ActionPayload) : Res (State W) :=
  match action.invocation with
  | some invocation => do
      let world ← okOr (h.invoke s.world h.self target invocation) .neighbour
      return { s with world := world }
  | none => return s

def executeAction (caller : Address) (proposalId : ℕ) : Res (State W) := do
  requireAuth signers caller
  let proposal ← s.loadProposal proposalId
  require (proposal.status = .Approved) (.error .ProposalNotApproved)
  require (s.now ≤ proposal.expiresAt) (.error .ProposalExpired)
  require (proposal.earliestExecutionTime ≤ s.now) (.error .ProposalNotYetExecutable)
  let s := s.setProposal proposalId { proposal with status := .Executed }
  if proposal.target = h.self then executeSelfManagement s proposal.action
  else executeCrossContract h s proposal.target proposal.action

def pruneProposal (proposalId : ℕ) : Res (State W) := do
  let proposal ← s.loadProposal proposalId
  require (proposal.isOpen = true → proposal.expiresAt < s.now) (.error .ProposalNotPending)
  return { s with proposals := s.proposals.remove proposalId }

end Proposals

section Views

variable (s : State W)

def getProposal (proposalId : ℕ) : Option Proposal := s.proposals.get proposalId

def Proposal.passes (filter : Option ProposalStatus) (proposal : Proposal) : Bool :=
  filter.all fun status => proposal.status = status

end Views

end Astera.AccessControl
