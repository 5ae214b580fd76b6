import Astera.Lib.Transition
import Astera.AccessControl.Contract

/-!
# The access control contract as a machine

`Call` lists the entrypoints, the passing of time and moves of the other contracts; a run of the
contract is a run of `exec h` (`Transition.Reaches`).
-/

namespace Astera.AccessControl

open Fallible Machine Transition

variable {W : Type}

inductive Call (W : Type)
  | proposeAction (role : Role) (proposer target : Address) (action : ActionPayload)
  | approveAction (signer : Address) (proposalId : ℕ)
  | revokeApproval (signer : Address) (proposalId : ℕ)
  | rejectAction (signer : Address) (proposalId : ℕ)
  | executeAction (caller : Address) (proposalId : ℕ)
  | pruneProposal (proposalId : ℕ)
  | advance (now : ℕ)
  | elsewhere (world : W)

structure Tx (W : Type) where
  signers : List Address
  call : Call W

/-- The passing of time; the time of the ledger is a `u64`. -/
def advance (s : State W) (now : ℕ) : Res (State W) := do
  require (s.now ≤ now ∧ now < 2 ^ 64) .overflow
  return { s with now := now }

def exec (h : Host W) (s : State W) (tx : Tx W) : Res (State W) :=
  let signers := tx.signers
  match tx.call with
  | .proposeAction role proposer target action =>
    (proposeAction h signers s role proposer target action).map Prod.fst
  | .approveAction signer proposalId => approveAction signers s signer proposalId
  | .revokeApproval signer proposalId => revokeApproval signers s signer proposalId
  | .rejectAction signer proposalId => rejectAction signers s signer proposalId
  | .executeAction caller proposalId => executeAction h signers s caller proposalId
  | .pruneProposal proposalId => pruneProposal s proposalId
  | .advance now => advance s now
  | .elsewhere world => .ok { s with world := world }

/-! ## A sample ledger -/

/-- The contract at address 1, beside contracts that accept every call. -/
def sampleHost : Host Unit where
  self := 1
  invoke := fun world _ _ _ => some world

/-- A new contract with the super admins 2, 3 and 4, two of whom decide, an expiry window of 1000
seconds and a timelock of 100 seconds. -/
def sampleStart : State Unit where
  now := 5
  world := ()
  roleConfig := fun role => if role = .SuperAdmin then some ⟨[2, 3, 4], 2⟩ else none
  proposalExpirySecs := 1000
  proposalTimelockSecs := 100

theorem initializeAccessControl_sampleStart :
    initializeAccessControl [2, 3, 4] 5 () [2, 3, 4] 2 1000 100 = .ok sampleStart := rfl

/-!
# What a call of the access control contract does

`exec_effect` reads a successful call backwards: what was checked, and the state it leaves.
-/

variable {h : Host W} {signers : List Address} {s s' : State W}

@[simp]
theorem requireAuth_eq_ok {a : Address} {u : Unit} : requireAuth signers a = .ok u ↔ a ∈ signers := by
  simp [requireAuth]

@[simp]
theorem loadProposal_eq_ok {proposalId : ℕ} {proposal : Proposal} :
    s.loadProposal proposalId = .ok proposal ↔ s.proposals.get proposalId = some proposal :=
  okOr_eq_ok _ _ _

@[simp]
theorem loadConfig_eq_ok {role : Role} {config : MultiSigConfig} :
    s.loadConfig role = .ok config ↔ s.roleConfig role = some config := okOr_eq_ok _ _ _

theorem validateConfig_eq_ok {signers : List Address} {threshold : ℕ} {u : Unit} :
    validateConfig signers threshold = .ok u ↔
      signers.length ≤ maxSignersPerRole ∧ (0 < threshold ∧ threshold ≤ signers.length) ∧
        signers.Nodup := by
  simp only [validateConfig, bind_eq_ok, exists_unit, require_eq_ok]
  refine and_congr_right fun _ => and_congr_left fun _ => ?_
  omega

/-- What an executed action does to the configurations of the roles. -/
inductive Reconfigures (configs : Role → Option MultiSigConfig) :
    ActionPayload → (Role → Option MultiSigConfig) → Prop
  | added {role : Role} {address : Address} {config : MultiSigConfig}
      (hconfig : (configs role).getD ⟨[], 0⟩ = config) (hnew : address ∉ config.signers)
      (hroom : config.signers.length < maxSignersPerRole) :
      Reconfigures configs (.AddSigner role address) (Function.update configs role (some
        { config with signers := config.signers ++ [address] }))
  | removed {role : Role} {address : Address} {config : MultiSigConfig}
      (hconfig : configs role = some config) (hmem : address ∈ config.signers)
      (hrest : config.threshold ≤ (config.signers.erase address).length) :
      Reconfigures configs (.RemoveSigner role address) (Function.update configs role (some
        { config with signers := config.signers.erase address }))
  | threshold {role : Role} {threshold : ℕ} {config : MultiSigConfig}
      (hconfig : (configs role).getD ⟨[], 0⟩ = config) (hpos : 0 < threshold)
      (hle : threshold ≤ config.signers.length) (hnodup : config.signers.Nodup) :
      Reconfigures configs (.SetThreshold role threshold) (Function.update configs role (some
        { config with threshold := threshold }))
  | kept {action : ActionPayload} : Reconfigures configs action configs

theorem executeSelfManagement_eq_ok {action : ActionPayload}
    (hx : executeSelfManagement s action = .ok s') :
    ∃ roleConfig secs, Reconfigures s.roleConfig action roleConfig ∧
      s' = { s with roleConfig := roleConfig, proposalExpirySecs := secs } := by
  cases action with
  | AddSigner role address =>
    simp only [executeSelfManagement, bind_eq_ok, exists_unit, require_eq_ok, pure_eq_ok] at hx
    obtain ⟨hnew, hroom, rfl⟩ := hx
    exact ⟨_, _, .added rfl hnew hroom, rfl⟩
  | RemoveSigner role address =>
    simp only [executeSelfManagement, bind_eq_ok, exists_unit, require_eq_ok, loadConfig_eq_ok,
      pure_eq_ok] at hx
    obtain ⟨config, hconfig, hmem, hrest, rfl⟩ := hx
    exact ⟨_, _, .removed hconfig hmem hrest, rfl⟩
  | SetThreshold role threshold =>
    simp only [executeSelfManagement, bind_eq_ok, exists_unit, validateConfig_eq_ok,
      pure_eq_ok] at hx
    obtain ⟨⟨-, ⟨hpos, hle⟩, hnodup⟩, rfl⟩ := hx
    exact ⟨_, _, .threshold rfl hpos hle hnodup, rfl⟩
  | SetProposalExpiry secs =>
    simp only [executeSelfManagement, bind_eq_ok, exists_unit, require_eq_ok, pure_eq_ok] at hx
    obtain ⟨-, rfl⟩ := hx
    exact ⟨_, _, .kept, rfl⟩
  | _ =>
    simp only [executeSelfManagement, pure_eq_ok] at hx
    subst hx
    exact ⟨_, _, .kept, rfl⟩

theorem executeCrossContract_eq_ok {target : Address} {action : ActionPayload}
    (hx : executeCrossContract h s target action = .ok s') :
    ∃ world, s' = { s with world := world } := by
  unfold executeCrossContract at hx
  cases hinvocation : action.invocation with
  | some invocation =>
    simp only [hinvocation, bind_eq_ok, okOr_eq_ok, pure_eq_ok] at hx
    obtain ⟨world, -, rfl⟩ := hx
    exact ⟨world, rfl⟩
  | none =>
    simp only [hinvocation, pure_eq_ok] at hx
    exact ⟨s.world, hx.symm⟩

structure Executes (s : State W) (proposalId : ℕ) (proposal : Proposal) : Prop where
  get : s.proposals.get proposalId = some proposal
  approved : proposal.status = .Approved
  fresh : s.now ≤ proposal.expiresAt
  ripe : proposal.earliestExecutionTime ≤ s.now

def Proposal.executed (proposal : Proposal) : Proposal := { proposal with status := .Executed }

def State.executed (s : State W) (proposalId : ℕ) (proposal : Proposal) (world : W)
    (roleConfig : Role → Option MultiSigConfig) (secs : ℕ) : State W :=
  { s.setProposal proposalId proposal.executed with
    world := world
    roleConfig := roleConfig
    proposalExpirySecs := secs }

theorem executeAction_eq_ok {caller : Address} {proposalId : ℕ}
    (hx : executeAction h signers s caller proposalId = .ok s') :
    ∃ proposal world roleConfig secs, Executes s proposalId proposal ∧
      Reconfigures s.roleConfig proposal.action roleConfig ∧
      s' = s.executed proposalId proposal world roleConfig secs := by
  simp only [executeAction, bind_eq_ok, exists_unit, requireAuth_eq_ok, loadProposal_eq_ok,
    require_eq_ok] at hx
  obtain ⟨-, proposal, hget, happroved, hfresh, hripe, hx⟩ := hx
  split_ifs at hx with hself
  · obtain ⟨roleConfig, secs, hreconfigures, rfl⟩ := executeSelfManagement_eq_ok hx
    exact ⟨proposal, s.world, roleConfig, secs, ⟨hget, happroved, hfresh, hripe⟩, hreconfigures, rfl⟩
  · obtain ⟨world, rfl⟩ := executeCrossContract_eq_ok hx
    exact ⟨proposal, world, s.roleConfig, s.proposalExpirySecs,
      ⟨hget, happroved, hfresh, hripe⟩, .kept, rfl⟩

def State.raised (s : State W) (role : Role) (proposer target : Address) (action : ActionPayload)
    (threshold : ℕ) : Proposal where
  role := role
  target := target
  action := action
  proposer := proposer
  approvals := [proposer]
  createdAt := s.now
  expiresAt := s.now + s.proposalExpirySecs
  earliestExecutionTime := 0
  status := if threshold ≤ 1 then .Approved else .Pending

def State.approved (s : State W) (proposal : Proposal) (signer : Address) (threshold : ℕ) : Proposal :=
  if threshold ≤ proposal.approvals.length + 1 then
    { proposal with
      approvals := proposal.approvals ++ [signer]
      status := .Approved
      earliestExecutionTime := s.now + s.proposalTimelockSecs }
  else { proposal with approvals := proposal.approvals ++ [signer] }

def Proposal.revoked (proposal : Proposal) (signer : Address) (threshold : ℕ) : Proposal :=
  { proposal with
    approvals := proposal.approvals.erase signer
    status := if threshold ≤ (proposal.approvals.erase signer).length then .Approved else .Pending }

inductive Effect (h : Host W) (s : State W) (tx : Tx W) : State W → Prop
  | raised {role : Role} {proposer target : Address} {action : ActionPayload}
      {config : MultiSigConfig} (hcall : tx.call = .proposeAction role proposer target action)
      (hauthorized : (action.requiresSuperAdmin = true → role = .SuperAdmin) ∧
        role.canPropose action = true)
      (hcoherent : action.isSelfManagement = true ↔ target = h.self)
      (hconfig : s.roleConfig role = some config) (hpos : config.threshold ≠ 0)
      (hsigner : proposer ∈ config.signers) :
      Effect h s tx
        { s.setProposal s.nextProposalId (s.raised role proposer target action config.threshold) with
          nextProposalId := s.nextProposalId + 1 }
  | approved {signer : Address} {proposalId : ℕ} {proposal : Proposal} {config : MultiSigConfig}
      (hcall : tx.call = .approveAction signer proposalId)
      (hget : s.proposals.get proposalId = some proposal) (hopen : proposal.isOpen = true)
      (hfresh : s.now ≤ proposal.expiresAt) (hconfig : s.roleConfig proposal.role = some config)
      (hsigner : signer ∈ config.signers) (hnew : signer ∉ proposal.approvals) :
      Effect h s tx (s.setProposal proposalId (s.approved proposal signer config.threshold))
  | revoked {signer : Address} {proposalId : ℕ} {proposal : Proposal} {config : MultiSigConfig}
      (hcall : tx.call = .revokeApproval signer proposalId)
      (hget : s.proposals.get proposalId = some proposal) (hopen : proposal.isOpen = true)
      (hmem : signer ∈ proposal.approvals) (hconfig : s.roleConfig proposal.role = some config) :
      Effect h s tx (s.setProposal proposalId (proposal.revoked signer config.threshold))
  | rejected {signer : Address} {proposalId : ℕ} {proposal : Proposal}
      (hcall : tx.call = .rejectAction signer proposalId)
      (hget : s.proposals.get proposalId = some proposal) (hopen : proposal.isOpen = true) :
      Effect h s tx (s.setProposal proposalId { proposal with status := .Rejected })
  | executed {caller : Address} {proposalId : ℕ} {proposal : Proposal} {world : W}
      {roleConfig : Role → Option MultiSigConfig} {secs : ℕ}
      (hcall : tx.call = .executeAction caller proposalId) (hexec : Executes s proposalId proposal)
      (hreconfigures : Reconfigures s.roleConfig proposal.action roleConfig) :
      Effect h s tx (s.executed proposalId proposal world roleConfig secs)
  | pruned {proposalId : ℕ} {proposal : Proposal} (hcall : tx.call = .pruneProposal proposalId)
      (hget : s.proposals.get proposalId = some proposal)
      (hdone : proposal.isOpen = true → proposal.expiresAt < s.now) :
      Effect h s tx { s with proposals := s.proposals.remove proposalId }
  | advanced {now : ℕ} (hcall : tx.call = .advance now) (hnow : s.now ≤ now) :
      Effect h s tx { s with now := now }
  | elsewhere {world : W} (hcall : tx.call = .elsewhere world) :
      Effect h s tx { s with world := world }

theorem approveAction_eq_ok {signer : Address} {proposalId : ℕ}
    (hx : approveAction signers s signer proposalId = .ok s') :
    ∃ proposal config, s.proposals.get proposalId = some proposal ∧ proposal.isOpen = true ∧
      s.now ≤ proposal.expiresAt ∧ s.roleConfig proposal.role = some config ∧
      signer ∈ config.signers ∧ signer ∉ proposal.approvals ∧
      s' = s.setProposal proposalId (s.approved proposal signer config.threshold) := by
  simp only [approveAction, bind_eq_ok, exists_unit, requireAuth_eq_ok, loadProposal_eq_ok,
    loadConfig_eq_ok, require_eq_ok, List.length_append, List.length_singleton] at hx
  obtain ⟨-, proposal, hget, hopen, hfresh, config, hconfig, hsigner, hnew, hx⟩ := hx
  refine ⟨proposal, config, hget, hopen, hfresh, hconfig, hsigner, hnew, ?_⟩
  unfold State.approved
  split_ifs at hx ⊢ with hmet
  · simp only [bind_eq_ok, okOr_eq_ok, fitU_eq_some, pure_eq_ok] at hx
    obtain ⟨_, ⟨rfl, -⟩, rfl⟩ := hx
    rfl
  · exact ((pure_eq_ok _ _).1 hx).symm

theorem exec_effect {tx : Tx W} (hx : exec h s tx = .ok s') : Effect h s tx s' := by
  obtain ⟨signers, call⟩ := tx
  cases call with
  | proposeAction role proposer target action =>
    simp only [exec, proposeAction, map_eq_ok, bind_eq_ok, exists_unit, require_eq_ok, okOr_eq_ok,
      fitU_eq_some, loadConfig_eq_ok, pure_eq_ok] at hx
    obtain ⟨_, ⟨-, hsuper, hrole, hown, hother, config, hconfig, hpos, hsigner, _, ⟨rfl, -⟩, _,
      ⟨rfl, -⟩, rfl⟩, rfl⟩ := hx
    refine .raised rfl ⟨hsuper, hrole⟩ ⟨hown, fun htarget => ?_⟩ hconfig hpos hsigner
    by_contra hnot
    exact hother (by simpa using hnot) htarget
  | approveAction signer proposalId =>
    obtain ⟨proposal, config, hget, hopen, hfresh, hconfig, hsigner, hnew, rfl⟩ :=
      approveAction_eq_ok hx
    exact .approved rfl hget hopen hfresh hconfig hsigner hnew
  | revokeApproval signer proposalId =>
    simp only [exec, revokeApproval, bind_eq_ok, exists_unit, require_eq_ok, loadProposal_eq_ok,
      loadConfig_eq_ok, pure_eq_ok] at hx
    obtain ⟨-, proposal, hget, hopen, hmem, config, hconfig, rfl⟩ := hx
    exact .revoked rfl hget hopen hmem hconfig
  | rejectAction signer proposalId =>
    simp only [exec, rejectAction, bind_eq_ok, exists_unit, require_eq_ok, loadProposal_eq_ok,
      loadConfig_eq_ok, pure_eq_ok] at hx
    obtain ⟨-, proposal, hget, hopen, config, -, -, rfl⟩ := hx
    exact .rejected rfl hget hopen
  | executeAction caller proposalId =>
    obtain ⟨proposal, world, roleConfig, secs, hexec, hreconfigures, rfl⟩ := executeAction_eq_ok hx
    exact .executed rfl hexec hreconfigures
  | pruneProposal proposalId =>
    simp only [exec, pruneProposal, bind_eq_ok, exists_unit, require_eq_ok, loadProposal_eq_ok,
      pure_eq_ok] at hx
    obtain ⟨proposal, hget, hdone, rfl⟩ := hx
    exact .pruned rfl hget hdone
  | advance now =>
    simp only [exec, advance, bind_eq_ok, exists_unit, require_eq_ok, pure_eq_ok] at hx
    obtain ⟨⟨hnow, -⟩, rfl⟩ := hx
    exact .advanced rfl hnow
  | elsewhere world =>
    simp only [exec, Except.ok.injEq] at hx
    rw [← hx]
    exact .elsewhere rfl

end Astera.AccessControl
