import Astera.Lib.Transition
import Astera.Governance.Contract

/-!
# The governance contract as a machine

`Call` lists the entrypoints, the passing of time and moves of the other contracts; a run of the
contract is a run of `exec h` (`Transition.Reaches`).
-/

namespace Astera.Governance

open Fallible Machine Transition
open Invoices (Bytes)

variable {W : Type}

inductive Setting
  | setVotingPeriod (caller : Address) (votingPeriodSecs : ℕ)
  | setExecutionExpiry (caller : Address) (executionExpirySecs : ℕ)
  | setExecutionDelay (caller : Address) (executionDelaySecs : ℕ)
  | setExecutionDelayViaAc (accessControl : Address) (executionDelaySecs : ℕ)
  | setPaused (caller : Address) (paused : Bool)
  | setGovernanceAddress (caller governanceAddress : Address)
  | updateConfig (caller : Address) (quorumBps passBps : ℕ)
  | updateConfigViaAc (accessControl : Address) (quorumBps passBps : ℕ)
  | updateMinShareBalance (caller : Address) (minShareBalance : ℤ)
  | updateMinShareBalanceViaAc (accessControl : Address) (minShareBalance : ℤ)
  | setCategoryQuorum (caller : Address) (category : ProposalCategory) (quorumBps : ℕ)
  | setCategoryQuorumViaAc (accessControl : Address) (category : ProposalCategory) (quorumBps : ℕ)
  | setAccessControl (caller accessControl : Address)
  | setAccessControlViaAc (accessControl newAccessControl : Address)

def applySetting (signers : List Address) (s : Settings) : Setting → Res Settings
  | .setVotingPeriod caller secs => setVotingPeriod signers s caller secs
  | .setExecutionExpiry caller secs => setExecutionExpiry signers s caller secs
  | .setExecutionDelay caller secs => setExecutionDelay signers s caller secs
  | .setExecutionDelayViaAc accessControl secs => setExecutionDelayViaAc signers s accessControl secs
  | .setPaused caller paused => setPaused signers s caller paused
  | .setGovernanceAddress caller address => setGovernanceAddress signers s caller address
  | .updateConfig caller quorumBps passBps => updateConfig signers s caller quorumBps passBps
  | .updateConfigViaAc accessControl quorumBps passBps =>
    updateConfigViaAc signers s accessControl quorumBps passBps
  | .updateMinShareBalance caller minShareBalance =>
    updateMinShareBalance signers s caller minShareBalance
  | .updateMinShareBalanceViaAc accessControl minShareBalance =>
    updateMinShareBalanceViaAc signers s accessControl minShareBalance
  | .setCategoryQuorum caller category quorumBps =>
    setCategoryQuorum signers s caller category quorumBps
  | .setCategoryQuorumViaAc accessControl category quorumBps =>
    setCategoryQuorumViaAc signers s accessControl category quorumBps
  | .setAccessControl caller accessControl => setAccessControl signers s caller accessControl
  | .setAccessControlViaAc accessControl newAccessControl =>
    setAccessControlViaAc signers s accessControl newAccessControl

inductive Call (W : Type)
  | createProposal (proposer : Address) (description : Bytes) (targetContract : Address)
      (action : GovernanceAction) (category : ProposalCategory)
  | vote (proposalId : ℕ) (voter : Address) (inFavor : Bool)
  | executeProposal (proposalId : ℕ)
  | cancelProposal (proposalId : ℕ) (caller : Address)
  | finalizeProposalIfDue (proposalId : ℕ)
  | set (setting : Setting)
  | advance (now : ℕ)
  | elsewhere (world : W)

structure Tx (W : Type) where
  signers : List Address
  call : Call W

def advance (s : State W) (now : ℕ) : Res (State W) := do
  require (s.now ≤ now ∧ now < 2 ^ 64) .overflow
  return { s with now := now }

def exec (h : Host W) (s : State W) (tx : Tx W) : Res (State W) :=
  let signers := tx.signers
  match tx.call with
  | .createProposal proposer description targetContract action category =>
    (createProposal h signers s proposer description targetContract action category).map Prod.fst
  | .vote proposalId voter inFavor => vote h signers s proposalId voter inFavor
  | .executeProposal proposalId => executeProposal h s proposalId
  | .cancelProposal proposalId caller => cancelProposal signers s proposalId caller
  | .finalizeProposalIfDue proposalId => finalizeProposalIfDue s proposalId
  | .set setting =>
    (applySetting signers s.settings setting).map fun settings => { s with settings := settings }
  | .advance now => advance s now
  | .elsewhere world => .ok { s with world := world }

/-! ## A sample contract -/

/-- Account 5 holds 600 of 1000 shares, account 6 the others, and every action succeeds. -/
def sampleHost : Host Unit where
  balanceAt := fun _ _ holder _ => some (if holder = 5 then 600 else if holder = 6 then 400 else 0)
  totalSupply := fun _ _ => some 1000
  execute := fun _ _ _ => some ()

/-- The contract after `initialize` with the admin 1 and the share token 2. -/
def sampleStart : Res (State Unit) := initializeGovernance 1000 () 1 2 86400 1000 6000 3600 1

def sampleProposal : Tx Unit :=
  ⟨[5], .createProposal 5 [] 9 (.Compliance (.SetComplianceRescreeningInterval 60))
    .ParameterChange⟩

/-!
# What a call does to the proposals

`Proposal.passes` is the outcome of the tally, and `finalize_proposal` writes it down.  `Effect`
lists what a call can do, and `Move` how a stored proposal may change.
-/

namespace Proposal

def quorum (p : Proposal) : ℤ := (p.snapshotSupply * p.quorumBps).tdiv 10000

/-- The tally meets the quorum and the threshold that were set down at the creation. -/
def Passes (p : Proposal) : Prop :=
  0 < p.snapshotSupply ∧ p.quorum ≤ p.votesFor + p.votesAgainst ∧
    (p.votesFor + p.votesAgainst) * p.passBps ≤ p.votesFor * 10000

instance (p : Proposal) : Decidable p.Passes := inferInstanceAs (Decidable (_ ∧ _))

def settled (p : Proposal) : Proposal :=
  if p.Passes then { p with status := .Passed, passedAt := p.votingEndsAt }
  else { p with status := .Rejected }

structure SameTerms (p p' : Proposal) : Prop where
  proposer : p'.proposer = p.proposer
  createdAt : p'.createdAt = p.createdAt
  votingEndsAt : p'.votingEndsAt = p.votingEndsAt
  executionDelay : p'.executionDelay = p.executionDelay
  snapshotSupply : p'.snapshotSupply = p.snapshotSupply
  quorumBps : p'.quorumBps = p.quorumBps
  passBps : p'.passBps = p.passBps

def Closed (p : Proposal) : Prop :=
  p.status = .Rejected ∨ p.status = .Executed ∨ p.status = .Cancelled ∨ p.status = .Expired

end Proposal

section Outcome

variable {p p' : Proposal}

theorem finalizeProposal_eq_ok {failure : Option GovernanceError}
    (h : finalizeProposal p = .ok (p', failure)) :
    (p.status ≠ .Active ∧ p' = p) ∨ (p.status = .Active ∧ p' = p.settled) := by
  unfold finalizeProposal at h
  split_ifs at h with hstatus hsupply
  · rw [pure_eq_ok, Prod.mk.injEq] at h
    exact .inl ⟨hstatus, h.1.symm⟩
  · rw [pure_eq_ok, Prod.mk.injEq] at h
    have hnot : ¬ p.Passes := fun hpasses => by
      have := hpasses.1
      omega
    exact .inr ⟨not_not.1 hstatus, by rw [Proposal.settled, if_neg hnot, h.1]⟩
  · simp only [bind_eq_ok, okOr_eq_ok, checkedAdd_eq_some, checkedMul_eq_some] at h
    obtain ⟨_, ⟨rfl, -⟩, _, ⟨rfl, -⟩, h⟩ := h
    refine .inr ⟨not_not.1 hstatus, ?_⟩
    split_ifs at h with hquorum
    · rw [pure_eq_ok, Prod.mk.injEq] at h
      have hnot : ¬ p.Passes := fun hpasses => absurd hquorum (not_lt.2 hpasses.2.1)
      rw [Proposal.settled, if_neg hnot, h.1]
    · simp only [bind_eq_ok, okOr_eq_ok, checkedMul_eq_some] at h
      obtain ⟨_, ⟨rfl, -⟩, _, ⟨rfl, -⟩, h⟩ := h
      split_ifs at h with hpass
      · rw [pure_eq_ok, Prod.mk.injEq] at h
        have hpasses : p.Passes := ⟨not_le.1 hsupply, not_lt.1 hquorum, hpass⟩
        rw [Proposal.settled, if_pos hpasses, h.1]
      · rw [pure_eq_ok, Prod.mk.injEq] at h
        have hnot : ¬ p.Passes := fun hpasses => hpass hpasses.2.2
        rw [Proposal.settled, if_neg hnot, h.1]

theorem Proposal.settled_status : p.settled.status = .Passed ∧ p.Passes ∨
    p.settled.status = .Rejected ∧ ¬ p.Passes := by
  unfold Proposal.settled
  split_ifs with hpasses
  · exact .inl ⟨rfl, hpasses⟩
  · exact .inr ⟨rfl, hpasses⟩

end Outcome

/-! ## How a proposal changes -/

/-- The proposal after the lazy finalization. -/
inductive Settles (s : State W) (p : Proposal) : Proposal → Prop
  | same (hopen : p.status = .Active → s.now < p.votingEndsAt) : Settles s p p
  | rejected (hactive : p.status = .Active) (hended : p.votingEndsAt ≤ s.now) (hnot : ¬ p.Passes) :
      Settles s p { p with status := .Rejected }
  | passed (hactive : p.status = .Active) (hended : p.votingEndsAt ≤ s.now) (hpasses : p.Passes) :
      Settles s p { p with status := .Passed, passedAt := p.votingEndsAt }
  | lapsed (hactive : p.status = .Active) (hended : p.votingEndsAt ≤ s.now) (hpasses : p.Passes) :
      Settles s p { p with status := .Expired, passedAt := p.votingEndsAt }
  | expired (hpassed : p.status = .Passed) : Settles s p { p with status := .Expired }

inductive Move (h : Host W) (s : State W) (tx : Tx W) (id : ℕ) (p : Proposal) : Proposal → Prop
  | voted {voter : Address} {inFavor : Bool} {weight : ℤ} {p' : Proposal}
      (hcall : tx.call = .vote id voter inFavor) (hactive : p.status = .Active)
      (hopen : s.now < p.votingEndsAt) (hfresh : s.voted id voter = false)
      (hweight : h.balanceAt s.world s.settings.config.shareToken voter p.createdAt = some weight)
      (hpos : 0 < weight) (hcount : p.countVote inFavor weight = .ok p') : Move h s tx id p p'
  | settled {p' : Proposal} (hcall : tx.call = .finalizeProposalIfDue id) (hsettles : Settles s p p') :
      Move h s tx id p p'
  | executed {p' : Proposal} (hcall : tx.call = .executeProposal id)
      (hfinal : p.status = .Active ∧ p.Passes ∧ p' = { p with passedAt := p.votingEndsAt } ∨
        p.status = .Passed ∧ p' = p)
      (hended : p.votingEndsAt < s.now)
      (hdelay : min (p.votingEndsAt + s.settings.config.executionDelaySecs) (2 ^ 64 - 1) ≤ s.now)
      (htimely : s.now ≤ min (p'.passedAt + s.settings.executionExpirySecs) (2 ^ 64 - 1)) :
      Move h s tx id p { p' with status := .Executed }
  | cancelled {caller : Address} {p' : Proposal} (hcall : tx.call = .cancelProposal id caller)
      (hauth : caller ∈ tx.signers) (hsettles : Settles s p p')
      (hcaller : p'.status = .Active ∧
          (caller = p.proposer ∨ caller = s.settings.config.admin) ∨
        p'.status = .Passed ∧ caller = s.settings.config.admin) :
      Move h s tx id p { p' with status := .Cancelled }

def Call.votedAfter (voted : ℕ → Address → Bool) : Call W → ℕ → Address → Bool
  | .vote id voter _ => Function.update voted id (Function.update (voted id) voter true)
  | _ => voted

/-- The calls that write a proposal whenever they succeed. -/
def Call.decides : Call W → Bool
  | .createProposal .. | .vote .. | .executeProposal .. | .cancelProposal .. => true
  | _ => false

/-- The fields that no proposal has a part in stay. -/
structure Frame (s s' : State W) : Prop where
  now : s'.now = s.now
  settings : s'.settings = s.settings

inductive Effect (h : Host W) (s : State W) (tx : Tx W) (s' : State W) : Prop
  | created {p : Proposal} {proposer : Address} {description : Invoices.Bytes}
      {targetContract : Address} {action : GovernanceAction} {category : ProposalCategory}
      {supply : ℤ}
      (hcall : tx.call = .createProposal proposer description targetContract action category)
      (hsupply : h.totalSupply s.world s.settings.config.shareToken = some supply)
      (hpos : 0 < supply)
      (hnew : p = s.newProposal (s.proposalCount + 1) proposer description targetContract action
        category supply)
      (hstate : s' = { s.setProposal (s.proposalCount + 1) p with
        proposalCount := s.proposalCount + 1 })
  | moved {id : ℕ} {p p' : Proposal} (hget : s.proposal id = some p)
      (hmove : Move h s tx id p p')
      (hproposal : s'.proposal = Function.update s.proposal id (some p'))
      (hcount : s'.proposalCount = s.proposalCount)
      (hvoted : s'.voted = tx.call.votedAfter s.voted) (hframe : Frame s s')
  | kept (hquiet : tx.call.decides = false) (hproposal : s'.proposal = s.proposal)
      (hcount : s'.proposalCount = s.proposalCount)
      (hvoted : s'.voted = s.voted) (hnow : s.now ≤ s'.now)
      (hadmin : s'.settings.config.admin = s.settings.config.admin)
      (htoken : s'.settings.config.shareToken = s.settings.config.shareToken)

section Calls

variable {h : Host W} {signers : List Address} {s s' : State W} {p p' : Proposal} {id : ℕ}

@[simp]
theorem requireAuth_eq_ok {a : Address} {u : Unit} : requireAuth signers a = .ok u ↔ a ∈ signers :=
  require_eq_ok _ _ _

theorem State.markExpiredIfDue_cases (s : State W) (p : Proposal) :
    (s.markExpiredIfDue p = ({ p with status := .Expired }, true) ∧ p.status = .Passed ∧
      min (p.passedAt + s.settings.executionExpirySecs) (2 ^ 64 - 1) < s.now) ∨
    ((s.markExpiredIfDue p).1 = p ∧
      ((s.markExpiredIfDue p).2 = true ↔ p.status = .Expired) ∧ (p.status = .Passed →
      s.now ≤ min (p.passedAt + s.settings.executionExpirySecs) (2 ^ 64 - 1))) := by
  unfold State.markExpiredIfDue
  split_ifs with hdue
  · exact .inl ⟨rfl, hdue⟩
  · refine .inr ⟨rfl, by simp, fun hpassed => ?_⟩
    rw [not_and, not_lt] at hdue
    exact hdue hpassed

theorem State.finalizeIfDue_settles {changed : Bool}
    (hx : s.finalizeIfDue p = .ok (p', changed)) : Settles s p p' := by
  unfold State.finalizeIfDue at hx
  split_ifs at hx with hdue
  · obtain ⟨hactive, hended⟩ := hdue
    simp only [bind_eq_ok, Prod.exists, pure_eq_ok, Prod.mk.injEq] at hx
    obtain ⟨q, _, hfinal, rfl, -⟩ := hx
    rcases finalizeProposal_eq_ok hfinal with ⟨hnot, -⟩ | ⟨-, rfl⟩
    · exact absurd hactive hnot
    · unfold Proposal.settled
      split_ifs with hpasses
      · rcases s.markExpiredIfDue_cases
          { p with status := .Passed, passedAt := p.votingEndsAt } with ⟨hmark, -⟩ | ⟨hmark, -⟩
        · rw [hmark]
          exact .lapsed hactive hended hpasses
        · rw [hmark]
          exact .passed hactive hended hpasses
      · rcases s.markExpiredIfDue_cases { p with status := .Rejected } with ⟨-, hpassed, -⟩ | ⟨hmark, -⟩
        · cases hpassed
        · rw [hmark]
          exact .rejected hactive hended hpasses
  · have hopen : p.status = .Active → s.now < p.votingEndsAt := by
      rw [not_and, not_le] at hdue
      exact hdue
    rw [pure_eq_ok] at hx
    rcases s.markExpiredIfDue_cases p with ⟨hmark, hpassed, -⟩ | ⟨hmark, -⟩
    · rw [hmark, Prod.mk.injEq] at hx
      exact hx.1 ▸ .expired hpassed
    · rw [hx] at hmark
      have hsame : p' = p := hmark
      rw [hsame]
      exact .same hopen

theorem State.loadProposal_eq_ok : s.loadProposal id = .ok p ↔ s.proposal id = some p :=
  okOr_eq_ok _ _ _

theorem vote_effect {voter : Address} {inFavor : Bool}
    (hx : vote h signers s id voter inFavor = .ok s') :
    Effect h s ⟨signers, .vote id voter inFavor⟩ s' := by
  simp only [vote, bind_eq_ok, exists_unit, requireAuth_eq_ok, State.loadProposal_eq_ok,
    require_eq_ok] at hx
  obtain ⟨-, -, p, hget, hactive, hfresh, hx⟩ := hx
  split_ifs at hx with hended
  · simp only [bind_eq_ok, reduceCtorEq, and_false, exists_false] at hx
  · simp only [bind_eq_ok, exists_unit, require_eq_ok, State.proposalWeight, okOr_eq_ok,
      State.appendVoteRecord, fitU_eq_some, pure_eq_ok] at hx
    obtain ⟨weight, hweight, hpos, p', hcount, _, ⟨_, -, rfl⟩, rfl⟩ := hx
    exact .moved hget (.voted rfl hactive (not_le.1 hended) hfresh hweight hpos hcount) rfl rfl rfl
      ⟨rfl, rfl⟩

theorem executeProposal_effect (hx : executeProposal h s id = .ok s') :
    Effect h s ⟨signers, .executeProposal id⟩ s' := by
  simp only [executeProposal, bind_eq_ok, exists_unit, State.loadProposal_eq_ok, require_eq_ok,
    Prod.exists] at hx
  obtain ⟨-, p, hget, -, hended, hdelay, finalized, failure, hfinal, hx⟩ := hx
  cases failure with
  | some e => cases hx
  | none =>
    simp only [bind_eq_ok, exists_unit, require_eq_ok, okOr_eq_ok, pure_eq_ok] at hx
    obtain ⟨hpassed, hunexpired, world, -, rfl⟩ := hx
    have htimely : s.now ≤
        min (finalized.passedAt + s.settings.executionExpirySecs) (2 ^ 64 - 1) := by
      rcases s.markExpiredIfDue_cases finalized with ⟨hmark, -⟩ | ⟨-, -, htimely⟩
      · rw [hmark] at hunexpired
        cases hunexpired
      · exact htimely hpassed
    rcases finalizeProposal_eq_ok hfinal with ⟨-, rfl⟩ | ⟨hactive, rfl⟩
    · exact .moved hget (.executed rfl (.inr ⟨hpassed, rfl⟩) hended hdelay htimely) rfl rfl rfl
        ⟨rfl, rfl⟩
    · rcases Proposal.settled_status (p := p) with ⟨-, hpasses⟩ | ⟨hrejected, -⟩
      · have hsettled : p.settled =
            { p with status := .Passed, passedAt := p.votingEndsAt } := if_pos hpasses
        rw [hsettled] at htimely ⊢
        have hmove : Move h s ⟨signers, .executeProposal id⟩ id p _ :=
          .executed rfl (.inl ⟨hactive, hpasses, rfl⟩) hended hdelay htimely
        exact .moved hget hmove rfl rfl rfl ⟨rfl, rfl⟩
      · rw [hrejected] at hpassed
        cases hpassed

theorem Settles.proposer (hsettles : Settles s p p') : p'.proposer = p.proposer := by
  cases hsettles <;> rfl

theorem cancelProposal_eq_ok {caller : Address} (hx : cancelProposal signers s id caller = .ok s') :
    ∃ p p', (caller ∈ signers ∧ s.proposal id = some p ∧ Settles s p p' ∧
      (p'.status = .Active ∧ (caller = p.proposer ∨ caller = s.settings.config.admin) ∨
        p'.status = .Passed ∧ caller = s.settings.config.admin)) ∧
      s' = s.setProposal id { p' with status := .Cancelled } := by
  simp only [cancelProposal, bind_eq_ok, exists_unit, requireAuth_eq_ok, State.loadProposal_eq_ok,
    Prod.exists] at hx
  obtain ⟨hauth, -, p, hget, p', changed, hfinal, hx⟩ := hx
  have hsettles := State.finalizeIfDue_settles hfinal
  refine ⟨p, p', ?_⟩
  rw [← hsettles.proposer]
  cases hstatus : p'.status with
  | Active =>
    simp only [hstatus, bind_eq_ok, exists_unit, require_eq_ok, pure_eq_ok] at hx
    exact ⟨⟨hauth, hget, hsettles, .inl ⟨rfl, hx.1⟩⟩, hx.2.symm⟩
  | Passed =>
    simp only [hstatus, bind_eq_ok, exists_unit, require_eq_ok, pure_eq_ok] at hx
    exact ⟨⟨hauth, hget, hsettles, .inr ⟨rfl, hx.1⟩⟩, hx.2.symm⟩
  | Rejected | Executed | Cancelled | Expired =>
    simp only [hstatus, bind_eq_ok, reduceCtorEq, false_and, exists_false] at hx

theorem cancelProposal_effect {caller : Address} (hx : cancelProposal signers s id caller = .ok s') :
    Effect h s ⟨signers, .cancelProposal id caller⟩ s' := by
  obtain ⟨p, p', ⟨hauth, hget, hsettles, hcaller⟩, rfl⟩ := cancelProposal_eq_ok hx
  exact .moved hget (.cancelled rfl hauth hsettles hcaller) rfl rfl rfl ⟨rfl, rfl⟩

theorem finalizeProposalIfDue_effect (hx : finalizeProposalIfDue s id = .ok s') :
    Effect h s ⟨signers, .finalizeProposalIfDue id⟩ s' := by
  simp only [finalizeProposalIfDue, bind_eq_ok, State.loadProposal_eq_ok, Prod.exists,
    pure_eq_ok] at hx
  obtain ⟨p, hget, p', changed, hfinal, rfl⟩ := hx
  cases changed with
  | false => exact .kept rfl rfl rfl rfl le_rfl rfl rfl
  | true =>
    exact .moved hget (.settled rfl (State.finalizeIfDue_settles hfinal)) rfl rfl rfl ⟨rfl, rfl⟩

theorem createProposal_effect {proposer : Address} {description : Invoices.Bytes}
    {targetContract : Address} {action : GovernanceAction} {category : ProposalCategory} {newId : ℕ}
    (hx : createProposal h signers s proposer description targetContract action category =
      .ok (s', newId)) :
    Effect h s ⟨signers, .createProposal proposer description targetContract action category⟩ s' := by
  simp only [createProposal, bind_eq_ok, exists_unit, requireAuth_eq_ok, require_eq_ok, okOr_eq_ok,
    fitU_eq_some, pure_eq_ok, Prod.mk.injEq] at hx
  obtain ⟨-, -, balance, -, -, supply, hsupply, hpos, _, ⟨rfl, -⟩, rfl, -⟩ := hx
  exact .created rfl hsupply hpos.1 rfl rfl

theorem applySetting_keeps {settings settings' : Settings} {setting : Setting}
    (hx : applySetting signers settings setting = .ok settings') :
    settings'.config.admin = settings.config.admin ∧
      settings'.config.shareToken = settings.config.shareToken := by
  cases setting with
  | setCategoryQuorum caller category quorumBps =>
    simp only [applySetting, setCategoryQuorum, bind_eq_ok, exists_unit, pure_eq_ok] at hx
    obtain ⟨-, -, -, -, rfl⟩ := hx
    cases category <;> exact ⟨rfl, rfl⟩
  | setCategoryQuorumViaAc accessControl category quorumBps =>
    simp only [applySetting, setCategoryQuorumViaAc, bind_eq_ok, exists_unit, pure_eq_ok] at hx
    obtain ⟨-, -, -, -, rfl⟩ := hx
    cases category <;> exact ⟨rfl, rfl⟩
  | _ =>
    simp only [applySetting, setVotingPeriod, setExecutionExpiry, setExecutionDelay,
      setExecutionDelayViaAc, setPaused, setGovernanceAddress, updateConfig, updateConfigViaAc,
      updateMinShareBalance, updateMinShareBalanceViaAc, setAccessControl, setAccessControlViaAc,
      bind_eq_ok, exists_unit, pure_eq_ok] at hx
    obtain ⟨-, -, -, -, rfl⟩ := hx
    exact ⟨rfl, rfl⟩

theorem exec_outside {tx : Tx W} (hx : exec h s tx = .ok s') :
    (s'.world = s.world ∨ (∃ target action, h.execute s.world target action = some s'.world) ∨
      tx.call = .elsewhere s'.world) ∧ (s'.now = s.now ∨ tx.call = .advance s'.now) := by
  obtain ⟨signers, call⟩ := tx
  cases call with
  | createProposal proposer description targetContract action category =>
    obtain ⟨⟨t, newId⟩, hcreate, rfl⟩ := (map_eq_ok _ _ _).1 hx
    simp only [createProposal, bind_eq_ok, exists_unit, pure_eq_ok, Prod.mk.injEq] at hcreate
    obtain ⟨-, -, _, -, -, _, -, -, _, -, rfl, -⟩ := hcreate
    exact ⟨.inl rfl, .inl rfl⟩
  | vote proposalId voter inFavor =>
    simp only [exec, vote, bind_eq_ok, exists_unit] at hx
    obtain ⟨-, -, p, -, -, -, hx⟩ := hx
    split_ifs at hx
    · simp only [bind_eq_ok, reduceCtorEq, and_false, exists_false] at hx
    · simp only [bind_eq_ok, exists_unit, State.appendVoteRecord, pure_eq_ok] at hx
      obtain ⟨_, -, -, _, -, _, ⟨_, -, rfl⟩, rfl⟩ := hx
      exact ⟨.inl rfl, .inl rfl⟩
  | executeProposal proposalId =>
    simp only [exec, executeProposal, bind_eq_ok, exists_unit, Prod.exists] at hx
    obtain ⟨-, p, -, -, -, -, finalized, failure, -, hx⟩ := hx
    cases failure with
    | some e => cases hx
    | none =>
      simp only [bind_eq_ok, exists_unit, okOr_eq_ok, pure_eq_ok] at hx
      obtain ⟨-, -, world, hworld, rfl⟩ := hx
      exact ⟨.inr (.inl ⟨_, _, hworld⟩), .inl rfl⟩
  | cancelProposal proposalId caller =>
    obtain ⟨p, p', -, hstate⟩ := cancelProposal_eq_ok hx
    rw [hstate]
    exact ⟨.inl rfl, .inl rfl⟩
  | finalizeProposalIfDue proposalId =>
    simp only [exec, finalizeProposalIfDue, bind_eq_ok, Prod.exists, pure_eq_ok] at hx
    obtain ⟨p, -, p', changed, -, rfl⟩ := hx
    cases changed <;> exact ⟨.inl rfl, .inl rfl⟩
  | set setting =>
    obtain ⟨settings, -, rfl⟩ := (map_eq_ok _ _ _).1 hx
    exact ⟨.inl rfl, .inl rfl⟩
  | advance now =>
    simp only [exec, advance, bind_eq_ok, exists_unit, pure_eq_ok] at hx
    obtain ⟨-, rfl⟩ := hx
    exact ⟨.inl rfl, .inr rfl⟩
  | elsewhere world =>
    obtain rfl := Except.ok.inj hx
    exact ⟨.inr (.inr rfl), .inl rfl⟩

theorem exec_effect {tx : Tx W} (hx : exec h s tx = .ok s') : Effect h s tx s' := by
  obtain ⟨signers, call⟩ := tx
  cases call with
  | createProposal proposer description targetContract action category =>
    obtain ⟨⟨t, newId⟩, hcreate, rfl⟩ := (map_eq_ok _ _ _).1 hx
    exact createProposal_effect hcreate
  | vote proposalId voter inFavor => exact vote_effect hx
  | executeProposal proposalId => exact executeProposal_effect hx
  | cancelProposal proposalId caller => exact cancelProposal_effect hx
  | finalizeProposalIfDue proposalId => exact finalizeProposalIfDue_effect hx
  | set setting =>
    obtain ⟨settings, hset, rfl⟩ := (map_eq_ok _ _ _).1 hx
    obtain ⟨hadmin, htoken⟩ := applySetting_keeps hset
    exact .kept rfl rfl rfl rfl le_rfl hadmin htoken
  | advance now =>
    simp only [exec, advance, bind_eq_ok, exists_unit, require_eq_ok, pure_eq_ok] at hx
    obtain ⟨hclock, rfl⟩ := hx
    exact .kept rfl rfl rfl rfl hclock.1 rfl rfl
  | elsewhere world =>
    obtain rfl := Except.ok.inj hx
    exact .kept rfl rfl rfl rfl le_rfl rfl rfl

end Calls

end Astera.Governance
