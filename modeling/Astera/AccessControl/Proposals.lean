import Astera.AccessControl.System

/-!
# The proposals of the access control contract

What holds of the stored proposals in every state of every run, and how an executed action changes
the configuration that a proposal is measured against.
-/

namespace Astera.AccessControl

open Fallible Machine Transition

variable {W : Type} {h : Host W} {s s' : State W}

/-- Ids are given once, nobody approves twice, and the role of a proposal is configured. -/
structure Sound (s : State W) : Prop where
  known : ∀ id proposal, s.proposals.get id = some proposal → id < s.nextProposalId
  nodup : ∀ id proposal, s.proposals.get id = some proposal → proposal.approvals.Nodup
  configured : ∀ id proposal, s.proposals.get id = some proposal →
    ∃ config, s.roleConfig proposal.role = some config

theorem initializeAccessControl_eq_ok {signers : List Address} {now : ℕ} {world : W}
    {superAdminSigners : List Address} {threshold expirySecs timelockSecs : ℕ}
    (hinit : initializeAccessControl signers now world superAdminSigners threshold expirySecs
      timelockSecs = .ok s) :
    s.proposals = ∅ ∧ s.nextProposalId = 0 ∧ s.proposalTimelockSecs = timelockSecs := by
  simp only [initializeAccessControl, bind_eq_ok, exists_unit, require_eq_ok, pure_eq_ok] at hinit
  obtain ⟨-, -, -, rfl⟩ := hinit
  exact ⟨rfl, rfl, rfl⟩

theorem sound_initial (hproposals : s.proposals = ∅) : Sound s := by
  constructor <;> intro id proposal hget <;> simp [hproposals] at hget

def Call.executes : Call W → Option ℕ
  | .executeAction _ proposalId => some proposalId
  | _ => none

/-- The signer that an action takes out of a role. -/
def ActionPayload.removal : ActionPayload → Option (Role × Address)
  | .RemoveSigner role address => some (role, address)
  | _ => none

def ActionPayload.newThreshold : ActionPayload → Option (Role × ℕ)
  | .SetThreshold role threshold => some (role, threshold)
  | _ => none

/-- What an executed action does to the configuration of a role: only a removal takes a signer out,
and only a change of the threshold writes the threshold. -/
theorem Reconfigures.config {configs configs' : Role → Option MultiSigConfig} {action : ActionPayload}
    (hreconfigures : Reconfigures configs action configs') {role : Role} {config : MultiSigConfig}
    (hconfig : configs role = some config) :
    ∃ config', configs' role = some config' ∧
      (∀ a ∈ config.signers, a ∈ config'.signers ∨ action = .RemoveSigner role a) ∧
      (config'.threshold = config.threshold ∨ action = .SetThreshold role config'.threshold) := by
  cases hreconfigures with
  | @added role' address config' hold hnew hroom =>
    by_cases hrole : role = role'
    · subst hrole
      rw [hconfig] at hold
      obtain rfl : config = config' := hold
      refine ⟨_, Function.update_self _ _ _, fun a ha => .inl ?_, .inl rfl⟩
      exact List.mem_append_left _ ha
    · refine ⟨config, ?_, fun a ha => .inl ha, .inl rfl⟩
      rw [Function.update_of_ne hrole, hconfig]
  | @removed role' address config' hold hmem hrest =>
    by_cases hrole : role = role'
    · subst hrole
      obtain rfl : config = config' := Option.some.inj (hconfig.symm.trans hold)
      refine ⟨_, Function.update_self _ _ _, fun a ha => ?_, .inl rfl⟩
      by_cases hremoved : a = address
      · exact .inr (by rw [hremoved])
      · exact .inl ((List.mem_erase_of_ne hremoved).2 ha)
    · refine ⟨config, ?_, fun a ha => .inl ha, .inl rfl⟩
      rw [Function.update_of_ne hrole, hconfig]
  | @threshold role' threshold config' hold hpos hle hnodup =>
    by_cases hrole : role = role'
    · subst hrole
      rw [hconfig] at hold
      obtain rfl : config = config' := hold
      exact ⟨_, Function.update_self _ _ _, fun a ha => .inl ha, .inr rfl⟩
    · refine ⟨config, ?_, fun a ha => .inl ha, .inl rfl⟩
      rw [Function.update_of_ne hrole, hconfig]
  | kept => exact ⟨config, hconfig, fun a ha => .inl ha, .inl rfl⟩

theorem Sound.write (hs : Sound s) {id : ℕ} {proposal : Proposal}
    (hproposals : s'.proposals = s.proposals.set id proposal)
    (hnext : s.nextProposalId ≤ s'.nextProposalId) (hid : id < s'.nextProposalId)
    (hnodup : proposal.approvals.Nodup)
    (hconfigured : ∃ config, s.roleConfig proposal.role = some config)
    (hconfigs : ∀ role config, s.roleConfig role = some config →
      ∃ config', s'.roleConfig role = some config') : Sound s' := by
  constructor
  · rw [hproposals]
    exact Store.forall_get_set (fun i p hget => (hs.known i p hget).trans_le hnext) hid
  · rw [hproposals]
    exact Store.forall_get_set hs.nodup hnodup
  · rw [hproposals]
    refine Store.forall_get_set (fun i p hget => ?_) ?_
    · obtain ⟨config, hconfig⟩ := hs.configured i p hget
      exact hconfigs p.role config hconfig
    · obtain ⟨config, hconfig⟩ := hconfigured
      exact hconfigs proposal.role config hconfig

theorem approved_approvals (s : State W) (proposal : Proposal) (signer : Address) (threshold : ℕ) :
    (s.approved proposal signer threshold).approvals = proposal.approvals ++ [signer] := by
  unfold State.approved
  split_ifs <;> rfl

theorem approved_role (s : State W) (proposal : Proposal) (signer : Address) (threshold : ℕ) :
    (s.approved proposal signer threshold).role = proposal.role := by
  unfold State.approved
  split_ifs <;> rfl

theorem exec_sound {tx : Tx W} (hs : Sound s) (hx : exec h s tx = .ok s') : Sound s' := by
  cases exec_effect hx with
  | @raised role proposer target action config hcall hauthorized hcoherent hconfig =>
    exact hs.write rfl (Nat.le_succ _) (Nat.lt_succ_self _) (List.nodup_singleton _)
      ⟨config, hconfig⟩ fun _ config hconfig => ⟨config, hconfig⟩
  | @approved signer id proposal config hcall hget hopen hfresh hconfig hsigner hnew =>
    refine hs.write rfl le_rfl (hs.known id proposal hget) ?_ ?_
      fun _ config hconfig => ⟨config, hconfig⟩
    · rw [approved_approvals]
      exact (hs.nodup id proposal hget).append (List.nodup_singleton _)
        (List.disjoint_singleton.2 hnew)
    · rw [approved_role]
      exact ⟨config, hconfig⟩
  | @revoked signer id proposal config hcall hget hopen hmem hconfig =>
    exact hs.write rfl le_rfl (hs.known id proposal hget) ((hs.nodup id proposal hget).erase _)
      ⟨config, hconfig⟩ fun _ config hconfig => ⟨config, hconfig⟩
  | @rejected signer id proposal hcall hget hopen =>
    exact hs.write rfl le_rfl (hs.known id proposal hget) (hs.nodup id proposal hget)
      (hs.configured id proposal hget) fun _ config hconfig => ⟨config, hconfig⟩
  | @executed caller id proposal world roleConfig secs hcall hexec hreconfigures =>
    refine hs.write rfl le_rfl (hs.known id proposal hexec.get) (hs.nodup id proposal hexec.get)
      (hs.configured id proposal hexec.get) fun role config hconfig => ?_
    obtain ⟨config', hconfig', -⟩ := hreconfigures.config hconfig
    exact ⟨config', hconfig'⟩
  | pruned =>
    constructor <;> intro i p hget
    · exact hs.known i p (Store.get_of_get_remove hget)
    · exact hs.nodup i p (Store.get_of_get_remove hget)
    · exact hs.configured i p (Store.get_of_get_remove hget)
  | advanced | elsewhere => exact ⟨hs.known, hs.nodup, hs.configured⟩

/-- The stored proposals that pass a filter, in the order of their ids. -/
def State.matching (s : State W) (filter : Option ProposalStatus) : List Proposal :=
  (List.range s.nextProposalId).filterMap fun id =>
    (getProposal s id).filter (Proposal.passes filter)

section Steps

variable {h : Host W} {s s' : State W} {tx : Tx W}

end Steps

end Astera.AccessControl
