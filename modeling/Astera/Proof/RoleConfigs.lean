import Astera.AccessControl.Proposals

/-!
# The configurations of the roles

No order of executed proposals leaves a role with more required approvals than signers, takes a
threshold back to zero, or lets a role other than `SuperAdmin` change a configuration or the window.
-/

namespace Astera.AccessControl

open Fallible Machine Transition

variable {W : Type} {h : Host W} {s s' : State W}

/-- The signers are distinct and few enough, and there are enough of them. -/
structure MultiSigConfig.Valid (config : MultiSigConfig) : Prop where
  nodup : config.signers.Nodup
  room : config.signers.length ≤ maxSignersPerRole
  enough : config.threshold ≤ config.signers.length

def AllValid (configs : Role → Option MultiSigConfig) : Prop :=
  ∀ role config, configs role = some config → config.Valid

theorem AllValid.getD {configs : Role → Option MultiSigConfig} (hall : AllValid configs)
    (role : Role) : ((configs role).getD ⟨[], 0⟩).Valid := by
  cases hconfig : configs role with
  | some config => exact hall role config hconfig
  | none => exact ⟨List.nodup_nil, Nat.zero_le _, le_rfl⟩

theorem AllValid.update {configs : Role → Option MultiSigConfig} (hall : AllValid configs)
    {role : Role} {config : MultiSigConfig} (hvalid : config.Valid) :
    AllValid (Function.update configs role (some config)) := by
  intro role' config' hconfig
  by_cases hrole : role' = role
  · rw [hrole, Function.update_self] at hconfig
    exact Option.some.inj hconfig ▸ hvalid
  · rw [Function.update_of_ne hrole] at hconfig
    exact hall role' config' hconfig

theorem Reconfigures.allValid {configs configs' : Role → Option MultiSigConfig}
    {action : ActionPayload} (hreconfigures : Reconfigures configs action configs')
    (hall : AllValid configs) : AllValid configs' := by
  cases hreconfigures with
  | @added role address config hconfig hnew hroom =>
    have hold := hconfig ▸ hall.getD role
    refine hall.update ⟨?_, ?_, ?_⟩
    · exact hold.nodup.append (List.nodup_singleton _) (List.disjoint_singleton.2 hnew)
    · rw [List.length_append, List.length_singleton]
      exact hroom
    · rw [List.length_append]
      exact hold.enough.trans (Nat.le_add_right _ _)
  | @removed role address config hconfig hmem hrest =>
    have hold := hall role config hconfig
    refine hall.update ⟨hold.nodup.erase _, ?_, hrest⟩
    exact (List.length_erase_le).trans hold.room
  | @threshold role threshold config hconfig hpos hle hnodup =>
    have hold := hconfig ▸ hall.getD role
    exact hall.update ⟨hnodup, hold.room, hle⟩
  | kept => exact hall

theorem Reconfigures.threshold_pos {configs configs' : Role → Option MultiSigConfig}
    {action : ActionPayload} (hreconfigures : Reconfigures configs action configs') {role : Role}
    (hpos : ∃ config, configs role = some config ∧ 0 < config.threshold) :
    ∃ config, configs' role = some config ∧ 0 < config.threshold := by
  obtain ⟨config, hconfig, hpos⟩ := hpos
  cases hreconfigures with
  | @added role' address config' hold =>
    by_cases hrole : role = role'
    · subst hrole
      rw [hconfig] at hold
      obtain rfl : config = config' := hold
      exact ⟨_, Function.update_self _ _ _, hpos⟩
    · exact ⟨config, by rw [Function.update_of_ne hrole, hconfig], hpos⟩
  | @removed role' address config' hold =>
    by_cases hrole : role = role'
    · subst hrole
      obtain rfl : config = config' := Option.some.inj (hconfig.symm.trans hold)
      exact ⟨_, Function.update_self _ _ _, hpos⟩
    · exact ⟨config, by rw [Function.update_of_ne hrole, hconfig], hpos⟩
  | @threshold role' threshold config' hold hpos' =>
    by_cases hrole : role = role'
    · subst hrole
      exact ⟨_, Function.update_self _ _ _, hpos'⟩
    · exact ⟨config, by rw [Function.update_of_ne hrole, hconfig], hpos⟩
  | kept => exact ⟨config, hconfig, hpos⟩

/-! ## Who changes a configuration -/

theorem exec_configs {tx : Tx W} (hx : exec h s tx = .ok s') :
    (s'.roleConfig = s.roleConfig ∧ s'.proposalExpirySecs = s.proposalExpirySecs) ∨
      ∃ caller id proposal, tx.call = .executeAction caller id ∧
        s.proposals.get id = some proposal ∧ proposal.target = h.self := by
  obtain ⟨signers, call⟩ := tx
  cases call with
  | executeAction caller id =>
    simp only [exec, executeAction, bind_eq_ok, exists_unit, loadProposal_eq_ok] at hx
    obtain ⟨-, proposal, hget, -, -, -, hx⟩ := hx
    split_ifs at hx with hself
    · exact .inr ⟨caller, id, proposal, rfl, hget, hself⟩
    · obtain ⟨world, rfl⟩ := executeCrossContract_eq_ok hx
      exact .inl ⟨rfl, rfl⟩
  | _ =>
    refine .inl ?_
    cases exec_effect hx with
    | executed hcall => cases hcall
    | raised | approved | revoked | rejected | pruned | advanced | elsewhere => exact ⟨rfl, rfl⟩

abbrev RaisedUnder := ℕ → Option Role

def noteRaised (s : State W) (tx : Tx W) (_ : State W) (raised : RaisedUnder) : RaisedUnder :=
  match tx.call with
  | .proposeAction role _ _ _ => Function.update raised s.nextProposalId (some role)
  | _ => raised

/-- The configurations are valid, `SuperAdmin` can decide, and a stored proposal bears the role it was
raised under, which is `SuperAdmin` when it is about this contract. -/
structure Governed (h : Host W) (x : State W × RaisedUnder) : Prop where
  sound : Sound x.1
  allValid : AllValid x.1.roleConfig
  superAdmin : ∃ config, x.1.roleConfig .SuperAdmin = some config ∧ 0 < config.threshold
  raised : ∀ id proposal, x.1.proposals.get id = some proposal → x.2 id = some proposal.role
  own : ∀ id proposal, x.1.proposals.get id = some proposal → proposal.target = h.self →
    proposal.role = .SuperAdmin

theorem Governed.write {raised : RaisedUnder} (hx : Governed h (s, raised)) {id : ℕ}
    {proposal proposal' : Proposal} (hsound : Sound s')
    (hconfigs : AllValid s'.roleConfig)
    (hsuper : ∃ config, s'.roleConfig .SuperAdmin = some config ∧ 0 < config.threshold)
    (hget : s.proposals.get id = some proposal)
    (hproposals : s'.proposals = s.proposals.set id proposal')
    (hrole : proposal'.role = proposal.role) (htarget : proposal'.target = proposal.target) :
    Governed h (s', raised) := by
  refine ⟨hsound, hconfigs, hsuper, ?_, ?_⟩ <;> dsimp only <;> rw [hproposals]
  · refine Store.forall_get_set hx.raised ?_
    rw [hrole]
    exact hx.raised id proposal hget
  · refine Store.forall_get_set hx.own fun hself => ?_
    rw [hrole]
    exact hx.own id proposal hget (htarget ▸ hself)

theorem approved_target (s : State W) (proposal : Proposal) (signer : Address) (threshold : ℕ) :
    (s.approved proposal signer threshold).target = proposal.target := by
  unfold State.approved
  split_ifs <;> rfl

theorem governed_step {x y : State W × RaisedUnder} {tx : Tx W} (hx : Governed h x)
    (hstep : track (exec h) noteRaised x tx = .ok y) : Governed h y := by
  obtain ⟨s, raised⟩ := x
  obtain ⟨s', raised'⟩ := y
  rw [track_eq_ok] at hstep
  obtain ⟨hexec, hnote⟩ := hstep
  dsimp only at hexec hnote
  have hsound : Sound s' := exec_sound hx.sound hexec
  cases exec_effect hexec with
  | @raised role proposer target action config hcall hauthorized hcoherent =>
    simp only [noteRaised, hcall] at hnote
    subst hnote
    refine ⟨hsound, hx.allValid, hx.superAdmin, ?_, ?_⟩
    · -- the id is new, so the roles of the stored proposals stay
      refine Store.forall_get_set (fun id proposal hget => ?_) (Function.update_self _ _ _)
      have hne : id ≠ s.nextProposalId := (hx.sound.known id proposal hget).ne
      dsimp only
      rw [Function.update_of_ne hne]
      exact hx.raised id proposal hget
    · refine Store.forall_get_set hx.own fun htarget => hauthorized.1 ?_
      unfold ActionPayload.requiresSuperAdmin
      rw [hcoherent.2 htarget, Bool.true_or]
  | @approved signer id proposal config hcall hget =>
    simp only [noteRaised, hcall] at hnote
    subst hnote
    exact hx.write hsound hx.allValid hx.superAdmin hget rfl (approved_role _ _ _ _)
      (approved_target _ _ _ _)
  | revoked hcall hget =>
    simp only [noteRaised, hcall] at hnote
    subst hnote
    exact hx.write hsound hx.allValid hx.superAdmin hget rfl rfl rfl
  | rejected hcall hget =>
    simp only [noteRaised, hcall] at hnote
    subst hnote
    exact hx.write hsound hx.allValid hx.superAdmin hget rfl rfl rfl
  | executed hcall hexecutes hreconfigures =>
    simp only [noteRaised, hcall] at hnote
    subst hnote
    exact hx.write hsound (hreconfigures.allValid hx.allValid)
      (hreconfigures.threshold_pos hx.superAdmin) hexecutes.get rfl rfl rfl
  | pruned hcall =>
    simp only [noteRaised, hcall] at hnote
    subst hnote
    exact ⟨hsound, hx.allValid, hx.superAdmin,
      fun id proposal hget => hx.raised id proposal (Store.get_of_get_remove hget),
      fun id proposal hget => hx.own id proposal (Store.get_of_get_remove hget)⟩
  | advanced hcall | elsewhere hcall =>
    simp only [noteRaised, hcall] at hnote
    subst hnote
    exact ⟨hsound, hx.allValid, hx.superAdmin, hx.raised, hx.own⟩

theorem governed_initial {signers : List Address} {now : ℕ} {world : W}
    {superAdminSigners : List Address} {threshold expirySecs timelockSecs : ℕ}
    (hinit : initializeAccessControl signers now world superAdminSigners threshold expirySecs
      timelockSecs = .ok s) : Governed h (s, fun _ => none) := by
  have hsound : Sound s := sound_initial (initializeAccessControl_eq_ok hinit).1
  simp only [initializeAccessControl, bind_eq_ok, exists_unit, validateConfig_eq_ok,
    pure_eq_ok] at hinit
  obtain ⟨⟨hroom, ⟨hpos, hle⟩, hnodup⟩, -, -, rfl⟩ := hinit
  refine ⟨hsound, fun role config hconfig => ?_, ⟨_, rfl, hpos⟩, ?_, ?_⟩
  · dsimp only at hconfig
    split_ifs at hconfig
    rw [← Option.some.inj hconfig]
    exact ⟨hnodup, hroom, hle⟩
  · exact fun id proposal hget => by simp at hget
  · exact fun id proposal hget => by simp at hget

theorem threshold_stays_pos {role : Role}
    (hpos : ∃ config, s.roleConfig role = some config ∧ 0 < config.threshold)
    (hrun : Reaches (exec h) (fun _ _ => True) s s') :
    ∃ config, s'.roleConfig role = some config ∧ 0 < config.threshold := by
  refine hrun.invariant
    (P := fun s => ∃ config, s.roleConfig role = some config ∧ 0 < config.threshold) hpos ?_
  intro s tx s' hpos _ hx
  cases exec_effect hx with
  | executed hcall hexec hreconfigures => exact hreconfigures.threshold_pos hpos
  | raised | approved | revoked | rejected | pruned | advanced | elsewhere => exact hpos

/-- In every state that executed proposals lead to, the signers of a role are distinct, at most
`maxSignersPerRole` and no fewer than its threshold; a positive threshold stays positive; `SuperAdmin`
has a positive threshold and the signers for it; and only the execution of a proposal raised under
`SuperAdmin` changes a configuration or the expiry window. -/
theorem role_configs_stay_valid {signers : List Address} {now : ℕ} {world : W}
    {superAdminSigners : List Address} {threshold expirySecs timelockSecs : ℕ} {start : State W}
    (hinit : initializeAccessControl signers now world superAdminSigners threshold expirySecs
      timelockSecs = .ok start) {s : State W} {raised : RaisedUnder}
    (hrun : Reaches (track (exec h) noteRaised) (fun _ _ => True) (start, fun _ => none)
      (s, raised)) :
    (∀ role config, s.roleConfig role = some config →
      config.signers.Nodup ∧ config.signers.length ≤ maxSignersPerRole ∧
        config.threshold ≤ config.signers.length) ∧
    (∀ role config, s.roleConfig role = some config → 0 < config.threshold →
      ∀ s', Reaches (exec h) (fun _ _ => True) s s' →
        ∃ config', s'.roleConfig role = some config' ∧ 0 < config'.threshold) ∧
    (∃ config, s.roleConfig .SuperAdmin = some config ∧ 1 ≤ config.threshold ∧
      config.threshold ≤ config.signers.length) ∧
    ∀ tx s', exec h s tx = .ok s' →
      s'.roleConfig ≠ s.roleConfig ∨ s'.proposalExpirySecs ≠ s.proposalExpirySecs →
        ∃ caller id, tx.call = .executeAction caller id ∧ raised id = some .SuperAdmin := by
  have hgoverned : Governed h (s, raised) := by
    apply hrun.invariant (P := Governed h) (governed_initial hinit)
    intro x tx y hx _ hstep
    exact governed_step hx hstep
  refine ⟨fun role config hconfig => ?_, fun role config hconfig hpos s' hlater => ?_, ?_,
    fun tx s' hx hchanged => ?_⟩
  · have hvalid := hgoverned.allValid role config hconfig
    exact ⟨hvalid.nodup, hvalid.room, hvalid.enough⟩
  · exact threshold_stays_pos ⟨config, hconfig, hpos⟩ hlater
  · obtain ⟨config, hconfig, hpos⟩ := hgoverned.superAdmin
    exact ⟨config, hconfig, hpos, (hgoverned.allValid _ config hconfig).enough⟩
  · rcases exec_configs hx with ⟨hconfigs, hsecs⟩ | ⟨caller, id, proposal, hcall, hget, hself⟩
    · rcases hchanged with hne | hne
      · exact absurd hconfigs hne
      · exact absurd hsecs hne
    · refine ⟨caller, id, hcall, ?_⟩
      have hrole : raised id = some proposal.role := hgoverned.raised id proposal hget
      rw [hrole, hgoverned.own id proposal hget hself]

/-- The super admins give the risk managers a signer and then a threshold. -/
def sampleAppointment : List (Tx Unit) :=
  [⟨[2], .proposeAction .SuperAdmin 2 1 (.AddSigner .RiskManager 7)⟩,
    ⟨[3], .approveAction 3 0⟩,
    ⟨[4], .proposeAction .SuperAdmin 4 1 (.SetThreshold .RiskManager 1)⟩,
    ⟨[2], .approveAction 2 1⟩,
    ⟨[], .advance 105⟩,
    ⟨[7], .executeAction 7 0⟩]

theorem role_configs_stay_valid_appointed :
    ∃ (s s' : State Unit) (raised : RaisedUnder),
      Reaches (track (exec sampleHost) noteRaised) (fun _ _ => True) (sampleStart, fun _ => none)
        (s, raised) ∧
      s.roleConfig .RiskManager = some ⟨[7], 0⟩ ∧
      exec sampleHost s ⟨[7], .executeAction 7 1⟩ = .ok s' ∧
      s'.roleConfig .RiskManager = some ⟨[7], 1⟩ ∧ raised 1 = some .SuperAdmin := by
  obtain ⟨s, hx, hp⟩ := exists_of_check
    (x := sampleAppointment.foldlM (exec sampleHost) sampleStart)
    (p := fun s => decide (s.roleConfig .RiskManager = some ⟨[7], 0⟩ ∧
      check (exec sampleHost s ⟨[7], .executeAction 7 1⟩)
        (fun s' => decide (s'.roleConfig .RiskManager = some ⟨[7], 1⟩)) = true))
    (by decide)
  obtain ⟨hconfig, hexecutes⟩ := of_decide_eq_true hp
  obtain ⟨s', hs', hp'⟩ := exists_of_check hexecutes
  have hconfig' := of_decide_eq_true hp'
  have hplain := reaches_of_along (show Reaches _ (fun _ _ => True) _ _ from .refl)
    (along_of_forall (fun _ _ => trivial) _ _) hx
  obtain ⟨raised, hrun⟩ := hplain.track noteRaised fun _ => none
  obtain ⟨-, -, -, honly⟩ := role_configs_stay_valid initializeAccessControl_sampleStart hrun
  have hchanged : s'.roleConfig ≠ s.roleConfig := by
    intro heq
    rw [heq, hconfig] at hconfig'
    simp at hconfig'
  obtain ⟨caller, id, hcall, hraised⟩ := honly _ s' hs' (.inl hchanged)
  obtain ⟨rfl, rfl⟩ : (7 : Address) = caller ∧ 1 = id := by simpa using hcall
  exact ⟨s, s', raised, hrun, hconfig, hs', hconfig', hraised⟩

end Astera.AccessControl
