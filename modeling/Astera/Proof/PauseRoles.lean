import Astera.AccessControl.Targets

/-!
# Who pauses a contract through access control

A role is checked against the action, while the call is found by the name of the entrypoint at the
target.  Four contracts share the name `set_paused_via_ac`, so an action meant for one of them,
aimed at another, moves the other's switch.
-/

namespace Astera.AccessControl

open Fallible Machine Transition

variable {V : Type} {d : Deployment V} {s s' : State (Neighbours V)}

/-! ## Switches and their officers -/

/-- The role that a contract's switch is left to. -/
def Pausable.officer : Pausable → Role
  | .pool => .RiskManager
  | .compliance => .ComplianceOfficer
  | .referral => .TreasuryManager
  | .oracle => .OracleManager

def Pausable.setPaused : Pausable → Bool → ActionPayload
  | .pool => .SetPaused
  | .compliance => .SetCompliancePaused
  | .referral => .SetReferralPaused
  | .oracle => .SetOracleRegistryPaused

instance : Fintype Pausable where
  elems := {.pool, .compliance, .referral, .oracle}
  complete := fun c => by cases c <;> decide

theorem Pausable.officer_injective : Function.Injective officer := by decide

@[simp]
theorem Pausable.manager_setPaused (c : Pausable) (paused : Bool) :
    (c.setPaused paused).manager = some c.officer := by
  cases c <;> rfl

/-- The position into which the call of an action puts a switch. -/
def ActionPayload.pauses (action : ActionPayload) : Option Bool :=
  action.invocation.bind Invocation.pauses

theorem ActionPayload.pauses_eq_some {action : ActionPayload} {paused : Bool} :
    action.pauses = some paused ↔ ∃ c : Pausable, action = c.setPaused paused := by
  constructor
  · intro haction
    cases action with
    | SetPaused p =>
      obtain rfl : p = paused := Option.some.inj haction
      exact ⟨.pool, rfl⟩
    | SetCompliancePaused p =>
      obtain rfl : p = paused := Option.some.inj haction
      exact ⟨.compliance, rfl⟩
    | SetReferralPaused p =>
      obtain rfl : p = paused := Option.some.inj haction
      exact ⟨.referral, rfl⟩
    | SetOracleRegistryPaused p =>
      obtain rfl : p = paused := Option.some.inj haction
      exact ⟨.oracle, rfl⟩
    | _ => cases haction
  · rintro ⟨c, rfl⟩
    cases c <;> rfl

/-- A proposal moves the switch of a contract by the action for it only, or is one of `SuperAdmin`. -/
def Proposal.MovesOwnSwitch (d : Deployment V) (w : Neighbours V) (proposal : Proposal)
    (c : Pausable) : Prop :=
  proposal.target = d.address c → ∀ paused ∈ proposal.action.pauses, paused ≠ w.paused c →
    proposal.role = .SuperAdmin ∨ proposal.action = c.setPaused paused

instance (d : Deployment V) (w : Neighbours V) (proposal : Proposal) (c : Pausable) :
    Decidable (proposal.MovesOwnSwitch d w c) :=
  inferInstanceAs (Decidable (proposal.target = d.address c →
    ∀ paused ∈ proposal.action.pauses, paused ≠ w.paused c →
      proposal.role = .SuperAdmin ∨ proposal.action = c.setPaused paused))

/-- The proposal that a call executes moves each switch of the compliance registry, the referral
registry and the oracle registry in this way. -/
def AimsOwnSwitch (d : Deployment V) (s : State (Neighbours V)) (tx : Tx (Neighbours V)) : Prop :=
  ∀ id ∈ tx.call.executes, ∀ proposal ∈ s.proposals.get id, ∀ c : Pausable, c ≠ .pool →
    proposal.MovesOwnSwitch d s.world c

instance (d : Deployment V) (s : State (Neighbours V)) (tx : Tx (Neighbours V)) :
    Decidable (AimsOwnSwitch d s tx) :=
  inferInstanceAs (Decidable (∀ id ∈ tx.call.executes, ∀ proposal ∈ s.proposals.get id,
    ∀ c : Pausable, c ≠ .pool → proposal.MovesOwnSwitch d s.world c))

/-- A call through access control moves the switch of the compliance registry, of the referral
registry or of the oracle registry only by a proposal of the officer or of `SuperAdmin`. -/
def SwitchedByOfficer (d : Deployment V) (s : State (Neighbours V)) (tx : Tx (Neighbours V)) : Prop :=
  ∀ s', exec d.host s tx = .ok s' → (∀ world, tx.call ≠ .elsewhere world) →
    ∀ c : Pausable, c ≠ .pool → s'.world.paused c ≠ s.world.paused c →
      ∃ id ∈ tx.call.executes, ∃ proposal ∈ s.proposals.get id,
        proposal.role = c.officer ∨ proposal.role = .SuperAdmin

/-- Every stored proposal is of a role that may propose its action. -/
def Authorized {W : Type} (s : State W) : Prop :=
  ∀ id proposal, s.proposals.get id = some proposal → proposal.role.canPropose proposal.action = true

theorem approved_action {W : Type} (s : State W) (proposal : Proposal) (signer : Address)
    (threshold : ℕ) : (s.approved proposal signer threshold).action = proposal.action := by
  unfold State.approved
  split_ifs <;> rfl

theorem exec_authorized {W : Type} {h : Host W} {s s' : State W} {tx : Tx W} (hs : Authorized s)
    (hx : exec h s tx = .ok s') : Authorized s' := by
  cases exec_effect hx with
  | raised hcall hauthorized => exact Store.forall_get_set hs hauthorized.2
  | @approved signer id proposal config hcall hget =>
    refine Store.forall_get_set hs ?_
    rw [approved_role, approved_action]
    exact hs id proposal hget
  | revoked hcall hget | rejected hcall hget =>
    have hold := hs _ _ hget
    exact Store.forall_get_set hs hold
  | executed hcall hexec =>
    have hold := hs _ _ hexec.get
    exact Store.forall_get_set hs hold
  | pruned => exact fun id proposal hget => hs id proposal (Store.get_of_get_remove hget)
  | advanced | elsewhere => exact hs

theorem executeAction_world {W : Type} {h : Host W} {signers : List Address} {s s' : State W}
    {caller : Address} {id : ℕ} (hx : executeAction h signers s caller id = .ok s') :
    ∃ proposal, s.proposals.get id = some proposal ∧
      (s'.world = s.world ∧ (proposal.target = h.self ∨ proposal.action.invocation = none) ∨
        ∃ invocation, proposal.action.invocation = some invocation ∧
          h.invoke s.world h.self proposal.target invocation = some s'.world) := by
  simp only [executeAction, bind_eq_ok, exists_unit, loadProposal_eq_ok] at hx
  obtain ⟨-, proposal, hget, -, -, -, hx⟩ := hx
  refine ⟨proposal, hget, ?_⟩
  split_ifs at hx with hself
  · obtain ⟨roleConfig, secs, -, rfl⟩ := executeSelfManagement_eq_ok hx
    exact .inl ⟨rfl, .inl hself⟩
  · unfold executeCrossContract at hx
    cases hinvocation : proposal.action.invocation with
    | some invocation =>
      simp only [hinvocation, bind_eq_ok, okOr_eq_ok, pure_eq_ok] at hx
      obtain ⟨world, hworld, rfl⟩ := hx
      exact .inr ⟨invocation, rfl, hworld⟩
    | none =>
      simp only [hinvocation, pure_eq_ok] at hx
      exact .inl ⟨by rw [← hx]; rfl, .inr rfl⟩

theorem exec_paused_ne {tx : Tx (Neighbours V)} (hx : exec d.host s tx = .ok s')
    (hthrough : ∀ world, tx.call ≠ .elsewhere world) (c : Pausable) :
    s'.world.paused c ≠ s.world.paused c ↔
      ∃ id ∈ tx.call.executes, ∃ proposal ∈ s.proposals.get id, proposal.target = d.address c ∧
        ∃ paused ∈ proposal.action.pauses, paused ≠ s.world.paused c := by
  obtain ⟨signers, call⟩ := tx
  cases call with
  | executeAction caller id =>
    obtain ⟨proposal, hget, hworld⟩ := executeAction_world hx
    have hone : (∃ id' ∈ (Call.executeAction caller id : Call (Neighbours V)).executes,
        ∃ proposal ∈ s.proposals.get id', proposal.target = d.address c ∧
          ∃ paused ∈ proposal.action.pauses, paused ≠ s.world.paused c) ↔
        proposal.target = d.address c ∧
          ∃ paused ∈ proposal.action.pauses, paused ≠ s.world.paused c := by
      simp [Call.executes, hget]
    rw [hone]
    rcases hworld with ⟨hworld, hnone⟩ | ⟨invocation, hinvocation, hworld⟩
    · rw [hworld]
      refine ⟨fun hne => absurd rfl hne, ?_⟩
      rintro ⟨htarget, paused, hpaused, -⟩
      rcases hnone with hself | hnone
      · exact absurd (htarget.symm.trans hself) (d.address_ne_self c)
      · simp [ActionPayload.pauses, hnone] at hpaused
    · rw [d.invoke_paused hworld c, ActionPayload.pauses, hinvocation]
      split_ifs with htarget
      · cases hpauses : invocation.pauses <;> simp [htarget, hpauses]
      · simp [htarget]
  | elsewhere world => exact absurd rfl (hthrough world)
  | _ =>
    have hworld : s'.world = s.world := by
      cases exec_effect hx with
      | executed hcall | elsewhere hcall => cases hcall
      | raised | approved | revoked | rejected | pruned | advanced => rfl
    simp [Call.executes, hworld]

/-- A proposal that moves a switch is one of the officer or of `SuperAdmin` exactly if its action is
for that switch or it is one of `SuperAdmin`. -/
theorem officer_iff {proposal : Proposal} (hrole : proposal.role.canPropose proposal.action = true)
    {paused : Bool} (hpauses : proposal.action.pauses = some paused) (c : Pausable) :
    (proposal.role = c.officer ∨ proposal.role = .SuperAdmin) ↔
      (proposal.role = .SuperAdmin ∨ proposal.action = c.setPaused paused) := by
  obtain ⟨c', haction⟩ := ActionPayload.pauses_eq_some.1 hpauses
  simp only [Role.canPropose, haction, Pausable.manager_setPaused, Bool.or_eq_true,
    decide_eq_true_eq, Option.some.injEq] at hrole
  rw [or_comm, haction]
  refine or_congr_right' fun hother => ?_
  have hofficer : proposal.role = c'.officer := by tauto
  constructor
  · intro hc
    rw [Pausable.officer_injective (hofficer.symm.trans hc)]
  · intro hc
    cases c <;> cases c' <;> first | exact hofficer | cases hc

theorem switchedByOfficer_iff {tx : Tx (Neighbours V)} (hs : Authorized s)
    (hx : exec d.host s tx = .ok s') : SwitchedByOfficer d s tx ↔ AimsOwnSwitch d s tx := by
  constructor
  · intro hswitched id hid proposal hproposal c hc htarget paused hpaused hne
    have hthrough : ∀ world, tx.call ≠ .elsewhere world := by
      intro world hcall
      simp [hcall, Call.executes] at hid
    have hmoved : s'.world.paused c ≠ s.world.paused c :=
      (exec_paused_ne hx hthrough c).2 ⟨id, hid, proposal, hproposal, htarget, paused, hpaused, hne⟩
    obtain ⟨id', hid', proposal', hproposal', hofficer⟩ := hswitched s' hx hthrough c hc hmoved
    obtain rfl : id = id' := Option.mem_unique hid hid'
    obtain rfl : proposal = proposal' := Option.mem_unique hproposal hproposal'
    exact (officer_iff (hs id proposal hproposal) hpaused c).1 hofficer
  · intro haims s'' hx' hthrough c hc hmoved
    obtain rfl : s' = s'' := Except.ok.inj (hx.symm.trans hx')
    obtain ⟨id, hid, proposal, hproposal, htarget, paused, hpaused, hne⟩ :=
      (exec_paused_ne hx hthrough c).1 hmoved
    have hown := haims id hid proposal hproposal c hc htarget paused hpaused hne
    exact ⟨id, hid, proposal, hproposal, (officer_iff (hs id proposal hproposal) hpaused c).2 hown⟩

/-- A run of proposals leaves the switches of the compliance registry, the referral registry and the
oracle registry to their officers and to `SuperAdmin` exactly if every proposal that it executes moves
each of these switches by the action for it only, or is one of `SuperAdmin`. -/
theorem switches_left_to_officers {signers : List Address} {now : ℕ} {world : Neighbours V}
    {superAdminSigners : List Address} {threshold expirySecs timelockSecs : ℕ}
    {start : State (Neighbours V)}
    (hinit : initializeAccessControl signers now world superAdminSigners threshold expirySecs
      timelockSecs = .ok start)
    {txs : List (Tx (Neighbours V))} (hrun : txs.foldlM (exec d.host) start = .ok s) :
    Along (exec d.host) (SwitchedByOfficer d) start txs ↔
      Along (exec d.host) (AimsOwnSwitch d) start txs := by
  have hstart : Authorized start := by
    intro id proposal hget
    simp [(initializeAccessControl_eq_ok hinit).1] at hget
  refine along_congr (P := Authorized) ?_ ?_ hstart hrun
  · exact fun s tx s' hs hx => exec_authorized hs hx
  · exact fun s tx s' hs hx => switchedByOfficer_iff hs hx

/-- The access control contract at 9 beside a pool, a compliance registry at 20, a referral registry
at 30 and an oracle registry. -/
def sampleDeployment : Deployment Unit where
  self := 9
  pool := Pool.quietHost
  compliance := 20
  referral := 30
  oracle := Oracle.sampleHost
  invokeOther := fun v _ _ _ => some v
  distinct := by decide

/-- New contracts that trust the access control contract. -/
def sampleNeighbours : Neighbours Unit where
  pool := Pool.initialState 5 () (fun _ _ => 0) (fun _ => Share.ShareToken.fresh 0) 1 10 11 12
  compliance := { Compliance.initializeCompliance 5 1 with accessControl := some 9 }
  referral := { Referral.initializeReferral 1 0 with accessControl := some 9 }
  oracle := Oracle.sampleStart
  others := ()

/-- The access control contract of `sampleStart` beside them. -/
def deployedStart : State (Neighbours Unit) where
  now := 5
  world := sampleNeighbours
  roleConfig := sampleStart.roleConfig
  proposalExpirySecs := 1000
  proposalTimelockSecs := 100

/-- The super admins appoint 7 to a role, who proposes and executes an action on the compliance
registry. -/
def appointedPause (role : Role) (action : ActionPayload) : List (Tx (Neighbours Unit)) :=
  [⟨[2], .proposeAction .SuperAdmin 2 9 (.AddSigner role 7)⟩,
    ⟨[3], .approveAction 3 0⟩,
    ⟨[2], .proposeAction .SuperAdmin 2 9 (.SetThreshold role 1)⟩,
    ⟨[3], .approveAction 3 1⟩,
    ⟨[], .advance 105⟩,
    ⟨[7], .executeAction 7 0⟩,
    ⟨[7], .executeAction 7 1⟩,
    ⟨[7], .proposeAction role 7 20 action⟩]

def executesPause : Tx (Neighbours Unit) := ⟨[7], .executeAction 7 2⟩

theorem switches_left_to_officers_paused :
    ∃ s, (appointedPause .ComplianceOfficer (.SetCompliancePaused true) ++ [executesPause]).foldlM
        (exec sampleDeployment.host) deployedStart = .ok s ∧
      s.world.paused .compliance = true ∧
      Along (exec sampleDeployment.host) (SwitchedByOfficer sampleDeployment) deployedStart
        (appointedPause .ComplianceOfficer (.SetCompliancePaused true) ++ [executesPause]) := by
  obtain ⟨s, hs, hp⟩ := exists_of_check
    (x := (appointedPause .ComplianceOfficer (.SetCompliancePaused true) ++ [executesPause]).foldlM
      (exec sampleDeployment.host) deployedStart)
    (p := fun s => decide (s.world.paused .compliance = true)) (by decide)
  refine ⟨s, hs, of_decide_eq_true hp, ?_⟩
  have hinit : initializeAccessControl [2, 3, 4] 5 sampleNeighbours [2, 3, 4] 2 1000 100 =
      .ok deployedStart := rfl
  exact (switches_left_to_officers hinit hs).2 (by decide)

/-- A risk manager pauses the compliance registry with the action that is meant for the pool. -/
theorem compliance_paused_by_riskManager :
    initializeAccessControl [2, 3, 4] 5 sampleNeighbours [2, 3, 4] 2 1000 100 = .ok deployedStart ∧
      ∃ s, Reaches (exec sampleDeployment.host) (fun _ _ => True) deployedStart s ∧
        ¬ SwitchedByOfficer sampleDeployment s executesPause := by
  refine ⟨rfl, ?_⟩
  obtain ⟨s, hs, hp⟩ := exists_of_check
    (x := (appointedPause .RiskManager (.SetPaused true)).foldlM (exec sampleDeployment.host)
      deployedStart)
    (p := fun s => check (exec sampleDeployment.host s executesPause) fun s' =>
      decide (s'.world.paused .compliance ≠ s.world.paused .compliance ∧
        (s.proposals.get 2).map Proposal.role = some .RiskManager))
    (by decide)
  obtain ⟨s', hs', hp'⟩ := exists_of_check hp
  obtain ⟨hmoved, hrole⟩ := of_decide_eq_true hp'
  refine ⟨s, reaches_of_along .refl (along_of_forall (fun _ _ => trivial) _ _) hs, ?_⟩
  intro hswitched
  obtain ⟨id, hid, proposal, hproposal, hofficer⟩ :=
    hswitched s' hs' (fun _ hcall => by cases hcall) .compliance (by decide) hmoved
  obtain rfl : 2 = id := Option.some.inj hid
  have hget : s.proposals.get 2 = some proposal := hproposal
  rw [hget, Option.map_some, Option.some.injEq] at hrole
  simp [hrole, Pausable.officer] at hofficer

end Astera.AccessControl
