import Astera.AccessControl.Proposals

/-!
# The timelock of an executed action

The approvals come to meet the threshold when a proposal is raised, when it is approved, or when the
threshold is lowered.  The timelock starts only at an approval, so a run keeps it as long as the
other ways do not leave a proposal approved.
-/

namespace Astera.AccessControl

open Fallible Machine Transition

variable {W : Type} {h : Host W} {s s' : State W}
variable {config : MultiSigConfig} {proposal : Proposal} {tx : Tx W} {id : ℕ}

/-- Whether the approvals of a proposal meet the threshold of its role. -/
def State.meets (s : State W) (id : ℕ) : Bool :=
  (s.proposals.get id).any fun proposal => (s.roleConfig proposal.role).any fun config =>
    decide (config.threshold ≤ proposal.approvals.length)

/-- Whether the approvals of a proposal came to meet the threshold in a call. -/
def newly (s s' : State W) (id : ℕ) : Bool := s'.meets id && !s.meets id

/-- When the approvals of each proposal last came to meet the threshold. -/
abbrev Met := ℕ → Option ℕ

def noteMet (s : State W) (_ : Tx W) (s' : State W) (met : Met) : Met := fun id =>
  if newly s s' id then some s'.now else met id

def Call.raises : Call W → Option Role
  | .proposeAction role _ _ _ => some role
  | _ => none

def Call.revokes : Call W → Option (Address × ℕ)
  | .revokeApproval signer id => some (signer, id)
  | _ => none

/-- The ways to an approved proposal that do not start its timelock are not taken: a proposal is not
raised under a threshold of one, a revocation does not leave a pending proposal with enough approvals,
and an executed change of a threshold does not bring the approvals of an approved proposal up to it. -/
def Waits (s : State W) (tx : Tx W) : Prop :=
  (∀ role ∈ tx.call.raises, ∀ config ∈ s.roleConfig role, 2 ≤ config.threshold) ∧
  (∀ revocation ∈ tx.call.revokes, ∀ proposal ∈ s.proposals.get revocation.2,
    ∀ config ∈ s.roleConfig proposal.role, proposal.status = .Pending →
      (proposal.approvals.erase revocation.1).length < config.threshold) ∧
  ∀ id ∈ tx.call.executes, ∀ executed ∈ s.proposals.get id,
    ∀ change ∈ executed.action.newThreshold, ∀ id' < s.nextProposalId,
      ∀ proposal ∈ s.proposals.get id', id' ≠ id → proposal.role = change.1 →
        proposal.status = .Approved → change.2 ≤ proposal.approvals.length → s.meets id' = true

/-- There is no timelock, or the call keeps to it. -/
def Timelocked (s : State W) (tx : Tx W) : Prop := s.proposalTimelockSecs = 0 ∨ Waits s tx

instance (s : State W) (tx : Tx W) : Decidable (Waits s tx) :=
  inferInstanceAs (Decidable ((∀ role ∈ tx.call.raises, ∀ config ∈ s.roleConfig role, _) ∧
    (∀ revocation ∈ tx.call.revokes, ∀ proposal ∈ s.proposals.get revocation.2,
      ∀ config ∈ s.roleConfig proposal.role, _ → _) ∧
    ∀ id ∈ tx.call.executes, ∀ executed ∈ s.proposals.get id,
      ∀ change ∈ executed.action.newThreshold, ∀ id' < _, ∀ proposal ∈ s.proposals.get id',
        _ → _ → _ → _ → _))

instance (s : State W) (tx : Tx W) : Decidable (Timelocked s tx) := inferInstanceAs (Decidable (_ ∨ _))

/-- An approved proposal waits from the time its approvals came to meet the threshold. -/
structure Locked (timelock : ℕ) (x : State W × Met) : Prop where
  sound : Sound x.1
  fixed : x.1.proposalTimelockSecs = timelock
  past : ∀ id time, x.2 id = some time → time ≤ x.1.now
  met : ∀ id, x.1.meets id = true → ∃ time, x.2 id = some time
  approved : ∀ id proposal, x.1.proposals.get id = some proposal → proposal.status = .Approved →
    ∃ time, x.2 id = some time ∧ (time + timelock ≤ proposal.earliestExecutionTime ∨ timelock = 0)

theorem exec_now (hx : exec h s tx = .ok s') : s.now ≤ s'.now := by
  cases exec_effect hx with
  | advanced hcall hnow => exact hnow
  | raised | approved | revoked | rejected | executed | pruned | elsewhere => exact le_rfl

theorem exec_timelock (hx : exec h s tx = .ok s') :
    s'.proposalTimelockSecs = s.proposalTimelockSecs := by
  cases exec_effect hx with
  | raised | approved | revoked | rejected | executed | pruned | advanced | elsewhere => rfl

theorem noteMet_kept {met : Met} {id time : ℕ} {timelock earliest : ℕ}
    (hold : met id = some time ∧ (time + timelock ≤ earliest ∨ timelock = 0))
    (hnew : newly s s' id = true → timelock = 0) :
    ∃ time, noteMet s tx s' met id = some time ∧ (time + timelock ≤ earliest ∨ timelock = 0) := by
  unfold noteMet
  split_ifs with hnewly
  · exact ⟨s'.now, rfl, .inr (hnew hnewly)⟩
  · exact ⟨time, hold⟩

theorem noteMet_of_meets (tx : Tx W) {met : Met}
    (hmet : s.meets id = true → ∃ time, met id = some time) (hmeets : s'.meets id = true) :
    ∃ time, noteMet s tx s' met id = some time := by
  unfold noteMet
  split_ifs with hnewly
  · exact ⟨s'.now, rfl⟩
  · refine hmet ?_
    simpa [newly, hmeets] using hnewly

theorem meets_of_get (hget : s.proposals.get id = some proposal)
    (hconfig : s.roleConfig proposal.role = some config) :
    s.meets id = decide (config.threshold ≤ proposal.approvals.length) := by
  unfold State.meets
  simp [hget, hconfig]

theorem newly_of_same (hproposals : s'.proposals.get id = s.proposals.get id)
    (hconfigs : s'.roleConfig = s.roleConfig) : newly s s' id = false := by
  have hsame : s'.meets id = s.meets id := by
    unfold State.meets
    rw [hproposals, hconfigs]
  unfold newly
  rw [hsame, Bool.and_not_self]

/-! ## Steps -/

section Steps

variable {timelock : ℕ} {met : Met} {tx : Tx W}

/-- What an approved proposal has to show after a call. -/
def Waiting (timelock : ℕ) (met : Met) (id : ℕ) (proposal : Proposal) : Prop :=
  proposal.status = .Approved →
    ∃ time, met id = some time ∧ (time + timelock ≤ proposal.earliestExecutionTime ∨ timelock = 0)

theorem Locked.keeps (hx : Locked timelock (s, met)) {i : ℕ}
    (hold : s.proposals.get i = some proposal) (hkept : s'.proposals.get i = some proposal)
    (hconfigs : s'.roleConfig = s.roleConfig) :
    Waiting timelock (noteMet s tx s' met) i proposal := by
  intro happroved
  obtain ⟨time, hwaits⟩ := hx.approved i proposal hold happroved
  refine noteMet_kept hwaits fun hnew => ?_
  rw [newly_of_same (hkept.trans hold.symm) hconfigs] at hnew
  cases hnew

theorem Locked.write (hx : Locked timelock (s, met))
    (hproposals : s'.proposals = s.proposals.set id proposal)
    (hconfigs : s'.roleConfig = s.roleConfig)
    (hwritten : Waiting timelock (noteMet s tx s' met) id proposal) :
    ∀ i p, s'.proposals.get i = some p → Waiting timelock (noteMet s tx s' met) i p := by
  intro i p hget
  have hset := hget
  rw [hproposals, Store.get_set] at hset
  split_ifs at hset with hi
  · subst hi
    obtain rfl := Option.some.inj hset
    exact hwritten
  · exact hx.keeps hset hget hconfigs

theorem waiting_raised {role : Role} {proposer target : Address} {action : ActionPayload}
    (hx : Locked timelock (s, met)) (hok : Timelocked s tx)
    (hcall : tx.call = .proposeAction role proposer target action)
    (hconfig : s.roleConfig role = some config)
    (hget : s'.proposals.get s.nextProposalId = some (s.raised role proposer target action config.threshold))
    (hconfigs : s'.roleConfig = s.roleConfig) :
    Waiting timelock (noteMet s tx s' met) s.nextProposalId
      (s.raised role proposer target action config.threshold) := by
  intro happroved
  have hone : config.threshold ≤ 1 := by
    unfold State.raised at happroved
    dsimp only at happroved
    split_ifs at happroved with hone
    exact hone
  have hzero : timelock = 0 := by
    rcases hok with hzero | ⟨hraise, -⟩
    · rw [← hx.fixed]
      exact hzero
    · have htwo := hraise role (by rw [hcall]; rfl) config hconfig
      omega
  have hmeets : s'.meets s.nextProposalId = true := by
    rw [meets_of_get hget (hconfigs.symm ▸ hconfig)]
    exact decide_eq_true hone
  obtain ⟨time, htime⟩ := noteMet_of_meets tx (hx.met _) hmeets
  exact ⟨time, htime, .inr hzero⟩

theorem waiting_approved {signer : Address} (hx : Locked timelock (s, met))
    (hget : s.proposals.get id = some proposal) (hconfig : s.roleConfig proposal.role = some config)
    (hget' : s'.proposals.get id = some (s.approved proposal signer config.threshold))
    (hconfigs : s'.roleConfig = s.roleConfig) (hnow : s'.now = s.now) :
    Waiting timelock (noteMet s tx s' met) id (s.approved proposal signer config.threshold) := by
  intro happroved
  have hconfig' : s'.roleConfig (s.approved proposal signer config.threshold).role = some config := by
    rw [approved_role, hconfigs]
    exact hconfig
  have hmeets := meets_of_get hget' hconfig'
  rw [approved_approvals, List.length_append, List.length_singleton] at hmeets
  have hfixed : s.proposalTimelockSecs = timelock := hx.fixed
  unfold State.approved at happroved ⊢
  split_ifs at happroved ⊢ with hmet
  · have htrue : s'.meets id = true := hmeets.trans (decide_eq_true hmet)
    obtain ⟨time, htime⟩ := noteMet_of_meets tx (hx.met id) htrue
    refine ⟨time, htime, .inl ?_⟩
    -- the approvals came to meet the threshold now or before
    have hpast : time ≤ s.now := by
      unfold noteMet at htime
      split_ifs at htime with hnewly
      · rw [← Option.some.inj htime, hnow]
      · exact hx.past id time htime
    show time + timelock ≤ s.now + s.proposalTimelockSecs
    omega
  · obtain ⟨time, hold⟩ := hx.approved id proposal hget happroved
    refine noteMet_kept hold fun hnew => ?_
    rw [newly, hmeets, decide_eq_false hmet] at hnew
    cases hnew

theorem waiting_revoked {signer : Address} (hx : Locked timelock (s, met)) (hok : Timelocked s tx)
    (hcall : tx.call = .revokeApproval signer id) (hget : s.proposals.get id = some proposal)
    (hopen : proposal.isOpen = true) (hconfig : s.roleConfig proposal.role = some config)
    (hget' : s'.proposals.get id = some (proposal.revoked signer config.threshold))
    (hconfigs : s'.roleConfig = s.roleConfig) :
    Waiting timelock (noteMet s tx s' met) id (proposal.revoked signer config.threshold) := by
  intro happroved
  have hleft : config.threshold ≤ (proposal.approvals.erase signer).length := by
    unfold Proposal.revoked at happroved
    dsimp only at happroved
    split_ifs at happroved with hleft
    exact hleft
  have hmeets : s.meets id = true := by
    rw [meets_of_get hget hconfig]
    exact decide_eq_true (hleft.trans List.length_erase_le)
  rcases hok with hzero | ⟨-, hrevoke, -⟩
  · have hmeets' : s'.meets id = true := by
      rw [meets_of_get hget' (hconfigs.symm ▸ hconfig)]
      exact decide_eq_true hleft
    obtain ⟨time, htime⟩ := noteMet_of_meets tx (hx.met id) hmeets'
    exact ⟨time, htime, .inr (hx.fixed.symm.trans hzero)⟩
  · have hwas : proposal.status = .Approved := by
      have hnot : proposal.status ≠ .Pending := fun hpending => absurd
        (hrevoke (signer, id) (by rw [hcall]; rfl) proposal hget config hconfig hpending)
        (Nat.not_lt.2 hleft)
      simpa [Proposal.isOpen, hnot] using hopen
    obtain ⟨time, hold⟩ := hx.approved id proposal hget hwas
    refine noteMet_kept hold fun hnew => ?_
    rw [newly, hmeets, Bool.not_true, Bool.and_false] at hnew
    cases hnew

theorem waiting_executed {caller : Address} {id i : ℕ} {executed proposal : Proposal}
    (hx : Locked timelock (s, met)) (hok : Timelocked s tx)
    (hcall : tx.call = .executeAction caller id) (hget : s.proposals.get id = some executed)
    (hreconfigures : Reconfigures s.roleConfig executed.action s'.roleConfig) (hi : i ≠ id)
    (hold : s.proposals.get i = some proposal) (hkept : s'.proposals.get i = some proposal) :
    Waiting timelock (noteMet s tx s' met) i proposal := by
  intro happroved
  obtain ⟨time, hwaits⟩ := hx.approved i proposal hold happroved
  refine noteMet_kept hwaits fun hnew => ?_
  obtain ⟨config, hconfig⟩ := hx.sound.configured i proposal hold
  obtain ⟨config', hconfig', -, hsame⟩ := hreconfigures.config hconfig
  obtain ⟨hmeets', hnot⟩ := Bool.and_eq_true_iff.1 hnew
  rw [meets_of_get hkept hconfig'] at hmeets'
  have hmet := of_decide_eq_true hmeets'
  rcases hsame with hsame | hchanged
  · -- the threshold is what it was
    rw [meets_of_get hold hconfig, decide_eq_true (hsame ▸ hmet)] at hnot
    cases hnot
  · rcases hok with hzero | ⟨-, -, hlower⟩
    · exact hx.fixed.symm.trans hzero
    · have hmeets := hlower id (by rw [hcall]; rfl) executed hget (proposal.role, config'.threshold)
        (by rw [hchanged]; rfl) i (hx.sound.known i proposal hold) proposal hold hi rfl happroved hmet
      rw [hmeets] at hnot
      cases hnot

theorem locked_step {x y : State W × Met} (hx : Locked timelock x) (hok : Timelocked x.1 tx)
    (hstep : track (exec h) noteMet x tx = .ok y) : Locked timelock y := by
  obtain ⟨s, met⟩ := x
  obtain ⟨s', met'⟩ := y
  rw [track_eq_ok] at hstep
  obtain ⟨hexec, hnote⟩ := hstep
  dsimp only at hexec hnote
  subst hnote
  refine ⟨exec_sound hx.sound hexec, (exec_timelock hexec).trans hx.fixed, fun id time htime => ?_,
    fun id hmeets => noteMet_of_meets tx (hx.met id) hmeets, ?_⟩
  · dsimp only [noteMet] at htime
    split_ifs at htime with hnewly
    · exact (Option.some.inj htime).ge
    · exact (hx.past id time htime).trans (exec_now hexec)
  show ∀ i p, s'.proposals.get i = some p → Waiting timelock (noteMet s tx s' met) i p
  cases exec_effect hexec with
  | raised hcall _ _ hconfig =>
    exact hx.write rfl rfl
      (waiting_raised hx hok hcall hconfig (Store.get_set_self _ _ _) rfl)
  | approved hcall hget hopen hfresh hconfig =>
    exact hx.write rfl rfl
      (waiting_approved hx hget hconfig (Store.get_set_self _ _ _) rfl rfl)
  | revoked hcall hget hopen hmem hconfig =>
    exact hx.write rfl rfl
      (waiting_revoked hx hok hcall hget hopen hconfig (Store.get_set_self _ _ _) rfl)
  | rejected => exact hx.write rfl rfl nofun
  | @executed caller id proposal world roleConfig secs hcall hexecutes hreconfigures =>
    intro i p hget
    have hset : (s.proposals.set id proposal.executed).get i = some p := hget
    rw [Store.get_set] at hset
    split_ifs at hset with hi
    · obtain rfl := Option.some.inj hset
      exact nofun
    · exact waiting_executed hx hok hcall hexecutes.get hreconfigures hi hset hget
  | pruned => exact fun i p hget => hx.keeps (Store.get_of_get_remove hget) hget rfl
  | advanced | elsewhere => exact fun i p hget => hx.keeps hget hget rfl

end Steps

/-- In every run that keeps to the timelock, or has none, `execute_action` succeeds only when the
timelock has passed since the approvals of the proposal last came to meet the threshold of its role. -/
theorem executed_after_timelock {signers : List Address} {now : ℕ} {world : W}
    {superAdminSigners : List Address} {threshold expirySecs timelockSecs : ℕ} {start : State W}
    (hinit : initializeAccessControl signers now world superAdminSigners threshold expirySecs
      timelockSecs = .ok start)
    {s : State W} {met : Met}
    (hrun : Reaches (track (exec h) noteMet) (fun x => Timelocked x.1) (start, fun _ => none) (s, met))
    {txSigners : List Address} {caller : Address} {proposalId : ℕ} {s' : State W}
    (hx : executeAction h txSigners s caller proposalId = .ok s') :
    ∃ time, met proposalId = some time ∧ time + timelockSecs ≤ s.now := by
  obtain ⟨hproposals, -, htimelock⟩ := initializeAccessControl_eq_ok hinit
  have hlocked : Locked timelockSecs (s, met) := by
    refine hrun.invariant ⟨sound_initial hproposals, htimelock, nofun, fun id hmeets => ?_, ?_⟩
      fun _ _ _ => locked_step
    · simp [State.meets, hproposals] at hmeets
    · exact fun i p hget => by simp [hproposals] at hget
  obtain ⟨proposal, _, _, _, hexecutes, -, -⟩ := executeAction_eq_ok hx
  obtain ⟨time, htime, hwaits⟩ := hlocked.approved proposalId proposal hexecutes.get hexecutes.approved
  have hpast : time ≤ s.now := hlocked.past proposalId time htime
  have hripe := hexecutes.ripe
  exact ⟨time, htime, by omega⟩

/-- A proposal is approved by a second signer, and the timelock passes. -/
def sampleWait : List (Tx Unit) :=
  [⟨[2], .proposeAction .SuperAdmin 2 9 (.SetPaused true)⟩,
    ⟨[], .advance 50⟩,
    ⟨[3], .approveAction 3 0⟩,
    ⟨[], .advance 150⟩]

theorem executed_after_timelock_approved :
    ∃ (s s' : State Unit) (met : Met),
      Reaches (track (exec sampleHost) noteMet) (fun x => Timelocked x.1)
        (sampleStart, fun _ => none) (s, met) ∧
      executeAction sampleHost [7] s 7 0 = .ok s' ∧ met 0 = some 50 ∧ 50 + 100 ≤ s.now := by
  obtain ⟨⟨s, met⟩, hx, hp⟩ := exists_of_check
    (x := sampleWait.foldlM (track (exec sampleHost) noteMet) (sampleStart, fun _ => none))
    (p := fun x => decide (x.2 0 = some 50 ∧
      check (executeAction sampleHost [7] x.1 7 0) (fun _ => true) = true)) (by decide)
  obtain ⟨hmet, hexecutes⟩ := of_decide_eq_true hp
  obtain ⟨s', hs', -⟩ := exists_of_check hexecutes
  have hrun := reaches_of_along .refl
    (show Along _ (fun x => Timelocked x.1) _ sampleWait by decide) hx
  obtain ⟨time, htime, hwaited⟩ :=
    executed_after_timelock initializeAccessControl_sampleStart hrun hs'
  have hsame : time = 50 := Option.some.inj (htime.symm.trans hmet)
  exact ⟨s, s', met, hrun, hs', hmet, hsame ▸ hwaited⟩

/-- The super admins lower their threshold to one, and one of them raises a proposal. -/
def soleSigner : List (Tx Unit) :=
  [⟨[2], .proposeAction .SuperAdmin 2 1 (.SetThreshold .SuperAdmin 1)⟩,
    ⟨[3], .approveAction 3 0⟩,
    ⟨[], .advance 105⟩,
    ⟨[7], .executeAction 7 0⟩,
    ⟨[2], .proposeAction .SuperAdmin 2 9 (.SetPaused true)⟩]

/-- The proposal is executed at the time it is raised, under a timelock of 100 seconds. -/
theorem sole_signer_skips_timelock :
    ∃ (s s' : State Unit) (met : Met),
      Reaches (track (exec sampleHost) noteMet) (fun _ _ => True) (sampleStart, fun _ => none)
        (s, met) ∧
      executeAction sampleHost [2] s 2 1 = .ok s' ∧ met 1 = some s.now ∧
      s.proposalTimelockSecs = 100 := by
  obtain ⟨⟨s, met⟩, hx, hp⟩ := exists_of_check
    (x := soleSigner.foldlM (track (exec sampleHost) noteMet) (sampleStart, fun _ => none))
    (p := fun x => decide (x.2 1 = some x.1.now ∧ x.1.proposalTimelockSecs = 100 ∧
      check (executeAction sampleHost [2] x.1 2 1) (fun _ => true) = true)) (by decide)
  obtain ⟨hmet, htimelock, hexecutes⟩ := of_decide_eq_true hp
  obtain ⟨s', hs', -⟩ := exists_of_check hexecutes
  have hrun := reaches_of_along .refl (along_of_forall (fun _ _ => trivial) _ _) hx
  exact ⟨s, s', met, hrun, hs', hmet, htimelock⟩

end Astera.AccessControl
