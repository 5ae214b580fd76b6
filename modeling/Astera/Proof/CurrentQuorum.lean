import Astera.AccessControl.Proposals

/-!
# The quorum of an executed action

The status of a proposal is written when its approvals change, not when the configuration of its
role does.  An executed proposal has a current quorum as long as no such change leaves an open
proposal with the approval of a removed signer or below a raised threshold.
-/

namespace Astera.AccessControl

open Fallible Machine Transition

variable {W : Type} {h : Host W} {s s' : State W}

/-- The proposals that were executed and rejected. -/
structure Trail where
  executed : List ℕ := []
  rejected : List ℕ := []
  deriving DecidableEq

def noteTrail (_ : State W) (tx : Tx W) (_ : State W) (trail : Trail) : Trail :=
  match tx.call with
  | .executeAction _ proposalId => { trail with executed := proposalId :: trail.executed }
  | .rejectAction _ proposalId => { trail with rejected := proposalId :: trail.rejected }
  | _ => trail

/-- A removal of a signer spares the open proposals that it did not approve, and a new threshold
spares the approved ones that meet it. -/
def ActionPayload.Spares (action : ActionPayload) (proposal : Proposal) : Prop :=
  (∀ removal ∈ action.removal, proposal.role = removal.1 → proposal.isOpen = true →
    removal.2 ∉ proposal.approvals) ∧
  ∀ change ∈ action.newThreshold, proposal.role = change.1 → proposal.status = .Approved →
    change.2 ≤ proposal.approvals.length

/-- An executed action spares the other proposals that have not expired. -/
def Sparing (s : State W) (tx : Tx W) : Prop :=
  ∀ id ∈ tx.call.executes, ∀ executed ∈ s.proposals.get id, ∀ id' < s.nextProposalId,
    ∀ proposal ∈ s.proposals.get id', id' ≠ id → s.now ≤ proposal.expiresAt →
      executed.action.Spares proposal

instance (action : ActionPayload) (proposal : Proposal) : Decidable (action.Spares proposal) :=
  inferInstanceAs (Decidable ((∀ removal ∈ action.removal, _ → _ → _) ∧
    ∀ change ∈ action.newThreshold, _ → _ → _))

instance (s : State W) (tx : Tx W) : Decidable (Sparing s tx) :=
  inferInstanceAs (Decidable (∀ id ∈ tx.call.executes, ∀ executed ∈ s.proposals.get id, ∀ id' < _,
    ∀ proposal ∈ s.proposals.get id', _ → _ → _))

/-- The trail agrees with the stored proposals. -/
structure Trailed (x : State W × Trail) : Prop where
  sound : Sound x.1
  executed_lt : ∀ id ∈ x.2.executed, id < x.1.nextProposalId
  rejected_lt : ∀ id ∈ x.2.rejected, id < x.1.nextProposalId
  executed : ∀ id proposal, x.1.proposals.get id = some proposal → id ∈ x.2.executed →
    proposal.status = .Executed
  rejected : ∀ id proposal, x.1.proposals.get id = some proposal → id ∈ x.2.rejected →
    proposal.status = .Rejected

theorem Trailed.not_mem {x : State W × Trail} (hx : Trailed x) {id : ℕ} {proposal : Proposal}
    (hget : x.1.proposals.get id = some proposal) (hopen : proposal.isOpen = true) :
    id ∉ x.2.executed ∧ id ∉ x.2.rejected := by
  constructor
  · intro hmem
    simp [Proposal.isOpen, hx.executed id proposal hget hmem] at hopen
  · intro hmem
    simp [Proposal.isOpen, hx.rejected id proposal hget hmem] at hopen

theorem Trailed.write {trail : Trail} {id : ℕ} {proposal proposal' : Proposal}
    (hx : Trailed (s, trail)) (hsound : Sound s') (hnext : s'.nextProposalId = s.nextProposalId)
    (hget : s.proposals.get id = some proposal) (hopen : proposal.isOpen = true)
    (hproposals : s'.proposals = s.proposals.set id proposal') : Trailed (s', trail) := by
  obtain ⟨hexecuted, hrejected⟩ := hx.not_mem hget hopen
  refine ⟨hsound, ?_, ?_, ?_, ?_⟩ <;> dsimp only
  · rw [hnext]
    exact hx.executed_lt
  · rw [hnext]
    exact hx.rejected_lt
  · rw [hproposals]
    exact Store.forall_get_set hx.executed fun hmem => absurd hmem hexecuted
  · rw [hproposals]
    exact Store.forall_get_set hx.rejected fun hmem => absurd hmem hrejected

theorem isOpen_of_approved {proposal : Proposal} (happroved : proposal.status = .Approved) :
    proposal.isOpen = true := by
  simp [Proposal.isOpen, happroved]

theorem trailed_step {x y : State W × Trail} {tx : Tx W} (hx : Trailed x)
    (hstep : track (exec h) noteTrail x tx = .ok y) : Trailed y := by
  obtain ⟨s, trail⟩ := x
  obtain ⟨s', trail'⟩ := y
  rw [track_eq_ok] at hstep
  obtain ⟨hexec, hnote⟩ := hstep
  dsimp only at hexec hnote
  have hsound : Sound s' := exec_sound hx.sound hexec
  cases exec_effect hexec with
  | raised hcall =>
    simp only [noteTrail, hcall] at hnote
    subst hnote
    refine ⟨hsound, fun i hi => ?_, fun i hi => ?_, ?_, ?_⟩
    · exact Nat.lt_succ_of_lt (hx.executed_lt i hi)
    · exact Nat.lt_succ_of_lt (hx.rejected_lt i hi)
    · exact Store.forall_get_set hx.executed fun hmem =>
        absurd (hx.executed_lt _ hmem) (lt_irrefl _)
    · exact Store.forall_get_set hx.rejected fun hmem =>
        absurd (hx.rejected_lt _ hmem) (lt_irrefl _)
  | approved hcall hget hopen =>
    simp only [noteTrail, hcall] at hnote
    subst hnote
    exact hx.write hsound rfl hget hopen rfl
  | revoked hcall hget hopen =>
    simp only [noteTrail, hcall] at hnote
    subst hnote
    exact hx.write hsound rfl hget hopen rfl
  | @rejected signer id proposal hcall hget hopen =>
    simp only [noteTrail, hcall] at hnote
    subst hnote
    have hwritten := hx.write hsound rfl hget hopen rfl
    refine ⟨hsound, hwritten.executed_lt, fun i hi => ?_, hwritten.executed, ?_⟩
    · rcases List.mem_cons.1 hi with rfl | hi
      · exact hx.sound.known i proposal hget
      · exact hx.rejected_lt i hi
    · intro i p hp hi
      by_cases hid : i = id
      · have hself : (s.proposals.set id { proposal with status := .Rejected }).get i = some p := hp
        rw [hid, Store.get_set_self] at hself
        rw [← Option.some.inj hself]
      · exact hwritten.rejected i p hp ((List.mem_cons.1 hi).resolve_left hid)
  | @executed caller id proposal world roleConfig secs hcall hexecutes hreconfigures =>
    simp only [noteTrail, hcall] at hnote
    subst hnote
    have hwritten := hx.write hsound rfl hexecutes.get (isOpen_of_approved hexecutes.approved) rfl
    refine ⟨hsound, fun i hi => ?_, hwritten.rejected_lt, ?_, hwritten.rejected⟩
    · rcases List.mem_cons.1 hi with rfl | hi
      · exact hx.sound.known i proposal hexecutes.get
      · exact hx.executed_lt i hi
    · intro i p hp hi
      by_cases hid : i = id
      · have hself : (s.proposals.set id proposal.executed).get i = some p := hp
        rw [hid, Store.get_set_self] at hself
        rw [← Option.some.inj hself]
        rfl
      · exact hwritten.executed i p hp ((List.mem_cons.1 hi).resolve_left hid)
  | pruned hcall =>
    simp only [noteTrail, hcall] at hnote
    subst hnote
    refine ⟨hsound, hx.executed_lt, hx.rejected_lt, fun i p hp => ?_, fun i p hp => ?_⟩
    · exact hx.executed i p (Store.get_of_get_remove hp)
    · exact hx.rejected i p (Store.get_of_get_remove hp)
  | advanced hcall | elsewhere hcall =>
    simp only [noteTrail, hcall] at hnote
    subst hnote
    exact ⟨hsound, hx.executed_lt, hx.rejected_lt, hx.executed, hx.rejected⟩

/-- A proposal that can still be executed is approved by current signers of its role, and by enough of
them if it is approved. -/
def Quorum (configs : Role → Option MultiSigConfig) (proposal : Proposal) : Prop :=
  ∃ config, configs proposal.role = some config ∧
    (∀ a ∈ proposal.approvals, a ∈ config.signers) ∧
    (proposal.status = .Approved → config.threshold ≤ proposal.approvals.length)

/-- Every proposal that is open and has not expired has its quorum. -/
def Quorate (s : State W) : Prop :=
  ∀ id proposal, s.proposals.get id = some proposal → proposal.isOpen = true →
    s.now ≤ proposal.expiresAt → Quorum s.roleConfig proposal

theorem quorate_step {tx : Tx W} (hs : Sound s) (hquorate : Quorate s) (hok : Sparing s tx)
    (hx : exec h s tx = .ok s') : Quorate s' := by
  cases exec_effect hx with
  | @raised role proposer target action config hcall _ _ hconfig hpos hsigner =>
    refine Store.forall_get_set hquorate fun _ _ =>
      ⟨config, hconfig, fun a ha => ?_, fun happroved => ?_⟩
    · rw [List.mem_singleton.1 ha]
      exact hsigner
    · unfold State.raised at happroved
      dsimp only at happroved
      split_ifs at happroved with hone
      exact hone
  | @approved signer id proposal config hcall hget hopen hfresh hconfig hsigner hnew =>
    obtain ⟨config', hconfig', hsigners, hmet⟩ := hquorate id proposal hget hopen hfresh
    obtain rfl : config = config' := Option.some.inj (hconfig.symm.trans hconfig')
    refine Store.forall_get_set hquorate fun _ _ =>
      ⟨config, ?_, fun a ha => ?_, fun happroved => ?_⟩
    · rw [approved_role]
      exact hconfig
    · rw [approved_approvals, List.mem_append, List.mem_singleton] at ha
      rcases ha with ha | rfl
      · exact hsigners a ha
      · exact hsigner
    · rw [approved_approvals, List.length_append, List.length_singleton]
      unfold State.approved at happroved
      split_ifs at happroved with hmeets
      · exact hmeets
      · exact (hmet happroved).trans (Nat.le_succ _)
  | @revoked signer id proposal config hcall hget hopen hmem hconfig =>
    refine Store.forall_get_set hquorate fun _ hfresh =>
      ⟨config, hconfig, fun a ha => ?_, fun happroved => ?_⟩
    · obtain ⟨config', hconfig', hsigners, -⟩ := hquorate id proposal hget hopen hfresh
      obtain rfl : config = config' := Option.some.inj (hconfig.symm.trans hconfig')
      exact hsigners a (List.mem_of_mem_erase ha)
    · unfold Proposal.revoked at happroved
      dsimp only at happroved
      split_ifs at happroved with hmeets
      exact hmeets
  | rejected =>
    refine Store.forall_get_set hquorate fun hopen => ?_
    simp [Proposal.isOpen] at hopen
  | @executed caller id proposal world roleConfig secs hcall hexecutes hreconfigures =>
    intro i q hq hopen hfresh
    have hi : i ≠ id := by
      rintro rfl
      have hself : (s.proposals.set i proposal.executed).get i = some q := hq
      rw [Store.get_set_self] at hself
      rw [← Option.some.inj hself] at hopen
      cases hopen
    have hget : s.proposals.get i = some q := by
      have hother : (s.proposals.set id proposal.executed).get i = some q := hq
      rwa [Store.get_set_of_ne _ _ hi] at hother
    obtain ⟨hremoval, hthreshold⟩ := hok id (by rw [hcall]; rfl) proposal hexecutes.get i
      (hs.known i q hget) q hget hi hfresh
    obtain ⟨config, hconfig, hsigners, hmet⟩ := hquorate i q hget hopen hfresh
    obtain ⟨config', hconfig', hkept, hsame⟩ := hreconfigures.config hconfig
    refine ⟨config', hconfig', fun a ha => ?_, fun happroved => ?_⟩
    · rcases hkept a (hsigners a ha) with hmem | hremoved
      · exact hmem
      · exact absurd ha (hremoval (q.role, a) (by rw [hremoved]; rfl) rfl hopen)
    · rcases hsame with hsame | hchanged
      · rw [hsame]
        exact hmet happroved
      · exact hthreshold (q.role, config'.threshold) (by rw [hchanged]; rfl) rfl happroved
  | pruned => exact fun i p hget => hquorate i p (Store.get_of_get_remove hget)
  | advanced hcall hnow =>
    intro i p hget hopen hfresh
    exact hquorate i p hget hopen (hnow.trans hfresh)
  | elsewhere => exact hquorate

/-- In every run, `execute_action` succeeds only on a proposal whose approvals are distinct, that was not
executed or rejected before, and that has not expired.  At least the current threshold of its approvals
are current signers of its role if the executed actions of the run neither remove a signer that another
open proposal of the role counts, nor raise a threshold above the approvals of another approved one. -/
theorem executed_with_quorum {signers : List Address} {now : ℕ} {world : W}
    {superAdminSigners : List Address} {threshold expirySecs timelockSecs : ℕ} {start : State W}
    (hinit : initializeAccessControl signers now world superAdminSigners threshold expirySecs
      timelockSecs = .ok start)
    {s : State W} {trail : Trail}
    (hrun : Reaches (track (exec h) noteTrail) (fun _ _ => True) (start, {}) (s, trail))
    {txSigners : List Address} {caller : Address} {proposalId : ℕ} {s' : State W}
    (hx : executeAction h txSigners s caller proposalId = .ok s') :
    ∃ proposal config, s.proposals.get proposalId = some proposal ∧
      s.roleConfig proposal.role = some config ∧ proposal.approvals.Nodup ∧
      s.now ≤ proposal.expiresAt ∧ proposalId ∉ trail.executed ∧ proposalId ∉ trail.rejected ∧
      (Reaches (exec h) Sparing start s →
        config.threshold ≤ (proposal.approvals.filter (· ∈ config.signers)).length) := by
  obtain ⟨hproposals, -, -⟩ := initializeAccessControl_eq_ok hinit
  have htrailed : Trailed (s, trail) := by
    refine hrun.invariant ⟨sound_initial hproposals, nofun, nofun, ?_, ?_⟩
      fun _ _ _ hp _ => trailed_step hp
    · exact fun i p hget => by simp [hproposals] at hget
    · exact fun i p hget => by simp [hproposals] at hget
  obtain ⟨proposal, _, _, _, hexecutes, -, -⟩ := executeAction_eq_ok hx
  have hopen := isOpen_of_approved hexecutes.approved
  obtain ⟨hexecuted, hrejected⟩ := htrailed.not_mem hexecutes.get hopen
  obtain ⟨config, hconfig⟩ := htrailed.sound.configured proposalId proposal hexecutes.get
  refine ⟨proposal, config, hexecutes.get, hconfig, htrailed.sound.nodup _ _ hexecutes.get,
    hexecutes.fresh, hexecuted, hrejected, fun hsparing => ?_⟩
  obtain ⟨-, hquorate⟩ : Sound s ∧ Quorate s := by
    refine hsparing.invariant (P := fun s => Sound s ∧ Quorate s) ⟨sound_initial hproposals, ?_⟩
      fun _ _ _ hp hok hstep => ⟨exec_sound hp.1 hstep, quorate_step hp.1 hp.2 hok hstep⟩
    exact fun i p hget => by simp [hproposals] at hget
  obtain ⟨config', hconfig', hsigners, hmet⟩ :=
    hquorate proposalId proposal hexecutes.get hopen hexecutes.fresh
  obtain rfl : config = config' := Option.some.inj (hconfig.symm.trans hconfig')
  rw [List.filter_eq_self.2 fun a ha => decide_eq_true (hsigners a ha)]
  exact hmet hexecutes.approved

/-- A super admin is removed, and the two others pause the contract at address 9. -/
def sampleRemoval : List (Tx Unit) :=
  [⟨[2], .proposeAction .SuperAdmin 2 1 (.RemoveSigner .SuperAdmin 4)⟩,
    ⟨[3], .approveAction 3 0⟩,
    ⟨[], .advance 105⟩,
    ⟨[7], .executeAction 7 0⟩,
    ⟨[2], .proposeAction .SuperAdmin 2 9 (.SetPaused true)⟩,
    ⟨[3], .approveAction 3 1⟩,
    ⟨[], .advance 205⟩]

theorem executed_with_quorum_removal :
    ∃ (s s' : State Unit) (trail : Trail) (proposal : Proposal),
      Reaches (track (exec sampleHost) noteTrail) (fun _ _ => True) (sampleStart, {}) (s, trail) ∧
      Reaches (exec sampleHost) Sparing sampleStart s ∧
      executeAction sampleHost [7] s 7 1 = .ok s' ∧ s.proposals.get 1 = some proposal ∧
      1 ∉ trail.executed ∧ 2 ≤ (proposal.approvals.filter (· ∈ ([2, 3] : List Address))).length := by
  obtain ⟨s, hx, hp⟩ := exists_of_check
    (x := sampleRemoval.foldlM (exec sampleHost) sampleStart)
    (p := fun s => decide (s.roleConfig .SuperAdmin = some ⟨[2, 3], 2⟩ ∧
      (s.proposals.get 1).map Proposal.role = some .SuperAdmin ∧
      check (executeAction sampleHost [7] s 7 1) (fun _ => true) = true)) (by decide)
  obtain ⟨hconfig, hrole, hexecutes⟩ := of_decide_eq_true hp
  obtain ⟨s', hs', -⟩ := exists_of_check hexecutes
  have hsparing := reaches_of_along .refl
    (show Along _ Sparing _ sampleRemoval by decide) hx
  have hplain := reaches_of_along (show Reaches _ (fun _ _ => True) _ _ from .refl)
    (along_of_forall (fun _ _ => trivial) _ _) hx
  obtain ⟨trail, hrun⟩ := hplain.track noteTrail {}
  obtain ⟨proposal, config, hget, hconfig', -, -, hfirst, -, hquorum⟩ :=
    executed_with_quorum initializeAccessControl_sampleStart hrun hs'
  rw [hget, Option.map_some, Option.some.injEq] at hrole
  rw [hrole, hconfig, Option.some.injEq] at hconfig'
  subst hconfig'
  exact ⟨s, s', trail, proposal, hrun, hsparing, hs', hget, hfirst, hquorum hsparing⟩

/-- A proposal is approved by 2 and 3, and 3 is removed before its execution. -/
def staleApproval : List (Tx Unit) :=
  [⟨[2], .proposeAction .SuperAdmin 2 9 (.SetPaused true)⟩,
    ⟨[3], .approveAction 3 0⟩,
    ⟨[2], .proposeAction .SuperAdmin 2 1 (.RemoveSigner .SuperAdmin 3)⟩,
    ⟨[4], .approveAction 4 1⟩,
    ⟨[], .advance 105⟩,
    ⟨[7], .executeAction 7 1⟩]

/-- The proposal is executed with one current signer among its approvals, where two are needed. -/
theorem removed_signer_counts :
    ∃ (s s' : State Unit) (proposal : Proposal),
      Reaches (exec sampleHost) (fun _ _ => True) sampleStart s ∧
      executeAction sampleHost [7] s 7 0 = .ok s' ∧ s.proposals.get 0 = some proposal ∧
      s.roleConfig proposal.role = some ⟨[2, 4], 2⟩ ∧
      proposal.approvals.filter (· ∈ ([2, 4] : List Address)) = [2] := by
  obtain ⟨s, hx, hp⟩ := exists_of_check
    (x := staleApproval.foldlM (exec sampleHost) sampleStart)
    (p := fun s => (s.proposals.get 0).any fun proposal : Proposal => decide (
      s.roleConfig proposal.role = some ⟨[2, 4], 2⟩ ∧
      proposal.approvals.filter (· ∈ ([2, 4] : List Address)) = [2] ∧
      check (executeAction sampleHost [7] s 7 0) (fun _ => true) = true)) (by decide)
  obtain ⟨proposal, hget, hp⟩ := (Option.any_eq_true _ _).1 hp
  obtain ⟨hconfig, hcurrent, hexecutes⟩ := of_decide_eq_true hp
  obtain ⟨s', hs', -⟩ := exists_of_check hexecutes
  have hrun := reaches_of_along .refl (along_of_forall (fun _ _ => trivial) _ _) hx
  exact ⟨s, s', proposal, hrun, hs', hget, hconfig, hcurrent⟩

end Astera.AccessControl
