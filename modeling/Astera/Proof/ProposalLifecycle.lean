import Astera.Governance.Lifecycle

/-!
# The outcome of a proposal

Several entrypoints finalize a proposal when they meet it after its voting, and some of them fail
after that, which undoes it.  However late, the outcome is that of the tally at the end of the
voting.
-/

namespace Astera.Governance

open Fallible Machine Transition

variable {W : Type} {h : Host W} {s s' : State W} {tx : Tx W} {id : ℕ} {p : Proposal}

theorem Lively.reaches (hs : Lively s) {P : State W → Proposal → Prop}
    (hrun : Reaches (exec h) (fun _ _ => True) s s') (hget : s.proposal id = some p) (hp : P s p)
    (hkeeps : ∀ t tx t' q, P t q → exec h t tx = .ok t' → P t' q)
    (hmove : ∀ t tx t' q q', Lively t → P t q → Move h t tx id q q' → exec h t tx = .ok t' → P t' q') :
    ∃ p', s'.proposal id = some p' ∧ P s' p' := by
  have hall : Lively s' ∧ ∃ p', s'.proposal id = some p' ∧ P s' p' := by
    apply hrun.invariant (P := fun t => Lively t ∧ ∃ q, t.proposal id = some q ∧ P t q)
    · exact ⟨hs, p, hget, hp⟩
    · intro t tx t' ht _ hx
      obtain ⟨hlively, q, hq, hP⟩ := ht
      obtain ⟨q', hq', rfl | hm⟩ := hlively.follow hx hq
      · exact ⟨hlively.step hx, q', hq', hkeeps t tx t' q' hP hx⟩
      · exact ⟨hlively.step hx, q', hq', hmove t tx t' q q' hlively hP hm hx⟩
  exact hall.2

theorem Lively.closed_stays (hs : Lively s) (hget : s.proposal id = some p) (hclosed : p.Closed)
    (hrun : Reaches (exec h) (fun _ _ => True) s s') : s'.proposal id = some p := by
  obtain ⟨p', hget', rfl⟩ := hs.reaches (P := fun _ q => q = p) hrun hget rfl
    (fun t tx t' q hq _ => hq) fun t tx t' q q' _ hq hm _ => by
      subst hq
      exact hm.of_closed hclosed
  exact hget'

theorem Lively.tally_stays (hs : Lively s) (hget : s.proposal id = some p)
    (hended : p.votingEndsAt ≤ s.now) (hrun : Reaches (exec h) (fun _ _ => True) s s') :
    ∃ p', s'.proposal id = some p' ∧ p.SameTerms p' ∧ p.SameTally p' := by
  obtain ⟨p', hget', -, hterms, htally⟩ := hs.reaches
    (P := fun t q => q.votingEndsAt ≤ t.now ∧ p.SameTerms q ∧ p.SameTally q) hrun hget
    ⟨hended, .refl p, rfl, rfl⟩
    (fun t tx t' q hq hx => ⟨hq.1.trans (now_le_of_exec hx), hq.2⟩)
    fun t tx t' q q' _ hq hm hx => by
      obtain ⟨hlate, hterms, htally⟩ := hq
      have hstep := hm.tally hlate
      refine ⟨?_, hterms.trans hm.terms, hstep.1.trans htally.1, hstep.2.trans htally.2⟩
      rw [hm.terms.votingEndsAt]
      exact hlate.trans (now_le_of_exec hx)
  exact ⟨p', hget', hterms, htally⟩

theorem Lively.cancelled_by_admin (hs : Lively s) (hget : s.proposal id = some p)
    (hended : p.votingEndsAt ≤ s.now) (hpasses : p.Passes) (hstatus : p.status ≠ .Cancelled)
    (hx : exec h s tx = .ok s') {p' : Proposal} (hget' : s'.proposal id = some p')
    (hcancelled : p'.status = .Cancelled) :
    tx.call = .cancelProposal id s.settings.config.admin ∧
      s.settings.config.admin ∈ tx.signers := by
  obtain ⟨q, hq, hmove⟩ := hs.follow hx hget
  obtain rfl := Option.some.inj (hq.symm.trans hget')
  rcases hmove with rfl | hmove
  · exact absurd hcancelled hstatus
  cases hmove with
  | voted hcall hactive hopen => exact absurd hopen (not_lt.2 hended)
  | settled hcall hsettles =>
    cases hsettles with
    | same => exact absurd hcancelled hstatus
    | rejected | passed | lapsed | expired => cases hcancelled
  | executed => cases hcancelled
  | cancelled hcall hauth hsettles hcaller =>
    rcases hcaller with ⟨hactive, -⟩ | ⟨-, rfl⟩
    · -- The finalization leaves no proposal active once the voting has ended.
      cases hsettles with
      | same hopen => exact absurd (hopen hactive) (not_lt.2 hended)
      | rejected | passed | lapsed | expired => cases hactive
    · exact ⟨hcall, hauth⟩

/-- In every run, from the end of the voting on: the tally of a proposal stays; its status is `Passed`,
`Executed` or `Expired` only if the tally passes, and `Rejected` only if it does not; a status other
than `Active` and `Passed` is never left; and a proposal whose tally passes is cancelled only by the
admin. -/
theorem proposal_outcome {now : ℕ} {world : W} {admin shareToken : Address} {votingPeriodSecs : ℕ}
    {quorumBps passBps executionDelaySecs : ℕ} {minShareBalance : ℤ} {s₀ : State W}
    (hinit : initializeGovernance now world admin shareToken votingPeriodSecs quorumBps passBps
      executionDelaySecs minShareBalance = .ok s₀)
    (hrun : Reaches (exec h) (fun _ _ => True) s₀ s) (hget : s.proposal id = some p) :
    (p.votingEndsAt ≤ s.now → ∀ s', Reaches (exec h) (fun _ _ => True) s s' →
      ∃ p', s'.proposal id = some p' ∧ p.SameTerms p' ∧ p.SameTally p' ∧
        (p'.Passes ↔ p.Passes)) ∧
    (p.status = .Passed ∨ p.status = .Executed ∨ p.status = .Expired →
      p.votingEndsAt ≤ s.now ∧ p.Passes) ∧
    (p.status = .Rejected → p.votingEndsAt ≤ s.now ∧ ¬ p.Passes) ∧
    (p.Closed → ∀ s', Reaches (exec h) (fun _ _ => True) s s' → s'.proposal id = some p) ∧
    (p.votingEndsAt ≤ s.now → p.Passes → p.status ≠ .Cancelled →
      ∀ tx s' p', exec h s tx = .ok s' → s'.proposal id = some p' → p'.status = .Cancelled →
        tx.call = .cancelProposal id s.settings.config.admin ∧
          s.settings.config.admin ∈ tx.signers) := by
  have hs : Lively s := (lively_initial hinit).run hrun
  have hsound := hs.sound id p hget
  refine ⟨?_, ?_, ?_, ?_, ?_⟩
  · intro hended s' hlater
    obtain ⟨p', hget', hterms, htally⟩ := hs.tally_stays hget hended hlater
    exact ⟨p', hget', hterms, htally, Proposal.passes_congr hterms htally⟩
  · intro hstatus
    obtain ⟨hpasses, hended, -⟩ := hsound.passed hstatus
    exact ⟨hended, hpasses⟩
  · intro hstatus
    obtain ⟨hnot, hended⟩ := hsound.rejected hstatus
    exact ⟨hended, hnot⟩
  · intro hclosed s' hlater
    exact hs.closed_stays hget hclosed hlater
  · intro hended hpasses hstatus tx s' p' hx hget' hcancelled
    exact hs.cancelled_by_admin hget hended hpasses hstatus hx hget' hcancelled

/-- The proposal of account 5 is passed against account 6 and finalized after its end. -/
def passedProposal : List (Tx Unit) :=
  [sampleProposal, ⟨[5], .vote 1 5 true⟩, ⟨[6], .vote 1 6 false⟩, ⟨[], .advance 87400⟩,
    ⟨[], .finalizeProposalIfDue 1⟩]

theorem proposal_outcome_passed :
    ∃ s₀ s p, sampleStart = .ok s₀ ∧ passedProposal.foldlM (exec sampleHost) s₀ = .ok s ∧
      s.proposal 1 = some p ∧ p.status = .Passed ∧ p.Passes ∧
      ∀ s', Reaches (exec sampleHost) (fun _ _ => True) s s' →
        ∃ p', s'.proposal 1 = some p' ∧ p'.votesFor = 600 ∧ p'.votesAgainst = 400 := by
  obtain ⟨s₀, hinit, hp⟩ := exists_of_check (x := sampleStart)
    (p := fun s₀ => check (passedProposal.foldlM (exec sampleHost) s₀) fun s =>
      decide (∃ p ∈ s.proposal 1, p.status = .Passed ∧ p.votesFor = 600 ∧ p.votesAgainst = 400 ∧
        p.votingEndsAt ≤ s.now)) (by decide)
  obtain ⟨s, hs, hp⟩ := exists_of_check hp
  obtain ⟨p, hget, hpassed, hfor, hagainst, hended⟩ := of_decide_eq_true hp
  have hrun : Reaches (exec sampleHost) (fun _ _ => True) s₀ s :=
    reaches_of_along .refl (along_of_forall (fun _ _ => trivial) _ _) hs
  obtain ⟨htally, hstatus, -⟩ := proposal_outcome hinit hrun hget
  refine ⟨s₀, s, p, hinit, hs, hget, hpassed, (hstatus (.inl hpassed)).2, fun s' hlater => ?_⟩
  obtain ⟨p', hget', -, hsame, -⟩ := htally hended s' hlater
  exact ⟨p', hget', hsame.1.trans hfor, hsame.2.trans hagainst⟩

/-! ## The support of a proposal that passes -/

/-- The terms of the votes that are accepted: `validate_bps`. -/
def AcceptedBps (quorumBps passBps : ℕ) : Prop :=
  (quorumBps ≠ 0 ∧ quorumBps ≤ 10000) ∧ 5000 < passBps ∧ passBps ≤ 10000

/-- The quorum of every category and the threshold are accepted. -/
def GovernanceConfig.Accepted (config : GovernanceConfig) : Prop :=
  ∀ category, AcceptedBps (config.quorumForCategory category) config.passBps

/-- The votes are counted up, and the terms were accepted. -/
structure Proposal.Fair (p : Proposal) : Prop where
  votesFor : 0 ≤ p.votesFor
  votesAgainst : 0 ≤ p.votesAgainst
  accepted : AcceptedBps p.quorumBps p.passBps

/-- The invariant: the settings are accepted, and so were those of every proposal. -/
structure Fair (s : State W) : Prop where
  settings : s.settings.config.Accepted
  proposal : ∀ id p, s.proposal id = some p → p.Fair

theorem validateBps_eq_ok {quorumBps passBps : ℕ} {u : Unit} :
    validateBps quorumBps passBps = .ok u ↔ AcceptedBps quorumBps passBps := by
  simp only [validateBps, bind_eq_ok, exists_unit, require_eq_ok, AcceptedBps]

theorem GovernanceConfig.Accepted.withQuorum {config : GovernanceConfig} (hs : config.Accepted)
    {quorumBps : ℕ} (hquorum : quorumBps ≠ 0 ∧ quorumBps ≤ 10000) (category : ProposalCategory) :
    (config.withQuorum quorumBps category).Accepted := by
  intro other
  have hpass : (config.withQuorum quorumBps category).passBps = config.passBps := by
    cases category <;> rfl
  have hother : (config.withQuorum quorumBps category).quorumForCategory other =
      if other = category then quorumBps else config.quorumForCategory other := by
    cases category <;> cases other <;> rfl
  rw [hpass, hother]
  split_ifs
  · exact ⟨hquorum, (hs other).2⟩
  · exact hs other

theorem GovernanceConfig.Accepted.update {config : GovernanceConfig} (hs : config.Accepted)
    {quorumBps passBps : ℕ} (hbps : AcceptedBps quorumBps passBps) :
    { config with quorumBps := quorumBps, passBps := passBps : GovernanceConfig }.Accepted := by
  intro category
  cases category with
  | ParameterChange => exact hbps
  | Treasury => exact ⟨(hs .Treasury).1, hbps.2⟩
  | Critical => exact ⟨(hs .Critical).1, hbps.2⟩

theorem applySetting_accepted {signers : List Address} {settings settings' : Settings}
    {setting : Setting} (hs : settings.config.Accepted)
    (hx : applySetting signers settings setting = .ok settings') : settings'.config.Accepted := by
  cases setting with
  | setCategoryQuorum caller category quorumBps =>
    simp only [applySetting, setCategoryQuorum, bind_eq_ok, exists_unit, require_eq_ok,
      pure_eq_ok] at hx
    obtain ⟨-, -, -, hquorum, rfl⟩ := hx
    exact hs.withQuorum hquorum category
  | setCategoryQuorumViaAc accessControl category quorumBps =>
    simp only [applySetting, setCategoryQuorumViaAc, bind_eq_ok, exists_unit, require_eq_ok,
      pure_eq_ok] at hx
    obtain ⟨-, -, -, hquorum, rfl⟩ := hx
    exact hs.withQuorum hquorum category
  | updateConfig caller quorumBps passBps =>
    simp only [applySetting, updateConfig, bind_eq_ok, exists_unit, validateBps_eq_ok,
      pure_eq_ok] at hx
    obtain ⟨-, -, -, hbps, rfl⟩ := hx
    exact hs.update hbps
  | updateConfigViaAc accessControl quorumBps passBps =>
    simp only [applySetting, updateConfigViaAc, bind_eq_ok, exists_unit, validateBps_eq_ok,
      pure_eq_ok] at hx
    obtain ⟨-, -, -, hbps, rfl⟩ := hx
    exact hs.update hbps
  | _ =>
    simp only [applySetting, setVotingPeriod, setExecutionExpiry, setExecutionDelay,
      setExecutionDelayViaAc, setPaused, setGovernanceAddress,
      updateMinShareBalance, updateMinShareBalanceViaAc, setAccessControl, setAccessControlViaAc,
      bind_eq_ok, exists_unit, pure_eq_ok] at hx
    obtain ⟨-, -, -, -, rfl⟩ := hx
    exact hs

theorem exec_settings (hx : exec h s tx = .ok s') :
    s'.settings = s.settings ∨
      ∃ setting, applySetting tx.signers s.settings setting = .ok s'.settings := by
  cases exec_effect hx with
  | created hcall hsupply hpos hnew hstate => exact .inl (by rw [hstate]; rfl)
  | moved hget hmove hproposal hcount hvoted hframe => exact .inl hframe.settings
  | kept hquiet =>
    obtain ⟨signers, call⟩ := tx
    cases call with
    | set setting =>
      obtain ⟨settings, hset, rfl⟩ := (map_eq_ok _ _ _).1 hx
      exact .inr ⟨setting, hset⟩
    | finalizeProposalIfDue proposalId =>
      simp only [exec, finalizeProposalIfDue, bind_eq_ok, Prod.exists, pure_eq_ok] at hx
      obtain ⟨p, -, p', changed, -, rfl⟩ := hx
      cases changed <;> exact .inl rfl
    | advance now =>
      simp only [exec, advance, bind_eq_ok, exists_unit, pure_eq_ok] at hx
      obtain ⟨-, rfl⟩ := hx
      exact .inl rfl
    | elsewhere world =>
      obtain rfl := Except.ok.inj hx
      exact .inl rfl
    | createProposal | vote | executeProposal | cancelProposal => cases hquiet

theorem Proposal.Fair.of_same (hp : p.Fair) {p' : Proposal} (hterms : p.SameTerms p')
    (htally : p.SameTally p') : p'.Fair := by
  refine ⟨htally.1 ▸ hp.votesFor, htally.2 ▸ hp.votesAgainst, ?_⟩
  rw [hterms.quorumBps, hterms.passBps]
  exact hp.accepted

theorem Proposal.Fair.move (hp : p.Fair) {p' : Proposal} (hmove : Move h s tx id p p') :
    p'.Fair := by
  cases hmove with
  | @voted _ inFavor weight q hcall hactive hopen hfresh hweight hpos hcount =>
    obtain ⟨-, -, hterms⟩ := Proposal.countVote_eq_ok hcount
    have hvotes : 0 ≤ p'.votesFor ∧ 0 ≤ p'.votesAgainst := by
      have hfor := hp.votesFor
      have hagainst := hp.votesAgainst
      unfold Proposal.countVote at hcount
      split_ifs at hcount
      all_goals
        simp only [bind_eq_ok, okOr_eq_ok, checkedAdd_eq_some, pure_eq_ok] at hcount
        obtain ⟨_, ⟨rfl, -⟩, rfl⟩ := hcount
        exact ⟨by dsimp only; omega, by dsimp only; omega⟩
    refine ⟨hvotes.1, hvotes.2, ?_⟩
    rw [hterms.quorumBps, hterms.passBps]
    exact hp.accepted
  | settled hcall hsettles => exact hp.of_same hsettles.terms hsettles.tally
  | executed hcall hfinal =>
    rcases hfinal with ⟨-, -, rfl⟩ | ⟨-, rfl⟩ <;> exact ⟨hp.votesFor, hp.votesAgainst, hp.accepted⟩
  | cancelled hcall hauth hsettles =>
    have hq := hp.of_same hsettles.terms hsettles.tally
    exact ⟨hq.votesFor, hq.votesAgainst, hq.accepted⟩

theorem Fair.step (hs : Fair s) (hx : exec h s tx = .ok s') : Fair s' := by
  have hsettings : s'.settings.config.Accepted := by
    rcases exec_settings hx with hsame | ⟨setting, hset⟩
    · rw [hsame]
      exact hs.settings
    · exact applySetting_accepted hs.settings hset
  refine ⟨hsettings, fun id' p' hget' => ?_⟩
  cases exec_effect hx with
  | @created q _ _ _ _ category _ hcall hsupply hpos hnew hstate =>
    rw [hstate] at hget'
    by_cases hid : id' = s.proposalCount + 1
    · have hq : q = p' := by simpa [State.setProposal, hid] using hget'
      rw [← hq, hnew]
      exact ⟨le_rfl, le_rfl, hs.settings category⟩
    · exact hs.proposal id' p' (by simpa [State.setProposal, Function.update_of_ne hid] using hget')
  | @moved i q q' hget hmove hproposal hcount hvoted hframe =>
    rw [hproposal] at hget'
    by_cases hid : id' = i
    · rw [hid, Function.update_self, Option.some.injEq] at hget'
      exact hget' ▸ (hs.proposal i q hget).move hmove
    · rw [Function.update_of_ne hid] at hget'
      exact hs.proposal id' p' hget'
  | kept hquiet hproposal =>
    rw [hproposal] at hget'
    exact hs.proposal id' p' hget'

theorem fair_initial {now : ℕ} {world : W} {admin shareToken : Address} {votingPeriodSecs : ℕ}
    {quorumBps passBps executionDelaySecs : ℕ} {minShareBalance : ℤ}
    (hinit : initializeGovernance now world admin shareToken votingPeriodSecs quorumBps passBps
      executionDelaySecs minShareBalance = .ok s) : Fair s := by
  simp only [initializeGovernance, bind_eq_ok, exists_unit, validateBps_eq_ok, pure_eq_ok] at hinit
  obtain ⟨hbps, -, -, rfl⟩ := hinit
  refine ⟨?_, fun id p hget => by cases hget⟩
  have hpass : passBps ≠ 0 := by
    have := hbps.2.1
    omega
  intro category
  dsimp only
  rw [if_neg hpass]
  cases category with
  | ParameterChange =>
    show AcceptedBps (if quorumBps = 0 then _ else _) _
    rw [if_neg hbps.1.1]
    exact hbps
  | Treasury =>
    exact ⟨(by decide : defaultTreasuryQuorumBps ≠ 0 ∧ defaultTreasuryQuorumBps ≤ 10000), hbps.2⟩
  | Critical =>
    exact ⟨(by decide : defaultCriticalQuorumBps ≠ 0 ∧ defaultCriticalQuorumBps ≤ 10000), hbps.2⟩

/-- The votes cast are exactly the quorum, and rounding it down dropped something. -/
def Proposal.QuorumTruncated (p : Proposal) : Prop :=
  p.votesFor + p.votesAgainst = p.quorum ∧ (p.snapshotSupply * p.quorumBps) % 10000 ≠ 0

instance (p : Proposal) : Decidable p.QuorumTruncated := inferInstanceAs (Decidable (_ ∧ _))

theorem Proposal.Fair.support (hp : p.Fair) (hpasses : p.Passes) :
    p.snapshotSupply * p.quorumBps < (p.votesFor + p.votesAgainst + 1) * 10000 ∧
      (0 < p.votesFor + p.votesAgainst → p.votesAgainst < p.votesFor) ∧
      (p.votesAgainst < p.votesFor ∧
          p.snapshotSupply * p.quorumBps ≤ (p.votesFor + p.votesAgainst) * 10000 ↔
        ¬ p.QuorumTruncated) := by
  obtain ⟨hsupply, hquorum, hthreshold⟩ := hpasses
  obtain ⟨hfor, hagainst, ⟨hpos, -⟩, hmajority, -⟩ := hp
  have hscaled : 0 < p.snapshotSupply * p.quorumBps :=
    mul_pos hsupply (by exact_mod_cast Nat.pos_of_ne_zero hpos)
  have hvotes : 0 ≤ p.votesFor + p.votesAgainst := add_nonneg hfor hagainst
  have hmajor : (p.votesFor + p.votesAgainst) * 5001 ≤ p.votesFor * 10000 :=
    (mul_le_mul_of_nonneg_left (by exact_mod_cast hmajority) hvotes).trans hthreshold
  unfold Proposal.QuorumTruncated
  unfold Proposal.quorum at hquorum ⊢
  rw [Int.tdiv_eq_ediv_of_nonneg hscaled.le] at hquorum ⊢
  generalize p.snapshotSupply * p.quorumBps = scaled at hquorum hscaled ⊢
  refine ⟨by omega, by omega, ?_⟩
  constructor
  · rintro ⟨-, hmet⟩ ⟨hexact, hdropped⟩
    omega
  · intro hnot
    omega

/-- In every run, a proposal that is finalized as passed has reached the quorum up to less than one
vote; it has more votes for it than against it once any vote is cast; and it has the majority and the
full quorum except when the votes cast are exactly a quorum that was rounded down. -/
theorem passed_support {now : ℕ} {world : W} {admin shareToken : Address} {votingPeriodSecs : ℕ}
    {quorumBps passBps executionDelaySecs : ℕ} {minShareBalance : ℤ} {s₀ : State W}
    (hinit : initializeGovernance now world admin shareToken votingPeriodSecs quorumBps passBps
      executionDelaySecs minShareBalance = .ok s₀)
    (hrun : Reaches (exec h) (fun _ _ => True) s₀ s) (hget : s.proposal id = some p)
    (hactive : p.status = .Active) {p' : Proposal} {failure : Option GovernanceError}
    (hfinal : finalizeProposal p = .ok (p', failure)) (hpassed : p'.status = .Passed) :
    0 < p.snapshotSupply ∧
      p.snapshotSupply * p.quorumBps < (p.votesFor + p.votesAgainst + 1) * 10000 ∧
      (0 < p.votesFor + p.votesAgainst → p.votesAgainst < p.votesFor) ∧
      (p.votesAgainst < p.votesFor ∧
          p.snapshotSupply * p.quorumBps ≤ (p.votesFor + p.votesAgainst) * 10000 ↔
        ¬ p.QuorumTruncated) := by
  have hfair : Fair s := hrun.invariant (fair_initial hinit) fun _ _ _ ht _ hx => ht.step hx
  rcases finalizeProposal_eq_ok hfinal with ⟨hnot, -⟩ | ⟨-, rfl⟩
  · exact absurd hactive hnot
  · rcases Proposal.settled_status with ⟨-, hpasses⟩ | ⟨hrejected, -⟩
    · exact ⟨hpasses.1, (hfair.proposal id p hget).support hpasses⟩
    · rw [hrejected] at hpassed
      cases hpassed

theorem passed_support_of_majority :
    ∃ s₀ s p p', sampleStart = .ok s₀ ∧
      (passedProposal.take 4).foldlM (exec sampleHost) s₀ = .ok s ∧ s.proposal 1 = some p ∧
      finalizeProposal p = .ok (p', none) ∧ p'.status = .Passed ∧
      p.snapshotSupply * p.quorumBps < (p.votesFor + p.votesAgainst + 1) * 10000 := by
  obtain ⟨s₀, hinit, hp⟩ := exists_of_check (x := sampleStart)
    (p := fun s₀ => check ((passedProposal.take 4).foldlM (exec sampleHost) s₀) fun s =>
      decide (∃ p ∈ s.proposal 1, p.status = .Active ∧
        check (finalizeProposal p) (fun x => decide (x.1.status = .Passed ∧ x.2 = none)) = true))
    (by decide)
  obtain ⟨s, hs, hp⟩ := exists_of_check hp
  obtain ⟨p, hget, hactive, hfinal⟩ := of_decide_eq_true hp
  obtain ⟨⟨p', failure⟩, hfinal, hp'⟩ := exists_of_check hfinal
  obtain ⟨hpassed, rfl⟩ := of_decide_eq_true hp'
  have hrun : Reaches (exec sampleHost) (fun _ _ => True) s₀ s :=
    reaches_of_along .refl (along_of_forall (fun _ _ => trivial) _ _) hs
  exact ⟨s₀, s, p, p', hinit, hs, hget, hfinal, hpassed,
    (passed_support hinit hrun hget hactive hfinal hpassed).2.1⟩

/-- There are 5 shares, all of them account 5's. -/
def fewShares : Host Unit :=
  { sampleHost with
    balanceAt := fun _ _ holder _ => some (if holder = 5 then 5 else 0)
    totalSupply := fun _ _ => some 5 }

/-- With 5 shares a quorum of a tenth is rounded down to no vote at all, and a proposal that nobody
voted on passes. -/
theorem passed_without_votes :
    ∃ s₀ s p p', sampleStart = .ok s₀ ∧ Reaches (exec fewShares) (fun _ _ => True) s₀ s ∧
      s.proposal 1 = some p ∧ p.snapshotSupply = 5 ∧ p.quorumBps = 1000 ∧ p.passBps = 6000 ∧
      finalizeProposal p = .ok (p', none) ∧ p'.status = .Passed ∧
      p.votesFor = 0 ∧ p.votesAgainst = 0 ∧
      (p.votesFor + p.votesAgainst) * 10000 < p.snapshotSupply * p.quorumBps := by
  obtain ⟨s₀, hinit, hp⟩ := exists_of_check (x := sampleStart)
    (p := fun s₀ => check ([sampleProposal, ⟨[], .advance 87400⟩].foldlM (exec fewShares) s₀) fun s =>
      decide (∃ p ∈ s.proposal 1, (p.snapshotSupply = 5 ∧ p.quorumBps = 1000 ∧ p.passBps = 6000) ∧
        check (finalizeProposal p) (fun x => decide (x.1.status = .Passed ∧ x.2 = none)) = true ∧
        p.votesFor = 0 ∧ p.votesAgainst = 0 ∧
        (p.votesFor + p.votesAgainst) * 10000 < p.snapshotSupply * p.quorumBps))
    (by decide)
  obtain ⟨s, hs, hp⟩ := exists_of_check hp
  obtain ⟨p, hget, ⟨hsupply, hquorum, hpass⟩, hfinal, hvotes⟩ := of_decide_eq_true hp
  obtain ⟨⟨p', failure⟩, hfinal, hp'⟩ := exists_of_check hfinal
  obtain ⟨hpassed, rfl⟩ := of_decide_eq_true hp'
  exact ⟨s₀, s, p, p', hinit,
    reaches_of_along .refl (along_of_forall (fun _ _ => trivial) _ _) hs, hget, hsupply, hquorum,
    hpass, hfinal, hpassed, hvotes⟩

end Astera.Governance
