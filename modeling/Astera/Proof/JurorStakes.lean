import Astera.Arbitration.Court

/-!
# Backing and locking of the juror stakes

The stakes of the jurors are covered by the stake tokens of the contract, a settlement only moves
stake between jurors, and a juror with a seat on an open committee cannot take its stake out.
-/

namespace Astera.Arbitration

open Fallible Machine Transition

variable {W : Type} {h : Host W} {s s' : State W}

structure Backed (h : Host W) (s : State W) : Prop where
  sound : Sound s
  covered : s.staked ≤ s.balances h.self

theorem staked_set (s : State W) {operator : Address} {info : JurorInfo}
    (hget : s.jurors.get operator = some info) (info' : JurorInfo) :
    (s.setJuror operator info').staked = s.staked - info.stakeAmount + info'.stakeAmount := by
  show (s.jurors.set operator info').total _ = _
  rw [Store.total_set, Store.part_of_get hget]
  rfl

theorem staked_registered {operator : Address} (stakeAmount : ℤ)
    (hnew : s.jurors.get operator = none) :
    (s.registered h operator stakeAmount).staked = s.staked + stakeAmount := by
  show (s.jurors.set operator _).total _ = _
  rw [Store.total_set, Store.part_of_get_none hnew, sub_zero]
  rfl

theorem staked_departed {operator : Address} {info : JurorInfo}
    (hget : s.jurors.get operator = some info) (stakeAmount : ℤ) :
    (s.departed h operator stakeAmount).staked = s.staked - info.stakeAmount := by
  show (s.jurors.remove operator).total _ = _
  rw [Store.total_remove, Store.part_of_get hget]
  rfl

theorem balance_registered {operator : Address} (stakeAmount : ℤ) (hne : h.self ≠ operator) :
    (s.registered h operator stakeAmount).balances h.self = s.balances h.self + stakeAmount :=
  Ledger.move_receiver _ _ hne

theorem balance_departed {operator : Address} (stakeAmount : ℤ) (hne : h.self ≠ operator) :
    (s.departed h operator stakeAmount).balances h.self = s.balances h.self - stakeAmount :=
  Ledger.move_sender _ _ hne

theorem balance_moved {sender : Address} (receiver : Address) (amount : ℤ) (hne : h.self ≠ sender) :
    (s.moved sender receiver amount).balances h.self =
      s.balances h.self + if h.self = receiver then amount else 0 :=
  Ledger.move_of_ne _ _ _ hne

theorem backed_step {tx : Tx h} (hs : Backed h s) (hx : exec h s tx = .ok s') : Backed h s' := by
  have hcovered := hs.covered
  refine ⟨exec_sound hs.sound hx, ?_⟩
  cases exec_effect hs.sound hx with
  | @registered operator stakeAmount hcall hauth hmin hnew =>
    rw [balance_registered stakeAmount (tx.self_ne hauth), staked_registered stakeAmount hnew]
    omega
  | @requested operator info hcall hget =>
    rw [staked_set s hget]
    show s.staked - info.stakeAmount + info.stakeAmount ≤ s.balances h.self
    omega
  | @departed operator info requestedAt hcall hauth hget =>
    rw [balance_departed info.stakeAmount (tx.self_ne hauth), staked_departed hget]
    omega
  | @drawn caseId shuffled case hcall hdraws =>
    obtain ⟨jurorCases, votes, heq⟩ := drawn_eq s caseId case shuffled
    rw [heq]
    exact hcovered
  | finalized hcall hfinal =>
    have hle := hfinal.settles.le
    have hbalances : s'.balances = s.balances := by rw [hfinal.state]
    rw [hbalances]
    omega
  | @transferred sender receiver amount hcall hauth hnn =>
    rw [balance_moved receiver amount (tx.self_ne hauth)]
    show s.staked ≤ _
    split_ifs <;> omega
  | opened | evidenced | committed | revealed | resolved | configured | advanced | elsewhere =>
    exact hcovered

theorem exec_pays {tx : Tx h} (hs : Sound s) (hx : exec h s tx = .ok s')
    (hless : s'.balances h.self < s.balances h.self) :
    ∃ operator, tx.call = .deregisterJuror operator := by
  cases exec_effect hs hx with
  | @registered operator stakeAmount hcall hauth hmin hnew =>
    rw [balance_registered stakeAmount (tx.self_ne hauth)] at hless
    have hpos := hs.valid.minStake
    omega
  | requested hcall => exact ⟨_, hcall⟩
  | departed hcall => exact ⟨_, hcall⟩
  | @drawn caseId shuffled case hcall hdraws =>
    obtain ⟨jurorCases, votes, heq⟩ := drawn_eq s caseId case shuffled
    rw [heq] at hless
    exact absurd hless (lt_irrefl _)
  | finalized hcall hfinal =>
    rw [hfinal.state] at hless
    exact absurd hless (lt_irrefl _)
  | @transferred sender receiver amount hcall hauth hnn =>
    rw [balance_moved receiver amount (tx.self_ne hauth)] at hless
    split_ifs at hless <;> omega
  | opened | evidenced | committed | revealed | resolved | configured | advanced | elsewhere =>
    exact absurd hless (lt_irrefl _)

theorem seated_stays (hs : Sound s) {caseId : ℕ} {juror : Address} (hseat : s.Seated caseId juror)
    (signers : List Address) : ∀ s', deregisterJuror h signers s juror ≠ .ok s' := by
  intro s' hx
  obtain ⟨hstanding, hmine⟩ := hs.seats caseId juror hseat
  obtain ⟨info, -, hget, hcase⟩ := deregisterJuror_eq_ok hx
  rcases hcase with ⟨-, -, hfree, -⟩ | ⟨requestedAt, hrequested, -⟩
  · have hopen := hfree caseId hmine
    obtain ⟨case, hcase, hstatus, -⟩ := hseat
    simp [State.inCommitReveal, hcase, hstatus] at hopen
  · rw [standing_of_get hget, hrequested] at hstanding
    simp at hstanding

theorem seated_step {tx : Tx h} (hs : Sound s) (hx : exec h s tx = .ok s') {caseId : ℕ}
    {juror : Address} (hseat : s.Seated caseId juror) (hcall : tx.call ≠ .finalizeCase caseId) :
    s'.Seated caseId juror := by
  obtain ⟨case, hget, hopen, hmem⟩ := hseat
  exact ⟨case, exec_case_open hs hx hget hopen hcall, hopen, hmem⟩

/-- In every run, the contract's stake tokens cover the stakes and no stake is negative; a settlement
does not raise the sum of the stakes, and one that reaches a quorum whose majority has stake lowers it
by less than one unit for each juror of the majority; and until a case is finalized, the members of
its committee stay jurors, cannot deregister, and see no stake tokens paid out but to other jurors. -/
theorem juror_stakes_conserved {now : ℕ} {world : W} {balances : Address → ℤ}
    {admin invoiceContract stakeToken : Address} {minStake : ℤ} {start : State W}
    (hinit : initializeArbitration now world balances admin invoiceContract stakeToken minStake =
      .ok start)
    (hnn : 0 ≤ balances h.self) {s : State W}
    (hrun : Reaches (exec h) (fun _ _ => True) start s) :
    s.staked ≤ s.balances h.self ∧
      (∀ a info, s.jurors.get a = some info → 0 ≤ info.stakeAmount) ∧
      (∀ caseId s', finalizeCase h s caseId = .ok s' → s'.staked ≤ s.staked ∧
        ∀ case, s.cases.get caseId = some case →
          s.settings.config.quorumFloor ≤ (s.revealed caseId case.jurors).length →
          0 < ((s.majority caseId case.jurors).map s.stakeOf).sum →
          s.staked - s'.staked < (s.majority caseId case.jurors).length) ∧
      ∀ caseId juror, s.Seated caseId juror →
        ∀ s', Reaches (exec h) (fun _ tx => tx.call ≠ .finalizeCase caseId) s s' →
          s'.Seated caseId juror ∧
          (∃ info, s'.jurors.get juror = some info ∧ info.isActive = true ∧
            info.deregisterRequestedAt = none) ∧
          (∀ signers s'', deregisterJuror h signers s' juror ≠ .ok s'') ∧
          ∀ tx s'', exec h s' tx = .ok s'' → s''.balances h.self < s'.balances h.self →
            ∃ operator, operator ≠ juror ∧ tx.call = .deregisterJuror operator := by
  have hbacked : Backed h s := by
    refine hrun.invariant ⟨sound_initial hinit, ?_⟩ fun _ _ _ hs _ => backed_step hs
    obtain ⟨-, rfl⟩ := initializeArbitration_eq_ok.1 hinit
    simpa [State.staked] using hnn
  have hs := hbacked.sound
  refine ⟨hbacked.covered, fun a info hget => ?_, fun caseId s' hx => ?_, ?_⟩
  · have hsolvent := hs.solvent a
    rwa [State.stakeOf, Store.part_of_get hget] at hsolvent
  · obtain ⟨case, hfinal⟩ := finalizeCase_eq_ok hs.solvent hs.valid (hs.committees caseId) hx
    refine ⟨hfinal.settles.le, fun case' hget hquorum hpos => ?_⟩
    obtain rfl : case = case' := Option.some.inj (hfinal.get.symm.trans hget)
    have hwinners : s.winners caseId case.jurors = s.majority caseId case.jurors :=
      if_neg (by omega)
    have hlt := hfinal.settles.lt
    rw [hwinners] at hlt
    exact hlt hpos
  · intro caseId juror hseat s' hlater
    obtain ⟨hs', hseat'⟩ : Sound s' ∧ s'.Seated caseId juror :=
      hlater.invariant (P := fun s => Sound s ∧ s.Seated caseId juror) ⟨hs, hseat⟩ fun _ _ _ hp hcall hx =>
        ⟨exec_sound hp.1 hx, seated_step hp.1 hx hp.2 hcall⟩
    refine ⟨hseat', ?_, fun signers => seated_stays hs' hseat' signers, fun tx s'' hx hless => ?_⟩
    · have hstanding := (hs'.seats caseId juror hseat').1
      unfold State.standing at hstanding
      obtain ⟨info, hget, hinfo⟩ := Option.map_eq_some_iff.1 hstanding
      exact ⟨info, hget, (Prod.mk.inj hinfo).1, (Prod.mk.inj hinfo).2⟩
    · obtain ⟨operator, hcall⟩ := exec_pays hs' hx hless
      refine ⟨operator, ?_, hcall⟩
      rintro rfl
      simp only [exec, hcall] at hx
      exact seated_stays hs' hseat' tx.signers s'' hx

/-- Three jurors are drawn, and two of them vote for the debtor. -/
def sampleVotes : List (Tx sampleHost) :=
  [⟨[2], self_ne_two, .set (.setConfig 2 sampleConfig)⟩,
    ⟨[11], self_ne_eleven, .registerJuror 11 100⟩,
    ⟨[12], self_ne_twelve, .registerJuror 12 150⟩,
    ⟨[13], self_ne_thirteen, .registerJuror 13 300⟩,
    ⟨[3], self_ne_three, .openCase 3 7 21 22 500⟩,
    ⟨[], self_notMem_nil, .advance 20⟩,
    ⟨[], self_notMem_nil, .selectJurors 0 [13, 11, 12]⟩,
    ⟨[11], self_ne_eleven, .commitVote 0 11 sampleCommitment⟩,
    ⟨[12], self_ne_twelve, .commitVote 0 12 sampleCommitment⟩,
    ⟨[], self_notMem_nil, .advance 31⟩,
    ⟨[11], self_ne_eleven, .revealVote 0 11 true sampleSalt⟩,
    ⟨[12], self_ne_twelve, .revealVote 0 12 true sampleSalt⟩,
    ⟨[], self_notMem_nil, .advance 50⟩]

theorem juror_stakes_conserved_rounding :
    ∃ s s' : State Unit, Reaches (exec sampleHost) (fun _ _ => True) sampleStart s ∧
      s.staked = 550 ∧ s.Seated 0 13 ∧
      (∀ signers s'', deregisterJuror sampleHost signers s 13 ≠ .ok s'') ∧
      finalizeCase sampleHost s 0 = .ok s' ∧ s'.staked = 549 ∧ s.staked - s'.staked < 2 := by
  obtain ⟨s, hx, hp⟩ := exists_of_check
    (x := sampleVotes.foldlM (exec sampleHost) sampleStart)
    (p := fun s => (s.cases.get 0).any fun case : DisputeCase => decide (s.staked = 550 ∧
      case.status = .CommitReveal ∧ 13 ∈ case.jurors ∧ s.majority 0 case.jurors = [11, 12] ∧
      s.settings.config.quorumFloor ≤ (s.revealed 0 case.jurors).length ∧
      0 < ((s.majority 0 case.jurors).map s.stakeOf).sum ∧
      check (finalizeCase sampleHost s 0) (fun s' => decide (s'.staked = 549)) = true))
    (by decide)
  obtain ⟨case, hget, hp⟩ := (Option.any_eq_true _ _).1 hp
  obtain ⟨hstaked, hopen, hmem, hmajority, hquorum, hpos, hfinal⟩ := of_decide_eq_true hp
  obtain ⟨s', hs', hstaked'⟩ := exists_of_check hfinal
  have hrun := reaches_of_along .refl (along_of_forall (fun _ _ => trivial) _ _) hx
  obtain ⟨-, -, hsettles, hlocked⟩ :=
    juror_stakes_conserved initializeArbitration_sampleStart (by decide) hrun
  have hseat : s.Seated 0 13 := ⟨case, hget, hopen, hmem⟩
  have hlt := (hsettles 0 s' hs').2 case hget hquorum hpos
  rw [hmajority] at hlt
  exact ⟨s, s', hrun, hstaked, hseat, (hlocked 0 13 hseat s .refl).2.2.1, hs',
    of_decide_eq_true hstaked', hlt⟩

end Astera.Arbitration
