import Astera.Arbitration.Court

/-!
# The bond of a drawn juror

A draw takes distinct jurors who stay, but it does not look at their stakes: the least stake is only
checked when a juror registers.  A drawn juror has it as long as no settlement cuts a stake below
it.
-/

namespace Astera.Arbitration

open Fallible Machine Transition

variable {W : Type} {h : Host W} {s s' : State W}

def Call.finalizes : Call W → Option ℕ
  | .finalizeCase caseId => some caseId
  | _ => none

/-- The configuration is fixed before jurors register. -/
def Configured (s : State W) (tx : Tx h) : Prop := tx.call.configures = true → s.jurorIds = []

/-- A settlement leaves every member of the committee the least stake. -/
def Bonding (s : State W) (tx : Tx h) : Prop :=
  Configured s tx ∧ ∀ caseId ∈ tx.call.finalizes, ∀ case ∈ s.cases.get caseId, ∀ a ∈ case.jurors,
    s.settings.config.minStake ≤ afterSlash (s.stakeOf a) (s.slashRate caseId case.jurors a)

instance (s : State W) (tx : Tx h) : Decidable (Configured s tx) :=
  inferInstanceAs (Decidable (_ → _))

instance (s : State W) (tx : Tx h) : Decidable (Bonding s tx) :=
  inferInstanceAs (Decidable (_ ∧ ∀ caseId ∈ _, ∀ case ∈ s.cases.get caseId, _))

structure Bonded (s : State W) : Prop where
  sound : Sound s
  bonds : ∀ a, (s.standing a).isSome → s.settings.config.minStake ≤ s.stakeOf a

theorem bonded_step {tx : Tx h} (hs : Bonded s) (hok : Bonding s tx) (hx : exec h s tx = .ok s') :
    Bonded s' := by
  have hbonds := hs.bonds
  refine ⟨exec_sound hs.sound hx, ?_⟩
  cases exec_effect hs.sound hx with
  | @registered operator stakeAmount hcall hauth hmin hnew =>
    intro a ha
    by_cases hne : a = operator
    · subst hne
      show s.settings.config.minStake ≤ (s.jurors.set a _).part _ a
      rw [Store.part_of_get (Store.get_set_self _ _ _)]
      exact hmin
    · have hget : (s.registered h operator stakeAmount).jurors.get a = s.jurors.get a :=
        Store.get_set_of_ne _ _ hne
      unfold State.standing at ha
      rw [State.stakeOf, Store.part, hget]
      rw [hget] at ha
      exact hbonds a ha
  | @requested operator info hcall hget =>
    intro a ha
    by_cases hne : a = operator
    · subst hne
      have hold := hbonds a (by rw [standing_of_get hget]; rfl)
      rw [State.stakeOf, Store.part_of_get hget] at hold
      rw [stakeOf_setJuror]
      exact hold
    · have hget' : ∀ info', (s.setJuror operator info').jurors.get a = s.jurors.get a :=
        fun _ => Store.get_set_of_ne _ _ hne
      unfold State.standing at ha
      rw [State.stakeOf, Store.part, hget']
      rw [hget'] at ha
      exact hbonds a ha
  | @departed operator info requestedAt hcall hauth hget =>
    intro a ha
    have hget' : (s.departed h operator info.stakeAmount).jurors.get a =
        if a = operator then none else s.jurors.get a := Store.get_remove _ _ _
    unfold State.standing at ha
    rw [hget'] at ha
    split_ifs at ha with hne
    · cases ha
    · rw [State.stakeOf, Store.part, hget', if_neg hne]
      exact hbonds a ha
  | @drawn caseId shuffled case hcall hdraws =>
    obtain ⟨jurorCases, votes, heq⟩ := drawn_eq s caseId case shuffled
    rw [heq]
    exact hbonds
  | @finalized caseId case _ hcall hfinal =>
    intro a ha
    rw [hfinal.settles.standing] at ha
    have hconfig : s'.settings = s.settings := by rw [hfinal.state]
    have hfloor : s.settings.config.minStake ≤ s.floor caseId case.jurors a := by
      unfold State.floor
      split_ifs with hmem
      · exact hok.2 caseId (by rw [hcall]; rfl) case hfinal.get a hmem
      · exact hbonds a ha
    rw [hconfig]
    exact hfloor.trans (hfinal.settles.keeps a)
  | @configured setting settings hcall hset =>
    intro a ha
    cases hconfigures : Call.configures (W := W) (.set setting) with
    | false =>
      show settings.config.minStake ≤ s.stakeOf a
      rw [applySetting_config hset hconfigures]
      exact hbonds a ha
    | true =>
      -- nobody is registered yet
      have hids := hok.1 (by rw [hcall]; exact hconfigures)
      have hlisted := (hs.sound.listed a).2 ha
      rw [hids] at hlisted
      cases hlisted
  | opened | evidenced | committed | revealed | resolved | advanced | elsewhere | transferred =>
    exact hbonds

theorem draws_bonded_iff {caseId : ℕ} {shuffled : List Address} (hs : Sound s)
    (hx : selectJurors s caseId shuffled = .ok s') :
    (∀ shuffled s', selectJurors s caseId shuffled = .ok s' → ∀ a ∈ s.committee shuffled,
      s.settings.config.minStake ≤ s.stakeOf a) ↔
    ∀ a, s.eligible a = true → s.settings.config.minStake ≤ s.stakeOf a := by
  obtain ⟨case, hpaused, hdraws, -⟩ := selectJurors_eq_ok.1 hx
  constructor
  · intro hall a ha
    -- the host may put this juror first
    have hlisted : a ∈ s.jurorIds := by
      rw [hs.listed, (eligible_iff a).1 ha]
      rfl
    have hmem : a ∈ s.jurorIds.filter s.eligible := List.mem_filter.2 ⟨hlisted, ha⟩
    have hfirst : (a :: (s.jurorIds.filter s.eligible).erase a).Perm (s.jurorIds.filter s.eligible) :=
      (List.perm_cons_erase hmem).symm
    refine hall _ _ (selectJurors_eq_ok.2 ⟨case, hpaused, { hdraws with shuffle := hfirst }, rfl⟩) a ?_
    have hfloor := hs.valid.quorumFloor
    have hsize := hs.valid.committeeSize
    unfold State.committee
    obtain ⟨n, hn⟩ : ∃ n, s.settings.config.committeeSize = n + 1 :=
      Nat.exists_eq_succ_of_ne_zero (by omega)
    rw [hn, List.take_succ_cons]
    exact List.mem_cons_self
  · intro hall shuffled' s'' hx' a ha
    obtain ⟨case', -, hdraws', -⟩ := selectJurors_eq_ok.1 hx'
    have hstanding := ((hdraws'.committee_spec hs).2.2 a ha).2
    exact hall a ((eligible_iff a).2 hstanding)

/-- A juror who stays, with at least this stake. -/
def State.Holds (s : State W) (stake : ℤ) (a : Address) : Prop :=
  ∃ info, s.jurors.get a = some info ∧ info.isActive = true ∧ info.deregisterRequestedAt = none ∧
    stake ≤ info.stakeAmount

theorem holds_of_standing {a : Address} {stake : ℤ} (hstanding : s.standing a = some (true, none))
    (hstake : stake ≤ s.stakeOf a) : s.Holds stake a := by
  unfold State.standing at hstanding
  obtain ⟨info, hget, hinfo⟩ := Option.map_eq_some_iff.1 hstanding
  rw [State.stakeOf, Store.part_of_get hget] at hstake
  exact ⟨info, hget, (Prod.mk.inj hinfo).1, (Prod.mk.inj hinfo).2, hstake⟩

/-- In every run that fixes its configuration before jurors register, a draw takes as many distinct
jurors who stay as the committee has seats; whatever the shuffle, all of them have the least stake
exactly when every juror who stays has it; and they do have it if in the run no settlement left a
member of its committee less. -/
theorem committee_bonded {now : ℕ} {world : W} {balances : Address → ℤ}
    {admin invoiceContract stakeToken : Address} {minStake : ℤ} {start : State W}
    (hinit : initializeArbitration now world balances admin invoiceContract stakeToken minStake =
      .ok start)
    {s : State W} (hrun : Reaches (exec h) Configured start s) {caseId : ℕ} {shuffled : List Address}
    {s' : State W} (hx : selectJurors s caseId shuffled = .ok s') :
    (∃ case, s'.cases.get caseId = some case ∧ case.jurors = s.committee shuffled ∧
      case.jurors.length = s.settings.config.committeeSize ∧ case.jurors.Nodup ∧
      ∀ a ∈ case.jurors, s.Holds 0 a) ∧
    ((∀ shuffled s', selectJurors s caseId shuffled = .ok s' → ∀ a ∈ s.committee shuffled,
        s.Holds s.settings.config.minStake a) ↔
      ∀ a, s.eligible a = true → s.settings.config.minStake ≤ s.stakeOf a) ∧
    (Reaches (exec h) Bonding start s →
      ∀ a ∈ s.committee shuffled, s.Holds s.settings.config.minStake a) := by
  have hs : Sound s := sound_run (sound_initial hinit) hrun
  obtain ⟨case, hpaused, hdraws, rfl⟩ := selectJurors_eq_ok.1 hx
  obtain ⟨hlength, hnodup, hmembers⟩ := hdraws.committee_spec hs
  refine ⟨⟨s.drawnCase case shuffled, ?_, rfl, hlength, hnodup, fun a ha => ?_⟩, ?_, fun hbonding => ?_⟩
  · obtain ⟨jurorCases, votes, heq⟩ := drawn_eq s caseId case shuffled
    rw [heq]
    exact Store.get_set_self _ _ _
  · exact holds_of_standing (hmembers a ha).2 (hs.solvent a)
  · rw [← draws_bonded_iff hs hx]
    refine forall₃_congr fun shuffled' s'' hx' => forall₂_congr fun a ha => ?_
    obtain ⟨case', -, hdraws', -⟩ := selectJurors_eq_ok.1 hx'
    have hstanding := ((hdraws'.committee_spec hs).2.2 a ha).2
    refine ⟨?_, holds_of_standing hstanding⟩
    rintro ⟨info, hget, -, -, hstake⟩
    rwa [State.stakeOf, Store.part_of_get hget]
  · have hbonded : Bonded s := by
      refine hbonding.invariant ⟨sound_initial hinit, fun a ha => ?_⟩ fun _ _ _ => bonded_step
      obtain ⟨-, rfl⟩ := initializeArbitration_eq_ok.1 hinit
      simp [State.standing] at ha
    intro a ha
    have hstanding := (hmembers a ha).2
    exact holds_of_standing hstanding (hbonded.bonds a (by rw [hstanding]; rfl))

/-- Three jurors register and one case is settled; the juror who does not reveal loses a part of its
stake, and the evidence window of a second case passes. -/
def twoCases (first second third : ℤ) : List (Tx sampleHost) :=
  [⟨[2], self_ne_two, .set (.setConfig 2 sampleConfig)⟩,
    ⟨[11], self_ne_eleven, .registerJuror 11 first⟩,
    ⟨[12], self_ne_twelve, .registerJuror 12 second⟩,
    ⟨[13], self_ne_thirteen, .registerJuror 13 third⟩,
    ⟨[3], self_ne_three, .openCase 3 7 21 22 500⟩,
    ⟨[3], self_ne_three, .openCase 3 8 21 22 500⟩,
    ⟨[], self_notMem_nil, .advance 20⟩,
    ⟨[], self_notMem_nil, .selectJurors 0 [13, 11, 12]⟩,
    ⟨[11], self_ne_eleven, .commitVote 0 11 sampleCommitment⟩,
    ⟨[12], self_ne_twelve, .commitVote 0 12 sampleCommitment⟩,
    ⟨[], self_notMem_nil, .advance 31⟩,
    ⟨[11], self_ne_eleven, .revealVote 0 11 true sampleSalt⟩,
    ⟨[12], self_ne_twelve, .revealVote 0 12 true sampleSalt⟩,
    ⟨[], self_notMem_nil, .advance 50⟩,
    ⟨[], self_notMem_nil, .finalizeCase 0⟩]

theorem committee_bonded_second_case :
    ∃ s s' : State Unit, Reaches (exec sampleHost) Bonding sampleStart s ∧
      selectJurors s 1 [12, 13, 11] = .ok s' ∧ s.stakeOf 13 = 291 ∧
      ∀ a ∈ s.committee [12, 13, 11], s.Holds s.settings.config.minStake a := by
  obtain ⟨s, hx, hp⟩ := exists_of_check
    (x := (twoCases 100 150 300).foldlM (exec sampleHost) sampleStart)
    (p := fun s => decide (s.stakeOf 13 = 291 ∧
      check (selectJurors s 1 [12, 13, 11]) (fun _ => true) = true)) (by decide)
  obtain ⟨hstake, hselects⟩ := of_decide_eq_true hp
  obtain ⟨s', hs', -⟩ := exists_of_check hselects
  have hrun := reaches_of_along .refl
    (show Along _ Configured _ (twoCases 100 150 300) by decide) hx
  have hbonding := reaches_of_along .refl
    (show Along _ Bonding _ (twoCases 100 150 300) by decide) hx
  exact ⟨s, s', hbonding, hs', hstake,
    (committee_bonded initializeArbitration_sampleStart hrun hs').2.2 hbonding⟩

/-- The third juror has the least stake of 100, loses 3 of it for not revealing, and is drawn again
with the 97 that are left. -/
theorem slashed_juror_drawn_again :
    ∃ s s' : State Unit, Reaches (exec sampleHost) Configured sampleStart s ∧
      selectJurors s 1 [12, 13, 11] = .ok s' ∧ s.settings.config.minStake = 100 ∧
      13 ∈ s.committee [12, 13, 11] ∧ s.stakeOf 13 = 97 ∧
      ¬ s.Holds s.settings.config.minStake 13 := by
  obtain ⟨s, hx, hp⟩ := exists_of_check
    (x := (twoCases 100 150 100).foldlM (exec sampleHost) sampleStart)
    (p := fun s => decide (s.settings.config.minStake = 100 ∧ 13 ∈ s.committee [12, 13, 11] ∧
      s.stakeOf 13 = 97 ∧ check (selectJurors s 1 [12, 13, 11]) (fun _ => true) = true))
    (by decide)
  obtain ⟨hmin, hmem, hstake, hselects⟩ := of_decide_eq_true hp
  obtain ⟨s', hs', -⟩ := exists_of_check hselects
  have hrun := reaches_of_along .refl
    (show Along _ Configured _ (twoCases 100 150 100) by decide) hx
  refine ⟨s, s', hrun, hs', hmin, hmem, hstake, ?_⟩
  rintro ⟨info, hget, -, -, hle⟩
  rw [State.stakeOf, Store.part_of_get hget] at hstake
  omega

end Astera.Arbitration
