import Astera.Arbitration.Settlement

/-!
# The jurors and the cases of the arbitration contract

What holds of the jurors, the cases and the settings in every state of every run.  `Effect` lists
what a call can do; its case for `finalize_case` rests on `Sound`, which says that a committee has
no juror twice.
-/

namespace Astera.Arbitration

open Fallible Machine Transition
open Invoices (Bytes DisputeResolution)

variable {W : Type} {h : Host W} {s s' : State W}
variable {operator : Address} {case : DisputeCase} {info : JurorInfo} {tx : Tx h} {caseId : ℕ}

/-- The juror sits on the committee of a case whose votes are open. -/
def State.Seated (s : State W) (caseId : ℕ) (juror : Address) : Prop :=
  ∃ case, s.cases.get caseId = some case ∧ case.status = .CommitReveal ∧ juror ∈ case.jurors

/-- The settings passed their checks, stakes are not negative, the list of jurors is exact, and the
members of an open committee are distinct jurors who stay. -/
structure Sound (s : State W) : Prop where
  valid : s.settings.Valid
  solvent : s.Solvent
  nodup : s.jurorIds.Nodup
  listed : ∀ a, a ∈ s.jurorIds ↔ (s.standing a).isSome
  known : ∀ caseId case, s.cases.get caseId = some case → caseId < s.caseCount
  committees : ∀ caseId case, s.cases.get caseId = some case → case.status = .CommitReveal →
    case.jurors.Nodup
  seats : ∀ caseId a, s.Seated caseId a → s.standing a = some (true, none) ∧ caseId ∈ s.jurorCases a

theorem sound_initial {now : ℕ} {world : W} {balances : Address → ℤ}
    {admin invoiceContract stakeToken : Address} {minStake : ℤ}
    (hinit : initializeArbitration now world balances admin invoiceContract stakeToken minStake =
      .ok s) : Sound s := by
  have hvalid := initializeArbitration_valid hinit
  obtain ⟨-, rfl⟩ := initializeArbitration_eq_ok.1 hinit
  refine ⟨hvalid, fun a => le_rfl, List.nodup_nil, fun a => ?_, fun i case hget => ?_,
    fun i case hget => ?_, fun i a hseat => ?_⟩
  · simp [State.standing]
  · simp at hget
  · simp at hget
  · obtain ⟨case, hget, -⟩ := hseat
    simp at hget

/-- The case after the admin or the votes resolved it. -/
def DisputeCase.resolved (case : DisputeCase) (resolution : DisputeResolution) : DisputeCase :=
  { case with status := .Resolved, resolution := resolution }

inductive Effect (h : Host W) (s : State W) (tx : Tx h) : State W → Prop
  | registered {operator : Address} {stakeAmount : ℤ}
      (hcall : tx.call = .registerJuror operator stakeAmount) (hauth : operator ∈ tx.signers)
      (hmin : s.settings.config.minStake ≤ stakeAmount) (hnew : s.jurors.get operator = none) :
      Effect h s tx (s.registered h operator stakeAmount)
  | requested {operator : Address} {info : JurorInfo} (hcall : tx.call = .deregisterJuror operator)
      (hget : s.jurors.get operator = some info)
      (hfree : ∀ caseId ∈ s.jurorCases operator, s.inCommitReveal caseId = false) :
      Effect h s tx (s.setJuror operator
        { info with isActive := false, deregisterRequestedAt := some s.now })
  | departed {operator : Address} {info : JurorInfo} {requestedAt : ℕ}
      (hcall : tx.call = .deregisterJuror operator) (hauth : operator ∈ tx.signers)
      (hget : s.jurors.get operator = some info)
      (hrequested : info.deregisterRequestedAt = some requestedAt) :
      Effect h s tx (s.departed h operator info.stakeAmount)
  | opened {invoice claimant respondent : Address} {invoiceId : ℕ} {amount : ℤ}
      (hcall : tx.call = .openCase invoice invoiceId claimant respondent amount) :
      Effect h s tx
        { s.setCase s.caseCount (s.newCase invoiceId claimant respondent amount) with
          caseCount := s.caseCount + 1
          evidence := Function.update s.evidence s.caseCount [] }
  | evidenced {caseId : ℕ} {submitter : Address} {evidenceHash : Bytes}
      {evidence : ℕ → List EvidenceEntry}
      (hcall : tx.call = .submitEvidence caseId submitter evidenceHash) :
      Effect h s tx { s with evidence := evidence }
  | drawn {caseId : ℕ} {shuffled : List Address} {case : DisputeCase}
      (hcall : tx.call = .selectJurors caseId shuffled) (hdraws : Draws s caseId shuffled case) :
      Effect h s tx (s.drawn caseId case shuffled)
  | committed {caseId : ℕ} {juror : Address} {commitHash : Bytes} {case : DisputeCase}
      {vote : JurorVote} (hcall : tx.call = .commitVote caseId juror commitHash)
      (hcommits : Commits s caseId juror case vote) :
      Effect h s tx (s.setVote caseId juror { vote with commitHash := some commitHash })
  | revealed {caseId : ℕ} {juror : Address} {voteChoice : Bool} {salt : Bytes} {case : DisputeCase}
      {vote : JurorVote} (hcall : tx.call = .revealVote caseId juror voteChoice salt)
      (hreveals : Reveals h s caseId juror voteChoice salt case vote) :
      Effect h s tx (s.setVote caseId juror { vote with revealedVote := some voteChoice })
  | finalized {caseId : ℕ} {case : DisputeCase} {s' : State W}
      (hcall : tx.call = .finalizeCase caseId) (hfinal : Finalizes s caseId case s') :
      Effect h s tx s'
  | resolved {admin : Address} {caseId : ℕ} {resolution : DisputeResolution} {case : DisputeCase}
      {world : W} (hcall : tx.call = .adminResolveNoQuorum admin caseId resolution)
      (hget : s.cases.get caseId = some case) (hstatus : case.status = .NoQuorumEscalated)
      (hretries : saturatingAddU 32 s.settings.config.maxRetries 1 ≤ case.retryCount) :
      Effect h s tx { s.setCase caseId (case.resolved resolution) with world := world }
  | configured {setting : Setting} {settings : Settings} (hcall : tx.call = .set setting)
      (hset : applySetting tx.signers s.settings setting = .ok settings) :
      Effect h s tx { s with settings := settings }
  | advanced {now : ℕ} (hcall : tx.call = .advance now) (hnow : s.now ≤ now) :
      Effect h s tx { s with now := now }
  | elsewhere {world : W} (hcall : tx.call = .elsewhere world) :
      Effect h s tx { s with world := world }
  | transferred {sender receiver : Address} {amount : ℤ}
      (hcall : tx.call = .stakeTransfer sender receiver amount) (hauth : sender ∈ tx.signers)
      (hnn : 0 ≤ amount) : Effect h s tx (s.moved sender receiver amount)

theorem adminResolveNoQuorum_eq_ok {signers : List Address} {admin : Address}
    {resolution : DisputeResolution}
    (hx : adminResolveNoQuorum h signers s admin caseId resolution = .ok s') :
    ∃ case world, s.cases.get caseId = some case ∧ case.status = .NoQuorumEscalated ∧
      saturatingAddU 32 s.settings.config.maxRetries 1 ≤ case.retryCount ∧
      s' = { s.setCase caseId (case.resolved resolution) with world := world } := by
  simp only [adminResolveNoQuorum, bind_eq_ok, exists_unit, require_eq_ok, loadCase_eq_ok,
    pure_eq_ok] at hx
  obtain ⟨-, -, -, case, hget, hstatus, hretries, rfl⟩ := hx
  obtain ⟨world, hworld⟩ := callInvoiceResolve_eq h
    (s.setCase caseId (case.resolved resolution)) case.invoiceId resolution
  exact ⟨case, world, hget, hstatus, hretries, hworld⟩

theorem exec_effect (hs : Sound s) (hx : exec h s tx = .ok s') : Effect h s tx s' := by
  obtain ⟨signers, hself, call⟩ := tx
  cases call with
  | registerJuror operator stakeAmount =>
    obtain ⟨hauth, hmin, hnew, rfl⟩ := registerJuror_eq_ok hx
    exact .registered rfl hauth hmin hnew
  | deregisterJuror operator =>
    obtain ⟨info, hauth, hget, hcase⟩ := deregisterJuror_eq_ok hx
    rcases hcase with ⟨-, -, hfree, rfl⟩ | ⟨requestedAt, hrequested, rfl⟩
    · exact .requested rfl hget hfree
    · exact .departed rfl hauth hget hrequested
  | openCase invoice invoiceId claimant respondent amount =>
    simp only [exec, openCase, map_eq_ok, bind_eq_ok, exists_unit, require_eq_ok, okOr_eq_ok,
      fitU_eq_some, pure_eq_ok] at hx
    obtain ⟨_, ⟨-, -, -, -, _, ⟨rfl, -⟩, rfl⟩, rfl⟩ := hx
    exact .opened rfl
  | submitEvidence caseId submitter evidenceHash =>
    simp only [exec, submitEvidence, bind_eq_ok, exists_unit, pure_eq_ok] at hx
    obtain ⟨-, -, _, -, -, -, _, -, rfl⟩ := hx
    exact .evidenced rfl
  | selectJurors caseId shuffled =>
    obtain ⟨case, -, hdraws, rfl⟩ := selectJurors_eq_ok.1 hx
    exact .drawn rfl hdraws
  | commitVote caseId juror commitHash =>
    obtain ⟨case, vote, hcommits, rfl⟩ := commitVote_eq_ok hx
    exact .committed rfl hcommits
  | revealVote caseId juror voteChoice salt =>
    obtain ⟨case, vote, hreveals, rfl⟩ := revealVote_eq_ok hx
    exact .revealed rfl hreveals
  | finalizeCase caseId =>
    obtain ⟨case, hfinal⟩ := finalizeCase_eq_ok hs.solvent hs.valid (hs.committees caseId) hx
    exact .finalized rfl hfinal
  | adminResolveNoQuorum admin caseId resolution =>
    obtain ⟨case, world, hget, hstatus, hretries, rfl⟩ := adminResolveNoQuorum_eq_ok hx
    exact .resolved rfl hget hstatus hretries
  | set setting =>
    simp only [exec, map_eq_ok] at hx
    obtain ⟨settings, hset, rfl⟩ := hx
    exact .configured rfl hset
  | advance now =>
    simp only [exec, advance, bind_eq_ok, exists_unit, require_eq_ok, pure_eq_ok] at hx
    obtain ⟨⟨hnow, -⟩, rfl⟩ := hx
    exact .advanced rfl hnow
  | elsewhere world =>
    simp only [exec, Except.ok.injEq] at hx
    rw [← hx]
    exact .elsewhere rfl
  | stakeTransfer sender receiver amount =>
    simp only [exec, stakeTransfer, bind_eq_ok, exists_unit, requireAuth_eq_ok, transfer_eq_ok] at hx
    obtain ⟨hauth, hnn, -, rfl⟩ := hx
    exact .transferred rfl hauth hnn

theorem Sound.of_jurors (hs : Sound s) (hsettings : s'.settings = s.settings)
    (hcases : s'.cases = s.cases) (hcount : s'.caseCount = s.caseCount)
    (hjurorCases : s'.jurorCases = s.jurorCases) (hsolvent : s'.Solvent) (hnodup : s'.jurorIds.Nodup)
    (hlisted : ∀ a, a ∈ s'.jurorIds ↔ (s'.standing a).isSome)
    (hstay : ∀ caseId a, s.Seated caseId a → s'.standing a = s.standing a) : Sound s' := by
  refine ⟨?_, hsolvent, hnodup, hlisted, ?_, ?_, fun i a hseat => ?_⟩
  · rw [hsettings]
    exact hs.valid
  · rw [hcases, hcount]
    exact hs.known
  · rw [hcases]
    exact hs.committees
  · have hseat : s.Seated i a := by rwa [State.Seated, hcases] at hseat
    rw [hstay i a hseat, hjurorCases]
    exact hs.seats i a hseat

theorem standing_of_get {a : Address} (hget : s.jurors.get a = some info) :
    s.standing a = some (info.isActive, info.deregisterRequestedAt) := by
  unfold State.standing
  rw [hget]
  rfl

theorem Sound.registered (hs : Sound s) {stakeAmount : ℤ}
    (hmin : s.settings.config.minStake ≤ stakeAmount) (hnew : s.jurors.get operator = none) :
    Sound (s.registered h operator stakeAmount) := by
  have hnone : s.standing operator = none := by
    unfold State.standing
    rw [hnew]
    rfl
  have hfresh : operator ∉ s.jurorIds := by
    rw [hs.listed, hnone]
    simp
  have hids : (s.registered h operator stakeAmount).jurorIds = s.jurorIds ++ [operator] :=
    if_neg hfresh
  have hother : ∀ a, a ≠ operator → (s.registered h operator stakeAmount).standing a = s.standing a := by
    intro a ha
    show ((s.jurors.set operator _).get a).map _ = _
    rw [Store.get_set_of_ne _ _ ha]
    rfl
  have hget : (s.registered h operator stakeAmount).jurors.get operator =
      some (s.newJuror operator stakeAmount) := Store.get_set_self _ _ _
  have hjoined : (s.registered h operator stakeAmount).standing operator = some (true, none) :=
    standing_of_get hget
  refine hs.of_jurors rfl rfl rfl rfl ?_ ?_ (fun a => ?_) fun i a hseat => hother a ?_
  · have hpos := hs.valid.minStake
    refine solvent_setJuror (s.newJuror operator stakeAmount) hs.solvent ?_
    show 0 ≤ stakeAmount
    omega
  · rw [hids]
    exact hs.nodup.append (List.nodup_singleton _) (List.disjoint_singleton.2 hfresh)
  · rw [hids, List.mem_append, List.mem_singleton, hs.listed]
    by_cases ha : a = operator
    · simp [ha, hjoined]
    · simp [ha, hother a ha]
  · rintro rfl
    have hstanding := (hs.seats i a hseat).1
    rw [hnone] at hstanding
    cases hstanding

theorem Sound.requested (hs : Sound s) (hget : s.jurors.get operator = some info)
    (hfree : ∀ caseId ∈ s.jurorCases operator, s.inCommitReveal caseId = false) :
    Sound (s.setJuror operator
      { info with isActive := false, deregisterRequestedAt := some s.now }) := by
  have hother : ∀ a, a ≠ operator → (s.setJuror operator
      { info with isActive := false, deregisterRequestedAt := some s.now }).standing a =
        s.standing a := by
    intro a ha
    show ((s.jurors.set operator _).get a).map _ = _
    rw [Store.get_set_of_ne _ _ ha]
    rfl
  refine hs.of_jurors rfl rfl rfl rfl (solvent_setJuror _ hs.solvent ?_) hs.nodup (fun a => ?_)
    fun i a hseat => hother a ?_
  · have hnn := hs.solvent operator
    rwa [State.stakeOf, Store.part_of_get hget] at hnn
  · show a ∈ s.jurorIds ↔ _
    rw [hs.listed]
    by_cases ha : a = operator
    · rw [ha, standing_of_get hget, standing_of_get (Store.get_set_self _ _ _)]
      simp
    · rw [hother a ha]
  · rintro rfl
    have hopen := hfree i (hs.seats i a hseat).2
    obtain ⟨case, hcase, hstatus, -⟩ := hseat
    simp [State.inCommitReveal, hcase, hstatus] at hopen

theorem Sound.departed (hs : Sound s) {requestedAt : ℕ} (hget : s.jurors.get operator = some info)
    (hrequested : info.deregisterRequestedAt = some requestedAt) (stakeAmount : ℤ) :
    Sound (s.departed h operator stakeAmount) := by
  have hget' : ∀ a, (s.departed h operator stakeAmount).jurors.get a =
      if a = operator then none else s.jurors.get a := Store.get_remove _ _
  have hother : ∀ a, a ≠ operator → (s.departed h operator stakeAmount).standing a = s.standing a := by
    intro a ha
    unfold State.standing
    rw [hget', if_neg ha]
  refine hs.of_jurors rfl rfl rfl rfl (fun a => ?_) (hs.nodup.erase _) (fun a => ?_)
    fun i a hseat => hother a ?_
  · by_cases ha : a = operator
    · rw [State.stakeOf, Store.part_of_get_none ((hget' a).trans (if_pos ha))]
    · rw [State.stakeOf, Store.part, hget', if_neg ha]
      exact hs.solvent a
  · show a ∈ s.jurorIds.erase operator ↔ _
    rw [hs.nodup.mem_erase_iff, hs.listed]
    by_cases ha : a = operator
    · simp [ha, State.standing, hget']
    · simp [ha, hother a ha]
  · rintro rfl
    have hstanding := (hs.seats i a hseat).1
    rw [standing_of_get hget, hrequested] at hstanding
    simp at hstanding

/-! ## The cases -/

structure Writable (s : State W) (jurorCases : Address → List ℕ) (caseId : ℕ) (case : DisputeCase) :
    Prop where
  nodup : case.status = .CommitReveal → case.jurors.Nodup
  seats : case.status = .CommitReveal → ∀ a ∈ case.jurors,
    s.standing a = some (true, none) ∧ caseId ∈ jurorCases a

theorem writable_of_closed {jurorCases : Address → List ℕ} (hclosed : case.status ≠ .CommitReveal) :
    Writable s jurorCases caseId case :=
  ⟨fun hopen => absurd hopen hclosed, fun hopen => absurd hopen hclosed⟩

theorem Sound.of_cases (hs : Sound s) (hvalid : s'.settings.Valid) (hsolvent : s'.Solvent)
    (hids : s'.jurorIds = s.jurorIds) (hstanding : ∀ a, s'.standing a = s.standing a)
    (hcount : s.caseCount ≤ s'.caseCount)
    (hjurorCases : ∀ a, ∀ i ∈ s.jurorCases a, i ∈ s'.jurorCases a)
    (hcases : ∀ i case, s'.cases.get i = some case → s.cases.get i = some case ∨
      (i < s'.caseCount ∧ Writable s s'.jurorCases i case)) : Sound s' := by
  refine ⟨hvalid, hsolvent, ?_, fun a => ?_, fun i case hget => ?_, fun i case hget hopen => ?_,
    fun i a hseat => ?_⟩
  · rw [hids]
    exact hs.nodup
  · rw [hids, hstanding]
    exact hs.listed a
  · rcases hcases i case hget with hold | ⟨hlt, -⟩
    · exact (hs.known i case hold).trans_le hcount
    · exact hlt
  · rcases hcases i case hget with hold | ⟨-, hnew⟩
    · exact hs.committees i case hold hopen
    · exact hnew.nodup hopen
  · obtain ⟨case, hget, hopen, hmem⟩ := hseat
    rw [hstanding]
    rcases hcases i case hget with hold | ⟨-, hnew⟩
    · obtain ⟨hstays, hmine⟩ := hs.seats i a ⟨case, hold, hopen, hmem⟩
      exact ⟨hstays, hjurorCases a i hmine⟩
    · exact hnew.seats hopen a hmem

theorem Sound.setCase (hs : Sound s) (hvalid : s'.settings.Valid) (hsolvent : s'.Solvent)
    (hids : s'.jurorIds = s.jurorIds) (hstanding : ∀ a, s'.standing a = s.standing a)
    (hcount : s.caseCount ≤ s'.caseCount)
    (hjurorCases : ∀ a, ∀ i ∈ s.jurorCases a, i ∈ s'.jurorCases a)
    (hcases : s'.cases = s.cases.set caseId case) (hlt : caseId < s'.caseCount)
    (hwritable : Writable s s'.jurorCases caseId case) : Sound s' := by
  refine hs.of_cases hvalid hsolvent hids hstanding hcount hjurorCases fun i case' hget => ?_
  rw [hcases, Store.get_set] at hget
  split_ifs at hget with hi
  · cases hget
    exact .inr ⟨hi ▸ hlt, hi ▸ hwritable⟩
  · exact .inl hget

theorem eligible_iff (a : Address) : s.eligible a = true ↔ s.standing a = some (true, none) := by
  unfold State.eligible State.standing
  cases s.jurors.get a with
  | none => simp
  | some info => simp

theorem Draws.committee_spec {shuffled : List Address} (hs : Sound s)
    (hdraws : Draws s caseId shuffled case) :
    (s.committee shuffled).length = s.settings.config.committeeSize ∧
      (s.committee shuffled).Nodup ∧
      ∀ a ∈ s.committee shuffled, a ∈ s.jurorIds ∧ s.standing a = some (true, none) := by
  refine ⟨?_, ?_, fun a ha => ?_⟩
  · unfold State.committee
    rw [List.length_take, hdraws.shuffle.length_eq]
    exact Nat.min_eq_left hdraws.enough
  · exact (List.take_sublist _ _).nodup (hdraws.shuffle.nodup_iff.2 (hs.nodup.filter _))
  · have hmem := hdraws.shuffle.subset (List.take_subset _ _ ha)
    rw [List.mem_filter] at hmem
    exact ⟨hmem.1, (eligible_iff a).1 hmem.2⟩

theorem drawn_eq (s : State W) (caseId : ℕ) (case : DisputeCase) (shuffled : List Address) :
    ∃ jurorCases votes, s.drawn caseId case shuffled =
      { s.setCase caseId (s.drawnCase case shuffled) with
        jurorCases := jurorCases
        votes := votes } := foldl_seat_eq _ _

theorem Sound.drawn (hs : Sound s) {shuffled : List Address} (hdraws : Draws s caseId shuffled case) :
    Sound (s.drawn caseId case shuffled) := by
  have hjurorCases : ∀ a i, i ∈ (s.drawn caseId case shuffled).jurorCases a ↔
      i ∈ s.jurorCases a ∨ (i = caseId ∧ a ∈ s.committee shuffled) := mem_foldl_seat_jurorCases _ _
  obtain ⟨-, hnodup, hmembers⟩ := hdraws.committee_spec hs
  obtain ⟨jurorCases, votes, heq⟩ := drawn_eq s caseId case shuffled
  rw [heq] at hjurorCases ⊢
  refine hs.setCase hs.valid hs.solvent rfl (fun _ => rfl) le_rfl (fun a i hi => ?_) rfl
    (hs.known caseId case hdraws.get) ⟨fun _ => hnodup, fun _ a ha => ?_⟩
  · exact (hjurorCases a i).2 (.inl hi)
  · exact ⟨(hmembers a ha).2, (hjurorCases a caseId).2 (.inr ⟨rfl, ha⟩)⟩

theorem finalizedCase_status (s : State W) (caseId : ℕ) (case : DisputeCase) :
    (s.finalizedCase caseId case).status ≠ .CommitReveal := by
  unfold State.finalizedCase
  split_ifs <;> simp

theorem Sound.finalized (hs : Sound s) (hfinal : Finalizes s caseId case s') : Sound s' := by
  have hstanding := hfinal.settles.standing
  have hsolvent := hfinal.settles.solvent
  rw [hfinal.state] at hstanding hsolvent ⊢
  exact hs.setCase hs.valid hsolvent rfl hstanding le_rfl (fun _ _ hi => hi) rfl
    (hs.known caseId case hfinal.get) (writable_of_closed (finalizedCase_status s caseId case))

theorem Sound.quiet (hs : Sound s) (hvalid : s'.settings.Valid) (hjurors : s'.jurors = s.jurors)
    (hids : s'.jurorIds = s.jurorIds) (hcount : s'.caseCount = s.caseCount)
    (hjurorCases : s'.jurorCases = s.jurorCases) (hcases : s'.cases = s.cases) : Sound s' := by
  refine hs.of_cases hvalid (fun a => ?_) hids (fun a => ?_) hcount.ge (fun a i hi => ?_) ?_
  · rw [State.stakeOf, hjurors]
    exact hs.solvent a
  · unfold State.standing
    rw [hjurors]
  · rwa [hjurorCases]
  · intro i case hget
    rw [hcases] at hget
    exact .inl hget

theorem exec_sound (hs : Sound s) (hx : exec h s tx = .ok s') : Sound s' := by
  cases exec_effect hs hx with
  | registered hcall hauth hmin hnew => exact hs.registered hmin hnew
  | requested hcall hget hfree => exact hs.requested hget hfree
  | departed hcall hauth hget hrequested => exact hs.departed hget hrequested _
  | opened =>
    exact hs.setCase hs.valid hs.solvent rfl (fun _ => rfl) (Nat.le_succ _) (fun _ _ hi => hi) rfl
      (Nat.lt_succ_self _) (writable_of_closed (by simp [State.newCase]))
  | drawn hcall hdraws => exact hs.drawn hdraws
  | finalized hcall hfinal => exact hs.finalized hfinal
  | resolved hcall hget =>
    exact hs.setCase hs.valid hs.solvent rfl (fun _ => rfl) le_rfl (fun _ _ hi => hi) rfl
      (hs.known _ _ hget) (writable_of_closed (by simp [DisputeCase.resolved]))
  | configured hcall hset => exact hs.quiet (applySetting_valid hs.valid hset) rfl rfl rfl rfl rfl
  | evidenced | committed | revealed | advanced | elsewhere | transferred =>
    exact hs.quiet hs.valid rfl rfl rfl rfl rfl

theorem sound_run {ok : State W → Tx h → Prop} {start : State W} (hstart : Sound start)
    (hrun : Reaches (exec h) ok start s) : Sound s :=
  hrun.invariant hstart fun _ _ _ hs _ => exec_sound hs

theorem exec_case (hs : Sound s) (hx : exec h s tx = .ok s') (hget : s.cases.get caseId = some case) :
    s'.cases.get caseId = some case ∨ case.status = .EvidenceWindow ∨
      case.status = .NoQuorumEscalated ∨
      (case.status = .CommitReveal ∧ tx.call = .finalizeCase caseId) := by
  -- another case is written
  have hother : ∀ {i : ℕ} {case' : DisputeCase}, caseId ≠ i →
      (s.cases.set i case').get caseId = some case := by
    intro i case' hne
    rw [Store.get_set_of_ne _ _ hne, hget]
  cases exec_effect hs hx with
  | opened => exact .inl (hother (hs.known caseId case hget).ne)
  | @drawn i shuffled case' _ hdraws =>
    obtain ⟨jurorCases, votes, heq⟩ := drawn_eq s i case' shuffled
    rw [heq]
    by_cases hi : caseId = i
    · subst hi
      obtain rfl : case = case' := Option.some.inj (hget.symm.trans hdraws.get)
      rcases hdraws.ready with ⟨hstatus, -⟩ | ⟨hstatus, -⟩
      · exact .inr (.inl hstatus)
      · exact .inr (.inr (.inl hstatus))
    · exact .inl (hother hi)
  | @finalized i case' _ hcall hfinal =>
    by_cases hi : caseId = i
    · subst hi
      obtain rfl : case = case' := Option.some.inj (hget.symm.trans hfinal.get)
      exact .inr (.inr (.inr ⟨hfinal.status, hcall⟩))
    · rw [hfinal.state]
      exact .inl (hother hi)
  | @resolved _ i _ case' _ _ hget' hstatus =>
    by_cases hi : caseId = i
    · subst hi
      obtain rfl : case = case' := Option.some.inj (hget.symm.trans hget')
      exact .inr (.inr (.inl hstatus))
    · exact .inl (hother hi)
  | registered | requested | departed | evidenced | committed | revealed | configured | advanced
  | elsewhere | transferred => exact .inl hget

theorem exec_case_open (hs : Sound s) (hx : exec h s tx = .ok s')
    (hget : s.cases.get caseId = some case) (hopen : case.status = .CommitReveal)
    (hcall : tx.call ≠ .finalizeCase caseId) : s'.cases.get caseId = some case := by
  rcases exec_case hs hx hget with hkept | hstatus | hstatus | ⟨-, hfinalize⟩
  · exact hkept
  · simp [hopen] at hstatus
  · simp [hopen] at hstatus
  · exact absurd hfinalize hcall

theorem exec_case_resolved (hs : Sound s) (hx : exec h s tx = .ok s')
    (hget : s.cases.get caseId = some case) (hdone : case.status = .Resolved) :
    s'.cases.get caseId = some case := by
  rcases exec_case hs hx hget with hkept | hstatus | hstatus | ⟨hstatus, -⟩
  · exact hkept
  all_goals simp [hdone] at hstatus

def Call.configures : Call W → Bool
  | .set (.setConfig _ _) => true
  | _ => false

theorem applySetting_config {signers : List Address} {settings settings' : Settings}
    {setting : Setting} (hx : applySetting signers settings setting = .ok settings')
    (hcall : Call.configures (W := W) (.set setting) = false) : settings'.config = settings.config := by
  cases setting with
  | setConfig => cases hcall
  | _ =>
    simp only [applySetting, setInvoiceContract, setAccessControl, pause, unpause, bind_eq_ok,
      exists_unit, pure_eq_ok] at hx
    obtain ⟨-, rfl⟩ := hx
    rfl

end Astera.Arbitration
