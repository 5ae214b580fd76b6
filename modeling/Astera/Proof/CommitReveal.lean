import Astera.Arbitration.DrawLog

/-!
# What a finalized case counts

The votes that `finalize_case` counts are those of the last draw of the case, and the admin has a
say only when there are no draws left.
-/

namespace Astera.Arbitration

open Fallible Machine Transition
open Invoices (Bytes DisputeResolution)

variable {W : Type} {h : Host W} {s s' : State W}

theorem preimage_inj {choice choice' : Bool} {salt salt' : Bytes}
    (heq : preimage choice salt = preimage choice' salt') : choice = choice' ∧ salt = salt' := by
  obtain ⟨hbyte, hsalt⟩ := List.cons.inj heq
  refine ⟨?_, hsalt⟩
  revert hbyte
  cases choice <;> cases choice' <;> decide

/-- A vote that is counted follows the last draw. -/
structure Counted (h : Host W) (d : Draw) (a : Address) (choice : Bool) (c : Commitment)
    (r : Opening) : Prop where
  member : a ∈ d.committee
  committed : c ∈ d.commits ∧ c.juror = a ∧ d.drawnAt ≤ c.time ∧ c.time ≤ d.commitDeadline
  revealed : r ∈ d.reveals ∧ r.juror = a ∧ d.commitDeadline < r.time ∧ r.time ≤ d.revealDeadline
  value : ∀ choice' salt', h.sha256 (preimage choice' salt') = c.hash ↔
    choice' = choice ∧ salt' = r.salt

theorem Follows.counted {caseId : ℕ} {case : DisputeCase} {d : Draw} (hs : Follows h s caseId case d)
    (hinj : Function.Injective h.sha256) {a : Address} {choice : Bool}
    (hvote : (a, choice) ∈ s.revealed caseId case.jurors) : ∃ c r, Counted h d a choice c r := by
  obtain ⟨hmem, hchoice⟩ := mem_revealed.1 hvote
  rw [← hs.committee] at hmem
  obtain ⟨r, hr, rfl, rfl⟩ := (hs.reveals a hmem choice).1 hchoice
  obtain ⟨-, hafter, hbefore, c, hc, hjuror, hhash⟩ := hs.revealed r hr
  obtain ⟨-, hdrawn, hdeadline⟩ := hs.committed c hc
  refine ⟨c, r, hmem, ⟨hc, hjuror, hdrawn, hdeadline⟩, ⟨hr, rfl, hafter, hbefore⟩, ?_⟩
  intro choice' salt'
  rw [hhash, hinj.eq_iff]
  refine ⟨preimage_inj, ?_⟩
  rintro ⟨rfl, rfl⟩
  rfl

/-- In every run that fixes its configuration before the first case: the votes that `finalize_case`
counts are the reveals of the last draw of the case, one for each juror, each committed by a member of
its committee after the draw and within its commit window and revealed, with the committed value,
within its reveal window; a resolved case never changes; a case has at most `max_retries + 1` draws;
and the admin resolves it only after `max_retries + 1` draws, or as many as a `u32` counts, all of
which failed to reach a quorum. -/
theorem commit_reveal_integrity {now : ℕ} {world : W} {balances : Address → ℤ}
    {admin invoiceContract stakeToken : Address} {minStake : ℤ} {start : State W}
    (hinit : initializeArbitration now world balances admin invoiceContract stakeToken minStake =
      .ok start)
    (hinj : Function.Injective h.sha256) {s : State W} {log : Log}
    (hrun : Reaches (track (exec h) (noteDraws h)) (fun x => Fixed x.1) (start, fun _ => []) (s, log))
    {caseId : ℕ} {case : DisputeCase} (hget : s.cases.get caseId = some case) :
    (∀ s', finalizeCase h s caseId = .ok s' → ∃ d rest, log caseId = d :: rest ∧
      (∀ a choice, (a, choice) ∈ s.revealed caseId case.jurors ↔
        ∃ r ∈ d.reveals, r.juror = a ∧ r.choice = choice) ∧
      ((s.revealed caseId case.jurors).map Prod.fst).Nodup ∧
      ∀ a choice, (a, choice) ∈ s.revealed caseId case.jurors → ∃ c r, Counted h d a choice c r) ∧
    (case.status = .Resolved → ∀ later, Reaches (exec h) (fun _ _ => True) s later →
      later.cases.get caseId = some case) ∧
    (log caseId).length ≤ s.settings.config.maxRetries + 1 ∧
    ∀ signers caller resolution s',
      adminResolveNoQuorum h signers s caller caseId resolution = .ok s' →
      (log caseId).length = min (s.settings.config.maxRetries + 1) (2 ^ 32 - 1) ∧
        ∀ d ∈ log caseId, d.failed = true := by
  have hlogged : Logged h (s, log) := logged_run hinit hrun
  have hs : Sound s := hlogged.sound
  have htraced : Traced h s caseId case (log caseId) := hlogged.traced caseId case hget
  have hcount := htraced.count
  have hbound := htraced.bound
  unfold saturatingAddU at hbound
  refine ⟨fun s' hx => ?_, fun hdone later hlater => ?_, by omega, ?_⟩
  · obtain ⟨case', hfinal⟩ := finalizeCase_eq_ok hs.solvent hs.valid (hs.committees caseId) hx
    obtain rfl : case = case' := Option.some.inj (hget.symm.trans hfinal.get)
    obtain ⟨d, rest, hdraws, hfollows, -⟩ := htraced.voting hfinal.status
    refine ⟨d, rest, hdraws, fun a choice => ?_,
      nodup_revealed (hs.committees caseId case hget hfinal.status),
      fun a choice hvote => hfollows.counted hinj hvote⟩
    rw [mem_revealed, ← hfollows.committee]
    constructor
    · rintro ⟨hmem, hchoice⟩
      exact (hfollows.reveals a hmem choice).1 hchoice
    · rintro ⟨r, hr, rfl, rfl⟩
      have hmem := (hfollows.revealed r hr).1
      exact ⟨hmem, (hfollows.reveals _ hmem _).2 ⟨r, hr, rfl, rfl⟩⟩
  · have hkept : Sound later ∧ later.cases.get caseId = some case :=
      hlater.invariant (P := fun s => Sound s ∧ s.cases.get caseId = some case) ⟨hs, hget⟩
        fun _ _ _ hp _ hx => ⟨exec_sound hp.1 hx, exec_case_resolved hp.1 hx hp.2 hdone⟩
    exact hkept.2
  · intro signers caller resolution s' hx
    obtain ⟨case', world', hget', hstatus, hretries, -⟩ := adminResolveNoQuorum_eq_ok hx
    obtain rfl : case = case' := Option.some.inj (hget.symm.trans hget')
    unfold saturatingAddU at hretries
    exact ⟨by omega, htraced.escalated hstatus⟩

/-- Nobody of the first committee reveals; of the second one, two jurors commit and reveal. -/
def sampleRedraw : List (Tx sampleHost) :=
  [⟨[2], by decide, .set (.setConfig 2 sampleConfig)⟩,
    ⟨[11], by decide, .registerJuror 11 100⟩,
    ⟨[12], by decide, .registerJuror 12 150⟩,
    ⟨[13], by decide, .registerJuror 13 300⟩,
    ⟨[3], by decide, .openCase 3 7 21 22 500⟩,
    ⟨[], by decide, .advance 20⟩,
    ⟨[], by decide, .selectJurors 0 [13, 11, 12]⟩,
    ⟨[13], by decide, .commitVote 0 13 sampleCommitment⟩,
    ⟨[], by decide, .advance 41⟩,
    ⟨[], by decide, .finalizeCase 0⟩,
    ⟨[], by decide, .selectJurors 0 [11, 12, 13]⟩,
    ⟨[11], by decide, .commitVote 0 11 sampleCommitment⟩,
    ⟨[12], by decide, .commitVote 0 12 sampleCommitment⟩,
    ⟨[], by decide, .advance 52⟩,
    ⟨[11], by decide, .revealVote 0 11 true sampleSalt⟩,
    ⟨[12], by decide, .revealVote 0 12 true sampleSalt⟩,
    ⟨[], by decide, .advance 62⟩]

theorem commit_reveal_integrity_redraw :
    ∃ (s s' : State Unit) (log : Log) (case : DisputeCase) (d : Draw) (rest : List Draw),
      Reaches (track (exec sampleHost) (noteDraws sampleHost)) (fun x => Fixed x.1)
        (sampleStart, fun _ => []) (s, log) ∧
      s.cases.get 0 = some case ∧ finalizeCase sampleHost s 0 = .ok s' ∧
      s.revealed 0 case.jurors = [(11, true), (12, true)] ∧ (log 0).length = 2 ∧
      log 0 = d :: rest ∧ ∃ c r, Counted sampleHost d 11 true c r := by
  obtain ⟨⟨s, log⟩, hx, hp⟩ := exists_of_check
    (x := sampleRedraw.foldlM (track (exec sampleHost) (noteDraws sampleHost))
      (sampleStart, fun _ => []))
    (p := fun x => (x.1.cases.get 0).any fun case : DisputeCase => decide (
      x.1.revealed 0 case.jurors = [(11, true), (12, true)] ∧ (x.2 0).length = 2 ∧
      check (finalizeCase sampleHost x.1 0) (fun _ => true) = true)) (by decide)
  obtain ⟨case, hget, hp⟩ := (Option.any_eq_true _ _).1 hp
  obtain ⟨hvotes, hlength, hfinal⟩ := of_decide_eq_true hp
  obtain ⟨s', hs', -⟩ := exists_of_check hfinal
  have hrun := reaches_of_along .refl
    (show Along _ (fun x => Fixed x.1) _ sampleRedraw by decide) hx
  obtain ⟨hcounts, -⟩ :=
    commit_reveal_integrity initializeArbitration_sampleStart sampleSha256_injective hrun hget
  obtain ⟨d, rest, hdraws, -, -, hcounted⟩ := hcounts s' hs'
  refine ⟨s, s', log, case, d, rest, hrun, hget, hs', hvotes, hlength, hdraws, hcounted 11 true ?_⟩
  dsimp only at hvotes
  rw [hvotes]
  exact List.mem_cons_self

/-! ## The largest number of retries -/

/-- Committees of one juror, who loses nothing by its silence, and as many retries as a `u32` holds. -/
def patientConfig : ArbitrationConfig where
  minStake := 100
  stakeToken := 10
  committeeSize := 1
  quorumFloor := 1
  evidenceWindowSecs := 1
  commitWindowSecs := 1
  revealWindowSecs := 1
  nonRevealSlashBps := 0
  maxRetries := 2 ^ 32 - 1

/-- The only juror, with the number of its strikes and slashes. -/
def idleJuror (strikes slashes : ℕ) : JurorInfo where
  address := 11
  stakeAmount := 100
  stakeToken := 10
  isActive := true
  casesServed := 0
  timesSlashed := slashes
  nonRevealStrikes := strikes
  registeredAt := 5
  deregisterRequestedAt := none

def patientSettings : Settings := { admin := 2, invoiceContract := 3, config := patientConfig }

/-- After `n` draws of the only juror, who never reveals. -/
structure Stalled (n : ℕ) (s : State Unit) : Prop where
  settings : s.settings = patientSettings
  now : s.now = 7 + 3 * n
  ids : s.jurorIds = [11]
  juror : s.jurors.get 11 = some (idleJuror n n)
  case : ∃ case, s.cases.get 0 = some case ∧ case.retryCount = n ∧
    ((n = 0 ∧ case.status = .EvidenceWindow ∧ case.evidenceDeadline = 6) ∨
      case.status = .NoQuorumEscalated)

theorem Stalled.draws {n : ℕ} {s : State Unit} (hs : Stalled n s) (hn : n + 1 < 2 ^ 32) :
    ∃ case, Draws s 0 [11] case ∧ case.retryCount = n := by
  obtain ⟨case, hcase, hretries, hready⟩ := hs.case
  have hactive : s.jurorIds.filter s.eligible = [11] := by
    rw [hs.ids]
    simp [State.eligible, hs.juror, idleJuror]
  have hnow := hs.now
  refine ⟨case, ⟨hcase, ?_, ?_, ?_, hretries ▸ hn⟩, hretries⟩
  · rcases hready with ⟨-, hstatus, hdeadline⟩ | hstatus
    · exact .inl ⟨hstatus, by omega⟩
    · refine .inr ⟨hstatus, ?_⟩
      rw [hs.settings, hretries]
      show n < min (2 ^ 32 - 1 + 1) (2 ^ 32 - 1)
      omega
  · rw [hs.settings, hactive]
    exact le_rfl
  · rw [hactive]

theorem penalties_idle {s : State Unit} {n : ℕ} (hsettings : s.settings = patientSettings)
    (hget : s.jurors.get 11 = some (idleJuror n n)) (hn : n + 1 < 2 ^ 32) :
    applyNonRevealPenalties s [11] =
      .ok ((s.setJuror 11 (idleJuror (n + 1) n)).setJuror 11 (idleJuror (n + 1) (n + 1)), 0) := by
  have hfits : fitU 32 (n + 1) = some (n + 1) := if_pos hn
  have hbps : s.settings.config.nonRevealSlashBps = 0 := by
    rw [hsettings]
    rfl
  have hstrike : strike s 11 = .ok (s.setJuror 11 (idleJuror (n + 1) n)) := by
    simp [strike, hget, idleJuror, hfits, okOr, pure, Except.pure, bind, Except.bind]
  have hstored : (s.setJuror 11 (idleJuror (n + 1) n)).jurors.get 11 = some (idleJuror (n + 1) n) :=
    Store.get_set_self _ _ _
  have hslash : slashJuror (s.setJuror 11 (idleJuror (n + 1) n)) 11 0 =
      .ok ((s.setJuror 11 (idleJuror (n + 1) n)).setJuror 11 (idleJuror (n + 1) (n + 1)), 0) := by
    have hcut : checkedMul 100 ((0 : ℕ) : ℤ) = some 0 := by decide
    have hleft : checkedSub 100 ((0 : ℤ).tdiv 10000) = some 100 := by decide
    unfold slashJuror
    rw [hstored]
    simp only [idleJuror, hcut, hleft, hfits, okOr, pure, Except.pure, bind, Except.bind]
    rfl
  rw [← hbps] at hslash
  unfold applyNonRevealPenalties
  rw [List.foldlM_cons, bind_eq_ok]
  refine ⟨_, ?_, (pure_eq_ok _ _).2 rfl⟩
  simp only [penalize, bind_eq_ok, okOr_eq_ok, checkedAdd_eq_some, pure_eq_ok]
  exact ⟨_, hstrike, _, hslash, _, ⟨rfl, show InI128 (0 + 0) by decide⟩, rfl⟩

theorem finalizeCase_idle {s : State Unit} {case : DisputeCase} {n : ℕ}
    (hsettings : s.settings = patientSettings) (hget : s.jurors.get 11 = some (idleJuror n n))
    (hn : n + 1 < 2 ^ 32) (hcase : s.cases.get 0 = some case) (hstatus : case.status = .CommitReveal)
    (hjurors : case.jurors = [11]) (hclosed : case.revealDeadline < s.now)
    (hvote : s.revealedVote 0 11 = none) :
    finalizeCase sampleHost s 0 = .ok
      (((s.setJuror 11 (idleJuror (n + 1) n)).setJuror 11 (idleJuror (n + 1) (n + 1))).setCase 0
        { case with status := .NoQuorumEscalated }) := by
  have hrevealed : s.revealed 0 case.jurors = [] := by
    simp [State.revealed, hjurors, hvote]
  have hsilent : s.nonRevealers 0 case.jurors = [11] := by
    simp [State.nonRevealers, hjurors, hvote]
  have hpaused : s.settings.paused = false := by
    rw [hsettings]
    rfl
  have hquorum : ([] : List (Address × Bool)).length < s.settings.config.quorumFloor := by
    rw [hsettings]
    decide
  simp only [finalizeCase, bind_eq_ok, exists_unit, requireNotPaused_eq_ok, loadCase_eq_ok,
    require_eq_ok]
  refine ⟨hpaused, case, hcase, hstatus, hclosed, _, hsilent ▸ penalties_idle hsettings hget hn, ?_⟩
  rw [hrevealed]
  exact if_pos hquorum

/-- One more draw of the only juror. -/
def redraw (n : ℕ) : List (Tx sampleHost) :=
  [⟨[], by decide, .selectJurors 0 [11]⟩,
    ⟨[], by decide, .advance (10 + 3 * n)⟩,
    ⟨[], by decide, .finalizeCase 0⟩]

theorem Stalled.redraw {n : ℕ} {s : State Unit} (hs : Stalled n s) (hn : n + 1 < 2 ^ 32) :
    ∃ s', (redraw n).foldlM (exec sampleHost) s = .ok s' ∧ Stalled (n + 1) s' := by
  obtain ⟨case, hdraws, hretries⟩ := hs.draws hn
  obtain ⟨jurorCases, votes, heq⟩ := drawn_eq s 0 case [11]
  have hnow := hs.now
  have hpaused : s.settings.paused = false := by
    rw [hs.settings]
    rfl
  have hcommittee : s.committee [11] = [11] := by
    unfold State.committee
    rw [hs.settings]
    rfl
  have hselect : selectJurors s 0 [11] = .ok (s.drawn 0 case [11]) :=
    selectJurors_eq_ok.2 ⟨case, hpaused, hdraws, rfl⟩
  have hvote : (s.drawn 0 case [11]).revealedVote 0 11 = none := by
    unfold State.revealedVote
    rw [drawn_votes, hcommittee, if_pos ⟨rfl, List.mem_singleton_self _⟩]
    rfl
  have hadvance : advance (s.drawn 0 case [11]) (10 + 3 * n) =
      .ok { s.drawn 0 case [11] with now := 10 + 3 * n } := by
    simp only [advance, bind_eq_ok, exists_unit, require_eq_ok, pure_eq_ok]
    refine ⟨⟨?_, by omega⟩, trivial⟩
    rw [heq]
    show s.now ≤ 10 + 3 * n
    omega
  have hclosed : (s.drawnCase case [11]).revealDeadline < 10 + 3 * n := by
    show saturatingAddU 64 (saturatingAddU 64 s.now s.settings.config.commitWindowSecs)
      s.settings.config.revealWindowSecs < 10 + 3 * n
    rw [hs.settings]
    show min (min (s.now + 1) (2 ^ 64 - 1) + 1) (2 ^ 64 - 1) < 10 + 3 * n
    omega
  have hsettings : (s.drawn 0 case [11]).settings = patientSettings := by
    rw [heq]
    exact hs.settings
  have hjuror : (s.drawn 0 case [11]).jurors.get 11 = some (idleJuror n n) := by
    rw [heq]
    exact hs.juror
  have hcase : (s.drawn 0 case [11]).cases.get 0 = some (s.drawnCase case [11]) := by
    rw [heq]
    exact Store.get_set_self _ _ _
  have hids : (s.drawn 0 case [11]).jurorIds = [11] := by
    rw [heq]
    exact hs.ids
  have hfinal := finalizeCase_idle (s := { s.drawn 0 case [11] with now := 10 + 3 * n }) hsettings
    hjuror hn hcase rfl hcommittee hclosed hvote
  have hrun : ∀ t, finalizeCase sampleHost { s.drawn 0 case [11] with now := 10 + 3 * n } 0 = .ok t →
      (Arbitration.redraw n).foldlM (exec sampleHost) s = .ok t := by
    intro t ht
    simp only [Arbitration.redraw, List.foldlM_cons, List.foldlM_nil, bind_eq_ok, pure_eq_ok]
    exact ⟨_, hselect, _, hadvance, _, ht, rfl⟩
  refine ⟨_, hrun _ hfinal, ⟨hsettings, ?_, hids, Store.get_set_self _ _ _, _,
    Store.get_set_self _ _ _, ?_, .inr rfl⟩⟩
  · show 10 + 3 * n = 7 + 3 * (n + 1)
    omega
  · show case.retryCount + 1 = n + 1
    rw [hretries]

/-- The juror is registered, and the evidence window of the case is over. -/
def patientStart : List (Tx sampleHost) :=
  [⟨[2], by decide, .set (.setConfig 2 patientConfig)⟩,
    ⟨[11], by decide, .registerJuror 11 100⟩,
    ⟨[3], by decide, .openCase 3 7 21 22 500⟩,
    ⟨[], by decide, .advance 7⟩]

theorem stalled_start :
    ∃ s, Reaches (exec sampleHost) Fixed sampleStart s ∧ Stalled 0 s := by
  obtain ⟨s, hx, hp⟩ := exists_of_check (x := patientStart.foldlM (exec sampleHost) sampleStart)
    (p := fun s => decide (s.settings = patientSettings ∧ s.now = 7 ∧ s.jurorIds = [11] ∧
      s.jurors.get 11 = some (idleJuror 0 0)) && (s.cases.get 0).any fun case : DisputeCase =>
      decide (case.retryCount = 0 ∧ case.status = .EvidenceWindow ∧ case.evidenceDeadline = 6))
    (by decide)
  obtain ⟨hs, hp⟩ := Bool.and_eq_true_iff.1 hp
  obtain ⟨hsettings, hnow, hids, hjuror⟩ := of_decide_eq_true hs
  obtain ⟨case, hget, hp⟩ := (Option.any_eq_true _ _).1 hp
  obtain ⟨hretries, hstatus, hdeadline⟩ := of_decide_eq_true hp
  have hrun := reaches_of_along .refl (show Along _ Fixed _ patientStart by decide) hx
  exact ⟨s, hrun, hsettings, hnow, hids, hjuror, case, hget, hretries, .inl ⟨rfl, hstatus, hdeadline⟩⟩

theorem stalled_run (n : ℕ) (hn : n < 2 ^ 32) :
    ∃ s, Reaches (exec sampleHost) Fixed sampleStart s ∧ Stalled n s := by
  induction n with
  | zero => exact stalled_start
  | succ n ih =>
    obtain ⟨s, hrun, hstalled⟩ := ih (by omega)
    obtain ⟨s', hx, hstalled'⟩ := hstalled.redraw hn
    refine ⟨s', reaches_of_along hrun (along_of_forall_mem fun tx htx t hconfigures => ?_) hx,
      hstalled'⟩
    -- none of the three calls writes the configuration
    simp only [redraw, List.mem_cons, List.not_mem_nil, or_false] at htx
    rcases htx with rfl | rfl | rfl <;> cases hconfigures

/-- With `max_retries` at the end of the `u32` range, the admin resolves the case one draw early. -/
theorem saturated_retries_resolved_early :
    ∃ (s s' : State Unit) (log : Log),
      Reaches (track (exec sampleHost) (noteDraws sampleHost)) (fun x => Fixed x.1)
        (sampleStart, fun _ => []) (s, log) ∧
      s.settings.config.maxRetries = 2 ^ 32 - 1 ∧
      adminResolveNoQuorum sampleHost [2] s 2 0 .InFavorOfDebtor = .ok s' ∧
      (log 0).length < s.settings.config.maxRetries + 1 := by
  obtain ⟨s, hrun, hstalled⟩ := stalled_run (2 ^ 32 - 1) (by omega)
  obtain ⟨log, htrack⟩ := hrun.track (noteDraws sampleHost) fun _ => []
  obtain ⟨case, hget, hretries, hready⟩ := hstalled.case
  have hstatus : case.status = .NoQuorumEscalated := by
    rcases hready with ⟨hzero, -⟩ | hstatus
    · omega
    · exact hstatus
  have hmax : s.settings.config.maxRetries = 2 ^ 32 - 1 := by
    rw [hstalled.settings]
    rfl
  have hlength : (log 0).length = 2 ^ 32 - 1 := by
    have hlogged := logged_run initializeArbitration_sampleStart htrack
    rw [← hretries]
    exact (hlogged.traced 0 case hget).count
  have hresolve : adminResolveNoQuorum sampleHost [2] s 2 0 .InFavorOfDebtor =
      .ok (callInvoiceResolve sampleHost (s.setCase 0
        { case with status := .Resolved, resolution := .InFavorOfDebtor }) case.invoiceId
        .InFavorOfDebtor) := by
    simp only [adminResolveNoQuorum, Settings.asAdmin, Settings.requireAdmin, bind_eq_ok, exists_unit,
      requireAuth_eq_ok, requireNotPaused_eq_ok, require_eq_ok, loadCase_eq_ok, pure_eq_ok,
      hstalled.settings]
    refine ⟨rfl, ⟨by decide, .inl rfl⟩, by decide, case, hget, hstatus, ?_, rfl⟩
    rw [hretries]
    exact Nat.min_le_right _ _
  exact ⟨s, _, log, htrack, hmax, hresolve, by omega⟩

end Astera.Arbitration
