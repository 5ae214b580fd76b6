import Astera.Governance.Lifecycle

/-!
# The timelock of a proposal

A proposal is executed at most once, only when its tally passes, never after it was cancelled or
expired.  `execute_proposal` goes by the configured delay, so it waits long enough as long as that
is not below the recorded one.
-/

namespace Astera.Governance

open Fallible Machine Transition

variable {W : Type} {h : Host W} {s s' : State W} {tx : Tx W}

/-- An execution: the proposal, when it was executed, and the expiry in force. -/
structure Execution where
  id : ℕ
  time : ℕ
  expirySecs : ℕ
  deriving DecidableEq, Repr

/-- The proposals that were executed and those that were cancelled. -/
structure Log where
  executions : List Execution := []
  cancelled : List ℕ := []
  deriving DecidableEq, Repr

def logAfter (s : State W) (tx : Tx W) (_ : State W) (log : Log) : Log :=
  match tx.call with
  | .executeProposal id =>
    { log with
      executions := log.executions ++ [⟨id, s.now, s.settings.executionExpirySecs⟩] }
  | .cancelProposal id _ => { log with cancelled := log.cancelled ++ [id] }
  | _ => log

def logging (h : Host W) : State W × Log → Tx W → Res (State W × Log) := track (exec h) logAfter

/-- The time from which a proposal may be executed, by the delay it was created with. -/
def Proposal.unlocksAt (p : Proposal) : ℕ := min (p.votingEndsAt + p.executionDelay) (2 ^ 64 - 1)

/-- A proposal is executed only while the configured delay is not below the recorded one. -/
def KeepsDelay (s : State W) (tx : Tx W) : Prop :=
  match tx.call with
  | .executeProposal id =>
    ∀ p ∈ s.proposal id, p.executionDelay ≤ s.settings.config.executionDelaySecs
  | _ => True

instance (s : State W) (tx : Tx W) : Decidable (KeepsDelay s tx) :=
  match hcall : tx.call with
  | .executeProposal id =>
    decidable_of_iff (∀ p ∈ s.proposal id, p.executionDelay ≤ s.settings.config.executionDelaySecs)
      (by simp [KeepsDelay, hcall])
  | .createProposal .. | .vote .. | .cancelProposal .. | .finalizeProposalIfDue .. | .set ..
  | .advance .. | .elsewhere .. => .isTrue (by simp [KeepsDelay, hcall])

/-! ## One call -/

structure Execution.Fits (e : Execution) (p : Proposal) : Prop where
  status : p.status = .Executed
  passes : p.Passes
  timely : e.time ≤ p.votingEndsAt + e.expirySecs

structure Logged (s : State W) (log : Log) : Prop where
  once : (log.executions.map (·.id)).Nodup
  executed : ∀ e ∈ log.executions, ∃ p, s.proposal e.id = some p ∧ e.Fits p
  cancelled : ∀ id ∈ log.cancelled, ∃ p, s.proposal id = some p ∧ p.status = .Cancelled

section Step

variable {log : Log} {id : ℕ} {p p' : Proposal}

theorem Lively.closed_step (hs : Lively s) (hx : exec h s tx = .ok s') (hget : s.proposal id = some p)
    (hclosed : p.Closed) : s'.proposal id = some p := by
  obtain ⟨q, hq, rfl | hmove⟩ := hs.follow hx hget
  · exact hq
  · rw [hq, hmove.of_closed hclosed]

theorem Logged.frame (hlog : Logged s log) (hs : Lively s) (hx : exec h s tx = .ok s') :
    Logged s' log := by
  refine ⟨hlog.once, fun e he => ?_, fun id hid => ?_⟩
  · obtain ⟨p, hget, hfits⟩ := hlog.executed e he
    exact ⟨p, hs.closed_step hx hget (.inr (.inl hfits.status)), hfits⟩
  · obtain ⟨p, hget, hstatus⟩ := hlog.cancelled id hid
    exact ⟨p, hs.closed_step hx hget (.inr (.inr (.inl hstatus))), hstatus⟩

theorem executed_of_exec (hs : Lively s) (hcall : tx.call = .executeProposal id)
    (hx : exec h s tx = .ok s') :
    ∃ p p', s.proposal id = some p ∧ (p.status = .Active ∨ p.status = .Passed) ∧
      s'.proposal id = some p' ∧ p.SameTerms p' ∧
      Execution.Fits ⟨id, s.now, s.settings.executionExpirySecs⟩ p' ∧
      min (p.votingEndsAt + s.settings.config.executionDelaySecs) (2 ^ 64 - 1) ≤ s.now := by
  cases exec_effect hx with
  | created hcall' =>
    rw [hcall] at hcall'
    cases hcall'
  | @moved i q q' hget hmove hproposal hcount hvoted hframe =>
    have hterms := hmove.terms
    have hsound := hmove.sound (hs.sound i q hget)
    cases hmove with
    | voted hcall' =>
      rw [hcall] at hcall'
      cases hcall'
    | settled hcall' =>
      rw [hcall] at hcall'
      cases hcall'
    | cancelled hcall' =>
      rw [hcall] at hcall'
      cases hcall'
    | @executed final hcall' hfinal hended hdelay htimely =>
      obtain rfl : id = i := by
        rw [hcall] at hcall'
        exact Call.executeProposal.inj hcall'
      obtain ⟨hpasses, -, hat⟩ := hsound.passed (.inr (.inl rfl))
      have hat' : final.passedAt = final.votingEndsAt := hat
      refine ⟨q, _, hget, ?_, by rw [hproposal, Function.update_self], hterms,
        ⟨rfl, hpasses, ?_⟩, hdelay⟩
      · rcases hfinal with ⟨hactive, -⟩ | ⟨hpassed, -⟩
        · exact .inl hactive
        · exact .inr hpassed
      · rw [hat'] at htimely
        dsimp only
        omega
  | kept hquiet =>
    rw [hcall] at hquiet
    cases hquiet

theorem cancelled_of_exec {caller : Address} (hcall : tx.call = .cancelProposal id caller)
    (hx : exec h s tx = .ok s') : ∃ p, s'.proposal id = some p ∧ p.status = .Cancelled := by
  cases exec_effect hx with
  | created hcall' =>
    rw [hcall] at hcall'
    cases hcall'
  | @moved i q q' hget hmove hproposal hcount hvoted hframe =>
    cases hmove with
    | voted hcall' | settled hcall' | executed hcall' =>
      rw [hcall] at hcall'
      cases hcall'
    | cancelled hcall' =>
      obtain rfl : id = i := by
        rw [hcall] at hcall'
        exact (Call.cancelProposal.inj hcall').1
      exact ⟨_, by rw [hproposal, Function.update_self], rfl⟩
  | kept hquiet =>
    rw [hcall] at hquiet
    cases hquiet

theorem Logged.execute (hlog : Logged s log) (hs : Lively s) (hcall : tx.call = .executeProposal id)
    (hx : exec h s tx = .ok s') :
    Logged s' { log with
      executions := log.executions ++ [⟨id, s.now, s.settings.executionExpirySecs⟩] } := by
  obtain ⟨p, p', hget, hstatus, hget', -, hfits, -⟩ := executed_of_exec hs hcall hx
  have hframe := hlog.frame hs hx
  -- A proposal that was executed before is no longer active or passed.
  have hnew : id ∉ log.executions.map (·.id) := by
    intro hmem
    obtain ⟨e, he, rfl⟩ := List.mem_map.1 hmem
    obtain ⟨q, hq, hfits'⟩ := hlog.executed e he
    obtain rfl := Option.some.inj (hget.symm.trans hq)
    rw [hfits'.status] at hstatus
    simp at hstatus
  refine ⟨?_, ?_, hframe.cancelled⟩
  · rw [List.map_append]
    simpa using List.Nodup.concat hnew hlog.once
  · intro e he
    rcases List.mem_append.1 he with hold | hlast
    · exact hframe.executed e hold
    · obtain rfl := List.mem_singleton.1 hlast
      exact ⟨p', hget', hfits⟩

theorem Logged.step (hlog : Logged s log) (hs : Lively s) (hx : exec h s tx = .ok s') :
    Logged s' (logAfter s tx s' log) := by
  unfold logAfter
  cases hcall : tx.call with
  | executeProposal id => exact hlog.execute hs hcall hx
  | cancelProposal id caller =>
    have hframe := hlog.frame hs hx
    refine ⟨hframe.once, hframe.executed, fun id' hid => ?_⟩
    rcases List.mem_append.1 hid with hold | hlast
    · exact hframe.cancelled id' hold
    · obtain rfl := List.mem_singleton.1 hlast
      exact cancelled_of_exec hcall hx
  | _ => exact hlog.frame hs hx

/-- Every execution of the log waited for the recorded delay. -/
def Waited (s : State W) (log : Log) : Prop :=
  ∀ e ∈ log.executions, ∀ p, s.proposal e.id = some p → p.unlocksAt ≤ e.time

theorem Waited.step (hwaited : Waited s log) (hlog : Logged s log) (hs : Lively s)
    (hkeeps : KeepsDelay s tx) (hx : exec h s tx = .ok s') :
    Waited s' (logAfter s tx s' log) := by
  have hold : Waited s' log := by
    intro e he p' hget'
    obtain ⟨p, hget, hfits⟩ := hlog.executed e he
    have hsame := hs.closed_step hx hget (.inr (.inl hfits.status))
    obtain rfl := Option.some.inj (hsame.symm.trans hget')
    exact hwaited e he p hget
  unfold logAfter
  cases hcall : tx.call with
  | executeProposal id =>
    obtain ⟨p, p', hget, -, hget', hterms, -, hdelay⟩ := executed_of_exec hs hcall hx
    intro e he q hq
    rcases List.mem_append.1 he with hmem | hlast
    · exact hold e hmem q hq
    · obtain rfl := List.mem_singleton.1 hlast
      obtain rfl := Option.some.inj (hget'.symm.trans hq)
      have hle : p.executionDelay ≤ s.settings.config.executionDelaySecs := by
        simp only [KeepsDelay, hcall] at hkeeps
        exact hkeeps p hget
      rw [Proposal.unlocksAt, hterms.votingEndsAt, hterms.executionDelay]
      dsimp only
      omega
  | _ => exact hold

end Step

theorem logged_initial (s : State W) : Logged s {} := by
  refine ⟨List.nodup_nil, fun e he => ?_, fun id hid => ?_⟩
  · cases he
  · cases hid

/-- In every run a proposal is executed at most once, only if its tally passes, never if it was
cancelled, and not later than the expiry in force after the end of its voting.  In a run in which the
configured delay is never below that of the proposal which is executed, the execution also waits for
the delay that the proposal was created with. -/
theorem executions_timelocked {now : ℕ} {world : W} {admin shareToken : Address}
    {votingPeriodSecs quorumBps passBps executionDelaySecs : ℕ} {minShareBalance : ℤ}
    {s₀ : State W}
    (hinit : initializeGovernance now world admin shareToken votingPeriodSecs quorumBps passBps
      executionDelaySecs minShareBalance = .ok s₀) :
    (∀ s log, Reaches (logging h) (fun _ _ => True) (s₀, {}) (s, log) →
      (log.executions.map (·.id)).Nodup ∧
      ∀ e ∈ log.executions, e.id ∉ log.cancelled ∧
        ∃ p, s.proposal e.id = some p ∧ p.Passes ∧ e.time ≤ p.votingEndsAt + e.expirySecs) ∧
    (∀ s log, Reaches (logging h) (fun x tx => KeepsDelay x.1 tx) (s₀, {}) (s, log) →
      ∀ e ∈ log.executions, ∀ p, s.proposal e.id = some p → p.unlocksAt ≤ e.time) := by
  have hlively : Lively s₀ := lively_initial hinit
  have hlogged : Logged s₀ {} := logged_initial s₀
  constructor
  · intro s log hrun
    have hboth : Lively s ∧ Logged s log := by
      apply hrun.invariant (P := fun x => Lively x.1 ∧ Logged x.1 x.2)
      · exact ⟨hlively, hlogged⟩
      · intro x tx y hx _ hstep
        obtain ⟨hexec, hlog⟩ := (track_eq_ok _ _ _ _ _).1 hstep
        rw [hlog]
        exact ⟨hx.1.step hexec, hx.2.step hx.1 hexec⟩
    refine ⟨hboth.2.once, fun e he => ?_⟩
    obtain ⟨p, hget, hfits⟩ := hboth.2.executed e he
    refine ⟨fun hcancelled => ?_, p, hget, hfits.passes, hfits.timely⟩
    obtain ⟨q, hq, hstatus⟩ := hboth.2.cancelled e.id hcancelled
    obtain rfl := Option.some.inj (hget.symm.trans hq)
    rw [hfits.status] at hstatus
    cases hstatus
  · intro s log hrun
    have hall : Lively s ∧ Logged s log ∧ Waited s log := by
      apply hrun.invariant (P := fun x => Lively x.1 ∧ Logged x.1 x.2 ∧ Waited x.1 x.2)
      · exact ⟨hlively, hlogged, fun e he => by cases he⟩
      · intro x tx y hx hkeeps hstep
        obtain ⟨hexec, hlog⟩ := (track_eq_ok _ _ _ _ _).1 hstep
        rw [hlog]
        exact ⟨hx.1.step hexec, hx.2.1.step hx.1 hexec, hx.2.2.step hx.2.1 hx.1 hkeeps hexec⟩
    exact hall.2.2

/-- A proposal is passed, and executed when its delay is over. -/
def executedInTime : List (Tx Unit) :=
  [sampleProposal, ⟨[5], .vote 1 5 true⟩, ⟨[], .advance 91000⟩, ⟨[], .executeProposal 1⟩]

theorem executions_timelocked_inTime :
    ∃ s₀ s log p, sampleStart = .ok s₀ ∧
      executedInTime.foldlM (logging sampleHost) (s₀, {}) = .ok (s, log) ∧
      log.executions = [⟨1, 91000, 604800⟩] ∧ s.proposal 1 = some p ∧ p.Passes ∧
      p.votingEndsAt = 87400 ∧ p.unlocksAt ≤ 91000 := by
  obtain ⟨s₀, hinit, hp⟩ := exists_of_check (x := sampleStart)
    (p := fun s₀ => decide (Along (logging sampleHost) (fun x tx => KeepsDelay x.1 tx) (s₀, {})
        executedInTime) &&
      check (executedInTime.foldlM (logging sampleHost) (s₀, {})) fun x =>
        decide (x.2.executions = [⟨1, 91000, 604800⟩] ∧
          ∃ p ∈ x.1.proposal 1, p.votingEndsAt = 87400)) (by decide)
  rw [Bool.and_eq_true, decide_eq_true_eq] at hp
  obtain ⟨halong, hp⟩ := hp
  obtain ⟨⟨s, log⟩, hs, hp⟩ := exists_of_check hp
  obtain ⟨hexecutions, p, hget, hends⟩ := of_decide_eq_true hp
  have hrun : Reaches (logging sampleHost) (fun _ _ => True) (s₀, {}) (s, log) :=
    reaches_of_along .refl (along_of_forall (fun _ _ => trivial) _ _) hs
  have hrun' : Reaches (logging sampleHost) (fun x tx => KeepsDelay x.1 tx) (s₀, {}) (s, log) :=
    reaches_of_along .refl halong hs
  obtain ⟨hall, hwaits⟩ := executions_timelocked (h := sampleHost) hinit
  have hmem : (⟨1, 91000, 604800⟩ : Execution) ∈ log.executions := by
    rw [hexecutions]
    exact List.mem_singleton_self _
  obtain ⟨-, q, hq, hpasses, -⟩ := (hall s log hrun).2 _ hmem
  obtain rfl := Option.some.inj (hget.symm.trans hq)
  exact ⟨s₀, s, log, p, hinit, hs, hexecutions, hget, hpasses, hends,
    hwaits s log hrun' _ hmem p hget⟩

/-- The admin lowers the delay while a proposal is pending. -/
def loweredDelay : List (Tx Unit) :=
  [sampleProposal, ⟨[5], .vote 1 5 true⟩, ⟨[1], .set (.setExecutionDelay 1 1)⟩,
    ⟨[], .advance 87401⟩, ⟨[], .executeProposal 1⟩]

/-- The proposal was created with a delay of an hour and is executed a second after the end of its
voting. -/
theorem lowered_delay_unlocks_early :
    ∃ s₀ s log p, sampleStart = .ok s₀ ∧
      loweredDelay.foldlM (logging sampleHost) (s₀, {}) = .ok (s, log) ∧
      log.executions = [⟨1, 87401, 604800⟩] ∧ s.proposal 1 = some p ∧ p.executionDelay = 3600 ∧
      87401 < p.votingEndsAt + p.executionDelay ∧ 87401 < p.unlocksAt := by
  obtain ⟨s₀, hinit, hp⟩ := exists_of_check (x := sampleStart)
    (p := fun s₀ => check (loweredDelay.foldlM (logging sampleHost) (s₀, {})) fun x =>
      decide (x.2.executions = [⟨1, 87401, 604800⟩] ∧ ∃ p ∈ x.1.proposal 1,
        p.executionDelay = 3600 ∧ 87401 < p.votingEndsAt + p.executionDelay ∧ 87401 < p.unlocksAt))
    (by decide)
  obtain ⟨⟨s, log⟩, hs, hp⟩ := exists_of_check hp
  obtain ⟨hexecutions, p, hget, hdelay, hearly, hlocked⟩ := of_decide_eq_true hp
  exact ⟨s₀, s, log, p, hinit, hs, hexecutions, hget, hdelay, hearly, hlocked⟩

end Astera.Governance
