import Astera.Pool.Governance

/-!
# The yield policy

`set_yield` and `propose_yield_change` check the step and the interval of the policy, but
`execute_yield_change` writes what was proposed.  The changes follow the policy in every run in
which the executed proposals still pass the two checks.
-/

namespace Astera.Pool

open Fallible Machine Transition

variable {W : Type}

/-- A change of the yield: the value before, the value after and the ledger time. -/
structure YieldChange where
  old : ℕ
  new : ℕ
  time : ℕ
  deriving DecidableEq, Repr

/-- The changes of the yield so far, the newest first. -/
def noteYieldChange {h : Host W} (s : State W) (_step : Step h) (s' : State W)
    (log : List YieldChange) : List YieldChange :=
  if s'.params.config.yieldBps = s.params.config.yieldBps then log
  else ⟨s.params.config.yieldBps, s'.params.config.yieldBps, s.now⟩ :: log

/-- The policy stays as it is, and governance does not set the yield past it. -/
def Action.keepsPolicy : Action W → Bool
  | .set (.setYieldChangePolicy ..) | .set (.setYieldChangePolicyGov ..)
  | .set (.setYieldViaGovernance ..) => false
  | _ => true

/-- The end of the cooldown fits `u64`, and what is executed still passes the checks of
`propose_yield_change`. -/
def Action.yieldChecked (s : State W) : Action W → Bool
  | .set (.setYield ..) | .set (.setYieldViaAc ..) =>
    decide (s.params.config.lastYieldChangeAt + s.params.config.yieldChangeCooldownSecs < 2 ^ 64)
  | .set .executeYieldChange =>
    decide (s.params.config.proposedYieldBps = s.params.config.yieldBps ∨
      absDiff s.params.config.proposedYieldBps s.params.config.yieldBps ≤
        s.params.config.maxYieldChangeBps ∧
      s.params.config.lastYieldChangeAt + s.params.config.yieldChangeCooldownSecs ≤ s.now)
  | _ => true

/-- Every change is within the largest step, and any two are the cooldown apart. -/
def FollowsPolicy (maxChangeBps cooldownSecs : ℕ) (log : List YieldChange) : Prop :=
  (∀ change ∈ log, absDiff change.new change.old ≤ maxChangeBps) ∧
    log.Pairwise fun later earlier => earlier.time + cooldownSecs ≤ later.time

section Steps

variable {h : Host W} {s₀ : State W} {x y : State W × List YieldChange} {step : Step h}

/-- The log follows the policy of the start, and its changes are not later than the stored time of
the last change. -/
structure Policed (s₀ : State W) (x : State W × List YieldChange) : Prop where
  policy : x.1.params.read .yieldPolicy = s₀.params.read .yieldPolicy
  follows : FollowsPolicy x.1.params.config.maxYieldChangeBps
    x.1.params.config.yieldChangeCooldownSecs x.2
  before_last : ∀ change ∈ x.2, change.time ≤ x.1.params.config.lastYieldChangeAt
  before_now : ∀ change ∈ x.2, change.time ≤ x.1.now

theorem Policed.quiet (hx : Policed s₀ x)
    (hpolicy : y.1.params.read .yieldPolicy = x.1.params.read .yieldPolicy)
    (hyield : y.1.params.config.yieldBps = x.1.params.config.yieldBps)
    (hlast : y.1.params.config.lastYieldChangeAt = x.1.params.config.lastYieldChangeAt)
    (hnow : x.1.now ≤ y.1.now) (hlog : y.2 = noteYieldChange x.1 step y.1 x.2) : Policed s₀ y := by
  have hsame : y.2 = x.2 := by
    rw [hlog, noteYieldChange, if_pos hyield]
  obtain ⟨hcooldown, hmax, -⟩ := Params.read_yieldPolicy_eq.1 hpolicy
  refine ⟨hpolicy.trans hx.policy, ?_, ?_, ?_⟩
  · rw [hsame, hcooldown, hmax]
    exact hx.follows
  · rw [hsame, hlast]
    exact hx.before_last
  · rw [hsame]
    exact fun change hc => (hx.before_now change hc).trans hnow

theorem Policed.write (hx : Policed s₀ x)
    (hpolicy : y.1.params.read .yieldPolicy = x.1.params.read .yieldPolicy)
    (hlast : y.1.params.config.lastYieldChangeAt = x.1.now) (hnow : y.1.now = x.1.now)
    (hchecked : y.1.params.config.yieldBps = x.1.params.config.yieldBps ∨
      absDiff y.1.params.config.yieldBps x.1.params.config.yieldBps ≤
        x.1.params.config.maxYieldChangeBps ∧
      x.1.params.config.lastYieldChangeAt + x.1.params.config.yieldChangeCooldownSecs ≤ x.1.now)
    (hlog : y.2 = noteYieldChange x.1 step y.1 x.2) : Policed s₀ y := by
  obtain ⟨hcooldown, hmax, -⟩ := Params.read_yieldPolicy_eq.1 hpolicy
  by_cases hyield : y.1.params.config.yieldBps = x.1.params.config.yieldBps
  · have hsame : y.2 = x.2 := by
      rw [hlog, noteYieldChange, if_pos hyield]
    refine ⟨hpolicy.trans hx.policy, ?_, ?_, ?_⟩
    · rw [hsame, hcooldown, hmax]
      exact hx.follows
    · rw [hsame, hlast]
      exact hx.before_now
    · rw [hsame, hnow]
      exact hx.before_now
  · obtain ⟨hstep, hready⟩ := hchecked.resolve_left hyield
    have hnew : y.2 = ⟨x.1.params.config.yieldBps, y.1.params.config.yieldBps, x.1.now⟩ :: x.2 := by
      rw [hlog, noteYieldChange, if_neg hyield]
    have hpast : ∀ change ∈ y.2, change.time ≤ x.1.now := by
      rw [hnew]
      exact List.forall_mem_cons.2 ⟨le_rfl, hx.before_now⟩
    refine ⟨hpolicy.trans hx.policy, ?_, ?_, ?_⟩
    · rw [hnew, hcooldown, hmax]
      refine ⟨List.forall_mem_cons.2 ⟨hstep, hx.follows.1⟩,
        List.pairwise_cons.2 ⟨fun earlier hearlier => ?_, hx.follows.2⟩⟩
      -- the log ends before the stored time of the last change, and the cooldown since is over
      have hbefore := hx.before_last earlier hearlier
      show earlier.time + _ ≤ x.1.now
      omega
    · rw [hlast]
      exact hpast
    · rw [hnow]
      exact hpast

theorem cooldown_over {last cooldown now : ℕ} (hfits : last + cooldown < 2 ^ 64)
    (hcheck : min (last + cooldown) (2 ^ 64 - 1) ≤ now) : last + cooldown ≤ now := by
  omega

theorem policed_step (hx : Policed s₀ x) (hkeeps : step.action.keepsPolicy = true)
    (hchecked : step.action.yieldChecked x.1 = true)
    (htrack : track (govern h) noteYieldChange x step = .ok y) : Policed s₀ y := by
  obtain ⟨hstep, hlog⟩ := (track_eq_ok _ _ _ _ _).1 htrack
  have hnow := now_le_of_govern hstep
  obtain ⟨s, log⟩ := x
  obtain ⟨s', log'⟩ := y
  obtain ⟨signers, hself, action, hnamed⟩ := step
  dsimp only at hstep hlog hnow hchecked
  cases action with
  | call call =>
    obtain ⟨hbps, hlast, -⟩ :=
      Params.read_yield_eq.1 (govern_call_keeps .yield (by decide) hstep)
    exact hx.quiet (govern_call_keeps .yieldPolicy (by decide) hstep) hbps hlast hnow hlog
  | set setting =>
    obtain ⟨params, history, happly, rfl⟩ := runSetting_eq_ok hstep
    cases setting
    case setYield | setYieldViaAc =>
      obtain ⟨-, hcooldown, hlimit, rfl⟩ := writeYield_eq_ok happly
      exact hx.write rfl rfl rfl
        (.inr ⟨hlimit, cooldown_over (of_decide_eq_true hchecked) hcooldown⟩) hlog
    case executeYieldChange =>
      obtain ⟨-, rfl⟩ := executeYieldChange_eq_ok happly
      exact hx.write rfl rfl rfl (of_decide_eq_true hchecked) hlog
    case proposeYieldChange =>
      obtain ⟨-, -, -, rfl⟩ := proposeYieldChange_eq_ok happly
      exact hx.quiet rfl rfl rfl le_rfl hlog
    case cancelYieldProposal =>
      obtain ⟨-, rfl⟩ := write_eq_ok.1 happly
      exact hx.quiet rfl rfl rfl le_rfl hlog
    case setYieldViaGovernance | setYieldChangePolicy | setYieldChangePolicyGov => cases hkeeps
    all_goals
      obtain ⟨hbps, hlast, -⟩ :=
        Params.read_yield_eq.1 (applySetting_keeps happly .yield (by simp [Setting.parts]))
      exact hx.quiet (applySetting_keeps happly .yieldPolicy (by simp [Setting.parts])) hbps hlast
        hnow hlog

theorem policed_start (s₀ : State W) : Policed s₀ (s₀, []) := by
  refine ⟨rfl, ⟨?_, .nil⟩, ?_, ?_⟩ <;> exact fun _ hmem => absurd hmem List.not_mem_nil

theorem Policed.start (hx : Policed s₀ x) :
    FollowsPolicy s₀.params.config.maxYieldChangeBps s₀.params.config.yieldChangeCooldownSecs
      x.2 := by
  obtain ⟨hcooldown, hmax, -⟩ := Params.read_yieldPolicy_eq.1 hx.policy
  rw [← hcooldown, ← hmax]
  exact hx.follows

end Steps

/-- In every run with a fixed policy in which the executed proposals still pass the checks, and no
cooldown saturates, every change of the yield is within the largest step and any two are the
cooldown apart. -/
theorem yield_changes_follow_policy (h : Host W) (s₀ : State W)
    {x : State W × List YieldChange}
    (hrun : Reaches (track (govern h) noteYieldChange)
      (fun x step => step.action.keepsPolicy = true ∧ step.action.yieldChecked x.1 = true)
      (s₀, []) x) :
    FollowsPolicy s₀.params.config.maxYieldChangeBps s₀.params.config.yieldChangeCooldownSecs
      x.2 := by
  have hpoliced : Policed s₀ x := by
    refine hrun.invariant (policed_start s₀) ?_
    intro x step y hx hok hstep
    exact policed_step hx hok.1 hok.2 hstep
  exact hpoliced.start

/-- A proposal is executed when its time has come, and a day later the yield is set again. -/
def patientChanges : List (Step quietHost) :=
  [waitUntil 86401, setBy 1 (.proposeYieldChange 1 1000) self_ne_one, waitUntil 259201,
    setBy 3 .executeYieldChange self_ne_three, waitUntil 345601,
    setBy 1 (.setYield 1 1100) self_ne_one]

theorem yield_changes_follow_policy_patient : ∃ x : State Unit × List YieldChange,
    patientChanges.foldlM (track (govern quietHost) noteYieldChange) (sampleState, []) = .ok x ∧
    x.2 = [⟨1000, 1100, 345601⟩, ⟨800, 1000, 259201⟩] ∧ FollowsPolicy 200 86400 x.2 := by
  obtain ⟨x, hx, hcheck⟩ := exists_of_check
    (p := fun x => decide (x.2 = [⟨1000, 1100, 345601⟩, ⟨800, 1000, 259201⟩]))
    (x := patientChanges.foldlM (track (govern quietHost) noteYieldChange) (sampleState, []))
    (by decide)
  have hrun : Reaches (track (govern quietHost) noteYieldChange)
      (fun x step => step.action.keepsPolicy = true ∧ step.action.yieldChecked x.1 = true)
      (sampleState, []) x := reaches_of_along .refl (by decide) hx
  exact ⟨x, hx, of_decide_eq_true hcheck, yield_changes_follow_policy quietHost sampleState hrun⟩

/-- A proposal of 1000 is overtaken by direct changes, the last one at a given time, and executed. -/
def overtaken (direct : List (Step quietHost)) : List (Step quietHost) :=
  [waitUntil 86401, setBy 1 (.proposeYieldChange 1 1000) self_ne_one] ++ direct ++
    [waitUntil 259201, setBy 3 .executeYieldChange self_ne_three]

/-- With the policy that the pool starts with, a largest step of 200 and a cooldown of a day, the
yield moves by 400 at once; or it moves twice within a second. -/
theorem executed_yield_breaks_policy :
    (∃ x : State Unit × List YieldChange,
      (overtaken [setBy 1 (.setYield 1 600) (by decide)]).foldlM
        (track (govern quietHost) noteYieldChange) (sampleState, []) = .ok x ∧
      x.2 = [⟨600, 1000, 259201⟩, ⟨800, 600, 86401⟩] ∧ ¬ FollowsPolicy 200 86400 x.2) ∧
    ∃ x : State Unit × List YieldChange,
      (overtaken [waitUntil 259200, setBy 1 (.setYield 1 900) (by decide)]).foldlM
        (track (govern quietHost) noteYieldChange) (sampleState, []) = .ok x ∧
      x.2 = [⟨900, 1000, 259201⟩, ⟨800, 900, 259200⟩] ∧ ¬ FollowsPolicy 200 86400 x.2 := by
  constructor
  · obtain ⟨x, hx, hcheck⟩ := exists_of_check
      (p := fun x => decide (x.2 = [⟨600, 1000, 259201⟩, ⟨800, 600, 86401⟩]))
      (x := (overtaken [setBy 1 (.setYield 1 600) (by decide)]).foldlM
        (track (govern quietHost) noteYieldChange) (sampleState, [])) (by decide)
    have hlog := of_decide_eq_true hcheck
    refine ⟨x, hx, hlog, fun hfollows => ?_⟩
    have hstep := hfollows.1 ⟨600, 1000, 259201⟩ (by simp [hlog])
    exact absurd hstep (by decide)
  · obtain ⟨x, hx, hcheck⟩ := exists_of_check
      (p := fun x => decide (x.2 = [⟨900, 1000, 259201⟩, ⟨800, 900, 259200⟩]))
      (x := (overtaken [waitUntil 259200, setBy 1 (.setYield 1 900) (by decide)]).foldlM
        (track (govern quietHost) noteYieldChange) (sampleState, [])) (by decide)
    have hlog := of_decide_eq_true hcheck
    refine ⟨x, hx, hlog, fun hfollows => ?_⟩
    have hapart := hfollows.2
    rw [hlog] at hapart
    exact absurd hapart (by decide)

/-- The yield is not set directly while a proposal is pending, and no cooldown saturates. -/
def Action.undisturbed (s : State W) : Action W → Bool
  | .set (.setYield ..) | .set (.setYieldViaAc ..) =>
    decide (s.params.config.yieldProposalAt = 0 ∧
      s.params.config.lastYieldChangeAt + s.params.config.yieldChangeCooldownSecs < 2 ^ 64)
  | .set (.proposeYieldChange ..) =>
    decide (s.params.config.lastYieldChangeAt + s.params.config.yieldChangeCooldownSecs < 2 ^ 64)
  | _ => true

/-- A pending proposal still passes the checks it was made with. -/
def ProposalStands (s : State W) : Prop :=
  s.params.config.yieldProposalAt ≠ 0 →
    absDiff s.params.config.proposedYieldBps s.params.config.yieldBps ≤
      s.params.config.maxYieldChangeBps ∧
    s.params.config.lastYieldChangeAt + s.params.config.yieldChangeCooldownSecs ≤ s.now

section Undisturbed

variable {h : Host W} {s s' : State W} {step : Step h}

theorem yieldChecked_of_undisturbed (hs : ProposalStands s)
    (hok : step.action.undisturbed s = true) (hstep : govern h s step = .ok s') :
    step.action.yieldChecked s = true := by
  obtain ⟨signers, hself, action, hnamed⟩ := step
  cases action with
  | call call => rfl
  | set setting =>
    obtain ⟨params, history, happly, rfl⟩ := runSetting_eq_ok hstep
    cases setting
    case setYield | setYieldViaAc => exact decide_eq_true (of_decide_eq_true hok).2
    case executeYieldChange =>
      obtain ⟨hpending, -⟩ := executeYieldChange_eq_ok happly
      exact decide_eq_true (.inr (hs hpending))
    all_goals rfl

theorem ProposalStands.of_kept (hs : ProposalStands s)
    (hyield : s'.params.read .yield = s.params.read .yield)
    (hpolicy : s'.params.read .yieldPolicy = s.params.read .yieldPolicy) (hnow : s.now ≤ s'.now) :
    ProposalStands s' := by
  obtain ⟨hbps, hlast, hproposed, hat⟩ := Params.read_yield_eq.1 hyield
  obtain ⟨hcooldown, hmax, -⟩ := Params.read_yieldPolicy_eq.1 hpolicy
  intro hpending
  rw [hat] at hpending
  obtain ⟨hstep, hready⟩ := hs hpending
  rw [hproposed, hbps, hmax, hlast, hcooldown]
  exact ⟨hstep, hready.trans hnow⟩

theorem proposalStands_step (hs : ProposalStands s) (hkeeps : step.action.keepsPolicy = true)
    (hok : step.action.undisturbed s = true) (hstep : govern h s step = .ok s') :
    ProposalStands s' := by
  have hnow := now_le_of_govern hstep
  obtain ⟨signers, hself, action, hnamed⟩ := step
  cases action with
  | call call =>
    exact hs.of_kept (govern_call_keeps .yield (by decide) hstep)
      (govern_call_keeps .yieldPolicy (by decide) hstep) hnow
  | set setting =>
    obtain ⟨params, history, happly, rfl⟩ := runSetting_eq_ok hstep
    cases setting
    case setYield | setYieldViaAc =>
      obtain ⟨-, -, -, rfl⟩ := writeYield_eq_ok happly
      exact fun hpending => absurd (of_decide_eq_true hok).1 hpending
    case executeYieldChange =>
      obtain ⟨-, rfl⟩ := executeYieldChange_eq_ok happly
      exact fun hpending => absurd rfl hpending
    case cancelYieldProposal =>
      obtain ⟨-, rfl⟩ := write_eq_ok.1 happly
      exact fun hpending => absurd rfl hpending
    case proposeYieldChange =>
      obtain ⟨-, hcooldown, hlimit, rfl⟩ := proposeYieldChange_eq_ok happly
      exact fun _ => ⟨hlimit, cooldown_over (of_decide_eq_true hok) hcooldown⟩
    case setYieldViaGovernance | setYieldChangePolicy | setYieldChangePolicyGov => cases hkeeps
    all_goals
      exact hs.of_kept (applySetting_keeps happly .yield (by simp [Setting.parts]))
        (applySetting_keeps happly .yieldPolicy (by simp [Setting.parts])) hnow

/-- Proposals that no direct change overtakes keep the yield within the policy: no execution has to
be looked at. -/
theorem undisturbed_changes_follow_policy (s₀ : State W) (hs₀ : ProposalStands s₀)
    {x : State W × List YieldChange}
    (hrun : Reaches (track (govern h) noteYieldChange)
      (fun x step => step.action.keepsPolicy = true ∧ step.action.undisturbed x.1 = true)
      (s₀, []) x) :
    FollowsPolicy s₀.params.config.maxYieldChangeBps s₀.params.config.yieldChangeCooldownSecs
      x.2 := by
  have hboth : Policed s₀ x ∧ ProposalStands x.1 := by
    refine hrun.invariant (P := fun x => Policed s₀ x ∧ ProposalStands x.1)
      ⟨policed_start s₀, hs₀⟩ ?_
    rintro x step y ⟨hx, hstands⟩ ⟨hkeeps, hok⟩ htrack
    have hstep := ((track_eq_ok _ _ _ _ _).1 htrack).1
    exact ⟨policed_step hx hkeeps (yieldChecked_of_undisturbed hstands hok hstep) htrack,
      proposalStands_step hstands hkeeps hok hstep⟩
  exact hboth.1.start

end Undisturbed

theorem undisturbed_changes_follow_policy_patient : ∃ x : State Unit × List YieldChange,
    patientChanges.foldlM (track (govern quietHost) noteYieldChange) (sampleState, []) = .ok x ∧
    FollowsPolicy 200 86400 x.2 := by
  obtain ⟨x, hx⟩ := isOk_iff.1 (show (patientChanges.foldlM
    (track (govern quietHost) noteYieldChange) (sampleState, [])).isOk = true by decide)
  exact ⟨x, hx, undisturbed_changes_follow_policy sampleState (fun hpending => absurd rfl hpending)
    (reaches_of_along .refl (by decide) hx)⟩

end Astera.Pool
