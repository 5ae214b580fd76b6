import Astera.Lib.Timelock
import Astera.Pool.Governance

/-!
# Timelocked changes

A history variable logs what is proposed, executed and cancelled, with the delay in force at the
proposal; the log of a run is timely (`Timelock.Timely`), but for a rate model whose delay runs past
the end of `u64`.
-/

namespace Astera.Pool

open Fallible Machine Transition Timelock

variable {W : Type}
variable {admin : Address} {operation : AdminOperation} {signers : List Address} {proposalId : ℕ}

/-- Where a proposal waits: an operation has an identifier of its own, a token has one rate model. -/
inductive Slot
  | operation (proposalId : ℕ)
  | rateModel (token : Address)
  deriving DecidableEq, Repr

inductive Change
  | operation (operation : AdminOperation)
  | rateModel (config : RateModelConfig)
  deriving DecidableEq, Repr

/-- The log of the pool's timelocks.  An execution is logged with what the state holds after it. -/
def noteTimelock {h : Host W} (s : State W) (step : Step h) (s' : State W)
    (log : List (Timelock.Entry Slot Change)) : List (Timelock.Entry Slot Change) :=
  match step.action with
  | .call (.proposeOperation _ operation) =>
    .proposed (.operation s.nextProposalId) (.operation operation) s.now
      s.params.operationDelay :: log
  | .call (.executeOperation _ proposalId) =>
    match s'.proposals proposalId with
    | some proposal =>
      .executed (.operation proposalId) (.operation proposal.operation) s.now :: log
    | none => log
  | .call (.cancelOperation _ proposalId) => .cancelled (.operation proposalId) :: log
  | .set (.proposeRateModelChange _ token config) =>
    .proposed (.rateModel token) (.rateModel config) s.now s.rateModelDelay :: log
  | .set (.executeRateModelChange token) =>
    match s'.params.rateModel token with
    | some config => .executed (.rateModel token) (.rateModel config) s.now :: log
    | none => log
  | .set (.cancelRateModelChange _ token) => .cancelled (.rateModel token) :: log
  | _ => log

/-- The time of a proposed rate model fits `u64`. -/
def Action.delayFits (s : State W) : Action W → Bool
  | .set (.proposeRateModelChange ..) => decide (s.now + s.rateModelDelay < 2 ^ 64)
  | _ => true

section Operations

variable {h : Host W} {signers : List Address} {s s' : State W} {admin : Address}
  {proposalId : ℕ}

theorem proposeOperation_proposals (hp : proposeOperation signers s admin operation = .ok s') :
    s' = { s with
      nextProposalId := s.nextProposalId + 1
      proposals := Function.update s.proposals s.nextProposalId
        (some ⟨operation, s.now + s.params.operationDelay, s.now, admin, false, false⟩) } := by
  unfold proposeOperation at hp
  simp only [bind_eq_ok, exists_unit, okOr_eq_ok, fitU_eq_some, pure_eq_ok] at hp
  obtain ⟨-, -, -, -, _, ⟨rfl, -⟩, _, ⟨rfl, -⟩, rfl⟩ := hp
  rfl

theorem executeAdminOperation_proposals (he : executeAdminOperation h s operation = .ok s') :
    s'.proposals = s.proposals ∧ s'.nextProposalId = s.nextProposalId := by
  rcases executeAdminOperation_eq_ok he with ⟨-, -, -, rfl⟩ | ⟨-, -, -, -, rfl⟩ |
    ⟨invoiceId, -, hseize⟩
  · exact ⟨rfl, rfl⟩
  · exact ⟨rfl, rfl⟩
  · exact ⟨keeps_seize hseize .proposals (by decide),
      keeps_seize hseize .nextProposalId (by decide)⟩

theorem cancelOperation_proposals (hc : cancelOperation signers s admin proposalId = .ok s') :
    ∃ proposal, s.proposals proposalId = some proposal ∧ proposal.executed = false ∧
      s' = { s with
        proposals := Function.update s.proposals proposalId
          (some { proposal with cancelled := true }) } := by
  unfold cancelOperation at hc
  simp only [bind_eq_ok, require_eq_ok, exists_unit, okOr_eq_ok, pure_eq_ok] at hc
  obtain ⟨-, -, proposal, hproposal, hexecuted, -, rfl⟩ := hc
  exact ⟨proposal, hproposal, hexecuted, rfl⟩

end Operations

/-! ## The state as a timelock -/

/-- What waits in a slot, and from when on it may be executed. -/
def State.pendingChange (s : State W) : Slot → Option (Change × ℕ)
  | .operation proposalId =>
    ((s.proposals proposalId).filter fun p => !p.executed && !p.cancelled).map fun p =>
      (.operation p.operation, p.executeAfter)
  | .rateModel token =>
    (s.params.pendingRateModel token).map fun p => (.rateModel p.config, p.executeAfter)

/-- What was executed in a slot: the operation of an executed proposal, the rate model in force. -/
def State.changeInForce (s : State W) : Slot → Option Change
  | .operation proposalId =>
    ((s.proposals proposalId).filter Proposal.executed).map fun p => .operation p.operation
  | .rateModel token => (s.params.rateModel token).map .rateModel

/-- The log tracks the state, whose delays are at least an hour and whose next proposal is new. -/
structure Logged (x : State W × List (Timelock.Entry Slot Change)) : Prop where
  operationDelay : 3600 ≤ x.1.params.operationDelay
  timelock : 3600 ≤ x.1.params.config.yieldTimelockSecs
  unused : ∀ id, x.1.nextProposalId ≤ id → x.1.proposals id = none
  tracks : Tracks 3600 x.2 x.1.pendingChange x.1.changeInForce

section Views

variable {s s' : State W} {proposalId : ℕ} {proposal : Proposal} {token : Address}

theorem pendingChange_congr (hproposals : s'.proposals = s.proposals)
    (hpending : s'.params.pendingRateModel = s.params.pendingRateModel) :
    s'.pendingChange = s.pendingChange := by
  funext slot
  cases slot with
  | operation proposalId => simp only [State.pendingChange, hproposals]
  | rateModel token => simp only [State.pendingChange, hpending]

theorem changeInForce_congr (hproposals : s'.proposals = s.proposals)
    (hmodel : s'.params.rateModel = s.params.rateModel) :
    s'.changeInForce = s.changeInForce := by
  funext slot
  cases slot with
  | operation proposalId => simp only [State.changeInForce, hproposals]
  | rateModel token => simp only [State.changeInForce, hmodel]

theorem pendingChange_proposal
    (hproposals : s'.proposals = Function.update s.proposals proposalId (some proposal))
    (hpending : s'.params.pendingRateModel = s.params.pendingRateModel) :
    s'.pendingChange = Function.update s.pendingChange (.operation proposalId)
      (if proposal.executed || proposal.cancelled then none
        else some (.operation proposal.operation, proposal.executeAfter)) := by
  funext slot
  rw [Function.update_apply]
  cases slot with
  | operation id =>
    simp only [State.pendingChange, hproposals, Function.update_apply, Slot.operation.injEq]
    split_ifs with hid hdone
    · cases hexecuted : proposal.executed <;> simp_all
    · cases hexecuted : proposal.executed <;> simp_all
    · rfl
  | rateModel token => simp [State.pendingChange, hpending]

theorem changeInForce_proposal
    (hproposals : s'.proposals = Function.update s.proposals proposalId (some proposal))
    (hmodel : s'.params.rateModel = s.params.rateModel) :
    s'.changeInForce = Function.update s.changeInForce (.operation proposalId)
      (if proposal.executed then some (.operation proposal.operation) else none) := by
  funext slot
  rw [Function.update_apply]
  cases slot with
  | operation id =>
    simp only [State.changeInForce, hproposals, Function.update_apply, Slot.operation.injEq]
    split_ifs with hid hdone
    · simp [hdone]
    · simp [hdone]
    · rfl
  | rateModel token => simp [State.changeInForce, hmodel]

theorem pendingChange_rateModel {entry : Option RateModelProposal}
    (hproposals : s'.proposals = s.proposals)
    (hpending : s'.params.pendingRateModel =
      Function.update s.params.pendingRateModel token entry) :
    s'.pendingChange = Function.update s.pendingChange (.rateModel token)
      (entry.map fun p => (.rateModel p.config, p.executeAfter)) := by
  funext slot
  rw [Function.update_apply]
  cases slot with
  | operation id => simp [State.pendingChange, hproposals]
  | rateModel t =>
    simp only [State.pendingChange, hpending, Function.update_apply, Slot.rateModel.injEq]
    split_ifs <;> rfl

theorem changeInForce_rateModel {config : RateModelConfig}
    (hproposals : s'.proposals = s.proposals)
    (hmodel : s'.params.rateModel = Function.update s.params.rateModel token (some config)) :
    s'.changeInForce = Function.update s.changeInForce (.rateModel token)
      (some (.rateModel config)) := by
  funext slot
  rw [Function.update_apply]
  cases slot with
  | operation id => simp [State.changeInForce, hproposals]
  | rateModel t =>
    simp only [State.changeInForce, hmodel, Function.update_apply, Slot.rateModel.injEq]
    split_ifs <;> rfl

end Views

/-! ## One step -/

section Steps

variable {h : Host W} {s s' : State W} {log : List (Timelock.Entry Slot Change)}

theorem Logged.quiet (hx : Logged (s, log)) (hdelay : 3600 ≤ s'.params.operationDelay)
    (htimelock : 3600 ≤ s'.params.config.yieldTimelockSecs)
    (hproposals : s'.proposals = s.proposals) (hnext : s'.nextProposalId = s.nextProposalId)
    (hmodels : s'.params.read .rateModel = s.params.read .rateModel) : Logged (s', log) := by
  obtain ⟨hmodel, hpending⟩ := Params.read_rateModel_eq.1 hmodels
  refine ⟨hdelay, htimelock, ?_, ?_⟩
  · show ∀ id, s'.nextProposalId ≤ id → s'.proposals id = none
    rw [hproposals, hnext]
    exact hx.unused
  · show Tracks 3600 log s'.pendingChange s'.changeInForce
    rw [pendingChange_congr hproposals hpending, changeInForce_congr hproposals hmodel]
    exact hx.tracks

theorem Logged.lt_next (hx : Logged (s, log)) {proposal : Proposal}
    (hproposal : s.proposals proposalId = some proposal) : proposalId < s.nextProposalId := by
  by_contra hge
  have hnone : s.proposals proposalId = none := hx.unused proposalId (Nat.le_of_not_lt hge)
  rw [hproposal] at hnone
  cases hnone

theorem Logged.proposal (hx : Logged (s, log)) {proposal : Proposal}
    {e : Timelock.Entry Slot Change}
    (hproposals : s'.proposals = Function.update s.proposals proposalId (some proposal))
    (hid : proposalId < s'.nextProposalId) (hnext : s.nextProposalId ≤ s'.nextProposalId)
    (hdelay : s'.params.operationDelay = s.params.operationDelay)
    (hpolicy : s'.params.read .yieldPolicy = s.params.read .yieldPolicy)
    (hmodels : s'.params.read .rateModel = s.params.read .rateModel)
    (htracks : Tracks 3600 (e :: log) (Function.update s.pendingChange (.operation proposalId) (if
      proposal.executed || proposal.cancelled then none else some (.operation proposal.operation,
      proposal.executeAfter))) (Function.update s.changeInForce (.operation proposalId) (if
      proposal.executed then some (.operation proposal.operation) else none))) :
    Logged (s', e :: log) := by
  obtain ⟨hmodel, hpending⟩ := Params.read_rateModel_eq.1 hmodels
  obtain ⟨-, -, htimelock⟩ := Params.read_yieldPolicy_eq.1 hpolicy
  refine ⟨?_, ?_, ?_, ?_⟩
  · exact hx.operationDelay.trans_eq hdelay.symm
  · exact hx.timelock.trans_eq htimelock.symm
  · show ∀ id, s'.nextProposalId ≤ id → s'.proposals id = none
    intro id hle
    rw [hproposals, Function.update_of_ne (hid.trans_le hle).ne']
    exact hx.unused id (hnext.trans hle)
  · show Tracks 3600 _ s'.pendingChange s'.changeInForce
    rw [pendingChange_proposal hproposals hpending, changeInForce_proposal hproposals hmodel]
    exact htracks

theorem Logged.proposeOperation (hx : Logged (s, log))
    (hp : Pool.proposeOperation signers s admin operation = .ok s') :
    Logged (s', .proposed (.operation s.nextProposalId) (.operation operation) s.now
      s.params.operationDelay :: log) := by
  obtain rfl := proposeOperation_proposals hp
  have hnew : s.proposals s.nextProposalId = none := hx.unused _ le_rfl
  refine hx.proposal rfl (Nat.lt_succ_self _) (Nat.le_succ _) rfl rfl rfl ?_
  have hforce : Function.update s.changeInForce (.operation s.nextProposalId) none =
      s.changeInForce := by
    apply Function.update_eq_self_iff.2
    simp [State.changeInForce, hnew]
  simpa [hforce] using hx.tracks.propose hx.operationDelay (.operation s.nextProposalId)
    (.operation operation) s.now

theorem Logged.executeOperation (hx : Logged (s, log))
    (he : Pool.executeOperation h signers s admin proposalId = .ok s')
    (hdelay : s'.params.operationDelay = s.params.operationDelay)
    (hpolicy : s'.params.read .yieldPolicy = s.params.read .yieldPolicy)
    (hmodels : s'.params.read .rateModel = s.params.read .rateModel) :
    ∃ proposal, s'.proposals proposalId = some proposal ∧
      Logged (s', .executed (.operation proposalId) (.operation proposal.operation) s.now
        :: log) := by
  obtain ⟨proposal, hproposal, hexecuted, hcancelled, hready, hdispatch⟩ :=
    executeOperation_dispatch he
  obtain ⟨hwritten, hnext⟩ := executeAdminOperation_proposals hdispatch
  have hproposals : s'.proposals =
      Function.update s.proposals proposalId (some { proposal with executed := true }) := hwritten
  have hwaits : s.pendingChange (.operation proposalId) =
      some (.operation proposal.operation, proposal.executeAfter) := by
    simp [State.pendingChange, hproposal, hexecuted, hcancelled]
  refine ⟨{ proposal with executed := true }, by rw [hproposals, Function.update_self], ?_⟩
  refine hx.proposal hproposals ?_ hnext.ge hdelay hpolicy hmodels ?_
  · exact (hx.lt_next hproposal).trans_eq hnext.symm
  · exact hx.tracks.execute hwaits hready

theorem Logged.cancelOperation (hx : Logged (s, log))
    (hc : Pool.cancelOperation signers s admin proposalId = .ok s') :
    Logged (s', .cancelled (.operation proposalId) :: log) := by
  obtain ⟨proposal, hproposal, hexecuted, rfl⟩ := cancelOperation_proposals hc
  refine hx.proposal rfl (hx.lt_next hproposal) le_rfl rfl rfl rfl ?_
  have hforce : Function.update s.changeInForce (.operation proposalId) none =
      s.changeInForce := by
    apply Function.update_eq_self_iff.2
    simp [State.changeInForce, hproposal, hexecuted]
  simpa [hexecuted, hforce] using hx.tracks.cancel (.operation proposalId)

theorem Logged.rateModel (hx : Logged (s, log)) {token : Address}
    {entry : Option RateModelProposal} {e : Timelock.Entry Slot Change}
    {done : Slot → Option Change}
    (hproposals : s'.proposals = s.proposals) (hnext : s'.nextProposalId = s.nextProposalId)
    (hdelay : s'.params.operationDelay = s.params.operationDelay)
    (hpolicy : s'.params.read .yieldPolicy = s.params.read .yieldPolicy)
    (hpending : s'.params.pendingRateModel =
      Function.update s.params.pendingRateModel token entry)
    (hdone : s'.changeInForce = done)
    (htracks : Tracks 3600 (e :: log)
      (Function.update s.pendingChange (.rateModel token)
        (entry.map fun p => (.rateModel p.config, p.executeAfter))) done) :
    Logged (s', e :: log) := by
  obtain ⟨-, -, htimelock⟩ := Params.read_yieldPolicy_eq.1 hpolicy
  refine ⟨hx.operationDelay.trans_eq hdelay.symm, hx.timelock.trans_eq htimelock.symm, ?_, ?_⟩
  · show ∀ id, s'.nextProposalId ≤ id → s'.proposals id = none
    rw [hproposals, hnext]
    exact hx.unused
  · show Tracks 3600 _ s'.pendingChange s'.changeInForce
    rw [pendingChange_rateModel hproposals hpending, hdone]
    exact htracks

theorem Logged.rateModelDelay (hx : Logged (s, log)) : 3600 ≤ s.rateModelDelay :=
  le_max_of_le_left hx.timelock

theorem logged_setting (hx : Logged (s, log)) {hself : h.self ∉ signers} {x : Setting}
    {hnamed : ∀ params, Action.set x ≠ .call (.setParams params)}
    (hfits : Action.delayFits s (.set x) = true)
    (hstep : govern h s ⟨signers, hself, .set x, hnamed⟩ = .ok s') :
    Logged (s', noteTimelock s (⟨signers, hself, .set x, hnamed⟩ : Step h) s' log) := by
  have hproposals : s'.proposals = s.proposals := govern_kept .proposals rfl hstep
  have hnext : s'.nextProposalId = s.nextProposalId := govern_kept .nextProposalId rfl hstep
  obtain ⟨params, history, happly, rfl⟩ := runSetting_eq_ok hstep
  cases x
  case proposeRateModelChange admin token config =>
    obtain rfl := proposeRateModelChange_eq_ok happly
    have hready : min (s.now + s.rateModelDelay) (2 ^ 64 - 1) = s.now + s.rateModelDelay := by
      have hlt := of_decide_eq_true hfits
      omega
    refine hx.rateModel hproposals hnext rfl rfl rfl (changeInForce_congr hproposals rfl) ?_
    rw [hready]
    exact hx.tracks.propose hx.rateModelDelay (.rateModel token) (.rateModel config) s.now
  case executeRateModelChange token =>
    obtain ⟨proposal, hpending, hready, rfl⟩ := executeRateModelChange_eq_ok happly
    have hwaits : s.pendingChange (.rateModel token) =
        some (.rateModel proposal.config, proposal.executeAfter) := by
      simp [State.pendingChange, hpending]
    simp only [noteTimelock, Function.update_self]
    refine hx.rateModel hproposals hnext rfl rfl rfl (changeInForce_rateModel hproposals rfl) ?_
    exact hx.tracks.execute hwaits hready
  case cancelRateModelChange admin token =>
    obtain ⟨-, rfl⟩ := write_eq_ok.1 happly
    refine hx.rateModel hproposals hnext rfl rfl rfl (changeInForce_congr hproposals rfl) ?_
    exact hx.tracks.cancel (.rateModel token)
  case setOperationDelay | setOperationDelayGov =>
    obtain ⟨-, hmin, rfl⟩ := writeIf_eq_ok.1 happly
    exact hx.quiet hmin hx.timelock hproposals hnext rfl
  case setYieldChangePolicy =>
    obtain ⟨-, ⟨-, -, hmin⟩, rfl⟩ := writeIf_eq_ok.1 happly
    exact hx.quiet hx.operationDelay hmin hproposals hnext rfl
  case setYieldChangePolicyGov =>
    obtain ⟨-, rfl⟩ := write_eq_ok.1 happly
    exact hx.quiet hx.operationDelay hx.timelock hproposals hnext rfl
  all_goals
    have hdelay : params.operationDelay = s.params.operationDelay :=
      applySetting_keeps happly .operationDelay (by simp [Setting.parts])
    have hpolicy := Params.read_yieldPolicy_eq.1
      (applySetting_keeps happly .yieldPolicy (by simp [Setting.parts]))
    exact hx.quiet (hx.operationDelay.trans_eq hdelay.symm)
      (hx.timelock.trans_eq hpolicy.2.2.symm) hproposals hnext
      (applySetting_keeps happly .rateModel (by simp [Setting.parts]))

theorem logged_step {x y : State W × List (Timelock.Entry Slot Change)} {step : Step h}
    (hx : Logged x)
    (hfits : step.action.delayFits x.1 = true)
    (htrack : track (govern h) noteTimelock x step = .ok y) : Logged y := by
  obtain ⟨hstep, hlog⟩ := (track_eq_ok _ _ _ _ _).1 htrack
  obtain ⟨s, log⟩ := x
  obtain ⟨s', log'⟩ := y
  obtain ⟨signers, hself, action, hnamed⟩ := step
  dsimp only at hstep hlog
  subst hlog
  cases action with
  | set x => exact logged_setting hx hfits hstep
  | call call =>
    have hdelay : s'.params.operationDelay = s.params.operationDelay :=
      govern_call_keeps .operationDelay (by decide) hstep
    have hpolicy := govern_call_keeps .yieldPolicy (by decide) hstep
    have hmodels := govern_call_keeps .rateModel (by decide) hstep
    cases call
    case proposeOperation admin operation => exact hx.proposeOperation hstep
    case cancelOperation admin proposalId => exact hx.cancelOperation hstep
    case executeOperation admin proposalId =>
      obtain ⟨proposal, hproposal, hlogged⟩ :=
        hx.executeOperation (h := h) hstep hdelay hpolicy hmodels
      simpa only [noteTimelock, hproposal] using hlogged
    all_goals
      have hproposals : s'.proposals = s.proposals := govern_kept .proposals rfl hstep
      have hnext : s'.nextProposalId = s.nextProposalId := govern_kept .nextProposalId rfl hstep
      exact hx.quiet (hx.operationDelay.trans_eq hdelay.symm)
        (hx.timelock.trans_eq (Params.read_yieldPolicy_eq.1 hpolicy).2.2.symm) hproposals hnext
        hmodels

end Steps

theorem logged_initial (now : ℕ) (world : W) (cash : Address → Address → ℤ)
    (shareTokens : Address → Share.ShareToken) (admin token share invoiceContract : Address) :
    Logged (initialState now world cash shareTokens admin token share invoiceContract, []) := by
  refine ⟨show 3600 ≤ operationDelaySecs by decide, show 3600 ≤ 172800 by decide, fun _ _ => rfl, ?_⟩
  have hpending : (initialState now world cash shareTokens admin token share
      invoiceContract).pendingChange = fun _ => none := by
    funext slot
    cases slot <;> rfl
  have hdone : (initialState now world cash shareTokens admin token share
      invoiceContract).changeInForce = fun _ => none := by
    funext slot
    cases slot <;> rfl
  rw [hpending, hdone]
  exact tracks_nil

/-- In every run in which the time of each proposed rate model fits `u64`, a timelocked change takes
effect no earlier than the delay of its proposal after it, a delay of an hour at least, and by the
last proposal of its slot, neither executed nor cancelled before.  What the state holds as executed
is what the log executed last. -/
theorem timelocks_hold (h : Host W) (now : ℕ) (world : W) (cash : Address → Address → ℤ)
    (shareTokens : Address → Share.ShareToken) (admin token share invoiceContract : Address)
    {x : State W × List (Timelock.Entry Slot Change)}
    (hrun : Reaches (track (govern h) noteTimelock)
      (fun x step => step.action.delayFits x.1 = true)
      (initialState now world cash shareTokens admin token share invoiceContract, []) x) :
    Timely 3600 x.2 ∧ ∀ slot, lastExecuted slot x.2 = x.1.changeInForce slot := by
  have hlogged : Logged x := by
    refine hrun.invariant (logged_initial now world cash shareTokens admin token share
      invoiceContract) ?_
    intro x step y hx hfits hstep
    exact logged_step hx hfits hstep
  exact ⟨hlogged.tracks.timely, hlogged.tracks.executed⟩

def sampleModel : RateModelConfig := ⟨100, 8000, 400, 1000, 3000⟩

/-- An operation and a rate model are proposed, the operation delay is cut, and both are executed
when the delays of their proposals are over. -/
def patientAdmin : List (Step quietHost) :=
  [waitUntil 86401,
    callBy 1 (.proposeOperation 1 (.SetCollateralConfig 5 100)) self_ne_one (fun _ => nofun),
    setBy 1 (.setOperationDelay 1 3600) self_ne_one,
    setBy 1 (.proposeRateModelChange 1 10 sampleModel) self_ne_one, waitUntil 172801,
    callBy 1 (.executeOperation 1 1) self_ne_one (fun _ => nofun), waitUntil 259201,
    setBy 3 (.executeRateModelChange 10) self_ne_three]

theorem timelocks_hold_patient : ∃ x : State Unit × List (Timelock.Entry Slot Change),
    patientAdmin.foldlM (track (govern quietHost) noteTimelock) (sampleState, []) = .ok x ∧
    x.2 = [.executed (.rateModel 10) (.rateModel sampleModel) 259201,
      .executed (.operation 1) (.operation (.SetCollateralConfig 5 100)) 172801,
      .proposed (.rateModel 10) (.rateModel sampleModel) 86401 172800,
      .proposed (.operation 1) (.operation (.SetCollateralConfig 5 100)) 86401 86400] ∧
    Timely 3600 x.2 := by
  obtain ⟨x, hx, hcheck⟩ := exists_of_check
    (p := fun x => decide (x.2 = [.executed (.rateModel 10) (.rateModel sampleModel) 259201,
      .executed (.operation 1) (.operation (.SetCollateralConfig 5 100)) 172801,
      .proposed (.rateModel 10) (.rateModel sampleModel) 86401 172800,
      .proposed (.operation 1) (.operation (.SetCollateralConfig 5 100)) 86401 86400]))
    (x := patientAdmin.foldlM (track (govern quietHost) noteTimelock) (sampleState, []))
    (by decide)
  have hrun : Reaches (track (govern quietHost) noteTimelock)
      (fun x step => step.action.delayFits x.1 = true) (sampleState, []) x :=
    reaches_of_along .refl (by decide) hx
  exact ⟨x, hx, of_decide_eq_true hcheck,
    (timelocks_hold quietHost 1 () _ _ 1 10 20 2 hrun).1⟩

/-- The delay is set to the end of `u64` before a rate model is proposed. -/
def endlessDelay : List (Step quietHost) :=
  [waitUntil 86401, setBy 1 (.setOperationDelay 1 (2 ^ 64 - 1)) self_ne_one,
    setBy 1 (.proposeRateModelChange 1 10 sampleModel) self_ne_one, waitUntil (2 ^ 64 - 1),
    setBy 3 (.executeRateModelChange 10) self_ne_three]

/-- The model is executed at the end of `u64`, a day before the delay of its proposal is over. -/
theorem saturated_delay_cut_short : ∃ x : State Unit × List (Timelock.Entry Slot Change),
    endlessDelay.foldlM (track (govern quietHost) noteTimelock) (sampleState, []) = .ok x ∧
    x.2 = [.executed (.rateModel 10) (.rateModel sampleModel) (2 ^ 64 - 1),
      .proposed (.rateModel 10) (.rateModel sampleModel) 86401 (2 ^ 64 - 1)] ∧
    ¬ Timely 3600 x.2 := by
  obtain ⟨x, hx, hcheck⟩ := exists_of_check
    (p := fun x => decide (x.2 =
      [.executed (.rateModel 10) (.rateModel sampleModel) (2 ^ 64 - 1),
        .proposed (.rateModel 10) (.rateModel sampleModel) 86401 (2 ^ 64 - 1)]))
    (x := endlessDelay.foldlM (track (govern quietHost) noteTimelock) (sampleState, []))
    (by decide)
  have hlog := of_decide_eq_true hcheck
  refine ⟨x, hx, hlog, fun htimely => ?_⟩
  have hwaiting := htimely [] _ _ _ _ hlog
  have hover := hwaiting.of_proposed.2.1
  omega

end Astera.Pool
