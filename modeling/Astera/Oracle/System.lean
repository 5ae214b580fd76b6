import Astera.Lib.Transition
import Astera.Oracle.Contract

/-!
# The oracle registry as a machine

`Call` lists the entrypoints, the passing of time, transfers of the stake token and moves of the
other contracts; a run is a run of `exec h` (`Transition.Reaches`).
-/

namespace Astera.Oracle

open Fallible Machine Transition
open Invoices (Bytes)

variable {W : Type}
variable {operator : Address} {approved : Bool} {settings settings' : Settings}
  {round : VerificationRound} {invoiceId : ℕ} {minStake : ℤ}

inductive Setting
  | setInvoiceContract (admin invoiceContract : Address)
  | setInvoiceContractViaAc (accessControl invoiceContract : Address)
  | setInvoiceContractGov (governance invoiceContract : Address)
  | setTreasury (admin : Address) (treasury : Option Address)
  | setTreasuryViaAc (accessControl : Address) (treasury : Option Address)
  | setTreasuryViaGovernance (governance : Address) (treasury : Option Address)
  | setRegistryConfig (admin : Address) (minStake : ℤ)
      (requiredVotes quorumBps roundDurationSecs deregisterCooldownSecs : ℕ)
  | setRegistryConfigViaAc (accessControl : Address) (minStake : ℤ)
      (requiredVotes quorumBps roundDurationSecs deregisterCooldownSecs : ℕ)
  | setRegistryConfigGov (governance : Address) (minStake : ℤ)
      (requiredVotes quorumBps roundDurationSecs deregisterCooldownSecs : ℕ)
  | setQuorumTiers (admin : Address) (tiers : List QuorumTier)
  | setQuorumTiersViaGovernance (governance : Address) (tiers : List QuorumTier)
  | pause (admin : Address)
  | unpause (admin : Address)
  | setPausedViaAc (accessControl : Address) (paused : Bool)
  | setAccessControl (admin accessControl : Address)
  | setAccessControlViaAc (accessControl newAccessControl : Address)
  | setGovernanceAddress (admin governance : Address)

def applySetting (signers : List Address) (s : Settings) : Setting → Res Settings
  | .setInvoiceContract admin contract => setInvoiceContract signers s admin contract
  | .setInvoiceContractViaAc accessControl contract =>
    setInvoiceContractViaAc signers s accessControl contract
  | .setInvoiceContractGov governance contract => setInvoiceContractGov signers s governance contract
  | .setTreasury admin treasury => setTreasury signers s admin treasury
  | .setTreasuryViaAc accessControl treasury => setTreasuryViaAc signers s accessControl treasury
  | .setTreasuryViaGovernance governance treasury =>
    setTreasuryViaGovernance signers s governance treasury
  | .setRegistryConfig admin minStake votes quorumBps duration cooldown =>
    setRegistryConfig signers s admin minStake votes quorumBps duration cooldown
  | .setRegistryConfigViaAc accessControl minStake votes quorumBps duration cooldown =>
    setRegistryConfigViaAc signers s accessControl minStake votes quorumBps duration cooldown
  | .setRegistryConfigGov governance minStake votes quorumBps duration cooldown =>
    setRegistryConfigGov signers s governance minStake votes quorumBps duration cooldown
  | .setQuorumTiers admin tiers => setQuorumTiers signers s admin tiers
  | .setQuorumTiersViaGovernance governance tiers =>
    setQuorumTiersViaGovernance signers s governance tiers
  | .pause admin => pause signers s admin
  | .unpause admin => unpause signers s admin
  | .setPausedViaAc accessControl paused => setPausedViaAc signers s accessControl paused
  | .setAccessControl admin accessControl => setAccessControl signers s admin accessControl
  | .setAccessControlViaAc accessControl newAccessControl =>
    setAccessControlViaAc signers s accessControl newAccessControl
  | .setGovernanceAddress admin governance => setGovernanceAddress signers s admin governance

/-- What can happen to the registry. -/
inductive Call (W : Type)
  | registerOracle (operator : Address) (stakeAmount : ℤ)
  | deregisterOracle (operator : Address)
  | slashOracle (admin operator : Address) (bps roundId : ℕ) (evidence : Bytes)
  | slashOracleViaAc (accessControl operator : Address) (bps roundId : ℕ) (evidence : Bytes)
  | withdrawSlashedFunds (admin recipient : Address) (amount : ℤ)
  | openVerificationRound (caller : Address) (invoiceId : ℕ) (oracleHash : Bytes)
  | submitVote (oracle : Address) (invoiceId : ℕ) (approved : Bool)
  | expireRound (invoiceId : ℕ)
  | adminResolveRound (admin : Address) (invoiceId : ℕ) (approved : Bool)
  | adminResolveRoundViaAc (accessControl : Address) (invoiceId : ℕ) (approved : Bool)
  | set (setting : Setting)
  | advance (now : ℕ)
  | elsewhere (world : W)
  /-- A holder moves stake tokens. -/
  | stakeTransfer (sender receiver : Address) (amount : ℤ)

/-- A call and the addresses that authorize it.  A contract cannot sign, so the registry is not among
them. -/
structure Tx (h : Host W) where
  signers : List Address
  self_not_mem : h.self ∉ signers
  call : Call W

def advance (s : State W) (now : ℕ) : Res (State W) := do
  require (s.now ≤ now ∧ now < 2 ^ 64) .overflow
  return { s with now := now }

def stakeTransfer (signers : List Address) (s : State W) (sender receiver : Address) (amount : ℤ) :
    Res (State W) := do
  requireAuth signers sender
  s.transfer sender receiver amount

def exec (h : Host W) (s : State W) (tx : Tx h) : Res (State W) :=
  let signers := tx.signers
  match tx.call with
  | .registerOracle operator stakeAmount => registerOracle h signers s operator stakeAmount
  | .deregisterOracle operator => deregisterOracle h signers s operator
  | .slashOracle admin operator bps roundId evidence =>
    slashOracle h signers s admin operator bps roundId evidence
  | .slashOracleViaAc accessControl operator bps roundId evidence =>
    slashOracleViaAc h signers s accessControl operator bps roundId evidence
  | .withdrawSlashedFunds admin recipient amount =>
    withdrawSlashedFunds h signers s admin recipient amount
  | .openVerificationRound caller invoiceId oracleHash =>
    openVerificationRound h signers s caller invoiceId oracleHash
  | .submitVote oracle invoiceId approved => submitVote h signers s oracle invoiceId approved
  | .expireRound invoiceId => expireRound s invoiceId
  | .adminResolveRound admin invoiceId approved =>
    adminResolveRound h signers s admin invoiceId approved
  | .adminResolveRoundViaAc accessControl invoiceId approved =>
    adminResolveRoundViaAc h signers s accessControl invoiceId approved
  | .set setting =>
    (applySetting signers s.settings setting).map fun settings => { s with settings := settings }
  | .advance now => advance s now
  | .elsewhere world => .ok { s with world := world }
  | .stakeTransfer sender receiver amount => stakeTransfer signers s sender receiver amount

/-! ## A sample ledger -/

/-- The registry at address 1, beside an invoice contract that accepts everything. -/
def sampleHost : Host Unit where
  self := 1
  getInvoiceVerificationState := fun _ _ _ => some (true, 1000)
  consensusVerify := fun world _ _ _ _ _ _ => some world

theorem self_ne_two : sampleHost.self ∉ [2] := by decide
theorem self_ne_three : sampleHost.self ∉ [3] := by decide
theorem self_ne_four : sampleHost.self ∉ [4] := by decide
theorem self_ne_five : sampleHost.self ∉ [5] := by decide
theorem self_ne_nine : sampleHost.self ∉ [9] := by decide
theorem self_notMem_nil : sampleHost.self ∉ [] := by decide

/-- A new registry with the admin 2, the stake token 10 and a least stake of 100. -/
def sampleStart : State Unit where
  now := 5
  world := ()
  balances := fun a => if a = 1 then 0 else 1000
  settings := { admin := 2, config := { minStake := 100, stakeToken := 10 } }

theorem initializeRegistry_sampleStart :
    initializeRegistry 5 () (fun a => if a = 1 then 0 else 1000) 2 10 100 = .ok sampleStart := rfl

/-!
## What a call does

`exec_effect` reads a successful call backwards: what was checked, and the state it leaves.
-/

variable {h : Host W} {signers : List Address} {s s' : State W}

theorem Tx.self_ne (tx : Tx h) {a : Address} (hauth : a ∈ tx.signers) : h.self ≠ a := by
  rintro rfl
  exact tx.self_not_mem hauth

@[simp]
theorem requireAuth_eq_ok {a : Address} {u : Unit} : requireAuth signers a = .ok u ↔ a ∈ signers := by
  simp [requireAuth]

@[simp]
theorem requireNotPaused_eq_ok {u : Unit} :
    settings.requireNotPaused = .ok u ↔ settings.paused = false := by
  simp [Settings.requireNotPaused]

/-- The ledger after stake tokens moved. -/
def State.moved (s : State W) (sender receiver : Address) (amount : ℤ) : State W :=
  { s with balances := Ledger.move s.balances sender receiver amount }

@[simp]
theorem transfer_eq_ok {sender receiver : Address} {amount : ℤ} :
    s.transfer sender receiver amount = .ok s' ↔
      0 ≤ amount ∧ amount ≤ s.balances sender ∧ s' = s.moved sender receiver amount := by
  simp only [State.transfer, bind_eq_ok, okOr_eq_ok, Ledger.transfer_eq_some, pure_eq_ok]
  constructor
  · rintro ⟨_, ⟨hnn, hle, rfl⟩, rfl⟩
    exact ⟨hnn, hle, rfl⟩
  · rintro ⟨hnn, hle, rfl⟩
    exact ⟨_, ⟨hnn, hle, rfl⟩, rfl⟩

@[simp]
theorem loadOracle_eq_ok {info : OracleInfo} :
    s.loadOracle operator = .ok info ↔ s.oracles.get operator = some info := okOr_eq_ok _ _ _

@[simp]
theorem loadRound_eq_ok :
    s.loadRound invoiceId = .ok round ↔ s.rounds.get invoiceId = some round := okOr_eq_ok _ _ _

/-! ## Oracles -/

def State.registered (h : Host W) (s : State W) (operator : Address) (stakeAmount : ℤ) : State W :=
  { s.moved operator h.self stakeAmount with
    oracles := s.oracles.set operator (s.newOracle operator stakeAmount)
    oracleIds := if operator ∈ s.oracleIds then s.oracleIds else s.oracleIds ++ [operator] }

theorem registerOracle_eq_ok {stakeAmount : ℤ}
    (hx : registerOracle h signers s operator stakeAmount = .ok s') :
    operator ∈ signers ∧ s.settings.config.minStake ≤ stakeAmount ∧
      s.oracles.get operator = none ∧ s' = s.registered h operator stakeAmount := by
  simp only [registerOracle, bind_eq_ok, exists_unit, requireAuth_eq_ok, requireNotPaused_eq_ok,
    require_eq_ok, transfer_eq_ok] at hx
  obtain ⟨hauth, -, hmin, hnew, _, ⟨-, -, rfl⟩, hx⟩ := hx
  refine ⟨hauth, hmin, hnew, ?_⟩
  split_ifs at hx with hmem
  · have hids : operator ∈ s.oracleIds := hmem
    rw [pure_eq_ok] at hx
    rw [← hx, State.registered, if_pos hids]
    rfl
  · have hids : operator ∉ s.oracleIds := hmem
    rw [pure_eq_ok] at hx
    rw [← hx, State.registered, if_neg hids]
    rfl

/-- The state after an oracle took its stake and left. -/
def State.departed (h : Host W) (s : State W) (operator : Address) (stakeAmount : ℤ) : State W :=
  { s.moved h.self operator stakeAmount with
    oracles := s.oracles.remove operator
    oracleIds := s.oracleIds.erase operator }

theorem deregisterOracle_eq_ok :
    deregisterOracle h signers s operator = .ok s' ↔
    ∃ info, operator ∈ signers ∧ s.settings.paused = false ∧ s.oracles.get operator = some info ∧
      ((info.deregisterRequestedAt = none ∧ info.isActive = true ∧
        (∀ invoiceId ∈ s.openRounds, s.owesVote operator invoiceId = false) ∧
        s' = s.setOracle operator
          { info with isActive := false, deregisterRequestedAt := some s.now }) ∨
      ∃ requestedAt, info.deregisterRequestedAt = some requestedAt ∧
        saturatingAddU 64 requestedAt s.settings.config.deregisterCooldownSecs ≤ s.now ∧
        0 ≤ info.stakeAmount ∧ info.stakeAmount ≤ s.balances h.self ∧
        s' = s.departed h operator info.stakeAmount) := by
  simp only [deregisterOracle, bind_eq_ok, exists_unit, requireAuth_eq_ok, requireNotPaused_eq_ok,
    loadOracle_eq_ok]
  constructor
  · rintro ⟨hauth, hpaused, info, hget, hx⟩
    refine ⟨info, hauth, hpaused, hget, ?_⟩
    cases hrequested : info.deregisterRequestedAt with
    | none =>
      simp only [hrequested, bind_eq_ok, exists_unit, require_eq_ok, pure_eq_ok] at hx
      exact .inl ⟨rfl, hx.1, hx.2.1, hx.2.2.symm⟩
    | some requestedAt =>
      simp only [hrequested, bind_eq_ok, exists_unit, require_eq_ok, transfer_eq_ok,
        pure_eq_ok] at hx
      obtain ⟨hcooldown, _, ⟨hnn, hle, rfl⟩, rfl⟩ := hx
      exact .inr ⟨requestedAt, rfl, hcooldown, hnn, hle, rfl⟩
  · rintro ⟨info, hauth, hpaused, hget, hx⟩
    refine ⟨hauth, hpaused, info, hget, ?_⟩
    rcases hx with ⟨hrequested, hactive, hvotes, rfl⟩ | ⟨requestedAt, hrequested, hcooldown, hnn, hle, rfl⟩
    · simp only [hrequested, bind_eq_ok, exists_unit, require_eq_ok, pure_eq_ok]
      exact ⟨hactive, hvotes, trivial⟩
    · simp only [hrequested, bind_eq_ok, exists_unit, require_eq_ok, transfer_eq_ok, pure_eq_ok]
      exact ⟨hcooldown, _, ⟨hnn, hle, rfl⟩, rfl⟩

def slashCut (stakeAmount : ℤ) (bps : ℕ) : ℤ := (stakeAmount * bps).tdiv 10000

theorem slashCut_bounds {stakeAmount : ℤ} {bps : ℕ} (hstake : 0 ≤ stakeAmount) (hbps : bps ≤ 10000) :
    0 ≤ slashCut stakeAmount bps ∧ slashCut stakeAmount bps ≤ stakeAmount := by
  unfold slashCut
  constructor
  · exact Int.tdiv_nonneg (by positivity) (by omega)
  · have hle : stakeAmount * bps ≤ stakeAmount * 10000 :=
      mul_le_mul_of_nonneg_left (by exact_mod_cast hbps) hstake
    exact tdiv_le_of_le_mul (by omega) (by positivity) hle

def State.slashed (h : Host W) (s : State W) (operator : Address) (info : OracleInfo) (bps : ℕ) :
    State W :=
  { s with
    oracles := s.oracles.set operator
      { info with
        stakeAmount := info.stakeAmount - slashCut info.stakeAmount bps
        totalSlashes := info.totalSlashes + 1 }
    balances := s.settings.config.treasury.elim s.balances fun treasury =>
      Ledger.move s.balances h.self treasury (slashCut info.stakeAmount bps) }

theorem slashOracleInternal_eq_ok {bps roundId : ℕ} {evidence : Invoices.Bytes}
    (hx : slashOracleInternal h s operator bps roundId evidence = .ok s') :
    ∃ info, s.oracles.get operator = some info ∧ 0 < bps ∧ bps ≤ 10000 ∧
      s' = s.slashed h operator info bps := by
  simp only [slashOracleInternal, bind_eq_ok, exists_unit, requireNotPaused_eq_ok, require_eq_ok,
    loadOracle_eq_ok, okOr_eq_ok, checkedMul_eq_some, checkedSub_eq_some, fitU_eq_some] at hx
  obtain ⟨-, hbps, -, -, info, hget, _, ⟨rfl, -⟩, _, ⟨rfl, -⟩, _, ⟨rfl, -⟩, hx⟩ := hx
  simp only [not_or, not_lt] at hbps
  refine ⟨info, hget, Nat.pos_of_ne_zero hbps.1, hbps.2, ?_⟩
  have hsettings : ∀ o i, (s.setOracle o i).settings = s.settings := fun _ _ => rfl
  rw [hsettings] at hx
  unfold State.slashed slashCut
  cases htreasury : s.settings.config.treasury with
  | none =>
    simp only [htreasury, pure_eq_ok] at hx
    exact hx.symm
  | some treasury =>
    simp only [htreasury, transfer_eq_ok] at hx
    exact hx.2.2

theorem withdrawSlashedFunds_eq_ok {admin recipient : Address} {amount : ℤ}
    (hx : withdrawSlashedFunds h signers s admin recipient amount = .ok s') :
    s.settings.config.treasury = none ∧ 0 < amount ∧ amount ≤ s.balances h.self ∧
      s' = s.moved h.self recipient amount := by
  simp only [withdrawSlashedFunds, bind_eq_ok, exists_unit, requireNotPaused_eq_ok, require_eq_ok,
    transfer_eq_ok] at hx
  obtain ⟨-, -, htreasury, hpos, -, hle, rfl⟩ := hx
  exact ⟨htreasury, hpos, hle, rfl⟩

/-! ## Rounds -/

def VerificationRound.entered (round : VerificationRound) (oracle : Address) (approved : Bool)
    (weight : ℤ) : VerificationRound :=
  { round with
    votes := round.votes.set oracle approved
    weightFor := round.weightFor + if approved then weight else 0
    weightAgainst := round.weightAgainst + if approved then 0 else weight }

theorem enter_eq_ok {round round' : VerificationRound} {oracle : Address} {weight : ℤ}
    (hx : round.enter oracle approved weight = .ok round') :
    round' = round.entered oracle approved weight := by
  unfold VerificationRound.enter at hx
  cases approved with
  | true =>
    simp only [if_true, bind_eq_ok, okOr_eq_ok, checkedAdd_eq_some, pure_eq_ok] at hx
    obtain ⟨_, ⟨rfl, -⟩, rfl⟩ := hx
    simp [VerificationRound.entered]
  | false =>
    simp only [Bool.false_eq_true, if_false, bind_eq_ok, okOr_eq_ok, checkedAdd_eq_some,
      pure_eq_ok] at hx
    obtain ⟨_, ⟨rfl, -⟩, rfl⟩ := hx
    simp [VerificationRound.entered]

/-- The deciding weight of a round: the quorum of its stake snapshot, rounded up. -/
def VerificationRound.quorum (round : VerificationRound) : ℤ :=
  (round.totalStakeSnapshot * round.quorumBps + 9999).tdiv 10000

theorem threshold_eq_ok {threshold : ℤ} (hx : round.threshold = .ok threshold) :
    threshold = round.quorum := by
  simp only [VerificationRound.threshold, bind_eq_ok, okOr_eq_ok, checkedMul_eq_some,
    checkedAdd_eq_some, pure_eq_ok] at hx
  obtain ⟨_, ⟨rfl, -⟩, _, ⟨rfl, -⟩, rfl⟩ := hx
  rfl

theorem verdict_spec {threshold : ℤ} {outcome : Bool}
    (hverdict : round.verdict threshold = some outcome) :
    round.requiredVotes ≤ round.votes.entries.length ∧
      (outcome = true → threshold ≤ round.weightFor) ∧
      (outcome = false → threshold ≤ round.weightAgainst ∧ round.weightFor < threshold) := by
  unfold VerificationRound.verdict at hverdict
  split_ifs at hverdict with hfor hagainst
  · rw [← Option.some.inj hverdict]
    exact ⟨hfor.1, fun _ => hfor.2, fun hfalse => by cases hfalse⟩
  · rw [← Option.some.inj hverdict]
    refine ⟨hagainst.1, fun htrue => ?_, fun _ => ⟨hagainst.2, ?_⟩⟩
    · cases htrue
    · by_contra hnot
      exact hfor ⟨hagainst.1, not_lt.1 hnot⟩

/-- What the loop over the oracles adds up. -/
def State.activeStake (s : State W) (operator : Address) : ℤ :=
  (s.oracles.get operator).elim 0 fun info => if info.isActive then info.stakeAmount else 0

def State.active (s : State W) (operator : Address) : Bool :=
  (s.oracles.get operator).elim false OracleInfo.isActive

theorem countOracle_eq_ok {acc acc' : ℤ × ℕ} {id : Address} (hx : s.countOracle acc id = .ok acc') :
    acc' = (acc.1 + s.activeStake id, acc.2 + if s.active id then 1 else 0) := by
  unfold State.countOracle at hx
  unfold State.activeStake State.active
  cases hget : s.oracles.get id with
  | none =>
    simp only [hget, pure_eq_ok] at hx
    rw [← hx]
    simp
  | some info =>
    simp only [hget] at hx
    split_ifs at hx with hactive
    · simp only [bind_eq_ok, okOr_eq_ok, checkedAdd_eq_some, fitU_eq_some, pure_eq_ok] at hx
      obtain ⟨_, ⟨rfl, -⟩, _, ⟨rfl, -⟩, rfl⟩ := hx
      simp [hactive]
    · rw [pure_eq_ok] at hx
      rw [← hx]
      simp [hactive]

theorem foldlM_countOracle_eq_ok {ids : List Address} :
    ∀ {acc acc' : ℤ × ℕ}, ids.foldlM s.countOracle acc = .ok acc' →
      acc'.1 = acc.1 + (ids.map s.activeStake).sum ∧ acc'.2 = acc.2 + ids.countP s.active := by
  induction ids with
  | nil =>
    intro acc acc' hx
    rw [List.foldlM_nil, pure_eq_ok] at hx
    simp [hx]
  | cons id ids ih =>
    intro acc acc' hx
    rw [List.foldlM_cons, bind_eq_ok] at hx
    obtain ⟨mid, hmid, hx⟩ := hx
    obtain ⟨hstake, hcount⟩ := ih hx
    rw [countOracle_eq_ok hmid] at hstake hcount
    rw [hstake, hcount, List.map_cons, List.sum_cons, List.countP_cons]
    constructor <;> dsimp only <;> omega

structure OpensRound (h : Host W) (s : State W) (invoiceId : ℕ) (oracleHash : Invoices.Bytes)
    (round : VerificationRound) : Prop where
  notOpen : ∀ existing, s.rounds.get invoiceId = some existing → existing.status ≠ .Open
  awaiting : ∃ contract amount, s.settings.invoiceContract = some contract ∧
    h.getInvoiceVerificationState s.world contract invoiceId = some (true, amount) ∧
    round = s.newRound invoiceId oracleHash (s.oracleIds.map s.activeStake).sum
      (s.oracleIds.countP s.active)
      (resolveQuorumBps s.settings.config.quorumBps amount s.settings.quorumTiers)
  count : s.oracleIds.countP s.active ≠ 0

theorem openVerificationRound_eq_ok {caller : Address} {oracleHash : Invoices.Bytes}
    (hx : openVerificationRound h signers s caller invoiceId oracleHash = .ok s') :
    ∃ round, OpensRound h s invoiceId oracleHash round ∧
      s' = { s.setRound invoiceId round with openRounds := s.openRounds ++ [invoiceId] } := by
  simp only [openVerificationRound, bind_eq_ok, exists_unit, requireAuth_eq_ok,
    requireNotPaused_eq_ok, require_eq_ok, okOr_eq_ok, Prod.exists, pure_eq_ok] at hx
  obtain ⟨-, -, hopen, contract, hcontract, awaiting, amount, hstate, rfl, totalStake, activeCount,
    hfold, hcount, rfl⟩ := hx
  obtain ⟨hstake, hactive⟩ := foldlM_countOracle_eq_ok hfold
  simp only [zero_add] at hstake hactive
  subst hstake hactive
  exact ⟨_, ⟨hopen, ⟨contract, amount, hcontract, hstate, rfl⟩, hcount⟩, rfl⟩

theorem finalizeOnInvoice_eq_ok {oracleHash : Invoices.Bytes} :
    finalizeOnInvoice h s invoiceId approved oracleHash = .ok s' ↔
      ∃ contract world, s.settings.invoiceContract = some contract ∧
        h.consensusVerify s.world contract invoiceId h.self approved
          (Invoices.bytes (if approved then "consensus approved" else "consensus rejected"))
          oracleHash = some world ∧ s' = { s with world := world } := by
  simp only [finalizeOnInvoice, bind_eq_ok, okOr_eq_ok, pure_eq_ok]
  constructor
  · rintro ⟨contract, hcontract, world, hworld, rfl⟩
    exact ⟨contract, world, hcontract, hworld, rfl⟩
  · rintro ⟨contract, world, hcontract, hworld, rfl⟩
    exact ⟨contract, hcontract, world, hworld, rfl⟩

structure Votes (s : State W) (oracle : Address) (invoiceId : ℕ) (info : OracleInfo)
    (round : VerificationRound) : Prop where
  info_get : s.oracles.get oracle = some info
  active : info.isActive = true
  staying : info.deregisterRequestedAt = none
  stake : s.settings.config.minStake ≤ info.stakeAmount
  round_get : s.rounds.get invoiceId = some round
  status : round.status = .Open
  deadline : s.now ≤ round.deadline
  fresh : round.votes.get oracle = none

def State.credited (s : State W) (oracle : Address) (info : OracleInfo) (invoiceId : ℕ) : State W :=
  (s.setOracle oracle { info with totalVerifications := info.totalVerifications + 1 }).appendOracleRound
    oracle invoiceId

theorem credited_eq (oracle : Address) (info : OracleInfo) (invoiceId : ℕ) :
    ∃ history count, s.credited oracle info invoiceId = { s with
      oracles := s.oracles.set oracle { info with totalVerifications := info.totalVerifications + 1 }
      oracleRounds := history
      oracleRoundCount := count } := by
  unfold State.credited State.appendOracleRound
  by_cases hmem : invoiceId ∈ s.oracleRounds oracle
  · exact ⟨s.oracleRounds, s.oracleRoundCount, if_pos hmem⟩
  · exact ⟨_, _, if_neg hmem⟩

theorem submitVote_eq_ok {oracle : Address}
    (hx : submitVote h signers s oracle invoiceId approved = .ok s') :
    ∃ info round round', oracle ∈ signers ∧ Votes s oracle invoiceId info round ∧
      round' = round.entered oracle approved info.stakeAmount ∧
      ((round'.verdict round'.quorum = none ∧
        s' = (s.credited oracle info invoiceId).setRound invoiceId round') ∨
      ∃ outcome, round'.verdict round'.quorum = some outcome ∧
        finalizeOnInvoice h
          (((s.credited oracle info invoiceId).setRound invoiceId
            { round' with status := decided outcome }).removeOpenRound invoiceId)
          invoiceId outcome round'.oracleHash = .ok s') := by
  simp only [submitVote, bind_eq_ok, exists_unit, requireAuth_eq_ok, requireNotPaused_eq_ok,
    loadOracle_eq_ok, require_eq_ok, loadRound_eq_ok, okOr_eq_ok, fitU_eq_some] at hx
  obtain ⟨hauth, -, info, hinfo, hactive, hstaying, hstake, round, hround, hopen, hdeadline, hfresh,
    round', henter, _, ⟨rfl, -⟩, threshold, hthreshold, hx⟩ := hx
  refine ⟨info, round, round', hauth,
    ⟨hinfo, hactive, hstaying, hstake, hround, hopen, hdeadline, hfresh⟩, enter_eq_ok henter, ?_⟩
  rw [threshold_eq_ok hthreshold] at hx
  cases hverdict : round'.verdict round'.quorum with
  | none =>
    simp only [hverdict, pure_eq_ok] at hx
    exact .inl ⟨rfl, hx.symm⟩
  | some outcome =>
    simp only [hverdict] at hx
    exact .inr ⟨outcome, rfl, hx⟩

theorem expireRound_eq_ok (hx : expireRound s invoiceId = .ok s') :
    ∃ round, s.rounds.get invoiceId = some round ∧ round.status = .Open ∧ round.deadline < s.now ∧
      s' = (s.setRound invoiceId { round with status := .Expired }).removeOpenRound invoiceId := by
  simp only [expireRound, bind_eq_ok, exists_unit, requireNotPaused_eq_ok, loadRound_eq_ok,
    require_eq_ok, pure_eq_ok] at hx
  obtain ⟨-, round, hround, hopen, hlate, rfl⟩ := hx
  exact ⟨round, hround, hopen, hlate, rfl⟩

theorem adminResolveRoundInternal_eq_ok
    (hx : adminResolveRoundInternal h s invoiceId approved = .ok s') :
    ∃ round, s.rounds.get invoiceId = some round ∧ round.status = .Expired ∧
      round.deadline < s.now ∧
      finalizeOnInvoice h (s.setRound invoiceId { round with status := decided approved }) invoiceId
        approved round.oracleHash = .ok s' := by
  simp only [adminResolveRoundInternal, bind_eq_ok, exists_unit, loadRound_eq_ok, require_eq_ok] at hx
  obtain ⟨round, hround, ⟨hexpired, hlate⟩, hx⟩ := hx
  exact ⟨round, hround, hexpired, hlate, hx⟩

structure Settings.Valid (settings : Settings) : Prop where
  minStake : 0 < settings.config.minStake
  requiredVotes : 0 < settings.config.requiredVotes
  quorumBps : 0 < settings.config.quorumBps ∧ settings.config.quorumBps ≤ 10000
  tiers : ∀ tier ∈ settings.quorumTiers, 0 < tier.quorumBps ∧ tier.quorumBps ≤ 10000

theorem writeRegistryConfig_valid {requiredVotes quorumBps duration cooldown : ℕ}
    (hvalid : settings.Valid)
    (hx : writeRegistryConfig settings minStake requiredVotes quorumBps duration cooldown = .ok settings') :
    settings'.Valid := by
  simp only [writeRegistryConfig, bind_eq_ok, exists_unit, require_eq_ok, pure_eq_ok] at hx
  obtain ⟨hcheck, rfl⟩ := hx
  constructor
  · show 0 < minStake
    omega
  · show 0 < requiredVotes
    omega
  · show 0 < quorumBps ∧ quorumBps ≤ 10000
    omega
  · exact hvalid.tiers

theorem checkTiers_eq_ok {accepts : QuorumTier → Bool} :
    ∀ {tiers : List QuorumTier} {prev : Option ℤ}, checkTiers accepts prev tiers = .ok () →
      ∀ tier ∈ tiers, accepts tier = true := by
  intro tiers
  induction tiers with
  | nil =>
    intro prev _ tier hmem
    cases hmem
  | cons first tiers ih =>
    intro prev hx tier hmem
    simp only [checkTiers, bind_eq_ok, exists_unit, require_eq_ok] at hx
    obtain ⟨haccepts, -, hrest⟩ := hx
    rcases List.mem_cons.1 hmem with rfl | hmem
    · exact haccepts
    · exact ih hrest tier hmem

theorem setQuorumTiers_valid {admin : Address} {tiers : List QuorumTier} (hvalid : settings.Valid)
    (hx : setQuorumTiers signers settings admin tiers = .ok settings') : settings'.Valid := by
  simp only [setQuorumTiers, bind_eq_ok, exists_unit, pure_eq_ok] at hx
  obtain ⟨-, hcheck, rfl⟩ := hx
  refine ⟨hvalid.minStake, hvalid.requiredVotes, hvalid.quorumBps, fun tier hmem => ?_⟩
  have haccepts := of_decide_eq_true (checkTiers_eq_ok hcheck tier hmem)
  omega

theorem setQuorumTiersViaGovernance_valid {governance : Address} {tiers : List QuorumTier}
    (hvalid : settings.Valid)
    (hx : setQuorumTiersViaGovernance signers settings governance tiers = .ok settings') :
    settings'.Valid := by
  simp only [setQuorumTiersViaGovernance, bind_eq_ok, exists_unit, require_eq_ok, pure_eq_ok] at hx
  obtain ⟨-, -, hcheck, rfl⟩ := hx
  refine ⟨hvalid.minStake, hvalid.requiredVotes, hvalid.quorumBps, fun tier hmem => ?_⟩
  have haccepts := of_decide_eq_true (checkTiers_eq_ok hcheck tier hmem)
  omega

theorem applySetting_valid {setting : Setting} (hvalid : settings.Valid)
    (hx : applySetting signers settings setting = .ok settings') :
    settings'.Valid := by
  cases setting with
  | setRegistryConfig | setRegistryConfigViaAc | setRegistryConfigGov =>
    simp only [applySetting, setRegistryConfig, setRegistryConfigViaAc, setRegistryConfigGov,
      bind_eq_ok, exists_unit] at hx
    exact writeRegistryConfig_valid hvalid hx.2
  | setQuorumTiers => exact setQuorumTiers_valid hvalid hx
  | setQuorumTiersViaGovernance => exact setQuorumTiersViaGovernance_valid hvalid hx
  | _ =>
    -- the others write neither the checked numbers nor the tiers
    simp only [applySetting, setInvoiceContract, setInvoiceContractViaAc, setInvoiceContractGov,
      setTreasury, setTreasuryViaAc, setTreasuryViaGovernance, pause, unpause, setPausedViaAc,
      setAccessControl, setAccessControlViaAc, setGovernanceAddress, bind_eq_ok, exists_unit,
      pure_eq_ok] at hx
    obtain ⟨-, rfl⟩ := hx
    exact ⟨hvalid.minStake, hvalid.requiredVotes, hvalid.quorumBps, hvalid.tiers⟩

theorem initializeRegistry_eq_ok {now : ℕ} {world : W} {balances : Address → ℤ}
    {admin stakeToken : Address} :
    initializeRegistry now world balances admin stakeToken minStake = .ok s ↔
      0 < minStake ∧ s = {
        now := now
        world := world
        balances := balances
        settings := { admin := admin, config := { minStake := minStake, stakeToken := stakeToken } }
        } := by
  simp only [initializeRegistry, bind_eq_ok, exists_unit, require_eq_ok, pure_eq_ok]
  exact and_congr_right fun _ => eq_comm

theorem initializeRegistry_valid {now : ℕ} {world : W} {balances : Address → ℤ}
    {admin stakeToken : Address}
    (hinit : initializeRegistry now world balances admin stakeToken minStake = .ok s) :
    s.settings.Valid := by
  obtain ⟨hpos, rfl⟩ := initializeRegistry_eq_ok.1 hinit
  refine ⟨hpos, ?_, ?_, fun tier hmem => ?_⟩
  · show 0 < defaultRequiredVotes
    decide
  · show 0 < defaultQuorumBps ∧ defaultQuorumBps ≤ 10000
    decide
  · cases hmem

/-- The ledger after the vote of an oracle was entered in a round. -/
def State.voted (s : State W) (oracle : Address) (info : OracleInfo) (invoiceId : ℕ)
    (round : VerificationRound) : State W :=
  (s.credited oracle info invoiceId).setRound invoiceId round

/-- The ledger after a round was closed with an outcome. -/
def State.closed (s : State W) (invoiceId : ℕ) (round : VerificationRound) (status : RoundStatus) :
    State W :=
  (s.setRound invoiceId { round with status := status }).removeOpenRound invoiceId

/-- What the invoice contract did with an outcome. -/
def Accepts (h : Host W) (s : State W) (invoiceId : ℕ) (approved : Bool) (oracleHash : Invoices.Bytes)
    (world : W) : Prop :=
  ∃ contract, s.settings.invoiceContract = some contract ∧
    h.consensusVerify s.world contract invoiceId h.self approved
      (Invoices.bytes (if approved then "consensus approved" else "consensus rejected"))
      oracleHash = some world

inductive Effect (h : Host W) (s : State W) (tx : Tx h) : State W → Prop
  | registered {operator : Address} {stakeAmount : ℤ}
      (hcall : tx.call = .registerOracle operator stakeAmount) (hauth : operator ∈ tx.signers)
      (hmin : s.settings.config.minStake ≤ stakeAmount) (hnew : s.oracles.get operator = none) :
      Effect h s tx (s.registered h operator stakeAmount)
  | requested {operator : Address} {info : OracleInfo}
      (hcall : tx.call = .deregisterOracle operator)
      (hget : s.oracles.get operator = some info) (hstaying : info.deregisterRequestedAt = none)
      (hactive : info.isActive = true)
      (hvotes : ∀ invoiceId ∈ s.openRounds, s.owesVote operator invoiceId = false) :
      Effect h s tx (s.setOracle operator
        { info with isActive := false, deregisterRequestedAt := some s.now })
  | departed {operator : Address} {info : OracleInfo} {requestedAt : ℕ}
      (hcall : tx.call = .deregisterOracle operator) (hauth : operator ∈ tx.signers)
      (hget : s.oracles.get operator = some info)
      (hrequested : info.deregisterRequestedAt = some requestedAt)
      (hcooldown : saturatingAddU 64 requestedAt s.settings.config.deregisterCooldownSecs ≤ s.now)
      (hnn : 0 ≤ info.stakeAmount) (hle : info.stakeAmount ≤ s.balances h.self) :
      Effect h s tx (s.departed h operator info.stakeAmount)
  | slashed {operator : Address} {info : OracleInfo} {bps roundId : ℕ} {evidence : Invoices.Bytes}
      (hcall : ∃ caller, tx.call = .slashOracle caller operator bps roundId evidence ∨
        tx.call = .slashOracleViaAc caller operator bps roundId evidence)
      (hget : s.oracles.get operator = some info) (hpos : 0 < bps) (hbps : bps ≤ 10000) :
      Effect h s tx (s.slashed h operator info bps)
  | withdrew {admin recipient : Address} {amount : ℤ}
      (hcall : tx.call = .withdrawSlashedFunds admin recipient amount)
      (htreasury : s.settings.config.treasury = none) (hpos : 0 < amount)
      (hle : amount ≤ s.balances h.self) : Effect h s tx (s.moved h.self recipient amount)
  | opened {caller : Address} {invoiceId : ℕ} {oracleHash : Invoices.Bytes}
      {round : VerificationRound}
      (hcall : tx.call = .openVerificationRound caller invoiceId oracleHash)
      (hopens : OpensRound h s invoiceId oracleHash round) :
      Effect h s tx { s.setRound invoiceId round with openRounds := s.openRounds ++ [invoiceId] }
  | counted {oracle : Address} {invoiceId : ℕ} {approved : Bool} {info : OracleInfo}
      {round : VerificationRound} (hcall : tx.call = .submitVote oracle invoiceId approved)
      (hvotes : Votes s oracle invoiceId info round)
      (hverdict : (round.entered oracle approved info.stakeAmount).verdict
        (round.entered oracle approved info.stakeAmount).quorum = none) :
      Effect h s tx
        (s.voted oracle info invoiceId (round.entered oracle approved info.stakeAmount))
  | decided {oracle : Address} {invoiceId : ℕ} {approved outcome : Bool} {info : OracleInfo}
      {round : VerificationRound} {world : W}
      (hcall : tx.call = .submitVote oracle invoiceId approved)
      (hvotes : Votes s oracle invoiceId info round)
      (hverdict : (round.entered oracle approved info.stakeAmount).verdict
        (round.entered oracle approved info.stakeAmount).quorum = some outcome)
      (haccepts : Accepts h s invoiceId outcome round.oracleHash world) :
      Effect h s tx { (s.credited oracle info invoiceId).closed invoiceId
          (round.entered oracle approved info.stakeAmount) (decided outcome) with world := world }
  | expired {invoiceId : ℕ} {round : VerificationRound} (hcall : tx.call = .expireRound invoiceId)
      (hget : s.rounds.get invoiceId = some round) (hopen : round.status = .Open)
      (hlate : round.deadline < s.now) : Effect h s tx (s.closed invoiceId round .Expired)
  | resolved {invoiceId : ℕ} {approved : Bool} {round : VerificationRound} {world : W}
      (hcall : ∃ caller, tx.call = .adminResolveRound caller invoiceId approved ∨
        tx.call = .adminResolveRoundViaAc caller invoiceId approved)
      (hget : s.rounds.get invoiceId = some round) (hexpired : round.status = .Expired)
      (hlate : round.deadline < s.now)
      (haccepts : Accepts h s invoiceId approved round.oracleHash world) :
      Effect h s tx
        { s.setRound invoiceId { round with status := decided approved } with world := world }
  | configured {setting : Setting} {settings : Settings} (hcall : tx.call = .set setting)
      (hset : applySetting tx.signers s.settings setting = .ok settings) :
      Effect h s tx { s with settings := settings }
  | advanced {now : ℕ} (hcall : tx.call = .advance now) (hnow : s.now ≤ now) (hfits : now < 2 ^ 64) :
      Effect h s tx { s with now := now }
  | elsewhere {world : W} (hcall : tx.call = .elsewhere world) :
      Effect h s tx { s with world := world }
  | transferred {sender receiver : Address} {amount : ℤ}
      (hcall : tx.call = .stakeTransfer sender receiver amount) (hauth : sender ∈ tx.signers)
      (hnn : 0 ≤ amount) (hle : amount ≤ s.balances sender) :
      Effect h s tx (s.moved sender receiver amount)

theorem credited_settings_world (s : State W) (oracle : Address) (info : OracleInfo) (invoiceId : ℕ) :
    (s.credited oracle info invoiceId).settings = s.settings ∧
      (s.credited oracle info invoiceId).world = s.world := by
  obtain ⟨history, count, heq⟩ := credited_eq (s := s) oracle info invoiceId
  rw [heq]
  exact ⟨rfl, rfl⟩

theorem exec_effect {tx : Tx h} (hx : exec h s tx = .ok s') : Effect h s tx s' := by
  obtain ⟨signers, hself, call⟩ := tx
  cases call with
  | registerOracle operator stakeAmount =>
    obtain ⟨hauth, hmin, hnew, rfl⟩ := registerOracle_eq_ok hx
    exact .registered rfl hauth hmin hnew
  | deregisterOracle operator =>
    obtain ⟨info, hauth, -, hget, hcase⟩ := deregisterOracle_eq_ok.1 hx
    rcases hcase with ⟨hstaying, hactive, hvotes, rfl⟩ |
      ⟨requestedAt, hrequested, hcooldown, hnn, hle, rfl⟩
    · exact .requested rfl hget hstaying hactive hvotes
    · exact .departed rfl hauth hget hrequested hcooldown hnn hle
  | slashOracle admin operator bps roundId evidence =>
    simp only [exec, slashOracle, bind_eq_ok, exists_unit] at hx
    obtain ⟨info, hget, hpos, hbps, rfl⟩ := slashOracleInternal_eq_ok hx.2
    exact .slashed ⟨admin, .inl rfl⟩ hget hpos hbps
  | slashOracleViaAc accessControl operator bps roundId evidence =>
    simp only [exec, slashOracleViaAc, bind_eq_ok, exists_unit] at hx
    obtain ⟨info, hget, hpos, hbps, rfl⟩ := slashOracleInternal_eq_ok hx.2
    exact .slashed ⟨accessControl, .inr rfl⟩ hget hpos hbps
  | withdrawSlashedFunds admin recipient amount =>
    obtain ⟨htreasury, hpos, hle, rfl⟩ := withdrawSlashedFunds_eq_ok hx
    exact .withdrew rfl htreasury hpos hle
  | openVerificationRound caller invoiceId oracleHash =>
    obtain ⟨round, hopens, rfl⟩ := openVerificationRound_eq_ok hx
    exact .opened rfl hopens
  | submitVote oracle invoiceId approved =>
    obtain ⟨info, round, _, -, hvotes, rfl, hcase⟩ := submitVote_eq_ok hx
    rcases hcase with ⟨hverdict, rfl⟩ | ⟨outcome, hverdict, hfinal⟩
    · exact .counted rfl hvotes hverdict
    · obtain ⟨contract, world, hcontract, hworld, rfl⟩ := finalizeOnInvoice_eq_ok.1 hfinal
      obtain ⟨hsettings, hworlds⟩ := credited_settings_world s oracle info invoiceId
      refine .decided rfl hvotes hverdict ⟨contract, ?_, ?_⟩
      · rw [← hsettings]
        exact hcontract
      · rw [← hworlds]
        exact hworld
  | expireRound invoiceId =>
    obtain ⟨round, hget, hopen, hlate, rfl⟩ := expireRound_eq_ok hx
    exact .expired rfl hget hopen hlate
  | adminResolveRound admin invoiceId approved =>
    simp only [exec, adminResolveRound, bind_eq_ok, exists_unit] at hx
    obtain ⟨round, hget, hexpired, hlate, hfinal⟩ := adminResolveRoundInternal_eq_ok hx.2
    obtain ⟨contract, world, hcontract, hworld, rfl⟩ := finalizeOnInvoice_eq_ok.1 hfinal
    exact .resolved ⟨admin, .inl rfl⟩ hget hexpired hlate ⟨contract, hcontract, hworld⟩
  | adminResolveRoundViaAc accessControl invoiceId approved =>
    simp only [exec, adminResolveRoundViaAc, bind_eq_ok, exists_unit] at hx
    obtain ⟨round, hget, hexpired, hlate, hfinal⟩ := adminResolveRoundInternal_eq_ok hx.2
    obtain ⟨contract, world, hcontract, hworld, rfl⟩ := finalizeOnInvoice_eq_ok.1 hfinal
    exact .resolved ⟨accessControl, .inr rfl⟩ hget hexpired hlate ⟨contract, hcontract, hworld⟩
  | set setting =>
    simp only [exec, map_eq_ok] at hx
    obtain ⟨settings, hset, rfl⟩ := hx
    exact .configured rfl hset
  | advance now =>
    simp only [exec, advance, bind_eq_ok, exists_unit, require_eq_ok, pure_eq_ok] at hx
    obtain ⟨⟨hnow, hfits⟩, rfl⟩ := hx
    exact .advanced rfl hnow hfits
  | elsewhere world =>
    simp only [exec, Except.ok.injEq] at hx
    rw [← hx]
    exact .elsewhere rfl
  | stakeTransfer sender receiver amount =>
    simp only [exec, stakeTransfer, bind_eq_ok, exists_unit, requireAuth_eq_ok, transfer_eq_ok] at hx
    obtain ⟨hauth, hnn, hle, rfl⟩ := hx
    exact .transferred rfl hauth hnn hle

end Astera.Oracle
