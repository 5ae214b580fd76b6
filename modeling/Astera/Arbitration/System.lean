import Astera.Lib.Transition
import Astera.Arbitration.Contract

/-!
# The arbitration contract as a machine

`Call` lists the entrypoints, with the order that the host shuffles the jurors of a draw into, the
passing of time, transfers of the stake token and moves of the other contracts.  A run is a run of
`exec h` (`Transition.Reaches`).
-/

namespace Astera.Arbitration

open Fallible Machine Transition
open Invoices (Bytes DisputeResolution)

variable {W : Type}

inductive Setting
  | setInvoiceContract (admin invoiceContract : Address)
  | setAccessControl (admin accessControl : Address)
  | setConfig (admin : Address) (newConfig : ArbitrationConfig)
  | pause (admin : Address)
  | unpause (admin : Address)

def applySetting (signers : List Address) (s : Settings) : Setting → Res Settings
  | .setInvoiceContract admin contract => setInvoiceContract signers s admin contract
  | .setAccessControl admin accessControl => setAccessControl signers s admin accessControl
  | .setConfig admin newConfig => setConfig signers s admin newConfig
  | .pause admin => pause signers s admin
  | .unpause admin => unpause signers s admin

/-- What can happen to the contract. -/
inductive Call (W : Type)
  | registerJuror (operator : Address) (stakeAmount : ℤ)
  | deregisterJuror (operator : Address)
  | openCase (invoice : Address) (invoiceId : ℕ) (claimant respondent : Address) (amount : ℤ)
  | submitEvidence (caseId : ℕ) (submitter : Address) (evidenceHash : Bytes)
  | selectJurors (caseId : ℕ) (shuffled : List Address)
  | commitVote (caseId : ℕ) (juror : Address) (commitHash : Bytes)
  | revealVote (caseId : ℕ) (juror : Address) (voteChoice : Bool) (salt : Bytes)
  | finalizeCase (caseId : ℕ)
  | adminResolveNoQuorum (admin : Address) (caseId : ℕ) (resolution : DisputeResolution)
  | set (setting : Setting)
  | advance (now : ℕ)
  | elsewhere (world : W)
  /-- A holder moves stake tokens. -/
  | stakeTransfer (sender receiver : Address) (amount : ℤ)

/-- A call and the addresses that authorize it.  A contract cannot sign, so this one is not among
them. -/
structure Tx (h : Host W) where
  signers : List Address
  self_not_mem : h.self ∉ signers
  call : Call W

def advance (s : State W) (now : ℕ) : Res (State W) := do
  require (s.now ≤ now ∧ now < 2 ^ 64) .overflow
  return { s with now := now }

def stakeTransfer (signers : List Address) (s : State W) (sender receiver : Address) (amount : ℤ) :
    Res (State W) := do
  requireAuth signers sender
  s.transfer sender receiver amount

def exec (h : Host W) (s : State W) (tx : Tx h) : Res (State W) :=
  let signers := tx.signers
  match tx.call with
  | .registerJuror operator stakeAmount => registerJuror h signers s operator stakeAmount
  | .deregisterJuror operator => deregisterJuror h signers s operator
  | .openCase invoice invoiceId claimant respondent amount =>
    (openCase signers s invoice invoiceId claimant respondent amount).map Prod.fst
  | .submitEvidence caseId submitter evidenceHash =>
    submitEvidence signers s caseId submitter evidenceHash
  | .selectJurors caseId shuffled => selectJurors s caseId shuffled
  | .commitVote caseId juror commitHash => commitVote signers s caseId juror commitHash
  | .revealVote caseId juror voteChoice salt => revealVote h signers s caseId juror voteChoice salt
  | .finalizeCase caseId => finalizeCase h s caseId
  | .adminResolveNoQuorum admin caseId resolution =>
    adminResolveNoQuorum h signers s admin caseId resolution
  | .set setting =>
    (applySetting signers s.settings setting).map fun settings => { s with settings := settings }
  | .advance now => advance s now
  | .elsewhere world => .ok { s with world := world }
  | .stakeTransfer sender receiver amount => stakeTransfer signers s sender receiver amount

/-! ## A sample ledger -/

def sampleSalt : Bytes := List.replicate 32 7

/-- The SHA-256 digest of a vote for the debtor under `sampleSalt`. -/
def sampleCommitment : Bytes :=
  [211, 144, 124, 2, 71, 231, 233, 139, 114, 51, 138, 0, 216, 114, 68, 36, 141, 247, 30, 179, 19, 88,
    157, 162, 144, 212, 90, 223, 186, 68, 230, 210]

/-- SHA-256 where the sample runs use it, and distinct values elsewhere. -/
def sampleSha256 (bytes : Bytes) : Bytes :=
  if bytes = preimage true sampleSalt then sampleCommitment else List.replicate 33 0 ++ bytes

theorem sampleSha256_injective : Function.Injective sampleSha256 := by
  have hlong : ∀ bytes, sampleCommitment ≠ List.replicate 33 0 ++ bytes := by
    intro bytes heq
    have hlength := congrArg List.length heq
    simp only [List.length_append, List.length_replicate] at hlength
    have hshort : sampleCommitment.length = 32 := rfl
    omega
  intro bytes bytes' heq
  unfold sampleSha256 at heq
  split_ifs at heq with hleft hright hright
  · rw [hleft, hright]
  · exact absurd heq (hlong bytes')
  · exact absurd heq.symm (hlong bytes)
  · exact List.append_cancel_left heq

/-- The contract at address 1, beside an invoice contract that accepts everything. -/
def sampleHost : Host Unit where
  self := 1
  sha256 := sampleSha256
  arbitrationResolveDispute := fun world _ _ _ _ => some world

theorem self_ne_two : sampleHost.self ∉ [2] := by decide
theorem self_ne_three : sampleHost.self ∉ [3] := by decide
theorem self_ne_eleven : sampleHost.self ∉ [11] := by decide
theorem self_ne_twelve : sampleHost.self ∉ [12] := by decide
theorem self_ne_thirteen : sampleHost.self ∉ [13] := by decide
theorem self_notMem_nil : sampleHost.self ∉ [] := by decide

/-- A new contract with the admin 2, the invoice contract 3, the stake token 10 and a least stake of
100. -/
def sampleStart : State Unit where
  now := 5
  world := ()
  balances := fun a => if a = 1 then 0 else 1000
  settings := { admin := 2, invoiceContract := 3, config := { minStake := 100, stakeToken := 10 } }

theorem initializeArbitration_sampleStart :
    initializeArbitration 5 () (fun a => if a = 1 then 0 else 1000) 2 3 10 100 = .ok sampleStart := rfl

/-- Committees of three, two of whom need to reveal, and short windows. -/
def sampleConfig : ArbitrationConfig where
  minStake := 100
  stakeToken := 10
  committeeSize := 3
  quorumFloor := 2
  evidenceWindowSecs := 10
  commitWindowSecs := 10
  revealWindowSecs := 10

/-!
# What a call of the arbitration contract does

`exec_effect` reads a successful call backwards: what was checked, and the state it leaves.  What
the settlement of a case does to the stakes is in `Arbitration.Settlement`.
-/

variable {h : Host W} {signers : List Address} {s s' : State W}

/-! ## Guards and transfers -/

theorem Tx.self_ne (tx : Tx h) {a : Address} (hauth : a ∈ tx.signers) : h.self ≠ a := by
  rintro rfl
  exact tx.self_not_mem hauth

@[simp]
theorem requireAuth_eq_ok {a : Address} {u : Unit} : requireAuth signers a = .ok u ↔ a ∈ signers := by
  simp [requireAuth]

@[simp]
theorem requireNotPaused_eq_ok {settings : Settings} {u : Unit} :
    settings.requireNotPaused = .ok u ↔ settings.paused = false := by
  simp [Settings.requireNotPaused]

/-- The ledger after stake tokens moved. -/
def State.moved (s : State W) (sender receiver : Address) (amount : ℤ) : State W :=
  { s with balances := Ledger.move s.balances sender receiver amount }

@[simp]
theorem transfer_eq_ok {sender receiver : Address} {amount : ℤ} :
    s.transfer sender receiver amount = .ok s' ↔
      0 ≤ amount ∧ amount ≤ s.balances sender ∧ s' = s.moved sender receiver amount := by
  simp only [State.transfer, bind_eq_ok, okOr_eq_ok, Ledger.transfer_eq_some, pure_eq_ok]
  constructor
  · rintro ⟨_, ⟨hnn, hle, rfl⟩, rfl⟩
    exact ⟨hnn, hle, rfl⟩
  · rintro ⟨hnn, hle, rfl⟩
    exact ⟨_, ⟨hnn, hle, rfl⟩, rfl⟩

@[simp]
theorem loadJuror_eq_ok {operator : Address} {info : JurorInfo} :
    s.loadJuror operator = .ok info ↔ s.jurors.get operator = some info := okOr_eq_ok _ _ _

@[simp]
theorem loadCase_eq_ok {caseId : ℕ} {case : DisputeCase} :
    s.loadCase caseId = .ok case ↔ s.cases.get caseId = some case := okOr_eq_ok _ _ _

def State.registered (h : Host W) (s : State W) (operator : Address) (stakeAmount : ℤ) : State W :=
  { s.moved operator h.self stakeAmount with
    jurors := s.jurors.set operator (s.newJuror operator stakeAmount)
    jurorIds := if operator ∈ s.jurorIds then s.jurorIds else s.jurorIds ++ [operator] }

theorem registerJuror_eq_ok {operator : Address} {stakeAmount : ℤ}
    (hx : registerJuror h signers s operator stakeAmount = .ok s') :
    operator ∈ signers ∧ s.settings.config.minStake ≤ stakeAmount ∧
      s.jurors.get operator = none ∧ s' = s.registered h operator stakeAmount := by
  simp only [registerJuror, bind_eq_ok, exists_unit, requireAuth_eq_ok, requireNotPaused_eq_ok,
    require_eq_ok, transfer_eq_ok] at hx
  obtain ⟨hauth, -, hmin, hnew, _, ⟨-, -, rfl⟩, hx⟩ := hx
  refine ⟨hauth, hmin, hnew, ?_⟩
  split_ifs at hx with hmem
  · have hids : operator ∈ s.jurorIds := hmem
    rw [pure_eq_ok] at hx
    rw [← hx, State.registered, if_pos hids]
    rfl
  · have hids : operator ∉ s.jurorIds := hmem
    simp only [bind_eq_ok, exists_unit, require_eq_ok, pure_eq_ok] at hx
    rw [← hx.2, State.registered, if_neg hids]
    rfl

/-- The state after a juror took its stake and left. -/
def State.departed (h : Host W) (s : State W) (operator : Address) (stakeAmount : ℤ) : State W :=
  { s.moved h.self operator stakeAmount with
    jurors := s.jurors.remove operator
    jurorIds := s.jurorIds.erase operator }

theorem deregisterJuror_eq_ok {operator : Address}
    (hx : deregisterJuror h signers s operator = .ok s') :
    ∃ info, operator ∈ signers ∧ s.jurors.get operator = some info ∧
      ((info.deregisterRequestedAt = none ∧ info.isActive = true ∧
        (∀ caseId ∈ s.jurorCases operator, s.inCommitReveal caseId = false) ∧
        s' = s.setJuror operator
          { info with isActive := false, deregisterRequestedAt := some s.now }) ∨
      ∃ requestedAt, info.deregisterRequestedAt = some requestedAt ∧
        s' = s.departed h operator info.stakeAmount) := by
  simp only [deregisterJuror, bind_eq_ok, exists_unit, requireAuth_eq_ok, requireNotPaused_eq_ok,
    loadJuror_eq_ok] at hx
  obtain ⟨hauth, -, info, hget, hx⟩ := hx
  refine ⟨info, hauth, hget, ?_⟩
  cases hrequested : info.deregisterRequestedAt with
  | none =>
    simp only [hrequested, bind_eq_ok, exists_unit, require_eq_ok, pure_eq_ok] at hx
    exact .inl ⟨rfl, hx.1, hx.2.1, hx.2.2.symm⟩
  | some requestedAt =>
    simp only [hrequested, bind_eq_ok, exists_unit, require_eq_ok, transfer_eq_ok] at hx
    obtain ⟨-, -, -, rfl⟩ := hx
    exact .inr ⟨requestedAt, rfl, rfl⟩

/-! ## Draws -/

section Seats

variable {caseId : ℕ}

theorem seat_eq (caseId : ℕ) (s : State W) (juror : Address) : ∃ jurorCases votes,
    seat caseId s juror = { s with jurorCases := jurorCases, votes := votes } := by
  unfold seat State.appendJurorCase
  split_ifs
  · exact ⟨_, _, rfl⟩
  · exact ⟨_, _, rfl⟩

theorem seat_votes (s : State W) (juror : Address) :
    (seat caseId s juror).votes = s.votes.set (caseId, juror) ⟨none, none⟩ := by
  unfold seat State.appendJurorCase
  split_ifs <;> rfl

theorem mem_seat_jurorCases (s : State W) (juror a : Address) (i : ℕ) :
    i ∈ (seat caseId s juror).jurorCases a ↔ i ∈ s.jurorCases a ∨ (i = caseId ∧ a = juror) := by
  have hvote : (s.setVote caseId juror ⟨none, none⟩).jurorCases = s.jurorCases := rfl
  unfold seat State.appendJurorCase
  rw [hvote]
  split_ifs with hmem
  · constructor
    · exact fun hi => .inl hi
    · rintro (hi | ⟨rfl, rfl⟩)
      · exact hi
      · exact hmem
  · by_cases ha : a = juror
    · subst ha
      simp
    · simp [ha]

theorem foldl_seat_eq : ∀ (committee : List Address) (s : State W), ∃ jurorCases votes,
    committee.foldl (seat caseId) s = { s with jurorCases := jurorCases, votes := votes } := by
  intro committee
  induction committee with
  | nil =>
    intro s
    exact ⟨s.jurorCases, s.votes, rfl⟩
  | cons juror committee ih =>
    intro s
    obtain ⟨jurorCases₁, votes₁, hseat⟩ := seat_eq caseId s juror
    obtain ⟨jurorCases, votes, heq⟩ := ih (seat caseId s juror)
    exact ⟨jurorCases, votes, by rw [List.foldl_cons, heq, hseat]⟩

theorem foldl_seat_votes : ∀ (committee : List Address) (s : State W) (key : ℕ × Address),
    (committee.foldl (seat caseId) s).votes.get key =
      if key.1 = caseId ∧ key.2 ∈ committee then some ⟨none, none⟩ else s.votes.get key := by
  intro committee
  induction committee with
  | nil =>
    intro s key
    simp
  | cons juror committee ih =>
    intro s key
    rw [List.foldl_cons, ih, seat_votes, Store.get_set]
    obtain ⟨i, a⟩ := key
    by_cases hi : i = caseId
    · by_cases ha : a = juror
      · simp [hi, ha]
      · simp [hi, ha]
    · simp [hi]

theorem mem_foldl_seat_jurorCases : ∀ (committee : List Address) (s : State W) (a : Address) (i : ℕ),
    i ∈ (committee.foldl (seat caseId) s).jurorCases a ↔
      i ∈ s.jurorCases a ∨ (i = caseId ∧ a ∈ committee) := by
  intro committee
  induction committee with
  | nil =>
    intro s a i
    simp
  | cons juror committee ih =>
    intro s a i
    rw [List.foldl_cons, ih, mem_seat_jurorCases, List.mem_cons]
    tauto

end Seats

def State.committee (s : State W) (shuffled : List Address) : List Address :=
  shuffled.take s.settings.config.committeeSize

def State.drawnCase (s : State W) (case : DisputeCase) (shuffled : List Address) : DisputeCase :=
  { case with
    jurors := s.committee shuffled
    status := .CommitReveal
    commitDeadline := saturatingAddU 64 s.now s.settings.config.commitWindowSecs
    revealDeadline := saturatingAddU 64 (saturatingAddU 64 s.now s.settings.config.commitWindowSecs)
      s.settings.config.revealWindowSecs
    retryCount := case.retryCount + 1 }

def State.drawn (s : State W) (caseId : ℕ) (case : DisputeCase) (shuffled : List Address) : State W :=
  (s.committee shuffled).foldl (seat caseId) (s.setCase caseId (s.drawnCase case shuffled))

/-- A committee can be drawn for a case. -/
structure Draws (s : State W) (caseId : ℕ) (shuffled : List Address) (case : DisputeCase) : Prop where
  get : s.cases.get caseId = some case
  ready : (case.status = .EvidenceWindow ∧ case.evidenceDeadline < s.now) ∨
    (case.status = .NoQuorumEscalated ∧
      case.retryCount < saturatingAddU 32 s.settings.config.maxRetries 1)
  enough : s.settings.config.committeeSize ≤ (s.jurorIds.filter s.eligible).length
  shuffle : shuffled.Perm (s.jurorIds.filter s.eligible)
  fits : case.retryCount + 1 < 2 ^ 32

theorem checkDraw_eq_ok {case : DisputeCase} {u : Unit} :
    s.checkDraw case = .ok u ↔
      (case.status = .EvidenceWindow ∧ case.evidenceDeadline < s.now) ∨
        (case.status = .NoQuorumEscalated ∧
          case.retryCount < saturatingAddU 32 s.settings.config.maxRetries 1) := by
  unfold State.checkDraw
  cases hstatus : case.status <;> simp

theorem selectJurors_eq_ok {caseId : ℕ} {shuffled : List Address} :
    selectJurors s caseId shuffled = .ok s' ↔
      ∃ case, s.settings.paused = false ∧ Draws s caseId shuffled case ∧
        s' = s.drawn caseId case shuffled := by
  simp only [selectJurors, bind_eq_ok, exists_unit, requireNotPaused_eq_ok, loadCase_eq_ok,
    checkDraw_eq_ok, require_eq_ok, okOr_eq_ok, fitU_eq_some, pure_eq_ok]
  constructor
  · rintro ⟨hpaused, case, hget, hready, henough, hshuffle, _, ⟨rfl, hfits⟩, rfl⟩
    exact ⟨case, hpaused, ⟨hget, hready, henough, hshuffle, hfits⟩, rfl⟩
  · rintro ⟨case, hpaused, hdraws, rfl⟩
    exact ⟨hpaused, case, hdraws.get, hdraws.ready, hdraws.enough, hdraws.shuffle, _,
      ⟨rfl, hdraws.fits⟩, rfl⟩

structure Commits (s : State W) (caseId : ℕ) (juror : Address) (case : DisputeCase)
    (vote : JurorVote) : Prop where
  get : s.cases.get caseId = some case
  status : case.status = .CommitReveal
  deadline : s.now ≤ case.commitDeadline
  member : juror ∈ case.jurors
  vote_get : s.votes.get (caseId, juror) = some vote
  fresh : vote.commitHash = none

theorem commitVote_eq_ok {caseId : ℕ} {juror : Address} {commitHash : Bytes}
    (hx : commitVote signers s caseId juror commitHash = .ok s') :
    ∃ case vote, Commits s caseId juror case vote ∧
      s' = s.setVote caseId juror { vote with commitHash := some commitHash } := by
  simp only [commitVote, bind_eq_ok, exists_unit, requireAuth_eq_ok, requireNotPaused_eq_ok,
    loadCase_eq_ok, require_eq_ok, okOr_eq_ok, pure_eq_ok] at hx
  obtain ⟨-, -, case, hget, hstatus, hdeadline, hmember, vote, hvote, hfresh, rfl⟩ := hx
  exact ⟨case, vote, ⟨hget, hstatus, hdeadline, hmember, hvote, hfresh⟩, rfl⟩

structure Reveals (h : Host W) (s : State W) (caseId : ℕ) (juror : Address) (voteChoice : Bool)
    (salt : Bytes) (case : DisputeCase) (vote : JurorVote) : Prop where
  get : s.cases.get caseId = some case
  status : case.status = .CommitReveal
  after : case.commitDeadline < s.now
  deadline : s.now ≤ case.revealDeadline
  member : juror ∈ case.jurors
  vote_get : s.votes.get (caseId, juror) = some vote
  fresh : vote.revealedVote = none
  commitHash : vote.commitHash = some (h.sha256 (preimage voteChoice salt))

theorem revealVote_eq_ok {caseId : ℕ} {juror : Address} {voteChoice : Bool} {salt : Bytes}
    (hx : revealVote h signers s caseId juror voteChoice salt = .ok s') :
    ∃ case vote, Reveals h s caseId juror voteChoice salt case vote ∧
      s' = s.setVote caseId juror { vote with revealedVote := some voteChoice } := by
  simp only [revealVote, bind_eq_ok, exists_unit, requireAuth_eq_ok, requireNotPaused_eq_ok,
    loadCase_eq_ok, require_eq_ok, okOr_eq_ok, pure_eq_ok] at hx
  obtain ⟨-, -, case, hget, hstatus, hafter, hdeadline, hmember, vote, hvote, _, hhash, hfresh, rfl,
    rfl⟩ := hx
  exact ⟨case, vote, ⟨hget, hstatus, hafter, hdeadline, hmember, hvote, hfresh, hhash⟩, rfl⟩

/-- What the setters check, as far as the stakes and the committees depend on it. -/
structure Settings.Valid (settings : Settings) : Prop where
  minStake : 0 < settings.config.minStake
  quorumFloor : 0 < settings.config.quorumFloor
  committeeSize : settings.config.quorumFloor ≤ settings.config.committeeSize
  slashBps : settings.config.slashBps ≤ 10000
  nonRevealSlashBps : settings.config.nonRevealSlashBps ≤ 10000

theorem setConfig_valid {settings settings' : Settings} {admin : Address}
    {newConfig : ArbitrationConfig}
    (hx : setConfig signers settings admin newConfig = .ok settings') : settings'.Valid := by
  simp only [setConfig, bind_eq_ok, exists_unit, require_eq_ok, pure_eq_ok] at hx
  obtain ⟨-, hcheck, rfl⟩ := hx
  constructor <;> dsimp only <;> omega

theorem applySetting_valid {settings settings' : Settings} {setting : Setting}
    (hvalid : settings.Valid) (hx : applySetting signers settings setting = .ok settings') :
    settings'.Valid := by
  cases setting with
  | setConfig => exact setConfig_valid hx
  | _ =>
    -- the others do not write the configuration
    simp only [applySetting, setInvoiceContract, setAccessControl, pause, unpause, bind_eq_ok,
      exists_unit, pure_eq_ok] at hx
    obtain ⟨-, rfl⟩ := hx
    exact ⟨hvalid.minStake, hvalid.quorumFloor, hvalid.committeeSize, hvalid.slashBps,
      hvalid.nonRevealSlashBps⟩

theorem initializeArbitration_eq_ok {now : ℕ} {world : W} {balances : Address → ℤ}
    {admin invoiceContract stakeToken : Address} {minStake : ℤ} :
    initializeArbitration now world balances admin invoiceContract stakeToken minStake = .ok s ↔
      0 < minStake ∧ s = {
        now := now
        world := world
        balances := balances
        settings := {
          admin := admin
          invoiceContract := invoiceContract
          config := { minStake := minStake, stakeToken := stakeToken } } } := by
  simp only [initializeArbitration, bind_eq_ok, exists_unit, require_eq_ok, pure_eq_ok]
  exact and_congr_right fun _ => eq_comm

theorem initializeArbitration_valid {now : ℕ} {world : W} {balances : Address → ℤ}
    {admin invoiceContract stakeToken : Address} {minStake : ℤ}
    (hinit : initializeArbitration now world balances admin invoiceContract stakeToken minStake =
      .ok s) : s.settings.Valid := by
  obtain ⟨hpos, rfl⟩ := initializeArbitration_eq_ok.1 hinit
  refine ⟨hpos, ?_, ?_, ?_, ?_⟩ <;> dsimp only <;> decide

end Astera.Arbitration
