import Astera.Lib.Ledger
import Astera.Arbitration.Types

/-!
# The arbitration contract

The storage of the contract and its writing entrypoints.  The order in which the host shuffles the
jurors of a draw is an argument of `selectJurors`; the hash function and the callback of the invoice
contract are reached through `Host`.  `balances` are those of the one stake token.

Time-to-live extensions, events, the views and the case number of an invoice are left out.
-/

namespace Astera.Arbitration

open Fallible Machine
open Invoices (Bytes DisputeResolution)

variable {W : Type}

structure Host (W : Type) where
  self : Address
  sha256 : Bytes → Bytes
  /-- `arbitration_resolve_dispute` of the invoice contract; `none` is an error or a trap. -/
  arbitrationResolveDispute : W → Address → Address → ℕ → DisputeResolution → Option W

structure Settings where
  admin : Address
  invoiceContract : Address
  config : ArbitrationConfig
  paused : Bool := false
  accessControl : Option Address := none
  deriving DecidableEq

structure State (W : Type) where
  now : ℕ
  world : W
  balances : Address → ℤ
  settings : Settings
  jurors : Store Address JurorInfo := ∅
  jurorIds : List Address := []
  jurorCases : Address → List ℕ := fun _ => []
  caseCount : ℕ := 0
  cases : Store ℕ DisputeCase := ∅
  evidence : ℕ → List EvidenceEntry := fun _ => []
  votes : Store (ℕ × Address) JurorVote := ∅

def initializeArbitration (now : ℕ) (world : W) (balances : Address → ℤ)
    (admin invoiceContract stakeToken : Address) (minStake : ℤ) : Res (State W) := do
  require (0 < minStake) (.error .InvalidAmount)
  return {
    now := now
    world := world
    balances := balances
    settings := {
      admin := admin
      invoiceContract := invoiceContract
      config := { minStake := minStake, stakeToken := stakeToken } } }

def requireAuth (signers : List Address) (a : Address) : Res Unit := require (a ∈ signers) .auth

def Settings.requireNotPaused (settings : Settings) : Res Unit :=
  require (settings.paused = false) (.error .ContractPaused)

/-- `require_admin`: the admin or the access control contract. -/
def Settings.requireAdmin (settings : Settings) (caller : Address) : Res Unit :=
  require (caller = settings.admin ∨ settings.accessControl = some caller) (.error .Unauthorized)

def Settings.asAdmin (signers : List Address) (settings : Settings) (caller : Address) :
    Res Unit := do
  requireAuth signers caller
  settings.requireAdmin caller

section Setters

variable (signers : List Address) (s : Settings)

def setInvoiceContract (admin invoiceContract : Address) : Res Settings := do
  s.asAdmin signers admin
  return { s with invoiceContract := invoiceContract }

def setAccessControl (admin accessControl : Address) : Res Settings := do
  s.asAdmin signers admin
  return { s with accessControl := some accessControl }

/-- `set_config`: the stake token is kept. -/
def setConfig (admin : Address) (newConfig : ArbitrationConfig) : Res Settings := do
  s.asAdmin signers admin
  require (¬ (newConfig.minStake ≤ 0 ∨ newConfig.committeeSize = 0 ∨ newConfig.quorumFloor = 0 ∨
    newConfig.committeeSize < newConfig.quorumFloor ∨ newConfig.evidenceWindowSecs = 0 ∨
    newConfig.commitWindowSecs = 0 ∨ newConfig.revealWindowSecs = 0 ∨ 10000 < newConfig.slashBps ∨
    10000 < newConfig.nonRevealSlashBps ∨ newConfig.lopsidedConfidenceBps = 0 ∨
    10000 < newConfig.lopsidedConfidenceBps)) (.error .InvalidConfig)
  return { s with config := { newConfig with stakeToken := s.config.stakeToken } }

def pause (admin : Address) : Res Settings := do
  s.asAdmin signers admin
  return { s with paused := true }

def unpause (admin : Address) : Res Settings := do
  s.asAdmin signers admin
  return { s with paused := false }

end Setters

/-! ## Storage -/

namespace State

variable (s : State W)

def transfer (sender receiver : Address) (amount : ℤ) : Res (State W) := do
  let balances ← okOr (Ledger.transfer s.balances sender receiver amount) .token
  return { s with balances := balances }

def loadJuror (operator : Address) : Res JurorInfo :=
  okOr (s.jurors.get operator) (.error .NotRegistered)

def setJuror (operator : Address) (info : JurorInfo) : State W :=
  { s with jurors := s.jurors.set operator info }

def loadCase (caseId : ℕ) : Res DisputeCase := okOr (s.cases.get caseId) (.error .CaseNotFound)

def setCase (caseId : ℕ) (case : DisputeCase) : State W :=
  { s with cases := s.cases.set caseId case }

def setVote (caseId : ℕ) (juror : Address) (vote : JurorVote) : State W :=
  { s with votes := s.votes.set (caseId, juror) vote }

def appendJurorCase (juror : Address) (caseId : ℕ) : State W :=
  if caseId ∈ s.jurorCases juror then s
  else
    { s with
      jurorCases := Function.update s.jurorCases juror (s.jurorCases juror ++ [caseId]) }

/-- Whether a juror has a committee seat that is not settled. -/
def inCommitReveal (caseId : ℕ) : Bool :=
  (s.cases.get caseId).any fun case => case.status = .CommitReveal

def newJuror (operator : Address) (stakeAmount : ℤ) : JurorInfo where
  address := operator
  stakeAmount := stakeAmount
  stakeToken := s.settings.config.stakeToken
  isActive := true
  casesServed := 0
  timesSlashed := 0
  nonRevealStrikes := 0
  registeredAt := s.now
  deregisterRequestedAt := none

end State

section Jurors

variable (h : Host W) (signers : List Address) (s : State W)

def registerJuror (operator : Address) (stakeAmount : ℤ) : Res (State W) := do
  requireAuth signers operator
  s.settings.requireNotPaused
  require (s.settings.config.minStake ≤ stakeAmount) (.error .InsufficientStake)
  require (s.jurors.get operator = none) (.error .AlreadyRegistered)
  let s ← s.transfer operator h.self stakeAmount
  let s := s.setJuror operator (s.newJuror operator stakeAmount)
  if operator ∈ s.jurorIds then return s
  else do
    require (s.jurorIds.length < maxJurorIds) (.error .InvalidConfig)
    return { s with jurorIds := s.jurorIds ++ [operator] }

def deregisterJuror (operator : Address) : Res (State W) := do
  requireAuth signers operator
  s.settings.requireNotPaused
  let info ← s.loadJuror operator
  match info.deregisterRequestedAt with
  | none => do
      require (info.isActive = true) (.error .NotRegistered)
      require (∀ caseId ∈ s.jurorCases operator, s.inCommitReveal caseId = false)
        (.error .DeregisterHasPendingCases)
      return s.setJuror operator { info with isActive := false, deregisterRequestedAt := some s.now }
  | some requestedAt => do
      require (saturatingAddU 64 requestedAt s.settings.config.deregisterCooldownSecs ≤ s.now)
        (.error .DeregisterCooldownActive)
      let s : State W := { s with
        jurors := s.jurors.remove operator
        jurorIds := s.jurorIds.erase operator }
      s.transfer h.self operator info.stakeAmount

end Jurors

/-! ## Cases -/

section Cases

variable (h : Host W) (signers : List Address) (s : State W)

def State.newCase (invoiceId : ℕ) (claimant respondent : Address) (amount : ℤ) : DisputeCase where
  id := s.caseCount
  invoiceId := invoiceId
  claimant := claimant
  respondent := respondent
  amount := amount
  openedAt := s.now
  evidenceDeadline := saturatingAddU 64 s.now s.settings.config.evidenceWindowSecs
  commitDeadline := 0
  revealDeadline := 0
  jurors := []
  status := .EvidenceWindow
  resolution := .Pending
  retryCount := 0

def openCase (invoice : Address) (invoiceId : ℕ) (claimant respondent : Address) (amount : ℤ) :
    Res (State W × ℕ) := do
  requireAuth signers invoice
  s.settings.requireNotPaused
  require (invoice = s.settings.invoiceContract) (.error .Unauthorized)
  require (0 < amount) (.error .InvalidAmount)
  let id := s.caseCount
  let caseCount ← okOr (fitU 64 (id + 1)) .overflow
  let s := { s.setCase id (s.newCase invoiceId claimant respondent amount) with
    caseCount := caseCount
    evidence := Function.update s.evidence id [] }
  return (s, id)

def DisputeCase.partyOf (case : DisputeCase) (submitter : Address) : Option PartyRole :=
  if submitter = case.claimant then some .Claimant
  else if submitter = case.respondent then some .Respondent
  else none

def submitEvidence (caseId : ℕ) (submitter : Address) (evidenceHash : Bytes) : Res (State W) := do
  requireAuth signers submitter
  s.settings.requireNotPaused
  let case ← s.loadCase caseId
  require (case.status = .EvidenceWindow) (.error .InvalidCaseStatus)
  require (s.now ≤ case.evidenceDeadline) (.error .WindowClosed)
  let party ← okOr (case.partyOf submitter) (.error .InvalidParty)
  return { s with
    evidence := Function.update s.evidence caseId
      (s.evidence caseId ++ [⟨submitter, party, evidenceHash, s.now⟩]) }

/-- Whether a juror can be drawn. -/
def State.eligible (operator : Address) : Bool :=
  (s.jurors.get operator).any fun info => info.isActive && info.deregisterRequestedAt.isNone

def State.checkDraw (case : DisputeCase) : Res Unit :=
  match case.status with
  | .EvidenceWindow => require (case.evidenceDeadline < s.now) (.error .WindowNotClosed)
  | .NoQuorumEscalated =>
    require (case.retryCount < saturatingAddU 32 s.settings.config.maxRetries 1)
      (.error .RetriesExhausted)
  | _ => .error (.error .InvalidCaseStatus)

/-- A seat of a committee: an empty vote and a case of the juror. -/
def seat (caseId : ℕ) (s : State W) (juror : Address) : State W :=
  (s.setVote caseId juror ⟨none, none⟩).appendJurorCase juror caseId

/-- `select_jurors`, when the host shuffles the eligible jurors into the order `shuffled`. -/
def selectJurors (caseId : ℕ) (shuffled : List Address) : Res (State W) := do
  s.settings.requireNotPaused
  let case ← s.loadCase caseId
  s.checkDraw case
  let active := s.jurorIds.filter s.eligible
  require (s.settings.config.committeeSize ≤ active.length) (.error .NotEnoughActiveJurors)
  require (shuffled.Perm active) .prng
  let committee := shuffled.take s.settings.config.committeeSize
  let commitDeadline := saturatingAddU 64 s.now s.settings.config.commitWindowSecs
  let retryCount ← okOr (fitU 32 (case.retryCount + 1)) .overflow
  let s := s.setCase caseId { case with
    jurors := committee
    status := .CommitReveal
    commitDeadline := commitDeadline
    revealDeadline := saturatingAddU 64 commitDeadline s.settings.config.revealWindowSecs
    retryCount := retryCount }
  return committee.foldl (seat caseId) s

def commitVote (caseId : ℕ) (juror : Address) (commitHash : Bytes) : Res (State W) := do
  requireAuth signers juror
  s.settings.requireNotPaused
  let case ← s.loadCase caseId
  require (case.status = .CommitReveal) (.error .InvalidCaseStatus)
  require (s.now ≤ case.commitDeadline) (.error .WindowClosed)
  require (juror ∈ case.jurors) (.error .NotSelectedJuror)
  let vote ← okOr (s.votes.get (caseId, juror)) (.error .NotSelectedJuror)
  require (vote.commitHash = none) (.error .AlreadyCommitted)
  return s.setVote caseId juror { vote with commitHash := some commitHash }

/-- What a juror hashes to commit. -/
def preimage (voteChoice : Bool) (salt : Bytes) : Bytes := (if voteChoice then 1 else 0) :: salt

def revealVote (caseId : ℕ) (juror : Address) (voteChoice : Bool) (salt : Bytes) :
    Res (State W) := do
  requireAuth signers juror
  s.settings.requireNotPaused
  let case ← s.loadCase caseId
  require (case.status = .CommitReveal) (.error .InvalidCaseStatus)
  require (case.commitDeadline < s.now) (.error .WindowNotClosed)
  require (s.now ≤ case.revealDeadline) (.error .WindowClosed)
  require (juror ∈ case.jurors) (.error .NotSelectedJuror)
  let vote ← okOr (s.votes.get (caseId, juror)) (.error .NotSelectedJuror)
  let commitHash ← okOr vote.commitHash (.error .NotCommitted)
  require (vote.revealedVote = none) (.error .AlreadyRevealed)
  require (h.sha256 (preimage voteChoice salt) = commitHash) (.error .RevealMismatch)
  return s.setVote caseId juror { vote with revealedVote := some voteChoice }

end Cases

/-! ## Settlement -/

section Settlement

variable (h : Host W) (signers : List Address) (s : State W)

def State.revealedVote (caseId : ℕ) (juror : Address) : Option Bool :=
  (s.votes.get (caseId, juror)).bind JurorVote.revealedVote

/-- The votes that `finalize_case` counts. -/
def State.revealed (caseId : ℕ) (jurors : List Address) : List (Address × Bool) :=
  jurors.filterMap fun juror => (s.revealedVote caseId juror).map fun choice => (juror, choice)

def State.nonRevealers (caseId : ℕ) (jurors : List Address) : List Address :=
  jurors.filter fun juror => (s.revealedVote caseId juror).isNone

def bumpCasesServed (juror : Address) : Res (State W) :=
  match s.jurors.get juror with
  | none => return s
  | some info => do
      let casesServed ← okOr (fitU 32 (info.casesServed + 1)) .overflow
      return s.setJuror juror { info with casesServed := casesServed }

def slashJuror (juror : Address) (bps : ℕ) : Res (State W × ℤ) :=
  match s.jurors.get juror with
  | none => return (s, 0)
  | some info => do
      let scaled ← okOr (checkedMul info.stakeAmount bps) .overflow
      let amount := scaled.tdiv 10000
      let stakeAmount ← okOr (checkedSub info.stakeAmount amount) .overflow
      let timesSlashed ← okOr (fitU 32 (info.timesSlashed + 1)) .overflow
      return (s.setJuror juror { info with stakeAmount := stakeAmount, timesSlashed := timesSlashed },
        amount)

/-- One more strike of a juror who did not reveal. -/
def strike (juror : Address) : Res (State W) :=
  match s.jurors.get juror with
  | none => return s
  | some info => do
      let nonRevealStrikes ← okOr (fitU 32 (info.nonRevealStrikes + 1)) .overflow
      return s.setJuror juror { info with nonRevealStrikes := nonRevealStrikes }

/-- One turn of the loop of `apply_non_reveal_penalties`. -/
def penalize (acc : State W × ℤ) (juror : Address) : Res (State W × ℤ) := do
  let s ← strike acc.1 juror
  let (s, amount) ← slashJuror s juror s.settings.config.nonRevealSlashBps
  let total ← okOr (checkedAdd acc.2 amount) .overflow
  return (s, total)

def applyNonRevealPenalties (nonRevealers : List Address) : Res (State W × ℤ) :=
  nonRevealers.foldlM penalize (s, 0)

/-- One turn of the loop over the revealed votes: the majority serves, and the minority of a lopsided
vote is slashed. -/
def settleVote (outcomeFavorDebtor lopsided : Bool) (acc : State W × ℤ) (vote : Address × Bool) :
    Res (State W × ℤ) :=
  if vote.2 = outcomeFavorDebtor then do
    let s ← bumpCasesServed acc.1 vote.1
    return (s, acc.2)
  else if lopsided then do
    let (s, amount) ← slashJuror acc.1 vote.1 acc.1.settings.config.slashBps
    let pool ← okOr (checkedAdd acc.2 amount) .overflow
    return (s, pool)
  else return acc

/-- One turn of the loop that adds up the stake of the majority. -/
def addStake (total : ℤ) (juror : Address) : Res ℤ :=
  match s.jurors.get juror with
  | none => return total
  | some info => okOr (checkedAdd total info.stakeAmount) .overflow

/-- One turn of the loop that pays the majority. -/
def payShare (pool totalStake : ℤ) (s : State W) (juror : Address) : Res (State W) :=
  match s.jurors.get juror with
  | none => return s
  | some info => do
      let scaled ← okOr (checkedMul pool info.stakeAmount) .overflow
      let stakeAmount ← okOr (checkedAdd info.stakeAmount (scaled.tdiv totalStake)) .overflow
      return s.setJuror juror { info with stakeAmount := stakeAmount }

def rewardMajority (majority : List Address) (pool : ℤ) : Res (State W) :=
  if pool ≤ 0 ∨ majority = [] then return s
  else do
    let totalStake ← majority.foldlM (addStake s) 0
    if totalStake ≤ 0 then return s
    else majority.foldlM (payShare pool totalStake) s

/-- `call_invoice_resolve`: a failure is ignored. -/
def callInvoiceResolve (invoiceId : ℕ) (resolution : DisputeResolution) : State W :=
  match h.arbitrationResolveDispute s.world s.settings.invoiceContract h.self invoiceId resolution with
  | some world => { s with world := world }
  | none => s

def favor (side : Bool) (revealed : List (Address × Bool)) : ℕ :=
  revealed.countP fun vote => vote.2 = side

/-- The end of `finalize_case` for a case with enough revealed votes. -/
def settleCase (caseId : ℕ) (case : DisputeCase) (revealed : List (Address × Bool)) (pool : ℤ) :
    Res (State W) := do
  let outcomeFavorDebtor := decide (favor false revealed < favor true revealed)
  let resolution : DisputeResolution :=
    if outcomeFavorDebtor then .InFavorOfDebtor else .InFavorOfSME
  let scaled ← okOr (fitU 32 (favor outcomeFavorDebtor revealed * 10000)) .overflow
  let lopsided := decide
    (s.settings.config.lopsidedConfidenceBps ≤ scaled / revealed.length)
  let (s, pool) ← revealed.foldlM (settleVote outcomeFavorDebtor lopsided) (s, pool)
  let majority := (revealed.filter fun vote => vote.2 = outcomeFavorDebtor).map Prod.fst
  let s ← rewardMajority s majority pool
  let s := s.setCase caseId { case with status := .Resolved, resolution := resolution }
  return callInvoiceResolve h s case.invoiceId resolution

def finalizeCase (caseId : ℕ) : Res (State W) := do
  s.settings.requireNotPaused
  let case ← s.loadCase caseId
  require (case.status = .CommitReveal) (.error .InvalidCaseStatus)
  require (case.revealDeadline < s.now) (.error .WindowNotClosed)
  let revealed := s.revealed caseId case.jurors
  let (s, pool) ← applyNonRevealPenalties s (s.nonRevealers caseId case.jurors)
  if revealed.length < s.settings.config.quorumFloor then
    return s.setCase caseId { case with status := .NoQuorumEscalated }
  else settleCase h s caseId case revealed pool

def adminResolveNoQuorum (admin : Address) (caseId : ℕ) (resolution : DisputeResolution) :
    Res (State W) := do
  s.settings.requireNotPaused
  s.settings.asAdmin signers admin
  require (resolution ≠ .Pending) (.error .InvalidConfig)
  let case ← s.loadCase caseId
  require (case.status = .NoQuorumEscalated) (.error .CaseNotEscalated)
  require (saturatingAddU 32 s.settings.config.maxRetries 1 ≤ case.retryCount)
    (.error .RetriesNotExhausted)
  let s := s.setCase caseId { case with status := .Resolved, resolution := resolution }
  return callInvoiceResolve h s case.invoiceId resolution

end Settlement

end Astera.Arbitration
