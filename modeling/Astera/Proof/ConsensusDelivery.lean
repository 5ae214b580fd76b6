import Astera.Invoices.Steps
import Astera.Oracle.Registry

/-!
# Delivery of the consensus

A round keeps the hash that it was opened with, and the invoice contract accepts an outcome only
with the hash of the invoice: the vote that completes an approval succeeds exactly if the two are
the same and the contracts are set up for each other.
-/

namespace Astera.Oracle

open Fallible Machine Transition
open Invoices (Bytes bytes)

variable {V : Type}

/-- A registry beside one invoice contract.  A contract authorizes the calls that it makes. -/
def linkedHost (V : Type) (registry contract : Address) : Host (Invoices.State V) where
  self := registry
  getInvoiceVerificationState := fun world address id =>
    if address = contract then
      (world.invoices.get id).map fun inv => (decide (inv.status = .AwaitingVerification), inv.amount)
    else none
  consensusVerify := fun world address id caller approved reason oracleHash =>
    if address = contract then
      (Invoices.consensusVerify [registry] world id caller approved reason oracleHash).toOption
    else none

/-- The two contracts are at work and know each other. -/
structure Connected (registry contract : Address) (s : State (Invoices.State V)) : Prop where
  unpaused : s.settings.paused = false
  invoiceContract : s.settings.invoiceContract = some contract
  invoicesUnpaused : s.world.config.paused = false
  oracleRegistry : s.world.config.oracleRegistry = some registry

/-- The arithmetic of an approving vote stays in the range of its types. -/
structure Fits (info : OracleInfo) (round : VerificationRound) : Prop where
  weight : InI128 (round.weightFor + info.stakeAmount)
  verifications : info.totalVerifications + 1 < 2 ^ 32
  scaled : InI128 (round.totalStakeSnapshot * round.quorumBps)
  raised : InI128 (round.totalStakeSnapshot * round.quorumBps + 9999)

def VerificationRound.approvals (round : VerificationRound) : ℕ :=
  round.votes.entries.countP fun vote => vote.2

section Vote

variable {W : Type} {h : Host W} {signers : List Address} {s s' : State W} {oracle : Address}
  {invoiceId : ℕ} {info : OracleInfo} {round : VerificationRound}

theorem enter_true_eq_ok {round' : VerificationRound} {weight : ℤ} :
    round.enter oracle true weight = .ok round' ↔
      InI128 (round.weightFor + weight) ∧ round' = round.entered oracle true weight := by
  simp only [VerificationRound.enter, if_true, bind_eq_ok, okOr_eq_ok, checkedAdd_eq_some,
    pure_eq_ok, VerificationRound.entered, add_zero]
  constructor
  · rintro ⟨_, ⟨rfl, hfits⟩, rfl⟩
    exact ⟨hfits, rfl⟩
  · rintro ⟨hfits, rfl⟩
    exact ⟨_, ⟨rfl, hfits⟩, rfl⟩

theorem threshold_eq_ok_iff {threshold : ℤ} :
    round.threshold = .ok threshold ↔
      InI128 (round.totalStakeSnapshot * round.quorumBps) ∧
        InI128 (round.totalStakeSnapshot * round.quorumBps + 9999) ∧ threshold = round.quorum := by
  simp only [VerificationRound.threshold, bind_eq_ok, okOr_eq_ok, checkedMul_eq_some,
    checkedAdd_eq_some, pure_eq_ok, VerificationRound.quorum]
  constructor
  · rintro ⟨_, ⟨rfl, hscaled⟩, _, ⟨rfl, hraised⟩, rfl⟩
    exact ⟨hscaled, hraised, rfl⟩
  · rintro ⟨hscaled, hraised, rfl⟩
    exact ⟨_, ⟨rfl, hscaled⟩, _, ⟨rfl, hraised⟩, rfl⟩

theorem submitVote_approval_iff (hauth : oracle ∈ signers) (hvotes : Votes s oracle invoiceId info round)
    (hverdict : (round.entered oracle true info.stakeAmount).verdict
      (round.entered oracle true info.stakeAmount).quorum = some true) :
    submitVote h signers s oracle invoiceId true = .ok s' ↔
      s.settings.paused = false ∧ Fits info round ∧
      finalizeOnInvoice h ((s.credited oracle info invoiceId).closed invoiceId
        (round.entered oracle true info.stakeAmount) .ConsensusApproved) invoiceId true
        round.oracleHash = .ok s' := by
  simp only [submitVote, bind_eq_ok, exists_unit, requireAuth_eq_ok, requireNotPaused_eq_ok,
    loadOracle_eq_ok, require_eq_ok, loadRound_eq_ok, okOr_eq_ok, fitU_eq_some, enter_true_eq_ok,
    threshold_eq_ok_iff]
  constructor
  · rintro ⟨-, hpaused, _, hinfo, -, -, -, _, hround, -, -, -, _, ⟨hweight, rfl⟩, _,
      ⟨rfl, hverifications⟩, _, ⟨hscaled, hraised, rfl⟩, hx⟩
    obtain rfl := Option.some.inj (hvotes.info_get.symm.trans hinfo)
    obtain rfl := Option.some.inj (hvotes.round_get.symm.trans hround)
    simp only [hverdict] at hx
    exact ⟨hpaused, ⟨hweight, hverifications, hscaled, hraised⟩, hx⟩
  · rintro ⟨hpaused, hfits, hx⟩
    refine ⟨hauth, hpaused, info, hvotes.info_get, hvotes.active, hvotes.staying, hvotes.stake, round,
      hvotes.round_get, hvotes.status, hvotes.deadline, hvotes.fresh, _, ⟨hfits.weight, rfl⟩, _,
      ⟨rfl, hfits.verifications⟩, _, ⟨hfits.scaled, hfits.raised, rfl⟩, ?_⟩
    simp only [hverdict]
    exact hx

theorem verdict_of_approvals (hcount : round.requiredVotes ≤ round.approvals)
    (hweight : round.quorum ≤ round.weightFor) : round.verdict round.quorum = some true := by
  have hle : round.approvals ≤ round.votes.entries.length := List.countP_le_length
  exact if_pos ⟨hcount.trans hle, hweight⟩

end Vote

/-! ## The invoice -/

theorem accepts_approval_iff {registry contract address : Address} {world world' : Invoices.State V}
    {id : ℕ} {inv : Invoices.Invoice} {reason oracleHash : Bytes}
    (hget : world.invoices.get id = some inv) (hawaiting : inv.status = .AwaitingVerification) :
    (linkedHost V registry contract).consensusVerify world address id registry true reason oracleHash =
        some world' ↔
      address = contract ∧ world.config.paused = false ∧
      world.config.oracleRegistry = some registry ∧ oracleHash = inv.verificationHash ∧
      world' = world.withBooks (world.toBooks.setInvoice id
        { inv with status := .Verified, oracleVerified := true }) := by
  have hverify : Invoices.consensusVerify [registry] world id registry true reason oracleHash = .ok world' ↔
      world.config.paused = false ∧ world.config.oracleRegistry = some registry ∧
      oracleHash = inv.verificationHash ∧
      world' = world.withBooks (world.toBooks.setInvoice id
        { inv with status := .Verified, oracleVerified := true }) := by
    simp only [Invoices.consensusVerify, Invoices.applyVerificationOutcome, bind_eq_ok, exists_unit,
      Invoices.requireAuth_eq_ok, Invoices.State.requireNotPaused_eq_ok, okOr_eq_ok, require_eq_ok,
      Invoices.State.loadInvoice_eq_ok, pure_eq_ok, if_true]
    constructor
    · rintro ⟨-, hpaused, _, hregistry, rfl, _, hinv, -, hhash, rfl⟩
      obtain rfl := Option.some.inj (hget.symm.trans hinv)
      exact ⟨hpaused, hregistry, hhash.symm, rfl⟩
    · rintro ⟨hpaused, hregistry, hhash, rfl⟩
      exact ⟨by simp, hpaused, _, hregistry, rfl, inv, hget, hawaiting, hhash.symm, rfl⟩
  simp only [linkedHost]
  split_ifs with haddress
  · rw [toOption_eq_some, hverify]
    simp [haddress]
  · simp [haddress]

theorem oracleHash_step {W : Type} {h : Host W} {s s' : State W} {tx : Tx h} {invoiceId : ℕ}
    {oracleHash : Bytes} (hs : ∃ round, s.rounds.get invoiceId = some round ∧
      round.oracleHash = oracleHash)
    (hother : ∀ caller hash, tx.call ≠ .openVerificationRound caller invoiceId hash)
    (hx : exec h s tx = .ok s') :
    ∃ round, s'.rounds.get invoiceId = some round ∧ round.oracleHash = oracleHash := by
  obtain ⟨round, hget, hhash⟩ := hs
  -- a write to some round that keeps the hash
  have hset : ∀ {id : ℕ} {old new : VerificationRound}, s.rounds.get id = some old →
      new.oracleHash = old.oracleHash → s'.rounds = s.rounds.set id new →
      ∃ round, s'.rounds.get invoiceId = some round ∧ round.oracleHash = oracleHash := by
    intro id old new hold hnew hrounds
    rw [hrounds, Store.get_set]
    split_ifs with heq
    · subst heq
      obtain rfl := Option.some.inj (hget.symm.trans hold)
      exact ⟨new, rfl, hnew.trans hhash⟩
    · exact ⟨round, hget, hhash⟩
  cases exec_docket hx with
  | @opens caller openedId hash opened hcall hopens hrounds =>
    have hne : invoiceId ≠ openedId := by
      rintro rfl
      exact hother caller hash hcall
    exact ⟨round, by rw [hrounds, Store.get_set_of_ne _ _ hne, hget], hhash⟩
  | votes hcall hvotes hvoted hrounds =>
    refine hset hvotes.round_get ?_ hrounds
    rw [hvoted]
    rfl
  | expires hcall hclosed hopen hlate hrounds =>
    refine hset hclosed ?_ hrounds
    rfl
  | resolves hcall hclosed hexpired hlate hrounds =>
    refine hset hclosed ?_ hrounds
    rfl
  | keeps hopen hvote hrounds => exact ⟨round, by rw [hrounds, hget], hhash⟩

/-- Somebody opened a round with a hash, and in any state after that the invoice still waits and an
oracle casts the vote with which the approving votes reach both the quorum and the required number.
The vote succeeds and the invoice becomes verified if and only if the contracts are at work and know
each other, the numbers fit, and the hash is that of the invoice. -/
theorem consensus_delivered_iff {registry contract : Address} {s s₀ s₁ : State (Invoices.State V)}
    {tx : Tx (linkedHost V registry contract)} {caller : Address} {invoiceId : ℕ} {oracleHash : Bytes}
    (hcall : tx.call = .openVerificationRound caller invoiceId oracleHash)
    (hopen : exec (linkedHost V registry contract) s tx = .ok s₀)
    (hrun : Reaches (exec (linkedHost V registry contract))
      (fun _ tx => ∀ caller hash, tx.call ≠ .openVerificationRound caller invoiceId hash) s₀ s₁)
    {inv : Invoices.Invoice} (hinv : s₁.world.invoices.get invoiceId = some inv)
    (hawaiting : inv.status = .AwaitingVerification) {signers : List Address} {oracle : Address}
    {info : OracleInfo} {round : VerificationRound} (hauth : oracle ∈ signers)
    (hvotes : Votes s₁ oracle invoiceId info round)
    (hcount : round.requiredVotes ≤ (round.entered oracle true info.stakeAmount).approvals)
    (hweight : (round.entered oracle true info.stakeAmount).quorum ≤
      (round.entered oracle true info.stakeAmount).weightFor) :
    (∃ s₂ inv', submitVote (linkedHost V registry contract) signers s₁ oracle invoiceId true = .ok s₂ ∧
        s₂.world.invoices.get invoiceId = some inv' ∧ inv'.status = .Verified) ↔
      Connected registry contract s₁ ∧ Fits info round ∧ oracleHash = inv.verificationHash := by
  have hhash : round.oracleHash = oracleHash := by
    have hstart : ∃ round, s₀.rounds.get invoiceId = some round ∧ round.oracleHash = oracleHash := by
      simp only [exec, hcall] at hopen
      obtain ⟨round₀, hopens, rfl⟩ := openVerificationRound_eq_ok hopen
      obtain ⟨_, _, -, -, rfl⟩ := hopens.awaiting
      exact ⟨_, Store.get_set_self _ _ _, rfl⟩
    obtain ⟨round', hround', hhash⟩ := hrun.invariant (P := fun s => ∃ round,
      s.rounds.get invoiceId = some round ∧ round.oracleHash = oracleHash) hstart
      fun _ _ _ => oracleHash_step
    rwa [← Option.some.inj (hvotes.round_get.symm.trans hround')] at hhash
  have hverdict := verdict_of_approvals hcount hweight
  obtain ⟨hsettings, hworld⟩ := credited_settings_world s₁ oracle info invoiceId
  constructor
  · rintro ⟨s₂, inv', hvote, -, -⟩
    obtain ⟨hpaused, hfits, hfinal⟩ := (submitVote_approval_iff hauth hvotes hverdict).1 hvote
    obtain ⟨address, world, haddress, hverify, -⟩ := finalizeOnInvoice_eq_ok.1 hfinal
    have hknown : s₁.settings.invoiceContract = some address := hsettings ▸ haddress
    have hverify' : (linkedHost V registry contract).consensusVerify s₁.world address invoiceId registry true
        (bytes "consensus approved") round.oracleHash = some world := hworld ▸ hverify
    obtain ⟨rfl, hipaused, hregistry, heq, -⟩ := (accepts_approval_iff hinv hawaiting).1 hverify'
    exact ⟨⟨hpaused, hknown, hipaused, hregistry⟩, hfits, hhash ▸ heq⟩
  · rintro ⟨hconnected, hfits, heq⟩
    have hverify : (linkedHost V registry contract).consensusVerify s₁.world contract invoiceId registry true
        (bytes "consensus approved") round.oracleHash = some (s₁.world.withBooks
          (s₁.world.toBooks.setInvoice invoiceId
            { inv with status := .Verified, oracleVerified := true })) :=
      (accepts_approval_iff hinv hawaiting).2 ⟨rfl, hconnected.invoicesUnpaused,
        hconnected.oracleRegistry, hhash.trans heq, rfl⟩
    have hvote := (submitVote_approval_iff hauth hvotes hverdict).2 ⟨hconnected.unpaused, hfits,
      finalizeOnInvoice_eq_ok.2 ⟨contract, _, hsettings.symm ▸ hconnected.invoiceContract,
        hworld.symm ▸ hverify, rfl⟩⟩
    exact ⟨_, _, hvote, Store.get_set_self _ _ _, rfl⟩

/-- The invoice contract 2 knows the registry 30, and an invoice with the hash `0a1b` waits. -/
def waitingInvoice : Invoices.State Unit :=
  (([⟨[1], .set (.setOracle 1 5)⟩, ⟨[1], .set (.setOracleRegistry 1 30)⟩, Invoices.billing].foldlM
    (Invoices.exec Invoices.quietHost) Invoices.sampleState).toOption).getD Invoices.sampleState

/-- A new registry at address 30, with the admin 1. -/
def linkedStart : State (Invoices.State Unit) where
  now := 1000
  world := waitingInvoice
  balances := fun a => if a = 30 then 0 else 1000
  settings := { admin := 1, config := { minStake := 100, stakeToken := 10 } }

/-- Two oracles register, and two votes decide. -/
def twoOracles : List (Tx (linkedHost Unit 30 2)) :=
  [⟨[1], by decide, .set (.setInvoiceContract 1 2)⟩,
    ⟨[1], by decide, .set (.setRegistryConfig 1 100 2 6600 259200 604800)⟩,
    ⟨[3], by decide, .registerOracle 3 100⟩,
    ⟨[4], by decide, .registerOracle 4 100⟩]

/-- Somebody opens the round of the invoice with a hash. -/
def openWith (oracleHash : Bytes) : Tx (linkedHost Unit 30 2) :=
  ⟨[9], by decide, .openVerificationRound 9 1 oracleHash⟩

def firstVote : Tx (linkedHost Unit 30 2) := ⟨[3], by decide, .submitVote 3 1 true⟩

/-- Oracle 4 may vote on the waiting invoice, and an approval by it reaches both thresholds. -/
structure Completes (s : State (Invoices.State Unit)) (info : OracleInfo) (round : VerificationRound)
    (inv : Invoices.Invoice) : Prop where
  votes : Votes s 4 1 info round
  invoice : s.world.invoices.get 1 = some inv
  awaiting : inv.status = .AwaitingVerification
  count : round.requiredVotes ≤ (round.entered 4 true info.stakeAmount).approvals
  weight : (round.entered 4 true info.stakeAmount).quorum ≤
    (round.entered 4 true info.stakeAmount).weightFor

/-- A test for it, with one more condition. -/
def completes (s : State (Invoices.State Unit)) (p : OracleInfo → VerificationRound → Bool) : Bool :=
  (s.oracles.get 4).any fun info => (s.rounds.get 1).any fun round =>
    (s.world.invoices.get 1).any fun inv =>
      decide ((info.isActive = true ∧ info.deregisterRequestedAt = none ∧
        s.settings.config.minStake ≤ info.stakeAmount ∧ round.status = .Open ∧
        s.now ≤ round.deadline ∧ round.votes.get 4 = none) ∧ inv.status = .AwaitingVerification ∧
        inv.verificationHash = bytes "0a1b" ∧
        round.requiredVotes ≤ (round.entered 4 true info.stakeAmount).approvals ∧
        (round.entered 4 true info.stakeAmount).quorum ≤
          (round.entered 4 true info.stakeAmount).weightFor) && p info round

theorem exists_of_completes {s : State (Invoices.State Unit)}
    {p : OracleInfo → VerificationRound → Bool} (hp : completes s p = true) :
    ∃ info round inv, Completes s info round inv ∧ inv.verificationHash = bytes "0a1b" ∧
      p info round = true := by
  obtain ⟨info, hinfo, hp⟩ := (Option.any_eq_true _ _).1 hp
  obtain ⟨round, hround, hp⟩ := (Option.any_eq_true _ _).1 hp
  obtain ⟨inv, hinv, hp⟩ := (Option.any_eq_true _ _).1 hp
  obtain ⟨hp, hrest⟩ := Bool.and_eq_true_iff.1 hp
  obtain ⟨⟨hactive, hstaying, hstake, hopen, hdeadline, hfresh⟩, hawaiting, hhash, hcount, hweight⟩ :=
    of_decide_eq_true hp
  exact ⟨info, round, inv,
    ⟨⟨hinfo, hactive, hstaying, hstake, hround, hopen, hdeadline, hfresh⟩, hinv, hawaiting, hcount,
      hweight⟩, hhash, hrest⟩

theorem consensus_delivered_iff_verified :
    ∃ (s s₀ s₁ s₂ : State (Invoices.State Unit)) (inv' : Invoices.Invoice),
      twoOracles.foldlM (exec (linkedHost Unit 30 2)) linkedStart = .ok s ∧
      exec (linkedHost Unit 30 2) s (openWith (bytes "0a1b")) = .ok s₀ ∧
      exec (linkedHost Unit 30 2) s₀ firstVote = .ok s₁ ∧
      submitVote (linkedHost Unit 30 2) [4] s₁ 4 1 true = .ok s₂ ∧
      s₂.world.invoices.get 1 = some inv' ∧ inv'.status = .Verified := by
  obtain ⟨s, hs, hp⟩ := exists_of_check
    (x := twoOracles.foldlM (exec (linkedHost Unit 30 2)) linkedStart)
    (p := fun s => check (exec (linkedHost Unit 30 2) s (openWith (bytes "0a1b"))) fun s₀ =>
      check (exec (linkedHost Unit 30 2) s₀ firstVote) fun s₁ => completes s₁ fun info round =>
        decide ((s₁.settings.paused = false ∧ s₁.settings.invoiceContract = some 2 ∧
          s₁.world.config.paused = false ∧ s₁.world.config.oracleRegistry = some 30) ∧
          InI128 (round.weightFor + info.stakeAmount) ∧ info.totalVerifications + 1 < 2 ^ 32 ∧
          InI128 (round.totalStakeSnapshot * round.quorumBps) ∧
          InI128 (round.totalStakeSnapshot * round.quorumBps + 9999))) (by decide)
  obtain ⟨s₀, hs₀, hp⟩ := exists_of_check hp
  obtain ⟨s₁, hs₁, hp⟩ := exists_of_check hp
  obtain ⟨info, round, inv, hcompletes, hhash, hp⟩ := exists_of_completes hp
  obtain ⟨⟨hpaused, hcontract, hipaused, hregistry⟩, hweight, hcount, hscaled, hraised⟩ :=
    of_decide_eq_true hp
  have hrun : Reaches (exec (linkedHost Unit 30 2))
      (fun _ tx => ∀ caller hash, tx.call ≠ .openVerificationRound caller 1 hash) s₀ s₁ :=
    .next .refl (fun _ _ => by simp [firstVote]) hs₁
  have hdelivered := consensus_delivered_iff rfl hs₀ hrun hcompletes.invoice hcompletes.awaiting
    (List.mem_singleton_self 4) hcompletes.votes hcompletes.count hcompletes.weight
  obtain ⟨s₂, inv', hvote, hverified⟩ := hdelivered.2 ⟨⟨hpaused, hcontract, hipaused, hregistry⟩,
    ⟨hweight, hcount, hscaled, hraised⟩, hhash.symm⟩
  exact ⟨s, s₀, s₁, s₂, inv', hs, hs₀, hs₁, hvote, hverified⟩

/-- Somebody opens the round with another hash: all stake approves the waiting invoice, and the vote
that completes the quorum fails. -/
theorem wrong_hash_blocks_consensus :
    ∃ (s s₀ s₁ : State (Invoices.State Unit)) (info : OracleInfo) (round : VerificationRound)
      (inv : Invoices.Invoice),
      twoOracles.foldlM (exec (linkedHost Unit 30 2)) linkedStart = .ok s ∧
      exec (linkedHost Unit 30 2) s (openWith (bytes "ffff")) = .ok s₀ ∧
      exec (linkedHost Unit 30 2) s₀ firstVote = .ok s₁ ∧ Completes s₁ info round inv ∧
      submitVote (linkedHost Unit 30 2) [4] s₁ 4 1 true = .error (.error .InvoiceCallFailed) := by
  obtain ⟨s, hs, hp⟩ := exists_of_check
    (x := twoOracles.foldlM (exec (linkedHost Unit 30 2)) linkedStart)
    (p := fun s => check (exec (linkedHost Unit 30 2) s (openWith (bytes "ffff"))) fun s₀ =>
      check (exec (linkedHost Unit 30 2) s₀ firstVote) fun s₁ => completes s₁ fun _ _ =>
        fails (submitVote (linkedHost Unit 30 2) [4] s₁ 4 1 true) (.error .InvoiceCallFailed))
    (by decide)
  obtain ⟨s₀, hs₀, hp⟩ := exists_of_check hp
  obtain ⟨s₁, hs₁, hp⟩ := exists_of_check hp
  obtain ⟨info, round, inv, hcompletes, -, hfails⟩ := exists_of_completes hp
  exact ⟨s, s₀, s₁, info, round, inv, hs, hs₀, hs₁, hcompletes, of_fails hfails⟩

end Astera.Oracle
