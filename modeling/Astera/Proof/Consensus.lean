import Mathlib.Data.Rat.Floor
import Mathlib.Tactic.Positivity
import Astera.Oracle.Registry

/-!
# Consensus of the oracles

Votes on one round among fixed stakes.  If the quorum is more than half of the snapshot, the side
that reaches it outweighs the other, and the outcome does not depend on the order of the votes.
-/

namespace Astera.Oracle

open Fallible Machine Transition

variable {W : Type} {h : Host W} {s s' s₀ : State W}
variable {ballots : Address → Bool} {round : VerificationRound} {invoiceId : ℕ}

/-- A call leaves the stakes as they are, does not touch the round of an invoice except by votes and
expiry, and every vote in it is the one on the voter's ballot. -/
def steady (invoiceId : ℕ) (ballots : Address → Bool) : Call W → Bool
  | .registerOracle _ _ | .slashOracle _ _ _ _ _ | .slashOracleViaAc _ _ _ _ _ => false
  | .openVerificationRound _ id _ | .adminResolveRound _ id _ | .adminResolveRoundViaAc _ id _ =>
    id ≠ invoiceId
  | .submitVote oracle id approved => id = invoiceId → approved = ballots oracle
  | _ => true

/-- The stake of the members of an electorate that voted for one side. -/
def State.sideStake (s : State W) (round : VerificationRound) (approved : Bool) : ℤ :=
  ∑ a ∈ s.electorate with round.votes.get a = some approved, s.stakeOf a

/-- A round as the votes of an electorate left it. -/
structure Counted (s₀ : State W) (ballots : Address → Bool) (round₀ round : VerificationRound) :
    Prop where
  requiredVotes : round.requiredVotes = round₀.requiredVotes
  snapshot : round.totalStakeSnapshot = round₀.totalStakeSnapshot
  quorumBps : round.quorumBps = round₀.quorumBps
  ballots : ∀ a approved, round.votes.get a = some approved → approved = ballots a
  weightFor : round.weightFor = s₀.sideStake round true
  weightAgainst : round.weightAgainst = s₀.sideStake round false
  approved : round.status = .ConsensusApproved →
    round.requiredVotes ≤ round.votes.entries.length ∧ round.quorum ≤ round.weightFor
  rejected : round.status = .ConsensusRejected →
    round.requiredVotes ≤ round.votes.entries.length ∧ round.quorum ≤ round.weightAgainst ∧
      round.weightFor < round.quorum

/-- The members left are members of the electorate, with the same stakes. -/
def Remains (s₀ s : State W) : Prop :=
  ∀ a info, s.oracles.get a = some info → ∃ info₀, s₀.oracles.get a = some info₀ ∧
    info.stakeAmount = info₀.stakeAmount ∧ (info.isActive = true → info₀.isActive = true)

theorem sideStake_enter (s : State W) (approved : Bool) {oracle : Address} {weight : ℤ}
    (hmem : oracle ∈ s.electorate) (hfresh : round.votes.get oracle = none)
    (hstake : s.stakeOf oracle = weight) (side : Bool) :
    s.sideStake (round.entered oracle approved weight) side =
      s.sideStake round side + if approved = side then weight else 0 := by
  have hget : ∀ a, (round.entered oracle approved weight).votes.get a =
      if a = oracle then some approved else round.votes.get a := fun a => Store.get_set _ _ a _
  unfold State.sideStake
  by_cases hside : approved = side
  · have hinsert : (s.electorate.filter fun a =>
        (round.entered oracle approved weight).votes.get a = some side) =
        insert oracle (s.electorate.filter fun a => round.votes.get a = some side) := by
      ext a
      simp only [Finset.mem_filter, Finset.mem_insert, hget]
      by_cases ha : a = oracle
      · simp [ha, hmem, hside]
      · simp [ha]
    rw [hinsert, Finset.sum_insert (by simp [hfresh]), hstake, if_pos hside]
    ring
  · have hsame : (s.electorate.filter fun a =>
        (round.entered oracle approved weight).votes.get a = some side) =
        s.electorate.filter fun a => round.votes.get a = some side := by
      ext a
      simp only [Finset.mem_filter, hget]
      by_cases ha : a = oracle
      · simp [ha, hfresh, hside]
      · simp [ha]
    rw [hsame, if_neg hside, add_zero]

theorem quorum_eq_ceil (hnn : 0 ≤ round.totalStakeSnapshot) :
    round.quorum = ⌈(round.quorumBps * round.totalStakeSnapshot : ℚ) / 10000⌉ := by
  have hscaled : 0 ≤ round.totalStakeSnapshot * round.quorumBps := by positivity
  have hquorum : round.quorum = (round.totalStakeSnapshot * round.quorumBps + 9999) / 10000 :=
    Int.tdiv_eq_ediv_of_nonneg (by omega)
  symm
  rw [Int.ceil_eq_iff, lt_div_iff₀ (by norm_num), div_le_iff₀ (by norm_num)]
  have hlow : (round.quorum - 1) * 10000 < round.quorumBps * round.totalStakeSnapshot := by
    rw [hquorum, mul_comm (round.quorumBps : ℤ)]
    omega
  have hhigh : round.quorumBps * round.totalStakeSnapshot ≤ round.quorum * 10000 := by
    rw [hquorum, mul_comm (round.quorumBps : ℤ)]
    omega
  exact ⟨by exact_mod_cast hlow, by exact_mod_cast hhigh⟩

theorem remains_step {tx : Tx h} (hs : Remains s₀ s)
    (hsteady : steady invoiceId ballots tx.call = true) (hx : exec h s tx = .ok s') :
    Remains s₀ s' := by
  -- one record is rewritten with the same stake
  have hrewrite : ∀ {operator : Address} {info info' : OracleInfo},
      s.oracles.get operator = some info → info'.stakeAmount = info.stakeAmount →
      (info'.isActive = true → info.isActive = true) →
      ∀ a info'', (s.oracles.set operator info').get a = some info'' →
        ∃ info₀, s₀.oracles.get a = some info₀ ∧ info''.stakeAmount = info₀.stakeAmount ∧
          (info''.isActive = true → info₀.isActive = true) := by
    intro operator info info' hget hstake hactive
    refine Store.forall_get_set hs ?_
    obtain ⟨info₀, hget₀, hstake₀, hactive₀⟩ := hs operator info hget
    exact ⟨info₀, hget₀, hstake.trans hstake₀, fun ha => hactive₀ (hactive ha)⟩
  have hcredited : ∀ {oracle : Address} {info : OracleInfo}, s.oracles.get oracle = some info →
      ∀ votedId, Remains s₀ (s.credited oracle info votedId) := by
    intro oracle info hget votedId a info' ha
    rw [(credited_fields s oracle info votedId).1] at ha
    refine hrewrite hget ?_ ?_ a info' ha
    · rfl
    · exact fun hactive => hactive
  cases exec_effect hx with
  | registered hcall => simp [steady, hcall] at hsteady
  | slashed hcall => obtain ⟨caller, hcall | hcall⟩ := hcall <;> simp [steady, hcall] at hsteady
  | requested hcall hget => exact hrewrite hget rfl (by simp)
  | departed hcall hauth hget => exact fun a info ha => hs a info (Store.get_of_get_remove ha)
  | @counted oracle votedId _ info _ hcall hvotes => exact hcredited hvotes.info_get votedId
  | @decided oracle votedId _ _ info _ _ hcall hvotes => exact hcredited hvotes.info_get votedId
  | withdrew | opened | expired | resolved | configured | advanced | elsewhere | transferred =>
    exact hs

theorem counted_step {tx : Tx h} {round₀ round : VerificationRound} (hs₀ : Sound s₀)
    (hremains : Remains s₀ s) (hget : s.rounds.get invoiceId = some round)
    (hcounted : Counted s₀ ballots round₀ round) (hsteady : steady invoiceId ballots tx.call = true)
    (hx : exec h s tx = .ok s') :
    ∃ round', s'.rounds.get invoiceId = some round' ∧ Counted s₀ ballots round₀ round' := by
  cases exec_docket hx with
  | @opens caller openedId oracleHash opened hcall hopens hrounds =>
    have hne : openedId ≠ invoiceId := by simpa [steady, hcall] using hsteady
    exact ⟨round, by rw [hrounds, Store.get_set_of_ne _ _ hne.symm, hget], hcounted⟩
  | @votes oracle votedId approved info before voted status hcall hvotes hvoted hrounds hstatus =>
    by_cases heq : invoiceId = votedId
    · subst heq
      have hbefore : before = round := by
        have hround := hvotes.round_get
        rw [hget] at hround
        exact (Option.some.inj hround).symm
      subst hbefore
      refine ⟨_, by rw [hrounds, Store.get_set_self], ?_⟩
      obtain ⟨info₀, hinfo₀, hstake₀, hactive₀⟩ := hremains oracle info hvotes.info_get
      have hmem : oracle ∈ s₀.electorate := by
        rw [hs₀.mem_electorate, active_of_get hinfo₀]
        exact hactive₀ hvotes.active
      have hstake : s₀.stakeOf oracle = info.stakeAmount := by
        rw [hstake₀]
        exact Store.part_of_get hinfo₀
      have hside := sideStake_enter s₀ approved hmem hvotes.fresh hstake
      have hballot : approved = ballots oracle := by simpa [steady, hcall] using hsteady
      rw [hvoted] at hstatus ⊢
      refine ⟨hcounted.requiredVotes, hcounted.snapshot, hcounted.quorumBps, ?_, ?_, ?_, ?_, ?_⟩
      · exact Store.forall_get_set hcounted.ballots hballot
      · show before.weightFor + (if approved then info.stakeAmount else 0) = _
        rw [hcounted.weightFor]
        exact (hside true).symm
      · show before.weightAgainst + (if approved then 0 else info.stakeAmount) = _
        rw [hcounted.weightAgainst]
        refine Eq.trans ?_ (hside false).symm
        cases approved <;> rfl
      · intro hdecided
        rcases hstatus with ⟨hopen, -⟩ | ⟨outcome, hverdict, houtcome, -⟩
        · rw [hopen] at hdecided
          cases hdecided
        · rw [houtcome] at hdecided
          obtain ⟨hcount, hfor, -⟩ := verdict_spec hverdict
          cases outcome with
          | true => exact ⟨hcount, hfor rfl⟩
          | false => cases hdecided
      · intro hdecided
        rcases hstatus with ⟨hopen, -⟩ | ⟨outcome, hverdict, houtcome, -⟩
        · rw [hopen] at hdecided
          cases hdecided
        · rw [houtcome] at hdecided
          obtain ⟨hcount, -, hagainst⟩ := verdict_spec hverdict
          cases outcome with
          | true => cases hdecided
          | false => exact ⟨hcount, hagainst rfl⟩
    · exact ⟨round, by rw [hrounds, Store.get_set_of_ne _ _ heq, hget], hcounted⟩
  | @expires expiredId closed hcall hclosed hopen hlate hrounds =>
    by_cases heq : invoiceId = expiredId
    · subst heq
      obtain rfl : round = closed := Option.some.inj (hget.symm.trans hclosed)
      refine ⟨{ round with status := .Expired }, by rw [hrounds, Store.get_set_self],
        hcounted.requiredVotes, hcounted.snapshot, hcounted.quorumBps, hcounted.ballots,
        hcounted.weightFor, hcounted.weightAgainst, ?_, ?_⟩
      · intro hdecided
        cases hdecided
      · intro hdecided
        cases hdecided
    · exact ⟨round, by rw [hrounds, Store.get_set_of_ne _ _ heq, hget], hcounted⟩
  | @resolves resolvedId approved closed hcall hclosed hexpired hlate hrounds =>
    have hne : resolvedId ≠ invoiceId := by
      obtain ⟨caller, hcall | hcall⟩ := hcall <;> simpa [steady, hcall] using hsteady
    exact ⟨round, by rw [hrounds, Store.get_set_of_ne _ _ hne.symm, hget], hcounted⟩
  | keeps hopen hvote hrounds => exact ⟨round, by rw [hrounds, hget], hcounted⟩

/-! ## Runs -/

theorem Counted.weights_le {round₀ round₁ round₂ : VerificationRound} (hs₀ : Sound s₀)
    (hsnapshot : round₀.totalStakeSnapshot = ∑ a ∈ s₀.electorate, s₀.stakeOf a)
    (h₁ : Counted s₀ ballots round₀ round₁) (h₂ : Counted s₀ ballots round₀ round₂) :
    round₁.weightFor + round₂.weightAgainst ≤ round₀.totalStakeSnapshot := by
  have hfor : round₁.weightFor ≤ ∑ a ∈ s₀.electorate with ballots a = true, s₀.stakeOf a := by
    rw [h₁.weightFor]
    refine Finset.sum_le_sum_of_subset_of_nonneg (fun a ha => ?_) fun a _ _ => hs₀.stakeOf_nonneg a
    rw [Finset.mem_filter] at ha ⊢
    exact ⟨ha.1, (h₁.ballots a true ha.2).symm⟩
  have hagainst : round₂.weightAgainst ≤
      ∑ a ∈ s₀.electorate with ¬ ballots a = true, s₀.stakeOf a := by
    rw [h₂.weightAgainst]
    refine Finset.sum_le_sum_of_subset_of_nonneg (fun a ha => ?_) fun a _ _ => hs₀.stakeOf_nonneg a
    rw [Finset.mem_filter] at ha ⊢
    exact ⟨ha.1, by rw [← h₂.ballots a false ha.2]; decide⟩
  rw [hsnapshot, ← Finset.sum_filter_add_sum_filter_not s₀.electorate fun a => ballots a = true]
  exact add_le_add hfor hagainst

theorem counted_run {round₀ : VerificationRound} (hs₀ : Sound s₀)
    (hget : s₀.rounds.get invoiceId = some round₀) (hcounted : Counted s₀ ballots round₀ round₀)
    (hrun : Reaches (exec h) (fun _ tx => steady invoiceId ballots tx.call = true) s₀ s) :
    ∃ round, s.rounds.get invoiceId = some round ∧ Counted s₀ ballots round₀ round := by
  have hboth : Remains s₀ s ∧
      ∃ round, s.rounds.get invoiceId = some round ∧ Counted s₀ ballots round₀ round := by
    refine hrun.invariant (P := fun s => Remains s₀ s ∧
      ∃ round, s.rounds.get invoiceId = some round ∧ Counted s₀ ballots round₀ round)
      ⟨fun a info ha => ⟨info, ha, rfl, fun hactive => hactive⟩, round₀, hget, hcounted⟩ ?_
    rintro s tx s' ⟨hremains, round, hround, hcounted⟩ hsteady hx
    exact ⟨remains_step hremains hsteady hx,
      counted_step hs₀ hremains hround hcounted hsteady hx⟩
  exact hboth.2

theorem counted_opened {oracleHash : Invoices.Bytes}
    (hopens : OpensRound h s invoiceId oracleHash round) (s₀ : State W) (ballots : Address → Bool) :
    Counted s₀ ballots round round := by
  obtain ⟨contract, amount, -, -, rfl⟩ := hopens.awaiting
  refine ⟨rfl, rfl, rfl, fun a approved ha => ?_, ?_, ?_, fun hdecided => ?_, fun hdecided => ?_⟩
  · simp [State.newRound] at ha
  · simp [State.newRound, State.sideStake]
  · simp [State.newRound, State.sideStake]
  · cases hdecided
  · cases hdecided

/-- After a round was opened in any state of any run, votes arrive in any order among fixed stakes.
A decided round has enough voters and the quorum of the snapshot, rounded up; a rejection has more
weight against than for.  If the quorum is more than half of the snapshot, an approval has more weight
for than against, and no other order of the same votes decides the round the other way. -/
theorem consensus_is_majority {now : ℕ} {world : W} {balances : Address → ℤ}
    {admin stakeToken : Address} {minStake : ℤ} {start : State W}
    (hinit : initializeRegistry now world balances admin stakeToken minStake = .ok start)
    (hreach : Reaches (exec h) (fun _ _ => True) start s) {tx : Tx h} {caller : Address}
    {invoiceId : ℕ} {oracleHash : Invoices.Bytes}
    (hcall : tx.call = .openVerificationRound caller invoiceId oracleHash)
    (hopen : exec h s tx = .ok s₀) {ballots : Address → Bool} {s₁ : State W}
    (hrun₁ : Reaches (exec h) (fun _ tx => steady invoiceId ballots tx.call = true) s₀ s₁)
    {round₁ : VerificationRound} (hget₁ : s₁.rounds.get invoiceId = some round₁) {outcome₁ : Bool}
    (hdecided₁ : round₁.status = decided outcome₁) :
    round₁.requiredVotes ≤ round₁.votes.entries.length ∧
      ⌈(round₁.quorumBps * round₁.totalStakeSnapshot : ℚ) / 10000⌉ ≤
        (if outcome₁ then round₁.weightFor else round₁.weightAgainst) ∧
      (outcome₁ = false → round₁.weightFor < round₁.weightAgainst) ∧
      (round₁.totalStakeSnapshot <
          2 * ⌈(round₁.quorumBps * round₁.totalStakeSnapshot : ℚ) / 10000⌉ →
        (outcome₁ = true → round₁.weightAgainst < round₁.weightFor) ∧
        ∀ s₂ round₂ outcome₂,
          Reaches (exec h) (fun _ tx => steady invoiceId ballots tx.call = true) s₀ s₂ →
          s₂.rounds.get invoiceId = some round₂ → round₂.status = decided outcome₂ →
          outcome₂ = outcome₁) := by
  have hs : Sound s := hreach.invariant (sound_initial hinit) fun _ _ _ hs _ => exec_sound hs
  have hs₀ : Sound s₀ := exec_sound hs hopen
  simp only [exec, hcall] at hopen
  obtain ⟨round₀, hopens, hopened⟩ := openVerificationRound_eq_ok hopen
  -- the opening leaves the oracles alone, so the snapshot is the stake of the electorate after it
  have hsnapshot : round₀.totalStakeSnapshot = ∑ a ∈ s₀.electorate, s₀.stakeOf a := by
    obtain ⟨contract, amount, -, -, rfl⟩ := hopens.awaiting
    rw [hopened]
    exact hs.sum_electorate.symm
  have hget₀ : s₀.rounds.get invoiceId = some round₀ := by
    rw [hopened]
    exact Store.get_set_self _ _ _
  have hcounted : ∀ {s : State W},
      Reaches (exec h) (fun _ tx => steady invoiceId ballots tx.call = true) s₀ s →
      ∃ round, s.rounds.get invoiceId = some round ∧ Counted s₀ ballots round₀ round :=
    counted_run hs₀ hget₀ (counted_opened hopens _ ballots)
  obtain ⟨_, hround₁, h₁⟩ := hcounted hrun₁
  obtain rfl := Option.some.inj (hget₁.symm.trans hround₁)
  have hnn : 0 ≤ round₁.totalStakeSnapshot := by
    rw [h₁.snapshot, hsnapshot]
    exact Finset.sum_nonneg fun a _ => hs₀.stakeOf_nonneg a
  rw [← quorum_eq_ceil hnn]
  have hquorum : ∀ {round : VerificationRound}, Counted s₀ ballots round₀ round →
      round.quorum = round₁.quorum := by
    intro round hround
    unfold VerificationRound.quorum
    rw [hround.snapshot, hround.quorumBps, h₁.snapshot, h₁.quorumBps]
  have hweights := h₁.weights_le hs₀ hsnapshot h₁
  rw [← h₁.snapshot] at hweights
  cases outcome₁ with
  | true =>
    obtain ⟨hcount, hfor⟩ := h₁.approved hdecided₁
    refine ⟨hcount, hfor, fun h => absurd h (by decide), fun hmajority => ⟨fun _ => by omega, ?_⟩⟩
    intro s₂ round₂ outcome₂ hrun₂ hget₂ hdecided₂
    obtain ⟨_, hround₂, h₂⟩ := hcounted hrun₂
    obtain rfl := Option.some.inj (hget₂.symm.trans hround₂)
    cases outcome₂ with
    | true => rfl
    | false =>
      have hagainst := (h₂.rejected hdecided₂).2.1
      have hboth := h₁.weights_le hs₀ hsnapshot h₂
      rw [hquorum h₂] at hagainst
      rw [← h₁.snapshot] at hboth
      omega
  | false =>
    obtain ⟨hcount, hagainst, hfor⟩ := h₁.rejected hdecided₁
    refine ⟨hcount, hagainst, fun _ => by omega, fun hmajority =>
      ⟨fun h => absurd h (by decide), ?_⟩⟩
    intro s₂ round₂ outcome₂ hrun₂ hget₂ hdecided₂
    obtain ⟨_, hround₂, h₂⟩ := hcounted hrun₂
    obtain rfl := Option.some.inj (hget₂.symm.trans hround₂)
    cases outcome₂ with
    | false => rfl
    | true =>
      have hfor₂ := (h₂.approved hdecided₂).2
      have hboth := h₂.weights_le hs₀ hsnapshot h₁
      rw [hquorum h₂] at hfor₂
      rw [← h₁.snapshot] at hboth
      omega

/-- Three oracles with a stake of 100 each, and a number of votes and a quorum that decide. -/
def threeOracles (requiredVotes quorumBps : ℕ) : List (Tx sampleHost) :=
  [⟨[2], by decide, .set (.setInvoiceContract 2 20)⟩,
    ⟨[2], by decide, .set (.setRegistryConfig 2 100 requiredVotes quorumBps 259200 604800)⟩,
    ⟨[3], by decide, .registerOracle 3 100⟩,
    ⟨[4], by decide, .registerOracle 4 100⟩,
    ⟨[5], by decide, .registerOracle 5 100⟩]

def openSeven : Tx sampleHost := ⟨[9], by decide, .openVerificationRound 9 7 []⟩

/-- Oracle 3 is for the invoice, the others are against it. -/
def minority (a : Address) : Bool := a = 3

def ballotOf (a : Address) (ha : sampleHost.self ∉ [a]) : Tx sampleHost :=
  ⟨[a], ha, .submitVote a 7 (minority a)⟩

theorem reaches_of_ballots {s₀ s : State Unit} {txs : List (Tx sampleHost)}
    (hs : txs.foldlM (exec sampleHost) s₀ = .ok s)
    (hsteady : ∀ tx ∈ txs, steady 7 minority tx.call = true) :
    Reaches (exec sampleHost) (fun _ tx => steady 7 minority tx.call = true) s₀ s :=
  reaches_of_along .refl (along_of_forall_mem fun tx htx _ => hsteady tx htx) hs

theorem consensus_is_majority_rejected :
    ∃ (s s₀ s₁ : State Unit) (round₁ : VerificationRound),
      Reaches (exec sampleHost) (fun _ _ => True) sampleStart s ∧
      exec sampleHost s openSeven = .ok s₀ ∧
      Reaches (exec sampleHost) (fun _ tx => steady 7 minority tx.call = true) s₀ s₁ ∧
      s₁.rounds.get 7 = some round₁ ∧ round₁.status = decided false ∧
      round₁.weightFor < round₁.weightAgainst := by
  obtain ⟨s, hs, hp⟩ := exists_of_check (x := (threeOracles 2 6600).foldlM (exec sampleHost) sampleStart)
    (p := fun s => check (exec sampleHost s openSeven) fun s₀ =>
      check ([ballotOf 3 (by decide), ballotOf 4 (by decide), ballotOf 5 (by decide)].foldlM
        (exec sampleHost) s₀) fun s₁ => (s₁.rounds.get 7).any fun round : VerificationRound =>
          decide (round.status = decided false)) (by decide)
  obtain ⟨s₀, hs₀, hp⟩ := exists_of_check hp
  obtain ⟨s₁, hs₁, hp⟩ := exists_of_check hp
  obtain ⟨round₁, hget, hstatus⟩ := (Option.any_eq_true _ _).1 hp
  have hdecided : round₁.status = decided false := of_decide_eq_true hstatus
  have hreach := reaches_of_along .refl (along_of_forall (fun _ _ => trivial) _ _) hs
  have hrun := reaches_of_ballots hs₁ (by decide)
  have hrejected :=
    consensus_is_majority initializeRegistry_sampleStart hreach rfl hs₀ hrun hget hdecided
  exact ⟨s, s₀, s₁, round₁, hreach, hs₀, hrun, hget, hdecided, hrejected.2.2.1 rfl⟩

/-- With a quorum of a tenth, which the setter accepts, the approval by 3 after the rejection by 4
ends a round at equal weights, and the same ballots reject it when 5 comes before 3. -/
theorem low_quorum_follows_order :
    ∃ (s s₀ s₁ s₂ : State Unit) (round₁ round₂ : VerificationRound),
      Reaches (exec sampleHost) (fun _ _ => True) sampleStart s ∧
      exec sampleHost s openSeven = .ok s₀ ∧
      Reaches (exec sampleHost) (fun _ tx => steady 7 minority tx.call = true) s₀ s₁ ∧
      Reaches (exec sampleHost) (fun _ tx => steady 7 minority tx.call = true) s₀ s₂ ∧
      s₁.rounds.get 7 = some round₁ ∧ round₁.status = decided true ∧
      round₁.weightFor = 100 ∧ round₁.weightAgainst = 100 ∧
      s₂.rounds.get 7 = some round₂ ∧ round₂.status = decided false := by
  obtain ⟨s, hs, hp⟩ := exists_of_check (x := (threeOracles 2 1000).foldlM (exec sampleHost) sampleStart)
    (p := fun s => check (exec sampleHost s openSeven) fun s₀ =>
      (check ([ballotOf 4 (by decide), ballotOf 3 (by decide)].foldlM (exec sampleHost) s₀) fun s₁ =>
        (s₁.rounds.get 7).any fun round : VerificationRound => decide (round.status = decided true ∧
          round.weightFor = 100 ∧ round.weightAgainst = 100)) &&
      check ([ballotOf 4 (by decide), ballotOf 5 (by decide)].foldlM (exec sampleHost) s₀) fun s₂ =>
        (s₂.rounds.get 7).any fun round : VerificationRound => decide (round.status = decided false))
    (by decide)
  obtain ⟨s₀, hs₀, hp⟩ := exists_of_check hp
  obtain ⟨hp₁, hp₂⟩ := Bool.and_eq_true_iff.1 hp
  obtain ⟨s₁, hs₁, hp₁⟩ := exists_of_check hp₁
  obtain ⟨s₂, hs₂, hp₂⟩ := exists_of_check hp₂
  obtain ⟨round₁, hget₁, hround₁⟩ := (Option.any_eq_true _ _).1 hp₁
  obtain ⟨round₂, hget₂, hround₂⟩ := (Option.any_eq_true _ _).1 hp₂
  obtain ⟨hdecided₁, hfor, hagainst⟩ := of_decide_eq_true hround₁
  have hreach := reaches_of_along .refl (along_of_forall (fun _ _ => trivial) _ _) hs
  exact ⟨s, s₀, s₁, s₂, round₁, round₂, hreach, hs₀, reaches_of_ballots hs₁ (by decide),
    reaches_of_ballots hs₂ (by decide), hget₁, hdecided₁, hfor, hagainst, hget₂,
    of_decide_eq_true hround₂⟩

end Astera.Oracle
