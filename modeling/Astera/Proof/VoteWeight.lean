import Astera.Oracle.Registry

/-!
# Weight of the votes

As long as nobody votes that registered after the opening, the weight of a round is a part of its
stake snapshot: what was counted and what the others could still add are at most the snapshot.
-/

namespace Astera.Oracle

open Fallible Machine Transition

variable {W : Type} {h : Host W} {s s' : State W}

structure Ballot where
  oracle : Address
  approved : Bool
  weight : ℤ
  deriving DecidableEq

structure Poll where
  /-- The active oracles when the round was opened. -/
  roll : Finset Address := ∅
  /-- Who registered since. -/
  late : List Address := []
  cast : List Ballot := []

def notePolls (h : Host W) (s : State W) (tx : Tx h) (_ : State W) (polls : ℕ → Poll) : ℕ → Poll :=
  match tx.call with
  | .registerOracle operator _ => fun id => { polls id with late := operator :: (polls id).late }
  | .openVerificationRound _ id _ =>
    Function.update polls id { roll := s.electorate }
  | .submitVote oracle id approved =>
    Function.update polls id
      { polls id with cast := (polls id).cast ++ [⟨oracle, approved, s.stakeOf oracle⟩] }
  | _ => polls

/-- Who votes, and in the round of which invoice. -/
def Call.vote : Call W → Option (Address × ℕ)
  | .submitVote oracle invoiceId _ => some (oracle, invoiceId)
  | _ => none

/-- Nobody votes in a round who registered after it was opened. -/
def Punctual (h : Host W) (x : State W × (ℕ → Poll)) (tx : Tx h) : Prop :=
  ∀ vote ∈ tx.call.vote, vote.1 ∉ (x.2 vote.2).late

instance (h : Host W) (x : State W × (ℕ → Poll)) (tx : Tx h) : Decidable (Punctual h x tx) :=
  inferInstanceAs (Decidable (∀ vote ∈ _, ¬ _))

def weightOf (approved : Bool) (cast : List Ballot) : ℤ :=
  ((cast.filter fun ballot => ballot.approved = approved).map Ballot.weight).sum

theorem weightOf_append (approved : Bool) (cast : List Ballot) (ballot : Ballot) :
    weightOf approved (cast ++ [ballot]) =
      weightOf approved cast + if ballot.approved = approved then ballot.weight else 0 := by
  unfold weightOf
  rw [List.filter_append, List.map_append, List.sum_append]
  by_cases hside : ballot.approved = approved <;> simp [hside]

/-- The counts of a round agree with its history, and leave room for the oracles that may still
vote. -/
structure Tallied (s : State W) (poll : Poll) (round : VerificationRound) : Prop where
  distinct : (poll.cast.map Ballot.oracle).Nodup
  voters : ∀ a, a ∈ poll.cast.map Ballot.oracle ↔ ∃ approved, round.votes.get a = some approved
  count : round.votes.entries.length = poll.cast.length
  weightFor : round.weightFor = weightOf true poll.cast
  weightAgainst : round.weightAgainst = weightOf false poll.cast
  onRoll : ∀ ballot ∈ poll.cast, ballot.oracle ∈ poll.roll
  eligible : ∀ a, s.active a = true → a ∉ poll.late → a ∈ poll.roll
  room : ∃ pending : Finset Address,
    (∀ a, s.active a = true → a ∉ poll.late → round.votes.get a = none → a ∈ pending) ∧
    round.weightFor + round.weightAgainst + ∑ a ∈ pending, s.stakeOf a ≤ round.totalStakeSnapshot ∧
    poll.cast.length + pending.card ≤ round.totalRegisteredOracles

theorem Tallied.mono {poll : Poll} {round : VerificationRound} (ht : Tallied s poll round)
    (hnn : ∀ a, 0 ≤ s.stakeOf a) {joined : List Address}
    (hactive : ∀ a, a ∉ joined → s'.active a = true → s.active a = true)
    (hstake : ∀ a, a ∉ joined → s'.stakeOf a ≤ s.stakeOf a) :
    Tallied s' { poll with late := joined ++ poll.late } round := by
  obtain ⟨pending, hpending, hweight, hcount⟩ := ht.room
  have hsplit : ∀ a, a ∉ joined ++ poll.late → a ∉ joined ∧ a ∉ poll.late := by
    intro a ha
    rwa [List.mem_append, not_or] at ha
  refine ⟨ht.distinct, ht.voters, ht.count, ht.weightFor, ht.weightAgainst, ht.onRoll,
    fun a ha hlate => ?_, pending.filter (· ∉ joined), fun a ha hlate hfresh => ?_, ?_, ?_⟩
  · obtain ⟨hjoined, hlate⟩ := hsplit a hlate
    exact ht.eligible a (hactive a hjoined ha) hlate
  · obtain ⟨hjoined, hlate⟩ := hsplit a hlate
    exact Finset.mem_filter.2 ⟨hpending a (hactive a hjoined ha) hlate hfresh, hjoined⟩
  · have hsum : ∑ a ∈ pending.filter (· ∉ joined), s'.stakeOf a ≤ ∑ a ∈ pending, s.stakeOf a :=
      calc ∑ a ∈ pending.filter (· ∉ joined), s'.stakeOf a
          ≤ ∑ a ∈ pending.filter (· ∉ joined), s.stakeOf a :=
            Finset.sum_le_sum fun a ha => hstake a (Finset.mem_filter.1 ha).2
        _ ≤ ∑ a ∈ pending, s.stakeOf a :=
            Finset.sum_le_sum_of_subset_of_nonneg (Finset.filter_subset _ _) fun a _ _ => hnn a
    omega
  · have hcard := Finset.card_filter_le pending (· ∉ joined)
    dsimp only
    omega

theorem Tallied.vote {poll : Poll} {round : VerificationRound} {oracle : Address} {invoiceId : ℕ}
    {info : OracleInfo} (ht : Tallied s poll round) (hvotes : Votes s oracle invoiceId info round)
    (hlate : oracle ∉ poll.late) (approved : Bool) (status : RoundStatus) :
    Tallied s { poll with cast := poll.cast ++ [⟨oracle, approved, s.stakeOf oracle⟩] }
      { round.entered oracle approved info.stakeAmount with status := status } := by
  have hstake : s.stakeOf oracle = info.stakeAmount := Store.part_of_get hvotes.info_get
  have hactive : s.active oracle = true := (active_of_get hvotes.info_get).trans hvotes.active
  have hnot : oracle ∉ poll.cast.map Ballot.oracle := by
    rw [ht.voters oracle, hvotes.fresh]
    simp
  have hget : ∀ a, (round.votes.set oracle approved).get a =
      if a = oracle then some approved else round.votes.get a := fun a => Store.get_set _ _ a _
  obtain ⟨pending, hpending, hweight, hcount⟩ := ht.room
  have hmem : oracle ∈ pending := hpending oracle hactive hlate hvotes.fresh
  refine ⟨?_, fun a => ?_, ?_, ?_, ?_, fun ballot hballot => ?_, ht.eligible, pending.erase oracle,
    fun a ha halate hfresh => ?_, ?_, ?_⟩
  · rw [List.map_append, List.nodup_append]
    refine ⟨ht.distinct, List.nodup_singleton _, ?_⟩
    rintro a ha b hb rfl
    have heq : a = oracle := List.mem_singleton.1 hb
    exact hnot (heq ▸ ha)
  · rw [List.map_append, List.mem_append, ht.voters a]
    show _ ↔ ∃ v, (round.votes.set oracle approved).get a = some v
    rw [hget a]
    split_ifs with heq
    · simp [heq]
    · simp [heq]
  · show (round.votes.set oracle approved).entries.length = _
    rw [Store.length_set_of_get_none hvotes.fresh, ht.count, List.length_append]
    rfl
  · show round.weightFor + _ = _
    rw [weightOf_append, ht.weightFor, hstake]
  · show round.weightAgainst + _ = _
    rw [weightOf_append, ht.weightAgainst, hstake]
    cases approved <;> rfl
  · rcases List.mem_append.1 hballot with hold | hnew
    · exact ht.onRoll ballot hold
    · rw [List.mem_singleton.1 hnew]
      exact ht.eligible oracle hactive hlate
  · have hfresh' : (round.votes.set oracle approved).get a = none := hfresh
    rw [hget a] at hfresh'
    split_ifs at hfresh' with heq
    exact Finset.mem_erase.2 ⟨heq, hpending a ha halate hfresh'⟩
  · have hsum := Finset.add_sum_erase pending s.stakeOf hmem
    rw [hstake] at hsum
    show round.weightFor + (if approved then info.stakeAmount else 0) +
      (round.weightAgainst + if approved then 0 else info.stakeAmount) + _ ≤ round.totalStakeSnapshot
    cases approved <;> simp only [if_true, if_false, Bool.false_eq_true] <;> omega
  · have hcard := Finset.card_erase_add_one hmem
    show (poll.cast ++ [_]).length + _ ≤ round.totalRegisteredOracles
    rw [List.length_append, List.length_singleton]
    omega

theorem tallied_opened {invoiceId : ℕ} {oracleHash : Invoices.Bytes} {round : VerificationRound}
    (hs : Sound s) (hopens : OpensRound h s invoiceId oracleHash round) :
    Tallied s { roll := s.electorate } round := by
  obtain ⟨contract, amount, -, -, rfl⟩ := hopens.awaiting
  refine ⟨List.nodup_nil, fun a => ?_, rfl, rfl, rfl, fun ballot hballot => ?_,
    fun a ha _ => (hs.mem_electorate a).2 ha, s.electorate,
    fun a ha _ _ => (hs.mem_electorate a).2 ha, ?_, ?_⟩
  · simp [State.newRound]
  · cases hballot
  · rw [hs.sum_electorate]
    show (0 : ℤ) + 0 + _ ≤ (s.oracleIds.map s.activeStake).sum
    omega
  · rw [hs.card_electorate]
    show 0 + _ ≤ s.oracleIds.countP s.active
    omega

/-- Every stored round agrees with its history. -/
structure Weighed (x : State W × (ℕ → Poll)) : Prop where
  sound : Sound x.1
  tallied : ∀ invoiceId round, x.1.rounds.get invoiceId = some round →
    Tallied x.1 (x.2 invoiceId) round

theorem weighed_step {x y : State W × (ℕ → Poll)} {tx : Tx h} (hx : Weighed x)
    (hok : Punctual h x tx) (hstep : track (exec h) (notePolls h) x tx = .ok y) : Weighed y := by
  obtain ⟨s, polls⟩ := x
  obtain ⟨s', polls'⟩ := y
  rw [track_eq_ok] at hstep
  obtain ⟨hexec, hnote⟩ := hstep
  dsimp only at hexec hnote
  have hs : Sound s := hx.sound
  refine ⟨exec_sound hs hexec, fun invoiceId round hget => ?_⟩
  -- a round with a history from before the call
  have hmono : ∀ {poll : Poll} {round : VerificationRound}, Tallied s poll round →
      Tallied s' { poll with late := tx.call.joined ++ poll.late } round := fun ht =>
    ht.mono hs.stakeOf_nonneg (fun a ha => exec_active hexec ha) fun a ha => exec_stakeOf_le hs hexec ha
  -- a round whose status is rewritten keeps its votes
  have hclosing : ∀ {closedId : ℕ} {closed round : VerificationRound} {status : RoundStatus},
      s.rounds.get closedId = some closed →
      (s.rounds.set closedId { closed with status := status }).get invoiceId = some round →
      Tallied s (polls invoiceId) round := by
    intro closedId closed round status hclosed hget
    rw [Store.get_set] at hget
    split_ifs at hget with heq
    · have ht := hx.tallied closedId closed hclosed
      rw [heq, ← Option.some.inj hget]
      exact ⟨ht.distinct, ht.voters, ht.count, ht.weightFor, ht.weightAgainst, ht.onRoll,
        ht.eligible, ht.room⟩
    · exact hx.tallied invoiceId round hget
  cases exec_docket hexec with
  | @opens caller openedId oracleHash opened hcall hopens hrounds =>
    have hpolls : polls' = Function.update polls openedId { roll := s.electorate } := by
      simpa only [notePolls, hcall] using hnote
    simp only [hcall, Call.joined, List.nil_append] at hmono
    dsimp only at hget ⊢
    rw [hrounds, Store.get_set] at hget
    rw [hpolls]
    split_ifs at hget with heq
    · rw [heq, Function.update_self, ← Option.some.inj hget]
      exact hmono (tallied_opened hs hopens)
    · rw [Function.update_of_ne heq]
      exact hmono (hx.tallied invoiceId round hget)
  | @votes oracle votedId approved info before voted status hcall hvotes hvoted hrounds =>
    have hpolls : polls' = Function.update polls votedId { polls votedId with
        cast := (polls votedId).cast ++ [⟨oracle, approved, s.stakeOf oracle⟩] } := by
      simpa only [notePolls, hcall] using hnote
    have hlate : oracle ∉ (polls votedId).late := hok (oracle, votedId) (by rw [hcall]; rfl)
    simp only [hcall, Call.joined, List.nil_append] at hmono
    dsimp only at hget ⊢
    rw [hrounds, hvoted, Store.get_set] at hget
    rw [hpolls]
    split_ifs at hget with heq
    · rw [heq, Function.update_self, ← Option.some.inj hget]
      exact hmono ((hx.tallied votedId before hvotes.round_get).vote hvotes hlate approved status)
    · rw [Function.update_of_ne heq]
      exact hmono (hx.tallied invoiceId round hget)
  | @expires closedId closed hcall hclosed hopen hlate hrounds =>
    have hpolls : polls' = polls := by simpa only [notePolls, hcall] using hnote
    simp only [hcall, Call.joined, List.nil_append] at hmono
    dsimp only at hget ⊢
    rw [hpolls]
    exact hmono (hclosing hclosed (hrounds ▸ hget))
  | @resolves closedId approved closed hcall hclosed hexpired hlate hrounds =>
    have hpolls : polls' = polls := by
      obtain ⟨caller, hcall | hcall⟩ := hcall <;> simpa only [notePolls, hcall] using hnote
    have hjoined : tx.call.joined = [] := by
      obtain ⟨caller, hcall | hcall⟩ := hcall <;> rw [hcall] <;> rfl
    simp only [hjoined, List.nil_append] at hmono
    dsimp only at hget ⊢
    rw [hpolls]
    exact hmono (hclosing hclosed (hrounds ▸ hget))
  | keeps hopen hvote hrounds =>
    have hpolls : polls' invoiceId =
        { polls invoiceId with late := tx.call.joined ++ (polls invoiceId).late } := by
      rw [hnote]
      cases hcall : tx.call with
      | openVerificationRound caller id hash => exact absurd hcall (hopen caller id hash)
      | submitVote oracle id approved => exact absurd hcall (hvote oracle id approved)
      | _ => simp [notePolls, hcall, Call.joined]
    dsimp only at hget ⊢
    rw [hrounds] at hget
    rw [hpolls]
    exact hmono (hx.tallied invoiceId round hget)

/-- In every run in which nobody votes in a round that was opened before its registration, the votes
of a round come from different oracles, each of them active when the round was opened; its weights
are theirs and together at most the stake snapshot, and there are no more votes than oracles. -/
theorem weight_within_snapshot {now : ℕ} {world : W} {balances : Address → ℤ}
    {admin stakeToken : Address} {minStake : ℤ} {start : State W}
    (hinit : initializeRegistry now world balances admin stakeToken minStake = .ok start)
    {s : State W} {polls : ℕ → Poll}
    (hrun : Reaches (track (exec h) (notePolls h)) (Punctual h) (start, fun _ => {}) (s, polls))
    {invoiceId : ℕ} {round : VerificationRound} (hget : s.rounds.get invoiceId = some round) :
    ((polls invoiceId).cast.map Ballot.oracle).Nodup ∧
      (∀ ballot ∈ (polls invoiceId).cast, ballot.oracle ∈ (polls invoiceId).roll) ∧
      round.weightFor = weightOf true (polls invoiceId).cast ∧
      round.weightAgainst = weightOf false (polls invoiceId).cast ∧
      round.weightFor + round.weightAgainst ≤ round.totalStakeSnapshot ∧
      round.votes.entries.length = (polls invoiceId).cast.length ∧
      round.votes.entries.length ≤ round.totalRegisteredOracles := by
  have hweighed : Weighed (s, polls) := by
    refine hrun.invariant ⟨sound_initial hinit, fun id round hget => ?_⟩ fun _ _ _ => weighed_step
    obtain ⟨-, rfl⟩ := initializeRegistry_eq_ok.1 hinit
    simp at hget
  have ht := hweighed.tallied invoiceId round hget
  obtain ⟨pending, -, hweight, hcount⟩ := ht.room
  have hpending : 0 ≤ ∑ a ∈ pending, s.stakeOf a :=
    Finset.sum_nonneg fun a _ => hweighed.sound.stakeOf_nonneg a
  have htotal := ht.count
  dsimp only at hweight hcount htotal
  refine ⟨ht.distinct, ht.onRoll, ht.weightFor, ht.weightAgainst, ?_, htotal, ?_⟩
  · omega
  · omega

/-- Two oracles are there when the round is opened; one votes and asks to leave, a third one registers
and stays away, and the other votes after a slash. -/
def samplePoll : List (Tx sampleHost) :=
  [⟨[3], self_ne_three, .registerOracle 3 100⟩,
    ⟨[4], self_ne_four, .registerOracle 4 400⟩,
    ⟨[2], self_ne_two, .set (.setInvoiceContract 2 20)⟩,
    ⟨[9], self_ne_nine, .openVerificationRound 9 7 []⟩,
    ⟨[3], self_ne_three, .submitVote 3 7 true⟩,
    ⟨[3], self_ne_three, .deregisterOracle 3⟩,
    ⟨[5], self_ne_five, .registerOracle 5 900⟩,
    ⟨[2], self_ne_two, .slashOracle 2 4 5000 7 [0]⟩,
    ⟨[4], self_ne_four, .submitVote 4 7 false⟩]

theorem weight_within_snapshot_slashed :
    ∃ x : State Unit × (ℕ → Poll), ∃ round,
      Reaches (track (exec sampleHost) (notePolls sampleHost)) (Punctual sampleHost)
        (sampleStart, fun _ => {}) x ∧
      x.1.rounds.get 7 = some round ∧ (x.2 7).cast = [⟨3, true, 100⟩, ⟨4, false, 200⟩] ∧
      round.weightFor + round.weightAgainst ≤ round.totalStakeSnapshot := by
  obtain ⟨x, hx, hp⟩ := exists_of_check
    (x := samplePoll.foldlM (track (exec sampleHost) (notePolls sampleHost))
      (sampleStart, fun _ => {}))
    (p := fun x => decide ((x.1.rounds.get 7).isSome = true ∧
      (x.2 7).cast = [⟨3, true, 100⟩, ⟨4, false, 200⟩])) (by decide)
  obtain ⟨hsome, hcast⟩ := of_decide_eq_true hp
  obtain ⟨round, hget⟩ := Option.isSome_iff_exists.1 hsome
  obtain ⟨s, polls⟩ := x
  have hrun := reaches_of_along .refl
    (show Along _ (Punctual sampleHost) _ samplePoll by decide) hx
  obtain ⟨-, -, -, -, hweight, -⟩ :=
    weight_within_snapshot initializeRegistry_sampleStart hrun hget
  exact ⟨(s, polls), round, hrun, hget, hcast, hweight⟩

/-- A round is opened over a stake of 100; 500 are registered after that and decide it. -/
def latecomer : List (Tx sampleHost) :=
  [⟨[2], self_ne_two, .set (.setRegistryConfig 2 100 1 6600 259200 604800)⟩,
    ⟨[2], self_ne_two, .set (.setInvoiceContract 2 20)⟩,
    ⟨[3], self_ne_three, .registerOracle 3 100⟩,
    ⟨[9], self_ne_nine, .openVerificationRound 9 7 []⟩,
    ⟨[4], self_ne_four, .registerOracle 4 500⟩,
    ⟨[4], self_ne_four, .submitVote 4 7 true⟩]

/-- The stake that registered after the opening approves the invoice alone, with five times the
snapshot. -/
theorem latecomer_decides :
    ∃ (s : State Unit) (round : VerificationRound),
      Reaches (exec sampleHost) (fun _ _ => True) sampleStart s ∧
      s.rounds.get 7 = some round ∧ round.status = .ConsensusApproved ∧
      round.totalStakeSnapshot = 100 ∧ round.weightFor = 500 ∧
      round.votes.get 4 = some true ∧ round.votes.get 3 = none := by
  obtain ⟨s, hs, hp⟩ := exists_of_check (x := latecomer.foldlM (exec sampleHost) sampleStart)
    (p := fun s => (s.rounds.get 7).any fun round : VerificationRound =>
      decide (round.status = .ConsensusApproved ∧ round.totalStakeSnapshot = 100 ∧
        round.weightFor = 500 ∧ round.votes.get 4 = some true ∧ round.votes.get 3 = none))
    (by decide)
  obtain ⟨round, hget, hround⟩ := (Option.any_eq_true _ _).1 hp
  have hrun := reaches_of_along .refl (along_of_forall (fun _ _ => trivial) _ _) hs
  exact ⟨s, round, hrun, hget, of_decide_eq_true hround⟩

end Astera.Oracle
