import Astera.Governance.Lifecycle
import Astera.Proof.Checkpoints

/-!
# How often a share votes

A vote weighs the balance that the voter had when the supply was taken down, unless the voter was
touched at the same time but after the creation, or has no checkpoint from then or before.  As long
as no such voter votes, the votes on a proposal are at most the supply.
-/

namespace Astera.Governance

open Fallible Machine Transition
open Share (ShareToken Contract History Faithful)

/-! ## Governance beside its share token

The world of the governance contract is the share contract, whose clock both go by.  `Ballots` is
what happened so far: the history of the balances, the share token that each proposal was created
with, the holders touched at that time but after it, and the votes.
-/

/-- The share contract as the governance contract sees it.  The contracts that the proposals act on
leave it alone; `accepts` tells which actions they accept. -/
def shareHost (accepts : Address → GovernanceAction → Bool) : Host Contract where
  balanceAt := fun c _ holder timestamp =>
    (Share.balanceAt (c.token.checkpoints holder) timestamp).toOption
  totalSupply := fun c _ => some c.token.totalSupply
  execute := fun c target action => if accepts target action then some c else none

inductive Step
  | shares (tx : Share.Tx)
  | govern (tx : Tx Contract)

/-- Run one step; the time passes with the share contract. -/
def joint (accepts : Address → GovernanceAction → Bool) (s : State Contract) :
    Step → Res (State Contract)
  | .shares tx => do
      let c ← (Share.exec s.world tx).mapError fun _ => .neighbour
      return { s with world := c, now := c.timestamp }
  | .govern tx =>
    match tx.call with
    | .advance _ | .elsewhere _ => .error .neighbour
    | _ => exec (shareHost accepts) s tx

/-! ## What happened so far -/

def State.weightOf (s : State Contract) (id : ℕ) (voter : Address) : ℤ :=
  ((s.proposal id).bind fun p =>
    (Share.balanceAt (s.world.token.checkpoints voter) p.createdAt).toOption).getD 0

theorem State.weightOf_eq {s : State Contract} {id : ℕ} {p : Proposal} {voter : Address} {weight : ℤ}
    (hget : s.proposal id = some p)
    (hweight : (Share.balanceAt (s.world.token.checkpoints voter) p.createdAt).toOption =
      some weight) : s.weightOf id voter = weight := by
  unfold State.weightOf
  rw [hget, Option.bind_some, hweight]
  rfl

/-- What happened so far. -/
structure Ballots where
  history : History
  snapshot : ℕ → Option ShareToken := fun _ => none
  moved : ℕ → Address → Bool := fun _ _ => false
  votes : ℕ → List (Address × ℤ) := fun _ => []

def ballotsAfter (s : State Contract) (step : Step) (s' : State Contract) (g : Ballots) : Ballots :=
  match step with
  | .shares tx =>
    { g with
      history := g.history.note s.world tx s'.world
      moved := fun id a => g.moved id a ||
        (s.proposal id).any (fun p => p.createdAt = s.now) && tx.call.touched.contains a }
  | .govern tx =>
    match tx.call with
    | .createProposal .. =>
      { g with snapshot := Function.update g.snapshot (s.proposalCount + 1) (some s.world.token) }
    | .vote id voter _ =>
      { g with votes := Function.update g.votes id (g.votes id ++ [(voter, s.weightOf id voter)]) }
    | _ => g

/-- Run one step and keep what happened. -/
def balloting (accepts : Address → GovernanceAction → Bool) :
    State Contract × Ballots → Step → Res (State Contract × Ballots) :=
  track (joint accepts) ballotsAfter

section Step

variable {accepts : Address → GovernanceAction → Bool} {s s' : State Contract}

theorem joint_shares {tx : Share.Tx} (hx : joint accepts s (.shares tx) = .ok s') :
    ∃ c, Share.exec s.world tx = .ok c ∧ s' = { s with world := c, now := c.timestamp } := by
  simp only [joint, bind_eq_ok, mapError_eq_ok, pure_eq_ok] at hx
  obtain ⟨c, hexec, rfl⟩ := hx
  exact ⟨c, hexec, rfl⟩

theorem joint_govern {tx : Tx Contract} (hx : joint accepts s (.govern tx) = .ok s') :
    exec (shareHost accepts) s tx = .ok s' ∧
      (∀ now, tx.call ≠ .advance now) ∧ ∀ world, tx.call ≠ .elsewhere world := by
  simp only [joint] at hx
  cases hcall : tx.call with
  | advance now =>
    rw [hcall] at hx
    cases hx
  | elsewhere world =>
    rw [hcall] at hx
    cases hx
  | _ =>
    rw [hcall] at hx
    exact ⟨hx, by simp, by simp⟩

theorem exec_shareHost {tx : Tx Contract} (hx : exec (shareHost accepts) s tx = .ok s')
    (hadvance : ∀ now, tx.call ≠ .advance now) (helsewhere : ∀ world, tx.call ≠ .elsewhere world) :
    s'.world = s.world ∧ s'.now = s.now := by
  obtain ⟨hworld, hnow⟩ := exec_outside hx
  constructor
  · rcases hworld with hsame | ⟨target, action, hexecute⟩ | hcall
    · exact hsame
    · simp only [shareHost] at hexecute
      split_ifs at hexecute
      exact (Option.some.inj hexecute).symm
    · exact absurd hcall (helsewhere _)
  · rcases hnow with hsame | hcall
    · exact hsame
    · exact absurd hcall (hadvance _)

end Step

/-- The vote reads the balance that the voter had at the creation of the proposal: no operation touched
the voter at that time after the creation, and the oldest checkpoint of the voter is not younger. -/
def ReadsSnapshot (s : State Contract) (g : Ballots) : Step → Prop
  | .govern ⟨_, .vote id voter _⟩ =>
    ∀ p ∈ s.proposal id, g.moved id voter = false ∧
      ∀ o ∈ (s.world.token.checkpoints voter).oldest, o.1 ≤ p.createdAt
  | _ => True

instance (s : State Contract) (g : Ballots) : (step : Step) → Decidable (ReadsSnapshot s g step)
  | .govern ⟨_, .vote id voter _⟩ =>
    inferInstanceAs (Decidable (∀ p ∈ s.proposal id, g.moved id voter = false ∧
      ∀ o ∈ (s.world.token.checkpoints voter).oldest, o.1 ≤ p.createdAt))
  | .shares _ | .govern ⟨_, .createProposal ..⟩ | .govern ⟨_, .executeProposal _⟩
  | .govern ⟨_, .cancelProposal ..⟩ | .govern ⟨_, .finalizeProposalIfDue _⟩ | .govern ⟨_, .set _⟩
  | .govern ⟨_, .advance _⟩ | .govern ⟨_, .elsewhere _⟩ => .isTrue trivial

section Past

variable {c c' : Contract} {hist : History} {tx : Share.Tx} {a : Address} {time : ℕ}

theorem balanceOn_note (hf : Faithful c hist) (hx : Share.exec c tx = .ok c')
    (htime : time ≤ c.timestamp) (ha : time = c.timestamp → a ∉ tx.call.touched) :
    (hist.note c tx c').balanceOn a time = hist.balanceOn a time := by
  unfold History.note
  split_ifs with hquiet
  · rfl
  · by_cases hnow : time = c.timestamp
    · have huntouched := ((Share.exec_adjusts hx).1.untouched (ha hnow)).1
      have hpast : ∀ e ∈ hist, e.timestamp ≤ time := fun e he => hnow ▸ hf.past e he
      rw [Share.balanceOn_of_le hpast, ← hf.current a, ← huntouched]
      simp [History.balanceOn, hnow]
    · have hlt : ¬ c.timestamp ≤ time := by omega
      simp [History.balanceOn, hlt]

theorem balanceAt_of_oldest (hf : Faithful c hist) {weight : ℤ}
    (hread : (Share.balanceAt (c.token.checkpoints a) time).toOption = some weight)
    (hpos : 0 < weight) (hold : ∀ o ∈ (c.token.checkpoints a).oldest, o.1 ≤ time) :
    weight = hist.balanceOn a time := by
  cases ho : (c.token.checkpoints a).oldest with
  | none =>
    obtain ⟨hlen, -⟩ := (hf.kept a).eq_nil_of_oldest ho
    have hzero : Share.balanceAt (c.token.checkpoints a) time = .ok 0 := by
      simp [Share.balanceAt, hlen]
    rw [hzero] at hread
    obtain rfl := Option.some.inj hread
    exact absurd hpos (lt_irrefl 0)
  | some o =>
    have htrue := Share.inForce_of_oldest_le (hf.kept a) (Share.descending_logOf hf.steady) ho
      (hold o ho)
    rw [htrue] at hread
    rw [← Share.inForce_logOf hf.steady]
    exact (Option.some.inj hread).symm

end Past

theorem sum_balance_le (t : ShareToken) {voters : List Address} (hnodup : voters.Nodup) :
    (voters.map t.balance).sum ≤ t.totalSupply := by
  have hpart : voters.map t.balance = voters.map (t.balances.part fun _ b => b) := by
    apply List.map_congr_left
    intro a _
    exact (t.part_balance a).symm
  rw [hpart, t.supply_eq]
  exact Store.sum_part_le_total hnodup t.nonneg

/-! ## One step -/

/-- The invariant of every run: what happened so far is what the contracts have. -/
structure Tallied (s : State Contract) (g : Ballots) : Prop where
  clock : s.now = s.world.timestamp
  lively : Lively s
  faithful : Faithful s.world g.history
  unused : ∀ id, s.proposal id = none → g.votes id = [] ∧ ∀ a, g.moved id a = false
  once : ∀ id, ((g.votes id).map Prod.fst).Nodup
  voted : ∀ id, ∀ v ∈ (g.votes id).map Prod.fst, s.voted id v = true
  counted : ∀ id p, s.proposal id = some p →
    p.votesFor + p.votesAgainst = ((g.votes id).map Prod.snd).sum
  created : ∀ id p, s.proposal id = some p → p.createdAt ≤ s.now
  snapshot : ∀ id p, s.proposal id = some p → ∃ t, g.snapshot id = some t ∧
    p.snapshotSupply = t.totalSupply ∧
    ∀ a, g.moved id a = false → g.history.balanceOn a p.createdAt = t.balance a

section Steps

variable {accepts : Address → GovernanceAction → Bool} {s s' : State Contract} {g : Ballots}

theorem Tallied.shares (hs : Tallied s g) {tx : Share.Tx}
    (hx : joint accepts s (.shares tx) = .ok s') :
    Tallied s' (ballotsAfter s (.shares tx) s' g) := by
  obtain ⟨c, hexec, rfl⟩ := joint_shares hx
  have hclock : s.now ≤ c.timestamp := hs.clock ▸ (Share.exec_adjusts hexec).2
  refine ⟨rfl, ?_, hs.faithful.step hexec, ?_, hs.once, hs.voted, hs.counted, ?_, ?_⟩
  · exact ⟨hs.lively.numbered, fun id p hget => (hs.lively.sound id p hget).mono
      (s := { s with world := c, now := c.timestamp }) hclock⟩
  · intro id hnone
    obtain ⟨hvotes, hmoved⟩ := hs.unused id hnone
    have hnone' : s.proposal id = none := hnone
    exact ⟨hvotes, fun a => by simp [ballotsAfter, hmoved a, hnone']⟩
  · intro id p hget
    exact (hs.created id p hget).trans hclock
  · intro id p hget
    have hget' : s.proposal id = some p := hget
    obtain ⟨t, hsnap, hsupply, hbalance⟩ := hs.snapshot id p hget'
    refine ⟨t, hsnap, hsupply, fun a hmoved => ?_⟩
    simp only [ballotsAfter, Bool.or_eq_false_iff, Bool.and_eq_false_iff, hget', Option.any_some,
      decide_eq_false_iff_not] at hmoved
    rw [← hbalance a hmoved.1]
    apply balanceOn_note hs.faithful hexec
    · exact hs.clock ▸ hs.created id p hget'
    · intro hnow
      rcases hmoved.2 with hne | huntouched
      · exact absurd (hnow.trans hs.clock.symm) hne
      · simpa using huntouched

theorem Tallied.frame (hs : Tallied s g) (hlively : Lively s') (hworld : s'.world = s.world)
    (hnow : s'.now = s.now) (hvoted : s'.voted = s.voted)
    (hproposals : ∀ id p', s'.proposal id = some p' → ∃ p, s.proposal id = some p ∧
      p.SameTerms p' ∧ p.SameTally p')
    (hgone : ∀ id, s'.proposal id = none → s.proposal id = none) : Tallied s' g := by
  refine ⟨by rw [hnow, hworld, hs.clock], hlively, hworld ▸ hs.faithful,
    fun id hnone => hs.unused id (hgone id hnone), hs.once, hvoted ▸ hs.voted, ?_, ?_, ?_⟩
  · intro id p' hget'
    obtain ⟨p, hget, -, htally⟩ := hproposals id p' hget'
    rw [htally.1, htally.2]
    exact hs.counted id p hget
  · intro id p' hget'
    obtain ⟨p, hget, hterms, -⟩ := hproposals id p' hget'
    rw [hterms.createdAt, hnow]
    exact hs.created id p hget
  · intro id p' hget'
    obtain ⟨p, hget, hterms, -⟩ := hproposals id p' hget'
    rw [hterms.createdAt, hterms.snapshotSupply]
    exact hs.snapshot id p hget

theorem Tallied.create (hs : Tallied s g) {p : Proposal} (hlively : Lively s')
    (hstate : s' = { s.setProposal (s.proposalCount + 1) p with
      proposalCount := s.proposalCount + 1 })
    (htally : p.votesFor = 0 ∧ p.votesAgainst = 0) (hcreated : p.createdAt = s.now)
    (hsupply : p.snapshotSupply = s.world.token.totalSupply) :
    Tallied s' { g with
      snapshot := Function.update g.snapshot (s.proposalCount + 1) (some s.world.token) } := by
  have hnone : s.proposal (s.proposalCount + 1) = none := by
    cases hget : s.proposal (s.proposalCount + 1) with
    | none => rfl
    | some q =>
      have := hs.lively.numbered _ q hget
      omega
  obtain ⟨hvotes, hmoved⟩ := hs.unused _ hnone
  -- Every proposal is the new one or an old one.
  have hcases : ∀ id q, s'.proposal id = some q →
      id = s.proposalCount + 1 ∧ q = p ∨ id ≠ s.proposalCount + 1 ∧ s.proposal id = some q := by
    intro id q hget
    rw [hstate] at hget
    by_cases hid : id = s.proposalCount + 1
    · exact .inl ⟨hid, by simpa [State.setProposal, hid, eq_comm] using hget⟩
    · exact .inr ⟨hid, by simpa [State.setProposal, Function.update_of_ne hid] using hget⟩
  refine ⟨by rw [hstate]; exact hs.clock, hlively, by rw [hstate]; exact hs.faithful, ?_, hs.once,
    by rw [hstate]; exact hs.voted, ?_, ?_, ?_⟩
  · intro id hgone
    apply hs.unused
    rw [hstate] at hgone
    by_cases hid : id = s.proposalCount + 1
    · simp [State.setProposal, hid] at hgone
    · simpa [State.setProposal, Function.update_of_ne hid] using hgone
  · intro id q hget
    rcases hcases id q hget with ⟨rfl, rfl⟩ | ⟨-, hold⟩
    · rw [htally.1, htally.2, hvotes]
      rfl
    · exact hs.counted id q hold
  · intro id q hget
    rcases hcases id q hget with ⟨-, rfl⟩ | ⟨-, hold⟩
    · rw [hcreated, hstate]
      exact le_rfl
    · rw [hstate]
      exact hs.created id q hold
  · intro id q hget
    rcases hcases id q hget with ⟨rfl, rfl⟩ | ⟨hid, hold⟩
    · refine ⟨s.world.token, Function.update_self _ _ _, hsupply, fun a _ => ?_⟩
      rw [hcreated, hs.faithful.current a]
      apply Share.balanceOn_of_le
      intro e he
      exact hs.clock ▸ hs.faithful.past e he
    · obtain ⟨t, hsnap, hrest⟩ := hs.snapshot id q hold
      exact ⟨t, by simpa [Function.update_of_ne hid] using hsnap, hrest⟩

theorem Tallied.vote (hs : Tallied s g) {id : ℕ} {p p' : Proposal} {voter : Address} {weight : ℤ}
    (hlively : Lively s') (hworld : s'.world = s.world) (hnow : s'.now = s.now)
    (hget : s.proposal id = some p) (hfresh : s.voted id voter = false)
    (hproposal : s'.proposal = Function.update s.proposal id (some p'))
    (hvoted : s'.voted = Function.update s.voted id (Function.update (s.voted id) voter true))
    (htally : p'.votesFor + p'.votesAgainst = p.votesFor + p.votesAgainst + weight)
    (hterms : p.SameTerms p') :
    Tallied s' { g with votes := Function.update g.votes id (g.votes id ++ [(voter, weight)]) } := by
  have hcases : ∀ i q, s'.proposal i = some q →
      i = id ∧ q = p' ∨ i ≠ id ∧ s.proposal i = some q := by
    intro i q hq
    rw [hproposal] at hq
    by_cases hi : i = id
    · rw [hi, Function.update_self, Option.some.injEq] at hq
      exact .inl ⟨hi, hq.symm⟩
    · rw [Function.update_of_ne hi] at hq
      exact .inr ⟨hi, hq⟩
  have hnew : voter ∉ (g.votes id).map Prod.fst := by
    intro hmem
    have htrue := hs.voted id voter hmem
    rw [hfresh] at htrue
    cases htrue
  refine ⟨by rw [hnow, hworld, hs.clock], hlively, hworld ▸ hs.faithful, ?_, ?_, ?_, ?_, ?_, ?_⟩
  · intro i hnone
    rw [hproposal] at hnone
    by_cases hi : i = id
    · rw [hi, Function.update_self] at hnone
      cases hnone
    · rw [Function.update_of_ne hi] at hnone
      obtain ⟨hvotes, hmoved⟩ := hs.unused i hnone
      exact ⟨by simpa [Function.update_of_ne hi] using hvotes, hmoved⟩
  · intro i
    by_cases hi : i = id
    · simp only [hi, Function.update_self, List.map_append]
      simpa using List.Nodup.concat hnew (hs.once id)
    · simpa [Function.update_of_ne hi] using hs.once i
  · intro i v hv
    rw [hvoted]
    by_cases hi : i = id
    · subst hi
      simp only [Function.update_self, List.map_append, List.mem_append] at hv ⊢
      by_cases hvoter : v = voter
      · rw [hvoter, Function.update_self]
      · rw [Function.update_of_ne hvoter]
        apply hs.voted
        simpa [hvoter] using hv
    · rw [Function.update_of_ne hi]
      apply hs.voted
      simpa [Function.update_of_ne hi] using hv
  · intro i q hq
    rcases hcases i q hq with ⟨rfl, rfl⟩ | ⟨hi, hold⟩
    · rw [htally, hs.counted i p hget]
      simp
    · simpa [Function.update_of_ne hi] using hs.counted i q hold
  · intro i q hq
    rw [hnow]
    rcases hcases i q hq with ⟨rfl, rfl⟩ | ⟨-, hold⟩
    · rw [hterms.createdAt]
      exact hs.created i p hget
    · exact hs.created i q hold
  · intro i q hq
    rcases hcases i q hq with ⟨rfl, rfl⟩ | ⟨-, hold⟩
    · rw [hterms.createdAt, hterms.snapshotSupply]
      exact hs.snapshot i p hget
    · exact hs.snapshot i q hold

theorem vote_reads {signers : List Address} {id : ℕ} {voter : Address} {inFavor : Bool}
    (hx : exec (shareHost accepts) s ⟨signers, .vote id voter inFavor⟩ = .ok s') :
    ∃ p, s.proposal id = some p ∧ ∃ weight, (Share.balanceAt (s.world.token.checkpoints voter)
      p.createdAt).toOption = some weight ∧ 0 < weight := by
  cases vote_effect hx with
  | created hcall => cases hcall
  | @moved i p p' hget hmove =>
    cases hmove with
    | voted hcall hactive hopen hfresh hweight hpos =>
      obtain ⟨rfl, rfl, rfl⟩ := Call.vote.inj hcall
      exact ⟨p, hget, _, hweight, hpos⟩
    | settled hcall | executed hcall | cancelled hcall => cases hcall
  | kept hquiet => cases hquiet

theorem Tallied.govern (hs : Tallied s g) {tx : Tx Contract}
    (hx : joint accepts s (.govern tx) = .ok s') :
    Tallied s' (ballotsAfter s (.govern tx) s' g) := by
  obtain ⟨hexec, hadvance, helsewhere⟩ := joint_govern hx
  obtain ⟨hworld, hnow⟩ := exec_shareHost hexec hadvance helsewhere
  have hlively := hs.lively.step hexec
  cases exec_effect hexec with
  | created hcall hsupply hpos hnew hstate =>
    have htoken : s.world.token.totalSupply = _ := Option.some.inj hsupply
    simp only [ballotsAfter, hcall]
    apply hs.create hlively hstate
    · rw [hnew]
      exact ⟨rfl, rfl⟩
    · rw [hnew]
      rfl
    · rw [hnew, htoken]
      rfl
  | @moved id p p' hget hmove hproposal hcount hvoted hframe =>
    -- A call that is no vote leaves the votes and the tallies.
    have hother : p.SameTally p' → s'.voted = s.voted → Tallied s' g := by
      intro htally hsame
      apply hs.frame hlively hworld hnow hsame
      · intro i q hq
        rw [hproposal] at hq
        by_cases hi : i = id
        · rw [hi, Function.update_self, Option.some.injEq] at hq
          exact ⟨p, hi ▸ hget, hq ▸ hmove.terms, hq ▸ htally⟩
        · rw [Function.update_of_ne hi] at hq
          exact ⟨q, hq, .refl q, rfl, rfl⟩
      · intro i hnone
        rw [hproposal] at hnone
        by_cases hi : i = id
        · rw [hi, Function.update_self] at hnone
          cases hnone
        · rwa [Function.update_of_ne hi] at hnone
    cases hmove with
    | voted hcall hactive hopen hfresh hweight hpos hcount =>
      obtain ⟨htally, -, hterms⟩ := Proposal.countVote_eq_ok hcount
      simp only [ballotsAfter, hcall, State.weightOf_eq hget hweight]
      rw [hcall] at hvoted
      exact hs.vote hlively hworld hnow hget hfresh hproposal hvoted htally hterms
    | settled hcall hsettles =>
      simp only [ballotsAfter, hcall]
      exact hother hsettles.tally (by rw [hvoted, hcall]; rfl)
    | executed hcall hfinal =>
      simp only [ballotsAfter, hcall]
      apply hother _ (by rw [hvoted, hcall]; rfl)
      rcases hfinal with ⟨-, -, rfl⟩ | ⟨-, rfl⟩ <;> exact ⟨rfl, rfl⟩
    | cancelled hcall hauth hsettles =>
      simp only [ballotsAfter, hcall]
      exact hother hsettles.tally (by rw [hvoted, hcall]; rfl)
  | kept hquiet hproposal hcount hvoted =>
    have hballots : ballotsAfter s (.govern tx) s' g = g := by
      cases hcall : tx.call with
      | createProposal | vote =>
        rw [hcall] at hquiet
        cases hquiet
      | _ => simp only [ballotsAfter, hcall]
    rw [hballots]
    apply hs.frame hlively hworld hnow hvoted
    · intro i q hq
      rw [hproposal] at hq
      exact ⟨q, hq, .refl q, rfl, rfl⟩
    · intro i hnone
      rwa [hproposal] at hnone

theorem Tallied.step (hs : Tallied s g) {step : Step} (hx : joint accepts s step = .ok s') :
    Tallied s' (ballotsAfter s step s' g) := by
  cases step with
  | shares tx => exact hs.shares hx
  | govern tx => exact hs.govern hx

/-- Every vote has the weight of the balance at the creation. -/
def Weighted (g : Ballots) : Prop :=
  ∀ id, ∀ vote ∈ g.votes id, ∀ t, g.snapshot id = some t → vote.2 = t.balance vote.1

theorem Weighted.step (hg : Weighted g) (hs : Tallied s g) {step : Step}
    (hreads : ReadsSnapshot s g step) (hx : joint accepts s step = .ok s') :
    Weighted (ballotsAfter s step s' g) := by
  cases step with
  | shares tx => exact hg
  | govern tx =>
    obtain ⟨hexec, hadvance, helsewhere⟩ := joint_govern hx
    obtain ⟨signers, call⟩ := tx
    cases call with
    | createProposal proposer description targetContract action category =>
      intro id vote hvote t ht
      have hvote' : vote ∈ g.votes id := hvote
      have hne : id ≠ s.proposalCount + 1 := by
        rintro rfl
        have hnone : s.proposal (s.proposalCount + 1) = none := by
          cases hget : s.proposal (s.proposalCount + 1) with
          | none => rfl
          | some q =>
            have := hs.lively.numbered _ q hget
            omega
        rw [(hs.unused _ hnone).1] at hvote'
        cases hvote'
      simp only [ballotsAfter, Function.update_of_ne hne] at ht
      exact hg id vote hvote' t ht
    | vote id voter inFavor =>
      obtain ⟨p, hget, weight, hweight, hpos⟩ := vote_reads hexec
      obtain ⟨hmoved, hold⟩ := hreads p hget
      obtain ⟨t, hsnap, -, hbalance⟩ := hs.snapshot id p hget
      intro i vote hvote t' ht'
      by_cases hi : i = id
      · subst hi
        simp only [ballotsAfter, Function.update_self, List.mem_append, List.mem_singleton]
          at hvote ht'
        rcases hvote with hvote | rfl
        · exact hg i vote hvote t' ht'
        · obtain rfl := Option.some.inj (hsnap.symm.trans ht')
          dsimp only
          rw [State.weightOf_eq hget hweight,
            balanceAt_of_oldest hs.faithful hweight hpos hold, hbalance voter hmoved]
      · simp only [ballotsAfter, Function.update_of_ne hi] at hvote ht'
        exact hg i vote hvote t' ht'
    | executeProposal | cancelProposal | finalizeProposalIfDue | set | advance | elsewhere =>
      exact hg

end Steps

theorem tallied_initial {c : Contract} {hist : History} {admin shareToken : Address}
    {votingPeriodSecs quorumBps passBps executionDelaySecs : ℕ} {minShareBalance : ℤ}
    {s₀ : State Contract} (hf : Faithful c hist)
    (hinit : initializeGovernance c.timestamp c admin shareToken votingPeriodSecs quorumBps passBps
      executionDelaySecs minShareBalance = .ok s₀) : Tallied s₀ { history := hist } := by
  have hlively : Lively s₀ := lively_initial hinit
  simp only [initializeGovernance, bind_eq_ok, exists_unit, pure_eq_ok] at hinit
  obtain ⟨-, -, -, rfl⟩ := hinit
  refine ⟨rfl, hlively, hf, fun id _ => ⟨rfl, fun a => rfl⟩, fun id => List.nodup_nil, ?_, ?_, ?_, ?_⟩
  · intro id v hv
    cases hv
  · intro id p hget
    cases hget
  · intro id p hget
    cases hget
  · intro id p hget
    cases hget

theorem Tallied.le_supply {s : State Contract} {g : Ballots} {id : ℕ} {p : Proposal}
    (hs : Tallied s g) (hg : Weighted g) (hget : s.proposal id = some p) :
    p.votesFor + p.votesAgainst ≤ p.snapshotSupply := by
  obtain ⟨t, hsnap, hsupply, -⟩ := hs.snapshot id p hget
  have hsum : (g.votes id).map Prod.snd = ((g.votes id).map Prod.fst).map t.balance := by
    rw [List.map_map]
    apply List.map_congr_left
    intro vote hvote
    exact hg id vote hvote t hsnap
  rw [hs.counted id p hget, hsum, hsupply]
  exact sum_balance_le t (hs.once id)

/-- In every run each voter is counted once on a proposal, and the tally is the sum of the weights.  In
a run in which every vote reads the balance that the voter had at the creation, the tally is at most
the supply that was taken down with the proposal. -/
theorem shares_vote_once (accepts : Address → GovernanceAction → Bool)
    (shareAdmin : Address) (sequence timestamp : ℕ) {c : Contract} {hist : History}
    (hshares : Reaches Share.remembered (fun _ _ => True)
      (Contract.fresh shareAdmin sequence timestamp, []) (c, hist))
    {admin shareToken : Address} {votingPeriodSecs quorumBps passBps executionDelaySecs : ℕ}
    {minShareBalance : ℤ} {s₀ : State Contract}
    (hinit : initializeGovernance c.timestamp c admin shareToken votingPeriodSecs quorumBps passBps
      executionDelaySecs minShareBalance = .ok s₀) :
    (∀ s g, Reaches (balloting accepts) (fun _ _ => True) (s₀, { history := hist }) (s, g) →
      ∀ id p, s.proposal id = some p → ((g.votes id).map Prod.fst).Nodup ∧
        p.votesFor + p.votesAgainst = ((g.votes id).map Prod.snd).sum) ∧
    (∀ s g, Reaches (balloting accepts) (fun x step => ReadsSnapshot x.1 x.2 step)
        (s₀, { history := hist }) (s, g) →
      ∀ id p, s.proposal id = some p → p.votesFor + p.votesAgainst ≤ p.snapshotSupply) := by
  have hfaithful := Share.faithful_of_reaches shareAdmin sequence timestamp hshares
  have hstart : Tallied s₀ { history := hist } := tallied_initial hfaithful hinit
  constructor
  · intro s g hrun id p hget
    have hs : Tallied s g := by
      apply hrun.invariant (P := fun x => Tallied x.1 x.2)
      · exact hstart
      · intro x step y hx _ hstep
        obtain ⟨hexec, hballots⟩ := (track_eq_ok _ _ _ _ _).1 hstep
        rw [hballots]
        exact hx.step hexec
    exact ⟨hs.once id, hs.counted id p hget⟩
  · intro s g hrun id p hget
    have hboth : Tallied s g ∧ Weighted g := by
      apply hrun.invariant (P := fun x => Tallied x.1 x.2 ∧ Weighted x.2)
      · refine ⟨hstart, fun i vote hvote => ?_⟩
        cases hvote
      · intro x step y hx hreads hstep
        obtain ⟨hexec, hballots⟩ := (track_eq_ok _ _ _ _ _).1 hstep
        rw [hballots]
        exact ⟨hx.1.step hexec, hx.2.step hx.1 hreads hexec⟩
    exact hboth.1.le_supply hboth.2 hget

/-! ## A sample -/

/-- Account 5 gets 600 shares and account 6 gets 400. -/
def sampleShares : List Share.Tx :=
  [⟨[], .advance 1 1000⟩, ⟨[1], .mint 5 600⟩, ⟨[1], .mint 6 400⟩, ⟨[], .advance 1 10⟩]

/-- A governance contract with the admin 1 beside a share contract. -/
def governed (c : Contract) : Res (State Contract) :=
  initializeGovernance c.timestamp c 1 2 86400 1000 6000 3600 1

def proposed : Step :=
  .govern ⟨[5], .createProposal 5 [] 9 (.Compliance (.SetComplianceRescreeningInterval 60))
    .ParameterChange⟩

/-- Account 5 votes and gives its shares to account 6, which has voted too. -/
def votedOnce : List Step :=
  [proposed, .govern ⟨[5], .vote 1 5 true⟩, .govern ⟨[6], .vote 1 6 false⟩,
    .shares ⟨[], .advance 1 10⟩, .shares ⟨[5], .transfer 5 6 600⟩]

theorem shares_vote_once_transferred :
    ∃ c hist s₀ s g p, sampleShares.foldlM Share.remembered (Contract.fresh 1 0 0, []) =
        .ok (c, hist) ∧ governed c = .ok s₀ ∧
      votedOnce.foldlM (balloting fun _ _ => true) (s₀, { history := hist }) = .ok (s, g) ∧
      s.proposal 1 = some p ∧ g.votes 1 = [(5, 600), (6, 400)] ∧
      ((g.votes 1).map Prod.fst).Nodup ∧ p.votesFor + p.votesAgainst ≤ p.snapshotSupply := by
  obtain ⟨⟨c, hist⟩, hc, hp⟩ := exists_of_check
    (x := sampleShares.foldlM Share.remembered (Contract.fresh 1 0 0, []))
    (p := fun x => check (governed x.1) fun s₀ =>
      decide (Along (balloting fun _ _ => true) (fun y step => ReadsSnapshot y.1 y.2 step)
        (s₀, { history := x.2 }) votedOnce) &&
      check (votedOnce.foldlM (balloting fun _ _ => true) (s₀, { history := x.2 })) fun y =>
        decide ((y.1.proposal 1).isSome = true ∧ y.2.votes 1 = [(5, 600), (6, 400)]))
    (by decide)
  obtain ⟨s₀, hinit, hp⟩ := exists_of_check hp
  rw [Bool.and_eq_true, decide_eq_true_eq] at hp
  obtain ⟨halong, hp⟩ := hp
  obtain ⟨⟨s, g⟩, hs, hp⟩ := exists_of_check hp
  obtain ⟨hsome, hvotes⟩ := of_decide_eq_true hp
  obtain ⟨p, hget⟩ := Option.isSome_iff_exists.1 hsome
  have hshares : Reaches Share.remembered (fun _ _ => True) (Contract.fresh 1 0 0, []) (c, hist) :=
    reaches_of_along .refl (along_of_forall (fun _ _ => trivial) _ _) hc
  obtain ⟨hall, hsnapshot⟩ := shares_vote_once (fun _ _ => true) 1 0 0 hshares hinit
  obtain ⟨hnodup, -⟩ := hall s g
    (reaches_of_along .refl (along_of_forall (fun _ _ => trivial) _ _) hs) 1 p hget
  exact ⟨c, hist, s₀, s, g, p, hc, hinit, hs, hget, hvotes, hnodup,
    hsnapshot s g (reaches_of_along .refl halong hs) 1 p hget⟩

/-- Account 5 votes and gives its shares to account 7, which never had any; or to account 6, which has
some, at the time of the creation. -/
def votedTwice (elapsed : ℕ) (receiver : Address) : List Step :=
  [proposed, .govern ⟨[5], .vote 1 5 true⟩, .shares ⟨[], .advance 1 elapsed⟩,
    .shares ⟨[5], .transfer 5 receiver 600⟩, .govern ⟨[receiver], .vote 1 receiver true⟩]

/-- The tally exceeds the supply: the shares vote again for their new holder. -/
theorem transferred_shares_vote_again :
    ∃ c hist s₀ x y p q, sampleShares.foldlM Share.remembered (Contract.fresh 1 0 0, []) =
        .ok (c, hist) ∧ governed c = .ok s₀ ∧
      (votedTwice 10 7).foldlM (balloting fun _ _ => true) (s₀, { history := hist }) = .ok x ∧
      x.1.proposal 1 = some p ∧ p.votesFor = 1200 ∧ p.snapshotSupply = 1000 ∧
      (votedTwice 0 6).foldlM (balloting fun _ _ => true) (s₀, { history := hist }) = .ok y ∧
      y.1.proposal 1 = some q ∧ q.votesFor = 1600 ∧ q.snapshotSupply = 1000 := by
  obtain ⟨⟨c, hist⟩, hc, hp⟩ := exists_of_check
    (x := sampleShares.foldlM Share.remembered (Contract.fresh 1 0 0, []))
    (p := fun x => check (governed x.1) fun s₀ =>
      check ((votedTwice 10 7).foldlM (balloting fun _ _ => true) (s₀, { history := x.2 })) (fun y =>
        decide (∃ p ∈ y.1.proposal 1, p.votesFor = 1200 ∧ p.snapshotSupply = 1000)) &&
      check ((votedTwice 0 6).foldlM (balloting fun _ _ => true) (s₀, { history := x.2 })) (fun y =>
        decide (∃ p ∈ y.1.proposal 1, p.votesFor = 1600 ∧ p.snapshotSupply = 1000)))
    (by decide)
  obtain ⟨s₀, hinit, hp⟩ := exists_of_check hp
  rw [Bool.and_eq_true] at hp
  obtain ⟨x, hx, hp₁⟩ := exists_of_check hp.1
  obtain ⟨y, hy, hp₂⟩ := exists_of_check hp.2
  obtain ⟨p, hget, hfor, hsupply⟩ := of_decide_eq_true hp₁
  obtain ⟨q, hget', hfor', hsupply'⟩ := of_decide_eq_true hp₂
  exact ⟨c, hist, s₀, x, y, p, q, hc, hinit, hx, hget, hfor, hsupply, hy, hget', hfor', hsupply'⟩

end Astera.Governance
