import Astera.Oracle.Registry

/-!
# Open rounds and returned stakes

The list of open rounds is exact, a round ends by a quorum in time or by its expiry, and the stake
of an oracle is returned once for each of its registrations.
-/

namespace Astera.Oracle

open Fallible Machine Transition

variable {W : Type} {h : Host W} {s s' : State W}
variable {operator : Address} {g : History} {tx : Tx h} {round : VerificationRound} {invoiceId : ℕ}

/-- The list of open rounds has every open round once, and nothing else. -/
structure OpenIndex (s : State W) : Prop where
  nodup : s.openRounds.Nodup
  mem_iff : ∀ id, id ∈ s.openRounds ↔ ∃ round, s.rounds.get id = some round ∧ round.status = .Open

theorem OpenIndex.write (hs : OpenIndex s) (hrounds : s'.rounds = s.rounds.set invoiceId round)
    (hnodup : s'.openRounds.Nodup) (hself : invoiceId ∈ s'.openRounds ↔ round.status = .Open)
    (hother : ∀ id, id ≠ invoiceId → (id ∈ s'.openRounds ↔ id ∈ s.openRounds)) : OpenIndex s' := by
  refine ⟨hnodup, fun id => ?_⟩
  rw [hrounds, Store.get_set]
  split_ifs with heq
  · rw [heq, hself]
    simp
  · rw [hother id heq, hs.mem_iff]

theorem OpenIndex.close (hs : OpenIndex s) (hrounds : s'.rounds = s.rounds.set invoiceId round)
    (hclosed : round.status ≠ .Open) (hindex : s'.openRounds = s.openRounds.erase invoiceId) :
    OpenIndex s' := by
  refine hs.write hrounds ?_ ?_ fun id hne => ?_
  · rw [hindex]
    exact hs.nodup.erase _
  · rw [hindex, hs.nodup.mem_erase_iff]
    simp [hclosed]
  · rw [hindex, hs.nodup.mem_erase_iff]
    simp [hne]

theorem decided_ne_open (outcome : Bool) : decided outcome ≠ .Open := by
  cases outcome <;> decide

theorem openIndex_step (hs : OpenIndex s) (hx : exec h s tx = .ok s') : OpenIndex s' := by
  cases exec_docket hx with
  | @opens caller invoiceId oracleHash round hcall hopens hrounds hindex =>
    have hfresh : invoiceId ∉ s.openRounds := by
      rw [hs.mem_iff]
      rintro ⟨existing, hget, hopen⟩
      exact hopens.notOpen existing hget hopen
    refine hs.write hrounds ?_ ?_ fun id hne => ?_
    · rw [hindex, List.nodup_append]
      refine ⟨hs.nodup, List.nodup_singleton _, ?_⟩
      rintro a ha b hb rfl
      exact hfresh (List.mem_singleton.1 hb ▸ ha)
    · obtain ⟨contract, amount, -, -, rfl⟩ := hopens.awaiting
      simp [hindex, State.newRound]
    · simp [hindex, hne]
  | @votes oracle invoiceId approved info round voted status hcall hvotes hvoted hrounds hstatus =>
    rcases hstatus with ⟨hopen, hindex⟩ | ⟨outcome, -, hdecided, hindex⟩
    · have hmem : invoiceId ∈ s.openRounds :=
        (hs.mem_iff invoiceId).2 ⟨round, hvotes.round_get, hvotes.status⟩
      refine hs.write hrounds ?_ ?_ fun id _ => ?_
      · rw [hindex]
        exact hs.nodup
      · rw [hindex]
        simp [hmem, hopen]
      · rw [hindex]
    · refine hs.close hrounds ?_ hindex
      rw [hdecided]
      exact decided_ne_open outcome
  | expires hcall hget hopen hlate hrounds hindex => exact hs.close hrounds (by simp) hindex
  | @resolves invoiceId approved round hcall hget hexpired hlate hrounds hindex =>
    have hout : invoiceId ∉ s.openRounds := by
      rw [hs.mem_iff]
      rintro ⟨round', hget', hopen⟩
      rw [← Option.some.inj (hget.symm.trans hget'), hexpired] at hopen
      cases hopen
    refine hs.write hrounds ?_ ?_ fun id _ => ?_
    · rw [hindex]
      exact hs.nodup
    · rw [hindex]
      simp [hout, decided_ne_open]
    · rw [hindex]
  | keeps hopen hvote hrounds hindex =>
    refine ⟨?_, fun id => ?_⟩
    · rw [hindex]
      exact hs.nodup
    · rw [hindex, hrounds]
      exact hs.mem_iff id

/-- A vote at or before the deadline completes the quorum of one side. -/
def Concludes (s : State W) (tx : Tx h) (invoiceId : ℕ) (round round' : VerificationRound) : Prop :=
  ∃ oracle approved, tx.call = .submitVote oracle invoiceId approved ∧ s.now ≤ round.deadline ∧
    round'.requiredVotes ≤ round'.votes.entries.length ∧
    ((round'.status = .ConsensusApproved ∧ round'.quorum ≤ round'.weightFor) ∨
      (round'.status = .ConsensusRejected ∧ round'.quorum ≤ round'.weightAgainst))

theorem open_round_exits (hget : s.rounds.get invoiceId = some round) (hopen : round.status = .Open)
    (hx : exec h s tx = .ok s') :
    ∃ round', s'.rounds.get invoiceId = some round' ∧
      (round'.status = .Open ∨ Concludes s tx invoiceId round round' ∨
        (tx.call = .expireRound invoiceId ∧ round.deadline < s.now ∧ round'.status = .Expired)) := by
  cases exec_docket hx with
  | @opens caller openedId oracleHash opened hcall hopens hrounds =>
    have hne : invoiceId ≠ openedId := by
      rintro rfl
      exact hopens.notOpen round hget hopen
    exact ⟨round, by rw [hrounds, Store.get_set_of_ne _ _ hne, hget], .inl hopen⟩
  | @votes oracle votedId approved info before voted status hcall hvotes hvoted hrounds hstatus =>
    by_cases heq : invoiceId = votedId
    · subst heq
      obtain rfl := Option.some.inj (hget.symm.trans hvotes.round_get)
      refine ⟨{ voted with status := status }, by rw [hrounds, Store.get_set_self], ?_⟩
      rcases hstatus with ⟨hstays, -⟩ | ⟨outcome, hverdict, hdecided, -⟩
      · exact .inl hstays
      · obtain ⟨hcount, hfor, hagainst⟩ := verdict_spec hverdict
        refine .inr (.inl ⟨oracle, approved, hcall, hvotes.deadline, hcount, ?_⟩)
        cases outcome with
        | true => exact .inl ⟨hdecided, hfor rfl⟩
        | false => exact .inr ⟨hdecided, (hagainst rfl).1⟩
    · exact ⟨round, by rw [hrounds, Store.get_set_of_ne _ _ heq, hget], .inl hopen⟩
  | @expires expiredId closed hcall hclosed hopen' hlate hrounds =>
    by_cases heq : invoiceId = expiredId
    · subst heq
      obtain rfl := Option.some.inj (hget.symm.trans hclosed)
      exact ⟨{ round with status := .Expired }, by rw [hrounds, Store.get_set_self],
        .inr (.inr ⟨hcall, hlate, rfl⟩)⟩
    · exact ⟨round, by rw [hrounds, Store.get_set_of_ne _ _ heq, hget], .inl hopen⟩
  | @resolves resolvedId approved closed hcall hclosed hexpired hlate hrounds =>
    have hne : invoiceId ≠ resolvedId := by
      rintro rfl
      rw [← Option.some.inj (hget.symm.trans hclosed), hopen] at hexpired
      cases hexpired
    exact ⟨round, by rw [hrounds, Store.get_set_of_ne _ _ hne, hget], .inl hopen⟩
  | keeps hopen' hvote hrounds => exact ⟨round, by rw [hrounds, hget], .inl hopen⟩

theorem resolved_after_expiry {caller : Address} {approved : Bool}
    (hcall : tx.call = .adminResolveRound caller invoiceId approved ∨
      tx.call = .adminResolveRoundViaAc caller invoiceId approved)
    (hx : exec h s tx = .ok s') :
    ∃ round, s.rounds.get invoiceId = some round ∧ round.status = .Expired ∧
      round.deadline < s.now ∧
      s'.rounds = s.rounds.set invoiceId { round with status := decided approved } := by
  have hinternal : adminResolveRoundInternal h s invoiceId approved = .ok s' := by
    rcases hcall with hcall | hcall <;>
      simp only [exec, hcall, adminResolveRound, adminResolveRoundViaAc, bind_eq_ok, exists_unit] at hx
    · exact hx.2
    · exact hx.2
  obtain ⟨round, hget, hexpired, hlate, hfinal⟩ := adminResolveRoundInternal_eq_ok hinternal
  obtain ⟨contract, world, -, -, rfl⟩ := finalizeOnInvoice_eq_ok.1 hfinal
  exact ⟨round, hget, hexpired, hlate, rfl⟩

/-! ## Returned stakes -/

/-- The last registration of an oracle. -/
structure Account where
  /-- How many registrations there were. -/
  registrations : ℕ := 0
  deposit : ℤ := 0
  slashed : ℤ := 0
  lastVote : Option ℕ := none

/-- A stake that was returned, with the account of the oracle at that time. -/
structure Payout where
  oracle : Address
  account : Account
  amount : ℤ
  cooldown : ℕ
  time : ℕ

structure History where
  account : Address → Account := fun _ => {}
  payouts : List Payout := []

/-- The history after a call; the amount of a payout is what left the registry. -/
def noteHistory (h : Host W) (s : State W) (tx : Tx h) (s' : State W) (g : History) : History :=
  match tx.call with
  | .registerOracle operator stakeAmount =>
    { g with
      account := Function.update g.account operator
        { registrations := (g.account operator).registrations + 1, deposit := stakeAmount } }
  | .slashOracle _ operator bps _ _ | .slashOracleViaAc _ operator bps _ _ =>
    { g with
      account := Function.update g.account operator { g.account operator with
        slashed := (g.account operator).slashed + slashCut (s.stakeOf operator) bps } }
  | .submitVote oracle _ _ =>
    { g with
      account := Function.update g.account oracle
        { g.account oracle with lastVote := some s.now } }
  | .deregisterOracle operator =>
    if s'.oracles.get operator = none then
      { g with
        payouts := g.payouts ++ [{
          oracle := operator
          account := g.account operator
          amount := s.balances h.self - s'.balances h.self
          cooldown := s.settings.config.deregisterCooldownSecs
          time := s.now }] }
    else g
  | _ => g

def Call.leaver : Call W → Option Address
  | .deregisterOracle operator => some operator
  | _ => none

/-- The end of the cooldown of an oracle that leaves is in the range of the ledger time. -/
def Unsaturated (h : Host W) (x : State W × History) (tx : Tx h) : Prop :=
  ∀ operator ∈ tx.call.leaver, ∀ info ∈ x.1.oracles.get operator,
    ∀ requestedAt ∈ info.deregisterRequestedAt,
      requestedAt + x.1.settings.config.deregisterCooldownSecs < 2 ^ 64

instance (h : Host W) (x : State W × History) (tx : Tx h) : Decidable (Unsaturated h x tx) :=
  inferInstanceAs (Decidable (∀ operator ∈ _, ∀ info ∈ _, ∀ requestedAt ∈ _, _ < _))

/-- A payout is the deposit without the slashes, and comes a cooldown after the last vote. -/
def Payout.Due (payout : Payout) : Prop :=
  payout.amount = payout.account.deposit - payout.account.slashed ∧
    ∀ time ∈ payout.account.lastVote, time + payout.cooldown ≤ payout.time

/-- The record of an oracle agrees with its account. -/
structure Matches (now : ℕ) (info : OracleInfo) (account : Account) : Prop where
  stake : info.stakeAmount = account.deposit - account.slashed
  lastVote : ∀ time ∈ account.lastVote, time ≤ now
  requested : ∀ requestedAt ∈ info.deregisterRequestedAt, ∀ time ∈ account.lastVote,
    time ≤ requestedAt

/-- The history explains the state, and every payout was due. -/
structure Recorded (x : State W × History) : Prop where
  sound : Sound x.1
  record : ∀ a info, x.1.oracles.get a = some info → Matches x.1.now info (x.2.account a)
  /-- A payout belongs to a registration that is over. -/
  ended : ∀ payout ∈ x.2.payouts,
    payout.account.registrations ≤ (x.2.account payout.oracle).registrations ∧
      ∀ info, x.1.oracles.get payout.oracle = some info →
        payout.account.registrations < (x.2.account payout.oracle).registrations
  distinct : (x.2.payouts.map fun payout => (payout.oracle, payout.account.registrations)).Nodup
  due : ∀ payout ∈ x.2.payouts, payout.Due

theorem Matches.mono {now now' : ℕ} {info : OracleInfo} {account : Account}
    (hmatches : Matches now info account) (hnow : now ≤ now') : Matches now' info account :=
  ⟨hmatches.stake, fun time ht => (hmatches.lastVote time ht).trans hnow, hmatches.requested⟩

theorem Recorded.keep (hx : Recorded (s, g)) (hsound : Sound s') (horacles : s'.oracles = s.oracles)
    (hnow : s.now ≤ s'.now) : Recorded (s', g) := by
  refine ⟨hsound, fun a info hget => ?_, fun payout hmem => ?_, hx.distinct, hx.due⟩
  · have hget' : s'.oracles.get a = some info := hget
    rw [horacles] at hget'
    exact (hx.record a info hget').mono hnow
  · refine ⟨(hx.ended payout hmem).1, fun info hget => (hx.ended payout hmem).2 info ?_⟩
    have hget' : s'.oracles.get payout.oracle = some info := hget
    rwa [horacles] at hget'

theorem Recorded.rewrite (hx : Recorded (s, g)) (hsound : Sound s') {info info' : OracleInfo}
    (hget : s.oracles.get operator = some info)
    (horacles : s'.oracles = s.oracles.set operator info') (hnow : s'.now = s.now)
    {account : Account} (hsame : account.registrations = (g.account operator).registrations)
    (hmatches : Matches s.now info' account) :
    Recorded (s', { g with account := Function.update g.account operator account }) := by
  have hregistrations : ∀ a, (Function.update g.account operator account a).registrations =
      (g.account a).registrations := by
    intro a
    by_cases ha : a = operator
    · rw [ha, Function.update_self, hsame]
    · rw [Function.update_of_ne ha]
  refine ⟨hsound, fun a info₁ hget₁ => ?_, fun payout hmem => ?_, hx.distinct, hx.due⟩
  · have hget₂ : s'.oracles.get a = some info₁ := hget₁
    show Matches s'.now info₁ (Function.update g.account operator account a)
    rw [horacles, Store.get_set] at hget₂
    rw [hnow]
    split_ifs at hget₂ with ha
    · rw [ha, Function.update_self, ← Option.some.inj hget₂]
      exact hmatches
    · rw [Function.update_of_ne ha]
      exact hx.record a info₁ hget₂
  · obtain ⟨hle, hlt⟩ := hx.ended payout hmem
    dsimp only at hle hlt ⊢
    rw [hregistrations]
    refine ⟨hle, fun info₁ hget₁ => ?_⟩
    rw [horacles, Store.get_set] at hget₁
    split_ifs at hget₁ with ha
    · exact hlt info (ha ▸ hget)
    · exact hlt info₁ hget₁

theorem recorded_registered (hx : Recorded (s, g)) {stakeAmount : ℤ}
    (hsound : Sound (s.registered h operator stakeAmount)) :
    Recorded (s.registered h operator stakeAmount, { g with
      account := Function.update g.account operator
        { registrations := (g.account operator).registrations + 1, deposit := stakeAmount } }) := by
  have hget : ∀ a, (s.registered h operator stakeAmount).oracles.get a =
      if a = operator then some (s.newOracle operator stakeAmount) else s.oracles.get a :=
    fun a => Store.get_set _ _ _ _
  refine ⟨hsound, fun a info hinfo => ?_, fun payout hmem => ?_, hx.distinct, hx.due⟩
  · dsimp only at hinfo ⊢
    rw [hget] at hinfo
    split_ifs at hinfo with ha
    · rw [ha, Function.update_self, ← Option.some.inj hinfo]
      refine ⟨?_, fun time ht => ?_, fun requestedAt hr => ?_⟩
      · exact (sub_zero stakeAmount).symm
      · cases ht
      · cases hr
    · rw [Function.update_of_ne ha]
      exact hx.record a info hinfo
  · obtain ⟨hle, hlt⟩ := hx.ended payout hmem
    dsimp only at hle hlt ⊢
    by_cases ha : payout.oracle = operator
    · rw [ha] at hle ⊢
      rw [Function.update_self]
      exact ⟨Nat.le_succ_of_le hle, fun _ _ => Nat.lt_succ_of_le hle⟩
    · rw [Function.update_of_ne ha]
      refine ⟨hle, fun info hinfo => hlt info ?_⟩
      rwa [hget, if_neg ha] at hinfo

theorem recorded_departed (hx : Recorded (s, g)) {info : OracleInfo} {requestedAt : ℕ}
    (hsound : Sound (s.departed h operator info.stakeAmount)) (hne : h.self ≠ operator)
    (hget : s.oracles.get operator = some info)
    (hrequested : info.deregisterRequestedAt = some requestedAt)
    (hcooldown : requestedAt + s.settings.config.deregisterCooldownSecs ≤ s.now) :
    Recorded (s.departed h operator info.stakeAmount, { g with
      payouts := g.payouts ++ [{
        oracle := operator
        account := g.account operator
        amount := s.balances h.self - (s.departed h operator info.stakeAmount).balances h.self
        cooldown := s.settings.config.deregisterCooldownSecs
        time := s.now }] }) := by
  have hremoved : ∀ a, (s.departed h operator info.stakeAmount).oracles.get a =
      if a = operator then none else s.oracles.get a := fun a => Store.get_remove _ _ _
  have hmatches : Matches s.now info (g.account operator) := hx.record operator info hget
  refine ⟨hsound, fun a info₁ hinfo => ?_, fun payout hmem => ?_, ?_, fun payout hmem => ?_⟩
  · dsimp only at hinfo ⊢
    rw [hremoved] at hinfo
    split_ifs at hinfo
    exact hx.record a info₁ hinfo
  · rcases List.mem_append.1 hmem with hold | hnew
    · obtain ⟨hle, hlt⟩ := hx.ended payout hold
      refine ⟨hle, fun info₁ hinfo => hlt info₁ ?_⟩
      dsimp only at hinfo ⊢
      rw [hremoved] at hinfo
      split_ifs at hinfo
      exact hinfo
    · rw [List.mem_singleton.1 hnew]
      refine ⟨le_rfl, fun info₁ hinfo => ?_⟩
      dsimp only at hinfo
      rw [hremoved, if_pos rfl] at hinfo
      cases hinfo
  · rw [List.map_append, List.nodup_append]
    refine ⟨hx.distinct, List.nodup_singleton _, ?_⟩
    rintro a ha b hb rfl
    -- an earlier payout of the same oracle is of an earlier registration
    obtain ⟨payout, hmem, hkey⟩ := List.mem_map.1 ha
    have hnew : a = (operator, (g.account operator).registrations) := List.mem_singleton.1 hb
    rw [hnew, Prod.mk.injEq] at hkey
    have hlt := (hx.ended payout hmem).2 info (hkey.1 ▸ hget)
    dsimp only at hlt
    rw [hkey.1, hkey.2] at hlt
    exact lt_irrefl _ hlt
  · rcases List.mem_append.1 hmem with hold | hnew
    · exact hx.due payout hold
    · rw [List.mem_singleton.1 hnew]
      refine ⟨?_, fun time ht => ?_⟩
      · have hmoved : (s.departed h operator info.stakeAmount).balances h.self =
            s.balances h.self - info.stakeAmount := Ledger.move_sender _ _ hne
        dsimp only
        rw [hmoved, ← hmatches.stake]
        ring
      · have hlast := hmatches.requested requestedAt hrequested time ht
        dsimp only
        omega

theorem recorded_step {x y : State W × History} (hx : Recorded x) (hok : Unsaturated h x tx)
    (hstep : track (exec h) (noteHistory h) x tx = .ok y) :
    Recorded y := by
  obtain ⟨s, g⟩ := x
  obtain ⟨s', g'⟩ := y
  rw [track_eq_ok] at hstep
  obtain ⟨hexec, hnote⟩ := hstep
  dsimp only at hexec hnote
  have hsound : Sound s' := exec_sound hx.sound hexec
  -- a vote dates the account of the oracle
  have hvoted : ∀ {oracle : Address} {invoiceId : ℕ} {approved : Bool} {info : OracleInfo}
      {round : VerificationRound}, tx.call = .submitVote oracle invoiceId approved →
      Votes s oracle invoiceId info round →
      s'.oracles = (s.credited oracle info invoiceId).oracles →
      s'.now = (s.credited oracle info invoiceId).now → Recorded (s', g') := by
    intro oracle invoiceId approved info round hcall hvotes horacles hnow
    obtain ⟨hcredited, -, -, -, -, htime⟩ := credited_fields s oracle info invoiceId
    have hmatches := hx.record oracle info hvotes.info_get
    simp only [noteHistory, hcall] at hnote
    rw [hnote]
    refine hx.rewrite hsound hvotes.info_get (horacles.trans hcredited) (hnow.trans htime) rfl
      ⟨hmatches.stake, fun time ht => ?_, fun requestedAt hr => ?_⟩
    · exact (Option.some.inj ht).symm.le
    · have hnone : some requestedAt = none := hr.symm.trans hvotes.staying
      cases hnone
  cases exec_effect hexec with
  | registered hcall hauth hmin hnew =>
    simp only [noteHistory, hcall] at hnote
    rw [hnote]
    exact recorded_registered hx hsound
  | @requested operator info hcall hget hstaying =>
    have hmatches := hx.record operator info hget
    have hstays : (s.oracles.set operator
        { info with isActive := false, deregisterRequestedAt := some s.now }).get operator ≠ none := by
      rw [Store.get_set_self]
      simp
    have hsame : g' = { g with
        account := Function.update g.account operator (g.account operator) } := by
      rw [Function.update_eq_self]
      simp only [noteHistory, hcall] at hnote
      rw [hnote]
      exact if_neg hstays
    rw [hsame]
    refine hx.rewrite hsound hget rfl rfl rfl
      ⟨hmatches.stake, hmatches.lastVote, fun requestedAt hr time ht => ?_⟩
    rw [← Option.some.inj hr]
    exact hmatches.lastVote time ht
  | @departed operator info requestedAt hcall hauth hget hrequested hcooldown =>
    have hne := tx.self_ne hauth
    have hfits : requestedAt + s.settings.config.deregisterCooldownSecs < 2 ^ 64 :=
      hok operator (by rw [hcall]; rfl) info hget requestedAt hrequested
    have hgone : (s.departed h operator info.stakeAmount).oracles.get operator = none := by
      show (s.oracles.remove operator).get operator = none
      rw [Store.get_remove, if_pos rfl]
    simp only [noteHistory, hcall, if_pos hgone] at hnote
    rw [hnote]
    refine recorded_departed hx hsound hne hget hrequested ?_
    unfold saturatingAddU at hcooldown
    omega
  | @slashed operator info bps roundId evidence hcall hget =>
    have hmatches := hx.record operator info hget
    have hstake : s.stakeOf operator = info.stakeAmount := Store.part_of_get hget
    have hnote' : g' = { g with
        account := Function.update g.account operator { g.account operator with
          slashed := (g.account operator).slashed + slashCut info.stakeAmount bps } } := by
      rw [← hstake]
      obtain ⟨caller, hcall | hcall⟩ := hcall <;> simpa only [noteHistory, hcall] using hnote
    rw [hnote']
    refine hx.rewrite hsound hget rfl rfl rfl ⟨?_, hmatches.lastVote, hmatches.requested⟩
    have hold := hmatches.stake
    dsimp only at hold ⊢
    omega
  | counted hcall hvotes => exact hvoted hcall hvotes rfl rfl
  | decided hcall hvotes => exact hvoted hcall hvotes rfl rfl
  | resolved hcall =>
    have hnote' : g' = g := by
      obtain ⟨caller, hcall | hcall⟩ := hcall <;> simpa only [noteHistory, hcall] using hnote
    rw [hnote']
    exact hx.keep hsound rfl le_rfl
  | advanced hcall hnow =>
    simp only [noteHistory, hcall] at hnote
    rw [hnote]
    exact hx.keep hsound rfl hnow
  | withdrew hcall | opened hcall | expired hcall | configured hcall | elsewhere hcall
  | transferred hcall =>
    simp only [noteHistory, hcall] at hnote
    rw [hnote]
    exact hx.keep hsound rfl le_rfl

/-- In every run, as long as no oracle leaves whose cooldown would end beyond the ledger time, the list
of open rounds is exact, an open round ends only by a quorum in time or by its expiry, the admin
resolves only expired rounds after their deadline, and every stake is returned at most once for a
registration, as the deposit without the slashes and a cooldown after the last vote. -/
theorem bookkeeping_and_exits {now : ℕ} {world : W} {balances : Address → ℤ}
    {admin stakeToken : Address} {minStake : ℤ} {start : State W}
    (hinit : initializeRegistry now world balances admin stakeToken minStake = .ok start)
    {s : State W} {g : History}
    (hrun : Reaches (track (exec h) (noteHistory h)) (Unsaturated h) (start, {}) (s, g)) :
    OpenIndex s ∧
      (∀ (tx : Tx h) s' invoiceId round, s.rounds.get invoiceId = some round →
        round.status = .Open → exec h s tx = .ok s' →
        ∃ round', s'.rounds.get invoiceId = some round' ∧
          (round'.status = .Open ∨ Concludes s tx invoiceId round round' ∨
            (tx.call = .expireRound invoiceId ∧ round.deadline < s.now ∧
              round'.status = .Expired))) ∧
      (∀ (tx : Tx h) s' caller invoiceId approved,
        (tx.call = .adminResolveRound caller invoiceId approved ∨
          tx.call = .adminResolveRoundViaAc caller invoiceId approved) → exec h s tx = .ok s' →
        ∃ round, s.rounds.get invoiceId = some round ∧ round.status = .Expired ∧
          round.deadline < s.now ∧
          s'.rounds = s.rounds.set invoiceId { round with status := decided approved }) ∧
      (g.payouts.map fun payout => (payout.oracle, payout.account.registrations)).Nodup ∧
      ∀ payout ∈ g.payouts, payout.Due := by
  have hboth : OpenIndex s ∧ Recorded (s, g) := by
    refine hrun.invariant (P := fun x => OpenIndex x.1 ∧ Recorded x) ⟨?_, ?_⟩ ?_
    · obtain ⟨-, rfl⟩ := initializeRegistry_eq_ok.1 hinit
      exact ⟨List.nodup_nil, fun id => by simp⟩
    · refine ⟨sound_initial hinit, fun a info hget => ?_, fun payout hmem => ?_, List.nodup_nil,
        fun payout hmem => ?_⟩
      · obtain ⟨-, rfl⟩ := initializeRegistry_eq_ok.1 hinit
        simp at hget
      · cases hmem
      · cases hmem
    · rintro x tx y ⟨hindex, hrecorded⟩ hok hstep
      exact ⟨openIndex_step hindex ((track_eq_ok _ _ _ _ _).1 hstep).1,
        recorded_step hrecorded hok hstep⟩
  exact ⟨hboth.1, fun tx s' invoiceId round hget hopen hx => open_round_exits hget hopen hx,
    fun tx s' caller invoiceId approved hcall hx => resolved_after_expiry hcall hx,
    hboth.2.distinct, hboth.2.due⟩

/-- An oracle votes, is slashed, and leaves after its cooldown. -/
def sampleExit : List (Tx sampleHost) :=
  [⟨[2], self_ne_two, .set (.setInvoiceContract 2 20)⟩,
    ⟨[3], self_ne_three, .registerOracle 3 100⟩,
    ⟨[9], self_ne_nine, .openVerificationRound 9 7 []⟩,
    ⟨[3], self_ne_three, .submitVote 3 7 true⟩,
    ⟨[2], self_ne_two, .slashOracle 2 3 1000 7 [0]⟩,
    ⟨[3], self_ne_three, .deregisterOracle 3⟩,
    ⟨[], self_notMem_nil, .advance 604805⟩,
    ⟨[9], self_ne_nine, .expireRound 7⟩,
    ⟨[3], self_ne_three, .deregisterOracle 3⟩]

theorem bookkeeping_and_exits_slashed :
    ∃ x : State Unit × History,
      Reaches (track (exec sampleHost) (noteHistory sampleHost)) (Unsaturated sampleHost)
        (sampleStart, {}) x ∧
      x.1.openRounds = [] ∧ (x.2.payouts.map fun payout => (payout.amount, payout.time)) =
        [(90, 604805)] ∧ ∀ payout ∈ x.2.payouts, payout.Due := by
  obtain ⟨x, hx, hp⟩ := exists_of_check
    (x := sampleExit.foldlM (track (exec sampleHost) (noteHistory sampleHost)) (sampleStart, {}))
    (p := fun x => decide (x.1.openRounds = [] ∧
      (x.2.payouts.map fun payout => (payout.amount, payout.time)) = [(90, 604805)]))
    (by decide)
  obtain ⟨hopen, hpayouts⟩ := of_decide_eq_true hp
  have hrun := reaches_of_along .refl
    (show Along _ (Unsaturated sampleHost) _ sampleExit by decide) hx
  have hall := bookkeeping_and_exits initializeRegistry_sampleStart hrun
  exact ⟨x, hrun, hopen, hpayouts, hall.2.2.2.2⟩

/-- The cooldown is as long as the type of the ledger time allows. -/
def endOfTime : List (Tx sampleHost) :=
  [⟨[2], self_ne_two, .set (.setInvoiceContract 2 20)⟩,
    ⟨[2], self_ne_two, .set (.setRegistryConfig 2 100 3 6600 259200 18446744073709551615)⟩,
    ⟨[3], self_ne_three, .registerOracle 3 100⟩,
    ⟨[9], self_ne_nine, .openVerificationRound 9 7 []⟩,
    ⟨[3], self_ne_three, .submitVote 3 7 true⟩,
    ⟨[3], self_ne_three, .deregisterOracle 3⟩,
    ⟨[], self_notMem_nil, .advance 18446744073709551615⟩,
    ⟨[3], self_ne_three, .deregisterOracle 3⟩]

/-- The end of the cooldown is cut off at the end of the ledger time, and the stake comes back five
seconds early. -/
theorem saturated_cooldown_cut_short :
    ∃ x : State Unit × History,
      Reaches (track (exec sampleHost) (noteHistory sampleHost)) (fun _ _ => True)
        (sampleStart, {}) x ∧
      ∃ payout ∈ x.2.payouts, payout.account.lastVote = some 5 ∧
        payout.cooldown = 18446744073709551615 ∧ payout.time < 5 + payout.cooldown := by
  obtain ⟨x, hx, hp⟩ := exists_of_check
    (x := endOfTime.foldlM (track (exec sampleHost) (noteHistory sampleHost)) (sampleStart, {}))
    (p := fun x => decide (∃ payout ∈ x.2.payouts, payout.account.lastVote = some 5 ∧
      payout.cooldown = 18446744073709551615 ∧ payout.time < 5 + payout.cooldown))
    (by decide)
  have hrun := reaches_of_along .refl (along_of_forall (fun _ _ => trivial) _ _) hx
  exact ⟨x, hrun, of_decide_eq_true hp⟩

end Astera.Oracle
