import Astera.Oracle.System

/-!
# What the oracle registry publishes

`publishes` lists the events of a call in order.  Of those that name no round only the topic and the
first component are kept.  `replayStatus` and `replayVoters` read the status of a round and its
voters off the events; in every run they are those that are stored (`Told`).
-/

namespace Astera.Oracle

open Fallible Transition

variable {W : Type}

inductive Event
  | rndOpen (invoiceId activeCount : ℕ) (totalStake : ℤ)
  | voted (invoiceId : ℕ) (oracle : Address) (approved : Bool) (weight : ℤ)
  | consensus (invoiceId : ℕ) (approved : Bool)
  | rndExp (invoiceId : ℕ)
  | fallback (invoiceId : ℕ) (approved : Bool) (caller : Address)
  /-- An event about something else than a round. -/
  | notice (topic : String) (first : Address)
  deriving DecidableEq, Repr

/-! ## Publishing -/

section Publishing

variable (s : State W)

def State.openEvents (invoiceId : ℕ) : Res (List Event) := do
  let (totalStake, activeCount) ← s.oracleIds.foldlM s.countOracle (0, 0)
  return [.rndOpen invoiceId activeCount totalStake]

def State.voteEvents (oracle : Address) (invoiceId : ℕ) (approved : Bool) : Res (List Event) := do
  let info ← s.loadOracle oracle
  let round ← s.loadRound invoiceId
  let round ← round.enter oracle approved info.stakeAmount
  let threshold ← round.threshold
  return .voted invoiceId oracle approved info.stakeAmount ::
    (round.verdict threshold).toList.map (.consensus invoiceId)

def State.departureEvents (operator : Address) : Res (List Event) := do
  let info ← s.loadOracle operator
  return [.notice (if info.deregisterRequestedAt = none then "dreg_req" else "dreg_done") operator]

def Setting.publishes : Setting → List Event
  | .setInvoiceContract _ contract | .setInvoiceContractViaAc _ contract =>
    [.notice "inv_set" contract]
  | .setInvoiceContractGov governance _ => [.notice "gov_inv" governance]
  | .setTreasury admin _ => [.notice "trsr_set" admin, .notice "trs_set" admin]
  | .setTreasuryViaAc _ _ => []
  | .setTreasuryViaGovernance governance _ => [.notice "gov_treas" governance]
  | .setRegistryConfig caller _ _ _ _ _ | .setRegistryConfigViaAc caller _ _ _ _ _ =>
    [.notice "cfg_upd" caller]
  | .setRegistryConfigGov governance _ _ _ _ _ => [.notice "gov_cfg" governance]
  | .setQuorumTiers admin _ => [.notice "tiers_upd" admin]
  | .setQuorumTiersViaGovernance governance _ => [.notice "gov_qrum" governance]
  | .pause admin => [.notice "paused" admin]
  | .unpause admin => [.notice "unpaused" admin]
  | .setPausedViaAc accessControl _ => [.notice "ac_pause" accessControl]
  | .setAccessControl admin _ => [.notice "set_ac" admin]
  | .setAccessControlViaAc accessControl _ => [.notice "ac_rot" accessControl]
  | .setGovernanceAddress admin _ => [.notice "set_gov" admin]

def publishes {h : Host W} (tx : Tx h) : Res (List Event) :=
  match tx.call with
  | .registerOracle operator _ => return [.notice "registrd" operator]
  | .deregisterOracle operator => s.departureEvents operator
  | .slashOracle _ operator _ _ _ | .slashOracleViaAc _ operator _ _ _ =>
    return [.notice "slashed" operator]
  | .withdrawSlashedFunds admin _ _ => return [.notice "withdrawn" admin]
  | .openVerificationRound _ invoiceId _ => s.openEvents invoiceId
  | .submitVote oracle invoiceId approved => s.voteEvents oracle invoiceId approved
  | .expireRound invoiceId => return [.rndExp invoiceId]
  | .adminResolveRound caller invoiceId approved
  | .adminResolveRoundViaAc caller invoiceId approved => return [.fallback invoiceId approved caller]
  | .set setting => return setting.publishes
  | .advance _ | .elsewhere _ | .stakeTransfer _ _ _ => return []

end Publishing

abbrev Log := List (ℕ × Event)

def execIn (h : Host W) (s : State W) (i : ℕ × Tx h) : Res (State W) := exec h s i.2

def noteEvents (h : Host W) (s : State W) (i : ℕ × Tx h) (_ : State W) (log : Log) : Log :=
  log ++ ((publishes s i.2).toOption.getD []).map fun e => (i.1, e)

/-- The ledgers follow each other. -/
def InOrder {h : Host W} (x : State W × Log) (i : ℕ × Tx h) : Prop := ∀ e ∈ x.2, e.1 ≤ i.1

instance {h : Host W} (x : State W × Log) (i : ℕ × Tx h) : Decidable (InOrder x i) :=
  inferInstanceAs (Decidable (∀ e ∈ x.2, e.1 ≤ i.1))

/-! ## Reading the log -/

def Event.round : Event → Option ℕ
  | .rndOpen invoiceId _ _ | .voted invoiceId _ _ _ | .consensus invoiceId _ | .rndExp invoiceId
  | .fallback invoiceId _ _ => some invoiceId
  | .notice _ _ => none

def Event.leadsTo : Event → Option RoundStatus
  | .rndOpen _ _ _ => some .Open
  | .consensus _ approved | .fallback _ approved _ => some (decided approved)
  | .rndExp _ => some .Expired
  | .voted _ _ _ _ | .notice _ _ => none

def Event.takes (invoiceId : ℕ) (e : Event) : Option RoundStatus :=
  if e.round = some invoiceId then e.leadsTo else none

def replayStatus (invoiceId : ℕ) (events : List Event) : Option RoundStatus :=
  (events.filterMap (Event.takes invoiceId)).getLast?

/-- The status of a round after one more event, for a reader who takes a round for open at the
latest when a vote is cast in it. -/
def Event.follow (invoiceId : ℕ) (status : Option RoundStatus) (e : Event) : Option RoundStatus :=
  match e with
  | .voted id _ _ _ => if id = invoiceId then some (status.getD .Open) else status
  | e => (e.takes invoiceId).or status

def followStatus (invoiceId : ℕ) (events : List Event) : Option RoundStatus :=
  events.foldl (Event.follow invoiceId) none

/-- The voters of a round after one more event. -/
def Event.enroll (invoiceId : ℕ) (voters : List Address) : Event → List Address
  | .rndOpen id _ _ => if id = invoiceId then [] else voters
  | .voted id oracle _ _ => if id = invoiceId then oracle :: voters else voters
  | .consensus _ _ | .rndExp _ | .fallback _ _ _ | .notice _ _ => voters

def replayVoters (invoiceId : ℕ) (events : List Event) : List Address :=
  events.foldl (Event.enroll invoiceId) []

/-- The stored rounds are those that the events tell. -/
structure Told (s : State W) (events : List Event) : Prop where
  status : ∀ invoiceId, replayStatus invoiceId events = (s.rounds.get invoiceId).map (·.status)
  followed : ∀ invoiceId, followStatus invoiceId events = (s.rounds.get invoiceId).map (·.status)
  voters : ∀ invoiceId round, s.rounds.get invoiceId = some round →
    ∀ a, a ∈ replayVoters invoiceId events ↔ (round.votes.get a).isSome
  known : ∀ e ∈ events, ∀ invoiceId, e.round = some invoiceId → (s.rounds.get invoiceId).isSome

section Told

variable {h : Host W} {s s' : State W} {events new : List Event}

theorem told_initial {now : ℕ} {world : W} {balances : Address → ℤ} {admin stakeToken : Address}
    {minStake : ℤ}
    (hinit : initializeRegistry now world balances admin stakeToken minStake = .ok s) :
    Told s [] := by
  obtain ⟨-, rfl⟩ := initializeRegistry_eq_ok.1 hinit
  refine ⟨fun _ => ?_, fun _ => ?_, fun _ _ hget => ?_, fun _ he => absurd he List.not_mem_nil⟩
  · simp [replayStatus]
  · simp [followStatus]
  · simp at hget

theorem replay_of_other {invoiceId : ℕ} (hother : ∀ e ∈ new, e.round ≠ some invoiceId) :
    replayStatus invoiceId (events ++ new) = replayStatus invoiceId events ∧
      followStatus invoiceId (events ++ new) = followStatus invoiceId events ∧
      replayVoters invoiceId (events ++ new) = replayVoters invoiceId events := by
  have hfold {γ : Type} (f : γ → Event → γ) (hf : ∀ g, ∀ e ∈ new, f g e = g) (g : γ) :
      (events ++ new).foldl f g = events.foldl f g := by
    rw [List.foldl_append]
    generalize events.foldl f g = g'
    induction new with
    | nil => rfl
    | cons e new ih =>
      rw [List.foldl_cons, hf _ _ List.mem_cons_self]
      exact ih (fun e he => hother e (List.mem_cons_of_mem _ he))
        fun g e he => hf g e (List.mem_cons_of_mem _ he)
  refine ⟨?_, hfold _ (fun status e he => ?_) _, hfold _ (fun voters e he => ?_) _⟩
  · have hnone : new.filterMap (Event.takes invoiceId) = [] :=
      List.filterMap_eq_nil_iff.2 fun e he => if_neg (hother e he)
    rw [replayStatus, List.filterMap_append, hnone, List.append_nil, replayStatus]
  · have hne := hother e he
    cases e <;> simp_all [Event.follow, Event.takes, Event.round]
  · have hne := hother e he
    cases e <;> simp_all [Event.enroll, Event.round]

theorem Told.congr (hs : Told s events) (hget : ∀ invoiceId, s'.rounds.get invoiceId =
    s.rounds.get invoiceId) : Told s' events := by
  refine ⟨fun invoiceId => ?_, fun invoiceId => ?_, fun invoiceId round hround => ?_,
    fun e he invoiceId hround => ?_⟩
  · rw [hget]
    exact hs.status invoiceId
  · rw [hget]
    exact hs.followed invoiceId
  · rw [hget] at hround
    exact hs.voters invoiceId round hround
  · rw [hget]
    exact hs.known e he invoiceId hround

theorem Told.same (hs : Told s events) (hrounds : s'.rounds = s.rounds)
    (hother : ∀ e ∈ new, e.round = none) : Told s' (events ++ new) := by
  have hreplay (invoiceId : ℕ) : replayStatus invoiceId (events ++ new) = _ ∧ _ ∧ _ :=
    replay_of_other fun e he heq => by simp [hother e he] at heq
  refine ⟨fun invoiceId => ?_, fun invoiceId => ?_, fun invoiceId round hget a => ?_,
    fun e he invoiceId hround => ?_⟩
  · rw [(hreplay invoiceId).1, hrounds]
    exact hs.status invoiceId
  · rw [(hreplay invoiceId).2.1, hrounds]
    exact hs.followed invoiceId
  · rw [(hreplay invoiceId).2.2]
    rw [hrounds] at hget
    exact hs.voters invoiceId round hget a
  · rw [hrounds]
    rcases List.mem_append.1 he with he | he
    · exact hs.known e he invoiceId hround
    · rw [hother e he] at hround
      cases hround

theorem Told.write (hs : Told s events) {invoiceId : ℕ} {round : VerificationRound}
    (hrounds : s'.rounds = s.rounds.set invoiceId round)
    (habout : ∀ e ∈ new, e.round = some invoiceId)
    (hstatus : replayStatus invoiceId (events ++ new) = some round.status)
    (hfollowed : followStatus invoiceId (events ++ new) = some round.status)
    (hvoters : ∀ a, a ∈ replayVoters invoiceId (events ++ new) ↔ (round.votes.get a).isSome) :
    Told s' (events ++ new) := by
  have hreplay {other : ℕ} (hne : other ≠ invoiceId) :
      replayStatus other (events ++ new) = _ ∧ _ ∧ _ :=
    replay_of_other fun e he heq => by
      rw [habout e he] at heq
      exact hne (Option.some.inj heq).symm
  refine ⟨fun other => ?_, fun other => ?_, fun other round' hget a => ?_, fun e he other hround => ?_⟩
  · rw [hrounds, Store.get_set]
    split_ifs with hother
    · rw [hother, hstatus]
      rfl
    · rw [(hreplay hother).1]
      exact hs.status other
  · rw [hrounds, Store.get_set]
    split_ifs with hother
    · rw [hother, hfollowed]
      rfl
    · rw [(hreplay hother).2.1]
      exact hs.followed other
  · rw [hrounds, Store.get_set] at hget
    split_ifs at hget with hother
    · obtain rfl := Option.some.inj hget
      rw [hother]
      exact hvoters a
    · rw [(hreplay hother).2.2]
      exact hs.voters other round' hget a
  · rw [hrounds, Store.get_set]
    split_ifs with hother
    · rfl
    · rcases List.mem_append.1 he with he | he
      · exact hs.known e he other hround
      · rw [habout e he] at hround
        exact absurd (Option.some.inj hround).symm hother

theorem openEvents_of_ok {signers : List Address} {caller : Address} {invoiceId : ℕ}
    {oracleHash : Invoices.Bytes}
    (hx : openVerificationRound h signers s caller invoiceId oracleHash = .ok s') :
    ∃ activeCount totalStake, s.openEvents invoiceId =
      .ok [.rndOpen invoiceId activeCount totalStake] := by
  simp only [openVerificationRound, bind_eq_ok, exists_unit, Prod.exists] at hx
  obtain ⟨-, -, -, _, -, _, _, -, -, totalStake, activeCount, hfold, -⟩ := hx
  exact ⟨activeCount, totalStake, by simp only [State.openEvents, hfold]; rfl⟩

theorem voteEvents_of_ok {signers : List Address} {oracle : Address} {invoiceId : ℕ}
    {approved : Bool} {info : OracleInfo} {round : VerificationRound}
    (hx : submitVote h signers s oracle invoiceId approved = .ok s')
    (hvotes : Votes s oracle invoiceId info round) :
    s.voteEvents oracle invoiceId approved =
      .ok (.voted invoiceId oracle approved info.stakeAmount ::
        ((round.entered oracle approved info.stakeAmount).verdict
          (round.entered oracle approved info.stakeAmount).quorum).toList.map
            (.consensus invoiceId)) := by
  simp only [submitVote, bind_eq_ok, exists_unit, loadOracle_eq_ok, loadRound_eq_ok] at hx
  obtain ⟨-, -, info', hinfo, -, -, -, round', hround, -, -, -, entered, henter, _, -, threshold,
    hthreshold, -⟩ := hx
  obtain rfl := Option.some.inj (hinfo.symm.trans hvotes.info_get)
  obtain rfl := Option.some.inj (hround.symm.trans hvotes.round_get)
  obtain rfl := enter_eq_ok henter
  obtain rfl := threshold_eq_ok hthreshold
  simp only [State.voteEvents, loadOracle_eq_ok.2 hinfo, loadRound_eq_ok.2 hround]
  show ((round'.enter oracle approved info'.stakeAmount) >>= _) = _
  rw [henter]
  show (VerificationRound.threshold _ >>= _) = _
  rw [hthreshold]
  rfl

theorem round_of_publishes {tx : Tx h} {events : List Event} (hpublishes : publishes s tx = .ok events)
    (hopen : ∀ caller id hash, tx.call ≠ .openVerificationRound caller id hash)
    (hvote : ∀ oracle id approved, tx.call ≠ .submitVote oracle id approved)
    (hexpire : ∀ id, tx.call ≠ .expireRound id)
    (hresolve : ∀ caller id approved, tx.call ≠ .adminResolveRound caller id approved ∧
      tx.call ≠ .adminResolveRoundViaAc caller id approved) :
    ∀ e ∈ events, e.round = none := by
  obtain ⟨signers, hself, call⟩ := tx
  cases call with
  | openVerificationRound caller id hash => exact absurd rfl (hopen caller id hash)
  | submitVote oracle id approved => exact absurd rfl (hvote oracle id approved)
  | expireRound id => exact absurd rfl (hexpire id)
  | adminResolveRound caller id approved => exact absurd rfl (hresolve caller id approved).1
  | adminResolveRoundViaAc caller id approved => exact absurd rfl (hresolve caller id approved).2
  | deregisterOracle operator =>
    simp only [publishes, State.departureEvents, bind_eq_ok, pure_eq_ok] at hpublishes
    obtain ⟨info, -, rfl⟩ := hpublishes
    simp [Event.round]
  | set setting =>
    simp only [publishes, pure_eq_ok] at hpublishes
    subst hpublishes
    cases setting <;> simp [Setting.publishes, Event.round]
  | _ =>
    simp only [publishes, pure_eq_ok] at hpublishes
    subst hpublishes
    simp [Event.round]

/-! ## Every run -/

theorem replayStatus_append (invoiceId : ℕ) (e : Event) :
    replayStatus invoiceId (events ++ [e]) =
      (e.takes invoiceId).or (replayStatus invoiceId events) := by
  unfold replayStatus
  rw [List.filterMap_append]
  cases he : e.takes invoiceId with
  | none => simp [he]
  | some status => simp [he]

theorem followStatus_append (invoiceId : ℕ) (e : Event) :
    followStatus invoiceId (events ++ [e]) = e.follow invoiceId (followStatus invoiceId events) := by
  rw [followStatus, List.foldl_append, List.foldl_cons, List.foldl_nil, followStatus]

theorem replayVoters_append (invoiceId : ℕ) (e : Event) :
    replayVoters invoiceId (events ++ [e]) =
      e.enroll invoiceId (replayVoters invoiceId events) := by
  rw [replayVoters, List.foldl_append, List.foldl_cons, List.foldl_nil, replayVoters]

theorem exists_voted_of_mem_replayVoters {invoiceId : ℕ} {a : Address} {events : List Event}
    (hmem : a ∈ replayVoters invoiceId events) :
    ∃ approved weight, .voted invoiceId a approved weight ∈ events := by
  induction events using List.reverseRecOn with
  | nil => cases hmem
  | append_singleton events e ih =>
    rw [replayVoters_append] at hmem
    have hbefore (hmem : a ∈ replayVoters invoiceId events) :
        ∃ approved weight, .voted invoiceId a approved weight ∈ events ++ [e] := by
      obtain ⟨approved, weight, he⟩ := ih hmem
      exact ⟨approved, weight, List.mem_append_left _ he⟩
    cases e with
    | voted id oracle approved weight =>
      rw [Event.enroll] at hmem
      split_ifs at hmem with hid
      · rcases List.mem_cons.1 hmem with rfl | hmem
        · exact ⟨approved, weight, by simp [hid]⟩
        · exact hbefore hmem
      · exact hbefore hmem
    | rndOpen id activeCount totalStake =>
      rw [Event.enroll] at hmem
      split_ifs at hmem
      · cases hmem
      · exact hbefore hmem
    | _ => exact hbefore hmem

theorem Told.opened (hs : Told s events) {invoiceId activeCount : ℕ} {totalStake : ℤ}
    {oracleHash : Invoices.Bytes} {round : VerificationRound}
    (hopens : OpensRound h s invoiceId oracleHash round)
    (hrounds : s'.rounds = s.rounds.set invoiceId round) :
    Told s' (events ++ [.rndOpen invoiceId activeCount totalStake]) := by
  obtain ⟨_, _, -, -, rfl⟩ := hopens.awaiting
  refine hs.write hrounds (by simp [Event.round]) ?_ ?_ fun a => ?_
  · rw [replayStatus_append]
    simp [Event.takes, Event.round, Event.leadsTo, State.newRound]
  · rw [followStatus_append]
    simp [Event.follow, Event.takes, Event.round, Event.leadsTo, State.newRound]
  · rw [replayVoters_append]
    simp [Event.enroll, State.newRound]

theorem Told.voted (hs : Told s events) {oracle : Address} {invoiceId : ℕ} {approved : Bool}
    {info : OracleInfo} {round : VerificationRound} (hvotes : Votes s oracle invoiceId info round)
    (hrounds : s'.rounds =
      s.rounds.set invoiceId (round.entered oracle approved info.stakeAmount)) :
    Told s' (events ++ [.voted invoiceId oracle approved info.stakeAmount]) := by
  refine hs.write hrounds (by simp [Event.round]) ?_ ?_ fun a => ?_
  · rw [replayStatus_append, hs.status, hvotes.round_get]
    simp [Event.takes, Event.leadsTo, VerificationRound.entered]
  · rw [followStatus_append, hs.followed, hvotes.round_get]
    simp [Event.follow, VerificationRound.entered]
  · rw [replayVoters_append]
    have hbefore := hs.voters invoiceId round hvotes.round_get a
    simp only [Event.enroll, if_true, List.mem_cons, hbefore, VerificationRound.entered,
      Store.get_set]
    split_ifs with ha
    · simp [ha]
    · simp [ha]

theorem Told.moves (hs : Told s events) {invoiceId : ℕ} {round : VerificationRound} {e : Event}
    {status : RoundStatus} (hget : s.rounds.get invoiceId = some round)
    (hround : e.round = some invoiceId) (hleads : e.leadsTo = some status)
    (hfollow : ∀ before, e.follow invoiceId before = some status)
    (henroll : ∀ voters, e.enroll invoiceId voters = voters)
    (hrounds : s'.rounds = s.rounds.set invoiceId { round with status := status }) :
    Told s' (events ++ [e]) := by
  refine hs.write hrounds (by simpa using hround) ?_ ?_ fun a => ?_
  · rw [replayStatus_append, Event.takes, if_pos hround, hleads]
    rfl
  · rw [followStatus_append, hfollow]
  · rw [replayVoters_append, henroll]
    exact hs.voters invoiceId round hget a

theorem Told.exec {tx : Tx h} (hs : Told s events) (hx : exec h s tx = .ok s') :
    Told s' (events ++ (publishes s tx).toOption.getD []) := by
  have hquiet (hrounds : s'.rounds = s.rounds)
      (hnone : ∀ es, publishes s tx = .ok es → ∀ e ∈ es, e.round = none) :
      Told s' (events ++ (publishes s tx).toOption.getD []) := by
    refine hs.same hrounds fun e he => ?_
    cases hpublishes : publishes s tx with
    | error f => simp [hpublishes, Except.toOption] at he
    | ok es =>
      rw [hpublishes] at he
      exact hnone es hpublishes e he
  cases exec_effect hx with
  | @opened caller invoiceId oracleHash round hcall hopens =>
    have hevents : publishes s tx = s.openEvents invoiceId := by rw [publishes, hcall]
    unfold Oracle.exec at hx
    rw [hcall] at hx
    obtain ⟨activeCount, totalStake, hok⟩ := openEvents_of_ok hx
    rw [hevents, hok]
    exact hs.opened hopens rfl
  | @counted oracle invoiceId approved info round hcall hvotes hverdict =>
    have hevents : publishes s tx = s.voteEvents oracle invoiceId approved := by
      rw [publishes, hcall]
    unfold Oracle.exec at hx
    rw [hcall] at hx
    rw [hevents, voteEvents_of_ok hx hvotes, hverdict]
    refine hs.voted hvotes ?_
    obtain ⟨history, count, heq⟩ := credited_eq (s := s) oracle info invoiceId
    rw [State.voted, heq]
    rfl
  | @decided oracle invoiceId approved outcome info round world hcall hvotes hverdict haccepts =>
    have hevents : publishes s tx = s.voteEvents oracle invoiceId approved := by
      rw [publishes, hcall]
    unfold Oracle.exec at hx
    rw [hcall] at hx
    rw [hevents, voteEvents_of_ok hx hvotes, hverdict]
    -- the vote is entered first, then the round is decided
    set entered := round.entered oracle approved info.stakeAmount with hentered
    have hvoted : Told (s.setRound invoiceId entered)
        (events ++ [.voted invoiceId oracle approved info.stakeAmount]) := hs.voted hvotes rfl
    have hdecided : Told ((s.setRound invoiceId entered).setRound invoiceId
        { entered with status := Oracle.decided outcome })
        (events ++ [.voted invoiceId oracle approved info.stakeAmount] ++
          [.consensus invoiceId outcome]) :=
      hvoted.moves (Store.get_set_self _ _ _) rfl rfl
        (fun _ => by simp [Event.follow, Event.takes, Event.round, Event.leadsTo]) (fun _ => rfl) rfl
    rw [List.append_assoc] at hdecided
    refine hdecided.congr fun other => ?_
    obtain ⟨history, count, heq⟩ := credited_eq (s := s) oracle info invoiceId
    rw [State.closed, heq]
    show (s.rounds.set invoiceId _).get other = ((s.rounds.set invoiceId _).set invoiceId _).get other
    simp only [Store.get_set]
    split_ifs
    · rfl
    · rfl
  | @expired invoiceId round hcall hget hopen hlate =>
    have hevents : publishes s tx = .ok [.rndExp invoiceId] := by rw [publishes, hcall]; rfl
    rw [hevents]
    exact hs.moves hget rfl rfl (fun _ => by simp [Event.follow, Event.takes, Event.round, Event.leadsTo])
      (fun _ => rfl) rfl
  | @resolved invoiceId approved round world hcall hget hexpired hlate haccepts =>
    obtain ⟨caller, hcall⟩ := hcall
    have hevents : publishes s tx = .ok [.fallback invoiceId approved caller] := by
      rcases hcall with hcall | hcall
      · rw [publishes, hcall]
        rfl
      · rw [publishes, hcall]
        rfl
    rw [hevents]
    exact hs.moves hget rfl rfl (fun _ => by simp [Event.follow, Event.takes, Event.round, Event.leadsTo])
      (fun _ => rfl) rfl
  | registered hcall | requested hcall | departed hcall | withdrew hcall | configured hcall
  | advanced hcall | elsewhere hcall | transferred hcall =>
    exact hquiet rfl fun es hes => round_of_publishes hes (by simp [hcall]) (by simp [hcall])
      (by simp [hcall]) (by simp [hcall])
  | slashed hcall =>
    obtain ⟨caller, hcall | hcall⟩ := hcall
    · exact hquiet rfl fun es hes => round_of_publishes hes (by simp [hcall]) (by simp [hcall])
        (by simp [hcall]) (by simp [hcall])
    · exact hquiet rfl fun es hes => round_of_publishes hes (by simp [hcall]) (by simp [hcall])
        (by simp [hcall]) (by simp [hcall])

theorem told_run {now : ℕ} {world : W} {balances : Address → ℤ} {admin stakeToken : Address}
    {minStake : ℤ} {s₀ : State W} {log : Log}
    (hinit : initializeRegistry now world balances admin stakeToken minStake = .ok s₀)
    (hrun : Reaches (track (execIn h) (noteEvents h)) InOrder (s₀, []) (s, log)) :
    Told s (log.map Prod.snd) ∧ log.Pairwise fun x y => x.1 ≤ y.1 := by
  apply hrun.invariant
    (P := fun x => Told x.1 (x.2.map Prod.snd) ∧ x.2.Pairwise fun x y => x.1 ≤ y.1)
  · exact ⟨told_initial hinit, List.Pairwise.nil⟩
  · intro x i x' hx horder hstep
    obtain ⟨hexec, hlog⟩ := (track_eq_ok _ _ _ _ _).1 hstep
    rw [hlog, noteEvents]
    constructor
    · rw [List.map_append, List.map_map]
      simpa [Function.comp_def] using hx.1.exec hexec
    · refine List.pairwise_append.2 ⟨hx.2, ?_, fun e he e' he' => ?_⟩
      · exact List.pairwise_map.2 (List.pairwise_of_forall fun _ _ => le_rfl)
      · obtain ⟨e', -, rfl⟩ := List.mem_map.1 he'
        exact horder e he

end Told

end Astera.Oracle
