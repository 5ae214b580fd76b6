import Astera.Lib.Roster
import Astera.Pool.Rounds

/-!
# Co-funding rounds in order

The participants of a round are meant to be a roster of the basis points, and of the commitments
while it is open.  An address joins the list when its basis points are zero, which by rounding they
may be although it is listed.  The rounds stay in order as long as no such address joins again.
-/

namespace Astera.Pool

open Fallible Machine Transition Roster

variable {W : Type}

/-- An open round: the commitments add up to the committed principal, and nobody has more basis
points than its commitment is worth. -/
structure OpenOk (share : Address → ℕ) (committed : Address → ℤ) (round : CoFundingRound) :
    Prop where
  target : 0 < round.targetPrincipal
  roster : IsRoster round.participants committed
  principal : round.committedPrincipal = total round.participants committed
  le : round.committedPrincipal ≤ round.targetPrincipal
  range : round.committedPrincipal < 2 ^ 127
  nonneg : ∀ a, 0 ≤ committed a
  covered : ∀ a, (share a : ℤ) * round.targetPrincipal ≤ committed a * 10000

structure RoundOk (share : Address → ℕ) (committed : Address → ℤ) (round : CoFundingRound) :
    Prop where
  roster : IsRoster round.participants share
  bps : total round.participants share ≤ 10000
  whenOpen : round.status = .Open → OpenOk share committed round

/-- All rounds are in order, and the record of a co-funded loan belongs to a filled round. -/
structure RoundsOk (s : State W) : Prop where
  keys : ∀ id round, s.rounds.get id = some round → round.invoiceId = id
  unopened : ∀ id, s.rounds.get id = none →
    (∀ a, s.coFundShare id a = 0) ∧ ∀ a, s.coFundCommitted id a = 0
  filled : ∀ id record roundId, s.funded.get id = some record →
    record.coFundingRoundId = some roundId →
    roundId = id ∧ ∃ round, s.rounds.get id = some round ∧ round.status = .Filled
  ok : ∀ id round, s.rounds.get id = some round →
    RoundOk (s.coFundShare id) (s.coFundCommitted id) round

/-! ## One round -/

section Round

variable {share share' : Address → ℕ} {committed : Address → ℤ} {round : CoFundingRound}
  {investor seller buyer : Address}

theorem OpenOk.share_eq_zero (ho : OpenOk share committed round) {a : Address}
    (ha : committed a = 0) : share a = 0 := by
  have hcov := ho.covered a
  rw [ha, zero_mul] at hcov
  have hle : (share a : ℤ) ≤ 0 := nonpos_of_mul_nonpos_left hcov ho.target
  omega

theorem total_share_le {target : ℤ} (htarget : 0 < target) :
    ∀ {members : List Address},
      (∀ a, (share a : ℤ) * target ≤ committed a * 10000) →
      total members committed ≤ target → total members share ≤ 10000 := by
  intro members hcov hle
  have hsum : ((total members share : ℕ) : ℤ) * target ≤ total members committed * 10000 := by
    clear hle
    induction members with
    | nil => simp [total]
    | cons a members ih =>
      have ha := hcov a
      simp only [total, List.map_cons, List.sum_cons, Nat.cast_add] at ih ⊢
      rw [add_mul, add_mul]
      exact add_le_add ha ih
  have hscaled : ((total members share : ℕ) : ℤ) * target ≤ 10000 * target := by
    linarith
  have hbound := le_of_mul_le_mul_right hscaled htarget
  omega

theorem OpenOk.roundOk (ho : OpenOk share committed round) : RoundOk share committed round := by
  refine ⟨⟨ho.roster.nodup, fun a ha => ?_⟩, ?_, fun _ => ho⟩
  · apply ho.roster.listed a
    intro hzero
    exact ha (ho.share_eq_zero hzero)
  · exact total_share_le ho.target ho.covered (ho.principal ▸ ho.le)

theorem commitmentBps_le {principal target : ℤ} {bps : ℕ} (hnn : 0 ≤ principal)
    (hle : principal ≤ target) (htarget : target < 2 ^ 64)
    (hb : commitmentBps principal target = .ok bps) : (bps : ℤ) * target ≤ principal * 10000 := by
  unfold commitmentBps at hb
  simp only [bind_eq_ok, okOr_eq_ok, fitU_eq_some, require_eq_ok, exists_unit, pure_eq_ok] at hb
  obtain ⟨_, ⟨rfl, -⟩, hne, rfl⟩ := hb
  have hp : (toU 64 principal : ℤ) = principal := toU_of_nonneg 64 principal hnn (by omega)
  have ht : (toU 64 target : ℤ) = target := toU_of_nonneg 64 target (by omega) htarget
  have htrunc : truncU 32 (toU 64 principal * bpsDenom / toU 64 target) ≤
      toU 64 principal * bpsDenom / toU 64 target := Nat.mod_le _ _
  have hdiv : toU 64 principal * bpsDenom / toU 64 target * toU 64 target ≤
      toU 64 principal * bpsDenom := Nat.div_mul_le_self _ _
  have hmul : truncU 32 (toU 64 principal * bpsDenom / toU 64 target) * toU 64 target ≤
      toU 64 principal * 10000 := (Nat.mul_le_mul_right _ htrunc).trans hdiv
  have hcast : ((truncU 32 (toU 64 principal * bpsDenom / toU 64 target) : ℕ) : ℤ) *
      (toU 64 target : ℤ) ≤ (toU 64 principal : ℤ) * 10000 := by
    exact_mod_cast hmul
  rwa [hp, ht] at hcast

theorem OpenOk.commit {added : ℤ} {newBps : ℕ} (ho : OpenOk share committed round)
    (hjoin : investor ∈ round.participants → share investor ≠ 0) (hpos : 0 < added)
    (hfits : round.committedPrincipal + added ≤ round.targetPrincipal)
    (hrange : round.committedPrincipal + added < 2 ^ 127)
    (hbps : (newBps : ℤ) * round.targetPrincipal ≤ (committed investor + added) * 10000) :
    OpenOk (Function.update share investor newBps)
      (Function.update committed investor (committed investor + added))
      { round with
        participants := if share investor = 0 then round.participants ++ [investor]
          else round.participants
        committedPrincipal := round.committedPrincipal + added } := by
  have hroster : IsRoster (if share investor = 0 then round.participants ++ [investor]
        else round.participants)
        (Function.update committed investor (committed investor + added)) ∧
      round.committedPrincipal + added = total (if share investor = 0 then
        round.participants ++ [investor] else round.participants)
        (Function.update committed investor (committed investor + added)) := by
    split_ifs with hzero
    · have hout : investor ∉ round.participants := fun hin => hjoin hin hzero
      refine ⟨ho.roster.join hout _, ?_⟩
      rw [total_join hout, ho.principal, ho.roster.part_eq_zero hout]
      ring
    · have hin : investor ∈ round.participants := ho.roundOk.roster.listed investor hzero
      refine ⟨ho.roster.update hin _, ?_⟩
      have hsum := ho.roster.total_update hin (committed investor + added)
      rw [ho.principal]
      linarith
  refine ⟨ho.target, hroster.1, hroster.2, hfits, hrange, fun a => ?_, fun a => ?_⟩
  · have hnn := ho.nonneg a
    by_cases ha : a = investor
    · subst ha
      rw [Function.update_self]
      omega
    · rw [Function.update_of_ne ha]
      exact hnn
  · by_cases ha : a = investor
    · subst ha
      rw [Function.update_self, Function.update_self]
      exact hbps
    · rw [Function.update_of_ne ha, Function.update_of_ne ha]
      exact ho.covered a

theorem OpenOk.withdraw (ho : OpenOk share committed round) (investor : Address) :
    OpenOk (Function.update share investor 0) (Function.update committed investor 0)
      (removeParticipant { round with
        committedPrincipal :=
          saturatingSub round.committedPrincipal (committed investor) } investor) := by
  have hsum := ho.roster.total_leave investor
  have hnn := ho.nonneg investor
  have hrest : 0 ≤ total (round.participants.filter fun a => a ≠ investor)
      (Function.update committed investor 0) := by
    apply List.sum_nonneg
    intro x hx
    obtain ⟨a, -, rfl⟩ := List.mem_map.1 hx
    rw [Function.update_apply]
    split_ifs
    · exact le_rfl
    · exact ho.nonneg a
  have hprincipal := ho.principal
  have hrange := ho.range
  have hle := ho.le
  have hsat : saturatingSub round.committedPrincipal (committed investor) =
      total (round.participants.filter fun a => a ≠ investor)
        (Function.update committed investor 0) := by
    rw [saturatingSub_eq _ _ ⟨by omega, by omega⟩]
    omega
  refine ⟨ho.target, ho.roster.leave investor, hsat, ?_, ?_, fun a => ?_, fun a => ?_⟩
  · show saturatingSub round.committedPrincipal (committed investor) ≤ round.targetPrincipal
    omega
  · show saturatingSub round.committedPrincipal (committed investor) < 2 ^ 127
    omega
  · rw [Function.update_apply]
    split_ifs
    · exact le_rfl
    · exact ho.nonneg a
  · by_cases ha : a = investor
    · subst ha
      simp
    · rw [Function.update_of_ne ha, Function.update_of_ne ha]
      exact ho.covered a

theorem RoundOk.close {status : CoFundingStatus} (hr : RoundOk share committed round)
    (hstatus : status ≠ .Open) : RoundOk share committed { round with status := status } :=
  ⟨hr.roster, hr.bps, fun hopen => absurd hopen hstatus⟩

theorem OpenOk.expire {committed' : Address → ℤ} (ho : OpenOk share committed round)
    (hcleared : Refunded round.participants committed share share') :
    RoundOk share' committed'
      { round with committedPrincipal := 0, participants := [], status := .Expired } := by
  have hzero : ∀ a, share' a = 0 := by
    intro a
    rcases hcleared a with hz | ⟨hkept, hrefunded⟩
    · exact hz
    · rw [hkept]
      apply ho.share_eq_zero
      by_cases hin : a ∈ round.participants
      · exact hrefunded hin
      · exact ho.roster.part_eq_zero hin
  exact ⟨isRoster_nil hzero, Nat.zero_le _, fun hopen => nomatch hopen⟩

theorem isRoster_trade {members : List Address} {newFrom : ℕ} (newTo : ℕ)
    (hroster : IsRoster members share) (hne : seller ≠ buyer)
    (hjoin : buyer ∈ members → share buyer ≠ 0) (hfrom : newFrom ≤ share seller) :
    IsRoster (tradedList members seller buyer newFrom (share buyer))
      (Function.update (Function.update share seller newFrom) buyer newTo) ∧
    total (tradedList members seller buyer newFrom (share buyer))
        (Function.update (Function.update share seller newFrom) buyer newTo) +
      (share seller + share buyer) = total members share + (newFrom + newTo) := by
  -- the seller's part changes first
  have hseller : ∃ rest, (if newFrom = 0 then members.filter fun a => a ≠ seller else members) =
      rest ∧ IsRoster rest (Function.update share seller newFrom) ∧
      total rest (Function.update share seller newFrom) + share seller =
        total members share + newFrom ∧ (buyer ∈ rest → buyer ∈ members) := by
    split_ifs with hzero
    · rw [hzero]
      exact ⟨_, rfl, hroster.leave seller, hroster.total_leave seller,
        fun hin => (List.mem_filter.1 hin).1⟩
    · have hin : seller ∈ members := hroster.listed seller (by omega)
      exact ⟨_, rfl, hroster.update hin newFrom, hroster.total_update hin newFrom, id⟩
  obtain ⟨rest, hrest, hroster₁, hsum₁, hmem⟩ := hseller
  have hbuyer : Function.update share seller newFrom buyer = share buyer :=
    Function.update_of_ne (Ne.symm hne) _ _
  unfold tradedList
  rw [hrest]
  dsimp only
  split_ifs with hzero
  · have hout : buyer ∉ rest := fun hin => hjoin (hmem hin) hzero
    refine ⟨hroster₁.join hout newTo, ?_⟩
    rw [total_join hout, hzero]
    omega
  · have hin : buyer ∈ rest := hroster₁.listed buyer (hbuyer ▸ hzero)
    refine ⟨hroster₁.update hin newTo, ?_⟩
    have hsum₂ := hroster₁.total_update hin newTo
    rw [hbuyer] at hsum₂
    omega

theorem RoundOk.trade {newFrom newTo : ℕ} (hr : RoundOk share committed round)
    (hstatus : round.status = .Filled) (hne : seller ≠ buyer)
    (hjoin : buyer ∈ round.participants → share buyer ≠ 0) (hfrom : newFrom ≤ share seller)
    (hsum : newFrom + newTo ≤ share seller + share buyer) :
    RoundOk (Function.update (Function.update share seller newFrom) buyer newTo) committed
      { round with
        participants := tradedList round.participants seller buyer newFrom (share buyer) } := by
  obtain ⟨hroster, htotal⟩ := isRoster_trade newTo hr.roster hne hjoin hfrom
  have hbps := hr.bps
  refine ⟨hroster, ?_, fun hopen => ?_⟩
  · show total (tradedList round.participants seller buyer newFrom (share buyer)) _ ≤ 10000
    omega
  · rw [hstatus] at hopen
    cases hopen

end Round

/-! ## Every call -/

/-- An address that is about to join a round is not on its list without basis points. -/
def JoinsOnce (s : State W) (id : ℕ) (a : Address) : Prop :=
  ∀ round, s.rounds.get id = some round → a ∈ round.participants → s.coFundShare id a ≠ 0

/-- The condition on a call: an address joins a round once, commitments go to rounds whose target
fits 64 bits, and basis points are transferred for loans that came from their round. -/
def RoundCallOk (h : Host W) (s : State W) (tx : Tx h) : Prop :=
  match tx.call with
  | .commitToInvoice investor invoiceId _ => JoinsOnce s invoiceId investor ∧
      ∀ round, s.rounds.get invoiceId = some round → round.targetPrincipal < 2 ^ 64
  | .transferCoFundShare _ invoiceId _ receiver _ => JoinsOnce s invoiceId receiver ∧
      ∀ record, s.funded.get invoiceId = some record → record.coFundingRoundId ≠ none
  | .marketSettleListing _ listing =>
    listing.isCoFunding = true → JoinsOnce s listing.invoiceId listing.buyer
  | _ => True

instance (s : State W) (id : ℕ) (a : Address) : Decidable (JoinsOnce s id a) :=
  inferInstanceAs (Decidable (∀ round ∈ s.rounds.get id,
    a ∈ round.participants → s.coFundShare id a ≠ 0))

instance (h : Host W) (s : State W) (tx : Tx h) : Decidable (RoundCallOk h s tx) := by
  obtain ⟨signers, hself, call⟩ := tx
  cases call with
  | commitToInvoice investor invoiceId amount =>
    exact inferInstanceAs (Decidable (JoinsOnce s invoiceId investor ∧
      ∀ round ∈ s.rounds.get invoiceId, round.targetPrincipal < 2 ^ 64))
  | transferCoFundShare sender invoiceId token receiver bps =>
    exact inferInstanceAs (Decidable (JoinsOnce s invoiceId receiver ∧
      ∀ record ∈ s.funded.get invoiceId, record.coFundingRoundId ≠ none))
  | marketSettleListing market listing =>
    exact inferInstanceAs (Decidable (listing.isCoFunding = true →
      JoinsOnce s listing.invoiceId listing.buyer))
  | _ => exact .isTrue trivial

section Step

variable {h : Host W} {signers : List Address} {s s₁ s' : State W} {id invoiceId : ℕ}
  {round : CoFundingRound} {share : Address → ℕ} {committed : Address → ℤ}

theorem RoundsOk.of_frame (hs : RoundsOk s) (hframe : RoundFrame s s')
    (hrecords : SameRounds s s') : RoundsOk s' := by
  obtain ⟨hrounds, hshare, hcommitted⟩ := hframe
  refine ⟨?_, ?_, ?_, ?_⟩
  · rw [hrounds]
    exact hs.keys
  · rw [hrounds, hshare, hcommitted]
    exact hs.unopened
  · intro id record roundId hget hround
    obtain ⟨old, hold, heq⟩ := hrecords id record hget (by simp [hround])
    rw [hrounds]
    exact hs.filled id old roundId hold (heq.trans hround)
  · rw [hrounds, hshare, hcommitted]
    exact hs.ok

theorem RoundsOk.of_write (hs : RoundsOk s) (hw : RoundWrite s s' id round share committed)
    (hkey : round.invoiceId = id) (hok : RoundOk share committed round)
    (hclosed : KeepsClosed s s') (hrecords : SameRounds s s') : RoundsOk s' := by
  refine ⟨fun k r hget => ?_, fun k hget => ?_, fun k record roundId hget hround => ?_,
    fun k r hget => ?_⟩
  · rw [hw.get] at hget
    split_ifs at hget with hk
    · rw [hk, ← Option.some.inj hget, hkey]
    · exact hs.keys k r hget
  · rw [hw.get] at hget
    split_ifs at hget with hk
    obtain ⟨-, hshare, hcommitted⟩ := hw.of_ne hk
    rw [hshare, hcommitted]
    exact hs.unopened k hget
  · obtain ⟨old, hold, heq⟩ := hrecords k record hget (by simp [hround])
    obtain ⟨hid, r, hr, hfilled⟩ := hs.filled k old roundId hold (heq.trans hround)
    obtain ⟨r', hr', hstatus⟩ := hclosed k r hr (by rw [hfilled]; simp)
    exact ⟨hid, r', hr', hstatus.trans hfilled⟩
  · rw [hw.get] at hget
    split_ifs at hget with hk
    · subst hk
      rw [hw.share_self, hw.committed_self, ← Option.some.inj hget]
      exact hok
    · obtain ⟨-, hshare, hcommitted⟩ := hw.of_ne hk
      rw [hshare, hcommitted]
      exact hs.ok k r hget

theorem roundsOk_commit {investor : Address} {amount : ℤ} (hs : RoundsOk s)
    (hjoin : JoinsOnce s invoiceId investor)
    (htarget : ∀ round, s.rounds.get invoiceId = some round → round.targetPrincipal < 2 ^ 64)
    (hc : commitToInvoice h signers s investor invoiceId amount = .ok s')
    (hclosed : KeepsClosed s s') (hrecords : SameRounds s s') : RoundsOk s' := by
  obtain ⟨round, added, newBps, hround, hopen, hpos, hfits, hrange, hbps, hw⟩ :=
    commitToInvoice_rounds hc
  have ho := (hs.ok invoiceId round hround).whenOpen hopen
  have hnn := ho.nonneg investor
  have hle := ho.roster.part_le ho.nonneg investor
  have hprincipal := ho.principal
  have hbps' := commitmentBps_le (by omega) (by omega) (htarget round hround) hbps
  refine hs.of_write hw (hs.keys invoiceId round hround) (OpenOk.roundOk ?_) hclosed hrecords
  exact ho.commit (hjoin round hround) hpos hfits hrange hbps'

theorem roundsOk_finalize {caller : Address} (hs : RoundsOk s)
    (hf : finalizeCoFunding h signers s caller invoiceId = .ok s') (hclosed : KeepsClosed s s') :
    RoundsOk s' := by
  obtain ⟨round, hround, hopen, hfill | hexpire⟩ := finalizeCoFunding_eq_ok hf
  · obtain ⟨⟨record, hrecord, hfunded⟩, hw⟩ := fillRound_rounds hfill
    have hkey := hs.keys invoiceId round hround
    have hok := hs.ok invoiceId round hround
    -- the record that is opened is the only one that gets a round
    have hrest : RoundsOk { s' with funded := s.funded } :=
      hs.of_write ⟨hw.rounds, hw.share, hw.committed⟩ hkey (hok.close (by simp)) hclosed
        (sameLoans_of_eq rfl).sameRounds
    refine ⟨hrest.keys, hrest.unopened, fun k r roundId hget hid => ?_, hrest.ok⟩
    rw [hfunded, Store.get_set] at hget
    split_ifs at hget with hk
    · obtain rfl := Option.some.inj hget
      refine ⟨?_, _, by rw [hw.get, if_pos hk], rfl⟩
      rw [hk]
      exact Option.some.inj (hid.symm.trans hrecord)
    · exact hrest.filled k r roundId hget hid
  · have hkey := hs.keys invoiceId round hround
    obtain ⟨share, committed, hcleared, hw⟩ := expireRound_rounds hkey hexpire
    have ho := (hs.ok invoiceId round hround).whenOpen hopen
    have hrecords : SameRounds s s' := by
      obtain ⟨_, _, _, hfold, rfl⟩ := expireRound_eq_ok hexpire
      exact (sameLoans_of_eq (by rw [(credits_of_expire hfold).rest])).sameRounds
    exact hs.of_write hw hkey (ho.expire hcleared) hclosed hrecords

theorem roundsOk_transfer {sender token receiver : Address} {bps : ℕ} (hs : RoundsOk s)
    (hjoin : JoinsOnce s invoiceId receiver)
    (hco : ∀ record, s.funded.get invoiceId = some record → record.coFundingRoundId ≠ none)
    (ht : transferCoFundShare signers s sender invoiceId token receiver bps = .ok s')
    (hclosed : KeepsClosed s s') (hrecords : SameRounds s s') : RoundsOk s' := by
  obtain ⟨record, newFrom, newTo, hrecord, hne, -, hfrom, hsum, ⟨hnone, -⟩ |
    ⟨roundId, round, hid, hround, hfilled, htrade⟩⟩ := transferCoFundShare_rounds ht
  · exact absurd hnone (hco record hrecord)
  · obtain ⟨rfl, -⟩ := hs.filled invoiceId record roundId hrecord hid
    exact hs.of_write (htrade rfl) (hs.keys roundId round hround)
      ((hs.ok roundId round hround).trade hfilled hne (hjoin round hround) hfrom hsum) hclosed
      hrecords

theorem roundsOk_move {record : FundedInvoice} {seller buyer : Address} {isCoFunding : Bool}
    {amountOrBps : ℕ} (hs : RoundsOk s) (hrecord : s.funded.get invoiceId = some record)
    (hne : seller ≠ buyer) (hjoin : isCoFunding = true → JoinsOnce s invoiceId buyer)
    (hm : s.moveCoFundShare record isCoFunding seller buyer amountOrBps = .ok s')
    (hclosed : KeepsClosed s s') (hrecords : SameRounds s s') : RoundsOk s' := by
  rcases moveCoFundShare_rounds hm with rfl | ⟨roundId, newFrom, newTo, hco, hid, hsum, hfrom, htrade⟩
  · exact hs
  · obtain ⟨rfl, round, hround, hfilled⟩ := hs.filled invoiceId record roundId hrecord hid
    exact hs.of_write (htrade round hround) (hs.keys roundId round hround)
      ((hs.ok roundId round hround).trade hfilled hne (hjoin hco round hround) hfrom hsum.le)
      hclosed hrecords

end Step

theorem roundsOk_exec {h : Host W} {s s' : State W} {tx : Tx h} (hs : RoundsOk s)
    (hok : RoundCallOk h s tx) (hstep : exec h s tx = .ok s') : RoundsOk s' := by
  have hclosed := exec_keepsClosed hstep
  by_cases hfinal : ∃ caller invoiceId, tx.call = .finalizeCoFunding caller invoiceId
  · obtain ⟨signers, hself, call⟩ := tx
    obtain ⟨caller, invoiceId, rfl⟩ := hfinal
    exact roundsOk_finalize hs hstep hclosed
  have hrecords : SameRounds s s' := by
    apply exec_sameRounds _ hstep
    intro caller invoiceId hcall
    exact hfinal ⟨caller, invoiceId, hcall⟩
  by_cases hcall : tx.call.isRound = false
  · exact hs.of_frame (exec_roundFrame hcall hstep) hrecords
  obtain ⟨signers, hself, call⟩ := tx
  cases call with
  | openCoFunding admin request =>
    obtain ⟨round, hnone, hkey, -, hempty, hzero, htarget, hw⟩ := openCoFunding_rounds hstep
    obtain ⟨hshare, hcommitted⟩ := hs.unopened _ hnone
    refine hs.of_write hw hkey (OpenOk.roundOk ?_) hclosed hrecords
    refine ⟨htarget, ?_, ?_, ?_, ?_, fun a => ?_, fun a => ?_⟩
    · rw [hempty]
      exact isRoster_nil hcommitted
    · rw [hzero, hempty]
      rfl
    · omega
    · omega
    · rw [hcommitted]
    · simp [hshare, hcommitted]
  | commitToInvoice investor invoiceId amount =>
    exact roundsOk_commit hs hok.1 hok.2 hstep hclosed hrecords
  | withdrawCoFundingCommitment investor invoiceId =>
    obtain ⟨round, hround, hopen, hw⟩ :=
      withdrawCoFundingCommitment_rounds (hs.keys invoiceId) hstep
    have ho := (hs.ok invoiceId round hround).whenOpen hopen
    exact hs.of_write hw (hs.keys invoiceId round hround) (ho.withdraw investor).roundOk hclosed
      hrecords
  | cancelCoFundingRound admin invoiceId =>
    obtain ⟨round, hround, -, -, hw⟩ := cancelCoFundingRound_rounds hstep
    exact hs.of_write hw (hs.keys invoiceId round hround)
      ((hs.ok invoiceId round hround).close (by simp)) hclosed hrecords
  | finalizeCoFunding caller invoiceId => exact absurd ⟨caller, invoiceId, rfl⟩ hfinal
  | transferCoFundShare sender invoiceId token receiver bps =>
    exact roundsOk_transfer hs hok.1 hok.2 hstep hclosed hrecords
  | marketSettleListing market listing =>
    obtain ⟨record, s₁, _, _, hne, hrecord, hmove, -, -, rfl⟩ := marketSettleListing_eq_ok hstep
    have hmoved : RoundsOk s₁ := roundsOk_move hs hrecord hne hok hmove hclosed hrecords
    exact hmoved.of_frame ⟨rfl, rfl, rfl⟩ (sameLoans_of_eq rfl).sameRounds
  | _ => exact absurd rfl hcall

theorem roundsOk_initial (now : ℕ) (world : W) (cash : Address → Address → ℤ)
    (shareTokens : Address → Share.ShareToken) (admin token share invoiceContract : Address) :
    RoundsOk (initialState now world cash shareTokens admin token share invoiceContract) := by
  refine ⟨fun id round hget => ?_, fun id _ => ⟨fun _ => rfl, fun _ => rfl⟩,
    fun id record roundId hget _ => ?_, fun id round hget => ?_⟩
  · cases hget
  · cases hget
  · cases hget

theorem roundsOk_of_reaches {h : Host W} {now : ℕ} {world : W} {cash : Address → Address → ℤ}
    {shareTokens : Address → Share.ShareToken} {admin token share invoiceContract : Address}
    {s : State W} (hrun : Reaches (exec h) (RoundCallOk h)
      (initialState now world cash shareTokens admin token share invoiceContract) s) :
    RoundsOk s := by
  refine hrun.invariant (P := RoundsOk)
    (roundsOk_initial now world cash shareTokens admin token share invoiceContract) ?_
  intro s tx s' hs hok hstep
  exact roundsOk_exec hs hok hstep

theorem keepsClosed_of_reaches {h : Host W} {s s' : State W}
    (hrun : Reaches (exec h) (fun _ _ => True) s s') : KeepsClosed s s' := by
  induction hrun with
  | refl => exact keepsClosed_of_eq rfl
  | next _ _ hstep ih =>
    intro id round hget hclosed
    obtain ⟨mid, hmid, hstatus⟩ := ih id round hget hclosed
    obtain ⟨last, hlast, hstatus'⟩ := exec_keepsClosed hstep id mid hmid (hstatus ▸ hclosed)
    exact ⟨last, hlast, hstatus'.trans hstatus⟩

/-- In every run from `initialize` in which every address joins a round once, a round lists its
holders without repetition, the basis points add up to at most the whole, the commitments to an open
round add up to its committed principal, which is at most the target, and the status of a round that
is not open is final. -/
theorem rounds_in_order (h : Host W) (now : ℕ) (world : W) (cash : Address → Address → ℤ)
    (shareTokens : Address → Share.ShareToken) (admin token share invoiceContract : Address)
    (s : State W)
    (hrun : Reaches (exec h) (RoundCallOk h)
      (initialState now world cash shareTokens admin token share invoiceContract) s)
    (id : ℕ) (round : CoFundingRound) (hround : s.rounds.get id = some round) :
    round.participants.Nodup ∧
    (∀ a, 0 < s.coFundShare id a → a ∈ round.participants) ∧
    (∀ S : Finset Address, ∑ a ∈ S, s.coFundShare id a ≤ 10000) ∧
    (round.status = .Open →
      round.committedPrincipal = (round.participants.map (s.coFundCommitted id)).sum ∧
      round.committedPrincipal ≤ round.targetPrincipal) ∧
    (round.status ≠ .Open → ∀ s', Reaches (exec h) (fun _ _ => True) s s' →
      ∃ round', s'.rounds.get id = some round' ∧ round'.status = round.status) := by
  have hok := (roundsOk_of_reaches hrun).ok id round hround
  refine ⟨hok.roster.nodup, fun a ha => hok.roster.listed a ha.ne', fun S => ?_, fun hopen => ?_,
    fun hclosed s' hrun' => keepsClosed_of_reaches hrun' id round hround hclosed⟩
  · exact (hok.roster.sum_le S).trans hok.bps
  · have ho := hok.whenOpen hopen
    exact ⟨ho.principal, ho.le⟩

/-- Two investors fill a round, and one of them passes on half of its basis points. -/
def filledRound : List (Tx quietHost) :=
  [⟨[1], self_ne_one, .setMaxInvestorConcentration 1 10000⟩,
    ⟨[3], self_ne_three, .deposit 3 10 1000 none⟩,
    ⟨[5], self_ne_five, .deposit 5 10 1000 none⟩,
    ⟨[1], self_ne_one, .openCoFunding 1 ⟨7, 10, 1000, 4, 31536001, 1000, 0, 0⟩⟩,
    ⟨[3], self_ne_three, .commitToInvoice 3 7 600⟩,
    ⟨[5], self_ne_five, .commitToInvoice 5 7 400⟩,
    ⟨[4], self_ne_four, .finalizeCoFunding 4 7⟩,
    ⟨[3], self_ne_three, .transferCoFundShare 3 7 10 6 5000⟩]

theorem rounds_in_order_filled :
    ∃ s round, execAll quietHost sampleState filledRound = .ok s ∧
      Reaches (exec quietHost) (RoundCallOk quietHost) sampleState s ∧
      s.rounds.get 7 = some round ∧ round.participants = [3, 5, 6] ∧
      round.status = .Filled ∧ s.coFundShare 7 6 = 3000 ∧ round.participants.Nodup := by
  obtain ⟨s, hs, hp⟩ := exists_of_check (x := execAll quietHost sampleState filledRound)
    (p := fun s => decide (∃ round ∈ s.rounds.get 7, round.participants = [3, 5, 6] ∧
      round.status = .Filled ∧ s.coFundShare 7 6 = 3000)) (by decide)
  obtain ⟨round, hround, hlist, hfilled, hshare⟩ := of_decide_eq_true hp
  have halong : Along (exec quietHost) (RoundCallOk quietHost) sampleState filledRound := by
    decide
  have hrun := reaches_of_along .refl halong hs
  exact ⟨s, round, hs, hrun, hround, hlist, hfilled, hshare,
    (rounds_in_order quietHost 1 () _ _ 1 10 20 2 s hrun 7 round hround).1⟩

/-- An investor commits twice, each time too little for a basis point. -/
def repeatedDust : List (Tx quietHost) :=
  [⟨[1], self_ne_one, .setMaxInvestorConcentration 1 10000⟩,
    ⟨[3], self_ne_three, .deposit 3 10 1000 none⟩,
    ⟨[1], self_ne_one, .openCoFunding 1 ⟨7, 10, 100000, 4, 31536001, 1000, 0, 0⟩⟩,
    ⟨[3], self_ne_three, .commitToInvoice 3 7 1⟩,
    ⟨[3], self_ne_three, .commitToInvoice 3 7 1⟩]

/-- The investor is then listed twice. -/
theorem investor_listed_twice :
    ∃ s round, execAll quietHost sampleState repeatedDust = .ok s ∧
      s.rounds.get 7 = some round ∧ ¬ round.participants.Nodup := by
  obtain ⟨s, hs, hp⟩ := exists_of_check (x := execAll quietHost sampleState repeatedDust)
    (p := fun s => decide (∃ round ∈ s.rounds.get 7, ¬ round.participants.Nodup))
    (by decide)
  obtain ⟨round, hround, hdup⟩ := of_decide_eq_true hp
  exact ⟨s, round, hs, hround, hdup⟩

/-! ## The share of a commitment -/

/-- `commit_to_invoice` with the computation of the share left open. -/
def commitWith (bps : ℤ → ℤ → Res ℕ) (h : Host W) (signers : List Address) (s : State W)
    (investor : Address) (invoiceId : ℕ) (amount : ℤ) : Res (State W) := do
  let round ← okOr (s.rounds.get invoiceId) (.err .CoFundingRoundNotFound)
  let c ← commitGuards signers s investor amount round
  let committed ← okOr (checkedAdd (s.coFundCommitted invoiceId investor) c.amount) overflowErr
  requireInvestorCap round committed
  let s ← s.burn h signers c.share investor c.burned
  let position := s.position investor round.token
  let available ← okOr (checkedSub position.available c.burned) overflowErr
  let tt := s.tt round.token
  let poolValue ← okOr (checkedSub tt.poolValue c.usdc) overflowErr
  let newBps ← bps committed round.targetPrincipal
  let isNew := s.coFundShare invoiceId investor = 0
  require (¬ (isNew ∧ maxCoFundingParticipants ≤ round.participants.length))
    (.err .CoFundingTooManyParticipants)
  let participants := if isNew then round.participants ++ [investor] else round.participants
  let committedPrincipal ← okOr (checkedAdd round.committedPrincipal c.amount) overflowErr
  return { s with
    position := set₂ s.position investor round.token { position with available := available }
    totals := Function.update s.totals round.token (some { tt with poolValue := poolValue })
    coFundShare := set₂ s.coFundShare invoiceId investor newBps
    coFundCommitted := set₂ s.coFundCommitted invoiceId investor committed
    rounds := s.rounds.set invoiceId
      { round with participants := participants, committedPrincipal := committedPrincipal } }

/-- The share of a commitment in basis points, without a width. -/
def exactBps (committed target : ℤ) : Res ℕ := return (committed * 10000 / target).toNat

theorem commitToInvoice_eq_commitWith :
    commitToInvoice = commitWith (W := W) commitmentBps := rfl

def State.cumulative (s : State W) (investor : Address) (round : CoFundingRound) (invoiceId : ℕ)
    (amount : ℤ) : ℤ :=
  s.coFundCommitted invoiceId investor +
    min amount (round.targetPrincipal - round.committedPrincipal)

theorem commitGuards_amount {signers : List Address} {s : State W} {investor : Address}
    {amount : ℤ} {round : CoFundingRound} {c : Commitment}
    (hg : commitGuards signers s investor amount round = .ok c) :
    c.amount = min amount (round.targetPrincipal - round.committedPrincipal) := by
  unfold commitGuards at hg
  simp only [bind_eq_ok, require_eq_ok, exists_unit, okOr_eq_ok, checkedSub_eq_some,
    pure_eq_ok] at hg
  obtain ⟨-, -, -, -, -, _, ⟨rfl, -⟩, -, _, -, _, -, -, _, -, _, -, -, -, -, rfl⟩ := hg
  dsimp only
  split_ifs <;> omega

theorem commitWith_of_exact {h : Host W} {signers : List Address} {s exact : State W}
    {investor : Address} {invoiceId : ℕ} {amount : ℤ} {round : CoFundingRound}
    (hround : s.rounds.get invoiceId = some round)
    (hexact : commitWith exactBps h signers s investor invoiceId amount = .ok exact) :
    exact.coFundCommitted invoiceId investor = s.cumulative investor round invoiceId amount ∧
    ∀ bps, commitWith bps h signers s investor invoiceId amount =
      (bps (s.cumulative investor round invoiceId amount) round.targetPrincipal).map fun newBps =>
        { exact with coFundShare := set₂ s.coFundShare invoiceId investor newBps } := by
  unfold commitWith at hexact
  simp only [bind_eq_ok, require_eq_ok, exists_unit, okOr_eq_ok, checkedAdd_eq_some,
    checkedSub_eq_some, pure_eq_ok] at hexact
  obtain ⟨_, hget, c, hguards, _, ⟨rfl, hsum⟩, hcap, s₁, hburn, hrest⟩ := hexact
  obtain rfl := Option.some.inj (hround.symm.trans hget)
  obtain ⟨-, -, st, -, rfl⟩ := State.burn_eq_ok hburn
  obtain ⟨_, ⟨rfl, havail⟩, _, ⟨rfl, hvalue⟩, newBps, -, hroom, _, ⟨rfl, hprincipal⟩, rfl⟩ := hrest
  have hcumulative : s.cumulative investor round invoiceId amount =
      s.coFundCommitted invoiceId investor + c.amount := by
    rw [State.cumulative, commitGuards_amount hguards]
  have hfit : ∀ {x : ℤ}, InI128 x → ∀ e : Fault, okOr (fit x) e = .ok x := by
    intro x hx e
    rw [okOr_eq_ok, fit_eq_some]
    exact ⟨rfl, hx⟩
  refine ⟨(set₂_self _ _ _ _).trans hcumulative.symm, fun bps => ?_⟩
  unfold commitWith checkedAdd checkedSub
  rw [hcumulative, (okOr_eq_ok _ _ _).mpr hround, ok_bind, hguards, ok_bind, hfit hsum, ok_bind, hcap,
    ok_bind, hburn, ok_bind]
  dsimp only at havail hvalue hroom ⊢
  rw [hfit havail, ok_bind, hfit hvalue, ok_bind]
  cases bps (s.coFundCommitted invoiceId investor + c.amount) round.targetPrincipal with
  | error f => rfl
  | ok newBps =>
    rw [ok_bind, (require_eq_ok _ _ ()).mpr hroom, ok_bind, hfit hprincipal, ok_bind]
    simp [Except.map, pure, Except.pure]

/-- Where the conversion to 64 bits does not show: a target below `2 ^ 64` and a commitment of which
the basis points of the whole fit 64 bits, or a greater target whose low bits are in the same ratio
with those of the commitment. -/
def ShareFits (committed target : ℤ) : Prop :=
  0 ≤ committed ∧
    if target < 2 ^ 64 then committed * 10000 < 2 ^ 64
    else toU 64 committed * 10000 < 2 ^ 64 ∧ toU 64 target ≠ 0 ∧
      ((toU 64 committed * 10000 / toU 64 target % 2 ^ 32 : ℕ) : ℤ) = committed * 10000 / target

instance (committed target : ℤ) : Decidable (ShareFits committed target) :=
  inferInstanceAs (Decidable (_ ∧ _))

theorem commitmentBps_eq_ok {committed target : ℤ} {bps : ℕ} :
    commitmentBps committed target = .ok bps ↔ toU 64 committed * 10000 < 2 ^ 64 ∧
      toU 64 target ≠ 0 ∧ bps = toU 64 committed * 10000 / toU 64 target % 2 ^ 32 := by
  unfold commitmentBps
  simp only [bind_eq_ok, okOr_eq_ok, fitU_eq_some, require_eq_ok, exists_unit, pure_eq_ok]
  constructor
  · rintro ⟨_, ⟨rfl, hfits⟩, hne, rfl⟩
    exact ⟨hfits, hne, rfl⟩
  · rintro ⟨hfits, hne, rfl⟩
    exact ⟨_, ⟨rfl, hfits⟩, hne, rfl⟩

theorem commitmentBps_exact_iff {committed target : ℤ} (htarget : 0 < target)
    (hle : committed ≤ target) :
    (∃ bps, commitmentBps committed target = .ok bps ∧ (bps : ℤ) = committed * 10000 / target) ↔
      ShareFits committed target := by
  simp only [commitmentBps_eq_ok]
  unfold ShareFits
  constructor
  · rintro ⟨_, ⟨hfits, hne, rfl⟩, hexact⟩
    have hnn : 0 ≤ committed := by
      by_contra hneg
      have hfloor : committed * 10000 / target < 0 :=
        Int.ediv_neg_of_neg_of_pos (by omega) htarget
      omega
    refine ⟨hnn, ?_⟩
    split_ifs with hsmall
    · have hcast := toU_of_nonneg 64 committed hnn (by omega)
      omega
    · exact ⟨hfits, hne, hexact⟩
  · rintro ⟨hnn, hcases⟩
    split_ifs at hcases with hsmall
    · have hc := toU_of_nonneg 64 committed hnn (by omega)
      have ht := toU_of_nonneg 64 target htarget.le hsmall
      have hdiv : toU 64 committed * 10000 / toU 64 target ≤ 10000 := by
        apply Nat.div_le_of_le_mul
        exact Nat.mul_le_mul_right _ (by omega)
      refine ⟨_, ⟨by omega, by omega, rfl⟩, ?_⟩
      rw [Nat.mod_eq_of_lt (by omega), Int.natCast_div, Nat.cast_mul, hc, ht, Nat.cast_ofNat]
    · exact ⟨_, ⟨hcases.1, hcases.2.1, rfl⟩, hcases.2.2⟩

/-- Where nothing but the share can fail, a commitment succeeds with the share rounded down exactly
when the conversion to 64 bits does not show. -/
theorem commit_share_exact_iff {W : Type} (h : Host W) (signers : List Address) (s : State W)
    (investor : Address) (invoiceId : ℕ) (amount : ℤ) (round : CoFundingRound)
    (hround : s.rounds.get invoiceId = some round) (htarget : 0 < round.targetPrincipal)
    (hle : s.cumulative investor round invoiceId amount ≤ round.targetPrincipal)
    (hother : ∃ exact, commitWith exactBps h signers s investor invoiceId amount = .ok exact) :
    (∃ s', commitToInvoice h signers s investor invoiceId amount = .ok s' ∧
      s'.coFundCommitted invoiceId investor = s.cumulative investor round invoiceId amount ∧
      (s'.coFundShare invoiceId investor : ℤ) =
        s.cumulative investor round invoiceId amount * 10000 / round.targetPrincipal) ↔
      ShareFits (s.cumulative investor round invoiceId amount) round.targetPrincipal := by
  obtain ⟨exact, hexact⟩ := hother
  obtain ⟨hcommitted, hwith⟩ := commitWith_of_exact hround hexact
  rw [← commitmentBps_exact_iff htarget hle, commitToInvoice_eq_commitWith, hwith]
  simp only [map_eq_ok]
  constructor
  · rintro ⟨_, ⟨bps, hbps, rfl⟩, -, hshare⟩
    exact ⟨bps, hbps, by simpa using hshare⟩
  · rintro ⟨bps, hbps, hshare⟩
    exact ⟨_, ⟨bps, hbps, rfl⟩, hcommitted, by simpa using hshare⟩

/-- A ledger on which every account but the pool holds a billion USDC. -/
def richState : State Unit :=
  initialState 1 () (fun _ a => if a = 0 then 0 else 10 ^ 16)
    (fun _ => Share.ShareToken.fresh 0) 1 10 20 2

/-- A round over 500 million USDC, and an investor who can fill it. -/
def largeRound : List (Tx quietHost) :=
  [⟨[1], self_ne_one, .setMaxInvestorConcentration 1 10000⟩,
    ⟨[3], self_ne_three, .deposit 3 10 (10 ^ 16) none⟩,
    ⟨[1], self_ne_one, .openCoFunding 1 ⟨7, 10, 5 * 10 ^ 15, 4, 31536001, 1000, 0, 0⟩⟩]

theorem commit_share_exact_iff_large :
    ∃ s s', execAll quietHost richState largeRound = .ok s ∧
      commitToInvoice quietHost [3] s 3 7 (10 ^ 15) = .ok s' ∧ s'.coFundShare 7 3 = 2000 := by
  obtain ⟨s, hs, hp⟩ := exists_of_check (x := execAll quietHost richState largeRound)
    (p := fun s => decide (∃ round ∈ s.rounds.get 7, round.targetPrincipal = 5 * 10 ^ 15 ∧
        s.cumulative 3 round 7 (10 ^ 15) = 10 ^ 15) &&
      (commitWith exactBps quietHost [3] s 3 7 (10 ^ 15)).isOk) (by decide)
  rw [Bool.and_eq_true, decide_eq_true_eq, isOk_iff] at hp
  obtain ⟨⟨round, hround, htarget, hcumulative⟩, hother⟩ := hp
  have hiff := commit_share_exact_iff quietHost [3] s 3 7 (10 ^ 15) round hround
    (by rw [htarget]; norm_num) (by rw [hcumulative, htarget]; norm_num) hother
  rw [hcumulative, htarget] at hiff
  obtain ⟨s', hs', -, hshare⟩ := hiff.mpr (by decide)
  refine ⟨s, s', hs, hs', ?_⟩
  norm_num at hshare
  exact_mod_cast hshare

/-- A commitment of 200 million USDC traps on its share. -/
theorem large_commitment_traps :
    ∃ s round, execAll quietHost richState largeRound = .ok s ∧ s.rounds.get 7 = some round ∧
      0 < round.targetPrincipal ∧
      s.cumulative 3 round 7 (2 * 10 ^ 15) ≤ round.targetPrincipal ∧
      (∃ exact, commitWith exactBps quietHost [3] s 3 7 (2 * 10 ^ 15) = .ok exact) ∧
      commitToInvoice quietHost [3] s 3 7 (2 * 10 ^ 15) = .error overflowTrap := by
  obtain ⟨s, hs, hp⟩ := exists_of_check (x := execAll quietHost richState largeRound)
    (p := fun s => decide (∃ round ∈ s.rounds.get 7, 0 < round.targetPrincipal ∧
        s.cumulative 3 round 7 (2 * 10 ^ 15) ≤ round.targetPrincipal) &&
      (commitWith exactBps quietHost [3] s 3 7 (2 * 10 ^ 15)).isOk &&
      fails (commitToInvoice quietHost [3] s 3 7 (2 * 10 ^ 15)) overflowTrap) (by decide)
  rw [Bool.and_eq_true, Bool.and_eq_true, decide_eq_true_eq, isOk_iff] at hp
  obtain ⟨⟨⟨round, hround, hpos, hle⟩, hother⟩, htraps⟩ := hp
  exact ⟨s, round, hs, hround, hpos, hle, hother, of_fails htraps⟩

end Astera.Pool
