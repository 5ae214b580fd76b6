import Astera.Proof.Backing

/-!
# Solvency

The balance of the pool in a token covers what it owes, with the exceptions that `SolvencyOk` names:
claimed yield, seized collateral that is sent away, a cancelled loan, a second settlement, the
remainder of a distribution, and a pass over the queue that stops after a payment.
-/

namespace Astera.Pool

open Fallible Machine Transition

variable {W : Type}

/-! ## Commitments to a round -/

section Rounds

variable {committed : Address → ℤ} {principal amount : ℤ}

theorem roundBacked_none (hzero : ∀ a, committed a = 0) : RoundBacked committed 0 :=
  ⟨by norm_num, fun a => (hzero a).ge, ∅, fun a _ => hzero a, by simp⟩

theorem RoundBacked.commit (hb : RoundBacked committed principal) (investor : Address)
    (hnn : 0 ≤ amount) (hrange : principal + amount < 2 ^ 127) :
    RoundBacked (Function.update committed investor (committed investor + amount))
      (principal + amount) := by
  obtain ⟨-, hpos, S, hS, hsum⟩ := hb
  refine ⟨hrange, fun a => ?_, insert investor S, fun a ha => ?_, ?_⟩
  · have := hpos a
    have := hpos investor
    rw [Function.update_apply]
    split_ifs <;> omega
  · rw [Finset.mem_insert, not_or] at ha
    rw [Function.update_of_ne ha.1, hS a ha.2]
  · have hbefore : ∑ a ∈ insert investor S, committed a = ∑ a ∈ S, committed a :=
      Finset.sum_insert_of_eq_zero_if_notMem (hS investor)
    have hmem := Finset.mem_insert_self investor S
    rw [Finset.sum_update_of_mem hmem]
    rw [← Finset.sum_sdiff (Finset.singleton_subset_iff.2 hmem), Finset.sum_singleton] at hbefore
    omega

theorem RoundBacked.le (hb : RoundBacked committed principal) (investor : Address) :
    committed investor ≤ principal := by
  obtain ⟨-, hpos, S, hS, hsum⟩ := hb
  by_cases hmem : investor ∈ S
  · exact (Finset.single_le_sum (fun a _ => hpos a) hmem).trans hsum
  · have : 0 ≤ ∑ a ∈ S, committed a := Finset.sum_nonneg fun a _ => hpos a
    rw [hS investor hmem]
    omega

theorem RoundBacked.sub (hb : RoundBacked committed principal) (investor : Address) :
    saturatingSub principal (committed investor) = principal - committed investor := by
  have hle := hb.le investor
  have hnn := hb.2.1 investor
  have hrange := hb.1
  apply saturatingSub_eq
  unfold InI128
  omega

theorem RoundBacked.refund (hb : RoundBacked committed principal) (investor : Address) :
    RoundBacked (Function.update committed investor 0)
      (saturatingSub principal (committed investor)) := by
  rw [hb.sub investor]
  have hnn := hb.2.1 investor
  obtain ⟨hrange, hpos, S, hS, hsum⟩ := hb
  refine ⟨by omega, fun a => ?_, S, fun a ha => ?_, ?_⟩
  · rw [Function.update_apply]
    split_ifs
    · exact le_rfl
    · exact hpos a
  · rw [Function.update_apply]
    split_ifs
    · rfl
    · exact hS a ha
  · rw [sum_clear investor hS]
    omega

end Rounds

section Steps

variable {h : Host W} {signers : List Address} {s s' : State W} {g : Marks} {token t : Address}

theorem solvent_open {admin : Address} {request : OpenCoFundingRequest}
    (hs : Solvent h token 0 (s, g)) (ho : openCoFunding signers s admin request = .ok s') :
    Solvent h token 0 (s', g) := by
  obtain ⟨hnone, -, rfl⟩ := openCoFunding_eq_ok ho
  have hzero := hs.regular.unopened request.invoiceId hnone
  refine hs.of_round request.invoiceId _ ?_ (fun _ => roundBacked_none hzero) (fun old hold _ => ?_)
    rfl (fun _ _ => rfl) rfl rfl rfl (netValue_same rfl) (cash_same rfl) ?_
  · rfl
  · rw [hnone] at hold
    cases hold
  · rw [Store.part_of_get_none hnone]
    simp [openCommitment]

theorem solvent_commit {investor : Address} {invoiceId : ℕ} {amount : ℤ}
    (hs : Solvent h token 0 (s, g))
    (hc : commitToInvoice h signers s investor invoiceId amount = .ok s') :
    Solvent h token 0 (s', g) := by
  obtain ⟨round, c, st, position, newBps, participants, hround, hguards, -, -, -, hrange, -, -, rfl⟩ :=
    commitToInvoice_eq_ok hc
  obtain ⟨-, hpos, hopen, -, husdc, -⟩ := commitGuards_eq_ok hguards
  obtain ⟨hid, hbacked⟩ := hs.regular.rounds _ _ hround
  have hpart : s.rounds.part (openCommitment token) invoiceId =
      openCommitment token invoiceId round := Store.part_of_get hround
  refine hs.of_round (d := if token = round.token then -c.usdc else 0) (e := 0) invoiceId _ ?_
    (fun _ => ?_) (fun old hold hfilled => ?_) rfl (fun id hne => set₂_row_of_ne _ _ _ hne) rfl rfl
    rfl (netValue_update rfl (fun _ => le_rfl) fun _ => ?_) (cash_same rfl) ?_
  · exact hid
  · dsimp only
    rw [set₂_row]
    exact (hbacked hopen).commit investor hpos.le hrange.2
  · rw [hround] at hold
    obtain rfl := Option.some.inj hold
    rw [hopen] at hfilled
    cases hfilled
  · unfold netValue
    dsimp only
    omega
  · rw [hpart]
    unfold openCommitment
    by_cases ht : token = round.token
    · have hrate : s.params.exchangeRate round.token = 10000 := ht ▸ hs.regular.rate
      have := usdcValue_at_par hrate husdc
      simp only [ht, hopen, and_self, if_true]
      omega
    · simp [ht, Ne.symm ht]

theorem solvent_uncommit {investor : Address} {invoiceId : ℕ} (hs : Solvent h token 0 (s, g))
    (hw : withdrawCoFundingCommitment h signers s investor invoiceId = .ok s') :
    Solvent h token 0 (s', g) := by
  obtain ⟨round, s₁, tt, refunded, hround, hopen, hrefund, -, rfl⟩ :=
    withdrawCoFundingCommitment_eq_ok hw
  obtain ⟨hid, hbacked⟩ := hs.regular.rounds _ _ hround
  have hc := credits_of_refundCoFundingInvestor hrefund
  obtain ⟨hrefunded, hcommitted⟩ := refundCoFundingInvestor_rounds hrefund
  rw [hid] at hrefunded hcommitted
  have hpart : s.rounds.part (openCommitment token) invoiceId =
      openCommitment token invoiceId round := Store.part_of_get hround
  have htotals : s₁.totals = s.totals := by
    rw [hc.rest]
  refine hs.of_round invoiceId (removeParticipant { round with
      committedPrincipal := saturatingSub round.committedPrincipal refunded } investor)
    (d := if token = round.token then refunded else 0) (e := 0) hid (fun _ => ?_)
    (fun old hold hfilled => ?_) ?_ (fun id hne => ?_) ?_ ?_ ?_
    (netValue_update (by rw [htotals]) (fun _ => le_rfl) fun ht => ?_) ?_ ?_
  · dsimp only [removeParticipant]
    rw [hcommitted, set₂_row, hrefunded]
    exact (hbacked hopen).refund investor
  · rw [hround] at hold
    obtain rfl := Option.some.inj hold
    rw [hopen] at hfilled
    cases hfilled
  · rw [hc.rest]
  · dsimp only
    rw [hcommitted, set₂_row_of_ne _ _ _ hne]
  · rw [hc.rest]
  · rw [hc.rest]
  · rw [hc.rest]
  · have hrate : s.params.exchangeRate round.token = 10000 := ht ▸ hs.regular.rate
    have hnn := (hbacked hopen).2.1 investor
    rw [← hid] at hnn
    have hpv := refundCoFundingInvestor_at_par hrate hnn hrefund
    rw [hc.tt_eq]
    unfold netValue
    dsimp only
    omega
  · rw [hc.rest]
    exact cash_same rfl
  · have hsub := (hbacked hopen).sub investor
    dsimp only at hsub
    rw [hpart]
    unfold openCommitment removeParticipant
    by_cases ht : token = round.token
    · simp only [ht, hopen, and_self, if_true]
      rw [hrefunded, hsub]
      omega
    · simp [ht, Ne.symm ht]

theorem solvent_cancelRound {admin : Address} {invoiceId : ℕ} (hs : Solvent h token 0 (s, g))
    (hc : cancelCoFundingRound signers s admin invoiceId = .ok s') : Solvent h token 0 (s', g) := by
  obtain ⟨round, hround, hopen, hzero, rfl⟩ := cancelCoFundingRound_eq_ok hc
  refine hs.of_round invoiceId _ ?_ (fun hstatus => by cases hstatus) (fun old hold hfilled => ?_)
    rfl (fun _ _ => rfl) rfl rfl rfl (netValue_same rfl) (cash_same rfl) ?_
  · exact (hs.regular.rounds _ _ hround).1
  · rw [hround] at hold
    obtain rfl := Option.some.inj hold
    rw [hopen] at hfilled
    cases hfilled
  · rw [Store.part_of_get hround]
    simp [openCommitment, hzero]

theorem solvent_participants {roundId : ℕ} {round : CoFundingRound} {participants : List Address}
    (hs : Solvent h token 0 (s, g)) (hround : s.rounds.get roundId = some round)
    (hs' : s' = { s with
      coFundShare := s'.coFundShare
      rounds := s.rounds.set roundId { round with participants := participants } }) :
    Solvent h token 0 (s', g) := by
  obtain ⟨hid, hbacked⟩ := hs.regular.rounds _ _ hround
  rw [hs']
  refine hs.of_round roundId _ ?_ ?_ (fun old hold hfilled => ?_) rfl (fun _ _ => rfl) rfl rfl
    rfl (netValue_same rfl) (cash_same rfl) ?_
  · exact hid
  · exact hbacked
  · rw [hround] at hold
    obtain rfl := Option.some.inj hold
    exact ⟨hfilled, rfl⟩
  · rw [Store.part_of_get hround]
    exact le_rfl

theorem solvent_moveCoFundShare {record : FundedInvoice} {isCoFunding : Bool}
    {seller buyer : Address} {amountOrBps : ℕ} (hs : Solvent h token 0 (s, g))
    (hm : s.moveCoFundShare record isCoFunding seller buyer amountOrBps = .ok s') :
    Solvent h token 0 (s', g) := by
  obtain ⟨_, rfl | ⟨_, _, _, -, hround, rfl⟩⟩ := moveCoFundShare_eq_ok hm
  · exact hs.of_quiet ⟨rfl, rfl, rfl, rfl, rfl⟩ rfl rfl
  · exact solvent_participants hs hround rfl

theorem solvent_fill {invoiceId : ℕ} {round : CoFundingRound} (hs : Solvent h token 0 (s, g))
    (hround : s.rounds.get invoiceId = some round) (hopen : round.status = .Open)
    (hf : fillRound h s invoiceId round = .ok s') : Solvent h token 0 (s', g) := by
  obtain ⟨lockedYieldBps, stats, w, hnone, hnn, rfl⟩ := fillRound_eq_ok hf
  have hid := (hs.regular.rounds _ _ hround).1
  -- the round is closed and its commitments leave the pool
  have hclosed : Solvent h token 0 ({ s with
      rounds := s.rounds.set invoiceId { round with status := .Filled }
      cash := State.moveCash s.cash round.token h.self round.sme round.committedPrincipal }, g) := by
    refine hs.of_round invoiceId _ ?_ (fun hstatus => by cases hstatus)
      (fun old hold hfilled => ?_) rfl (fun _ _ => rfl) rfl rfl rfl (netValue_same rfl)
      (moveCash_out hnn) ?_
    · exact hid
    · rw [hround] at hold
      obtain rfl := Option.some.inj hold
      exact ⟨rfl, rfl⟩
    · rw [Store.part_of_get hround]
      by_cases ht : token = round.token
      · simp [openCommitment, ht, hopen]
      · simp [openCommitment, ht, Ne.symm ht]
  -- the record of the loan is opened
  refine hclosed.of_record ⟨le_rfl, le_rfl, fun roundId hroundId => ⟨rfl, ?_⟩⟩ (fun _ _ => rfl) rfl
    rfl rfl rfl rfl (netValue_same rfl) (cash_same rfl) ?_
  · obtain rfl := Option.some.inj hroundId
    exact ⟨_, Store.get_set_self _ _ _, rfl, rfl⟩
  · have hpart : s.funded.part (partPayment g token) invoiceId = 0 := Store.part_of_get_none hnone
    simp [partPayment, hpart]

theorem solvent_expire {invoiceId : ℕ} {round : CoFundingRound} (hs : Solvent h token 0 (s, g))
    (hround : s.rounds.get invoiceId = some round) (hopen : round.status = .Open)
    (he : expireRound h signers s invoiceId round = .ok s') : Solvent h token 0 (s', g) := by
  obtain ⟨s₁, tt, total, hfold, rfl⟩ := expireRound_eq_ok he
  obtain ⟨hid, hbacked⟩ := hs.regular.rounds _ _ hround
  obtain ⟨-, hnn, S, hS, hsum⟩ := hbacked hopen
  rw [← hid] at hnn hS hsum
  dsimp only at hsum
  have hc := credits_of_expire hfold
  have htotals : s₁.totals = s.totals := by
    rw [hc.rest]
  have hcommitted := refunds_rounds hfold
  have hpart : s.rounds.part (openCommitment token) invoiceId =
      openCommitment token invoiceId round := Store.part_of_get hround
  refine hs.of_round invoiceId { round with
      committedPrincipal := 0, participants := [], status := .Expired }
    (d := if token = round.token then total else 0) (e := 0) hid (fun hstatus => by cases hstatus)
    (fun old hold hfilled => ?_) ?_ (fun id hne => hcommitted id (hid ▸ hne)) ?_ ?_ ?_
    (netValue_update (by rw [htotals]) (fun _ => le_rfl) fun ht => ?_) ?_ ?_
  · rw [hround] at hold
    obtain rfl := Option.some.inj hold
    rw [hopen] at hfilled
    cases hfilled
  · rw [hc.rest]
  · rw [hc.rest]
  · rw [hc.rest]
  · rw [hc.rest]
  · have hrate : s.params.exchangeRate round.token = 10000 := ht ▸ hs.regular.rate
    obtain ⟨hpv, -⟩ := refunds_at_par hrate hnn hS hfold
    rw [hc.tt_eq]
    unfold netValue
    dsimp only
    omega
  · rw [hc.rest]
    exact cash_same rfl
  · rw [hpart]
    by_cases ht : token = round.token
    · have hrate : s.params.exchangeRate round.token = 10000 := ht ▸ hs.regular.rate
      obtain ⟨-, hle⟩ := refunds_at_par hrate hnn hS hfold
      simp only [openCommitment, ht, hopen, and_self, if_true, reduceCtorEq, and_false, if_false]
      omega
    · simp [openCommitment, ht, Ne.symm ht]

theorem solvent_finalize {caller : Address} {invoiceId : ℕ} (hs : Solvent h token 0 (s, g))
    (hf : finalizeCoFunding h signers s caller invoiceId = .ok s') :
    Solvent h token 0 (s', g) := by
  obtain ⟨round, hround, hopen, hfill | hexpire⟩ := finalizeCoFunding_eq_ok hf
  · exact solvent_fill hs hround hopen hfill
  · exact solvent_expire hs hround hopen hexpire

theorem solvent_depositEffects {investor : Address} {amount usdc : ℤ}
    (hs : Solvent h token 0 (s, g)) (husdc : s.usdcValue overflowTrap t amount = .ok usdc)
    (hne : investor ≠ h.self)
    (hd : depositEffects h signers s investor t amount usdc = .ok s') :
    Solvent h token 0 (s', g) := by
  obtain ⟨_, _, _, _, _, -, -, -, -, -, -, -, -, rfl⟩ := depositEffects_eq_ok hd
  refine hs.of_move (d := amount) ⟨rfl, rfl, rfl, rfl, rfl⟩ rfl (moveCash_in hne).ge fun ht => ?_
  have hrate : s.params.exchangeRate t = 10000 := ht ▸ hs.regular.rate
  have := usdcValue_at_par hrate husdc
  unfold netValue
  dsimp only
  omega

theorem solvent_deposit {investor : Address} {amount : ℤ} {minRate : Option ℕ}
    (hreward : RewardsWithinFee h) (hself : h.self ∉ signers) (hs : Solvent h token 0 (s, g))
    (hclean : ∀ s₁ s₂, DepositReaches h signers s investor t amount s₁ s₂ → token = t →
      CleanPass s₂ t (liquidAfter s₁ t))
    (hd : deposit h signers s investor t amount minRate = .ok s') : Solvent h token 0 (s', g) := by
  obtain ⟨usdc, s₁, s₂, o, hauth, -, husdc, heff, href, hq⟩ := deposit_eq_ok hd
  have hne : investor ≠ h.self := fun heq => hself (heq ▸ hauth)
  have hs₁ := solvent_depositEffects hs husdc hne heff
  have hs₂ : Solvent h token 0 (s₂, g) := by
    refine solvent_referral hreward ?_ href
    simpa using hs₁
  exact solvent_pass hs₂ (hclean s₁ s₂ ⟨usdc, husdc, heff, href⟩) hq

theorem solvent_withdraw {investor : Address} {shares : ℤ} (hs : Solvent h token 0 (s, g))
    (hw : withdraw h signers s investor t shares = .ok s') : Solvent h token 0 (s', g) := by
  obtain ⟨share, usdc, amount, _, _, _, -, -, -, -, hamount, -, -, hnn, -, -, rfl⟩ :=
    withdraw_eq_ok hw
  refine hs.of_move (d := -amount) ⟨rfl, rfl, rfl, rfl, rfl⟩ rfl (moveCash_out hnn) fun ht => ?_
  have hrate : s.params.exchangeRate t = 10000 := ht ▸ hs.regular.rate
  have hpar : amount = usdc := by
    rw [hamount, hrate]
    exact Int.mul_tdiv_cancel _ (by norm_num)
  unfold netValue
  dsimp only
  omega

theorem solvent_request {investor : Address} {shares : ℤ} {r : State W × ℕ}
    (hs : Solvent h token 0 (s, g))
    (hr : requestWithdrawal h signers s investor t shares = .ok r) :
    Solvent h token 0 (r.1, g) := by
  obtain ⟨share, amount, -, hpos, -, -, -, -, ⟨-, hnow⟩ | hqueue⟩ := requestWithdrawal_eq_ok hr
  · obtain ⟨_, _, -, -, -, hnn, hr⟩ := processImmediateWithdrawal_eq_ok hnow
    rw [hr]
    refine hs.of_move (d := -amount) ⟨rfl, rfl, rfl, rfl, rfl⟩ rfl (moveCash_out hnn) fun _ => ?_
    unfold netValue
    dsimp only
    omega
  · obtain ⟨_, _, -, -, hr⟩ := enqueueWithdrawal_eq_ok hpos hqueue
    rw [hr]
    exact hs.of_quiet ⟨rfl, rfl, rfl, rfl, rfl⟩ rfl rfl

theorem solvent_claim {investor : Address} (hs : Solvent h token 0 (s, g))
    (hnone : token = t → ∀ claimable, s.claimableYield investor t = .ok claimable → claimable ≤ 0)
    (hc : claimYield h signers s investor t = .ok s') : Solvent h token 0 (s', g) := by
  obtain ⟨claimable, bonus, -, hcl, hbonus, hs'⟩ := claimYield_eq_ok hc
  obtain ⟨-, hle⟩ := loyaltyBonus_eq_ok hbonus
  rcases hs' with ⟨-, rfl⟩ | ⟨hpos, hzero, rfl⟩ | ⟨hpos, hb, rfl⟩
  · exact hs.of_quiet ⟨rfl, rfl, rfl, rfl, rfl⟩ rfl rfl
  · refine hs.of_cash ⟨rfl, rfl, rfl, rfl, rfl⟩ rfl ?_
    by_cases ht : token = t
    · have := hnone ht claimable hcl
      omega
    · dsimp only
      rw [State.moveCash_apply]
      simp [ht]
  · refine hs.of_move (d := -(claimable + bonus)) ⟨rfl, rfl, rfl, rfl, rfl⟩ rfl
      (moveCash_out hpos.le) fun ht => ?_
    have := hnone ht claimable hcl
    unfold netValue
    dsimp only
    omega

theorem solvent_payRevenue {amount : ℤ} (hs : Solvent h token 0 (s, g))
    (hp : payRevenue h s t amount = .ok s') : Solvent h token 0 (s', g) := by
  obtain ⟨treasury, hpos, hle, rfl⟩ := payRevenue_eq_ok hp
  refine hs.of_move (d := -amount) ⟨rfl, rfl, rfl, rfl, rfl⟩ rfl (moveCash_out hpos.le) fun _ => ?_
  unfold netValue
  dsimp only
  omega

/-! ## Collateral -/

theorem solvent_depositCollateral {invoiceId : ℕ} {depositor : Address} {amount : ℤ}
    (hself : h.self ∉ signers) (hs : Solvent h token 0 (s, g))
    (hd : depositCollateral h signers s invoiceId depositor t amount = .ok s') :
    Solvent h token 0 (s', g) := by
  obtain ⟨hauth, hpos, -, hnone, rfl⟩ := depositCollateral_eq_ok hd
  have hne : depositor ≠ h.self := fun heq => hself (heq ▸ hauth)
  refine hs.of_collateral rfl rfl rfl rfl rfl (netValue_same rfl) (moveCash_in hne).ge ?_
  rw [Store.part_of_get_none hnone]
  by_cases ht : token = t
  · simp [heldCollateral, ht]
  · simp [heldCollateral, ht, Ne.symm ht]

theorem solvent_topUp {invoiceId : ℕ} {depositor : Address} {amount : ℤ}
    (hself : h.self ∉ signers) (hs : Solvent h token 0 (s, g))
    (hd : topUpCollateral h signers s invoiceId depositor t amount = .ok s') :
    Solvent h token 0 (s', g) := by
  obtain ⟨col, hauth, hpos, hcol, hset, rfl, rfl⟩ := topUpCollateral_eq_ok hd
  have hne : depositor ≠ h.self := fun heq => hself (heq ▸ hauth)
  refine hs.of_collateral rfl rfl rfl rfl rfl (netValue_same rfl) (moveCash_in hne).ge ?_
  rw [Store.part_of_get hcol]
  by_cases ht : token = col.token
  · simp [heldCollateral, ht, hset]
  · simp [heldCollateral, ht, Ne.symm ht]

theorem solvent_riskLiquidate {caller : Address} {invoiceId : ℕ} (hs : Solvent h token 0 (s, g))
    (hne : ∀ col, s.collateral.get invoiceId = some col → col.token ≠ token)
    (hr : riskLiquidateCollateral h signers s caller invoiceId = .ok s') :
    Solvent h token 0 (s', g) := by
  obtain ⟨col, hcol, hset, hnn, -, rfl⟩ := riskLiquidateCollateral_eq_ok hr
  have ht := hne col hcol
  refine hs.of_collateral rfl rfl rfl rfl rfl
    (netValue_update (d := 0) rfl (fun _ => le_rfl) fun heq => absurd heq.symm ht)
    (moveCash_out hnn) ?_
  rw [Store.part_of_get hcol]
  simp [heldCollateral, ht, Ne.symm ht]

theorem Solvent.writeOff (hs : Solvent h token 0 (s, g)) (invoiceId : ℕ) :
    Solvent h token 0 (s, g.writeOff invoiceId) :=
  ⟨⟨hs.regular.rate, hs.regular.records, hs.regular.fresh, hs.regular.rounds, hs.regular.unopened⟩,
    hs.backed⟩

theorem solvent_seize {invoiceId : ℕ} (hs : Solvent h token 0 (s, g))
    (hz : seizeCollateralCore h s invoiceId = .ok s') :
    Solvent h token 0 (s', g.writeOff invoiceId) := by
  obtain ⟨record, col, loan, -, hcol, hset, -, hloan, -, rfl⟩ := seizeCollateralCore_eq_ok hz
  apply Solvent.writeOff
  -- pool value and deployed capital fall alike
  have hwritten : Solvent h token 0 (s.setTotals record.token loan, g) := by
    refine hs.of_move (d := 0) ⟨rfl, rfl, rfl, rfl, rfl⟩ rfl (by simp [State.setTotals]) fun _ => ?_
    rw [hloan]
    unfold netValue
    dsimp only
    omega
  refine hwritten.of_collateral (d := if token = col.token then col.amount else 0) rfl rfl rfl rfl
    rfl (netValue_update rfl (fun _ => le_rfl) fun _ => ?_) (cash_same rfl) ?_
  · unfold netValue
    dsimp only
    omega
  · have hpart : (s.setTotals record.token loan).collateral.part (heldCollateral token) invoiceId =
        heldCollateral token invoiceId col := Store.part_of_get hcol
    rw [hpart]
    by_cases ht : token = col.token
    · simp [heldCollateral, ht, hset]
    · simp [heldCollateral, ht, Ne.symm ht]

/-- What was repaid on a loan that is not settled covers its principal. -/
def CoversPrincipal (token : Address) (x : State W × Marks) (invoiceId : ℕ) : Prop :=
  ∀ record, x.1.funded.get invoiceId = some record → record.token = token →
    record.coFundingRoundId = none →
    x.2.settled invoiceId = false ∧ record.principal ≤ record.repaidAmount

theorem solvent_cancel {admin : Address} {invoiceId : ℕ} (hs : Solvent h token 0 (s, g))
    (hcovers : CoversPrincipal token (s, g) invoiceId)
    (hc : cancelFundedInvoice h signers s admin invoiceId = .ok s') :
    Solvent h token 0 (s', g.forget invoiceId) := by
  obtain ⟨record, w, stats, hrecord, hs'⟩ := cancelFundedInvoice_eq_ok hc
  have hnn := (hs.regular.records _ _ hrecord).1
  have hpart : s.funded.part (partPayment g token) invoiceId =
      partPayment g token invoiceId record := Store.part_of_get hrecord
  rcases hs' with ⟨-, rfl⟩ | ⟨hnone, history, rfl⟩
  · refine hs.of_removal rfl rfl rfl rfl rfl (netValue_same rfl) (cash_same rfl) ?_
    rw [hpart]
    unfold partPayment
    split_ifs <;> omega
  · refine hs.of_removal (d := if token = record.token then record.principal else 0) rfl rfl rfl rfl
      rfl (netValue_update rfl (fun _ => le_rfl) fun _ => ?_) (cash_same rfl) ?_
    · unfold netValue
      dsimp only
      omega
    · rw [hpart]
      by_cases ht : token = record.token
      · obtain ⟨hopen, hle⟩ := hcovers record hrecord ht.symm hnone
        dsimp only at hopen
        simp only [partPayment, ht, hnone, hopen, and_self, if_true]
        omega
      · simp [partPayment, ht, Ne.symm ht]

theorem solvent_cleanup {admin : Address} {invoiceId : ℕ} (hs : Solvent h token 0 (s, g))
    (hc : cleanupFundedInvoice signers s admin invoiceId = .ok s') :
    Solvent h token 0 (s', g.forget invoiceId) := by
  obtain ⟨stats, hrepaid, rfl⟩ := cleanupFundedInvoice_eq_ok hc
  obtain ⟨record, _, _, hrecord, -⟩ := isInvoiceRepaid_eq_ok.1 hrepaid
  have hnn := (hs.regular.records _ _ hrecord).1
  refine hs.of_removal rfl rfl rfl rfl rfl (netValue_same rfl) (cash_same rfl) ?_
  rw [Store.part_of_get hrecord]
  unfold partPayment
  split_ifs <;> omega

theorem solvent_dueDate {invoiceContract : Address} {invoiceId newDueDate : ℕ}
    (hs : Solvent h token 0 (s, g))
    (hu : updateInvoiceDueDate signers s invoiceContract invoiceId newDueDate = .ok s') :
    Solvent h token 0 (s', g) := by
  obtain ⟨record, hrecord, -, rfl⟩ := updateInvoiceDueDate_eq_ok hu
  have hok := hs.regular.records _ _ hrecord
  refine hs.of_record ?_ (fun _ _ => rfl) rfl rfl rfl rfl rfl (netValue_same rfl) (cash_same rfl) ?_
  · exact hok
  · rw [Store.part_of_get hrecord]
    exact le_rfl

end Steps

/-- The call books no claim on the token that money does not back. -/
def SolvencyOk (h : Host W) (token : Address) (x : State W × Marks) (tx : Tx h) : Prop :=
  match tx.call with
  | .deposit investor t amount _ => ∀ s₁ s₂,
      DepositReaches h tx.signers x.1 investor t amount s₁ s₂ → token = t →
        CleanPass s₂ t (liquidAfter s₁ t)
  | .claimYield investor t => token = t →
      ∀ claimable, x.1.claimableYield investor t = .ok claimable → claimable ≤ 0
  | .fundInvoice _ request => token = request.token → PremiumFits h x.1 request
  | .fundMultipleInvoices _ requests => Along (fundInvoiceRequest h)
      (fun s request => token = request.token → PremiumFits h s request) x.1 requests
  | .repayInvoice payer request => RepaysSoundly h tx.signers payer token x request
  | .repayInvoicesBatch payer requests => Along (markedRepayment h tx.signers payer)
      (RepaysSoundly h tx.signers payer token) x requests
  | .cancelFundedInvoice _ invoiceId => CoversPrincipal token x invoiceId
  | .riskLiquidateCollateral _ invoiceId => ∀ col,
      x.1.collateral.get invoiceId = some col → col.token ≠ token
  | .receiveInsurancePayout _ t _ => token ≠ t
  | .setParams params => params.exchangeRate token = 10000
  | _ => True

theorem solvent_exec {h : Host W} {s s' : State W} {g : Marks} {tx : Tx h} {token : Address}
    (hreward : RewardsWithinFee h) (hs : Solvent h token 0 (s, g))
    (hok : SolvencyOk h token (s, g) tx) (hstep : exec h s tx = .ok s') :
    Solvent h token 0 (s', note h s tx s' g) := by
  obtain ⟨signers, hself, call⟩ := tx
  cases call with
  | deposit investor t amount minRate => exact solvent_deposit hreward hself hs hok hstep
  | withdraw investor t shares => exact solvent_withdraw hs hstep
  | requestWithdrawal investor t shares =>
    obtain ⟨r, hr, rfl⟩ := (map_eq_ok _ _ _).1 hstep
    exact solvent_request hs hr
  | drainWithdrawalQueue caller t =>
    -- a pass that stops makes the whole call fail
    obtain ⟨_, -, hq⟩ := drainWithdrawalQueue_eq_ok hstep
    exact solvent_drain hs hq
  | claimYield investor t => exact solvent_claim hs hok hstep
  | fundInvoice admin request => exact solvent_fund hs hok (fundInvoice_eq_ok.1 hstep).2.2
  | fundMultipleInvoices admin requests =>
    obtain ⟨-, -, -, hfold⟩ := fundMultipleInvoices_eq_ok.1 hstep
    exact foldlM_along (P := fun s => Solvent h token 0 (s, g))
      (fun _ _ _ hs hr hf => solvent_fund hs hr hf) hok hs hfold
  | repayInvoice payer request =>
    obtain ⟨hauth, hr⟩ := repayInvoice_eq_ok.1 hstep
    exact solvent_repay hreward hs (fun heq => hself (heq ▸ hauth)) hok hr
  | repayInvoicesBatch payer requests =>
    obtain ⟨hauth, hr⟩ := repayInvoicesBatch_eq_ok hstep
    refine foldlM_along ?_ hok hs (note_repayInvoicesBatch hself g hr)
    rintro ⟨s, g⟩ request ⟨s', g'⟩ hs hr hf
    obtain ⟨hrepay, rfl⟩ := markedRepayment_eq_ok.1 hf
    exact solvent_repay hreward hs (fun heq => hself (heq ▸ hauth)) hr hrepay
  | cleanupFundedInvoice admin invoiceId => exact solvent_cleanup hs hstep
  | cancelFundedInvoice admin invoiceId => exact solvent_cancel hs hok hstep
  | updateInvoiceDueDate invoiceContract invoiceId newDueDate => exact solvent_dueDate hs hstep
  | setCompoundInterest admin compound =>
    rw [setCompoundInterest_eq_ok hstep]
    exact hs.of_quiet ⟨rfl, rfl, rfl, rfl, rfl⟩ rfl rfl
  | openCoFunding admin request => exact solvent_open hs hstep
  | commitToInvoice investor invoiceId amount => exact solvent_commit hs hstep
  | withdrawCoFundingCommitment investor invoiceId => exact solvent_uncommit hs hstep
  | cancelCoFundingRound admin invoiceId => exact solvent_cancelRound hs hstep
  | finalizeCoFunding caller invoiceId => exact solvent_finalize hs hstep
  | transferCoFundShare sender invoiceId t receiver bps =>
    obtain ⟨_, _, -, -, rfl | ⟨_, _, _, -, hround, rfl⟩⟩ := transferCoFundShare_eq_ok hstep
    · exact hs.of_quiet ⟨rfl, rfl, rfl, rfl, rfl⟩ rfl rfl
    · exact solvent_participants hs hround rfl
  | depositCollateral invoiceId depositor t amount =>
    exact solvent_depositCollateral hself hs hstep
  | topUpCollateral invoiceId depositor t amount => exact solvent_topUp hself hs hstep
  | riskLiquidateCollateral caller invoiceId => exact solvent_riskLiquidate hs hok hstep
  | liquidateInvoice caller invoiceId => exact solvent_seize hs (liquidateInvoice_eq_ok hstep)
  | addToken admin t share =>
    obtain ⟨_, ⟨hnone, _, rfl⟩ | rfl⟩ := addToken_eq_ok hstep
    · refine hs.of_move (d := 0) ⟨rfl, rfl, rfl, rfl, rfl⟩ rfl (by simp) fun _ => ?_
      have hdefault : s.tt t = {} := by
        unfold State.tt
        rw [hnone]
        rfl
      rw [hdefault, add_zero]
    · exact hs.of_quiet ⟨rfl, rfl, rfl, rfl, rfl⟩ rfl rfl
  | executeOperation admin proposalId =>
    obtain ⟨proposals, ⟨hnone, _, _, rfl⟩ | ⟨invoiceId, hsome, hseize⟩⟩ :=
      executeOperation_eq_ok hstep
    · simp only [note, hnone, Option.map_none, Option.getD_none]
      exact hs.of_quiet ⟨rfl, rfl, rfl, rfl, rfl⟩ rfl rfl
    · simp only [note, hsome, Option.map_some, Option.getD_some]
      have hs' : Solvent h token 0 ({ s with proposals := proposals }, g) :=
        hs.of_quiet ⟨rfl, rfl, rfl, rfl, rfl⟩ rfl rfl
      exact solvent_seize hs' hseize
  | setMaxInvestorConcentration admin maxBps =>
    rw [setMaxInvestorConcentration_eq_ok hstep]
    exact hs.of_quiet ⟨rfl, rfl, rfl, rfl, rfl⟩ rfl rfl
  | withdrawRevenue admin t amount => exact solvent_payRevenue hs (withdrawRevenue_eq_ok hstep)
  | withdrawRevenueViaAc accessControl t amount =>
    exact solvent_payRevenue hs (withdrawRevenueViaAc_eq_ok hstep)
  | receiveInsurancePayout insurance t amount =>
    obtain ⟨-, -, rfl⟩ := receiveInsurancePayout_eq_ok hstep
    exact hs.of_move (d := 0) ⟨rfl, rfl, rfl, rfl, rfl⟩ rfl (by simp) fun heq => absurd heq hok
  | marketSettleListing market listing =>
    obtain ⟨_, s₁, _, _, -, -, hmove, -, -, rfl⟩ := marketSettleListing_eq_ok hstep
    exact (solvent_moveCoFundShare hs hmove).of_quiet ⟨rfl, rfl, rfl, rfl, rfl⟩ rfl rfl
  | setParams params =>
    obtain rfl := Except.ok.inj hstep
    exact ⟨⟨hok, hs.regular.records, hs.regular.fresh, hs.regular.rounds, hs.regular.unopened⟩,
      hs.backed⟩
  | assetTransfer t sender receiver amount =>
    obtain ⟨hauth, hnn, rfl⟩ := assetTransfer_eq_ok hstep
    have hne : h.self ≠ sender := fun heq => hself (heq ▸ hauth)
    refine hs.of_cash ⟨rfl, rfl, rfl, rfl, rfl⟩ rfl ?_
    dsimp only
    rw [State.moveCash_apply]
    simp only [hne, and_false, if_false]
    split_ifs <;> omega
  | cancelWithdrawalRequest | adjustWithdrawalRequest | proposeOperation | cancelOperation |
  neighbours | advance | shareTransfer =>
      have hparams : s'.params = s.params := exec_kept .params rfl hstep
      have hsame : SameBooks s s' := ⟨exec_kept .funded rfl hstep, exec_kept .collateral rfl hstep,
        exec_kept .rounds rfl hstep, exec_kept .coFundCommitted rfl hstep, by rw [hparams]⟩
      exact hs.of_quiet hsame (exec_kept .totals rfl hstep) (exec_kept .cash rfl hstep)

theorem solvent_initial (h : Host W) (now : ℕ) (world : W) (cash : Address → Address → ℤ)
    (shareTokens : Address → Share.ShareToken) (admin token share invoiceContract : Address)
    (t : Address) (hcash : 0 ≤ cash t h.self) :
    Solvent h t 0
      (initialState now world cash shareTokens admin token share invoiceContract, {}) := by
  refine ⟨⟨rfl, fun id record hget => ?_, fun _ _ => rfl, fun id round hget => ?_,
    fun _ _ _ => rfl⟩, ?_⟩
  · cases hget
  · cases hget
  · have htt : (initialState now world cash shareTokens admin token share invoiceContract).tt t =
        {} := by
      by_cases ht : t = token <;> simp [initialState, State.tt, ht]
    dsimp only
    rw [htt]
    simpa [netValue, State.held, initialState] using hcash

/-- In every run from `initialize` whose calls book no claim on a token that money does not back,
the balance of the pool covers the value that is not lent out, the protocol revenue, the unsettled
collateral and the commitments of the open co-funding rounds in the token. -/
theorem balance_covers_liabilities (h : Host W) (hreward : RewardsWithinFee h) (now : ℕ) (world : W)
    (cash : Address → Address → ℤ) (shareTokens : Address → Share.ShareToken)
    (admin token share invoiceContract t : Address) (hcash : 0 ≤ cash t h.self)
    (x : State W × Marks)
    (hrun : Reaches (marked h) (SolvencyOk h t)
      (initialState now world cash shareTokens admin token share invoiceContract, {}) x) :
    (x.1.tt t).poolValue - (x.1.tt t).totalDeployed + max (x.1.tt t).protocolRevenue 0 +
      x.1.collateral.total (heldCollateral t) + x.1.rounds.total (openCommitment t) ≤
        x.1.cash t h.self := by
  have hs : Solvent h t 0 x := by
    refine hrun.invariant
      (solvent_initial h now world cash shareTokens admin token share invoiceContract t hcash) ?_
    rintro ⟨s, g⟩ tx ⟨s', g'⟩ hs hok hstep
    obtain ⟨hexec, rfl⟩ := marked_eq_ok.1 hstep
    exact solvent_exec hreward hs hok hexec
  have hpart : 0 ≤ x.1.funded.total (partPayment x.2 t) := by
    refine Store.total_nonneg fun id record hget => ?_
    have := (hs.regular.records id record hget).1
    unfold partPayment
    split_ifs <;> omega
  have hb := hs.backed
  unfold netValue State.held at hb
  omega

theorem balance_covers_liabilities_settled :
    ∃ x, (yearLoan ++ [settlement]).foldlM (marked quietHost) (sampleState, {}) = .ok x ∧
      Reaches (marked quietHost) (SolvencyOk quietHost 10) (sampleState, {}) x ∧
      (x.1.tt 10).poolValue = 1080 ∧
      (x.1.tt 10).poolValue - (x.1.tt 10).totalDeployed + max (x.1.tt 10).protocolRevenue 0 +
        x.1.collateral.total (heldCollateral 10) + x.1.rounds.total (openCommitment 10) ≤
          x.1.cash 10 0 := by
  obtain ⟨x, hx, hvalue⟩ := exists_of_check
    (x := (yearLoan ++ [settlement]).foldlM (marked quietHost) (sampleState, {}))
    (p := fun x => decide ((x.1.tt 10).poolValue = 1080)) (by decide)
  have hbefore : Along (marked quietHost) (SolvencyOk quietHost 10) (sampleState, {}) yearLoan := by
    refine ⟨trivial, fun x₁ h₁ => ⟨fun s₁ s₂ hd _ => ?_, fun x₂ h₂ => ⟨fun _ => ?_,
      fun _ _ => ⟨trivial, fun _ _ => trivial⟩⟩⟩⟩
    · apply cleanPass_of_empty
      rw [hd.queue, setMaxInvestorConcentration_eq_ok (marked_eq_ok.1 h₁).1]
      rfl
    · intro s₁ contract premium w _ _ hcover
      cases hcover
  have halong : Along (marked quietHost) (SolvencyOk quietHost 10) (sampleState, {})
      (yearLoan ++ [settlement]) := by
    refine along_append hbefore fun y hy => ⟨fun q hq _ => ?_, fun _ _ => trivial⟩
    have hloan := of_check (p := fun y => decide (
      (y.1.funded.get 7).map FundedInvoice.coFundingRoundId = some none ∧
        y.2.settled 7 = false ∧ y.1.queue 10 = [])) (by decide) hy
    obtain ⟨hrecord, hopen, hempty⟩ := of_decide_eq_true hloan
    obtain ⟨-, hget, -⟩ := quoteRepayment_eq_ok hq
    have hnone : q.record.coFundingRoundId = none := by
      rw [hget] at hrecord
      exact Option.some.inj hrecord
    refine ⟨⟨fun _ _ => hopen, fun roundId _ hid => ?_⟩, fun s₁ history hb => ?_⟩
    · rw [hnone] at hid
      cases hid
    · apply cleanPass_of_empty
      rw [bookRepayment_queue hb]
      exact hempty
  have hrun := reaches_of_along .refl halong hx
  have hreward : RewardsWithinFee quietHost := by
    intro w registry referee kind fee token reward w' hact
    cases hact
  exact ⟨x, hx, hrun, of_decide_eq_true hvalue,
    balance_covers_liabilities quietHost hreward 1 () _ _ 1 10 20 2 10 (by decide) x hrun⟩

/-- The investor then claims the yield, which is already part of the pool value: the pool is worth
1080 and holds 1000. -/
theorem claimed_yield_uncovered :
    ∃ s, execAll quietHost sampleState
        (yearLoan ++ [settlement, ⟨[3], by decide, .claimYield 3 10⟩]) = .ok s ∧
      ¬ ((s.tt 10).poolValue - (s.tt 10).totalDeployed + max (s.tt 10).protocolRevenue 0 +
        s.collateral.total (heldCollateral 10) + s.rounds.total (openCommitment 10) ≤
          s.cash 10 0) := by
  obtain ⟨s, hs, hp⟩ := exists_of_check
    (x := execAll quietHost sampleState
      (yearLoan ++ [settlement, ⟨[3], by decide, .claimYield 3 10⟩]))
    (p := fun s => decide (¬ ((s.tt 10).poolValue - (s.tt 10).totalDeployed +
      max (s.tt 10).protocolRevenue 0 + s.collateral.total (heldCollateral 10) +
      s.rounds.total (openCommitment 10) ≤ s.cash 10 0))) (by decide)
  exact ⟨s, hs, of_decide_eq_true hp⟩

end Astera.Pool
