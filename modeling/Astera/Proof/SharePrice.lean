import Astera.Pool.QueueBooks
import Astera.Pool.System

/-!
# The share price under rounding

Mints round the shares down and withdrawals the value, so neither lowers the share price.  A
commitment keeps it exactly when nothing is rounded off, and a pass when the shares burned in every
partial settlement are worth what is paid for them.
-/

namespace Astera.Pool

open Fallible Machine

variable {W : Type}
variable {investor share token : Address} {round : CoFundingRound} {s s' : State W} {invoiceId : ℕ}
  {amount poolValue shares totalShares : ℤ}

/-- The value of a share in `token` did not fall from `s` to `s'`. -/
def PriceKept (token share : Address) (s s' : State W) : Prop :=
  (s.tt token).poolValue * s'.supply share ≤ (s'.tt token).poolValue * s.supply share

theorem PriceKept.trans {s s₁ s₂ : State W} (hs₁ : 0 < s₁.supply share)
    (h₁ : PriceKept token share s s₁) (h₂ : PriceKept token share s₁ s₂) :
    PriceKept token share s s₂ :=
  ratio_trans (supply_nonneg s share) hs₁ (supply_nonneg s₂ share) h₁ h₂

theorem priceKept_iff (hpv : (s'.tt token).poolValue = poolValue)
    (hts : s'.supply share = totalShares) :
    PriceKept token share s s' ↔
      (s.tt token).poolValue * totalShares ≤ poolValue * s.supply share := by
  unfold PriceKept
  rw [hpv, hts]

/-! ## Withdrawals and refunds -/

theorem price_of_burn (hpv : 0 < poolValue) (hts : 0 < totalShares) (hsh : 0 < shares) :
    poolValue * (totalShares + -shares) ≤
      (poolValue - (shares * poolValue).tdiv totalShares) * totalShares := by
  have := tdiv_mul_le_of_nonneg hts (mul_nonneg hsh.le hpv.le)
  linarith

section Calls

variable {h : Host W} {signers : List Address} {s s' : State W} {token share : Address}

theorem price_withdraw (hshare : s.shareToken token = some share) (hpv : 0 < (s.tt token).poolValue)
    (hts : 0 < s.supply share) (hw : withdraw h signers s investor token shares = .ok s') :
    PriceKept token share s s' := by
  obtain ⟨share', usdc, amount, st, position, _, hshare', hpos, -, rfl, -, -, -, -, hmoved, -, rfl⟩ :=
    withdraw_eq_ok hw
  obtain rfl : share' = share := Option.some.inj (hshare'.symm.trans hshare)
  rw [priceKept_iff (congrArg _ (State.tt_self rfl)) (State.supply_of_moved hmoved rfl)]
  exact price_of_burn hpv hts hpos

theorem price_requestWithdrawal {r : State W × ℕ} (hshare : s.shareToken token = some share)
    (hpv : 0 < (s.tt token).poolValue) (hts : 0 < s.supply share)
    (hw : requestWithdrawal h signers s investor token shares = .ok r) :
    PriceKept token share s r.1 := by
  obtain ⟨share', amount, hshare', hpos, -, -, -, rfl, ⟨-, hnow⟩ | hqueue⟩ :=
    requestWithdrawal_eq_ok hw
  · obtain rfl : share' = share := Option.some.inj (hshare'.symm.trans hshare)
    obtain ⟨st, position, hmoved, -, -, -, hr⟩ := processImmediateWithdrawal_eq_ok hnow
    rw [hr, priceKept_iff (congrArg _ (State.tt_self rfl)) (State.supply_of_moved hmoved rfl)]
    exact price_of_burn hpv hts hpos
  · obtain ⟨_, _, -, -, hr⟩ := enqueueWithdrawal_eq_ok hpos hqueue
    rw [hr]
    exact le_rfl

theorem price_credits {s₁ : State W} {tt : PoolTokenTotals}
    (hshare : s.shareToken token = some share) (hpv : 0 < (s.tt token).poolValue)
    (hts : 0 < s.supply share) (hc : Credits token s s₁ (s.tt token) tt)
    (hpv' : (s'.tt token).poolValue = tt.poolValue) (hts' : s'.supply share = s₁.supply share) :
    PriceKept token share s s' :=
  (priceKept_iff hpv' hts').2 (hc.price share hshare hts hpv).1

theorem price_withdrawCoFundingCommitment (hround : s.rounds.get invoiceId = some round)
    (hshare : s.shareToken round.token = some share) (hpv : 0 < (s.tt round.token).poolValue)
    (hts : 0 < s.supply share)
    (hw : withdrawCoFundingCommitment h signers s investor invoiceId = .ok s') :
    PriceKept round.token share s s' := by
  obtain ⟨round', s₁, tt, refunded, hround', -, hrefund, -, rfl⟩ :=
    withdrawCoFundingCommitment_eq_ok hw
  obtain rfl : round' = round := Option.some.inj (hround'.symm.trans hround)
  exact price_credits hshare hpv hts (credits_of_refundCoFundingInvestor hrefund)
    (by simp [State.tt]) rfl

theorem price_finalizeCoFunding {caller : Address} (hround : s.rounds.get invoiceId = some round)
    (hshare : s.shareToken round.token = some share) (hpv : 0 < (s.tt round.token).poolValue)
    (hts : 0 < s.supply share) (hf : finalizeCoFunding h signers s caller invoiceId = .ok s') :
    PriceKept round.token share s s' := by
  obtain ⟨round', hround', -, hfill | hexpire⟩ := finalizeCoFunding_eq_ok hf
  · obtain ⟨_, _, _, -, -, rfl⟩ := fillRound_eq_ok hfill
    exact le_rfl
  · obtain rfl : round' = round := Option.some.inj (hround'.symm.trans hround)
    obtain ⟨s₁, tt, total, hfold, rfl⟩ := expireRound_eq_ok hexpire
    exact price_credits hshare hpv hts (credits_of_expire hfold) (by simp [State.tt]) rfl

theorem price_commitToInvoice_iff {c : Commitment} (hround : s.rounds.get invoiceId = some round)
    (hguards : commitGuards signers s investor amount round = .ok c)
    (hshare : s.shareToken round.token = some share) (hpv : 0 < (s.tt round.token).poolValue)
    (hc : commitToInvoice h signers s investor invoiceId amount = .ok s') :
    PriceKept round.token share s s' ↔
      (s.tt round.token).poolValue ∣ c.usdc * s.supply share := by
  obtain ⟨round', c', st, position, _, _, hround', hguards', hmoved, -, -, -, -, -, rfl⟩ :=
    commitToInvoice_eq_ok hc
  obtain rfl : round' = round := Option.some.inj (hround'.symm.trans hround)
  obtain rfl : c' = c := Except.ok.inj (hguards'.symm.trans hguards)
  obtain ⟨-, hamount, -, hshare', husdc, -, -, hburned, -⟩ := commitGuards_eq_ok hguards
  obtain rfl : c'.share = share := Option.some.inj (hshare'.symm.trans hshare)
  have hnn : 0 ≤ c'.usdc * s.supply c'.share :=
    mul_nonneg (usdcValue_nonneg hamount.le husdc) (supply_nonneg s _)
  rw [Int.tdiv_eq_ediv_of_nonneg hnn] at hburned
  rw [priceKept_iff (congrArg _ (State.tt_self rfl)) (State.supply_of_moved hmoved rfl)]
  have hmod := Int.emod_add_mul_ediv (c'.usdc * s.supply c'.share) (s.tt round'.token).poolValue
  have hmodnn := Int.emod_nonneg (c'.usdc * s.supply c'.share) hpv.ne'
  rw [← hburned] at hmod
  constructor
  · intro hle
    exact Int.dvd_of_emod_eq_zero (by linarith)
  · intro hdvd
    rw [Int.emod_eq_zero_of_dvd hdvd] at hmod
    linarith

/-- In every partial settlement of the pass the burned shares are worth what is paid. -/
def FairPass (s : State W) (token : Address) (availableAmount : ℤ) : Prop :=
  ∀ share, s.shareToken token = some share →
    ∀ m ∈ passPayments (planPass s token availableAmount), m.burned < m.request.shares →
      m.payout * s.supply share ≤ (s.tt token).poolValue * m.burned

theorem totalPayout_le {made : List Payment}
    (hm : ∀ m ∈ made, m.payout * totalShares ≤ poolValue * m.burned) :
    totalPayout made * totalShares ≤ poolValue * totalBurned made := by
  induction made with
  | nil => simp [totalPayout, totalBurned]
  | cons m made ih =>
    have hhead := hm m (by simp)
    have htail := ih fun m' hm' => hm m' (List.mem_cons_of_mem _ hm')
    simp only [totalPayout, totalBurned, List.map_cons, List.sum_cons] at htail ⊢
    linarith

theorem supply_of_settled {s s' : State W} {pool token share : Address} {made : List Payment}
    {st : Address → Share.ShareToken} {cash : Address → Address → ℤ}
    (hm : Settled pool token share made s.shareTokens st s.cash cash)
    (hst : s'.shareTokens = st) : s'.supply share = s.supply share - totalBurned made := by
  unfold State.supply
  rw [hst, hm.supply share, if_pos rfl]

theorem price_processWithdrawalQueue {availableAmount : ℤ} {o : Option PoolError}
    (hshare : s.shareToken token = some share) (hpv : 0 ≤ (s.tt token).poolValue)
    (hfair : FairPass s token availableAmount)
    (hq : processWithdrawalQueue h signers s token availableAmount = .ok (s', o)) :
    PriceKept token share s s' := by
  cases o with
  | none =>
    rcases processWithdrawalQueue_eq_none hq with rfl |
      ⟨share', p, st, cash, requests, hplan, hsound, hset, rfl⟩
    · exact le_rfl
    · obtain rfl : share' = share := Option.some.inj (hsound.registered.symm.trans hshare)
      obtain ⟨amount, -, -, hp, -⟩ := hsound.amount
      have hfair' : ∀ m ∈ p.payments, m.payout * s.supply share' ≤
          (s.tt token).poolValue * m.burned := by
        intro m hm
        obtain ⟨-, hpos, budget, cohortShares, hprice⟩ := hp.priced m hm
        by_cases hlt : m.burned < m.request.shares
        · refine hfair share' hshare m ?_ hlt
          rw [hplan]
          exact hm
        · have hvalue := requestPayout_value hprice hpos
          obtain ⟨-, -, -, ⟨-, hb⟩ | ⟨hpart, hb⟩⟩ := requestPayout_eq_ok hprice hpos
          · rw [hb]
            linarith
          · have hnn : 0 ≤ (s.tt token).poolValue * (m.burned - m.request.shares) :=
              mul_nonneg hpv (by omega)
            linarith
      have hsum := totalPayout_le hfair'
      rw [priceKept_iff (congrArg _ (State.tt_self rfl)) (supply_of_settled hset rfl),
        hp.poolValue_eq]
      linarith
  | some e =>
    rcases processWithdrawalQueue_eq_some hq with ⟨-, rfl⟩ |
      ⟨share', made, st, cash, requests, -, hshare', hset, rfl⟩
    · exact le_rfl
    · obtain rfl : share' = share := Option.some.inj (hshare'.symm.trans hshare)
      have hburned : 0 ≤ totalBurned made := by
        apply List.sum_nonneg
        intro x hx
        obtain ⟨m, hm, rfl⟩ := List.mem_map.1 hx
        exact (hset.burned_pos m hm).le
      rw [priceKept_iff rfl (supply_of_settled hset rfl)]
      change _ ≤ (s.tt token).poolValue * s.supply share'
      have : 0 ≤ (s.tt token).poolValue * totalBurned made := mul_nonneg hpv hburned
      linarith

theorem price_deposit {minRate : Option ℕ} (hshare : s.shareToken token = some share)
    (hpv : 0 < (s.tt token).poolValue) (hts : 0 < s.supply share)
    (hfair : ∀ s₁ s₂, DepositReaches h signers s investor token amount s₁ s₂ →
      FairPass s₂ token (liquidAfter s₁ token))
    (hd : deposit h signers s investor token amount minRate = .ok s') :
    PriceKept token share s s' := by
  obtain ⟨usdc, s₁, s₂, o, -, hpos, husdc, heff, href, hq⟩ := deposit_eq_ok hd
  have hf := hfair s₁ s₂ ⟨usdc, husdc, heff, href⟩
  obtain ⟨share', minted, st, position, inflow, hshare', hminted, hm, -, hmoved, -, -, -, hs₁⟩ :=
    depositEffects_eq_ok heff
  obtain rfl : share' = share := Option.some.inj (hshare'.symm.trans hshare)
  have hnn := usdcValue_nonneg hpos.le husdc
  -- the deposit itself, then the referral call, which touches neither figure
  have hfigures : (s₂.tt token).poolValue = (s₁.tt token).poolValue ∧
      s₂.supply share' = s₁.supply share' ∧ s₂.shareToken = s₁.shareToken := by
    rcases State.recordReferralActivity_eq_ok href with ⟨w, rfl⟩ | ⟨_, _, w, -, -, -, rfl⟩
    · exact ⟨rfl, rfl, rfl⟩
    · exact ⟨by simp [State.tt], rfl, rfl⟩
  have hpv₁ : (s₁.tt token).poolValue = (s.tt token).poolValue + usdc := by
    rw [hs₁]
    simp [State.tt]
  have hsup₁ : s₁.supply share' = s.supply share' + minted := by
    rw [hs₁]
    exact State.supply_of_moved hmoved rfl
  have hshare₂ : s₂.shareToken token = some share' := by
    rw [hfigures.2.2, hs₁]
    exact hshare
  have hkept : PriceKept token share' s s₂ := by
    rw [priceKept_iff (hfigures.1.trans hpv₁) (hfigures.2.1.trans hsup₁)]
    exact sharesToMint_price hnn hts hpv hminted
  refine hkept.trans ?_ (price_processWithdrawalQueue hshare₂ ?_ hf hq)
  · rw [hfigures.2.1, hsup₁]
    omega
  · rw [hfigures.1, hpv₁]
    omega

end Calls

def pricedToken (s : State W) : Call W → Option Address
  | .deposit _ token _ _ | .withdraw _ token _ | .requestWithdrawal _ token _
  | .drainWithdrawalQueue _ token => some token
  | .commitToInvoice _ invoiceId _ | .withdrawCoFundingCommitment _ invoiceId
  | .finalizeCoFunding _ invoiceId => (s.rounds.get invoiceId).map CoFundingRound.token
  | _ => none

/-- The roundings of a call that burns shares for a value are in the pool's favour. -/
def RoundsFairly (h : Host W) (s : State W) (tx : Tx h) : Prop :=
  match tx.call with
  | .deposit investor token amount _ => ∀ s₁ s₂,
      DepositReaches h tx.signers s investor token amount s₁ s₂ →
        FairPass s₂ token (liquidAfter s₁ token)
  | .drainWithdrawalQueue _ token =>
    FairPass s token ((s.tt token).poolValue - (s.tt token).totalDeployed)
  | .commitToInvoice investor invoiceId amount => ∀ round c,
      s.rounds.get invoiceId = some round →
      commitGuards tx.signers s investor amount round = .ok c →
        (s.tt round.token).poolValue ∣ c.usdc * s.supply c.share
  | _ => True

theorem price_exec {h : Host W} {tx : Tx h} (hcall : pricedToken s tx.call = some token)
    (hshare : s.shareToken token = some share) (hpv : 0 < (s.tt token).poolValue)
    (hts : 0 < s.supply share) (hfair : RoundsFairly h s tx) (hstep : exec h s tx = .ok s') :
    PriceKept token share s s' := by
  obtain ⟨signers, hself, call⟩ := tx
  cases call with
  | deposit investor token' amount minRate =>
    obtain rfl : token' = token := Option.some.inj hcall
    exact price_deposit hshare hpv hts hfair hstep
  | withdraw investor token' shares =>
    obtain rfl : token' = token := Option.some.inj hcall
    exact price_withdraw hshare hpv hts hstep
  | requestWithdrawal investor token' shares =>
    obtain rfl : token' = token := Option.some.inj hcall
    obtain ⟨r, hr, rfl⟩ := (map_eq_ok _ _ _).1 hstep
    exact price_requestWithdrawal hshare hpv hts hr
  | drainWithdrawalQueue caller token' =>
    obtain rfl : token' = token := Option.some.inj hcall
    obtain ⟨liquid, rfl, hq⟩ := drainWithdrawalQueue_eq_ok hstep
    exact price_processWithdrawalQueue hshare hpv.le hfair hq
  | commitToInvoice investor invoiceId amount =>
    obtain ⟨round, hget, rfl⟩ := Option.map_eq_some_iff.1 hcall
    obtain ⟨round', c, _, _, _, _, hget', hguards, -⟩ := commitToInvoice_eq_ok hstep
    obtain rfl : round' = round := Option.some.inj (hget'.symm.trans hget)
    refine (price_commitToInvoice_iff hget hguards hshare hpv hstep).2 ?_
    have hdvd := hfair round' c hget hguards
    obtain ⟨-, -, -, hshare', -⟩ := commitGuards_eq_ok hguards
    rwa [Option.some.inj (hshare'.symm.trans hshare)] at hdvd
  | withdrawCoFundingCommitment investor invoiceId =>
    obtain ⟨round, hget, rfl⟩ := Option.map_eq_some_iff.1 hcall
    exact price_withdrawCoFundingCommitment hget hshare hpv hts hstep
  | finalizeCoFunding caller invoiceId =>
    obtain ⟨round, hget, rfl⟩ := Option.map_eq_some_iff.1 hcall
    exact price_finalizeCoFunding hget hshare hpv hts hstep
  | _ => cases hcall

theorem roundsFairly_of_priceKept {h : Host W} {tx : Tx h}
    (hcommit : tx.call = .commitToInvoice investor invoiceId amount)
    (hcall : pricedToken s tx.call = some token) (hshare : s.shareToken token = some share)
    (hpv : 0 < (s.tt token).poolValue) (hstep : exec h s tx = .ok s')
    (hkept : PriceKept token share s s') : RoundsFairly h s tx := by
  obtain ⟨signers, hself, call⟩ := tx
  obtain rfl : call = _ := hcommit
  intro round c hget hguards
  obtain ⟨round', hget', rfl⟩ := Option.map_eq_some_iff.1 hcall
  obtain rfl : round' = round := Option.some.inj (hget'.symm.trans hget)
  have hdvd := (price_commitToInvoice_iff hget hguards hshare hpv hstep).1 hkept
  obtain ⟨-, -, -, hshare', -⟩ := commitGuards_eq_ok hguards
  rwa [Option.some.inj (hshare'.symm.trans hshare)]

/-- As long as the roundings of the burned shares are in the pool's favour, no deposit, withdrawal,
commitment or refund lowers the share price, and no settlement of the queue does, in whatever call
it runs; a commitment keeps the price only then. -/
theorem share_price_kept (h : Host W) (s : State W) (token share : Address)
    (hshare : s.shareToken token = some share) (hpv : 0 < (s.tt token).poolValue)
    (hts : 0 < s.supply share) :
    (∀ tx s', pricedToken s tx.call = some token → exec h s tx = .ok s' →
      (RoundsFairly h s tx → PriceKept token share s s') ∧
      (∀ investor invoiceId amount, tx.call = .commitToInvoice investor invoiceId amount →
        PriceKept token share s s' → RoundsFairly h s tx)) ∧
    ∀ signers availableAmount s' o,
      processWithdrawalQueue h signers s token availableAmount = .ok (s', o) →
        FairPass s token availableAmount → PriceKept token share s s' := by
  constructor
  · intro tx s' hcall hstep
    constructor
    · intro hfair
      exact price_exec hcall hshare hpv hts hfair hstep
    · intro investor invoiceId amount hcommit hkept
      exact roundsFairly_of_priceKept hcommit hcall hshare hpv hstep hkept
  · intro signers availableAmount s' o hq hfair
    exact price_processWithdrawalQueue hshare hpv.le hfair hq

/-- A pool of 1000 shares that earned 80 on a loan, with a round open for investments. -/
def openRound : List (Tx quietHost) :=
  [⟨[1], self_ne_one, .setMaxInvestorConcentration 1 10000⟩,
    ⟨[3], self_ne_three, .deposit 3 10 1000 none⟩,
    ⟨[1], self_ne_one, .fundInvoice 1 ⟨7, 1000, 4, 31536001, 10⟩⟩,
    ⟨[], self_notMem_nil, .advance 31536001⟩,
    ⟨[4], self_ne_four, .repayInvoice 4 ⟨7, 2000⟩⟩,
    ⟨[1], self_ne_one, .openCoFunding 1 ⟨8, 10, 100, 4, 50000000, 40000000, 0, 0⟩⟩]

theorem share_price_kept_openRound :
    ∃ s, execAll quietHost sampleState openRound = .ok s ∧ s.shareToken 10 = some 20 ∧
      0 < (s.tt 10).poolValue ∧ 0 < s.supply 20 ∧
      ((∀ tx s', pricedToken s tx.call = some 10 → exec quietHost s tx = .ok s' →
        (RoundsFairly quietHost s tx → PriceKept 10 20 s s') ∧
        (∀ investor invoiceId amount, tx.call = .commitToInvoice investor invoiceId amount →
          PriceKept 10 20 s s' → RoundsFairly quietHost s tx)) ∧
      ∀ signers availableAmount s' o,
        processWithdrawalQueue quietHost signers s 10 availableAmount = .ok (s', o) →
          FairPass s 10 availableAmount → PriceKept 10 20 s s') := by
  obtain ⟨s, hs, hp⟩ := exists_of_check (x := execAll quietHost sampleState openRound)
    (p := fun s => decide (s.shareToken 10 = some 20 ∧ 0 < (s.tt 10).poolValue ∧ 0 < s.supply 20))
    (by decide)
  obtain ⟨hshare, hpv, hts⟩ := of_decide_eq_true hp
  exact ⟨s, hs, hshare, hpv, hts, share_price_kept quietHost s 10 20 hshare hpv hts⟩

/-- A commitment of 100 there burns 92 shares, worth 99. -/
theorem commitment_lowers_price :
    ∃ s s', execAll quietHost sampleState openRound = .ok s ∧
      exec quietHost s ⟨[3], by decide, .commitToInvoice 3 8 100⟩ = .ok s' ∧
      s.params.exchangeRate 10 = 10000 ∧ s.shareToken 10 = some 20 ∧ 0 < (s.tt 10).poolValue ∧
      0 < s.supply 20 ∧ 0 < s'.supply 20 ∧ ¬ PriceKept 10 20 s s' := by
  obtain ⟨s, hs, hp⟩ := exists_of_check (x := execAll quietHost sampleState openRound)
    (p := fun s => check (exec quietHost s ⟨[3], by decide, .commitToInvoice 3 8 100⟩) fun s' =>
      decide (s.params.exchangeRate 10 = 10000 ∧ s.shareToken 10 = some 20 ∧
        0 < (s.tt 10).poolValue ∧ 0 < s.supply 20 ∧ 0 < s'.supply 20 ∧
        (s'.tt 10).poolValue * s.supply 20 < (s.tt 10).poolValue * s'.supply 20))
    (by decide)
  obtain ⟨s', hs', hp⟩ := exists_of_check hp
  obtain ⟨hrate, hshare, hpv, hts, hts', hlt⟩ := of_decide_eq_true hp
  exact ⟨s, s', hs, hs', hrate, hshare, hpv, hts, hts', not_le.2 hlt⟩

end Astera.Pool
