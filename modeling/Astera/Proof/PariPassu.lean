import Astera.Pool.Positions
import Astera.Proof.Rounds

/-!
# What a distribution adds up to

A payment on a co-funded loan is split with each part rounded down, and the remainder is booked in
the pool value and in the protocol revenue alike.  So the books grow by the payment exactly when
there is no remainder.
-/

namespace Astera.Pool

open Fallible Machine Transition

variable {W : Type} {h : Host W} {signers : List Address} {s s' : State W}
  {round : CoFundingRound} {roundId : ℕ} {payment : ℤ} {tt tt' : PoolTokenTotals}

def State.partOf (s : State W) (roundId : ℕ) (payment : ℤ) (holder : Address) : ℤ :=
  (payment * s.coFundShare roundId holder).tdiv 10000

/-- Every holder is credited its part once, and the books grow by the payment. -/
structure Distributes (s s' : State W) (tt tt' : PoolTokenTotals) (token : Address) (roundId : ℕ)
    (payment : ℤ) : Prop where
  credited : ∀ a, (s'.position a token).deposited =
    (s.position a token).deposited + s.partOf roundId payment a
  conserved : (tt'.poolValue - tt.poolValue) + (tt'.protocolRevenue - tt.protocolRevenue) = payment

theorem creditInvestorValue_deposited {token investor : Address} {amount : ℤ}
    (hrate : s.params.exchangeRate token = 10000) (hpos : 0 < amount)
    (hc : creditInvestorValue h signers s token investor amount tt = .ok (s', tt')) (a : Address) :
    (s'.position a token).deposited =
      (s.position a token).deposited + if a = investor then amount else 0 := by
  have hcredited := creditInvestorValue_credited hc
  rw [hcredited.deposited, set₂_apply, creditOf_at_par hrate hpos]
  by_cases ha : a = investor
  · subst ha
    rw [if_pos ⟨rfl, rfl⟩, if_pos rfl]
  · rw [if_neg fun hkey => ha hkey.1, if_neg ha, add_zero]

theorem distributeStep_deposited {acc acc' : State W × PoolTokenTotals × ℤ} {holder : Address}
    (hrate : acc.1.params.exchangeRate round.token = 10000) (hpay : 0 ≤ payment)
    (hd : distributeStep h signers round roundId payment acc holder = .ok acc') (a : Address) :
    (acc'.1.position a round.token).deposited = (acc.1.position a round.token).deposited +
      if a = holder then acc.1.partOf roundId payment holder else 0 := by
  unfold distributeStep at hd
  dsimp only at hd
  unfold State.partOf
  split_ifs at hd with hbps
  · obtain rfl := (pure_eq_ok _ _).1 hd
    simp [hbps]
  · rw [bind_eq_ok] at hd
    obtain ⟨amount, hamount, hd⟩ := hd
    have hnn := holderAmount_nonneg hpay hamount
    obtain rfl := holderAmount_eq_ok hamount
    split_ifs at hd with hpos
    · simp only [bind_eq_ok, pure_eq_ok] at hd
      obtain ⟨⟨s₁, tt₁⟩, hcredit, _, -, rfl⟩ := hd
      exact creditInvestorValue_deposited hrate hpos hcredit a
    · obtain rfl := (pure_eq_ok _ _).1 hd
      have hzero : (payment * acc.1.coFundShare roundId holder).tdiv 10000 = 0 := by omega
      rw [hzero, ite_self, add_zero]

theorem deposited_of_foldlM (hpay : 0 ≤ payment) (a : Address) :
    ∀ {holders : List Address} {acc acc' : State W × PoolTokenTotals × ℤ},
      acc.1.params.exchangeRate round.token = 10000 →
      holders.foldlM (distributeStep h signers round roundId payment) acc = .ok acc' →
      (acc'.1.position a round.token).deposited = (acc.1.position a round.token).deposited +
        holders.count a * acc.1.partOf roundId payment a := by
  intro holders
  induction holders with
  | nil =>
    intro acc acc' _ hf
    simp only [List.foldlM_nil, pure_eq_ok] at hf
    simp [hf]
  | cons holder holders ih =>
    intro acc acc' hrate hf
    rw [List.foldlM_cons, bind_eq_ok] at hf
    obtain ⟨acc₁, h₁, hf⟩ := hf
    obtain ⟨-, -, hshares, hparams⟩ := distributeStep_at_par hrate hpay h₁
    have hpart : acc₁.1.partOf roundId payment a = acc.1.partOf roundId payment a := by
      unfold State.partOf
      rw [hshares]
    rw [ih (by rw [hparams]; exact hrate) hf, distributeStep_deposited hrate hpay h₁ a, hpart,
      List.count_cons]
    by_cases ha : a = holder
    · subst ha
      simp
      ring
    · simp [ha, Ne.symm ha]

theorem foldlM_of_neg (hneg : payment < 0) {holders : List Address}
    {acc acc' : State W × PoolTokenTotals × ℤ}
    (hf : holders.foldlM (distributeStep h signers round roundId payment) acc = .ok acc') :
    acc' = acc := by
  refine foldlM_invariant (P := fun b => b = acc) ?_ rfl hf
  rintro b holder b' - rfl hstep
  rcases distributeStep_eq_ok hstep with rfl | ⟨amount, hamount, hpos, -, -⟩
  · rfl
  · rw [holderAmount_eq_ok hamount] at hpos
    have hle : payment * (b.1.coFundShare roundId holder : ℤ) ≤ 0 :=
      mul_nonpos_of_nonpos_of_nonneg hneg.le (Int.natCast_nonneg _)
    have := tdiv_mul_le (by norm_num) hpos
    omega

theorem booked_of_bookDust {tt₁ : PoolTokenTotals} {distributed : ℤ}
    (hpv : tt₁.poolValue = tt.poolValue + distributed)
    (hrevenue : tt₁.protocolRevenue = tt.protocolRevenue)
    (hb : bookDust tt₁ (payment - distributed) payment = .ok tt') :
    (tt'.poolValue - tt.poolValue) + (tt'.protocolRevenue - tt.protocolRevenue) = payment ↔
      distributed = payment := by
  obtain ⟨-, -, ⟨hpos, hvalue, -, hadded⟩ | ⟨hle, hvalue, hadded⟩⟩ := bookDust_eq_ok hb <;> omega

/-- At par a distribution credits every holder its part once and books exactly the payment if and
only if every holder with a part is listed once and the parts add up to the payment. -/
theorem distributes_iff (hround : s.rounds.get roundId = some round)
    (hrate : s.params.exchangeRate round.token = 10000)
    (hd : distributePariPassuRepayment h signers s roundId payment tt = .ok (s', tt')) :
    Distributes s s' tt tt' round.token roundId payment ↔
      0 ≤ payment ∧ (∀ a, 0 < s.partOf roundId payment a → round.participants.count a = 1) ∧
        (round.participants.map (s.partOf roundId payment)).sum = payment := by
  obtain ⟨round', tt₁, distributed, hround', hfold, hdust⟩ :=
    distributePariPassuRepayment_eq_ok hd
  obtain rfl : round = round' := Option.some.inj (hround.symm.trans hround')
  have hrevenue : tt₁.protocolRevenue = tt.protocolRevenue := by
    rw [(credits_of_distribute hfold).tt_eq]
  rcases lt_or_ge payment 0 with hneg | hpay
  · -- nothing is credited and nothing is booked
    obtain ⟨-, hacc⟩ := Prod.mk.inj (foldlM_of_neg hneg hfold)
    obtain ⟨rfl, rfl⟩ := Prod.mk.inj hacc
    have hbooked := booked_of_bookDust (by ring) rfl hdust
    refine iff_of_false (fun hdist => ?_) fun hcond => absurd hcond.1 (not_le.2 hneg)
    have := hbooked.1 hdist.conserved
    omega
  · obtain ⟨hsum, hpv⟩ := distribute_at_par hpay hrate hfold
    have hdistributed : distributed = (round.participants.map (s.partOf roundId payment)).sum := by
      rw [zero_add] at hsum
      exact hsum
    have hbooked := booked_of_bookDust (hpv.trans (by rw [sub_zero])) hrevenue hdust
    have hcredited (a : Address) : (s'.position a round.token).deposited =
        (s.position a round.token).deposited + s.partOf roundId payment a ↔
        (0 < s.partOf roundId payment a → round.participants.count a = 1) := by
      rw [deposited_of_foldlM hpay a hrate hfold]
      have hnn : 0 ≤ s.partOf roundId payment a :=
        Int.tdiv_nonneg (mul_nonneg hpay (Int.natCast_nonneg _)) (by norm_num)
      show _ + (round.participants.count a : ℤ) * s.partOf roundId payment a = _ ↔ _
      rw [add_right_inj]
      constructor
      · intro heq hpos
        have hone : (round.participants.count a : ℤ) = 1 :=
          mul_right_cancel₀ hpos.ne' (heq.trans (one_mul _).symm)
        exact_mod_cast hone
      · intro hone
        rcases hnn.eq_or_lt with hzero | hpos
        · rw [← hzero, mul_zero]
        · rw [hone hpos, Nat.cast_one, one_mul]
    rw [← hdistributed]
    constructor
    · intro hdist
      exact ⟨hpay, fun a => (hcredited a).1 (hdist.credited a), hbooked.1 hdist.conserved⟩
    · rintro ⟨-, honce, hexact⟩
      exact ⟨fun a => (hcredited a).2 (honce a), hbooked.2 hexact⟩

theorem RoundsOk.listed_once (hs : RoundsOk s) (hround : s.rounds.get roundId = some round)
    {a : Address} (hpart : 0 < s.partOf roundId payment a) : round.participants.count a = 1 := by
  have hroster := (hs.ok roundId round hround).roster
  have hshare : s.coFundShare roundId a ≠ 0 := by
    intro hzero
    unfold State.partOf at hpart
    rw [hzero, Nat.cast_zero, mul_zero, Int.zero_tdiv] at hpart
    exact hpart.false
  exact List.count_eq_one_of_mem hroster.nodup (hroster.listed a hshare)

theorem distributes_iff_exact :
    ∃ s round s' tt', execAll quietHost sampleState filledRound = .ok s ∧
      s.rounds.get 7 = some round ∧ round.status = .Filled ∧
      distributePariPassuRepayment quietHost [4] s 7 1000 (s.tt 10) = .ok (s', tt') ∧
      Distributes s s' (s.tt 10) tt' round.token 7 1000 := by
  obtain ⟨s, hs, hp⟩ := exists_of_check (x := execAll quietHost sampleState filledRound)
    (p := fun s => check (distributePariPassuRepayment quietHost [4] s 7 1000 (s.tt 10)) fun _ =>
      decide (∃ round ∈ s.rounds.get 7, round.status = .Filled ∧
        s.params.exchangeRate round.token = 10000 ∧
        (round.participants.map (s.partOf 7 1000)).sum = 1000)) (by decide)
  obtain ⟨⟨s', tt'⟩, hd, hp⟩ := exists_of_check hp
  obtain ⟨round, hround, hfilled, hrate, hexact⟩ := of_decide_eq_true hp
  have halong : Along (exec quietHost) (RoundCallOk quietHost) sampleState filledRound := by
    decide
  have hok := roundsOk_of_reaches (reaches_of_along .refl halong hs)
  exact ⟨s, round, s', tt', hs, hround, hfilled, hd, (distributes_iff hround hrate hd).2
    ⟨by decide, fun a => hok.listed_once hround, hexact⟩⟩

/-- An investor commits twice without getting a basis point, and then the rest of the target. -/
def listedThrice : List (Tx quietHost) :=
  [⟨[1], self_ne_one, .setMaxInvestorConcentration 1 10000⟩,
    ⟨[3], self_ne_three, .deposit 3 10 200000 none⟩,
    ⟨[1], self_ne_one, .openCoFunding 1 ⟨7, 10, 100000, 4, 31536001, 1000, 0, 0⟩⟩,
    ⟨[3], self_ne_three, .commitToInvoice 3 7 1⟩,
    ⟨[3], self_ne_three, .commitToInvoice 3 7 1⟩,
    ⟨[3], self_ne_three, .commitToInvoice 3 7 99998⟩,
    ⟨[4], self_ne_four, .finalizeCoFunding 4 7⟩]

/-- Of a payment of 1001 one is left over, and the books grow by 1002; and a holder who is listed
three times is credited a payment of 100 three times. -/
theorem remainder_booked_twice :
    (∃ s round s' tt', execAll quietHost sampleState filledRound = .ok s ∧
      s.rounds.get 7 = some round ∧ round.status = .Filled ∧
      s.params.exchangeRate round.token = 10000 ∧
      distributePariPassuRepayment quietHost [4] s 7 1001 (s.tt 10) = .ok (s', tt') ∧
      tt'.poolValue = (s.tt 10).poolValue + 1001 ∧
      tt'.protocolRevenue = (s.tt 10).protocolRevenue + 1) ∧
    (∃ s round s' tt', execAll quietHost sampleState listedThrice = .ok s ∧
      s.rounds.get 7 = some round ∧ round.status = .Filled ∧
      s.params.exchangeRate round.token = 10000 ∧
      distributePariPassuRepayment quietHost [4] s 7 100 (s.tt 10) = .ok (s', tt') ∧
      (s'.position 3 10).deposited = (s.position 3 10).deposited + 300 ∧
      tt'.poolValue = (s.tt 10).poolValue + 300) := by
  constructor
  · obtain ⟨s, hs, hp⟩ := exists_of_check (x := execAll quietHost sampleState filledRound)
      (p := fun s => check (distributePariPassuRepayment quietHost [4] s 7 1001 (s.tt 10)) fun r =>
        decide (∃ round ∈ s.rounds.get 7, round.status = .Filled ∧
          s.params.exchangeRate round.token = 10000 ∧
          r.2.poolValue = (s.tt 10).poolValue + 1001 ∧
          r.2.protocolRevenue = (s.tt 10).protocolRevenue + 1)) (by decide)
    obtain ⟨⟨s', tt'⟩, hd, hp⟩ := exists_of_check hp
    obtain ⟨round, hround, hfilled, hrate, hvalue, hrevenue⟩ := of_decide_eq_true hp
    exact ⟨s, round, s', tt', hs, hround, hfilled, hrate, hd, hvalue, hrevenue⟩
  · obtain ⟨s, hs, hp⟩ := exists_of_check (x := execAll quietHost sampleState listedThrice)
      (p := fun s => check (distributePariPassuRepayment quietHost [4] s 7 100 (s.tt 10)) fun r =>
        decide (∃ round ∈ s.rounds.get 7, round.status = .Filled ∧
          s.params.exchangeRate round.token = 10000 ∧
          (r.1.position 3 10).deposited = (s.position 3 10).deposited + 300 ∧
          r.2.poolValue = (s.tt 10).poolValue + 300)) (by decide)
    obtain ⟨⟨s', tt'⟩, hd, hp⟩ := exists_of_check hp
    obtain ⟨round, hround, hfilled, hrate, hdeposited, hvalue⟩ := of_decide_eq_true hp
    exact ⟨s, round, s', tt', hs, hround, hfilled, hrate, hd, hdeposited, hvalue⟩

end Astera.Pool
