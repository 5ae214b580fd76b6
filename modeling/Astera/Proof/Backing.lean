import Astera.Pool.History

/-!
# What the pool owes and what it holds

Against the pool's balance stand the value that is not lent out, the protocol revenue, the unsettled
collateral, the commitments of open rounds, and the repayments of loans that are not settled.  The
balance covers them (`Solvent`); this file proves it of the parts the calls are made of.
-/

namespace Astera.Pool

open Fallible Machine Transition

variable {W : Type}
variable {payer : Address} {q : RepaymentQuote} {s s' : State W} {invoiceId : ℕ}

/-! ## Liabilities -/

/-- The value that is not lent out and the protocol revenue.  In a repayment the fee is set aside
until the referrer is paid from it. -/
def netValue (fee : ℤ) (tt : PoolTokenTotals) : ℤ :=
  tt.poolValue - tt.totalDeployed + max (tt.protocolRevenue - fee) 0 + fee

def heldCollateral (token : Address) (_ : ℕ) (col : CollateralDeposit) : ℤ :=
  if col.token = token ∧ col.settled = false then col.amount else 0

def openCommitment (token : Address) (_ : ℕ) (round : CoFundingRound) : ℤ :=
  if round.token = token ∧ round.status = .Open then round.committedPrincipal else 0

/-- What was repaid on an unsettled loan of the pool in the token. -/
def partPayment (g : Marks) (token : Address) (invoiceId : ℕ) (record : FundedInvoice) : ℤ :=
  if record.token = token ∧ record.coFundingRoundId = none ∧ g.settled invoiceId = false then
    record.repaidAmount
  else 0

/-- The money that the pool keeps for others. -/
def State.held (s : State W) (g : Marks) (token : Address) : ℤ :=
  s.collateral.total (heldCollateral token) + s.rounds.total (openCommitment token) +
    s.funded.total (partPayment g token)

/-- The commitments to a round are not negative and add up to at most its committed principal. -/
def RoundBacked (committed : Address → ℤ) (principal : ℤ) : Prop :=
  principal < 2 ^ 127 ∧ (∀ a, 0 ≤ committed a) ∧
    ∃ S : Finset Address, (∀ a, a ∉ S → committed a = 0) ∧ ∑ a ∈ S, committed a ≤ principal

/-- No amount of a record is negative, and the record of a co-funded loan has no fee and belongs to
a filled round in its token. -/
def RecordOk (rounds : Store ℕ CoFundingRound) (record : FundedInvoice) : Prop :=
  0 ≤ record.repaidAmount ∧ 0 ≤ record.factoringFee ∧
    ∀ roundId, record.coFundingRoundId = some roundId → record.factoringFee = 0 ∧
      ∃ round, rounds.get roundId = some round ∧ round.status = .Filled ∧
        round.token = record.token

/-- Records and rounds are in order and the token is valued at par. -/
structure Regular (token : Address) (x : State W × Marks) : Prop where
  rate : x.1.params.exchangeRate token = 10000
  records : ∀ id record, x.1.funded.get id = some record → RecordOk x.1.rounds record
  fresh : ∀ id, x.1.funded.get id = none → x.2.settled id = false
  rounds : ∀ id round, x.1.rounds.get id = some round → round.invoiceId = id ∧
    (round.status = .Open → RoundBacked (x.1.coFundCommitted id) round.committedPrincipal)
  unopened : ∀ id, x.1.rounds.get id = none → ∀ a, x.1.coFundCommitted id a = 0

/-- The balance covers the liabilities. -/
structure Solvent (h : Host W) (token : Address) (fee : ℤ) (x : State W × Marks) : Prop where
  regular : Regular token x
  backed : netValue fee (x.1.tt token) + x.1.held x.2 token ≤ x.1.cash token h.self

section Reading

variable {cash : Address → Address → ℤ} {token t sender receiver pool : Address} {amount : ℤ}

theorem moveCash_out (hnn : 0 ≤ amount) :
    cash token pool + (if token = t then -amount else 0) ≤
      State.moveCash cash t pool receiver amount token pool := by
  rw [State.moveCash_apply]
  by_cases ht : token = t
  · by_cases hr : pool = receiver
    · simp only [ht, hr, and_self, if_true]
      omega
    · simp only [ht, hr, and_self, and_false, if_true, if_false]
      omega
  · simp [ht]

theorem moveCash_in (hne : sender ≠ pool) :
    State.moveCash cash t sender pool amount token pool =
      cash token pool + if token = t then amount else 0 := by
  rw [State.moveCash_apply]
  simp [Ne.symm hne]

theorem netValue_update {tt : PoolTokenTotals} {fee fee' d : ℤ}
    (htotals : s'.totals = Function.update s.totals t (some tt))
    (hne : token ≠ t → netValue fee' (s.tt token) ≤ netValue fee (s.tt token))
    (hnet : token = t → netValue fee' tt ≤ netValue fee (s.tt t) + d) :
    netValue fee' (s'.tt token) ≤ netValue fee (s.tt token) + if token = t then d else 0 := by
  by_cases ht : token = t
  · subst ht
    rw [State.tt_self htotals, if_pos rfl]
    exact hnet rfl
  · rw [State.tt_of_ne htotals ht, if_neg ht, add_zero]
    exact hne ht

theorem netValue_same {fee : ℤ} (htotals : s'.totals = s.totals) :
    netValue fee (s'.tt token) ≤ netValue fee (s.tt token) + 0 := by
  rw [State.tt_of_eq htotals, add_zero]

theorem cash_same (hcash : s'.cash = s.cash) :
    s.cash token pool + 0 ≤ s'.cash token pool := by
  rw [hcash, add_zero]

theorem netValue_le_netValue {fee : ℤ} (hfee : 0 ≤ fee) (tt : PoolTokenTotals) :
    netValue 0 tt ≤ netValue fee tt := by
  unfold netValue
  omega

end Reading

/-! ## Steps that leave records, rounds and collateral alone -/

/-- Records, rounds, commitments, collateral and exchange rates are the same in both states. -/
structure SameBooks (s s' : State W) : Prop where
  funded : s'.funded = s.funded
  collateral : s'.collateral = s.collateral
  rounds : s'.rounds = s.rounds
  committed : s'.coFundCommitted = s.coFundCommitted
  rate : s'.params.exchangeRate = s.params.exchangeRate

section Steps

variable {h : Host W} {signers : List Address} {s s₁ s' : State W} {g g' : Marks}
  {token t : Address} {fee fee' d e : ℤ} {tt : PoolTokenTotals}

theorem SameBooks.refl (s : State W) : SameBooks s s := ⟨rfl, rfl, rfl, rfl, rfl⟩

theorem SameBooks.held (hsame : SameBooks s s') : s'.held g token = s.held g token := by
  unfold State.held
  rw [hsame.funded, hsame.collateral, hsame.rounds]

theorem SameBooks.regular (hsame : SameBooks s s') (hr : Regular token (s, g)) :
    Regular token (s', g) := by
  refine ⟨?_, ?_, ?_, ?_, ?_⟩
  · rw [hsame.rate]
    exact hr.rate
  · simpa only [hsame.funded, hsame.rounds] using hr.records
  · simpa only [hsame.funded] using hr.fresh
  · simpa only [hsame.rounds, hsame.committed] using hr.rounds
  · simpa only [hsame.rounds, hsame.committed] using hr.unopened

theorem Solvent.of_same (hs : Solvent h token fee (s, g)) (hsame : SameBooks s s')
    (hle : netValue fee' (s'.tt token) + s.cash token h.self ≤
      netValue fee (s.tt token) + s'.cash token h.self) : Solvent h token fee' (s', g) := by
  refine ⟨hsame.regular hs.regular, ?_⟩
  have hb := hs.backed
  rw [hsame.held]
  dsimp only at hb ⊢
  omega

theorem Solvent.of_move (hs : Solvent h token fee (s, g)) (hsame : SameBooks s s')
    (htotals : s'.totals = Function.update s.totals t (some tt))
    (hcash : s.cash token h.self + (if token = t then d else 0) ≤ s'.cash token h.self)
    (hnet : token = t → netValue fee tt ≤ netValue fee (s.tt t) + d) :
    Solvent h token fee (s', g) := by
  refine hs.of_same hsame ?_
  have := netValue_update htotals (fun _ => le_rfl) hnet
  omega

theorem Solvent.of_cash (hs : Solvent h token fee (s, g)) (hsame : SameBooks s s')
    (htotals : s'.totals = s.totals) (hcash : s.cash token h.self ≤ s'.cash token h.self) :
    Solvent h token fee (s', g) := by
  refine hs.of_same hsame ?_
  rw [State.tt_of_eq htotals]
  omega

theorem Solvent.of_quiet (hs : Solvent h token fee (s, g)) (hsame : SameBooks s s')
    (htotals : s'.totals = s.totals) (hcash : s'.cash = s.cash) : Solvent h token fee (s', g) :=
  hs.of_cash hsame htotals (by rw [hcash])

theorem Solvent.release (hs : Solvent h token fee (s, g)) (hfee : 0 ≤ fee) :
    Solvent h token 0 (s, g) := by
  refine hs.of_same (SameBooks.refl s) ?_
  have := netValue_le_netValue hfee (s.tt token)
  omega

theorem PassFrame.sameBooks (hp : PassFrame s s') : SameBooks s s' := by
  rw [hp.rest]
  exact ⟨rfl, rfl, rfl, rfl, rfl⟩

theorem solvent_drain {availableAmount : ℤ} (hs : Solvent h token fee (s, g))
    (hq : processWithdrawalQueue h signers s t availableAmount = .ok (s', none)) :
    Solvent h token fee (s', g) := by
  have hsame := (processWithdrawalQueue_frame hq).sameBooks
  rcases processWithdrawalQueue_eq_none hq with rfl |
    ⟨share, p, st, cash, requests, -, hsound, hset, rfl⟩
  · exact hs
  · obtain ⟨amount, -, -, hp, -⟩ := hsound.amount
    refine hs.of_move (d := -totalPayout p.payments) hsame rfl ?_ fun _ => ?_
    · by_cases ht : token = t
      · subst ht
        have := hset.cash_self
        simp only [if_true]
        omega
      · simp [ht, hset.cash_of_ne token ht]
    · rw [hp.poolValue_eq]
      unfold netValue
      dsimp only
      omega

theorem solvent_pass {availableAmount : ℤ} {o : Option PoolError}
    (hs : Solvent h token fee (s, g)) (hclean : token = t → CleanPass s t availableAmount)
    (hq : processWithdrawalQueue h signers s t availableAmount = .ok (s', o)) :
    Solvent h token fee (s', g) := by
  cases o with
  | none => exact solvent_drain hs hq
  | some e =>
    have hsame := (processWithdrawalQueue_frame hq).sameBooks
    rcases processWithdrawalQueue_eq_some hq with ⟨-, rfl⟩ |
      ⟨share, made, st, cash, requests, hplan, -, hset, rfl⟩
    · exact hs
    · refine hs.of_cash hsame rfl ?_
      by_cases ht : token = t
      · subst ht
        obtain rfl := hclean rfl e made hplan
        have := hset.cash_self
        simp only [totalPayout, List.map_nil, List.sum_nil] at this
        dsimp only
        omega
      · simp [hset.cash_of_ne token ht]

/-- The registry rewards an activity with at most its fee. -/
def RewardsWithinFee (h : Host W) : Prop :=
  ∀ w registry referee kind fee token reward w',
    h.recordActivity w registry referee kind fee token = some (reward, w') → reward ≤ max fee 0

theorem solvent_referral {referee : Address} {kind : ActivityKind} (hreward : RewardsWithinFee h)
    (hs : Solvent h token (if token = t then max fee 0 else 0) (s, g))
    (hr : s.recordReferralActivity h referee kind fee t = .ok s') :
    Solvent h token 0 (s', g) := by
  have hnn : (0 : ℤ) ≤ if token = t then max fee 0 else 0 := by
    split_ifs <;> omega
  rcases State.recordReferralActivity_eq_ok hr with ⟨w, rfl⟩ |
    ⟨registry, reward, w, hact, hpos, -, rfl⟩
  · exact (hs.release hnn).of_quiet ⟨rfl, rfl, rfl, rfl, rfl⟩ rfl rfl
  · have hle := hreward _ _ _ _ _ _ _ _ hact
    by_cases ht : token = t
    · subst ht
      rw [if_pos rfl] at hs
      refine hs.of_same ⟨rfl, rfl, rfl, rfl, rfl⟩ ?_
      have hcash : s.cash token h.self + (if token = token then -reward else 0) ≤
          State.moveCash s.cash token h.self registry reward token h.self := moveCash_out hpos.le
      rw [State.tt_self rfl]
      simp only [if_true] at hcash
      unfold netValue saturatingSub
      dsimp only
      omega
    · rw [if_neg ht] at hs
      exact hs.of_move ⟨rfl, rfl, rfl, rfl, rfl⟩ rfl (moveCash_out hpos.le) fun heq => absurd heq ht

theorem Solvent.of_record {record : FundedInvoice} (hs : Solvent h token fee (s, g))
    (hok : RecordOk s.rounds record)
    (hsettled : ∀ id, id ≠ invoiceId → g'.settled id = g.settled id)
    (hfunded : s'.funded = s.funded.set invoiceId record) (hcol : s'.collateral = s.collateral)
    (hrounds : s'.rounds = s.rounds) (hcommitted : s'.coFundCommitted = s.coFundCommitted)
    (hrate : s'.params.exchangeRate = s.params.exchangeRate)
    (hnet : netValue fee' (s'.tt token) ≤ netValue fee (s.tt token) + d)
    (hcash : s.cash token h.self + e ≤ s'.cash token h.self)
    (hle : partPayment g' token invoiceId record + d ≤ s.funded.part (partPayment g token) invoiceId + e) :
    Solvent h token fee' (s', g') := by
  have hr := hs.regular
  refine ⟨⟨?_, ?_, ?_, ?_, ?_⟩, ?_⟩
  · rw [hrate]
    exact hr.rate
  · intro id r hget
    rw [hfunded, Store.get_set] at hget
    rw [hrounds]
    split_ifs at hget with hid
    · exact Option.some.inj hget ▸ hok
    · exact hr.records id r hget
  · intro id hget
    rw [hfunded, Store.get_set] at hget
    split_ifs at hget with hid
    exact (hsettled id hid).trans (hr.fresh id hget)
  · simpa only [hrounds, hcommitted] using hr.rounds
  · simpa only [hrounds, hcommitted] using hr.unopened
  · have hb := hs.backed
    have htotal : (s.funded.set invoiceId record).total (partPayment g' token) =
        s.funded.total (partPayment g token) - s.funded.part (partPayment g token) invoiceId +
          partPayment g' token invoiceId record := by
      refine Store.total_set_of_agree record fun id r hid _ => ?_
      unfold partPayment
      rw [hsettled id hid]
    unfold State.held at hb ⊢
    dsimp only at hb ⊢
    rw [hfunded, hcol, hrounds, htotal]
    omega

theorem Solvent.of_removal (hs : Solvent h token fee (s, g))
    (hfunded : s'.funded = s.funded.remove invoiceId) (hcol : s'.collateral = s.collateral)
    (hrounds : s'.rounds = s.rounds) (hcommitted : s'.coFundCommitted = s.coFundCommitted)
    (hrate : s'.params.exchangeRate = s.params.exchangeRate)
    (hnet : netValue fee (s'.tt token) ≤ netValue fee (s.tt token) + d)
    (hcash : s.cash token h.self + e ≤ s'.cash token h.self)
    (hle : d ≤ s.funded.part (partPayment g token) invoiceId + e) :
    Solvent h token fee (s', g.forget invoiceId) := by
  have hr := hs.regular
  refine ⟨⟨?_, ?_, ?_, ?_, ?_⟩, ?_⟩
  · rw [hrate]
    exact hr.rate
  · intro id r hget
    rw [hfunded] at hget
    rw [hrounds]
    exact hr.records id r (Store.get_of_get_remove hget)
  · intro id hget
    rw [hfunded, Store.get_remove] at hget
    split_ifs at hget with hid
    · rw [hid]
      exact g.settled_forget
    · exact (g.settled_forget_of_ne hid).trans (hr.fresh id hget)
  · simpa only [hrounds, hcommitted] using hr.rounds
  · simpa only [hrounds, hcommitted] using hr.unopened
  · have hb := hs.backed
    have htotal : (s.funded.remove invoiceId).total (partPayment (g.forget invoiceId) token) =
        s.funded.total (partPayment g token) - s.funded.part (partPayment g token) invoiceId := by
      refine Store.total_remove_of_agree fun id r hid _ => ?_
      unfold partPayment
      rw [g.settled_forget_of_ne hid]
    unfold State.held at hb ⊢
    dsimp only at hb ⊢
    rw [hfunded, hcol, hrounds, htotal]
    omega

theorem Solvent.of_collateral {col : CollateralDeposit} (hs : Solvent h token fee (s, g))
    (hcol : s'.collateral = s.collateral.set invoiceId col) (hfunded : s'.funded = s.funded)
    (hrounds : s'.rounds = s.rounds) (hcommitted : s'.coFundCommitted = s.coFundCommitted)
    (hrate : s'.params.exchangeRate = s.params.exchangeRate)
    (hnet : netValue fee (s'.tt token) ≤ netValue fee (s.tt token) + d)
    (hcash : s.cash token h.self + e ≤ s'.cash token h.self)
    (hle : heldCollateral token invoiceId col + d ≤ s.collateral.part (heldCollateral token) invoiceId + e) :
    Solvent h token fee (s', g) := by
  have hr := hs.regular
  refine ⟨⟨?_, ?_, ?_, ?_, ?_⟩, ?_⟩
  · rw [hrate]
    exact hr.rate
  · simpa only [hfunded, hrounds] using hr.records
  · simpa only [hfunded] using hr.fresh
  · simpa only [hrounds, hcommitted] using hr.rounds
  · simpa only [hrounds, hcommitted] using hr.unopened
  · have hb := hs.backed
    unfold State.held at hb ⊢
    dsimp only at hb ⊢
    rw [hfunded, hcol, hrounds, Store.total_set]
    omega

theorem Solvent.of_round (hs : Solvent h token fee (s, g)) (invoiceId : ℕ)
    (round : CoFundingRound) (hid : round.invoiceId = invoiceId)
    (hopen : round.status = .Open →
      RoundBacked (s'.coFundCommitted invoiceId) round.committedPrincipal)
    (hfilled : ∀ old, s.rounds.get invoiceId = some old → old.status = .Filled →
      round.status = .Filled ∧ round.token = old.token)
    (hrounds : s'.rounds = s.rounds.set invoiceId round)
    (hcommitted : ∀ id, id ≠ invoiceId → s'.coFundCommitted id = s.coFundCommitted id)
    (hfunded : s'.funded = s.funded) (hcol : s'.collateral = s.collateral)
    (hrate : s'.params.exchangeRate = s.params.exchangeRate)
    (hnet : netValue fee (s'.tt token) ≤ netValue fee (s.tt token) + d)
    (hcash : s.cash token h.self + e ≤ s'.cash token h.self)
    (hle : openCommitment token invoiceId round + d ≤
      s.rounds.part (openCommitment token) invoiceId + e) : Solvent h token fee (s', g) := by
  have hr := hs.regular
  refine ⟨⟨?_, ?_, ?_, ?_, ?_⟩, ?_⟩
  · rw [hrate]
    exact hr.rate
  · intro id r hget
    rw [hfunded] at hget
    obtain ⟨hpaid, hfee, hround⟩ := hr.records id r hget
    refine ⟨hpaid, hfee, fun roundId hroundId => ?_⟩
    obtain ⟨hzero, old, hold, hstatus, htoken⟩ := hround roundId hroundId
    refine ⟨hzero, ?_⟩
    rw [hrounds]
    by_cases heq : roundId = invoiceId
    · subst heq
      obtain ⟨hstatus', htoken'⟩ := hfilled old hold hstatus
      exact ⟨round, Store.get_set_self _ _ _, hstatus', htoken'.trans htoken⟩
    · exact ⟨old, by rw [Store.get_set_of_ne _ _ heq]; exact hold, hstatus, htoken⟩
  · simpa only [hfunded] using hr.fresh
  · intro id r hget
    rw [hrounds, Store.get_set] at hget
    split_ifs at hget with heq
    · obtain rfl := Option.some.inj hget
      rw [heq]
      exact ⟨hid, hopen⟩
    · rw [hcommitted id heq]
      exact hr.rounds id r hget
  · intro id hget
    rw [hrounds, Store.get_set] at hget
    split_ifs at hget with heq
    rw [hcommitted id heq]
    exact hr.unopened id hget
  · have hb := hs.backed
    unfold State.held at hb ⊢
    dsimp only at hb ⊢
    rw [hfunded, hcol, hrounds, Store.total_set]
    omega

theorem solvent_fundLoan {request : FundingRequest} (hs : Solvent h token 0 (s, g))
    (hf : fundLoan h s request = .ok s') : Solvent h token 0 (s', g) := by
  obtain ⟨_, loanFee, record, _, _, _, _, hpos, -, -, -, hfee, hrecord, rfl⟩ := fundLoan_eq_ok hf
  have hok : RecordOk s.rounds record ∧ partPayment g token request.invoiceId record =
      s.funded.part (partPayment g token) request.invoiceId := by
    rcases fundedRecord_eq_ok hrecord with ⟨old, hold, rfl⟩ | ⟨hnone, rfl⟩
    · exact ⟨hs.regular.records _ old hold, by rw [Store.part_of_get hold]; rfl⟩
    · refine ⟨⟨le_rfl, hfee, fun _ hround => by cases hround⟩, ?_⟩
      rw [Store.part_of_get_none hnone]
      simp [partPayment]
  refine hs.of_record hok.1 (fun _ _ => rfl) rfl rfl rfl rfl rfl
    (netValue_update (d := -request.principal) rfl (fun _ => le_rfl) fun _ => ?_)
    (moveCash_out hpos.le) (by rw [hok.2])
  unfold netValue
  dsimp only
  omega

/-- The premium does not make the pool value saturate. -/
def PremiumFits (h : Host W) (s : State W) (request : FundingRequest) : Prop :=
  ∀ s₁ contract premium w, fundLoan h s request = .ok s₁ →
    s₁.params.insuranceContract = some contract →
    h.purchaseCoverage s₁.world contract request = some (premium, w) →
    -2 ^ 127 ≤ (s₁.tt request.token).poolValue - premium

theorem solvent_fund {request : FundingRequest} (hs : Solvent h token 0 (s, g))
    (hfits : token = request.token → PremiumFits h s request)
    (hf : fundInvoiceRequest h s request = .ok s') : Solvent h token 0 (s', g) := by
  obtain ⟨s₁, hloan, rfl⟩ := fundInvoiceRequest_eq_ok hf
  have hs₁ := solvent_fundLoan hs hloan
  rcases purchaseInsurance_eq h s₁ request with heq | ⟨contract, premium, w, hc, hcover, hnn, -, heq⟩
  · rw [heq]
    exact hs₁
  · rw [heq]
    refine hs₁.of_move (d := -premium) ⟨rfl, rfl, rfl, rfl, rfl⟩ rfl (moveCash_out hnn) fun ht => ?_
    have hpv := saturatingSub_le _ _ (hfits ht s₁ contract premium w hloan hc hcover)
    have hrev : max (saturatingSub (s₁.tt request.token).protocolRevenue premium) 0 ≤
        max (s₁.tt request.token).protocolRevenue 0 := by
      unfold saturatingSub
      omega
    unfold netValue
    dsimp only
    omega

/-! ## Repayment -/

theorem solvent_release (hs : Solvent h token fee (s, g))
    (hr : s.releaseCollateral h invoiceId = .ok s') : Solvent h token fee (s', g) := by
  rcases releaseCollateral_eq_ok hr with rfl | ⟨col, hcol, hset, hnn, rfl⟩
  · exact hs
  · refine hs.of_collateral rfl rfl rfl rfl rfl (netValue_same rfl) (moveCash_out hnn) ?_
    rw [Store.part_of_get hcol]
    by_cases ht : token = col.token
    · simp [heldCollateral, ht, hset]
    · simp [heldCollateral, ht, Ne.symm ht]

/-- A payment is accounted for once: a loan of the pool is settled at most once, and a payment on a
co-funded loan is distributed without remainder. -/
def AccountsPayment (x : State W × Marks) (invoiceId : ℕ) (q : RepaymentQuote) : Prop :=
  (q.record.coFundingRoundId = none → q.full = true → x.2.settled invoiceId = false) ∧
  ∀ roundId round, q.record.coFundingRoundId = some roundId →
    x.1.rounds.get roundId = some round →
    holderAmounts (x.1.coFundShare roundId) q.payment round.participants = q.payment

def marksAfter (g : Marks) (invoiceId : ℕ) (q : RepaymentQuote) : Marks :=
  if q.full = true then g.settle invoiceId else g

theorem marksAfter_settled_of_ne {invoiceId id : ℕ} (hid : id ≠ invoiceId) :
    (marksAfter g invoiceId q).settled id = g.settled id := by
  unfold marksAfter
  split_ifs
  · exact g.settled_settle_of_ne hid
  · rfl

def settledFee (token : Address) (q : RepaymentQuote) : ℤ :=
  if token = q.record.token ∧ q.full = true then q.record.factoringFee else 0

theorem allocateRepayment_net {amount : ℤ} (hs : Solvent h token 0 (s, g))
    (hq : quoteRepayment s invoiceId payer amount = .ok q)
    (hok : AccountsPayment (s, g) invoiceId q) (ht : token = q.record.token)
    (ha : allocateRepayment h signers s q = .ok (s₁, tt)) :
    netValue (settledFee token q) tt + partPayment (marksAfter g invoiceId q) token invoiceId
        { q.record with repaidAmount := q.newRepaid } ≤
      netValue 0 (s.tt q.record.token) + partPayment g token invoiceId q.record + q.payment := by
  obtain ⟨-, hrecord, hdue, -, hpay, hnew, hnewle, hfull⟩ := quoteRepayment_eq_ok hq
  obtain ⟨-, htotal, -⟩ := calculateTotalDue_eq_ok hdue
  obtain ⟨hpaid, hfee, hround⟩ := hs.regular.records _ _ hrecord
  have hnn : 0 ≤ settledFee token q := by
    unfold settledFee
    split_ifs <;> omega
  rcases allocateRepayment_eq_ok ha with ⟨roundId, hid, hd⟩ | ⟨hid, hsettle, rfl, hset⟩ |
    ⟨hid, hrest, rfl, rfl⟩
  · -- the holders are credited with exactly the payment
    obtain ⟨hzero, round', hround', -, htoken⟩ := hround roundId hid
    obtain ⟨round, tt₁, distributed, hget, hfold, hdust⟩ := distributePariPassuRepayment_eq_ok hd
    obtain rfl : round' = round := Option.some.inj (hround'.symm.trans hget)
    have hsum := hok.2 roundId round' hid hget
    have hrate : s.params.exchangeRate round'.token = 10000 := by
      rw [htoken, ← ht]
      exact hs.regular.rate
    obtain ⟨hdist, hpv⟩ := distribute_at_par hpay.le hrate hfold
    have hrev : tt₁.protocolRevenue = (s.tt q.record.token).protocolRevenue ∧
        tt₁.totalDeployed = (s.tt q.record.token).totalDeployed := by
      rw [(credits_of_distribute hfold).tt_eq]
      exact ⟨rfl, rfl⟩
    have hfeeZero : settledFee token q = 0 := by
      unfold settledFee
      rw [hzero, ite_self]
    have hparts : ∀ g' r, partPayment g' token invoiceId { q.record with repaidAmount := r } = 0 := by
      intro g' r
      simp [partPayment, hid]
    have hpart : partPayment g token invoiceId q.record = 0 := by
      simp [partPayment, hid]
    rw [hfeeZero, hparts, hpart]
    dsimp only at hdist hpv hsum
    obtain ⟨hdep, -, ⟨hpos, -⟩ | ⟨-, hpv', hrev'⟩⟩ := bookDust_eq_ok hdust
    · omega
    · unfold netValue
      omega
  · -- the loan is settled: what was repaid before and the payment make up the amount due
    have hopen : g.settled invoiceId = false := hok.1 hid hsettle
    obtain ⟨_, -, hdep, -, hpv, -, hrev, -⟩ := settledTotals_eq_ok hset
    have hdone := hfull.1 hsettle
    have hpart : partPayment g token invoiceId q.record = q.record.repaidAmount := by
      simp [partPayment, ht, hid, hopen]
    have hpart' : partPayment (marksAfter g invoiceId q) token invoiceId
        { q.record with repaidAmount := q.newRepaid } = 0 := by
      simp [partPayment, marksAfter, hsettle]
    have hfeeEq : settledFee token q = q.record.factoringFee := by
      simp [settledFee, ht, hsettle]
    rw [hpart, hpart', hfeeEq]
    unfold netValue
    omega
  · have hmarks : marksAfter g invoiceId q = g := by
      simp [marksAfter, hrest]
    have hfeeZero : settledFee token q = 0 := by
      simp [settledFee, hrest]
    rw [hmarks, hfeeZero]
    unfold partPayment
    dsimp only
    split_ifs <;> omega

theorem allocateRepayment_same (ha : allocateRepayment h signers s q = .ok (s₁, tt)) :
    SameBooks s s₁ ∧ s₁.totals = s.totals ∧ s₁.cash = s.cash := by
  rcases allocateRepayment_eq_ok ha with ⟨roundId, -, hd⟩ | ⟨-, -, rfl, -⟩ | ⟨-, -, rfl, -⟩
  · obtain ⟨round, tt₁, distributed, -, hfold, -⟩ := distributePariPassuRepayment_eq_ok hd
    have hc := credits_of_distribute hfold
    refine ⟨⟨?_, ?_, ?_, distribute_committed hfold, ?_⟩, ?_, ?_⟩ <;> rw [hc.rest]
  · exact ⟨SameBooks.refl _, rfl, rfl⟩
  · exact ⟨SameBooks.refl _, rfl, rfl⟩

theorem solvent_book {amount : ℤ} (hs : Solvent h token 0 (s, g)) (hne : payer ≠ h.self)
    (hq : quoteRepayment s invoiceId payer amount = .ok q)
    (hok : token = q.record.token → AccountsPayment (s, g) invoiceId q)
    (hb : bookRepayment h signers s invoiceId payer q = .ok s') :
    Solvent h token (settledFee token q) (s', marksAfter g invoiceId q) := by
  obtain ⟨s₁, tt, stats, s₂, halloc, -, hs₂, hb⟩ := bookRepayment_eq_ok hb
  obtain ⟨hsame, htotals, hcash⟩ := allocateRepayment_same halloc
  obtain ⟨-, hrecord, -, -, hpay, hnew, -⟩ := quoteRepayment_eq_ok hq
  obtain ⟨hpaid, hfee, hround⟩ := hs.regular.records _ _ hrecord
  obtain ⟨repaid, hrepaid⟩ : ∃ r, r = { q.record with repaidAmount := q.newRepaid } := ⟨_, rfl⟩
  have hrepaidOk : RecordOk s.rounds repaid := by
    rw [hrepaid]
    exact ⟨by simp only [hnew]; omega, hfee, hround⟩
  have hbooked : Solvent h token (settledFee token q) (s₂, marksAfter g invoiceId q) := by
    rw [← hrepaid] at hs₂
    rw [hs₂]
    refine hs.of_record (d := partPayment g token invoiceId q.record +
        (if token = q.record.token then q.payment else 0) -
        partPayment (marksAfter g invoiceId q) token invoiceId repaid)
      (e := if token = q.record.token then q.payment else 0)
      hrepaidOk (fun id hid => marksAfter_settled_of_ne hid) (by rw [hsame.funded])
      hsame.collateral hsame.rounds hsame.committed hsame.rate ?_ ?_ ?_
    · by_cases ht : token = q.record.token
      · have hnet := allocateRepayment_net hs hq (hok ht) ht halloc
        rw [← hrepaid] at hnet
        subst ht
        rw [State.tt_self rfl, if_pos rfl]
        omega
      · have hzero : partPayment (marksAfter g invoiceId q) token invoiceId repaid = 0 := by
          simp [partPayment, hrepaid, Ne.symm ht]
        have hzero' : partPayment g token invoiceId q.record = 0 := by
          simp [partPayment, Ne.symm ht]
        have hfeeZero : settledFee token q = 0 := by
          simp [settledFee, ht]
        rw [State.tt_of_ne rfl ht, State.tt_of_eq htotals, hzero, hzero', hfeeZero, if_neg ht]
        omega
    · exact (moveCash_in hne).ge.trans' (by rw [hcash])
    · rw [Store.part_of_get hrecord]
      omega
  rcases hb with ⟨-, hrel⟩ | ⟨-, rfl⟩
  · exact solvent_release hbooked hrel
  · exact hbooked

/-- The payment is accounted for once, and the pass over the queue that a settlement runs does not
stop after a payment. -/
def RepaysSoundly (h : Host W) (signers : List Address) (payer token : Address)
    (x : State W × Marks) (request : RepaymentRequest) : Prop :=
  ∀ q, quoteRepayment x.1 request.invoiceId payer request.amount = .ok q →
    token = q.record.token →
    AccountsPayment x request.invoiceId q ∧
    ∀ s₁ history, bookRepayment h signers x.1 request.invoiceId payer q = .ok s₁ →
      CleanPass { s₁ with rateHistory := history } token
        ((s₁.tt token).poolValue - (s₁.tt token).totalDeployed)

theorem solvent_repay {request : RepaymentRequest} (hreward : RewardsWithinFee h)
    (hs : Solvent h token 0 (s, g)) (hne : payer ≠ h.self)
    (hok : RepaysSoundly h signers payer token (s, g) request)
    (hr : repayInvoiceRequest h signers payer s request = .ok s') :
    Solvent h token 0 (s', noteRepayment payer s request s' g) := by
  obtain ⟨q, s₁, history, hq, hb, hr⟩ := repayInvoiceRequest_eq_ok hr
  obtain ⟨-, hrecord, -⟩ := quoteRepayment_eq_ok hq
  have hfee := (hs.regular.records _ _ hrecord).2.1
  rw [noteRepayment_eq hq]
  change Solvent h token 0 (s', marksAfter g request.invoiceId q)
  have hbooked := solvent_book hs hne hq (fun ht => (hok q hq ht).1) hb
  have hhistory : Solvent h token (settledFee token q)
      ({ s₁ with rateHistory := history }, marksAfter g request.invoiceId q) :=
    hbooked.of_quiet ⟨rfl, rfl, rfl, rfl, rfl⟩ rfl rfl
  rcases hr with ⟨hfull, s₂, o, hpass, href⟩ | ⟨hrest, rfl⟩
  · have hclean : token = q.record.token → CleanPass { s₁ with rateHistory := history }
        q.record.token ((s₁.tt q.record.token).poolValue -
          (s₁.tt q.record.token).totalDeployed) := by
      rintro rfl
      exact (hok q hq rfl).2 s₁ history hb
    have hpaid := solvent_pass hhistory hclean hpass
    have hset : settledFee token q =
        if token = q.record.token then max q.record.factoringFee 0 else 0 := by
      unfold settledFee
      rw [max_eq_left hfee]
      simp [hfull]
    rw [hset] at hpaid
    exact solvent_referral hreward hpaid href
  · have hset : settledFee token q = 0 := by
      simp [settledFee, hrest]
    rw [hset] at hhistory
    exact hhistory

end Steps

end Astera.Pool
