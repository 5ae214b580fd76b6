import Astera.Pool.Funding

/-!
# Repaying invoices

A repayment is priced (`quoteRepayment`) and booked with its transfer and the release of the
collateral (`bookRepayment`); a full one drains the withdrawal queue and pays the referrer.
-/

namespace Astera.Pool

open Fallible Machine

variable {W : Type}
variable {h : Host W} {admin payer : Address} {round : CoFundingRound} {signers : List Address}
  {tt tt' : PoolTokenTotals} {q : RepaymentQuote} {s s' : State W}
  {acc acc' : State W × PoolTokenTotals × ℤ} {invoiceId roundId : ℕ} {amount payment : ℤ}

/-- A repayment before it is booked: the record it is for, the interest and the amount due now, the
part of the offered amount that is still owed, the repaid amount with it, and whether that settles
the invoice. -/
structure RepaymentQuote where
  record : FundedInvoice
  interest : ℤ
  totalDue : ℤ
  payment : ℤ
  newRepaid : ℤ
  full : Bool
  deriving DecidableEq, Repr

/-- The first part of `repay_invoice_request`, which has no effects. -/
def quoteRepayment (s : State W) (invoiceId : ℕ) (payer : Address) (amount : ℤ) :
    Res RepaymentQuote := do
  require (0 < amount) (.err .InvalidAmount)
  let record ← okOr (s.funded.get invoiceId) (.err .InvoiceNotFound)
  require (payer = record.sme) (.err .Unauthorized)
  let (interest, totalDue) ←
    calculateTotalDue record s.params.config.compoundInterest s.now
  require (record.repaidAmount < totalDue) (.err .AlreadyFullyRepaid)
  let remaining ← okOr (checkedSub totalDue record.repaidAmount) overflowErr
  let payment := if remaining < amount then remaining else amount
  let newRepaid ← okOr (checkedAdd record.repaidAmount payment) overflowErr
  return ⟨record, interest, totalDue, payment, newRepaid, decide (totalDue ≤ newRepaid)⟩

/-! ## Booking a repayment -/

def holderAmount (payment : ℤ) (bps : ℕ) : Res ℤ := do
  let scaled ← okOr (checkedMul payment bps) overflowErr
  okOr (checkedDiv scaled bpsDenom) overflowErr

/-- One iteration of the loop of `distribute_pari_passu_repayment`; the last component is the amount
distributed so far. -/
def distributeStep (h : Host W) (signers : List Address) (round : CoFundingRound) (roundId : ℕ)
    (payment : ℤ) (acc : State W × PoolTokenTotals × ℤ) (holder : Address) :
    Res (State W × PoolTokenTotals × ℤ) :=
  let bps := acc.1.coFundShare roundId holder
  if bps = 0 then return acc
  else do
    let amount ← holderAmount payment bps
    if 0 < amount then do
      let (s, tt) ← creditInvestorValue h signers acc.1 round.token holder amount acc.2.1
      let distributed ← okOr (checkedAdd acc.2.2 amount) overflowErr
      return (s, tt, distributed)
    else return acc

/-- The dust of a distribution is booked both as revenue and as pool value. -/
def addDust (tt : PoolTokenTotals) (dust : ℤ) : Res PoolTokenTotals :=
  if 0 < dust then do
    let protocolRevenue ← okOr (checkedAdd tt.protocolRevenue dust) overflowErr
    let poolValue ← okOr (checkedAdd tt.poolValue dust) overflowErr
    return { tt with protocolRevenue := protocolRevenue, poolValue := poolValue }
  else return tt

def bookDust (tt : PoolTokenTotals) (dust payment : ℤ) : Res PoolTokenTotals := do
  let tt ← addDust tt dust
  let totalPaidOut ← okOr (checkedAdd tt.totalPaidOut payment) overflowErr
  return { tt with totalPaidOut := totalPaidOut }

/-- `distribute_pari_passu_repayment`, without the statistics. -/
def distributePariPassuRepayment (h : Host W) (signers : List Address) (s : State W) (roundId : ℕ)
    (payment : ℤ) (tt : PoolTokenTotals) : Res (State W × PoolTokenTotals) := do
  let round ← okOr (s.rounds.get roundId) (.err .CoFundingRoundNotFound)
  let (s, tt, distributed) ← round.participants.foldlM
    (distributeStep h signers round roundId payment) (s, tt, 0)
  let dust ← okOr (checkedSub payment distributed) overflowErr
  let tt ← bookDust tt dust payment
  return (s, tt)

/-- The reward accumulator after `interest` was spread over the outstanding shares. -/
def rewardAfter (rewardPerShare interest totalShares : ℤ) : Res ℤ :=
  if 0 < totalShares then do
    let delta ← calculateRewardDelta interest totalShares
    okOr (checkedAdd rewardPerShare delta) overflowErr
  else return rewardPerShare

/-- The totals after the full repayment of an invoice that the pool funded alone. -/
def State.settledTotals (s : State W) (q : RepaymentQuote) (tt : PoolTokenTotals) :
    Res PoolTokenTotals := do
  let totalDeployed ← okOr (checkedSub tt.totalDeployed q.record.principal) overflowErr
  let poolValue ← okOr (checkedAdd tt.poolValue q.interest) overflowErr
  let totalFeeRevenue ← okOr (checkedAdd tt.totalFeeRevenue q.record.factoringFee) overflowErr
  let protocolRevenue ← okOr (checkedAdd tt.protocolRevenue q.record.factoringFee) overflowErr
  let totalPaidOut ← okOr (checkedAdd tt.totalPaidOut q.totalDue) overflowErr
  let share ← s.shareTokenOf q.record.token
  let rewardPerShare ← rewardAfter tt.rewardPerShare q.interest (s.supply share)
  return ⟨poolValue, totalDeployed, totalPaidOut, totalFeeRevenue, rewardPerShare, protocolRevenue⟩

/-- The state and the totals after the payment was allocated: to the holders of a co-funding round,
or, once it is complete, to the pool. -/
def allocateRepayment (h : Host W) (signers : List Address) (s : State W) (q : RepaymentQuote) :
    Res (State W × PoolTokenTotals) := do
  let tt := s.tt q.record.token
  match q.record.coFundingRoundId with
  | some roundId => distributePariPassuRepayment h signers s roundId q.payment tt
  | none =>
    if q.full = true then do
      let tt ← s.settledTotals q tt
      return (s, tt)
    else return (s, tt)

def State.releaseCollateral (h : Host W) (s : State W) (invoiceId : ℕ) : Res (State W) :=
  match s.collateral.get invoiceId with
  | none => return s
  | some col =>
    if col.settled = true then return s
    else do
      let s ← s.transfer col.token h.self col.depositor col.amount
      return { s with
        collateral := s.collateral.set invoiceId
          { col with settled := true, releasedAt := s.now } }

/-- The guarded part of `repay_invoice_request`. -/
def bookRepayment (h : Host W) (signers : List Address) (s : State W) (invoiceId : ℕ)
    (payer : Address) (q : RepaymentQuote) : Res (State W) := do
  let (s, tt) ← allocateRepayment h signers s q
  let active :=
    if q.full = true then s.stats.activeFundedInvoices - 1 else s.stats.activeFundedInvoices
  let s := { s.setTotals q.record.token tt with
    funded := s.funded.set invoiceId { q.record with repaidAmount := q.newRepaid }
    stats := { s.stats with activeFundedInvoices := active } }
  let s ← s.transfer q.record.token payer h.self q.payment
  if q.full = true then s.releaseCollateral h invoiceId else return s

/-! ## The entrypoints -/

def repayInvoiceRequest (h : Host W) (signers : List Address) (payer : Address) (s : State W)
    (request : RepaymentRequest) : Res (State W) := do
  let q ← quoteRepayment s request.invoiceId payer request.amount
  let s ← bookRepayment h signers s request.invoiceId payer q
  let token := q.record.token
  if q.full = true then do
    let liquidity ← availableLiquidity (s.tt token)
    let s ← s.recordRateSnapshot token
    -- an `Err` of the queue pass is discarded, whatever it did before
    let (s, _) ← processWithdrawalQueue h signers s token liquidity
    s.recordReferralActivity h q.record.sme .borrow q.record.factoringFee token
  else s.recordRateSnapshot token

def repayInvoice (h : Host W) (signers : List Address) (s : State W) (payer : Address)
    (request : RepaymentRequest) : Res (State W) := do
  requireAuth signers payer
  repayInvoiceRequest h signers payer s request

def repayInvoicesBatch (h : Host W) (signers : List Address) (s : State W) (payer : Address)
    (requests : List RepaymentRequest) : Res (State W) := do
  requireAuth signers payer
  s.requireNotPaused
  require (requests ≠ []) (.err .InvalidAmount)
  require (requests.length ≤ maxBatchSize) (.err .BatchTooLarge)
  requests.foldlM (repayInvoiceRequest h signers payer) s

/-- `is_invoice_repaid`: recomputed from the present time, due date and compounding flag. -/
def isInvoiceRepaid (s : State W) (invoiceId : ℕ) : Res Bool := do
  let record ← okOr (s.funded.get invoiceId) (.err .InvoiceNotFound)
  let (_, totalDue) ← calculateTotalDue record s.params.config.compoundInterest s.now
  return decide (totalDue ≤ record.repaidAmount)

def cleanupFundedInvoice (signers : List Address) (s : State W) (admin : Address)
    (invoiceId : ℕ) : Res (State W) := do
  requireAuth signers admin
  s.requireNotPaused
  s.requireAdmin admin
  let repaid ← isInvoiceRepaid s invoiceId
  require (repaid = true) (.err .InvalidAmount)
  let cleaned ← okOr (fitU 64 (s.stats.cleanedInvoices + 1)) overflowTrap
  return { s with
    funded := s.funded.remove invoiceId
    stats := { s.stats with cleanedInvoices := cleaned } }

/-- The part of `cancel_funded_invoice` on the totals: the principal leaves `total_deployed` unless
it came from a co-funding round. -/
def State.undeploy (s : State W) (record : FundedInvoice) : Res (State W) :=
  if record.coFundingRoundId.isSome then return s
  else do
    let tt := s.tt record.token
    let totalDeployed ← okOr (checkedSub tt.totalDeployed record.principal) overflowErr
    (s.setTotals record.token { tt with totalDeployed := totalDeployed }).recordRateSnapshot
      record.token

/-- `cancel_funded_invoice`: no money comes back. -/
def cancelFundedInvoice (h : Host W) (signers : List Address) (s : State W) (admin : Address)
    (invoiceId : ℕ) : Res (State W) := do
  requireAuth signers admin
  s.requireAdmin admin
  let record ← okOr (s.funded.get invoiceId) (.err .InvoiceNotFound)
  let world ← okOr (h.markCancelled s.world s.params.config.invoiceContract invoiceId)
    (.err .InvoiceNotCancelled)
  let s ← { s with world := world }.undeploy record
  return { s with
    funded := s.funded.remove invoiceId
    stats := { s.stats with activeFundedInvoices := s.stats.activeFundedInvoices - 1 } }

def updateInvoiceDueDate (signers : List Address) (s : State W) (invoiceContract : Address)
    (invoiceId newDueDate : ℕ) : Res (State W) := do
  requireAuth signers invoiceContract
  require (invoiceContract = s.params.config.invoiceContract) (.trap (.panicked .Unauthorized))
  let record ← okOr (s.funded.get invoiceId) (.trap (.panicked .InvoiceNotFound))
  require (record.dueDate < newDueDate) (.trap (.panicked .InvalidAmount))
  return { s with funded := s.funded.set invoiceId { record with dueDate := newDueDate } }

def setCompoundInterest (signers : List Address) (s : State W) (admin : Address)
    (compound : Bool) : Res (State W) := do
  requireAuth signers admin
  s.requireNotPaused
  s.requireAdmin admin
  return { s with
    params := { s.params with
      config := { s.params.config with compoundInterest := compound } } }

/-! ## What a successful call did -/

theorem calculateTotalDue_eq_ok {record : FundedInvoice} {compound : Bool} {now : ℕ}
    {interest totalDue : ℤ} (hd : calculateTotalDue record compound now = .ok (interest, totalDue)) :
    0 ≤ interest ∧ totalDue = record.principal + interest + record.factoringFee ∧
      InI128 totalDue := by
  unfold calculateTotalDue u128ToI128 at hd
  simp only [bind_eq_ok, require_eq_ok, exists_unit, okOr_eq_ok, checkedAdd_eq_some, pure_eq_ok,
    Prod.mk.injEq] at hd
  obtain ⟨-, _, -, _, ⟨-, rfl⟩, _, ⟨rfl, -⟩, _, ⟨rfl, hrange⟩, rfl, rfl⟩ := hd
  exact ⟨by positivity, rfl, hrange⟩

theorem quoteRepayment_eq_ok (hq : quoteRepayment s invoiceId payer amount = .ok q) :
    0 < amount ∧ s.funded.get invoiceId = some q.record ∧
      calculateTotalDue q.record s.params.config.compoundInterest s.now =
        .ok (q.interest, q.totalDue) ∧
      q.record.repaidAmount < q.totalDue ∧ 0 < q.payment ∧
      q.newRepaid = q.record.repaidAmount + q.payment ∧ q.newRepaid ≤ q.totalDue ∧
      (q.full = true ↔ q.totalDue ≤ q.newRepaid) := by
  unfold quoteRepayment at hq
  simp only [bind_eq_ok, require_eq_ok, exists_unit, okOr_eq_ok, checkedSub_eq_some,
    checkedAdd_eq_some, pure_eq_ok] at hq
  obtain ⟨hpos, record, hrecord, -, ⟨interest, totalDue⟩, hdue, hlt, _, ⟨rfl, -⟩, newRepaid, hnew,
    rfl⟩ := hq
  obtain ⟨rfl, -⟩ := hnew
  dsimp only at hlt ⊢
  refine ⟨hpos, hrecord, hdue, hlt, ?_, rfl, ?_, by simp⟩ <;> split_ifs <;> omega

theorem settledTotals_eq_ok (hs : s.settledTotals q tt = .ok tt') :
    ∃ share, s.shareToken q.record.token = some share ∧
      tt'.totalDeployed = tt.totalDeployed - q.record.principal ∧
      InI128 (tt.totalDeployed - q.record.principal) ∧
      tt'.poolValue = tt.poolValue + q.interest ∧ InI128 (tt.poolValue + q.interest) ∧
      tt'.protocolRevenue = tt.protocolRevenue + q.record.factoringFee ∧
      rewardAfter tt.rewardPerShare q.interest (s.supply share) = .ok tt'.rewardPerShare := by
  unfold State.settledTotals at hs
  simp only [bind_eq_ok, okOr_eq_ok, checkedSub_eq_some, checkedAdd_eq_some, State.shareTokenOf,
    pure_eq_ok] at hs
  obtain ⟨_, ⟨rfl, hdep⟩, _, ⟨rfl, hpv⟩, _, -, _, ⟨rfl, -⟩, _, -, share, hshare, rps, hrps, rfl⟩ := hs
  exact ⟨share, hshare, rfl, hdep, rfl, hpv, rfl, hrps⟩

theorem rewardAfter_eq_ok {rewardPerShare interest totalShares rps : ℤ}
    (hr : rewardAfter rewardPerShare interest totalShares = .ok rps) :
    rps = if 0 < totalShares then
      rewardPerShare + (interest * rewardPrecision).tdiv totalShares else rewardPerShare := by
  unfold rewardAfter calculateRewardDelta at hr
  split_ifs at hr ⊢
  · simp only [bind_eq_ok, okOr_eq_ok, checkedMul_eq_some, checkedDiv_eq_some,
      checkedAdd_eq_some] at hr
    obtain ⟨_, ⟨_, ⟨rfl, -⟩, -, rfl, -⟩, rfl, -⟩ := hr
    rfl
  · exact ((pure_eq_ok _ _).1 hr).symm

theorem holderAmount_nonneg {bps : ℕ} (hp : 0 ≤ payment)
    (ha : holderAmount payment bps = .ok amount) : 0 ≤ amount := by
  unfold holderAmount at ha
  simp only [bind_eq_ok, okOr_eq_ok, checkedMul_eq_some, checkedDiv_eq_some] at ha
  obtain ⟨_, ⟨rfl, -⟩, -, rfl, -⟩ := ha
  exact Int.tdiv_nonneg (by positivity) (by positivity)

theorem distributeStep_eq_ok {holder : Address}
    (hd : distributeStep h signers round roundId payment acc holder = .ok acc') :
    acc' = acc ∨ ∃ amount, holderAmount payment (acc.1.coFundShare roundId holder) = .ok amount ∧
      0 < amount ∧ acc'.2.2 = acc.2.2 + amount ∧
      creditInvestorValue h signers acc.1 round.token holder amount acc.2.1 =
        .ok (acc'.1, acc'.2.1) := by
  unfold distributeStep at hd
  dsimp only at hd
  split at hd
  · exact .inl ((pure_eq_ok _ _).1 hd).symm
  · simp only [bind_eq_ok] at hd
    obtain ⟨amount, hamount, hd⟩ := hd
    split_ifs at hd with hpos
    · simp only [bind_eq_ok, okOr_eq_ok, checkedAdd_eq_some, pure_eq_ok] at hd
      obtain ⟨⟨s₁, tt₁⟩, hcredit, _, ⟨rfl, -⟩, rfl⟩ := hd
      exact .inr ⟨amount, hamount, hpos, rfl, hcredit⟩
    · exact .inl ((pure_eq_ok _ _).1 hd).symm

theorem credits_of_distribute {holders : List Address} {s s₁ : State W} {tt tt₁ : PoolTokenTotals}
    {a b : ℤ}
    (hf : holders.foldlM (distributeStep h signers round roundId payment) (s, tt, a) = .ok (s₁, tt₁, b)) :
    Credits round.token s s₁ tt tt₁ := by
  have hinv := foldlM_invariant (P := fun acc => Credits round.token s acc.1 tt acc.2.1)
    (l := holders) (f := distributeStep h signers round roundId payment) ?_
    (Credits.refl _ s tt) hf
  · exact hinv
  · rintro acc holder acc' - hc hstep
    rcases distributeStep_eq_ok hstep with rfl | ⟨amount, -, -, -, hcredit⟩
    · exact hc
    · exact hc.trans (credits_of_creditInvestorValue hcredit)

def holderAmounts (coFundShare : Address → ℕ) (payment : ℤ) (holders : List Address) : ℤ :=
  (holders.map fun a => (payment * coFundShare a).tdiv 10000).sum

theorem holderAmount_eq_ok {bps : ℕ} (ha : holderAmount payment bps = .ok amount) :
    amount = (payment * bps).tdiv 10000 := by
  unfold holderAmount at ha
  simp only [bind_eq_ok, okOr_eq_ok, checkedMul_eq_some, checkedDiv_eq_some] at ha
  obtain ⟨_, ⟨rfl, -⟩, -, rfl, -⟩ := ha
  rfl

theorem distribute_committed {holders : List Address}
    (hf : holders.foldlM (distributeStep h signers round roundId payment) acc = .ok acc') :
    acc'.1.coFundCommitted = acc.1.coFundCommitted := by
  refine foldlM_invariant (P := fun b => b.1.coFundCommitted = acc.1.coFundCommitted) ?_ rfl hf
  intro b holder b' _ hb hstep
  rcases distributeStep_eq_ok hstep with rfl | ⟨amount, -, -, -, hcredit⟩
  · exact hb
  · exact (creditInvestorValue_rounds hcredit).1.trans hb

theorem distributeStep_at_par {holder : Address}
    (hrate : acc.1.params.exchangeRate round.token = 10000) (hpay : 0 ≤ payment)
    (hd : distributeStep h signers round roundId payment acc holder = .ok acc') :
    acc'.2.2 = acc.2.2 + (payment * acc.1.coFundShare roundId holder).tdiv 10000 ∧
      acc'.2.1.poolValue = acc.2.1.poolValue + (acc'.2.2 - acc.2.2) ∧
      acc'.1.coFundShare = acc.1.coFundShare ∧ acc'.1.params = acc.1.params := by
  unfold distributeStep at hd
  dsimp only at hd
  split at hd
  · rename_i hbps
    obtain rfl := (pure_eq_ok _ _).1 hd
    simp [hbps]
  · simp only [bind_eq_ok] at hd
    obtain ⟨amount, hamount, hd⟩ := hd
    have heq := holderAmount_eq_ok hamount
    have hnn := holderAmount_nonneg hpay hamount
    split_ifs at hd with hpos
    · simp only [bind_eq_ok, okOr_eq_ok, checkedAdd_eq_some, pure_eq_ok] at hd
      obtain ⟨⟨s₁, tt₁⟩, hcredit, _, ⟨rfl, -⟩, rfl⟩ := hd
      have hpv := creditInvestorValue_at_par hrate hpos.le hcredit
      refine ⟨by rw [heq], ?_, (creditInvestorValue_rounds hcredit).2, ?_⟩
      · dsimp only
        rw [hpv]
        ring
      · dsimp only
        rw [(credits_of_creditInvestorValue hcredit).rest]
    · obtain rfl := (pure_eq_ok _ _).1 hd
      rw [← heq]
      exact ⟨by omega, by ring, rfl, rfl⟩

theorem distribute_at_par (hpay : 0 ≤ payment) :
    ∀ {holders : List Address} {acc acc' : State W × PoolTokenTotals × ℤ},
      acc.1.params.exchangeRate round.token = 10000 →
      holders.foldlM (distributeStep h signers round roundId payment) acc = .ok acc' →
      acc'.2.2 = acc.2.2 + holderAmounts (acc.1.coFundShare roundId) payment holders ∧
        acc'.2.1.poolValue = acc.2.1.poolValue + (acc'.2.2 - acc.2.2) := by
  intro holders
  induction holders with
  | nil =>
    intro acc acc' _ hf
    simp only [List.foldlM_nil, pure_eq_ok] at hf
    subst hf
    simp [holderAmounts]
  | cons holder holders ih =>
    intro acc acc' hrate hf
    rw [List.foldlM_cons, bind_eq_ok] at hf
    obtain ⟨acc₁, h₁, hf⟩ := hf
    obtain ⟨hd₁, hpv₁, hsh₁, hparams₁⟩ := distributeStep_at_par hrate hpay h₁
    obtain ⟨hd₂, hpv₂⟩ := ih (by rw [hparams₁]; exact hrate) hf
    rw [hsh₁] at hd₂
    refine ⟨?_, by omega⟩
    simp only [holderAmounts, List.map_cons, List.sum_cons] at hd₂ ⊢
    omega

theorem bookDust_eq_ok {dust payment : ℤ} (hb : bookDust tt dust payment = .ok tt') :
    tt'.totalDeployed = tt.totalDeployed ∧ tt'.rewardPerShare = tt.rewardPerShare ∧
      ((0 < dust ∧ tt'.poolValue = tt.poolValue + dust ∧ InI128 tt'.poolValue ∧
          tt'.protocolRevenue = tt.protocolRevenue + dust) ∨
        (dust ≤ 0 ∧ tt'.poolValue = tt.poolValue ∧ tt'.protocolRevenue = tt.protocolRevenue)) := by
  unfold bookDust addDust at hb
  simp only [bind_eq_ok] at hb
  obtain ⟨tt₁, h₁, hb⟩ := hb
  simp only [okOr_eq_ok, checkedAdd_eq_some, pure_eq_ok] at hb
  obtain ⟨_, -, rfl⟩ := hb
  split_ifs at h₁ with hpos
  · simp only [bind_eq_ok, okOr_eq_ok, checkedAdd_eq_some, pure_eq_ok] at h₁
    obtain ⟨_, ⟨rfl, -⟩, _, ⟨rfl, hrange⟩, rfl⟩ := h₁
    exact ⟨rfl, rfl, .inl ⟨hpos, rfl, hrange, rfl⟩⟩
  · obtain rfl := (pure_eq_ok _ _).1 h₁
    exact ⟨rfl, rfl, .inr ⟨by omega, rfl, rfl⟩⟩

theorem distributePariPassuRepayment_eq_ok
    (hd : distributePariPassuRepayment h signers s roundId payment tt = .ok (s', tt')) :
    ∃ round tt₁ distributed, s.rounds.get roundId = some round ∧
      round.participants.foldlM (distributeStep h signers round roundId payment) (s, tt, 0) =
        .ok (s', tt₁, distributed) ∧
      bookDust tt₁ (payment - distributed) payment = .ok tt' := by
  unfold distributePariPassuRepayment at hd
  simp only [bind_eq_ok, okOr_eq_ok, checkedSub_eq_some, pure_eq_ok, Prod.mk.injEq] at hd
  obtain ⟨round, hround, ⟨s₁, tt₁, distributed⟩, hfold, _, ⟨rfl, -⟩, tt₂, hdust, rfl, rfl⟩ := hd
  exact ⟨round, tt₁, distributed, hround, hfold, hdust⟩

theorem allocateRepayment_eq_ok (ha : allocateRepayment h signers s q = .ok (s', tt')) :
    (∃ roundId, q.record.coFundingRoundId = some roundId ∧
      distributePariPassuRepayment h signers s roundId q.payment (s.tt q.record.token) =
        .ok (s', tt')) ∨
    (q.record.coFundingRoundId = none ∧ q.full = true ∧ s' = s ∧
      s.settledTotals q (s.tt q.record.token) = .ok tt') ∨
    (q.record.coFundingRoundId = none ∧ q.full = false ∧ s' = s ∧ tt' = s.tt q.record.token) := by
  unfold allocateRepayment at ha
  dsimp only at ha
  split at ha
  · rename_i roundId hid
    exact .inl ⟨roundId, hid, ha⟩
  · rename_i hnone
    split_ifs at ha with hfull
    · simp only [bind_eq_ok, pure_eq_ok, Prod.mk.injEq] at ha
      obtain ⟨tt₁, hs, rfl, rfl⟩ := ha
      exact .inr (.inl ⟨hnone, hfull, rfl, hs⟩)
    · simp only [pure_eq_ok, Prod.mk.injEq] at ha
      obtain ⟨rfl, rfl⟩ := ha
      exact .inr (.inr ⟨hnone, by simpa using hfull, rfl, rfl⟩)

theorem releaseCollateral_eq_ok (hr : s.releaseCollateral h invoiceId = .ok s') :
    s' = s ∨ ∃ col, s.collateral.get invoiceId = some col ∧ col.settled = false ∧
      0 ≤ col.amount ∧
      s' = { s with
        cash := State.moveCash s.cash col.token h.self col.depositor col.amount
        collateral := s.collateral.set invoiceId
          { col with settled := true, releasedAt := s.now } } := by
  unfold State.releaseCollateral at hr
  split at hr
  · exact .inl ((pure_eq_ok _ _).1 hr).symm
  · rename_i col hcol
    split_ifs at hr with hset
    · exact .inl ((pure_eq_ok _ _).1 hr).symm
    · simp only [bind_eq_ok, State.transfer_eq_ok, pure_eq_ok] at hr
      obtain ⟨_, ⟨hnn, -, rfl⟩, rfl⟩ := hr
      exact .inr ⟨col, hcol, by simpa using hset, hnn, rfl⟩

theorem bookRepayment_eq_ok (hb : bookRepayment h signers s invoiceId payer q = .ok s') :
    ∃ s₁ tt stats s₂, allocateRepayment h signers s q = .ok (s₁, tt) ∧ 0 ≤ q.payment ∧
      s₂ = { s₁ with
        totals := Function.update s₁.totals q.record.token (some tt)
        funded := s₁.funded.set invoiceId { q.record with repaidAmount := q.newRepaid }
        stats := stats
        cash := State.moveCash s₁.cash q.record.token payer h.self q.payment } ∧
      ((q.full = true ∧ s₂.releaseCollateral h invoiceId = .ok s') ∨
        (q.full = false ∧ s' = s₂)) := by
  unfold bookRepayment at hb
  simp only [bind_eq_ok, State.transfer_eq_ok] at hb
  obtain ⟨⟨s₁, tt⟩, halloc, _, ⟨hnn, -, rfl⟩, hb⟩ := hb
  by_cases hfull : q.full = true
  · simp only [if_pos hfull] at hb
    exact ⟨s₁, tt, _, _, halloc, hnn, rfl, .inl ⟨hfull, hb⟩⟩
  · simp only [if_neg hfull, pure_eq_ok] at hb
    exact ⟨s₁, tt, _, _, halloc, hnn, rfl, .inr ⟨by simpa using hfull, hb.symm⟩⟩

theorem bookRepayment_queue (hb : bookRepayment h signers s invoiceId payer q = .ok s') :
    s'.queue = s.queue := by
  obtain ⟨s₁, tt, stats, s₂, halloc, -, hs₂, hb⟩ := bookRepayment_eq_ok hb
  have h₁ : s₁.queue = s.queue := by
    rcases allocateRepayment_eq_ok halloc with ⟨roundId, -, hd⟩ | ⟨-, -, rfl, -⟩ | ⟨-, -, rfl, -⟩
    · obtain ⟨_, _, _, -, hfold, -⟩ := distributePariPassuRepayment_eq_ok hd
      rw [(credits_of_distribute hfold).rest]
    · rfl
    · rfl
  have h₂ : s₂.queue = s.queue := by
    rw [hs₂]
    exact h₁
  rcases hb with ⟨-, hrel⟩ | ⟨-, rfl⟩
  · rcases releaseCollateral_eq_ok hrel with rfl | ⟨_, -, -, -, rfl⟩ <;> exact h₂
  · exact h₂

theorem repayInvoiceRequest_eq_ok {request : RepaymentRequest}
    (hr : repayInvoiceRequest h signers payer s request = .ok s') :
    ∃ q s₁ history, quoteRepayment s request.invoiceId payer request.amount = .ok q ∧
      bookRepayment h signers s request.invoiceId payer q = .ok s₁ ∧
      ((q.full = true ∧ ∃ s₂ o, processWithdrawalQueue h signers { s₁ with rateHistory := history }
          q.record.token ((s₁.tt q.record.token).poolValue -
            (s₁.tt q.record.token).totalDeployed) = .ok (s₂, o) ∧
          s₂.recordReferralActivity h q.record.sme .borrow q.record.factoringFee q.record.token =
            .ok s') ∨
        (q.full = false ∧ s' = { s₁ with rateHistory := history })) := by
  unfold repayInvoiceRequest availableLiquidity at hr
  simp only [bind_eq_ok] at hr
  obtain ⟨q, hq, s₁, hb, hr⟩ := hr
  split_ifs at hr with hfull
  · simp only [bind_eq_ok, okOr_eq_ok, checkedSub_eq_some] at hr
    obtain ⟨_, ⟨rfl, -⟩, s₂, hsnap, ⟨s₃, o⟩, hpass, href⟩ := hr
    obtain ⟨history, rfl⟩ := State.recordRateSnapshot_eq_ok hsnap
    exact ⟨q, s₁, history, hq, hb, .inl ⟨hfull, s₃, o, hpass, href⟩⟩
  · obtain ⟨history, rfl⟩ := State.recordRateSnapshot_eq_ok hr
    exact ⟨q, s₁, history, hq, hb, .inr ⟨by simpa using hfull, rfl⟩⟩

theorem repayInvoice_eq_ok {request : RepaymentRequest} :
    repayInvoice h signers s payer request = .ok s' ↔
      payer ∈ signers ∧ repayInvoiceRequest h signers payer s request = .ok s' := by
  simp only [repayInvoice, bind_eq_ok, exists_unit, requireAuth_eq_ok]

theorem repayInvoicesBatch_eq_ok {requests : List RepaymentRequest}
    (hr : repayInvoicesBatch h signers s payer requests = .ok s') :
    payer ∈ signers ∧ requests.foldlM (repayInvoiceRequest h signers payer) s = .ok s' := by
  unfold repayInvoicesBatch at hr
  simp only [bind_eq_ok, exists_unit, requireAuth_eq_ok] at hr
  exact ⟨hr.1, hr.2.2.2.2⟩

theorem isInvoiceRepaid_eq_ok {b : Bool} :
    isInvoiceRepaid s invoiceId = .ok b ↔ ∃ record interest totalDue,
      s.funded.get invoiceId = some record ∧
      calculateTotalDue record s.params.config.compoundInterest s.now =
        .ok (interest, totalDue) ∧ decide (totalDue ≤ record.repaidAmount) = b := by
  unfold isInvoiceRepaid
  simp only [bind_eq_ok, okOr_eq_ok, pure_eq_ok, Prod.exists]
  constructor
  · rintro ⟨record, hrecord, interest, totalDue, hdue, rfl⟩
    exact ⟨record, interest, totalDue, hrecord, hdue, rfl⟩
  · rintro ⟨record, interest, totalDue, hrecord, hdue, rfl⟩
    exact ⟨record, hrecord, interest, totalDue, hdue, rfl⟩

theorem cleanupFundedInvoice_eq_ok (hc : cleanupFundedInvoice signers s admin invoiceId = .ok s') :
    ∃ stats, isInvoiceRepaid s invoiceId = .ok true ∧
      s' = { s with funded := s.funded.remove invoiceId, stats := stats } := by
  unfold cleanupFundedInvoice at hc
  simp only [bind_eq_ok, require_eq_ok, exists_unit, okOr_eq_ok, pure_eq_ok] at hc
  obtain ⟨-, -, -, _, hrepaid, rfl, _, -, rfl⟩ := hc
  exact ⟨_, hrepaid, rfl⟩

/-- A cancelled invoice leaves the books; unless it was co-funded, so does its principal. -/
theorem cancelFundedInvoice_eq_ok (hc : cancelFundedInvoice h signers s admin invoiceId = .ok s') :
    ∃ record w stats, s.funded.get invoiceId = some record ∧
      ((record.coFundingRoundId.isSome = true ∧ s' = { s with
          world := w
          funded := s.funded.remove invoiceId
          stats := stats }) ∨
        (record.coFundingRoundId = none ∧ ∃ history, s' = { s with
          world := w
          totals := Function.update s.totals record.token (some { s.tt record.token with
            totalDeployed := (s.tt record.token).totalDeployed - record.principal })
          rateHistory := history
          funded := s.funded.remove invoiceId
          stats := stats })) := by
  unfold cancelFundedInvoice at hc
  simp only [bind_eq_ok, exists_unit, okOr_eq_ok, pure_eq_ok] at hc
  obtain ⟨-, -, record, hrecord, w, -, s₁, hs₁, rfl⟩ := hc
  unfold State.undeploy at hs₁
  split_ifs at hs₁ with hco
  · obtain rfl := (pure_eq_ok _ _).1 hs₁
    exact ⟨record, w, _, hrecord, .inl ⟨hco, rfl⟩⟩
  · simp only [bind_eq_ok, okOr_eq_ok, checkedSub_eq_some] at hs₁
    obtain ⟨_, ⟨rfl, -⟩, hsnap⟩ := hs₁
    obtain ⟨history, rfl⟩ := State.recordRateSnapshot_eq_ok hsnap
    exact ⟨record, w, _, hrecord, .inr ⟨by simpa using hco, history, rfl⟩⟩

theorem updateInvoiceDueDate_eq_ok {invoiceContract : Address} {invoiceId newDueDate : ℕ}
    (hu : updateInvoiceDueDate signers s invoiceContract invoiceId newDueDate = .ok s') :
    ∃ record, s.funded.get invoiceId = some record ∧ record.dueDate < newDueDate ∧
      s' = { s with funded := s.funded.set invoiceId { record with dueDate := newDueDate } } := by
  unfold updateInvoiceDueDate at hu
  simp only [bind_eq_ok, require_eq_ok, exists_unit, okOr_eq_ok, pure_eq_ok] at hu
  obtain ⟨-, -, record, hrecord, hlt, rfl⟩ := hu
  exact ⟨record, hrecord, hlt, rfl⟩

theorem setCompoundInterest_eq_ok {compound : Bool}
    (hs : setCompoundInterest signers s admin compound = .ok s') :
    s' = { s with
      params := { s.params with
        config := { s.params.config with compoundInterest := compound } } } := by
  unfold setCompoundInterest at hs
  simp only [bind_eq_ok, exists_unit, pure_eq_ok] at hs
  exact hs.2.2.2.symm

end Astera.Pool
