import Mathlib.Algebra.Order.BigOperators.Group.Finset
import Astera.Pool.Investor

/-!
# Co-funding rounds

Several investors commit parts of their pool value to one invoice.  A commitment burns shares and
earmarks the money; a refund and every repayment credit value back by minting shares.
-/

namespace Astera.Pool

open Fallible Machine

variable {W : Type}
variable {h : Host W} {investor token : Address} {round : CoFundingRound}
  {investors signers : List Address} {tt tt' : PoolTokenTotals} {s s' : State W} {invoiceId : ℕ}
  {amount refunded : ℤ}

/-- `credit_investor_value`; the totals are the caller's local copy. -/
def creditInvestorValue (h : Host W) (signers : List Address) (s : State W)
    (token investor : Address) (amount : ℤ) (tt : PoolTokenTotals) :
    Res (State W × PoolTokenTotals) :=
  if amount ≤ 0 then return (s, tt)
  else do
    let share ← s.shareTokenOf token
    let usdc ← s.usdcValue overflowErr token amount
    let minted ← sharesToMint overflowErr usdc (s.supply share) tt.poolValue
    let poolValue ← okOr (checkedAdd tt.poolValue usdc) overflowErr
    let s ← s.mint h signers share investor minted
    let position := s.position investor token
    let deposited ← okOr (checkedAdd position.deposited usdc) overflowErr
    let available ← okOr (checkedAdd position.available minted) overflowErr
    let position := { position with deposited := deposited, available := available }
    return ({ s with position := set₂ s.position investor token position },
      { tt with poolValue := poolValue })

/-- `refund_co_funding_investor`: the exact commitment is credited back. -/
def refundCoFundingInvestor (h : Host W) (signers : List Address) (s : State W)
    (round : CoFundingRound) (investor : Address) (tt : PoolTokenTotals) :
    Res (State W × PoolTokenTotals × ℤ) :=
  let committed := s.coFundCommitted round.invoiceId investor
  if committed = 0 then return (s, tt, 0)
  else do
    let (s, tt) ← creditInvestorValue h signers s round.token investor committed tt
    return ({ s with
      coFundShare := set₂ s.coFundShare round.invoiceId investor 0
      coFundCommitted := set₂ s.coFundCommitted round.invoiceId investor 0 }, tt, committed)

def removeParticipant (round : CoFundingRound) (investor : Address) : CoFundingRound :=
  { round with participants := round.participants.filter fun a => a ≠ investor }

def openCoFunding (signers : List Address) (s : State W) (admin : Address)
    (request : OpenCoFundingRequest) : Res (State W) := do
  requireAuth signers admin
  s.requireNotPaused
  s.requireAdmin admin
  s.assertAcceptedToken request.token
  require (0 < request.targetPrincipal) (.err .InvalidAmount)
  require (0 ≤ request.minCommitment ∧ request.minCommitment ≤ request.targetPrincipal)
    (.err .InvalidCoFundingParams)
  require (request.maxInvestorBps ≤ bpsDenom) (.err .InvalidCoFundingParams)
  require (s.now < request.fundingDeadline) (.err .InvalidCoFundingParams)
  require (s.now < request.dueDate) (.err .InvoiceExpired)
  require (s.rounds.get request.invoiceId = none) (.err .CoFundingRoundAlreadyExists)
  require (s.funded.get request.invoiceId = none) (.err .StorageCorrupted)
  let round : CoFundingRound :=
    { invoiceId := request.invoiceId, token := request.token, sme := request.sme
      dueDate := request.dueDate, targetPrincipal := request.targetPrincipal
      committedPrincipal := 0, fundingDeadline := request.fundingDeadline, status := .Open
      minCommitment := request.minCommitment, maxInvestorBps := request.maxInvestorBps
      participants := [] }
  return { s with
    rounds := s.rounds.set request.invoiceId round
    roundIds := s.roundIds ++ [request.invoiceId] }

def State.requireCommitConcentration (s : State W) (position : InvestorPosition)
    (poolValue usdc : ℤ) : Res Unit :=
  if s.params.config.maxSingleInvestorBps < bpsDenom then do
    let post ← okOr (checkedSub poolValue usdc) overflowErr
    if 0 < post then do
      let bps ← shareBps position.deposited post
      require (bps ≤ s.params.config.maxSingleInvestorBps) (.err .ConcentrationLimitExceeded)
    else return ()
  else return ()

def requireInvestorCap (round : CoFundingRound) (committed : ℤ) : Res Unit :=
  if 0 < round.maxInvestorBps then do
    let scaled ← okOr (checkedMul round.targetPrincipal round.maxInvestorBps) overflowErr
    let cap ← okOr (checkedDiv scaled bpsDenom) overflowErr
    require (committed ≤ cap) (.err .CoFundingInvestorCapExceeded)
  else return ()

/-- The basis points of a commitment, in the contract's `u64` arithmetic. -/
def commitmentBps (committed target : ℤ) : Res ℕ := do
  let scaled ← okOr (fitU 64 (toU 64 committed * bpsDenom)) overflowTrap
  require (toU 64 target ≠ 0) overflowTrap
  return truncU 32 (scaled / toU 64 target)

/-- What a commitment amounts to: the part of the requested amount that still fits the round, its
value and the shares it burns. -/
structure Commitment where
  amount : ℤ
  usdc : ℤ
  burned : ℤ
  share : Address

/-- The checks of `commit_to_invoice` before the burn. -/
def commitGuards (signers : List Address) (s : State W) (investor : Address) (amount : ℤ)
    (round : CoFundingRound) : Res Commitment := do
  requireAuth signers investor
  s.requireNotPaused
  require (0 < amount) (.err .InvalidAmount)
  require (round.status = .Open) (.err .CoFundingRoundNotOpen)
  require (s.now < round.fundingDeadline) (.err .CoFundingDeadlinePassed)
  let remaining ← okOr (checkedSub round.targetPrincipal round.committedPrincipal) overflowErr
  require (0 < remaining) (.err .CoFundingRoundNotOpen)
  let commitAmount := if remaining < amount then remaining else amount
  let share ← s.shareTokenOf round.token
  let tt := s.tt round.token
  let usdc ← s.usdcValue overflowErr round.token commitAmount
  require (s.supply share ≠ 0 ∧ tt.poolValue ≠ 0) (.err .InsufficientLiquidity)
  let product ← okOr (checkedMul usdc (s.supply share)) overflowErr
  let burned ← okOr (checkedDiv product tt.poolValue) overflowErr
  require (0 < burned) (.err .InvalidAmount)
  let position := s.position investor round.token
  require (burned ≤ position.available) (.err .InvalidAmount)
  s.requireCommitConcentration position tt.poolValue usdc
  return ⟨commitAmount, usdc, burned, share⟩

def commitToInvoice (h : Host W) (signers : List Address) (s : State W) (investor : Address)
    (invoiceId : ℕ) (amount : ℤ) : Res (State W) := do
  let round ← okOr (s.rounds.get invoiceId) (.err .CoFundingRoundNotFound)
  let c ← commitGuards signers s investor amount round
  let committed ← okOr (checkedAdd (s.coFundCommitted invoiceId investor) c.amount) overflowErr
  requireInvestorCap round committed
  let s ← s.burn h signers c.share investor c.burned
  let position := s.position investor round.token
  let available ← okOr (checkedSub position.available c.burned) overflowErr
  let tt := s.tt round.token
  let poolValue ← okOr (checkedSub tt.poolValue c.usdc) overflowErr
  let newBps ← commitmentBps committed round.targetPrincipal
  -- membership is decided by the basis points stored before this commitment
  let isNew := s.coFundShare invoiceId investor = 0
  require (¬ (isNew ∧ maxCoFundingParticipants ≤ round.participants.length))
    (.err .CoFundingTooManyParticipants)
  let participants := if isNew then round.participants ++ [investor] else round.participants
  let committedPrincipal ← okOr (checkedAdd round.committedPrincipal c.amount) overflowErr
  return { s with
    position := set₂ s.position investor round.token { position with available := available }
    totals := Function.update s.totals round.token (some { tt with poolValue := poolValue })
    coFundShare := set₂ s.coFundShare invoiceId investor newBps
    coFundCommitted := set₂ s.coFundCommitted invoiceId investor committed
    rounds := s.rounds.set invoiceId
      { round with participants := participants, committedPrincipal := committedPrincipal } }

/-! ## Leaving and closing a round -/

def withdrawCoFundingCommitment (h : Host W) (signers : List Address) (s : State W)
    (investor : Address) (invoiceId : ℕ) : Res (State W) := do
  requireAuth signers investor
  s.requireNotPaused
  let round ← okOr (s.rounds.get invoiceId) (.err .CoFundingRoundNotFound)
  require (round.status = .Open) (.err .CoFundingRoundNotOpen)
  let (s, tt, refunded) ←
    refundCoFundingInvestor h signers s round investor (s.tt round.token)
  require (refunded ≠ 0) (.err .CoFundingNoCommitment)
  let round := removeParticipant
    { round with committedPrincipal := saturatingSub round.committedPrincipal refunded } investor
  return { s.setTotals round.token tt with rounds := s.rounds.set invoiceId round }

def cancelCoFundingRound (signers : List Address) (s : State W) (admin : Address)
    (invoiceId : ℕ) : Res (State W) := do
  requireAuth signers admin
  s.requireAdmin admin
  let round ← okOr (s.rounds.get invoiceId) (.err .CoFundingRoundNotFound)
  require (round.status = .Open) (.err .CoFundingRoundNotOpen)
  require (round.committedPrincipal = 0) (.err .InvalidCoFundingParams)
  return { s with rounds := s.rounds.set invoiceId { round with status := .Cancelled } }

/-- One iteration of the refund loop of `finalize_co_funding`; the last component is the total
refunded so far. -/
def refundStep (h : Host W) (signers : List Address) (round : CoFundingRound)
    (acc : State W × PoolTokenTotals × ℤ) (investor : Address) :
    Res (State W × PoolTokenTotals × ℤ) := do
  let (s, tt, refunded) ← refundCoFundingInvestor h signers acc.1 round investor acc.2.1
  let total ← okOr (checkedAdd acc.2.2 refunded) overflowTrap
  return (s, tt, total)

/-- The arm of `finalize_co_funding` for a round that missed its target. -/
def expireRound (h : Host W) (signers : List Address) (s : State W) (invoiceId : ℕ)
    (round : CoFundingRound) : Res (State W) := do
  let (s, tt, _) ← round.participants.foldlM (refundStep h signers round)
    (s, s.tt round.token, 0)
  let round := { round with committedPrincipal := 0, participants := [], status := .Expired }
  return { s.setTotals round.token tt with rounds := s.rounds.set invoiceId round }

def PoolStorageStats.addFunded (stats : PoolStorageStats) : Res PoolStorageStats := do
  let total ← okOr (fitU 64 (stats.totalFundedInvoices + 1)) overflowErr
  let active ← okOr (fitU 64 (stats.activeFundedInvoices + 1)) overflowErr
  return { stats with totalFundedInvoices := total, activeFundedInvoices := active }

/-- The notification of the credit-score contract, whose failure is ignored. -/
def State.notifyCreditScore (h : Host W) (s : State W) (invoiceId : ℕ) (sme : Address)
    (amount : ℤ) : State W :=
  match s.params.creditScoreContract with
  | none => s
  | some contract => { s with world := h.recordCreditFunding s.world contract invoiceId sme amount }

/-- The arm of `finalize_co_funding` for a round that met its target. -/
def fillRound (h : Host W) (s : State W) (invoiceId : ℕ) (round : CoFundingRound) :
    Res (State W) := do
  require (s.funded.get invoiceId = none) (.err .StorageCorrupted)
  let lockedYieldBps ← s.currentRateForToken round.token
  let funded : FundedInvoice :=
    { invoiceId := invoiceId, sme := round.sme, token := round.token
      principal := round.committedPrincipal, fundedAt := s.now, factoringFee := 0
      dueDate := round.dueDate, repaidAmount := 0, coFundingRoundId := some invoiceId
      lockedYieldBps := lockedYieldBps }
  let stats ← s.stats.addFunded
  let s := { s with
    funded := s.funded.set invoiceId funded
    stats := stats
    rounds := s.rounds.set invoiceId { round with status := .Filled } }
  let s ← s.transfer round.token h.self round.sme round.committedPrincipal
  return s.notifyCreditScore h invoiceId round.sme round.committedPrincipal

def finalizeCoFunding (h : Host W) (signers : List Address) (s : State W) (caller : Address)
    (invoiceId : ℕ) : Res (State W) := do
  requireAuth signers caller
  s.requireNotPaused
  let round ← okOr (s.rounds.get invoiceId) (.err .CoFundingRoundNotFound)
  require (round.status = .Open) (.err .CoFundingRoundAlreadyFinalized)
  let targetMet := decide (round.targetPrincipal ≤ round.committedPrincipal)
  require (targetMet = true ∨ round.fundingDeadline ≤ s.now) (.err .CoFundingRoundNotOpen)
  if targetMet = true then fillRound h s invoiceId round
  else expireRound h signers s invoiceId round

/-- Keep the participants of a round in step with a transfer of shares: the seller leaves when it
holds nothing any more, the buyer joins when it held nothing before. -/
def State.syncParticipants (s : State W) (roundId : ℕ) (seller buyer : Address)
    (newFrom oldTo : ℕ) : Res (State W) :=
  match s.rounds.get roundId with
  | none => return s
  | some round => do
      let round := if newFrom = 0 then removeParticipant round seller else round
      require (¬ (oldTo = 0 ∧ maxCoFundingParticipants ≤ round.participants.length))
        (.err .CoFundingTooManyParticipants)
      let round :=
        if oldTo = 0 then { round with participants := round.participants ++ [buyer] } else round
      return { s with rounds := s.rounds.set roundId round }

/-- Shares are tradeable once the round they came from is filled. -/
def State.requireRoundFilled (s : State W) : Option ℕ → Res Unit
  | none => return ()
  | some roundId => do
      let round ← okOr (s.rounds.get roundId) (.err .CoFundingRoundNotFound)
      require (round.status = .Filled) (.err .CoFundingRoundNotFilled)

def transferCoFundShare (signers : List Address) (s : State W) (sender : Address) (invoiceId : ℕ)
    (token receiver : Address) (bps : ℕ) : Res (State W) := do
  requireAuth signers sender
  s.requireNotPaused
  s.assertAcceptedToken token
  require (bps ≠ 0) (.err .ZeroAmount)
  require (bps ≤ bpsDenom) (.err .InvalidAmount)
  let record ← okOr (s.funded.get invoiceId) (.err .InvoiceNotFound)
  require (record.repaidAmount < saturatingAdd record.principal record.factoringFee)
    (.err .AlreadyFullyRepaid)
  s.requireRoundFilled record.coFundingRoundId
  s.requireKycApproved receiver
  require (sender ≠ receiver) (.err .Unauthorized)
  let fromShare := s.coFundShare invoiceId sender
  let transferAmount := truncU 32 (fromShare * bps / bpsDenom)
  require (transferAmount ≠ 0 ∧ transferAmount ≤ fromShare) (.err .InsufficientCoFundShare)
  let toShare := s.coFundShare invoiceId receiver
  let newFrom := fromShare - transferAmount
  let newTo := min (toShare + transferAmount) (2 ^ 32 - 1)
  let s := { s with
    coFundShare := set₂ (set₂ s.coFundShare invoiceId sender newFrom) invoiceId receiver newTo }
  match record.coFundingRoundId with
  | none => return s
  | some roundId => s.syncParticipants roundId sender receiver newFrom toShare

/-! ## What crediting does -/

theorem usdcValue_nonneg {f : Fault} {amount usdc : ℤ} (ha : 0 ≤ amount)
    (hu : s.usdcValue f token amount = .ok usdc) : 0 ≤ usdc := by
  unfold State.usdcValue at hu
  simp only [bind_eq_ok, okOr_eq_ok, checkedMul_eq_some, checkedDiv_eq_some] at hu
  obtain ⟨_, ⟨rfl, -⟩, -, rfl, -⟩ := hu
  exact Int.tdiv_nonneg (mul_nonneg ha (by positivity)) (by norm_num)

theorem creditInvestorValue_eq_ok {r : State W × PoolTokenTotals}
    (hc : creditInvestorValue h signers s token investor amount tt = .ok r) :
    (amount ≤ 0 ∧ r = (s, tt)) ∨
    (0 < amount ∧ ∃ share usdc minted st position, s.shareToken token = some share ∧
      s.usdcValue overflowErr token amount = .ok usdc ∧
      sharesToMint overflowErr usdc (s.supply share) tt.poolValue = .ok minted ∧ 0 < minted ∧
      InI128 (tt.poolValue + usdc) ∧ State.Moved s.shareTokens st share investor minted ∧
      position.available = (s.position investor token).available + minted ∧
      InI128 position.available ∧
      position.deposited = (s.position investor token).deposited + usdc ∧
      InI128 position.deposited ∧
      r = ({ s with shareTokens := st, position := set₂ s.position investor token position },
        { tt with poolValue := tt.poolValue + usdc })) := by
  unfold creditInvestorValue at hc
  split_ifs at hc with hpos
  · exact .inl ⟨hpos, ((pure_eq_ok _ _).1 hc).symm⟩
  · simp only [bind_eq_ok, State.shareTokenOf, okOr_eq_ok, checkedAdd_eq_some, pure_eq_ok] at hc
    obtain ⟨share, hshare, usdc, husdc, minted, hminted, _, ⟨rfl, hpv⟩, s₁, hmint, hc⟩ := hc
    obtain ⟨hm, st, hmoved, rfl⟩ := State.mint_eq_ok hmint
    obtain ⟨_, ⟨rfl, hdep⟩, _, ⟨rfl, havail⟩, rfl⟩ := hc
    exact .inr ⟨by omega, share, usdc, minted, st, _, hshare, husdc, hminted, hm, hpv, hmoved, rfl,
      havail, rfl, hdep, rfl⟩

theorem sharesToMint_price {f : Fault} {usdc totalShares poolValue minted : ℤ}
    (hu : 0 ≤ usdc) (hts : 0 < totalShares) (hpv : 0 < poolValue)
    (hm : sharesToMint f usdc totalShares poolValue = .ok minted) :
    poolValue * (totalShares + minted) ≤ (poolValue + usdc) * totalShares := by
  obtain ⟨hz | hz, -⟩ | ⟨-, -, rfl⟩ := sharesToMint_eq_ok hm
  · omega
  · omega
  · have := tdiv_mul_le_of_nonneg hpv (mul_nonneg hu hts.le)
    linarith

/-- Value was credited to investors in `token`: the totals grew by it, every investor's available
amount and share balance grew alike, and the share price did not fall. -/
structure Credits (token : Address) (s s' : State W) (tt tt' : PoolTokenTotals) : Prop where
  rest : s' = { s with
    shareTokens := s'.shareTokens
    position := s'.position
    coFundShare := s'.coFundShare
    coFundCommitted := s'.coFundCommitted }
  tt_eq : tt' = { tt with poolValue := tt'.poolValue }
  mono : tt.poolValue ≤ tt'.poolValue
  range : InI128 tt.poolValue → InI128 tt'.poolValue
  shares : ∀ sh a, (s'.shareTokens sh).balance a = (s.shareTokens sh).balance a +
    if s.shareToken token = some sh then
      (s'.position a token).available - (s.position a token).available
    else 0
  available_le : ∀ a, (s.position a token).available ≤ (s'.position a token).available
  available_range : ∀ a, InI128 (s.position a token).available →
    InI128 (s'.position a token).available
  position_ne : ∀ t a, t ≠ token → s'.position a t = s.position a t
  registered : s.shareToken token = none →
    ∀ a, (s'.position a token).available = (s.position a token).available
  others : ∀ sh, s.shareToken token ≠ some sh → ∀ w : Address → ℤ,
    (s'.shareTokens sh).balances.total (fun a b => w a * b) =
      (s.shareTokens sh).balances.total fun a b => w a * b
  price : ∀ sh, s.shareToken token = some sh → 0 < s.supply sh → 0 < tt.poolValue →
    tt.poolValue * s'.supply sh ≤ tt'.poolValue * s.supply sh ∧ s.supply sh ≤ s'.supply sh

theorem Credits.refl (token : Address) (s : State W) (tt : PoolTokenTotals) :
    Credits token s s tt tt :=
  ⟨rfl, rfl, le_rfl, id, by simp, fun _ => le_rfl, fun _ => id, fun _ _ _ => rfl,
    fun _ _ => rfl, fun _ _ _ => rfl, fun _ _ _ _ => ⟨le_rfl, le_rfl⟩⟩

theorem Credits.shareToken_eq (hc : Credits token s s' tt tt') : s'.shareToken = s.shareToken := by
  rw [hc.rest]

theorem Credits.reward (hc : Credits token s s' tt tt') :
    tt'.rewardPerShare = tt.rewardPerShare := by
  rw [hc.tt_eq]

theorem Credits.trans {s s' s'' : State W} {tt tt' tt'' : PoolTokenTotals}
    (h₁ : Credits token s s' tt tt') (h₂ : Credits token s' s'' tt' tt'') :
    Credits token s s'' tt tt'' where
  rest := by
    rw [h₂.rest]
    conv_rhs => rw [← h₂.rest]
    rw [h₁.rest]
  tt_eq := by
    rw [h₂.tt_eq, h₁.tt_eq]
  mono := h₁.mono.trans h₂.mono
  range h := h₂.range (h₁.range h)
  shares sh a := by
    rw [h₂.shares, h₁.shares, h₁.shareToken_eq]
    split_ifs <;> ring
  available_le a := (h₁.available_le a).trans (h₂.available_le a)
  available_range a h := h₂.available_range a (h₁.available_range a h)
  position_ne t a ht := (h₂.position_ne t a ht).trans (h₁.position_ne t a ht)
  registered hnone a :=
    (h₂.registered (h₁.shareToken_eq ▸ hnone) a).trans (h₁.registered hnone a)
  others sh hsh w := (h₂.others sh (h₁.shareToken_eq ▸ hsh) w).trans (h₁.others sh hsh w)
  price sh hsh hs hpv := by
    obtain ⟨hp₁, hs₁⟩ := h₁.price sh hsh hs hpv
    obtain ⟨hp₂, hs₂⟩ := h₂.price sh (h₁.shareToken_eq ▸ hsh) (hs.trans_le hs₁)
      (hpv.trans_le h₁.mono)
    exact ⟨ratio_trans hs.le (hs.trans_le hs₁) (hs.le.trans (hs₁.trans hs₂)) hp₁ hp₂, hs₁.trans hs₂⟩

theorem credits_of_creditInvestorValue
    (hc : creditInvestorValue h signers s token investor amount tt = .ok (s', tt')) :
    Credits token s s' tt tt' := by
  rcases creditInvestorValue_eq_ok hc with ⟨-, hr⟩ |
    ⟨hpos, share, usdc, minted, st, position, hshare, husdc, hminted, hm, hrange, hmoved, havail,
      havailRange, -, -, hr⟩
  · obtain ⟨rfl, rfl⟩ := Prod.mk.inj hr
    exact Credits.refl _ _ _
  · obtain ⟨rfl, rfl⟩ := Prod.mk.inj hr
    have hu := usdcValue_nonneg hpos.le husdc
    refine ⟨rfl, rfl, ?_, fun _ => hrange, fun sh a => ?_, fun a => ?_, fun a ha => ?_,
      fun t a ht => ?_, fun hnone => ?_, fun sh hsh w => ?_, fun sh hsh hs hpv => ?_⟩
    · simp only
      omega
    · rw [hmoved.balance]
      by_cases hsh : sh = share
      · subst hsh
        by_cases ha : a = investor
        · subst ha
          simp [hshare, havail]
        · simp [hshare, set₂_apply, ha]
      · have hne : s.shareToken token ≠ some sh := by
          rw [hshare]
          exact fun h => hsh (Option.some.inj h).symm
        simp [hsh, hne]
    · by_cases ha : a = investor
      · subst ha
        simp only [set₂_self, havail]
        omega
      · simp [set₂_apply, ha]
    · by_cases ha' : a = investor
      · subst ha'
        simpa only [set₂_self] using havailRange
      · simpa [set₂_apply, ha'] using ha
    · simp [set₂_apply, ht]
    · rw [hshare] at hnone
      cases hnone
    · have hne : sh ≠ share := by
        rintro rfl
        exact hsh hshare
      rw [hmoved.weighted, if_neg hne, add_zero]
    · obtain rfl : share = sh := by
        rw [hshare] at hsh
        exact Option.some.inj hsh
      simp only [State.supply] at hs ⊢
      rw [hmoved.supply, if_pos rfl]
      exact ⟨sharesToMint_price hu hs hpv hminted, by omega⟩

theorem credits_of_refundCoFundingInvestor
    (hr : refundCoFundingInvestor h signers s round investor tt = .ok (s', tt', refunded)) :
    Credits round.token s s' tt tt' := by
  unfold refundCoFundingInvestor at hr
  dsimp only at hr
  split at hr
  · simp only [pure_eq_ok, Prod.mk.injEq] at hr
    obtain ⟨rfl, rfl, -⟩ := hr
    exact Credits.refl _ _ _
  · simp only [bind_eq_ok, pure_eq_ok, Prod.mk.injEq] at hr
    obtain ⟨⟨s₁, tt₁⟩, hc, rfl, rfl, -⟩ := hr
    have hcr := credits_of_creditInvestorValue hc
    exact hcr.trans ⟨rfl, rfl, le_rfl, id, by simp, fun _ => le_rfl, fun _ => id,
      fun _ _ _ => rfl, fun _ _ => rfl, fun _ _ _ => rfl, fun _ _ _ _ => ⟨le_rfl, le_rfl⟩⟩

/-! ## What a successful call did -/

theorem openCoFunding_eq_ok {admin : Address} {request : OpenCoFundingRequest}
    (ho : openCoFunding signers s admin request = .ok s') :
    s.rounds.get request.invoiceId = none ∧ s.funded.get request.invoiceId = none ∧
    s' = { s with
      rounds := s.rounds.set request.invoiceId
        { invoiceId := request.invoiceId, token := request.token, sme := request.sme
          dueDate := request.dueDate, targetPrincipal := request.targetPrincipal
          committedPrincipal := 0, fundingDeadline := request.fundingDeadline, status := .Open
          minCommitment := request.minCommitment, maxInvestorBps := request.maxInvestorBps
          participants := [] }
      roundIds := s.roundIds ++ [request.invoiceId] } := by
  unfold openCoFunding at ho
  simp only [bind_eq_ok, require_eq_ok, exists_unit, pure_eq_ok] at ho
  obtain ⟨-, -, -, -, -, -, -, -, -, hround, hfunded, rfl⟩ := ho
  exact ⟨hround, hfunded, rfl⟩

theorem commitGuards_eq_ok {c : Commitment}
    (hg : commitGuards signers s investor amount round = .ok c) :
    investor ∈ signers ∧ 0 < c.amount ∧ round.status = .Open ∧
      s.shareToken round.token = some c.share ∧
      s.usdcValue overflowErr round.token c.amount = .ok c.usdc ∧
      s.supply c.share ≠ 0 ∧ (s.tt round.token).poolValue ≠ 0 ∧
      c.burned = (c.usdc * s.supply c.share).tdiv (s.tt round.token).poolValue ∧
      0 < c.burned ∧ c.burned ≤ (s.position investor round.token).available := by
  unfold commitGuards at hg
  simp only [bind_eq_ok, requireAuth_eq_ok, require_eq_ok, exists_unit, State.shareTokenOf,
    okOr_eq_ok, checkedSub_eq_some, checkedMul_eq_some, checkedDiv_eq_some, pure_eq_ok] at hg
  obtain ⟨hauth, -, hpos, hopen, -, remaining, -, hrem, share, hshare, usdc, husdc, ⟨hsup, hpv⟩,
    _, ⟨rfl, -⟩, burned, ⟨-, rfl, -⟩, hburned, havail, -, rfl⟩ := hg
  refine ⟨hauth, ?_, hopen, hshare, husdc, hsup, hpv, rfl, hburned, havail⟩
  dsimp only
  split_ifs <;> omega

theorem commitToInvoice_eq_ok (hc : commitToInvoice h signers s investor invoiceId amount = .ok s') :
    ∃ round c st position newBps participants, s.rounds.get invoiceId = some round ∧
      commitGuards signers s investor amount round = .ok c ∧
      State.Moved s.shareTokens st c.share investor (-c.burned) ∧
      position.available = (s.position investor round.token).available - c.burned ∧
      InI128 ((s.tt round.token).poolValue - c.usdc) ∧
      InI128 (round.committedPrincipal + c.amount) ∧
      (participants = round.participants ∨ participants = round.participants ++ [investor]) ∧
      (s.coFundShare invoiceId investor = 0 → participants = round.participants ++ [investor]) ∧
      s' = { s with
        shareTokens := st
        position := set₂ s.position investor round.token position
        totals := Function.update s.totals round.token
          (some { s.tt round.token with poolValue := (s.tt round.token).poolValue - c.usdc })
        coFundShare := set₂ s.coFundShare invoiceId investor newBps
        coFundCommitted := set₂ s.coFundCommitted invoiceId investor
          (s.coFundCommitted invoiceId investor + c.amount)
        rounds := s.rounds.set invoiceId { round with
          participants := participants
          committedPrincipal := round.committedPrincipal + c.amount } } := by
  unfold commitToInvoice at hc
  simp only [bind_eq_ok, require_eq_ok, exists_unit, okOr_eq_ok, checkedAdd_eq_some,
    checkedSub_eq_some, pure_eq_ok] at hc
  obtain ⟨round, hround, c, hguards, _, ⟨rfl, -⟩, -, s₁, hburn, hc⟩ := hc
  obtain ⟨-, -, st, hmoved, rfl⟩ := State.burn_eq_ok hburn
  obtain ⟨_, ⟨rfl, -⟩, _, ⟨rfl, hpv⟩, newBps, -, -, _, ⟨rfl, hcommitted⟩, rfl⟩ := hc
  refine ⟨round, c, st, _, newBps, _, hround, hguards, hmoved, rfl, hpv, hcommitted, ?_, ?_, rfl⟩
  · split_ifs
    · exact .inr rfl
    · exact .inl rfl
  · intro hnew
    exact if_pos hnew

theorem withdrawCoFundingCommitment_eq_ok
    (hw : withdrawCoFundingCommitment h signers s investor invoiceId = .ok s') :
    ∃ round s₁ tt refunded, s.rounds.get invoiceId = some round ∧ round.status = .Open ∧
      refundCoFundingInvestor h signers s round investor (s.tt round.token) =
        .ok (s₁, tt, refunded) ∧ refunded ≠ 0 ∧
      s' = { s₁ with
        totals := Function.update s₁.totals round.token (some tt)
        rounds := s₁.rounds.set invoiceId (removeParticipant { round with
          committedPrincipal := saturatingSub round.committedPrincipal refunded } investor) } := by
  unfold withdrawCoFundingCommitment at hw
  simp only [bind_eq_ok, require_eq_ok, exists_unit, okOr_eq_ok, pure_eq_ok] at hw
  obtain ⟨-, -, round, hround, hopen, ⟨s₁, tt, refunded⟩, hrefund, hne, rfl⟩ := hw
  exact ⟨round, s₁, tt, refunded, hround, hopen, hrefund, hne, rfl⟩

theorem cancelCoFundingRound_eq_ok {admin : Address}
    (hc : cancelCoFundingRound signers s admin invoiceId = .ok s') :
    ∃ round, s.rounds.get invoiceId = some round ∧ round.status = .Open ∧
      round.committedPrincipal = 0 ∧
      s' = { s with rounds := s.rounds.set invoiceId { round with status := .Cancelled } } := by
  unfold cancelCoFundingRound at hc
  simp only [bind_eq_ok, require_eq_ok, exists_unit, okOr_eq_ok, pure_eq_ok] at hc
  obtain ⟨-, -, round, hround, hopen, hzero, rfl⟩ := hc
  exact ⟨round, hround, hopen, hzero, rfl⟩

theorem notifyCreditScore_eq (h : Host W) (s : State W) (invoiceId : ℕ) (sme : Address)
    (amount : ℤ) : ∃ w, s.notifyCreditScore h invoiceId sme amount = { s with world := w } := by
  unfold State.notifyCreditScore
  split
  · exact ⟨s.world, rfl⟩
  · exact ⟨_, rfl⟩

theorem fillRound_eq_ok (hf : fillRound h s invoiceId round = .ok s') :
    ∃ lockedYieldBps stats w, s.funded.get invoiceId = none ∧ 0 ≤ round.committedPrincipal ∧
      s' = { s with
        funded := s.funded.set invoiceId
          { invoiceId := invoiceId, sme := round.sme, token := round.token
            principal := round.committedPrincipal, fundedAt := s.now, factoringFee := 0
            dueDate := round.dueDate, repaidAmount := 0, coFundingRoundId := some invoiceId
            lockedYieldBps := lockedYieldBps }
        stats := stats
        rounds := s.rounds.set invoiceId { round with status := .Filled }
        cash := State.moveCash s.cash round.token h.self round.sme round.committedPrincipal
        world := w } := by
  unfold fillRound at hf
  simp only [bind_eq_ok, require_eq_ok, exists_unit, State.transfer_eq_ok, pure_eq_ok] at hf
  obtain ⟨hnone, lockedYieldBps, -, stats, -, _, ⟨hnn, -, rfl⟩, rfl⟩ := hf
  obtain ⟨w, hw⟩ := notifyCreditScore_eq h _ invoiceId round.sme round.committedPrincipal
  exact ⟨lockedYieldBps, stats, w, hnone, hnn, hw⟩

theorem expireRound_eq_ok (he : expireRound h signers s invoiceId round = .ok s') :
    ∃ s₁ tt total, round.participants.foldlM (refundStep h signers round)
        (s, s.tt round.token, 0) = .ok (s₁, tt, total) ∧
      s' = { s₁ with
        totals := Function.update s₁.totals round.token (some tt)
        rounds := s₁.rounds.set invoiceId
          { round with committedPrincipal := 0, participants := [], status := .Expired } } := by
  unfold expireRound at he
  simp only [bind_eq_ok, pure_eq_ok] at he
  obtain ⟨⟨s₁, tt, total⟩, hfold, rfl⟩ := he
  exact ⟨s₁, tt, total, hfold, rfl⟩

theorem credits_of_expire {s s₁ : State W} {tt tt₁ : PoolTokenTotals} {a b : ℤ}
    (hf : investors.foldlM (refundStep h signers round) (s, tt, a) = .ok (s₁, tt₁, b)) :
    Credits round.token s s₁ tt tt₁ := by
  have hinv := foldlM_invariant (P := fun acc => Credits round.token s acc.1 tt acc.2.1)
    (l := investors) (f := refundStep h signers round) ?_ (Credits.refl _ s tt) hf
  · exact hinv
  · rintro ⟨s₂, tt₂, c⟩ investor ⟨s₃, tt₃, c'⟩ - hc hstep
    unfold refundStep at hstep
    simp only [bind_eq_ok, pure_eq_ok, Prod.mk.injEq] at hstep
    obtain ⟨⟨s₄, tt₄, refunded⟩, hr, _, -, rfl, rfl, -⟩ := hstep
    exact hc.trans (credits_of_refundCoFundingInvestor hr)

theorem finalizeCoFunding_eq_ok {caller : Address}
    (hf : finalizeCoFunding h signers s caller invoiceId = .ok s') :
    ∃ round, s.rounds.get invoiceId = some round ∧ round.status = .Open ∧
      (fillRound h s invoiceId round = .ok s' ∨ expireRound h signers s invoiceId round = .ok s') := by
  unfold finalizeCoFunding at hf
  simp only [bind_eq_ok, require_eq_ok, exists_unit, okOr_eq_ok] at hf
  obtain ⟨-, -, round, hround, hopen, -, hf⟩ := hf
  refine ⟨round, hround, hopen, ?_⟩
  split_ifs at hf
  · exact .inl hf
  · exact .inr hf

theorem syncParticipants_eq_ok {roundId newFrom oldTo : ℕ} {seller buyer : Address}
    (hs : s.syncParticipants roundId seller buyer newFrom oldTo = .ok s') :
    s' = s ∨ ∃ round participants, s.rounds.get roundId = some round ∧
      s' = { s with rounds := s.rounds.set roundId { round with participants := participants } } := by
  unfold State.syncParticipants at hs
  split at hs
  · exact .inl ((pure_eq_ok _ _).1 hs).symm
  · rename_i round hround
    simp only [bind_eq_ok, require_eq_ok, exists_unit, pure_eq_ok] at hs
    obtain ⟨-, rfl⟩ := hs
    refine .inr ⟨round, ?_⟩
    split_ifs
    · exact ⟨_, hround, rfl⟩
    · exact ⟨_, hround, rfl⟩
    · exact ⟨_, hround, rfl⟩
    · exact ⟨round.participants, hround, rfl⟩

theorem transferCoFundShare_eq_ok {sender : Address} {token receiver : Address} {bps : ℕ}
    (ht : transferCoFundShare signers s sender invoiceId token receiver bps = .ok s') :
    ∃ record coFundShare, s.funded.get invoiceId = some record ∧
      s.requireRoundFilled record.coFundingRoundId = .ok () ∧
      (s' = { s with coFundShare := coFundShare } ∨
        ∃ roundId round participants, record.coFundingRoundId = some roundId ∧
          s.rounds.get roundId = some round ∧
          s' = { s with
            coFundShare := coFundShare
            rounds := s.rounds.set roundId { round with participants := participants } }) := by
  unfold transferCoFundShare at ht
  simp only [bind_eq_ok, require_eq_ok, exists_unit, okOr_eq_ok] at ht
  obtain ⟨-, -, -, -, -, record, hrecord, -, hfilled, -, -, -, ht⟩ := ht
  split at ht
  · exact ⟨record, _, hrecord, hfilled, .inl ((pure_eq_ok _ _).1 ht).symm⟩
  · rename_i roundId hid
    rcases syncParticipants_eq_ok ht with rfl | ⟨round, participants, hround, rfl⟩
    · exact ⟨record, _, hrecord, hfilled, .inl rfl⟩
    · exact ⟨record, _, hrecord, hfilled, .inr ⟨roundId, round, participants, hid, hround, rfl⟩⟩

section Par

variable {h : Host W} {signers : List Address}

theorem creditInvestorValue_rounds
    (hc : creditInvestorValue h signers s token investor amount tt = .ok (s', tt')) :
    s'.coFundCommitted = s.coFundCommitted ∧ s'.coFundShare = s.coFundShare := by
  rcases creditInvestorValue_eq_ok hc with ⟨-, hr⟩ |
    ⟨-, _, _, _, _, _, -, -, -, -, -, -, -, -, -, -, hr⟩ <;>
  · obtain ⟨rfl, rfl⟩ := Prod.mk.inj hr
    exact ⟨rfl, rfl⟩

theorem creditInvestorValue_at_par (hrate : s.params.exchangeRate token = 10000) (hnn : 0 ≤ amount)
    (hc : creditInvestorValue h signers s token investor amount tt = .ok (s', tt')) :
    tt'.poolValue = tt.poolValue + amount := by
  rcases creditInvestorValue_eq_ok hc with ⟨hle, hr⟩ |
    ⟨-, _, usdc, _, _, _, -, husdc, -, -, -, -, -, -, -, -, hr⟩
  · obtain ⟨rfl, rfl⟩ := Prod.mk.inj hr
    omega
  · obtain ⟨rfl, rfl⟩ := Prod.mk.inj hr
    obtain rfl := usdcValue_at_par hrate husdc
    rfl

theorem refundCoFundingInvestor_rounds
    (hr : refundCoFundingInvestor h signers s round investor tt = .ok (s', tt', refunded)) :
    refunded = s.coFundCommitted round.invoiceId investor ∧
      s'.coFundCommitted = set₂ s.coFundCommitted round.invoiceId investor 0 := by
  unfold refundCoFundingInvestor at hr
  dsimp only at hr
  split at hr
  · rename_i hzero
    simp only [pure_eq_ok, Prod.mk.injEq] at hr
    obtain ⟨rfl, -, rfl⟩ := hr
    refine ⟨hzero.symm, ?_⟩
    funext id a
    rw [set₂_apply]
    split_ifs with hkey
    · rw [hkey.1, hkey.2, hzero]
    · rfl
  · simp only [bind_eq_ok, pure_eq_ok, Prod.mk.injEq] at hr
    obtain ⟨⟨s₁, tt₁⟩, hc, rfl, -, rfl⟩ := hr
    exact ⟨rfl, by rw [← (creditInvestorValue_rounds hc).1]⟩

theorem refundCoFundingInvestor_at_par (hrate : s.params.exchangeRate round.token = 10000)
    (hnn : 0 ≤ s.coFundCommitted round.invoiceId investor)
    (hr : refundCoFundingInvestor h signers s round investor tt = .ok (s', tt', refunded)) :
    tt'.poolValue = tt.poolValue + refunded := by
  unfold refundCoFundingInvestor at hr
  dsimp only at hr
  split at hr
  · simp only [pure_eq_ok, Prod.mk.injEq] at hr
    obtain ⟨-, rfl, rfl⟩ := hr
    ring
  · simp only [bind_eq_ok, pure_eq_ok, Prod.mk.injEq] at hr
    obtain ⟨⟨s₁, tt₁⟩, hc, -, rfl, rfl⟩ := hr
    exact creditInvestorValue_at_par hrate hnn hc

theorem refundStep_eq_ok {acc acc' : State W × PoolTokenTotals × ℤ}
    (hr : refundStep h signers round acc investor = .ok acc') :
    ∃ refunded, acc'.2.2 = acc.2.2 + refunded ∧
      refundCoFundingInvestor h signers acc.1 round investor acc.2.1 =
        .ok (acc'.1, acc'.2.1, refunded) := by
  unfold refundStep at hr
  simp only [bind_eq_ok, okOr_eq_ok, checkedAdd_eq_some, pure_eq_ok] at hr
  obtain ⟨⟨s₁, tt₁, refunded⟩, hr, _, ⟨rfl, -⟩, rfl⟩ := hr
  exact ⟨refunded, rfl, hr⟩

theorem refunds_rounds {acc acc' : State W × PoolTokenTotals × ℤ}
    (hf : investors.foldlM (refundStep h signers round) acc = .ok acc') :
    ∀ id, id ≠ round.invoiceId → acc'.1.coFundCommitted id = acc.1.coFundCommitted id := by
  refine foldlM_invariant (P := fun b => ∀ id, id ≠ round.invoiceId →
    b.1.coFundCommitted id = acc.1.coFundCommitted id) ?_ (fun _ _ => rfl) hf
  intro b investor b' _ hb hstep id hid
  obtain ⟨refunded, -, hr⟩ := refundStep_eq_ok hstep
  rw [(refundCoFundingInvestor_rounds hr).2, set₂_row_of_ne _ _ _ hid, hb id hid]

theorem sum_clear {S : Finset Address} {committed : Address → ℤ} (investor : Address)
    (hS : ∀ a, a ∉ S → committed a = 0) :
    ∑ a ∈ S, Function.update committed investor 0 a = ∑ a ∈ S, committed a - committed investor := by
  by_cases hi : investor ∈ S
  · rw [Finset.sum_update_of_mem hi, zero_add,
      ← Finset.sum_sdiff (Finset.singleton_subset_iff.2 hi), Finset.sum_singleton]
    ring
  · rw [Finset.sum_update_of_notMem hi, hS investor hi, sub_zero]

/-- Refunds of some investors at par: what they are credited is what leaves the commitments to the
round, so it is at most the sum of these. -/
theorem refunds_at_par {s s₁ : State W} {tt tt₁ : PoolTokenTotals} {total : ℤ} {S : Finset Address}
    (hrate : s.params.exchangeRate round.token = 10000)
    (hnn : ∀ a, 0 ≤ s.coFundCommitted round.invoiceId a)
    (hS : ∀ a, a ∉ S → s.coFundCommitted round.invoiceId a = 0)
    (hf : investors.foldlM (refundStep h signers round) (s, tt, 0) = .ok (s₁, tt₁, total)) :
    tt₁.poolValue = tt.poolValue + total ∧
      total ≤ ∑ a ∈ S, s.coFundCommitted round.invoiceId a := by
  have hinv := foldlM_invariant (l := investors) (f := refundStep h signers round)
    (P := fun acc => acc.2.1.poolValue = tt.poolValue + acc.2.2 ∧
      acc.1.params.exchangeRate round.token = 10000 ∧
      (∀ a, 0 ≤ acc.1.coFundCommitted round.invoiceId a) ∧
      (∀ a, a ∉ S → acc.1.coFundCommitted round.invoiceId a = 0) ∧
      acc.2.2 + ∑ a ∈ S, acc.1.coFundCommitted round.invoiceId a =
        ∑ a ∈ S, s.coFundCommitted round.invoiceId a)
    ?_ ⟨by ring, hrate, hnn, hS, by ring⟩ hf
  · obtain ⟨hpv, -, hnn₁, -, hsum⟩ := hinv
    have hrest : 0 ≤ ∑ a ∈ S, s₁.coFundCommitted round.invoiceId a :=
      Finset.sum_nonneg fun a _ => hnn₁ a
    refine ⟨hpv, ?_⟩
    dsimp only at hsum
    omega
  · rintro acc investor acc' - ⟨hpv, hrate₂, hnn₂, hS₂, hsum⟩ hstep
    obtain ⟨refunded, htotal, hr⟩ := refundStep_eq_ok hstep
    have hpv' := refundCoFundingInvestor_at_par hrate₂ (hnn₂ investor) hr
    obtain ⟨hrefunded, hcom⟩ := refundCoFundingInvestor_rounds hr
    have hparams : acc'.1.params = acc.1.params := by
      rw [(credits_of_refundCoFundingInvestor hr).rest]
    rw [hparams, hcom, set₂_row, sum_clear investor hS₂]
    refine ⟨by omega, hrate₂, fun a => ?_, fun a ha => ?_, by omega⟩
    · rw [Function.update_apply]
      split_ifs
      · exact le_rfl
      · exact hnn₂ a
    · rw [Function.update_apply]
      split_ifs
      · rfl
      · exact hS₂ a ha

end Par

end Astera.Pool
