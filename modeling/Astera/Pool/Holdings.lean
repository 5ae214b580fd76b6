import Astera.Pool.Writes

/-!
# What investors hold

The holding of an investor is spread over the share contract, the `available` entry and the queued
request.  Most calls touch none of them (`exec_holdingsFrame`).  Under every call an investor has at
most one request in the queue, and a request holds shares (`queued_exec`).
-/

namespace Astera.Pool

open Fallible Machine

variable {W : Type}
variable {h : Host W} {investor share : Address} {p : Plan} {availableAmount : ℤ}

def sharesFor (a : Address) (r : WithdrawalRequest) : ℤ := if r.investor = a then r.shares else 0

def countFor (a : Address) (r : WithdrawalRequest) : ℤ := if r.investor = a then 1 else 0

def State.queued (s : State W) (token a : Address) : ℤ := sumOver (sharesFor a) (s.queue token)

def State.sharesIn (s : State W) (token a : Address) : ℤ :=
  match s.shareToken token with
  | some share => s.shares share a
  | none => 0

theorem sharesIn_of_some {s : State W} {token share a : Address}
    (h : s.shareToken token = some share) : s.sharesIn token a = s.shares share a := by
  simp [State.sharesIn, h]

theorem sumOver_countFor (a : Address) (l : List WithdrawalRequest) :
    sumOver (countFor a) l = (l.filter fun r => r.investor = a).length := by
  induction l with
  | nil => rfl
  | cons r l ih =>
    rw [sumOver_cons, ih]
    by_cases hr : r.investor = a
    · simp [countFor, hr]
      omega
    · simp [countFor, hr]

theorem sumOver_set (μ : WithdrawalRequest → ℤ) {r r' : WithdrawalRequest} :
    ∀ {l : List WithdrawalRequest} {i : ℕ}, l[i]? = some r →
      sumOver μ (l.set i r') = sumOver μ l + (μ r' - μ r) := by
  intro l
  induction l with
  | nil =>
    intro i hi
    cases hi
  | cons q l ih =>
    intro i hi
    cases i with
    | zero =>
      obtain rfl : q = r := by simpa using hi
      rw [List.set_cons_zero, sumOver_cons, sumOver_cons]
      ring
    | succ i =>
      rw [List.set_cons_succ, sumOver_cons, sumOver_cons, ih (by simpa using hi)]
      ring

theorem sumOver_nonneg {μ : WithdrawalRequest → ℤ} {l : List WithdrawalRequest}
    (h : ∀ r ∈ l, 0 ≤ μ r) : 0 ≤ sumOver μ l := by
  apply List.sum_nonneg
  intro x hx
  obtain ⟨r, hr, rfl⟩ := List.mem_map.1 hx
  exact h r hr

theorem sumOver_filter_ne (μ : Address → WithdrawalRequest → ℤ)
    (hμ : ∀ a r, r.investor ≠ a → μ a r = 0) (investor a : Address) (l : List WithdrawalRequest) :
    sumOver (μ a) (l.filter fun r => r.investor ≠ investor) =
      if a = investor then 0 else sumOver (μ a) l := by
  induction l with
  | nil => simp [sumOver]
  | cons r l ih =>
    by_cases hr : r.investor = investor
    · rw [List.filter_cons_of_neg (by simpa using hr), ih, sumOver_cons]
      split_ifs with ha
      · rfl
      · rw [hμ a r (by rw [hr]; exact Ne.symm ha), zero_add]
    · rw [List.filter_cons_of_pos (by simpa using hr), sumOver_cons, sumOver_cons, ih]
      split_ifs with ha
      · rw [hμ a r (by rw [ha]; exact hr), add_zero]
      · rfl

theorem sharesFor_of_ne {a : Address} {r : WithdrawalRequest} (h : r.investor ≠ a) :
    sharesFor a r = 0 := if_neg h

theorem countFor_of_ne {a : Address} {r : WithdrawalRequest} (h : r.investor ≠ a) :
    countFor a r = 0 := if_neg h

/-! ## A queue in order -/

/-- Queued requests hold shares, and an investor has at most one in the queue of a token. -/
structure Queued (s : State W) : Prop where
  positive : ∀ t, ∀ r ∈ s.queue t, 0 < r.shares
  single : ∀ t a, sumOver (countFor a) (s.queue t) ≤ 1

section Queues

variable {h : Host W} {signers : List Address} {s s' : State W} {token : Address}

theorem Queued.of_eq (hq : Queued s) (hqueue : s'.queue = s.queue) : Queued s' :=
  ⟨hqueue ▸ hq.positive, hqueue ▸ hq.single⟩

theorem Queued.queued_nonneg (hq : Queued s) (t a : Address) : 0 ≤ s.queued t a := by
  apply sumOver_nonneg
  intro r hr
  have := hq.positive t r hr
  unfold sharesFor
  split_ifs <;> omega

theorem Queued.of_update {queue : List WithdrawalRequest} (hq : Queued s)
    (hqueue : s'.queue = Function.update s.queue token queue)
    (hpos : ∀ r ∈ queue, 0 < r.shares) (hsingle : ∀ a, sumOver (countFor a) queue ≤ 1) :
    Queued s' := by
  constructor
  · intro t r hr
    rw [hqueue, Function.update_apply] at hr
    split_ifs at hr with ht
    · exact hpos r hr
    · exact hq.positive t r hr
  · intro t a
    rw [hqueue, Function.update_apply]
    split_ifs with ht
    · exact hsingle a
    · exact hq.single t a

/-- The shares of the requests that meet a condition are burned or stay queued, whatever the
condition says about the investor, the id and the time. -/
theorem PassSound.taken_where (hp : PassSound s token share availableAmount p)
    (hpos : ∀ r ∈ s.queue token, 0 < r.shares) (c : WithdrawalRequest → Prop) [DecidablePred c]
    (hc : ∀ r x, c { r with shares := x } ↔ c r) :
    sumOver (fun q => if c q then q.shares else 0) p.remainingQueue +
        (p.payments.map fun m => if c m.request then m.burned else 0).sum =
      sumOver (fun q => if c q then q.shares else 0) (s.queue token) := by
  rw [← hp.measure hpos fun q => if c q then q.shares else 0]
  unfold Plan.measure
  congr 2
  apply List.map_congr_left
  intro m _
  unfold leftover sumOver
  by_cases hm : c m.request
  · by_cases hall : m.burned = m.request.shares <;> simp [hm, hc, hall]
  · by_cases hall : m.burned = m.request.shares <;> simp [hm, hc, hall]

theorem PassSound.count_le (hp : PassSound s token share availableAmount p)
    (hpos : ∀ r ∈ s.queue token, 0 < r.shares) (c : WithdrawalRequest → Prop) [DecidablePred c]
    (hc : ∀ r x, c { r with shares := x } ↔ c r) :
    sumOver (fun q => if c q then 1 else 0) p.remainingQueue ≤
      sumOver (fun q => if c q then 1 else 0) (s.queue token) := by
  have hcount := hp.measure hpos fun q => if c q then 1 else 0
  have htaken : 0 ≤ (p.payments.map fun m => (if c m.request then 1 else 0) -
      sumOver (fun q => if c q then 1 else 0) (leftover m.request m.burned)).sum := by
    apply List.sum_nonneg
    intro x hx
    obtain ⟨m, -, rfl⟩ := List.mem_map.1 hx
    unfold leftover sumOver
    by_cases hm : c m.request
    · by_cases hall : m.burned = m.request.shares <;> simp [hm, hc, hall]
    · by_cases hall : m.burned = m.request.shares <;> simp [hm, hc, hall]
  unfold Plan.measure at hcount
  dsimp only at hcount
  omega

theorem PassSound.taken (hp : PassSound s token share availableAmount p)
    (hpos : ∀ r ∈ s.queue token, 0 < r.shares) (a : Address) :
    sumOver (sharesFor a) p.remainingQueue + burnedFor a p.payments =
      sumOver (sharesFor a) (s.queue token) :=
  hp.taken_where hpos (fun q => q.investor = a) fun _ _ => Iff.rfl

theorem queued_pass {o : Option PoolError} (hq : Queued s)
    (hpass : processWithdrawalQueue h signers s token availableAmount = .ok (s', o)) :
    Queued s' := by
  cases o with
  | none =>
    rcases processWithdrawalQueue_eq_none hpass with rfl |
      ⟨share, p, st, cash, requests, -, hsound, -, rfl⟩
    · exact hq
    · have hpos := hq.positive token
      exact hq.of_update rfl (hsound.positive hpos) fun a =>
        (hsound.count_le hpos (fun q => q.investor = a) fun _ _ => Iff.rfl).trans
          (hq.single token a)
  | some e =>
    rcases processWithdrawalQueue_eq_some hpass with ⟨-, rfl⟩ | ⟨_, _, _, _, _, -, -, -, rfl⟩
    · exact hq
    · exact hq.of_eq rfl

theorem queued_request {shares : ℤ} {r : State W × ℕ} (hq : Queued s)
    (hr : requestWithdrawal h signers s investor token shares = .ok r) : Queued r.1 := by
  obtain ⟨share, amount, -, hpos, -, -, hnew, -, ⟨-, hnow⟩ | hqueue⟩ := requestWithdrawal_eq_ok hr
  · obtain ⟨_, _, -, -, -, -, hr⟩ := processImmediateWithdrawal_eq_ok hnow
    rw [hr]
    exact hq.of_eq rfl
  · obtain ⟨_, requestId, -, -, hr⟩ := enqueueWithdrawal_eq_ok hpos hqueue
    rw [hr]
    refine hq.of_update rfl (fun q hmem => ?_) fun a => ?_
    · rcases List.mem_append.1 hmem with hmem | hmem
      · exact hq.positive token q hmem
      · rw [List.mem_singleton.1 hmem]
        exact hpos
    · rw [sumOver_append, sumOver_cons]
      by_cases ha : a = investor
      · have hnone : sumOver (countFor a) (s.queue token) = 0 := by
          rw [sumOver_countFor]
          have hempty : (s.queue token).filter (fun r => r.investor = a) = [] := by
            apply List.filter_eq_nil_iff.2
            intro q hmem
            simpa [ha] using hnew q hmem
          rw [hempty]
          rfl
        rw [hnone]
        simp [countFor, ha, sumOver]
      · have := hq.single token a
        rw [countFor_of_ne (Ne.symm ha)]
        simpa [sumOver] using this

theorem queued_cancel (hq : Queued s)
    (hc : cancelWithdrawalRequest signers s investor token = .ok s') : Queued s' := by
  obtain ⟨_, _, _, -, -, rfl⟩ := cancelWithdrawalRequest_eq_ok hc
  refine hq.of_update rfl (fun q hmem => hq.positive token q (List.mem_filter.1 hmem).1) fun a => ?_
  rw [sumOver_filter_ne countFor (fun a r => countFor_of_ne)]
  split_ifs
  · decide
  · exact hq.single token a

theorem queued_adjust {newShares : ℤ} (hq : Queued s)
    (ha : adjustWithdrawalRequest signers s investor token newShares = .ok s') : Queued s' := by
  obtain ⟨idx, request, _, _, -, hget, hpos, -, -, -, rfl⟩ := adjustWithdrawalRequest_eq_ok ha
  refine hq.of_update rfl (fun q hmem => ?_) fun a => ?_
  · rcases List.mem_or_eq_of_mem_set hmem with hmem | rfl
    · exact hq.positive token q hmem
    · exact hpos
  · have hsingle := hq.single token a
    rw [sumOver_set (countFor a) hget]
    have hsame : countFor a { request with shares := newShares } = countFor a request := rfl
    omega

theorem queued_repay {payer : Address} {request : RepaymentRequest} (hq : Queued s)
    (hr : repayInvoiceRequest h signers payer s request = .ok s') : Queued s' := by
  obtain ⟨q, s₁, history, -, hb, hr⟩ := repayInvoiceRequest_eq_ok hr
  have hqueue := bookRepayment_queue hb
  have hhistory : Queued { s₁ with rateHistory := history } := hq.of_eq hqueue
  rcases hr with ⟨-, s₂, o, hpass, href⟩ | ⟨-, rfl⟩
  · have hpaid := queued_pass hhistory hpass
    rcases State.recordReferralActivity_eq_ok href with ⟨_, rfl⟩ | ⟨_, _, _, -, -, -, rfl⟩ <;>
      exact hpaid.of_eq rfl
  · exact hhistory

end Queues

/-! ## Calls that leave holdings alone -/

/-- Share contracts, positions and queues are the same in both states, and no token loses its
registration. -/
structure HoldingsFrame (s s' : State W) : Prop where
  shareToken : s'.shareToken = s.shareToken
  shareTokens : s'.shareTokens = s.shareTokens
  position : s'.position = s.position
  queue : s'.queue = s.queue
  registered : ∀ t, s'.totals t = none → s.totals t = none

section Frames

variable {s s₁ s' : State W} {token : Address}

theorem HoldingsFrame.trans (h₁ : HoldingsFrame s s₁) (h₂ : HoldingsFrame s₁ s') :
    HoldingsFrame s s' :=
  ⟨h₂.shareToken.trans h₁.shareToken, h₂.shareTokens.trans h₁.shareTokens,
    h₂.position.trans h₁.position, h₂.queue.trans h₁.queue,
    fun t ht => h₁.registered t (h₂.registered t ht)⟩

theorem registered_of_update {tt : PoolTokenTotals}
    (htotals : s'.totals = Function.update s.totals token (some tt)) (t : Address)
    (ht : s'.totals t = none) : s.totals t = none := by
  rw [htotals, Function.update_apply] at ht
  split_ifs at ht
  exact ht

theorem holdingsFrame_of_update {tt : PoolTokenTotals} (hshare : s'.shareToken = s.shareToken)
    (htokens : s'.shareTokens = s.shareTokens) (hposition : s'.position = s.position)
    (hqueue : s'.queue = s.queue)
    (htotals : s'.totals = Function.update s.totals token (some tt)) : HoldingsFrame s s' :=
  ⟨hshare, htokens, hposition, hqueue, registered_of_update htotals⟩

theorem holdingsFrame_of_totals (hshare : s'.shareToken = s.shareToken)
    (htokens : s'.shareTokens = s.shareTokens) (hposition : s'.position = s.position)
    (hqueue : s'.queue = s.queue) (htotals : s'.totals = s.totals) : HoldingsFrame s s' :=
  ⟨hshare, htokens, hposition, hqueue, fun _ ht => htotals ▸ ht⟩

theorem holdingsFrame_referral {referee : Address} {kind : ActivityKind} {fee : ℤ}
    (hr : s.recordReferralActivity h referee kind fee token = .ok s') : HoldingsFrame s s' := by
  rcases State.recordReferralActivity_eq_ok hr with ⟨w, rfl⟩ | ⟨_, _, w, -, -, -, rfl⟩
  · exact holdingsFrame_of_totals rfl rfl rfl rfl rfl
  · exact holdingsFrame_of_update rfl rfl rfl rfl rfl

theorem holdingsFrame_fund {request : FundingRequest} (hf : fundInvoiceRequest h s request = .ok s') :
    HoldingsFrame s s' := by
  obtain ⟨s₁, hloan, rfl⟩ := fundInvoiceRequest_eq_ok hf
  have hf₁ : HoldingsFrame s s₁ := by
    obtain ⟨_, _, _, _, _, _, _, -, -, -, -, -, -, rfl⟩ := fundLoan_eq_ok hloan
    exact holdingsFrame_of_update rfl rfl rfl rfl rfl
  refine hf₁.trans ?_
  rcases purchaseInsurance_eq h s₁ request with heq | ⟨_, _, _, -, -, -, -, heq⟩
  · rw [heq]
    exact holdingsFrame_of_totals rfl rfl rfl rfl rfl
  · rw [heq]
    exact holdingsFrame_of_update rfl rfl rfl rfl rfl

theorem holdingsFrame_seize {invoiceId : ℕ} (hz : seizeCollateralCore h s invoiceId = .ok s') :
    HoldingsFrame s s' := by
  obtain ⟨record, col, loan, -, -, -, -, -, -, rfl⟩ := seizeCollateralCore_eq_ok hz
  have hwritten : HoldingsFrame s (s.setTotals record.token loan) :=
    holdingsFrame_of_update rfl rfl rfl rfl rfl
  exact hwritten.trans (holdingsFrame_of_update rfl rfl rfl rfl rfl)

end Frames

def Call.isHolding : Call W → Bool
  | .deposit .. | .withdraw .. | .requestWithdrawal .. | .cancelWithdrawalRequest ..
  | .adjustWithdrawalRequest .. | .drainWithdrawalQueue .. | .repayInvoice ..
  | .repayInvoicesBatch .. | .commitToInvoice .. | .withdrawCoFundingCommitment ..
  | .finalizeCoFunding .. | .addToken .. | .marketSettleListing .. | .shareTransfer .. => true
  | _ => false

theorem exec_holdingsFrame {s s' : State W} {tx : Tx h} (hcall : tx.call.isHolding = false)
    (hstep : exec h s tx = .ok s') : HoldingsFrame s s' := by
  obtain ⟨signers, hself, call⟩ := tx
  cases call with
  | claimYield investor token =>
    obtain ⟨_, _, -, -, -, ⟨-, rfl⟩ | ⟨-, -, rfl⟩ | ⟨-, -, rfl⟩⟩ := claimYield_eq_ok hstep
    · exact holdingsFrame_of_totals rfl rfl rfl rfl rfl
    · exact holdingsFrame_of_totals rfl rfl rfl rfl rfl
    · exact holdingsFrame_of_update rfl rfl rfl rfl rfl
  | fundInvoice admin request => exact holdingsFrame_fund (fundInvoice_eq_ok.1 hstep).2.2
  | fundMultipleInvoices admin requests =>
    obtain ⟨-, -, -, hfold⟩ := fundMultipleInvoices_eq_ok.1 hstep
    exact foldlM_invariant (P := HoldingsFrame s)
      (fun _ _ _ _ hs hf => hs.trans (holdingsFrame_fund hf))
      (holdingsFrame_of_totals rfl rfl rfl rfl rfl) hfold
  | cancelFundedInvoice admin invoiceId =>
    obtain ⟨_, _, _, -, ⟨-, rfl⟩ | ⟨-, _, rfl⟩⟩ := cancelFundedInvoice_eq_ok hstep
    · exact holdingsFrame_of_totals rfl rfl rfl rfl rfl
    · exact holdingsFrame_of_update rfl rfl rfl rfl rfl
  | riskLiquidateCollateral caller invoiceId =>
    obtain ⟨_, -, -, -, -, rfl⟩ := riskLiquidateCollateral_eq_ok hstep
    exact holdingsFrame_of_update rfl rfl rfl rfl rfl
  | liquidateInvoice caller invoiceId => exact holdingsFrame_seize (liquidateInvoice_eq_ok hstep)
  | executeOperation admin proposalId =>
    obtain ⟨proposals, ⟨-, _, _, rfl⟩ | ⟨invoiceId, -, hseize⟩⟩ := executeOperation_eq_ok hstep
    · exact holdingsFrame_of_totals rfl rfl rfl rfl rfl
    · have hproposed : HoldingsFrame s { s with proposals := proposals } :=
        holdingsFrame_of_totals rfl rfl rfl rfl rfl
      exact hproposed.trans (holdingsFrame_seize hseize)
  | withdrawRevenue admin token amount =>
    obtain ⟨_, -, -, rfl⟩ := payRevenue_eq_ok (withdrawRevenue_eq_ok hstep)
    exact holdingsFrame_of_update rfl rfl rfl rfl rfl
  | withdrawRevenueViaAc accessControl token amount =>
    obtain ⟨_, -, -, rfl⟩ := payRevenue_eq_ok (withdrawRevenueViaAc_eq_ok hstep)
    exact holdingsFrame_of_update rfl rfl rfl rfl rfl
  | receiveInsurancePayout insurance token amount =>
    obtain ⟨-, -, rfl⟩ := receiveInsurancePayout_eq_ok hstep
    exact holdingsFrame_of_update rfl rfl rfl rfl rfl
  | cleanupFundedInvoice | updateInvoiceDueDate | setCompoundInterest | openCoFunding |
  cancelCoFundingRound | transferCoFundShare | depositCollateral | topUpCollateral |
  proposeOperation | cancelOperation | setMaxInvestorConcentration | setParams | neighbours |
  advance | assetTransfer =>
      exact holdingsFrame_of_totals (exec_kept .shareToken rfl hstep)
        (exec_kept .shareTokens rfl hstep) (exec_kept .position rfl hstep)
        (exec_kept .queue rfl hstep) (exec_kept .totals rfl hstep)
  | _ => cases hcall

theorem queued_exec {s s' : State W} {tx : Tx h} (hq : Queued s) (hstep : exec h s tx = .ok s') :
    Queued s' := by
  by_cases hcall : tx.call.isHolding = false
  · exact hq.of_eq (exec_holdingsFrame hcall hstep).queue
  obtain ⟨signers, hself, call⟩ := tx
  cases call with
  | deposit investor token amount minRate =>
    obtain ⟨usdc, s₁, s₂, o, -, -, husdc, heff, href, hpass⟩ := deposit_eq_ok hstep
    have hqueue := DepositReaches.queue ⟨usdc, husdc, heff, href⟩
    exact queued_pass (hq.of_eq hqueue) hpass
  | requestWithdrawal investor token shares =>
    obtain ⟨r, hr, rfl⟩ := (map_eq_ok _ _ _).1 hstep
    exact queued_request hq hr
  | cancelWithdrawalRequest investor token => exact queued_cancel hq hstep
  | adjustWithdrawalRequest investor token newShares => exact queued_adjust hq hstep
  | drainWithdrawalQueue caller token =>
    obtain ⟨_, -, hpass⟩ := drainWithdrawalQueue_eq_ok hstep
    exact queued_pass hq hpass
  | repayInvoice payer request => exact queued_repay hq (repayInvoice_eq_ok.1 hstep).2
  | repayInvoicesBatch payer requests =>
    exact foldlM_invariant (fun _ _ _ _ hq hr => queued_repay hq hr) hq
      (repayInvoicesBatch_eq_ok hstep).2
  | withdrawCoFundingCommitment investor invoiceId =>
    obtain ⟨round, s₁, tt, _, -, -, hrefund, -, rfl⟩ := withdrawCoFundingCommitment_eq_ok hstep
    refine hq.of_eq ?_
    rw [(credits_of_refundCoFundingInvestor hrefund).rest]
  | withdraw | commitToInvoice | finalizeCoFunding | addToken | marketSettleListing |
  shareTransfer =>
      exact hq.of_eq (exec_kept .queue rfl hstep)
  | _ => exact absurd rfl hcall

theorem queued_initial (now : ℕ) (world : W) (cash : Address → Address → ℤ)
    (shareTokens : Address → Share.ShareToken) (admin token share invoiceContract : Address) :
    Queued (initialState now world cash shareTokens admin token share invoiceContract) := by
  constructor
  · intro t r hr
    cases hr
  · intro t a
    exact zero_le_one

end Astera.Pool
