import Astera.Pool.Holdings

/-!
# Positions and shares agree

What an investor has available and queued adds up to its share balance, in every run without a
withdrawal that dips into queued shares, the price of a settled listing and a pass that stops after
a payment.
-/

namespace Astera.Pool

open Fallible Machine Transition

variable {W : Type}
variable {investor share : Address} {shares : ℤ}

/-! ## The invariant -/

/-- Share contracts serve one token each, and in every token the available and the queued shares of
an investor add up to its balance. -/
structure Held (s : State W) : Prop where
  alone : ∀ t t' sh, s.shareToken t = some sh → s.shareToken t' = some sh → t = t'
  registered : ∀ t, s.totals t = none → s.shareToken t = none
  agree : ∀ t a, (s.position a t).available + s.queued t a = s.sharesIn t a
  nonneg : ∀ t a, 0 ≤ (s.position a t).available ∧ (s.position a t).available < 2 ^ 127

section Steps

variable {h : Host W} {signers : List Address} {s s₁ s' : State W} {token : Address}

theorem queued_of_eq (hqueue : s'.queue = s.queue) (t a : Address) :
    s'.queued t a = s.queued t a := by
  unfold State.queued
  rw [hqueue]

theorem sharesIn_of_eq (hshare : s'.shareToken = s.shareToken)
    (htokens : s'.shareTokens = s.shareTokens) (t a : Address) :
    s'.sharesIn t a = s.sharesIn t a := by
  unfold State.sharesIn State.shares
  rw [hshare, htokens]

theorem Held.frame (hh : Held s) (hf : HoldingsFrame s s') : Held s' := by
  refine ⟨?_, fun t ht => ?_, fun t a => ?_, fun t a => ?_⟩
  · simpa only [hf.shareToken] using hh.alone
  · rw [hf.shareToken]
    exact hh.registered t (hf.registered t ht)
  · rw [hf.position, queued_of_eq hf.queue, sharesIn_of_eq hf.shareToken hf.shareTokens]
    exact hh.agree t a
  · rw [hf.position]
    exact hh.nonneg t a

theorem Held.of_change (hh : Held s) (token investor : Address) (available queued : ℤ)
    (hshare : s'.shareToken = s.shareToken)
    (hregistered : ∀ t, s'.totals t = none → s.totals t = none)
    (havailable : ∀ t a, (s'.position a t).available = (s.position a t).available +
      if t = token ∧ a = investor then available else 0)
    (hqueued : ∀ t a, s'.queued t a = s.queued t a +
      if t = token ∧ a = investor then queued else 0)
    (hshares : ∀ t a, s'.sharesIn t a = s.sharesIn t a +
      if t = token ∧ a = investor then available + queued else 0)
    (hrange : 0 ≤ (s.position investor token).available + available ∧
      (s.position investor token).available + available < 2 ^ 127) : Held s' := by
  refine ⟨?_, fun t ht => ?_, fun t a => ?_, fun t a => ?_⟩
  · simpa only [hshare] using hh.alone
  · rw [hshare]
    exact hh.registered t (hregistered t ht)
  · have := hh.agree t a
    rw [havailable, hqueued, hshares]
    split_ifs <;> omega
  · rw [havailable]
    split_ifs with hkey
    · obtain ⟨rfl, rfl⟩ := hkey
      exact hrange
    · rw [add_zero]
      exact hh.nonneg t a

theorem available_set₂ {position : Address → Address → InvestorPosition} {p : InvestorPosition}
    {available : ℤ} (hp : p.available = (position investor token).available + available)
    (t a : Address) :
    (set₂ position investor token p a t).available = (position a t).available +
      if t = token ∧ a = investor then available else 0 := by
  rw [set₂_apply]
  by_cases hkey : a = investor ∧ t = token
  · obtain ⟨rfl, rfl⟩ := hkey
    simp [hp]
  · have hkey' : ¬ (t = token ∧ a = investor) := fun hk => hkey ⟨hk.2, hk.1⟩
    rw [if_neg hkey, if_neg hkey', add_zero]

theorem sharesIn_moved {st : Address → Share.ShareToken} {share holder : Address} {delta : ℤ}
    (hh : Held s) (hget : s.shareToken token = some share)
    (hm : State.Moved s.shareTokens st share holder delta) (hshare : s'.shareToken = s.shareToken)
    (htokens : s'.shareTokens = st) (t a : Address) :
    s'.sharesIn t a = s.sharesIn t a + if t = token ∧ a = holder then delta else 0 := by
  unfold State.sharesIn State.shares
  rw [hshare, htokens]
  cases hsh : s.shareToken t with
  | none =>
    have ht : t ≠ token := by
      rintro rfl
      rw [hget] at hsh
      cases hsh
    simp [ht]
  | some sh =>
    dsimp only
    rw [hm.balance sh a]
    by_cases ht : t = token
    · subst ht
      obtain rfl : share = sh := Option.some.inj (hget.symm.trans hsh)
      simp
    · have hne : sh ≠ share := by
        rintro rfl
        exact ht (hh.alone t token sh hsh hget)
      simp [ht, hne]

theorem queued_update {queue : List WithdrawalRequest} {queued : ℤ}
    (hqueue : s'.queue = Function.update s.queue token queue)
    (hsum : ∀ a, sumOver (sharesFor a) queue = s.queued token a + if a = investor then queued else 0)
    (t a : Address) :
    s'.queued t a = s.queued t a + if t = token ∧ a = investor then queued else 0 := by
  unfold State.queued
  rw [hqueue, Function.update_apply]
  by_cases ht : t = token
  · subst ht
    rw [if_pos rfl, hsum a]
    simp [State.queued]
  · simp [ht]

theorem Held.deduct (hh : Held s) (hnn : 0 ≤ shares)
    (hle : shares ≤ (s.position investor token).available) :
    saturatingSub (s.position investor token).available shares =
      (s.position investor token).available + -shares := by
  obtain ⟨h₀, h₁⟩ := hh.nonneg token investor
  rw [saturatingSub_eq _ _ (by unfold InI128; omega)]
  ring

theorem Held.of_moved {st : Address → Share.ShareToken} {delta : ℤ} {p : InvestorPosition}
    {tt : PoolTokenTotals} (hh : Held s) (hget : s.shareToken token = some share)
    (hm : State.Moved s.shareTokens st share investor delta)
    (hp : p.available = (s.position investor token).available + delta)
    (hrange : 0 ≤ p.available ∧ p.available < 2 ^ 127) (hshare : s'.shareToken = s.shareToken)
    (htokens : s'.shareTokens = st) (hposition : s'.position = set₂ s.position investor token p)
    (hqueue : s'.queue = s.queue) (htotals : s'.totals = Function.update s.totals token (some tt)) :
    Held s' := by
  refine hh.of_change token investor delta 0 hshare (registered_of_update htotals) ?_ ?_ ?_ ?_
  · rw [hposition]
    exact available_set₂ hp
  · intro t a
    rw [queued_of_eq hqueue, ite_self, add_zero]
  · rw [add_zero]
    exact sharesIn_moved hh hget hm hshare htokens
  · rw [← hp]
    exact hrange

theorem held_depositEffects {amount usdc : ℤ} (hh : Held s)
    (hd : depositEffects h signers s investor token amount usdc = .ok s') : Held s' := by
  obtain ⟨share, minted, st, p, _, hget, -, hpos, -, hm, hp, hrange, -, rfl⟩ :=
    depositEffects_eq_ok hd
  have hnn := (hh.nonneg token investor).1
  exact hh.of_moved hget hm hp ⟨by omega, hrange.2⟩ rfl rfl rfl rfl rfl

theorem held_withdraw (hh : Held s) (hle : shares ≤ (s.position investor token).available)
    (hw : withdraw h signers s investor token shares = .ok s') : Held s' := by
  obtain ⟨share, _, _, st, p, _, hget, hpos, -, -, -, -, -, -, hm, hp, rfl⟩ := withdraw_eq_ok hw
  have hrange := hh.nonneg token investor
  rw [hh.deduct hpos.le hle] at hp
  exact hh.of_moved hget hm hp (by omega) rfl rfl rfl rfl rfl

theorem held_commit {invoiceId : ℕ} {amount : ℤ} (hh : Held s)
    (hc : commitToInvoice h signers s investor invoiceId amount = .ok s') : Held s' := by
  obtain ⟨round, c, st, p, _, _, -, hguards, hm, hp, -, -, -, -, rfl⟩ := commitToInvoice_eq_ok hc
  obtain ⟨-, -, -, hget, -, -, -, -, hpos, hle⟩ := commitGuards_eq_ok hguards
  have hrange := hh.nonneg round.token investor
  rw [sub_eq_add_neg] at hp
  exact hh.of_moved hget hm hp (by omega) rfl rfl rfl rfl rfl

theorem Held.credit {tt tt' : PoolTokenTotals} (hh : Held s) (hc : Credits token s s' tt tt') :
    Held s' := by
  have hqueue : s'.queue = s.queue := by
    rw [hc.rest]
  have htotals : s'.totals = s.totals := by
    rw [hc.rest]
  refine ⟨?_, fun t ht => ?_, fun t a => ?_, fun t a => ?_⟩
  · simpa only [hc.shareToken_eq] using hh.alone
  · rw [hc.shareToken_eq]
    exact hh.registered t (htotals ▸ ht)
  · have hagree := hh.agree t a
    rw [queued_of_eq hqueue]
    unfold State.sharesIn State.shares at hagree ⊢
    rw [hc.shareToken_eq]
    cases hsh : s.shareToken t with
    | none =>
      rw [hsh] at hagree
      have hsame : (s'.position a t).available = (s.position a t).available := by
        by_cases ht : t = token
        · subst ht
          exact hc.registered hsh a
        · rw [hc.position_ne t a ht]
      rw [hsame]
      exact hagree
    | some sh =>
      rw [hsh] at hagree
      dsimp only at hagree ⊢
      rw [hc.shares sh a]
      by_cases ht : t = token
      · subst ht
        rw [if_pos hsh]
        omega
      · have hne : s.shareToken token ≠ some sh := fun heq => ht (hh.alone t token sh hsh heq)
        rw [hc.position_ne t a ht, if_neg hne, add_zero]
        exact hagree
  · by_cases ht : t = token
    · subst ht
      obtain ⟨h₀, h₁⟩ := hh.nonneg t a
      have hle := hc.available_le a
      have hrange := hc.available_range a ⟨by omega, h₁⟩
      exact ⟨by omega, hrange.2⟩
    · rw [hc.position_ne t a ht]
      exact hh.nonneg t a

/-! ## The queue -/

theorem Held.of_pass {burned : Address → ℤ} (hh : Held s) (hget : s.shareToken token = some share)
    (hshare : s'.shareToken = s.shareToken)
    (hregistered : ∀ t, s'.totals t = none → s.totals t = none)
    (hposition : s'.position = s.position)
    (hqueued : ∀ t a, s'.queued t a = s.queued t a - if t = token then burned a else 0)
    (hbalance : ∀ sh a, (s'.shareTokens sh).balance a = (s.shareTokens sh).balance a - if sh =
      share then burned a else 0) :
    Held s' := by
  refine ⟨?_, fun t ht => ?_, fun t a => ?_, fun t a => ?_⟩
  · simpa only [hshare] using hh.alone
  · rw [hshare]
    exact hh.registered t (hregistered t ht)
  · have hagree := hh.agree t a
    rw [hposition, hqueued]
    unfold State.sharesIn State.shares at hagree ⊢
    rw [hshare]
    cases hsh : s.shareToken t with
    | none =>
      have ht : t ≠ token := by
        rintro rfl
        rw [hget] at hsh
        cases hsh
      rw [hsh] at hagree
      rw [if_neg ht, sub_zero]
      exact hagree
    | some sh =>
      rw [hsh] at hagree
      dsimp only at hagree ⊢
      rw [hbalance sh a]
      by_cases ht : t = token
      · subst ht
        obtain rfl : share = sh := Option.some.inj (hget.symm.trans hsh)
        simp only [if_true]
        omega
      · have hne : sh ≠ share := by
          rintro rfl
          exact ht (hh.alone t token sh hsh hget)
        rw [if_neg ht, if_neg hne]
        omega
  · rw [hposition]
    exact hh.nonneg t a

theorem held_drain {availableAmount : ℤ} (hh : Held s) (hq : Queued s)
    (hpass : processWithdrawalQueue h signers s token availableAmount = .ok (s', none)) :
    Held s' := by
  rcases processWithdrawalQueue_eq_none hpass with rfl |
    ⟨share, p, st, cash, requests, -, hsound, hset, rfl⟩
  · exact hh
  · refine hh.of_pass hsound.registered rfl (registered_of_update rfl) rfl (fun t a => ?_)
      hset.balance
    have htaken := hsound.taken (hq.positive token) a
    unfold State.queued
    dsimp only
    rw [Function.update_apply]
    by_cases ht : t = token
    · subst ht
      rw [if_pos rfl, if_pos rfl]
      omega
    · rw [if_neg ht, if_neg ht, sub_zero]

theorem held_pass {availableAmount : ℤ} {o : Option PoolError} (hh : Held s) (hq : Queued s)
    (hclean : CleanPass s token availableAmount)
    (hpass : processWithdrawalQueue h signers s token availableAmount = .ok (s', o)) :
    Held s' := by
  cases o with
  | none => exact held_drain hh hq hpass
  | some e =>
    rcases processWithdrawalQueue_eq_some hpass with ⟨-, rfl⟩ |
      ⟨share, made, st, cash, requests, hplan, hget, hset, rfl⟩
    · exact hh
    · obtain rfl := hclean e made hplan
      refine hh.of_pass hget rfl (fun _ ht => ht) rfl (fun t a => ?_) hset.balance
      simp [State.queued, burnedFor]

theorem held_request {r : State W × ℕ} (hh : Held s)
    (hr : requestWithdrawal h signers s investor token shares = .ok r) : Held r.1 := by
  obtain ⟨share, amount, hget, hpos, -, hle, -, -, ⟨-, hnow⟩ | hqueue⟩ := requestWithdrawal_eq_ok hr
  · obtain ⟨st, p, hm, hp, -, -, hr⟩ := processImmediateWithdrawal_eq_ok hnow
    have hrange := hh.nonneg token investor
    rw [hh.deduct hpos.le hle] at hp
    rw [hr]
    exact hh.of_moved hget hm hp (by omega) rfl rfl rfl rfl rfl
  · obtain ⟨p, requestId, hp, -, hr⟩ := enqueueWithdrawal_eq_ok hpos hqueue
    have hrange := hh.nonneg token investor
    rw [hh.deduct hpos.le hle] at hp
    rw [hr]
    refine hh.of_change token investor (-shares) shares rfl (fun _ ht => ht) (available_set₂ hp)
      (queued_update rfl fun a => ?_) (fun t a => ?_) (by omega)
    · rw [sumOver_append, sumOver_cons]
      by_cases ha : a = investor
      · simp [State.queued, sumOver, sharesFor, ha]
      · simp [State.queued, sumOver, sharesFor, ha, Ne.symm ha]
    · rw [neg_add_cancel, ite_self, add_zero]
      rfl

theorem queued_eq_last {request : WithdrawalRequest} (hq : Queued s)
    (hlast : ((s.queue token).filter fun r => r.investor = investor).getLast? = some request) :
    s.queued token investor = request.shares := by
  have hcount := hq.single token investor
  rw [sumOver_countFor] at hcount
  have hsplit := sumOver_filter (sharesFor investor) (fun r => r.investor = investor)
    (s.queue token)
  have hothers : sumOver (sharesFor investor)
      ((s.queue token).filter fun r => !decide (r.investor = investor)) = 0 := by
    have := sumOver_filter_ne sharesFor (fun a r => sharesFor_of_ne) investor investor
      (s.queue token)
    simpa using this
  have hmine : (s.queue token).filter (fun r => r.investor = investor) = [request] := by
    revert hcount hlast
    cases hl : (s.queue token).filter (fun r => r.investor = investor) with
    | nil =>
      intro hlast
      cases hlast
    | cons r l =>
      cases l with
      | nil =>
        intro hlast _
        rw [List.getLast?_singleton] at hlast
        rw [Option.some.inj hlast]
      | cons r' l =>
        intro _ hcount
        simp only [List.length_cons] at hcount
        omega
  have hinvestor : request.investor = investor := by
    have hmem : request ∈ (s.queue token).filter (fun r => r.investor = investor) := by
      rw [hmine]
      exact List.mem_singleton_self request
    simpa using (List.mem_filter.1 hmem).2
  unfold State.queued
  rw [← hsplit, hothers, hmine]
  simp [sumOver, sharesFor, hinvestor]

theorem held_cancel (hh : Held s) (hq : Queued s)
    (hc : cancelWithdrawalRequest signers s investor token = .ok s') : Held s' := by
  obtain ⟨request, p, _, hlast, hp, rfl⟩ := cancelWithdrawalRequest_eq_ok hc
  have hqueued := queued_eq_last hq hlast
  have hnn := hq.queued_nonneg token investor
  obtain ⟨hp, hrange⟩ := hp (by omega)
  have havailable := hh.nonneg token investor
  refine hh.of_change token investor request.shares (-request.shares) rfl (fun _ ht => ht)
    (available_set₂ hp) (queued_update rfl fun a => ?_) (fun t a => ?_) ?_
  · rw [sumOver_filter_ne sharesFor (fun a r => sharesFor_of_ne)]
    by_cases ha : a = investor
    · rw [if_pos ha, if_pos ha, ha, hqueued]
      omega
    · rw [if_neg ha, if_neg ha, add_zero]
      rfl
  · rw [add_neg_cancel, ite_self, add_zero]
    rfl
  · rw [← hp]
    exact ⟨by omega, hrange.2⟩

theorem held_adjust {newShares : ℤ} (hh : Held s)
    (ha : adjustWithdrawalRequest signers s investor token newShares = .ok s') : Held s' := by
  obtain ⟨idx, request, p, _, hidx, hget, -, hle, hdown, hup, rfl⟩ :=
    adjustWithdrawalRequest_eq_ok ha
  have havailable := hh.nonneg token investor
  have hinvestor : request.investor = investor := by
    have := List.of_findIdx?_eq_some hidx
    rw [hget] at this
    simpa using this
  -- the available amount takes up the change of the request
  have hp : p.available = (s.position investor token).available +
      -(newShares - request.shares) ∧ 0 ≤ p.available ∧ p.available < 2 ^ 127 := by
    by_cases hgrow : 0 < newShares - request.shares
    · have hp := hup hgrow
      have hfits := hle hgrow
      rw [hh.deduct hgrow.le hfits] at hp
      omega
    · obtain ⟨hp, hrange⟩ := hdown (by omega)
      exact ⟨by omega, by omega, hrange.2⟩
  refine hh.of_change token investor (-(newShares - request.shares)) (newShares - request.shares)
    rfl (fun _ ht => ht) (available_set₂ hp.1) (queued_update rfl fun a => ?_) (fun t a => ?_) ?_
  · rw [sumOver_set (sharesFor a) hget]
    by_cases ha : a = investor
    · simp [State.queued, sharesFor, hinvestor, ha]
    · simp [State.queued, sharesFor, hinvestor, ha, Ne.symm ha]
  · rw [neg_add_cancel, ite_self, add_zero]
    rfl
  · rw [← hp.1]
    exact hp.2

/-- The pass that a settlement runs does not stop after a payment. -/
def SettlesCleanly (h : Host W) (signers : List Address) (payer : Address) (s : State W)
    (request : RepaymentRequest) : Prop :=
  ∀ q s₁ history, quoteRepayment s request.invoiceId payer request.amount = .ok q →
    bookRepayment h signers s request.invoiceId payer q = .ok s₁ →
    CleanPass { s₁ with rateHistory := history } q.record.token
      ((s₁.tt q.record.token).poolValue - (s₁.tt q.record.token).totalDeployed)

theorem held_book {invoiceId : ℕ} {payer : Address} {q : RepaymentQuote} (hh : Held s)
    (hb : bookRepayment h signers s invoiceId payer q = .ok s') : Held s' := by
  obtain ⟨s₁, tt, stats, s₂, halloc, -, hs₂, hb⟩ := bookRepayment_eq_ok hb
  have hh₁ : Held s₁ := by
    rcases allocateRepayment_eq_ok halloc with ⟨roundId, -, hd⟩ | ⟨-, -, rfl, -⟩ | ⟨-, -, rfl, -⟩
    · obtain ⟨_, _, _, -, hfold, -⟩ := distributePariPassuRepayment_eq_ok hd
      exact hh.credit (credits_of_distribute hfold)
    · exact hh
    · exact hh
  have hh₂ : Held s₂ := by
    rw [hs₂]
    exact hh₁.frame (holdingsFrame_of_update rfl rfl rfl rfl rfl)
  rcases hb with ⟨-, hrel⟩ | ⟨-, rfl⟩
  · rcases releaseCollateral_eq_ok hrel with rfl | ⟨_, -, -, -, rfl⟩
    · exact hh₂
    · exact hh₂.frame (holdingsFrame_of_totals rfl rfl rfl rfl rfl)
  · exact hh₂

theorem held_repay {payer : Address} {request : RepaymentRequest} (hh : Held s) (hq : Queued s)
    (hclean : SettlesCleanly h signers payer s request)
    (hr : repayInvoiceRequest h signers payer s request = .ok s') : Held s' := by
  obtain ⟨q, s₁, history, hquote, hb, hr⟩ := repayInvoiceRequest_eq_ok hr
  have hhistory : Held { s₁ with rateHistory := history } :=
    (held_book hh hb).frame (holdingsFrame_of_totals rfl rfl rfl rfl rfl)
  have hqueue := bookRepayment_queue hb
  have hqueued : Queued { s₁ with rateHistory := history } := hq.of_eq hqueue
  rcases hr with ⟨-, s₂, o, hpass, href⟩ | ⟨-, rfl⟩
  · exact (held_pass hhistory hqueued (hclean q s₁ history hquote hb) hpass).frame
      (holdingsFrame_referral href)
  · exact hhistory

theorem held_register (hh : Held s) (hnone : s.totals token = none)
    (hfresh : ∀ t, s.shareToken t ≠ some share) (hempty : ∀ a, s.shares share a = 0)
    (hshare : s'.shareToken = Function.update s.shareToken token (some share))
    (htokens : s'.shareTokens = s.shareTokens) (hposition : s'.position = s.position)
    (hqueue : s'.queue = s.queue) (htotals : s'.totals = Function.update s.totals token (some {})) :
    Held s' := by
  have hunregistered := hh.registered token hnone
  refine ⟨fun t t' sh ht ht' => ?_, fun t ht => ?_, fun t a => ?_, fun t a => ?_⟩
  · rw [hshare, Function.update_apply] at ht ht'
    split_ifs at ht ht' with h₁ h₂
    · rw [h₁, h₂]
    · exact absurd (ht'.trans ht.symm) (hfresh t')
    · exact absurd (ht.trans ht'.symm) (hfresh t)
    · exact hh.alone t t' sh ht ht'
  · rw [htotals, Function.update_apply] at ht
    split_ifs at ht with htoken
    rw [hshare, Function.update_of_ne htoken]
    exact hh.registered t ht
  · have hagree := hh.agree t a
    rw [hposition, queued_of_eq hqueue, hagree]
    unfold State.sharesIn
    rw [hshare, Function.update_apply]
    split_ifs with ht
    · rw [ht, hunregistered]
      unfold State.shares
      rw [htokens]
      exact (hempty a).symm
    · unfold State.shares
      rw [htokens]
  · rw [hposition]
    exact hh.nonneg t a

end Steps

/-- The call moves the figures of a holding together: a withdrawal takes no more than is available,
a listing is settled for nothing, a pass over the queue does not stop after a payment, a share
contract is registered unused, and no shares are moved outside of the pool. -/
def PositionOk (h : Host W) (s : State W) (tx : Tx h) : Prop :=
  match tx.call with
  | .deposit investor token amount _ => ∀ s₁ s₂,
      DepositReaches h tx.signers s investor token amount s₁ s₂ →
        CleanPass s₂ token (liquidAfter s₁ token)
  | .withdraw investor token shares => shares ≤ (s.position investor token).available
  | .repayInvoice payer request => SettlesCleanly h tx.signers payer s request
  | .repayInvoicesBatch payer requests => Along (repayInvoiceRequest h tx.signers payer)
      (SettlesCleanly h tx.signers payer) s requests
  | .marketSettleListing _ listing => listing.price = 0
  | .addToken _ _ share => (∀ t, s.shareToken t ≠ some share) ∧ ∀ a, s.shares share a = 0
  | .shareTransfer .. => False
  | _ => True

theorem held_market {h : Host W} {signers : List Address} {s s' : State W} {market : Address}
    {l : ListingSettlement} (hh : Held s) (hfree : l.price = 0)
    (hm : marketSettleListing h signers s market l = .ok s') : Held s' := by
  obtain ⟨record, s₁, buyerPos, sellerPos, hne, -, hmove, hbuyer, hseller, hs'⟩ :=
    marketSettleListing_eq_ok hm
  have hframe : HoldingsFrame s s₁ := by
    obtain ⟨_, rfl | ⟨_, _, _, -, -, rfl⟩⟩ := moveCoFundShare_eq_ok hmove <;>
      exact holdingsFrame_of_totals rfl rfl rfl rfl rfl
  have hh₁ := hh.frame hframe
  have hsame : ∀ a t, (s'.position a t).available = (s₁.position a t).available := by
    intro a t
    rw [hs']
    dsimp only
    rw [set₂_apply]
    split_ifs with hkey
    · rw [hkey.1, hkey.2, hseller, hfree, add_zero]
    · rw [set₂_apply]
      split_ifs with hkey'
      · rw [hkey'.1, hkey'.2, hbuyer, hfree, sub_zero, hframe.position]
      · rfl
  refine ⟨?_, ?_, fun t a => ?_, fun t a => ?_⟩
  · rw [hs']
    exact hh₁.alone
  · rw [hs']
    exact hh₁.registered
  · rw [hsame, queued_of_eq (by rw [hs']), sharesIn_of_eq (by rw [hs']) (by rw [hs'])]
    exact hh₁.agree t a
  · rw [hsame]
    exact hh₁.nonneg t a

theorem held_exec {h : Host W} {s s' : State W} {tx : Tx h} (hh : Held s) (hq : Queued s)
    (hok : PositionOk h s tx) (hstep : exec h s tx = .ok s') : Held s' := by
  by_cases hcall : tx.call.isHolding = false
  · exact hh.frame (exec_holdingsFrame hcall hstep)
  obtain ⟨signers, hself, call⟩ := tx
  cases call with
  | deposit investor token amount minRate =>
    obtain ⟨usdc, s₁, s₂, o, -, -, husdc, heff, href, hpass⟩ := deposit_eq_ok hstep
    have hreach : DepositReaches h signers s investor token amount s₁ s₂ :=
      ⟨usdc, husdc, heff, href⟩
    have hh₂ := (held_depositEffects hh heff).frame (holdingsFrame_referral href)
    exact held_pass hh₂ (hq.of_eq hreach.queue) (hok s₁ s₂ hreach) hpass
  | withdraw investor token shares => exact held_withdraw hh hok hstep
  | requestWithdrawal investor token shares =>
    obtain ⟨r, hr, rfl⟩ := (map_eq_ok _ _ _).1 hstep
    exact held_request hh hr
  | cancelWithdrawalRequest investor token => exact held_cancel hh hq hstep
  | adjustWithdrawalRequest investor token newShares => exact held_adjust hh hstep
  | drainWithdrawalQueue caller token =>
    -- a pass that stops makes the whole call fail
    obtain ⟨_, -, hpass⟩ := drainWithdrawalQueue_eq_ok hstep
    exact held_drain hh hq hpass
  | repayInvoice payer request => exact held_repay hh hq hok (repayInvoice_eq_ok.1 hstep).2
  | repayInvoicesBatch payer requests =>
    refine (foldlM_along (P := fun s => Held s ∧ Queued s) ?_ hok ⟨hh, hq⟩
      (repayInvoicesBatch_eq_ok hstep).2).1
    intro s request s' hs hclean hr
    exact ⟨held_repay hs.1 hs.2 hclean hr, queued_repay hs.2 hr⟩
  | commitToInvoice investor invoiceId amount => exact held_commit hh hstep
  | withdrawCoFundingCommitment investor invoiceId =>
    obtain ⟨round, s₁, tt, _, -, -, hrefund, -, rfl⟩ := withdrawCoFundingCommitment_eq_ok hstep
    exact (hh.credit (credits_of_refundCoFundingInvestor hrefund)).frame
      (holdingsFrame_of_update rfl rfl rfl rfl rfl)
  | finalizeCoFunding caller invoiceId =>
    obtain ⟨round, -, -, hfill | hexpire⟩ := finalizeCoFunding_eq_ok hstep
    · obtain ⟨_, _, _, -, -, rfl⟩ := fillRound_eq_ok hfill
      exact hh.frame (holdingsFrame_of_totals rfl rfl rfl rfl rfl)
    · obtain ⟨s₁, tt, total, hfold, rfl⟩ := expireRound_eq_ok hexpire
      exact (hh.credit (credits_of_expire hfold)).frame
        (holdingsFrame_of_update rfl rfl rfl rfl rfl)
  | addToken admin token share =>
    obtain ⟨_, ⟨hnone, _, rfl⟩ | rfl⟩ := addToken_eq_ok hstep
    · exact held_register hh hnone hok.1 hok.2 rfl rfl rfl rfl rfl
    · exact hh.frame (holdingsFrame_of_totals rfl rfl rfl rfl rfl)
  | marketSettleListing market listing => exact held_market hh hok hstep
  | shareTransfer share sender receiver amount => exact absurd hok id
  | _ => exact absurd rfl hcall

theorem held_initial (now : ℕ) (world : W) (cash : Address → Address → ℤ)
    (shareTokens : Address → Share.ShareToken) (admin token share invoiceContract : Address)
    (hempty : ∀ a, (shareTokens share).balance a = 0) :
    Held (initialState now world cash shareTokens admin token share invoiceContract) := by
  refine ⟨fun t t' sh ht ht' => ?_, fun t ht => ?_, fun t a => ?_, fun t a => ?_⟩
  · by_cases h₁ : t = token
    · by_cases h₂ : t' = token
      · rw [h₁, h₂]
      · simp [initialState, h₂] at ht'
    · simp [initialState, h₁] at ht
  · by_cases htoken : t = token
    · simp [initialState, htoken] at ht
    · simp [initialState, htoken]
  · by_cases htoken : t = token
    · simp [initialState, State.queued, State.sharesIn, State.shares, sumOver, htoken, hempty]
    · simp [initialState, State.queued, State.sharesIn, sumOver, htoken]
  · exact ⟨le_rfl, by norm_num [initialState]⟩

/-- In every run from `initialize` whose calls move the figures of a holding together, what an
investor has available in a token and the shares of its queued request add up to its share balance,
the available amount is not negative, and so the queued shares are still held. -/
theorem positions_agree (h : Host W) (now : ℕ) (world : W) (cash : Address → Address → ℤ)
    (shareTokens : Address → Share.ShareToken) (admin token share invoiceContract : Address)
    (hempty : ∀ a, (shareTokens share).balance a = 0) (s : State W)
    (hrun : Reaches (exec h) (PositionOk h)
      (initialState now world cash shareTokens admin token share invoiceContract) s)
    (t sh investor : Address) (hsh : s.shareToken t = some sh) :
    (s.position investor t).available + s.queued t investor = s.shares sh investor ∧
    0 ≤ (s.position investor t).available ∧ s.queued t investor ≤ s.shares sh investor := by
  have hinv : Held s ∧ Queued s := by
    refine hrun.invariant (P := fun s => Held s ∧ Queued s)
      ⟨held_initial now world cash shareTokens admin token share invoiceContract hempty,
        queued_initial now world cash shareTokens admin token share invoiceContract⟩ ?_
    intro s tx s' hs hok hstep
    exact ⟨held_exec hs.1 hs.2 hok hstep, queued_exec hs.2 hstep⟩
  have hagree := hinv.1.agree t investor
  have hnn := (hinv.1.nonneg t investor).1
  rw [sharesIn_of_some hsh] at hagree
  exact ⟨hagree, hnn, by omega⟩

/-- Half of a deposit is lent out and the investor asks for more than the rest. -/
def queuedRequest : List (Tx quietHost) :=
  [⟨[1], self_ne_one, .setMaxInvestorConcentration 1 10000⟩,
    ⟨[3], self_ne_three, .deposit 3 10 1000 none⟩,
    ⟨[1], self_ne_one, .fundInvoice 1 ⟨7, 500, 4, 31536001, 10⟩⟩,
    ⟨[3], self_ne_three, .requestWithdrawal 3 10 600⟩]

theorem positions_agree_queued :
    ∃ s, execAll quietHost sampleState queuedRequest = .ok s ∧
      Reaches (exec quietHost) (PositionOk quietHost) sampleState s ∧
      s.queued 10 3 = 600 ∧ (s.position 3 10).available + s.queued 10 3 = s.shares 20 3 := by
  obtain ⟨s, hs, hqueued⟩ := exists_of_check
    (x := execAll quietHost sampleState queuedRequest)
    (p := fun s => decide (s.queued 10 3 = 600 ∧ s.shareToken 10 = some 20)) (by decide)
  obtain ⟨hqueued, hshare⟩ := of_decide_eq_true hqueued
  have halong : Along (exec quietHost) (PositionOk quietHost) sampleState queuedRequest := by
    refine ⟨trivial, fun s₁ h₁ => ⟨fun s₂ s₃ hd => ?_, fun _ _ => ⟨trivial, fun _ _ => ⟨trivial,
      fun _ _ => trivial⟩⟩⟩⟩
    apply cleanPass_of_empty
    rw [hd.queue, setMaxInvestorConcentration_eq_ok h₁]
    rfl
  have hrun := reaches_of_along .refl halong hs
  exact ⟨s, hs, hrun, hqueued,
    (positions_agree quietHost 1 () _ _ 1 10 20 2 (Share.ShareToken.balance_fresh 0) s hrun
      10 20 3 hshare).1⟩

/-- A withdrawal of more than the investor has available. -/
def overdraft : Tx quietHost := ⟨[3], self_ne_three, .withdraw 3 10 500⟩

/-- The investor then withdraws 100 of the 600 shares that wait in the queue. -/
theorem queued_shares_withdrawn :
    ∃ s, execAll quietHost sampleState (queuedRequest ++ [overdraft]) = .ok s ∧
      s.shareToken 10 = some 20 ∧ (s.position 3 10).available < 0 ∧
      s.shares 20 3 < s.queued 10 3 := by
  obtain ⟨s, hs, hp⟩ := exists_of_check
    (x := execAll quietHost sampleState (queuedRequest ++ [overdraft]))
    (p := fun s => decide (s.shareToken 10 = some 20 ∧ (s.position 3 10).available < 0 ∧
      s.shares 20 3 < s.queued 10 3)) (by decide)
  exact ⟨s, hs, of_decide_eq_true hp⟩

end Astera.Pool
