import Astera.Pool.Holdings
import Astera.Pool.QueueOrder

/-!
# What a pass conserves

A pass pays within its budget and no request more than its value; shares are burned or stay queued.
A stored copy bears an investor and an id only, and every token numbers its own requests: for an
investor queued in two tokens the copies may agree with one queue alone.
-/

namespace Astera.Pool

open Fallible Machine Share

variable {W : Type} {h : Host W} {signers : List Address} {token share : Address}
variable {investor : Address} {queue : List WithdrawalRequest} {s : State W} {r : WithdrawalRequest}

/-! ## One request among the others -/

/-- Whether an entry is the request `r`, or what is left of it. -/
def WithdrawalRequest.Same (r q : WithdrawalRequest) : Prop :=
  q.investor = r.investor ∧ q.requestId = r.requestId

instance (r q : WithdrawalRequest) : Decidable (r.Same q) :=
  inferInstanceAs (Decidable (_ ∧ _))

def sharesLeft (r : WithdrawalRequest) (queue : List WithdrawalRequest) : ℤ :=
  sumOver (fun q => if r.Same q then q.shares else 0) queue

def burnedOf (r : WithdrawalRequest) (made : List Payment) : ℤ :=
  (made.map fun m => if r.Same m.request then m.burned else 0).sum

/-- What some payments pay to an investor. -/
def paidTo (a : Address) (made : List Payment) : ℤ :=
  (made.map fun m => if m.request.investor = a then m.payout else 0).sum

theorem sharesLeft_of_mem (hinvestors : (queue.map WithdrawalRequest.investor).Nodup)
    (hr : r ∈ queue) :
    sharesLeft r queue = r.shares := by
  induction queue with
  | nil => cases hr
  | cons q queue ih =>
    rw [List.map_cons, List.nodup_cons] at hinvestors
    obtain ⟨hq, hinvestors⟩ := hinvestors
    unfold sharesLeft at ih ⊢
    rw [sumOver_cons]
    rcases List.mem_cons.1 hr with rfl | hr
    · have hrest : sumOver (fun q => if r.Same q then q.shares else 0) queue = 0 := by
        apply List.sum_eq_zero
        intro x hx
        obtain ⟨q', hq', rfl⟩ := List.mem_map.1 hx
        refine if_neg fun hsame => hq ?_
        exact hsame.1 ▸ List.mem_map_of_mem hq'
      rw [hrest, if_pos ⟨rfl, rfl⟩, add_zero]
    · have hne : ¬ r.Same q := fun hsame => hq (hsame.1 ▸ List.mem_map_of_mem hr)
      rw [if_neg hne, zero_add]
      exact ih hinvestors hr

theorem eq_of_investor_eq {q r : WithdrawalRequest}
    (hinvestors : (queue.map WithdrawalRequest.investor).Nodup) (hq : q ∈ queue) (hr : r ∈ queue)
    (heq : q.investor = r.investor) : q = r :=
  List.inj_on_of_nodup_map hinvestors hq hr heq

theorem pay_withdrawalRequests {s s' : State W} {m : Payment}
    (hp : pay h signers token share s m = .ok s') :
    s'.withdrawalRequests = set₂ s.withdrawalRequests m.request.investor m.request.requestId
      (leftover m.request m.burned).head? := by
  unfold pay settleQueuedWithdrawal at hp
  simp only [bind_eq_ok, pure_eq_ok, State.transfer_eq_ok] at hp
  obtain ⟨_, ⟨s₁, hb, -, -, rfl⟩, rfl⟩ := hp
  obtain ⟨-, -, st, -, rfl⟩ := State.burn_eq_ok hb
  rfl

theorem stored_of_unpaid {a : Address} :
    ∀ {made : List Payment} {s s' : State W}, (∀ m ∈ made, m.request.investor ≠ a) →
      made.foldlM (pay h signers token share) s = .ok s' →
      s'.withdrawalRequests a = s.withdrawalRequests a := by
  intro made
  induction made with
  | nil =>
    intro s s' _ hs
    simp only [List.foldlM_nil, pure_eq_ok] at hs
    rw [hs]
  | cons m made ih =>
    intro s s' hne hs
    rw [List.foldlM_cons, bind_eq_ok] at hs
    obtain ⟨s₁, hm, hs⟩ := hs
    rw [ih (fun m' hm' => hne m' (List.mem_cons_of_mem _ hm')) hs, pay_withdrawalRequests hm]
    unfold set₂
    rw [Function.update_of_ne (hne m List.mem_cons_self).symm]

theorem stored_of_paid :
    ∀ {made : List Payment} {s s' : State W},
      (made.map fun m => m.request.investor).Nodup →
      made.foldlM (pay h signers token share) s = .ok s' → ∀ m ∈ made,
      s'.withdrawalRequests m.request.investor m.request.requestId =
        (leftover m.request m.burned).head? := by
  intro made
  induction made with
  | nil => exact fun _ _ m hm => absurd hm List.not_mem_nil
  | cons m made ih =>
    intro s s' hnodup hs m' hm'
    rw [List.map_cons, List.nodup_cons] at hnodup
    rw [List.foldlM_cons, bind_eq_ok] at hs
    obtain ⟨s₁, hm, hs⟩ := hs
    rcases List.mem_cons.1 hm' with rfl | hm'
    · have hothers : ∀ m ∈ made, m.request.investor ≠ m'.request.investor := by
        intro m hm heq
        exact hnodup.1 (heq ▸ List.mem_map_of_mem (f := fun m => m.request.investor) hm)
      rw [stored_of_unpaid hothers hs, pay_withdrawalRequests hm, set₂_apply, if_pos ⟨rfl, rfl⟩]
    · exact ih hnodup.2 hs m' hm'

theorem cash_of_foldlM_pay {a : Address} (ha : a ≠ h.self) :
    ∀ {made : List Payment} {s s' : State W}, made.foldlM (pay h signers token share) s = .ok s' →
      s'.cash token a = s.cash token a + paidTo a made := by
  intro made
  induction made with
  | nil =>
    intro s s' hs
    simp only [List.foldlM_nil, pure_eq_ok] at hs
    simp [hs, paidTo]
  | cons m made ih =>
    intro s s' hs
    rw [List.foldlM_cons, bind_eq_ok] at hs
    obtain ⟨s₁, hm, hs⟩ := hs
    obtain ⟨-, -, -, -, st, requests, -, rfl⟩ := pay_eq_ok hm
    rw [ih hs]
    simp only [State.moveCash_apply, paidTo, List.map_cons, List.sum_cons, ha, and_false,
      if_false, true_and, eq_comm (a := a)]
    ring

/-! ## A completed pass -/

/-- What a pass with `availableAmount` to pay out that makes the payments `made` conserves. -/
structure Conserves (h : Host W) (signers : List Address) (token : Address) (availableAmount : ℤ)
    (s s' : State W) (made : List Payment) : Prop where
  paid : MadeFrom h signers token s s' made
  received : ∀ a, a ≠ h.self → s'.cash token a = s.cash token a + paidTo a made
  within : totalPayout made ≤
    max 0 (min availableAmount ((s.tt token).poolValue - (s.tt token).totalDeployed))
  poolValue : (s'.tt token).poolValue = (s.tt token).poolValue - totalPayout made
  totalDeployed : (s'.tt token).totalDeployed = (s.tt token).totalDeployed
  once : List.Subperm (made.map Payment.request) (s.queue token)
  priced : ∀ share, s.shareToken token = some share → ∀ m ∈ made,
    m.payout ≤ m.request.shares * (s.tt token).poolValue / s.supply share
  shares : ∀ r ∈ s.queue token, r.shares = burnedOf r made + sharesLeft r (s'.queue token)
  kept : ∀ q ∈ s'.queue token, ∃ r ∈ s.queue token, q = { r with shares := q.shares }
  ids : ((s.queue token).map WithdrawalRequest.requestId).Nodup →
    ((s'.queue token).map WithdrawalRequest.requestId).Nodup
  stored : (∀ r ∈ s.queue token, s.withdrawalRequests r.investor r.requestId = some r) →
    ∀ r ∈ s'.queue token, s'.withdrawalRequests r.investor r.requestId = some r

theorem conserves_self {availableAmount : ℤ}
    (hinvestors : ((s.queue token).map WithdrawalRequest.investor).Nodup) :
    Conserves h signers token availableAmount s s [] := by
  refine ⟨.inl ⟨rfl, rfl⟩, ?_, le_max_left _ _, ?_, rfl, List.nil_subperm, by simp, ?_, ?_, id, id⟩
  · intro a _
    simp [paidTo]
  · simp [totalPayout]
  · intro r hr
    rw [sharesLeft_of_mem hinvestors hr]
    simp [burnedOf]
  · exact fun q hq => ⟨q, hq, rfl⟩

theorem sumOver_eq_count (f : WithdrawalRequest → ℕ) (x : ℕ) (requests : List WithdrawalRequest) :
    sumOver (fun q => if f q = x then 1 else 0) requests = (requests.map f).count x := by
  induction requests with
  | nil => rfl
  | cons r requests ih =>
    rw [sumOver_cons, ih, List.map_cons, List.count_cons]
    by_cases hr : f r = x
    · simp [hr]
      ring
    · simp [hr]

theorem nodup_iff_sumOver {f : WithdrawalRequest → ℕ} {requests : List WithdrawalRequest} :
    (requests.map f).Nodup ↔ ∀ x, sumOver (fun q => if f q = x then 1 else 0) requests ≤ 1 := by
  rw [List.nodup_iff_count_le_one]
  refine forall_congr' fun x => ?_
  rw [sumOver_eq_count]
  omega

section Pass

variable {s : State W} {availableAmount : ℤ} {p : Plan}

theorem PassSound.within (hp : PassSound s token share availableAmount p)
    (hpos : ∀ r ∈ s.queue token, 0 < r.shares) : totalPayout p.payments ≤
      max 0 (min availableAmount ((s.tt token).poolValue - (s.tt token).totalDeployed)) := by
  obtain ⟨amount, havail, hliquid, hsound, hleft⟩ := hp.amount
  have hspent := hsound.remainingAmount_eq
  have hnonneg := hleft hpos
  refine le_max_of_le_right (le_min ?_ ?_) <;> omega

theorem PassSound.priced (hp : PassSound s token share availableAmount p) {m : Payment}
    (hm : m ∈ p.payments) :
    m.payout ≤ m.request.shares * (s.tt token).poolValue / s.supply share := by
  obtain ⟨amount, -, -, hsound, -⟩ := hp.amount
  obtain ⟨-, hpay, _, _, hprice⟩ := hsound.priced m hm
  exact (Int.le_ediv_iff_mul_le hp.supply_pos).2 (requestPayout_value hprice hpay)

theorem PassSound.kept (hp : PassSound s token share availableAmount p) {q : WithdrawalRequest}
    (hq : q ∈ p.remainingQueue) : ∃ r ∈ s.queue token, q = { r with shares := q.shares } := by
  obtain ⟨amount, -, -, hsound, -⟩ := hp.amount
  rcases hsound.left q hq with hq | ⟨m, hm, hq⟩
  · exact ⟨q, hq, rfl⟩
  · refine ⟨m.request, (hsound.priced m hm).1, ?_⟩
    unfold leftover at hq
    split_ifs at hq
    · cases hq
    · rw [List.mem_singleton.1 hq]

theorem PassSound.shares (hp : PassSound s token share availableAmount p)
    (hpos : ∀ r ∈ s.queue token, 0 < r.shares)
    (hinvestors : ((s.queue token).map WithdrawalRequest.investor).Nodup) (hr : r ∈ s.queue token) :
    r.shares = burnedOf r p.payments + sharesLeft r p.remainingQueue := by
  have htaken := hp.taken_where hpos r.Same fun _ _ => Iff.rfl
  have hself := sharesLeft_of_mem hinvestors hr
  unfold sharesLeft at hself ⊢
  unfold burnedOf
  omega

theorem PassSound.unpaid (hp : PassSound s token share availableAmount p)
    (hpos : ∀ r ∈ s.queue token, 0 < r.shares)
    (hinvestors : ((s.queue token).map WithdrawalRequest.investor).Nodup)
    (hburned : ∀ m ∈ p.payments, 0 < m.burned) (hr : r ∈ s.queue token)
    (hleft : r ∈ p.remainingQueue) : ∀ m ∈ p.payments, m.request.investor ≠ r.investor := by
  intro m hm heq
  obtain ⟨amount, -, -, hsound, -⟩ := hp.amount
  obtain rfl := eq_of_investor_eq hinvestors (hsound.priced m hm).1 hr heq
  -- the entry has all the shares of the request, so nothing can have been burned for it
  have hshares := hp.shares hpos hinvestors hr
  have hentry : m.request.shares ≤ sharesLeft m.request p.remainingQueue := by
    have hle := List.single_le_sum (l := p.remainingQueue.map fun q =>
      if m.request.Same q then q.shares else 0) ?_ m.request.shares ?_
    · exact hle
    · intro x hx
      obtain ⟨q, hq, rfl⟩ := List.mem_map.1 hx
      split_ifs
      · exact (hp.positive hpos q hq).le
      · exact le_rfl
    · exact List.mem_map.2 ⟨m.request, hleft, if_pos ⟨rfl, rfl⟩⟩
  have hpaid : m.burned ≤ burnedOf m.request p.payments := by
    have hle := List.single_le_sum (l := p.payments.map fun m' =>
      if m.request.Same m'.request then m'.burned else 0) ?_ m.burned ?_
    · exact hle
    · intro x hx
      obtain ⟨m', hm', rfl⟩ := List.mem_map.1 hx
      split_ifs
      · exact (hburned m' hm').le
      · exact le_rfl
    · exact List.mem_map.2 ⟨m, hm, if_pos ⟨rfl, rfl⟩⟩
  have := hburned m hm
  omega

end Pass

/-- A pass that ends normally pays within its budget, at most the value of each request, and loses
no shares; it keeps the ids of the queue distinct and the stored copies equal to its entries. -/
theorem conserves_of_processWithdrawalQueue {s s' : State W} {availableAmount : ℤ}
    (hpos : ∀ r ∈ s.queue token, 0 < r.shares)
    (hinvestors : ((s.queue token).map WithdrawalRequest.investor).Nodup)
    (hq : processWithdrawalQueue h signers s token availableAmount = .ok (s', none)) :
    Conserves h signers token availableAmount s s'
      (passPayments (planPass s token availableAmount)) := by
  have hmade := madeFrom_passPayments hq
  have honce := passPayments_subperm s token availableAmount
  have hf := queuePass_follows h signers s token availableAmount
  unfold processWithdrawalQueue at hq
  split at hq
  case h_2 => cases (Prod.mk.inj (Except.ok.inj hq)).2
  case h_3 => cases hq
  next s₁ hpass =>
  obtain rfl : s₁ = s' := (Prod.mk.inj (Except.ok.inj hq)).1
  rw [hpass] at hf
  rcases hf with ⟨hplan, rfl⟩ | ⟨share, p, s₂, hplan, hshare, hpaid, rfl⟩
  · rw [hplan]
    exact conserves_self hinvestors
  rw [hplan] at hmade honce ⊢
  have hp := planPass_eq_ok hplan
  obtain ⟨amount, -, -, hsound, -⟩ := hp.amount
  obtain ⟨st, cash, requests, hset, hs₂⟩ := settled_of_foldlM hpaid
  have hqueue : (closePass s₂ token (s.tt token) p).queue token = p.remainingQueue := by
    simp [closePass]
  have htotals : (closePass s₂ token (s.tt token) p).tt token =
      { s.tt token with poolValue := p.poolValue } := by
    simp [closePass, State.tt]
  refine ⟨hmade, ?_, hp.within hpos, ?_, ?_, honce, ?_, ?_, ?_, ?_, ?_⟩
  · intro a ha
    show s₂.cash token a = s.cash token a + paidTo a p.payments
    exact cash_of_foldlM_pay ha hpaid
  · rw [htotals]
    exact hsound.poolValue_eq
  · rw [htotals]
  · intro share' hshare' m hm
    obtain rfl : share = share' := Option.some.inj (hshare.symm.trans hshare')
    exact hp.priced hm
  · intro r hr
    rw [hqueue]
    exact hp.shares hpos hinvestors hr
  · rw [hqueue]
    exact fun q hq => hp.kept hq
  · rw [hqueue, nodup_iff_sumOver, nodup_iff_sumOver]
    exact fun hids x =>
      (hp.count_le hpos (fun q => q.requestId = x) fun _ _ => Iff.rfl).trans (hids x)
  · rw [hqueue]
    intro hstored r hr
    show s₂.withdrawalRequests r.investor r.requestId = some r
    rcases hsound.left r hr with hr' | ⟨m, hm, hr'⟩
    · have hunpaid := hp.unpaid hpos hinvestors hset.burned_pos hr' hr
      rw [stored_of_unpaid hunpaid hpaid]
      exact hstored r hr'
    · have hnodup : (p.payments.map fun m => m.request.investor).Nodup := by
        obtain ⟨l, hperm, hsub⟩ := honce
        have hmap := (hperm.map WithdrawalRequest.investor).nodup_iff.1
          (hinvestors.sublist (hsub.map _))
        rw [List.map_map] at hmap
        exact hmap
      have hrecord := stored_of_paid hnodup hpaid m hm
      unfold leftover at hrecord hr'
      split_ifs at hr' hrecord with hall
      · cases hr'
      · rw [List.mem_singleton.1 hr']
        exact hrecord

/-- Investors 3 and 5 deposit, all but 400 is lent out, and both ask for their money back; investor
3 has also deposited in a second token, all of which is lent out. -/
def twoQueues : List (Tx quietHost) :=
  [⟨[1], self_ne_one, .setMaxInvestorConcentration 1 10000⟩,
    ⟨[1], self_ne_one, .addToken 1 11 21⟩,
    ⟨[3], self_ne_three, .deposit 3 10 1000 none⟩,
    ⟨[5], self_ne_five, .deposit 5 10 1000 none⟩,
    ⟨[3], self_ne_three, .deposit 3 11 1000 none⟩,
    ⟨[1], self_ne_one, .fundInvoice 1 ⟨7, 1600, 4, 31536001, 10⟩⟩,
    ⟨[1], self_ne_one, .fundInvoice 1 ⟨8, 1000, 4, 31536001, 11⟩⟩,
    ⟨[3], self_ne_three, .requestWithdrawal 3 10 500⟩,
    ⟨[5], self_ne_five, .requestWithdrawal 5 10 700⟩]

theorem conserves_of_processWithdrawalQueue_partial :
    ∃ s s', execAll quietHost sampleState twoQueues = .ok s ∧
      processWithdrawalQueue quietHost [3, 5] s 10 400 = .ok (s', none) ∧
      Conserves quietHost [3, 5] 10 400 s s' (passPayments (planPass s 10 400)) ∧
      s'.cash 10 3 = s.cash 10 3 + 166 ∧ s'.cash 10 5 = s.cash 10 5 + 233 ∧
      s'.withdrawalRequests 3 1 = some ⟨3, 10, 334, 1, 1⟩ := by
  obtain ⟨s, hs, hp⟩ := exists_of_check (x := execAll quietHost sampleState twoQueues)
    (p := fun s => check (processWithdrawalQueue quietHost [3, 5] s 10 400) fun r =>
      decide (r.2 = none ∧ (∀ r ∈ s.queue 10, 0 < r.shares) ∧
        ((s.queue 10).map WithdrawalRequest.investor).Nodup ∧
        r.1.cash 10 3 = s.cash 10 3 + 166 ∧ r.1.cash 10 5 = s.cash 10 5 + 233 ∧
        r.1.withdrawalRequests 3 1 = some ⟨3, 10, 334, 1, 1⟩)) (by decide)
  obtain ⟨⟨s', o⟩, hq, hp⟩ := exists_of_check hp
  obtain ⟨rfl, hpos, hinvestors, hthree, hfive, hstored⟩ := of_decide_eq_true hp
  exact ⟨s, s', hs, hq, conserves_of_processWithdrawalQueue hpos hinvestors hq, hthree, hfive,
    hstored⟩

/-- When a negative amount is available the pass pays nothing, which is more; and when investor 3
queues in the second token too, the two requests have the same id, and the stored copy is that of
the later one. -/
theorem paid_above_negative :
    ∃ s s₁ s₂ s₃, execAll quietHost sampleState twoQueues = .ok s ∧
      (∀ r ∈ s.queue 10, 0 < r.shares) ∧ ((s.queue 10).map WithdrawalRequest.investor).Nodup ∧
      0 < (s.tt 10).poolValue ∧ 0 < s.supply 20 ∧ s.shareToken 10 = some 20 ∧
      processWithdrawalQueue quietHost [] s 10 (-1) = .ok (s₁, none) ∧
      ¬ totalPayout (passPayments (planPass s 10 (-1))) ≤
        min (-1) ((s.tt 10).poolValue - (s.tt 10).totalDeployed) ∧
      exec quietHost s ⟨[3], by decide, .requestWithdrawal 3 11 700⟩ = .ok s₂ ∧
      (∀ r ∈ s₂.queue 10, 0 < r.shares) ∧ ((s₂.queue 10).map WithdrawalRequest.investor).Nodup ∧
      0 < (s₂.tt 10).poolValue ∧ 0 < s₂.supply 20 ∧ s₂.shareToken 10 = some 20 ∧
      processWithdrawalQueue quietHost [] s₂ 10 0 = .ok (s₃, none) ∧
      ¬ ∀ r ∈ s₃.queue 10, s₃.withdrawalRequests r.investor r.requestId = some r := by
  obtain ⟨s, hs, hp⟩ := exists_of_check (x := execAll quietHost sampleState twoQueues)
    (p := fun s => check (processWithdrawalQueue quietHost [] s 10 (-1)) fun r₁ =>
      check (exec quietHost s ⟨[3], by decide, .requestWithdrawal 3 11 700⟩) fun s₂ =>
      check (processWithdrawalQueue quietHost [] s₂ 10 0) fun r₃ =>
      decide (r₁.2 = none ∧ r₃.2 = none ∧
        (∀ r ∈ s.queue 10, 0 < r.shares) ∧ ((s.queue 10).map WithdrawalRequest.investor).Nodup ∧
        0 < (s.tt 10).poolValue ∧ 0 < s.supply 20 ∧ s.shareToken 10 = some 20 ∧
        ¬ totalPayout (passPayments (planPass s 10 (-1))) ≤
          min (-1) ((s.tt 10).poolValue - (s.tt 10).totalDeployed) ∧
        (∀ r ∈ s₂.queue 10, 0 < r.shares) ∧ ((s₂.queue 10).map WithdrawalRequest.investor).Nodup ∧
        0 < (s₂.tt 10).poolValue ∧ 0 < s₂.supply 20 ∧ s₂.shareToken 10 = some 20 ∧
        ¬ ∀ r ∈ r₃.1.queue 10, r₃.1.withdrawalRequests r.investor r.requestId = some r))
    (by decide)
  obtain ⟨⟨s₁, o₁⟩, hq₁, hp⟩ := exists_of_check hp
  obtain ⟨s₂, hstep, hp⟩ := exists_of_check hp
  obtain ⟨⟨s₃, o₃⟩, hq₃, hp⟩ := exists_of_check hp
  obtain ⟨rfl, rfl, hpos, hinvestors, hvalue, hsupply, hshare, hpaid, hpos₂, hinvestors₂, hvalue₂,
    hsupply₂, hshare₂, hstored⟩ := of_decide_eq_true hp
  exact ⟨s, s₁, s₂, s₃, hs, hpos, hinvestors, hvalue, hsupply, hshare, hq₁, hpaid, hstep, hpos₂,
    hinvestors₂, hvalue₂, hsupply₂, hshare₂, hq₃, hstored⟩

/-! ## Reachable queues -/

/-- No token has more requests with an id than before. -/
def Thinned (s s' : State W) : Prop :=
  ∀ t, List.Subperm ((s'.queue t).map WithdrawalRequest.requestId)
    ((s.queue t).map WithdrawalRequest.requestId)

section Thinning

variable {s s₁ s' : State W}

theorem thinned_of_eq (hqueue : s'.queue = s.queue) : Thinned s s' :=
  fun t => by rw [hqueue]

theorem Thinned.trans (h₁ : Thinned s s₁) (h₂ : Thinned s₁ s') : Thinned s s' :=
  fun t => (h₂ t).trans (h₁ t)

theorem thinned_of_update (hqueue : s'.queue = Function.update s.queue token queue)
    (hids : List.Subperm (queue.map WithdrawalRequest.requestId) ((s.queue token).map
      WithdrawalRequest.requestId)) :
    Thinned s s' := by
  intro t
  rw [hqueue, Function.update_apply]
  split_ifs with ht
  · exact ht ▸ hids
  · exact List.Subperm.refl _

theorem thinned_pass {availableAmount : ℤ} {o : Option PoolError} (hq : Queued s)
    (hpass : processWithdrawalQueue h signers s token availableAmount = .ok (s', o)) :
    Thinned s s' := by
  cases o with
  | none =>
    rcases processWithdrawalQueue_eq_none hpass with rfl |
      ⟨share, p, st, cash, requests, -, hp, -, rfl⟩
    · exact thinned_of_eq rfl
    · refine thinned_of_update rfl (List.subperm_ext_iff.2 fun x _ => ?_)
      have hle := hp.count_le (hq.positive token) (fun q => q.requestId = x) fun _ _ => Iff.rfl
      rw [sumOver_eq_count, sumOver_eq_count] at hle
      omega
  | some e =>
    rcases processWithdrawalQueue_eq_some hpass with ⟨-, rfl⟩ | ⟨_, _, _, _, _, -, -, -, rfl⟩
    · exact thinned_of_eq rfl
    · exact thinned_of_eq rfl

theorem thinned_repay {payer : Address} {request : RepaymentRequest} (hq : Queued s)
    (hr : repayInvoiceRequest h signers payer s request = .ok s') : Thinned s s' := by
  obtain ⟨q, s₁, history, -, hb, hr⟩ := repayInvoiceRequest_eq_ok hr
  have hqueue := bookRepayment_queue hb
  have hbooked : Thinned s { s₁ with rateHistory := history } := thinned_of_eq hqueue
  have hhistory : Queued { s₁ with rateHistory := history } := hq.of_eq hqueue
  rcases hr with ⟨-, s₂, o, hpass, href⟩ | ⟨-, rfl⟩
  · refine hbooked.trans ((thinned_pass hhistory hpass).trans ?_)
    rcases State.recordReferralActivity_eq_ok href with ⟨_, rfl⟩ | ⟨_, _, _, -, -, -, rfl⟩ <;>
      exact thinned_of_eq rfl
  · exact hbooked

theorem thinned_cancel (hc : cancelWithdrawalRequest signers s investor token = .ok s') :
    Thinned s s' := by
  obtain ⟨_, _, _, -, -, rfl⟩ := cancelWithdrawalRequest_eq_ok hc
  exact thinned_of_update rfl (List.filter_sublist.map _).subperm

theorem thinned_adjust {newShares : ℤ}
    (ha : adjustWithdrawalRequest signers s investor token newShares = .ok s') : Thinned s s' := by
  obtain ⟨idx, request, _, _, -, hget, -, -, -, -, rfl⟩ := adjustWithdrawalRequest_eq_ok ha
  refine thinned_of_update rfl (List.Perm.subperm (List.Perm.of_eq ?_))
  obtain ⟨hlt, rfl⟩ := List.getElem?_eq_some_iff.1 hget
  refine List.ext_getElem (by simp) fun i _ _ => ?_
  rw [List.getElem_map, List.getElem_map, List.getElem_set]
  split_ifs with hi
  · subst hi
    rfl
  · rfl

theorem thinned_exec {tx : Tx h} (hq : Queued s) (hstep : exec h s tx = .ok s')
    (hcall : tx.call.writes.contains .queueCounter = false) : Thinned s s' := by
  by_cases hholding : tx.call.isHolding = false
  · exact thinned_of_eq (exec_holdingsFrame hholding hstep).queue
  obtain ⟨signers, hself, call⟩ := tx
  cases call with
  | deposit investor token amount minRate =>
    obtain ⟨usdc, s₁, s₂, o, -, -, husdc, heff, href, hpass⟩ := deposit_eq_ok hstep
    have hqueue := DepositReaches.queue ⟨usdc, husdc, heff, href⟩
    exact (thinned_of_eq hqueue).trans (thinned_pass (hq.of_eq hqueue) hpass)
  | cancelWithdrawalRequest investor token => exact thinned_cancel hstep
  | adjustWithdrawalRequest investor token newShares => exact thinned_adjust hstep
  | drainWithdrawalQueue caller token =>
    obtain ⟨_, -, hpass⟩ := drainWithdrawalQueue_eq_ok hstep
    exact thinned_pass hq hpass
  | repayInvoice payer request => exact thinned_repay hq (repayInvoice_eq_ok.1 hstep).2
  | repayInvoicesBatch payer requests =>
    have hrepaid := foldlM_invariant (P := fun s₁ => Queued s₁ ∧ Thinned s s₁)
      (fun _ _ _ _ hs hr => ⟨queued_repay hs.1 hr, hs.2.trans (thinned_repay hs.1 hr)⟩)
      ⟨hq, thinned_of_eq rfl⟩ (repayInvoicesBatch_eq_ok hstep).2
    exact hrepaid.2
  | withdrawCoFundingCommitment investor invoiceId =>
    obtain ⟨round, s₁, tt, _, -, -, hrefund, -, rfl⟩ := withdrawCoFundingCommitment_eq_ok hstep
    refine thinned_of_eq ?_
    rw [(credits_of_refundCoFundingInvestor hrefund).rest]
  | withdraw | commitToInvoice | finalizeCoFunding | addToken | marketSettleListing |
  shareTransfer =>
      exact thinned_of_eq (exec_kept .queue rfl hstep)
  | requestWithdrawal => cases hcall
  | _ => exact absurd rfl hholding

end Thinning

/-- The requests of a token have different ids, none above its counter. -/
def Numbered (s : State W) : Prop :=
  ∀ t, ((s.queue t).map WithdrawalRequest.requestId).Nodup ∧
    ∀ r ∈ s.queue t, r.requestId ≤ s.queueCounter t

theorem Numbered.thinned {s s' : State W} (hs : Numbered s) (hthin : Thinned s s')
    (hcounter : s'.queueCounter = s.queueCounter) : Numbered s' := by
  intro t
  obtain ⟨hids, hle⟩ := hs t
  constructor
  · obtain ⟨l, hperm, hsub⟩ := hthin t
    exact hperm.nodup_iff.1 (hids.sublist hsub)
  · intro r hr
    obtain ⟨q, hq, heq⟩ := List.mem_map.1 ((hthin t).subset (List.mem_map_of_mem hr))
    rw [hcounter, ← heq]
    exact hle q hq

theorem numbered_request {shares : ℤ} {r : State W × ℕ} (hs : Numbered s)
    (hr : requestWithdrawal h signers s investor token shares = .ok r) :
    Numbered r.1 := by
  obtain ⟨share, amount, -, hpos, -, -, -, -, ⟨-, hnow⟩ | hqueue⟩ := requestWithdrawal_eq_ok hr
  · obtain ⟨_, _, -, -, -, -, hr⟩ := processImmediateWithdrawal_eq_ok hnow
    rw [hr]
    exact hs
  · obtain ⟨_, requestId, -, hid, hr⟩ := enqueueWithdrawal_eq_ok hpos hqueue
    rw [hr]
    intro t
    obtain ⟨hids, hle⟩ := hs t
    show ((Function.update s.queue token _ t).map _).Nodup ∧
      ∀ r ∈ Function.update s.queue token _ t,
        r.requestId ≤ Function.update s.queueCounter token requestId t
    simp only [Function.update_apply]
    split_ifs with ht
    · subst ht
      constructor
      · rw [List.map_append, List.nodup_append]
        refine ⟨hids, List.nodup_singleton _, ?_⟩
        rintro x hx y hy rfl
        obtain ⟨q, hq, rfl⟩ := List.mem_map.1 hx
        have := hle q hq
        have := List.mem_singleton.1 hy
        dsimp only at this
        omega
      · intro q hq
        rcases List.mem_append.1 hq with hq | hq
        · have := hle q hq
          omega
        · rw [List.mem_singleton.1 hq]
    · exact ⟨hids, hle⟩

/-- In every reachable state the requests of a token hold shares and have different investors and
different ids. -/
theorem queue_of_execAll {now : ℕ} {world : W} {cash : Address → Address → ℤ}
    {shareTokens : Address → ShareToken} {admin token share invoiceContract : Address}
    {txs : List (Tx h)}
    (hrun : execAll h (initialState now world cash shareTokens admin token share invoiceContract) txs = .ok s)
    (t : Address) : (∀ r ∈ s.queue t, 0 < r.shares) ∧
      ((s.queue t).map WithdrawalRequest.investor).Nodup ∧
      ((s.queue t).map WithdrawalRequest.requestId).Nodup := by
  have hs : Queued s ∧ Numbered s := by
    refine foldlM_invariant (P := fun s => Queued s ∧ Numbered s) ?_
      ⟨queued_initial now world cash shareTokens admin token share invoiceContract, ?_⟩ hrun
    · intro s tx s' _ hs hstep
      refine ⟨queued_exec hs.1 hstep, ?_⟩
      by_cases hcall : tx.call.writes.contains .queueCounter = false
      · exact hs.2.thinned (thinned_exec hs.1 hstep hcall) (exec_kept .queueCounter hcall hstep)
      · obtain ⟨signers, hself, call⟩ := tx
        cases call with
        | requestWithdrawal investor token shares =>
          obtain ⟨r, hr, rfl⟩ := (map_eq_ok _ _ _).1 hstep
          exact numbered_request hs.2 hr
        | _ => exact absurd rfl hcall
    · exact fun t => ⟨List.nodup_nil, fun r hr => absurd hr List.not_mem_nil⟩
  exact ⟨hs.1.positive t, nodup_iff_sumOver.2 (hs.1.single t), (hs.2 t).1⟩

theorem queue_of_execAll_two : ∃ s, execAll quietHost sampleState twoQueues = .ok s ∧
    ((s.queue 10).map WithdrawalRequest.requestId).Nodup := by
  obtain ⟨s, hs⟩ := isOk_iff.1
    (show (execAll quietHost sampleState twoQueues).isOk = true by decide)
  exact ⟨s, hs, (queue_of_execAll hs 10).2.2⟩

end Astera.Pool
