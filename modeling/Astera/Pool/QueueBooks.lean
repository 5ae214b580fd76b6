import Astera.Pool.QueuePlan

/-!
# What a pass over the queue does to the books

The payments of a pass move cash and burn shares (`settled_of_foldlM`); by the plan the pool value
falls by what is paid out, which is within what was available, and the shares queued and burned add
up.
-/

namespace Astera.Pool

open Fallible Machine Share

variable {W : Type}
variable {h : Host W} {share token : Address} {signers : List Address}
  {requests : List WithdrawalRequest} {p p' : Plan} {s s' : State W} {r : WithdrawalRequest}
  {availableAmount budget burned cohortShares payout shares totalShares valuation : ℤ}

/-! ## Payments -/

def totalPayout (made : List Payment) : ℤ := (made.map Payment.payout).sum

def totalBurned (made : List Payment) : ℤ := (made.map Payment.burned).sum

def burnedFor (a : Address) (made : List Payment) : ℤ :=
  (made.map fun m => if m.request.investor = a then m.burned else 0).sum

/-- Share contracts and cash after the payments `made`. -/
structure Settled (pool token share : Address) (made : List Payment)
    (st st' : Address → ShareToken) (cash cash' : Address → Address → ℤ) : Prop where
  supply : ∀ sh, (st' sh).totalSupply =
    (st sh).totalSupply - if sh = share then totalBurned made else 0
  balance : ∀ sh a, (st' sh).balance a =
    (st sh).balance a - if sh = share then burnedFor a made else 0
  weighted : ∀ sh (w : Address → ℤ), (∀ a, 0 ≤ w a) →
    (st' sh).balances.total (fun a b => w a * b) ≤ (st sh).balances.total fun a b => w a * b
  cash_self : cash token pool - totalPayout made ≤ cash' token pool
  cash_of_ne : ∀ t, t ≠ token → cash' t pool = cash t pool
  burned_pos : ∀ m ∈ made, 0 < m.burned

theorem pay_eq_ok {m : Payment} (hp : pay h signers token share s m = .ok s') :
    0 < m.burned ∧ m.burned ≤ s.shares share m.request.investor ∧ 0 ≤ m.payout ∧
      m.payout ≤ s.cash token h.self ∧
    ∃ st requests, State.Moved s.shareTokens st share m.request.investor (-m.burned) ∧
      s' = { s with
        shareTokens := st
        cash := State.moveCash s.cash token h.self m.request.investor m.payout
        withdrawalRequests := requests } := by
  unfold pay settleQueuedWithdrawal at hp
  simp only [bind_eq_ok, pure_eq_ok, State.transfer_eq_ok] at hp
  obtain ⟨_, ⟨s₁, hb, h₀, hle, rfl⟩, rfl⟩ := hp
  obtain ⟨hpos, hbal, st, hm, rfl⟩ := State.burn_eq_ok hb
  exact ⟨hpos, hbal, h₀, hle, st, _, hm, rfl⟩

theorem settled_of_foldlM :
    ∀ {made : List Payment} {s s' : State W},
      made.foldlM (pay h signers token share) s = .ok s' →
      ∃ st cash requests, Settled h.self token share made s.shareTokens st s.cash cash ∧
        s' = { s with shareTokens := st, cash := cash, withdrawalRequests := requests } := by
  intro made
  induction made with
  | nil =>
    intro s s' hs
    simp only [List.foldlM_nil, pure_eq_ok] at hs
    subst hs
    exact ⟨s.shareTokens, s.cash, s.withdrawalRequests,
      ⟨by simp [totalBurned], by simp [burnedFor], fun _ _ _ => le_rfl, by simp [totalPayout],
        fun _ _ => rfl, by simp⟩, rfl⟩
  | cons m made ih =>
    intro s s' hs
    rw [List.foldlM_cons, bind_eq_ok] at hs
    obtain ⟨s₁, hm, hs⟩ := hs
    obtain ⟨hpos, -, hnn, -, st, requests, hmoved, rfl⟩ := pay_eq_ok hm
    obtain ⟨st', cash', requests', hset, rfl⟩ := ih hs
    refine ⟨st', cash', requests', ⟨?_, ?_, ?_, ?_, ?_, ?_⟩, rfl⟩
    · intro sh
      rw [hset.supply, hmoved.supply]
      split_ifs with hsh <;> simp [totalBurned]
      ring
    · intro sh a
      rw [hset.balance, hmoved.balance]
      by_cases hsh : sh = share
      · by_cases ha : m.request.investor = a
        · simp [burnedFor, hsh, ha]
          ring
        · simp [burnedFor, hsh, ha, Ne.symm ha]
      · simp [hsh]
    · intro sh w hw
      refine (hset.weighted sh w hw).trans ?_
      have hmw := hmoved.weighted sh w
      have hnonpos : 0 ≤ w m.request.investor * m.burned := mul_nonneg (hw _) hpos.le
      simp only at hmw ⊢
      rw [hmw]
      split_ifs <;> linarith
    · have hc := hset.cash_self
      simp only [State.moveCash_apply, totalPayout, List.map_cons, List.sum_cons] at hc ⊢
      split_ifs at hc <;> simp at hc <;> linarith
    · intro t ht
      rw [hset.cash_of_ne t ht]
      simp [State.moveCash_apply, ht]
    · intro m' hm'
      rcases List.mem_cons.1 hm' with rfl | hm'
      · exact hpos
      · exact hset.burned_pos m' hm'

/-- The payout for a request is at most its part of the budget and at most its value, and the
burned shares are all of them exactly when the whole value is paid. -/
theorem requestPayout_eq_ok
    (hr : requestPayout budget cohortShares valuation totalShares shares = .ok (payout, burned))
    (hpos : 0 < payout) :
    payout ≤ (budget * shares).tdiv cohortShares ∧ 0 < totalShares ∧
    payout ≤ (shares * valuation).tdiv totalShares ∧
    ((payout = (shares * valuation).tdiv totalShares ∧ burned = shares) ∨
      (payout < (shares * valuation).tdiv totalShares ∧
        burned = (payout * shares).tdiv ((shares * valuation).tdiv totalShares))) := by
  unfold requestPayout withdrawalAmount at hr
  simp only [bind_eq_ok, okOr_eq_ok, require_eq_ok, checkedMul_eq_some, checkedDiv_eq_some,
    exists_const] at hr
  obtain ⟨_, ⟨rfl, -⟩, part, ⟨-, rfl, -⟩, value, ⟨hts, _, ⟨rfl, -⟩, -, rfl, -⟩, hr⟩ := hr
  generalize (budget * shares).tdiv cohortShares = part at hr ⊢
  generalize (shares * valuation).tdiv totalShares = value at hr ⊢
  split_ifs at hr with hlt hle heq hle heq <;>
    simp only [pure_eq_ok, Prod.mk.injEq, bind_eq_ok, okOr_eq_ok, checkedMul_eq_some,
      checkedDiv_eq_some] at hr
  · omega
  · obtain ⟨rfl, rfl⟩ := hr
    exact ⟨hlt.le, hts, le_rfl, .inl ⟨rfl, rfl⟩⟩
  · omega
  · omega
  · obtain ⟨rfl, rfl⟩ := hr
    exact ⟨le_rfl, hts, by omega, .inl ⟨heq, rfl⟩⟩
  · obtain ⟨_, ⟨rfl, -⟩, _, ⟨-, rfl, -⟩, rfl, rfl⟩ := hr
    exact ⟨le_rfl, hts, by omega, .inr ⟨by omega, rfl⟩⟩

theorem requestPayout_burned
    (hr : requestPayout budget cohortShares valuation totalShares shares = .ok (payout, burned))
    (hpos : 0 < payout) (hsh : 0 < shares) : 0 ≤ burned ∧ burned ≤ shares := by
  obtain ⟨-, -, hle, ⟨-, rfl⟩ | ⟨hlt, rfl⟩⟩ := requestPayout_eq_ok hr hpos
  · exact ⟨hsh.le, le_rfl⟩
  · have hv : 0 < (shares * valuation).tdiv totalShares := by omega
    have hnn : 0 ≤ payout * shares := mul_nonneg hpos.le hsh.le
    refine ⟨Int.tdiv_nonneg hnn hv.le, tdiv_le_of_le_mul hv hnn ?_⟩
    rw [mul_comm]
    exact mul_le_mul_of_nonneg_left hle hsh.le

theorem requestPayout_value
    (hr : requestPayout budget cohortShares valuation totalShares shares = .ok (payout, burned))
    (hpos : 0 < payout) : payout * totalShares ≤ shares * valuation := by
  obtain ⟨-, hts, hle, -⟩ := requestPayout_eq_ok hr hpos
  exact (mul_le_mul_of_nonneg_right hle hts.le).trans (tdiv_mul_le hts (by omega))

section Plans

variable {valuation totalShares : ℤ}

theorem planAt_eq_ok {α : Type} (made : List Payment) (r : Res α) (a : α) :
    planAt made r = .ok a ↔ r = .ok a := by
  cases r <;> simp [planAt]

theorem planRequest_eq_ok (hp : planRequest valuation totalShares budget cohortShares p r = .ok p') :
    ∃ payout burned,
      requestPayout budget cohortShares valuation totalShares r.shares = .ok (payout, burned) ∧
      ((payout ≤ 0 ∧ p' = { p with remainingQueue := p.remainingQueue ++ [r] }) ∨
        (0 < payout ∧ InI128 (p.poolValue - payout) ∧
          p' = ⟨p.poolValue - payout, p.remainingAmount - payout,
            p.remainingQueue ++ leftover r burned, p.payments ++ [⟨r, payout, burned⟩]⟩)) := by
  unfold planRequest at hp
  simp only [bind_eq_ok, planAt_eq_ok] at hp
  obtain ⟨⟨payout, burned⟩, hr, hp⟩ := hp
  refine ⟨payout, burned, hr, ?_⟩
  split_ifs at hp with hpos
  · exact .inl ⟨hpos, ((pure_eq_ok _ _).1 hp).symm⟩
  · simp only [bind_eq_ok, planAt_eq_ok, okOr_eq_ok, checkedSub_eq_some, pure_eq_ok] at hp
    obtain ⟨_, ⟨rfl, hrange⟩, _, ⟨rfl, -⟩, _, -, rfl⟩ := hp
    exact .inr ⟨by omega, hrange, rfl⟩

theorem planCohorts_invariant {P : Plan → Prop} :
    ∀ {fuel : ℕ} {pending : List WithdrawalRequest} {p p' : Plan},
      (∀ budget cohortShares p r p', r ∈ pending → P p →
        planRequest valuation totalShares budget cohortShares p r = .ok p' → P p') →
      P p → planCohorts valuation totalShares fuel p pending = .ok p' → P p' := by
  intro fuel
  induction fuel with
  | zero =>
    intro pending p p' _ hP hp
    simp only [planCohorts, pure_eq_ok] at hp
    exact hp ▸ hP
  | succ fuel ih =>
    intro pending p p' hstep hP hp
    cases pending with
    | nil =>
      simp only [planCohorts, pure_eq_ok] at hp
      exact hp ▸ hP
    | cons first rest =>
      simp only [planCohorts, bind_eq_ok] at hp
      obtain ⟨cohortShares, -, p₁, hfold, hp⟩ := hp
      have hP₁ : P p₁ := foldlM_invariant
        (fun p r p' hr => hstep _ _ p r p' (List.mem_filter.1 hr).1) hP hfold
      exact ih (fun B C p r p' hr => hstep B C p r p' (List.mem_filter.1 hr).1) hP₁ hp

/-- The figures of a plan for some of the `requests`, at the valuation of the pass. -/
structure Plan.Sound (valuation totalShares poolValue amount : ℤ)
    (requests : List WithdrawalRequest) (p : Plan) : Prop where
  poolValue_eq : p.poolValue = poolValue - totalPayout p.payments
  remainingAmount_eq : p.remainingAmount = amount - totalPayout p.payments
  range : InI128 poolValue → InI128 p.poolValue
  priced : ∀ m ∈ p.payments, m.request ∈ requests ∧ 0 < m.payout ∧ ∃ budget cohortShares,
    requestPayout budget cohortShares valuation totalShares m.request.shares =
      .ok (m.payout, m.burned)
  left : ∀ r ∈ p.remainingQueue, r ∈ requests ∨ ∃ m ∈ p.payments, r ∈ leftover m.request m.burned

theorem totalPayout_append (made : List Payment) (m : Payment) :
    totalPayout (made ++ [m]) = totalPayout made + m.payout := by
  simp [totalPayout]

theorem Plan.Sound.planRequest {poolValue amount budget cohortShares : ℤ}
    (hs : p.Sound valuation totalShares poolValue amount requests) (hr : r ∈ requests)
    (hp : planRequest valuation totalShares budget cohortShares p r = .ok p') :
    p'.Sound valuation totalShares poolValue amount requests := by
  obtain ⟨payout, burned, hpay, ⟨-, rfl⟩ | ⟨hpos, hrange, rfl⟩⟩ := planRequest_eq_ok hp
  · refine ⟨hs.poolValue_eq, hs.remainingAmount_eq, hs.range, hs.priced, ?_⟩
    intro r' hr'
    rcases List.mem_append.1 hr' with hr' | hr'
    · exact hs.left r' hr'
    · exact .inl (List.mem_singleton.1 hr' ▸ hr)
  · refine ⟨?_, ?_, fun _ => hrange, ?_, ?_⟩
    · rw [totalPayout_append, hs.poolValue_eq]
      ring
    · rw [totalPayout_append, hs.remainingAmount_eq]
      ring
    · intro m hm
      rcases List.mem_append.1 hm with hm | hm
      · exact hs.priced m hm
      · rw [List.mem_singleton.1 hm]
        exact ⟨hr, hpos, budget, cohortShares, hpay⟩
    · intro r' hr'
      rcases List.mem_append.1 hr' with hr' | hr'
      · rcases hs.left r' hr' with hr' | ⟨m, hm, hr'⟩
        · exact .inl hr'
        · exact .inr ⟨m, List.mem_append_left _ hm, hr'⟩
      · exact .inr ⟨_, List.mem_append_right _ (List.mem_singleton_self _), hr'⟩

/-! ### Accounting for every request -/

def sumOver (μ : WithdrawalRequest → ℤ) (requests : List WithdrawalRequest) : ℤ :=
  (requests.map μ).sum

theorem sumOver_append (μ : WithdrawalRequest → ℤ) (l l' : List WithdrawalRequest) :
    sumOver μ (l ++ l') = sumOver μ l + sumOver μ l' := by
  simp [sumOver]

theorem sumOver_cons (μ : WithdrawalRequest → ℤ) (r : WithdrawalRequest)
    (l : List WithdrawalRequest) : sumOver μ (r :: l) = μ r + sumOver μ l := by
  simp [sumOver]

theorem sumOver_filter (μ : WithdrawalRequest → ℤ) (q : WithdrawalRequest → Bool) :
    ∀ l, sumOver μ (l.filter q) + sumOver μ (l.filter fun r => !q r) = sumOver μ l
  | [] => rfl
  | r :: l => by
      have ih := sumOver_filter μ q l
      cases hq : q r
      · rw [List.filter_cons_of_neg (by simp [hq]), List.filter_cons_of_pos (by simp [hq]),
          sumOver_cons, sumOver_cons]
        linarith
      · rw [List.filter_cons_of_pos hq, List.filter_cons_of_neg (by simp [hq]), sumOver_cons,
          sumOver_cons]
        linarith

/-- A quantity over the requests a plan has dealt with: what stays queued, and what its payments
took off. -/
def Plan.measure (μ : WithdrawalRequest → ℤ) (p : Plan) : ℤ :=
  sumOver μ p.remainingQueue +
    (p.payments.map fun m => μ m.request - sumOver μ (leftover m.request m.burned)).sum

theorem measure_planRequest (μ : WithdrawalRequest → ℤ)
    (hp : planRequest valuation totalShares budget cohortShares p r = .ok p') :
    p'.measure μ = p.measure μ + μ r := by
  obtain ⟨payout, burned, -, ⟨-, rfl⟩ | ⟨-, -, rfl⟩⟩ := planRequest_eq_ok hp
  · simp only [Plan.measure, sumOver_append, sumOver_cons]
    simp only [sumOver, List.map_nil, List.sum_nil]
    ring
  · simp only [Plan.measure, sumOver_append, List.map_append, List.map_cons, List.map_nil,
      List.sum_append, List.sum_cons, List.sum_nil]
    ring

theorem measure_foldlM_planRequest (μ : WithdrawalRequest → ℤ) :
    ∀ {requests : List WithdrawalRequest} {p p' : Plan},
      requests.foldlM (planRequest valuation totalShares budget cohortShares) p = .ok p' →
      p'.measure μ = p.measure μ + sumOver μ requests := by
  intro requests
  induction requests with
  | nil =>
    intro p p' hp
    simp only [List.foldlM_nil, pure_eq_ok] at hp
    simp [hp, sumOver]
  | cons r requests ih =>
    intro p p' hp
    rw [List.foldlM_cons, bind_eq_ok] at hp
    obtain ⟨p₁, h₁, hp⟩ := hp
    rw [ih hp, measure_planRequest μ h₁, sumOver_cons]
    ring

theorem exists_oldest (first : WithdrawalRequest) (rest : List WithdrawalRequest) :
    ∃ r ∈ first :: rest, r.requestedAt = oldestRequestedAt first rest := by
  unfold oldestRequestedAt
  suffices h : ∀ (l : List WithdrawalRequest) (t : ℕ) (l₀ : List WithdrawalRequest),
      (∃ r ∈ l₀, r.requestedAt = t) →
      ∃ r ∈ l₀ ++ l, r.requestedAt = l.foldl (fun oldest r => min oldest r.requestedAt) t from
    h rest first.requestedAt [first] ⟨first, by simp, rfl⟩
  intro l
  induction l with
  | nil =>
    intro t l₀ h
    simpa using h
  | cons a l ih =>
    intro t l₀ h
    have hmin : ∃ r ∈ l₀ ++ [a], r.requestedAt = min t a.requestedAt := by
      rcases min_cases t a.requestedAt with ⟨heq, -⟩ | ⟨heq, -⟩
      · obtain ⟨r, hr, hrt⟩ := h
        exact ⟨r, List.mem_append_left _ hr, by omega⟩
      · exact ⟨a, by simp, heq.symm⟩
    obtain ⟨r, hr, hrt⟩ := ih (min t a.requestedAt) (l₀ ++ [a]) hmin
    exact ⟨r, by simpa using hr, hrt⟩

theorem length_younger_lt (first : WithdrawalRequest) (rest : List WithdrawalRequest) :
    ((first :: rest).filter fun r => r.requestedAt ≠ oldestRequestedAt first rest).length <
      (first :: rest).length := by
  obtain ⟨r, hr, hold⟩ := exists_oldest first rest
  exact List.length_filter_lt_length_iff_exists.2 ⟨r, hr, by simp [hold]⟩

theorem measure_planCohorts (μ : WithdrawalRequest → ℤ) :
    ∀ {fuel : ℕ} {pending : List WithdrawalRequest} {p p' : Plan}, pending.length ≤ fuel →
      planCohorts valuation totalShares fuel p pending = .ok p' →
      p'.measure μ = p.measure μ + sumOver μ pending := by
  intro fuel
  induction fuel with
  | zero =>
    intro pending p p' hlen hp
    rw [List.length_eq_zero_iff.1 (by omega : pending.length = 0)] at *
    simp only [planCohorts, pure_eq_ok] at hp
    simp [hp, sumOver]
  | succ fuel ih =>
    intro pending p p' hlen hp
    cases pending with
    | nil =>
      simp only [planCohorts, pure_eq_ok] at hp
      simp [hp, sumOver]
    | cons first rest =>
      simp only [planCohorts, bind_eq_ok] at hp
      obtain ⟨cohortShares, -, p₁, hfold, hp⟩ := hp
      have hlt := length_younger_lt first rest
      rw [ih (by omega) hp, measure_foldlM_planRequest μ hfold,
        ← sumOver_filter μ (fun r => r.requestedAt = oldestRequestedAt first rest)
          (first :: rest)]
      simp only [ne_eq, decide_not]
      ring

/-! ### The budget -/

theorem sumShares_eq_ok : ∀ {requests : List WithdrawalRequest} {c : ℤ},
    sumShares requests = .ok c → c = sumOver WithdrawalRequest.shares requests := by
  have h : ∀ (requests : List WithdrawalRequest) (a c : ℤ),
      requests.foldlM (fun acc r => okOr (checkedAdd acc r.shares) overflowErr) a =
        (.ok c : Res ℤ) → c = a + sumOver WithdrawalRequest.shares requests := by
    intro requests
    induction requests with
    | nil =>
      intro a c hc
      simp only [List.foldlM_nil, pure_eq_ok] at hc
      simp [sumOver, hc]
    | cons r requests ih =>
      intro a c hc
      simp only [List.foldlM_cons, bind_eq_ok, okOr_eq_ok, checkedAdd_eq_some] at hc
      obtain ⟨_, ⟨rfl, -⟩, hc⟩ := hc
      rw [ih _ _ hc, sumOver_cons]
      ring
  intro requests c hc
  simpa using h requests 0 c hc

theorem sumOver_shares_nonneg (h : ∀ r ∈ requests, 0 < r.shares) :
    0 ≤ sumOver WithdrawalRequest.shares requests := by
  apply List.sum_nonneg
  intro x hx
  obtain ⟨r, hr, rfl⟩ := List.mem_map.1 hx
  exact (h r hr).le

theorem sumOver_shares_pos (h : ∀ r ∈ requests, 0 < r.shares) (hne : requests ≠ []) :
    0 < sumOver WithdrawalRequest.shares requests := by
  cases requests with
  | nil => exact absurd rfl hne
  | cons r requests =>
    rw [sumOver_cons]
    have h₁ := h r (by simp)
    have h₂ := sumOver_shares_nonneg fun r' hr' => h r' (List.mem_cons_of_mem _ hr')
    omega

theorem budget_foldlM_planRequest (hb : 0 ≤ budget) (hc : 0 < cohortShares) :
    ∀ {requests : List WithdrawalRequest} {p p' : Plan}, (∀ r ∈ requests, 0 < r.shares) →
      requests.foldlM (planRequest valuation totalShares budget cohortShares) p = .ok p' →
      (p.remainingAmount - p'.remainingAmount) * cohortShares ≤
        budget * sumOver WithdrawalRequest.shares requests := by
  intro requests
  induction requests with
  | nil =>
    intro p p' _ hp
    simp only [List.foldlM_nil, pure_eq_ok] at hp
    simp [hp, sumOver]
  | cons r requests ih =>
    intro p p' hsh hp
    rw [List.foldlM_cons, bind_eq_ok] at hp
    obtain ⟨p₁, h₁, hp⟩ := hp
    have hrest := ih (fun r' hr' => hsh r' (List.mem_cons_of_mem _ hr')) hp
    have hr := hsh r (by simp)
    have hone : (p.remainingAmount - p₁.remainingAmount) * cohortShares ≤ budget * r.shares := by
      obtain ⟨payout, burned, hpay, ⟨-, rfl⟩ | ⟨hpos, -, rfl⟩⟩ := planRequest_eq_ok h₁
      · simpa using mul_nonneg hb hr.le
      · obtain ⟨hle, -⟩ := requestPayout_eq_ok hpay hpos
        have := tdiv_mul_le hc (by omega : 0 < (budget * r.shares).tdiv cohortShares)
        calc (p.remainingAmount - (p.remainingAmount - payout)) * cohortShares
            = payout * cohortShares := by ring
          _ ≤ (budget * r.shares).tdiv cohortShares * cohortShares :=
              mul_le_mul_of_nonneg_right hle hc.le
          _ ≤ budget * r.shares := this
    rw [sumOver_cons]
    linarith

theorem remainingAmount_nonneg :
    ∀ {fuel : ℕ} {pending : List WithdrawalRequest} {p p' : Plan},
      (∀ r ∈ pending, 0 < r.shares) → 0 ≤ p.remainingAmount →
      planCohorts valuation totalShares fuel p pending = .ok p' → 0 ≤ p'.remainingAmount := by
  intro fuel
  induction fuel with
  | zero =>
    intro pending p p' _ h₀ hp
    simp only [planCohorts, pure_eq_ok] at hp
    exact hp ▸ h₀
  | succ fuel ih =>
    intro pending p p' hsh h₀ hp
    cases pending with
    | nil =>
      simp only [planCohorts, pure_eq_ok] at hp
      exact hp ▸ h₀
    | cons first rest =>
      simp only [planCohorts, bind_eq_ok] at hp
      obtain ⟨cohortShares, hsum, p₁, hfold, hp⟩ := hp
      have hsum' := sumShares_eq_ok ((planAt_eq_ok _ _ _).1 hsum)
      have hcohort : ∀ r ∈ (first :: rest).filter
          (fun r => r.requestedAt = oldestRequestedAt first rest), 0 < r.shares :=
        fun r hr => hsh r (List.mem_filter.1 hr).1
      have hne : (first :: rest).filter
          (fun r => r.requestedAt = oldestRequestedAt first rest) ≠ [] := by
        obtain ⟨r, hr, hold⟩ := exists_oldest first rest
        exact List.ne_nil_of_mem (List.mem_filter.2 ⟨hr, by simp [hold]⟩)
      have hc : 0 < cohortShares := hsum' ▸ sumOver_shares_pos hcohort hne
      have hbudget := budget_foldlM_planRequest h₀ hc hcohort hfold
      rw [← hsum'] at hbudget
      have h₁ : 0 ≤ p₁.remainingAmount := by
        have := le_of_mul_le_mul_right hbudget hc
        omega
      exact ih (fun r hr => hsh r (List.mem_filter.1 hr).1) h₁ hp

end Plans

theorem splitQueue_eq_ok {maxAgeSecs now : ℕ} {queue pending regular : List WithdrawalRequest}
    (h : splitQueue maxAgeSecs now queue = .ok (pending, regular)) :
    (∀ r ∈ pending, r ∈ queue) ∧ (∀ r ∈ regular, r ∈ queue) ∧
    ((∀ r ∈ queue, 0 < r.shares) → ∀ μ, sumOver μ pending + sumOver μ regular = sumOver μ queue) := by
  unfold splitQueue at h
  simp only [bind_eq_ok] at h
  obtain ⟨due, hdue, h⟩ := h
  split_ifs at h with hzero
  · simp only [bind_eq_ok, pure_eq_ok, Prod.mk.injEq] at h
    obtain ⟨-, -, rfl, rfl⟩ := h
    refine ⟨fun r hr => (List.mem_filter.1 hr).1, by simp, fun hpos μ => ?_⟩
    -- no aged request holds shares, so there is no aged request
    have haged : queue.filter (isAged maxAgeSecs now) = [] := by
      by_contra hne
      have := sumOver_shares_pos (fun r hr => hpos r (List.mem_filter.1 hr).1) hne
      have := sumShares_eq_ok hdue
      omega
    have := sumOver_filter μ (isAged maxAgeSecs now) queue
    rw [haged] at this
    simp only [sumOver, List.map_nil, List.sum_nil] at this ⊢
    linarith
  · simp only [pure_eq_ok, Prod.mk.injEq] at h
    obtain ⟨rfl, rfl⟩ := h
    exact ⟨fun r hr => (List.mem_filter.1 hr).1, fun r hr => (List.mem_filter.1 hr).1,
      fun _ μ => sumOver_filter μ _ queue⟩

structure PassSound (s : State W) (token share : Address) (availableAmount : ℤ) (p : Plan) :
    Prop where
  registered : s.shareToken token = some share
  supply_pos : 0 < s.supply share
  amount : ∃ amount, amount ≤ availableAmount ∧
    amount ≤ (s.tt token).poolValue - (s.tt token).totalDeployed ∧
    p.Sound (s.tt token).poolValue (s.supply share) (s.tt token).poolValue amount (s.queue token) ∧
    ((∀ r ∈ s.queue token, 0 < r.shares) → 0 ≤ p.remainingAmount)
  measure : (∀ r ∈ s.queue token, 0 < r.shares) →
    ∀ μ, p.measure μ = sumOver μ (s.queue token)

theorem planPass_eq_ok (h : planPass s token availableAmount = .ok (some (share, p))) :
    PassSound s token share availableAmount p := by
  unfold planPass at h
  split_ifs at h with hq
  · cases (pure_eq_ok _ _).1 h
  simp only [bind_eq_ok, planAt_eq_ok, availableLiquidity, okOr_eq_ok, checkedSub_eq_some] at h
  obtain ⟨liquid, ⟨rfl, -⟩, h⟩ := h
  set amount := if availableAmount < (s.tt token).poolValue - (s.tt token).totalDeployed then
    availableAmount else (s.tt token).poolValue - (s.tt token).totalDeployed with hamount
  have hle : amount ≤ availableAmount ∧
      amount ≤ (s.tt token).poolValue - (s.tt token).totalDeployed := by
    rw [hamount]
    split_ifs <;> omega
  clear_value amount
  split_ifs at h with hnonpos
  · cases (pure_eq_ok _ _).1 h
  simp only [bind_eq_ok, planAt_eq_ok, State.shareTokenOf, okOr_eq_ok] at h
  obtain ⟨share', hshare, h⟩ := h
  split_ifs at h with hsupply
  · cases (pure_eq_ok _ _).1 h
  simp only [bind_eq_ok, pure_eq_ok, Option.some.injEq, Prod.mk.injEq] at h
  obtain ⟨p', hplan, rfl, rfl⟩ := h
  unfold planQueue at hplan
  simp only [bind_eq_ok, planAt_eq_ok, pure_eq_ok] at hplan
  obtain ⟨⟨pending, regular⟩, hsplit, p₁, hcohorts, rfl⟩ := hplan
  obtain ⟨hpend, hreg, hsum⟩ := splitQueue_eq_ok hsplit
  have hstart : (⟨(s.tt token).poolValue, amount, [], []⟩ : Plan).Sound (s.tt token).poolValue
      (s.supply share') (s.tt token).poolValue amount (s.queue token) :=
    ⟨by simp [totalPayout], by simp [totalPayout], id, by simp, by simp⟩
  have hsound := planCohorts_invariant
    (fun _ _ _ r _ hr hs hp => Plan.Sound.planRequest hs (hpend r hr) hp) hstart hcohorts
  refine ⟨hshare, by omega, ⟨amount, hle.1, hle.2, ⟨hsound.poolValue_eq, hsound.remainingAmount_eq,
    hsound.range, hsound.priced, ?_⟩, ?_⟩, ?_⟩
  · intro r hr
    rcases List.mem_append.1 hr with hr | hr
    · exact hsound.left r hr
    · exact .inl (hreg r hr)
  · intro hpos
    have h₀ : (0 : ℤ) ≤ (⟨(s.tt token).poolValue, amount, [], []⟩ : Plan).remainingAmount := by
      show 0 ≤ amount
      omega
    change 0 ≤ p₁.remainingAmount
    exact remainingAmount_nonneg (fun r hr => hpos r (hpend r hr)) h₀ hcohorts
  · intro hpos μ
    have hm := measure_planCohorts μ le_rfl hcohorts
    rw [← hsum hpos μ]
    simp only [Plan.measure, sumOver_append] at hm ⊢
    simp only [sumOver, List.map_nil, List.sum_nil] at hm ⊢
    linarith

theorem PassSound.positive (hs : PassSound s token share availableAmount p)
    (hpos : ∀ r ∈ s.queue token, 0 < r.shares) :
    ∀ r ∈ p.remainingQueue, 0 < r.shares := by
  obtain ⟨amount, -, -, hp, -⟩ := hs.amount
  intro r hr
  rcases hp.left r hr with hr | ⟨m, hm, hr⟩
  · exact hpos r hr
  · obtain ⟨hmem, hpay, _, _, hprice⟩ := hp.priced m hm
    have hburned := requestPayout_burned hprice hpay (hpos _ hmem)
    unfold leftover at hr
    split_ifs at hr with hall
    · cases hr
    · rw [List.mem_singleton.1 hr]
      show 0 < m.request.shares - m.burned
      omega

theorem totalPayout_nonneg {made : List Payment} (h : ∀ m ∈ made, 0 < m.payout) :
    0 ≤ totalPayout made := by
  apply List.sum_nonneg
  intro x hx
  obtain ⟨m, hm, rfl⟩ := List.mem_map.1 hx
  exact (h m hm).le

theorem processWithdrawalQueue_eq_none
    (hq : processWithdrawalQueue h signers s token availableAmount = .ok (s', none)) :
    s' = s ∨ ∃ share p st cash requests,
      planPass s token availableAmount = .ok (some (share, p)) ∧
      PassSound s token share availableAmount p ∧
      Settled h.self token share p.payments s.shareTokens st s.cash cash ∧
      s' = { s with
        shareTokens := st
        cash := cash
        withdrawalRequests := requests
        queue := Function.update s.queue token p.remainingQueue
        totals := Function.update s.totals token
          (some { s.tt token with poolValue := p.poolValue }) } := by
  have hf := queuePass_follows h signers s token availableAmount
  unfold processWithdrawalQueue at hq
  split at hq
  · rename_i s₁ hpass
    obtain rfl : s₁ = s' := (Prod.mk.inj (Except.ok.inj hq)).1
    rw [hpass] at hf
    rcases hf with ⟨-, rfl⟩ | ⟨share, p, s₁, hplan, -, hpaid, rfl⟩
    · exact .inl rfl
    · obtain ⟨st, cash, requests, hset, rfl⟩ := settled_of_foldlM hpaid
      exact .inr ⟨share, p, st, cash, requests, hplan, planPass_eq_ok hplan, hset, rfl⟩
  · cases (Prod.mk.inj (Except.ok.inj hq)).2
  · cases hq

theorem processWithdrawalQueue_eq_some {e : PoolError}
    (hq : processWithdrawalQueue h signers s token availableAmount = .ok (s', some e)) :
    (planPass s token availableAmount = .error (.err e, []) ∧ s' = s) ∨
    ∃ share made st cash requests, planPass s token availableAmount = .error (.err e, made) ∧
      s.shareToken token = some share ∧
      Settled h.self token share made s.shareTokens st s.cash cash ∧
      s' = { s with shareTokens := st, cash := cash, withdrawalRequests := requests } := by
  have hf := queuePass_follows h signers s token availableAmount
  unfold processWithdrawalQueue at hq
  split at hq
  · cases (Prod.mk.inj (Except.ok.inj hq)).2
  · rename_i e' s₁ hpass
    obtain ⟨rfl, he⟩ := Prod.mk.inj (Except.ok.inj hq)
    obtain rfl : e' = e := Option.some.inj he
    rw [hpass] at hf
    rcases hf with ⟨hplan, rfl⟩ | ⟨share, made, hplan, hshare, s₂, requests, hpaid, rfl⟩
    · exact .inl ⟨hplan, rfl⟩
    · obtain ⟨st, cash, requests', hset, rfl⟩ := settled_of_foldlM hpaid
      exact .inr ⟨share, made, st, cash, requests, hplan, hshare, hset, rfl⟩
  · cases hq

/-- The pass does not stop with an error after a payment. -/
def CleanPass (s : State W) (token : Address) (availableAmount : ℤ) : Prop :=
  ∀ e made, planPass s token availableAmount = .error (.err e, made) → made = []

theorem cleanPass_of_empty (availableAmount : ℤ) (hempty : s.queue token = []) :
    CleanPass s token availableAmount := by
  intro e made hplan
  unfold planPass at hplan
  rw [if_pos hempty] at hplan
  cases hplan

/-- Whatever way a pass ends, it touches nothing but shares, cash, the queue and the pool value, and
it only burns shares. -/
structure PassFrame (s s' : State W) : Prop where
  rest : s' = { s with
    shareTokens := s'.shareTokens
    cash := s'.cash
    withdrawalRequests := s'.withdrawalRequests
    queue := s'.queue
    totals := s'.totals }
  tt : ∀ t, s'.tt t = { s.tt t with poolValue := (s'.tt t).poolValue }
  registered : ∀ t, s'.totals t = none → s.totals t = none
  weighted : ∀ sh (w : Address → ℤ), (∀ a, 0 ≤ w a) →
    (s'.shareTokens sh).balances.total (fun a b => w a * b) ≤
      (s.shareTokens sh).balances.total fun a b => w a * b

theorem PassFrame.refl (s : State W) : PassFrame s s :=
  ⟨rfl, fun _ => rfl, fun _ => id, fun _ _ _ => le_rfl⟩

theorem processWithdrawalQueue_frame {o : Option PoolError}
    (hq : processWithdrawalQueue h signers s token availableAmount = .ok (s', o)) :
    PassFrame s s' := by
  cases o with
  | none =>
    rcases processWithdrawalQueue_eq_none hq with rfl |
      ⟨share, p, st, cash, requests, -, -, hset, rfl⟩
    · exact PassFrame.refl _
    · refine ⟨rfl, fun t => ?_, fun t => ?_, hset.weighted⟩
      · by_cases ht : t = token
        · subst ht
          simp [State.tt]
        · simp [State.tt, ht]
      · by_cases ht : t = token
        · subst ht
          simp
        · simp [ht]
  | some e =>
    rcases processWithdrawalQueue_eq_some hq with ⟨-, rfl⟩ |
      ⟨share, made, st, cash, requests, -, -, hset, rfl⟩
    · exact PassFrame.refl _
    · exact ⟨rfl, fun _ => rfl, fun _ => id, hset.weighted⟩

end Astera.Pool
