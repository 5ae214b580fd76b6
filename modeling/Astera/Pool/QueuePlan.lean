import Astera.Pool.Queue

/-!
# The plan behind a pass over the queue

`planPass` computes which requests a pass pays, how much and for how many shares, from the queue,
the pool value and the supply at its start.  By `queuePass_follows` the pass makes exactly the
planned payments, in order, up to the first one that traps.
-/

namespace Astera.Pool

open Fallible Machine Share

variable {W : Type}

/-- A payment to a queued investor and the shares burned for it. -/
structure Payment where
  request : WithdrawalRequest
  payout : ℤ
  burned : ℤ
  deriving DecidableEq, Repr

/-- The figures of a pass: what is left of the pool value and of the amount to pay out, the requests
that stay queued, and the payments made. -/
structure Plan where
  poolValue : ℤ
  remainingAmount : ℤ
  remainingQueue : List WithdrawalRequest
  payments : List Payment
  deriving DecidableEq, Repr

/-- Why a plan ended early, and the payments made by then. -/
abbrev Stop := Fault × List Payment

/-- A fallible computation after the payments `made`. -/
def planAt {α : Type} (made : List Payment) : Res α → Except Stop α
  | .ok a => .ok a
  | .error f => .error (f, made)

def planRequest (valuation totalShares budget cohortShares : ℤ) (p : Plan)
    (request : WithdrawalRequest) : Except Stop Plan := do
  let (payout, burned) ← planAt p.payments
    (requestPayout budget cohortShares valuation totalShares request.shares)
  if payout ≤ 0 then return { p with remainingQueue := p.remainingQueue ++ [request] }
  else
    let payments := p.payments ++ [⟨request, payout, burned⟩]
    let poolValue ← planAt payments (okOr (checkedSub p.poolValue payout) overflowErr)
    let remainingAmount ← planAt payments (okOr (checkedSub p.remainingAmount payout) overflowErr)
    let _ ← planAt payments (okOr (checkedSub request.shares burned) overflowErr)
    return ⟨poolValue, remainingAmount, p.remainingQueue ++ leftover request burned, payments⟩

def planCohorts (valuation totalShares : ℤ) :
    ℕ → Plan → List WithdrawalRequest → Except Stop Plan
  | fuel + 1, p, first :: rest => do
      let oldest := oldestRequestedAt first rest
      let cohort := (first :: rest).filter fun r => r.requestedAt = oldest
      let younger := (first :: rest).filter fun r => r.requestedAt ≠ oldest
      let cohortShares ← planAt p.payments (sumShares cohort)
      let p ← cohort.foldlM (planRequest valuation totalShares p.remainingAmount cohortShares) p
      planCohorts valuation totalShares fuel p younger
  | _, p, _ => return p

def planQueue (s : State W) (token share : Address) (remainingAmount : ℤ) : Except Stop Plan := do
  let maxAgeSecs := s.params.config.maxWithdrawalQueueAgeDays * secsPerDay
  let (pending, regular) ← planAt [] (splitQueue maxAgeSecs s.now (s.queue token))
  let p ← planCohorts (s.tt token).poolValue (s.supply share) pending.length
    ⟨(s.tt token).poolValue, remainingAmount, [], []⟩ pending
  return { p with remainingQueue := p.remainingQueue ++ regular }

/-- The figures of `queuePass`, with the share contract; nothing when the pass ends at once. -/
def planPass (s : State W) (token : Address) (availableAmount : ℤ) :
    Except Stop (Option (Address × Plan)) := do
  if s.queue token = [] then return none
  else
    let liquid ← planAt [] (availableLiquidity (s.tt token))
    let remainingAmount := if availableAmount < liquid then availableAmount else liquid
    if remainingAmount ≤ 0 then return none
    else
      let share ← planAt [] (s.shareTokenOf token)
      if s.supply share ≤ 0 then return none
      else
        let p ← planQueue s token share remainingAmount
        return some (share, p)

def pay (h : Host W) (signers : List Address) (token share : Address) (s : State W) (m : Payment) :
    Res (State W) := do
  let s ← settleQueuedWithdrawal h signers s token share m.request m.burned m.payout
  return { s with
    withdrawalRequests := set₂ s.withdrawalRequests m.request.investor m.request.requestId
      (leftover m.request m.burned).head? }

/-- The payments of a plan, or those made before it ended early. -/
def paymentsOf : Except Stop Plan → List Payment
  | .ok p => p.payments
  | .error (_, made) => made

section Follows

variable (h : Host W) (signers : List Address) (token share : Address) (s₀ : State W)

/-- `s` is what the payments `made` leave of `s₀`, up to the mirrored requests. -/
def Reached (made : List Payment) (s : State W) : Prop :=
  ∃ s' requests, made.foldlM (pay h signers token share) s₀ = .ok s' ∧
    s = { s' with withdrawalRequests := requests }

/-- The variables of the pass agree with the figures of the plan. -/
structure Agrees (d : Drain W) (p : Plan) : Prop where
  paid : p.payments.foldlM (pay h signers token share) s₀ = .ok d.state
  tt : d.tt = { s₀.tt token with poolValue := p.poolValue }
  remainingAmount : d.remainingAmount = p.remainingAmount
  remainingQueue : d.remainingQueue = p.remainingQueue

/-- A part of the pass follows a part of the plan: it ends as the plan does, with the planned
payments made, or one of the planned payments traps. -/
def Follows (x : Except (Halt W) (Drain W)) (y : Except Stop Plan) : Prop :=
  match x with
  | .ok d => ∃ p, y = .ok p ∧ Agrees h signers token share s₀ d p
  | .error (.err e s) => ∃ made, y = .error (.err e, made) ∧ Reached h signers token share s₀ made s
  | .error (.trap t) => (∃ made, y = .error (.trap t, made)) ∨
      ∃ made, made <+: paymentsOf y ∧ made.foldlM (pay h signers token share) s₀ = .error (.trap t)

variable {h signers token share s₀}

theorem Agrees.reached {d : Drain W} {p : Plan} (ha : Agrees h signers token share s₀ d p) :
    Reached h signers token share s₀ p.payments d.state :=
  ⟨d.state, d.state.withdrawalRequests, ha.paid, rfl⟩

theorem Follows.bind {x : Except (Halt W) (Drain W)} {y : Except Stop Plan}
    {f : Drain W → Except (Halt W) (Drain W)} {g : Plan → Except Stop Plan}
    (hxy : Follows h signers token share s₀ x y)
    (hfg : ∀ d p, Agrees h signers token share s₀ d p →
      Follows h signers token share s₀ (f d) (g p))
    (hg : ∀ p, p.payments <+: paymentsOf (g p)) :
    Follows h signers token share s₀ (x >>= f) (y >>= g) := by
  rcases x with (t | ⟨e, s⟩) | d
  · rcases hxy with ⟨made, rfl⟩ | ⟨made, hpre, htrap⟩
    · exact .inl ⟨made, rfl⟩
    · refine .inr ⟨made, ?_, htrap⟩
      rcases y with stop | p
      · exact hpre
      · exact hpre.trans (hg p)
  · obtain ⟨made, rfl, hreach⟩ := hxy
    exact ⟨made, rfl, hreach⟩
  · obtain ⟨p, rfl, ha⟩ := hxy
    exact hfg d p ha

theorem follows_haltAt {α : Type} {s : State W} {made : List Payment}
    (hreach : Reached h signers token share s₀ made s) (r : Res α)
    {f : α → Except (Halt W) (Drain W)} {g : α → Except Stop Plan}
    (hfg : ∀ a, r = .ok a → Follows h signers token share s₀ (f a) (g a)) :
    Follows h signers token share s₀ (haltAt s r >>= f) (planAt made r >>= g) := by
  rcases r with (e | t) | a
  · exact ⟨made, rfl, hreach⟩
  · exact .inl ⟨made, rfl⟩
  · exact hfg a rfl

end Follows

/-! ### Plans only add payments -/

theorem prefix_bind_planAt {α : Type} {made made' : List Payment} {r : Res α}
    {g : α → Except Stop Plan} (hm : made <+: made') (hg : ∀ a, made <+: paymentsOf (g a)) :
    made <+: paymentsOf (planAt made' r >>= g) := by
  rcases r with f | a
  · exact hm
  · exact hg a

theorem prefix_bind {made : List Payment} {y : Except Stop Plan} {g : Plan → Except Stop Plan}
    (hy : made <+: paymentsOf y) (hg : ∀ p, p.payments <+: paymentsOf (g p)) :
    made <+: paymentsOf (y >>= g) := by
  rcases y with stop | p
  · exact hy
  · exact hy.trans (hg p)

theorem prefix_planRequest (valuation totalShares budget cohortShares : ℤ) (p : Plan)
    (request : WithdrawalRequest) :
    p.payments <+: paymentsOf (planRequest valuation totalShares budget cohortShares p request) := by
  unfold planRequest
  refine prefix_bind_planAt (List.prefix_refl _) ?_
  rintro ⟨payout, burned⟩
  dsimp only
  split_ifs
  · exact List.prefix_refl _
  · have hpre := List.prefix_append p.payments [⟨request, payout, burned⟩]
    exact prefix_bind_planAt hpre fun _ => prefix_bind_planAt hpre fun _ =>
      prefix_bind_planAt hpre fun _ => hpre

theorem prefix_foldlM_planRequest (valuation totalShares budget cohortShares : ℤ) :
    ∀ (requests : List WithdrawalRequest) (p : Plan), p.payments <+:
      paymentsOf (requests.foldlM (planRequest valuation totalShares budget cohortShares) p) := by
  intro requests
  induction requests with
  | nil => exact fun p => List.prefix_refl _
  | cons r requests ih =>
    intro p
    rw [List.foldlM_cons]
    exact prefix_bind (prefix_planRequest _ _ _ _ p r) ih

theorem prefix_planCohorts (valuation totalShares : ℤ) :
    ∀ (fuel : ℕ) (p : Plan) (pending : List WithdrawalRequest),
      p.payments <+: paymentsOf (planCohorts valuation totalShares fuel p pending) := by
  intro fuel
  induction fuel with
  | zero => exact fun p pending => List.prefix_refl _
  | succ fuel ih =>
    intro p pending
    cases pending with
    | nil => exact List.prefix_refl _
    | cons first rest =>
      unfold planCohorts
      refine prefix_bind_planAt (List.prefix_refl _) fun cohortShares => ?_
      exact prefix_bind (prefix_foldlM_planRequest _ _ _ _ _ p) fun p' => ih p' _

/-! ### The simulation -/

section Simulation

variable {h : Host W} {signers : List Address} {token share : Address} {s₀ : State W}

theorem settleQueuedWithdrawal_ne_err (s : State W) (request : WithdrawalRequest)
    (burned amount : ℤ) (e : PoolError) :
    settleQueuedWithdrawal h signers s token share request burned amount ≠ .error (.err e) := by
  unfold settleQueuedWithdrawal
  rw [ne_eq, bind_eq_error]
  rintro (hb | ⟨s', -, ht⟩)
  · unfold State.burn at hb
    split at hb <;> cases hb
  · unfold State.transfer at ht
    rw [bind_eq_error, require_eq_error] at ht
    rcases ht with ⟨-, ht⟩ | ⟨_, -, ht⟩ <;> cases ht

theorem pay_of_settle {s s' : State W} {m : Payment}
    (hs : settleQueuedWithdrawal h signers s token share m.request m.burned m.payout = .ok s') :
    pay h signers token share s m = .ok { s' with
      withdrawalRequests := set₂ s'.withdrawalRequests m.request.investor m.request.requestId
        (leftover m.request m.burned).head? } := by
  unfold pay
  rw [hs]
  rfl

theorem foldlM_pay_append {made : List Payment} {s : State W} (m : Payment)
    (hs : made.foldlM (pay h signers token share) s₀ = .ok s) :
    (made ++ [m]).foldlM (pay h signers token share) s₀ = pay h signers token share s m := by
  rw [List.foldlM_append, hs]
  change ([m].foldlM (pay h signers token share) s) = _
  rw [List.foldlM_cons]
  cases pay h signers token share s m <;> rfl

theorem settleRequest_follows (valuation totalShares budget cohortShares : ℤ) {d : Drain W}
    {p : Plan} (ha : Agrees h signers token share s₀ d p) (request : WithdrawalRequest) :
    Follows h signers token share s₀
      (settleRequest h signers token share valuation totalShares budget cohortShares d request)
      (planRequest valuation totalShares budget cohortShares p request) := by
  unfold settleRequest planRequest
  refine follows_haltAt ha.reached _ ?_
  rintro ⟨payout, burned⟩ -
  dsimp only
  by_cases hpos : payout ≤ 0
  · rw [if_pos hpos, if_pos hpos]
    exact ⟨_, rfl, ha.paid, ha.tt, ha.remainingAmount, by rw [ha.remainingQueue]⟩
  · rw [if_neg hpos, if_neg hpos]
    have hmade := foldlM_pay_append ⟨request, payout, burned⟩ ha.paid
    rcases hs : settleQueuedWithdrawal h signers d.state token share request burned payout with
      (e | t) | s
    · exact absurd hs (settleQueuedWithdrawal_ne_err _ _ _ _ e)
    · -- the payment traps: the plan goes on, and the payment is in it
      refine .inr ⟨p.payments ++ [⟨request, payout, burned⟩], ?_, ?_⟩
      · exact prefix_bind_planAt (List.prefix_refl _) fun _ =>
          prefix_bind_planAt (List.prefix_refl _) fun _ =>
            prefix_bind_planAt (List.prefix_refl _) fun _ => List.prefix_refl _
      · rw [hmade]
        unfold pay
        rw [hs]
        rfl
    · have hpaid := hmade.trans (pay_of_settle (m := ⟨request, payout, burned⟩) hs)
      have hreach : Reached h signers token share s₀ (p.payments ++ [⟨request, payout, burned⟩]) s :=
        ⟨_, s.withdrawalRequests, hpaid, rfl⟩
      change Follows h signers token share s₀ (haltAt s _ >>= _) _
      rw [ha.tt, ha.remainingAmount, ha.remainingQueue]
      refine follows_haltAt hreach _ fun poolValue _ => ?_
      refine follows_haltAt hreach _ fun remainingAmount _ => ?_
      refine follows_haltAt hreach _ fun _ _ => ?_
      exact ⟨_, rfl, hpaid, rfl, rfl, rfl⟩

theorem foldlM_settleRequest_follows (valuation totalShares budget cohortShares : ℤ) :
    ∀ (requests : List WithdrawalRequest) {d : Drain W} {p : Plan},
      Agrees h signers token share s₀ d p →
      Follows h signers token share s₀
        (requests.foldlM
          (settleRequest h signers token share valuation totalShares budget cohortShares) d)
        (requests.foldlM (planRequest valuation totalShares budget cohortShares) p) := by
  intro requests
  induction requests with
  | nil => exact fun ha => ⟨_, rfl, ha⟩
  | cons r requests ih =>
    intro d p ha
    rw [List.foldlM_cons, List.foldlM_cons]
    exact (settleRequest_follows _ _ _ _ ha r).bind (fun _ _ => ih)
      (prefix_foldlM_planRequest _ _ _ _ requests)

theorem drainCohorts_follows (valuation totalShares : ℤ) :
    ∀ (fuel : ℕ) (pending : List WithdrawalRequest) {d : Drain W} {p : Plan},
      Agrees h signers token share s₀ d p →
      Follows h signers token share s₀
        (drainCohorts h signers token share valuation totalShares fuel d pending)
        (planCohorts valuation totalShares fuel p pending) := by
  intro fuel
  induction fuel with
  | zero => exact fun pending d p ha => ⟨_, rfl, ha⟩
  | succ fuel ih =>
    intro pending d p ha
    cases pending with
    | nil => exact ⟨_, rfl, ha⟩
    | cons first rest =>
      unfold drainCohorts planCohorts
      refine follows_haltAt ha.reached _ fun cohortShares _ => ?_
      rw [ha.remainingAmount]
      exact (foldlM_settleRequest_follows _ _ _ _ _ ha).bind (fun _ _ => ih _)
        fun p' => prefix_planCohorts _ _ _ p' _

def passPayments : Except Stop (Option (Address × Plan)) → List Payment
  | .ok none => []
  | .ok (some (_, p)) => p.payments
  | .error (_, made) => made

/-- The state a completed pass leaves, after its payments left `s`. -/
def closePass (s : State W) (token : Address) (tt : PoolTokenTotals) (p : Plan) : State W :=
  { s with
    queue := Function.update s.queue token p.remainingQueue
    totals := Function.update s.totals token (some { tt with poolValue := p.poolValue }) }

def PassFollows (h : Host W) (signers : List Address) (s : State W) (token : Address)
    (x : Except (Halt W) (State W)) (y : Except Stop (Option (Address × Plan))) : Prop :=
  match x with
  | .ok s' => (y = .ok none ∧ s' = s) ∨ ∃ share p s₁, y = .ok (some (share, p)) ∧
      s.shareToken token = some share ∧
      p.payments.foldlM (pay h signers token share) s = .ok s₁ ∧
      s' = closePass s₁ token (s.tt token) p
  | .error (.err e s') => (y = .error (.err e, []) ∧ s' = s) ∨ ∃ share made,
      y = .error (.err e, made) ∧ s.shareToken token = some share ∧
      Reached h signers token share s made s'
  | .error (.trap t) => (∃ made, y = .error (.trap t, made)) ∨ ∃ share made,
      s.shareToken token = some share ∧ made <+: passPayments y ∧
      made.foldlM (pay h signers token share) s = .error (.trap t)

theorem drainQueue_follows (h : Host W) (signers : List Address) (s : State W)
    (token share : Address) (remainingAmount : ℤ) :
    match drainQueue h signers s token share remainingAmount with
    | .ok s' => ∃ p s₁, planQueue s token share remainingAmount = .ok p ∧
        p.payments.foldlM (pay h signers token share) s = .ok s₁ ∧
        s' = closePass s₁ token (s.tt token) p
    | .error (.err e s') => ∃ made, planQueue s token share remainingAmount = .error (.err e, made) ∧
        Reached h signers token share s made s'
    | .error (.trap t) =>
      (∃ made, planQueue s token share remainingAmount = .error (.trap t, made)) ∨
      ∃ made, made <+: paymentsOf (planQueue s token share remainingAmount) ∧
        made.foldlM (pay h signers token share) s = .error (.trap t) := by
  unfold drainQueue planQueue
  dsimp only
  rcases splitQueue (s.params.config.maxWithdrawalQueueAgeDays * secsPerDay) s.now (s.queue token)
    with (e | t) | ⟨pending, regular⟩
  · exact ⟨[], rfl, s, s.withdrawalRequests, rfl, rfl⟩
  · exact .inl ⟨[], rfl⟩
  · have ha : Agrees h signers token share s ⟨s, s.tt token, remainingAmount, []⟩
        ⟨(s.tt token).poolValue, remainingAmount, [], []⟩ := ⟨rfl, rfl, rfl, rfl⟩
    have hf := drainCohorts_follows (s.tt token).poolValue (s.supply share) pending.length pending ha
    have hstart : ∀ {α β : Type} (a : α) (f : α → Except (Halt W) β),
        (haltAt s (.ok a : Res α) >>= f) = f a := fun _ _ => rfl
    have hplan : ∀ {α β : Type} (a : α) (f : α → Except Stop β),
        (planAt [] (.ok a : Res α) >>= f) = f a := fun _ _ => rfl
    rw [hstart, hplan]
    dsimp only
    generalize drainCohorts h signers token share (s.tt token).poolValue (s.supply share)
      pending.length ⟨s, s.tt token, remainingAmount, []⟩ pending = x at hf ⊢
    generalize planCohorts (s.tt token).poolValue (s.supply share) pending.length
      ⟨(s.tt token).poolValue, remainingAmount, [], []⟩ pending = y at hf ⊢
    rcases x with (t | ⟨e, s'⟩) | d
    · rcases hf with ⟨made, rfl⟩ | ⟨made, hpre, htrap⟩
      · exact .inl ⟨made, rfl⟩
      · refine .inr ⟨made, ?_, htrap⟩
        rcases y with stop | p
        · exact hpre
        · exact hpre
    · obtain ⟨made, rfl, hreach⟩ := hf
      exact ⟨made, rfl, hreach⟩
    · obtain ⟨p, rfl, hp⟩ := hf
      refine ⟨_, d.state, rfl, hp.paid, ?_⟩
      simp only [closePass, hp.tt, hp.remainingQueue]

theorem queuePass_follows (h : Host W) (signers : List Address) (s : State W) (token : Address)
    (availableAmount : ℤ) :
    PassFollows h signers s token (queuePass h signers s token availableAmount)
      (planPass s token availableAmount) := by
  unfold queuePass planPass
  by_cases hq : s.queue token = []
  · simp only [if_pos hq]
    exact .inl ⟨rfl, rfl⟩
  simp only [if_neg hq]
  rcases availableLiquidity (s.tt token) with (e | t) | liquid
  · exact .inl ⟨rfl, rfl⟩
  · exact .inl ⟨[], rfl⟩
  have hstart : ∀ {α β : Type} (a : α) (f : α → Except (Halt W) β),
      (haltAt s (.ok a : Res α) >>= f) = f a := fun _ _ => rfl
  have hplan : ∀ {α β : Type} (a : α) (f : α → Except Stop β),
      (planAt [] (.ok a : Res α) >>= f) = f a := fun _ _ => rfl
  simp only [hstart, hplan]
  set remainingAmount := if availableAmount < liquid then availableAmount else liquid
  by_cases hr : remainingAmount ≤ 0
  · simp only [if_pos hr]
    exact .inl ⟨rfl, rfl⟩
  simp only [if_neg hr]
  unfold State.shareTokenOf
  rcases hshare : s.shareToken token with _ | share
  · exact .inl ⟨rfl, rfl⟩
  simp only [okOr, hstart, hplan]
  by_cases hsup : s.supply share ≤ 0
  · simp only [if_pos hsup]
    exact .inl ⟨rfl, rfl⟩
  simp only [if_neg hsup]
  have hf := drainQueue_follows h signers s token share remainingAmount
  generalize drainQueue h signers s token share remainingAmount = x at hf ⊢
  generalize planQueue s token share remainingAmount = y at hf ⊢
  rcases x with (t | ⟨e, s'⟩) | s'
  · rcases hf with ⟨made, rfl⟩ | ⟨made, hpre, htrap⟩
    · exact .inl ⟨made, rfl⟩
    · refine .inr ⟨share, made, hshare, ?_, htrap⟩
      rcases y with stop | p
      · exact hpre
      · exact hpre
  · obtain ⟨made, rfl, hreach⟩ := hf
    exact .inr ⟨share, made, rfl, hshare, hreach⟩
  · obtain ⟨p, s₁, rfl, hpaid, rfl⟩ := hf
    exact .inr ⟨share, p, s₁, rfl, hshare, hpaid, rfl⟩

end Simulation

end Astera.Pool
