import Astera.Pool.QueueBooks
import Astera.Pool.System

/-!
# When a pass over the queue traps

Planning never traps, so a pass traps exactly when one of the planned payments does: the investor
has not authorized the burn, the amount is not positive or exceeds the balance, the share contract
is paused, or the pool cannot pay.
-/

namespace Astera.Pool

open Fallible Machine Share

variable {W : Type}

/-- All payments go through, one after the other, from the given cash and share balances. -/
def Payable (pool : Address) (authorized : Address → Bool) (live : Prop) :
    ℤ → (Address → ℤ) → List Payment → Prop
  | _, _, [] => True
  | cash, balance, m :: made =>
    let a := m.request.investor
    live ∧ authorized a = true ∧ 0 < m.burned ∧ m.burned ≤ balance a ∧
    0 ≤ m.payout ∧ m.payout ≤ cash ∧
    Payable pool authorized live (if a = pool then cash else cash - m.payout)
      (Function.update balance a (balance a - m.burned)) made

theorem Payable.of_append {pool : Address} {authorized : Address → Bool} {live : Prop} :
    ∀ {made rest : List Payment} {cash : ℤ} {balance : Address → ℤ},
      Payable pool authorized live cash balance (made ++ rest) →
      Payable pool authorized live cash balance made := by
  intro made
  induction made with
  | nil => exact fun _ => trivial
  | cons m made ih =>
    intro rest cash balance hp
    exact ⟨hp.1, hp.2.1, hp.2.2.1, hp.2.2.2.1, hp.2.2.2.2.1, hp.2.2.2.2.2.1, ih hp.2.2.2.2.2.2⟩

section Payments

variable {h : Host W} {signers : List Address} {token share : Address}

theorem burn_eq_ok_iff {s s' : State W} {holder : Address} {amount : ℤ} :
    s.burn h signers share holder amount = .ok s' ↔
      (s.shareTokens share).paused = false ∧ h.authorized signers holder = true ∧ 0 < amount ∧
      amount ≤ s.shares share holder ∧ ∃ hb hs, s' = { s with
        shareTokens := Function.update s.shareTokens share
          ((s.shareTokens share).adjust holder (-amount) hb hs s.now) } := by
  unfold State.burn
  constructor
  · intro hb
    split at hb
    · rename_i t ht
      obtain ⟨hlive, hauth, hpos, hle, hb', hs', rfl⟩ := ShareToken.burn_eq_ok_iff.1 ht
      exact ⟨hlive, hauth, hpos, hle, hb', hs', (Except.ok.inj hb).symm⟩
    · cases hb
  · rintro ⟨hlive, hauth, hpos, hle, hb', hs', rfl⟩
    rw [ShareToken.burn_eq_ok_iff.2 ⟨hlive, hauth, hpos, hle, hb', hs', rfl⟩]

/-- A payment goes through exactly when its burn is authorized, positive and covered and the pool
can pay; it then lowers the investor's balance and the pool's cash. -/
theorem pay_eq_ok_iff {s : State W} {m : Payment} :
    (∃ s', pay h signers token share s m = .ok s') ↔
      (s.shareTokens share).paused = false ∧ h.authorized signers m.request.investor = true ∧
      0 < m.burned ∧ m.burned ≤ s.shares share m.request.investor ∧
      0 ≤ m.payout ∧ m.payout ≤ s.cash token h.self := by
  unfold pay settleQueuedWithdrawal
  simp only [bind_eq_ok, pure_eq_ok, State.transfer_eq_ok, burn_eq_ok_iff]
  constructor
  · rintro ⟨_, _, ⟨s₁, ⟨hlive, hauth, hpos, hle, _, _, rfl⟩, hnn, hcash, _⟩, _⟩
    exact ⟨hlive, hauth, hpos, hle, hnn, hcash⟩
  · rintro ⟨hlive, hauth, hpos, hle, hnn, hcash⟩
    have hb : 0 ≤ (s.shareTokens share).balance m.request.investor + -m.burned := by
      have : m.burned ≤ (s.shareTokens share).balance m.request.investor := hle
      omega
    have hs : (s.shareTokens share).totalSupply + -m.burned < 2 ^ 127 := by
      have := (s.shareTokens share).supply_lt
      omega
    exact ⟨_, _, ⟨_, ⟨hlive, hauth, hpos, hle, hb, hs, rfl⟩, hnn, hcash, rfl⟩, rfl⟩

theorem pay_balances {s s' : State W} {m : Payment}
    (hp : pay h signers token share s m = .ok s') :
    (s'.shareTokens share).paused = (s.shareTokens share).paused ∧
    s'.cash token h.self =
      (if m.request.investor = h.self then s.cash token h.self
        else s.cash token h.self - m.payout) ∧
    s'.shares share = Function.update (s.shares share) m.request.investor
      (s.shares share m.request.investor - m.burned) := by
  unfold pay settleQueuedWithdrawal at hp
  simp only [bind_eq_ok, pure_eq_ok, State.transfer_eq_ok, burn_eq_ok_iff] at hp
  obtain ⟨_, ⟨s₁, ⟨-, -, -, -, hb, hs, rfl⟩, -, -, rfl⟩, rfl⟩ := hp
  refine ⟨by simp, ?_, ?_⟩
  · simp only [State.moveCash_apply]
    by_cases hself : m.request.investor = h.self
    · simp [hself]
    · simp [hself, Ne.symm hself]
  · funext a
    simp only [State.shares, Function.update_self, ShareToken.balance_adjust]
    by_cases ha : a = m.request.investor
    · subst ha
      simp
      ring
    · simp [ha, State.shares]

theorem foldlM_pay_iff : ∀ {made : List Payment} {s : State W},
    (∃ s', made.foldlM (pay h signers token share) s = .ok s') ↔
      Payable h.self (h.authorized signers) ((s.shareTokens share).paused = false)
        (s.cash token h.self) (s.shares share) made := by
  intro made
  induction made with
  | nil => exact fun {s} => ⟨fun _ => trivial, fun _ => ⟨s, rfl⟩⟩
  | cons m made ih =>
    intro s
    simp only [List.foldlM_cons, bind_eq_ok, Payable]
    constructor
    · rintro ⟨s', s₁, hm, hrest⟩
      obtain ⟨hlive, hauth, hpos, hle, hnn, hcash⟩ := pay_eq_ok_iff.1 ⟨s₁, hm⟩
      obtain ⟨hpaused, hcash₁, hshares₁⟩ := pay_balances hm
      have := ih.1 ⟨s', hrest⟩
      rw [hpaused, hcash₁, hshares₁] at this
      exact ⟨hlive, hauth, hpos, hle, hnn, hcash, this⟩
    · rintro ⟨hlive, hauth, hpos, hle, hnn, hcash, hrest⟩
      obtain ⟨s₁, hm⟩ := pay_eq_ok_iff.2 ⟨hlive, hauth, hpos, hle, hnn, hcash⟩
      obtain ⟨hpaused, hcash₁, hshares₁⟩ := pay_balances hm
      rw [← hcash₁, ← hshares₁, ← hpaused] at hrest
      obtain ⟨s', hs'⟩ := ih.2 hrest
      exact ⟨s', s₁, hm, hs'⟩

end Payments

/-! ## Planning never traps -/

def NoTrap {α : Type} (r : Res α) : Prop := ∀ t, r ≠ .error (.trap t)

theorem noTrap_ok {α : Type} (a : α) : NoTrap (.ok a : Res α) := by
  intro t ht
  cases ht

theorem noTrap_okOr {α : Type} (o : Option α) (e : PoolError) : NoTrap (okOr o (.err e)) := by
  intro t ht
  have := ((okOr_eq_error _ _ _).1 ht).2
  cases this

theorem noTrap_require (p : Prop) [Decidable p] (e : PoolError) : NoTrap (require p (.err e)) := by
  intro t ht
  have := ((require_eq_error _ _ _).1 ht).2
  cases this

theorem NoTrap.bind {α β : Type} {r : Res α} {f : α → Res β} (hr : NoTrap r)
    (hf : ∀ a, NoTrap (f a)) : NoTrap (r >>= f) := by
  intro t ht
  rcases (bind_eq_error _ _ _).1 ht with ht | ⟨a, -, ht⟩
  · exact hr t ht
  · exact hf a t ht

theorem NoTrap.foldlM {α β : Type} {f : β → α → Res β} (hf : ∀ b a, NoTrap (f b a)) :
    ∀ (l : List α) (b : β), NoTrap (l.foldlM f b)
  | [], b => noTrap_ok b
  | a :: l, b => by
      rw [List.foldlM_cons]
      exact (hf b a).bind fun b' => NoTrap.foldlM hf l b'

theorem noTrap_requestPayout (budget cohortShares valuation totalShares shares : ℤ) :
    NoTrap (requestPayout budget cohortShares valuation totalShares shares) := by
  unfold requestPayout withdrawalAmount
  refine (noTrap_okOr _ _).bind fun _ => (noTrap_okOr _ _).bind fun _ => ?_
  refine ((noTrap_require _ _).bind fun _ => (noTrap_okOr _ _).bind fun _ =>
    noTrap_okOr _ _).bind fun _ => ?_
  dsimp only
  split_ifs
  · exact noTrap_ok _
  · exact noTrap_ok _
  · exact (noTrap_okOr _ _).bind fun _ => (noTrap_okOr _ _).bind fun _ => noTrap_ok _
  · exact noTrap_ok _
  · exact noTrap_ok _
  · exact (noTrap_okOr _ _).bind fun _ => (noTrap_okOr _ _).bind fun _ => noTrap_ok _

theorem noTrap_sumShares (requests : List WithdrawalRequest) : NoTrap (sumShares requests) :=
  NoTrap.foldlM (fun _ _ => noTrap_okOr _ _) requests 0

theorem noTrap_splitQueue (maxAgeSecs now : ℕ) (queue : List WithdrawalRequest) :
    NoTrap (splitQueue maxAgeSecs now queue) := by
  unfold splitQueue
  refine (noTrap_sumShares _).bind fun _ => ?_
  split_ifs
  · exact (noTrap_sumShares _).bind fun _ => noTrap_ok _
  · exact noTrap_ok _

def PlanNoTrap {α : Type} (y : Except Stop α) : Prop := ∀ t made, y ≠ .error (.trap t, made)

theorem planNoTrap_ok {α : Type} (a : α) : PlanNoTrap (.ok a : Except Stop α) := by
  intro t made ht
  cases ht

theorem PlanNoTrap.bind {α β : Type} {y : Except Stop α} {g : α → Except Stop β}
    (hy : PlanNoTrap y) (hg : ∀ a, PlanNoTrap (g a)) : PlanNoTrap (y >>= g) := by
  intro t made ht
  rcases (bind_eq_error _ _ _).1 ht with ht | ⟨a, -, ht⟩
  · exact hy t made ht
  · exact hg a t made ht

theorem NoTrap.planAt {α : Type} {r : Res α} (hr : NoTrap r) (made : List Payment) :
    PlanNoTrap (planAt made r) := by
  intro t made' ht
  cases r with
  | ok a => cases ht
  | error f =>
    have := (Prod.mk.inj (Except.error.inj ht)).1
    exact hr t (by rw [this])

theorem planNoTrap_planRequest (valuation totalShares budget cohortShares : ℤ) (p : Plan)
    (r : WithdrawalRequest) :
    PlanNoTrap (planRequest valuation totalShares budget cohortShares p r) := by
  unfold planRequest
  refine ((noTrap_requestPayout _ _ _ _ _).planAt _).bind ?_
  rintro ⟨payout, burned⟩
  dsimp only
  split_ifs
  · exact planNoTrap_ok _
  · exact ((noTrap_okOr _ _).planAt _).bind fun _ => ((noTrap_okOr _ _).planAt _).bind fun _ =>
      ((noTrap_okOr _ _).planAt _).bind fun _ => planNoTrap_ok _

theorem planNoTrap_foldlM (valuation totalShares budget cohortShares : ℤ) :
    ∀ (requests : List WithdrawalRequest) (p : Plan),
      PlanNoTrap (requests.foldlM (planRequest valuation totalShares budget cohortShares) p)
  | [], p => planNoTrap_ok p
  | r :: requests, p => by
      rw [List.foldlM_cons]
      exact (planNoTrap_planRequest _ _ _ _ p r).bind fun p' => planNoTrap_foldlM _ _ _ _ requests p'

theorem planNoTrap_planCohorts (valuation totalShares : ℤ) :
    ∀ (fuel : ℕ) (p : Plan) (pending : List WithdrawalRequest),
      PlanNoTrap (planCohorts valuation totalShares fuel p pending) := by
  intro fuel
  induction fuel with
  | zero => exact fun p pending => planNoTrap_ok p
  | succ fuel ih =>
    intro p pending
    cases pending with
    | nil => exact planNoTrap_ok p
    | cons first rest =>
      unfold planCohorts
      exact ((noTrap_sumShares _).planAt _).bind fun _ =>
        (planNoTrap_foldlM _ _ _ _ _ _).bind fun p' => ih p' _

theorem planNoTrap_planQueue (s : State W) (token share : Address) (remainingAmount : ℤ) :
    PlanNoTrap (planQueue s token share remainingAmount) := by
  unfold planQueue
  exact ((noTrap_splitQueue _ _ _).planAt _).bind fun _ =>
    (planNoTrap_planCohorts _ _ _ _ _).bind fun _ => planNoTrap_ok _

theorem planNoTrap_planPass (s : State W) (token : Address) (availableAmount : ℤ) :
    PlanNoTrap (planPass s token availableAmount) := by
  unfold planPass
  split_ifs
  · exact planNoTrap_ok _
  · refine ((noTrap_okOr _ _).planAt _).bind fun liquid => ?_
    dsimp only
    by_cases hr : (if availableAmount < liquid then availableAmount else liquid) ≤ 0
    · rw [if_pos hr]
      exact planNoTrap_ok _
    · rw [if_neg hr]
      refine ((noTrap_okOr _ _).planAt _).bind fun share => ?_
      by_cases hs : s.supply share ≤ 0
      · rw [if_pos hs]
        exact planNoTrap_ok _
      · rw [if_neg hs]
        exact (planNoTrap_planQueue _ _ _ _).bind fun _ => planNoTrap_ok _

/-- The payments planned for a pass all go through. -/
def PassPayable (h : Host W) (signers : List Address) (s : State W) (token : Address)
    (availableAmount : ℤ) : Prop :=
  ∀ share, s.shareToken token = some share →
    Payable h.self (h.authorized signers) ((s.shareTokens share).paused = false)
      (s.cash token h.self) (s.shares share) (passPayments (planPass s token availableAmount))

/-- The queue step traps in no transaction and state in which every planned payment goes through,
and in every other one it does. -/
theorem queue_step_traps_iff (h : Host W) (signers : List Address) (s : State W) (token : Address)
    (availableAmount : ℤ) :
    NoTrap (processWithdrawalQueue h signers s token availableAmount) ↔
      PassPayable h signers s token availableAmount := by
  have hf := queuePass_follows h signers s token availableAmount
  constructor
  · intro hno share hshare
    cases hpass : queuePass h signers s token availableAmount with
    | ok s' =>
      rw [hpass] at hf
      rcases hf with ⟨hplan, -⟩ | ⟨share', p, s₁, hplan, hshare', hpaid, -⟩
      · rw [hplan]
        trivial
      · obtain rfl : share' = share := Option.some.inj (hshare'.symm.trans hshare)
        rw [hplan]
        exact foldlM_pay_iff.1 ⟨s₁, hpaid⟩
    | error halt =>
      rw [hpass] at hf
      cases halt with
      | trap t =>
        refine absurd ?_ (hno t)
        unfold processWithdrawalQueue
        rw [hpass]
      | err e s' =>
        rcases hf with ⟨hplan, -⟩ | ⟨share', made, hplan, hshare', s₁, _, hpaid, -⟩
        · rw [hplan]
          trivial
        · obtain rfl : share' = share := Option.some.inj (hshare'.symm.trans hshare)
          rw [hplan]
          exact foldlM_pay_iff.1 ⟨s₁, hpaid⟩
  · intro hpay t ht
    unfold processWithdrawalQueue at ht
    split at ht
    · cases ht
    · cases ht
    · rename_i t' hpass
      rw [hpass] at hf
      rcases hf with ⟨made, hplan⟩ | ⟨share, made, hshare, ⟨rest, hpre⟩, htrap⟩
      · exact planNoTrap_planPass s token availableAmount t' made hplan
      · have hall := hpay share hshare
        rw [← hpre] at hall
        obtain ⟨s', hs'⟩ := foldlM_pay_iff.2 hall.of_append
        rw [hs'] at htrap
        cases htrap

/-- Investor 3 is queued for shares whose money is lent out. -/
def queuedInvestor : List (Tx quietHost) :=
  [⟨[1], self_ne_one, .setMaxInvestorConcentration 1 10000⟩,
    ⟨[3], self_ne_three, .deposit 3 10 1000 none⟩,
    ⟨[1], self_ne_one, .fundInvoice 1 ⟨7, 1000, 4, 31536001, 10⟩⟩,
    ⟨[3], self_ne_three, .requestWithdrawal 3 10 500⟩]

/-- A deposit of investor 5 then makes liquidity available, and the drain inside it burns shares of
investor 3, who has not signed. -/
theorem deposit_traps_on_queue :
    ∃ s, execAll quietHost sampleState queuedInvestor = .ok s ∧
      exec quietHost s ⟨[5], by decide, .deposit 5 10 500 none⟩ =
        .error (.trap (.share .auth)) := by
  obtain ⟨s, hs, hp⟩ := exists_of_check (x := execAll quietHost sampleState queuedInvestor)
    (p := fun s => match exec quietHost s ⟨[5], by decide, .deposit 5 10 500 none⟩ with
      | .error (.trap (.share .auth)) => true
      | _ => false) (by decide)
  refine ⟨s, hs, ?_⟩
  split at hp
  · assumption
  · cases hp

end Astera.Pool
