import Astera.Pool.QueueBooks
import Astera.Lib.StableSort

/-!
# The order of service

A pass serves the requests by age, and those of one age in the order of the queue.  Up to its first
payment it changes nothing, so which request is first paid or fails is decided by the figures at its
start (`Entry`); the same holds at the start of every cohort.
-/

namespace Astera.Pool

open Fallible Machine

variable {W : Type}
variable {y : Except Stop Plan} {made : List Payment} {requests : List WithdrawalRequest}
  {s : State W} {t : ℕ} {availableAmount c : ℤ}

/-- A pass before its first payment: the amount to pay out, the valuation, and the requests. -/
structure Entry where
  budget : ℤ
  valuation : ℤ
  totalShares : ℤ
  pending : List WithdrawalRequest

namespace Entry

variable (x : Entry) (r : WithdrawalRequest)

/-- The requests made at one time. -/
def cohort (requestedAt : ℕ) : List WithdrawalRequest :=
  x.pending.filter fun r => r.requestedAt = requestedAt

def cohortShares : ℤ := sumOver WithdrawalRequest.shares (x.cohort r.requestedAt)

def part : ℤ := (x.budget * r.shares).tdiv (x.cohortShares r)

def worth : ℤ := (r.shares * x.valuation).tdiv x.totalShares

def payout : ℤ := min (x.worth r) (x.part r)

def burned : ℤ :=
  if x.payout r ≤ 0 then 0
  else if x.payout r = x.worth r then r.shares
  else (x.payout r * r.shares).tdiv (x.worth r)

/-- The arithmetic fails when the request is served: a number leaves the range of `i128`, or the
shares of the cohort add up to zero. -/
def Overflows : Prop :=
  (sumShares (x.cohort r.requestedAt)).isOk = false ∨
    ¬ InI128 (x.budget * r.shares) ∨ x.cohortShares r = 0 ∨ ¬ InI128 (x.part r) ∨
    ¬ InI128 (r.shares * x.valuation) ∨ ¬ InI128 (x.worth r) ∨
    (0 < x.part r ∧ x.part r < x.worth r ∧ ¬ InI128 (x.part r * r.shares))

instance : Decidable (x.Overflows r) := inferInstanceAs (Decidable (_ ∨ _))

def served : List WithdrawalRequest :=
  StableSort.ascending WithdrawalRequest.requestedAt x.pending

/-- No request of a list is paid before the first one at which the arithmetic fails. -/
def Spares (requests : List WithdrawalRequest) : Prop :=
  ∀ r ∈ requests.takeWhile fun r => ¬ x.Overflows r, x.payout r ≤ 0

instance (requests : List WithdrawalRequest) : Decidable (x.Spares requests) :=
  inferInstanceAs (Decidable (∀ r ∈ _, _))

def PaysNothing : Prop := x.Spares x.served

instance : Decidable x.PaysNothing := inferInstanceAs (Decidable (x.Spares _))

variable {x} {r}

theorem spares_nil : x.Spares [] := fun _ h => absurd h List.not_mem_nil

theorem spares_of_overflows (h : x.Overflows r) :
    x.Spares (r :: requests) := by
  unfold Spares
  rw [List.takeWhile_cons_of_neg (by simpa using h)]
  exact fun _ h => absurd h List.not_mem_nil

theorem spares_cons (h : ¬ x.Overflows r) :
    x.Spares (r :: requests) ↔ x.payout r ≤ 0 ∧ x.Spares requests := by
  unfold Spares
  rw [List.takeWhile_cons_of_pos (by simpa using h)]
  exact List.forall_mem_cons

theorem inI128_tdiv {a b : ℤ} (ha : InI128 a) (hb : 0 < b) : InI128 (a.tdiv b) := by
  have hle : (a.tdiv b).natAbs ≤ a.natAbs := by
    rw [Int.natAbs_tdiv]
    exact Nat.div_le_self _ _
  unfold InI128 at *
  rcases le_total 0 a with hpos | hneg
  · have := Int.tdiv_nonneg hpos hb.le
    omega
  · have := Int.tdiv_nonneg (by omega : 0 ≤ -a) hb.le
    rw [Int.neg_tdiv] at this
    omega

theorem requestPayout_of_fits (hc : sumShares (x.cohort r.requestedAt) = .ok c)
    (ht : 0 < x.totalShares) (h : ¬ x.Overflows r) :
    requestPayout x.budget c x.valuation x.totalShares r.shares =
      .ok (x.payout r, x.burned r) := by
  unfold Overflows at h
  simp only [not_or, not_and, not_not] at h
  obtain ⟨-, hmul, hzero, hpart, hvalue, hworth, hpartial⟩ := h
  obtain rfl : c = x.cohortShares r := sumShares_eq_ok hc
  have hproduct : okOr (checkedMul x.budget r.shares) overflowErr = .ok (x.budget * r.shares) :=
    (okOr_eq_ok ..).2 ((checkedMul_eq_some ..).2 ⟨rfl, hmul⟩)
  have havailable : okOr (checkedDiv (x.budget * r.shares) (x.cohortShares r)) overflowErr =
      .ok (x.part r) := (okOr_eq_ok ..).2 ((checkedDiv_eq_some ..).2 ⟨hzero, rfl, hpart⟩)
  have hamount : withdrawalAmount r.shares x.valuation x.totalShares = .ok (x.worth r) := by
    unfold withdrawalAmount
    simp only [bind_eq_ok, require_eq_ok, okOr_eq_ok, checkedMul_eq_some, checkedDiv_eq_some]
    exact ⟨(), ht, _, ⟨rfl, hvalue⟩, ht.ne', rfl, hworth⟩
  have hpayout : (if x.worth r < x.part r then x.worth r else x.part r) = x.payout r := by
    unfold payout
    split_ifs <;> omega
  unfold requestPayout burned
  rw [hproduct, ok_bind, havailable, ok_bind, hamount, ok_bind]
  dsimp only
  rw [hpayout]
  split_ifs with hle heq
  · rfl
  · rfl
  · have hlt : x.part r < x.worth r ∧ x.payout r = x.part r := by
      unfold payout at heq ⊢
      omega
    have hfits := hpartial (by omega) hlt.1
    simp only [bind_eq_ok, okOr_eq_ok, checkedMul_eq_some, checkedDiv_eq_some, pure_eq_ok]
    rw [hlt.2]
    exact ⟨_, ⟨rfl, hfits⟩, _, ⟨by omega, rfl, inI128_tdiv hfits (by omega)⟩, rfl⟩

theorem requestPayout_ne_ok (hc : sumShares (x.cohort r.requestedAt) = .ok c) (h : x.Overflows r)
    (a : ℤ × ℤ) :
    requestPayout x.budget c x.valuation x.totalShares r.shares ≠ .ok a := by
  intro hok
  obtain rfl : c = x.cohortShares r := sumShares_eq_ok hc
  unfold requestPayout withdrawalAmount at hok
  simp only [bind_eq_ok, okOr_eq_ok, require_eq_ok, checkedMul_eq_some, checkedDiv_eq_some,
    exists_const] at hok
  obtain ⟨_, ⟨rfl, hmul⟩, _, ⟨hzero, rfl, hpart⟩, _, ⟨-, _, ⟨rfl, hvalue⟩, -, rfl, hworth⟩, hok⟩ :=
    hok
  rcases h with h | h | h | h | h | h | ⟨hpos, hlt, h⟩
  · rw [hc] at h
    cases h
  · exact h hmul
  · exact hzero h
  · exact h hpart
  · exact h hvalue
  · exact h hworth
  · have hworth' : (r.shares * x.valuation).tdiv x.totalShares = x.worth r := rfl
    have hpart' : (x.budget * r.shares).tdiv (x.cohortShares r) = x.part r := rfl
    rw [hworth', hpart', if_neg (not_lt.2 hlt.le), if_neg (not_le.2 hpos), if_neg hlt.ne,
      bind_eq_ok] at hok
    obtain ⟨_, hfits, -⟩ := hok
    rw [okOr_eq_ok, checkedMul_eq_some] at hfits
    exact h hfits.2

theorem paymentsOf_cohort_iff (hc : sumShares (x.cohort t) = .ok c) (ht : 0 < x.totalShares)
    {later : List WithdrawalRequest} {g : Plan → Except Stop Plan}
    (hmono : ∀ p, p.payments <+: paymentsOf (g p))
    (hg : ∀ p, p.payments = made → p.remainingAmount = x.budget → (paymentsOf (g p) = made ↔
      x.Spares later)) :
    ∀ {requests : List WithdrawalRequest} {p : Plan}, (∀ r ∈ requests, r.requestedAt = t) →
      p.payments = made → p.remainingAmount = x.budget →
      (paymentsOf (requests.foldlM (planRequest x.valuation x.totalShares x.budget c) p >>= g) =
        made ↔ x.Spares (requests ++ later)) := by
  intro requests
  induction requests with
  | nil => exact fun _ => hg _
  | cons r requests ih =>
    intro p hat hmade hleft
    have hr : sumShares (x.cohort r.requestedAt) = .ok c := by
      rw [hat r List.mem_cons_self]
      exact hc
    rw [List.foldlM_cons, List.cons_append]
    by_cases hover : x.Overflows r
    · -- the pass ends here
      refine iff_of_true ?_ (spares_of_overflows hover)
      unfold planRequest
      cases hpay : requestPayout x.budget c x.valuation x.totalShares r.shares with
      | ok a => exact absurd hpay (requestPayout_ne_ok hr hover a)
      | error f => exact hmade
    · have hpay := requestPayout_of_fits hr ht hover
      rw [spares_cons hover]
      by_cases hpos : x.payout r ≤ 0
      · rw [and_iff_right hpos]
        have hskip : planRequest x.valuation x.totalShares x.budget c p r =
            .ok { p with remainingQueue := p.remainingQueue ++ [r] } := by
          unfold planRequest
          rw [hpay]
          exact if_pos hpos
        rw [hskip, ok_bind]
        exact ih (fun r' hr' => hat r' (List.mem_cons_of_mem _ hr')) hmade hleft
      · -- the payment stays whatever comes after it
        refine iff_of_false (fun heq => ?_) fun h => hpos h.1
        have hpre : p.payments ++ [⟨r, x.payout r, x.burned r⟩] <+:
            paymentsOf (planRequest x.valuation x.totalShares x.budget c p r) := by
          unfold planRequest
          rw [hpay]
          show _ <+: paymentsOf (if x.payout r ≤ 0 then _ else _)
          rw [if_neg hpos]
          have hrefl := List.prefix_refl (p.payments ++ [⟨r, x.payout r, x.burned r⟩])
          exact prefix_bind_planAt hrefl fun _ => prefix_bind_planAt hrefl fun _ =>
            prefix_bind_planAt hrefl fun _ => hrefl
        have hall := prefix_bind (prefix_bind hpre fun p' =>
          prefix_foldlM_planRequest x.valuation x.totalShares x.budget c requests p') hmono
        rw [bind_assoc] at heq hall
        have hlen := hall.length_le
        rw [heq, hmade, List.length_append, List.length_singleton] at hlen
        omega

variable (x r) in
/-- The payment for a request, if it gets one. -/
def payment : Option Payment :=
  if 0 < x.payout r then some ⟨r, x.payout r, x.burned r⟩ else none

variable (x r) in
/-- What a request takes out of the budget. -/
def taken : ℤ := max 0 (x.payout r)

/-- The figures of a plan leave room for the payments to come. -/
structure Roomy (x : Entry) (p : Plan) : Prop where
  remaining : 0 ≤ p.remainingAmount
  remaining_lt : p.remainingAmount < 2 ^ 127
  poolValue : 0 < x.valuation → -2 ^ 127 ≤ p.poolValue - p.remainingAmount ∧ p.poolValue < 2 ^ 127

theorem valuation_pos (ht : 0 < x.totalShares) (hshares : 0 < r.shares) (h : 0 < x.worth r) :
    0 < x.valuation := by
  by_contra hneg
  have hvalue : r.shares * x.valuation ≤ 0 := mul_nonpos_of_nonneg_of_nonpos hshares.le (by omega)
  have := tdiv_mul_le ht h
  have := mul_pos h ht
  unfold worth at *
  omega

theorem planRequest_of_fits {c rest : ℤ} {p : Plan}
    (hc : sumShares (x.cohort r.requestedAt) = .ok c) (ht : 0 < x.totalShares)
    (hfits : ¬ x.Overflows r) (hshares : 0 < r.shares) (hcpos : 0 < c) (hb : 0 ≤ x.budget)
    (hrest : 0 ≤ rest) (hroom : x.Roomy p)
    (hbudget : x.budget * (r.shares + rest) ≤ p.remainingAmount * c) :
    ∃ p', planRequest x.valuation x.totalShares x.budget c p r = .ok p' ∧ x.Roomy p' ∧
      p'.remainingAmount = p.remainingAmount - x.taken r ∧
      p'.payments = p.payments ++ (x.payment r).toList ∧
      x.budget * rest ≤ p'.remainingAmount * c := by
  have hpay := requestPayout_of_fits hc ht hfits
  have hpart : 0 ≤ x.budget * r.shares := mul_nonneg hb hshares.le
  unfold planRequest payment taken
  rw [hpay]
  by_cases hpos : x.payout r ≤ 0
  · refine ⟨{ p with remainingQueue := p.remainingQueue ++ [r] }, if_pos hpos,
      ⟨hroom.remaining, hroom.remaining_lt, hroom.poolValue⟩, ?_, ?_, ?_⟩
    · simp [max_eq_left hpos]
    · simp [not_lt.2 hpos]
    · show x.budget * rest ≤ p.remainingAmount * c
      linarith
  · have hle : x.payout r ≤ x.part r ∧ x.payout r ≤ x.worth r := by
      unfold payout
      omega
    obtain rfl : c = x.cohortShares r := sumShares_eq_ok hc
    have htake : x.payout r * x.cohortShares r ≤ x.budget * r.shares :=
      (mul_le_mul_of_nonneg_right hle.1 hcpos.le).trans
        (tdiv_mul_le hcpos (by unfold part at hle; omega))
    have hleft : x.budget * rest ≤ (p.remainingAmount - x.payout r) * x.cohortShares r := by
      linarith
    have hnonneg : 0 ≤ p.remainingAmount - x.payout r := by
      have := (mul_nonneg hb hrest).trans hleft
      exact nonneg_of_mul_nonneg_left this hcpos
    have hvaluation := valuation_pos ht hshares (by omega : 0 < x.worth r)
    obtain ⟨hlow, hhigh⟩ := hroom.poolValue hvaluation
    have hlt := hroom.remaining_lt
    obtain ⟨hburned, hburned'⟩ := requestPayout_burned hpay (not_le.1 hpos) hshares
    have hrange : r.shares < 2 ^ 127 := by
      have hfit : InI128 (r.shares * x.valuation) := by
        unfold Overflows at hfits
        simp only [not_or, not_not] at hfits
        exact hfits.2.2.2.2.1
      have : r.shares * 1 ≤ r.shares * x.valuation :=
        mul_le_mul_of_nonneg_left hvaluation hshares.le
      unfold InI128 at hfit
      omega
    have hvalue : checkedSub p.poolValue (x.payout r) = some (p.poolValue - x.payout r) :=
      (checkedSub_eq_some ..).2 ⟨rfl, by unfold InI128; omega⟩
    have hremaining : checkedSub p.remainingAmount (x.payout r) =
        some (p.remainingAmount - x.payout r) :=
      (checkedSub_eq_some ..).2 ⟨rfl, by unfold InI128; omega⟩
    have hkept : checkedSub r.shares (x.burned r) = some (r.shares - x.burned r) :=
      (checkedSub_eq_some ..).2 ⟨rfl, by unfold InI128; omega⟩
    refine ⟨⟨p.poolValue - x.payout r, p.remainingAmount - x.payout r,
      p.remainingQueue ++ leftover r (x.burned r), p.payments ++ [⟨r, x.payout r, x.burned r⟩]⟩,
      ?_, ⟨hnonneg, ?_, ?_⟩, ?_, ?_, hleft⟩
    · show (if x.payout r ≤ 0 then _ else _) = _
      rw [if_neg hpos, hvalue, hremaining, hkept]
      rfl
    · show p.remainingAmount - x.payout r < 2 ^ 127
      omega
    · intro _
      show -2 ^ 127 ≤ p.poolValue - x.payout r - (p.remainingAmount - x.payout r) ∧
        p.poolValue - x.payout r < 2 ^ 127
      omega
    · simp [max_eq_right (not_le.1 hpos).le]
    · simp [not_le.1 hpos]

theorem foldlM_planRequest_of_fits (hc : sumShares (x.cohort t) = .ok c) (ht : 0 < x.totalShares)
    (hcpos : 0 < c) (hb : 0 ≤ x.budget) :
    ∀ {requests : List WithdrawalRequest} {p : Plan}, (∀ r ∈ requests, r.requestedAt = t) →
      (∀ r ∈ requests, ¬ x.Overflows r) → (∀ r ∈ requests, 0 < r.shares) → x.Roomy p →
      x.budget * sumOver WithdrawalRequest.shares requests ≤ p.remainingAmount * c →
      ∃ p', requests.foldlM (planRequest x.valuation x.totalShares x.budget c) p = .ok p' ∧
        x.Roomy p' ∧ p'.remainingAmount = p.remainingAmount - sumOver x.taken requests ∧
        p'.payments = p.payments ++ requests.filterMap x.payment := by
  intro requests
  induction requests with
  | nil =>
    intro p _ _ _ hroom _
    exact ⟨p, rfl, hroom, by simp [sumOver], by simp⟩
  | cons r requests ih =>
    intro p hat hfits hshares hroom hbudget
    have hr : sumShares (x.cohort r.requestedAt) = .ok c := by
      rw [hat r List.mem_cons_self]
      exact hc
    have hrest := sumOver_shares_nonneg fun r' hr' => hshares r' (List.mem_cons_of_mem _ hr')
    rw [sumOver_cons] at hbudget
    obtain ⟨p₁, h₁, hroom₁, hleft₁, hmade₁, hbudget₁⟩ := planRequest_of_fits hr ht
      (hfits r List.mem_cons_self) (hshares r List.mem_cons_self) hcpos hb hrest hroom hbudget
    obtain ⟨p', hp', hroom', hleft', hmade'⟩ := ih
      (fun r' hr' => hat r' (List.mem_cons_of_mem _ hr'))
      (fun r' hr' => hfits r' (List.mem_cons_of_mem _ hr'))
      (fun r' hr' => hshares r' (List.mem_cons_of_mem _ hr')) hroom₁ hbudget₁
    refine ⟨p', ?_, hroom', ?_, ?_⟩
    · rw [List.foldlM_cons, h₁, ok_bind, hp']
    · rw [hleft', hleft₁, sumOver_cons]
      ring
    · rw [hmade', hmade₁, List.append_assoc]
      cases hpayment : x.payment r with
      | none => rw [List.filterMap_cons_none hpayment, Option.toList_none, List.nil_append]
      | some m =>
        rw [List.filterMap_cons_some hpayment, Option.toList_some, List.singleton_append]

theorem foldlM_planRequest_ne_ok (hc : sumShares (x.cohort t) = .ok c) :
    ∀ {requests : List WithdrawalRequest} {p p' : Plan}, (∀ r ∈ requests, r.requestedAt = t) →
      (∃ r ∈ requests, x.Overflows r) →
      requests.foldlM (planRequest x.valuation x.totalShares x.budget c) p ≠ .ok p' := by
  intro requests
  induction requests with
  | nil =>
    rintro p p' _ ⟨r, hr, -⟩
    cases hr
  | cons r requests ih =>
    intro p p' hat hover hok
    rw [List.foldlM_cons, bind_eq_ok] at hok
    obtain ⟨p₁, h₁, hok⟩ := hok
    obtain ⟨r', hr', hover⟩ := hover
    rcases List.mem_cons.1 hr' with rfl | hr'
    · obtain ⟨payout, burned, hpay, -⟩ := planRequest_eq_ok h₁
      have hr : sumShares (x.cohort r'.requestedAt) = .ok c := by
        rw [hat r' List.mem_cons_self]
        exact hc
      exact requestPayout_ne_ok hr hover _ hpay
    · exact ih (fun r' hr' => hat r' (List.mem_cons_of_mem _ hr')) ⟨r', hr', hover⟩ hok

/-! ## Cohort by cohort -/

theorem oldestRequestedAt_le (first : WithdrawalRequest) (rest : List WithdrawalRequest) :
    ∀ r ∈ first :: rest, oldestRequestedAt first rest ≤ r.requestedAt := by
  have hfold : ∀ (l : List WithdrawalRequest) (t : ℕ),
      l.foldl (fun oldest r => min oldest r.requestedAt) t ≤ t ∧
        ∀ r ∈ l, l.foldl (fun oldest r => min oldest r.requestedAt) t ≤ r.requestedAt := by
    intro l
    induction l with
    | nil => simp
    | cons a l ih =>
      intro t
      obtain ⟨ht, hl⟩ := ih (min t a.requestedAt)
      refine ⟨ht.trans (min_le_left _ _), fun r hr => ?_⟩
      rcases List.mem_cons.1 hr with rfl | hr
      · exact ht.trans (min_le_right _ _)
      · exact hl r hr
  intro r hr
  rcases List.mem_cons.1 hr with rfl | hr
  · exact (hfold rest r.requestedAt).1
  · exact (hfold rest first.requestedAt).2 r hr

theorem filter_younger {l : List WithdrawalRequest} {oldest t : ℕ} (ht : t ≠ oldest) :
    (l.filter fun r => r.requestedAt ≠ oldest).filter (fun r => r.requestedAt = t) =
      l.filter fun r => r.requestedAt = t := by
  rw [List.filter_filter]
  refine List.filter_congr fun r _ => ?_
  by_cases hr : r.requestedAt = t
  · simp [hr, ht]
  · simp [hr]

/-- The cohorts of a list are those of the pass. -/
def CohortsOf (x : Entry) (pending : List WithdrawalRequest) : Prop :=
  ∀ r ∈ pending, (pending.filter fun r' => r'.requestedAt = r.requestedAt) =
    x.cohort r.requestedAt

theorem CohortsOf.oldest {first : WithdrawalRequest} {rest : List WithdrawalRequest}
    (h : x.CohortsOf (first :: rest)) :
    (first :: rest).filter (fun r => r.requestedAt = oldestRequestedAt first rest) =
      x.cohort (oldestRequestedAt first rest) := by
  obtain ⟨r, hr, hold⟩ := exists_oldest first rest
  rw [← hold]
  exact h r hr

theorem CohortsOf.younger {pending : List WithdrawalRequest} {oldest : ℕ}
    (h : x.CohortsOf pending) :
    x.CohortsOf (pending.filter fun r => r.requestedAt ≠ oldest) := by
  intro r hr
  obtain ⟨hmem, hne⟩ := List.mem_filter.1 hr
  rw [filter_younger (of_decide_eq_true hne), h r hmem]

theorem served_cons (first : WithdrawalRequest) (rest : List WithdrawalRequest) :
    StableSort.ascending WithdrawalRequest.requestedAt (first :: rest) =
      (first :: rest).filter (fun r => r.requestedAt = oldestRequestedAt first rest) ++
        StableSort.ascending WithdrawalRequest.requestedAt
          ((first :: rest).filter fun r => r.requestedAt ≠ oldestRequestedAt first rest) :=
  StableSort.ascending_eq_append (oldestRequestedAt_le first rest)

theorem spares_of_sumShares {requests later : List WithdrawalRequest} (hne : requests ≠ [])
    (hat : ∀ r ∈ requests, r.requestedAt = t) {f : Fault} (hsum : sumShares (x.cohort t) = .error f) :
    x.Spares (requests ++ later) := by
  cases requests with
  | nil => exact absurd rfl hne
  | cons r requests =>
    refine spares_of_overflows (.inl ?_)
    rw [hat r List.mem_cons_self, hsum]
    rfl

theorem paymentsOf_planCohorts_iff (ht : 0 < x.totalShares) :
    ∀ {fuel : ℕ} {pending : List WithdrawalRequest} {p : Plan}, pending.length ≤ fuel →
      x.CohortsOf pending → p.remainingAmount = x.budget →
      (paymentsOf (planCohorts x.valuation x.totalShares fuel p pending) = p.payments ↔
        x.Spares (StableSort.ascending WithdrawalRequest.requestedAt pending)) := by
  intro fuel
  induction fuel with
  | zero =>
    intro pending p hlen _ _
    rw [List.length_eq_zero_iff.1 (by omega : pending.length = 0)]
    exact iff_of_true rfl spares_nil
  | succ fuel ih =>
    intro pending p hlen hcohorts hleft
    cases pending with
    | nil => exact iff_of_true rfl spares_nil
    | cons first rest =>
      obtain ⟨r, hr, hold⟩ := exists_oldest first rest
      have hlt := length_younger_lt first rest
      have hat : ∀ r ∈ (first :: rest).filter
          (fun r => r.requestedAt = oldestRequestedAt first rest),
          r.requestedAt = oldestRequestedAt first rest := fun r hr =>
        of_decide_eq_true (List.mem_filter.1 hr).2
      rw [served_cons]
      unfold planCohorts
      dsimp only
      cases hsum : sumShares ((first :: rest).filter fun r =>
          r.requestedAt = oldestRequestedAt first rest) with
      | error f =>
        refine iff_of_true rfl (spares_of_sumShares ?_ hat (hcohorts.oldest ▸ hsum))
        exact List.ne_nil_of_mem (List.mem_filter.2 ⟨hr, decide_eq_true hold⟩)
      | ok c =>
        show paymentsOf (List.foldlM _ p _ >>= _) = _ ↔ _
        rw [hleft]
        refine paymentsOf_cohort_iff (hcohorts.oldest ▸ hsum) ht
          (fun p' => prefix_planCohorts _ _ fuel p' _) (fun p' hmade hleft' => ?_) hat rfl
          hleft
        rw [← hmade]
        exact ih (by omega) hcohorts.younger hleft'

theorem cohortsOf_pending : x.CohortsOf x.pending := fun _ _ => rfl

end Entry

/-! ## Whom a plan pays -/

/-- A part of the plan adds to the payments at most one for each of some requests. -/
def Adds (made : List Payment) (y : Except Stop Plan) (requests : List WithdrawalRequest) : Prop :=
  ∃ new, paymentsOf y = made ++ new ∧ List.Subperm (new.map Payment.request) requests

theorem Adds.none (h : paymentsOf y = made) : Adds made y requests :=
  ⟨[], by rw [h, List.append_nil], List.nil_subperm⟩

theorem Adds.mono {requests requests' : List WithdrawalRequest} (h : Adds made y requests)
    (hsub : List.Subperm requests requests') : Adds made y requests' := by
  obtain ⟨new, hnew, hto⟩ := h
  exact ⟨new, hnew, hto.trans hsub⟩

theorem Adds.bind {g : Plan → Except Stop Plan} {requests requests' : List WithdrawalRequest}
    (hy : Adds made y requests) (hg : ∀ p, Adds p.payments (g p) requests') :
    Adds made (y >>= g) (requests ++ requests') := by
  cases y with
  | error stop => exact hy.mono (List.sublist_append_left requests requests').subperm
  | ok p =>
    obtain ⟨new, hnew, hto⟩ := hy
    obtain ⟨new', hnew', hto'⟩ := hg p
    change p.payments = made ++ new at hnew
    refine ⟨new ++ new', ?_, ?_⟩
    · rw [ok_bind, hnew', hnew, List.append_assoc]
    · rw [List.map_append]
      exact hto.append hto'

theorem adds_planRequest (valuation totalShares budget c : ℤ) (p : Plan) (r : WithdrawalRequest) :
    Adds p.payments (planRequest valuation totalShares budget c p r) [r] := by
  unfold planRequest
  cases hpay : requestPayout budget c valuation totalShares r.shares with
  | error f => exact .none rfl
  | ok a =>
    obtain ⟨payout, burned⟩ := a
    show Adds p.payments (if payout ≤ 0 then _ else _) [r]
    split_ifs
    · exact .none rfl
    · -- whatever comes after it, the payment has been made
      refine ⟨[⟨r, payout, burned⟩], ?_, List.Subperm.refl _⟩
      cases okOr (checkedSub p.poolValue payout) overflowErr with
      | error f => rfl
      | ok poolValue =>
        cases okOr (checkedSub p.remainingAmount payout) overflowErr with
        | error f => rfl
        | ok remainingAmount =>
          cases okOr (checkedSub r.shares burned) overflowErr with
          | error f => rfl
          | ok kept => rfl

theorem adds_foldlM (valuation totalShares budget c : ℤ) :
    ∀ (requests : List WithdrawalRequest) (p : Plan), Adds p.payments
      (requests.foldlM (planRequest valuation totalShares budget c) p) requests := by
  intro requests
  induction requests with
  | nil => exact fun p => .none rfl
  | cons r requests ih =>
    intro p
    rw [List.foldlM_cons]
    exact (adds_planRequest valuation totalShares budget c p r).bind ih

theorem adds_planCohorts (valuation totalShares : ℤ) :
    ∀ (fuel : ℕ) (pending : List WithdrawalRequest) (p : Plan),
      Adds p.payments (planCohorts valuation totalShares fuel p pending) pending := by
  intro fuel
  induction fuel with
  | zero => exact fun pending p => .none rfl
  | succ fuel ih =>
    intro pending p
    cases pending with
    | nil => exact .none rfl
    | cons first rest =>
      unfold planCohorts
      dsimp only
      cases hsum : sumShares ((first :: rest).filter fun r =>
          r.requestedAt = oldestRequestedAt first rest) with
      | error f => exact .none rfl
      | ok c =>
        refine ((adds_foldlM _ _ _ _ _ p).bind fun p' => ih _ p').mono (List.Perm.subperm ?_)
        simp only [ne_eq, decide_not]
        exact List.filter_append_perm _ _

/-- The pass with which `process_withdrawal_queue` begins, if it comes to that. -/
def State.queueEntry (s : State W) (token : Address) (availableAmount : ℤ) : Option Entry := do
  let share ← s.shareToken token
  let liquid ← checkedSub (s.tt token).poolValue (s.tt token).totalDeployed
  let (pending, _) ← (splitQueue (s.params.config.maxWithdrawalQueueAgeDays * secsPerDay) s.now
    (s.queue token)).toOption
  return ⟨min availableAmount liquid, (s.tt token).poolValue, s.supply share, pending⟩

theorem queueEntry_eq_some {token : Address} {x : Entry} :
    s.queueEntry token availableAmount = some x ↔ ∃ share liquid pending regular,
      s.shareToken token = some share ∧
      checkedSub (s.tt token).poolValue (s.tt token).totalDeployed = some liquid ∧
      splitQueue (s.params.config.maxWithdrawalQueueAgeDays * secsPerDay) s.now (s.queue token) =
        .ok (pending, regular) ∧
      x = ⟨min availableAmount liquid, (s.tt token).poolValue, s.supply share, pending⟩ := by
  unfold State.queueEntry
  simp only [Option.bind_eq_bind, Option.bind_eq_some_iff, toOption_eq_some, Option.pure_def,
    Option.some.injEq, Prod.exists]
  constructor
  · rintro ⟨share, hshare, liquid, hliquid, pending, regular, hsplit, rfl⟩
    exact ⟨share, liquid, pending, regular, hshare, hliquid, hsplit, rfl⟩
  · rintro ⟨share, liquid, pending, regular, hshare, hliquid, hsplit, rfl⟩
    exact ⟨share, hshare, liquid, hliquid, pending, regular, hsplit, rfl⟩

theorem ite_lt_eq_min (a b : ℤ) : (if a < b then a else b) = min a b := by
  split_ifs <;> omega

section Payments

variable {h : Host W} {signers : List Address} {token : Address}

/-- Shares and token balances are what some payments made of them. -/
def MadeFrom (h : Host W) (signers : List Address) (token : Address) (s s' : State W)
    (made : List Payment) : Prop :=
  (made = [] ∧ s' = s) ∨ ∃ share s₁, s.shareToken token = some share ∧
    made.foldlM (pay h signers token share) s = .ok s₁ ∧
    s'.shareTokens = s₁.shareTokens ∧ s'.cash = s₁.cash

theorem madeFrom_passPayments {s s' : State W} {o : Option PoolError}
    (hq : processWithdrawalQueue h signers s token availableAmount = .ok (s', o)) :
    MadeFrom h signers token s s' (passPayments (planPass s token availableAmount)) := by
  have hf := queuePass_follows h signers s token availableAmount
  unfold processWithdrawalQueue at hq
  split at hq
  next s₁ hpass =>
    obtain ⟨rfl, -⟩ := Prod.mk.inj (Except.ok.inj hq)
    rw [hpass] at hf
    rcases hf with ⟨hplan, rfl⟩ | ⟨share, p, s₂, hplan, hshare, hpaid, rfl⟩
    · rw [hplan]
      exact .inl ⟨rfl, rfl⟩
    · rw [hplan]
      exact .inr ⟨share, s₂, hshare, hpaid, rfl, rfl⟩
  next e s₁ hpass =>
    obtain ⟨rfl, -⟩ := Prod.mk.inj (Except.ok.inj hq)
    rw [hpass] at hf
    rcases hf with ⟨hplan, rfl⟩ | ⟨share, made, hplan, hshare, s₂, requests, hpaid, rfl⟩
    · rw [hplan]
      exact .inl ⟨rfl, rfl⟩
    · rw [hplan]
      exact .inr ⟨share, s₂, hshare, hpaid, rfl, rfl⟩
  next => cases hq

theorem passPayments_of_entry {x : Entry} (hx : x ∈ s.queueEntry token availableAmount)
    (hb : 0 < x.budget) (hts : 0 < x.totalShares) :
    passPayments (planPass s token availableAmount) =
      paymentsOf (planCohorts x.valuation x.totalShares x.pending.length
        ⟨x.valuation, x.budget, [], []⟩ x.pending) := by
  obtain ⟨share, liquid, pending, regular, hshare, hliquid, hsplit, rfl⟩ := queueEntry_eq_some.1 hx
  have hsome : availableLiquidity (s.tt token) = .ok liquid := (okOr_eq_ok ..).2 hliquid
  have hregistered : s.shareTokenOf token = .ok share := (okOr_eq_ok ..).2 hshare
  unfold planPass
  by_cases hempty : s.queue token = []
  · rw [if_pos hempty]
    have hpend := (splitQueue_eq_ok hsplit).1
    rw [hempty] at hpend
    cases pending with
    | nil => rfl
    | cons r rest => exact absurd (hpend r List.mem_cons_self) List.not_mem_nil
  rw [if_neg hempty, hsome]
  show passPayments (if (if availableAmount < liquid then availableAmount else liquid) ≤ 0 then _
    else _) = _
  rw [ite_lt_eq_min, if_neg (not_le.2 hb), hregistered]
  show passPayments (if s.supply share ≤ 0 then _ else _) = _
  rw [if_neg (not_le.2 hts)]
  unfold planQueue
  dsimp only
  rw [hsplit]
  show passPayments (((planCohorts _ _ _ _ pending : Except Stop Plan) >>= _) >>= _) = _
  cases planCohorts (s.tt token).poolValue (s.supply share) pending.length
    ⟨(s.tt token).poolValue, min availableAmount liquid, [], []⟩ pending with
  | ok p => rfl
  | error stop => rfl

theorem exists_entry (hmade : passPayments (planPass s token availableAmount) ≠ []) :
    ∃ x ∈ s.queueEntry token availableAmount, 0 < x.budget ∧ 0 < x.totalShares := by
  unfold planPass at hmade
  split_ifs at hmade with hempty
  · exact absurd rfl hmade
  cases hliquid : availableLiquidity (s.tt token) with
  | error f =>
    rw [hliquid] at hmade
    exact absurd rfl hmade
  | ok liquid =>
    rw [hliquid] at hmade
    change passPayments (if (if availableAmount < liquid then availableAmount else liquid) ≤ 0
      then _ else _) ≠ [] at hmade
    rw [ite_lt_eq_min] at hmade
    split_ifs at hmade with hnothing
    · exact absurd rfl hmade
    cases hshare : s.shareTokenOf token with
    | error f =>
      rw [hshare] at hmade
      exact absurd rfl hmade
    | ok share =>
      rw [hshare] at hmade
      change passPayments (if s.supply share ≤ 0 then _ else _) ≠ [] at hmade
      split_ifs at hmade with hsupply
      · exact absurd rfl hmade
      cases hsplit : splitQueue (s.params.config.maxWithdrawalQueueAgeDays * secsPerDay) s.now
          (s.queue token) with
      | error f =>
        unfold planQueue at hmade
        dsimp only at hmade
        rw [hsplit] at hmade
        exact absurd rfl hmade
      | ok parts =>
        obtain ⟨pending, regular⟩ := parts
        exact ⟨_, queueEntry_eq_some.2 ⟨share, liquid, pending, regular,
          (okOr_eq_ok ..).1 hshare, (okOr_eq_ok ..).1 hliquid, hsplit, rfl⟩,
          not_le.1 hnothing, not_le.1 hsupply⟩

theorem splitQueue_sublist {maxAgeSecs now : ℕ} {queue pending regular : List WithdrawalRequest}
    (hsplit : splitQueue maxAgeSecs now queue = .ok (pending, regular)) :
    List.Sublist pending queue := by
  unfold splitQueue at hsplit
  rw [bind_eq_ok] at hsplit
  obtain ⟨due, -, hsplit⟩ := hsplit
  split_ifs at hsplit
  · simp only [bind_eq_ok, pure_eq_ok, Prod.mk.injEq] at hsplit
    obtain ⟨-, -, rfl, -⟩ := hsplit
    exact List.filter_sublist
  · rw [pure_eq_ok, Prod.mk.injEq] at hsplit
    obtain ⟨rfl, -⟩ := hsplit
    exact List.filter_sublist

theorem passPayments_subperm (s : State W) (token : Address) (availableAmount : ℤ) :
    List.Subperm ((passPayments (planPass s token availableAmount)).map Payment.request)
      (s.queue token) := by
  by_cases hmade : passPayments (planPass s token availableAmount) = []
  · rw [hmade]
    exact List.nil_subperm
  · obtain ⟨x, hx, hb, hts⟩ := exists_entry hmade
    rw [passPayments_of_entry hx hb hts]
    obtain ⟨new, hnew, hto⟩ := adds_planCohorts x.valuation x.totalShares x.pending.length
      x.pending ⟨x.valuation, x.budget, [], []⟩
    rw [hnew, List.nil_append]
    obtain ⟨share, liquid, pending, regular, -, -, hsplit, rfl⟩ := queueEntry_eq_some.1 hx
    exact hto.trans (splitQueue_sublist hsplit).subperm

end Payments

end Astera.Pool
