import Astera.Pool.QueueOrder
import Astera.Pool.System

/-!
# Priority in the queue

Older cohorts are served first, but each request of a cohort has its part of the budget rounded
down, and what the roundings leave goes on to the next cohort.  So a cohort that cannot be settled
in full comes before all younger requests exactly when that remainder pays none of them.
-/

namespace Astera.Pool

open Fallible Machine Share

variable {W : Type} {h : Host W} {signers : List Address} {token share : Address}
variable {made new : List Payment} {pending : List WithdrawalRequest} {r : WithdrawalRequest}
  {t t' : ℕ}

/-! ## Priority -/

/-- Whoever is paid comes after no request that was not settled in full. -/
def OldestFirst (pending : List WithdrawalRequest) (made : List Payment) : Prop :=
  ∀ m ∈ made, ∀ r ∈ pending, r.requestedAt < m.request.requestedAt →
    ∃ m' ∈ made, m'.request = r ∧ m'.burned = r.shares

instance (pending : List WithdrawalRequest) (made : List Payment) :
    Decidable (OldestFirst pending made) :=
  inferInstanceAs (Decidable (∀ m ∈ made, ∀ r ∈ pending, _ → _))

theorem oldestFirst_of_oldest (ht : ∀ r ∈ pending, t ≤ r.requestedAt)
    (hmade : ∀ m ∈ made, m.request.requestedAt = t) :
    OldestFirst pending made := by
  intro m hm r hr hlt
  have := ht r hr
  rw [hmade m hm] at hlt
  omega

theorem oldestFirst_append_of_settled (ht : ∀ r ∈ pending, t ≤ r.requestedAt)
    (hmade : ∀ m ∈ made, m.request.requestedAt = t)
    (hall : ∀ r ∈ pending, r.requestedAt = t → ∃ m ∈ made, m.request = r ∧ m.burned = r.shares) :
    OldestFirst pending (made ++ new) ↔
      OldestFirst (pending.filter fun r => r.requestedAt ≠ t) new := by
  constructor
  · intro h m hm r hr hlt
    obtain ⟨hr, hne⟩ := List.mem_filter.1 hr
    obtain ⟨m', hm', hreq, hburned⟩ := h m (List.mem_append_right _ hm) r hr hlt
    rcases List.mem_append.1 hm' with hm' | hm'
    · exact absurd (hreq ▸ hmade m' hm') (of_decide_eq_true hne)
    · exact ⟨m', hm', hreq, hburned⟩
  · intro h m hm r hr hlt
    rcases List.mem_append.1 hm with hm | hm
    · have := ht r hr
      rw [hmade m hm] at hlt
      omega
    · by_cases hrt : r.requestedAt = t
      · obtain ⟨m', hm', hsettled⟩ := hall r hr hrt
        exact ⟨m', List.mem_append_left _ hm', hsettled⟩
      · obtain ⟨m', hm', hsettled⟩ := h m hm r (List.mem_filter.2 ⟨hr, decide_eq_true hrt⟩) hlt
        exact ⟨m', List.mem_append_right _ hm', hsettled⟩

theorem oldestFirst_append_of_unsettled (ht : ∀ r ∈ pending, t ≤ r.requestedAt)
    (hmade : ∀ m ∈ made, m.request.requestedAt = t) (hnew : ∀ m ∈ new, t < m.request.requestedAt)
    (hr : r ∈ pending) (hrt : r.requestedAt = t)
    (hno : ∀ m ∈ made, m.request = r → m.burned ≠ r.shares) :
    OldestFirst pending (made ++ new) ↔ new = [] := by
  constructor
  · intro h
    by_contra hne
    obtain ⟨m, hm⟩ := List.exists_mem_of_ne_nil new hne
    obtain ⟨m', hm', hreq, hburned⟩ := h m (List.mem_append_right _ hm) r hr (hrt ▸ hnew m hm)
    rcases List.mem_append.1 hm' with hm' | hm'
    · exact hno m' hm' hreq hburned
    · have := hnew m' hm'
      rw [hreq, hrt] at this
      exact lt_irrefl t this
  · rintro rfl
    rw [List.append_nil]
    exact oldestFirst_of_oldest ht hmade

namespace Entry

variable (x : Entry)

def Settles (r : WithdrawalRequest) : Prop :=
  ¬ x.Overflows r ∧ 0 < x.worth r ∧ x.worth r ≤ x.part r

instance (r : WithdrawalRequest) : Decidable (x.Settles r) := inferInstanceAs (Decidable (_ ∧ _))

/-- The pass as it comes to a time, when everything older was settled in full. -/
def comesTo (t : ℕ) : Entry :=
  { x with
    budget := x.budget - sumOver x.worth (x.pending.filter fun r => r.requestedAt < t)
    pending := x.pending.filter fun r => t ≤ r.requestedAt }

/-- The pass after the cohort of a time. -/
def after (t : ℕ) : Entry :=
  { x with
    budget := (x.comesTo t).budget - sumOver (x.comesTo t).taken (x.cohort t)
    pending := x.pending.filter fun r => t < r.requestedAt }

/-- What the first cohort that is not settled in full leaves of the budget pays no younger request,
unless the arithmetic fails before. -/
def KeepsOrder : Prop :=
  ∀ first ∈ x.pending,
    (∀ r ∈ x.pending, r.requestedAt < first.requestedAt → (x.comesTo r.requestedAt).Settles r) →
    (∀ r ∈ x.cohort first.requestedAt, ¬ (x.comesTo first.requestedAt).Overflows r) →
    (∃ r ∈ x.cohort first.requestedAt, ¬ (x.comesTo first.requestedAt).Settles r) →
    (x.after first.requestedAt).PaysNothing

instance : Decidable x.KeepsOrder :=
  inferInstanceAs (Decidable (∀ first ∈ x.pending, _ → _ → _ → _))

variable {x}

theorem comesTo_oldest (ht : ∀ r ∈ x.pending, t ≤ r.requestedAt) : x.comesTo t = x := by
  have hnone : (x.pending.filter fun r => r.requestedAt < t) = [] :=
    List.filter_eq_nil_iff.2 fun r hr => by simpa using ht r hr
  have hall : (x.pending.filter fun r => t ≤ r.requestedAt) = x.pending :=
    List.filter_eq_self.2 fun r hr => by simpa using ht r hr
  unfold comesTo
  rw [hnone, hall]
  simp [sumOver]

theorem keepsOrder_of_overflows (ht : ∀ r ∈ x.pending, t ≤ r.requestedAt)
    (hover : ∃ r ∈ x.cohort t, x.Overflows r) : x.KeepsOrder := by
  obtain ⟨r, hr, hover⟩ := hover
  obtain ⟨hmem, hrt⟩ := List.mem_filter.1 hr
  have hrt := of_decide_eq_true hrt
  intro first hfirst holder hfits _
  rcases (ht first hfirst).eq_or_lt with heq | hlt
  · rw [← heq, comesTo_oldest ht] at hfits
    exact absurd hover (hfits r hr)
  · have hsettled := holder r hmem (by rw [hrt]; exact hlt)
    rw [hrt, comesTo_oldest ht] at hsettled
    exact absurd hover hsettled.1

theorem keepsOrder_of_unsettled (ht : ∀ r ∈ x.pending, t ≤ r.requestedAt)
    (hfits : ∀ r ∈ x.cohort t, ¬ x.Overflows r) (hunsettled : ∃ r ∈ x.cohort t, ¬ x.Settles r) :
    x.KeepsOrder ↔ (x.after t).PaysNothing := by
  obtain ⟨r, hr, hno⟩ := hunsettled
  obtain ⟨hmem, hrt⟩ := List.mem_filter.1 hr
  have hrt := of_decide_eq_true hrt
  constructor
  · intro horder
    have hafter := horder r hmem (fun r' hr' hlt => absurd (ht r' hr') (by omega))
    rw [hrt, comesTo_oldest ht] at hafter
    exact hafter hfits ⟨r, hr, hno⟩
  · intro hnothing first hfirst holder _ _
    rcases (ht first hfirst).eq_or_lt with heq | hlt
    · rwa [← heq]
    · have hsettled := holder r hmem (by rw [hrt]; exact hlt)
      rw [hrt, comesTo_oldest ht] at hsettled
      exact absurd hsettled hno

variable (x) in
/-- The pass over the younger requests, when the cohort of a time was settled in full. -/
def next (t : ℕ) : Entry :=
  { x with
    budget := x.budget - sumOver x.worth (x.cohort t)
    pending := x.pending.filter fun r => r.requestedAt ≠ t }

theorem next_cohort (hne : t' ≠ t) : (x.next t).cohort t' = x.cohort t' :=
  filter_younger hne

theorem next_comesTo (hlt : t < t') : (x.next t).comesTo t' = x.comesTo t' := by
  have hpending :
      (x.pending.filter fun r => r.requestedAt ≠ t).filter (fun r => t' ≤ r.requestedAt) =
      x.pending.filter fun r => t' ≤ r.requestedAt := by
    rw [List.filter_filter]
    refine List.filter_congr fun r _ => ?_
    by_cases hr : t' ≤ r.requestedAt
    · have : r.requestedAt ≠ t := by omega
      simp [hr, this]
    · simp [hr]
  have hcohort :
      (x.pending.filter fun r => r.requestedAt < t').filter (fun r => r.requestedAt = t) =
      x.cohort t := by
    rw [List.filter_filter]
    refine List.filter_congr fun r _ => ?_
    by_cases hr : r.requestedAt = t
    · simp [hr, hlt]
    · simp [hr]
  have hswap : (x.pending.filter fun r => r.requestedAt < t').filter
      (fun r => !decide (r.requestedAt = t)) =
      (x.pending.filter fun r => r.requestedAt ≠ t).filter fun r => r.requestedAt < t' := by
    rw [List.filter_filter, List.filter_filter]
    refine List.filter_congr fun r _ => ?_
    by_cases hr : r.requestedAt = t
    · simp [hr]
    · simp [hr]
  have hsum := sumOver_filter x.worth (fun r => r.requestedAt = t)
    (x.pending.filter fun r => r.requestedAt < t')
  rw [hcohort, hswap] at hsum
  have hbudget : x.budget - sumOver x.worth (x.cohort t) - sumOver x.worth
      ((x.pending.filter fun r => r.requestedAt ≠ t).filter fun r => r.requestedAt < t') =
      x.budget - sumOver x.worth (x.pending.filter fun r => r.requestedAt < t') := by
    linarith
  unfold comesTo
  show Entry.mk (x.budget - sumOver x.worth (x.cohort t) - sumOver x.worth
    ((x.pending.filter fun r => r.requestedAt ≠ t).filter fun r => r.requestedAt < t')) _ _
    ((x.pending.filter fun r => r.requestedAt ≠ t).filter fun r => t' ≤ r.requestedAt) = _
  rw [hbudget, hpending]
  rfl

theorem next_after (hlt : t < t') : (x.next t).after t' = x.after t' := by
  have hpending :
      (x.pending.filter fun r => r.requestedAt ≠ t).filter (fun r => t' < r.requestedAt) =
      x.pending.filter fun r => t' < r.requestedAt := by
    rw [List.filter_filter]
    refine List.filter_congr fun r _ => ?_
    by_cases hr : t' < r.requestedAt
    · have : r.requestedAt ≠ t := by omega
      simp [hr, this]
    · simp [hr]
  unfold after
  rw [next_comesTo hlt, next_cohort hlt.ne']
  show Entry.mk _ _ _ ((x.pending.filter fun r => r.requestedAt ≠ t).filter
    fun r => t' < r.requestedAt) = _
  rw [hpending]
  rfl

theorem keepsOrder_of_settled (ht : ∀ r ∈ x.pending, t ≤ r.requestedAt)
    (hall : ∀ r ∈ x.cohort t, x.Settles r) : x.KeepsOrder ↔ (x.next t).KeepsOrder := by
  have hlater {r : WithdrawalRequest} (hr : r ∈ x.pending) (hne : r.requestedAt ≠ t) :
      t < r.requestedAt := lt_of_le_of_ne (ht r hr) hne.symm
  constructor
  · intro horder first hfirst holder
    obtain ⟨hmem, hne⟩ := List.mem_filter.1 hfirst
    have hlt := hlater hmem (of_decide_eq_true hne)
    rw [next_comesTo hlt, next_cohort hlt.ne', next_after hlt]
    refine horder first hmem fun r hr hrt => ?_
    by_cases hrt' : r.requestedAt = t
    · rw [hrt', comesTo_oldest ht]
      exact hall r (List.mem_filter.2 ⟨hr, decide_eq_true hrt'⟩)
    · rw [← next_comesTo (hlater hr hrt')]
      exact holder r (List.mem_filter.2 ⟨hr, decide_eq_true hrt'⟩) hrt
  · intro horder first hmem holder hfits hunsettled
    by_cases hft : first.requestedAt = t
    · obtain ⟨r, hr, hno⟩ := hunsettled
      rw [hft] at hr
      rw [hft, comesTo_oldest ht] at hno
      exact absurd (hall r hr) hno
    · have hlt := hlater hmem hft
      have hnext := horder first (List.mem_filter.2 ⟨hmem, decide_eq_true hft⟩)
      rw [next_comesTo hlt, next_cohort hlt.ne', next_after hlt] at hnext
      refine hnext (fun r hr hrt => ?_) hfits hunsettled
      obtain ⟨hr, hne⟩ := List.mem_filter.1 hr
      rw [next_comesTo (hlater hr (of_decide_eq_true hne))]
      exact holder r hr hrt

theorem payment_of_settles (h : x.Settles r) :
    x.payment r = some ⟨r, x.worth r, r.shares⟩ ∧ x.taken r = x.worth r := by
  have hpayout : x.payout r = x.worth r := min_eq_left h.2.2
  unfold payment taken burned
  rw [hpayout, if_pos h.2.1, if_neg (not_le.2 h.2.1), if_pos rfl]
  exact ⟨rfl, max_eq_right h.2.1.le⟩

theorem burned_of_unsettled (hfits : ¬ x.Overflows r) (hshares : 0 < r.shares) (hno : ¬ x.Settles r)
    (hpay : 0 < x.payout r) :
    x.burned r ≠ r.shares := by
  have hle : x.payout r ≤ x.worth r := min_le_left _ _
  have hlt : x.payout r < x.worth r := by
    by_contra hge
    have heq : x.payout r = x.worth r := le_antisymm hle (not_lt.1 hge)
    exact hno ⟨hfits, heq ▸ hpay, min_eq_left_iff.1 heq⟩
  intro hall
  unfold burned at hall
  rw [if_neg (not_le.2 hpay), if_neg hlt.ne] at hall
  have hmul := tdiv_mul_le (hpay.trans hlt) (hall ▸ hshares)
  rw [hall] at hmul
  have := mul_lt_mul_of_pos_right hlt hshares
  linarith

theorem request_of_payment {requests : List WithdrawalRequest} {m : Payment}
    (h : m ∈ requests.filterMap x.payment) :
    m.request ∈ requests ∧ 0 < x.payout m.request ∧ m.burned = x.burned m.request := by
  obtain ⟨r, hr, hm⟩ := List.mem_filterMap.1 h
  unfold payment at hm
  split_ifs at hm with hpos
  obtain rfl := Option.some.inj hm
  exact ⟨hr, hpos, rfl⟩

/-- What the younger requests of `x.pending` are paid, after the oldest cohort was served with
figures `p`, is in order exactly when the pass over them is. -/
theorem oldestFirst_cohort_iff {t fuel : ℕ} {p₁ : Plan}
    (hlen : (x.pending.filter fun r => r.requestedAt ≠ t).length ≤ fuel) (hts : 0 < x.totalShares)
    (hshares : ∀ r ∈ x.pending, 0 < r.shares) (ht : ∀ r ∈ x.pending, t ≤ r.requestedAt)
    (hfits : ∀ r ∈ x.cohort t, ¬ x.Overflows r)
    (hleft : p₁.remainingAmount = x.budget - sumOver x.taken (x.cohort t))
    (hnew : paymentsOf (planCohorts x.valuation x.totalShares fuel p₁ (x.pending.filter fun r =>
      r.requestedAt ≠ t)) = p₁.payments ++ new)
    (hto : List.Subperm (new.map Payment.request) (x.pending.filter fun r => r.requestedAt ≠ t))
    (hnext : p₁.remainingAmount = (x.next t).budget → (OldestFirst (x.next t).pending new ↔
      (x.next t).KeepsOrder)) :
    OldestFirst x.pending ((x.cohort t).filterMap x.payment ++ new) ↔ x.KeepsOrder := by
  have hat : ∀ r ∈ x.cohort t, r.requestedAt = t := fun r hr =>
    of_decide_eq_true (List.mem_filter.1 hr).2
  have hfirst : ∀ m ∈ (x.cohort t).filterMap x.payment, m.request.requestedAt = t :=
    fun m hm => hat _ (request_of_payment hm).1
  by_cases hall : ∀ r ∈ x.cohort t, x.Settles r
  · have htaken : sumOver x.taken (x.cohort t) = sumOver x.worth (x.cohort t) := by
      unfold sumOver
      rw [List.map_congr_left fun r hr => (payment_of_settles (hall r hr)).2]
    rw [keepsOrder_of_settled ht hall, oldestFirst_append_of_settled ht hfirst ?_]
    · exact hnext (by rw [hleft, htaken]; rfl)
    · intro r hr hrt
      have hin : r ∈ x.cohort t := List.mem_filter.2 ⟨hr, decide_eq_true hrt⟩
      exact ⟨_, List.mem_filterMap.2 ⟨r, hin, (payment_of_settles (hall r hin)).1⟩, rfl, rfl⟩
  · obtain ⟨r, hr, hno⟩ : ∃ r ∈ x.cohort t, ¬ x.Settles r := by
      by_contra hnone
      exact hall fun r hr => by_contra fun hno => hnone ⟨r, hr, hno⟩
    have hlater : ∀ m ∈ new, t < m.request.requestedAt := by
      intro m hm
      obtain ⟨hin, hne⟩ := List.mem_filter.1 (hto.subset (List.mem_map_of_mem hm))
      exact lt_of_le_of_ne (ht _ hin) (of_decide_eq_true hne).symm
    have hkept : ∀ m ∈ (x.cohort t).filterMap x.payment, m.request = r → m.burned ≠ r.shares := by
      intro m hm hreq
      obtain ⟨-, hpay, hburned⟩ := request_of_payment hm
      rw [hburned, hreq]
      exact burned_of_unsettled (hfits r hr) (hshares r (List.mem_filter.1 hr).1) hno (hreq ▸ hpay)
    rw [keepsOrder_of_unsettled ht hfits ⟨r, hr, hno⟩,
      oldestFirst_append_of_unsettled ht hfirst hlater (List.mem_filter.1 hr).1 (hat r hr) hkept]
    -- the pass over the younger requests is one that has paid nothing yet
    have hyounger : (x.pending.filter fun r => r.requestedAt ≠ t) =
        x.pending.filter fun r => t < r.requestedAt := by
      refine List.filter_congr fun r hr => ?_
      have := ht r hr
      simp only [decide_eq_decide]
      omega
    rw [hyounger] at hnew hlen
    have hbudget : p₁.remainingAmount = (x.after t).budget := by
      unfold after
      rw [hleft, comesTo_oldest ht]
    refine Iff.trans ?_
      (paymentsOf_planCohorts_iff (x := x.after t) hts hlen cohortsOf_pending hbudget)
    show new = [] ↔ paymentsOf (planCohorts x.valuation x.totalShares fuel p₁
      (x.pending.filter fun r => t < r.requestedAt)) = p₁.payments
    rw [hnew]
    exact List.append_right_eq_self.symm

theorem oldestFirst_iff : ∀ {fuel : ℕ} {x : Entry} {p : Plan} {new : List Payment},
    x.pending.length ≤ fuel → 0 < x.totalShares → (∀ r ∈ x.pending, 0 < r.shares) →
    p.remainingAmount = x.budget → x.Roomy p →
    paymentsOf (planCohorts x.valuation x.totalShares fuel p x.pending) = p.payments ++ new →
    (OldestFirst x.pending new ↔ x.KeepsOrder) := by
  intro fuel
  induction fuel with
  | zero =>
    intro x p new hlen _ _ _ _ _
    have hnil := List.length_eq_zero_iff.1 (Nat.le_zero.1 hlen)
    unfold OldestFirst KeepsOrder
    rw [hnil]
    simp
  | succ fuel ih =>
    intro x p new hlen hts hshares hleft hroom hnew
    cases hpending : x.pending with
    | nil =>
      unfold OldestFirst KeepsOrder
      rw [hpending]
      simp
    | cons first rest =>
      obtain ⟨r₀, hr₀, hold⟩ := exists_oldest first rest
      have hlt := length_younger_lt first rest
      have ht := oldestRequestedAt_le first rest
      rw [hpending] at hnew
      unfold planCohorts at hnew
      dsimp only at hnew
      generalize oldestRequestedAt first rest = t at hnew hold hlt ht
      rw [← hpending] at hnew hr₀ hlt ht ⊢
      have hat : ∀ r ∈ x.cohort t, r.requestedAt = t := fun r hr =>
        of_decide_eq_true (List.mem_filter.1 hr).2
      have hmem : r₀ ∈ x.cohort t := List.mem_filter.2 ⟨hr₀, decide_eq_true hold⟩
      have hsame : (x.pending.filter fun r => r.requestedAt = t) = x.cohort t := rfl
      rw [hsame] at hnew
      cases hsum : sumShares (x.cohort t) with
      | error f =>
        rw [hsum] at hnew
        obtain rfl : new = [] :=
          List.append_cancel_left (hnew.symm.trans (List.append_nil _).symm)
        refine iff_of_true (fun m hm => absurd hm List.not_mem_nil)
          (keepsOrder_of_overflows ht ⟨r₀, hmem, .inl ?_⟩)
        rw [hold, hsum]
        rfl
      | ok c =>
        rw [hsum, hleft] at hnew
        change paymentsOf ((List.foldlM _ p _ : Except Stop Plan) >>= _) = _ at hnew
        have hcohort : ∀ r ∈ x.cohort t, 0 < r.shares := fun r hr =>
          hshares r (List.mem_filter.1 hr).1
        obtain rfl := sumShares_eq_ok hsum
        have hcpos := sumOver_shares_pos hcohort (List.ne_nil_of_mem hmem)
        by_cases hover : ∃ r ∈ x.cohort t, x.Overflows r
        · -- the pass ends within the oldest cohort
          refine iff_of_true (oldestFirst_of_oldest ht ?_) (keepsOrder_of_overflows ht hover)
          obtain ⟨new₁, hnew₁, hto⟩ := adds_foldlM x.valuation x.totalShares x.budget
            (sumOver WithdrawalRequest.shares (x.cohort t)) (x.cohort t) p
          cases hfold : (x.cohort t).foldlM (planRequest x.valuation x.totalShares x.budget
              (sumOver WithdrawalRequest.shares (x.cohort t))) p with
          | ok p₁ => exact absurd hfold (foldlM_planRequest_ne_ok hsum hat hover)
          | error stop =>
            rw [hfold] at hnew hnew₁
            obtain rfl := List.append_cancel_left (hnew.symm.trans hnew₁)
            exact fun m hm => hat _ (hto.subset (List.mem_map_of_mem hm))
        · have hfits : ∀ r ∈ x.cohort t, ¬ x.Overflows r := fun r hr h => hover ⟨r, hr, h⟩
          obtain ⟨p₁, hfold, hroom₁, hleft₁, hmade₁⟩ := foldlM_planRequest_of_fits hsum hts
            hcpos (hleft ▸ hroom.remaining) hat hfits hcohort hroom (by rw [hleft])
          obtain ⟨new', hnew', hto⟩ := adds_planCohorts x.valuation x.totalShares fuel
            (x.pending.filter fun r => r.requestedAt ≠ t) p₁
          rw [hfold, ok_bind, hnew', hmade₁, List.append_assoc] at hnew
          obtain rfl := List.append_cancel_left hnew
          rw [hleft] at hleft₁
          have hyounger : (x.pending.filter fun r => r.requestedAt ≠ t).length ≤ fuel := by
            omega
          refine oldestFirst_cohort_iff hyounger hts hshares ht hfits hleft₁ hnew' hto
            fun hbudget => ?_
          exact ih hyounger hts (fun r hr => hshares r (List.mem_filter.1 hr).1) hbudget
            ⟨hroom₁.1, hroom₁.2, hroom₁.3⟩ hnew'

end Entry

/-- The requests that the pass processes: the aged ones if there are any, and otherwise all. -/
def State.processed (s : State W) (token : Address) : List WithdrawalRequest :=
  let aged := (s.queue token).filter
    (isAged (s.params.config.maxWithdrawalQueueAgeDays * secsPerDay) s.now)
  if aged = [] then s.queue token else aged

theorem processed_eq {s : State W} {pending regular : List WithdrawalRequest}
    (hpos : ∀ r ∈ s.queue token, 0 < r.shares)
    (hsplit : splitQueue (s.params.config.maxWithdrawalQueueAgeDays * secsPerDay) s.now
      (s.queue token) = .ok (pending, regular)) : s.processed token = pending := by
  unfold splitQueue at hsplit
  unfold State.processed
  dsimp only
  rw [bind_eq_ok] at hsplit
  obtain ⟨due, hdue, hsplit⟩ := hsplit
  have hshares : ∀ r ∈ (s.queue token).filter
      (isAged (s.params.config.maxWithdrawalQueueAgeDays * secsPerDay) s.now), 0 < r.shares :=
    fun r hr => hpos r (List.mem_filter.1 hr).1
  split_ifs at hsplit with hzero
  · simp only [bind_eq_ok, pure_eq_ok, Prod.mk.injEq] at hsplit
    obtain ⟨-, -, rfl, -⟩ := hsplit
    have haged : (s.queue token).filter
        (isAged (s.params.config.maxWithdrawalQueueAgeDays * secsPerDay) s.now) = [] := by
      by_contra hne
      have := sumOver_shares_pos hshares hne
      have := sumShares_eq_ok hdue
      omega
    rw [if_pos haged]
    refine (List.filter_eq_self.2 fun r hr => ?_).symm
    have := List.filter_eq_nil_iff.1 haged r hr
    simpa using this
  · rw [pure_eq_ok, Prod.mk.injEq] at hsplit
    obtain ⟨rfl, -⟩ := hsplit
    refine if_neg fun haged => hzero ?_
    have hsum := sumShares_eq_ok hdue
    rw [haged] at hsum
    exact hsum

/-- Whatever the call returns, it makes its payments oldest first exactly when what the first cohort
that is not settled in full leaves of the budget pays no younger request. -/
theorem oldest_first_iff {s s' : State W} {availableAmount : ℤ} {o : Option PoolError}
    (hpos : ∀ r ∈ s.queue token, 0 < r.shares) (hrange : InI128 (s.tt token).poolValue)
    (hq : processWithdrawalQueue h signers s token availableAmount = .ok (s', o)) :
    MadeFrom h signers token s s' (passPayments (planPass s token availableAmount)) ∧
      (OldestFirst (s.processed token) (passPayments (planPass s token availableAmount)) ↔
        ∀ x ∈ s.queueEntry token availableAmount, 0 < x.budget → 0 < x.totalShares →
          x.KeepsOrder) := by
  refine ⟨madeFrom_passPayments hq, ?_⟩
  have hentry {x : Entry} (hx : x ∈ s.queueEntry token availableAmount) (hb : 0 < x.budget)
      (hts : 0 < x.totalShares) :
      OldestFirst (s.processed token) (passPayments (planPass s token availableAmount)) ↔
        x.KeepsOrder := by
    have hmade := passPayments_of_entry hx hb hts
    obtain ⟨share, liquid, pending, regular, hshare, hliquid, hsplit, rfl⟩ :=
      queueEntry_eq_some.1 hx
    have hfits := ((checkedSub_eq_some ..).1 hliquid).2
    have hle := min_le_right availableAmount liquid
    have hliquid' := ((checkedSub_eq_some ..).1 hliquid).1
    unfold InI128 at hfits hrange
    rw [hmade, processed_eq hpos hsplit]
    refine Entry.oldestFirst_iff
      (p := ⟨(s.tt token).poolValue, min availableAmount liquid, [], []⟩) le_rfl hts
      (fun r hr => hpos r ((splitQueue_eq_ok hsplit).1 r hr)) rfl
      ⟨?_, ?_, fun hvaluation => ?_⟩ (List.nil_append _).symm
    · exact hb.le
    · show min availableAmount liquid < 2 ^ 127
      omega
    · show -2 ^ 127 ≤ (s.tt token).poolValue - min availableAmount liquid ∧
        (s.tt token).poolValue < 2 ^ 127
      change 0 < (s.tt token).poolValue at hvaluation
      omega
  by_cases hmade : passPayments (planPass s token availableAmount) = []
  · refine iff_of_true ?_ fun x hx hb hts => (hentry hx hb hts).1 ?_
    · rw [hmade]
      exact fun m hm => absurd hm List.not_mem_nil
    · rw [hmade]
      exact fun m hm => absurd hm List.not_mem_nil
  · obtain ⟨x, hx, hb, hts⟩ := exists_entry hmade
    rw [hentry hx hb hts]
    constructor
    · intro horder x' hx' _ _
      obtain rfl : x = x' := Option.some.inj (hx.symm.trans hx')
      exact horder
    · exact fun hall => hall x hx hb hts

theorem drainWithdrawalQueue_of_parts {s s' : State W} {caller : Address} {liquid : ℤ}
    (hauth : requireAuth signers caller = .ok ()) (hpaused : s.requireNotPaused = .ok ())
    (haccepted : s.assertAcceptedToken token = .ok ())
    (hliquid : availableLiquidity (s.tt token) = .ok liquid)
    (hq : processWithdrawalQueue h signers s token liquid = .ok (s', none)) :
    drainWithdrawalQueue h signers s caller token = .ok s' := by
  unfold drainWithdrawalQueue
  rw [hauth, ok_bind, hpaused, ok_bind, haccepted, ok_bind, hliquid, ok_bind, hq]
  rfl

/-- Three investors deposit, all but `spare` of it is lent out, investors 3 and 5 ask for 500 shares
at the same time, and investor 6 later. -/
def threeRequests (spare : ℤ) : List (Tx quietHost) :=
  [⟨[1], self_ne_one, .setMaxInvestorConcentration 1 10000⟩,
    ⟨[3], self_ne_three, .deposit 3 10 1000 none⟩,
    ⟨[5], self_ne_five, .deposit 5 10 1000 none⟩,
    ⟨[6], by decide, .deposit 6 10 1000 none⟩,
    ⟨[1], self_ne_one, .fundInvoice 1 ⟨7, 3000 - spare, 4, 31536001, 10⟩⟩,
    ⟨[3], self_ne_three, .requestWithdrawal 3 10 500⟩,
    ⟨[5], self_ne_five, .requestWithdrawal 5 10 500⟩,
    ⟨[], self_notMem_nil, .advance 10⟩,
    ⟨[6], by decide, .requestWithdrawal 6 10 500⟩]

theorem oldest_first_iff_even :
    ∃ s s', execAll quietHost sampleState (threeRequests 400) = .ok s ∧
      processWithdrawalQueue quietHost [3, 5] s 10 400 = .ok (s', none) ∧
      MadeFrom quietHost [3, 5] 10 s s' (passPayments (planPass s 10 400)) ∧
      OldestFirst (s.processed 10) (passPayments (planPass s 10 400)) ∧
      s'.cash 10 3 = s.cash 10 3 + 200 := by
  obtain ⟨s, hs, hp⟩ := exists_of_check (x := execAll quietHost sampleState (threeRequests 400))
    (p := fun s => check (processWithdrawalQueue quietHost [3, 5] s 10 400) fun r =>
      decide (r.2 = none ∧ (∀ r ∈ s.queue 10, 0 < r.shares) ∧ InI128 (s.tt 10).poolValue ∧
        (∀ x ∈ s.queueEntry 10 400, 0 < x.budget → 0 < x.totalShares → x.KeepsOrder) ∧
        r.1.cash 10 3 = s.cash 10 3 + 200)) (by decide)
  obtain ⟨⟨s', o⟩, hq, hp⟩ := exists_of_check hp
  obtain ⟨rfl, hpos, hrange, horder, hcash⟩ := of_decide_eq_true hp
  have hiff := oldest_first_iff hpos hrange hq
  exact ⟨s, s', hs, hq, hiff.1, hiff.2.2 horder, hcash⟩

/-- With 1 to pay out the parts of the two older requests are both rounded down to nothing, and the
younger one is paid. -/
theorem younger_paid_first :
    ∃ s s', execAll quietHost sampleState (threeRequests 1) = .ok s ∧
      processWithdrawalQueue quietHost [6] s 10 1 = .ok (s', none) ∧
      exec quietHost s ⟨[6], by decide, .drainWithdrawalQueue 6 10⟩ = .ok s' ∧
      s'.cash 10 6 = s.cash 10 6 + 1 ∧ s'.cash 10 3 = s.cash 10 3 ∧ s'.cash 10 5 = s.cash 10 5 ∧
      ¬ OldestFirst (s.processed 10) (passPayments (planPass s 10 1)) := by
  obtain ⟨s, hs, hp⟩ := exists_of_check (x := execAll quietHost sampleState (threeRequests 1))
    (p := fun s => check (processWithdrawalQueue quietHost [6] s 10 1) fun r =>
      check s.requireNotPaused fun _ => check (s.assertAcceptedToken 10) fun _ =>
      check (availableLiquidity (s.tt 10)) fun liquid =>
      decide (liquid = 1 ∧ r.2 = none ∧ r.1.cash 10 6 = s.cash 10 6 + 1 ∧
        r.1.cash 10 3 = s.cash 10 3 ∧ r.1.cash 10 5 = s.cash 10 5 ∧
        ¬ OldestFirst (s.processed 10) (passPayments (planPass s 10 1)))) (by decide)
  obtain ⟨⟨s', o⟩, hq, hp⟩ := exists_of_check hp
  obtain ⟨⟨⟩, hpaused, hp⟩ := exists_of_check hp
  obtain ⟨⟨⟩, haccepted, hp⟩ := exists_of_check hp
  obtain ⟨liquid, hliquid, hp⟩ := exists_of_check hp
  obtain ⟨rfl, rfl, hsix, hthree, hfive, horder⟩ := of_decide_eq_true hp
  exact ⟨s, s', hs, hq, drainWithdrawalQueue_of_parts rfl hpaused haccepted hliquid hq, hsix,
    hthree, hfive, horder⟩

end Astera.Pool
