import Astera.Market.Contract

/-!
# The liquidity forecast

`get_liquidity_forecast` puts every open invoice in the bucket of the first day on which it is due and
adds the buckets up.  The plain way looks at all invoices on every day; the two agree.
-/

namespace Astera.Market

open Fallible Machine
open Pool (FundedInvoice)

variable {W : Type}

def secsPerDay : ℕ := 86_400

def maxForecastHorizonDays : ℕ := 365

structure LiquidityForecastPoint where
  day : ℕ
  projectedAvailable : ℤ
  deriving DecidableEq, Repr

/-- The calls of the forecast into the pool; `none` is a trap. -/
structure ForecastHost (W : Type) where
  /-- `get_token_totals`: the pool value and what is deployed. -/
  getTokenTotals : W → Address → Address → Option (ℤ × ℤ)
  getOpenInvoicesForToken : W → Address → Address → Option (List FundedInvoice)
  getTrailingInflowRate : W → Address → Address → Option ℤ

def firstDueDay (now : ℕ) (invoice : FundedInvoice) : ℕ :=
  max (saturatingAddU 64 (invoice.dueDate - now) (secsPerDay - 1) / secsPerDay) 1

/-- One turn of the pass over the invoices. -/
def addRepayment (now horizon : ℕ) (repaymentsByDay : ℕ → ℤ) (invoice : FundedInvoice) : ℕ → ℤ :=
  let outstanding := saturatingSub invoice.principal invoice.repaidAmount
  let day := firstDueDay now invoice
  if day ≤ horizon then
    Function.update repaymentsByDay day (saturatingAdd (repaymentsByDay day) outstanding)
  else repaymentsByDay

/-- One turn of the pass over the days: what is repaid until then, and the points. -/
def addPoint (currentLiquidity rate : ℤ) (repaymentsByDay : ℕ → ℤ)
    (acc : ℤ × List LiquidityForecastPoint) (day : ℕ) : ℤ × List LiquidityForecastPoint :=
  let expectedRepayments := saturatingAdd acc.1 (repaymentsByDay day)
  let extrapolatedInflow := saturatingMul rate (day * secsPerDay)
  (expectedRepayments, acc.2 ++ [{
    day := day
    projectedAvailable :=
      saturatingAdd (saturatingAdd currentLiquidity expectedRepayments) extrapolatedInflow }])

def forecastPoints (currentLiquidity rate : ℤ) (now horizon : ℕ) (invoices : List FundedInvoice) :
    List LiquidityForecastPoint :=
  let repaymentsByDay := invoices.foldl (addRepayment now horizon) fun _ => 0
  ((List.range' 1 horizon).foldl (addPoint currentLiquidity rate repaymentsByDay) (0, [])).2

def getLiquidityForecast (h : ForecastHost W) (s : State W) (token : Address) (horizonDays : ℕ) :
    Option (List LiquidityForecastPoint) := do
  let horizon := max 1 (min horizonDays maxForecastHorizonDays)
  let (poolValue, totalDeployed) ← h.getTokenTotals s.world s.poolContract token
  let currentLiquidity := (checkedSub poolValue totalDeployed).getD 0
  let invoices ← h.getOpenInvoicesForToken s.world s.poolContract token
  let rate ← h.getTrailingInflowRate s.world s.poolContract token
  return forecastPoints currentLiquidity rate s.now horizon invoices

/-! ## The plain sums -/

def outstanding (invoice : FundedInvoice) : ℤ := invoice.principal - invoice.repaidAmount

/-- What is outstanding on the invoices with a property. -/
def outstandingOf (p : FundedInvoice → Bool) (invoices : List FundedInvoice) : ℤ :=
  ((invoices.filter p).map outstanding).sum

/-- The plain way: the invoices that are due by the end of the day. -/
def dueBy (now day : ℕ) (invoices : List FundedInvoice) : ℤ :=
  outstandingOf (fun invoice => invoice.dueDate ≤ now + day * secsPerDay) invoices

/-- None of the sums of the forecast saturates. -/
structure Unsaturated (currentLiquidity rate : ℤ) (now horizon : ℕ) (invoices : List FundedInvoice) :
    Prop where
  outstanding : ∀ invoice ∈ invoices, InI128 (outstanding invoice)
  bucket : ∀ day some, some <+: invoices →
    InI128 (outstandingOf (fun invoice => firstDueDay now invoice = day) some)
  repayments : ∀ day, 1 ≤ day → day ≤ horizon → InI128 (dueBy now day invoices)
  inflow : ∀ day ≤ horizon, InI128 (rate * (day * secsPerDay : ℕ))
  available : ∀ day, 1 ≤ day → day ≤ horizon → InI128 (currentLiquidity + dueBy now day invoices)
  projected : ∀ day, 1 ≤ day → day ≤ horizon →
    InI128 (currentLiquidity + dueBy now day invoices + rate * (day * secsPerDay : ℕ))

variable {currentLiquidity rate : ℤ} {now horizon day : ℕ} {invoices : List FundedInvoice}
  {invoice : FundedInvoice}

theorem one_le_firstDueDay : 1 ≤ firstDueDay now invoice := le_max_right _ _

theorem firstDueDay_le_iff (hday : 1 ≤ day) (hmax : day ≤ maxForecastHorizonDays) :
    firstDueDay now invoice ≤ day ↔ invoice.dueDate ≤ now + day * secsPerDay := by
  unfold firstDueDay saturatingAddU secsPerDay maxForecastHorizonDays at *
  omega

theorem outstandingOf_concat (p : FundedInvoice → Bool) (invoices : List FundedInvoice)
    (invoice : FundedInvoice) :
    outstandingOf p (invoices ++ [invoice]) =
      outstandingOf p invoices + if p invoice = true then outstanding invoice else 0 := by
  unfold outstandingOf
  rw [List.filter_append, List.map_append, List.sum_append]
  by_cases hp : p invoice = true <;> simp [hp]

theorem outstandingOf_succ (now day : ℕ) (invoices : List FundedInvoice) :
    outstandingOf (fun invoice => firstDueDay now invoice ≤ day + 1) invoices =
      outstandingOf (fun invoice => firstDueDay now invoice ≤ day) invoices +
        outstandingOf (fun invoice => firstDueDay now invoice = day + 1) invoices := by
  induction invoices using List.reverseRecOn with
  | nil => rfl
  | append_singleton invoices invoice ih =>
    simp only [outstandingOf_concat, ih, decide_eq_true_eq]
    split_ifs <;> omega

theorem dueBy_eq (hday : 1 ≤ day) (hmax : day ≤ maxForecastHorizonDays) :
    outstandingOf (fun invoice => firstDueDay now invoice ≤ day) invoices =
      dueBy now day invoices := by
  unfold dueBy
  congr 1
  funext invoice
  rw [decide_eq_decide]
  exact firstDueDay_le_iff hday hmax

theorem foldl_addRepayment (hsums : Unsaturated currentLiquidity rate now horizon invoices)
    {some : List FundedInvoice} (hsome : some <+: invoices) (hday : day ≤ horizon) :
    (some.foldl (addRepayment now horizon) fun _ => 0) day =
      outstandingOf (fun invoice => firstDueDay now invoice = day) some := by
  induction some using List.reverseRecOn with
  | nil => rfl
  | append_singleton some invoice ih =>
    have hbefore := ih ((List.prefix_append _ _).trans hsome)
    have hmem : invoice ∈ invoices := hsome.subset (by simp)
    have hbucket := hsums.bucket day _ hsome
    rw [outstandingOf_concat] at hbucket ⊢
    rw [List.foldl_append, List.foldl_cons, List.foldl_nil]
    generalize (some.foldl (addRepayment now horizon) fun _ => 0) = before at hbefore ⊢
    unfold addRepayment
    rw [saturatingSub_eq _ _ (hsums.outstanding invoice hmem)]
    by_cases hown : firstDueDay now invoice = day
    · subst hown
      rw [if_pos (decide_eq_true rfl)] at hbucket ⊢
      rw [if_pos hday, Function.update_self, hbefore]
      exact saturatingAdd_eq _ _ hbucket
    · have hother : ¬ decide (firstDueDay now invoice = day) = true := by simpa using hown
      rw [if_neg hother, add_zero, ← hbefore]
      split_ifs
      · exact Function.update_of_ne (Ne.symm hown) _ _
      · rfl

theorem foldl_addPoint (hsums : Unsaturated currentLiquidity rate now horizon invoices)
    (hmax : horizon ≤ maxForecastHorizonDays) {days : ℕ} (hdays : days ≤ horizon) :
    (List.range' 1 days).foldl (addPoint currentLiquidity rate
        (invoices.foldl (addRepayment now horizon) fun _ => 0)) (0, []) =
      (outstandingOf (fun invoice => firstDueDay now invoice ≤ days) invoices,
        (List.range' 1 days).map fun day =>
          ⟨day, currentLiquidity + dueBy now day invoices + rate * (day * secsPerDay : ℕ)⟩) := by
  induction days with
  | zero =>
    have hnone : outstandingOf (fun invoice => firstDueDay now invoice ≤ 0) invoices = 0 := by
      unfold outstandingOf
      rw [List.filter_eq_nil_iff.2 fun invoice _ => by
        have : 1 ≤ firstDueDay now invoice := one_le_firstDueDay
        simp only [decide_eq_true_eq]
        omega]
      rfl
    rw [hnone]
    rfl
  | succ days ih =>
    have hone : 1 ≤ days + 1 := Nat.le_add_left _ _
    have hsum : outstandingOf (fun invoice => firstDueDay now invoice ≤ days) invoices +
        outstandingOf (fun invoice => firstDueDay now invoice = days + 1) invoices =
          dueBy now (days + 1) invoices := by
      rw [← outstandingOf_succ, dueBy_eq hone (hdays.trans hmax)]
    rw [List.range'_1_concat, List.foldl_append, ih (by omega), List.map_append,
      Nat.add_comm 1 days, dueBy_eq hone (hdays.trans hmax)]
    have hinflow := hsums.inflow (days + 1) hdays
    have hmul : saturatingMul rate ((days + 1 : ℕ) * secsPerDay : ℕ) =
        rate * ((days + 1) * secsPerDay : ℕ) := by
      unfold saturatingMul InI128 at *
      omega
    simp only [List.foldl_cons, List.foldl_nil, addPoint, List.map_cons, List.map_nil,
      foldl_addRepayment hsums List.prefix_rfl hdays, hsum,
      saturatingAdd_eq _ _ (hsum ▸ hsums.repayments _ hone hdays)]
    rw [← Nat.cast_mul, hmul, saturatingAdd_eq _ _ (hsums.available _ hone hdays),
      saturatingAdd_eq _ _ (hsums.projected _ hone hdays)]

/-- The forecast has for every day what the scan of all invoices gives for it. -/
theorem forecast_is_plain_sum {h : ForecastHost W} {s : State W} {token : Address} (horizonDays : ℕ)
    {poolValue totalDeployed : ℤ}
    (htotals : h.getTokenTotals s.world s.poolContract token = some (poolValue, totalDeployed))
    (hinvoices : h.getOpenInvoicesForToken s.world s.poolContract token = some invoices)
    (hrate : h.getTrailingInflowRate s.world s.poolContract token = some rate)
    (hsums : Unsaturated ((checkedSub poolValue totalDeployed).getD 0) rate s.now
      (max 1 (min horizonDays maxForecastHorizonDays)) invoices) :
    getLiquidityForecast h s token horizonDays =
      some ((List.range' 1 (max 1 (min horizonDays maxForecastHorizonDays))).map fun day =>
        ⟨day, (checkedSub poolValue totalDeployed).getD 0 + dueBy s.now day invoices +
          rate * (day * secsPerDay : ℕ)⟩) := by
  have hmax : max 1 (min horizonDays maxForecastHorizonDays) ≤ maxForecastHorizonDays :=
    max_le (by decide) (min_le_right _ _)
  unfold getLiquidityForecast forecastPoints
  simp only [htotals, hinvoices, hrate, Option.bind_eq_bind, Option.bind_some,
    foldl_addPoint hsums hmax le_rfl]
  rfl

/-- One invoice of 100 that is due on the second day, 600 in the pool and an inflow of one a second. -/
def sampleLoan : FundedInvoice := ⟨7, 3, 9, 100, 0, 0, 86_401, 0, none, 0⟩

theorem forecast_is_plain_sum_sample :
    getLiquidityForecast
        ⟨fun _ _ _ => some (1000, 400), fun _ _ _ => some [sampleLoan], fun _ _ _ => some 1⟩
        (initializeMarket 0 () 1 2) 9 2 = some [⟨1, 87_000⟩, ⟨2, 173_500⟩] := by
  have hone : ∀ (p : FundedInvoice → Bool) some, some <+: [sampleLoan] →
      outstandingOf p some = 0 ∨ outstandingOf p some = 100 := by
    intro p some hsome
    have hcases : some = [] ++ [sampleLoan] ∨ some <+: [] := List.prefix_concat_iff.1 hsome
    rcases hcases with rfl | hnil
    · by_cases hp : p sampleLoan = true
      · exact .inr (by simp [outstandingOf, hp]; rfl)
      · exact .inl (by simp [outstandingOf, hp])
    · exact .inl (by rw [List.prefix_nil.1 hnil]; rfl)
  have hfits : ∀ x : ℤ, x = 0 ∨ x = 100 → InI128 x := by
    rintro x (rfl | rfl) <;> decide
  have hdue : ∀ day, dueBy 0 day [sampleLoan] = 0 ∨ dueBy 0 day [sampleLoan] = 100 :=
    fun _ => hone _ _ List.prefix_rfl
  have hthree : ∀ day ≤ 2, day = 0 ∨ day = 1 ∨ day = 2 := fun day hday => by omega
  refine (forecast_is_plain_sum 2 rfl rfl rfl ⟨?_, ?_, ?_, ?_, ?_, ?_⟩).trans (by decide)
  · simp only [List.mem_singleton, forall_eq]
    decide
  · exact fun day some hsome => hfits _ (hone _ some hsome)
  · exact fun day _ _ => hfits _ (hdue day)
  · intro day hday
    rcases hthree day hday with rfl | rfl | rfl <;> decide
  · intro day _ hday
    rcases hthree day hday with rfl | rfl | rfl <;> decide
  · intro day _ hday
    rcases hthree day hday with rfl | rfl | rfl <;> decide

end Astera.Market
