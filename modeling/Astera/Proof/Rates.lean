import Mathlib.Data.List.DropRight
import Astera.Pool.Settings

/-!
# The rate and its history

The saturating arithmetic of `compute_current_rate` is exact for an accepted model: a line up to the
optimal utilization, another one above it, and a ceiling.

`record_rate_snapshot` keeps a token's samples in a ring buffer of 720 slots and drops repetitions;
`get_rate_history` returns the end of the list of all samples without the repeated ones.
-/

namespace Astera.Pool

open Fallible Machine RingBuffer

variable {config : RateModelConfig}

def RateModelConfig.curve (config : RateModelConfig) (utilizationBps : ℕ) : ℕ :=
  let util := min utilizationBps bpsDenom
  config.baseRateBps +
    min util config.optimalUtilizationBps * config.slope1Bps / config.optimalUtilizationBps +
    (util - config.optimalUtilizationBps) * config.slope2Bps /
      (bpsDenom - config.optimalUtilizationBps)

structure RateModelConfig.Valid (config : RateModelConfig) : Prop where
  optimal_pos : 0 < config.optimalUtilizationBps
  optimal_le : config.optimalUtilizationBps ≤ 10000
  max_le : config.maxRateBps ≤ 5000
  base_le : config.baseRateBps ≤ config.maxRateBps
  slope1_le : config.slope1Bps ≤ 5000
  slope2_le : config.slope2Bps ≤ 5000

theorem validateRateModelConfig_eq_ok (hv : validateRateModelConfig config = .ok ()) :
    config.Valid := by
  unfold validateRateModelConfig at hv
  simp only [bind_eq_ok, require_eq_ok, exists_unit] at hv
  obtain ⟨⟨hpos, hopt⟩, ⟨-, hmax⟩, hbase, hslope1, hslope2⟩ := hv
  exact ⟨Nat.pos_of_ne_zero hpos, hopt, hmax, hbase, hslope1, hslope2⟩

/-! ## Exact arithmetic -/

/-- No step of `compute_current_rate` leaves its range: the divisors are not zero, and no product,
sum or result saturates. -/
structure RateModelConfig.Unsaturated (config : RateModelConfig) (utilizationBps : ℕ) : Prop where
  divisor : config.optimalUtilizationBps ≠ 0
  product : min (min utilizationBps bpsDenom) config.optimalUtilizationBps * config.slope1Bps <
    2 ^ 128
  span : config.optimalUtilizationBps < min utilizationBps bpsDenom →
    config.optimalUtilizationBps ≤ bpsDenom ∧ bpsDenom - config.optimalUtilizationBps ≠ 0
  product' : (min utilizationBps bpsDenom - config.optimalUtilizationBps) * config.slope2Bps <
    2 ^ 128
  sum : config.curve utilizationBps < 2 ^ 128
  result : min (config.curve utilizationBps) config.maxRateBps < 2 ^ 32

theorem part_le {part whole slope : ℕ} (hle : part ≤ whole) : part * slope / whole ≤ slope := by
  apply Nat.div_le_of_le_mul
  exact Nat.mul_le_mul_right slope hle

theorem curve_le (config : RateModelConfig) (u : ℕ) :
    config.curve u ≤ config.baseRateBps + config.slope1Bps + config.slope2Bps := by
  unfold RateModelConfig.curve
  refine Nat.add_le_add (Nat.add_le_add_left (part_le (min_le_right _ _)) _) (part_le ?_)
  exact Nat.sub_le_sub_right (min_le_right _ _) _

theorem unsaturated_of_valid (hv : config.Valid) (u : ℕ) : config.Unsaturated u := by
  obtain ⟨hpos, hopt, hmax, hbase, hslope1, hslope2⟩ := id hv
  have hutil : min u bpsDenom ≤ 10000 := min_le_right _ _
  have hcurve := curve_le config u
  have hsmall : ∀ a b, a ≤ 10000 → b ≤ 5000 → a * b < 2 ^ 128 := by
    intro a b ha hb
    exact (Nat.mul_le_mul ha hb).trans_lt (by norm_num)
  refine ⟨hpos.ne', ?_, fun hlt => ⟨hopt, ?_⟩, ?_, by omega, ?_⟩
  · exact hsmall _ _ ((min_le_left _ _).trans hutil) hslope1
  · have hdenom : bpsDenom = 10000 := rfl
    omega
  · exact hsmall _ _ ((Nat.sub_le _ _).trans hutil) hslope2
  · exact (min_le_right _ _).trans_lt (by omega)

theorem computeCurrentRate_eq {u : ℕ} (hs : config.Unsaturated u) :
    computeCurrentRate u config = min (config.curve u) config.maxRateBps := by
  obtain ⟨hdivisor, hproduct, hspan, hproduct', hsum, hresult⟩ := hs
  have hfirst : mulDivSaturating (min (min u bpsDenom) config.optimalUtilizationBps)
      config.slope1Bps config.optimalUtilizationBps =
        min (min u bpsDenom) config.optimalUtilizationBps * config.slope1Bps /
          config.optimalUtilizationBps := if_pos ⟨hproduct, hdivisor⟩
  unfold computeCurrentRate
  unfold RateModelConfig.curve at hsum hresult ⊢
  dsimp only at hsum hresult ⊢
  rw [hfirst]
  by_cases habove : config.optimalUtilizationBps < min u bpsDenom
  · have hsecond : mulDivSaturating (min u bpsDenom - config.optimalUtilizationBps)
        config.slope2Bps (bpsDenom - config.optimalUtilizationBps) =
          (min u bpsDenom - config.optimalUtilizationBps) * config.slope2Bps /
            (bpsDenom - config.optimalUtilizationBps) := if_pos ⟨hproduct', (hspan habove).2⟩
    rw [if_pos habove, hsecond]
    unfold saturatingAddU
    omega
  · have hzero : min u bpsDenom - config.optimalUtilizationBps = 0 := by omega
    rw [hzero, Nat.zero_mul, Nat.zero_div, Nat.add_zero] at hsum hresult ⊢
    rw [if_neg habove]
    unfold saturatingAddU
    omega

theorem curve_mono {u₁ u₂ : ℕ} (hle : u₁ ≤ u₂) : config.curve u₁ ≤ config.curve u₂ := by
  have hutil : min u₁ bpsDenom ≤ min u₂ bpsDenom := min_le_min_right _ hle
  unfold RateModelConfig.curve
  refine Nat.add_le_add (Nat.add_le_add_left ?_ _) ?_
  · exact Nat.div_le_div_right (Nat.mul_le_mul_right _ (min_le_min_right _ hutil))
  · exact Nat.div_le_div_right (Nat.mul_le_mul_right _ (Nat.sub_le_sub_right hutil _))

theorem base_le_curve (config : RateModelConfig) (u : ℕ) : config.baseRateBps ≤ config.curve u :=
  (Nat.le_add_right _ _).trans (Nat.le_add_right _ _)

/-- The rate of an accepted model: it does not fall with the utilization, lies between the base rate
and the ceiling, is the curve where that is below the ceiling, and never saturates. -/
theorem rate_curve (config : RateModelConfig) (hv : validateRateModelConfig config = .ok ())
    (u₁ u₂ : ℕ) (hle : u₁ ≤ u₂) :
    computeCurrentRate u₁ config ≤ computeCurrentRate u₂ config ∧
      ∀ u, config.baseRateBps ≤ computeCurrentRate u config ∧
        computeCurrentRate u config ≤ config.maxRateBps ∧ computeCurrentRate u config ≤ 5000 ∧
        computeCurrentRate u config = min (config.curve u) config.maxRateBps ∧
        config.Unsaturated u := by
  have hvalid := validateRateModelConfig_eq_ok hv
  have hrate : ∀ u, computeCurrentRate u config = min (config.curve u) config.maxRateBps :=
    fun u => computeCurrentRate_eq (unsaturated_of_valid hvalid u)
  refine ⟨?_, fun u => ⟨?_, ?_, ?_, hrate u, unsaturated_of_valid hvalid u⟩⟩
  · rw [hrate, hrate]
    exact min_le_min_right _ (curve_mono hle)
  · rw [hrate]
    exact le_min (base_le_curve config u) hvalid.base_le
  · rw [hrate]
    exact min_le_right _ _
  · rw [hrate]
    exact (min_le_right _ _).trans hvalid.max_le

theorem rate_curve_kinked :
    computeCurrentRate 4000 ⟨200, 8000, 400, 3000, 5000⟩ = 400 ∧
      computeCurrentRate 9000 ⟨200, 8000, 400, 3000, 5000⟩ = 2100 ∧
      computeCurrentRate 4000 ⟨200, 8000, 400, 3000, 5000⟩ ≤
        computeCurrentRate 9000 ⟨200, 8000, 400, 3000, 5000⟩ :=
  ⟨by decide, by decide,
    (rate_curve ⟨200, 8000, 400, 3000, 5000⟩ (by decide) 4000 9000 (by norm_num)).1⟩

/-! ## Samples without repetitions -/

/-- Two samples agree in utilization and rate. -/
def RateSnapshot.Agrees (x y : RateSnapshot) : Prop :=
  x.utilizationBps = y.utilizationBps ∧ x.rateBps = y.rateBps

instance (x y : RateSnapshot) : Decidable (x.Agrees y) := inferInstanceAs (Decidable (_ ∧ _))

/-- The samples that do not agree with the sample before them; `last` is the one before the list. -/
def changesAfter (last : RateSnapshot) : List RateSnapshot → List RateSnapshot
  | [] => []
  | x :: samples =>
    if last.Agrees x then changesAfter x samples else x :: changesAfter x samples

/-- The samples without those that agree with their predecessor. -/
def changes : List RateSnapshot → List RateSnapshot
  | [] => []
  | x :: samples => x :: changesAfter x samples

theorem changesAfter_concat (last : RateSnapshot) (samples : List RateSnapshot) (x : RateSnapshot) :
    changesAfter last (samples ++ [x]) = changesAfter last samples ++
      if (samples.getLastD last).Agrees x then [] else [x] := by
  induction samples generalizing last with
  | nil => rfl
  | cons y samples ih =>
    rw [List.cons_append, changesAfter, changesAfter, ih y, List.getLastD_cons]
    split_ifs <;> simp

theorem changes_concat {samples : List RateSnapshot} (last x : RateSnapshot)
    (hlast : samples.getLast? = some last) :
    changes (samples ++ [x]) = changes samples ++ if last.Agrees x then [] else [x] := by
  cases samples with
  | nil => cases hlast
  | cons y samples =>
    rw [List.getLast?_cons, Option.some.injEq] at hlast
    rw [List.cons_append, changes, changes, changesAfter_concat, List.getLastD_eq_getLast?, hlast,
      List.cons_append]

theorem getLast?_changes {samples : List RateSnapshot} {last : RateSnapshot}
    (hlast : samples.getLast? = some last) :
    ∃ change, (changes samples).getLast? = some change ∧ change.Agrees last := by
  induction samples using List.reverseRecOn generalizing last with
  | nil => cases hlast
  | append_singleton samples x ih =>
    obtain rfl : x = last := by simpa using hlast
    cases hbefore : samples.getLast? with
    | none =>
      obtain rfl := List.getLast?_eq_none_iff.mp hbefore
      exact ⟨x, rfl, rfl, rfl⟩
    | some before =>
      rw [changes_concat before x hbefore]
      split_ifs with hsame
      · obtain ⟨change, hchange, hagrees⟩ := ih hbefore
        rw [List.append_nil]
        exact ⟨change, hchange, hagrees.1.trans hsame.1, hagrees.2.trans hsame.2⟩
      · exact ⟨x, by simp, rfl, rfl⟩

/-! ## The recorded samples -/

/-- The samples of a token that were recorded until a state was reached.  Between two calls of
`record_rate_snapshot` anything may happen that leaves the buffer of the token alone. -/
inductive Recorded {W : Type} (token : Address) : List RateSnapshot → State W → Prop
  | start {s : State W} : s.rateHistory token = {} → Recorded token [] s
  | record {samples : List RateSnapshot} {s s' : State W} {model : RateModelConfig}
      {utilization : ℕ} : Recorded token samples s → s.params.rateModel token = some model →
      utilizationBps (s.tt token) = .ok utilization → s.recordRateSnapshot token = .ok s' →
      Recorded token (samples ++ [⟨s.now, utilization, computeCurrentRate utilization model⟩]) s'
  | elsewhere {samples : List RateSnapshot} {s s' : State W} : Recorded token samples s →
      s'.rateHistory token = s.rateHistory token → Recorded token samples s'

structure Ring.Holds {α : Type} (capacity : ℕ) (r : Ring α) (l : List α) : Prop where
  fits : Fits r.slot r.len r.start capacity
  contents : RingBuffer.contents r.slot r.len r.start = l.rtake capacity

theorem Ring.Holds.len_eq {α : Type} {capacity : ℕ} {r : Ring α} {l : List α}
    (hr : r.Holds capacity l) : r.len = min l.length capacity := by
  have hlength := hr.fits.length_contents
  rw [hr.contents, List.rtake, List.length_drop] at hlength
  omega

theorem Ring.Holds.push {α : Type} {capacity : ℕ} {r : Ring α} {l : List α}
    (hr : r.Holds capacity l) (hcap : 0 < capacity) (x : α) :
    (State.pushRing capacity r x).Holds capacity (l ++ [x]) := by
  have hlen := hr.len_eq
  obtain ⟨n, rfl⟩ := Nat.exists_eq_add_of_le' hcap
  unfold State.pushRing
  split_ifs with hlt
  · obtain ⟨hfits, hcontents⟩ := hr.fits.grow hlt x
    refine ⟨hfits, hcontents.trans ?_⟩
    have hall : ∀ m, l.length ≤ m → l.rtake m = l := by
      intro m hm
      rw [List.rtake, Nat.sub_eq_zero_of_le hm, List.drop_zero]
    rw [List.rtake_concat_succ, hr.contents, hall _ (by omega), hall _ (by omega)]
  · obtain ⟨hfits, hcontents⟩ := hr.fits.wrap (by omega) hcap x
    refine ⟨hfits, hcontents.trans ?_⟩
    rw [List.rtake_concat_succ, hr.contents, List.rtake, List.rtake, List.tail_drop]
    congr 2
    omega

theorem Ring.Holds.newest {α : Type} {capacity : ℕ} {r : Ring α} {l : List α}
    (hr : r.Holds capacity l) (hpos : 0 < r.len) :
    r.slot ((r.start + r.len - 1) % capacity) = l.getLast? := by
  have hlen := hr.len_eq
  rw [hr.fits.newest hpos, hr.contents, List.rtake, List.getLast?_drop, if_neg (by omega)]

/-- Whether the newest slot agrees with a sample, as `record_rate_snapshot` asks. -/
def Ring.Repeats (history : Ring RateSnapshot) (x : RateSnapshot) : Prop :=
  0 < history.len ∧ (history.slot ((history.start + history.len - 1) % maxRateHistory)).any
    fun last => last.utilizationBps = x.utilizationBps ∧ last.rateBps = x.rateBps

instance (history : Ring RateSnapshot) (x : RateSnapshot) : Decidable (history.Repeats x) :=
  inferInstanceAs (Decidable (_ ∧ _))

theorem Ring.Holds.changes_concat {history : Ring RateSnapshot} {samples : List RateSnapshot}
    (hr : history.Holds maxRateHistory (changes samples)) (x : RateSnapshot) :
    changes (samples ++ [x]) = changes samples ++ if history.Repeats x then [] else [x] := by
  have hlen := hr.len_eq
  cases hlast : samples.getLast? with
  | none =>
    obtain rfl := List.getLast?_eq_none_iff.mp hlast
    rw [if_neg]
    · rfl
    · rintro ⟨hpos, -⟩
      simp only [changes, List.length_nil] at hlen
      omega
  | some last =>
    obtain ⟨change, hchange, hutil, hrate⟩ := getLast?_changes hlast
    have hpos : 0 < history.len := by
      have hne : changes samples ≠ [] := by
        intro hnil
        rw [hnil] at hchange
        cases hchange
      have hcap : 0 < maxRateHistory := by decide
      have hlength := List.length_pos_iff.mpr hne
      omega
    have hiff : history.Repeats x ↔ last.Agrees x := by
      unfold Ring.Repeats RateSnapshot.Agrees
      rw [hr.newest hpos, hchange, Option.any_some, decide_eq_true_eq, hutil, hrate]
      exact and_iff_right hpos
    rw [Pool.changes_concat last x hlast]
    simp only [hiff]

theorem recordRateSnapshot_eq {W : Type} {token : Address} {s s' : State W}
    {model : RateModelConfig} {utilization : ℕ} (hmodel : s.params.rateModel token = some model)
    (hutil : utilizationBps (s.tt token) = .ok utilization)
    (hrecord : s.recordRateSnapshot token = .ok s') :
    s'.rateHistory token =
      if (s.rateHistory token).Repeats ⟨s.now, utilization, computeCurrentRate utilization model⟩
      then s.rateHistory token
      else State.pushRing maxRateHistory (s.rateHistory token)
        ⟨s.now, utilization, computeCurrentRate utilization model⟩ := by
  unfold State.recordRateSnapshot at hrecord
  simp only [hmodel, hutil, ok_bind] at hrecord
  split_ifs at hrecord with hsame
  · rw [pure_eq_ok] at hrecord
    rw [← hrecord]
    exact (if_pos hsame).symm
  · rw [pure_eq_ok] at hrecord
    rw [← hrecord]
    exact (Function.update_self _ _ _).trans (if_neg hsame).symm

theorem holds_of_recorded {W : Type} {token : Address} {samples : List RateSnapshot} {s : State W}
    (hr : Recorded token samples s) :
    (s.rateHistory token).Holds maxRateHistory (changes samples) := by
  induction hr with
  | start hempty =>
    rw [hempty]
    exact ⟨Fits.empty _ (by decide), rfl⟩
  | elsewhere _ hsame ih =>
    rw [hsame]
    exact ih
  | record _ hmodel hutil hrecord ih =>
    rw [recordRateSnapshot_eq hmodel hutil hrecord, ih.changes_concat]
    split_ifs
    · rw [List.append_nil]
      exact ih
    · exact ih.push (by decide) _

/-- The answer of `get_rate_history`: the last samples, without those that agree with their
predecessor, at most `limit` and at most 720 of them. -/
theorem rate_history_exact {W : Type} (token : Address) (samples : List RateSnapshot) (s : State W)
    (hr : Recorded token samples s) (limit : ℕ) :
    getRateHistory s token limit = (changes samples).rtake (min limit maxRateHistory) := by
  have hholds := holds_of_recorded hr
  have hlen := hholds.len_eq
  unfold getRateHistory
  dsimp only
  split_ifs with hempty
  · have hzero : (changes samples).length = 0 ∨ min limit maxRateHistory = 0 := by
      have hcap : 0 < maxRateHistory := by decide
      omega
    rw [List.rtake, List.drop_eq_nil_of_le (by omega)]
  · rw [hholds.fits.filterMap_range' (by omega), hholds.contents, List.rtake, List.rtake,
      List.drop_drop, List.take_of_length_le]
    · congr 1
      omega
    · rw [List.length_drop]
      omega

theorem exists_recordRateSnapshot {W : Type} {token : Address} {s : State W}
    {model : RateModelConfig} {utilization : ℕ} (hmodel : s.params.rateModel token = some model)
    (hutil : utilizationBps (s.tt token) = .ok utilization) :
    ∃ s', s.recordRateSnapshot token = .ok s' := by
  unfold State.recordRateSnapshot
  simp only [hmodel, hutil, ok_bind]
  split_ifs
  · exact ⟨_, rfl⟩
  · exact ⟨_, rfl⟩

/-- A pool of 1000 with a rate model, of which some part is deployed. -/
def modelledState (now : ℕ) (deployed : ℤ) (history : Ring RateSnapshot) : State Unit :=
  { sampleState with
    now := now
    params := { sampleState.params with rateModel := fun _ => some ⟨200, 8000, 400, 3000, 5000⟩ }
    totals := fun _ => some { poolValue := 1000, totalDeployed := deployed }
    rateHistory := fun _ => history }

theorem Recorded.modelled {samples : List RateSnapshot} {s : State Unit}
    (hr : Recorded 10 samples s) (now : ℕ) (deployed : ℤ) (utilization : ℕ)
    (hutil : utilizationBps { poolValue := 1000, totalDeployed := deployed } = .ok utilization) :
    ∃ s' : State Unit, Recorded 10 (samples ++ [⟨now, utilization,
      computeCurrentRate utilization ⟨200, 8000, 400, 3000, 5000⟩⟩]) s' := by
  have hthere : Recorded 10 samples (modelledState now deployed (s.rateHistory 10)) :=
    hr.elsewhere rfl
  have hrecord : ∃ s', (modelledState now deployed (s.rateHistory 10)).recordRateSnapshot 10 =
      .ok s' := exists_recordRateSnapshot rfl hutil
  obtain ⟨s', hs'⟩ := hrecord
  exact ⟨s', hthere.record rfl hutil hs'⟩

theorem rate_history_exact_repeated :
    ∃ (s : State Unit) (samples : List RateSnapshot), Recorded 10 samples s ∧
      samples.length = 3 ∧ getRateHistory s 10 5 = [⟨1, 4000, 400⟩, ⟨60, 9000, 2100⟩] := by
  have h₀ : Recorded 10 [] (modelledState 1 400 {}) := .start rfl
  obtain ⟨s₁, h₁⟩ := h₀.modelled 1 400 4000 (by decide)
  obtain ⟨s₂, h₂⟩ := h₁.modelled 30 400 4000 (by decide)
  obtain ⟨s₃, h₃⟩ := h₂.modelled 60 900 9000 (by decide)
  refine ⟨s₃, _, h₃, rfl, ?_⟩
  rw [rate_history_exact 10 _ s₃ h₃ 5]
  decide

end Astera.Pool
