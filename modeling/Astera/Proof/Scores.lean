import Astera.Proof.PaymentDelays

/-!
# The order and the range of the scores

A better outcome should not give a lower score.  The checks on a configuration do not relate the
points of the outcomes and the bonuses to each other; `NotBelow` is when it does.

The attestations are blended in by two weighted means, rounded down, which stay between the numbers
they are means of.
-/

namespace Astera.CreditScore

open Fallible Machine Rounding

/-! ## Points of an outcome -/

def ScoreCoreConfig.statusPts (core : ScoreCoreConfig) : PaymentStatus → ℤ
  | .PaidOnTime => core.paidOnTimePts
  | .PaidLate => core.paidLatePts
  | .Defaulted => core.defaultedPts

def ScoreCoreConfig.limit (core : ScoreCoreConfig) (points : ℤ) : ℤ :=
  max (core.minScore : ℤ) (min (core.maxScore : ℤ) points)

def PaymentRecord.as (invoice : PaymentRecord) (status : PaymentStatus) (paidAt : ℕ)
    (daysLate : ℤ) : PaymentRecord :=
  { invoice with status := status, paidAt := paidAt, daysLate := daysLate }

section Points

variable (s : State) (sme : Address) (record : PaymentRecord)

def State.averageWith : ℤ :=
  (record.delay.map (nextMean (s.average sme) (s.paid sme))).getD (s.average sme)

/-- The points that depend on the outcome of an invoice: those of its status, the bonuses for the
milestones and the bonus for the average delay that it leads to. -/
def State.outcomePoints : ℤ :=
  s.config.scoring.core.statusPts record.status +
    milestonePoints s.config.scoring.bonuses (s.milestoneCount sme +
      if s.config.scoring.Milestone record.outcome then 1 else 0) +
    averagePoints s.config.scoring.averages s.config.lateThreshold (s.averageWith sme record)

/-- The points that do not: the base, those of the invoices before it and the bonus for the volume. -/
def State.commonPoints : ℤ :=
  let data := s.dataOf sme
  let core := s.config.scoring.core
  core.baseScore + data.paidOnTime * core.paidOnTimePts + data.paidLate * core.paidLatePts +
    data.defaulted * core.defaultedPts +
    volumePoints s.config.scoring.bonuses (data.totalVolume + record.amount)

/-- An outcome does not rank below another one of the same invoice: it has at least as many points,
or the range of the scores hides the difference. -/
def State.NotBelow (better worse : PaymentRecord) : Prop :=
  let core := s.config.scoring.core
  s.outcomePoints sme worse ≤ s.outcomePoints sme better ∨
    s.commonPoints sme worse + s.outcomePoints sme worse ≤ core.minScore ∨
    core.maxScore ≤ s.commonPoints sme better + s.outcomePoints sme better ∨
    core.maxScore = core.minScore

instance (better worse : PaymentRecord) : Decidable (s.NotBelow sme better worse) :=
  inferInstanceAs (Decidable (_ ∨ _))

/-- The counters of an SME leave room for one more invoice, as `i32` values. -/
def State.Roomy : Prop :=
  (s.dataOf sme).paidOnTime + 1 < 2 ^ 31 ∧ (s.dataOf sme).paidLate + 1 < 2 ^ 31 ∧
    (s.dataOf sme).defaulted + 1 < 2 ^ 31

instance : Decidable (s.Roomy sme) := inferInstanceAs (Decidable (_ ∧ _))

end Points

section Scores

variable {s s' : State} {sme : Address} {record : PaymentRecord} {data : CreditScoreData}

theorem toI_of_lt {n : ℕ} (h : n < 2 ^ 31) : toI 32 n = n := by
  unfold toI
  rw [Int.bmod_eq_of_le] <;> omega

theorem pointsFor_eq_ok {count : ℕ} {pts x : ℤ} (hcount : count < 2 ^ 31)
    (h : pointsFor count pts = .ok x) : x = count * pts := by
  unfold pointsFor at h
  rw [okOr_eq_ok, fitI_eq_some, toI_of_lt hcount] at h
  exact h.1

theorem calculateScoreWithConfig_eq_ok {config : ScoringConfig} {lateThreshold : ℤ}
    {totalInvoices paidOnTime paidLate defaulted milestoneCount score : ℕ}
    {totalVolume average : ℤ} (hrange : config.core.minScore ≤ config.core.maxScore)
    (htotal : totalInvoices ≠ 0) (honTime : paidOnTime < 2 ^ 31) (hlate : paidLate < 2 ^ 31)
    (hdefaulted : defaulted < 2 ^ 31)
    (h : calculateScoreWithConfig config lateThreshold totalInvoices paidOnTime paidLate defaulted
      totalVolume average milestoneCount = .ok score) :
    (score : ℤ) = config.core.limit (config.core.baseScore +
      paidOnTime * config.core.paidOnTimePts + paidLate * config.core.paidLatePts +
      defaulted * config.core.defaultedPts + milestonePoints config.bonuses milestoneCount +
      averagePoints config.averages lateThreshold average +
      volumePoints config.bonuses totalVolume) := by
  unfold ScoreCoreConfig.limit
  unfold calculateScoreWithConfig at h
  rw [if_neg htotal] at h
  simp only [bind_eq_ok] at h
  obtain ⟨a, ha, b, hb, c, hc, h⟩ := h
  obtain rfl := pointsFor_eq_ok honTime ha
  obtain rfl := pointsFor_eq_ok hlate hb
  obtain rfl := pointsFor_eq_ok hdefaulted hc
  generalize (config.core.baseScore : ℤ) + _ + _ + _ + _ + _ + _ = points at h ⊢
  split_ifs at h with hlow hhigh
  all_goals
    obtain rfl := (pure_eq_ok _ _).1 h
    omega

theorem ScoringConfig.range_of_valid {config : ScoringConfig} (hvalid : config.valid = true) :
    config.core.minScore ≤ config.core.maxScore := by
  simp only [ScoringConfig.valid, Bool.and_eq_true, decide_eq_true_eq] at hvalid
  omega

theorem commitPaymentRecord_score (hvalid : s.config.scoring.valid = true)
    (hroomy : s.Roomy record.sme)
    (hcommit : commitPaymentRecord s record.sme record.invoiceId record = .ok (s', data)) :
    (data.score : ℤ) = s.config.scoring.core.limit
      (s.commonPoints record.sme record + s.outcomePoints record.sme record) := by
  obtain ⟨m, hmilestones, hdata, -, -, -⟩ := commitPaymentRecord_recorded hcommit
  obtain ⟨honTime, hlate, hdefaulted⟩ := hroomy
  have hscore := calculateScoreWithConfig_eq_ok (ScoringConfig.range_of_valid hvalid)
    (by rw [hdata.totalInvoices]; omega) (by rw [hdata.paidOnTime]; split_ifs <;> omega)
    (by rw [hdata.paidLate]; split_ifs <;> omega) (by rw [hdata.defaulted]; split_ifs <;> omega)
    hdata.score
  rw [hscore, milestoneCountAfter_eq_ok hmilestones, hdata.paidOnTime, hdata.paidLate,
    hdata.defaulted, hdata.totalVolume, hdata.average]
  congr 1
  unfold State.commonPoints State.outcomePoints State.averageWith State.average State.paid
  cases hstatus : record.status <;>
    simp [ScoreCoreConfig.statusPts] <;> ring

theorem commitPaymentRecord_range (hvalid : s.config.scoring.valid = true)
    (hroomy : s.Roomy record.sme)
    (hcommit : commitPaymentRecord s record.sme record.invoiceId record = .ok (s', data)) :
    s.config.scoring.core.minScore ≤ data.score ∧ data.score ≤ s.config.scoring.core.maxScore := by
  have hrange := ScoringConfig.range_of_valid hvalid
  have hscore := commitPaymentRecord_score hvalid hroomy hcommit
  unfold ScoreCoreConfig.limit at hscore
  omega

theorem score_le_iff {better worse : PaymentRecord} {s₁ s₂ : State} {data₁ data₂ : CreditScoreData}
    (hvalid : s.config.scoring.valid = true) (hroomy : s.Roomy sme)
    (hbetter : better.sme = sme) (hworse : worse.sme = sme)
    (hamount : worse.amount = better.amount)
    (hcommit₁ : commitPaymentRecord s better.sme better.invoiceId better = .ok (s₁, data₁))
    (hcommit₂ : commitPaymentRecord s worse.sme worse.invoiceId worse = .ok (s₂, data₂)) :
    data₂.score ≤ data₁.score ↔ s.NotBelow sme better worse := by
  have hrange := ScoringConfig.range_of_valid hvalid
  have hscore₁ := commitPaymentRecord_score hvalid (hbetter ▸ hroomy) hcommit₁
  have hscore₂ := commitPaymentRecord_score hvalid (hworse ▸ hroomy) hcommit₂
  have hcommon : s.commonPoints sme worse = s.commonPoints sme better := by
    unfold State.commonPoints
    rw [hamount]
  rw [hbetter] at hscore₁
  rw [hworse, hcommon] at hscore₂
  have hiff : data₂.score ≤ data₁.score ↔ (data₂.score : ℤ) ≤ data₁.score := Nat.cast_le.symm
  rw [hiff, hscore₁, hscore₂]
  unfold ScoreCoreConfig.limit State.NotBelow
  rw [limited_le_iff (by exact_mod_cast hrange), hcommon, add_le_add_iff_left, Nat.cast_inj]

end Scores

/-- An invoice that is paid in time never gives a lower score than the same invoice paid late, and one
that is paid late never a lower score than the same invoice defaulted, exactly when the better outcome
does not rank below the worse one in either case.  The scores are within the range of the
configuration. -/
theorem scores_ordered_iff {s s₁ s₂ s₃ : State} {invoice : PaymentRecord}
    {data₁ data₂ data₃ : CreditScoreData} {t₁ t₂ t₃ : ℕ} {d₁ d₂ d₃ : ℤ}
    (hvalid : s.config.scoring.valid = true) (hroomy : s.Roomy invoice.sme)
    (hontime : commitPaymentRecord s invoice.sme invoice.invoiceId
      (invoice.as .PaidOnTime t₁ d₁) = .ok (s₁, data₁))
    (hlate : commitPaymentRecord s invoice.sme invoice.invoiceId
      (invoice.as .PaidLate t₂ d₂) = .ok (s₂, data₂))
    (hdefaulted : commitPaymentRecord s invoice.sme invoice.invoiceId
      (invoice.as .Defaulted t₃ d₃) = .ok (s₃, data₃)) :
    (data₂.score ≤ data₁.score ∧ data₃.score ≤ data₂.score ∧
        ∀ data ∈ [data₁, data₂, data₃], s.config.scoring.core.minScore ≤ data.score ∧
          data.score ≤ s.config.scoring.core.maxScore) ↔
      s.NotBelow invoice.sme (invoice.as .PaidOnTime t₁ d₁) (invoice.as .PaidLate t₂ d₂) ∧
        s.NotBelow invoice.sme (invoice.as .PaidLate t₂ d₂) (invoice.as .Defaulted t₃ d₃) := by
  have hfirst : data₂.score ≤ data₁.score ↔
      s.NotBelow invoice.sme (invoice.as .PaidOnTime t₁ d₁) (invoice.as .PaidLate t₂ d₂) :=
    score_le_iff hvalid hroomy rfl rfl rfl hontime hlate
  have hsecond : data₃.score ≤ data₂.score ↔
      s.NotBelow invoice.sme (invoice.as .PaidLate t₂ d₂) (invoice.as .Defaulted t₃ d₃) :=
    score_le_iff hvalid hroomy rfl rfl rfl hlate hdefaulted
  rw [hfirst, hsecond]
  constructor
  · rintro ⟨h, h', -⟩
    exact ⟨h, h'⟩
  · rintro ⟨h, h'⟩
    refine ⟨h, h', ?_⟩
    simp only [List.forall_mem_cons, List.not_mem_nil, false_imp_iff, implies_true, and_true]
    exact ⟨@commitPaymentRecord_range s s₁ (invoice.as .PaidOnTime t₁ d₁) data₁ hvalid hroomy hontime,
      @commitPaymentRecord_range s s₂ (invoice.as .PaidLate t₂ d₂) data₂ hvalid hroomy hlate,
      @commitPaymentRecord_range s s₃ (invoice.as .Defaulted t₃ d₃) data₃ hvalid hroomy hdefaulted⟩

/-! Samples: an invoice of account 3 that falls due at 2000. -/

def sampleInvoice : PaymentRecord := ⟨7, 3, 500, 2000, 0, .Defaulted, 0⟩

/-- The data of account 3 when the invoice is paid in time, paid two days late, and defaulted. -/
def sampleOutcomes (s : State) : Res (List (State × CreditScoreData)) :=
  [sampleInvoice.as .PaidOnTime 1500 0, sampleInvoice.as .PaidLate 170000 2,
    sampleInvoice.as .Defaulted 900000 11].mapM (commitPaymentRecord s 3 7)

theorem scores_ordered_by_default :
    ∃ x y z : State × CreditScoreData, sampleOutcomes sampleState = .ok [x, y, z] ∧
      y.2.score ≤ x.2.score ∧ z.2.score ≤ y.2.score ∧
      ∀ data ∈ [x.2, y.2, z.2], 200 ≤ data.score ∧ data.score ≤ 850 := by
  obtain ⟨x, hx, -⟩ := exists_of_check (p := fun _ => true)
    (x := commitPaymentRecord sampleState 3 7 (sampleInvoice.as .PaidOnTime 1500 0))
    (by decide)
  obtain ⟨y, hy, -⟩ := exists_of_check (p := fun _ => true)
    (x := commitPaymentRecord sampleState 3 7 (sampleInvoice.as .PaidLate 170000 2))
    (by decide)
  obtain ⟨z, hz, -⟩ := exists_of_check (p := fun _ => true)
    (x := commitPaymentRecord sampleState 3 7 (sampleInvoice.as .Defaulted 900000 11))
    (by decide)
  have hroomy : sampleState.Roomy sampleInvoice.sme := by decide
  refine ⟨x, y, z, ?_, (scores_ordered_iff (by decide) hroomy hx hy hz).2
    (by decide)⟩
  simp [sampleOutcomes, hx, hy, hz]

/-- A configuration that is accepted: a late payment gives more points than one in time, and a default
more than a late payment. -/
def invertedConfig : ScoringConfig :=
  { core := { paidOnTimePts := 30, paidLatePts := 60, defaultedPts := 90, scoreVersion := 2 } }

/-- Under it the outcomes of a first invoice are ordered the wrong way round: 545 points when it is paid
in time, 575 when it is paid late, and 605 when it defaults. -/
theorem scores_inverted_by_config :
    ∃ config l, setScoringConfig [1] sampleState 1 invertedConfig = .ok config ∧
      config.scoring = invertedConfig ∧
      sampleOutcomes { sampleState with config := config } = .ok l ∧
      (l.map fun x => x.2.score) = [545, 575, 605] := by
  obtain ⟨⟨config, l⟩, hrun, hp⟩ := exists_of_check
    (x := do
      let config ← setScoringConfig [1] sampleState 1 invertedConfig
      let l ← sampleOutcomes { sampleState with config := config }
      return (config, l))
    (p := fun z => decide (z.1.scoring = invertedConfig ∧
      (z.2.map fun x => x.2.score) = [545, 575, 605])) (by decide)
  simp only [bind_eq_ok, pure_eq_ok, Prod.mk.injEq] at hrun
  obtain ⟨_, hset, _, hl, rfl, rfl⟩ := hrun
  obtain ⟨hscoring, hscores⟩ := of_decide_eq_true hp
  exact ⟨_, _, hset, hscoring, hl, hscores⟩

/-! ## Blending -/

/-- `compute_external_component` followed by `blend_score`. -/
def ScoringConfig.blend (config : ScoringConfig) (internalScore : ℕ) (signals : List (ℕ × ℕ)) :
    Res ℕ := do
  let external ← computeExternalComponent signals config.core.minScore config.core.maxScore
  blendScore internalScore external config.attestation config.core.minScore config.core.maxScore

theorem computeBlendedScore_eq (s : State) (sme : Address) (internalScore : ℕ) :
    s.computeBlendedScore sme internalScore =
      let x := s.collectActiveAttestationSignals sme
      (s.config.scoring.blend internalScore x.2).map fun blended => (x.1, blended) := by
  unfold State.computeBlendedScore ScoringConfig.blend
  dsimp only
  cases hexternal : computeExternalComponent (s.collectActiveAttestationSignals sme).2
      s.config.scoring.core.minScore s.config.scoring.core.maxScore with
  | error e => rfl
  | ok external =>
    simp only [ok_bind]
    cases blendScore internalScore external s.config.scoring.attestation
      s.config.scoring.core.minScore s.config.scoring.core.maxScore <;> rfl

def weightTotal (signals : List (ℕ × ℕ)) : ℕ := (signals.map fun signal => signal.1).sum

def weightedSum (signals : List (ℕ × ℕ)) : ℕ := (signals.map fun signal => signal.1 * signal.2).sum

def avgContribution (signals : List (ℕ × ℕ)) : ℕ := weightedSum signals / weightTotal signals

/-- The external component that signals have: the mean of the contributions, scaled into the range of
the scores. -/
def externalOf (signals : List (ℕ × ℕ)) (minScore maxScore : ℕ) : Option ℕ :=
  if weightTotal signals = 0 then none
  else some (minScore + avgContribution signals * (maxScore - minScore) / maxScoreContribution)

/-- The score that an internal score and an external component give. -/
def blendOf (config : ScoreAttestationConfig) (internalScore : ℕ) : Option ℕ → ℕ
  | none => internalScore
  | some external =>
    (internalScore * config.internalWeightBps + external * config.externalWeightBps) /
      (config.internalWeightBps + config.externalWeightBps)

section Blending

variable {config : ScoringConfig} {signals signals' : List (ℕ × ℕ)} {lo hi : ℕ}

def Bounded (signals : List (ℕ × ℕ)) : Prop :=
  ∀ signal ∈ signals, signal.1 ≤ maxWeightBps ∧ signal.2 ≤ maxScoreContribution

theorem clamp_of_mem {x : ℕ} (hlo : lo ≤ x) (hhi : x ≤ hi) : clamp lo hi x = .ok (x : ℤ) := by
  unfold clamp
  rw [if_pos (by omega)]
  congr 1
  omega

theorem avgContribution_le (hsignals : Bounded signals) :
    avgContribution signals ≤ maxScoreContribution :=
  Nat.div_le_of_le_mul (weighted_sum_le fun signal hsignal => (hsignals signal hsignal).2)

theorem externalOf_mem (hsignals : Bounded signals) (hle : lo ≤ hi) :
    ∀ external ∈ externalOf signals lo hi, lo ≤ external ∧ external ≤ hi := by
  have hscaled : avgContribution signals * (hi - lo) / maxScoreContribution ≤ hi - lo :=
    Nat.div_le_of_le_mul (Nat.mul_le_mul_right _ (avgContribution_le hsignals))
  unfold externalOf
  split_ifs
  · simp
  · rintro external ⟨⟩
    exact ⟨Nat.le_add_right _ _, by omega⟩

theorem computeExternalComponent_eq (hsignals : Bounded signals) (hle : lo ≤ hi) :
    computeExternalComponent signals lo hi = .ok (externalOf signals lo hi) := by
  have hmem := externalOf_mem hsignals hle
  have htotal : (signals.map fun signal => (signal.1 : ℤ)).sum = (weightTotal signals : ℤ) := by
    simp [weightTotal, Nat.cast_list_sum, Function.comp_def]
  have hsum : (signals.map fun signal => (signal.1 : ℤ) * signal.2).sum =
      (weightedSum signals : ℤ) := by
    simp [weightedSum, Nat.cast_list_sum, Function.comp_def]
  have hscaled : (lo : ℤ) + ((weightedSum signals : ℤ).tdiv (weightTotal signals) *
      ((hi : ℤ) - lo)).tdiv maxScoreContribution =
      (lo + avgContribution signals * (hi - lo) / maxScoreContribution : ℕ) := by
    rw [← Int.ofNat_tdiv, ← Nat.cast_sub hle, ← Nat.cast_mul, ← Int.ofNat_tdiv, ← Nat.cast_add]
    rfl
  unfold computeExternalComponent
  dsimp only
  rw [htotal, hsum, hscaled]
  unfold externalOf at hmem ⊢
  by_cases hzero : weightTotal signals = 0
  · rw [if_pos hzero, if_pos (Nat.cast_eq_zero.2 hzero), ite_self]
    rfl
  · rw [if_neg hzero] at hmem ⊢
    obtain ⟨hlo, hhi⟩ := hmem _ rfl
    have hsome : signals ≠ [] := by
      rintro rfl
      exact hzero rfl
    rw [if_neg hsome, if_neg (mt Nat.cast_eq_zero.1 hzero), clamp_of_mem hlo hhi]
    rfl

section Blend

variable {weights : ScoreAttestationConfig} {internalScore : ℕ} {external : Option ℕ}

theorem ScoreAttestationConfig.total_of_valid (hvalid : weights.valid = true) :
    weights.internalWeightBps + weights.externalWeightBps = maxWeightBps := by
  simp only [ScoreAttestationConfig.valid, Bool.and_eq_true, decide_eq_true_eq] at hvalid
  exact hvalid.2

theorem blendOf_between (hvalid : weights.valid = true) :
    ∀ e ∈ external, min internalScore e ≤ blendOf weights internalScore external ∧
      blendOf weights internalScore external ≤ max internalScore e := by
  have htotal := ScoreAttestationConfig.total_of_valid hvalid
  rintro e ⟨⟩
  refine ⟨min_le_weighted ?_, weighted_le_max⟩
  rw [htotal]
  decide

theorem blendOf_mem (hvalid : weights.valid = true)
    (hinternal : lo ≤ internalScore ∧ internalScore ≤ hi)
    (hexternal : ∀ e ∈ external, lo ≤ e ∧ e ≤ hi) :
    lo ≤ blendOf weights internalScore external ∧ blendOf weights internalScore external ≤ hi := by
  cases external with
  | none => exact hinternal
  | some e =>
    obtain ⟨hlow, hhigh⟩ := @blendOf_between weights internalScore (some e) hvalid e rfl
    have he := hexternal e rfl
    omega

theorem blendScore_eq (hvalid : weights.valid = true)
    (hinternal : lo ≤ internalScore ∧ internalScore ≤ hi)
    (hexternal : ∀ e ∈ external, lo ≤ e ∧ e ≤ hi) :
    blendScore internalScore external weights lo hi =
      .ok (blendOf weights internalScore external) := by
  have htotal := ScoreAttestationConfig.total_of_valid hvalid
  have hmem := blendOf_mem hvalid hinternal hexternal
  cases external with
  | none => rfl
  | some e =>
    have hpos : ((weights.internalWeightBps : ℤ) + weights.externalWeightBps) ≠ 0 := by
      rw [← Nat.cast_add, htotal]
      decide
    have hblend : ((internalScore : ℤ) * weights.internalWeightBps +
        e * weights.externalWeightBps).tdiv
        ((weights.internalWeightBps : ℤ) + weights.externalWeightBps) =
        (blendOf weights internalScore (some e) : ℕ) := by
      unfold blendOf
      rw [Int.ofNat_tdiv]
      norm_cast
    unfold blendScore
    dsimp only
    rw [if_neg hpos, hblend, clamp_of_mem hmem.1 hmem.2]
    rfl

theorem blendOf_mono {internalScore' e e' : ℕ} (hinternal : internalScore ≤ internalScore')
    (hexternal : e ≤ e') :
    blendOf weights internalScore (some e) ≤ blendOf weights internalScore' (some e') :=
  Nat.div_le_div_right (Nat.add_le_add (Nat.mul_le_mul_right _ hinternal)
    (Nat.mul_le_mul_right _ hexternal))

end Blend

/-- The same signals, with contributions that are at least as high. -/
def Raised : List (ℕ × ℕ) → List (ℕ × ℕ) → Prop :=
  List.Forall₂ fun signal signal' => signal.1 = signal'.1 ∧ signal.2 ≤ signal'.2

theorem Raised.sums (h : Raised signals signals') :
    weightTotal signals = weightTotal signals' ∧ weightedSum signals ≤ weightedSum signals' := by
  unfold weightTotal weightedSum
  induction h with
  | nil => exact ⟨rfl, le_rfl⟩
  | cons hsignal _ ih =>
    simp only [List.map_cons, List.sum_cons, hsignal.1, ih.1, true_and]
    exact Nat.add_le_add (Nat.mul_le_mul_left _ hsignal.2) ih.2

theorem blendOf_externalOf_mono (h : Raised signals signals') (weights : ScoreAttestationConfig)
    (internalScore : ℕ) :
    blendOf weights internalScore (externalOf signals lo hi) ≤
      blendOf weights internalScore (externalOf signals' lo hi) := by
  obtain ⟨htotal, hsum⟩ := h.sums
  unfold externalOf avgContribution
  rw [htotal]
  split_ifs
  · exact le_rfl
  · exact blendOf_mono le_rfl (Nat.add_le_add_left (Nat.div_le_div_right
      (Nat.mul_le_mul_right _ (Nat.div_le_div_right hsum))) lo)

theorem blendOf_mono_internal {weights : ScoreAttestationConfig} {internalScore internalScore' : ℕ}
    (h : internalScore ≤ internalScore') (external : Option ℕ) :
    blendOf weights internalScore external ≤ blendOf weights internalScore' external := by
  cases external with
  | none => exact h
  | some e => exact blendOf_mono h le_rfl

theorem externalOf_perm (h : signals.Perm signals') :
    externalOf signals lo hi = externalOf signals' lo hi := by
  unfold externalOf avgContribution weightedSum weightTotal
  rw [(h.map _).sum_eq, (h.map fun signal => signal.1 * signal.2).sum_eq]

theorem Bounded.perm (hsignals : Bounded signals) (h : signals.Perm signals') :
    Bounded signals' := fun signal hsignal => hsignals signal (h.mem_iff.2 hsignal)

theorem ScoringConfig.blend_eq (hvalid : config.valid = true)
    (hweights : config.attestation.valid = true) {internalScore : ℕ}
    (hinternal : config.core.minScore ≤ internalScore ∧ internalScore ≤ config.core.maxScore)
    (hsignals : Bounded signals) :
    config.blend internalScore signals = .ok (blendOf config.attestation internalScore
      (externalOf signals config.core.minScore config.core.maxScore)) := by
  have hrange := ScoringConfig.range_of_valid hvalid
  unfold ScoringConfig.blend
  rw [computeExternalComponent_eq hsignals hrange, ok_bind]
  exact blendScore_eq hweights hinternal (externalOf_mem hsignals hrange)

/-- Under every accepted configuration the blend of a score with any signals lies between the score and
the external component, and so within the range of the scores; it follows the score and every
contribution, does not depend on the order of the signals, and is the score itself when there is no
signal. -/
theorem blend_bounded_and_monotone (hvalid : config.valid = true)
    (hweights : config.attestation.valid = true) {internalScore : ℕ}
    (hinternal : config.core.minScore ≤ internalScore ∧ internalScore ≤ config.core.maxScore)
    (hsignals : Bounded signals) :
    ∃ external score,
      computeExternalComponent signals config.core.minScore config.core.maxScore = .ok external ∧
      blendScore internalScore external config.attestation config.core.minScore
        config.core.maxScore = .ok score ∧
      (∀ e ∈ external, min internalScore e ≤ score ∧ score ≤ max internalScore e) ∧
      (external = none → score = internalScore) ∧ (signals = [] → score = internalScore) ∧
      (config.core.minScore ≤ score ∧ score ≤ config.core.maxScore) ∧
      (∀ internalScore' ≤ config.core.maxScore, internalScore ≤ internalScore' →
        ∃ score', config.blend internalScore' signals = .ok score' ∧ score ≤ score') ∧
      (∀ signals', Raised signals signals' → Bounded signals' →
        ∃ score', config.blend internalScore signals' = .ok score' ∧ score ≤ score') ∧
      ∀ signals', signals.Perm signals' → config.blend internalScore signals' = .ok score := by
  have hrange := ScoringConfig.range_of_valid hvalid
  have hmem := externalOf_mem hsignals hrange
  refine ⟨_, _, computeExternalComponent_eq hsignals hrange, blendScore_eq hweights hinternal hmem,
    blendOf_between hweights, fun hnone => by rw [hnone]; rfl, ?_,
    blendOf_mem hweights hinternal hmem, ?_, ?_, ?_⟩
  · rintro rfl
    rfl
  · intro internalScore' hle hmono
    exact ⟨_, ScoringConfig.blend_eq hvalid hweights ⟨hinternal.1.trans hmono, hle⟩ hsignals,
      blendOf_mono_internal hmono _⟩
  · intro signals' hraised hsignals'
    exact ⟨_, ScoringConfig.blend_eq hvalid hweights hinternal hsignals',
      blendOf_externalOf_mono hraised _ _⟩
  · intro signals' hperm
    rw [ScoringConfig.blend_eq hvalid hweights hinternal (hsignals.perm hperm),
      externalOf_perm hperm]

theorem blend_bounded_of_two_signals :
    ∃ external score, computeExternalComponent [(10000, 800), (5000, 200)] 200 850 = .ok external ∧
      blendScore 500 external {} 200 850 = .ok score ∧
      ∀ e ∈ external, min 500 e ≤ score ∧ score ≤ max 500 e := by
  obtain ⟨external, score, hexternal, hscore, hbetween, -⟩ :=
    @blend_bounded_and_monotone {} [(10000, 800), (5000, 200)] (by decide) (by decide) 500
      (by decide) (by unfold Bounded; decide)
  exact ⟨external, score, hexternal, hscore, hbetween⟩

end Blending

end Astera.CreditScore
