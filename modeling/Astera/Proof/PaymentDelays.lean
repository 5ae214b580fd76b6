import Astera.Lib.Rounding
import Astera.CreditScore.Bookings
import Astera.Proof.PaymentHistory

/-!
# The average payment delay

The contract keeps the average delay as a whole number of days and brings it up to date from there,
so the average drifts and depends on the order of the payments.  It is the true average as long as
every payment absorbs what was dropped before it (`Rounding.Absorbed`).
-/

namespace Astera.CreditScore

open Fallible Machine Transition Rounding

/-- The delay that a record adds to the average; a default adds none. -/
def PaymentRecord.delay (record : PaymentRecord) : Option ℤ :=
  if record.status = .Defaulted then none else some record.daysLate

def delays (records : List PaymentRecord) : List ℤ := records.filterMap PaymentRecord.delay

/-- The sum of the delays over their number, truncated toward zero. -/
def trueAverage (records : List PaymentRecord) : ℤ :=
  (delays records).sum.tdiv (delays records).length

def State.average (s : State) (sme : Address) : ℤ := (s.dataOf sme).averagePaymentDays

/-! ## One record -/

structure CreditScoreData.Recorded (config : Config) (record : PaymentRecord) (milestoneCount : ℕ)
    (old new : CreditScoreData) : Prop where
  paidOnTime : new.paidOnTime = old.paidOnTime + if record.status = .PaidOnTime then 1 else 0
  paidLate : new.paidLate = old.paidLate + if record.status = .PaidLate then 1 else 0
  defaulted : new.defaulted = old.defaulted + if record.status = .Defaulted then 1 else 0
  totalInvoices : new.totalInvoices = old.totalInvoices + 1
  totalVolume : new.totalVolume = old.totalVolume + record.amount
  average : new.averagePaymentDays =
    (record.delay.map (nextMean old.averagePaymentDays (old.paidOnTime + old.paidLate))).getD
      old.averagePaymentDays
  score : calculateScoreWithConfig config.scoring config.lateThreshold new.totalInvoices
    new.paidOnTime new.paidLate new.defaulted new.totalVolume new.averagePaymentDays
    milestoneCount = .ok new.score

section Data

variable {s s' : State} {sme : Address} {data new : CreditScoreData} {record : PaymentRecord}

theorem CreditScoreData.count_counters {status : PaymentStatus}
    (h : data.count status = .ok new) :
    new = { data with
      paidOnTime := data.paidOnTime + if status = .PaidOnTime then 1 else 0
      paidLate := data.paidLate + if status = .PaidLate then 1 else 0
      defaulted := data.defaulted + if status = .Defaulted then 1 else 0 } := by
  cases status with
  | PaidOnTime | PaidLate | Defaulted =>
    simp only [CreditScoreData.count, bind_eq_ok, okOr_eq_ok, fitU_eq_some, pure_eq_ok] at h
    obtain ⟨_, ⟨rfl, -⟩, rfl⟩ := h
    rfl

theorem CreditScoreData.averageAfter_eq_ok {prevPaid : ℕ} {average : ℤ}
    (hpaid : record.status ≠ .Defaulted → data.paidOnTime + data.paidLate = prevPaid + 1)
    (h : data.averageAfter prevPaid record = .ok average) :
    average = (record.delay.map (nextMean data.averagePaymentDays prevPaid)).getD
      data.averagePaymentDays := by
  unfold CreditScoreData.averageAfter at h
  unfold PaymentRecord.delay
  split_ifs at h ⊢ with hdefault
  · exact ((pure_eq_ok _ _).1 h).symm
  · simp only [calculateAveragePaymentDays, bind_eq_ok, okOr_eq_ok, fitU_eq_some,
      fitI_eq_some] at h
    obtain ⟨_, ⟨rfl, -⟩, _, ⟨rfl, -⟩, _, ⟨rfl, -⟩, h⟩ := h
    rw [hpaid hdefault, if_neg (Nat.succ_ne_zero _), pure_eq_ok] at h
    rw [← h]
    rfl

theorem State.dataAfter_recorded {milestoneCount : ℕ}
    (h : s.dataAfter data record milestoneCount = .ok new) :
    data.Recorded s.config record milestoneCount new := by
  simp only [State.dataAfter, bind_eq_ok, okOr_eq_ok, fitU_eq_some, checkedAdd_eq_some,
    pure_eq_ok] at h
  obtain ⟨_, ⟨rfl, -⟩, counted, hcount, _, ⟨rfl, -⟩, _, ⟨rfl, -⟩, average, haverage, score, hscore,
    rfl⟩ := h
  obtain rfl := CreditScoreData.count_counters hcount
  refine ⟨rfl, rfl, rfl, rfl, rfl, ?_, hscore⟩
  apply CreditScoreData.averageAfter_eq_ok _ haverage
  intro hpaid
  dsimp only
  cases hstatus : record.status <;> simp_all <;> omega

end Data

section Calls

variable {s s' : State} {tx : Tx} {record : PaymentRecord}

theorem exec_record (hx : exec s tx = .ok s') (hrecord : tx.call.record s = some record) :
    ∃ data, commitPaymentRecord s record.sme record.invoiceId record = .ok (s', data) := by
  obtain ⟨signers, call⟩ := tx
  cases call with
  | recordPayment invoiceId sme amount dueDate paidAt =>
    simp only [exec, recordPayment, bind_eq_ok, exists_unit, Prod.exists, pure_eq_ok] at hx
    obtain ⟨-, -, made, hmade, t, data, hcommit, rfl⟩ := hx
    obtain rfl : made = record := Except.ok.inj (hmade.symm.trans (toOption_eq_some.1 hrecord))
    obtain ⟨rfl, rfl⟩ := paymentRecord_keys hmade
    exact ⟨data, hcommit⟩
  | recordDefault invoiceId sme amount dueDate =>
    simp only [exec, recordDefault, bind_eq_ok, exists_unit, Prod.exists, pure_eq_ok] at hx
    obtain ⟨-, -, t, data, hcommit, rfl⟩ := hx
    obtain rfl := Option.some.inj hrecord
    exact ⟨data, hcommit⟩
  | _ => cases hrecord

theorem commitPaymentRecord_recorded {data : CreditScoreData}
    (hcommit : commitPaymentRecord s record.sme record.invoiceId record = .ok (s', data)) :
    ∃ milestoneCount, s.milestoneCountAfter record.sme record = .ok milestoneCount ∧
      (s.dataOf record.sme).Recorded s.config record milestoneCount data ∧
      s'.creditScore = Function.update s.creditScore record.sme (some data) ∧
      s'.milestoneCount = Function.update s.milestoneCount record.sme milestoneCount ∧
      s'.config = s.config := by
  simp only [commitPaymentRecord, bind_eq_ok, Prod.exists, pure_eq_ok, Prod.mk.injEq] at hcommit
  obtain ⟨s₁, old, hget, milestoneCount, hmilestones, new, hafter, rfl, rfl⟩ := hcommit
  obtain rfl := State.getOrCreateCreditData_data hget
  obtain rfl := State.getOrCreateCreditData_state hget
  exact ⟨milestoneCount, hmilestones, State.dataAfter_recorded hafter, rfl, rfl, rfl⟩

/-- The record that a call makes of an invoice of this SME. -/
def recordFor (sme : Address) (s : State) (tx : Tx) : Option PaymentRecord :=
  (tx.call.record s).filter fun record => record.sme = sme

inductive DataStep (sme : Address) (s : State) (tx : Tx) (s' : State) : Prop
  | recorded {record : PaymentRecord} {milestoneCount : ℕ}
      (hrecord : recordFor sme s tx = some record)
      (hmilestones : s.milestoneCountAfter sme record = .ok milestoneCount)
      (hdata : (s.dataOf sme).Recorded s.config record milestoneCount (s'.dataOf sme))
      (hcount : s'.milestoneCount sme = milestoneCount) (hconfig : s'.config = s.config)
  | funded {invoiceId : ℕ} {amount : ℤ} (hrecord : recordFor sme s tx = none)
      (hcall : tx.call = .recordFunding invoiceId sme amount)
      (hdata : s'.dataOf sme = { s.dataOf sme with
        totalVolume := saturatingAdd (s.dataOf sme).totalVolume amount
        lastUpdated := s.now })
  | same (hrecord : recordFor sme s tx = none) (hdata : s'.creditScore sme = s.creditScore sme)

theorem exec_dataStep (hx : exec s tx = .ok s') (sme : Address) : DataStep sme s tx s' := by
  cases exec_booking hx with
  | @outcome record _ hrecord =>
    obtain ⟨data, hcommit⟩ := exec_record hx hrecord
    obtain ⟨m, hmilestones, hdata, hscore, hcount, hconfig⟩ := commitPaymentRecord_recorded hcommit
    by_cases hsme : record.sme = sme
    · subst hsme
      have hnew : s'.dataOf record.sme = data := by
        unfold State.dataOf
        rw [hscore, Function.update_self]
        rfl
      refine .recorded (by simp [recordFor, hrecord]) hmilestones (hnew ▸ hdata) ?_ hconfig
      rw [hcount, Function.update_self]
    · refine .same (by simp [recordFor, hrecord, hsme]) ?_
      rw [hscore, Function.update_of_ne (Ne.symm hsme)]
  | @funding invoiceId payee amount hcall hfresh hscore =>
    have hrecord : recordFor sme s tx = none := by
      simp [recordFor, hcall, Call.record]
    by_cases hsme : payee = sme
    · subst hsme
      refine .funded hrecord hcall ?_
      show (s'.creditScore payee).getD _ = _
      rw [hscore, Function.update_self]
      rfl
    · refine .same hrecord ?_
      rw [hscore, Function.update_of_ne (Ne.symm hsme)]
  | ignored hcall hdone hstate =>
    exact .same (by simp [recordFor, hcall, Call.record]) (by rw [hstate])
  | none hrecord hcall hscore =>
    exact .same (by simp [recordFor, hrecord]) (by rw [hscore])

end Calls

/-! ## The average along a run -/

section Average

variable {sme : Address} {s s' : State} {tx : Tx} {records : List PaymentRecord}

/-- The delay that a call adds to the average of an SME. -/
def newDelay (sme : Address) (s : State) (tx : Tx) : Option ℤ :=
  (recordFor sme s tx).bind PaymentRecord.delay

/-- What the average of this SME has dropped is absorbed by the delay that the call adds. -/
def KeepsAverage (sme : Address) (x : State × List PaymentRecord) (tx : Tx) : Prop :=
  ∀ d ∈ newDelay sme x.1 tx, Absorbed (delays x.2).sum (delays x.2).length d

instance (sme : Address) (x : State × List PaymentRecord) (tx : Tx) :
    Decidable (KeepsAverage sme x tx) :=
  inferInstanceAs (Decidable (∀ d ∈ newDelay sme x.1 tx, _))

theorem delays_recordedOf (sme : Address) (s s' : State) (tx : Tx) (records : List PaymentRecord) :
    delays (recordedOf sme s tx s' records) = delays records ++ (newDelay sme s tx).toList := by
  unfold delays recordedOf newDelay recordFor
  rw [List.filterMap_append]
  cases (tx.call.record s).filter fun record => record.sme = sme with
  | none => rfl
  | some record => cases hdelay : record.delay <;> simp [hdelay]

def State.paid (s : State) (sme : Address) : ℕ :=
  (s.dataOf sme).paidOnTime + (s.dataOf sme).paidLate

theorem exec_average (hx : exec s tx = .ok s') (sme : Address) :
    s'.average sme = ((newDelay sme s tx).map (nextMean (s.average sme) (s.paid sme))).getD
        (s.average sme) ∧
      s'.paid sme = s.paid sme + (newDelay sme s tx).toList.length := by
  unfold newDelay State.average State.paid
  cases exec_dataStep hx sme with
  | @recorded record _ hrecord _ hdata =>
    rw [hrecord, hdata.average, hdata.paidOnTime, hdata.paidLate]
    refine ⟨rfl, ?_⟩
    show _ = _ + record.delay.toList.length
    unfold PaymentRecord.delay
    cases hstatus : record.status <;> simp <;> omega
  | funded hrecord hcall hdata =>
    rw [hrecord, hdata]
    exact ⟨rfl, rfl⟩
  | same hrecord hdata =>
    rw [hrecord]
    unfold State.dataOf
    rw [hdata]
    cases s.creditScore sme <;> exact ⟨rfl, rfl⟩

/-- The invariant: the stored average is the true one. -/
structure Averaged (sme : Address) (x : State × List PaymentRecord) : Prop where
  average : x.1.average sme = trueAverage x.2
  paid : x.1.paid sme = (delays x.2).length

/-- Nothing is stored about the SME. -/
structure State.Unrecorded (s : State) (sme : Address) : Prop where
  creditScore : s.creditScore sme = none
  milestoneCount : s.milestoneCount sme = 0

theorem State.Unrecorded.dataOf (hs : s.Unrecorded sme) : s.dataOf sme = s.freshData sme := by
  unfold State.dataOf
  rw [hs.creditScore]
  rfl

theorem Averaged.initial (hs : s.Unrecorded sme) : Averaged sme (s, []) := by
  constructor
  · show (s.dataOf sme).averagePaymentDays = _
    rw [hs.dataOf]
    exact (Int.zero_tdiv _).symm
  · show (s.dataOf sme).paidOnTime + (s.dataOf sme).paidLate = 0
    rw [hs.dataOf]
    rfl

theorem Averaged.step {x y : State × List PaymentRecord} (hx : Averaged sme x)
    (hstep : recording sme x tx = .ok y) :
    y.1.paid sme = (delays y.2).length ∧
      (y.1.average sme = trueAverage y.2 ↔ KeepsAverage sme x tx) := by
  obtain ⟨hexec, hrecords⟩ := (track_eq_ok _ _ _ _ _).1 hstep
  obtain ⟨haverage, hpaid⟩ := exec_average hexec sme
  unfold trueAverage KeepsAverage
  rw [hrecords, delays_recordedOf, haverage, hpaid, hx.average, hx.paid, List.length_append]
  refine ⟨rfl, ?_⟩
  cases newDelay sme x.1 tx with
  | none => simp [trueAverage]
  | some d =>
    simp only [Option.map_some, Option.getD_some, Option.toList_some, List.length_singleton,
      List.sum_append, List.sum_singleton, Option.mem_def, Option.some.injEq, forall_eq',
      Nat.cast_add, Nat.cast_one, trueAverage]
    exact nextMean_eq_iff _ _ d

theorem averaged_of_reaches {ok : State × List PaymentRecord → Tx → Prop}
    (hok : ∀ x tx, ok x tx → KeepsAverage sme x tx) {x : State × List PaymentRecord}
    (hs : s.Unrecorded sme) (hrun : Reaches (recording sme) ok (s, []) x) : Averaged sme x := by
  refine hrun.invariant (Averaged.initial hs) ?_
  intro y tx z hy hkeeps hstep
  obtain ⟨hpaid, hiff⟩ := hy.step hstep
  exact ⟨hiff.2 (hok y tx hkeeps), hpaid⟩

end Average

/-! ## The order of the payments -/

/-- What counts of a record: its status, its amount and the delay that it adds. -/
def PaymentRecord.outcome (record : PaymentRecord) : PaymentStatus × ℤ × Option ℤ :=
  (record.status, record.amount, record.delay)

def Call.Reports : Call → Prop
  | .set _ | .recordFunding _ _ _ => False
  | _ => True

instance : DecidablePred Call.Reports := fun call => by
  unfold Call.Reports
  split <;> infer_instance

def ScoringConfig.Milestone (config : ScoringConfig) (outcome : PaymentStatus × ℤ × Option ℤ) :
    Prop :=
  outcome.1 ≠ .Defaulted ∧ config.bonuses.minMilestoneVolume ≤ outcome.2.1

instance (config : ScoringConfig) : DecidablePred config.Milestone :=
  fun _ => inferInstanceAs (Decidable (_ ∧ _))

def tally (status : PaymentStatus) (outcomes : List (PaymentStatus × ℤ × Option ℤ)) : ℕ :=
  outcomes.countP fun outcome => outcome.1 = status

/-- The score of an SME with these outcomes and this average. -/
def scoreOf (config : Config) (outcomes : List (PaymentStatus × ℤ × Option ℤ)) (average : ℤ) :
    Res ℕ :=
  if outcomes = [] then .ok config.scoring.core.minScore
  else calculateScoreWithConfig config.scoring config.lateThreshold outcomes.length
    (tally .PaidOnTime outcomes) (tally .PaidLate outcomes) (tally .Defaulted outcomes)
    (outcomes.map fun outcome => outcome.2.1).sum average
    (outcomes.countP fun outcome => config.scoring.Milestone outcome)

section Order

variable {sme : Address} {config : Config} {s s' : State} {tx : Tx}

theorem scoreOf_perm {outcomes outcomes' : List (PaymentStatus × ℤ × Option ℤ)}
    (hperm : outcomes.Perm outcomes') (average : ℤ) :
    scoreOf config outcomes average = scoreOf config outcomes' average := by
  have hnil : outcomes = [] ↔ outcomes' = [] := by
    rw [← List.length_eq_zero_iff, hperm.length_eq, List.length_eq_zero_iff]
  unfold scoreOf tally
  simp only [hnil, hperm.length_eq, hperm.countP_eq, (hperm.map _).sum_eq]

/-- The invariant of a run of reports: the data of the SME are those of its outcomes. -/
structure Tallied (sme : Address) (config : Config) (s : State)
    (outcomes : List (PaymentStatus × ℤ × Option ℤ)) : Prop where
  settings : s.config = config
  paidOnTime : (s.dataOf sme).paidOnTime = tally .PaidOnTime outcomes
  paidLate : (s.dataOf sme).paidLate = tally .PaidLate outcomes
  defaulted : (s.dataOf sme).defaulted = tally .Defaulted outcomes
  totalInvoices : (s.dataOf sme).totalInvoices = outcomes.length
  totalVolume : (s.dataOf sme).totalVolume = (outcomes.map fun outcome => outcome.2.1).sum
  milestoneCount : s.milestoneCount sme = outcomes.countP fun o => config.scoring.Milestone o
  score : scoreOf config outcomes (s.average sme) = .ok (s.dataOf sme).score

theorem Tallied.initial (hs : s.Unrecorded sme) : Tallied sme s.config s [] := by
  have hdata := hs.dataOf
  refine ⟨rfl, ?_, ?_, ?_, ?_, ?_, hs.milestoneCount, ?_⟩
  all_goals
    rw [hdata]
    rfl

theorem exec_reports (hx : exec s tx = .ok s') (hreports : tx.call.Reports) :
    s'.config = s.config ∧
      (recordFor sme s tx = none → s'.milestoneCount sme = s.milestoneCount sme) := by
  cases exec_effect hx with
  | set hcall => exact absurd hreports (by simp [hcall, Call.Reports])
  | advance hcall hle hfit hstate => exact hstate ▸ ⟨rfl, fun _ => rfl⟩
  | noted hcall => exact absurd hreports (by simp [hcall, Call.Reports])
  | quiet hrecord hquiet =>
    obtain ⟨l, signals, -, rfl⟩ := hquiet
    exact ⟨rfl, fun _ => rfl⟩
  | @committed record hrecord hcommitted =>
    obtain ⟨data, hcommit⟩ := exec_record hx hrecord
    obtain ⟨m, -, -, -, hcount, -⟩ := commitPaymentRecord_recorded hcommit
    refine ⟨hcommitted.config, fun hnone => ?_⟩
    have hsme : record.sme ≠ sme := by
      rintro rfl
      simp [recordFor, hrecord] at hnone
    rw [hcount, Function.update_of_ne hsme.symm]

theorem tally_append (status : PaymentStatus) (outcomes : List (PaymentStatus × ℤ × Option ℤ))
    (record : PaymentRecord) :
    tally status (outcomes ++ [record.outcome]) =
      tally status outcomes + if record.status = status then 1 else 0 := by
  simp [tally, PaymentRecord.outcome, List.countP_append, List.countP_singleton]

theorem milestoneCountAfter_eq_ok {record : PaymentRecord} {milestoneCount : ℕ}
    (h : s.milestoneCountAfter sme record = .ok milestoneCount) :
    milestoneCount = s.milestoneCount sme +
      if s.config.scoring.Milestone record.outcome then 1 else 0 := by
  unfold State.milestoneCountAfter at h
  by_cases hcounts : record.status ≠ .Defaulted ∧
      s.config.scoring.bonuses.minMilestoneVolume ≤ record.amount
  · rw [if_pos hcounts, okOr_eq_ok, fitU_eq_some] at h
    rw [h.1, if_pos (show s.config.scoring.Milestone record.outcome from hcounts)]
  · rw [if_neg hcounts, pure_eq_ok] at h
    rw [← h, if_neg (show ¬ s.config.scoring.Milestone record.outcome from hcounts), add_zero]

theorem Tallied.step {outcomes : List (PaymentStatus × ℤ × Option ℤ)}
    (hs : Tallied sme config s outcomes) (hreports : tx.call.Reports)
    (hx : exec s tx = .ok s') :
    Tallied sme config s'
      (outcomes ++ ((recordFor sme s tx).map PaymentRecord.outcome).toList) := by
  obtain ⟨hsettings, hmilestones⟩ := @exec_reports sme s s' tx hx hreports
  cases exec_dataStep hx sme with
  | @recorded record m hrecord hcount hdata hnew =>
    rw [hrecord, Option.map_some, Option.toList_some]
    have hm := milestoneCountAfter_eq_ok hcount
    rw [hs.settings, hs.milestoneCount] at hm
    have hscore := hdata.score
    have honTime := hdata.paidOnTime
    have hlate := hdata.paidLate
    have hdefaulted := hdata.defaulted
    have htotal := hdata.totalInvoices
    have hvolume := hdata.totalVolume
    rw [hs.paidOnTime, ← tally_append] at honTime
    rw [hs.paidLate, ← tally_append] at hlate
    rw [hs.defaulted, ← tally_append] at hdefaulted
    rw [hs.totalInvoices] at htotal
    rw [hs.totalVolume] at hvolume
    have hcounted : m =
        (outcomes ++ [record.outcome]).countP fun o => config.scoring.Milestone o := by
      rw [hm, List.countP_append, List.countP_singleton]
      simp
    refine ⟨hsettings.trans hs.settings, honTime, hlate, hdefaulted, ?_, ?_,
      hnew.trans hcounted, ?_⟩
    · simp [htotal]
    · simp [hvolume, PaymentRecord.outcome]
    · unfold scoreOf State.average
      rw [if_neg (by simp), ← hscore, hs.settings, honTime, hlate, hdefaulted, htotal, hvolume,
        hcounted]
      simp [PaymentRecord.outcome]
  | funded hrecord hcall => exact absurd hreports (by simp [hcall, Call.Reports])
  | same hrecord hdata =>
    rw [hrecord, Option.map_none, Option.toList_none, List.append_nil]
    have hsame : s'.dataOf sme = { s.dataOf sme with
        lastUpdated := (s'.dataOf sme).lastUpdated } := by
      unfold State.dataOf State.freshData
      rw [hdata, hsettings]
      cases s.creditScore sme <;> rfl
    have haverage : s'.average sme = s.average sme := by
      unfold State.average
      rw [hsame]
    refine ⟨hsettings.trans hs.settings, ?_, ?_, ?_, ?_, ?_,
      (hmilestones hrecord).trans hs.milestoneCount, ?_⟩
    · rw [hsame]
      exact hs.paidOnTime
    · rw [hsame]
      exact hs.paidLate
    · rw [hsame]
      exact hs.defaulted
    · rw [hsame]
      exact hs.totalInvoices
    · rw [hsame]
      exact hs.totalVolume
    · rw [haverage, hsame]
      exact hs.score

theorem outcomes_recordedOf (records : List PaymentRecord) :
    (recordedOf sme s tx s' records).map PaymentRecord.outcome =
      records.map PaymentRecord.outcome ++
        ((recordFor sme s tx).map PaymentRecord.outcome).toList := by
  unfold recordedOf recordFor
  rw [List.map_append]
  cases (tx.call.record s).filter fun record => record.sme = sme <;> rfl

theorem tallied_of_reaches {ok : State × List PaymentRecord → Tx → Prop}
    (hok : ∀ x tx, ok x tx → tx.call.Reports) {x : State × List PaymentRecord}
    (hs : s.Unrecorded sme) (hrun : Reaches (recording sme) ok (s, []) x) :
    Tallied sme s.config x.1 (x.2.map PaymentRecord.outcome) := by
  refine hrun.invariant (P := fun x => Tallied sme s.config x.1
    (x.2.map PaymentRecord.outcome)) (Tallied.initial hs) ?_
  intro y tx z hy hreports hstep
  obtain ⟨hexec, hrecords⟩ := (track_eq_ok _ _ _ _ _).1 hstep
  rw [hrecords, outcomes_recordedOf]
  exact hy.step (hok y tx hreports) hexec

theorem delays_eq_outcomes (records : List PaymentRecord) :
    delays records = (records.map PaymentRecord.outcome).filterMap fun o => o.2.2 := by
  unfold delays
  rw [List.filterMap_map]
  rfl

theorem trueAverage_perm {records records' : List PaymentRecord}
    (hperm : (records.map PaymentRecord.outcome).Perm (records'.map PaymentRecord.outcome)) :
    trueAverage records = trueAverage records' := by
  have hdelays : (delays records).Perm (delays records') := by
    rw [delays_eq_outcomes, delays_eq_outcomes]
    exact hperm.filterMap _
  unfold trueAverage
  rw [hdelays.sum_eq, hdelays.length_eq]

/-- In every run in which each payment absorbs what the average has dropped, the stored average of an
SME is the true average of its records in every state; a call that does not absorb it leaves another
average.  Two such runs of reports with the same outcomes of an SME, in whatever order, end with the
same average and the same score. -/
theorem average_true_of_absorbed {s : State} {sme : Address} (hs : s.Unrecorded sme)
    {x : State × List PaymentRecord} (hrun : Reaches (recording sme) (KeepsAverage sme) (s, []) x) :
    x.1.average sme = trueAverage x.2 ∧
    (∀ tx y, recording sme x tx = .ok y →
      (y.1.average sme = trueAverage y.2 ↔ KeepsAverage sme x tx)) ∧
    ∀ y z,
      Reaches (recording sme) (fun x tx => KeepsAverage sme x tx ∧ tx.call.Reports) (s, []) y →
      Reaches (recording sme) (fun x tx => KeepsAverage sme x tx ∧ tx.call.Reports) (s, []) z →
      (y.2.map PaymentRecord.outcome).Perm (z.2.map PaymentRecord.outcome) →
      y.1.average sme = z.1.average sme ∧
        (y.1.dataOf sme).score = (z.1.dataOf sme).score := by
  have hx := averaged_of_reaches (fun _ _ h => h) hs hrun
  refine ⟨hx.average, fun tx y hstep => (hx.step hstep).2, fun y z hy hz hperm => ?_⟩
  have haverage : y.1.average sme = z.1.average sme := by
    rw [(averaged_of_reaches (fun _ _ h => h.1) hs hy).average,
      (averaged_of_reaches (fun _ _ h => h.1) hs hz).average]
    exact trueAverage_perm hperm
  refine ⟨haverage, ?_⟩
  have hscore := (tallied_of_reaches (fun _ _ h => h.2) hs hy).score
  rw [scoreOf_perm hperm, haverage, (tallied_of_reaches (fun _ _ h => h.2) hs hz).score] at hscore
  exact (Except.ok.inj hscore).symm

end Order

/-! ## Samples -/

/-- The pool reports payments by account 3, each so many days late; the days number the invoices. -/
def latePayments (days : List ℕ) : List Tx :=
  days.map fun d => ⟨[9], .recordPayment d 3 500 2000 (2000 + d * secsPerDay)⟩

theorem average_true_of_whole_means :
    ∃ x : State × List PaymentRecord,
      (latePayments [4, 2, 3]).foldlM (recording 3) (sampleState, []) = .ok x ∧
        delays x.2 = [4, 2, 3] ∧ x.1.average 3 = trueAverage x.2 := by
  obtain ⟨x, hx, hp⟩ := exists_of_check
    (x := (latePayments [4, 2, 3]).foldlM (recording 3) (sampleState, []))
    (p := fun x => decide (delays x.2 = [4, 2, 3])) (by decide)
  have hrun : Reaches (recording 3) (KeepsAverage 3) (sampleState, []) x :=
    reaches_of_along .refl (by decide) hx
  have hfresh : sampleState.Unrecorded 3 := ⟨rfl, rfl⟩
  exact ⟨x, hx, of_decide_eq_true hp, (average_true_of_absorbed hfresh hrun).1⟩

/-- When the same payments arrive in another order, the average ends at 2 and the score differs. -/
theorem average_depends_on_order :
    ∃ x y : State × List PaymentRecord,
      Reaches (recording 3) (fun _ _ => True) (sampleState, []) x ∧
      Reaches (recording 3) (fun _ _ => True) (sampleState, []) y ∧
      x.2.Perm y.2 ∧ x.1.average 3 = 2 ∧ trueAverage x.2 = 3 ∧ y.1.average 3 = 3 ∧
      (x.1.dataOf 3).score ≠ (y.1.dataOf 3).score := by
  obtain ⟨⟨x, y⟩, hxy, hp⟩ := exists_of_check
    (x := do
      let x ← (latePayments [4, 3, 2]).foldlM (recording 3) (sampleState, [])
      let y ← (latePayments [4, 2, 3]).foldlM (recording 3) (sampleState, [])
      return (x, y))
    (p := fun z => decide (z.1.2.Perm z.2.2 ∧ z.1.1.average 3 = 2 ∧ trueAverage z.1.2 = 3 ∧
      z.2.1.average 3 = 3 ∧ (z.1.1.dataOf 3).score ≠ (z.2.1.dataOf 3).score))
    (by decide)
  simp only [bind_eq_ok, pure_eq_ok, Prod.mk.injEq] at hxy
  obtain ⟨_, hx, _, hy, rfl, rfl⟩ := hxy
  exact ⟨_, _, reaches_of_along .refl (along_of_forall (fun _ _ => trivial) _ _) hx,
    reaches_of_along .refl (along_of_forall (fun _ _ => trivial) _ _) hy, of_decide_eq_true hp⟩

end Astera.CreditScore
