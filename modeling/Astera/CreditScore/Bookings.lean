import Astera.CreditScore.System

/-!
# What the calls of the pool book

A report of a payment or a default adds one invoice to the counters of the SME and its amount to the
volume, and marks the invoice as processed.  A report of a funding adds its amount and marks
nothing; it is passed over when the invoice is processed.  No other call changes these data.
-/

namespace Astera.CreditScore

open Fallible Machine Transition

/-- The data of an SME, or fresh data when it has none. -/
def State.dataOf (s : State) (sme : Address) : CreditScoreData :=
  (s.creditScore sme).getD (s.freshData sme)

/-- The counters and the volume after a record. -/
structure CreditScoreData.Adds (record : PaymentRecord) (old new : CreditScoreData) : Prop where
  outcomes : new.paidOnTime + new.paidLate + new.defaulted =
    old.paidOnTime + old.paidLate + old.defaulted + 1
  total : new.totalInvoices = old.totalInvoices + 1
  volume : new.totalVolume = old.totalVolume + record.amount
  fits : InI128 (old.totalVolume + record.amount)

section Data

variable {s s' : State} {sme : Address} {data new : CreditScoreData} {record : PaymentRecord}

theorem State.getOrCreateCreditData_data (hget : s.getOrCreateCreditData sme = .ok (s', data)) :
    data = s.dataOf sme := by
  unfold State.dataOf
  rcases State.getOrCreateCreditData_eq_ok.1 hget with ⟨hsome, -⟩ | ⟨hnone, -, -, rfl⟩
  · rw [hsome]
    rfl
  · rw [hnone]
    rfl

theorem CreditScoreData.count_eq_ok {status : PaymentStatus} (h : data.count status = .ok new) :
    new.paidOnTime + new.paidLate + new.defaulted =
        data.paidOnTime + data.paidLate + data.defaulted + 1 ∧
      new.totalInvoices = data.totalInvoices ∧ new.totalVolume = data.totalVolume := by
  cases status with
  | PaidOnTime =>
    simp only [CreditScoreData.count, bind_eq_ok, okOr_eq_ok, fitU_eq_some, pure_eq_ok] at h
    obtain ⟨_, ⟨rfl, -⟩, rfl⟩ := h
    exact ⟨by dsimp only; omega, rfl, rfl⟩
  | PaidLate =>
    simp only [CreditScoreData.count, bind_eq_ok, okOr_eq_ok, fitU_eq_some, pure_eq_ok] at h
    obtain ⟨_, ⟨rfl, -⟩, rfl⟩ := h
    exact ⟨by dsimp only; omega, rfl, rfl⟩
  | Defaulted =>
    simp only [CreditScoreData.count, bind_eq_ok, okOr_eq_ok, fitU_eq_some, pure_eq_ok] at h
    obtain ⟨_, ⟨rfl, -⟩, rfl⟩ := h
    exact ⟨by dsimp only; omega, rfl, rfl⟩

theorem State.dataAfter_adds {milestoneCount : ℕ}
    (h : s.dataAfter data record milestoneCount = .ok new) : data.Adds record new := by
  simp only [State.dataAfter, bind_eq_ok, okOr_eq_ok, fitU_eq_some, checkedAdd_eq_some,
    pure_eq_ok] at h
  obtain ⟨_, -, counted, hcount, _, ⟨rfl, -⟩, _, ⟨rfl, hfits⟩, average, -, score, -, rfl⟩ := h
  obtain ⟨houtcomes, htotal, hvolume⟩ := CreditScoreData.count_eq_ok hcount
  rw [hvolume] at hfits
  exact ⟨houtcomes, by dsimp only; rw [htotal], by dsimp only; rw [hvolume], hfits⟩

end Data

inductive Booking (s : State) (tx : Tx) (s' : State) : Prop
  | outcome {record : PaymentRecord} {data : CreditScoreData}
      (hrecord : tx.call.record s = some record)
      (hfresh : s.invoiceProcessed record.invoiceId = false)
      (hadds : (s.dataOf record.sme).Adds record data)
      (hscore : s'.creditScore = Function.update s.creditScore record.sme (some data))
      (hprocessed : s'.invoiceProcessed =
        Function.update s.invoiceProcessed record.invoiceId true)
  | funding {invoiceId : ℕ} {sme : Address} {amount : ℤ}
      (hcall : tx.call = .recordFunding invoiceId sme amount)
      (hfresh : s.invoiceProcessed invoiceId = false)
      (hscore : s'.creditScore = Function.update s.creditScore sme
        (some { s.dataOf sme with
          totalVolume := saturatingAdd (s.dataOf sme).totalVolume amount
          lastUpdated := s.now }))
      (hprocessed : s'.invoiceProcessed = s.invoiceProcessed)
  /-- A funding of a processed invoice is passed over. -/
  | ignored {invoiceId : ℕ} {sme : Address} {amount : ℤ}
      (hcall : tx.call = .recordFunding invoiceId sme amount)
      (hdone : s.invoiceProcessed invoiceId = true) (hstate : s' = s)
  | none (hrecord : tx.call.record s = none)
      (hcall : ∀ invoiceId sme amount, tx.call ≠ .recordFunding invoiceId sme amount)
      (hscore : s'.creditScore = s.creditScore) (hprocessed : s'.invoiceProcessed = s.invoiceProcessed)

section Calls

variable {signers : List Address} {s s' : State}

theorem commitPaymentRecord_books {record : PaymentRecord} {data : CreditScoreData}
    (hcommit : commitPaymentRecord s record.sme record.invoiceId record = .ok (s', data)) :
    (s.dataOf record.sme).Adds record data ∧
      s'.creditScore = Function.update s.creditScore record.sme (some data) ∧
      s'.invoiceProcessed = Function.update s.invoiceProcessed record.invoiceId true := by
  simp only [commitPaymentRecord, bind_eq_ok, Prod.exists, pure_eq_ok, Prod.mk.injEq] at hcommit
  obtain ⟨s₁, old, hget, milestoneCount, -, new, hafter, rfl, rfl⟩ := hcommit
  obtain rfl := State.getOrCreateCreditData_data hget
  obtain rfl := State.getOrCreateCreditData_state hget
  exact ⟨State.dataAfter_adds hafter, rfl, rfl⟩

theorem recordFunding_books {invoiceId : ℕ} {sme : Address} {amount : ℤ}
    (hx : exec s ⟨signers, .recordFunding invoiceId sme amount⟩ = .ok s') :
    Booking s ⟨signers, .recordFunding invoiceId sme amount⟩ s' := by
  simp only [exec, recordFunding, bind_eq_ok, exists_unit] at hx
  obtain ⟨-, hx⟩ := hx
  split_ifs at hx with hdone
  · exact .ignored rfl hdone ((pure_eq_ok _ _).1 hx).symm
  · simp only [bind_eq_ok, Prod.exists, pure_eq_ok] at hx
    obtain ⟨s₁, data, hget, rfl⟩ := hx
    obtain rfl := State.getOrCreateCreditData_data hget
    obtain rfl := State.getOrCreateCreditData_state hget
    exact .funding rfl (by simpa using hdone) rfl rfl

theorem exec_booking {tx : Tx} (hx : exec s tx = .ok s') : Booking s tx s' := by
  obtain ⟨signers, call⟩ := tx
  cases call with
  | recordFunding invoiceId sme amount => exact recordFunding_books hx
  | recordPayment invoiceId sme amount dueDate paidAt =>
    simp only [exec, recordPayment, bind_eq_ok, exists_unit, require_eq_ok, Prod.exists,
      pure_eq_ok] at hx
    obtain ⟨-, hfresh, record, hrecord, t, data, hcommit, rfl⟩ := hx
    obtain ⟨rfl, rfl⟩ := paymentRecord_keys hrecord
    obtain ⟨hadds, hscore, hprocessed⟩ := commitPaymentRecord_books hcommit
    exact .outcome (toOption_eq_some.2 hrecord) hfresh hadds hscore hprocessed
  | recordDefault invoiceId sme amount dueDate =>
    simp only [exec, recordDefault, bind_eq_ok, exists_unit, require_eq_ok, Prod.exists,
      pure_eq_ok] at hx
    obtain ⟨-, hfresh, t, data, hcommit, rfl⟩ := hx
    obtain ⟨hadds, hscore, hprocessed⟩ := @commitPaymentRecord_books s t
      (s.defaultRecord invoiceId sme amount dueDate) data hcommit
    exact .outcome rfl hfresh hadds hscore hprocessed
  | _ =>
    have hother : s'.creditScore = s.creditScore ∧ s'.invoiceProcessed = s.invoiceProcessed := by
      cases exec_effect hx with
      | set hcall hset hstate => exact hstate ▸ ⟨rfl, rfl⟩
      | advance hcall hle hfit hstate => exact hstate ▸ ⟨rfl, rfl⟩
      | committed hrecord hcommitted => cases hrecord
      | noted hcall hfresh hnoted => cases hcall
      | quiet hrecord hquiet =>
        obtain ⟨l, signals, -, rfl⟩ := hquiet
        exact ⟨rfl, rfl⟩
    exact .none rfl (by simp) hother.1 hother.2

end Calls

end Astera.CreditScore
