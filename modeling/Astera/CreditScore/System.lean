import Astera.Lib.Transition
import Astera.CreditScore.Contract

/-!
# The credit score contract as a machine

`Call` lists the entrypoints, the queries among them, and the passing of time; a run is a run of
`exec` (`Transition.Reaches`).
-/

namespace Astera.CreditScore

open Fallible Machine Transition
open Invoices (Bytes)

inductive Setting
  | pause (admin : Address)
  | unpause (admin : Address)
  | setPausedViaAc (accessControl : Address) (paused : Bool)
  | setScoreThresholds (admin : Address) (thresholds : ScoreThresholds)
  | setScoreThresholdsViaAc (accessControl : Address) (thresholds : ScoreThresholds)
  | setScoringConfig (admin : Address) (config : ScoringConfig)
  | setInvoiceContract (admin invoiceContract : Address)
  | setPoolContract (admin poolContract : Address)
  | setLateThreshold (admin : Address) (days : ℤ)
  | setLateThresholdViaAc (accessControl : Address) (days : ℤ)
  | setMaxPaymentHistory (admin : Address) (maxHistory : UInt32)
  | setAccessControl (admin accessControl : Address)
  | setAccessControlViaAc (accessControl newAccessControl : Address)
  | proposeAdminChange (admin newAdmin : Address)
  | finalizeAdminChange (admin : Address)
  | cancelAdminChange (admin : Address)

def applySetting (signers : List Address) (s : State) : Setting → Res Config
  | .pause admin => pause signers s admin
  | .unpause admin => unpause signers s admin
  | .setPausedViaAc accessControl paused => setPausedViaAc signers s accessControl paused
  | .setScoreThresholds admin thresholds => setScoreThresholds signers s admin thresholds
  | .setScoreThresholdsViaAc accessControl thresholds =>
    setScoreThresholdsViaAc signers s accessControl thresholds
  | .setScoringConfig admin config => setScoringConfig signers s admin config
  | .setInvoiceContract admin invoiceContract => setInvoiceContract signers s admin invoiceContract
  | .setPoolContract admin poolContract => setPoolContract signers s admin poolContract
  | .setLateThreshold admin days => setLateThreshold signers s admin days
  | .setLateThresholdViaAc accessControl days => setLateThresholdViaAc signers s accessControl days
  | .setMaxPaymentHistory admin maxHistory => setMaxPaymentHistory signers s admin maxHistory
  | .setAccessControl admin accessControl => setAccessControl signers s admin accessControl
  | .setAccessControlViaAc accessControl newAccessControl =>
    setAccessControlViaAc signers s accessControl newAccessControl
  | .proposeAdminChange admin newAdmin => proposeAdminChange signers s admin newAdmin
  | .finalizeAdminChange admin => finalizeAdminChange signers s admin
  | .cancelAdminChange admin => cancelAdminChange signers s admin

inductive Call
  | recordPayment (invoiceId : ℕ) (sme : Address) (amount : ℤ) (dueDate paidAt : ℕ)
  | recordFunding (invoiceId : ℕ) (sme : Address) (amount : ℤ)
  | recordDefault (invoiceId : ℕ) (sme : Address) (amount : ℤ) (dueDate : ℕ)
  | getCreditScore (sme : Address)
  | listAllSmeStats (page pageSize : ℕ)
  | simulateScoreWithAttestations (sme : Address) (hypothetical : List (ℕ × ℕ))
  | getAttestation (id : ℕ)
  | listSmeAttestations (sme : Address)
  | registerAttestor (admin address : Address) (attestorType : AttestorType) (weightBps : ℕ)
  | registerAttestorViaAc (accessControl address : Address) (attestorType weightBps : ℕ)
  | deactivateAttestor (admin address : Address)
  | submitAttestation (attestor sme : Address) (attestationType : AttestorType)
      (scoreContribution : ℕ) (evidenceHash : Bytes) (expiresAt : ℕ)
  | disputeAttestation (caller : Address) (attestationId : ℕ) (reasonHash : Bytes)
  | resolveAttestationDispute (admin : Address) (attestationId : ℕ) (upheld : Bool)
  | submitRiskSignal (admin sme : Address) (debtorConcentrationBps invoiceSizeRiskBps : ℕ)
  | set (setting : Setting)
  | advance (now : ℕ)

structure Tx where
  signers : List Address
  call : Call

def advance (s : State) (now : ℕ) : Res State := do
  require (s.now ≤ now ∧ now < 2 ^ 64) .overflow
  return { s with now := now }

def exec (s : State) (tx : Tx) : Res State :=
  let signers := tx.signers
  match tx.call with
  | .recordPayment invoiceId sme amount dueDate paidAt =>
    recordPayment signers s invoiceId sme amount dueDate paidAt
  | .recordFunding invoiceId sme amount => recordFunding signers s invoiceId sme amount
  | .recordDefault invoiceId sme amount dueDate =>
    recordDefault signers s invoiceId sme amount dueDate
  | .getCreditScore sme => (getCreditScore s sme).map Prod.fst
  | .listAllSmeStats page pageSize => (listAllSmeStats s page pageSize).map Prod.fst
  | .simulateScoreWithAttestations sme hypothetical =>
    (simulateScoreWithAttestations s sme hypothetical).map Prod.fst
  | .getAttestation id => .ok (getAttestation s id).1
  | .listSmeAttestations sme => .ok (listSmeAttestations s sme).1
  | .registerAttestor admin address attestorType weightBps =>
    registerAttestor signers s admin address attestorType weightBps
  | .registerAttestorViaAc accessControl address attestorType weightBps =>
    registerAttestorViaAc signers s accessControl address attestorType weightBps
  | .deactivateAttestor admin address => deactivateAttestor signers s admin address
  | .submitAttestation attestor sme attestationType scoreContribution evidenceHash expiresAt =>
    (submitAttestation signers s attestor sme attestationType scoreContribution evidenceHash
      expiresAt).map Prod.fst
  | .disputeAttestation caller attestationId reasonHash =>
    disputeAttestation signers s caller attestationId reasonHash
  | .resolveAttestationDispute admin attestationId upheld =>
    resolveAttestationDispute signers s admin attestationId upheld
  | .submitRiskSignal admin sme debtorConcentrationBps invoiceSizeRiskBps =>
    submitRiskSignal signers s admin sme debtorConcentrationBps invoiceSizeRiskBps
  | .set setting => (applySetting signers s setting).map fun config => { s with config := config }
  | .advance now => advance s now

/-! ## A sample contract -/

/-- The contract after `initialize`: the admin is 1, the invoice contract 2 and the pool 9. -/
def sampleState : State := initialState 1000 1 2 9

/-- The pool reports a payment of 500 by account 3 in time. -/
def payment (invoiceId : ℕ) : Tx := ⟨[9], .recordPayment invoiceId 3 500 2000 1500⟩

/-!
# What a call does

Only the three calls of the pool write the ledger of the SMEs.  Every other call may enter SMEs in
the registry, and change the signals, the settings or the time.
-/

namespace Registry

def enter (r : Registry) (sme : Address) : Registry :=
  ⟨r.smeCount + 1, Function.update r.smeByIndex r.smeCount (some sme)⟩

def smes (r : Registry) : List Address := Slots.stored r.smeByIndex r.smeCount

theorem smes_enter (r : Registry) (sme : Address) : (r.enter sme).smes = r.smes ++ [sme] :=
  Slots.stored_push r.smeByIndex r.smeCount sme

theorem smes_foldl_enter (r : Registry) (l : List Address) :
    (l.foldl enter r).smes = r.smes ++ l := by
  induction l generalizing r with
  | nil => simp
  | cons sme l ih => simp [ih, smes_enter]

/-- Every index below the count has an entry. -/
def Filled (r : Registry) : Prop := Slots.Filled r.smeByIndex r.smeCount

theorem Filled.enter {r : Registry} (hr : r.Filled) (sme : Address) : (r.enter sme).Filled :=
  hr.push sme

theorem Filled.foldl_enter {r : Registry} (hr : r.Filled) (l : List Address) :
    (l.foldl Registry.enter r).Filled := by
  induction l generalizing r with
  | nil => exact hr
  | cons sme l ih => exact ih (hr.enter sme)

end Registry

/-- The state with more SMEs in the registry. -/
def State.entering (s : State) (l : List Address) : State :=
  { s with toRegistry := l.foldl Registry.enter s.toRegistry }

section Guards

variable {signers : List Address} {s s' : State} {sme : Address} {u : Unit}

@[simp]
theorem requireAuth_eq_ok {a : Address} : requireAuth signers a = .ok u ↔ a ∈ signers :=
  require_eq_ok _ _ _

@[simp]
theorem State.register_eq_ok :
    s.register sme = .ok s' ↔ s.smeCount + 1 < 2 ^ 32 ∧ s' = s.entering [sme] := by
  simp only [State.register, bind_eq_ok, okOr_eq_ok, fitU_eq_some, pure_eq_ok]
  constructor
  · rintro ⟨_, ⟨rfl, hfit⟩, rfl⟩
    exact ⟨hfit, rfl⟩
  · rintro ⟨hfit, rfl⟩
    exact ⟨_, ⟨rfl, hfit⟩, rfl⟩

theorem State.getOrCreateCreditData_eq_ok {data : CreditScoreData} :
    s.getOrCreateCreditData sme = .ok (s', data) ↔
      (s.creditScore sme = some data ∧ s' = s) ∨
        (s.creditScore sme = none ∧ s.smeCount + 1 < 2 ^ 32 ∧ s' = s.entering [sme] ∧
          data = s.freshData sme) := by
  unfold State.getOrCreateCreditData
  cases hdata : s.creditScore sme with
  | some d =>
    simp only [pure_eq_ok, Prod.mk.injEq, Option.some.injEq, reduceCtorEq, false_and, or_false]
    constructor
    · rintro ⟨rfl, rfl⟩
      exact ⟨rfl, rfl⟩
    · rintro ⟨rfl, rfl⟩
      exact ⟨rfl, rfl⟩
  | none =>
    simp only [bind_eq_ok, State.register_eq_ok, pure_eq_ok, Prod.mk.injEq, reduceCtorEq,
      false_and, true_and, false_or]
    constructor
    · rintro ⟨t, ⟨hfit, rfl⟩, rfl, rfl⟩
      exact ⟨hfit, rfl, rfl⟩
    · rintro ⟨hfit, rfl, rfl⟩
      exact ⟨_, ⟨hfit, rfl⟩, rfl, rfl⟩

end Guards

/-- The SMEs that a read of this one enters. -/
def State.missing (s : State) (sme : Address) : List Address :=
  if (s.creditScore sme).isSome then [] else [sme]

theorem State.mem_missing {s : State} {sme sme' : Address} :
    sme' ∈ s.missing sme ↔ sme' = sme ∧ s.creditScore sme = none := by
  unfold State.missing
  cases s.creditScore sme <;> simp

theorem State.getOrCreateCreditData_state {s s' : State} {sme : Address} {data : CreditScoreData}
    (hget : s.getOrCreateCreditData sme = .ok (s', data)) : s' = s.entering (s.missing sme) := by
  unfold State.missing
  rcases State.getOrCreateCreditData_eq_ok.1 hget with ⟨hsome, rfl⟩ | ⟨hnone, -, rfl, -⟩
  · simp [hsome, State.entering]
  · simp [hnone]

/-- Attestations were read: some of them may have been marked as expired. -/
def Loads (s s' : State) : Prop := ∃ attestation, s' = { s with attestation := attestation }

section Loads

variable {s s' s₁ : State}

theorem Loads.refl (s : State) : Loads s s := ⟨s.attestation, rfl⟩

theorem Loads.trans (h₁ : Loads s s₁) (h₂ : Loads s₁ s') : Loads s s' := by
  obtain ⟨_, rfl⟩ := h₁
  obtain ⟨attestation, rfl⟩ := h₂
  exact ⟨attestation, rfl⟩

theorem loads_loadAttestation (s : State) (id : ℕ) : Loads s (s.loadAttestation id).1 := by
  unfold State.loadAttestation State.maybeExpireAttestation
  split
  · exact Loads.refl s
  · dsimp only
    split_ifs
    · exact Loads.refl s
    · exact Loads.refl s
    · exact ⟨_, rfl⟩

theorem loads_collectSignal (x : State × List (ℕ × ℕ)) (id : ℕ) :
    Loads x.1 (State.collectSignal x id).1 := by
  have hload := loads_loadAttestation x.1 id
  unfold State.collectSignal
  split
  · rename_i heq
    rw [heq] at hload
    exact hload
  · rename_i heq
    rw [heq] at hload
    split_ifs
    · split <;> exact hload
    · exact hload

theorem loads_collect (s : State) (sme : Address) :
    Loads s (s.collectActiveAttestationSignals sme).1 := by
  unfold State.collectActiveAttestationSignals
  apply List.foldlRecOn (motive := fun x : State × List (ℕ × ℕ) => Loads s x.1)
  · exact Loads.refl s
  · intro x hx id _
    exact hx.trans (loads_collectSignal x id)

theorem loads_listSmeAttestations (s : State) (sme : Address) :
    Loads s (listSmeAttestations s sme).1 := by
  unfold listSmeAttestations
  apply List.foldlRecOn (motive := fun x : State × List Attestation => Loads s x.1)
  · exact Loads.refl s
  · intro x hx id _
    exact hx.trans (loads_loadAttestation x.1 id)

end Loads

/-! ## Calls that leave the ledger -/

/-- SMEs without a record may have entered the registry, and the signals may have changed. -/
def Quiet (s s' : State) : Prop :=
  ∃ l signals, (∀ sme ∈ l, s.creditScore sme = none) ∧
    s' = { s.entering l with toSignals := signals }

section Quiet

variable {signers : List Address} {s s' s₁ : State} {sme : Address}

theorem Quiet.signals (signals : Signals) : Quiet s { s with toSignals := signals } :=
  ⟨[], signals, by simp, rfl⟩

theorem Quiet.refl (s : State) : Quiet s s := Quiet.signals s.toSignals

theorem Quiet.trans (h₁ : Quiet s s₁) (h₂ : Quiet s₁ s') : Quiet s s' := by
  obtain ⟨l₁, signals₁, hnone₁, rfl⟩ := h₁
  obtain ⟨l₂, signals₂, hnone₂, rfl⟩ := h₂
  refine ⟨l₁ ++ l₂, signals₂, ?_, ?_⟩
  · intro sme hsme
    rcases List.mem_append.1 hsme with hmem | hmem
    · exact hnone₁ sme hmem
    · exact hnone₂ sme hmem
  · simp [State.entering]

theorem Loads.quiet (h : Loads s s') : Quiet s s' := by
  obtain ⟨_, rfl⟩ := h
  exact Quiet.signals _

theorem quiet_getOrCreateCreditData {data : CreditScoreData}
    (hget : s.getOrCreateCreditData sme = .ok (s', data)) : Quiet s s' := by
  rw [State.getOrCreateCreditData_state hget]
  exact ⟨s.missing sme, s.toSignals, fun _ hsme => (State.mem_missing.1 hsme).1 ▸
    (State.mem_missing.1 hsme).2, rfl⟩

theorem quiet_loadAttestation (s : State) (id : ℕ) : Quiet s (s.loadAttestation id).1 :=
  (loads_loadAttestation s id).quiet

theorem quiet_collect (s : State) (sme : Address) :
    Quiet s (s.collectActiveAttestationSignals sme).1 :=
  (loads_collect s sme).quiet

theorem quiet_getCreditScore {response : CreditScoreResponse}
    (hget : getCreditScore s sme = .ok (s', response)) : Quiet s s' := by
  simp only [getCreditScore, State.computeBlendedScore, bind_eq_ok, pure_eq_ok, Prod.exists,
    Prod.mk.injEq] at hget
  obtain ⟨s₁, data, hdata, s₂, blended, ⟨_, -, _, -, rfl, rfl⟩, _, -, _, -, rfl, -⟩ := hget
  exact (quiet_getOrCreateCreditData hdata).trans (quiet_collect s₁ sme)

theorem quiet_listEntry {x x' : State × List SmeScoreEntry} {i : ℕ}
    (hx : listEntry x i = .ok x') : Quiet x.1 x'.1 := by
  unfold listEntry at hx
  split at hx
  · obtain rfl := (pure_eq_ok _ _).1 hx
    exact Quiet.refl _
  · simp only [bind_eq_ok, pure_eq_ok, Prod.exists] at hx
    obtain ⟨t, data, hdata, rfl⟩ := hx
    exact quiet_getOrCreateCreditData hdata

theorem quiet_listAllSmeStats {page pageSize : ℕ} {entries : List SmeScoreEntry}
    (hlist : listAllSmeStats s page pageSize = .ok (s', entries)) : Quiet s s' := by
  simp only [listAllSmeStats, bind_eq_ok] at hlist
  obtain ⟨start, -, hlist⟩ := hlist
  split_ifs at hlist
  · obtain ⟨rfl, -⟩ := Prod.mk.inj ((pure_eq_ok _ _).1 hlist)
    exact Quiet.refl s
  · simp only [bind_eq_ok] at hlist
    obtain ⟨last, -, hlist⟩ := hlist
    exact foldlM_invariant (P := fun x : State × List SmeScoreEntry => Quiet s x.1)
      (fun _ _ _ _ hq hx => hq.trans (quiet_listEntry hx)) (Quiet.refl s) hlist

theorem quiet_simulate {hypothetical : List (ℕ × ℕ)} {result : ℕ}
    (hsim : simulateScoreWithAttestations s sme hypothetical = .ok (s', result)) : Quiet s s' := by
  unfold simulateScoreWithAttestations at hsim
  dsimp only at hsim
  split at hsim
  · obtain ⟨rfl, -⟩ := Prod.mk.inj ((pure_eq_ok _ _).1 hsim)
    exact Quiet.refl s
  · simp only [bind_eq_ok, pure_eq_ok, Prod.exists, Prod.mk.injEq] at hsim
    obtain ⟨s₁, data, hdata, _, -, _, -, rfl, -⟩ := hsim
    exact ((quiet_getOrCreateCreditData hdata).trans (quiet_collect s₁ sme)).trans
      (Quiet.signals _)

theorem quiet_listSmeAttestations (s : State) (sme : Address) :
    Quiet s (listSmeAttestations s sme).1 :=
  (loads_listSmeAttestations s sme).quiet

end Quiet

/-- The record that a call of the pool makes of an invoice. -/
def Call.record (s : State) : Call → Option PaymentRecord
  | .recordPayment invoiceId sme amount dueDate paidAt =>
    (paymentRecord invoiceId sme amount dueDate paidAt).toOption
  | .recordDefault invoiceId sme amount dueDate =>
    some (s.defaultRecord invoiceId sme amount dueDate)
  | _ => none

theorem paymentRecord_keys {invoiceId : ℕ} {sme : Address} {amount : ℤ} {dueDate paidAt : ℕ}
    {record : PaymentRecord} (hrecord : paymentRecord invoiceId sme amount dueDate paidAt = .ok record) :
    record.sme = sme ∧ record.invoiceId = invoiceId := by
  simp only [paymentRecord, bind_eq_ok, pure_eq_ok] at hrecord
  obtain ⟨_, -, rfl⟩ := hrecord
  exact ⟨rfl, rfl⟩

/-- A record was committed: the SME has a record, and entered the registry if it had none. -/
structure Committed (s : State) (record : PaymentRecord) (s' : State) : Prop where
  fresh : s.invoiceProcessed record.invoiceId = false
  data : ∃ data, s'.creditScore = Function.update s.creditScore record.sme (some data)
  history : s'.history = Function.update s.history record.sme
    ((s.history record.sme).push s.config.maxPaymentHistory record)
  registry : s'.toRegistry = (s.entering (s.missing record.sme)).toRegistry
  config : s'.config = s.config

/-- A funding was noted: as for a record, but the payment history stays. -/
structure Noted (s : State) (sme : Address) (s' : State) : Prop where
  data : ∃ data, s'.creditScore = Function.update s.creditScore sme (some data)
  history : s'.history = s.history
  registry : s'.toRegistry = (s.entering (s.missing sme)).toRegistry
  config : s'.config = s.config

section Pool

variable {signers : List Address} {s s' : State} {sme : Address}

theorem committed_of_commit {record : PaymentRecord} {data : CreditScoreData}
    (hfresh : s.invoiceProcessed record.invoiceId = false)
    (hcommit : commitPaymentRecord s record.sme record.invoiceId record = .ok (s', data)) :
    Committed s record s' := by
  simp only [commitPaymentRecord, bind_eq_ok, Prod.exists, pure_eq_ok, Prod.mk.injEq] at hcommit
  obtain ⟨s₁, old, hget, milestoneCount, -, newData, -, rfl, -⟩ := hcommit
  obtain rfl := State.getOrCreateCreditData_state hget
  exact ⟨hfresh, ⟨_, rfl⟩, rfl, rfl, rfl⟩

theorem noted_of_recordFunding {invoiceId : ℕ} {amount : ℤ}
    (hx : recordFunding signers s invoiceId sme amount = .ok s') :
    (s.invoiceProcessed invoiceId = false ∧ Noted s sme s') ∨ s' = s := by
  simp only [recordFunding, bind_eq_ok, exists_unit] at hx
  obtain ⟨-, hx⟩ := hx
  split_ifs at hx with hprocessed
  · exact .inr ((pure_eq_ok _ _).1 hx).symm
  · simp only [bind_eq_ok, Prod.exists, pure_eq_ok] at hx
    obtain ⟨s₁, data, hget, rfl⟩ := hx
    obtain rfl := State.getOrCreateCreditData_state hget
    exact .inl ⟨by simpa using hprocessed, ⟨_, rfl⟩, rfl, rfl, rfl⟩

end Pool

/-- What a call can do: it sets something, time passes, a record is committed, a funding is noted,
or the ledger stays as it is. -/
inductive Effect (s : State) (tx : Tx) (s' : State) : Prop
  | set {setting : Setting} {config : Config} (hcall : tx.call = .set setting)
      (hset : applySetting tx.signers s setting = .ok config) (hstate : s' = { s with config := config })
  | advance {now : ℕ} (hcall : tx.call = .advance now) (hle : s.now ≤ now) (hfit : now < 2 ^ 64)
      (hstate : s' = { s with now := now })
  | committed {record : PaymentRecord} (hrecord : tx.call.record s = some record)
      (hcommitted : Committed s record s')
  | noted {invoiceId : ℕ} {sme : Address} {amount : ℤ}
      (hcall : tx.call = .recordFunding invoiceId sme amount)
      (hfresh : s.invoiceProcessed invoiceId = false) (hnoted : Noted s sme s')
  | quiet (hrecord : tx.call.record s = none) (hquiet : Quiet s s')

theorem exec_effect {s s' : State} {tx : Tx} (hx : exec s tx = .ok s') : Effect s tx s' := by
  obtain ⟨signers, call⟩ := tx
  cases call with
  | recordPayment invoiceId sme amount dueDate paidAt =>
    simp only [exec, recordPayment, bind_eq_ok, exists_unit, require_eq_ok, Prod.exists,
      pure_eq_ok] at hx
    obtain ⟨-, hfresh, record, hrecord, t, data, hcommit, rfl⟩ := hx
    obtain ⟨rfl, rfl⟩ := paymentRecord_keys hrecord
    exact .committed (toOption_eq_some.2 hrecord) (committed_of_commit hfresh hcommit)
  | recordDefault invoiceId sme amount dueDate =>
    simp only [exec, recordDefault, bind_eq_ok, exists_unit, require_eq_ok, Prod.exists,
      pure_eq_ok] at hx
    obtain ⟨-, hfresh, t, data, hcommit, rfl⟩ := hx
    exact .committed rfl (committed_of_commit hfresh hcommit)
  | recordFunding invoiceId sme amount =>
    rcases noted_of_recordFunding hx with ⟨hfresh, hnoted⟩ | rfl
    · exact .noted rfl hfresh hnoted
    · exact .quiet rfl (Quiet.refl _)
  | getCreditScore sme =>
    obtain ⟨⟨t, response⟩, hrun, rfl⟩ := (map_eq_ok _ _ _).1 hx
    exact .quiet rfl (quiet_getCreditScore hrun)
  | listAllSmeStats page pageSize =>
    obtain ⟨⟨t, entries⟩, hrun, rfl⟩ := (map_eq_ok _ _ _).1 hx
    exact .quiet rfl (quiet_listAllSmeStats hrun)
  | simulateScoreWithAttestations sme hypothetical =>
    obtain ⟨⟨t, result⟩, hrun, rfl⟩ := (map_eq_ok _ _ _).1 hx
    exact .quiet rfl (quiet_simulate hrun)
  | getAttestation id =>
    obtain rfl := Except.ok.inj hx
    exact .quiet rfl (quiet_loadAttestation s id)
  | listSmeAttestations sme =>
    obtain rfl := Except.ok.inj hx
    exact .quiet rfl (quiet_listSmeAttestations s sme)
  | registerAttestor admin address attestorType weightBps =>
    simp only [exec, registerAttestor, bind_eq_ok, exists_unit, pure_eq_ok] at hx
    obtain ⟨-, -, -, -, rfl⟩ := hx
    exact .quiet rfl (Quiet.signals _)
  | registerAttestorViaAc accessControl address attestorType weightBps =>
    simp only [exec, registerAttestorViaAc, bind_eq_ok, exists_unit, pure_eq_ok] at hx
    obtain ⟨-, -, -, -, _, -, rfl⟩ := hx
    exact .quiet rfl (Quiet.signals _)
  | deactivateAttestor admin address =>
    simp only [exec, deactivateAttestor, bind_eq_ok, exists_unit, pure_eq_ok] at hx
    obtain ⟨-, -, -, _, -, rfl⟩ := hx
    exact .quiet rfl (Quiet.signals _)
  | submitAttestation attestor sme attestationType scoreContribution evidenceHash expiresAt =>
    obtain ⟨⟨t, id⟩, hrun, rfl⟩ := (map_eq_ok _ _ _).1 hx
    simp only [submitAttestation, bind_eq_ok, exists_unit, pure_eq_ok, Prod.mk.injEq] at hrun
    obtain ⟨-, -, _, -, -, -, -, _, -, -, _, -, rfl, -⟩ := hrun
    exact .quiet rfl (Quiet.signals _)
  | disputeAttestation caller attestationId reasonHash =>
    simp only [exec, disputeAttestation, bind_eq_ok, exists_unit, pure_eq_ok] at hx
    obtain ⟨-, -, a, -, -, -, rfl⟩ := hx
    exact .quiet rfl ((quiet_loadAttestation s attestationId).trans (Quiet.signals _))
  | resolveAttestationDispute admin attestationId upheld =>
    simp only [exec, resolveAttestationDispute, bind_eq_ok, exists_unit, pure_eq_ok] at hx
    obtain ⟨-, -, -, a, -, -, rfl⟩ := hx
    exact .quiet rfl ((quiet_loadAttestation s attestationId).trans (Quiet.signals _))
  | submitRiskSignal admin sme debtorConcentrationBps invoiceSizeRiskBps =>
    simp only [exec, submitRiskSignal, bind_eq_ok, exists_unit, pure_eq_ok] at hx
    obtain ⟨-, -, -, -, rfl⟩ := hx
    exact .quiet rfl (Quiet.signals _)
  | set setting =>
    obtain ⟨config, hset, rfl⟩ := (map_eq_ok _ _ _).1 hx
    exact .set rfl hset rfl
  | advance now =>
    simp only [exec, advance, bind_eq_ok, exists_unit, require_eq_ok, pure_eq_ok] at hx
    exact .advance rfl hx.1.1 hx.1.2 hx.2.symm

end Astera.CreditScore
