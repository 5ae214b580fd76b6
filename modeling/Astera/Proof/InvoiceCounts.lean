import Astera.CreditScore.Bookings

/-!
# How often an invoice counts

The mark of a processed invoice keeps payments and defaults from being counted twice, so the
counters of an SME are right in every run.  `record_funding` looks at the mark and does not set it,
and a payment does not look for an earlier funding, so that the amount of an invoice enters the
volume with every funding report and once more with the payment.  The volume counts every invoice
once when each invoice is reported only once.
-/

namespace Astera.CreditScore

open Fallible Machine Transition

/-! ## The reports -/

structure Notice where
  invoiceId : ℕ
  sme : Address
  amount : ℤ
  /-- Whether the invoice was paid or defaulted, rather than funded. -/
  outcome : Bool
  deriving DecidableEq, Repr

/-- The report that a successful call books. -/
def Call.notice (s : State) : Call → Option Notice
  | .recordFunding invoiceId sme amount =>
    if s.invoiceProcessed invoiceId then none else some ⟨invoiceId, sme, amount, false⟩
  | call => (call.record s).map fun record => ⟨record.invoiceId, record.sme, record.amount, true⟩

def noticesAfter (s : State) (tx : Tx) (_ : State) (notices : List Notice) : List Notice :=
  notices ++ (tx.call.notice s).toList

def noting : State × List Notice → Tx → Res (State × List Notice) := track exec noticesAfter

def noticesOf (sme : Address) (notices : List Notice) : List Notice :=
  notices.filter fun n => n.sme = sme

/-- The invoices of an SME that were paid or defaulted. -/
def processedIds (sme : Address) (notices : List Notice) : List ℕ :=
  ((noticesOf sme notices).filter fun n => n.outcome).map (·.invoiceId)

/-- The sum of the reported amounts, as the contract adds them. -/
def volumeOf (notices : List Notice) : ℤ := (notices.map (·.amount)).foldl saturatingAdd 0

def ReportsOnce (s : State) (notices : List Notice) (tx : Tx) : Prop :=
  ∀ new ∈ tx.call.notice s, ∀ n ∈ notices, n.invoiceId ≠ new.invoiceId

instance (s : State) (notices : List Notice) (tx : Tx) : Decidable (ReportsOnce s notices tx) :=
  inferInstanceAs (Decidable (∀ new ∈ tx.call.notice s, _))

/-- The data of an SME agrees with its reports. -/
structure Tally (data : CreditScoreData) (notices : List Notice) : Prop where
  outcomes : data.paidOnTime + data.paidLate + data.defaulted = data.totalInvoices
  total : data.totalInvoices = (notices.filter fun n => n.outcome).length
  volume : data.totalVolume = volumeOf notices

section Tally

variable {s s' : State} {sme : Address} {old new : CreditScoreData} {notices : List Notice}
  {n : Notice}

theorem volumeOf_append (notices : List Notice) (n : Notice) :
    volumeOf (notices ++ [n]) = saturatingAdd (volumeOf notices) n.amount := by
  unfold volumeOf
  rw [List.map_append, List.foldl_append]
  rfl

theorem Tally.outcome {record : PaymentRecord} (h : Tally old notices)
    (hadds : old.Adds record new) (houtcome : n.outcome = true) (hamount : n.amount = record.amount) :
    Tally new (notices ++ [n]) := by
  constructor
  · rw [hadds.outcomes, hadds.total, h.outcomes]
  · rw [hadds.total, h.total, List.filter_append, List.length_append]
    simp [houtcome]
  · rw [volumeOf_append, ← h.volume, hamount, hadds.volume]
    exact (saturatingAdd_eq _ _ hadds.fits).symm

theorem Tally.funding (h : Tally old notices) (houtcome : n.outcome = false) (now : ℕ) :
    Tally { old with totalVolume := saturatingAdd old.totalVolume n.amount, lastUpdated := now }
      (notices ++ [n]) := by
  constructor
  · exact h.outcomes
  · rw [List.filter_append, List.length_append, ← h.total]
    simp [houtcome]
  · rw [volumeOf_append, ← h.volume]

theorem Tally.of_eq (h : Tally (s.dataOf sme) notices)
    (hscore : s'.creditScore sme = s.creditScore sme) : Tally (s'.dataOf sme) notices := by
  unfold State.dataOf at h ⊢
  rw [hscore]
  cases hdata : s.creditScore sme with
  | some data =>
    rw [hdata] at h
    exact h
  | none =>
    rw [hdata] at h
    exact ⟨h.outcomes, h.total, h.volume⟩

end Tally

/-! ## One call -/

/-- The invariant: an invoice that was paid or defaulted is marked and was reported so once, and the
data of every SME agrees with its reports. -/
structure Counted (s : State) (notices : List Notice) : Prop where
  marked : ∀ n ∈ notices, n.outcome = true → s.invoiceProcessed n.invoiceId = true
  once : ((notices.filter fun n => n.outcome).map (·.invoiceId)).Nodup
  tally : ∀ sme, Tally (s.dataOf sme) (noticesOf sme notices)

section Steps

variable {s s' : State} {tx : Tx} {notices : List Notice}

theorem Call.notice_of_record {call : Call} {record : PaymentRecord}
    (h : call.record s = some record) :
    call.notice s = some ⟨record.invoiceId, record.sme, record.amount, true⟩ := by
  cases call with
  | recordFunding => cases h
  | _ => simp only [Call.notice, h, Option.map_some]

theorem noticesOf_append_self (notices : List Notice) (n : Notice) :
    noticesOf n.sme (notices ++ [n]) = noticesOf n.sme notices ++ [n] := by
  simp [noticesOf]

theorem noticesOf_append_of_ne {sme : Address} {n : Notice} (notices : List Notice)
    (h : sme ≠ n.sme) : noticesOf sme (notices ++ [n]) = noticesOf sme notices := by
  simp [noticesOf, h.symm]

theorem State.dataOf_of_update {sme : Address} {data : CreditScoreData}
    (h : s'.creditScore = Function.update s.creditScore sme (some data)) :
    s'.dataOf sme = data := by
  unfold State.dataOf
  rw [h, Function.update_self]
  rfl

theorem Counted.tally_append (hs : Counted s notices) {n : Notice} {data : CreditScoreData}
    (hscore : s'.creditScore = Function.update s.creditScore n.sme (some data))
    (hnew : Tally data (noticesOf n.sme notices ++ [n])) (sme : Address) :
    Tally (s'.dataOf sme) (noticesOf sme (notices ++ [n])) := by
  by_cases hsme : sme = n.sme
  · subst hsme
    rw [State.dataOf_of_update hscore, noticesOf_append_self]
    exact hnew
  · rw [noticesOf_append_of_ne notices hsme]
    apply (hs.tally sme).of_eq
    rw [hscore, Function.update_of_ne hsme]

theorem Counted.outcome (hs : Counted s notices) {record : PaymentRecord} {data : CreditScoreData}
    (hfresh : s.invoiceProcessed record.invoiceId = false)
    (hadds : (s.dataOf record.sme).Adds record data)
    (hscore : s'.creditScore = Function.update s.creditScore record.sme (some data))
    (hprocessed : s'.invoiceProcessed = Function.update s.invoiceProcessed record.invoiceId true) :
    Counted s' (notices ++ [⟨record.invoiceId, record.sme, record.amount, true⟩]) := by
  constructor
  · intro n hn houtcome
    rw [hprocessed]
    by_cases hid : n.invoiceId = record.invoiceId
    · rw [hid, Function.update_self]
    · rw [Function.update_of_ne hid]
      rcases List.mem_append.1 hn with hold | hnew
      · exact hs.marked n hold houtcome
      · rw [List.mem_singleton] at hnew
        exact absurd (congrArg Notice.invoiceId hnew) hid
  · -- The invoice was not marked, so no earlier report processed it.
    have hnot : record.invoiceId ∉ (notices.filter fun n => n.outcome).map (·.invoiceId) := by
      intro hmem
      obtain ⟨n, hn, hid⟩ := List.mem_map.1 hmem
      obtain ⟨hn, houtcome⟩ := List.mem_filter.1 hn
      have hmarked := hs.marked n hn houtcome
      rw [hid, hfresh] at hmarked
      cases hmarked
    rw [List.filter_append, List.map_append]
    simpa using List.Nodup.concat hnot hs.once
  · exact hs.tally_append hscore ((hs.tally record.sme).outcome hadds rfl rfl)

theorem Counted.funding (hs : Counted s notices) {invoiceId : ℕ} {sme : Address} {amount : ℤ}
    (hscore : s'.creditScore = Function.update s.creditScore sme
      (some { s.dataOf sme with
        totalVolume := saturatingAdd (s.dataOf sme).totalVolume amount
        lastUpdated := s.now }))
    (hprocessed : s'.invoiceProcessed = s.invoiceProcessed) :
    Counted s' (notices ++ [⟨invoiceId, sme, amount, false⟩]) := by
  constructor
  · intro n hn houtcome
    rw [hprocessed]
    rcases List.mem_append.1 hn with hold | hnew
    · exact hs.marked n hold houtcome
    · rw [List.mem_singleton] at hnew
      rw [hnew] at houtcome
      cases houtcome
  · rw [List.filter_append, List.map_append]
    simpa using hs.once
  · apply hs.tally_append hscore
    exact (hs.tally sme).funding (n := ⟨invoiceId, sme, amount, false⟩) rfl s.now

theorem Counted.step (hs : Counted s notices) (hx : exec s tx = .ok s') :
    Counted s' (noticesAfter s tx s' notices) := by
  unfold noticesAfter
  cases exec_booking hx with
  | outcome hrecord hfresh hadds hscore hprocessed =>
    rw [Call.notice_of_record hrecord]
    exact hs.outcome hfresh hadds hscore hprocessed
  | funding hcall hfresh hscore hprocessed =>
    rw [hcall, Call.notice, hfresh]
    exact hs.funding hscore hprocessed
  | ignored hcall hdone hstate =>
    rw [hcall, Call.notice, hdone, hstate]
    simpa using hs
  | none hrecord hcall hscore hprocessed =>
    have hnone : tx.call.notice s = Option.none := by
      cases hc : tx.call with
      | recordFunding invoiceId sme amount => exact absurd hc (hcall invoiceId sme amount)
      | _ =>
        rw [hc] at hrecord
        simp only [Call.notice, hrecord, Option.map_none]
    rw [hnone, Option.toList_none, List.append_nil]
    constructor
    · rw [hprocessed]
      exact hs.marked
    · exact hs.once
    · intro sme
      exact (hs.tally sme).of_eq (congrFun hscore sme)

theorem ReportsOnce.nodup (honce : ReportsOnce s notices tx)
    (hnodup : (notices.map (·.invoiceId)).Nodup) :
    ((noticesAfter s tx s' notices).map (·.invoiceId)).Nodup := by
  unfold noticesAfter
  cases hnotice : tx.call.notice s with
  | none => simpa using hnodup
  | some new =>
    have hnot : new.invoiceId ∉ notices.map (·.invoiceId) := by
      intro hmem
      obtain ⟨n, hn, hid⟩ := List.mem_map.1 hmem
      exact honce new hnotice n hn hid
    rw [Option.toList_some, List.map_append]
    simpa using List.Nodup.concat hnot hnodup

theorem ReportsOnce.recordFunding_again {signers : List Address} {invoiceId : ℕ} {sme : Address}
    {amount : ℤ} (honce : ReportsOnce s notices ⟨signers, .recordFunding invoiceId sme amount⟩)
    (hbefore : ∃ n ∈ notices, n.invoiceId = invoiceId)
    (hx : exec s ⟨signers, .recordFunding invoiceId sme amount⟩ = .ok s') : s' = s := by
  obtain ⟨n, hn, hid⟩ := hbefore
  cases recordFunding_books hx with
  | outcome hrecord => cases hrecord
  | funding hcall hfresh =>
    obtain ⟨rfl, rfl, rfl⟩ := Call.recordFunding.inj hcall
    refine absurd hid (honce ⟨invoiceId, sme, amount, false⟩ ?_ n hn)
    simp [Call.notice, hfresh]
  | ignored hcall hdone hstate => exact hstate
  | none hrecord hcall => exact absurd rfl (hcall invoiceId sme amount)

end Steps

theorem counted_initial (now : ℕ) (admin invoiceContract poolContract : Address) :
    Counted (initialState now admin invoiceContract poolContract) [] := by
  constructor
  · intro n hn
    cases hn
  · exact List.nodup_nil
  · intro sme
    exact ⟨rfl, rfl, rfl⟩

theorem Counted.card_processedIds {s : State} {notices : List Notice} {sme : Address}
    {data : CreditScoreData} (hs : Counted s notices) (hdata : s.creditScore sme = some data) :
    data.paidOnTime + data.paidLate + data.defaulted = data.totalInvoices ∧
      data.totalInvoices = (processedIds sme notices).toFinset.card := by
  have htally := hs.tally sme
  unfold State.dataOf at htally
  rw [hdata] at htally
  refine ⟨htally.outcomes, ?_⟩
  have hsub : ((noticesOf sme notices).filter fun n => n.outcome).Sublist
      (notices.filter fun n => n.outcome) := List.filter_sublist.filter _
  have hnodup : (processedIds sme notices).Nodup := (hsub.map _).nodup hs.once
  rw [List.toFinset_card_of_nodup hnodup, processedIds, List.length_map]
  exact htally.total

/-- In every run the counters of an SME add up to the number of its processed invoices.  In a run in
which no invoice is booked twice, the volume is the sum of one report of every invoice, and a funding
that is reported again changes nothing. -/
theorem invoices_count_once (now : ℕ) (admin invoiceContract poolContract : Address) :
    (∀ s notices, Reaches noting (fun _ _ => True)
        (initialState now admin invoiceContract poolContract, []) (s, notices) →
      ∀ sme data, s.creditScore sme = some data →
        data.paidOnTime + data.paidLate + data.defaulted = data.totalInvoices ∧
          data.totalInvoices = (processedIds sme notices).toFinset.card) ∧
    (∀ s notices, Reaches noting (fun x tx => ReportsOnce x.1 x.2 tx)
        (initialState now admin invoiceContract poolContract, []) (s, notices) →
      (notices.map (·.invoiceId)).Nodup ∧
      (∀ sme data, s.creditScore sme = some data →
        data.totalVolume = volumeOf (noticesOf sme notices)) ∧
      ∀ signers invoiceId sme amount s', (∃ n ∈ notices, n.invoiceId = invoiceId) →
        ReportsOnce s notices ⟨signers, .recordFunding invoiceId sme amount⟩ →
        exec s ⟨signers, .recordFunding invoiceId sme amount⟩ = .ok s' → s' = s) := by
  constructor
  · intro s notices hrun sme data hdata
    have hcounted : Counted s notices := by
      apply hrun.invariant (P := fun x => Counted x.1 x.2)
      · exact counted_initial now admin invoiceContract poolContract
      · intro x tx x' hx _ hstep
        obtain ⟨hexec, hnotices⟩ := (track_eq_ok _ _ _ _ _).1 hstep
        rw [hnotices]
        exact hx.step hexec
    exact hcounted.card_processedIds hdata
  · intro s notices hrun
    have hboth : Counted s notices ∧ (notices.map (·.invoiceId)).Nodup := by
      apply hrun.invariant (P := fun x => Counted x.1 x.2 ∧ (x.2.map (·.invoiceId)).Nodup)
      · exact ⟨counted_initial now admin invoiceContract poolContract, List.nodup_nil⟩
      · intro x tx x' hx honce hstep
        obtain ⟨hexec, hnotices⟩ := (track_eq_ok _ _ _ _ _).1 hstep
        rw [hnotices]
        exact ⟨hx.1.step hexec, honce.nodup hx.2⟩
    refine ⟨hboth.2, ?_, ?_⟩
    · intro sme data hdata
      have htally := hboth.1.tally sme
      unfold State.dataOf at htally
      rw [hdata] at htally
      exact htally.volume
    · intro signers invoiceId sme amount s' hbefore honce hx
      exact honce.recordFunding_again hbefore hx

/-- The pool reports that an invoice of account 3 was funded with 500. -/
def funding (invoiceId : ℕ) : Tx := ⟨[9], .recordFunding invoiceId 3 500⟩

/-- Invoice 7 is paid, its funding is reported late, and invoice 8 is funded. -/
def reportedOnce : List Tx := [payment 7, funding 7, funding 8]

theorem invoices_count_once_twoInvoices :
    ∃ s notices data, reportedOnce.foldlM noting (sampleState, []) = .ok (s, notices) ∧
      s.creditScore 3 = some data ∧
      data.paidOnTime + data.paidLate + data.defaulted = data.totalInvoices ∧
      data.totalInvoices = (processedIds 3 notices).toFinset.card ∧
      notices.map (·.invoiceId) = [7, 8] ∧ (notices.map (·.invoiceId)).Nodup ∧
      data.totalVolume = volumeOf (noticesOf 3 notices) ∧ volumeOf (noticesOf 3 notices) = 1000 ∧
      ∀ s', exec s (funding 7) = .ok s' → s' = s := by
  obtain ⟨⟨s, notices⟩, hs, hp⟩ := exists_of_check
    (x := reportedOnce.foldlM noting (sampleState, []))
    (p := fun x => decide ((x.1.creditScore 3).isSome = true ∧
      x.2.map (·.invoiceId) = [7, 8] ∧ volumeOf (noticesOf 3 x.2) = 1000 ∧
      ReportsOnce x.1 x.2 (funding 7))) (by decide)
  obtain ⟨hsome, hids, hvolume, honce⟩ := of_decide_eq_true hp
  obtain ⟨data, hdata⟩ := Option.isSome_iff_exists.1 hsome
  have hrun : Reaches noting (fun _ _ => True) (sampleState, []) (s, notices) :=
    reaches_of_along .refl (by decide) hs
  have hrun' : Reaches noting (fun x tx => ReportsOnce x.1 x.2 tx) (sampleState, [])
      (s, notices) := reaches_of_along .refl (by decide) hs
  obtain ⟨hcounters, hbooks⟩ := invoices_count_once 1000 1 2 9
  obtain ⟨houtcomes, htotal⟩ := hcounters s notices hrun 3 data hdata
  obtain ⟨hnodup, hsum, hagain⟩ := hbooks s notices hrun'
  refine ⟨s, notices, data, hs, hdata, houtcomes, htotal, hids, hnodup, hsum 3 data hdata, hvolume,
    fun s' hx => ?_⟩
  have hbefore : ∃ n ∈ notices, n.invoiceId = 7 := by
    rw [← List.mem_map, hids]
    decide
  exact hagain [9] 7 3 500 s' hbefore honce hx

/-- A funding that is reported again changes the state, and the amount of the one invoice enters the
volume with both reports and once more with the payment. -/
theorem funded_invoice_counts_again :
    ∃ s s' t data data', [funding 7].foldlM exec sampleState = .ok s ∧
      exec s (funding 7) = .ok s' ∧ s.creditScore 3 = some data ∧ data.totalVolume = 500 ∧
      s'.creditScore 3 = some data' ∧ data'.totalVolume = 1000 ∧ s' ≠ s ∧
      exec s' (payment 7) = .ok t ∧ (t.creditScore 3).map (·.totalVolume) = some 1500 := by
  obtain ⟨s, hs, hp⟩ := exists_of_check (x := [funding 7].foldlM exec sampleState)
    (p := fun s => decide (∃ data ∈ s.creditScore 3, data.totalVolume = 500 ∧
      check (exec s (funding 7)) (fun s' => decide (∃ data' ∈ s'.creditScore 3,
        data'.totalVolume = 1000 ∧ check (exec s' (payment 7)) (fun t =>
          decide ((t.creditScore 3).map (·.totalVolume) = some 1500)) = true)) = true))
    (by decide)
  obtain ⟨data, hdata, hvolume, hagain⟩ := of_decide_eq_true hp
  obtain ⟨s', hs', hp'⟩ := exists_of_check hagain
  obtain ⟨data', hdata', hvolume', hpaid⟩ := of_decide_eq_true hp'
  obtain ⟨t, ht, hlast⟩ := exists_of_check hpaid
  refine ⟨s, s', t, data, data', hs, hs', hdata, hvolume, hdata', hvolume', ?_, ht,
    of_decide_eq_true hlast⟩
  rintro rfl
  rw [hdata, Option.mem_some_iff] at hdata'
  rw [hdata', hvolume'] at hvolume
  exact absurd hvolume (by decide)

end Astera.CreditScore
