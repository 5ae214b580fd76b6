import Astera.CreditScore.System

/-!
# Payment histories

`set_max_payment_history` changes the modulus under which the slots of every ring buffer are read,
and leaves the slots where they are.  As long as no history has wrapped around or is longer than the
new limit, a history is a suffix of the records that ends with the newest one.
-/

namespace Astera.CreditScore

open Fallible Machine Transition RingBuffer

/-! ## The window as a list -/

namespace Window

variable {w : Window} {maxHistory : ℕ}

def contents (w : Window) : List PaymentRecord := (Slots.stored w.slots w.length).rotate w.start

/-- The slots are laid out for this limit: only a full window wraps around. -/
structure Fits (w : Window) (maxHistory : ℕ) : Prop where
  filled : Slots.Filled w.slots w.length
  layout : w.length < maxHistory ∧ w.start = 0 ∨ w.length = maxHistory ∧ w.start < maxHistory

theorem Fits.ring (hw : w.Fits maxHistory) :
    RingBuffer.Fits w.slots w.length w.start maxHistory := ⟨hw.filled, hw.layout⟩

theorem Fits.length_contents (hw : w.Fits maxHistory) : w.contents.length = w.length :=
  hw.ring.length_contents

theorem Fits.length_le (hw : w.Fits maxHistory) : w.length ≤ maxHistory := by
  rcases hw.layout with ⟨hlt, -⟩ | ⟨heq, -⟩
  · exact hlt.le
  · exact heq.le

theorem Fits.slots_mod (hw : w.Fits maxHistory) {i : ℕ} (hi : i < w.length) :
    w.slots ((w.start + i) % maxHistory) = w.contents[i]? :=
  hw.ring.slots_mod hi

theorem Fits.push (hw : w.Fits maxHistory) (record : PaymentRecord) :
    (w.push maxHistory record).Fits maxHistory ∧
      (w.push maxHistory record).contents =
        (if w.length < maxHistory then w.contents else w.contents.tail) ++ [record] := by
  unfold Window.push
  rcases hw.layout with ⟨hlt, -⟩ | ⟨heq, hstart⟩
  · simp only [if_pos hlt]
    obtain ⟨hring, hcontents⟩ := hw.ring.grow hlt record
    exact ⟨⟨hring.filled, hring.layout⟩, hcontents⟩
  · have hfull : ¬ w.length < maxHistory := by omega
    simp only [if_neg hfull]
    obtain ⟨hring, hcontents⟩ := hw.ring.wrap heq (by omega) record
    exact ⟨⟨hring.filled, hring.layout⟩, hcontents⟩

theorem Fits.resize (hw : w.Fits maxHistory) {m : ℕ} (hm : 0 < m) (hstart : w.start = 0)
    (hlength : w.length ≤ m) : w.Fits m := by
  refine ⟨hw.filled, ?_⟩
  omega

end Window

section Reading

variable {s : State} {sme : Address}

/-- What the two queries of the payment history return. -/
structure State.Reads (s : State) (sme : Address) (records : List PaymentRecord) : Prop where
  history : s.getPaymentHistory sme = .ok records
  record : ∀ i, s.getPaymentRecord sme i = .ok records[i]?

theorem State.slotAt_of_lt {offset : ℕ} (hfit : (s.history sme).start + offset < 2 ^ 32) :
    s.slotAt sme offset = .ok (((s.history sme).start + offset) % s.config.maxPaymentHistory) := by
  unfold State.slotAt fitU
  rw [if_pos hfit]
  rfl

theorem State.foldlM_slotAt {l : List ℕ} {records : List PaymentRecord}
    (hfit : ∀ offset ∈ l, (s.history sme).start + offset < 2 ^ 32) :
    l.foldlM (fun records offset => do
        let i ← s.slotAt sme offset
        return records ++ ((s.history sme).slots i).toList) records =
      .ok (records ++ l.filterMap fun offset =>
        (s.history sme).slots (((s.history sme).start + offset) % s.config.maxPaymentHistory)) := by
  induction l generalizing records with
  | nil =>
    rw [List.foldlM_nil, List.filterMap_nil, List.append_nil]
    rfl
  | cons offset l ih =>
    rw [List.foldlM_cons, bind_eq_ok]
    refine ⟨records ++ ((s.history sme).slots
      (((s.history sme).start + offset) % s.config.maxPaymentHistory)).toList, ?_, ?_⟩
    · rw [State.slotAt_of_lt (hfit offset (by simp))]
      rfl
    · rw [ih fun offset' hmem => hfit offset' (by simp [hmem])]
      cases hslot : (s.history sme).slots
        (((s.history sme).start + offset) % s.config.maxPaymentHistory) <;> simp [hslot]

/-- The queries read the contents of a window that is laid out for the limit, as long as the slot
numbers before the reduction fit into their type. -/
theorem State.reads_of_fits (hw : (s.history sme).Fits s.config.maxPaymentHistory)
    (hfit : (s.history sme).start + (s.history sme).length ≤ 2 ^ 32) :
    s.Reads sme (s.history sme).contents := by
  constructor
  · unfold State.getPaymentHistory
    rw [State.foldlM_slotAt, List.nil_append]
    · have hslots : (List.range (s.history sme).length).filterMap (fun offset =>
          (s.history sme).slots (((s.history sme).start + offset) % s.config.maxPaymentHistory)) =
          (List.range (s.history sme).length).filterMap fun i => (s.history sme).contents[i]? := by
        apply List.filterMap_congr
        intro i hi
        exact hw.slots_mod (List.mem_range.1 hi)
      rw [hslots, List.range_eq_range', Slots.filterMap_getElem?_range', List.drop_zero,
        List.take_of_length_le hw.length_contents.le]
    · intro offset hoffset
      have hlt := List.mem_range.1 hoffset
      omega
  · intro i
    unfold State.getPaymentRecord
    by_cases hi : (s.history sme).length ≤ i
    · rw [if_pos hi, List.getElem?_eq_none (hw.length_contents.le.trans hi)]
      rfl
    · rw [if_neg hi, bind_eq_ok]
      refine ⟨_, State.slotAt_of_lt (by omega), ?_⟩
      rw [hw.slots_mod (by omega)]
      rfl

end Reading

theorem applySetting_maxPaymentHistory {signers : List Address} {s : State} {setting : Setting}
    {config : Config} (hset : applySetting signers s setting = .ok config) :
    config.maxPaymentHistory = s.config.maxPaymentHistory ∨
      ∃ admin maxHistory, setting = .setMaxPaymentHistory admin maxHistory ∧
        0 < maxHistory.toNat ∧ config.maxPaymentHistory = maxHistory.toNat := by
  cases setting with
  | setMaxPaymentHistory admin maxHistory =>
    simp only [applySetting, setMaxPaymentHistory, bind_eq_ok, exists_unit, require_eq_ok,
      pure_eq_ok] at hset
    obtain ⟨-, -, -, hne, rfl⟩ := hset
    refine .inr ⟨admin, maxHistory, rfl, Nat.pos_of_ne_zero fun hzero => hne ?_, rfl⟩
    exact UInt32.toNat_inj.1 hzero
  | proposeAdminChange admin newAdmin =>
    simp only [applySetting, proposeAdminChange, bind_eq_ok, exists_unit, pure_eq_ok] at hset
    obtain ⟨-, -, -, _, -, rfl⟩ := hset
    exact .inl rfl
  | finalizeAdminChange admin =>
    simp only [applySetting, finalizeAdminChange, bind_eq_ok, exists_unit, pure_eq_ok] at hset
    obtain ⟨-, -, -, _, -, _, -, -, _, -, rfl⟩ := hset
    exact .inl rfl
  | setScoringConfig admin c =>
    simp only [applySetting, setScoringConfig, bind_eq_ok, exists_unit, pure_eq_ok] at hset
    obtain ⟨-, -, -, -, -, -, rfl⟩ := hset
    exact .inl rfl
  | pause | unpause | setPausedViaAc | setAccessControl | setAccessControlViaAc =>
    simp only [applySetting, pause, unpause, setPausedViaAc, setAccessControl,
      setAccessControlViaAc, bind_eq_ok, exists_unit, pure_eq_ok] at hset
    obtain ⟨-, -, rfl⟩ := hset
    exact .inl rfl
  | setInvoiceContract | setPoolContract | setLateThreshold | setLateThresholdViaAc =>
    simp only [applySetting, setInvoiceContract, setPoolContract, setLateThreshold,
      setLateThresholdViaAc, bind_eq_ok, exists_unit, pure_eq_ok] at hset
    obtain ⟨-, -, -, rfl⟩ := hset
    exact .inl rfl
  | setScoreThresholds | setScoreThresholdsViaAc | cancelAdminChange =>
    simp only [applySetting, setScoreThresholds, setScoreThresholdsViaAc, cancelAdminChange,
      bind_eq_ok, exists_unit, pure_eq_ok] at hset
    obtain ⟨-, -, -, -, rfl⟩ := hset
    exact .inl rfl

def Call.newLimit : Call → Option ℕ
  | .set (.setMaxPaymentHistory _ maxHistory) => some maxHistory.toNat
  | _ => none

/-- A new limit leaves the window of this SME readable: the limit is the old one, or the window has
not wrapped around and is not longer than the new limit. -/
def KeepsWindow (sme : Address) (s : State) (tx : Tx) : Prop :=
  ∀ m ∈ tx.call.newLimit, m = s.config.maxPaymentHistory ∨
    ((s.history sme).start = 0 ∧ (s.history sme).length ≤ m)

instance (sme : Address) (s : State) (tx : Tx) : Decidable (KeepsWindow sme s tx) :=
  inferInstanceAs (Decidable (∀ m ∈ tx.call.newLimit, _))

/-- The limit does not change once this SME has a record. -/
def KeepsLimit (sme : Address) (s : State) (tx : Tx) : Prop :=
  ∀ m ∈ tx.call.newLimit, m = s.config.maxPaymentHistory ∨ (s.history sme).length = 0

instance (sme : Address) (s : State) (tx : Tx) : Decidable (KeepsLimit sme s tx) :=
  inferInstanceAs (Decidable (∀ m ∈ tx.call.newLimit, _))

/-! ## The records of an SME -/

def recordedOf (sme : Address) (s : State) (tx : Tx) (_ : State) (records : List PaymentRecord) :
    List PaymentRecord :=
  records ++ ((tx.call.record s).filter fun record => record.sme = sme).toList

def recording (sme : Address) :
    State × List PaymentRecord → Tx → Res (State × List PaymentRecord) :=
  track exec (recordedOf sme)

inductive WindowStep (sme : Address) (s : State) (tx : Tx) (s' : State) : Prop
  | same (hrecords : ∀ records, recordedOf sme s tx s' records = records)
      (hhistory : s'.history sme = s.history sme)
      (hlimit : s'.config.maxPaymentHistory = s.config.maxPaymentHistory)
  | push {record : PaymentRecord}
      (hrecords : ∀ records, recordedOf sme s tx s' records = records ++ [record])
      (hhistory : s'.history sme = (s.history sme).push s.config.maxPaymentHistory record)
      (hlimit : s'.config.maxPaymentHistory = s.config.maxPaymentHistory)
  | resize {m : ℕ} (hcall : tx.call.newLimit = some m) (hpos : 0 < m)
      (hrecords : ∀ records, recordedOf sme s tx s' records = records)
      (hhistory : s'.history sme = s.history sme) (hlimit : s'.config.maxPaymentHistory = m)

theorem recordedOf_of_none {sme : Address} {s s' : State} {tx : Tx}
    (hrecord : tx.call.record s = none) (records : List PaymentRecord) :
    recordedOf sme s tx s' records = records := by
  unfold recordedOf
  rw [hrecord]
  exact List.append_nil records

theorem exec_windowStep {s s' : State} {tx : Tx} (hx : exec s tx = .ok s') (sme : Address) :
    WindowStep sme s tx s' := by
  cases exec_effect hx with
  | set hcall hset hstate =>
    subst hstate
    have hrecord : tx.call.record s = none := by rw [hcall]; rfl
    rcases applySetting_maxPaymentHistory hset with hsame | ⟨admin, m, rfl, hpos, hlimit⟩
    · exact .same (recordedOf_of_none hrecord) rfl hsame
    · exact .resize (by rw [hcall]; rfl) hpos (recordedOf_of_none hrecord) rfl hlimit
  | advance hcall hle hfit hstate =>
    subst hstate
    exact .same (recordedOf_of_none (by rw [hcall]; rfl)) rfl rfl
  | @committed record hrecord hcommitted =>
    have hlimit : s'.config.maxPaymentHistory = s.config.maxPaymentHistory := by
      rw [hcommitted.config]
    by_cases hsme : record.sme = sme
    · subst hsme
      have hrecords : ∀ records, recordedOf record.sme s tx s' records = records ++ [record] := by
        intro records
        simp [recordedOf, hrecord]
      refine .push hrecords ?_ hlimit
      rw [hcommitted.history, Function.update_self]
    · refine .same (fun records => ?_) ?_ hlimit
      · simp [recordedOf, hrecord, hsme]
      · rw [hcommitted.history, Function.update_of_ne (Ne.symm hsme)]
  | noted hcall hfresh hnoted =>
    refine .same (recordedOf_of_none (by rw [hcall]; rfl)) ?_ ?_
    · rw [hnoted.history]
    · rw [hnoted.config]
  | quiet hrecord hquiet =>
    obtain ⟨l, signals, -, rfl⟩ := hquiet
    exact .same (recordedOf_of_none hrecord) rfl rfl

/-- The invariant: the window holds the newest records of the SME. -/
structure Windowed (sme : Address) (s : State) (records : List PaymentRecord) : Prop where
  fits : (s.history sme).Fits s.config.maxPaymentHistory
  suffix : (s.history sme).contents <:+ records
  newest : records ≠ [] → (s.history sme).contents ≠ []

section Runs

variable {sme : Address} {s s' : State} {tx : Tx} {records : List PaymentRecord}

theorem Windowed.initial (sme : Address) (now : ℕ) (admin invoiceContract poolContract : Address) :
    Windowed sme (initialState now admin invoiceContract poolContract) [] := by
  refine ⟨⟨fun i hi => absurd hi (Nat.not_lt_zero i), .inl ⟨?_, rfl⟩⟩, List.suffix_rfl, by simp⟩
  show 0 < CreditScore.maxPaymentHistory
  decide

theorem Windowed.step (hs : Windowed sme s records) (hkeeps : KeepsWindow sme s tx)
    (hx : exec s tx = .ok s') : Windowed sme s' (recordedOf sme s tx s' records) := by
  cases exec_windowStep hx sme with
  | same hrecords hhistory hlimit =>
    rw [hrecords]
    constructor
    · rw [hhistory, hlimit]
      exact hs.fits
    · rw [hhistory]
      exact hs.suffix
    · rw [hhistory]
      exact hs.newest
  | push hrecords hhistory hlimit =>
    obtain ⟨hfits, hcontents⟩ := hs.fits.push _
    rw [hrecords]
    constructor
    · rw [hhistory, hlimit]
      exact hfits
    · rw [hhistory, hcontents, List.suffix_append_self_iff]
      split_ifs
      · exact hs.suffix
      · exact (List.tail_suffix _).trans hs.suffix
    · intro _
      rw [hhistory, hcontents]
      simp
  | @resize m hcall hpos hrecords hhistory hlimit =>
    rw [hrecords]
    constructor
    · rw [hhistory, hlimit]
      rcases hkeeps m hcall with rfl | ⟨hstart, hlength⟩
      · exact hs.fits
      · exact hs.fits.resize hpos hstart hlength
    · rw [hhistory]
      exact hs.suffix
    · rw [hhistory]
      exact hs.newest

theorem Windowed.reads (hs : Windowed sme s records)
    (hfit : (s.history sme).start + (s.history sme).length ≤ 2 ^ 32) :
    ∃ hist, s.Reads sme hist ∧ hist <:+ records ∧ (records ≠ [] → hist ≠ []) ∧
      hist.length ≤ s.config.maxPaymentHistory :=
  ⟨_, State.reads_of_fits hs.fits hfit, hs.suffix, hs.newest,
    hs.fits.length_contents.trans_le hs.fits.length_le⟩

/-! Runs in which the limit stays: the window is as long as it can be. -/

theorem KeepsLimit.keepsWindow (hkeeps : KeepsLimit sme s tx)
    (hfits : (s.history sme).Fits s.config.maxPaymentHistory) : KeepsWindow sme s tx := by
  intro m hm
  rcases hkeeps m hm with hsame | hempty
  · exact .inl hsame
  · have hlayout := hfits.layout
    exact .inr ⟨by omega, by omega⟩

theorem Windowed.length_step (hs : Windowed sme s records)
    (hlength : (s.history sme).length = min records.length s.config.maxPaymentHistory)
    (hkeeps : KeepsLimit sme s tx) (hx : exec s tx = .ok s') :
    (s'.history sme).length =
      min (recordedOf sme s tx s' records).length s'.config.maxPaymentHistory := by
  cases exec_windowStep hx sme with
  | same hrecords hhistory hlimit => rw [hrecords, hhistory, hlimit, hlength]
  | push hrecords hhistory hlimit =>
    rw [hrecords, hhistory, hlimit, List.length_append, List.length_singleton]
    unfold Window.push
    split_ifs with hshort
    · show (s.history sme).length + 1 = _
      omega
    · show (s.history sme).length = _
      omega
  | @resize m hcall hpos hrecords hhistory hlimit =>
    rw [hrecords, hhistory, hlimit]
    rcases hkeeps m hcall with rfl | hempty
    · exact hlength
    · have hlayout := hs.fits.layout
      omega

theorem Windowed.contents_eq (hs : Windowed sme s records)
    (hlength : (s.history sme).length = min records.length s.config.maxPaymentHistory) :
    (s.history sme).contents = records.drop (records.length - s.config.maxPaymentHistory) := by
  rw [List.suffix_iff_eq_drop.1 hs.suffix, hs.fits.length_contents, hlength]
  congr 1
  omega

/-- In a run in which every new limit leaves the window of an SME readable, its payment history is a
suffix of its records that ends with the newest one and is within the limit, and the single records
are those of the history.  When the limit does not change after the first record, the history is all
the records that the limit allows.  The slot numbers have to fit into their type, which they do up to
a limit of `2 ^ 31`. -/
theorem payment_history_window (sme : Address) (now : ℕ)
    (admin invoiceContract poolContract : Address) (s : State) (records : List PaymentRecord)
    (hfit : (s.history sme).start + (s.history sme).length ≤ 2 ^ 32) :
    (Reaches (recording sme) (fun x tx => KeepsWindow sme x.1 tx)
        (initialState now admin invoiceContract poolContract, []) (s, records) →
      ∃ hist, s.Reads sme hist ∧ hist <:+ records ∧ (records ≠ [] → hist ≠ []) ∧
        hist.length ≤ s.config.maxPaymentHistory) ∧
    (Reaches (recording sme) (fun x tx => KeepsLimit sme x.1 tx)
        (initialState now admin invoiceContract poolContract, []) (s, records) →
      s.Reads sme (records.drop (records.length - s.config.maxPaymentHistory))) := by
  have hinit := Windowed.initial sme now admin invoiceContract poolContract
  constructor
  · intro hrun
    have hs := hrun.invariant (P := fun x => Windowed sme x.1 x.2) hinit ?_
    · exact hs.reads hfit
    · intro x tx x' hs hkeeps hx
      obtain ⟨hexec, hrecords⟩ := (track_eq_ok _ _ _ _ _).1 hx
      rw [hrecords]
      exact hs.step hkeeps hexec
  · intro hrun
    have hs := hrun.invariant (P := fun x => Windowed sme x.1 x.2 ∧
      (x.1.history sme).length = min x.2.length x.1.config.maxPaymentHistory)
      ⟨hinit, rfl⟩ ?_
    · rw [← hs.1.contents_eq hs.2]
      exact State.reads_of_fits hs.1.fits hfit
    · rintro x tx x' ⟨hs, hlength⟩ hkeeps hx
      obtain ⟨hexec, hrecords⟩ := (track_eq_ok _ _ _ _ _).1 hx
      rw [hrecords]
      exact ⟨hs.step (hkeeps.keepsWindow hs.fits) hexec, hs.length_step hlength hkeeps hexec⟩

end Runs

/-! ## Samples -/

def limit (maxHistory : UInt32) : Tx := ⟨[1], .set (.setMaxPaymentHistory 1 maxHistory)⟩

def paid (invoiceId : ℕ) : PaymentRecord := ⟨invoiceId, 3, 500, 2000, 1500, .PaidOnTime, 0⟩

/-- The limit is raised before the window is full. -/
def raisedEarly : List Tx := [limit 2, payment 7, limit 3, payment 8]

def limitedFirst : List Tx := [limit 2, payment 7, payment 8, payment 9]

theorem payment_history_window_limits :
    (∃ s hist, raisedEarly.foldlM (recording 3) (sampleState, []) = .ok (s, [paid 7, paid 8]) ∧
      s.Reads 3 hist ∧ hist <:+ [paid 7, paid 8] ∧ hist ≠ [] ∧ hist.length ≤ 3) ∧
    ∃ s, limitedFirst.foldlM (recording 3) (sampleState, []) =
        .ok (s, [paid 7, paid 8, paid 9]) ∧ s.Reads 3 [paid 8, paid 9] := by
  constructor
  · obtain ⟨⟨s, records⟩, hs, hp⟩ := exists_of_check
      (x := raisedEarly.foldlM (recording 3) (sampleState, []))
      (p := fun x => decide (x.2 = [paid 7, paid 8] ∧ x.1.config.maxPaymentHistory = 3 ∧
        (x.1.history 3).start + (x.1.history 3).length ≤ 2 ^ 32)) (by decide)
    obtain ⟨rfl, hlimit, hfit⟩ := of_decide_eq_true hp
    have hrun : Reaches (recording 3) (fun x tx => KeepsWindow 3 x.1 tx) (sampleState, [])
        (s, [paid 7, paid 8]) := reaches_of_along .refl (by decide) hs
    obtain ⟨hist, hreads, hsuffix, hnewest, hlength⟩ :=
      (payment_history_window 3 1000 1 2 9 s [paid 7, paid 8] hfit).1 hrun
    exact ⟨s, hist, hs, hreads, hsuffix, hnewest (by simp), hlimit ▸ hlength⟩
  · obtain ⟨⟨s, records⟩, hs, hp⟩ := exists_of_check
      (x := limitedFirst.foldlM (recording 3) (sampleState, []))
      (p := fun x => decide (x.2 = [paid 7, paid 8, paid 9] ∧ x.1.config.maxPaymentHistory = 2 ∧
        (x.1.history 3).start + (x.1.history 3).length ≤ 2 ^ 32)) (by decide)
    obtain ⟨rfl, hlimit, hfit⟩ := of_decide_eq_true hp
    have hrun : Reaches (recording 3) (fun x tx => KeepsLimit 3 x.1 tx) (sampleState, [])
        (s, [paid 7, paid 8, paid 9]) := reaches_of_along .refl (by decide) hs
    have hreads := (payment_history_window 3 1000 1 2 9 s [paid 7, paid 8, paid 9] hfit).2 hrun
    rw [hlimit] at hreads
    exact ⟨s, hs, hreads⟩

/-- The limit is raised after the window has wrapped around. -/
def raisedLate : List Tx := [limit 2, payment 7, payment 8, payment 9, limit 3]

/-- The limit is lowered below the length of the window. -/
def loweredLate : List Tx := [limit 2, payment 7, payment 8, limit 1]

/-- A limit raised too late hides the newest record; a limit lowered too late repeats the oldest
one and exceeds the limit. -/
theorem late_limits_break_history :
    (∃ s, raisedLate.foldlM (recording 3) (sampleState, []) =
        .ok (s, [paid 7, paid 8, paid 9]) ∧ s.getPaymentHistory 3 = .ok [paid 8] ∧
      ¬ [paid 8] <:+ [paid 7, paid 8, paid 9]) ∧
    ∃ s, loweredLate.foldlM (recording 3) (sampleState, []) = .ok (s, [paid 7, paid 8]) ∧
      s.config.maxPaymentHistory = 1 ∧ s.getPaymentHistory 3 = .ok [paid 7, paid 7] := by
  constructor
  · obtain ⟨⟨s, records⟩, hs, hp⟩ := exists_of_check
      (x := raisedLate.foldlM (recording 3) (sampleState, []))
      (p := fun x => decide (x.2 = [paid 7, paid 8, paid 9] ∧
        check (x.1.getPaymentHistory 3) (fun hist => hist = [paid 8]) = true)) (by decide)
    obtain ⟨rfl, hread⟩ := of_decide_eq_true hp
    obtain ⟨hist, hread, heq⟩ := exists_of_check hread
    exact ⟨s, hs, hread.trans (congrArg _ (of_decide_eq_true heq)), by decide⟩
  · obtain ⟨⟨s, records⟩, hs, hp⟩ := exists_of_check
      (x := loweredLate.foldlM (recording 3) (sampleState, []))
      (p := fun x => decide (x.2 = [paid 7, paid 8] ∧ x.1.config.maxPaymentHistory = 1 ∧
        check (x.1.getPaymentHistory 3) (fun hist => hist = [paid 7, paid 7]) = true))
      (by decide)
    obtain ⟨rfl, hlimit, hread⟩ := of_decide_eq_true hp
    obtain ⟨hist, hread, heq⟩ := exists_of_check hread
    exact ⟨s, hs, hlimit, hread.trans (congrArg _ (of_decide_eq_true heq))⟩

end Astera.CreditScore
