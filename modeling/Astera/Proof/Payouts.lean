import Astera.Insurance.Records

/-!
# Payouts against the cover

Every filing computes the shortfall anew, without a look at what was paid.  The log of the payouts
stays within the cover exactly as long as each filing leaves room for its own payout and does not
repeat a shortfall that was paid.
-/

namespace Astera.Insurance

open Fallible Machine Transition

variable {W : Type} {h : Host W} {s s' : State W}
variable {record : CoverageRecord} {log : List Payout} {tx : Tx h} {invoiceId : ℕ}

/-- A payout: the invoice, the shortfall that was claimed, what left the reserve, and whether the
record was claimed or released before. -/
structure Payout where
  invoiceId : ℕ
  shortfall : ℤ
  amount : ℤ
  closed : Bool
  deriving DecidableEq

/-- The record of an invoice is claimed or released, in either storage. -/
def State.closed (s : State W) (invoiceId : ℕ) : Bool :=
  (s.coverageRecords.get invoiceId).any CoverageRecord.claimed || s.released invoiceId

/-- The log of the payouts after a call, the newest first. -/
def notePayout (h : Host W) (s : State W) (tx : Tx h) (s' : State W) (log : List Payout) :
    List Payout :=
  match tx.call with
  | .fileClaim invoiceId =>
    match s.coverageRecords.get invoiceId, shortfallOf h s invoiceId with
    | some record, .ok shortfall => {
        invoiceId := invoiceId
        shortfall := shortfall
        amount := s.balances record.token h.self - s'.balances record.token h.self
        closed := s.closed invoiceId } :: log
    | _, _ => log
  | _ => log

def paidOn (log : List Payout) (invoiceId : ℕ) : ℤ :=
  ((log.filter fun p => p.invoiceId = invoiceId).map Payout.amount).sum

def lastOn (log : List Payout) (invoiceId : ℕ) : Option Payout :=
  log.find? fun p => p.invoiceId = invoiceId

/-- A payout that may follow the older ones: the record is open, and when the shortfall is the last
one again, it has not been paid. -/
def Payout.Follows (p : Payout) (older : List Payout) : Prop :=
  p.closed = false ∧ ∀ last ∈ lastOn older p.invoiceId,
    last.shortfall = p.shortfall → paidOn older p.invoiceId < p.shortfall

/-- Every payout of a log may follow the ones before it. -/
def Orderly : List Payout → Prop
  | [] => True
  | p :: older => p.Follows older ∧ Orderly older

/-- The payouts are in order and no invoice has got more than its cover. -/
structure WithinCover (s : State W) (log : List Payout) : Prop where
  covered : ∀ invoiceId record, s.coverageRecords.get invoiceId = some record →
    paidOn log invoiceId ≤ record.insured
  orderly : Orderly log

/-- A filing that finds room for its payout: a record that was paid before has as much cover left as
the shortfall and the reserves allow, and a shortfall that was the last one before is not yet paid. -/
def Fresh (h : Host W) (s : State W) (tx : Tx h) : Prop :=
  match tx.call with
  | .fileClaim invoiceId =>
    ∀ record ∈ s.coverageRecords.get invoiceId, ∀ shortfall ∈ (shortfallOf h s invoiceId).toOption,
      (0 < record.paidToDate →
        record.paidToDate + min shortfall (s.reserveFund record.token).totalReserves ≤
          record.insured) ∧
      ∀ item ∈ (s.claimHistory invoiceId).getLast?, item.shortfalls = shortfall →
        record.paidToDate < shortfall
  | _ => True

instance (tx : Tx h) : Decidable (Fresh h s tx) :=
  match hcall : tx.call with
  | .fileClaim invoiceId =>
    decidable_of_iff (∀ record ∈ s.coverageRecords.get invoiceId,
      ∀ shortfall ∈ (shortfallOf h s invoiceId).toOption,
        (0 < record.paidToDate →
          record.paidToDate + min shortfall (s.reserveFund record.token).totalReserves ≤
            record.insured) ∧
        ∀ item ∈ (s.claimHistory invoiceId).getLast?, item.shortfalls = shortfall →
          record.paidToDate < shortfall) (by simp only [Fresh, hcall])
  | .fundReserveFromTreasury .. | .purchaseCoverage .. | .releaseCoverage .. | .set .. | .advance ..
  | .elsewhere .. | .tokenTransfer .. => .isTrue (by simp only [Fresh, hcall])

section Log

variable {log : List Payout}

theorem paidOn_cons (p : Payout) (log : List Payout) (invoiceId : ℕ) :
    paidOn (p :: log) invoiceId =
      paidOn log invoiceId + if p.invoiceId = invoiceId then p.amount else 0 := by
  unfold paidOn
  rw [List.filter_cons]
  split_ifs with hid hid' hid'
  · rw [List.map_cons, List.sum_cons, add_comm]
  · exact absurd (of_decide_eq_true hid) hid'
  · exact absurd (decide_eq_true hid') hid
  · exact (add_zero _).symm

theorem lastOn_cons (p : Payout) (log : List Payout) (invoiceId : ℕ) :
    lastOn (p :: log) invoiceId = if p.invoiceId = invoiceId then some p else lastOn log invoiceId := by
  unfold lastOn
  rw [List.find?_cons]
  split_ifs with hid
  · rw [decide_eq_true hid]
  · rw [decide_eq_false hid]

end Log

/-- The log tells what each record has been paid and which shortfall was claimed last. -/
structure Booked (s : State W) (log : List Payout) : Prop where
  paid : ∀ invoiceId record, s.coverageRecords.get invoiceId = some record →
    paidOn log invoiceId = record.paidToDate
  unpaid : ∀ invoiceId, s.coverageRecords.get invoiceId = none → paidOn log invoiceId = 0
  last : ∀ invoiceId, (s.claimHistory invoiceId).getLast?.map ClaimHistoryItem.shortfalls =
    (lastOn log invoiceId).map Payout.shortfall

theorem booked_initial (now : ℕ) (world : W) (balances : Address → Address → ℤ)
    (admin poolContract invoiceContract : Address) :
    Booked (initializeInsurance now world balances admin poolContract invoiceContract) [] := by
  refine ⟨fun invoiceId record hget => ?_, fun _ _ => rfl, fun _ => rfl⟩
  have hnone : (none : Option CoverageRecord) = some record := (Store.get_empty invoiceId).symm.trans hget
  cases hnone

theorem Booked.of_same (hb : Booked s log) (hrecords : s'.coverageRecords = s.coverageRecords)
    (hhistory : s'.claimHistory = s.claimHistory) :
    Booked s' log := by
  refine ⟨?_, ?_, ?_⟩
  · rw [hrecords]
    exact hb.paid
  · rw [hrecords]
    exact hb.unpaid
  · rw [hhistory]
    exact hb.last

theorem Booked.covered (hb : Booked s log) {payer : Address}
    (hfree : s.coverageRecords.get invoiceId = none) (hpaid : record.paidToDate = 0) :
    Booked (s.covered h payer invoiceId record) log := by
  refine ⟨?_, fun id hnone => ?_, hb.last⟩
  · refine Store.forall_get_set hb.paid ?_
    rw [hpaid]
    exact hb.unpaid invoiceId hfree
  · apply hb.unpaid
    have hget : (s.coverageRecords.set invoiceId record).get id = none := hnone
    rw [Store.get_set] at hget
    split_ifs at hget
    exact hget

theorem Booked.paidOut (hb : Booked s log) {shortfall payout : ℤ} {world : W} {closed : Bool}
    (hget : s.coverageRecords.get invoiceId = some record) :
    Booked (s.paidOut h invoiceId record shortfall payout world)
      ({ invoiceId := invoiceId, shortfall := shortfall, amount := payout, closed := closed } :: log) := by
  refine ⟨fun id r hr => ?_, fun id hnone => ?_, fun id => ?_⟩
  · have hset : (s.coverageRecords.set invoiceId
        (record.paid record.insured (record.paidToDate + payout))).get id = some r := hr
    rw [paidOn_cons]
    rw [Store.get_set] at hset
    split_ifs at hset with hid
    · subst hid
      rw [if_pos rfl, hb.paid id record hget, ← Option.some.inj hset]
      rfl
    · rw [if_neg (Ne.symm hid), add_zero]
      exact hb.paid id r hset
  · have hset : (s.coverageRecords.set invoiceId
        (record.paid record.insured (record.paidToDate + payout))).get id = none := hnone
    rw [Store.get_set] at hset
    split_ifs at hset with hid
    rw [paidOn_cons, if_neg (Ne.symm hid), add_zero]
    exact hb.unpaid id hset
  · rw [lastOn_cons]
    by_cases hid : invoiceId = id
    · subst hid
      simp [State.paidOut]
    · have hother : (s.paidOut h invoiceId record shortfall payout world).claimHistory id =
          s.claimHistory id := Function.update_of_ne (Ne.symm hid) _ _
      rw [hother, if_neg hid]
      exact hb.last id

/-! ## Steps -/

theorem notePayout_paidOut {shortfall payout : ℤ} {world : W}
    (hcall : tx.call = .fileClaim invoiceId) (hget : s.coverageRecords.get invoiceId = some record)
    (hpool : s.config.poolContract ≠ h.self)
    (hshortfall : shortfallOf h s invoiceId = .ok shortfall) :
    notePayout h s tx (s.paidOut h invoiceId record shortfall payout world) log =
      { invoiceId := invoiceId, shortfall := shortfall, amount := payout
        closed := s.closed invoiceId } :: log := by
  have hbalance : (s.paidOut h invoiceId record shortfall payout world).balances record.token h.self =
      s.balances record.token h.self - payout := by
    show (s.moved record.token h.self s.config.poolContract payout).balances record.token h.self = _
    rw [balances_moved, if_pos rfl]
    exact Ledger.move_sender _ _ (Ne.symm hpool)
  simp only [notePayout, hcall, hget, hshortfall, hbalance, sub_sub_cancel]

theorem notePayout_of_ne (hcall : ∀ invoiceId, tx.call ≠ .fileClaim invoiceId) :
    notePayout h s tx s' log = log := by
  unfold notePayout
  split
  · rename_i invoiceId heq
    exact absurd heq (hcall invoiceId)
  · rfl

theorem fresh_of_ne (hcall : ∀ invoiceId, tx.call ≠ .fileClaim invoiceId) :
    Fresh h s tx := by
  unfold Fresh
  split
  · rename_i invoiceId heq
    exact absurd heq (hcall invoiceId)
  · trivial

theorem booked_step {x y : State W × List Payout} (hx : Sound x.1 ∧ Booked x.1 x.2)
    (hstep : track (exec h) (notePayout h) x tx = .ok y) : Sound y.1 ∧ Booked y.1 y.2 := by
  obtain ⟨s, log⟩ := x
  obtain ⟨s', log'⟩ := y
  obtain ⟨hs, hb⟩ := hx
  rw [track_eq_ok] at hstep
  obtain ⟨hexec, hnote⟩ := hstep
  dsimp only at hexec hnote hs hb
  subst hnote
  refine ⟨exec_sound hs hexec, ?_⟩
  cases exec_effect hexec with
  | paidOut hcall hget hpool hshortfall hpayout hpos =>
    dsimp only
    rw [notePayout_paidOut hcall hget hpool hshortfall]
    exact hb.paidOut hget
  | covered hcall hsigned hrunning hfree htoken hprincipal hpremium hopen hpaid =>
    dsimp only
    rw [notePayout_of_ne (by simp [hcall])]
    exact hb.covered hfree hpaid
  | released hcall hget =>
    rw [hs.noneInstance] at hget
    cases hget
  | configured hcall hsame =>
    dsimp only
    rw [notePayout_of_ne (by simp [hcall])]
    exact hb.of_same hsame.coverageRecords hsame.claimHistory
  | endowed hcall | advanced hcall | elsewhere hcall | moved hcall =>
    dsimp only
    rw [notePayout_of_ne (by simp [hcall])]
    exact hb.of_same rfl rfl

theorem Booked.covered_iff (hb : Booked s log) :
    (∀ invoiceId record, s.coverageRecords.get invoiceId = some record →
      paidOn log invoiceId ≤ record.insured) ↔
    ∀ invoiceId record, s.coverageRecords.get invoiceId = some record →
      record.paidToDate ≤ record.insured := by
  constructor
  · intro hall invoiceId record hget
    rw [← hb.paid invoiceId record hget]
    exact hall invoiceId record hget
  · intro hall invoiceId record hget
    rw [hb.paid invoiceId record hget]
    exact hall invoiceId record hget

theorem withinCover_step_iff (hs : Sound s) (hb : Booked s log) (hw : WithinCover s log)
    (hexec : exec h s tx = .ok s') :
    WithinCover s' (notePayout h s tx s' log) ↔ Fresh h s tx := by
  have hpaidAll := hb.covered_iff.1 hw.covered
  have hb' : Booked s' (notePayout h s tx s' log) :=
    (booked_step (y := (s', _)) ⟨hs, hb⟩ ((track_eq_ok _ _ (s, log) _ _).2 ⟨hexec, rfl⟩)).2
  -- a call that is no filing keeps the records or adds an unpaid one
  have hquiet : (∀ invoiceId, tx.call ≠ .fileClaim invoiceId) →
      (∀ invoiceId record, s'.coverageRecords.get invoiceId = some record →
        record.paidToDate ≤ record.insured) →
      (WithinCover s' (notePayout h s tx s' log) ↔ Fresh h s tx) := by
    intro hcall hrecords
    refine iff_of_true ⟨hb'.covered_iff.2 hrecords, ?_⟩ (fresh_of_ne hcall)
    rw [notePayout_of_ne hcall]
    exact hw.orderly
  cases exec_effect hexec with
  | @paidOut invoiceId record shortfall payout world hcall hget hpool hshortfall hpayout hpos hfits =>
    have hrecord := hs.records invoiceId record hget
    have hpaidNow := hpaidAll invoiceId record hget
    have hnn := hrecord.paid_nonneg
    have hclosed : s.closed invoiceId = record.claimed := by
      simp [State.closed, hget, hs.released_eq_false]
    have hgetNew : (s.paidOut h invoiceId record shortfall payout world).coverageRecords.get
        invoiceId = some (record.paid record.insured (record.paidToDate + payout)) :=
      Store.get_set_self _ _ _
    have hlast := hb.last invoiceId
    rw [notePayout_paidOut hcall hget hpool hshortfall] at hb' ⊢
    have hfresh : Fresh h s tx ↔
        (0 < record.paidToDate → record.paidToDate +
          min shortfall (s.reserveFund record.token).totalReserves ≤ record.insured) ∧
        ∀ item ∈ (s.claimHistory invoiceId).getLast?, item.shortfalls = shortfall →
          record.paidToDate < shortfall := by
      simp [Fresh, hcall, hget, hshortfall, Except.toOption]
    rw [hfresh]
    constructor
    · intro hw'
      have hbound := hb'.covered_iff.1 hw'.covered invoiceId _ hgetNew
      simp only [CoverageRecord.paid, CoverageRecord.insured] at hbound
      refine ⟨fun hpaid => ?_, fun item hitem heq => ?_⟩
      · unfold CoverageRecord.insured at *
        omega
      · rw [Option.mem_def.1 hitem] at hlast
        obtain ⟨last, hlast', hsame⟩ := Option.map_eq_some_iff.1 hlast.symm
        have hless := hw'.orderly.1.2 last hlast' (hsame.trans heq)
        rw [hb.paid invoiceId record hget] at hless
        exact hless
    · rintro ⟨hroom, hrepeat⟩
      have hroomAll : record.paidToDate + payout ≤ record.insured := by omega
      refine ⟨hb'.covered_iff.2 ?_, ⟨?_, fun last hlast' heq => ?_⟩, hw.orderly⟩
      · exact Store.forall_get_set hpaidAll hroomAll
      · by_contra hne
        rw [hclosed] at hne
        have hle := hrecord.insured_le (Bool.eq_true_of_not_eq_false hne)
        omega
      · rw [Option.mem_def.1 hlast'] at hlast
        obtain ⟨item, hitem, hsame⟩ := Option.map_eq_some_iff.1 hlast
        have hless := hrepeat item hitem (hsame.trans heq)
        rw [← hb.paid invoiceId record hget] at hless
        exact hless
  | covered hcall hsigned hrunning hfree htoken hprincipal hpremium hopen hpaid hinsured =>
    refine hquiet (by simp [hcall]) (Store.forall_get_set hpaidAll ?_)
    rw [hpaid]
    exact hinsured
  | released hcall hget =>
    rw [hs.noneInstance] at hget
    cases hget
  | configured hcall hsame =>
    refine hquiet (by simp [hcall]) ?_
    rw [hsame.coverageRecords]
    exact hpaidAll
  | endowed hcall | advanced hcall | elsewhere hcall | moved hcall =>
    exact hquiet (by simp [hcall]) hpaidAll

/-- In every run of fresh filings the payouts stay within the cover, and then one more call keeps them
there exactly when it is fresh. -/
theorem payouts_within_cover {now : ℕ} {world : W} {balances : Address → Address → ℤ}
    {admin poolContract invoiceContract : Address} {log : List Payout}
    (hrun : Reaches (track (exec h) (notePayout h)) (fun x tx => Fresh h x.1 tx)
      (initializeInsurance now world balances admin poolContract invoiceContract, []) (s, log)) :
    WithinCover s log ∧ ∀ (tx : Tx h) (s' : State W), exec h s tx = .ok s' →
      (WithinCover s' (notePayout h s tx s' log) ↔ Fresh h s tx) := by
  have hall : (Sound s ∧ Booked s log) ∧ WithinCover s log := by
    refine hrun.invariant (P := fun x => (Sound x.1 ∧ Booked x.1 x.2) ∧ WithinCover x.1 x.2)
      ⟨⟨sound_initial now world balances admin poolContract invoiceContract,
          booked_initial now world balances admin poolContract invoiceContract⟩,
        ⟨fun invoiceId record hget => absurd ((Store.get_empty invoiceId).symm.trans hget) nofun,
          trivial⟩⟩ ?_
    rintro ⟨s, log⟩ tx ⟨s', log'⟩ ⟨hbooks, hw⟩ hfresh hstep
    refine ⟨booked_step hbooks hstep, ?_⟩
    obtain ⟨hexec, hnote⟩ := (track_eq_ok _ _ _ _ _).1 hstep
    dsimp only at hexec hnote hfresh hbooks hw ⊢
    subst hnote
    exact (withinCover_step_iff hbooks.1 hbooks.2 hw hexec).2 hfresh
  obtain ⟨⟨hs, hb⟩, hw⟩ := hall
  exact ⟨hw, fun tx s' hexec => withinCover_step_iff hs hb hw hexec⟩

def claimedOnce : List (Tx sampleHost) := samplePurchase ++ [⟨[], self_notMem_nil, .fileClaim 7⟩]

theorem payouts_within_cover_claimed :
    ∃ (s : State Unit) (log : List Payout), paidOn log 7 = 500 ∧ WithinCover s log ∧
      ¬ Fresh sampleHost s ⟨[], by decide, .fileClaim 7⟩ := by
  obtain ⟨⟨s, log⟩, hx, hp⟩ := exists_of_check
    (x := claimedOnce.foldlM (track (exec sampleHost) (notePayout sampleHost)) (sampleStart, []))
    (p := fun x => decide (paidOn x.2 7 = 500 ∧
      ¬ Fresh sampleHost x.1 ⟨[], by decide, .fileClaim 7⟩)) (by decide)
  obtain ⟨hpaid, hstale⟩ := of_decide_eq_true hp
  have hrun := reaches_of_along .refl (show Along _ (fun x tx => Fresh sampleHost x.1 tx) _ claimedOnce
    by decide) hx
  exact ⟨s, log, hpaid, (payouts_within_cover hrun).1, hstale⟩

/-- The insured loan is claimed a second time. -/
def claimedTwice : List (Tx sampleHost) := claimedOnce ++ [⟨[], self_notMem_nil, .fileClaim 7⟩]

/-- A cover of 500 is paid out twice, the second time on a claimed record. -/
theorem cover_paid_twice :
    ∃ (s : State Unit) (log : List Payout),
      Reaches (track (exec sampleHost) (notePayout sampleHost)) (fun _ _ => True)
        (sampleStart, []) (s, log) ∧
      log = [⟨7, 1_000, 500, true⟩, ⟨7, 1_000, 500, false⟩] ∧
      (s.coverageRecords.get 7).map CoverageRecord.insured = some 500 ∧ paidOn log 7 = 1_000 ∧
      ¬ WithinCover s log := by
  obtain ⟨⟨s, log⟩, hx, hp⟩ := exists_of_check
    (x := claimedTwice.foldlM (track (exec sampleHost) (notePayout sampleHost)) (sampleStart, []))
    (p := fun x => decide (x.2 = [⟨7, 1_000, 500, true⟩, ⟨7, 1_000, 500, false⟩] ∧
      (x.1.coverageRecords.get 7).map CoverageRecord.insured = some 500)) (by decide)
  obtain ⟨hlog, hinsured⟩ := of_decide_eq_true hp
  dsimp only at hlog hinsured
  subst hlog
  refine ⟨s, _, reaches_of_along .refl (along_of_forall (fun _ _ => trivial) _ _) hx, rfl, hinsured,
    rfl, fun hw => ?_⟩
  exact absurd hw.orderly.1.1 (by decide)

end Astera.Insurance
