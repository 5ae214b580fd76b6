import Astera.CreditScore.System

/-!
# The registry of SMEs

`get_or_create_credit_data` enters an SME without a record and leaves storing the record to the
caller.  The queries do not, so that the SME is entered again with its first invoice.  Otherwise
`list_all_sme_stats` lists every SME with a record exactly once.
-/

namespace Astera.CreditScore

open Fallible Machine Transition

def Call.stores (s : State) : Call → Option Address
  | .recordPayment _ sme _ _ _ | .recordDefault _ sme _ _ => some sme
  | .recordFunding invoiceId sme _ => if s.invoiceProcessed invoiceId then none else some sme
  | _ => none

/-- An SME that gets its first record is not in the registry yet. -/
def RegistersOnce (s : State) (tx : Tx) : Prop :=
  ∀ sme ∈ tx.call.stores s, s.creditScore sme = none → sme ∉ s.smes

instance (s : State) (tx : Tx) : Decidable (RegistersOnce s tx) :=
  inferInstanceAs (Decidable (∀ sme ∈ tx.call.stores s, _))

/-- The invariant: the registry has no gap, and each SME with a record is in it once. -/
structure ListedOnce (s : State) : Prop where
  filled : s.toRegistry.Filled
  once : ∀ sme, (s.creditScore sme).isSome = true → s.smes.count sme = 1

section Steps

variable {s s' : State} {tx : Tx} {sme : Address}

theorem ListedOnce.store (hs : ListedOnce s)
    (hdata : ∃ data, s'.creditScore = Function.update s.creditScore sme (some data))
    (hregistry : s'.toRegistry = (s.entering (s.missing sme)).toRegistry)
    (hnew : s.creditScore sme = none → sme ∉ s.smes) : ListedOnce s' := by
  obtain ⟨data, hdata⟩ := hdata
  have hsmes : s'.smes = s.smes ++ s.missing sme := by
    rw [hregistry]
    exact Registry.smes_foldl_enter _ _
  constructor
  · rw [hregistry]
    exact hs.filled.foldl_enter _
  · intro sme' hsome
    rw [hsmes, List.count_append]
    by_cases hsme : sme' = sme
    · subst hsme
      cases hold : s.creditScore sme' with
      | some old =>
        have honce := hs.once sme' (by simp [hold])
        simpa [State.missing, hold] using honce
      | none =>
        have hfirst : s.smes.count sme' = 0 := List.count_eq_zero.2 (hnew hold)
        simp [State.missing, hold, hfirst]
    · rw [hdata, Function.update_of_ne hsme] at hsome
      have hmissing : (s.missing sme).count sme' = 0 := by
        rw [List.count_eq_zero, State.mem_missing]
        exact fun h => hsme h.1
      rw [hmissing, hs.once sme' hsome]

theorem ListedOnce.quiet (hs : ListedOnce s) (hquiet : Quiet s s') : ListedOnce s' := by
  obtain ⟨l, signals, hnone, rfl⟩ := hquiet
  refine ⟨hs.filled.foldl_enter _, fun sme hsome => ?_⟩
  have hsmes : (s.entering l).smes = s.smes ++ l := Registry.smes_foldl_enter _ _
  have hnot : sme ∉ l := by
    intro hmem
    change (s.creditScore sme).isSome = true at hsome
    simp [hnone sme hmem] at hsome
  show (s.entering l).smes.count sme = 1
  rw [hsmes, List.count_append, List.count_eq_zero.2 hnot, hs.once sme hsome]

theorem ListedOnce.step (hs : ListedOnce s) (honce : RegistersOnce s tx)
    (hx : exec s tx = .ok s') : ListedOnce s' := by
  cases exec_effect hx with
  | set hcall hset hstate => exact hstate ▸ ⟨hs.filled, hs.once⟩
  | advance hcall hle hfit hstate => exact hstate ▸ ⟨hs.filled, hs.once⟩
  | @committed record hrecord hcommitted =>
    apply hs.store hcommitted.data hcommitted.registry
    apply honce
    obtain ⟨signers, call⟩ := tx
    cases call with
    | recordPayment invoiceId sme amount dueDate paidAt =>
      have hkeys := paymentRecord_keys (toOption_eq_some.1 hrecord)
      simp [Call.stores, hkeys.1]
    | recordDefault invoiceId sme amount dueDate =>
      obtain rfl := Option.some.inj hrecord
      rfl
    | _ => cases hrecord
  | noted hcall hfresh hnoted =>
    apply hs.store hnoted.data hnoted.registry
    apply honce
    simp [Call.stores, hcall, hfresh]
  | quiet hrecord hquiet => exact hs.quiet hquiet

end Steps

/-! ## One page -/

def State.entry (s : State) (sme : Address) : SmeScoreEntry :=
  ⟨sme, ((s.creditScore sme).getD (s.freshData sme)).score⟩

section Pages

variable {s t t' : State}

theorem Registry.smeByIndex_foldl_enter (r : Registry) (l : List Address) {i : ℕ}
    (hi : i < r.smeCount) : (l.foldl Registry.enter r).smeByIndex i = r.smeByIndex i := by
  induction l generalizing r with
  | nil => rfl
  | cons sme l ih =>
    rw [List.foldl_cons, ih (r.enter sme) (Nat.lt_succ_of_lt hi)]
    exact Function.update_of_ne hi.ne _ _

theorem Registry.Filled.length_smes {r : Registry} (hr : r.Filled) : r.smes.length = r.smeCount :=
  hr.length_stored

theorem listEntry_eq_ok {x x' : State × List SmeScoreEntry} {i : ℕ} {l : List Address}
    (hx : listEntry x i = .ok x') (hi : i < t.smeCount) (hl : ∀ sme ∈ l, t.creditScore sme = none)
    (hstate : x.1 = t.entering l) :
    (∃ l', (∀ sme ∈ l', t.creditScore sme = none) ∧ x'.1 = t.entering l') ∧
      x'.2 = x.2 ++ (t.smeByIndex i).toList.map t.entry := by
  have hindex : x.1.smeByIndex i = t.smeByIndex i := by
    rw [hstate]
    exact Registry.smeByIndex_foldl_enter _ _ hi
  unfold listEntry at hx
  rw [hindex] at hx
  cases hsme : t.smeByIndex i with
  | none =>
    simp only [hsme, pure_eq_ok] at hx
    subst hx
    exact ⟨⟨l, hl, hstate⟩, by simp⟩
  | some sme =>
    simp only [hsme, bind_eq_ok, Prod.exists, pure_eq_ok] at hx
    obtain ⟨u, data, hget, rfl⟩ := hx
    have hentry : (⟨sme, data.score⟩ : SmeScoreEntry) = t.entry sme := by
      unfold State.entry
      rcases State.getOrCreateCreditData_eq_ok.1 hget with ⟨hsome, -⟩ | ⟨hnone, -, -, rfl⟩
      · have hsome' : t.creditScore sme = some data := by rwa [hstate] at hsome
        rw [hsome']
        rfl
      · have hnone' : t.creditScore sme = none := by rwa [hstate] at hnone
        rw [hnone', hstate]
        rfl
    refine ⟨⟨l ++ x.1.missing sme, ?_, ?_⟩, by simp [hentry]⟩
    · intro sme' hmem
      rcases List.mem_append.1 hmem with hold | hnew
      · exact hl sme' hold
      · obtain ⟨rfl, hnone⟩ := State.mem_missing.1 hnew
        rwa [hstate] at hnone
    · rw [State.getOrCreateCreditData_state hget, hstate]
      simp [State.entering]

theorem listEntries_eq_ok :
    ∀ {is : List ℕ} {x x' : State × List SmeScoreEntry} {l : List Address},
      (∀ i ∈ is, i < t.smeCount) → (∀ sme ∈ l, t.creditScore sme = none) → x.1 = t.entering l →
      is.foldlM listEntry x = .ok x' →
      (∃ l', (∀ sme ∈ l', t.creditScore sme = none) ∧ x'.1 = t.entering l') ∧
        x'.2 = x.2 ++ (is.filterMap t.smeByIndex).map t.entry := by
  intro is
  induction is with
  | nil =>
    intro x x' l _ hl hstate hx
    simp only [List.foldlM_nil, pure_eq_ok] at hx
    subst hx
    exact ⟨⟨l, hl, hstate⟩, by simp⟩
  | cons i is ih =>
    intro x x' l his hl hstate hx
    rw [List.foldlM_cons, bind_eq_ok] at hx
    obtain ⟨y, hy, hx⟩ := hx
    obtain ⟨⟨l', hl', hstate'⟩, hentries⟩ := listEntry_eq_ok hy (his i (by simp)) hl hstate
    obtain ⟨hfinal, hrest⟩ := ih (fun j hj => his j (by simp [hj])) hl' hstate' hx
    refine ⟨hfinal, ?_⟩
    rw [hrest, hentries, List.append_assoc, ← List.map_append]
    cases hindex : t.smeByIndex i <;> simp [hindex]

theorem listAllSmeStats_eq_ok {page pageSize : ℕ} {entries : List SmeScoreEntry}
    (ht : t.toRegistry.Filled) (hsize : pageSize ≤ maxSmePageSize)
    (hlist : listAllSmeStats t page pageSize = .ok (t', entries)) :
    (∃ l, (∀ sme ∈ l, t.creditScore sme = none) ∧ t' = t.entering l) ∧
      entries = ((t.smes.drop (page * pageSize)).take pageSize).map t.entry := by
  have hcapped : cappedPageSize pageSize = pageSize := if_neg (by omega)
  have hlength : t.smes.length = t.smeCount := ht.length_smes
  simp only [listAllSmeStats, hcapped, bind_eq_ok, okOr_eq_ok, fitU_eq_some] at hlist
  obtain ⟨_, ⟨rfl, -⟩, hlist⟩ := hlist
  split_ifs at hlist with hend
  · obtain ⟨rfl, rfl⟩ := Prod.mk.inj ((pure_eq_ok _ _).1 hlist)
    refine ⟨⟨[], by simp, rfl⟩, ?_⟩
    rw [List.drop_of_length_le (by omega), List.take_nil, List.map_nil]
  · simp only [bind_eq_ok, okOr_eq_ok, fitU_eq_some] at hlist
    obtain ⟨_, ⟨rfl, -⟩, hlist⟩ := hlist
    have hindices : ∀ i ∈ List.range' (page * pageSize)
        (min (page * pageSize + pageSize) t.smeCount - page * pageSize), i < t.smeCount := by
      intro i hi
      rw [List.mem_range'_1] at hi
      omega
    obtain ⟨hstate, hentries⟩ := listEntries_eq_ok (l := []) hindices (by simp) rfl hlist
    refine ⟨hstate, ?_⟩
    have hpart : (List.range' (page * pageSize)
        (min (page * pageSize + pageSize) t.smeCount - page * pageSize)).filterMap t.smeByIndex =
        (t.smes.drop (page * pageSize)).take pageSize := by
      rw [ht.filterMap_range' (by omega)]
      show (t.smes.drop (page * pageSize)).take _ = _
      rw [List.take_eq_take_iff, List.length_drop]
      omega
    simpa [hpart] using hentries

/-- `list_all_sme_stats` called for the first `n` pages in order, and what the calls list. -/
def listPages (s : State) (pageSize n : ℕ) : Res (State × List SmeScoreEntry) :=
  (List.range n).foldlM (fun x page => do
    let (s', entries) ← listAllSmeStats x.1 page pageSize
    return (s', x.2 ++ entries)) (s, [])

theorem listPages_succ {pageSize n : ℕ} {entries : List SmeScoreEntry} {s' : State} :
    listPages s pageSize (n + 1) = .ok (s', entries) ↔
      ∃ t before page, listPages s pageSize n = .ok (t, before) ∧
        listAllSmeStats t n pageSize = .ok (s', page) ∧ entries = before ++ page := by
  unfold listPages
  rw [List.range_succ, List.foldlM_append, bind_eq_ok]
  simp only [List.foldlM_cons, List.foldlM_nil, bind_eq_ok, pure_eq_ok, Prod.exists]
  constructor
  · rintro ⟨t, before, hbefore, _, _, ⟨_, page, hpage, heq⟩, hlast⟩
    obtain ⟨rfl, rfl⟩ := Prod.mk.inj heq
    obtain ⟨rfl, rfl⟩ := Prod.mk.inj hlast
    exact ⟨t, before, page, hbefore, hpage, rfl⟩
  · rintro ⟨t, before, page, hbefore, hpage, rfl⟩
    exact ⟨t, before, hbefore, _, _, ⟨_, page, hpage, rfl⟩, rfl⟩

theorem listPages_filter {pageSize : ℕ} (hs : s.toRegistry.Filled)
    (hsize : pageSize ≤ maxSmePageSize) :
    ∀ {n : ℕ} {s' : State} {entries : List SmeScoreEntry},
      listPages s pageSize n = .ok (s', entries) →
      (∃ l, (∀ sme ∈ l, s.creditScore sme = none) ∧ s' = s.entering l) ∧
        entries.filter (fun e => (s.creditScore e.sme).isSome) =
          (((s.smes.take (n * pageSize)).filter fun sme => (s.creditScore sme).isSome).map
            s.entry) := by
  intro n
  induction n with
  | zero =>
    intro s' entries hlist
    obtain ⟨rfl, rfl⟩ := Prod.mk.inj ((pure_eq_ok _ _).1 hlist)
    exact ⟨⟨[], by simp, rfl⟩, by simp⟩
  | succ n ih =>
    intro s' entries hlist
    obtain ⟨t, before, page, hbefore, hpage, rfl⟩ := listPages_succ.1 hlist
    obtain ⟨⟨l, hl, rfl⟩, hfilter⟩ := ih hbefore
    have hfilled : (s.entering l).toRegistry.Filled := hs.foldl_enter l
    obtain ⟨⟨l', hl', rfl⟩, hlisted⟩ := listAllSmeStats_eq_ok hfilled hsize hpage
    have hsmes : (s.entering l).smes = s.smes ++ l := Registry.smes_foldl_enter _ _
    refine ⟨⟨l ++ l', ?_, by simp [State.entering]⟩, ?_⟩
    · intro sme hmem
      rcases List.mem_append.1 hmem with hold | hnew
      · exact hl sme hold
      · exact hl' sme hnew
    · -- The part of the page beyond the old registry consists of entries without a record.
      have hnew : (List.take (pageSize - (s.smes.length - n * pageSize))
          (l.drop (n * pageSize - s.smes.length))).filter
            (fun sme => (s.creditScore sme).isSome) = [] := by
        rw [List.filter_eq_nil_iff]
        intro sme hmem
        have hin : sme ∈ l := List.mem_of_mem_drop (List.mem_of_mem_take hmem)
        simp [hl sme hin]
      have hpart : page.filter (fun e => (s.creditScore e.sme).isSome) =
          (((s.smes.drop (n * pageSize)).take pageSize).filter
            fun sme => (s.creditScore sme).isSome).map s.entry := by
        have hentry : (s.entering l).entry = s.entry := rfl
        rw [hlisted, hentry, List.filter_map, hsmes, List.drop_append, List.take_append,
          List.length_drop, List.filter_append]
        have hsame : (fun e => (s.creditScore e.sme).isSome) ∘ s.entry =
            fun sme => (s.creditScore sme).isSome := rfl
        rw [hsame, hnew, List.append_nil]
      rw [List.filter_append, hfilter, hpart, Nat.succ_mul, List.take_add, List.filter_append,
        List.map_append]

/-! Whether the calls return. -/

theorem listEntries_returns :
    ∀ (is : List ℕ) (x : State × List SmeScoreEntry), x.1.smeCount + is.length < 2 ^ 32 →
      ∃ x', is.foldlM listEntry x = .ok x' ∧ x'.1.smeCount ≤ x.1.smeCount + is.length := by
  intro is
  induction is with
  | nil =>
    intro x _
    exact ⟨x, rfl, le_rfl⟩
  | cons i is ih =>
    intro x hroom
    rw [List.length_cons] at hroom ⊢
    -- A turn enters at most one SME.
    obtain ⟨y, hy, hcount⟩ : ∃ y, listEntry x i = .ok y ∧ y.1.smeCount ≤ x.1.smeCount + 1 := by
      unfold listEntry
      cases hsme : x.1.smeByIndex i with
      | none => exact ⟨x, rfl, Nat.le_succ _⟩
      | some sme =>
        cases hdata : x.1.creditScore sme with
        | some data =>
          have hget : x.1.getOrCreateCreditData sme = .ok (x.1, data) :=
            State.getOrCreateCreditData_eq_ok.2 (.inl ⟨hdata, rfl⟩)
          refine ⟨(x.1, x.2 ++ [⟨sme, data.score⟩]), ?_, Nat.le_succ _⟩
          simp only [hget]
          rfl
        | none =>
          have hget : x.1.getOrCreateCreditData sme =
              .ok (x.1.entering [sme], x.1.freshData sme) :=
            State.getOrCreateCreditData_eq_ok.2 (.inr ⟨hdata, by omega, rfl, rfl⟩)
          refine ⟨(x.1.entering [sme], x.2 ++ [⟨sme, (x.1.freshData sme).score⟩]), ?_, le_rfl⟩
          simp only [hget]
          rfl
    obtain ⟨x', hx', hle⟩ := ih y (by omega)
    refine ⟨x', ?_, by omega⟩
    rw [List.foldlM_cons, bind_eq_ok]
    exact ⟨y, hy, hx'⟩

theorem listAllSmeStats_returns (t : State) (page : ℕ) {pageSize : ℕ} (hsize : pageSize ≤ maxSmePageSize)
    (hpage : (page + 1) * pageSize < 2 ^ 32) (hroom : t.smeCount + pageSize < 2 ^ 32) :
    ∃ t' entries, listAllSmeStats t page pageSize = .ok (t', entries) ∧
      t'.smeCount ≤ t.smeCount + pageSize := by
  have hcapped : cappedPageSize pageSize = pageSize := if_neg (by omega)
  rw [Nat.succ_mul] at hpage
  simp only [listAllSmeStats, hcapped, bind_eq_ok, okOr_eq_ok, fitU_eq_some]
  by_cases hend : t.smeCount ≤ page * pageSize
  · refine ⟨t, [], ⟨_, ⟨rfl, by omega⟩, ?_⟩, by omega⟩
    rw [if_pos hend]
    rfl
  · have hlength : (List.range' (page * pageSize)
        (min (page * pageSize + pageSize) t.smeCount - page * pageSize)).length ≤ pageSize := by
      rw [List.length_range']
      omega
    obtain ⟨x', hx', hcount⟩ := listEntries_returns (List.range' (page * pageSize)
        (min (page * pageSize + pageSize) t.smeCount - page * pageSize)) (t, [])
      (by dsimp only; omega)
    refine ⟨x'.1, x'.2, ⟨_, ⟨rfl, by omega⟩, ?_⟩, by dsimp only at hcount; omega⟩
    rw [if_neg hend, bind_eq_ok]
    refine ⟨page * pageSize + pageSize, ?_, hx'⟩
    rw [okOr_eq_ok, fitU_eq_some]
    exact ⟨rfl, by omega⟩

theorem listPages_returns {pageSize : ℕ} (hsize : pageSize ≤ maxSmePageSize) :
    ∀ {n : ℕ}, s.smeCount + n * pageSize < 2 ^ 32 →
      ∃ s' entries, listPages s pageSize n = .ok (s', entries) ∧
        s'.smeCount ≤ s.smeCount + n * pageSize := by
  intro n
  induction n with
  | zero =>
    intro _
    exact ⟨s, [], rfl, by omega⟩
  | succ n ih =>
    intro hroom
    have hmul : (n + 1) * pageSize = n * pageSize + pageSize := Nat.succ_mul n pageSize
    obtain ⟨t, before, hbefore, hcount⟩ := ih (by omega)
    obtain ⟨s', page, hpage, hlast⟩ :=
      listAllSmeStats_returns t n hsize (by omega) (by omega)
    exact ⟨s', before ++ page, listPages_succ.2 ⟨t, before, page, hbefore, hpage, rfl⟩, by omega⟩

end Pages

theorem listedOnce_initial (now : ℕ) (admin invoiceContract poolContract : Address) :
    ListedOnce (initialState now admin invoiceContract poolContract) := by
  constructor
  · intro i hi
    exact absurd hi (Nat.not_lt_zero i)
  · intro sme hsome
    cases hsome

theorem ListedOnce.filter_listPages {s s' : State} {pageSize n : ℕ} {entries : List SmeScoreEntry}
    {sme : Address} {data : CreditScoreData} (hs : ListedOnce s) (hsize : pageSize ≤ maxSmePageSize)
    (hall : s.smeCount ≤ n * pageSize) (hlist : listPages s pageSize n = .ok (s', entries))
    (hdata : s.creditScore sme = some data) :
    entries.filter (fun e => e.sme = sme) = [⟨sme, data.score⟩] := by
  have hknown := (listPages_filter hs.filled hsize hlist).2
  rw [List.take_of_length_le (by rw [hs.filled.length_smes]; exact hall)] at hknown
  have hsome : (s.creditScore sme).isSome = true := by rw [hdata]; rfl
  have hentry : s.entry sme = ⟨sme, data.score⟩ := by
    unfold State.entry
    rw [hdata]
    rfl
  -- Both sides are cut down to the SME.
  have hleft : entries.filter (fun e => e.sme = sme) =
      (entries.filter fun e => (s.creditScore e.sme).isSome).filter fun e => e.sme = sme := by
    rw [List.filter_filter]
    apply List.filter_congr
    intro e _
    by_cases he : e.sme = sme
    · simp [he, hsome]
    · simp [he]
  have hright : (s.smes.filter fun x => (s.creditScore x).isSome).filter (fun x => x = sme) =
      [sme] := by
    rw [List.filter_filter]
    have hcut : s.smes.filter (fun x => (decide (x = sme) && (s.creditScore x).isSome)) =
        s.smes.filter (· == sme) := by
      apply List.filter_congr
      intro x _
      by_cases hx : x = sme
      · simp [hx, hsome]
      · simp [hx]
    rw [hcut, List.filter_beq, hs.once sme hsome]
    rfl
  rw [hleft, hknown, List.filter_map]
  show ((s.smes.filter fun x => (s.creditScore x).isSome).filter fun x => x = sme).map s.entry = _
  rw [hright, List.map_singleton, hentry]

/-- In a run in which no SME gets its first record after a query has entered it, the pages of any
allowed size have every SME with a record exactly once, with its score.  The calls return as long as
the numbers of the pages and of the SMEs fit into their type. -/
theorem registry_lists_once (now : ℕ) (admin invoiceContract poolContract : Address) {s : State}
    (hrun : Reaches exec RegistersOnce (initialState now admin invoiceContract poolContract) s)
    (pageSize n : ℕ) (hsize : pageSize ≤ maxSmePageSize)
    (hall : s.smeCount ≤ n * pageSize) :
    (∀ s' entries, listPages s pageSize n = .ok (s', entries) →
      ∀ sme data, s.creditScore sme = some data →
        entries.filter (fun e => e.sme = sme) = [⟨sme, data.score⟩]) ∧
      (s.smeCount + n * pageSize < 2 ^ 32 →
        ∃ s' entries, listPages s pageSize n = .ok (s', entries)) := by
  have hlisted : ListedOnce s :=
    hrun.invariant (listedOnce_initial now admin invoiceContract poolContract)
      fun _ _ _ hs honce hx => hs.step honce hx
  constructor
  · intro s' entries hlist sme data hdata
    exact hlisted.filter_listPages hsize hall hlist hdata
  · intro hroom
    obtain ⟨s', entries, hlist, -⟩ := listPages_returns hsize hroom
    exact ⟨s', entries, hlist⟩

/-- Account 3 pays an invoice, account 4 does not, and both are looked up afterwards. -/
def twoSmes : List Tx :=
  [payment 7, ⟨[9], .recordDefault 8 4 500 900⟩, ⟨[], .getCreditScore 4⟩, ⟨[], .getCreditScore 3⟩]

theorem registry_lists_once_twoSmes :
    ∃ s s' entries data, twoSmes.foldlM exec sampleState = .ok s ∧
      listPages s 1 2 = .ok (s', entries) ∧ s.creditScore 4 = some data ∧
      entries.filter (fun e => e.sme = 4) = [⟨4, data.score⟩] := by
  obtain ⟨s, hs, hp⟩ := exists_of_check (x := twoSmes.foldlM exec sampleState)
    (p := fun s => s.smeCount = 2 && (s.creditScore 4).isSome) (by decide)
  rw [Bool.and_eq_true, decide_eq_true_eq] at hp
  obtain ⟨hcount, hsome⟩ := hp
  obtain ⟨data, hdata⟩ := Option.isSome_iff_exists.1 hsome
  have hrun : Reaches exec RegistersOnce sampleState s :=
    reaches_of_along .refl (by decide) hs
  obtain ⟨honce, hreturns⟩ := registry_lists_once 1000 1 2 9 hrun 1 2 (by decide) (by omega)
  obtain ⟨s', entries, hlist⟩ := hreturns (by omega)
  exact ⟨s, s', entries, data, hs, hlist, hdata, honce s' entries hlist 4 data hdata⟩

/-- Account 3 is looked up before its first payment. -/
def lookedUpFirst : List Tx := [⟨[], .getCreditScore 3⟩, payment 7]

/-- An SME that a query has entered is listed twice after its first payment. -/
theorem queried_sme_listed_twice :
    ∃ s s' entries data, lookedUpFirst.foldlM exec sampleState = .ok s ∧
      listPages s 1 2 = .ok (s', entries) ∧ s.smeCount = 2 ∧ s.creditScore 3 = some data ∧
      entries.filter (fun e => e.sme = 3) = [⟨3, data.score⟩, ⟨3, data.score⟩] := by
  obtain ⟨s, hs, hp⟩ := exists_of_check (x := lookedUpFirst.foldlM exec sampleState)
    (p := fun s => decide (s.smeCount = 2 ∧ ∃ data ∈ s.creditScore 3,
        check (listPages s 1 2) (fun x => x.2.filter (fun e => e.sme = 3) =
          [⟨3, data.score⟩, ⟨3, data.score⟩]) = true)) (by decide)
  obtain ⟨hcount, data, hdata, hpages⟩ := of_decide_eq_true hp
  obtain ⟨⟨s', entries⟩, hlist, htwice⟩ := exists_of_check hpages
  exact ⟨s, s', entries, data, hs, hlist, hcount, hdata, of_decide_eq_true htwice⟩

end Astera.CreditScore
