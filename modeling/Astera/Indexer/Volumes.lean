import Astera.Indexer.Derived

/-!
# Created volumes

What `recomputeSmeRiskSignals` writes for an SME is decided by its created invoices, in whatever
order they are read, and no share of the volume exceeds the whole.
-/

namespace Astera.Indexer

def createdIn (rows : List IndexedEvent) : List CreatedInvoice := rows.filterMap readCreated

def volume (invoices : List CreatedInvoice) : ℤ := (invoices.map (·.amount)).sum

def ofOwner (sme : String) (invoices : List CreatedInvoice) : List CreatedInvoice :=
  invoices.filter fun invoice => invoice.owner = sme

def ofDebtor (debtor : String) (invoices : List CreatedInvoice) : List CreatedInvoice :=
  invoices.filter fun invoice => invoice.debtor = debtor

/-- The row that some rows of the event table have for an SME. -/
def smeComputed (rows : List IndexedEvent) (sme : String) : Option SmeRiskSignalRow :=
  ((foldCreated rows).get sme).bind riskSignal

theorem get_foldl_addCreated (sme : String) :
    ∀ (invoices : List CreatedInvoice) (bySme : Store String SmeAcc),
      (invoices.foldl addCreated bySme).get sme =
        if ofOwner sme invoices = [] then bySme.get sme
        else some ((ofOwner sme invoices).foldl SmeAcc.add ((bySme.get sme).getD {})) := by
  intro invoices
  induction invoices with
  | nil =>
    intro bySme
    rfl
  | cons invoice invoices ih =>
    intro bySme
    rw [List.foldl_cons, ih]
    unfold addCreated
    by_cases hown : invoice.owner = sme
    · subst hown
      have hcons : ofOwner invoice.owner (invoice :: invoices) =
          invoice :: ofOwner invoice.owner invoices := by
        simp [ofOwner]
      rw [hcons, Store.get_set_self, if_neg (List.cons_ne_nil _ _), List.foldl_cons]
      split_ifs with hnil
      · rw [hnil, List.foldl_nil]
      · rfl
    · have hcons : ofOwner sme (invoice :: invoices) = ofOwner sme invoices := by
        simp [ofOwner, hown]
      rw [hcons, Store.get_set_of_ne _ _ (Ne.symm hown)]

theorem total_foldl : ∀ (invoices : List CreatedInvoice) (acc : SmeAcc),
    (invoices.foldl SmeAcc.add acc).total = acc.total + volume invoices := by
  intro invoices
  induction invoices with
  | nil => simp [volume]
  | cons invoice invoices ih =>
    intro acc
    rw [List.foldl_cons, ih]
    simp [SmeAcc.add, volume, add_assoc]

theorem amounts_foldl : ∀ (invoices : List CreatedInvoice) (acc : SmeAcc),
    (invoices.foldl SmeAcc.add acc).amounts = acc.amounts ++ invoices.map (·.amount) := by
  intro invoices
  induction invoices with
  | nil => simp
  | cons invoice invoices ih =>
    intro acc
    rw [List.foldl_cons, ih]
    simp [SmeAcc.add]

theorem byDebtor_foldl (debtor : String) : ∀ (invoices : List CreatedInvoice) (acc : SmeAcc),
    (invoices.foldl SmeAcc.add acc).byDebtor.get debtor =
      if ofDebtor debtor invoices = [] then acc.byDebtor.get debtor
      else some ((acc.byDebtor.get debtor).getD 0 + volume (ofDebtor debtor invoices)) := by
  intro invoices
  induction invoices with
  | nil =>
    intro acc
    rfl
  | cons invoice invoices ih =>
    intro acc
    rw [List.foldl_cons, ih]
    unfold SmeAcc.add
    by_cases hdebtor : invoice.debtor = debtor
    · subst hdebtor
      have hcons : ofDebtor invoice.debtor (invoice :: invoices) =
          invoice :: ofDebtor invoice.debtor invoices := by
        simp [ofDebtor]
      rw [hcons, Store.get_set_self, if_neg (List.cons_ne_nil _ _)]
      split_ifs with hnil
      · simp [hnil, volume]
      · simp [volume, add_assoc]
    · have hcons : ofDebtor debtor (invoice :: invoices) = ofDebtor debtor invoices := by
        simp [ofDebtor, hdebtor]
      rw [hcons, Store.get_set_of_ne _ _ (Ne.symm hdebtor)]

theorem foldl_largest : ∀ (entries : List (Sigma fun _ : String => ℤ)) (x : ℤ),
    let largest := entries.foldl
      (fun largest entry => if largest < entry.2 then entry.2 else largest) x
    x ≤ largest ∧ (∀ e ∈ entries, e.2 ≤ largest) ∧ (largest = x ∨ ∃ e ∈ entries, e.2 = largest) := by
  intro entries
  induction entries with
  | nil => simp
  | cons e entries ih =>
    intro x
    obtain ⟨hx, hall, hsome⟩ := ih (if x < e.2 then e.2 else x)
    simp only [List.foldl_cons, List.forall_mem_cons, List.exists_mem_cons_iff]
    split_ifs at hx hall hsome ⊢ with hlt
    · exact ⟨hlt.le.trans hx, ⟨hx, hall⟩, .inr (hsome.imp_left Eq.symm)⟩
    · exact ⟨hx, ⟨(not_lt.1 hlt).trans hx, hall⟩, hsome.imp_right .inr⟩

theorem maxDebtorVolume_spec (acc : SmeAcc) :
    0 ≤ maxDebtorVolume acc ∧
      (∀ debtor x, acc.byDebtor.get debtor = some x → x ≤ maxDebtorVolume acc) ∧
      (maxDebtorVolume acc = 0 ∨
        ∃ debtor, acc.byDebtor.get debtor = some (maxDebtorVolume acc)) := by
  obtain ⟨hzero, hall, hsome⟩ := foldl_largest acc.byDebtor.entries 0
  refine ⟨hzero, fun debtor x hx => hall ⟨debtor, x⟩ (AList.mem_lookup_iff.1 hx),
    hsome.imp_right ?_⟩
  rintro ⟨e, he, hlargest⟩
  exact ⟨e.1, (Store.get_of_mem_entries he).trans (congrArg some hlargest)⟩

theorem maxDebtorVolume_le {acc acc' : SmeAcc}
    (h : ∀ debtor, acc.byDebtor.get debtor = acc'.byDebtor.get debtor) :
    maxDebtorVolume acc ≤ maxDebtorVolume acc' := by
  obtain ⟨-, -, hsome⟩ := maxDebtorVolume_spec acc
  obtain ⟨hzero', hall', -⟩ := maxDebtorVolume_spec acc'
  rcases hsome with hzero | ⟨debtor, hget⟩
  · rwa [hzero]
  · exact hall' debtor _ (h debtor ▸ hget)

theorem foldl_large (threshold : ℤ) : ∀ (amounts : List ℤ) (x : ℤ),
    amounts.foldl (fun volume amount => if threshold ≤ amount then volume + amount else volume) x =
      x + (amounts.filter fun amount => threshold ≤ amount).sum := by
  intro amounts
  induction amounts with
  | nil => simp
  | cons amount amounts ih =>
    intro x
    rw [List.foldl_cons, ih]
    split_ifs with hlarge
    · simp [hlarge, add_assoc]
    · simp [hlarge]

theorem largeVolume_eq (acc : SmeAcc) :
    largeVolume acc = (acc.amounts.filter fun amount =>
      acc.total.tdiv acc.amounts.length * 3 ≤ amount).sum := by
  unfold largeVolume
  rw [foldl_large, zero_add]

theorem riskSignal_perm {invoices invoices' : List CreatedInvoice} (h : invoices.Perm invoices') :
    riskSignal (invoices.foldl SmeAcc.add {}) = riskSignal (invoices'.foldl SmeAcc.add {}) := by
  have htotal : (invoices.foldl SmeAcc.add {}).total = (invoices'.foldl SmeAcc.add {}).total := by
    rw [total_foldl, total_foldl]
    exact congrArg _ (h.map _).sum_eq
  have hamounts : (invoices.foldl SmeAcc.add {}).amounts.Perm
      (invoices'.foldl SmeAcc.add {}).amounts := by
    rw [amounts_foldl, amounts_foldl]
    exact (h.map _).append_left _
  have hdebtor (debtor : String) : (invoices.foldl SmeAcc.add {}).byDebtor.get debtor =
      (invoices'.foldl SmeAcc.add {}).byDebtor.get debtor := by
    have hof : (ofDebtor debtor invoices).Perm (ofDebtor debtor invoices') := h.filter _
    have hnil : ofDebtor debtor invoices = [] ↔ ofDebtor debtor invoices' = [] :=
      ⟨fun hnil => List.nil_perm.1 (hnil ▸ hof), fun hnil => List.perm_nil.1 (hnil ▸ hof)⟩
    rw [byDebtor_foldl, byDebtor_foldl, if_congr hnil rfl rfl]
    simp only [volume, (hof.map _).sum_eq]
  have hmax : maxDebtorVolume (invoices.foldl SmeAcc.add {}) =
      maxDebtorVolume (invoices'.foldl SmeAcc.add {}) :=
    le_antisymm (maxDebtorVolume_le hdebtor) (maxDebtorVolume_le fun debtor => (hdebtor debtor).symm)
  have hlarge : largeVolume (invoices.foldl SmeAcc.add {}) =
      largeVolume (invoices'.foldl SmeAcc.add {}) := by
    rw [largeVolume_eq, largeVolume_eq, htotal, hamounts.length_eq]
    exact (hamounts.filter _).sum_eq
  unfold riskSignal
  rw [htotal, hmax, hlarge]

theorem smeComputed_perm {rows rows' : List IndexedEvent} (h : rows.Perm rows') (sme : String) :
    smeComputed rows sme = smeComputed rows' sme := by
  have hof : (ofOwner sme (createdIn rows)).Perm (ofOwner sme (createdIn rows')) :=
    (h.filterMap _).filter _
  have hnil : ofOwner sme (createdIn rows) = [] ↔ ofOwner sme (createdIn rows') = [] :=
    ⟨fun hnil => List.nil_perm.1 (hnil ▸ hof), fun hnil => List.perm_nil.1 (hnil ▸ hof)⟩
  unfold smeComputed foldCreated
  rw [get_foldl_addCreated, get_foldl_addCreated]
  simp only [Store.get_empty, Option.getD_none]
  change (if ofOwner sme (createdIn rows) = [] then none else _).bind riskSignal =
    (if ofOwner sme (createdIn rows') = [] then none else _).bind riskSignal
  split_ifs with hrows hrows' hrows'
  · rfl
  · exact absurd (hnil.1 hrows) hrows'
  · exact absurd (hnil.2 hrows') hrows
  · exact riskSignal_perm hof

theorem smeComputed_isSome {rows : List IndexedEvent} {sme : String} :
    (smeComputed rows sme).isSome ↔ volume (ofOwner sme (createdIn rows)) ≠ 0 := by
  unfold smeComputed foldCreated
  rw [get_foldl_addCreated]
  simp only [Store.get_empty, Option.getD_none]
  change ((if ofOwner sme (createdIn rows) = [] then none
    else some ((ofOwner sme (createdIn rows)).foldl SmeAcc.add {})).bind riskSignal).isSome ↔ _
  split_ifs with hnil
  · simp [hnil, volume]
  · unfold riskSignal
    rw [Option.bind_some, total_foldl, zero_add]
    split_ifs with hzero
    · simp [hzero]
    · simp [hzero]

theorem bps_of_part {part whole : ℤ} (hpart : 0 ≤ part) (hle : part ≤ whole) (hwhole : whole ≠ 0) :
    0 ≤ (part * 10000).tdiv whole ∧ (part * 10000).tdiv whole ≤ 10000 := by
  have hpos : 0 < whole := lt_of_le_of_ne (hpart.trans hle) hwhole.symm
  rw [Int.tdiv_eq_ediv_of_nonneg (by omega)]
  refine ⟨Int.ediv_nonneg (by omega) hpos.le, Int.ediv_le_of_le_mul hpos ?_⟩
  calc part * 10000 ≤ whole * 10000 := by omega
    _ = 10000 * whole := mul_comm ..

theorem sum_le_volume {invoices : List CreatedInvoice} (h : ∀ i ∈ invoices, 0 ≤ i.amount)
    {amounts : List ℤ} (hsub : amounts.Sublist (invoices.map (·.amount))) :
    0 ≤ amounts.sum ∧ amounts.sum ≤ volume invoices := by
  have hall : ∀ x ∈ invoices.map (·.amount), 0 ≤ x := by
    intro x hx
    obtain ⟨i, hi, rfl⟩ := List.mem_map.1 hx
    exact h i hi
  exact ⟨List.sum_nonneg fun x hx => hall x (hsub.subset hx), hsub.sum_le_sum hall⟩

/-- The numbers of a row are basis points. -/
def SmeRiskSignalRow.InRange (row : SmeRiskSignalRow) : Prop :=
  (0 ≤ row.debtorConcentrationBps ∧ row.debtorConcentrationBps ≤ 10000) ∧
    0 ≤ row.invoiceSizeRiskBps ∧ row.invoiceSizeRiskBps ≤ 10000

theorem inRange_of_riskSignal {invoices : List CreatedInvoice} (h : ∀ i ∈ invoices, 0 ≤ i.amount)
    {row : SmeRiskSignalRow} (hrow : riskSignal (invoices.foldl SmeAcc.add {}) = some row) :
    row.InRange := by
  have htotal : (invoices.foldl SmeAcc.add {}).total = volume invoices := by
    rw [total_foldl, zero_add]
  have hvolume := (sum_le_volume h (List.Sublist.refl _)).1
  unfold riskSignal at hrow
  split_ifs at hrow with hzero
  obtain rfl := Option.some.inj hrow
  refine ⟨bps_of_part (maxDebtorVolume_spec _).1 ?_ hzero, ?_⟩
  · rw [htotal]
    rcases (maxDebtorVolume_spec (invoices.foldl SmeAcc.add {})).2.2 with hmax | ⟨debtor, hget⟩
    · rwa [hmax]
    · rw [byDebtor_foldl] at hget
      split_ifs at hget with hnil
      · simp at hget
      · have hsub : (ofDebtor debtor invoices).Sublist invoices := List.filter_sublist
        rw [← Option.some.inj hget]
        exact le_of_eq_of_le (zero_add _) (sum_le_volume h (hsub.map (·.amount))).2
  · have hsub : ((invoices.foldl SmeAcc.add {}).amounts.filter fun amount =>
        (invoices.foldl SmeAcc.add {}).total.tdiv
          (invoices.foldl SmeAcc.add {}).amounts.length * 3 ≤ amount).Sublist
        (invoices.map (·.amount)) := by
      rw [amounts_foldl]
      exact List.filter_sublist
    have hlarge := sum_le_volume h hsub
    rw [← largeVolume_eq, ← htotal] at hlarge
    exact bps_of_part hlarge.1 hlarge.2 hzero

theorem inRange_of_smeComputed {rows : List IndexedEvent}
    (h : ∀ i ∈ createdIn rows, 0 ≤ i.amount) {sme : String} {row : SmeRiskSignalRow}
    (hrow : smeComputed rows sme = some row) : row.InRange := by
  unfold smeComputed foldCreated at hrow
  rw [get_foldl_addCreated] at hrow
  split_ifs at hrow with hnil
  · simp at hrow
  · have hown : ∀ i ∈ ofOwner sme (createdIn rows), 0 ≤ i.amount := fun i hi =>
      h i (List.mem_of_mem_filter hi)
    exact inRange_of_riskSignal hown hrow

end Astera.Indexer
