import Astera.Indexer.Positions
import Astera.Indexer.Volumes

/-!
# Derived tables

A recomputation writes a row for every key that the events still have, and takes none away.  After
it the table is a function of the events exactly where every key that had a row still has one, and
for the tranches where the order of the events of one ledger does not matter.
-/

namespace Astera.Indexer

open Fallible Transition

variable {db db' : Database} {rows : List IndexedEvent}

theorem get_foldlM_upsert {K κ V R : Type} [DecidableEq K] [DecidableEq κ] (key : κ → K)
    (row : κ → V → Option R)
    {upsert : Store κ R → (Sigma fun _ : K => V) → Except DbFault (Store κ R)}
    (hstep : ∀ t e t', upsert t e = .ok t' → ∀ k, t'.get k =
      if key k = e.1 then (row k e.2).or (t.get k) else t.get k) (k : κ) :
    ∀ {entries : List (Sigma fun _ : K => V)} {t t' : Store κ R}, entries.NodupKeys →
      entries.foldlM upsert t = .ok t' →
      t'.get k = ((entries.dlookup (key k)).bind (row k)).or (t.get k) := by
  intro entries
  induction entries with
  | nil =>
    intro t t' _ h
    rw [List.foldlM_nil, pure_eq_ok] at h
    simp [h]
  | cons e entries ih =>
    intro t t' hnodup h
    obtain ⟨hnot, hnodup⟩ := List.nodupKeys_cons.1 hnodup
    rw [List.foldlM_cons, bind_eq_ok] at h
    obtain ⟨u, hu, h⟩ := h
    rw [ih hnodup h, hstep t e u hu k]
    split_ifs with hk
    · have hnone : entries.dlookup (key k) = none := List.dlookup_eq_none.2 (hk ▸ hnot)
      rw [hnone, Option.bind_none, Option.none_or]
      obtain ⟨_, v⟩ := e
      obtain rfl := hk
      rw [List.dlookup_cons_eq, Option.bind_some]
    · obtain ⟨_, v⟩ := e
      rw [List.dlookup_cons_ne _ _ hk]

theorem get_upsertTranches {table table' : TrancheTable} {entry : Sigma fun _ : String => TrancheBucket}
    (h : upsertTranches table entry = .ok table') (key : String × TrancheClass) :
    table'.get key = if key.1 = entry.1 then
      (some (trancheRow (entry.2.of key.2))).or (table.get key) else table.get key := by
  simp only [upsertTranches, List.foldlM_cons, List.foldlM_nil, bind_eq_ok, require_eq_ok, pure_eq_ok,
    exists_unit] at h
  obtain ⟨_, ⟨-, rfl⟩, _, ⟨-, rfl⟩, rfl⟩ := h
  obtain ⟨token, cls⟩ := key
  rw [Store.get_set, Store.get_set]
  by_cases ht : token = entry.1
  · cases cls
    · simp [ht]
    · simp [ht]
  · simp [ht]

theorem get_upsertSme {table table' : SmeTable} {entry : Sigma fun _ : String => SmeAcc}
    (h : upsertSme table entry = .ok table') (sme : String) :
    table'.get sme = if sme = entry.1 then (riskSignal entry.2).or (table.get sme)
      else table.get sme := by
  unfold upsertSme at h
  split at h
  next hrow =>
    rw [pure_eq_ok] at h
    simp [hrow, h]
  next row hrow =>
    simp only [bind_eq_ok, require_eq_ok, pure_eq_ok, exists_unit] at h
    obtain ⟨-, rfl⟩ := h
    rw [Store.get_set, hrow, Option.some_or]

theorem get_recomputeTrancheApy {table table' : TrancheTable}
    (h : recomputeTrancheApy table rows = .ok table') (key : String × TrancheClass) :
    table'.get key = (trancheComputed (rows.take rowLimit) key).or (table.get key) := by
  have hget := get_foldlM_upsert Prod.fst (fun key b => some (trancheRow (b.of key.2)))
    (fun _ _ _ ht key => get_upsertTranches ht key) key
    (foldTranches (rows.take rowLimit)).agg.nodupKeys h
  have hcomputed : trancheComputed (rows.take rowLimit) key =
      ((foldTranches (rows.take rowLimit)).agg.get key.1).bind fun b =>
        some (trancheRow (b.of key.2)) := Option.map_eq_bind
  rw [hget, hcomputed]
  rfl

theorem get_recomputeSmeRiskSignals {table table' : SmeTable}
    (h : recomputeSmeRiskSignals table rows = .ok table') (sme : String) :
    table'.get sme = (smeComputed (rows.take rowLimit) sme).or (table.get sme) :=
  get_foldlM_upsert id (fun _ acc => riskSignal acc) (fun _ _ _ ht sme => get_upsertSme ht sme) sme
    (foldCreated (rows.take rowLimit)).nodupKeys h

/-! ## One recomputation -/

namespace DbStep

/-- At most 100 000 events count for the recomputation. -/
def Within (db : Database) : DbStep → Prop
  | .recomputeTrancheApy _ => (db.events.filter ofTranches).length ≤ rowLimit
  | .recomputeSmeRiskSignals _ => (db.events.filter ofCreated).length ≤ rowLimit
  | .storeEvents _ | .rollbackFrom _ => True

/-- Whatever the database answers, the recomputed table has exactly the rows that the events give.
-/
def Derived (db : Database) : DbStep → Prop
  | .recomputeTrancheApy _ => ∀ rows, AnswersAsc db.events ofTranches rows →
      ∀ key, db.trancheApy.get key = trancheComputed rows key
  | .recomputeSmeRiskSignals _ => ∀ rows, AnswersAsc db.events ofCreated rows →
      ∀ sme, db.smeRiskSignals.get sme = smeComputed rows sme
  | .storeEvents _ | .rollbackFrom _ => True

/-- No row is out of date: every token that has one has a closed position, and every SME that has
one has created a volume other than zero.  Of no invoice are there two events in one ledger whose
order matters. -/
def Current (db : Database) : DbStep → Prop
  | .recomputeTrancheApy rows =>
    (∀ key, (db.trancheApy.get key).isSome → ∃ c ∈ closingsIn rows, c.token = key.1) ∧
      ∀ invoice, OrderFree db.events invoice
  | .recomputeSmeRiskSignals rows => ∀ sme, (db.smeRiskSignals.get sme).isSome →
      volume (ofOwner sme (createdIn rows)) ≠ 0
  | .storeEvents _ | .rollbackFrom _ => True

/-- The invoices of a batch have no negative amounts. -/
def Nonneg : DbStep → Prop
  | .storeEvents events => ∀ e ∈ events, ofCreated e → ∀ i, readCreated e = some i → 0 ≤ i.amount
  | _ => True

end DbStep

theorem or_eq_left {R : Type} {new old : Option R} (h : old.isSome → new.isSome) :
    new.or old = new := by
  cases new with
  | some row => rfl
  | none =>
    cases old with
    | none => rfl
    | some row => cases h rfl

/-- A table that keeps its old rows where no new ones are written is the one that every answer gives
exactly when all old rows have new ones and the answers agree. -/
theorem or_eq_iff {α κ R : Type} {old : κ → Option R} {computed : α → κ → Option R}
    {Answer : α → Prop} {a : α} (ha : Answer a) :
    (∀ b, Answer b → ∀ k, (computed a k).or (old k) = computed b k) ↔
      (∀ k, (old k).isSome → (computed a k).isSome) ∧
        ∀ b, Answer b → ∀ k, computed a k = computed b k := by
  constructor
  · intro h
    have hold (k : κ) (hsome : (old k).isSome) : (computed a k).isSome := by
      rw [← h a ha k, Option.isSome_or, hsome, Bool.or_true]
    refine ⟨hold, fun b hb k => ?_⟩
    rw [← h b hb k, or_eq_left (hold k)]
  · rintro ⟨hold, hagree⟩ b hb k
    rw [or_eq_left (hold k), hagree b hb k]

theorem take_answer {events rows : List IndexedEvent} {p : IndexedEvent → Bool}
    (h : AnswersAsc events p rows) (hle : (events.filter p).length ≤ rowLimit) :
    rows.take rowLimit = rows :=
  List.take_of_length_le (h.1.length_eq ▸ hle)

theorem trancheComputed_isSome {key : String × TrancheClass} :
    (trancheComputed rows key).isSome ↔ ∃ c ∈ closingsIn rows, c.token = key.1 := by
  unfold trancheComputed
  rw [Option.isSome_map]
  exact agg_foldTranches rows key.1

theorem derived_recomputeTrancheApy (hanswer : AnswersAsc db.events ofTranches rows)
    (hle : (db.events.filter ofTranches).length ≤ rowLimit)
    (h : execDb db (.recomputeTrancheApy rows) = .ok db') :
    (DbStep.recomputeTrancheApy rows).Derived db' ↔ (DbStep.recomputeTrancheApy rows).Current db := by
  obtain ⟨table, htable, rfl⟩ := (map_eq_ok ..).1 h
  have hget (key : String × TrancheClass) :
      table.get key = (trancheComputed rows key).or (db.trancheApy.get key) := by
    rw [get_recomputeTrancheApy htable key, take_answer hanswer hle]
  have hagree : (∀ rows', AnswersAsc db.events ofTranches rows' →
      ∀ key, trancheComputed rows key = trancheComputed rows' key) ↔
        ∀ invoice, OrderFree db.events invoice := by
    rw [← answers_agree_iff]
    constructor
    · intro hall rows₁ rows₂ h₁ h₂
      exact trancheComputed_eq_iff.1 fun key => (hall rows₁ h₁ key).symm.trans (hall rows₂ h₂ key)
    · exact fun hall rows' hrows' => trancheComputed_eq_iff.2 (hall rows rows' hanswer hrows')
  unfold DbStep.Derived DbStep.Current
  simp only [hget]
  rw [or_eq_iff hanswer, hagree]
  simp only [trancheComputed_isSome]

theorem derived_recomputeSmeRiskSignals (hanswer : AnswersAsc db.events ofCreated rows)
    (hle : (db.events.filter ofCreated).length ≤ rowLimit)
    (h : execDb db (.recomputeSmeRiskSignals rows) = .ok db') :
    (DbStep.recomputeSmeRiskSignals rows).Derived db' ↔
      (DbStep.recomputeSmeRiskSignals rows).Current db := by
  obtain ⟨table, htable, rfl⟩ := (map_eq_ok ..).1 h
  have hget (sme : String) :
      table.get sme = (smeComputed rows sme).or (db.smeRiskSignals.get sme) := by
    rw [get_recomputeSmeRiskSignals htable sme, take_answer hanswer hle]
  have hagree : ∀ rows', AnswersAsc db.events ofCreated rows' →
      ∀ sme, smeComputed rows sme = smeComputed rows' sme := fun rows' hrows' sme =>
    smeComputed_perm (hanswer.1.trans hrows'.1.symm) sme
  unfold DbStep.Derived DbStep.Current
  simp only [hget]
  rw [or_eq_iff hanswer, and_iff_left hagree]
  simp only [smeComputed_isSome]

theorem derived_iff_current {step : DbStep} (hanswered : step.Answered db)
    (hwithin : step.Within db) (h : execDb db step = .ok db') :
    step.Derived db' ↔ step.Current db := by
  cases step with
  | storeEvents _ => exact Iff.rfl
  | rollbackFrom _ => exact Iff.rfl
  | recomputeTrancheApy rows => exact derived_recomputeTrancheApy hanswered hwithin h
  | recomputeSmeRiskSignals rows => exact derived_recomputeSmeRiskSignals hanswered hwithin h

/-- No stored invoice has a negative amount, and the rows of the SMEs are in basis points. -/
structure Database.InRange (db : Database) : Prop where
  amounts : ∀ e ∈ db.events, ofCreated e → ∀ i, readCreated e = some i → 0 ≤ i.amount
  rows : ∀ sme row, db.smeRiskSignals.get sme = some row → row.InRange

theorem Database.InRange.exec {step : DbStep} (hdb : db.InRange) (hanswered : step.Answered db)
    (hnonneg : step.Nonneg) (h : execDb db step = .ok db') :
    db'.InRange := by
  cases step with
  | storeEvents events =>
    obtain rfl := Except.ok.inj h
    exact ⟨fun e he => (of_mem_storeEvents he).elim (hdb.amounts e) (hnonneg e), hdb.rows⟩
  | rollbackFrom fromLedger =>
    obtain rfl := Except.ok.inj h
    exact ⟨fun e he => hdb.amounts e (mem_deleteFrom.1 he).1, hdb.rows⟩
  | recomputeTrancheApy rows =>
    obtain ⟨table, -, rfl⟩ := (map_eq_ok ..).1 h
    exact ⟨hdb.amounts, hdb.rows⟩
  | recomputeSmeRiskSignals rows =>
    obtain ⟨table, htable, rfl⟩ := (map_eq_ok ..).1 h
    refine ⟨hdb.amounts, fun sme row hrow => ?_⟩
    have hamounts : ∀ i ∈ createdIn (rows.take rowLimit), 0 ≤ i.amount := by
      intro i hi
      obtain ⟨e, he, hread⟩ := List.mem_filterMap.1 hi
      have hmem := List.mem_filter.1 (hanswered.1.mem_iff.1 (List.mem_of_mem_take he))
      exact hdb.amounts e hmem.1 hmem.2 i hread
    change table.get sme = some row at hrow
    rw [get_recomputeSmeRiskSignals htable] at hrow
    rcases Option.or_eq_some_iff.1 hrow with hnew | ⟨-, hold⟩
    · exact inRange_of_smeComputed hamounts hnew
    · exact hdb.rows sme row hold

/-! ## Every run -/

/-- Over a run from empty tables every recomputation leaves exactly the rows that the events give,
if and only if none finds a row that is out of date; and without negative amounts the rows of the
SMEs are in basis points in any case. -/
theorem derived_tables_iff {steps : List DbStep} {db : Database}
    (hanswered : Along execDb (fun db step => step.Answered db ∧ step.Within db) {} steps)
    (hrun : steps.foldlM execDb {} = .ok db) :
    (Along execDb (fun before step => ∀ after, execDb before step = .ok after → step.Derived after)
        {} steps ↔ Along execDb (fun before step => step.Current before) {} steps) ∧
      ((∀ step ∈ steps, step.Nonneg) →
        ∀ sme row, db.smeRiskSignals.get sme = some row → row.InRange) := by
  constructor
  · refine Along.congr (fun before step after hok h => ?_) hanswered hrun
    have hiff := derived_iff_current hok.1 hok.2 h
    constructor
    · exact fun hall => hiff.1 (hall after h)
    · intro hcurrent after' h'
      obtain rfl : after = after' := Except.ok.inj (h.symm.trans h')
      exact hiff.2 hcurrent
  · intro hnonneg
    have hok := hanswered.and (along_of_forall_mem fun step hstep (_ : Database) => hnonneg step hstep)
    have hstart : ({} : Database).InRange :=
      ⟨fun e he => absurd he List.not_mem_nil, fun sme row hrow => by cases hrow⟩
    exact (foldlM_along (fun _ _ _ hdb hok h => hdb.exec hok.1.1 hok.2 h) hok hstart hrun).rows

def sampleCreated : IndexedEvent where
  id := "5-1"
  contractType := "invoice"
  eventType := "created"
  value := .arr [.num "1", .str "SME", .num "300", .str "uri", .num "0", .str "Debtor"]
  ledgerSequence := 5

/-- The invoice is indexed and the signals are computed. -/
def indexed : List DbStep := [.storeEvents [sampleCreated], .recomputeSmeRiskSignals [sampleCreated]]

/-- Ledger 5 is rolled back, and the signals are computed again. -/
def rolledBack : List DbStep := indexed ++ [.rollbackFrom 5, .recomputeSmeRiskSignals []]

theorem events_recomputeSmeRiskSignals (h : execDb db (.recomputeSmeRiskSignals rows) = .ok db') :
    db'.events = db.events := by
  obtain ⟨table, -, rfl⟩ := (map_eq_ok ..).1 h
  rfl

theorem along_indexed {steps : List DbStep}
    (h : ∀ db : Database, db.events = [sampleCreated] →
      Along execDb (fun db step => step.Answered db ∧ step.Within db) db steps) :
    Along execDb (fun db step => step.Answered db ∧ step.Within db) {} (indexed ++ steps) := by
  refine ⟨⟨trivial, trivial⟩, fun db₁ h₁ => ?_⟩
  obtain rfl := Except.ok.inj h₁
  have hcreated : [sampleCreated].filter ofCreated = [sampleCreated] := rfl
  refine ⟨⟨⟨List.Perm.of_eq hcreated.symm, List.pairwise_singleton _ _⟩, ?_⟩, fun db₂ h₂ => ?_⟩
  · show ([sampleCreated].filter ofCreated).length ≤ rowLimit
    decide
  · exact h db₂ (events_recomputeSmeRiskSignals h₂)

theorem along_rolledBack :
    Along execDb (fun db step => step.Answered db ∧ step.Within db) {} rolledBack := by
  refine along_indexed fun db hdb => ⟨⟨trivial, trivial⟩, fun db₁ h₁ => ?_⟩
  have hnil : db₁.events = [] := by
    obtain rfl := Except.ok.inj h₁
    show deleteFrom db.events 5 = []
    rw [hdb]
    rfl
  refine ⟨⟨⟨?_, List.Pairwise.nil⟩, ?_⟩, fun _ _ => trivial⟩
  · rw [hnil]
    exact List.Perm.nil
  · show (db₁.events.filter ofCreated).length ≤ rowLimit
    rw [hnil]
    decide

theorem derived_tables_iff_indexed :
    ∃ db : Database, indexed.foldlM execDb {} = .ok db ∧
      db.smeRiskSignals.get "SME" = some ⟨10000, 0, 300⟩ ∧
      Along execDb (fun before step => ∀ after, execDb before step = .ok after → step.Derived after)
        {} indexed := by
  obtain ⟨db, hdb, hp⟩ := exists_of_check (x := indexed.foldlM execDb {})
    (p := fun db => db.smeRiskSignals.get "SME" = some ⟨10000, 0, 300⟩) (by decide)
  have hanswered : Along execDb (fun db step => step.Answered db ∧ step.Within db) {} (indexed ++ []) :=
    along_indexed fun _ _ => trivial
  rw [List.append_nil] at hanswered
  refine ⟨db, hdb, of_decide_eq_true hp, (derived_tables_iff hanswered hdb).1.2
    ⟨trivial, fun db₁ h₁ => ⟨fun sme hsome => ?_, fun _ _ => trivial⟩⟩⟩
  obtain rfl := Except.ok.inj h₁
  cases hsome

/-- After ledger 5 was rolled back no event is left, and the SME still has its row. -/
theorem stale_signal_remains :
    Along execDb (fun db step => step.Answered db ∧ step.Within db) {} rolledBack ∧
      ∃ db : Database, rolledBack.foldlM execDb {} = .ok db ∧ db.events = [] ∧
        db.smeRiskSignals.get "SME" = some ⟨10000, 0, 300⟩ ∧
        ¬ (DbStep.recomputeSmeRiskSignals []).Derived db := by
  obtain ⟨db, hdb, hp⟩ := exists_of_check (x := rolledBack.foldlM execDb {})
    (p := fun db => db.events.isEmpty && db.smeRiskSignals.get "SME" = some ⟨10000, 0, 300⟩)
    (by decide)
  obtain ⟨hempty, hrow⟩ := Bool.and_eq_true_iff.1 hp
  have hnil := List.isEmpty_iff.1 hempty
  have hrow := of_decide_eq_true hrow
  refine ⟨along_rolledBack, db, hdb, hnil, hrow, fun hderived => ?_⟩
  have hnone := hderived [] (by rw [hnil]; exact ⟨List.Perm.nil, List.Pairwise.nil⟩) "SME"
  rw [hrow] at hnone
  cases hnone

end Astera.Indexer
