import Astera.Indexer.Derived
import Astera.Lib.StableSort

/-!
# Closed positions

`recomputeTrancheApy` adds up closed positions, and which of them an invoice closes is decided by
its events in the order in which they are read.  Events of one ledger are read in any order, so the
sums are a function of the table exactly where that order does not matter for any invoice.
-/

namespace Astera.Indexer

/-- The positions of an invoice that one event closes. -/
structure Closing where
  invoiceId : String
  token : String
  bucket : TrancheBucket
  deriving DecidableEq, Repr

/-- What an event closes, by the principal of its invoice. -/
def closing (dep : Option Deployed) (e : TrancheEvent) : Option Closing :=
  match e.kind with
  | .fund => none
  | .repay => dep.map fun dep => ⟨e.invoiceId, e.token,
      ⟨({} : TrancheAcc).close dep.senior (e.first - dep.senior),
        ({} : TrancheAcc).close dep.junior (e.second - dep.junior)⟩⟩
  | .default => some ⟨e.invoiceId, e.token,
      ⟨({} : TrancheAcc).close ((dep.map (·.senior)).getD e.second) (-e.second),
        ({} : TrancheAcc).close ((dep.map (·.junior)).getD e.first) (-e.first)⟩⟩

def deployedAfter (e : TrancheEvent) : Option Deployed :=
  match e.kind with
  | .fund => some ⟨e.token, e.first, e.second⟩
  | .repay | .default => none

def closings : (String → Option Deployed) → List TrancheEvent → List Closing
  | _, [] => []
  | dep, e :: es => (closing (dep e.invoiceId) e).toList ++
      closings (Function.update dep e.invoiceId (deployedAfter e)) es

def closingsOf : Option Deployed → List TrancheEvent → List Closing
  | _, [] => []
  | dep, e :: es => (closing dep e).toList ++ closingsOf (deployedAfter e) es

theorem invoiceId_of_closing {dep : Option Deployed} {e : TrancheEvent} {c : Closing}
    (h : closing dep e = some c) : c.invoiceId = e.invoiceId := by
  unfold closing at h
  split at h
  · cases h
  · obtain ⟨_, -, rfl⟩ := Option.map_eq_some_iff.1 h
    rfl
  · rw [← Option.some.inj h]

theorem group_closings (invoice : String) : ∀ (es : List TrancheEvent) (dep : String → Option Deployed),
    Grouping.group Closing.invoiceId (closings dep es) invoice =
      closingsOf (dep invoice) (es.filter fun e => e.invoiceId = invoice) := by
  intro es
  induction es with
  | nil =>
    intro dep
    rfl
  | cons e es ih =>
    intro dep
    have hhead : Grouping.group Closing.invoiceId (closing (dep e.invoiceId) e).toList invoice =
        if e.invoiceId = invoice then (closing (dep e.invoiceId) e).toList else [] := by
      unfold Grouping.group
      cases h : closing (dep e.invoiceId) e with
      | none => simp
      | some c =>
        have hc := invoiceId_of_closing h
        by_cases he : e.invoiceId = invoice
        · simp [hc, he]
        · simp [hc, he]
    have happend (l l' : List Closing) : Grouping.group Closing.invoiceId (l ++ l') invoice =
        Grouping.group Closing.invoiceId l invoice ++ Grouping.group Closing.invoiceId l' invoice :=
      List.filter_append l l'
    rw [closings, happend, hhead, ih]
    by_cases he : e.invoiceId = invoice
    · subst he
      simp [closingsOf]
    · rw [if_neg he, List.nil_append, Function.update_of_ne (Ne.symm he), List.filter_cons_of_neg]
      simpa using he

/-! ## Columns -/

inductive Column
  | principal | ret | closed
  deriving DecidableEq, Repr

def TrancheAcc.column (col : Column) (acc : TrancheAcc) : ℤ :=
  match col with
  | .principal => acc.principal
  | .ret => acc.ret
  | .closed => acc.closed

theorem TrancheAcc.eq_of_column {acc acc' : TrancheAcc} (h : ∀ col, acc.column col = acc'.column col) :
    acc = acc' := by
  have hprincipal : acc.principal = acc'.principal := h .principal
  have hret : acc.ret = acc'.ret := h .ret
  have hclosed : acc.closed = acc'.closed := Int.ofNat.inj (h .closed)
  cases acc
  cases acc'
  simp_all

theorem TrancheAcc.column_close (acc : TrancheAcc) (principal ret : ℤ) (col : Column) :
    (acc.close principal ret).column col =
      acc.column col + (({} : TrancheAcc).close principal ret).column col := by
  cases col
  · simp [TrancheAcc.column, TrancheAcc.close]
  · simp [TrancheAcc.column, TrancheAcc.close]
  · simp [TrancheAcc.column, TrancheAcc.close]

/-- What a closing adds to a count of a token. -/
def Closing.share (token : String) (cls : TrancheClass) (col : Column) (c : Closing) : ℤ :=
  if c.token = token then (c.bucket.of cls).column col else 0

namespace TrancheFold

def count (x : TrancheFold) (token : String) (cls : TrancheClass) (col : Column) : ℤ :=
  ((x.bucket token).of cls).column col

theorem deployed_turn (x : TrancheFold) (e : TrancheEvent) :
    (x.turn e).deployed.get = Function.update x.deployed.get e.invoiceId (deployedAfter e) := by
  funext invoice
  rw [Function.update_apply]
  unfold turn deployedAfter
  cases e.kind with
  | fund => exact Store.get_set ..
  | repay =>
    cases hdep : x.deployed.get e.invoiceId with
    | none =>
      simp only
      split_ifs with hi
      · rw [hi, hdep]
      · rfl
    | some dep => exact Store.get_remove ..
  | default => exact Store.get_remove ..

theorem agg_turn (x : TrancheFold) (e : TrancheEvent) (token : String) :
    ((x.turn e).agg.get token).isSome ↔ (x.agg.get token).isSome ∨
      ∃ c ∈ closing (x.deployed.get e.invoiceId) e, c.token = token := by
  have hset (b : TrancheBucket) : ((x.agg.set e.token b).get token).isSome ↔
      (x.agg.get token).isSome ∨ e.token = token := by
    rw [Store.get_set]
    split_ifs with ht
    · simp [ht]
    · simp [Ne.symm ht]
  unfold turn closing
  cases e.kind with
  | fund => simp
  | repay =>
    cases x.deployed.get e.invoiceId with
    | none => simp
    | some dep => simp [hset]
  | default => simp [hset]

theorem count_turn (x : TrancheFold) (e : TrancheEvent) (token : String) (cls : TrancheClass)
    (col : Column) :
    (x.turn e).count token cls col = x.count token cls col +
      ((closing (x.deployed.get e.invoiceId) e).toList.map (Closing.share token cls col)).sum := by
  have hset (senior senior' junior junior' : ℤ) (x' : TrancheFold)
      (hx' : x'.agg = x.agg.set e.token ⟨(x.bucket e.token).senior.close senior senior',
        (x.bucket e.token).junior.close junior junior'⟩) :
      x'.count token cls col = x.count token cls col +
        Closing.share token cls col ⟨e.invoiceId, e.token,
          ⟨({} : TrancheAcc).close senior senior', ({} : TrancheAcc).close junior junior'⟩⟩ := by
    unfold count Closing.share bucket
    rw [hx', Store.get_set]
    by_cases ht : token = e.token
    · subst ht
      rw [if_pos rfl, if_pos rfl]
      cases cls
      · exact TrancheAcc.column_close ..
      · exact TrancheAcc.column_close ..
    · rw [if_neg ht, if_neg (Ne.symm ht), add_zero]
  unfold turn closing
  cases e.kind with
  | fund => simp [count, bucket]
  | repay =>
    cases x.deployed.get e.invoiceId with
    | none => simp
    | some dep =>
      simp only [Option.map_some, Option.toList_some, List.map_singleton, List.sum_singleton]
      exact hset _ _ _ _ _ rfl
  | default =>
    simp only [Option.toList_some, List.map_singleton, List.sum_singleton]
    exact hset _ _ _ _ _ rfl

theorem agg_foldl (token : String) : ∀ (es : List TrancheEvent) (x : TrancheFold),
    ((es.foldl turn x).agg.get token).isSome ↔ (x.agg.get token).isSome ∨
      ∃ c ∈ closings x.deployed.get es, c.token = token := by
  intro es
  induction es with
  | nil => simp [closings]
  | cons e es ih =>
    intro x
    rw [List.foldl_cons, ih, agg_turn, deployed_turn, closings]
    simp only [List.mem_append, Option.mem_toList, Option.mem_def, or_assoc, or_and_right, exists_or]

theorem count_foldl (token : String) (cls : TrancheClass) (col : Column) :
    ∀ (es : List TrancheEvent) (x : TrancheFold), (es.foldl turn x).count token cls col =
      x.count token cls col +
        ((closings x.deployed.get es).map (Closing.share token cls col)).sum := by
  intro es
  induction es with
  | nil => simp [closings]
  | cons e es ih =>
    intro x
    rw [List.foldl_cons, ih, count_turn, deployed_turn, closings, List.map_append, List.sum_append,
      add_assoc]

end TrancheFold

def closingsIn (rows : List IndexedEvent) : List Closing :=
  closings (fun _ => none) (rows.filterMap readTranche)

def columnSum (cs : List Closing) (token : String) (cls : TrancheClass) (col : Column) : ℤ :=
  (cs.map (Closing.share token cls col)).sum

/-- The row that some rows of the event table have for a token and a class. -/
def trancheComputed (rows : List IndexedEvent) (key : String × TrancheClass) :
    Option TrancheApyRow :=
  ((foldTranches rows).agg.get key.1).map fun b => trancheRow (b.of key.2)

theorem agg_foldTranches (rows : List IndexedEvent) (token : String) :
    ((foldTranches rows).agg.get token).isSome ↔ ∃ c ∈ closingsIn rows, c.token = token := by
  have h := TrancheFold.agg_foldl token (rows.filterMap readTranche) {}
  simpa [foldTranches, closingsIn, funext Store.get_empty] using h

theorem count_foldTranches (rows : List IndexedEvent) (token : String) (cls : TrancheClass)
    (col : Column) :
    (foldTranches rows).count token cls col = columnSum (closingsIn rows) token cls col := by
  have h := TrancheFold.count_foldl token cls col (rows.filterMap readTranche) {}
  have hzero : ({} : TrancheFold).count token cls col = 0 := by
    cases cls
    · cases col <;> rfl
    · cases col <;> rfl
  rwa [hzero, zero_add] at h

theorem closed_of_closing {dep : Option Deployed} {e : TrancheEvent} {c : Closing}
    (h : closing dep e = some c) (cls : TrancheClass) : (c.bucket.of cls).column .closed = 1 := by
  unfold closing at h
  split at h
  · cases h
  · obtain ⟨_, -, rfl⟩ := Option.map_eq_some_iff.1 h
    cases cls <;> rfl
  · rw [← Option.some.inj h]
    cases cls <;> rfl

theorem closed_pos_iff (token : String) (cls : TrancheClass) :
    ∀ (es : List TrancheEvent) (dep : String → Option Deployed),
      0 ≤ columnSum (closings dep es) token cls .closed ∧
        (0 < columnSum (closings dep es) token cls .closed ↔
          ∃ c ∈ closings dep es, c.token = token) := by
  intro es
  induction es with
  | nil => simp [closings, columnSum]
  | cons e es ih =>
    intro dep
    obtain ⟨hnonneg, hpos⟩ := ih (Function.update dep e.invoiceId (deployedAfter e))
    unfold columnSum at hnonneg hpos ⊢
    rw [closings]
    cases h : closing (dep e.invoiceId) e with
    | none =>
      simp only [Option.toList_none, List.nil_append]
      exact ⟨hnonneg, hpos⟩
    | some c =>
      simp only [Option.toList_some, List.singleton_append, List.map_cons, List.sum_cons,
        List.mem_cons, exists_eq_or_imp, ← hpos]
      have hshare : Closing.share token cls .closed c = if c.token = token then 1 else 0 := by
        rw [← closed_of_closing h cls]
        rfl
      rw [hshare]
      by_cases ht : c.token = token
      · simp only [ht, if_true, true_or, iff_true]
        exact ⟨by omega, by omega⟩
      · simp only [ht, if_false, zero_add, false_or, and_true]
        exact hnonneg

theorem trancheComputed_eq_iff {rows rows' : List IndexedEvent} :
    (∀ key, trancheComputed rows key = trancheComputed rows' key) ↔
      ∀ token cls col, columnSum (closingsIn rows) token cls col =
        columnSum (closingsIn rows') token cls col := by
  constructor
  · intro h token cls col
    have hkey := h (token, cls)
    rw [← count_foldTranches, ← count_foldTranches]
    unfold TrancheFold.count TrancheFold.bucket
    unfold trancheComputed at hkey
    cases hb : (foldTranches rows).agg.get token with
    | none =>
      rw [hb] at hkey
      rw [Option.map_eq_none_iff.1 hkey.symm]
    | some b =>
      rw [hb] at hkey
      obtain ⟨b', hb', hrow⟩ := Option.map_eq_some_iff.1 hkey.symm
      rw [hb']
      cases col with
      | principal => exact congrArg TrancheApyRow.realizedPrincipal hrow.symm
      | ret => exact congrArg TrancheApyRow.realizedReturn hrow.symm
      | closed => exact congrArg (fun row => (row.closedPositions : ℤ)) hrow.symm
  · rintro h ⟨token, cls⟩
    have hacc : ((foldTranches rows).bucket token).of cls = ((foldTranches rows').bucket token).of cls :=
      TrancheAcc.eq_of_column fun col => by
        have hcol := h token cls col
        rwa [← count_foldTranches, ← count_foldTranches] at hcol
    have hthere : ((foldTranches rows).agg.get token).isSome ↔
        ((foldTranches rows').agg.get token).isSome := by
      rw [agg_foldTranches, agg_foldTranches]
      unfold closingsIn
      rw [← (closed_pos_iff token cls _ _).2, ← (closed_pos_iff token cls _ _).2]
      exact iff_of_eq (congrArg (0 < ·) (h token cls .closed))
    unfold trancheComputed
    unfold TrancheFold.bucket at hacc
    cases hb : (foldTranches rows).agg.get token with
    | none =>
      rw [hb] at hthere
      cases hb' : (foldTranches rows').agg.get token with
      | none => rfl
      | some b' =>
        rw [hb'] at hthere
        exact absurd (hthere.2 rfl) (by simp)
    | some b =>
      rw [hb] at hthere hacc
      cases hb' : (foldTranches rows').agg.get token with
      | none =>
        rw [hb'] at hthere
        exact absurd (hthere.1 rfl) (by simp)
      | some b' =>
        rw [hb'] at hacc
        exact congrArg (fun acc => some (trancheRow acc)) hacc

/-! ## The order within a ledger -/

def isOf (invoice : String) (row : IndexedEvent) : Bool :=
  (readTranche row).any fun e => e.invoiceId = invoice

/-- It does not matter in which order the events of one ledger are read, as far as the positions of
one invoice go. -/
def OrderFree (events : List IndexedEvent) (invoice : String) : Prop :=
  ∀ rows rows', AnswersAsc events (fun row => ofTranches row && isOf invoice row) rows →
    AnswersAsc events (fun row => ofTranches row && isOf invoice row) rows' →
    ∀ token cls col,
      columnSum (closingsOf none (rows.filterMap readTranche)) token cls col =
        columnSum (closingsOf none (rows'.filterMap readTranche)) token cls col

theorem filter_filterMap_readTranche (invoice : String) (rows : List IndexedEvent) :
    (rows.filterMap readTranche).filter (fun e => e.invoiceId = invoice) =
      (rows.filter (isOf invoice)).filterMap readTranche := by
  induction rows with
  | nil => rfl
  | cons row rows ih =>
    have hof : isOf invoice row = (readTranche row).any fun e => e.invoiceId = invoice := rfl
    cases h : readTranche row with
    | none =>
      rw [h] at hof
      rw [List.filterMap_cons_none h, List.filter_cons_of_neg (by simp [hof]), ih]
    | some e =>
      rw [h] at hof
      rw [List.filterMap_cons_some h, List.filter_cons, List.filter_cons, ih, hof]
      simp only [Option.any_some]
      split_ifs
      · rw [List.filterMap_cons_some h]
      · rfl

theorem group_closingsIn (invoice : String) (rows : List IndexedEvent) :
    Grouping.group Closing.invoiceId (closingsIn rows) invoice =
      closingsOf none ((rows.filter (isOf invoice)).filterMap readTranche) := by
  unfold closingsIn
  rw [group_closings, filter_filterMap_readTranche]

theorem isOf_of_ne {invoice invoice' : String} {row : IndexedEvent} (hne : invoice' ≠ invoice)
    (h : isOf invoice row) : ¬ isOf invoice' row := by
  unfold isOf at *
  cases hrow : readTranche row with
  | none => simp
  | some e =>
    rw [hrow] at h
    have he : e.invoiceId = invoice := by simpa using h
    simp [he, Ne.symm hne]

theorem AnswersAsc.filter {events rows : List IndexedEvent} {p : IndexedEvent → Bool}
    (h : AnswersAsc events p rows) (q : IndexedEvent → Bool) :
    AnswersAsc events (fun row => p row && q row) (rows.filter q) := by
  refine ⟨?_, h.2.filter q⟩
  have hperm := h.1.filter q
  rw [List.filter_filter] at hperm
  simpa only [Bool.and_comm] using hperm

theorem exists_answersAsc {events : List IndexedEvent} {invoice : String} {rows : List IndexedEvent}
    (h : AnswersAsc events (fun row => ofTranches row && isOf invoice row) rows) :
    let others := (events.filter ofTranches).filter fun row => !isOf invoice row
    AnswersAsc events ofTranches
        (StableSort.ascending IndexedEvent.ledgerSequence (others ++ rows)) ∧
      (StableSort.ascending IndexedEvent.ledgerSequence (others ++ rows)).filter (isOf invoice) =
        rows ∧
      ∀ invoice' ≠ invoice,
        (StableSort.ascending IndexedEvent.ledgerSequence (others ++ rows)).filter
            (isOf invoice') =
          StableSort.ascending IndexedEvent.ledgerSequence (others.filter (isOf invoice')) := by
  intro others
  have hmine : ∀ row ∈ rows, isOf invoice row := fun row hrow => by
    have hmem := List.mem_filter.1 (h.1.mem_iff.1 hrow)
    exact (Bool.and_eq_true_iff.1 hmem.2).2
  refine ⟨⟨(StableSort.perm_ascending _ _).trans ?_, StableSort.pairwise_ascending _ _⟩, ?_, ?_⟩
  · have hrows : rows.Perm ((events.filter ofTranches).filter (isOf invoice)) := by
      refine h.1.trans (List.Perm.of_eq ?_)
      rw [List.filter_filter]
      exact List.filter_congr fun row _ => Bool.and_comm _ _
    exact ((List.Perm.append_left others hrows).trans List.perm_append_comm).trans
      (List.filter_append_perm _ _)
  · rw [StableSort.filter_ascending_comm, List.filter_append]
    have hnone : others.filter (isOf invoice) = [] := by
      rw [List.filter_filter]
      exact List.filter_eq_nil_iff.2 fun row _ => by simp
    rw [hnone, List.nil_append, List.filter_eq_self.2 hmine]
    exact StableSort.ascending_of_pairwise h.2
  · intro invoice' hne
    rw [StableSort.filter_ascending_comm, List.filter_append]
    have hnone : rows.filter (isOf invoice') = [] :=
      List.filter_eq_nil_iff.2 fun row hrow => isOf_of_ne hne (hmine row hrow)
    rw [hnone, List.append_nil]

theorem answers_agree_iff {events : List IndexedEvent} :
    (∀ rows rows', AnswersAsc events ofTranches rows → AnswersAsc events ofTranches rows' →
      ∀ token cls col, columnSum (closingsIn rows) token cls col =
        columnSum (closingsIn rows') token cls col) ↔
      ∀ invoice, OrderFree events invoice := by
  constructor
  · intro h invoice rows rows' hrows hrows' token cls col
    obtain ⟨hanswer, hmine, hothers⟩ := exists_answersAsc hrows
    obtain ⟨hanswer', hmine', hothers'⟩ := exists_answersAsc hrows'
    have hsum := Grouping.sum_group_eq Closing.invoiceId (Closing.share token cls col)
      (k := invoice) (h _ _ hanswer hanswer' token cls col) fun invoice' hne => by
        rw [group_closingsIn, group_closingsIn, hothers invoice' hne, hothers' invoice' hne]
    rw [group_closingsIn, group_closingsIn, hmine, hmine'] at hsum
    exact hsum
  · intro h rows rows' hrows hrows' token cls col
    refine Grouping.sum_eq_of_groups Closing.invoiceId _ fun invoice => ?_
    rw [group_closingsIn, group_closingsIn]
    exact h invoice _ _ (hrows.filter _) (hrows'.filter _) token cls col

end Astera.Indexer
