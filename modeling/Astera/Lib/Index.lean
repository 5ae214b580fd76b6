import Astera.Lib.Store

/-!
# Secondary indexes

A table lists, for every label, the keys of a store's values with that label.  It is an index when
it lists no key twice, only keys of stored values with the right label, and every live value.  It is
kept by four moves: a value joins, is rewritten, leaves the table, or leaves the store.
-/

namespace Index

variable {K V L : Type} [DecidableEq K]

/-- The table lists every live value under its label, once, and nothing that is not stored. -/
structure IsIndex (live : V → Bool) (label : V → L) (m : Store K V) (table : L → List K) : Prop where
  nodup : ∀ l, (table l).Nodup
  stored : ∀ l k, k ∈ table l → ∃ v, m.get k = some v ∧ label v = l
  listed : ∀ k v, m.get k = some v → live v = true → k ∈ table (label v)

variable {live : V → Bool} {label : V → L} {m : Store K V} {table : L → List K} {k : K} {v v' : V}

theorem isIndex_empty : IsIndex live label (∅ : Store K V) fun _ => [] :=
  ⟨fun _ => List.nodup_nil, fun _ _ h => by simp at h, fun _ _ h => by simp at h⟩

/-- A key is listed under no label but that of its value. -/
theorem IsIndex.notMem_of_ne (h : IsIndex live label m table) (hk : m.get k = some v) {l : L}
    (hl : l ≠ label v) : k ∉ table l := by
  intro hmem
  obtain ⟨w, hw, rfl⟩ := h.stored l k hmem
  rw [hk] at hw
  exact hl (by rw [Option.some.inj hw])

/-- A value is rewritten under the same label. -/
theorem IsIndex.rewrite (h : IsIndex live label m table) (hk : m.get k = some v)
    (hlabel : label v' = label v) (hlive : live v' = true → live v = true) :
    IsIndex live label (m.set k v') table := by
  refine ⟨h.nodup, fun l i hi => ?_, fun i w hw hwlive => ?_⟩
  · obtain ⟨w, hw, hwl⟩ := h.stored l i hi
    rw [Store.get_set]
    split
    · rename_i hik
      subst hik
      rw [hk] at hw
      obtain rfl := Option.some.inj hw
      exact ⟨v', rfl, hlabel.trans hwl⟩
    · exact ⟨w, hw, hwl⟩
  · rw [Store.get_set] at hw
    split at hw
    · rename_i hik
      subst hik
      obtain rfl := Option.some.inj hw
      rw [hlabel]
      exact h.listed i v hk (hlive hwlive)
    · exact h.listed i w hw hwlive

/-- A new value that is not live joins the store only. -/
theorem IsIndex.store (h : IsIndex live label m table) (hk : m.get k = none) (hdead : live v = false) :
    IsIndex live label (m.set k v) table := by
  refine ⟨h.nodup, fun l i hi => ?_, fun i w hw hwlive => ?_⟩
  · obtain ⟨w, hw, hwl⟩ := h.stored l i hi
    have hik : i ≠ k := by
      rintro rfl
      simp [hk] at hw
    exact ⟨w, by rw [Store.get_set_of_ne _ _ hik, hw], hwl⟩
  · rw [Store.get_set] at hw
    split at hw
    · obtain rfl := Option.some.inj hw
      simp [hdead] at hwlive
    · exact h.listed i w hw hwlive

/-- A value that is not listed leaves the store. -/
theorem IsIndex.remove (h : IsIndex live label m table) (hk : m.get k = some v)
    (hout : k ∉ table (label v)) : IsIndex live label (m.remove k) table := by
  refine ⟨h.nodup, fun l i hi => ?_, fun i w hw hwlive => ?_⟩
  · obtain ⟨w, hw, hwl⟩ := h.stored l i hi
    rw [Store.get_remove]
    split
    · rename_i hik
      subst hik
      rw [hk] at hw
      obtain rfl := Option.some.inj hw
      exact absurd (hwl ▸ hi) hout
    · exact ⟨w, hw, hwl⟩
  · exact h.listed i w (Store.get_of_get_remove hw) hwlive

variable [DecidableEq L]

theorem IsIndex.join (h : IsIndex live label m table) (hk : m.get k = none) (v : V) :
    IsIndex live label (m.set k v)
      (Function.update table (label v) (table (label v) ++ [k])) := by
  have hout : ∀ l, k ∉ table l := by
    intro l hmem
    obtain ⟨w, hw, -⟩ := h.stored l k hmem
    simp [hk] at hw
  refine ⟨fun l => ?_, fun l i hi => ?_, fun i w hw hwlive => ?_⟩
  · by_cases hl : l = label v
    · subst hl
      rw [Function.update_self, List.nodup_append]
      refine ⟨h.nodup _, List.nodup_singleton k, fun a ha b hb => ?_⟩
      rw [List.mem_singleton.1 hb]
      rintro rfl
      exact hout _ ha
    · rw [Function.update_of_ne hl]
      exact h.nodup l
  · have hcases : i ∈ table l ∨ (i = k ∧ l = label v) := by
      by_cases hl : l = label v
      · subst hl
        rw [Function.update_self, List.mem_append, List.mem_singleton] at hi
        exact hi.imp_right fun hik => ⟨hik, rfl⟩
      · rw [Function.update_of_ne hl] at hi
        exact .inl hi
    rcases hcases with hold | ⟨rfl, rfl⟩
    · obtain ⟨w, hw, hwl⟩ := h.stored l i hold
      have hik : i ≠ k := by
        rintro rfl
        exact hout l hold
      exact ⟨w, by rw [Store.get_set_of_ne _ _ hik, hw], hwl⟩
    · exact ⟨v, Store.get_set_self _ _ _, rfl⟩
  · rw [Store.get_set] at hw
    split at hw
    · rename_i hik
      subst hik
      obtain rfl := Option.some.inj hw
      simp
    · have hmem := h.listed i w hw hwlive
      by_cases hl : label w = label v
      · rw [hl, Function.update_self, List.mem_append]
        exact .inl (hl ▸ hmem)
      · rw [Function.update_of_ne hl]
        exact hmem

/-- The table without a key under its label. -/
def unlist (table : L → List K) (l : L) (k : K) : L → List K :=
  Function.update table l ((table l).filter fun i => i ≠ k)

theorem IsIndex.mem_unlist (h : IsIndex live label m table) (hk : m.get k = some v) (l : L) (i : K) :
    i ∈ unlist table (label v) k l ↔ i ∈ table l ∧ i ≠ k := by
  unfold unlist
  by_cases hl : l = label v
  · subst hl
    simp
  · rw [Function.update_of_ne hl]
    refine ⟨fun hi => ⟨hi, ?_⟩, fun hi => hi.1⟩
    rintro rfl
    exact h.notMem_of_ne hk hl hi

/-- A value that is not live leaves the table. -/
theorem IsIndex.unlist (h : IsIndex live label m table) (hk : m.get k = some v)
    (hdead : live v = false) : IsIndex live label m (unlist table (label v) k) := by
  refine ⟨fun l => ?_, fun l i hi => ?_, fun i w hw hwlive => ?_⟩
  · unfold Index.unlist
    by_cases hl : l = label v
    · subst hl
      rw [Function.update_self]
      exact (h.nodup _).filter _
    · rw [Function.update_of_ne hl]
      exact h.nodup l
  · rw [h.mem_unlist hk] at hi
    exact h.stored l i hi.1
  · rw [h.mem_unlist hk]
    refine ⟨h.listed i w hw hwlive, ?_⟩
    rintro rfl
    rw [hk] at hw
    obtain rfl := Option.some.inj hw
    simp [hdead] at hwlive

/-- A value is rewritten, is not live any more, and leaves the table. -/
theorem IsIndex.leave (h : IsIndex live label m table) (hk : m.get k = some v)
    (hlabel : label v' = label v) (hdead : live v' = false) :
    IsIndex live label (m.set k v') (Index.unlist table (label v) k) := by
  have hrewrite : IsIndex live label (m.set k v') table :=
    h.rewrite hk hlabel fun hlive => by simp [hdead] at hlive
  rw [← hlabel]
  exact hrewrite.unlist (Store.get_set_self _ _ _) hdead

/-- A value that is not live leaves the table and the store. -/
theorem IsIndex.leave_remove (h : IsIndex live label m table) (hk : m.get k = some v)
    (hdead : live v = false) : IsIndex live label (m.remove k) (Index.unlist table (label v) k) :=
  (h.unlist hk hdead).remove hk fun hmem => ((h.mem_unlist hk _ _).1 hmem).2 rfl

/-- The table lists the live values and nothing else. -/
structure IsExact (live : V → Bool) (label : V → L) (m : Store K V) (table : L → List K) : Prop
    extends IsIndex live label m table where
  alive : ∀ l k v, k ∈ table l → m.get k = some v → live v = true

omit [DecidableEq L] in
theorem isExact_empty : IsExact live label (∅ : Store K V) fun _ => [] :=
  ⟨isIndex_empty, fun _ _ _ h => by simp at h⟩

omit [DecidableEq L] in
theorem IsExact.mem_iff (h : IsExact live label m table) (l : L) (k : K) :
    k ∈ table l ↔ ∃ v, m.get k = some v ∧ label v = l ∧ live v = true := by
  constructor
  · intro hmem
    obtain ⟨v, hv, hl⟩ := h.stored l k hmem
    exact ⟨v, hv, hl, h.alive l k v hmem hv⟩
  · rintro ⟨v, hv, rfl, hlive⟩
    exact h.listed k v hv hlive

omit [DecidableEq L] in
/-- What a write leaves of an exact index, when the written value is live or not listed. -/
private theorem IsExact.alive_set {table' : L → List K} (h : IsExact live label m table)
    (hsub : ∀ l i, i ∈ table' l → i ≠ k → i ∈ table l)
    (hnew : ∀ l, k ∈ table' l → live v = true) :
    ∀ l i w, i ∈ table' l → (m.set k v).get i = some w → live w = true := by
  intro l i w hmem hget
  rw [Store.get_set] at hget
  split_ifs at hget with hik
  · obtain rfl := Option.some.inj hget
    exact hnew l (hik ▸ hmem)
  · exact h.alive l i w (hsub l i hmem hik) hget

omit [DecidableEq L] in
theorem IsExact.store (h : IsExact live label m table) (hk : m.get k = none)
    (hdead : live v = false) : IsExact live label (m.set k v) table := by
  refine ⟨h.toIsIndex.store hk hdead, h.alive_set (fun _ _ hmem _ => hmem) fun l hmem => ?_⟩
  obtain ⟨w, hw, -⟩ := h.stored l k hmem
  simp [hk] at hw

theorem IsExact.join (h : IsExact live label m table) (hk : m.get k = none)
    (hlive : live v = true) :
    IsExact live label (m.set k v)
      (Function.update table (label v) (table (label v) ++ [k])) := by
  refine ⟨h.toIsIndex.join hk v, h.alive_set (fun l i hmem hik => ?_) fun _ _ => hlive⟩
  by_cases hl : l = label v
  · subst hl
    rw [Function.update_self, List.mem_append, List.mem_singleton] at hmem
    exact hmem.resolve_right hik
  · rwa [Function.update_of_ne hl] at hmem

omit [DecidableEq L] in
theorem IsExact.rewrite (h : IsExact live label m table) (hk : m.get k = some v)
    (hlabel : label v' = label v) (hold : live v = true) (hnew : live v' = true) :
    IsExact live label (m.set k v') table :=
  ⟨h.toIsIndex.rewrite hk hlabel fun _ => hold, h.alive_set (fun _ _ hmem _ => hmem) fun _ _ => hnew⟩

theorem IsExact.leave (h : IsExact live label m table) (hk : m.get k = some v)
    (hlabel : label v' = label v) (hdead : live v' = false) :
    IsExact live label (m.set k v') (Index.unlist table (label v) k) := by
  refine ⟨h.toIsIndex.leave hk hlabel hdead, h.alive_set (fun l i hmem _ => ?_) fun l hmem => ?_⟩
  · exact ((h.mem_unlist hk l i).1 hmem).1
  · exact absurd rfl ((h.mem_unlist hk l k).1 hmem).2

omit [DecidableEq L] in
/-- A quantity of the live values with one label, summed along the table. -/
theorem IsIndex.sum_eq_total {f : K → V → ℤ} {l : L} (h : IsIndex live label m table)
    (hf : ∀ k v, m.get k = some v → f k v ≠ 0 → live v = true ∧ label v = l) :
    ((table l).map (m.part f)).sum = m.total f := by
  apply Store.sum_part_eq_total (h.nodup l)
  intro k v hget hne
  obtain ⟨hlive, rfl⟩ := hf k v hget hne
  exact h.listed k v hget hlive

end Index

/-! ## Lists that mirror a set

A registry keeps a list of the keys with some property beside the property itself.  The list mirrors
the property when it has exactly these keys, each once: a key is added at the end, or filtered out.
-/

namespace Mirror

variable {α : Type}

/-- The list has exactly the keys with the property, each once. -/
structure Mirrors (l : List α) (P : α → Prop) : Prop where
  nodup : l.Nodup
  mem_iff : ∀ a, a ∈ l ↔ P a

variable {l : List α} {P P' : α → Prop} {a : α}

theorem mirrors_nil (hnone : ∀ a, ¬ P a) : Mirrors [] P :=
  ⟨List.nodup_nil, fun a => iff_of_false List.not_mem_nil (hnone a)⟩

/-- A key that has the property joins at the end. -/
theorem Mirrors.append (h : Mirrors l P) (hnew : ¬ P a) (hP : ∀ b, P' b ↔ b = a ∨ P b) :
    Mirrors (l ++ [a]) P' := by
  refine ⟨?_, fun b => ?_⟩
  · refine h.nodup.append (List.nodup_singleton a) (List.disjoint_singleton.2 fun hmem => ?_)
    exact hnew ((h.mem_iff a).1 hmem)
  · rw [List.mem_append, List.mem_singleton, h.mem_iff, hP]
    exact or_comm

variable [DecidableEq α]

/-- Add a key at the end unless it is there. -/
def add (l : List α) (a : α) : List α := if a ∈ l then l else l ++ [a]

def drop (l : List α) (a : α) : List α := l.filter fun b => b ≠ a

@[simp]
theorem mem_add (l : List α) (a b : α) : b ∈ add l a ↔ b = a ∨ b ∈ l := by
  unfold add
  split_ifs with ha
  · refine ⟨.inr, ?_⟩
    rintro (rfl | hb)
    · exact ha
    · exact hb
  · rw [List.mem_append, List.mem_singleton]
    exact or_comm

@[simp]
theorem mem_drop (l : List α) (a b : α) : b ∈ drop l a ↔ b ∈ l ∧ b ≠ a := by
  simp [drop]

theorem Mirrors.add (h : Mirrors l P) (hP : ∀ b, P' b ↔ b = a ∨ P b) :
    Mirrors (add l a) P' := by
  refine ⟨?_, fun b => by rw [mem_add, h.mem_iff, hP]⟩
  unfold Mirror.add
  split_ifs with ha
  · exact h.nodup
  · exact h.nodup.append (List.nodup_singleton a) (List.disjoint_singleton.2 ha)

theorem Mirrors.drop (h : Mirrors l P) (hP : ∀ b, P' b ↔ P b ∧ b ≠ a) :
    Mirrors (drop l a) P' :=
  ⟨h.nodup.filter _, fun b => by rw [mem_drop, h.mem_iff, hP]⟩

end Mirror
