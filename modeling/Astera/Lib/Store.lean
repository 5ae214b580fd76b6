import Mathlib.Data.List.AList
import Mathlib.Algebra.BigOperators.Ring.Finset
import Mathlib.Algebra.Order.BigOperators.Group.List
import Mathlib.Tactic.Linarith
import Mathlib.Tactic.Ring

/-!
# Finite stores

A store is a finite map.  Besides the lookups after a write there is `total`, the sum of a quantity
over all entries: a write changes it by the new entry less the entry it replaces.
-/

/-- A finite map from `K` to `V`. -/
abbrev Store (K V : Type) := AList fun _ : K => V

namespace Store

variable {K V : Type} [DecidableEq K]
variable {k : K} {f g : K → V → ℤ} {m : Store K V} {v : V}

def get (m : Store K V) (k : K) : Option V := m.lookup k

def set (m : Store K V) (k : K) (v : V) : Store K V := m.insert k v

def remove (m : Store K V) (k : K) : Store K V := m.erase k

def total (f : K → V → ℤ) (m : Store K V) : ℤ := (m.entries.map fun e => f e.1 e.2).sum

/-- The contribution of one key to a total. -/
def part (f : K → V → ℤ) (m : Store K V) (k : K) : ℤ := ((m.get k).map (f k)).getD 0

theorem get_set (m : Store K V) (k k' : K) (v : V) :
    (m.set k v).get k' = if k' = k then some v else m.get k' := by
  unfold get set
  split_ifs with h
  · subst h
    exact AList.lookup_insert m
  · exact AList.lookup_insert_ne h

@[simp]
theorem get_set_self (m : Store K V) (k : K) (v : V) : (m.set k v).get k = some v := by
  rw [get_set, if_pos rfl]

theorem get_set_of_ne (m : Store K V) {k k' : K} (v : V) (h : k' ≠ k) :
    (m.set k v).get k' = m.get k' := by
  rw [get_set, if_neg h]

theorem get_remove (m : Store K V) (k k' : K) :
    (m.remove k).get k' = if k' = k then none else m.get k' := by
  unfold get remove
  split_ifs with h
  · subst h
    exact AList.lookup_erase k' m
  · exact AList.lookup_erase_ne h

theorem get_of_get_remove {k k' : K} (h : (m.remove k).get k' = some v) :
    m.get k' = some v := by
  rw [get_remove] at h
  split_ifs at h
  exact h

/-- What holds of the entries and of a written one holds of the entries after the write. -/
theorem forall_get_set {P : K → V → Prop} (hm : ∀ k' v', m.get k' = some v' → P k' v') (hv : P k v) :
    ∀ k' v', (m.set k v).get k' = some v' → P k' v' := by
  intro k' v' hget
  rw [get_set] at hget
  split_ifs at hget with hk
  · rw [hk, ← Option.some.inj hget]
    exact hv
  · exact hm k' v' hget

@[simp]
theorem get_empty (k : K) : (∅ : Store K V).get k = none := AList.lookup_empty k

theorem get_of_entries_nil (hm : m.entries = []) (k : K) : m.get k = none := by
  simp [get, AList.lookup, hm]

theorem length_set_of_get_none (hk : m.get k = none) (v : V) :
    (m.set k v).entries.length = m.entries.length + 1 := by
  unfold set
  rw [AList.entries_insert_of_notMem (AList.lookup_eq_none.1 hk), List.length_cons]

/-! ## Totals -/

omit [DecidableEq K] in
@[simp]
theorem total_empty (f : K → V → ℤ) : total f (∅ : Store K V) = 0 := rfl

/-- Splitting the entry of a key off a list of entries with distinct keys. -/
private theorem sum_kerase (f : K → V → ℤ) (k : K) :
    ∀ l : List (Sigma fun _ : K => V), l.NodupKeys →
      (l.map fun e => f e.1 e.2).sum =
        ((l.dlookup k).map (f k)).getD 0 + ((l.kerase k).map fun e => f e.1 e.2).sum
  | [], _ => by simp
  | ⟨k', v⟩ :: l, hl => by
      rw [List.nodupKeys_cons] at hl
      by_cases h : k = k'
      · subst h
        simp
      · have ih := sum_kerase f k l hl.2
        rw [List.dlookup_cons_ne _ _ h, List.kerase_cons_ne h, List.map_cons, List.sum_cons,
          List.map_cons, List.sum_cons, ih]
        ring

theorem total_eq_part_add_remove (f : K → V → ℤ) (m : Store K V) (k : K) :
    m.total f = m.part f k + (m.remove k).total f :=
  sum_kerase f k m.entries m.nodupKeys

theorem total_remove (f : K → V → ℤ) (m : Store K V) (k : K) :
    (m.remove k).total f = m.total f - m.part f k := by
  rw [total_eq_part_add_remove f m k]
  ring

theorem total_set (f : K → V → ℤ) (m : Store K V) (k : K) (v : V) :
    (m.set k v).total f = m.total f - m.part f k + f k v := by
  have h : (m.set k v).total f = f k v + (m.remove k).total f := by
    simp [total, set, remove, AList.entries_insert]
    rfl
  rw [h, total_remove]
  ring

theorem part_of_get (h : m.get k = some v) :
    m.part f k = f k v := by
  simp [part, h]

theorem part_of_get_none (h : m.get k = none) :
    m.part f k = 0 := by
  simp [part, h]

theorem get_of_mem_entries {e : Sigma fun _ : K => V} (h : e ∈ m.entries) :
    m.get e.1 = some e.2 :=
  List.mem_dlookup m.nodupKeys (by simpa using h)

/-- Two quantities that agree on the entries have the same total. -/
theorem total_congr (h : ∀ k v, m.get k = some v → f k v = g k v) : m.total f = m.total g := by
  unfold total
  congr 1
  apply List.map_congr_left
  intro e he
  exact h e.1 e.2 (get_of_mem_entries he)

/-- Two quantities that agree on the entries of all keys but `k`. -/
theorem total_of_agree (h : ∀ k' v, k' ≠ k → m.get k' = some v → g k' v = f k' v) :
    m.total g = m.total f - m.part f k + m.part g k := by
  have hrest : (m.remove k).total g = (m.remove k).total f := by
    apply total_congr
    intro k' v hget
    rw [get_remove] at hget
    split_ifs at hget with hk
    exact h k' v hk hget
  rw [total_eq_part_add_remove g m k, hrest, total_remove]
  ring

theorem total_set_of_agree (v : V) (h : ∀ k' v', k' ≠ k → m.get k' = some v' → g k' v' = f k' v') :
    (m.set k v).total g = m.total f - m.part f k + g k v := by
  rw [total_set, total_of_agree h]
  ring

theorem total_remove_of_agree (h : ∀ k' v', k' ≠ k → m.get k' = some v' → g k' v' = f k' v') :
    (m.remove k).total g = m.total f - m.part f k := by
  rw [total_remove, total_of_agree h]
  ring

theorem total_nonneg (h : ∀ k v, m.get k = some v → 0 ≤ f k v) : 0 ≤ m.total f := by
  unfold total
  apply List.sum_nonneg
  intro x hx
  obtain ⟨e, he, rfl⟩ := List.mem_map.1 hx
  exact h e.1 e.2 (get_of_mem_entries he)

omit [DecidableEq K] in
theorem total_sub (f g : K → V → ℤ) (m : Store K V) :
    m.total (fun k v => f k v - g k v) = m.total f - m.total g := by
  unfold total
  induction m.entries with
  | nil => rfl
  | cons e l ih =>
    simp only [List.map_cons, List.sum_cons, ih]
    ring

theorem part_le_total (h : ∀ k v, m.get k = some v → 0 ≤ f k v) (k : K) :
    m.part f k ≤ m.total f := by
  have hrest : 0 ≤ (m.remove k).total f :=
    total_nonneg fun k' v hget => h k' v (get_of_get_remove hget)
  rw [total_eq_part_add_remove f m k]
  linarith

/-- A quantity that is never more than another one has the same total exactly when they agree on the
entries. -/
theorem total_eq_iff_of_le (hle : ∀ k v, m.get k = some v → f k v ≤ g k v) :
    m.total f = m.total g ↔ ∀ k v, m.get k = some v → f k v = g k v := by
  constructor
  · intro htotal k v hget
    have hpart := part_le_total (f := fun k v => g k v - f k v) (m := m)
      (fun k v hget => sub_nonneg.2 (hle k v hget)) k
    rw [part_of_get hget, total_sub, htotal, sub_self] at hpart
    exact le_antisymm (hle k v hget) (by linarith)
  · exact total_congr

/-- Parts that are natural numbers, summed along a list of keys. -/
theorem cast_sum_part (g : V → ℕ) (m : Store K V) (ks : List K) :
    ((ks.map fun k => ((m.get k).map g).getD 0).sum : ℤ) =
      (ks.map (m.part fun _ v => (g v : ℤ))).sum := by
  rw [Nat.cast_list_sum, List.map_map]
  congr 1
  apply List.map_congr_left
  intro k _
  simp only [Function.comp_apply, part]
  cases m.get k <;> rfl

/-- The parts of other keys are those without the key. -/
theorem map_part_remove {ks : List K} (hk : k ∉ ks) :
    ks.map (m.part f) = ks.map ((m.remove k).part f) := by
  apply List.map_congr_left
  intro k' hk'
  have hne : k' ≠ k := fun heq => hk (heq ▸ hk')
  unfold part
  rw [get_remove, if_neg hne]

/-- Distinct entries together are at most the total. -/
theorem sum_part_le_total :
    ∀ {ks : List K} {m : Store K V}, ks.Nodup → (∀ k v, m.get k = some v → 0 ≤ f k v) →
      (ks.map (m.part f)).sum ≤ m.total f := by
  intro ks
  induction ks with
  | nil =>
    intro m _ h
    exact total_nonneg h
  | cons k ks ih =>
    intro m hnodup h
    obtain ⟨hnot, hnodup⟩ := List.nodup_cons.1 hnodup
    have hrest := ih (m := m.remove k) hnodup fun k' v hget => h k' v (get_of_get_remove hget)
    rw [List.map_cons, List.sum_cons, map_part_remove hnot, total_eq_part_add_remove f m k]
    linarith

/-- The parts along a list of distinct keys that misses no entry that counts. -/
theorem sum_part_eq_total :
    ∀ {ks : List K} {m : Store K V}, ks.Nodup →
      (∀ k v, m.get k = some v → f k v ≠ 0 → k ∈ ks) → (ks.map (m.part f)).sum = m.total f := by
  intro ks
  induction ks with
  | nil =>
    intro m _ hall
    have hzero : ∀ k v, m.get k = some v → f k v = (fun _ _ => 0 : K → V → ℤ) k v := by
      intro k v hget
      by_contra hne
      exact absurd (hall k v hget hne) List.not_mem_nil
    rw [total_congr hzero]
    simp [total]
  | cons k ks ih =>
    intro m hnodup hall
    obtain ⟨hnot, hnodup⟩ := List.nodup_cons.1 hnodup
    have hrest : ∀ k' v, (m.remove k).get k' = some v → f k' v ≠ 0 → k' ∈ ks := by
      intro k' v hget hne
      rw [get_remove] at hget
      split_ifs at hget with hk
      exact (List.mem_cons.1 (hall k' v hget hne)).resolve_left hk
    rw [List.map_cons, List.sum_cons, map_part_remove hnot, ih hnodup hrest,
      total_eq_part_add_remove f m k]

end Store
