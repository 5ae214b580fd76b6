import Mathlib.Algebra.BigOperators.Group.Finset.Piecewise
import Mathlib.Algebra.Order.Ring.Int
import Mathlib.Data.List.Sort
import Mathlib.Order.Nat

/-!
# Stable sorting and grouping by a key

An insertion sort keeps the elements of one key in their order.  A log is replayed in the order of a
key: the last entry that counts is the last one among those of the highest key.

A list whose elements bear a key is also the sum of its groups, and may be read in pages.
-/

namespace StableSort

variable {α β : Type} (key : α → ℕ)

def ascending (l : List α) : List α := l.insertionSort fun a b => key a ≤ key b

def descending (l : List α) : List α := l.insertionSort fun a b => key b ≤ key a

theorem perm_ascending (l : List α) : (ascending key l).Perm l := List.perm_insertionSort _ l

theorem perm_descending (l : List α) : (descending key l).Perm l := List.perm_insertionSort _ l

theorem pairwise_ascending (l : List α) :
    (ascending key l).Pairwise fun a b => key a ≤ key b := by
  have : Std.Total fun a b => key a ≤ key b := ⟨fun a b => Nat.le_total (key a) (key b)⟩
  have : IsTrans α fun a b => key a ≤ key b := ⟨fun _ _ _ => Nat.le_trans⟩
  exact List.pairwise_insertionSort _ l

theorem pairwise_descending (l : List α) :
    (descending key l).Pairwise fun a b => key b ≤ key a := by
  have : Std.Total fun a b => key b ≤ key a := ⟨fun a b => Nat.le_total (key b) (key a)⟩
  have : IsTrans α fun a b => key b ≤ key a := ⟨fun _ _ _ hab hbc => Nat.le_trans hbc hab⟩
  exact List.pairwise_insertionSort _ l

variable {key}

/-- An element is inserted before those of its own key. -/
theorem filter_orderedInsert {r : α → α → Prop} [DecidableRel r] (hrefl : ∀ a b, key a = key b → r a b)
    (a : α) (k : ℕ) :
    ∀ l : List α, (l.orderedInsert r a).filter (fun b => key b = k) =
      (a :: l).filter fun b => key b = k := by
  intro l
  induction l with
  | nil => rfl
  | cons b l ih =>
    rw [List.orderedInsert_cons]
    split_ifs with hab
    · rfl
    · have hne : key a ≠ key b := fun heq => hab (hrefl a b heq)
      rw [List.filter_cons, ih]
      by_cases hb : key b = k
      · have ha : ¬ key a = k := fun ha => hne (ha.trans hb.symm)
        simp [ha, hb]
      · simp [hb, List.filter_cons]

theorem filter_insertionSort {r : α → α → Prop} [DecidableRel r]
    (hrefl : ∀ a b, key a = key b → r a b) (k : ℕ) :
    ∀ l : List α, (l.insertionSort r).filter (fun b => key b = k) =
      l.filter fun b => key b = k := by
  intro l
  induction l with
  | nil => rfl
  | cons a l ih =>
    rw [List.insertionSort_cons, filter_orderedInsert hrefl, List.filter_cons, List.filter_cons, ih]

theorem filter_ascending (k : ℕ) (l : List α) :
    (ascending key l).filter (fun a => key a = k) = l.filter fun a => key a = k :=
  filter_insertionSort (fun _ _ h => h.le) k l

theorem filter_descending (k : ℕ) (l : List α) :
    (descending key l).filter (fun a => key a = k) = l.filter fun a => key a = k :=
  filter_insertionSort (fun _ _ h => h.ge) k l

/-- A sorted list stays as it is. -/
theorem ascending_of_pairwise {l : List α} (h : l.Pairwise fun a b => key a ≤ key b) :
    ascending key l = l :=
  h.insertionSort_eq

/-- What is below all others is inserted first. -/
theorem orderedInsert_of_forall {r : α → α → Prop} [DecidableRel r] {a : α} {l : List α}
    (h : ∀ b ∈ l, r a b) : l.orderedInsert r a = a :: l := by
  cases l with
  | nil => rfl
  | cons b l => exact List.orderedInsert_cons_of_le r l (h b List.mem_cons_self)

theorem filter_orderedInsert_of_pairwise (p : α → Bool) (a : α) :
    ∀ {l : List α}, l.Pairwise (fun a b => key a ≤ key b) →
      (l.orderedInsert (fun a b => key a ≤ key b) a).filter p =
        if p a then (l.filter p).orderedInsert (fun a b => key a ≤ key b) a else l.filter p := by
  intro l
  induction l with
  | nil =>
    intro _
    cases h : p a <;> simp [h]
  | cons b l ih =>
    intro hsorted
    obtain ⟨hb, hl⟩ := List.pairwise_cons.1 hsorted
    rw [List.orderedInsert_cons]
    split_ifs with hab hpa hpa
    · -- the new element is below all that are left
      rw [List.filter_cons_of_pos hpa]
      refine (orderedInsert_of_forall fun c hc => ?_).symm
      rcases List.mem_cons.1 (List.mem_of_mem_filter hc) with rfl | hc
      · exact hab
      · exact le_trans hab (hb c hc)
    · rw [List.filter_cons_of_neg hpa]
    · rw [List.filter_cons, ih hl, if_pos hpa, List.filter_cons]
      cases p b with
      | true => simp only [if_true, List.orderedInsert_cons, if_neg hab]
      | false => rfl
    · rw [List.filter_cons, ih hl, if_neg hpa, List.filter_cons]

/-- What is left out before sorting is left out after it. -/
theorem filter_ascending_comm (p : α → Bool) :
    ∀ l : List α, (ascending key l).filter p = ascending key (l.filter p) := by
  intro l
  induction l with
  | nil => rfl
  | cons a l ih =>
    have hinsert := filter_orderedInsert_of_pairwise p a (pairwise_ascending key l)
    rw [ih] at hinsert
    show ((ascending key l).orderedInsert _ a).filter p = _
    rw [hinsert, List.filter_cons]
    split_ifs
    · rfl
    · rfl

/-- A sorted list begins with what has the lowest key. -/
theorem eq_filter_append_filter {k : ℕ} : ∀ {l : List α}, l.Pairwise (fun a b => key a ≤ key b) →
    (∀ a ∈ l, k ≤ key a) → l = (l.filter fun a => key a = k) ++ l.filter fun a => key a ≠ k := by
  intro l
  induction l with
  | nil => simp
  | cons a l ih =>
    intro hsorted hle
    obtain ⟨ha, hl⟩ := List.pairwise_cons.1 hsorted
    by_cases hk : key a = k
    · have htail := ih hl fun b hb => hle b (List.mem_cons_of_mem _ hb)
      rw [List.filter_cons_of_pos (by simpa using hk), List.filter_cons_of_neg (by simpa using hk),
        List.cons_append, ← htail]
    · have hlt : k < key a := lt_of_le_of_ne (hle a List.mem_cons_self) (Ne.symm hk)
      have hnone : (a :: l).filter (fun b => key b = k) = [] := by
        refine List.filter_eq_nil_iff.2 fun b hb => ?_
        rcases List.mem_cons.1 hb with rfl | hb
        · simpa using hk
        · simpa using (lt_of_lt_of_le hlt (ha b hb)).ne'
      have hall : (a :: l).filter (fun b => key b ≠ k) = a :: l := by
        refine List.filter_eq_self.2 fun b hb => ?_
        rcases List.mem_cons.1 hb with rfl | hb
        · simpa using hk
        · simpa using (lt_of_lt_of_le hlt (ha b hb)).ne'
      rw [hnone, hall, List.nil_append]

/-- The ascending sort begins with what has the lowest key, in the order of the list. -/
theorem ascending_eq_append {k : ℕ} {l : List α} (h : ∀ a ∈ l, k ≤ key a) :
    ascending key l =
      (l.filter fun a => key a = k) ++ ascending key (l.filter fun a => key a ≠ k) := by
  have hle : ∀ a ∈ ascending key l, k ≤ key a := fun a ha =>
    h a ((perm_ascending key l).mem_iff.1 ha)
  have hsplit := eq_filter_append_filter (pairwise_ascending key l) hle
  rwa [filter_ascending, filter_ascending_comm] at hsplit

/-- In ascending order the last entry that counts is the last one among those of the highest key. -/
theorem getLast?_filterMap {f : α → Option β} {k : ℕ} :
    ∀ {l : List α}, l.Pairwise (fun a b => key a ≤ key b) →
      (∀ a ∈ l, (f a).isSome → key a ≤ k) → (∃ a ∈ l, (f a).isSome ∧ key a = k) →
      (l.filterMap f).getLast? = ((l.filter fun a => key a = k).filterMap f).getLast? := by
  intro l
  induction l using List.reverseRecOn with
  | nil =>
    rintro - - ⟨a, ha, -⟩
    cases ha
  | append_singleton l a ih =>
    intro hsorted hle hex
    obtain ⟨hinit, -, hlast⟩ := List.pairwise_append.1 hsorted
    rw [List.filter_append, List.filterMap_append, List.filterMap_append]
    cases ha : f a with
    | none =>
      obtain ⟨b, hb, hcounts, hkey⟩ := hex
      have hmem : b ∈ l := by
        rcases List.mem_append.1 hb with hb | hb
        · exact hb
        · rw [List.mem_singleton.1 hb, ha] at hcounts
          cases hcounts
      have hnone : ([a].filter fun a => key a = k).filterMap f = [] := by
        by_cases hk : key a = k
        · simp [hk, ha]
        · simp [hk]
      rw [hnone, List.filterMap_cons_none ha, List.filterMap_nil, List.append_nil,
        List.append_nil]
      exact ih hinit (fun b hb => hle b (List.mem_append_left _ hb)) ⟨b, hmem, hcounts, hkey⟩
    | some y =>
      -- it counts, and no entry before it has a higher key
      have hk : key a = k := by
        refine le_antisymm (hle a (by simp) (by simp [ha])) ?_
        obtain ⟨b, hb, -, rfl⟩ := hex
        rcases List.mem_append.1 hb with hb | hb
        · exact hlast b hb a (List.mem_singleton_self a)
        · rw [List.mem_singleton.1 hb]
      simp [hk, ha]

end StableSort

namespace Grouping

variable {α κ : Type} [DecidableEq κ] (key : α → κ) (f : α → ℤ)

def group (l : List α) (k : κ) : List α := l.filter fun a => key a = k

theorem sum_eq_sum_group {keys : Finset κ} :
    ∀ {l : List α}, (∀ a ∈ l, key a ∈ keys) →
      (l.map f).sum = ∑ k ∈ keys, ((group key l k).map f).sum := by
  intro l
  induction l with
  | nil => simp [group]
  | cons a l ih =>
    intro hkeys
    have hone (k : κ) : ((group key (a :: l) k).map f).sum =
        (if key a = k then f a else 0) + ((group key l k).map f).sum := by
      unfold group
      rw [List.filter_cons]
      by_cases hk : key a = k
      · simp [hk]
      · simp [hk]
    rw [List.map_cons, List.sum_cons, ih fun b hb => hkeys b (List.mem_cons_of_mem _ hb)]
    simp only [hone, Finset.sum_add_distrib, Finset.sum_ite_eq]
    rw [if_pos (hkeys a List.mem_cons_self)]

/-- Two lists whose groups have the same sums have the same sum. -/
theorem sum_eq_of_groups {l l' : List α}
    (h : ∀ k, ((group key l k).map f).sum = ((group key l' k).map f).sum) :
    (l.map f).sum = (l'.map f).sum := by
  have hkeys : ∀ a ∈ l, key a ∈ (l.map key ++ l'.map key).toFinset := fun a ha =>
    List.mem_toFinset.2 (List.mem_append_left _ (List.mem_map_of_mem ha))
  have hkeys' : ∀ a ∈ l', key a ∈ (l.map key ++ l'.map key).toFinset := fun a ha =>
    List.mem_toFinset.2 (List.mem_append_right _ (List.mem_map_of_mem ha))
  rw [sum_eq_sum_group key f hkeys, sum_eq_sum_group key f hkeys']
  exact Finset.sum_congr rfl fun k _ => h k

/-- A group has the rest of the sum when the others agree. -/
theorem sum_group_eq {l l' : List α} {k : κ} (htotal : (l.map f).sum = (l'.map f).sum)
    (h : ∀ j, j ≠ k → ((group key l j).map f).sum = ((group key l' j).map f).sum) :
    ((group key l k).map f).sum = ((group key l' k).map f).sum := by
  let keys := insert k (l.map key ++ l'.map key).toFinset
  have hkeys : ∀ a ∈ l, key a ∈ keys := fun a ha =>
    Finset.mem_insert_of_mem
      (List.mem_toFinset.2 (List.mem_append_left _ (List.mem_map_of_mem ha)))
  have hkeys' : ∀ a ∈ l', key a ∈ keys := fun a ha =>
    Finset.mem_insert_of_mem
      (List.mem_toFinset.2 (List.mem_append_right _ (List.mem_map_of_mem ha)))
  have hk : k ∈ keys := Finset.mem_insert_self k _
  have hrest : ∑ j ∈ keys.erase k, ((group key l j).map f).sum =
      ∑ j ∈ keys.erase k, ((group key l' j).map f).sum :=
    Finset.sum_congr rfl fun j hj => h j (Finset.ne_of_mem_erase hj)
  rw [sum_eq_sum_group key f hkeys, sum_eq_sum_group key f hkeys',
    ← Finset.add_sum_erase _ _ hk, ← Finset.add_sum_erase _ _ hk, hrest] at htotal
  exact add_right_cancel htotal

end Grouping

namespace Paging

variable {β : Type} {keys : List β} {n : ℕ}

/-- No two entries of one key are on both sides of a boundary between pages of `n` entries. -/
def Paged (n : ℕ) (keys : List β) : Prop :=
  ∀ m, (keys.take (m * n)).Disjoint (keys.drop (m * n))

theorem paged_iff :
    Paged n keys ↔ (keys.take n).Disjoint (keys.drop n) ∧ Paged n (keys.drop n) := by
  have hsucc (m : ℕ) : (m + 1) * n = n + m * n := by rw [Nat.succ_mul, Nat.add_comm]
  constructor
  · intro h
    refine ⟨by simpa using h 1, fun m => ?_⟩
    have hm := h (m + 1)
    rw [hsucc, List.take_add, List.disjoint_append_left, ← List.drop_drop] at hm
    exact hm.2
  · rintro ⟨hfirst, hrest⟩ m
    cases m with
    | zero => simp
    | succ m =>
      rw [hsucc, List.take_add, List.disjoint_append_left, ← List.drop_drop]
      exact ⟨fun k hk hk' => hfirst hk (List.mem_of_mem_drop hk'), hrest m⟩

theorem paged_iff_getElem? : Paged n keys ↔
    ∀ m i j, i < m * n → m * n ≤ j → j < keys.length → keys[i]? ≠ keys[j]? := by
  constructor
  · intro h m i j hi hj hlen heq
    rw [List.getElem?_eq_getElem hlen] at heq
    obtain ⟨hi', heq⟩ := List.getElem?_eq_some_iff.1 heq
    refine h m (List.mem_take_iff_getElem.2 ⟨i, by omega, heq⟩)
      (List.mem_drop_iff_getElem.2 ⟨j - m * n, by omega, ?_⟩)
    simp only [Nat.add_sub_cancel' hj]
  · intro h m key hold hnew
    obtain ⟨i, hi, rfl⟩ := List.mem_take_iff_getElem.1 hold
    obtain ⟨j, hj, heq⟩ := List.mem_drop_iff_getElem.1 hnew
    refine h m i (m * n + j) (by omega) (Nat.le_add_right _ _) (by omega) ?_
    rw [List.getElem?_eq_getElem (by omega), List.getElem?_eq_getElem (by omega), heq]

theorem paged_of_length_le (h : keys.length ≤ n) : Paged n keys := by
  intro m
  cases m with
  | zero => simp
  | succ m =>
    rw [List.drop_eq_nil_of_le (h.trans (Nat.le_mul_of_pos_left n m.succ_pos))]
    exact List.disjoint_nil_right _

section Offsets

variable {α : Type} {key : α → β} {l rows got : List α} {answer : ℕ → List α}

/-- Entry `i` is entry `i` of the answer from which its page of `n` entries is taken. -/
def Assembled (n : ℕ) (answer : ℕ → List α) (got : List α) : Prop :=
  ∀ i < got.length, got[i]? = (answer (i / n * n))[i]?

theorem Assembled.page (hdvd : n ∣ got.length) (h : Assembled n answer got) :
    Assembled n answer (got ++ ((answer got.length).drop got.length).take n) := by
  intro i hi
  by_cases hold : i < got.length
  · rw [List.getElem?_append_left hold]
    exact h i hold
  · have hlt : i < got.length + n := by
      rw [List.length_append] at hi
      exact hi.trans_le (Nat.add_le_add_left (List.length_take_le _ _) _)
    obtain ⟨m, hm⟩ := hdvd
    have hpage : i / n = m :=
      Nat.div_eq_of_lt_le (by rw [Nat.mul_comm]; omega) (by rw [Nat.succ_mul, Nat.mul_comm]; omega)
    rw [List.getElem?_append_right (by omega), List.getElem?_take_of_lt (by omega),
      List.getElem?_drop, Nat.add_sub_cancel' (not_lt.1 hold), hpage, Nat.mul_comm, ← hm]

/-- If no key is on both sides of a boundary, the pages together have each entry once. -/
theorem Assembled.perm (hl : l.Nodup) (hperm : ∀ b, (answer b).Perm l)
    (hkeys : ∀ b, (answer b).map key = keys) (h : Assembled n answer got)
    (hlength : got.length = l.length) (hn : 0 < n) (hpaged : Paged n keys) : got.Perm l := by
  have hat {i : ℕ} {x : α} (hi : got[i]? = some x) :
      (answer (i / n * n))[i]? = some x ∧ keys[i]? = some (key x) := by
    have hanswer := (h i (List.getElem?_eq_some_iff.1 hi).1).symm.trans hi
    rw [← hkeys (i / n * n), List.getElem?_map, hanswer]
    exact ⟨rfl, rfl⟩
  have hnodup : got.Nodup := by
    rw [List.nodup_iff_getElem?_ne_getElem?]
    intro i j hij hj heq
    have hj' := List.getElem?_eq_getElem hj
    obtain ⟨hi, hkeyi⟩ := hat (heq.trans hj')
    obtain ⟨hj, hkeyj⟩ := hat hj'
    rcases (Nat.div_le_div_right hij.le : i / n ≤ j / n).eq_or_lt with hsame | hlt
    · rw [hsame] at hi
      exact List.nodup_iff_getElem?_ne_getElem?.1 ((hperm _).nodup_iff.2 hl) i j hij
        (List.getElem?_eq_some_iff.1 hj).1 (hi.trans hj.symm)
    · exact paged_iff_getElem?.1 hpaged _ i j ((Nat.div_lt_iff_lt_mul hn).1 hlt)
        (Nat.div_mul_le_self j n) (List.getElem?_eq_some_iff.1 hkeyj).1 (hkeyi.trans hkeyj.symm)
  refine (List.subperm_of_subset hnodup fun x hx => ?_).perm_of_length_le hlength.ge
  obtain ⟨i, hi⟩ := List.mem_iff_getElem?.1 hx
  exact (hperm _).subset (List.mem_of_getElem? (hat hi).1)

/-- If a key is on both sides of a boundary, two orders of the entries can repeat one of them. -/
theorem exists_repeat (hl : l.Nodup) (hrows : rows.Perm l) (hsplit : ¬ Paged n (rows.map key)) :
    ∃ answer : ℕ → List α, (∀ b, (answer b).Perm l ∧ (answer b).map key = rows.map key) ∧
      ∀ got, Assembled n answer got → got.length = l.length → ¬ got.Perm l := by
  simp only [paged_iff_getElem?, not_forall, not_not] at hsplit
  obtain ⟨m, i, j, hi, hj, hlen, heq⟩ := hsplit
  rw [List.length_map] at hlen
  have hi' : i < rows.length := by omega
  simp only [List.getElem?_map, List.getElem?_eq_getElem hlen, List.getElem?_eq_getElem hi',
    Option.map_some, Option.some.injEq] at heq
  have hkeys : ((rows.set i rows[j]).set j rows[i]).map key = rows.map key := by
    apply List.ext_getElem?
    intro k
    simp only [List.getElem?_map, List.getElem?_set]
    grind
  refine ⟨fun b => if b < m * n then rows else (rows.set i rows[j]).set j rows[i],
    fun b => ?_, fun got hgot hlength hperm => ?_⟩
  · dsimp only
    split_ifs
    · exact ⟨hrows, rfl⟩
    · exact ⟨(List.set_set_perm hi' hlen).trans hrows, hkeys⟩
  · have hcount := hrows.length_eq
    refine List.nodup_iff_getElem?_ne_getElem?.1 (hperm.nodup_iff.2 hl) i j (by omega) (by omega) ?_
    have hn : 0 < n := Nat.pos_of_mul_pos_left (hi.trans_le' (Nat.zero_le i))
    have hpage : ¬ j / n * n < m * n :=
      not_lt.2 (Nat.mul_le_mul_right n ((Nat.le_div_iff_mul_le hn).2 hj))
    rw [hgot i (by omega), hgot j (by omega)]
    simp [(Nat.div_mul_le_self i n).trans_lt hi, hpage, hlen, hi']

end Offsets

end Paging
