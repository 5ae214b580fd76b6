import Mathlib.Algebra.Order.BigOperators.Group.Finset
import Mathlib.Algebra.Order.Group.Int

/-!
# Rosters

A quantity is divided among keys.  A list is a roster of the parts when it names every key with a
part, and each only once; then the sum along the list is the sum over all keys.
-/

namespace Roster

variable {α M : Type} [AddCommMonoid M]

/-- Every key with a part is listed, and no key is listed twice. -/
structure IsRoster (members : List α) (part : α → M) : Prop where
  nodup : members.Nodup
  listed : ∀ a, part a ≠ 0 → a ∈ members

def total (members : List α) (part : α → M) : M := (members.map part).sum

variable {members : List α} {part : α → M} {a : α}

theorem isRoster_nil (hzero : ∀ a, part a = 0) : IsRoster [] part :=
  ⟨List.nodup_nil, fun a ha => absurd (hzero a) ha⟩

theorem IsRoster.part_eq_zero (h : IsRoster members part) (ha : a ∉ members) : part a = 0 := by
  by_contra hne
  exact ha (h.listed a hne)

theorem total_nonneg {part : α → ℤ} (hnn : ∀ a, 0 ≤ part a) (members : List α) :
    0 ≤ total members part := by
  apply List.sum_nonneg
  intro x hx
  obtain ⟨a, -, rfl⟩ := List.mem_map.1 hx
  exact hnn a

variable [DecidableEq α]

theorem IsRoster.update (h : IsRoster members part) (ha : a ∈ members) (v : M) :
    IsRoster members (Function.update part a v) := by
  refine ⟨h.nodup, fun b hb => ?_⟩
  by_cases hab : b = a
  · exact hab ▸ ha
  · rw [Function.update_of_ne hab] at hb
    exact h.listed b hb

theorem IsRoster.join (h : IsRoster members part) (ha : a ∉ members) (v : M) :
    IsRoster (members ++ [a]) (Function.update part a v) := by
  refine ⟨?_, fun b hb => ?_⟩
  · rw [List.nodup_append]
    refine ⟨h.nodup, List.nodup_singleton a, fun b hb c hc => ?_⟩
    rw [List.mem_singleton.1 hc]
    exact fun hba => ha (hba ▸ hb)
  · by_cases hab : b = a
    · simp [hab]
    · rw [Function.update_of_ne hab] at hb
      exact List.mem_append_left _ (h.listed b hb)

theorem IsRoster.leave (h : IsRoster members part) (a : α) :
    IsRoster (members.filter fun b => b ≠ a) (Function.update part a 0) := by
  refine ⟨h.nodup.filter _, fun b hb => ?_⟩
  have hab : b ≠ a := by
    rintro rfl
    exact hb (Function.update_self b 0 part)
  rw [Function.update_of_ne hab] at hb
  simpa [hab] using h.listed b hb

theorem total_update_of_notMem (part : α → M) (ha : a ∉ members) (v : M) :
    total members (Function.update part a v) = total members part := by
  unfold total
  congr 1
  apply List.map_congr_left
  intro b hb
  have hba : b ≠ a := by
    rintro rfl
    exact ha hb
  exact Function.update_of_ne hba _ _

theorem total_join (ha : a ∉ members) (v : M) :
    total (members ++ [a]) (Function.update part a v) = total members part + v := by
  have hrest := total_update_of_notMem part ha v
  simp only [total, List.map_append, List.map_cons, List.map_nil, List.sum_append, List.sum_singleton,
    Function.update_self] at hrest ⊢
  rw [hrest]

omit [AddCommMonoid M] in
theorem filter_ne_of_notMem (ha : a ∉ members) : (members.filter fun b => b ≠ a) = members := by
  apply List.filter_eq_self.2
  intro b hb
  have hba : b ≠ a := by
    rintro rfl
    exact ha hb
  simpa using hba

/-- The sum along the list without a listed key. -/
theorem total_split (part : α → M) (hnodup : members.Nodup) (ha : a ∈ members) :
    total (members.filter fun b => b ≠ a) part + part a = total members part := by
  induction members with
  | nil => cases ha
  | cons b members ih =>
    obtain ⟨hb, hnodup⟩ := List.nodup_cons.1 hnodup
    by_cases hba : b = a
    · subst hba
      rw [List.filter_cons_of_neg (by simp), filter_ne_of_notMem hb]
      simp only [total, List.map_cons, List.sum_cons]
      exact add_comm _ _
    · have hmem : a ∈ members := (List.mem_cons.1 ha).resolve_left (Ne.symm hba)
      have hih := ih hnodup hmem
      simp only [total, List.filter_cons, hba, ne_eq, not_false_eq_true, decide_true, if_true,
        List.map_cons, List.sum_cons] at hih ⊢
      rw [add_assoc, hih]

theorem IsRoster.total_update (h : IsRoster members part) (ha : a ∈ members) (v : M) :
    total members (Function.update part a v) + part a = total members part + v := by
  have hout : a ∉ members.filter fun b => b ≠ a := by simp
  rw [← total_split (Function.update part a v) h.nodup ha, ← total_split part h.nodup ha,
    total_update_of_notMem part hout, Function.update_self]
  exact add_right_comm _ _ _

theorem IsRoster.total_leave (h : IsRoster members part) (a : α) :
    total (members.filter fun b => b ≠ a) (Function.update part a 0) + part a =
      total members part := by
  have hout : a ∉ members.filter fun b => b ≠ a := by simp
  rw [total_update_of_notMem part hout]
  by_cases ha : a ∈ members
  · exact total_split part h.nodup ha
  · rw [filter_ne_of_notMem ha, h.part_eq_zero ha, add_zero]

theorem IsRoster.part_le {part : α → ℤ} (h : IsRoster members part) (hnn : ∀ a, 0 ≤ part a)
    (a : α) : part a ≤ total members part := by
  have hrest := total_nonneg hnn (members.filter fun b => b ≠ a)
  by_cases ha : a ∈ members
  · have hsplit := total_split part h.nodup ha
    omega
  · rw [h.part_eq_zero ha]
    exact total_nonneg hnn members

/-- No sum over keys exceeds the sum along the roster. -/
theorem IsRoster.sum_le {part : α → ℕ} (h : IsRoster members part) (S : Finset α) :
    ∑ a ∈ S, part a ≤ total members part := by
  have hlist : total members part = ∑ a ∈ members.toFinset, part a :=
    (List.sum_toFinset part h.nodup).symm
  rw [hlist]
  refine Finset.sum_le_sum_of_ne_zero fun a _ ha => ?_
  exact List.mem_toFinset.2 (h.listed a ha)

end Roster
