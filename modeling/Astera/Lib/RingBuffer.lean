import Mathlib.Data.List.Range
import Mathlib.Data.List.Rotate
import Mathlib.Data.Nat.ModEq
import Astera.Lib.Fallible

/-!
# Ring buffers and searching in them

The slots of a ring buffer are a list, and `l.rotate head` lists the contents from the oldest to the
newest.  A full buffer overwrites its oldest slot, and the newest can be overwritten in place.  A
contract keeps the slots by number; the slot of an entry is found modulo the capacity.

A binary search finds the point up to which a predicate holds.
-/

/-! ## Numbered slots

A contract keeps a list as numbered slots and a count.  When every slot below the count is filled,
the slots are a list: its entries are the slots, a write to the first free slot appends to it, and a
write to another slot replaces an entry.
-/

namespace Slots

variable {α : Type} {slots : ℕ → Option α} {n : ℕ}

/-- The contents of the first `n` slots. -/
def stored (slots : ℕ → Option α) (n : ℕ) : List α := (List.range n).filterMap slots

/-- The first `n` slots have something in them. -/
def Filled (slots : ℕ → Option α) (n : ℕ) : Prop := ∀ i < n, (slots i).isSome = true

theorem stored_succ (slots : ℕ → Option α) (n : ℕ) :
    stored slots (n + 1) = stored slots n ++ (slots n).toList := by
  unfold stored
  rw [List.range_succ, List.filterMap_append]
  cases h : slots n <;> simp [h]

theorem Filled.length_stored (h : Filled slots n) : (stored slots n).length = n := by
  unfold stored
  rw [List.length_filterMap_eq_countP, List.countP_eq_length.2, List.length_range]
  intro i hi
  exact h i (List.mem_range.1 hi)

/-- What stands in filled slots, slot by slot. -/
theorem Filled.getElem?_stored (h : Filled slots n) {i : ℕ} (hi : i < n) :
    (stored slots n)[i]? = slots i := by
  induction n with
  | zero => omega
  | succ n ih =>
    have hrest : Filled slots n := fun j hj => h j (Nat.lt_succ_of_lt hj)
    rw [stored_succ]
    by_cases hlast : i = n
    · subst hlast
      rw [List.getElem?_append_right hrest.length_stored.le, hrest.length_stored, Nat.sub_self]
      cases slots i <;> rfl
    · have hlt : i < n := by omega
      rw [List.getElem?_append_left (hlt.trans_eq hrest.length_stored.symm)]
      exact ih hrest hlt

theorem stored_push (slots : ℕ → Option α) (n : ℕ) (x : α) :
    stored (Function.update slots n (some x)) (n + 1) = stored slots n ++ [x] := by
  rw [stored_succ, Function.update_self]
  congr 1
  apply List.filterMap_congr
  intro i hi
  exact Function.update_of_ne (List.mem_range.1 hi).ne _ _

theorem Filled.push (h : Filled slots n) (x : α) :
    Filled (Function.update slots n (some x)) (n + 1) := by
  intro i hi
  by_cases hlast : i = n
  · simp [hlast]
  · rw [Function.update_of_ne hlast]
    exact h i (by omega)

theorem Filled.set (h : Filled slots n) (k : ℕ) (x : α) :
    Filled (Function.update slots k (some x)) n := by
  intro i hi
  by_cases hk : i = k
  · simp [hk]
  · rw [Function.update_of_ne hk]
    exact h i hi

theorem Filled.stored_set (h : Filled slots n) {k : ℕ} (hk : k < n) (x : α) :
    stored (Function.update slots k (some x)) n = (stored slots n).set k x := by
  apply List.ext_getElem?
  intro i
  by_cases hi : i < n
  · rw [(h.set k x).getElem?_stored hi, List.getElem?_set, h.getElem?_stored hi, h.length_stored]
    by_cases hik : k = i
    · subst hik
      simp [hk]
    · rw [if_neg hik, Function.update_of_ne (Ne.symm hik)]
  · have hleft : (stored (Function.update slots k (some x)) n).length ≤ i := by
      rw [(h.set k x).length_stored]
      omega
    have hright : ((stored slots n).set k x).length ≤ i := by
      rw [List.length_set, h.length_stored]
      omega
    rw [List.getElem?_eq_none hleft, List.getElem?_eq_none hright]

/-- The entries at consecutive indices are a part of the list. -/
theorem filterMap_getElem?_range' (l : List α) (start m : ℕ) :
    (List.range' start m).filterMap (fun i => l[i]?) = (l.drop start).take m := by
  induction m with
  | zero => simp
  | succ m ih =>
    rw [List.range'_1_concat, List.filterMap_append, ih, List.take_add_one, List.getElem?_drop]
    cases h : l[start + m]? <;> simp [h]

/-- A look at consecutive filled slots reads a part of the list. -/
theorem Filled.filterMap_range' (h : Filled slots n) {start m : ℕ} (hm : start + m ≤ n) :
    (List.range' start m).filterMap slots = ((stored slots n).drop start).take m := by
  have hslots : (List.range' start m).filterMap slots =
      (List.range' start m).filterMap fun i => (stored slots n)[i]? := by
    apply List.filterMap_congr
    intro i hi
    rw [List.mem_range'_1] at hi
    exact (h.getElem?_stored (by omega)).symm
  rw [hslots, filterMap_getElem?_range']

end Slots

namespace RingBuffer

open Fallible

variable {α ε : Type}

theorem rotate_set (l : List α) (head k : ℕ) (hk : k < l.length) (x : α) :
    (l.set ((k + head) % l.length) x).rotate head = (l.rotate head).set k x := by
  apply List.ext_getElem
  · simp
  · intro i hi hi'
    have hil : i < l.length := by simpa using hi
    rw [List.getElem_rotate, List.getElem_set, List.getElem_set, List.getElem_rotate]
    have hslot : (k + head) % l.length = (i + head) % l.length ↔ k = i := by
      constructor
      · intro h
        have hmod : Nat.ModEq l.length k i := Nat.ModEq.add_right_cancel' head h
        exact Nat.ModEq.eq_of_lt_of_lt hmod hk hil
      · rintro rfl
        rfl
    simp only [List.length_set]
    split_ifs with h₁ h₂ h₂
    · rfl
    · exact absurd (hslot.1 h₁) h₂
    · exact absurd (hslot.2 h₂) h₁
    · rfl

theorem rotate_set_newest (l : List α) (head : ℕ) (hl : 0 < l.length) (x : α) :
    (l.set ((head + l.length - 1) % l.length) x).rotate head =
      (l.rotate head).dropLast ++ [x] := by
  have hindex : head + l.length - 1 = l.length - 1 + head := by omega
  rw [hindex, rotate_set l head _ (by omega)]
  have hlen : (l.rotate head).length = l.length := List.length_rotate l head
  apply List.ext_getElem
  · simp only [List.length_set, List.length_append, List.length_dropLast, List.length_singleton,
      hlen]
    omega
  · intro i hi hi'
    rw [List.length_set, hlen] at hi
    rw [List.getElem_set, List.getElem_append]
    by_cases hlast : l.length - 1 = i
    · simp [hlast, hlen]
    · have hlt : i < (l.rotate head).dropLast.length := by
        simp only [List.length_dropLast, hlen]
        omega
      rw [if_neg hlast, dif_pos hlt, List.getElem_dropLast]

/-- A full buffer overwrites its oldest slot. -/
theorem rotate_set_oldest (l : List α) (head : ℕ) (hhead : head < l.length) (x : α) :
    (l.set head x).rotate ((head + 1) % l.length) = (l.rotate head).tail ++ [x] := by
  have hset : (l.set head x).rotate head = (l.rotate head).set 0 x := by
    have h := rotate_set l head 0 (by omega) x
    rwa [Nat.zero_add, Nat.mod_eq_of_lt hhead] at h
  have hmod : (l.set head x).rotate ((head + 1) % l.length) = (l.set head x).rotate (head + 1) := by
    have h := List.rotate_mod (l.set head x) (head + 1)
    rwa [List.length_set] at h
  rw [hmod, ← List.rotate_rotate, hset]
  cases hc : l.rotate head with
  | nil =>
    have hlen := List.length_rotate l head
    rw [hc] at hlen
    simp only [List.length_nil] at hlen
    omega
  | cons a as => simp

theorem getLast?_rotate (l : List α) (head : ℕ) (hl : 0 < l.length) :
    (l.rotate head).getLast? = l[(head + l.length - 1) % l.length]? := by
  have hindex : head + l.length - 1 = l.length - 1 + head := by omega
  rw [List.getLast?_eq_getElem?, List.length_rotate, List.getElem?_rotate (by omega), hindex]

/-! ## Numbered slots -/

section Numbered

variable {slots : ℕ → Option α} {length start capacity : ℕ}

/-- The entries from the oldest to the newest. -/
def contents (slots : ℕ → Option α) (length start : ℕ) : List α :=
  (Slots.stored slots length).rotate start

/-- The slots are laid out for this capacity: only a full buffer wraps around. -/
structure Fits (slots : ℕ → Option α) (length start capacity : ℕ) : Prop where
  filled : Slots.Filled slots length
  layout : length < capacity ∧ start = 0 ∨ length = capacity ∧ start < capacity

theorem Fits.empty (slots : ℕ → Option α) (hcap : 0 < capacity) : Fits slots 0 0 capacity :=
  ⟨fun _ hi => absurd hi (Nat.not_lt_zero _), .inl ⟨hcap, rfl⟩⟩

theorem Fits.length_contents (hf : Fits slots length start capacity) :
    (contents slots length start).length = length := by
  unfold contents
  rw [List.length_rotate, hf.filled.length_stored]

theorem Fits.slots_mod (hf : Fits slots length start capacity) {i : ℕ} (hi : i < length) :
    slots ((start + i) % capacity) = (contents slots length start)[i]? := by
  have hlength := hf.filled.length_stored
  have hmod : (start + i) % capacity = (i + start) % length := by
    rcases hf.layout with ⟨hlt, hstart⟩ | ⟨heq, -⟩
    · rw [hstart, Nat.zero_add, Nat.add_zero, Nat.mod_eq_of_lt (hi.trans hlt), Nat.mod_eq_of_lt hi]
    · rw [heq, Nat.add_comm]
  unfold contents
  rw [List.getElem?_rotate (by omega), hlength, hmod]
  exact (hf.filled.getElem?_stored (Nat.mod_lt _ (by omega))).symm

theorem Fits.newest (hf : Fits slots length start capacity) (hpos : 0 < length) :
    slots ((start + length - 1) % capacity) = (contents slots length start).getLast? := by
  rw [Nat.add_sub_assoc hpos, hf.slots_mod (by omega), List.getLast?_eq_getElem?,
    hf.length_contents]

theorem Fits.grow (hf : Fits slots length start capacity) (hlt : length < capacity) (x : α) :
    Fits (Function.update slots length (some x)) (length + 1) start capacity ∧
      contents (Function.update slots length (some x)) (length + 1) start =
        contents slots length start ++ [x] := by
  have hstart : start = 0 := by
    rcases hf.layout with ⟨-, hstart⟩ | ⟨heq, -⟩
    · exact hstart
    · omega
  refine ⟨⟨hf.filled.push x, by omega⟩, ?_⟩
  unfold contents
  rw [Slots.stored_push, hstart, List.rotate_zero, List.rotate_zero]

theorem Fits.wrap (hf : Fits slots length start capacity) (heq : length = capacity)
    (hpos : 0 < capacity) (x : α) :
    Fits (Function.update slots start (some x)) length ((start + 1) % capacity) capacity ∧
      contents (Function.update slots start (some x)) length ((start + 1) % capacity) =
        (contents slots length start).tail ++ [x] := by
  have hstart : start < length := by
    rcases hf.layout with ⟨hlt, -⟩ | ⟨-, hstart⟩
    · omega
    · omega
  refine ⟨⟨hf.filled.set start x, .inr ⟨heq, Nat.mod_lt _ hpos⟩⟩, ?_⟩
  have hlength := hf.filled.length_stored
  have hoverwrite := rotate_set_oldest (Slots.stored slots length) start (by omega) x
  rw [hlength] at hoverwrite
  unfold contents
  rw [hf.filled.stored_set hstart x, ← heq]
  exact hoverwrite

/-- A look at consecutive slots reads a part of the entries. -/
theorem Fits.filterMap_range' (hf : Fits slots length start capacity) {first m : ℕ}
    (hm : first + m ≤ length) :
    (List.range' first m).filterMap (fun i => slots ((start + i) % capacity)) =
      ((contents slots length start).drop first).take m := by
  have hslots : (List.range' first m).filterMap (fun i => slots ((start + i) % capacity)) =
      (List.range' first m).filterMap fun i => (contents slots length start)[i]? := by
    apply List.filterMap_congr
    intro i hi
    rw [List.mem_range'_1] at hi
    exact hf.slots_mod (by omega)
  rw [hslots, Slots.filterMap_getElem?_range']

end Numbered

/-- The loop of a binary search for the end of the part in which `p` holds. -/
def partitionPoint (p : ℕ → Except ε Bool) : ℕ → ℕ → ℕ → Except ε ℕ
  | 0, lo, _ => .ok lo
  | fuel + 1, lo, hi =>
    if lo < hi then do
      let mid := lo + (hi - lo) / 2
      if ← p mid then partitionPoint p fuel (mid + 1) hi else partitionPoint p fuel lo mid
    else .ok lo

/-- `r` is the end of the part of `0, …, n - 1` in which `q` holds. -/
structure IsPartitionPoint (q : ℕ → Bool) (n r : ℕ) : Prop where
  le : r ≤ n
  before : ∀ i, i < r → q i = true
  after : ∀ i, r ≤ i → i < n → q i = false

/-- The bounds of the search enclose the end of the part, and the interval between them shrinks. -/
theorem partitionPoint_eq_ok {p : ℕ → Except ε Bool} {q : ℕ → Bool} {n : ℕ}
    (hp : ∀ i, i < n → p i = .ok (q i))
    (hq : ∀ i j, i ≤ j → j < n → q j = true → q i = true) :
    ∀ (fuel lo hi : ℕ), lo ≤ hi → hi ≤ n → hi - lo ≤ fuel → (∀ i, i < lo → q i = true) →
      (∀ i, hi ≤ i → i < n → q i = false) →
      ∃ r, partitionPoint p fuel lo hi = .ok r ∧ IsPartitionPoint q n r := by
  intro fuel
  induction fuel with
  | zero =>
    intro lo hi hle hn hfuel hlo hhi
    obtain rfl : lo = hi := by omega
    exact ⟨lo, rfl, hn, hlo, hhi⟩
  | succ fuel ih =>
    intro lo hi hle hn hfuel hlo hhi
    unfold partitionPoint
    by_cases hlt : lo < hi
    · have hmid : lo + (hi - lo) / 2 < hi := by omega
      simp only [if_pos hlt, hp _ (hmid.trans_le hn)]
      cases hqm : q (lo + (hi - lo) / 2) with
      | true =>
        apply ih _ _ (by omega) hn (by omega) _ hhi
        intro i hi'
        exact hq i _ (by omega) (by omega) hqm
      | false =>
        apply ih _ _ (by omega) (by omega) (by omega) hlo
        intro i hi' hin
        by_contra htrue
        have hfalse := hq _ i hi' hin (by simpa using htrue)
        rw [hqm] at hfalse
        cases hfalse
    · obtain rfl : lo = hi := by omega
      exact ⟨lo, by simp, hn, hlo, hhi⟩

theorem exists_partitionPoint {p : ℕ → Except ε Bool} {q : ℕ → Bool} {n : ℕ}
    (hp : ∀ i, i < n → p i = .ok (q i))
    (hq : ∀ i j, i ≤ j → j < n → q j = true → q i = true) :
    ∃ r, partitionPoint p n 0 n = .ok r ∧ IsPartitionPoint q n r :=
  partitionPoint_eq_ok hp hq n 0 n (by omega) le_rfl (by omega) (fun i hi => by omega)
    (fun i hi hin => by omega)

/-- Searching a list from its end finds the entry before the partition point. -/
theorem find?_reverse {l : List α} {f : α → Bool} {q : ℕ → Bool} {r : ℕ}
    (hq : ∀ (i : ℕ) (hi : i < l.length), q i = f l[i]) (hr : IsPartitionPoint q l.length r) :
    l.reverse.find? f = if r = 0 then none else l[r - 1]? := by
  have hdrop : (l.drop r).reverse.find? f = none := by
    rw [List.find?_eq_none]
    intro x hx
    obtain ⟨i, hi, rfl⟩ := List.getElem_of_mem (List.mem_reverse.1 hx)
    rw [List.length_drop] at hi
    rw [List.getElem_drop, ← hq (r + i) (by omega), hr.after (r + i) (by omega) (by omega)]
    simp
  have hsplit : l.reverse = (l.drop r).reverse ++ (l.take r).reverse := by
    rw [← List.reverse_append, List.take_append_drop]
  rw [hsplit, List.find?_append, hdrop, Option.none_or]
  cases r with
  | zero => simp
  | succ r =>
    have hlt : r < l.length := hr.le
    have hf : f l[r] = true := by
      rw [← hq r hlt]
      exact hr.before r (by omega)
    have htake : (l.take (r + 1)).reverse = l[r] :: (l.take r).reverse := by
      rw [List.take_add_one, List.getElem?_eq_getElem hlt]
      simp
    rw [htake, List.find?_cons_of_pos hf]
    simp [hlt]

/-- A binary search over slots that hold a list finds the last entry with `f`, when the entries with
`f` come first. -/
theorem exists_search {entries : List α} {f : α → Bool} {slot : ℕ → Option α} (e : ε)
    (hslot : ∀ i, i < entries.length → slot i = entries[i]?)
    (hf : entries.Pairwise fun x y => f y = true → f x = true) :
    ∃ r, partitionPoint (fun i => okOr (slot i) e >>= fun x => pure (f x)) entries.length 0
        entries.length = .ok r ∧
      r ≤ entries.length ∧
      entries.reverse.find? f = if r = 0 then none else entries[r - 1]? := by
  have hp : ∀ i, i < entries.length →
      (okOr (slot i) e >>= fun x => pure (f x)) = .ok (entries[i]?.any f) := by
    intro i hi
    rw [hslot i hi, List.getElem?_eq_getElem hi]
    rfl
  have hq : ∀ i j, i ≤ j → j < entries.length → entries[j]?.any f = true →
      entries[i]?.any f = true := by
    intro i j hij hj h
    have hi : i < entries.length := hij.trans_lt hj
    simp only [List.getElem?_eq_getElem hj, List.getElem?_eq_getElem hi, Option.any_some] at h ⊢
    rcases hij.eq_or_lt with rfl | hlt
    · exact h
    · exact List.pairwise_iff_getElem.1 hf i j hi hj hlt h
  obtain ⟨r, hsearch, hr⟩ := exists_partitionPoint hp hq
  refine ⟨r, hsearch, hr.le, find?_reverse (fun i hi => ?_) hr⟩
  rw [List.getElem?_eq_getElem hi]
  rfl

end RingBuffer
