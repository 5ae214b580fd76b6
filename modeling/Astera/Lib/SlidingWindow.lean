import Mathlib.Data.List.Basic
import Mathlib.Order.Nat

/-!
# Limits over a sliding window

A limiter remembers the times of the events that it let pass, drops at each event those that are
`width` or more in the past, and lets the event pass when fewer than `limit` are left.  So no window
of length `width` holds more than `limit` events.
-/

namespace SlidingWindow

variable {width limit now now' : ℕ} {history kept : List ℕ}

/-- The times that lie less than `width` before `now`. -/
def recent (width now : ℕ) (times : List ℕ) : List ℕ := times.filter fun t => now < t + width

/-- The times of the half-open window of length `width` from `start`. -/
def window (width start : ℕ) (times : List ℕ) : List ℕ :=
  times.filter fun t => start ≤ t ∧ t < start + width

theorem recent_append (width now : ℕ) (times times' : List ℕ) :
    recent width now (times ++ times') = recent width now times ++ recent width now times' := by
  simp [recent]

theorem window_append (width start : ℕ) (times times' : List ℕ) :
    window width start (times ++ times') =
      window width start times ++ window width start times' := by
  simp [window]

/-- What counts later counted before. -/
theorem recent_recent (hle : now ≤ now') :
    recent width now' (recent width now history) = recent width now' history := by
  unfold recent
  rw [List.filter_filter]
  refine List.filter_congr fun t _ => ?_
  simp only [← Bool.decide_and, decide_eq_decide]
  omega

/-- The events of a window that ends after `now` and reaches back from it all count at `now`. -/
theorem window_length_le {start : ℕ} (hnow : now < start + width) :
    (window width start history).length ≤ (recent width now history).length := by
  refine (List.monotone_filter_right history fun t ht => ?_).length_le
  simp only [decide_eq_true_eq] at ht ⊢
  omega

/-- What is kept at `now` of a history of events: the events are past, those that count now or later
are kept, and no window holds more than `limit` of them. -/
structure Remembers (width limit now : ℕ) (history kept : List ℕ) : Prop where
  past : ∀ t ∈ history, t ≤ now
  exact : ∀ now', now ≤ now' → recent width now' kept = recent width now' history
  bounded : ∀ start, (window width start history).length ≤ limit

theorem remembers_nil (width limit now : ℕ) : Remembers width limit now [] [] where
  past := by simp
  exact _ _ := rfl
  bounded _ := Nat.zero_le limit

/-- Time passes. -/
theorem Remembers.mono (h : Remembers width limit now history kept) (hle : now ≤ now') :
    Remembers width limit now' history kept where
  past t ht := (h.past t ht).trans hle
  exact now'' hle' := h.exact now'' (hle.trans hle')
  bounded := h.bounded

/-- An event is let pass. -/
theorem Remembers.pass (h : Remembers width limit now history kept)
    (hroom : (recent width now kept).length < limit) :
    Remembers width limit now (history ++ [now]) (recent width now kept ++ [now]) where
  past t ht := by
    rcases List.mem_append.1 ht with hold | hnew
    · exact h.past t hold
    · exact (List.mem_singleton.1 hnew).le
  exact now' hle := by
    rw [recent_append, recent_append, recent_recent hle, h.exact now' hle]
  bounded start := by
    rw [h.exact now le_rfl] at hroom
    rw [window_append, List.length_append]
    by_cases hin : start ≤ now ∧ now < start + width
    · have hothers : (window width start history).length ≤ (recent width now history).length :=
        window_length_le hin.2
      have hone : (window width start [now]).length = 1 := by simp [window, hin]
      omega
    · have hnone : window width start [now] = [] := by simp [window, hin]
      rw [hnone]
      exact h.bounded start

end SlidingWindow
