import Mathlib.Data.List.Basic
import Astera.Lib.Transition

/-!
# The verification queue

The queue of the oracle service on its event loop, which runs one thing at a time: an id is enqueued,
a handler completes, or a callback of `setImmediate` runs.  A callback that finds all slots taken gives
up; a handler is in flight then, and its completion asks for another callback.
-/

namespace Astera.OracleService

open Fallible Transition

/-- `VerificationQueue`, with what the event loop holds for it. -/
structure VerificationQueue where
  maxConcurrency : ℕ
  queue : List ℕ := []
  running : ℕ := 0
  /-- The ids whose handlers did not complete yet. -/
  inFlight : List ℕ := []
  /-- The callbacks that `setImmediate` holds. -/
  callbacks : ℕ := 0
  /-- The ids that the handler was called with, in this order. -/
  handled : List ℕ := []

def verifierQueue : VerificationQueue where
  maxConcurrency := 3

namespace VerificationQueue

/-- `process`, up to its `await`. -/
def process (q : VerificationQueue) : VerificationQueue :=
  match q.queue with
  | [] => q
  | invoiceId :: queue =>
    if q.running ≥ q.maxConcurrency then q
    else { q with
      running := q.running + 1
      queue := queue
      inFlight := q.inFlight ++ [invoiceId]
      handled := q.handled ++ [invoiceId] }

def enqueue (q : VerificationQueue) (invoiceId : ℕ) : VerificationQueue :=
  process { q with queue := q.queue ++ [invoiceId] }

/-- `process` after its `await`: the handler succeeded or failed, and the `finally` block runs. -/
def settle (q : VerificationQueue) (invoiceId : ℕ) : VerificationQueue :=
  { q with
    running := q.running - 1
    inFlight := q.inFlight.erase invoiceId
    callbacks := if q.queue.length > 0 then q.callbacks + 1 else q.callbacks }

inductive Event
  | enqueue (invoiceId : ℕ)
  | completed (invoiceId : ℕ) (failed : Bool)
  | immediate

def step (q : VerificationQueue) : Event → Except Unit VerificationQueue
  | .enqueue invoiceId => .ok (q.enqueue invoiceId)
  | .completed invoiceId _ => do
    require (invoiceId ∈ q.inFlight) ()
    return q.settle invoiceId
  | .immediate => do
    require (0 < q.callbacks) ()
    return process { q with callbacks := q.callbacks - 1 }

def noteEnqueued (_ : VerificationQueue) (event : Event) (_ : VerificationQueue) (ids : List ℕ) :
    List ℕ :=
  match event with
  | .enqueue invoiceId => ids ++ [invoiceId]
  | .completed .. | .immediate => ids

/-- The slots are counted, and the ids are handled in the order of the queue. -/
structure Counted (q : VerificationQueue) (ids : List ℕ) : Prop where
  running : q.inFlight.length = q.running
  bounded : q.running ≤ q.maxConcurrency
  order : q.handled ++ q.queue = ids

def Attended (q : VerificationQueue) : Prop := q.queue = [] ∨ q.inFlight ≠ [] ∨ 0 < q.callbacks

variable {q q' : VerificationQueue} {ids : List ℕ}

theorem Counted.process (hq : Counted q ids) : Counted q.process ids := by
  unfold VerificationQueue.process
  split
  · exact hq
  · next invoiceId queue hqueue =>
    split_ifs with hfull
    · exact hq
    · refine ⟨?_, Nat.lt_of_not_ge hfull, ?_⟩
      · simp [hq.running]
      · rw [← hq.order, hqueue]
        simp

theorem Counted.attended_process (hq : Counted q ids) (hpos : 0 < q.maxConcurrency) :
    q.process.Attended := by
  unfold VerificationQueue.process
  split
  · next hqueue => exact .inl hqueue
  · split_ifs with hfull
    · refine .inr (.inl (List.ne_nil_of_length_pos ?_))
      rw [hq.running]
      exact Nat.lt_of_lt_of_le hpos hfull
    · exact .inr (.inl (by simp))

theorem process_maxConcurrency : q.process.maxConcurrency = q.maxConcurrency := by
  unfold VerificationQueue.process
  split
  · rfl
  · split_ifs <;> rfl

theorem step_kept {event : Event} (hpos : 0 < q.maxConcurrency) (hq : Counted q ids)
    (hx : step q event = .ok q') :
    q'.maxConcurrency = q.maxConcurrency ∧ Counted q' (noteEnqueued q event q' ids) ∧
      q'.Attended := by
  cases event with
  | enqueue invoiceId =>
    obtain rfl := Except.ok.inj hx
    have hpushed : Counted { q with queue := q.queue ++ [invoiceId] } (ids ++ [invoiceId]) :=
      ⟨hq.running, hq.bounded, by rw [← hq.order, List.append_assoc]⟩
    exact ⟨process_maxConcurrency, hpushed.process, hpushed.attended_process hpos⟩
  | completed invoiceId failed =>
    simp only [step, bind_eq_ok, exists_unit, require_eq_ok, pure_eq_ok] at hx
    obtain ⟨hmem, rfl⟩ := hx
    have hlength := List.length_erase_of_mem hmem
    refine ⟨rfl, ⟨?_, Nat.le_trans (Nat.sub_le _ _) hq.bounded, hq.order⟩, ?_⟩
    · exact hlength.trans (congrArg (· - 1) hq.running)
    · cases hqueue : q.queue with
      | nil => exact .inl hqueue
      | cons => exact .inr (.inr (by simp [settle, hqueue]))
  | immediate =>
    simp only [step, bind_eq_ok, exists_unit, require_eq_ok, pure_eq_ok] at hx
    obtain ⟨-, rfl⟩ := hx
    have hcalled : Counted { q with callbacks := q.callbacks - 1 } ids :=
      ⟨hq.running, hq.bounded, hq.order⟩
    exact ⟨process_maxConcurrency, hcalled.process, hcalled.attended_process hpos⟩

/-- In every order of events: the handlers in flight are counted and at most `maxConcurrency`, the ids
are handled in the order in which they were enqueued, each once for each time, and as long as the
queue is not empty a handler is in flight or a callback is pending. -/
theorem queue_strands_no_job {maxConcurrency : ℕ} (hpos : 0 < maxConcurrency)
    {ok : VerificationQueue × List ℕ → Event → Prop} {x : VerificationQueue × List ℕ}
    (hrun : Reaches (track step noteEnqueued) ok ({ maxConcurrency := maxConcurrency }, []) x) :
    x.1.inFlight.length = x.1.running ∧ x.1.running ≤ maxConcurrency ∧
      x.1.handled ++ x.1.queue = x.2 ∧
      (x.1.queue ≠ [] → x.1.inFlight ≠ [] ∨ 0 < x.1.callbacks) ∧
      (x.1.inFlight = [] → x.1.callbacks = 0 → x.1.handled = x.2) := by
  have hinv : x.1.maxConcurrency = maxConcurrency ∧ Counted x.1 x.2 ∧ x.1.Attended := by
    refine hrun.invariant (P := fun x => x.1.maxConcurrency = maxConcurrency ∧
      Counted x.1 x.2 ∧ x.1.Attended) ?_ ?_
    · exact ⟨rfl, ⟨rfl, Nat.zero_le _, rfl⟩, .inl rfl⟩
    · rintro x event y ⟨hmax, hcounted, -⟩ - hx
      obtain ⟨hstep, hnote⟩ := (track_eq_ok _ _ _ _ _).1 hx
      obtain ⟨hsame, hcounted', hattended'⟩ := step_kept (hmax ▸ hpos) hcounted hstep
      exact ⟨hsame.trans hmax, hnote ▸ hcounted', hattended'⟩
  obtain ⟨hmax, hcounted, hattended⟩ := hinv
  refine ⟨hcounted.running, hmax ▸ hcounted.bounded, hcounted.order, fun hne => ?_, fun hidle hnone => ?_⟩
  · exact hattended.resolve_left hne
  · rcases hattended with hqueue | hflight | hpending
    · rw [← hcounted.order, hqueue, List.append_nil]
    · exact absurd hidle hflight
    · omega

theorem queue_strands_no_job_burst :
    ∃ x, Reaches (track step noteEnqueued) (fun _ _ => True) (verifierQueue, []) x ∧
      x.1.handled = [1, 2, 3, 4] ∧ x.1.queue = [5] ∧ (x.1.inFlight ≠ [] ∨ 0 < x.1.callbacks) := by
  obtain ⟨x, hx, hp⟩ := exists_of_check
    (x := [.enqueue 1, .enqueue 2, .enqueue 3, .enqueue 4, .enqueue 5, .completed 2 false,
      .completed 1 true, .immediate].foldlM (track step noteEnqueued) (verifierQueue, []))
    (p := fun x => decide (x.1.handled = [1, 2, 3, 4] ∧ x.1.queue = [5])) (by decide)
  obtain ⟨hhandled, hqueue⟩ := of_decide_eq_true hp
  have hrun := reaches_of_along .refl (along_of_forall (fun _ _ => trivial) _ _) hx
  have hattended := (queue_strands_no_job (by decide) hrun).2.2.2.1
  exact ⟨x, hrun, hhandled, hqueue, hattended (by simp [hqueue])⟩

end VerificationQueue

end Astera.OracleService
