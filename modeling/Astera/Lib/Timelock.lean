import Mathlib.Data.List.Basic

/-!
# Timelocks

Changes are proposed, and later executed or cancelled.  The log of a timelock lists these steps, the
newest first; a slot holds one proposal at a time.  By `Timely` an execution follows its own
proposal with no other step of the slot in between, after the delay that the proposal was given.
`Tracks` relates a log to what is pending in each slot and what was executed last.
-/

namespace Timelock

variable {σ κ : Type}

inductive Entry (σ κ : Type)
  | proposed (slot : σ) (change : κ) (time delay : ℕ)
  | executed (slot : σ) (change : κ) (time : ℕ)
  | cancelled (slot : σ)
  deriving DecidableEq, Repr

def Entry.slot : Entry σ κ → σ
  | .proposed slot .. => slot
  | .executed slot .. => slot
  | .cancelled slot => slot

/-- The last step of the slot proposes the change, with a delay of at least `minDelay` that is over
at `time`. -/
def Waiting (minDelay : ℕ) (log : List (Entry σ κ)) (slot : σ) (change : κ) (time : ℕ) : Prop :=
  ∃ newer older proposedAt delay, log = newer ++ .proposed slot change proposedAt delay :: older ∧
    (∀ e ∈ newer, e.slot ≠ slot) ∧ proposedAt + delay ≤ time ∧ minDelay ≤ delay

def LastProposed (log : List (Entry σ κ)) (slot : σ) (change : κ) (time delay : ℕ) : Prop :=
  ∃ newer older, log = newer ++ .proposed slot change time delay :: older ∧
    ∀ e ∈ newer, e.slot ≠ slot

/-- Every execution in the log was waiting to happen. -/
def Timely (minDelay : ℕ) (log : List (Entry σ κ)) : Prop :=
  ∀ newer older slot change time, log = newer ++ .executed slot change time :: older →
    Waiting minDelay older slot change time

def lastExecuted [DecidableEq σ] (slot : σ) : List (Entry σ κ) → Option κ
  | [] => none
  | .executed slot' change _ :: log => if slot' = slot then some change else lastExecuted slot log
  | .proposed .. :: log => lastExecuted slot log
  | .cancelled _ :: log => lastExecuted slot log

variable {minDelay : ℕ} {log : List (Entry σ κ)} {slot : σ} {change : κ} {time : ℕ}

theorem waiting_of_proposed {delay : ℕ} (hdelay : minDelay ≤ delay) :
    Waiting minDelay (.proposed slot change time delay :: log) slot change (time + delay) :=
  ⟨[], log, time, delay, rfl, by simp, Nat.le_refl _, hdelay⟩

/-- What waits in a slot whose last step is a proposal is that proposal. -/
theorem Waiting.of_proposed {change' : κ} {time' delay : ℕ}
    (hw : Waiting minDelay (.proposed slot change time delay :: log) slot change' time') :
    change' = change ∧ time + delay ≤ time' ∧ minDelay ≤ delay := by
  obtain ⟨newer, older, proposedAt, delay', hlog, hnewer, hover, hdelay⟩ := hw
  rcases List.cons_eq_append_iff.1 hlog with ⟨-, hhead⟩ | ⟨newer', rfl, -⟩
  · injection hhead with hentry _
    injection hentry with _ hchange htime hdelays
    subst hchange htime hdelays
    exact ⟨rfl, hover, hdelay⟩
  · exact absurd rfl (hnewer _ (List.mem_cons_self ..))

theorem Waiting.mono {time' : ℕ} (hw : Waiting minDelay log slot change time) (hle : time ≤ time') :
    Waiting minDelay log slot change time' := by
  obtain ⟨newer, older, proposedAt, delay, hlog, hnewer, hover, hdelay⟩ := hw
  exact ⟨newer, older, proposedAt, delay, hlog, hnewer, Nat.le_trans hover hle, hdelay⟩

/-- A proposal goes on waiting while other slots move. -/
theorem Waiting.cons {e : Entry σ κ} (hw : Waiting minDelay log slot change time)
    (he : e.slot ≠ slot) : Waiting minDelay (e :: log) slot change time := by
  obtain ⟨newer, older, proposedAt, delay, rfl, hnewer, hover, hdelay⟩ := hw
  exact ⟨e :: newer, older, proposedAt, delay, rfl, by simpa using ⟨he, hnewer⟩, hover, hdelay⟩

theorem lastProposed_self {delay : ℕ} :
    LastProposed (.proposed slot change time delay :: log) slot change time delay :=
  ⟨[], log, rfl, by simp⟩

/-- A step of another slot leaves the last proposal of a slot. -/
theorem lastProposed_cons_of_ne {e : Entry σ κ} {delay : ℕ} (he : e.slot ≠ slot) :
    LastProposed (e :: log) slot change time delay ↔ LastProposed log slot change time delay := by
  constructor
  · rintro ⟨newer, older, hlog, hnewer⟩
    rcases List.cons_eq_append_iff.1 hlog with ⟨-, hhead⟩ | ⟨newer', rfl, hlog'⟩
    · obtain ⟨rfl, -⟩ := List.cons.inj hhead
      exact absurd rfl he
    · exact ⟨newer', older, hlog', fun e' he' => hnewer e' (List.mem_cons_of_mem _ he')⟩
  · rintro ⟨newer, older, rfl, hnewer⟩
    exact ⟨e :: newer, older, rfl, by simpa using ⟨he, hnewer⟩⟩

/-- A step of a slot that is no such proposal is its last step. -/
theorem not_lastProposed_cons {e : Entry σ κ} {delay : ℕ} (he : e.slot = slot)
    (hne : e ≠ .proposed slot change time delay) :
    ¬ LastProposed (e :: log) slot change time delay := by
  rintro ⟨newer, older, hlog, hnewer⟩
  rcases List.cons_eq_append_iff.1 hlog with ⟨-, hhead⟩ | ⟨newer', rfl, -⟩
  · exact hne (List.cons.inj hhead).1.symm
  · exact hnewer e List.mem_cons_self he

theorem not_lastProposed_nil {delay : ℕ} :
    ¬ LastProposed ([] : List (Entry σ κ)) slot change time delay := by
  rintro ⟨newer, older, hlog, -⟩
  simp at hlog

theorem LastProposed.waiting {time' delay : ℕ} (h : LastProposed log slot change time delay)
    (hover : time + delay ≤ time') (hdelay : minDelay ≤ delay) :
    Waiting minDelay log slot change time' := by
  obtain ⟨newer, older, hlog, hnewer⟩ := h
  exact ⟨newer, older, time, delay, hlog, hnewer, hover, hdelay⟩

theorem timely_nil : Timely minDelay ([] : List (Entry σ κ)) := by
  intro newer older slot change time hlog
  simp at hlog

/-- A log stays timely when the step that is added to it is no execution, or one that was
waiting. -/
theorem Timely.cons {e : Entry σ κ} (ht : Timely minDelay log)
    (he : ∀ slot change time, e = .executed slot change time →
      Waiting minDelay log slot change time) : Timely minDelay (e :: log) := by
  intro newer older slot change time hlog
  rcases List.cons_eq_append_iff.1 hlog with ⟨-, hhead⟩ | ⟨newer', -, hlog⟩
  · obtain ⟨hexecuted, rfl⟩ := List.cons.inj hhead
    exact he slot change time hexecuted.symm
  · exact ht newer' older slot change time hlog

/-- The log explains what is pending, with the time from which it may be executed, and what was
executed last. -/
structure Tracks [DecidableEq σ] (minDelay : ℕ) (log : List (Entry σ κ))
    (pending : σ → Option (κ × ℕ)) (done : σ → Option κ) : Prop where
  waiting : ∀ slot change ready, pending slot = some (change, ready) →
    Waiting minDelay log slot change ready
  executed : ∀ slot, lastExecuted slot log = done slot
  timely : Timely minDelay log

section Steps

variable [DecidableEq σ] {pending : σ → Option (κ × ℕ)} {done : σ → Option κ}

theorem tracks_nil : Tracks minDelay ([] : List (Entry σ κ)) (fun _ => none) (fun _ => none) :=
  ⟨by simp, fun _ => rfl, timely_nil⟩

/-- What is pending elsewhere is explained by the longer log. -/
theorem Tracks.elsewhere {e : Entry σ κ} (ht : Tracks minDelay log pending done)
    {entry : Option (κ × ℕ)} (hentry : ∀ change ready, entry = some (change, ready) →
      Waiting minDelay (e :: log) e.slot change ready) (slot : σ) (change : κ) (ready : ℕ)
    (hpending : Function.update pending e.slot entry slot = some (change, ready)) :
    Waiting minDelay (e :: log) slot change ready := by
  by_cases hslot : slot = e.slot
  · subst hslot
    rw [Function.update_self] at hpending
    exact hentry change ready hpending
  · rw [Function.update_of_ne hslot] at hpending
    exact (ht.waiting slot change ready hpending).cons fun h => hslot h.symm

theorem Tracks.propose {delay : ℕ} (ht : Tracks minDelay log pending done)
    (hdelay : minDelay ≤ delay) (slot : σ) (change : κ) (time : ℕ) :
    Tracks minDelay (.proposed slot change time delay :: log)
      (Function.update pending slot (some (change, time + delay))) done := by
  refine ⟨ht.elsewhere (e := .proposed slot change time delay) ?_, ht.executed, ht.timely.cons ?_⟩
  · rintro change' ready ⟨⟩
    exact waiting_of_proposed hdelay
  · exact nofun

theorem Tracks.execute {ready : ℕ} (ht : Tracks minDelay log pending done)
    (hpending : pending slot = some (change, ready)) (hready : ready ≤ time) :
    Tracks minDelay (.executed slot change time :: log) (Function.update pending slot none)
      (Function.update done slot (some change)) := by
  refine ⟨ht.elsewhere (e := .executed slot change time) nofun, ?_, ht.timely.cons ?_⟩
  · intro slot'
    unfold lastExecuted
    rw [Function.update_apply, ht.executed slot']
    split_ifs with h₁ h₂ h₂
    · rfl
    · exact absurd h₁.symm h₂
    · exact absurd h₂.symm h₁
    · rfl
  · rintro slot' change' time' ⟨⟩
    exact (ht.waiting slot change ready hpending).mono hready

theorem Tracks.cancel (ht : Tracks minDelay log pending done) (slot : σ) :
    Tracks minDelay (.cancelled slot :: log) (Function.update pending slot none) done := by
  exact ⟨ht.elsewhere (e := .cancelled slot) nofun, ht.executed, ht.timely.cons nofun⟩

end Steps

end Timelock
