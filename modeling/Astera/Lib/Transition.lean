import Astera.Lib.Fallible

/-!
# Runs of a fallible step function

A machine is a step function `step : σ → ι → Except ε σ`; a run is the sequence of its successful
steps.  `Reaches` collects the states of all runs whose inputs meet a condition in the state they
are taken in, `Along` is that condition for a batch, and `track` adds a history variable that no
step reads.
-/

namespace Transition

open Fallible

variable {σ ι ε γ : Type}
variable {P : σ → Prop} {step : σ → ι → Except ε σ} {ok : σ → ι → Prop}

/-- The states reached from `s₀` by successful steps whose inputs meet `ok`. -/
inductive Reaches (step : σ → ι → Except ε σ) (ok : σ → ι → Prop) (s₀ : σ) : σ → Prop
  | refl : Reaches step ok s₀ s₀
  | next {s s' : σ} {i : ι} :
      Reaches step ok s₀ s → ok s i → step s i = .ok s' → Reaches step ok s₀ s'

/-- What holds at the start and survives every step that meets the condition holds throughout. -/
theorem Reaches.invariant {s₀ s : σ} (hrun : Reaches step ok s₀ s) (hinit : P s₀)
    (hstep : ∀ s i s', P s → ok s i → step s i = .ok s' → P s') : P s := by
  induction hrun with
  | refl => exact hinit
  | next _ hok h ih => exact hstep _ _ _ ih hok h

/-! ## Batches -/

/-- Every input of a batch meets `ok` in the state that the inputs before it leave. -/
def Along (step : σ → ι → Except ε σ) (ok : σ → ι → Prop) : σ → List ι → Prop
  | _, [] => True
  | s, i :: is => ok s i ∧ ∀ s', step s i = .ok s' → Along step ok s' is

/-- Whether a batch meets `ok` is found by running it. -/
instance decidableAlong (step : σ → ι → Except ε σ) (ok : σ → ι → Prop)
    [∀ s i, Decidable (ok s i)] : ∀ (is : List ι) (s : σ), Decidable (Along step ok s is)
  | [], _ => .isTrue trivial
  | i :: is, s =>
    match h : step s i with
    | .error _ => decidable_of_iff (ok s i) (by simp [Along, h])
    | .ok s' =>
      have := decidableAlong step ok is s'
      decidable_of_iff (ok s i ∧ Along step ok s' is) (by simp [Along, h])

/-- A condition that always holds is met by every batch. -/
theorem along_of_forall (hok : ∀ s i, ok s i) :
    ∀ (is : List ι) (s : σ), Along step ok s is := by
  intro is
  induction is with
  | nil =>
    intro s
    exact trivial
  | cons i is ih =>
    intro s
    exact ⟨hok s i, fun s' _ => ih s'⟩

/-- A condition that every input of a batch meets in any state is met by the batch. -/
theorem along_of_forall_mem :
    ∀ {is : List ι} {s : σ}, (∀ i ∈ is, ∀ s, ok s i) → Along step ok s is := by
  intro is
  induction is with
  | nil =>
    intro s _
    exact trivial
  | cons i is ih =>
    intro s hok
    exact ⟨hok i List.mem_cons_self s,
      fun s' _ => ih fun j hj => hok j (List.mem_cons_of_mem _ hj)⟩

/-- Two conditions that agree on the steps that succeed agree on a batch that succeeds. -/
theorem along_congr {ok ok' : σ → ι → Prop} (hstep : ∀ s i s', P s → step s i = .ok s' → P s')
    (hiff : ∀ s i s', P s → step s i = .ok s' → (ok s i ↔ ok' s i)) :
    ∀ {is : List ι} {s s' : σ}, P s → is.foldlM step s = .ok s' →
      (Along step ok s is ↔ Along step ok' s is) := by
  intro is
  induction is with
  | nil =>
    intro s s' _ _
    exact Iff.rfl
  | cons i is ih =>
    intro s s' hs h
    rw [List.foldlM_cons, bind_eq_ok] at h
    obtain ⟨t, ht, h⟩ := h
    refine and_congr (hiff s i t hs ht) (forall_congr' fun u => forall_congr' fun hu => ?_)
    obtain rfl : t = u := Except.ok.inj (ht.symm.trans hu)
    exact ih (hstep s i t hs ht) h

/-- A batch that meets two conditions meets both at once. -/
theorem Along.and {ok ok' : σ → ι → Prop} :
    ∀ {is : List ι} {s : σ}, Along step ok s is → Along step ok' s is →
      Along step (fun s i => ok s i ∧ ok' s i) s is := by
  intro is
  induction is with
  | nil =>
    intro s _ _
    exact trivial
  | cons i is ih =>
    intro s h h'
    exact ⟨⟨h.1, h'.1⟩, fun t ht => ih (h.2 t ht) (h'.2 t ht)⟩

/-- Two conditions that agree on the steps of a batch agree on the batch. -/
theorem Along.congr {ok₀ ok ok' : σ → ι → Prop}
    (hiff : ∀ s i s', ok₀ s i → step s i = .ok s' → (ok s i ↔ ok' s i)) :
    ∀ {is : List ι} {s s' : σ}, Along step ok₀ s is → is.foldlM step s = .ok s' →
      (Along step ok s is ↔ Along step ok' s is) := by
  intro is
  induction is with
  | nil =>
    intro s s' _ _
    exact Iff.rfl
  | cons i is ih =>
    intro s s' hok h
    rw [List.foldlM_cons, bind_eq_ok] at h
    obtain ⟨t, ht, h⟩ := h
    refine and_congr (hiff s i t hok.1 ht) (forall_congr' fun u => forall_congr' fun hu => ?_)
    obtain rfl : t = u := Except.ok.inj (ht.symm.trans hu)
    exact ih (hok.2 t ht) h

/-- A property that every step meeting `ok` keeps is kept by a batch. -/
theorem foldlM_along (hstep : ∀ s i s', P s → ok s i → step s i = .ok s' → P s') :
    ∀ {is : List ι} {s s' : σ}, Along step ok s is → P s → is.foldlM step s = .ok s' → P s' := by
  intro is
  induction is with
  | nil =>
    intro s s' _ hs h
    simp only [List.foldlM_nil, pure_eq_ok] at h
    exact h ▸ hs
  | cons i is ih =>
    intro s s' hok hs h
    rw [List.foldlM_cons, bind_eq_ok] at h
    obtain ⟨t, ht, h⟩ := h
    exact ih (hok.2 t ht) (hstep s i t hs hok.1 ht) h

theorem along_append {js : List ι} :
    ∀ {is : List ι} {s : σ}, Along step ok s is →
      (∀ s', is.foldlM step s = .ok s' → Along step ok s' js) → Along step ok s (is ++ js) := by
  intro is
  induction is with
  | nil =>
    intro s _ hjs
    exact hjs s rfl
  | cons i is ih =>
    intro s his hjs
    refine ⟨his.1, fun t ht => ih (his.2 t ht) fun s' hs' => hjs s' ?_⟩
    rw [List.foldlM_cons, bind_eq_ok]
    exact ⟨t, ht, hs'⟩

/-- A batch whose inputs meet `ok` is a run. -/
theorem reaches_of_along {s₀ : σ} :
    ∀ {is : List ι} {s s' : σ}, Reaches step ok s₀ s → Along step ok s is →
      is.foldlM step s = .ok s' → Reaches step ok s₀ s' := by
  intro is
  induction is with
  | nil =>
    intro s s' hs _ h
    simp only [List.foldlM_nil, pure_eq_ok] at h
    exact h ▸ hs
  | cons i is ih =>
    intro s s' hs hok h
    rw [List.foldlM_cons, bind_eq_ok] at h
    obtain ⟨t, ht, h⟩ := h
    exact ih (hs.next hok.1 ht) (hok.2 t ht) h

/-- A step together with a history variable. -/
def track (step : σ → ι → Except ε σ) (note : σ → ι → σ → γ → γ) (x : σ × γ) (i : ι) :
    Except ε (σ × γ) :=
  (step x.1 i).map fun s' => (s', note x.1 i s' x.2)

@[simp]
theorem track_eq_ok (step : σ → ι → Except ε σ) (note : σ → ι → σ → γ → γ) (x y : σ × γ) (i : ι) :
    track step note x i = .ok y ↔ step x.1 i = .ok y.1 ∧ y.2 = note x.1 i y.1 x.2 := by
  unfold track
  rw [map_eq_ok]
  constructor
  · rintro ⟨s', h, rfl⟩
    exact ⟨h, rfl⟩
  · rintro ⟨h, hn⟩
    exact ⟨y.1, h, Prod.ext rfl hn.symm⟩

/-- A history variable does not change which batches succeed. -/
theorem foldlM_track (step : σ → ι → Except ε σ) (note : σ → ι → σ → γ → γ) :
    ∀ (is : List ι) (s s' : σ) (g : γ), is.foldlM step s = .ok s' →
      ∃ g', is.foldlM (track step note) (s, g) = .ok (s', g') := by
  intro is
  induction is with
  | nil =>
    intro s s' g h
    simp only [List.foldlM_nil, pure_eq_ok] at h
    exact ⟨g, by simp [h]⟩
  | cons i is ih =>
    intro s s' g h
    rw [List.foldlM_cons, bind_eq_ok] at h
    obtain ⟨t, ht, h⟩ := h
    obtain ⟨g', hg'⟩ := ih t s' (note s i t g) h
    refine ⟨g', ?_⟩
    rw [List.foldlM_cons, bind_eq_ok]
    exact ⟨(t, note s i t g), by simp [ht], hg'⟩

/-- A run goes along with any history. -/
theorem Reaches.track {s₀ s : σ} (hrun : Reaches step ok s₀ s) (note : σ → ι → σ → γ → γ) (g₀ : γ) :
    ∃ g, Reaches (track step note) (fun x => ok x.1) (s₀, g₀) (s, g) := by
  induction hrun with
  | refl => exact ⟨g₀, .refl⟩
  | @next s s' i _ hok hstep ih =>
    obtain ⟨g, hg⟩ := ih
    exact ⟨note s i s' g, hg.next hok (by simp [hstep])⟩

end Transition
