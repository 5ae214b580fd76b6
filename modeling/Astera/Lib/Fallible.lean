import Mathlib.Tactic.SplitIfs

/-!
# Computations that may fail

A program that returns a result or fails is a value of `Except ε α`.  This file gives `require` and
`okOr`, and the rules that read a successful run backwards, so that rewriting turns the run of a
whole `do` block into the list of facts that hold along it.
-/

namespace Fallible

variable {ε α β γ : Type}

/-- Go on when `p` holds, else fail with `e`. -/
def require (p : Prop) [Decidable p] (e : ε) : Except ε Unit := if p then .ok () else .error e

/-- The value of an option, or the failure `e` when it is missing. -/
def okOr (o : Option α) (e : ε) : Except ε α :=
  match o with
  | some a => .ok a
  | none => .error e

/-! ## Reading a successful run -/

@[simp]
theorem require_eq_ok (p : Prop) [Decidable p] (e : ε) (u : Unit) :
    require p e = .ok u ↔ p := by
  unfold require
  split_ifs with h <;> simp [h]

@[simp]
theorem okOr_eq_ok (o : Option α) (e : ε) (a : α) : okOr o e = .ok a ↔ o = some a := by
  cases o <;> simp [okOr]

@[simp]
theorem bind_eq_ok (x : Except ε α) (f : α → Except ε β) (b : β) :
    (x >>= f) = .ok b ↔ ∃ a, x = .ok a ∧ f a = .ok b := by
  cases x <;> simp [bind, Except.bind]

@[simp]
theorem pure_eq_ok (a b : α) : (pure a : Except ε α) = .ok b ↔ a = b := by
  simp [pure, Except.pure]

@[simp]
theorem map_eq_ok (x : Except ε α) (f : α → β) (b : β) :
    x.map f = .ok b ↔ ∃ a, x = .ok a ∧ f a = b := by
  cases x <;> simp [Except.map]

@[simp]
theorem mapError_eq_ok {ε' : Type} (x : Except ε α) (f : ε → ε') (a : α) :
    x.mapError f = .ok a ↔ x = .ok a := by
  cases x <;> simp [Except.mapError]

theorem toOption_eq_some {x : Except ε α} {a : α} : x.toOption = some a ↔ x = .ok a := by
  cases x <;> simp [Except.toOption]

/-- A program goes on with a result that it has. -/
theorem ok_bind (a : α) (f : α → Except ε β) : ((.ok a : Except ε α) >>= f) = f a := rfl

/-- A guard returns nothing of interest. -/
theorem exists_unit {p : Unit → Prop} : (∃ u, p u) ↔ p () := ⟨fun ⟨_, h⟩ => h, fun h => ⟨(), h⟩⟩

/-- A test that a run succeeds and that its result passes `p`. -/
def check (x : Except ε α) (p : α → Bool) : Bool :=
  match x with
  | .ok a => p a
  | .error _ => false

theorem exists_of_check {x : Except ε α} {p : α → Bool} (h : check x p = true) :
    ∃ a, x = .ok a ∧ p a = true := by
  cases x with
  | ok a => exact ⟨a, rfl, h⟩
  | error e => cases h

/-- What was checked of a run holds of its result. -/
theorem of_check {x : Except ε α} {p : α → Bool} {a : α} (h : check x p = true) (hx : x = .ok a) :
    p a = true := by
  rw [hx] at h
  exact h

def fails [DecidableEq ε] (x : Except ε α) (e : ε) : Bool :=
  match x with
  | .ok _ => false
  | .error e' => decide (e' = e)

theorem of_fails [DecidableEq ε] {x : Except ε α} {e : ε} (h : fails x e = true) : x = .error e := by
  cases x with
  | ok a => cases h
  | error e' => rw [of_decide_eq_true h]

theorem isOk_iff {x : Except ε α} : x.isOk = true ↔ ∃ a, x = .ok a := by
  cases x <;> simp [Except.isOk, Except.toBool]

theorem require_eq_error (p : Prop) [Decidable p] (e e' : ε) :
    require p e = .error e' ↔ ¬ p ∧ e = e' := by
  unfold require
  split_ifs with h <;> simp [h]

theorem okOr_eq_error (o : Option α) (e e' : ε) : okOr o e = .error e' ↔ o = none ∧ e = e' := by
  cases o <;> simp [okOr]

theorem bind_eq_error (x : Except ε α) (f : α → Except ε β) (e : ε) :
    (x >>= f) = .error e ↔ x = .error e ∨ ∃ a, x = .ok a ∧ f a = .error e := by
  cases x <;> simp [bind, Except.bind]

theorem pure_ne_error (a : α) (e : ε) : (pure a : Except ε α) ≠ .error e := by
  simp [pure, Except.pure]

theorem map_eq_error (x : Except ε α) (f : α → β) (e : ε) :
    x.map f = .error e ↔ x = .error e := by
  cases x <;> simp [Except.map]

theorem fmap_eq_error (x : Except ε α) (f : α → β) (e : ε) :
    f <$> x = .error e ↔ x = .error e := map_eq_error x f e

/-- A property that every successful iteration keeps holds at the end of the loop. -/
theorem foldlM_invariant {f : β → α → Except ε β} {P : β → Prop} {l : List α}
    (hf : ∀ b a b', a ∈ l → P b → f b a = .ok b' → P b') :
    ∀ {b b' : β}, P b → l.foldlM f b = .ok b' → P b' := by
  induction l with
  | nil =>
    intro b b' hb h
    simp only [List.foldlM_nil, pure_eq_ok] at h
    exact h ▸ hb
  | cons a l ih =>
    intro b b' hb h
    rw [List.foldlM_cons, bind_eq_ok] at h
    obtain ⟨c, hc, h⟩ := h
    have hPc : P c := hf b a c (by simp) hb hc
    exact ih (fun b a b' ha => hf b a b' (by simp [ha])) hPc h

/-! ## Postconditions -/

/-- Whatever `x` returns meets `P`. -/
def Ensures (x : Except ε α) (P : α → Prop) : Prop := ∀ a, x = .ok a → P a

section Postconditions

variable {P : α → Prop} {Q : β → Prop}

/-- Nothing is asked of the result. -/
@[simp]
theorem ensures_true (x : Except ε α) : Ensures x fun _ => True := fun _ _ => trivial

@[simp]
theorem ensures_ok (a : α) : Ensures (.ok a : Except ε α) P ↔ P a := by
  simp [Ensures]

@[simp]
theorem ensures_pure (a : α) : Ensures (pure a : Except ε α) P ↔ P a := ensures_ok a

@[simp]
theorem ensures_error (e : ε) : Ensures (.error e : Except ε α) P := by
  simp [Ensures]

@[simp]
theorem ensures_bind (x : Except ε α) (f : α → Except ε β) :
    Ensures (x >>= f) Q ↔ Ensures x fun a => Ensures (f a) Q := by
  cases x <;> simp [bind, Except.bind]

@[simp]
theorem ensures_map (x : Except ε α) (f : α → β) :
    Ensures (x.map f) Q ↔ Ensures x fun a => Q (f a) := by
  cases x <;> simp [Except.map]

@[simp]
theorem ensures_fmap (x : Except ε α) (f : α → β) :
    Ensures (f <$> x) Q ↔ Ensures x fun a => Q (f a) := ensures_map x f

theorem ensures_ite {p : Prop} [Decidable p] {x y : Except ε α} :
    Ensures (if p then x else y) P ↔ (p → Ensures x P) ∧ (¬ p → Ensures y P) := by
  split_ifs with h <;> simp [h]

/-- What every iteration keeps holds after the loop. -/
theorem ensures_foldlM {f : β → α → Except ε β} {l : List α} {b : β} (hb : Q b)
    (hf : ∀ b a, Q b → Ensures (f b a) Q) : Ensures (l.foldlM f b) Q := fun _ hx =>
  foldlM_invariant (fun b a b' _ hb hstep => hf b a hb b' hstep) hb hx

end Postconditions

end Fallible
