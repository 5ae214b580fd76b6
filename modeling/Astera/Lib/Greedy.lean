import Mathlib.Algebra.Order.BigOperators.Group.List
import Mathlib.Algebra.Order.Ring.Int
import Mathlib.Data.List.Sort

/-!
# Serving the best first

Requests are ranked by a selection sort and served in that order from a limited supply: all that
there is, or all that is asked for, and only the last request served may get a part.

A sweep serves by attempts that change a state and may fail.  It ends with the supply, with the
list, with the number of its turns, or with the first attempt that fails.
-/

namespace Greedy

variable {α : Type}

section Selection

variable (better : α → α → Prop) [DecidableRel better]

/-- Scan a list for the first of the best: the best so far with its index, and the next index. -/
def scan (best : α) (bestIdx j : ℕ) : List α → α × ℕ
  | [] => (best, bestIdx)
  | current :: rest =>
    if better current best then scan current j (j + 1) rest else scan best bestIdx (j + 1) rest

/-- Selection sort: move the best of what is left to the end of what is sorted, so many times. -/
def selectionSort : ℕ → List α → List α
  | 0, _ => []
  | _ + 1, [] => []
  | n + 1, first :: rest =>
    let best := scan better first 0 1 rest
    best.1 :: selectionSort n ((first :: rest).eraseIdx best.2)

/-- `a` is the first of the best between `before` and `after`. -/
structure FirstBest (before : List α) (a : α) (after : List α) : Prop where
  before : ∀ x ∈ before, better a x
  after : ∀ x ∈ after, ¬ better x a

variable {better}

/-- What is better than the best is better than what the best is not behind. -/
theorem better_of_better_of_not [IsTrans α fun a b => ¬ better b a] {a b c : α} (hab : better a b)
    (hcb : ¬ better c b) : better a c := by
  by_contra hac
  exact (IsTrans.trans (r := fun a b => ¬ better b a) b c a hcb hac) hab

/-- The first of the best comes first in the stable sort. -/
theorem insertionSort_of_firstBest :
    ∀ {before : List α} {a : α} {after : List α}, FirstBest better before a after →
      (before ++ a :: after).insertionSort (fun a b => ¬ better b a) =
        a :: (before ++ after).insertionSort (fun a b => ¬ better b a) := by
  intro before a after
  induction before with
  | nil =>
    intro h
    rw [List.nil_append, List.nil_append, List.insertionSort_cons]
    cases hsort : after.insertionSort (fun a b => ¬ better b a) with
    | nil => rfl
    | cons b l =>
      have hb : b ∈ after := by
        rw [← List.mem_insertionSort (fun a b => ¬ better b a), hsort]
        exact List.mem_cons_self
      exact List.orderedInsert_cons_of_le _ l (h.after b hb)
  | cons b before ih =>
    intro h
    have hrest : FirstBest better before a after :=
      ⟨fun x hx => h.before x (List.mem_cons_of_mem _ hx), h.after⟩
    have hab : ¬ ¬ better a b := not_not.2 (h.before b List.mem_cons_self)
    rw [List.cons_append, List.insertionSort_cons, ih hrest, List.orderedInsert_cons, if_neg hab,
      List.cons_append, List.insertionSort_cons]

variable [Std.Asymm better] [IsTrans α fun a b => ¬ better b a]

/-- The invariant of the scan: the best so far is the first of the best of what has been seen. -/
theorem scan_firstBest :
    ∀ (rest before : List α) (best : α) (after : List α), FirstBest better before best after →
      ∃ before' after', before ++ best :: (after ++ rest) =
          before' ++ (scan better best before.length (before.length + 1 + after.length) rest).1 ::
            after' ∧
        (scan better best before.length (before.length + 1 + after.length) rest).2 =
          before'.length ∧
        FirstBest better before'
          (scan better best before.length (before.length + 1 + after.length) rest).1 after' := by
  intro rest
  induction rest with
  | nil =>
    intro before best after h
    exact ⟨before, after, by rw [List.append_nil]; rfl, rfl, h⟩
  | cons current rest ih =>
    intro before best after h
    rw [scan]
    split_ifs with hbetter
    · -- all that has been seen is behind the new best
      have hnew : FirstBest better (before ++ best :: after) current [] := by
        refine ⟨fun x hx => ?_, by simp⟩
        rcases List.mem_append.1 hx with hx | hx
        · exact better_of_better_of_not hbetter (Std.Asymm.asymm _ _ (h.before x hx))
        · rcases List.mem_cons.1 hx with rfl | hx
          · exact hbetter
          · exact better_of_better_of_not hbetter (h.after x hx)
      have hlen : (before ++ best :: after).length = before.length + 1 + after.length := by
        rw [List.length_append, List.length_cons]
        omega
      have hsplit := ih (before ++ best :: after) current [] hnew
      rw [hlen, List.length_nil, List.nil_append, List.append_assoc, List.cons_append] at hsplit
      exact hsplit
    · have hkept : FirstBest better before best (after ++ [current]) := by
        refine ⟨h.before, fun x hx => ?_⟩
        rcases List.mem_append.1 hx with hx | hx
        · exact h.after x hx
        · rw [List.mem_singleton.1 hx]
          exact hbetter
      have hsplit := ih before best (after ++ [current]) hkept
      rw [List.length_append, List.length_singleton, List.append_assoc, List.singleton_append,
        ← Nat.add_assoc] at hsplit
      exact hsplit

/-- The selection sort agrees with the stable insertion sort. -/
theorem selectionSort_eq :
    ∀ (n : ℕ) (l : List α), l.length = n →
      selectionSort better n l = l.insertionSort fun a b => ¬ better b a := by
  intro n
  induction n with
  | zero =>
    intro l hlen
    rw [List.length_eq_zero_iff.1 hlen]
    rfl
  | succ n ih =>
    intro l hlen
    cases l with
    | nil => simp at hlen
    | cons first rest =>
      have hfirst : FirstBest better [] first [] := ⟨by simp, by simp⟩
      obtain ⟨before, after, hsplit, hidx, hbest⟩ := scan_firstBest rest [] first [] hfirst
      simp only [List.nil_append, List.length_nil, Nat.zero_add] at hsplit hidx hbest
      rw [selectionSort, hidx]
      generalize (scan better first 0 1 rest).1 = best at hsplit hbest ⊢
      have herase : (first :: rest).eraseIdx before.length = before ++ after := by
        rw [hsplit, List.eraseIdx_append_of_length_le le_rfl, Nat.sub_self, List.eraseIdx_zero,
          List.tail_cons]
      have hlen' : (before ++ after).length = n := by
        have := congrArg List.length hsplit
        simp only [List.length_cons, List.length_append] at this hlen ⊢
        omega
      rw [herase, ih _ hlen', hsplit, insertionSort_of_firstBest hbest]

end Selection

/-- Serve demands in order from a supply, each in full as long as it lasts. -/
def serve : ℤ → List ℤ → List ℤ
  | _, [] => []
  | supply, demand :: demands =>
    if supply ≤ 0 then [] else min demand supply :: serve (supply - min demand supply) demands

theorem serve_of_nonpos {supply : ℤ} (h : supply ≤ 0) (demands : List ℤ) :
    serve supply demands = [] := by
  cases demands with
  | nil => rfl
  | cons demand demands => rw [serve, if_pos h]

theorem serve_cons {supply : ℤ} (h : 0 < supply) (demand : ℤ) (demands : List ℤ) :
    serve supply (demand :: demands) =
      min demand supply :: serve (supply - min demand supply) demands := by
  rw [serve, if_neg h.not_ge]

/-- What is served is all there is or all that is asked for. -/
theorem sum_serve :
    ∀ {demands : List ℤ} {supply : ℤ}, (∀ demand ∈ demands, 0 < demand) → 0 ≤ supply →
      (serve supply demands).sum = min supply demands.sum := by
  intro demands
  induction demands with
  | nil =>
    intro supply _ hsupply
    exact (min_eq_right hsupply).symm
  | cons demand demands ih =>
    intro supply hpos hsupply
    have hdemand := hpos demand List.mem_cons_self
    have hrest : ∀ d ∈ demands, 0 < d := fun d hd => hpos d (List.mem_cons_of_mem _ hd)
    have hsum : 0 ≤ demands.sum := List.sum_nonneg fun d hd => (hrest d hd).le
    rw [List.sum_cons]
    by_cases hzero : supply ≤ 0
    · rw [serve_of_nonpos hzero, List.sum_nil]
      omega
    · rw [serve_cons (not_le.1 hzero), List.sum_cons, ih hrest (by omega)]
      omega

/-- Each demand that is served gets something and no more than it asks for. -/
theorem serve_bounds :
    ∀ {demands : List ℤ} {supply : ℤ}, (∀ demand ∈ demands, 0 < demand) →
      List.Forall₂ (fun served demand => 0 < served ∧ served ≤ demand) (serve supply demands)
        (demands.take (serve supply demands).length) := by
  intro demands
  induction demands with
  | nil =>
    intro supply _
    exact .nil
  | cons demand demands ih =>
    intro supply hpos
    by_cases hzero : supply ≤ 0
    · rw [serve_of_nonpos hzero]
      exact .nil
    · rw [serve_cons (not_le.1 hzero), List.length_cons, List.take_succ_cons]
      have hdemand := hpos demand List.mem_cons_self
      exact .cons ⟨by omega, min_le_left _ _⟩ (ih fun d hd => hpos d (List.mem_cons_of_mem _ hd))

/-- All but the last demand that is served are served in full. -/
theorem serve_full :
    ∀ {demands : List ℤ} {supply : ℤ}, (∀ demand ∈ demands, 0 < demand) →
      (serve supply demands).dropLast = (demands.take (serve supply demands).length).dropLast := by
  intro demands
  induction demands with
  | nil =>
    intro supply _
    rfl
  | cons demand demands ih =>
    intro supply hpos
    by_cases hzero : supply ≤ 0
    · rw [serve_of_nonpos hzero]
      rfl
    · have hrest := @ih (supply - min demand supply) fun d hd => hpos d (List.mem_cons_of_mem _ hd)
      rw [serve_cons (not_le.1 hzero), List.length_cons, List.take_succ_cons]
      cases hserve : serve (supply - min demand supply) demands with
      | nil => rfl
      | cons served serves =>
        -- something was left, so this demand was served in full
        have hleft : 0 < supply - min demand supply := by
          by_contra hnone
          rw [serve_of_nonpos (not_lt.1 hnone)] at hserve
          cases hserve
        have hfull : min demand supply = demand := by omega
        have hne : demands.take (served :: serves).length ≠ [] := by
          cases demands with
          | nil => cases hserve
          | cons d ds => simp
        rw [hserve] at hrest
        rw [List.dropLast_cons_of_ne_nil (List.cons_ne_nil _ _), List.dropLast_cons_of_ne_nil hne,
          hrest, hfull]

/-! ## Serving by attempts -/

/-- A turn: who was served, how much, and with what result. -/
structure Turn (α β : Type) where
  who : α
  amount : ℕ
  result : β
  deriving DecidableEq, Repr

/-- What a sweep did: its turns, the number of its attempts, the state after them and what is left. -/
structure Swept (σ α β : Type) where
  turns : List (Turn α β) := []
  attempts : ℕ := 0
  state : σ
  left : ℕ

section Sweep

variable {σ β : Type} (size : α → ℕ) (attempt : σ → α → ℕ → Option (β × σ))

/-- Serve a ranked list from a supply, in so many attempts, up to the first one that fails. -/
def sweep : ℕ → σ → ℕ → List α → Swept σ α β
  | _, w, supply, [] => { state := w, left := supply }
  | n, w, supply, a :: rest =>
    if n = 0 ∨ supply = 0 then { state := w, left := supply }
    else
      match attempt w a (min supply (size a)) with
      | none => { attempts := 1, state := w, left := supply }
      | some (b, w') =>
        let swept := sweep (n - 1) w' (supply - min supply (size a)) rest
        { swept with
          turns := ⟨a, min supply (size a), b⟩ :: swept.turns
          attempts := swept.attempts + 1 }

/-- Attempts that succeed one after the other. -/
inductive Turns : σ → List (Turn α β) → σ → Prop
  | nil (w : σ) : Turns w [] w
  | cons {w w' w'' : σ} {turn : Turn α β} {turns : List (Turn α β)}
      (hhead : attempt w turn.who turn.amount = some (turn.result, w')) (htail : Turns w' turns w'') :
      Turns w (turn :: turns) w''

/-- All of `before` can be served in full one after the other, and there is something left for one
more. -/
structure ServedUpTo (n : ℕ) (w : σ) (supply : ℕ) (before : List α) (w' : σ) : Prop where
  turns : before.length < n
  supply : (before.map size).sum < supply
  state : before.foldlM (fun w a => (attempt w a (size a)).map Prod.snd) w = some w'

variable {size attempt}
variable {n : ℕ} {w w' : σ} {supply : ℕ} {a : α} {l : List α}

theorem sweep_of_done (h : n = 0 ∨ supply = 0) :
    sweep size attempt n w supply l = { state := w, left := supply } := by
  cases l with
  | nil => rfl
  | cons a rest => rw [sweep, if_pos h]

theorem sweep_of_failed (hn : n ≠ 0) (hsupply : supply ≠ 0)
    (h : attempt w a (min supply (size a)) = none) :
    sweep size attempt n w supply (a :: l) = { attempts := 1, state := w, left := supply } := by
  rw [sweep, if_neg (not_or.2 ⟨hn, hsupply⟩), h]

theorem sweep_of_served {b : β} (hn : n ≠ 0) (hsupply : supply ≠ 0)
    (h : attempt w a (min supply (size a)) = some (b, w')) :
    sweep size attempt n w supply (a :: l) =
      { sweep size attempt (n - 1) w' (supply - min supply (size a)) l with
        turns := ⟨a, min supply (size a), b⟩ ::
          (sweep size attempt (n - 1) w' (supply - min supply (size a)) l).turns
        attempts := (sweep size attempt (n - 1) w' (supply - min supply (size a)) l).attempts + 1 } := by
  rw [sweep, if_neg (not_or.2 ⟨hn, hsupply⟩), h]

structure Serves (size : α → ℕ) (attempt : σ → α → ℕ → Option (β × σ)) (n : ℕ) (w : σ) (supply : ℕ)
    (l : List α) (swept : Swept σ α β) : Prop where
  /-- Nobody is passed over. -/
  who : swept.turns.map Turn.who <+: l
  length : swept.turns.length ≤ swept.attempts
  attempts : swept.attempts ≤ n
  sum : (swept.turns.map Turn.amount).sum + swept.left = supply
  le : ∀ turn ∈ swept.turns, turn.amount ≤ size turn.who
  pos : (∀ a ∈ l, 0 < size a) → ∀ turn ∈ swept.turns, 0 < turn.amount
  /-- Only the last turn may be partial. -/
  full : ∀ before turn after, swept.turns = before ++ turn :: after →
    ∀ t ∈ before, t.amount = size t.who
  /-- If something is left no turn is partial. -/
  left : 0 < swept.left → ∀ turn ∈ swept.turns, turn.amount = size turn.who
  state : Turns attempt w swept.turns swept.state

theorem serves_idle {attempts : ℕ} (h : attempts ≤ n) :
    Serves size attempt n w supply l { attempts := attempts, state := w, left := supply } where
  who := List.nil_prefix
  length := Nat.zero_le _
  attempts := h
  sum := Nat.zero_add _
  le := by simp
  pos := by simp
  full := by simp
  left := by simp
  state := .nil w

theorem sweep_serves :
    ∀ (l : List α) (n : ℕ) (w : σ) (supply : ℕ),
      Serves size attempt n w supply l (sweep size attempt n w supply l) := by
  intro l
  induction l with
  | nil =>
    intro n w supply
    exact serves_idle (Nat.zero_le _)
  | cons a l ih =>
    intro n w supply
    by_cases hdone : n = 0 ∨ supply = 0
    · rw [sweep_of_done hdone]
      exact serves_idle (Nat.zero_le _)
    · obtain ⟨hn, hsupply⟩ := not_or.1 hdone
      cases hattempt : attempt w a (min supply (size a)) with
      | none =>
        rw [sweep_of_failed hn hsupply hattempt]
        exact serves_idle (Nat.one_le_iff_ne_zero.2 hn)
      | some x =>
        obtain ⟨b, w'⟩ := x
        have hrest := ih (n - 1) w' (supply - min supply (size a))
        have hnone : min supply (size a) ≠ size a →
            (sweep size attempt (n - 1) w' (supply - min supply (size a)) l).turns = [] ∧
              (sweep size attempt (n - 1) w' (supply - min supply (size a)) l).left = 0 := by
          intro hpart
          have hzero : supply - min supply (size a) = 0 := by omega
          rw [sweep_of_done (.inr hzero)]
          exact ⟨rfl, hzero⟩
        rw [sweep_of_served hn hsupply hattempt]
        generalize sweep size attempt (n - 1) w' (supply - min supply (size a)) l = swept at *
        refine ⟨?_, ?_, ?_, ?_, ?_, ?_, ?_, ?_, .cons hattempt hrest.state⟩
        · exact List.prefix_cons_inj a |>.2 hrest.who
        · exact Nat.succ_le_succ hrest.length
        · have := hrest.attempts
          simp only
          omega
        · have := hrest.sum
          simp only [List.map_cons, List.sum_cons]
          omega
        · exact List.forall_mem_cons.2 ⟨min_le_right _ _, hrest.le⟩
        · intro hpos
          obtain ⟨ha, hl⟩ := List.forall_mem_cons.1 hpos
          refine List.forall_mem_cons.2 ⟨?_, hrest.pos hl⟩
          simp only
          omega
        · intro before turn after hsplit t ht
          cases before with
          | nil => simp at ht
          | cons first before =>
            obtain ⟨rfl, hafter⟩ := List.cons.inj hsplit
            rcases List.mem_cons.1 ht with rfl | ht
            · -- another turn follows, so something was left
              by_contra hpart
              rw [(hnone hpart).1] at hafter
              simp at hafter
            · exact hrest.full before turn after hafter t ht
        · intro hleft
          refine List.forall_mem_cons.2 ⟨?_, hrest.left hleft⟩
          by_contra hpart
          exact hleft.ne' (hnone hpart).2

/-- A sweep goes through all that can be served in full. -/
theorem sweep_append :
    ∀ {before : List α} {n : ℕ} {w : σ} {supply : ℕ}, ServedUpTo size attempt n w supply before w' →
      ∃ turns : List (Turn α β), turns.map Turn.who = before ∧
        sweep size attempt n w supply (before ++ l) =
          { sweep size attempt (n - before.length) w' (supply - (before.map size).sum) l with
            turns := turns ++
              (sweep size attempt (n - before.length) w' (supply - (before.map size).sum) l).turns
            attempts := before.length +
              (sweep size attempt (n - before.length) w' (supply - (before.map size).sum) l).attempts } := by
  intro before
  induction before with
  | nil =>
    intro n w supply h
    obtain rfl := Option.some.inj h.state
    exact ⟨[], rfl, by simp⟩
  | cons a before ih =>
    intro n w supply h
    obtain ⟨hturns, hsupply, hstate⟩ := h
    rw [List.foldlM_cons, Option.bind_eq_bind, Option.bind_eq_some_iff] at hstate
    obtain ⟨_, hfirst, hstate⟩ := hstate
    obtain ⟨⟨b, w₁⟩, hattempt, rfl⟩ := Option.map_eq_some_iff.1 hfirst
    rw [List.length_cons] at hturns
    rw [List.map_cons, List.sum_cons] at hsupply
    have hmin : min supply (size a) = size a := by omega
    have hrest : ServedUpTo size attempt (n - 1) w₁ (supply - size a) before w' :=
      ⟨by omega, by omega, hstate⟩
    obtain ⟨turns, hwho, hsweep⟩ := ih hrest
    refine ⟨⟨a, size a, b⟩ :: turns, by rw [List.map_cons, hwho], ?_⟩
    rw [← hmin] at hattempt
    have hn : n - (before.length + 1) = n - 1 - before.length := by omega
    have hleft : supply - (size a + (before.map size).sum) =
        supply - size a - (before.map size).sum := by omega
    rw [List.cons_append, sweep_of_served (by omega) (by omega) hattempt, hmin, hsweep,
      List.length_cons, List.map_cons, List.sum_cons, hn, hleft]
    simp only [List.cons_append, Swept.mk.injEq, true_and, and_true]
    omega

/-- Whoever can be served when all before him are served in full is served. -/
theorem mem_turns_of_servedUpTo {before after : List α} {w' w'' : σ} {b : β}
    (h : ServedUpTo size attempt n w supply before w')
    (hserved : attempt w' a (min (supply - (before.map size).sum) (size a)) = some (b, w'')) :
    ∃ turn ∈ (sweep size attempt n w supply (before ++ a :: after)).turns, turn.who = a := by
  obtain ⟨turns, -, hsweep⟩ := sweep_append (l := a :: after) h
  have hturns := h.turns
  have hsupply := h.supply
  rw [hsweep, sweep_of_served (by omega) (by omega) hserved]
  exact ⟨_, List.mem_append_right _ List.mem_cons_self, rfl⟩

/-- Whoever is served has had all before him served in full. -/
theorem servedUpTo_of_mem_turns :
    ∀ {l : List α} {n : ℕ} {w : σ} {supply : ℕ} {turn : Turn α β},
      turn ∈ (sweep size attempt n w supply l).turns →
      ∃ before after w₁ w₂, l = before ++ turn.who :: after ∧ ServedUpTo size attempt n w supply before w₁ ∧
        turn.amount = min (supply - (before.map size).sum) (size turn.who) ∧
        attempt w₁ turn.who turn.amount = some (turn.result, w₂) := by
  intro l
  induction l with
  | nil =>
    intro n w supply turn hturn
    simp [sweep] at hturn
  | cons a l ih =>
    intro n w supply turn hturn
    by_cases hdone : n = 0 ∨ supply = 0
    · rw [sweep_of_done hdone] at hturn
      simp at hturn
    · obtain ⟨hn, hsupply⟩ := not_or.1 hdone
      cases hattempt : attempt w a (min supply (size a)) with
      | none =>
        rw [sweep_of_failed hn hsupply hattempt] at hturn
        simp at hturn
      | some x =>
        obtain ⟨b, w'⟩ := x
        rw [sweep_of_served hn hsupply hattempt] at hturn
        rcases List.mem_cons.1 hturn with rfl | hturn
        · exact ⟨[], l, w, w', rfl, ⟨Nat.pos_of_ne_zero hn, Nat.pos_of_ne_zero hsupply, rfl⟩, rfl,
            hattempt⟩
        · obtain ⟨before, after, w₁, w₂, rfl, hreach, hamount, hresult⟩ := ih hturn
          have hmin : min supply (size a) = size a := by
            have := hreach.supply
            omega
          rw [hmin] at hattempt hreach hamount
          refine ⟨a :: before, after, w₁, w₂, rfl, ⟨?_, ?_, ?_⟩, ?_, hresult⟩
          · have := hreach.turns
            rw [List.length_cons]
            omega
          · have := hreach.supply
            rw [List.map_cons, List.sum_cons]
            omega
          · rw [List.foldlM_cons, hattempt]
            exact hreach.state
          · rw [hamount, List.map_cons, List.sum_cons, Nat.sub_add_eq]

/-- How a sweep ends that leaves something and has attempts left: with the list, or with the first
one that could not be served. -/
theorem sweep_end :
    ∀ {l : List α} {n : ℕ} {w : σ} {supply : ℕ},
      0 < (sweep size attempt n w supply l).left → (sweep size attempt n w supply l).attempts < n →
      (sweep size attempt n w supply l).turns.map Turn.who = l ∨
        ∃ blocker after, l = (sweep size attempt n w supply l).turns.map Turn.who ++ blocker :: after ∧
          ServedUpTo size attempt (n - 1) w supply ((sweep size attempt n w supply l).turns.map Turn.who)
            (sweep size attempt n w supply l).state ∧
          attempt (sweep size attempt n w supply l).state blocker
            (min (sweep size attempt n w supply l).left (size blocker)) = none := by
  intro l
  induction l with
  | nil =>
    intro n w supply _ _
    exact .inl rfl
  | cons a l ih =>
    intro n w supply hleft hattempts
    by_cases hdone : n = 0 ∨ supply = 0
    · rw [sweep_of_done hdone] at hleft hattempts
      simp only at hleft hattempts
      omega
    · obtain ⟨hn, hsupply⟩ := not_or.1 hdone
      cases hattempt : attempt w a (min supply (size a)) with
      | none =>
        rw [sweep_of_failed hn hsupply hattempt] at hleft hattempts ⊢
        exact .inr ⟨a, l, rfl, ⟨by simp only [List.map_nil, List.length_nil] at *; omega,
          Nat.pos_of_ne_zero hsupply, rfl⟩, hattempt⟩
      | some x =>
        obtain ⟨b, w'⟩ := x
        rw [sweep_of_served hn hsupply hattempt] at hleft hattempts ⊢
        simp only [List.map_cons] at hleft hattempts ⊢
        have hmin : min supply (size a) = size a := by
          by_contra hpart
          have hzero : supply - min supply (size a) = 0 := by omega
          rw [sweep_of_done (.inr hzero)] at hleft
          exact hleft.ne' hzero
        rw [hmin] at hleft hattempts hattempt ⊢
        rcases ih hleft (by omega) with hall | ⟨blocker, after, hsplit, hreach, hfailed⟩
        · exact .inl (congrArg (a :: ·) hall)
        · refine .inr ⟨blocker, after, ?_, ⟨?_, ?_, ?_⟩, hfailed⟩
          · exact congrArg (a :: ·) hsplit
          · have := hreach.turns
            rw [List.length_cons]
            omega
          · have := hreach.supply
            rw [List.map_cons, List.sum_cons]
            omega
          · rw [List.foldlM_cons, hattempt]
            exact hreach.state

end Sweep

end Greedy
