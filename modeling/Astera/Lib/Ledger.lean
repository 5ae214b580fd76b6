import Mathlib.Tactic.Ring
import Astera.Lib.Fallible

/-!
# Balances of a token

The balances of one token, and the move of an amount from one holder to another.  A transfer moves
exactly its amount or fails; a transfer to oneself changes nothing.
-/

namespace Ledger

variable {α : Type} [DecidableEq α]

/-- The balances after `amount` moved; the receiver's is read after the sender's was written. -/
def move (balances : α → ℤ) (sender receiver : α) (amount : ℤ) : α → ℤ :=
  let debited := Function.update balances sender (balances sender - amount)
  Function.update debited receiver (debited receiver + amount)

/-- A transfer of an amount that is not negative and that the sender has. -/
def transfer (balances : α → ℤ) (sender receiver : α) (amount : ℤ) : Option (α → ℤ) :=
  if 0 ≤ amount ∧ amount ≤ balances sender then some (move balances sender receiver amount) else none

theorem move_apply (balances : α → ℤ) (sender receiver : α) (amount : ℤ) (a : α) :
    move balances sender receiver amount a =
      balances a - (if a = sender then amount else 0) + if a = receiver then amount else 0 := by
  unfold move
  by_cases hr : a = receiver
  · subst hr
    by_cases hs : a = sender
    · subst hs
      simp
    · simp [hs]
  · by_cases hs : a = sender
    · subst hs
      simp [hr]
    · simp [hr, hs]

theorem move_sender (balances : α → ℤ) {sender receiver : α} (amount : ℤ) (hne : sender ≠ receiver) :
    move balances sender receiver amount sender = balances sender - amount := by
  rw [move_apply, if_pos rfl, if_neg hne, add_zero]

theorem move_receiver (balances : α → ℤ) {sender receiver : α} (amount : ℤ)
    (hne : receiver ≠ sender) :
    move balances sender receiver amount receiver = balances receiver + amount := by
  rw [move_apply, if_neg hne, if_pos rfl, sub_zero]

/-- What anyone but the sender has after a move. -/
theorem move_of_ne (balances : α → ℤ) {sender : α} (receiver : α) (amount : ℤ) {a : α}
    (hne : a ≠ sender) :
    move balances sender receiver amount a =
      balances a + if a = receiver then amount else 0 := by
  rw [move_apply, if_neg hne, sub_zero]

theorem transfer_eq_some (balances balances' : α → ℤ) (sender receiver : α) (amount : ℤ) :
    transfer balances sender receiver amount = some balances' ↔
      0 ≤ amount ∧ amount ≤ balances sender ∧ balances' = move balances sender receiver amount := by
  unfold transfer
  split_ifs with h
  · simp [h, eq_comm]
  · simp only [false_iff]
    rintro ⟨hnn, hle, -⟩
    exact h ⟨hnn, hle⟩

end Ledger
