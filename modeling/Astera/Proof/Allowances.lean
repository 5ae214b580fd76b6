import Astera.Share.Contract

/-!
# Spending an allowance

`Ledger` says what has become of the allowances.  The contract follows it as long as every spend
takes all that is left.  A spend that leaves something writes the remainder back as a bare number,
which no later read decodes.
-/

namespace Astera.Share

open Fallible Machine Transition

/-! ## What should become of the allowances -/

abbrev Ledger := Address → Address → Option AllowanceRecord

namespace Ledger

def write (l : Ledger) (owner spender : Address) (r : Option AllowanceRecord) : Ledger :=
  Function.update l owner (Function.update (l owner) spender r)

def record (l : Ledger) (owner spender : Address) : AllowanceRecord :=
  (l owner spender).getD .absent

/-- Take an amount off an allowance; an allowance of nothing is dropped. -/
def takeOff (l : Ledger) (owner spender : Address) (amount : ℤ) : Ledger :=
  let r := l.record owner spender
  l.write owner spender
    (if r.amount - amount = 0 then none else some ⟨r.amount - amount, r.expirationLedger⟩)

def remaining (l : Ledger) (sequence : ℕ) (owner spender : Address) : ℤ :=
  (l.record owner spender).unexpired sequence

def note (call : Call) (l : Ledger) : Ledger :=
  match call with
  | .approve owner spender amount expirationLedger =>
    l.write owner spender (some ⟨amount, expirationLedger⟩)
  | .increaseAllowance owner spender amount =>
    let r := l.record owner spender
    l.write owner spender (some ⟨r.amount + amount, r.expirationLedger⟩)
  | .decreaseAllowance owner spender amount | .burnFrom spender owner amount
  | .transferFrom spender owner _ amount =>
    l.takeOff owner spender amount
  | _ => l

end Ledger

def Call.spends : Call → Option (Address × Address × ℤ)
  | .burnFrom spender owner amount | .transferFrom spender owner _ amount =>
    some (owner, spender, amount)
  | _ => none

def SpendsAll (c : Contract) (tx : Tx) : Prop :=
  match tx.call.spends with
  | some (owner, spender, amount) => c.allowance owner spender = .ok amount
  | none => True

instance (c : Contract) (tx : Tx) : Decidable (SpendsAll c tx) := by
  unfold SpendsAll
  split <;> infer_instance

def Recorded (c : Contract) (l : Ledger) : Prop :=
  ∀ owner spender, c.allowances owner spender = (l owner spender).map .record

section Entries

variable {c : Contract} {l : Ledger}

theorem Recorded.readAllowance (h : Recorded c l) (owner spender : Address) :
    c.readAllowance owner spender = .ok (l owner spender) := by
  unfold Contract.readAllowance
  rw [h owner spender]
  cases l owner spender <;> rfl

theorem unexpired_getD (r : Option AllowanceRecord) (sequence : ℕ) :
    (r.map fun r => r.unexpired sequence).getD 0 = (r.getD .absent).unexpired sequence := by
  cases r with
  | none => exact (ite_self (0 : ℤ)).symm
  | some r => rfl

theorem Recorded.allowance (h : Recorded c l) (owner spender : Address) :
    c.allowance owner spender = .ok (l.remaining c.sequence owner spender) := by
  unfold Contract.allowance
  rw [h.readAllowance]
  exact congrArg Except.ok (unexpired_getD _ _)

theorem Recorded.write (h : Recorded c l) (owner spender : Address) (r : Option AllowanceRecord) :
    Recorded (c.writeAllowance owner spender (r.map .record)) (l.write owner spender r) := by
  intro o s
  unfold Contract.writeAllowance Ledger.write
  dsimp only
  rw [Function.update_apply, Function.update_apply]
  split_ifs with ho
  · rw [Function.update_apply, Function.update_apply]
    split_ifs with hs
    · rfl
    · exact h owner s
  · exact h o s

theorem Recorded.of_eq {c' : Contract} (h : Recorded c l) (heq : c'.allowances = c.allowances) :
    Recorded c' l := by
  intro o s
  rw [heq]
  exact h o s

theorem checkAllowance_eq_ok (h : Recorded c l) {owner spender : Address} {amount left : ℤ} :
    c.checkAllowance owner spender amount = .ok left ↔
      amount ≤ l.remaining c.sequence owner spender ∧
        left = l.remaining c.sequence owner spender - amount := by
  unfold Contract.checkAllowance
  rw [h.readAllowance]
  simp only [bind_eq_ok, require_eq_ok, exists_unit, Except.ok.injEq, exists_eq_left', pure_eq_ok]
  exact and_congr_right fun _ => eq_comm

end Entries

/-- What a successful spend leaves: the token operation and the entry. -/
structure Spent (c : Contract) (tx : Tx) (owner spender : Address) (amount left : ℤ)
    (c' : Contract) : Prop where
  live : c.token.paused = false
  signed : spender ∈ tx.signers
  positive : 0 < amount
  covered : amount ≤ c.token.balance owner
  allowed : c.checkAllowance owner spender amount = .ok left
  result : ∃ token : ShareToken,
    c' = { c with token := token }.writeAllowance owner spender (Contract.leftover left)

section Spending

variable {c c' : Contract} {l : Ledger} {tx : Tx} {owner spender : Address} {amount : ℤ}

theorem spent_of_exec (hspend : tx.call.spends = some (owner, spender, amount))
    (hstep : exec c tx = .ok c') : ∃ left, Spent c tx owner spender amount left c' := by
  obtain ⟨signers, call⟩ := tx
  cases call with
  | burnFrom s o a =>
    obtain ⟨rfl, rfl, rfl⟩ : o = owner ∧ s = spender ∧ a = amount := by
      simpa [Call.spends] using hspend
    obtain ⟨hlive, hsigned, hpos, left, hleft, token, htoken, rfl⟩ := burnFrom_eq_ok.1 hstep
    obtain ⟨-, -, -, hcovered, -⟩ := ShareToken.burn_eq_ok_iff.1 htoken
    exact ⟨left, hlive, hsigned, hpos, hcovered, hleft, token, rfl⟩
  | transferFrom s o r a =>
    obtain ⟨rfl, rfl, rfl⟩ : o = owner ∧ s = spender ∧ a = amount := by
      simpa [Call.spends] using hspend
    obtain ⟨hlive, hsigned, hpos, left, hleft, token, htoken, rfl⟩ := transferFrom_eq_ok.1 hstep
    obtain ⟨-, -, -, hcovered⟩ := ShareToken.exists_transfer_eq_ok_iff.1 ⟨token, htoken⟩
    exact ⟨left, hlive, hsigned, hpos, hcovered, hleft, token, rfl⟩
  | _ => cases hspend

end Spending

section Step

variable {c c' : Contract} {l : Ledger} {tx : Tx}

theorem Recorded.takeOff (h : Recorded c l) (owner spender : Address) (amount : ℤ) :
    Recorded (c.writeAllowance owner spender
      (if (l.record owner spender).amount - amount = 0 then none
        else some (.record
          ⟨(l.record owner spender).amount - amount, (l.record owner spender).expirationLedger⟩)))
      (l.takeOff owner spender amount) := by
  have hw := h.write owner spender
    (if (l.record owner spender).amount - amount = 0 then none
      else some
        ⟨(l.record owner spender).amount - amount, (l.record owner spender).expirationLedger⟩)
  unfold Ledger.takeOff
  dsimp only
  split_ifs at hw ⊢ with hzero
  · exact hw
  · exact hw

theorem Recorded.spend (h : Recorded c l) {owner spender : Address} {amount : ℤ}
    (hspend : tx.call.spends = some (owner, spender, amount)) (hall : SpendsAll c tx)
    (hstep : exec c tx = .ok c') :
    Recorded c' (l.takeOff owner spender amount) := by
  obtain ⟨left, hs⟩ := spent_of_exec hspend hstep
  obtain ⟨hle, rfl⟩ := (checkAllowance_eq_ok h).1 hs.allowed
  obtain ⟨token, rfl⟩ := hs.result
  have heq : l.remaining c.sequence owner spender = amount := by
    unfold SpendsAll at hall
    rw [hspend] at hall
    replace hall : c.allowance owner spender = .ok amount := hall
    rwa [h.allowance, Except.ok.injEq] at hall
  -- an expired allowance has nothing left to spend
  have hrecord : (l.record owner spender).amount = amount := by
    have hpos := hs.positive
    unfold Ledger.remaining AllowanceRecord.unexpired at heq
    split_ifs at heq
    · omega
    · exact heq
  have hentry := (h.of_eq rfl : Recorded { c with token := token } l).takeOff owner spender amount
  rw [if_pos (sub_eq_zero.2 hrecord)] at hentry
  rw [heq, sub_self]
  exact hentry

theorem Recorded.step (h : Recorded c l) (hall : SpendsAll c tx) (hstep : exec c tx = .ok c') :
    Recorded c' (l.note tx.call) := by
  obtain ⟨signers, call⟩ := tx
  cases call with
  | mint _ _ | burn _ _ | transfer _ _ _ =>
    obtain ⟨t, -, rfl⟩ := withToken_eq_ok.1 hstep
    exact h.of_eq rfl
  | burnFrom spender owner amount => exact h.spend rfl hall hstep
  | transferFrom spender owner receiver amount => exact h.spend rfl hall hstep
  | approve owner spender amount expirationLedger =>
    obtain rfl := approve_eq_ok hstep
    exact h.write owner spender (some ⟨amount, expirationLedger⟩)
  | increaseAllowance owner spender amount =>
    obtain ⟨r, hread, rfl⟩ := increaseAllowance_eq_ok hstep
    rw [h.readAllowance, Except.ok.injEq] at hread
    subst hread
    exact h.write owner spender (some _)
  | decreaseAllowance owner spender amount =>
    obtain ⟨r, hread, rfl⟩ := decreaseAllowance_eq_ok hstep
    rw [h.readAllowance, Except.ok.injEq] at hread
    subst hread
    exact h.takeOff owner spender amount
  | pause admin | unpause admin =>
    obtain rfl := setPaused_eq_ok hstep
    exact h.of_eq rfl
  | setAdmin newAdmin =>
    obtain rfl := setAdmin_eq_ok hstep
    exact h.of_eq rfl
  | advance ledgers seconds =>
    obtain rfl := Except.ok.inj hstep
    exact h.of_eq rfl

end Step

end Astera.Share
