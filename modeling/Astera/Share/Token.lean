import Astera.Lib.Machine
import Astera.Lib.RingBuffer
import Astera.Lib.Store

/-!
# The share token

The admin, the pause flag, the balances, the total supply and the balance checkpoints.  A value of
`ShareToken` carries three facts that the contract maintains: the supply is the sum of the balances,
it fits its type, and no balance is negative.  Time-to-live extensions and events are left out.
-/

namespace Astera

open Fallible Machine

variable {authorized : Address → Bool} {t t' : ShareToken} {now : ℕ} {amount : ℤ}

abbrev Address := ℕ

namespace Share

inductive ShareError
  | ContractPaused | AlreadyInitialized | NotInitialized | Unauthorized | InvalidDecimals
  | InvalidAmount | InsufficientBalance | AllowanceExceeded | AllowanceOverflow
  | AllowanceUnderflow | TotalSupplyOverflow | TotalSupplyUnderflow
  deriving DecidableEq, Repr

inductive ShareTrap
  /-- `panic_with_error!`, or an `expect` on the supply arithmetic. -/
  | error (e : ShareError)
  /-- An unchecked addition left the `i128` range. -/
  | overflow
  | auth
  /-- A storage entry that does not decode as the type it is read with. -/
  | decode
  /-- An `unwrap` of a missing list entry. -/
  | unwrap
  deriving DecidableEq, Repr

def maxCheckpoints : ℕ := 1024

/-- The `(timestamp, balance)` ring buffer of one holder and the index of its oldest entry. -/
structure Checkpoints where
  entries : List (ℕ × ℤ) := []
  head : ℕ := 0
  deriving DecidableEq, Repr

def writeCheckpoint (c : Checkpoints) (now : ℕ) (newBalance : ℤ) : Checkpoints :=
  let len := c.entries.length
  let newestIndex := if len < maxCheckpoints then len - 1 else (c.head + len - 1) % len
  if len ≠ 0 ∧ (c.entries[newestIndex]?).map Prod.fst = some now then
    { c with entries := c.entries.set newestIndex (now, newBalance) }
  else if len < maxCheckpoints then
    { c with entries := c.entries ++ [(now, newBalance)] }
  else
    { entries := c.entries.set c.head (now, newBalance), head := (c.head + 1) % maxCheckpoints }

/-- `balance_at`, on the checkpoints of the holder. -/
def balanceAt (c : Checkpoints) (timestamp : ℕ) : Except ShareTrap ℤ :=
  let len := c.entries.length
  if len = 0 then .ok 0
  else do
    -- in a full buffer the search runs over the slots from the oldest on
    let actualIdx := fun i => if maxCheckpoints ≤ len then (c.head + i) % maxCheckpoints else i
    let lo ← RingBuffer.partitionPoint
      (fun mid => do
        let checkpoint ← okOr c.entries[actualIdx mid]? .unwrap
        return decide (checkpoint.1 ≤ timestamp))
      len 0 len
    if lo = 0 then
      let oldestIdx := if maxCheckpoints ≤ len then c.head else 0
      let checkpoint ← okOr c.entries[oldestIdx]? .unwrap
      return checkpoint.2
    else
      let checkpoint ← okOr c.entries[actualIdx (lo - 1)]? .unwrap
      return checkpoint.2

structure ShareToken where
  admin : Address
  paused : Bool
  balances : Store Address ℤ
  totalSupply : ℤ
  checkpoints : Address → Checkpoints
  supply_eq : totalSupply = balances.total fun _ b => b
  supply_lt : totalSupply < 2 ^ 127
  nonneg : ∀ a b, balances.get a = some b → 0 ≤ b

namespace ShareToken

def fresh (admin : Address) : ShareToken where
  admin := admin
  paused := false
  balances := ∅
  totalSupply := 0
  checkpoints := fun _ => {}
  supply_eq := rfl
  supply_lt := by decide
  nonneg := by intro a b h; simp at h

def balance (t : ShareToken) (a : Address) : ℤ := (t.balances.get a).getD 0

theorem balance_nonneg (t : ShareToken) (a : Address) : 0 ≤ t.balance a := by
  unfold balance
  cases h : t.balances.get a with
  | none => simp
  | some b => simpa using t.nonneg a b h

theorem part_mul (t : ShareToken) (w : Address → ℤ) (a : Address) :
    t.balances.part (fun a b => w a * b) a = w a * t.balance a := by
  unfold Store.part balance
  cases t.balances.get a <;> simp

theorem part_balance (t : ShareToken) (a : Address) :
    t.balances.part (fun _ b => b) a = t.balance a := by
  simpa using t.part_mul (fun _ => 1) a

theorem balance_le_totalSupply (t : ShareToken) (a : Address) : t.balance a ≤ t.totalSupply := by
  rw [t.supply_eq, ← part_balance]
  exact Store.part_le_total t.nonneg a

/-- Change one balance, and the supply with it. -/
def adjust (t : ShareToken) (a : Address) (delta : ℤ) (hb : 0 ≤ t.balance a + delta)
    (hs : t.totalSupply + delta < 2 ^ 127) (now : ℕ) : ShareToken where
  admin := t.admin
  paused := t.paused
  balances := t.balances.set a (t.balance a + delta)
  totalSupply := t.totalSupply + delta
  checkpoints :=
    Function.update t.checkpoints a (writeCheckpoint (t.checkpoints a) now (t.balance a + delta))
  supply_eq := by
    rw [Store.total_set, t.supply_eq, part_balance]
    ring
  supply_lt := hs
  nonneg := by
    intro a' b' h
    rw [Store.get_set] at h
    split_ifs at h with ha
    · simp only [Option.some.injEq] at h
      exact h ▸ hb
    · exact t.nonneg a' b' h

/-- `mint`, where `authorized` tells for which addresses a `require_auth` succeeds. -/
def mint (t : ShareToken) (authorized : Address → Bool) (now : ℕ) (receiver : Address)
    (amount : ℤ) : Except ShareTrap ShareToken := do
  require (t.paused = false) (.error .ContractPaused)
  require (authorized t.admin = true) .auth
  require (0 < amount) (.error .InvalidAmount)
  require (InI128 (t.balance receiver + amount)) .overflow
  if h : 0 ≤ t.balance receiver + amount ∧ t.totalSupply + amount < 2 ^ 127 then
    return t.adjust receiver amount h.1 h.2 now
  else .error (.error .TotalSupplyOverflow)

/-- `burn`.  The supply is at least the balance, so its subtraction never underflows. -/
def burn (t : ShareToken) (authorized : Address → Bool) (now : ℕ) (holder : Address) (amount : ℤ) :
    Except ShareTrap ShareToken := do
  require (t.paused = false) (.error .ContractPaused)
  require (authorized holder = true) .auth
  if hpos : amount ≤ 0 then .error (.error .InvalidAmount)
  else if hbal : t.balance holder < amount then .error (.error .InsufficientBalance)
  else
    return t.adjust holder (-amount) (by omega) (by have := t.supply_lt; omega) now

/-- `transfer`.  The receiver's balance is read after the sender's was written, so a transfer to
oneself changes nothing but the checkpoints. -/
def transfer (t : ShareToken) (authorized : Address → Bool) (now : ℕ) (sender receiver : Address)
    (amount : ℤ) : Except ShareTrap ShareToken := do
  require (t.paused = false) (.error .ContractPaused)
  require (authorized sender = true) .auth
  if hpos : amount ≤ 0 then .error (.error .InvalidAmount)
  else if hbal : t.balance sender < amount then .error (.error .InsufficientBalance)
  else
    let debited := t.adjust sender (-amount) (by omega) (by have := t.supply_lt; omega) now
    if h : 0 ≤ debited.balance receiver + amount ∧ InI128 (debited.balance receiver + amount) then
      return debited.adjust receiver amount h.1
        (by have := t.supply_lt; show t.totalSupply + -amount + amount < 2 ^ 127; omega) now
    else .error .overflow

/-! ## What the operations do -/

@[simp]
theorem balance_fresh (admin a : Address) : (fresh admin).balance a = 0 := by
  simp [balance, fresh]

section adjust

variable (t : ShareToken) (a : Address) (delta : ℤ) (hb : 0 ≤ t.balance a + delta)
  (hs : t.totalSupply + delta < 2 ^ 127) (now : ℕ)

theorem balance_adjust (a' : Address) :
    (t.adjust a delta hb hs now).balance a' = t.balance a' + if a' = a then delta else 0 := by
  unfold balance adjust
  rw [Store.get_set]
  split_ifs with h
  · simp [h, balance]
  · simp

@[simp]
theorem totalSupply_adjust : (t.adjust a delta hb hs now).totalSupply = t.totalSupply + delta := rfl

@[simp]
theorem paused_adjust : (t.adjust a delta hb hs now).paused = t.paused := rfl

theorem total_adjust (w : Address → ℤ) :
    (t.adjust a delta hb hs now).balances.total (fun a b => w a * b) =
      t.balances.total (fun a b => w a * b) + w a * delta := by
  have h := Store.total_set (fun a b => w a * b) t.balances a (t.balance a + delta)
  rw [part_mul] at h
  simp only [adjust, h]
  ring

end adjust

theorem mint_eq_ok {receiver : Address} (h : t.mint authorized now receiver amount = .ok t') :
    0 < amount ∧ ∃ hb hs, t' = t.adjust receiver amount hb hs now := by
  unfold mint at h
  simp only [bind_eq_ok, require_eq_ok, exists_const] at h
  obtain ⟨-, -, hpos, -, h⟩ := h
  split_ifs at h with hb
  exact ⟨hpos, hb.1, hb.2, ((pure_eq_ok _ _).1 h).symm⟩

/-- A burn succeeds exactly when the contract is live, the holder has authorized it, and the amount
is positive and covered by the balance. -/
theorem burn_eq_ok_iff {holder : Address} :
    t.burn authorized now holder amount = .ok t' ↔
      t.paused = false ∧ authorized holder = true ∧ 0 < amount ∧ amount ≤ t.balance holder ∧
      ∃ hb hs, t' = t.adjust holder (-amount) hb hs now := by
  unfold burn
  simp only [bind_eq_ok, require_eq_ok, exists_const]
  split_ifs with hpos hbal
  · simp only [and_false, false_iff]
    omega
  · simp only [and_false, false_iff]
    omega
  · simp only [pure_eq_ok]
    constructor
    · rintro ⟨hp, ha, rfl⟩
      exact ⟨hp, ha, by omega, by omega, _, _, rfl⟩
    · rintro ⟨hp, ha, -, -, _, _, rfl⟩
      exact ⟨hp, ha, rfl⟩

theorem transfer_eq_ok {sender receiver : Address}
    (h : t.transfer authorized now sender receiver amount = .ok t') :
    0 < amount ∧ ∃ hb hs hb' hs',
      t' = (t.adjust sender (-amount) hb hs now).adjust receiver amount hb' hs' now := by
  unfold transfer at h
  simp only [bind_eq_ok, require_eq_ok, exists_const] at h
  obtain ⟨-, -, h⟩ := h
  split at h
  · cases h
  · split at h
    · cases h
    · split at h
      · exact ⟨by omega, _, _, _, _, ((pure_eq_ok _ _).1 h).symm⟩
      · cases h

/-- A transfer succeeds exactly when the contract is live, the sender has authorized it, and the
amount is positive and covered by the balance. -/
theorem exists_transfer_eq_ok_iff {sender receiver : Address} :
    (∃ t', t.transfer authorized now sender receiver amount = .ok t') ↔
      t.paused = false ∧ authorized sender = true ∧ 0 < amount ∧ amount ≤ t.balance sender := by
  unfold transfer
  simp only [bind_eq_ok, require_eq_ok, exists_const, exists_and_left]
  split_ifs with hpos hbal hfit
  · simp only [exists_false, and_false, false_iff]
    omega
  · simp only [exists_false, and_false, false_iff]
    omega
  · simp only [pure_eq_ok, exists_eq']
    constructor
    · rintro ⟨hp, ha, -⟩
      exact ⟨hp, ha, by omega, by omega⟩
    · rintro ⟨hp, ha, -, -⟩
      exact ⟨hp, ha, trivial⟩
  · -- the debited supply leaves room for the amount
    exfalso
    apply hfit
    have hnn := balance_nonneg (t.adjust sender (-amount) (by omega)
      (by have := t.supply_lt; omega) now) receiver
    have hle := balance_le_totalSupply (t.adjust sender (-amount) (by omega)
      (by have := t.supply_lt; omega) now) receiver
    rw [totalSupply_adjust] at hle
    have hlt := t.supply_lt
    unfold InI128
    omega

end ShareToken

end Share

end Astera
