import Astera.Invoices.Invariants
import Astera.Linked.System

/-!
# The two due dates of a funded invoice

An extension moves the due dates of both contracts; the resolution of a default in favour of the
debtor moves only the one in the invoice contract.  The two agree as long as such a resolution puts
the date where it was.
-/

namespace Astera.Invoices

open Fallible Machine

variable {W : Type}

/-! ## The date in the invoice contract -/

/-- The invoice whose default a call takes back. -/
def Call.reinstates : Call W → Option ℕ
  | .resolveDefaultDispute id _ .InFavorOfDebtor => some id
  | .arbitrationResolveDispute _ id .InFavorOfDebtor => some id
  | _ => none

/-- When the default of the invoice is taken back, a grace period from now ends on the due date it
has. -/
def RenewsInPlace (id : ℕ) (s : State W) (call : Call W) : Prop :=
  call.reinstates = some id → ∀ inv ∈ s.invoices.get id,
    min (s.now + s.resolveInvoiceGracePeriodDays inv * secsPerDay) (2 ^ 64 - 1) = inv.dueDate

instance (id : ℕ) (s : State W) (call : Call W) : Decidable (RenewsInPlace id s call) :=
  inferInstanceAs (Decidable (_ → _))

theorem State.renewedDueDate_eq (s : State W) (inv : Invoice) :
    s.renewedDueDate inv =
      min (s.now + s.resolveInvoiceGracePeriodDays inv * secsPerDay) (2 ^ 64 - 1) := by
  unfold State.renewedDueDate saturatingAdd64
  dsimp only
  omega

/-- The due date of the invoice is at most the largest extension after the first one. -/
def DateBounded (id : ℕ) (b : Books) : Prop :=
  ∀ inv, b.invoices.get id = some inv → inv.dueDate ≤ inv.originalDueDate + maxDueDateExtensionSecs

section Bound

variable {h : Host W} {s s' : State W} {b : Books} {call : Call W} {tx : Tx W} {id : ℕ}
  {inv : Invoice}

theorem maxExtensionDueDate_le (inv : Invoice) :
    maxExtensionDueDate inv ≤ inv.originalDueDate + maxDueDateExtensionSecs := by
  unfold maxExtensionDueDate saturatingAdd64
  omega

theorem Makes.reinstates {dueDate : ℕ} (hmakes : Makes s b call id inv (.reinstate dueDate)) :
    call.reinstates = some id ∧ dueDate = s.renewedDueDate inv := by
  cases hmakes <;> exact ⟨rfl, rfl⟩

theorem Makes.dateBounded {a : Action} (hmakes : Makes s b call id inv a)
    (hget : s.invoices.get id = some inv) (hplace : RenewsInPlace id s call)
    (hbound : inv.dueDate ≤ inv.originalDueDate + maxDueDateExtensionSecs) :
    (a.rewrite s.now inv).dueDate ≤ inv.originalDueDate + maxDueDateExtensionSecs := by
  cases a with
  | extend newDueDate =>
    cases hmakes with
    | extended hst hmax => exact hmax.trans (maxExtensionDueDate_le inv)
  | reinstate dueDate =>
    obtain ⟨hcall, rfl⟩ := hmakes.reinstates
    show s.renewedDueDate inv ≤ _
    rw [s.renewedDueDate_eq, hplace hcall inv hget]
    exact hbound
  | _ => exact hbound

theorem DateBounded.of_exec (hb : DateBounded id s.toBooks) (hplace : RenewsInPlace id s tx.call)
    (hx : exec h s tx = .ok s') : DateBounded id s'.toBooks := by
  apply exec_invariant hx hb
  intro b b' hb hchange inv' hinv'
  cases hchange.view id with
  | same hget => exact hb inv' (hget ▸ hinv')
  | moved hmakes hbefore hfirst _ hget =>
    obtain rfl := Option.some.inj (hget.symm.trans hinv')
    rw [Action.rewrite_originalDueDate]
    exact hmakes.dateBounded hfirst hplace (hb _ hbefore)
  | removed _ _ hget => simp [hget] at hinv'
  | created _ _ _ _ hget =>
    obtain rfl := Option.some.inj (hget.symm.trans hinv')
    exact Nat.le_add_right _ _

end Bound

def Call.extendsOrDisputes : Call W → Bool
  | .requestExtension .. | .approveExtension .. | .markDefaulted .. | .raiseDispute ..
  | .resolveDefaultDispute .. | .arbitrationResolveDispute .. => true
  | _ => false

/-- What such a call does to the date of its invoice, and to the neighbours. -/
inductive DateMove (h : Host W) (s : State W) (world : W) (call : Call W) (id : ℕ)
    (inv inv' : Invoice) : Prop
  | kept (hcall : call.reinstates = none) (hdate : inv'.dueDate = inv.dueDate)
      (hworld : world = s.world ∨ ∃ arbitration claimant respondent amount,
        world = h.openCase s.world arbitration id claimant respondent amount)
  | extended (hcall : call.reinstates = none) (hmax : inv'.dueDate ≤ maxExtensionDueDate inv)
      (hworld : h.updateInvoiceDueDate s.world inv.poolContract id inv'.dueDate = some world)
  | reinstated (hcall : call.reinstates = some id) (hst : inv'.status = .Funded)
      (hdate : inv'.dueDate = s.renewedDueDate inv) (hworld : world = s.world)

section Moves

variable {h : Host W} {signers : List Address} {s s' : State W} {id : ℕ}

@[simp]
theorem Books.decreaseDebtorExposure_invoices (b : Books) (debtor : Bytes) (amount : ℤ) :
    (b.decreaseDebtorExposure debtor amount).invoices = b.invoices := by
  unfold Books.decreaseDebtorExposure
  split <;> rfl

theorem applyDisputeResolution_dates {call : Call W} {inv : Invoice} {record : DisputeRecord}
    {outcome : DisputeResolution}
    (hcall : call.reinstates = if outcome = .InFavorOfDebtor then some id else none)
    (hx : applyDisputeResolution s id inv record outcome = .ok s') :
    ∃ inv', s'.invoices = s.invoices.set id inv' ∧ inv'.poolContract = inv.poolContract ∧
      inv'.originalDueDate = inv.originalDueDate ∧ DateMove h s s'.world call id inv inv' := by
  cases outcome with
  | Pending => cases hx
  | InFavorOfSME =>
    obtain rfl := Except.ok.inj hx
    exact ⟨_, rfl, rfl, rfl, .kept hcall rfl (.inl rfl)⟩
  | InFavorOfDebtor =>
    obtain rfl := Except.ok.inj hx
    exact ⟨_, rfl, rfl, rfl, .reinstated hcall rfl rfl rfl⟩

theorem exec_dates {call : Call W} (hcall : call.extendsOrDisputes = true)
    (hx : exec h s ⟨signers, call⟩ = .ok s') :
    ∃ id inv inv', s.invoices.get id = some inv ∧ s'.invoices = s.invoices.set id inv' ∧
      inv'.poolContract = inv.poolContract ∧ inv'.originalDueDate = inv.originalDueDate ∧
      DateMove h s s'.world call id inv inv' := by
  cases call with
  | requestExtension id owner newDueDate =>
    simp only [exec, requestExtension, bind_eq_ok, exists_unit, State.loadInvoice_eq_ok,
      pure_eq_ok] at hx
    obtain ⟨-, -, inv, hget, -, -, -, -, rfl⟩ := hx
    exact ⟨id, inv, _, hget, rfl, rfl, rfl, .kept rfl rfl (.inl rfl)⟩
  | approveExtension id approver =>
    obtain ⟨inv, newDueDate, world, hget, -, -, hmax, hworld, rfl⟩ := approveExtension_eq_ok hx
    exact ⟨id, inv, _, hget, rfl, rfl, rfl, .extended rfl hmax hworld⟩
  | markDefaulted id pool =>
    simp only [exec, markDefaulted, bind_eq_ok, exists_unit, State.loadInvoice_eq_ok,
      pure_eq_ok] at hx
    obtain ⟨-, -, -, inv, hget, -, _, -, -, rfl⟩ := hx
    refine ⟨id, inv, { inv with status := .Defaulted }, hget, ?_, rfl, rfl,
      .kept rfl rfl (.inl rfl)⟩
    simp [State.lessActive, State.withBooks, Books.setInvoice, Books.removeInvoiceFromDebtor,
      Books.decreaseSmeOutstanding, Books.setSmeOutstanding]
  | raiseDispute id borrower evidenceHash respondent =>
    obtain ⟨inv, world, hget, -, -, hworld, rfl⟩ := raiseDispute_eq_ok hx
    refine ⟨id, inv, _, hget, rfl, rfl, rfl, .kept rfl rfl ?_⟩
    refine hworld.imp_right ?_
    rintro ⟨arbitration, hw⟩
    exact ⟨arbitration, _, _, _, hw⟩
  | resolveDefaultDispute id admin outcome =>
    simp only [exec, resolveDefaultDispute, bind_eq_ok, exists_unit,
      State.loadInvoice_eq_ok] at hx
    obtain ⟨-, -, -, inv, hget, -, record, -, -, -, hx⟩ := hx
    have htarget : (Call.resolveDefaultDispute id admin outcome : Call W).reinstates =
        if outcome = .InFavorOfDebtor then some id else none := by
      cases outcome <;> rfl
    obtain ⟨inv', hset, hpool, horiginal, hmove⟩ := applyDisputeResolution_dates htarget hx
    exact ⟨id, inv, inv', hget, hset, hpool, horiginal, hmove⟩
  | arbitrationResolveDispute arbitration id outcome =>
    simp only [exec, arbitrationResolveDispute, bind_eq_ok, exists_unit,
      State.loadInvoice_eq_ok] at hx
    obtain ⟨-, -, _, -, -, inv, hget, -, record, -, -, hx⟩ := hx
    have htarget : (Call.arbitrationResolveDispute arbitration id outcome : Call W).reinstates =
        if outcome = .InFavorOfDebtor then some id else none := by
      cases outcome <;> rfl
    obtain ⟨inv', hset, hpool, horiginal, hmove⟩ := applyDisputeResolution_dates htarget hx
    exact ⟨id, inv, inv', hget, hset, hpool, horiginal, hmove⟩
  | _ => cases hcall

end Moves

end Astera.Invoices

namespace Astera.Linked

open Fallible Transition
open Invoices (Invoice DateBounded DateMove maxDueDateExtensionSecs)

variable {V : Type} {hp : Pool.Host V} {hi : Invoices.Host V}

/-! ## The two contracts -/

/-- The step does not move the date of the invoice by taking its default back. -/
def RenewsInPlace (id : ℕ) (p : State V) (tx : Tx hp hi) : Prop :=
  match tx.call with
  | .invoices call _ => Invoices.RenewsInPlace id p.turned call
  | _ => True

instance (id : ℕ) (p : State V) :
    (tx : Tx hp hi) → Decidable (RenewsInPlace id p tx)
  | ⟨_, _, _, .invoices call _⟩ =>
    inferInstanceAs (Decidable (Invoices.RenewsInPlace id p.turned call))
  | ⟨_, _, _, .pool _ _⟩ | ⟨_, _, _, .neighbours _⟩ | ⟨_, _, _, .advance _⟩ => .isTrue trivial

/-- The extensions, the defaults, the disputes about defaults, and what happens elsewhere. -/
def Call.extendsOrDisputes : Call V → Bool
  | .invoices call _ => call.extendsOrDisputes
  | .neighbours _ | .advance _ => true
  | .pool _ _ => false

/-- The pool has a record of the invoice, with the same date while the invoice is funded, and the
date is at most the largest extension after the first one. -/
def DatesAgree (id : ℕ) (p : State V) : Prop :=
  ∃ inv ∈ p.world.invoices.get id, ∃ record ∈ p.funded.get id,
    (inv.status = .Funded → record.dueDate = inv.dueDate) ∧
      inv.dueDate ≤ inv.originalDueDate + maxDueDateExtensionSecs

instance (id : ℕ) (p : State V) : Decidable (DatesAgree id p) :=
  inferInstanceAs (Decidable (∃ inv ∈ p.world.invoices.get id, ∃ record ∈ p.funded.get id, _))

/-- The invariant: the dates are the same in every status. -/
structure Synced (hp : Pool.Host V) (id : ℕ) (inv : Invoice) (p : State V) : Prop where
  get : p.world.invoices.get id = some inv
  pool : inv.poolContract = hp.self
  record : ∃ record, p.funded.get id = some record ∧ record.dueDate = inv.dueDate
  bound : inv.dueDate ≤ inv.originalDueDate + maxDueDateExtensionSecs

theorem Synced.agree {id : ℕ} {inv : Invoice} {p : State V} (hs : Synced hp id inv p) :
    DatesAgree id p := by
  obtain ⟨record, hrecord, hdate⟩ := hs.record
  exact ⟨inv, hs.get, record, hrecord, fun _ => hdate, hs.bound⟩

/-- A call of the invoice contract leaves the records of the pool alone, or gives the invoice of an
extension a record with the new date. -/
theorem invoiceHost_updateInvoiceDueDate {w w' : Pool.State V} {pool : Address}
    {id newDueDate : ℕ}
    (hu : (invoiceHost hp hi).updateInvoiceDueDate w pool id newDueDate = some w') :
    (pool ≠ hp.self ∧ w'.funded = w.funded) ∨
      ∃ record : Pool.FundedInvoice, record.dueDate = newDueDate ∧
        w'.funded = w.funded.set id record := by
  simp only [invoiceHost] at hu
  split_ifs at hu with hpool
  · split at hu
    · rename_i w₁ hrun
      obtain rfl := Option.some.inj hu
      obtain ⟨record, -, -, rfl⟩ := Pool.updateInvoiceDueDate_eq_ok hrun
      exact .inr ⟨_, rfl, rfl⟩
    · cases hu
  · obtain ⟨v, -, rfl⟩ := Option.map_eq_some_iff.1 hu
    exact .inl ⟨hpool, rfl⟩

section Moves

variable {p : State V} {w' : Pool.State V} {call : Invoices.Call (Pool.State V)} {id id' : ℕ}
  {inv inv' : Invoice}

theorem funded_of_kept (hworld : w' = p.turned.world ∨ ∃ arbitration claimant respondent amount,
      w' = (invoiceHost hp hi).openCase p.turned.world arbitration id' claimant respondent amount) :
    w'.funded = p.funded := by
  rcases hworld with rfl | ⟨_, _, _, _, rfl⟩
  · rfl
  · rfl

theorem funded_of_ne (hmove : DateMove (invoiceHost hp hi) p.turned w' call id' inv inv')
    (hne : id ≠ id') : w'.funded.get id = p.funded.get id := by
  cases hmove with
  | kept _ _ hworld => rw [funded_of_kept hworld]
  | extended _ _ hworld =>
    rcases invoiceHost_updateInvoiceDueDate hworld with ⟨-, hsame⟩ | ⟨record, -, hset⟩
    · rw [hsame]
      rfl
    · rw [hset, Store.get_set_of_ne _ _ hne]
      rfl
  | reinstated _ _ _ hworld =>
    rw [hworld]
    rfl

end Moves

/-- A step that leaves the date in place, or moves both, keeps the invariant. -/
theorem Synced.step {id : ℕ} {inv : Invoice} {p p' : State V} {tx : Tx hp hi}
    (hs : Synced hp id inv p) (hcall : tx.call.extendsOrDisputes = true)
    (hplace : RenewsInPlace id p tx) (hx : exec hp hi p tx = .ok p') :
    ∃ inv', Synced hp id inv' p' := by
  obtain ⟨signers, hpool, hinvoices, call⟩ := tx
  cases call with
  | pool call own => cases hcall
  | neighbours world =>
    obtain rfl := Except.ok.inj hx
    exact ⟨inv, hs.get, hs.pool, hs.record, hs.bound⟩
  | advance now =>
    simp only [exec, advance, bind_eq_ok, exists_unit, pure_eq_ok] at hx
    obtain ⟨-, rfl⟩ := hx
    exact ⟨inv, hs.get, hs.pool, hs.record, hs.bound⟩
  | invoices call own =>
    obtain ⟨i', hrun, rfl⟩ := (map_eq_ok _ _ _).1 ((mapError_eq_ok _ _ _).1 hx)
    obtain ⟨id', inv₀, inv', hget, hset, hkeep, horiginal, hmove⟩ :=
      Invoices.exec_dates hcall hrun
    have hafter : ∀ i, (State.returned i').world.invoices.get i =
        (p.world.invoices.set id' inv').get i := fun i => congrArg (·.get i) hset
    by_cases hid : id = id'
    · subst hid
      obtain rfl : inv₀ = inv := Option.some.inj (hget.symm.trans hs.get)
      obtain ⟨record, hrecord, hdate⟩ := hs.record
      -- The record and the bound follow the date in each of the three moves.
      have hfollow : (∃ record, i'.world.funded.get id = some record ∧
          record.dueDate = inv'.dueDate) ∧
          inv'.dueDate ≤ inv₀.originalDueDate + maxDueDateExtensionSecs := by
        cases hmove with
        | kept _ hsame hworld =>
          rw [funded_of_kept hworld, hsame]
          exact ⟨⟨record, hrecord, hdate⟩, hs.bound⟩
        | extended _ hmax hworld =>
          refine ⟨?_, hmax.trans (Invoices.maxExtensionDueDate_le inv₀)⟩
          rcases invoiceHost_updateInvoiceDueDate hworld with ⟨hother, -⟩ | ⟨record', hd, hset'⟩
          · exact absurd hs.pool hother
          · exact ⟨record', by rw [hset', Store.get_set_self], hd⟩
        | reinstated hreinstates _ hrenewed hworld =>
          have hsame : inv'.dueDate = inv₀.dueDate := by
            rw [hrenewed, Invoices.State.renewedDueDate_eq]
            exact hplace hreinstates inv₀ hget
          rw [hworld, hsame]
          exact ⟨⟨record, hrecord, hdate⟩, hs.bound⟩
      exact ⟨inv', (hafter id).trans (Store.get_set_self _ _ _), hkeep.trans hs.pool, hfollow.1,
        horiginal ▸ hfollow.2⟩
    · refine ⟨inv, ?_, hs.pool, ?_, hs.bound⟩
      · rw [hafter, Store.get_set_of_ne _ _ hid]
        exact hs.get
      · have hsame : (State.returned i').funded.get id = p.funded.get id :=
          funded_of_ne hmove hid
        rw [hsame]
        exact hs.record

theorem Synced.not_agree {id : ℕ} {inv : Invoice} {p p' : State V} {tx : Tx hp hi}
    (hs : Synced hp id inv p) (hplace : ¬ RenewsInPlace id p tx) (hx : exec hp hi p tx = .ok p') :
    ¬ DatesAgree id p' := by
  obtain ⟨signers, hpool, hinvoices, call⟩ := tx
  cases call with
  | invoices call own =>
    obtain ⟨i', hrun, rfl⟩ := (map_eq_ok _ _ _).1 ((mapError_eq_ok _ _ _).1 hx)
    simp only [RenewsInPlace, Invoices.RenewsInPlace, Classical.not_imp, not_forall] at hplace
    obtain ⟨hreinstates, inv₁, hget₁, hmoved⟩ := hplace
    obtain rfl : inv₁ = inv := Option.some.inj (hget₁.symm.trans hs.get)
    have hcall : call.extendsOrDisputes = true := by
      cases call with
      | resolveDefaultDispute | arbitrationResolveDispute => rfl
      | _ => cases hreinstates
    obtain ⟨id', inv₀, inv', hget, hset, -, -, hmove⟩ := Invoices.exec_dates hcall hrun
    cases hmove with
    | kept hnone => simp [hnone] at hreinstates
    | extended hnone => simp [hnone] at hreinstates
    | reinstated hsome hst hrenewed hworld =>
      obtain rfl : id' = id := Option.some.inj (hsome.symm.trans hreinstates)
      obtain rfl : inv₀ = inv₁ := Option.some.inj (hget.symm.trans hs.get)
      rintro ⟨inv₂, hget₂, record₂, hrecord₂, hdates, -⟩
      have hinv₂ : inv' = inv₂ := by
        have hget' : (State.returned i').world.invoices.get id' = some inv' := by
          show i'.invoices.get id' = some inv'
          rw [hset, Store.get_set_self]
        exact Option.some.inj (hget'.symm.trans hget₂)
      subst hinv₂
      obtain ⟨record, hrecord, hdate⟩ := hs.record
      have hsame : (State.returned i').funded.get id' = some record := by
        show i'.world.funded.get id' = some record
        rw [hworld]
        exact hrecord
      obtain rfl : record = record₂ := Option.some.inj (hsame.symm.trans hrecord₂)
      apply hmoved
      rw [← Invoices.State.renewedDueDate_eq, ← hrenewed, ← hdates hst, hdate]
  | _ => exact absurd trivial hplace

theorem dateBounded_of_reaches {id : ℕ} {p₀ p : State V} (hp₀ : DateBounded id p₀.world.toBooks)
    (hrun : Reaches (exec hp hi) (RenewsInPlace id) p₀ p) : DateBounded id p.world.toBooks := by
  apply hrun.invariant (P := fun p => DateBounded id p.world.toBooks) hp₀
  intro p tx p' hb hplace hx
  apply exec_books hx hb
  · intro w w' call hpool hw hcall
    refine hw.of_exec (fun hreinstates => ?_) hcall
    cases call with
    | recordFunding | markCancelled => cases hreinstates
    | _ => cases hpool
  · intro call own i' htx hcall
    obtain ⟨signers, hpool, hinvoices, _⟩ := tx
    subst htx
    have hturned : DateBounded id p.turned.toBooks := hb
    refine hturned.of_exec ?_ hcall
    exact hplace

/-- Once the pool's record of an invoice that it funded has the date of the invoice, the two stay
equal while the invoice is funded, and the date stays bounded, along every sequence of extensions,
defaults and dispute resolutions that put the date of the invoice back where it was; and a further
such call keeps this if and only if it does. -/
theorem due_dates_agree (hp : Pool.Host V) (hi : Invoices.Host V) (now : ℕ) (world : V)
    (cash : Address → Address → ℤ) (shareTokens : Address → Share.ShareToken)
    (poolAdmin token share admin : Address) (maxInvoiceAmount : ℤ)
    (expirationDurationSecs gracePeriodDays id : ℕ) {p₀ p : State V}
    (hrun : Reaches (exec hp hi) (RenewsInPlace id)
      (initialState hp hi now world cash shareTokens poolAdmin token share admin maxInvoiceAmount
        expirationDurationSecs gracePeriodDays) p₀)
    {inv : Invoice} (hinv : p₀.world.invoices.get id = some inv)
    (hpool : inv.poolContract = hp.self) {record : Pool.FundedInvoice}
    (hrecord : p₀.funded.get id = some record) (hdate : record.dueDate = inv.dueDate)
    (hseq : Reaches (exec hp hi)
      (fun p tx => tx.call.extendsOrDisputes = true ∧ RenewsInPlace id p tx) p₀ p) :
    DatesAgree id p ∧ ∀ (tx : Tx hp hi) (p' : State V), tx.call.extendsOrDisputes = true →
      exec hp hi p tx = .ok p' → (DatesAgree id p' ↔ RenewsInPlace id p tx) := by
  have hbound : DateBounded id p₀.world.toBooks := by
    apply dateBounded_of_reaches _ hrun
    intro inv hget
    cases hget
  have hstart : Synced hp id inv p₀ := ⟨hinv, hpool, ⟨record, hrecord, hdate⟩, hbound inv hinv⟩
  obtain ⟨inv', hs⟩ : ∃ inv', Synced hp id inv' p := by
    apply hseq.invariant ⟨inv, hstart⟩
    rintro q tx q' ⟨inv', hs⟩ ⟨hcall, hplace⟩ hx
    exact hs.step hcall hplace hx
  refine ⟨hs.agree, fun tx p' hcall hx => ⟨fun hagree => ?_, fun hplace => ?_⟩⟩
  · by_contra hplace
    exact hs.not_agree hplace hx hagree
  · obtain ⟨inv'', hs'⟩ := hs.step hcall hplace hx
    exact hs'.agree

/-- The pool has funded the whole invoice, and 8 is a keeper. -/
def fundedInvoice : List SampleTx :=
  billedPool ++ [⟨[1], Pool.self_ne_one, Invoices.self_ne_one, .invoices
    (.set (.addKeeper 1 8)) rfl⟩,
    partFunding 1000]

/-- The owner asks for four more weeks and the admin agrees. -/
def extension : List SampleTx :=
  [⟨[3], Pool.self_ne_three, Invoices.self_ne_three, .invoices (.requestExtension 1 3 5012200) rfl⟩,
    ⟨[1], Pool.self_ne_one, Invoices.self_ne_one, .invoices (.approveExtension 1 1) rfl⟩]

theorem due_dates_agree_extended :
    ∃ p₀ p, fundedInvoice.foldlM (exec Pool.quietHost Invoices.quietHost) sampleState = .ok p₀ ∧
      extension.foldlM (exec Pool.quietHost Invoices.quietHost) p₀ = .ok p ∧ DatesAgree 1 p := by
  obtain ⟨⟨_, _⟩, hx, hcheck⟩ := exists_of_check
    (x := do
      let p₀ ← fundedInvoice.foldlM (exec Pool.quietHost Invoices.quietHost) sampleState
      let p ← extension.foldlM (exec Pool.quietHost Invoices.quietHost) p₀
      return (p₀, p))
    (p := fun x => decide ((∃ inv ∈ x.1.world.invoices.get 1, ∃ record ∈ x.1.funded.get 1,
        inv.poolContract = Pool.quietHost.self ∧ record.dueDate = inv.dueDate) ∧
      Along (exec Pool.quietHost Invoices.quietHost)
        (fun p tx => tx.call.extendsOrDisputes = true ∧ RenewsInPlace 1 p tx) x.1 extension))
    (by decide)
  simp only [bind_eq_ok, pure_eq_ok, Prod.mk.injEq] at hx
  obtain ⟨p₀, hp₀, p, hp, rfl, rfl⟩ := hx
  obtain ⟨⟨inv, hinv, record, hrecord, hpool, hdate⟩, halong⟩ := of_decide_eq_true hcheck
  have hrun : Reaches (exec Pool.quietHost Invoices.quietHost) (RenewsInPlace 1) sampleState p₀ :=
    reaches_of_along .refl (by decide) hp₀
  exact ⟨p₀, p, hp₀, hp, (due_dates_agree Pool.quietHost Invoices.quietHost 1000 () _ _ 1 10 20 1
    1000000 2592000 7 1 hrun hinv hpool hrecord hdate (reaches_of_along .refl halong hp)).1⟩

/-- The invoice defaults a week after its due date; its owner contests that, and the admin takes it
back. -/
def takenBack : List SampleTx :=
  [⟨[], Pool.self_notMem_nil, by decide, .advance 3197800⟩,
    ⟨[8], by decide, by decide, .invoices (.markDefaulted 1 8) rfl⟩,
    ⟨[3], Pool.self_ne_three, Invoices.self_ne_three, .invoices
      (.raiseDispute 1 3 (Invoices.bytes "0c2d") 4) rfl⟩,
    ⟨[1], Pool.self_ne_one, Invoices.self_ne_one, .invoices
      (.resolveDefaultDispute 1 1 .InFavorOfDebtor) rfl⟩]

/-- The invoice is funded again, with a date that the pool does not know. -/
theorem taken_back_default_splits_dates :
    ∃ p₀ p inv record,
      Reaches (exec Pool.quietHost Invoices.quietHost) (fun _ _ => True) sampleState p₀ ∧
      p₀.world.invoices.get 1 = some inv ∧ inv.status = .Funded ∧
      inv.poolContract = Pool.quietHost.self ∧ p₀.funded.get 1 = some record ∧
      record.dueDate = inv.dueDate ∧
      Reaches (exec Pool.quietHost Invoices.quietHost)
        (fun _ tx => tx.call.extendsOrDisputes = true) p₀ p ∧
      ¬ DatesAgree 1 p := by
  obtain ⟨⟨_, _⟩, hx, hcheck⟩ := exists_of_check
    (x := do
      let p₀ ← fundedInvoice.foldlM (exec Pool.quietHost Invoices.quietHost) sampleState
      let p ← takenBack.foldlM (exec Pool.quietHost Invoices.quietHost) p₀
      return (p₀, p))
    (p := fun x => decide ((∃ inv ∈ x.1.world.invoices.get 1, ∃ record ∈ x.1.funded.get 1,
        inv.status = .Funded ∧ inv.poolContract = Pool.quietHost.self ∧
        record.dueDate = inv.dueDate) ∧
      Along (exec Pool.quietHost Invoices.quietHost)
        (fun _ tx => tx.call.extendsOrDisputes = true) x.1 takenBack ∧ ¬ DatesAgree 1 x.2))
    (by decide)
  simp only [bind_eq_ok, pure_eq_ok, Prod.mk.injEq] at hx
  obtain ⟨p₀, hp₀, p, hp, rfl, rfl⟩ := hx
  obtain ⟨⟨inv, hinv, record, hrecord, hst, hpool, hdate⟩, halong, hsplit⟩ :=
    of_decide_eq_true hcheck
  exact ⟨p₀, p, inv, record, reaches_of_along .refl (by decide) hp₀, hinv, hst, hpool,
    hrecord, hdate, reaches_of_along .refl halong hp, hsplit⟩

end Astera.Linked
