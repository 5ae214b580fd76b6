import Astera.Linked.System

/-!
# Two accounts of one funding

`fund_invoice_request` reports a funding twice and looks at neither answer, so the invoice contract
counts it twice, once or not at all.  `Agreeable` says from the state before whether the two
accounts agree after it.
-/

namespace Astera.Linked

open Fallible Machine Transition
open Pool (FundingRequest fundInvoiceRequest)
open Invoices (Invoice InvoiceStatus Action)

variable {V : Type}

def fundable : InvoiceStatus → Bool
  | .Pending | .Verified | .Funded => true
  | _ => false

def Fundable (w : Invoices.State V) (id : ℕ) : Prop :=
  ∃ inv ∈ w.invoices.get id, fundable inv.status = true

/-- The two contracts agree on a funded invoice. -/
def Agreement (p : State V) (id : ℕ) : Prop :=
  ∃ inv ∈ p.world.invoices.get id, ∃ record ∈ p.funded.get id,
    inv.status = .Funded ∧ inv.fundedAmount = record.principal ∧ inv.fundedAmount ≤ inv.amount

instance (w : Invoices.State V) (id : ℕ) : Decidable (Fundable w id) :=
  inferInstanceAs (Decidable (∃ inv ∈ w.invoices.get id, fundable inv.status = true))

instance (p : State V) (id : ℕ) : Decidable (Agreement p id) :=
  inferInstanceAs (Decidable (∃ inv ∈ p.world.invoices.get id, ∃ record ∈ p.funded.get id,
    inv.status = .Funded ∧ inv.fundedAmount = record.principal ∧ inv.fundedAmount ≤ inv.amount))

/-! ## One report -/

/-- The checks of `record_funding` on a report by `pool`. -/
def Accepts (pool : Address) (w : Invoices.State V) (inv : Invoice) (amount : ℤ) : Prop :=
  w.config.paused = false ∧ pool = w.config.pool ∧ 0 < amount ∧
    InI128 (inv.fundedAmount + amount) ∧
    (inv.status = .Funded ∨
      (inv.status = .Pending ∨ inv.status = .Verified) ∧
        (w.config.requireOracleVerification = true → inv.oracleVerified = true) ∧
        InI128 (w.smeOutstanding inv.owner + inv.amount) ∧
        w.smeOutstanding inv.owner + inv.amount ≤ w.config.maxOutstandingPerSme)

instance (pool : Address) (w : Invoices.State V) (inv : Invoice) (amount : ℤ) :
    Decidable (Accepts pool w inv amount) :=
  inferInstanceAs (Decidable (_ ∧ _ ∧ _ ∧ _ ∧ _))

/-- An invoice after a report that was accepted. -/
structure Counted (inv inv' : Invoice) (amount : ℤ) : Prop where
  status : inv'.status = .Funded
  fundedAmount : inv'.fundedAmount = inv.fundedAmount + amount
  amount : inv'.amount = inv.amount

section Reports

variable {pool : Address} {w : Invoices.State V} {id : ℕ} {amount : ℤ} {inv : Invoice}

theorem Accepts.fundable (hacc : Accepts pool w inv amount) : fundable inv.status = true := by
  obtain ⟨-, -, -, -, hst | ⟨hst | hst, -⟩⟩ := hacc <;> rw [hst] <;> rfl

theorem recorded_of_accepts (hget : w.invoices.get id = some inv)
    (hacc : Accepts pool w inv amount) :
    ∃ inv', Counted inv inv' amount ∧ (recorded pool w id amount).config = w.config ∧
      (recorded pool w id amount).invoices = w.invoices.set id inv' := by
  obtain ⟨hpaused, hpool, hpos, hfit, hst⟩ := hacc
  have hwrite : ∀ a : Action, a.starts inv.status = true → a.target = .Funded →
      (a.rewrite w.now inv).fundedAmount = inv.fundedAmount + amount →
      Invoices.recordFunding [pool] w id amount pool =
        .ok (w.withBooks (a.apply w.now w.toBooks id inv)) →
      ∃ inv', Counted inv inv' amount ∧ (recorded pool w id amount).config = w.config ∧
        (recorded pool w id amount).invoices = w.invoices.set id inv' := by
    intro a hstarts htarget hfunded hrun
    refine ⟨a.rewrite w.now inv, ⟨?_, hfunded, a.rewrite_amount w.now inv⟩, ?_⟩
    · rw [Action.rewrite_status w.now hstarts, htarget]
    · rw [recorded, hrun]
      exact ⟨rfl, rfl⟩
  have hguards : pool ∈ [pool] := List.mem_singleton_self pool
  rcases hst with hst | ⟨hst, hrest⟩
  · apply hwrite (.topUp amount) (by rw [hst]; rfl) rfl rfl
    exact Invoices.recordFunding_eq_ok.2
      ⟨hguards, hpaused, hpool, hpos, inv, hget, hfit, .inl ⟨hst, rfl⟩⟩
  · apply hwrite (.fund pool amount) (by rcases hst with hst | hst <;> rw [hst] <;> rfl) rfl rfl
    exact Invoices.recordFunding_eq_ok.2
      ⟨hguards, hpaused, hpool, hpos, inv, hget, hfit, .inr ⟨hst, hrest.1, hrest.2.1, hrest.2.2, rfl⟩⟩

theorem recorded_of_not_accepts
    (hacc : ∀ inv, w.invoices.get id = some inv → ¬ Accepts pool w inv amount) :
    recorded pool w id amount = w := by
  unfold recorded
  split
  · rename_i w' hrun
    obtain ⟨-, hpaused, hpool, hpos, inv, hget, hfit, hst⟩ := Invoices.recordFunding_eq_ok.1 hrun
    refine absurd ⟨hpaused, hpool, hpos, hfit, ?_⟩ (hacc inv hget)
    rcases hst with ⟨hst, -⟩ | ⟨hst, horacle, houtstanding, hcap, -⟩
    · exact .inl hst
    · exact .inr ⟨hst, horacle, houtstanding, hcap⟩
  · rfl

theorem recorded_cases (pool : Address) (w : Invoices.State V) (id : ℕ) (amount : ℤ) :
    recorded pool w id amount = w ∨
      ∃ inv inv', w.invoices.get id = some inv ∧ Accepts pool w inv amount ∧
        Counted inv inv' amount ∧ (recorded pool w id amount).config = w.config ∧
        (recorded pool w id amount).invoices = w.invoices.set id inv' := by
  by_cases hacc : ∃ inv, w.invoices.get id = some inv ∧ Accepts pool w inv amount
  · obtain ⟨inv, hget, hacc⟩ := hacc
    obtain ⟨inv', hcounted, hconfig, hinvoices⟩ := recorded_of_accepts hget hacc
    exact .inr ⟨inv, inv', hget, hacc, hcounted, hconfig, hinvoices⟩
  · exact .inl (recorded_of_not_accepts fun inv hget h => hacc ⟨inv, hget, h⟩)

theorem recorded_get_of_ne {id' : ℕ} (hne : id' ≠ id) :
    (recorded pool w id amount).invoices.get id' = w.invoices.get id' := by
  rcases recorded_cases pool w id amount with heq | ⟨_, _, -, -, -, -, hinvoices⟩
  · rw [heq]
  · rw [hinvoices, Store.get_set_of_ne _ _ hne]

theorem Fundable.of_recorded {id' : ℕ} (hfundable : Fundable (recorded pool w id amount) id') :
    Fundable w id' := by
  by_cases hid : id' = id
  · subst hid
    rcases recorded_cases pool w id' amount with heq | ⟨inv, _, hget, hacc, -⟩
    · rwa [heq] at hfundable
    · exact ⟨inv, hget, hacc.fundable⟩
  · unfold Fundable at hfundable
    rwa [recorded_get_of_ne hid] at hfundable

end Reports

/-- The invoice contract after the two reports. -/
def reported (pool : Address) (w : Invoices.State V) (id : ℕ) (amount : ℤ) : Invoices.State V :=
  recorded pool (recorded pool w id amount) id amount

section Twice

variable {pool : Address} {w : Invoices.State V} {id : ℕ} {amount : ℤ} {inv : Invoice}

theorem reported_of_accepts (hget : w.invoices.get id = some inv)
    (hacc : Accepts pool w inv amount) :
    ∃ inv', (reported pool w id amount).invoices.get id = some inv' ∧
      Counted inv inv'
        (if InI128 (inv.fundedAmount + amount + amount) then amount + amount else amount) := by
  obtain ⟨inv₁, hcounted₁, hconfig, hinvoices⟩ := recorded_of_accepts hget hacc
  have hget₁ : (recorded pool w id amount).invoices.get id = some inv₁ := by
    rw [hinvoices, Store.get_set_self]
  unfold reported
  split_ifs with hfit
  · have hacc₁ : Accepts pool (recorded pool w id amount) inv₁ amount := by
      refine ⟨hconfig ▸ hacc.1, hconfig ▸ hacc.2.1, hacc.2.2.1, ?_, .inl hcounted₁.status⟩
      rwa [hcounted₁.fundedAmount]
    obtain ⟨inv₂, hcounted₂, -, hinvoices₂⟩ := recorded_of_accepts hget₁ hacc₁
    refine ⟨inv₂, ?_, hcounted₂.status, ?_, ?_⟩
    · rw [hinvoices₂, Store.get_set_self]
    · rw [hcounted₂.fundedAmount, hcounted₁.fundedAmount, add_assoc]
    · rw [hcounted₂.amount, hcounted₁.amount]
  · have hrefused : recorded pool (recorded pool w id amount) id amount =
        recorded pool w id amount := by
      apply recorded_of_not_accepts
      intro inv₂ hget₂ hacc₂
      obtain rfl : inv₁ = inv₂ := Option.some.inj (hget₁.symm.trans hget₂)
      have hfit₂ := hacc₂.2.2.2.1
      rw [hcounted₁.fundedAmount] at hfit₂
      exact hfit hfit₂
    rw [hrefused]
    exact ⟨inv₁, hget₁, hcounted₁⟩

theorem reported_of_not_accepts
    (hacc : ∀ inv, w.invoices.get id = some inv → ¬ Accepts pool w inv amount) :
    reported pool w id amount = w := by
  unfold reported
  rw [recorded_of_not_accepts hacc, recorded_of_not_accepts hacc]

end Twice

/-! ## One funding -/

section Funding

variable {hp : Pool.Host V} {hi : Invoices.Host V} {p p' : State V} {r : FundingRequest}

def State.recordedPrincipal (p : State V) (id : ℕ) : ℤ :=
  ((p.funded.get id).map (·.principal)).getD 0

theorem fundInvoiceRequest_reported (hconf : p.params.config.invoiceContract = hi.self)
    (hf : fundInvoiceRequest (poolHost hp hi) p r = .ok p') :
    p'.world.invoices = (reported hp.self p.world r.invoiceId r.principal).invoices := by
  apply Pool.fundInvoiceRequest_world (P := fun w =>
    w.invoices = (reported hp.self p.world r.invoiceId r.principal).invoices) _ _ hf
  · simp only [poolHost, hconf, if_true, reported]
  · intro w contract hw
    exact hw
  · intro w contract premium w' hw hcover
    obtain ⟨x, -, hx⟩ := Option.map_eq_some_iff.1 hcover
    rw [← (Prod.mk.inj hx).2]
    exact hw

theorem fundInvoiceRequest_funded (hf : fundInvoiceRequest (poolHost hp hi) p r = .ok p') :
    ∃ record, p'.funded = p.funded.set r.invoiceId record ∧
      record.principal = p.recordedPrincipal r.invoiceId + r.principal := by
  obtain ⟨_, _, record, -, hrecord, hp'⟩ := Pool.fundInvoiceRequest_frame hf
  refine ⟨record, by rw [hp'], ?_⟩
  unfold State.recordedPrincipal
  rcases Pool.fundedRecord_eq_ok hrecord with ⟨old, hold, rfl⟩ | ⟨hnone, rfl⟩
  · rw [hold]
    rfl
  · rw [hnone]
    exact (zero_add _).symm

/-- Before a funding: the two accounts will agree after it.  When the invoice contract accepts the
report it counts the principal twice, unless the second sum leaves the range; when it does not, the
principal must have been counted before. -/
def Agreeable (hp : Pool.Host V) (p : State V) (r : FundingRequest) : Prop :=
  ∃ inv ∈ p.world.invoices.get r.invoiceId,
    if Accepts hp.self p.world inv r.principal then
      if InI128 (inv.fundedAmount + r.principal + r.principal) then
        inv.fundedAmount + r.principal = p.recordedPrincipal r.invoiceId ∧
          inv.fundedAmount + r.principal + r.principal ≤ inv.amount
      else
        inv.fundedAmount = p.recordedPrincipal r.invoiceId ∧
          inv.fundedAmount + r.principal ≤ inv.amount
    else
      inv.status = .Funded ∧
        inv.fundedAmount = p.recordedPrincipal r.invoiceId + r.principal ∧
        inv.fundedAmount ≤ inv.amount

instance (hp : Pool.Host V) (p : State V) (r : FundingRequest) : Decidable (Agreeable hp p r) :=
  inferInstanceAs (Decidable (∃ inv ∈ p.world.invoices.get r.invoiceId, _))

theorem agreement_iff (hconf : p.params.config.invoiceContract = hi.self)
    (hf : fundInvoiceRequest (poolHost hp hi) p r = .ok p') :
    Agreement p' r.invoiceId ↔ Agreeable hp p r := by
  obtain ⟨record, hfunded, hprincipal⟩ := fundInvoiceRequest_funded hf
  have hrecord : p'.funded.get r.invoiceId = some record := by
    rw [hfunded, Store.get_set_self]
  have hinvoices := fundInvoiceRequest_reported hconf hf
  -- With the record known, only the invoice after the reports is left to compare.
  have hafter : ∀ inv', p'.world.invoices.get r.invoiceId = some inv' →
      (Agreement p' r.invoiceId ↔ inv'.status = .Funded ∧
        inv'.fundedAmount = p.recordedPrincipal r.invoiceId + r.principal ∧
        inv'.fundedAmount ≤ inv'.amount) := by
    intro inv' hget'
    simp only [Agreement, hget', hrecord, Option.mem_def, Option.some.injEq, exists_eq_left',
      hprincipal]
  cases hget : p.world.invoices.get r.invoiceId with
  | none =>
    have hsame : reported hp.self p.world r.invoiceId r.principal = p.world :=
      reported_of_not_accepts (by simp [hget])
    rw [hsame] at hinvoices
    simp [Agreement, Agreeable, hinvoices, hget]
  | some inv =>
    simp only [Agreeable, hget, Option.mem_def, Option.some.injEq, exists_eq_left']
    by_cases hacc : Accepts hp.self p.world inv r.principal
    · obtain ⟨inv', hget', hcounted⟩ := reported_of_accepts hget hacc
      rw [← hinvoices] at hget'
      rw [hafter inv' hget', if_pos hacc, hcounted.fundedAmount, hcounted.amount]
      simp only [hcounted.status, true_and]
      split_ifs with hfit <;> omega
    · have hsame : reported hp.self p.world r.invoiceId r.principal = p.world :=
        reported_of_not_accepts (by simpa [hget] using hacc)
      rw [hsame] at hinvoices
      rw [hafter inv (by rw [hinvoices, hget]), if_neg hacc]

theorem agreement_of_ne {id : ℕ} (hconf : p.params.config.invoiceContract = hi.self)
    (hf : fundInvoiceRequest (poolHost hp hi) p r = .ok p') (hne : id ≠ r.invoiceId) :
    Agreement p' id ↔ Agreement p id := by
  obtain ⟨record, hfunded, -⟩ := fundInvoiceRequest_funded hf
  have hinvoices : p'.world.invoices.get id = p.world.invoices.get id := by
    rw [fundInvoiceRequest_reported hconf hf, reported, recorded_get_of_ne hne,
      recorded_get_of_ne hne]
  have hrecord : p'.funded.get id = p.funded.get id := by
    rw [hfunded, Store.get_set_of_ne _ _ hne]
  unfold Agreement
  rw [hinvoices, hrecord]

theorem Fundable.of_funding {id : ℕ} (hconf : p.params.config.invoiceContract = hi.self)
    (hf : fundInvoiceRequest (poolHost hp hi) p r = .ok p') (hfundable : Fundable p'.world id) :
    Fundable p.world id := by
  unfold Fundable at hfundable
  rw [fundInvoiceRequest_reported hconf hf] at hfundable
  exact Fundable.of_recorded (Fundable.of_recorded hfundable)

theorem Agreement.fundable {id : ℕ} (hagree : Agreement p id) : Fundable p.world id := by
  obtain ⟨inv, hget, _, -, hst, -⟩ := hagree
  exact ⟨inv, hget, by rw [hst]; rfl⟩

end Funding

section Batch

variable {hp : Pool.Host V} {hi : Invoices.Host V}

/-- The last funding of each invoice of a batch finds it agreeable. -/
def AgreeableAtLast (hp : Pool.Host V) (hi : Invoices.Host V) :
    State V → List FundingRequest → Prop
  | _, [] => True
  | p, r :: rs =>
    ((∀ r' ∈ rs, r'.invoiceId ≠ r.invoiceId) → Agreeable hp p r) ∧
      ∀ p', fundInvoiceRequest (poolHost hp hi) p r = .ok p' → AgreeableAtLast hp hi p' rs

/-- Whether the fundings of a batch are agreeable is found by running it. -/
instance decidableAgreeableAtLast (hp : Pool.Host V) (hi : Invoices.Host V) :
    ∀ (rs : List FundingRequest) (p : State V), Decidable (AgreeableAtLast hp hi p rs)
  | [], _ => .isTrue trivial
  | r :: rs, p =>
    match h : fundInvoiceRequest (poolHost hp hi) p r with
    | .error _ =>
      decidable_of_iff ((∀ r' ∈ rs, r'.invoiceId ≠ r.invoiceId) → Agreeable hp p r)
        (by simp [AgreeableAtLast, h])
    | .ok p' =>
      have := decidableAgreeableAtLast hp hi rs p'
      decidable_of_iff (((∀ r' ∈ rs, r'.invoiceId ≠ r.invoiceId) → Agreeable hp p r) ∧
        AgreeableAtLast hp hi p' rs) (by simp [AgreeableAtLast, h])

theorem fundInvoiceRequest_conf {p p' : State V} {r : FundingRequest}
    (hf : fundInvoiceRequest (poolHost hp hi) p r = .ok p') :
    p'.params.config.invoiceContract = p.params.config.invoiceContract := by
  obtain ⟨_, _, _, -, -, hp'⟩ := Pool.fundInvoiceRequest_frame hf
  rw [hp']

theorem batch_frame {p p' : State V} {rs : List FundingRequest} {id : ℕ}
    (hconf : p.params.config.invoiceContract = hi.self)
    (hf : rs.foldlM (fundInvoiceRequest (poolHost hp hi)) p = .ok p') :
    ((∀ r ∈ rs, r.invoiceId ≠ id) → (Agreement p' id ↔ Agreement p id)) ∧
      (Fundable p'.world id → Fundable p.world id) := by
  have hinv := foldlM_invariant (l := rs) (f := fundInvoiceRequest (poolHost hp hi))
    (P := fun q => q.params.config.invoiceContract = hi.self ∧
      ((∀ r ∈ rs, r.invoiceId ≠ id) → (Agreement q id ↔ Agreement p id)) ∧
      (Fundable q.world id → Fundable p.world id)) ?_ ⟨hconf, fun _ => Iff.rfl, fun h => h⟩ hf
  · exact hinv.2
  · rintro q r q' hr ⟨hq, hagree, hfundable⟩ hstep
    refine ⟨(fundInvoiceRequest_conf hstep).trans hq, fun hne => ?_, fun h => ?_⟩
    · rw [agreement_of_ne hq hstep (hne r hr).symm]
      exact hagree hne
    · exact hfundable (h.of_funding hq hstep)

theorem agreements_iff :
    ∀ {rs : List FundingRequest} {p p' : State V},
      p.params.config.invoiceContract = hi.self →
      rs.foldlM (fundInvoiceRequest (poolHost hp hi)) p = .ok p' →
      ((∀ r ∈ rs, Agreement p' r.invoiceId) ↔ AgreeableAtLast hp hi p rs) := by
  intro rs
  induction rs with
  | nil =>
    intro p p' _ _
    simp [AgreeableAtLast]
  | cons r rs ih =>
    intro p p' hconf hf
    rw [List.foldlM_cons, bind_eq_ok] at hf
    obtain ⟨p₁, hstep, hf⟩ := hf
    have hconf₁ := (fundInvoiceRequest_conf hstep).trans hconf
    have hrest : (∀ p', fundInvoiceRequest (poolHost hp hi) p r = .ok p' →
        AgreeableAtLast hp hi p' rs) ↔ AgreeableAtLast hp hi p₁ rs := by
      rw [hstep]
      simp
    rw [List.forall_mem_cons, AgreeableAtLast, hrest, ← ih hconf₁ hf]
    by_cases hlast : ∀ r' ∈ rs, r'.invoiceId ≠ r.invoiceId
    · have hframe := (batch_frame hconf₁ hf).1 hlast
      rw [hframe, agreement_iff hconf hstep, imp_iff_right hlast]
    · -- A later request funds the same invoice, so this one does not matter.
      have hcovered : (∀ r' ∈ rs, Agreement p' r'.invoiceId) → Agreement p' r.invoiceId := by
        intro hall
        by_contra hr
        apply hlast
        intro r' hr' heq
        exact hr (heq ▸ hall r' hr')
      constructor
      · intro h
        exact ⟨fun h' => absurd h' hlast, h.2⟩
      · intro h
        exact ⟨hcovered h.2, h.2⟩

end Batch

/-! ## The fundings of a run -/

/-- The requests of a call of `fund_invoice` or `fund_multiple_invoices`. -/
def Call.requests : Call V → List FundingRequest
  | .pool (.fundInvoice _ r) _ => [r]
  | .pool (.fundMultipleInvoices _ rs) _ => rs
  | _ => []

/-- A funding call that succeeded, with the ledger before and after it. -/
structure Funding (V : Type) where
  before : State V
  requests : List FundingRequest
  after : State V

/-- Every invoice of the call was fundable, and the contracts agree on it afterwards. -/
def Funding.Agrees (f : Funding V) : Prop :=
  ∀ r ∈ f.requests, Fundable f.before.world r.invoiceId ∧ Agreement f.after r.invoiceId

instance (f : Funding V) : Decidable f.Agrees :=
  inferInstanceAs (Decidable (∀ r ∈ f.requests, _))

/-- Add a call to the log of the fundings; a call of another kind has no requests. -/
def noteFunding {hp : Pool.Host V} {hi : Invoices.Host V} (p : State V) (tx : Tx hp hi)
    (p' : State V) (log : List (Funding V)) : List (Funding V) :=
  ⟨p, tx.call.requests, p'⟩ :: log

theorem exec_requests {hp : Pool.Host V} {hi : Invoices.Host V} {p p' : State V} {tx : Tx hp hi}
    (hx : exec hp hi p tx = .ok p') :
    tx.call.requests = [] ∨
      tx.call.requests.foldlM (fundInvoiceRequest (poolHost hp hi)) p = .ok p' := by
  obtain ⟨signers, hpool, hinvoices, call⟩ := tx
  cases call with
  | pool call own =>
    have hrun := (mapError_eq_ok _ _ _).1 hx
    cases call with
    | fundInvoice admin r =>
      right
      simpa [Call.requests] using (Pool.fundInvoice_eq_ok.1 hrun).2.2
    | fundMultipleInvoices admin rs =>
      exact .inr (Pool.fundMultipleInvoices_eq_ok.1 hrun).2.2.2
    | _ => exact .inl rfl
  | _ => exact .inl rfl

/-- In every run, the contracts agree after a funding call on each invoice that it funds, and found
it fundable, if and only if the last funding of each was agreeable. -/
theorem fundings_agree_iff (hp : Pool.Host V) (hi : Invoices.Host V) (now : ℕ) (world : V)
    (cash : Address → Address → ℤ) (shareTokens : Address → Share.ShareToken)
    (poolAdmin token share admin : Address) (maxInvoiceAmount : ℤ)
    (expirationDurationSecs gracePeriodDays : ℕ) {x : State V × List (Funding V)}
    (hrun : Reaches (track (exec hp hi) noteFunding) (fun _ _ => True)
      (initialState hp hi now world cash shareTokens poolAdmin token share admin maxInvoiceAmount
        expirationDurationSecs gracePeriodDays, []) x) :
    ∀ f ∈ x.2, f.before.params.config.invoiceContract = hi.self →
      (f.Agrees ↔ AgreeableAtLast hp hi f.before f.requests) := by
  apply hrun.invariant
  · intro f hf
    cases hf
  · intro y tx y' hlog _ hstep
    rw [track_eq_ok] at hstep
    obtain ⟨hx, hnote⟩ := hstep
    rw [hnote]
    refine List.forall_mem_cons.2 ⟨fun hconf => ?_, hlog⟩
    simp only at hconf ⊢
    unfold Funding.Agrees
    rcases exec_requests hx with hnone | hfold
    · simp [hnone, AgreeableAtLast]
    · rw [← agreements_iff hconf hfold]
      constructor
      · intro h r hr
        exact (h r hr).2
      · intro h r hr
        exact ⟨(batch_frame hconf hfold).2 (h r hr).fundable, h r hr⟩

/-- The invoice contract is paused while the pool funds one half of an invoice, and counts the other
half twice. -/
def missedReport : List SampleTx :=
  billedPool ++
    [⟨[1], Pool.self_ne_one, Invoices.self_ne_one, .invoices (.set (.pause 1)) rfl⟩,
      partFunding 500,
      ⟨[1], Pool.self_ne_one, Invoices.self_ne_one, .invoices (.set (.unpause 1)) rfl⟩,
      partFunding 500]

theorem fundings_agree_missed_report :
    ∃ x f, Reaches (track (exec Pool.quietHost Invoices.quietHost) noteFunding) (fun _ _ => True)
        (sampleState, []) x ∧ f ∈ x.2 ∧ f.requests ≠ [] ∧
      f.before.params.config.invoiceContract = Invoices.quietHost.self ∧ f.Agrees := by
  obtain ⟨x, hx, hcheck⟩ := exists_of_check
    (x := missedReport.foldlM (track (exec Pool.quietHost Invoices.quietHost) noteFunding)
      (sampleState, []))
    (p := fun x => decide (∃ f ∈ x.2.head?, f.requests ≠ [] ∧
      f.before.params.config.invoiceContract = Invoices.quietHost.self ∧
      AgreeableAtLast Pool.quietHost Invoices.quietHost f.before f.requests)) (by decide)
  obtain ⟨f, hf, hne, hconf, hagreeable⟩ := of_decide_eq_true hcheck
  have hrun : Reaches (track (exec Pool.quietHost Invoices.quietHost) noteFunding)
      (fun _ _ => True) (sampleState, []) x := reaches_of_along .refl (by decide) hx
  have hmem : f ∈ x.2 := List.mem_of_mem_head? hf
  exact ⟨x, f, hrun, hmem, hne, hconf, (fundings_agree_iff Pool.quietHost Invoices.quietHost 1000 ()
    _ _ 1 10 20 1 1000000 2592000 7 hrun f hmem hconf).2 hagreeable⟩

/-- The pool funds the whole invoice at once, and the invoice contract says 2000. -/
theorem single_funding_counted_twice :
    ∃ x f, Reaches (track (exec Pool.quietHost Invoices.quietHost) noteFunding) (fun _ _ => True)
        (sampleState, []) x ∧ f ∈ x.2 ∧
      f.before.params.config.invoiceContract = Invoices.quietHost.self ∧ ¬ f.Agrees := by
  obtain ⟨x, hx, hcheck⟩ := exists_of_check
    (x := (billedPool ++ [partFunding 1000]).foldlM
      (track (exec Pool.quietHost Invoices.quietHost) noteFunding) (sampleState, []))
    (p := fun x => decide (∃ f ∈ x.2.head?,
      f.before.params.config.invoiceContract = Invoices.quietHost.self ∧ ¬ f.Agrees))
    (by decide)
  obtain ⟨f, hf, hconf, hagree⟩ := of_decide_eq_true hcheck
  exact ⟨x, f, reaches_of_along .refl (by decide) hx, List.mem_of_mem_head? hf, hconf, hagree⟩

end Astera.Linked
