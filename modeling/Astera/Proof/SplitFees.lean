import Astera.Pool.Writes
import Astera.Proof.BatchFunding

/-!
# The fee of a loan funded in parts

The first funding of an invoice records the fee on its own principal.  A further funding computes a
fee too, but the record keeps that of the first, so the fee of the parts after it is lost unless the
rounding of the first fee covers it.
-/

namespace Astera.Pool

open Fallible Machine Transition

variable {W : Type} {h : Host W} {signers : List Address} {s s' : State W}

def feeOf (bps : ℕ) (principal : ℤ) : ℤ := (principal * bps + 9999) / 10000

def totalPrincipal (requests : List FundingRequest) : ℤ := (requests.map (·.principal)).sum

theorem feeOf_add_le_iff (bps : ℕ) (a b : ℤ) :
    feeOf bps (a + b) ≤ feeOf bps a ↔ b * bps ≤ (-(a * bps)) % 10000 := by
  unfold feeOf
  rw [add_mul]
  generalize a * bps = x
  generalize b * bps = y
  omega

/-- The tokens of the pool have the expected decimals. -/
def PlainDecimals (s : State W) : Prop :=
  ∀ token config, s.tokenConfig token = some config → config.decimals = expectedDecimals

theorem resolveFactoringFee_eq {principal fee : ℤ} {sme token : Address}
    (hdecimals : PlainDecimals s) (htiers : s.params.feeTiers = []) (hpos : 0 ≤ principal)
    (hrange : principal < 2 ^ 128)
    (hf : s.resolveFactoringFee h principal sme token = .ok fee) :
    fee = feeOf s.params.config.factoringFeeBps principal := by
  unfold State.resolveFactoringFee at hf
  simp only [bind_eq_ok, okOr_eq_ok] at hf
  obtain ⟨bps, hbps, config, hconfig, normalized, hnorm, raw, hraw, hdenorm⟩ := hf
  have hseven := hdecimals token config hconfig
  have hrate : bps = s.params.config.factoringFeeBps := by
    unfold State.factoringFeeBps at hbps
    split at hbps
    · exact ((pure_eq_ok _ _).1 hbps).symm
    · rw [htiers] at hbps
      simp only [bind_eq_ok, List.find?_nil, Option.map_none, Option.getD_none, pure_eq_ok] at hbps
      obtain ⟨_, -, rfl⟩ := hbps
      rfl
  have hsame : normalized = principal := by
    unfold normalizeToStroops at hnorm
    rw [hseven, if_pos le_rfl, Nat.sub_self, pow_zero] at hnorm
    simp only [bind_eq_ok, okOr_eq_ok, fit_eq_some, pure_eq_ok] at hnorm
    obtain ⟨_, ⟨rfl, -⟩, rfl⟩ := hnorm
    exact Int.tdiv_one _
  have hback : fee = raw := by
    unfold denormalizeFromStroops at hdenorm
    rw [hseven, if_pos le_rfl, Nat.sub_self, pow_zero] at hdenorm
    simp only [bind_eq_ok, okOr_eq_ok, fit_eq_some, checkedMul_eq_some] at hdenorm
    obtain ⟨_, ⟨rfl, -⟩, rfl, -⟩ := hdenorm
    exact mul_one _
  subst hrate hsame hback
  unfold calculateFactoringFee u128ToI128 at hraw
  simp only [bind_eq_ok, okOr_eq_ok, fitU_eq_some, require_eq_ok, exists_unit, pure_eq_ok] at hraw
  obtain ⟨_, ⟨rfl, -⟩, -, rfl⟩ := hraw
  unfold feeOf
  rw [Int.natCast_ediv, Nat.cast_add, Nat.cast_mul, toU_of_nonneg 128 _ hpos hrange]
  rfl

theorem plainDecimals_exec {tx : Tx h} (hs : PlainDecimals s) (hstep : exec h s tx = .ok s') :
    PlainDecimals s' := by
  by_cases hcall : tx.call.writes.contains .tokenConfig = false
  · have hkept : s'.tokenConfig = s.tokenConfig := exec_kept .tokenConfig hcall hstep
    unfold PlainDecimals
    rw [hkept]
    exact hs
  · obtain ⟨signers, hself, call⟩ := tx
    cases call with
    | addToken admin token share =>
      change addToken h signers s admin token share = .ok s' at hstep
      unfold addToken at hstep
      simp only [bind_eq_ok, require_eq_ok, exists_unit] at hstep
      obtain ⟨-, -, -, decimals, -, hseven, -, -, hstep⟩ := hstep
      split_ifs at hstep
      · obtain rfl := (pure_eq_ok _ _).1 hstep
        intro t config hconfig
        change Function.update s.tokenConfig token _ t = some config at hconfig
        rw [Function.update_apply] at hconfig
        split_ifs at hconfig
        · rw [← Option.some.inj hconfig]
          exact hseven
        · exact hs t config hconfig
      · obtain rfl := (pure_eq_ok _ _).1 hstep
        exact hs
    | _ => exact absurd rfl hcall

theorem plainDecimals_of_execAll {now : ℕ} {world : W} {cash : Address → Address → ℤ}
    {shareTokens : Address → Share.ShareToken} {admin token share invoiceContract : Address}
    {txs : List (Tx h)} (hrun : execAll h
      (initialState now world cash shareTokens admin token share invoiceContract) txs = .ok s) :
    PlainDecimals s := by
  refine foldlM_invariant (fun s tx s' _ hs hstep => plainDecimals_exec hs hstep) ?_ hrun
  intro t config hconfig
  change Function.update (fun _ => none) token _ t = some config at hconfig
  rw [Function.update_apply] at hconfig
  split_ifs at hconfig
  rw [← Option.some.inj hconfig]

/-! ## Fundings -/

theorem first_funding {request : FundingRequest}
    (hdecimals : PlainDecimals s) (htiers : s.params.feeTiers = [])
    (hnew : s.funded.get request.invoiceId = none)
    (hf : fundInvoiceRequest h s request = .ok s') :
    ∃ record, s'.funded.get request.invoiceId = some record ∧
      record.principal = request.principal ∧
      record.factoringFee = feeOf s.params.config.factoringFeeBps request.principal := by
  obtain ⟨s₁, hloan, hs'⟩ := fundInvoiceRequest_eq_ok hf
  have hfunded : s'.funded = s₁.funded := by
    rw [hs']
    rcases purchaseInsurance_eq h s₁ request with heq | ⟨_, _, _, -, -, -, -, heq⟩ <;> rw [heq]
  unfold fundLoan availableLiquidity fundBooks at hloan
  simp only [bind_eq_ok, require_eq_ok, exists_unit, okOr_eq_ok, checkedSub_eq_some,
    State.transfer_eq_ok, pure_eq_ok] at hloan
  obtain ⟨hpos, _, ⟨rfl, hrange⟩, hle, -, -, _, ⟨_, -, lockedYieldBps, -, fee, hfee, record, hrecord,
    -, _, -, rfl⟩, _, ⟨-, -, rfl⟩, s₂, hsnap, rfl⟩ := hloan
  obtain ⟨history, rfl⟩ := State.recordRateSnapshot_eq_ok hsnap
  obtain ⟨w, hw⟩ := notifyCreditScore_eq h _ request.invoiceId request.sme request.principal
  rw [hw] at hfunded
  rw [hnew] at hrecord
  obtain rfl := (pure_eq_ok _ _).1 hrecord
  unfold InI128 at hrange
  refine ⟨_, by rw [hfunded]; exact Store.get_set_self _ _ _, rfl, ?_⟩
  exact resolveFactoringFee_eq hdecimals htiers hpos.le (by omega) hfee

theorem further_funding {request : FundingRequest} {record : FundedInvoice}
    (hold : s.funded.get request.invoiceId = some record)
    (hf : fundInvoiceRequest h s request = .ok s') :
    s'.funded.get request.invoiceId =
      some { record with principal := record.principal + request.principal } := by
  obtain ⟨_, _, record', -, hrecord, hs'⟩ := fundInvoiceRequest_frame hf
  rcases fundedRecord_eq_ok hrecord with ⟨old, hsome, rfl⟩ | ⟨hnone, -⟩
  · obtain rfl : record = old := Option.some.inj (hold.symm.trans hsome)
    rw [hs']
    exact Store.get_set_self _ _ _
  · rw [hold] at hnone
    cases hnone

theorem totalPrincipal_cons (request : FundingRequest) (requests : List FundingRequest) :
    totalPrincipal (request :: requests) = request.principal + totalPrincipal requests := by
  simp [totalPrincipal]

theorem further_fundings {id : ℕ} :
    ∀ {requests : List FundingRequest} {s : State W} {record : FundedInvoice},
      (∀ r ∈ requests, r.invoiceId = id) → s.funded.get id = some record →
      requests.foldlM (fundInvoiceRequest h) s = .ok s' →
      s'.funded.get id =
        some { record with principal := record.principal + totalPrincipal requests } := by
  intro requests
  induction requests with
  | nil =>
    intro s record _ hold hs
    simp only [List.foldlM_nil, pure_eq_ok] at hs
    rw [← hs, hold]
    simp [totalPrincipal]
  | cons r requests ih =>
    intro s record hid hold hs
    rw [List.foldlM_cons, bind_eq_ok] at hs
    obtain ⟨s₁, h₁, hs⟩ := hs
    have hr := hid r List.mem_cons_self
    have hnext := further_funding (hr ▸ hold) h₁
    rw [hr] at hnext
    rw [ih (fun r' hr' => hid r' (List.mem_cons_of_mem _ hr')) hnext hs, totalPrincipal_cons]
    simp only [Option.some.injEq, FundedInvoice.mk.injEq, and_true, true_and]
    ring

/-- For an invoice funded in parts at a fixed rate, the fee in the record is no lower than the fee
that funding it at once records exactly when rounding up the fee on the first part leaves room for
the rate on the others. -/
theorem split_fee_iff {now : ℕ} {world : W} {cash : Address → Address → ℤ}
    {shareTokens : Address → Share.ShareToken} {admin₀ token share invoiceContract : Address}
    {txs : List (Tx h)} (hrun : execAll h
      (initialState now world cash shareTokens admin₀ token share invoiceContract) txs = .ok s)
    (htiers : s.params.feeTiers = []) {id : ℕ} (hnew : s.funded.get id = none) {admin : Address}
    {first : FundingRequest} {rest : List FundingRequest}
    (hid : ∀ r ∈ first :: rest, r.invoiceId = id)
    (hfund : fundSequentially h signers s admin (first :: rest) = .ok s') :
    (∀ whole s₁, whole.invoiceId = id → whole.principal = totalPrincipal (first :: rest) →
      fundInvoice h signers s admin whole = .ok s₁ → ∃ record, s₁.funded.get id = some record ∧
        record.factoringFee =
          feeOf s.params.config.factoringFeeBps (totalPrincipal (first :: rest))) ∧
    ∃ record, s'.funded.get id = some record ∧
      record.principal = totalPrincipal (first :: rest) ∧
      (feeOf s.params.config.factoringFeeBps (totalPrincipal (first :: rest)) ≤
          record.factoringFee ↔
        totalPrincipal rest * s.params.config.factoringFeeBps ≤
          (-(first.principal * s.params.config.factoringFeeBps)) % 10000) := by
  have hdecimals := plainDecimals_of_execAll hrun
  constructor
  · rintro whole s₁ rfl hprincipal hone
    obtain ⟨record, hget, -, hfee⟩ :=
      first_funding hdecimals htiers hnew (fundInvoice_eq_ok.1 hone).2.2
    exact ⟨record, hget, hprincipal ▸ hfee⟩
  · have hfold := (of_fundSequentially hfund).1
    rw [List.foldlM_cons, bind_eq_ok] at hfold
    obtain ⟨s₁, h₁, hfold⟩ := hfold
    have hfirst := hid first List.mem_cons_self
    obtain ⟨record, hget, hprincipal, hfee⟩ :=
      first_funding hdecimals htiers (hfirst.symm ▸ hnew) h₁
    rw [hfirst] at hget
    refine ⟨_, further_fundings (fun r hr => hid r (List.mem_cons_of_mem _ hr)) hget hfold, ?_, ?_⟩
    · rw [totalPrincipal_cons, hprincipal]
    · rw [totalPrincipal_cons, ← feeOf_add_le_iff]
      show _ ≤ record.factoringFee ↔ _
      rw [hfee]

/-- A pool that charges 300 basis points, after a deposit. -/
def chargingPool : List (Tx quietHost) :=
  [⟨[1], self_ne_one, .setParams { sampleState.params with
      config := { sampleState.params.config with
        maxSingleInvestorBps := 10000
        factoringFeeBps := 300 } }⟩,
    ⟨[3], self_ne_three, .deposit 3 10 2000 none⟩]

def loanPart (principal : ℤ) : FundingRequest := ⟨7, principal, 4, 31536001, 10⟩

theorem split_fee_iff_covered :
    ∃ s s', execAll quietHost sampleState chargingPool = .ok s ∧
      fundSequentially quietHost [1] s 1 [loanPart 995, loanPart 5] = .ok s' ∧
      ∃ record, s'.funded.get 7 = some record ∧ record.principal = 1000 ∧
        feeOf 300 1000 ≤ record.factoringFee := by
  obtain ⟨s, hs, hp⟩ := exists_of_check (x := execAll quietHost sampleState chargingPool)
    (p := fun s => check (fundSequentially quietHost [1] s 1 [loanPart 995, loanPart 5]) fun _ =>
      decide (s.params.feeTiers = [] ∧ (s.funded.get 7).isNone = true ∧
        s.params.config.factoringFeeBps = 300)) (by decide)
  obtain ⟨s', hs', hp⟩ := exists_of_check hp
  obtain ⟨htiers, hnew, hbps⟩ := of_decide_eq_true hp
  obtain ⟨-, record, hget, hprincipal, hiff⟩ := split_fee_iff hs htiers
    (Option.isNone_iff_eq_none.1 hnew) (by decide) hs'
  rw [hbps] at hiff
  exact ⟨s, s', hs, hs', record, hget, hprincipal, hiff.2 (by decide)⟩

/-- Funded at once the loan costs 30; funded in two halves it costs 15. -/
theorem halves_cost_half :
    ∃ s s₁ s', execAll quietHost sampleState chargingPool = .ok s ∧
      s.params.feeTiers = [] ∧ s.params.config.factoringFeeBps = 300 ∧
      fundInvoice quietHost [1] s 1 (loanPart 1000) = .ok s₁ ∧
      (s₁.funded.get 7).map FundedInvoice.factoringFee = some 30 ∧
      fundSequentially quietHost [1] s 1 [loanPart 500, loanPart 500] = .ok s' ∧
      (s'.funded.get 7).map FundedInvoice.principal = some 1000 ∧
      (s'.funded.get 7).map FundedInvoice.factoringFee = some 15 := by
  obtain ⟨s, hs, hp⟩ := exists_of_check (x := execAll quietHost sampleState chargingPool)
    (p := fun s => check (fundInvoice quietHost [1] s 1 (loanPart 1000)) fun s₁ =>
      check (fundSequentially quietHost [1] s 1 [loanPart 500, loanPart 500]) fun s' =>
      decide (s.params.feeTiers = [] ∧ s.params.config.factoringFeeBps = 300 ∧
        (s₁.funded.get 7).map FundedInvoice.factoringFee = some 30 ∧
        (s'.funded.get 7).map FundedInvoice.principal = some 1000 ∧
        (s'.funded.get 7).map FundedInvoice.factoringFee = some 15)) (by decide)
  obtain ⟨s₁, hs₁, hp⟩ := exists_of_check hp
  obtain ⟨s', hs', hp⟩ := exists_of_check hp
  obtain ⟨htiers, hbps, hwhole, hprincipal, hparts⟩ := of_decide_eq_true hp
  exact ⟨s, s₁, s', hs, htiers, hbps, hs₁, hwhole, hs', hprincipal, hparts⟩

end Astera.Pool
