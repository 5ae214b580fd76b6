import Astera.Pool.System

/-!
# Funding in a batch and one by one

Only the single entrypoint checks the pool's authorization, the collateral and the borrower's
clearance.  A batch does what the single calls do exactly when every request would have passed those
checks, in the state that the requests before it leave.
-/

namespace Astera.Pool

open Fallible Transition

variable {W : Type}

/-- `fund_invoice` called on each request in order. -/
def fundSequentially (h : Host W) (signers : List Address) (s : State W) (admin : Address)
    (requests : List FundingRequest) : Res (State W) :=
  requests.foldlM (fun s request => fundInvoice h signers s admin request) s

/-- Every request passes the checks of the single entrypoint when its turn comes. -/
def GuardsAlong (h : Host W) (s : State W) (requests : List FundingRequest) : Prop :=
  Along (fundInvoiceRequest h) (fun s request => fundInvoiceGuards h s request = .ok ()) s requests

theorem of_fundSequentially {h : Host W} {signers : List Address} {admin : Address} :
    ∀ {requests : List FundingRequest} {s s' : State W},
      fundSequentially h signers s admin requests = .ok s' →
      requests.foldlM (fundInvoiceRequest h) s = .ok s' ∧ GuardsAlong h s requests ∧
        (requests ≠ [] → fundCaller signers s admin = .ok ()) := by
  intro requests
  induction requests with
  | nil =>
    intro s s' hs
    exact ⟨hs, trivial, fun hne => absurd rfl hne⟩
  | cons r requests ih =>
    intro s s' hs
    unfold fundSequentially at hs
    rw [List.foldlM_cons, bind_eq_ok] at hs
    obtain ⟨s₁, h₁, hs⟩ := hs
    obtain ⟨hcaller, hguards, hr⟩ := fundInvoice_eq_ok.1 h₁
    obtain ⟨hfold, halong, -⟩ := ih hs
    refine ⟨?_, ⟨hguards, fun s₂ h₂ => ?_⟩, fun _ => hcaller⟩
    · rw [List.foldlM_cons, bind_eq_ok]
      exact ⟨s₁, hr, hfold⟩
    · obtain rfl : s₁ = s₂ := Except.ok.inj (hr.symm.trans h₂)
      exact halong

end Astera.Pool
