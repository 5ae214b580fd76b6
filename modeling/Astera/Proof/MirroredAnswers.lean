import Astera.Messages.Mirrors

/-!
# Which mirrors read the answers they mirror

A record is read only by one with the same names.  The answers gained fields that the insurance
contract did not (`mirror_faithful_iff`): it traps on every loan that a claim asks for, and never
sees a score.
-/

namespace Astera.Messages

open HostCall HostCall.Codec Fallible
open Insurance (fileClaim resolveCreditScore shortfallOf)

variable {W : Type}

theorem faithful_of_same {m : Mirror} (copy : m.Answer → m.View)
    (hsame : ∀ a, m.answer.encode a = m.view.encode (copy a)) : m.Faithful := by
  intro a
  refine ⟨copy a, record_decode_eq_some (hsame a), fun name _ _ => ?_⟩
  unfold Fields.value
  rw [hsame a]

theorem read_eq_none {m : Mirror} (hlength : m.answer.names.length ≠ m.view.names.length)
    (a : m.Answer) : m.read a = none :=
  record_decode_eq_none (fun hperm => hlength hperm.length_eq) a

theorem not_faithful {m : Mirror} (hlength : m.answer.names.length ≠ m.view.names.length)
    (a : m.Answer) : ¬ m.Faithful := by
  intro hfaithful
  obtain ⟨v, hv, -⟩ := hfaithful a
  rw [read_eq_none hlength] at hv
  cases hv

/-- A loan, a deposit and a score, for the mirrors that read none. -/
def sampleLoan : Pool.FundedInvoice where
  invoiceId := 7
  sme := 8
  token := 9
  principal := 1000
  fundedAt := 5
  factoringFee := 10
  dueDate := 900_000
  repaidAmount := 0
  coFundingRoundId := none
  lockedYieldBps := 500

@[inherit_doc sampleLoan]
def sampleDeposit : Pool.CollateralDeposit where
  invoiceId := 7
  depositor := 8
  token := 9
  amount := 200
  settled := false
  postedAt := 5
  releasedAt := 0
  seizedAt := 0
  collateralBpsAtDeposit := 2000
  thresholdAtDeposit := 500

@[inherit_doc sampleLoan]
def sampleScore : CreditScore.CreditScoreResponse where
  sme := 8
  score := 700
  totalInvoices := 3
  paidOnTime := 3
  paidLate := 0
  defaulted := 0
  totalVolume := 3000
  averagePaymentDays := 20
  lastUpdated := 4
  scoreVersion := 1
  configVersion := 1
  isStale := false
  blendedScore := 710
  riskAdjustmentPts := 0
  trendAdjustmentPts := 5
  finalScore := 715

theorem mirror_faithful_iff : ∀ m ∈ mirrors, m.Faithful ↔ m.reader ≠ .insurance := by
  intro m hm
  simp only [mirrors, List.mem_cons, List.not_mem_nil, or_false] at hm
  rcases hm with rfl | rfl | rfl | rfl | rfl | rfl
  · exact iff_of_false (not_faithful (by decide) sampleScore) (by decide)
  · exact iff_of_false (not_faithful (by decide) sampleLoan) (by decide)
  · exact iff_of_false (not_faithful (by decide) sampleDeposit) (by decide)
  · exact iff_of_true (faithful_of_same (fun d => ⟨d.invoiceId, d.depositor, d.token, d.amount,
      d.settled, d.postedAt, d.releasedAt, d.seizedAt, d.collateralBpsAtDeposit,
      d.thresholdAtDeposit⟩) fun _ => rfl) (by decide)
  · exact iff_of_true (faithful_of_same (fun r => ⟨r.invoiceId, r.sme, r.token, r.principal,
      r.fundedAt, r.factoringFee, r.dueDate, r.repaidAmount, r.coFundingRoundId,
      r.lockedYieldBps⟩) fun _ => rfl) (by decide)
  · exact iff_of_true (faithful_of_same (fun r => ⟨r.invoiceId, r.sme, r.token, r.principal,
      r.fundedAt, r.factoringFee, r.dueDate, r.repaidAmount, r.coFundingRoundId,
      r.lockedYieldBps⟩) fun _ => rfl) (by decide)

theorem readCreditScore_eq_none (r : CreditScore.CreditScoreResponse) : readCreditScore r = none := by
  unfold readCreditScore
  rw [record_decode_eq_none (fun hperm => absurd hperm.length_eq (by decide)), Option.map_none]

theorem readFundedInvoice_some (r : Pool.FundedInvoice) : readFundedInvoice (some r) = none := by
  have hnone : (record InsuranceMirror.fundedInvoiceView (by decide)).decode
      ((record fundedInvoice (by decide)).encode r) = none :=
    record_decode_eq_none (fun hperm => absurd hperm.length_eq (by decide)) r
  unfold readFundedInvoice
  rw [option_decode_eq_none hnone, Option.map_none]

theorem resolveCreditScore_answers (answers : Answers W) (h : Insurance.Host W)
    (s : Insurance.State W) (sme : Address) :
    resolveCreditScore (answers.host h) s sme = none := by
  have hnone (contract : Address) :
      (answers.host h).getCreditScore s.world contract sme = none :=
    Option.bind_eq_none_iff.2 fun r _ => readCreditScore_eq_none r
  unfold resolveCreditScore
  simp only [hnone, Option.bind_eq_bind, Option.bind_none, Option.bind_fun_none]

theorem shortfallOf_answers (answers : Answers W) (h : Insurance.Host W) (s : Insurance.State W)
    (invoiceId : ℕ) (owed : ℤ) : shortfallOf (answers.host h) s invoiceId ≠ .ok owed := by
  intro hok
  simp only [shortfallOf, bind_eq_ok, okOr_eq_ok] at hok
  obtain ⟨-, -, view, hview, loan, hloan, -⟩ := hok
  subst hloan
  change (answers.getFundedInvoice s.world s.config.poolContract invoiceId).bind readFundedInvoice =
    some (some loan) at hview
  obtain ⟨answer, -, hread⟩ := Option.bind_eq_some_iff.1 hview
  cases answer with
  | none => cases hread
  | some r =>
    rw [readFundedInvoice_some] at hread
    cases hread

/-- The auction and the secondary market read what the pool answers.  The insurance contract reads
none of its three answers: no claim is paid, and no premium follows a score. -/
theorem mirrors_read_iff (answers : Answers W) (h : Insurance.Host W) (s : Insurance.State W) :
    (∀ m ∈ mirrors, m.Faithful ↔ m.reader ≠ .insurance) ∧
    (∀ invoiceId s', fileClaim (answers.host h) s invoiceId ≠ .ok s') ∧
    ∀ sme, resolveCreditScore (answers.host h) s sme = none := by
  refine ⟨mirror_faithful_iff, fun invoiceId s' hok => ?_, resolveCreditScore_answers answers h s⟩
  simp only [fileClaim, bind_eq_ok] at hok
  obtain ⟨-, -, record, -, -, -, defaulted, -, -, -, owed, howed, -⟩ := hok
  exact shortfallOf_answers answers h s invoiceId owed howed

/-- A pool with the sample loan, without a deposit, and a credit score contract with the sample
score. -/
def sampleAnswers : Answers Unit where
  getCreditScore := fun _ _ _ => some sampleScore
  getFundedInvoice := fun _ _ _ => some (some sampleLoan)
  getCollateralDeposit := fun _ _ _ => some none

/-- The admin sets the premiums, with twice the risk for scores below 600 and no default discount,
names the credit score contract 6 and funds the reserve of token 9, and the pool insures the loan.
-/
def sampleCover : List (Insurance.Tx (sampleAnswers.host Insurance.sampleHost)) :=
  [⟨[2], by decide, .set (.setPremiumConfig 2 Insurance.sampleConfig)⟩,
    ⟨[2], by decide, .set (.setCreditScoreContract 2 6)⟩,
    ⟨[2], by decide, .fundReserveFromTreasury 2 9 5_000⟩,
    ⟨[3], by decide, .purchaseCoverage 3 7 1_000 8 900_000 9⟩]

/-- The loan is covered and in default, 1000 are owed and 5020 are in reserve, and the claim traps
on the pool's answer; the borrower's score of 710 was not read either. -/
theorem due_claim_traps :
    ∃ s, Transition.Reaches (Insurance.exec (sampleAnswers.host Insurance.sampleHost))
        (fun _ _ => True) Insurance.sampleStart s ∧
      (s.coverageRecords.get 7).map (fun record => (record.principal, record.claimed)) =
        some (1000, false) ∧
      (s.reserveFund 9).totalReserves = 5020 ∧
      Insurance.sampleHost.isInvoiceDefaulted s.world s.config.invoiceContract 7 = some true ∧
      sampleAnswers.getFundedInvoice s.world s.config.poolContract 7 = some (some sampleLoan) ∧
      sampleLoan.principal - sampleLoan.repaidAmount = 1000 ∧
      fileClaim (sampleAnswers.host Insurance.sampleHost) s 7 = .error .call ∧
      s.creditScoreContract = some 6 ∧
      resolveCreditScore (sampleAnswers.host Insurance.sampleHost) s 8 = none := by
  obtain ⟨s, hs, hp⟩ := exists_of_check
    (x := sampleCover.foldlM (Insurance.exec (sampleAnswers.host Insurance.sampleHost))
      Insurance.sampleStart)
    (p := fun s => decide ((s.coverageRecords.get 7).map
        (fun record => (record.principal, record.claimed)) = some (1000, false) ∧
      (s.reserveFund 9).totalReserves = 5020 ∧ s.creditScoreContract = some 6) &&
      Fallible.fails (fileClaim (sampleAnswers.host Insurance.sampleHost) s 7) .call)
    (by decide)
  obtain ⟨hkept, hfails⟩ := Bool.and_eq_true_iff.1 hp
  obtain ⟨hrecord, hreserve, hscore⟩ := of_decide_eq_true hkept
  have hrun := Transition.reaches_of_along .refl
    (Transition.along_of_forall (fun _ _ => trivial) _ _) hs
  exact ⟨s, hrun, hrecord, hreserve, rfl, rfl, rfl, of_fails hfails, hscore,
    resolveCreditScore_answers _ _ _ _⟩

end Astera.Messages
