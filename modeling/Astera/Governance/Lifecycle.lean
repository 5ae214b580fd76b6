import Astera.Governance.System

/-!
# The life of a proposal

A proposal stays under its id, with the terms it was created with.  From the end of the voting on
its tally stays too, and its status tells what the tally says.  A status other than `Active` and
`Passed` is never left.
-/

namespace Astera.Governance

open Fallible Machine Transition

variable {W : Type} {h : Host W} {s s' : State W} {tx : Tx W} {id : ℕ} {p p' : Proposal}

/-! ## One call -/

/-- The status agrees with the tally. -/
structure Proposal.Sound (p : Proposal) (now : ℕ) : Prop where
  passed : p.status = .Passed ∨ p.status = .Executed ∨ p.status = .Expired →
    p.Passes ∧ p.votingEndsAt ≤ now ∧ p.passedAt = p.votingEndsAt
  rejected : p.status = .Rejected → ¬ p.Passes ∧ p.votingEndsAt ≤ now

def Proposal.SameTally (p p' : Proposal) : Prop :=
  p'.votesFor = p.votesFor ∧ p'.votesAgainst = p.votesAgainst

theorem Proposal.Sound.mono {now : ℕ} (hs : p.Sound now) (hle : now ≤ s.now) : p.Sound s.now :=
  ⟨fun hpassed => ⟨(hs.passed hpassed).1, (hs.passed hpassed).2.1.trans hle, (hs.passed hpassed).2.2⟩,
    fun hrejected => ⟨(hs.rejected hrejected).1, (hs.rejected hrejected).2.trans hle⟩⟩

theorem Proposal.sound_of_open {now : ℕ} (hopen : p.status = .Active ∨ p.status = .Cancelled) :
    p.Sound now := by
  constructor
  · intro hpassed
    rcases hopen with hopen | hopen <;> simp [hopen] at hpassed
  · intro hrejected
    rcases hopen with hopen | hopen <;> simp [hopen] at hrejected

theorem Proposal.sound_of_passes {now : ℕ} (hpasses : p.Passes) (hended : p.votingEndsAt ≤ now)
    (hat : p.passedAt = p.votingEndsAt) (hstatus : p.status ≠ .Rejected) : p.Sound now :=
  ⟨fun _ => ⟨hpasses, hended, hat⟩, fun hrejected => absurd hrejected hstatus⟩

theorem Proposal.SameTerms.refl (p : Proposal) : p.SameTerms p :=
  ⟨rfl, rfl, rfl, rfl, rfl, rfl, rfl⟩

theorem Proposal.SameTerms.trans {q : Proposal} (h₁ : p.SameTerms p') (h₂ : p'.SameTerms q) :
    p.SameTerms q :=
  ⟨h₂.proposer.trans h₁.proposer, h₂.createdAt.trans h₁.createdAt,
    h₂.votingEndsAt.trans h₁.votingEndsAt, h₂.executionDelay.trans h₁.executionDelay,
    h₂.snapshotSupply.trans h₁.snapshotSupply, h₂.quorumBps.trans h₁.quorumBps,
    h₂.passBps.trans h₁.passBps⟩

theorem Proposal.passes_congr (hterms : p.SameTerms p') (htally : p.SameTally p') :
    p'.Passes ↔ p.Passes := by
  unfold Proposal.Passes Proposal.quorum
  rw [hterms.snapshotSupply, hterms.quorumBps, hterms.passBps, htally.1, htally.2]

theorem Proposal.countVote_eq_ok {inFavor : Bool} {weight : ℤ}
    (hcount : p.countVote inFavor weight = .ok p') :
    p'.votesFor + p'.votesAgainst = p.votesFor + p.votesAgainst + weight ∧
      p'.status = p.status ∧ p.SameTerms p' := by
  unfold Proposal.countVote at hcount
  split_ifs at hcount
  · simp only [bind_eq_ok, okOr_eq_ok, checkedAdd_eq_some, pure_eq_ok] at hcount
    obtain ⟨_, ⟨rfl, -⟩, rfl⟩ := hcount
    exact ⟨by dsimp only; ring, rfl, rfl, rfl, rfl, rfl, rfl, rfl, rfl⟩
  · simp only [bind_eq_ok, okOr_eq_ok, checkedAdd_eq_some, pure_eq_ok] at hcount
    obtain ⟨_, ⟨rfl, -⟩, rfl⟩ := hcount
    exact ⟨by dsimp only; ring, rfl, rfl, rfl, rfl, rfl, rfl, rfl, rfl⟩

section Settles

theorem Settles.terms (hsettles : Settles s p p') : p.SameTerms p' := by
  cases hsettles <;> exact ⟨rfl, rfl, rfl, rfl, rfl, rfl, rfl⟩

theorem Settles.tally (hsettles : Settles s p p') : p.SameTally p' := by
  cases hsettles <;> exact ⟨rfl, rfl⟩

theorem Settles.of_closed (hsettles : Settles s p p') (hclosed : p.Closed) : p' = p := by
  cases hsettles with
  | same => rfl
  | rejected hactive | passed hactive | lapsed hactive | expired hactive =>
    unfold Proposal.Closed at hclosed
    simp [hactive] at hclosed

theorem Settles.sound (hsettles : Settles s p p') (hsound : p.Sound s.now) : p'.Sound s.now := by
  cases hsettles with
  | same => exact hsound
  | rejected hactive hended hnot =>
    constructor
    · intro hpassed
      simp at hpassed
    · intro _
      exact ⟨hnot, hended⟩
  | passed hactive hended hpasses =>
    exact Proposal.sound_of_passes hpasses hended rfl (by simp)
  | lapsed hactive hended hpasses =>
    exact Proposal.sound_of_passes hpasses hended rfl (by simp)
  | expired hpassed =>
    obtain ⟨hpasses, hended, hat⟩ := hsound.passed (.inl hpassed)
    exact Proposal.sound_of_passes hpasses hended hat (by simp)

end Settles

section Move

theorem Move.terms (hmove : Move h s tx id p p') : p.SameTerms p' := by
  cases hmove with
  | voted hcall hactive hopen hfresh hweight hpos hcount =>
    exact (Proposal.countVote_eq_ok hcount).2.2
  | settled hcall hsettles => exact hsettles.terms
  | executed hcall hfinal hended hdelay htimely =>
    rcases hfinal with ⟨-, -, rfl⟩ | ⟨-, rfl⟩ <;> exact ⟨rfl, rfl, rfl, rfl, rfl, rfl, rfl⟩
  | cancelled hcall hauth hsettles hcaller =>
    exact hsettles.terms.trans ⟨rfl, rfl, rfl, rfl, rfl, rfl, rfl⟩

theorem Move.tally (hmove : Move h s tx id p p') (hended : p.votingEndsAt ≤ s.now) :
    p.SameTally p' := by
  cases hmove with
  | voted hcall hactive hopen => exact absurd hopen (not_lt.2 hended)
  | settled hcall hsettles => exact hsettles.tally
  | executed hcall hfinal => rcases hfinal with ⟨-, -, rfl⟩ | ⟨-, rfl⟩ <;> exact ⟨rfl, rfl⟩
  | cancelled hcall hauth hsettles hcaller => exact hsettles.tally

theorem Move.of_closed (hmove : Move h s tx id p p') (hclosed : p.Closed) : p' = p := by
  cases hmove with
  | voted hcall hactive =>
    unfold Proposal.Closed at hclosed
    simp [hactive] at hclosed
  | settled hcall hsettles => exact hsettles.of_closed hclosed
  | executed hcall hfinal =>
    unfold Proposal.Closed at hclosed
    rcases hfinal with ⟨hstatus, -⟩ | ⟨hstatus, -⟩ <;> simp [hstatus] at hclosed
  | cancelled hcall hauth hsettles hcaller =>
    obtain rfl := hsettles.of_closed hclosed
    unfold Proposal.Closed at hclosed
    rcases hcaller with ⟨hstatus, -⟩ | ⟨hstatus, -⟩ <;> simp [hstatus] at hclosed

theorem Move.sound (hmove : Move h s tx id p p') (hsound : p.Sound s.now) : p'.Sound s.now := by
  cases hmove with
  | voted hcall hactive hopen hfresh hweight hpos hcount =>
    apply Proposal.sound_of_open
    rw [(Proposal.countVote_eq_ok hcount).2.1]
    exact .inl hactive
  | settled hcall hsettles => exact hsettles.sound hsound
  | executed hcall hfinal hended =>
    rcases hfinal with ⟨-, hpasses, rfl⟩ | ⟨hpassed, rfl⟩
    · exact Proposal.sound_of_passes hpasses hended.le rfl (by simp)
    · obtain ⟨hpasses, hle, hat⟩ := hsound.passed (.inl hpassed)
      exact Proposal.sound_of_passes hpasses hle hat (by simp)
  | cancelled hcall hauth hsettles hcaller => exact Proposal.sound_of_open (.inr rfl)

end Move

/-- The invariant: the ids go up to the count, and every status agrees with the tally. -/
structure Lively (s : State W) : Prop where
  numbered : ∀ id p, s.proposal id = some p → id ≤ s.proposalCount
  sound : ∀ id p, s.proposal id = some p → p.Sound s.now

theorem Lively.step (hs : Lively s) (hx : exec h s tx = .ok s') : Lively s' := by
  cases exec_effect hx with
  | @created q _ _ _ _ _ _ hcall hsupply hpos hnew hstate =>
    subst hstate
    constructor
    · intro id' p' hget
      by_cases hid : id' = s.proposalCount + 1
      · exact hid.le
      · have hold : s.proposal id' = some p' := by
          simpa [State.setProposal, Function.update_of_ne hid] using hget
        exact (hs.numbered id' p' hold).trans (Nat.le_succ _)
    · intro id' p' hget
      by_cases hid : id' = s.proposalCount + 1
      · have hq : q = p' := by simpa [State.setProposal, hid] using hget
        rw [← hq, hnew]
        exact Proposal.sound_of_open (.inl rfl)
      · exact hs.sound id' p' (by simpa [State.setProposal, Function.update_of_ne hid] using hget)
  | @moved i q q' hget hmove hproposal hcount hvoted hframe =>
    constructor
    · intro id' p' hget'
      rw [hcount]
      by_cases hid : id' = i
      · exact hid ▸ hs.numbered i q hget
      · rw [hproposal, Function.update_of_ne hid] at hget'
        exact hs.numbered id' p' hget'
    · intro id' p' hget'
      rw [hframe.now]
      by_cases hid : id' = i
      · rw [hproposal, hid, Function.update_self, Option.some.injEq] at hget'
        exact hget' ▸ hmove.sound (hs.sound i q hget)
      · rw [hproposal, Function.update_of_ne hid] at hget'
        exact hs.sound id' p' hget'
  | kept hquiet hproposal hcount hvoted hnow hadmin htoken =>
    constructor
    · intro id' p' hget
      rw [hproposal] at hget
      rw [hcount]
      exact hs.numbered id' p' hget
    · intro id' p' hget
      rw [hproposal] at hget
      exact (hs.sound id' p' hget).mono hnow

theorem Lively.follow (hs : Lively s) (hx : exec h s tx = .ok s') (hget : s.proposal id = some p) :
    ∃ p', s'.proposal id = some p' ∧ (p' = p ∨ Move h s tx id p p') := by
  cases exec_effect hx with
  | created hcall hsupply hpos hnew hstate =>
    have hid : id ≠ s.proposalCount + 1 := by
      have := hs.numbered id p hget
      omega
    refine ⟨p, ?_, .inl rfl⟩
    rw [hstate]
    simpa [State.setProposal, Function.update_of_ne hid] using hget
  | @moved i q q' hget' hmove hproposal hcount hvoted hframe =>
    by_cases hid : id = i
    · subst hid
      obtain rfl := Option.some.inj (hget.symm.trans hget')
      exact ⟨q', by rw [hproposal, Function.update_self], .inr hmove⟩
    · exact ⟨p, by rw [hproposal, Function.update_of_ne hid, hget], .inl rfl⟩
  | kept hquiet hproposal => exact ⟨p, by rw [hproposal, hget], .inl rfl⟩

theorem now_le_of_exec (hx : exec h s tx = .ok s') : s.now ≤ s'.now := by
  cases exec_effect hx with
  | created hcall hsupply hpos hnew hstate => exact hstate ▸ le_rfl
  | moved hget hmove hproposal hcount hvoted hframe => exact hframe.now.ge
  | kept hquiet hproposal hcount hvoted hnow => exact hnow

theorem lively_initial {now : ℕ} {world : W} {admin shareToken : Address} {votingPeriodSecs : ℕ}
    {quorumBps passBps executionDelaySecs : ℕ} {minShareBalance : ℤ}
    (hinit : initializeGovernance now world admin shareToken votingPeriodSecs quorumBps passBps
      executionDelaySecs minShareBalance = .ok s) : Lively s := by
  simp only [initializeGovernance, bind_eq_ok, exists_unit, pure_eq_ok] at hinit
  obtain ⟨-, -, -, rfl⟩ := hinit
  constructor
  · intro id p hget
    cases hget
  · intro id p hget
    cases hget

theorem Lively.run {ok : State W → Tx W → Prop} (hs : Lively s) (hrun : Reaches (exec h) ok s s') :
    Lively s' :=
  hrun.invariant hs fun _ _ _ ht _ hx => ht.step hx

end Astera.Governance
