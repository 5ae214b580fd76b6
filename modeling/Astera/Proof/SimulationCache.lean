import Astera.CreditScore.Bookings

/-!
# The cache of the simulated scores

`simulate_score_with_attestations` answers from its cache for `SIMULATE_CACHE_TTL_SECS` seconds,
with what was computed when the entry was stored.  A dispute or a resolution changes the key of
every list, so that older entries are out of reach.
-/

namespace Astera.CreditScore

open Fallible Machine Transition

/-- The score that the signals give beside the hypothetical pairs. -/
def simulatedScore (signals hypothetical : List (ℕ × ℕ)) (score : ℕ) (scoring : ScoringConfig) :
    Res ℕ := do
  let core := scoring.core
  let external ← computeExternalComponent (signals ++ hypothetical) core.minScore core.maxScore
  blendScore score external scoring.attestation core.minScore core.maxScore

namespace State

variable (s : State) (sme : Address) (hypothetical : List (ℕ × ℕ))

def activeSignals : List (ℕ × ℕ) := (s.collectActiveAttestationSignals sme).2

/-- `simulate_score_with_attestations` without its cache. -/
def uncachedScore : Res ℕ := do
  let (s', data) ← s.getOrCreateCreditData sme
  simulatedScore (s'.activeSignals sme) hypothetical data.score s'.config.scoring

def cacheKey : ℕ := hashAttestationPairs hypothetical (s.attestationGeneration sme)

def cacheHit : Option SimulateScoreCacheEntry :=
  (s.simulateScoreCache sme (s.cacheKey sme hypothetical)).filter fun entry =>
    s.now < min (entry.cachedAt + simulateCacheTtlSecs) (2 ^ 64 - 1)

def cacheWith (key : ℕ) (entry : SimulateScoreCacheEntry) :
    Address → ℕ → Option SimulateScoreCacheEntry :=
  Function.update s.simulateScoreCache sme (Function.update (s.simulateScoreCache sme) key (some entry))

end State

/-! ## What the calls do to the cache -/

/-- The generations are `u32`. -/
def State.GenerationsFit (s : State) : Prop := ∀ sme, s.attestationGeneration sme < 2 ^ 32

structure KeepsCache (s s' : State) : Prop where
  cache : s'.simulateScoreCache = s.simulateScoreCache
  fits : s.GenerationsFit → s'.GenerationsFit
  now : s.now ≤ s'.now

structure Computes (s : State) (sme : Address) (hypothetical : List (ℕ × ℕ)) (s' : State)
    (result : ℕ) : Prop where
  miss : s.cacheHit sme hypothetical = none
  computed : s.uncachedScore sme hypothetical = .ok result
  cache : s'.simulateScoreCache = s.cacheWith sme (s.cacheKey sme hypothetical) ⟨result, s.now⟩
  generation : s'.attestationGeneration = s.attestationGeneration
  now : s'.now = s.now

section Frame

variable {signers : List Address} {s s' s₁ : State} {sme : Address} {hypothetical : List (ℕ × ℕ)}

theorem KeepsCache.refl (s : State) : KeepsCache s s := ⟨rfl, id, le_rfl⟩

theorem KeepsCache.trans (h₁ : KeepsCache s s₁) (h₂ : KeepsCache s₁ s') : KeepsCache s s' :=
  ⟨h₂.cache.trans h₁.cache, fun h => h₂.fits (h₁.fits h), h₁.now.trans h₂.now⟩

theorem Loads.keepsCache (h : Loads s s') : KeepsCache s s' := by
  obtain ⟨_, rfl⟩ := h
  exact ⟨rfl, id, le_rfl⟩

theorem keepsCache_entering (s : State) (l : List Address) : KeepsCache s (s.entering l) :=
  ⟨rfl, id, le_rfl⟩

theorem keepsCache_getOrCreateCreditData {data : CreditScoreData}
    (hget : s.getOrCreateCreditData sme = .ok (s', data)) : KeepsCache s s' := by
  rw [State.getOrCreateCreditData_state hget]
  exact keepsCache_entering _ _

theorem keepsCache_bumpAttestationGeneration (s : State) (sme : Address) :
    KeepsCache s (s.bumpAttestationGeneration sme) := by
  refine ⟨rfl, fun hfits sme' => ?_, le_rfl⟩
  show Function.update s.attestationGeneration sme _ sme' < 2 ^ 32
  rw [Function.update_apply]
  split_ifs
  · omega
  · exact hfits sme'

theorem keepsCache_commitPaymentRecord {invoiceId : ℕ} {record : PaymentRecord}
    {data : CreditScoreData} (hcommit : commitPaymentRecord s sme invoiceId record = .ok (s', data)) :
    KeepsCache s s' := by
  simp only [commitPaymentRecord, bind_eq_ok, Prod.exists, pure_eq_ok, Prod.mk.injEq] at hcommit
  obtain ⟨s₁, old, hget, _, -, _, -, rfl, -⟩ := hcommit
  have hkeeps := keepsCache_getOrCreateCreditData hget
  exact ⟨hkeeps.cache, hkeeps.fits, hkeeps.now⟩

theorem keepsCache_recordFunding {invoiceId : ℕ} {amount : ℤ}
    (hx : recordFunding signers s invoiceId sme amount = .ok s') : KeepsCache s s' := by
  simp only [recordFunding, bind_eq_ok, exists_unit] at hx
  obtain ⟨-, hx⟩ := hx
  split_ifs at hx
  · rw [← (pure_eq_ok _ _).1 hx]
    exact KeepsCache.refl s
  · simp only [bind_eq_ok, Prod.exists, pure_eq_ok] at hx
    obtain ⟨s₁, data, hget, rfl⟩ := hx
    have hkeeps := keepsCache_getOrCreateCreditData hget
    exact ⟨hkeeps.cache, hkeeps.fits, hkeeps.now⟩

theorem keepsCache_getCreditScore {response : CreditScoreResponse}
    (hget : getCreditScore s sme = .ok (s', response)) : KeepsCache s s' := by
  simp only [getCreditScore, State.computeBlendedScore, bind_eq_ok, pure_eq_ok, Prod.exists,
    Prod.mk.injEq] at hget
  obtain ⟨s₁, data, hdata, s₂, blended, ⟨_, -, _, -, rfl, rfl⟩, _, -, _, -, rfl, -⟩ := hget
  exact (keepsCache_getOrCreateCreditData hdata).trans (loads_collect s₁ sme).keepsCache

theorem keepsCache_listEntry {x x' : State × List SmeScoreEntry} {i : ℕ}
    (hx : listEntry x i = .ok x') : KeepsCache x.1 x'.1 := by
  unfold listEntry at hx
  split at hx
  · rw [← (pure_eq_ok _ _).1 hx]
    exact KeepsCache.refl _
  · simp only [bind_eq_ok, pure_eq_ok, Prod.exists] at hx
    obtain ⟨t, data, hdata, rfl⟩ := hx
    exact keepsCache_getOrCreateCreditData hdata

theorem keepsCache_listAllSmeStats {page pageSize : ℕ} {entries : List SmeScoreEntry}
    (hlist : listAllSmeStats s page pageSize = .ok (s', entries)) : KeepsCache s s' := by
  simp only [listAllSmeStats, bind_eq_ok] at hlist
  obtain ⟨start, -, hlist⟩ := hlist
  split_ifs at hlist
  · obtain ⟨rfl, -⟩ := Prod.mk.inj ((pure_eq_ok _ _).1 hlist)
    exact KeepsCache.refl s
  · simp only [bind_eq_ok] at hlist
    obtain ⟨last, -, hlist⟩ := hlist
    exact foldlM_invariant (P := fun x : State × List SmeScoreEntry => KeepsCache s x.1)
      (fun _ _ _ _ hq hx => hq.trans (keepsCache_listEntry hx)) (KeepsCache.refl s) hlist

end Frame

section Registry

variable (s : State) (l : List Address)

theorem State.loadAttestation_entering (id : ℕ) :
    (s.entering l).loadAttestation id =
      ((s.loadAttestation id).1.entering l, (s.loadAttestation id).2) := by
  have hsame : (s.entering l).attestation id = s.attestation id := rfl
  unfold State.loadAttestation State.maybeExpireAttestation
  rw [hsame]
  cases s.attestation id with
  | none => rfl
  | some a =>
    have hnow : (s.entering l).now = s.now := rfl
    dsimp only
    rw [hnow]
    split_ifs
    · rfl
    · rfl
    · rfl

theorem State.collectSignal_entering (x : State × List (ℕ × ℕ)) (id : ℕ) :
    State.collectSignal (x.1.entering l, x.2) id =
      ((State.collectSignal x id).1.entering l, (State.collectSignal x id).2) := by
  unfold State.collectSignal
  dsimp only
  rw [State.loadAttestation_entering]
  cases x.1.loadAttestation id with
  | mk t loaded =>
    cases loaded with
    | none => rfl
    | some a =>
      have hsame : (t.entering l).attestor a.attestor = t.attestor a.attestor := rfl
      dsimp only
      rw [hsame]
      split_ifs
      · cases t.attestor a.attestor with
        | none => rfl
        | some info => rfl
      · rfl

theorem State.activeSignals_entering (sme : Address) :
    (s.entering l).activeSignals sme = s.activeSignals sme := by
  have hfold : ∀ (ids : List ℕ) (x : State × List (ℕ × ℕ)),
      ids.foldl State.collectSignal (x.1.entering l, x.2) =
        ((ids.foldl State.collectSignal x).1.entering l, (ids.foldl State.collectSignal x).2) := by
    intro ids
    induction ids with
    | nil =>
      intro x
      rfl
    | cons id ids ih =>
      intro x
      rw [List.foldl_cons, List.foldl_cons, State.collectSignal_entering, ih]
  have hsignals := congrArg Prod.snd (hfold (s.smeAttestations sme) (s, []))
  exact hsignals

end Registry

section Simulate

variable {s s' : State} {sme : Address} {hypothetical : List (ℕ × ℕ)} {result : ℕ}

theorem simulate_hit {entry : SimulateScoreCacheEntry}
    (hhit : s.cacheHit sme hypothetical = some entry) :
    simulateScoreWithAttestations s sme hypothetical = .ok (s, entry.result) := by
  unfold State.cacheHit State.cacheKey at hhit
  unfold simulateScoreWithAttestations
  dsimp only
  rw [hhit]
  rfl

theorem simulate_miss (hmiss : s.cacheHit sme hypothetical = none) :
    (simulateScoreWithAttestations s sme hypothetical).map Prod.snd =
      s.uncachedScore sme hypothetical := by
  unfold State.cacheHit State.cacheKey at hmiss
  unfold simulateScoreWithAttestations State.uncachedScore simulatedScore State.activeSignals
  dsimp only
  rw [hmiss]
  cases s.getOrCreateCreditData sme with
  | error e => rfl
  | ok x =>
    show Except.map _ (computeExternalComponent _ _ _ >>= _) = (computeExternalComponent _ _ _ >>= _)
    cases computeExternalComponent ((x.1.collectActiveAttestationSignals sme).2 ++ hypothetical)
        x.1.config.scoring.core.minScore x.1.config.scoring.core.maxScore with
    | error e => rfl
    | ok external =>
      show Except.map _ (blendScore _ _ _ _ _ >>= _) = blendScore _ _ _ _ _
      cases blendScore x.2.score external x.1.config.scoring.attestation
          x.1.config.scoring.core.minScore x.1.config.scoring.core.maxScore with
      | error e => rfl
      | ok result => rfl

theorem simulate_computes (hmiss : s.cacheHit sme hypothetical = none)
    (hsim : simulateScoreWithAttestations s sme hypothetical = .ok (s', result)) :
    Computes s sme hypothetical s' result := by
  have hcomputed : s.uncachedScore sme hypothetical = .ok result := by
    rw [← simulate_miss hmiss, hsim]
    rfl
  unfold simulateScoreWithAttestations at hsim
  dsimp only at hsim
  unfold State.cacheHit State.cacheKey at hmiss
  rw [hmiss] at hsim
  simp only [bind_eq_ok, pure_eq_ok, Prod.exists, Prod.mk.injEq] at hsim
  obtain ⟨s₁, data, hdata, _, -, _, -, rfl, rfl⟩ := hsim
  obtain rfl := State.getOrCreateCreditData_state hdata
  obtain ⟨attestation, hcollect⟩ := loads_collect (s.entering (s.missing sme)) sme
  refine ⟨hmiss, hcomputed, ?_, ?_, ?_⟩
  · dsimp only
    rw [hcollect]
    rfl
  · dsimp only
    rw [hcollect]
    rfl
  · dsimp only
    rw [hcollect]
    rfl

theorem State.uncachedScore_eq_ok (h : s.uncachedScore sme hypothetical = .ok result) :
    simulatedScore (s.activeSignals sme) hypothetical (s.dataOf sme).score s.config.scoring =
      .ok result := by
  simp only [State.uncachedScore, bind_eq_ok, Prod.exists] at h
  obtain ⟨s₁, data, hget, h⟩ := h
  obtain rfl := State.getOrCreateCreditData_data hget
  obtain rfl := State.getOrCreateCreditData_state hget
  rw [State.activeSignals_entering] at h
  exact h

end Simulate

theorem exec_cache {s s' : State} {tx : Tx} (hx : exec s tx = .ok s') :
    (∃ sme hypothetical result, tx.call = .simulateScoreWithAttestations sme hypothetical ∧
      Computes s sme hypothetical s' result) ∨
    ((∀ sme hypothetical, tx.call = .simulateScoreWithAttestations sme hypothetical →
      s.cacheHit sme hypothetical ≠ none) ∧ KeepsCache s s') := by
  obtain ⟨signers, call⟩ := tx
  cases call with
  | simulateScoreWithAttestations sme hypothetical =>
    obtain ⟨⟨t, result⟩, hrun, rfl⟩ := (map_eq_ok _ _ _).1 hx
    cases hhit : s.cacheHit sme hypothetical with
    | none => exact .inl ⟨sme, hypothetical, result, rfl, simulate_computes hhit hrun⟩
    | some entry =>
      rw [simulate_hit hhit] at hrun
      obtain ⟨rfl, -⟩ := Prod.mk.inj (Except.ok.inj hrun)
      refine .inr ⟨fun sme' hypothetical' hcall => ?_, KeepsCache.refl _⟩
      obtain ⟨rfl, rfl⟩ := Call.simulateScoreWithAttestations.inj hcall
      simp [hhit]
  | recordPayment invoiceId sme amount dueDate paidAt =>
    simp only [exec, recordPayment, bind_eq_ok, exists_unit, Prod.exists, pure_eq_ok] at hx
    obtain ⟨-, -, record, -, t, data, hcommit, rfl⟩ := hx
    exact .inr ⟨by simp, keepsCache_commitPaymentRecord hcommit⟩
  | recordDefault invoiceId sme amount dueDate =>
    simp only [exec, recordDefault, bind_eq_ok, exists_unit, Prod.exists, pure_eq_ok] at hx
    obtain ⟨-, -, t, data, hcommit, rfl⟩ := hx
    exact .inr ⟨by simp, keepsCache_commitPaymentRecord hcommit⟩
  | recordFunding invoiceId sme amount => exact .inr ⟨by simp, keepsCache_recordFunding hx⟩
  | getCreditScore sme =>
    obtain ⟨⟨t, response⟩, hrun, rfl⟩ := (map_eq_ok _ _ _).1 hx
    exact .inr ⟨by simp, keepsCache_getCreditScore hrun⟩
  | listAllSmeStats page pageSize =>
    obtain ⟨⟨t, entries⟩, hrun, rfl⟩ := (map_eq_ok _ _ _).1 hx
    exact .inr ⟨by simp, keepsCache_listAllSmeStats hrun⟩
  | getAttestation id =>
    obtain rfl := Except.ok.inj hx
    exact .inr ⟨by simp, (loads_loadAttestation s id).keepsCache⟩
  | listSmeAttestations sme =>
    obtain rfl := Except.ok.inj hx
    exact .inr ⟨by simp, (loads_listSmeAttestations s sme).keepsCache⟩
  | registerAttestor admin address attestorType weightBps =>
    simp only [exec, registerAttestor, bind_eq_ok, exists_unit, pure_eq_ok] at hx
    obtain ⟨-, -, -, -, rfl⟩ := hx
    exact .inr ⟨by simp, rfl, id, le_rfl⟩
  | registerAttestorViaAc accessControl address attestorType weightBps =>
    simp only [exec, registerAttestorViaAc, bind_eq_ok, exists_unit, pure_eq_ok] at hx
    obtain ⟨-, -, -, -, _, -, rfl⟩ := hx
    exact .inr ⟨by simp, rfl, id, le_rfl⟩
  | deactivateAttestor admin address =>
    simp only [exec, deactivateAttestor, bind_eq_ok, exists_unit, pure_eq_ok] at hx
    obtain ⟨-, -, -, _, -, rfl⟩ := hx
    exact .inr ⟨by simp, rfl, id, le_rfl⟩
  | submitAttestation attestor sme attestationType scoreContribution evidenceHash expiresAt =>
    obtain ⟨⟨t, id⟩, hrun, rfl⟩ := (map_eq_ok _ _ _).1 hx
    simp only [submitAttestation, bind_eq_ok, exists_unit, pure_eq_ok, Prod.mk.injEq] at hrun
    obtain ⟨-, -, _, -, -, -, -, _, -, -, _, -, rfl, -⟩ := hrun
    exact .inr ⟨by simp, rfl, fun hfits => hfits, le_rfl⟩
  | disputeAttestation caller attestationId reasonHash =>
    simp only [exec, disputeAttestation, bind_eq_ok, exists_unit, pure_eq_ok] at hx
    obtain ⟨-, -, a, -, -, -, rfl⟩ := hx
    have hload := (loads_loadAttestation s attestationId).keepsCache
    refine .inr ⟨by simp, .trans ?_ (keepsCache_bumpAttestationGeneration _ _)⟩
    exact ⟨hload.cache, hload.fits, hload.now⟩
  | resolveAttestationDispute admin attestationId upheld =>
    simp only [exec, resolveAttestationDispute, bind_eq_ok, exists_unit, pure_eq_ok] at hx
    obtain ⟨-, -, -, a, -, -, rfl⟩ := hx
    have hload := (loads_loadAttestation s attestationId).keepsCache
    refine .inr ⟨by simp, .trans ?_ (keepsCache_bumpAttestationGeneration _ _)⟩
    exact ⟨hload.cache, hload.fits, hload.now⟩
  | submitRiskSignal admin sme debtorConcentrationBps invoiceSizeRiskBps =>
    simp only [exec, submitRiskSignal, bind_eq_ok, exists_unit, pure_eq_ok] at hx
    obtain ⟨-, -, -, -, rfl⟩ := hx
    exact .inr ⟨by simp, rfl, id, le_rfl⟩
  | set setting =>
    obtain ⟨config, -, rfl⟩ := (map_eq_ok _ _ _).1 hx
    exact .inr ⟨by simp, rfl, id, le_rfl⟩
  | advance now =>
    simp only [exec, advance, bind_eq_ok, exists_unit, require_eq_ok, pure_eq_ok] at hx
    obtain ⟨hclock, rfl⟩ := hx
    exact .inr ⟨by simp, rfl, id, hclock.1⟩

/-! ## Where an entry comes from -/

/-- The simulation that stored an entry: its pairs and the state it was called in. -/
structure Origin where
  hypothetical : List (ℕ × ℕ)
  state : State

def originsAfter (s : State) (tx : Tx) (_ : State) (origins : Address → ℕ → Option Origin) :
    Address → ℕ → Option Origin :=
  match tx.call with
  | .simulateScoreWithAttestations sme hypothetical =>
    if (s.cacheHit sme hypothetical).isSome then origins
    else Function.update origins sme
      (Function.update (origins sme) (s.cacheKey sme hypothetical) (some ⟨hypothetical, s⟩))
  | _ => origins

def simulating :
    State × (Address → ℕ → Option Origin) → Tx → Res (State × (Address → ℕ → Option Origin)) :=
  track exec originsAfter

/-- An entry under a key was computed in the state of its origin. -/
structure Origin.Explains (o : Origin) (s : State) (sme : Address) (key : ℕ)
    (entry : SimulateScoreCacheEntry) : Prop where
  computed : o.state.uncachedScore sme o.hypothetical = .ok entry.result
  key_eq : o.state.cacheKey sme o.hypothetical = key
  cachedAt : entry.cachedAt = o.state.now
  fits : o.state.GenerationsFit
  earlier : o.state.now ≤ s.now

/-- The invariant: every entry has an origin. -/
structure Explained (s : State) (origins : Address → ℕ → Option Origin) : Prop where
  fits : s.GenerationsFit
  origin : ∀ sme key entry, s.simulateScoreCache sme key = some entry →
    ∃ o, origins sme key = some o ∧ o.Explains s sme key entry

section Run

variable {s s' : State} {tx : Tx} {origins : Address → ℕ → Option Origin}

theorem Explained.kept (hs : Explained s origins) (hkeeps : KeepsCache s s') :
    Explained s' origins := by
  refine ⟨hkeeps.fits hs.fits, fun sme key entry hentry => ?_⟩
  rw [hkeeps.cache] at hentry
  obtain ⟨o, horigin, hexplains⟩ := hs.origin sme key entry hentry
  exact ⟨o, horigin, hexplains.computed, hexplains.key_eq, hexplains.cachedAt, hexplains.fits,
    hexplains.earlier.trans hkeeps.now⟩

theorem Explained.computes (hs : Explained s origins) {sme : Address}
    {hypothetical : List (ℕ × ℕ)} {result : ℕ} (hcomputes : Computes s sme hypothetical s' result) :
    Explained s' (Function.update origins sme
      (Function.update (origins sme) (s.cacheKey sme hypothetical) (some ⟨hypothetical, s⟩))) := by
  have hold : ∀ sme' key entry, s.simulateScoreCache sme' key = some entry →
      ∃ o, origins sme' key = some o ∧ o.Explains s' sme' key entry := by
    intro sme' key entry hentry
    obtain ⟨o, horigin, hexplains⟩ := hs.origin sme' key entry hentry
    exact ⟨o, horigin, hexplains.computed, hexplains.key_eq, hexplains.cachedAt, hexplains.fits,
      hcomputes.now ▸ hexplains.earlier⟩
  constructor
  · intro sme'
    rw [hcomputes.generation]
    exact hs.fits sme'
  · intro sme' key entry hentry
    rw [hcomputes.cache, State.cacheWith] at hentry
    by_cases hsme : sme' = sme
    · subst hsme
      rw [Function.update_self] at hentry ⊢
      by_cases hkey : key = s.cacheKey sme' hypothetical
      · subst hkey
        rw [Function.update_self] at hentry ⊢
        obtain rfl := Option.some.inj hentry
        exact ⟨_, rfl, hcomputes.computed, rfl, rfl, hs.fits, hcomputes.now.ge⟩
      · rw [Function.update_of_ne hkey] at hentry ⊢
        exact hold sme' key entry hentry
    · rw [Function.update_of_ne hsme] at hentry ⊢
      exact hold sme' key entry hentry

theorem Explained.step (hs : Explained s origins) (hx : exec s tx = .ok s') :
    Explained s' (originsAfter s tx s' origins) := by
  unfold originsAfter
  rcases exec_cache hx with ⟨sme, hypothetical, result, hcall, hcomputes⟩ | ⟨hhit, hkeeps⟩
  · rw [hcall]
    dsimp only
    rw [if_neg (by simp [hcomputes.miss])]
    exact hs.computes hcomputes
  · split
    · rename_i sme hypothetical hcall
      rw [if_pos (Option.isSome_iff_ne_none.2 (hhit sme hypothetical hcall))]
      exact hs.kept hkeeps
    · exact hs.kept hkeeps

end Run

theorem explained_initial (now : ℕ) (admin invoiceContract poolContract : Address) :
    Explained (initialState now admin invoiceContract poolContract) fun _ _ => none := by
  constructor
  · intro sme
    exact Nat.two_pow_pos 32
  · intro sme key entry hentry
    cases hentry

theorem hashAttestationPairs_inj {pairs : List (ℕ × ℕ)} {g g' : ℕ} (hg : g < 2 ^ 32)
    (hg' : g' < 2 ^ 32) (h : hashAttestationPairs pairs g = hashAttestationPairs pairs g') :
    g = g' := by
  unfold hashAttestationPairs at h
  dsimp only at h
  omega

/-- A simulation that finds no entry returns what it computes.  A simulation that is answered from an
entry returns what was computed less than `SIMULATE_CACHE_TTL_SECS` seconds ago; if that was for the
same pairs, no dispute of the SME was filed or resolved since, and if its active signals are still the
same, the answer is theirs with the score and the configuration of that moment. -/
theorem simulated_score_recent (now : ℕ) (admin invoiceContract poolContract : Address) {s : State}
    {origins : Address → ℕ → Option Origin}
    (hrun : Reaches simulating (fun _ _ => True)
      (initialState now admin invoiceContract poolContract, fun _ _ => none) (s, origins))
    (sme : Address) (hypothetical : List (ℕ × ℕ)) :
    (s.cacheHit sme hypothetical = none →
      (simulateScoreWithAttestations s sme hypothetical).map Prod.snd =
        s.uncachedScore sme hypothetical) ∧
    ∀ entry, s.cacheHit sme hypothetical = some entry →
      simulateScoreWithAttestations s sme hypothetical = .ok (s, entry.result) ∧
      ∃ o, origins sme (s.cacheKey sme hypothetical) = some o ∧
        o.state.now ≤ s.now ∧ s.now < o.state.now + simulateCacheTtlSecs ∧
        (o.hypothetical = hypothetical →
          o.state.attestationGeneration sme = s.attestationGeneration sme ∧
          (o.state.activeSignals sme = s.activeSignals sme →
            simulatedScore (s.activeSignals sme) hypothetical (o.state.dataOf sme).score
              o.state.config.scoring = .ok entry.result)) := by
  have hexplained : Explained s origins := by
    apply hrun.invariant (P := fun x => Explained x.1 x.2)
    · exact explained_initial now admin invoiceContract poolContract
    · intro x tx x' hx _ hstep
      obtain ⟨hexec, horigins⟩ := (track_eq_ok _ _ _ _ _).1 hstep
      rw [horigins]
      exact hx.step hexec
  refine ⟨simulate_miss, fun entry hhit => ⟨simulate_hit hhit, ?_⟩⟩
  obtain ⟨hentry, hlive⟩ := Option.filter_eq_some_iff.1 hhit
  obtain ⟨o, horigin, ho⟩ := hexplained.origin sme _ entry hentry
  rw [decide_eq_true_eq, ho.cachedAt] at hlive
  refine ⟨o, horigin, ho.earlier, by omega, fun hsame => ?_⟩
  have hkey := ho.key_eq
  have hcomputed := ho.computed
  rw [hsame] at hkey hcomputed
  refine ⟨hashAttestationPairs_inj (ho.fits sme) (hexplained.fits sme) hkey, fun hsignals => ?_⟩
  rw [← hsignals]
  exact State.uncachedScore_eq_ok hcomputed

/-- Account 3 is simulated before its first payment. -/
def simulatedFirst : List Tx := [⟨[], .simulateScoreWithAttestations 3 []⟩, payment 7]

theorem simulated_score_recent_payment :
    ∃ s origins entry o, simulatedFirst.foldlM simulating (sampleState, fun _ _ => none) =
        .ok (s, origins) ∧ s.cacheHit 3 [] = some entry ∧ entry.result = 200 ∧
      simulateScoreWithAttestations s 3 [] = .ok (s, entry.result) ∧
      origins 3 (s.cacheKey 3 []) = some o ∧
      simulatedScore (s.activeSignals 3) [] (o.state.dataOf 3).score o.state.config.scoring =
        .ok entry.result := by
  obtain ⟨⟨s, origins⟩, hs, hp⟩ := exists_of_check
    (x := simulatedFirst.foldlM simulating (sampleState, fun _ _ => none))
    (p := fun x => decide ((∃ entry ∈ x.1.cacheHit 3 [], entry.result = 200) ∧
      ∃ o ∈ x.2 3 (x.1.cacheKey 3 []), o.hypothetical = [] ∧
        o.state.activeSignals 3 = x.1.activeSignals 3)) (by decide)
  obtain ⟨⟨entry, hhit, hresult⟩, o, ho, hsame, hsignals⟩ := of_decide_eq_true hp
  have hrun : Reaches simulating (fun _ _ => True) (sampleState, fun _ _ => none) (s, origins) :=
    reaches_of_along .refl (by decide) hs
  obtain ⟨hanswer, o', ho', -, -, hrecent⟩ :=
    (simulated_score_recent 1000 1 2 9 hrun 3 []).2 entry hhit
  obtain rfl := Option.some.inj (ho.symm.trans ho')
  exact ⟨s, origins, entry, o, hs, hhit, hresult, hanswer, ho', (hrecent hsame).2 hsignals⟩

/-- At that moment the computation gives another score. -/
theorem simulation_stale_after_payment :
    ∃ s, simulatedFirst.foldlM exec sampleState = .ok s ∧
      (simulateScoreWithAttestations s 3 []).map Prod.snd = .ok 200 ∧
      s.uncachedScore 3 [] = .ok 545 := by
  obtain ⟨s, hs, hp⟩ := exists_of_check (x := simulatedFirst.foldlM exec sampleState)
    (p := fun s => decide ((simulateScoreWithAttestations s 3 []).map Prod.snd = .ok 200 ∧
      s.uncachedScore 3 [] = .ok 545)) (by decide +kernel)
  obtain ⟨hstale, hfresh⟩ := of_decide_eq_true hp
  exact ⟨s, hs, hstale, hfresh⟩

end Astera.CreditScore
