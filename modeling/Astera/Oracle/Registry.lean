import Mathlib.Algebra.Order.BigOperators.Group.Finset
import Astera.Oracle.System

/-!
# The members of the oracle registry

Only three kinds of calls write an oracle: its registration, its departure, and those that rewrite
its record; `Rewrites` says what the last kind leaves alone.
-/

namespace Astera.Oracle

open Fallible Machine Transition

variable {W : Type} {h : Host W} {s s' : State W}

/-- The settings passed their checks, stakes are not negative, an oracle is active until it asks to
leave, and the list of oracles is exact. -/
structure Sound (s : State W) : Prop where
  valid : s.settings.Valid
  stake : ∀ a info, s.oracles.get a = some info → 0 ≤ info.stakeAmount
  staying : ∀ a info, s.oracles.get a = some info →
    (info.isActive = true ↔ info.deregisterRequestedAt = none)
  nodup : s.oracleIds.Nodup
  listed : ∀ a, a ∈ s.oracleIds ↔ ∃ info, s.oracles.get a = some info

theorem sound_initial {now : ℕ} {world : W} {balances : Address → ℤ} {admin stakeToken : Address}
    {minStake : ℤ}
    (hinit : initializeRegistry now world balances admin stakeToken minStake = .ok s) : Sound s := by
  have hvalid := initializeRegistry_valid hinit
  obtain ⟨-, rfl⟩ := initializeRegistry_eq_ok.1 hinit
  refine ⟨hvalid, fun a info hget => ?_, fun a info hget => ?_, List.nodup_nil, fun a => ?_⟩
  · simp at hget
  · simp at hget
  · simp

/-- A rewritten record of an oracle: its stake did not grow, and it is still there. -/
structure Rewrites (info info' : OracleInfo) : Prop where
  nonneg : 0 ≤ info.stakeAmount → 0 ≤ info'.stakeAmount
  stake : 0 ≤ info.stakeAmount → info'.stakeAmount ≤ info.stakeAmount
  active : info'.isActive = true → info.isActive = true
  staying : (info.isActive = true ↔ info.deregisterRequestedAt = none) →
    (info'.isActive = true ↔ info'.deregisterRequestedAt = none)

theorem Sound.rewrite (hs : Sound s) {operator : Address} {info info' : OracleInfo}
    (hget : s.oracles.get operator = some info) (hrewrites : Rewrites info info')
    (hsettings : s'.settings = s.settings) (horacles : s'.oracles = s.oracles.set operator info')
    (hids : s'.oracleIds = s.oracleIds) : Sound s' := by
  refine ⟨?_, ?_, ?_, ?_, fun a => ?_⟩
  · rw [hsettings]
    exact hs.valid
  · rw [horacles]
    exact Store.forall_get_set hs.stake (hrewrites.nonneg (hs.stake operator info hget))
  · rw [horacles]
    exact Store.forall_get_set hs.staying (hrewrites.staying (hs.staying operator info hget))
  · rw [hids]
    exact hs.nodup
  · rw [hids, horacles, hs.listed a, Store.get_set]
    split_ifs with ha
    · subst ha
      simp [hget]
    · exact Iff.rfl

theorem Sound.registered (hs : Sound s) {operator : Address} {stakeAmount : ℤ}
    (hmin : s.settings.config.minStake ≤ stakeAmount) (hnew : s.oracles.get operator = none) :
    Sound (s.registered h operator stakeAmount) := by
  have hfresh : operator ∉ s.oracleIds := by
    rw [hs.listed, hnew]
    simp
  have hids : (s.registered h operator stakeAmount).oracleIds = s.oracleIds ++ [operator] :=
    if_neg hfresh
  refine ⟨hs.valid, ?_, ?_, ?_, fun a => ?_⟩
  · refine Store.forall_get_set hs.stake ?_
    have hpos := hs.valid.minStake
    show 0 ≤ stakeAmount
    omega
  · exact Store.forall_get_set hs.staying (by simp [State.newOracle])
  · rw [hids]
    exact List.nodup_append.2 ⟨hs.nodup, List.nodup_singleton _, by
      rintro a ha b hb rfl
      exact hfresh (List.mem_singleton.1 hb ▸ ha)⟩
  · rw [hids, List.mem_append, List.mem_singleton, hs.listed a]
    show _ ↔ ∃ info, (s.oracles.set operator _).get a = some info
    rw [Store.get_set]
    split_ifs with ha
    · simp [ha]
    · simp [ha]

theorem Sound.departed (hs : Sound s) {operator : Address} {stakeAmount : ℤ} :
    Sound (s.departed h operator stakeAmount) := by
  refine ⟨hs.valid, fun a info hget => ?_, fun a info hget => ?_, hs.nodup.erase _, fun a => ?_⟩
  · exact hs.stake a info (Store.get_of_get_remove hget)
  · exact hs.staying a info (Store.get_of_get_remove hget)
  · show a ∈ s.oracleIds.erase operator ↔ ∃ info, (s.oracles.remove operator).get a = some info
    rw [hs.nodup.mem_erase_iff, hs.listed a, Store.get_remove]
    split_ifs with ha
    · simp [ha]
    · simp [ha]

theorem rewrites_requested (info : OracleInfo) (now : ℕ) :
    Rewrites info { info with isActive := false, deregisterRequestedAt := some now } :=
  ⟨id, fun _ => le_rfl, fun hactive => absurd hactive (by simp), fun _ => by simp⟩

theorem rewrites_slashed (info : OracleInfo) {bps : ℕ} (hbps : bps ≤ 10000) (totalSlashes : ℕ) :
    Rewrites info { info with
      stakeAmount := info.stakeAmount - slashCut info.stakeAmount bps
      totalSlashes := totalSlashes } := by
  refine ⟨fun hnn => ?_, fun hnn => ?_, id, id⟩
  · have hcut := (slashCut_bounds hnn hbps).2
    show 0 ≤ info.stakeAmount - slashCut info.stakeAmount bps
    omega
  · have hcut := (slashCut_bounds hnn hbps).1
    show info.stakeAmount - slashCut info.stakeAmount bps ≤ info.stakeAmount
    omega

theorem rewrites_credited (info : OracleInfo) (totalVerifications : ℕ) :
    Rewrites info { info with totalVerifications := totalVerifications } :=
  ⟨id, fun _ => le_rfl, id, id⟩

theorem credited_fields (s : State W) (oracle : Address) (info : OracleInfo) (invoiceId : ℕ) :
    (s.credited oracle info invoiceId).oracles =
        s.oracles.set oracle { info with totalVerifications := info.totalVerifications + 1 } ∧
      (s.credited oracle info invoiceId).oracleIds = s.oracleIds ∧
      (s.credited oracle info invoiceId).rounds = s.rounds ∧
      (s.credited oracle info invoiceId).openRounds = s.openRounds ∧
      (s.credited oracle info invoiceId).balances = s.balances ∧
      (s.credited oracle info invoiceId).now = s.now := by
  obtain ⟨history, count, heq⟩ := credited_eq (s := s) oracle info invoiceId
  rw [heq]
  exact ⟨rfl, rfl, rfl, rfl, rfl, rfl⟩

/-! ## How the members change -/

/-- A call registers an oracle, lets one depart, rewrites one record, or leaves the oracles alone. -/
inductive Roster (h : Host W) (s s' : State W) (tx : Tx h) : Prop
  | joins {operator : Address} {stakeAmount : ℤ}
      (hcall : tx.call = .registerOracle operator stakeAmount) (hauth : operator ∈ tx.signers)
      (hmin : s.settings.config.minStake ≤ stakeAmount) (hnew : s.oracles.get operator = none)
      (hs' : s' = s.registered h operator stakeAmount)
  | leaves {operator : Address} {info : OracleInfo}
      (hcall : tx.call = .deregisterOracle operator) (hget : s.oracles.get operator = some info)
      (hs' : s' = s.departed h operator info.stakeAmount)
  | rewrites {operator : Address} {info info' : OracleInfo}
      (hget : s.oracles.get operator = some info) (hrewrites : Rewrites info info')
      (hsettings : s'.settings = s.settings) (horacles : s'.oracles = s.oracles.set operator info')
      (hids : s'.oracleIds = s.oracleIds)
  | keeps (horacles : s'.oracles = s.oracles) (hids : s'.oracleIds = s.oracleIds)
      (hsettings : s.settings.Valid → s'.settings.Valid)

theorem exec_roster {tx : Tx h} (hx : exec h s tx = .ok s') : Roster h s s' tx := by
  cases exec_effect hx with
  | registered hcall hauth hmin hnew => exact .joins hcall hauth hmin hnew rfl
  | requested hcall hget hstaying hactive hvotes =>
    exact .rewrites hget (rewrites_requested _ _) rfl rfl rfl
  | departed hcall hauth hget => exact .leaves hcall hget rfl
  | slashed hcall hget hpos hbps => exact .rewrites hget (rewrites_slashed _ hbps _) rfl rfl rfl
  | @counted oracle invoiceId _ info _ hcall hvotes hverdict =>
    obtain ⟨horacles, hids, -⟩ := credited_fields s oracle info invoiceId
    have hsettings := (credited_settings_world s oracle info invoiceId).1
    exact .rewrites hvotes.info_get (rewrites_credited _ _) hsettings horacles hids
  | @decided oracle invoiceId _ _ info _ _ hcall hvotes hverdict haccepts =>
    obtain ⟨horacles, hids, -⟩ := credited_fields s oracle info invoiceId
    have hsettings := (credited_settings_world s oracle info invoiceId).1
    exact .rewrites hvotes.info_get (rewrites_credited _ _) hsettings horacles hids
  | configured hcall hset => exact .keeps rfl rfl fun hvalid => applySetting_valid hvalid hset
  | withdrew | opened | expired | resolved | advanced | elsewhere | transferred =>
    exact .keeps rfl rfl id

theorem exec_sound {tx : Tx h} (hs : Sound s) (hx : exec h s tx = .ok s') : Sound s' := by
  cases exec_roster hx with
  | joins hcall hauth hmin hnew hs' =>
    rw [hs']
    exact hs.registered hmin hnew
  | leaves hcall hget hs' =>
    rw [hs']
    exact hs.departed
  | rewrites hget hrewrites hsettings horacles hids =>
    exact hs.rewrite hget hrewrites hsettings horacles hids
  | keeps horacles hids hsettings =>
    refine ⟨hsettings hs.valid, ?_, ?_, ?_, ?_⟩
    · rw [horacles]
      exact hs.stake
    · rw [horacles]
      exact hs.staying
    · rw [hids]
      exact hs.nodup
    · rw [hids, horacles]
      exact hs.listed

def State.stakeOf (s : State W) (a : Address) : ℤ := s.oracles.part (fun _ info => info.stakeAmount) a

theorem Sound.stakeOf_nonneg (hs : Sound s) (a : Address) : 0 ≤ s.stakeOf a := by
  unfold State.stakeOf
  cases hget : s.oracles.get a with
  | none => rw [Store.part_of_get_none hget]
  | some info =>
    rw [Store.part_of_get hget]
    exact hs.stake a info hget

def State.electorate (s : State W) : Finset Address := (s.oracleIds.filter s.active).toFinset

theorem active_of_get {a : Address} {info : OracleInfo} (hget : s.oracles.get a = some info) :
    s.active a = info.isActive := by
  unfold State.active
  rw [hget]
  rfl

theorem Sound.mem_electorate (hs : Sound s) (a : Address) :
    a ∈ s.electorate ↔ s.active a = true := by
  unfold State.electorate
  rw [List.mem_toFinset, List.mem_filter, hs.listed]
  refine ⟨fun hmem => hmem.2, fun hactive => ⟨?_, hactive⟩⟩
  unfold State.active at hactive
  cases hget : s.oracles.get a with
  | none => simp [hget] at hactive
  | some info => exact ⟨info, rfl⟩

theorem Sound.card_electorate (hs : Sound s) : s.electorate.card = s.oracleIds.countP s.active := by
  unfold State.electorate
  rw [List.toFinset_card_of_nodup (hs.nodup.filter _), List.countP_eq_length_filter]

theorem Sound.sum_electorate (hs : Sound s) :
    ∑ a ∈ s.electorate, s.stakeOf a = (s.oracleIds.map s.activeStake).sum := by
  unfold State.electorate
  rw [List.sum_toFinset _ (hs.nodup.filter _)]
  induction s.oracleIds with
  | nil => rfl
  | cons a ids ih =>
    have hstake : s.activeStake a = if s.active a then s.stakeOf a else 0 := by
      unfold State.activeStake State.active State.stakeOf Store.part
      cases s.oracles.get a with
      | none => rfl
      | some info => rfl
    rw [List.map_cons, List.sum_cons, ← ih, hstake]
    by_cases hactive : s.active a = true
    · rw [List.filter_cons_of_pos hactive, List.map_cons, List.sum_cons, if_pos hactive]
    · rw [List.filter_cons_of_neg hactive, if_neg hactive, zero_add]

def Call.joined : Call W → List Address
  | .registerOracle operator _ => [operator]
  | _ => []

theorem exec_active {tx : Tx h} (hx : exec h s tx = .ok s') {a : Address} (ha : a ∉ tx.call.joined)
    (hactive : s'.active a = true) : s.active a = true := by
  unfold State.active at hactive ⊢
  cases exec_roster hx with
  | @joins operator stakeAmount hcall hauth hmin hnew hs' =>
    have hne : a ≠ operator := by simpa [hcall, Call.joined] using ha
    have hget : s'.oracles.get a = s.oracles.get a := by
      rw [hs']
      exact Store.get_set_of_ne s.oracles _ hne
    rwa [hget] at hactive
  | @leaves operator _ hcall hget hs' =>
    have hremoved : s'.oracles.get a = if a = operator then none else s.oracles.get a := by
      rw [hs']
      exact Store.get_remove _ _ _
    rw [hremoved] at hactive
    split_ifs at hactive
    · cases hactive
    · exact hactive
  | @rewrites operator info info' hget hrewrites hsettings horacles hids =>
    rw [horacles, Store.get_set] at hactive
    split_ifs at hactive with heq
    · subst heq
      rw [hget]
      exact hrewrites.active hactive
    · exact hactive
  | keeps horacles => rwa [horacles] at hactive

theorem exec_stakeOf_le {tx : Tx h} (hs : Sound s) (hx : exec h s tx = .ok s') {a : Address}
    (ha : a ∉ tx.call.joined) : s'.stakeOf a ≤ s.stakeOf a := by
  have hnn := hs.stakeOf_nonneg a
  unfold State.stakeOf at hnn ⊢
  cases exec_roster hx with
  | @joins operator stakeAmount hcall hauth hmin hnew hs' =>
    have hne : a ≠ operator := by simpa [hcall, Call.joined] using ha
    have hget : s'.oracles.get a = s.oracles.get a := by
      rw [hs']
      exact Store.get_set_of_ne s.oracles _ hne
    rw [Store.part, Store.part, hget]
  | @leaves operator _ hcall hget hs' =>
    have hremoved : s'.oracles.get a = if a = operator then none else s.oracles.get a := by
      rw [hs']
      exact Store.get_remove _ _ _
    by_cases heq : a = operator
    · rw [if_pos heq] at hremoved
      rw [Store.part_of_get_none hremoved]
      exact hnn
    · rw [if_neg heq] at hremoved
      rw [Store.part, Store.part, hremoved]
  | @rewrites operator info info' hget hrewrites hsettings horacles hids =>
    rw [horacles]
    by_cases heq : a = operator
    · subst heq
      rw [Store.part_of_get (Store.get_set_self _ _ _), Store.part_of_get hget]
      exact hrewrites.stake (hs.stake a info hget)
    · rw [Store.part, Store.part, Store.get_set_of_ne _ _ heq]
  | keeps horacles => rw [horacles]

/-- A call opens a round, enters a vote, expires or resolves a round, or leaves the rounds alone. -/
inductive Docket (h : Host W) (s s' : State W) (tx : Tx h) : Prop
  | opens {caller : Address} {invoiceId : ℕ} {oracleHash : Invoices.Bytes} {round : VerificationRound}
      (hcall : tx.call = .openVerificationRound caller invoiceId oracleHash)
      (hopens : OpensRound h s invoiceId oracleHash round)
      (hrounds : s'.rounds = s.rounds.set invoiceId round)
      (hindex : s'.openRounds = s.openRounds ++ [invoiceId])
  | votes {oracle : Address} {invoiceId : ℕ} {approved : Bool} {info : OracleInfo}
      {round voted : VerificationRound} {status : RoundStatus}
      (hcall : tx.call = .submitVote oracle invoiceId approved)
      (hvotes : Votes s oracle invoiceId info round)
      (hvoted : voted = round.entered oracle approved info.stakeAmount)
      (hrounds : s'.rounds = s.rounds.set invoiceId { voted with status := status })
      (hstatus : (status = .Open ∧ s'.openRounds = s.openRounds) ∨
        ∃ outcome, voted.verdict voted.quorum = some outcome ∧ status = decided outcome ∧
          s'.openRounds = s.openRounds.erase invoiceId)
  | expires {invoiceId : ℕ} {round : VerificationRound} (hcall : tx.call = .expireRound invoiceId)
      (hget : s.rounds.get invoiceId = some round) (hopen : round.status = .Open)
      (hlate : round.deadline < s.now)
      (hrounds : s'.rounds = s.rounds.set invoiceId { round with status := .Expired })
      (hindex : s'.openRounds = s.openRounds.erase invoiceId)
  | resolves {invoiceId : ℕ} {approved : Bool} {round : VerificationRound}
      (hcall : ∃ caller, tx.call = .adminResolveRound caller invoiceId approved ∨
        tx.call = .adminResolveRoundViaAc caller invoiceId approved)
      (hget : s.rounds.get invoiceId = some round) (hexpired : round.status = .Expired)
      (hlate : round.deadline < s.now)
      (hrounds : s'.rounds = s.rounds.set invoiceId { round with status := decided approved })
      (hindex : s'.openRounds = s.openRounds)
  | keeps (hopen : ∀ caller invoiceId oracleHash,
        tx.call ≠ .openVerificationRound caller invoiceId oracleHash)
      (hvote : ∀ oracle invoiceId approved, tx.call ≠ .submitVote oracle invoiceId approved)
      (hrounds : s'.rounds = s.rounds) (hindex : s'.openRounds = s.openRounds)

theorem exec_docket {tx : Tx h} (hx : exec h s tx = .ok s') : Docket h s s' tx := by
  cases exec_effect hx with
  | opened hcall hopens => exact .opens hcall hopens rfl rfl
  | @counted oracle invoiceId approved info round hcall hvotes hverdict =>
    obtain ⟨-, -, hrounds, hindex, -⟩ := credited_fields s oracle info invoiceId
    have hset : (s.voted oracle info invoiceId
        (round.entered oracle approved info.stakeAmount)).rounds =
        s.rounds.set invoiceId { round.entered oracle approved info.stakeAmount with
          status := .Open } := by
      show (s.credited oracle info invoiceId).rounds.set _ _ = _
      rw [hrounds, ← hvotes.status]
      rfl
    exact .votes hcall hvotes rfl hset (.inl ⟨rfl, hindex⟩)
  | @decided oracle invoiceId approved outcome info round world hcall hvotes hverdict haccepts =>
    obtain ⟨-, -, hrounds, hindex, -⟩ := credited_fields s oracle info invoiceId
    refine .votes hcall hvotes rfl ?_ (.inr ⟨outcome, hverdict, rfl, ?_⟩)
    · show (s.credited oracle info invoiceId).rounds.set _ _ = _
      rw [hrounds]
    · show (s.credited oracle info invoiceId).openRounds.erase _ = _
      rw [hindex]
  | expired hcall hget hopen hlate => exact .expires hcall hget hopen hlate rfl rfl
  | resolved hcall hget hexpired hlate => exact .resolves hcall hget hexpired hlate rfl rfl
  | slashed hcall =>
    obtain ⟨caller, hcall | hcall⟩ := hcall <;>
      exact .keeps (by simp [hcall]) (by simp [hcall]) rfl rfl
  | registered hcall | requested hcall | departed hcall | withdrew hcall | configured hcall
  | advanced hcall | elsewhere hcall | transferred hcall =>
    exact .keeps (by simp [hcall]) (by simp [hcall]) rfl rfl

end Astera.Oracle
