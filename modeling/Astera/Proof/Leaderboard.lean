import Mathlib.Data.ENat.Lattice
import Mathlib.Data.Set.Card
import Astera.Proof.ReferralRewards

/-!
# The leaderboard

A board keeps the highest counts while single counts grow by one.  What falls off the board counts no
more than what stays, and so it stays until it grows above the last entry (`Ranks`).
-/

namespace Astera.Referral

open Fallible Machine Transition
open Pool (ActivityKind)

structure Ranks (count : Address → ℕ) (board : List LeaderboardEntry) : Prop where
  sorted : board.Pairwise fun e f => f.referralCount ≤ e.referralCount
  nodup : (board.map LeaderboardEntry.referrer).Nodup
  counts : ∀ e ∈ board, e.referralCount = count e.referrer
  positive : ∀ e ∈ board, 0 < e.referralCount
  length_le : board.length ≤ maxLeaderboardSize
  unlisted : ∀ a, 0 < count a → a ∉ board.map LeaderboardEntry.referrer →
    board.length = maxLeaderboardSize ∧ ∀ e ∈ board, count a ≤ e.referralCount

variable {board rest : List LeaderboardEntry} {entry : LeaderboardEntry} {count : Address → ℕ}
  {referrer : Address}

theorem insertEntry_perm (board : List LeaderboardEntry) (entry : LeaderboardEntry) :
    (insertEntry board entry).Perm (entry :: board) := by
  unfold insertEntry
  refine List.perm_middle.trans ?_
  rw [List.takeWhile_append_dropWhile]

theorem insertEntry_sorted
    (hsorted : board.Pairwise fun e f => f.referralCount ≤ e.referralCount) :
    (insertEntry board entry).Pairwise fun e f => f.referralCount ≤ e.referralCount := by
  induction board with
  | nil => simp [insertEntry]
  | cons e board ih =>
    obtain ⟨hhead, htail⟩ := List.pairwise_cons.1 hsorted
    by_cases hle : entry.referralCount ≤ e.referralCount
    · have hcons : insertEntry (e :: board) entry = e :: insertEntry board entry := by
        simp [insertEntry, hle]
      rw [hcons, List.pairwise_cons]
      refine ⟨fun f hf => ?_, ih htail⟩
      rcases List.mem_cons.1 ((insertEntry_perm board entry).mem_iff.1 hf) with rfl | hmem
      · exact hle
      · exact hhead f hmem
    · have hcons : insertEntry (e :: board) entry = entry :: e :: board := by
        simp [insertEntry, hle]
      rw [hcons, List.pairwise_cons]
      refine ⟨fun f hf => ?_, hsorted⟩
      rcases List.mem_cons.1 hf with rfl | hmem
      · omega
      · have := hhead f hmem
        omega

theorem Ranks.insert (hr : Ranks count board) {newCount : ℕ} (hsub : rest.Sublist board)
    (hfree : referrer ∉ rest.map LeaderboardEntry.referrer) (hpos : 0 < newCount)
    (hlength : rest.length < maxLeaderboardSize)
    (hunlisted : ∀ a, a ≠ referrer → 0 < count a → a ∉ rest.map LeaderboardEntry.referrer →
      rest.length + 1 = maxLeaderboardSize ∧ count a ≤ newCount ∧
        ∀ e ∈ rest, count a ≤ e.referralCount) :
    Ranks (Function.update count referrer newCount) (insertEntry rest ⟨referrer, newCount⟩) := by
  have hperm := insertEntry_perm rest ⟨referrer, newCount⟩
  have hmap := hperm.map LeaderboardEntry.referrer
  refine ⟨insertEntry_sorted (hr.sorted.sublist hsub), ?_, ?_, ?_, ?_, ?_⟩
  · exact hmap.nodup_iff.2 (List.nodup_cons.2 ⟨hfree, hr.nodup.sublist (hsub.map _)⟩)
  · intro e he
    rcases List.mem_cons.1 (hperm.mem_iff.1 he) with rfl | hmem
    · exact (Function.update_self referrer newCount count).symm
    · have hne : e.referrer ≠ referrer := fun heq => hfree (heq ▸ List.mem_map_of_mem hmem)
      rw [Function.update_of_ne hne]
      exact hr.counts e (hsub.subset hmem)
  · intro e he
    rcases List.mem_cons.1 (hperm.mem_iff.1 he) with rfl | hmem
    · exact hpos
    · exact hr.positive e (hsub.subset hmem)
  · exact hperm.length_eq.trans_le hlength
  · intro a hcount hnot
    rw [hmap.mem_iff, List.map_cons, List.mem_cons, not_or] at hnot
    rw [Function.update_of_ne hnot.1] at hcount ⊢
    obtain ⟨hfull, hle, hrest⟩ := hunlisted a hnot.1 hcount hnot.2
    refine ⟨hperm.length_eq.trans hfull, fun e he => ?_⟩
    rcases List.mem_cons.1 (hperm.mem_iff.1 he) with rfl | hmem
    · exact hle
    · exact hrest e hmem

section Full

variable {first : List LeaderboardEntry} {last : LeaderboardEntry} {newCount : ℕ}

theorem Ranks.last_le (hr : Ranks count (first ++ [last])) {e : LeaderboardEntry}
    (he : e ∈ first ++ [last]) : last.referralCount ≤ e.referralCount := by
  rcases List.mem_append.1 he with hmem | hmem
  · exact (List.pairwise_append.1 hr.sorted).2.2 e hmem last (List.mem_singleton_self _)
  · rw [List.mem_singleton.1 hmem]

theorem Ranks.keep (hr : Ranks count (first ++ [last]))
    (hfull : (first ++ [last]).length = maxLeaderboardSize)
    (hfree : referrer ∉ (first ++ [last]).map LeaderboardEntry.referrer)
    (hle : newCount ≤ last.referralCount) :
    Ranks (Function.update count referrer newCount) (first ++ [last]) := by
  refine ⟨hr.sorted, hr.nodup, fun e he => ?_, hr.positive, hr.length_le, fun a hcount hnot => ?_⟩
  · have hne : e.referrer ≠ referrer := fun heq => hfree (heq ▸ List.mem_map_of_mem he)
    rw [Function.update_of_ne hne]
    exact hr.counts e he
  · refine ⟨hfull, fun e he => ?_⟩
    by_cases heq : a = referrer
    · rw [heq, Function.update_self]
      exact hle.trans (hr.last_le he)
    · rw [Function.update_of_ne heq] at hcount ⊢
      exact (hr.unlisted a hcount hnot).2 e he

theorem Ranks.replace (hr : Ranks count (first ++ [last]))
    (hfull : (first ++ [last]).length = maxLeaderboardSize)
    (hfree : referrer ∉ (first ++ [last]).map LeaderboardEntry.referrer)
    (hlt : last.referralCount < newCount) :
    Ranks (Function.update count referrer newCount) (insertEntry first ⟨referrer, newCount⟩) := by
  have hlast : last ∈ first ++ [last] := List.mem_concat_self
  have hlength : first.length + 1 = maxLeaderboardSize := by
    rw [← hfull, List.length_append, List.length_singleton]
  refine hr.insert (List.sublist_append_left _ _)
    (fun hmem => hfree (List.map_append ▸ List.mem_append_left _ hmem)) (by omega) (by omega)
    fun a _ hcount hnot => ⟨hlength, ?_⟩
  by_cases heq : a = last.referrer
  · rw [heq, ← hr.counts last hlast]
    exact ⟨hlt.le, fun e he => hr.last_le (List.mem_append_left _ he)⟩
  · have hnot' : a ∉ (first ++ [last]).map LeaderboardEntry.referrer := by
      rw [List.map_append, List.mem_append, List.map_singleton, List.mem_singleton]
      exact fun hmem => hmem.elim hnot heq
    have hall := (hr.unlisted a hcount hnot').2
    exact ⟨(hall last hlast).trans hlt.le, fun e he => hall e (List.mem_append_left _ he)⟩

end Full

theorem Ranks.update (hr : Ranks count board) (referrer : Address) :
    Ranks (Function.update count referrer (count referrer + 1))
      (updateLeaderboard board referrer (count referrer + 1)) := by
  unfold updateLeaderboard
  by_cases hany : board.any (fun e => e.referrer = referrer) = true
  · rw [if_pos hany]
    obtain ⟨e, he, hreferrer⟩ := List.any_eq_true.1 hany
    obtain ⟨x, ahead, behind, hahead, hx, hboard, herase⟩ :=
      List.exists_of_eraseP (p := fun e => decide (e.referrer = referrer)) he hreferrer
    have hx' : x.referrer = referrer := of_decide_eq_true hx
    have hnodup := hr.nodup
    rw [hboard, List.map_append, List.map_cons, hx', List.nodup_middle, List.nodup_cons,
      ← List.map_append, ← herase] at hnodup
    have hlength : (board.eraseP fun e => e.referrer = referrer).length + 1 = board.length := by
      rw [herase, hboard]
      simp only [List.length_append, List.length_cons]
      omega
    have hxmem : x ∈ board := by simp [hboard]
    refine hr.insert List.eraseP_sublist hnodup.1 (Nat.succ_pos _)
      (by have := hr.length_le; omega) fun a hne hcount hnot => ?_
    have hnot' : a ∉ board.map LeaderboardEntry.referrer := by
      rw [herase] at hnot
      rw [hboard, List.map_append, List.map_cons, hx', List.mem_append, List.mem_cons]
      rw [List.map_append, List.mem_append] at hnot
      tauto
    obtain ⟨hfull, hall⟩ := hr.unlisted a hcount hnot'
    have hle := hall x hxmem
    rw [hr.counts x hxmem, hx'] at hle
    exact ⟨hlength.trans hfull, by omega, fun e he => hall e (List.eraseP_subset he)⟩
  · rw [if_neg hany]
    have hfree : referrer ∉ board.map LeaderboardEntry.referrer := by
      rintro hmem
      obtain ⟨e, he, rfl⟩ := List.mem_map.1 hmem
      exact hany (List.any_eq_true.2 ⟨e, he, decide_eq_true rfl⟩)
    split_ifs with hfull hlast
    · rcases List.eq_nil_or_concat board with rfl | ⟨first, last, rfl⟩
      · cases hfull
      · rw [List.concat_eq_append] at *
        rw [List.getLast?_concat] at hlast
        exact hr.keep hfull hfree hlast
    · rcases List.eq_nil_or_concat board with rfl | ⟨first, last, rfl⟩
      · cases hfull
      · rw [List.concat_eq_append] at *
        rw [List.getLast?_concat] at hlast
        rw [List.dropLast_concat]
        exact hr.replace hfull hfree (not_le.1 hlast)
    · refine hr.insert (List.Sublist.refl _) hfree (Nat.succ_pos _)
        (lt_of_le_of_ne hr.length_le hfull) fun a _ hcount hnot => ?_
      exact absurd (hr.unlisted a hcount hnot).1 hfull

theorem Ranks.length_eq (hr : Ranks count board) :
    (board.length : ℕ∞) = min (maxLeaderboardSize : ℕ∞) (Set.encard {a | 0 < count a}) := by
  have hsub : ((board.map LeaderboardEntry.referrer).toFinset : Set Address) ⊆ {a | 0 < count a} := by
    intro a ha
    obtain ⟨e, he, rfl⟩ := List.mem_map.1 (List.mem_toFinset.1 ha)
    show 0 < count e.referrer
    rw [← hr.counts e he]
    exact hr.positive e he
  have hcard : Set.encard ((board.map LeaderboardEntry.referrer).toFinset : Set Address) =
      board.length := by
    rw [Set.encard_coe_eq_coe_finsetCard, List.toFinset_card_of_nodup hr.nodup, List.length_map]
  by_cases hfull : board.length = maxLeaderboardSize
  · have hle := Set.encard_le_encard hsub
    rw [hcard, hfull] at hle
    rw [hfull, min_eq_left hle]
  · have heq : {a | 0 < count a} = ((board.map LeaderboardEntry.referrer).toFinset : Set Address) := by
      refine subset_antisymm (fun a ha => ?_) hsub
      by_contra hnot
      exact hfull (hr.unlisted a ha fun hmem => hnot (List.mem_toFinset.2 hmem)).1
    rw [heq, hcard, min_eq_right (by exact_mod_cast hr.length_le)]

/-- A count is the number of the activated referees of the referrer. -/
def Counts (r : Registry) : Prop :=
  ∃ referees : Finset Address, (∀ a, r.activated a = true ↔ a ∈ referees) ∧
    (∀ a ∈ referees, r.referrer a ≠ none) ∧
    ∀ a, r.referralCount a = (referees.filter fun b => r.referrer b = some a).card

/-- The board and the counts are right. -/
structure Truthful (r : Registry) : Prop where
  ranks : Ranks r.referralCount r.topReferrers
  counts : Counts r

def Registry.program (r : Registry) :
    (Address → Option Address) × (Address → Bool) × (Address → ℕ) × List LeaderboardEntry :=
  (r.referrer, r.activated, r.referralCount, r.topReferrers)

variable {r r' : Registry} {referee : Address} {signers : List Address}

theorem Truthful.of_program (hr : Truthful r) (hsame : r'.program = r.program) : Truthful r' := by
  simp only [Registry.program, Prod.mk.injEq] at hsame
  obtain ⟨hreferrer, hactivated, hcount, hboard⟩ := hsame
  refine ⟨by rw [hcount, hboard]; exact hr.ranks, ?_⟩
  unfold Counts
  rw [hreferrer, hactivated, hcount]
  exact hr.counts

theorem truthful_activate (hr : Truthful r) (hreferrer : r.referrer referee = some referrer)
    (hx : activate r referee referrer = .ok r') : Truthful r' := by
  unfold activate at hx
  split_ifs at hx with hactivated
  · exact (pure_eq_ok _ _).1 hx ▸ hr
  · simp only [bind_eq_ok, okOr_eq_ok, fitU_eq_some, pure_eq_ok] at hx
    obtain ⟨_, ⟨rfl, -⟩, rfl⟩ := hx
    obtain ⟨referees, hmem, hsome, hcount⟩ := hr.counts
    have hnew : referee ∉ referees := fun h => hactivated ((hmem referee).2 h)
    refine ⟨hr.ranks.update referrer, insert referee referees, fun a => ?_, fun a ha => ?_, fun a => ?_⟩
    · rw [Finset.mem_insert, ← hmem]
      by_cases heq : a = referee
      · simp [heq]
      · simp [heq]
    · rcases Finset.mem_insert.1 ha with rfl | ha
      · simp [hreferrer]
      · exact hsome a ha
    · rw [Finset.filter_insert]
      by_cases heq : a = referrer
      · subst heq
        rw [if_pos hreferrer, Finset.card_insert_of_notMem fun h => hnew (Finset.mem_filter.1 h).1]
        simp [hcount]
      · rw [if_neg fun h => heq (Option.some.inj (h.symm.trans hreferrer))]
        simp [heq, hcount]

theorem truthful_register (hr : Truthful r) (hx : register signers r referee referrer = .ok r') :
    Truthful r' := by
  obtain ⟨hnone, rfl⟩ := register_eq_ok hx
  obtain ⟨referees, hmem, hsome, hcount⟩ := hr.counts
  have hold : ∀ a ∈ referees, Function.update r.referrer referee (some referrer) a = r.referrer a :=
    fun a ha => Function.update_of_ne (fun heq => hsome a ha (by rw [heq, hnone])) _ _
  refine ⟨hr.ranks, referees, hmem, fun a ha => ?_, fun a => ?_⟩
  · show Function.update r.referrer referee (some referrer) a ≠ none
    rw [hold a ha]
    exact hsome a ha
  · show r.referralCount a = (referees.filter fun b =>
      Function.update r.referrer referee (some referrer) b = some a).card
    rw [hcount a]
    refine congrArg Finset.card (Finset.filter_congr fun b hb => ?_)
    rw [hold b hb]

theorem truthful_recordActivity {caller token : Address} {kind : ActivityKind} {fee reward : ℤ}
    (hr : Truthful r) (hx : recordActivity signers r caller referee kind fee token = .ok (r', reward)) :
    Truthful r' := by
  simp only [recordActivity, bind_eq_ok] at hx
  obtain ⟨-, -, -, -, -, -, hx⟩ := hx
  cases hreferrer : r.referrer referee with
  | none =>
    simp only [hreferrer, pure_eq_ok, Prod.mk.injEq] at hx
    exact hx.1 ▸ hr
  | some referrer =>
    simp only [hreferrer, bind_eq_ok] at hx
    obtain ⟨r₁, hactivate, hx⟩ := hx
    have hr₁ := truthful_activate hr hreferrer hactivate
    split_ifs at hx
    · exact (Prod.mk.inj ((pure_eq_ok _ _).1 hx)).1 ▸ hr₁
    · split at hx
      · exact (Prod.mk.inj ((pure_eq_ok _ _).1 hx)).1 ▸ hr₁
      · split_ifs at hx
        · simp only [bind_eq_ok, pure_eq_ok, Prod.mk.injEq] at hx
          obtain ⟨r₂, hcredit, rfl, -⟩ := hx
          rw [credit_eq_ok hcredit]
          exact hr₁.of_program rfl
        · exact (Prod.mk.inj ((pure_eq_ok _ _).1 hx)).1 ▸ hr₁

theorem applySetting_program {setting : Setting} (hx : applySetting signers r setting = .ok r') :
    r'.program = r.program := by
  cases setting with
  | pause | unpause | setPool | setAccessControl | setAccessControlViaAc | setPausedViaAc
  | setPoolViaAc =>
    simp only [applySetting, pause, unpause, setPool, setAccessControl, setAccessControlViaAc,
      setPausedViaAc, setPoolViaAc, bind_eq_ok, pure_eq_ok] at hx
    obtain ⟨_, -, rfl⟩ := hx
    rfl
  | setBorrowRewardBps | setDepositRewardBps | setLifetimeRewardCap | setBorrowRewardBpsViaAc
  | setDepositRewardBpsViaAc =>
    simp only [applySetting, setBorrowRewardBps, setDepositRewardBps, setLifetimeRewardCap,
      setBorrowRewardBpsViaAc, setDepositRewardBpsViaAc, bind_eq_ok, pure_eq_ok] at hx
    obtain ⟨_, -, _, -, rfl⟩ := hx
    rfl

variable {V : Type} {h : Host V} {s s' : State V}

theorem truthful_report {token : Address} {kind : ActivityKind} {fee : ℤ}
    (hs : Truthful s.world.registry)
    (hr : s.recordReferralActivity (poolHost h) referee kind fee token = .ok s') :
    Truthful s'.world.registry := by
  rcases Pool.report_cases hr with rfl | ⟨-, contract, reward, w, hact, hpaid⟩
  · exact hs
  have hw : Truthful w.registry := by
    by_cases hcontract : contract = h.self
    · simp only [poolHost, if_pos hcontract] at hact
      split at hact
      · rename_i hrecord
        obtain ⟨-, rfl⟩ := Prod.mk.inj (Option.some.inj hact)
        exact truthful_recordActivity hs hrecord
      · cases hact
    · simp only [poolHost, if_neg hcontract] at hact
      obtain ⟨x, -, hx⟩ := Option.map_eq_some_iff.1 hact
      rw [← (Prod.mk.inj hx).2]
      exact hs
  rcases hpaid with ⟨-, rfl⟩ | ⟨-, rfl⟩ <;> exact hw

theorem truthful_step {tx : Tx h} (hs : Truthful s.world.registry) (hx : exec h s tx = .ok s') :
    Truthful s'.world.registry := by
  obtain ⟨signers, hpoolNot, hnot, call⟩ := tx
  cases call with
  | pool call own =>
    refine Pool.exec_chain (P := fun s => Truthful s.world.registry) sameRegistry_refl poolHost_keeps
      ?_ ?_ ?_ ((mapError_eq_ok _ _ _).1 hx) hs
    · exact fun s s' hs _ hsame => hsame.1.symm ▸ hs
    · exact fun s s' referee kind fee token hs hr => truthful_report hs hr
    · rintro world rfl
      cases own
  | register referee referrer =>
    obtain ⟨r, hr, rfl⟩ := (map_eq_ok _ _ _).1 ((mapError_eq_ok _ _ _).1 hx)
    exact truthful_register hs hr
  | recordActivity caller referee kind feeAmount token =>
    have hrun := (mapError_eq_ok _ _ _).1 hx
    simp only [recordActivityCall, bind_eq_ok, Prod.exists, pure_eq_ok] at hrun
    obtain ⟨r, reward, hrecord, rfl⟩ := hrun
    exact truthful_recordActivity hs hrecord
  | claimRewards referrer token =>
    have hrun := (mapError_eq_ok _ _ _).1 hx
    simp only [claimRewards, bind_eq_ok, Prod.exists] at hrun
    obtain ⟨r, amount, htake, hrun⟩ := hrun
    have hr : Truthful r := by
      obtain ⟨-, ⟨rfl, -⟩ | ⟨-, -, rfl⟩⟩ := takeRewards_eq_ok htake
      · exact hs
      · exact hs.of_program rfl
    split_ifs at hrun
    · exact (pure_eq_ok _ _).1 hrun ▸ hr
    · rw [mapError_eq_ok, Pool.State.transfer_eq_ok] at hrun
      obtain ⟨-, -, rfl⟩ := hrun
      exact hr
  | set setting =>
    obtain ⟨r, hr, rfl⟩ := (map_eq_ok _ _ _).1 ((mapError_eq_ok _ _ _).1 hx)
    exact hs.of_program (applySetting_program hr)
  | others world => exact Except.ok.inj hx ▸ hs
  | advance now =>
    obtain ⟨-, rfl⟩ := Pool.advance_eq_ok ((mapError_eq_ok _ _ _).1 hx)
    exact hs

theorem truthful_initial (admin pool : Address) : Truthful (initializeReferral admin pool) where
  ranks :=
    ⟨.nil, List.nodup_nil, by simp [initializeReferral], by simp [initializeReferral], Nat.zero_le _,
      fun _ hpos => absurd hpos (lt_irrefl 0)⟩
  counts := ⟨∅, by simp [initializeReferral], by simp, fun _ => rfl⟩

/-- In every run, the board lists the highest counts in descending order, each referrer once and as
many as there are and fit; its counts are those of the store, which are the numbers of activated
referees; and nobody off the board counts more than its last entry. -/
theorem leaderboard_is_top {now : ℕ} {others : V} {cash : Address → Address → ℤ}
    {shareTokens : Address → Share.ShareToken}
    {poolAdmin token share invoiceContract admin : Address} {ok : State V → Tx h → Prop}
    (hrun : Reaches (exec h) ok
      (initialState h now others cash shareTokens poolAdmin token share invoiceContract admin) s) :
    let r := s.world.registry
    (r.topReferrers.Pairwise fun e f => f.referralCount ≤ e.referralCount) ∧
      (r.topReferrers.map LeaderboardEntry.referrer).Nodup ∧
      (r.topReferrers.length : ℕ∞) =
        min (maxLeaderboardSize : ℕ∞) (Set.encard {a | 0 < r.referralCount a}) ∧
      (∀ e ∈ r.topReferrers, e.referralCount = r.referralCount e.referrer) ∧
      (∀ a, Set.encard {b | r.activated b = true ∧ r.referrer b = some a} = r.referralCount a) ∧
      ∀ last ∈ r.topReferrers.getLast?, ∀ a, a ∉ r.topReferrers.map LeaderboardEntry.referrer →
        r.referralCount a ≤ last.referralCount := by
  have hs : Truthful s.world.registry :=
    hrun.invariant (P := fun s => Truthful s.world.registry) (truthful_initial admin h.pool.self)
      fun _ _ _ hs _ hx => truthful_step hs hx
  refine ⟨hs.ranks.sorted, hs.ranks.nodup, hs.ranks.length_eq, hs.ranks.counts, fun a => ?_, ?_⟩
  · obtain ⟨referees, hmem, -, hcount⟩ := hs.counts
    rw [hcount a, ← Set.encard_coe_eq_coe_finsetCard]
    congr 1
    ext b
    simp [hmem]
  · intro last hlast a hnot
    by_cases hpos : 0 < s.world.registry.referralCount a
    · exact (hs.ranks.unlisted a hpos hnot).2 last (List.mem_of_getLast? hlast)
    · omega

theorem leaderboard_is_top_repaid :
    ∃ s : State Unit, s.world.registry.topReferrers = [⟨5, 1⟩] ∧
      Set.encard {b | s.world.registry.activated b = true ∧
        s.world.registry.referrer b = some 5} = 1 := by
  obtain ⟨s, hx, hp⟩ := exists_of_check (x := referredLoan.foldlM (exec sampleHost) sampleStart)
    (p := fun s => decide (s.world.registry.topReferrers = [⟨5, 1⟩] ∧
      s.world.registry.referralCount 5 = 1)) (by decide)
  obtain ⟨hboard, hcount⟩ := of_decide_eq_true hp
  have hrun := reaches_of_along .refl (along_of_forall (fun _ _ => trivial) _ _) hx
  have hreferees := (leaderboard_is_top (h := sampleHost) hrun).2.2.2.2.1 5
  exact ⟨s, hboard, by rw [hreferees, hcount]; rfl⟩

end Astera.Referral
