import Astera.Indexer.PollLoop
import Mathlib.Order.Nat

/-!
# What a reorg leaves in the events table

Every stored event was read in a ledger that was read at its place since the last rollback below it,
and at a passed place the table has every event of a ledger that is the only one read there
(`Tracked`).  A ledger in the middle of a page may be replaced unnoticed.
-/

namespace Astera.Indexer

open Fallible Transition

variable {net : Network} {lookbackLedgers : ℕ}
variable {c : Cursor} {e : IndexedEvent} {r : Record} {s s' : System net} {i m size : ℕ}
  {read : ℕ → List Hash}

/-! ## Pages -/

section Pages

variable {s : System net} {size : ℕ} {last : Record}

theorem System.mem_records_of_mem_page (hr : r ∈ s.page size) :
    r ∈ s.chain.records ∧ ¬ s.loop.cursor.Passed r.ledger r.index := by
  have hafter := List.mem_of_mem_take hr
  rwa [Chain.recordsAfter, List.mem_filter, decide_eq_true_eq] at hafter

theorem System.page_before (s : System net) (size : ℕ) : (s.page size).Pairwise Record.Before :=
  (s.chain.records_before.sublist List.filter_sublist).sublist (List.take_sublist size _)

theorem System.before_last (hlast : (s.page size).getLast? = some last) (hr : r ∈ s.page size) :
    r = last ∨ r.Before last := by
  obtain ⟨page, hpage⟩ := List.getLast?_eq_some_iff.1 hlast
  have hbefore := s.page_before size
  rw [hpage] at hr hbefore
  rcases List.mem_append.1 hr with hr | hr
  · exact .inr ((List.pairwise_append.1 hbefore).2.2 r hr last (List.mem_singleton_self last))
  · exact .inl (List.mem_singleton.1 hr)

theorem System.mem_page (hlast : (s.page size).getLast? = some last) (hr : r ∈ s.chain.records)
    (hcursor : ¬ s.loop.cursor.Passed r.ledger r.index) (hafter : ¬ last.Before r) :
    r ∈ s.page size := by
  have hmem : r ∈ s.chain.recordsAfter s.loop.cursor :=
    List.mem_filter.2 ⟨hr, decide_eq_true hcursor⟩
  have hbefore := s.chain.records_before.sublist
    (List.filter_sublist (p := fun r => decide (¬ s.loop.cursor.Passed r.ledger r.index)))
  rw [← Chain.recordsAfter] at hbefore
  rw [← List.take_append_drop size (s.chain.recordsAfter s.loop.cursor)] at hmem hbefore
  refine (List.mem_append.1 hmem).resolve_right fun hdrop => hafter ?_
  exact (List.pairwise_append.1 hbefore).2.2 last (List.mem_of_getLast? hlast) r hdrop

theorem System.tipLedger_page (hlast : (s.page size).getLast? = some last) :
    tipLedger (s.page size) = last.ledger := by
  have hmax : ((s.page size).map (·.event.ledgerSequence)).max? = some last.ledger := by
    refine List.max?_eq_some_iff.2 ⟨?_, fun n hn => ?_⟩
    · have hmem := List.mem_of_getLast? hlast
      rw [← Chain.ledgerSequence_eq (System.mem_records_of_mem_page hmem).1]
      exact List.mem_map_of_mem hmem
    · obtain ⟨r, hr, rfl⟩ := List.mem_map.1 hn
      rw [Chain.ledgerSequence_eq (System.mem_records_of_mem_page hr).1]
      rcases System.before_last hlast hr with rfl | hlt | ⟨heq, -⟩
      · exact le_rfl
      · exact hlt.le
      · exact heq.le
  rw [tipLedger, hmax, Option.getD_some]

end Pages

theorem Cursor.passed_of_lt (h : m < c.resumesAt) : c.Passed m i := by
  cases c with
  | empty => exact absurd h (Nat.not_lt_zero m)
  | ledger n => exact h
  | token n j => exact .inl h

theorem Cursor.le_of_passed (h : c.Passed m i) : m ≤ c.resumesAt := by
  cases c with
  | empty => exact absurd h not_false
  | ledger n => exact h.le
  | token n j => exact h.elim le_of_lt fun h => h.1.le

theorem exec_poll {chain : Chain net} (hx : exec lookbackLedgers s (.poll size chain) = .ok s') :
    (s.page size = [] ∧ s' = ⟨chain, s.loop⟩) ∨
    ∃ last ledger, (s.page size).getLast? = some last ∧
      chain.fetchLedgerMeta (tipLedger (s.page size)) = some ledger ∧
      s.detects size chain = detectReorg s.loop.ledgerHashes ledger ∧
      s'.loop =
        if s.detects size chain then
          { (s.loop.storePage (s.page size) last).rollbackFrom (tipLedger (s.page size) - 1) with
            cursor := .ledger (tipLedger (s.page size) - 1) }
        else
          { s.loop.storePage (s.page size) last with
            ledgerHashes := recordLedgerHash s.loop.ledgerHashes ledger } := by
  unfold exec at hx
  dsimp only at hx
  split_ifs at hx with hsize hmeta
  obtain rfl := Except.ok.inj hx
  cases hlast : (s.page size).getLast? with
  | none =>
    have hempty := List.getLast?_eq_none_iff.1 hlast
    exact .inl ⟨hempty, by simp [hempty, Loop.pollOnce]⟩
  | some last =>
    have hne : s.page size ≠ [] := by
      intro hempty
      simp [hempty] at hlast
    obtain ⟨ledger, hledger⟩ : ∃ ledger,
        chain.fetchLedgerMeta (tipLedger (s.page size)) = some ledger := by
      refine Option.ne_none_iff_exists'.1 fun hnone => hmeta ⟨hne, ?_⟩
      rw [hnone]
      rfl
    have hdetects : s.detects size chain = detectReorg s.loop.ledgerHashes ledger := by
      unfold System.detects Loop.pollOnce
      simp only [hlast, hledger]
      cases hd : detectReorg (s.loop.storePage (s.page size) last).ledgerHashes ledger with
      | true => exact hd.symm
      | false => exact hd.symm
    refine .inr ⟨last, ledger, rfl, hledger, hdetects, ?_⟩
    unfold Loop.pollOnce
    rw [hdetects]
    simp only [hlast, hledger]
    change (if detectReorg s.loop.ledgerHashes ledger = true then _ else _ : Loop × Bool).1 = _
    split_ifs
    · rfl
    · rfl

/-- Every row was read, and at every place passed where one ledger was read the table has its event.
-/
structure Tracked (net : Network) (lookbackLedgers : ℕ) (l : Loop) (read : ℕ → List Hash) :
    Prop where
  numbered : ∀ m, ∀ h ∈ read m, ∀ e ∈ net.content h, e.ledgerSequence = m
  sound : ∀ e ∈ l.events, ∃ h ∈ read e.ledgerSequence, e ∈ net.content h
  passed : ∀ m i, l.cursor.Passed m i → read m ≠ []
  complete : ∀ m i h e, l.cursor.Passed m i → (net.content h)[i]? = some e →
    (∀ h' ∈ read m, h' = h) → e ∈ l.events
  /-- The lookback does not take the cursor past its place. -/
  bound : ∀ e ∈ l.events, e.ledgerSequence ≤ l.cursor.resumesAt + lookbackLedgers

section Tracked

variable {l : Loop} {read : ℕ → List Hash}

theorem Tracked.withHashes (hl : Tracked net lookbackLedgers l read)
    (ledgerHashes : ℕ → Option LedgerMeta) :
    Tracked net lookbackLedgers { l with ledgerHashes := ledgerHashes } read :=
  ⟨hl.numbered, hl.sound, hl.passed, hl.complete, hl.bound⟩

theorem Tracked.rollback {fromLedger : ℕ} (hl : Tracked net lookbackLedgers l read)
    (hfrom : fromLedger ≤ l.cursor.resumesAt) :
    Tracked net lookbackLedgers { l.rollbackFrom fromLedger with cursor := .ledger fromLedger }
      fun n => if fromLedger ≤ n then [] else read n := by
  constructor
  · intro m h hh
    split_ifs at hh
    · exact absurd hh List.not_mem_nil
    · exact hl.numbered m h hh
  · intro e he
    obtain ⟨he, hlt⟩ := mem_deleteFrom.1 he
    rw [if_neg hlt.not_ge]
    exact hl.sound e he
  · intro m i hm
    rw [if_neg (Nat.not_le_of_lt hm)]
    exact hl.passed m i (Cursor.passed_of_lt (hm.trans_le hfrom))
  · intro m i h e hm he hread
    rw [if_neg (Nat.not_le_of_lt hm)] at hread
    have hpassed := Cursor.passed_of_lt (i := i) (hm.trans_le hfrom)
    obtain ⟨h', hh'⟩ := List.exists_mem_of_ne_nil _ (hl.passed m i hpassed)
    obtain rfl := hread h' hh'
    have hnumber := hl.numbered m h' hh' e (List.mem_of_getElem? he)
    exact mem_deleteFrom.2 ⟨hl.complete m i h' e hpassed he hread, hnumber.trans_lt hm⟩
  · intro e he
    obtain ⟨-, hlt⟩ := mem_deleteFrom.1 he
    exact hlt.le.trans (Nat.le_add_right _ _)

theorem Tracked.restart (hl : Tracked net lookbackLedgers l read) :
    Tracked net lookbackLedgers (l.restart lookbackLedgers) read := by
  have hpassed : ∀ m i, (l.restart lookbackLedgers).cursor.Passed m i → l.cursor.Passed m i := by
    intro m i hm
    unfold Loop.restart at hm
    cases hlatest : getLatestLedger l.events with
    | none =>
      rw [hlatest] at hm
      exact absurd hm not_false
    | some latest =>
      rw [hlatest] at hm
      obtain ⟨⟨row, hrow, rfl⟩, -⟩ := getLatestLedger_eq_some hlatest
      have hle := hl.bound row hrow
      have hlt : m < row.ledgerSequence - lookbackLedgers := hm
      exact Cursor.passed_of_lt (by omega)
  refine ⟨hl.numbered, hl.sound, fun m i hm => hl.passed m i (hpassed m i hm),
    fun m i h e hm => hl.complete m i h e (hpassed m i hm), fun e he => ?_⟩
  unfold Loop.restart
  cases hlatest : getLatestLedger l.events with
  | none =>
    rw [getLatestLedger, List.max?_eq_none_iff, List.map_eq_nil_iff] at hlatest
    have hmem : e ∈ l.events := he
    simp [hlatest] at hmem
  | some latest =>
    have hle := (getLatestLedger_eq_some hlatest).2 e he
    show e.ledgerSequence ≤ latest - lookbackLedgers + lookbackLedgers
    omega

/-! ### A page -/

section Page

variable {s : System net} {size : ℕ} {last : Record}

theorem System.mem_readPage (hlast : (s.page size).getLast? = some last) {h : Hash} :
    h ∈ s.readPage size read m ↔ h ∈ read m ∨
      s.loop.cursor.resumesAt ≤ m ∧ m ≤ last.ledger ∧ s.chain.hashes[m]? = some h := by
  unfold System.readPage
  rw [System.tipLedger_page hlast]
  split_ifs with hm
  · simp [hm, or_comm]
  · exact ⟨.inl, fun h => h.elim id fun h => absurd ⟨h.1, h.2.1⟩ hm⟩

theorem System.hashes_of_le_last (hlast : (s.page size).getLast? = some last) (hm : m ≤ last.ledger) :
    ∃ h, s.chain.hashes[m]? = some h := by
  have hrecord := (System.mem_records_of_mem_page (List.mem_of_getLast? hlast)).1
  obtain ⟨h, hh, -⟩ := Chain.mem_records.1 hrecord
  have hlt := hm.trans_lt (List.getElem?_eq_some_iff.1 hh).1
  exact ⟨_, List.getElem?_eq_getElem hlt⟩

theorem System.resumesAt_le_last (hlast : (s.page size).getLast? = some last) :
    s.loop.cursor.resumesAt ≤ last.ledger := by
  refine Nat.le_of_not_lt fun hlt => ?_
  exact (System.mem_records_of_mem_page (List.mem_of_getLast? hlast)).2 (Cursor.passed_of_lt hlt)

theorem System.mem_page_event (hlast : (s.page size).getLast? = some last)
    (he : e ∈ (s.page size).map (·.event)) :
    ∃ h, s.loop.cursor.resumesAt ≤ e.ledgerSequence ∧ e.ledgerSequence ≤ last.ledger ∧
      s.chain.hashes[e.ledgerSequence]? = some h ∧ e ∈ net.content h := by
  obtain ⟨r, hr, rfl⟩ := List.mem_map.1 he
  obtain ⟨hrecord, hcursor⟩ := System.mem_records_of_mem_page hr
  obtain ⟨h, hh, hi⟩ := Chain.mem_records.1 hrecord
  rw [Chain.ledgerSequence_eq hrecord]
  have hfrom := Nat.le_of_not_lt fun hlt => hcursor (Cursor.passed_of_lt hlt)
  refine ⟨h, hfrom, ?_, hh, List.mem_of_getElem? hi⟩
  rcases System.before_last hlast hr with rfl | hlt | ⟨heq, -⟩
  · exact le_rfl
  · exact hlt.le
  · exact heq.le

theorem Tracked.mem_storePage (hl : Tracked net lookbackLedgers s.loop read)
    (hlast : (s.page size).getLast? = some last) :
    e ∈ (s.loop.storePage (s.page size) last).events ↔
      e ∈ s.loop.events ∨ e ∈ (s.page size).map (·.event) := by
  have hcontent : ∀ e ∈ s.loop.events ++ (s.page size).map (·.event), ∃ h, e ∈ net.content h := by
    intro e he
    rcases List.mem_append.1 he with he | he
    · obtain ⟨h, -, he⟩ := hl.sound e he
      exact ⟨h, he⟩
    · obtain ⟨h, -, -, -, he⟩ := System.mem_page_event hlast he
      exact ⟨h, he⟩
  refine mem_storeEvents fun a ha b hb hid => ?_
  obtain ⟨h, ha⟩ := hcontent a ha
  obtain ⟨h', hb⟩ := hcontent b hb
  exact (net.unique h h' a b ha hb hid).2

theorem Tracked.storePage (hl : Tracked net lookbackLedgers s.loop read)
    (hlast : (s.page size).getLast? = some last) :
    Tracked net lookbackLedgers (s.loop.storePage (s.page size) last) (s.readPage size read) := by
  constructor
  · intro m h hh
    rcases (System.mem_readPage hlast).1 hh with hh | ⟨-, -, hh⟩
    · exact hl.numbered m h hh
    · exact s.chain.numbered m h hh
  · intro e he
    rcases (hl.mem_storePage hlast).1 he with he | he
    · obtain ⟨h, hh, he⟩ := hl.sound e he
      exact ⟨h, (System.mem_readPage hlast).2 (.inl hh), he⟩
    · obtain ⟨h, hfrom, hto, hh, he⟩ := System.mem_page_event hlast he
      exact ⟨h, (System.mem_readPage hlast).2 (.inr ⟨hfrom, hto, hh⟩), he⟩
  · intro m i hm
    have hto : m ≤ last.ledger := Cursor.le_of_passed hm
    by_cases hfrom : s.loop.cursor.resumesAt ≤ m
    · obtain ⟨h, hh⟩ := System.hashes_of_le_last hlast hto
      exact List.ne_nil_of_mem ((System.mem_readPage hlast).2 (.inr ⟨hfrom, hto, hh⟩))
    · have hold := hl.passed m i (Cursor.passed_of_lt (Nat.lt_of_not_le hfrom))
      obtain ⟨h, hh⟩ := List.exists_mem_of_ne_nil _ hold
      exact List.ne_nil_of_mem ((System.mem_readPage hlast).2 (.inl hh))
  · intro m i h e hm he honly
    refine (hl.mem_storePage hlast).2 ?_
    by_cases hold : s.loop.cursor.Passed m i
    · exact .inl (hl.complete m i h e hold he fun h' hh' =>
        honly h' ((System.mem_readPage hlast).2 (.inl hh')))
    · -- the place is new, so that its ledger is the one on the chain, and the page has its event
      have hfrom : s.loop.cursor.resumesAt ≤ m :=
        Nat.le_of_not_lt fun hlt => hold (Cursor.passed_of_lt hlt)
      have hto : m ≤ last.ledger := Cursor.le_of_passed hm
      obtain ⟨h', hh'⟩ := System.hashes_of_le_last hlast hto
      obtain rfl := honly h' ((System.mem_readPage hlast).2 (.inr ⟨hfrom, hto, hh'⟩))
      have hmem : (⟨m, i, e⟩ : Record) ∈ s.page size := by
        refine System.mem_page hlast (Chain.mem_records.2 ⟨h', hh', he⟩) hold ?_
        simp only [Loop.storePage, Cursor.Passed] at hm
        simp only [Record.Before]
        omega
      exact .inr (List.mem_map.2 ⟨_, hmem, rfl⟩)
  · intro e he
    rcases (hl.mem_storePage hlast).1 he with he | he
    · exact (hl.bound e he).trans (Nat.add_le_add_right (System.resumesAt_le_last hlast) _)
    · obtain ⟨h, -, hto, -⟩ := System.mem_page_event hlast he
      exact hto.trans (Nat.le_add_right _ _)

end Page

end Tracked

theorem Tracked.exec {step : Step net} (hs : Tracked net lookbackLedgers s.loop read)
    (hx : exec lookbackLedgers s step = .ok s') :
    Tracked net lookbackLedgers s'.loop (noteRead s step s' read) := by
  cases step with
  | poll size chain =>
    unfold noteRead
    dsimp only
    rcases exec_poll hx with ⟨hempty, rfl⟩ | ⟨last, ledger, hlast, -, -, hloop⟩
    · rw [if_pos hempty]
      exact hs
    · have hne : s.page size ≠ [] := by
        intro hempty
        simp [hempty] at hlast
      have hstored := hs.storePage hlast
      rw [if_neg hne, hloop]
      split_ifs with hdetects
      · refine hstored.rollback ?_
        show _ ≤ last.ledger
        rw [System.tipLedger_page hlast]
        exact Nat.sub_le _ _
      · exact hstored.withHashes _
  | replace chain =>
    obtain rfl := Except.ok.inj hx
    exact hs
  | restart =>
    obtain rfl := Except.ok.inj hx
    exact hs.restart

theorem Fresh.poll (hfresh : Fresh s.chain read) (hquiet : s.detects size s.chain = false)
    (s' : System net) :
    Fresh s.chain (noteRead s (.poll size s.chain) s' read) := by
  unfold noteRead
  dsimp only
  split_ifs with hempty
  · exact hfresh
  · rw [hquiet] at *
    contradiction
  · intro n h hh
    unfold System.readPage at hh
    split_ifs at hh with hn
    · rcases List.mem_append.1 hh with hh | hh
      · exact Option.mem_toList.1 hh
      · exact hfresh n h hh
    · exact hfresh n h hh

end Astera.Indexer
