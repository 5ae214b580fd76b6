import Astera.Lib.Js
import Astera.Lib.StableSort

/-!
# The events table

The row of an event keeps its id, the kinds of its contract and of the event, the value and the
ledger.  A query answers with the rows that match, ordered by ledger; the order within one ledger is
left to the database.
-/

namespace Astera.Indexer

open Js Paging StableSort

structure IndexedEvent where
  id : String
  contractType : String
  eventType : String
  value : Value
  ledgerSequence : ℕ

/-- `INSERT ... ON CONFLICT (id) DO NOTHING` of one row. -/
def storeEvent (table : List IndexedEvent) (e : IndexedEvent) : List IndexedEvent :=
  if table.any fun row => row.id = e.id then table else table ++ [e]

def storeEvents (table events : List IndexedEvent) : List IndexedEvent :=
  events.foldl storeEvent table

/-- `DELETE FROM events WHERE ledger_sequence >= fromLedger`. -/
def deleteFrom (table : List IndexedEvent) (fromLedger : ℕ) : List IndexedEvent :=
  table.filter fun row => row.ledgerSequence < fromLedger

def getLatestLedger (table : List IndexedEvent) : Option ℕ :=
  (table.map (·.ledgerSequence)).max?

/-- What `SELECT ... WHERE ... ORDER BY ledger_sequence ASC` may answer. -/
def AnswersAsc (table : List IndexedEvent) (p : IndexedEvent → Bool) (rows : List IndexedEvent) :
    Prop :=
  rows.Perm (table.filter p) ∧ rows.Pairwise fun e e' => e.ledgerSequence ≤ e'.ledgerSequence

/-- What `SELECT ... WHERE ... ORDER BY ledger_sequence DESC` may answer. -/
def AnswersDesc (table : List IndexedEvent) (p : IndexedEvent → Bool) (rows : List IndexedEvent) :
    Prop :=
  rows.Perm (table.filter p) ∧ rows.Pairwise fun e e' => e'.ledgerSequence ≤ e.ledgerSequence

theorem mem_storeEvent {table : List IndexedEvent} {e row : IndexedEvent}
    (hid : ∀ row ∈ table, row.id = e.id → row = e) :
    row ∈ storeEvent table e ↔ row ∈ table ∨ row = e := by
  unfold storeEvent
  split_ifs with hany
  · obtain ⟨row', hrow', heq⟩ := List.any_eq_true.1 hany
    have hthere : e ∈ table := hid row' hrow' (of_decide_eq_true heq) ▸ hrow'
    exact ⟨.inl, fun h => h.elim id fun h => h ▸ hthere⟩
  · rw [List.mem_append, List.mem_singleton]

theorem mem_storeEvents {row : IndexedEvent} : ∀ {events table : List IndexedEvent},
    (∀ e ∈ table ++ events, ∀ e' ∈ table ++ events, e.id = e'.id → e = e') →
    (row ∈ storeEvents table events ↔ row ∈ table ∨ row ∈ events) := by
  intro events
  induction events with
  | nil => simp [storeEvents]
  | cons e events ih =>
    intro table hid
    have hone (row : IndexedEvent) : row ∈ storeEvent table e ↔ row ∈ table ∨ row = e :=
      mem_storeEvent fun row hrow => hid row (List.mem_append_left _ hrow) e (by simp)
    have hsame (row : IndexedEvent) : row ∈ storeEvent table e ++ events ↔
        row ∈ table ++ e :: events := by
      simp only [List.mem_append, hone, List.mem_cons, or_assoc]
    rw [storeEvents, List.foldl_cons]
    refine (ih fun a ha b hb => hid a ((hsame a).1 ha) b ((hsame b).1 hb)).trans ?_
    rw [hone, List.mem_cons, or_assoc]

theorem of_mem_storeEvents {row : IndexedEvent} : ∀ {events table : List IndexedEvent},
    row ∈ storeEvents table events → row ∈ table ∨ row ∈ events := by
  intro events
  induction events with
  | nil =>
    intro table h
    exact .inl h
  | cons e events ih =>
    intro table h
    rcases ih h with hrow | hrow
    · unfold storeEvent at hrow
      split_ifs at hrow
      · exact .inl hrow
      · exact (List.mem_append.1 hrow).imp_right fun hrow =>
          List.mem_cons.2 (.inl (List.mem_singleton.1 hrow))
    · exact .inr (List.mem_cons_of_mem _ hrow)

theorem mem_deleteFrom {table : List IndexedEvent} {fromLedger : ℕ} {row : IndexedEvent} :
    row ∈ deleteFrom table fromLedger ↔ row ∈ table ∧ row.ledgerSequence < fromLedger := by
  simp [deleteFrom]

theorem getLatestLedger_eq_some {table : List IndexedEvent} {latest : ℕ}
    (h : getLatestLedger table = some latest) :
    (∃ row ∈ table, row.ledgerSequence = latest) ∧
      ∀ row ∈ table, row.ledgerSequence ≤ latest := by
  obtain ⟨hmem, hle⟩ := List.max?_eq_some_iff.1 h
  obtain ⟨row, hrow, heq⟩ := List.mem_map.1 hmem
  exact ⟨⟨row, hrow, heq⟩, fun row hrow => hle _ (List.mem_map_of_mem hrow)⟩

/-! ## Paging -/

/-- The rows that match a filter, above `after_ledger`. -/
def newer (p : IndexedEvent → Bool) (afterLedger : ℕ) (row : IndexedEvent) : Bool :=
  p row && afterLedger < row.ledgerSequence

/-- `GET /events` again and again, with the ledger of the last event as `after_ledger`, up to an
empty page.  `answer` has the rows in the order in which the database answers each query. -/
def readForward (answer : ℕ → List IndexedEvent) (limit : ℕ) : ℕ → ℕ → List IndexedEvent
  | 0, _ => []
  | fuel + 1, afterLedger =>
    let page := (answer afterLedger).take limit
    match page.getLast? with
    | none => []
    | some event => page ++ readForward answer limit fuel event.ledgerSequence

section Forward

variable {table page rest : List IndexedEvent} {p : IndexedEvent → Bool} {limit afterLedger : ℕ}
  {event : IndexedEvent} {answer : ℕ → List IndexedEvent}

theorem filter_newer (hrows : AnswersAsc table (newer p afterLedger) (page ++ rest))
    (hlast : page.getLast? = some event) :
    (∀ row ∈ page, row.ledgerSequence ≤ event.ledgerSequence) ∧
      (table.filter (newer p event.ledgerSequence)).Perm
        (rest.filter fun row => event.ledgerSequence < row.ledgerSequence) := by
  have hmem := List.mem_append_left rest (List.mem_of_getLast? hlast)
  have hafter : afterLedger < event.ledgerSequence :=
    of_decide_eq_true (Bool.and_eq_true_iff.1 (List.mem_filter.1 (hrows.1.mem_iff.1 hmem)).2).2
  have hle : ∀ row ∈ page, row.ledgerSequence ≤ event.ledgerSequence := by
    obtain ⟨init, rfl⟩ := List.getLast?_eq_some_iff.1 hlast
    have hsorted := (List.pairwise_append.1 hrows.2).1
    intro row hrow
    rcases List.mem_append.1 hrow with hrow | hrow
    · exact (List.pairwise_append.1 hsorted).2.2 row hrow event List.mem_cons_self
    · exact (congrArg _ (List.mem_singleton.1 hrow)).le
  have hnewer : (table.filter (newer p afterLedger)).filter
      (fun row => event.ledgerSequence < row.ledgerSequence) =
        table.filter (newer p event.ledgerSequence) := by
    rw [List.filter_filter]
    refine List.filter_congr fun row _ => ?_
    unfold newer
    by_cases hnew : event.ledgerSequence < row.ledgerSequence
    · simp [hnew, hafter.trans hnew]
    · simp [hnew]
  have hnone : page.filter (fun row => event.ledgerSequence < row.ledgerSequence) = [] :=
    List.filter_eq_nil_iff.2 fun row hrow => by simpa using hle row hrow
  refine ⟨hle, ?_⟩
  rw [← hnewer, ← List.nil_append (rest.filter _), ← hnone, ← List.filter_append]
  exact hrows.1.symm.filter _

theorem readForward_spec (hlimit : 0 < limit)
    (hanswer : ∀ a, AnswersAsc table (newer p a) (answer a)) (fuel : ℕ) :
    ∀ afterLedger, (answer afterLedger).length ≤ fuel →
      (readForward answer limit fuel afterLedger).length ≤ (answer afterLedger).length ∧
        ((readForward answer limit fuel afterLedger).Perm (answer afterLedger) ↔
          Paged limit ((answer afterLedger).map (·.ledgerSequence))) := by
  induction fuel with
  | zero =>
    intro afterLedger hfuel
    rw [List.length_eq_zero_iff.1 (Nat.le_zero.1 hfuel)]
    exact ⟨le_rfl, iff_of_true (.refl _) fun m => by simp⟩
  | succ fuel ih =>
    intro afterLedger hfuel
    have hrows := hanswer afterLedger
    have hsplit := List.take_append_drop limit (answer afterLedger)
    rw [← hsplit] at hrows
    cases hlast : ((answer afterLedger).take limit).getLast? with
    | none =>
      have hnil := (List.take_eq_nil_iff.1 (List.getLast?_eq_none_iff.1 hlast)).resolve_left
        hlimit.ne'
      simp only [readForward, hlast]
      rw [hnil]
      exact ⟨le_rfl, iff_of_true (.refl _) fun m => by simp⟩
    | some event =>
      obtain ⟨hle, hrest⟩ := filter_newer hrows hlast
      have hnext := hanswer event.ledgerSequence
      have hpos := List.length_pos_of_mem (List.mem_of_getLast? hlast)
      have hevent := List.mem_of_getLast? hlast
      simp only [readForward, hlast]
      rw [paged_iff, ← List.map_take, ← List.map_drop]
      generalize (answer afterLedger).take limit = page at *
      generalize (answer afterLedger).drop limit = rest at *
      rw [← hsplit, List.length_append] at hfuel
      have hfilter :=
        List.length_filter_le (fun row => event.ledgerSequence < row.ledgerSequence) rest
      have hlength := hnext.1.length_eq.trans hrest.length_eq
      obtain ⟨hread, hiff⟩ := ih event.ledgerSequence (by omega)
      rw [← hsplit, List.length_append, List.length_append, List.perm_append_left_iff]
      refine ⟨by omega, ?_⟩
      by_cases hclean : ∀ row ∈ rest, event.ledgerSequence < row.ledgerSequence
      · rw [List.filter_eq_self.2 fun row hrow => decide_eq_true (hclean row hrow)] at hrest
        have hsame := hnext.1.trans hrest
        have hledgers : (answer event.ledgerSequence).map (·.ledgerSequence) =
            rest.map (·.ledgerSequence) :=
          List.Perm.eq_of_pairwise (fun _ _ _ _ => le_antisymm) (List.pairwise_map.2 hnext.2)
            (List.pairwise_map.2 (List.pairwise_append.1 hrows.2).2.1) (hsame.map _)
        rw [← hledgers, ← hiff]
        refine ⟨fun h => ⟨?_, h.trans hsame.symm⟩, fun h => h.2.trans hsame⟩
        intro ledger hold hnew
        obtain ⟨row, hrow, rfl⟩ := List.mem_map.1 hold
        rw [hledgers] at hnew
        obtain ⟨row', hrow', heq⟩ := List.mem_map.1 hnew
        exact absurd (hle row hrow) (not_le.2 (heq ▸ hclean row' hrow'))
      · refine iff_of_false (fun h => hclean ?_) fun h => hclean fun row hrow => ?_
        · rw [h.length_eq, hlength] at hread
          simpa using List.length_filter_eq_length_iff.1 (le_antisymm hfilter hread)
        · refine lt_of_le_of_ne ((List.pairwise_append.1 hrows.2).2.2 event hevent row hrow) ?_
          exact fun heq => h.1 (List.mem_map_of_mem hevent) (heq ▸ List.mem_map_of_mem hrow)

/-- Paging forward gives each matching event above the cursor once. -/
def PagesForward (table : List IndexedEvent) (p : IndexedEvent → Bool) (limit afterLedger : ℕ) :
    Prop :=
  ∀ answer, (∀ a, AnswersAsc table (newer p a) (answer a)) → ∀ fuel, table.length ≤ fuel →
    (readForward answer limit fuel afterLedger).Perm (table.filter (newer p afterLedger))

theorem pagesForward_iff (hlimit : 0 < limit) :
    PagesForward table p limit afterLedger ↔ Paged limit ((ascending IndexedEvent.ledgerSequence
      (table.filter (newer p afterLedger))).map (·.ledgerSequence)) := by
  have hlength {answer : ℕ → List IndexedEvent}
      (hanswer : ∀ a, AnswersAsc table (newer p a) (answer a)) :
      (answer afterLedger).length ≤ table.length :=
    (hanswer afterLedger).1.length_eq.trans_le (List.length_filter_le _ _)
  constructor
  · intro h
    have hanswer (a : ℕ) : AnswersAsc table (newer p a)
        (ascending IndexedEvent.ledgerSequence (table.filter (newer p a))) :=
      ⟨perm_ascending _ _, pairwise_ascending _ _⟩
    rw [← (readForward_spec hlimit hanswer _ afterLedger (hlength hanswer)).2]
    exact (h _ hanswer _ le_rfl).trans (hanswer _).1.symm
  · intro hpaged answer hanswer fuel hfuel
    refine .trans ?_ (hanswer afterLedger).1
    rw [(readForward_spec hlimit hanswer _ afterLedger ((hlength hanswer).trans hfuel)).2]
    convert hpaged using 1
    exact List.Perm.eq_of_pairwise (fun _ _ _ _ => le_antisymm)
      (List.pairwise_map.2 (hanswer afterLedger).2)
      (List.pairwise_map.2 (pairwise_ascending IndexedEvent.ledgerSequence _))
      (((hanswer afterLedger).1.trans (perm_ascending _ _).symm).map _)

end Forward

def replayPageSize : ℕ := 500

/-- The loop of `getAllEvents`.  `answer` has the rows in the order in which the database answers
the query of each offset. -/
def replayLoop (answer : ℕ → List IndexedEvent) (maxReplayEvents : ℕ) (events : List IndexedEvent)
    (offset : ℕ) : Option (List IndexedEvent) :=
  let page := ((answer offset).drop offset).take replayPageSize
  if _hover : maxReplayEvents < (events ++ page).length then none
  else if _hlast : page.length < replayPageSize then some (events ++ page)
  else replayLoop answer maxReplayEvents (events ++ page) (offset + page.length)
termination_by maxReplayEvents - events.length
decreasing_by
  have hsize : replayPageSize = 500 := rfl
  simp only [List.length_append, page] at _hover _hlast ⊢
  omega

def getAllEvents (answer : ℕ → List IndexedEvent) (maxReplayEvents : ℕ) :
    Option (List IndexedEvent) :=
  replayLoop answer maxReplayEvents [] 0

section Replay

variable {table rows : List IndexedEvent} {p : IndexedEvent → Bool}
  {answer : ℕ → List IndexedEvent} {count : ℕ}

theorem replayLoop_spec (hcount : ∀ offset, (answer offset).length = count)
    (maxReplayEvents : ℕ) :
    ∀ (events : List IndexedEvent) (offset : ℕ), offset = events.length →
      replayPageSize ∣ events.length → events.length ≤ count →
      Assembled replayPageSize answer events →
      if maxReplayEvents < count then replayLoop answer maxReplayEvents events offset = none
      else ∃ got, replayLoop answer maxReplayEvents events offset = some got ∧
        got.length = count ∧ Assembled replayPageSize answer got := by
  have hlength (offset : ℕ) : (((answer offset).drop offset).take replayPageSize).length =
      min replayPageSize (count - offset) := by
    rw [List.length_take, List.length_drop, hcount]
  intro events offset
  induction events, offset using replayLoop.induct answer maxReplayEvents with
  | case1 events offset page hover =>
    rintro rfl hdvd hle hat
    have hrest : page.length ≤ count - events.length :=
      (hlength events.length).trans_le (Nat.min_le_right _ _)
    have hover' := hover
    rw [List.length_append] at hover'
    rw [if_pos (by omega), replayLoop, dif_pos hover]
  | case2 events offset page hover hlast =>
    rintro rfl hdvd hle hat
    have hrest : page.length = count - events.length :=
      (hlength events.length).trans (Nat.min_eq_right (by_contra fun hlt => hlast.ne
        ((hlength events.length).trans (Nat.min_eq_left (not_le.1 hlt).le))))
    have hall : (events ++ page).length = count := by
      rw [List.length_append]
      omega
    rw [if_neg (by rwa [← hall]), replayLoop, dif_neg hover, dif_pos hlast]
    exact ⟨_, rfl, hall, hat.page hdvd⟩
  | case3 events offset page hover hlast ih =>
    rintro rfl hdvd hle hat
    have hrest : page.length ≤ count - events.length :=
      (hlength events.length).trans_le (Nat.min_le_right _ _)
    have hfull : page.length = replayPageSize :=
      le_antisymm ((hlength events.length).trans_le (Nat.min_le_left _ _)) (not_lt.1 hlast)
    rw [replayLoop, dif_neg hover, dif_neg hlast]
    refine ih List.length_append.symm ?_ ?_ (hat.page hdvd)
    · rw [List.length_append, hfull]
      exact Nat.dvd_add hdvd (Nat.dvd_refl _)
    · rw [List.length_append]
      omega

theorem answersDesc_iff : AnswersDesc table p rows ↔ rows.Perm (table.filter p) ∧
    rows.map (·.ledgerSequence) =
      (descending IndexedEvent.ledgerSequence (table.filter p)).map (·.ledgerSequence) := by
  have hsorted : ((descending IndexedEvent.ledgerSequence (table.filter p)).map
      (·.ledgerSequence)).Pairwise fun a b => b ≤ a :=
    List.pairwise_map.2 (pairwise_descending IndexedEvent.ledgerSequence _)
  refine and_congr_right fun hperm => ⟨fun hrows => ?_, fun heq => ?_⟩
  · exact List.Perm.eq_of_pairwise (fun _ _ _ _ hle hge => le_antisymm hge hle)
      (List.pairwise_map.2 hrows) hsorted ((hperm.trans (perm_descending _ _).symm).map _)
  · rw [← heq] at hsorted
    exact List.pairwise_map.1 hsorted

/-- A replay gives each matching event once, and throws if there are more than it may read. -/
def ReplaysAll (table : List IndexedEvent) (p : IndexedEvent → Bool) (maxReplayEvents : ℕ) : Prop :=
  ∀ answer, (∀ offset, AnswersDesc table p (answer offset)) →
    if maxReplayEvents < (table.filter p).length then getAllEvents answer maxReplayEvents = none
    else ∃ events, getAllEvents answer maxReplayEvents = some events ∧
      events.Perm (table.filter p)

theorem replaysAll_iff (htable : table.Nodup) (maxReplayEvents : ℕ) :
    ReplaysAll table p maxReplayEvents ↔ ((table.filter p).length ≤ maxReplayEvents →
      Paged replayPageSize
        ((descending IndexedEvent.ledgerSequence (table.filter p)).map (·.ledgerSequence))) := by
  unfold ReplaysAll
  simp only [answersDesc_iff]
  have hspec (answer : ℕ → List IndexedEvent)
      (h : ∀ offset, (answer offset).Perm (table.filter p) ∧ (answer offset).map (·.ledgerSequence) =
        (descending IndexedEvent.ledgerSequence (table.filter p)).map (·.ledgerSequence)) :=
    replayLoop_spec (fun offset => (h offset).1.length_eq) maxReplayEvents [] 0 rfl
      (Nat.dvd_zero _) (Nat.zero_le _) fun i hi => absurd hi (Nat.not_lt_zero i)
  by_cases hmax : maxReplayEvents < (table.filter p).length
  · simp only [if_pos hmax] at hspec ⊢
    exact iff_of_true hspec fun h => absurd hmax (not_lt.2 h)
  · simp only [if_neg hmax] at hspec ⊢
    constructor
    · intro h _
      by_contra hsplit
      obtain ⟨answer, hanswer, hnever⟩ :=
        exists_repeat (htable.filter _) (perm_descending _ _) hsplit
      obtain ⟨got, hgot, hlength, hpages⟩ := hspec answer hanswer
      obtain ⟨got', hgot', hperm⟩ := h answer hanswer
      obtain rfl := Option.some.inj (hgot.symm.trans hgot')
      exact hnever got hpages hlength hperm
    · intro hpaged answer hanswer
      obtain ⟨got, hgot, hlength, hpages⟩ := hspec answer hanswer
      exact ⟨got, hgot, hpages.perm (htable.filter _) (fun b => (hanswer b).1)
        (fun b => (hanswer b).2) hlength (by decide) (hpaged (not_lt.1 hmax))⟩

end Replay

/-- For every table, filter, cursor and page size, the two ways to page give each matching event once,
in whatever order the database answers within one ledger, if and only if no page ends between two
events of one ledger. -/
theorem event_paging_complete_iff {table : List IndexedEvent} {p : IndexedEvent → Bool} {limit : ℕ}
    (hids : (table.map (·.id)).Nodup) (hlimit : 0 < limit) (afterLedger maxReplayEvents : ℕ) :
    PagesForward table p limit afterLedger ∧ ReplaysAll table p maxReplayEvents ↔
      Paged limit ((ascending IndexedEvent.ledgerSequence
        (table.filter (newer p afterLedger))).map (·.ledgerSequence)) ∧
      ((table.filter p).length ≤ maxReplayEvents → Paged replayPageSize
        ((descending IndexedEvent.ledgerSequence (table.filter p)).map (·.ledgerSequence))) := by
  exact and_congr (pagesForward_iff hlimit) (replaysAll_iff hids.of_map maxReplayEvents)

/-- One row of ledger 1 and two of ledger 2. -/
def threeRows : List IndexedEvent :=
  [⟨"a", "pool", "deposit", .null, 1⟩, ⟨"b", "pool", "deposit", .null, 2⟩,
    ⟨"c", "pool", "deposit", .null, 2⟩]

theorem event_paging_complete_iff_three :
    PagesForward threeRows (fun _ => true) 3 0 ∧ ReplaysAll threeRows (fun _ => true) 1000 :=
  (event_paging_complete_iff (by decide) (by decide) 0 1000).2
    ⟨paged_of_length_le (by decide), fun _ => paged_of_length_le (by decide)⟩

theorem split_ledger_skipped :
    ¬ (PagesForward threeRows (fun _ => true) 2 0 ∧ ReplaysAll threeRows (fun _ => true) 1000) := by
  rintro ⟨hforward, -⟩
  have hperm := hforward (fun a => threeRows.filter (newer (fun _ => true) a))
    (fun _ => ⟨.refl _, List.Pairwise.filter _ (by decide)⟩) 3 le_rfl
  exact absurd hperm.length_eq (by decide)

/-! ## Backfill -/

/-- A record of Horizon; what it lacks is empty or 0. -/
structure Effect where
  type : String
  id : String
  contract : String
  topic : List String
  value : Value
  ledgerSequence : ℕ

def parseTopic (record : Effect) : Option (String × String) :=
  match record.topic with
  | [] => none
  | [contractType] => some (contractType, "generic")
  | contractType :: eventType :: _ => some (contractType, eventType)

/-- What `parseEvents` makes of one record. -/
def parseEvent (classifyContract : String → String → String → String) (record : Effect) :
    Option IndexedEvent :=
  if record.type ≠ "contract" then none
  else (parseTopic record).map fun (contractType, eventType) =>
    { id := record.id
      contractType := classifyContract record.contract contractType eventType
      eventType := if eventType = "" then "unknown" else eventType
      value := record.value
      ledgerSequence := record.ledgerSequence }

/-- The records of the chain in the order of their ledgers, and the options of `runBackfill`. -/
structure Backfill where
  effects : List Effect
  sorted : effects.Pairwise fun r r' => r.ledgerSequence ≤ r'.ledgerSequence
  classifyContract : String → String → String → String
  contractIds : List String
  endLedger : Option ℕ

namespace Backfill

variable (b : Backfill)

def watched (record : Effect) : Option IndexedEvent :=
  if b.contractIds = [] ∨ record.contract ∈ b.contractIds then
    parseEvent b.classifyContract record
  else none

def effectsFrom (cursor : ℕ) : List Effect := b.effects.filter (cursor ≤ ·.ledgerSequence)

/-- `effects().cursor(..).order("asc").limit(100)`. -/
def page (cursor : ℕ) : List Effect := (b.effectsFrom cursor).take 100

def rest (cursor : ℕ) : List Effect := (b.effectsFrom cursor).drop 100

def events (cursor : ℕ) : List IndexedEvent := (b.page cursor).filterMap b.watched

/-- The ledger at which the events of a page leave the cursor. -/
def reached (cursor : ℕ) : ℕ :=
  ((b.events cursor).getLast?.map (·.ledgerSequence)).getD cursor

/-- One turn of the loop of `runBackfill`; without a next cursor it ends. -/
def turn (table : List IndexedEvent) (cursor : ℕ) : List IndexedEvent × Option ℕ :=
  match (b.page cursor).getLast? with
  | none => (table, none)
  | some lastRecord =>
    let table := storeEvents table (b.events cursor)
    let currentLedger := b.reached cursor
    if b.endLedger.any fun last => last ≤ currentLedger then (table, none)
    else
      let nextLedger :=
        if lastRecord.ledgerSequence = 0 then currentLedger + 1 else lastRecord.ledgerSequence
      (table, some (if nextLedger = currentLedger then currentLedger + 1 else nextLedger))

def runBackfill : ℕ → List IndexedEvent → ℕ → Option (List IndexedEvent)
  | 0, _, _ => none
  | fuel + 1, table, cursor =>
    match b.turn table cursor with
    | (table, none) => some table
    | (table, some next) => runBackfill fuel table next

/-- The table has every watched event from a ledger to the end. -/
def Covers (startLedger : ℕ) (table : List IndexedEvent) : Prop :=
  ∀ r ∈ b.effects, ∀ e ∈ b.watched r, startLedger ≤ r.ledgerSequence →
    (∀ last ∈ b.endLedger, r.ledgerSequence ≤ last) → e ∈ table

/-- After the page there is a watched event, not stored yet, of a ledger that the cursor passes. -/
def LeavesBehind (table : List IndexedEvent) (cursor : ℕ) : Prop :=
  ∃ r ∈ b.rest cursor, ∃ e ∈ b.watched r, (∀ last ∈ b.endLedger, r.ledgerSequence ≤ last) ∧
    r.ledgerSequence ≤ b.reached cursor ∧ e ∉ table ∧ e ∉ b.events cursor

/-- No turn leaves an event behind. -/
def LeavesNothing : ℕ → List IndexedEvent → ℕ → Prop
  | 0, _, _ => True
  | fuel + 1, table, cursor => ¬ b.LeavesBehind table cursor ∧
    match b.turn table cursor with
    | (_, none) => True
    | (table, some next) => LeavesNothing fuel table next

variable {b} {table : List IndexedEvent} {cursor : ℕ} {r lastRecord : Effect} {e : IndexedEvent}

theorem ledger_of_watched (he : e ∈ b.watched r) : e.ledgerSequence = r.ledgerSequence := by
  unfold watched parseEvent at he
  split_ifs at he
  · cases he
  · obtain ⟨topic, -, rfl⟩ := Option.map_eq_some_iff.1 he
    rfl
  · cases he

theorem mem_effectsFrom :
    r ∈ b.page cursor ∨ r ∈ b.rest cursor ↔ r ∈ b.effects ∧ cursor ≤ r.ledgerSequence := by
  unfold page rest
  rw [← List.mem_append, List.take_append_drop]
  simp [effectsFrom]

theorem mem_events : e ∈ b.events cursor ↔ ∃ r ∈ b.page cursor, e ∈ b.watched r := by
  simp [events]

theorem le_of_mem_events (he : e ∈ b.events cursor) : cursor ≤ e.ledgerSequence := by
  obtain ⟨r, hr, he⟩ := mem_events.1 he
  exact (mem_effectsFrom.1 (.inl hr)).2.trans_eq (ledger_of_watched he).symm

theorem page_sorted (hlast : (b.page cursor).getLast? = some lastRecord) :
    (∀ r ∈ b.page cursor, r.ledgerSequence ≤ lastRecord.ledgerSequence) ∧
      ∀ r ∈ b.rest cursor, lastRecord.ledgerSequence ≤ r.ledgerSequence := by
  have hsplit : (b.page cursor ++ b.rest cursor).Pairwise
      fun r r' => r.ledgerSequence ≤ r'.ledgerSequence := by
    rw [page, rest, List.take_append_drop]
    exact b.sorted.filter _
  rw [List.pairwise_append] at hsplit
  refine ⟨fun r hr => ?_, hsplit.2.2 lastRecord (List.mem_of_getLast? hlast)⟩
  obtain ⟨init, hinit⟩ := List.getLast?_eq_some_iff.1 hlast
  rw [hinit, List.pairwise_append] at hsplit
  rcases List.mem_append.1 (hinit ▸ hr) with hr | hr
  · exact hsplit.1.2.2 r hr lastRecord List.mem_cons_self
  · exact (congrArg _ (List.mem_singleton.1 hr)).le

theorem reached_bounds (hlast : (b.page cursor).getLast? = some lastRecord) :
    cursor ≤ b.reached cursor ∧ b.reached cursor ≤ lastRecord.ledgerSequence := by
  unfold reached
  cases he : (b.events cursor).getLast? with
  | none => exact ⟨le_rfl, (mem_effectsFrom.1 (.inl (List.mem_of_getLast? hlast))).2⟩
  | some e =>
    have hmem := List.mem_of_getLast? he
    obtain ⟨r, hr, he⟩ := mem_events.1 hmem
    exact ⟨le_of_mem_events hmem, (ledger_of_watched he).trans_le ((page_sorted hlast).1 r hr)⟩

/-- What a turn does: it stores the watched events of the page, and ends only past the end ledger or
without records; the records that its next cursor passes are of the ledger that it has reached. -/
theorem turn_spec :
    (b.turn table cursor).1 = storeEvents table (b.events cursor) ∧
      match (b.turn table cursor).2 with
      | none => ∀ r ∈ b.rest cursor, (∀ last ∈ b.endLedger, r.ledgerSequence ≤ last) →
          r.ledgerSequence ≤ b.reached cursor
      | some next => cursor ≤ b.reached cursor ∧ b.reached cursor < next ∧
          (∃ r ∈ b.effects, cursor ≤ r.ledgerSequence) ∧ ∀ r ∈ b.rest cursor,
            b.reached cursor < r.ledgerSequence → next ≤ r.ledgerSequence := by
  unfold turn
  cases hlast : (b.page cursor).getLast? with
  | none =>
    have hnil : b.effectsFrom cursor = [] := by simpa [page] using hlast
    simp [events, page, rest, hnil, storeEvents]
  | some lastRecord =>
    obtain ⟨hlow, hhigh⟩ := reached_bounds hlast
    have hmem := mem_effectsFrom.1 (.inl (List.mem_of_getLast? hlast))
    dsimp only
    split_ifs with hend hzero hsame hsame
    · refine ⟨rfl, fun r _ hr => ?_⟩
      obtain ⟨l, hl, hle⟩ := (Option.any_eq_true _ _).1 hend
      exact (hr l hl).trans (of_decide_eq_true hle)
    all_goals
      refine ⟨rfl, hlow, by omega, ⟨lastRecord, hmem⟩, fun r hr hpast => ?_⟩
      have hrest := (page_sorted hlast).2 r hr
      omega

/-- A backfill ends above the highest ledger, and covers what is left exactly if no turn leaves an
event behind. -/
theorem runBackfill_spec {top : ℕ} (htop : ∀ r ∈ b.effects, r.ledgerSequence < top)
    {known : Set IndexedEvent} (hids : known.InjOn (·.id))
    (hknown : ∀ r ∈ b.effects, ∀ e ∈ b.watched r, e ∈ known) (fuel : ℕ) :
    ∀ table cursor, top - cursor < fuel → (∀ e ∈ table, e ∈ known) →
      ∃ final, b.runBackfill fuel table cursor = some final ∧
        (∀ e ∈ table, e ∈ final) ∧ (∀ e ∈ final, e ∈ table ∨ cursor ≤ e.ledgerSequence) ∧
        (b.Covers cursor final ↔ b.LeavesNothing fuel table cursor) := by
  induction fuel with
  | zero => exact fun _ _ h => absurd h (Nat.not_lt_zero _)
  | succ fuel ih =>
    intro table cursor hfuel htable
    obtain ⟨hstore, hturn⟩ := (turn_spec : (b.turn table cursor).1 = _ ∧ _)
    have hall : ∀ e ∈ table ++ b.events cursor, e ∈ known := by
      intro e he
      rcases List.mem_append.1 he with he | he
      · exact htable e he
      · obtain ⟨r, hr, he⟩ := mem_events.1 he
        exact hknown r (mem_effectsFrom.1 (.inl hr)).1 e he
    have hmem (e : IndexedEvent) :
        e ∈ storeEvents table (b.events cursor) ↔ e ∈ table ∨ e ∈ b.events cursor :=
      mem_storeEvents fun a ha b hb => hids (hall a ha) (hall b hb)
    unfold runBackfill LeavesNothing
    generalize b.turn table cursor = turn at *
    obtain ⟨table', next⟩ := turn
    dsimp only at hstore
    rw [← hstore] at hmem
    have hbehind (h : b.LeavesBehind table cursor) :
        ∃ r ∈ b.effects, ∃ e ∈ b.watched r, cursor ≤ r.ledgerSequence ∧
          (∀ last ∈ b.endLedger, r.ledgerSequence ≤ last) ∧
          r.ledgerSequence ≤ b.reached cursor ∧ e ∉ table' := by
      obtain ⟨r, hr, e, he, hend, hpassed, hold, hnew⟩ := h
      obtain ⟨hr, hle⟩ := mem_effectsFrom.1 (.inr hr)
      exact ⟨r, hr, e, he, hle, hend, hpassed, fun h => ((hmem e).1 h).elim hold hnew⟩
    have hkept (hnone : ¬ b.LeavesBehind table cursor) {r : Effect} (hr : r ∈ b.effects)
        {e : IndexedEvent} (he : e ∈ b.watched r) (hle : cursor ≤ r.ledgerSequence)
        (hend : ∀ last ∈ b.endLedger, r.ledgerSequence ≤ last)
        (hpassed : r ∈ b.rest cursor → r.ledgerSequence ≤ b.reached cursor) : e ∈ table' := by
      rw [hmem]
      rcases mem_effectsFrom.2 ⟨hr, hle⟩ with hr | hr
      · exact .inr (mem_events.2 ⟨r, hr, he⟩)
      · by_contra hnot
        rw [not_or] at hnot
        exact hnone ⟨r, hr, e, he, hend, hpassed hr, hnot.1, hnot.2⟩
    have hnew : ∀ e ∈ table', e ∈ table ∨ cursor ≤ e.ledgerSequence := fun e he =>
      ((hmem e).1 he).imp_right le_of_mem_events
    cases next with
    | none =>
      refine ⟨table', rfl, fun e he => (hmem e).2 (.inl he), hnew, ?_⟩
      rw [and_true]
      constructor
      · intro hcovers h
        obtain ⟨r, hr, e, he, hle, hend, -, hnot⟩ := hbehind h
        exact hnot (hcovers r hr e he hle hend)
      · intro hnone r hr e he hle hend
        exact hkept hnone hr he hle hend fun hrest => hturn r hrest hend
    | some next =>
      obtain ⟨hlow, hlt, ⟨r, hr, habove⟩, hrest⟩ := hturn
      have hbelow := htop r hr
      obtain ⟨final, hrun, hsub, hfinal, hiff⟩ := ih table' next (by omega) fun e he =>
        hall e (List.mem_append.2 ((hmem e).1 he))
      refine ⟨final, hrun, fun e he => hsub e ((hmem e).2 (.inl he)),
        fun e he => (hfinal e he).elim (hnew e) fun h => .inr (by omega), ?_⟩
      dsimp only
      rw [← hiff]
      constructor
      · intro hcovers
        refine ⟨fun h => ?_, fun r hr e he hle => hcovers r hr e he (by omega)⟩
        obtain ⟨r, hr, e, he, hle, hend, hpassed, hnot⟩ := hbehind h
        have hlater := (hfinal e (hcovers r hr e he hle hend)).resolve_left hnot
        rw [ledger_of_watched he] at hlater
        omega
      · rintro ⟨hnone, hcovers⟩ r hr e he hle hend
        by_cases hlater : next ≤ r.ledgerSequence
        · exact hcovers r hr e he hlater hend
        · refine hsub e (hkept hnone hr he hle hend fun hdrop => ?_)
          by_contra hpast
          exact hlater (hrest r hdrop (not_le.1 hpast))

/-- Records that fit one page are all stored. -/
theorem leavesNothing_of_length_le (hone : b.effects.length ≤ 100) :
    ∀ fuel table cursor, b.LeavesNothing fuel table cursor := by
  intro fuel
  induction fuel with
  | zero => exact fun _ _ => trivial
  | succ fuel ih =>
    intro table cursor
    constructor
    · rintro ⟨r, hr, -⟩
      have hfits : (b.effectsFrom cursor).length ≤ 100 := (List.length_filter_le _ _).trans hone
      rw [rest, List.drop_eq_nil_of_le hfits] at hr
      cases hr
    · split
      · trivial
      · exact ih _ _

end Backfill

/-- For all records in the order of their ledgers, all watched contracts and every range, a backfill
ends; it has stored every watched event of the range if and only if no turn leaves one behind. -/
theorem backfill_complete_iff {b : Backfill} {table : List IndexedEvent} {startLedger top fuel : ℕ}
    (hids : {e | e ∈ table ∨ ∃ r ∈ b.effects, e ∈ b.watched r}.InjOn (·.id))
    (htop : ∀ r ∈ b.effects, r.ledgerSequence < top) (hfuel : top < fuel) :
    ∃ final, b.runBackfill fuel table startLedger = some final ∧
      (b.Covers startLedger final ↔ b.LeavesNothing fuel table startLedger) := by
  obtain ⟨final, hrun, -, -, hiff⟩ := Backfill.runBackfill_spec htop hids
    (fun r hr e he => .inr ⟨r, hr, he⟩) fuel table startLedger (by omega) fun _ => .inl
  exact ⟨final, hrun, hiff⟩

/-- A record of ledger 5: of another kind, or a deposit. -/
def ledgerFive (type : String) : Effect := ⟨type, "a", "pool", ["pool", "deposit"], .null, 5⟩

/-- Records of ledger 5 without events, and then a deposit of the same ledger. -/
def crowded (n : ℕ) : Backfill where
  effects := List.replicate n (ledgerFive "account_credited") ++ [ledgerFive "contract"]
  sorted := List.pairwise_of_forall_mem_list fun r hr r' hr' => by
    have hfive {r : Effect} (h : r ∈ List.replicate n (ledgerFive "account_credited") ++
        [ledgerFive "contract"]) : r.ledgerSequence = 5 := by
      rcases List.mem_append.1 h with h | h
      · rw [List.eq_of_mem_replicate h]; rfl
      · rw [List.mem_singleton.1 h]; rfl
    rw [hfive hr, hfive hr']
  classifyContract _ topic _ := topic
  contractIds := []
  endLedger := none

theorem backfill_complete_iff_one :
    ∃ final, (crowded 0).runBackfill 7 [] 5 = some final ∧ (crowded 0).Covers 5 final := by
  have hone {r : Effect} (hr : r ∈ (crowded 0).effects) : r = ledgerFive "contract" :=
    List.mem_singleton.1 hr
  have hids : {e | e ∈ [] ∨ ∃ r ∈ (crowded 0).effects, e ∈ (crowded 0).watched r}.InjOn (·.id) := by
    rintro e (he | ⟨r, hr, he⟩) e' (he' | ⟨r', hr', he'⟩) -
    · cases he
    · cases he
    · cases he'
    · rw [hone hr] at he
      rw [hone hr'] at he'
      exact Option.some.inj (he.symm.trans he')
  have htop : ∀ r ∈ (crowded 0).effects, r.ledgerSequence < 6 := by
    intro r hr
    rw [hone hr]
    decide
  obtain ⟨final, hrun, hiff⟩ := backfill_complete_iff hids htop (Nat.lt_succ_self 6)
  exact ⟨final, hrun, hiff.2 (Backfill.leavesNothing_of_length_le (by decide) 7 [] 5)⟩

/-- After a hundred other records the cursor passes the ledger of the deposit. -/
theorem crowded_ledger_skipped :
    ¬ ∃ fuel final, (crowded 100).runBackfill fuel [] 5 = some final ∧
      (crowded 100).Covers 5 final := by
  rintro ⟨fuel, final, hrun, hcovers⟩
  have hpassed : (crowded 100).turn [] 5 = ([], some 6) := rfl
  have hended : (crowded 100).turn [] 6 = ([], none) := rfl
  have hempty : final = [] := by
    rcases fuel with _ | _ | fuel
    · cases hrun
    · cases hrun
    · simpa [Backfill.runBackfill, hpassed, hended] using hrun.symm
  have hthere := hcovers (ledgerFive "contract") (by simp [crowded]) _ rfl le_rfl nofun
  rw [hempty] at hthere
  cases hthere

end Astera.Indexer
