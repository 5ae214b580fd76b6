import Astera.Indexer.Events
import Astera.Lib.Transition

/-!
# The poll loop and its chain

`pollLoop` reads the events of a chain page by page, writes them and records the hash of the last
ledger of every page, by which it notices that the ledger below was replaced.  The chain may be
replaced at any time, from any ledger on; a restart takes the cursor back by `LOOKBACK_LEDGERS`.
-/

namespace Astera.Indexer

open Transition

abbrev Hash := String

/-! ## Chains -/

/-- The ledgers that any chain may hold, each named by its hash, with their events. -/
structure Network where
  content : Hash → List IndexedEvent
  /-- An id names one event of one ledger. -/
  unique : ∀ h h' e e', e ∈ content h → e' ∈ content h' → e.id = e'.id → h = h' ∧ e = e'

/-- A chain of ledgers; the events of a ledger bear its number. -/
structure Chain (net : Network) where
  hashes : List Hash
  numbered : ∀ n h, hashes[n]? = some h → ∀ e ∈ net.content h, e.ledgerSequence = n

/-- A record of the endpoint: an event at its place on the chain. -/
structure Record where
  ledger : ℕ
  index : ℕ
  event : IndexedEvent

/-- The cursor of the endpoint: the start, a ledger, or the paging token of a record. -/
inductive Cursor
  | empty
  | ledger (n : ℕ)
  | token (n i : ℕ)
  deriving DecidableEq, Repr

def Cursor.resumesAt : Cursor → ℕ
  | .empty => 0
  | .ledger n | .token n _ => n

/-- The cursor is past a place on the chain. -/
def Cursor.Passed : Cursor → ℕ → ℕ → Prop
  | .empty, _, _ => False
  | .ledger n, m, _ => m < n
  | .token n i, m, j => m < n ∨ m = n ∧ j ≤ i

instance : ∀ (c : Cursor) (m j : ℕ), Decidable (c.Passed m j)
  | .empty, _, _ => inferInstanceAs (Decidable False)
  | .ledger n, m, _ => inferInstanceAs (Decidable (m < n))
  | .token n i, m, j => inferInstanceAs (Decidable (m < n ∨ m = n ∧ j ≤ i))

structure LedgerMeta where
  sequence : ℕ
  hash : Hash
  prevHash : Hash

section Chain

variable {net : Network} (c : Chain net)

def Chain.records : List Record :=
  c.hashes.zipIdx.flatMap fun (h, n) => (net.content h).zipIdx.map fun (e, i) => ⟨n, i, e⟩

def Chain.recordsAfter (cursor : Cursor) : List Record :=
  c.records.filter fun r => ¬ cursor.Passed r.ledger r.index

def Chain.fetchLedgerMeta (sequence : ℕ) : Option LedgerMeta :=
  c.hashes[sequence]?.map fun hash =>
    ⟨sequence, hash, if sequence = 0 then "" else c.hashes[sequence - 1]?.getD ""⟩

end Chain

def Record.Before (r r' : Record) : Prop :=
  r.ledger < r'.ledger ∨ r.ledger = r'.ledger ∧ r.index < r'.index

section Chain

variable {net : Network} {c : Chain net}

theorem Chain.mem_records {r : Record} :
    r ∈ c.records ↔ ∃ h, c.hashes[r.ledger]? = some h ∧ (net.content h)[r.index]? = some r.event := by
  obtain ⟨n, i, e⟩ := r
  simp only [Chain.records, List.mem_flatMap, List.mem_map, Prod.exists, Record.mk.injEq,
    List.mem_zipIdx_iff_getElem?]
  constructor
  · rintro ⟨h, n', hn, e', i', hi, rfl, rfl, rfl⟩
    exact ⟨h, hn, hi⟩
  · rintro ⟨h, hn, hi⟩
    exact ⟨h, n, hn, e, i, hi, rfl, rfl, rfl⟩

theorem Chain.ledgerSequence_eq {r : Record} (hr : r ∈ c.records) :
    r.event.ledgerSequence = r.ledger := by
  obtain ⟨h, hn, hi⟩ := Chain.mem_records.1 hr
  exact c.numbered _ _ hn _ (List.mem_of_getElem? hi)

theorem Chain.records_before : c.records.Pairwise Record.Before := by
  have hnumbers {α : Type} (l : List α) : l.zipIdx.Pairwise fun x y => x.2 < y.2 := by
    rw [← List.pairwise_map (f := Prod.snd) (R := (· < ·)), List.zipIdx_map_snd]
    exact List.pairwise_lt_range'
  refine List.pairwise_flatMap.2 ⟨fun x _ => ?_, ?_⟩
  · exact List.pairwise_map.2 ((hnumbers _).imp fun h => .inr ⟨rfl, h⟩)
  · refine (hnumbers _).imp fun h r hr r' hr' => ?_
    obtain ⟨y, -, rfl⟩ := List.mem_map.1 hr
    obtain ⟨y', -, rfl⟩ := List.mem_map.1 hr'
    exact .inl h

end Chain

structure Loop where
  events : List IndexedEvent
  ledgerHashes : ℕ → Option LedgerMeta
  cursor : Cursor

def detectReorg (ledgerHashes : ℕ → Option LedgerMeta) (ledger : LedgerMeta) : Bool :=
  match ledger.sequence with
  | 0 => false
  | previous + 1 =>
    match ledgerHashes previous with
    | none => false
    | some recorded => recorded.hash ≠ ledger.prevHash

def recordLedgerHash (ledgerHashes : ℕ → Option LedgerMeta) (ledger : LedgerMeta) :
    ℕ → Option LedgerMeta :=
  Function.update ledgerHashes ledger.sequence (some ledger)

namespace Loop

variable (s : Loop)

def rollbackFrom (fromLedger : ℕ) : Loop :=
  { s with
    events := deleteFrom s.events fromLedger
    ledgerHashes := fun n => if fromLedger ≤ n then none else s.ledgerHashes n }

/-- The start of `pollLoop`: the cursor goes back from the latest ledger in the table. -/
def restart (lookbackLedgers : ℕ) : Loop :=
  { s with cursor := (getLatestLedger s.events).elim .empty fun latest =>
      .ledger (latest - lookbackLedgers) }

/-- The events of a page are stored, and the cursor is at its last record. -/
def storePage (page : List Record) (last : Record) : Loop :=
  { s with
    events := storeEvents s.events (page.map (·.event))
    cursor := .token last.ledger last.index }

end Loop

def tipLedger (page : List Record) : ℕ :=
  (page.map (·.event.ledgerSequence)).max?.getD 0

/-- One turn of the loop, with the page it was sent and the metadata it then asks for; whether it
detected a reorg. -/
def Loop.pollOnce (s : Loop) (page : List Record) (fetch : ℕ → Option LedgerMeta) :
    Loop × Bool :=
  match page.getLast? with
  | none => (s, false)
  | some last =>
    let stored := s.storePage page last
    match fetch (tipLedger page) with
    | none => (stored, false)
    | some ledger =>
      if detectReorg stored.ledgerHashes ledger then
        let rollbackPoint := tipLedger page - 1
        -- the paging token of the page is not used: it would undo the rewind
        ({ stored.rollbackFrom rollbackPoint with cursor := .ledger rollbackPoint }, true)
      else
        ({ stored with ledgerHashes := recordLedgerHash stored.ledgerHashes ledger }, false)

/-! ## The loop beside its chain -/

/-- The chain that the endpoint answers from, and the loop. -/
structure System (net : Network) where
  chain : Chain net
  loop : Loop

inductive Step (net : Network)
  /-- A turn of the loop with a page of at most `size` records; the chain is `chain` when the metadata
  is fetched. -/
  | poll (size : ℕ) (chain : Chain net)
  | replace (chain : Chain net)
  | restart

/-- Why a turn is none: the endpoint sends something if there is something, and has the metadata. -/
inductive Fault
  | emptyPage | noMetadata
  deriving DecidableEq, Repr

section System

variable {net : Network}

def System.page (s : System net) (size : ℕ) : List Record :=
  (s.chain.recordsAfter s.loop.cursor).take size

/-- Whether the turn detects a reorg. -/
def System.detects (s : System net) (size : ℕ) (chain : Chain net) : Bool :=
  (s.loop.pollOnce (s.page size) chain.fetchLedgerMeta).2

def exec (lookbackLedgers : ℕ) (s : System net) : Step net → Except Fault (System net)
  | .poll size chain =>
    let page := s.page size
    if size = 0 then .error .emptyPage
    else if page ≠ [] ∧ (chain.fetchLedgerMeta (tipLedger page)).isNone then .error .noMetadata
    else .ok ⟨chain, (s.loop.pollOnce page chain.fetchLedgerMeta).1⟩
  | .replace chain => .ok { s with chain := chain }
  | .restart => .ok { s with loop := s.loop.restart lookbackLedgers }

/-- The loop before its first turn, on empty tables. -/
def System.start (chain : Chain net) : System net :=
  ⟨chain, [], fun _ => none, .empty⟩

/-- The ledgers that a turn has read at every place, added to those read before. -/
def System.readPage (s : System net) (size : ℕ) (read : ℕ → List Hash) (n : ℕ) : List Hash :=
  if s.loop.cursor.resumesAt ≤ n ∧ n ≤ tipLedger (s.page size) then
    s.chain.hashes[n]?.toList ++ read n
  else read n

/-- The history of a run: at every place the ledgers that were read there, up to the last rollback.
-/
def noteRead (s : System net) (step : Step net) (_ : System net) (read : ℕ → List Hash) :
    ℕ → List Hash :=
  match step with
  | .poll size chain =>
    if s.page size = [] then read
    else if s.detects size chain then fun n =>
      if tipLedger (s.page size) - 1 ≤ n then [] else s.readPage size read n
    else s.readPage size read
  | .replace _ | .restart => read

/-- No ledger that was read has been replaced. -/
def Fresh (chain : Chain net) (read : ℕ → List Hash) : Prop :=
  ∀ n, ∀ h ∈ read n, chain.hashes[n]? = some h

end System

end Astera.Indexer
