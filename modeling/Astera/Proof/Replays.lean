import Astera.Indexer.Replays

/-!
# When the replays agree with the contracts

The endpoint for rounds takes, of several events of one ledger, the one that the database sends
last; the tracker never forgets a vote; the endpoint for flagged addresses skips a clearing before
it looks for the newest screening, and does not read review requests.
-/

namespace Astera.Indexer

open Fallible Transition Js Js.Value StableSort
open Oracle (RoundStatus)

variable (r : Rendering)

section Values

variable {r}

theorem extractInvoiceId_of_idText {v : Value} {text : String} (h : idText v = some text) :
    extractInvoiceId v = some text := by
  cases v with
  | arr items => cases h
  | _ => exact h

theorem extractInvoiceId_roundValue (e : Oracle.Event) (invoiceId : ℕ) :
    extractInvoiceId (r.roundValue e) = some (r.id invoiceId).text ↔ e.round = some invoiceId := by
  have hid (n : ℕ) : some (r.id n).text = some (r.id invoiceId).text ↔ some n = some invoiceId :=
    ⟨fun h => congrArg some (r.id_injective _ _ (Option.some.inj h)), fun h => by
      rw [Option.some.inj h]⟩
  cases e with
  | rndExp n =>
    rw [Rendering.roundValue, extractInvoiceId_of_idText (r.id_idText n)]
    exact hid n
  | notice topic first =>
    rw [Rendering.roundValue, extractInvoiceId_of_idText (r.address_idText first)]
    refine iff_of_false (fun h => ?_) (by simp [Oracle.Event.round])
    exact r.id_ne_address _ _ (Option.some.inj h).symm
  | rndOpen n | voted n | consensus n | fallback n =>
    simp only [Rendering.roundValue, extractInvoiceId, item, List.getElem?_cons_zero,
      Option.getD_some, r.id_idText n]
    exact hid n

theorem roundStatus_of_seen {row : IndexedEvent} {e : Oracle.Event} {invoiceId : ℕ}
    (htopic : row.eventType = roundTopic e) (hvalue : row.value = r.roundValue e)
    (hround : e.round = some invoiceId) : roundStatus row = e.leadsTo := by
  unfold roundStatus
  rw [htopic, hvalue]
  cases e with
  | consensus n approved | fallback n approved =>
    simp [roundTopic, Rendering.roundValue, roundApproved, item, truthy, Oracle.Event.leadsTo,
      consensusStatus, Oracle.decided]
  | notice topic first => cases hround
  | rndOpen | voted | rndExp => rfl

theorem screening_screeningValue (a : Address) (status : Compliance.ComplianceStatus) (reasonCode : ℕ)
    (screener : Address) (expiresAt : ℕ) :
    screening (r.screeningValue (.screened a status reasonCode screener expiresAt)) =
      ⟨(r.address a).text, (r.status status).text⟩ := by
  have haddress : (r.address a).orElse (.str "") = r.address a := by
    have htext := r.address_idText a
    cases hv : r.address a with
    | null => simp [hv, idText] at htext
    | _ => rfl
  have hstatus : (r.status status).orElse (.str "") = r.status status := by
    have hne := r.status_ne_null status
    cases hv : r.status status with
    | null => exact absurd hv hne
    | _ => rfl
  simp [Rendering.screeningValue, screening, item, haddress, hstatus]

end Values

/-! ## The tracker -/

section Tracker

variable {r} {me : Address}

structure Follows (r : Rendering) (me : Address) (t : ConsensusTracker)
    (events : List Oracle.Event) : Prop where
  key : t.oraclePublicKey = (r.address me).text
  rounds : ∀ invoiceId, t.rounds (r.id invoiceId).text = Oracle.followStatus invoiceId events
  voted : ∀ invoiceId, (r.id invoiceId).text ∈ t.votedByMe ↔
    ∃ approved weight, Oracle.Event.voted invoiceId me approved weight ∈ events

theorem update_round (rounds : String → Option RoundStatus) (n invoiceId : ℕ) (status : RoundStatus) :
    Function.update rounds (r.id n).text (some status) (r.id invoiceId).text =
      if n = invoiceId then some status else rounds (r.id invoiceId).text := by
  rw [Function.update_apply]
  by_cases h : n = invoiceId
  · simp [h]
  · rw [if_neg h, if_neg fun heq => h (r.id_injective _ _ heq.symm)]

theorem update_address (rounds : String → Option RoundStatus) (a : Address) (invoiceId : ℕ)
    (status : RoundStatus) :
    Function.update rounds (r.address a).text (some status) (r.id invoiceId).text =
      rounds (r.id invoiceId).text :=
  Function.update_of_ne (r.id_ne_address invoiceId a) _ _

theorem asArray_of_idText {v : Value} {text : String} (h : idText v = some text) :
    ConsensusTracker.asArray v = [v] := by
  cases v with
  | arr items => cases h
  | _ => rfl

theorem Follows.moves {t : ConsensusTracker} {events : List Oracle.Event} (ht : Follows r me t events)
    {e : Oracle.Event} {n : ℕ} {status : RoundStatus}
    (hfollow : ∀ invoiceId before,
      e.follow invoiceId before = if n = invoiceId then some status else before)
    (hvoted : ∀ invoiceId approved weight, e ≠ .voted invoiceId me approved weight) :
    Follows r me (t.upsert (r.id n).text status) (events ++ [e]) := by
  refine ⟨ht.key, fun invoiceId => ?_, fun invoiceId => ?_⟩
  · rw [Oracle.followStatus_append, hfollow, ← ht.rounds]
    exact update_round _ _ _ _
  · simp only [List.mem_append, List.mem_singleton, (hvoted _ _ _).symm, or_false]
    exact ht.voted invoiceId

theorem Follows.vote {t : ConsensusTracker} {events : List Oracle.Event} (ht : Follows r me t events)
    (n : ℕ) (oracle : Address) (approved : Bool) (weight : ℤ) :
    Follows r me (t.handleEvent "voted" (r.roundValue (.voted n oracle approved weight)))
      (events ++ [.voted n oracle approved weight]) := by
  have hmine : (r.address oracle).text = (r.address me).text ↔ oracle = me :=
    ⟨r.address_injective _ _, fun h => by rw [h]⟩
  have hrounds (rounds : String → Option RoundStatus) (hold : rounds = t.rounds) (invoiceId : ℕ) :
      Function.update rounds (r.id n).text (some ((t.rounds (r.id n).text).getD .Open))
        (r.id invoiceId).text = Oracle.followStatus invoiceId
          (events ++ [.voted n oracle approved weight]) := by
    rw [hold, update_round, Oracle.followStatus_append, ← ht.rounds]
    simp only [Oracle.Event.follow]
    split_ifs with hn
    · rw [hn]
    · rfl
  simp only [ConsensusTracker.handleEvent, Rendering.roundValue, ConsensusTracker.asArray, item,
    List.getElem?_cons_zero, List.getElem?_cons_succ, Option.getD_some, ht.key, hmine]
  by_cases hme : oracle = me
  · subst hme
    rw [if_pos rfl]
    refine ⟨rfl, hrounds _ rfl, fun invoiceId => ?_⟩
    have hsame : (r.id invoiceId).text = (r.id n).text ↔ invoiceId = n :=
      ⟨r.id_injective _ _, fun h => by rw [h]⟩
    refine List.mem_insert_iff.trans ?_
    simp only [hsame, ht.voted, List.mem_append, List.mem_singleton, Oracle.Event.voted.injEq,
      true_and]
    constructor
    · rintro (rfl | ⟨approved', weight', h⟩)
      · exact ⟨approved, weight, .inr ⟨rfl, rfl, rfl⟩⟩
      · exact ⟨approved', weight', .inl h⟩
    · rintro ⟨approved', weight', h | ⟨rfl, -⟩⟩
      · exact .inr ⟨approved', weight', h⟩
      · exact .inl rfl
  · rw [if_neg hme]
    refine ⟨ht.key, hrounds _ rfl, fun invoiceId => (ht.voted invoiceId).trans ?_⟩
    simp [Ne.symm hme]

theorem Follows.notice {t : ConsensusTracker} {events : List Oracle.Event}
    (ht : Follows r me t events) (topic : String) (first : Address) :
    Follows r me (t.handleEvent topic (r.roundValue (.notice topic first)))
      (events ++ [.notice topic first]) := by
  have hrounds (invoiceId : ℕ) :
      Oracle.followStatus invoiceId (events ++ [.notice topic first]) =
        t.rounds (r.id invoiceId).text := by
    rw [Oracle.followStatus_append, ht.rounds]
    rfl
  have hvoted (invoiceId : ℕ) : (∃ approved weight,
      Oracle.Event.voted invoiceId me approved weight ∈ events ++ [.notice topic first]) ↔
        (r.id invoiceId).text ∈ t.votedByMe := by
    rw [ht.voted]
    simp
  simp only [ConsensusTracker.handleEvent, Rendering.roundValue,
    asArray_of_idText (r.address_idText first), item, List.getElem?_cons_zero, Option.getD_some]
  split
  · exact ⟨ht.key, fun id => (hrounds id).symm, fun id => (hvoted id).symm⟩
  · exact ⟨ht.key, fun id => (hrounds id).symm, fun id => (hvoted id).symm⟩
  · exact ⟨ht.key, fun id => (update_address _ _ _ _).trans (hrounds id).symm,
      fun id => (hvoted id).symm⟩
  · split_ifs
    · refine ⟨ht.key, fun id => (update_address _ _ _ _).trans (hrounds id).symm, fun id => ?_⟩
      rw [hvoted]
      exact List.mem_insert_iff.trans (or_iff_right (r.id_ne_address id first))
    · exact ⟨ht.key, fun id => (update_address _ _ _ _).trans (hrounds id).symm,
        fun id => (hvoted id).symm⟩
  · exact ⟨ht.key, fun id => (update_address _ _ _ _).trans (hrounds id).symm,
      fun id => (hvoted id).symm⟩
  · exact ⟨ht.key, fun id => (update_address _ _ _ _).trans (hrounds id).symm,
      fun id => (hvoted id).symm⟩
  · exact ⟨ht.key, fun id => (update_address _ _ _ _).trans (hrounds id).symm,
      fun id => (hvoted id).symm⟩
  · exact ⟨ht.key, fun id => (hrounds id).symm, fun id => (hvoted id).symm⟩

theorem Follows.step {t : ConsensusTracker} {events : List Oracle.Event} (ht : Follows r me t events)
    (e : Oracle.Event) :
    Follows r me (t.handleEvent (roundTopic e) (r.roundValue e)) (events ++ [e]) := by
  have hfollow (e : Oracle.Event) {n : ℕ} {status : RoundStatus} (hround : e.round = some n)
      (hleads : e.leadsTo = some status) (invoiceId : ℕ) (before : Option RoundStatus) :
      e.follow invoiceId before = if n = invoiceId then some status else before := by
    have htakes : e.takes invoiceId = if n = invoiceId then some status else none := by
      rw [Oracle.Event.takes, hround, hleads]
      simp only [Option.some.injEq]
    cases e with
    | voted => cases hleads
    | notice => cases hleads
    | _ =>
      simp only [Oracle.Event.follow, htakes]
      split_ifs
      · rfl
      · rfl
  cases e with
  | voted n oracle approved weight => exact ht.vote n oracle approved weight
  | notice topic first => exact ht.notice topic first
  | rndOpen n activeCount totalStake => exact ht.moves (hfollow _ rfl rfl) (by simp)
  | consensus n approved => exact ht.moves (hfollow _ rfl rfl) (by simp)
  | fallback n approved caller => exact ht.moves (hfollow _ rfl rfl) (by simp)
  | rndExp n =>
    have hvalue : t.handleEvent (roundTopic (.rndExp n)) (r.roundValue (.rndExp n)) =
        t.upsert (r.id n).text .Expired := by
      simp [ConsensusTracker.handleEvent, roundTopic, Rendering.roundValue,
        asArray_of_idText (r.id_idText n), item]
    rw [hvalue]
    exact ht.moves (hfollow _ rfl rfl) (by simp)

theorem follows_tracker (r : Rendering) (me : Address) (events : List Oracle.Event) :
    Follows r me (r.tracker me events) events := by
  induction events using List.reverseRecOn with
  | nil => exact ⟨rfl, fun _ => rfl, fun _ => by simp [Rendering.tracker]⟩
  | append_singleton events e ih =>
    unfold Rendering.tracker at ih ⊢
    rw [List.foldl_append]
    exact ih.step e

end Tracker

/-! ## The endpoint for rounds -/

section Rounds

variable {r} {table rows : List IndexedEvent} {log : Oracle.Log} {invoiceId : ℕ}

/-- The status to which a row takes the round of an invoice. -/
def rowTakes (r : Rendering) (invoiceId : ℕ) (row : IndexedEvent) : Option RoundStatus :=
  if extractInvoiceId row.value = some (r.id invoiceId).text then roundStatus row else none

theorem exists_event (hindexed : r.IndexesRounds table log) (hrows : rows.Perm (table.filter ofRegistry))
    {row : IndexedEvent} (hrow : row ∈ rows) :
    ∃ x ∈ log, row.ledgerSequence = x.1 ∧ row.eventType = roundTopic x.2 ∧
      row.value = r.roundValue x.2 := by
  have hmem := (hrows.map IndexedEvent.seen).trans hindexed |>.mem_iff.1 (List.mem_map_of_mem hrow)
  obtain ⟨x, hx, heq⟩ := List.mem_map.1 hmem
  simp only [IndexedEvent.seen, Prod.mk.injEq] at heq
  exact ⟨x, hx, heq.1.symm, heq.2.1.symm, heq.2.2.symm⟩

theorem exists_row (hindexed : r.IndexesRounds table log) (hrows : rows.Perm (table.filter ofRegistry))
    {x : ℕ × Oracle.Event} (hx : x ∈ log) :
    ∃ row ∈ rows, row.ledgerSequence = x.1 ∧ row.eventType = roundTopic x.2 ∧
      row.value = r.roundValue x.2 := by
  have hmem := ((hrows.map IndexedEvent.seen).trans hindexed).mem_iff.2 (List.mem_map_of_mem hx)
  obtain ⟨row, hrow, heq⟩ := List.mem_map.1 hmem
  simp only [IndexedEvent.seen, Prod.mk.injEq] at heq
  exact ⟨row, hrow, heq.1, heq.2.1, heq.2.2⟩

theorem rowTakes_eq {row : IndexedEvent} {e : Oracle.Event} (htopic : row.eventType = roundTopic e)
    (hvalue : row.value = r.roundValue e) : rowTakes r invoiceId row = e.takes invoiceId := by
  unfold rowTakes Oracle.Event.takes
  rw [hvalue]
  by_cases hround : e.round = some invoiceId
  · rw [if_pos ((extractInvoiceId_roundValue e invoiceId).2 hround), if_pos hround]
    exact roundStatus_of_seen htopic hvalue hround
  · rw [if_neg fun h => hround ((extractInvoiceId_roundValue e invoiceId).1 h), if_neg hround]

theorem getRound_eq {max : ℕ} (hmax : rows.length ≤ max)
    (hmatch : ∃ row ∈ rows, extractInvoiceId row.value = some (r.id invoiceId).text) :
    getRound max rows (r.id invoiceId).text =
      .ok ((ascending (·.ledgerSequence) (rows.filter fun row =>
        extractInvoiceId row.value = some (r.id invoiceId).text)).filterMap
          (rowTakes r invoiceId)).getLast? := by
  set matching := rows.filter fun row => extractInvoiceId row.value = some (r.id invoiceId).text
    with hmatching
  have hfold : ∀ (l : List IndexedEvent) (status : Option RoundStatus),
      (∀ row ∈ l, extractInvoiceId row.value = some (r.id invoiceId).text) →
      l.foldl (fun status row => (roundStatus row).or status) status =
        ((l.filterMap (rowTakes r invoiceId)).getLast?).or status := by
    intro l
    induction l with
    | nil =>
      intro status _
      rfl
    | cons row l ih =>
      intro status hl
      have hrow : rowTakes r invoiceId row = roundStatus row := if_pos (hl row List.mem_cons_self)
      rw [List.foldl_cons, ih _ fun row hrow => hl row (List.mem_cons_of_mem _ hrow)]
      cases hstatus : roundStatus row with
      | none => rw [List.filterMap_cons_none (hrow.trans hstatus), Option.none_or]
      | some st =>
        rw [List.filterMap_cons_some (hrow.trans hstatus), List.getLast?_cons]
        cases (l.filterMap (rowTakes r invoiceId)).getLast? with
        | none => rfl
        | some st' => rfl
  have hne : ascending (·.ledgerSequence) matching ≠ [] := by
    obtain ⟨row, hrow, hid⟩ := hmatch
    have hmem : row ∈ matching := List.mem_filter.2 ⟨hrow, decide_eq_true hid⟩
    exact List.ne_nil_of_mem ((perm_ascending _ _).mem_iff.2 hmem)
  unfold getRound
  rw [if_neg (Nat.not_lt.2 hmax)]
  dsimp only
  rw [← hmatching, if_neg (by simpa using hne), hfold, Option.or_none]
  intro row hrow
  have hmem := (perm_ascending _ _).mem_iff.1 hrow
  exact of_decide_eq_true (List.mem_filter.1 hmem).2

/-- An event that takes the round somewhere, of the latest ledger that has one. -/
structure Latest (log : Oracle.Log) (invoiceId : ℕ) (x : ℕ × Oracle.Event) (status : RoundStatus) :
    Prop where
  mem : x ∈ log
  takes : x.2.takes invoiceId = some status
  latest : ∀ y ∈ log, (y.2.takes invoiceId).isSome → y.1 ≤ x.1

theorem getRound_of_latest {max : ℕ} (hindexed : r.IndexesRounds table log)
    (hrows : rows.Perm (table.filter ofRegistry)) (hmax : log.length ≤ max)
    {x : ℕ × Oracle.Event} {status : RoundStatus} (hx : Latest log invoiceId x status) :
    getRound max rows (r.id invoiceId).text =
      .ok (((rows.filter fun row => row.ledgerSequence = x.1).filterMap
        (rowTakes r invoiceId)).getLast?) := by
  have hlength : rows.length ≤ max := by
    have hlen := ((hrows.map IndexedEvent.seen).trans hindexed).length_eq
    simp only [List.length_map] at hlen
    omega
  obtain ⟨row, hrow, hledger, htopic, hvalue⟩ := exists_row hindexed hrows hx.mem
  have htakes : rowTakes r invoiceId row = some status := (rowTakes_eq htopic hvalue).trans hx.takes
  have hid : extractInvoiceId row.value = some (r.id invoiceId).text := by
    by_contra hne
    rw [rowTakes, if_neg hne] at htakes
    cases htakes
  rw [getRound_eq hlength ⟨row, hrow, hid⟩]
  congr 1
  rw [getLast?_filterMap (pairwise_ascending _ _) (k := x.1) ?_ ?_, filter_ascending]
  · -- the other rows of the ledger give no status
    congr 1
    rw [List.filter_comm]
    generalize rows.filter (fun row => decide (row.ledgerSequence = x.1)) = l
    induction l with
    | nil => rfl
    | cons row l ih =>
      rw [List.filter_cons]
      split_ifs with hq
      · rw [List.filterMap_cons, List.filterMap_cons, ih]
      · rw [ih, List.filterMap_cons_none]
        exact if_neg fun h => hq (decide_eq_true h)
  · intro row' hrow' hsome
    have hmem := List.mem_of_mem_filter ((perm_ascending _ _).mem_iff.1 hrow')
    obtain ⟨y, hy, hledger', htopic', hvalue'⟩ := exists_event hindexed hrows hmem
    rw [rowTakes_eq htopic' hvalue'] at hsome
    exact hledger'.trans_le (hx.latest y hy hsome)
  · refine ⟨row, (perm_ascending _ _).mem_iff.2 (List.mem_filter.2 ⟨hrow, decide_eq_true hid⟩), ?_,
      hledger⟩
    rw [htakes]
    rfl

/-- All that happened to a round in the latest ledger led to the status that it has. -/
def OneStatus (log : Oracle.Log) (invoiceId : ℕ) : Prop :=
  ∀ x status, Latest log invoiceId x status →
    Oracle.replayStatus invoiceId (log.map Prod.snd) = some status

theorem exists_latest {status : RoundStatus} (horder : log.Pairwise fun x y => x.1 ≤ y.1)
    (hstatus : Oracle.replayStatus invoiceId (log.map Prod.snd) = some status) :
    ∃ x, Latest log invoiceId x status := by
  induction log using List.reverseRecOn with
  | nil => cases hstatus
  | append_singleton log x ih =>
    obtain ⟨hinit, -, hlast⟩ := List.pairwise_append.1 horder
    rw [List.map_append, List.map_cons, List.map_nil, Oracle.replayStatus_append] at hstatus
    cases hx : x.2.takes invoiceId with
    | none =>
      rw [hx, Option.none_or] at hstatus
      obtain ⟨y, hy⟩ := ih hinit hstatus
      refine ⟨y, List.mem_append_left _ hy.mem, hy.takes, fun z hz hsome => ?_⟩
      rcases List.mem_append.1 hz with hz | hz
      · exact hy.latest z hz hsome
      · rw [List.mem_singleton.1 hz, hx] at hsome
        cases hsome
    | some st =>
      rw [hx, Option.some_or] at hstatus
      obtain rfl := Option.some.inj hstatus
      refine ⟨x, by simp, hx, fun z hz hsome => ?_⟩
      rcases List.mem_append.1 hz with hz | hz
      · exact hlast z hz x (List.mem_singleton_self x)
      · rw [List.mem_singleton.1 hz]

def roundAnswer (status : Option RoundStatus) : Except ApiFault (Option RoundStatus) :=
  match status with
  | some status => .ok (some status)
  | none => .error .notFound

/-- Whatever the order in which the database sends the rows of one ledger, the endpoint answers with
the status of the round, exactly if all that happened to it in the latest ledger led to that status.
-/
theorem getRound_iff {W : Type} {s : Oracle.State W} {max : ℕ} (htold : Oracle.Told s (log.map Prod.snd))
    (horder : log.Pairwise fun x y => x.1 ≤ y.1) (hindexed : r.IndexesRounds table log)
    (hmax : log.length ≤ max) (invoiceId : ℕ) :
    (∀ rows, AnswersDesc table ofRegistry rows →
      getRound max rows (r.id invoiceId).text =
        roundAnswer ((s.rounds.get invoiceId).map (·.status))) ↔ OneStatus log invoiceId := by
  rw [← htold.status]
  constructor
  · intro hanswers x status hx
    -- an answer in which the row of this event comes last in its ledger
    obtain ⟨row, hrow, hledger, htopic, hvalue⟩ := exists_row hindexed .rfl hx.mem
    obtain ⟨l₁, l₂, hsplit⟩ := List.append_of_mem hrow
    set rows := descending (·.ledgerSequence) (l₁ ++ l₂ ++ [row]) with hrows
    have hperm : rows.Perm (table.filter ofRegistry) := by
      rw [hsplit, hrows]
      refine (perm_descending _ _).trans ?_
      rw [List.append_assoc]
      exact (List.perm_append_singleton row l₂).append_left l₁
    have hanswer := hanswers rows ⟨hperm, pairwise_descending _ _⟩
    have hfilter : (rows.filter fun row => row.ledgerSequence = x.1) =
        ((l₁ ++ l₂).filter fun row => row.ledgerSequence = x.1) ++ [row] := by
      rw [hrows, filter_descending, List.filter_append]
      simp [hledger]
    have htakes : rowTakes r invoiceId row = some status :=
      (rowTakes_eq htopic hvalue).trans hx.takes
    rw [getRound_of_latest hindexed hperm hmax hx, hfilter, List.filterMap_append,
      List.filterMap_cons_some htakes, List.filterMap_nil, List.getLast?_concat] at hanswer
    cases hstatus : Oracle.replayStatus invoiceId (log.map Prod.snd) with
    | none =>
      rw [hstatus] at hanswer
      cases hanswer
    | some st =>
      rw [hstatus] at hanswer
      exact (Except.ok.inj hanswer).symm
  · rintro hone rows ⟨hperm, -⟩
    cases hstatus : Oracle.replayStatus invoiceId (log.map Prod.snd) with
    | none =>
      -- there is no round, and no event that names one
      have hnone : s.rounds.get invoiceId = none := by
        have hmap := htold.status invoiceId
        rw [hstatus] at hmap
        exact Option.map_eq_none_iff.1 hmap.symm
      have hlength : rows.length ≤ max := by
        have hlen := ((hperm.map IndexedEvent.seen).trans hindexed).length_eq
        simp only [List.length_map] at hlen
        omega
      have hempty : (rows.filter fun evt =>
          extractInvoiceId evt.value = some (r.id invoiceId).text) = [] := by
        refine List.filter_eq_nil_iff.2 fun row hrow hid => ?_
        obtain ⟨x, hx, -, -, hvalue⟩ := exists_event hindexed hperm hrow
        rw [decide_eq_true_eq, hvalue, extractInvoiceId_roundValue] at hid
        have hsome := htold.known x.2 (List.mem_map_of_mem hx) invoiceId hid
        rw [hnone] at hsome
        cases hsome
      unfold getRound
      rw [if_neg (Nat.not_lt.2 hlength), hempty]
      rfl
    | some status =>
      obtain ⟨x, hx⟩ := exists_latest horder hstatus
      rw [getRound_of_latest hindexed hperm hmax hx]
      cases hlast : ((rows.filter fun row => row.ledgerSequence = x.1).filterMap
          (rowTakes r invoiceId)).getLast? with
      | none =>
        obtain ⟨row, hrow, hledger, htopic, hvalue⟩ := exists_row hindexed hperm hx.mem
        rw [List.getLast?_eq_none_iff, List.filterMap_eq_nil_iff] at hlast
        have hnone := hlast row (List.mem_filter.2 ⟨hrow, decide_eq_true hledger⟩)
        rw [rowTakes_eq htopic hvalue, hx.takes] at hnone
        cases hnone
      | some st =>
        obtain ⟨row, hrow, htakes⟩ := List.mem_filterMap.1 (List.mem_of_getLast? hlast)
        obtain ⟨hrow, hledger⟩ := List.mem_filter.1 hrow
        obtain ⟨y, hy, hledger', htopic, hvalue⟩ := exists_event hindexed hperm hrow
        have hsame : y.1 = x.1 := hledger'.symm.trans (of_decide_eq_true hledger)
        have hy : Latest log invoiceId y st :=
          ⟨hy, (rowTakes_eq htopic hvalue).symm.trans htakes, fun z hz hsome =>
            (hx.latest z hz hsome).trans hsame.ge⟩
        have hst := hone y st hy
        rw [hstatus] at hst
        obtain rfl := Option.some.inj hst
        rfl

end Rounds

/-! ## The endpoint for flagged addresses -/

section Flagged

variable {r} {table : List IndexedEvent} {log : Compliance.Log}

def Keeps (row : IndexedEvent) : Prop :=
  (screening row.value).address ≠ "" ∧
    ((screening row.value).status = "Flagged" ∨ (screening row.value).status = "Blocked")

theorem mem_flagged {text : String} :
    ∀ {rows : List IndexedEvent} {latest : List FlaggedAddress},
      text ∈ (rows.foldl noteFlagged latest).map (·.address) ↔
        text ∈ latest.map (·.address) ∨
          ∃ row ∈ rows, Keeps row ∧ (screening row.value).address = text := by
  intro rows
  induction rows with
  | nil => simp
  | cons row rows ih =>
    intro latest
    have hone : text ∈ (noteFlagged latest row).map (·.address) ↔
        text ∈ latest.map (·.address) ∨ Keeps row ∧ (screening row.value).address = text := by
      unfold noteFlagged Keeps
      dsimp only
      split_ifs with hempty hskip hold
      · simp [hempty]
      · have hnot : ¬ ((screening row.value).status = "Flagged" ∨
            (screening row.value).status = "Blocked") := fun h => h.elim hskip.1 hskip.2
        simp [hnot]
      · obtain ⟨entry, hentry, heq⟩ := List.any_eq_true.1 hold
        refine ⟨.inl, fun h => h.elim id ?_⟩
        rintro ⟨-, rfl⟩
        exact List.mem_map.2 ⟨entry, hentry, of_decide_eq_true heq⟩
      · have hkept : (screening row.value).status = "Flagged" ∨
            (screening row.value).status = "Blocked" := by
          by_contra hnot
          exact hskip (not_or.1 hnot)
        rw [List.map_append, List.mem_append, List.map_singleton, List.mem_singleton]
        exact or_congr_right ⟨fun h => ⟨⟨hempty, hkept⟩, h.symm⟩, fun h => h.2.symm⟩
    rw [List.foldl_cons, ih, hone, List.exists_mem_cons_iff, or_assoc]

theorem keeps_iff {row : IndexedEvent} {a screener : Address}
    {status : Compliance.ComplianceStatus} {reasonCode expiresAt : ℕ}
    (hvalue : row.value = r.screeningValue (.screened a status reasonCode screener expiresAt)) :
    Keeps row ↔ status.Restrictive := by
  unfold Keeps Compliance.ComplianceStatus.Restrictive
  rw [hvalue, screening_screeningValue]
  dsimp only
  rw [r.status_text]
  cases status with
  | Flagged | Blocked => simp [r.address_ne_empty]
  | Unscreened | Cleared | PendingReview => simp

theorem mem_getFlagged {rows : List IndexedEvent} {limit : ℕ}
    (hindexed : r.IndexesScreenings table log)
    (hlimit : (log.filter fun x => screeningTopic x.2 = "screened").length ≤ limit)
    (hrows : AnswersDesc table ofScreenings rows) (text : String) :
    text ∈ (getFlagged limit rows).map (·.address) ↔
      ∃ x ∈ log, x.2.gives.Restrictive ∧ (r.address x.2.subject).text = text := by
  have hseen := (hrows.1.map IndexedEvent.seen).trans hindexed
  have hlength : rows.length ≤ limit := by
    have hlen := hseen.length_eq
    simp only [List.length_map] at hlen
    omega
  rw [getFlagged, List.take_of_length_le hlength, mem_flagged]
  simp only [List.map_nil, List.not_mem_nil, false_or]
  constructor
  · rintro ⟨row, hrow, hkeeps, haddress⟩
    obtain ⟨x, hx, heq⟩ := List.mem_map.1 (hseen.mem_iff.1 (List.mem_map_of_mem hrow))
    obtain ⟨hx, htopic⟩ := List.mem_filter.1 hx
    simp only [IndexedEvent.seen, Prod.mk.injEq] at heq
    cases he : x.2 with
    | screened a status reasonCode screener expiresAt =>
      have hvalue := heq.2.2.symm
      rw [he] at hvalue
      refine ⟨x, hx, ?_, ?_⟩
      · rw [he]
        exact (keeps_iff hvalue).1 hkeeps
      · rw [hvalue, screening_screeningValue] at haddress
        rw [he]
        exact haddress
    | review => simp [he, screeningTopic] at htopic
  · rintro ⟨x, hx, hrestrictive, rfl⟩
    cases he : x.2 with
    | screened a status reasonCode screener expiresAt =>
      have hmem := hseen.mem_iff.2 (List.mem_map_of_mem
        (List.mem_filter.2 ⟨hx, by simp [he, screeningTopic]⟩))
      obtain ⟨row, hrow, heq⟩ := List.mem_map.1 hmem
      simp only [IndexedEvent.seen, Prod.mk.injEq] at heq
      have hvalue := heq.2.2
      rw [he] at hvalue hrestrictive
      refine ⟨row, hrow, (keeps_iff hvalue).2 hrestrictive, ?_⟩
      rw [hvalue, screening_screeningValue]
      rfl
    | review =>
      rw [he] at hrestrictive
      rcases hrestrictive with h | h
      · cases h
      · cases h

theorem answersDesc_screenings (table : List IndexedEvent) :
    AnswersDesc table ofScreenings
      (descending (·.ledgerSequence) (table.filter ofScreenings)) :=
  ⟨perm_descending _ _, pairwise_descending _ _⟩

/-- The endpoint answers with the addresses that are recorded as flagged or blocked exactly if every
address that a screening ever flagged or blocked still is. -/
theorem getFlagged_iff {s : Compliance.State} {limit : ℕ}
    (htold : Compliance.Told s (log.map Prod.snd)) (hindexed : r.IndexesScreenings table log)
    (hlimit : (log.filter fun x => screeningTopic x.2 = "screened").length ≤ limit) :
    (∀ rows, AnswersDesc table ofScreenings rows → ∀ text,
      text ∈ (getFlagged limit rows).map (·.address) ↔
        ∃ a, (r.address a).text = text ∧ s.Restricts a) ↔
      ∀ x ∈ log, x.2.gives.Restrictive → s.Restricts x.2.subject := by
  constructor
  · intro hall x hx hrestrictive
    have hdesc := answersDesc_screenings table
    have hmem := (mem_getFlagged hindexed hlimit hdesc _).2 ⟨x, hx, hrestrictive, rfl⟩
    obtain ⟨a, htext, hrestricts⟩ := (hall _ hdesc _).1 hmem
    rwa [r.address_injective _ _ htext] at hrestricts
  · intro hstays rows hrows text
    rw [mem_getFlagged hindexed hlimit hrows]
    constructor
    · rintro ⟨x, hx, hrestrictive, rfl⟩
      exact ⟨x.2.subject, rfl, hstays x hx hrestrictive⟩
    · rintro ⟨a, rfl, hrestricts⟩
      obtain ⟨status, hstatus, hrestrictive⟩ : ∃ status,
          Compliance.replayStatus a (log.map Prod.snd) = some status ∧ status.Restrictive := by
        rw [← htold a]
        rcases hrestricts with h | h
        · exact ⟨_, h, .inl rfl⟩
        · exact ⟨_, h, .inr rfl⟩
      obtain ⟨e, he, hgives⟩ := List.mem_filterMap.1 (List.mem_of_getLast? hstatus)
      obtain ⟨x, hx, rfl⟩ := List.mem_map.1 he
      split_ifs at hgives with hsubject
      obtain rfl := Option.some.inj hgives
      exact ⟨x, hx, hrestrictive, by rw [hsubject]⟩

end Flagged

section All

variable {W : Type} {h : Oracle.Host W}

def VotedNow (s : Oracle.State W) (me : Address) (invoiceId : ℕ) : Prop :=
  ∃ round, s.rounds.get invoiceId = some round ∧ (round.votes.get me).isSome

/-- The tracker remembers a vote in the current round exactly if, wherever the node ever voted, it
voted since the round was last opened. -/
theorem hasVoted_iff {s : Oracle.State W} (me : Address) {events : List Oracle.Event}
    (htold : Oracle.Told s events) :
    (∀ invoiceId, (r.tracker me events).hasVoted (r.id invoiceId).text = true ↔
      VotedNow s me invoiceId) ↔
      ∀ invoiceId approved weight, Oracle.Event.voted invoiceId me approved weight ∈ events →
        me ∈ Oracle.replayVoters invoiceId events := by
  have hremembers (invoiceId : ℕ) : (r.tracker me events).hasVoted (r.id invoiceId).text = true ↔
      ∃ approved weight, Oracle.Event.voted invoiceId me approved weight ∈ events := by
    rw [ConsensusTracker.hasVoted, decide_eq_true_eq]
    exact (follows_tracker r me events).voted invoiceId
  have hcurrent (invoiceId : ℕ) : VotedNow s me invoiceId ↔
      (s.rounds.get invoiceId).isSome ∧ me ∈ Oracle.replayVoters invoiceId events := by
    constructor
    · rintro ⟨round, hget, hvote⟩
      exact ⟨by rw [hget]; rfl, (htold.voters invoiceId round hget me).2 hvote⟩
    · rintro ⟨hsome, hmem⟩
      obtain ⟨round, hget⟩ := Option.isSome_iff_exists.1 hsome
      exact ⟨round, hget, (htold.voters invoiceId round hget me).1 hmem⟩
  constructor
  · intro hall invoiceId approved weight hvoted
    exact ((hcurrent _).1 ((hall invoiceId).1 ((hremembers _).2 ⟨approved, weight, hvoted⟩))).2
  · intro hagain invoiceId
    rw [hremembers, hcurrent]
    constructor
    · rintro ⟨approved, weight, hvoted⟩
      exact ⟨htold.known _ hvoted invoiceId rfl, hagain invoiceId approved weight hvoted⟩
    · rintro ⟨-, hmem⟩
      exact Oracle.exists_voted_of_mem_replayVoters hmem

/-- Of the replays only the tracker's status always agrees.  The others do exactly if all that
happened to a round in the latest ledger led to the status that it has, the node voted again in
every round that was opened again after its vote, and every address that was ever flagged or blocked
still is. -/
theorem replays_agree_iff {now : ℕ} {world : W} {balances : Address → ℤ} {admin stakeToken : Address}
    {minStake : ℤ} {s₀ s : Oracle.State W} {log : Oracle.Log}
    (hinit : Oracle.initializeRegistry now world balances admin stakeToken minStake = .ok s₀)
    (hrounds : Reaches (track (Oracle.execIn h) (Oracle.noteEvents h)) Oracle.InOrder (s₀, []) (s, log))
    {screenedFrom : ℕ} {officer : Address} {c : Compliance.State} {screenings : Compliance.Log}
    (hscreenings : Reaches (track Compliance.execIn Compliance.noteEvents) Compliance.InOrder
      (Compliance.initializeCompliance screenedFrom officer, []) (c, screenings))
    {table : List IndexedEvent} (hindexed : r.IndexesRounds table log)
    (hscreened : r.IndexesScreenings table screenings) {maxReplayEvents limit : ℕ}
    (hmax : log.length ≤ maxReplayEvents)
    (hlimit : (screenings.filter fun x => screeningTopic x.2 = "screened").length ≤ limit)
    (me : Address) :
    ((∀ rows, AnswersDesc table ofRegistry rows → ∀ invoiceId,
        getRound maxReplayEvents rows (r.id invoiceId).text =
          roundAnswer ((s.rounds.get invoiceId).map (·.status))) ∧
      (∀ invoiceId, (r.tracker me (log.map Prod.snd)).rounds (r.id invoiceId).text =
        (s.rounds.get invoiceId).map (·.status)) ∧
      (∀ invoiceId, (r.tracker me (log.map Prod.snd)).hasVoted (r.id invoiceId).text = true ↔
        VotedNow s me invoiceId) ∧
      ∀ rows, AnswersDesc table ofScreenings rows → ∀ text,
        text ∈ (getFlagged limit rows).map (·.address) ↔
          ∃ a, (r.address a).text = text ∧ c.Restricts a) ↔
    (∀ invoiceId, OneStatus log invoiceId) ∧
      (∀ invoiceId approved weight, Oracle.Event.voted invoiceId me approved weight ∈ log.map Prod.snd →
        me ∈ Oracle.replayVoters invoiceId (log.map Prod.snd)) ∧
      ∀ x ∈ screenings, x.2.gives.Restrictive → c.Restricts x.2.subject := by
  obtain ⟨htold, horder⟩ := Oracle.told_run hinit hrounds
  have hstatus := fun invoiceId =>
    ((follows_tracker r me (log.map Prod.snd)).rounds invoiceId).trans (htold.followed invoiceId)
  have hround := getRound_iff htold horder hindexed hmax
  have hvoted := hasVoted_iff r me htold
  have hflagged := getFlagged_iff (Compliance.told_run hscreenings) hscreened hlimit
  rw [hvoted, hflagged]
  constructor
  · rintro ⟨hrows, -, hagain, hstays⟩
    exact ⟨fun id => (hround id).1 fun rows h => hrows rows h id, hagain, hstays⟩
  · rintro ⟨hone, hagain, hstays⟩
    exact ⟨fun rows h id => (hround id).2 (hone id) rows h, hstatus, hagain, hstays⟩

end All

/-! ## A round that is opened again -/

theorem repr_injective {m n : ℕ} (h : Nat.repr m = Nat.repr n) : m = n := by
  have hdigits := congrArg String.toList h
  rw [Nat.toList_repr, Nat.toList_repr] at hdigits
  simpa using congrArg (Nat.ofDigitChars 10 · 0) hdigits

/-- Ids as numbers, addresses as text that starts with `G`, and a status as an array of its name. -/
def sampleRendering : Rendering where
  id := fun n => .num (Nat.repr n)
  address := fun a => .str ("G" ++ Nat.repr a)
  number := fun z => .num (Int.repr z)
  status := fun s => .arr [.str (match s with
    | .Unscreened => "Unscreened"
    | .Cleared => "Cleared"
    | .Flagged => "Flagged"
    | .Blocked => "Blocked"
    | .PendingReview => "PendingReview")]
  id_idText := fun _ => rfl
  id_injective := fun _ _ h => repr_injective h
  address_idText := fun _ => rfl
  address_injective := by
    intro a b h
    have hlist := congrArg String.toList h
    simp only [text, String.toList_append] at hlist
    exact repr_injective (String.toList_inj.1 (List.append_cancel_left hlist))
  address_ne_empty := by
    intro a h
    have hlist := congrArg String.toList h
    simp [text] at hlist
  id_ne_address := by
    intro n a h
    have hlist := congrArg String.toList h
    simp only [text, String.toList_append, Nat.toList_repr] at hlist
    have hmem : 'G' ∈ Nat.toDigits 10 n := by
      rw [hlist]
      simp
    have hdigit := Nat.isDigit_of_mem_toDigits (by decide) (by decide) hmem
    revert hdigit
    decide
  status_ne_null := fun _ => nofun
  status_text := by
    intro s
    cases s <;> rfl

def Rendering.roundRow (x : (ℕ × Oracle.Event) × ℕ) : IndexedEvent :=
  ⟨"registry-" ++ Nat.repr x.2, "oracle_registry", roundTopic x.1.2, r.roundValue x.1.2, x.1.1⟩

def Rendering.screeningRow (x : (ℕ × Compliance.Event) × ℕ) : IndexedEvent :=
  ⟨"compliance-" ++ Nat.repr x.2, "compliance", screeningTopic x.1.2, r.screeningValue x.1.2, x.1.1⟩

/-- A table with the events of two runs. -/
def Rendering.tableOf (log : Oracle.Log) (screenings : Compliance.Log) : List IndexedEvent :=
  log.zipIdx.map r.roundRow ++ screenings.zipIdx.map r.screeningRow

theorem indexesRounds_tableOf (log : Oracle.Log) (screenings : Compliance.Log) :
    r.IndexesRounds (r.tableOf log screenings) log := by
  have hrounds : (log.zipIdx.map r.roundRow).filter ofRegistry = log.zipIdx.map r.roundRow := by
    refine List.filter_eq_self.2 fun row hrow => ?_
    obtain ⟨x, -, rfl⟩ := List.mem_map.1 hrow
    rfl
  have hother : (screenings.zipIdx.map r.screeningRow).filter ofRegistry = [] := by
    refine List.filter_eq_nil_iff.2 fun row hrow => ?_
    obtain ⟨x, -, rfl⟩ := List.mem_map.1 hrow
    simp [ofRegistry, Rendering.screeningRow]
  unfold Rendering.IndexesRounds Rendering.tableOf
  rw [List.filter_append, hrounds, hother, List.append_nil, List.map_map]
  have hseen : (fun x : (ℕ × Oracle.Event) × ℕ => (r.roundRow x).seen) =
      (fun x => (x.1, roundTopic x.2, r.roundValue x.2)) ∘ Prod.fst := rfl
  rw [show IndexedEvent.seen ∘ r.roundRow = _ from hseen, ← List.map_map, List.zipIdx_map_fst]

theorem indexesScreenings_tableOf (log : Oracle.Log) (screenings : Compliance.Log) :
    r.IndexesScreenings (r.tableOf log screenings) screenings := by
  have hother : (log.zipIdx.map r.roundRow).filter ofScreenings = [] := by
    refine List.filter_eq_nil_iff.2 fun row hrow => ?_
    obtain ⟨x, -, rfl⟩ := List.mem_map.1 hrow
    simp [ofScreenings, Rendering.roundRow]
  unfold Rendering.IndexesScreenings Rendering.tableOf
  rw [List.filter_append, hother, List.nil_append, List.filter_map, List.map_map]
  have hseen : (fun x : (ℕ × Compliance.Event) × ℕ => (r.screeningRow x).seen) =
      (fun x => (x.1, screeningTopic x.2, r.screeningValue x.2)) ∘ Prod.fst := rfl
  have hfilter : ofScreenings ∘ r.screeningRow =
      (fun x => decide (screeningTopic x.2 = "screened")) ∘ Prod.fst := by
    funext x
    obtain ⟨⟨ledger, e⟩, i⟩ := x
    cases e with
    | screened => rfl
    | review => rfl
  rw [show IndexedEvent.seen ∘ r.screeningRow = _ from hseen, hfilter, ← List.map_map,
    ← List.filter_map, List.zipIdx_map_fst]

/-- Three oracles register in ledger 1, and oracle 3 approves invoice 7 in ledger 2. -/
def firstVote : List (ℕ × Oracle.Tx Oracle.sampleHost) :=
  [(1, ⟨[2], Oracle.self_ne_two, .set (.setInvoiceContract 2 20)⟩),
    (1, ⟨[2], Oracle.self_ne_two, .set (.setRegistryConfig 2 100 2 6600 259200 604800)⟩),
    (1, ⟨[3], Oracle.self_ne_three, .registerOracle 3 100⟩),
    (1, ⟨[4], Oracle.self_ne_four, .registerOracle 4 100⟩),
    (1, ⟨[5], Oracle.self_ne_five, .registerOracle 5 100⟩),
    (2, ⟨[9], Oracle.self_ne_nine, .openVerificationRound 9 7 []⟩),
    (2, ⟨[3], Oracle.self_ne_three, .submitVote 3 7 true⟩)]

/-- In ledger 3 the round is over its deadline; it expires and is opened again. -/
def reopened : List (ℕ × Oracle.Tx Oracle.sampleHost) :=
  firstVote ++ [(3, ⟨[], Oracle.self_notMem_nil, .advance 300000⟩),
    (3, ⟨[], Oracle.self_notMem_nil, .expireRound 7⟩),
    (3, ⟨[9], Oracle.self_ne_nine, .openVerificationRound 9 7 []⟩)]

def flaggedOnce : List (ℕ × Compliance.Tx) :=
  [(2, ⟨[1], .submitScreeningResult 1 8 .Flagged 3 .High 0 [1]⟩)]

/-- Address 8 is flagged and then cleared. -/
def clearedAgain : List (ℕ × Compliance.Tx) :=
  flaggedOnce ++ [(3, ⟨[1], .submitScreeningResult 1 8 .Cleared 0 .Low 0 [1]⟩)]

theorem exists_runs {rounds : List (ℕ × Oracle.Tx Oracle.sampleHost)} {screens : List (ℕ × Compliance.Tx)}
    {p : Oracle.State Unit × Oracle.Log → Bool} {q : Compliance.State × Compliance.Log → Bool}
    (horder : Along (track (Oracle.execIn Oracle.sampleHost) (Oracle.noteEvents _)) Oracle.InOrder
      (Oracle.sampleStart, []) rounds)
    (hrounds : check (rounds.foldlM (track (Oracle.execIn Oracle.sampleHost) (Oracle.noteEvents _))
      (Oracle.sampleStart, [])) p = true)
    (hscreensOrder : Along (track Compliance.execIn Compliance.noteEvents) Compliance.InOrder
      (Compliance.initializeCompliance 5 1, []) screens)
    (hscreens : check (screens.foldlM (track Compliance.execIn Compliance.noteEvents)
      (Compliance.initializeCompliance 5 1, [])) q = true) :
    ∃ (s : Oracle.State Unit) (log : Oracle.Log) (c : Compliance.State) (screenings : Compliance.Log),
      Reaches (track (Oracle.execIn Oracle.sampleHost) (Oracle.noteEvents _)) Oracle.InOrder
        (Oracle.sampleStart, []) (s, log) ∧
      Reaches (track Compliance.execIn Compliance.noteEvents) Compliance.InOrder
        (Compliance.initializeCompliance 5 1, []) (c, screenings) ∧
      p (s, log) = true ∧ q (c, screenings) = true := by
  obtain ⟨⟨s, log⟩, hs, hp⟩ := exists_of_check hrounds
  obtain ⟨⟨c, screenings⟩, hc, hq⟩ := exists_of_check hscreens
  exact ⟨s, log, c, screenings, reaches_of_along .refl horder hs,
    reaches_of_along .refl hscreensOrder hc, hp, hq⟩

theorem replays_agree_iff_firstVote :
    ∃ (s : Oracle.State Unit) (log : Oracle.Log) (c : Compliance.State) (screenings : Compliance.Log),
      (s.rounds.get 7).map (·.status) = some .Open ∧ log.length = 7 ∧ c.Restricts 8 ∧
      (∀ rows, AnswersDesc (sampleRendering.tableOf log screenings) ofRegistry rows → ∀ invoiceId,
        getRound 100000 rows (sampleRendering.id invoiceId).text =
          roundAnswer ((s.rounds.get invoiceId).map (·.status))) := by
  obtain ⟨s, log, c, screenings, hrounds, hscreened, hp, hq⟩ := exists_runs
    (p := fun x => decide ((x.1.rounds.get 7).map (·.status) = some .Open ∧
      x.2 = [(1, .notice "inv_set" 20), (1, .notice "cfg_upd" 2), (1, .notice "registrd" 3),
        (1, .notice "registrd" 4), (1, .notice "registrd" 5), (2, .rndOpen 7 3 300),
        (2, .voted 7 3 true 100)]))
    (q := fun x => decide (x.1.Restricts 8 ∧ x.2 = [(2, .screened 8 .Flagged 3 1 15552005)]))
    (show Along _ _ _ firstVote by decide) (by decide)
    (show Along _ _ _ flaggedOnce by decide) (by decide)
  obtain ⟨hopen, hlog⟩ := of_decide_eq_true hp
  obtain ⟨hrestricts, hscreenings⟩ := of_decide_eq_true hq
  dsimp only at hopen hlog hrestricts hscreenings
  subst hlog hscreenings
  have hagree := replays_agree_iff sampleRendering Oracle.initializeRegistry_sampleStart hrounds
    hscreened (indexesRounds_tableOf _ _ _) (indexesScreenings_tableOf _ _ _)
    (show _ ≤ 100000 by decide) (show _ ≤ 100 by decide) 3
  refine ⟨s, _, c, _, hopen, rfl, hrestricts, (hagree.2 ⟨fun id x status hx => ?_, ?_, ?_⟩).1⟩
  · obtain ⟨hmem, htakes, -⟩ := hx
    simp only [List.mem_cons, List.not_mem_nil, or_false] at hmem
    rcases hmem with rfl | rfl | rfl | rfl | rfl | rfl | rfl
    case inr.inr.inr.inr.inr.inl =>
      rw [Oracle.Event.takes] at htakes
      split_ifs at htakes with hid
      obtain rfl := Option.some.inj hid
      exact htakes
    all_goals simp [Oracle.Event.takes, Oracle.Event.leadsTo] at htakes
  · intro invoiceId approved weight hmem
    simp only [List.map_cons, List.map_nil, List.mem_cons, reduceCtorEq, List.not_mem_nil, or_false,
      false_or, Oracle.Event.voted.injEq] at hmem
    obtain ⟨rfl, -⟩ := hmem
    decide
  · intro x hx _
    rw [List.mem_singleton] at hx
    rw [hx]
    exact hrestricts

/-- In ledger 3 the round of invoice 7 expires and is opened again, without the vote of oracle 3,
and address 8 is cleared.  The endpoint may answer that the round is expired, the tracker still has
the vote of the round before, and the address is still listed. -/
theorem reopened_round_misread :
    ∃ (s : Oracle.State Unit) (log : Oracle.Log) (c : Compliance.State) (screenings : Compliance.Log),
      Reaches (track (Oracle.execIn Oracle.sampleHost) (Oracle.noteEvents _)) Oracle.InOrder
        (Oracle.sampleStart, []) (s, log) ∧
      Reaches (track Compliance.execIn Compliance.noteEvents) Compliance.InOrder
        (Compliance.initializeCompliance 5 1, []) (c, screenings) ∧
      sampleRendering.IndexesRounds (sampleRendering.tableOf log screenings) log ∧
      sampleRendering.IndexesScreenings (sampleRendering.tableOf log screenings) screenings ∧
      (s.rounds.get 7).map (·.status) = some .Open ∧
      (∃ rows, AnswersDesc (sampleRendering.tableOf log screenings) ofRegistry rows ∧
        getRound 100000 rows "7" ≠ .ok (some .Open)) ∧
      (sampleRendering.tracker 3 (log.map Prod.snd)).hasVoted "7" = true ∧ ¬ VotedNow s 3 7 ∧
      ¬ c.Restricts 8 ∧ ∃ rows, AnswersDesc (sampleRendering.tableOf log screenings) ofScreenings rows ∧
        "G8" ∈ (getFlagged 100 rows).map (·.address) := by
  obtain ⟨s, log, c, screenings, hrounds, hscreened, hp, hq⟩ := exists_runs
    (p := fun x => decide ((x.1.rounds.get 7).map (·.status) = some .Open ∧
      (x.1.rounds.get 7).all (fun round => (round.votes.get 3).isNone) ∧
      x.2 = [(1, .notice "inv_set" 20), (1, .notice "cfg_upd" 2), (1, .notice "registrd" 3),
        (1, .notice "registrd" 4), (1, .notice "registrd" 5), (2, .rndOpen 7 3 300),
        (2, .voted 7 3 true 100), (3, .rndExp 7), (3, .rndOpen 7 3 300)]))
    (q := fun x => decide (¬ x.1.Restricts 8 ∧ x.2 = [(2, .screened 8 .Flagged 3 1 15552005),
      (3, .screened 8 .Cleared 0 1 15552005)]))
    (show Along _ _ _ reopened by decide) (by decide)
    (show Along _ _ _ clearedAgain by decide) (by decide)
  obtain ⟨hopen, hfresh, hlog⟩ := of_decide_eq_true hp
  obtain ⟨hcleared, hscreenings⟩ := of_decide_eq_true hq
  dsimp only at hopen hfresh hlog hcleared hscreenings
  obtain ⟨htold, horder⟩ := Oracle.told_run Oracle.initializeRegistry_sampleStart hrounds
  have hround := getRound_iff htold horder (indexesRounds_tableOf sampleRendering log screenings)
    (show log.length ≤ 100000 by rw [hlog]; decide) 7
  have hlimit : (screenings.filter fun x => screeningTopic x.2 = "screened").length ≤ 100 := by
    rw [hscreenings]
    decide
  refine ⟨s, log, c, screenings, hrounds, hscreened, indexesRounds_tableOf _ _ _,
    indexesScreenings_tableOf _ _ _, hopen, ?_, ?_, ?_, hcleared, ?_⟩
  · -- the expiry is in the latest ledger too
    by_contra hall
    rw [hopen] at hround
    have hone := hround.1 (fun rows hrows => by
      by_contra hne
      exact hall ⟨rows, hrows, hne⟩) (3, .rndExp 7) .Expired ⟨by simp [hlog], rfl, by
        rw [hlog]
        decide⟩
    rw [hlog] at hone
    revert hone
    decide
  · rw [hlog]
    decide
  · rintro ⟨round, hget, hvote⟩
    rw [hget, Option.all_some, Option.isNone_iff_eq_none] at hfresh
    rw [hfresh] at hvote
    cases hvote
  · refine ⟨_, answersDesc_screenings _, ?_⟩
    refine (mem_getFlagged (indexesScreenings_tableOf sampleRendering log screenings) hlimit
      (answersDesc_screenings _) "G8").2 ⟨(2, .screened 8 .Flagged 3 1 15552005), ?_, .inl rfl, ?_⟩
    · rw [hscreenings]
      simp
    · decide

end Astera.Indexer
