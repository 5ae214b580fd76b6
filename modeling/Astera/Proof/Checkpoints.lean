import Astera.Share.Contract

/-!
# Balances of the past

`History` is what happened to the balances, the newest first.  The checkpoints of a holder are the
newest entries of its log, one for each time at which it was touched.  `balance_at` finds the entry
in force at a time; before the oldest it returns the balance of that one.
-/

namespace Astera.Share

open Fallible Machine Transition

/-! ## What happened to the balances -/

structure Event where
  timestamp : ℕ
  touched : List Address
  balance : Address → ℤ

/-- The operations, the newest first. -/
abbrev History := List Event

/-- The holders whose balances a call writes. -/
def Call.touched : Call → List Address
  | .mint receiver _ => [receiver]
  | .burn holder _ => [holder]
  | .burnFrom _ owner _ => [owner]
  | .transfer sender receiver _ => [sender, receiver]
  | .transferFrom _ owner receiver _ => [owner, receiver]
  | _ => []

namespace History

/-- The balance after the last operation up to a time, and nothing before the first one. -/
def balanceOn (h : History) (holder : Address) (timestamp : ℕ) : ℤ :=
  ((h.find? fun e => e.timestamp ≤ timestamp).map fun e => e.balance holder).getD 0

/-- The number of times at which a holder was touched. -/
def produced (h : History) (holder : Address) : ℕ :=
  ((h.filter fun e => holder ∈ e.touched).map fun e => e.timestamp).toFinset.card

/-- The balance that the last operation left. -/
def latest (h : History) (holder : Address) : ℤ := (h.head?.map fun e => e.balance holder).getD 0

/-- The operations are in order, and each changes only the balances it touches. -/
def Steady : History → Prop
  | [] => True
  | e :: es =>
    (∀ a, a ∉ e.touched → e.balance a = latest es a) ∧
    (∀ e' ∈ es, e'.timestamp ≤ e.timestamp) ∧ Steady es

def note (c : Contract) (tx : Tx) (c' : Contract) (h : History) : History :=
  if tx.call.touched = [] then h
  else ⟨c.timestamp, tx.call.touched, c'.token.balance⟩ :: h

end History

def remembered : Contract × History → Tx → Except ShareTrap (Contract × History) :=
  track exec History.note

/-! ## The log of a holder -/

/-- The log with a new balance: an entry of the same time is overwritten. -/
def record (now : ℕ) (balance : ℤ) : List (ℕ × ℤ) → List (ℕ × ℤ)
  | [] => [(now, balance)]
  | x :: log => if x.1 = now then (now, balance) :: log else (now, balance) :: x :: log

/-- The log of a holder, the newest entry first. -/
def logOf (holder : Address) : History → List (ℕ × ℤ)
  | [] => []
  | e :: es =>
    if holder ∈ e.touched then record e.timestamp (e.balance holder) (logOf holder es)
    else logOf holder es

/-- The times of a log go down. -/
def Descending (log : List (ℕ × ℤ)) : Prop := log.Pairwise fun x y => y.1 < x.1

section Log

variable {now : ℕ} {balance : ℤ} {log : List (ℕ × ℤ)} {holder : Address} {h : History}

theorem record_cons (x : ℕ × ℤ) :
    record now balance (x :: log) =
      if x.1 = now then (now, balance) :: log else (now, balance) :: x :: log := rfl

theorem mem_times_record (time : ℕ) :
    time ∈ (record now balance log).map Prod.fst ↔ time = now ∨ time ∈ log.map Prod.fst := by
  cases log with
  | nil => simp [record]
  | cons x log =>
    rw [record_cons]
    split_ifs with heq
    · simp only [List.map_cons, List.mem_cons, heq]
      tauto
    · simp only [List.map_cons, List.mem_cons]

theorem Descending.record (hd : Descending log) (hle : ∀ time ∈ log.map Prod.fst, time ≤ now) :
    Descending (record now balance log) := by
  cases log with
  | nil => simp [Share.record, Descending]
  | cons x log =>
    have hx : x.1 ≤ now := hle x.1 (by simp)
    unfold Descending at hd ⊢
    obtain ⟨hhead, htail⟩ := List.pairwise_cons.1 hd
    rw [record_cons]
    split_ifs with heq
    · refine List.pairwise_cons.2 ⟨fun y hy => ?_, htail⟩
      exact (hhead y hy).trans_le hx
    · refine List.pairwise_cons.2 ⟨fun y hy => ?_, hd⟩
      have hlt : x.1 < now := lt_of_le_of_ne hx heq
      rcases List.mem_cons.1 hy with rfl | hy
      · exact hlt
      · exact (hhead y hy).trans hlt

theorem record_record (b b' : ℤ) (log : List (ℕ × ℤ)) :
    record now b' (record now b log) = record now b' log := by
  cases log with
  | nil => simp [record]
  | cons x log =>
    by_cases heq : x.1 = now
    · simp [record, heq]
    · simp [record, heq]

theorem mem_times_logOf (time : ℕ) :
    time ∈ (logOf holder h).map Prod.fst ↔
      time ∈ (h.filter fun e => holder ∈ e.touched).map fun e => e.timestamp := by
  induction h with
  | nil => rfl
  | cons e es ih =>
    unfold logOf
    by_cases ht : holder ∈ e.touched
    · rw [if_pos ht, mem_times_record, ih, List.filter_cons_of_pos (by simpa using ht),
        List.map_cons, List.mem_cons]
    · rw [if_neg ht, ih, List.filter_cons_of_neg (by simpa using ht)]

theorem time_le_of_mem_logOf {bound : ℕ} (hle : ∀ e ∈ h, e.timestamp ≤ bound) :
    ∀ time ∈ (logOf holder h).map Prod.fst, time ≤ bound := by
  intro time hmem
  rw [mem_times_logOf] at hmem
  obtain ⟨e, he, rfl⟩ := List.mem_map.1 hmem
  exact hle e (List.mem_of_mem_filter he)

theorem descending_logOf (hs : h.Steady) : Descending (logOf holder h) := by
  induction h with
  | nil => exact List.Pairwise.nil
  | cons e es ih =>
    obtain ⟨-, hle, hs⟩ := hs
    unfold logOf
    split_ifs with ht
    · exact (ih hs).record (time_le_of_mem_logOf hle)
    · exact ih hs

theorem produced_eq_length (hs : h.Steady) : h.produced holder = (logOf holder h).length := by
  have hnodup : ((logOf holder h).map Prod.fst).Nodup := by
    rw [List.nodup_iff_pairwise_ne, List.pairwise_map]
    exact (descending_logOf hs).imp fun hlt => hlt.ne'
  have hset : ((h.filter fun e => holder ∈ e.touched).map fun e => e.timestamp).toFinset =
      ((logOf holder h).map Prod.fst).toFinset := by
    ext time
    rw [List.mem_toFinset, List.mem_toFinset, mem_times_logOf]
  unfold History.produced
  rw [hset, List.toFinset_card_of_nodup hnodup, List.length_map]

def inForce (log : List (ℕ × ℤ)) (time : ℕ) : ℤ :=
  ((log.find? fun x => x.1 ≤ time).map Prod.snd).getD 0

theorem inForce_record_of_le {time : ℕ} (hle : now ≤ time) :
    inForce (record now balance log) time = balance := by
  cases log with
  | nil => simp [record, inForce, hle]
  | cons x log =>
    rw [record_cons]
    split_ifs <;> simp [inForce, hle]

theorem inForce_record_of_lt {time : ℕ} (hlt : time < now) :
    inForce (record now balance log) time = inForce log time := by
  cases log with
  | nil => simp [record, inForce, hlt]
  | cons x log =>
    rw [record_cons]
    split_ifs with heq
    · simp [inForce, hlt, heq]
    · simp [inForce, hlt]

theorem balanceOn_of_le {time : ℕ} (hle : ∀ e ∈ h, e.timestamp ≤ time) :
    h.balanceOn holder time = h.latest holder := by
  cases h with
  | nil => rfl
  | cons e es =>
    have he : e.timestamp ≤ time := hle e (by simp)
    simp [History.balanceOn, History.latest, he]

theorem inForce_logOf (hs : h.Steady) (time : ℕ) :
    inForce (logOf holder h) time = h.balanceOn holder time := by
  induction h with
  | nil => rfl
  | cons e es ih =>
    obtain ⟨hother, hle, hs⟩ := hs
    unfold logOf
    by_cases hnow : e.timestamp ≤ time
    · have hon : History.balanceOn (e :: es) holder time = e.balance holder := by
        simp [History.balanceOn, hnow]
      split_ifs with ht
      · rw [inForce_record_of_le hnow, hon]
      · rw [ih hs, hon, hother holder ht]
        exact balanceOn_of_le fun e' he' => (hle e' he').trans hnow
    · have hon : History.balanceOn (e :: es) holder time = History.balanceOn es holder time := by
        simp [History.balanceOn, hnow]
      rw [hon, ← ih hs]
      split_ifs with ht
      · exact inForce_record_of_lt (not_le.1 hnow)
      · rfl

end Log

/-! ## The checkpoints are the newest entries of the log -/

/-- The buffer holds the newest entries of a log; it starts at its first slot until it is full. -/
structure Represents (c : Checkpoints) (log : List (ℕ × ℤ)) : Prop where
  contents : c.entries.rotate c.head = (log.take maxCheckpoints).reverse
  head_lt : c.head < maxCheckpoints
  aligned : c.entries.length < maxCheckpoints → c.head = 0

def Checkpoints.oldest (c : Checkpoints) : Option (ℕ × ℤ) :=
  c.entries[if maxCheckpoints ≤ c.entries.length then c.head else 0]?

theorem maxCheckpoints_pos : 0 < maxCheckpoints := by decide

namespace Represents

variable {c : Checkpoints} {log : List (ℕ × ℤ)}

theorem empty : Represents {} [] := ⟨rfl, maxCheckpoints_pos, fun _ => rfl⟩

theorem length_eq (hr : Represents c log) :
    c.entries.length = min maxCheckpoints log.length := by
  have hlen := congrArg List.length hr.contents
  rwa [List.length_rotate, List.length_reverse, List.length_take] at hlen

theorem newest_index (hr : Represents c log) (hlen : c.entries.length ≠ 0) :
    (if c.entries.length < maxCheckpoints then c.entries.length - 1
      else (c.head + c.entries.length - 1) % c.entries.length) =
      (c.head + c.entries.length - 1) % c.entries.length := by
  split_ifs with hgrow
  · rw [hr.aligned hgrow, Nat.zero_add, Nat.mod_eq_of_lt (by omega)]
  · rfl

theorem newest (hr : Represents c log) (hlen : 0 < c.entries.length) :
    c.entries[(c.head + c.entries.length - 1) % c.entries.length]? = log.head? := by
  rw [← RingBuffer.getLast?_rotate _ _ hlen, hr.contents, List.getLast?_reverse, List.head?_take,
    if_neg maxCheckpoints_pos.ne']

theorem overwrite {x y : ℕ × ℤ} (hr : Represents c (y :: log)) (hlen : 0 < c.entries.length) :
    Represents
      { c with
        entries := c.entries.set ((c.head + c.entries.length - 1) % c.entries.length) x }
      (x :: log) := by
  refine ⟨?_, hr.head_lt, fun hgrow => hr.aligned (by simpa using hgrow)⟩
  obtain ⟨n, hn⟩ := Nat.exists_eq_succ_of_ne_zero maxCheckpoints_pos.ne'
  show (c.entries.set _ x).rotate c.head = _
  rw [RingBuffer.rotate_set_newest _ _ hlen, hr.contents, hn]
  simp

theorem append {x : ℕ × ℤ} (hr : Represents c log) (hroom : c.entries.length < maxCheckpoints) :
    Represents { c with entries := c.entries ++ [x] } (x :: log) := by
  have hhead := hr.aligned hroom
  have hlen := hr.length_eq
  have hcontents := hr.contents
  rw [hhead, List.rotate_zero, List.take_of_length_le (by omega)] at hcontents
  refine ⟨?_, hr.head_lt, fun _ => hhead⟩
  show (c.entries ++ [x]).rotate c.head = _
  rw [hhead, List.rotate_zero, hcontents, List.take_of_length_le (by simp; omega),
    List.reverse_cons]

theorem wrap {x : ℕ × ℤ} (hr : Represents c log) (hfull : ¬ c.entries.length < maxCheckpoints) :
    Represents
      { entries := c.entries.set c.head x, head := (c.head + 1) % maxCheckpoints }
      (x :: log) := by
  have hlen : c.entries.length = maxCheckpoints := by
    have := hr.length_eq
    omega
  refine ⟨?_, Nat.mod_lt _ maxCheckpoints_pos, fun hgrow => absurd (by simpa using hgrow) hfull⟩
  show (c.entries.set c.head x).rotate ((c.head + 1) % maxCheckpoints) = _
  have hset := RingBuffer.rotate_set_oldest c.entries c.head (by have := hr.head_lt; omega) x
  rw [hlen] at hset
  obtain ⟨n, hn⟩ := Nat.exists_eq_succ_of_ne_zero maxCheckpoints_pos.ne'
  have htake : (log.take maxCheckpoints).reverse.tail = (log.take n).reverse := by
    have hmin := hr.length_eq
    rw [List.tail_reverse, List.dropLast_eq_take, List.take_take, List.length_take]
    congr 2
    omega
  rw [hset, hr.contents, htake, hn]
  simp

theorem write (hr : Represents c log) (now : ℕ) (balance : ℤ) :
    Represents (writeCheckpoint c now balance) (record now balance log) := by
  unfold writeCheckpoint
  by_cases hlen : c.entries.length = 0
  · have hlog : log = [] := by
      have hmin := hr.length_eq
      have hpos := maxCheckpoints_pos
      exact List.length_eq_zero_iff.1 (by omega)
    have hroom : c.entries.length < maxCheckpoints := hlen ▸ maxCheckpoints_pos
    simp only [hlen, ne_eq, not_true_eq_false, false_and, if_false, if_pos maxCheckpoints_pos]
    rw [hlog] at hr ⊢
    exact hr.append hroom
  · have hpos : 0 < c.entries.length := Nat.pos_of_ne_zero hlen
    simp only [hr.newest_index hlen, hr.newest hpos, ne_eq, hlen, not_false_eq_true, true_and]
    cases log with
    | nil =>
      have hmin := hr.length_eq
      simp only [List.length_nil] at hmin
      omega
    | cons y log =>
      rw [record_cons]
      simp only [List.head?_cons, Option.map_some, Option.some.injEq]
      by_cases hnow : y.1 = now
      · rw [if_pos hnow, if_pos hnow]
        exact hr.overwrite hpos
      · rw [if_neg hnow, if_neg hnow]
        split_ifs with hroom
        · exact hr.append hroom
        · exact hr.wrap hroom

theorem slot (hr : Represents c log) {i : ℕ} (hi : i < c.entries.length) :
    c.entries[if maxCheckpoints ≤ c.entries.length then (c.head + i) % maxCheckpoints else i]? =
      (log.take maxCheckpoints).reverse[i]? := by
  rw [← hr.contents, List.getElem?_rotate hi]
  split_ifs with hfull
  · have hlen : c.entries.length = maxCheckpoints := by
      have := hr.length_eq
      omega
    rw [hlen, Nat.add_comm]
  · rw [hr.aligned (not_le.1 hfull), Nat.add_zero, Nat.mod_eq_of_lt hi]

theorem oldest_eq (hr : Represents c log) (hlen : 0 < c.entries.length) :
    c.oldest = (log.take maxCheckpoints).reverse[0]? := by
  have hslot := hr.slot hlen
  rw [Nat.add_zero, Nat.mod_eq_of_lt hr.head_lt] at hslot
  exact hslot

theorem pos_of_oldest {o : ℕ × ℤ} (ho : c.oldest = some o) : 0 < c.entries.length := by
  rw [Nat.pos_iff_ne_zero]
  intro hzero
  rw [Checkpoints.oldest, List.length_eq_zero_iff.1 hzero] at ho
  simp at ho

theorem eq_nil_of_oldest (hr : Represents c log) (ho : c.oldest = none) :
    c.entries.length = 0 ∧ log = [] := by
  have hmin := hr.length_eq
  have hpos := maxCheckpoints_pos
  have hlt := hr.head_lt
  unfold Checkpoints.oldest at ho
  rw [List.getElem?_eq_none_iff] at ho
  have hlen : c.entries.length = 0 := by
    split_ifs at ho <;> omega
  exact ⟨hlen, List.length_eq_zero_iff.1 (by omega)⟩

theorem oldest_le (hr : Represents c log) (hd : Descending log) {o : ℕ × ℤ}
    (ho : c.oldest = some o) :
    o ∈ log.take maxCheckpoints ∧ ∀ x ∈ log.take maxCheckpoints, o.1 ≤ x.1 := by
  rw [hr.oldest_eq (pos_of_oldest ho)] at ho
  obtain ⟨rest, hrest⟩ : ∃ rest, (log.take maxCheckpoints).reverse = o :: rest := by
    cases hc : (log.take maxCheckpoints).reverse with
    | nil => simp [hc] at ho
    | cons x xs =>
      rw [hc] at ho
      exact ⟨xs, by simpa using ho⟩
  have hup : (log.take maxCheckpoints).reverse.Pairwise fun x y => x.1 < y.1 :=
    List.pairwise_reverse.2 (hd.sublist (List.take_sublist _ _))
  have hmem : ∀ x, x ∈ log.take maxCheckpoints ↔ x ∈ o :: rest := by
    intro x
    rw [← hrest, List.mem_reverse]
  rw [hrest] at hup
  refine ⟨(hmem o).2 List.mem_cons_self, fun x hx => ?_⟩
  rcases List.mem_cons.1 ((hmem x).1 hx) with rfl | hx
  · exact le_rfl
  · exact ((List.pairwise_cons.1 hup).1 x hx).le

theorem balanceAt_eq (hr : Represents c log) (hd : Descending log) (time : ℕ) {o : ℕ × ℤ}
    (ho : c.oldest = some o) :
    balanceAt c time =
      .ok (((log.take maxCheckpoints).find? fun x => x.1 ≤ time).getD o).2 := by
  have hpos := pos_of_oldest ho
  have hlen : c.entries.length = (log.take maxCheckpoints).reverse.length := by
    rw [← hr.contents, List.length_rotate]
  have hup : (log.take maxCheckpoints).reverse.Pairwise
      fun x y => decide (y.1 ≤ time) = true → decide (x.1 ≤ time) = true := by
    refine List.pairwise_reverse.2 ((hd.sublist (List.take_sublist _ _)).imp fun hlt h => ?_)
    rw [decide_eq_true_eq] at h ⊢
    exact hlt.le.trans h
  obtain ⟨r, hsearch, hle, hfind⟩ := RingBuffer.exists_search ShareTrap.unwrap
    (fun i hi => hr.slot (hlen.symm ▸ hi)) hup
  rw [List.reverse_reverse] at hfind
  rw [← hlen] at hsearch hle
  unfold balanceAt
  simp only [hpos.ne', if_false, hfind]
  rw [hsearch]
  show (if r = 0 then _ else _) = _
  by_cases hzero : r = 0
  · rw [Checkpoints.oldest] at ho
    rw [if_pos hzero, if_pos hzero, ho]
    rfl
  · have hlt : r - 1 < c.entries.length := by omega
    rw [if_neg hzero, if_neg hzero, hr.slot hlt, List.getElem?_eq_getElem (hlen ▸ hlt)]
    rfl

end Represents

/-! ## Runs -/

/-- The balances of the listed holders are adjusted, one after the other. -/
inductive Adjusts (now : ℕ) : List Address → ShareToken → ShareToken → Prop
  | nil {t t' : ShareToken} (hb : t'.balances = t.balances) (hc : t'.checkpoints = t.checkpoints) :
      Adjusts now [] t t'
  | cons {t t' : ShareToken} {a : Address} {delta : ℤ} {rest : List Address}
      (hb : 0 ≤ t.balance a + delta) (hs : t.totalSupply + delta < 2 ^ 127)
      (hrest : Adjusts now rest (t.adjust a delta hb hs now) t') : Adjusts now (a :: rest) t t'

section Adjust

variable {now : ℕ} {touched : List Address} {t t' : ShareToken} {a : Address}

theorem adjusts_burn {authorized : Address → Bool} {amount : ℤ}
    (h : t.burn authorized now a amount = .ok t') : Adjusts now [a] t t' := by
  obtain ⟨-, -, -, -, hb, hs, rfl⟩ := ShareToken.burn_eq_ok_iff.1 h
  exact .cons hb hs (.nil rfl rfl)

theorem adjusts_transfer {authorized : Address → Bool} {receiver : Address} {amount : ℤ}
    (h : t.transfer authorized now a receiver amount = .ok t') :
    Adjusts now [a, receiver] t t' := by
  obtain ⟨-, hb, hs, hb', hs', rfl⟩ := ShareToken.transfer_eq_ok h
  exact .cons hb hs (.cons hb' hs' (.nil rfl rfl))

theorem Adjusts.untouched (h : Adjusts now touched t t') (ha : a ∉ touched) :
    t'.balance a = t.balance a ∧ t'.checkpoints a = t.checkpoints a := by
  induction h with
  | nil hb hc =>
    unfold ShareToken.balance
    rw [hb, hc]
    exact ⟨rfl, rfl⟩
  | @cons t t' b delta rest hb hs hrest ih =>
    obtain ⟨hne, hrest⟩ : a ≠ b ∧ a ∉ rest := by simpa using ha
    obtain ⟨hbalance, hcheckpoints⟩ := ih hrest
    rw [hbalance, hcheckpoints, ShareToken.balance_adjust, if_neg hne, add_zero]
    exact ⟨rfl, Function.update_of_ne hne _ _⟩

theorem Adjusts.represents (h : Adjusts now touched t t') (ha : a ∈ touched)
    {log : List (ℕ × ℤ)} (hr : Represents (t.checkpoints a) log) :
    Represents (t'.checkpoints a) (record now (t'.balance a) log) := by
  induction h generalizing log with
  | nil => cases ha
  | @cons t t' b delta rest hb hs hrest ih =>
    by_cases hab : a = b
    · subst hab
      have hbalance : (t.adjust a delta hb hs now).balance a = t.balance a + delta := by
        rw [ShareToken.balance_adjust, if_pos rfl]
      have hwrite : Represents ((t.adjust a delta hb hs now).checkpoints a)
          (record now (t.balance a + delta) log) := by
        show Represents (Function.update t.checkpoints a _ a) _
        rw [Function.update_self]
        exact hr.write now _
      by_cases hin : a ∈ rest
      · rw [← record_record (t.balance a + delta)]
        exact ih hin hwrite
      · obtain ⟨hsame, hcheckpoints⟩ := hrest.untouched hin
        rw [hsame, hcheckpoints, hbalance]
        exact hwrite
    · have hin : a ∈ rest := (List.mem_cons.1 ha).resolve_left hab
      apply ih hin
      show Represents (Function.update t.checkpoints b _ a) _
      rw [Function.update_of_ne hab]
      exact hr

end Adjust

section Step

variable {c c' : Contract} {h : History} {tx : Tx}

theorem exec_adjusts (hstep : exec c tx = .ok c') :
    Adjusts c.timestamp tx.call.touched c.token c'.token ∧ c.timestamp ≤ c'.timestamp := by
  obtain ⟨signers, call⟩ := tx
  cases call with
  | mint receiver amount =>
    obtain ⟨t, hmint, rfl⟩ := withToken_eq_ok.1 hstep
    obtain ⟨-, hb, hs, rfl⟩ := ShareToken.mint_eq_ok hmint
    exact ⟨.cons hb hs (.nil rfl rfl), le_rfl⟩
  | burn holder amount =>
    obtain ⟨t, hburn, rfl⟩ := withToken_eq_ok.1 hstep
    exact ⟨adjusts_burn hburn, le_rfl⟩
  | burnFrom spender owner amount =>
    obtain ⟨-, -, -, -, -, t, hburn, rfl⟩ := burnFrom_eq_ok.1 hstep
    exact ⟨adjusts_burn hburn, le_rfl⟩
  | transfer sender receiver amount =>
    obtain ⟨t, htransfer, rfl⟩ := withToken_eq_ok.1 hstep
    exact ⟨adjusts_transfer htransfer, le_rfl⟩
  | transferFrom spender owner receiver amount =>
    obtain ⟨-, -, -, -, -, t, htransfer, rfl⟩ := transferFrom_eq_ok.1 hstep
    exact ⟨adjusts_transfer htransfer, le_rfl⟩
  | approve owner spender amount expirationLedger =>
    obtain rfl := approve_eq_ok hstep
    exact ⟨.nil rfl rfl, le_rfl⟩
  | increaseAllowance owner spender amount =>
    obtain ⟨-, -, rfl⟩ := increaseAllowance_eq_ok hstep
    exact ⟨.nil rfl rfl, le_rfl⟩
  | decreaseAllowance owner spender amount =>
    obtain ⟨-, -, rfl⟩ := decreaseAllowance_eq_ok hstep
    exact ⟨.nil rfl rfl, le_rfl⟩
  | pause admin | unpause admin =>
    obtain rfl := setPaused_eq_ok hstep
    exact ⟨.nil rfl rfl, le_rfl⟩
  | setAdmin newAdmin =>
    obtain rfl := setAdmin_eq_ok hstep
    exact ⟨.nil rfl rfl, le_rfl⟩
  | advance ledgers seconds =>
    obtain rfl := Except.ok.inj hstep
    exact ⟨.nil rfl rfl, Nat.le_add_right _ _⟩

/-- The contract agrees with the history: it ended in the present balances, and the checkpoints are
those of the logs. -/
structure Faithful (c : Contract) (h : History) : Prop where
  steady : h.Steady
  past : ∀ e ∈ h, e.timestamp ≤ c.timestamp
  current : ∀ a, c.token.balance a = h.latest a
  kept : ∀ a, Represents (c.token.checkpoints a) (logOf a h)

theorem faithful_fresh (admin : Address) (sequence timestamp : ℕ) :
    Faithful (Contract.fresh admin sequence timestamp) [] :=
  ⟨trivial, fun _ he => absurd he List.not_mem_nil, fun a => ShareToken.balance_fresh admin a,
    fun _ => .empty⟩

theorem Faithful.step (hf : Faithful c h) (hstep : exec c tx = .ok c') :
    Faithful c' (h.note c tx c') := by
  obtain ⟨hadj, hclock⟩ := exec_adjusts hstep
  have hpast : ∀ e ∈ h, e.timestamp ≤ c'.timestamp := fun e he => (hf.past e he).trans hclock
  unfold History.note
  split_ifs with hquiet
  · rw [hquiet] at hadj
    refine ⟨hf.steady, hpast, fun a => ?_, fun a => ?_⟩
    · rw [(hadj.untouched List.not_mem_nil).1, hf.current]
    · rw [(hadj.untouched List.not_mem_nil).2]
      exact hf.kept a
  · refine ⟨⟨fun a ha => ?_, hf.past, hf.steady⟩, fun e he => ?_, fun a => rfl, fun a => ?_⟩
    · rw [← hf.current a]
      exact (hadj.untouched ha).1
    · rcases List.mem_cons.1 he with rfl | he
      · exact hclock
      · exact hpast e he
    · unfold logOf
      split_ifs with ha
      · exact hadj.represents ha (hf.kept a)
      · rw [(hadj.untouched ha).2]
        exact hf.kept a

end Step

theorem faithful_of_reaches (admin : Address) (sequence timestamp : ℕ) {c : Contract} {h : History}
    (hrun : Reaches remembered (fun _ _ => True) (Contract.fresh admin sequence timestamp, [])
      (c, h)) : Faithful c h := by
  refine hrun.invariant (P := fun x => Faithful x.1 x.2) (faithful_fresh _ _ _) ?_
  intro x tx y hx _ hstep
  obtain ⟨hstep, hnote⟩ := (track_eq_ok _ _ _ _ _).1 hstep
  rw [hnote]
  exact hx.step hstep

theorem inForce_of_oldest_le {c : Checkpoints} {log : List (ℕ × ℤ)} {o : ℕ × ℤ} {time : ℕ}
    (hr : Represents c log) (hd : Descending log) (ho : c.oldest = some o) (hle : o.1 ≤ time) :
    balanceAt c time = .ok (inForce log time) := by
  obtain ⟨hmem, -⟩ := hr.oldest_le hd ho
  obtain ⟨x, hx⟩ : ∃ x, (log.take maxCheckpoints).find? (fun x => x.1 ≤ time) = some x := by
    rw [← Option.isSome_iff_exists, List.find?_isSome]
    exact ⟨o, hmem, by simpa using hle⟩
  have hlog : log.find? (fun x => x.1 ≤ time) = some x := by
    rw [← List.take_append_drop maxCheckpoints log, List.find?_append, hx, Option.some_or]
  rw [hr.balanceAt_eq hd time ho, hx, inForce, hlog]
  rfl

theorem balanceAt_of_lt_oldest {c : Checkpoints} {log : List (ℕ × ℤ)} {o : ℕ × ℤ} {time : ℕ}
    (hr : Represents c log) (hd : Descending log) (ho : c.oldest = some o) (hlt : time < o.1) :
    (log.take maxCheckpoints).find? (fun x => x.1 ≤ time) = none ∧ balanceAt c time = .ok o.2 := by
  have hnone : (log.take maxCheckpoints).find? (fun x => x.1 ≤ time) = none := by
    rw [List.find?_eq_none]
    intro x hx
    have hx' := (hr.oldest_le hd ho).2 x hx
    simp only [decide_eq_true_eq, not_le]
    omega
  refine ⟨hnone, ?_⟩
  rw [hr.balanceAt_eq hd time ho, hnone]
  rfl

/-- In every run, for every holder and every time for which the checkpoints have not been dropped,
`balance_at` returns the balance of that time exactly when the time is not before the oldest
checkpoint of the holder, unless that checkpoint has the balance zero. -/
theorem balanceAt_true_iff (admin : Address) (sequence timestamp : ℕ) {c : Contract} {h : History}
    (hrun : Reaches remembered (fun _ _ => True) (Contract.fresh admin sequence timestamp, [])
      (c, h)) (holder : Address) (time : ℕ)
    (hkept : h.produced holder ≤ maxCheckpoints ∨
      ∃ o, (c.token.checkpoints holder).oldest = some o ∧ o.1 ≤ time) :
    balanceAt (c.token.checkpoints holder) time = .ok (h.balanceOn holder time) ↔
      ∀ o, (c.token.checkpoints holder).oldest = some o → o.1 ≤ time ∨ o.2 = 0 := by
  have hf : Faithful c h := faithful_of_reaches admin sequence timestamp hrun
  have hr := hf.kept holder
  have hd : Descending (logOf holder h) := descending_logOf hf.steady
  rw [← inForce_logOf hf.steady]
  cases ho : (c.token.checkpoints holder).oldest with
  | none =>
    obtain ⟨hlen, hlog⟩ := hr.eq_nil_of_oldest ho
    have hzero : balanceAt (c.token.checkpoints holder) time = .ok 0 := by
      simp [balanceAt, hlen]
    rw [hzero, hlog]
    exact iff_of_true rfl fun o h => by cases h
  | some o =>
    simp only [Option.some.injEq, forall_eq']
    by_cases hle : o.1 ≤ time
    · exact iff_of_true (inForce_of_oldest_le hr hd ho hle) (.inl hle)
    · have hall : (logOf holder h).length ≤ maxCheckpoints := by
        rcases hkept with hprod | ⟨o', ho', hle'⟩
        · rwa [produced_eq_length hf.steady] at hprod
        · rw [ho, Option.some.injEq] at ho'
          exact absurd (ho' ▸ hle') hle
      obtain ⟨hnone, hvalue⟩ := balanceAt_of_lt_oldest hr hd ho (not_le.1 hle)
      rw [List.take_of_length_le hall] at hnone
      rw [hvalue, inForce, hnone, Except.ok.injEq]
      exact ⟨fun h => .inr h, fun h => h.resolve_left hle⟩

/-- The holder 2 gets 100 shares at time 10 and gives 30 of them away at time 20. -/
def twoMoments : List Tx :=
  [⟨[], .advance 1 10⟩, ⟨[1], .mint 2 100⟩, ⟨[], .advance 1 10⟩, ⟨[2], .transfer 2 3 30⟩]

theorem balanceAt_true_iff_between : ∃ (c : Contract) (h : History),
    twoMoments.foldlM remembered (Contract.fresh 1 0 0, []) = .ok (c, h) ∧
    h.balanceOn 2 15 = 100 ∧ balanceAt (c.token.checkpoints 2) 15 = .ok 100 := by
  obtain ⟨⟨c, h⟩, hc, hcheck⟩ := exists_of_check
    (p := fun x => decide (x.2.balanceOn 2 15 = 100 ∧ x.2.produced 2 ≤ 2 ∧
      (x.1.token.checkpoints 2).oldest = some (10, 100)))
    (x := twoMoments.foldlM remembered (Contract.fresh 1 0 0, [])) (by decide)
  obtain ⟨hon, hproduced, ho⟩ := of_decide_eq_true hcheck
  have hrun : Reaches remembered (fun _ _ => True) (Contract.fresh 1 0 0, []) (c, h) := by
    refine reaches_of_along .refl ?_ hc
    decide
  refine ⟨c, h, hc, hon, ?_⟩
  have htrue := (balanceAt_true_iff 1 0 0 hrun 2 15
    (.inl (hproduced.trans (by decide)))).2 fun o hsome => by
      rw [ho, Option.some.injEq] at hsome
      exact .inl (hsome ▸ by decide)
  rw [htrue, hon]

/-- At a time before its first shares the holder had nothing, and `balance_at` says 100. -/
theorem balanceAt_before_first : ∃ (c : Contract) (h : History),
    twoMoments.foldlM remembered (Contract.fresh 1 0 0, []) = .ok (c, h) ∧
    5 ≤ c.timestamp ∧ h.produced 2 ≤ maxCheckpoints ∧
    h.balanceOn 2 5 = 0 ∧ balanceAt (c.token.checkpoints 2) 5 = .ok 100 := by
  obtain ⟨⟨c, h⟩, hc, hcheck⟩ := exists_of_check
    (p := fun x => decide (5 ≤ x.1.timestamp ∧ x.2.produced 2 ≤ maxCheckpoints ∧
      x.2.balanceOn 2 5 = 0 ∧ balanceAt (x.1.token.checkpoints 2) 5 = .ok 100))
    (x := twoMoments.foldlM remembered (Contract.fresh 1 0 0, [])) (by decide)
  exact ⟨c, h, hc, of_decide_eq_true hcheck⟩

end Astera.Share
