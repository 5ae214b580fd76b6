import Astera.Arbitration.Court

/-!
# The draws of a case

A log of the draws of each case records the committee and the deadlines of a draw, and the commits
and reveals that follow it.  It agrees with the stored votes and retry count.
-/

namespace Astera.Arbitration

open Fallible Machine Transition
open Invoices (Bytes DisputeResolution)

variable {W : Type} {h : Host W} {s s' : State W}
variable {case : DisputeCase} {f : Draw → Draw} {draws : List Draw} {caseId : ℕ}

/-- A successful `commit_vote`. -/
structure Commitment where
  juror : Address
  hash : Bytes
  time : ℕ
  deriving DecidableEq

/-- A successful `reveal_vote`. -/
structure Opening where
  juror : Address
  choice : Bool
  salt : Bytes
  time : ℕ
  deriving DecidableEq

/-- A successful `select_jurors`, and what follows it until the next one. -/
structure Draw where
  committee : List Address
  drawnAt : ℕ
  commitDeadline : ℕ
  revealDeadline : ℕ
  commits : List Commitment := []
  reveals : List Opening := []
  /-- Whether the case was finalized without a quorum. -/
  failed : Bool := false
  deriving DecidableEq

/-- The draws of each case, the last one first. -/
abbrev Log := ℕ → List Draw

def DisputeCase.draw (case : DisputeCase) (now : ℕ) : Draw where
  committee := case.jurors
  drawnAt := now
  commitDeadline := case.commitDeadline
  revealDeadline := case.revealDeadline

def Log.last (log : Log) (caseId : ℕ) (f : Draw → Draw) : Log :=
  Function.update log caseId ((log caseId).modifyHead f)

/-- Whether too few votes are revealed. -/
def State.noQuorum (s : State W) (caseId : ℕ) : Bool :=
  (s.cases.get caseId).any fun case =>
    decide ((s.revealed caseId case.jurors).length < s.settings.config.quorumFloor)

def noteDraws (h : Host W) (s : State W) (tx : Tx h) (s' : State W) (log : Log) : Log :=
  match tx.call with
  | .selectJurors caseId _ =>
    match s'.cases.get caseId with
    | some case => Function.update log caseId (case.draw s.now :: log caseId)
    | none => log
  | .commitVote caseId juror hash =>
    log.last caseId fun d => { d with commits := ⟨juror, hash, s.now⟩ :: d.commits }
  | .revealVote caseId juror choice salt =>
    log.last caseId fun d => { d with reveals := ⟨juror, choice, salt, s.now⟩ :: d.reveals }
  | .finalizeCase caseId => log.last caseId fun d => { d with failed := s.noQuorum caseId }
  | _ => log

/-- The configuration is fixed before the first case. -/
def Fixed (s : State W) (tx : Tx h) : Prop := tx.call.configures = true → s.caseCount = 0

instance (s : State W) (tx : Tx h) : Decidable (Fixed s tx) :=
  inferInstanceAs (Decidable (_ → _))

def State.committedHash (s : State W) (caseId : ℕ) (juror : Address) : Option Bytes :=
  (s.votes.get (caseId, juror)).bind JurorVote.commitHash

/-- The votes of an open case are those of its last draw. -/
structure Follows (h : Host W) (s : State W) (caseId : ℕ) (case : DisputeCase) (d : Draw) : Prop where
  committee : d.committee = case.jurors
  commitDeadline : d.commitDeadline = case.commitDeadline
  revealDeadline : d.revealDeadline = case.revealDeadline
  drawnAt : d.drawnAt ≤ s.now
  commits : ∀ a ∈ d.committee, ∀ hash, s.committedHash caseId a = some hash ↔
    ∃ c ∈ d.commits, c.juror = a ∧ c.hash = hash
  committed : ∀ c ∈ d.commits, c.juror ∈ d.committee ∧ d.drawnAt ≤ c.time ∧ c.time ≤ d.commitDeadline
  reveals : ∀ a ∈ d.committee, ∀ choice, s.revealedVote caseId a = some choice ↔
    ∃ r ∈ d.reveals, r.juror = a ∧ r.choice = choice
  revealed : ∀ r ∈ d.reveals, r.juror ∈ d.committee ∧ d.commitDeadline < r.time ∧
    r.time ≤ d.revealDeadline ∧
    ∃ c ∈ d.commits, c.juror = r.juror ∧ c.hash = h.sha256 (preimage r.choice r.salt)

structure Traced (h : Host W) (s : State W) (caseId : ℕ) (case : DisputeCase) (draws : List Draw) :
    Prop where
  count : draws.length = case.retryCount
  bound : case.retryCount ≤ saturatingAddU 32 s.settings.config.maxRetries 1
  evidence : case.status = .EvidenceWindow → draws = []
  voting : case.status = .CommitReveal → ∃ d rest, draws = d :: rest ∧ Follows h s caseId case d ∧
    ∀ d ∈ rest, d.failed = true
  escalated : case.status = .NoQuorumEscalated → ∀ d ∈ draws, d.failed = true

structure Logged (h : Host W) (x : State W × Log) : Prop where
  sound : Sound x.1
  unopened : ∀ caseId, x.1.cases.get caseId = none → x.2 caseId = []
  traced : ∀ caseId case, x.1.cases.get caseId = some case → Traced h x.1 caseId case (x.2 caseId)

theorem Follows.mono {d : Draw} (hs : Follows h s caseId case d) (hnow : s.now ≤ s'.now)
    (hvotes : ∀ a, s'.votes.get (caseId, a) = s.votes.get (caseId, a)) :
    Follows h s' caseId case d := by
  refine ⟨hs.committee, hs.commitDeadline, hs.revealDeadline, hs.drawnAt.trans hnow, ?_,
    hs.committed, ?_, hs.revealed⟩
  · intro a ha
    unfold State.committedHash
    rw [hvotes]
    exact hs.commits a ha
  · intro a ha
    unfold State.revealedVote
    rw [hvotes]
    exact hs.reveals a ha

theorem Traced.mono (hs : Traced h s caseId case draws) (hnow : s.now ≤ s'.now)
    (hvotes : ∀ a, s'.votes.get (caseId, a) = s.votes.get (caseId, a))
    (hconfig : s'.settings.config = s.settings.config) : Traced h s' caseId case draws := by
  refine ⟨hs.count, ?_, hs.evidence, fun hopen => ?_, hs.escalated⟩
  · rw [hconfig]
    exact hs.bound
  · obtain ⟨d, rest, hdraws, hfollows, hfailed⟩ := hs.voting hopen
    exact ⟨d, rest, hdraws, hfollows.mono hnow hvotes, hfailed⟩

/-! ## Steps -/

section Steps

variable {log log' : Log}

theorem Logged.write (hs : Logged h (s, log)) (hsound : Sound s') (hnow : s.now ≤ s'.now)
    (hconfig : s'.settings.config = s.settings.config) (caseId : ℕ)
    (hcases : ∀ i, i ≠ caseId → s'.cases.get i = s.cases.get i)
    (hvotes : ∀ i a, i ≠ caseId → s'.votes.get (i, a) = s.votes.get (i, a))
    (hlog : ∀ i, i ≠ caseId → log' i = log i)
    (hwritten : ∃ case, s'.cases.get caseId = some case ∧ Traced h s' caseId case (log' caseId)) :
    Logged h (s', log') := by
  obtain ⟨written, hget, htraced⟩ := hwritten
  refine ⟨hsound, fun i hnone => ?_, fun i case hcase => ?_⟩
  · have hi : i ≠ caseId := by
      rintro rfl
      rw [hget] at hnone
      cases hnone
    dsimp only at hnone ⊢
    rw [hcases i hi] at hnone
    rw [hlog i hi]
    exact hs.unopened i hnone
  · dsimp only at hcase ⊢
    by_cases hi : i = caseId
    · subst hi
      obtain rfl : written = case := Option.some.inj (hget.symm.trans hcase)
      exact htraced
    · rw [hcases i hi] at hcase
      rw [hlog i hi]
      exact (hs.traced i case hcase).mono hnow (fun a => hvotes i a hi) hconfig

theorem Logged.quiet (hs : Logged h (s, log)) (hsound : Sound s') (hnow : s.now ≤ s'.now)
    (hconfig : s'.settings.config = s.settings.config) (hcases : s'.cases = s.cases)
    (hvotes : s'.votes = s.votes) : Logged h (s', log) := by
  refine ⟨hsound, fun i hnone => ?_, fun i case hcase => ?_⟩
  · dsimp only at hnone
    rw [hcases] at hnone
    exact hs.unopened i hnone
  · dsimp only at hcase
    rw [hcases] at hcase
    exact (hs.traced i case hcase).mono hnow (fun a => by rw [hvotes]) hconfig

theorem last_of_ne {caseId i : ℕ} (hi : i ≠ caseId) : log.last caseId f i = log i :=
  Function.update_of_ne hi _ _

theorem last_self :
    log.last caseId f caseId = (log caseId).modifyHead f := Function.update_self _ _ _

theorem traced_opened (hstatus : case.status = .EvidenceWindow) (hcount : case.retryCount = 0) :
    Traced h s caseId case [] := by
  refine ⟨hcount.symm, ?_, fun _ => rfl, fun hopen => ?_, fun _ d hd => ?_⟩
  · rw [hcount]
    exact Nat.zero_le _
  · rw [hstatus] at hopen
    cases hopen
  · cases hd

theorem Traced.resolved {case case' : DisputeCase} {draws draws' : List Draw}
    (hs : Traced h s caseId case draws) (hconfig : s'.settings.config = s.settings.config)
    (hstatus : case'.status = .Resolved) (hretries : case'.retryCount = case.retryCount)
    (hlength : draws'.length = draws.length) : Traced h s' caseId case' draws' := by
  refine ⟨?_, ?_, fun hother => ?_, fun hother => ?_, fun hother => ?_⟩
  · rw [hlength, hretries]
    exact hs.count
  · rw [hretries, hconfig]
    exact hs.bound
  all_goals
    rw [hstatus] at hother
    cases hother

theorem drawn_votes (s : State W) (caseId : ℕ) (case : DisputeCase) (shuffled : List Address)
    (key : ℕ × Address) :
    (s.drawn caseId case shuffled).votes.get key =
      if key.1 = caseId ∧ key.2 ∈ s.committee shuffled then some ⟨none, none⟩
      else s.votes.get key :=
  foldl_seat_votes _ _ _

theorem follows_drawn {shuffled : List Address} :
    Follows h (s.drawn caseId case shuffled) caseId (s.drawnCase case shuffled)
      ((s.drawnCase case shuffled).draw s.now) := by
  obtain ⟨jurorCases, votes, heq⟩ := drawn_eq s caseId case shuffled
  have hempty : ∀ a ∈ s.committee shuffled,
      (s.drawn caseId case shuffled).votes.get (caseId, a) = some ⟨none, none⟩ := by
    intro a ha
    rw [drawn_votes, if_pos ⟨rfl, ha⟩]
  refine ⟨rfl, rfl, rfl, ?_, fun a ha hash => ?_, nofun, fun a ha choice => ?_, nofun⟩
  · rw [heq]
    exact le_rfl
  · unfold State.committedHash
    rw [hempty a ha]
    simp [DisputeCase.draw]
  · unfold State.revealedVote
    rw [hempty a ha]
    simp [DisputeCase.draw]

theorem Traced.drawn {shuffled : List Address} (hs : Traced h s caseId case draws)
    (hdraws : Draws s caseId shuffled case) :
    Traced h (s.drawn caseId case shuffled) caseId (s.drawnCase case shuffled)
      ((s.drawnCase case shuffled).draw s.now :: draws) := by
  obtain ⟨jurorCases, votes, heq⟩ := drawn_eq s caseId case shuffled
  have hcount := hs.count
  refine ⟨?_, ?_, nofun, fun _ => ⟨_, draws, rfl, follows_drawn, ?_⟩, nofun⟩
  · rw [List.length_cons, hcount]
    rfl
  · rw [heq]
    show case.retryCount + 1 ≤ saturatingAddU 32 s.settings.config.maxRetries 1
    rcases hdraws.ready with ⟨hstatus, -⟩ | ⟨-, hretries⟩
    · rw [← hcount, hs.evidence hstatus]
      unfold saturatingAddU
      simp
    · exact hretries
  · rcases hdraws.ready with ⟨hstatus, -⟩ | ⟨hstatus, -⟩
    · rw [hs.evidence hstatus]
      exact nofun
    · exact hs.escalated hstatus

theorem setVote_get (s : State W) (caseId : ℕ) (juror : Address) (vote : JurorVote) (a : Address) :
    (s.setVote caseId juror vote).votes.get (caseId, a) =
      if a = juror then some vote else s.votes.get (caseId, a) := by
  show (s.votes.set (caseId, juror) vote).get (caseId, a) = _
  rw [Store.get_set]
  by_cases ha : a = juror
  · simp [ha]
  · simp [ha]

theorem setVote_get_of_ne (s : State W) {caseId i : ℕ} (juror : Address) (vote : JurorVote)
    (a : Address) (hi : i ≠ caseId) :
    (s.setVote caseId juror vote).votes.get (i, a) = s.votes.get (i, a) :=
  Store.get_set_of_ne _ _ fun heq => hi (Prod.mk.inj heq).1

theorem committedHash_setVote (s : State W) (caseId : ℕ) (juror : Address) (vote : JurorVote)
    (a : Address) :
    (s.setVote caseId juror vote).committedHash caseId a =
      if a = juror then vote.commitHash else s.committedHash caseId a := by
  unfold State.committedHash
  rw [setVote_get]
  split_ifs <;> rfl

theorem revealedVote_setVote (s : State W) (caseId : ℕ) (juror : Address) (vote : JurorVote)
    (a : Address) :
    (s.setVote caseId juror vote).revealedVote caseId a =
      if a = juror then vote.revealedVote else s.revealedVote caseId a := by
  unfold State.revealedVote
  rw [setVote_get]
  split_ifs <;> rfl

theorem recorded_cons {α β : Type} (key : α → Address) (val : α → β) {value : Address → Option β}
    {records : List α} (new : α) {a : Address} {b : β} (hfresh : value (key new) = none)
    (hold : value a = some b ↔ ∃ c ∈ records, key c = a ∧ val c = b) :
    (if a = key new then some (val new) else value a) = some b ↔
      ∃ c ∈ new :: records, key c = a ∧ val c = b := by
  split_ifs with heq
  · subst heq
    rw [hfresh] at hold
    constructor
    · intro hsame
      exact ⟨new, List.mem_cons_self, rfl, Option.some.inj hsame⟩
    · rintro ⟨c, hc, hkey, hval⟩
      rcases List.mem_cons.1 hc with rfl | hc
      · exact congrArg some hval
      · exact absurd (hold.2 ⟨c, hc, hkey, hval⟩) nofun
  · rw [hold]
    constructor
    · rintro ⟨c, hc, hsame⟩
      exact ⟨c, List.mem_cons_of_mem _ hc, hsame⟩
    · rintro ⟨c, hc, hkey, hval⟩
      rcases List.mem_cons.1 hc with rfl | hc
      · exact absurd hkey.symm heq
      · exact ⟨c, hc, hkey, hval⟩

variable {caseId : ℕ} {juror : Address} {case : DisputeCase} {vote : JurorVote} {d : Draw}

theorem Follows.commit {hash : Bytes} (hs : Follows h s caseId case d)
    (hcommits : Commits s caseId juror case vote) :
    Follows h (s.setVote caseId juror { vote with commitHash := some hash }) caseId case
      { d with commits := ⟨juror, hash, s.now⟩ :: d.commits } := by
  have hmember : juror ∈ d.committee := hs.committee ▸ hcommits.member
  have hfresh : s.committedHash caseId juror = none := by
    unfold State.committedHash
    rw [hcommits.vote_get]
    exact hcommits.fresh
  have hreveal : vote.revealedVote = s.revealedVote caseId juror := by
    unfold State.revealedVote
    rw [hcommits.vote_get]
    rfl
  refine ⟨hs.committee, hs.commitDeadline, hs.revealDeadline, hs.drawnAt, fun a ha hash' => ?_,
    fun c hc => ?_, fun a ha choice => ?_, fun r hr => ?_⟩
  · rw [committedHash_setVote]
    exact recorded_cons Commitment.juror Commitment.hash ⟨juror, hash, s.now⟩ hfresh
      (hs.commits a ha hash')
  · rcases List.mem_cons.1 hc with rfl | hc
    · exact ⟨hmember, hs.drawnAt, hs.commitDeadline ▸ hcommits.deadline⟩
    · exact hs.committed c hc
  · rw [revealedVote_setVote]
    split_ifs with heq
    · subst heq
      rw [← hs.reveals a ha choice, hreveal]
    · exact hs.reveals a ha choice
  · obtain ⟨hjuror, hafter, hbefore, c, hc, hsame⟩ := hs.revealed r hr
    exact ⟨hjuror, hafter, hbefore, c, List.mem_cons_of_mem _ hc, hsame⟩

theorem Follows.reveal {choice : Bool} {salt : Bytes} (hs : Follows h s caseId case d)
    (hreveals : Reveals h s caseId juror choice salt case vote) :
    Follows h (s.setVote caseId juror { vote with revealedVote := some choice }) caseId case
      { d with reveals := ⟨juror, choice, salt, s.now⟩ :: d.reveals } := by
  have hmember : juror ∈ d.committee := hs.committee ▸ hreveals.member
  have hfresh : s.revealedVote caseId juror = none := by
    unfold State.revealedVote
    rw [hreveals.vote_get]
    exact hreveals.fresh
  have hcommit : s.committedHash caseId juror = vote.commitHash := by
    unfold State.committedHash
    rw [hreveals.vote_get]
    rfl
  refine ⟨hs.committee, hs.commitDeadline, hs.revealDeadline, hs.drawnAt, fun a ha hash => ?_,
    hs.committed, fun a ha choice' => ?_, fun r hr => ?_⟩
  · rw [committedHash_setVote]
    split_ifs with heq
    · subst heq
      rw [← hs.commits a ha hash, hcommit]
    · exact hs.commits a ha hash
  · rw [revealedVote_setVote]
    exact recorded_cons Opening.juror Opening.choice ⟨juror, choice, salt, s.now⟩ hfresh
      (hs.reveals a ha choice')
  · rcases List.mem_cons.1 hr with rfl | hr
    · obtain ⟨c, hc, hsame⟩ :=
        (hs.commits juror hmember _).1 (hcommit.trans hreveals.commitHash)
      exact ⟨hmember, hs.commitDeadline ▸ hreveals.after, hs.revealDeadline ▸ hreveals.deadline,
        c, hc, hsame⟩
    · exact hs.revealed r hr

theorem Traced.last (hs : Traced h s caseId case draws) (hopen : case.status = .CommitReveal)
    (hconfig : s'.settings.config = s.settings.config)
    (hfollows : ∀ d, Follows h s caseId case d → Follows h s' caseId case (f d)) :
    Traced h s' caseId case (draws.modifyHead f) := by
  obtain ⟨d, rest, rfl, hlast, hfailed⟩ := hs.voting hopen
  refine ⟨?_, ?_, fun hother => ?_, fun _ => ⟨f d, rest, rfl, hfollows d hlast, hfailed⟩,
    fun hother => ?_⟩
  · exact hs.count
  · rw [hconfig]
    exact hs.bound
  · rw [hopen] at hother
    cases hother
  · rw [hopen] at hother
    cases hother

theorem Traced.finalized (hs : Traced h s caseId case draws) (hfinal : Finalizes s caseId case s') :
    Traced h s' caseId (s.finalizedCase caseId case)
      (draws.modifyHead fun d => { d with failed := s.noQuorum caseId }) := by
  have hconfig : s'.settings.config = s.settings.config := by rw [hfinal.state]
  have hquorum : s.noQuorum caseId =
      decide ((s.revealed caseId case.jurors).length < s.settings.config.quorumFloor) := by
    unfold State.noQuorum
    rw [hfinal.get]
    rfl
  obtain ⟨d, rest, rfl, -, hfailed⟩ := hs.voting hfinal.status
  unfold State.finalizedCase
  split_ifs with hfew
  · refine ⟨hs.count, ?_, nofun, nofun, fun _ e he => ?_⟩
    · rw [hconfig]
      exact hs.bound
    · rcases List.mem_cons.1 he with rfl | he
      · rw [hquorum, decide_eq_true hfew]
      · exact hfailed e he
  · exact hs.resolved hconfig rfl rfl rfl

theorem logged_step {x y : State W × Log} {tx : Tx h} (hx : Logged h x) (hok : Fixed x.1 tx)
    (hstep : track (exec h) (noteDraws h) x tx = .ok y) : Logged h y := by
  obtain ⟨s, log⟩ := x
  obtain ⟨s', log'⟩ := y
  rw [track_eq_ok] at hstep
  obtain ⟨hexec, hnote⟩ := hstep
  dsimp only at hexec hnote
  have hsound : Sound s' := exec_sound hx.sound hexec
  cases exec_effect hx.sound hexec with
  | opened hcall =>
    simp only [noteDraws, hcall] at hnote
    have hnone : s.cases.get s.caseCount = none := by
      cases hget : s.cases.get s.caseCount with
      | none => rfl
      | some case => exact absurd (hx.sound.known _ _ hget) (lt_irrefl _)
    have hempty : log' s.caseCount = [] := hnote ▸ hx.unopened _ hnone
    subst hnote
    refine hx.write hsound le_rfl rfl s.caseCount (fun i hi => Store.get_set_of_ne _ _ hi)
      (fun _ _ _ => rfl) (fun _ _ => rfl) ⟨_, Store.get_set_self _ _ _, ?_⟩
    rw [hempty]
    exact traced_opened rfl rfl
  | @drawn caseId shuffled case hcall hdraws =>
    obtain ⟨jurorCases, votes, heq⟩ := drawn_eq s caseId case shuffled
    have hget : (s.drawn caseId case shuffled).cases.get caseId =
        some (s.drawnCase case shuffled) := by
      rw [heq]
      exact Store.get_set_self _ _ _
    simp only [noteDraws, hcall, hget] at hnote
    subst hnote
    refine hx.write hsound ?_ ?_ caseId (fun i hi => ?_) (fun i a hi => ?_)
      (fun i hi => Function.update_of_ne hi _ _) ⟨_, hget, ?_⟩
    · rw [heq]
      exact le_rfl
    · rw [heq]
      rfl
    · rw [heq]
      exact Store.get_set_of_ne _ _ hi
    · rw [drawn_votes, if_neg fun hboth => hi hboth.1]
    · rw [Function.update_self]
      exact (hx.traced caseId case hdraws.get).drawn hdraws
  | @committed caseId juror commitHash case vote hcall hcommits =>
    simp only [noteDraws, hcall] at hnote
    subst hnote
    refine hx.write hsound le_rfl rfl caseId (fun _ _ => rfl)
      (fun i a hi => setVote_get_of_ne s juror _ a hi) (fun i hi => last_of_ne hi)
      ⟨case, hcommits.get, ?_⟩
    rw [last_self]
    exact (hx.traced caseId case hcommits.get).last hcommits.status rfl
      fun d hd => hd.commit hcommits
  | @revealed caseId juror voteChoice salt case vote hcall hreveals =>
    simp only [noteDraws, hcall] at hnote
    subst hnote
    refine hx.write hsound le_rfl rfl caseId (fun _ _ => rfl)
      (fun i a hi => setVote_get_of_ne s juror _ a hi) (fun i hi => last_of_ne hi)
      ⟨case, hreveals.get, ?_⟩
    rw [last_self]
    exact (hx.traced caseId case hreveals.get).last hreveals.status rfl
      fun d hd => hd.reveal hreveals
  | @finalized caseId case _ hcall hfinal =>
    simp only [noteDraws, hcall] at hnote
    subst hnote
    refine hx.write hsound ?_ ?_ caseId (fun i hi => ?_) (fun i a hi => ?_)
      (fun i hi => last_of_ne hi) ⟨s.finalizedCase caseId case, ?_, ?_⟩
    · rw [hfinal.state]
    · rw [hfinal.state]
    · rw [hfinal.state]
      exact Store.get_set_of_ne _ _ hi
    · rw [hfinal.state]
    · rw [hfinal.state]
      exact Store.get_set_self _ _ _
    · rw [last_self]
      exact (hx.traced caseId case hfinal.get).finalized hfinal
  | @resolved admin caseId resolution case world hcall hget hstatus =>
    simp only [noteDraws, hcall] at hnote
    subst hnote
    refine hx.write hsound le_rfl rfl caseId (fun i hi => Store.get_set_of_ne _ _ hi)
      (fun _ _ _ => rfl) (fun _ _ => rfl) ⟨_, Store.get_set_self _ _ _, ?_⟩
    exact (hx.traced caseId case hget).resolved rfl rfl rfl rfl
  | @configured setting settings hcall hset =>
    simp only [noteDraws, hcall] at hnote
    subst hnote
    cases hconfigures : Call.configures (W := W) (.set setting) with
    | false => exact hx.quiet hsound le_rfl (applySetting_config hset hconfigures) rfl rfl
    | true =>
      -- there is no case yet
      have hcount : s.caseCount = 0 := hok (by rw [hcall]; exact hconfigures)
      refine ⟨hsound, hx.unopened, fun i case hget => ?_⟩
      have hlt : i < s.caseCount := hx.sound.known i case hget
      omega
  | advanced hcall hnow =>
    simp only [noteDraws, hcall] at hnote
    subst hnote
    exact hx.quiet hsound hnow rfl rfl rfl
  | registered hcall | requested hcall | departed hcall | evidenced hcall | elsewhere hcall
  | transferred hcall =>
    simp only [noteDraws, hcall] at hnote
    subst hnote
    exact hx.quiet hsound le_rfl rfl rfl rfl

end Steps

theorem logged_run {now : ℕ} {world : W} {balances : Address → ℤ}
    {admin invoiceContract stakeToken : Address} {minStake : ℤ} {start : State W}
    (hinit : initializeArbitration now world balances admin invoiceContract stakeToken minStake =
      .ok start)
    {x : State W × Log}
    (hrun : Reaches (track (exec h) (noteDraws h)) (fun x => Fixed x.1) (start, fun _ => []) x) :
    Logged h x := by
  refine hrun.invariant ⟨sound_initial hinit, fun _ _ => rfl, fun i case hcase => ?_⟩
    fun _ _ _ => logged_step
  obtain ⟨-, rfl⟩ := initializeArbitration_eq_ok.1 hinit
  simp at hcase

end Astera.Arbitration
