/-
CdPlayer/Queue.lean

What becomes of the requests that are queued for `tcr_issue_rq` (cdrom.c).

`Requests` follows a request from the moment the loop has fetched it.  Here
the record of everything that has been queued by the loop's last look goes
along with the loop: what has been fetched is a prefix of it, in order, and
the rest waits in the queue.  (What comes after the last look of a loop that
is then left is the subject of `Wakeup`.)  `RqLoop.left` counts the segments
that are still to be handled, in the queue and of the request at hand; a turn
that finds one handles at least one.

Main result: `none_lost`.
-/
import CdPlayer.Requests

namespace CdPlayer

open Run

/-- The loop, and everything that has been queued by its last look at the
queue. -/
structure QueuedLoop where
  loop : RqLoop
  arrived : List BlkRequest

def queuedStep (s : QueuedLoop) (t : LoopTurn) : QueuedLoop :=
  if s.loop.stopped then s else ⟨tcrIssueRqStep s.loop t, s.arrived ++ t.queued⟩

def QueuedLoop.initial : QueuedLoop := ⟨.initial, []⟩

def queuedRun (turns : List LoopTurn) : QueuedLoop := turns.foldl queuedStep .initial

/-- The segments left of the request at hand. -/
def RqLoop.atHandLeft (s : RqLoop) : Nat :=
  match s.req with
  | none => 0
  | some (i, _) => (s.table i).rest.length

/-- How many segments these requests have. -/
def segmentCount (rs : List BlkRequest) : Nat := (rs.map fun r => r.segments.length).sum

/-- The segments that are still to be handled. -/
def RqLoop.left (s : RqLoop) : Nat := segmentCount s.queue + s.atHandLeft

@[simp] theorem segmentCount_nil : segmentCount [] = 0 := rfl

@[simp] theorem segmentCount_cons (r : BlkRequest) (rs : List BlkRequest) :
    segmentCount (r :: rs) = r.segments.length + segmentCount rs := by
  unfold segmentCount
  rw [List.map_cons, List.sum_cons]

@[simp] theorem segmentCount_append (rs rs' : List BlkRequest) :
    segmentCount (rs ++ rs') = segmentCount rs + segmentCount rs' := by
  unfold segmentCount
  rw [List.map_append, List.sum_append]

theorem RqLoop.atHandLeft_none {s : RqLoop} (h : s.req = none) : s.atHandLeft = 0 := by
  unfold RqLoop.atHandLeft
  rw [h]

theorem RqLoop.atHandLeft_some {s : RqLoop} {i : Nat} {r : BlkRequest}
    (h : s.req = some (i, r)) : s.atHandLeft = (s.table i).rest.length := by
  unfold RqLoop.atHandLeft
  rw [h]

/-! ### The invariant -/

/-- What has been queued has been fetched, in order, or waits; and the loop is
left only when nothing waits. -/
structure Kept (s : RqLoop) (arrived : List BlkRequest) : Prop where
  accounted : Accounted s
  queue : s.queue = arrived.drop s.fetched
  count : s.fetched ≤ arrived.length
  fetched : ∀ i r, .fetch i r ∈ s.log ↔ i < s.fetched ∧ arrived[i]? = some r
  stopped : s.stopped = true → s.queue = []

variable {s : RqLoop} {arrived : List BlkRequest}

theorem kept_initial : Kept .initial [] where
  accounted := accounted_initial
  queue := rfl
  count := le_rfl
  fetched := fun i r => by simp [RqLoop.initial]
  stopped := fun _ => rfl

theorem Kept.arrive (h : Kept s arrived) (hrun : s.stopped = false) (queued : List BlkRequest) :
    Kept { s with queue := s.queue ++ queued } (arrived ++ queued) where
  accounted := { h.accounted with }
  queue := by
    rw [List.drop_append_of_le_length h.count]
    exact congrArg (· ++ queued) h.queue
  count := by
    rw [List.length_append]
    exact le_trans h.count (Nat.le_add_right _ _)
  fetched := by
    intro i r
    rw [h.fetched]
    refine and_congr_right fun hi => ?_
    rw [List.getElem?_append_left (lt_of_lt_of_le hi h.count)]
  stopped := fun hstop => absurd hstop (by rw [hrun]; decide)

theorem Kept.blkFetchRequest (h : Kept s arrived) (hnone : s.req = none)
    (hrun : s.stopped = false) : Kept (blkFetchRequest s) arrived := by
  have hacc := h.accounted.blkFetchRequest hnone hrun
  unfold CdPlayer.blkFetchRequest at hacc ⊢
  rcases hq : s.queue with - | ⟨r, queue⟩
  · rw [hq] at hacc
    exact ⟨hacc, hq.symm.trans h.queue, h.count, h.fetched, fun _ => rfl⟩
  · rw [hq] at hacc
    have hdrop := h.queue
    rw [hq] at hdrop
    have hcount : s.fetched < arrived.length := by
      by_contra hle
      rw [List.drop_eq_nil_of_le (Nat.le_of_not_lt hle)] at hdrop
      exact absurd hdrop (List.cons_ne_nil r queue)
    -- the next one is fetched
    rw [List.drop_eq_getElem_cons hcount] at hdrop
    injection hdrop with hr hqueue
    refine ⟨hacc, hqueue, hcount, fun i r' => ?_, fun hstop => ?_⟩
    · show BlkOp.fetch i r' ∈ s.log ++ [.fetch s.fetched r] ↔ i < s.fetched + 1 ∧ _
      rw [List.mem_append, h.fetched, List.mem_singleton, BlkOp.fetch.injEq]
      constructor
      · rintro (⟨hi, hget⟩ | ⟨rfl, rfl⟩)
        · exact ⟨Nat.lt_succ_of_lt hi, hget⟩
        · exact ⟨Nat.lt_succ_self _, by rw [List.getElem?_eq_getElem hcount, hr]⟩
      · rintro ⟨hi, hget⟩
        rcases Nat.lt_succ_iff_lt_or_eq.mp hi with hi | rfl
        · exact .inl ⟨hi, hget⟩
        · rw [List.getElem?_eq_getElem hcount, ← hr] at hget
          exact .inr ⟨rfl, (Option.some.inj hget).symm⟩
    · exact absurd hstop (by
        show ¬ s.stopped = true
        rw [hrun]
        decide)

theorem Kept.atHand (h : Kept s arrived) (hrun : s.stopped = false) (t : LoopTurn) :
    Kept (atHand s t) (arrived ++ t.queued) := by
  have harrive := h.arrive hrun t.queued
  unfold CdPlayer.atHand
  rcases hreq : s.req with - | p
  · exact harrive.blkFetchRequest hreq hrun
  · rw [hreq] at harrive
    exact harrive

/-- Handling a segment leaves the queue alone. -/
theorem handleSegment_queue (i : Nat) (r : BlkRequest) (t : LoopTurn) (s : RqLoop) :
    (handleSegment i r t s).queue = s.queue := by
  unfold handleSegment
  simp only
  split
  · split
    · split
      · rfl
      · split
        · split <;> rfl
        · rfl
    · rfl
  · rfl

theorem Kept.handleSegment (h : Kept s arrived) {i : Nat} {r : BlkRequest}
    (hreq : s.req = some (i, r)) (t : LoopTurn) : Kept (handleSegment i r t s) arrived := by
  have hturn := handleSegment_handled s i r t
  have hqueue := handleSegment_queue i r t s
  obtain ⟨k, hlog⟩ := hturn.log
  refine ⟨h.accounted.handled hreq hturn, ?_, ?_, fun j r' => ?_, fun hstop => ?_⟩
  · rw [hqueue, hturn.fetched]
    exact h.queue
  · rw [hturn.fetched]
    exact h.count
  · rw [hlog, fetch_mem_turnLog, hturn.fetched]
    exact h.fetched j r'
  · rw [hqueue]
    rw [hturn.stopped] at hstop
    exact h.stopped hstop

/-- A request that waits is fetched. -/
theorem blkFetchRequest_queue {s : RqLoop} (h : (blkFetchRequest s).req = none) :
    (blkFetchRequest s).queue = [] := by
  unfold blkFetchRequest at h ⊢
  split
  · assumption
  · next hq =>
    rw [hq] at h
    cases h

theorem atHand_queue (h : (atHand s t).req = none) : (atHand s t).queue = [] := by
  unfold atHand at h ⊢
  rcases hreq : s.req with - | p
  · rw [hreq] at h
    exact blkFetchRequest_queue h
  · rw [hreq] at h
    cases h

/-- **Every turn keeps the record.** -/
theorem Kept.step (h : Kept s arrived) (hrun : s.stopped = false) (t : LoopTurn) :
    Kept (tcrIssueRqStep s t) (arrived ++ t.queued) := by
  have hat := h.atHand hrun t
  have hacc := accounted_step s t h.accounted
  rw [tcrIssueRqStep_eq s t hrun] at hacc ⊢
  rcases hreq : (CdPlayer.atHand s t).req with - | ⟨i, r⟩
  · rw [hreq] at hacc
    simp only at hacc ⊢
    split
    · rw [if_pos (by assumption)] at hacc
      exact { hat with accounted := hacc, stopped := fun _ => atHand_queue hreq }
    · exact hat
  · exact hat.handleSegment hreq t

/-! ### What is left -/

/-- A segment at hand is handled. -/
theorem Kept.handleSegment_left (h : Kept s arrived) {i : Nat} {r : BlkRequest}
    (hreq : s.req = some (i, r)) (t : LoopTurn) :
    (CdPlayer.handleSegment i r t s).left < s.left := by
  have hturn := handleSegment_handled s i r t
  have hworking := h.accounted.current i r hreq
  obtain ⟨done, hsplit, -⟩ := hworking.split
  have hanswered := (s.table i).answered done hworking.remains
    (fun n hn => r.pos n (by rw [hsplit]; exact List.mem_append_right _ hn))
    (decide (r.Succeeds t.stateEject t.ret))
  have hpos : 0 < (s.table i).rest.length := List.length_pos_iff.mpr hworking.remains
  have hreq' := hturn.req
  have hless : (CdPlayer.handleSegment i r t s).atHandLeft < s.atHandLeft := by
    rw [RqLoop.atHandLeft_some hreq]
    by_cases hnil : ((CdPlayer.handleSegment i r t s).table i).rest = []
    · rw [if_pos hnil] at hreq'
      rw [RqLoop.atHandLeft_none hreq']
      exact hpos
    · -- the segment answered is not among those that are left
      rw [if_neg hnil, hreq] at hreq'
      rw [RqLoop.atHandLeft_some hreq']
      rw [hturn.rest] at hnil ⊢
      rcases hanswered.rest with ⟨hall, -⟩ | ⟨-, -, hlist⟩
      · exact absurd hall hnil
      · have hlen := congrArg List.length hlist
        simp only [List.length_append, List.length_singleton] at hlen
        simp only
        omega
  unfold RqLoop.left
  rw [handleSegment_queue]
  omega

/-- The segments of the next request are those at hand. -/
theorem blkFetchRequest_left (s : RqLoop) :
    (CdPlayer.blkFetchRequest s).left = segmentCount s.queue := by
  unfold CdPlayer.blkFetchRequest
  rcases hq : s.queue with - | ⟨r, queue⟩
  · unfold RqLoop.left
    rw [RqLoop.atHandLeft_none rfl]
    rfl
  · unfold RqLoop.left
    rw [RqLoop.atHandLeft_some (i := s.fetched) (r := r) rfl, segmentCount_cons]
    show _ + (Function.update s.table s.fetched (⟨0, r.segments⟩ : BlkState) s.fetched).rest.length
      = _
    rw [Function.update_self]
    exact Nat.add_comm _ _

/-- Looking for a request handles nothing. -/
theorem atHand_left (s : RqLoop) (t : LoopTurn) :
    (CdPlayer.atHand s t).left = s.left + segmentCount t.queued := by
  unfold CdPlayer.atHand
  rcases hreq : s.req with - | ⟨i, r⟩
  · simp only
    rw [blkFetchRequest_left, segmentCount_append]
    unfold RqLoop.left
    rw [RqLoop.atHandLeft_none hreq, Nat.add_zero]
  · simp only
    unfold RqLoop.left
    rw [RqLoop.atHandLeft_some hreq, RqLoop.atHandLeft_some (i := i) (r := r) rfl,
      segmentCount_append]
    exact Nat.add_right_comm _ _ _

/-- **A turn handles a segment, if one is left.** -/
theorem Kept.step_left (h : Kept s arrived) (hrun : s.stopped = false) (t : LoopTurn) :
    (tcrIssueRqStep s t).left ≤ s.left + segmentCount t.queued - 1 := by
  have hat := h.atHand hrun t
  rw [← atHand_left, tcrIssueRqStep_eq s t hrun]
  rcases hreq : (CdPlayer.atHand s t).req with - | ⟨i, r⟩
  · have hleft : (CdPlayer.atHand s t).left = 0 := by
      unfold RqLoop.left
      rw [RqLoop.atHandLeft_none hreq, atHand_queue hreq]
      rfl
    simp only
    split
    · exact le_of_eq_of_le hleft (Nat.zero_le _)
    · exact le_of_eq_of_le hleft (Nat.zero_le _)
  · have hless := hat.handleSegment_left hreq t
    simp only
    omega

/-- Nothing that is left can be overlooked. -/
theorem Kept.left_eq_zero {s : RqLoop} (h : Kept s arrived) :
    s.left = 0 ↔ s.req = none ∧ s.queue = [] := by
  constructor
  · intro hleft
    unfold RqLoop.left at hleft
    constructor
    · rcases hreq : s.req with - | ⟨i, r⟩
      · rfl
      · have hpos : 0 < (s.table i).rest.length :=
          List.length_pos_iff.mpr (h.accounted.current i r hreq).remains
        rw [RqLoop.atHandLeft_some hreq] at hleft
        omega
    · rcases hq : s.queue with - | ⟨r, queue⟩
      · rfl
      · have hpos : 0 < r.segments.length := List.length_pos_iff.mpr r.nonempty
        rw [hq, segmentCount_cons] at hleft
        omega
  · rintro ⟨hreq, hqueue⟩
    unfold RqLoop.left
    rw [RqLoop.atHandLeft_none hreq, hqueue]
    rfl

/-- With nothing left, everything is completed. -/
theorem Kept.complete (h : Kept s arrived) (hleft : s.left = 0) {i : Nat} {r : BlkRequest}
    (hi : arrived[i]? = some r) : .fetch i r ∈ s.log ∧ bytesDone s.log i = r.bytes := by
  have hlt : i < arrived.length := (List.getElem?_eq_some_iff.mp hi).1
  obtain ⟨hnone, hqueue⟩ := h.left_eq_zero.mp hleft
  have hall : arrived.length ≤ s.fetched := by
    rw [h.queue] at hqueue
    exact List.drop_eq_nil_iff.mp hqueue
  have hfetch : .fetch i r ∈ s.log := (h.fetched i r).mpr ⟨by omega, hi⟩
  refine ⟨hfetch, (h.accounted.done i r hfetch).resolve_left fun hreq => ?_⟩
  rw [hnone] at hreq
  cases hreq

/-- A request that has not been fetched has got nothing. -/
theorem Kept.fresh_bytes (h : Kept s arrived) {i : Nat} (hi : s.fetched ≤ i) :
    bytesDone s.log i = 0 := by
  unfold bytesDone
  rw [(h.accounted.fresh i hi).1]
  rfl

/-- A loop that has been left has nothing to do. -/
theorem Kept.left_of_stopped (h : Kept s arrived) (hstop : s.stopped = true) : s.left = 0 := by
  unfold RqLoop.left
  rw [h.stopped hstop, RqLoop.atHandLeft_none (h.accounted.stopped hstop)]
  rfl

/-! ### Runs -/

theorem kept_queuedStep (s : QueuedLoop) (t : LoopTurn) (h : Kept s.loop s.arrived) :
    Kept (queuedStep s t).loop (queuedStep s t).arrived := by
  unfold queuedStep
  split
  · exact h
  · next hrun => exact h.step (Bool.eq_false_iff.mpr hrun) t

theorem kept_run (turns : List LoopTurn) :
    Kept (queuedRun turns).loop (queuedRun turns).arrived :=
  foldl_inv kept_queuedStep turns kept_initial

theorem queuedStep_left {s : QueuedLoop} (h : Kept s.loop s.arrived) (t : LoopTurn) :
    (queuedStep s t).loop.left ≤ s.loop.left + segmentCount t.queued - 1 := by
  unfold queuedStep
  split
  · next hstop =>
    have hleft := h.left_of_stopped hstop
    omega
  · next hrun => exact h.step_left (Bool.eq_false_iff.mpr hrun) t

/-- Requests are added to those that have arrived. -/
theorem queuedStep_arrived (s : QueuedLoop) (t : LoopTurn) :
    s.arrived <+: (queuedStep s t).arrived := by
  unfold queuedStep
  split
  · exact List.prefix_refl _
  · exact List.prefix_append _ _

/-- Turns in which nothing new is queued. -/
theorem left_after {s : QueuedLoop} (h : Kept s.loop s.arrived) (more : List LoopTurn)
    (hquiet : ∀ t ∈ more, t.queued = []) :
    (more.foldl queuedStep s).loop.left ≤ s.loop.left - more.length := by
  induction more generalizing s with
  | nil => exact le_rfl
  | cons t more ih =>
    have hqueued := hquiet t List.mem_cons_self
    have hless := ih (kept_queuedStep s t h) fun u hu => hquiet u (List.mem_cons_of_mem _ hu)
    have hstep := queuedStep_left h t
    rw [hqueued, segmentCount_nil] at hstep
    rw [List.foldl_cons, List.length_cons]
    omega

/-- Once nothing new is queued, everything is completed within as many turns as
segments are left. -/
theorem completed_left {s : QueuedLoop} (h : Kept s.loop s.arrived) (more : List LoopTurn)
    (hquiet : ∀ t ∈ more, t.queued = []) (hlen : s.loop.left ≤ more.length) {i : Nat}
    {r : BlkRequest} (hi : s.arrived[i]? = some r) :
    bytesDone (more.foldl queuedStep s).loop.log i = r.bytes := by
  have hless := left_after h more hquiet
  have hkept : Kept (more.foldl queuedStep s).loop (more.foldl queuedStep s).arrived :=
    foldl_inv kept_queuedStep more h
  have hprefix : s.arrived <+: (more.foldl queuedStep s).arrived :=
    foldl_rel (R := fun a b : QueuedLoop => a.arrived <+: b.arrived)
      (fun s => List.prefix_refl s.arrived) List.IsPrefix.trans queuedStep_arrived more s
  obtain ⟨rest, hrest⟩ := hprefix
  refine (hkept.complete (by omega) ?_).2
  rw [← hrest, List.getElem?_append_left (List.getElem?_eq_some_iff.mp hi).1]
  exact hi

/-- **No request that the loop has looked for is lost.**  In every run of the
loop, whatever the driver answers: the requests are fetched in the order in
which they were queued, and each is fetched or waits; when the loop has been
left, all that were queued before its last look are completed; and once
nothing new is queued, all of them are completed within as many turns as
segments are left. -/
theorem none_lost (turns : List LoopTurn) :
    let s := queuedRun turns
    (∀ i r, .fetch i r ∈ s.loop.log ↔ i < s.loop.fetched ∧ s.arrived[i]? = some r) ∧
    s.loop.queue = s.arrived.drop s.loop.fetched ∧
    (s.loop.stopped = true → ∀ i r, s.arrived[i]? = some r →
      bytesDone s.loop.log i = r.bytes) ∧
    ∀ more : List LoopTurn, (∀ t ∈ more, t.queued = []) → s.loop.left ≤ more.length →
      ∀ i r, s.arrived[i]? = some r →
        bytesDone (queuedRun (turns ++ more)).loop.log i = r.bytes := by
  intro s
  have h : Kept s.loop s.arrived := kept_run turns
  refine ⟨h.fetched, h.queue, fun hstop i r hi => ?_, fun more hquiet hlen i r hi => ?_⟩
  · exact (h.complete (h.left_of_stopped hstop) hi).2
  · unfold queuedRun
    rw [List.foldl_append]
    exact completed_left h more hquiet hlen hi

end CdPlayer
