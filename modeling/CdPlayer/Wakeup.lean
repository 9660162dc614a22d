/-
CdPlayer/Wakeup.lean

Going to sleep and being woken: the thread of `tcr_issue_rq` between the
block layer and `kthread_stop` (cdrom.c), statement by statement.

The thread says that it is going to sleep (`TASK_INTERRUPTIBLE`), looks for a
request and for `kthread_should_stop`, and only then calls `schedule`; a
wake-up in between makes `schedule` return at once.  The block layer queues
a request and then calls `tcr_request`, which wakes the thread;
`kthread_stop` sets its flag and then wakes the thread.  Anything may
happen between two statements of the thread.

* `no_lost_wakeup`: however the statements interleave, the thread sleeps
  only while nothing waits for it that is not about to wake it, and left to
  itself it completes all that is queued within a bounded number of its
  statements, or ends if it has been told to.
* `statements_are_turns`: what the statements do are turns of the loop as
  `Requests` and `Queue` have them.
* `removal_leaves`: a thread that has been stopped has completed what came
  before its last look at the queue, and leaves behind, for good, what came
  after it; that may be before `kthread_stop` is called (`stop_race`).
-/
import CdPlayer.Queue

namespace CdPlayer

open Run

/-! ### The thread, statement by statement -/

/-- Where the thread is. -/
inductive Pc
  /-- `if (req == NULL) set_current_state(TASK_INTERRUPTIBLE)`. -/
  | top
  /-- `blk_fetch_request`, under the lock of the queue. -/
  | fetch
  /-- `if (!req) if (kthread_should_stop())`. -/
  | test
  /-- `schedule(); continue`. -/
  | wait
  /-- The segment at hand. -/
  | work
  /-- `schedule()` at the end of a turn. -/
  | yieldCpu
  | ended
  deriving DecidableEq

structure TcrTask where
  loop : RqLoop
  pc : Pc
  /-- The state of the task is `TASK_INTERRUPTIBLE`. -/
  interruptible : Bool
  /-- It is off the run queue. -/
  asleep : Bool
  /-- The block layer has yet to call `tcr_request`. -/
  requestDue : Bool
  shouldStop : Bool
  /-- `kthread_stop` has yet to wake the thread. -/
  stopDue : Bool

inductive TaskOp
  /-- The block layer queues a request. -/
  | submit (r : BlkRequest)
  | tcrRequest
  /-- The first half of `kthread_stop`: the flag. -/
  | kthreadStop
  /-- The second half: the wake-up. -/
  | stopWake
  /-- The next statement of the thread, with what the driver says if it is the
  work on a segment. -/
  | run (stateEject ret : Int)

/-- `wake_up_process`. -/
def TcrTask.wakeUp (s : TcrTask) : TcrTask := { s with interruptible := false, asleep := false }

/-- `schedule`: the thread goes off the run queue unless its state is
`TASK_RUNNING`. -/
def TcrTask.schedule (s : TcrTask) : TcrTask := { s with pc := .top, asleep := s.interruptible }

/-- The next statement of the thread. -/
def threadStatement (stateEject ret : Int) (s : TcrTask) : TcrTask :=
  if s.asleep then s
  else
    match s.pc with
    | .top =>
      match s.loop.req with
      | none => { s with interruptible := true, pc := .fetch }
      | some _ => { s with pc := .test }
    | .fetch => { s with loop := blkFetchRequest s.loop, pc := .test }
    | .test =>
      match s.loop.req with
      | none =>
        if s.shouldStop then
          { s with interruptible := false, pc := .ended }
        else { s with pc := .wait }
      | some _ => { s with interruptible := false, pc := .work }
    | .wait => s.schedule
    | .work =>
      match s.loop.req with
      | none => s
      | some (i, r) =>
        { s with
          loop := handleSegment i r ⟨[], s.shouldStop, stateEject, ret⟩ s.loop
          pc := .yieldCpu }
    | .yieldCpu => s.schedule
    | .ended => s

def taskStep (s : TcrTask) : TaskOp → TcrTask
  | .submit r =>
    { s with loop := { s.loop with queue := s.loop.queue ++ [r] }, requestDue := true }
  | .tcrRequest => if s.requestDue then { s.wakeUp with requestDue := false } else s
  | .kthreadStop => { s with shouldStop := true, stopDue := true }
  | .stopWake => if s.stopDue then { s.wakeUp with stopDue := false } else s
  | .run stateEject ret => threadStatement stateEject ret s

/-- `kthread_run`. -/
def TcrTask.initial : TcrTask := ⟨.initial, .top, false, false, false, false, false⟩

/-- What is queued. -/
def TaskOp.submitted : TaskOp → List BlkRequest
  | .submit r => [r]
  | .tcrRequest | .kthreadStop | .stopWake | .run _ _ => []

/-! ### The invariant -/

/-- A request that waits is about to wake the thread. -/
def TcrTask.QueueSeen (s : TcrTask) : Prop := s.loop.queue = [] ∨ s.requestDue = true

/-- So is the flag of `kthread_stop`. -/
def TcrTask.StopSeen (s : TcrTask) : Prop := s.shouldStop = true → s.stopDue = true

/-- What holds where the thread is. -/
def TcrTask.Here (s : TcrTask) : Prop :=
  match s.pc with
  | .top => s.asleep = true → s.loop.req = none ∧ s.QueueSeen ∧ s.StopSeen
  | .fetch => s.loop.req = none
  | .test => s.loop.req = none → s.interruptible = true → s.QueueSeen
  | .wait => s.loop.req = none ∧ (s.interruptible = true → s.QueueSeen ∧ s.StopSeen)
  | .work => s.loop.req ≠ none ∧ s.interruptible = false
  | .yieldCpu => s.interruptible = false
  | .ended => s.loop.req = none ∧ s.shouldStop = true

/-- What holds between any two statements. -/
structure Wakeful (s : TcrTask) (arrived : List BlkRequest) : Prop where
  kept : Kept s.loop arrived
  /-- It is `pc` that says whether the loop has been left. -/
  running : s.loop.stopped = false
  asleep : s.asleep = true → s.pc = .top
  here : s.Here

theorem wakeful_initial : Wakeful .initial [] where
  kept := kept_initial
  running := rfl
  asleep := fun _ => rfl
  here := fun h => by cases h

variable {s s' : TcrTask} {arrived : List BlkRequest}

/-- What the others do leaves standing what the thread knows, if it hides
nothing from a thread that is about to sleep or asleep. -/
theorem TcrTask.Here.stable (h : s.Here) (hpc : s'.pc = s.pc) (hreq : s'.loop.req = s.loop.req)
    (hshould : s.shouldStop = true → s'.shouldStop = true)
    (hint : s'.interruptible = true → s.interruptible = true ∧
      (s.QueueSeen → s'.QueueSeen) ∧ (s.StopSeen → s'.StopSeen))
    (hasleep : s'.asleep = true → s.asleep = true ∧
      (s.QueueSeen → s'.QueueSeen) ∧ (s.StopSeen → s'.StopSeen)) : s'.Here := by
  have hstill (hrun : s.interruptible = false) : s'.interruptible = false :=
    Bool.eq_false_iff.mpr fun hs => Bool.eq_false_iff.mp hrun (hint hs).1
  unfold TcrTask.Here at h ⊢
  rw [hpc, hreq]
  cases hs : s.pc with
  | top =>
    rw [hs] at h
    intro hsleep
    obtain ⟨hsleep', hqueue, hstop⟩ := hasleep hsleep
    exact ⟨(h hsleep').1, hqueue (h hsleep').2.1, hstop (h hsleep').2.2⟩
  | fetch =>
    rw [hs] at h
    exact h
  | test =>
    rw [hs] at h
    intro hnone hs'
    exact (hint hs').2.1 (h hnone (hint hs').1)
  | wait =>
    rw [hs] at h
    refine ⟨h.1, fun hs' => ?_⟩
    obtain ⟨hs', hqueue, hstop⟩ := hint hs'
    exact ⟨hqueue (h.2 hs').1, hstop (h.2 hs').2⟩
  | work =>
    rw [hs] at h
    exact ⟨h.1, hstill h.2⟩
  | yieldCpu =>
    rw [hs] at h
    exact hstill h
  | ended =>
    rw [hs] at h
    exact ⟨h.1, hshould h.2⟩

theorem Wakeful.submit (h : Wakeful s arrived) (r : BlkRequest) :
    Wakeful (taskStep s (.submit r)) (arrived ++ [r]) where
  kept := h.kept.arrive h.running [r]
  running := h.running
  asleep := h.asleep
  here := h.here.stable rfl rfl id (fun hint => ⟨hint, fun _ => .inr rfl, fun hstop => hstop⟩)
    fun hsleep => ⟨hsleep, fun _ => .inr rfl, fun hstop => hstop⟩

theorem Wakeful.kthreadStop (h : Wakeful s arrived) :
    Wakeful (taskStep s .kthreadStop) arrived where
  kept := h.kept
  running := h.running
  asleep := h.asleep
  here := h.here.stable rfl rfl (fun _ => rfl)
    (fun hint => ⟨hint, fun hqueue => hqueue, fun _ _ => rfl⟩)
    fun hsleep => ⟨hsleep, fun hqueue => hqueue, fun _ _ => rfl⟩

/-- A thread that has been woken looks again. -/
theorem Wakeful.wakeUp (h : Wakeful s arrived) (requestDue stopDue : Bool) :
    Wakeful { s.wakeUp with requestDue := requestDue, stopDue := stopDue } arrived where
  kept := h.kept
  running := h.running
  asleep := fun hsleep => by cases hsleep
  here := h.here.stable rfl rfl id (fun hint => by cases hint) fun hsleep => by cases hsleep

theorem blkFetchRequest_stopped (s : RqLoop) : (blkFetchRequest s).stopped = s.stopped := by
  unfold blkFetchRequest
  split <;> rfl

/-- **Every statement of the thread keeps the invariant.** -/
theorem Wakeful.statement (h : Wakeful s arrived) (stateEject ret : Int) :
    Wakeful (threadStatement stateEject ret s) arrived := by
  have here := h.here
  unfold threadStatement
  by_cases hsleep : s.asleep = true
  · rw [if_pos hsleep]
    exact h
  rw [if_neg hsleep]
  unfold TcrTask.Here at here
  cases hpc : s.pc with
  | top =>
    rcases hreq : s.loop.req with - | p
    · exact ⟨h.kept, h.running, fun hs => absurd hs hsleep, hreq⟩
    · refine ⟨h.kept, h.running, fun hs => absurd hs hsleep, fun hnone => ?_⟩
      rw [hreq] at hnone
      cases hnone
  | fetch =>
    rw [hpc] at here
    refine ⟨h.kept.blkFetchRequest here h.running, ?_, fun hs => absurd hs hsleep,
      fun hnone _ => .inl (blkFetchRequest_queue hnone)⟩
    exact (blkFetchRequest_stopped s.loop).trans h.running
  | test =>
    rw [hpc] at here
    rcases hreq : s.loop.req with - | p
    · simp only
      split
      · next hstop => exact ⟨h.kept, h.running, fun hs => absurd hs hsleep, hreq, hstop⟩
      · next hstop =>
        refine ⟨h.kept, h.running, fun hs => absurd hs hsleep, hreq, fun hint => ?_⟩
        exact ⟨here hreq hint, fun hs => absurd hs hstop⟩
    · refine ⟨h.kept, h.running, fun hs => absurd hs hsleep, ?_, rfl⟩
      rw [hreq]
      exact Option.some_ne_none p
  | wait =>
    rw [hpc] at here
    exact ⟨h.kept, h.running, fun _ => rfl, fun hint => ⟨here.1, here.2 hint⟩⟩
  | work =>
    rw [hpc] at here
    rcases hreq : s.loop.req with - | ⟨i, r⟩
    · exact absurd hreq here.1
    · refine ⟨h.kept.handleSegment hreq _, ?_, fun hs => absurd hs hsleep, here.2⟩
      exact (handleSegment_handled s.loop i r _).stopped.trans h.running
  | yieldCpu =>
    rw [hpc] at here
    exact ⟨h.kept, h.running, fun _ => rfl, fun hint => absurd hint (Bool.eq_false_iff.mp here)⟩
  | ended => exact h

/-- **Whatever happens next keeps the invariant.** -/
theorem Wakeful.step (h : Wakeful s arrived) (op : TaskOp) :
    Wakeful (taskStep s op) (arrived ++ op.submitted) := by
  cases op with
  | submit r => exact h.submit r
  | tcrRequest =>
    rw [TaskOp.submitted, List.append_nil, taskStep]
    split
    · exact h.wakeUp false s.stopDue
    · exact h
  | kthreadStop =>
    rw [TaskOp.submitted, List.append_nil]
    exact h.kthreadStop
  | stopWake =>
    rw [TaskOp.submitted, List.append_nil, taskStep]
    split
    · exact h.wakeUp s.requestDue false
    · exact h
  | run stateEject ret =>
    rw [TaskOp.submitted, List.append_nil]
    exact h.statement stateEject ret

theorem Wakeful.run (h : Wakeful s arrived) (ops : List TaskOp) :
    Wakeful (ops.foldl taskStep s) (arrived ++ ops.flatMap (·.submitted)) := by
  induction ops generalizing s arrived with
  | nil =>
    rw [List.flatMap_nil, List.append_nil]
    exact h
  | cons op ops ih =>
    rw [List.foldl_cons, List.flatMap_cons, ← List.append_assoc]
    exact ih (h.step op)

/-! ### Progress -/

/-- The thread is at the end of its work: it has ended, or nothing is left and
it has not been told to end. -/
def TcrTask.AtRest (s : TcrTask) : Prop :=
  s.pc = .ended ∨ s.loop.left = 0 ∧ s.shouldStop = false

/-- How many statements may pass before the next segment is handled. -/
def TcrTask.rank (s : TcrTask) : Nat :=
  match s.pc with
  | .top => 3
  | .fetch => 2
  | .test => if s.loop.req.isSome ∨ s.shouldStop then 1 else 5
  | .wait => 4
  | .work => 0
  | .yieldCpu => 4
  | .ended => 0

def TcrTask.potential (s : TcrTask) : Nat := 6 * s.loop.left + s.rank

/-- What a statement of the thread leaves alone. -/
theorem threadStatement_others (stateEject ret : Int) (s : TcrTask) :
    (threadStatement stateEject ret s).requestDue = s.requestDue ∧
    (threadStatement stateEject ret s).stopDue = s.stopDue ∧
    (threadStatement stateEject ret s).shouldStop = s.shouldStop := by
  unfold threadStatement
  split
  · exact ⟨rfl, rfl, rfl⟩
  cases s.pc with
  | top => cases s.loop.req <;> exact ⟨rfl, rfl, rfl⟩
  | test =>
    cases s.loop.req with
    | none =>
      simp only
      split <;> exact ⟨rfl, rfl, rfl⟩
    | some p => exact ⟨rfl, rfl, rfl⟩
  | work => cases s.loop.req <;> exact ⟨rfl, rfl, rfl⟩
  | _ => exact ⟨rfl, rfl, rfl⟩

/-- A thread that is asleep is at rest. -/
theorem Wakeful.atRest_of_asleep (h : Wakeful s arrived) (hrequest : s.requestDue = false)
    (hstop : s.stopDue = false) (hsleep : s.asleep = true) : s.AtRest := by
  have here := h.here
  unfold TcrTask.Here at here
  rw [h.asleep hsleep] at here
  obtain ⟨hreq, hqueue, hstop'⟩ := here hsleep
  refine .inr ⟨h.kept.left_eq_zero.mpr ⟨hreq, ?_⟩, ?_⟩
  · exact hqueue.resolve_right (Bool.eq_false_iff.mp hrequest)
  · exact Bool.eq_false_iff.mpr fun hs => Bool.eq_false_iff.mp hstop (hstop' hs)

/-- Nothing comes back. -/
theorem Wakeful.statement_left (h : Wakeful s arrived) (stateEject ret : Int) :
    (threadStatement stateEject ret s).loop.left ≤ s.loop.left := by
  have here := h.here
  unfold TcrTask.Here at here
  unfold threadStatement
  split
  · exact le_rfl
  cases hpc : s.pc with
  | top => cases s.loop.req <;> exact le_rfl
  | fetch =>
    rw [blkFetchRequest_left]
    exact Nat.le_add_right _ _
  | test =>
    cases s.loop.req with
    | none =>
      simp only
      split <;> exact le_rfl
    | some p => exact le_rfl
  | work =>
    rw [hpc] at here
    rcases hreq : s.loop.req with - | ⟨i, r⟩
    · exact absurd hreq here.1
    · exact (h.kept.handleSegment_left hreq _).le
  | wait => exact le_rfl
  | yieldCpu => exact le_rfl
  | ended => exact le_rfl

/-- **Every statement takes the thread nearer to its rest.** -/
theorem Wakeful.potential_lt (h : Wakeful s arrived) (hrequest : s.requestDue = false)
    (hstop : s.stopDue = false) (hrest : ¬ s.AtRest) (stateEject ret : Int) :
    (threadStatement stateEject ret s).potential < s.potential := by
  have hawake : ¬ s.asleep = true := fun hsleep =>
    hrest (h.atRest_of_asleep hrequest hstop hsleep)
  have here := h.here
  unfold TcrTask.Here at here
  unfold threadStatement TcrTask.potential TcrTask.rank
  rw [if_neg hawake]
  cases hpc : s.pc with
  | top =>
    rcases hreq : s.loop.req with - | p
    · exact Nat.lt_succ_self _
    · simp [hreq]
  | fetch =>
    rw [hpc] at here
    have hleft : s.loop.left = segmentCount s.loop.queue := by
      unfold RqLoop.left
      rw [RqLoop.atHandLeft_none here, Nat.add_zero]
    simp only [blkFetchRequest_left, ← hleft]
    split
    · exact Nat.lt_succ_self _
    · next hnothing =>
      -- a thread that finds nothing here is at rest
      obtain ⟨hreq, hs⟩ := not_or.mp hnothing
      have hnone : (blkFetchRequest s.loop).req = none := by
        simpa using hreq
      refine absurd (.inr ⟨?_, Bool.eq_false_iff.mpr hs⟩) hrest
      rw [hleft, ← blkFetchRequest_left]
      exact (h.kept.blkFetchRequest here h.running).left_eq_zero.mpr
        ⟨hnone, blkFetchRequest_queue hnone⟩
  | test =>
    rcases hreq : s.loop.req with - | p
    · simp only
      split
      · next hs => simp [hs]
      · next hs => simp [hs]
    · simp
  | work =>
    rw [hpc] at here
    rcases hreq : s.loop.req with - | ⟨i, r⟩
    · exact absurd hreq here.1
    · have hless := h.kept.handleSegment_left hreq ⟨[], s.shouldStop, stateEject, ret⟩
      simp only
      omega
  | wait => exact Nat.lt_succ_self _
  | yieldCpu => exact Nat.lt_succ_self _
  | ended => exact absurd (.inl hpc) hrest

/-- A thread at rest stays there. -/
theorem Wakeful.atRest_statement (h : Wakeful s arrived) (hrest : s.AtRest)
    (stateEject ret : Int) : (threadStatement stateEject ret s).AtRest := by
  rcases hrest with hend | ⟨hleft, hs⟩
  · refine .inl ?_
    unfold threadStatement
    rw [hend]
    split <;> exact hend
  · refine .inr ⟨?_, (threadStatement_others stateEject ret s).2.2.trans hs⟩
    exact Nat.le_zero.mp (le_of_le_of_eq (h.statement_left stateEject ret) hleft)

theorem TcrTask.potential_le (s : TcrTask) : s.potential ≤ 6 * s.loop.left + 5 := by
  unfold TcrTask.potential TcrTask.rank
  refine Nat.add_le_add_left ?_ _
  cases s.pc with
  | test =>
    simp only
    split <;> decide
  | _ => simp

/-- The thread alone, with what the driver says to it. -/
def alone (outcomes : List (Int × Int)) (s : TcrTask) : TcrTask :=
  outcomes.foldl (fun s o => threadStatement o.1 o.2 s) s

/-- **Left alone the thread comes to rest.** -/
theorem Wakeful.comes_to_rest (h : Wakeful s arrived) (hrequest : s.requestDue = false)
    (hstop : s.stopDue = false) (outcomes : List (Int × Int))
    (hlen : 6 * s.loop.left + 5 < outcomes.length) :
    Wakeful (alone outcomes s) arrived ∧ (alone outcomes s).AtRest ∧
      (alone outcomes s).shouldStop = s.shouldStop := by
  have hkeep : ∀ (u : TcrTask) (o : Int × Int),
      (Wakeful u arrived ∧ u.requestDue = false ∧ u.stopDue = false ∧
        u.shouldStop = s.shouldStop) →
      (fun u => Wakeful u arrived ∧ u.requestDue = false ∧ u.stopDue = false ∧
        u.shouldStop = s.shouldStop) (threadStatement o.1 o.2 u) := by
    rintro u ⟨stateEject, ret⟩ ⟨hu, hrequest, hstop, hshould⟩
    obtain ⟨hrequest', hstop', hshould'⟩ := threadStatement_others stateEject ret u
    exact ⟨hu.statement stateEject ret, hrequest'.trans hrequest, hstop'.trans hstop,
      hshould'.trans hshould⟩
  have hstart := And.intro h (And.intro hrequest (And.intro hstop (Eq.refl s.shouldStop)))
  have hend := foldl_inv hkeep outcomes hstart
  refine ⟨hend.1, ?_, hend.2.2.2⟩
  exact foldl_reaches hkeep (fun u o hu hrest => hu.1.atRest_statement hrest o.1 o.2)
    (fun u o hu hrest => hu.1.potential_lt hu.2.1 hu.2.2.1 hrest o.1 o.2) hstart
    (lt_of_le_of_lt s.potential_le hlen)

/-- A thread that has ended has been told to. -/
theorem Wakeful.shouldStop_of_ended (h : Wakeful s arrived) (hend : s.pc = .ended) :
    s.loop.req = none ∧ s.shouldStop = true := by
  have here := h.here
  unfold TcrTask.Here at here
  rw [hend] at here
  exact here

/-- **No wake-up is lost.**  However the statements of the thread, the block
layer and `kthread_stop` interleave: the thread is asleep only with nothing
at hand, and whatever it has not seen, a request that waits or the flag, is
about to wake it; the requests are fetched in the order in which they came,
and when the thread has ended all that it has fetched are completed; and a
thread that nobody is about to wake, left alone, completes everything, or
ends if it has been told to, within a bounded number of statements. -/
theorem no_lost_wakeup (ops : List TaskOp) :
    let s := ops.foldl taskStep .initial
    let arrived := ops.flatMap (·.submitted)
    (s.asleep = true → s.loop.req = none ∧ (s.loop.queue = [] ∨ s.requestDue = true) ∧
      (s.shouldStop = true → s.stopDue = true)) ∧
    (∀ i r, .fetch i r ∈ s.loop.log ↔ i < s.loop.fetched ∧ arrived[i]? = some r) ∧
    (s.pc = .ended → ∀ i r, .fetch i r ∈ s.loop.log → bytesDone s.loop.log i = r.bytes) ∧
    (s.requestDue = false → s.stopDue = false → ∀ outcomes : List (Int × Int),
      6 * s.loop.left + 5 < outcomes.length →
      if s.shouldStop then (alone outcomes s).pc = .ended
      else ∀ i r, arrived[i]? = some r →
        bytesDone (alone outcomes s).loop.log i = r.bytes) := by
  intro s arrived
  have h : Wakeful s arrived := wakeful_initial.run ops
  refine ⟨fun hsleep => ?_, h.kept.fetched, fun hend i r hfetch => ?_,
    fun hrequest hstop outcomes hlen => ?_⟩
  · have here := h.here
    unfold TcrTask.Here at here
    rw [h.asleep hsleep] at here
    exact here hsleep
  · refine (h.kept.accounted.done i r hfetch).resolve_left fun hreq => ?_
    rw [(h.shouldStop_of_ended hend).1] at hreq
    cases hreq
  · obtain ⟨ht, hrest, hshould⟩ := h.comes_to_rest hrequest hstop outcomes hlen
    split
    · next hs =>
      refine hrest.resolve_right fun hquiet => ?_
      rw [hshould, hs] at hquiet
      cases hquiet.2
    · next hs =>
      intro i r hi
      refine (ht.kept.complete ?_ hi).2
      refine (hrest.resolve_left fun hend => hs ?_).1
      exact hshould.symm.trans (ht.shouldStop_of_ended hend).2

/-! ### Statements and turns -/

/-- Requests come. -/
def RqLoop.queueUp (s : RqLoop) (waiting : List BlkRequest) : RqLoop :=
  { s with queue := s.queue ++ waiting }

/-- The thread has a request at hand, and has still to see to it. -/
def TcrTask.InTurn (s : TcrTask) : Prop := s.loop.req ≠ none ∧ (s.pc = .test ∨ s.pc = .work)

instance (s : TcrTask) : Decidable s.InTurn := inferInstanceAs (Decidable (_ ∧ _))

/-- The thread has made some turns of the loop, or it is in the middle of the
next one; `waiting` are the requests that no turn has seen. -/
inductive IsTurns (s : TcrTask) (arrived : List BlkRequest) : Prop
  | between (turns : List LoopTurn) (waiting : List BlkRequest) (hpc : ¬ s.InTurn)
      (hrun : (queuedRun turns).loop.stopped = false)
      (harrived : arrived = (queuedRun turns).arrived ++ waiting)
      (hloop : s.loop = (queuedRun turns).loop.queueUp waiting)
  | within (turns : List LoopTurn) (t : LoopTurn) (waiting : List BlkRequest) (hpc : s.InTurn)
      (hrun : (queuedRun turns).loop.stopped = false)
      (harrived : arrived = (queuedRun turns).arrived ++ (t.queued ++ waiting))
      (hloop : s.loop = (atHand (queuedRun turns).loop t).queueUp waiting)

theorem isTurns_initial : IsTurns .initial [] :=
  .between [] [] (fun h => h.1 rfl) rfl rfl rfl

theorem RqLoop.queueUp_queueUp (s : RqLoop) (p q : List BlkRequest) :
    (s.queueUp p).queueUp q = s.queueUp (p ++ q) := by
  unfold RqLoop.queueUp
  rw [List.append_assoc]

@[simp] theorem RqLoop.queueUp_nil (s : RqLoop) : s.queueUp [] = s := by
  unfold RqLoop.queueUp
  rw [List.append_nil]

theorem atHand_of_none {s : RqLoop} (h : s.req = none) (t : LoopTurn) :
    atHand s t = blkFetchRequest (s.queueUp t.queued) := by
  unfold atHand RqLoop.queueUp
  rw [h]

theorem atHand_of_some {s : RqLoop} (h : s.req ≠ none) (t : LoopTurn) :
    atHand s t = s.queueUp t.queued := by
  unfold atHand RqLoop.queueUp
  rcases hreq : s.req with - | p
  · exact absurd hreq h
  · rfl

/-- A look that finds nothing changes nothing. -/
theorem blkFetchRequest_eq {s : RqLoop} (hnone : s.req = none)
    (h : (blkFetchRequest s).req = none) : blkFetchRequest s = s := by
  have hqueue := blkFetchRequest_queue h
  obtain ⟨queue, req, table, fetched, log, stopped⟩ := s
  cases queue with
  | nil =>
    cases hnone
    rfl
  | cons r queue => cases h

/-- A segment is handled whatever comes meanwhile. -/
theorem handleSegment_queueUp (i : Nat) (r : BlkRequest) (t : LoopTurn) (s : RqLoop)
    (waiting : List BlkRequest) :
    handleSegment i r t (s.queueUp waiting) = (handleSegment i r t s).queueUp waiting := by
  unfold handleSegment
  simp only
  split
  · split
    · split
      · rfl
      · split
        · rw [apply_ite (RqLoop.queueUp · waiting)]
          rfl
        · rfl
    · rfl
  · rfl

theorem IsTurns.submit (h : IsTurns s arrived) (r : BlkRequest) :
    IsTurns (taskStep s (.submit r)) (arrived ++ [r]) := by
  cases h with
  | between turns waiting hpc hrun harrived hloop =>
    refine .between turns (waiting ++ [r]) hpc hrun ?_ ?_
    · rw [harrived, List.append_assoc]
    · rw [← RqLoop.queueUp_queueUp, ← hloop]
      rfl
  | within turns t waiting hpc hrun harrived hloop =>
    refine .within turns t (waiting ++ [r]) hpc hrun ?_ ?_
    · rw [harrived, List.append_assoc, List.append_assoc]
    · rw [← RqLoop.queueUp_queueUp, ← hloop]
      rfl

/-- A step that leaves the queue alone, within a turn. -/
theorem IsTurns.goOn (h : IsTurns s arrived) (hin : s.InTurn) (hin' : s'.InTurn)
    (hloop : s'.loop = s.loop) : IsTurns s' arrived := by
  cases h with
  | between turns waiting hpc => exact absurd hin hpc
  | within turns t waiting _ hrun harrived hl =>
    exact .within turns t waiting hin' hrun harrived (hloop.trans hl)

theorem TcrTask.not_inTurn (htest : s.pc ≠ .test) (hwork : s.pc ≠ .work) : ¬ s.InTurn :=
  fun h => h.2.elim htest hwork

theorem atHand_stopped (s : RqLoop) (t : LoopTurn) : (atHand s t).stopped = s.stopped := by
  rcases hreq : s.req with - | p
  · rw [atHand_of_none hreq, blkFetchRequest_stopped]
    rfl
  · rw [atHand_of_some (fun hs => Option.some_ne_none p (hreq.symm.trans hs))]
    rfl

/-- A step of the thread that leaves the queue alone, outside of a turn. -/
theorem IsTurns.pass (h : IsTurns s arrived) (hout : ¬ s.InTurn) (hout' : ¬ s'.InTurn)
    (hloop : s'.loop = s.loop) : IsTurns s' arrived := by
  cases h with
  | between turns waiting hpc hrun harrived hl =>
    exact .between turns waiting hout' hrun harrived (hloop.trans hl)
  | within turns t waiting hpc => exact absurd hpc hout

/-- What leaves the queue and the thread where they are. -/
theorem IsTurns.stay (h : IsTurns s arrived) (hpc : s'.pc = s.pc) (hloop : s'.loop = s.loop) :
    IsTurns s' arrived := by
  have hturn : s'.InTurn ↔ s.InTurn := by
    unfold TcrTask.InTurn
    rw [hpc, hloop]
  by_cases hin : s.InTurn
  · exact h.goOn hin (hturn.mpr hin) hloop
  · exact h.pass hin (fun hs => hin (hturn.mp hs)) hloop

/-- A turn begins with the request at hand. -/
theorem IsTurns.resume (h : IsTurns s arrived) (hout : ¬ s.InTurn) (hin : s'.InTurn)
    (hloop : s'.loop = s.loop) : IsTurns s' arrived := by
  cases h with
  | within turns t waiting hpc => exact absurd hpc hout
  | between turns waiting hpc hrun harrived hl =>
    refine .within turns ⟨[], false, 0, 0⟩ waiting hin hrun harrived ?_
    have hreq := hin.1
    rw [hloop, hl] at hreq
    rw [hloop, hl, atHand_of_some (s := (queuedRun turns).loop) hreq, RqLoop.queueUp_nil]

/-- A turn begins with the look at the queue, if it finds a request. -/
theorem IsTurns.fetch (h : IsTurns s arrived) (hout : ¬ s.InTurn) (hnone : s.loop.req = none)
    (hpc : s'.pc = .test) (hloop : s'.loop = blkFetchRequest s.loop) : IsTurns s' arrived := by
  cases h with
  | within turns t waiting hpc => exact absurd hpc hout
  | between turns waiting _ hrun harrived hl =>
    rcases hreq : s'.loop.req with - | p
    · -- the look finds nothing, and changes nothing
      refine .between turns waiting (fun hs => hs.1 hreq) hrun harrived ?_
      rw [hloop] at hreq
      rw [hloop, ← hl, blkFetchRequest_eq hnone hreq]
    · refine .within turns ⟨waiting, false, 0, 0⟩ [] ⟨?_, .inl hpc⟩ hrun ?_ ?_
      · rw [hreq]
        exact Option.some_ne_none p
      · rw [harrived, List.append_nil]
      · rw [hl] at hnone
        rw [hloop, hl, atHand_of_none (s := (queuedRun turns).loop) hnone, RqLoop.queueUp_nil]

/-- A turn ends with the work on the segment. -/
theorem IsTurns.work (h : IsTurns s arrived) (hin : s.InTurn) (hout : ¬ s'.InTurn) {i : Nat}
    {r : BlkRequest} (hreq : s.loop.req = some (i, r)) (shouldStop : Bool) (stateEject ret : Int)
    (hloop : s'.loop = handleSegment i r ⟨[], shouldStop, stateEject, ret⟩ s.loop) :
    IsTurns s' arrived := by
  cases h with
  | between turns waiting hpc => exact absurd hin hpc
  | within turns t waiting _ hrun harrived hl =>
    have hstep : queuedStep (queuedRun turns) ⟨t.queued, shouldStop, stateEject, ret⟩ =
        ⟨handleSegment i r ⟨[], shouldStop, stateEject, ret⟩ (atHand (queuedRun turns).loop t),
          (queuedRun turns).arrived ++ t.queued⟩ := by
      rw [hl] at hreq
      have hreq' : (atHand (queuedRun turns).loop t).req = some (i, r) := hreq
      unfold queuedStep
      rw [if_neg (Bool.eq_false_iff.mp hrun), tcrIssueRqStep_eq _ _ hrun]
      have hat : atHand (queuedRun turns).loop ⟨t.queued, shouldStop, stateEject, ret⟩ =
        atHand (queuedRun turns).loop t := rfl
      rw [hat, hreq']
      rfl
    have hrun' : queuedRun (turns ++ [⟨t.queued, shouldStop, stateEject, ret⟩]) = _ :=
      (List.foldl_concat _ _ _ _).trans hstep
    refine .between (turns ++ [⟨t.queued, shouldStop, stateEject, ret⟩]) waiting hout ?_ ?_ ?_
    · rw [hrun', (handleSegment_handled _ i r _).stopped, atHand_stopped]
      exact hrun
    · rw [hrun', harrived, List.append_assoc]
    · rw [hrun', hloop, hl, handleSegment_queueUp]

/-- **Every statement is part of a turn.** -/
theorem IsTurns.statement (h : IsTurns s arrived) (hw : Wakeful s arrived)
    (stateEject ret : Int) : IsTurns (threadStatement stateEject ret s) arrived := by
  have here := hw.here
  unfold TcrTask.Here at here
  unfold threadStatement
  split
  · exact h
  cases hpc : s.pc with
  | top =>
    have hout : ¬ s.InTurn := TcrTask.not_inTurn (by rw [hpc]; decide) (by rw [hpc]; decide)
    rcases hreq : s.loop.req with - | p
    · exact h.pass hout (fun hs => hs.1 hreq) rfl
    · exact h.resume hout ⟨fun hs => Option.some_ne_none p (hreq.symm.trans hs), .inl rfl⟩ rfl
  | fetch =>
    rw [hpc] at here
    exact h.fetch (fun hs => hs.1 here) here rfl rfl
  | test =>
    rcases hreq : s.loop.req with - | p
    · have hout : ¬ s.InTurn := fun hs => hs.1 hreq
      simp only
      split
      · exact h.pass hout (fun hs => hs.1 hreq) rfl
      · exact h.pass hout (fun hs => hs.1 hreq) rfl
    · have hsome : s.loop.req ≠ none := fun hs => Option.some_ne_none p (hreq.symm.trans hs)
      exact h.goOn ⟨hsome, .inl hpc⟩ ⟨hsome, .inr rfl⟩ rfl
  | work =>
    rw [hpc] at here
    rcases hreq : s.loop.req with - | ⟨i, r⟩
    · exact absurd hreq here.1
    · exact h.work ⟨here.1, .inr hpc⟩ (TcrTask.not_inTurn (by simp) (by simp)) hreq _ _ _ rfl
  | wait =>
    rw [hpc] at here
    exact h.pass (fun hs => hs.1 here.1) (fun hs => hs.1 here.1) rfl
  | yieldCpu =>
    exact h.pass (TcrTask.not_inTurn (by rw [hpc]; decide) (by rw [hpc]; decide))
      (TcrTask.not_inTurn (by simp [TcrTask.schedule]) (by simp [TcrTask.schedule])) rfl
  | ended => exact h

theorem IsTurns.step (h : IsTurns s arrived) (hw : Wakeful s arrived) (op : TaskOp) :
    IsTurns (taskStep s op) (arrived ++ op.submitted) := by
  cases op with
  | submit r => exact h.submit r
  | tcrRequest =>
    rw [TaskOp.submitted, List.append_nil, taskStep]
    split
    · exact h.stay rfl rfl
    · exact h
  | kthreadStop =>
    rw [TaskOp.submitted, List.append_nil]
    exact h.stay rfl rfl
  | stopWake =>
    rw [TaskOp.submitted, List.append_nil, taskStep]
    split
    · exact h.stay rfl rfl
    · exact h
  | run stateEject ret =>
    rw [TaskOp.submitted, List.append_nil]
    exact h.statement hw stateEject ret

theorem IsTurns.run (h : IsTurns s arrived) (hw : Wakeful s arrived) (ops : List TaskOp) :
    IsTurns (ops.foldl taskStep s) (arrived ++ ops.flatMap (·.submitted)) := by
  induction ops generalizing s arrived with
  | nil =>
    rw [List.flatMap_nil, List.append_nil]
    exact h
  | cons op ops ih =>
    rw [List.foldl_cons, List.flatMap_cons, ← List.append_assoc]
    exact ih (h.step hw op) (hw.step op)

/-- **Turns are fine enough.**  However the statements interleave, the thread
has made turns of the loop as `tcrIssueRqStep` makes them, or is in the
middle of the next one, with the request of that turn at hand and the rest of
the turn to come; what came too late for these turns waits in the queue. -/
theorem statements_are_turns (ops : List TaskOp) :
    let s := ops.foldl taskStep .initial
    ∃ (turns : List LoopTurn) (t : LoopTurn) (waiting : List BlkRequest),
      ops.flatMap (·.submitted) = (queuedRun turns).arrived ++ (t.queued ++ waiting) ∧
      s.loop = (if s.InTurn then atHand (queuedRun turns).loop t
        else (queuedRun turns).loop.queueUp t.queued).queueUp waiting := by
  intro s
  have h : IsTurns s (ops.flatMap (·.submitted)) := isTurns_initial.run wakeful_initial ops
  cases h with
  | between turns waiting hpc hrun harrived hloop =>
    refine ⟨turns, ⟨[], false, 0, 0⟩, waiting, harrived, ?_⟩
    rw [if_neg hpc, RqLoop.queueUp_nil]
    exact hloop
  | within turns t waiting hpc hrun harrived hloop =>
    refine ⟨turns, t, waiting, harrived, ?_⟩
    rw [if_pos hpc]
    exact hloop

/-! ### Removal -/

/-- The thread has looked at the queue, and found nothing. -/
def TcrTask.FoundNothing (s : TcrTask) : Prop :=
  s.pc = .test ∧ s.loop.req = none ∨ s.pc = .ended

/-- It has just looked, or it had found nothing before. -/
theorem TcrTask.FoundNothing.back {op : TaskOp} (h : (taskStep s op).FoundNothing) :
    (s.FoundNothing ∧ (taskStep s op).loop.queue = s.loop.queue ++ op.submitted) ∨
    ∃ o : Int × Int, op = .run o.1 o.2 ∧ s.pc = .fetch ∧ (taskStep s op).loop.queue = [] := by
  cases op with
  | submit r => exact .inl ⟨h, rfl⟩
  | tcrRequest =>
    left
    rw [taskStep] at h ⊢
    rw [TaskOp.submitted, List.append_nil]
    split at h
    · next hdue =>
      rw [if_pos hdue]
      exact ⟨h, rfl⟩
    · next hdue =>
      rw [if_neg hdue]
      exact ⟨h, rfl⟩
  | kthreadStop => exact .inl ⟨h, (List.append_nil _).symm⟩
  | stopWake =>
    left
    rw [taskStep] at h ⊢
    rw [TaskOp.submitted, List.append_nil]
    split at h
    · next hdue =>
      rw [if_pos hdue]
      exact ⟨h, rfl⟩
    · next hdue =>
      rw [if_neg hdue]
      exact ⟨h, rfl⟩
  | run stateEject ret =>
    rw [taskStep] at h ⊢
    rw [TaskOp.submitted, List.append_nil]
    unfold threadStatement TcrTask.FoundNothing at *
    by_cases hsleep : s.asleep = true
    · rw [if_pos hsleep] at h ⊢
      exact .inl ⟨h, rfl⟩
    rw [if_neg hsleep] at h ⊢
    cases hpc : s.pc with
    | top =>
      rw [hpc] at h
      rcases hreq : s.loop.req with - | p
      · simp [hreq] at h
      · simp [hreq] at h
    | fetch =>
      rw [hpc] at h
      refine .inr ⟨(stateEject, ret), rfl, rfl, ?_⟩
      rcases h with ⟨-, hnone⟩ | hend
      · exact blkFetchRequest_queue hnone
      · cases hend
    | test =>
      left
      rw [hpc] at h
      rcases hreq : s.loop.req with - | p
      · refine ⟨.inl ⟨rfl, rfl⟩, ?_⟩
        simp only
        split <;> rfl
      · simp [hreq] at h
    | wait =>
      rw [hpc] at h
      simp [TcrTask.schedule] at h
    | work =>
      rw [hpc] at h
      rcases hreq : s.loop.req with - | ⟨i, r⟩
      · simp [hreq, hpc] at h
      · simp [hreq] at h
    | yieldCpu =>
      rw [hpc] at h
      simp [TcrTask.schedule] at h
    | ended => exact .inl ⟨.inr rfl, rfl⟩

/-- What waits has come since a look. -/
theorem looked_before (ops : List TaskOp) (h : (ops.foldl taskStep .initial).FoundNothing) :
    ∃ (before after : List TaskOp) (o : Int × Int), ops = before ++ .run o.1 o.2 :: after ∧
      (before.foldl taskStep .initial).pc = .fetch ∧
      (ops.foldl taskStep .initial).loop.queue = after.flatMap (·.submitted) := by
  induction ops using List.reverseRecOn with
  | nil =>
    rcases h with ⟨htest, -⟩ | hend
    · cases htest
    · cases hend
  | append_singleton ops op ih =>
    rw [List.foldl_append, List.foldl_cons, List.foldl_nil] at h ⊢
    rcases h.back with ⟨hbefore, hqueue⟩ | ⟨o, rfl, hpc, hempty⟩
    · obtain ⟨before, after, o, hsplit, hlook, hafter⟩ := ih hbefore
      refine ⟨before, after ++ [op], o, ?_, hlook, ?_⟩
      · rw [hsplit, List.append_assoc]
        rfl
      · rw [hqueue, hafter, List.flatMap_append, List.flatMap_singleton]
    · exact ⟨ops, [], o, rfl, hpc, hempty⟩

/-- Nothing is done any more when the thread has ended. -/
theorem ended_log (hend : s.pc = .ended) (more : List TaskOp) :
    (more.foldl taskStep s).loop.log = s.loop.log := by
  have hkeep : ∀ (u : TcrTask) (op : TaskOp), (u.pc = .ended ∧ u.loop.log = s.loop.log) →
      (fun u : TcrTask => u.pc = .ended ∧ u.loop.log = s.loop.log) (taskStep u op) := by
    rintro u op ⟨hpc, hlog⟩
    cases op with
    | submit r => exact ⟨hpc, hlog⟩
    | tcrRequest =>
      rw [taskStep]
      split <;> exact ⟨hpc, hlog⟩
    | kthreadStop => exact ⟨hpc, hlog⟩
    | stopWake =>
      rw [taskStep]
      split <;> exact ⟨hpc, hlog⟩
    | run stateEject ret =>
      rw [taskStep]
      unfold threadStatement
      rw [hpc]
      split <;> exact ⟨hpc, hlog⟩
  exact (foldl_inv hkeep more ⟨hend, rfl⟩).2

/-- **What a removal leaves behind.**  When the thread has ended, there has been
a look at the queue such that whatever was queued before it is completed, and
whatever was queued after it never will be. -/
theorem removal_leaves (ops : List TaskOp) (hend : (ops.foldl taskStep .initial).pc = .ended) :
    ∃ (before after : List TaskOp) (o : Int × Int), ops = before ++ .run o.1 o.2 :: after ∧
      (before.foldl taskStep .initial).pc = .fetch ∧
      ∀ i r, (ops.flatMap (·.submitted))[i]? = some r → ∀ more : List TaskOp,
        bytesDone ((ops ++ more).foldl taskStep .initial).loop.log i
          = if i < (before.flatMap (·.submitted)).length then r.bytes else 0 := by
  obtain ⟨before, after, o, hsplit, hlook, hqueue⟩ := looked_before ops (.inr hend)
  refine ⟨before, after, o, hsplit, hlook, fun i r hi more => ?_⟩
  have h : Wakeful (ops.foldl taskStep .initial) (ops.flatMap (·.submitted)) :=
    wakeful_initial.run ops
  rw [List.foldl_append, ended_log hend more]
  -- what has been fetched is what had been queued by that look
  have hfetched : (ops.foldl taskStep .initial).loop.fetched
      = (before.flatMap (·.submitted)).length := by
    have hall : ops.flatMap (·.submitted)
        = before.flatMap (·.submitted) ++ after.flatMap (·.submitted) := by
      rw [hsplit, List.flatMap_append]
      rfl
    have hlength := congrArg List.length (h.kept.queue.symm.trans hqueue)
    have hcount := h.kept.count
    rw [List.length_drop, hall, List.length_append] at hlength
    rw [hall, List.length_append] at hcount
    omega
  rw [← hfetched]
  split
  · next hlt =>
    refine (h.kept.accounted.done i r ((h.kept.fetched i r).mpr ⟨hlt, hi⟩)).resolve_left
      fun hreq => ?_
    rw [(h.shouldStop_of_ended hend).1] at hreq
    cases hreq
  · next hge => exact h.kept.fresh_bytes (not_lt.mp hge)

/-- A request that comes when the thread has looked for the last time, before
it is stopped. -/
def lateRequest (r : BlkRequest) : List TaskOp :=
  [.run 0 0, .run 0 0, .submit r, .tcrRequest, .kthreadStop, .stopWake, .run 0 0]

theorem removal_leaves_late : ∃ (before after : List TaskOp) (o : Int × Int),
    lateRequest ⟨true, true, [2048], by decide, by decide⟩ = before ++ .run o.1 o.2 :: after ∧
    (before.foldl taskStep .initial).pc = .fetch ∧
    ∀ more : List TaskOp, bytesDone ((lateRequest ⟨true, true, [2048], by decide, by decide⟩
      ++ more).foldl taskStep .initial).loop.log 0
        = if 0 < (before.flatMap (·.submitted)).length then 2048 else 0 := by
  obtain ⟨before, after, o, hsplit, hlook, hdone⟩ :=
    removal_leaves (lateRequest ⟨true, true, [2048], by decide, by decide⟩) rfl
  exact ⟨before, after, o, hsplit, hlook, fun more => hdone 0 _ rfl more⟩

/-- Such a request is left behind, whatever the thread still does. -/
theorem stop_race (r : BlkRequest) (outcomes : List (Int × Int)) :
    let s := (lateRequest r).foldl taskStep .initial
    (alone outcomes s).pc = .ended ∧ (alone outcomes s).loop.queue = [r] ∧
      bytesDone (alone outcomes s).loop.log 0 = 0 := by
  intro s
  have hend : s.pc = .ended := rfl
  have hstay : alone outcomes s = s := by
    refine foldl_inv (P := fun u => u = s) ?_ outcomes rfl
    rintro u o rfl
    rfl
  rw [hstay]
  exact ⟨rfl, rfl, rfl⟩

end CdPlayer
