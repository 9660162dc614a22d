/-
CdPlayer/Kthread.lean

The kernel thread with its driver, statement by statement.

`Wakeup` has the statements of `tcr_issue_rq` (cdrom.c) beside the block
layer and `kthread_stop`, with an oracle for what the driver says;
`BlockDevice` has the driver, with whole turns of the loop.  Here the thread
makes its statements, and the work on a segment is that of the driver
(`kthreadStep`); between any two statements requests come, the thread is
woken or told to end, and the surroundings of the driver have turns.

Each of the two invariants is kept beside the other (`InOrder.step`), so that
what is known of either part holds of both together.

Main result: `statements_read_the_disc`.
-/
import CdPlayer.BlockDevice
import CdPlayer.Wakeup

namespace CdPlayer

open ByteStore Run

/-! ### The thread and its driver -/

/-- The thread between two statements, the requests' memory and the device. -/
structure TcrKthread where
  task : TcrTask
  /-- Bookkeeping: everything that has been queued. -/
  arrived : List PlacedRequest
  mem : Nat → Mem
  tdev : TcrDevice
  /-- A call of `tcr_read_data` has been cut off. -/
  hung : Bool

inductive KthreadOp
  | submit (p : PlacedRequest)
  | tcrRequest
  | kthreadStop
  | stopWake
  /-- The surroundings of the driver have a turn. -/
  | outside
  /-- The next statement of the thread. -/
  | run

/-- The thread as `BlockDevice` has it. -/
def TcrKthread.thread (s : TcrKthread) : TcrThread :=
  ⟨s.task.loop, s.arrived, s.mem, s.tdev, s.hung⟩

section
variable (env : Env) (codec : Codec) (fuel : Nat)

/-- The next statement of the thread; the work on a segment asks the driver. -/
def kthreadStatement (s : TcrKthread) : TcrKthread :=
  if s.hung ∨ s.task.asleep then s
  else
    match s.task.pc, s.thread.segment with
    | .work, some (i, seg) =>
      match tcrIssueRq env codec fuel seg s.tdev with
      | (none, _, tdev) => { s with tdev := tdev, hung := true }
      | (some _, buffer, tdev) =>
        { s with
          task := threadStatement (turnEject env s.tdev)
            ((turnRet env codec fuel seg s.tdev).getD 0) s.task
          mem := Function.update s.mem i
            (blit (s.mem i) (s.task.loop.table i).completed buffer 0
              (s.task.loop.table i).curBytes)
          tdev := tdev }
    | _, _ => { s with task := threadStatement 0 0 s.task }

def kthreadStep (s : TcrKthread) : KthreadOp → TcrKthread
  | .submit p => { s with task := taskStep s.task (.submit p.request), arrived := s.arrived ++ [p] }
  | .tcrRequest => { s with task := taskStep s.task .tcrRequest }
  | .kthreadStop => { s with task := taskStep s.task .kthreadStop }
  | .stopWake => { s with task := taskStep s.task .stopWake }
  | .outside => { s with tdev := { s.tdev with driver := yield env s.tdev.driver } }
  | .run => kthreadStatement env codec fuel s

/-- After `kthread_run`, with this device. -/
def TcrKthread.initial (mem : Nat → Mem) (tdev : TcrDevice) : TcrKthread :=
  ⟨.initial, [], mem, tdev, false⟩

def kthreadRun (mem : Nat → Mem) (tdev : TcrDevice) (ops : List KthreadOp) : TcrKthread :=
  ops.foldl (kthreadStep env codec fuel) (.initial mem tdev)

end

/-- What is submitted is what a file system asks for. -/
def KthreadOp.Ok : KthreadOp → Prop
  | .submit p => p.Ok
  | .tcrRequest | .kthreadStop | .stopWake | .outside | .run => True

/-- Nothing comes, and nobody wakes the thread. -/
def KthreadOp.Quiet : KthreadOp → Prop
  | .outside | .run => True
  | .submit _ | .tcrRequest | .kthreadStop | .stopWake => False

/-- Statements of the thread. -/
def KthreadOp.runs : KthreadOp → Nat
  | .run => 1
  | .submit _ | .tcrRequest | .kthreadStop | .stopWake | .outside => 0

/-! ### A statement -/

variable {env : Env} {codec : Codec} {fuel : Nat} {s : TcrKthread}

/-- What the statements outside of the work do to the loop. -/
theorem threadStatement_loop {t : TcrTask} (stateEject ret : Int) (hpc : t.pc ≠ .work) :
    (threadStatement stateEject ret t).loop = t.loop ∨
      t.pc = .fetch ∧ (threadStatement stateEject ret t).loop = blkFetchRequest t.loop := by
  unfold threadStatement
  split
  · exact .inl rfl
  cases hp : t.pc with
  | top =>
    left
    cases t.loop.req <;> rfl
  | fetch => exact .inr ⟨rfl, rfl⟩
  | test =>
    left
    cases t.loop.req with
    | none =>
      simp only
      split <;> rfl
    | some p => rfl
  | work => exact absurd hp hpc
  | wait => exact .inl rfl
  | yieldCpu => exact .inl rfl
  | ended => exact .inl rfl

theorem kthreadStatement_asleep (h : s.hung = true ∨ s.task.asleep = true) :
    kthreadStatement env codec fuel s = s := by
  unfold kthreadStatement
  rw [if_pos h]

theorem kthreadStatement_other (hrun : ¬ (s.hung = true ∨ s.task.asleep = true))
    (hpc : s.task.pc ≠ .work) :
    kthreadStatement env codec fuel s = { s with task := threadStatement 0 0 s.task } := by
  unfold kthreadStatement
  rw [if_neg hrun]
  cases hp : s.task.pc with
  | work => exact absurd hp hpc
  | _ => rfl

theorem kthreadStatement_work (hrun : ¬ (s.hung = true ∨ s.task.asleep = true))
    (hpc : s.task.pc = .work) {i : Nat} {seg : Request} (hseg : s.thread.segment = some (i, seg))
    {c : Completion} {buffer : Mem} {tdev : TcrDevice}
    (htcr : tcrIssueRq env codec fuel seg s.tdev = (some c, buffer, tdev)) :
    kthreadStatement env codec fuel s = { s with
      task := threadStatement (turnEject env s.tdev)
        ((turnRet env codec fuel seg s.tdev).getD 0) s.task
      mem := Function.update s.mem i
        (blit (s.mem i) (s.task.loop.table i).completed buffer 0 (s.task.loop.table i).curBytes)
      tdev := tdev } := by
  unfold kthreadStatement
  rw [if_neg hrun, hpc, hseg]
  simp only
  rw [htcr]

/-- What the work does to the loop. -/
theorem threadStatement_work {t : TcrTask} (hawake : ¬ t.asleep = true) (hpc : t.pc = .work)
    {i : Nat} {r : BlkRequest} (hreq : t.loop.req = some (i, r)) (stateEject ret : Int) :
    (threadStatement stateEject ret t).loop
      = handleSegment i r ⟨[], t.shouldStop, stateEject, ret⟩ t.loop := by
  unfold threadStatement
  rw [if_neg hawake, hpc]
  simp only [hreq]

/-- A statement that is not cut off is one of the thread of `Wakeup`. -/
theorem kthreadStatement_task (h : (kthreadStatement env codec fuel s).hung = false) :
    ∃ o : Int × Int, (kthreadStatement env codec fuel s).task = threadStatement o.1 o.2 s.task := by
  by_cases hrun : s.hung = true ∨ s.task.asleep = true
  · rw [kthreadStatement_asleep hrun] at h ⊢
    have hasleep := hrun.resolve_left (Bool.eq_false_iff.mp h)
    refine ⟨(0, 0), ?_⟩
    unfold threadStatement
    rw [if_pos hasleep]
  by_cases hpc : s.task.pc = .work
  · rcases hseg : s.thread.segment with - | ⟨i, seg⟩
    · refine ⟨(0, 0), ?_⟩
      unfold kthreadStatement
      rw [if_neg hrun, hpc, hseg]
    · rcases htcr : tcrIssueRq env codec fuel seg s.tdev with ⟨- | c, buffer, tdev⟩
      · unfold kthreadStatement at h
        rw [if_neg hrun, hpc, hseg] at h
        simp only [htcr] at h
        cases h
      · rw [kthreadStatement_work hrun hpc hseg htcr]
        exact ⟨(_, _), rfl⟩
  · rw [kthreadStatement_other hrun hpc]
    exact ⟨(0, 0), rfl⟩

/-! ### Both invariants -/

variable {x : Nat → Nat → Stream} {user : Nat → Nat → UInt8} {mem₀ : Nat → Mem}

structure InOrder (codec : Codec) (x : Nat → Nat → Stream) (user : Nat → Nat → UInt8)
    (mem₀ : Nat → Mem) (s : TcrKthread) : Prop where
  wakeful : Wakeful s.task (s.arrived.map (·.request))
  serving : Serving codec x user mem₀ s.thread

theorem inOrder_initial (codec : Codec) (x : Nat → Nat → Stream) (user : Nat → Nat → UInt8)
    (mem₀ : Nat → Mem) (buf : Mem) :
    InOrder codec x user mem₀ (.initial mem₀ ⟨buf, World.mounted⟩) where
  wakeful := wakeful_initial
  serving := serving_initial codec x user mem₀ buf

/-- The work on the segment at hand is done, and done as the driver says. -/
theorem InOrder.work (hdeck : Prompt env x) (hlands : Lands codec x user) (hfuel : 207 ≤ fuel)
    (h : InOrder codec x user mem₀ s) (hrun : ¬ (s.hung = true ∨ s.task.asleep = true))
    (hpc : s.task.pc = .work) : InOrder codec x user mem₀ (kthreadStatement env codec fuel s) := by
  have here := h.wakeful.here
  unfold TcrTask.Here at here
  rw [hpc] at here
  rcases hreq : s.task.loop.req with - | ⟨i, r⟩
  · exact absurd hreq here.1
  obtain ⟨p, hp, rfl⟩ := h.serving.atHand hreq
  have hseg : s.thread.segment
      = some (i, currentSegment p.request p.pos (s.task.loop.table i) (s.mem i)) := by
    have hreq' : s.thread.loop.req = some (i, p.request) := hreq
    unfold TcrThread.segment
    rw [hreq', Option.map_some]
    simp only
    rw [hp]
    rfl
  have hloop := threadStatement_work (fun hasleep => hrun (.inr hasleep)) hpc hreq
  by_cases hread : p.request.IsRead
  · obtain ⟨buffer, tdev, htcr, hserving⟩ := h.serving.reads hdeck hlands hfuel hreq hp hread
      (t := ⟨[], s.task.shouldStop⟩) rfl
    rw [kthreadStatement_work hrun hpc hseg htcr]
    refine ⟨h.wakeful.statement _ _, ?_⟩
    unfold TcrKthread.thread
    rw [hloop]
    exact hserving
  · obtain ⟨htcr, hserving⟩ := h.serving.refuses env codec fuel
      ⟨[], s.task.shouldStop, turnEject env s.tdev, (turnRet env codec fuel
        (currentSegment p.request p.pos (s.task.loop.table i) (s.mem i)) s.tdev).getD 0⟩
      hreq hp hread rfl
    rw [kthreadStatement_work hrun hpc hseg htcr]
    refine ⟨h.wakeful.statement _ _, ?_⟩
    unfold TcrKthread.thread
    rw [hloop]
    exact hserving

/-- **Every statement keeps both in order.** -/
theorem InOrder.statement (hdeck : Prompt env x) (hlands : Lands codec x user)
    (hfuel : 207 ≤ fuel) (h : InOrder codec x user mem₀ s) :
    InOrder codec x user mem₀ (kthreadStatement env codec fuel s) := by
  by_cases hrun : s.hung = true ∨ s.task.asleep = true
  · rw [kthreadStatement_asleep hrun]
    exact h
  by_cases hpc : s.task.pc = .work
  · exact h.work hdeck hlands hfuel hrun hpc
  rw [kthreadStatement_other hrun hpc]
  refine ⟨h.wakeful.statement 0 0, ?_⟩
  unfold TcrKthread.thread
  rcases threadStatement_loop 0 0 hpc with hsame | ⟨hfetch, hlook⟩
  · rw [hsame]
    exact h.serving
  · -- the look at the queue, with nothing at hand
    have here := h.wakeful.here
    unfold TcrTask.Here at here
    rw [hfetch] at here
    rw [hlook]
    exact h.serving.look here h.wakeful.running

/-- What is queued. -/
def KthreadOp.submitted : KthreadOp → List PlacedRequest
  | .submit p => [p]
  | .tcrRequest | .kthreadStop | .stopWake | .outside | .run => []

/-- A wake-up leaves the loop alone. -/
theorem taskStep_wakeUp_loop (t : TcrTask) :
    (taskStep t .tcrRequest).loop = t.loop ∧ (taskStep t .stopWake).loop = t.loop := by
  constructor
  · rw [taskStep, apply_ite TcrTask.loop]
    exact ite_self _
  · rw [taskStep, apply_ite TcrTask.loop]
    exact ite_self _

/-- What is done to the thread and not to the queue. -/
theorem InOrder.told (h : InOrder codec x user mem₀ s) {op : TaskOp} (hnone : op.submitted = [])
    (hloop : (taskStep s.task op).loop = s.task.loop) :
    InOrder codec x user mem₀ { s with task := taskStep s.task op } := by
  have hwakeful := h.wakeful.step op
  rw [hnone, List.append_nil] at hwakeful
  refine ⟨hwakeful, ?_⟩
  unfold TcrKthread.thread
  simp only [hloop]
  exact h.serving

/-- **Whatever happens next keeps both in order.** -/
theorem InOrder.step (hdeck : Prompt env x) (hlands : Lands codec x user) (hfuel : 207 ≤ fuel)
    (h : InOrder codec x user mem₀ s) {op : KthreadOp} (hop : op.Ok) :
    InOrder codec x user mem₀ (kthreadStep env codec fuel s op) := by
  cases op with
  | submit p =>
    have hp : ∀ q ∈ [p], q.Ok := fun q hq => by
      rw [List.mem_singleton.mp hq]
      exact hop
    refine ⟨?_, h.serving.arrive h.wakeful.running hp⟩
    show Wakeful _ ((s.arrived ++ [p]).map (·.request))
    rw [List.map_append]
    exact h.wakeful.submit p.request
  | tcrRequest => exact h.told rfl (taskStep_wakeUp_loop s.task).1
  | kthreadStop => exact h.told rfl rfl
  | stopWake => exact h.told rfl (taskStep_wakeUp_loop s.task).2
  | outside =>
    exact ⟨h.wakeful, ⟨h.serving.kept, h.serving.returns, h.serving.idle.yield hdeck.obeys,
      h.serving.ok, h.serving.verdicts, h.serving.filled, h.serving.frame⟩⟩
  | run => exact h.statement hdeck hlands hfuel

theorem InOrder.run (hdeck : Prompt env x) (hlands : Lands codec x user) (hfuel : 207 ≤ fuel)
    (h : InOrder codec x user mem₀ s) {ops : List KthreadOp} (hops : ∀ op ∈ ops, op.Ok) :
    InOrder codec x user mem₀ (ops.foldl (kthreadStep env codec fuel) s) :=
  (allowed_of_forall fun _ op hop => hops op hop).inv
    (fun _ _ hop h => h.step hdeck hlands hfuel hop) h

/-! ### What is queued, and when it is completed -/

theorem kthreadStatement_arrived (env : Env) (codec : Codec) (fuel : Nat) (s : TcrKthread) :
    (kthreadStatement env codec fuel s).arrived = s.arrived := by
  unfold kthreadStatement
  split
  · rfl
  · split
    · split <;> rfl
    · rfl

theorem kthreadRun_arrived (env : Env) (codec : Codec) (fuel : Nat) (s : TcrKthread)
    (ops : List KthreadOp) : (ops.foldl (kthreadStep env codec fuel) s).arrived
      = s.arrived ++ ops.flatMap (·.submitted) := by
  induction ops generalizing s with
  | nil => exact (List.append_nil _).symm
  | cons op ops ih =>
    rw [List.foldl_cons, ih, List.flatMap_cons, ← List.append_assoc]
    congr 1
    cases op with
    | submit p => rfl
    | run =>
      refine (kthreadStatement_arrived env codec fuel s).trans ?_
      exact (List.append_nil _).symm
    | _ => exact (List.append_nil _).symm

theorem KthreadOp.Quiet.ok {op : KthreadOp} (h : op.Quiet) : op.Ok := by
  cases op with
  | submit p => cases h
  | _ => trivial

/-- The thread alone with its driver is the thread of `Wakeup` alone. -/
theorem InOrder.quiet (hdeck : Prompt env x) (hlands : Lands codec x user) (hfuel : 207 ≤ fuel)
    (h : InOrder codec x user mem₀ s) {more : List KthreadOp} (hquiet : ∀ op ∈ more, op.Quiet) :
    ∃ outcomes : List (Int × Int), outcomes.length = (more.map (·.runs)).sum ∧
      (more.foldl (kthreadStep env codec fuel) s).task = alone outcomes s.task := by
  induction more generalizing s with
  | nil => exact ⟨[], rfl, rfl⟩
  | cons op more ih =>
    have hq := hquiet op List.mem_cons_self
    have hrest := fun op hop => hquiet op (List.mem_cons_of_mem _ hop)
    cases op with
    | outside =>
      obtain ⟨outcomes, hlen, htask⟩ := ih (h.step hdeck hlands hfuel hq.ok) hrest
      exact ⟨outcomes, hlen.trans (Nat.zero_add _).symm, htask⟩
    | run =>
      have hnext := h.statement hdeck hlands hfuel
      obtain ⟨o, ho⟩ := kthreadStatement_task hnext.serving.returns
      obtain ⟨outcomes, hlen, htask⟩ := ih hnext hrest
      rw [ho] at htask
      refine ⟨o :: outcomes, ?_, htask⟩
      rw [List.length_cons, hlen, List.map_cons, List.sum_cons, Nat.add_comm]
      rfl
    | submit p => cases hq
    | tcrRequest => cases hq
    | kthreadStop => cases hq
    | stopWake => cases hq

/-- With nothing left all that has been queued is completed. -/
theorem Wakeful.complete {t : TcrTask} {arrived : List PlacedRequest}
    (h : Wakeful t (arrived.map (·.request))) (hleft : t.loop.left = 0) {i : Nat}
    {p : PlacedRequest} (hp : arrived[i]? = some p) : bytesDone t.loop.log i = p.request.bytes := by
  have hget : (arrived.map (·.request))[i]? = some p.request := by
    rw [List.getElem?_map, hp]
    rfl
  exact (h.kept.complete hleft hget).2

/-- A thread that nobody is about to wake completes all that has been queued. -/
theorem InOrder.completes (hdeck : Prompt env x) (hlands : Lands codec x user) (hfuel : 207 ≤ fuel)
    (h : InOrder codec x user mem₀ s) (hrequest : s.task.requestDue = false)
    (hstop : s.task.shouldStop = false) (hwake : s.task.stopDue = false) {more : List KthreadOp}
    (hquiet : ∀ op ∈ more, op.Quiet)
    (hlen : 6 * s.task.loop.left + 5 < (more.map (·.runs)).sum) {i : Nat} {p : PlacedRequest}
    (hp : s.arrived[i]? = some p) :
    bytesDone (more.foldl (kthreadStep env codec fuel) s).task.loop.log i = p.request.bytes := by
  obtain ⟨outcomes, hcount, htask⟩ := h.quiet hdeck hlands hfuel hquiet
  obtain ⟨hend, hrest, hshould⟩ :=
    h.wakeful.comes_to_rest hrequest hwake outcomes (hlen.trans_eq hcount.symm)
  rw [hstop] at hshould
  rw [htask]
  -- it has not ended, as it has not been told to
  have hleft := (hrest.resolve_left fun hended =>
    absurd (hend.shouldStop_of_ended hended).2 (Bool.eq_false_iff.mp hshould)).1
  exact hend.complete hleft hp

/-- **The statements read the disc.**  Under a deck that keeps up, and with
requests that the driver can serve (`PlacedRequest.Ok`), however the
statements of the thread, the block layer, `kthread_stop` and the
surroundings interleave: no call is cut off; what has been queued is on
record in its order; a READ is completed without an error, and the first
sector of each segment completed is that of the disc; what is no READ is
refused; the memory is written to where a READ has been completed and
nowhere else; when the thread sleeps and is not about to be woken, all is
completed; and a thread that is left alone completes all, and with the data
of the disc, within a bounded number of statements. -/
theorem statements_read_the_disc (env : Env) (codec : Codec) (x : Nat → Nat → Stream)
    (user : Nat → Nat → UInt8) (hdeck : Prompt env x) (hlands : Lands codec x user) {fuel : Nat}
    (hfuel : 207 ≤ fuel) (mem₀ : Nat → Mem) (buf : Mem) (ops : List KthreadOp)
    (hops : ∀ op ∈ ops, op.Ok) :
    let s := kthreadRun env codec fuel mem₀ ⟨buf, World.mounted⟩ ops
    s.hung = false ∧
    s.arrived = ops.flatMap (·.submitted) ∧
    ∀ i p, s.arrived[i]? = some p →
      (p.request.IsRead → (∀ c ∈ completions s.task.loop.log i, c.2.2 = 0) ∧
        Filled user p (bytesDone s.task.loop.log i) (s.mem i)) ∧
      (¬ p.request.IsRead →
        ∀ c ∈ completions s.task.loop.log i, c = (0, p.request.bytes, negEio)) ∧
      (∀ a : Int, (p.request.IsRead → a < 0 ∨ (bytesDone s.task.loop.log i : Int) ≤ a) →
        s.mem i a = mem₀ i a) ∧
      (s.task.asleep = true → s.task.requestDue = false →
        bytesDone s.task.loop.log i = p.request.bytes) ∧
      (s.task.requestDue = false → s.task.shouldStop = false → s.task.stopDue = false →
        ∀ more : List KthreadOp, (∀ op ∈ more, op.Quiet) →
          6 * s.task.loop.left + 5 < (more.map (·.runs)).sum →
          let s' := kthreadRun env codec fuel mem₀ ⟨buf, World.mounted⟩ (ops ++ more)
          bytesDone s'.task.loop.log i = p.request.bytes ∧
          (p.request.IsRead → Filled user p p.request.bytes (s'.mem i))) := by
  intro s
  have h : InOrder codec x user mem₀ s :=
    (inOrder_initial codec x user mem₀ buf).run hdeck hlands hfuel hops
  have harrived : s.arrived = ops.flatMap (·.submitted) :=
    kthreadRun_arrived env codec fuel (.initial mem₀ ⟨buf, World.mounted⟩) ops
  refine ⟨h.serving.returns, harrived, fun i p hp => ⟨fun hread => ?_, ?_, fun a ha => ?_,
    fun hasleep hrequest => ?_, fun hrequest hstop hwake more hquiet hlen => ?_⟩⟩
  · exact ⟨(h.serving.completions hp).1 hread, h.serving.filled i p hp hread⟩
  · exact (h.serving.completions hp).2
  · refine h.serving.frame i a fun p' hp' hread => ?_
    obtain rfl : p' = p := Option.some.inj (hp'.symm.trans hp)
    exact ha hread
  · have here := h.wakeful.here
    unfold TcrTask.Here at here
    rw [h.wakeful.asleep hasleep] at here
    obtain ⟨hreq, hqueue, -⟩ := here hasleep
    have hempty := hqueue.resolve_right (Bool.eq_false_iff.mp hrequest)
    exact h.wakeful.complete (h.wakeful.kept.left_eq_zero.mpr ⟨hreq, hempty⟩) hp
  · intro s'
    have hs' : s' = more.foldl (kthreadStep env codec fuel) s := List.foldl_append
    have hend : InOrder codec x user mem₀ s' := by
      rw [hs']
      exact h.run hdeck hlands hfuel fun op hop => (hquiet op hop).ok
    have hdone : bytesDone s'.task.loop.log i = p.request.bytes := by
      rw [hs']
      exact h.completes hdeck hlands hfuel hrequest hstop hwake hquiet hlen hp
    refine ⟨hdone, fun hread => ?_⟩
    have hp' : s'.arrived[i]? = some p := by
      rw [hs', kthreadRun_arrived, List.getElem?_append_left (List.getElem?_eq_some_iff.mp hp).1]
      exact hp
    have hfilled := hend.serving.filled i p hp' hread
    have hdone' : bytesDone s'.thread.loop.log i = p.request.bytes := hdone
    rw [hdone'] at hfilled
    exact hfilled

/-- Two sectors are queued, and the thread is woken. -/
def requestTwoSectors : List KthreadOp := [.submit twoSectors, .tcrRequest]

theorem requestTwoSectors_ok : ∀ op ∈ requestTwoSectors, op.Ok := by
  intro op hop
  rcases List.mem_cons.mp hop with rfl | hop
  · exact twoSectors_ok twoSectors List.mem_cons_self
  · rw [List.mem_singleton.mp hop]
    trivial

theorem statements_read_the_disc_two :
    bytesDone (kthreadRun (streamDeck fun _ msf => discFrom msf) plainCodec 207
      (fun _ => Mem.zero) ⟨Mem.zero, World.mounted⟩
      (requestTwoSectors ++ List.replicate 18 .run)).task.loop.log 0
        = twoSectors.request.bytes := by
  have h := statements_read_the_disc (streamDeck fun _ msf => discFrom msf) plainCodec
    (fun _ msf => discFrom msf) (fun _ _ => 0x55) (streamDeck_prompt _) discFrom_lands (le_refl 207)
    (fun _ => Mem.zero) Mem.zero requestTwoSectors requestTwoSectors_ok
  refine ((h.2.2 0 twoSectors rfl).2.2.2.2 rfl rfl rfl (List.replicate 18 .run) ?_ ?_).1
  · intro op hop
    rw [List.eq_of_mem_replicate hop]
    trivial
  · decide

end CdPlayer
