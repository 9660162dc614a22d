/-
CdPlayer/Requests.lean

The loop of `tcr_issue_rq` (cdrom.c) over the requests of the block layer.

The thread keeps the request it works on in `req` from one turn to the
next: a request of several segments comes back until its last byte is
completed.  `BlkState` is what the block layer knows of a fetched request;
the loop reaches it only through `blk_fetch_request`, `__blk_end_request`
and `__blk_end_request_all`, and everything it does there is logged.

What is wanted of the log is stated without the loop: `Permitted` says
which entry may follow which log, and `serveFrom` which completions a
request gets for the outcomes of its segments.

* `requests_completed`: every run of the loop, whatever is queued, read and
  ejected meanwhile.
* `ejected_segment`: with the disc out the driver's side of a turn ends the
  request with `-EIO` and copies nothing from the disc into its buffer.
-/
import CdPlayer.Block
import CdPlayer.Eject

namespace CdPlayer

open Run ByteStore

/-! ### The block layer -/

/-- A request as it is queued: type, direction and the bytes of its segments. -/
structure BlkRequest where
  cmdTypeFs : Bool
  read : Bool
  segments : List Nat
  nonempty : segments ≠ []
  pos : ∀ n ∈ segments, 0 < n

def BlkRequest.bytes (r : BlkRequest) : Nat := r.segments.sum

/-- What is left of the segments when the next `n` bytes are completed. -/
def completeBytes : (n : Nat) → List Nat → List Nat
  | _, [] => []
  | n, s :: rest => if n < s then (s - n) :: rest else completeBytes (n - s) rest

/-- A fetched request: the bytes completed and the segments left. -/
structure BlkState where
  completed : Nat
  rest : List Nat

/-- `blk_rq_cur_bytes`. -/
def BlkState.curBytes (b : BlkState) : Nat := b.rest.headD 0

/-- What the thread does with the block layer.  Requests are numbered in the
order in which they are fetched. -/
inductive BlkOp
  | fetch (i : Nat) (r : BlkRequest)
  /-- A field of the request or its buffer is used. -/
  | touch (i : Nat)
  /-- Bookkeeping: a segment has been handled under this `state_eject`, with
  this result of `tcr_read_data`. -/
  | outcome (i : Nat) (stateEject ret : Int)
  /-- The `bytes` bytes from byte `first` on are completed. -/
  | complete (i first bytes : Nat) (status : Int)

/-- The thread and the block layer. -/
structure RqLoop where
  queue : List BlkRequest
  /-- `req`, a pointer. -/
  req : Option (Nat × BlkRequest)
  table : Nat → BlkState
  fetched : Nat
  log : List BlkOp
  /-- The loop has been left. -/
  stopped : Bool

def RqLoop.note (op : BlkOp) (s : RqLoop) : RqLoop := { s with log := s.log ++ [op] }

/-- `blk_fetch_request`. -/
def blkFetchRequest (s : RqLoop) : RqLoop :=
  match s.queue with
  | [] => { s with req := none }
  | r :: queue =>
    { s with
      queue := queue
      req := some (s.fetched, r)
      table := Function.update s.table s.fetched ⟨0, r.segments⟩
      fetched := s.fetched + 1 }.note (.fetch s.fetched r)

/-- `__blk_end_request`: do bytes remain? -/
def blkEndRequest (i : Nat) (status : Int) (n : Nat) (s : RqLoop) : Bool × RqLoop :=
  let b := s.table i
  (!(completeBytes n b.rest).isEmpty,
    { s with table := Function.update s.table i ⟨b.completed + n, completeBytes n b.rest⟩ }.note
      (.complete i b.completed n status))

/-- `__blk_end_request_all`. -/
def blkEndRequestAll (i : Nat) (status : Int) (s : RqLoop) : RqLoop :=
  (blkEndRequest i status (s.table i).rest.sum s).2

/-! ### The loop -/

/-- What happens during one turn of the loop: the requests queued before it,
`kthread_should_stop()`, `state_eject` and the result of `tcr_read_data`. -/
structure LoopTurn where
  queued : List BlkRequest
  shouldStop : Bool
  stateEject : Int
  ret : Int

/-- The turn from `set_current_state(TASK_RUNNING)` on, with request `i` at
hand. -/
def handleSegment (i : Nat) (r : BlkRequest) (t : LoopTurn) (s : RqLoop) : RqLoop :=
  let s := (s.note (.touch i)).note (.outcome i t.stateEject t.ret)
  if r.cmdTypeFs then
    if r.read then
      if t.stateEject = 1 then
        -- memset(req->buffer, 0, blk_rq_cur_bytes(req))
        let s := s.note (.touch i)
        { blkEndRequestAll i negEio s with req := none }
      else
        -- blk_rq_pos(req), blk_rq_cur_sectors(req)
        let s := s.note (.touch i)
        if t.ret ≥ 0 then
          -- memcpy(req->buffer, tdev->buf, blk_rq_cur_bytes(req))
          let s := s.note (.touch i)
          let (remain, s) := blkEndRequest i 0 (s.table i).curBytes s
          if remain = false then { s with req := none } else s
        else { blkEndRequestAll i negEio s with req := none }
    else { blkEndRequestAll i negEio s with req := none }
  else { blkEndRequestAll i negEio s with req := none }

/-- One turn of `do … while (1)`. -/
def tcrIssueRqStep (s : RqLoop) (t : LoopTurn) : RqLoop :=
  if s.stopped then s
  else
    let s := { s with queue := s.queue ++ t.queued }
    let s := match s.req with
      | none => blkFetchRequest s
      | some _ => s
    match s.req with
    | none => if t.shouldStop then { s with stopped := true } else s
    | some (i, r) => handleSegment i r t s

/-- Before the first turn. -/
def RqLoop.initial : RqLoop := ⟨[], none, fun _ => ⟨0, []⟩, 0, [], false⟩

def rqRun (turns : List LoopTurn) : RqLoop := turns.foldl tcrIssueRqStep .initial

/-! ### What is wanted -/

/-- The completions of request `i`: first byte, bytes and status. -/
def completions (log : List BlkOp) (i : Nat) : List (Nat × Nat × Int) :=
  log.filterMap fun
    | .complete j first bytes status => if j = i then some (first, bytes, status) else none
    | _ => none

/-- How many bytes of request `i` have been completed. -/
def bytesDone (log : List BlkOp) (i : Nat) : Nat :=
  ((completions log i).map fun c => c.2.1).sum

/-- A segment succeeds if it is read from a disc that is in, and the read
does not fail. -/
def BlkRequest.Succeeds (r : BlkRequest) (stateEject ret : Int) : Prop :=
  r.cmdTypeFs = true ∧ r.read = true ∧ stateEject ≠ 1 ∧ 0 ≤ ret

instance (r : BlkRequest) (e ret : Int) : Decidable (r.Succeeds e ret) := by
  unfold BlkRequest.Succeeds
  infer_instance

/-- Which of its segments have succeeded. -/
def verdicts (log : List BlkOp) (i : Nat) (r : BlkRequest) : List Bool :=
  log.filterMap fun
    | .outcome j e ret => if j = i then some (decide (r.Succeeds e ret)) else none
    | _ => none

/-- The completions a request is to get: each segment before the first that
fails with status 0, that one and all that follow together with `-EIO`. -/
def serveFrom (first : Nat) : List Nat → List Bool → List (Nat × Nat × Int)
  | n :: rest, true :: vs => (first, n, 0) :: serveFrom (first + n) rest vs
  | n :: rest, false :: _ => [(first, n + rest.sum, negEio)]
  | _, _ => []

/-- What the thread may do next: fetch when every request fetched before is
completed, use a request that is not completed, and complete bytes that
follow those completed before. -/
def Permitted (log : List BlkOp) : BlkOp → Prop
  | .fetch i _ => (∀ r, .fetch i r ∉ log) ∧ ∀ j r, .fetch j r ∈ log → bytesDone log j = r.bytes
  | .touch i | .outcome i _ _ => ∃ r, .fetch i r ∈ log ∧ bytesDone log i < r.bytes
  | .complete i first bytes _ => ∃ r, .fetch i r ∈ log ∧ first = bytesDone log i ∧ 0 < bytes ∧
      first + bytes ≤ r.bytes

/-! ### Reading the log -/

section
variable (log : List BlkOp) (i j : Nat) (r : BlkRequest)

@[simp] theorem completions_append (l : List BlkOp) :
    completions (log ++ l) i = completions log i ++ completions l i := List.filterMap_append

@[simp] theorem verdicts_append (l : List BlkOp) :
    verdicts (log ++ l) i r = verdicts log i r ++ verdicts l i r := List.filterMap_append

@[simp] theorem completions_touches (k : Nat) :
    completions (List.replicate k (.touch j)) i = [] := by
  induction k with
  | zero => rfl
  | succ k ih => exact ih

@[simp] theorem verdicts_touches (k : Nat) :
    verdicts (List.replicate k (.touch j)) i r = [] := by
  induction k with
  | zero => rfl
  | succ k ih => exact ih

@[simp] theorem bytesDone_append (l : List BlkOp) :
    bytesDone (log ++ l) i = bytesDone log i + bytesDone l i := by
  unfold bytesDone
  rw [completions_append, List.map_append, List.sum_append]

@[simp] theorem bytesDone_touches (k : Nat) :
    bytesDone (List.replicate k (.touch j)) i = 0 := by
  unfold bytesDone
  rw [completions_touches]
  rfl

end

/-! ### Completing bytes -/

theorem completeBytes_all (rest : List Nat) : completeBytes rest.sum rest = [] := by
  induction rest with
  | nil => rfl
  | cons n rest ih =>
    rw [completeBytes, List.sum_cons, if_neg (by omega), Nat.add_sub_cancel_left]
    exact ih

/-- The current segment is completed as a whole. -/
theorem completeBytes_cur (n : Nat) {rest : List Nat} (h : ∀ m ∈ rest, 0 < m) :
    completeBytes n (n :: rest) = rest := by
  rw [completeBytes, if_neg (lt_irrefl n), Nat.sub_self]
  cases rest with
  | nil => rfl
  | cons m rest =>
    rw [completeBytes, if_pos (h m List.mem_cons_self)]
    rfl

/-- Segments that have succeeded are served one by one. -/
theorem serveFrom_append (first : Nat) (done rest : List Nat) (vs : List Bool) :
    serveFrom first (done ++ rest) (done.map (fun _ => true) ++ vs)
      = serveFrom first done (done.map fun _ => true)
        ++ serveFrom (first + done.sum) rest vs := by
  induction done generalizing first with
  | nil =>
    cases rest <;> rfl
  | cons n done ih =>
    simp only [List.cons_append, List.map_cons, serveFrom, List.sum_cons, ih]
    rw [Nat.add_assoc]

theorem serveFrom_nil (first : Nat) (rest : List Nat) : serveFrom first rest [] = [] := by
  cases rest <;> rfl

theorem serveFrom_bytes (first : Nat) (done : List Nat) :
    ((serveFrom first done (done.map fun _ => true)).map fun c => c.2.1).sum = done.sum := by
  induction done generalizing first with
  | nil => rfl
  | cons n done ih =>
    simp only [List.map_cons, serveFrom, List.sum_cons, ih]

/-! ### One turn -/

/-- How many bytes the turn completes, and how. -/
def BlkState.answer (b : BlkState) (ok : Bool) : Nat × Int :=
  if ok then (b.curBytes, 0) else (b.rest.sum, negEio)

/-- What a turn adds to the log. -/
def turnLog (i k first n : Nat) (t : LoopTurn) (status : Int) : List BlkOp :=
  [.touch i, .outcome i t.stateEject t.ret] ++ List.replicate k (.touch i)
    ++ [.complete i first n status]

/-- A turn that begins with request `i` at hand: its current segment is
handled, and the pointer is kept exactly if bytes remain. -/
structure Handled (s : RqLoop) (i : Nat) (r : BlkRequest) (t : LoopTurn) (s' : RqLoop) : Prop where
  log : ∃ k, s'.log = s.log ++ turnLog i k (s.table i).completed
    ((s.table i).answer (decide (r.Succeeds t.stateEject t.ret))).1 t
    ((s.table i).answer (decide (r.Succeeds t.stateEject t.ret))).2
  rest : s'.table i
    = ⟨(s.table i).completed + ((s.table i).answer (decide (r.Succeeds t.stateEject t.ret))).1,
      completeBytes ((s.table i).answer (decide (r.Succeeds t.stateEject t.ret))).1
        (s.table i).rest⟩
  req : s'.req = if (s'.table i).rest = [] then none else s.req
  fetched : s'.fetched = s.fetched
  stopped : s'.stopped = s.stopped

/-- The four sites that complete the rest. -/
theorem handled_fail {s : RqLoop} {i k : Nat} {r : BlkRequest} {t : LoopTurn}
    (hfail : ¬ r.Succeeds t.stateEject t.ret) {u : RqLoop}
    (hlog : u.log = s.log ++ [.touch i, .outcome i t.stateEject t.ret]
      ++ List.replicate k (.touch i))
    (htable : u.table = s.table) (hfetched : u.fetched = s.fetched)
    (hstopped : u.stopped = s.stopped) :
    Handled s i r t { blkEndRequestAll i negEio u with req := none } := by
  have hno : decide (r.Succeeds t.stateEject t.ret) = false := decide_eq_false hfail
  have hrest : (blkEndRequestAll i negEio u).table i
      = ⟨(s.table i).completed + (s.table i).rest.sum, []⟩ := by
    show Function.update u.table i _ i = _
    rw [Function.update_self, htable, completeBytes_all]
  refine ⟨⟨k, ?_⟩, ?_, ?_, hfetched, hstopped⟩
  · show u.log ++ [_] = _
    rw [hlog, hno, htable, turnLog]
    simp only [List.append_assoc]
    rfl
  · show (blkEndRequestAll i negEio u).table i = _
    rw [hrest, hno]
    show _ = (⟨_, completeBytes (s.table i).rest.sum (s.table i).rest⟩ : BlkState)
    rw [completeBytes_all]
    rfl
  · show none = if ((blkEndRequestAll i negEio u).table i).rest = [] then none else s.req
    rw [hrest, if_pos rfl]

/-- The site that completes a segment. -/
theorem handled_success {s : RqLoop} {i k : Nat} {r : BlkRequest} {t : LoopTurn}
    (hok : decide (r.Succeeds t.stateEject t.ret) = true) {u : RqLoop}
    (hlog : u.log = s.log ++ [.touch i, .outcome i t.stateEject t.ret]
      ++ List.replicate k (.touch i))
    (htable : u.table = s.table) (hreq : u.req = s.req) (hfetched : u.fetched = s.fetched)
    (hstopped : u.stopped = s.stopped) :
    Handled s i r t
      (let e := blkEndRequest i 0 (u.table i).curBytes u
      if e.1 = false then { e.2 with req := none } else e.2) := by
  -- a segment that succeeds is completed alone, with status 0
  have hanswer : (s.table i).answer (decide (r.Succeeds t.stateEject t.ret))
      = ((s.table i).curBytes, 0) := by rw [hok]; rfl
  have hrest : (blkEndRequest i 0 (u.table i).curBytes u).2.table i
      = ⟨(s.table i).completed + (s.table i).curBytes,
        completeBytes (s.table i).curBytes (s.table i).rest⟩ := by
    show Function.update u.table i _ i = _
    rw [Function.update_self, htable]
  have hends : (blkEndRequest i 0 (u.table i).curBytes u).2.log
      = s.log ++ turnLog i k (s.table i).completed (s.table i).curBytes t 0 := by
    show u.log ++ [_] = _
    rw [hlog, htable, turnLog]
    simp only [List.append_assoc]
  -- `__blk_end_request` says whether segments are left
  have hremain : (blkEndRequest i 0 (u.table i).curBytes u).1 = false
      ↔ completeBytes (s.table i).curBytes (s.table i).rest = [] := by
    show (!(completeBytes (u.table i).curBytes (u.table i).rest).isEmpty) = false ↔ _
    rw [htable, Bool.not_eq_false', List.isEmpty_iff]
  simp only
  by_cases hlast : completeBytes (s.table i).curBytes (s.table i).rest = []
  · -- that was the last segment: the loop drops the request
    rw [if_pos (hremain.mpr hlast)]
    refine ⟨⟨k, ?_⟩, ?_, ?_, hfetched, hstopped⟩
    · rw [hanswer]
      exact hends
    · rw [hanswer]
      exact hrest
    · show none = if ((blkEndRequest i 0 (u.table i).curBytes u).2.table i).rest = [] then none
        else s.req
      rw [hrest, if_pos hlast]
  · rw [if_neg fun h => hlast (hremain.mp h)]
    refine ⟨⟨k, ?_⟩, ?_, ?_, hfetched, hstopped⟩
    · rw [hanswer]
      exact hends
    · rw [hanswer]
      exact hrest
    · rw [hrest, if_neg hlast]
      exact hreq

theorem handleSegment_handled (s : RqLoop) (i : Nat) (r : BlkRequest) (t : LoopTurn) :
    Handled s i r t (handleSegment i r t s) := by
  unfold handleSegment
  simp only
  by_cases hfs : r.cmdTypeFs = true
  · rw [if_pos hfs]
    by_cases hread : r.read = true
    · rw [if_pos hread]
      by_cases heject : t.stateEject = 1
      · rw [if_pos heject]
        exact handled_fail (k := 1) (fun h => h.2.2.1 heject)
          (by simp [RqLoop.note]) rfl rfl rfl
      · rw [if_neg heject]
        by_cases hret : t.ret ≥ 0
        · -- the segment is read
          rw [if_pos hret]
          have hyes : decide (r.Succeeds t.stateEject t.ret) = true :=
            decide_eq_true ⟨hfs, hread, heject, hret⟩
          exact handled_success (k := 2) hyes (by simp [RqLoop.note]) rfl rfl rfl rfl
        · rw [if_neg hret]
          exact handled_fail (k := 1) (fun h => hret h.2.2.2) (by simp [RqLoop.note]) rfl rfl rfl
    · rw [if_neg hread]
      exact handled_fail (k := 0) (fun h => hread h.2.1) (by simp [RqLoop.note]) rfl rfl rfl
  · rw [if_neg hfs]
    exact handled_fail (k := 0) (fun h => hfs h.1) (by simp [RqLoop.note]) rfl rfl rfl

/-! ### The log of a turn -/

section
variable (log : List BlkOp) (i j k first n : Nat) (t : LoopTurn) (status : Int) (r : BlkRequest)

theorem completions_turnLog : completions (turnLog i k first n t status) j
    = if i = j then [(first, n, status)] else [] := by
  unfold turnLog
  rw [completions_append, completions_append, completions_touches, List.append_nil]
  by_cases hij : i = j
  · simp [completions, hij]
  · simp [completions, hij]

theorem verdicts_turnLog : verdicts (turnLog i k first n t status) j r
    = if i = j then [decide (r.Succeeds t.stateEject t.ret)] else [] := by
  unfold turnLog
  rw [verdicts_append, verdicts_append, verdicts_touches, List.append_nil]
  by_cases hij : i = j
  · simp [verdicts, hij]
  · simp [verdicts, hij]

theorem bytesDone_turnLog :
    bytesDone (turnLog i k first n t status) j = if i = j then n else 0 := by
  unfold bytesDone
  rw [completions_turnLog]
  by_cases hij : i = j
  · rw [if_pos hij, if_pos hij]
    rfl
  · rw [if_neg hij, if_neg hij]
    rfl

theorem fetch_mem_turnLog :
    .fetch j r ∈ log ++ turnLog i k first n t status ↔ .fetch j r ∈ log := by
  simp [turnLog, List.mem_replicate]

end

/-- Request `i` is fetched and not completed. -/
def Unfinished (log : List BlkOp) (i : Nat) (r : BlkRequest) : Prop :=
  .fetch i r ∈ log ∧ bytesDone log i < r.bytes

theorem Unfinished.touches {log : List BlkOp} {i : Nat} {r : BlkRequest}
    (h : Unfinished log i r) (hlog : Lawful Permitted log) (k : Nat) :
    Unfinished (log ++ List.replicate k (.touch i)) i r ∧
      Lawful Permitted (log ++ List.replicate k (.touch i)) := by
  induction k with
  | zero =>
    rw [List.replicate_zero, List.append_nil]
    exact ⟨h, hlog⟩
  | succ k ih =>
    rw [List.replicate_succ', ← List.append_assoc]
    refine ⟨⟨List.mem_append_left _ ih.1.1, ?_⟩, .snoc ih.2 ⟨r, ih.1⟩⟩
    rw [bytesDone_append]
    exact ih.1.2

/-- Every entry of a turn is permitted. -/
theorem Unfinished.turnLog {log : List BlkOp} {i : Nat} {r : BlkRequest}
    (h : Unfinished log i r) (hlog : Lawful Permitted log) (k : Nat) (t : LoopTurn) {n : Nat}
    (status : Int) (hpos : 0 < n) (hle : bytesDone log i + n ≤ r.bytes) :
    Lawful Permitted (log ++ turnLog i k (bytesDone log i) n t status) := by
  have htouch := hlog.snoc (show Permitted log (.touch i) from ⟨r, h⟩)
  have hunfinished : Unfinished (log ++ [.touch i] ++ [.outcome i t.stateEject t.ret]) i r :=
    ⟨List.mem_append_left _ (List.mem_append_left _ h.1), by
      rw [bytesDone_append, bytesDone_append]
      exact h.2⟩
  have houtcome := htouch.snoc (show Permitted _ (.outcome i t.stateEject t.ret) from
    ⟨r, List.mem_append_left _ h.1, by rw [bytesDone_append]; exact h.2⟩)
  obtain ⟨hk, hlawful⟩ := hunfinished.touches houtcome k
  have hdone : bytesDone (log ++ [.touch i] ++ [.outcome i t.stateEject t.ret]
      ++ List.replicate k (.touch i)) i = bytesDone log i := by
    rw [bytesDone_append, bytesDone_append, bytesDone_append, bytesDone_touches]
    rfl
  have hlast := hlawful.snoc (show Permitted _ (.complete i (bytesDone log i) n status) from
    ⟨r, hk.1, hdone.symm, hpos, hle⟩)
  unfold CdPlayer.turnLog
  simpa using hlast

/-! ### The invariant of the loop -/

/-- The request at hand: some of its segments have succeeded, and the rest
remains. -/
structure Working (log : List BlkOp) (b : BlkState) (i : Nat) (r : BlkRequest) : Prop where
  fetched : .fetch i r ∈ log
  split : ∃ done, r.segments = done ++ b.rest ∧ b.completed = done.sum ∧
    verdicts log i r = done.map fun _ => true
  remains : b.rest ≠ []

/-- Every request is accounted for. -/
structure Accounted (s : RqLoop) : Prop where
  lawful : Lawful Permitted s.log
  numbered : ∀ i r, .fetch i r ∈ s.log → i < s.fetched
  fresh : ∀ i, s.fetched ≤ i → completions s.log i = [] ∧ ∀ r, verdicts s.log i r = []
  once : ∀ i r r', .fetch i r ∈ s.log → .fetch i r' ∈ s.log → r = r'
  served : ∀ i r, .fetch i r ∈ s.log →
    completions s.log i = serveFrom 0 r.segments (verdicts s.log i r)
  done : ∀ i r, .fetch i r ∈ s.log → s.req = some (i, r) ∨ bytesDone s.log i = r.bytes
  current : ∀ i r, s.req = some (i, r) → Working s.log (s.table i) i r
  stopped : s.stopped = true → s.req = none

theorem accounted_initial : Accounted .initial where
  lawful := .nil
  numbered := fun _ _ h => absurd h List.not_mem_nil
  fresh := fun _ _ => ⟨rfl, fun _ => rfl⟩
  once := fun _ _ _ h => absurd h List.not_mem_nil
  served := fun _ _ h => absurd h List.not_mem_nil
  done := fun _ _ h => absurd h List.not_mem_nil
  current := fun _ _ h => nomatch h
  stopped := fun h => nomatch h

/-- The completions of a request whose segments have succeeded so far. -/
theorem Accounted.completions_done {s : RqLoop} (h : Accounted s) {i : Nat} {r : BlkRequest}
    {done rest : List Nat} (hfetch : .fetch i r ∈ s.log) (hsplit : r.segments = done ++ rest)
    (hverdicts : verdicts s.log i r = done.map fun _ => true) :
    completions s.log i = serveFrom 0 done (done.map fun _ => true) := by
  have hserved := h.served i r hfetch
  rw [hverdicts, hsplit, ← List.append_nil (List.map _ done), serveFrom_append, serveFrom_nil,
    List.append_nil] at hserved
  exact hserved

/-- The bytes of the request at hand. -/
theorem Accounted.bytesDone_current {s : RqLoop} (h : Accounted s) {i : Nat} {r : BlkRequest}
    (hreq : s.req = some (i, r)) : bytesDone s.log i = (s.table i).completed ∧
      (s.table i).completed + (s.table i).rest.sum = r.bytes := by
  obtain ⟨hfetch, ⟨done, hsplit, hcompleted, hverdicts⟩, -⟩ := h.current i r hreq
  refine ⟨?_, ?_⟩
  · unfold bytesDone
    rw [h.completions_done hfetch hsplit hverdicts, serveFrom_bytes, hcompleted]
  · unfold BlkRequest.bytes
    rw [hsplit, List.sum_append, hcompleted]

/-- The next request is at hand. -/
theorem Accounted.fetched_next {s s' : RqLoop} {r : BlkRequest} (h : Accounted s)
    (hnone : s.req = none) (hrun : s.stopped = false)
    (hlog : s'.log = s.log ++ [.fetch s.fetched r]) (hreq : s'.req = some (s.fetched, r))
    (htable : s'.table s.fetched = ⟨0, r.segments⟩) (hfetched : s'.fetched = s.fetched + 1)
    (hstopped : s'.stopped = s.stopped) : Accounted s' := by
  -- its number has not been used
  have hnew : ∀ r', .fetch s.fetched r' ∉ s.log := fun r' hmem =>
    absurd (h.numbered _ _ hmem) (lt_irrefl _)
  have hfetch : ∀ i r', .fetch i r' ∈ s'.log → .fetch i r' ∈ s.log ∨ i = s.fetched ∧ r' = r := by
    intro i r' hmem
    rw [hlog] at hmem
    rcases List.mem_append.mp hmem with hmem | hmem
    · exact .inl hmem
    · rw [List.mem_singleton] at hmem
      injection hmem with hi hr
      exact .inr ⟨hi, hr⟩
  have hcompletions : ∀ i, completions s'.log i = completions s.log i := by
    intro i
    rw [hlog, completions_append]
    exact List.append_nil _
  have hverdicts : ∀ i r', verdicts s'.log i r' = verdicts s.log i r' := by
    intro i r'
    rw [hlog, verdicts_append]
    exact List.append_nil _
  have hbytes : ∀ i, bytesDone s'.log i = bytesDone s.log i := by
    intro i
    unfold bytesDone
    rw [hcompletions]
  have hdone : ∀ i r', .fetch i r' ∈ s.log → bytesDone s.log i = r'.bytes :=
    fun i r' hmem => (h.done i r' hmem).resolve_left (by rw [hnone]; nofun)
  constructor
  · -- lawful
    rw [hlog]
    exact h.lawful.snoc (show Permitted s.log (.fetch s.fetched r) from ⟨hnew, hdone⟩)
  · -- numbered
    intro i r' hmem
    rw [hfetched]
    rcases hfetch i r' hmem with hold | ⟨rfl, -⟩
    · exact Nat.lt_succ_of_lt (h.numbered i r' hold)
    · exact Nat.lt_succ_self _
  · -- fresh
    intro i hi
    rw [hfetched] at hi
    have hfresh := h.fresh i (Nat.le_of_succ_le hi)
    refine ⟨(hcompletions i).trans hfresh.1, fun r' => ?_⟩
    exact (hverdicts i r').trans (hfresh.2 r')
  · -- once
    intro i r' r'' hmem hmem'
    rcases hfetch i r' hmem with hold | ⟨rfl, rfl⟩
    · rcases hfetch i r'' hmem' with hold' | ⟨rfl, rfl⟩
      · exact h.once i r' r'' hold hold'
      · exact absurd hold (hnew r')
    · rcases hfetch _ r'' hmem' with hold' | ⟨-, rfl⟩
      · exact absurd hold' (hnew r'')
      · rfl
  · -- served: nothing yet of the new one
    intro i r' hmem
    rw [hcompletions, hverdicts]
    rcases hfetch i r' hmem with hold | ⟨rfl, rfl⟩
    · exact h.served i r' hold
    · rw [(h.fresh _ le_rfl).1, (h.fresh _ le_rfl).2, serveFrom_nil]
  · -- done
    intro i r' hmem
    rcases hfetch i r' hmem with hold | ⟨rfl, rfl⟩
    · exact .inr ((hbytes i).trans (hdone i r' hold))
    · exact .inl hreq
  · -- current
    intro i r' hreq'
    rw [hreq] at hreq'
    injection hreq' with hpair
    injection hpair with hi hr
    subst hi hr
    rw [htable]
    refine ⟨?_, ⟨[], rfl, rfl, ?_⟩, r.nonempty⟩
    · rw [hlog]
      exact List.mem_append_right _ List.mem_cons_self
    · rw [hverdicts]
      exact (h.fresh _ le_rfl).2 r
  · -- stopped
    intro hstop
    rw [hstopped, hrun] at hstop
    exact absurd hstop (by decide)

theorem Accounted.blkFetchRequest {s : RqLoop} (h : Accounted s) (hnone : s.req = none)
    (hrun : s.stopped = false) : Accounted (blkFetchRequest s) := by
  unfold CdPlayer.blkFetchRequest
  rcases hq : s.queue with - | ⟨r, queue⟩
  · exact
      { lawful := h.lawful
        numbered := h.numbered
        fresh := h.fresh
        once := h.once
        served := h.served
        done := fun i r' hfetch => .inr ((h.done i r' hfetch).resolve_left (by rw [hnone]; nofun))
        current := fun _ _ hreq => nomatch hreq
        stopped := fun _ => rfl }
  · exact h.fetched_next hnone hrun rfl rfl (Function.update_self _ _ _) rfl rfl

/-- What the turn completes is some of what remains, in order. -/
structure Answered (b : BlkState) (done : List Nat) (ok : Bool) : Prop where
  pos : 0 < (b.answer ok).1
  le : (b.answer ok).1 ≤ b.rest.sum
  serve : serveFrom b.completed b.rest [ok] = [(b.completed, (b.answer ok).1, (b.answer ok).2)]
  rest : completeBytes (b.answer ok).1 b.rest = [] ∧ (b.answer ok).1 = b.rest.sum ∨
    ok = true ∧ completeBytes (b.answer ok).1 b.rest ≠ [] ∧
      done ++ b.rest = (done ++ [(b.answer ok).1]) ++ completeBytes (b.answer ok).1 b.rest

theorem BlkState.answered {b : BlkState} (done : List Nat) (hrest : b.rest ≠ [])
    (hpos : ∀ n ∈ b.rest, 0 < n) (ok : Bool) : Answered b done ok := by
  obtain ⟨completed, rest⟩ := b
  rcases rest with - | ⟨n, rest⟩
  · exact absurd rfl hrest
  have hn : 0 < n := hpos n List.mem_cons_self
  cases ok with
  -- a failure completes all the segments that are left
  | false =>
    refine ⟨?_, le_rfl, rfl, .inl ⟨completeBytes_all _, rfl⟩⟩
    show 0 < (n :: rest).sum
    rw [List.sum_cons]
    omega
  | true =>
    have hcur : completeBytes n (n :: rest) = rest :=
      completeBytes_cur n fun m hm => hpos m (List.mem_cons_of_mem _ hm)
    refine ⟨hn, ?_, ?_, ?_⟩
    · show n ≤ (n :: rest).sum
      rw [List.sum_cons]
      omega
    · show (completed, n, 0) :: serveFrom (completed + n) rest [] = _
      rw [serveFrom_nil]
      rfl
    · show completeBytes n (n :: rest) = [] ∧ n = (n :: rest).sum ∨ true = true ∧
        completeBytes n (n :: rest) ≠ [] ∧
          done ++ n :: rest = (done ++ [n]) ++ completeBytes n (n :: rest)
      rw [hcur]
      by_cases hlast : rest = []
      · rw [hlast]
        exact .inl ⟨rfl, rfl⟩
      · exact .inr ⟨rfl, hlast, by rw [List.append_assoc]; rfl⟩

/-- What is left after an answer is at hand. -/
theorem Working.answered {log log' : List BlkOp} {b b' : BlkState} {i k : Nat} {r : BlkRequest}
    {t : LoopTurn} {done : List Nat} (hfetch : .fetch i r ∈ log)
    (hsplit : r.segments = done ++ b.rest) (hcompleted : b.completed = done.sum)
    (hverdicts : verdicts log i r = done.map fun _ => true)
    (ha : Answered b done (decide (r.Succeeds t.stateEject t.ret)))
    (hlog : log' = log ++ turnLog i k b.completed
      (b.answer (decide (r.Succeeds t.stateEject t.ret))).1 t
      (b.answer (decide (r.Succeeds t.stateEject t.ret))).2)
    (hb : b' = ⟨b.completed + (b.answer (decide (r.Succeeds t.stateEject t.ret))).1,
      completeBytes (b.answer (decide (r.Succeeds t.stateEject t.ret))).1 b.rest⟩)
    (hmore : b'.rest ≠ []) : Working log' b' i r := by
  subst hb
  -- bytes remain only if the segment has succeeded
  obtain ⟨hok, -, hnext⟩ := ha.rest.resolve_left fun h => hmore h.1
  refine ⟨?_, ⟨done ++ [_], hsplit.trans hnext, ?_, ?_⟩, hmore⟩
  · rw [hlog]
    exact List.mem_append_left _ hfetch
  · show b.completed + _ = (done ++ [_]).sum
    rw [List.sum_append, ← hcompleted]
    rfl
  · rw [hlog, verdicts_append, verdicts_turnLog, if_pos rfl, hok, hverdicts, List.map_append]
    rfl

/-- A turn with a request at hand keeps the accounts. -/
theorem Accounted.handled {s s' : RqLoop} {i : Nat} {r : BlkRequest} {t : LoopTurn}
    (h : Accounted s) (hreq : s.req = some (i, r)) (hturn : Handled s i r t s') :
    Accounted s' := by
  obtain ⟨hfetched, ⟨done, hsplit, hcompleted, hverdicts⟩, hremains⟩ := h.current i r hreq
  obtain ⟨hbytes, htotal⟩ := h.bytesDone_current hreq
  have ha := (s.table i).answered done hremains
    (fun n hn => r.pos n (by rw [hsplit]; exact List.mem_append_right _ hn))
    (decide (r.Succeeds t.stateEject t.ret))
  have hpos := ha.pos
  have hle := ha.le
  have hreq' := hturn.req
  obtain ⟨k, hlog⟩ := hturn.log
  have hfetch : ∀ j r', .fetch j r' ∈ s'.log → .fetch j r' ∈ s.log := by
    intro j r' hmem
    rw [hlog] at hmem
    exact (fetch_mem_turnLog _ _ _ _ _ _ _ _ _).mp hmem
  constructor
  · -- lawful
    rw [hlog, ← hbytes]
    exact Unfinished.turnLog ⟨hfetched, by omega⟩ h.lawful k t _ hpos (by omega)
  · -- numbered
    intro j r' hmem
    rw [hturn.fetched]
    exact h.numbered j r' (hfetch j r' hmem)
  · -- fresh: the turn is about a request fetched before
    intro j hj
    rw [hturn.fetched] at hj
    have hij : i ≠ j := by
      have := h.numbered i r hfetched
      omega
    rw [hlog]
    refine ⟨?_, fun r' => ?_⟩
    · rw [completions_append, completions_turnLog, if_neg hij, List.append_nil]
      exact (h.fresh j hj).1
    · rw [verdicts_append, verdicts_turnLog, if_neg hij, List.append_nil]
      exact (h.fresh j hj).2 r'
  · -- once
    intro j r' r'' hmem hmem'
    exact h.once j r' r'' (hfetch j r' hmem) (hfetch j r'' hmem')
  · -- served
    intro j r' hmem
    have hold := h.served j r' (hfetch j r' hmem)
    rw [hlog, completions_append, completions_turnLog, verdicts_append, verdicts_turnLog]
    by_cases hij : i = j
    · subst hij
      obtain rfl : r' = r := h.once i r' r (hfetch i r' hmem) hfetched
      rw [if_pos rfl, if_pos rfl, hverdicts, hsplit, serveFrom_append, Nat.zero_add,
        ← hcompleted, ha.serve, h.completions_done hfetched hsplit hverdicts]
    · rw [if_neg hij, if_neg hij, List.append_nil, List.append_nil]
      exact hold
  · -- done: the pointer is dropped once no byte remains
    intro j r' hmem
    by_cases hij : i = j
    · subst hij
      obtain rfl : r' = r := h.once i r' r (hfetch i r' hmem) hfetched
      rcases ha.rest with ⟨-, hsum⟩ | ⟨-, hmore, -⟩
      · right
        rw [hlog, bytesDone_append, bytesDone_turnLog, if_pos rfl]
        omega
      · left
        rw [hreq', hturn.rest, if_neg hmore]
        exact hreq
    · rcases h.done j r' (hfetch j r' hmem) with hcur | hall
      · rw [hreq] at hcur
        injection hcur with hpair
        injection hpair with hi
        exact absurd hi hij
      · right
        rw [hlog, bytesDone_append, bytesDone_turnLog, if_neg hij]
        exact hall
  · -- current
    intro j r' hcur
    rw [hreq'] at hcur
    by_cases hnil : (s'.table i).rest = []
    · rw [if_pos hnil] at hcur
      cases hcur
    · rw [if_neg hnil, hreq] at hcur
      injection hcur with hpair
      injection hpair with hi hr
      subst hi hr
      exact Working.answered hfetched hsplit hcompleted hverdicts ha hlog hturn.rest hnil
  · -- stopped
    intro hstop
    rw [hturn.stopped] at hstop
    rw [h.stopped hstop] at hreq
    cases hreq

/-- The state in which a turn looks at `req`. -/
def atHand (s : RqLoop) (t : LoopTurn) : RqLoop :=
  match s.req with
  | none => blkFetchRequest { s with queue := s.queue ++ t.queued }
  | some _ => { s with queue := s.queue ++ t.queued }

theorem tcrIssueRqStep_eq (s : RqLoop) (t : LoopTurn) (hrun : s.stopped = false) :
    tcrIssueRqStep s t = match (atHand s t).req with
      | none => if t.shouldStop then { atHand s t with stopped := true } else atHand s t
      | some (i, r) => handleSegment i r t (atHand s t) := by
  unfold tcrIssueRqStep
  rw [if_neg (by rw [hrun]; decide)]
  rfl

theorem Accounted.atHand {s : RqLoop} (h : Accounted s) (hrun : s.stopped = false)
    (t : LoopTurn) : Accounted (atHand s t) := by
  have hqueue : Accounted { s with queue := s.queue ++ t.queued } := { h with }
  unfold CdPlayer.atHand
  rcases hreq : s.req with - | p
  · exact hqueue.blkFetchRequest hreq hrun
  · rw [hreq] at hqueue
    exact hqueue

/-- **Every turn keeps the accounts.** -/
theorem accounted_step (s : RqLoop) (t : LoopTurn) (h : Accounted s) :
    Accounted (tcrIssueRqStep s t) := by
  by_cases hstop : s.stopped = true
  · unfold tcrIssueRqStep
    rw [if_pos hstop]
    exact h
  · have hrun : s.stopped = false := Bool.eq_false_iff.mpr hstop
    have hu := h.atHand hrun t
    rw [tcrIssueRqStep_eq s t hrun]
    rcases hreq : (atHand s t).req with - | ⟨i, r⟩
    · simp only
      split
      · exact { hu with stopped := fun _ => hreq }
      · exact hu
    · exact hu.handled hreq (handleSegment_handled _ i r t)

/-! ### Progress -/

theorem Accounted.remains {s : RqLoop} (h : Accounted s) {i : Nat} {r : BlkRequest}
    (hreq : s.req = some (i, r)) : bytesDone s.log i < r.bytes := by
  obtain ⟨hbytes, htotal⟩ := h.bytesDone_current hreq
  obtain ⟨-, ⟨done, hsplit, -⟩, hremains⟩ := h.current i r hreq
  have hpos : 0 < (s.table i).rest.sum := by
    obtain ⟨n, rest, hrest⟩ := List.exists_cons_of_ne_nil hremains
    have hn := r.pos n (by rw [hsplit, hrest]; simp)
    rw [hrest, List.sum_cons]
    omega
  omega

/-- The log only grows. -/
theorem tcrIssueRqStep_log (s : RqLoop) (t : LoopTurn) :
    ∃ l, (tcrIssueRqStep s t).log = s.log ++ l := by
  by_cases hstop : s.stopped = true
  · refine ⟨[], ?_⟩
    unfold tcrIssueRqStep
    rw [if_pos hstop, List.append_nil]
  · obtain ⟨l, hl⟩ : ∃ l, (atHand s t).log = s.log ++ l := by
      unfold atHand
      split
      · unfold blkFetchRequest
        split
        · exact ⟨[], (List.append_nil _).symm⟩
        · exact ⟨_, rfl⟩
      · exact ⟨[], (List.append_nil _).symm⟩
    rw [tcrIssueRqStep_eq s t (Bool.eq_false_iff.mpr hstop)]
    rcases hreq : (atHand s t).req with - | ⟨i, r⟩
    · simp only
      split <;> exact ⟨l, hl⟩
    · obtain ⟨k, hlog⟩ := (handleSegment_handled (atHand s t) i r t).log
      rw [hl, List.append_assoc] at hlog
      exact ⟨_, hlog⟩

/-- A completed request stays completed. -/
theorem finished_step {s : RqLoop} (h : Accounted s) (t : LoopTurn) {i : Nat} {r : BlkRequest}
    (hfetch : .fetch i r ∈ s.log) (hall : bytesDone s.log i = r.bytes) :
    .fetch i r ∈ (tcrIssueRqStep s t).log ∧ bytesDone (tcrIssueRqStep s t).log i = r.bytes := by
  obtain ⟨l, hl⟩ := tcrIssueRqStep_log s t
  have hmem : .fetch i r ∈ (tcrIssueRqStep s t).log := by
    rw [hl]
    exact List.mem_append_left _ hfetch
  have hstep := accounted_step s t h
  refine ⟨hmem, (hstep.done i r hmem).resolve_left fun hreq => ?_⟩
  have hless := hstep.remains hreq
  rw [hl, bytesDone_append] at hless
  omega

/-- A turn with a request at hand completes at least one of its segments. -/
theorem working_step {s : RqLoop} (h : Accounted s) (t : LoopTurn) {i : Nat} {r : BlkRequest}
    (hreq : s.req = some (i, r)) :
    bytesDone (tcrIssueRqStep s t).log i = r.bytes ∨
      (tcrIssueRqStep s t).req = some (i, r) ∧
        ((tcrIssueRqStep s t).table i).rest.length < (s.table i).rest.length := by
  have hrun : s.stopped = false := Bool.eq_false_iff.mpr fun hstop => by
    rw [h.stopped hstop] at hreq
    cases hreq
  have hat : atHand s t = { s with queue := s.queue ++ t.queued } := by
    unfold atHand
    rw [hreq]
  have hreq' : (atHand s t).req = some (i, r) := by rw [hat]; exact hreq
  have hturn := handleSegment_handled (atHand s t) i r t
  have hstep : tcrIssueRqStep s t = handleSegment i r t (atHand s t) := by
    rw [tcrIssueRqStep_eq s t hrun, hreq']
  have hnext := accounted_step s t h
  rw [hstep] at hnext ⊢
  have hworking := (h.atHand hrun t).current i r hreq'
  have hmem : .fetch i r ∈ (handleSegment i r t (atHand s t)).log := by
    obtain ⟨k, hlog⟩ := hturn.log
    rw [hlog]
    exact List.mem_append_left _ hworking.fetched
  -- either the request is at hand still, or all of it is done
  rcases hnext.done i r hmem with hcur | hall
  · refine .inr ⟨hcur, ?_⟩
    obtain ⟨done, hsplit, -⟩ := hworking.split
    -- the segment answered is not in the table any more
    have hanswered := ((atHand s t).table i).answered done hworking.remains
      (fun n hn => r.pos n (by rw [hsplit]; exact List.mem_append_right _ hn))
      (decide (r.Succeeds t.stateEject t.ret))
    rcases hanswered.rest with ⟨hnil, -⟩ | ⟨-, -, hlist⟩
    · exact absurd (congrArg BlkState.rest hturn.rest |>.trans hnil)
        (hnext.current i r hcur).remains
    · have hlen := congrArg List.length hlist
      rw [List.length_append, List.length_append, List.length_append,
        List.length_singleton] at hlen
      have htable : (atHand s t).table = s.table := by rw [hat]
      rw [hturn.rest]
      rw [htable] at hlen ⊢
      simp only
      omega
  · exact .inl hall

/-! ### Runs -/

theorem accounted_run (turns : List LoopTurn) : Accounted (rqRun turns) :=
  foldl_inv accounted_step turns accounted_initial

/-- A request at hand is completed within as many turns as it has segments
left. -/
theorem completed_after {s : RqLoop} (h : Accounted s) {i : Nat} {r : BlkRequest}
    (more : List LoopTurn) (hfetch : .fetch i r ∈ s.log)
    (hdue : bytesDone s.log i = r.bytes ∨
      s.req = some (i, r) ∧ (s.table i).rest.length ≤ more.length) :
    bytesDone (more.foldl tcrIssueRqStep s).log i = r.bytes := by
  induction more generalizing s with
  | nil =>
    refine hdue.elim id fun ⟨hreq, hlen⟩ => ?_
    exact absurd (List.length_eq_zero_iff.mp (Nat.le_zero.mp hlen))
      (h.current i r hreq).remains
  | cons t more ih =>
    have hstep := accounted_step s t h
    obtain ⟨l, hl⟩ := tcrIssueRqStep_log s t
    refine ih hstep (by rw [hl]; exact List.mem_append_left _ hfetch) ?_
    rcases hdue with hall | ⟨hreq, hlen⟩
    · exact .inl (finished_step h t hfetch hall).2
    · rcases working_step h t hreq with hall | ⟨hcur, hless⟩
      · exact .inl hall
      · refine .inr ⟨hcur, ?_⟩
        rw [List.length_cons] at hlen
        omega

/-- **Every request is completed exactly once.**  In every run of the loop
each step is permitted; every fetched request gets the completions that the
outcomes of its segments call for, one after the other from its first byte
on; those that are not at hand have got all of them; and the one at hand
gets the rest within as many turns as it has segments. -/
theorem requests_completed (turns : List LoopTurn) :
    Lawful Permitted (rqRun turns).log ∧
    ∀ i r, .fetch i r ∈ (rqRun turns).log →
      completions (rqRun turns).log i
        = serveFrom 0 r.segments (verdicts (rqRun turns).log i r) ∧
      ((rqRun turns).req = some (i, r) ∨ bytesDone (rqRun turns).log i = r.bytes) ∧
      ∀ more : List LoopTurn, r.segments.length ≤ more.length →
        bytesDone (rqRun (turns ++ more)).log i = r.bytes := by
  have h := accounted_run turns
  refine ⟨h.lawful, fun i r hfetch => ⟨h.served i r hfetch, h.done i r hfetch, fun more hlen => ?_⟩⟩
  unfold rqRun at h hfetch ⊢
  rw [List.foldl_append]
  refine completed_after h more hfetch ?_
  rcases h.done i r hfetch with hreq | hall
  · refine .inr ⟨hreq, le_trans ?_ hlen⟩
    obtain ⟨done, hsplit, -⟩ := (h.current i r hreq).split
    rw [hsplit, List.length_append]
    omega
  · exact .inl hall

/-! ### The driver's side of a turn -/

section
variable (env : Env) (codec : Codec) (fuel : Nat) (r : Request) (d : TcrDevice)

/-- `state_eject`, as a turn that starts on this device reads it. -/
def turnEject : Int := (yield env d.driver).stateEject

/-- The result of `tcr_read_data` in that turn. -/
def turnRet : Option Int :=
  (tcrReadData env codec fuel r.msf (r.curSectors / 4) d.buf (yield env d.driver)).1

/-- The driver acts and is acted on; nothing else happens to its state. -/
theorem tcrIssueRq_acts (hring : RingOk d.driver.sCDDIBuffer) :
    Acts env d.driver (tcrIssueRq env codec fuel r d).2.2.driver := by
  have hturn : Acts env d.driver (yield env d.driver) := (Act.turn d.driver).acts
  have henter := enterScan_acts env r.msf (ringOk_yield env hring)
  have hscan : Acts env d.driver
      (cdDescrambleSector env codec fuel r.msf (r.curSectors / 4) (yield env d.driver)).world :=
    hturn.trans (henter.trans (iterate_scanStep_acts env fuel r.msf (r.curSectors / 4) fuel
      (henter.ringOk (ringOk_yield env hring))))
  unfold tcrIssueRq tcrReadData cdReadSector
  split
  · simp only
    split
    · exact hturn
    · rcases (cdDescrambleSector env codec fuel r.msf (r.curSectors / 4)
        (yield env d.driver)).result with - | ret
      · exact hscan
      · simp only
        by_cases hneg : ret < 0
        · simp only [if_pos hneg]
          split <;> exact hscan
        · simp only [if_neg hneg]
          split <;> exact hscan
  · exact .refl

end

/-! ### With the disc out -/

/-- What happens to the device: netlink messages, mounts and blocks between
two segments, and segments, each with what happens meanwhile. -/
inductive DeviceOp
  | event (e : Event)
  | segment (env : Env) (fuel : Nat) (r : Request)

def deviceStep (codec : Codec) (d : TcrDevice) : DeviceOp → TcrDevice
  | .event e => { d with driver := handle d.driver e }
  | .segment env fuel r => (tcrIssueRq env codec fuel r d).2.2

/-- The device before anything has happened. -/
def TcrDevice.initial (buf : Mem) : TcrDevice := ⟨buf, World.initial⟩

def deviceRun (codec : Codec) (buf : Mem) (ops : List DeviceOp) : TcrDevice :=
  ops.foldl (deviceStep codec) (.initial buf)

/-- The ring is in order, and the two eject flags agree. -/
structure FlagsAgree (d : TcrDevice) : Prop where
  ring : RingOk d.driver.sCDDIBuffer
  agrees : d.driver.ejectView.Agrees

theorem flagsAgree_step (codec : Codec) (d : TcrDevice) (op : DeviceOp) (h : FlagsAgree d) :
    FlagsAgree (deviceStep codec d op) := by
  cases op with
  | event e =>
    refine ⟨ringOk_handle d.driver e h.ring, ?_⟩
    show (handle d.driver e).ejectView.Agrees
    rw [handle_ejectView]
    rcases ejectCall e with - | status
    · exact h.agrees
    · exact agrees_ofCall status
  | segment env fuel r =>
    have hacts := tcrIssueRq_acts env codec fuel r d h.ring
    exact ⟨hacts.ringOk h.ring, hacts.agrees h.agrees⟩

theorem flagsAgree_run (codec : Codec) (buf : Mem) (ops : List DeviceOp) :
    FlagsAgree (deviceRun codec buf ops) :=
  foldl_inv (flagsAgree_step codec) ops ⟨ringOk_initial, rfl⟩

/-- A scan that starts under force stop returns at once. -/
theorem cdDescrambleSector_forced (env : Env) (codec : Codec) (fuel startAddr n : Nat) (w : World)
    (h : (yield env w).cdDevForceStop ≠ 0) :
    (cdDescrambleSector env codec fuel startAddr n w).result = some cdForceStop := by
  have henter : (enterScan env startAddr w).label = .returned cdForceStop := by
    unfold enterScan
    simp only
    rw [if_pos h]
    rfl
  unfold cdDescrambleSector
  rw [iterate_returned henter]
  unfold Scan.result
  rw [henter]

/-- What a request gets while the disc is out: the rest of it ends with
`-EIO`, the device buffer keeps what it had, and so does the request's
memory, but for a segment that is cleared. -/
structure Refused (r : Request) (d : TcrDevice) (out : Option Completion × Mem × TcrDevice) :
    Prop where
  status : out.1 = some (.all negEio)
  buf : out.2.2.buf = d.buf
  memory : out.2.1 = r.buffer ∨ out.2.1 = blit r.buffer 0 Mem.zero 0 r.curBytes

/-- **No data is delivered once the disc is ejected.**  In every run, if the
argument of the last call of `set_State_eject`, which is what `state_eject`
holds, is not zero, a READ segment that is handled before the next call is
refused. -/
theorem ejected_segment (codec : Codec) (buf : Mem) (ops : List DeviceOp) (env : Env)
    (henv : env.Obeys NoCall) (fuel : Nat) (r : Request)
    (hread : r.cmdTypeFs = true ∧ r.read = true)
    (hout : (deviceRun codec buf ops).driver.stateEject ≠ 0) :
    Refused r (deviceRun codec buf ops)
      (tcrIssueRq env codec fuel r (deviceRun codec buf ops)) := by
  have hflags := flagsAgree_run codec buf ops
  generalize deviceRun codec buf ops = d at hout hflags ⊢
  have hview : ∀ u : World, u.ejectView = d.driver.ejectView →
      (yield env u).ejectView = d.driver.ejectView := fun u hu =>
    yield_calls (henv.calls fun v => v = d.driver.ejectView) hu
  have hstart := hview d.driver rfl
  -- `cd_dev_force_stop` agrees with `state_eject`, and nobody calls in between
  have hforced : (yield env (yield env d.driver)).cdDevForceStop ≠ 0 := by
    have hagrees := hflags.agrees
    unfold EjectView.Agrees at hagrees
    rw [if_pos (show d.driver.ejectView.stateEject ≠ 0 from hout)] at hagrees
    have hforce := congrArg EjectView.forceStop (hview _ hstart)
    rw [hagrees] at hforce
    rw [show (yield env (yield env d.driver)).cdDevForceStop = 1 from hforce]
    decide
  have hscan := cdDescrambleSector_forced env codec fuel r.msf (r.curSectors / 4) _ hforced
  unfold tcrIssueRq tcrReadData cdReadSector
  rw [if_pos hread]
  simp only
  split
  · exact ⟨rfl, rfl, .inr rfl⟩
  · simp only [hscan]
    rw [if_pos (by decide)]
    simp only
    rw [if_neg (by decide)]
    exact ⟨rfl, rfl, .inl rfl⟩

/-- After a mount and the report of state 2, a value that the thread itself
does not test for, a read is refused. -/
theorem ejected_segment_two :
    Refused (requestAt160 1)
      (deviceRun plainCodec Mem.zero [.event .mount, .event (ejectMessage 2)])
      (tcrIssueRq (fun _ => .quiet) plainCodec 1 (requestAt160 1)
        (deviceRun plainCodec Mem.zero [.event .mount, .event (ejectMessage 2)])) :=
  ejected_segment plainCodec Mem.zero [.event .mount, .event (ejectMessage 2)]
    (fun _ => .quiet) (fun _ => trivial) 1 (requestAt160 1) ⟨rfl, rfl⟩ (by decide)

end CdPlayer
