/-
CdPlayer/BlockDevice.lean

The block device as a whole: the loop of `tcr_issue_rq` (cdrom.c) over the
requests of the block layer, with the driver that answers it.

`Requests` has the loop with an oracle for what `tcr_read_data` and
`state_eject` say, `Block` the driver's side of one segment.  Here the
oracle is the driver (`tcrThreadStep`): a turn with a segment at hand runs
the driver on it, copies what it has read to the memory of the request and
tells the block layer.  What is known of the loop therefore holds here
(`threadRun_loop`).

* `reads_the_disc`: under a deck that keeps up, whatever is queued, every
  READ is completed without an error, within as many turns as it has
  segments, and the first sector of each segment is that of the disc; what
  is no READ is refused and its memory left alone.
* `disc_image`: if the segments are single sectors, the request has got the
  disc, byte for byte.
-/
import Mathlib.Algebra.BigOperators.Ring.List
import Mathlib.Algebra.Order.BigOperators.Group.List
import CdPlayer.Lib.Simulation
import CdPlayer.Reads
import CdPlayer.Queue

namespace CdPlayer

open ByteStore Run

/-! ### The thread with its driver -/

/-- A request and `blk_rq_pos`, the place of its first byte in units of 512
bytes. -/
structure PlacedRequest where
  request : BlkRequest
  pos : Nat

/-- The thread, the block layer, the requests' memory and the device. -/
structure TcrThread where
  loop : RqLoop
  /-- Bookkeeping: everything that has been queued.  The queue is served in
  order, so request `i` is the `i`-th of these. -/
  arrived : List PlacedRequest
  /-- The memory of request `i`, from its first byte on. -/
  mem : Nat → Mem
  tdev : TcrDevice
  /-- A call of `tcr_read_data` has been cut off; the turn it belongs to does
  not count. -/
  hung : Bool

/-- What happens to the thread from outside during a turn. -/
structure ThreadTurn where
  queued : List PlacedRequest
  shouldStop : Bool

/-- The fields of a request of which `b` is left: `blk_rq_pos`,
`blk_rq_cur_sectors` and `req->buffer` are those of the current segment. -/
def currentSegment (r : BlkRequest) (pos : Nat) (b : BlkState) (mem : Mem) : Request where
  cmdTypeFs := r.cmdTypeFs
  read := r.read
  pos := pos + b.completed / 512
  curSectors := b.curBytes / 512
  buffer := fun a => mem (b.completed + a)

/-- The turn as the loop sees it, with these answers of the driver. -/
def ThreadTurn.loopTurn (t : ThreadTurn) (stateEject ret : Int) : LoopTurn where
  queued := t.queued.map (·.request)
  shouldStop := t.shouldStop
  stateEject := stateEject
  ret := ret

/-- The state in which a turn looks at `req`. -/
def TcrThread.fetch (s : TcrThread) (t : ThreadTurn) : TcrThread :=
  { s with loop := atHand s.loop (t.loopTurn 0 0), arrived := s.arrived ++ t.queued }

/-- The current segment of the request at hand. -/
def TcrThread.segment (s : TcrThread) : Option (Nat × Request) :=
  s.loop.req.map fun (i, r) =>
    (i, currentSegment r ((s.arrived[i]?.map (·.pos)).getD 0) (s.loop.table i) (s.mem i))

section
variable (env : Env) (codec : Codec) (fuel : Nat)

/-- The turn as the loop sees it. -/
def TcrThread.answers (s : TcrThread) (t : ThreadTurn) : LoopTurn :=
  match (s.fetch t).segment with
  | none => t.loopTurn 0 0
  | some (_, seg) => t.loopTurn (turnEject env s.tdev)
      ((turnRet env codec fuel seg s.tdev).getD 0)

/-- One turn of `do … while (1)` with the driver. -/
def tcrThreadStep (s : TcrThread) (t : ThreadTurn) : TcrThread :=
  if s.hung ∨ s.loop.stopped then s
  else
    let u : TcrThread := { s.fetch t with
      loop := tcrIssueRqStep s.loop (s.answers env codec fuel t) }
    match (s.fetch t).segment with
    | none =>
      -- schedule()
      { u with tdev := { s.tdev with driver := yield env s.tdev.driver } }
    | some (i, seg) =>
      match tcrIssueRq env codec fuel seg s.tdev with
      | (none, _, tdev) => { s with tdev := tdev, hung := true }
      | (some _, buffer, tdev) =>
        { u with
          mem := Function.update s.mem i
            (blit (s.mem i) ((s.fetch t).loop.table i).completed buffer 0
              ((s.fetch t).loop.table i).curBytes)
          tdev := tdev }

/-- Before the first turn, with this device. -/
def TcrThread.initial (mem : Nat → Mem) (tdev : TcrDevice) : TcrThread :=
  ⟨.initial, [], mem, tdev, false⟩

def threadRun (mem : Nat → Mem) (tdev : TcrDevice) (turns : List ThreadTurn) : TcrThread :=
  turns.foldl (tcrThreadStep env codec fuel) (.initial mem tdev)

/-! ### What a turn does -/

variable {s : TcrThread} (t : ThreadTurn) {i : Nat} {seg : Request} {c : Completion} {buffer : Mem}
variable {tdev : TcrDevice}

theorem tcrThreadStep_done (h : s.hung = true ∨ s.loop.stopped = true) :
    tcrThreadStep env codec fuel s t = s := by
  unfold tcrThreadStep
  rw [if_pos h]

theorem tcrThreadStep_wait (hrun : ¬ (s.hung = true ∨ s.loop.stopped = true))
    (hseg : (s.fetch t).segment = none) :
    tcrThreadStep env codec fuel s t = { s.fetch t with
      loop := tcrIssueRqStep s.loop (s.answers env codec fuel t)
      tdev := { s.tdev with driver := yield env s.tdev.driver } } := by
  unfold tcrThreadStep
  rw [if_neg hrun, hseg]

theorem tcrThreadStep_cut (hrun : ¬ (s.hung = true ∨ s.loop.stopped = true))
    (hseg : (s.fetch t).segment = some (i, seg))
    (htcr : tcrIssueRq env codec fuel seg s.tdev = (none, buffer, tdev)) :
    tcrThreadStep env codec fuel s t = { s with tdev := tdev, hung := true } := by
  unfold tcrThreadStep
  rw [if_neg hrun, hseg]
  simp only
  rw [htcr]

theorem tcrThreadStep_serve (hrun : ¬ (s.hung = true ∨ s.loop.stopped = true))
    (hseg : (s.fetch t).segment = some (i, seg))
    (htcr : tcrIssueRq env codec fuel seg s.tdev = (some c, buffer, tdev)) :
    tcrThreadStep env codec fuel s t = { s.fetch t with
      loop := tcrIssueRqStep s.loop (s.answers env codec fuel t)
      mem := Function.update s.mem i (blit (s.mem i) ((s.fetch t).loop.table i).completed buffer 0
        ((s.fetch t).loop.table i).curBytes)
      tdev := tdev } := by
  unfold tcrThreadStep
  rw [if_neg hrun, hseg]
  simp only
  rw [htcr]

/-! ### The loop in the thread -/

/-- The loop and its requests, without the driver. -/
def TcrThread.queuedLoop (s : TcrThread) : QueuedLoop := ⟨s.loop, s.arrived.map (·.request)⟩

/-- The turn of the loop that a turn of the thread is; none if it is cut off. -/
def TcrThread.loopTurns (s : TcrThread) (t : ThreadTurn) : List LoopTurn :=
  if (tcrThreadStep env codec fuel s t).hung then [] else [s.answers env codec fuel t]

theorem answers_queued : (s.answers env codec fuel t).queued = t.queued.map (·.request) := by
  unfold TcrThread.answers
  split <;> rfl

theorem tcrThreadStep_loop (s : TcrThread) (t : ThreadTurn) :
    (tcrThreadStep env codec fuel s t).queuedLoop
      = (s.loopTurns env codec fuel t).foldl queuedStep s.queuedLoop := by
  unfold TcrThread.loopTurns
  by_cases hhung : s.hung = true
  · rw [tcrThreadStep_done env codec fuel t (.inl hhung), if_pos hhung]
    rfl
  by_cases hstop : s.loop.stopped = true
  · rw [tcrThreadStep_done env codec fuel t (.inr hstop), if_neg hhung]
    show _ = queuedStep s.queuedLoop (s.answers env codec fuel t)
    unfold queuedStep
    rw [if_pos (show s.queuedLoop.loop.stopped = true from hstop)]
  have hrun : ¬ (s.hung = true ∨ s.loop.stopped = true) := by
    rintro (h | h)
    · exact hhung h
    · exact hstop h
  -- a turn of its own
  have hturn : (⟨tcrIssueRqStep s.loop (s.answers env codec fuel t),
      (s.arrived ++ t.queued).map (·.request)⟩ : QueuedLoop)
        = queuedStep s.queuedLoop (s.answers env codec fuel t) := by
    unfold queuedStep
    rw [if_neg (show ¬ s.queuedLoop.loop.stopped = true from hstop), answers_queued,
      List.map_append]
    rfl
  rcases hseg : (s.fetch t).segment with - | ⟨i, seg⟩
  · rw [tcrThreadStep_wait env codec fuel t hrun hseg, if_neg (by exact hhung)]
    exact hturn
  · rcases htcr : tcrIssueRq env codec fuel seg s.tdev with ⟨- | c, buffer, tdev⟩
    · rw [tcrThreadStep_cut env codec fuel t hrun hseg htcr, if_pos rfl]
      rfl
    · rw [tcrThreadStep_serve env codec fuel t hrun hseg htcr, if_neg (by exact hhung)]
      exact hturn

/-- **What is known of the loop holds of the thread.** -/
theorem threadRun_loop (mem : Nat → Mem) (tdev : TcrDevice) (turns : List ThreadTurn) :
    (threadRun env codec fuel mem tdev turns).queuedLoop
      = queuedRun (translate (tcrThreadStep env codec fuel) (TcrThread.loopTurns env codec fuel)
          (.initial mem tdev) turns) :=
  foldl_simulates (tcrThreadStep_loop env codec fuel) _ turns

end

/-! ### One segment under a deck that keeps up -/

variable {env : Env} {codec : Codec} {x : Nat → Nat → Stream} {user : Nat → Nat → UInt8}
variable {fuel : Nat}

/-- The driver between two segments. -/
structure Idle (codec : Codec) (x : Nat → Nat → Stream) (user : Nat → Nat → UInt8)
    (w : World) : Prop where
  rest : AtRest codec x user w
  agrees : w.ejectView.Agrees

theorem Idle.yield (henv : env.Obeys (Streams x)) (h : Idle codec x user w) :
    Idle codec x user (CdPlayer.yield env w) :=
  ⟨h.rest.yield henv, (Act.turn w).acts.agrees h.agrees⟩

/-- The disc is in. -/
theorem Idle.stateEject {w : World} (h : Idle codec x user w) : w.stateEject = 0 := by
  have hforce : w.cdDevForceStop = 0 := h.rest.ready.flowing.force
  have hagrees : w.cdDevForceStop = if w.stateEject ≠ 0 then 1 else 0 := h.agrees
  rw [hforce] at hagrees
  by_contra hne
  rw [if_pos hne] at hagrees
  exact absurd hagrees (by decide)

/-- What a READ segment comes to: the first sector is in the request. -/
structure SegmentRead (codec : Codec) (x : Nat → Nat → Stream) (user : Nat → Nat → UInt8)
    (r : Request) (d : TcrDevice) (out : Option Completion × Mem × TcrDevice) : Prop where
  status : out.1 = some (.cur 0 r.curBytes)
  data : ∀ i : Nat, i < 2048 → (out.2.1 i).val = user r.msf i
  idle : Idle codec x user out.2.2.driver

/-- **A READ segment is served.** -/
theorem Idle.segment (hdeck : Prompt env x) (hlands : Lands codec x user) {r : Request}
    {d : TcrDevice} (h : Idle codec x user d.driver) (hread : r.cmdTypeFs = true ∧ r.read = true)
    (hlow : 150 ≤ r.msf) (hsize : 4 ≤ r.curSectors) (hsize' : r.curSectors ≤ 128)
    (hlast : r.msf + r.curSectors / 4 ≤ 450000) (hfuel : 207 ≤ fuel) :
    SegmentRead codec x user r d (tcrIssueRq env codec fuel r d) ∧
      turnEject env d = 0 ∧ turnRet env codec fuel r d = some userSectorSize := by
  have hidle := h.yield hdeck.obeys
  have heject : (CdPlayer.yield env d.driver).stateEject = 0 := hidle.stateEject
  have hscan := hidle.rest.call hdeck hlands hlow (show 1 ≤ r.curSectors / 4 by omega) (by omega)
    hlast hfuel
  have hacts := tcrIssueRq_acts env codec fuel r d h.rest.ready.flowing.ring
  have hdata := hscan.data 0 (by omega)
  have hresult : (cdDescrambleSector env codec fuel r.msf (r.curSectors / 4)
      (CdPlayer.yield env d.driver)).result = some userSectorSize := by
    unfold Scan.result
    rw [hscan.label]
  have hrest := hscan.rest
  have hret : turnRet env codec fuel r d = some userSectorSize := by
    unfold turnRet tcrReadData cdReadSector
    simp only [hresult]
    rfl
  refine ⟨?_, heject, hret⟩
  have hrun : tcrIssueRq env codec fuel r d = (some (.cur 0 r.curBytes),
      blit r.buffer 0 (blit d.buf 0 (cdDescrambleSector env codec fuel r.msf (r.curSectors / 4)
        (CdPlayer.yield env d.driver)).world.cdChunkBuf 0 2048) 0 r.curBytes,
      ⟨blit d.buf 0 (cdDescrambleSector env codec fuel r.msf (r.curSectors / 4)
        (CdPlayer.yield env d.driver)).world.cdChunkBuf 0 2048,
      (cdDescrambleSector env codec fuel r.msf (r.curSectors / 4)
        (CdPlayer.yield env d.driver)).world⟩) := by
    unfold tcrIssueRq tcrReadData cdReadSector
    rw [if_pos hread]
    simp only [hresult]
    rw [if_neg (by rw [heject]; decide), if_neg (by decide)]
    simp only
    rw [if_pos (by decide)]
    rfl
  rw [hrun] at hacts ⊢
  refine ⟨rfl, fun i hi => ?_, hrest, (hacts.agrees h.agrees)⟩
  have hbytes : r.curBytes = 512 * r.curSectors := rfl
  simp only
  rw [blit_inside _ _ _ _ _ (by omega) (by omega), blit_inside _ _ _ _ _ (by omega) (by omega)]
  have hbyte := hdata i hi
  rw [Nat.cast_zero, mul_zero, zero_add] at hbyte
  simpa using hbyte

/-! ### Requests that can be read -/

def BlkRequest.IsRead (r : BlkRequest) : Prop := r.cmdTypeFs = true ∧ r.read = true

instance (r : BlkRequest) : Decidable r.IsRead := by
  unfold BlkRequest.IsRead
  infer_instance

/-- A READ starts with a sector, and so does each of its segments, for which
there is room in `tdev->buf`; and its sectors have an address. -/
structure PlacedRequest.Ok (p : PlacedRequest) : Prop where
  aligned : p.request.IsRead → 4 ∣ p.pos
  segments : p.request.IsRead → ∀ n ∈ p.request.segments, 2048 ∣ n ∧ n ≤ 65536
  frames : p.request.IsRead → p.pos / 4 + 150 + p.request.bytes / 2048 ≤ 450000

/-- The sector that stands at byte `first` of the request. -/
def PlacedRequest.sectorAt (p : PlacedRequest) (first : Nat) : Nat :=
  p.pos / 4 + 150 + first / 2048

/-- What the driver is asked for by a segment of `n` bytes from byte `first`
on. -/
structure Asks (p : PlacedRequest) (first n : Nat) (seg : Request) : Prop where
  msf : seg.msf = p.sectorAt first
  bytes : seg.curBytes = n
  low : 4 ≤ seg.curSectors
  high : seg.curSectors ≤ 128
  last : seg.msf + seg.curSectors / 4 ≤ 450000

theorem PlacedRequest.Ok.asks {p : PlacedRequest} (h : p.Ok) (hread : p.request.IsRead)
    {done rest : List Nat} {n : Nat} (hsplit : p.request.segments = done ++ n :: rest) (mem : Mem) :
    Asks p done.sum n (currentSegment p.request p.pos ⟨done.sum, n :: rest⟩ mem) := by
  have haligned := h.aligned hread
  have hsegments := h.segments hread
  have hframes := h.frames hread
  have hn : n ∈ p.request.segments := by rw [hsplit]; simp
  obtain ⟨hdvd, hsize⟩ := hsegments n hn
  have hpos := p.request.pos n hn
  have hdone : 2048 ∣ done.sum := List.dvd_sum fun m hm =>
    (hsegments m (by rw [hsplit]; exact List.mem_append_left _ hm)).1
  have htotal : done.sum + n ≤ p.request.bytes := by
    unfold BlkRequest.bytes
    rw [hsplit, List.sum_append, List.sum_cons]
    omega
  have hcur : (currentSegment p.request p.pos ⟨done.sum, n :: rest⟩ mem).curSectors = n / 512 := rfl
  have hmsf : (currentSegment p.request p.pos ⟨done.sum, n :: rest⟩ mem).msf
      = p.sectorAt done.sum := by
    show u32 (((p.pos + done.sum / 512) / 4 + 150 : Nat) : Int) = p.pos / 4 + 150 + done.sum / 2048
    rw [u32_natCast (by omega)]
    omega
  refine ⟨hmsf, ?_, ?_, ?_, ?_⟩
  · show 512 * (n / 512) = n
    omega
  · rw [hcur]
    omega
  · rw [hcur]
    omega
  · rw [hmsf, hcur]
    unfold PlacedRequest.sectorAt
    omega

/-! ### The log of the thread -/

/-- Fetching a request completes nothing. -/
theorem blkFetchRequest_completions (s : RqLoop) (i : Nat) :
    completions (blkFetchRequest s).log i = completions s.log i := by
  unfold blkFetchRequest
  split
  · rfl
  · exact (completions_append _ _ _).trans (List.append_nil _)

theorem blkFetchRequest_bytesDone (s : RqLoop) (i : Nat) :
    bytesDone (blkFetchRequest s).log i = bytesDone s.log i := by
  unfold bytesDone
  rw [blkFetchRequest_completions]

theorem blkFetchRequest_verdicts (s : RqLoop) (i : Nat) (r : BlkRequest) :
    verdicts (blkFetchRequest s).log i r = verdicts s.log i r := by
  unfold blkFetchRequest
  split
  · rfl
  · exact (verdicts_append _ _ _ _).trans (List.append_nil _)

/-- Where segment `k` of a request begins. -/
def BlkRequest.firstByte (r : BlkRequest) (k : Nat) : Nat := (r.segments.take k).sum

theorem BlkRequest.firstByte_split {r : BlkRequest} {done rest : List Nat}
    (h : r.segments = done ++ rest) : r.firstByte done.length = done.sum := by
  unfold BlkRequest.firstByte
  rw [h, List.take_left]

theorem BlkRequest.firstByte_succ {r : BlkRequest} {done rest : List Nat} {n : Nat}
    (h : r.segments = done ++ n :: rest) : r.firstByte (done.length + 1) = done.sum + n := by
  have hsplit : r.segments = (done ++ [n]) ++ rest := by
    rw [h, List.append_assoc]
    rfl
  have hfirst := BlkRequest.firstByte_split hsplit
  rw [List.length_append, List.sum_append] at hfirst
  exact hfirst

theorem BlkRequest.firstByte_mono (r : BlkRequest) {j k : Nat} (h : j ≤ k) :
    r.firstByte j ≤ r.firstByte k := List.monotone_sum_take r.segments h

/-- A segment ends where the next one begins. -/
theorem BlkRequest.firstByte_add {r : BlkRequest} {k : Nat} (h : k < r.segments.length) :
    r.firstByte (k + 1) = r.firstByte k + r.segments[k] := List.sum_take_succ r.segments k h

/-! ### The invariant -/

/-- The first sector of each segment that is completed is in the memory of the
request. -/
def Filled (user : Nat → Nat → UInt8) (p : PlacedRequest) (done : Nat) (mem : Mem) : Prop :=
  ∀ k, k < p.request.segments.length → p.request.firstByte k < done →
    ∀ a : Nat, a < 2048 → (mem (p.request.firstByte k + a)).val
      = user (p.sectorAt (p.request.firstByte k)) a

/-- The thread under a deck that keeps up. -/
structure Serving (codec : Codec) (x : Nat → Nat → Stream) (user : Nat → Nat → UInt8)
    (mem₀ : Nat → Mem) (s : TcrThread) : Prop where
  kept : Kept s.loop (s.arrived.map (·.request))
  returns : s.hung = false
  idle : Idle codec x user s.tdev.driver
  ok : ∀ p ∈ s.arrived, p.Ok
  verdicts : ∀ i r, .fetch i r ∈ s.loop.log →
    ∀ v ∈ verdicts s.loop.log i r, v = decide r.IsRead
  filled : ∀ i p, s.arrived[i]? = some p → p.request.IsRead →
    Filled user p (bytesDone s.loop.log i) (s.mem i)
  /-- Nothing is written but to what is completed of a READ. -/
  frame : ∀ i (a : Int), (∀ p, s.arrived[i]? = some p → p.request.IsRead →
    a < 0 ∨ (bytesDone s.loop.log i : Int) ≤ a) → s.mem i a = mem₀ i a

variable {mem₀ : Nat → Mem} {s : TcrThread}

theorem serving_initial (codec : Codec) (x : Nat → Nat → Stream) (user : Nat → Nat → UInt8)
    (mem₀ : Nat → Mem) (buf : Mem) :
    Serving codec x user mem₀ (.initial mem₀ ⟨buf, World.mounted⟩) where
  kept := kept_initial
  returns := rfl
  idle := ⟨atRest_mounted codec x user, rfl⟩
  ok := fun _ h => absurd h List.not_mem_nil
  verdicts := fun _ _ h => absurd h List.not_mem_nil
  filled := fun _ _ h => by simp [TcrThread.initial] at h
  frame := fun _ _ _ => rfl

/-- Requests arrive. -/
theorem Serving.arrive (h : Serving codec x user mem₀ s) (hrun : s.loop.stopped = false)
    {ps : List PlacedRequest} (hps : ∀ p ∈ ps, p.Ok) : Serving codec x user mem₀ { s with
      loop := { s.loop with queue := s.loop.queue ++ ps.map (·.request) }
      arrived := s.arrived ++ ps } := by
  have hkept := h.kept.arrive hrun (ps.map (·.request))
  rw [← List.map_append] at hkept
  have hcount : s.loop.fetched ≤ s.arrived.length := by
    have hlen := h.kept.count
    rwa [List.length_map] at hlen
  refine ⟨hkept, h.returns, h.idle, fun p hp => ?_, h.verdicts, fun i p hi hread => ?_,
    fun i a ha => ?_⟩
  · exact (List.mem_append.mp hp).elim (h.ok p) (hps p)
  · simp only at hi ⊢
    by_cases hlt : i < s.arrived.length
    · rw [List.getElem?_append_left hlt] at hi
      exact h.filled i p hi hread
    · -- a new one has got nothing yet
      intro k _ hk
      rw [h.kept.fresh_bytes (le_trans hcount (Nat.le_of_not_lt hlt))] at hk
      exact absurd hk (Nat.not_lt_zero _)
  · refine h.frame i a fun p hi hread => ?_
    have hlt := (List.getElem?_eq_some_iff.mp hi).1
    exact ha p ((List.getElem?_append_left hlt).trans hi) hread

/-- A request is fetched, if one waits. -/
theorem Serving.look (h : Serving codec x user mem₀ s) (hnone : s.loop.req = none)
    (hrun : s.loop.stopped = false) :
    Serving codec x user mem₀ { s with loop := blkFetchRequest s.loop } := by
  have hkept := h.kept.blkFetchRequest hnone hrun
  refine ⟨hkept, h.returns, h.idle, h.ok, fun i r hfetch v hv => ?_, fun i p hi hread => ?_,
    fun i a ha => ?_⟩
  · simp only at hfetch hv
    rw [blkFetchRequest_verdicts] at hv
    by_cases hi : i < s.loop.fetched
    · have hget := ((hkept.fetched i r).mp hfetch).2
      exact h.verdicts i r ((h.kept.fetched i r).mpr ⟨hi, hget⟩) v hv
    · rw [(h.kept.accounted.fresh i (Nat.le_of_not_lt hi)).2 r] at hv
      exact absurd hv List.not_mem_nil
  · simp only
    rw [blkFetchRequest_bytesDone]
    exact h.filled i p hi hread
  · simp only at ha
    rw [blkFetchRequest_bytesDone] at ha
    exact h.frame i a ha

/-- Requests arrive, and one may be fetched. -/
theorem Serving.fetch (h : Serving codec x user mem₀ s) (hrun : s.loop.stopped = false)
    {t : ThreadTurn} (ht : ∀ p ∈ t.queued, p.Ok) : Serving codec x user mem₀ (s.fetch t) := by
  have harrive := h.arrive hrun ht
  unfold TcrThread.fetch CdPlayer.atHand
  rcases hreq : s.loop.req with - | p
  · simp only [hreq] at harrive ⊢
    exact harrive.look rfl hrun
  · simp only [hreq] at harrive ⊢
    exact harrive

/-! ### A turn with a request at hand -/

variable {u : TcrThread} {p : PlacedRequest} {i : Nat} {r : BlkRequest} {ans : LoopTurn}

/-- How much of the request at hand the turn completes. -/
def turnBytes (u : TcrThread) (i : Nat) (r : BlkRequest) (ans : LoopTurn) : Nat :=
  ((u.loop.table i).answer (decide (r.Succeeds ans.stateEject ans.ret))).1

theorem Serving.handled (h : Serving codec x user mem₀ u) (hreq : u.loop.req = some (i, r))
    (hp : u.arrived[i]? = some p) (hr : p.request = r)
    (hans : r.Succeeds ans.stateEject ans.ret ↔ r.IsRead) {mem : Nat → Mem} {tdev : TcrDevice}
    (hidle : Idle codec x user tdev.driver) (hother : ∀ j, j ≠ i → mem j = u.mem j)
    (hfilled : r.IsRead →
      Filled user p ((u.loop.table i).completed + turnBytes u i r ans) (mem i))
    (hframe : ∀ a : Int, (r.IsRead →
      a < 0 ∨ ((u.loop.table i).completed + turnBytes u i r ans : Nat) ≤ a) → mem i a = u.mem i a) :
    Serving codec x user mem₀
      { u with loop := handleSegment i r ans u.loop, mem := mem, tdev := tdev } := by
  obtain ⟨hbytes, -⟩ := h.kept.accounted.bytesDone_current hreq
  obtain ⟨k, hlog⟩ := (handleSegment_handled u.loop i r ans).log
  have hdone : ∀ j, bytesDone (handleSegment i r ans u.loop).log j
      = bytesDone u.loop.log j + if i = j then turnBytes u i r ans else 0 := by
    intro j
    rw [hlog, bytesDone_append, bytesDone_turnLog]
    rfl
  have hthis : bytesDone (handleSegment i r ans u.loop).log i
      = (u.loop.table i).completed + turnBytes u i r ans := by rw [hdone, hbytes, if_pos rfl]
  have hsame : ∀ j, j ≠ i → bytesDone (handleSegment i r ans u.loop).log j
      = bytesDone u.loop.log j := fun j hj => by rw [hdone, if_neg (Ne.symm hj), Nat.add_zero]
  refine ⟨h.kept.handleSegment hreq ans, h.returns, hidle, h.ok, fun j r' hfetch v hv => ?_,
    fun j p' hj hread => ?_, fun j a ha => ?_⟩
  · -- the verdict on this segment
    simp only at hfetch hv
    rw [hlog, fetch_mem_turnLog] at hfetch
    rw [hlog, verdicts_append, verdicts_turnLog, List.mem_append] at hv
    rcases hv with hv | hv
    · exact h.verdicts j r' hfetch v hv
    · by_cases hij : i = j
      · subst hij
        obtain rfl : r' = r :=
          h.kept.accounted.once i r' r hfetch (h.kept.accounted.current i r hreq).fetched
        rw [if_pos rfl, List.mem_singleton] at hv
        rw [hv]
        exact decide_eq_decide.mpr hans
      · rw [if_neg hij] at hv
        exact absurd hv List.not_mem_nil
  · simp only at hj ⊢
    by_cases hij : j = i
    · subst hij
      obtain rfl : p = p' := Option.some.inj (hp.symm.trans hj)
      rw [hthis]
      exact hfilled (hr ▸ hread)
    · rw [hsame j hij, hother j hij]
      exact h.filled j p' hj hread
  · simp only at ha ⊢
    by_cases hij : j = i
    · subst hij
      rw [hframe a fun hread => ?_]
      · refine h.frame j a fun p' hj hread => ?_
        refine (ha p' hj hread).imp_right fun hle => ?_
        rw [hthis] at hle
        omega
      · have hle := ha p hp (hr ▸ hread)
        rw [hthis] at hle
        exact hle
    · rw [hother j hij]
      refine h.frame j a fun p' hj hread => ?_
      have hle := ha p' hj hread
      rw [hsame j hij] at hle
      exact hle

/-- A segment of a READ: its first sector is in its place. -/
theorem Filled.segment {user : Nat → Nat → UInt8} {p : PlacedRequest} (hok : p.Ok)
    (hread : p.request.IsRead) {done rest : List Nat} {n : Nat}
    (hsplit : p.request.segments = done ++ n :: rest) {mem buffer : Mem}
    (h : Filled user p done.sum mem)
    (hdata : ∀ a : Nat, a < 2048 → (buffer a).val = user (p.sectorAt done.sum) a) :
    Filled user p (done.sum + n) (blit mem done.sum buffer 0 n) := by
  have hn : 2048 ≤ n := by
    have hmem : n ∈ p.request.segments := by rw [hsplit]; simp
    have hpos := p.request.pos n hmem
    have hdvd := (hok.segments hread n hmem).1
    omega
  intro k hk hless a ha
  have hfirst := BlkRequest.firstByte_split hsplit
  rcases lt_trichotomy k done.length with hbefore | rfl | hafter
  · -- a segment completed before
    have hsize : 2048 ≤ p.request.segments[k] := by
      have hmem := List.getElem_mem hk
      have hpos := p.request.pos _ hmem
      have hdvd := (hok.segments hread _ hmem).1
      omega
    have hnext := BlkRequest.firstByte_add hk
    have hend := p.request.firstByte_mono (show k + 1 ≤ done.length from hbefore)
    rw [blit_outside _ _ _ _ _ (.inl (by omega))]
    exact h k hk (by omega) a ha
  · -- this one
    rw [hfirst, blit_inside _ _ _ _ _ (by omega) (by omega)]
    have hindex : (0 : Int) + ((done.sum : Int) + a - done.sum) = a := by omega
    rw [hindex]
    exact hdata a ha
  · -- one that is not completed
    have hend := p.request.firstByte_mono (show done.length + 1 ≤ k from hafter)
    rw [BlkRequest.firstByte_succ hsplit] at hend
    omega

/-- The request at hand is one that has arrived. -/
theorem Serving.atHand (h : Serving codec x user mem₀ u) (hreq : u.loop.req = some (i, r)) :
    ∃ p, u.arrived[i]? = some p ∧ p.request = r := by
  have hfetch := (h.kept.accounted.current i r hreq).fetched
  have hget := ((h.kept.fetched i r).mp hfetch).2
  rw [List.getElem?_map, Option.map_eq_some_iff] at hget
  exact hget

/-- The driver reads the segment at hand. -/
theorem Serving.reads (hdeck : Prompt env x) (hlands : Lands codec x user) (hfuel : 207 ≤ fuel)
    (h : Serving codec x user mem₀ u) (hreq : u.loop.req = some (i, p.request))
    (hp : u.arrived[i]? = some p) (hread : p.request.IsRead) {t : ThreadTurn} {seg : Request}
    (hseg : seg = currentSegment p.request p.pos (u.loop.table i) (u.mem i)) :
    ∃ buffer tdev,
      tcrIssueRq env codec fuel seg u.tdev = (some (.cur 0 seg.curBytes), buffer, tdev) ∧
      Serving codec x user mem₀ { u with
        loop := handleSegment i p.request (t.loopTurn (turnEject env u.tdev)
          ((turnRet env codec fuel seg u.tdev).getD 0)) u.loop
        mem := Function.update u.mem i
          (blit (u.mem i) (u.loop.table i).completed buffer 0 (u.loop.table i).curBytes)
        tdev := tdev } := by
  obtain ⟨hdone, -⟩ := h.kept.accounted.bytesDone_current hreq
  obtain ⟨-, ⟨done, hsplit, hcompleted, -⟩, hremains⟩ := h.kept.accounted.current i _ hreq
  have hok := h.ok p (List.mem_of_getElem? hp)
  have hold := h.filled i p hp hread
  rw [hdone] at hold
  rcases hb : u.loop.table i with ⟨completed, - | ⟨n, rest⟩⟩
  · rw [hb] at hremains
    exact absurd rfl hremains
  rw [hb] at hsplit hcompleted hseg hold
  simp only at hsplit hcompleted hold
  subst hcompleted hseg
  have hasks := hok.asks hread hsplit (u.mem i)
  obtain ⟨hserved, heject, hret⟩ := h.idle.segment hdeck hlands (r := currentSegment p.request p.pos
    ⟨done.sum, n :: rest⟩ (u.mem i)) hread (by rw [hasks.msf]; unfold PlacedRequest.sectorAt; omega)
    hasks.low hasks.high hasks.last hfuel
  rw [heject, hret, Option.getD_some]
  generalize currentSegment p.request p.pos ⟨done.sum, n :: rest⟩ (u.mem i) = seg at hserved hasks ⊢
  generalize tcrIssueRq env codec fuel seg u.tdev = out at hserved ⊢
  obtain ⟨status, buffer, tdev⟩ := out
  obtain ⟨hstatus, hdata, hidle⟩ := hserved
  simp only at hstatus hdata hidle
  have hsucceeds : p.request.Succeeds 0 userSectorSize :=
    ⟨hread.1, hread.2, by decide, by decide⟩
  -- the whole segment is completed
  have hbytes : turnBytes u i p.request (t.loopTurn 0 userSectorSize) = n := by
    unfold turnBytes
    rw [hb, decide_eq_true (show p.request.Succeeds (t.loopTurn 0 userSectorSize).stateEject
      (t.loopTurn 0 userSectorSize).ret from hsucceeds)]
    rfl
  have hcurrent : (⟨done.sum, n :: rest⟩ : BlkState).curBytes = n := rfl
  refine ⟨buffer, tdev, by rw [hstatus], h.handled hreq hp rfl ⟨fun _ => hread, fun _ => hsucceeds⟩
    hidle (fun j hj => Function.update_of_ne hj _ _) (fun _ => ?_) (fun a ha => ?_)⟩
  · rw [hbytes, hb, hcurrent, Function.update_self]
    refine hold.segment hok hread hsplit fun a ha => ?_
    rw [hdata a ha, hasks.msf]
  · rw [hbytes, hb] at ha
    have hout : a < 0 ∨ ((done.sum + n : Nat) : Int) ≤ a := ha hread
    rw [hcurrent, Function.update_self, blit_outside _ _ _ _ _
      (show a < (done.sum : Int) ∨ (done.sum : Int) + n ≤ a by omega)]

/-- What is no READ is refused, and its memory left alone. -/
theorem Serving.refuses (env : Env) (codec' : Codec) (fuel : Nat) (ans : LoopTurn)
    (h : Serving codec x user mem₀ u) (hreq : u.loop.req = some (i, p.request))
    (hp : u.arrived[i]? = some p) (hread : ¬ p.request.IsRead) {seg : Request}
    (hseg : seg = currentSegment p.request p.pos (u.loop.table i) (u.mem i)) :
    tcrIssueRq env codec' fuel seg u.tdev = (some (.all negEio), seg.buffer, u.tdev) ∧
      Serving codec x user mem₀ { u with
        loop := handleSegment i p.request ans u.loop
        mem := Function.update u.mem i
          (blit (u.mem i) (u.loop.table i).completed seg.buffer 0 (u.loop.table i).curBytes) } := by
  subst hseg
  refine ⟨?_, h.handled hreq hp rfl ⟨fun hs => ⟨hs.1, hs.2.1⟩, fun hr => absurd hr hread⟩ h.idle
    (fun j hj => Function.update_of_ne hj _ _) (fun hr => absurd hr hread) (fun a _ => ?_)⟩
  · unfold tcrIssueRq
    rw [if_neg (fun hr => hread ⟨hr.1, hr.2⟩)]
  · -- what is copied is what stands there
    rw [Function.update_self]
    by_cases hin : ((u.loop.table i).completed : Int) ≤ a
        ∧ a < (u.loop.table i).completed + (u.loop.table i).curBytes
    · rw [blit_inside _ _ _ _ _ hin.1 hin.2]
      show u.mem i (((u.loop.table i).completed : Int) + (0 + (a - (u.loop.table i).completed))) = _
      congr 1
      omega
    · rw [blit_outside _ _ _ _ _ (by omega)]

/-! ### Every turn -/

theorem fetch_loop (env : Env) (codec : Codec) (fuel : Nat) (s : TcrThread) (t : ThreadTurn) :
    CdPlayer.atHand s.loop (s.answers env codec fuel t) = (s.fetch t).loop := by
  unfold CdPlayer.atHand
  rw [answers_queued]
  rfl

/-- **Every turn keeps the thread in order.** -/
theorem Serving.step (hdeck : Prompt env x) (hlands : Lands codec x user) (hfuel : 207 ≤ fuel)
    (h : Serving codec x user mem₀ s) {t : ThreadTurn} (ht : ∀ p ∈ t.queued, p.Ok) :
    Serving codec x user mem₀ (tcrThreadStep env codec fuel s t) := by
  by_cases hstop : s.loop.stopped = true
  · rw [tcrThreadStep_done env codec fuel t (.inr hstop)]
    exact h
  have hrun : s.loop.stopped = false := Bool.eq_false_iff.mpr hstop
  have hturn : ¬ (s.hung = true ∨ s.loop.stopped = true) := by
    rw [h.returns, hrun]
    decide
  have hfetch := h.fetch hrun ht
  have hloop := tcrIssueRqStep_eq s.loop (s.answers env codec fuel t) hrun
  rw [fetch_loop] at hloop
  rcases hreq : (s.fetch t).loop.req with - | ⟨i, r⟩
  · -- nothing to do
    have hseg : (s.fetch t).segment = none := by
      unfold TcrThread.segment
      rw [hreq]
      rfl
    have hkept := h.kept.step hrun (s.answers env codec fuel t)
    rw [answers_queued, ← List.map_append] at hkept
    have hlog : (tcrIssueRqStep s.loop (s.answers env codec fuel t)).log
        = (s.fetch t).loop.log := by
      rw [hloop, hreq]
      simp only
      split <;> rfl
    rw [tcrThreadStep_wait env codec fuel t hturn hseg]
    refine ⟨hkept, hfetch.returns, h.idle.yield hdeck.obeys, hfetch.ok, ?_, ?_, ?_⟩
    · simp only
      rw [hlog]
      exact hfetch.verdicts
    · simp only
      rw [hlog]
      exact hfetch.filled
    · simp only
      rw [hlog]
      exact hfetch.frame
  · rw [hreq] at hloop
    obtain ⟨p, hp, rfl⟩ := hfetch.atHand hreq
    have hseg : (s.fetch t).segment = some (i, currentSegment p.request p.pos
        ((s.fetch t).loop.table i) ((s.fetch t).mem i)) := by
      unfold TcrThread.segment
      rw [hreq, Option.map_some]
      simp only
      rw [hp]
      rfl
    have hans : s.answers env codec fuel t = t.loopTurn (turnEject env s.tdev)
        ((turnRet env codec fuel (currentSegment p.request p.pos ((s.fetch t).loop.table i)
          ((s.fetch t).mem i)) s.tdev).getD 0) := by
      unfold TcrThread.answers
      rw [hseg]
    by_cases hread : p.request.IsRead
    · obtain ⟨buffer, tdev, htcr, hnext⟩ := hfetch.reads hdeck hlands hfuel hreq hp hread
        (t := t) rfl
      rw [tcrThreadStep_serve env codec fuel t hturn hseg htcr, hloop, hans]
      exact hnext
    · obtain ⟨htcr, hnext⟩ := hfetch.refuses env codec fuel (s.answers env codec fuel t) hreq hp
        hread rfl
      rw [tcrThreadStep_serve env codec fuel t hturn hseg htcr, hloop]
      exact hnext

theorem serving_run (hdeck : Prompt env x) (hlands : Lands codec x user) (hfuel : 207 ≤ fuel)
    (mem₀ : Nat → Mem) (buf : Mem) {turns : List ThreadTurn}
    (hturns : ∀ t ∈ turns, ∀ p ∈ t.queued, p.Ok) :
    Serving codec x user mem₀ (threadRun env codec fuel mem₀ ⟨buf, World.mounted⟩ turns) := by
  have hallowed : Allowed (tcrThreadStep env codec fuel) (fun _ t => ∀ p ∈ t.queued, p.Ok)
      (.initial mem₀ ⟨buf, World.mounted⟩) turns := allowed_of_forall fun _ t ht => hturns t ht
  exact hallowed.inv (fun s t ht h => h.step hdeck hlands hfuel ht)
    (serving_initial codec x user mem₀ buf)

/-- No turn is cut off. -/
theorem Serving.translate (hdeck : Prompt env x) (hlands : Lands codec x user)
    (hfuel : 207 ≤ fuel) (h : Serving codec x user mem₀ s) (more : List ThreadTurn)
    (hquiet : ∀ t ∈ more, t.queued = []) :
    (translate (tcrThreadStep env codec fuel) (TcrThread.loopTurns env codec fuel) s more).length
        = more.length ∧
      ∀ l ∈ translate (tcrThreadStep env codec fuel) (TcrThread.loopTurns env codec fuel) s more,
        l.queued = [] := by
  induction more generalizing s with
  | nil => exact ⟨rfl, fun l hl => absurd hl List.not_mem_nil⟩
  | cons t more ih =>
    have hqueued := hquiet t List.mem_cons_self
    have hnext := h.step hdeck hlands hfuel (t := t) (by rw [hqueued]; simp)
    obtain ⟨hlen, hrest⟩ := ih hnext fun u hu => hquiet u (List.mem_cons_of_mem _ hu)
    have hone : s.loopTurns env codec fuel t = [s.answers env codec fuel t] := by
      unfold TcrThread.loopTurns
      rw [if_neg (by rw [hnext.returns]; decide)]
    rw [Run.translate, hone]
    refine ⟨congrArg (· + 1) hlen, fun l hl => ?_⟩
    rcases List.mem_cons.mp hl with rfl | hl
    · rw [answers_queued, hqueued]
      rfl
    · exact hrest l hl

/-- All that has arrived is completed within as many turns as segments are
left. -/
theorem Serving.completes (hdeck : Prompt env x) (hlands : Lands codec x user)
    (hfuel : 207 ≤ fuel) (h : Serving codec x user mem₀ s) (more : List ThreadTurn)
    (hquiet : ∀ t ∈ more, t.queued = []) (hlen : s.loop.left ≤ more.length) {i : Nat}
    {p : PlacedRequest} (hi : s.arrived[i]? = some p) :
    bytesDone (more.foldl (tcrThreadStep env codec fuel) s).loop.log i = p.request.bytes := by
  obtain ⟨hcount, hnone⟩ := h.translate hdeck hlands hfuel more hquiet
  have hloop : (more.foldl (tcrThreadStep env codec fuel) s).queuedLoop
      = (Run.translate (tcrThreadStep env codec fuel) (TcrThread.loopTurns env codec fuel) s
          more).foldl queuedStep s.queuedLoop :=
    foldl_simulates (tcrThreadStep_loop env codec fuel) s more
  have hdone := completed_left (s := s.queuedLoop) h.kept _ hnone (hlen.trans_eq hcount.symm)
    (i := i) (r := p.request) (by
      show (s.arrived.map (·.request))[i]? = _
      rw [List.getElem?_map, hi]
      rfl)
  rw [← hloop] at hdone
  exact hdone

/-- Without a stop the record grows by what is queued, and what is left by its
segments. -/
theorem Serving.step_queued (hdeck : Prompt env x) (hlands : Lands codec x user)
    (hfuel : 207 ≤ fuel) (h : Serving codec x user mem₀ s) (hrun : s.loop.stopped = false)
    {t : ThreadTurn} (ht : ∀ p ∈ t.queued, p.Ok) :
    (tcrThreadStep env codec fuel s t).arrived = s.arrived ++ t.queued ∧
    (tcrThreadStep env codec fuel s t).loop.left
      ≤ s.loop.left + segmentCount (t.queued.map (·.request)) := by
  have hreturns := (h.step hdeck hlands hfuel ht).returns
  have hturn : ¬ (s.hung = true ∨ s.loop.stopped = true) := by
    rw [h.returns, hrun]
    decide
  have hleft := h.kept.step_left hrun (s.answers env codec fuel t)
  rw [answers_queued] at hleft
  rcases hseg : (s.fetch t).segment with - | ⟨i, seg⟩
  · rw [tcrThreadStep_wait env codec fuel t hturn hseg]
    exact ⟨rfl, hleft.trans (Nat.sub_le _ _)⟩
  · rcases htcr : tcrIssueRq env codec fuel seg s.tdev with ⟨- | c, buffer, tdev⟩
    · rw [tcrThreadStep_cut env codec fuel t hturn hseg htcr] at hreturns
      exact absurd hreturns (by simp)
    · rw [tcrThreadStep_serve env codec fuel t hturn hseg htcr]
      exact ⟨rfl, hleft.trans (Nat.sub_le _ _)⟩

/-- What has arrived stays on the record. -/
theorem tcrThreadStep_arrived (env : Env) (codec : Codec) (fuel : Nat) (s : TcrThread)
    (t : ThreadTurn) : s.arrived <+: (tcrThreadStep env codec fuel s t).arrived := by
  by_cases hturn : s.hung = true ∨ s.loop.stopped = true
  · have hstep := tcrThreadStep_done env codec fuel t hturn
    exact ⟨[], (List.append_nil _).trans (congrArg TcrThread.arrived hstep).symm⟩
  rcases hseg : (s.fetch t).segment with - | ⟨i, seg⟩
  · rw [tcrThreadStep_wait env codec fuel t hturn hseg]
    exact List.prefix_append _ _
  · rcases htcr : tcrIssueRq env codec fuel seg s.tdev with ⟨- | c, buffer, tdev⟩
    · have hstep := tcrThreadStep_cut env codec fuel t hturn hseg htcr
      exact ⟨[], (List.append_nil _).trans (congrArg TcrThread.arrived hstep).symm⟩
    · rw [tcrThreadStep_serve env codec fuel t hturn hseg htcr]
      exact List.prefix_append _ _

/-! ### What the requests get -/

theorem serveFrom_ok (first : Nat) (segments : List Nat) {vs : List Bool}
    (h : ∀ v ∈ vs, v = true) : ∀ c ∈ serveFrom first segments vs, c.2.2 = 0 := by
  induction segments generalizing first vs with
  | nil => exact fun c hc => absurd hc (by cases vs <;> exact List.not_mem_nil)
  | cons n rest ih =>
    rcases vs with - | ⟨v, vs⟩
    · exact fun c hc => absurd hc List.not_mem_nil
    · obtain rfl : v = true := h v List.mem_cons_self
      intro c hc
      rcases List.mem_cons.mp hc with rfl | hc
      · rfl
      · exact ih _ (fun v hv => h v (List.mem_cons_of_mem _ hv)) c hc

theorem serveFrom_refused (first : Nat) (segments : List Nat) {vs : List Bool}
    (h : ∀ v ∈ vs, v = false) : ∀ c ∈ serveFrom first segments vs,
      c = (first, segments.sum, negEio) := by
  intro c hc
  rcases segments with - | ⟨n, rest⟩
  · exact absurd hc (by cases vs <;> exact List.not_mem_nil)
  · rcases vs with - | ⟨v, vs⟩
    · exact absurd hc List.not_mem_nil
    · obtain rfl : v = false := h v List.mem_cons_self
      rw [List.sum_cons]
      exact List.mem_singleton.mp hc

/-- What becomes of request `i` is as the driver is asked. -/
theorem Serving.completions (h : Serving codec x user mem₀ s) (hp : s.arrived[i]? = some p) :
    (p.request.IsRead → ∀ c ∈ completions s.loop.log i, c.2.2 = 0) ∧
    (¬ p.request.IsRead → ∀ c ∈ completions s.loop.log i, c = (0, p.request.bytes, negEio)) := by
  by_cases hi : i < s.loop.fetched
  · have hfetch : .fetch i p.request ∈ s.loop.log :=
      (h.kept.fetched i _).mpr ⟨hi, by rw [List.getElem?_map, hp]; rfl⟩
    rw [h.kept.accounted.served i _ hfetch]
    have hverdicts := h.verdicts i _ hfetch
    constructor
    · intro hread
      exact serveFrom_ok _ _ fun v hv => (hverdicts v hv).trans (decide_eq_true hread)
    · intro hread
      exact serveFrom_refused _ _ fun v hv => (hverdicts v hv).trans (decide_eq_false hread)
  · -- it has not been fetched
    have hnone := (h.kept.accounted.fresh i (Nat.le_of_not_lt hi)).1
    rw [hnone]
    exact ⟨fun _ c hc => absurd hc List.not_mem_nil, fun _ c hc => absurd hc List.not_mem_nil⟩

/-- **The block device reads the disc.**  Under a deck that keeps up, whatever
requests the driver can serve (`PlacedRequest.Ok`) are queued and when: no
call is cut off; a READ is completed without an error, and the first sector
of each segment completed is that of the disc; what is no READ is refused;
the memory is written to where a READ has been completed and nowhere else;
and all that has arrived is completed within as many turns as segments are
left. -/
theorem reads_the_disc (env : Env) (codec : Codec) (x : Nat → Nat → Stream)
    (user : Nat → Nat → UInt8) (hdeck : Prompt env x) (hlands : Lands codec x user) {fuel : Nat}
    (hfuel : 207 ≤ fuel) (mem₀ : Nat → Mem) (buf : Mem) (turns : List ThreadTurn)
    (hturns : ∀ t ∈ turns, ∀ p ∈ t.queued, p.Ok) :
    let s := threadRun env codec fuel mem₀ ⟨buf, World.mounted⟩ turns
    s.hung = false ∧
    ∀ i p, s.arrived[i]? = some p →
      (p.request.IsRead → (∀ c ∈ completions s.loop.log i, c.2.2 = 0) ∧
        Filled user p (bytesDone s.loop.log i) (s.mem i)) ∧
      (¬ p.request.IsRead →
        ∀ c ∈ completions s.loop.log i, c = (0, p.request.bytes, negEio)) ∧
      (∀ a : Int, (p.request.IsRead → a < 0 ∨ (bytesDone s.loop.log i : Int) ≤ a) →
        s.mem i a = mem₀ i a) ∧
      ∀ more : List ThreadTurn, (∀ t ∈ more, t.queued = []) → s.loop.left ≤ more.length →
        bytesDone (threadRun env codec fuel mem₀ ⟨buf, World.mounted⟩ (turns ++ more)).loop.log i
          = p.request.bytes := by
  intro s
  have h : Serving codec x user mem₀ s := serving_run hdeck hlands hfuel mem₀ buf hturns
  refine ⟨h.returns, fun i p hp =>
    ⟨fun hread => ?_, ?_, fun a ha => ?_, fun more hquiet hlen => ?_⟩⟩
  · exact ⟨(h.completions hp).1 hread, h.filled i p hp hread⟩
  · exact (h.completions hp).2
  · refine h.frame i a fun p' hp' hread => ?_
    obtain rfl : p' = p := Option.some.inj (hp'.symm.trans hp)
    exact ha hread
  · unfold threadRun
    rw [List.foldl_append]
    exact h.completes hdeck hlands hfuel more hquiet hlen hp

/-- Two sectors from frame 160 on, in two segments. -/
def twoSectors : PlacedRequest where
  request := ⟨true, true, [2048, 2048], by decide, by decide⟩
  pos := 40

/-- They are queued before the first turn. -/
def queueTwoSectors : ThreadTurn := ⟨[twoSectors], false⟩

theorem twoSectors_ok : ∀ p ∈ queueTwoSectors.queued, p.Ok := by
  intro p hp
  obtain rfl := List.mem_singleton.mp hp
  exact ⟨fun _ => ⟨10, rfl⟩, fun _ => by decide, fun _ => by decide⟩

theorem queueTwoSectors_ok : ∀ t ∈ [queueTwoSectors], ∀ p ∈ t.queued, p.Ok := by
  intro t ht
  obtain rfl := List.mem_singleton.mp ht
  exact twoSectors_ok

/-- A deck that lands where it is sent, and its disc. -/
def sampleThread (turns : List ThreadTurn) : TcrThread :=
  threadRun (streamDeck fun _ msf => discFrom msf) plainCodec 207 (fun _ => Mem.zero)
    ⟨Mem.zero, World.mounted⟩ turns

theorem sampleThread_queued : (sampleThread [queueTwoSectors]).arrived[0]? = some twoSectors ∧
    (sampleThread [queueTwoSectors]).loop.left ≤ 2 := by
  have hstart := serving_initial plainCodec (fun _ msf => discFrom msf) (fun _ _ => 0x55)
    (fun _ => Mem.zero) Mem.zero
  have hdeck := streamDeck_prompt fun _ msf => discFrom msf
  have hone : sampleThread [queueTwoSectors]
      = tcrThreadStep (streamDeck fun _ msf => discFrom msf) plainCodec 207
          (.initial (fun _ => Mem.zero) ⟨Mem.zero, World.mounted⟩) queueTwoSectors := by
    unfold sampleThread threadRun
    rw [List.foldl_cons, List.foldl_nil]
  rw [hone]
  obtain ⟨harrived, hleft⟩ := hstart.step_queued hdeck discFrom_lands (le_refl 207) rfl
    twoSectors_ok
  refine ⟨?_, hleft⟩
  rw [harrived]
  rfl

theorem reads_the_disc_two :
    bytesDone (sampleThread ([queueTwoSectors] ++ [⟨[], false⟩, ⟨[], false⟩])).loop.log 0
      = twoSectors.request.bytes := by
  have hqueued := sampleThread_queued
  unfold sampleThread at hqueued ⊢
  have h := reads_the_disc (streamDeck fun _ msf => discFrom msf) plainCodec
    (fun _ msf => discFrom msf) (fun _ _ => 0x55) (streamDeck_prompt _) discFrom_lands (le_refl 207)
    (fun _ => Mem.zero) Mem.zero [queueTwoSectors] queueTwoSectors_ok
  exact (h.2 0 twoSectors hqueued.1).2.2.2 [⟨[], false⟩, ⟨[], false⟩] (by simp) hqueued.2

/-! ### Single sectors -/

theorem BlkRequest.firstByte_single {r : BlkRequest} (h : ∀ n ∈ r.segments, n = 2048) {k : Nat}
    (hk : k ≤ r.segments.length) : r.firstByte k = 2048 * k := by
  induction k with
  | zero => rfl
  | succ k ih =>
    rw [BlkRequest.firstByte_add hk, ih (Nat.le_of_succ_le hk), h _ (List.getElem_mem hk)]
    omega

/-- **What is read in single sectors is the disc.**  Under a deck that keeps
up, and with requests that the driver can serve (`PlacedRequest.Ok`), if every
segment of a READ is one sector, then once the turns that are due are over,
each of its bytes is that of the disc. -/
theorem disc_image (env : Env) (codec : Codec) (x : Nat → Nat → Stream)
    (user : Nat → Nat → UInt8) (hdeck : Prompt env x) (hlands : Lands codec x user) {fuel : Nat}
    (hfuel : 207 ≤ fuel) (mem₀ : Nat → Mem) (buf : Mem) (turns more : List ThreadTurn)
    (hturns : ∀ t ∈ turns, ∀ p ∈ t.queued, p.Ok) (hquiet : ∀ t ∈ more, t.queued = [])
    (hdue : (threadRun env codec fuel mem₀ ⟨buf, World.mounted⟩ turns).loop.left ≤ more.length)
    (i : Nat) (p : PlacedRequest)
    (hp : (threadRun env codec fuel mem₀ ⟨buf, World.mounted⟩ turns).arrived[i]? = some p)
    (hread : p.request.IsRead) (hsingle : ∀ n ∈ p.request.segments, n = 2048) (a : Nat)
    (ha : a < p.request.bytes) :
    ((threadRun env codec fuel mem₀ ⟨buf, World.mounted⟩ (turns ++ more)).mem i a).val
      = user (p.pos / 4 + 150 + a / 2048) (a % 2048) := by
  have h := serving_run hdeck hlands hfuel mem₀ buf hturns
  have hboth : ∀ t ∈ turns ++ more, ∀ p ∈ t.queued, p.Ok := by
    intro t ht p hp
    rcases List.mem_append.mp ht with ht | ht
    · exact hturns t ht p hp
    · rw [hquiet t ht] at hp
      exact absurd hp List.not_mem_nil
  have hall := serving_run hdeck hlands hfuel mem₀ buf hboth
  have hlength : p.request.bytes = 2048 * p.request.segments.length := by
    rw [← BlkRequest.firstByte_single hsingle le_rfl]
    unfold BlkRequest.bytes BlkRequest.firstByte
    rw [List.take_length]
  have hdone := h.completes hdeck hlands hfuel more hquiet hdue hp
  have hrun : threadRun env codec fuel mem₀ ⟨buf, World.mounted⟩ (turns ++ more)
      = more.foldl (tcrThreadStep env codec fuel)
          (threadRun env codec fuel mem₀ ⟨buf, World.mounted⟩ turns) := List.foldl_append
  -- the record keeps the requests that arrived before
  have harrived : (threadRun env codec fuel mem₀ ⟨buf, World.mounted⟩
      (turns ++ more)).arrived[i]? = some p := by
    obtain ⟨rest, hrest⟩ := foldl_rel (R := fun a b : TcrThread => a.arrived <+: b.arrived)
      (fun s => List.prefix_refl s.arrived) List.IsPrefix.trans
      (tcrThreadStep_arrived env codec fuel) more
      (threadRun env codec fuel mem₀ ⟨buf, World.mounted⟩ turns)
    rw [← hrun] at hrest
    rw [← hrest, List.getElem?_append_left (List.getElem?_eq_some_iff.mp hp).1]
    exact hp
  have hfilled := hall.filled i p harrived hread
  rw [hrun, hdone] at hfilled
  have hk : a / 2048 < p.request.segments.length := by omega
  have hfirst := BlkRequest.firstByte_single hsingle (Nat.le_of_lt hk)
  have hbyte := hfilled (a / 2048) hk (by omega) (a % 2048) (Nat.mod_lt _ (by decide))
  rw [hrun]
  rw [hfirst] at hbyte
  unfold PlacedRequest.sectorAt at hbyte
  rw [Nat.mul_div_cancel_left _ (by decide)] at hbyte
  rw [← hbyte]
  congr 2
  push_cast
  omega

theorem disc_image_two :
    ((sampleThread ([queueTwoSectors] ++ [⟨[], false⟩, ⟨[], false⟩])).mem 0 (4095 : Nat)).val
      = 0x55 := by
  have hqueued := sampleThread_queued
  unfold sampleThread at hqueued ⊢
  exact disc_image (streamDeck fun _ msf => discFrom msf) plainCodec (fun _ msf => discFrom msf)
    (fun _ _ => 0x55) (streamDeck_prompt _) discFrom_lands (le_refl 207) (fun _ => Mem.zero)
    Mem.zero [queueTwoSectors] [⟨[], false⟩, ⟨[], false⟩] queueTwoSectors_ok (by simp) hqueued.2 0
    twoSectors hqueued.1 ⟨rfl, rfl⟩ (by decide) 4095 (by decide)

end CdPlayer
