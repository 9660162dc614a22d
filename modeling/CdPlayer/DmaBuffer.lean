/-
CdPlayer/DmaBuffer.lean

The two halves of the DMA buffer, below the event of the driver's model.

The DMA engine of the CDIF stores byte after byte at `dma_buf_phyaddr`,
round and round through 16384 bytes, and asks for an interrupt when it has
filled a half (`set_cdif_adma`, cdif_drv.c).  `cdif_adma_handler` reads where
the engine is (`RxCdCdar`), and copies the half where it is not, while the
engine goes on; `tcc_adma_handler` clears the request when that is done.
`Driver` has all this as one event: a block of 8192 bytes comes.

* `handler_half`: the comparison of the two addresses picks the half that
  the engine is not in, wherever the buffer lies.
* `dma_streams`: if a half is copied before the engine has filled the next
  one, then all that the driver sees is what `Streams` says, through any
  number of seeks and whatever the thread does: the bytes of the deck in
  order, behind less than 8192 bytes that the engine had left in its half
  when the seek was sent.
-/
import CdPlayer.Lib.DoubleBuffer
import CdPlayer.Lib.Simulation
import CdPlayer.Stream

namespace CdPlayer

open Run DoubleBuffer

/-! ### The engine and the handler -/

/-- The engine with its buffer, and the driver. -/
structure CdifDma where
  dma : DoubleBuffer.State UInt8
  world : World
  /-- Bookkeeping: how much the engine had stored when the last seek was sent. -/
  base : Nat
  /-- Bookkeeping: what it had left in its half when seek `k` was sent. -/
  left : Nat → List UInt8

inductive DmaOp
  /-- The engine stores a byte. -/
  | byte (b : UInt8)
  /-- `cdif_adma_handler` up to `memcpy`. -/
  | irq
  /-- A byte of `memcpy`. -/
  | copy
  /-- The rest of the handler, and of `tcc_adma_handler`. -/
  | done
  /-- A message or a mount. -/
  | other (e : Event)
  /-- The thread has gone on to this state. -/
  | thread (w : World)

/-- `RxCdCdar`: where the engine stores the next byte. -/
def rxCdCdar (phys : Nat) (s : DoubleBuffer.State UInt8) : Nat :=
  u32 (phys + s.produced.length % 16384 : Nat)

/-- The half that the handler copies, from `dma_buf_viraddr[0]`. -/
def sourceHalf (phys curReadAddr : Nat) : Nat :=
  let sourceAddr := u32 (phys + cddidmaBufferSize : Nat)
  if curReadAddr < sourceAddr then cddidmaBufferSize else 0

/-- What the engine has left in the half that it is filling. -/
def leftover (s : DoubleBuffer.State UInt8) : List UInt8 :=
  s.produced.drop (8192 * s.taken.length)

/-- A block as the driver's model has it. -/
def dmaBlock (block : List UInt8) (i : Nat) : UInt8 := block.getD i 0

/-- What the driver sees of a step. -/
def driverEvents (s : CdifDma) : DmaOp → List Event
  | .done =>
    match s.dma.copy with
    | none => []
    | some (_, block) => if block.length = 8192 then [.dma (dmaBlock block)] else []
  | .other e => [e]
  | _ => []

/-- One step; the DMA buffer lies at `phys`. -/
def dmaStep (phys : Nat) (s : CdifDma) (op : DmaOp) : CdifDma :=
  match op with
  | .byte b => { s with dma := step 8192 s.dma (.write b) }
  | .irq =>
    if s.dma.pending = true ∧ s.dma.copy = none then
      { s with dma := { s.dma with copy := some (sourceHalf phys (rxCdCdar phys s.dma), []) } }
    else s
  | .copy => { s with dma := step 8192 s.dma .copy }
  | .done =>
    { s with
      dma := step 8192 s.dma .leave
      world := (driverEvents s .done).foldl handle s.world }
  | .other e => { s with world := handle s.world e }
  | .thread w =>
    if w.seeks = s.world.seeks then { s with world := w }
    else
      { s with
        world := w
        base := s.dma.produced.length
        left := Function.update s.left w.seeks (leftover s.dma) }

/-! ### What is assumed -/

/-- What the thread does between two seeks, or a seek.  It does not go on while
an interrupt is due. -/
structure ThreadGoesOn (s : CdifDma) (w : World) : Prop where
  served : s.dma.pending = false
  same : w.seeks = s.world.seeks → w.seekMsf = s.world.seekMsf ∧ w.dmaSince = s.world.dmaSince
  seek : w.seeks ≠ s.world.seeks → w.seeks = s.world.seeks + 1 ∧ w.dmaSince = 0

/-- After seek `k` the deck sends the bytes of `y k`, while the CDIF is enabled;
the handler is in time; and there is no eject message. -/
def DeckSends (y : Nat → Nat → Stream) (s : CdifDma) : DmaOp → Prop
  | .byte b => s.world.cdifEnable = true ∧ DoubleBuffer.InTime 8192 s.dma (.write b) ∧
      b = y s.world.seeks s.world.seekMsf (s.dma.produced.length - s.base : Nat)
  | .other e => (∀ block, e ≠ .dma block) ∧ ∀ x, Streams x s.world e
  | .thread w => ThreadGoesOn s w
  | _ => True

/-- A stream behind the bytes that were left. -/
def behind (left : List UInt8) (y : Stream) : Stream := fun a =>
  if a < left.length then left.getD a.toNat 0 else y (a - left.length)

/-! ### The half that is copied -/

/-- **The handler copies the half that the engine is not in.** -/
theorem handler_half {phys : Nat} (hphys : phys + 16384 ≤ 4294967296)
    (s : DoubleBuffer.State UInt8) : sourceHalf phys (rxCdCdar phys s) = otherHalf 8192 s := by
  have hplace : s.produced.length % 16384 < 16384 := Nat.mod_lt _ (by decide)
  have hcur : u32 ((phys + s.produced.length % 16384 : Nat) : Int)
      = phys + s.produced.length % 16384 := u32_natCast (by omega)
  have hsource : u32 ((phys + cddidmaBufferSize : Nat) : Int) = phys + 8192 :=
    u32_natCast (show phys + 8192 < 4294967296 by omega)
  unfold sourceHalf rxCdCdar otherHalf
  simp only
  rw [hcur, hsource]
  by_cases hfirst : s.produced.length % 16384 < 8192
  · rw [if_pos (by omega), if_pos (by omega)]
    rfl
  · rw [if_neg (by omega), if_neg (by omega)]

/-- What a step is for the buffer. -/
def bufferOps : DmaOp → List (Op UInt8)
  | .byte b => [.write b]
  | .irq => [.enter]
  | .copy => [.copy]
  | .done => [.leave]
  | .other _ | .thread _ => []

theorem dmaStep_dma {phys : Nat} (hphys : phys + 16384 ≤ 4294967296) (s : CdifDma) (op : DmaOp) :
    (dmaStep phys s op).dma = (bufferOps op).foldl (step 8192) s.dma := by
  cases op with
  | irq =>
    unfold dmaStep
    rw [handler_half hphys]
    show _ = step 8192 s.dma .enter
    unfold step
    simp only
    split <;> rfl
  | thread w =>
    unfold dmaStep
    simp only
    split <;> rfl
  | byte b => rfl
  | copy => rfl
  | done => rfl
  | other e => rfl

/-! ### The driver beside the buffer -/

/-- The thread apart, the driver sees the events of a step. -/
theorem dmaStep_world (phys : Nat) (s : CdifDma) {op : DmaOp} (hop : ∀ w, op ≠ .thread w) :
    (dmaStep phys s op).world = (driverEvents s op).foldl handle s.world := by
  cases op with
  | thread w => exact absurd rfl (hop w)
  | irq =>
    unfold dmaStep
    simp only
    split <;> rfl
  | byte b => rfl
  | copy => rfl
  | done => rfl
  | other e => rfl

/-- Since the last seek: what the engine has stored are the bytes of the deck,
behind those that were left, and each half that has been taken is a block
that the driver has counted. -/
structure SinceSeek (y : Nat → Nat → Stream) (s : CdifDma) : Prop where
  sound : Sound 8192 s.dma
  enabled : s.dma.pending = true → s.world.cdifEnable = true
  base : s.base ≤ s.dma.produced.length
  sent : ∀ i, s.base + i < s.dma.produced.length →
    s.dma.produced[s.base + i]? = some (y s.world.seeks s.world.seekMsf i)
  blocks : ∃ t, s.dma.taken.length = t + s.world.dmaSince ∧ 8192 * t ≤ s.base ∧
    s.left s.world.seeks = (s.dma.produced.take s.base).drop (8192 * t)
  short : ∀ k, (s.left k).length < 8192

variable {y : Nat → Nat → Stream} {phys : Nat} {s : CdifDma}

/-- The buffer is the stream, from the block on that was due when the seek was
sent. -/
theorem SinceSeek.stream (h : SinceSeek y s) {n : Nat}
    (hn : 8192 * (s.dma.taken.length - s.world.dmaSince) + n < s.dma.produced.length) :
    s.dma.produced[8192 * (s.dma.taken.length - s.world.dmaSince) + n]?
      = some (behind (s.left s.world.seeks) (y s.world.seeks s.world.seekMsf) n) := by
  obtain ⟨t, ht, hbase, hleft⟩ := h.blocks
  have hstored := h.base
  rw [show s.dma.taken.length - s.world.dmaSince = t by omega] at hn ⊢
  have hlen : (s.left s.world.seeks).length = s.base - 8192 * t := by
    rw [hleft, List.length_drop, List.length_take]
    omega
  unfold behind
  by_cases hold : n < s.base - 8192 * t
  · -- left from before
    rw [if_pos (by omega), hleft, Int.toNat_natCast, List.getD_eq_getElem?_getD,
      List.getElem?_drop, List.getElem?_take_of_lt (by omega), List.getElem?_eq_getElem hn]
    rfl
  · rw [if_neg (by omega)]
    have hsent := h.sent (8192 * t + n - s.base) (by omega)
    rw [show s.base + (8192 * t + n - s.base) = 8192 * t + n by omega] at hsent
    rw [hsent, hlen]
    congr 2
    omega

/-- What comes off the buffer is what the driver's model assumes. -/
theorem SinceSeek.done (h : SinceSeek y s) {first : Nat} {block : List UInt8}
    (hcopy : s.dma.copy = some (first, block)) (hall : block.length = 8192) {a : Nat}
    (ha : a < 8192) : dmaBlock block a
      = behind (s.left s.world.seeks) (y s.world.seeks s.world.seekMsf)
          (8192 * s.world.dmaSince + a) := by
  obtain ⟨hpending, -, -, hblock⟩ := h.sound.copy first block hcopy
  obtain ⟨t, ht, -⟩ := h.blocks
  have hfull := h.sound.pending.mp hpending
  have hstream := h.stream (n := 8192 * s.world.dmaSince + a) (by omega)
  rw [show 8192 * (s.dma.taken.length - s.world.dmaSince) + (8192 * s.world.dmaSince + a)
    = 8192 * s.dma.taken.length + a by omega] at hstream
  push_cast at hstream
  unfold dmaBlock
  rw [hblock, hall, List.getD_eq_getElem?_getD, List.getElem?_take_of_lt ha, List.getElem?_drop,
    hstream]
  rfl

/-! ### Steps -/

theorem SinceSeek.byte (h : SinceSeek y s) {b : UInt8} (hlaw : DeckSends y s (.byte b)) :
    SinceSeek y (dmaStep phys s (.byte b)) := by
  obtain ⟨hon, htime, hb⟩ := hlaw
  have hbase := h.base
  have hlen : (s.dma.produced ++ [b]).length = s.dma.produced.length + 1 := List.length_append
  obtain ⟨t, ht, hle, hleft⟩ := h.blocks
  refine ⟨h.sound.step (.write b) htime, fun _ => hon, ?_, fun i hi => ?_, ⟨t, ht, hle, ?_⟩,
    h.short⟩
  · show s.base ≤ (s.dma.produced ++ [b]).length
    omega
  · -- the byte stored is the next of the stream
    have hi' : s.base + i < (s.dma.produced ++ [b]).length := hi
    rw [hlen] at hi'
    show (s.dma.produced ++ [b])[s.base + i]? = _
    by_cases hold : s.base + i < s.dma.produced.length
    · rw [List.getElem?_append_left hold]
      exact h.sent i hold
    · have hnew : s.base + i = s.dma.produced.length := by omega
      rw [hnew, List.getElem?_concat_length, hb, ← hnew, Nat.add_sub_cancel_left]
      rfl
  · show s.left s.world.seeks = ((s.dma.produced ++ [b]).take s.base).drop (8192 * t)
    rw [List.take_append_of_le_length hbase]
    exact hleft

/-- The handler begins, or copies a byte. -/
theorem SinceSeek.handler (h : SinceSeek y s) {dma : DoubleBuffer.State UInt8}
    (hsound : Sound 8192 dma) (hproduced : dma.produced = s.dma.produced)
    (htaken : dma.taken = s.dma.taken) (hpending : dma.pending = s.dma.pending) :
    SinceSeek y { s with dma := dma } := by
  refine ⟨hsound, ?_, ?_, ?_, ?_, h.short⟩
  · simp only
    rw [hpending]
    exact h.enabled
  · simp only
    rw [hproduced]
    exact h.base
  · simp only
    rw [hproduced]
    exact h.sent
  · simp only
    rw [hproduced, htaken]
    exact h.blocks

/-- A half has been copied: the driver gets its block. -/
theorem SinceSeek.leave (h : SinceSeek y s) : SinceSeek y (dmaStep phys s .done) := by
  rcases hcopy : s.dma.copy with - | ⟨first, block⟩
  · have hstep : dmaStep phys s .done = s := by
      unfold dmaStep driverEvents step
      simp only
      rw [hcopy]
      rfl
    rw [hstep]
    exact h
  by_cases hall : block.length = 8192
  · obtain ⟨hpending, -⟩ := h.sound.copy first block hcopy
    have hon := h.enabled hpending
    have hstep : dmaStep phys s .done = { s with
        dma := { s.dma with copy := none, pending := false, taken := s.dma.taken ++ [block] }
        world := handle s.world (.dma (dmaBlock block)) } := by
      unfold dmaStep driverEvents step
      simp only
      rw [hcopy]
      simp only
      rw [if_pos hall, if_pos hall]
      rfl
    have hsound := h.sound.step .leave trivial
    have hleave : step 8192 s.dma .leave
        = { s.dma with copy := none, pending := false, taken := s.dma.taken ++ [block] } := by
      unfold step
      simp only
      rw [hcopy]
      simp only
      rw [if_pos hall]
    rw [hleave] at hsound
    have hout := outside_handle s.world (.dma (dmaBlock block))
    -- the block is counted
    have hcount : (handle s.world (.dma (dmaBlock block))).dmaSince = s.world.dmaSince + 1 := by
      rw [handle, occur, if_pos hon]
      rfl
    obtain ⟨t, ht, hle, hleft⟩ := h.blocks
    rw [hstep]
    refine ⟨hsound, fun hfalse => absurd hfalse (by simp), h.base, fun i hi => ?_,
      ⟨t, ?_, hle, ?_⟩, h.short⟩
    · simp only
      rw [hout.seeks, hout.seekMsf]
      exact h.sent i hi
    · simp only
      rw [hcount, List.length_append, ht]
      rfl
    · simp only
      rw [hout.seeks]
      exact hleft
  · have hstep : dmaStep phys s .done = s := by
      unfold dmaStep driverEvents step
      simp only
      rw [hcopy]
      simp only
      rw [if_neg hall, if_neg hall]
      rfl
    rw [hstep]
    exact h

/-- A message or a mount. -/
theorem SinceSeek.other (h : SinceSeek y s) {e : Event} (he : ∀ block, e ≠ .dma block) :
    SinceSeek y { s with world := handle s.world e } := by
  have hout := outside_handle s.world e
  have hsame : SameRing s.world (occur s.world e) := by
    cases e with
    | dma block => exact absurd rfl (he block)
    | msg m =>
      have hmsg := sameRing_nlRecvMsg s.world m
      unfold occur
      simp only
      split
      · exact ⟨hmsg.ring, hmsg.cdif, hmsg.error, hmsg.dma, hmsg.notes, hmsg.now⟩
      · exact hmsg
    | mount => exact sameRing_tcrReadTochdr s.world
  have hdma : (handle s.world e).dmaSince = s.world.dmaSince := hsame.dma
  refine ⟨h.sound, fun hpending => ?_, h.base, fun i hi => ?_, ?_, h.short⟩
  · exact hsame.cdif.trans (h.enabled hpending)
  · simp only
    rw [hout.seeks, hout.seekMsf]
    exact h.sent i hi
  · simp only
    rw [hdma, hout.seeks]
    exact h.blocks

/-- The thread goes on, or sends a seek. -/
theorem SinceSeek.thread (h : SinceSeek y s) {w : World} (hw : ThreadGoesOn s w) :
    SinceSeek y (dmaStep phys s (.thread w)) := by
  have hserved := hw.served
  have hnone : s.dma.pending = true → w.cdifEnable = true := fun hdue => by
    rw [hserved] at hdue
    exact absurd hdue (by decide)
  unfold dmaStep
  simp only
  by_cases hsame : w.seeks = s.world.seeks
  · obtain ⟨hmsf, hdma⟩ := hw.same hsame
    rw [if_pos hsame]
    refine ⟨h.sound, hnone, h.base, fun i hi => ?_, ?_, h.short⟩
    · simp only
      rw [hsame, hmsf]
      exact h.sent i hi
    · simp only
      rw [hsame, hdma]
      exact h.blocks
  · obtain ⟨-, hdma⟩ := hw.seek hsame
    rw [if_neg hsame]
    -- less than a half is left
    have hlow := h.sound.length
    have hhigh : ¬ 8192 * (s.dma.taken.length + 1) ≤ s.dma.produced.length := fun hle => by
      rw [h.sound.pending.mpr hle] at hserved
      exact absurd hserved (by decide)
    refine ⟨h.sound, hnone, le_rfl, fun i hi => ?_, ⟨s.dma.taken.length, ?_, hlow, ?_⟩, fun k => ?_⟩
    · exact absurd (show s.dma.produced.length + i < s.dma.produced.length from hi) (by omega)
    · simp only
      rw [hdma]
      rfl
    · simp only
      rw [Function.update_self, List.take_length]
      rfl
    · simp only
      by_cases hk : k = w.seeks
      · rw [hk, Function.update_self]
        unfold leftover
        rw [List.length_drop]
        omega
      · rw [Function.update_of_ne hk]
        exact h.short k

/-- **Every step keeps the driver beside the buffer.** -/
theorem SinceSeek.step (hphys : phys + 16384 ≤ 4294967296) (h : SinceSeek y s) {op : DmaOp}
    (hop : DeckSends y s op) : SinceSeek y (dmaStep phys s op) := by
  cases op with
  | byte b => exact h.byte hop
  | irq =>
    have hsound : Sound 8192 (dmaStep phys s .irq).dma := by
      rw [dmaStep_dma hphys]
      exact h.sound.step .enter trivial
    unfold dmaStep at hsound ⊢
    simp only at hsound ⊢
    by_cases hdue : s.dma.pending = true ∧ s.dma.copy = none
    · rw [if_pos hdue] at hsound ⊢
      exact h.handler hsound rfl rfl rfl
    · rw [if_neg hdue]
      exact h
  | copy =>
    have hsound := h.sound.step .copy trivial
    obtain ⟨hproduced, htaken, hpending⟩ := step_copy 8192 s.dma
    exact h.handler hsound hproduced htaken hpending
  | done => exact h.leave
  | other e => exact h.other hop.1
  | thread w => exact h.thread hop

/-! ### Runs -/

/-- Before anything has come. -/
def CdifDma.initial (cells : Nat → UInt8) : CdifDma :=
  ⟨⟨[], cells, false, none, []⟩, World.initial, 0, fun _ => []⟩

theorem sinceSeek_initial (y : Nat → Nat → Stream) (cells : Nat → UInt8) :
    SinceSeek y (.initial cells) where
  sound := sound_initial (by decide) cells
  enabled := fun hdue => absurd hdue (by simp [CdifDma.initial])
  base := le_rfl
  sent := fun i hi => absurd hi (Nat.not_lt_zero _)
  blocks := ⟨0, rfl, le_rfl, rfl⟩
  short := fun _ => show 0 < 8192 by decide

/-- The record of the seeks is not changed any more. -/
theorem dmaStep_left (phys : Nat) (s : CdifDma) {op : DmaOp} (hop : DeckSends y s op) :
    s.world.seeks ≤ (dmaStep phys s op).world.seeks ∧
      ∀ k ≤ s.world.seeks, (dmaStep phys s op).left k = s.left k := by
  have hevents : ∀ es : List Event, (es.foldl handle s.world).seeks = s.world.seeks := fun es =>
    (foldl_rel Outside.refl Outside.trans outside_handle es s.world).seeks
  cases op with
  | thread w =>
    unfold dmaStep
    simp only
    by_cases hsame : w.seeks = s.world.seeks
    · rw [if_pos hsame]
      exact ⟨le_of_eq hsame.symm, fun k _ => rfl⟩
    · obtain ⟨hseeks, -⟩ := hop.seek hsame
      rw [if_neg hsame]
      refine ⟨by simp only; omega, fun k hk => Function.update_of_ne (by omega) _ _⟩
  | irq =>
    unfold dmaStep
    simp only
    split <;> exact ⟨le_rfl, fun k _ => rfl⟩
  | byte b => exact ⟨le_rfl, fun k _ => rfl⟩
  | copy => exact ⟨le_rfl, fun k _ => rfl⟩
  | done => exact ⟨le_of_eq (hevents _).symm, fun k _ => rfl⟩
  | other e => exact ⟨le_of_eq (hevents [e]).symm, fun k _ => rfl⟩

/-- The streams that the driver sees, with what was left at each seek. -/
def seen (left : Nat → List UInt8) (y : Nat → Nat → Stream) (k msf : Nat) : Stream :=
  behind (left k) (y k msf)

/-- What a step shows to the driver is of the stream of its seek. -/
theorem SinceSeek.events (h : SinceSeek y s) {op : DmaOp} (hop : DeckSends y s op)
    {left : Nat → List UInt8} (hleft : left s.world.seeks = s.left s.world.seeks) :
    Allowed handle (Streams (seen left y)) s.world (driverEvents s op) := by
  cases op with
  | done =>
    unfold driverEvents
    rcases hcopy : s.dma.copy with - | ⟨first, block⟩
    · trivial
    · simp only
      by_cases hall : block.length = 8192
      · rw [if_pos hall]
        refine ⟨fun _ a ha => ?_, trivial⟩
        unfold seen
        rw [hleft]
        exact h.done hcopy hall ha
      · rw [if_neg hall]
        trivial
  | other e => exact ⟨hop.2 _, trivial⟩
  | byte b => trivial
  | irq => trivial
  | copy => trivial
  | thread w => trivial

/-- Along a run every step shows what is of the streams, told apart by what is
left at each seek in the end. -/
theorem SinceSeek.run (hphys : phys + 16384 ≤ 4294967296) (h : SinceSeek y s) {ops : List DmaOp}
    (hops : Allowed (dmaStep phys) (DeckSends y) s ops) :
    Allowed (dmaStep phys) (fun t op => Allowed handle
      (Streams (seen (ops.foldl (dmaStep phys) s).left y)) t.world (driverEvents t op)) s ops ∧
    ∀ k ≤ s.world.seeks, (ops.foldl (dmaStep phys) s).left k = s.left k := by
  induction ops generalizing s with
  | nil => exact ⟨trivial, fun _ _ => rfl⟩
  | cons op ops ih =>
    obtain ⟨hop, hrest⟩ := hops
    obtain ⟨hmono, hkept⟩ := dmaStep_left phys s hop
    obtain ⟨hevents, hleft⟩ := ih (h.step hphys hop) hrest
    have hall : ∀ k ≤ s.world.seeks, (ops.foldl (dmaStep phys) (dmaStep phys s op)).left k
        = s.left k := fun k hk => (hleft k (hk.trans hmono)).trans (hkept k hk)
    exact ⟨⟨h.events hop (hall _ le_rfl), hevents⟩, hall⟩

/-- **What comes off the DMA buffer is a stream.**  Take any run of the engine,
the handler, the thread and the messages, in which the handler is in time,
the thread does nothing while a half is due, no eject is reported and the
deck sends the bytes of `y k` after seek `k`.  Then there are, for
each seek, less than 8192 bytes left from before, such that the driver,
whenever the thread waits, sees events of the bytes of `y k` behind them,
in order and complete, and nothing else happens to it. -/
theorem dma_streams {phys : Nat} (hphys : phys + 16384 ≤ 4294967296) (y : Nat → Nat → Stream)
    (cells : Nat → UInt8) (ops : List DmaOp)
    (hops : Allowed (dmaStep phys) (DeckSends y) (.initial cells) ops) :
    ∃ left : Nat → List UInt8, (∀ k, (left k).length < 8192) ∧
      ∀ before turn after, ops = before ++ turn ++ after → (∀ w, .thread w ∉ turn) →
        let s := before.foldl (dmaStep phys) (.initial cells)
        let events := translate (dmaStep phys) driverEvents s turn
        Allowed handle (Streams (seen left y)) s.world events ∧
          (turn.foldl (dmaStep phys) s).world = events.foldl handle s.world := by
  have hstart := sinceSeek_initial y cells
  have hend : SinceSeek y (ops.foldl (dmaStep phys) (.initial cells)) :=
    hops.inv (fun _ op hop h => h.step hphys hop) hstart
  refine ⟨_, hend.short, ?_⟩
  rintro before turn after hsplit hturn
  obtain ⟨hevents, -⟩ := hstart.run hphys hops
  generalize (ops.foldl (dmaStep phys) (.initial cells)).left = left at hevents ⊢
  rw [hsplit, List.append_assoc] at hevents
  have hduring := (allowed_append.mp (allowed_append.mp hevents).2).1
  -- steps without the thread
  have hquiet : Allowed (dmaStep phys) (fun _ op => ∀ w, op ≠ .thread w)
      (before.foldl (dmaStep phys) (.initial cells)) turn :=
    allowed_of_forall fun _ op hop w hw => hturn w (hw ▸ hop)
  have hboth := allowed_and.mpr ⟨hquiet, hduring⟩
  have hstep : ∀ (t : CdifDma) (op : DmaOp), ((∀ w, op ≠ .thread w) ∧
      Allowed handle (Streams (seen left y)) t.world (driverEvents t op)) → True →
      True ∧ (dmaStep phys t op).world = (driverEvents t op).foldl handle t.world :=
    fun t op hop _ => ⟨trivial, dmaStep_world phys t hop.1⟩
  exact ⟨hboth.translate_allowed hstep (fun _ _ hop _ => hop.2) trivial,
    hboth.simulates hstep trivial⟩

/-- A deck that sends the same byte over and over may send as many as the
handler has time for. -/
theorem bytes_allowed (phys : Nat) (b : UInt8) (n : Nat) {s : CdifDma}
    (hon : s.world.cdifEnable = true)
    (hn : s.dma.produced.length + n < 8192 * (s.dma.taken.length + 2)) :
    Allowed (dmaStep phys) (DeckSends fun _ _ _ => b) s (List.replicate n (.byte b)) := by
  induction n generalizing s with
  | zero => trivial
  | succ n ih =>
    refine ⟨⟨hon, show s.dma.produced.length + 1 < _ by omega, rfl⟩, ih hon ?_⟩
    show (s.dma.produced ++ [b]).length + n < 8192 * (s.dma.taken.length + 2)
    rw [List.length_append, List.length_singleton]
    omega

/-- The first seek, with the CDIF enabled. -/
def World.firstSeek : World := { World.initial with seeks := 1, cdifEnable := true }

/-- The rest of the handler's run: it copies the half. -/
def copyHalf : List DmaOp := .irq :: (List.replicate 8192 .copy ++ [.done])

theorem copyHalf_cases {op : DmaOp} (h : op ∈ copyHalf) :
    op = .irq ∨ op = .copy ∨ op = .done := by
  rcases List.mem_cons.mp h with rfl | h
  · exact .inl rfl
  · rcases List.mem_append.mp h with h | h
    · exact .inr (.inl (List.eq_of_mem_replicate h))
    · exact .inr (.inr (List.mem_singleton.mp h))

/-- Half a buffer comes and is copied. -/
def oneHalf : List DmaOp := List.replicate 8192 (.byte 0x55) ++ copyHalf

theorem oneHalf_thread (w : World) : .thread w ∉ oneHalf := by
  intro h
  rcases List.mem_append.mp h with h | h
  · cases List.eq_of_mem_replicate h
  · rcases copyHalf_cases h with h | h | h <;> cases h

theorem oneHalf_allowed (cells : Nat → UInt8) :
    Allowed (dmaStep 0) (DeckSends fun _ _ _ => 0x55) (.initial cells)
      ([.thread World.firstSeek] ++ oneHalf) := by
  have hbytes := bytes_allowed 0 0x55 8192
    (s := dmaStep 0 (.initial cells) (.thread World.firstSeek)) rfl
    (show 0 + 8192 < 8192 * (0 + 2) by decide)
  have hseek : ThreadGoesOn (.initial cells) World.firstSeek :=
    ⟨rfl, fun h => absurd h (show ¬ 1 = 0 by decide), fun _ => ⟨rfl, rfl⟩⟩
  refine allowed_append.mpr ⟨⟨hseek, trivial⟩, allowed_append.mpr ⟨hbytes, ?_⟩⟩
  refine allowed_of_forall fun t op hop => ?_
  rcases copyHalf_cases hop with rfl | rfl | rfl <;> trivial

/-- The state after the first seek. -/
def afterSeek : CdifDma :=
  [DmaOp.thread World.firstSeek].foldl (dmaStep 0) (.initial fun _ => 0)

theorem dma_streams_oneHalf : (oneHalf.foldl (dmaStep 0) afterSeek).world
    = (translate (dmaStep 0) driverEvents afterSeek oneHalf).foldl handle afterSeek.world := by
  obtain ⟨left, -, hall⟩ := dma_streams (by decide) (fun _ _ _ => 0x55) (fun _ => 0)
    ([.thread World.firstSeek] ++ oneHalf) (oneHalf_allowed _)
  exact (hall [.thread World.firstSeek] oneHalf [] (by rw [List.append_nil]) oneHalf_thread).2

end CdPlayer
