/-
CdPlayer/Deck.lean

A deck that keeps up, and the discs in it.

`streamDeck x` mounts a disc, answers every seek at once and, while the CDIF
is on, sends seventy blocks of the stream `x` at every turn: more than any
read waits for.  Whatever the stream, it is `Prompt` (`streamDeck_prompt`), so that
what is proved of prompt decks is proved of some.

`discFrom g` is the stream of a disc from sector `g` on.
-/
import CdPlayer.Disc
import CdPlayer.Seek

namespace CdPlayer

open ByteStore Run

variable {x : Nat → Nat → Stream} {w : World}

/-! ### Blocks in a row -/

/-- `k` blocks of the stream `y`, from block `d` on. -/
def nextBlocks (y : Stream) : Nat → Nat → List Event
  | _, 0 => []
  | d, k + 1 => .dma (fun a => y (8192 * d + a)) :: nextBlocks y (d + 1) k

/-- What a block does to the count of blocks. -/
theorem handle_dma_dmaSince (block : Nat → UInt8) (w : World)
    (hon : (handle w (.dma block)).cdifEnable = true) :
    w.cdifEnable = true ∧ (handle w (.dma block)).dmaSince = w.dmaSince + 1 := by
  by_cases hw : w.cdifEnable = true
  · refine ⟨hw, ?_⟩
    rw [handle, occur, if_pos hw]
    rfl
  · rw [handle, occur, if_neg hw] at hon
    exact absurd hon hw

theorem nextBlocks_allowed {y : Stream} (k : Nat) {d : Nat} (hy : y = x w.seeks w.seekMsf)
    (hd : w.cdifEnable = true → w.dmaSince = d) :
    Allowed handle (Streams x) w (nextBlocks y d k) := by
  induction k generalizing w d with
  | zero => trivial
  | succ k ih =>
    have hout := outside_handle w (.dma fun a => y (8192 * d + a))
    constructor
    · intro hon a _
      rw [hd hon, hy]
    · apply ih
      · rw [hout.seeks, hout.seekMsf]
        exact hy
      · intro hon
        obtain ⟨hw, hdma⟩ := handle_dma_dmaSince _ _ hon
        rw [hdma, hd hw]

/-- `k` blocks have come, or the ring is nearly full. -/
def Arrived (k : Nat) (w : World) : Prop :=
  w.cdifEnable = true ∧ 2048 * (k : Int) ≤ singleBufferDataAvailable w.sCDDIBuffer ∨
    2000000 ≤ singleBufferDataAvailable w.sCDDIBuffer

theorem arrived_dma {k : Nat} (block : Nat → UInt8) (hflow : Flowing x w)
    (hstream : Streams x w (.dma block)) (h : Arrived k w) :
    Arrived (k + 1) (handle w (.dma block)) := by
  have hsteady := hflow.handle w _ hstream
  have hmore := hsteady.avail
  rcases h with ⟨hon, havail⟩ | hfull
  · have hroom := hflow.room hon
    rw [hflow.ring.spaceAvailable] at hroom
    have hgrow := hflow.ring.dataAvailable_appendBlock block w.now (by omega)
    rw [handle, occur, if_pos hon]
    rcases cdifAdmaHandler_cases block hflow.ring.ne_zero with ⟨heq, -⟩ | ⟨heq, hspace⟩
    · left
      rw [heq]
      refine ⟨hon, ?_⟩
      show 2048 * ((k + 1 : Nat) : Int)
        ≤ singleBufferDataAvailable (appendBlock block w.now w.sCDDIBuffer)
      push_cast
      omega
    · right
      rw [heq]
      rw [(hflow.ring.appendBlock block w.now).spaceAvailable] at hspace
      show 2000000 ≤ singleBufferDataAvailable (appendBlock block w.now w.sCDDIBuffer)
      omega
  · right
    omega

theorem arrived_nextBlocks {y : Stream} {d j : Nat} (k : Nat) (hflow : Flowing x w)
    (hallowed : Allowed handle (Streams x) w (nextBlocks y d k)) (h : Arrived j w) :
    Arrived (j + k) ((nextBlocks y d k).foldl handle w) := by
  induction k generalizing w d j with
  | zero => exact h
  | succ k ih =>
    obtain ⟨hstream, hrest⟩ := hallowed
    have hnext := ih (hflow.handle w _ hstream).flowing hrest (arrived_dma _ hflow hstream h)
    rw [show j + (k + 1) = j + 1 + k by omega]
    exact hnext

/-! ### The deck -/

/-- A disc is mounted where there is none, and the seek that is waited for is
answered. -/
def promptMessages (w : World) : List Event :=
  (if w.datacdEnable then [] else [.mount]) ++ if w.waiting then [answerTo w.seeks 1] else []

/-- The next blocks, while the CDIF is on. -/
def promptBlocks (x : Nat → Nat → Stream) (w : World) : List Event :=
  if w.cdifEnable then nextBlocks (x w.seeks w.seekMsf) w.dmaSince 70 else []

/-- A deck that streams `x`. -/
def streamDeck (x : Nat → Nat → Stream) : Env := fun w =>
  ⟨promptMessages w ++ promptBlocks x w, false, true⟩

/-- An answer is no disc change. -/
theorem streams_answerTo (i : Nat) (v : UInt8) : Streams x w (answerTo i v) :=
  fun hU => absurd (show charS = charU from hU) (by decide)

theorem promptMessages_allowed (w : World) :
    Allowed handle (Streams x) w (promptMessages w) := by
  apply allowed_of_forall
  intro u e he
  unfold promptMessages at he
  rcases List.mem_append.mp he with he | he
  · split at he
    · exact absurd he List.not_mem_nil
    · rw [List.mem_singleton.mp he]
      trivial
  · split at he
    · rw [List.mem_singleton.mp he]
      exact streams_answerTo _ _
    · exact absurd he List.not_mem_nil

/-- No block has come, and the stream is the same. -/
structure SameStream (w w' : World) : Prop where
  dmaSince : w'.dmaSince = w.dmaSince
  cdif : w'.cdifEnable = w.cdifEnable
  seeks : w'.seeks = w.seeks
  seekMsf : w'.seekMsf = w.seekMsf

theorem SameStream.trans {a b c : World} (h : SameStream a b) (h' : SameStream b c) :
    SameStream a c :=
  ⟨h'.dmaSince.trans h.dmaSince, h'.cdif.trans h.cdif, h'.seeks.trans h.seeks,
    h'.seekMsf.trans h.seekMsf⟩

theorem sameStream_mount (w : World) : SameStream w (handle w .mount) := by
  show SameStream w (tcrReadTochdr w).tick
  have hout := outside_tcrReadTochdr w
  have hsame := sameRing_tcrReadTochdr w
  exact ⟨hsame.dma, hsame.cdif, hout.seeks, hout.seekMsf⟩

theorem sameStream_answerTo (i : Nat) (v : UInt8) (w : World) :
    SameStream w (handle w (answerTo i v)) := by
  have hout := outside_handle w (answerTo i v)
  have hanswer : (⟨1, 18, fun j => if j = 0 then charS else v, i⟩ : NlMsg).nlmsgData 0 = charS :=
    rfl
  refine ⟨?_, ?_, hout.seeks, hout.seekMsf⟩
  · rw [answerTo, handle, occur, if_pos hanswer]
    exact (sameRing_nlRecvMsg w _).dma
  · rw [answerTo, handle, occur, if_pos hanswer]
    exact (sameRing_nlRecvMsg w _).cdif

theorem promptMessages_same (w : World) :
    SameStream w ((promptMessages w).foldl handle w) := by
  unfold promptMessages
  rw [List.foldl_append]
  have hmount : SameStream w ((if w.datacdEnable then [] else [Event.mount]).foldl handle w) := by
    split
    · exact ⟨rfl, rfl, rfl, rfl⟩
    · exact sameStream_mount w
  refine hmount.trans ?_
  by_cases hwait : w.waiting = true
  · rw [if_pos hwait]
    exact sameStream_answerTo _ _ _
  · rw [if_neg hwait]
    exact ⟨rfl, rfl, rfl, rfl⟩

theorem promptBlocks_allowed (x : Nat → Nat → Stream) (w : World) :
    Allowed handle (Streams x) ((promptMessages w).foldl handle w) (promptBlocks x w) := by
  have hsame := promptMessages_same w
  unfold promptBlocks
  split
  · exact nextBlocks_allowed 70 (congrArg₂ x hsame.seeks.symm hsame.seekMsf.symm)
      fun _ => hsame.dmaSince
  · trivial

theorem streamDeck_obeys (x : Nat → Nat → Stream) : (streamDeck x).Obeys (Streams x) := by
  intro w
  exact allowed_append.mpr ⟨promptMessages_allowed w, promptBlocks_allowed x w⟩

/-- Blocks have no part in the seek. -/
theorem nextBlocks_seekView (y : Stream) (k d : Nat) (w : World) :
    ((nextBlocks y d k).foldl handle w).seekView = w.seekView := by
  induction k generalizing w d with
  | zero => rfl
  | succ k ih => exact (ih (d + 1) (handle w _)).trans (handle_seekView_of_none rfl)

theorem promptBlocks_seekView (x : Nat → Nat → Stream) (w u : World) :
    ((promptBlocks x w).foldl handle u).seekView = u.seekView := by
  unfold promptBlocks
  split
  · exact nextBlocks_seekView _ _ _ u
  · rfl

/-- A mount has no part in it either. -/
theorem promptMount_seekView (w : World) :
    ((if w.datacdEnable then [] else [Event.mount]).foldl handle w).seekView = w.seekView := by
  split
  · rfl
  · exact handle_seekView_of_none rfl

/-- While no call waits, the deck answers nothing. -/
theorem streamDeck_idle (hidle : w.waiting = false) :
    (yield (streamDeck x) w).seekView = w.seekView := by
  show ((promptMessages w ++ promptBlocks x w).foldl handle w).seekView = w.seekView
  rw [List.foldl_append, promptBlocks_seekView]
  unfold promptMessages
  rw [if_neg (show ¬ w.waiting = true by rw [hidle]; decide), List.append_nil]
  exact promptMount_seekView w

/-- While one waits, it is answered. -/
theorem streamDeck_answers (hwait : w.waiting = true) :
    (yield (streamDeck x) w).seekView = w.seekView.answer w.seeks 1 := by
  show ((promptMessages w ++ promptBlocks x w).foldl handle w).seekView = _
  rw [List.foldl_append, promptBlocks_seekView]
  unfold promptMessages
  rw [if_pos hwait, List.foldl_append, ← promptMount_seekView w]
  exact handle_seekView_of_some rfl

/-- The call after a wait that the answer has ended. -/
theorem cdSendMsf_of_answered {env : Env} {msf : Nat} {v : World}
    (hv : yield env (beginSeek msf w) = v) (hcompletion : 0 < v.tccCompletion)
    (hend : ∀ u : World, u.waiting = false → u.seekResponse = v.seekResponse →
      (yield env u).seekResponse 1 = 1) :
    (cdSendMsf env msf w).1 = 1 := by
  unfold cdSendMsf waitForCompletion
  simp only [hv]
  rw [if_pos hcompletion]
  simp only
  rw [if_neg (by decide)]
  simp only
  rw [if_pos]
  apply hend
  · rfl
  · rfl

/-- **Every seek succeeds.** -/
theorem streamDeck_seeks (x : Nat → Nat → Stream) (msf : Nat) (w : World) :
    (cdSendMsf (streamDeck x) msf w).1 = 1 := by
  have hanswered := streamDeck_answers (x := x) (show (beginSeek msf w).waiting = true from rfl)
  generalize hv : yield (streamDeck x) (beginSeek msf w) = v at hanswered
  have hcompletion : v.seekView.tccCompletion = w.tccCompletion + 1 := by
    rw [hanswered]
    rfl
  have hresponse : v.seekView.response = 1 := by
    rw [hanswered]
    rfl
  refine cdSendMsf_of_answered hv (show 0 < v.seekView.tccCompletion by omega) ?_
  intro u hidle hsame
  have hkept := congrArg SeekView.response (streamDeck_idle (x := x) hidle)
  show (yield (streamDeck x) u).seekView.response = 1
  rw [hkept]
  show u.seekResponse 1 = 1
  rw [hsame]
  exact hresponse

/-- **What is waited for has come after one turn.** -/
theorem streamDeck_fills (hflow : Flowing x w) (hon : w.cdifEnable = true) :
    117012 ≤ singleBufferDataAvailable (yield (streamDeck x) w).sCDDIBuffer := by
  have hflow' : Flowing x ((promptMessages w).foldl handle w) :=
    (promptMessages_allowed w).inv (fun u e he hu => (hu.handle u e he).flowing) hflow
  have hon' := (promptMessages_same w).cdif.trans hon
  have hallowed := promptBlocks_allowed x w
  have hblocks : promptBlocks x w = nextBlocks (x w.seeks w.seekMsf) w.dmaSince 70 := by
    unfold promptBlocks
    rw [if_pos hon]
  have hturn : (yield (streamDeck x) w).sCDDIBuffer
      = ((promptBlocks x w).foldl handle ((promptMessages w).foldl handle w)).sCDDIBuffer := by
    rw [← List.foldl_append]
    rfl
  rw [hturn]
  rw [hblocks] at hallowed ⊢
  generalize (promptMessages w).foldl handle w = u at hflow' hon' hallowed ⊢
  have hnonneg := hflow'.ring.dataAvailable_nonneg
  rcases arrived_nextBlocks 70 hflow' hallowed (.inl ⟨hon', show _ ≤ _ by omega⟩ : Arrived 0 u) with
    ⟨-, havail⟩ | hfull
  · push_cast at havail
    omega
  · omega

/-- **The deck is prompt**, whatever the stream. -/
theorem streamDeck_prompt (x : Nat → Nat → Stream) : Prompt (streamDeck x) x where
  obeys := streamDeck_obeys x
  kmalloc := fun _ => rfl
  answers := streamDeck_seeks x
  arrives := by
    intro w req hflow hon _ hreq
    have hfills := streamDeck_fills hflow hon
    have hu := (hflow.yield (streamDeck_obeys x)).flowing.ring.u32_dataAvailable
    rw [waitFor_enough (by omega)]

/-! ### Discs -/

/-- The sectors from `g` on; from 100 minutes on all headers say so. -/
def discFrom (g : Nat) : Stream := fun q =>
  discByte (min (g + (q / 2352).toNat) 450000) (q % 2352).toNat

theorem discFrom_byte (g j : Nat) {i : Nat} (hi : i < 2352) :
    discFrom g (2352 * j + i) = discByte (min (g + j) 450000) i := by
  have hdiv : (2352 * (j : Int) + i) / 2352 = j := by omega
  have hmod : (2352 * (j : Int) + i) % 2352 = i := by omega
  unfold discFrom
  rw [hdiv, hmod]
  rfl

/-- No header byte is `0xFF`. -/
theorem discByte_header {f i : Nat} (hf : f < 720000) (hi : 12 ≤ i) : discByte f i ≠ 255 := by
  have hdigits : ∀ n, n < 160 → UInt8.ofNat (cdHex2bcd n) ≠ 255 := by
    intro n hn h
    have hval := congrArg UInt8.toNat h
    rw [UInt8.toNat_ofNat', Nat.mod_eq_of_lt (cdHex2bcd_lt n), cdHex2bcd_eq hn] at hval
    have h255 : (255 : UInt8).toNat = 255 := rfl
    omega
  unfold discByte
  rw [if_neg (by omega)]
  split
  · rw [frame2min_eq hf]
    exact hdigits _ (by omega)
  · split
    · rw [frame2sec_eq hf]
      exact hdigits _ (by omega)
    · split
      · rw [frame2frame_eq hf]
        exact hdigits _ (by omega)
      · split <;> decide

/-- Two bytes of a sector that begin a pattern are its first two. -/
theorem discByte_sync {f i : Nat} (hf : f < 720000) (h₀ : discByte f i = 0)
    (h₁ : discByte f (i + 1) = 255) : i = 0 := by
  have hsmall : i < 12 := by
    by_contra hlarge
    exact discByte_header hf (by omega) h₁
  have hpattern : pattern i = 0 := by
    unfold discByte at h₀
    rwa [if_pos hsmall] at h₀
  have hcases : ∀ i, i < 12 → pattern i = 0 → i = 0 ∨ i = 11 := by decide
  rcases hcases i hsmall hpattern with rfl | rfl
  · rfl
  · exact absurd h₁ (discByte_header hf (by decide))

theorem discFrom_sync (g : Nat) {q : Int} (hq : 0 ≤ q) :
    (discFrom g).SyncAt q ↔ q % 2352 = 0 := by
  obtain ⟨j, hj⟩ := Int.eq_ofNat_of_zero_le (show 0 ≤ q / 2352 by omega)
  obtain ⟨r, hr⟩ := Int.eq_ofNat_of_zero_le (show 0 ≤ q % 2352 by omega)
  have hf : min (g + j) 450000 < 720000 := by omega
  have hplace : q = 2352 * j + r := by omega
  constructor
  · intro h
    have h₀ : discFrom g (q + (0 : Nat)) = 0 := h 0 (by decide)
    have h₁ : discFrom g (q + (1 : Nat)) = 255 := h 1 (by decide)
    rw [hplace, Nat.cast_zero, add_zero, discFrom_byte g j (by omega)] at h₀
    by_cases hlast : r = 2351
    · -- the last byte of a sector is user data
      rw [hlast, discByte_user _ (by decide)] at h₀
      exact absurd h₀ (by decide)
    · rw [hplace, add_assoc, ← Nat.cast_add, discFrom_byte g j (by omega)] at h₁
      have hzero := discByte_sync hf h₀ h₁
      omega
  · intro h i hi
    have hr0 : r = 0 := by omega
    rw [hplace, hr0, Nat.cast_zero, add_zero, discFrom_byte g j (by omega)]
    exact if_pos hi

/-- **The stream is that of a disc.** -/
theorem discFrom_disc (g : Nat) :
    DiscFrom plainCodec (fun _ _ => 0x55) (discFrom g) 0 g := by
  have hblock : ∀ j i : Nat, i < 2352 →
      ((discFrom g).block ((0 : Nat) + 2352 * j) i).val = discByte (min (g + j) 450000) i := by
    intro j i hi
    show discFrom g ((0 : Nat) + 2352 * j + i) = _
    rw [Nat.cast_zero, zero_add]
    exact discFrom_byte g j hi
  refine ⟨by decide, ?_, ?_, ?_, ?_, ?_⟩
  · intro j
    exact (discFrom_sync g (by omega)).mpr (by omega)
  · intro q hq h
    have hmod := (discFrom_sync g hq).mp h
    exact ⟨(q / 2352).toNat, by omega⟩
  · -- a pattern in the descrambled part is one of the stream: the plain codec changes nothing
    intro j o ho ho' h
    have hsync : (discFrom g).SyncAt ((0 : Nat) + 2352 * j + o) := by
      intro i hi
      have hi' := h i hi
      unfold Stream.looked at hi'
      split at hi'
      next hlt =>
        rw [descrambled_plain _ hlt] at hi'
        rw [← hi']
        show _ = discFrom g ((0 : Nat) + 2352 * j + ((o + i : Nat) : Int))
        rw [Nat.cast_add o i, add_assoc _ (o : Int)]
      next =>
        rw [← hi', Nat.cast_add o i, add_assoc _ (o : Int)]
    have hmod := (discFrom_sync g (by omega)).mp hsync
    omega
  · intro j hj
    refine goodSector_disc fun i hi => ?_
    rw [hblock j i hi, Nat.min_eq_left (by omega)]
  · -- behind the last frame the same header comes again and again
    intro j hj
    have hgood : GoodSector plainCodec 450000 (fun _ => 0x55)
        ((discFrom g).block ((0 : Nat) + 2352 * j)) := by
      refine goodSector_disc fun i hi => ?_
      rw [hblock j i hi, Nat.min_eq_right hj]
    unfold headerFrame
    rw [hgood.minute, hgood.second, hgood.frame]
    exact (cdBcdmsf2frame_frame2msf (show 450000 < 720000 by decide)).ge

end CdPlayer
