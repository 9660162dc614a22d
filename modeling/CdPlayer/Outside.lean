/-
CdPlayer/Outside.lean

What the surroundings can do to the driver, and what they cannot.

The read path shares its state with the CDIF interrupt, the netlink socket
and the mount path, but most of the state belongs to the reading thread
alone.  `Outside w w'` collects what holds between the states before and
after anything that happens outside the thread: the thread's own fields
are unchanged, the CDIF is never turned on, and with the CDIF off the ring
does not move.  `Frame` is the part of it that a seek respects too.  Every
event respects it (`outside_handle`), and with it every turn
(`outside_yield`), so that a proof about the read path steps over a `yield`
by naming the field it needs.

`nl_recv_msg` and `tcr_read_tochdr` are opened once, in the first section:
each kind of message has an equation there, and so has a mount.
-/
import CdPlayer.Interrupt
import CdPlayer.Lib.Run

namespace CdPlayer

open Run

/-! ### Messages and mounts -/

section
variable {m : NlMsg} (w : World)

/-- An eject message. -/
theorem nlRecvMsg_eject (hU : m.nlmsgData 0 = charU) : nlRecvMsg m w =
    { setStateEject (m.nlmsgData 1).toNat w with
      recvPid := m.nlmsgPid
      seekResult := memset0 (memcpy w.seekResult m.nlmsgData 2) 2 } := by
  have htype : memcpy w.seekResult m.nlmsgData 2 0 = m.nlmsgData 0 := rfl
  unfold nlRecvMsg
  simp only [htype, if_pos hU]
  rfl

/-- A seek result. -/
theorem nlRecvMsg_seek (hS : m.nlmsgData 0 = charS) : nlRecvMsg m w =
    { w with
      recvPid := m.nlmsgPid
      seekResult := memset0 (memcpy w.seekResult m.nlmsgData 2) 2
      seekResponse := strncpy w.seekResponse (memcpy w.seekResult m.nlmsgData 2) 4
      tccCompletion := w.tccCompletion + 1 } := by
  have htype : memcpy w.seekResult m.nlmsgData 2 0 = charS := hS
  have hno : ¬ charS = charU := by decide
  unfold nlRecvMsg cdSeekResultMonitor
  simp only [htype, if_neg hno, if_pos]

/-- Any other message is a TOC. -/
theorem nlRecvMsg_toc (hU : m.nlmsgData 0 ≠ charU) (hS : m.nlmsgData 0 ≠ charS) :
    nlRecvMsg m w =
    { w with
      recvPid := m.nlmsgPid
      seekResult := memset0 (memcpy w.seekResult m.nlmsgData 2) 2
      tocBuffer := memcpy w.tocBuffer m.nlmsgData (u32 (m.nlmsgLen - 16)) } := by
  have htype : memcpy w.seekResult m.nlmsgData 2 0 = m.nlmsgData 0 := rfl
  unfold nlRecvMsg
  simp only [htype, if_neg hU, if_neg hS]

/-- What a mount writes. -/
theorem tcrReadTochdr_writes : ∃ out disc,
    tcrReadTochdr w = { setStateEject 0 w with discOut := out, discAt := disc } ∧
      (disc = w.discAt ∨ disc = some w.now) := by
  unfold tcrReadTochdr
  simp only
  split
  · exact ⟨_, _, rfl, .inr rfl⟩
  · exact ⟨_, _, rfl, .inl rfl⟩

/-- What neither a message nor a mount touches. -/
structure SameRing (w w' : World) : Prop where
  ring : w'.sCDDIBuffer = w.sCDDIBuffer
  cdif : w'.cdifEnable = w.cdifEnable
  error : w'.gCDErrorStatus = w.gCDErrorStatus
  dma : w'.dmaSince = w.dmaSince
  notes : w'.notes = w.notes
  now : w'.now = w.now

theorem sameRing_nlRecvMsg (m : NlMsg) : SameRing w (nlRecvMsg m w) := by
  by_cases hU : m.nlmsgData 0 = charU
  · rw [nlRecvMsg_eject w hU]
    exact ⟨rfl, rfl, rfl, rfl, rfl, rfl⟩
  · by_cases hS : m.nlmsgData 0 = charS
    · rw [nlRecvMsg_seek w hS]
      exact ⟨rfl, rfl, rfl, rfl, rfl, rfl⟩
    · rw [nlRecvMsg_toc w hU hS]
      exact ⟨rfl, rfl, rfl, rfl, rfl, rfl⟩

theorem sameRing_tcrReadTochdr : SameRing w (tcrReadTochdr w) := by
  obtain ⟨_, _, hw, -⟩ := tcrReadTochdr_writes w
  rw [hw]
  exact ⟨rfl, rfl, rfl, rfl, rfl, rfl⟩

end

/-! ### The frame of an event -/

/-- Notes are added, each of them with the property `P`. -/
def Adds (P : Note → Prop) (w w' : World) : Prop := ∃ l, w'.notes = l ++ w.notes ∧ ∀ n ∈ l, P n

/-- Only passive notes are added. -/
abbrev Grows : World → World → Prop := Adds Note.Passive

variable {P : Note → Prop} {w w' : World}

theorem Adds.refl (w : World) : Adds P w w :=
  ⟨[], rfl, fun _ hn => absurd hn List.not_mem_nil⟩

theorem Adds.trans {a b c : World} (h : Adds P a b) (h' : Adds P b c) : Adds P a c := by
  obtain ⟨l, hl, hp⟩ := h
  obtain ⟨l', hl', hp'⟩ := h'
  refine ⟨l' ++ l, by rw [hl', hl, List.append_assoc], fun n hn => ?_⟩
  rcases List.mem_append.mp hn with hn | hn
  · exact hp' n hn
  · exact hp n hn

/-- One note. -/
theorem Adds.cons {n : Note} (h : w'.notes = n :: w.notes) (hn : P n) : Adds P w w' :=
  ⟨[n], h, fun m hm => by rw [List.mem_singleton.mp hm]; exact hn⟩

/-- No note. -/
theorem Adds.same (h : w'.notes = w.notes) : Adds P w w' :=
  ⟨[], h, fun _ hn => absurd hn List.not_mem_nil⟩

theorem Adds.mono {Q : Note → Prop} (h : Adds P w w') (hPQ : ∀ n, P n → Q n) : Adds Q w w' := by
  obtain ⟨l, hl, hp⟩ := h
  exact ⟨l, hl, fun n hn => hPQ n (hp n hn)⟩

/-- Notes stay. -/
theorem Adds.mem (h : Adds P w w') {n : Note} (hn : n ∈ w.notes) : n ∈ w'.notes := by
  obtain ⟨l, hl, -⟩ := h
  rw [hl]
  exact List.mem_append_right _ hn

/-- What the notes of a whole run have, those of its parts have. -/
theorem Adds.split {Q R : Note → Prop} {a b c : World} (h : Adds P a c) (hab : Adds Q a b)
    (hbc : Adds R b c) : Adds P a b ∧ Adds P b c := by
  obtain ⟨l, hl, hp⟩ := h
  obtain ⟨l₁, hl₁, -⟩ := hab
  obtain ⟨l₂, hl₂, -⟩ := hbc
  have hparts : l = l₂ ++ l₁ := by
    rw [hl₂, hl₁, ← List.append_assoc] at hl
    exact (List.append_cancel_right hl).symm
  subst hparts
  exact ⟨⟨l₁, hl₁, fun n hn => hp n (List.mem_append_right l₂ hn)⟩,
    ⟨l₂, hl₂, fun n hn => hp n (List.mem_append_left l₁ hn)⟩⟩

/-- The notes added are the newest ones. -/
theorem Adds.take {Q : Note → Prop} (h : Adds Q w w')
    (hp : ∀ n ∈ w'.notes.take (w'.notes.length - w.notes.length), P n) : Adds P w w' := by
  obtain ⟨l, hl, -⟩ := h
  refine ⟨l, hl, fun n hn => hp n ?_⟩
  rw [hl, List.length_append, Nat.add_sub_cancel, List.take_left]
  exact hn

/-- The CDIF may be turned off and blocks may arrive; the fields that the
thread keeps for buffering are unchanged. -/
structure Frame (w w' : World) : Prop where
  bufStatus : w'.gCDBufStatus = w.gCDBufStatus
  lastSector : w'.gLastSector = w.gLastSector
  requestSector : w'.gRequestSector = w.gRequestSector
  pickupseek : w'.pickupseek = w.pickupseek
  researchCnt : w'.researchCnt = w.researchCnt
  chunk : w'.cdChunkBuf = w.cdChunkBuf
  length : w'.sCDDIBuffer.lLength = w.sCDDIBuffer.lLength
  readPtr : w'.sCDDIBuffer.lReadPtr = w.sCDDIBuffer.lReadPtr
  /-- The CDIF is turned off, never on. -/
  cdif : w'.cdifEnable = true → w.cdifEnable = true
  /-- With the CDIF off nothing is delivered. -/
  ring : w.cdifEnable = false → w'.sCDDIBuffer = w.sCDDIBuffer
  error : w.cdifEnable = false → w'.gCDErrorStatus = w.gCDErrorStatus
  /-- The only error reported is a full buffer. -/
  errorCases : w'.gCDErrorStatus = w.gCDErrorStatus ∨
    w'.gCDErrorStatus = .bufFull ∧ w'.cdifEnable = false
  notes : Grows w w'
  now : w.now ≤ w'.now

theorem Frame.refl (w : World) : Frame w w where
  bufStatus := rfl
  lastSector := rfl
  requestSector := rfl
  pickupseek := rfl
  researchCnt := rfl
  chunk := rfl
  length := rfl
  readPtr := rfl
  cdif := id
  ring := fun _ => rfl
  error := fun _ => rfl
  errorCases := .inl rfl
  notes := Adds.refl w
  now := le_rfl

/-- The CDIF stays off. -/
theorem Frame.cdif_off {w w' : World} (h : Frame w w') (hoff : w.cdifEnable = false) :
    w'.cdifEnable = false := by
  rcases hon : w'.cdifEnable with - | -
  · rfl
  · exact absurd (h.cdif hon) (by rw [hoff]; decide)

/-- No turn reports a shock. -/
theorem Frame.noShock {w w' : World} (h : Frame w w') (hw : w.gCDErrorStatus ≠ .shock) :
    w'.gCDErrorStatus ≠ .shock := by
  rcases h.errorCases with hsame | ⟨hfull, -⟩
  · rw [hsame]; exact hw
  · rw [hfull]; decide

theorem Frame.trans {a b c : World} (h : Frame a b) (h' : Frame b c) : Frame a c where
  bufStatus := h'.bufStatus.trans h.bufStatus
  lastSector := h'.lastSector.trans h.lastSector
  requestSector := h'.requestSector.trans h.requestSector
  pickupseek := h'.pickupseek.trans h.pickupseek
  researchCnt := h'.researchCnt.trans h.researchCnt
  chunk := h'.chunk.trans h.chunk
  length := h'.length.trans h.length
  readPtr := h'.readPtr.trans h.readPtr
  cdif := fun hc => h.cdif (h'.cdif hc)
  ring := fun hoff => (h'.ring (h.cdif_off hoff)).trans (h.ring hoff)
  error := fun hoff => (h'.error (h.cdif_off hoff)).trans (h.error hoff)
  errorCases := by
    rcases h'.errorCases with hsame | hfull
    · rcases h.errorCases with hsame' | ⟨hfull, hoff⟩
      · exact .inl (hsame.trans hsame')
      · exact .inr ⟨hsame.trans hfull, h'.cdif_off hoff⟩
    · exact .inr hfull
  notes := h.notes.trans h'.notes
  now := h.now.trans h'.now

/-- `w'` follows `w` by something that happens outside the thread: the
seek that is under way is unchanged too. -/
structure Outside (w w' : World) : Prop extends Frame w w' where
  dmaNotes : ∀ n ∈ w'.notes, n ∈ w.notes ∨ ∃ space, n = .dma space
  seeks : w'.seeks = w.seeks
  seekMsf : w'.seekMsf = w.seekMsf
  seekAt : w'.seekAt = w.seekAt
  waiting : w'.waiting = w.waiting

theorem Outside.refl (w : World) : Outside w w :=
  { Frame.refl w with
    dmaNotes := fun _ hn => .inl hn
    seeks := rfl
    seekMsf := rfl
    seekAt := rfl
    waiting := rfl }

theorem Outside.trans {a b c : World} (h : Outside a b) (h' : Outside b c) : Outside a c :=
  { h.toFrame.trans h'.toFrame with
    dmaNotes := fun n hn => (h'.dmaNotes n hn).elim (h.dmaNotes n) .inr
    seeks := h'.seeks.trans h.seeks
    seekMsf := h'.seekMsf.trans h.seekMsf
    seekAt := h'.seekAt.trans h.seekAt
    waiting := h'.waiting.trans h.waiting }

/-! ### The events -/

theorem outside_tick (w : World) : Outside w w.tick :=
  { Outside.refl w with now := Nat.le_succ _ }

/-- The interrupt, with its bookkeeping. -/
theorem outside_dma (block : Nat → UInt8) {w : World} (hon : w.cdifEnable = true) (n : Nat)
    (space : Int) : Outside w { cdifAdmaHandler block w with
      dmaSince := n, notes := .dma space :: w.notes } := by
  have hdma : ∀ m ∈ Note.dma space :: w.notes, m ∈ w.notes ∨ ∃ space, m = .dma space := by
    intro m hm
    rcases List.mem_cons.mp hm with rfl | hm
    · exact .inr ⟨space, rfl⟩
    · exact .inl hm
  -- the clauses for a CDIF that is off say nothing here
  have hnoff : w.cdifEnable = false → False := fun hoff => by rw [hoff] at hon; simp at hon
  by_cases hL : w.sCDDIBuffer.lLength = 0
  · rw [cdifAdmaHandler_unset block hL]
    exact { Outside.refl w with
      ring := fun hoff => (hnoff hoff).elim
      notes := Adds.cons rfl trivial
      dmaNotes := hdma }
  · rcases cdifAdmaHandler_cases block hL with ⟨heq, -⟩ | ⟨heq, -⟩
    · rw [heq]
      exact { Outside.refl w with
        ring := fun hoff => (hnoff hoff).elim
        notes := Adds.cons rfl trivial
        dmaNotes := hdma }
    · rw [heq]
      exact { Outside.refl w with
        cdif := fun _ => hon
        ring := fun hoff => (hnoff hoff).elim
        error := fun hoff => (hnoff hoff).elim
        errorCases := .inr ⟨rfl, rfl⟩
        notes := Adds.cons rfl trivial
        dmaNotes := hdma }

/-- The socket. -/
theorem outside_nlRecvMsg (m : NlMsg) (w : World) : Outside w (nlRecvMsg m w) := by
  by_cases hU : m.nlmsgData 0 = charU
  · rw [nlRecvMsg_eject w hU]
    exact { Outside.refl w with }
  · by_cases hS : m.nlmsgData 0 = charS
    · rw [nlRecvMsg_seek w hS]
      exact { Outside.refl w with }
    · rw [nlRecvMsg_toc w hU hS]
      exact { Outside.refl w with }

theorem outside_tcrReadTochdr (w : World) : Outside w (tcrReadTochdr w) := by
  obtain ⟨_, _, hw, -⟩ := tcrReadTochdr_writes w
  rw [hw]
  exact { Outside.refl w with }

/-- **Every event stays outside the thread.** -/
theorem outside_occur (w : World) (e : Event) : Outside w (occur w e) := by
  cases e with
  | dma block =>
    by_cases hon : w.cdifEnable = true
    · rw [occur, if_pos hon]
      exact outside_dma block hon _ _
    · rw [occur, if_neg hon]
      exact Outside.refl w
  | msg m =>
    by_cases hS : m.nlmsgData 0 = charS
    · rw [occur, if_pos hS]
      exact (outside_nlRecvMsg m w).trans { Outside.refl (nlRecvMsg m w) with }
    · rw [occur, if_neg hS]
      exact outside_nlRecvMsg m w
  | mount => exact outside_tcrReadTochdr w

theorem outside_handle (w : World) (e : Event) : Outside w (handle w e) :=
  (outside_occur w e).trans (outside_tick _)

/-! ### The ring under events -/

/-- What an event does to the ring and its status: either nothing, or it
is a block that the interrupt appends. -/
theorem handle_ring_cases {w : World} (hring : RingOk w.sCDDIBuffer) (e : Event) :
    ((handle w e).sCDDIBuffer = w.sCDDIBuffer ∧ (handle w e).cdifEnable = w.cdifEnable ∧
      (handle w e).gCDErrorStatus = w.gCDErrorStatus ∧ (handle w e).notes = w.notes) ∨
    ∃ block, e = .dma block ∧ w.cdifEnable = true ∧
      (handle w e).sCDDIBuffer = appendBlock block w.now w.sCDDIBuffer ∧
      (handle w e).notes = .dma (singleBufferSpaceAvailable w.sCDDIBuffer) :: w.notes ∧
      ((handle w e).cdifEnable = true ∧ (handle w e).gCDErrorStatus = w.gCDErrorStatus ∧
          (w.datacdEnable = true →
            2048 < singleBufferSpaceAvailable (handle w e).sCDDIBuffer) ∨
        (handle w e).cdifEnable = false ∧ (handle w e).gCDErrorStatus = .bufFull ∧
          singleBufferSpaceAvailable (handle w e).sCDDIBuffer ≤ 2048) := by
  cases e with
  | dma block =>
    by_cases hon : w.cdifEnable = true
    · refine .inr ⟨block, rfl, hon, ?_⟩
      rw [handle, occur, if_pos hon]
      -- room for another block, or the CDIF goes off
      rcases cdifAdmaHandler_cases block hring.ne_zero with ⟨heq, hroom⟩ | ⟨heq, hfull⟩
      · rw [heq]
        exact ⟨rfl, rfl, .inl ⟨hon, rfl, hroom⟩⟩
      · rw [heq]
        exact ⟨rfl, rfl, .inr ⟨rfl, rfl, hfull⟩⟩
    · rw [handle, occur, if_neg hon]
      exact .inl ⟨rfl, rfl, rfl, rfl⟩
  | msg m =>
    have hsame := sameRing_nlRecvMsg w m
    refine .inl ?_
    by_cases hS : m.nlmsgData 0 = charS
    · rw [handle, occur, if_pos hS]
      exact ⟨hsame.ring, hsame.cdif, hsame.error, hsame.notes⟩
    · rw [handle, occur, if_neg hS]
      exact ⟨hsame.ring, hsame.cdif, hsame.error, hsame.notes⟩
  | mount =>
    have hsame := sameRing_tcrReadTochdr w
    exact .inl ⟨hsame.ring, hsame.cdif, hsame.error, hsame.notes⟩

theorem ringOk_handle (w : World) (e : Event) (h : RingOk w.sCDDIBuffer) :
    RingOk (handle w e).sCDDIBuffer := by
  rcases handle_ring_cases h e with ⟨heq, -⟩ | ⟨block, -, -, heq, -⟩
  · rw [heq]; exact h
  · rw [heq]; exact h.appendBlock block w.now

/-! ### Turns -/

variable (env : Env)

theorem outside_yield (w : World) : Outside w (yield env w) :=
  (foldl_rel Outside.refl Outside.trans outside_handle (env w).events w).trans (outside_tick _)

@[simp] theorem yield_gCDBufStatus (w : World) :
    (yield env w).gCDBufStatus = w.gCDBufStatus := (outside_yield env w).bufStatus

@[simp] theorem yield_gLastSector (w : World) :
    (yield env w).gLastSector = w.gLastSector := (outside_yield env w).lastSector

@[simp] theorem yield_gRequestSector (w : World) :
    (yield env w).gRequestSector = w.gRequestSector := (outside_yield env w).requestSector

@[simp] theorem yield_pickupseek (w : World) :
    (yield env w).pickupseek = w.pickupseek := (outside_yield env w).pickupseek

@[simp] theorem yield_researchCnt (w : World) :
    (yield env w).researchCnt = w.researchCnt := (outside_yield env w).researchCnt

@[simp] theorem yield_cdChunkBuf (w : World) :
    (yield env w).cdChunkBuf = w.cdChunkBuf := (outside_yield env w).chunk

@[simp] theorem yield_seeks (w : World) : (yield env w).seeks = w.seeks :=
  (outside_yield env w).seeks

@[simp] theorem yield_waiting (w : World) : (yield env w).waiting = w.waiting :=
  (outside_yield env w).waiting

@[simp] theorem yield_lReadPtr (w : World) :
    (yield env w).sCDDIBuffer.lReadPtr = w.sCDDIBuffer.lReadPtr := (outside_yield env w).readPtr

/-- The environment keeps to `ok` whatever state it meets. -/
def Env.Obeys (env : Env) (ok : World → Event → Prop) : Prop :=
  ∀ w, Allowed handle ok w (env w).events

variable {env}

/-- What every allowed event preserves, a turn preserves. -/
theorem Env.Obeys.yield {ok : World → Event → Prop} {P : World → Prop} (h : env.Obeys ok)
    (hstep : ∀ w e, ok w e → P w → P (handle w e))
    (htick : ∀ w, P w → P w.tick) {w : World} (hw : P w) :
    P (CdPlayer.yield env w) :=
  htick _ ((h w).inv hstep hw)

/-- What every event preserves, a turn preserves. -/
theorem yield_inv {P : World → Prop} (hstep : ∀ w e, P w → P (handle w e))
    (htick : ∀ w, P w → P w.tick) (w : World) (hw : P w) :
    P (yield env w) :=
  htick _ (foldl_inv hstep _ hw)

theorem ringOk_yield (env : Env) {w : World} (h : RingOk w.sCDDIBuffer) :
    RingOk (yield env w).sCDDIBuffer :=
  yield_inv (P := fun u => RingOk u.sCDDIBuffer) ringOk_handle (fun _ hu => hu) w h

end CdPlayer
