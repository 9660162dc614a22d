/-
CdPlayer/Toc.lean

Netlink messages and their buffers (knetlink.c), and the TOC entry read
out of them (cdrom_drv.c).

`nl_recv_msg` tells three kinds of messages apart by their first payload
byte alone.  For `'U'` (eject state) and `'S'` (seek result) that byte is a
tag; for a TOC message it is data, the minute of the first entry.  So a TOC
message is taken for what it is exactly if its first byte is neither of
the two letters (`tocMessage_honoured_iff`).

The handler copies without comparing lengths.  `Writes` says which bytes of
a field a handler can change; a message writes inside `toc_buffer` and
`seek_response` exactly if it is an eject message, or a TOC message whose
length field announces no less than the header and no more than the buffer
and the payload have (`nlRecvMsg_inside_iff`).  Each seek result stores
four bytes into the two of `seek_response`.
-/
import CdPlayer.Eject
import CdPlayer.Lib.LittleEndian

namespace CdPlayer

open LittleEndian

/-! ### Reading the TOC -/

/-- `nl_read_toc_buffer`; `CD_read_TOC` and `read_toc` pass it on. -/
def nlReadTocBuffer (buffer : Nat → UInt8) (size : Nat) (w : World) : Nat → UInt8 :=
  memcpy buffer w.tocBuffer (u32 (4 * size : Nat))

/-- `CD_read_TOC`. -/
def cdReadTOC (buffer : Nat → UInt8) (size : Nat) (w : World) : Nat → UInt8 :=
  nlReadTocBuffer buffer size w

/-- `read_toc`. -/
def readToc (buffer : Nat → UInt8) (size : Nat) (w : World) : Nat → UInt8 :=
  cdReadTOC buffer size w

/-- Word `i` of an array of `unsigned long`. -/
def wordAt (buffer : Nat → UInt8) (i : Nat) : Nat := ofBytes buffer (4 * i) 4

/-- `cdte_addr`, by `cdte_format`. -/
inductive CdromAddr
  | msf (minute second frame : Nat)
  | lba (lba : Int)
  deriving DecidableEq, Repr

/-- What `tcr_read_tocentry` fills in of a `cdrom_tocentry`. -/
structure TocEntry where
  cdteCtrl : Nat
  cdteDatamode : Nat
  cdteAddr : CdromAddr
  deriving DecidableEq, Repr

/-- `tcr_read_tocentry`; `kzalloc` tells whether there is memory for the
buffer, and the error is `-ENOMEM`. -/
def tcrReadTocentry (kzalloc cdromMsf : Bool) (w : World) : Except Int TocEntry :=
  if kzalloc = false then .error (-12)
  else
    let buffer := readToc (fun _ => 0) 3 w
    let m0 := u8 (wordAt buffer 0)
    let m1 := u8 (wordAt buffer 1)
    let m2 := u8 (wordAt buffer 2)
    .ok {
      cdteCtrl := 4
      cdteDatamode := 1
      cdteAddr := if cdromMsf then .msf m0 m1 m2
        else .lba (s32 (((m0 * 256 + m1) * 256 + m2) * 256 : Nat)) }

/-! ### TOC messages -/

/-- A message from `pid` with the payload `ws`; `rest` is what follows it in
memory. -/
def tocMessage (pid : Int) (ws : List UInt32) (rest : Nat → UInt8) : NlMsg where
  nlmsgPid := pid
  nlmsgLen := 16 + 4 * ws.length
  nlmsgData := fun i => if i < 4 * ws.length then array 4 (ws.map UInt32.toNat) i else rest i
  seek := 0

/-- The message bears one of the two letters. -/
def NlMsg.Tagged (m : NlMsg) : Prop := m.nlmsgData 0 = charU ∨ m.nlmsgData 0 = charS

instance (m : NlMsg) : Decidable m.Tagged := inferInstanceAs (Decidable (_ ∨ _))

variable {m : NlMsg} {w : World} {pid : Int} {ws : List UInt32} {rest : Nat → UInt8}

/-- A tagged message leaves the TOC alone. -/
theorem nlRecvMsg_tagged (h : m.Tagged) (w : World) :
    (nlRecvMsg m w).tocBuffer = w.tocBuffer := by
  rcases h with hU | hS
  · rw [nlRecvMsg_eject w hU]
    rfl
  · rw [nlRecvMsg_seek w hS]

theorem recv_tagged {later : List NlMsg} (h : ∀ m ∈ later, m.Tagged) (w : World) :
    (later.foldl (fun w m => nlRecvMsg m w) w).tocBuffer = w.tocBuffer := by
  induction later generalizing w with
  | nil => rfl
  | cons m later ih =>
    rw [List.foldl_cons, ih (fun m' hm' => h m' (List.mem_cons_of_mem _ hm'))]
    exact nlRecvMsg_tagged (h m List.mem_cons_self) w

/-- An untagged message goes to the TOC buffer, and nowhere else. -/
theorem nlRecvMsg_untagged (h : ¬ m.Tagged) (w : World) :
    (nlRecvMsg m w).tocBuffer = memcpy w.tocBuffer m.nlmsgData (u32 (m.nlmsgLen - 16)) ∧
      (nlRecvMsg m w).seekResponse = w.seekResponse ∧
      (nlRecvMsg m w).ejectView = w.ejectView ∧
      (nlRecvMsg m w).cdDevStatus = w.cdDevStatus ∧
      (nlRecvMsg m w).tccCompletion = w.tccCompletion := by
  obtain ⟨hU, hS⟩ := not_or.mp h
  rw [nlRecvMsg_toc w hU hS]
  exact ⟨rfl, rfl, rfl, rfl, rfl⟩

/-- What is stored is read back. -/
theorem wordAt_nlReadTocBuffer (buffer : Nat → UInt8) {size i : Nat} (hsize : size ≤ 4)
    (hi : i < size) (w : World) :
    wordAt (nlReadTocBuffer buffer size w) i = wordAt w.tocBuffer i := by
  apply ofBytes_congr
  intro j hj
  show (if _ < u32 _ then w.tocBuffer _ else buffer _) = _
  rw [u32_natCast (by omega), if_pos (by omega)]

theorem wordAt_tocMessage (h : ¬ (tocMessage pid ws rest).Tagged) (hk : ws.length ≤ 4) (w : World)
    {i : Nat} (hi : i < ws.length) :
    wordAt (nlRecvMsg (tocMessage pid ws rest) w).tocBuffer i = (ws.getD i 0).toNat := by
  have hlen : u32 ((tocMessage pid ws rest).nlmsgLen - 16) = 4 * ws.length := by
    show u32 (((16 + 4 * ws.length : Nat) : Int) - 16) = _
    rw [show ((16 + 4 * ws.length : Nat) : Int) - 16 = ((4 * ws.length : Nat) : Int) by omega]
    exact u32_natCast (by omega)
  have hbytes : wordAt (nlRecvMsg (tocMessage pid ws rest) w).tocBuffer i
      = ofBytes (array 4 (ws.map UInt32.toNat)) (4 * i) 4 := by
    apply ofBytes_congr
    intro j hj
    rw [(nlRecvMsg_untagged h w).1, hlen]
    show (if _ < 4 * ws.length then _ else _) = _
    rw [if_pos (by omega)]
    exact if_pos (by omega)
  have hword : (ws.map UInt32.toNat).getD i 0 = (ws.getD i 0).toNat := by
    rw [List.getD_eq_getElem _ _ (by rw [List.length_map]; exact hi), List.getElem_map,
      List.getD_eq_getElem _ _ hi]
  rw [hbytes, ofBytes_array, hword]
  exact Nat.mod_eq_of_lt (ws.getD i 0).toNat_lt

/-- Any messages, the TOC message, then tagged messages. -/
def received (before : List NlMsg) (pid : Int) (ws : List UInt32) (rest : Nat → UInt8)
    (later : List NlMsg) : World :=
  later.foldl (fun w m => nlRecvMsg m w)
    (nlRecvMsg (tocMessage pid ws rest) (before.foldl (fun w m => nlRecvMsg m w) World.initial))

/-- A TOC message is taken for what it is: after any messages before it,
and until the next TOC message, its words are read back; and the message
neither changes the eject state nor signals the end of a seek. -/
structure TocHonoured (pid : Int) (ws : List UInt32) (rest : Nat → UInt8) : Prop where
  readBack : ∀ before later : List NlMsg, (∀ m ∈ later, m.Tagged) →
    ∀ buffer : Nat → UInt8, ∀ i : Nat, i < ws.length →
      wordAt (nlReadTocBuffer buffer ws.length (received before pid ws rest later)) i
        = (ws.getD i 0).toNat
  ejectKept : ∀ before : List NlMsg,
    let w := before.foldl (fun w m => nlRecvMsg m w) World.initial
    (nlRecvMsg (tocMessage pid ws rest) w).ejectView = w.ejectView ∧
      (nlRecvMsg (tocMessage pid ws rest) w).cdDevStatus = w.cdDevStatus
  noCompletion : ∀ before : List NlMsg,
    let w := before.foldl (fun w m => nlRecvMsg m w) World.initial
    (nlRecvMsg (tocMessage pid ws rest) w).tccCompletion = w.tccCompletion

/-- **A TOC message round-trips exactly if it bears neither letter.** -/
theorem tocMessage_honoured_iff (hk : ws.length ≤ 4) :
    TocHonoured pid ws rest ↔ ¬ (tocMessage pid ws rest).Tagged := by
  constructor
  · intro h htag
    rcases htag with hU | hS
    · -- an eject message: its second byte becomes the state
      have hview := (h.ejectKept []).1
      simp only [List.foldl_nil] at hview
      rw [nlRecvMsg_ejectView, if_pos hU] at hview
      have hstate := congrArg EjectView.stateEject hview
      have hdata := congrArg EjectView.datacdEnable hview
      have hzero : (((tocMessage pid ws rest).nlmsgData 1).toNat : Int) = 0 := hstate
      simp only [EjectView.ofCall, hzero] at hdata
      exact absurd hdata (by decide)
    · -- a seek result: a completion
      have hcount := h.noCompletion []
      simp only [List.foldl_nil] at hcount
      have hanswer : (nlRecvMsg (tocMessage pid ws rest) World.initial).tccCompletion = 1 := by
        rw [nlRecvMsg_seek _ hS]
        rfl
      rw [hanswer] at hcount
      exact absurd hcount (by decide)
  · intro h
    constructor
    · -- the messages that follow leave the buffer alone
      intro before later hlater buffer i hi
      rw [wordAt_nlReadTocBuffer buffer hk hi]
      unfold received
      rw [recv_tagged hlater]
      exact wordAt_tocMessage h hk _ hi
    · intro before w
      exact ⟨(nlRecvMsg_untagged h w).2.2.1, (nlRecvMsg_untagged h w).2.2.2.1⟩
    · intro before w
      exact (nlRecvMsg_untagged h w).2.2.2.2

/-- Minute 2, second 0, frame 0, after whatever has come before. -/
theorem tocMessage_honoured_twoMinutes : TocHonoured 1 [2, 0, 0] (fun _ => 0) :=
  (tocMessage_honoured_iff (by decide)).mpr (by decide)

/-- A minute of 85, or of 55 in BCD, is the letter `'U'`: the words are not
stored, and the disc counts as mounted. -/
theorem tocMessage_taken_for_eject :
    ¬ TocHonoured 1 [0x55, 2, 0] (fun _ => 0) ∧
      (nlRecvMsg (tocMessage 1 [0x55, 2, 0] (fun _ => 0)) World.initial).datacdEnable = true := by
  refine ⟨fun h => ?_, by decide⟩
  have hread := h.readBack [] [] (by simp) (fun _ => 0) 0 (by decide)
  revert hread
  decide

/-- The entry that `tcr_read_tocentry` makes of it, as long as only tagged
messages follow. -/
theorem tcrReadTocentry_received (before : List NlMsg) {later : List NlMsg}
    (hlater : ∀ m ∈ later, m.Tagged) (hk : 3 ≤ ws.length) (hk' : ws.length ≤ 4)
    (h : ¬ (tocMessage pid ws rest).Tagged) :
    tcrReadTocentry true true (received before pid ws rest later)
      = .ok ⟨4, 1, .msf (u8 (ws.getD 0 0).toNat) (u8 (ws.getD 1 0).toNat)
          (u8 (ws.getD 2 0).toNat)⟩ := by
  have hword : ∀ i : Nat, i < 3 →
      wordAt (readToc (fun _ => 0) 3 (received before pid ws rest later)) i
        = (ws.getD i 0).toNat := by
    intro i hi
    have hread := wordAt_nlReadTocBuffer (fun _ => 0) (show 3 ≤ 4 by decide) hi
      (received before pid ws rest later)
    refine hread.trans ?_
    unfold received
    rw [recv_tagged hlater]
    exact wordAt_tocMessage h hk' _ (by omega)
  unfold tcrReadTocentry
  rw [if_neg (by decide)]
  simp only [hword 0 (by decide), hword 1 (by decide), hword 2 (by decide), if_true]

/-! ### What a message writes -/

/-- The handler `f` can change byte `i` of a field. -/
def Writes (f : World → World) (field : World → Nat → UInt8) (i : Nat) : Prop :=
  ∃ w, field (f w) i ≠ field w i

/-- Nothing outside the four words of `toc_buffer`, nothing behind the
`payload` bytes that came with the message, and nothing outside the two
bytes of `seek_response`. -/
structure WritesInside (m : NlMsg) (payload : Nat) : Prop where
  toc : ∀ i, Writes (nlRecvMsg m) World.tocBuffer i → i < 16 ∧ i < payload
  seek : ∀ i, Writes (nlRecvMsg m) World.seekResponse i → i < 2

/-- A byte other than `b`. -/
def otherByte (b : UInt8) : UInt8 := if b = 0 then 1 else 0

theorem otherByte_ne (b : UInt8) : b ≠ otherByte b := by
  unfold otherByte
  by_cases h : b = 0
  · rw [if_pos h, h]
    decide
  · rw [if_neg h]
    exact h

/-- An untagged message can change just the bytes its length field announces. -/
theorem writes_tocBuffer (h : ¬ m.Tagged) (i : Nat) :
    Writes (nlRecvMsg m) World.tocBuffer i ↔ i < u32 (m.nlmsgLen - 16) := by
  constructor
  · rintro ⟨w, hw⟩
    by_contra hi
    apply hw
    rw [(nlRecvMsg_untagged h w).1]
    exact if_neg hi
  · intro hi
    refine ⟨{ World.boot with tocBuffer := fun _ => otherByte (m.nlmsgData i) }, ?_⟩
    rw [(nlRecvMsg_untagged h _).1]
    show (if i < u32 (m.nlmsgLen - 16) then m.nlmsgData i else _) ≠ _
    rw [if_pos hi]
    exact otherByte_ne _

theorem nlRecvMsg_no_seekResponse (h : m.nlmsgData 0 ≠ charS) (i : Nat) :
    ¬ Writes (nlRecvMsg m) World.seekResponse i := by
  rintro ⟨w, hw⟩
  apply hw
  by_cases hU : m.nlmsgData 0 = charU
  · rw [nlRecvMsg_eject w hU]
    rfl
  · rw [nlRecvMsg_toc w hU h]

/-- A seek result stores the third byte of `seek_response`, which it does
not have. -/
theorem seekResult_overruns (h : m.nlmsgData 0 = charS) :
    Writes (nlRecvMsg m) World.seekResponse 2 := by
  have hstored : ∀ w : World, (nlRecvMsg m w).seekResponse
      = strncpy w.seekResponse (memcpy w.seekResult m.nlmsgData 2) 4 := by
    intro w
    rw [nlRecvMsg_seek w h]
  -- what is behind `seek_result` is stored, or a zero
  refine ⟨{ World.boot with seekResponse := fun _ => 1 }, ?_⟩
  rw [hstored]
  show (if 2 < 4 then if _ then (0 : UInt8) else _ else _) ≠ 1
  rw [if_pos (by decide)]
  split
  · decide
  · show (0 : UInt8) ≠ 1
    decide

/-- **When no message writes outside.** -/
theorem nlRecvMsg_inside_iff (hlen : m.nlmsgLen < 4294967296) (payload : Nat) :
    WritesInside m payload ↔
      m.nlmsgData 0 = charU ∨
      m.nlmsgData 0 ≠ charS ∧ 16 ≤ m.nlmsgLen ∧ m.nlmsgLen ≤ 32 ∧
        m.nlmsgLen ≤ 16 + payload := by
  have hcount : u32 (m.nlmsgLen - 16) = if 16 ≤ m.nlmsgLen then m.nlmsgLen - 16
      else m.nlmsgLen + 4294967280 := by
    unfold u32
    split <;> omega
  constructor
  · intro h
    by_cases hU : m.nlmsgData 0 = charU
    · exact .inl hU
    · have hS : m.nlmsgData 0 ≠ charS := fun hS =>
        absurd (h.seek 2 (seekResult_overruns hS)) (by decide)
      have hno : ¬ m.Tagged := not_or.mpr ⟨hU, hS⟩
      have htoc : ∀ i, i < u32 (m.nlmsgLen - 16) → i < 16 ∧ i < payload :=
        fun i hi => h.toc i ((writes_tocBuffer hno i).mpr hi)
      rw [hcount] at htoc
      refine .inr ⟨hS, ?_⟩
      by_cases hhead : 16 ≤ m.nlmsgLen
      · rw [if_pos hhead] at htoc
        by_cases hempty : m.nlmsgLen = 16
        · omega
        · -- the last byte copied is inside, hence all of them
          have hlast := htoc (m.nlmsgLen - 17) (by omega)
          omega
      · -- the subtraction wraps around
        rw [if_neg hhead] at htoc
        exact absurd (htoc 16 (by omega)).1 (by decide)
  · rintro (hU | ⟨hS, hhead, hwords, hpayload⟩)
    · -- an eject message stores nothing in the two arrays
      have hS : m.nlmsgData 0 ≠ charS := by
        rw [hU]
        decide
      constructor
      · rintro i ⟨w, hw⟩
        exact absurd (congrFun (nlRecvMsg_tagged (.inl hU) w) i) hw
      · intro i hi
        exact absurd hi (nlRecvMsg_no_seekResponse hS i)
    · constructor
      · intro i hi
        by_cases hU : m.nlmsgData 0 = charU
        · obtain ⟨w, hw⟩ := hi
          exact absurd (congrFun (nlRecvMsg_tagged (.inl hU) w) i) hw
        · have hlt := (writes_tocBuffer (not_or.mpr ⟨hU, hS⟩) i).mp hi
          rw [hcount, if_pos hhead] at hlt
          omega
      · intro i hi
        exact absurd hi (nlRecvMsg_no_seekResponse hS i)

/-- A TOC message of three words. -/
theorem nlRecvMsg_inside_toc : WritesInside (tocMessage 1 [2, 0, 0] (fun _ => 0)) 12 :=
  (nlRecvMsg_inside_iff (by decide) 12).mpr (.inr (by decide))

/-- Five words, a length below the header, a seek result. -/
theorem nlRecvMsg_overruns :
    ¬ WritesInside (tocMessage 1 [2, 0, 0, 0, 0] (fun _ => 0)) 20 ∧
    ¬ WritesInside ⟨1, 15, fun _ => 0, 0⟩ 0 ∧
    ¬ WritesInside ⟨1, 18, fun i => if i = 0 then charS else 1, 0⟩ 2 := by
  refine ⟨fun h => ?_, fun h => ?_, fun h => ?_⟩
  · exact absurd (h.toc 16 ((writes_tocBuffer (by decide) 16).mpr (by decide))).1 (by decide)
  · exact absurd (h.toc 16 ((writes_tocBuffer (by decide) 16).mpr (by decide))).1 (by decide)
  · exact absurd (h.seek 2 (seekResult_overruns rfl)) (by decide)

end CdPlayer
