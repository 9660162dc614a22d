/-
CdPlayer/Hidden.lean

The hidden areas of the card (hidden_mmc.c): `get_size`,
`MMC_GetHiddenBase`, `MMC_Hidden_Info`, `MMC_ReadHidden` and
`MMC_WriteHidden`.

The functions take two things that they have to give back: they raise the
address limit, so that the kernel's file functions accept kernel buffers,
and they open a file.  The file functions are a parameter, `Vfs`: what they
return is up to them.  `Kernel` holds the address limit and a log of the
calls made, newest first; the code never looks at the log.

A transfer that fails is tried five times more.  `attempt` is the transfer
with its retries, shared by the two accessors.

`get_size` gives back what it takes on every path (`getSize_restores`).
`MMC_ReadHidden` closes an error pointer if the card cannot be opened, and
`MMC_WriteHidden` in addition keeps the file and the raised limit when its
last retry fails (`mmcReadHidden_restores_iff`,
`mmcWriteHidden_restores_iff`).
-/
import CdPlayer.Basic
import Mathlib.Data.List.Count

namespace CdPlayer

/-! ### The kernel's file functions -/

/-- Conversion to `loff_t`. -/
def s64 (x : Int) : Int :=
  (x + 9223372036854775808) % 18446744073709551616 - 9223372036854775808

theorem s64_of_lt {x : Int} (h₀ : -9223372036854775808 ≤ x) (h : x < 9223372036854775808) :
    s64 x = x := by
  unfold s64; omega

/-- The files used: `SIZE_PATH` and `MMC_PATH`. -/
inductive Path
  | size
  | mmc
  deriving DecidableEq, Repr

/-- A `struct file *`: an open file or an error pointer. -/
inductive Filp
  | file (path : Path) (id : Nat)
  | err (errno : Int)
  deriving DecidableEq, Repr

/-- `IS_ERR`. -/
def Filp.isErr : Filp → Bool
  | .file _ _ => false
  | .err _ => true

/-- `PTR_ERR`. -/
def Filp.ptrErr : Filp → Int
  | .file _ _ => 0
  | .err errno => errno

/-- What `vfs_read` and `vfs_write` return, and leave in the buffer and in
the position. -/
structure Transfer where
  ret : Int
  buf : Nat → UInt8
  pos : Int

/-- The file functions; `σ` is the state behind them. -/
structure Vfs (σ : Type) where
  filpOpen : Path → σ → Filp × σ
  vfsRead : Filp → (buf : Nat → UInt8) → (len : Nat) → (pos : Int) → σ → Transfer × σ
  vfsWrite : Filp → (buf : Nat → UInt8) → (len : Nat) → (pos : Int) → σ → Transfer × σ
  /-- The number in the buffer, if it is one. -/
  strictStrtoull : (Nat → UInt8) → Option Nat
  /-- A path is opened as a file of that path. -/
  opened : ∀ p s p' id, (filpOpen p s).1 = .file p' id → p' = p

/-- A call of a file function. -/
inductive FileCall
  | opened (filp : Filp)
  | closed (filp : Filp)
  | moved (filp : Filp) (pos : Int) (len : Nat) (ret : Int)
  deriving DecidableEq

/-- The address limit, the calls made, and what is behind the file functions. -/
structure Kernel (σ : Type) where
  addrLimit : Nat
  calls : List FileCall
  vfs : σ

/-- `get_ds()`. -/
def kernelDs : Nat := 0

variable {σ : Type} (V : Vfs σ)

/-- `set_fs`. -/
def setFs (limit : Nat) (k : Kernel σ) : Kernel σ := { k with addrLimit := limit }

/-- `filp_open`. -/
def filpOpen (p : Path) (k : Kernel σ) : Filp × Kernel σ :=
  let (filp, s) := V.filpOpen p k.vfs
  (filp, { k with calls := .opened filp :: k.calls, vfs := s })

/-- `filp_close`. -/
def filpClose (filp : Filp) (k : Kernel σ) : Kernel σ :=
  { k with calls := .closed filp :: k.calls }

/-- The locals of a transfer loop. -/
structure Io (σ : Type) where
  ret : Int
  buf : Nat → UInt8
  pos : Int
  kernel : Kernel σ

/-- `ret = vfs_read(filp, buf, len, &pos)`. -/
def readOnce (filp : Filp) (len : Nat) (io : Io σ) : Io σ :=
  let (t, s) := V.vfsRead filp io.buf len io.pos io.kernel.vfs
  ⟨s32 t.ret, t.buf, t.pos,
    { io.kernel with calls := .moved filp io.pos len (s32 t.ret) :: io.kernel.calls, vfs := s }⟩

/-- `ret = vfs_write(filp, buf, len, &pos)`. -/
def writeOnce (filp : Filp) (len : Nat) (io : Io σ) : Io σ :=
  let (t, s) := V.vfsWrite filp io.buf len io.pos io.kernel.vfs
  ⟨s32 t.ret, t.buf, t.pos,
    { io.kernel with calls := .moved filp io.pos len (s32 t.ret) :: io.kernel.calls, vfs := s }⟩

/-- `for(retry = 0; retry < n; retry++)`, left as soon as data has moved. -/
def retryLoop (once : Io σ → Io σ) : (n : Nat) → Io σ → Io σ
  | 0, io => io
  | n + 1, io =>
    let io := once io
    if io.ret > 0 then io else retryLoop once n io

/-- A transfer, and up to five more if it fails. -/
def attempt (once : Io σ → Io σ) (io : Io σ) : Io σ :=
  let io := once io
  if io.ret < 0 then retryLoop once 5 io else io

/-! ### The functions -/

/-- `get_size`. -/
def getSize (k : Kernel σ) : Int × Kernel σ :=
  let oldfs := k.addrLimit
  let (filp, k) := filpOpen V .size (setFs kernelDs k)
  if filp.isErr then (filp.ptrErr, setFs oldfs k)
  else
    let io := readOnce V filp 8 ⟨0, fun _ => 0, 0, k⟩
    if io.ret < 0 then (-1, setFs oldfs (filpClose filp io.kernel))
    else
      (s64 ((V.strictStrtoull io.buf).getD 0 : Nat), setFs oldfs (filpClose filp io.kernel))

/-- `MMC_GetHiddenBase`: `MMC_BOOT_PAGESIZE` is one sector. -/
def mmcGetHiddenBase (k : Kernel σ) : Int × Kernel σ :=
  let (ulCardSize, k) := getSize V k
  (ulCardSize - 1, k)

/-- `MMC_HIDDEN_MAX_COUNT`. -/
abbrev mmcHiddenMaxCount : Nat := 10

/-- `MMC_HIDDEN0_PAGESIZE` to `MMC_HIDDEN9_PAGESIZE`, in sectors. -/
def mmcHiddenPagesize : List Int :=
  [8 * 1024 * 1024 / 512, 800 * 1024 * 1024 / 512, 0, 0, 0, 0, 0, 0, 0, 0]

/-- `SectorSize`. -/
def sectorSize (idx : Nat) : Int := mmcHiddenPagesize.getD idx 0

/-- `HiddenStart`, as the loop of `MMC_Hidden_Info` fills it in. -/
def hiddenStart (ulHiddenBase : Int) : (idx : Nat) → Int
  | 0 => ulHiddenBase - sectorSize 0
  | idx + 1 => hiddenStart ulHiddenBase idx - sectorSize (idx + 1)

/-- `sHidden_Size_T`. -/
structure HiddenSize where
  sectorSize : Nat → Int
  hiddenStart : Nat → Int

/-- `MMC_Hidden_Info`. -/
def mmcHiddenInfo (k : Kernel σ) : HiddenSize × Kernel σ :=
  let (ulHiddenBase, k) := mmcGetHiddenBase V k
  (⟨sectorSize, hiddenStart ulHiddenBase⟩, k)

/-- `MMC_ReadHidden`, with the buffer it leaves. -/
def mmcReadHidden (buf : Nat → UInt8) (len offset : Nat) (idx : Fin mmcHiddenMaxCount)
    (k : Kernel σ) : Int × (Nat → UInt8) × Kernel σ :=
  let (stHidden, k) := mmcHiddenInfo V k
  let limitedSize := s64 (stHidden.sectorSize idx * 512)
  if (offset : Int) < limitedSize then
    let start := s64 ((stHidden.hiddenStart idx + offset) * 512)
    let oldfs := k.addrLimit
    let (filp, k) := filpOpen V .mmc (setFs kernelDs k)
    if filp.isErr then (filp.ptrErr, buf, setFs oldfs (filpClose filp k))
    else
      let io := attempt (readOnce V filp len) ⟨0, buf, start, k⟩
      if io.ret < 0 then (-1, io.buf, setFs oldfs (filpClose filp io.kernel))
      else (0, io.buf, setFs oldfs (filpClose filp io.kernel))
  else (-1, buf, k)

/-- `MMC_WriteHidden`. -/
def mmcWriteHidden (buf : Nat → UInt8) (len offset : Nat) (idx : Fin mmcHiddenMaxCount)
    (k : Kernel σ) : Int × Kernel σ :=
  let (stHidden, k) := mmcHiddenInfo V k
  let limitedSize := s64 (stHidden.sectorSize idx * 512)
  if (offset : Int) < limitedSize then
    let start := s64 (s64 (stHidden.hiddenStart idx * 512) + offset)
    let oldfs := k.addrLimit
    let (filp, k) := filpOpen V .mmc (setFs kernelDs k)
    if filp.isErr then (filp.ptrErr, setFs oldfs (filpClose filp k))
    else
      let io := attempt (writeOnce V filp len) ⟨0, buf, start, k⟩
      -- the file stays open, and the limit raised
      if io.ret < 0 then (-1, io.kernel)
      else (0, setFs oldfs (filpClose filp io.kernel))
  else (-1, k)

/-! ### Giving back -/

/-- From `k` to `k'` the calls `l` were made; the address limit is what it
was, each file opened is closed once, and no error pointer is closed. -/
structure Restores (k k' : Kernel σ) (l : List FileCall) : Prop where
  calls : k'.calls = l ++ k.calls
  limit : k'.addrLimit = k.addrLimit
  closedOnce : ∀ p id, l.count (.closed (.file p id)) = l.count (.opened (.file p id))
  noErr : ∀ errno, FileCall.closed (.err errno) ∉ l

/-- An accessor gives back what it takes, and reports success only after a
transfer to or from the card that did not fail. -/
def GivesBack (result : Int) (k k' : Kernel σ) : Prop :=
  ∃ l, Restores k k' l ∧ (result = 0 → ∃ id pos len ret,
    FileCall.moved (.file .mmc id) pos len ret ∈ l ∧ 0 ≤ ret)

variable {V} {k k' k'' : Kernel σ} {l l' : List FileCall} {filp : Filp} {once : Io σ → Io σ}

theorem Restores.trans (h : Restores k k' l) (h' : Restores k' k'' l') :
    Restores k k'' (l' ++ l) where
  calls := by rw [h'.calls, h.calls, List.append_assoc]
  limit := h'.limit.trans h.limit
  closedOnce := by
    intro p id
    rw [List.count_append, List.count_append, h.closedOnce, h'.closedOnce]
  noErr := by
    intro errno hmem
    rcases List.mem_append.mp hmem with hmem | hmem
    · exact h'.noErr errno hmem
    · exact h.noErr errno hmem

/-- Transfers of one file. -/
def Moves (filp : Filp) (l : List FileCall) : Prop :=
  ∀ c ∈ l, ∃ pos len ret, c = .moved filp pos len ret

theorem Moves.count_opened (h : Moves filp l) (f : Filp) : l.count (.opened f) = 0 := by
  apply List.count_eq_zero.mpr
  intro hmem
  obtain ⟨pos, len, ret, hc⟩ := h _ hmem
  cases hc

theorem Moves.count_closed (h : Moves filp l) (f : Filp) : l.count (.closed f) = 0 := by
  apply List.count_eq_zero.mpr
  intro hmem
  obtain ⟨pos, len, ret, hc⟩ := h _ hmem
  cases hc

/-- The file is opened under a raised limit, used and closed, and the limit
put back. -/
theorem restores_bracket {p : Path} {id : Nat} (h : Moves (.file p id) l) {limit : Nat}
    (hcalls : k'.calls = l ++ .opened (.file p id) :: k.calls) (hlimit : limit = k.addrLimit) :
    Restores k (setFs limit (filpClose (.file p id) k'))
      (.closed (.file p id) :: (l ++ [.opened (.file p id)])) where
  calls := by
    show FileCall.closed _ :: k'.calls = _
    rw [hcalls]
    simp
  limit := hlimit
  closedOnce := by
    intro p' id'
    simp only [List.count_cons, List.count_append, h.count_closed, h.count_opened, List.count_nil]
    by_cases hsame : Filp.file p id = .file p' id'
    · rw [hsame]
      simp
    · -- another file is neither opened nor closed here
      simp [hsame]
  noErr := by
    intro errno hmem
    rcases List.mem_cons.mp hmem with heq | hmem
    · cases heq
    · rcases List.mem_append.mp hmem with hmem | hmem
      · obtain ⟨pos, len, ret, hc⟩ := h _ hmem
        cases hc
      · rw [List.mem_singleton] at hmem
        cases hmem

/-! ### Transfers and retries -/

/-- `once` makes one transfer of `len` bytes of the file, at the position. -/
structure Transfers (filp : Filp) (len : Nat) (once : Io σ → Io σ) : Prop where
  calls : ∀ io, (once io).kernel.calls = .moved filp io.pos len (once io).ret :: io.kernel.calls
  limit : ∀ io, (once io).kernel.addrLimit = io.kernel.addrLimit

theorem transfers_readOnce (V : Vfs σ) (filp : Filp) (len : Nat) :
    Transfers filp len (readOnce V filp len) := ⟨fun _ => rfl, fun _ => rfl⟩

theorem transfers_writeOnce (V : Vfs σ) (filp : Filp) (len : Nat) :
    Transfers filp len (writeOnce V filp len) := ⟨fun _ => rfl, fun _ => rfl⟩

/-- Between `io` and `io'` at least one transfer is made.  All are transfers
of `len` bytes of the file; the first one is at the position of `io`, and
so are all others if transfers without success leave the position; and the
last one's result is the result. -/
structure Transferred (filp : Filp) (len : Nat) (once : Io σ → Io σ) (io io' : Io σ)
    (l : List FileCall) : Prop where
  calls : io'.kernel.calls = l ++ io.kernel.calls
  limit : io'.kernel.addrLimit = io.kernel.addrLimit
  moves : Moves filp l
  first : ∃ ret, FileCall.moved filp io.pos len ret ∈ l
  stays : (∀ io, (once io).ret ≤ 0 → (once io).pos = io.pos) →
    ∀ c ∈ l, ∃ ret, c = .moved filp io.pos len ret
  last : ∃ pos, FileCall.moved filp pos len io'.ret ∈ l

variable {len : Nat} {io io' : Io σ}

theorem Transfers.one (h : Transfers filp len once) (io : Io σ) :
    Transferred filp len once io (once io) [.moved filp io.pos len (once io).ret] where
  calls := h.calls io
  limit := h.limit io
  moves := fun _ hc => ⟨_, _, _, List.mem_singleton.mp hc⟩
  first := ⟨_, List.mem_singleton.mpr rfl⟩
  stays := fun _ _ hc => ⟨_, List.mem_singleton.mp hc⟩
  last := ⟨_, List.mem_singleton.mpr rfl⟩

/-- A transfer without success, and more. -/
theorem Transfers.more (h : Transfers filp len once) (hret : (once io).ret ≤ 0)
    (hmore : Transferred filp len once (once io) io' l) :
    Transferred filp len once io io' (l ++ [.moved filp io.pos len (once io).ret]) where
  calls := by rw [hmore.calls, h.calls, List.append_assoc]; rfl
  limit := hmore.limit.trans (h.limit io)
  moves := by
    intro c hc
    rcases List.mem_append.mp hc with hc | hc
    · exact hmore.moves c hc
    · exact (h.one io).moves c hc
  first := ⟨_, List.mem_append_right _ (List.mem_singleton.mpr rfl)⟩
  stays := by
    intro hstay c hc
    rcases List.mem_append.mp hc with hc | hc
    · -- the first transfer left the position where the others start
      rw [← hstay io hret]
      exact hmore.stays hstay c hc
    · exact ⟨_, List.mem_singleton.mp hc⟩
  last := by
    obtain ⟨pos, hmem⟩ := hmore.last
    exact ⟨pos, List.mem_append_left _ hmem⟩

theorem Transfers.retryLoop (h : Transfers filp len once) (n : Nat) (io : Io σ) :
    ∃ l, Transferred filp len once io (retryLoop once (n + 1) io) l := by
  induction n generalizing io with
  | zero =>
    unfold CdPlayer.retryLoop CdPlayer.retryLoop
    rw [ite_self]
    exact ⟨_, h.one io⟩
  | succ n ih =>
    unfold CdPlayer.retryLoop
    simp only
    by_cases hdone : (once io).ret > 0
    · rw [if_pos hdone]
      exact ⟨_, h.one io⟩
    · rw [if_neg hdone]
      obtain ⟨l, hl⟩ := ih (once io)
      exact ⟨_, h.more (not_lt.mp hdone) hl⟩

theorem Transfers.attempt (h : Transfers filp len once) (io : Io σ) :
    ∃ l, Transferred filp len once io (attempt once io) l := by
  unfold CdPlayer.attempt
  simp only
  by_cases hfail : (once io).ret < 0
  · rw [if_pos hfail]
    obtain ⟨l, hl⟩ := h.retryLoop 4 (once io)
    exact ⟨_, h.more (le_of_lt hfail) hl⟩
  · rw [if_neg hfail]
    exact ⟨_, h.one io⟩

/-- The results of six transfers in a row: the first fails, no other one
moves data, and the last one fails. -/
def AllFail (once : Io σ → Io σ) (io : Io σ) : Prop :=
  (once io).ret < 0 ∧ (∀ j, j < 5 → (once^[j + 2] io).ret ≤ 0) ∧ (once^[6] io).ret < 0

theorem retryLoop_neg (once : Io σ → Io σ) (n : Nat) (io : Io σ) :
    (retryLoop once (n + 1) io).ret < 0 ↔
      (∀ j, j < n + 1 → (once^[j + 1] io).ret ≤ 0) ∧ (once^[n + 1] io).ret < 0 := by
  induction n generalizing io with
  | zero =>
    show (if (once io).ret > 0 then once io else once io).ret < 0 ↔ _
    rw [ite_self]
    constructor
    · intro h
      refine ⟨fun j hj => ?_, h⟩
      obtain rfl : j = 0 := by omega
      exact le_of_lt h
    · exact fun h => h.2
  | succ n ih =>
    show (if (once io).ret > 0 then once io else retryLoop once (n + 1) (once io)).ret < 0 ↔ _
    -- a transfer that moves data ends the loop, and its result is positive
    by_cases hdone : (once io).ret > 0
    · rw [if_pos hdone]
      refine ⟨fun h => absurd h (by omega), fun h => ?_⟩
      have hfirst : (once io).ret ≤ 0 := h.1 0 (by omega)
      omega
    · rw [if_neg hdone, ih]
      constructor
      · rintro ⟨hno, hlast⟩
        refine ⟨fun j hj => ?_, hlast⟩
        cases j with
        | zero => exact not_lt.mp hdone
        | succ j => exact hno j (by omega)
      · rintro ⟨hno, hlast⟩
        exact ⟨fun j hj => hno (j + 1) (by omega), hlast⟩

theorem attempt_neg (once : Io σ → Io σ) (io : Io σ) :
    (attempt once io).ret < 0 ↔ AllFail once io := by
  unfold attempt AllFail
  simp only
  by_cases hfail : (once io).ret < 0
  · rw [if_pos hfail, retryLoop_neg]
    exact ⟨fun h => ⟨hfail, h⟩, fun h => h.2⟩
  · rw [if_neg hfail]
    exact ⟨fun h => absurd h hfail, fun h => absurd h.1 hfail⟩

/-! ### `get_size` -/

theorem filpOpen_calls (V : Vfs σ) (p : Path) (k : Kernel σ) :
    (filpOpen V p k).2.calls = .opened (filpOpen V p k).1 :: k.calls := rfl

/-- `get_size` gives back what it takes, and moves nothing to or from the
card, whatever the file functions do. -/
theorem getSize_run (V : Vfs σ) (k : Kernel σ) : ∃ l, Restores k (getSize V k).2 l ∧
    ∀ id pos len ret, FileCall.moved (.file .mmc id) pos len ret ∉ l := by
  have hcalls := filpOpen_calls V .size (setFs kernelDs k)
  have hpath := V.opened .size k.vfs
  have hopened : (V.filpOpen .size k.vfs).1 = (filpOpen V .size (setFs kernelDs k)).1 := rfl
  rw [hopened] at hpath
  unfold getSize
  simp only
  generalize filpOpen V .size (setFs kernelDs k) = opened at hcalls hpath ⊢
  obtain ⟨filp, k₁⟩ := opened
  cases filp with
  | err errno =>
    -- the only path that closes nothing, and `set_fs` comes before the return
    exact ⟨[.opened (.err errno)], ⟨hcalls, rfl, fun p id => by simp, fun e => by simp⟩,
      fun id pos len ret => by simp⟩
  | file p id =>
    obtain rfl : p = .size := hpath p id rfl
    have hmoved := (transfers_readOnce V (.file .size id) 8).one ⟨0, fun _ => 0, 0, k₁⟩
    have hrest : Restores k
        (setFs k.addrLimit (filpClose (.file .size id)
          (readOnce V (.file .size id) 8 ⟨0, fun _ => 0, 0, k₁⟩).kernel)) _ :=
      restores_bracket hmoved.moves (hmoved.calls.trans (congrArg _ hcalls)) rfl
    rw [if_neg (show ¬ (Filp.file .size id).isErr = true from Bool.false_ne_true)]
    split
    · exact ⟨_, hrest, fun id' pos' len' ret' => by simp⟩
    · exact ⟨_, hrest, fun id' pos' len' ret' => by simp⟩

theorem getSize_restores (V : Vfs σ) (k : Kernel σ) : ∃ l, Restores k (getSize V k).2 l := by
  obtain ⟨l, hl, -⟩ := getSize_run V k
  exact ⟨l, hl⟩

theorem mmcHiddenInfo_restores (V : Vfs σ) (k : Kernel σ) :
    ∃ l, Restores k (mmcHiddenInfo V k).2 l := getSize_restores V k

/-! ### The accessors -/

/-- The offset passes the range check. -/
def Accepted (offset : Nat) (idx : Fin mmcHiddenMaxCount) : Prop :=
  (offset : Int) < s64 (sectorSize idx * 512)

instance (offset : Nat) (idx : Fin mmcHiddenMaxCount) : Decidable (Accepted offset idx) :=
  inferInstanceAs (Decidable (_ < _))

/-- The card as the accessors open it. -/
def cardOpened (V : Vfs σ) (k : Kernel σ) : Filp × Kernel σ :=
  filpOpen V .mmc (setFs kernelDs (mmcHiddenInfo V k).2)

/-- `hiddenStart` of `MMC_ReadHidden`. -/
def readStart (V : Vfs σ) (offset : Nat) (idx : Fin mmcHiddenMaxCount) (k : Kernel σ) : Int :=
  s64 (((mmcHiddenInfo V k).1.hiddenStart idx + offset) * 512)

/-- `hiddenStart` of `MMC_WriteHidden`. -/
def writeStart (V : Vfs σ) (offset : Nat) (idx : Fin mmcHiddenMaxCount) (k : Kernel σ) : Int :=
  s64 (s64 ((mmcHiddenInfo V k).1.hiddenStart idx * 512) + offset)

theorem cardOpened_calls (V : Vfs σ) (k : Kernel σ) :
    (cardOpened V k).2.calls = .opened (cardOpened V k).1 :: (mmcHiddenInfo V k).2.calls := rfl

theorem cardOpened_path {V : Vfs σ} {k : Kernel σ} {p : Path} {id : Nat}
    (h : (cardOpened V k).1 = .file p id) : p = .mmc := V.opened .mmc _ p id h

section
variable {buf : Nat → UInt8} {len offset : Nat} {idx : Fin mmcHiddenMaxCount}

/-- How `MMC_ReadHidden` ends. -/
theorem mmcReadHidden_rejected (h : ¬ Accepted offset idx) :
    mmcReadHidden V buf len offset idx k = (-1, buf, (mmcHiddenInfo V k).2) := if_neg h

theorem mmcReadHidden_err (h : Accepted offset idx) (herr : (cardOpened V k).1.isErr = true) :
    mmcReadHidden V buf len offset idx k = ((cardOpened V k).1.ptrErr, buf,
      setFs (mmcHiddenInfo V k).2.addrLimit
        (filpClose (cardOpened V k).1 (cardOpened V k).2)) :=
  (if_pos h).trans (if_pos herr)

theorem mmcReadHidden_file (buf : Nat → UInt8) (len : Nat) (h : Accepted offset idx)
    (hok : (cardOpened V k).1.isErr = false) :
    let io := attempt (readOnce V (cardOpened V k).1 len)
      ⟨0, buf, readStart V offset idx k, (cardOpened V k).2⟩
    mmcReadHidden V buf len offset idx k = (if io.ret < 0 then -1 else 0, io.buf,
      setFs (mmcHiddenInfo V k).2.addrLimit (filpClose (cardOpened V k).1 io.kernel)) := by
  intro io
  have hno : ¬ (cardOpened V k).1.isErr = true := by
    rw [hok]
    exact Bool.false_ne_true
  refine ((if_pos h).trans (if_neg hno)).trans ?_
  by_cases hret : io.ret < 0
  · rw [if_pos hret]
    exact if_pos hret
  · rw [if_neg hret]
    exact if_neg hret

/-- How `MMC_WriteHidden` ends. -/
theorem mmcWriteHidden_rejected (h : ¬ Accepted offset idx) :
    mmcWriteHidden V buf len offset idx k = (-1, (mmcHiddenInfo V k).2) := if_neg h

theorem mmcWriteHidden_err (h : Accepted offset idx) (herr : (cardOpened V k).1.isErr = true) :
    mmcWriteHidden V buf len offset idx k = ((cardOpened V k).1.ptrErr,
      setFs (mmcHiddenInfo V k).2.addrLimit
        (filpClose (cardOpened V k).1 (cardOpened V k).2)) :=
  (if_pos h).trans (if_pos herr)

theorem mmcWriteHidden_file (buf : Nat → UInt8) (len : Nat) (h : Accepted offset idx)
    (hok : (cardOpened V k).1.isErr = false) :
    let io := attempt (writeOnce V (cardOpened V k).1 len)
      ⟨0, buf, writeStart V offset idx k, (cardOpened V k).2⟩
    mmcWriteHidden V buf len offset idx k = if io.ret < 0 then (-1, io.kernel) else
      (0, setFs (mmcHiddenInfo V k).2.addrLimit (filpClose (cardOpened V k).1 io.kernel)) := by
  intro io
  have hno : ¬ (cardOpened V k).1.isErr = true := by
    rw [hok]
    exact Bool.false_ne_true
  exact (if_pos h).trans (if_neg hno)

end

/-! ### When the accessors give back -/

/-- An error pointer that has been closed is not given back. -/
theorem not_restores_err {k₁ : Kernel σ} {l₁ : List FileCall} (h₁ : Restores k k₁ l₁) {errno : Int}
    (l' : List FileCall) (hcalls : k'.calls = .closed (.err errno) :: l' ++ k₁.calls) :
    ¬ Restores k k' l := by
  intro h
  have heq : l ++ k.calls = (.closed (.err errno) :: l' ++ l₁) ++ k.calls := by
    rw [← h.calls, hcalls, h₁.calls, List.append_assoc]
  rw [List.append_cancel_right heq] at h
  exact h.noErr errno (List.mem_append_left _ List.mem_cons_self)

/-- Nor is a file that has not been closed. -/
theorem not_restores_open {p : Path} {id : Nat} {k₁ : Kernel σ} {l₁ : List FileCall}
    (h₁ : Restores k k₁ l₁) (hmoves : Moves (.file p id) l')
    (hcalls : k'.calls = l' ++ .opened (.file p id) :: k₁.calls) : ¬ Restores k k' l := by
  intro h
  have heq : l ++ k.calls = (l' ++ .opened (.file p id) :: l₁) ++ k.calls := by
    rw [← h.calls, hcalls, h₁.calls]
    simp
  have hcount := h.closedOnce p id
  rw [List.append_cancel_right heq, List.count_append, List.count_append, List.count_cons,
    List.count_cons, hmoves.count_closed, hmoves.count_opened, h₁.closedOnce] at hcount
  simp at hcount

/-- A file opened, used and closed is. -/
theorem givesBack_file {k₁ k₂ : Kernel σ} {l₁ : List FileCall} (h₁ : Restores k k₁ l₁) {id : Nat}
    (hmoves : Moves (.file .mmc id) l')
    (hcalls : k₂.calls = l' ++ .opened (.file .mmc id) :: k₁.calls) {result ret pos : Int}
    {len : Nat} (hlast : FileCall.moved (.file .mmc id) pos len ret ∈ l')
    (hresult : result = 0 → 0 ≤ ret) :
    GivesBack result k (setFs k₁.addrLimit (filpClose (.file .mmc id) k₂)) := by
  refine ⟨_, h₁.trans (restores_bracket hmoves hcalls rfl), fun hzero => ?_⟩
  refine ⟨id, pos, len, ret, List.mem_append_left _ (List.mem_cons_of_mem _ ?_), hresult hzero⟩
  exact List.mem_append_left _ hlast

/-- A request that is turned down has taken nothing. -/
theorem givesBack_rejected (V : Vfs σ) (k : Kernel σ) : GivesBack (-1) k (mmcHiddenInfo V k).2 := by
  obtain ⟨l, hl⟩ := mmcHiddenInfo_restores V k
  exact ⟨l, hl, fun h => absurd h (show ¬ (-1 : Int) = 0 by decide)⟩

/-- Without a card, both accessors close the error pointer. -/
theorem not_givesBack_err {errno : Int} (h : (cardOpened V k).1 = .err errno) (result : Int)
    (limit : Nat) :
    ¬ GivesBack result k (setFs limit (filpClose (.err errno) (cardOpened V k).2)) := by
  obtain ⟨l₁, h₁⟩ := mmcHiddenInfo_restores V k
  have hcalls := cardOpened_calls V k
  rw [h] at hcalls
  rintro ⟨l, hl, -⟩
  exact not_restores_err h₁ [.opened (.err errno)] (congrArg _ hcalls) hl

theorem mmcReadHidden_restores_iff (V : Vfs σ) (buf : Nat → UInt8) (len offset : Nat)
    (idx : Fin mmcHiddenMaxCount) (k : Kernel σ) :
    GivesBack (mmcReadHidden V buf len offset idx k).1 k
        (mmcReadHidden V buf len offset idx k).2.2 ↔
      (Accepted offset idx → (cardOpened V k).1.isErr = false) := by
  obtain ⟨l₁, h₁⟩ := mmcHiddenInfo_restores V k
  have hcalls := cardOpened_calls V k
  by_cases hacc : Accepted offset idx
  · rcases hfilp : (cardOpened V k).1 with ⟨p, id⟩ | errno
    · -- the file is closed whatever the transfers return
      obtain rfl := cardOpened_path hfilp
      have hrun := mmcReadHidden_file buf len hacc
        (show (cardOpened V k).1.isErr = false by rw [hfilp]; rfl)
      simp only [hfilp] at hrun hcalls
      obtain ⟨l, hl⟩ := (transfers_readOnce V (.file .mmc id) len).attempt
        ⟨0, buf, readStart V offset idx k, (cardOpened V k).2⟩
      obtain ⟨pos, hlast⟩ := hl.last
      refine ⟨fun _ _ => rfl, fun _ => ?_⟩
      rw [hrun]
      refine givesBack_file h₁ hl.moves (hl.calls.trans (congrArg _ hcalls)) hlast fun hzero => ?_
      by_contra hneg
      simp only [if_pos (not_le.mp hneg)] at hzero
      exact absurd hzero (by decide)
    · rw [mmcReadHidden_err hacc (by rw [hfilp]; rfl), hfilp]
      exact ⟨fun h => absurd h (not_givesBack_err hfilp _ _),
        fun h => absurd (h hacc) Bool.noConfusion⟩
  · rw [mmcReadHidden_rejected hacc]
    exact ⟨fun _ h => absurd h hacc, fun _ => givesBack_rejected V k⟩

theorem mmcWriteHidden_restores_iff (V : Vfs σ) (buf : Nat → UInt8) (len offset : Nat)
    (idx : Fin mmcHiddenMaxCount) (k : Kernel σ) :
    GivesBack (mmcWriteHidden V buf len offset idx k).1 k
        (mmcWriteHidden V buf len offset idx k).2 ↔
      (Accepted offset idx → (cardOpened V k).1.isErr = false ∧
        ¬ AllFail (writeOnce V (cardOpened V k).1 len)
          ⟨0, buf, writeStart V offset idx k, (cardOpened V k).2⟩) := by
  obtain ⟨l₁, h₁⟩ := mmcHiddenInfo_restores V k
  have hcalls := cardOpened_calls V k
  by_cases hacc : Accepted offset idx
  · rcases hfilp : (cardOpened V k).1 with ⟨p, id⟩ | errno
    · obtain rfl := cardOpened_path hfilp
      have hrun := mmcWriteHidden_file buf len hacc
        (show (cardOpened V k).1.isErr = false by rw [hfilp]; rfl)
      simp only [hfilp] at hrun hcalls
      obtain ⟨l, hl⟩ := (transfers_writeOnce V (.file .mmc id) len).attempt
        ⟨0, buf, writeStart V offset idx k, (cardOpened V k).2⟩
      obtain ⟨pos, hlast⟩ := hl.last
      rw [hrun, ← attempt_neg]
      by_cases hret : (attempt (writeOnce V (.file .mmc id) len)
          ⟨0, buf, writeStart V offset idx k, (cardOpened V k).2⟩).ret < 0
      · -- out of retries: the file is still open
        rw [if_pos hret]
        refine ⟨fun ⟨l'', hl'', _⟩ => ?_, fun h => absurd hret (h hacc).2⟩
        exact absurd hl'' (not_restores_open h₁ hl.moves (hl.calls.trans (congrArg _ hcalls)))
      · -- a transfer succeeded, or the last retry moved nothing
        rw [if_neg hret]
        refine ⟨fun _ _ => ⟨rfl, hret⟩, fun _ => ?_⟩
        exact givesBack_file h₁ hl.moves (hl.calls.trans (congrArg _ hcalls)) hlast
          fun _ => not_lt.mp hret
    · rw [mmcWriteHidden_err hacc (by rw [hfilp]; rfl), hfilp]
      exact ⟨fun h => absurd h (not_givesBack_err hfilp _ _),
        fun h => absurd (h hacc).1 Bool.noConfusion⟩
  · rw [mmcWriteHidden_rejected hacc]
    exact ⟨fun _ h => absurd h hacc, fun _ => givesBack_rejected V k⟩

/-- **When the accessors give back what they take.**  `get_size` always
does; `MMC_ReadHidden` unless the card cannot be opened; `MMC_WriteHidden`
unless the card cannot be opened or the write and its retries fail. -/
theorem hidden_restores_iff (V : Vfs σ) (buf : Nat → UInt8) (len offset : Nat)
    (idx : Fin mmcHiddenMaxCount) (k : Kernel σ) :
    (∃ l, Restores k (getSize V k).2 l) ∧
    (GivesBack (mmcReadHidden V buf len offset idx k).1 k
        (mmcReadHidden V buf len offset idx k).2.2 ↔
      (Accepted offset idx → (cardOpened V k).1.isErr = false)) ∧
    (GivesBack (mmcWriteHidden V buf len offset idx k).1 k
        (mmcWriteHidden V buf len offset idx k).2 ↔
      (Accepted offset idx → (cardOpened V k).1.isErr = false ∧
        ¬ AllFail (writeOnce V (cardOpened V k).1 len)
          ⟨0, buf, writeStart V offset idx k, (cardOpened V k).2⟩)) :=
  ⟨getSize_restores V k, mmcReadHidden_restores_iff V buf len offset idx k,
    mmcWriteHidden_restores_iff V buf len offset idx k⟩

/-- A card that can be opened, and fails every transfer. -/
def failingVfs : Vfs Unit where
  filpOpen := fun p _ => (.file p 3, ())
  vfsRead := fun _ buf _ pos _ => (⟨-5, buf, pos⟩, ())
  vfsWrite := fun _ buf _ pos _ => (⟨-5, buf, pos⟩, ())
  strictStrtoull := fun _ => none
  opened := fun p _ p' id h => by
    injection h with hp
    exact hp.symm

/-- A card that cannot be opened. -/
def absentVfs : Vfs Unit := { failingVfs with
  filpOpen := fun p _ => (match p with | .size => .file .size 3 | .mmc => .err (-6), ())
  opened := fun p _ p' id h => by
    cases p with
    | size =>
      injection h with hp
      exact hp.symm
    | mmc => cases h }

/-- After six write errors the address limit is still raised; and without a
card an error pointer is closed. -/
theorem hidden_keeps :
    let k : Kernel Unit := ⟨3221225472, [], ()⟩
    (mmcWriteHidden failingVfs (fun _ => 0) 16 0 0 k).2.addrLimit = 0 ∧
    ¬ GivesBack (mmcWriteHidden failingVfs (fun _ => 0) 16 0 0 k).1 k
      (mmcWriteHidden failingVfs (fun _ => 0) 16 0 0 k).2 ∧
    ¬ GivesBack (mmcReadHidden absentVfs (fun _ => 0) 16 0 0 k).1 k
      (mmcReadHidden absentVfs (fun _ => 0) 16 0 0 k).2.2 := by
  refine ⟨by decide, fun ⟨l, hl, _⟩ => ?_, fun ⟨l, hl, _⟩ => ?_⟩
  · have hlimit := hl.limit
    revert hlimit
    decide
  · have hcalls := hl.calls
    rw [List.append_nil] at hcalls
    refine hl.noErr (-6) ?_
    rw [← hcalls]
    decide

end CdPlayer
