/-
CdPlayer/HiddenCard.lean

The hidden areas on the card (hidden_mmc.c).

`MMC_Hidden_Info` lays the areas out one below the other, under the last
sector of the card (`hiddenStart_eq`), so they do not overlap and nothing
else lies among them (`InArea.isolated`).

The two accessors disagree about the offset: `MMC_WriteHidden` counts it in
bytes, as the range check does, `MMC_ReadHidden` in sectors.  And the check
does not look at the length.  So what is written is read back exactly if
the offset is zero, or nothing is written, or the card happens to hold the
same bytes further up (`hidden_roundtrip_iff`).  An access stays in its area
only if offset and length together do, each in the accessor's own unit; and
the areas are where `get_size` takes the end of the card to be, which is in
the midst of its data if the size has more than eight digits
(`hidden_isolated_iff`).
-/
import CdPlayer.SizeFile
import CdPlayer.Lib.ByteStore
import CdPlayer.Lib.Stack
import Mathlib.Data.List.GetD

namespace CdPlayer

open ByteStore

/-! ### The layout -/

theorem sectorSize_bounds (idx : Nat) : 0 ≤ sectorSize idx ∧ sectorSize idx ≤ 1638400 := by
  have hall : ∀ x ∈ mmcHiddenPagesize, 0 ≤ x ∧ x ≤ 1638400 := by decide
  unfold sectorSize
  by_cases hlt : idx < mmcHiddenPagesize.length
  · rw [List.getD_eq_getElem _ _ hlt]
    exact hall _ (List.getElem_mem hlt)
  · rw [List.getD_eq_default _ _ (not_lt.mp hlt)]
    decide

theorem sectorSize_nonneg (idx : Nat) : 0 ≤ sectorSize idx := (sectorSize_bounds idx).1

/-- The loop of `MMC_Hidden_Info` stacks the areas. -/
theorem hiddenStart_eq (base : Int) (idx : Nat) :
    hiddenStart base idx = Stack.start base sectorSize idx := by
  induction idx with
  | zero => exact (Stack.start_zero base sectorSize).symm
  | succ idx ih =>
    rw [Stack.start_succ, ← ih]
    rfl

/-- Sizes of a card, in sectors: the layout fits on it, and the position of
each of its bytes is a `loff_t`. -/
structure CardSize (size : Nat) : Prop where
  room : 0 ≤ hiddenStart (size - 1) 9
  fits : size * 512 < 9223372036854775808

/-- The byte of the card lies in area `idx`. -/
def InArea (size idx : Nat) (a : Int) : Prop :=
  hiddenStart (size - 1) idx * 512 ≤ a ∧
    a < (hiddenStart (size - 1) idx + sectorSize idx) * 512

/-- The byte of the card lies in area `idx`, in no other area, below the
boot sector and above the normal data of the card. -/
structure Isolated (size idx : Nat) (a : Int) : Prop where
  inside : InArea size idx a
  others : ∀ j, j ≠ idx → ¬ InArea size j a
  belowBoot : a < (size - 1) * 512
  aboveData : hiddenStart (size - 1) 9 * 512 ≤ a

variable {size idx : Nat} {a : Int}

theorem inArea_iff : InArea size idx a ↔ Stack.Inside (size - 1) sectorSize idx (a / 512) := by
  unfold InArea Stack.Inside
  rw [hiddenStart_eq]
  constructor
  · rintro ⟨h₁, h₂⟩
    constructor <;> omega
  · rintro ⟨h₁, h₂⟩
    constructor <;> omega

/-- **The areas are isolated** from each other and from what else is on the
card. -/
theorem InArea.isolated (h : InArea size idx a) (hidx : idx < 10) : Isolated size idx a where
  inside := h
  others := by
    intro j hj h'
    exact hj (Stack.eq_of_inside _ sectorSize_nonneg (inArea_iff.mp h') (inArea_iff.mp h))
  belowBoot := by
    have hbase := Stack.start_add_size_le_base ((size : Int) - 1) sectorSize_nonneg idx
    have hend := h.2
    rw [hiddenStart_eq] at hend
    omega
  aboveData := by
    have hanti := Stack.start_anti ((size : Int) - 1) sectorSize_nonneg (show idx ≤ 9 by omega)
    have hstart := h.1
    rw [hiddenStart_eq] at hstart ⊢
    omega

/-- Each area lies on the card. -/
theorem CardSize.area (h : CardSize size) (idx : Fin mmcHiddenMaxCount) :
    0 ≤ hiddenStart (size - 1) idx ∧ hiddenStart (size - 1) idx + sectorSize idx ≤ size - 1 := by
  have hbase := Stack.start_add_size_le_base ((size : Int) - 1) sectorSize_nonneg idx
  have hanti := Stack.start_anti ((size : Int) - 1) sectorSize_nonneg (Nat.le_of_lt_succ idx.2)
  have hroom := h.room
  rw [hiddenStart_eq] at hroom ⊢
  exact ⟨le_trans hroom hanti, hbase⟩

/-! ### What the file functions do -/

variable {σ : Type} {V : Vfs σ}

/-- No transfer moves more than it is asked for, and one that moves nothing
leaves the position. -/
structure VfsSteady (V : Vfs σ) : Prop where
  readLe : ∀ f buf len pos s, (V.vfsRead f buf len pos s).1.ret ≤ len
  readPos : ∀ f buf len pos s, (V.vfsRead f buf len pos s).1.ret ≤ 0 →
    (V.vfsRead f buf len pos s).1.pos = pos
  writeLe : ∀ f buf len pos s, (V.vfsWrite f buf len pos s).1.ret ≤ len
  writePos : ∀ f buf len pos s, (V.vfsWrite f buf len pos s).1.ret ≤ 0 →
    (V.vfsWrite f buf len pos s).1.pos = pos

/-- A card with the contents `bytes`: all is transferred, at the position
given. -/
structure Serves (V : Vfs σ) (size : Nat) (bytes : σ → Int → UInt8) : Prop
    extends ReportsSize V size where
  opensCard : ∀ s, ∃ id, (V.filpOpen .mmc s).1 = .file .mmc id
  openKeeps : ∀ p s, bytes (V.filpOpen p s).2 = bytes s
  sizeKeeps : ∀ id buf len pos s, bytes (V.vfsRead (.file .size id) buf len pos s).2 = bytes s
  read : ∀ id buf len pos s, (V.vfsRead (.file .mmc id) buf len pos s).1.ret = len ∧
    (∀ i, i < len → (V.vfsRead (.file .mmc id) buf len pos s).1.buf i = bytes s (pos + i))
  write : ∀ id buf len pos s, (V.vfsWrite (.file .mmc id) buf len pos s).1.ret = len ∧
    bytes (V.vfsWrite (.file .mmc id) buf len pos s).2
      = blit (bytes s) pos (fun i => buf i.toNat) 0 len

variable {bytes : σ → Int → UInt8} {k : Kernel σ}

theorem getSize_eq (h : ReportsSize V size) (hcard : CardSize size) (k : Kernel σ) :
    (getSize V k).1 = size := by
  obtain ⟨id, hid⟩ := h.opens k.vfs
  have hfilp : (filpOpen V .size (setFs kernelDs k)).1 = .file .size id := hid
  have hfits := hcard.fits
  unfold getSize
  simp only
  generalize filpOpen V .size (setFs kernelDs k) = opened at hfilp ⊢
  obtain ⟨filp, k₁⟩ := opened
  obtain rfl : filp = .file .size id := hfilp
  obtain ⟨hret, hnum⟩ := h.reads id k₁.vfs
  rw [if_neg (show ¬ (Filp.file .size id).isErr = true from Bool.false_ne_true),
    if_neg (show ¬ (readOnce V (.file .size id) 8 ⟨0, fun _ => 0, 0, k₁⟩).ret < 0 from
      not_lt.mpr hret)]
  show s64 ((V.strictStrtoull _).getD 0 : Nat) = _
  rw [show V.strictStrtoull (readOnce V (.file .size id) 8 ⟨0, fun _ => 0, 0, k₁⟩).buf
    = some size from hnum, Option.getD_some]
  exact s64_of_lt (by omega) (by omega)

theorem hiddenInfo_start (h : ReportsSize V size) (hcard : CardSize size) (k : Kernel σ) :
    (mmcHiddenInfo V k).1.hiddenStart = hiddenStart (size - 1) := by
  show hiddenStart ((getSize V k).1 - 1) = _
  rw [getSize_eq h hcard]

theorem accepted_iff (offset : Nat) (idx : Fin mmcHiddenMaxCount) :
    Accepted offset idx ↔ (offset : Int) < sectorSize idx * 512 := by
  have hsize := sectorSize_bounds idx
  unfold Accepted
  rw [s64_of_lt (by omega) (by omega)]

/-- Where `MMC_WriteHidden` writes: the offset counts bytes. -/
theorem writeStart_eq (h : ReportsSize V size) (hcard : CardSize size) {offset : Nat}
    {idx : Fin mmcHiddenMaxCount} (hacc : Accepted offset idx) (k : Kernel σ) :
    writeStart V offset idx k = hiddenStart (size - 1) idx * 512 + offset := by
  have hacc' := (accepted_iff offset idx).mp hacc
  obtain ⟨hstart, hend⟩ := hcard.area idx
  have hsize := sectorSize_nonneg idx
  have hfits := hcard.fits
  have hbase : s64 (hiddenStart (size - 1) idx * 512) = hiddenStart (size - 1) idx * 512 :=
    s64_of_lt (by omega) (by omega)
  unfold writeStart
  rw [hiddenInfo_start h hcard, hbase]
  exact s64_of_lt (by omega) (by omega)

/-- Where `MMC_ReadHidden` reads: the offset counts sectors. -/
theorem readStart_eq (h : ReportsSize V size) (hcard : CardSize size) (offset : Nat)
    (idx : Fin mmcHiddenMaxCount) (k : Kernel σ) :
    readStart V offset idx k = s64 ((hiddenStart (size - 1) idx + offset) * 512) := by
  unfold readStart
  rw [hiddenInfo_start h hcard]

/-- With offset zero the two agree. -/
theorem CardSize.s64_start (h : CardSize size) (idx : Fin mmcHiddenMaxCount) (offset : Nat)
    (hle : (offset : Int) ≤ sectorSize idx) :
    s64 ((hiddenStart (size - 1) idx + offset) * 512)
      = (hiddenStart (size - 1) idx + offset) * 512 := by
  obtain ⟨hstart, hend⟩ := h.area idx
  have hfits := h.fits
  exact s64_of_lt (by omega) (by omega)

/-! ### Accesses -/

/-- Between `k` and `k'` byte `a` of the card is read or written. -/
def Accessed (k k' : Kernel σ) (a : Int) : Prop :=
  ∃ l, k'.calls = l ++ k.calls ∧ ∃ id pos len ret,
    FileCall.moved (.file .mmc id) pos len ret ∈ l ∧ pos ≤ a ∧ a < pos + len

/-- The accesses of a card that is opened, used and, perhaps, closed are
those of the transfers. -/
theorem accessed_iff (k₂ : Kernel σ) (closes : List FileCall) {once : Io σ → Io σ}
    {io io' : Io σ} {id len : Nat} {l : List FileCall}
    (hcloses : ∀ c ∈ closes, c = .closed (.file .mmc id))
    (hio : io.kernel = (cardOpened V k).2) (hfilp : (cardOpened V k).1 = .file .mmc id)
    (hl : Transferred (.file .mmc id) len once io io' l)
    (hend : k₂.calls = closes ++ io'.kernel.calls) (a : Int) :
    Accessed k k₂ a ↔ ∃ pos len' ret,
      FileCall.moved (.file .mmc id) pos len' ret ∈ l ∧ pos ≤ a ∧ a < pos + len' := by
  obtain ⟨l₁, h₁, hno⟩ := getSize_run V k
  have hcalls : k₂.calls = (closes ++ l ++ .opened (.file .mmc id) :: l₁) ++ k.calls := by
    rw [hend, hl.calls, hio, cardOpened_calls, hfilp,
      show (mmcHiddenInfo V k).2.calls = l₁ ++ k.calls from h₁.calls]
    simp
  constructor
  · rintro ⟨l', hl', id', pos, len', ret, hmem, hin⟩
    rw [hcalls] at hl'
    rw [← List.append_cancel_right hl'] at hmem
    -- a call of the close, of the transfers, or of the open
    rcases List.mem_append.mp hmem with hmem | hmem
    · rcases List.mem_append.mp hmem with hmem | hmem
      · exact absurd (hcloses _ hmem) nofun
      · obtain ⟨pos', len'', ret', heq⟩ := hl.moves _ hmem
        injection heq with hf hp hlen hret
        subst hp hlen hret
        rw [hf] at hmem
        exact ⟨pos, len', ret, hmem, hin⟩
    · rcases List.mem_cons.mp hmem with heq | hmem
      · cases heq
      · exact absurd hmem (hno id' pos len' ret)
  · rintro ⟨pos, len', ret, hmem, hin⟩
    exact ⟨_, hcalls, id, pos, len', ret,
      List.mem_append_left _ (List.mem_append_right _ hmem), hin⟩

/-- Transfers stay in the area exactly if the first one begins and ends in
it. -/
theorem transferred_isolated_iff (idx : Fin mmcHiddenMaxCount) {once : Io σ → Io σ}
    {io io' : Io σ} {id len : Nat} {l : List FileCall}
    (hl : Transferred (.file .mmc id) len once io io' l)
    (hstay : len < 2147483648 → ∀ io, (once io).ret ≤ 0 → (once io).pos = io.pos)
    (hcard : CardSize size) :
    (∀ a, (∃ pos len' ret, FileCall.moved (.file .mmc id) pos len' ret ∈ l ∧ pos ≤ a ∧
        a < pos + len') → Isolated size idx a) ↔
      len = 0 ∨ hiddenStart (size - 1) idx * 512 ≤ io.pos ∧
        io.pos + len ≤ (hiddenStart (size - 1) idx + sectorSize idx) * 512 := by
  obtain ⟨hlow, -⟩ := hcard.area idx
  have hsize := sectorSize_bounds idx
  constructor
  · intro h
    by_cases hlen : len = 0
    · exact .inl hlen
    · -- its first and its last byte are in the area
      obtain ⟨ret, hmem⟩ := hl.first
      have hfirst := (h io.pos ⟨_, _, _, hmem, le_rfl, by omega⟩).inside
      have hlast := (h (io.pos + len - 1) ⟨_, _, _, hmem, by omega, by omega⟩).inside
      obtain ⟨hge, -⟩ := hfirst
      obtain ⟨-, hlt⟩ := hlast
      exact .inr ⟨hge, by omega⟩
  · rintro hcond a ⟨pos, len', ret, hmem, hpos, ha⟩
    have hshort : len < 2147483648 := by omega
    obtain ⟨ret', heq⟩ := hl.stays (hstay hshort) _ hmem
    injection heq with _ hp hlen _
    subst hp hlen
    apply InArea.isolated _ idx.2
    constructor <;> omega

/-- The `int` of a result that is not positive hides no transfer. -/
theorem nonpos_of_s32 {ret : Int} {len : Nat} (hle : ret ≤ len) (hlen : len < 2147483648)
    (h : s32 ret ≤ 0) : ret ≤ 0 := by
  by_contra hpos
  rw [s32_of_lt (by omega) (by omega)] at h
  exact hpos h

theorem readOnce_stays (h : VfsSteady V) (filp : Filp) {len : Nat} (hlen : len < 2147483648)
    (io : Io σ) (hret : (readOnce V filp len io).ret ≤ 0) :
    (readOnce V filp len io).pos = io.pos := by
  apply h.readPos
  exact nonpos_of_s32 (h.readLe filp io.buf len io.pos io.kernel.vfs) hlen hret

theorem writeOnce_stays (h : VfsSteady V) (filp : Filp) {len : Nat} (hlen : len < 2147483648)
    (io : Io σ) (hret : (writeOnce V filp len io).ret ≤ 0) :
    (writeOnce V filp len io).pos = io.pos := by
  apply h.writePos
  exact nonpos_of_s32 (h.writeLe filp io.buf len io.pos io.kernel.vfs) hlen hret

/-- The areas of two cards lie apart by the difference of their sizes. -/
theorem hiddenStart_sub (size seen : Int) (idx : Nat) :
    hiddenStart (seen - 1) idx = hiddenStart (size - 1) idx - (size - seen) := by
  induction idx with
  | zero =>
    unfold hiddenStart
    omega
  | succ idx ih =>
    unfold hiddenStart
    rw [ih]
    omega

/-- What the areas take in all. -/
theorem hiddenStart_nine (base : Int) : hiddenStart base 9 = base - 1654784 := by
  have hsum : sectorSize 0 + sectorSize 1 + sectorSize 2 + sectorSize 3 + sectorSize 4
      + sectorSize 5 + sectorSize 6 + sectorSize 7 + sectorSize 8 + sectorSize 9 = 1654784 := by
    decide
  simp only [hiddenStart, Nat.reduceAdd]
  omega

/-- The layout fits on a card whose size is cut off. -/
theorem CardSize.shown (h : CardSize size) : CardSize (shownSize size) := by
  refine ⟨?_, lt_of_le_of_lt (Nat.mul_le_mul_right 512 (shownSize_le size)) h.fits⟩
  by_cases hlong : 100000000 ≤ size
  · have hbounds := shownSize_bounds hlong
    rw [hiddenStart_nine]
    omega
  · rw [shownSize_of_lt (not_le.mp hlong)]
    exact h.room

/-- **When `get_size` gives the size of the card**: it sees eight digits. -/
theorem getSize_eq_iff (hfile : SizeFile V size) (hcard : CardSize size) (k : Kernel σ) :
    (getSize V k).1 = size ↔ size < 100000000 := by
  rw [getSize_eq hfile.reports hcard.shown, Nat.cast_inj]
  exact shownSize_eq_iff size

/-- Where `MMC_ReadHidden` reads on a card whose size is cut off. -/
theorem readStart_shown (hfile : SizeFile V size) (hcard : CardSize size) {offset : Nat}
    {idx : Fin mmcHiddenMaxCount} (hacc : Accepted offset idx) (k : Kernel σ) :
    readStart V offset idx k
      = (hiddenStart (size - 1) idx + (offset - (size - shownSize size))) * 512 := by
  obtain ⟨hstart, hend⟩ := hcard.shown.area idx
  have hoff := (accepted_iff offset idx).mp hacc
  have hbounds := sectorSize_bounds idx
  have hlt := shownSize_lt size
  have hsub : hiddenStart (shownSize size - 1) idx
      = hiddenStart (size - 1) idx - (size - shownSize size) := hiddenStart_sub ..
  rw [readStart_eq hfile.reports hcard.shown, s64_of_lt (by omega) (by omega), hsub]
  ring

/-- **When an access stays in its area.**  `MMC_WriteHidden` needs room for
`offset` and `len` bytes, and a card whose size `get_size` sees in full: on
any other the areas it takes for those of the card are far below them.
`MMC_ReadHidden` needs room for `offset` sectors and `len` bytes; on a card
whose size is cut off it reads as many sectors lower as the size is short
by.  The range check makes sure of none of this. -/
theorem hidden_isolated_iff (hfile : SizeFile V size) (hcard : CardSize size)
    (hsteady : VfsSteady V) (buf : Nat → UInt8) (len : Nat) {offset : Nat}
    {idx : Fin mmcHiddenMaxCount} (hacc : Accepted offset idx)
    (hopen : (cardOpened V k).1.isErr = false) :
    ((∀ a, Accessed k (mmcReadHidden V buf len offset idx k).2.2 a → Isolated size idx a) ↔
      len = 0 ∨ (size : Int) - shownSize size ≤ offset ∧
        ((offset : Int) - (size - shownSize size)) * 512 + len ≤ sectorSize idx * 512) ∧
    ((∀ a, Accessed k (mmcWriteHidden V buf len offset idx k).2 a → Isolated size idx a) ↔
      len = 0 ∨ size < 100000000 ∧ (offset : Int) + len ≤ sectorSize idx * 512) := by
  have hoff := (accepted_iff offset idx).mp hacc
  have hbounds := sectorSize_bounds idx
  rcases hfilp : (cardOpened V k).1 with ⟨p, id⟩ | errno
  · obtain rfl := cardOpened_path hfilp
    constructor
    · obtain ⟨l, hl⟩ := (transfers_readOnce V (.file .mmc id) len).attempt
        ⟨0, buf, readStart V offset idx k, (cardOpened V k).2⟩
      have hrun := mmcReadHidden_file buf len hacc hopen
      simp only [hfilp] at hrun
      have hstart := readStart_shown hfile hcard hacc k
      have hiff := transferred_isolated_iff idx hl (fun hlen => readOnce_stays hsteady _ hlen) hcard
      simp only [hstart] at hiff
      have haccess := accessed_iff (setFs (mmcHiddenInfo V k).2.addrLimit (filpClose _ _))
        [.closed (.file .mmc id)] (fun c hc => List.mem_singleton.mp hc) rfl hfilp hl rfl
      rw [hrun]
      simp only [haccess]
      rw [hiff]
      omega
    · obtain ⟨l, hl⟩ := (transfers_writeOnce V (.file .mmc id) len).attempt
        ⟨0, buf, writeStart V offset idx k, (cardOpened V k).2⟩
      have hrun := mmcWriteHidden_file buf len hacc hopen
      simp only [hfilp] at hrun
      have hstart := writeStart_eq hfile.reports hcard.shown hacc k
      have hsub : hiddenStart (shownSize size - 1) idx
          = hiddenStart (size - 1) idx - (size - shownSize size) := hiddenStart_sub ..
      rw [hsub] at hstart
      -- what a cut-off size is short by is more than any area has
      have hshort : size < 100000000 ∧ shownSize size = size ∨
          100000000 ≤ size ∧ (10 : Int) * shownSize size ≤ size := by
        by_cases hlong : 100000000 ≤ size
        · exact .inr ⟨hlong, by exact_mod_cast (shownSize_bounds hlong).2⟩
        · exact .inl ⟨not_le.mp hlong, shownSize_of_lt (not_le.mp hlong)⟩
      have hiff := transferred_isolated_iff idx hl (fun hlen => writeOnce_stays hsteady _ hlen)
        hcard
      simp only [hstart] at hiff
      rw [hrun]
      split
      · -- the file is kept open
        have haccess := accessed_iff _ [] (fun c hc => absurd hc List.not_mem_nil) rfl hfilp hl rfl
        simp only [haccess]
        rw [hiff]
        omega
      · have haccess := accessed_iff (setFs (mmcHiddenInfo V k).2.addrLimit (filpClose _ _))
          [.closed (.file .mmc id)] (fun c hc => List.mem_singleton.mp hc) rfl hfilp hl rfl
        simp only [haccess]
        rw [hiff]
        omega
  · rw [hfilp] at hopen
    cases hopen

/-! ### Write, then read -/

/-- The byte that `MMC_ReadHidden` finds at each place is the byte written
there: read positions count `offset` in sectors, write positions in bytes. -/
def Coincides (size : Nat) (idx : Fin mmcHiddenMaxCount) (offset len : Nat) (buf : Nat → UInt8)
    (card : Int → UInt8) : Prop :=
  ∀ i : Nat, i < len →
    blit card (hiddenStart (size - 1) idx * 512 + offset) (fun i => buf i.toNat) 0 len
      (s64 ((hiddenStart (size - 1) idx + offset) * 512) + i) = buf i

/-- Above offset zero the two positions differ. -/
theorem s64_start_ne {start offset : Int} (hoff : 0 < offset) (hlim : offset ≤ 838860800) :
    s64 ((start + offset) * 512) ≠ start * 512 + offset := by
  unfold s64
  omega

/-- For all contents they coincide only if the offset is zero. -/
theorem coincides_forall_iff (hcard : CardSize size) (idx : Fin mmcHiddenMaxCount) {offset : Nat}
    (hacc : Accepted offset idx) (len : Nat) :
    (∀ buf card, Coincides size idx offset len buf card) ↔ offset = 0 ∨ len = 0 := by
  obtain ⟨hlow, hhigh⟩ := hcard.area idx
  have hoff := (accepted_iff offset idx).mp hacc
  have hbounds := sectorSize_bounds idx
  have hfits := hcard.fits
  constructor
  · intro h
    by_contra hno
    obtain ⟨hoff', hlen⟩ := not_or.mp hno
    have hne : s64 ((hiddenStart (size - 1) idx + offset) * 512) ≠
        hiddenStart (size - 1) idx * 512 + offset := s64_start_ne (by omega) (by omega)
    unfold Coincides at h
    generalize s64 ((hiddenStart (size - 1) idx + offset) * 512) = source at h hne
    generalize hiddenStart (size - 1) idx * 512 + (offset : Int) = target at h hne
    by_cases hin : target ≤ source ∧ source < target + len
    · -- the read finds a later byte of the buffer
      have hbyte := h (fun j => if j = 0 then 1 else 0) (fun _ => 0) 0 (Nat.pos_of_ne_zero hlen)
      rw [Nat.cast_zero, add_zero, blit_inside _ _ _ _ _ hin.1 hin.2] at hbyte
      have hlater : (0 + (source - target)).toNat ≠ 0 := by omega
      simp only [if_neg hlater] at hbyte
      exact absurd hbyte (by decide)
    · -- the read finds what was on the card before
      have hbyte := h (fun _ => 1) (fun _ => 0) 0 (Nat.pos_of_ne_zero hlen)
      rw [Nat.cast_zero, add_zero, blit_outside _ _ _ _ _ (by omega)] at hbyte
      exact absurd hbyte (by decide)
  · rintro (rfl | rfl) buf card i hi
    · rw [hcard.s64_start idx 0 (by push_cast; omega),
        show (hiddenStart (size - 1) idx + (0 : Nat)) * 512 + (i : Int)
          = hiddenStart (size - 1) idx * 512 + (0 : Nat) + i by push_cast; ring,
        blit_offset _ _ _ _ _ (by omega) (by omega), zero_add]
      rfl
    · exact absurd hi (Nat.not_lt_zero i)

theorem Serves.cardOpened (h : Serves V size bytes) (k : Kernel σ) :
    (∃ id, (cardOpened V k).1 = .file .mmc id) ∧
      bytes (CdPlayer.cardOpened V k).2.vfs = bytes k.vfs := by
  refine ⟨h.opensCard _, (h.openKeeps .mmc _).trans ?_⟩
  obtain ⟨id, hid⟩ := h.opens k.vfs
  have hfilp : (filpOpen V .size (setFs kernelDs k)).1 = .file .size id := hid
  have hopen : bytes (filpOpen V .size (setFs kernelDs k)).2.vfs = bytes k.vfs := h.openKeeps ..
  show bytes (getSize V k).2.vfs = _
  unfold getSize
  simp only
  generalize filpOpen V .size (setFs kernelDs k) = opened at hfilp hopen ⊢
  obtain ⟨filp, k₁⟩ := opened
  obtain rfl : filp = .file .size id := hfilp
  have hread : bytes (readOnce V (.file .size id) 8 ⟨0, fun _ => 0, 0, k₁⟩).kernel.vfs
      = bytes k.vfs := (h.sizeKeeps ..).trans hopen
  rw [if_neg (show ¬ (Filp.file .size id).isErr = true from Bool.false_ne_true)]
  split
  · exact hread
  · exact hread

/-- Where a transfer moves all it is asked for, no attempt needs a retry,
or none helps. -/
theorem attempt_full {once : Io σ → Io σ} {len : Nat} (h : ∀ io, (once io).ret = s32 len)
    (io : Io σ) : (s32 len < 0 ∧ (attempt once io).ret < 0) ∨
      (0 ≤ s32 len ∧ attempt once io = once io) := by
  have hiter : ∀ n, (once^[n + 1] io).ret = s32 len := by
    intro n
    rw [Function.iterate_succ_apply']
    exact h _
  by_cases hneg : s32 len < 0
  · -- two gigabytes and more look like an error, six times over
    refine .inl ⟨hneg, (attempt_neg once io).mpr ⟨?_, fun j _ => ?_, ?_⟩⟩
    · rw [h]
      exact hneg
    · rw [hiter (j + 1)]
      exact le_of_lt hneg
    · rw [hiter 5]
      exact hneg
  · refine .inr ⟨not_lt.mp hneg, ?_⟩
    unfold attempt
    simp only
    rw [if_neg (by rw [h]; exact hneg)]

/-- **When what is written is read back.** -/
theorem hidden_roundtrip_iff (h : Serves V size bytes) (hcard : CardSize size)
    (buf buf₂ : Nat → UInt8) (len offset : Nat) (idx : Fin mmcHiddenMaxCount) (k : Kernel σ)
    (hwrite : (mmcWriteHidden V buf len offset idx k).1 = 0) :
    let r := mmcReadHidden V buf₂ len offset idx (mmcWriteHidden V buf len offset idx k).2
    ((r.1 = 0 ∧ ∀ i, i < len → r.2.1 i = buf i) ↔
        Coincides size idx offset len buf (bytes k.vfs)) ∧
      ((∀ buf card, Coincides size idx offset len buf card) ↔ offset = 0 ∨ len = 0) := by
  intro r
  have hacc : Accepted offset idx := by
    by_contra hno
    rw [mmcWriteHidden_rejected hno] at hwrite
    exact absurd hwrite (show ¬ (-1 : Int) = 0 by decide)
  refine ⟨?_, coincides_forall_iff hcard idx hacc len⟩
  -- the write has moved everything
  obtain ⟨⟨id, hfilp⟩, hbytes⟩ := h.cardOpened k
  have hwrun := mmcWriteHidden_file buf len hacc (by rw [hfilp]; rfl)
  simp only [hfilp] at hwrun
  have honce : ∀ io : Io σ, (writeOnce V (.file .mmc id) len io).ret = s32 len :=
    fun io => congrArg s32 (h.write id io.buf len io.pos io.kernel.vfs).1
  rcases attempt_full honce ⟨0, buf, writeStart V offset idx k, (CdPlayer.cardOpened V k).2⟩ with
    ⟨-, hneg⟩ | ⟨hlen, hdone⟩
  · rw [hwrun, if_pos hneg] at hwrite
    exact absurd hwrite (show ¬ (-1 : Int) = 0 by decide)
  · rw [hdone, if_neg (by rw [honce]; exact not_lt.mpr hlen)] at hwrun
    have hcard' : bytes (mmcWriteHidden V buf len offset idx k).2.vfs
        = blit (bytes k.vfs) (hiddenStart (size - 1) idx * 512 + offset)
          (fun i => buf i.toNat) 0 len := by
      rw [hwrun, ← hbytes, ← writeStart_eq h.toReportsSize hcard hacc k]
      exact (h.write ..).2
    -- the read moves everything
    show ((mmcReadHidden V buf₂ len offset idx (mmcWriteHidden V buf len offset idx k).2).1 = 0 ∧
      ∀ i, i < len → (mmcReadHidden V buf₂ len offset idx
        (mmcWriteHidden V buf len offset idx k).2).2.1 i = buf i) ↔ _
    generalize (mmcWriteHidden V buf len offset idx k).2 = k' at hcard' ⊢
    obtain ⟨⟨id', hfilp'⟩, hbytes'⟩ := h.cardOpened k'
    have hrrun := mmcReadHidden_file buf₂ len hacc (by rw [hfilp']; rfl)
    simp only [hfilp'] at hrrun
    have hronce : ∀ io : Io σ, (readOnce V (.file .mmc id') len io).ret = s32 len :=
      fun io => congrArg s32 (h.read id' io.buf len io.pos io.kernel.vfs).1
    rcases attempt_full hronce ⟨0, buf₂, readStart V offset idx k', (CdPlayer.cardOpened V k').2⟩
      with ⟨hneg, -⟩ | ⟨-, hdone'⟩
    · exact absurd hlen (not_le.mpr hneg)
    · rw [hdone', if_neg (by rw [hronce]; exact not_lt.mpr hlen)] at hrrun
      have hread : ∀ i, i < len → (mmcReadHidden V buf₂ len offset idx k').2.1 i
          = blit (bytes k.vfs) (hiddenStart (size - 1) idx * 512 + offset)
            (fun i => buf i.toNat) 0 len
            (s64 ((hiddenStart (size - 1) idx + offset) * 512) + i) := by
        intro i hi
        rw [hrrun, ← hcard', ← hbytes', ← readStart_eq h.toReportsSize hcard offset idx k']
        exact (h.read ..).2 i hi
      constructor
      · rintro ⟨-, hsame⟩ i hi
        rw [← hread i hi]
        exact hsame i hi
      · intro hsame
        refine ⟨by rw [hrrun], fun i hi => ?_⟩
        rw [hread i hi]
        exact hsame i hi

/-! ### A card -/

/-- Decimal digits, perhaps a newline, and the end of the string, within `n`
characters. -/
def decimalFrom (buf : Nat → UInt8) : (n i value : Nat) → Option Nat
  | 0, _, _ => none
  | n + 1, i, value =>
    if 48 ≤ buf i ∧ buf i ≤ 57 then
      decimalFrom buf n (i + 1) (10 * value + ((buf i).toNat - 48))
    else if 0 < i ∧ (buf i = 0 ∨ buf i = 10 ∧ buf (i + 1) = 0) then some value
    else none

/-- A card of `size` sectors, as an array of bytes, and its size file. -/
def cardVfs (size : Nat) : Vfs (Int → UInt8) where
  filpOpen := fun p s => (.file p 3, s)
  vfsRead := fun f buf len pos s =>
    match f with
    | .file .mmc _ => (⟨len, fun i => if i < len then s (pos + i) else buf i, pos + len⟩, s)
    | _ =>
      let text := ((sizeText size).drop pos.toNat).take len
      (⟨text.length, fun i => if i < text.length then cString text i else buf i,
        pos + text.length⟩, s)
  vfsWrite := fun f buf len pos s =>
    match f with
    | .file .mmc _ => (⟨len, buf, pos + len⟩, blit s pos (fun i => buf i.toNat) 0 len)
    | _ => (⟨len, buf, pos + len⟩, s)
  strictStrtoull := fun buf => decimalFrom buf 24 0 0
  opened := fun p _ p' id h => by
    injection h with hp
    exact hp.symm

theorem digit_bounds {c : Char} (h : c.isDigit = true) :
    (48 ≤ c.toUInt8 ∧ c.toUInt8 ≤ 57) ∧ c.toUInt8.toNat - 48 = c.toNat - '0'.toNat := by
  have hnat : 48 ≤ c.toNat ∧ c.toNat ≤ 57 := by
    simpa [Char.isDigit, UInt32.le_iff_toNat_le] using h
  have hbyte : c.toUInt8.toNat = c.toNat := by
    show c.toNat % 256 = c.toNat
    omega
  refine ⟨⟨?_, ?_⟩, ?_⟩
  · rw [UInt8.le_iff_toNat_le, hbyte]
    exact hnat.1
  · rw [UInt8.le_iff_toNat_le, hbyte]
    exact hnat.2
  · rw [hbyte]
    rfl

/-- Digits are converted to the number they make. -/
theorem decimalFrom_digits {buf : Nat → UInt8} {tail : List Char}
    (htail : tail = [] ∨ tail = ['\n']) (l : List Char) (hdigits : ∀ c ∈ l, c.isDigit = true)
    {n i : Nat} (value : Nat) (hlen : l.length < n) (hpos : 0 < i + l.length)
    (hbuf : ∀ j, buf (i + j) = cString (l ++ tail) j) :
    decimalFrom buf n i value = some (Nat.ofDigitChars 10 l value) := by
  induction l generalizing n i value with
  | nil =>
    obtain ⟨n, rfl⟩ : ∃ m, n = m + 1 := ⟨n - 1, by simp at hlen; omega⟩
    have hfirst := hbuf 0
    have hsecond := hbuf 1
    rw [Nat.add_zero] at hfirst
    unfold decimalFrom
    rw [hfirst, hsecond]
    rcases htail with rfl | rfl
    · rw [if_neg (by decide), if_pos ⟨hpos, by decide⟩, Nat.ofDigitChars_nil]
    · rw [if_neg (by decide), if_pos ⟨hpos, by decide⟩, Nat.ofDigitChars_nil]
  | cons c l ih =>
    obtain ⟨n, rfl⟩ : ∃ m, n = m + 1 := ⟨n - 1, by simp at hlen; omega⟩
    have hfirst : buf i = c.toUInt8 := hbuf 0
    obtain ⟨hdigit, hvalue⟩ := digit_bounds (hdigits c List.mem_cons_self)
    unfold decimalFrom
    rw [hfirst, if_pos hdigit, hvalue, Nat.ofDigitChars_cons]
    refine ih (fun d hd => hdigits d (List.mem_cons_of_mem _ hd)) _ (by simpa using hlen) (by omega)
      fun j => ?_
    rw [Nat.add_right_comm, Nat.add_assoc]
    exact hbuf (j + 1)

theorem cardVfs_sizeFile (size : Nat) : SizeFile (cardVfs size) size where
  opens := fun _ => ⟨3, rfl⟩
  length := fun _ _ => by
    show ((((sizeText size).drop 0).take 8).length : Int) = _
    rw [List.drop_zero, List.length_take]
  text := fun _ _ => by
    funext i
    show (if i < (((sizeText size).drop 0).take 8).length then
      cString (((sizeText size).drop 0).take 8) i else 0) = _
    rw [List.drop_zero]
    split
    · rfl
    · next hout =>
      unfold cString
      rw [List.getD_eq_default _ _ (by rw [List.length_map]; exact not_lt.mp hout)]
  converts := fun buf n hbuf hn => by
    have hlen : (Nat.toDigits 10 n).length < 24 :=
      Nat.lt_succ_of_le ((Nat.length_toDigits_le_iff (by decide) (by decide)).mpr (by omega))
    have hpos := Nat.length_toDigits_pos (b := 10) (n := n)
    have hdigits := fun c hc => Nat.isDigit_of_mem_toDigits (b := 10) (n := n) (c := c) (by decide)
      (by decide) hc
    show decimalFrom buf 24 0 0 = some n
    have hall : ∀ tail, tail = [] ∨ tail = ['\n'] → buf = cString (Nat.toDigits 10 n ++ tail) →
        decimalFrom buf 24 0 0 = some n := by
      rintro tail htail rfl
      rw [decimalFrom_digits htail (Nat.toDigits 10 n) hdigits 0 hlen (by omega)
        fun j => by rw [Nat.zero_add], Nat.ofDigitChars_ten_toDigits]
    rcases hbuf with hbuf | hbuf
    · exact hall [] (.inl rfl) (by rw [List.append_nil]; exact hbuf)
    · exact hall ['\n'] (.inr rfl) hbuf

theorem cardVfs_serves {size : Nat} (h : size < 100000000) : Serves (cardVfs size) size id where
  toReportsSize := by
    have hreports := (cardVfs_sizeFile size).reports
    rwa [shownSize_of_lt h] at hreports
  opensCard := fun _ => ⟨3, rfl⟩
  openKeeps := fun _ _ => rfl
  sizeKeeps := fun _ _ _ _ _ => rfl
  read := fun _ _ _ _ _ => ⟨rfl, fun _ hi => if_pos hi⟩
  write := fun _ _ _ _ _ => ⟨rfl, rfl⟩

theorem cardVfs_steady (size : Nat) : VfsSteady (cardVfs size) := by
  have hpos : ∀ (len : Nat) (pos : Int), (len : Int) ≤ 0 → pos + len = pos := by
    intro len pos h
    omega
  have htext : ∀ (len : Nat) (pos : Int),
      ((((sizeText size).drop pos.toNat).take len).length : Int) ≤ len := by
    intro len pos
    exact_mod_cast List.length_take_le _ _
  constructor
  · intro f buf len pos s
    rcases f with ⟨- | -, id⟩ | errno
    · exact htext len pos
    · exact le_rfl
    · exact htext len pos
  · intro f buf len pos s h
    rcases f with ⟨- | -, id⟩ | errno <;> exact hpos _ pos h
  · intro f buf len pos s
    rcases f with ⟨- | -, id⟩ | errno <;> exact le_rfl
  · intro f buf len pos s h
    rcases f with ⟨- | -, id⟩ | errno <;> exact hpos len pos h

theorem cardSize_twoGiga : CardSize 4194304 := ⟨by decide, by decide⟩

/-- A card of two gigabytes, empty, and a user's address limit. -/
def emptyCard : Kernel (Int → UInt8) := ⟨3221225472, [], fun _ => 0⟩

/-- At offset zero sixteen bytes are read back from the key store. -/
theorem hidden_roundtrip_zero :
    let r := mmcReadHidden (cardVfs 4194304) (fun _ => 0) 16 0 0
      (mmcWriteHidden (cardVfs 4194304) (fun _ => 1) 16 0 0 emptyCard).2
    r.1 = 0 ∧ ∀ i, i < 16 → r.2.1 i = 1 :=
  have h := hidden_roundtrip_iff (cardVfs_serves (by decide)) cardSize_twoGiga (fun _ => 1)
    (fun _ => 0) 16 0 0 emptyCard (by decide)
  h.1.mpr (h.2.mpr (.inl rfl) _ _)

/-- At offset one they are not. -/
theorem hidden_roundtrip_fails :
    (mmcWriteHidden (cardVfs 4194304) (fun _ => 1) 16 1 0 emptyCard).1 = 0 ∧
    (mmcReadHidden (cardVfs 4194304) (fun _ => 0) 16 1 0
      (mmcWriteHidden (cardVfs 4194304) (fun _ => 1) 16 1 0 emptyCard).2).2.1 0 = 0 := by
  decide

/-- The key store, filled from its first byte to its last, which lies in it. -/
theorem hidden_isolated_full :
    Accessed emptyCard
      (mmcWriteHidden (cardVfs 4194304) (fun _ => 1) 8388608 0 0 emptyCard).2 2147483135 ∧
    Isolated 4194304 0 2147483135 := by
  have hlast : Accessed emptyCard
      (mmcWriteHidden (cardVfs 4194304) (fun _ => 1) 8388608 0 0 emptyCard).2 2147483135 := by
    refine ⟨_, (List.append_nil _).symm, 3, 2139094528, 8388608, 8388608, ?_, ?_, ?_⟩
    · decide
    · decide
    · decide
  exact ⟨hlast, (hidden_isolated_iff (cardVfs_sizeFile 4194304) cardSize_twoGiga
    (cardVfs_steady 4194304) (fun _ => 1) 8388608 (by decide) rfl).2.mpr (.inr (by decide)) _ hlast⟩

/-- Two bytes written at the last offset of area 1 end in the key store, a
read at sector 16384 of the key store lies behind it, and on a card of
122142720 sectors what is written to the key store goes to normal data. -/
theorem hidden_overruns :
    (∃ a, Accessed emptyCard
        (mmcWriteHidden (cardVfs 4194304) (fun _ => 1) 2 838860799 1 emptyCard).2 a ∧
      InArea 4194304 0 a ∧ ¬ Isolated 4194304 1 a) ∧
    (∃ a, Accessed emptyCard
        (mmcReadHidden (cardVfs 4194304) (fun _ => 0) 1 16384 0 emptyCard).2.2 a ∧
      ¬ Isolated 4194304 0 a) ∧
    ∃ a, Accessed emptyCard
        (mmcWriteHidden (cardVfs 122142720) (fun _ => 1) 1 0 0 emptyCard).2 a ∧
      a < hiddenStart (122142720 - 1) 9 * 512 := by
  refine ⟨?_, ?_, ?_⟩
  · refine ⟨2139094528, ⟨_, (List.append_nil _).symm, 3, 2139094527, 2, 2, ?_, ?_, ?_⟩, ?_,
      fun h => ?_⟩
    · decide
    · decide
    · decide
    · exact ⟨by decide, by decide⟩
    · exact absurd h.inside.2 (by decide)
  · refine ⟨2147483136, ⟨_, (List.append_nil _).symm, 3, 2147483136, 1, 1, ?_, ?_, ?_⟩,
      fun h => ?_⟩
    · decide
    · decide
    · decide
    · exact absurd h.inside.2 (by decide)
  · refine ⟨6245318144, ⟨_, (List.append_nil _).symm, 3, 6245318144, 1, 1, ?_, ?_, ?_⟩, ?_⟩
    · decide
    · decide
    · decide
    · rw [hiddenStart_nine]
      decide

end CdPlayer
