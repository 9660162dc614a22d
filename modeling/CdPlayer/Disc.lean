/-
CdPlayer/Disc.lean

Scanning the stream of a disc.

After a seek the deck sends part of a sector and then the sectors of the
disc in order, from some sector near the address on.  `DiscFrom` says so of
a stream, and that the sync pattern marks the beginnings of sectors and
nothing else, before and after descrambling.

* `DiscFrom.approach`: the scan of a new stream finds its first sector.
* `DiscFrom.reach`: from a sector at or before the one wanted it comes to
  the one wanted.
* `DiscFrom.turnBack`: from a sector behind the one wanted it goes back to
  `TRY_READ`.
-/
import CdPlayer.Passing

namespace CdPlayer

open ByteStore Occurrence Run

variable {x : Nat → Nat → Stream} {c e N : Int} {env : Env} {codec : Codec}
variable {user : Nat → Nat → UInt8} {y : Stream} {p g j : Nat}
variable {startAddr n fuel : Nat} {s t u : Scan}

/-! ### Streams of a disc -/

/-- The sync pattern stands at `q`. -/
def Stream.SyncAt (y : Stream) (q : Int) : Prop := ∀ i : Nat, i < 12 → y (q + i) = pattern i

/-- The stream from the sector at `q` on, with that sector descrambled. -/
def Stream.looked (codec : Codec) (y : Stream) (q : Int) (i : Nat) : UInt8 :=
  if i < 2352 then descrambled codec (y.block q) i else y (q + i)

/-- `p` bytes of a partial sector, then the sectors of the disc from `g` on;
those from 100 minutes on have no address that a call could ask for. -/
structure DiscFrom (codec : Codec) (user : Nat → Nat → UInt8) (y : Stream) (p g : Nat) : Prop where
  short : p < 2352
  sync : ∀ j : Nat, y.SyncAt (p + 2352 * j)
  syncOnly : ∀ q, 0 ≤ q → y.SyncAt q → ∃ j : Nat, q = p + 2352 * j
  lookedOnly : ∀ j o : Nat, 0 < o → o < 2352 →
    ¬ ∀ i, i < 12 → y.looked codec (p + 2352 * j) (o + i) = pattern i
  sectors : ∀ j, g + j < 450000 →
    GoodSector codec (g + j) (user (g + j)) (y.block (p + 2352 * j))
  beyond : ∀ j, 450000 ≤ g + j →
    450000 ≤ headerFrame (descrambled codec (y.block (p + 2352 * j)))

/-- The header of a sector that can be asked for. -/
theorem DiscFrom.frame (h : DiscFrom codec user y p g) (hj : g + j < 450000) :
    headerFrame (descrambled codec (y.block (p + 2352 * j))) = g + j :=
  (h.sectors j hj).headerFrame hj

/-- No header is behind the sector. -/
theorem DiscFrom.le_frame (h : DiscFrom codec user y p g) {f : Nat} (hf : f ≤ 450000)
    (hj : f ≤ g + j) : f ≤ headerFrame (descrambled codec (y.block (p + 2352 * j))) := by
  by_cases hlt : g + j < 450000
  · rw [h.frame hlt]
    exact hj
  · exact hf.trans (h.beyond j (by omega))

/-! ### The chunk -/

/-- The sector found next is sector `j` of the stream. -/
structure AtSector (x : Nat → Nat → Stream) (c e : Int) (p j : Nat) (s : Scan) : Prop where
  scanning : Scanning x c e (p + 2352 * j - c) s
  label : s.label = .searchLbn
  dst : s.pdCDBuff ≤ s.psCDBuff

/-- The block of the chunk is the sector. -/
theorem AtSector.frameAt (codec : Codec) (h : AtSector x c e p j s)
    (hN : p + 2352 * j - c + 2352 ≤ e) :
    CdPlayer.frameAt codec s (p + 2352 * j - c) = headerFrame (descrambled codec
      ((x s.world.seeks s.world.seekMsf).block (p + 2352 * j))) := by
  unfold CdPlayer.frameAt
  congr 1
  refine descrambled_congr fun i hi => ?_
  rw [h.scanning.block hN i hi, show c + (p + 2352 * (j : Int) - c) = p + 2352 * j by ring]

theorem DiscFrom.syncAt (hd : DiscFrom codec user (x s.world.seeks s.world.seekMsf) p g)
    (h : AtSector x c e p j s) (hN : p + 2352 * j - c + 2352 ≤ e) :
    SyncAt s.world.cdChunkBuf (p + 2352 * j - c) := by
  intro i hi
  rw [h.scanning.raw _ (by omega) (by omega)]
  have hsync := hd.sync j i hi
  rwa [show c + (p + 2352 * (j : Int) - c + i) = p + 2352 * j + i by ring]

/-- A sync pattern in the raw part of the chunk begins a sector. -/
theorem DiscFrom.rawOnly (hd : DiscFrom codec user y p g) (chunk : Mem) {a b : Int}
    (hraw : ∀ i, b ≤ i → i < e → (chunk i).val = y (c + i)) (hb : b ≤ a) (ha : a + 12 ≤ e)
    (hc : 0 ≤ c + a) (hsync : SyncAt chunk a) : ∃ i : Nat, a = p + 2352 * i - c := by
  obtain ⟨i, hi⟩ := hd.syncOnly (c + a) hc fun i hi => by
    rw [add_assoc, ← hraw (a + i) (by omega) (by omega)]
    exact hsync i hi
  exact ⟨i, by omega⟩

/-- **After a sector has been looked at**, the sync patterns behind its start
still begin sectors. -/
theorem DiscFrom.lookedSync (hd : DiscFrom codec user (x s.world.seeks s.world.seekMsf) p g)
    (h : AtSector x c e p j s) (hN : p + 2352 * j - c + 2352 ≤ e) {a : Int}
    (hlow : p + 2352 * j - c < a) (hhigh : a + 12 ≤ e)
    (hbetween : ∀ i : Nat, a ≠ p + 2352 * i - c) :
    ¬ SyncAt (lookedChunk codec s.world.cdChunkBuf (p + 2352 * j - c)) a := by
  intro hsync
  by_cases hin : a < p + 2352 * j - c + 2352
  · -- within the descrambled block, perhaps reaching into the next sector
    obtain ⟨o, ho⟩ := Int.eq_ofNat_of_zero_le (show 0 ≤ a - (p + 2352 * j - c) by omega)
    refine hd.lookedOnly j o (by omega) (by omega) fun i hi => ?_
    rw [← hsync i hi, show a + (i : Int) = p + 2352 * j - c + ((o + i : Nat) : Int) by
      push_cast; omega]
    unfold Stream.looked
    split
    next hblock =>
      unfold lookedChunk
      rw [putBlock_offset _ _ _ hblock]
      have heq : blockAt s.world.cdChunkBuf (p + 2352 * j - c) = rawBytes
          ((x s.world.seeks s.world.seekMsf).block (p + 2352 * j)) := by
        funext k
        unfold blockAt rawBytes
        split
        next hk =>
          rw [h.scanning.raw _ (by omega) (by omega)]
          unfold Stream.block
          congr 1
          ring
        next => rfl
      rw [heq]
      unfold descrambled
      rw [if_pos hblock]
    next hblock =>
      rw [lookedChunk_after _ _ _ (by omega), h.scanning.raw _ (by omega) (by omega)]
      congr 1
      ring
  · obtain ⟨i, hi⟩ := hd.rawOnly (lookedChunk codec s.world.cdChunkBuf (p + 2352 * j - c))
      (c := c) (e := e) (a := a) (b := p + 2352 * j - c + 2352)
      (fun i h₁ h₂ => by
        rw [lookedChunk_after _ _ _ h₁]
        exact h.scanning.raw i (by omega) h₂)
      (by omega) hhigh (by omega) hsync
    exact hbetween i hi

/-! ### Coming to a sector -/

/-- The scan has come from `s` to `t` and has delivered nothing. -/
structure Along (x : Nat → Nat → Stream) (s t : Scan) : Prop where
  used : t.usedSectNum = s.usedSectNum
  dst : t.pdCDBuff = s.pdCDBuff
  frameRetry : t.frameRetry = s.frameRetry
  goMSF : t.goMSF = s.goMSF
  lastSector : t.world.gLastSector = s.world.gLastSector
  researchCnt : s.world.researchCnt ≤ t.world.researchCnt
  seeks : t.world.seeks = s.world.seeks
  seekMsf : t.world.seekMsf = s.world.seekMsf

theorem Along.refl (s : Scan) : Along x s s := ⟨rfl, rfl, rfl, rfl, rfl, le_rfl, rfl, rfl⟩

theorem Along.trans (h : Along x s t) (h' : Along x t u) : Along x s u :=
  ⟨h'.used.trans h.used, h'.dst.trans h.dst, h'.frameRetry.trans h.frameRetry,
    h'.goMSF.trans h.goMSF, h'.lastSector.trans h.lastSector,
    h.researchCnt.trans h'.researchCnt, h'.seeks.trans h.seeks, h'.seekMsf.trans h.seekMsf⟩

theorem Looked.along {m : Int} (h : Looked codec x N m s t) : Along x s t :=
  ⟨h.used, h.dst, h.frameRetry, h.goMSF, h.lastSector, by rw [h.researchCnt]; omega,
    h.steady.seeks, h.steady.seekMsf⟩

theorem Missed.along (h : Missed x s t) : Along x s t :=
  ⟨h.used, h.dst, h.frameRetry, h.goMSF, h.lastSector, h.researchCnt.ge, h.steady.seeks,
    h.steady.seekMsf⟩

/-- `d` sectors on, after a header has been looked at. -/
theorem DiscFrom.next (hd : DiscFrom codec user (x s.world.seeks s.world.seekMsf) p g)
    (h : AtSector x c e p j s) {d : Nat} {m : Int}
    (hlooked : Looked codec x (p + 2352 * j - c) m s t) (hlabel : t.label = .searchLbn)
    (hm : 4 ∣ m) (hpos : 0 < m) (hnear : 2352 * (d : Int) - 2340 ≤ m) (hbefore : m < 2352 * d)
    (hN : p + 2352 * ((j + d : Nat) : Int) - c + 2352 ≤ e) : AtSector x c e p (j + d) t := by
  push_cast at hN
  refine ⟨?_, hlabel, ?_⟩
  · push_cast
    refine hlooked.scanning h.scanning hm (by omega) (by omega) (by omega) (by omega)
      fun a h₁ h₂ => hd.lookedSync h (by omega) (by omega) (by omega) fun i hi => ?_
    -- no sector begins in between
    omega
  · have hdst := h.dst
    have hahead := h.scanning.ahead
    rw [hlooked.dst, hlooked.scan]
    omega

/-- **From a sector at or before the one wanted the scan comes to it.** -/
theorem DiscFrom.reach (henv : env.Obeys (Streams x)) (hkmalloc : ∀ w, (env w).kmalloc = true)
    (hd : DiscFrom codec user (x s.world.seeks s.world.seekMsf) p g)
    (h : AtSector x c e p j s) {k : Nat} (hk : g + j + k = startAddr + s.usedSectNum)
    (hlast : startAddr + s.usedSectNum < 450000) (hretry : 0 < s.frameRetry)
    (hN : p + 2352 * ((j + k : Nat) : Int) - c + 2352 ≤ e) :
    ∃ i ≤ k, AtSector x c e p (j + k) ((scanStep env codec fuel startAddr n)^[i] s) ∧
      Along x s ((scanStep env codec fuel startAddr n)^[i] s) := by
  induction k using Nat.strong_induction_on generalizing s j with
  | _ k ih =>
    rcases Nat.eq_zero_or_pos k with rfl | hpos
    · exact ⟨0, le_rfl, h, Along.refl s⟩
    · push_cast at hN
      have hsync := hd.syncAt h (by omega)
      have hframe := h.frameAt codec (by omega)
      rw [hd.frame (by omega)] at hframe
      have hstep : scanStep env codec fuel startAddr n s = searchLbnStep env codec startAddr n s :=
        scanStep_searchLbn env codec h.label
      by_cases hfar : g + j < s.goMSF
      · -- one sector on
        obtain ⟨hlooked, hlabel⟩ := h.scanning.under codec startAddr n henv hkmalloc (by omega)
          hsync
          (by omega) (by omega) hretry (by rw [hframe]; exact hfar)
        rw [← hstep] at hlooked hlabel
        have hnext := hd.next h hlooked hlabel (d := 1) (by decide) (by decide) (by decide)
          (by decide) (by push_cast; omega)
        have halong := hlooked.along
        generalize ht : scanStep env codec fuel startAddr n s = t at *
        rw [← halong.seeks, ← halong.seekMsf] at hd
        obtain ⟨i, hi, hat, halong'⟩ := ih (k - 1) (by omega) hd hnext
          (by rw [halong.used]; omega) (by rw [halong.used]; exact hlast)
          (by rw [halong.frameRetry]; exact hretry) (by push_cast [Nat.cast_sub hpos]; omega)
        rw [show j + 1 + (k - 1) = j + k by omega] at hat
        refine ⟨i + 1, by omega, ?_, ?_⟩
        · rw [Function.iterate_succ_apply, ht]
          exact hat
        · rw [Function.iterate_succ_apply, ht]
          exact halong.trans halong'
      · -- the rest in one go
        have hfetched := h.scanning.fetched
        have hbehind := h.scanning.behind
        obtain ⟨hlooked, hlabel⟩ := h.scanning.skip codec startAddr n henv hkmalloc (by omega) hsync
          (d := k) hpos (by rw [hframe]; exact hk) (by omega) hretry (by rw [hframe]; omega)
          (by omega)
        rw [← hstep] at hlooked hlabel
        have hnext := hd.next h hlooked hlabel (d := k) (by omega) (by omega) (by omega) (by omega)
          (by push_cast; omega)
        exact ⟨1, hpos, hnext, hlooked.along⟩

/-- The driver has lost its patience. -/
theorem DiscFrom.retryAt (henv : env.Obeys (Streams x)) (hkmalloc : ∀ w, (env w).kmalloc = true)
    (hd : DiscFrom codec user (x s.world.seeks s.world.seekMsf) p g)
    (h : AtSector x c e p j s) (hcnt : 5 ≤ s.world.researchCnt)
    (hover : startAddr + s.usedSectNum < g + j) (hlast : startAddr + s.usedSectNum < 450000)
    (hretry : 0 < s.frameRetry) (hN : p + 2352 * j - c + 2352 ≤ e) :
    Retried x s (scanStep env codec fuel startAddr n s) := by
  have hframe := h.frameAt codec hN
  have hle := hd.le_frame (f := startAddr + s.usedSectNum + 1) (by omega) hover
  rw [scanStep_searchLbn env codec h.label]
  exact h.scanning.retry codec startAddr n henv hkmalloc hN (hd.syncAt h hN) (by omega)
    (by rw [hframe]; omega) hretry hcnt

theorem Along.retried (h : Along x s t) (h' : Retried x t u) : Retried x s u :=
  ⟨h'.label, h'.used.trans h.used, h'.dst.trans h.dst, by rw [← h.frameRetry]; exact h'.frameRetry,
    h'.status, h'.lastSector.trans h.lastSector, h.researchCnt.trans h'.researchCnt,
    h'.seeks.trans h.seeks, h'.flowing⟩

/-- **From a sector behind the one wanted the scan goes back to `TRY_READ`**,
after `k` more headers at most. -/
theorem DiscFrom.turnBack (henv : env.Obeys (Streams x)) (hkmalloc : ∀ w, (env w).kmalloc = true)
    (hd : DiscFrom codec user (x s.world.seeks s.world.seekMsf) p g)
    (h : AtSector x c e p j s) {k : Nat} (hk : 5 - (k : Int) ≤ s.world.researchCnt)
    (hover : startAddr + s.usedSectNum < g + j) (hlast : startAddr + s.usedSectNum < 450000)
    (hretry : 0 < s.frameRetry)
    (hN : p + 2352 * ((j + k : Nat) : Int) - c + 2352 ≤ e) :
    ∃ i ≤ k + 1, Retried x s ((scanStep env codec fuel startAddr n)^[i] s) := by
  induction k generalizing s j with
  | zero =>
    exact ⟨1, le_rfl, hd.retryAt henv hkmalloc h (by omega) hover hlast hretry hN⟩
  | succ k ih =>
    push_cast at hN
    -- from the count of five on such a header sends the scan back; before, it is passed
    by_cases hcnt : 5 ≤ s.world.researchCnt
    · exact ⟨1, by omega, hd.retryAt henv hkmalloc h hcnt hover hlast hretry (by omega)⟩
    · have hframe := h.frameAt codec (by omega)
      have hle := hd.le_frame (f := startAddr + s.usedSectNum + 1) (by omega) hover
      obtain ⟨hlooked, hlabel⟩ := h.scanning.over codec startAddr n henv hkmalloc (by omega)
        (hd.syncAt h (by omega)) (by omega) (by rw [hframe]; omega) hretry (by omega)
      have hstep : scanStep env codec fuel startAddr n s = searchLbnStep env codec startAddr n s :=
        scanStep_searchLbn env codec h.label
      rw [← hstep] at hlooked hlabel
      have hnext := hd.next h hlooked hlabel (d := 1) (by decide) (by decide) (by decide)
        (by decide) (by push_cast; omega)
      have halong := hlooked.along
      have hcnt' := hlooked.researchCnt
      generalize ht : scanStep env codec fuel startAddr n s = t at *
      rw [← halong.seeks, ← halong.seekMsf] at hd
      -- one header less, and `researchCnt` one higher
      obtain ⟨i, hi, hret⟩ := ih hd hnext (by omega) (by rw [halong.used]; omega)
        (by rw [halong.used]; exact hlast) (by rw [halong.frameRetry]; exact hretry)
        (by push_cast; omega)
      refine ⟨i + 1, by omega, ?_⟩
      rw [Function.iterate_succ_apply, ht]
      exact halong.retried hret

/-! ### The beginning of a stream -/

/-- **The scan of a new stream finds its first sector**, with its first search
or, if too little of it fits, with its second. -/
theorem DiscFrom.approach (henv : env.Obeys (Streams x)) (hkmalloc : ∀ w, (env w).kmalloc = true)
    (hd : DiscFrom codec user (x s.world.seeks s.world.seekMsf) p g)
    (hflow : Flowing x s.world) (hpos : s.world.readerPos = 0) (hlabel : s.label = .searchLbn)
    (hps : s.psCDBuff = 0) (hpd : s.pdCDBuff = 0) (hkmp : 0 < s.kmpcnt)
    (hraw : ∀ a : Int, 0 ≤ a → a < e → (s.world.cdChunkBuf a).val
      = x s.world.seeks s.world.seekMsf a)
    (havail : e ≤ 4 * singleBufferDataAvailable s.world.sCDDIBuffer) (he : 4704 ≤ e) :
    ∃ i ≤ 1, AtSector x 0 e p 0 ((scanStep env codec fuel startAddr n)^[i] s) ∧
      Along x s ((scanStep env codec fuel startAddr n)^[i] s) := by
  have hshort := hd.short
  -- before the first sector there is no sync pattern
  have hlead : ∀ a : Int, 0 ≤ a → a < p → ¬ SyncAt s.world.cdChunkBuf a := by
    intro a h₀ h₁ hsync
    obtain ⟨i, hi⟩ := hd.rawOnly _ (c := 0) (e := e) (b := 0) (by simpa using hraw) h₀ (by omega)
      (by omega) hsync
    omega
  -- a search looks at 2352 bytes, so it finds a pattern that begins by 2340
  by_cases hnear : p ≤ 2340
  · have hat : AtSector x 0 e p 0 s :=
      ⟨⟨hflow, by omega, by omega, fun a h₀ h₁ => hlead a (by omega) (by omega),
        fun a h₀ h₁ => by rw [zero_add]; exact hraw a (by omega) h₁, by omega, by omega, by omega⟩,
        hlabel, by omega⟩
    exact ⟨0, Nat.zero_le 1, hat, Along.refl s⟩
  · -- the first search finds nothing and moves on by 2048
    have hmissed := searchLbnStep_missed codec startAddr n henv hkmalloc hflow hkmp (by omega)
      fun a h₀ h₁ => hlead a (by omega) (by omega)
    have hstep : scanStep env codec fuel startAddr n s = searchLbnStep env codec startAddr n s :=
      scanStep_searchLbn env codec hlabel
    rw [← hstep] at hmissed
    refine ⟨1, le_rfl, ?_, hmissed.along⟩
    change AtSector x 0 e p 0 (scanStep env codec fuel startAddr n s)
    generalize scanStep env codec fuel startAddr n s = t at hmissed
    have hscan := hmissed.scan
    have hreader := hmissed.steady.pos
    have hmore := hmissed.steady.avail
    refine ⟨⟨hmissed.steady.flowing, by omega, by omega, fun a h₀ h₁ => ?_, fun a h₀ h₁ => ?_,
      by omega, by omega, by omega⟩, hmissed.label, ?_⟩
    · rw [hmissed.chunk]
      exact hlead a (by omega) (by omega)
    · rw [hmissed.chunk, hmissed.steady.seeks, hmissed.steady.seekMsf, zero_add]
      exact hraw a (by omega) h₁
    · rw [hmissed.dst]
      omega

end CdPlayer
