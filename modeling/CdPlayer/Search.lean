/-
CdPlayer/Search.lean

One search for a header, from `SEARCH_LBN` to the next jump.

Whatever the bytes are, a search either passes (`Passes`: nothing is
delivered, and only bytes at or after the scan pointer may have been
rewritten) or it delivers (`Delivers`: the block it found carries the
header wanted, and its data area, corrected, stands at the destination).
Everything that is claimed for arbitrary deck contents follows from this
case distinction (`searchLbnStep_cases`).
-/
import CdPlayer.Runs

namespace CdPlayer

open ByteStore

/-! ### Blocks -/

/-- The bytes of a raw block as the decoder sees them. -/
def rawBytes (raw : Nat → Cell) : Nat → UInt8 := fun i => if i < 2352 then (raw i).val else 0

/-- The block after `Descramble_Sector`. -/
def descrambled (codec : Codec) (raw : Nat → Cell) : Nat → UInt8 :=
  fun i => if i < 2352 then codec.descrambleSector (rawBytes raw) i else 0

/-- The block after `C3_decoder`. -/
def corrected (codec : Codec) (raw : Nat → Cell) : Nat → UInt8 :=
  (codec.c3Decoder (descrambled codec raw) cdC3Cnt).2

/-- The frame number in the header of a descrambled block. -/
def headerFrame (blk : Nat → UInt8) : Nat :=
  cdBcdmsf2frame (packMsf (blk 12).toNat (blk 13).toNat (blk 14).toNat)

theorem putBlock_offset (m : Mem) (ps : Int) (blk : Nat → UInt8) {i : Nat} (h : i < 2352) :
    putBlock m ps blk (ps + i) = { m (ps + i) with val := blk i } := by
  unfold putBlock
  rw [mapBlock_offset _ _ _ _ (by omega) (by omega)]
  rfl

theorem putBlock_outside (m : Mem) (ps : Int) (blk : Nat → UInt8) {a : Int}
    (h : a < ps ∨ ps + 2352 ≤ a) : putBlock m ps blk a = m a :=
  mapBlock_outside _ _ _ _ (by push_cast; omega)

/-- A byte keeps its stamp. -/
theorem putBlock_tag (m : Mem) (ps : Int) (blk : Nat → UInt8) (a : Int) :
    (putBlock m ps blk a).tag = (m a).tag := by
  unfold putBlock mapBlock
  split <;> rfl

theorem putBlock_putBlock (m : Mem) (ps : Int) (blk blk' : Nat → UInt8) :
    putBlock (putBlock m ps blk) ps blk' = putBlock m ps blk' := by
  funext a
  unfold putBlock mapBlock
  split <;> rfl

theorem blockAt_putBlock (m : Mem) (ps : Int) (blk : Nat → UInt8) :
    blockAt (putBlock m ps blk) ps = fun i => if i < 2352 then blk i else 0 := by
  funext i
  unfold blockAt
  by_cases hi : i < 2352
  · rw [if_pos hi, if_pos hi, putBlock_offset _ _ _ hi]
  · rw [if_neg hi, if_neg hi]

/-! ### The two outcomes -/

/-- A search that delivers nothing. -/
structure Passes (s s' : Scan) : Prop where
  used : s'.usedSectNum = s.usedSectNum
  dst : s'.pdCDBuff = s.pdCDBuff
  below : ∀ a, a < s.psCDBuff → s'.world.cdChunkBuf a = s.world.cdChunkBuf a
  tags : ∀ a, (s'.world.cdChunkBuf a).tag = (s.world.cdChunkBuf a).tag
  scan : s'.label = .searchLbn → s.psCDBuff ≤ s'.psCDBuff
  label : ∀ res, s'.label = .returned res → res < 0
  trace : ∃ l, s'.trace = l ++ s.trace ∧ ∀ k blk, .accepted k blk ∉ l

/-- A search that delivers the block it found at `pos`. -/
structure Delivers (codec : Codec) (startAddr sectorSize : Nat) (s s' : Scan) (pos : Int) :
    Prop where
  ahead : s.psCDBuff ≤ pos
  used : s'.usedSectNum = s.usedSectNum + 1
  dst : s'.pdCDBuff = s.pdCDBuff + userSectorSize
  scan : s'.psCDBuff = pos + cddaSectorSize
  label : s'.label = if s.usedSectNum + 1 < sectorSize then .searchLbn
    else .returned userSectorSize
  trace : ∃ l, s'.trace
    = .accepted s.usedSectNum (fun i => s.world.cdChunkBuf (pos + i)) :: l ++ s.trace ∧
      ∀ k blk, .accepted k blk ∉ l
  header : headerFrame (descrambled codec fun i => s.world.cdChunkBuf (pos + i))
    = u32 (startAddr + s.usedSectNum : Nat)
  chunk : s'.world.cdChunkBuf
    = let m := putBlock s.world.cdChunkBuf pos
        (corrected codec fun i => s.world.cdChunkBuf (pos + i))
      copyUp m s.pdCDBuff
        (pos + dataLocation (descrambled codec (fun i => s.world.cdChunkBuf (pos + i)) 15)) 2048

variable {env : Env} {codec : Codec} {s s' t : Scan}

/-! ### Passing -/

theorem Passes.refl (s : Scan) (h : ∀ res, s.label = .returned res → res < 0) : Passes s s where
  used := rfl
  dst := rfl
  below := fun _ _ => rfl
  tags := fun _ => rfl
  scan := fun _ => le_rfl
  label := h
  trace := ⟨[], rfl, fun _ _ h => absurd h List.not_mem_nil⟩

/-- What changes neither chunk nor counters, and moves forward. -/
theorem Passes.next (h : Passes s s') (hscan : s.psCDBuff ≤ s'.psCDBuff)
    (hused : t.usedSectNum = s'.usedSectNum) (hdst : t.pdCDBuff = s'.pdCDBuff)
    (hchunk : t.world.cdChunkBuf = s'.world.cdChunkBuf) (htrace : t.trace = s'.trace)
    (hmove : t.label = .searchLbn → s'.psCDBuff ≤ t.psCDBuff)
    (hlabel : ∀ res, t.label = .returned res → res < 0) : Passes s t where
  used := hused.trans h.used
  dst := hdst.trans h.dst
  below := fun a ha => by rw [hchunk]; exact h.below a ha
  tags := fun a => by rw [hchunk]; exact h.tags a
  scan := fun hl => hscan.trans (hmove hl)
  label := hlabel
  trace := by rw [htrace]; exact h.trace

@[simp] theorem move_chunk (n : Int) (s : Scan) :
    (s.move env n).world.cdChunkBuf = s.world.cdChunkBuf := by
  change (updateReadPointer (n / 4) (yield env s.world)).cdChunkBuf = _
  exact yield_cdChunkBuf env s.world

@[simp] theorem move_psCDBuff (n : Int) (s : Scan) :
    (s.move env n).psCDBuff = s.psCDBuff + n := rfl

/-- A retry leaves the chunk as it is. -/
theorem Passes.retryFrame (h : Passes s s') (hscan : s.psCDBuff ≤ s'.psCDBuff) (secdiff : Int) :
    Passes s (s'.retryFrame secdiff) := by
  obtain ⟨k, v, -, hsame⟩ := retryFrame_same secdiff s'
  rw [hsame]
  exact h.next hscan rfl rfl rfl rfl nofun nofun

/-- A move within the search. -/
theorem Passes.move (h : Passes s s') (hscan : s.psCDBuff ≤ s'.psCDBuff) {n : Int} (hn : 0 ≤ n) :
    Passes s ((s'.move env n).goto .searchLbn) :=
  h.next hscan rfl rfl (move_chunk n s') rfl (fun _ => by simp; omega) nofun

theorem Passes.returned (h : Passes s s') (hscan : s.psCDBuff ≤ s'.psCDBuff) {res : Int}
    (hres : res < 0) : Passes s (s'.goto (.returned res)) :=
  h.next hscan rfl rfl rfl rfl nofun (fun r hl => by
    injection hl with hl
    exact hl ▸ hres)

theorem Turned.passes (ht : Turned env s' t) (h : Passes s s') (hscan : s.psCDBuff ≤ s'.psCDBuff) :
    Passes s t ∧ s.psCDBuff ≤ t.psCDBuff := by
  rcases ht with rfl | rfl
  · exact ⟨h, hscan⟩
  · refine ⟨?_, hscan⟩
    exact h.next hscan rfl rfl (yield_cdChunkBuf env s'.world) rfl (fun _ => le_rfl) h.label

/-- A header that is not the one wanted. -/
theorem Unwanted.passes (hother : Unwanted env s' t) (h : Passes s s')
    (hscan : s.psCDBuff ≤ s'.psCDBuff) : Passes s t := by
  cases hother with
  | gaveUp res hres =>
    refine h.returned hscan ?_
    rcases hres with rfl | rfl <;> decide
  | again t ht _ secdiff =>
    obtain ⟨hturned, hscan'⟩ := ht.passes h hscan
    exact hturned.retryFrame hscan' secdiff
  | passed t ht k hk =>
    obtain ⟨hturned, hscan'⟩ := ht.passes h hscan
    exact hturned.move hscan' hk.nonneg

/-! ### The search -/

theorem frame_eq_headerFrame (s : Scan) :
    s.frame = headerFrame (blockAt s.world.cdChunkBuf s.psCDBuff) := rfl

/-- The block under the scan pointer after `Descramble_Sector`. -/
theorem descramble_block (codec : Codec) (s : Scan) :
    blockAt (s.descramble codec).world.cdChunkBuf s.psCDBuff
      = descrambled codec fun i => s.world.cdChunkBuf (s.psCDBuff + i) :=
  blockAt_putBlock _ _ _

theorem Passes.descramble (h : Passes s s') (hscan : s.psCDBuff ≤ s'.psCDBuff) :
    Passes s (s'.descramble codec) where
  used := h.used
  dst := h.dst
  below := fun a ha => (putBlock_outside _ _ _ (by omega)).trans (h.below a ha)
  tags := fun a => (putBlock_tag _ _ _ _).trans (h.tags a)
  scan := h.scan
  label := h.label
  trace := by
    obtain ⟨l, hl, hno⟩ := h.trace
    refine ⟨.block s'.psCDBuff :: l, congrArg (List.cons _) hl, fun k blk hmem => ?_⟩
    rcases List.mem_cons.mp hmem with heq | hmem
    · exact absurd heq (by simp)
    · exact hno k blk hmem

/-- What `C3_decoder` leaves: the chunk with the block corrected, and a
retry spent if it could not be corrected. -/
theorem correct_spec (codec : Codec) (s : Scan) :
    (s.correct codec).1 = (codec.c3Decoder (blockAt s.world.cdChunkBuf s.psCDBuff) cdC3Cnt).1 ∧
    (s.correct codec).2.usedSectNum = s.usedSectNum ∧
    (s.correct codec).2.pdCDBuff = s.pdCDBuff ∧
    (s.correct codec).2.psCDBuff = s.psCDBuff ∧
    (s.correct codec).2.label = s.label ∧
    (s.correct codec).2.trace = .block s.psCDBuff :: s.trace ∧
    (s.correct codec).2.world.cdChunkBuf = putBlock s.world.cdChunkBuf s.psCDBuff
      (codec.c3Decoder (blockAt s.world.cdChunkBuf s.psCDBuff) cdC3Cnt).2 := by
  unfold Scan.correct
  rcases codec.c3Decoder (blockAt s.world.cdChunkBuf s.psCDBuff) cdC3Cnt with ⟨res, blk⟩
  simp only
  split <;> exact ⟨trivial, rfl, rfl, rfl, rfl, rfl, rfl⟩

/-- Correcting passes. -/
theorem Passes.correct (h : Passes s s') (hscan : s.psCDBuff ≤ s'.psCDBuff) :
    Passes s (s'.correct codec).2 := by
  obtain ⟨-, hused, hdst, hps, hlabel, htrace, hchunk⟩ := correct_spec codec s'
  refine ⟨hused.trans h.used, hdst.trans h.dst, fun a ha => ?_, fun a => ?_, fun hl => ?_,
    by rw [hlabel]; exact h.label, ?_⟩
  · rw [hchunk, putBlock_outside _ _ _ (by omega)]
    exact h.below a ha
  · rw [hchunk, putBlock_tag]
    exact h.tags a
  · rw [hps]
    exact hscan
  · obtain ⟨l, hl, hno⟩ := h.trace
    refine ⟨.block s'.psCDBuff :: l, by rw [htrace, hl]; rfl, fun k blk hmem => ?_⟩
    rcases List.mem_cons.mp hmem with heq | hmem
    · exact absurd heq (by simp)
    · exact hno k blk hmem

@[simp] theorem accept_chunk (startAddr : Nat) (raw : Nat → Cell) (lmode : UInt8) (s : Scan) :
    (s.accept env startAddr raw lmode).world.cdChunkBuf
      = copyUp s.world.cdChunkBuf s.pdCDBuff (s.psCDBuff + dataLocation lmode) 2048 := by
  change (yield env _).cdChunkBuf = _
  exact yield_cdChunkBuf env _

/-- Accepting the corrected block delivers. -/
theorem delivers_accept {startAddr : Nat} (sectorSize : Nat) {c : Scan} {pos : Int}
    (hahead : s.psCDBuff ≤ pos) (hused : c.usedSectNum = s.usedSectNum)
    (hdst : c.pdCDBuff = s.pdCDBuff) (hps : c.psCDBuff = pos)
    (htrace : ∃ l, c.trace = l ++ s.trace ∧ ∀ k blk, .accepted k blk ∉ l)
    (hheader : headerFrame (descrambled codec fun i => s.world.cdChunkBuf (pos + i))
      = u32 (startAddr + s.usedSectNum : Nat))
    (hchunk : c.world.cdChunkBuf = putBlock s.world.cdChunkBuf pos
      (corrected codec fun i => s.world.cdChunkBuf (pos + i))) :
    Delivers codec startAddr sectorSize s
      ((c.accept env startAddr (fun i => s.world.cdChunkBuf (pos + i))
        (descrambled codec (fun i => s.world.cdChunkBuf (pos + i)) 15)).goto
          (if c.usedSectNum + 1 < sectorSize then .searchLbn else .returned userSectorSize))
      pos where
  ahead := hahead
  used := congrArg (· + 1) hused
  dst := congrArg (· + userSectorSize) hdst
  scan := congrArg (· + cddaSectorSize) hps
  label := by
    rw [hused]
    rfl
  trace := by
    -- the copy and the delivery are the only entries besides those of the header
    obtain ⟨l, hl, hno⟩ := htrace
    refine ⟨.copy c.pdCDBuff (c.psCDBuff + dataLocation
      (descrambled codec (fun i => s.world.cdChunkBuf (pos + i)) 15)) :: l, ?_, ?_⟩
    · change .accepted c.usedSectNum _ :: .copy _ _ :: c.trace = _
      rw [hl, hused]
      rfl
    · intro k blk hmem
      rcases List.mem_cons.mp hmem with heq | hmem
      · exact absurd heq (by simp)
      · exact hno k blk hmem
  header := hheader
  chunk := by simp only [Scan.goto, accept_chunk, hchunk, hdst, hps]

/-- **The two outcomes of a header.** -/
theorem headerStep_cases (env : Env) (codec : Codec) (startAddr sectorSize : Nat) (h : Passes s s')
    (hscan : s.psCDBuff ≤ s'.psCDBuff)
    (hsame : s'.world.cdChunkBuf = s.world.cdChunkBuf) :
    Passes s (headerStep env codec startAddr sectorSize s') ∨
    Delivers codec startAddr sectorSize s (headerStep env codec startAddr sectorSize s')
      s'.psCDBuff := by
  have hdesc : Passes s (s'.descramble codec) := h.descramble hscan
  have hblock := descramble_block codec s'
  have hps : (s'.descramble codec).psCDBuff = s'.psCDBuff := rfl
  have hchunk : (s'.descramble codec).world.cdChunkBuf
      = putBlock s'.world.cdChunkBuf s'.psCDBuff
        (codec.descrambleSector (blockAt s'.world.cdChunkBuf s'.psCDBuff)) := rfl
  have hways := headerStep_ways env codec startAddr sectorSize s'
  simp only [hsame] at hblock hchunk hways
  generalize s'.descramble codec = d at *
  rcases hways with ⟨hwanted, hstep⟩ | hother
  · -- the sector wanted
    have hframe : d.frame = headerFrame
        (descrambled codec fun i => s.world.cdChunkBuf (s'.psCDBuff + i)) := by
      rw [frame_eq_headerFrame, hps, hblock]
    have hmode : d.byte modeLoca
        = descrambled codec (fun i => s.world.cdChunkBuf (s'.psCDBuff + i)) 15 := by
      rw [← hblock, ← hps]
      rfl
    have hcorr : Passes s (d.correct codec).2 := hdesc.correct (by rw [hps]; exact hscan)
    obtain ⟨-, -, -, hps', -, -, hchunk'⟩ := correct_spec codec d
    rw [hstep, hmode]
    rcases deliverStep_ways env codec startAddr sectorSize _ _ d with ⟨-, hstep'⟩ | ⟨-, hstep'⟩
    · -- it cannot be corrected, and it is read again
      rw [hstep']
      exact .inl (hcorr.next (by rw [hps', hps]; exact hscan) rfl rfl rfl rfl nofun nofun)
    · rw [hstep']
      refine .inr (delivers_accept sectorSize hscan hcorr.used hcorr.dst (hps'.trans hps)
        hcorr.trace ?_ ?_)
      · rw [← hframe, hwanted, h.used]
      · rw [hchunk', hps, hblock, hchunk, putBlock_putBlock]
        rfl
  · -- another sector
    exact .inl (hother.passes hdesc (by rw [hps]; exact hscan))

/-- The search itself. -/
theorem passes_searched (env : Env) (hlabel : s.label = .searchLbn) :
    Passes s (s.searched env) := by
  have hturn : Passes s (s.onWorld (yield env)) :=
    (Passes.refl s (by rw [hlabel]; nofun)).next le_rfl rfl rfl (yield_cdChunkBuf env s.world) rfl
      (fun _ => le_rfl) (by simp [hlabel])
  exact ⟨hturn.used, hturn.dst, hturn.below, hturn.tags, hturn.scan, hturn.label,
    [.search s.psCDBuff _], rfl, fun k blk hmem => absurd (List.mem_singleton.mp hmem) (by simp)⟩

/-- And the way to the header that it finds. -/
theorem passes_atHeader (hlabel : s.label = .searchLbn) (hres : 0 ≤ s.searchResult env) :
    Passes s (s.atHeader env) ∧ s.psCDBuff ≤ (s.atHeader env).psCDBuff ∧
      (s.atHeader env).world.cdChunkBuf = s.world.cdChunkBuf := by
  have hsearched := passes_searched env hlabel
  have hscan : s.psCDBuff ≤ (s.atHeader env).psCDBuff := Int.le_add_of_nonneg_right hres
  have hmoved : (s.atHeader env).world.cdChunkBuf = (s.searched env).world.cdChunkBuf :=
    (yield_cdChunkBuf env _).trans (move_chunk _ (s.searched env))
  refine ⟨hsearched.next le_rfl rfl rfl hmoved rfl (fun _ => hscan) ?_, hscan,
    hmoved.trans (yield_cdChunkBuf env s.world)⟩
  change ∀ res, s.label = .returned res → res < 0
  rw [hlabel]
  nofun

/-- **The two outcomes of a search.** -/
theorem searchLbnStep_cases (env : Env) (codec : Codec) (startAddr sectorSize : Nat) (s : Scan)
    (hlabel : s.label = .searchLbn) :
    Passes s (searchLbnStep env codec startAddr sectorSize s) ∨
    ∃ pos, Delivers codec startAddr sectorSize s
      (searchLbnStep env codec startAddr sectorSize s) pos := by
  have hsearched := passes_searched env hlabel
  have hways := searchLbnStep_ways env codec startAddr sectorSize s
  generalize searchLbnStep env codec startAddr sectorSize s = t at hways ⊢
  cases hways with
  | missed hres hcnt =>
    refine .inl (hsearched.next le_rfl rfl rfl (move_chunk _ (s.searched env)) rfl (fun _ => ?_)
      nofun)
    exact Int.le_add_of_nonneg_right (by decide)
  | lost hres hcnt l hl =>
    have hstop : Passes s ({ s.searched env with kmpRetry := s.kmpRetry - 1 }.onWorld
        (cdSetBufferStatus .stop)) :=
      hsearched.next le_rfl rfl rfl rfl rfl (fun _ => le_rfl) hsearched.label
    rcases hl with ⟨rfl, -⟩ | rfl
    · exact .inl (hstop.next le_rfl rfl rfl rfl rfl nofun nofun)
    · exact .inl (hstop.returned le_rfl (by decide))
  | forced hres =>
    obtain ⟨hheader, hscan, -⟩ := passes_atHeader hlabel hres
    exact .inl (hheader.returned hscan (by decide))
  | header hres =>
    obtain ⟨hheader, hscan, hchunk⟩ := passes_atHeader hlabel hres
    exact (headerStep_cases env codec startAddr sectorSize hheader hscan hchunk).imp_right
      fun h => ⟨_, h⟩

end CdPlayer
