/-
CdPlayer/Compaction.lean

`CD_DescrambleSector` delivers the sectors asked for, in place.

Nothing is assumed of the deck, the decoder or the success of reads.  The
invariant of the jumps is `Compacted`: the destination stands right behind
the sectors delivered so far, never ahead of the scan pointer, and each of
those sectors carries the header wanted (`Placed`).  A jump changes no byte
below the destination (`scanStep_keeps`), which makes what is delivered
final.

Main result: `cdDescrambleSector_compacts`.
-/
import CdPlayer.Buffering
import CdPlayer.Search

namespace CdPlayer

open ByteStore Run

variable {env : Env} {codec : Codec} {fuel startAddr n : Nat} {s : Scan}

/-! ### One jump -/

/-- From `TRY_READ`: the scan pointer goes back to the destination. -/
structure Fetches (s s' : Scan) : Prop where
  used : s'.usedSectNum = s.usedSectNum
  dst : s'.pdCDBuff = s.pdCDBuff
  below : ∀ a, a < s.pdCDBuff → s'.world.cdChunkBuf a = s.world.cdChunkBuf a
  scan : s'.label = .searchLbn → s'.psCDBuff = s.pdCDBuff
  label : ∀ res, s'.label = .returned res → res < 0
  trace : ∃ l, s'.trace = l ++ s.trace ∧ ∀ k blk, .accepted k blk ∉ l

theorem tryReadStep_fetches (env : Env) (fuel startAddr n : Nat) (s : Scan) :
    Fetches s (tryReadStep env fuel startAddr n s) := by
  have hread := (cdReadData_below env fuel
    (u32 ((startAddr + s.usedSectNum : Nat) + cdGetDiffValue))
    (u32 ((n : Int) - s.usedSectNum)) s.pdCDBuff s.world).1
  unfold tryReadStep
  simp only
  rcases hres : cdReadData env fuel _ _ s.pdCDBuff s.world with ⟨- | readSize, w⟩ <;>
    rw [hres] at hread
  · exact ⟨rfl, rfl, hread, nofun, nofun, [], rfl, fun _ _ => List.not_mem_nil⟩
  · simp only
    split
    next hneg =>
      refine ⟨rfl, rfl, hread, nofun, ?_, [], rfl, fun _ _ => List.not_mem_nil⟩
      intro res hl
      injection hl with hl
      have hne := cdReadData_ne_zero env hres
      omega
    next =>
      refine ⟨rfl, rfl, hread, fun _ => rfl, nofun, [.fetch s.pdCDBuff readSize], rfl, ?_⟩
      intro k blk hmem
      exact absurd (List.mem_singleton.mp hmem) nofun

/-! ### The copy -/

/-- The user data of a raw block: its data area after descrambling and
correction. -/
def userData (codec : Codec) (raw : Nat → Cell) (i : Nat) : UInt8 :=
  corrected codec raw ((dataLocation (descrambled codec raw 15)).toNat + i)

theorem dataLocation_cases (lmode : UInt8) :
    lmode = mode1 ∧ dataLocation lmode = 16 ∨ lmode ≠ mode1 ∧ dataLocation lmode = 24 := by
  unfold dataLocation
  by_cases h : lmode = mode1
  · exact .inl ⟨h, if_pos h⟩
  · exact .inr ⟨h, if_neg h⟩

theorem dataLocation_bounds (lmode : UInt8) :
    16 ≤ dataLocation lmode ∧ dataLocation lmode ≤ 24 := by
  rcases dataLocation_cases lmode with ⟨-, h⟩ | ⟨-, h⟩ <;> omega

/-- What a delivery leaves in the chunk: the user data at the destination;
below it, and from the new scan pointer on, nothing is changed. -/
theorem Delivers.chunk_spec {s' : Scan} {pos : Int} (h : Delivers codec startAddr n s s' pos)
    (hbehind : s.pdCDBuff ≤ s.psCDBuff) :
    (∀ i : Nat, i < 2048 → (s'.world.cdChunkBuf (s.pdCDBuff + i)).val
      = userData codec (fun i => s.world.cdChunkBuf (pos + i)) i) ∧
    (∀ a, a < s.pdCDBuff → s'.world.cdChunkBuf a = s.world.cdChunkBuf a) ∧
    ∀ a, s'.psCDBuff ≤ a → s'.world.cdChunkBuf a = s.world.cdChunkBuf a := by
  have hahead := h.ahead
  have hloc := dataLocation_bounds
    (descrambled codec (fun i => s.world.cdChunkBuf (pos + i)) 15)
  have hscan : s'.psCDBuff = pos + 2352 := h.scan
  rw [h.chunk]
  simp only
  -- the loop copies down, so that it is a plain block copy
  rw [copyUp_eq_blit _ (by omega)]
  refine ⟨fun i hi => ?_, fun a ha => ?_, fun a ha => ?_⟩
  · rw [blit_offset _ _ _ _ _ (by omega) (by omega)]
    unfold userData
    generalize dataLocation _ = loc at hloc ⊢
    obtain ⟨loc, rfl⟩ := Int.eq_ofNat_of_zero_le (show 0 ≤ loc by omega)
    rw [show pos + (loc : Int) + (i : Int) = pos + ((loc + i : Nat) : Int) by push_cast; omega,
      putBlock_offset _ _ _ (by omega)]
    rfl
  · rw [blit_outside _ _ _ _ _ (.inl ha), putBlock_outside _ _ _ (.inl (by omega))]
  · rw [blit_outside _ _ _ _ _ (.inr (by push_cast; omega)),
      putBlock_outside _ _ _ (.inr (by omega))]

/-! ### The invariant -/

/-- Sector `k` of the request stands at its place, from a block that was
accepted for it. -/
def Placed (codec : Codec) (startAddr k : Nat) (s : Scan) : Prop :=
  ∃ raw, .accepted k raw ∈ s.trace ∧
    headerFrame (descrambled codec raw) = u32 (startAddr + k : Nat) ∧
    ∀ i : Nat, i < 2048 → (s.world.cdChunkBuf (2048 * k + i)).val = userData codec raw i

/-- The state at a label. -/
structure Compacted (codec : Codec) (startAddr n : Nat) (s : Scan) : Prop where
  dst : s.pdCDBuff = 2048 * s.usedSectNum
  behind : s.label = .searchLbn → s.pdCDBuff ≤ s.psCDBuff
  placed : ∀ k < s.usedSectNum, Placed codec startAddr k s
  done : ∀ res, s.label = .returned res → res < 0 ∨ res = userSectorSize ∧ n ≤ s.usedSectNum

/-- What is below the destination stays placed. -/
theorem Placed.keep {k : Nat} {s' : Scan} (h : Placed codec startAddr k s) {d : Int}
    (hk : 2048 * ((k : Int) + 1) ≤ d)
    (hbelow : ∀ a, a < d → s'.world.cdChunkBuf a = s.world.cdChunkBuf a)
    (htrace : ∃ l, s'.trace = l ++ s.trace) : Placed codec startAddr k s' := by
  obtain ⟨raw, hmem, hheader, hdata⟩ := h
  obtain ⟨l, hl⟩ := htrace
  refine ⟨raw, by rw [hl]; exact List.mem_append_right _ hmem, hheader, fun i hi => ?_⟩
  rw [hbelow _ (by omega)]
  exact hdata i hi

theorem Compacted.fetches {s' : Scan} (h : Compacted codec startAddr n s) (hf : Fetches s s') :
    Compacted codec startAddr n s' where
  dst := by rw [hf.dst, hf.used]; exact h.dst
  behind := fun hl => by rw [hf.dst, hf.scan hl]
  placed := by
    intro k hk
    rw [hf.used] at hk
    obtain ⟨l, hl, -⟩ := hf.trace
    exact (h.placed k hk).keep (by rw [h.dst]; omega) hf.below ⟨l, hl⟩
  done := fun res hl => .inl (hf.label res hl)

theorem Compacted.passes {s' : Scan} (h : Compacted codec startAddr n s)
    (hlabel : s.label = .searchLbn) (hp : Passes s s') : Compacted codec startAddr n s' where
  dst := by rw [hp.dst, hp.used]; exact h.dst
  behind := fun hl => by rw [hp.dst]; exact (h.behind hlabel).trans (hp.scan hl)
  placed := by
    intro k hk
    have hdst := h.dst
    rw [hp.used] at hk
    obtain ⟨l, hl, -⟩ := hp.trace
    exact (h.placed k hk).keep (by omega)
      (fun a ha => hp.below a (lt_of_lt_of_le ha (h.behind hlabel))) ⟨l, hl⟩
  done := fun res hl => .inl (hp.label res hl)

theorem Compacted.delivers {s' : Scan} {pos : Int} (h : Compacted codec startAddr n s)
    (hlabel : s.label = .searchLbn) (hd : Delivers codec startAddr n s s' pos) :
    Compacted codec startAddr n s' := by
  obtain ⟨hdata, hbelow, -⟩ := hd.chunk_spec (h.behind hlabel)
  obtain ⟨l, hl, -⟩ := hd.trace
  have hdst := h.dst
  have hahead := hd.ahead
  have hbehind := h.behind hlabel
  refine ⟨?_, fun _ => ?_, fun k hk => ?_, fun res hret => ?_⟩
  · rw [hd.dst, hd.used, hdst]
    push_cast
    simp only [userSectorSize]
    omega
  · rw [hd.dst, hd.scan]
    simp only [userSectorSize, cddaSectorSize]
    omega
  · rw [hd.used] at hk
    -- the sectors delivered before are below what is written now
    rcases Nat.lt_succ_iff_lt_or_eq.mp hk with hk | rfl
    · exact (h.placed k hk).keep (by rw [hdst]; omega) hbelow ⟨_, hl⟩
    · refine ⟨_, by rw [hl]; exact List.mem_cons_self, hd.header, fun i hi => ?_⟩
      rw [← hdst]
      exact hdata i hi
  · have hl := hd.label
    rw [hret] at hl
    rw [hd.used]
    split at hl
    · exact absurd hl nofun
    next hlast =>
      injection hl with hl
      exact .inr ⟨hl, by omega⟩

/-- **What one jump keeps.** -/
theorem compacted_scanStep (s : Scan) (h : Compacted codec startAddr n s) :
    Compacted codec startAddr n (scanStep env codec fuel startAddr n s) := by
  unfold scanStep
  split
  next hl => exact h.fetches (tryReadStep_fetches env fuel startAddr n s)
  next hl =>
    rcases searchLbnStep_cases env codec startAddr n s hl with hp | ⟨pos, hd⟩
    · exact h.passes hl hp
    · exact h.delivers hl hd
  next => exact h

theorem compacted_enterScan (w : World) :
    Compacted codec startAddr n (enterScan env startAddr w) := by
  unfold enterScan
  simp only
  split
  · refine ⟨rfl, nofun, fun k hk => absurd hk (Nat.not_lt_zero k), fun res hl => .inl ?_⟩
    injection hl with hl
    rw [← hl]
    decide
  · exact ⟨rfl, nofun, fun k hk => absurd hk (Nat.not_lt_zero k), nofun⟩

/-- **What one jump leaves alone**: every byte below the destination, and if
it delivers a sector, every byte from the new scan pointer on. -/
theorem scanStep_keeps (env : Env) (fuel : Nat) (h : Compacted codec startAddr n s) :
    let s' := scanStep env codec fuel startAddr n s
    s.usedSectNum ≤ s'.usedSectNum ∧
    (∀ a, a < s.pdCDBuff → s'.world.cdChunkBuf a = s.world.cdChunkBuf a) ∧
    (s.usedSectNum < s'.usedSectNum → ∀ a, s'.psCDBuff ≤ a →
      s'.world.cdChunkBuf a = s.world.cdChunkBuf a) := by
  intro s'
  have hs' : s' = scanStep env codec fuel startAddr n s := rfl
  unfold scanStep at hs'
  split at hs'
  next hl =>
    have hf := tryReadStep_fetches env fuel startAddr n s
    rw [← hs'] at hf
    exact ⟨hf.used.ge, hf.below, fun hlt => absurd hf.used hlt.ne'⟩
  next hl =>
    have hcases := searchLbnStep_cases env codec startAddr n s hl
    rw [← hs'] at hcases
    have hbehind := h.behind hl
    rcases hcases with hp | ⟨pos, hd⟩
    · exact ⟨hp.used.ge, fun a ha => hp.below a (lt_of_lt_of_le ha hbehind),
        fun hlt => absurd hp.used hlt.ne'⟩
    · obtain ⟨-, hbelow, habove⟩ := hd.chunk_spec hbehind
      exact ⟨by rw [hd.used]; omega, hbelow, fun _ => habove⟩
  next => rw [hs']; exact ⟨le_rfl, fun _ _ => rfl, fun _ _ _ => rfl⟩

/-! ### A call -/

/-- The call after `k` jumps. -/
def scanAt (env : Env) (codec : Codec) (fuel startAddr n : Nat) (w : World) (k : Nat) : Scan :=
  (scanStep env codec fuel startAddr n)^[k] (enterScan env startAddr w)

theorem scanAt_succ (env : Env) (codec : Codec) (fuel startAddr n : Nat) (w : World) (k : Nat) :
    scanAt env codec fuel startAddr n w (k + 1)
      = scanStep env codec fuel startAddr n (scanAt env codec fuel startAddr n w k) :=
  Function.iterate_succ_apply' _ _ _

theorem compacted_scanAt (env : Env) (codec : Codec) (fuel startAddr n : Nat) (w : World)
    (k : Nat) :
    Compacted codec startAddr n (scanAt env codec fuel startAddr n w k) :=
  iterate_inv compacted_scanStep k (compacted_enterScan w)

/-- What has been placed is final. -/
theorem scanAt_frozen (w : World) (k : Nat) (a : Int) {m : Nat}
    (ha : a < 2048 * (scanAt env codec fuel startAddr n w k).usedSectNum) :
    (scanAt env codec fuel startAddr n w (k + m)).world.cdChunkBuf a
      = (scanAt env codec fuel startAddr n w k).world.cdChunkBuf a := by
  have hrun : (scanAt env codec fuel startAddr n w k).usedSectNum
        ≤ (scanAt env codec fuel startAddr n w (k + m)).usedSectNum ∧
      (scanAt env codec fuel startAddr n w (k + m)).world.cdChunkBuf a
        = (scanAt env codec fuel startAddr n w k).world.cdChunkBuf a := by
    induction m with
    | zero => exact ⟨le_rfl, rfl⟩
    | succ m ih =>
      have hinv := compacted_scanAt env codec fuel startAddr n w (k + m)
      obtain ⟨hused, hbelow, -⟩ := scanStep_keeps env fuel hinv
      rw [← scanAt_succ] at hused hbelow
      refine ⟨ih.1.trans hused, (hbelow a ?_).trans ih.2⟩
      have hdst := hinv.dst
      have hle := ih.1
      omega
  exact hrun.2

theorem label_of_result {res : Int} (h : s.result = some res) : s.label = .returned res := by
  unfold Scan.result at h
  split at h
  next r hl => rw [hl, Option.some.inj h]
  next => exact absurd h nofun

/-- **The sectors delivered are the ones asked for, and compaction in place
is safe.**  For every deck, every decoder and every pattern of reads: when
the call returns `SECTOR_SIZE`, each block of the chunk is the user data of
a raw block whose header is the address wanted; a block once placed is not
changed by any later jump; and a jump that copies changes no byte from the
scan pointer on. -/
theorem cdDescrambleSector_compacts (env : Env) (codec : Codec) (fuel startAddr n : Nat)
    (w : World) :
    (∀ k, (scanAt env codec fuel startAddr n w k).result = some userSectorSize →
      ∀ j < n, Placed codec startAddr j (scanAt env codec fuel startAddr n w k)) ∧
    (∀ k m : Nat, ∀ a : Int, a < 2048 * (scanAt env codec fuel startAddr n w k).usedSectNum →
      (scanAt env codec fuel startAddr n w (k + m)).world.cdChunkBuf a
        = (scanAt env codec fuel startAddr n w k).world.cdChunkBuf a) ∧
    ∀ k, (scanAt env codec fuel startAddr n w k).usedSectNum
        < (scanAt env codec fuel startAddr n w (k + 1)).usedSectNum →
      ∀ a, (scanAt env codec fuel startAddr n w (k + 1)).psCDBuff ≤ a →
        (scanAt env codec fuel startAddr n w (k + 1)).world.cdChunkBuf a
          = (scanAt env codec fuel startAddr n w k).world.cdChunkBuf a := by
  refine ⟨fun k hres j hj => ?_, fun k m a ha => scanAt_frozen w k a ha, fun k hlt a ha => ?_⟩
  · have hinv := compacted_scanAt env codec fuel startAddr n w k
    rcases hinv.done _ (label_of_result hres) with hneg | ⟨-, hused⟩
    · exact absurd hneg (by decide)
    · exact hinv.placed j (lt_of_lt_of_le hj hused)
  · have hkeeps := (scanStep_keeps env fuel
      (compacted_scanAt env codec fuel startAddr n w k)).2.2
    rw [← scanAt_succ] at hkeeps
    exact hkeeps hlt a ha

end CdPlayer
