/-
CdPlayer/Passage.lean

What the scan passes over, counted search by search.

A search that finds no pattern passes over the user data of a sector.  One
that finds a pattern passes over what lies before it, and then, by the
header, over nothing (the sector wanted), over the user data of a sector, or
over some sectors that are buffered.  `Passage.step` adds these up from the
results of the searches and the headers; it starts anew with every fetch,
and it counts the sectors that are delivered.

Neither the scan pointer nor the destination goes into the count.
`passageAt_counts` says that it is nevertheless the way that the scan
pointer has come since the last fetch, less the sectors delivered.
-/
import CdPlayer.Compaction

namespace CdPlayer

open Run

/-! ### The last fetch -/

/-- Where the last `CD_ReadData` has placed its bytes, and how many. -/
def lastFetch : List Access → Option (Int × Int)
  | [] => none
  | .fetch off size :: _ => some (off, size)
  | _ :: l => lastFetch l

/-- The sectors delivered since the last fetch. -/
def deliveredSince : List Access → Nat
  | [] => 0
  | .fetch _ _ :: _ => 0
  | .accepted _ _ :: l => deliveredSince l + 1
  | _ :: l => deliveredSince l

/-! ### The count -/

/-- The bytes passed over since the last fetch, and the sectors delivered since
the call began. -/
structure Passage where
  passed : Int
  delivered : Nat

/-- What is passed over beyond the header in `d` if the sector wanted is
`secdiff` sectors ahead: these sectors, less 16 bytes, if they are buffered
and the header is not before `goMSF`, and else the user data of one. -/
def Scan.ahead (env : Env) (secdiff : Int) (d : Scan) : Int :=
  let buffered := u32 (singleBufferDataAvailable (yield env d.world).sCDDIBuffer)
  if d.goMSF ≤ d.frame ∧ u32 secdiff ≤ buffered / cddaSampleSize then
    secdiff * cddaSectorSize - cdMoveSize
  else userSectorSize

/-- A header, descrambled. -/
def Passage.header (env : Env) (codec : Codec) (startAddr : Nat) (d : Scan) (p : Passage) :
    Passage :=
  if d.frame = u32 (startAddr + p.delivered : Nat) then
    -- it is read again if it cannot be corrected and a retry is left
    if (d.correct codec).1 < cdTrue ∧ 0 < (d.correct codec).2.c3Retry then p
    else { p with delivered := p.delivered + 1 }
  else if d.frame > u32 (startAddr + p.delivered : Nat) then
    { p with passed := p.passed + userSectorSize }
  else
    { p with passed := p.passed
        + d.ahead env (s32 ((startAddr + p.delivered : Nat) - (d.frame : Int))) }

/-- A search. -/
def Passage.search (env : Env) (codec : Codec) (startAddr : Nat) (s : Scan) (p : Passage) :
    Passage :=
  if s.searchResult env < 0 then { p with passed := p.passed + userSectorSize }
  else if (s.atHeader env).world.cdDevForceStop ≠ 0 then p
  else
    { p with passed := p.passed + s.searchResult env }.header env codec startAddr
      ((s.atHeader env).descramble codec)

/-- From one label to the next. -/
def Passage.step (env : Env) (codec : Codec) (startAddr : Nat) (s : Scan) (p : Passage) :
    Passage :=
  match s.label with
  | .tryRead => { p with passed := 0 }
  | .searchLbn => p.search env codec startAddr s
  | _ => p

/-- The count after `k` jumps of a call. -/
def passageAt (env : Env) (codec : Codec) (fuel startAddr n : Nat) (w : World) : Nat → Passage
  | 0 => ⟨0, 0⟩
  | k + 1 => (passageAt env codec fuel startAddr n w k).step env codec startAddr
      (scanAt env codec fuel startAddr n w k)

/-! ### A search -/

/-- From `s` to `t` the scan passes over `bytes` bytes and delivers `k`
sectors; how far it comes is of interest only if it searches on. -/
structure PassesOver (s t : Scan) (bytes : Int) (k : Nat) : Prop where
  used : t.usedSectNum = s.usedSectNum + k
  scan : t.label = .searchLbn → t.psCDBuff = s.psCDBuff + bytes + 2352 * k
  fetch : lastFetch t.trace = lastFetch s.trace
  count : deliveredSince t.trace = deliveredSince s.trace + k

variable {env : Env} {codec : Codec} {fuel startAddr n : Nat} {s t d : Scan} {bytes : Int} {k : Nat}

/-- After some bytes before. -/
theorem PassesOver.after (h : PassesOver d t bytes k) {before : Int}
    (hps : d.psCDBuff = s.psCDBuff + before) (hused : d.usedSectNum = s.usedSectNum)
    (hfetch : lastFetch d.trace = lastFetch s.trace)
    (hcount : deliveredSince d.trace = deliveredSince s.trace) :
    PassesOver s t (before + bytes) k where
  used := by rw [h.used, hused]
  scan := fun hlabel => by
    rw [h.scan hlabel, hps]
    omega
  fetch := h.fetch.trans hfetch
  count := by rw [h.count, hcount]

/-- The search is not gone on with. -/
theorem passesOver_left (bytes : Int) (hlabel : t.label ≠ .searchLbn)
    (hused : t.usedSectNum = s.usedSectNum) (htrace : t.trace = s.trace) :
    PassesOver s t bytes 0 :=
  ⟨hused, fun hl => absurd hl hlabel, by rw [htrace], by rw [htrace]; rfl⟩

theorem passesOver_retryFrame (bytes secdiff : Int) (s : Scan) :
    PassesOver s (s.retryFrame secdiff) bytes 0 := by
  obtain ⟨k, v, -, hsame⟩ := retryFrame_same secdiff s
  rw [hsame]
  exact passesOver_left bytes nofun rfl rfl

theorem passesOver_move (env : Env) (bytes : Int) (s : Scan) :
    PassesOver s ((s.move env bytes).goto .searchLbn) bytes 0 :=
  ⟨rfl, fun _ => (add_zero _).symm, rfl, rfl⟩

theorem passesOver_frameOverStep (env : Env) (secdiff : Int) (d : Scan) :
    PassesOver d (frameOverStep env secdiff d) userSectorSize 0 := by
  unfold frameOverStep
  split
  · exact passesOver_left _ nofun rfl rfl
  · split
    · exact passesOver_retryFrame _ secdiff d
    · exact passesOver_move env _ d

theorem passesOver_frameUnderStep (env : Env) (secdiff : Int) (d : Scan) :
    PassesOver d (frameUnderStep env d.frame secdiff d) (d.ahead env secdiff) 0 := by
  have hturned : ∀ {t : Scan} {bytes : Int}, PassesOver (d.onWorld (yield env)) t bytes 0 →
      PassesOver d t bytes 0 := fun h => ⟨h.used, h.scan, h.fetch, h.count⟩
  have hskip (hlate : ¬ d.frame < d.goMSF) (hnear : u32 (singleBufferDataAvailable
      (yield env d.world).sCDDIBuffer) / cddaSampleSize ≥ u32 secdiff) :
      d.ahead env secdiff = secdiff * cddaSectorSize - cdMoveSize :=
    if_pos ⟨not_lt.mp hlate, hnear⟩
  have hstep (hno : ¬ (d.goMSF ≤ d.frame ∧ u32 secdiff ≤ u32 (singleBufferDataAvailable
      (yield env d.world).sCDDIBuffer) / cddaSampleSize)) :
      d.ahead env secdiff = userSectorSize := if_neg hno
  generalize d.ahead env secdiff = bytes at hskip hstep
  unfold frameUnderStep
  split
  · exact passesOver_left _ nofun rfl rfl
  · simp only
    split
    next hearly =>
      rw [hstep fun h => absurd h.1 (not_le.mpr hearly)]
      exact hturned (passesOver_move env _ _)
    next hlate =>
      split
      next hnear =>
        rw [hskip hlate hnear]
        exact hturned (passesOver_move env _ _)
      next hfar =>
        split
        · exact hturned (passesOver_retryFrame _ secdiff _)
        · rw [hstep fun h => hfar h.2]
          exact hturned (passesOver_move env _ _)

/-- The sector wanted. -/
theorem passesOver_deliverStep (env : Env) (codec : Codec) (startAddr n : Nat) (raw : Nat → Cell)
    (lmode : UInt8) (d : Scan) :
    PassesOver d (deliverStep env codec startAddr n raw lmode d) 0
      (if (d.correct codec).1 < cdTrue ∧ 0 < (d.correct codec).2.c3Retry then 0 else 1) := by
  obtain ⟨-, hused, -, hps, -, htrace, -⟩ := correct_spec codec d
  have hways := deliverStep_ways env codec startAddr n raw lmode d
  generalize d.correct codec = r at *
  obtain ⟨res, c⟩ := r
  simp only at hused hps htrace hways ⊢
  have hfetch : lastFetch c.trace = lastFetch d.trace := by
    rw [htrace]
    rfl
  have hcount : deliveredSince c.trace = deliveredSince d.trace := by
    rw [htrace]
    rfl
  rcases hways with ⟨hretry, hstep⟩ | ⟨hdone, hstep⟩
  · rw [hstep, if_pos hretry]
    exact ⟨hused, nofun, hfetch, hcount⟩
  · rw [hstep, if_neg hdone]
    have hscan : (c.accept env startAddr raw lmode).psCDBuff = d.psCDBuff + 0 + 2352 * (1 : Nat) :=
      (congrArg (· + cddaSectorSize) hps).trans (by simp only [cddaSectorSize]; omega)
    exact ⟨congrArg (· + 1) hused, fun _ => hscan, hfetch, congrArg (· + 1) hcount⟩

/-- **A header adds what the count has for it.** -/
theorem passesOver_headerStep (env : Env) (codec : Codec) (startAddr n : Nat) {p : Passage}
    (hp : p.delivered = s.usedSectNum) :
    ∃ bytes k, PassesOver s (headerStep env codec startAddr n s) bytes k ∧
      p.header env codec startAddr (s.descramble codec)
        = ⟨p.passed + bytes, p.delivered + k⟩ := by
  have hdesc : ∀ {t : Scan} {bytes : Int} {k : Nat}, PassesOver (s.descramble codec) t bytes k →
      PassesOver s t bytes k := fun h => ⟨h.used, h.scan, h.fetch, h.count⟩
  have hused : (s.descramble codec).usedSectNum = s.usedSectNum := rfl
  unfold headerStep Passage.header
  simp only [hused, hp]
  generalize s.descramble codec = d at hdesc
  by_cases hwanted : d.frame = u32 (startAddr + s.usedSectNum : Nat)
  · rw [if_pos hwanted, if_pos hwanted]
    refine ⟨0, _, hdesc (passesOver_deliverStep env codec startAddr n _ _ d), ?_⟩
    rw [Int.add_zero]
    split
    · rw [Nat.add_zero, ← hp]
    · rfl
  · rw [if_neg hwanted, if_neg hwanted]
    split
    · exact ⟨_, 0, hdesc (passesOver_frameOverStep env _ d), by rw [Nat.add_zero, ← hp]⟩
    · exact ⟨_, 0, hdesc (passesOver_frameUnderStep env _ d), by rw [Nat.add_zero, ← hp]⟩

/-- **A search adds what the count has for it.** -/
theorem passesOver_searchLbnStep (env : Env) (codec : Codec) (startAddr n : Nat) {p : Passage}
    (hp : p.delivered = s.usedSectNum) :
    ∃ bytes k, PassesOver s (searchLbnStep env codec startAddr n s) bytes k ∧
      p.search env codec startAddr s = ⟨p.passed + bytes, p.delivered + k⟩ := by
  have hways := searchLbnStep_ways env codec startAddr n s
  unfold Passage.search
  generalize searchLbnStep env codec startAddr n s = t at hways ⊢
  cases hways with
  | missed hres hcnt =>
    rw [if_pos hres]
    exact ⟨userSectorSize, 0, ⟨rfl, fun _ => (add_zero _).symm, rfl, rfl⟩, rfl⟩
  | lost hres hcnt l hl =>
    rw [if_pos hres]
    refine ⟨userSectorSize, 0, ⟨rfl, fun hlabel => ?_, rfl, rfl⟩, rfl⟩
    have hl' : l = .searchLbn := hlabel
    rcases hl with ⟨rfl, -⟩ | rfl <;> cases hl'
  | forced hres hforce =>
    rw [if_neg (not_lt.mpr hres), if_pos hforce]
    refine ⟨0, 0, ⟨rfl, nofun, rfl, rfl⟩, ?_⟩
    rw [Int.add_zero]
    rfl
  | header hres hforce =>
    rw [if_neg (not_lt.mpr hres), if_neg (not_not.mpr hforce)]
    have hused : (s.atHeader env).usedSectNum = s.usedSectNum := rfl
    obtain ⟨bytes, k, hover, hcount⟩ := passesOver_headerStep env codec startAddr n
      (p := { p with passed := p.passed + s.searchResult env }) (s := s.atHeader env)
      (hp.trans hused.symm)
    refine ⟨s.searchResult env + bytes, k, hover.after rfl hused rfl rfl, hcount.trans ?_⟩
    rw [Int.add_assoc]

/-! ### Every jump -/

/-- The count is right: it is where the scan pointer has come to since the last
fetch, less what has been delivered. -/
structure Counts (s : Scan) (p : Passage) : Prop where
  delivered : p.delivered = s.usedSectNum
  passed : s.label = .searchLbn → ∃ off size, lastFetch s.trace = some (off, size) ∧
    s.psCDBuff = off + p.passed + 2352 * deliveredSince s.trace

variable {p : Passage}

theorem counts_tryReadStep (fuel startAddr n : Nat) (h : Counts s p) :
    Counts (tryReadStep env fuel startAddr n s) { p with passed := 0 } := by
  have hdelivered := h.delivered
  unfold tryReadStep
  simp only
  split
  · exact ⟨hdelivered, nofun⟩
  · split
    · exact ⟨hdelivered, nofun⟩
    · refine ⟨hdelivered, fun _ => ⟨_, _, rfl, ?_⟩⟩
      show s.pdCDBuff = s.pdCDBuff + 0 + 2352 * ((0 : Nat) : Int)
      omega

/-- **Every jump keeps the count right.** -/
theorem Counts.step (fuel n : Nat) (h : Counts s p) :
    Counts (scanStep env codec fuel startAddr n s) (p.step env codec startAddr s) := by
  unfold scanStep Passage.step
  rcases hl : s.label with - | - | res | -
  · exact counts_tryReadStep fuel startAddr n h
  · obtain ⟨off, size, hfetch, hps⟩ := h.passed hl
    obtain ⟨bytes, k, hover, hcount⟩ := passesOver_searchLbnStep env codec startAddr n h.delivered
    simp only
    rw [hcount]
    refine ⟨?_, fun hlabel => ⟨off, size, hover.fetch.trans hfetch, ?_⟩⟩
    · rw [hover.used, h.delivered]
    · rw [hover.scan hlabel, hover.count, hps]
      push_cast
      ring
  · exact h
  · exact h

/-- **The count is right at every jump of a call.** -/
theorem passageAt_counts (env : Env) (codec : Codec) (fuel startAddr n : Nat) (w : World)
    (k : Nat) :
    Counts (scanAt env codec fuel startAddr n w k) (passageAt env codec fuel startAddr n w k) := by
  induction k with
  | zero =>
    have henter : (enterScan env startAddr w).label ≠ .searchLbn ∧
        (enterScan env startAddr w).usedSectNum = 0 := by
      unfold enterScan
      simp only
      split
      · exact ⟨nofun, rfl⟩
      · exact ⟨nofun, rfl⟩
    exact ⟨henter.2.symm, fun hlabel => absurd hlabel henter.1⟩
  | succ k ih =>
    rw [scanAt_succ]
    exact ih.step fuel n

end CdPlayer
