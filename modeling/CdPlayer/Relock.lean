/-
CdPlayer/Relock.lean

Where the scan of a round (cdif_drv.c, `SEARCH_LBN`) finds its headers.

The window of `CD_KmpPatternSearch` is one sector long.  In a stream with
one sync pattern every 2352 bytes it therefore holds the start of exactly
one pattern, and the search fails only if that pattern straddles the end of
the window: for the eleven scan positions from which the next pattern is
2341 to 2351 bytes away.

A round may start at such a position.  It never comes to one again: whatever
the header says, the scan goes on 2048 bytes, 2352 bytes, or some sectors
less 16 bytes beyond a pattern (`HeaderEnds`), and from there the next one
is near.  `Locked` is the invariant, `header_search_relocks` the result.
-/
import CdPlayer.Passing

namespace CdPlayer

open ByteStore

/-! ### What a header leads to -/

/-- The counters of a round's failed searches are kept. -/
structure KeepsKmp (s t : Scan) : Prop where
  retry : t.kmpRetry = s.kmpRetry
  cnt : t.kmpcnt = s.kmpcnt

/-- How the scan goes on after it has looked at the header at its position.
`s` is the state in which the block has been descrambled. -/
inductive HeaderEnds (s t : Scan) : Prop
  /-- The round ends, and not for want of a header. -/
  | leaves (hlabel : t.label ≠ .searchLbn) (herror : t.label ≠ .returned kmpError)
      (hkeep : KeepsKmp s t)
  /-- A sector less 304 bytes, or some sectors less 16 bytes. -/
  | strides (d : Int) (hlabel : t.label = .searchLbn) (hscan : t.psCDBuff = s.psCDBuff + d)
      (hd : d = 2048 ∨ ∃ k : Int, 1 ≤ k ∧ d = 2352 * k - 16)
      (hchunk : t.world.cdChunkBuf = s.world.cdChunkBuf) (hdst : t.pdCDBuff = s.pdCDBuff)
      (hkeep : KeepsKmp s t)
  /-- The sector is delivered. -/
  | delivers (hlabel : t.label = .searchLbn) (hscan : t.psCDBuff = s.psCDBuff + 2352)
      (hchunk : ∀ a, s.psCDBuff + 2352 ≤ a → s.pdCDBuff + 2048 ≤ a →
        t.world.cdChunkBuf a = s.world.cdChunkBuf a)
      (hdst : t.pdCDBuff = s.pdCDBuff + 2048) (hkeep : KeepsKmp s t)

variable {env : Env} {codec : Codec} {startAddr n : Nat} {s t : Scan}

theorem headerEnds_returned {res : Int} (hres : res ≠ kmpError) :
    HeaderEnds s (s.goto (.returned res)) := by
  refine .leaves nofun ?_ ⟨rfl, rfl⟩
  intro heq
  injection heq with heq
  exact hres heq

/-- A turn in between does not matter. -/
theorem HeaderEnds.of_turn (env : Env) (h : HeaderEnds (s.onWorld (yield env)) t) :
    HeaderEnds s t := by
  have hchunk' := yield_cdChunkBuf env s.world
  cases h with
  | leaves hlabel herror hkeep => exact .leaves hlabel herror ⟨hkeep.retry, hkeep.cnt⟩
  | strides d hlabel hscan hd hchunk hdst hkeep =>
    exact .strides d hlabel hscan hd (hchunk.trans hchunk') hdst ⟨hkeep.retry, hkeep.cnt⟩
  | delivers hlabel hscan hchunk hdst hkeep =>
    refine .delivers hlabel hscan ?_ hdst ⟨hkeep.retry, hkeep.cnt⟩
    intro a ha ha'
    exact (hchunk a ha ha').trans (congrFun hchunk' a)

theorem headerEnds_retryFrame (secdiff : Int) : HeaderEnds s (s.retryFrame secdiff) := by
  obtain ⟨k, v, -, hsame⟩ := retryFrame_same secdiff s
  rw [hsame]
  exact .leaves nofun nofun ⟨rfl, rfl⟩

theorem headerEnds_move {d : Int} (hd : d = 2048 ∨ ∃ k : Int, 1 ≤ k ∧ d = 2352 * k - 16) :
    HeaderEnds s ((s.move env d).goto .searchLbn) :=
  .strides d rfl rfl hd (move_chunk d s) rfl ⟨rfl, rfl⟩

/-- A header that is not the one wanted. -/
theorem Unwanted.headerEnds (h : Unwanted env s t) : HeaderEnds s t := by
  have hturned : ∀ {u v : Scan}, Turned env s u → HeaderEnds u v → HeaderEnds s v := by
    rintro u v (rfl | rfl) hends
    · exact hends
    · exact hends.of_turn env
  cases h with
  | gaveUp res hres =>
    apply headerEnds_returned
    rcases hres with rfl | rfl <;> decide
  | again u hu _ secdiff => exact hturned hu (headerEnds_retryFrame secdiff)
  | passed u hu k hk =>
    apply hturned hu (headerEnds_move _)
    rcases hk with hk | ⟨m, hm, hk, -⟩
    · exact .inl hk
    · exact .inr ⟨m, hm, hk⟩

/-- The copy goes up to the sector's place among the user data. -/
theorem copyUp_outside (m : Mem) {d r : Int} (h : d ≤ r) (k : Nat) {a : Int}
    (ha : a < d ∨ d + k ≤ a) : copyUp m d r k a = m a := by
  rw [copyUp_eq_blit m h]
  exact blit_outside _ _ _ _ _ ha

theorem keepsKmp_correct (codec : Codec) (s : Scan) : KeepsKmp s (s.correct codec).2 := by
  unfold Scan.correct
  rcases codec.c3Decoder (blockAt s.world.cdChunkBuf s.psCDBuff) cdC3Cnt with ⟨res, blk⟩
  simp only
  split <;> exact ⟨rfl, rfl⟩

theorem keepsKmp_accept (env : Env) (startAddr : Nat) (raw : Nat → Cell) (lmode : UInt8)
    (s : Scan) : KeepsKmp s (s.accept env startAddr raw lmode) := by
  unfold Scan.accept Scan.move
  exact ⟨rfl, rfl⟩

theorem headerEnds_deliverStep (hdst : s.pdCDBuff ≤ s.psCDBuff) (raw : Nat → Cell)
    (lmode : UInt8) : HeaderEnds s (deliverStep env codec startAddr n raw lmode s) := by
  obtain ⟨-, hused, hdst', hps, -, -, hchunk⟩ := correct_spec codec s
  have hkeep := keepsKmp_correct codec s
  have hloc := dataLocation_bounds lmode
  rcases deliverStep_ways env codec startAddr n raw lmode s with ⟨-, hstep⟩ | ⟨-, hstep⟩
  · rw [hstep]
    exact .leaves nofun nofun ⟨hkeep.retry, hkeep.cnt⟩
  · rw [hstep]
    generalize (s.correct codec).2 = c at hused hdst' hps hchunk hkeep ⊢
    have haccept : ∀ a, s.psCDBuff + 2352 ≤ a → s.pdCDBuff + 2048 ≤ a →
        (c.accept env startAddr raw lmode).world.cdChunkBuf a = s.world.cdChunkBuf a := by
      intro a ha ha'
      rw [accept_chunk, copyUp_outside _ (by omega) _ (.inr (by omega)), hchunk]
      exact putBlock_outside _ _ _ (.inr ha)
    have hscan : (c.accept env startAddr raw lmode).psCDBuff = s.psCDBuff + 2352 :=
      congrArg (· + 2352) hps
    have hnext : (c.accept env startAddr raw lmode).pdCDBuff = s.pdCDBuff + 2048 :=
      congrArg (· + 2048) hdst'
    have hkeep' := keepsKmp_accept env startAddr raw lmode c
    generalize c.accept env startAddr raw lmode = u at haccept hscan hnext hkeep' ⊢
    split
    · exact .delivers rfl hscan haccept hnext
        ⟨hkeep'.retry.trans hkeep.retry, hkeep'.cnt.trans hkeep.cnt⟩
    · refine .leaves nofun ?_ ⟨hkeep'.retry.trans hkeep.retry, hkeep'.cnt.trans hkeep.cnt⟩
      exact fun heq => absurd (show userSectorSize = kmpError by injection heq) (by decide)

/-- **How the scan goes on after a header.** -/
theorem headerStep_ends (env : Env) (codec : Codec) (startAddr n : Nat)
    (hdst : s.pdCDBuff ≤ s.psCDBuff) :
    HeaderEnds (s.descramble codec) (headerStep env codec startAddr n s) := by
  have hdst' : (s.descramble codec).pdCDBuff ≤ (s.descramble codec).psCDBuff := hdst
  rcases headerStep_ways env codec startAddr n s with ⟨-, hstep⟩ | hother
  · rw [hstep]
    exact headerEnds_deliverStep hdst' _ _
  · exact hother.headerEnds

/-! ### One search -/

/-- What a search does. -/
inductive SearchStep (env : Env) (codec : Codec) (s t : Scan) : Prop
  | missed (hres : s.searchResult env < 0) (hcnt : 0 < s.kmpcnt) (hlabel : t.label = .searchLbn)
      (hscan : t.psCDBuff = s.psCDBuff + 2048)
      (hchunk : t.world.cdChunkBuf = s.world.cdChunkBuf) (hdst : t.pdCDBuff = s.pdCDBuff)
      (hretry : t.kmpRetry = s.kmpRetry)
  | lost (hres : s.searchResult env < 0) (hcnt : s.kmpcnt ≤ 0)
  /-- The stream is left by force. -/
  | forced (hres : 0 ≤ s.searchResult env) (hlabel : t.label = .returned cdForceStop)
      (hretry : t.kmpRetry = s.kmpRetry)
  | found (hres : 0 ≤ s.searchResult env) (d : Scan)
      (hscan : d.psCDBuff = s.psCDBuff + s.searchResult env) (hdst : d.pdCDBuff = s.pdCDBuff)
      (hchunk : d.world.cdChunkBuf
        = lookedChunk codec s.world.cdChunkBuf (s.psCDBuff + s.searchResult env))
      (hretry : d.kmpRetry = s.kmpRetry) (hends : HeaderEnds d t)

theorem searchLbnStep_search (env : Env) (codec : Codec) (startAddr n : Nat) (s : Scan)
    (hdst : s.pdCDBuff ≤ s.psCDBuff) :
    SearchStep env codec s (searchLbnStep env codec startAddr n s) := by
  have hturn : (s.searched env).world.cdChunkBuf = s.world.cdChunkBuf :=
    yield_cdChunkBuf env s.world
  have hways := searchLbnStep_ways env codec startAddr n s
  generalize searchLbnStep env codec startAddr n s = t at hways ⊢
  cases hways with
  | missed hres hcnt =>
    have hchunk : ((s.searched env).move env userSectorSize).world.cdChunkBuf
        = s.world.cdChunkBuf := (move_chunk _ _).trans hturn
    have hscan : ((s.searched env).move env userSectorSize).psCDBuff = s.psCDBuff + 2048 := rfl
    have hsame : ((s.searched env).move env userSectorSize).pdCDBuff = s.pdCDBuff := rfl
    have hretry : ((s.searched env).move env userSectorSize).kmpRetry = s.kmpRetry := rfl
    generalize (s.searched env).move env userSectorSize = u at hchunk hscan hsame hretry ⊢
    exact .missed hres hcnt rfl hscan hchunk hsame hretry
  | lost hres hcnt => exact .lost hres hcnt
  | forced hres => exact .forced hres rfl rfl
  | header hres =>
    -- the block at the pattern is looked at
    have hchunk : (s.atHeader env).world.cdChunkBuf = s.world.cdChunkBuf :=
      (yield_cdChunkBuf env _).trans ((move_chunk _ _).trans hturn)
    have hscan : (s.atHeader env).psCDBuff = s.psCDBuff + s.searchResult env := rfl
    have hsame : (s.atHeader env).pdCDBuff = s.pdCDBuff := rfl
    have hretry : (s.atHeader env).kmpRetry = s.kmpRetry := rfl
    generalize s.atHeader env = u at hchunk hscan hsame hretry ⊢
    refine .found hres (u.descramble codec) hscan hsame ?_ hretry
      (headerStep_ends env codec startAddr n (by omega))
    show lookedChunk codec u.world.cdChunkBuf u.psCDBuff = _
    rw [hchunk, hscan]

/-! ### The stream -/

/-- In the stream up to `hi` the pattern stands exactly at the positions
congruent to `a`, from `lo` on. -/
def SyncsAt (m : Mem) (a lo hi : Int) : Prop :=
  ∀ x, lo ≤ x → x + 12 ≤ hi → (SyncAt m x ↔ (x - a) % 2352 = 0)

/-- `Descramble_Sector` makes no pattern: within a sector that it has worked
on, none begins but at its start. -/
def DescramblesClean (codec : Codec) (m : Mem) (a lo hi : Int) : Prop :=
  ∀ p, lo ≤ p → p + 2352 ≤ hi → (p - a) % 2352 = 0 →
    ∀ x, p < x → x < p + 2352 → x + 12 ≤ hi → ¬ SyncAt (lookedChunk codec m p) x

theorem syncAt_congr {m m' : Mem} {x : Int} (h : ∀ y, x ≤ y → m' y = m y) :
    SyncAt m' x ↔ SyncAt m x := by
  constructor
  · intro hs j hj
    rw [← h (x + j) (by omega)]
    exact hs j hj
  · intro hs j hj
    rw [h (x + j) (by omega)]
    exact hs j hj

/-- What is behind the block does not matter for what is made of it. -/
theorem lookedChunk_congr (codec : Codec) {m m' : Mem} {p : Int} (h : ∀ y, p ≤ y → m' y = m y) :
    ∀ y, p ≤ y → lookedChunk codec m' p y = lookedChunk codec m p y := by
  intro y hy
  have hblock : blockAt m' p = blockAt m p := by
    funext i
    unfold blockAt
    rw [h (p + i) (by omega)]
  unfold lookedChunk
  rw [hblock]
  unfold putBlock mapBlock
  rw [h y hy]

/-! ### The invariant -/

/-- The distance from the scan pointer to the next pattern. -/
def Scan.toSync (a : Int) (s : Scan) : Int := (a - s.psCDBuff) % 2352

/-- The state at a search of the round that started with chunk `m`. -/
structure Locked (m : Mem) (a lo hi : Int) (s : Scan) : Prop where
  ahead : lo ≤ s.psCDBuff
  dst : s.pdCDBuff ≤ s.psCDBuff
  /-- From the next pattern on the stream is untouched. -/
  fresh : ∀ y, s.psCDBuff + s.toSync a ≤ y → s.world.cdChunkBuf y = m y
  syncs : s.psCDBuff + 2352 ≤ hi → SyncsAt s.world.cdChunkBuf a s.psCDBuff hi

section
variable {m : Mem} {a lo hi : Int}

theorem toSync_bounds (a : Int) (s : Scan) : 0 ≤ s.toSync a ∧ s.toSync a < 2352 ∧
    (s.psCDBuff + s.toSync a - a) % 2352 = 0 := by
  unfold Scan.toSync
  omega

/-- The next pattern is the first one ahead. -/
theorem toSync_first (a : Int) (s : Scan) {x : Int} (hx : s.psCDBuff ≤ x)
    (hx' : x < s.psCDBuff + s.toSync a) : (x - a) % 2352 ≠ 0 := by
  unfold Scan.toSync at hx'
  omega

/-- A search from which the next pattern is near finds it. -/
theorem Locked.hit (h : Locked m a lo hi s) (hkmalloc : ∀ w, (env w).kmalloc = true)
    (hin : s.psCDBuff + 2352 ≤ hi) (hnear : s.toSync a ≤ 2340) :
    s.searchResult env = s.toSync a := by
  obtain ⟨hnonneg, hlt, hcong⟩ := toSync_bounds a s
  have hsyncs := h.syncs hin
  have hsync : SyncAt s.world.cdChunkBuf (s.psCDBuff + s.toSync a) :=
    (hsyncs _ (by omega) (by omega)).mpr hcong
  have hkmp := kmp_of_sync (show s.psCDBuff ≤ s.psCDBuff + s.toSync a by omega) (by omega) hsync
    (fun x hx hx' hsync => toSync_first a s hx hx' ((hsyncs x hx (by omega)).mp hsync))
  have hbytes : (fun i : Nat => s.byte i)
      = fun i : Nat => (s.world.cdChunkBuf (s.psCDBuff + (i : Nat))).val := rfl
  unfold Scan.searchResult
  rw [hkmalloc, hbytes, hkmp]
  simp only
  omega

/-- A search from which it straddles the end of the window fails. -/
theorem Locked.miss (h : Locked m a lo hi s) (hkmalloc : ∀ w, (env w).kmalloc = true)
    (hin : s.psCDBuff + 2352 ≤ hi) (hfar : 2340 < s.toSync a) : s.searchResult env = -1 := by
  have hsyncs := h.syncs hin
  have hnone : ∀ x, s.psCDBuff ≤ x → x ≤ s.psCDBuff + 2340 → ¬ SyncAt s.world.cdChunkBuf x := by
    intro x hx hx' hsync
    exact toSync_first a s hx (by omega) ((hsyncs x hx (by omega)).mp hsync)
  have hkmp := kmp_of_noSync hnone
  have hbytes : (fun i : Nat => s.byte i)
      = fun i : Nat => (s.world.cdChunkBuf (s.psCDBuff + (i : Nat))).val := rfl
  unfold Scan.searchResult
  rw [hkmalloc, hbytes, hkmp]

/-- A search that succeeds lands on the first pattern ahead. -/
theorem Locked.lands (h : Locked m a lo hi s) (hkmalloc : ∀ w, (env w).kmalloc = true)
    (hin : s.psCDBuff + 2352 ≤ hi) (hfound : 0 ≤ s.searchResult env) :
    SyncAt s.world.cdChunkBuf (s.psCDBuff + s.searchResult env) ∧
    ∀ x, s.psCDBuff ≤ x → x < s.psCDBuff + s.searchResult env →
      ¬ SyncAt s.world.cdChunkBuf x := by
  obtain ⟨hnonneg, hlt, hcong⟩ := toSync_bounds a s
  have hsyncs := h.syncs hin
  have hto : s.toSync a ≤ 2340 := by
    by_contra hfar
    rw [h.miss hkmalloc hin (by omega)] at hfound
    omega
  rw [h.hit hkmalloc hin hto]
  constructor
  · exact (hsyncs _ (by omega) (by omega)).mpr hcong
  · intro x hx hx' hsync
    exact toSync_first a s hx hx' ((hsyncs x hx (by omega)).mp hsync)

/-- The scan has gone on by `d` bytes beyond the pattern at `p`, to where the
next one is near. -/
theorem Locked.next (h : Locked m a lo hi s) (hin : s.psCDBuff + 2352 ≤ hi)
    (hclean : DescramblesClean codec m a lo hi) {t : Scan} {p d : Int}
    (hp : p = s.psCDBuff + s.toSync a) (hscan : t.psCDBuff = p + d) (hdst : t.pdCDBuff ≤ p + d)
    (hd : 0 < d) (hnext : 2352 ≤ d + t.toSync a) (hnear : t.toSync a ≤ 2340)
    (hlooked : ∀ y, p + d ≤ y → y < p + 2352 →
      t.world.cdChunkBuf y = lookedChunk codec s.world.cdChunkBuf p y)
    (hafter : ∀ y, p + 2352 ≤ y → t.world.cdChunkBuf y = s.world.cdChunkBuf y) :
    Locked m a lo hi t ∧ t.toSync a ≤ 2340 := by
  obtain ⟨hnonneg, hlt, hcong⟩ := toSync_bounds a s
  have hahead := h.ahead
  refine ⟨⟨by omega, by rw [hscan]; exact hdst, ?_, ?_⟩, hnear⟩
  · -- fresh
    intro y hy
    rw [hafter y (by omega)]
    exact h.fresh y (by omega)
  · -- syncs
    intro hin' x hx hx'
    by_cases hfar : p + 2352 ≤ x
    · rw [syncAt_congr fun y hy => hafter y (by omega)]
      exact h.syncs hin x (by omega) hx'
    · -- within the block that has been descrambled
      have hsame : ∀ y, x ≤ y → t.world.cdChunkBuf y = lookedChunk codec m p y := by
        intro y hy
        have hfresh : ∀ y, p ≤ y → s.world.cdChunkBuf y = m y := by
          intro y hy
          exact h.fresh y (by omega)
        have hlook := lookedChunk_congr codec hfresh y (show p ≤ y by omega)
        by_cases hin'' : y < p + 2352
        · rw [hlooked y (by omega) hin'']
          exact hlook
        · rw [hafter y (by omega), ← lookedChunk_after codec s.world.cdChunkBuf p (by omega)]
          exact hlook
      constructor
      · intro hsync
        exact absurd ((syncAt_congr hsame).mp hsync)
          (hclean p (by omega) (by omega) (by rw [hp]; exact hcong) x (by omega) (by omega) hx')
      · intro hx''
        exfalso
        rw [hp] at hfar hscan
        omega

/-- **A step of the round.**  If it goes on, the next pattern is near. -/
theorem Locked.step (h : Locked m a lo hi s) (hkmalloc : ∀ w, (env w).kmalloc = true)
    (hclean : DescramblesClean codec m a lo hi) (hin : s.psCDBuff + 2352 ≤ hi)
    (hcnt : s.toSync a ≤ 2340 ∨ 0 < s.kmpcnt) (startAddr n : Nat) :
    (searchLbnStep env codec startAddr n s).kmpRetry = s.kmpRetry ∧
    (searchLbnStep env codec startAddr n s).label ≠ .returned kmpError ∧
    ((searchLbnStep env codec startAddr n s).label = .searchLbn →
      Locked m a lo hi (searchLbnStep env codec startAddr n s) ∧
        (searchLbnStep env codec startAddr n s).toSync a ≤ 2340) := by
  have hsearch := searchLbnStep_search env codec startAddr n s h.dst
  have hdst := h.dst
  obtain ⟨hnonneg, hlt, hcong⟩ := toSync_bounds a s
  generalize searchLbnStep env codec startAddr n s = t at hsearch ⊢
  cases hsearch with
  | missed hres _ hlabel hscan hchunk hdst' hretry =>
    refine ⟨hretry, by rw [hlabel]; nofun, fun _ => ?_⟩
    have hfar : 2340 < s.toSync a := by
      by_contra hnear
      rw [h.hit hkmalloc hin (by omega)] at hres
      omega
    have hto : t.toSync a = s.toSync a - 2048 := by
      unfold Scan.toSync at hfar ⊢
      rw [hscan]
      omega
    refine ⟨⟨?_, ?_, ?_, ?_⟩, by omega⟩
    · have hahead := h.ahead
      omega
    · omega
    · intro y hy
      rw [hchunk]
      exact h.fresh y (by omega)
    · intro _ x hx hx'
      rw [hchunk]
      exact h.syncs hin x (by omega) hx'
  | lost hres hcnt' =>
    have hnear : s.toSync a ≤ 2340 := by omega
    rw [h.hit hkmalloc hin hnear] at hres
    omega
  | forced _ hlabel hretry =>
    refine ⟨hretry, ?_, fun hl => ?_⟩
    · rw [hlabel]
      intro heq
      injection heq with heq
      exact absurd heq (by decide)
    · rw [hlabel] at hl
      cases hl
  | found hres d hscan hdst' hchunk hretry hends =>
    have hnear : s.toSync a ≤ 2340 := by
      by_contra hfar
      rw [h.miss hkmalloc hin (by omega)] at hres
      omega
    rw [h.hit hkmalloc hin hnear] at hscan hchunk
    generalize hp : s.psCDBuff + s.toSync a = p at hscan hchunk hcong
    have hafter : ∀ y, p + 2352 ≤ y → d.world.cdChunkBuf y = s.world.cdChunkBuf y := by
      intro y hy
      rw [hchunk]
      exact lookedChunk_after codec _ p hy
    cases hends with
    | leaves hlabel herror hkeep =>
      exact ⟨hkeep.retry.trans hretry, herror, fun hl => absurd hl hlabel⟩
    | strides k hlabel hscan' hk hchunk' hdst'' hkeep =>
      refine ⟨hkeep.retry.trans hretry, by rw [hlabel]; nofun, fun _ => ?_⟩
      -- 304 bytes or 16 bytes before a pattern
      have hto : t.toSync a = 304 ∧ k = 2048 ∨ t.toSync a = 16 ∧ 2336 ≤ k := by
        unfold Scan.toSync
        rw [hscan', hscan]
        rcases hk with rfl | ⟨j, hj, rfl⟩
        · omega
        · omega
      refine h.next hin hclean hp.symm (by rw [hscan', hscan]) (by omega) (by omega) (by omega)
        (by omega) (fun y _ _ => ?_) fun y hy => ?_
      · rw [hchunk', hchunk]
      · rw [hchunk']
        exact hafter y hy
    | delivers hlabel hscan' hchunk' hdst'' hkeep =>
      refine ⟨hkeep.retry.trans hretry, by rw [hlabel]; nofun, fun _ => ?_⟩
      have hto : t.toSync a = 0 := by
        unfold Scan.toSync
        rw [hscan', hscan]
        omega
      refine h.next hin hclean hp.symm (by rw [hscan', hscan]) (by omega) (by omega) (by omega)
        (by omega) (fun y hy hy' => absurd hy (by omega)) fun y hy => ?_
      rw [hchunk' y (by omega) (by omega)]
      exact hafter y hy

end

/-! ### The round -/

/-- The state at which a round begins to search: as `TRY_READ` leaves it after
a read that has succeeded. -/
structure SearchStart (s : Scan) : Prop where
  label : s.label = .searchLbn
  kmpcnt : s.kmpcnt = cdKmpRetryCnt
  scan : s.psCDBuff = s.pdCDBuff

/-- The chunk as the read has left it. -/
theorem SearchStart.locked (h : SearchStart s) {a hi : Int}
    (hsyncs : SyncsAt s.world.cdChunkBuf a s.psCDBuff hi) :
    Locked s.world.cdChunkBuf a s.psCDBuff hi s :=
  ⟨le_refl _, h.scan.ge, fun _ _ => rfl, fun _ => hsyncs⟩

/-- **The round keeps what it starts with.**  After the first search the next
pattern is always near. -/
theorem SearchStart.run (h : SearchStart s) {a hi : Int} {k : Nat} (fuel : Nat)
    (hkmalloc : ∀ w, (env w).kmalloc = true)
    (hsyncs : SyncsAt s.world.cdChunkBuf a s.psCDBuff hi)
    (hclean : DescramblesClean codec s.world.cdChunkBuf a s.psCDBuff hi)
    (hsearch : ∀ j ≤ k, ((scanStep env codec fuel startAddr n)^[j] s).label = .searchLbn)
    (hin : ∀ j ≤ k, ((scanStep env codec fuel startAddr n)^[j] s).psCDBuff + 2352 ≤ hi) :
    Locked s.world.cdChunkBuf a s.psCDBuff hi ((scanStep env codec fuel startAddr n)^[k] s) ∧
    ((scanStep env codec fuel startAddr n)^[k] s).kmpRetry = s.kmpRetry ∧
    (0 < k → ((scanStep env codec fuel startAddr n)^[k] s).toSync a ≤ 2340) := by
  induction k with
  | zero => exact ⟨h.locked hsyncs, rfl, fun hk => absurd hk (by omega)⟩
  | succ k ih =>
    obtain ⟨hlocked, hretry, hnear⟩ := ih (fun j hj => hsearch j (by omega))
      (fun j hj => hin j (by omega))
    have hlabel := hsearch k (by omega)
    have hlabel' := hsearch (k + 1) (le_refl _)
    have hin' := hin k (by omega)
    -- only the first search has nothing but the retry counter to rely on
    have hcnt : ((scanStep env codec fuel startAddr n)^[k] s).toSync a ≤ 2340 ∨
        0 < ((scanStep env codec fuel startAddr n)^[k] s).kmpcnt := by
      rcases Nat.eq_zero_or_pos k with rfl | hpos
      · right
        show 0 < s.kmpcnt
        rw [h.kmpcnt]
        decide
      · exact .inl (hnear hpos)
    rw [Function.iterate_succ_apply'] at hlabel' ⊢
    generalize (scanStep env codec fuel startAddr n)^[k] s = t at *
    rw [scanStep_searchLbn env codec hlabel] at hlabel' ⊢
    obtain ⟨hretry', -, hgo⟩ := hlocked.step hkmalloc hclean hin' hcnt startAddr n
    obtain ⟨hlocked', hnear'⟩ := hgo hlabel'
    exact ⟨hlocked', hretry'.trans hretry, fun _ => hnear'⟩

/-- **The header search of a round re-locks.**  The chunk that the read has
left has one pattern every 2352 bytes, at the positions congruent to `a`, up
to `hi`, and `Descramble_Sector` makes no other.  Whatever the headers say,
at every search of the round that stays below `hi`:

* only the first may fail, and the next finds a pattern;
* a search that succeeds lands on the first pattern ahead;
* the round does not end with `KMP_ERROR`, nor use up one of its retries. -/
theorem header_search_relocks (env : Env) (codec : Codec) (fuel startAddr n : Nat) (s : Scan)
    (hstart : SearchStart s) (hkmalloc : ∀ w, (env w).kmalloc = true) (a hi : Int)
    (hsyncs : SyncsAt s.world.cdChunkBuf a s.psCDBuff hi)
    (hclean : DescramblesClean codec s.world.cdChunkBuf a s.psCDBuff hi) (k : Nat)
    (hsearch : ∀ j ≤ k, ((scanStep env codec fuel startAddr n)^[j] s).label = .searchLbn)
    (hin : ∀ j ≤ k, ((scanStep env codec fuel startAddr n)^[j] s).psCDBuff + 2352 ≤ hi) :
    let t := (scanStep env codec fuel startAddr n)^[k] s
    let t' := (scanStep env codec fuel startAddr n)^[k + 1] s
    (t.searchResult env < 0 → k = 0) ∧
    (0 ≤ t.searchResult env →
      SyncAt t.world.cdChunkBuf (t.psCDBuff + t.searchResult env) ∧
      ∀ x, t.psCDBuff ≤ x → x < t.psCDBuff + t.searchResult env →
        ¬ SyncAt t.world.cdChunkBuf x) ∧
    t'.label ≠ .returned kmpError ∧
    t'.kmpRetry = s.kmpRetry := by
  intro t t'
  obtain ⟨hlocked, hretry, hnear⟩ := hstart.run fuel hkmalloc hsyncs hclean hsearch hin
  have hin' : t.psCDBuff + 2352 ≤ hi := hin k le_rfl
  have hlabel : t.label = .searchLbn := hsearch k le_rfl
  have ht' : t' = searchLbnStep env codec startAddr n t := by
    show (scanStep env codec fuel startAddr n)^[k + 1] s = _
    rw [Function.iterate_succ_apply', scanStep_searchLbn env codec hlabel]
  have hcnt : t.toSync a ≤ 2340 ∨ 0 < t.kmpcnt := by
    rcases Nat.eq_zero_or_pos k with rfl | hpos
    · right
      show 0 < s.kmpcnt
      rw [hstart.kmpcnt]
      decide
    · exact .inl (hnear hpos)
  obtain ⟨hretry', herror, -⟩ := hlocked.step hkmalloc hclean hin' hcnt startAddr n
  refine ⟨?_, hlocked.lands hkmalloc hin', ?_, ?_⟩
  · -- a failure is the first search's
    intro hfail
    by_contra hk
    have hhit : t.searchResult env = t.toSync a :=
      hlocked.hit hkmalloc hin' (hnear (by omega))
    have hnonneg := (toSync_bounds a t).1
    omega
  · rw [ht']
    exact herror
  · rw [ht']
    exact hretry'.trans hretry

/-! One pattern that the first window cuts off: the second search finds it. -/

/-- A chunk with one pattern, at 2345. -/
def lateSync : Mem := fun y =>
  if 2345 ≤ y ∧ y < 2357 then ⟨pattern (y - 2345).toNat, 0⟩ else ⟨1, 0⟩

theorem lateSync_syncAt (x : Int) : SyncAt lateSync x ↔ x = 2345 := by
  constructor
  · intro h
    have h₀ : (lateSync (x + (0 : Nat))).val = 0 := h 0 (by decide)
    have h₁ : (lateSync (x + (1 : Nat))).val = 255 := h 1 (by decide)
    have hval : ∀ y : Int, (lateSync y).val = 0 → y = 2345 ∨ y = 2356 := by
      intro y hy
      unfold lateSync at hy
      split at hy
      next hmem =>
        have hcases : ∀ i : Nat, i < 12 → pattern i = 0 → i = 0 ∨ i = 11 := by decide
        rcases hcases (y - 2345).toNat (by omega) hy with h | h
        · left; omega
        · right; omega
      next => exact absurd hy (by decide)
    rcases hval _ h₀ with h | h
    · omega
    · have hx : x = 2356 := by omega
      subst hx
      exact absurd h₁ (by decide)
  · rintro rfl j hj
    have hmem : (2345 : Int) ≤ 2345 + (j : Nat) ∧ (2345 : Int) + (j : Nat) < 2357 := by omega
    unfold lateSync
    rw [if_pos hmem, show ((2345 : Int) + (j : Nat) - 2345).toNat = j by omega]

/-- A round about to search it. -/
def lateScan : Scan := {
  label := .searchLbn, usedSectNum := 0, psCDBuff := 0, pdCDBuff := 0
  frameRetry := cdRetryCnt, c3Retry := cdC3Cnt, kmpRetry := cdKmpRetryCnt
  kmpcnt := cdKmpRetryCnt, goMSF := 144, readSize := 30576, trace := []
  world := { World.initial with cdChunkBuf := lateSync } }

theorem lateScan_syncs : SyncsAt lateScan.world.cdChunkBuf 2345 lateScan.psCDBuff 4400 := by
  intro x hx hx'
  have hpos : 0 ≤ x := hx
  show SyncAt lateSync x ↔ _
  rw [lateSync_syncAt]
  omega

theorem lateScan_next :
    let t := (scanStep (fun _ => .quiet) plainCodec 0 150 1)^[1] lateScan
    t.label = .searchLbn ∧ t.psCDBuff = 2048 := by
  have hstart : SearchStart lateScan := ⟨rfl, rfl, rfl⟩
  have hmiss : lateScan.searchResult (fun _ => .quiet) = -1 :=
    (hstart.locked lateScan_syncs).miss (fun _ => rfl) (by decide) (by decide)
  have hsearch := searchLbnStep_search (fun _ => .quiet) plainCodec 150 1 lateScan (le_refl _)
  have hstep : (scanStep (fun _ => .quiet) plainCodec 0 150 1)^[1] lateScan
      = searchLbnStep (fun _ => .quiet) plainCodec 150 1 lateScan := rfl
  intro t
  show t.label = _ ∧ _
  rw [show t = _ from hstep]
  cases hsearch with
  | missed _ _ hlabel hscan => exact ⟨hlabel, hscan⟩
  | lost _ hcnt => exact absurd hcnt (by decide)
  | forced hres => rw [hmiss] at hres; exact absurd hres (by decide)
  | found hres => rw [hmiss] at hres; exact absurd hres (by decide)

theorem header_search_relocks_late :
    let t := (scanStep (fun _ => .quiet) plainCodec 0 150 1)^[1] lateScan
    0 ≤ t.searchResult (fun _ => .quiet) ∧
    SyncAt t.world.cdChunkBuf (t.psCDBuff + t.searchResult (fun _ => .quiet)) := by
  intro t
  have hsearch : ∀ j ≤ 1, ((scanStep (fun _ => .quiet) plainCodec 0 150 1)^[j] lateScan).label
      = .searchLbn := by
    intro j hj
    obtain rfl | rfl : j = 0 ∨ j = 1 := by omega
    · rfl
    · exact lateScan_next.1
  have hin : ∀ j ≤ 1, ((scanStep (fun _ => .quiet) plainCodec 0 150 1)^[j] lateScan).psCDBuff
      + 2352 ≤ 4400 := by
    intro j hj
    obtain rfl | rfl : j = 0 ∨ j = 1 := by omega
    · decide
    · rw [lateScan_next.2]
      decide
  -- the sector at the pattern would end behind the stream
  have hclean : DescramblesClean plainCodec lateScan.world.cdChunkBuf 2345 lateScan.psCDBuff
      4400 := by
    intro p hp hp' hcong
    have hpos : 0 ≤ p := hp
    omega
  obtain ⟨hfail, hland, -⟩ := header_search_relocks (fun _ => .quiet) plainCodec 0 150 1 lateScan
    ⟨rfl, rfl, rfl⟩ (fun _ => rfl) 2345 4400 lateScan_syncs hclean 1 hsearch hin
  have hfound : 0 ≤ t.searchResult (fun _ => .quiet) :=
    not_lt.mp fun hneg => absurd (hfail hneg) (by decide)
  exact ⟨hfound, (hland hfound).1⟩

end CdPlayer
