/-
CdPlayer/Overrun.lean

A disc that is landed on too early.

A header before `goMSF` sends the scan 2048 bytes on, and nothing counts how
often.  If the stream begins so early that no sector of the fetch reaches
`goMSF`, the scan passes over all of them and goes on searching behind the
data that it was given (`Loaded.leaves_data`).  `scanAt_in_data` says when
it does not come to that.
-/
import CdPlayer.Budget
import CdPlayer.Reads

namespace CdPlayer

open ByteStore Occurrence Run

variable {x : Nat → Nat → Stream} {env : Env} {codec : Codec}
variable {user : Nat → Nat → UInt8} {p g j : Nat} {c e : Int}
variable {startAddr n fuel : Nat} {s t u : Scan}

/-! ### What a search adds to the trace -/

/-- Accesses have been added to the trace, but no fetch. -/
def KeepsFetch (s t : Scan) : Prop :=
  ∃ l, t.trace = l ++ s.trace ∧ ∀ off size, Access.fetch off size ∉ l

theorem KeepsFetch.same (h : t.trace = s.trace) : KeepsFetch s t :=
  ⟨[], h, fun _ _ => List.not_mem_nil⟩

theorem KeepsFetch.trans (h : KeepsFetch s t) (h' : KeepsFetch t u) : KeepsFetch s u := by
  obtain ⟨l, hl, hno⟩ := h
  obtain ⟨l', hl', hno'⟩ := h'
  refine ⟨l' ++ l, by rw [hl', hl, List.append_assoc], fun off size hmem => ?_⟩
  rcases List.mem_append.mp hmem with hmem | hmem
  · exact hno' off size hmem
  · exact hno off size hmem

/-- An access that is no fetch. -/
theorem KeepsFetch.cons {a : Access} (h : KeepsFetch s t) (ha : ∀ off size, a ≠ .fetch off size)
    (htrace : u.trace = a :: t.trace) : KeepsFetch s u := by
  obtain ⟨l, hl, hno⟩ := h
  refine ⟨a :: l, by rw [htrace, hl]; rfl, fun off size hmem => ?_⟩
  rcases List.mem_cons.mp hmem with heq | hmem
  · exact ha off size heq.symm
  · exact hno off size hmem

theorem KeepsFetch.lastFetch (h : KeepsFetch s t) : lastFetch t.trace = lastFetch s.trace := by
  obtain ⟨l, hl, hno⟩ := h
  rw [hl]
  clear hl
  induction l with
  | nil => rfl
  | cons a l ih =>
    have hrest := ih fun off size hmem => hno off size (List.mem_cons_of_mem a hmem)
    cases a with
    | fetch off size => exact absurd List.mem_cons_self (hno off size)
    | _ => exact hrest

theorem keepsFetch_retryFrame (secdiff : Int) (s : Scan) : KeepsFetch s (s.retryFrame secdiff) := by
  obtain ⟨k, v, -, hsame⟩ := retryFrame_same secdiff s
  rw [hsame]
  exact .same rfl

/-- A header that is not the one wanted. -/
theorem Unwanted.keepsFetch (h : Unwanted env s t) : KeepsFetch s t := by
  have hturned : ∀ {u : Scan}, Turned env s u → KeepsFetch s u := by
    rintro u (rfl | rfl) <;> exact .same rfl
  cases h with
  | gaveUp => exact .same rfl
  | again u hu _ secdiff => exact (hturned hu).trans (keepsFetch_retryFrame secdiff u)
  | passed u hu => exact (hturned hu).trans (.same rfl)

theorem keepsFetch_headerStep (env : Env) (codec : Codec) (startAddr n : Nat) (s : Scan) :
    KeepsFetch s (headerStep env codec startAddr n s) := by
  have hblock : KeepsFetch s (s.descramble codec) :=
    .cons (.same rfl) (a := .block s.psCDBuff) nofun rfl
  rcases headerStep_ways env codec startAddr n s with ⟨-, hstep⟩ | hother
  · rw [hstep]
    generalize s.descramble codec = d at hblock
    have hcorrect : KeepsFetch s (d.correct codec).2 :=
      hblock.cons (a := .block d.psCDBuff) nofun (correct_spec codec d).2.2.2.2.2.1
    rcases deliverStep_ways env codec startAddr n _ _ d with ⟨-, hstep'⟩ | ⟨-, hstep'⟩
    · rw [hstep']
      exact hcorrect.trans (.same rfl)
    · rw [hstep']
      generalize (d.correct codec).2 = c at hcorrect
      have haccept : ∀ raw lmode, KeepsFetch s (c.accept env startAddr raw lmode) := by
        intro raw lmode
        have hcopy : KeepsFetch s (c.log (.copy c.pdCDBuff (c.psCDBuff + dataLocation lmode))) :=
          hcorrect.cons (a := .copy c.pdCDBuff (c.psCDBuff + dataLocation lmode)) nofun rfl
        exact hcopy.cons (a := .accepted c.usedSectNum raw) nofun rfl
      exact (haccept _ _).trans (.same rfl)
  · exact hblock.trans hother.keepsFetch

/-- **A search is in the trace**, and what follows it is no fetch. -/
theorem searchLbnStep_trace (env : Env) (codec : Codec) (startAddr n : Nat) (s : Scan) :
    KeepsFetch (s.log (.search s.psCDBuff (s.searchRead env)))
      (searchLbnStep env codec startAddr n s) := by
  have hways := searchLbnStep_ways env codec startAddr n s
  generalize searchLbnStep env codec startAddr n s = t at hways ⊢
  cases hways with
  | missed => exact .same rfl
  | lost => exact .same rfl
  | forced => exact .same rfl
  | header =>
    refine KeepsFetch.trans ?_ (keepsFetch_headerStep env codec startAddr n (s.atHeader env))
    exact .same rfl

/-- What was out of the data stays in the trace. -/
theorem InData.of_append {l l' : List Access} (h : InData (l' ++ l)) : InData l := by
  induction l' with
  | nil => exact h
  | cons a l' ih => exact ih h.2

/-- A search beyond the last fetch. -/
theorem searchLbnStep_leaves (env : Env) (codec : Codec) (startAddr n : Nat) {off size : Int}
    (hfetch : lastFetch s.trace = some (off, size))
    (hbeyond : off + size < s.psCDBuff + s.searchRead env) :
    ¬ InData (searchLbnStep env codec startAddr n s).trace := by
  intro h
  obtain ⟨l, hl, -⟩ := searchLbnStep_trace env codec startAddr n s
  rw [hl] at h
  obtain ⟨⟨off', size', hfetch', -, hend⟩, -⟩ := h.of_append
  rw [hfetch] at hfetch'
  obtain ⟨rfl, rfl⟩ := Prod.mk.inj (Option.some.inj hfetch')
  omega

theorem keepsFetch_scanStep (h : s.label = .searchLbn) :
    KeepsFetch s (scanStep env codec fuel startAddr n s) := by
  have hsearch : KeepsFetch s (s.log (.search s.psCDBuff (s.searchRead env))) :=
    .cons (.same rfl) (a := .search s.psCDBuff (s.searchRead env)) nofun rfl
  rw [scanStep_searchLbn env codec h]
  exact hsearch.trans (searchLbnStep_trace env codec startAddr n s)

/-! ### The walk -/

theorem DiscFrom.walkStep (henv : env.Obeys (Streams x)) (hkmalloc : ∀ w, (env w).kmalloc = true)
    (hd : DiscFrom codec user (x s.world.seeks s.world.seekMsf) p g)
    (h : AtSector x c e p j s) (hearly : g + j < s.goMSF)
    (hgo : s.goMSF ≤ startAddr + s.usedSectNum) (hlast : startAddr + s.usedSectNum < 450000)
    (hretry : 0 < s.frameRetry) (hN : p + 2352 * (j : Int) - c + 2352 ≤ e) :
    Looked codec x (p + 2352 * j - c) 2048 s (scanStep env codec fuel startAddr n s) ∧
    (scanStep env codec fuel startAddr n s).label = .searchLbn := by
  have hframe := h.frameAt codec hN
  rw [hd.frame (by omega)] at hframe
  rw [scanStep_searchLbn env codec h.label]
  exact h.scanning.under codec startAddr n henv hkmalloc hN (hd.syncAt h hN) (by omega) (by omega)
    hretry (by rw [hframe]; exact hearly)

/-- **Headers before `goMSF` are passed over one by one**, as long as they are
in the data. -/
theorem DiscFrom.walk (henv : env.Obeys (Streams x)) (hkmalloc : ∀ w, (env w).kmalloc = true)
    (hd : DiscFrom codec user (x s.world.seeks s.world.seekMsf) p g)
    (h : AtSector x c e p 0 s) (k : Nat) (hearly : g + k ≤ s.goMSF)
    (hgo : s.goMSF ≤ startAddr + s.usedSectNum) (hlast : startAddr + s.usedSectNum < 450000)
    (hretry : 0 < s.frameRetry) (hN : p + 2352 * (k : Int) - c + 2352 ≤ e) :
    AtSector x c e p k ((scanStep env codec fuel startAddr n)^[k] s) ∧
    Along x s ((scanStep env codec fuel startAddr n)^[k] s) ∧
    KeepsFetch s ((scanStep env codec fuel startAddr n)^[k] s) := by
  induction k with
  | zero => exact ⟨h, .refl s, .same rfl⟩
  | succ k ih =>
    push_cast at hN
    obtain ⟨hat, halong, hkeeps⟩ := ih (by omega) (by omega)
    rw [Function.iterate_succ_apply']
    generalize (scanStep env codec fuel startAddr n)^[k] s = t at hat halong hkeeps ⊢
    rw [← halong.seeks, ← halong.seekMsf] at hd
    have hkeeps' : KeepsFetch t (scanStep env codec fuel startAddr n t) :=
      keepsFetch_scanStep hat.label
    obtain ⟨hlooked, hlabel⟩ := hd.walkStep henv hkmalloc hat (by rw [halong.goMSF]; omega)
      (by rw [halong.goMSF, halong.used]; exact hgo) (by rw [halong.used]; exact hlast)
      (by rw [halong.frameRetry]; exact hretry) (by omega)
    exact ⟨hd.next hat hlooked hlabel (d := 1) (by decide) (by decide) (by decide) (by decide)
      (by push_cast; omega), halong.trans hlooked.along, hkeeps.trans hkeeps'⟩

/-- A search that finds nothing in the next 304 bytes reads beyond them. -/
theorem searchRead_far (hkmalloc : ∀ w, (env w).kmalloc = true)
    (hnone : ∀ a, s.psCDBuff ≤ a → a + 12 ≤ s.psCDBuff + 304 → ¬ SyncAt s.world.cdChunkBuf a) :
    304 < s.searchRead env := by
  unfold Scan.searchRead
  rw [hkmalloc]
  rcases cdKmpPatternSearch_spec (fun i : Nat => s.byte i) pattern 2352 (m := cdHeadSize)
    (by decide) with ⟨r, hfirst, hres⟩ | ⟨-, hres⟩
  · rw [hres]
    simp only [cdHeadSize]
    by_contra hnear
    exact hnone (s.psCDBuff + r) (by omega) (by omega)
      ((agree_iff_syncAt s.world.cdChunkBuf s.psCDBuff r).mp hfirst.agree)
  · rw [hres]
    decide

/-- **A disc that is landed on too early**: no sector of the fetch reaches
`goMSF`, and the scan goes on behind the fetch. -/
theorem Loaded.leaves_data (hdeck : Prompt env x) (h : Loaded x n s)
    (hpos : s.world.readerPos = 0)
    (hd : DiscFrom codec user (x s.world.seeks s.world.seekMsf) 0 g)
    (hearly : g + n + 12 ≤ s.goMSF) (hgo : s.goMSF ≤ startAddr) (hlast : startAddr < 450000) :
    ∃ k, ¬ InData ((scanStep env codec fuel startAddr n)^[k] s).trace := by
  have hused := h.used
  have havail := h.avail
  have hfetch : lastFetch s.trace = some (0, 2352 * ((n : Int) + 12)) := by
    obtain ⟨l, hl⟩ := h.fetch
    rw [hl]
    rfl
  obtain ⟨i, hi, hat, halong⟩ : ∃ i ≤ 1,
      AtSector x 0 (2352 * ((n : Int) + 12)) 0 0 ((scanStep env codec fuel startAddr n)^[i] s) ∧
      Along x s ((scanStep env codec fuel startAddr n)^[i] s) :=
    hd.approach hdeck.obeys hdeck.kmalloc h.ready.flowing hpos h.label h.scan h.dst h.kmpcnt
      (fun a h₀ h₁ => by rw [h.chunk a h₀ h₁, hpos, zero_add]) (by omega) (by omega)
  have hkeeps : KeepsFetch s ((scanStep env codec fuel startAddr n)^[i] s) := by
    obtain rfl | rfl : i = 0 ∨ i = 1 := by omega
    · exact .same rfl
    · exact keepsFetch_scanStep h.label
  generalize hs₁ : (scanStep env codec fuel startAddr n)^[i] s = s₁ at hat halong hkeeps
  rw [← halong.seeks, ← halong.seekMsf] at hd
  -- to the last sector of the fetch
  obtain ⟨hat', halong', hkeeps'⟩ :
      AtSector x 0 (2352 * ((n : Int) + 12)) 0 (n + 11)
        ((scanStep env codec fuel startAddr n)^[n + 11] s₁) ∧
      Along x s₁ ((scanStep env codec fuel startAddr n)^[n + 11] s₁) ∧
      KeepsFetch s₁ ((scanStep env codec fuel startAddr n)^[n + 11] s₁) :=
    hd.walk hdeck.obeys hdeck.kmalloc hat (n + 11) (by rw [halong.goMSF]; omega)
      (by rw [halong.goMSF, halong.used]; omega) (by rw [halong.used]; omega)
      (by rw [halong.frameRetry]; exact h.retry) (by push_cast; omega)
  generalize hs₂ : (scanStep env codec fuel startAddr n)^[n + 11] s₁ = s₂ at hat' halong' hkeeps'
  have hall := halong.trans halong'
  rw [← halong'.seeks, ← halong'.seekMsf] at hd
  obtain ⟨hlooked, hlabel⟩ : _ ∧ (scanStep env codec fuel startAddr n s₂).label = .searchLbn :=
    hd.walkStep hdeck.obeys hdeck.kmalloc hat' (by rw [hall.goMSF]; omega)
      (by rw [hall.goMSF, hall.used]; omega) (by rw [hall.used]; omega)
      (by rw [hall.frameRetry]; exact h.retry) (by push_cast; omega)
  have hkeeps'' : KeepsFetch s₂ (scanStep env codec fuel startAddr n s₂) :=
    keepsFetch_scanStep hat'.label
  generalize hs₃ : scanStep env codec fuel startAddr n s₂ = s₃ at hlooked hlabel hkeeps''
  have hscan : s₃.psCDBuff = 2352 * ((n : Int) + 11) + 2048 := by
    rw [hlooked.scan]
    push_cast
    ring
  have hfar : 304 < s₃.searchRead env := by
    apply searchRead_far hdeck.kmalloc
    intro a h₀ h₁ hsync
    rw [hlooked.chunk] at hsync
    refine hd.lookedSync hat' (by push_cast; omega) (by push_cast; omega) (by omega) ?_ hsync
    intro k
    omega
  have hleaves := searchLbnStep_leaves env codec startAddr n
    (((hkeeps.trans hkeeps').trans hkeeps'').lastFetch.trans hfetch) (by omega)
  refine ⟨1 + (1 + (n + 11 + i)), ?_⟩
  rw [Function.iterate_add_apply, Function.iterate_add_apply, Function.iterate_add_apply, hs₁, hs₂]
  show ¬ InData (scanStep env codec fuel startAddr n (scanStep env codec fuel startAddr n s₂)).trace
  rw [hs₃, scanStep_searchLbn env codec hlabel]
  exact hleaves

/-! ### Such a disc -/

/-- Wherever the deck is sent to, it lands on sector 0. -/
def earlyDeck : Env := streamDeck fun _ _ => discFrom 0

theorem atRest_early :
    AtRest plainCodec (fun _ _ => discFrom 0) (fun _ _ => 0x55)
      (yield earlyDeck World.initial) :=
  ⟨⟨flowing_of_empty (ringOk_fresh _) (by decide) rfl rfl, by decide, by decide, by decide⟩,
    .inl rfl⟩

/-- **A read of one sector leaves the data it was given**: the disc begins 144
sectors before the address sought, and all 13 sectors fetched are passed
over. -/
theorem earlyDeck_leaves_data :
    ∃ k, ¬ InData (scanAt earlyDeck plainCodec 2 150 1 (yield earlyDeck World.initial)
      k).trace := by
  have hdeck : Prompt earlyDeck (fun _ _ => discFrom 0) := streamDeck_prompt _
  obtain ⟨hcalling, hasked, -⟩ := atRest_early.enter hdeck.obeys (show 150 < 450000 by decide)
  obtain ⟨hloaded, -, hgoMSF, hcases⟩ := hcalling.load hdeck plainCodec (n := 1) (by decide) le_rfl
    (show 6 ≤ 150 by decide) (by decide)
  generalize hs : enterScan earlyDeck 150 (yield earlyDeck World.initial) = s at *
  have hpos : (scanStep earlyDeck plainCodec 2 150 1 s).world.readerPos = 0 := by
    rcases hcases with ⟨hst, -⟩ | hre
    · rw [← hs] at hst
      exact absurd hst (by decide)
    · exact hre.pos
  obtain ⟨k, hk⟩ : ∃ k, ¬ InData ((scanStep earlyDeck plainCodec 2 150 1)^[k]
      (scanStep earlyDeck plainCodec 2 150 1 s)).trace :=
    hloaded.leaves_data hdeck hpos (discFrom_disc 0) (by omega) (by omega) (by decide)
  refine ⟨k + 1, ?_⟩
  unfold scanAt
  rw [hs, Function.iterate_succ_apply]
  exact hk

/-- The search does leave the data it was given. -/
theorem scan_leaves_data :
    ¬ ∀ (env : Env) (codec : Codec) (j fuel n k : Nat) (w : World), Reachable env codec j w →
      1 ≤ n → n ≤ 187 → ∀ startAddr,
        InData (scanAt env codec fuel startAddr n w k).trace ∧
        Adds Note.InBuffer w (scanAt env codec fuel startAddr n w k).world := by
  intro hall
  obtain ⟨k, hk⟩ := earlyDeck_leaves_data
  exact hk (hall earlyDeck plainCodec 2 2 1 k _ (.turn .init) le_rfl (by decide) 150).1

end CdPlayer
