/-
CdPlayer/Probes.lean

Probes, removals, opens and closes in any order (`tcc_cdrom_probe`,
`tcr_initial`, `tcc_cdrom_remove`, `tcr_kref_release` in cdrom.c).

A device is alive while a platform device is bound to it or somebody has
its disk open.  Several devices can be alive at once: a device that has
been removed stays as long as it is open, and the next probe gets a new
one.

The undo labels of `tcr_initial` put the disk and free the `tcc_cd`.  They
leave `tdev` with its two buffers, the request queue, and the bit of
`tcr_index_bits` that has been set.  So a run is clean (`CleanStep`: the
bits are the minors of the devices alive, and a failed probe leaves
nothing) exactly if no probe fails further down than the allocation of the
`tcc_cd` (`clean_iff`), and `register_cdrom` failing 256 times leaves no
index for any later probe (`probe_exhausted`).
-/
import CdPlayer.Cdrom
import CdPlayer.Lib.Index
import CdPlayer.Lib.Run

namespace CdPlayer

open RefCount

/-! ### The driver on its bus -/

structure Bus where
  tcr : Tcr
  /-- The platform device that is bound, and the disk it got. -/
  bound : Option (Nat × Nat)
  /-- The opens of each disk that have succeeded and have not been closed. -/
  opens : Nat → Nat

def Bus.loaded : Bus := ⟨.loaded, none, fun _ => 0⟩

/-- Who uses a disk: its opens, and the platform device bound to it. -/
def Bus.users (b : Bus) (d : Nat) : Shared := ⟨b.opens d, decide (b.bound.map Prod.snd = some d)⟩

/-- The device is bound or open. -/
def Bus.Alive (b : Bus) (d : Nat) : Prop := (b.users d).Held

inductive BusEvent
  | probe (a : Attempt) (pdev : Nat)
  /-- The platform device that is bound goes. -/
  | remove
  | blockOpen (ret : Int) (d : Nat)
  | blockRelease (d : Nat)
  deriving DecidableEq, Repr

variable (queueHeld : Bool) (b : Bus)

def busStep : BusEvent → Bus
  | .probe a pdev =>
    let r := tccCdromProbe queueHeld b.tcr a pdev
    if r.1 = 0 then { b with tcr := r.2, bound := some (pdev, r.2.added.headD 0) }
    else { b with tcr := r.2 }
  | .remove =>
    match b.bound with
    | none => b
    | some (pdev, _) => { b with tcr := tccCdromRemove queueHeld b.tcr pdev, bound := none }
  | .blockOpen ret d =>
    let r := tcrBlockOpen queueHeld b.tcr ret d
    if r.1 = 0 then { b with tcr := r.2, opens := Function.update b.opens d (b.opens d + 1) }
    else { b with tcr := r.2 }
  | .blockRelease d =>
    { b with
      tcr := tcrBlockRelease queueHeld b.tcr d
      opens := Function.update b.opens d (b.opens d - 1) }

/-- A disk is opened after it has been added, and closed if it is open. -/
def BusLegal : BusEvent → Prop
  | .blockOpen _ d => d ∈ b.tcr.added
  | .blockRelease d => 0 < b.opens d
  | _ => True

/-- The bits set are the minors of the devices alive. -/
def BitsExact : Prop :=
  ∀ m, b.tcr.tcrIndexBits m = true ↔
    ∃ d ∈ b.tcr.added, b.Alive d ∧ (b.tcr.gendisks d).firstMinor = m

/-- If the probe fails, everything it allocated has been released, the major
is registered for a bound device at most, and `-EBUSY` means that a device
is bound or every minor is in use. -/
def LeavesNothing (a : Attempt) (pdev : Nat) : Prop :=
  let r := tccCdromProbe queueHeld b.tcr a pdev
  r.1 ≠ 0 → r.2.live = b.tcr.live ∧ r.2.blkdev = b.bound.isSome ∧
    (r.1 = negEbusy → b.bound.isSome = true ∨
      ∀ m < tcrDisks, ∃ d ∈ b.tcr.added, b.Alive d ∧ (b.tcr.gendisks d).firstMinor = m)

def CleanStep (e : BusEvent) : Prop :=
  BitsExact (busStep queueHeld b e) ∧
    match e with
    | .probe a pdev => LeavesNothing queueHeld b a pdev
    | _ => True

/-- A probe that does not succeed fails before `tcr_initial` has allocated. -/
def FailsEarly : BusEvent → Prop
  | .probe a _ => b.tcr.blkdev = true ∨ a.cd = false ∨ Feasible b.tcr a
  | _ => True

/-! ### The invariant -/

/-- A disk that has been added, of a device that is alive. -/
def Bus.Used (b : Bus) (d : Nat) : Prop := d ∈ b.tcr.added ∧ b.Alive d

def Bus.minor (b : Bus) (d : Nat) : Nat := (b.tcr.gendisks d).firstMinor

structure BusInv (b : Bus) : Prop where
  tracks : ∀ d ∈ b.tcr.added, ∃ cd < b.tcr.nextId, Tracks b.tcr d cd (b.users d)
  indices : Index.Exact b.tcr.tcrIndexBits b.Used b.minor
  old : ∀ d ∈ b.tcr.added, d < b.tcr.nextId
  closed : ∀ d, d ∉ b.tcr.added → b.opens d = 0
  bound : ∀ p d, b.bound = some (p, d) → d ∈ b.tcr.added ∧
    b.tcr.drvdata p = (b.tcr.gendisks d).privateData ∧
      ∃ t q, b.tcr.tdev = some t ∧ t.rq = some q
  blkdev : b.tcr.blkdev = b.bound.isSome
  cdromDev : b.tcr.added ≠ [] → b.tcr.cdromDev ≠ none

theorem busInv_loaded : BusInv .loaded where
  tracks := nofun
  indices := ⟨fun _ => ⟨nofun, fun ⟨_, ⟨hmem, _⟩, _⟩ => absurd hmem List.not_mem_nil⟩,
    fun _ _ hd => absurd hd.1 List.not_mem_nil⟩
  old := nofun
  closed := fun _ _ => rfl
  bound := nofun
  blkdev := rfl
  cdromDev := fun h => absurd rfl h

theorem BusInv.bitsExact {b : Bus} (h : BusInv b) : BitsExact b := by
  intro m
  rw [h.indices.bits m]
  exact exists_congr fun d => and_assoc

variable {b} {b' : Bus} {t : Tcr} {d cd : Nat} {users' : Shared} {n : Int}

/-- Another disk is not touched. -/
theorem DiskCall.tracks_other (hcall : DiskCall b.tcr t d cd users' n)
    (hs : Holds b.tcr d cd (b.users d).count) {e ce : Nat} {users : Shared} (hne : e ≠ d)
    (h : Tracks b.tcr e ce users) : Tracks t e ce users where
  held := by
    intro hheld
    obtain ⟨hpriv, dev, hce⟩ := h.held hheld
    have hcd : ce ≠ cd := by
      rintro rfl
      obtain ⟨dev', hcd⟩ := hs.cd
      rw [hce] at hcd
      exact hne (Option.some.inj (TccCd.mk.inj (Option.some.inj hcd)).2.2)
    exact ⟨by rw [hcall.gendisks e hne]; exact hpriv, dev, (hcall.cds ce hcd).trans hce⟩
  gone := by
    intro hnot
    rw [hcall.gendisks e hne]
    exact h.gone hnot

theorem Bus.alive_congr (h : b'.users d = b.users d) : b'.Alive d ↔ b.Alive d := by
  unfold Bus.Alive
  rw [h]

/-- What a call for one disk does to the indices: the one of that disk is
free if nobody holds it any more. -/
theorem BusInv.call_indices (h : BusInv b) (hd : d ∈ b.tcr.added) (halive : b.Alive d)
    (hcall : DiskCall b.tcr t d cd users' n) (hbits : b'.tcr.tcrIndexBits = t.tcrIndexBits)
    (hadded : b'.tcr.added = b.tcr.added) (hminor : ∀ e, b'.minor e = b.minor e)
    (husers : b'.users d = users') (hothers : ∀ e, e ≠ d → b'.users e = b.users e) :
    Index.Exact b'.tcr.tcrIndexBits b'.Used b'.minor := by
  have hother (e : Nat) (hne : e ≠ d) : b'.Used e ↔ b.Used e := by
    unfold Bus.Used
    rw [hadded, Bus.alive_congr (hothers e hne)]
  rw [hbits, hcall.bits]
  by_cases hheld : users'.Held
  · -- the device stays, and keeps its index
    rw [if_pos hheld]
    refine h.indices.congr (fun e => ?_) fun e _ => hminor e
    rcases eq_or_ne e d with rfl | hne
    · have halive' : b'.Alive e := by
        unfold Bus.Alive
        rwa [husers]
      exact iff_of_true ⟨by rwa [hadded], halive'⟩ ⟨hd, halive⟩
    · exact hother e hne
  · -- `tcr_kref_release` clears the bit
    rw [if_neg hheld]
    refine (h.indices.release ⟨hd, halive⟩).congr (fun e => ?_) fun e _ => hminor e
    rcases eq_or_ne e d with rfl | hne
    · have hdead : ¬ b'.Alive e := by
        unfold Bus.Alive
        rwa [husers]
      exact iff_of_false (fun hu => hdead hu.2) fun hu => hu.2 rfl
    · rw [hother e hne]
      exact (and_iff_left hne).symm

/-- **A call for one disk keeps the invariant**: the users of that disk
change, and the device goes if none remain. -/
theorem BusInv.call (h : BusInv b) (hd : d ∈ b.tcr.added) (halive : b.Alive d)
    (hcd : cd < b.tcr.nextId) (htracks : Tracks b.tcr d cd (b.users d))
    (hcall : DiskCall b.tcr t d cd users' n) (hbooks : ∃ refs live,
      b'.tcr = { t with queueRefs := refs, live := live, blkdev := b'.bound.isSome })
    (hbound : b'.bound = b.bound ∨ b'.bound = none) (husers : b'.users d = users')
    (hothers : ∀ e, e ≠ d → b'.users e = b.users e) : BusInv b' := by
  obtain ⟨refs, live, htcr⟩ := hbooks
  have hs := htracks.held halive
  have hadded : b'.tcr.added = b.tcr.added := by rw [htcr]; exact hcall.added
  have hnext : b'.tcr.nextId = b.tcr.nextId := by rw [htcr]; exact hcall.nextId
  have hdisks (e : Nat) (hne : e ≠ d) : b'.tcr.gendisks e = b.tcr.gendisks e := by
    rw [htcr]
    exact hcall.gendisks e hne
  have hminor (e : Nat) : b'.minor e = b.minor e := by
    rcases eq_or_ne e d with rfl | hne
    · unfold Bus.minor
      rw [htcr]
      exact hcall.firstMinor
    · exact congrArg Gendisk.firstMinor (hdisks e hne)
  -- the pointers of `t` are those of the new state
  have hmove {e ce : Nat} {users : Shared} (ht : Tracks t e ce users) :
      Tracks b'.tcr e ce users := by
    rw [htcr]
    exact ⟨fun hu => ⟨(ht.held hu).priv, (ht.held hu).cd⟩, ht.gone⟩
  refine ⟨?_, ?_, ?_, ?_, ?_, by rw [htcr], ?_⟩
  · -- the references
    intro e he
    rw [hadded] at he
    rw [hnext]
    rcases eq_or_ne e d with rfl | hne
    · exact ⟨cd, hcd, by rw [husers]; exact hmove hcall.tracks⟩
    · obtain ⟨ce, hce, hte⟩ := h.tracks e he
      exact ⟨ce, hce, by rw [hothers e hne]; exact hmove (hcall.tracks_other hs hne hte)⟩
  · exact h.call_indices hd halive hcall (by rw [htcr]) hadded hminor husers hothers
  · intro e he
    rw [hadded] at he
    rw [hnext]
    exact h.old e he
  · intro e he
    rw [hadded] at he
    have hne : e ≠ d := by
      rintro rfl
      exact he hd
    exact (congrArg Shared.handles (hothers e hne)).trans (h.closed e he)
  · -- what is bound stays bound to its device
    intro p e hpe
    have hold : b.bound = some (p, e) := by
      rcases hbound with hsame | hnone
      · exact hsame.symm.trans hpe
      · rw [hnone] at hpe
        cases hpe
    obtain ⟨he, hdrv, tdev, q, htdev, hq⟩ := h.bound p e hold
    have hpriv : (b'.tcr.gendisks e).privateData = (b.tcr.gendisks e).privateData := by
      rcases eq_or_ne e d with rfl | hne
      · have hheld : users'.Held := by
          rw [← husers]
          exact .inl (by simp [Bus.users, hpe])
        rw [htcr]
        exact (hcall.tracks.held hheld).priv.trans hs.priv.symm
      · rw [hdisks e hne]
    rw [hadded, hpriv]
    refine ⟨he, ?_, tdev, q, ?_, hq⟩
    · rw [htcr]
      exact (congrFun hcall.drvdata p).trans hdrv
    · rw [htcr]
      exact hcall.tdev.trans htdev
  · intro hsome
    rw [hadded] at hsome
    rw [htcr]
    show t.cdromDev ≠ none
    rw [hcall.cdromDev]
    exact h.cdromDev hsome

/-! ### Probes -/

section Probe

variable {s : Tcr} {a : Attempt} (pdev : Nat)

theorem tccCdromProbe_busy (hblk : s.blkdev = true) :
    tccCdromProbe queueHeld s a pdev = (negEbusy, s) := if_pos hblk

/-- Without memory for the `tcc_cd`, the major is unregistered again. -/
theorem tccCdromProbe_nomem (hblk : s.blkdev = false) (hcd : a.cd = false) :
    tccCdromProbe queueHeld s a pdev = (negEnomem, s) := by
  have hinitial : tcrInitial queueHeld { s with blkdev := true } a pdev =
      (negEnomem, { s with blkdev := true }) := if_pos hcd
  unfold tccCdromProbe
  rw [if_neg (by simp [hblk])]
  dsimp only
  rw [hinitial, if_pos (show negEnomem < 0 by decide)]
  dsimp only
  rw [← hblk]

theorem tccCdromProbe_ok (hblk : s.blkdev = false) (h : Feasible s a) : ∃ refs live,
    tccCdromProbe queueHeld s a pdev = (0,
      { s with
        cdromDev := some pdev
        blkdev := true
        tdev := some ⟨s.nextId + 1, s.nextId + 2, s.nextId + 3, some (s.nextId + 5)⟩
        tcrIndexBits := Function.update s.tcrIndexBits
          (findFirstZeroBit s.tcrIndexBits tcrDisks) true
        drvdata := Function.update s.drvdata pdev (some s.nextId)
        cds := Function.update s.cds s.nextId
          (some ⟨some (s.nextId + 1), 1, some (s.nextId + 4)⟩)
        gendisks := Function.update s.gendisks (s.nextId + 4)
          ⟨findFirstZeroBit s.tcrIndexBits tcrDisks, some s.nextId, some (s.nextId + 5)⟩
        nextId := s.nextId + 7
        added := (s.nextId + 4) :: s.added
        queueRefs := refs
        live := live }) := by
  have hregistered : Feasible { s with blkdev := true } a :=
    ⟨h.cd, h.disk, h.minor, h.registerCdrom⟩
  obtain ⟨refs, live, hinitial⟩ := tcrInitial_ok queueHeld pdev hregistered
  refine ⟨refs, live, ?_⟩
  unfold tccCdromProbe
  rw [if_neg (by simp [hblk])]
  dsimp only
  rw [hinitial]
  rfl

/-- A probe that fails further down leaves objects behind. -/
theorem tccCdromProbe_left (hblk : s.blkdev = false) (hcd : a.cd = true) (h : ¬ Feasible s a) :
    (tccCdromProbe queueHeld s a pdev).1 ≠ 0 ∧
      s.live.length < (tccCdromProbe queueHeld s a pdev).2.live.length := by
  have hregistered : ¬ Feasible { s with blkdev := true } a :=
    fun hr => h ⟨hr.cd, hr.disk, hr.minor, hr.registerCdrom⟩
  have hneg := tcrInitial_neg queueHeld pdev hregistered
  have hleft := live_tcrInitial queueHeld pdev hregistered hcd
  unfold tccCdromProbe
  rw [if_neg (by simp [hblk])]
  dsimp only
  rw [if_pos hneg]
  exact ⟨hneg.ne, hleft⟩

end Probe

/-- A device has been added: the disk `d` with its `tcc_cd`. -/
structure Enrols (b b' : Bus) (d cd : Nat) : Prop where
  new : d ∉ b.tcr.added
  added : b'.tcr.added = d :: b.tcr.added
  users : b'.users d = .fresh
  others : ∀ e, e ≠ d → b'.users e = b.users e
  holds : Holds b'.tcr d cd Shared.fresh.count
  cds : ∀ ce, ce ≠ cd → b'.tcr.cds ce = b.tcr.cds ce
  gendisks : ∀ e, e ≠ d → b'.tcr.gendisks e = b.tcr.gendisks e

theorem Enrols.alive (hp : Enrols b b' d cd) : b'.Alive d := by
  unfold Bus.Alive
  rw [hp.users]
  exact .inl rfl

theorem Enrols.ne (hp : Enrols b b' d cd) {e : Nat} (he : e ∈ b.tcr.added) : e ≠ d := by
  rintro rfl
  exact hp.new he

/-- The new `tcc_cd` has one reference, and no old one is touched. -/
theorem BusInv.enrol_tracks (h : BusInv b) (hp : Enrols b b' d b.tcr.nextId)
    (hnext : b.tcr.nextId < b'.tcr.nextId) :
    ∀ e ∈ b'.tcr.added, ∃ ce < b'.tcr.nextId, Tracks b'.tcr e ce (b'.users e) := by
  intro e he
  rw [hp.added] at he
  rcases List.mem_cons.mp he with rfl | hmem
  · refine ⟨b.tcr.nextId, hnext, fun _ => ?_, fun hnot => absurd hp.alive hnot⟩
    rw [hp.users]
    exact hp.holds
  · obtain ⟨ce, hce, hte⟩ := h.tracks e hmem
    refine ⟨ce, hce.trans hnext, ?_⟩
    rw [hp.others e (hp.ne hmem)]
    refine ⟨fun hheld => ?_, fun hnot => ?_⟩
    · obtain ⟨hpriv, dev, hcd⟩ := hte.held hheld
      exact ⟨by rw [hp.gendisks e (hp.ne hmem)]; exact hpriv, dev,
        (hp.cds ce hce.ne).trans hcd⟩
    · rw [hp.gendisks e (hp.ne hmem)]
      exact hte.gone hnot

/-- The new device takes an index that was free. -/
theorem BusInv.enrol_indices (h : BusInv b) (hp : Enrols b b' d cd) {m : Nat}
    (hclear : b.tcr.tcrIndexBits m = false)
    (hbits : b'.tcr.tcrIndexBits = Function.update b.tcr.tcrIndexBits m true)
    (hminor : b'.minor d = m) : Index.Exact b'.tcr.tcrIndexBits b'.Used b'.minor := by
  rw [hbits]
  refine (h.indices.assign hclear (x := d) fun hu => hp.new hu.1).congr (fun e => ?_) fun e _ => ?_
  · unfold Bus.Used
    rw [hp.added, List.mem_cons, or_and_right]
    refine or_congr ?_ (and_congr_right fun he => Bus.alive_congr (hp.others e (hp.ne he)))
    exact and_iff_left_of_imp fun heq => heq ▸ hp.alive
  · rcases eq_or_ne e d with rfl | hne
    · rw [Function.update_self]
      exact hminor
    · rw [Function.update_of_ne hne]
      exact congrArg Gendisk.firstMinor (hp.gendisks e hne)

/-- **A probe that succeeds keeps the invariant**: its device is new. -/
theorem BusInv.probe (h : BusInv b) {a : Attempt} {pdev : Nat} (hblk : b.tcr.blkdev = false)
    (hf : Feasible b.tcr a) : BusInv (busStep queueHeld b (.probe a pdev)) := by
  obtain ⟨refs, live, hprobe⟩ := tccCdromProbe_ok queueHeld pdev hblk hf
  set d := b.tcr.nextId + 4 with hd
  set m := findFirstZeroBit b.tcr.tcrIndexBits tcrDisks with hm
  have hnew : d ∉ b.tcr.added := fun hmem => absurd (h.old d hmem) (by omega)
  have hnone : b.bound = none := by
    have hbound := h.blkdev
    rw [hblk] at hbound
    exact Option.not_isSome_iff_eq_none.mp (by rw [← hbound]; decide)
  set b' := busStep queueHeld b (.probe a pdev) with hb'
  have hstep : b' = { b with
      tcr := (tccCdromProbe queueHeld b.tcr a pdev).2, bound := some (pdev, d) } := by
    rw [hb']
    unfold busStep
    dsimp only
    rw [hprobe]
    rfl
  rw [hprobe] at hstep
  have hdisk : b'.tcr.gendisks d = ⟨m, some b.tcr.nextId, some (b.tcr.nextId + 5)⟩ := by
    rw [hstep]
    exact Function.update_self ..
  have hnext : b'.tcr.nextId = b.tcr.nextId + 7 := by rw [hstep]
  have hp : Enrols b b' d b.tcr.nextId := by
    refine ⟨hnew, by rw [hstep], ?_, fun e hne => ?_, ⟨by rw [hdisk], b.tcr.nextId + 1, ?_⟩,
      fun ce hne => ?_, fun e hne => ?_⟩
    · rw [hstep]
      exact Shared.ext (h.closed d hnew) (by simp [Bus.users, Shared.fresh])
    · rw [hstep]
      exact Shared.ext rfl (by simp [Bus.users, hnone, hne.symm])
    · rw [hstep]
      exact Function.update_self ..
    · rw [hstep]
      exact Function.update_of_ne hne ..
    · rw [hstep]
      exact Function.update_of_ne hne ..
  refine ⟨h.enrol_tracks hp (by omega), ?_, ?_, ?_, ?_, ?_, ?_⟩
  · exact h.enrol_indices hp (findFirstZeroBit_clear hf.minor) (by rw [hstep])
      (congrArg Gendisk.firstMinor hdisk)
  · intro e he
    rw [hp.added] at he
    rw [hnext]
    rcases List.mem_cons.mp he with rfl | hmem
    · omega
    · have hlt := h.old e hmem
      omega
  · intro e he
    rw [hp.added] at he
    rw [hstep]
    exact h.closed e fun hmem => he (List.mem_cons_of_mem _ hmem)
  · -- the device bound is the new one
    intro p e hpe
    rw [hstep] at hpe
    obtain ⟨rfl, rfl⟩ := Prod.mk.inj (Option.some.inj hpe)
    rw [hp.added, hdisk]
    refine ⟨List.mem_cons_self, ?_, ?_⟩
    · rw [hstep]
      exact Function.update_self ..
    · rw [hstep]
      exact ⟨_, _, rfl, rfl⟩
  · rw [hstep]
    rfl
  · rw [hstep]
    exact fun _ => nofun

/-! ### Opens, closes and removals -/

/-- After an open or a close the disk has `k` opens. -/
theorem BusInv.opened (h : BusInv b) (hd : d ∈ b.tcr.added) (halive : b.Alive d)
    (hcd : cd < b.tcr.nextId) (htracks : Tracks b.tcr d cd (b.users d)) {k : Nat}
    (hcall : DiskCall b.tcr t d cd ⟨k, (b.users d).owned⟩ n) :
    BusInv { b with tcr := t, opens := Function.update b.opens d k } := by
  have hblk : t.blkdev = b.bound.isSome := hcall.blkdev.trans h.blkdev
  refine h.call hd halive hcd htracks hcall ?_ (.inl rfl) ?_ ?_
  · exact ⟨t.queueRefs, t.live, by rw [← hblk]⟩
  · exact Shared.ext (Function.update_self ..) rfl
  · exact fun e hne => Shared.ext (Function.update_of_ne hne ..) rfl

theorem BusInv.blockOpen (h : BusInv b) {ret : Int} (hd : d ∈ b.tcr.added) :
    BusInv (busStep queueHeld b (.blockOpen ret d)) := by
  obtain ⟨cd, hcd, htracks⟩ := h.tracks d hd
  unfold busStep
  dsimp only
  by_cases halive : b.Alive d
  · -- a probe has succeeded before, so `cdrom_dev` is set
    have hs := htracks.held halive
    obtain ⟨p, hp⟩ := Option.ne_none_iff_exists'.mp (h.cdromDev (List.ne_nil_of_mem hd))
    rcases eq_or_ne ret 0 with rfl | hret
    · obtain ⟨hok, hcall⟩ := tcrBlockOpen_ok queueHeld hs hp
      rw [if_pos hok]
      exact h.opened hd halive hcd htracks hcall
    · have hpos : (0 : Int) < (b.users d).count :=
        Int.natCast_pos.mpr (Shared.held_iff.mp halive)
      rw [tcrBlockOpen_failed queueHeld hs hpos hp hret, if_neg hret]
      exact h
  · rw [tcrBlockOpen_gone queueHeld (htracks.gone halive), if_neg (show negEnxio ≠ 0 by decide)]
    exact h

theorem BusInv.blockRelease (h : BusInv b) (hopen : 0 < b.opens d) :
    BusInv (busStep queueHeld b (.blockRelease d)) := by
  have hd : d ∈ b.tcr.added := by
    by_contra hnot
    exact absurd (h.closed d hnot) hopen.ne'
  have halive : b.Alive d := .inr hopen
  obtain ⟨cd, hcd, htracks⟩ := h.tracks d hd
  obtain ⟨p, hp⟩ := Option.ne_none_iff_exists'.mp (h.cdromDev (List.ne_nil_of_mem hd))
  have hcall := tcrBlockRelease_call queueHeld (htracks.held halive) hopen hp
  exact h.opened hd halive hcd htracks hcall

/-- `tcc_cdrom_remove` is `tcr_remove`, but for the queue, `tdev` and the major. -/
theorem tccCdromRemove_eq {s : Tcr} (pdev : Nat) (h : ∃ t q, s.tdev = some t ∧ t.rq = some q) :
    ∃ u, s.SameBooks u ∧ ∃ refs live, tccCdromRemove queueHeld s pdev =
      { tcrRemove queueHeld u pdev with queueRefs := refs, live := live, blkdev := false } := by
  obtain ⟨dev, q, hdev, hq⟩ := h
  refine ⟨blkPutQueue s q, sameBooks_blkPutQueue q, ?_⟩
  unfold tccCdromRemove
  rw [hdev]
  dsimp only
  rw [hq]
  exact ⟨_, _, rfl⟩

theorem BusInv.remove (h : BusInv b) : BusInv (busStep queueHeld b .remove) := by
  unfold busStep
  cases hbound : b.bound with
  | none => exact h
  | some pd =>
    obtain ⟨p, d⟩ := pd
    obtain ⟨hd, hdrv, htdev⟩ := h.bound p d hbound
    have howned : (b.users d).owned = true := by simp [Bus.users, hbound]
    have halive : b.Alive d := .inl howned
    obtain ⟨cd, hcd, htracks⟩ := h.tracks d hd
    have hs := htracks.held halive
    obtain ⟨u, ⟨urefs, ulive, rfl⟩, refs, live, hremove⟩ :=
      tccCdromRemove_eq queueHeld p htdev
    have hcall : DiskCall b.tcr (tcrRemove queueHeld
        { b.tcr with queueRefs := urefs, live := ulive } p) d cd (b.users d).disown 0 :=
      { tcrRemove_call queueHeld (s := { b.tcr with queueRefs := urefs, live := ulive })
          ⟨hs.priv, hs.cd⟩ howned (hdrv.trans hs.priv) with }
    refine h.call hd halive hcd htracks hcall ⟨refs, live, hremove⟩ (.inr rfl) ?_ ?_
    · exact Shared.ext rfl (by simp [Bus.users, Shared.disown])
    · intro e hne
      exact Shared.ext rfl (by simp [Bus.users, hbound, hne.symm])

/-! ### Every run -/

variable {e : BusEvent}

/-- **Events that fail early keep the invariant.** -/
theorem BusInv.step (h : BusInv b) (hlegal : BusLegal b e) (hearly : FailsEarly b e) :
    BusInv (busStep queueHeld b e) := by
  cases e with
  | probe a pdev =>
    have hsame {rc : Int} (hrc : rc ≠ 0)
        (hprobe : tccCdromProbe queueHeld b.tcr a pdev = (rc, b.tcr)) :
        busStep queueHeld b (.probe a pdev) = b := by
      unfold busStep
      dsimp only
      rw [hprobe, if_neg hrc]
    cases hblk : b.tcr.blkdev with
    | true =>
      -- a device is bound: `register_blkdev` fails
      rw [hsame (by decide) (tccCdromProbe_busy queueHeld pdev hblk)]
      exact h
    | false =>
      rcases hearly.resolve_left (by simp [hblk]) with hcd | hf
      · rw [hsame (by decide) (tccCdromProbe_nomem queueHeld pdev hblk hcd)]
        exact h
      · exact h.probe queueHeld hblk hf
  | remove => exact h.remove queueHeld
  | blockOpen ret d => exact h.blockOpen queueHeld hlegal
  | blockRelease d => exact h.blockRelease queueHeld hlegal

theorem BusInv.leavesNothing (h : BusInv b) {a : Attempt} {pdev : Nat}
    (hearly : FailsEarly b (.probe a pdev)) : LeavesNothing queueHeld b a pdev := by
  intro hfail
  cases hblk : b.tcr.blkdev with
  | true =>
    rw [tccCdromProbe_busy queueHeld pdev hblk]
    exact ⟨rfl, h.blkdev, fun _ => .inl (h.blkdev.symm.trans hblk)⟩
  | false =>
    rcases hearly.resolve_left (by simp [hblk]) with hcd | hf
    · rw [tccCdromProbe_nomem queueHeld pdev hblk hcd]
      exact ⟨rfl, h.blkdev, fun hbusy =>
        absurd hbusy (show negEnomem ≠ negEbusy by decide)⟩
    · -- nothing fails
      obtain ⟨refs, live, hok⟩ := tccCdromProbe_ok queueHeld pdev hblk hf
      exact absurd (congrArg Prod.fst hok) hfail

/-- **A probe that fails further down is not clean.** -/
theorem not_cleanStep (h : ¬ FailsEarly b e) : ¬ CleanStep queueHeld b e := by
  rintro ⟨-, hclean⟩
  cases e with
  | probe a pdev =>
    have hblk : b.tcr.blkdev = false := by
      rw [← Bool.not_eq_true]
      exact fun hblk => h (.inl hblk)
    have hcd : a.cd = true := by
      rw [← Bool.not_eq_false]
      exact fun hcd => h (.inr (.inl hcd))
    obtain ⟨hfail, hleft⟩ := tccCdromProbe_left queueHeld pdev hblk hcd fun hf => h (.inr (.inr hf))
    obtain ⟨hlive, -⟩ := hclean hfail
    exact absurd (congrArg List.length hlive) hleft.ne'
  | remove => exact h trivial
  | blockOpen ret d => exact h trivial
  | blockRelease d => exact h trivial

/-- **A run is clean exactly if no probe fails after its first allocation.** -/
theorem clean_iff {es : List BusEvent}
    (hlegal : Run.Allowed (busStep queueHeld) BusLegal .loaded es) :
    Run.Allowed (busStep queueHeld) (CleanStep queueHeld) .loaded es ↔
      Run.Allowed (busStep queueHeld) FailsEarly .loaded es := by
  refine Run.Allowed.law_iff (P := BusInv) ?_ ?_ hlegal busInv_loaded
  · intro b e h hop hearly
    have hnext := h.step queueHeld hop hearly
    refine ⟨⟨hnext.bitsExact, ?_⟩, hnext⟩
    cases e with
    | probe a pdev => exact h.leavesNothing queueHeld hearly
    | remove => trivial
    | blockOpen ret d => trivial
    | blockRelease d => trivial
  · intro b e _ _ hclean
    by_contra hlate
    exact not_cleanStep queueHeld hlate hclean

/-! ### Failures that add up -/

/-- Every allocation succeeds, and `register_cdrom` fails. -/
def Attempt.Unregistered (a : Attempt) : Prop :=
  a.cd = true ∧ a.disk = true ∧ a.registerCdrom ≠ 0

theorem tccCdromProbe_unregistered {s : Tcr} {a : Attempt} (pdev : Nat) (hblk : s.blkdev = false)
    (h : a.Unregistered) (hminor : findFirstZeroBit s.tcrIndexBits tcrDisks ≠ tcrDisks) :
    (tccCdromProbe queueHeld s a pdev).1 = negEnomem ∧
      (tccCdromProbe queueHeld s a pdev).2.blkdev = false ∧
      (tccCdromProbe queueHeld s a pdev).2.tcrIndexBits =
        Function.update s.tcrIndexBits (findFirstZeroBit s.tcrIndexBits tcrDisks) true := by
  obtain ⟨hcd, hdisk, hreg⟩ := h
  set s' : Tcr := { s with blkdev := true }
  set u := setUpDisk (allocDisk (allocTdev s')) s.nextId (s.nextId + 4)
    (findFirstZeroBit s.tcrIndexBits tcrDisks) with hu
  -- the disk is put back and the `tcc_cd` freed; the bit of the index is not cleared
  have hinitial : tcrInitial queueHeld s' a pdev =
      (negEnomem, (putDisk queueHeld u (s.nextId + 4)).freeCd s.nextId) := by
    unfold tcrInitial
    rw [if_neg (by simp [hcd])]
    dsimp only
    rw [if_neg (by simp [hdisk])]
    exact (if_neg hminor).trans (if_pos hreg)
  obtain ⟨refs, live, hput⟩ := sameBooks_putDisk queueHeld (s := u) (s.nextId + 4)
  have hprobe : tccCdromProbe queueHeld s a pdev = (negEnomem,
      { (putDisk queueHeld u (s.nextId + 4)).freeCd s.nextId with blkdev := false }) := by
    unfold tccCdromProbe
    rw [if_neg (by simp [hblk])]
    dsimp only
    rw [hinitial, if_pos (show negEnomem < 0 by decide)]
  rw [hprobe]
  refine ⟨rfl, rfl, ?_⟩
  show (putDisk queueHeld u (s.nextId + 4)).tcrIndexBits = _
  rw [hput]
  rfl

/-- Without an index the probe fails. -/
theorem tccCdromProbe_noIndex {s : Tcr} {a : Attempt} (pdev : Nat) (hblk : s.blkdev = false)
    (hcd : a.cd = true) (hdisk : a.disk = true)
    (hminor : findFirstZeroBit s.tcrIndexBits tcrDisks = tcrDisks) :
    (tccCdromProbe queueHeld s a pdev).1 = negEbusy := by
  have hinitial : (tcrInitial queueHeld { s with blkdev := true } a pdev).1 = negEbusy := by
    unfold tcrInitial
    rw [if_neg (by simp [hcd])]
    dsimp only
    rw [if_neg (by simp [hdisk])]
    exact congrArg Prod.fst (if_pos hminor)
  unfold tccCdromProbe
  rw [if_neg (by simp [hblk])]
  dsimp only
  rw [if_pos (by rw [hinitial]; decide)]
  exact hinitial

/-- The first index that is clear, where the first `n` are set. -/
theorem findFirstZeroBit_lt {n size : Nat} (h : n < size) :
    findFirstZeroBit (fun m => decide (m < n)) size = n := by
  unfold findFirstZeroBit
  have hfind : ((List.range size).find? fun i => !decide (i < n)) = some n := by
    rw [List.find?_range_eq_some]
    refine ⟨by simp, List.mem_range.mpr h, fun j hj => by simp [hj]⟩
  rw [hfind]
  rfl

/-- **Each failure of `register_cdrom` takes an index.** -/
theorem unregistered_run {as : List (Attempt × Nat)} (h : ∀ x ∈ as, x.1.Unregistered) {k : Nat}
    (hblk : b.tcr.blkdev = false) (hbits : b.tcr.tcrIndexBits = fun m => decide (m < k))
    (hlen : k + as.length ≤ tcrDisks) :
    ((as.map fun x => BusEvent.probe x.1 x.2).foldl (busStep queueHeld) b).tcr.blkdev = false ∧
      ((as.map fun x => BusEvent.probe x.1 x.2).foldl (busStep queueHeld) b).tcr.tcrIndexBits =
        fun m => decide (m < k + as.length) := by
  induction as generalizing b k with
  | nil => exact ⟨hblk, hbits⟩
  | cons x as ih =>
    -- the bits set are those below `k`, so the probe takes index `k`
    obtain ⟨a, pdev⟩ := x
    rw [List.length_cons] at hlen
    have hfind : findFirstZeroBit b.tcr.tcrIndexBits tcrDisks = k := by
      rw [hbits]
      exact findFirstZeroBit_lt (by omega)
    obtain ⟨hrc, hblk', hbits'⟩ := tccCdromProbe_unregistered queueHeld pdev hblk
      (h (a, pdev) List.mem_cons_self) (by rw [hfind]; omega)
    have hstep : busStep queueHeld b (.probe a pdev) =
        { b with tcr := (tccCdromProbe queueHeld b.tcr a pdev).2 } := by
      unfold busStep
      dsimp only
      rw [hrc, if_neg (show negEnomem ≠ 0 by decide)]
    have hnext : (busStep queueHeld b (.probe a pdev)).tcr.tcrIndexBits =
        fun m => decide (m < k + 1) := by
      rw [hstep]
      show (tccCdromProbe queueHeld b.tcr a pdev).2.tcrIndexBits = _
      rw [hbits', hfind, hbits]
      funext m
      rcases eq_or_ne m k with rfl | hne
      · rw [Function.update_self]
        exact (decide_eq_true (Nat.lt_succ_self m)).symm
      · rw [Function.update_of_ne hne]
        exact decide_eq_decide.mpr (by omega)
    have hsum : k + ((a, pdev) :: as).length = k + 1 + as.length := by
      rw [List.length_cons]
      omega
    rw [hsum]
    exact ih (fun y hy => h y (List.mem_cons_of_mem _ hy)) (by rw [hstep]; exact hblk') hnext
      (by omega)

/-- **After 256 failures of `register_cdrom` no probe gets an index.** -/
theorem probe_exhausted {as : List (Attempt × Nat)} (h : ∀ x ∈ as, x.1.Unregistered)
    (hlen : as.length = tcrDisks) {a : Attempt} (hcd : a.cd = true) (hdisk : a.disk = true)
    (pdev : Nat) :
    (tccCdromProbe queueHeld
      ((as.map fun x => BusEvent.probe x.1 x.2).foldl (busStep queueHeld) .loaded).tcr a pdev).1 =
        negEbusy := by
  obtain ⟨hblk, hbits⟩ := unregistered_run queueHeld h (b := .loaded) (k := 0) rfl
    (funext fun m => (decide_eq_false (Nat.not_lt_zero m)).symm) (by omega)
  refine tccCdromProbe_noIndex queueHeld pdev hblk hcd hdisk ?_
  rw [hbits, findFirstZeroBit_eq_size]
  intro m hm
  rw [Nat.zero_add, hlen]
  exact decide_eq_true hm

/-- A device that is removed while it is open, and a second one beside it;
then the first is closed, and its minor goes to a third. -/
theorem clean_three_devices : Run.Allowed (busStep true) (CleanStep true) .loaded
    [.probe ⟨false, true, 0⟩ 0, .probe ⟨true, true, 0⟩ 0, .blockOpen 0 4, .remove,
      .probe ⟨true, true, 0⟩ 1, .probe ⟨true, false, 0⟩ 2, .blockRelease 4, .remove,
      .probe ⟨true, true, 0⟩ 0] := by
  refine (clean_iff true ?_).mpr ?_
  · exact ⟨trivial, trivial, List.mem_singleton_self 4, trivial, trivial, trivial, Nat.one_pos,
      trivial, trivial, trivial⟩
  · exact ⟨.inr (.inl rfl), .inr (.inr ⟨rfl, rfl, by decide, rfl⟩), trivial, trivial,
      .inr (.inr ⟨rfl, rfl, by decide, rfl⟩), .inl rfl, trivial, trivial,
      .inr (.inr ⟨rfl, rfl, by decide, rfl⟩), trivial⟩

/-- `register_cdrom` fails: the bit, `tdev` with its buffers and the queue stay. -/
theorem probe_leaves_index :
    Run.Allowed (busStep false) BusLegal .loaded [.probe ⟨true, true, -1⟩ 0] ∧
      (busStep false .loaded (.probe ⟨true, true, -1⟩ 0)).tcr.live =
        [.requestQueue 5, .tdevBuf 3, .tdevData 2, .tcrDevice 1] ∧
      ¬ BitsExact (busStep false .loaded (.probe ⟨true, true, -1⟩ 0)) ∧
      ¬ Run.Allowed (busStep false) (CleanStep false) .loaded [.probe ⟨true, true, -1⟩ 0] := by
  have hset : (busStep false .loaded (.probe ⟨true, true, -1⟩ 0)).tcr.tcrIndexBits 0 = true := by
    decide
  have hnone : (busStep false .loaded (.probe ⟨true, true, -1⟩ 0)).tcr.added = [] := by decide
  have hbits : ¬ BitsExact (busStep false .loaded (.probe ⟨true, true, -1⟩ 0)) := by
    intro h
    obtain ⟨d, hd, -⟩ := (h 0).mp hset
    rw [hnone] at hd
    exact List.not_mem_nil hd
  exact ⟨⟨trivial, trivial⟩, by decide, hbits, fun h => hbits h.1.1⟩

end CdPlayer
