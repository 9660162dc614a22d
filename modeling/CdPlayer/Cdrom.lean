/-
CdPlayer/Cdrom.lean

How `cdrom.c` takes and gives back what it needs: the probe with its undo
labels, the opens and closes of the block device, and the removal.

`Tcr` is what these functions read and write.  Objects have numbers that
are never used twice; `live` lists those that are allocated, so that what
is left behind can be seen, and `oops` is set when the driver follows a
NULL pointer or uses a `tcc_cd` that has been freed.

Outside of the source, and therefore parameters:
* what the allocations of a probe and `register_cdrom` answer (`Attempt`),
  and what `cdrom_open` returns;
* `queueHeld`: whether `add_disk` takes a reference of its own to the
  request queue, which `put_disk` drops.  Kernels differ here.

A gendisk can be read as long as somebody has it open, so its record stays
after the driver has put it.
-/
import Mathlib.Logic.Function.Basic
import CdPlayer.Basic
import CdPlayer.Lib.RefCount

namespace CdPlayer

open RefCount

/-! ### What the driver holds -/

/-- `TCR_DISKS`. -/
def tcrDisks : Nat := 256

/-- `-ENXIO`. -/
def negEnxio : Int := -6

/-- `-ENOMEM`. -/
def negEnomem : Int := -12

/-- `-EBUSY`. -/
def negEbusy : Int := -16

/-- What is allocated: the `tcc_cd`, the `tcr_device` with its buffers
`data` and `buf`, the gendisk, the request queue, the scatter list of the
thread. -/
inductive Obj
  | tccCd (id : Nat)
  | tcrDevice (id : Nat)
  | tdevData (id : Nat)
  | tdevBuf (id : Nat)
  | gendisk (id : Nat)
  | requestQueue (id : Nat)
  | scatterlist (id : Nat)
  deriving DecidableEq, Repr

/-- `struct tcc_cd`. -/
structure TccCd where
  device : Option Nat
  kref : Int
  disk : Option Nat
  deriving DecidableEq, Repr

/-- What the probe allocates for a `struct tcr_device`. -/
structure Tdev where
  id : Nat
  data : Nat
  buf : Nat
  rq : Option Nat
  deriving DecidableEq, Repr

/-- `struct gendisk`. -/
structure Gendisk where
  firstMinor : Nat
  privateData : Option Nat
  queue : Option Nat
  deriving DecidableEq, Repr

/-- The globals of `cdrom.c`, and what they lead to. -/
structure Tcr where
  /-- `cdrom_dev`, a platform device. -/
  cdromDev : Option Nat
  tdev : Option Tdev
  tcrIndexBits : Nat → Bool
  /-- `TCC_CDROM_MAJOR` is registered. -/
  blkdev : Bool
  /-- What `dev_set_drvdata` stored at a platform device. -/
  drvdata : Nat → Option Nat
  cds : Nat → Option TccCd
  gendisks : Nat → Gendisk
  queueRefs : Nat → Int
  /-- References to a platform device, relative to when the module was loaded. -/
  deviceRefs : Nat → Int
  live : List Obj
  nextId : Nat
  /-- The disks that `add_disk` has made visible, newest first. -/
  added : List Nat
  /-- The `tcc_cd`s for which `tcr_kref_release` ran. -/
  released : List Nat
  oops : Bool

/-- The module has been loaded. -/
def Tcr.loaded : Tcr where
  cdromDev := none
  tdev := none
  tcrIndexBits := fun _ => false
  blkdev := false
  drvdata := fun _ => none
  cds := fun _ => none
  gendisks := fun _ => ⟨0, none, none⟩
  queueRefs := fun _ => 0
  deviceRefs := fun _ => 0
  live := []
  nextId := 0
  added := []
  released := []
  oops := false

variable (queueHeld : Bool) (s : Tcr)

/-- A bad pointer. -/
def Tcr.fault : Tcr := { s with oops := true }

def Tcr.free (o : Obj) : Tcr := { s with live := s.live.erase o }

def Tcr.setCd (cd : Nat) (c : TccCd) : Tcr :=
  { s with cds := Function.update s.cds cd (some c) }

def Tcr.setDisk (d : Nat) (g : Gendisk) : Tcr :=
  { s with gendisks := Function.update s.gendisks d g }

def Tcr.setBit (minor : Nat) (b : Bool) : Tcr :=
  { s with tcrIndexBits := Function.update s.tcrIndexBits minor b }

/-- `kfree(cd)`. -/
def Tcr.freeCd (cd : Nat) : Tcr :=
  { s.free (.tccCd cd) with cds := Function.update s.cds cd none }

/-- `find_first_zero_bit`. -/
def findFirstZeroBit (bits : Nat → Bool) (size : Nat) : Nat :=
  ((List.range size).find? fun i => !bits i).getD size

/-- `blk_put_queue`. -/
def blkPutQueue (q : Nat) : Tcr :=
  let t := { s with queueRefs := Function.update s.queueRefs q (s.queueRefs q - 1) }
  if s.queueRefs q = 1 then t.free (.requestQueue q) else t

/-- `put_disk`, of the last reference. -/
def putDisk (d : Nat) : Tcr :=
  match queueHeld, (s.gendisks d).queue with
  | true, some q => (blkPutQueue s q).free (.gendisk d)
  | _, _ => s.free (.gendisk d)

/-- `get_device(&cdrom_dev->dev)`. -/
def getDevice : Tcr :=
  match s.cdromDev with
  | some p => { s with deviceRefs := Function.update s.deviceRefs p (s.deviceRefs p + 1) }
  | none => s.fault

/-- `put_device(&cdrom_dev->dev)`. -/
def putDevice : Tcr :=
  match s.cdromDev with
  | some p => { s with deviceRefs := Function.update s.deviceRefs p (s.deviceRefs p - 1) }
  | none => s.fault

/-! ### References to a tcc_cd -/

def tcrKrefRelease (cd : Nat) : Tcr :=
  match s.cds cd with
  | none => s.fault
  | some c =>
    match c.disk with
    | none => s.fault
    | some d =>
      let s := s.setBit (s.gendisks d).firstMinor false
      let s := s.setDisk d { s.gendisks d with privateData := none }
      let s := putDisk queueHeld s d
      let s := s.freeCd cd
      { s with released := cd :: s.released }

def krefGet (cd : Nat) : Tcr :=
  match s.cds cd with
  | none => s.fault
  | some c => s.setCd cd { c with kref := c.kref + 1 }

/-- `kref_put(&cd->kref, tcr_kref_release)`. -/
def krefPut (cd : Nat) : Tcr :=
  match s.cds cd with
  | none => s.fault
  | some c =>
    let s := s.setCd cd { c with kref := c.kref - 1 }
    if c.kref = 1 then tcrKrefRelease queueHeld s cd else s

/-- The pointer is followed. -/
def useCd (cd : Nat) : Tcr := if (s.cds cd).isSome then s else s.fault

def tcrCdGet (d : Nat) : Option Nat × Tcr :=
  match (s.gendisks d).privateData with
  | none => (none, s)
  | some cd =>
    let s := krefGet s cd
    let s := getDevice s
    match s.cds cd with
    | none => (none, s.fault)
    | some c => if c.device = none then (none, krefPut queueHeld s cd) else (some cd, s)

def tcrCdPut (cd : Nat) : Tcr := putDevice (krefPut queueHeld s cd)

/-! ### Opens and closes -/

/-- `ret` is what `cdrom_open` returns. -/
def tcrBlockOpen (ret : Int) (d : Nat) : Int × Tcr :=
  match tcrCdGet queueHeld s d with
  | (none, s) => (negEnxio, s)
  | (some cd, s) =>
    let s := useCd s cd
    if ret ≠ 0 then (ret, tcrCdPut queueHeld s cd) else (ret, s)

def tcrBlockRelease (d : Nat) : Tcr :=
  match (s.gendisks d).privateData with
  | none => s.fault
  | some cd => tcrCdPut queueHeld (useCd s cd) cd

/-! ### Probe and removal -/

/-- How the calls of a probe that can fail turn out. -/
structure Attempt where
  /-- `kzalloc` has memory for the `tcc_cd`. -/
  cd : Bool
  /-- `alloc_disk` succeeds. -/
  disk : Bool
  /-- What `register_cdrom` returns. -/
  registerCdrom : Int
  deriving DecidableEq, Repr

/-- `add_disk`. -/
def addDisk (d : Nat) : Tcr :=
  { s with
    added := d :: s.added
    queueRefs :=
      match queueHeld, (s.gendisks d).queue with
      | true, some q => Function.update s.queueRefs q (s.queueRefs q + 1)
      | _, _ => s.queueRefs }

/-- `cd` and `tdev` with its two buffers are allocated, `kref` starts at 1. -/
def allocTdev : Tcr :=
  { s with
    tdev := some ⟨s.nextId + 1, s.nextId + 2, s.nextId + 3, none⟩
    cds := Function.update s.cds s.nextId (some ⟨none, 1, none⟩)
    live := [.tdevBuf (s.nextId + 3), .tdevData (s.nextId + 2), .tcrDevice (s.nextId + 1),
      .tccCd s.nextId] ++ s.live
    nextId := s.nextId + 4 }

def allocDisk : Tcr :=
  { s with
    gendisks := Function.update s.gendisks s.nextId ⟨0, none, none⟩
    live := .gendisk s.nextId :: s.live
    nextId := s.nextId + 1 }

/-- From `__set_bit` to `register_cdrom`: the queue, the disk and `cd` are set up. -/
def setUpDisk (cd d minor : Nat) : Tcr :=
  { s with
    tdev := s.tdev.map fun t : Tdev => { t with rq := some s.nextId }
    tcrIndexBits := Function.update s.tcrIndexBits minor true
    cds := Function.update s.cds cd (some ⟨s.tdev.map Tdev.id, 1, some d⟩)
    gendisks := Function.update s.gendisks d ⟨minor, some cd, some s.nextId⟩
    queueRefs := Function.update s.queueRefs s.nextId 1
    live := .requestQueue s.nextId :: s.live
    nextId := s.nextId + 1 }

def tcrInitial (a : Attempt) (pdev : Nat) : Int × Tcr :=
  if a.cd = false then (negEnomem, s)
  else
    let cd := s.nextId
    let s := allocTdev s
    -- the label `fail_free`
    if a.disk = false then (negEnomem, s.freeCd cd)
    else
      let d := s.nextId
      let s := allocDisk s
      let minor := findFirstZeroBit s.tcrIndexBits tcrDisks
      -- the label `fail_put`
      if minor = tcrDisks then (negEbusy, (putDisk queueHeld s d).freeCd cd)
      else
        let s := setUpDisk s cd d minor
        if a.registerCdrom ≠ 0 then (negEnomem, (putDisk queueHeld s d).freeCd cd)
        else
          let s := { s with
            drvdata := Function.update s.drvdata pdev (some cd)
            live := .scatterlist s.nextId :: s.live
            nextId := s.nextId + 1 }
          (0, addDisk queueHeld s d)

def tccCdromProbe (a : Attempt) (pdev : Nat) : Int × Tcr :=
  -- `register_blkdev`
  if s.blkdev = true then (negEbusy, s)
  else
    let s := { s with blkdev := true }
    let r := tcrInitial queueHeld s a pdev
    if r.1 < 0 then (r.1, { r.2 with blkdev := false })
    else (r.1, { r.2 with cdromDev := some pdev })

def tcrRemove (pdev : Nat) : Tcr :=
  match s.drvdata pdev with
  | none => s.fault
  | some cd => krefPut queueHeld (useCd s cd) cd

def tccCdromRemove (pdev : Nat) : Tcr :=
  match s.tdev with
  | none => s.fault
  | some t =>
    match t.rq with
    | none => s.fault
    | some q =>
      -- `blk_cleanup_queue`
      let s := blkPutQueue s q
      let s := tcrRemove queueHeld s pdev
      let s := { s with blkdev := false }
      ((s.free (.tdevData t.data)).free (.tdevBuf t.buf)).free (.tcrDevice t.id)

/-! ### What the kernel's own bookkeeping may change -/

/-- The states agree but for the allocated objects and the queues' references. -/
def Tcr.SameBooks (s t : Tcr) : Prop :=
  ∃ refs live, t = { s with queueRefs := refs, live := live }

variable {s : Tcr}

theorem sameBooks_free (o : Obj) : s.SameBooks (s.free o) := ⟨_, _, rfl⟩

theorem sameBooks_blkPutQueue (q : Nat) : s.SameBooks (blkPutQueue s q) := by
  unfold blkPutQueue
  split
  · exact ⟨_, _, rfl⟩
  · exact ⟨_, _, rfl⟩

theorem sameBooks_putDisk (d : Nat) : s.SameBooks (putDisk queueHeld s d) := by
  unfold putDisk
  split
  · obtain ⟨refs, live, h⟩ := sameBooks_blkPutQueue (s := s) _
    rw [h]
    exact ⟨_, _, rfl⟩
  · exact sameBooks_free _

/-- `tcr_kref_release` for a `tcc_cd` in use. -/
theorem tcrKrefRelease_eq {cd d : Nat} {c : TccCd} (hc : s.cds cd = some c)
    (hd : c.disk = some d) :
    ∃ refs live, tcrKrefRelease queueHeld s cd =
      { s with
        tcrIndexBits := Function.update s.tcrIndexBits (s.gendisks d).firstMinor false
        gendisks := Function.update s.gendisks d { s.gendisks d with privateData := none }
        cds := Function.update s.cds cd none
        released := cd :: s.released
        queueRefs := refs
        live := live } := by
  unfold tcrKrefRelease
  rw [hc]
  dsimp only
  rw [hd]
  dsimp only
  obtain ⟨refs, live, h⟩ := sameBooks_putDisk queueHeld
    (s := (s.setBit (s.gendisks d).firstMinor false).setDisk d
      { s.gendisks d with privateData := none }) d
  exact ⟨refs, live.erase (.tccCd cd),
    congrArg (fun u : Tcr => { u.freeCd cd with released := cd :: u.released }) h⟩

/-! ### The users of a disk -/

/-- The disk leads to a `tcc_cd` with `k` references. -/
structure Holds (s : Tcr) (d cd : Nat) (k : Int) : Prop where
  priv : (s.gendisks d).privateData = some cd
  cd : ∃ dev, s.cds cd = some ⟨some dev, k, some d⟩

/-- The references to the `tcc_cd` of a disk are those of its users. -/
structure Tracks (s : Tcr) (d cd : Nat) (users : Shared) : Prop where
  held : users.Held → Holds s d cd users.count
  gone : ¬ users.Held → (s.gendisks d).privateData = none

/-- What a call changes that leaves the disk with the given users, and takes
`n` references to `cdrom_dev`. -/
structure DiskCall (s t : Tcr) (d cd : Nat) (users : Shared) (n : Int) : Prop where
  tracks : Tracks t d cd users
  freed : ¬ users.Held → t.cds cd = none
  released : t.released = if users.Held then s.released else cd :: s.released
  bits : t.tcrIndexBits = if users.Held then s.tcrIndexBits
    else Function.update s.tcrIndexBits (s.gendisks d).firstMinor false
  deviceRefs : ∀ p, t.deviceRefs p = s.deviceRefs p + if s.cdromDev = some p then n else 0
  cds : ∀ c, c ≠ cd → t.cds c = s.cds c
  gendisks : ∀ e, e ≠ d → t.gendisks e = s.gendisks e
  firstMinor : (t.gendisks d).firstMinor = (s.gendisks d).firstMinor
  cdromDev : t.cdromDev = s.cdromDev
  tdev : t.tdev = s.tdev
  blkdev : t.blkdev = s.blkdev
  drvdata : t.drvdata = s.drvdata
  nextId : t.nextId = s.nextId
  added : t.added = s.added
  oops : t.oops = s.oops

variable {d cd : Nat} {users users' : Shared}

/-- **A reference is given back.** -/
theorem krefPut_call (hs : Holds s d cd users.count) (hcount : users.count = users'.count + 1) :
    DiskCall s (krefPut queueHeld s cd) d cd users' 0 := by
  obtain ⟨dev, hcd⟩ := hs.cd
  unfold krefPut
  rw [hcd]
  dsimp only
  by_cases hlast : users'.Held
  · -- others remain
    have hpos := Shared.held_iff.mp hlast
    rw [if_neg (by omega)]
    have hkref : ((users.count : Int) - 1) = users'.count := by omega
    rw [hkref]
    exact
      { tracks := ⟨fun _ => ⟨hs.priv, dev, Function.update_self ..⟩, fun h => absurd hlast h⟩
        freed := fun h => absurd hlast h
        released := (if_pos hlast).symm
        bits := (if_pos hlast).symm
        deviceRefs := fun p => by simp [Tcr.setCd]
        cds := fun c hc => Function.update_of_ne hc ..
        gendisks := fun _ _ => rfl
        firstMinor := rfl
        cdromDev := rfl
        tdev := rfl
        blkdev := rfl
        drvdata := rfl
        nextId := rfl
        added := rfl
        oops := rfl }
  · -- the last reference: `tcr_kref_release`
    have hzero : users'.count = 0 := Nat.eq_zero_of_not_pos (mt Shared.held_iff.mpr hlast)
    rw [if_pos (by omega)]
    obtain ⟨refs, live, h⟩ := tcrKrefRelease_eq queueHeld
      (s := s.setCd cd ⟨some dev, users.count - 1, some d⟩) (d := d) (Function.update_self ..) rfl
    rw [h]
    exact
      { tracks := ⟨fun h => absurd h hlast, fun _ => by simp [Tcr.setCd]⟩
        freed := fun _ => Function.update_self ..
        released := (if_neg hlast).symm
        bits := (if_neg hlast).symm
        deviceRefs := fun p => by simp [Tcr.setCd]
        cds := fun c hc => by simp [Tcr.setCd, hc]
        gendisks := fun e he => Function.update_of_ne he ..
        firstMinor := by simp [Tcr.setCd]
        cdromDev := rfl
        tdev := rfl
        blkdev := rfl
        drvdata := rfl
        nextId := rfl
        added := rfl
        oops := rfl }

theorem putDevice_eq {p : Nat} (hp : s.cdromDev = some p) : putDevice s =
    { s with deviceRefs := Function.update s.deviceRefs p (s.deviceRefs p - 1) } := by
  unfold putDevice
  rw [hp]

theorem DiskCall.putDevice {t : Tcr} (h : DiskCall s t d cd users' 0) {p : Nat}
    (hp : s.cdromDev = some p) : DiskCall s (putDevice t) d cd users' (-1) := by
  rw [putDevice_eq (h.cdromDev.trans hp)]
  exact
    { h with
      tracks := ⟨fun hu => ⟨(h.tracks.held hu).priv, (h.tracks.held hu).cd⟩, h.tracks.gone⟩
      deviceRefs := fun q => by
        have hq := h.deviceRefs q
        rw [hp] at hq ⊢
        rcases eq_or_ne q p with rfl | hne
        · simp at hq
          simp [hq, Int.sub_eq_add_neg]
        · simpa [hne, hne.symm] using hq }

/-- `tcr_block_open` of a disk whose `tcc_cd` has gone. -/
theorem tcrBlockOpen_gone (h : (s.gendisks d).privateData = none) (ret : Int) :
    tcrBlockOpen queueHeld s ret d = (negEnxio, s) := by
  unfold tcrBlockOpen tcrCdGet
  rw [h]

section Open

variable {p : Nat} {k : Int}

theorem useCd_of_holds (hs : Holds s d cd k) : useCd s cd = s := by
  obtain ⟨dev, hcd⟩ := hs.cd
  unfold useCd
  rw [hcd]
  rfl

/-- `tcr_cd_get` takes one reference to each. -/
theorem tcrCdGet_eq (hs : Holds s d cd k) (hp : s.cdromDev = some p) :
    ∃ dev, s.cds cd = some ⟨some dev, k, some d⟩ ∧ tcrCdGet queueHeld s d = (some cd,
      { s with
        cds := Function.update s.cds cd (some ⟨some dev, k + 1, some d⟩)
        deviceRefs := Function.update s.deviceRefs p (s.deviceRefs p + 1) }) := by
  obtain ⟨dev, hcd⟩ := hs.cd
  refine ⟨dev, hcd, ?_⟩
  have hget : getDevice (krefGet s cd) =
      { s with
        cds := Function.update s.cds cd (some ⟨some dev, k + 1, some d⟩)
        deviceRefs := Function.update s.deviceRefs p (s.deviceRefs p + 1) } := by
    unfold krefGet getDevice
    rw [hcd]
    dsimp only [Tcr.setCd]
    rw [hp]
  unfold tcrCdGet
  rw [hs.priv]
  dsimp only
  rw [hget]
  dsimp only
  rw [Function.update_self]
  rfl

/-- An open that succeeds. -/
theorem tcrBlockOpen_ok (hs : Holds s d cd users.count) (hp : s.cdromDev = some p) :
    (tcrBlockOpen queueHeld s 0 d).1 = 0 ∧
      DiskCall s (tcrBlockOpen queueHeld s 0 d).2 d cd users.acquire 1 := by
  obtain ⟨dev, hcd, hget⟩ := tcrCdGet_eq queueHeld hs hp
  -- the state afterwards: one user more, and one reference more to the device
  set t : Tcr := { s with
    cds := Function.update s.cds cd (some ⟨some dev, users.count + 1, some d⟩)
    deviceRefs := Function.update s.deviceRefs p (s.deviceRefs p + 1) } with ht
  have hholds : Holds t d cd users.acquire.count := by
    rw [Shared.count_acquire]
    exact ⟨hs.priv, dev, Function.update_self ..⟩
  -- `tcr_cd_get` takes both references, and an open that succeeds keeps them
  have hopen : tcrBlockOpen queueHeld s 0 d = (0, t) := by
    unfold tcrBlockOpen
    rw [hget]
    dsimp only
    rw [useCd_of_holds hholds]
    rfl
  rw [hopen]
  have hacq := Shared.held_acquire users
  refine ⟨rfl, ?_⟩
  exact
    { tracks := ⟨fun _ => hholds, fun h => absurd hacq h⟩
      freed := fun h => absurd hacq h
      released := (if_pos hacq).symm
      bits := (if_pos hacq).symm
      deviceRefs := fun q => by
        rw [hp, ht]
        rcases eq_or_ne q p with rfl | hne
        · simp
        · simp [hne, hne.symm]
      cds := fun c hc => Function.update_of_ne hc ..
      gendisks := fun _ _ => rfl
      firstMinor := rfl
      cdromDev := rfl
      tdev := rfl
      blkdev := rfl
      drvdata := rfl
      nextId := rfl
      added := rfl
      oops := rfl }

/-- If `cdrom_open` fails, the references are given back. -/
theorem tcrBlockOpen_failed (hs : Holds s d cd k) (hk : 0 < k) (hp : s.cdromDev = some p)
    {ret : Int} (hret : ret ≠ 0) : tcrBlockOpen queueHeld s ret d = (ret, s) := by
  obtain ⟨dev, hcd, hget⟩ := tcrCdGet_eq queueHeld hs hp
  set t : Tcr := { s with
    cds := Function.update s.cds cd (some ⟨some dev, k + 1, some d⟩)
    deviceRefs := Function.update s.deviceRefs p (s.deviceRefs p + 1) } with ht
  have hholds : Holds t d cd (k + 1) := ⟨hs.priv, dev, Function.update_self ..⟩
  -- what `tcr_cd_put` leaves is the state before `tcr_cd_get`
  have hput : tcrCdPut queueHeld t cd = s := by
    have hcds : Function.update t.cds cd (some ⟨some dev, k + 1 - 1, some d⟩) = s.cds := by
      rw [Int.add_sub_cancel, ← hcd]
      exact (Function.update_idem ..).trans (Function.update_eq_self cd s.cds)
    have hrefs : Function.update t.deviceRefs p (t.deviceRefs p - 1) = s.deviceRefs := by
      simp [ht]
    have hkref : krefPut queueHeld t cd = { t with cds := s.cds } := by
      unfold krefPut
      rw [show t.cds cd = some ⟨some dev, k + 1, some d⟩ from Function.update_self ..]
      dsimp only
      rw [if_neg (by omega), Tcr.setCd, hcds]
    unfold tcrCdPut
    rw [hkref, putDevice_eq (s := { t with cds := s.cds }) hp]
    exact congrArg (fun refs => { s with deviceRefs := refs }) hrefs
  unfold tcrBlockOpen
  rw [hget]
  dsimp only
  rw [useCd_of_holds hholds, if_pos hret, hput]

end Open

/-- **A close.** -/
theorem tcrBlockRelease_call (hs : Holds s d cd users.count) (hopen : 0 < users.handles) {p : Nat}
    (hp : s.cdromDev = some p) :
    DiskCall s (tcrBlockRelease queueHeld s d) d cd users.drop (-1) := by
  unfold tcrBlockRelease tcrCdPut
  rw [hs.priv]
  dsimp only
  rw [useCd_of_holds hs]
  exact (krefPut_call queueHeld hs (Shared.count_drop hopen)).putDevice hp

/-- **The removal.** -/
theorem tcrRemove_call (hs : Holds s d cd users.count) (howned : users.owned = true) {pdev : Nat}
    (hdrv : s.drvdata pdev = some cd) :
    DiskCall s (tcrRemove queueHeld s pdev) d cd users.disown 0 := by
  unfold tcrRemove
  rw [hdrv]
  dsimp only
  rw [useCd_of_holds hs]
  exact krefPut_call queueHeld hs (Shared.count_disown howned)

/-! ### What a probe does -/

theorem findFirstZeroBit_eq_size {bits : Nat → Bool} {size : Nat} :
    findFirstZeroBit bits size = size ↔ ∀ m < size, bits m = true := by
  unfold findFirstZeroBit
  cases hfind : (List.range size).find? fun i => !bits i with
  | none =>
    rw [List.find?_eq_none] at hfind
    exact ⟨fun _ m hm => by simpa using hfind m (List.mem_range.mpr hm), fun _ => rfl⟩
  | some i =>
    have hlt := List.mem_range.mp (List.mem_of_find?_eq_some hfind)
    have hclear := List.find?_some hfind
    exact ⟨fun h => absurd h (Nat.ne_of_lt hlt), fun h => by simp [h i hlt] at hclear⟩

/-- The bit found is clear. -/
theorem findFirstZeroBit_clear {bits : Nat → Bool} {size : Nat}
    (h : findFirstZeroBit bits size ≠ size) : bits (findFirstZeroBit bits size) = false := by
  unfold findFirstZeroBit at h ⊢
  cases hfind : (List.range size).find? fun i => !bits i with
  | none =>
    rw [hfind] at h
    exact absurd rfl h
  | some i =>
    have hclear := List.find?_some hfind
    simpa using hclear

/-- Nothing fails. -/
structure Feasible (s : Tcr) (a : Attempt) : Prop where
  cd : a.cd = true
  disk : a.disk = true
  minor : findFirstZeroBit s.tcrIndexBits tcrDisks ≠ tcrDisks
  registerCdrom : a.registerCdrom = 0

variable {a : Attempt} (pdev : Nat)

/-- Everything is set up for `register_cdrom`. -/
theorem setUpDisk_eq (minor : Nat) :
    setUpDisk (allocDisk (allocTdev s)) s.nextId (s.nextId + 4) minor =
      { s with
        tdev := some ⟨s.nextId + 1, s.nextId + 2, s.nextId + 3, some (s.nextId + 4 + 1)⟩
        tcrIndexBits := Function.update s.tcrIndexBits minor true
        cds := Function.update s.cds s.nextId
          (some ⟨some (s.nextId + 1), 1, some (s.nextId + 4)⟩)
        gendisks := Function.update s.gendisks (s.nextId + 4)
          ⟨minor, some s.nextId, some (s.nextId + 4 + 1)⟩
        queueRefs := Function.update s.queueRefs (s.nextId + 4 + 1) 1
        live := [.requestQueue (s.nextId + 4 + 1), .gendisk (s.nextId + 4),
          .tdevBuf (s.nextId + 3), .tdevData (s.nextId + 2), .tcrDevice (s.nextId + 1),
          .tccCd s.nextId] ++ s.live
        nextId := s.nextId + 4 + 1 + 1 } := by
  simp only [setUpDisk, allocDisk, allocTdev, Option.map_some, Function.update_idem]
  rfl

/-- **A probe that succeeds.** -/
theorem tcrInitial_ok (h : Feasible s a) : ∃ refs live,
    tcrInitial queueHeld s a pdev = (0,
      { s with
        tdev := some ⟨s.nextId + 1, s.nextId + 2, s.nextId + 3, some (s.nextId + 5)⟩
        tcrIndexBits := Function.update s.tcrIndexBits
          (findFirstZeroBit s.tcrIndexBits tcrDisks) true
        drvdata := Function.update s.drvdata pdev (some s.nextId)
        cds := Function.update s.cds s.nextId
          (some ⟨some (s.nextId + 1), 1, some (s.nextId + 4)⟩)
        gendisks := Function.update s.gendisks (s.nextId + 4)
          ⟨findFirstZeroBit s.tcrIndexBits tcrDisks, some s.nextId, some (s.nextId + 5)⟩
        nextId := s.nextId + 7
        added := (s.nextId + 4) :: s.added
        queueRefs := refs
        live := live }) := by
  unfold tcrInitial
  rw [if_neg (by simp [h.cd])]
  dsimp only
  rw [if_neg (by simp [h.disk])]
  rw [show (allocTdev s).nextId = s.nextId + 4 from rfl,
    show (allocDisk (allocTdev s)).tcrIndexBits = s.tcrIndexBits from rfl, if_neg h.minor,
    setUpDisk_eq, if_neg (by simp [h.registerCdrom])]
  exact ⟨_, _, rfl⟩

/-- `tcr_initial` succeeds if nothing fails, and fails with a negative error else. -/
theorem tcrInitial_neg (h : ¬ Feasible s a) : (tcrInitial queueHeld s a pdev).1 < 0 := by
  have hnomem : negEnomem < 0 := by decide
  have hbusy : negEbusy < 0 := by decide
  unfold tcrInitial
  dsimp only
  split_ifs with hcd hdisk hminor hreg
  · exact hnomem
  · exact hnomem
  · exact hbusy
  · exact hnomem
  · exact absurd ⟨by simpa using hcd, by simpa using hdisk, hminor, by simpa using hreg⟩ h

theorem tcrInitial_eq_zero : (tcrInitial queueHeld s a pdev).1 = 0 ↔ Feasible s a := by
  constructor
  · intro h
    by_contra hfail
    exact absurd h (tcrInitial_neg queueHeld pdev hfail).ne
  · intro h
    obtain ⟨refs, live, heq⟩ := tcrInitial_ok queueHeld pdev h
    rw [heq]

/-! ### What a failed probe leaves -/

theorem live_free (o : Obj) : s.live.length ≤ (s.free o).live.length + 1 := by
  show _ ≤ (s.live.erase o).length + 1
  rw [List.length_erase]
  split
  · omega
  · omega

theorem live_blkPutQueue (q : Nat) : s.live.length ≤ (blkPutQueue s q).live.length + 1 := by
  unfold blkPutQueue
  split
  · exact live_free _
  · exact Nat.le_succ _

theorem live_putDisk (d : Nat) : s.live.length ≤ (putDisk queueHeld s d).live.length + 2 := by
  unfold putDisk
  split
  · next q hq =>
    have hqueue := live_blkPutQueue (s := s) q
    have hdisk := live_free (s := blkPutQueue s q) (.gendisk d)
    omega
  · have hdisk := live_free (s := s) (.gendisk d)
    omega

/-- Past the allocation of the `tcc_cd`, a probe that fails leaves objects behind. -/
theorem live_tcrInitial (h : ¬ Feasible s a) (hcd : a.cd = true) :
    s.live.length < (tcrInitial queueHeld s a pdev).2.live.length := by
  have hfree (t : Tcr) : t.live.length ≤ (t.freeCd s.nextId).live.length + 1 := live_free _
  unfold tcrInitial
  rw [if_neg (by simp [hcd])]
  dsimp only
  have htdev : (allocTdev s).live.length = s.live.length + 4 := rfl
  have hdisk : (allocDisk (allocTdev s)).live.length = s.live.length + 5 := rfl
  -- the labels free the `tcc_cd`, the disk and, with it, a queue at most
  split_ifs with hd hminor hreg
  · -- `fail_free`
    have hleft := hfree (allocTdev s)
    show _ < ((allocTdev s).freeCd s.nextId).live.length
    omega
  · -- `fail_put`, no index
    have hput := live_putDisk queueHeld (s := allocDisk (allocTdev s)) (s.nextId + 4)
    have hleft := hfree (putDisk queueHeld (allocDisk (allocTdev s)) (s.nextId + 4))
    show _ < ((putDisk queueHeld (allocDisk (allocTdev s)) (s.nextId + 4)).freeCd
      s.nextId).live.length
    omega
  · -- `fail_put`, `register_cdrom` failed
    set u := setUpDisk (allocDisk (allocTdev s)) s.nextId (allocTdev s).nextId
      (findFirstZeroBit (allocDisk (allocTdev s)).tcrIndexBits tcrDisks) with hu
    have hlive : u.live.length = s.live.length + 6 := rfl
    have hput := live_putDisk queueHeld (s := u) (s.nextId + 4)
    have hleft := hfree (putDisk queueHeld u (s.nextId + 4))
    show _ < ((putDisk queueHeld u (s.nextId + 4)).freeCd s.nextId).live.length
    omega
  · exact absurd ⟨hcd, by simpa using hd, hminor, by simpa using hreg⟩ h

end CdPlayer
