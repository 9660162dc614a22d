/-
CdPlayer/DiskCalls.lean

The calls on a disk, statement by statement: `tcr_block_open`,
`tcr_block_release`, `tcr_block_ioctl` and `tcr_remove`, with what they call
under `tcr_mutex` and `tcr_ref_mutex` (cdrom.c).

`Lifetime` takes each of these calls as one step.  Here any number of them
are under way, and between two statements of one any of the others may make
theirs; a lock lets a call on if nobody has it.  `tcr_block_release` and
`tcr_block_ioctl` follow `private_data`, and `tcr_remove` the device, before
they have any lock.

* `references_balance`: in every state of every interleaving the reference
  count is that of the files that are open, the calls that have taken a
  reference and not given it back, and the platform device until the removal;
  the `tcc_cd` is freed once, with the last of them, and no call ever follows
  a pointer to it after that.  Whenever no call is under way the driver is as
  `Lifetime` says.
* `calls_complete`: some call can go on until all have ended, and all end
  within fourteen statements times the number of calls.
-/
import CdPlayer.Lib.Locks
import CdPlayer.Lifetime

namespace CdPlayer

open RefCount Locks

/-! ### Statements -/

inductive TcrLock
  /-- `tcr_mutex`. -/
  | mutex
  /-- `tcr_ref_mutex`. -/
  | refMutex
  deriving DecidableEq, Repr

/-- Where a call stands: the statement that comes next. -/
inductive CdCall
  /-- `tcr_block_open`: `mutex_lock(&tcr_mutex)`. -/
  | openLock
  /-- `tcr_cd_get`: `mutex_lock(&tcr_ref_mutex)`. -/
  | getLock
  /-- `if(disk->private_data == NULL)`. -/
  | getLook
  /-- `kref_get`. -/
  | getRef (cd : Nat)
  /-- `get_device`. -/
  | getDev (cd : Nat)
  /-- `if(cd->device == NULL)`. -/
  | getCheck (cd : Nat)
  /-- `out_put`. -/
  | getUndo (cd : Nat)
  /-- `out`, with what `tcr_cd_get` returns. -/
  | getUnlock (cd : Option Nat)
  | cdromOpen (cd : Nat)
  /-- `tcr_block_release`: `cd = tcc_cd(disk)`. -/
  | releaseLook
  | releaseLock (cd : Nat)
  | cdromRelease (cd : Nat)
  /-- `tcr_cd_put`, in a call that will return `ret`. -/
  | putLock (cd : Nat) (ret : Int)
  | putRef (cd : Nat) (ret : Int)
  | putDev (ret : Int)
  | putUnlock (ret : Int)
  /-- `tcr_block_ioctl`: `cd = tcc_cd(bdev->bd_disk)`. -/
  | ioctlLook
  | ioctlLock (cd : Nat)
  | cdromIoctl (cd : Nat)
  /-- `mutex_unlock(&tcr_mutex); return ret`. -/
  | leave (ret : Int)
  /-- `tcr_remove`: `dev_get_drvdata`, `del_gendisk(cd->disk)`. -/
  | removeLook
  | removeLock (cd : Nat)
  | removeRef (cd : Nat)
  | removeUnlock
  | ended (ret : Int)
  deriving DecidableEq, Repr

/-- What a statement does, and where the call stands then. -/
inductive Statement
  | lock (l : TcrLock) (next : CdCall)
  | unlock (l : TcrLock) (next : CdCall)
  | act (t : Tcr) (next : CdCall)
  /-- The file is open. -/
  | opened (t : Tcr) (next : CdCall)

variable (queueHeld : Bool) (pdev d : Nat)

/-- `tcc_cd(disk)`, followed by `next`. -/
def followDisk (t : Tcr) (next : Nat → CdCall) : Statement :=
  match (t.gendisks d).privateData with
  | none => .act t.fault (.ended 0)
  | some cd => .act t (next cd)

/-- The next statement of a call.  `ret` is what `cdrom_open` or `cdrom_ioctl`
returns. -/
def CdCall.statement (ret : Int) (t : Tcr) : CdCall → Option Statement
  | .openLock => some (.lock .mutex .getLock)
  | .getLock => some (.lock .refMutex .getLook)
  | .getLook =>
    match (t.gendisks d).privateData with
    | none => some (.act t (.getUnlock none))
    | some cd => some (.act t (.getRef cd))
  | .getRef cd => some (.act (krefGet t cd) (.getDev cd))
  | .getDev cd => some (.act (getDevice t) (.getCheck cd))
  | .getCheck cd =>
    match t.cds cd with
    | none => some (.act t.fault (.getUnlock none))
    | some c => some (.act t (if c.device = none then .getUndo cd else .getUnlock (some cd)))
  | .getUndo cd => some (.act (krefPut queueHeld t cd) (.getUnlock none))
  | .getUnlock none => some (.unlock .refMutex (.leave negEnxio))
  | .getUnlock (some cd) => some (.unlock .refMutex (.cdromOpen cd))
  | .cdromOpen cd =>
    if ret ≠ 0 then some (.act (useCd t cd) (.putLock cd ret))
    else some (.opened (useCd t cd) (.leave 0))
  | .releaseLook => some (followDisk d t .releaseLock)
  | .releaseLock cd => some (.lock .mutex (.cdromRelease cd))
  | .cdromRelease cd => some (.act (useCd t cd) (.putLock cd 0))
  | .putLock cd ret => some (.lock .refMutex (.putRef cd ret))
  | .putRef cd ret => some (.act (krefPut queueHeld t cd) (.putDev ret))
  | .putDev ret => some (.act (putDevice t) (.putUnlock ret))
  | .putUnlock ret => some (.unlock .refMutex (.leave ret))
  | .ioctlLook => some (followDisk d t .ioctlLock)
  | .ioctlLock cd => some (.lock .mutex (.cdromIoctl cd))
  | .cdromIoctl cd => some (.act (useCd t cd) (.leave ret))
  | .leave ret => some (.unlock .mutex (.ended ret))
  | .removeLook =>
    match t.drvdata pdev with
    | none => some (.act t.fault (.ended 0))
    | some cd => some (.act (useCd t cd) (.removeLock cd))
  | .removeLock cd => some (.lock .refMutex (.removeRef cd))
  | .removeRef cd => some (.act (krefPut queueHeld t cd) .removeUnlock)
  | .removeUnlock => some (.unlock .refMutex (.ended 0))
  | .ended _ => none

/-! ### The calls together -/

structure CdCalls where
  tcr : Tcr
  owner : TcrLock → Option Nat
  calls : List CdCall
  /-- The files that are open, without those whose release has begun. -/
  opens : Nat
  /-- `tcr_remove` has not been called. -/
  bound : Bool

inductive CallOp
  | beginOpen
  | beginRelease
  | beginIoctl
  | beginRemove
  /-- The next statement of call `j`. -/
  | run (j : Nat) (ret : Int)

/-- An ioctl that has yet to use the `tcc_cd`: its file stays open. -/
def CdCall.pins : CdCall → Nat
  | .ioctlLook | .ioctlLock _ | .cdromIoctl _ => 1
  | _ => 0

def CdCalls.move (s : CdCalls) (j : Nat) (next : CdCall) : CdCalls :=
  { s with calls := s.calls.set j next }

def CdCalls.start (s : CdCalls) (c : CdCall) : CdCalls := { s with calls := s.calls ++ [c] }

/-- CdCall `j` makes a statement; `mutex_lock` waits. -/
def CdCalls.perform (s : CdCalls) (j : Nat) : Statement → CdCalls
  | .lock l next =>
    if s.owner l = none then { s.move j next with owner := Function.update s.owner l (some j) }
    else s
  | .unlock l next => { s.move j next with owner := Function.update s.owner l none }
  | .act t next => { s.move j next with tcr := t }
  | .opened t next => { s.move j next with tcr := t, opens := s.opens + 1 }

/-- The kernel releases a file that is open and not in use, and calls on files
that are open; the device is removed once. -/
def callStep (s : CdCalls) : CallOp → CdCalls
  | .beginOpen => s.start .openLock
  | .beginRelease =>
    if 0 < s.opens ∧ (total CdCall.pins s.calls = 0 ∨ 1 < s.opens) then
      { s.start .releaseLook with opens := s.opens - 1 }
    else s
  | .beginIoctl => if 0 < s.opens then s.start .ioctlLook else s
  | .beginRemove => if s.bound then { s.start .removeLook with bound := false } else s
  | .run j ret =>
    match s.calls[j]? with
    | none => s
    | some c =>
      match c.statement queueHeld pdev d ret s.tcr with
      | none => s
      | some st => s.perform j st

/-! ### Where a call stands -/

/-- Inside the section of a lock. -/
def CdCall.holds : TcrLock → CdCall → Bool
  | .mutex, .getLock | .mutex, .getLook | .mutex, .getRef _ | .mutex, .getDev _
  | .mutex, .getCheck _ | .mutex, .getUndo _ | .mutex, .getUnlock _ | .mutex, .cdromOpen _
  | .mutex, .cdromRelease _ | .mutex, .putLock _ _ | .mutex, .putRef _ _ | .mutex, .putDev _
  | .mutex, .putUnlock _ | .mutex, .cdromIoctl _ | .mutex, .leave _ => true
  | .refMutex, .getLook | .refMutex, .getRef _ | .refMutex, .getDev _ | .refMutex, .getCheck _
  | .refMutex, .getUndo _ | .refMutex, .getUnlock _ | .refMutex, .putRef _ _ | .refMutex, .putDev _
  | .refMutex, .putUnlock _ | .refMutex, .removeRef _ | .refMutex, .removeUnlock => true
  | _, _ => false

/-- The lock that the next statement takes. -/
def CdCall.wants : CdCall → Option TcrLock
  | .openLock | .releaseLock _ | .ioctlLock _ => some .mutex
  | .getLock | .putLock _ _ | .removeLock _ => some .refMutex
  | _ => none

/-- The references to the `tcc_cd` that a call has to give back. -/
def CdCall.refs : CdCall → Nat
  | .getDev _ | .getCheck _ | .getUndo _ | .getUnlock (some _) | .cdromOpen _ | .releaseLook
  | .releaseLock _ | .cdromRelease _ | .putLock _ _ | .putRef _ _ => 1
  | _ => 0

/-- The references to `cdrom_dev` that it has to give back. -/
def CdCall.devs : CdCall → Nat
  | .getCheck _ | .getUndo _ | .getUnlock (some _) | .cdromOpen _ | .releaseLook | .releaseLock _
  | .cdromRelease _ | .putLock _ _ | .putRef _ _ | .putDev _ => 1
  | _ => 0

/-- A removal that has yet to give up the reference of the platform device. -/
def CdCall.owns : CdCall → Nat
  | .removeLook | .removeLock _ | .removeRef _ => 1
  | _ => 0

/-- `private_data` has been looked at, and the reference not yet taken. -/
def CdCall.Looked : CdCall → Prop
  | .getRef _ => True
  | _ => False

/-- The pointer that it has read is to the `tcc_cd` of the disk. -/
def CdCall.Follows (cd : Nat) : CdCall → Prop
  | .getRef x | .getDev x | .getCheck x | .getUnlock (some x) | .cdromOpen x | .releaseLock x
  | .cdromRelease x | .putLock x _ | .putRef x _ | .ioctlLock x | .cdromIoctl x | .removeLock x
  | .removeRef x => x = cd
  | .getUndo _ => False
  | _ => True

/-- An upper bound on the statements to come. -/
def CdCall.remaining : CdCall → Nat
  | .openLock => 14
  | .getLock => 13
  | .getLook => 12
  | .getRef _ => 11
  | .getDev _ => 10
  | .getCheck _ => 9
  | .getUndo _ => 8
  | .getUnlock _ => 7
  | .cdromOpen _ => 6
  | .releaseLook => 8
  | .releaseLock _ => 7
  | .cdromRelease _ => 6
  | .putLock _ _ => 5
  | .putRef _ _ => 4
  | .putDev _ => 3
  | .putUnlock _ => 2
  | .ioctlLook => 4
  | .ioctlLock _ => 3
  | .cdromIoctl _ => 2
  | .leave _ => 1
  | .removeLook => 4
  | .removeLock _ => 3
  | .removeRef _ => 2
  | .removeUnlock => 1
  | .ended _ => 0

/-- Each lock is owned by the call inside its section. -/
def CdCalls.Locked (s : CdCalls) : Prop :=
  ∀ l, Guards (fun c : CdCall => c.holds l = true) (s.owner l) s.calls

/-- Who holds the `tcc_cd`. -/
def CdCalls.users (s : CdCalls) : Shared :=
  ⟨s.opens + total CdCall.refs s.calls, decide (0 < s.bound.toNat + total CdCall.owns s.calls)⟩

/-- The references to `cdrom_dev` that have been taken. -/
def CdCalls.devices (s : CdCalls) : Nat := s.opens + total CdCall.devs s.calls

/-- No call is under way. -/
def CdCalls.AtRest (s : CdCalls) : Prop := ∀ c ∈ s.calls, c.remaining = 0

/-- CdCall `j` has a statement to make, and no lock keeps it. -/
def CdCalls.CanRun (s : CdCalls) (j : Nat) : Prop :=
  ∃ c, s.calls[j]? = some c ∧ 0 < c.remaining ∧ ∀ l, c.wants = some l → s.owner l = none

def CdCalls.remaining (s : CdCalls) : Nat := total CdCall.remaining s.calls

/-- `tcc_cdrom_probe` is through. -/
def CdCalls.probed (t : Tcr) : CdCalls := ⟨t, fun _ => none, [], 0, true⟩

/-! ### What a statement does -/

variable {queueHeld pdev d} {cd : Nat} {t : Tcr} {users users' : Shared} {n : Nat}
variable {c next : CdCall} {st : Statement} {ret : Int}

/-- Where a statement leads, and what it adds to what the call has to give back. -/
structure Credits (cd : Nat) (t : Tcr) (d : Nat) (c next : CdCall) (refs devs owns : Int) :
    Prop where
  follows : next.Follows cd
  refs : (next.refs : Int) = c.refs + refs
  devs : (next.devs : Int) = c.devs + devs
  owns : (next.owns : Int) = c.owns + owns
  pins : next.pins ≤ c.pins
  looked : next.Looked → (t.gendisks d).privateData ≠ none

/-- **What a statement can do.** -/
inductive Made (queueHeld : Bool) (d cd : Nat) (t : Tcr) (c : CdCall) : Statement → Prop
  | lock (l : TcrLock) (next : CdCall) (h : Credits cd t d c next 0 0 0) :
    Made queueHeld d cd t c (.lock l next)
  | unlock (l : TcrLock) (next : CdCall) (h : Credits cd t d c next 0 0 0) :
    Made queueHeld d cd t c (.unlock l next)
  | follow (next : CdCall) (h : Credits cd t d c next 0 0 0) : Made queueHeld d cd t c (.act t next)
  | getRef (next : CdCall) (h : Credits cd t d c next 1 0 0) (hlooked : c.Looked) :
    Made queueHeld d cd t c (.act (krefGet t cd) next)
  | getDev (next : CdCall) (h : Credits cd t d c next 0 1 0) :
    Made queueHeld d cd t c (.act (getDevice t) next)
  | putRef (next : CdCall) (h : Credits cd t d c next (-1) 0 0)
    (hin : c.holds .refMutex = true) (hnext : ¬ next.Looked) :
    Made queueHeld d cd t c (.act (krefPut queueHeld t cd) next)
  | putDev (next : CdCall) (h : Credits cd t d c next 0 (-1) 0) :
    Made queueHeld d cd t c (.act (putDevice t) next)
  | removeRef (next : CdCall) (h : Credits cd t d c next 0 0 (-1))
    (hin : c.holds .refMutex = true) (hnext : ¬ next.Looked) :
    Made queueHeld d cd t c (.act (krefPut queueHeld t cd) next)
  | opened (next : CdCall) (h : Credits cd t d c next (-1) (-1) 0) :
    Made queueHeld d cd t c (.opened t next)

/-- A call that is sure of the `tcc_cd`. -/
def CdCall.sure (c : CdCall) : Prop := 0 < c.refs + c.owns + c.pins

theorem followDisk_made {next : Nat → CdCall} {k : Int} (hs : Holds t d cd k)
    (h : Credits cd t d c (next cd) 0 0 0) : Made queueHeld d cd t c (followDisk d t next) := by
  unfold followDisk
  rw [hs.priv]
  exact .follow _ h

/-- **The statements of a call**, as long as its pointers are good. -/
theorem statement_made (hc : c.Follows cd) (hdrv : t.drvdata pdev = some cd)
    (hpriv : ∀ x, (t.gendisks d).privateData = some x → x = cd)
    (hsure : c.sure → ∃ k, Holds t d cd k)
    (hst : c.statement queueHeld pdev d ret t = some st) : Made queueHeld d cd t c st := by
  have huse : c.sure → useCd t cd = t := fun h => (hsure h).elim fun _ hs => useCd_of_holds hs
  cases c with
  | openLock | getLock | releaseLock x | putLock x ret | ioctlLock x | removeLock x =>
    cases hst
    exact .lock _ _ ⟨hc, rfl, rfl, rfl, le_rfl, False.elim⟩
  | putUnlock ret | leave ret | removeUnlock =>
    cases hst
    exact .unlock _ _ ⟨hc, rfl, rfl, rfl, le_rfl, False.elim⟩
  | getLook =>
    cases hp : (t.gendisks d).privateData with
    | none =>
      simp only [CdCall.statement, hp] at hst
      cases hst
      exact .follow _ ⟨trivial, rfl, rfl, rfl, le_rfl, False.elim⟩
    | some x =>
      simp only [CdCall.statement, hp] at hst
      cases hst
      exact .follow _ ⟨hpriv x hp, rfl, rfl, rfl, le_rfl, fun _ hnone => by simp [hp] at hnone⟩
  | getRef x =>
    cases hst
    cases hc
    exact .getRef _ ⟨rfl, rfl, rfl, rfl, le_rfl, False.elim⟩ trivial
  | getDev x =>
    cases hst
    exact .getDev _ ⟨hc, rfl, rfl, rfl, le_rfl, False.elim⟩
  | getCheck x =>
    cases hc
    obtain ⟨k, hs⟩ := hsure Nat.one_pos
    obtain ⟨dev, hcd⟩ := hs.cd
    simp only [CdCall.statement, hcd] at hst
    cases hst
    exact .follow _ ⟨rfl, rfl, rfl, rfl, le_rfl, False.elim⟩
  | getUndo x => exact hc.elim
  | getUnlock x =>
    cases x with
    | none =>
      cases hst
      exact .unlock _ _ ⟨trivial, rfl, rfl, rfl, le_rfl, False.elim⟩
    | some x =>
      cases hst
      exact .unlock _ _ ⟨hc, rfl, rfl, rfl, le_rfl, False.elim⟩
  | cdromOpen x =>
    cases hc
    simp only [CdCall.statement, huse Nat.one_pos] at hst
    split at hst
    · cases hst
      exact .follow _ ⟨rfl, rfl, rfl, rfl, le_rfl, False.elim⟩
    · cases hst
      exact .opened _ ⟨trivial, rfl, rfl, rfl, le_rfl, False.elim⟩
  | releaseLook =>
    cases hst
    obtain ⟨k, hs⟩ := hsure Nat.one_pos
    exact followDisk_made hs ⟨rfl, rfl, rfl, rfl, le_rfl, False.elim⟩
  | ioctlLook =>
    cases hst
    obtain ⟨k, hs⟩ := hsure Nat.one_pos
    exact followDisk_made hs ⟨rfl, rfl, rfl, rfl, le_rfl, False.elim⟩
  | cdromRelease x =>
    cases hc
    cases hst
    rw [huse Nat.one_pos]
    exact .follow _ ⟨rfl, rfl, rfl, rfl, le_rfl, False.elim⟩
  | cdromIoctl x =>
    cases hc
    cases hst
    rw [huse Nat.one_pos]
    exact .follow _ ⟨trivial, rfl, rfl, rfl, Nat.zero_le _, False.elim⟩
  | putRef x ret =>
    cases hc
    cases hst
    exact .putRef _ ⟨trivial, rfl, rfl, rfl, le_rfl, False.elim⟩ rfl False.elim
  | putDev ret =>
    cases hst
    exact .putDev _ ⟨trivial, rfl, rfl, rfl, le_rfl, False.elim⟩
  | removeLook =>
    simp only [CdCall.statement, hdrv] at hst
    cases hst
    rw [huse Nat.one_pos]
    exact .follow _ ⟨rfl, rfl, rfl, rfl, le_rfl, False.elim⟩
  | removeRef x =>
    cases hc
    cases hst
    exact .removeRef _ ⟨trivial, rfl, rfl, rfl, le_rfl, False.elim⟩ rfl False.elim
  | ended ret => cases hst

/-- **What a statement does to the locks.** -/
def KeepsLocks (c : CdCall) : Statement → Prop
  | .lock l next => ∀ l', next.holds l' = (c.holds l' || decide (l' = l))
  | .unlock l next => c.holds l = true ∧ ∀ l', next.holds l' = (c.holds l' && decide (l' ≠ l))
  | .act _ next | .opened _ next => ∀ l', next.holds l' = c.holds l'

theorem statement_locks (hst : c.statement queueHeld pdev d ret t = some st) :
    KeepsLocks c st := by
  have heach : ∀ {p : TcrLock → Prop}, p .mutex → p .refMutex → ∀ l, p l := by
    intro p h₁ h₂ l
    cases l with
    | mutex => exact h₁
    | refMutex => exact h₂
  cases c with
  | openLock | getLock | releaseLock x | putLock x ret | ioctlLock x | removeLock x | getRef x
  | getDev x | getUndo x | cdromRelease x | putRef x ret | putDev ret | cdromIoctl x
  | removeRef x =>
    cases hst
    exact heach rfl rfl
  | putUnlock ret | leave ret | removeUnlock =>
    cases hst
    exact ⟨rfl, heach rfl rfl⟩
  | getUnlock x =>
    cases x with
    | none =>
      cases hst
      exact ⟨rfl, heach rfl rfl⟩
    | some x =>
      cases hst
      exact ⟨rfl, heach rfl rfl⟩
  | getLook =>
    unfold CdCall.statement at hst
    simp only at hst
    split at hst
    · cases hst
      exact heach rfl rfl
    · cases hst
      exact heach rfl rfl
  | getCheck x =>
    unfold CdCall.statement at hst
    simp only at hst
    split at hst
    · cases hst
      exact heach rfl rfl
    · cases hst
      split
      · exact heach rfl rfl
      · exact heach rfl rfl
  | cdromOpen x =>
    unfold CdCall.statement at hst
    simp only at hst
    split at hst
    · cases hst
      exact heach rfl rfl
    · cases hst
      exact heach rfl rfl
  | releaseLook | ioctlLook =>
    cases hst
    unfold followDisk
    split
    · exact heach rfl rfl
    · exact heach rfl rfl
  | removeLook =>
    unfold CdCall.statement at hst
    simp only at hst
    split at hst
    · cases hst
      exact heach rfl rfl
    · cases hst
      exact heach rfl rfl
  | ended ret => cases hst

/-! ### References -/

/-- The books of the driver: the references to the `tcc_cd` are those of the
users, and `n` have been taken to `cdrom_dev`. -/
structure Books (s₁ : Tcr) (pdev d cd : Nat) (t : Tcr) (users : Shared) (n : Int) : Prop where
  tracks : Tracks t d cd users
  freed : ¬ users.Held → t.cds cd = none
  drvdata : t.drvdata pdev = some cd
  cdromDev : t.cdromDev = some pdev
  deviceRefs : ∀ p, t.deviceRefs p = s₁.deviceRefs p + if p = pdev then n else 0
  released : t.released = if users.Held then s₁.released else cd :: s₁.released
  oops : t.oops = false

variable {s₁ : Tcr} {k : Int}

theorem Books.pointer (h : Books s₁ pdev d cd t users k) {x : Nat}
    (hx : (t.gendisks d).privateData = some x) : x = cd := by
  by_cases hheld : users.Held
  · have hpriv := (h.tracks.held hheld).priv
    rw [hx] at hpriv
    exact Option.some.inj hpriv
  · rw [h.tracks.gone hheld] at hx
    cases hx

theorem Books.held (h : Books s₁ pdev d cd t users k)
    (hpriv : (t.gendisks d).privateData ≠ none) : users.Held := by
  by_contra hnot
  exact hpriv (h.tracks.gone hnot)

/-- `kref_get`. -/
theorem Books.get (h : Books s₁ pdev d cd t users k) (hheld : users.Held) :
    Books s₁ pdev d cd (krefGet t cd) users.acquire k := by
  have hs := h.tracks.held hheld
  obtain ⟨dev, hcd⟩ := hs.cd
  have hget : krefGet t cd = t.setCd cd ⟨some dev, users.count + 1, some d⟩ := by
    unfold krefGet
    rw [hcd]
  have hacq := Shared.held_acquire users
  rw [hget]
  refine ⟨⟨fun _ => ?_, fun hnot => absurd hacq hnot⟩, fun hnot => absurd hacq hnot, h.drvdata,
    h.cdromDev, h.deviceRefs, ?_, h.oops⟩
  · rw [Shared.count_acquire]
    exact ⟨hs.priv, dev, Function.update_self ..⟩
  · rw [if_pos hacq]
    exact h.released.trans (if_pos hheld)

/-- `kref_put`. -/
theorem Books.put (queueHeld : Bool) (h : Books s₁ pdev d cd t users k) (hheld : users.Held)
    (hcount : users.count = users'.count + 1) :
    Books s₁ pdev d cd (krefPut queueHeld t cd) users' k := by
  have hcall := krefPut_call queueHeld (h.tracks.held hheld) hcount
  refine ⟨hcall.tracks, hcall.freed, (congrFun hcall.drvdata pdev).trans h.drvdata,
    hcall.cdromDev.trans h.cdromDev, fun p => ?_, ?_, hcall.oops.trans h.oops⟩
  · rw [hcall.deviceRefs p, ite_self, Int.add_zero]
    exact h.deviceRefs p
  · rw [hcall.released, h.released, if_pos hheld]

/-- The count of `cdrom_dev` alone changes. -/
theorem Books.device (h : Books s₁ pdev d cd t users k) (m : Int) :
    Books s₁ pdev d cd
      { t with deviceRefs := Function.update t.deviceRefs pdev (t.deviceRefs pdev + m) }
      users (k + m) := by
  refine ⟨⟨fun hu => ⟨(h.tracks.held hu).priv, (h.tracks.held hu).cd⟩, h.tracks.gone⟩, h.freed,
    h.drvdata, h.cdromDev, fun p => ?_, h.released, h.oops⟩
  have hp := h.deviceRefs p
  rcases eq_or_ne p pdev with rfl | hne
  · rw [if_pos rfl] at hp ⊢
    show Function.update t.deviceRefs p (t.deviceRefs p + m) p = _
    rw [Function.update_self, hp, Int.add_assoc]
  · rw [if_neg hne] at hp ⊢
    exact (Function.update_of_ne hne ..).trans hp

theorem Books.getDevice (h : Books s₁ pdev d cd t users k) :
    Books s₁ pdev d cd (getDevice t) users (k + 1) := by
  have hget : CdPlayer.getDevice t
      = { t with deviceRefs := Function.update t.deviceRefs pdev (t.deviceRefs pdev + 1) } := by
    unfold CdPlayer.getDevice
    rw [h.cdromDev]
  rw [hget]
  exact h.device 1

theorem Books.putDevice (h : Books s₁ pdev d cd t users k) :
    Books s₁ pdev d cd (putDevice t) users (k + -1) := by
  rw [putDevice_eq h.cdromDev]
  exact h.device (-1)

/-! ### The invariant -/

structure Counted (s₁ : Tcr) (pdev d cd : Nat) (s : CdCalls) : Prop where
  books : Books s₁ pdev d cd s.tcr s.users s.devices
  guards : s.Locked
  follows : ∀ (i : Nat) (c : CdCall), s.calls[i]? = some c → c.Follows cd
  /-- What makes `kref_get` safe: nothing is given back between the look at
  `private_data` and it. -/
  looked : ∀ (i : Nat) (c : CdCall), s.calls[i]? = some c → c.Looked → s.users.Held
  owned : s.bound.toNat + total CdCall.owns s.calls ≤ 1
  pinned : total CdCall.pins s.calls = 0 ∨ 0 < s.opens

variable {s s' : CdCalls} {j : Nat} {refs devs owns : Int}

theorem Counted.sure (h : Counted s₁ pdev d cd s) (hc : s.calls[j]? = some c) (hsure : c.sure) :
    s.users.Held := by
  have hrefs := le_total CdCall.refs hc
  have howns := le_total CdCall.owns hc
  have hpins := le_total CdCall.pins hc
  have hpinned := h.pinned
  unfold CdCall.sure at hsure
  by_cases howned : 0 < s.bound.toNat + total CdCall.owns s.calls
  · exact .inl (decide_eq_true howned)
  · refine .inr ?_
    show 0 < s.opens + total CdCall.refs s.calls
    omega

/-- What a move adds to the users and to the references to `cdrom_dev`. -/
theorem Credits.moved (h : Credits cd t d c next refs devs owns) (hc : s.calls[j]? = some c)
    (hcalls : s'.calls = s.calls.set j next) (hbound : s'.bound = s.bound) :
    (s'.users.handles : Int) = s.users.handles + (s'.opens - s.opens) + refs ∧
      (s'.devices : Int) = s.devices + (s'.opens - s.opens) + devs ∧
      ((s'.bound.toNat + total CdCall.owns s'.calls : Nat) : Int)
        = (s.bound.toNat + total CdCall.owns s.calls : Nat) + owns ∧
      total CdCall.pins s'.calls ≤ total CdCall.pins s.calls := by
  have hrefs := total_move CdCall.refs next hc
  have hdevs := total_move CdCall.devs next hc
  have howns := total_move CdCall.owns next hc
  have hpins := total_move CdCall.pins next hc
  have h₁ := h.refs
  have h₂ := h.devs
  have h₃ := h.owns
  have h₄ := h.pins
  rw [hcalls, hbound]
  refine ⟨?_, ?_, ?_, ?_⟩
  · show ((s'.opens + total CdCall.refs s'.calls : Nat) : Int)
      = (s.opens + total CdCall.refs s.calls : Nat) + (s'.opens - s.opens) + refs
    rw [hcalls]
    omega
  · show ((s'.opens + total CdCall.devs s'.calls : Nat) : Int)
      = (s.opens + total CdCall.devs s.calls : Nat) + (s'.opens - s.opens) + devs
    rw [hcalls]
    omega
  · omega
  · omega

/-- The users after a move. -/
theorem Credits.users_eq (h : Credits cd t d c next refs devs 0) (hc : s.calls[j]? = some c)
    (hcalls : s'.calls = s.calls.set j next) (hbound : s'.bound = s.bound) {m : Nat}
    (hm : (m : Int) = s.users.handles + (s'.opens - s.opens) + refs) :
    s'.users = ⟨m, s.users.owned⟩ := by
  obtain ⟨hhandles, -, howns, -⟩ := h.moved hc hcalls hbound
  have howned : s'.bound.toNat + total CdCall.owns s'.calls
      = s.bound.toNat + total CdCall.owns s.calls := by omega
  refine Shared.ext ?_ ?_
  · show s'.users.handles = m
    omega
  · show decide (0 < s'.bound.toNat + total CdCall.owns s'.calls) = s.users.owned
    rw [howned]
    rfl

theorem Credits.acquired (h : Credits cd t d c next 1 devs 0) (hc : s.calls[j]? = some c)
    (hcalls : s'.calls = s.calls.set j next) (hbound : s'.bound = s.bound)
    (hopens : s'.opens = s.opens) : s'.users = s.users.acquire :=
  h.users_eq hc hcalls hbound (by push_cast; omega)

theorem Credits.dropped (h : Credits cd t d c next (-1) devs 0) (hc : s.calls[j]? = some c)
    (hcalls : s'.calls = s.calls.set j next) (hbound : s'.bound = s.bound)
    (hopens : s'.opens = s.opens) : 0 < s.users.handles ∧ s'.users = s.users.drop := by
  have hrefs := h.refs
  have hpos : 0 < s.users.handles := by
    have hle := le_total CdCall.refs hc
    show 0 < s.opens + total CdCall.refs s.calls
    omega
  exact ⟨hpos, h.users_eq hc hcalls hbound (by omega)⟩

theorem Credits.disowned (h : Credits cd t d c next 0 devs (-1)) (hc : s.calls[j]? = some c)
    (hcalls : s'.calls = s.calls.set j next) (hbound : s'.bound = s.bound)
    (hopens : s'.opens = s.opens) (hone : s.bound.toNat + total CdCall.owns s.calls ≤ 1) :
    s.users.owned = true ∧ s'.users = s.users.disown := by
  obtain ⟨hhandles, -, howns, -⟩ := h.moved hc hcalls hbound
  have hnone : s'.bound.toNat + total CdCall.owns s'.calls = 0 := by omega
  refine ⟨decide_eq_true (by omega), Shared.ext ?_ ?_⟩
  · show s'.users.handles = s.users.handles
    omega
  · show decide (0 < s'.bound.toNat + total CdCall.owns s'.calls) = false
    rw [hnone]
    rfl

theorem Counted.moved (h : Counted s₁ pdev d cd s) (hc : s.calls[j]? = some c)
    (hcredits : Credits cd s.tcr d c next refs devs owns)
    (hcalls : s'.calls = s.calls.set j next) (hbound : s'.bound = s.bound) (howns : owns ≤ 0)
    (hopens : s'.opens = s.opens + n)
    (hguards : s'.Locked)
    (husers : s'.users = users') (hbooks : Books s₁ pdev d cd s'.tcr users' k)
    (hk : k = s.devices + (n + devs))
    (hheld : ∀ (i : Nat) (e : CdCall), s'.calls[i]? = some e → e.Looked → s.users.Held →
      users'.Held) :
    Counted s₁ pdev d cd s' := by
  obtain ⟨-, hdevs, howned, hpins⟩ := hcredits.moved hc hcalls hbound
  have hdevices : (s'.devices : Int) = k := by omega
  rw [← husers, ← hdevices] at hbooks
  have hone := h.owned
  have hstand : ∀ (i : Nat) (e : CdCall), s'.calls[i]? = some e →
      i = j ∧ e = next ∨ s.calls[i]? = some e := by
    intro i e he
    rw [hcalls, getElem?_move hc] at he
    split at he
    next hij => exact .inl ⟨hij, (Option.some.inj he).symm⟩
    next => exact .inr he
  refine ⟨hbooks, hguards, fun i e he => ?_, fun i e he hlooked => ?_, by omega, ?_⟩
  · rcases hstand i e he with ⟨-, rfl⟩ | hold
    · exact hcredits.follows
    · exact h.follows i e hold
  · refine husers ▸ hheld i e he hlooked ?_
    rcases hstand i e he with ⟨-, rfl⟩ | hold
    · exact h.books.held (hcredits.looked hlooked)
    · exact h.looked i e hold hlooked
  · rcases h.pinned with hnone | hpos
    · exact .inl (by omega)
    · exact .inr (by omega)

/-- A statement after which the users are the same; it opens `n` files. -/
theorem Counted.same (h : Counted s₁ pdev d cd s) (hc : s.calls[j]? = some c)
    (hcredits : Credits cd s.tcr d c next refs devs 0)
    (hcalls : s'.calls = s.calls.set j next) (hbound : s'.bound = s.bound)
    (hopens : s'.opens = s.opens + n) (hrefs : (n : Int) + refs = 0)
    (hguards : s'.Locked)
    (hbooks : Books s₁ pdev d cd s'.tcr s.users k) (hk : k = s.devices + (n + devs)) :
    Counted s₁ pdev d cd s' := by
  have husers : s'.users = s.users :=
    hcredits.users_eq hc hcalls hbound (m := s.users.handles) (by omega)
  exact h.moved hc hcredits hcalls hbound le_rfl hopens hguards husers hbooks hk
    fun _ _ _ _ hheld => hheld

/-- The locks after a statement. -/
theorem CdCalls.Locked.perform (hguards : s.Locked) (hc : s.calls[j]? = some c)
    (hlocks : KeepsLocks c st) : (s.perform j st).Locked := by
  intro l
  cases st with
  | lock l₀ next =>
    unfold CdCalls.perform
    simp only
    split
    next hfree =>
      show Guards _ (Function.update s.owner l₀ (some j) l) (s.calls.set j next)
      rcases eq_or_ne l l₀ with rfl | hne
      · rw [Function.update_self]
        have hg := hguards l
        rw [hfree] at hg
        exact hg.acquire hc (by simp [hlocks l])
      · rw [Function.update_of_ne hne]
        exact (hguards l).keep hc (by simp [hlocks l, hne])
    next => exact hguards l
  | unlock l₀ next =>
    obtain ⟨hin, hnext⟩ := hlocks
    show Guards _ (Function.update s.owner l₀ none l) (s.calls.set j next)
    rcases eq_or_ne l l₀ with rfl | hne
    · rw [Function.update_self]
      exact (hguards l).release hc hin (by simp [hnext l])
    · rw [Function.update_of_ne hne]
      exact (hguards l).keep hc (by simp [hnext l, hne])
  | act t next => exact (hguards l).keep hc (by rw [hlocks l])
  | opened t next => exact (hguards l).keep hc (by rw [hlocks l])

/-- **Every step keeps the locks.** -/
theorem CdCalls.Locked.step (queueHeld : Bool) (pdev d : Nat) (hguards : s.Locked) (op : CallOp) :
    (callStep queueHeld pdev d s op).Locked := by
  intro l
  have hbegin : ∀ {c : CdCall}, c.holds .mutex = false → c.holds .refMutex = false →
      Guards (fun c : CdCall => c.holds l = true) (s.owner l) (s.calls ++ [c]) := by
    intro c h₁ h₂
    refine (hguards l).append ?_
    cases l with
    | mutex => simp [h₁]
    | refMutex => simp [h₂]
  cases op with
  | beginOpen => exact hbegin rfl rfl
  | beginRelease | beginIoctl | beginRemove =>
    unfold callStep
    simp only
    split
    next => exact hbegin rfl rfl
    next => exact hguards l
  | run j ret =>
    unfold callStep
    simp only
    split
    next => exact hguards l
    next c hc =>
      split
      next => exact hguards l
      next st hst => exact hguards.perform hc (statement_locks hst) l

/-- **A statement of one call keeps the books.** -/
theorem Counted.perform (h : Counted s₁ pdev d cd s) (hc : s.calls[j]? = some c)
    (hst : c.statement queueHeld pdev d ret s.tcr = some st) :
    Counted s₁ pdev d cd (s.perform j st) := by
  have hguards := h.guards.perform hc (statement_locks hst)
  have hmade : Made queueHeld d cd s.tcr c st :=
    statement_made (h.follows j c hc) h.books.drvdata (fun x hx => h.books.pointer hx)
      (fun hsure => ⟨_, h.books.tracks.held (h.sure hc hsure)⟩) hst
  -- a reference is given back under `tcr_ref_mutex`, so nobody has just looked
  have halone : ∀ {next : CdCall}, c.holds .refMutex = true → ¬ next.Looked →
      ∀ (i : Nat) (e : CdCall), (s.calls.set j next)[i]? = some e → ¬ e.Looked := by
    intro next hin hnext i e he hlooked
    rw [getElem?_move hc] at he
    split at he
    next => exact hnext (Option.some.inj he ▸ hlooked)
    next hij =>
      have hinside : e.holds .refMutex = true := by
        cases e with
        | getRef x => rfl
        | _ => exact hlooked.elim
      exact hij ((h.guards .refMutex).exclusive he hinside hc hin)
  cases hmade with
  | lock l next hcredits =>
    unfold CdCalls.perform at hguards ⊢
    simp only at hguards ⊢
    split
    next hfree =>
      rw [if_pos hfree] at hguards
      exact h.same hc hcredits rfl rfl rfl rfl hguards h.books (by simp)
    next => exact h
  | unlock l next hcredits =>
    exact h.same hc hcredits rfl rfl rfl rfl hguards h.books (by simp)
  | follow next hcredits =>
    exact h.same hc hcredits rfl rfl rfl rfl hguards h.books (by simp)
  | getRef next hcredits hlooked =>
    have husers : (s.perform j (.act (krefGet s.tcr cd) next)).users = s.users.acquire :=
      hcredits.acquired hc rfl rfl rfl
    exact h.moved (n := 0) hc hcredits rfl rfl le_rfl rfl hguards husers
      (h.books.get (h.looked j c hc hlooked)) (by simp) fun _ _ _ _ _ => Shared.held_acquire _
  | getDev next hcredits =>
    exact h.same hc hcredits rfl rfl rfl rfl hguards h.books.getDevice (by simp)
  | putRef next hcredits hin hnext =>
    obtain ⟨hpos, husers⟩ : 0 < s.users.handles ∧
        (s.perform j (.act (krefPut queueHeld s.tcr cd) next)).users = s.users.drop :=
      hcredits.dropped hc rfl rfl rfl
    exact h.moved (n := 0) hc hcredits rfl rfl le_rfl rfl hguards husers
      (h.books.put queueHeld (.inr hpos) (Shared.count_drop hpos)) (by simp)
      fun i e he hlooked _ => absurd hlooked (halone hin hnext i e he)
  | putDev next hcredits =>
    exact h.same hc hcredits rfl rfl rfl rfl hguards h.books.putDevice (by simp)
  | removeRef next hcredits hin hnext =>
    obtain ⟨howned, husers⟩ : s.users.owned = true ∧
        (s.perform j (.act (krefPut queueHeld s.tcr cd) next)).users = s.users.disown :=
      hcredits.disowned hc rfl rfl rfl h.owned
    exact h.moved (n := 0) hc hcredits rfl rfl (by decide) rfl hguards husers
      (h.books.put queueHeld (.inl howned) (Shared.count_disown howned)) (by simp)
      fun i e he hlooked _ => absurd hlooked (halone hin hnext i e he)
  | opened next hcredits =>
    exact h.same (n := 1) hc hcredits rfl rfl rfl rfl hguards h.books (by simp)

/-- **A call begins.**  What it will give back has been somebody else's. -/
theorem Counted.begin (h : Counted s₁ pdev d cd s)
    (hguards : s'.Locked)
    (hcalls : s'.calls = s.calls ++ [c]) (htcr : s'.tcr = s.tcr) (hfollows : c.Follows cd)
    (hlooked : ¬ c.Looked) (hrefs : s'.opens + c.refs = s.opens)
    (hdevs : s'.opens + c.devs = s.opens) (howns : s'.bound.toNat + c.owns = s.bound.toNat)
    (hpins : total CdCall.pins s.calls + c.pins = 0 ∨ 0 < s'.opens) :
    Counted s₁ pdev d cd s' := by
  have howned := h.owned
  have hsame : s'.bound.toNat + total CdCall.owns s'.calls
      = s.bound.toNat + total CdCall.owns s.calls := by
    rw [hcalls, total_append]
    omega
  have husers : s'.users = s.users := by
    refine Shared.ext ?_ ?_
    · show s'.opens + total CdCall.refs s'.calls = s.opens + total CdCall.refs s.calls
      rw [hcalls, total_append]
      omega
    · show decide (0 < s'.bound.toNat + total CdCall.owns s'.calls) = s.users.owned
      rw [hsame]
      rfl
  have hdevices : s'.devices = s.devices := by
    show s'.opens + total CdCall.devs s'.calls = s.opens + total CdCall.devs s.calls
    rw [hcalls, total_append]
    omega
  have hstand : ∀ (i : Nat) (e : CdCall), s'.calls[i]? = some e → e = c ∨ s.calls[i]? = some e := by
    intro i e he
    rw [hcalls] at he
    rcases Nat.lt_or_ge i s.calls.length with hlt | hge
    · exact .inr ((List.getElem?_append_left hlt).symm.trans he)
    · rw [List.getElem?_append_right hge] at he
      exact .inl (List.mem_singleton.mp (List.mem_of_getElem? he))
  refine ⟨?_, hguards, fun i e he => ?_, fun i e he hl => ?_, ?_, ?_⟩
  · rw [htcr, husers, hdevices]
    exact h.books
  · rcases hstand i e he with rfl | hold
    · exact hfollows
    · exact h.follows i e hold
  · rw [husers]
    rcases hstand i e he with rfl | hold
    · exact absurd hl hlooked
    · exact h.looked i e hold hl
  · rw [hsame]
    exact howned
  · rw [hcalls, total_append]
    exact hpins

/-- **Every step keeps the books.** -/
theorem Counted.step (h : Counted s₁ pdev d cd s) (op : CallOp) :
    Counted s₁ pdev d cd (callStep queueHeld pdev d s op) := by
  have hguards := h.guards.step queueHeld pdev d op
  cases op with
  | beginOpen => exact h.begin hguards rfl rfl trivial id rfl rfl rfl h.pinned
  | beginRelease =>
    unfold callStep at hguards ⊢
    simp only at hguards ⊢
    split at hguards
    next hfree =>
      have hopens : s.opens - 1 + 1 = s.opens := by omega
      rw [if_pos hfree]
      exact h.begin hguards rfl rfl trivial id hopens hopens rfl
        (hfree.2.imp_right fun hmore => show 0 < s.opens - 1 by omega)
    next hno =>
      rw [if_neg hno]
      exact h
  | beginIoctl =>
    unfold callStep at hguards ⊢
    simp only at hguards ⊢
    split at hguards
    next hpos =>
      rw [if_pos hpos]
      exact h.begin hguards rfl rfl trivial id rfl rfl rfl (.inr hpos)
    next hno =>
      rw [if_neg hno]
      exact h
  | beginRemove =>
    unfold callStep at hguards ⊢
    simp only at hguards ⊢
    split at hguards
    next hbound =>
      rw [if_pos hbound]
      exact h.begin hguards rfl rfl trivial id rfl rfl (by rw [hbound]; rfl) h.pinned
    next hno =>
      rw [if_neg hno]
      exact h
  | run j ret =>
    unfold callStep
    simp only
    split
    next => exact h
    next c hc =>
      split
      next => exact h
      next st hst => exact h.perform hc hst

theorem counted_probed {s₀ : Tcr} {a : Attempt} (hoops : s₀.oops = false)
    (hprobe : tcrInitial queueHeld s₀ a pdev = (0, s₁)) (hd : s₁.added.head? = some d)
    (hcd : s₁.drvdata pdev = some cd) :
    Counted s₁ pdev d cd (.probed { s₁ with cdromDev := some pdev }) := by
  have hlegal : DiskLegal ⟨s₁, .fresh⟩ .setCdromDev := trivial
  obtain ⟨huse, -⟩ := (inUse_start queueHeld hoops hprobe hd hcd).step queueHeld hlegal trivial
  refine ⟨⟨huse.tracks, huse.freed, huse.drvdata, rfl, huse.deviceRefs, huse.released, huse.oops⟩,
    fun l => Guards.nil _, fun i c hc => ?_, fun i c hc => ?_, le_rfl, .inl rfl⟩
  · cases hc
  · cases hc

/-- With no call under way, the picture in which calls are single steps. -/
theorem Counted.lifetime (queueHeld : Bool) (h : Counted s₁ pdev d cd s) (hrest : s.AtRest) :
    Lifetime queueHeld s₁ pdev d cd ⟨s.tcr, ⟨s.opens, s.bound⟩⟩ := by
  have hnone : ∀ c ∈ s.calls, c.refs = 0 ∧ c.devs = 0 ∧ c.owns = 0 := by
    intro c hc
    have hended := hrest c hc
    cases c with
    | ended ret => exact ⟨rfl, rfl, rfl⟩
    | _ => cases hended
  have hrefs : total CdCall.refs s.calls = 0 := total_eq_zero fun c hc => (hnone c hc).1
  have hdevs : total CdCall.devs s.calls = 0 := total_eq_zero fun c hc => (hnone c hc).2.1
  have howns : total CdCall.owns s.calls = 0 := total_eq_zero fun c hc => (hnone c hc).2.2
  have husers : s.users = ⟨s.opens, s.bound⟩ := by
    unfold CdCalls.users
    rw [hrefs, howns]
    cases s.bound <;> rfl
  have hdevices : s.devices = s.opens := by
    unfold CdCalls.devices
    rw [hdevs, Nat.add_zero]
  have hbooks := h.books
  rw [husers, hdevices] at hbooks
  have huse : InUse s₁ pdev d cd ⟨s.tcr, ⟨s.opens, s.bound⟩⟩ :=
    ⟨hbooks.tracks, hbooks.freed, hbooks.drvdata, fun _ => hbooks.cdromDev, hbooks.deviceRefs,
      hbooks.released, hbooks.oops⟩
  exact huse.lifetime queueHeld

/-- **The references balance in every interleaving.**  After the probe of a
disk, whatever calls begin and however their statements interleave: no bad
pointer is followed; the count of the `tcc_cd` is that of the open files, of
the calls that have a reference to give back and of the platform device; it
is freed with the last of these, once; the references to `cdrom_dev` are
those of the files and of such calls; and when no call is under way, all is
as if every call were a single step. -/
theorem references_balance {s₀ : Tcr} {a : Attempt} (hoops : s₀.oops = false)
    (hprobe : tcrInitial queueHeld s₀ a pdev = (0, s₁)) (hd : s₁.added.head? = some d)
    (hcd : s₁.drvdata pdev = some cd) (ops : List CallOp) :
    let s := ops.foldl (callStep queueHeld pdev d) (.probed { s₁ with cdromDev := some pdev })
    s.tcr.oops = false ∧
    (∀ c, s.tcr.cds cd = some c → c.kref = s.users.count) ∧
    (s.tcr.cds cd = none ↔ ¬ s.users.Held) ∧
    (s.tcr.released = if s.users.Held then s₁.released else cd :: s₁.released) ∧
    (∀ p, s.tcr.deviceRefs p = s₁.deviceRefs p + if p = pdev then (s.devices : Int) else 0) ∧
    (s.AtRest → Lifetime queueHeld s₁ pdev d cd ⟨s.tcr, ⟨s.opens, s.bound⟩⟩) := by
  intro s
  have h : Counted s₁ pdev d cd s :=
    Run.foldl_inv (fun u op hu => hu.step op) ops (counted_probed hoops hprobe hd hcd)
  have hexists : s.users.Held → ∃ dev, s.tcr.cds cd = some ⟨some dev, s.users.count, some d⟩ :=
    fun hheld => (h.books.tracks.held hheld).cd
  refine ⟨h.books.oops, fun c hc => ?_, ⟨fun hnone hheld => ?_, h.books.freed⟩, h.books.released,
    h.books.deviceRefs, h.lifetime queueHeld⟩
  · have hheld : s.users.Held := by
      by_contra hnot
      rw [h.books.freed hnot] at hc
      cases hc
    obtain ⟨dev, hsome⟩ := hexists hheld
    rw [hc] at hsome
    cases hsome
    rfl
  · obtain ⟨dev, hsome⟩ := hexists hheld
    rw [hnone] at hsome
    cases hsome

/-- The disk is removed while `cdrom_open` is at work, and then this fails. -/
def removedInOpen : List CallOp :=
  [.beginOpen, .beginRemove] ++ List.replicate 7 (.run 0 0) ++ List.replicate 4 (.run 1 0) ++
    List.replicate 6 (.run 0 (-5))

/-- The open has given the last reference back. -/
theorem references_balance_removed :
    Lifetime true .firstDisk 0 4 0 ⟨(removedInOpen.foldl (callStep true 0 4)
      (.probed { Tcr.firstDisk with cdromDev := some 0 })).tcr, ⟨0, false⟩⟩ := by
  have h := @references_balance true 0 4 0 .firstDisk .loaded ⟨true, true, 0⟩ rfl rfl rfl rfl
    removedInOpen
  refine h.2.2.2.2.2 ?_
  unfold CdCalls.AtRest
  decide

/-! ### Every call ends -/

/-- A call that has not ended has a next statement, which takes the lock it
wants, and it is nearer its end after it. -/
theorem statement_advances (queueHeld : Bool) (pdev d : Nat) (ret : Int) (t : Tcr)
    (hleft : 0 < c.remaining) : ∃ st, c.statement queueHeld pdev d ret t = some st ∧
      match st with
      | .lock l next => c.wants = some l ∧ next.remaining < c.remaining
      | .unlock _ next | .act _ next | .opened _ next =>
        c.wants = none ∧ next.remaining < c.remaining := by
  cases c with
  | openLock | getLock | releaseLock x | putLock x ret | ioctlLock x | removeLock x | getRef x
  | getDev x | getUndo x | cdromRelease x | putRef x ret | putDev ret | cdromIoctl x
  | removeRef x | putUnlock ret | leave ret | removeUnlock =>
    exact ⟨_, rfl, rfl, by simp [CdCall.remaining]⟩
  | getUnlock x =>
    cases x with
    | none => exact ⟨_, rfl, rfl, by simp [CdCall.remaining]⟩
    | some x => exact ⟨_, rfl, rfl, by simp [CdCall.remaining]⟩
  | getLook =>
    unfold CdCall.statement
    cases (t.gendisks d).privateData with
    | none => exact ⟨_, rfl, rfl, by simp [CdCall.remaining]⟩
    | some x => exact ⟨_, rfl, rfl, by simp [CdCall.remaining]⟩
  | getCheck x =>
    simp only [CdCall.statement]
    cases t.cds x with
    | none => exact ⟨_, rfl, rfl, by simp [CdCall.remaining]⟩
    | some c =>
      refine ⟨_, rfl, rfl, ?_⟩
      split
      · simp [CdCall.remaining]
      · simp [CdCall.remaining]
  | cdromOpen x =>
    unfold CdCall.statement
    by_cases hret : ret ≠ 0
    · exact ⟨_, if_pos hret, rfl, by simp [CdCall.remaining]⟩
    · exact ⟨_, if_neg hret, rfl, by simp [CdCall.remaining]⟩
  | releaseLook | ioctlLook =>
    refine ⟨_, rfl, ?_⟩
    unfold followDisk
    cases (t.gendisks d).privateData with
    | none => exact ⟨rfl, by simp [CdCall.remaining]⟩
    | some x => exact ⟨rfl, by simp [CdCall.remaining]⟩
  | removeLook =>
    unfold CdCall.statement
    cases t.drvdata pdev with
    | none => exact ⟨_, rfl, rfl, by simp [CdCall.remaining]⟩
    | some x => exact ⟨_, rfl, rfl, by simp [CdCall.remaining]⟩
  | ended ret => exact absurd hleft (Nat.lt_irrefl 0)

/-- A call that can go on makes a statement. -/
theorem CdCalls.CanRun.lowers (queueHeld : Bool) (pdev d : Nat) (h : s.CanRun j) (ret : Int) :
    (callStep queueHeld pdev d s (.run j ret)).remaining < s.remaining := by
  obtain ⟨c, hc, hleft, hfree⟩ := h
  obtain ⟨st, hst, hnext⟩ := statement_advances queueHeld pdev d ret s.tcr hleft
  have hrun : callStep queueHeld pdev d s (.run j ret) = s.perform j st := by
    unfold callStep
    simp only [hc, hst]
  have hmove : ∀ next : CdCall, next.remaining < c.remaining →
      total CdCall.remaining (s.calls.set j next) < s.remaining := by
    intro next hlt
    have htotal := total_move CdCall.remaining next hc
    unfold CdCalls.remaining
    omega
  rw [hrun]
  cases st with
  | lock l next =>
    unfold CdCalls.perform
    simp only
    rw [if_pos (hfree l hnext.1)]
    exact hmove next hnext.2
  | unlock l next => exact hmove next hnext.2
  | act t next => exact hmove next hnext.2
  | opened t next => exact hmove next hnext.2

/-- `tcr_ref_mutex` is taken last. -/
def TcrLock.rank : TcrLock → Nat
  | .mutex => 0
  | .refMutex => 1

theorem wants_above (c : CdCall) (l l' : TcrLock) (hin : c.holds l = true)
    (hwant : c.wants = some l') : l.rank < l'.rank := by
  cases c with
  | getLock | putLock =>
    cases hwant
    cases l with
    | mutex => decide
    | refMutex => cases hin
  | openLock | releaseLock | ioctlLock | removeLock =>
    cases l with
    | mutex => cases hin
    | refMutex => cases hin
  | _ => cases hwant

theorem remaining_le (c : CdCall) : c.remaining ≤ 14 := by
  cases c <;> simp [CdCall.remaining]

/-- However calls that can go on do so, what is left of them bounds their
statements. -/
theorem picks_le (queueHeld : Bool) (pdev d : Nat) {picks : List (Nat × Int)}
    (hpicks : Run.Allowed (fun u p => callStep queueHeld pdev d u (.run p.1 p.2))
      (fun u p => u.CanRun p.1) s picks) : picks.length ≤ s.remaining := by
  induction picks generalizing s with
  | nil => exact Nat.zero_le _
  | cons p picks ih =>
    have hlower := hpicks.1.lowers queueHeld pdev d p.2
    have hrest : picks.length ≤ (callStep queueHeld pdev d s (.run p.1 p.2)).remaining :=
      ih hpicks.2
    rw [List.length_cons]
    omega

/-- **Every call ends.**  However the statements have interleaved, either no call
is under way or one can go on; and however calls that can go on do so, no
more statements are made than fourteen times the number of calls. -/
theorem calls_complete (queueHeld : Bool) (pdev d : Nat) (t : Tcr) (ops : List CallOp) :
    let s := ops.foldl (callStep queueHeld pdev d) (.probed t)
    (s.AtRest ∨ ∃ j, s.CanRun j) ∧
    ∀ picks : List (Nat × Int),
      Run.Allowed (fun u p => callStep queueHeld pdev d u (.run p.1 p.2)) (fun u p => u.CanRun p.1)
        s picks → picks.length ≤ 14 * s.calls.length := by
  intro s
  have hguards : s.Locked :=
    Run.foldl_inv (P := CdCalls.Locked) (fun u op hu => hu.step queueHeld pdev d op) ops
      fun _ => Guards.nil _
  refine ⟨?_, fun picks hpicks =>
    (picks_le queueHeld pdev d hpicks).trans (total_le remaining_le s.calls)⟩
  by_cases hrest : s.AtRest
  · exact .inl hrest
  · obtain ⟨c, hmem, hc⟩ : ∃ c ∈ s.calls, c.remaining ≠ 0 := by
      simpa only [CdCalls.AtRest, not_forall, exists_prop] using hrest
    obtain ⟨i, hi⟩ := List.getElem?_of_mem hmem
    obtain ⟨j, e, he, hfree, hopen⟩ :=
      exists_unblocked TcrLock.rank 2 hguards wants_above (fun l => by cases l <;> decide) hi
    refine .inr ⟨j, e, he, ?_, hfree⟩
    rcases hopen with rfl | ⟨l, hin⟩
    · rw [hi] at he
      cases he
      omega
    · cases e with
      | ended ret => cases l <;> cases hin
      | _ => exact Nat.succ_pos _

end CdPlayer
