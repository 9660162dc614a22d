/-
CdPlayer/Lifetime.lean

How long a `tcc_cd` lives (`tcr_cd_get`, `tcr_cd_put`, `tcr_block_open`,
`tcr_block_release`, `tcr_remove`, `tcr_kref_release` in cdrom.c).

A disk that `tcr_initial` has added is opened and closed any number of
times, and removed once, in any order.  Its users are the opens that
succeeded and have not been closed, and the platform device until the
removal; `Lifetime` says that the references are theirs, and that the
`tcc_cd` goes with the last of them.

`tcc_cdrom_probe` sets `cdrom_dev` after `tcr_initial` has returned, and so
after `add_disk` has made the disk visible.  An open that comes in between
follows a NULL pointer, or takes its reference to the device of an earlier
probe.  `lifetime_iff`: the lifetime is kept exactly if no open does that.
-/
import CdPlayer.Cdrom
import CdPlayer.Lib.Run

namespace CdPlayer

open RefCount

/-! ### A disk in use -/

/-- The driver, and the users of the disk. -/
structure DiskRun where
  tcr : Tcr
  users : Shared

inductive DiskOp
  /-- `ret` is what `cdrom_open` returns. -/
  | blockOpen (ret : Int)
  | blockRelease
  | remove
  /-- The end of `tcc_cdrom_probe`: `cdrom_dev = pdev`. -/
  | setCdromDev
  deriving DecidableEq, Repr

variable (queueHeld : Bool) (s₁ : Tcr) (pdev d cd : Nat)

def diskStep (r : DiskRun) : DiskOp → DiskRun
  | .blockOpen ret =>
    let o := tcrBlockOpen queueHeld r.tcr ret d
    { tcr := o.2, users := if o.1 = 0 then r.users.acquire else r.users }
  | .blockRelease => { tcr := tcrBlockRelease queueHeld r.tcr d, users := r.users.drop }
  | .remove => { tcr := tcrRemove queueHeld r.tcr pdev, users := r.users.disown }
  | .setCdromDev => { r with tcr := { r.tcr with cdromDev := some pdev } }

/-- Only an open that succeeded is closed, and the removal comes at most once. -/
def DiskLegal (r : DiskRun) : DiskOp → Prop
  | .blockRelease => 0 < r.users.handles
  | .remove => r.users.owned = true
  | _ => True

/-- An open that finds the `tcc_cd` finds `cdrom_dev` set.  (One that fails
may find the device of an earlier probe: it gives the reference back.) -/
def FindsCdromDev (r : DiskRun) : DiskOp → Prop
  | .blockOpen ret =>
    (r.tcr.gendisks d).privateData = none ∨ r.tcr.cdromDev = some pdev ∨
      (r.tcr.cdromDev ≠ none ∧ ret ≠ 0)
  | _ => True

/-- **The references are those of the users, and the `tcc_cd` goes with the
last of them.**  `s₁` is the state in which `tcr_initial` has returned. -/
structure Lifetime (r : DiskRun) : Prop where
  kref : ∀ c, r.tcr.cds cd = some c →
    c.kref = (r.users.handles : Int) + if r.users.owned then 1 else 0
  deviceRefs : ∀ p, r.tcr.deviceRefs p =
    s₁.deviceRefs p + if p = pdev then (r.users.handles : Int) else 0
  /-- `tcr_kref_release` has run, once, if removed and not open; else not at all. -/
  released : r.tcr.released =
    if r.users.owned = false ∧ r.users.handles = 0 then cd :: s₁.released else s₁.released
  freed : r.tcr.cds cd = none ↔ r.users.owned = false ∧ r.users.handles = 0
  /-- No NULL pointer and no freed `tcc_cd` has been used. -/
  oops : r.tcr.oops = false
  enxio : r.users.owned = false → r.users.handles = 0 → ∀ ret,
    tcrBlockOpen queueHeld r.tcr ret d = (negEnxio, r.tcr)

/-! ### The invariant -/

structure InUse (r : DiskRun) : Prop where
  tracks : Tracks r.tcr d cd r.users
  freed : ¬ r.users.Held → r.tcr.cds cd = none
  drvdata : r.tcr.drvdata pdev = some cd
  cdromDev : 0 < r.users.handles → r.tcr.cdromDev = some pdev
  deviceRefs : ∀ p, r.tcr.deviceRefs p =
    s₁.deviceRefs p + if p = pdev then (r.users.handles : Int) else 0
  released : r.tcr.released = if r.users.Held then s₁.released else cd :: s₁.released
  oops : r.tcr.oops = false

variable {s₁ pdev d cd} {r : DiskRun}

theorem InUse.lifetime (h : InUse s₁ pdev d cd r) : Lifetime queueHeld s₁ pdev d cd r := by
  have hgone : (r.users.owned = false ∧ r.users.handles = 0) ↔ ¬ r.users.Held :=
    Shared.not_held_iff.symm
  refine ⟨?_, h.deviceRefs, ?_, ?_, h.oops, ?_⟩
  · intro c hc
    have hheld : r.users.Held := by
      by_contra hnot
      rw [h.freed hnot] at hc
      cases hc
    obtain ⟨dev, hcd⟩ := (h.tracks.held hheld).cd
    rw [hc] at hcd
    cases hcd
    show ((r.users.count : Nat) : Int) = _
    unfold Shared.count
    push_cast
    rfl
  · rw [h.released]
    by_cases hheld : r.users.Held
    · rw [if_pos hheld, if_neg fun hnot => hgone.mp hnot hheld]
    · rw [if_neg hheld, if_pos (hgone.mpr hheld)]
  · rw [hgone]
    constructor
    · -- while somebody holds it the `tcc_cd` exists
      intro hnone hheld
      obtain ⟨dev, hcd⟩ := (h.tracks.held hheld).cd
      rw [hnone] at hcd
      cases hcd
    · exact h.freed
  · intro howned hhandles ret
    exact tcrBlockOpen_gone queueHeld (h.tracks.gone (hgone.mp ⟨howned, hhandles⟩)) ret

/-- A call by which the users change. -/
theorem InUse.call (h : InUse s₁ pdev d cd r) (hheld : r.users.Held) {t : Tcr} {users' : Shared}
    {n : Int} (hcall : DiskCall r.tcr t d cd users' n)
    (hn : (users'.handles : Int) = r.users.handles + n)
    (hset : 0 < users'.handles ∨ n ≠ 0 → r.tcr.cdromDev = some pdev) :
    InUse s₁ pdev d cd ⟨t, users'⟩ where
  tracks := hcall.tracks
  freed := hcall.freed
  drvdata := (congrFun hcall.drvdata pdev).trans h.drvdata
  cdromDev := fun hpos => hcall.cdromDev.trans (hset (.inl hpos))
  deviceRefs := by
    intro p
    rw [hcall.deviceRefs p, h.deviceRefs p]
    rcases eq_or_ne n 0 with rfl | hne
    · -- the removal takes and gives back no reference to the device
      simp only [ite_self, hn, Int.add_zero]
    · rw [hset (.inr hne)]
      rcases eq_or_ne p pdev with rfl | hp
      · rw [if_pos rfl, if_pos rfl, if_pos rfl, hn, Int.add_assoc]
      · rw [if_neg hp, if_neg hp, if_neg fun heq => hp (Option.some.inj heq).symm]
        exact Int.add_zero _
  released := by rw [hcall.released, h.released, if_pos hheld]
  oops := hcall.oops.trans h.oops

/-- **An operation keeps the invariant if it finds `cdrom_dev`**, which stays
set once it is. -/
theorem InUse.step (h : InUse s₁ pdev d cd r) {op : DiskOp} (hlegal : DiskLegal r op)
    (hset : FindsCdromDev pdev d r op) :
    InUse s₁ pdev d cd (diskStep queueHeld pdev d r op) ∧
      (r.tcr.cdromDev = some pdev →
        (diskStep queueHeld pdev d r op).tcr.cdromDev = some pdev) := by
  cases op with
  | blockOpen ret =>
    by_cases hheld : r.users.Held
    · have hs := h.tracks.held hheld
      have hpriv : (r.tcr.gendisks d).privateData ≠ none := by simp [hs.priv]
      rcases eq_or_ne ret 0 with rfl | hret
      · have hp := (hset.resolve_left hpriv).resolve_right fun hfail => hfail.2 rfl
        obtain ⟨hok, hcall⟩ := tcrBlockOpen_ok queueHeld hs hp
        have hnext := h.call hheld hcall (Int.natCast_succ _) fun _ => hp
        unfold diskStep
        dsimp only
        rw [if_pos hok]
        exact ⟨hnext, hcall.cdromDev.trans⟩
      · -- the reference goes back to where it came from
        obtain ⟨p, hp⟩ : ∃ p, r.tcr.cdromDev = some p := by
          rcases hset.resolve_left hpriv with hp | hfail
          · exact ⟨pdev, hp⟩
          · exact Option.ne_none_iff_exists'.mp hfail.1
        have hpos : (0 : Int) < r.users.count := Int.natCast_pos.mpr (Shared.held_iff.mp hheld)
        unfold diskStep
        dsimp only
        rw [tcrBlockOpen_failed queueHeld hs hpos hp hret, if_neg hret]
        exact ⟨h, id⟩
    · -- `private_data` is NULL
      unfold diskStep
      dsimp only
      rw [tcrBlockOpen_gone queueHeld (h.tracks.gone hheld), if_neg (show negEnxio ≠ 0 by decide)]
      exact ⟨h, id⟩
  | blockRelease =>
    -- the open that is closed has found `cdrom_dev`
    have hheld : r.users.Held := .inr hlegal
    have hp := h.cdromDev hlegal
    have hcall := tcrBlockRelease_call queueHeld (h.tracks.held hheld) hlegal hp
    have hlt : 0 < r.users.handles := hlegal
    have hn : (r.users.drop.handles : Int) = r.users.handles + -1 := by
      show ((r.users.handles - 1 : Nat) : Int) = _
      omega
    exact ⟨h.call hheld hcall hn fun _ => hp, hcall.cdromDev.trans⟩
  | remove =>
    have hheld : r.users.Held := .inl hlegal
    have hcall := tcrRemove_call queueHeld (h.tracks.held hheld) hlegal h.drvdata
    exact ⟨h.call hheld hcall (Int.add_zero _).symm fun hn =>
      h.cdromDev (hn.resolve_right (· rfl)), hcall.cdromDev.trans⟩
  | setCdromDev =>
    refine ⟨?_, fun _ => rfl⟩
    exact
      { tracks := ⟨fun hu => ⟨(h.tracks.held hu).priv, (h.tracks.held hu).cd⟩, h.tracks.gone⟩
        freed := h.freed
        drvdata := h.drvdata
        cdromDev := fun _ => rfl
        deviceRefs := h.deviceRefs
        released := h.released
        oops := h.oops }

/-! ### Opens that come too early -/

theorem getDevice_null {s : Tcr} (hnull : s.cdromDev = none) : getDevice s = s.fault := by
  unfold getDevice
  rw [hnull]

/-- An open that follows the NULL pointer. -/
theorem tcrBlockOpen_null {s : Tcr} {users : Shared} (hs : Holds s d cd users.count)
    (hnull : s.cdromDev = none) (ret : Int) : (tcrBlockOpen queueHeld s ret d).2.oops = true := by
  obtain ⟨dev, hcd⟩ := hs.cd
  set u : Tcr := (s.setCd cd ⟨some dev, users.count + 1, some d⟩).fault with hu
  have hholds : Holds u d cd users.acquire.count := by
    rw [Shared.count_acquire]
    exact ⟨hs.priv, dev, Function.update_self ..⟩
  have hget : tcrCdGet queueHeld s d = (some cd, u) := by
    have hdevice : getDevice (krefGet s cd) = u := by
      unfold krefGet
      rw [hcd]
      exact getDevice_null hnull
    unfold tcrCdGet
    rw [hs.priv]
    dsimp only
    rw [hdevice, show u.cds cd = some ⟨some dev, users.count + 1, some d⟩ from
      Function.update_self ..]
    rfl
  unfold tcrBlockOpen
  rw [hget]
  dsimp only
  rw [useCd_of_holds hholds]
  split
  · -- the undo follows it again
    have hput := krefPut_call queueHeld hholds (Shared.count_acquire users)
    unfold tcrCdPut putDevice
    rw [hput.cdromDev, show u.cdromDev = none from hnull]
    rfl
  · rfl

/-- **After an open that does not find `cdrom_dev` the references are wrong.** -/
theorem InUse.broken (h : InUse s₁ pdev d cd r) {op : DiskOp}
    (hset : ¬ FindsCdromDev pdev d r op) :
    ¬ Lifetime queueHeld s₁ pdev d cd (diskStep queueHeld pdev d r op) := by
  intro hlaw
  cases op with
  | blockOpen ret =>
    have hheld : r.users.Held := by
      by_contra hnot
      exact hset (.inl (h.tracks.gone hnot))
    have hs := h.tracks.held hheld
    cases hp : r.tcr.cdromDev with
    | none =>
      have hoops := tcrBlockOpen_null queueHeld hs hp ret
      exact Bool.false_ne_true (hlaw.oops.symm.trans hoops)
    | some q =>
      have hne : q ≠ pdev := by
        rintro rfl
        exact hset (.inr (.inl hp))
      obtain rfl : ret = 0 := by
        by_contra hret
        exact hset (.inr (.inr ⟨by simp [hp], hret⟩))
      obtain ⟨-, hcall⟩ := tcrBlockOpen_ok queueHeld hs hp
      -- the reference went to the other device
      have htaken := hcall.deviceRefs q
      have hbefore := h.deviceRefs q
      have hafter := hlaw.deviceRefs q
      rw [if_neg hne] at hbefore hafter
      rw [hp, if_pos rfl, hbefore] at htaken
      have hsame : (tcrBlockOpen queueHeld r.tcr 0 d).2.deviceRefs q = s₁.deviceRefs q + 0 := hafter
      omega
  | blockRelease => exact hset trivial
  | remove => exact hset trivial
  | setCdromDev => exact hset trivial

/-! ### Every run -/

/-- After `tcr_initial` the only user is the platform device. -/
theorem inUse_start {s₀ : Tcr} {a : Attempt} (hoops : s₀.oops = false)
    (hprobe : tcrInitial queueHeld s₀ a pdev = (0, s₁)) (hd : s₁.added.head? = some d)
    (hcd : s₁.drvdata pdev = some cd) : InUse s₁ pdev d cd ⟨s₁, .fresh⟩ := by
  have hfeasible : Feasible s₀ a :=
    (tcrInitial_eq_zero queueHeld pdev).mp (congrArg Prod.fst hprobe)
  obtain ⟨refs, live, heq⟩ := tcrInitial_ok queueHeld pdev hfeasible
  rw [heq] at hprobe
  obtain rfl := (congrArg Prod.snd hprobe).symm
  obtain rfl := Option.some.inj hd
  obtain rfl := Option.some.inj ((Function.update_self pdev _ s₀.drvdata).symm.trans hcd)
  have hheld : Shared.fresh.Held := .inl rfl
  exact
    { tracks := ⟨fun _ => ⟨by simp, _, Function.update_self ..⟩, fun hnot => absurd hheld hnot⟩
      freed := fun hnot => absurd hheld hnot
      drvdata := Function.update_self ..
      cdromDev := fun hpos => absurd hpos (Nat.lt_irrefl 0)
      deviceRefs := fun p => by simp [Shared.fresh]
      released := (if_pos hheld).symm
      oops := hoops }

/-- Once `tcc_cdrom_probe` is through, no order of the operations breaks the
lifetime. -/
theorem lifetime_of_probed (h : InUse s₁ pdev d cd r) (hp : r.tcr.cdromDev = some pdev)
    {ops : List DiskOp} (hlegal : Run.Allowed (diskStep queueHeld pdev d) DiskLegal r ops)
    (k : Nat) :
    Lifetime queueHeld s₁ pdev d cd ((ops.take k).foldl (diskStep queueHeld pdev d) r) := by
  refine Run.forall_take_iff.mpr ⟨h.lifetime queueHeld, ?_⟩ k
  have hall : Run.Allowed (diskStep queueHeld pdev d) (fun _ _ => True) r ops :=
    Run.allowed_of_forall fun _ _ _ => trivial
  refine (Run.Allowed.law_iff
    (P := fun u : DiskRun => InUse s₁ pdev d cd u ∧ u.tcr.cdromDev = some pdev)
    ?_ (fun _ _ _ _ _ => trivial) hlegal ⟨h, hp⟩).mpr hall
  rintro u op ⟨hu, hpu⟩ hop -
  have hset : FindsCdromDev pdev d u op := by
    cases op with
    | blockOpen ret => exact .inr (.inl hpu)
    | blockRelease => trivial
    | remove => trivial
    | setCdromDev => trivial
  obtain ⟨hnext, hkept⟩ := hu.step queueHeld hop hset
  exact ⟨hnext.lifetime queueHeld, hnext, hkept hpu⟩

/-- **Lifetime by reference count.**  Whatever the order of the operations,
the references are those of the users in every state exactly if every open
that finds the `tcc_cd` finds `cdrom_dev` set. -/
theorem lifetime_iff {s₀ : Tcr} {a : Attempt} (hoops : s₀.oops = false)
    (hprobe : tcrInitial queueHeld s₀ a pdev = (0, s₁)) (hd : s₁.added.head? = some d)
    (hcd : s₁.drvdata pdev = some cd) {ops : List DiskOp}
    (hlegal : Run.Allowed (diskStep queueHeld pdev d) DiskLegal ⟨s₁, .fresh⟩ ops) :
    (∀ k, Lifetime queueHeld s₁ pdev d cd
      ((ops.take k).foldl (diskStep queueHeld pdev d) ⟨s₁, .fresh⟩)) ↔
      Run.Allowed (diskStep queueHeld pdev d) (FindsCdromDev pdev d) ⟨s₁, .fresh⟩ ops := by
  have hstart := inUse_start queueHeld hoops hprobe hd hcd
  rw [Run.forall_take_iff, and_iff_right (hstart.lifetime queueHeld)]
  refine Run.Allowed.law_iff (P := InUse s₁ pdev d cd) ?_ ?_ hlegal hstart
  · intro r op h hop hset
    have hnext := (h.step queueHeld hop hset).1
    exact ⟨hnext.lifetime queueHeld, hnext⟩
  · intro r op h hop hlaw
    by_contra hset
    exact h.broken queueHeld hset hlaw

/-- The state in which the first `tcr_initial` has returned. -/
def Tcr.firstDisk : Tcr := (tcrInitial true .loaded ⟨true, true, 0⟩ 0).2

/-- The rest of the probe, two opens and one that fails, the removal, and
the closes: the second is the last reference. -/
theorem lifetime_two_opens : Lifetime true .firstDisk 0 4 0
    (([.setCdromDev, .blockOpen 0, .blockOpen 0, .blockOpen (-5), .remove, .blockRelease,
      .blockOpen (-5), .blockRelease, .blockOpen 0] : List DiskOp).foldl
        (diskStep true 0 4) ⟨.firstDisk, .fresh⟩) := by
  refine (@lifetime_iff true .firstDisk 0 4 0 .loaded ⟨true, true, 0⟩ rfl rfl rfl rfl
    [.setCdromDev, .blockOpen 0, .blockOpen 0, .blockOpen (-5), .remove, .blockRelease,
      .blockOpen (-5), .blockRelease, .blockOpen 0] ?_).mpr ?_ 9
  · exact ⟨trivial, trivial, trivial, trivial, rfl, Nat.two_pos, trivial, Nat.one_pos, trivial,
      trivial⟩
  · exact ⟨trivial, .inr (.inl rfl), .inr (.inl rfl), .inr (.inl rfl), trivial, trivial,
      .inr (.inl rfl), trivial, .inl rfl, trivial⟩

/-- An open that comes before `tcc_cdrom_probe` has set `cdrom_dev`. -/
theorem lifetime_null :
    (tcrInitial true .loaded ⟨true, true, 0⟩ 0).1 = 0 ∧
      Run.Allowed (diskStep true 0 4) DiskLegal ⟨.firstDisk, .fresh⟩ [.blockOpen 0] ∧
      ¬ ∀ k, Lifetime true .firstDisk 0 4 0
        ((([.blockOpen 0] : List DiskOp).take k).foldl (diskStep true 0 4)
          ⟨.firstDisk, .fresh⟩) := by
  refine ⟨by decide, ⟨trivial, trivial⟩, fun h => ?_⟩
  have hoops := (h 1).oops
  exact absurd hoops (by decide)

end CdPlayer
