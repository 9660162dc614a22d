/-
CdPlayer/Msf.lean

Sector addresses: frame numbers and packed minute/second/frame values
(cdif_api.c).

`CD_HEX2BCD` and `CD_BCD2HEX` convert one byte by repeated subtraction in
`unsigned char` arithmetic; `CD_FRAME2MSF` and `CD_BCDMSF2FRAME` go through
them.  The closed forms of the two loops give the round trip: decoding the
packed value of a frame number below 160 minutes gives the frame number
back (`cdBcdmsf2frame_frame2msf`), which is what makes a sector header
identify its sector.
-/
import CdPlayer.Basic
import Mathlib.Order.Monotone.Defs

namespace CdPlayer

/-! ### One byte -/

/-- The loop of `CD_HEX2BCD`. -/
def hex2bcdLoop (lBcd lHex : Nat) : Nat :=
  if 10 ≤ lHex then hex2bcdLoop (u8 (lBcd + 0x10)) (u8 (lHex - 10))
  else u8 (lBcd + lHex)
termination_by lHex
decreasing_by unfold u8; omega

/-- `CD_HEX2BCD`. -/
def cdHex2bcd (lHex : Nat) : Nat := hex2bcdLoop 0 (u8 lHex)

/-- The loop of `CD_BCD2HEX`. -/
def bcd2hexLoop (lHex lBcd : Nat) : Nat :=
  if 0x10 ≤ lBcd then bcd2hexLoop (u8 (lHex + 10)) (u8 (lBcd - 0x10))
  else u8 (lHex + lBcd)
termination_by lBcd
decreasing_by unfold u8; omega

/-- `CD_BCD2HEX`. -/
def cdBcd2hex (lBcd : Nat) : Nat := bcd2hexLoop 0 (u8 lBcd)

theorem hex2bcdLoop_eq (lBcd lHex : Nat) (h : lHex < 256) :
    hex2bcdLoop lBcd lHex = (lBcd + 16 * (lHex / 10) + lHex % 10) % 256 := by
  induction lBcd, lHex using hex2bcdLoop.induct with
  | case1 lBcd lHex hge ih =>
    rw [hex2bcdLoop, if_pos hge, ih (by unfold u8; omega)]
    unfold u8
    omega
  | case2 lBcd lHex hlt =>
    rw [hex2bcdLoop, if_neg hlt]
    unfold u8
    omega

theorem bcd2hexLoop_eq (lHex lBcd : Nat) (h : lBcd < 256) :
    bcd2hexLoop lHex lBcd = (lHex + 10 * (lBcd / 16) + lBcd % 16) % 256 := by
  induction lHex, lBcd using bcd2hexLoop.induct with
  | case1 lHex lBcd hge ih =>
    rw [bcd2hexLoop, if_pos hge, ih (by unfold u8; omega)]
    unfold u8
    omega
  | case2 lHex lBcd hlt =>
    rw [bcd2hexLoop, if_neg hlt]
    unfold u8
    omega

/-- Below 160 no digit is lost. -/
theorem cdHex2bcd_eq {n : Nat} (h : n < 160) : cdHex2bcd n = 16 * (n / 10) + n % 10 := by
  unfold cdHex2bcd
  rw [u8_of_lt (by omega), hex2bcdLoop_eq _ _ (by omega)]
  omega

/-- No byte overflows on the way back. -/
theorem cdBcd2hex_eq {n : Nat} (h : n < 256) : cdBcd2hex n = 10 * (n / 16) + n % 16 := by
  unfold cdBcd2hex
  rw [u8_of_lt h, bcd2hexLoop_eq _ _ h]
  omega

theorem cdBcd2hex_hex2bcd {n : Nat} (h : n < 160) : cdBcd2hex (cdHex2bcd n) = n := by
  rw [cdHex2bcd_eq h, cdBcd2hex_eq (by omega)]
  omega

theorem cdHex2bcd_lt (n : Nat) : cdHex2bcd n < 256 := by
  unfold cdHex2bcd
  rw [hex2bcdLoop_eq _ _ (by unfold u8; omega)]
  omega

/-- `CD_BCD2HEX` puts the two digits together, `CD_HEX2BCD` takes them apart. -/
theorem cdHex2bcd_bcd2hex {n : Nat} (h : n < 160) (hdig : n % 16 < 10) :
    cdHex2bcd (cdBcd2hex n) = n := by
  rw [cdBcd2hex_eq (by omega), cdHex2bcd_eq (by omega)]
  omega

theorem cdHex2bcd_strictMono {a b : Nat} (hb : b < 160) (h : a < b) :
    cdHex2bcd a < cdHex2bcd b := by
  rw [cdHex2bcd_eq (by omega), cdHex2bcd_eq hb]
  omega

/-! ### What the bytes are assigned

The values the two loops give to their `unsigned char` variables, before
they are narrowed. -/

/-- The assignments of `CD_HEX2BCD`. -/
def hex2bcdAssigned (lBcd lHex : Nat) : List Nat :=
  if 10 ≤ lHex then
    (lBcd + 0x10) :: (lHex - 10) :: hex2bcdAssigned (u8 (lBcd + 0x10)) (u8 (lHex - 10))
  else [lBcd + lHex]
termination_by lHex
decreasing_by unfold u8; omega

/-- The assignments of `CD_BCD2HEX`. -/
def bcd2hexAssigned (lHex lBcd : Nat) : List Nat :=
  if 0x10 ≤ lBcd then
    (lHex + 10) :: (lBcd - 0x10) :: bcd2hexAssigned (u8 (lHex + 10)) (u8 (lBcd - 0x10))
  else [lHex + lBcd]
termination_by lBcd
decreasing_by unfold u8; omega

/-- Every value assigned fits its byte. -/
def FitBytes (l : List Nat) : Prop := ∀ v ∈ l, v < 256

theorem FitBytes.cons {v : Nat} {l : List Nat} (hv : v < 256) (h : FitBytes l) :
    FitBytes (v :: l) := by
  rintro u hu
  rcases List.mem_cons.mp hu with rfl | hu
  · exact hv
  · exact h u hu

theorem FitBytes.one {v : Nat} (hv : v < 256) : FitBytes [v] :=
  FitBytes.cons hv fun _ h => absurd h List.not_mem_nil

theorem FitBytes.append {l l' : List Nat} (h : FitBytes l) (h' : FitBytes l') :
    FitBytes (l ++ l') := by
  rintro v hv
  rcases List.mem_append.mp hv with hv | hv
  · exact h v hv
  · exact h' v hv

/-- A sum of the digits below 256 bounds all that is assigned on the way. -/
theorem hex2bcdAssigned_fit (lBcd lHex : Nat)
    (h : lBcd + 16 * (lHex / 10) + lHex % 10 < 256) : FitBytes (hex2bcdAssigned lBcd lHex) := by
  induction lBcd, lHex using hex2bcdAssigned.induct with
  | case1 lBcd lHex hge ih =>
    rw [hex2bcdAssigned, if_pos hge]
    refine .cons (by omega) (.cons (by omega) (ih ?_))
    rw [u8_of_lt (by omega), u8_of_lt (by omega)]
    omega
  | case2 lBcd lHex hlt =>
    rw [hex2bcdAssigned, if_neg hlt]
    exact .one (by omega)

theorem bcd2hexAssigned_fit (lHex lBcd : Nat) (hlt : lBcd < 256)
    (h : lHex + 10 * (lBcd / 16) + lBcd % 16 < 256) : FitBytes (bcd2hexAssigned lHex lBcd) := by
  induction lHex, lBcd using bcd2hexAssigned.induct with
  | case1 lHex lBcd hge ih =>
    rw [bcd2hexAssigned, if_pos hge]
    refine .cons (by omega) (.cons (by omega) (ih ?_ ?_))
    · rw [u8_of_lt (by omega)]
      omega
    · rw [u8_of_lt (by omega), u8_of_lt (by omega)]
      omega
  | case2 lHex lBcd hge =>
    rw [bcd2hexAssigned, if_neg hge]
    exact .one (by omega)

/-- Below 160 `CD_HEX2BCD` overflows nowhere. -/
theorem cdHex2bcd_fit {n : Nat} (h : n < 160) : FitBytes (hex2bcdAssigned 0 n) :=
  hex2bcdAssigned_fit 0 n (by omega)

/-- `CD_BCD2HEX` never overflows. -/
theorem cdBcd2hex_fit {n : Nat} (h : n < 256) : FitBytes (bcd2hexAssigned 0 n) :=
  bcd2hexAssigned_fit 0 n h (by omega)

/-! ### Packed values -/

/-- `TIME_CD` seen as an integer, the mode byte zero. -/
def packMsf (ucMin ucSec ucFrame : Nat) : Nat := ucMin * 65536 + ucSec * 256 + ucFrame

/-- `CD_BCDMSF2FRAME`. -/
def cdBcdmsf2frame (lMSF : Nat) : Nat :=
  let ucFrame := u8 lMSF
  let ucSec := u8 (lMSF / 256)
  let ucMin := u8 (lMSF / 65536)
  cdBcd2hex ucMin * 60 * 75 + cdBcd2hex ucSec * 75 + cdBcd2hex ucFrame

/-- The minute byte of `CD_FRAME2MSF`. -/
def frame2min (lFrame : Nat) : Nat := cdHex2bcd (u8 (lFrame / 4500))

/-- The second byte of `CD_FRAME2MSF`. -/
def frame2sec (lFrame : Nat) : Nat :=
  cdHex2bcd (u8 (u32 ((lFrame : Int) - (u8 (lFrame / 4500) * 4500 : Nat)) / 75))

/-- The frame byte of `CD_FRAME2MSF`. -/
def frame2frame (lFrame : Nat) : Nat :=
  let rest := u32 ((lFrame : Int) - (u8 (lFrame / 4500) * 4500 : Nat))
  cdHex2bcd (u8 (u32 ((rest : Int) - (u8 (rest / 75) * 75 : Nat))))

/-- `CD_FRAME2MSF`. -/
def cdFrame2msf (lFrame : Nat) : Nat :=
  packMsf (frame2min lFrame) (frame2sec lFrame) (frame2frame lFrame)

/-- The fields of a frame number below 160 minutes. -/
theorem frame2min_eq {f : Nat} (h : f < 720000) : frame2min f = cdHex2bcd (f / 4500) := by
  unfold frame2min
  rw [u8_of_lt (by omega)]

theorem frame2sec_eq {f : Nat} (h : f < 720000) :
    frame2sec f = cdHex2bcd (f % 4500 / 75) := by
  unfold frame2sec
  rw [u8_of_lt (show f / 4500 < 256 by omega),
    show (f : Int) - (f / 4500 * 4500 : Nat) = (f % 4500 : Nat) by omega,
    u32_natCast (by omega), u8_of_lt (by omega)]

theorem frame2frame_eq {f : Nat} (h : f < 720000) :
    frame2frame f = cdHex2bcd (f % 75) := by
  unfold frame2frame
  rw [u8_of_lt (show f / 4500 < 256 by omega),
    show (f : Int) - (f / 4500 * 4500 : Nat) = (f % 4500 : Nat) by omega,
    u32_natCast (by omega)]
  simp only
  rw [u8_of_lt (show f % 4500 / 75 < 256 by omega),
    show ((f % 4500 : Nat) : Int) - (f % 4500 / 75 * 75 : Nat) = (f % 75 : Nat) by omega,
    u32_natCast (by omega), u8_of_lt (by omega)]

/-- Decoding three header bytes. -/
theorem cdBcdmsf2frame_pack {m s f : Nat} (hm : m < 256) (hs : s < 256) (hf : f < 256) :
    cdBcdmsf2frame (packMsf m s f)
      = cdBcd2hex m * 60 * 75 + cdBcd2hex s * 75 + cdBcd2hex f := by
  unfold cdBcdmsf2frame packMsf
  rw [show u8 (m * 65536 + s * 256 + f) = f by unfold u8; omega,
    show u8 ((m * 65536 + s * 256 + f) / 256) = s by unfold u8; omega,
    show u8 ((m * 65536 + s * 256 + f) / 65536) = m by unfold u8; omega]

/-- **A sector header identifies its sector.** -/
theorem cdBcdmsf2frame_frame2msf {f : Nat} (h : f < 720000) :
    cdBcdmsf2frame (cdFrame2msf f) = f := by
  unfold cdFrame2msf
  rw [frame2min_eq h, frame2sec_eq h, frame2frame_eq h,
    cdBcdmsf2frame_pack (cdHex2bcd_lt _) (cdHex2bcd_lt _) (cdHex2bcd_lt _),
    cdBcd2hex_hex2bcd (by omega), cdBcd2hex_hex2bcd (by omega), cdBcd2hex_hex2bcd (by omega)]
  omega

/-! ### Binary fields -/

/-- `CD_HEXMSF2FRAME`. -/
def cdHexmsf2frame (lMSF : Nat) : Nat :=
  let ucFrame := u8 lMSF
  let ucSec := u8 (lMSF / 256)
  let ucMin := u8 (lMSF / 65536)
  ucMin * 60 * 75 + ucSec * 75 + ucFrame

/-- `CD_FRAME2HEX`. -/
def cdFrame2hex (lFrame : Nat) : Nat :=
  let m := u8 (lFrame / 4500)
  let lFrame := u32 ((lFrame : Int) - (m * 4500 : Nat))
  let s := u8 (lFrame / 75)
  let lFrame := u32 ((lFrame : Int) - (s * 75 : Nat))
  packMsf m s (u8 lFrame)

/-- The fields of a frame number below 256 minutes. -/
theorem cdFrame2hex_eq {f : Nat} (h : f < 1152000) :
    cdFrame2hex f = packMsf (f / 4500) (f % 4500 / 75) (f % 75) := by
  unfold cdFrame2hex
  simp only
  rw [u8_of_lt (show f / 4500 < 256 by omega),
    show (f : Int) - (f / 4500 * 4500 : Nat) = (f % 4500 : Nat) by omega,
    u32_natCast (by omega), u8_of_lt (show f % 4500 / 75 < 256 by omega),
    show ((f % 4500 : Nat) : Int) - (f % 4500 / 75 * 75 : Nat) = (f % 75 : Nat) by omega,
    u32_natCast (by omega), u8_of_lt (by omega)]

/-- The fields in binary-coded decimal. -/
theorem cdFrame2msf_eq {f : Nat} (h : f < 720000) :
    cdFrame2msf f
      = packMsf (cdHex2bcd (f / 4500)) (cdHex2bcd (f % 4500 / 75)) (cdHex2bcd (f % 75)) := by
  unfold cdFrame2msf
  rw [frame2min_eq h, frame2sec_eq h, frame2frame_eq h]

theorem cdHexmsf2frame_pack {m s f : Nat} (hm : m < 256) (hs : s < 256) (hf : f < 256) :
    cdHexmsf2frame (packMsf m s f) = m * 60 * 75 + s * 75 + f := by
  unfold cdHexmsf2frame packMsf
  simp only
  rw [show u8 (m * 65536 + s * 256 + f) = f by unfold u8; omega,
    show u8 ((m * 65536 + s * 256 + f) / 256) = s by unfold u8; omega,
    show u8 ((m * 65536 + s * 256 + f) / 65536) = m by unfold u8; omega]

theorem cdHexmsf2frame_frame2hex {f : Nat} (h : f < 1152000) :
    cdHexmsf2frame (cdFrame2hex f) = f := by
  rw [cdFrame2hex_eq h, cdHexmsf2frame_pack (by omega) (by omega) (by omega)]
  omega

/-! ### The codecs are inverse -/

/-- A packed value with zero mode byte, as its three bytes. -/
theorem packMsf_bytes (x : Nat) :
    packMsf (x / 65536) (x / 256 % 256) (x % 256) = x := by
  unfold packMsf
  omega

/-- Valid binary-coded fields: decimal digits, seconds below 60, frames
below 75. -/
structure ValidBcd (m s f : Nat) : Prop where
  min : m / 16 < 10 ∧ m % 16 < 10
  sec : s / 16 < 10 ∧ s % 16 < 10 ∧ 10 * (s / 16) + s % 16 < 60
  frame : f / 16 < 10 ∧ f % 16 < 10 ∧ 10 * (f / 16) + f % 16 < 75

/-- Valid fields are those of the frame number they decode to. -/
theorem ValidBcd.frame2msf {m s f : Nat} (h : ValidBcd m s f) :
    cdBcdmsf2frame (packMsf m s f) < 450000 ∧
      cdFrame2msf (cdBcdmsf2frame (packMsf m s f)) = packMsf m s f := by
  obtain ⟨⟨hm, hm'⟩, ⟨hs, hs', hs''⟩, ⟨hf, hf', hf''⟩⟩ := h
  have hdec : cdBcdmsf2frame (packMsf m s f)
      = cdBcd2hex m * 60 * 75 + cdBcd2hex s * 75 + cdBcd2hex f :=
    cdBcdmsf2frame_pack (by omega) (by omega) (by omega)
  have hmin : cdBcd2hex m < 100 := by rw [cdBcd2hex_eq (by omega)]; omega
  have hsec : cdBcd2hex s < 60 := by rw [cdBcd2hex_eq (by omega)]; omega
  have hframe : cdBcd2hex f < 75 := by rw [cdBcd2hex_eq (by omega)]; omega
  rw [hdec]
  refine ⟨by omega, ?_⟩
  rw [cdFrame2msf_eq (by omega),
    show (cdBcd2hex m * 60 * 75 + cdBcd2hex s * 75 + cdBcd2hex f) / 4500 = cdBcd2hex m by omega,
    show (cdBcd2hex m * 60 * 75 + cdBcd2hex s * 75 + cdBcd2hex f) % 4500 / 75 = cdBcd2hex s by
      omega,
    show (cdBcd2hex m * 60 * 75 + cdBcd2hex s * 75 + cdBcd2hex f) % 75 = cdBcd2hex f by omega,
    cdHex2bcd_bcd2hex (by omega) hm', cdHex2bcd_bcd2hex (by omega) hs',
    cdHex2bcd_bcd2hex (by omega) hf']

/-- Valid binary fields: seconds below 60, frames below 75. -/
structure ValidHex (m s f : Nat) : Prop where
  min : m < 256
  sec : s < 60
  frame : f < 75

theorem ValidHex.frame2hex {m s f : Nat} (h : ValidHex m s f) :
    cdFrame2hex (cdHexmsf2frame (packMsf m s f)) = packMsf m s f := by
  obtain ⟨hm, hs, hf⟩ := h
  rw [cdHexmsf2frame_pack hm (by omega) (by omega), cdFrame2hex_eq (by omega),
    show (m * 60 * 75 + s * 75 + f) / 4500 = m by omega,
    show (m * 60 * 75 + s * 75 + f) % 4500 / 75 = s by omega,
    show (m * 60 * 75 + s * 75 + f) % 75 = f by omega]

/-- Packed values are ordered like their fields. -/
theorem packMsf_lt {m s f m' s' f' : Nat} (hs : s < 256) (hf : f < 256)
    (h : m < m' ∨ m = m' ∧ (s < s' ∨ s = s' ∧ f < f')) : packMsf m s f < packMsf m' s' f' := by
  unfold packMsf
  omega

/-- The fields of frame numbers are ordered like the numbers. -/
theorem fields_lt {f g : Nat} (h : f < g) :
    f / 4500 < g / 4500 ∨ f / 4500 = g / 4500 ∧ (f % 4500 / 75 < g % 4500 / 75 ∨
      f % 4500 / 75 = g % 4500 / 75 ∧ f % 75 < g % 75) := by
  omega

theorem cdFrame2hex_strictMonoOn : StrictMonoOn cdFrame2hex {f | f < 1152000} := by
  rintro f hf g hg h
  rw [cdFrame2hex_eq hf, cdFrame2hex_eq hg]
  exact packMsf_lt (by omega) (by omega) (fields_lt h)

theorem cdFrame2msf_strictMonoOn : StrictMonoOn cdFrame2msf {f | f < 720000} := by
  rintro f hf g hg h
  have hg' : g < 720000 := hg
  rw [cdFrame2msf_eq hf, cdFrame2msf_eq hg]
  refine packMsf_lt (cdHex2bcd_lt _) (cdHex2bcd_lt _) ?_
  rcases fields_lt h with hm | ⟨hm, hs | ⟨hs, hf⟩⟩
  · exact .inl (cdHex2bcd_strictMono (by omega) hm)
  · exact .inr ⟨by rw [hm], .inl (cdHex2bcd_strictMono (by omega) hs)⟩
  · exact .inr ⟨by rw [hm], .inr ⟨by rw [hs], cdHex2bcd_strictMono (by omega) hf⟩⟩

/-- The bytes assigned by the calls of `CD_HEX2BCD` in `CD_FRAME2MSF`. -/
def frame2msfAssigned (lFrame : Nat) : List Nat :=
  let m := u8 (lFrame / 4500)
  let lFrame := u32 ((lFrame : Int) - (m * 4500 : Nat))
  let s := u8 (lFrame / 75)
  let lFrame := u32 ((lFrame : Int) - (s * 75 : Nat))
  hex2bcdAssigned 0 m ++ hex2bcdAssigned 0 s ++ hex2bcdAssigned 0 (u8 lFrame)

/-- The bytes assigned by the calls of `CD_BCD2HEX` in `CD_BCDMSF2FRAME`. -/
def bcdmsf2frameAssigned (lMSF : Nat) : List Nat :=
  bcd2hexAssigned 0 (u8 (lMSF / 65536)) ++ bcd2hexAssigned 0 (u8 (lMSF / 256)) ++
    bcd2hexAssigned 0 (u8 lMSF)

theorem frame2msfAssigned_fit {f : Nat} (h : f < 720000) : FitBytes (frame2msfAssigned f) := by
  unfold frame2msfAssigned
  simp only
  rw [u8_of_lt (show f / 4500 < 256 by omega),
    show (f : Int) - (f / 4500 * 4500 : Nat) = (f % 4500 : Nat) by omega,
    u32_natCast (by omega), u8_of_lt (show f % 4500 / 75 < 256 by omega),
    show ((f % 4500 : Nat) : Int) - (f % 4500 / 75 * 75 : Nat) = (f % 75 : Nat) by omega,
    u32_natCast (by omega), u8_of_lt (show f % 75 < 256 by omega)]
  exact ((cdHex2bcd_fit (by omega)).append (cdHex2bcd_fit (by omega))).append
    (cdHex2bcd_fit (by omega))

theorem bcdmsf2frameAssigned_fit (x : Nat) : FitBytes (bcdmsf2frameAssigned x) := by
  have hfit : ∀ n, FitBytes (bcd2hexAssigned 0 (u8 n)) := fun n =>
    cdBcd2hex_fit (Nat.mod_lt n (by decide))
  exact ((hfit _).append (hfit _)).append (hfit _)

/-- **The codecs of sector addresses are mutually inverse**, without a byte
overflowing on the way, and increasing. -/
theorem msf_codecs :
    (∀ f < 160 * 4500, cdBcdmsf2frame (cdFrame2msf f) = f ∧ FitBytes (frame2msfAssigned f)) ∧
    (∀ x, FitBytes (bcdmsf2frameAssigned x)) ∧
    (∀ f < 256 * 4500, cdHexmsf2frame (cdFrame2hex f) = f) ∧
    (∀ x < 16777216, ValidBcd (x / 65536) (x / 256 % 256) (x % 256) →
      cdFrame2msf (cdBcdmsf2frame x) = x ∧
        FitBytes (frame2msfAssigned (cdBcdmsf2frame x))) ∧
    (∀ x < 16777216, ValidHex (x / 65536) (x / 256 % 256) (x % 256) →
      cdFrame2hex (cdHexmsf2frame x) = x) ∧
    StrictMonoOn cdFrame2msf {f | f < 160 * 4500} ∧
    StrictMonoOn cdFrame2hex {f | f < 256 * 4500} := by
  refine ⟨fun f hf => ⟨cdBcdmsf2frame_frame2msf hf, frame2msfAssigned_fit hf⟩,
    bcdmsf2frameAssigned_fit, fun f hf => cdHexmsf2frame_frame2hex hf, fun x hx h => ?_,
    fun x hx h => ?_, cdFrame2msf_strictMonoOn, cdFrame2hex_strictMonoOn⟩
  · have hsmall := h.frame2msf
    rw [packMsf_bytes x] at hsmall
    exact ⟨hsmall.2, frame2msfAssigned_fit (by omega)⟩
  · have hpack := h.frame2hex
    rwa [packMsf_bytes x] at hpack

/-! ### Headers -/

/-- Whatever the bytes say, a decoded frame number is small. -/
theorem cdBcdmsf2frame_lt (lMSF : Nat) : cdBcdmsf2frame lMSF < 755041 := by
  have hlt : ∀ n, u8 n < 256 := fun n => Nat.mod_lt _ (by omega)
  unfold cdBcdmsf2frame
  simp only
  rw [cdBcd2hex_eq (hlt _), cdBcd2hex_eq (hlt _), cdBcd2hex_eq (hlt _)]
  have h₁ := hlt lMSF
  have h₂ := hlt (lMSF / 256)
  have h₃ := hlt (lMSF / 65536)
  omega

end CdPlayer
