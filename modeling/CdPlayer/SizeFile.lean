/-
CdPlayer/SizeFile.lean

The size of the card, as `get_size` (hidden_mmc.c) finds it.

The kernel shows the size of a block device as text, the number of sectors
in decimal and a newline.  `get_size` reads eight bytes of it and has them
converted.  The size of any card that the hidden areas fit on has at least
seven digits, so that the buffer is full; a longer number is cut off after
its eighth digit, and what is converted is the number that the first eight
digits make (`shownSize`).  It is the size exactly if there are no more
(`shownSize_eq_iff`).

The byte behind the buffer is taken to be zero, as it is where the allocator
rounds eight bytes up.
-/
import CdPlayer.Hidden

namespace CdPlayer

/-! ### The text -/

/-- What the size file says of a card of `size` sectors. -/
def sizeText (size : Nat) : List Char := Nat.toDigits 10 size ++ ['\n']

/-- The characters of a text, and zeros behind them. -/
def cString (text : List Char) : Nat → UInt8 := fun i => (text.map Char.toUInt8).getD i 0

/-- The number that the first eight digits of `size` make. -/
def shownSize (size : Nat) : Nat :=
  if size < 100000000 then size else shownSize (size / 10)

theorem shownSize_of_lt {size : Nat} (h : size < 100000000) : shownSize size = size := by
  unfold shownSize
  rw [if_pos h]

theorem shownSize_div {size : Nat} (h : 100000000 ≤ size) :
    shownSize size = shownSize (size / 10) := by
  conv_lhs => unfold shownSize
  rw [if_neg (not_lt.mpr h)]

theorem shownSize_le (size : Nat) : shownSize size ≤ size := by
  induction size using shownSize.induct with
  | case1 size h => rw [shownSize_of_lt h]
  | case2 size h ih =>
    rw [shownSize_div (not_lt.mp h)]
    omega

theorem shownSize_lt (size : Nat) : shownSize size < 100000000 := by
  induction size using shownSize.induct with
  | case1 size h =>
    rw [shownSize_of_lt h]
    exact h
  | case2 size h ih =>
    rw [shownSize_div (not_lt.mp h)]
    exact ih

/-- Nine digits and more are shown with the first eight. -/
theorem shownSize_bounds {size : Nat} (h : 100000000 ≤ size) :
    10000000 ≤ shownSize size ∧ 10 * shownSize size ≤ size := by
  induction size using shownSize.induct with
  | case1 size hlt => exact absurd h (not_le.mpr hlt)
  | case2 size _ ih =>
    rw [shownSize_div h]
    have hle := shownSize_le (size / 10)
    refine ⟨?_, by omega⟩
    by_cases hlong : 100000000 ≤ size / 10
    · exact (ih hlong).1
    · rw [shownSize_of_lt (not_le.mp hlong)]
      omega

theorem shownSize_eq_iff (size : Nat) : shownSize size = size ↔ size < 100000000 := by
  refine ⟨fun heq => ?_, shownSize_of_lt⟩
  have hlt := shownSize_lt size
  omega

/-- The digits that are left of a long number. -/
theorem take_toDigits {size : Nat} (h : 100000000 ≤ size) :
    (Nat.toDigits 10 size).take 8 = Nat.toDigits 10 (shownSize size) := by
  induction size using shownSize.induct with
  | case1 size hlt => exact absurd h (not_le.mpr hlt)
  | case2 size _ ih =>
    have hlast := Nat.toDigits_of_base_le (b := 10) (n := size) (by decide) (by omega)
    have hlen : 8 ≤ (Nat.toDigits 10 (size / 10)).length := by
      by_contra hshort
      have hlt := (Nat.length_toDigits_le_iff (b := 10) (n := size / 10) (k := 7) (by decide)
        (by decide)).mp (by omega)
      omega
    rw [shownSize_div h, hlast, List.take_append_of_le_length hlen]
    by_cases hlong : 100000000 ≤ size / 10
    · exact ih hlong
    · have hfit := (Nat.length_toDigits_le_iff (b := 10) (n := size / 10) (k := 8) (by decide)
        (by decide)).mpr (by omega)
      rw [shownSize_of_lt (not_le.mp hlong), List.take_of_length_le hfit]

/-! ### The conversion -/

/-- The buffer holds `n` in decimal, and perhaps a newline. -/
def HoldsNumber (buf : Nat → UInt8) (n : Nat) : Prop :=
  buf = cString (Nat.toDigits 10 n) ∨ buf = cString (Nat.toDigits 10 n ++ ['\n'])

/-- **The eight bytes that are read hold the number shown.** -/
theorem holdsNumber_take (size : Nat) :
    HoldsNumber (cString ((sizeText size).take 8)) (shownSize size) := by
  unfold sizeText
  by_cases hlong : 100000000 ≤ size
  · have hlen : 8 ≤ (Nat.toDigits 10 size).length := by
      by_contra hshort
      have hlt := (Nat.length_toDigits_le_iff (b := 10) (n := size) (k := 7) (by decide)
        (by decide)).mp (by omega)
      omega
    rw [List.take_append_of_le_length hlen, take_toDigits hlong]
    exact .inl rfl
  · have hfit := (Nat.length_toDigits_le_iff (b := 10) (n := size) (k := 8) (by decide)
      (by decide)).mpr (by omega)
    rw [shownSize_of_lt (not_le.mp hlong)]
    -- a number of eight digits leaves no room for the newline
    rcases hfit.eq_or_lt with hfull | hroom
    · rw [List.take_append_of_le_length hfull.ge, List.take_of_length_le hfull.le]
      exact .inl rfl
    · rw [List.take_of_length_le (by rw [List.length_append]; exact hroom)]
      exact .inr rfl

/-! ### The size file -/

variable {σ : Type} {V : Vfs σ} {size : Nat}

/-- The size file can be read, and the number in what is read is `size`. -/
structure ReportsSize (V : Vfs σ) (size : Nat) : Prop where
  opens : ∀ s, ∃ id, (V.filpOpen .size s).1 = .file .size id
  reads : ∀ id s, 0 ≤ s32 (V.vfsRead (.file .size id) (fun _ => 0) 8 0 s).1.ret ∧
    V.strictStrtoull (V.vfsRead (.file .size id) (fun _ => 0) 8 0 s).1.buf = some size

/-- The size file of a card of `size` sectors can be read, as any file of its
length, and `strict_strtoull` converts decimal numbers that fit. -/
structure SizeFile (V : Vfs σ) (size : Nat) : Prop where
  opens : ∀ s, ∃ id, (V.filpOpen .size s).1 = .file .size id
  length : ∀ id s, (V.vfsRead (.file .size id) (fun _ => 0) 8 0 s).1.ret
    = min 8 (sizeText size).length
  text : ∀ id s, (V.vfsRead (.file .size id) (fun _ => 0) 8 0 s).1.buf
    = cString ((sizeText size).take 8)
  converts : ∀ buf n, HoldsNumber buf n → n < 18446744073709551616 →
    V.strictStrtoull buf = some n

/-- **`get_size` sees eight digits.** -/
theorem SizeFile.reports (h : SizeFile V size) : ReportsSize V (shownSize size) where
  opens := h.opens
  reads := fun id s => by
    have hlt := shownSize_lt size
    rw [h.length, h.text]
    refine ⟨?_, h.converts _ _ (holdsNumber_take size) (by omega)⟩
    have hle : min 8 (sizeText size).length ≤ 8 := min_le_left _ _
    rw [s32_of_lt (by omega) (by omega)]
    exact Int.natCast_nonneg _

end CdPlayer
