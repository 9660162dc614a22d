/-
CdPlayer/Margin.lean

How many raw sectors `CD_ReadData` fetches (cdif_drv.c).

A request for `n` sectors is clamped against `maxSector`, 200 sectors.  If
there is room for the whole margin of twelve, `n + 12` are fetched; if not,
the margin is computed as the *excess* over `maxSector`, and from 188 sectors
on the sum grows as twice the excess; above 200 sectors the request itself is
cut (`fetchedSectors_eq`).

A seek lands six sectors before the one wanted, so a request is served from
one fetch if six more sectors than requested are fetched, and the fetch keeps
to `maxSector` if it has at most 200.  Both hold below 188 sectors, at 194
and above 200, and nowhere else (`fetch_covers_iff`).  What exceeds
`maxSector` does not leave the chunk: `CD_ChunkBuf` is an array of shorts, as
long as 200 sectors have bytes, and so has room for 400.
-/
import CdPlayer.TryRead

namespace CdPlayer

/-- `maxSector`. -/
def maxSector : Nat := cddaBufferSize / 2352

/-- The raw sectors fetched for a request of `n`. -/
def fetchedSectors (n : Nat) : Nat := wantSampleSize n / cddaSampleSize

variable {n : Nat}

theorem wantSampleSize_fetched (n : Nat) : wantSampleSize n = 588 * fetchedSectors n := by
  have hdvd : cddaSampleSize ∣ wantSampleSize n := Dvd.intro_left _ rfl
  exact (Nat.mul_div_cancel' hdvd).symm

/-- The three cases of the clamp. -/
theorem fetchedSectors_eq (n : Nat) :
    fetchedSectors n = if n < 188 then n + 12 else if n ≤ 200 then 2 * n - 188 else 188 := by
  have hmax : cddaBufferSize / 2352 = 200 := rfl
  have htol : cdSeekTolerance = 12 := rfl
  have hclamp : fetchedSectors n = (clampSectors n).1 + (clampSectors n).2 :=
    Nat.mul_div_cancel _ (by decide)
  rw [hclamp]
  unfold clampSectors
  simp only [hmax, htol]
  by_cases hn : 200 ≥ n
  · rw [if_pos hn]
    by_cases hroom : 200 > n + 12
    · rw [if_pos hroom, if_pos (by omega)]
    · -- the margin is what exceeds `maxSector`, not what is left of it
      rw [if_neg hroom, if_neg (by omega), if_pos hn]
      simp only
      omega
  · rw [if_neg hn, if_neg (by omega), if_neg (by omega)]
    rfl

/-- What a round of `CD_DescrambleSector` has fetched when it goes on to
search. -/
theorem tryReadStep_readSize (env : Env) (fuel startAddr n : Nat) (s : Scan)
    (h : (tryReadStep env fuel startAddr n s).label = .searchLbn) :
    (tryReadStep env fuel startAddr n s).readSize = 2352 * fetchedSectors (s.roundSize n) := by
  unfold tryReadStep at h ⊢
  simp only at h ⊢
  have hvalue := @cdReadData_value env fuel (s.roundMsf startAddr) (s.roundSize n) s.pdCDBuff
    s.world
  unfold Scan.roundMsf at hvalue
  rcases hread : cdReadData env fuel (u32 ((startAddr + s.usedSectNum : Nat) + cdGetDiffValue))
    (u32 ((n : Int) - s.usedSectNum)) s.pdCDBuff s.world with ⟨- | v, u⟩
  · rw [hread] at h
    cases h
  · rw [hread] at h
    simp only at h ⊢
    split at h
    next => cases h
    next hpos =>
      -- a positive result is the number of bytes asked for
      rw [if_neg hpos]
      have hv : v = (wantSampleSize (s.roundSize n) : Int) * 4 := by
        refine hvalue ?_ (by omega)
        unfold Scan.roundSize
        rw [hread]
      show v = _
      rw [hv, wantSampleSize_fetched]
      push_cast
      ring

/-- A request for `n` sectors is fetched as it should be: no more than
`maxSector` are fetched; six sectors more than requested are, if `maxSector`
leaves room for them; and then, in any round that asks for `n` and goes on to
search, each requested sector lies in the bytes fetched if the first of
them is the sector sought. -/
structure FetchCovers (n : Nat) : Prop where
  fits : fetchedSectors n ≤ maxSector
  margin : n + cdSeekPosition ≤ maxSector → n + cdSeekPosition ≤ fetchedSectors n
  inside : n + cdSeekPosition ≤ maxSector →
    ∀ (env : Env) (fuel startAddr m : Nat) (s : Scan), s.roundSize m = n →
      (tryReadStep env fuel startAddr m s).label = .searchLbn →
      ∀ i : Nat, i < n → (2352 * (cdSeekPosition + i) + 2352 : Int)
        ≤ (tryReadStep env fuel startAddr m s).readSize

theorem FetchCovers.of_margin (hfits : fetchedSectors n ≤ maxSector)
    (hmargin : n + cdSeekPosition ≤ maxSector → n + cdSeekPosition ≤ fetchedSectors n) :
    FetchCovers n where
  fits := hfits
  margin := hmargin
  inside := by
    intro hroom env fuel startAddr m s hsize hlabel i hi
    have hfetched := hmargin hroom
    rw [tryReadStep_readSize env fuel startAddr m s hlabel, hsize]
    simp only [cdSeekPosition] at hfetched ⊢
    omega

/-- **When a fetch covers its request.** -/
theorem fetch_covers_iff (hn : 1 ≤ n) : FetchCovers n ↔ n ≤ 187 ∨ n = 194 ∨ 200 < n := by
  have hmax : maxSector = 200 := rfl
  have hpos : cdSeekPosition = 6 := rfl
  have heq := fetchedSectors_eq n
  constructor
  · intro h
    have hfits := h.fits
    have hmargin := h.margin
    rw [hmax, heq] at hfits
    rw [hmax, hpos, heq] at hmargin
    by_cases hsmall : n < 188
    · omega
    · rw [if_neg hsmall] at hfits hmargin
      by_cases hmost : n ≤ 200
      · -- too few below 194, too many above
        rw [if_pos hmost] at hfits hmargin
        omega
      · omega
  · intro hcond
    have hfetch : fetchedSectors n ≤ 200 ∧ (n ≤ 194 → n + 6 ≤ fetchedSectors n) := by
      rw [heq]
      rcases hcond with hsmall | rfl | hlarge
      · rw [if_pos (by omega)]
        omega
      · decide
      · rw [if_neg (by omega), if_neg (by omega)]
        omega
    apply FetchCovers.of_margin
    · exact hfetch.1
    · intro hroom
      rw [hmax, hpos] at hroom
      exact hfetch.2 (by omega)

/-- The boundary case: for 194 sectors `maxSector` are fetched. -/
theorem fetch_covers_full : fetchedSectors 194 = 200 ∧ FetchCovers 194 :=
  ⟨by decide, (fetch_covers_iff (by decide)).mpr (.inr (.inl rfl))⟩

/-- For 188 sectors no margin is fetched, and for 195 more than `maxSector`. -/
theorem fetch_short_and_long :
    fetchedSectors 188 = 188 ∧ ¬ FetchCovers 188 ∧
      fetchedSectors 195 = 202 ∧ ¬ FetchCovers 195 := by
  refine ⟨by decide, fun h => ?_, by decide, fun h => ?_⟩
  · exact absurd (h.margin (by decide)) (by decide)
  · exact absurd h.fits (by decide)

end CdPlayer
